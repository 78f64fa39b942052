import CsiFirmware.Webserver.RequestOrder

/-!
# Who removes what from the request queue

Reference: `HttpService::handle_request` and `HttpService::receive`.

A handler takes the head of the queue for its own entry when the two bodies are equal, and removes
the head several steps later. As long as the head it finds is its own, nothing else is ever removed,
and no handler looks at an empty queue. The worker does when the last entry is removed between its
test and `front()`.
-/

namespace CsiFirmware.Webserver

open Runs Threads

variable {jsonInt : String → String → Option Int} {s s' : HttpState} {e : HttpEvent}

/-- The handler has found its body at the head and has not removed it yet. -/
def HandlerPc.found : HandlerPc → Bool
  | .checkEmpty | .testResponse | .readCode | .setContent _ | .clear | .pop => true
  | .enter | .blocked | .woken | .done => false

/-- Every handler that is not done has its entry in the queue, and at the head when it has found it.
-/
structure EntriesOwned (s : HttpState) : Prop where
  queued : All (fun i h => h.pc ≠ .done → i ∈ s.recvQueue.map Entry.owner) s.handlers
  head : All (fun i h => h.pc.found → s.recvQueue.head?.map Entry.owner = some i) s.handlers

/-- A handler that compares the head of the queue with its body finds them equal only if the head is
its own entry. -/
def MatchesOwn (s : HttpState) : HttpEvent → Prop
  | .handler i =>
      ∀ h ∈ s.handlers[i]?, h.pc = .woken →
        ∀ x ∈ s.recvQueue.head?, x.body = h.body → x.owner = i
  | _ => True

instance : ∀ e, Decidable (MatchesOwn s e)
  | .handler i => inferInstanceAs (Decidable (∀ h ∈ s.handlers[i]?, h.pc = .woken →
      ∀ x ∈ s.recvQueue.head?, x.body = h.body → x.owner = i))
  | .request _ | .spurious _ | .worker _ => isTrue trivial

/-- There are no handlers yet. -/
theorem entriesOwned_initial : EntriesOwned .initial := by
  constructor <;> simp [HttpState.initial]

namespace EntriesOwned

/-- A step of a handler that leaves the queue alone. -/
theorem put {i : ℕ} {h h' : Handler} (hs : EntriesOwned s) (at_i : s.handlers[i]? = some h)
    (hdone : h.pc ≠ .done)
    (hhead : h'.pc.found → s.recvQueue.head?.map Entry.owner = some i) :
    EntriesOwned (s.put i h') where
  queued := hs.queued.set fun _ => hs.queued i h at_i hdone
  head := hs.head.set hhead

/-- A handler that finds its body at the head has found its own entry. -/
theorem move {i : ℕ} {h h' : Handler} (hs : EntriesOwned s) (at_i : s.handlers[i]? = some h)
    (hown : MatchesOwn s (.handler i)) (move : HandlerMove jsonInt s h h') :
    EntriesOwned (s.put i h') := by
  have hhead : h.pc.found → s.recvQueue.head?.map Entry.owner = some i := hs.head i h at_i
  cases move with
  | own e q pc queue body =>
      refine hs.put at_i (by simp [pc]) fun _ => ?_
      have howner : e.owner = i := hown h at_i pc e (by simp [queue]) body
      simp [queue, howner]
  | wait pc | foreign e q pc | retry pc =>
      exact hs.put at_i (by simp [pc]) (by simp [HandlerPc.found])
  | leave pc | skip pc | answer pc | readCode pc | setContent code type pc =>
      exact hs.put at_i (by simp [pc]) fun _ => hhead (by simp [pc, HandlerPc.found])

/-- No step takes an entry away from a handler that is not done. -/
theorem step (hs : EntriesOwned s) (hown : MatchesOwn s e) (h : s.step jsonInt e = some s') :
    EntriesOwned s' := by
  cases HttpState.step_transition h with
  | request body =>
      constructor
      · refine All.concat (hs.queued.mono fun i g _ hi hdone => ?_) (by simp)
        simpa using Or.inl (hi hdone)
      · refine All.concat (hs.head.mono fun i g _ hi hfound => ?_) (by simp [HandlerPc.found])
        have hhead := hi hfound
        cases hq : s.recvQueue with
        | nil => simp [hq] at hhead
        | cons x q => simpa [hq] using hhead
  | move i g g' at_i move => exact hs.move at_i hown move
  | clear i g at_i pc =>
      have hput : EntriesOwned (s.put i { g with pc := .pop }) :=
        hs.put at_i (by simp [pc]) fun _ => hs.head i g at_i (by simp [pc, HandlerPc.found])
      exact ⟨hput.queued, hput.head⟩
  | pop i g x q at_i pc queue =>
      have howner : x.owner = i := by
        simpa [queue] using hs.head i g at_i (by simp [pc, HandlerPc.found])
      constructor
      · refine all_set (fun j k hne at_j hdone => ?_) (by simp)
        have hmem := hs.queued j k at_j hdone
        rw [queue, List.map_cons, List.mem_cons] at hmem
        exact hmem.resolve_left fun heq => hne (heq.trans howner)
      · refine all_set (fun j k hne at_j hfound => ?_) (by simp [HandlerPc.found])
        -- another handler would own the same head
        have hhead := hs.head j k at_j hfound
        simp only [queue, List.head?_cons, Option.map_some, Option.some.injEq] at hhead
        exact absurd (hhead.symm.trans howner) hne
  | spurious i g at_i pc => exact hs.put at_i (by simp [pc]) (by simp [HandlerPc.found])
  | think | resetSize | front | store => exact ⟨hs.queued, hs.head⟩
  | notify =>
      constructor
      · refine all_map (hs.queued.mono fun i g _ hi hdone => hi fun hpc => hdone ?_)
        simp [Handler.wake, hpc]
      · refine all_map (hs.head.mono fun i g _ hi hfound => hi ?_)
        unfold Handler.wake at hfound
        split at hfound
        · simp [HandlerPc.found] at hfound
        · exact hfound

end EntriesOwned

/-! ## The operations on the queue -/

/-- The worker has found the queue not empty and is about to call `front()`. -/
def WorkerPc.atFront : WorkerPc → Bool
  | .front _ => true
  | _ => false

/-- A handler removes its own entry, and `front()` is called when there is one. -/
def Disciplined (s : HttpState) : HttpEvent → Prop
  | .handler i =>
      ∀ h ∈ s.handlers[i]?, (h.pc = .woken → s.recvQueue ≠ []) ∧
        (h.pc = .pop → s.recvQueue.head?.map Entry.owner = some i)
  | .worker _ => s.worker.atFront → s.recvQueue ≠ []
  | _ => True

instance : ∀ e, Decidable (Disciplined s e)
  | .handler i => inferInstanceAs (Decidable (∀ h ∈ s.handlers[i]?,
      (h.pc = .woken → s.recvQueue ≠ []) ∧
        (h.pc = .pop → s.recvQueue.head?.map Entry.owner = some i)))
  | .worker _ => inferInstanceAs (Decidable (s.worker.atFront → s.recvQueue ≠ []))
  | .request _ | .spurious _ => isTrue trivial

/-- The last entry is not removed while the worker is about to call `front()`. -/
def KeepsLast (s : HttpState) : HttpEvent → Prop
  | .handler i =>
      ∀ h ∈ s.handlers[i]?, h.pc = .pop → s.recvQueue.length = 1 → s.worker.atFront = false
  | _ => True

instance : ∀ e, Decidable (KeepsLast s e)
  | .handler i => inferInstanceAs (Decidable (∀ h ∈ s.handlers[i]?,
      h.pc = .pop → s.recvQueue.length = 1 → s.worker.atFront = false))
  | .request _ | .spurious _ | .worker _ => isTrue trivial

/-- What the worker found about the queue still holds after a step that keeps the last entry. -/
theorem atFront_step (hs : s.worker.atFront → s.recvQueue ≠ []) (hkeep : KeepsLast s e)
    (h : s.step jsonInt e = some s') : s'.worker.atFront → s'.recvQueue ≠ [] := by
  cases HttpState.step_transition h with
  | request => simp
  | move | clear | spurious => exact hs
  | pop i g x q at_i pc queue =>
      rintro hfront rfl
      have hfalse := hkeep g at_i pc (by simp [queue])
      exact Bool.false_ne_true (hfalse.symm.trans hfront)
  | think text pc move =>
      cases move with
      | changed cur pc queue => exact fun _ => queue
      | empty | nonempty | readSize | unchanged | ignore | execute => simp [WorkerPc.atFront]
  | resetSize | front | store | notify => simp [WorkerPc.atFront]

/-- In every run in which handlers take only their own entries for their own, and the last entry is
not removed under the hands of the worker, each `pop()` removes the entry of the handler that calls
it, and `front()` and `pop()` are never applied to an empty queue. -/
theorem queue_disciplined (jsonInt : String → String → Option Int) {es : List HttpEvent}
    (h : StepsMeet (HttpState.step jsonInt) (fun s e => MatchesOwn s e ∧ KeepsLast s e) .initial
      es) :
    StepsMeet (HttpState.step jsonInt) Disciplined .initial es := by
  refine StepsMeet.imp (fun s => EntriesOwned s ∧ (s.worker.atFront → s.recvQueue ≠ []))
    ?_ ?_ ⟨entriesOwned_initial, by simp [HttpState.initial, WorkerPc.atFront]⟩ h
  · rintro s e ⟨howned, hfront⟩ -
    cases e with
    | handler i =>
        intro g at_i
        refine ⟨fun pc hq => ?_, fun pc => howned.head i g at_i (by simp [pc, HandlerPc.found])⟩
        have hmem := howned.queued i g at_i (by simp [pc])
        simp [hq] at hmem
    | worker text => exact hfront
    | request | spurious => trivial
  · rintro s e s' ⟨howned, hfront⟩ ⟨hown, hkeep⟩ hs'
    exact ⟨howned.step hown hs', atFront_step hfront hkeep hs'⟩

/-- Two requests with the same body, of which the second finds the entry of the first at the head.
-/
def secondTakesFirst : List HttpEvent :=
  [.request bodyA, .request bodyA, .handler 0, .handler 1, .worker "", .worker "", .worker "",
    .worker "", .worker addedText, .worker "", .worker "", .handler 1, .handler 1, .handler 1,
    .handler 1, .handler 1, .handler 1, .handler 1]

/-- Not in every run does each handler remove its own entry. -/
theorem foreign_entry_removed :
    ¬ ∀ (jsonInt : String → String → Option Int) (es : List HttpEvent),
      StepsMeet (HttpState.step jsonInt) Disciplined .initial es := by
  intro h
  -- the second handler removes the entry of the first
  exact absurd (h addDevJson secondTakesFirst) (by decide +kernel)

/-- Two requests one after the other remove their own entries. -/
theorem twoRequests_disciplined :
    StepsMeet (HttpState.step addDevJson) (fun s e => MatchesOwn s e ∧ KeepsLast s e) .initial
        twoRequests ∧
      StepsMeet (HttpState.step addDevJson) Disciplined .initial twoRequests := by
  have h : StepsMeet (HttpState.step addDevJson) (fun s e => MatchesOwn s e ∧ KeepsLast s e)
      .initial twoRequests := by decide +kernel
  exact ⟨h, queue_disciplined addDevJson h⟩

end CsiFirmware.Webserver
