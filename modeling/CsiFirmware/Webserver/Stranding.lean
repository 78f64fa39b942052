import CsiFirmware.Webserver.RequestOrder

/-!
# Requests that are left without a response

Reference: `HttpService::receive`, `HttpService::send` and `HttpService::handle_request`.

A request is lost in two ways. The notification for it comes before its handler waits; or the size
of the queue is the same as at the last call of `receive` although another request is at the head.
Both end in a state from which nothing but a new request leads on. `no_request_stranded` says what
rules this out: after every push, pop and notification, somebody attends to the head of the queue.
-/

namespace CsiFirmware.Webserver

open Runs Threads

variable {jsonInt : String → String → Option Int} {s s' : HttpState} {e : HttpEvent}

/-! ## Stranded states -/

/-- Neither a new request nor a spurious wake-up. -/
def HttpEvent.Quiet : HttpEvent → Prop
  | .handler _ | .worker _ => True
  | .request _ | .spurious _ => False

/-- Every handler whose request is in the queue is inside `handle_cv.wait`. -/
def QueuedBlocked (s : HttpState) : Prop :=
  ∀ x ∈ s.recvQueue, ∀ h, s.handlers[x.owner]? = some h → h.pc = .blocked

/-- There are requests in the queue, their handlers wait, and as long as no new request arrives they
go on waiting and `receive` returns no request. -/
def Stranded (jsonInt : String → String → Option Int) (s : HttpState) : Prop :=
  s.recvQueue ≠ [] ∧ QueuedBlocked s ∧
    ∀ es s', (∀ e ∈ es, e.Quiet) → run (HttpState.step jsonInt) s es = some s' →
      QueuedBlocked s' ∧ s'.returned = s.returned

/-! ## Attention to the head of the queue -/

/-- The handler has been woken and is not done. -/
def HandlerPc.awake : HandlerPc → Bool
  | .enter | .blocked | .done => false
  | _ => true

/-- A handler is asleep before its wait, inside it and when it is done. -/
theorem HandlerPc.awake_iff {pc : HandlerPc} :
    pc.awake ↔ pc ≠ .enter ∧ pc ≠ .blocked ∧ pc ≠ .done := by
  cases pc <;> simp [HandlerPc.awake]

/-- A notification wakes every handler that has entered its wait. -/
theorem Handler.awake_wake (h : Handler) (hentered : h.pc ≠ .enter) (hdone : h.pc ≠ .done) :
    h.wake.pc.awake := by
  unfold Handler.wake
  split
  · rfl
  next hblocked => exact HandlerPc.awake_iff.mpr ⟨hentered, hblocked, hdone⟩

/-- A handler with the body of the head is awake. -/
def HeadAwake (handlers : List Handler) (queue : List Entry) : Prop :=
  ∃ x ∈ queue.head?, ∃ h ∈ handlers, h.pc.awake ∧ h.body = x.body

instance (handlers : List Handler) (queue : List Entry) : Decidable (HeadAwake handlers queue) :=
  inferInstanceAs (Decidable (∃ x ∈ queue.head?, ∃ h ∈ handlers, h.pc.awake ∧ h.body = x.body))

/-- The worker is going to take the head of a queue of `n` entries or to notify the handlers, if
nothing else happens: it is past the size test, or `n` differs from `lastQueueSize`. -/
def WillAct (s : HttpState) (n : ℕ) : Prop :=
  match s.worker with
  | .checkEmpty | .readSize => n ≠ s.lastQueueSize
  | .resetSize => False
  | .testSize cur => cur ≠ s.lastQueueSize ∨ n ≠ s.lastQueueSize
  | .front _ | .operation _ | .store _ _ | .notify _ => True

instance (s : HttpState) (n : ℕ) : Decidable (WillAct s n) := by
  unfold WillAct
  split <;> infer_instance

/-- Somebody attends to the head of the queue. -/
def Attended (s : HttpState) : Prop :=
  s.recvQueue = [] ∨ WillAct s s.recvQueue.length ∨ HeadAwake s.handlers s.recvQueue

/-- The worker is about to notify the handlers. -/
def WorkerPc.atNotify : WorkerPc → Bool
  | .notify _ => true
  | _ => false

/-- A request asks for a task, and its arrival, the removal of an entry and a notification leave
somebody attending to the head of the queue. -/
def KeepsAttention (jsonInt : String → String → Option Int) (s : HttpState) : HttpEvent → Prop
  | .request body =>
      selectedTask jsonInt body ≠ none ∧
        (WillAct s (s.recvQueue.length + 1) ∨ HeadAwake s.handlers s.recvQueue)
  | .handler i =>
      ∀ h ∈ s.handlers[i]?, h.pc = .pop → s.recvQueue.tail = [] ∨
        WillAct s s.recvQueue.tail.length ∨
          HeadAwake (s.put i { h with pc := .done }).handlers s.recvQueue.tail
  | .spurious _ => True
  | .worker _ =>
      s.worker.atNotify → s.recvQueue = [] ∨ s.recvQueue.length ≠ s.lastQueueSize ∨
        ∃ x ∈ s.recvQueue.head?, ∃ h ∈ s.handlers,
          h.pc ≠ .enter ∧ h.pc ≠ .done ∧ h.body = x.body

instance : ∀ e, Decidable (KeepsAttention jsonInt s e)
  | .request _ => inferInstanceAs (Decidable (_ ∧ (_ ∨ _)))
  | .handler i => inferInstanceAs (Decidable (∀ h ∈ s.handlers[i]?, h.pc = .pop →
      s.recvQueue.tail = [] ∨ WillAct s s.recvQueue.tail.length ∨
        HeadAwake (s.put i { h with pc := .done }).handlers s.recvQueue.tail))
  | .spurious _ => isTrue trivial
  | .worker _ => inferInstanceAs (Decidable (s.worker.atNotify → s.recvQueue = [] ∨
      s.recvQueue.length ≠ s.lastQueueSize ∨ ∃ x ∈ s.recvQueue.head?, ∃ h ∈ s.handlers,
        h.pc ≠ .enter ∧ h.pc ≠ .done ∧ h.body = x.body))

/-- A step of handler `i` that keeps it awake, if its body is that of the head. -/
theorem HeadAwake.set {handlers : List Handler} {queue : List Entry} {i : ℕ} {g g' : Handler}
    (h : HeadAwake handlers queue) (at_i : handlers[i]? = some g)
    (hg : ∀ x ∈ queue.head?, g.pc.awake → g.body = x.body → g'.pc.awake ∧ g'.body = g.body) :
    HeadAwake (handlers.set i g') queue := by
  obtain ⟨x, hx, k, hk, hawake, hbody⟩ := h
  rcases mem_set_or (i := i) (a := g') hk with hk' | at_i'
  · exact ⟨x, hx, k, hk', hawake, hbody⟩
  · obtain rfl : g = k := Option.some.inj (at_i.symm.trans at_i')
    obtain ⟨hawake', hbody'⟩ := hg x hx hawake hbody
    exact ⟨x, hx, g', mem_set_self at_i, hawake', hbody'.trans hbody⟩

/-- A handler with the body of the head does not stop waiting for it. -/
theorem HandlerMove.awake {g g' : Handler} {x : Entry} (move : HandlerMove jsonInt s g g')
    (hx : x ∈ s.recvQueue.head?) (hawake : g.pc.awake) (hbody : g.body = x.body) :
    g'.pc.awake ∧ g'.body = g.body := by
  refine ⟨?_, move.body⟩
  cases move with
  | wait pc => simp [pc, HandlerPc.awake] at hawake
  | foreign e q pc queue body =>
      obtain rfl : e = x := by simpa [queue] using hx
      exact absurd hbody.symm body
  | retry pc queue => simp [queue] at hx
  | own | leave | skip | answer | readCode | setContent => rfl

/-- Every request in the queue or in execution asks for a task. -/
structure Answerable (jsonInt : String → String → Option Int) (s : HttpState) : Prop where
  queue : ∀ x ∈ s.recvQueue, selectedTask jsonInt x.body ≠ none
  current : ∀ request, s.worker = .operation request → selectedTask jsonInt request.body ≠ none

/-- The condition lets no request in that asks for no task. -/
theorem Answerable.step (hs : Answerable jsonInt s) (hkeep : KeepsAttention jsonInt s e)
    (h : s.step jsonInt e = some s') : Answerable jsonInt s' := by
  cases HttpState.step_transition h with
  | request body =>
      refine ⟨fun x hx => ?_, hs.current⟩
      rw [List.mem_append, List.mem_singleton] at hx
      rcases hx with hx | rfl
      · exact hs.queue x hx
      · exact hkeep.1
  | move | clear | spurious => exact ⟨hs.queue, hs.current⟩
  | pop i g x q at_i pc queue => exact ⟨fun y hy => hs.queue y (by simp [queue, hy]), hs.current⟩
  | think text pc move =>
      refine ⟨hs.queue, fun request hrequest => ?_⟩
      cases move <;> cases hrequest
  | resetSize | store | notify => exact ⟨hs.queue, fun _ hr => by cases hr⟩
  | front text cur x q pc queue =>
      refine ⟨hs.queue, fun request hrequest => ?_⟩
      obtain rfl := WorkerPc.operation.inj hrequest
      exact hs.queue x (by simp [queue])

/-- Every step that meets the condition leaves somebody attending to the head of the queue. -/
theorem Attended.step (hs : Attended s) (hanswerable : Answerable jsonInt s)
    (hkeep : KeepsAttention jsonInt s e) (h : s.step jsonInt e = some s') : Attended s' := by
  cases HttpState.step_transition h with
  | request body =>
      rcases hkeep.2 with hact | ⟨x, hx, k, hk, hawake⟩
      · exact .inr (.inl (by simpa [WillAct] using hact))
      · refine .inr (.inr ⟨x, ?_, k, List.mem_append_left _ hk, hawake⟩)
        exact List.mem_head?_append_of_mem_head? hx
  | move i g g' at_i move =>
      exact hs.imp_right (Or.imp_right fun hawake =>
        hawake.set at_i fun x hx hg hbody => move.awake hx hg hbody)
  | clear i g at_i pc =>
      exact hs.imp_right (Or.imp_right fun hawake => hawake.set at_i fun _ _ _ _ => ⟨rfl, rfl⟩)
  | pop i g x q at_i pc queue => simpa [Attended, WillAct, queue] using hkeep g at_i pc
  | spurious i g at_i pc =>
      exact hs.imp_right (Or.imp_right fun hawake => hawake.set at_i fun _ _ _ _ => ⟨rfl, rfl⟩)
  | think text pc move =>
      rcases hs with hnil | hact | hawake
      · exact .inl hnil
      · cases move with
        | empty pc queue => exact .inl queue
        | nonempty pc | readSize pc =>
            simp only [WillAct, pc] at hact
            exact .inr (.inl (by simp [WillAct, hact]))
        | unchanged cur pc size =>
            simp only [WillAct, pc] at hact
            rcases size with hnil | heq
            · exact .inl hnil
            · exact .inr (.inl (hact.resolve_left fun hne => hne heq))
        -- the one way back to `receive` without a notification
        | ignore request pc task => exact absurd task (hanswerable.current request pc)
        | changed | execute => exact .inr (.inl trivial)
      · exact .inr (.inr hawake)
  | resetSize text pc =>
      rcases hs with hnil | hact | hawake
      · exact .inl hnil
      · simp [WillAct, pc] at hact
      · exact .inr (.inr hawake)
  | front | store => exact .inr (.inl trivial)
  -- a handler that is before its wait misses the notification
  | notify text request pc =>
      rcases hkeep (by simp [pc, WorkerPc.atNotify]) with
        hnil | hsize | ⟨x, hx, k, hk, hentered, hdone, hbody⟩
      · exact .inl hnil
      · exact .inr (.inl hsize)
      · refine .inr (.inr ⟨x, hx, k.wake, List.mem_map_of_mem hk, ?_, by simpa using hbody⟩)
        exact k.awake_wake hentered hdone

/-- The handler has not removed an entry yet. -/
def HandlerPc.unfinished : HandlerPc → Bool
  | .done => false
  | _ => true

/-- A handler that is awake is not done. -/
theorem HandlerPc.unfinished_of_awake {pc : HandlerPc} (h : pc.awake) : pc.unfinished := by
  cases pc with
  | done => cases h
  | enter | blocked | woken | checkEmpty | testResponse | readCode | setContent | clear | pop => rfl

/-- There are as many entries in the queue as handlers that are not done. -/
def Counted (s : HttpState) : Prop :=
  s.recvQueue.length = s.handlers.countP fun h => h.pc.unfinished

/-- A handler that goes on without being done changes no number. -/
theorem Counted.put {i : ℕ} {g g' : Handler} (hs : Counted s) (at_i : s.handlers[i]? = some g)
    (hg : g.pc.unfinished) (hg' : g'.pc.unfinished) : Counted (s.put i g') := by
  have hcount := countP_set_add (a := g') (fun h => h.pc.unfinished) at_i
  rw [if_pos hg, if_pos hg'] at hcount
  exact Eq.trans hs (Nat.add_right_cancel hcount).symm

/-- A handler comes with an entry and leaves with one, though it need not be its own. -/
theorem Counted.step (hs : Counted s) (h : s.step jsonInt e = some s') : Counted s' := by
  cases HttpState.step_transition h with
  | request body =>
      simp only [Counted] at hs
      simp [Counted, hs, HandlerPc.unfinished]
  | move i g g' at_i move =>
      cases move with
      | wait pc | own _ _ pc | foreign _ _ pc | retry pc | leave pc | skip pc | answer pc
      | readCode pc | setContent _ _ pc =>
          exact hs.put at_i (by simp [pc, HandlerPc.unfinished]) rfl
  | clear i g at_i pc => exact hs.put at_i (by simp [pc, HandlerPc.unfinished]) rfl
  | pop i g x q at_i pc queue =>
      have hcount := countP_set_add (a := { g with pc := .done }) (fun h => h.pc.unfinished) at_i
      rw [if_pos (by simp [pc, HandlerPc.unfinished]), if_neg (by simp [HandlerPc.unfinished])]
        at hcount
      simp only [Counted, queue, List.length_cons] at hs
      exact Nat.add_right_cancel (hs.trans hcount.symm)
  | spurious i g at_i pc => exact hs.put at_i (by simp [pc, HandlerPc.unfinished]) rfl
  | think | resetSize | front | store => exact hs
  | notify =>
      simp only [Counted, List.countP_map] at hs ⊢
      rw [hs]
      -- a notification makes no handler done
      refine List.countP_congr fun k hk => ?_
      unfold Function.comp Handler.wake
      split
      next hblocked => simp [hblocked, HandlerPc.unfinished]
      · rfl

/-! ## Ways out -/

/-- The handler of some request in the queue waits. -/
def SomeBlocked (s : HttpState) : Prop :=
  ∃ x ∈ s.recvQueue, ∃ h, s.handlers[x.owner]? = some h ∧ h.pc = .blocked

/-- If all wait and there is a request, some handler waits. -/
theorem QueuedBlocked.someBlocked (hall : QueuedBlocked s) (horder : RequestOrder s)
    (hq : s.recvQueue ≠ []) : SomeBlocked s := by
  obtain ⟨x, q, queue⟩ := List.exists_cons_of_ne_nil hq
  have hx : x ∈ s.recvQueue := by simp [queue]
  obtain ⟨h, at_x, -⟩ := horder.body x hx
  exact ⟨x, hx, h, at_x, hall x hx h at_x⟩

/-- If the handlers of all requests in the queue wait, then every handler that is not done waits:
there are no more of them than requests. -/
theorem QueuedBlocked.blocked {i : ℕ} {h : Handler} (hall : QueuedBlocked s)
    (horder : RequestOrder s) (hcounted : Counted s) (at_i : s.handlers[i]? = some h)
    (hunfinished : h.pc.unfinished) : h.pc = .blocked := by
  have howner : i ∈ s.recvQueue.map Entry.owner := by
    refine mem_of_countP_le (p := fun h => h.pc.unfinished) (horder.queue.imp fun hlt => hlt.ne)
      ?_ ?_ at_i hunfinished
    · intro k hk
      obtain ⟨x, hx, rfl⟩ := List.mem_map.mp hk
      obtain ⟨g, at_x, -⟩ := horder.body x hx
      exact ⟨g, at_x, by rw [hall x hx g at_x]; rfl⟩
    · rw [List.length_map, hcounted]
  obtain ⟨x, hx, rfl⟩ := List.mem_map.mp howner
  exact hall x hx h at_i

/-- A way to wake a handler or to return a request, without a new request. -/
def Escapes (jsonInt : String → String → Option Int) (s : HttpState) : Prop :=
  ∃ es s', (∀ e ∈ es, e.Quiet) ∧ run (HttpState.step jsonInt) s es = some s' ∧
    ¬ (QueuedBlocked s' ∧ s'.returned = s.returned)

namespace Escapes

/-- A way out contradicts waiting for ever. -/
theorem not_stranded (h : Escapes jsonInt s) : ¬ Stranded jsonInt s := by
  rintro ⟨-, -, hforever⟩
  obtain ⟨es, s', hquiet, hrun, hescape⟩ := h
  exact hescape (hforever es s' hquiet hrun)

/-- A step of the worker that is a way out. -/
theorem of_step {text : String} (hs : s.step jsonInt (.worker text) = some s')
    (hescape : ¬ (QueuedBlocked s' ∧ s'.returned = s.returned)) : Escapes jsonInt s := by
  refine ⟨[.worker text], s', List.forall_mem_singleton.mpr trivial, ?_, hescape⟩
  rw [run_cons, hs, Option.bind_some, run_nil]

/-- A step of the worker that leads to a way out. -/
theorem of_worker {text : String} (hs : s.step jsonInt (.worker text) = some s')
    (hreturned : s'.returned = s.returned) (h : Escapes jsonInt s') : Escapes jsonInt s := by
  obtain ⟨es, s₁, hquiet, hrun, hescape⟩ := h
  refine ⟨.worker text :: es, s₁, List.forall_mem_cons.mpr ⟨trivial, hquiet⟩, ?_, ?_⟩
  · rw [run_cons, hs, Option.bind_some, hrun]
  · rwa [hreturned] at hescape

/-- The worker is about to return the head. -/
theorem front {cur : ℕ} (pc : s.worker = .front cur) (hq : s.recvQueue ≠ []) :
    Escapes jsonInt s := by
  obtain ⟨x, q, queue⟩ := List.exists_cons_of_ne_nil hq
  have hs : s.step jsonInt (.worker "") = some { s with
      lastQueueSize := cur
      worker := .operation x
      returned := s.returned ++ [x.owner] } := by
    simp [HttpState.step, workerStep, pc, queue]
  exact of_step hs fun h => by simp at h

/-- The worker is about to see that the size has changed. -/
theorem testSize {cur : ℕ} (pc : s.worker = .testSize cur) (hq : s.recvQueue ≠ [])
    (hsize : cur ≠ s.lastQueueSize) : Escapes jsonInt s := by
  have hs : s.step jsonInt (.worker "") = some { s with worker := .front cur } := by
    simp [HttpState.step, workerStep, pc, hq, hsize]
  exact of_worker hs rfl (front rfl hq)

/-- The worker is about to read a size that has changed. -/
theorem readSize (pc : s.worker = .readSize) (hq : s.recvQueue ≠ [])
    (hsize : s.recvQueue.length ≠ s.lastQueueSize) : Escapes jsonInt s := by
  have hs : s.step jsonInt (.worker "") =
      some { s with worker := .testSize s.recvQueue.length } := by
    simp [HttpState.step, workerStep, pc]
  exact of_worker hs rfl (testSize rfl hq hsize)

/-- The worker is about to find the queue non-empty. -/
theorem checkEmpty (pc : s.worker = .checkEmpty) (hq : s.recvQueue ≠ [])
    (hsize : s.recvQueue.length ≠ s.lastQueueSize) : Escapes jsonInt s := by
  have hs : s.step jsonInt (.worker "") = some { s with worker := .readSize } := by
    simp [HttpState.step, workerStep, pc, hq]
  exact of_worker hs rfl (readSize rfl hq hsize)

/-- A notification wakes every handler that waits. -/
theorem notify {request : Entry} (pc : s.worker = .notify request)
    (hblocked : SomeBlocked s) : Escapes jsonInt s := by
  have hs : s.step jsonInt (.worker "") =
      some { s with handlers := s.handlers.map Handler.wake, worker := .checkEmpty } := by
    simp [HttpState.step, workerStep, pc]
  refine of_step hs ?_
  rintro ⟨hall, -⟩
  obtain ⟨x, hx, h, at_x, hpc⟩ := hblocked
  have hwoken := hall x hx h.wake (by simp [at_x])
  simp [Handler.wake, hpc] at hwoken

/-- The worker stores its answer and notifies the handlers. -/
theorem store {request : Entry} {reply : String} (pc : s.worker = .store request reply)
    (hblocked : SomeBlocked s) : Escapes jsonInt s := by
  have hs : s.step jsonInt (.worker "") = some { s with
      responseData := reply
      worker := .notify request
      sent := s.sent ++ [(request.owner, reply)] } := by
    simp [HttpState.step, workerStep, pc]
  exact of_worker hs rfl (notify rfl hblocked)

/-- The worker executes a request that asks for a task and notifies the handlers. -/
theorem operation {request : Entry} (pc : s.worker = .operation request)
    (task : selectedTask jsonInt request.body ≠ none)
    (hblocked : SomeBlocked s) : Escapes jsonInt s := by
  obtain ⟨t, ht⟩ := Option.ne_none_iff_exists'.mp task
  have hs : s.step jsonInt (.worker "ok") = some { s with worker := .store request "ok" } := by
    simp [HttpState.step, workerStep, pc, ht]
  exact of_worker hs rfl (store rfl hblocked)

end Escapes

/-- If somebody attends to the head of the queue, the state is not stranded. -/
theorem Attended.not_stranded (hs : Attended s) (horder : RequestOrder s)
    (hanswerable : Answerable jsonInt s) (hcounted : Counted s) : ¬ Stranded jsonInt s := by
  intro hstranded
  have hq : s.recvQueue ≠ [] := hstranded.1
  have hall : QueuedBlocked s := hstranded.2.1
  have hblocked : SomeBlocked s := hall.someBlocked horder hq
  suffices hescapes : Escapes jsonInt s from hescapes.not_stranded hstranded
  rcases hs with hnil | hact | ⟨x, hx, h, hmem, hawake, -⟩
  · exact absurd hnil hq
  · cases pc : s.worker with
    | checkEmpty =>
        simp only [WillAct, pc] at hact
        exact .checkEmpty pc hq hact
    | resetSize => simp [WillAct, pc] at hact
    | readSize =>
        simp only [WillAct, pc] at hact
        exact .readSize pc hq hact
    | testSize cur =>
        simp only [WillAct, pc] at hact
        by_cases hcur : cur = s.lastQueueSize
        · -- this call of `receive` returns nothing, the next one does
          have hsize := hact.resolve_left fun hne => hne hcur
          have hs : s.step jsonInt (.worker "") = some { s with worker := .checkEmpty } := by
            simp [HttpState.step, workerStep, pc, hcur]
          exact .of_worker hs rfl (.checkEmpty rfl hq hsize)
        · exact .testSize pc hq hcur
    | front cur => exact .front pc hq
    | operation request => exact .operation pc (hanswerable.current request pc) hblocked
    | store request reply => exact .store pc hblocked
    | notify request => exact .notify pc hblocked
  · obtain ⟨i, at_i⟩ := List.mem_iff_getElem?.mp hmem
    have hpc : h.pc = .blocked :=
      hall.blocked horder hcounted at_i (HandlerPc.unfinished_of_awake hawake)
    simp [hpc, HandlerPc.awake] at hawake

/-- In no run whose pushes, removals and notifications leave somebody attending to the head of the
queue is a state reached in which requests are left without a response. -/
theorem no_request_stranded (jsonInt : String → String → Option Int) {es : List HttpEvent}
    (h : StepsMeet (HttpState.step jsonInt) (KeepsAttention jsonInt) .initial es)
    (hrun : run (HttpState.step jsonInt) .initial es = some s) : ¬ Stranded jsonInt s := by
  have hinv : RequestOrder s ∧ Attended s ∧ Answerable jsonInt s ∧ Counted s := by
    refine h.invariant
      (fun s => RequestOrder s ∧ Attended s ∧ Answerable jsonInt s ∧ Counted s) ?_ ?_ hrun
    · rintro s e s' ⟨horder, hattended, hanswerable, hcounted⟩ hkeep hs'
      exact ⟨horder.step hs', hattended.step hanswerable hkeep hs', hanswerable.step hkeep hs',
        hcounted.step hs'⟩
    · refine ⟨requestOrder_initial, .inl rfl, ⟨?_, ?_⟩, rfl⟩ <;> simp [HttpState.initial]
  obtain ⟨horder, hattended, hanswerable, hcounted⟩ := hinv
  exact hattended.not_stranded horder hanswerable hcounted

/-- Two requests come through. -/
theorem twoRequests_not_stranded :
    ∃ s, run (HttpState.step addDevJson) .initial twoRequests = some s ∧
      s.returned = [0, 1] ∧ ¬ Stranded addDevJson s := by
  have hrun : (run (HttpState.step addDevJson) .initial twoRequests).map HttpState.returned =
      some [0, 1] := by decide +kernel
  obtain ⟨s, hs, hreturned⟩ := Option.map_eq_some_iff.mp hrun
  exact ⟨s, hs, hreturned, no_request_stranded addDevJson (by decide +kernel) hs⟩

/-! ## A lost notification -/

/-- The answer is ready before the handler waits for it. -/
def answeredBeforeWait : List HttpEvent :=
  [.request bodyA, .worker "", .worker "", .worker "", .worker "", .worker addedText, .worker "",
    .worker "", .handler 0]

/-- The states after `answeredBeforeWait`. -/
def waiting (pc : WorkerPc) : HttpState :=
  { recvQueue := [⟨0, bodyA⟩], lastQueueSize := 1, responseData := addedText,
    handlers := [⟨bodyA, .blocked, none⟩], worker := pc, returned := [0], sent := [(0, addedText)] }

/-- The steps of a call of `receive` that finds nothing new. -/
def WorkerPc.polling (pc : WorkerPc) : Prop :=
  pc = .checkEmpty ∨ pc = .readSize ∨ pc = .testSize 1

/-- From a call of `receive` that finds nothing new the worker gets to the next one. -/
theorem waiting_step {pc : WorkerPc} (hpc : pc.polling) (hquiet : e.Quiet)
    (h : (waiting pc).step jsonInt e = some s') : ∃ pc', pc'.polling ∧ s' = waiting pc' := by
  cases e with
  | request | spurious => exact hquiet.elim
  | handler i =>
      cases i with
      | zero => simp [HttpState.step, waiting, handlerStep] at h
      | succ i => simp [HttpState.step, waiting] at h
  | worker text =>
      rcases hpc with rfl | rfl | rfl
      · exact ⟨.readSize, .inr (.inl rfl), (Option.some.inj h).symm⟩
      · exact ⟨.testSize 1, .inr (.inr rfl), (Option.some.inj h).symm⟩
      · exact ⟨.checkEmpty, .inl rfl, (Option.some.inj h).symm⟩

/-- The handler waits, and the worker polls for ever. -/
theorem waiting_stranded : Stranded jsonInt (waiting .checkEmpty) := by
  have hall : ∀ pc, QueuedBlocked (waiting pc) := by
    intro pc x _ h at_i
    obtain rfl : h = ⟨bodyA, .blocked, none⟩ :=
      List.mem_singleton.mp (List.mem_of_getElem? at_i)
    rfl
  refine ⟨by simp [waiting], hall _, fun es s' hquiet hrun => ?_⟩
  have hinv : ∃ pc, WorkerPc.polling pc ∧ s' = waiting pc := by
    refine (stepsMeet_of_forall hquiet (waiting .checkEmpty)).invariant
      (fun s => ∃ pc, WorkerPc.polling pc ∧ s = waiting pc) ?_ ⟨.checkEmpty, .inl rfl, rfl⟩ hrun
    rintro s e s' ⟨pc, hpc, rfl⟩ hquiet hs'
    exact waiting_step hpc hquiet hs'
  obtain ⟨pc, -, rfl⟩ := hinv
  exact ⟨hall pc, rfl⟩

/-- Some runs leave a request without a response. -/
theorem request_stranded :
    ¬ ∀ (jsonInt : String → String → Option Int) (es : List HttpEvent) (s : HttpState),
      run (HttpState.step jsonInt) .initial es = some s → ¬ Stranded jsonInt s := by
  intro h
  have hrun : run (HttpState.step addDevJson) .initial answeredBeforeWait =
      some (waiting .checkEmpty) := by decide +kernel
  exact h addDevJson answeredBeforeWait _ hrun waiting_stranded

end CsiFirmware.Webserver
