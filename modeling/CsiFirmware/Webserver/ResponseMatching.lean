import CsiFirmware.Webserver.QueueDiscipline

/-!
# Which answer a handler puts in its response

Reference: `HttpService::handle_request` and `HttpService::send`.

All handlers share `response_data`. A handler uses what it finds there as soon as it is woken and
finds its body at the head, whether its own request has been executed or not: the wake-up may have
been meant for the handler before it. The responses are the right ones if and only if each handler
finds an answer there, and by the time it copies it `send` has been called for its request.
-/

namespace CsiFirmware.Webserver

open Runs Threads

variable {jsonInt : String → String → Option Int} {s s' : HttpState} {e : HttpEvent}

/-! ## Pairwise distinct bodies -/

/-- The body that an event brings. -/
def HttpEvent.body : HttpEvent → Option String
  | .request body => some body
  | _ => none

/-- A handler that keeps its body leaves the list of the bodies alone. -/
theorem map_body_set {l : List Handler} {i : ℕ} {h h' : Handler} (at_i : l[i]? = some h)
    (hbody : h'.body = h.body) : (l.set i h').map Handler.body = l.map Handler.body := by
  apply List.ext_getElem?
  intro j
  rw [List.getElem?_map, List.getElem?_map]
  by_cases hji : j = i
  · subst hji
    rw [lookup_set_self at_i, at_i, Option.map_some, Option.map_some, hbody]
  · rw [lookup_set_of_ne hji]

/-- A step keeps the bodies of the handlers, and a request adds one. -/
theorem bodies_step (h : s.step jsonInt e = some s') :
    s'.handlers.map Handler.body = s.handlers.map Handler.body ++ e.body.toList := by
  cases HttpState.step_transition h with
  | request body => simp [HttpEvent.body]
  | move i g g' at_i move => simpa [HttpEvent.body] using map_body_set at_i move.body
  | clear i g at_i => simpa [HttpEvent.body] using map_body_set at_i rfl
  | pop i g x q at_i => simpa [HttpEvent.body] using map_body_set at_i rfl
  | spurious i g at_i => simpa [HttpEvent.body] using map_body_set at_i rfl
  | think | resetSize | front | store => simp [HttpEvent.body]
  | notify => simp [HttpEvent.body, Function.comp_def]

/-- A request brings a body that no request before had. -/
def FreshBody (s : HttpState) (e : HttpEvent) : Prop :=
  (s.handlers.map Handler.body ++ e.body.toList).Nodup

/-- Bodies that are pairwise distinct are new whenever they arrive. -/
theorem stepsMeet_freshBody {es : List HttpEvent}
    (h : (s.handlers.map Handler.body ++ es.filterMap HttpEvent.body).Nodup) :
    StepsMeet (HttpState.step jsonInt) FreshBody s es := by
  induction es generalizing s with
  | nil => trivial
  | cons e es ih =>
      have hsplit : (e :: es).filterMap HttpEvent.body =
          e.body.toList ++ es.filterMap HttpEvent.body := by
        cases hb : e.body <;> simp [hb]
      rw [hsplit, ← List.append_assoc] at h
      -- what has arrived is a part of all that arrives in the run
      refine ⟨(List.nodup_append.mp h).1, fun s' hs' => ih ?_⟩
      rwa [bodies_step hs']

/-- With pairwise distinct bodies a handler mistakes no other entry for its own. -/
theorem RequestOrder.matchesOwn (hs : RequestOrder s)
    (hdistinct : (s.handlers.map Handler.body).Nodup) (e : HttpEvent) : MatchesOwn s e := by
  cases e with
  | handler i =>
      intro h at_i pc x hx hbody
      obtain ⟨g, at_x, hg⟩ := hs.body x (List.mem_of_mem_head? hx)
      have hi : (s.handlers.map Handler.body)[i]? = some h.body := by
        rw [List.getElem?_map, at_i, Option.map_some]
      have hx : (s.handlers.map Handler.body)[x.owner]? = some h.body := by
        rw [List.getElem?_map, at_x, Option.map_some, hg, hbody]
      obtain ⟨hlt, -⟩ := List.getElem?_eq_some_iff.mp hx
      exact (List.getElem?_inj hlt hdistinct).mp (hx.trans hi.symm)
  | request | spurious | worker => trivial

/-! ## The answers -/

/-- The handler is past `set_content`. -/
def HandlerPc.answered : HandlerPc → Bool
  | .clear | .pop | .done => true
  | _ => false

/-- The handler has removed the answer from `response_data`. -/
def HandlerPc.cleared : HandlerPc → Bool
  | .pop | .done => true
  | _ => false

/-- A handler that has cleared the answer only removes an entry. -/
theorem HandlerMove.not_cleared {h h' : Handler} (move : HandlerMove jsonInt s h h') :
    ¬ h.pc.cleared := by
  cases move with
  | wait pc | own _ _ pc | foreign _ _ pc | retry pc | leave pc | skip pc | answer pc | readCode pc
  | setContent _ _ pc => simp [pc, HandlerPc.cleared]

/-- A handler past `set_content` has put in its response an answer that was sent for its request. -/
def Matched (s : HttpState) : Prop :=
  All (fun i h => h.pc.answered →
    ∃ r, h.res = some r ∧ r.content ≠ "" ∧ (i, r.content) ∈ s.sent) s.handlers

/-- The response is written by `set_content` and by nothing else. -/
def Unwritten (s : HttpState) : Prop := All (fun _ h => ¬ h.pc.answered → h.res = none) s.handlers

/-- Once the request at the head has been answered, `response_data` holds the answer until the
handler clears it. -/
def HeadAnswer (s : HttpState) : Prop :=
  ∀ i, s.recvQueue.head?.map Entry.owner = some i → i ∈ s.sent.map Prod.fst →
    (∀ h, s.handlers[i]? = some h → h.pc.cleared = false) → (i, s.responseData) ∈ s.sent

/-- A handler that tests `response_data` finds an answer there, and `send` has been called for its
request when it copies the answer. -/
def AnswerReady (s : HttpState) : HttpEvent → Prop
  | .handler i =>
      ∀ h ∈ s.handlers[i]?, (h.pc = .testResponse → s.responseData ≠ "") ∧
        ∀ codeError, h.pc = .setContent codeError → i ∈ s.sent.map Prod.fst
  | _ => True

instance (pc : HandlerPc) (P : Prop) [Decidable P] :
    Decidable (∀ codeError, pc = .setContent codeError → P) :=
  match pc with
  | .setContent codeError => decidable_of_iff P ⟨fun h _ _ => h, fun h => h codeError rfl⟩
  | .enter | .blocked | .woken | .checkEmpty | .testResponse | .readCode | .clear | .pop | .done =>
      isTrue nofun

instance : ∀ e, Decidable (AnswerReady s e)
  | .handler i => inferInstanceAs (Decidable (∀ h ∈ s.handlers[i]?,
      (h.pc = .testResponse → s.responseData ≠ "") ∧
        ∀ codeError, h.pc = .setContent codeError → i ∈ s.sent.map Prod.fst))
  | .request _ | .spurious _ | .worker _ => isTrue trivial

/-- A handler whose response is written is past `set_content`. -/
theorem Unwritten.step (hs : Unwritten s) (h : s.step jsonInt e = some s') : Unwritten s' := by
  cases HttpState.step_transition h with
  | request => exact hs.concat fun _ => rfl
  | move i g g' at_i move =>
      refine hs.set fun hanswered => ?_
      cases move with
      | skip | setContent => simp [HandlerPc.answered] at hanswered
      | wait pc | own _ _ pc | foreign _ _ pc | retry pc | leave pc | answer pc | readCode pc =>
          exact hs i g at_i (by simp [pc, HandlerPc.answered])
  | clear i g at_i pc => exact hs.set fun hanswered => by simp [HandlerPc.answered] at hanswered
  | pop i g x q at_i pc => exact hs.set fun hanswered => by simp [HandlerPc.answered] at hanswered
  | spurious i g at_i pc => exact hs.set fun _ => hs i g at_i (by simp [pc, HandlerPc.answered])
  | think | resetSize | front | store => exact hs
  | notify =>
      refine all_map (hs.mono fun i g _ hi hanswered => ?_)
      rw [Handler.wake_res]
      refine hi fun hg => hanswered ?_
      unfold Handler.wake
      split
      next pc => simp [pc, HandlerPc.answered] at hg
      · exact hg

namespace HeadAnswer

/-- A step that changes neither the head of the queue nor the answers. -/
theorem frame (hs : HeadAnswer s) (hqueue : s'.recvQueue.head? = s.recvQueue.head?)
    (hsent : s'.sent = s.sent) (hresponse : s'.responseData = s.responseData)
    (hcleared : ∀ i h, s.recvQueue.head?.map Entry.owner = some i → s.handlers[i]? = some h →
      h.pc.cleared → ∃ h', s'.handlers[i]? = some h' ∧ h'.pc.cleared) : HeadAnswer s' := by
  intro i hi hmem hnot
  rw [hqueue] at hi
  rw [hsent] at hmem ⊢
  rw [hresponse]
  refine hs i hi hmem fun h at_i => ?_
  by_contra hpc
  obtain ⟨h', at_i', hpc'⟩ := hcleared i h hi at_i (by simpa using hpc)
  exact Bool.false_ne_true ((hnot h' at_i').symm.trans hpc')

/-- A handler that has cleared the answer has still done so after a step of a handler that does not
go back. -/
theorem cleared_put {i k : ℕ} {g g' h : Handler} (hback : g.pc.cleared → g'.pc.cleared)
    (at_i : s.handlers[i]? = some g) (at_k : s.handlers[k]? = some h) (hpc : h.pc.cleared) :
    ∃ h', (s.handlers.set i g')[k]? = some h' ∧ h'.pc.cleared := by
  by_cases hki : k = i
  · subst hki
    obtain rfl : g = h := Option.some.inj (at_i.symm.trans at_k)
    exact ⟨g', lookup_set_self at_i, hback hpc⟩
  · exact ⟨h, (lookup_set_of_ne hki).trans at_k, hpc⟩

/-- Nothing has been sent yet for the head of the queue. -/
theorem of_unanswered (hanswers : AnswerOrder s) (hsent : s'.sent = s.sent)
    (hhead : ∀ i, s'.recvQueue.head?.map Entry.owner = some i → i ∉ s.returned) :
    HeadAnswer s' := by
  intro i hi hmem
  rw [hsent] at hmem
  obtain ⟨p, hp, rfl⟩ := List.mem_map.mp hmem
  exact absurd (hanswers.sent p hp) (hhead p.1 hi)

/-- `send` stores an answer. If the head of the queue has been answered, it was by this answer,
because it is the last request that `receive` has returned. -/
theorem store {request : Entry} (horder : RequestOrder s) (hanswers : AnswerOrder s)
    (hlast : s.returned.getLast? = some request.owner)
    (hqueue : s'.recvQueue = s.recvQueue)
    (hsent : s'.sent = s.sent ++ [(request.owner, s'.responseData)]) : HeadAnswer s' := by
  intro i hi hmem _
  rw [hqueue] at hi
  obtain ⟨x, hx, hxi⟩ := Option.map_eq_some_iff.mp hi
  have hle : request.owner ≤ i :=
    hxi ▸ horder.returned_le _ (List.mem_of_getLast? hlast) x (List.mem_of_mem_head? hx)
  rw [hsent, List.map_append, List.mem_append] at hmem
  have heq : i = request.owner := by
    rcases hmem with hmem | hmem
    · -- an answer sent before is to a request that was not returned later
      obtain ⟨p, hp, rfl⟩ := List.mem_map.mp hmem
      exact le_antisymm (le_getLast horder.returned hlast (hanswers.sent p hp)) hle
    · simpa using hmem
  rw [hsent, heq]
  exact List.mem_append_right _ (List.mem_singleton_self _)

/-- The answer of the head stays in place until its handler clears it: `send` overwrites it only for
the request returned last. -/
theorem step (hs : HeadAnswer s) (horder : RequestOrder s) (hanswers : AnswerOrder s)
    (howned : EntriesOwned s) (h : s.step jsonInt e = some s') : HeadAnswer s' := by
  cases HttpState.step_transition h with
  | request body =>
      cases hq : s.recvQueue with
      | nil =>
          -- the new request is the head, and has not been returned
          refine of_unanswered hanswers rfl fun i hi hmem => ?_
          obtain rfl : s.handlers.length = i := by simpa [hq] using hi
          exact lt_irrefl _ (horder.returned_lt _ hmem)
      | cons x q =>
          refine hs.frame (by simp [hq]) rfl rfl fun i g _ at_i hpc => ?_
          exact ⟨g, lookup_concat_left at_i, hpc⟩
  | move i g g' at_i move =>
      refine hs.frame rfl rfl rfl fun k h _ at_k hpc => ?_
      exact cleared_put (fun hg => absurd hg move.not_cleared) at_i at_k hpc
  | clear i g at_i pc =>
      intro k hk _ hnot
      have hhead := howned.head i g at_i (by simp [pc, HandlerPc.found])
      obtain rfl : k = i := Option.some.inj (hk.symm.trans hhead)
      exact absurd (hnot _ (lookup_set_self at_i)) (by simp [HandlerPc.cleared])
  | pop i g x q at_i pc queue =>
      -- the new head was behind the old one, so it has not been returned
      refine of_unanswered hanswers rfl fun k hk hmem => ?_
      obtain ⟨y, hy, rfl⟩ := Option.map_eq_some_iff.mp hk
      have hle := horder.returned_le y.owner hmem x (by simp [queue])
      have hq := horder.queue
      rw [queue, List.map_cons, List.pairwise_cons] at hq
      have hlt := hq.1 y.owner (List.mem_map_of_mem (List.mem_of_mem_head? hy))
      exact absurd hle (not_le.mpr hlt)
  | spurious i g at_i pc =>
      exact hs.frame rfl rfl rfl fun k h _ at_k hpc =>
        cleared_put (fun hg => by simp [pc, HandlerPc.cleared] at hg) at_i at_k hpc
  | think | resetSize | front => exact hs
  | store text request reply pc =>
      exact store horder hanswers (hanswers.current request (by rw [pc]; rfl)) rfl rfl
  | notify text request pc =>
      refine hs.frame rfl rfl rfl fun k h _ at_k hpc => ⟨h.wake, by simp [at_k], ?_⟩
      unfold Handler.wake
      split
      next hblocked => simp [hblocked, HandlerPc.cleared] at hpc
      · exact hpc

end HeadAnswer

/-- The states in which every response is the right one so far. -/
structure MatchingInv (s : HttpState) : Prop where
  order : RequestOrder s
  answers : AnswerOrder s
  owned : EntriesOwned s
  unwritten : Unwritten s
  headAnswer : HeadAnswer s
  matched : Matched s

/-- There are no handlers yet. -/
theorem matchingInv_initial : MatchingInv .initial where
  order := requestOrder_initial
  answers := answerOrder_initial
  owned := entriesOwned_initial
  unwritten := all_nil
  headAnswer := fun i hi => by simp [HttpState.initial] at hi
  matched := all_nil

namespace MatchingInv

/-- An answer that is ready is the right one. -/
theorem matched_step (hs : MatchingInv s) (hready : AnswerReady s e)
    (h : s.step jsonInt e = some s') : Matched s' := by
  have hmatched : Matched s := hs.matched
  cases HttpState.step_transition h with
  | request => exact hmatched.concat (by simp [HandlerPc.answered])
  | move i g g' at_i move =>
      obtain ⟨htest, hsent⟩ := hready g at_i
      refine hmatched.set fun hanswered => ?_
      cases move with
      | skip pc response => exact absurd response (htest pc)
      | setContent codeError contentType pc =>
          -- the handler owns the head, so `response_data` holds the answer to its request
          have hhead := hs.owned.head i g at_i (by simp [pc, HandlerPc.found])
          have hanswer : (i, s.responseData) ∈ s.sent := by
            refine hs.headAnswer i hhead (hsent codeError pc) fun k at_k => ?_
            obtain rfl : g = k := Option.some.inj (at_i.symm.trans at_k)
            simp [pc, HandlerPc.cleared]
          exact ⟨_, rfl, hs.answers.text _ hanswer, hanswer⟩
      | wait | own | foreign | retry | leave | answer | readCode =>
          simp [HandlerPc.answered] at hanswered
  | clear i g at_i pc =>
      exact hmatched.set fun _ => hmatched i g at_i (by simp [pc, HandlerPc.answered])
  | pop i g x q at_i pc =>
      exact hmatched.set fun _ => hmatched i g at_i (by simp [pc, HandlerPc.answered])
  | spurious => exact hmatched.set (by simp [HandlerPc.answered])
  | think | resetSize | front => exact hmatched
  | store =>
      refine hmatched.mono fun i g _ hi hanswered => ?_
      obtain ⟨r, hr, htext, hmem⟩ := hi hanswered
      exact ⟨r, hr, htext, List.mem_append_left _ hmem⟩
  | notify =>
      refine all_map (hmatched.mono fun i g _ hi hanswered => ?_)
      rw [Handler.wake_res]
      refine hi ?_
      unfold Handler.wake at hanswered
      split at hanswered
      · simp [HandlerPc.answered] at hanswered
      · exact hanswered

/-- All parts of the invariant are kept, if every response is still right. -/
theorem step (hs : MatchingInv s) (hfresh : FreshBody s e) (hmatched : Matched s')
    (h : s.step jsonInt e = some s') : MatchingInv s' where
  order := hs.order.step h
  answers := hs.answers.step h
  owned := hs.owned.step (hs.order.matchesOwn (List.nodup_append.mp hfresh).1 e) h
  unwritten := hs.unwritten.step h
  headAnswer := hs.headAnswer.step hs.order hs.answers hs.owned h
  matched := hmatched

/-- The next step leaves every response right if and only if the answer is ready. -/
theorem matched_after_iff (hs : MatchingInv s) :
    After (HttpState.step jsonInt) Matched s e ↔ AnswerReady s e := by
  refine ⟨fun hafter => ?_, fun hready s' hs' => hs.matched_step hready hs'⟩
  cases e with
  | handler i =>
      intro g at_i
      have hnone : ¬ g.pc.answered → g.res = none := hs.unwritten i g at_i
      constructor
      · intro pc response
        have hstep : s.step jsonInt (.handler i) = some (s.put i { g with pc := .clear }) := by
          rw [HttpState.step_handler at_i]
          simp [handlerStep, pc, response]
        obtain ⟨r, hr, -⟩ := hafter _ hstep i _ (lookup_set_self at_i) rfl
        simp [hnone (by simp [pc, HandlerPc.answered])] at hr
      · intro codeError pc
        have hstep : ∃ contentType, s.step jsonInt (.handler i) = some (s.put i
            { g with pc := .clear, res := some ⟨codeError, contentType, s.responseData⟩ }) := by
          rw [HttpState.step_handler at_i]
          simp only [handlerStep, pc]
          exact ⟨_, rfl⟩
        obtain ⟨contentType, hstep⟩ := hstep
        obtain ⟨r, hr, -, hmem⟩ := hafter _ hstep i _ (lookup_set_self at_i) rfl
        obtain rfl := Option.some.inj hr
        exact List.mem_map_of_mem hmem
  | request | spurious | worker => trivial

end MatchingInv

/-- In every interleaving of requests with pairwise distinct bodies, every response is an answer
that was sent for its request if and only if every handler finds the answer ready. -/
theorem matched_iff (jsonInt : String → String → Option Int) {es : List HttpEvent}
    (hdistinct : (es.filterMap HttpEvent.body).Nodup) :
    StepsMeet (HttpState.step jsonInt) (After (HttpState.step jsonInt) Matched) .initial es ↔
      StepsMeet (HttpState.step jsonInt) AnswerReady .initial es := by
  refine stepsMeet_congr MatchingInv (fun s e hs _ => hs.matched_after_iff) ?_
    matchingInv_initial (stepsMeet_freshBody (by simpa [HttpState.initial] using hdistinct))
  intro s e s' hs hfresh hafter hs'
  exact hs.step hfresh (hafter s' hs') hs'

/-- Both handlers are woken by the answer to the first request, and the second goes on when the
first is done. -/
def secondWokenByFirst : List HttpEvent :=
  [.request bodyA, .request bodyB, .handler 0, .handler 1, .worker "", .worker "", .worker "",
    .worker "", .worker addedText, .worker "", .worker "", .handler 0, .handler 0, .handler 0,
    .handler 0, .handler 0, .handler 0, .handler 0, .handler 1, .handler 1, .handler 1,
    .handler 1, .handler 1]

/-- Not every response is an answer to its request: that of the second handler stays empty. -/
theorem empty_response :
    ¬ ∀ (jsonInt : String → String → Option Int) (es : List HttpEvent),
      (es.filterMap HttpEvent.body).Nodup →
        StepsMeet (HttpState.step jsonInt) (After (HttpState.step jsonInt) Matched)
          .initial es := by
  intro h
  have hrun : (run (HttpState.step addDevJson) .initial secondWokenByFirst).map
      (fun s => s.handlers[1]?) = some (some ⟨bodyB, .done, none⟩) := by decide +kernel
  obtain ⟨s, hs, hlast⟩ := Option.map_eq_some_iff.mp hrun
  have hmatched : Matched s :=
    (h addDevJson secondWokenByFirst (by decide +kernel)).reached matchingInv_initial.matched hs
  obtain ⟨r, hr, -⟩ := hmatched 1 _ hlast rfl
  cases hr

/-- Two requests one after the other get their own answers. -/
theorem matched_iff_twoRequests :
    StepsMeet (HttpState.step addDevJson) (After (HttpState.step addDevJson) Matched) .initial
      twoRequests ∧
    (run (HttpState.step addDevJson) .initial twoRequests).map HttpState.sent =
      some [(0, addedText), (1, addedText)] := by
  have hready : StepsMeet (HttpState.step addDevJson) AnswerReady .initial twoRequests := by
    decide +kernel
  exact ⟨(matched_iff addDevJson (by decide +kernel)).mpr hready, by decide +kernel⟩

end CsiFirmware.Webserver
