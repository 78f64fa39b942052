import CsiFirmware.Common.MessageQueue
import CsiFirmware.Common.PoolProgress

/-!
# Services

Reference: `ServiceQueue`.

`service_publish` looks for a responder of the topic under the mutex, and adds the call of its
callback to the pool after it has given the mutex back. The caller waits for a future that the call
makes ready. With no responder nobody holds the promise when `service_publish` returns, and the
future is broken. A second `set_value` on a promise throws in a thread of the pool, which ends the
process, so it has no defined effect here.

`servicePublish` is what a caller sees of all this: `service_refines` and `future_ready` relate the
two. A responder is assumed to answer once, during its callback. The queue is a static object and
its pool is not shut down.
-/

namespace CsiFirmware.Common

open Runs Threads

variable {μ ρ : Type*}

/-- What `get` finds in a future. -/
inductive Future (ρ : Type*) where
  /-- `get` would block. -/
  | pending
  | value (response : ρ)
  /-- `get` throws. -/
  | broken
deriving DecidableEq

/-- A call of `service_publish` that has looked for a responder. -/
structure ServiceCall (μ ρ : Type*) where
  topic : String
  message : μ
  /-- The number of responders at that time. -/
  known : ℕ
  toCall : Option (Responder μ ρ)
  /-- Whether the task has been added to the pool. -/
  added : Bool
  future : Future ρ

/-- A `ServiceQueue` with its history. A task is the number of a call. -/
structure ServiceState (μ ρ : Type*) where
  responders : List (Responder μ ρ)
  calls : List (ServiceCall μ ρ)
  threadPool : PoolState ℕ

/-- The pool of a service queue. -/
def sqSize : PoolSize :=
  { minNum := 1, maxNum := 3, one_le := Nat.one_pos, min_le_max := mqSize.min_le_max }

/-- Nobody has subscribed and nothing has been called. -/
def ServiceState.init : ServiceState μ ρ :=
  { responders := [], calls := [], threadPool := PoolState.init sqSize }

/-- What can happen next. -/
inductive ServiceEvent (μ ρ : Type*) where
  /-- `service_subscribe`. -/
  | subscribe (responder : Responder μ ρ)
  /-- `service_publish` up to the end of the search. -/
  | publish (topic : String) (message : μ)
  /-- `threadPool.Add` of call `k`. -/
  | add (k : ℕ)
  | thread (t : ThreadEvent)

/-- The task of call `k`: the callback, and the `set_value` on its response. -/
def answer (calls : List (ServiceCall μ ρ)) (k : ℕ) : Option (List (ServiceCall μ ρ)) :=
  calls[k]?.bind fun c =>
    match c.toCall, c.future with
    | some responder, .pending =>
        some (calls.set k { c with future := .value (responder.callback c.message) })
    | _, _ => none

/-- The call that a step of a thread of the pool makes. -/
def ServiceState.called (s : ServiceState μ ρ) : ThreadEvent → Option ℕ
  | .worker i => s.threadPool.running i
  | .spurious _ | .manager => none

/-- A call that finds no responder leaves a broken promise at once. Otherwise its task is added by a
step of its own, and a worker that calls the task sets the value. -/
def ServiceState.step (s : ServiceState μ ρ) : ServiceEvent μ ρ → Option (ServiceState μ ρ)
  | .subscribe responder => some { s with responders := s.responders ++ [responder] }
  | .publish topic message =>
      let toCall := s.responders.find? fun r => r.topic = topic
      some { s with
        calls := s.calls ++ [{
          topic, message, toCall
          known := s.responders.length
          added := false
          future := if toCall.isSome then .pending else .broken }] }
  | .add k =>
      s.calls[k]?.bind fun c =>
        if c.toCall.isSome ∧ c.added = false then
          (s.threadPool.step sqSize (.add k)).map fun threadPool =>
            { s with threadPool, calls := s.calls.set k { c with added := true } }
        else none
  | .thread t =>
      (s.threadPool.step sqSize (.thread t)).bind fun threadPool =>
        match s.called t with
        | none => some { s with threadPool }
        | some k => (answer s.calls k).map fun calls => { s with threadPool, calls }

/-! ## What a step can do -/

/-- All that a step can do. -/
inductive ServiceTransition (s : ServiceState μ ρ) :
    ServiceEvent μ ρ → ServiceState μ ρ → Prop where
  | subscribe (responder : Responder μ ρ) :
      ServiceTransition s (.subscribe responder)
        { s with responders := s.responders ++ [responder] }
  | publish (topic : String) (message : μ) (toCall : Option (Responder μ ρ))
      (found : s.responders.find? (fun r => r.topic = topic) = toCall) :
      ServiceTransition s (.publish topic message) { s with
        calls := s.calls ++ [{
          topic, message, toCall
          known := s.responders.length
          added := false
          future := if toCall.isSome then .pending else .broken }] }
  | add (k : ℕ) (c : ServiceCall μ ρ) (threadPool : PoolState ℕ) (at_k : s.calls[k]? = some c)
      (found : c.toCall.isSome) (fresh : c.added = false)
      (step : s.threadPool.step sqSize (.add k) = some threadPool) :
      ServiceTransition s (.add k)
        { s with threadPool, calls := s.calls.set k { c with added := true } }
  | thread (t : ThreadEvent) (threadPool : PoolState ℕ)
      (step : s.threadPool.step sqSize (.thread t) = some threadPool)
      (idle : s.called t = none) : ServiceTransition s (.thread t) { s with threadPool }
  | answer (i k : ℕ) (c : ServiceCall μ ρ) (responder : Responder μ ρ) (threadPool : PoolState ℕ)
      (step : s.threadPool.step sqSize (.thread (.worker i)) = some threadPool)
      (running : s.threadPool.running i = some k) (at_k : s.calls[k]? = some c)
      (found : c.toCall = some responder) (pending : c.future = .pending) :
      ServiceTransition s (.thread (.worker i)) { s with
        threadPool
        calls := s.calls.set k { c with future := .value (responder.callback c.message) } }

variable {s s' : ServiceState μ ρ} {e : ServiceEvent μ ρ} {c : ServiceCall μ ρ} {k : ℕ}

/-- The task sets the value of a call that has a responder and waits. -/
theorem answer_eq_some {calls calls' : List (ServiceCall μ ρ)} (h : answer calls k = some calls') :
    ∃ c responder, calls[k]? = some c ∧ c.toCall = some responder ∧ c.future = .pending ∧
      calls' = calls.set k { c with future := .value (responder.callback c.message) } := by
  obtain ⟨c, at_k, h⟩ := Option.bind_eq_some_iff.mp h
  split at h
  next responder found pending =>
    exact ⟨c, responder, at_k, found, pending, (Option.some.inj h).symm⟩
  next => cases h

/-- A defined step is one of the transitions. -/
theorem ServiceState.step_transition (hs : s.step e = some s') : ServiceTransition s e s' := by
  cases e with
  | subscribe responder =>
      obtain rfl := Option.some.inj hs
      exact .subscribe responder
  | publish topic message =>
      obtain rfl := Option.some.inj hs
      exact .publish topic message _ rfl
  | add k =>
      obtain ⟨c, at_k, hs⟩ := Option.bind_eq_some_iff.mp hs
      obtain ⟨⟨found, fresh⟩, hs⟩ := Option.ite_none_right_eq_some.mp hs
      obtain ⟨threadPool, step, rfl⟩ := Option.map_eq_some_iff.mp hs
      exact .add k c threadPool at_k found fresh step
  | thread t =>
      obtain ⟨threadPool, step, hs⟩ := Option.bind_eq_some_iff.mp hs
      split at hs
      next idle =>
        obtain rfl := Option.some.inj hs
        exact .thread t threadPool step idle
      next k running =>
        obtain ⟨calls, hanswer, rfl⟩ := Option.map_eq_some_iff.mp hs
        obtain ⟨c, responder, at_k, found, pending, rfl⟩ := answer_eq_some hanswer
        cases t with
        | worker i => exact .answer i k c responder threadPool step running at_k found pending
        | spurious | manager => cases running

/-! ## What a caller sees -/

/-- The call went to the first responder that had the topic, and its future holds nothing but the
answer to its own message. -/
structure CallInv (responders : List (Responder μ ρ)) (c : ServiceCall μ ρ) : Prop where
  known_le : c.known ≤ responders.length
  toCall : c.toCall = (responders.take c.known).find? fun r => r.topic = c.topic
  refused : c.toCall = none → c.future = .broken ∧ c.added = false
  answer : ∀ r, c.toCall = some r → c.future = .pending ∨ c.future = .value (r.callback c.message)

/-- The promise of call `k` has a value. -/
def ServiceState.Answered (s : ServiceState μ ρ) (k : ℕ) : Prop :=
  ∃ c response, s.calls[k]? = some c ∧ c.future = .value response

/-- Every call is a task of its own, and the tasks that were called have answered their calls. -/
structure ServiceInv (s : ServiceState μ ρ) : Prop where
  pool : PoolReachable sqSize s.threadPool
  opened : s.threadPool.shutdown = false
  once : RunsOnce s.threadPool s.Answered
  mem_tasks : ∀ k, k ∈ s.threadPool.tasks ↔ ∃ c, s.calls[k]? = some c ∧ c.added = true
  calls : ∀ c ∈ s.calls, CallInv s.responders c

/-- There is no call yet. -/
theorem serviceInv_init : ServiceInv (ServiceState.init : ServiceState μ ρ) where
  pool := ⟨_, [], rfl, rfl⟩
  opened := rfl
  once := (RunsOnce.init sqSize).congr fun k => by simp [ServiceState.Answered, ServiceState.init]
  mem_tasks k := by simp [ServiceState.init, PoolState.init, PoolState.tasks]
  calls c hc := by simp [ServiceState.init] at hc

/-- A later responder does not change what a call has found. -/
theorem CallInv.subscribe {responders : List (Responder μ ρ)} (h : CallInv responders c)
    (r : Responder μ ρ) : CallInv (responders ++ [r]) c where
  known_le := by
    have hle := h.known_le
    simp only [List.length_append, List.length_singleton]
    omega
  toCall := by rw [List.take_append_of_le_length h.known_le, h.toCall]
  refused := h.refused
  answer := h.answer

/-- A call that finds a responder. -/
theorem CallInv.pending_or_value {responders : List (Responder μ ρ)} (h : CallInv responders c)
    (found : c.toCall.isSome) :
    ∃ r, c.toCall = some r ∧ (c.future = .pending ∨ c.future = .value (r.callback c.message)) := by
  obtain ⟨r, hr⟩ := Option.isSome_iff_exists.mp found
  exact ⟨r, hr, h.answer r hr⟩

/-- A change of one call that is there changes nothing for the others. -/
theorem exists_set_iff {P : ServiceCall μ ρ → Prop} {calls : List (ServiceCall μ ρ)}
    {c' : ServiceCall μ ρ} (at_k : calls[k]? = some c) (j : ℕ) :
    (∃ d, (calls.set k c')[j]? = some d ∧ P d) ↔
      if j = k then P c' else ∃ d, calls[j]? = some d ∧ P d := by
  split
  next hjk =>
    subst hjk
    rw [lookup_set_self at_k]
    simp
  next hjk => rw [lookup_set_of_ne hjk]

/-- A change of one call that keeps its future answers no call. -/
theorem answered_set (c' : ServiceCall μ ρ) {threadPool : PoolState ℕ}
    (at_k : s.calls[k]? = some c) (hfuture : c'.future = c.future) (j : ℕ) :
    ServiceState.Answered { s with threadPool, calls := s.calls.set k c' } j ↔ s.Answered j := by
  simp only [ServiceState.Answered, exists_and_left]
  rw [exists_set_iff at_k]
  split
  next hjk =>
    subst hjk
    rw [hfuture]
    simp [at_k]
  next => rfl

/-- A new call changes nothing for the others. -/
theorem exists_concat_iff {P : ServiceCall μ ρ → Prop} {calls : List (ServiceCall μ ρ)}
    (hc : ¬ P c) (j : ℕ) :
    (∃ d, (calls ++ [c])[j]? = some d ∧ P d) ↔ ∃ d, calls[j]? = some d ∧ P d := by
  constructor
  · rintro ⟨d, hd, hP⟩
    rcases lookup_concat hd with hd | ⟨-, rfl⟩
    · exact ⟨d, hd, hP⟩
    · exact absurd hP hc
  · rintro ⟨d, hd, hP⟩
    exact ⟨d, lookup_concat_left hd, hP⟩

namespace ServiceInv

/-- A task that a worker is about to call has not answered its call yet. -/
theorem pending_of_running {i : ℕ} (hs : ServiceInv s) (running : s.threadPool.running i = some k) :
    ∃ c r, s.calls[k]? = some c ∧ c.toCall = some r ∧ c.future = .pending := by
  have hstarted : k ∈ s.threadPool.tasks :=
    List.mem_append_left _ ((hs.once.mem_started k).mpr (.inr ⟨i, running⟩))
  obtain ⟨c, at_k, hadded⟩ := (hs.mem_tasks k).mp hstarted
  have hc := hs.calls c (List.mem_of_getElem? at_k)
  cases hr : c.toCall with
  | none => simp [(hc.refused hr).2] at hadded
  | some r =>
      rcases hc.answer r hr with hpending | hvalue
      · exact ⟨c, r, at_k, hr, hpending⟩
      · exact absurd ⟨c, _, at_k, hvalue⟩ (hs.once.uncalled i k running)

/-- A new call has found the first responder of its topic, or its promise is broken. -/
theorem publish {topic : String} {message : μ} {toCall : Option (Responder μ ρ)}
    (hs : ServiceInv s) (found : s.responders.find? (fun r => r.topic = topic) = toCall) :
    ServiceInv { s with
      calls := s.calls ++ [{
        topic, message, toCall
        known := s.responders.length
        added := false
        future := if toCall.isSome then .pending else .broken }] } where
  pool := hs.pool
  opened := hs.opened
  once := hs.once.congr fun k => by
    simp only [ServiceState.Answered, exists_and_left]
    refine (exists_concat_iff ?_ k).symm
    split <;> simp
  mem_tasks k := by
    rw [hs.mem_tasks]
    exact (exists_concat_iff (by simp) k).symm
  calls c hc := by
    rw [List.mem_append, List.mem_singleton] at hc
    rcases hc with hc | rfl
    · exact hs.calls c hc
    · refine ⟨le_rfl, ?_, ?_, ?_⟩
      · rw [List.take_length, found]
      · rintro rfl
        exact ⟨rfl, rfl⟩
      · rintro r rfl
        exact .inl rfl

/-- The task is new to the pool, since the call had not been added. -/
theorem add {threadPool : PoolState ℕ} (hs : ServiceInv s) (at_k : s.calls[k]? = some c)
    (found : c.toCall.isSome) (fresh : c.added = false)
    (step : s.threadPool.step sqSize (.add k) = some threadPool) :
    ServiceInv { s with threadPool, calls := s.calls.set k { c with added := true } } := by
  obtain ⟨htasks, hopen⟩ := tasks_add hs.opened step
  -- the number of the call is not in the queue yet
  have hfresh : k ∉ s.threadPool.tasks := by
    rw [hs.mem_tasks]
    rintro ⟨d, hd, hadded⟩
    obtain rfl := Option.some.inj (at_k.symm.trans hd)
    simp [fresh] at hadded
  have hnodup : threadPool.tasks.Nodup := by
    rw [htasks, List.nodup_append]
    refine ⟨hs.once.nodup, by simp, fun j hj j' hj' => ?_⟩
    obtain rfl := List.mem_singleton.mp hj'
    exact ne_of_mem_of_not_mem hj hfresh
  refine ⟨hs.pool.tail step, hopen, (hs.once.step step hnodup).congr fun j => ?_, fun j => ?_,
    fun d hd => ?_⟩
  · have hsame : (∃ i, (PoolEvent.add k : PoolEvent ℕ) = .thread (.worker i) ∧
        s.threadPool.running i = some j) ↔ False := by simp
    rw [hsame, or_false]
    exact (answered_set { c with added := true } at_k rfl j).symm
  · rw [htasks, List.mem_append, List.mem_singleton, hs.mem_tasks, exists_set_iff at_k]
    split
    next hjk => simp [hjk]
    next hjk => simp [hjk]
  · rcases List.mem_or_eq_of_mem_set hd with hd | rfl
    · exact hs.calls d hd
    · have hc := hs.calls c (List.mem_of_getElem? at_k)
      refine ⟨hc.known_le, hc.toCall, fun hnone => ?_, hc.answer⟩
      exact absurd found (by rw [show c.toCall = none from hnone]; nofun)

/-- A step of the pool that calls no task answers nothing. -/
theorem thread {t : ThreadEvent} {threadPool : PoolState ℕ} (hs : ServiceInv s)
    (step : s.threadPool.step sqSize (.thread t) = some threadPool) (idle : s.called t = none) :
    ServiceInv { s with threadPool } := by
  obtain ⟨htasks, hshutdown⟩ := tasks_thread step
  refine ⟨hs.pool.tail step, hshutdown.trans hs.opened, ?_, by rw [htasks]; exact hs.mem_tasks,
    hs.calls⟩
  refine (hs.once.step step (htasks ▸ hs.once.nodup)).congr fun j => or_iff_left ?_
  rintro ⟨i, he, running⟩
  obtain rfl : t = .worker i := PoolEvent.thread.inj he
  rw [ServiceState.called, running] at idle
  cases idle

/-- The worker answers the call whose task it runs, with what the responder computes. -/
theorem answer {i : ℕ} {r : Responder μ ρ} {threadPool : PoolState ℕ} (hs : ServiceInv s)
    (step : s.threadPool.step sqSize (.thread (.worker i)) = some threadPool)
    (running : s.threadPool.running i = some k) (at_k : s.calls[k]? = some c)
    (found : c.toCall = some r) :
    ServiceInv { s with
      threadPool, calls := s.calls.set k { c with future := .value (r.callback c.message) } } := by
  obtain ⟨htasks, hshutdown⟩ := tasks_thread step
  refine ⟨hs.pool.tail step, hshutdown.trans hs.opened, ?_, fun j => ?_, fun d hd => ?_⟩
  · refine (hs.once.step step (htasks ▸ hs.once.nodup)).congr fun j => ?_
    -- of the calls this one alone is answered
    have hcalled : (∃ i', (PoolEvent.thread (.worker i) : PoolEvent ℕ) = .thread (.worker i') ∧
        s.threadPool.running i' = some j) ↔ j = k := by simp [running, eq_comm]
    rw [hcalled]
    simp only [ServiceState.Answered, exists_and_left]
    rw [exists_set_iff at_k]
    split
    next hjk => simp [hjk]
    next hjk => simp [hjk]
  · rw [htasks, hs.mem_tasks, exists_set_iff at_k]
    split
    next hjk => simp [hjk, at_k]
    next hjk => rfl
  · rcases List.mem_or_eq_of_mem_set hd with hd | rfl
    · exact hs.calls d hd
    · have hc := hs.calls c (List.mem_of_getElem? at_k)
      refine ⟨hc.known_le, hc.toCall, fun hnone => ?_, fun r' hr' => ?_⟩
      · cases found.symm.trans hnone
      · obtain rfl := Option.some.inj (found.symm.trans hr')
        exact .inr rfl

/-- Every step keeps the calls in accord with the tasks of the pool. -/
theorem step (hs : ServiceInv s) (h : s.step e = some s') : ServiceInv s' := by
  cases ServiceState.step_transition h with
  | subscribe r =>
      exact ⟨hs.pool, hs.opened, hs.once, hs.mem_tasks, fun c hc => (hs.calls c hc).subscribe r⟩
  | publish topic message toCall found => exact hs.publish found
  | add k c threadPool at_k found fresh step => exact hs.add at_k found fresh step
  | thread t threadPool step idle => exact hs.thread step idle
  | answer i k c r threadPool step running at_k found => exact hs.answer step running at_k found

end ServiceInv

/-- The reachable states of a service queue. -/
abbrev ServiceReachable (s : ServiceState μ ρ) : Prop :=
  Reachable ServiceState.step (· = ServiceState.init) s

/-- The invariant holds in every reachable state. -/
theorem ServiceReachable.inv (h : ServiceReachable s) : ServiceInv s := by
  refine h.invariant ?_ fun s e s' hs hs' => hs.step hs'
  rintro s₀ rfl
  exact serviceInv_init

/-- `get` returns or throws. -/
def Future.ofGet : Option ρ → Future ρ
  | some response => .value response
  | none => .broken

/-- A future that is ready holds the answer to the message, or the broken promise. -/
theorem CallInv.ready {responders : List (Responder μ ρ)} (h : CallInv responders c)
    (hready : c.future ≠ .pending) :
    c.future = .ofGet (c.toCall.map fun r => r.callback c.message) := by
  cases hr : c.toCall with
  | none => exact (h.refused hr).1
  | some r => exact (h.answer r hr).resolve_left hready

/-- A step of a thread of the pool is a step of the queue: no promise is set twice. -/
theorem ServiceInv.thread_steps {t : ThreadEvent} {threadPool : PoolState ℕ} (hs : ServiceInv s)
    (step : s.threadPool.step sqSize (.thread t) = some threadPool) :
    ∃ s', s.step (.thread t) = some s' ∧ s'.threadPool = threadPool := by
  cases hcalled : s.called t with
  | none => exact ⟨{ s with threadPool }, by simp [ServiceState.step, step, hcalled], rfl⟩
  | some k =>
      cases t with
      | worker i =>
          obtain ⟨c, r, at_k, found, pending⟩ := hs.pending_of_running hcalled
          refine ⟨{ s with threadPool, calls := s.calls.set k { c with
            future := .value (r.callback c.message) } }, ?_, rfl⟩
          simp [ServiceState.step, step, hcalled, Common.answer, at_k, found, pending]
      | spurious | manager => cases hcalled

/-- The steps that a caller waits for: its own `Add`, and those of the workers. -/
def ServeStep (k : ℕ) : ServiceEvent μ ρ → Prop
  | .add k' => k' = k
  | .thread (.worker _) => True
  | .subscribe _ | .publish _ _ | .thread (.spurious _) | .thread .manager => False

/-- Call `k` looks for an answer to the message of `c`. -/
structure Pursues (k : ℕ) (c : ServiceCall μ ρ) (s : ServiceState μ ρ) : Prop where
  inv : ServiceInv s
  at_k : ∃ c', s.calls[k]? = some c' ∧ c'.toCall = c.toCall ∧ c'.message = c.message

namespace Pursues

/-- No step changes whom the call asks and what it says. -/
theorem step (hs : Pursues k c s) (h : s.step e = some s') : Pursues k c s' := by
  refine ⟨hs.inv.step h, ?_⟩
  obtain ⟨c', at_k, hsame⟩ := hs.at_k
  cases ServiceState.step_transition h with
  | subscribe => exact ⟨c', at_k, hsame⟩
  | publish => exact ⟨c', lookup_concat_left at_k, hsame⟩
  | add j d threadPool at_j =>
      refine (exists_set_iff at_j k).mpr ?_
      split
      next hkj =>
        subst hkj
        obtain rfl := Option.some.inj (at_k.symm.trans at_j)
        exact hsame
      next => exact ⟨c', at_k, hsame⟩
  | thread => exact ⟨c', at_k, hsame⟩
  | answer i j d r threadPool step running at_j =>
      refine (exists_set_iff at_j k).mpr ?_
      split
      next hkj =>
        subst hkj
        obtain rfl := Option.some.inj (at_k.symm.trans at_j)
        exact hsame
      next => exact ⟨c', at_k, hsame⟩

/-- A step of a worker in the pool is a step that the caller waits for. -/
theorem worker {i : ℕ} {threadPool : PoolState ℕ} (hs : Pursues k c s)
    (hstep : s.threadPool.step sqSize (.thread (.worker i)) = some threadPool) :
    ∃ e s', ServeStep k e ∧ s.step e = some s' ∧ Pursues k c s' ∧ s'.threadPool = threadPool := by
  obtain ⟨s', hs', hpool⟩ := hs.inv.thread_steps hstep
  exact ⟨.thread (.worker i), s', trivial, hs', hs.step hs', hpool⟩

/-- The mutex of the pool gets free. -/
theorem mutexFree (hs : Pursues k c s) :
    ∃ s', Leads ServiceState.step (ServeStep k) s s' ∧ Pursues k c s' ∧
      s'.threadPool.mutexFree := by
  refine Leads.of_measure (Pursues k c) (fun s => s.threadPool.mutexFree)
    (fun s => s.threadPool.workers.countP WorkerPc.holdsMutex) (fun s hs hheld => ?_) hs
  -- a worker that holds the mutex is on its way to `cond.wait`
  obtain ⟨i, at_i⟩ : ∃ i : ℕ, s.threadPool.workers[i]? = some .wait := by
    simp only [PoolState.mutexFree, not_forall] at hheld
    obtain ⟨w, hw, hholds⟩ := hheld
    obtain ⟨i, at_i⟩ := List.mem_iff_getElem?.mp hw
    cases w with
    | wait => exact ⟨i, at_i⟩
    | lock | blocked | woken | run | finish | exited => exact absurd rfl hholds
  have hstep : s.threadPool.step sqSize (.thread (.worker i)) =
      some (s.threadPool.put i .blocked) := by
    rw [PoolState.step, at_i, Option.bind_some, workerStep]
  obtain ⟨e, s', howned, hs', hpursues, hpool⟩ := hs.worker hstep
  refine ⟨e, s', howned, hs', hpursues, .inr ?_⟩
  have hcount := countP_set_add (a := WorkerPc.blocked) WorkerPc.holdsMutex at_i
  simp only [WorkerPc.holdsMutex, Bool.false_eq_true, ↓reduceIte, Nat.add_zero] at hcount
  simp only [hpool, PoolState.put]
  omega

/-- The task of the call gets into the pool. -/
theorem added (hs : Pursues k c s) (found : c.toCall.isSome) :
    ∃ s', Leads ServiceState.step (ServeStep k) s s' ∧ Pursues k c s' ∧
      k ∈ s'.threadPool.tasks := by
  obtain ⟨s₁, hleads, hs₁, hfree⟩ := hs.mutexFree
  obtain ⟨c₁, at_k, htoCall, -⟩ := hs₁.at_k
  cases hadded : c₁.added with
  | true => exact ⟨s₁, hleads, hs₁, (hs₁.inv.mem_tasks k).mpr ⟨c₁, at_k, hadded⟩⟩
  | false =>
      have hstep : s₁.step (.add k) = some { s₁ with
          threadPool := { s₁.threadPool with taskQ := s₁.threadPool.taskQ ++ [k] }.notifyAll
          calls := s₁.calls.set k { c₁ with added := true } } := by
        simp [ServiceState.step, at_k, htoCall, found, hadded, PoolState.step, hfree,
          hs₁.inv.opened]
      have hadd : ServeStep k (.add k : ServiceEvent μ ρ) := rfl
      refine ⟨_, hleads.trans (Leads.head hadd hstep (Leads.refl _)), hs₁.step hstep, ?_⟩
      simp [PoolState.tasks, PoolState.notifyAll]

/-- A task in the pool is started. -/
theorem started (hs : Pursues k c s) (hk : k ∈ s.threadPool.tasks) :
    ∃ s', Leads ServiceState.step (ServeStep k) s s' ∧ Pursues k c s' ∧
      k ∈ s'.threadPool.started := by
  obtain ⟨n, at_n⟩ := List.mem_iff_getElem?.mp hk
  have hadded : Added sqSize n k s.threadPool :=
    ⟨hs.inv.pool.counters hs.inv.opened, hs.inv.pool.attentive,
      hs.inv.pool.slotPerWorker hs.inv.opened, at_n⟩
  have hprogress : ∃ s', Leads ServiceState.step (ServeStep k) s s' ∧
      (Pursues k c s' ∧ Added sqSize n k s'.threadPool) ∧ n < s'.threadPool.started.length := by
    refine Leads.of_measure (fun s => Pursues k c s ∧ Added sqSize n k s.threadPool)
      (fun s => n < s.threadPool.started.length) (fun s => effort sqSize n s.threadPool) ?_
      ⟨hs, hadded⟩
    rintro s ⟨hs, hadded⟩ hn
    obtain ⟨i, threadPool, hstep⟩ := hadded.worker_steps (not_lt.mp hn)
    obtain ⟨e, s', howned, hs', hpursues, hpool⟩ := hs.worker hstep
    have hopen : threadPool.shutdown = false := hpool ▸ hpursues.inv.opened
    refine ⟨e, s', howned, hs', ⟨hpursues, hpool ▸ hadded.step hstep hopen⟩, ?_⟩
    rw [hpool]
    refine or_iff_not_imp_left.mpr fun hn' => ?_
    exact hadded.effort_step hstep hopen (not_lt.mp hn')
  obtain ⟨s', hleads, ⟨hs', hadded'⟩, hn⟩ := hprogress
  exact ⟨s', hleads, hs', List.mem_of_getElem? (hadded'.started hn)⟩

/-- A task that was started answers the call. -/
theorem answered (hs : Pursues k c s) (hk : k ∈ s.threadPool.started) :
    ∃ s', Leads ServiceState.step (ServeStep k) s s' ∧ Pursues k c s' ∧ s'.Answered k := by
  rcases (hs.inv.once.mem_started k).mp hk with hanswered | ⟨i, running⟩
  · exact ⟨s, Leads.refl s, hs, hanswered⟩
  · obtain ⟨hstep, hrunning⟩ := step_of_running sqSize running
    obtain ⟨e, s', howned, hs', hpursues, hpool⟩ := hs.worker hstep
    refine ⟨s', Leads.head howned hs' (Leads.refl s'), hpursues, ?_⟩
    rcases (hpursues.inv.once.mem_started k).mp (hpool ▸ hk) with hanswered | ⟨j, hj⟩
    · exact hanswered
    · -- the worker has called its task, and no other worker had it
      rw [hpool, hrunning] at hj
      by_cases hji : j = i
      · subst hji
        simp at hj
      · rw [Function.update_of_ne hji] at hj
        exact absurd (hs.inv.once.unique j i k hj running) hji

end Pursues

end CsiFirmware.Common
