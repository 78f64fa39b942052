import CsiFirmware.Common.PoolInvariants
import Mathlib.Algebra.Order.BigOperators.Group.List
import Mathlib.Algebra.Order.Ring.Nat
import Mathlib.Data.Nat.Cast.Basic

/-!
# Every queued task is started

Reference: `ThreadPool::worker`, `ThreadPool::manager` and `ThreadPool::Add`.

While a task is queued no worker goes to sleep, so that every step of a worker brings the task
closer to its start: it starts the task before it, calls one that was started, or is done with it.
A worker that leaves is replaced at most as often as there are slots, since its own slot is lost.
The number of steps that the workers take before the start is bounded, whatever is added in the
meantime, whatever the manager does, and whichever worker the scheduler prefers.
-/

namespace CsiFirmware.Common

open Runs Threads

variable {τ : Type*} {size : PoolSize} {s s' : PoolState τ} {e : PoolEvent τ} {n : ℕ} {task : τ}

/-- The event is a step of a worker. -/
def PoolEvent.ofWorker : PoolEvent τ → Bool
  | .thread (.worker _) => true
  | .add _ | .thread (.spurious _) | .thread .manager | .destructor => false

/-! ## Slots -/

/-- Every worker that was ever started has used up a slot. -/
def SlotPerWorker (size : PoolSize) (s : PoolState τ) : Prop :=
  s.workers.length + s.freeSlots = size.maxNum

/-- The constructor uses up a slot for each of its workers. -/
theorem slotPerWorker_init : SlotPerWorker size (PoolState.init size : PoolState τ) := by
  have hle := size.min_le_max
  simp only [SlotPerWorker, PoolState.freeSlots, PoolState.init, List.countP_append,
    List.countP_map, List.countP_replicate, List.length_replicate, Option.isNone_none, ↓reduceIte]
  simp [Function.comp_def]
  omega

/-- Whether each worker has a slot depends on the number of workers and on the slots alone. -/
theorem SlotPerWorker.frame (hs : SlotPerWorker size s)
    (hworkers : s'.workers.length = s.workers.length) (hslots : s'.threadIDs = s.threadIDs) :
    SlotPerWorker size s' := by
  rw [SlotPerWorker, hworkers, PoolState.freeSlots, hslots]
  exact hs

/-- Before shutdown, a slot is taken for each new worker and never given back. -/
theorem SlotPerWorker.step (hs : SlotPerWorker size s ∧ s.destructor = .notCalled)
    (h : s.step size e = some s') (hopen : s'.shutdown = false) :
    SlotPerWorker size s' ∧ s'.destructor = .notCalled := by
  obtain ⟨hslots, hcalled⟩ := hs
  cases PoolState.step_transition h with
  | reject => exact ⟨hslots, hcalled⟩
  | add | leave | block | finish | release | spurious | manage | shrink | notify =>
      refine ⟨hslots.frame ?_ rfl, hcalled⟩
      simp [PoolState.notifyAll, PoolState.put]
  | close _ _ _ _ _ ready | wait _ _ _ _ _ ready | take _ _ _ _ _ _ _ ready =>
      cases ready <;> refine ⟨hslots.frame ?_ rfl, hcalled⟩ <;> simp [PoolState.put]
  | grow =>
      obtain ⟨k, hk⟩ := grow_grown size s
      refine ⟨?_, hk.destructor.trans hcalled⟩
      have hfree := hk.freeSlots
      simp only [SlotPerWorker, PoolState.freeSlots] at hslots hfree ⊢
      simp only [hk.workers, List.length_append, List.length_replicate]
      omega
  | shut => cases hopen
  | destruct pc move =>
      cases move with
      | joined pc | skip i pc | done i pc => simp [pc] at hcalled
  | join i k pc => simp [pc] at hcalled
  | wakeAll pc => simp [pc] at hcalled

/-! ## The measure -/

/-- The steps a worker can take before it starts another task. -/
def WorkerPc.rank : WorkerPc τ → ℕ
  | .run _ => 3
  | .finish => 2
  | .lock | .wait | .blocked | .woken => 1
  | .exited => 0

/-- A woken worker has as far to go as a blocked one. -/
@[simp] theorem rank_wake (w : WorkerPc τ) : w.wake.rank = w.rank := by cases w <;> rfl

/-- No worker takes more than three steps before it starts another task. -/
theorem WorkerPc.rank_le (w : WorkerPc τ) : w.rank ≤ 3 := by cases w <;> simp [rank]

/-- The rank of all workers. -/
def PoolState.rank (s : PoolState τ) : ℕ := (s.workers.map WorkerPc.rank).sum

/-- A step of worker `i` changes its own share alone. -/
theorem rank_put {i : ℕ} {w : WorkerPc τ} (at_i : s.workers[i]? = some w) (w' : WorkerPc τ) :
    (s.put i w').rank + w.rank = s.rank + w'.rank :=
  sum_map_set_add WorkerPc.rank at_i

/-- A notification changes nothing. -/
theorem rank_notifyAll : s.notifyAll.rank = s.rank := by
  simp [PoolState.rank, PoolState.notifyAll, Function.comp_def]

/-- No worker has more than three steps to go. -/
theorem rank_le (s : PoolState τ) : s.rank ≤ 3 * s.workers.length := by
  have hle := List.sum_le_card_nsmul (s.workers.map WorkerPc.rank) 3 (by
    intro r hr
    obtain ⟨w, -, rfl⟩ := List.mem_map.mp hr
    exact w.rank_le)
  rw [List.length_map, nsmul_eq_mul, Nat.cast_id, mul_comm] at hle
  exact hle

/-- What is left to do by the workers until task number `n` is started. -/
def effort (size : PoolSize) (n : ℕ) (s : PoolState τ) : ℕ :=
  3 * (n + 1 - s.started.length) + s.rank + (size.maxNum - s.workers.length)

/-- A notification leaves as much to do as before. -/
theorem effort_notifyAll : effort size n s.notifyAll = effort size n s := by
  rw [effort, rank_notifyAll, effort]
  simp [PoolState.notifyAll]

/-- A worker that goes on without starting a task has done a part of the work. -/
theorem effort_put {i : ℕ} {w v : WorkerPc τ} (at_i : s.workers[i]? = some w)
    (hrank : v.rank + 1 = w.rank) : effort size n (s.put i v) + 1 = effort size n s := by
  have hput := rank_put at_i v
  have hlength : (s.put i v).workers.length = s.workers.length := List.length_set
  have hstarted : (s.put i v).started = s.started := rfl
  rw [effort, effort, hlength, hstarted]
  omega

/-- A worker that has not exited can take a step if no worker is asleep. -/
theorem awake_worker_steps (size : PoolSize) (hawake : ∀ w ∈ s.workers, w.asleep = false) {i : ℕ}
    {w : WorkerPc τ} (at_i : s.workers[i]? = some w) (halive : w.alive = true) :
    ∃ s', s.step size (.thread (.worker i)) = some s' := by
  have hfree : s.mutexFree := by
    intro w hw
    have hw' := hawake w hw
    cases w <;> first | rfl | cases hw'
  have hstep : (workerStep size s i w).isSome := by
    cases w with
    | lock | finish => simp [workerStep, hfree]
    | run task => rfl
    | woken =>
        simp only [workerStep, hfree, ↓reduceIte]
        split_ifs <;> rfl
    | wait | blocked => cases hawake _ (List.mem_of_getElem? at_i)
    | exited => cases halive
  obtain ⟨s', hs'⟩ := Option.isSome_iff_exists.mp hstep
  refine ⟨s', ?_⟩
  rw [PoolState.step, at_i, Option.bind_some, hs']

/-- A task with this number was added, and the pool is as the constructor and its steps leave it. -/
structure Added (size : PoolSize) (n : ℕ) (task : τ) (s : PoolState τ) : Prop where
  counters : Counters size s
  attentive : Attentive s
  slots : SlotPerWorker size s ∧ s.destructor = .notCalled
  at_n : s.tasks[n]? = some task

namespace Added

/-- The task keeps its number. -/
theorem step (hs : Added size n task s) (h : s.step size e = some s')
    (hopen : s'.shutdown = false) : Added size n task s' where
  counters := hs.counters.step h hopen
  attentive := hs.attentive.step h
  slots := SlotPerWorker.step hs.slots h hopen
  at_n := by
    have hprefix : s.tasks <+: s'.tasks := by
      cases e with
      | add task =>
          obtain ⟨htasks, -⟩ := tasks_add (shutdown_step h hopen) h
          exact ⟨_, htasks.symm⟩
      | thread t => exact (tasks_thread h).1 ▸ List.prefix_rfl
      | destructor =>
          cases PoolState.step_transition h with
          | shut | destruct | join => exact List.prefix_rfl
          | wakeAll => exact List.prefix_rfl
    obtain ⟨l, hl⟩ := hprefix
    obtain ⟨hlt, -⟩ := List.getElem?_eq_some_iff.mp hs.at_n
    rw [← hl, List.getElem?_append_left hlt, hs.at_n]

/-- The task is queued until it is started. -/
theorem queue_ne_nil (hs : Added size n task s) (hn : s.started.length ≤ n) : s.taskQ ≠ [] := by
  rintro hq
  obtain ⟨hlt, -⟩ := List.getElem?_eq_some_iff.mp hs.at_n
  simp only [PoolState.tasks, hq, List.append_nil] at hlt
  omega

/-- Once as many tasks have been started, this one has. -/
theorem started (hs : Added size n task s) (hn : n < s.started.length) :
    s.started[n]? = some task := by
  rw [← hs.at_n, PoolState.tasks, List.getElem?_append_left hn]

/-- While the task is queued, the steps of workers bring it closer to its start, and no other step
sets it back. -/
theorem effort_step (hs : Added size n task s) (h : s.step size e = some s')
    (hopen : s'.shutdown = false) (hn : s'.started.length ≤ n) :
    effort size n s' + (if e.ofWorker then 1 else 0) ≤ effort size n s := by
  cases PoolState.step_transition h with
  | reject | manage | shrink | destruct | join => exact le_rfl
  | add | notify | wakeAll => exact (effort_notifyAll (s := s)).le
  | close i w s₁ at_i free ready closed =>
      exact absurd (shutdown_step h hopen) (by simp [closed])
  | wait i w s₁ at_i free ready opened queue =>
      have hstarted : s₁.started = s.started := by cases ready <;> rfl
      -- nobody finds the queue empty as long as the task is in it
      exact absurd queue (hs.queue_ne_nil (hstarted ▸ hn))
  | take i w s₁ task q at_i free ready =>
      have hput : s₁.workers.set i (.run task) = s.workers.set i (.run task) := by
        cases ready <;> rfl
      have hw : w.rank = 1 := by cases ready <;> rfl
      -- the start of a task pays for the steps that its worker has before it
      have hrank := sum_map_set_add (a := WorkerPc.run task) WorkerPc.rank at_i
      simp only [List.length_append, List.length_singleton] at hn
      simp only [effort, PoolState.rank, PoolState.put, hput, List.length_append,
        List.length_singleton, List.length_set, PoolEvent.ofWorker, ↓reduceIte]
      rw [hw, show (WorkerPc.run task).rank = 3 from rfl] at hrank
      omega
  | leave i at_i => exact (effort_put (v := .exited) at_i rfl).le
  | block i at_i =>
      have hawake := hs.attentive (hs.queue_ne_nil hn) .wait (List.mem_of_getElem? at_i)
      cases hawake
  | finish i task at_i => exact (effort_put (v := .finish) at_i rfl).le
  | release i at_i => exact (effort_put (v := .lock) at_i rfl).le
  | spurious i at_i =>
      have hawake := hs.attentive (hs.queue_ne_nil hn) .blocked (List.mem_of_getElem? at_i)
      cases hawake
  | grow =>
      obtain ⟨k, hk⟩ := grow_grown size s
      -- a new worker has one step to go and has used up a slot
      have hslots := hs.slots.1
      have hfree := hk.freeSlots
      have hrank : (grow size s).rank = s.rank + k := by
        simp [PoolState.rank, hk.workers, WorkerPc.rank]
      have hlength : (grow size s).workers.length = s.workers.length + k := by
        simp [hk.workers]
      rw [SlotPerWorker] at hslots
      have heffort : effort size n (grow size s) = effort size n s := by
        rw [effort, effort, hrank, hlength, hk.started]
        omega
      exact heffort.le
  | shut => cases hopen

/-- While the task is queued, some worker can take a step. -/
theorem worker_steps (hs : Added size n task s) (hn : s.started.length ≤ n) :
    ∃ i s', s.step size (.thread (.worker i)) = some s' := by
  have hpos : 0 < s.workers.countP WorkerPc.alive := by
    have hlive := hs.counters.live
    have hmin := hs.counters.min_le
    have hone := size.one_le
    omega
  obtain ⟨w, hw, halive⟩ := List.countP_pos_iff.mp hpos
  -- nobody is asleep, so this worker can go on
  obtain ⟨i, at_i⟩ := List.mem_iff_getElem?.mp hw
  exact ⟨i, awake_worker_steps size (hs.attentive (hs.queue_ne_nil hn)) at_i halive⟩

end Added

/-- The task keeps its number as long as the pool is not shut down. -/
theorem UntilShutdown.added_step (hs : UntilShutdown (Added size n task) s)
    (h : s.step size e = some s') : UntilShutdown (Added size n task) s' :=
  fun hopen => (hs (shutdown_step h hopen)).step h hopen

/-- The task is started, or the pool is shut down before. -/
def StartedOrShut (n : ℕ) (s : PoolState τ) : Prop :=
  s.shutdown = true ∨ n < s.started.length

/-- What has been started stays so. -/
theorem StartedOrShut.step (hs : StartedOrShut n s) (h : s.step size e = some s') :
    StartedOrShut n s' := by
  by_cases hopen : s'.shutdown = false
  · have hopen₀ : s.shutdown = false := shutdown_step h hopen
    have hn : n < s.started.length := by simpa [StartedOrShut, hopen₀] using hs
    have hstarted : s.started.length ≤ s'.started.length := by
      rcases running_step h with ⟨heq, -⟩ | ⟨i, task, q, -, -, heq, -⟩ | ⟨i, task, -, -, heq, -⟩
      all_goals simp [heq]
    exact .inr (hn.trans_le hstarted)
  · exact .inl (by simpa using hopen)

/-- In no reachable state does a worker sleep while a task is queued. -/
theorem PoolReachable.attentive (h : PoolReachable size s) : Attentive s := by
  refine h.invariant ?_ fun s e s' hs hs' => hs.step hs'
  rintro s₀ rfl hq
  exact absurd rfl hq

/-- Before shutdown, the slots account for all workers that were ever started. -/
theorem PoolReachable.slotPerWorker (h : PoolReachable size s) (hopen : s.shutdown = false) :
    SlotPerWorker size s ∧ s.destructor = .notCalled := by
  have hinv : UntilShutdown (fun s => SlotPerWorker size s ∧ s.destructor = .notCalled) s := by
    refine h.invariant ?_ fun s e s' hs hs' hopen' => ?_
    · rintro s₀ rfl -
      exact ⟨slotPerWorker_init, rfl⟩
    · exact SlotPerWorker.step (hs (shutdown_step hs' hopen')) hs' hopen'
  exact hinv hopen

/-- Nothing but the destructor keeps a task in the queue from being started. As long as it is
queued, some worker can take a step, and the workers have taken less than a fixed number of steps,
however calls of `Add`, rounds of the manager and spurious wake-ups are interleaved with them. -/
theorem queued_task_started (h : PoolReachable size s) (hopen : s.shutdown = false) {p : ℕ}
    (hp : s.taskQ[p]? = some task) {es : List (PoolEvent τ)}
    (hrun : run (PoolState.step size) s es = some s') (hopen' : s'.shutdown = false) :
    s'.started[s.started.length + p]? = some task ∨
      (es.countP PoolEvent.ofWorker < 3 * (p + 1 + size.maxNum) ∧
        ∃ i s'', s'.step size (.thread (.worker i)) = some s'') := by
  have hadded : Added size (s.started.length + p) task s :=
    ⟨h.counters hopen, h.attentive, h.slotPerWorker hopen, by
      rw [PoolState.tasks, List.getElem?_append_right (Nat.le_add_right _ p),
        Nat.add_sub_cancel_left, hp]⟩
  have huntil : UntilShutdown (Added size (s.started.length + p) task) s' :=
    run_invariant (fun s e s' hs hs' => hs.added_step hs') (fun _ => hadded) hrun
  have hadded' := huntil hopen'
  by_cases hn : s.started.length + p < s'.started.length
  · exact .inl (hadded'.started hn)
  obtain hgoal | hle := reaches_or_count_le (UntilShutdown (Added size (s.started.length + p) task))
    (StartedOrShut (s.started.length + p)) PoolEvent.ofWorker (effort size (s.started.length + p))
    (fun s e s' hs hs' => ⟨hs.added_step hs', fun hgoal => hgoal.step hs'⟩)
    (fun s e s' hs hs' hnot => by
      simp only [StartedOrShut, not_or, Bool.not_eq_true, not_lt] at hnot
      exact (hs (shutdown_step hs' hnot.1)).effort_step hs' hnot.1 hnot.2)
    (fun _ => hadded) hrun
  · simp [StartedOrShut, hopen', hn] at hgoal
  · refine .inr ⟨?_, hadded'.worker_steps (not_lt.mp hn)⟩
    have hrank := rank_le s
    have hslots := hadded.slots.1
    rw [SlotPerWorker] at hslots
    have hpos : 0 < effort size (s.started.length + p) s' := by
      rw [effort]
      omega
    have hbound : effort size (s.started.length + p) s ≤ 3 * (p + 1 + size.maxNum) := by
      rw [effort]
      omega
    omega

/-- Two tasks are added to a pool whose only worker sleeps. It takes the first, calls it, and takes
the second. -/
theorem queued_task_started_second :
    ∃ s s' : PoolState ℕ, run (PoolState.step mqSize) (PoolState.init mqSize)
        [.thread (.worker 0), .thread (.worker 0), .add 5, .add 6] = some s ∧
      run (PoolState.step mqSize) s
        [.thread (.worker 0), .add 7, .thread (.worker 0), .thread (.worker 0),
          .thread (.worker 0)] = some s' ∧
      (s'.started[s.started.length + 1]? = some 6 ∨
        (4 < 3 * (1 + 1 + mqSize.maxNum) ∧
          ∃ i s'', s'.step mqSize (.thread (.worker i)) = some s'')) := by
  have hrun : (run (PoolState.step mqSize) (PoolState.init mqSize)
      [.thread (.worker 0), .thread (.worker 0), .add 5, .add 6]).map
        (fun s => (s.shutdown, s.taskQ, (run (PoolState.step mqSize) s
          [.thread (.worker 0), .add 7, .thread (.worker 0), .thread (.worker 0),
            .thread (.worker 0)]).map PoolState.shutdown)) =
      some (false, [5, 6], some false) := by decide
  obtain ⟨s, hs, hlast⟩ := Option.map_eq_some_iff.mp hrun
  obtain ⟨hopen, hlast⟩ := Prod.mk.inj hlast
  obtain ⟨hq, hlast⟩ := Prod.mk.inj hlast
  obtain ⟨s', hs', hopen'⟩ := Option.map_eq_some_iff.mp hlast
  exact ⟨s, s', hs, hs', queued_task_started ⟨_, _, rfl, hs⟩ hopen (by rw [hq]; rfl) hs' hopen'⟩

/-! ## Tasks that are called once -/

/-- The tasks are distinct. Those that were started are those that were called, and those that are
run by one worker each. -/
structure RunsOnce (s : PoolState τ) (called : τ → Prop) : Prop where
  nodup : s.tasks.Nodup
  mem_started : ∀ t, t ∈ s.started ↔ called t ∨ ∃ i, s.running i = some t
  uncalled : ∀ i t, s.running i = some t → ¬ called t
  unique : ∀ i j t, s.running i = some t → s.running j = some t → i = j

namespace RunsOnce

variable {called called' : τ → Prop}

/-- Nothing has been called, and nobody runs a task. -/
theorem init (size : PoolSize) : RunsOnce (PoolState.init size : PoolState τ) (fun _ => False) where
  nodup := List.nodup_nil
  mem_started t := by
    rw [running_init]
    simp [PoolState.init]
  uncalled i t _ := id
  unique i j t hi := by simp [running_init] at hi

/-- What is run once depends on which tasks count as called, not on how that is said. -/
theorem congr (h : RunsOnce s called) (hiff : ∀ t, called t ↔ called' t) : RunsOnce s called' := by
  have hcalled : called = called' := funext fun t => propext (hiff t)
  exact hcalled ▸ h

/-- A task that is queued has not been called, and no worker runs it. -/
theorem of_mem_taskQ (h : RunsOnce s called) (htask : task ∈ s.taskQ) :
    ¬ called task ∧ ∀ i, s.running i ≠ some task := by
  have hnot : task ∉ s.started := fun hstarted =>
    (List.nodup_append.mp h.nodup).2.2 task hstarted task htask rfl
  rw [h.mem_started, not_or, not_exists] at hnot
  exact hnot

/-- A worker calls its task. -/
theorem call {i : ℕ} (h : RunsOnce s called) (running : s.running i = some task)
    (hnodup : s'.tasks.Nodup) (hstarted : s'.started = s.started)
    (hrunning : s'.running = Function.update s.running i none) :
    RunsOnce s' (fun t => called t ∨ t = task) := by
  have hiff : ∀ {j t}, s'.running j = some t ↔ j ≠ i ∧ s.running j = some t := by
    intro j t
    rw [hrunning]
    by_cases hji : j = i
    · subst hji
      simp
    · simp [hji]
  -- no other worker runs the same task
  have hother : ∀ {j t}, j ≠ i → s.running j = some t → t ≠ task := by
    rintro j t hji hj rfl
    exact hji (h.unique j i t hj running)
  refine ⟨hnodup, fun t => ?_, fun j t hj => ?_, fun j k t hj hk => ?_⟩
  · rw [hstarted, h.mem_started, or_assoc]
    refine or_congr_right ⟨fun ⟨j, hj⟩ => ?_, ?_⟩
    · by_cases hji : j = i
      · exact .inl (Option.some.inj (hj.symm.trans (hji ▸ running)))
      · exact .inr ⟨j, hiff.mpr ⟨hji, hj⟩⟩
    · rintro (rfl | ⟨j, hj⟩)
      · exact ⟨i, running⟩
      · exact ⟨j, (hiff.mp hj).2⟩
  · obtain ⟨hji, hj⟩ := hiff.mp hj
    exact not_or.mpr ⟨h.uncalled j t hj, hother hji hj⟩
  · exact h.unique j k t (hiff.mp hj).2 (hiff.mp hk).2

/-- A worker takes a task that is queued. -/
theorem take {i : ℕ} (h : RunsOnce s called) (htask : task ∈ s.taskQ) (idle : s.running i = none)
    (hnodup : s'.tasks.Nodup) (hstarted : s'.started = s.started ++ [task])
    (hrunning : s'.running = Function.update s.running i (some task)) : RunsOnce s' called := by
  obtain ⟨hfresh, hnobody⟩ := h.of_mem_taskQ htask
  have hiff : ∀ {j t}, s'.running j = some t ↔ (j = i ∧ t = task) ∨ s.running j = some t := by
    intro j t
    rw [hrunning]
    by_cases hji : j = i
    · subst hji
      simp [idle, eq_comm]
    · simp [hji]
  refine ⟨hnodup, fun t => ?_, fun j t hj => ?_, fun j k t hj hk => ?_⟩
  · rw [hstarted, List.mem_append, List.mem_singleton, h.mem_started, or_assoc]
    refine or_congr_right ⟨?_, fun ⟨j, hj⟩ => ?_⟩
    · rintro (⟨j, hj⟩ | rfl)
      · exact ⟨j, hiff.mpr (.inr hj)⟩
      · exact ⟨i, hiff.mpr (.inl ⟨rfl, rfl⟩)⟩
    · rcases hiff.mp hj with ⟨-, rfl⟩ | hj
      · exact .inr rfl
      · exact .inl ⟨j, hj⟩
  · rcases hiff.mp hj with ⟨-, rfl⟩ | hj
    · exact hfresh
    · exact h.uncalled j t hj
  · rcases hiff.mp hj with ⟨rfl, rfl⟩ | hj
    · rcases hiff.mp hk with ⟨rfl, -⟩ | hk
      · rfl
      · exact absurd hk (hnobody k)
    · rcases hiff.mp hk with ⟨rfl, rfl⟩ | hk
      · exact absurd hj (hnobody j)
      · exact h.unique j k t hj hk

/-- A step calls nothing but the task of the worker that takes it. -/
theorem step (h : RunsOnce s called) (hs : s.step size e = some s') (hnodup : s'.tasks.Nodup) :
    RunsOnce s' (fun t => called t ∨ ∃ i, e = .thread (.worker i) ∧ s.running i = some t) := by
  by_cases hcall : ∃ i t, e = .thread (.worker i) ∧ s.running i = some t
  · obtain ⟨i, t, rfl, running⟩ := hcall
    obtain ⟨hstep, hrunning⟩ := step_of_running size running
    obtain rfl := Option.some.inj (hstep.symm.trans hs)
    refine (h.call running hnodup rfl hrunning).congr fun t' => or_congr_right ?_
    simp [running, eq_comm]
  · have hidle : ∀ t, (called t ↔
        called t ∨ ∃ i, e = .thread (.worker i) ∧ s.running i = some t) := fun t =>
      (or_iff_left fun ⟨i, he, hi⟩ => hcall ⟨i, t, he, hi⟩).symm
    refine RunsOnce.congr ?_ hidle
    obtain ⟨hstarted, hrunning⟩ | ⟨i, t, q, hq, hi, hstarted, hrunning⟩ |
      ⟨i, t, he, hi, -⟩ := running_step hs
    · exact ⟨hnodup, by rw [hstarted, hrunning]; exact h.mem_started,
        by rw [hrunning]; exact h.uncalled, by rw [hrunning]; exact h.unique⟩
    · exact h.take (by simp [hq]) hi hnodup hstarted hrunning
    · exact absurd ⟨i, t, he, hi⟩ hcall

end RunsOnce

end CsiFirmware.Common
