import CsiFirmware.Common.ThreadPool

/-!
# What holds of a thread pool in every reachable state

Reference: `ThreadPool::worker`, `ThreadPool::manager` and `ThreadPool::Add`.

Before shutdown the counters agree with the threads, whatever snapshot the manager acts on and
whichever worker takes an exit token, and no queued task is left to workers that wait. The slots of
`threadIDs` do not agree with the threads any more once a worker has left: its slot keeps its id.
-/

namespace CsiFirmware.Common

open Runs Threads

variable {τ : Type*} {size : PoolSize} {s s' : PoolState τ} {e : PoolEvent τ}

/-- The steps of a pool from the return of its constructor. -/
abbrev PoolReachable (size : PoolSize) (s : PoolState τ) : Prop :=
  Reachable (PoolState.step size) (· = PoolState.init size) s

/-- `P` holds unless the pool is shut down. -/
def UntilShutdown (P : PoolState τ → Prop) (s : PoolState τ) : Prop := s.shutdown = false → P s

/-- A pool that is not shut down after a step was not shut down before. -/
theorem shutdown_step (h : s.step size e = some s') (hopen : s'.shutdown = false) :
    s.shutdown = false := by
  cases PoolState.step_transition h with
  | reject | add | leave | block | finish | release | spurious | manage | shrink | notify
  | destruct | join | wakeAll => exact hopen
  | close _ _ _ _ _ _ closed => cases ‹Ready _ _ _ _› <;> exact hopen
  | wait _ _ _ _ _ _ opened | take _ _ _ _ _ _ _ _ opened => exact opened
  | grow =>
      obtain ⟨k, hk⟩ := grow_grown size s
      exact hk.shutdown.symm.trans hopen
  | shut => cases hopen

/-! ## Counters -/

/-- The counters agree with the threads and stay within their bounds. -/
structure Counters (size : PoolSize) (s : PoolState τ) : Prop where
  live : s.liveNum = s.workers.countP WorkerPc.alive
  min_le : size.minNum ≤ s.liveNum
  le_max : s.liveNum ≤ size.maxNum
  busy : s.busyNum = s.workers.countP WorkerPc.busy
  exitNum_nonneg : 0 ≤ s.exitNum
  exitNum_le : s.exitNum ≤ number

/-- `busyNum` counts workers, so it is not negative. -/
theorem Counters.busyNum_nonneg (hs : Counters size s) : 0 ≤ s.busyNum := by
  rw [hs.busy]
  exact Int.natCast_nonneg _

/-- A busy worker is alive. -/
theorem Counters.busyNum_le (hs : Counters size s) : s.busyNum ≤ s.liveNum := by
  rw [hs.busy, hs.live]
  have hle : s.workers.countP WorkerPc.busy ≤ s.workers.countP WorkerPc.alive :=
    List.countP_mono_left fun w _ hbusy => by cases w <;> first | rfl | cases hbusy
  exact_mod_cast hle

/-- The constructor starts `minNum` workers, none of which is busy. -/
theorem counters_init : Counters size (PoolState.init size : PoolState τ) where
  live := by simp [PoolState.init, List.countP_replicate, WorkerPc.alive]
  min_le := le_rfl
  le_max := by
    have hle := size.min_le_max
    simpa [PoolState.init] using hle
  busy := by simp [PoolState.init, List.countP_replicate, WorkerPc.busy]
  exitNum_nonneg := le_rfl
  exitNum_le := Int.natCast_nonneg _

/-- A counter that agreed with the threads before a step of worker `i` agrees with them afterwards,
if it goes up when the worker enters the count and down when it leaves it. -/
theorem counter_set {workers : List (WorkerPc τ)} {i : ℕ} {w w' : WorkerPc τ}
    {p : WorkerPc τ → Bool} {n n' : Int} (hn : n = workers.countP p)
    (at_i : workers[i]? = some w)
    (hstep : n' + (if p w then 1 else 0) = n + (if p w' then 1 else 0)) :
    n' = (workers.set i w').countP p := by
  have hcount := countP_set_add (a := w') p at_i
  split_ifs at hstep hcount <;> omega

namespace Counters

/-- A step of a worker that neither starts nor ends a task, nor leaves. -/
theorem put {i : ℕ} {w w' : WorkerPc τ} (hs : Counters size s) (at_i : s.workers[i]? = some w)
    (halive : w'.alive = w.alive) (hbusy : w'.busy = w.busy) : Counters size (s.put i w') where
  live := counter_set hs.live at_i (by rw [halive]; rfl)
  min_le := hs.min_le
  le_max := hs.le_max
  busy := counter_set hs.busy at_i (by rw [hbusy]; rfl)
  exitNum_nonneg := hs.exitNum_nonneg
  exitNum_le := hs.exitNum_le

/-- Waking workers changes neither who is alive nor who is busy. -/
theorem notifyAll (hs : Counters size s) : Counters size s.notifyAll where
  live := by
    rw [PoolState.notifyAll, List.countP_map, hs.live]
    simp [Function.comp_def]
  min_le := hs.min_le
  le_max := hs.le_max
  busy := by
    rw [PoolState.notifyAll, List.countP_map, hs.busy]
    simp [Function.comp_def]
  exitNum_nonneg := hs.exitNum_nonneg
  exitNum_le := hs.exitNum_le

/-- An exit token may be used up before the queue is tested. -/
theorem ready {w : WorkerPc τ} {s₁ : PoolState τ} (hs : Counters size s)
    (h : Ready size s w s₁) :
    Counters size s₁ ∧ s₁.workers = s.workers ∧ s₁.busyNum = s.busyNum := by
  cases h with
  | lock | woken => exact ⟨hs, rfl, rfl⟩
  | keep exitNum =>
      have hle := hs.exitNum_le
      refine ⟨⟨hs.live, hs.min_le, hs.le_max, hs.busy, ?_, ?_⟩, rfl, rfl⟩
      · simp only
        omega
      · simp only
        omega

/-- Each step changes a counter together with the workers that it counts. -/
theorem step (hs : Counters size s) (h : s.step size e = some s') (hopen : s'.shutdown = false) :
    Counters size s' := by
  cases PoolState.step_transition h with
  | reject => exact hs
  | add =>
      exact notifyAll ⟨hs.live, hs.min_le, hs.le_max, hs.busy, hs.exitNum_nonneg, hs.exitNum_le⟩
  | close _ _ _ _ _ _ closed =>
      exact absurd (shutdown_step h hopen) (by simp [closed])
  | wait i w s₁ at_i free ready =>
      obtain ⟨hs₁, hworkers, -⟩ := hs.ready ready
      refine hs₁.put (w := w) (by rw [hworkers, at_i]) ?_ ?_ <;> cases ready <;> rfl
  | take i w s₁ task q at_i free ready =>
      obtain ⟨hs₁, hworkers, hbusy⟩ := hs.ready ready
      -- the worker was alive before and is so now, but it is busy only now
      have halive : w.alive = true := by cases ready <;> rfl
      have hidle : w.busy = false := by cases ready <;> rfl
      have at_i₁ : s₁.workers[i]? = some w := by rw [hworkers, at_i]
      refine ⟨?_, hs₁.min_le, hs₁.le_max, ?_, hs₁.exitNum_nonneg, hs₁.exitNum_le⟩
      · exact counter_set hs₁.live at_i₁ (by rw [halive]; rfl)
      · rw [← hbusy]
        exact counter_set hs₁.busy at_i₁ (by rw [hidle]; exact add_zero _)
  | leave i at_i free exitNum liveNum =>
      have hle := hs.le_max
      -- it leaves only if there are more than `minNum` workers and a token is left
      have htokens := hs.exitNum_le
      refine ⟨?_, Int.le_sub_one_of_lt liveNum, ?_, ?_, Int.le_sub_one_of_lt exitNum, ?_⟩
      · exact counter_set hs.live at_i ((Int.sub_add_cancel _ _).trans (add_zero _).symm)
      · exact (Int.sub_le_self _ Int.one_nonneg).trans hle
      · exact counter_set hs.busy at_i (by rfl)
      · exact (Int.sub_le_self _ Int.one_nonneg).trans htokens
  | block i at_i => exact hs.put at_i rfl rfl
  | finish i task at_i => exact hs.put at_i rfl rfl
  | release i at_i free =>
      refine ⟨?_, hs.min_le, hs.le_max, ?_, hs.exitNum_nonneg, hs.exitNum_le⟩
      · exact counter_set hs.live at_i (by rfl)
      · exact counter_set hs.busy at_i ((Int.sub_add_cancel _ _).trans (add_zero _).symm)
  | spurious i at_i => exact hs.put at_i rfl rfl
  | manage | destruct | join =>
      exact ⟨hs.live, hs.min_le, hs.le_max, hs.busy, hs.exitNum_nonneg, hs.exitNum_le⟩
  | grow q l b pc free test =>
      -- the new workers are alive and not busy
      obtain ⟨k, hk⟩ := grow_grown size s
      refine ⟨?_, ?_, hk.bound hs.le_max, ?_, ?_, ?_⟩
      · simp [hk.liveNum, hk.workers, hs.live, List.countP_replicate, WorkerPc.alive]
      · have hmin := hs.min_le
        simp only [hk.liveNum]
        omega
      · simp [hk.busyNum, hk.workers, hs.busy, List.countP_replicate, WorkerPc.busy]
      · exact hk.exitNum ▸ hs.exitNum_nonneg
      · exact hk.exitNum ▸ hs.exitNum_le
  | shrink => exact ⟨hs.live, hs.min_le, hs.le_max, hs.busy, Int.natCast_nonneg _, le_rfl⟩
  | notify | wakeAll =>
      have hwoken := hs.notifyAll
      exact ⟨hwoken.live, hwoken.min_le, hwoken.le_max, hwoken.busy, hwoken.exitNum_nonneg,
        hwoken.exitNum_le⟩
  | shut => cases hopen

end Counters

/-- The counters are right until the pool is shut down. -/
theorem PoolReachable.counters (h : PoolReachable size s) (hopen : s.shutdown = false) :
    Counters size s := by
  have hinv : UntilShutdown (Counters size) s := by
    refine h.invariant ?_ fun s e s' hs hs' hopen' => ?_
    · rintro s₀ rfl -
      exact counters_init
    · exact (hs (shutdown_step hs' hopen')).step hs' hopen'
  exact hinv hopen

/-- Before shutdown, `liveNum` and `busyNum` count the workers that have not exited and those that
are busy with a task, and all three counters are within their bounds. -/
theorem pool_counters (h : PoolReachable size s) (hopen : s.shutdown = false) :
    s.liveNum = s.workers.countP WorkerPc.alive ∧
      size.minNum ≤ s.liveNum ∧ s.liveNum ≤ size.maxNum ∧
      s.busyNum = s.workers.countP WorkerPc.busy ∧
      0 ≤ s.busyNum ∧ s.busyNum ≤ s.liveNum ∧
      0 ≤ s.exitNum ∧ s.exitNum ≤ 2 := by
  have hs : Counters size s := PoolReachable.counters h hopen
  exact ⟨hs.live, hs.min_le, hs.le_max, hs.busy, hs.busyNum_nonneg, hs.busyNum_le,
    hs.exitNum_nonneg, hs.exitNum_le⟩

/-- The pool of a message queue. -/
def mqSize : PoolSize := ⟨1, 3, by decide, by decide⟩

/-- A queue of two tasks makes the pool grow to three workers. When the tasks are done, two workers
are asked to leave, and one of them does. -/
def growAndShrink : List (PoolEvent ℕ) :=
  [.add 0, .thread (.worker 0), .add 1, .add 2, .thread .manager, .thread .manager,
    .thread .manager, .thread .manager, .thread (.worker 1), .thread (.worker 2),
    .thread (.worker 0), .thread (.worker 0), .thread (.worker 1), .thread (.worker 1),
    .thread (.worker 2), .thread (.worker 2), .thread (.worker 0), .thread (.worker 0),
    .thread .manager, .thread .manager, .thread .manager, .thread .manager, .thread .manager,
    .thread (.worker 0)]

/-- The counters after the pool has grown to three workers and one of them has left. -/
theorem pool_counters_growAndShrink :
    ∃ s : PoolState ℕ, run (PoolState.step mqSize) (PoolState.init mqSize) growAndShrink = some s ∧
      s.liveNum = s.workers.countP WorkerPc.alive ∧
        mqSize.minNum ≤ s.liveNum ∧ s.liveNum ≤ mqSize.maxNum ∧
        s.busyNum = s.workers.countP WorkerPc.busy ∧
        0 ≤ s.busyNum ∧ s.busyNum ≤ s.liveNum ∧
        0 ≤ s.exitNum ∧ s.exitNum ≤ 2 := by
  have hrun : (run (PoolState.step mqSize) (PoolState.init mqSize) growAndShrink).map
      PoolState.shutdown = some false := by decide
  obtain ⟨s, hs, hopen⟩ := Option.map_eq_some_iff.mp hrun
  exact ⟨s, hs, pool_counters ⟨_, _, rfl, hs⟩ hopen⟩

/-! ## Queued tasks -/

/-- The worker has found the queue empty and does not look again before it is notified. -/
def WorkerPc.asleep : WorkerPc τ → Bool
  | .wait | .blocked => true
  | .lock | .woken | .run _ | .finish | .exited => false

/-- While a task is queued, every worker is going to look at the queue again. -/
def Attentive (s : PoolState τ) : Prop := s.taskQ ≠ [] → ∀ w ∈ s.workers, w.asleep = false

/-- A worker that is going to look at the queue does not block. -/
theorem WorkerPc.isBlocked_of_asleep {w : WorkerPc τ} (h : w.asleep = false) :
    w.isBlocked = false := by
  cases w <;> first | rfl | cases h

/-- Only a worker that holds the mutex, between its test and its wait, misses a notification. -/
theorem asleep_wake {w : WorkerPc τ} (h : w.holdsMutex = false) : w.wake.asleep = false := by
  cases w <;> first | rfl | cases h

namespace Attentive

/-- A worker gets to a point from which it looks at the queue again. -/
theorem put {i : ℕ} {w : WorkerPc τ} (hs : Attentive s) (hw : w.asleep = false) :
    Attentive (s.put i w) := by
  intro hq v hv
  rcases List.mem_or_eq_of_mem_set hv with hv | rfl
  · exact hs hq v hv
  · exact hw

/-- A notification puts nobody to sleep. -/
theorem notifyAll (hs : Attentive s) : Attentive s.notifyAll := by
  intro hq v hv
  obtain ⟨w, hw, rfl⟩ := List.mem_map.mp hv
  have hawake := hs hq w hw
  cases w <;> first | rfl | cases hawake

/-- A worker goes to sleep on an empty queue only, and `Add` wakes all of them. -/
theorem step (hs : Attentive s) (h : s.step size e = some s') : Attentive s' := by
  cases PoolState.step_transition h with
  | reject => exact hs
  | add task free =>
      -- the queue was empty if a worker was asleep; all of them are notified
      intro _ v hv
      obtain ⟨w, hw, rfl⟩ := List.mem_map.mp hv
      exact asleep_wake (free w hw)
  | close i w s₁ at_i free ready =>
      have hs₁ : Attentive s₁ := by cases ready <;> exact hs
      exact hs₁.put rfl
  | wait i w s₁ at_i free ready opened queue =>
      -- nothing is queued for the worker that goes to sleep
      have hq : s₁.taskQ = [] := by cases ready <;> exact queue
      exact fun hne => absurd hq hne
  | take i w s₁ task q at_i free ready opened queue =>
      have hs₁ : Attentive s₁ := by cases ready <;> exact hs
      have hq : s₁.taskQ ≠ [] := by cases ready <;> simp [queue]
      exact fun _ => hs₁.put (w := .run task) rfl hq
  | leave => exact hs.put rfl
  | block i at_i =>
      intro hq
      -- it was asleep before it blocks, so nothing is queued
      have hawake := hs hq .wait (List.mem_of_getElem? at_i)
      cases hawake
  | finish => exact hs.put rfl
  | release => exact hs.put rfl
  | spurious => exact hs.put rfl
  | manage | destruct | join | shrink | shut => exact hs
  | grow q l b pc free test =>
      obtain ⟨k, hk⟩ := grow_grown size s
      intro hq w hw
      simp only [hk.workers, List.mem_append, List.mem_replicate] at hw
      rcases hw with hw | ⟨-, rfl⟩
      · exact hs (hk.taskQ ▸ hq) w hw
      · rfl
  | notify => exact hs.notifyAll
  | wakeAll => exact hs.notifyAll

end Attentive

/-- Before shutdown, while a task is queued, no worker is blocked in `cond.wait`, and there is a
worker that has not exited. -/
theorem no_stranded_task (h : PoolReachable size s) (hopen : s.shutdown = false)
    (hq : s.taskQ ≠ []) :
    (∀ w ∈ s.workers, w.isBlocked = false) ∧ ∃ w ∈ s.workers, w.alive := by
  have hattentive : Attentive s := by
    refine h.invariant ?_ fun s e s' hs hs' => hs.step hs'
    rintro s₀ rfl hq
    exact absurd rfl hq
  refine ⟨fun w hw => WorkerPc.isBlocked_of_asleep (hattentive hq w hw), ?_⟩
  have hs : Counters size s := PoolReachable.counters h hopen
  have hpos : 0 < s.workers.countP WorkerPc.alive := by
    have hlive := hs.live
    have hmin := hs.min_le
    have hone := size.one_le
    omega
  exact List.countP_pos_iff.mp hpos

/-- A task is added while the only worker is blocked. -/
theorem no_stranded_task_add :
    ∃ s : PoolState ℕ, run (PoolState.step mqSize) (PoolState.init mqSize)
        [.thread (.worker 0), .thread (.worker 0), .add 0] = some s ∧
      (∀ w ∈ s.workers, w.isBlocked = false) ∧ ∃ w ∈ s.workers, w.alive := by
  have hrun : (run (PoolState.step mqSize) (PoolState.init mqSize)
      [.thread (.worker 0), .thread (.worker 0), .add 0]).map
        (fun s => (s.shutdown, s.taskQ)) = some (false, [0]) := by decide
  obtain ⟨s, hs, hopen⟩ := Option.map_eq_some_iff.mp hrun
  obtain ⟨hshutdown, hq⟩ := Prod.mk.inj hopen
  exact ⟨s, hs, no_stranded_task ⟨_, _, rfl, hs⟩ hshutdown (by simp [hq])⟩

/-! ## The order of tasks -/

/-- The tasks that were added, in this order: those that were started and those that are queued. -/
def PoolState.tasks (s : PoolState τ) : List τ := s.started ++ s.taskQ

/-- A step of a thread neither loses a task nor repeats one nor changes the order. -/
theorem tasks_thread {t : ThreadEvent} (h : s.step size (.thread t) = some s') :
    s'.tasks = s.tasks ∧ s'.shutdown = s.shutdown := by
  cases PoolState.step_transition h with
  | close i w s₁ at_i free ready | wait i w s₁ at_i free ready => cases ready <;> exact ⟨rfl, rfl⟩
  | take i w s₁ task q at_i free ready opened queue =>
      have hshutdown : s₁.shutdown = s.shutdown := by cases ready <;> rfl
      exact ⟨by simp [PoolState.tasks, queue], hshutdown⟩
  | leave | block | finish | release | spurious | manage | shrink | notify => exact ⟨rfl, rfl⟩
  | grow =>
      obtain ⟨k, hk⟩ := grow_grown size s
      exact ⟨by simp [PoolState.tasks, hk.started, hk.taskQ], hk.shutdown⟩

/-- `Add` appends the task, unless the pool is shut down. -/
theorem tasks_add {task : τ} (hopen : s.shutdown = false)
    (h : s.step size (.add task) = some s') :
    s'.tasks = s.tasks ++ [task] ∧ s'.shutdown = false := by
  cases PoolState.step_transition h with
  | reject task free closed => exact absurd hopen (by simp [closed])
  | add => exact ⟨by simp [PoolState.tasks, PoolState.notifyAll], hopen⟩

/-! ## Running tasks -/

/-- The task that the worker is about to call. -/
def WorkerPc.task : WorkerPc τ → Option τ
  | .run task => some task
  | .lock | .wait | .blocked | .woken | .finish | .exited => none

/-- Waking a worker does not change its task. -/
@[simp] theorem task_wake (w : WorkerPc τ) : w.wake.task = w.task := by cases w <;> rfl

/-- Only a worker that is about to call a task has one. -/
theorem WorkerPc.eq_run_of_task {w : WorkerPc τ} {task : τ} (h : w.task = some task) :
    w = .run task := by
  cases w with
  | run task' => exact congrArg WorkerPc.run (Option.some.inj h)
  | lock | wait | blocked | woken | finish | exited => cases h

/-- The task that worker `i` is about to call. -/
def PoolState.running (s : PoolState τ) (i : ℕ) : Option τ := s.workers[i]?.bind WorkerPc.task

/-- No task runs at first. -/
theorem running_init (size : PoolSize) :
    (PoolState.init size : PoolState τ).running = fun _ => none := by
  funext j
  simp only [PoolState.running, PoolState.init, List.getElem?_replicate]
  split <;> rfl

/-- A step of worker `i` changes the task of worker `i` only. -/
theorem running_put {i : ℕ} {w : WorkerPc τ} (at_i : s.workers[i]? = some w) (w' : WorkerPc τ) :
    (s.put i w').running = Function.update s.running i w'.task := by
  funext j
  unfold PoolState.running PoolState.put
  by_cases hj : j = i
  · subst hj
    rw [lookup_set_self at_i, Function.update_self, Option.bind_some]
  · rw [lookup_set_of_ne hj, Function.update_of_ne hj]

/-- A notification gives nobody a task. -/
theorem running_notifyAll : s.notifyAll.running = s.running := by
  funext j
  simp [PoolState.running, PoolState.notifyAll, Option.bind_map]

/-- A worker with a task calls it. -/
theorem step_of_running (size : PoolSize) {i : ℕ} {task : τ} (h : s.running i = some task) :
    s.step size (.thread (.worker i)) = some (s.put i .finish) ∧
      (s.put i .finish).running = Function.update s.running i none := by
  obtain ⟨w, at_i, htask⟩ := Option.bind_eq_some_iff.mp h
  obtain rfl := WorkerPc.eq_run_of_task htask
  refine ⟨?_, running_put at_i .finish⟩
  rw [PoolState.step, at_i, Option.bind_some, workerStep]

/-- A step between program points without a task. -/
theorem running_put_idle {i : ℕ} {w w' : WorkerPc τ} (at_i : s.workers[i]? = some w)
    (hw : w.task = none) (hw' : w'.task = none) : (s.put i w').running = s.running := by
  have hnone : s.running i = none := by rw [PoolState.running, at_i, Option.bind_some, hw]
  rw [running_put at_i, hw', ← hnone, Function.update_eq_self]

/-- What a step does to the started and the running tasks: nothing, or one task is started, or one
is called. -/
theorem running_step (h : s.step size e = some s') :
    (s'.started = s.started ∧ s'.running = s.running) ∨
    (∃ i task q, s.taskQ = task :: q ∧ s.running i = none ∧ s'.started = s.started ++ [task] ∧
      s'.running = Function.update s.running i (some task)) ∨
    (∃ i task, e = .thread (.worker i) ∧ s.running i = some task ∧ s'.started = s.started ∧
      s'.running = Function.update s.running i none) := by
  cases PoolState.step_transition h with
  | reject | manage | shrink | shut | destruct | join => exact .inl ⟨rfl, rfl⟩
  | add | notify | wakeAll => exact .inl ⟨rfl, running_notifyAll⟩
  | close i w s₁ at_i free ready =>
      cases ready <;> exact .inl ⟨rfl, running_put_idle at_i rfl rfl⟩
  | wait i w s₁ at_i free ready =>
      cases ready <;> exact .inl ⟨rfl, running_put_idle at_i rfl rfl⟩
  | take i w s₁ task q at_i free ready opened queue =>
      refine .inr (.inl ⟨i, task, q, queue, ?_, rfl, ?_⟩)
      · rw [PoolState.running, at_i, Option.bind_some]
        cases ready <;> rfl
      · cases ready <;> exact running_put at_i (.run task)
  | leave i at_i => exact .inl ⟨rfl, running_put_idle at_i rfl rfl⟩
  | block i at_i => exact .inl ⟨rfl, running_put_idle at_i rfl rfl⟩
  | finish i task at_i =>
      refine .inr (.inr ⟨i, task, rfl, ?_, rfl, running_put at_i .finish⟩)
      rw [PoolState.running, at_i, Option.bind_some, WorkerPc.task]
  | release i at_i => exact .inl ⟨rfl, running_put_idle at_i rfl rfl⟩
  | spurious i at_i => exact .inl ⟨rfl, running_put_idle at_i rfl rfl⟩
  | grow =>
      obtain ⟨k, hk⟩ := grow_grown size s
      refine .inl ⟨hk.started, ?_⟩
      funext j
      unfold PoolState.running
      simp only [hk.workers, List.getElem?_append]
      split
      · rfl
      next hj =>
        have hnone : s.workers[j]? = none := List.getElem?_eq_none_iff.mpr (not_lt.mp hj)
        rw [hnone, Option.bind_none, List.getElem?_replicate]
        split <;> rfl

end CsiFirmware.Common
