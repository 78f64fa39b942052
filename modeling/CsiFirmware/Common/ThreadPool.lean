import CsiFirmware.Lib.Runs
import CsiFirmware.Lib.Threads
import Mathlib.Algebra.Order.Ring.Int
import Mathlib.Tactic.Common

/-!
# The thread pool

Reference: `ThreadPool`.

Workers take tasks from `taskQ` and wait on `cond` when there is none. A manager thread looks at the
counters in regular rounds. It starts up to two workers when the queue is longer than the pool, and
asks two workers to leave when most of them are idle.

Everything between a lock and the next unlock of `mutexPool` is one step, except that a worker which
found the queue empty holds the mutex for one more step before it is inside `cond.wait`: the
destructor sets `shutdown` and notifies without the mutex. Tasks do not throw.
-/

namespace CsiFirmware.Common

open Runs Threads

variable {τ : Type*}

/-! ## The threads -/

/-- The bounds that a pool is constructed with. -/
structure PoolSize where
  minNum : ℕ
  maxNum : ℕ
  one_le : 1 ≤ minNum
  min_le_max : minNum ≤ maxNum

/-- `NUMBER`, the number of workers that a round of the manager starts or stops. -/
def number : ℕ := 2

/-- The next step of a worker. -/
inductive WorkerPc (τ : Type*) where
  /-- The lock of `mutexPool` at the head of the loop, and the test of the queue. -/
  | lock
  /-- The queue was found empty, and the mutex is held. A notification is lost here. -/
  | wait
  /-- Inside `cond.wait`. -/
  | blocked
  /-- Woken: the lock of `mutexPool`, the test of `exitNum`, and the test of the queue. -/
  | woken
  /-- The call of the task. -/
  | run (task : τ)
  /-- `busyNum--`. -/
  | finish
  | exited
deriving DecidableEq

namespace WorkerPc

/-- The worker holds `mutexPool` between two steps. -/
def holdsMutex : WorkerPc τ → Bool
  | .wait => true
  | .lock | .blocked | .woken | .run _ | .finish | .exited => false

/-- The worker has not exited. -/
def alive : WorkerPc τ → Bool
  | .lock | .wait | .blocked | .woken | .run _ | .finish => true
  | .exited => false

/-- The worker has taken a task and has not reached the decrement after it. -/
def busy : WorkerPc τ → Bool
  | .run _ | .finish => true
  | .lock | .wait | .blocked | .woken | .exited => false

/-- The worker is inside `cond.wait`. -/
def isBlocked : WorkerPc τ → Bool
  | .blocked => true
  | .lock | .wait | .woken | .run _ | .finish | .exited => false

/-- What `notify_all` does to a worker. -/
def wake : WorkerPc τ → WorkerPc τ
  | .blocked => .woken
  | w => w

@[simp] theorem alive_wake (w : WorkerPc τ) : w.wake.alive = w.alive := by cases w <;> rfl
@[simp] theorem busy_wake (w : WorkerPc τ) : w.wake.busy = w.busy := by cases w <;> rfl
@[simp] theorem isBlocked_wake (w : WorkerPc τ) : w.wake.isBlocked = false := by cases w <;> rfl
@[simp] theorem holdsMutex_wake (w : WorkerPc τ) : w.wake.holdsMutex = w.holdsMutex := by
  cases w <;> rfl

end WorkerPc

/-- The next step of the manager. The values read under the lock are carried along. -/
inductive ManagerPc where
  /-- `!pool->shutdown`. -/
  | loop
  /-- The end of the sleep, and the read of the three counters. -/
  | snapshot
  /-- The test whether workers are to be added, and the loop that adds them. -/
  | grow (queuesize livenum busynum : Int)
  /-- The test whether workers are to leave, and `exitNum = NUMBER`. -/
  | shrink (livenum busynum : Int)
  /-- So many `cond.notify_all()` are left. -/
  | notify (n : ℕ)
  | finished
deriving DecidableEq

/-- The next step of `~ThreadPool`. -/
inductive DestructorPc where
  | notCalled
  | joinManager
  | notify
  /-- The join of the thread in slot `i`. -/
  | join (i : ℕ)
  | done
deriving DecidableEq

/-- The members of `ThreadPool`, the threads, and the tasks that were started so far. -/
structure PoolState (τ : Type*) where
  taskQ : List τ
  /-- The worker that a slot of `threadIDs` refers to; none if its id is `thread::id()`. -/
  threadIDs : List (Option ℕ)
  busyNum : Int
  liveNum : Int
  exitNum : Int
  shutdown : Bool
  /-- In the order in which they were started. -/
  workers : List (WorkerPc τ)
  manager : ManagerPc
  destructor : DestructorPc
  started : List τ
deriving DecidableEq

/-- The constructor has returned. The threads it started have not taken a step yet; what they do
before it returns they could do afterwards, since it does not read what they write. -/
def PoolState.init (size : PoolSize) : PoolState τ :=
  { taskQ := []
    threadIDs := (List.range size.minNum).map some ++
      List.replicate (size.maxNum - size.minNum) none
    busyNum := 0
    liveNum := size.minNum
    exitNum := 0
    shutdown := false
    workers := List.replicate size.minNum .lock
    manager := .loop
    destructor := .notCalled
    started := [] }

namespace PoolState

/-- No worker holds the mutex. Whoever else takes it releases it within the step. -/
def mutexFree (s : PoolState τ) : Prop := ∀ w ∈ s.workers, w.holdsMutex = false

instance (s : PoolState τ) : Decidable s.mutexFree :=
  inferInstanceAs (Decidable (∀ w ∈ s.workers, w.holdsMutex = false))

/-- Worker `i` becomes `w`. -/
def put (s : PoolState τ) (i : ℕ) (w : WorkerPc τ) : PoolState τ :=
  { s with workers := s.workers.set i w }

/-- `cond.notify_all()`. -/
def notifyAll (s : PoolState τ) : PoolState τ :=
  { s with workers := s.workers.map WorkerPc.wake }

/-- The number of slots of `threadIDs` whose id is `thread::id()`. -/
def freeSlots (s : PoolState τ) : ℕ := s.threadIDs.countP Option.isNone

end PoolState

/-! ## Steps -/

variable (size : PoolSize)

/-- The tests of the queue and of `shutdown` under the mutex, and what follows them. -/
def takeOrWait (s : PoolState τ) (i : ℕ) : PoolState τ :=
  if s.shutdown then s.put i .exited
  else
    match s.taskQ with
    | [] => s.put i .wait
    | task :: q =>
        { s.put i (.run task) with
          taskQ := q
          busyNum := s.busyNum + 1
          started := s.started ++ [task] }

/-- A step of worker `i`, which is at `w`. -/
def workerStep (s : PoolState τ) (i : ℕ) (w : WorkerPc τ) : Option (PoolState τ) :=
  match w with
  | .lock => if s.mutexFree then some (takeOrWait s i) else none
  | .wait => some (s.put i .blocked)
  | .blocked => none
  | .woken =>
      if s.mutexFree then
        if 0 < s.exitNum then
          if size.minNum < s.liveNum then
            some { s.put i .exited with exitNum := s.exitNum - 1, liveNum := s.liveNum - 1 }
          else some (takeOrWait { s with exitNum := s.exitNum - 1 } i)
        else some (takeOrWait s i)
      else none
  | .run _ => some (s.put i .finish)
  | .finish => if s.mutexFree then some { s.put i .lock with busyNum := s.busyNum - 1 } else none
  | .exited => none

/-- One pass of the loop that adds workers, with its `count`. A pass after the loop has ended
changes nothing, since `count` and `liveNum` only grow. -/
def growSlot (p : PoolState τ × ℕ) (i : ℕ) : PoolState τ × ℕ :=
  if p.2 < number ∧ p.1.liveNum < size.maxNum ∧ p.1.threadIDs[i]? = some none then
    ({ p.1 with
        threadIDs := p.1.threadIDs.set i (some p.1.workers.length)
        workers := p.1.workers ++ [.lock]
        liveNum := p.1.liveNum + 1 }, p.2 + 1)
  else p

/-- The loop that adds workers. -/
def grow (s : PoolState τ) : PoolState τ :=
  ((List.range size.maxNum).foldl (growSlot size) (s, 0)).1

/-- A step of the manager. -/
def managerStep (s : PoolState τ) : Option (PoolState τ) :=
  match s.manager with
  | .loop => some { s with manager := if s.shutdown then .finished else .snapshot }
  | .snapshot =>
      if s.mutexFree then
        some { s with manager := .grow s.taskQ.length s.liveNum s.busyNum }
      else none
  | .grow queuesize livenum busynum =>
      if livenum < queuesize ∧ livenum < size.maxNum then
        if s.mutexFree then some { grow size s with manager := .shrink livenum busynum } else none
      else some { s with manager := .shrink livenum busynum }
  | .shrink livenum busynum =>
      if busynum * 2 < livenum ∧ size.minNum < livenum then
        if s.mutexFree then some { s with exitNum := number, manager := .notify number } else none
      else some { s with manager := .loop }
  | .notify 0 => some { s with manager := .loop }
  | .notify (n + 1) => some { s.notifyAll with manager := .notify n }
  | .finished => none

/-- A step of the destructor. -/
def destructorStep (s : PoolState τ) : Option (PoolState τ) :=
  match s.destructor with
  | .notCalled => some { s with shutdown := true, destructor := .joinManager }
  | .joinManager =>
      if s.manager = .finished then some { s with destructor := .notify } else none
  | .notify => some { s.notifyAll with destructor := .join 0 }
  | .join i =>
      if i < size.maxNum then
        match s.threadIDs[i]? with
        | some (some k) =>
            -- `join` waits for the thread, and leaves the id `thread::id()`
            if (s.workers[k]?.map WorkerPc.alive).getD false then none
            else some { s with threadIDs := s.threadIDs.set i none, destructor := .join (i + 1) }
        | _ => some { s with destructor := .join (i + 1) }
      else some { s with destructor := .done }
  | .done => none

/-- What the threads of a pool can do next. -/
inductive ThreadEvent where
  | worker (i : ℕ)
  /-- A spurious wake-up of a worker. -/
  | spurious (i : ℕ)
  | manager
deriving DecidableEq

/-- What can happen next. -/
inductive PoolEvent (τ : Type*) where
  /-- A call of `Add`. -/
  | add (task : τ)
  | thread (t : ThreadEvent)
  | destructor
deriving DecidableEq

/-- A call of `Add` waits for the mutex, and adds nothing once the pool is shut down. -/
def PoolState.step (s : PoolState τ) : PoolEvent τ → Option (PoolState τ)
  | .add task =>
      if s.mutexFree then
        if s.shutdown then some s else some { s with taskQ := s.taskQ ++ [task] }.notifyAll
      else none
  | .thread (.worker i) => s.workers[i]?.bind (workerStep size s i)
  | .thread (.spurious i) =>
      s.workers[i]?.bind fun w => if w.isBlocked then some (s.put i .woken) else none
  | .thread .manager => managerStep size s
  | .destructor => destructorStep size s

/-! ## What a step can do -/

/-- Worker `i`, which is at `w`, is about to test the queue under the mutex in the state `s₁`. -/
inductive Ready (s : PoolState τ) : WorkerPc τ → PoolState τ → Prop where
  | lock : Ready s .lock s
  | woken (exitNum : ¬ 0 < s.exitNum) : Ready s .woken s
  | keep (exitNum : 0 < s.exitNum) (liveNum : ¬ size.minNum < s.liveNum) :
      Ready s .woken { s with exitNum := s.exitNum - 1 }

/-- The steps of the manager that change nothing but its program counter. -/
inductive ManagerMove (s : PoolState τ) : ManagerPc → Prop where
  | stop (pc : s.manager = .loop) (closed : s.shutdown = true) : ManagerMove s .finished
  | round (pc : s.manager = .loop) (opened : s.shutdown = false) : ManagerMove s .snapshot
  | snapshot (pc : s.manager = .snapshot) (free : s.mutexFree) :
      ManagerMove s (.grow s.taskQ.length s.liveNum s.busyNum)
  | keepSize (q l b : Int) (pc : s.manager = .grow q l b) (test : ¬ (l < q ∧ l < size.maxNum)) :
      ManagerMove s (.shrink l b)
  | keepWorkers (l b : Int) (pc : s.manager = .shrink l b)
      (test : ¬ (b * 2 < l ∧ size.minNum < l)) : ManagerMove s .loop
  | again (pc : s.manager = .notify 0) : ManagerMove s .loop

/-- The steps of the destructor that change nothing but its program counter. -/
inductive DestructorMove (s : PoolState τ) : DestructorPc → Prop where
  | joined (pc : s.destructor = .joinManager) (manager : s.manager = .finished) :
      DestructorMove s .notify
  | skip (i : ℕ) (pc : s.destructor = .join i) (lt : i < size.maxNum)
      (slot : ∀ k, s.threadIDs[i]? ≠ some (some k)) : DestructorMove s (.join (i + 1))
  | done (i : ℕ) (pc : s.destructor = .join i) (le : ¬ i < size.maxNum) : DestructorMove s .done

/-- All that a step can do. -/
inductive PoolTransition (s : PoolState τ) : PoolEvent τ → PoolState τ → Prop where
  | reject (task : τ) (free : s.mutexFree) (closed : s.shutdown = true) :
      PoolTransition s (.add task) s
  | add (task : τ) (free : s.mutexFree) (opened : s.shutdown = false) :
      PoolTransition s (.add task) { s with taskQ := s.taskQ ++ [task] }.notifyAll
  | close (i : ℕ) (w : WorkerPc τ) (s₁ : PoolState τ) (at_i : s.workers[i]? = some w)
      (free : s.mutexFree) (ready : Ready size s w s₁) (closed : s.shutdown = true) :
      PoolTransition s (.thread (.worker i)) (s₁.put i .exited)
  | wait (i : ℕ) (w : WorkerPc τ) (s₁ : PoolState τ) (at_i : s.workers[i]? = some w)
      (free : s.mutexFree) (ready : Ready size s w s₁) (opened : s.shutdown = false)
      (queue : s.taskQ = []) : PoolTransition s (.thread (.worker i)) (s₁.put i .wait)
  | take (i : ℕ) (w : WorkerPc τ) (s₁ : PoolState τ) (task : τ) (q : List τ)
      (at_i : s.workers[i]? = some w) (free : s.mutexFree) (ready : Ready size s w s₁)
      (opened : s.shutdown = false) (queue : s.taskQ = task :: q) :
      PoolTransition s (.thread (.worker i)) { s₁.put i (.run task) with
        taskQ := q
        busyNum := s.busyNum + 1
        started := s.started ++ [task] }
  | leave (i : ℕ) (at_i : s.workers[i]? = some .woken) (free : s.mutexFree)
      (exitNum : 0 < s.exitNum) (liveNum : size.minNum < s.liveNum) :
      PoolTransition s (.thread (.worker i))
        { s.put i .exited with exitNum := s.exitNum - 1, liveNum := s.liveNum - 1 }
  | block (i : ℕ) (at_i : s.workers[i]? = some .wait) :
      PoolTransition s (.thread (.worker i)) (s.put i .blocked)
  | finish (i : ℕ) (task : τ) (at_i : s.workers[i]? = some (.run task)) :
      PoolTransition s (.thread (.worker i)) (s.put i .finish)
  | release (i : ℕ) (at_i : s.workers[i]? = some .finish) (free : s.mutexFree) :
      PoolTransition s (.thread (.worker i)) { s.put i .lock with busyNum := s.busyNum - 1 }
  | spurious (i : ℕ) (at_i : s.workers[i]? = some .blocked) :
      PoolTransition s (.thread (.spurious i)) (s.put i .woken)
  | manage (pc : ManagerPc) (move : ManagerMove size s pc) :
      PoolTransition s (.thread .manager) { s with manager := pc }
  | grow (q l b : Int) (pc : s.manager = .grow q l b) (free : s.mutexFree)
      (test : l < q ∧ l < size.maxNum) :
      PoolTransition s (.thread .manager) { grow size s with manager := .shrink l b }
  | shrink (l b : Int) (pc : s.manager = .shrink l b) (free : s.mutexFree)
      (test : b * 2 < l ∧ size.minNum < l) :
      PoolTransition s (.thread .manager)
        { s with exitNum := number, manager := .notify number }
  | notify (n : ℕ) (pc : s.manager = .notify (n + 1)) :
      PoolTransition s (.thread .manager) { s.notifyAll with manager := .notify n }
  | shut (pc : s.destructor = .notCalled) :
      PoolTransition s .destructor { s with shutdown := true, destructor := .joinManager }
  | destruct (pc : DestructorPc) (move : DestructorMove size s pc) :
      PoolTransition s .destructor { s with destructor := pc }
  | join (i k : ℕ) (pc : s.destructor = .join i) (lt : i < size.maxNum)
      (slot : s.threadIDs[i]? = some (some k))
      (exited : (s.workers[k]?.map WorkerPc.alive).getD false = false) :
      PoolTransition s .destructor
        { s with threadIDs := s.threadIDs.set i none, destructor := .join (i + 1) }
  | wakeAll (pc : s.destructor = .notify) :
      PoolTransition s .destructor { s.notifyAll with destructor := .join 0 }

variable {size} {s s' s₁ : PoolState τ}

/-- With the mutex, a worker exits from a pool that is shut down, waits, or takes a task. -/
theorem takeOrWait_transition {i : ℕ} {w : WorkerPc τ} (at_i : s.workers[i]? = some w)
    (free : s.mutexFree) (ready : Ready size s w s₁) :
    PoolTransition size s (.thread (.worker i)) (takeOrWait s₁ i) := by
  have hshutdown : s₁.shutdown = s.shutdown := by cases ready <;> rfl
  have hqueue : s₁.taskQ = s.taskQ := by cases ready <;> rfl
  have hbusy : s₁.busyNum = s.busyNum := by cases ready <;> rfl
  have hstarted : s₁.started = s.started := by cases ready <;> rfl
  unfold takeOrWait
  split
  next closed => exact .close i w s₁ at_i free ready (hshutdown ▸ closed)
  next opened =>
    have opened : s.shutdown = false := by simpa [hshutdown] using opened
    split
    next queue => exact .wait i w s₁ at_i free ready opened (hqueue ▸ queue)
    next task q queue =>
      rw [hbusy, hstarted]
      exact .take i w s₁ task q at_i free ready opened (hqueue ▸ queue)

/-- A step of a worker is one of the transitions. -/
theorem workerStep_transition {i : ℕ} {w : WorkerPc τ} (at_i : s.workers[i]? = some w)
    (hs : workerStep size s i w = some s') :
    PoolTransition size s (.thread (.worker i)) s' := by
  cases w with
  | lock =>
      obtain ⟨free, hs⟩ := Option.ite_none_right_eq_some.mp hs
      obtain rfl := Option.some.inj hs
      exact takeOrWait_transition at_i free .lock
  | wait =>
      obtain rfl := Option.some.inj hs
      exact .block i at_i
  | blocked => cases hs
  | woken =>
      obtain ⟨free, hs⟩ := Option.ite_none_right_eq_some.mp hs
      split at hs
      next exitNum =>
        split at hs
        next liveNum =>
          obtain rfl := Option.some.inj hs
          exact .leave i at_i free exitNum liveNum
        next liveNum =>
          obtain rfl := Option.some.inj hs
          exact takeOrWait_transition at_i free (.keep exitNum liveNum)
      next exitNum =>
        obtain rfl := Option.some.inj hs
        exact takeOrWait_transition at_i free (.woken exitNum)
  | run task =>
      obtain rfl := Option.some.inj hs
      exact .finish i task at_i
  | finish =>
      obtain ⟨free, hs⟩ := Option.ite_none_right_eq_some.mp hs
      obtain rfl := Option.some.inj hs
      exact .release i at_i free
  | exited => cases hs

/-- A step of the manager is one of the transitions. -/
theorem managerStep_transition (hs : managerStep size s = some s') :
    PoolTransition size s (.thread .manager) s' := by
  unfold managerStep at hs
  split at hs
  next pc =>
    obtain rfl := Option.some.inj hs
    by_cases closed : s.shutdown = true
    · rw [if_pos closed]
      exact .manage _ (.stop pc closed)
    · rw [if_neg closed]
      exact .manage _ (.round pc (by simpa using closed))
  next pc =>
    obtain ⟨free, hs⟩ := Option.ite_none_right_eq_some.mp hs
    obtain rfl := Option.some.inj hs
    exact .manage _ (.snapshot pc free)
  next q l b pc =>
    split at hs
    next test =>
      obtain ⟨free, hs⟩ := Option.ite_none_right_eq_some.mp hs
      obtain rfl := Option.some.inj hs
      exact .grow q l b pc free test
    next test =>
      obtain rfl := Option.some.inj hs
      exact .manage _ (.keepSize q l b pc test)
  next l b pc =>
    split at hs
    next test =>
      obtain ⟨free, hs⟩ := Option.ite_none_right_eq_some.mp hs
      obtain rfl := Option.some.inj hs
      exact .shrink l b pc free test
    next test =>
      obtain rfl := Option.some.inj hs
      exact .manage _ (.keepWorkers l b pc test)
  next pc =>
    obtain rfl := Option.some.inj hs
    exact .manage _ (.again pc)
  next n pc =>
    obtain rfl := Option.some.inj hs
    exact .notify n pc
  next => cases hs

/-- A step of the destructor is one of the transitions. -/
theorem destructorStep_transition (hs : destructorStep size s = some s') :
    PoolTransition size s .destructor s' := by
  unfold destructorStep at hs
  split at hs
  next pc =>
    obtain rfl := Option.some.inj hs
    exact .shut pc
  next pc =>
    obtain ⟨manager, hs⟩ := Option.ite_none_right_eq_some.mp hs
    obtain rfl := Option.some.inj hs
    exact .destruct _ (.joined pc manager)
  next pc =>
    obtain rfl := Option.some.inj hs
    exact .wakeAll pc
  next i pc =>
    split at hs
    next lt =>
      split at hs
      next k slot =>
        split at hs
        · cases hs
        next exited =>
          obtain rfl := Option.some.inj hs
          exact .join i k pc lt slot (by simpa using exited)
      next slot =>
        obtain rfl := Option.some.inj hs
        exact .destruct _ (.skip i pc lt slot)
    next le =>
      obtain rfl := Option.some.inj hs
      exact .destruct _ (.done i pc le)
  next => cases hs

/-- A defined step is one of the transitions. -/
theorem PoolState.step_transition {e : PoolEvent τ} (hs : s.step size e = some s') :
    PoolTransition size s e s' := by
  cases e with
  | add task =>
      obtain ⟨free, hs⟩ := Option.ite_none_right_eq_some.mp hs
      split at hs
      next closed =>
        obtain rfl := Option.some.inj hs
        exact .reject task free closed
      next opened =>
        obtain rfl := Option.some.inj hs
        exact .add task free (by simpa using opened)
  | thread t =>
      cases t with
      | worker i =>
          obtain ⟨w, at_i, hs⟩ := Option.bind_eq_some_iff.mp hs
          exact workerStep_transition at_i hs
      | spurious i =>
          obtain ⟨w, at_i, hs⟩ := Option.bind_eq_some_iff.mp hs
          obtain ⟨hblocked, hs⟩ := Option.ite_none_right_eq_some.mp hs
          obtain rfl := Option.some.inj hs
          cases w with
          | blocked => exact .spurious i at_i
          | lock | wait | woken | run | finish | exited => cases hblocked
      | manager => exact managerStep_transition hs
  | destructor => exact destructorStep_transition hs

/-! ## Growth -/

/-- `s'` is `s` with `k` more workers, each in a slot of its own. -/
structure Grown (size : PoolSize) (s s' : PoolState τ) (k : ℕ) : Prop where
  frame : s' = { s with
    threadIDs := s'.threadIDs, workers := s'.workers, liveNum := s'.liveNum }
  workers : s'.workers = s.workers ++ List.replicate k .lock
  liveNum : s'.liveNum = s.liveNum + k
  bound : s.liveNum ≤ size.maxNum → s'.liveNum ≤ size.maxNum
  freeSlots : s'.freeSlots + k = s.freeSlots
  length : s'.threadIDs.length = s.threadIDs.length

section Frame

variable {k : ℕ} (h : Grown size s s' k)
include h

theorem Grown.taskQ : s'.taskQ = s.taskQ := by rw [h.frame]
theorem Grown.busyNum : s'.busyNum = s.busyNum := by rw [h.frame]
theorem Grown.exitNum : s'.exitNum = s.exitNum := by rw [h.frame]
theorem Grown.shutdown : s'.shutdown = s.shutdown := by rw [h.frame]
theorem Grown.destructor : s'.destructor = s.destructor := by rw [h.frame]
theorem Grown.started : s'.started = s.started := by rw [h.frame]

end Frame

/-- No worker has been added. -/
theorem Grown.refl (s : PoolState τ) : Grown size s s 0 := by
  constructor <;> simp

/-- Growth adds up. -/
theorem Grown.trans {s'' : PoolState τ} {k k' : ℕ} (h : Grown size s s' k)
    (h' : Grown size s' s'' k') : Grown size s s'' (k + k') where
  frame := by
    conv_lhs => rw [h'.frame, h.frame]
  workers := by
    rw [h'.workers, h.workers, List.append_assoc, List.replicate_append_replicate]
  liveNum := by
    rw [h'.liveNum, h.liveNum]
    omega
  bound hle := h'.bound (h.bound hle)
  freeSlots := by
    have h₁ := h.freeSlots
    have h₂ := h'.freeSlots
    omega
  length := h'.length.trans h.length

/-- A worker is started in a free slot while there are fewer than `maxNum`. -/
theorem grown_slot {i : ℕ} (hlt : s.liveNum < size.maxNum) (slot : s.threadIDs[i]? = some none) :
    Grown size s { s with
      threadIDs := s.threadIDs.set i (some s.workers.length)
      workers := s.workers ++ [.lock]
      liveNum := s.liveNum + 1 } 1 where
  frame := rfl
  workers := rfl
  liveNum := rfl
  bound _ := hlt
  freeSlots := by
    have hcount := countP_set_add (a := some s.workers.length) Option.isNone slot
    simpa [PoolState.freeSlots] using hcount
  length := List.length_set

/-- The loop starts some workers, and at least one if it comes past a free slot. -/
theorem foldl_growSlot (size : PoolSize) (l : List ℕ) (s : PoolState τ) (count : ℕ) :
    ∃ k, Grown size s (l.foldl (growSlot size) (s, count)).1 k ∧
      ((∃ i ∈ l, s.threadIDs[i]? = some none) → count < number → s.liveNum < size.maxNum →
        1 ≤ k) := by
  induction l generalizing s count with
  | nil => exact ⟨0, Grown.refl s, by simp⟩
  | cons i l ih =>
      rw [List.foldl_cons, growSlot]
      split
      next test =>
        obtain ⟨-, hlt, slot⟩ := test
        obtain ⟨k, hk, -⟩ := ih { s with
          threadIDs := s.threadIDs.set i (some s.workers.length)
          workers := s.workers ++ [.lock]
          liveNum := s.liveNum + 1 } (count + 1)
        exact ⟨1 + k, (grown_slot hlt slot).trans hk, fun _ _ _ => by omega⟩
      next test =>
        obtain ⟨k, hk, hpos⟩ := ih s count
        refine ⟨k, hk, ?_⟩
        rintro ⟨j, hj, slot⟩ hcount hlt
        rcases List.mem_cons.mp hj with rfl | hj
        · exact absurd ⟨hcount, hlt, slot⟩ test
        · exact hpos ⟨j, hj, slot⟩ hcount hlt

/-- The loop of the manager adds some workers and changes nothing else. -/
theorem grow_grown (size : PoolSize) (s : PoolState τ) : ∃ k, Grown size s (grow size s) k := by
  obtain ⟨k, hk, -⟩ := foldl_growSlot size (List.range size.maxNum) s 0
  exact ⟨k, hk⟩

/-- With a free slot and fewer than `maxNum` workers, at least one is started. -/
theorem workers_lt_grow (hlength : s.threadIDs.length = size.maxNum) (hfree : 0 < s.freeSlots)
    (hlt : s.liveNum < size.maxNum) : s.workers.length < (grow size s).workers.length := by
  obtain ⟨k, hk, hpos⟩ := foldl_growSlot size (List.range size.maxNum) s 0
  have hslot : ∃ i ∈ List.range size.maxNum, s.threadIDs[i]? = some none := by
    obtain ⟨o, ho, hnone⟩ := List.countP_pos_iff.mp hfree
    obtain ⟨i, at_i⟩ := List.mem_iff_getElem?.mp ho
    obtain ⟨hi, -⟩ := List.getElem?_eq_some_iff.mp at_i
    obtain rfl : o = none := by simpa using hnone
    exact ⟨i, List.mem_range.mpr (hlength ▸ hi), at_i⟩
  have hk1 : 1 ≤ k := hpos hslot (by decide) hlt
  have hworkers : (grow size s).workers = s.workers ++ List.replicate k .lock := hk.workers
  rw [hworkers, List.length_append, List.length_replicate]
  omega

end CsiFirmware.Common
