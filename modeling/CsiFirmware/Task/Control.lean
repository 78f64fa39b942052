import CsiFirmware.Lib.Runs
import Mathlib.Tactic.Common

/-!
# Starting, pausing and ending a task

Reference: `start`, `pause`, `resume`, `stop`, the destructor and the worker thread of `TaskHttp`;
`TaskSerial` and `TaskWebSocket` have the same code around another body, and `TaskWebSocket` has no
critical section in its destructor.

The worker tests `taskstate` without `handle_mutex` and waits on `handle_cv` without a condition.
Whatever wakes it, it then writes `taskState::start` itself. Each call takes `handle_mutex` once,
and so does the worker up to its wait and after it, so these sections are single steps.
-/

namespace CsiFirmware.Task

open Runs

/-- `taskState`. -/
inductive TaskState where
  | ready
  | start
  | stop
  | cancel
deriving DecidableEq

/-- The calls of `TaskAbstract`. -/
inductive Command where
  | start
  | pause
  | resume
  | stop
deriving DecidableEq

/-- The next step of the worker. -/
inductive ControlPc where
  /-- `while (taskinfo.taskstate != taskState::start)`. -/
  | test
  /-- The state was not `start`: the lock of `handle_mutex` and the entry into `handle_cv.wait`,
  which is left out when `isStopThread` is set. A notification is lost here. -/
  | lock
  /-- Inside `handle_cv.wait`. -/
  | blocked
  /-- Woken: the lock of `handle_mutex` and what follows the wait. -/
  | woken
  /-- The state was `start`: the body begins. -/
  | enter
  /-- Inside the body. -/
  | body
  /-- The thread has returned. -/
  | done
deriving DecidableEq

/-- What `notify_all`, or a spurious wake-up, does to the worker. -/
def ControlPc.wake : ControlPc → ControlPc
  | .blocked => .woken
  | pc => pc

/-- A notification ends the wait. -/
theorem ControlPc.wake_ne_blocked (pc : ControlPc) : pc.wake ≠ .blocked := by
  cases pc <;> simp [wake]

/-- A notification concerns only a worker that waits. -/
theorem ControlPc.wake_eq_self {pc : ControlPc} (h : pc ≠ .blocked) : pc.wake = pc := by
  cases pc with
  | blocked => exact absurd rfl h
  | test | lock | woken | enter | body | done => rfl

/-- The members that the worker and the calls share, the worker, and what has happened so far. -/
structure ControlState where
  taskstate : TaskState
  isStopThread : Bool
  pc : ControlPc
  /-- The completed calls, the last one first. -/
  commands : List Command
  /-- How often the body has begun. -/
  begun : ℕ
deriving DecidableEq

namespace ControlState

/-- The thread has just been created. `TaskSerial` leaves `taskstate` uninitialised. -/
def created (taskstate : TaskState) : ControlState :=
  { taskstate, isStopThread := false, pc := .test, commands := [], begun := 0 }

/-- The critical section of a call. -/
def command (s : ControlState) : Command → ControlState
  | .start => { s with taskstate := .start, pc := s.pc.wake, commands := .start :: s.commands }
  | .pause => { s with taskstate := .stop, commands := .pause :: s.commands }
  | .resume =>
      { s with
        taskstate := if s.taskstate ≠ .cancel then .start else s.taskstate
        pc := s.pc.wake
        commands := .resume :: s.commands }
  | .stop => { s with taskstate := .cancel, commands := .stop :: s.commands }

/-- The critical section of the destructor. -/
def destruct (s : ControlState) : ControlState :=
  { s with isStopThread := true, taskstate := .cancel, pc := s.pc.wake }

/-- A step of the worker. -/
def workerStep (s : ControlState) : Option ControlState :=
  match s.pc with
  | .test => some { s with pc := if s.taskstate ≠ .start then .lock else .enter }
  | .lock => some { s with pc := if s.isStopThread then .done else .blocked }
  | .blocked => none
  | .woken =>
      if s.isStopThread then some { s with pc := .done }
      else some { s with taskstate := .start, pc := .test }
  | .enter => some { s with pc := .body, begun := s.begun + 1 }
  | .body => some { s with pc := .test }
  | .done => none

end ControlState

/-- What can happen next. -/
inductive ControlEvent where
  | worker
  /-- A spurious wake-up of the worker. -/
  | spurious
  | command (c : Command)
  | destruct
deriving DecidableEq

/-- The event belongs to the worker and is no call. -/
def ControlEvent.own : ControlEvent → Bool
  | .worker | .spurious => true
  | .command _ | .destruct => false

namespace ControlState

/-- A step of the worker, or a call. -/
def step (s : ControlState) : ControlEvent → Option ControlState
  | .worker => s.workerStep
  | .spurious => some { s with pc := s.pc.wake }
  | .command c => some (s.command c)
  | .destruct => some s.destruct

/-- All that the worker can do. -/
inductive WorkerTransition (s : ControlState) : ControlState → Prop where
  | skip (pc : s.pc = .test) (other : s.taskstate ≠ .start) :
      WorkerTransition s { s with pc := .lock }
  | find (pc : s.pc = .test) (start : s.taskstate = .start) :
      WorkerTransition s { s with pc := .enter }
  | wait (pc : s.pc = .lock) (go : s.isStopThread = false) :
      WorkerTransition s { s with pc := .blocked }
  | restart (pc : s.pc = .woken) (go : s.isStopThread = false) :
      WorkerTransition s { s with taskstate := .start, pc := .test }
  | exit (pc : s.pc = .lock ∨ s.pc = .woken) (stop : s.isStopThread = true) :
      WorkerTransition s { s with pc := .done }
  | enter (pc : s.pc = .enter) :
      WorkerTransition s { s with pc := .body, begun := s.begun + 1 }
  | leave (pc : s.pc = .body) : WorkerTransition s { s with pc := .test }

variable {s s' : ControlState} {e : ControlEvent}

/-- The steps of the worker. -/
theorem workerStep_transition (hs : s.workerStep = some s') : WorkerTransition s s' := by
  unfold workerStep at hs
  split at hs
  next pc =>
    split at hs
    next other =>
      obtain rfl := Option.some.inj hs
      exact .skip pc other
    next start =>
      obtain rfl := Option.some.inj hs
      exact .find pc (not_not.mp start)
  next pc =>
    split_ifs at hs with hstop
    · obtain rfl := Option.some.inj hs
      exact .exit (.inl pc) hstop
    · obtain rfl := Option.some.inj hs
      exact .wait pc (Bool.of_not_eq_true hstop)
  next => cases hs
  next pc =>
    split_ifs at hs with hstop
    · obtain rfl := Option.some.inj hs
      exact .exit (.inr pc) hstop
    · obtain rfl := Option.some.inj hs
      exact .restart pc (Bool.of_not_eq_true hstop)
  next pc =>
    obtain rfl := Option.some.inj hs
    exact .enter pc
  next pc =>
    obtain rfl := Option.some.inj hs
    exact .leave pc
  next => cases hs

/-! ## The last command -/

/-- The latest `start` or `stop` is a `stop`. -/
def stopped : List Command → Bool
  | [] => false
  | .start :: _ => false
  | .stop :: _ => true
  | .pause :: earlier | .resume :: earlier => stopped earlier

/-- The commanded state is running. The calls are listed with the last one first. -/
def commanded : List Command → Bool
  | [] => false
  | .start :: _ => true
  | .pause :: _ | .stop :: _ => false
  | .resume :: earlier => !stopped earlier

/-- If the test of the worker finds `start`, the commanded state is running. -/
def BeginsAsCommanded (s : ControlState) : ControlEvent → Prop
  | .worker => s.pc = .test → s.taskstate = .start → commanded s.commands = true
  | _ => True

/-- A woken worker goes on only if the commanded state is running, and `resume` finds `cancel` if
the latest `start` or `stop` was a `stop`. -/
def ObeysCommands (s : ControlState) : ControlEvent → Prop
  | .worker => s.pc = .woken → s.isStopThread = false → commanded s.commands = true
  | .command .resume => stopped s.commands = true → s.taskstate = .cancel
  | _ => True

instance (s : ControlState) : ∀ e, Decidable (s.BeginsAsCommanded e)
  | .worker => inferInstanceAs (Decidable (_ → _ → _))
  | .spurious | .command _ | .destruct => isTrue trivial

instance (s : ControlState) : ∀ e, Decidable (s.ObeysCommands e)
  | .worker => inferInstanceAs (Decidable (_ → _ → _))
  | .command .resume => inferInstanceAs (Decidable (_ → _))
  | .spurious | .command .start | .command .pause | .command .stop | .destruct => isTrue trivial

/-- `taskstate` is `start` only while the commanded state is running. -/
def Obedient (s : ControlState) : Prop := s.taskstate = .start → commanded s.commands = true

/-- Every writer of `taskstate` other than the worker and `resume` writes what is commanded. -/
theorem obedient_step_iff (hs : s.Obedient) (h : s.step e = some s') :
    s'.Obedient ↔ s.ObeysCommands e := by
  cases e with
  | worker =>
      cases workerStep_transition h with
      -- the only branch of the worker that writes `start`
      | restart pc go => simp [Obedient, ObeysCommands, pc, go]
      | skip pc | find pc | wait pc | enter pc | leave pc =>
          exact iff_of_true hs (fun woken => by simp [pc] at woken)
      | exit pc stop => exact iff_of_true hs (fun _ go => by simp [stop] at go)
  | spurious =>
      obtain rfl := Option.some.inj h
      exact iff_of_true hs trivial
  | destruct =>
      obtain rfl := Option.some.inj h
      exact iff_of_true (fun start => by simp [destruct] at start) trivial
  | command c =>
      obtain rfl := Option.some.inj h
      cases c with
      | start => exact iff_of_true (fun _ => rfl) trivial
      | pause | stop => exact iff_of_true (fun start => by simp [command] at start) trivial
      -- `resume` writes `start` whatever was commanded before, unless it finds `cancel`
      | resume =>
          by_cases hcancel : s.taskstate = .cancel <;> cases hstopped : stopped s.commands <;>
            simp [Obedient, ObeysCommands, command, commanded, hstopped, hcancel]

/-- In every run in which a woken worker goes on only when it is commanded to, and no `resume` comes
after a `stop` that `taskstate` has forgotten, each iteration begins as commanded. -/
theorem begins_as_commanded {taskstate : TaskState} (h : taskstate ≠ .start)
    {es : List ControlEvent} (hes : StepsMeet step ObeysCommands (created taskstate) es) :
    StepsMeet step BeginsAsCommanded (created taskstate) es := by
  refine hes.imp Obedient ?_ (fun s e s' hs hobeys hstep =>
    (obedient_step_iff hs hstep).mpr hobeys) (fun start => absurd start h)
  intro s e hs _
  cases e with
  | worker => exact fun _ start => hs start
  | spurious | command | destruct => trivial

/-- `pause` completes before the worker that `start` has woken regains `handle_mutex`, and the pause
is overwritten. -/
theorem pause_overwritten :
    ¬ ∀ (taskstate : TaskState) (es : List ControlEvent), taskstate ≠ .start →
      StepsMeet step BeginsAsCommanded (created taskstate) es := by
  intro h
  exact absurd (h .ready [.worker, .worker, .command .start, .command .pause, .worker, .worker]
    (by decide)) (by decide)

/-- A task that is started, paused and resumed. -/
theorem begins_as_commanded_resumed :
    StepsMeet step BeginsAsCommanded (created .ready)
      [.worker, .worker, .command .start, .worker, .worker, .worker, .command .pause, .worker,
        .worker, .worker, .command .resume, .worker, .worker] :=
  begins_as_commanded (by decide) (by decide)

/-! ## The first `start` -/

/-- Only the destructor sets the flag. -/
theorem step_own_isStopThread (he : e.own = true) (h : s.step e = some s') :
    s'.isStopThread = s.isStopThread := by
  cases e with
  | worker => cases workerStep_transition h <;> rfl
  | spurious =>
      obtain rfl := Option.some.inj h
      rfl
  | command | destruct => cases he

/-- A spurious wake-up only affects a worker that waits. -/
theorem eq_of_step_spurious (hpc : s.pc ≠ .blocked) (h : s.step .spurious = some s') : s' = s := by
  obtain rfl := Option.some.inj h
  rw [ControlPc.wake_eq_self hpc]

/-- The worker has seen `start` or is going to. -/
structure Started (s : ControlState) : Prop where
  taskstate : s.taskstate = .start
  notLock : s.pc ≠ .lock
  notBlocked : s.pc ≠ .blocked

/-- The worker cannot undo the `start`. -/
theorem Started.step (hs : s.Started) (he : e.own = true) (h : s.step e = some s') :
    s'.Started := by
  cases e with
  | worker =>
      cases workerStep_transition h with
      | skip pc other => exact absurd hs.taskstate other
      | wait pc => exact absurd pc hs.notLock
      | find | enter | leave | exit =>
          exact ⟨hs.taskstate, by simp, by simp⟩
      | restart => exact ⟨rfl, by simp, by simp⟩
  | spurious => exact eq_of_step_spurious hs.notBlocked h ▸ hs
  | command | destruct => cases he

/-- Whatever the worker has done since it was created: after the first `start` it cannot come to
wait un-notified if and only if `start` does not come between its test of `taskstate` and its wait.
-/
theorem start_not_lost_iff (hs : Leads step (ControlEvent.own ·) (created .ready) s) :
    (∀ s', Leads step (ControlEvent.own ·) (s.command .start) s' → s'.pc ≠ .blocked) ↔
      s.pc ≠ .lock := by
  constructor
  · intro hnever pc
    have go : s.isStopThread = false :=
      hs.invariant (fun _ _ _ hs he h => (step_own_isStopThread he h).trans hs) rfl
    -- the test has been made, so that the worker waits although it has been notified
    have hwait : step (s.command .start) .worker =
        some { s.command .start with pc := .blocked } := by
      simp [step, workerStep, command, pc, go, ControlPc.wake]
    exact hnever _ (.head rfl hwait (.refl _)) rfl
  · intro hlock s' hs'
    have hstarted : (s.command .start).Started := by
      refine ⟨rfl, ?_, s.pc.wake_ne_blocked⟩
      cases hpc : s.pc with
      | lock => exact absurd hpc hlock
      | test | blocked | woken | enter | body | done => simp [command, hpc, ControlPc.wake]
    exact (hs'.invariant (fun _ _ _ hs he h => hs.step he h) hstarted).notBlocked

/-- `start` comes when the worker has found `ready` and does not wait yet. -/
theorem start_lost :
    ∃ s, run step (created .ready) [.worker, .command .start, .worker] = some s ∧
      s.commands = [.start] ∧ s.pc = .blocked := by
  decide

/-- `start` comes before the first test of the worker. -/
theorem start_not_lost_before_test :
    (∀ s', Leads step (ControlEvent.own ·) ((created .ready).command .start) s' →
      s'.pc ≠ .blocked) ↔ (created .ready).pc ≠ .lock :=
  start_not_lost_iff (.refl _)

/-! ## The end of the thread -/

/-- The destructor has told the worker to end, after `n` iterations. -/
structure Ending (n : ℕ) (s : ControlState) : Prop where
  isStopThread : s.isStopThread = true
  taskstate : s.taskstate = .cancel
  notBlocked : s.pc ≠ .blocked
  begun : s.begun + (if s.pc = .enter then 1 else 0) ≤ n + 1

/-- The destructor tells the worker to end and wakes it. -/
theorem ending_destruct (s : ControlState) : Ending s.begun s.destruct where
  isStopThread := rfl
  taskstate := rfl
  notBlocked := s.pc.wake_ne_blocked
  begun := by
    change s.begun + _ ≤ _
    split_ifs <;> omega

/-- Nothing the worker does takes that back. -/
theorem Ending.step {n : ℕ} (hs : Ending n s) (he : e.own = true) (h : s.step e = some s') :
    Ending n s' := by
  have hbegun := hs.begun
  cases e with
  | worker =>
      cases workerStep_transition h with
      -- the destructor has written `cancel`, and the flag is up
      | find pc start => exact absurd (start.symm.trans hs.taskstate) (by decide)
      | wait pc go | restart pc go => exact absurd (go.symm.trans hs.isStopThread) (by decide)
      | skip pc | leave pc | enter pc =>
          refine ⟨hs.isStopThread, hs.taskstate, by simp, ?_⟩
          simp [pc] at hbegun ⊢
          omega
      | exit pc =>
          refine ⟨hs.isStopThread, hs.taskstate, by simp, ?_⟩
          simp
          omega
  | spurious => exact eq_of_step_spurious hs.notBlocked h ▸ hs
  | command | destruct => cases he

/-- The steps that are left to a worker that is told to end. -/
def stepsLeft : ControlPc → ℕ
  | .enter => 4
  | .body => 3
  | .test => 2
  | .lock | .woken => 1
  | .blocked | .done => 0

/-- Each step of it is one fewer. -/
theorem Ending.worker_step {n : ℕ} (hs : Ending n s) (hdone : s.pc ≠ .done) :
    ∃ s', s.step .worker = some s' ∧ stepsLeft s'.pc < stepsLeft s.pc := by
  have hstop := hs.isStopThread
  have hstate : s.taskstate ≠ .start := by rw [hs.taskstate]; decide
  cases hpc : s.pc with
  | blocked => exact absurd hpc hs.notBlocked
  | done => exact absurd hpc hdone
  | lock | woken | enter | body => simp [ControlState.step, workerStep, hpc, hstop, stepsLeft]
  | test => simp [ControlState.step, workerStep, hpc, hstate, stepsLeft]

/-- A worker that is told to end gets there by itself. -/
theorem Ending.finishes {n : ℕ} (hs : Ending n s) :
    ∃ s', Leads ControlState.step (· = .worker) s s' ∧ s'.pc = .done := by
  induction hleft : stepsLeft s.pc using Nat.strongRecOn generalizing s with
  | ind k ih =>
      by_cases hdone : s.pc = .done
      · exact ⟨s, .refl s, hdone⟩
      · obtain ⟨s₁, hstep, hlt⟩ := hs.worker_step hdone
        obtain ⟨s', hleads, hpc⟩ := ih _ (hleft ▸ hlt) (hs.step rfl hstep) rfl
        exact ⟨s', .head rfl hstep hleads, hpc⟩

/-- Whatever came before the critical section of the destructor: after it the worker does not wait
un-notified, begins at most one more iteration, and returns if it goes on. -/
theorem ends_after_destruct (s : ControlState)
    (h : Leads step (ControlEvent.own ·) s.destruct s') :
    s'.pc ≠ .blocked ∧ s'.begun ≤ s.begun + 1 ∧
      ∃ s'', Leads step (· = .worker) s' s'' ∧ s''.pc = .done := by
  have hs' : Ending s.begun s' :=
    h.invariant (fun _ _ _ hs he h => hs.step he h) (ending_destruct s)
  exact ⟨hs'.notBlocked, Nat.le_trans (Nat.le_add_right _ _) hs'.begun, hs'.finishes⟩

/-- A worker that waits for the first `start`. -/
private def waiting : ControlState := { created .ready with pc := .blocked }

/-- After the destructor it has returned. -/
private def returned : ControlState := { waiting.destruct with pc := .done }

/-- The destructor comes while the worker waits for the first `start`. -/
theorem ends_after_destruct_waiting :
    returned.pc ≠ .blocked ∧ returned.begun ≤ waiting.begun + 1 ∧
      ∃ s'', Leads step (· = .worker) returned s'' ∧ s''.pc = .done :=
  ends_after_destruct waiting ⟨[.worker], by decide, by decide⟩

end ControlState

end CsiFirmware.Task
