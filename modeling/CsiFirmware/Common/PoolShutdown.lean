import CsiFirmware.Common.PoolInvariants

/-!
# Shutdown of the thread pool

Reference: `ThreadPool::~ThreadPool`, `ThreadPool::worker` and `ThreadPool::manager`.

The destructor sets `shutdown` without `mutexPool`, joins the manager, and notifies `cond` once. A
worker that tested `shutdown` before it was set, and has not reached `cond.wait` at the broadcast,
is not notified by it. It holds the mutex at that moment, so whether the broadcast is lost can be
told from the state in which it is made.
-/

namespace CsiFirmware.Common

open Runs Threads

variable {τ : Type*} {size : PoolSize} {s s' : PoolState τ} {e : PoolEvent τ}

/-- Once the destructor runs, the pool is shut down. -/
def ShutByDestructor (s : PoolState τ) : Prop := s.destructor ≠ .notCalled → s.shutdown = true

/-- The destructor sets `shutdown` first, and nobody resets it. -/
theorem ShutByDestructor.step (hs : ShutByDestructor s) (h : s.step size e = some s') :
    ShutByDestructor s' := by
  cases PoolState.step_transition h with
  | reject | add | leave | block | finish | release | spurious | manage | shrink | notify =>
      exact hs
  | close _ _ _ _ _ ready | wait _ _ _ _ _ ready | take _ _ _ _ _ _ _ ready =>
      cases ready <;> exact hs
  | grow =>
      obtain ⟨k, hk⟩ := grow_grown size s
      intro hcalled
      have hcalled₀ : s.destructor ≠ .notCalled := fun hpc => hcalled (hk.destructor.trans hpc)
      exact hk.shutdown.trans (hs hcalled₀)
  | shut => exact fun _ => rfl
  | destruct pc move =>
      have hcalled : s.destructor ≠ .notCalled := by
        cases move with
        | joined pc | skip i pc | done i pc => simp [pc]
      exact fun _ => hs hcalled
  | join i k pc => exact fun _ => hs (by simp [pc])
  | wakeAll pc => exact fun _ => hs (by simp [pc])

/-- In every reachable state in which the destructor runs, the pool is shut down. -/
theorem PoolReachable.shutByDestructor (h : PoolReachable size s) : ShutByDestructor s := by
  refine h.invariant ?_ fun s e s' hs hs' => hs.step hs'
  rintro s₀ rfl hcalled
  exact absurd rfl hcalled

/-- The pool is shut down, and every worker is going to see it before it waits. -/
structure Closing (s : PoolState τ) : Prop where
  shutdown : s.shutdown = true
  awake : ∀ w ∈ s.workers, w.asleep = false

namespace Closing

/-- A worker gets to a point from which it tests `shutdown` before it waits. -/
theorem put {i : ℕ} {w : WorkerPc τ} (hs : Closing s) (hw : w.asleep = false) :
    Closing (s.put i w) where
  shutdown := hs.shutdown
  awake := by
    intro v hv
    rcases List.mem_or_eq_of_mem_set hv with hv | rfl
    · exact hs.awake v hv
    · exact hw

/-- A broadcast that no worker misses. -/
theorem notifyAll (hshut : s.shutdown = true) (free : s.mutexFree) : Closing s.notifyAll where
  shutdown := hshut
  awake := by
    intro v hv
    obtain ⟨w, hw, rfl⟩ := List.mem_map.mp hv
    exact asleep_wake (free w hw)

/-- Only a worker that is about to wait holds the mutex from one step to the next. -/
theorem mutexFree (hs : Closing s) : s.mutexFree := by
  intro w hw
  have hawake : w.asleep = false := hs.awake w hw
  cases w with
  | wait => cases hawake
  | lock | blocked | woken | run | finish | exited => rfl

/-- No worker goes back to `cond.wait`, whatever the manager and the destructor still do. -/
theorem step (hs : Closing s) (h : s.step size e = some s') : Closing s' := by
  have hshut : s.shutdown = true := hs.shutdown
  cases PoolState.step_transition h with
  | reject => exact hs
  | add _ _ opened => simp [opened] at hshut
  | close i w s₁ at_i free ready =>
      have hs₁ : Closing s₁ := by cases ready <;> exact ⟨hs.shutdown, hs.awake⟩
      exact hs₁.put rfl
  | wait _ _ _ _ _ _ opened | take _ _ _ _ _ _ _ _ opened => simp [opened] at hshut
  | leave i =>
      have hexit : Closing (s.put i .exited) := hs.put rfl
      exact ⟨hexit.shutdown, hexit.awake⟩
  | block i at_i =>
      have hawake := hs.awake .wait (List.mem_of_getElem? at_i)
      cases hawake
  | finish => exact hs.put rfl
  | release i =>
      have hlock : Closing (s.put i .lock) := hs.put rfl
      exact ⟨hlock.shutdown, hlock.awake⟩
  | spurious => exact hs.put rfl
  | manage | shrink | destruct | join => exact ⟨hs.shutdown, hs.awake⟩
  | grow =>
      -- the manager has been joined by then, but its growth would do no harm either
      obtain ⟨k, hk⟩ := grow_grown size s
      refine ⟨hk.shutdown.trans hshut, ?_⟩
      intro w hw
      simp only [hk.workers, List.mem_append, List.mem_replicate] at hw
      rcases hw with hw | ⟨-, rfl⟩
      · exact hs.awake w hw
      · rfl
  | notify | wakeAll =>
      have hwoken : Closing s.notifyAll := notifyAll hshut hs.mutexFree
      exact ⟨hwoken.shutdown, hwoken.awake⟩
  | shut => exact ⟨rfl, hs.awake⟩

end Closing

/-- A worker that holds the mutex when all workers are notified can block right after. -/
theorem blocks_of_holdsMutex (size : PoolSize) (pc : DestructorPc) {w : WorkerPc τ}
    (hw : w ∈ s.workers) (hmutex : w.holdsMutex = true) :
    ∃ s', Leads (PoolState.step size) (fun _ => True) { s.notifyAll with destructor := pc } s' ∧
      ∃ v ∈ s'.workers, v.isBlocked = true := by
  -- between two steps only a worker on its way to `cond.wait` holds the mutex
  obtain rfl : w = .wait := by
    cases w with
    | wait => rfl
    | lock | blocked | woken | run | finish | exited => cases hmutex
  obtain ⟨i, at_i⟩ := List.mem_iff_getElem?.mp hw
  have hwait : s.notifyAll.workers[i]? = some .wait := by
    rw [PoolState.notifyAll, List.getElem?_map, at_i]
    rfl
  have hlt : i < s.notifyAll.workers.length := (List.getElem?_eq_some_iff.mp hwait).1
  let s₁ : PoolState τ := { s.notifyAll with destructor := pc }
  have hstep : s₁.step size (.thread (.worker i)) = some (s₁.put i .blocked) := by
    rw [PoolState.step]
    show s.notifyAll.workers[i]?.bind _ = _
    rw [hwait]
    rfl
  refine ⟨s₁.put i .blocked, Leads.head trivial hstep (Leads.refl _), .blocked, ?_, rfl⟩
  exact List.mem_iff_getElem?.mpr ⟨i, List.getElem?_set_self hlt⟩

/-- The broadcast waits for nobody. -/
theorem step_wakeAll (size : PoolSize) (pc : s.destructor = .notify) :
    s.step size .destructor = some { s.notifyAll with destructor := .join 0 } := by
  rw [PoolState.step, destructorStep, pc]

/-- After the broadcast of the destructor no worker is, or later becomes, blocked in `cond.wait`,
whatever the interleaving, if and only if no worker holds the mutex at the broadcast, on its way
from the test of `shutdown` to `cond.wait`. -/
theorem shutdown_wakes_iff (h : PoolReachable size s) (pc : s.destructor = .notify) :
    (∀ s₁ s', s.step size .destructor = some s₁ →
        Leads (PoolState.step size) (fun _ => True) s₁ s' →
          ∀ w ∈ s'.workers, w.isBlocked = false) ↔
      s.mutexFree := by
  have hstep := step_wakeAll size pc
  constructor
  · -- the worker goes on to `cond.wait`, behind the broadcast
    intro hnever w hw
    by_contra hmutex
    obtain ⟨s', hs', v, hv, hblocked⟩ :=
      blocks_of_holdsMutex size (.join 0) hw (by simpa using hmutex)
    have hnot : v.isBlocked = false := hnever _ s' hstep hs' v hv
    simp [hnot] at hblocked
  · intro free s₁ s' hs₁ hs' w hw
    obtain rfl := Option.some.inj (hstep.symm.trans hs₁)
    have hshut : s.shutdown = true := h.shutByDestructor (by simp [pc])
    have hwoken : Closing s.notifyAll := Closing.notifyAll hshut free
    have hclosing : Closing s' :=
      hs'.invariant (fun s e s' hs _ hs' => hs.step hs') ⟨hwoken.shutdown, hwoken.awake⟩
    exact WorkerPc.isBlocked_of_asleep (hclosing.awake w hw)

/-- A worker finds the queue empty and tests `shutdown`. Then the destructor runs up to its
broadcast. -/
def shutdownRace : List (PoolEvent ℕ) :=
  [.thread (.worker 0), .destructor, .thread .manager, .destructor]

/-- The worker is blocked when the broadcast comes, and both sides hold. -/
theorem shutdown_wakes_idle :
    ∃ s : PoolState ℕ, run (PoolState.step mqSize) (PoolState.init mqSize)
        (.thread (.worker 0) :: shutdownRace) = some s ∧
      ((∀ s₁ s', s.step mqSize .destructor = some s₁ →
          Leads (PoolState.step mqSize) (fun _ => True) s₁ s' →
            ∀ w ∈ s'.workers, w.isBlocked = false) ↔
        s.mutexFree) := by
  have hrun : (run (PoolState.step mqSize) (PoolState.init mqSize)
      (.thread (.worker 0) :: shutdownRace)).map PoolState.destructor = some .notify := by
    decide
  obtain ⟨s, hs, pc⟩ := Option.map_eq_some_iff.mp hrun
  exact ⟨s, hs, shutdown_wakes_iff ⟨_, _, rfl, hs⟩ pc⟩

/-- In some run a worker blocks after the broadcast, and is not notified any more. -/
theorem shutdown_hangs :
    ¬ ∀ (size : PoolSize) (s s₁ s' : PoolState ℕ), PoolReachable size s →
      s.destructor = .notify → s.step size .destructor = some s₁ →
        Leads (PoolState.step size) (fun _ => True) s₁ s' →
          ∀ w ∈ s'.workers, w.isBlocked = false := by
  intro h
  have hrun : (run (PoolState.step mqSize) (PoolState.init mqSize) shutdownRace).map
      (fun s => (s.destructor, s.workers)) = some (.notify, [.wait]) := by decide
  obtain ⟨s, hs, hlast⟩ := Option.map_eq_some_iff.mp hrun
  obtain ⟨pc, hworkers⟩ := Prod.mk.inj hlast
  have hreach : PoolReachable mqSize s := ⟨_, _, rfl, hs⟩
  have hwait : WorkerPc.wait ∈ s.workers := by simp [hworkers]
  obtain ⟨s', hs', v, hv, hblocked⟩ := blocks_of_holdsMutex mqSize (.join 0) hwait rfl
  have hnot : v.isBlocked = false := h mqSize s _ s' hreach pc (step_wakeAll _ pc) hs' v hv
  simp [hnot] at hblocked

end CsiFirmware.Common
