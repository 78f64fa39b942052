import CsiFirmware.Common.PoolInvariants

/-!
# Slots of the thread pool

Reference: `ThreadPool::manager` and `ThreadPool::worker`.

The manager starts a worker in a slot of `threadIDs` whose id is `thread::id()`. A worker that
leaves after a shrink lowers `liveNum`, but its slot keeps the id of a thread that has ended. The
slots agree with `liveNum`, and the pool can grow back, in exactly the runs in which no worker ever
leaves.
-/

namespace CsiFirmware.Common

open Runs Threads

variable {τ : Type*} {size : PoolSize} {s s' : PoolState τ} {e : PoolEvent τ}

/-- There are as many free slots as workers that may still be started. -/
def SlotsMatch (size : PoolSize) (s : PoolState τ) : Prop :=
  (s.freeSlots : Int) = size.maxNum - s.liveNum

/-- A round that finds more tasks than workers, and fewer than `maxNum` workers under the lock,
starts a worker. -/
def GrowsWhenNeeded (size : PoolSize) (s : PoolState τ) (e : PoolEvent τ) : Prop :=
  s.shutdown = false → e = .thread .manager →
    ∀ queuesize livenum busynum, s.manager = .grow queuesize livenum busynum →
      livenum < queuesize → livenum < size.maxNum → s.liveNum < size.maxNum →
        ∀ s' ∈ s.step size e, s.workers.length < s'.workers.length

/-- After the step the slots agree with `liveNum`, and if it is a round of the manager that has to
start a worker, it does. -/
def SlotsRight (size : PoolSize) (s : PoolState τ) (e : PoolEvent τ) : Prop :=
  After (PoolState.step size) (UntilShutdown (SlotsMatch size)) s e ∧ GrowsWhenNeeded size s e

/-- The worker takes an exit token while there are more than `minNum` workers. -/
def Leaves (size : PoolSize) (s : PoolState τ) (i : ℕ) : Prop :=
  s.workers[i]? = some .woken ∧ s.mutexFree ∧ 0 < s.exitNum ∧ size.minNum < s.liveNum

/-- The step is not that of a worker that leaves. -/
def NobodyLeaves (size : PoolSize) (s : PoolState τ) (e : PoolEvent τ) : Prop :=
  s.shutdown = false → ∀ i, e = .thread (.worker i) → ¬ Leaves size s i

/-- What holds as long as no worker has left and the destructor has not been called. -/
structure SlotsInv (size : PoolSize) (s : PoolState τ) : Prop where
  slots : SlotsMatch size s
  length : s.threadIDs.length = size.maxNum
  destructor : s.destructor = .notCalled

/-- The constructor fills `minNum` slots. -/
theorem slotsInv_init : SlotsInv size (PoolState.init size : PoolState τ) := by
  have hle := size.min_le_max
  refine ⟨?_, ?_, rfl⟩
  · simp only [SlotsMatch, PoolState.freeSlots, PoolState.init, List.countP_append, List.countP_map,
      List.countP_replicate, Option.isNone_none, ↓reduceIte]
    simp [Function.comp_def]
    omega
  · simp [PoolState.init]
    omega

namespace SlotsInv

/-- The invariant depends on the slots, on `liveNum` and on the destructor alone. -/
theorem frame (hs : SlotsInv size s) (hslots : s'.threadIDs = s.threadIDs)
    (hlive : s'.liveNum = s.liveNum) (hdestructor : s'.destructor = s.destructor) :
    SlotsInv size s' where
  slots := by
    rw [SlotsMatch, PoolState.freeSlots, hslots, hlive]
    exact hs.slots
  length := hslots ▸ hs.length
  destructor := hdestructor.trans hs.destructor

/-- As long as no worker leaves, growth takes a slot for each worker. -/
theorem step (hs : SlotsInv size s) (hstay : NobodyLeaves size s e)
    (h : s.step size e = some s') (hopen : s'.shutdown = false) : SlotsInv size s' := by
  have hopened : s.shutdown = false := shutdown_step h hopen
  have hcalled := hs.destructor
  cases PoolState.step_transition h with
  | reject | add | block | finish | release | spurious | manage | shrink | notify =>
      exact hs.frame rfl rfl rfl
  | close _ _ _ _ _ ready | wait _ _ _ _ _ ready | take _ _ _ _ _ _ _ ready =>
      cases ready <;> exact hs.frame rfl rfl rfl
  | leave i at_i free exitNum liveNum =>
      exact absurd ⟨at_i, free, exitNum, liveNum⟩ (hstay hopened i rfl)
  | grow =>
      obtain ⟨k, hk⟩ := grow_grown size s
      refine ⟨?_, hk.length.trans hs.length, hk.destructor.trans hcalled⟩
      -- each new worker takes one slot and raises `liveNum` by one
      have hslots := hs.slots
      have hfree := hk.freeSlots
      have hlive := hk.liveNum
      simp only [SlotsMatch, PoolState.freeSlots] at hslots hfree ⊢
      omega
  | shut => cases hopen
  | destruct pc move =>
      cases move with
      | joined pc | skip i pc | done i pc => simp [pc] at hcalled
  | join i k pc => simp [pc] at hcalled
  | wakeAll pc => simp [pc] at hcalled

end SlotsInv

/-- A worker that leaves keeps its slot. -/
theorem not_slotsMatch_of_leaves {i : ℕ} (hs : SlotsMatch size s) (hleaves : Leaves size s i) :
    ∃ s', s.step size (.thread (.worker i)) = some s' ∧ s'.shutdown = s.shutdown ∧
      ¬ SlotsMatch size s' := by
  obtain ⟨at_i, free, exitNum, liveNum⟩ := hleaves
  refine ⟨{ s.put i .exited with exitNum := s.exitNum - 1, liveNum := s.liveNum - 1 }, ?_, rfl, ?_⟩
  · simp [PoolState.step, at_i, workerStep, free, exitNum, liveNum]
  · simp only [SlotsMatch, PoolState.freeSlots, PoolState.put] at hs ⊢
    omega

/-- On one step. -/
theorem slotsRight_iff (hs : UntilShutdown (SlotsInv size) s) :
    SlotsRight size s e ↔ NobodyLeaves size s e := by
  constructor
  · rintro ⟨hafter, -⟩ hopen i rfl hleaves
    obtain ⟨s', hs', hsame, hnot⟩ := not_slotsMatch_of_leaves (hs hopen).slots hleaves
    exact hnot (hafter s' hs' (hsame.trans hopen))
  · intro hstay
    refine ⟨fun s' hs' hopen => ((hs (shutdown_step hs' hopen)).step hstay hs' hopen).slots, ?_⟩
    rintro hopen rfl q l b pc hlq hlmax hlt s' hs'
    obtain ⟨hslots, hlength, -⟩ := hs hopen
    have hpos : 0 < s.freeSlots := by
      simp only [SlotsMatch] at hslots
      omega
    have hgrow : s' = { grow size s with manager := .shrink l b } := by
      rw [Option.mem_def, PoolState.step, managerStep, pc] at hs'
      simp only [hlq, hlmax, and_self, ↓reduceIte, Option.ite_none_right_eq_some] at hs'
      exact (Option.some.inj hs'.2).symm
    subst hgrow
    exact workers_lt_grow hlength hpos hlt

/-- In every interleaving of `Add` with the steps of workers and manager, the number of free slots
is `maxNum - liveNum` throughout and the manager starts a worker whenever it has to, if and only if
no worker ever leaves. -/
theorem slots_right_iff (size : PoolSize) (es : List (PoolEvent τ)) :
    StepsMeet (PoolState.step size) (SlotsRight size) (PoolState.init size) es ↔
      StepsMeet (PoolState.step size) (NobodyLeaves size) (PoolState.init size) es := by
  refine stepsMeet_congr (UntilShutdown (SlotsInv size)) (fun s e hs _ => slotsRight_iff hs) ?_
    (fun _ => slotsInv_init) (stepsMeet_trivial _ es)
  intro s e s' hs _ hright hs' hopen
  exact (hs (shutdown_step hs' hopen)).step ((slotsRight_iff hs).mp hright) hs' hopen

/-- Not in every reachable state there are `maxNum - liveNum` free slots. -/
theorem slot_lost :
    ¬ ∀ (size : PoolSize) (s : PoolState ℕ), PoolReachable size s → s.shutdown = false →
      SlotsMatch size s := by
  intro h
  have hrun : (run (PoolState.step mqSize) (PoolState.init mqSize) growAndShrink).map
      (fun s => (s.shutdown, s.freeSlots, s.liveNum)) = some (false, 0, 2) := by decide
  obtain ⟨s, hs, hlast⟩ := Option.map_eq_some_iff.mp hrun
  obtain ⟨hopen, hlast⟩ := Prod.mk.inj hlast
  obtain ⟨hfree, hlive⟩ := Prod.mk.inj hlast
  have hmatch := h mqSize s ⟨_, _, rfl, hs⟩ hopen
  rw [SlotsMatch, hfree, hlive] at hmatch
  exact absurd hmatch (by decide)

end CsiFirmware.Common
