import CsiFirmware.Common.PoolProgress
import CsiFirmware.Common.PoolShutdown

/-!
# The end of the thread pool

Reference: `ThreadPool::~ThreadPool`.

The members of the pool are destroyed when its destructor returns, so no thread that uses them may
be left by then. The joins reach every worker, also those that left before: each worker is still in
a slot of `threadIDs` that is to be joined, or has exited. If no worker misses the broadcast, the
destructor does return, after a bounded number of its own steps and of steps of workers.
-/

namespace CsiFirmware.Common

open Runs Threads

variable {τ : Type*} {size : PoolSize} {s s' : PoolState τ} {e : PoolEvent τ}

/-! ## Slots that are still to be joined -/

/-- The first slot that the destructor has not come past yet. -/
def DestructorPc.position (size : PoolSize) : DestructorPc → ℕ
  | .notCalled | .joinManager | .notify => 0
  | .join i => i
  | .done => size.maxNum

/-- The manager does not start workers any more. -/
def DestructorPc.managerGone : DestructorPc → Bool
  | .notCalled | .joinManager => false
  | .notify | .join _ | .done => true

/-- Worker `k` has exited, or a slot from `i` on refers to it. -/
def Held (threadIDs : List (Option ℕ)) (i k : ℕ) (w : WorkerPc τ) : Prop :=
  w = .exited ∨ ∃ j, i ≤ j ∧ threadIDs[j]? = some (some k)

/-- No worker is forgotten. -/
structure Joinable (size : PoolSize) (s : PoolState τ) : Prop where
  length : s.threadIDs.length = size.maxNum
  held : All (Held s.threadIDs (s.destructor.position size)) s.workers
  manager : s.destructor.managerGone = true → s.manager = .finished

/-- Worker `k` of the constructor is in slot `k`. -/
theorem joinable_init : Joinable size (PoolState.init size : PoolState τ) where
  length := by
    have hle := size.min_le_max
    simp [PoolState.init]
    omega
  held := by
    intro k w hw
    have hk : k < size.minNum := by
      obtain ⟨hk, -⟩ := List.getElem?_eq_some_iff.mp hw
      simpa [PoolState.init] using hk
    refine .inr ⟨k, Nat.zero_le k, ?_⟩
    simp [PoolState.init, List.getElem?_append, hk]
  manager hgone := by cases hgone

/-- A notification does not move a worker to another slot. -/
theorem Held.wake {threadIDs : List (Option ℕ)} {i k : ℕ} {w : WorkerPc τ}
    (h : Held threadIDs i k w) : Held threadIDs i k w.wake :=
  h.imp_left fun hw => by rw [hw]; rfl

/-- There is one program point at which a worker is not alive. -/
theorem WorkerPc.eq_exited {w : WorkerPc τ} (h : w.alive = false) : w = .exited := by
  cases w <;> first | rfl | cases h

namespace Joinable

/-- What is held depends on the first slot to look at, not on where else the destructor is. -/
theorem held_of_position {pc : DestructorPc} (hs : Joinable size s)
    (hpc : pc.position size = s.destructor.position size) :
    All (Held s.threadIDs (pc.position size)) s.workers := by
  rw [hpc]
  exact hs.held

/-- Every worker keeps its slot when one of them goes on. -/
theorem put {i : ℕ} {w v : WorkerPc τ} (hs : Joinable size s) (at_i : s.workers[i]? = some w)
    (hw : w ≠ .exited) : Joinable size (s.put i v) where
  length := hs.length
  held := hs.held.set ((hs.held i w at_i).imp (fun h => absurd h hw) id)
  manager := hs.manager

/-- A notification changes no slot and nobody exits. -/
theorem notifyAll (hs : Joinable size s) : Joinable size s.notifyAll where
  length := hs.length
  held := all_map (hs.held.mono fun _ _ _ h => h.wake)
  manager := hs.manager

/-- A new worker is put in a free slot. -/
theorem growSlot (hs : Joinable size s) (hpc : s.destructor.position size = 0) (count i : ℕ) :
    Joinable size (Common.growSlot size (s, count) i).1 ∧
      (Common.growSlot size (s, count) i).1.destructor = s.destructor := by
  unfold Common.growSlot
  split
  next test =>
    obtain ⟨-, -, slot⟩ := test
    refine ⟨⟨List.length_set.trans hs.length, ?_, hs.manager⟩, rfl⟩
    obtain ⟨hi, -⟩ := List.getElem?_eq_some_iff.mp slot
    refine All.concat (hs.held.mono fun k w _ h => h.imp_right ?_)
      (.inr ⟨i, by simp [hpc], List.getElem?_set_self hi⟩)
    rintro ⟨j, hj, hslot⟩
    have hne : j ≠ i := by
      rintro rfl
      simp [slot] at hslot
    exact ⟨j, hj, (lookup_set_of_ne hne).trans hslot⟩
  next => exact ⟨hs, rfl⟩

/-- While the destructor is not at its joins, the loop of `manager` may put new workers in any free
slot. -/
theorem foldl_growSlot (l : List ℕ) (hs : Joinable size s) (hpc : s.destructor.position size = 0)
    (count : ℕ) : Joinable size (l.foldl (Common.growSlot size) (s, count)).1 := by
  induction l generalizing s count with
  | nil => exact hs
  | cons i l ih =>
      obtain ⟨hs₁, hsame⟩ := hs.growSlot hpc count i
      exact ih hs₁ (hsame ▸ hpc) _

/-- The destructor passes a slot that refers to nobody, or has come past all slots. -/
theorem destruct {pc : DestructorPc} (hs : Joinable size s) (move : DestructorMove size s pc) :
    Joinable size { s with destructor := pc } := by
  cases move with
  | joined hpc manager =>
      exact ⟨hs.length, hs.held_of_position (by rw [hpc]; rfl), fun _ => manager⟩
  | skip i hpc lt slot =>
      refine ⟨hs.length, ?_, fun _ => hs.manager (by rw [hpc]; rfl)⟩
      refine hs.held.mono fun k w _ held => held.imp_right ?_
      rintro ⟨j, hj, hslot⟩
      rw [hpc, DestructorPc.position] at hj
      rcases hj.eq_or_lt with rfl | hij
      · exact absurd hslot (slot k)
      · exact ⟨j, hij, hslot⟩
  | done i hpc le =>
      refine ⟨hs.length, ?_, fun _ => hs.manager (by rw [hpc]; rfl)⟩
      refine hs.held.mono fun k w _ held => held.imp_right ?_
      rintro ⟨j, hj, hslot⟩
      rw [hpc, DestructorPc.position] at hj
      exact ⟨j, (not_lt.mp le).trans hj, hslot⟩

/-- No step forgets a worker. -/
theorem step (hs : Joinable size s) (h : s.step size e = some s') : Joinable size s' := by
  cases PoolState.step_transition h with
  | reject => exact hs
  | add => exact notifyAll ⟨hs.length, hs.held, hs.manager⟩
  | close i w s₁ at_i free ready | wait i w s₁ at_i free ready =>
      have hw : w ≠ .exited := by cases ready <;> nofun
      cases ready <;> exact ⟨hs.length, (hs.put at_i hw).held, hs.manager⟩
  | take i w s₁ task q at_i free ready =>
      have hw : w ≠ .exited := by cases ready <;> nofun
      cases ready <;> exact ⟨hs.length, (hs.put (v := .run task) at_i hw).held, hs.manager⟩
  | leave i at_i =>
      exact ⟨hs.length, (hs.put (v := .exited) at_i nofun).held, hs.manager⟩
  | block i at_i | finish i task at_i | spurious i at_i => exact hs.put at_i nofun
  | release i at_i =>
      exact ⟨hs.length, (hs.put (v := .lock) at_i nofun).held, hs.manager⟩
  | manage pc move =>
      refine ⟨hs.length, hs.held, fun hgone => ?_⟩
      have hfinished := hs.manager hgone
      cases move with
      | stop pc | round pc | snapshot pc | keepSize _ _ _ pc | keepWorkers _ _ pc | again pc =>
          simp [hfinished] at pc
  | grow q l b pc =>
      -- the manager is still there, so the destructor is not at its joins
      have hpc : s.destructor.managerGone = false := by
        by_contra hgone
        have hfinished := hs.manager (by simpa using hgone)
        simp [hfinished] at pc
      have hstart : s.destructor.position size = 0 := by
        cases hd : s.destructor <;> simp_all [DestructorPc.managerGone, DestructorPc.position]
      have hgrown := foldl_growSlot (List.range size.maxNum) hs hstart 0
      obtain ⟨k, hk⟩ := grow_grown size s
      refine ⟨hgrown.length, hgrown.held, fun hgone => ?_⟩
      exact absurd (hk.destructor ▸ hgone) (by simp [hpc])
  | shrink l b pc =>
      refine ⟨hs.length, hs.held, fun hgone => ?_⟩
      have hfinished := hs.manager hgone
      simp [hfinished] at pc
  | notify n pc =>
      refine ⟨hs.length, hs.notifyAll.held, fun hgone => ?_⟩
      have hfinished := hs.manager hgone
      simp [hfinished] at pc
  | shut pc => exact ⟨hs.length, hs.held_of_position (by rw [pc]; rfl), nofun⟩
  | destruct pc move => exact hs.destruct move
  | join i k pc lt slot exited =>
      refine ⟨List.length_set.trans hs.length, ?_, fun _ => hs.manager (by rw [pc]; rfl)⟩
      refine hs.held.mono fun k' w at_k held => ?_
      rcases held with hw | ⟨j, hj, hslot⟩
      · exact .inl hw
      rw [pc, DestructorPc.position] at hj
      rcases hj.eq_or_lt with rfl | hij
      · -- the worker in this slot has been joined
        obtain rfl : k = k' := by simpa [slot] using hslot
        rw [at_k, Option.map_some, Option.getD_some] at exited
        exact .inl (WorkerPc.eq_exited exited)
      · exact .inr ⟨j, hij, (lookup_set_of_ne hij.ne').trans hslot⟩
  | wakeAll pc =>
      have hwoken : Joinable size s.notifyAll := hs.notifyAll
      exact ⟨hs.length, hwoken.held_of_position (by rw [PoolState.notifyAll, pc]; rfl),
        fun _ => hs.manager (by rw [pc]; rfl)⟩

end Joinable

/-- The destructor forgets no thread in any reachable state. -/
theorem PoolReachable.joinable (h : PoolReachable size s) : Joinable size s := by
  refine h.invariant ?_ fun s e s' hs hs' => hs.step hs'
  rintro s₀ rfl
  exact joinable_init

/-- When the destructor has returned, no thread of the pool is left. -/
theorem Joinable.nobody_left (hs : Joinable size s) (pc : s.destructor = .done) :
    s.manager = .finished ∧ ∀ w ∈ s.workers, w = .exited := by
  refine ⟨hs.manager (by rw [pc]; rfl), fun w hw => ?_⟩
  obtain ⟨k, at_k⟩ := List.mem_iff_getElem?.mp hw
  rcases hs.held k w at_k with hexited | ⟨j, hj, hslot⟩
  · exact hexited
  · obtain ⟨hlt, -⟩ := List.getElem?_eq_some_iff.mp hslot
    rw [pc, DestructorPc.position] at hj
    exact absurd (hs.length ▸ hlt) (not_lt.mpr hj)

/-! ## The joins come to an end -/

/-- The event is a step of a worker or of the destructor. -/
def PoolEvent.ofJoin : PoolEvent τ → Bool
  | .destructor | .thread (.worker _) => true
  | .add _ | .thread (.spurious _) | .thread .manager => false

/-- The slots that the destructor has to look at, and its return. -/
def DestructorPc.left (size : PoolSize) : DestructorPc → ℕ
  | .join i => size.maxNum + 1 - i
  | .notCalled | .joinManager | .notify | .done => 0

/-- What is left to do by the workers and the destructor. -/
def remaining (size : PoolSize) (s : PoolState τ) : ℕ :=
  s.rank + s.destructor.left size

/-- The destructor is at its joins, or has returned. -/
def DestructorPc.joining (size : PoolSize) : DestructorPc → Prop
  | .join i => i ≤ size.maxNum
  | .done => True
  | .notCalled | .joinManager | .notify => False

/-- No worker has missed the broadcast, and the destructor is behind it. -/
structure Leaving (size : PoolSize) (s : PoolState τ) : Prop where
  closing : Closing s
  joinable : Joinable size s
  joining : s.destructor.joining size

namespace Leaving

/-- The manager has left its loop before the broadcast. -/
theorem manager (hs : Leaving size s) : s.manager = .finished := by
  refine hs.joinable.manager ?_
  have hpc := hs.joining
  cases hd : s.destructor with
  | join | done | notify => rfl
  | notCalled | joinManager =>
      rw [hd] at hpc
      cases hpc

/-- A worker that goes on without a task brings the end nearer. -/
theorem remaining_put (size : PoolSize) {i : ℕ} {w v : WorkerPc τ} (at_i : s.workers[i]? = some w)
    (hrank : v.rank + 1 = w.rank) : remaining size (s.put i v) + 1 = remaining size s := by
  have hput := rank_put at_i v
  have hsame : (s.put i v).destructor = s.destructor := rfl
  rw [remaining, remaining, hsame]
  omega

/-- The steps of workers and of the destructor are counted down. -/
theorem remaining_step (hs : Leaving size s) (h : s.step size e = some s') :
    s'.destructor.joining size ∧
      remaining size s' + (if e.ofJoin then 1 else 0) ≤ remaining size s := by
  have hshut : s.shutdown = true := hs.closing.shutdown
  have hmanager : s.manager = .finished := hs.manager
  have hpc := hs.joining
  cases PoolState.step_transition h with
  | reject => exact ⟨hpc, le_rfl⟩
  | add _ _ opened => simp [opened] at hshut
  | close i w s₁ at_i free ready =>
      -- the worker sees `shutdown` and exits
      have hrank : (.exited : WorkerPc τ).rank + 1 = w.rank := by cases ready <;> rfl
      have hsame : s₁.workers = s.workers ∧ s₁.destructor = s.destructor := by
        cases ready <;> exact ⟨rfl, rfl⟩
      have hput := remaining_put size at_i hrank
      simp only [remaining, PoolState.rank, PoolState.put, hsame.1, hsame.2] at hput ⊢
      exact ⟨hpc, hput.le⟩
  | wait _ _ _ _ _ _ opened | take _ _ _ _ _ _ _ _ opened => simp [opened] at hshut
  | leave i at_i => exact ⟨hpc, (remaining_put size (v := .exited) at_i rfl).le⟩
  | block i at_i => cases hs.closing.awake _ (List.mem_of_getElem? at_i)
  | finish i task at_i => exact ⟨hpc, (remaining_put size (v := .finish) at_i rfl).le⟩
  | release i at_i => exact ⟨hpc, (remaining_put size (v := .lock) at_i rfl).le⟩
  | spurious i at_i => cases hs.closing.awake _ (List.mem_of_getElem? at_i)
  | manage pc move =>
      cases move with
      | stop pc | round pc | snapshot pc | keepSize _ _ _ pc | keepWorkers _ _ pc | again pc =>
          simp [hmanager] at pc
  | grow _ _ _ pc | shrink _ _ pc | notify _ pc => simp [hmanager] at pc
  | shut pc | wakeAll pc =>
      rw [pc] at hpc
      cases hpc
  | destruct pc move =>
      cases move with
      | joined pc =>
          rw [pc] at hpc
          cases hpc
      | skip i pc lt =>
          refine ⟨lt, ?_⟩
          simp only [remaining, PoolState.rank, pc, DestructorPc.left, PoolEvent.ofJoin, ↓reduceIte]
          omega
      | done i pc =>
          refine ⟨trivial, ?_⟩
          rw [pc, DestructorPc.joining] at hpc
          simp only [remaining, PoolState.rank, pc, DestructorPc.left, PoolEvent.ofJoin, ↓reduceIte]
          omega
  | join i k pc lt =>
      refine ⟨lt, ?_⟩
      simp only [remaining, PoolState.rank, pc, DestructorPc.left, PoolEvent.ofJoin, ↓reduceIte]
      omega

/-- Nobody stops leaving. -/
theorem step (hs : Leaving size s) (h : s.step size e = some s') : Leaving size s' :=
  ⟨hs.closing.step h, hs.joinable.step h, (hs.remaining_step h).1⟩

/-- At a join the destructor goes on unless the worker is alive. -/
theorem destructor_steps_or_waits (size : PoolSize) {i : ℕ} (hd : s.destructor = .join i) :
    (∃ s', s.step size .destructor = some s') ∨
      ∃ (k : ℕ) (w : WorkerPc τ), s.workers[k]? = some w ∧ w.alive = true := by
  simp only [PoolState.step, destructorStep, hd]
  split_ifs
  · split
    next k slot =>
      cases at_k : s.workers[k]? with
      | none => exact .inl ⟨_, rfl⟩
      | some w =>
          cases halive : w.alive with
          | true => exact .inr ⟨k, w, at_k, halive⟩
          | false => exact .inl ⟨_, if_neg (by simp [halive])⟩
    next => exact .inl ⟨_, rfl⟩
  · exact .inl ⟨_, rfl⟩

/-- Until the destructor returns, a worker or the destructor can take a step. -/
theorem some_steps (hs : Leaving size s) (hpc : s.destructor ≠ .done) :
    ∃ e s', e.ofJoin = true ∧ s.step size e = some s' := by
  have hjoin := hs.joining
  cases hd : s.destructor with
  | notCalled | joinManager | notify =>
      rw [hd] at hjoin
      cases hjoin
  | done => exact absurd hd hpc
  | join i =>
      rcases destructor_steps_or_waits size hd with ⟨s', hs'⟩ | ⟨k, w, at_k, halive⟩
      · exact ⟨.destructor, s', rfl, hs'⟩
      · obtain ⟨s', hs'⟩ := awake_worker_steps size hs.closing.awake at_k halive
        exact ⟨.thread (.worker k), s', rfl, hs'⟩

end Leaving

/-- Unless a worker holds the mutex at the broadcast of the destructor, the destructor returns: some
worker or the destructor itself can take a step until then, and in every interleaving they take no
more steps than the bound. When it has returned, no thread of the pool is left. -/
theorem destructor_returns (h : PoolReachable size s) (pc : s.destructor = .notify)
    (free : s.mutexFree) {es : List (PoolEvent τ)}
    (hrun : run (PoolState.step size) s (.destructor :: es) = some s') :
    es.countP PoolEvent.ofJoin ≤ 3 * s.workers.length + size.maxNum + 1 ∧
      (s'.destructor = .done ∧ s'.manager = .finished ∧ (∀ w ∈ s'.workers, w = .exited) ∨
        s'.destructor ≠ .done ∧ ∃ e s'', e.ofJoin = true ∧ s'.step size e = some s'') := by
  rw [run_cons, step_wakeAll size pc, Option.bind_some] at hrun
  have hwoken : Closing s.notifyAll := Closing.notifyAll (h.shutByDestructor (by simp [pc])) free
  have hleaving : Leaving size { s.notifyAll with destructor := .join 0 } :=
    ⟨⟨hwoken.shutdown, hwoken.awake⟩, h.joinable.step (step_wakeAll size pc), Nat.zero_le _⟩
  have hleaving' : Leaving size s' := run_invariant (fun s e s' hs hs' => hs.step hs') hleaving hrun
  refine ⟨?_, ?_⟩
  · obtain hfalse | hle := reaches_or_count_le (Leaving size) (fun _ => False) PoolEvent.ofJoin
      (remaining size) (fun s e s' hs hs' => ⟨hs.step hs', False.elim⟩)
      (fun s e s' hs hs' _ => (hs.remaining_step hs').2) hleaving hrun
    · exact hfalse.elim
    · have hrank := rank_le s
      have hremaining : remaining size { s.notifyAll with destructor := .join 0 } =
          s.rank + (size.maxNum + 1) := by
        rw [← rank_notifyAll]
        rfl
      omega
  · by_cases hdone : s'.destructor = .done
    · exact .inl ⟨hdone, hleaving'.joinable.nobody_left hdone⟩
    · exact .inr ⟨hdone, hleaving'.some_steps hdone⟩

/-- The worker of a pool is inside `cond.wait` when the destructor is called. -/
theorem destructor_returns_idle :
    ∃ s s' : PoolState ℕ, run (PoolState.step mqSize) (PoolState.init mqSize)
        [.thread (.worker 0), .thread (.worker 0), .destructor, .thread .manager,
          .destructor] = some s ∧
      run (PoolState.step mqSize) s [.destructor, .thread (.worker 0), .destructor, .destructor,
        .destructor, .destructor] = some s' ∧
      5 ≤ 3 * s.workers.length + mqSize.maxNum + 1 ∧
        (s'.destructor = .done ∧ s'.manager = .finished ∧ (∀ w ∈ s'.workers, w = .exited) ∨
          s'.destructor ≠ .done ∧ ∃ e s'', e.ofJoin = true ∧ s'.step mqSize e = some s'') := by
  have hrun : (run (PoolState.step mqSize) (PoolState.init mqSize)
      [.thread (.worker 0), .thread (.worker 0), .destructor, .thread .manager,
        .destructor]).map (fun s : PoolState ℕ => (s.destructor, s.workers,
          (run (PoolState.step mqSize) s [.destructor, .thread (.worker 0), .destructor,
            .destructor, .destructor, .destructor]).map PoolState.shutdown)) =
      some (.notify, [WorkerPc.blocked], some true) := by decide
  obtain ⟨s, hs, hlast⟩ := Option.map_eq_some_iff.mp hrun
  obtain ⟨pc, hlast⟩ := Prod.mk.inj hlast
  obtain ⟨hworkers, hlast⟩ := Prod.mk.inj hlast
  obtain ⟨s', hs', -⟩ := Option.map_eq_some_iff.mp hlast
  have free : s.mutexFree := by simp [PoolState.mutexFree, hworkers, WorkerPc.holdsMutex]
  exact ⟨s, s', hs, hs', destructor_returns ⟨_, _, rfl, hs⟩ pc free hs'⟩

end CsiFirmware.Common
