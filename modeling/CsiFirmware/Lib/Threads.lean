import Mathlib.Algebra.GroupWithZero.Nat
import Mathlib.Data.List.Perm.Subperm
import Mathlib.Tactic.Common

/-!
# Threads as a list

The threads of a program are a list of local states, numbered in the order in which they were
started. A step of one thread is a `set`, a broadcast is a `map`, and a start appends.

`All` is a predicate on every thread that may depend on its number, with one rule for each of these.
`countP_set_add` says how a step changes the number of threads at a set of program points, and
`sum_map_set_add` how it changes a measure.
-/

namespace CsiFirmware.Threads

variable {τ υ : Type*} {P Q : ℕ → τ → Prop} {l : List τ} {i j : ℕ} {x y a : τ}

/-- What is found in the list after a step of thread `i`. -/
theorem lookup_set (h : (l.set i a)[j]? = some y) : (j = i ∧ y = a) ∨ (j ≠ i ∧ l[j]? = some y) := by
  rw [List.getElem?_set] at h
  split at h
  next hij =>
    split at h
    · exact .inl ⟨hij.symm, (Option.some.inj h).symm⟩
    · cases h
  next hij => exact .inr ⟨fun hji => hij hji.symm, h⟩

/-- What was put there is found there. -/
theorem lookup_set_self (h : l[i]? = some x) : (l.set i a)[i]? = some a := by
  obtain ⟨hi, -⟩ := List.getElem?_eq_some_iff.mp h
  rw [List.getElem?_set_self hi]

/-- A write leaves the other places as they were. -/
theorem lookup_set_of_ne (hij : j ≠ i) : (l.set i a)[j]? = l[j]? :=
  List.getElem?_set_ne hij.symm

/-- A thread is still in the list after a step of thread `i`, unless it is thread `i`. -/
theorem mem_set_or (h : x ∈ l) : x ∈ l.set i a ∨ l[i]? = some x := by
  obtain ⟨j, hj⟩ := List.mem_iff_getElem?.mp h
  by_cases hji : j = i
  · exact .inr (hji ▸ hj)
  · exact .inl (List.mem_of_getElem? ((lookup_set_of_ne hji).trans hj))

/-- What was put somewhere is in the list. -/
theorem mem_set_self (h : l[i]? = some x) : a ∈ l.set i a :=
  List.mem_of_getElem? (lookup_set_self h)

/-- What is found in the list after a thread is started. -/
theorem lookup_concat (h : (l ++ [a])[j]? = some y) : l[j]? = some y ∨ (j = l.length ∧ y = a) := by
  rw [List.getElem?_append] at h
  split at h
  · exact .inl h
  next hj =>
    obtain ⟨hlt, hy⟩ := List.getElem?_eq_some_iff.mp h
    have hj' : j - l.length = 0 := by simpa using hlt
    exact .inr ⟨by omega, by simpa [hj'] using hy.symm⟩

/-- What is added at the end moves nothing. -/
theorem lookup_concat_left (h : l[j]? = some y) : (l ++ [a])[j]? = some y := by
  obtain ⟨hj, -⟩ := List.getElem?_eq_some_iff.mp h
  rw [List.getElem?_append_left hj, h]

/-! ## Predicates on every thread -/

/-- Every thread satisfies `P`, which may depend on its number. -/
def All (P : ℕ → τ → Prop) (l : List τ) : Prop := ∀ i x, l[i]? = some x → P i x

@[simp] theorem all_nil : All P [] := fun i x h => by simp at h

/-- A weaker predicate. -/
theorem All.mono (h : All P l) (hPQ : ∀ i x, l[i]? = some x → P i x → Q i x) : All Q l :=
  fun i x hx => hPQ i x hx (h i x hx)

/-- A step of thread `i`, when the predicate changes for the other threads too. -/
theorem all_set (hother : ∀ j x, j ≠ i → l[j]? = some x → Q j x) (ha : Q i a) :
    All Q (l.set i a) := by
  intro j y hy
  rcases lookup_set hy with ⟨rfl, rfl⟩ | ⟨hne, hy⟩
  · exact ha
  · exact hother j y hne hy

/-- One place is replaced. -/
theorem All.set (h : All P l) (ha : P i a) : All P (l.set i a) :=
  all_set (fun j x _ hx => h j x hx) ha

/-- One place is added at the end. -/
theorem All.concat (h : All P l) (ha : P l.length a) : All P (l ++ [a]) := by
  intro j y hy
  rcases lookup_concat hy with hy | ⟨rfl, rfl⟩
  · exact h j y hy
  · exact ha

/-- A predicate on the images. -/
theorem all_map {f : υ → τ} {l : List υ} (h : All (fun i x => P i (f x)) l) : All P (l.map f) := by
  intro j y hy
  rw [List.getElem?_map] at hy
  obtain ⟨x, hx, rfl⟩ := Option.map_eq_some_iff.mp hy
  exact h j x hx

/-! ## Counting threads -/

/-- A step of one thread moves it out of the count where it was and into the count where it is. -/
theorem countP_set_add (p : τ → Bool) (h : l[i]? = some x) :
    (l.set i a).countP p + (if p x then 1 else 0) = l.countP p + (if p a then 1 else 0) := by
  obtain ⟨hi, hx⟩ := List.getElem?_eq_some_iff.mp h
  have hpos : p x → 0 < l.countP p := fun hp =>
    List.countP_pos_iff.mpr ⟨x, List.mem_of_getElem? h, hp⟩
  rw [List.countP_set hi, hx]
  split
  next hp =>
    have := hpos hp
    omega
  · omega

/-- A step of one thread changes the total of a measure as it changes that of the thread. -/
theorem sum_map_set_add (f : τ → ℕ) (h : l[i]? = some x) :
    ((l.set i a).map f).sum + f x = (l.map f).sum + f a := by
  induction l generalizing i with
  | nil => cases h
  | cons y l ih =>
      cases i with
      | zero =>
          obtain rfl : y = x := by simpa using h
          simp only [List.set_cons_zero, List.map_cons, List.sum_cons]
          omega
      | succ i =>
          have hsum := ih (i := i) (by simpa using h)
          simp only [List.set_cons_succ, List.map_cons, List.sum_cons]
          omega

/-- Numbers of threads with the property `p`, as many as there are such threads, are all of them. -/
theorem mem_of_countP_le {p : τ → Bool} {is : List ℕ} (hnodup : is.Nodup)
    (his : ∀ i ∈ is, ∃ x, l[i]? = some x ∧ p x) (hle : l.countP p ≤ is.length)
    (hj : l[j]? = some x) (hp : p x) : j ∈ is := by
  have hmem : ∀ {i y}, l[i]? = some y → p y → i ∈ l.findIdxs p := by
    intro i y hy hpy
    obtain ⟨hi, rfl⟩ := List.getElem?_eq_some_iff.mp hy
    exact List.mem_findIdxs_iff_exists_getElem_pos.mpr ⟨hi, hpy⟩
  have hsub : is ⊆ l.findIdxs p := fun i hi => by
    obtain ⟨y, hy, hpy⟩ := his i hi
    exact hmem hy hpy
  have hperm : is.Perm (l.findIdxs p) :=
    (List.subperm_of_subset hnodup hsub).perm_of_length_le (by rwa [List.length_findIdxs])
  exact hperm.mem_iff.mpr (hmem hj hp)

end CsiFirmware.Threads
