import Mathlib.Data.BitVec

/-!
# Words changed under masks

Flag registers are changed by clearing the bits of a mask (`x &= ~m`) and raising them (`x |= m`).
`Touches m f` says that `f` changes bits under `m` only. Such functions compose, with the union of
their masks, and whatever is read outside the mask is framed (`Touches.read`).
-/

namespace CsiFirmware.MaskedWord

variable {w : ℕ} {m m' r x y z : BitVec w} {f g : BitVec w → BitVec w}

/-- `x &= ~m`. -/
def clear (m x : BitVec w) : BitVec w := x &&& ~~~m

/-- `x |= m`. -/
def raise (m x : BitVec w) : BitVec w := x ||| m

/-! ## What is read back -/

/-- Within the cleared bits everything reads zero. -/
theorem clear_read (h : m &&& r = r) (x : BitVec w) : clear m x &&& r = 0 := by
  rw [clear, BitVec.and_assoc, ← h, ← BitVec.and_assoc (~~~m)]
  simp

/-- Within the raised bits a constant reads as itself. -/
theorem raise_read (h : m &&& r = r) (x : BitVec w) : raise m x &&& r = r := by
  ext i hi
  have hbit := congrArg (·[i]) h
  simp only [BitVec.getElem_and] at hbit
  simp only [raise, BitVec.getElem_and, BitVec.getElem_or]
  cases hr : r[i] <;> simp_all

/-- Clearing a field and raising bits in it assigns the field. -/
theorem raise_clear_read (v m x : BitVec w) : raise v (clear m x) &&& m = v &&& m := by
  ext i hi
  simp only [raise, clear, BitVec.getElem_and, BitVec.getElem_or, BitVec.getElem_not]
  cases m[i] <;> simp

/-- No bit lies outside the mask. -/
theorem and_eq_self_iff (x m : BitVec w) : x &&& m = x ↔ x &&& ~~~m = 0 := by
  constructor
  · intro h
    rw [← h, BitVec.and_assoc]
    simp
  · intro h
    ext i hi
    have hbit := congrArg (·[i]) h
    simp only [BitVec.getElem_and, BitVec.getElem_not] at hbit
    rw [BitVec.getElem_and]
    cases hm : m[i] <;> simp_all

/-! ## Agreement -/

/-- Outside the mask, the bits are the same. -/
def AgreeOff (m x y : BitVec w) : Prop := ∀ i, m.getLsbD i = false → x.getLsbD i = y.getLsbD i

/-- A word agrees with itself. -/
theorem AgreeOff.refl (m x : BitVec w) : AgreeOff m x x := fun _ _ => rfl

/-- Agreement is passed on. -/
theorem AgreeOff.trans (h : AgreeOff m x y) (h' : AgreeOff m y z) : AgreeOff m x z :=
  fun i hi => (h i hi).trans (h' i hi)

/-- Two changes, each under its own mask. -/
theorem AgreeOff.trans_or (h : AgreeOff m x y) (h' : AgreeOff m' y z) :
    AgreeOff (m ||| m') x z := by
  intro i hi
  rw [BitVec.getLsbD_or, Bool.or_eq_false_iff] at hi
  exact (h i hi.1).trans (h' i hi.2)

/-- Words that agree off some bits agree off more. -/
theorem AgreeOff.mono (h : AgreeOff m x y) (hle : m &&& m' = m) : AgreeOff m' x y := by
  intro i hi
  refine h i ?_
  rw [← hle, BitVec.getLsbD_and, hi, Bool.and_false]

/-- The bits under a mask that is disjoint from the changed ones are read as before. -/
theorem AgreeOff.read (h : AgreeOff m x y) (hdisj : m &&& r = 0) : x &&& r = y &&& r := by
  apply BitVec.eq_of_getLsbD_eq
  intro i _
  have hbit := congrArg (BitVec.getLsbD · i) hdisj
  simp only [BitVec.getLsbD_and] at hbit
  rw [BitVec.getLsbD_and, BitVec.getLsbD_and]
  cases hm : m.getLsbD i with
  | false => rw [h i hm]
  | true =>
      have hr : r.getLsbD i = false := by simpa [hm] using hbit
      rw [hr, Bool.and_false, Bool.and_false]

/-! ## Functions that change some bits only -/

/-- `f` changes bits under the mask only. -/
def Touches (m : BitVec w) (f : BitVec w → BitVec w) : Prop := ∀ x, AgreeOff m (f x) x

/-- Clearing changes the bits of its mask only. -/
theorem touches_clear (m : BitVec w) : Touches m (clear m) := by
  intro x i hi
  rcases Nat.lt_or_ge i w with hlt | hge
  · rw [clear, BitVec.getLsbD_and, BitVec.getLsbD_not, hi]
    simp [hlt]
  · rw [BitVec.getLsbD_of_ge _ _ hge, BitVec.getLsbD_of_ge _ _ hge]

/-- Raising changes the bits of its mask only. -/
theorem touches_raise (m : BitVec w) : Touches m (raise m) := by
  intro x i hi
  rw [raise, BitVec.getLsbD_or, hi, Bool.or_false]

/-- A function that changes some bits only changes those of a larger mask only. -/
theorem Touches.mono (h : Touches m f) (hle : m &&& m' = m) : Touches m' f :=
  fun x => (h x).mono hle

/-- One after the other. -/
theorem Touches.comp (hf : Touches m f) (hg : Touches m g) : Touches m fun x => f (g x) :=
  fun x => (hf (g x)).trans (hg x)

/-- The bits under a mask that is disjoint from the touched ones are read as before. -/
theorem Touches.read (h : Touches m f) (hdisj : m &&& r = 0) (x : BitVec w) : f x &&& r = x &&& r :=
  (h x).read hdisj

end CsiFirmware.MaskedWord
