import Mathlib.Data.List.GetD
import Mathlib.Logic.Function.Iterate

/-!
# Shift registers

A register of `w` bits takes in a string of bits, one at a time: each is added at the low end, and
the register moves to the right, with a polynomial added if a one falls out. A polynomial with its
highest bit set lets nothing get lost, so the register tells apart what it took in: two strings of
the same length that differ within `w` bits in a row leave different registers behind.
-/

namespace ShiftRegister

variable {w : ℕ} {poly : BitVec w}

/-! ## Turns -/

/-- The register moves to the right, and the polynomial is added if a one falls out. -/
def turn (poly x : BitVec w) : BitVec w := if x.getLsbD 0 then (x >>> 1) ^^^ poly else x >>> 1

/-- Each bit moves one place down, and the polynomial is added where a one falls out. -/
theorem getLsbD_turn (x : BitVec w) (i : ℕ) :
    (turn poly x).getLsbD i = (x.getLsbD (i + 1) ^^ (x.getLsbD 0 && poly.getLsbD i)) := by
  unfold turn
  split
  next hbit => simp [hbit, Nat.add_comm]
  next hbit => simp [hbit, Nat.add_comm]

/-- Nothing falls out of an empty register. -/
theorem turn_zero : turn poly 0#w = 0#w := by
  apply BitVec.eq_of_getLsbD_eq
  intro i _
  simp [getLsbD_turn]

/-- The register is linear. -/
theorem turn_xor (x y : BitVec w) : turn poly (x ^^^ y) = turn poly x ^^^ turn poly y := by
  apply BitVec.eq_of_getLsbD_eq
  intro i _
  simp only [getLsbD_turn, BitVec.getLsbD_xor]
  cases x.getLsbD 0 <;> cases y.getLsbD 0 <;> cases poly.getLsbD i <;> simp

section Injective

variable (hpoly : poly.msb = true)
include hpoly

/-- The highest bit of the polynomial shows what fell out. -/
theorem eq_zero_of_turn_eq_zero {x : BitVec w} (h : turn poly x = 0#w) : x = 0#w := by
  have hbits (i : ℕ) : (x.getLsbD (i + 1) ^^ (x.getLsbD 0 && poly.getLsbD i)) = false := by
    rw [← getLsbD_turn, h, BitVec.getLsbD_zero]
  have hhigh : poly.getLsbD (w - 1) = true := by
    rw [← hpoly, BitVec.msb_eq_getLsbD_last]
  have hout : x.getLsbD 0 = false := by
    -- nothing moves into the highest place, so the polynomial alone decides its bit
    have hlast := hbits (w - 1)
    rw [BitVec.getLsbD_of_ge x (w - 1 + 1) (by omega), hhigh] at hlast
    simpa using hlast
  apply BitVec.eq_of_getLsbD_eq
  intro i _
  rw [BitVec.getLsbD_zero]
  cases i with
  | zero => exact hout
  | succ i => simpa [hout] using hbits i

/-- The register before a turn can be told from the one after it. -/
theorem turn_injective : Function.Injective (turn poly) := by
  intro x y h
  have hxor : turn poly (x ^^^ y) = 0#w := by
    rw [turn_xor, h]
    exact BitVec.xor_self
  exact BitVec.xor_eq_zero_iff.mp (eq_zero_of_turn_eq_zero hpoly hxor)

/-- Turns do not empty a register. -/
theorem iterate_turn_eq_zero_iff {n : ℕ} {x : BitVec w} : (turn poly)^[n] x = 0#w ↔ x = 0#w := by
  have hzero : (turn poly)^[n] 0#w = 0#w := Function.iterate_fixed turn_zero n
  constructor
  · intro h
    exact (turn_injective hpoly).iterate n (h.trans hzero.symm)
  · rintro rfl
    exact hzero

end Injective

/-! ## Strings of bits -/

/-- A string of bits in a register, the first one lowest. -/
def load (w : ℕ) (bits : List Bool) : BitVec w := (BitVec.ofBoolListLE bits).setWidth w

/-- Bit `i` of the string stands at place `i`. -/
theorem getLsbD_load (bits : List Bool) (i : ℕ) :
    (load w bits).getLsbD i = (decide (i < w) && bits.getD i false) := by
  rw [load, BitVec.getLsbD_setWidth, BitVec.getLsbD_ofBoolListLE]

/-- Strings of the same length that fit are told apart. -/
theorem load_injective {bits bits' : List Bool} (hlength : bits.length = bits'.length)
    (hfits : bits.length ≤ w) (h : load w bits = load w bits') : bits = bits' := by
  apply List.ext_getElem hlength
  intro i hi hi'
  have hbit := congrArg (fun x : BitVec w => x.getLsbD i) h
  have hlt : i < w := by omega
  simp only [getLsbD_load, hlt, decide_true, Bool.true_and] at hbit
  rwa [List.getD_eq_getElem _ _ hi, List.getD_eq_getElem _ _ hi'] at hbit

/-- The first bit stands below the others. -/
theorem load_cons (bit : Bool) (bits : List Bool) :
    load w (bit :: bits) = load w [bit] ^^^ load w bits <<< 1 := by
  apply BitVec.eq_of_getLsbD_eq
  intro i hi
  simp only [BitVec.getLsbD_xor, BitVec.getLsbD_shiftLeft, getLsbD_load]
  cases i with
  | zero => simp
  | succ i =>
      have hlt : i < w := Nat.lt_of_succ_lt hi
      simp [hi, hlt]

/-- Bits that leave the highest place free are moved back by a turn. -/
theorem turn_load_shiftLeft {bits : List Bool} (hfits : bits.length < w) :
    turn poly (load w bits <<< 1) = load w bits := by
  apply BitVec.eq_of_getLsbD_eq
  intro i hi
  simp only [getLsbD_turn, BitVec.getLsbD_shiftLeft, getLsbD_load]
  by_cases hw : i + 1 < w
  · simp [hw, hi]
  · have hlast : bits.length ≤ i := by omega
    simp [hw, hlast]

/-! ## Bursts -/

section Bursts

variable {bits bits' : List Bool} {k n : ℕ}

/-- A string cut where a window of `n` bits begins and where it ends. -/
theorem eq_take_append_window (bits : List Bool) (k n : ℕ) :
    bits = bits.take k ++ ((bits.drop k).take n ++ bits.drop (k + n)) := by
  rw [← List.drop_drop, List.take_append_drop, List.take_append_drop]

/-- Before the window the strings agree. -/
theorem take_eq_of_burst (hburst : ∀ i, bits[i]? ≠ bits'[i]? → k ≤ i ∧ i < k + n) :
    bits.take k = bits'.take k := by
  apply List.ext_getElem?
  intro i
  by_cases hi : i < k
  · by_contra hdiffer
    rw [List.getElem?_take_of_lt hi, List.getElem?_take_of_lt hi] at hdiffer
    have hwindow := hburst i hdiffer
    omega
  · simp only [List.getElem?_take, hi, ↓reduceIte]

/-- Behind the window the strings agree. -/
theorem drop_eq_of_burst (hburst : ∀ i, bits[i]? ≠ bits'[i]? → k ≤ i ∧ i < k + n) :
    bits.drop (k + n) = bits'.drop (k + n) := by
  apply List.ext_getElem?
  intro i
  by_contra hdiffer
  rw [List.getElem?_drop, List.getElem?_drop] at hdiffer
  have hwindow := hburst (k + n + i) hdiffer
  omega

end Bursts

/-! ## Runs -/

/-- A bit is added at the low end, and the register turns. -/
def feed (poly x : BitVec w) (bit : Bool) : BitVec w := turn poly (x ^^^ load w [bit])

/-- A string that fits into the register can be added at once. -/
theorem foldl_feed {bits : List Bool} (hfits : bits.length ≤ w) (x : BitVec w) :
    bits.foldl (feed poly) x = (turn poly)^[bits.length] (x ^^^ load w bits) := by
  induction bits generalizing x with
  | nil =>
      have hempty : load w [] = 0#w := by
        apply BitVec.eq_of_getLsbD_eq
        intro i _
        simp [getLsbD_load]
      rw [hempty]
      exact BitVec.xor_zero.symm
  | cons bit bits ih =>
      rw [List.length_cons] at hfits
      -- the turn of the first bit moves the others into place
      have hturn : turn poly (x ^^^ load w (bit :: bits)) = feed poly x bit ^^^ load w bits := by
        rw [load_cons, ← BitVec.xor_assoc, turn_xor, turn_load_shiftLeft (by omega), feed]
      rw [List.foldl_cons, ih (by omega), List.length_cons, Function.iterate_succ_apply, hturn]

section Runs

variable (hpoly : poly.msb = true)
include hpoly

/-- A string empties the register if it is the content of the register. -/
theorem foldl_feed_eq_zero_iff {bits : List Bool} (hfits : bits.length ≤ w) {x : BitVec w} :
    bits.foldl (feed poly) x = 0#w ↔ x = load w bits := by
  rw [foldl_feed hfits, iterate_turn_eq_zero_iff hpoly, BitVec.xor_eq_zero_iff]

/-- What follows does not make registers equal. -/
theorem foldl_feed_injective (bits : List Bool) :
    Function.Injective fun x => bits.foldl (feed poly) x := by
  induction bits with
  | nil => exact fun x y h => h
  | cons bit bits ih =>
      intro x y h
      have hfeed : feed poly x bit = feed poly y bit := ih h
      have hxor : x ^^^ load w [bit] = y ^^^ load w [bit] := turn_injective hpoly hfeed
      exact (BitVec.xor_left_inj _).mp hxor

/-- Different strings that fit into the register make it different. -/
theorem foldl_feed_eq_iff {bits bits' : List Bool} (hlength : bits.length = bits'.length)
    (hfits : bits.length ≤ w) (x : BitVec w) :
    bits.foldl (feed poly) x = bits'.foldl (feed poly) x ↔ bits = bits' := by
  constructor
  · intro h
    rw [foldl_feed hfits, foldl_feed (hlength ▸ hfits), ← hlength] at h
    have hxor := (turn_injective hpoly).iterate _ h
    exact load_injective hlength hfits ((BitVec.xor_right_inj x).mp hxor)
  · rintro rfl
    rfl

/-- Strings of the same length that differ, within `w` bits in a row, leave different registers. -/
theorem foldl_feed_ne_of_burst {bits bits' : List Bool} {k : ℕ}
    (hlength : bits.length = bits'.length) (hne : bits ≠ bits')
    (hburst : ∀ i, bits[i]? ≠ bits'[i]? → k ≤ i ∧ i < k + w) (x : BitVec w) :
    bits.foldl (feed poly) x ≠ bits'.foldl (feed poly) x := by
  intro heq
  rw [eq_take_append_window bits k w, eq_take_append_window bits' k w, take_eq_of_burst hburst,
    drop_eq_of_burst hburst] at heq
  simp only [List.foldl_append] at heq
  have hwindow := foldl_feed_injective hpoly _ heq
  rw [foldl_feed_eq_iff hpoly (by simp [hlength]) (List.length_take_le _ _)] at hwindow
  apply hne
  rw [eq_take_append_window bits k w, eq_take_append_window bits' k w, take_eq_of_burst hburst,
    drop_eq_of_burst hburst, hwindow]

end Runs

end ShiftRegister
