import Mathlib.Data.Nat.Bitwise
import Mathlib.Tactic.Ring

/-!
# Big-endian byte strings

`value` reads a byte string as a base-256 numeral, most significant byte first, and `bytes n x`
writes the low `n` bytes of `x`. `value_bytes` is the round trip. `shiftLeft_or_byte` connects the
shift-and-or form in which programs assemble such numbers.
-/

namespace CsiFirmware.BigEndian

/-- The number a byte string denotes, most significant byte first. -/
def value (bs : List UInt8) : ℕ := bs.foldl (fun acc b => acc * 256 + b.toNat) 0

/-- The low `n` bytes of `x`, most significant byte first. -/
def bytes : ℕ → ℕ → List UInt8
  | 0, _ => []
  | n + 1, x => UInt8.ofNat (x / 256 ^ n) :: bytes n x

@[simp] theorem value_nil : value [] = 0 := rfl

@[simp] theorem length_bytes (n x : ℕ) : (bytes n x).length = n := by
  induction n with
  | zero => rfl
  | succ n ih => rw [bytes, List.length_cons, ih]

/-- Digits that come later move what has been read to the left. -/
private theorem foldl_value (bs : List UInt8) (acc : ℕ) :
    bs.foldl (fun acc b => acc * 256 + b.toNat) acc = acc * 256 ^ bs.length + value bs := by
  induction bs generalizing acc with
  | nil => simp
  | cons b bs ih =>
      rw [List.foldl_cons, ih, List.length_cons, show value (b :: bs) =
        bs.foldl (fun acc b => acc * 256 + b.toNat) (0 * 256 + b.toNat) from rfl, ih]
      ring

/-- The first byte is the highest digit. -/
theorem value_cons (b : UInt8) (bs : List UInt8) :
    value (b :: bs) = b.toNat * 256 ^ bs.length + value bs := by
  rw [value, List.foldl_cons, foldl_value, Nat.zero_mul, Nat.zero_add]

/-- `n` bytes hold less than `256 ^ n`. -/
theorem value_lt (bs : List UInt8) : value bs < 256 ^ bs.length := by
  induction bs with
  | nil => simp
  | cons b bs ih =>
      have hb : b.toNat + 1 ≤ 256 := b.toNat_lt
      calc value (b :: bs) = b.toNat * 256 ^ bs.length + value bs := value_cons b bs
        _ < b.toNat * 256 ^ bs.length + 256 ^ bs.length := by omega
        _ = (b.toNat + 1) * 256 ^ bs.length := by ring
        _ ≤ 256 * 256 ^ bs.length := Nat.mul_le_mul_right _ hb
        _ = 256 ^ (b :: bs).length := by rw [List.length_cons, pow_succ]; ring

/-- Writing a number into `n` bytes and reading it back keeps it modulo `256 ^ n`. -/
theorem value_bytes (n x : ℕ) : value (bytes n x) = x % 256 ^ n := by
  induction n with
  | zero => simp [bytes, Nat.mod_one]
  | succ n ih =>
      rw [bytes, value_cons, length_bytes, ih, pow_succ, Nat.mod_mul, UInt8.toNat_ofNat']
      ring

/-- Shifting by a byte and adding the next one by `|` is multiplying by 256 and adding. -/
theorem shiftLeft_or_byte (x : ℕ) (b : UInt8) : x <<< 8 ||| b.toNat = x * 256 + b.toNat := by
  rw [← Nat.shiftLeft_add_eq_or_of_lt (i := 8) b.toNat_lt, Nat.shiftLeft_eq]

end CsiFirmware.BigEndian
