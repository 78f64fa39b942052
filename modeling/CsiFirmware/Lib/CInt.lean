import Mathlib.Data.List.TakeWhile
import Mathlib.Data.Rat.Cast.Defs
import Mathlib.Tactic.Common
import Mathlib.Tactic.NormNum

/-!
# Conversions to `int`

A C++ `int` of 32 bits as an `Int`, and what the language and its library turn into one: wider
integers, floating-point numbers and decimal text.
-/

namespace CInt

/-- The values of an `int`. -/
def InRange (i : Int) : Prop := -2 ^ 31 ≤ i ∧ i < 2 ^ 31

instance (i : Int) : Decidable (InRange i) := inferInstanceAs (Decidable (_ ∧ _))

/-- What the standard leaves undefined. -/
structure Platform where
  /-- `static_cast<int>` of a floating-point number that is too large. -/
  castOverflow : ℚ → Int
  /-- `std::atoi` of a number that is too large. -/
  atoiOverflow : Int → Int

/-- `static_cast<int>` of a 64-bit integer. -/
def wrap (i : Int) : Int := i.bmod (2 ^ 32)

/-- `static_cast<int>` of a floating-point number: the fraction is dropped. -/
def Platform.castFloat (p : Platform) (q : ℚ) : Int :=
  if InRange (q.num.tdiv q.den) then q.num.tdiv q.den else p.castOverflow q

/-- What fits does not wrap. -/
theorem wrap_of_inRange {i : Int} (h : InRange i) : wrap i = i := by
  obtain ⟨hlow, hhigh⟩ := h
  exact Int.bmod_eq_of_le (by omega) (by omega)

/-- A 64-bit integer becomes an `int` that it differs from by a multiple of `2 ^ 32`. -/
theorem wrap_eq_iff {i k : Int} (hk : InRange k) : wrap i = k ↔ 2 ^ 32 ∣ i - k := by
  constructor
  · rintro rfl
    exact Int.dvd_self_sub_bmod
  · intro hdvd
    have hsame : wrap i = wrap k :=
      Int.bmod_eq_bmod_iff_bmod_sub_eq_zero.mpr (Int.bmod_eq_zero_of_dvd hdvd)
    rw [hsame, wrap_of_inRange hk]

/-- A whole number that fits is not rounded. -/
theorem Platform.castFloat_intCast {p : Platform} {i : Int} (h : InRange i) :
    p.castFloat (i : ℚ) = i := by
  have htrunc : (i : ℚ).num.tdiv (i : ℚ).den = i := by simp
  rw [Platform.castFloat, htrunc, if_pos h]

/-- The value of a hexadecimal digit. -/
def hexDigit (c : Char) : Option ℕ :=
  if '0' ≤ c ∧ c ≤ '9' then some (c.toNat - '0'.toNat)
  else if 'a' ≤ c ∧ c ≤ 'f' then some (c.toNat - 'a'.toNat + 10)
  else if 'A' ≤ c ∧ c ≤ 'F' then some (c.toNat - 'A'.toNat + 10)
  else none

/-! ## Decimal text -/

/-- `std::isspace`. -/
def isSpace (c : Char) : Bool := c ∈ [' ', '\t', '\n', '\x0b', '\x0c', '\r']

/-- An optional sign: whether it is a minus, and what follows it. -/
def sign : List Char → Bool × List Char
  | '-' :: rest => (true, rest)
  | '+' :: rest => (false, rest)
  | text => (false, text)

/-- The number at the beginning of a text in base 10, as `std::strtol` finds it. -/
def strtol (s : String) : Option Int :=
  let (negative, rest) := sign (s.toList.dropWhile isSpace)
  let digits := rest.takeWhile Char.isDigit
  if digits = [] then none
  else
    let n : Int := Nat.ofDigitChars 10 digits 0
    some (if negative then -n else n)

/-- `std::stoi`; an exception is `none`. -/
def stoi (s : String) : Option Int := (strtol s).filter fun i => InRange i

/-- `std::atoi`. -/
def Platform.atoi (p : Platform) (s : String) : Int :=
  match strtol s with
  | none => 0
  | some i => if InRange i then i else p.atoiOverflow i

/-- Decimal text consists of digits. -/
theorem isDigit_of_mem_natRepr {n : ℕ} : ∀ c ∈ n.repr.toList, c.isDigit := by
  intro c hc
  rw [Nat.toList_repr] at hc
  exact Nat.isDigit_of_mem_toDigits (by decide) (by decide) hc

/-- A negative number is its sign and the text of its amount. -/
theorem toList_negSucc (n : ℕ) :
    (toString (Int.negSucc n)).toList = '-' :: (n + 1).repr.toList := by
  show ("-" ++ (n + 1).repr).toList = _
  rw [String.toList_append]
  rfl

/-- `std::to_string` writes digits, and a minus. -/
theorem mem_toString {i : Int} : ∀ c ∈ (toString i).toList, c = '-' ∨ c.isDigit := by
  cases i with
  | ofNat n => exact fun c hc => .inr (isDigit_of_mem_natRepr c hc)
  | negSucc n =>
      intro c hc
      rw [toList_negSucc, List.mem_cons] at hc
      rcases hc with hc | hc
      · exact .inl hc
      · exact .inr (isDigit_of_mem_natRepr c hc)

/-- The codes of the digits. -/
theorem toNat_of_isDigit {c : Char} (h : c.isDigit) : 48 ≤ c.toNat ∧ c.toNat ≤ 57 := by
  simp only [Char.isDigit, ge_iff_le, Bool.and_eq_true, decide_eq_true_eq] at h
  exact h

/-- `std::to_string` writes ASCII characters only. -/
theorem ascii_toString {i : Int} : ∀ c ∈ (toString i).toList, c.toNat < 128 := by
  intro c hc
  rcases mem_toString c hc with rfl | hdigit
  · decide
  · have hcode := toNat_of_isDigit hdigit
    omega

/-! ## Hexadecimal text -/

/-- The number that hexadecimal digits stand for. -/
def hexValue (digits : List Char) : ℕ :=
  digits.foldl (fun n c => n * 16 + (hexDigit c).getD 0) 0

/-- An optional `0x` in front of a hexadecimal digit is passed over. -/
def skipHexPrefix : List Char → List Char
  | '0' :: x :: c :: rest =>
      if (x = 'x' ∨ x = 'X') ∧ (hexDigit c).isSome then c :: rest else '0' :: x :: c :: rest
  | text => text

/-- `std::stoul` in base 16, with an `unsigned long` of so many bits; an exception is `none`. What
follows the digits is ignored, and a minus negates within the type. -/
def stoul (bits : ℕ) (text : List Char) : Option ℕ :=
  let (negative, rest) := sign (text.dropWhile isSpace)
  let digits := (skipHexPrefix rest).takeWhile fun c => (hexDigit c).isSome
  if digits = [] then none
  else if hexValue digits < 2 ^ bits then
    some (if negative then (2 ^ bits - hexValue digits) % 2 ^ bits else hexValue digits)
  else none

/-- A hexadecimal number: digits with an optional `0x` in front of them. -/
inductive HexNumber : List Char → ℕ → Prop where
  | bare (digits : List Char) (ne : digits ≠ []) (h : ∀ c ∈ digits, (hexDigit c).isSome) :
      HexNumber digits (hexValue digits)
  | prefixed (x : Char) (digits : List Char) (hx : x = 'x' ∨ x = 'X') (ne : digits ≠ [])
      (h : ∀ c ∈ digits, (hexDigit c).isSome) : HexNumber ('0' :: x :: digits) (hexValue digits)

/-! ## Digits -/

/-- Every decimal digit is a hexadecimal one. -/
theorem isSome_hexDigit_of_isDigit {c : Char} (h : c.isDigit) : (hexDigit c).isSome := by
  simp only [Char.isDigit, Bool.and_eq_true, decide_eq_true_eq] at h
  rw [hexDigit, if_pos ⟨h.1, h.2⟩]
  rfl

/-- A digit is not skipped as white space. -/
theorem isSpace_of_hexDigit {c : Char} (h : (hexDigit c).isSome) : isSpace c = false := by
  by_contra hspace
  have hspace : isSpace c = true := by simpa using hspace
  simp only [isSpace, List.mem_cons, List.not_mem_nil, or_false, decide_eq_true_eq] at hspace
  rcases hspace with rfl | rfl | rfl | rfl | rfl | rfl <;> cases h

/-- A digit is not taken for a sign. -/
theorem sign_of_hexDigit {c : Char} (h : (hexDigit c).isSome) (rest : List Char) :
    sign (c :: rest) = (false, c :: rest) := by
  unfold sign
  split
  next heq =>
    obtain ⟨rfl, -⟩ := List.cons.inj heq
    cases h
  next heq =>
    obtain ⟨rfl, -⟩ := List.cons.inj heq
    cases h
  next => rfl

/-- Digits stand for numbers below the base. -/
theorem hexDigit_lt {c : Char} {n : ℕ} (h : hexDigit c = some n) : n < 16 := by
  unfold hexDigit at h
  split_ifs at h with h1 h2 h3 <;> obtain rfl := Option.some.inj h
  · have hc : c.toNat ≤ '9'.toNat := h1.2
    have hcode : '9'.toNat = 57 ∧ '0'.toNat = 48 := by decide
    omega
  · have hc : c.toNat ≤ 'f'.toNat := h2.2
    have hcode : 'f'.toNat = 102 ∧ 'a'.toNat = 97 := by decide
    omega
  · have hc : c.toNat ≤ 'F'.toNat := h3.2
    have hcode : 'F'.toNat = 70 ∧ 'A'.toNat = 65 := by decide
    omega

/-- Digits are ASCII characters. -/
theorem ascii_of_hexDigit {c : Char} {n : ℕ} (h : hexDigit c = some n) : c.toNat < 128 := by
  unfold hexDigit at h
  split_ifs at h with h1 h2 h3
  · exact Nat.lt_of_le_of_lt h1.2 (by decide)
  · exact Nat.lt_of_le_of_lt h2.2 (by decide)
  · exact Nat.lt_of_le_of_lt h3.2 (by decide)

/-! ## Decimal text, there and back -/

/-- Digits are read up to the end of the text. -/
theorem takeWhile_natRepr {n : ℕ} : n.repr.toList.takeWhile Char.isDigit = n.repr.toList := by
  rw [List.takeWhile_eq_self_iff]
  exact isDigit_of_mem_natRepr

/-- The head of the decimal text of a natural number. -/
theorem natRepr_eq_cons (n : ℕ) : ∃ c rest, n.repr.toList = c :: rest ∧ c.isDigit := by
  obtain ⟨c, rest, hcons⟩ : ∃ c rest, n.repr.toList = c :: rest := by
    rw [Nat.toList_repr]
    exact List.exists_cons_of_ne_nil Nat.toDigits_ne_nil
  have hmem : c ∈ n.repr.toList := by
    rw [hcons]
    exact List.mem_cons_self
  exact ⟨c, rest, hcons, isDigit_of_mem_natRepr c hmem⟩

/-- Decimal text is read as the number that it writes. -/
theorem strtol_natRepr (n : ℕ) : strtol n.repr = some (n : Int) := by
  obtain ⟨c, rest, hcons, hdigit⟩ := natRepr_eq_cons n
  have hhex := isSome_hexDigit_of_isDigit hdigit
  have hdrop : n.repr.toList.dropWhile isSpace = n.repr.toList := by
    rw [hcons, List.dropWhile_cons_of_neg (by simp [isSpace_of_hexDigit hhex])]
  have hsign : sign n.repr.toList = (false, n.repr.toList) := by
    rw [hcons, sign_of_hexDigit hhex]
  have hne : n.repr.toList ≠ [] := by simp [hcons]
  rw [strtol, hdrop, hsign]
  simp only [takeWhile_natRepr, hne, ↓reduceIte, Bool.false_eq_true]
  rw [Nat.toList_repr, Nat.ofDigitChars_ten_toDigits]

/-- `std::to_string` and back, for every integer. -/
theorem strtol_toString (i : Int) : strtol (toString i) = some i := by
  cases i with
  | ofNat n => exact strtol_natRepr n
  | negSucc n =>
      have hne : (n + 1).repr.toList ≠ [] := by
        obtain ⟨c, rest, hcons, -⟩ := natRepr_eq_cons (n + 1)
        simp [hcons]
      rw [strtol, toList_negSucc, List.dropWhile_cons_of_neg (by decide)]
      simp only [sign, takeWhile_natRepr, hne, ↓reduceIte]
      rw [Nat.toList_repr, Nat.ofDigitChars_ten_toDigits]
      rfl

/-- `stoi` reads back what `to_string` writes. -/
theorem stoi_toString {i : Int} (h : InRange i) : stoi (toString i) = some i := by
  rw [stoi, strtol_toString, Option.filter_some_pos (by simpa using h)]

/-- On any platform `atoi` reads what `std::to_string` writes, for numbers that fit. -/
theorem Platform.atoi_toString {p : Platform} {i : Int} (h : InRange i) :
    p.atoi (toString i) = i := by
  rw [Platform.atoi, strtol_toString]
  exact if_pos h

/-! ## Hexadecimal text that is a number -/

/-- Digits without a prefix are not taken for one. -/
theorem skipHexPrefix_of_digits {digits : List Char} (h : ∀ c ∈ digits, (hexDigit c).isSome) :
    skipHexPrefix digits = digits := by
  unfold skipHexPrefix
  split
  next x c rest =>
    have hx : (hexDigit x).isSome := h x (by simp)
    refine if_neg ?_
    rintro ⟨rfl | rfl, -⟩ <;> cases hx
  next => rfl

/-- A text that begins with a hexadecimal digit has neither space nor sign. -/
theorem stoul_of_hexDigit {bits : ℕ} {c : Char} {rest digits : List Char}
    (hc : (hexDigit c).isSome) (hskip : skipHexPrefix (c :: rest) = digits) (hne : digits ≠ [])
    (h : ∀ c ∈ digits, (hexDigit c).isSome) (hlt : hexValue digits < 2 ^ bits) :
    stoul bits (c :: rest) = some (hexValue digits) := by
  have htake : digits.takeWhile (fun c => (hexDigit c).isSome) = digits :=
    List.takeWhile_eq_self_iff.mpr h
  rw [stoul, List.dropWhile_cons_of_neg (by simp [isSpace_of_hexDigit hc]), sign_of_hexDigit hc]
  simp only [hskip, htake, hne, hlt, ↓reduceIte, Bool.false_eq_true]

/-- A hexadecimal number that fits is read as such. -/
theorem HexNumber.stoul_eq {bits n : ℕ} {text : List Char} (h : HexNumber text n)
    (hlt : n < 2 ^ bits) : stoul bits text = some n := by
  cases h with
  | bare _ ne h =>
      obtain ⟨c, rest, rfl⟩ := List.exists_cons_of_ne_nil ne
      exact stoul_of_hexDigit (h c List.mem_cons_self) (skipHexPrefix_of_digits h) ne h hlt
  | prefixed x digits hx ne h =>
      obtain ⟨c, rest, rfl⟩ := List.exists_cons_of_ne_nil ne
      have hc : (hexDigit c).isSome := h c List.mem_cons_self
      exact stoul_of_hexDigit (by decide) (if_pos ⟨hx, hc⟩) ne h hlt

/-- A number has a digit. -/
theorem HexNumber.ne_nil {n : ℕ} {text : List Char} (h : HexNumber text n) : text ≠ [] := by
  cases h with
  | bare _ ne h => exact ne
  | prefixed x digits => exact List.cons_ne_nil _ _

/-- A hexadecimal number has no comma. -/
theorem HexNumber.comma_not_mem {n : ℕ} {text : List Char} (h : HexNumber text n) :
    ',' ∉ text := by
  have hdigits {digits : List Char} (h : ∀ c ∈ digits, (hexDigit c).isSome) : ',' ∉ digits := by
    intro hmem
    have hcomma := h ',' hmem
    cases hcomma
  cases h with
  | bare _ ne h => exact hdigits h
  | prefixed x digits hx ne h =>
      have hne := hdigits h
      rcases hx with rfl | rfl <;> simp [hne]

end CInt
