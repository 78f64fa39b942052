import CsiFirmware.Nlohmann.ScanNumber

/-!
# Integers that the JSON library writes

Reference: `nlohmann::detail::serializer::dump_integer`.
-/

namespace CsiFirmware.Nlohmann

open CInt JsonText

/-- `digits_to_99`. -/
def digitsTo99 (n : ℕ) : List Char := [Nat.digitChar (n / 10), Nat.digitChar (n % 10)]

/-- The loop of `dump_integer`, from the last digits to the first. The digits are counted before it
to find where the text begins. -/
def dumpDigits (absValue : ℕ) (buffer : List Char) : List Char :=
  if 100 ≤ absValue then dumpDigits (absValue / 100) (digitsTo99 (absValue % 100) ++ buffer)
  else if 10 ≤ absValue then digitsTo99 absValue ++ buffer
  else Nat.digitChar absValue :: buffer
termination_by absValue

/-- `dump_integer`. -/
def dumpInteger (x : Int) : List Char :=
  if x = 0 then ['0']
  else if x < 0 then '-' :: dumpDigits x.natAbs []
  else dumpDigits x.natAbs []

/-- The loop writes the decimal digits in front of what is there. -/
theorem dumpDigits_eq (n : ℕ) (buffer : List Char) :
    dumpDigits n buffer = Nat.toDigits 10 n ++ buffer := by
  fun_induction dumpDigits n buffer with
  | case1 n buffer h ih =>
      have hdigits : Nat.toDigits 10 n = Nat.toDigits 10 (n / 100) ++ digitsTo99 (n % 100) := by
        have hdiv : n / 10 / 10 = n / 100 := Nat.div_div_eq_div_mul n 10 10
        have htens : n / 10 % 10 = n % 100 / 10 := by omega
        have hones : n % 10 = n % 100 % 10 := by omega
        rw [Nat.toDigits_of_base_le (by decide) (by omega),
          Nat.toDigits_of_base_le (n := n / 10) (by decide) (by omega), hdiv, htens, hones,
          List.append_assoc]
        rfl
      rw [ih, hdigits, List.append_assoc]
  | case2 n buffer _ h =>
      rw [Nat.toDigits_of_base_le (by decide) h, Nat.toDigits_of_lt_base (by omega)]
      rfl
  | case3 n buffer _ h =>
      rw [Nat.toDigits_of_lt_base (by omega)]
      rfl

/-- An integer is written as `std::to_string` writes it. -/
theorem dumpInteger_eq (x : Int) : dumpInteger x = (toString x).toList := by
  unfold dumpInteger
  cases x with
  | ofNat n =>
      have htext : (toString (Int.ofNat n)).toList = Nat.toDigits 10 n := by
        rw [← Nat.toList_repr]
        rfl
      rw [htext]
      split_ifs with hzero hneg
      · obtain rfl : n = 0 := Int.ofNat.inj hzero
        rw [Nat.toDigits_zero]
      · exact absurd hneg (Int.not_lt.mpr (Int.natCast_nonneg n))
      · rw [dumpDigits_eq, List.append_nil]
        rfl
  | negSucc n =>
      rw [toList_negSucc, if_neg (by omega), if_pos (by omega), dumpDigits_eq, List.append_nil,
        Nat.toList_repr]
      rfl

/-- No superfluous zero. -/
theorem head?_toDigits {n : ℕ} (h : 0 < n) : (Nat.toDigits 10 n).head? ≠ some '0' := by
  induction n using Nat.strong_induction_on with
  | _ n ih =>
    by_cases hlt : n < 10
    · rw [Nat.toDigits_of_lt_base hlt]
      have hall : ∀ n < 10, 0 < n → [Nat.digitChar n].head? ≠ some '0' := by decide
      exact hall n hlt h
    · rw [Nat.toDigits_of_base_le (by decide) (by omega),
        List.head?_append_of_ne_nil _ Nat.toDigits_ne_nil]
      exact ih (n / 10) (by omega) (by omega)

/-- The digits of a natural number are the whole part of a number of JSON. -/
theorem whole_natRepr (n : ℕ) :
    n.repr.toList = ['0'] ∨ Digits n.repr.toList ∧ n.repr.toList.head? ≠ some '0' := by
  by_cases hzero : n = 0
  · subst hzero
    exact .inl rfl
  · have hne : n.repr.toList ≠ [] := by
      rw [Nat.toList_repr]
      exact Nat.toDigits_ne_nil
    refine .inr ⟨⟨hne, isDigit_of_mem_natRepr⟩, ?_⟩
    rw [Nat.toList_repr]
    exact head?_toDigits (by omega)

/-- The decimal text of an integer is a number of JSON. -/
theorem numberText_toString (x : Int) : NumberText (toString x).toList := by
  cases x with
  | ofNat n =>
      refine ⟨[], n.repr.toList, [], [], ?_, .inl rfl, whole_natRepr n, .inl rfl, .inl rfl⟩
      rw [List.nil_append, List.append_nil, List.append_nil]
      rfl
  | negSucc n =>
      refine ⟨['-'], (n + 1).repr.toList, [], [], ?_, .inr rfl, whole_natRepr (n + 1), .inl rfl,
        .inl rfl⟩
      rw [toList_negSucc, List.append_nil, List.append_nil]
      rfl

/-- The scanner takes it for an integer, and for an unsigned one if it is not negative. -/
theorem numberType_toString (x : Int) :
    numberType (toString x).toList = if 0 ≤ x then .unsigned else .integer := by
  have hfloat : (toString x).toList.any (· ∈ ['.', 'e', 'E']) = false := by
    rw [List.any_eq_false]
    intro c hc hmem
    have hmem : c ∈ ['.', 'e', 'E'] := of_decide_eq_true hmem
    rcases mem_toString c hc with rfl | hdigit
    · simp at hmem
    · rw [not_isDigit_of_mem (List.mem_append_left ['+', '-'] hmem)] at hdigit
      cases hdigit
  rw [numberType, hfloat, if_neg Bool.false_ne_true]
  cases x with
  | ofNat n =>
      obtain ⟨c, rest, hcons, hdigit⟩ := natRepr_eq_cons n
      have htext : (toString (Int.ofNat n)).toList = c :: rest := hcons
      have hne : (c :: rest).head? ≠ some '-' := by
        rintro ⟨⟩
        cases hdigit
      rw [htext, if_neg hne]
      exact (if_pos (Int.natCast_nonneg n)).symm
  | negSucc n =>
      rw [toList_negSucc, List.head?_cons, if_pos rfl, if_neg (by omega)]

end CsiFirmware.Nlohmann
