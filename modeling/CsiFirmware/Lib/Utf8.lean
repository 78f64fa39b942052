import Mathlib.Data.List.Forall2
import Mathlib.Tactic.Common

/-!
# UTF-8

The bytes of a text. A byte is the character with its number, as the bytes of a `std::string` are
the characters of a `String` here; an ASCII character is its own byte.

`encodeChar_eq_cons_iff` is the table of the well-formed sequences: what a leading byte leaves for
the bytes after it, and the character that they encode.
-/

namespace Utf8

/-- The bytes of a character. -/
def encodeChar (c : Char) : List Char := (String.utf8EncodeChar c).map fun b => Char.ofNat b.toNat

/-- The bytes of a text. -/
def encode (text : List Char) : List Char := text.flatMap encodeChar

@[simp] theorem encode_nil : encode [] = [] := rfl

/-- Character by character. -/
theorem encode_cons (c : Char) (text : List Char) :
    encode (c :: text) = encodeChar c ++ encode text := List.flatMap_cons

@[simp] theorem encode_append (text more : List Char) :
    encode (text ++ more) = encode text ++ encode more := List.flatMap_append

/-! ## The numbers of the bytes -/

/-- The bytes of the character with this number, by their numbers. -/
def codes (n : ℕ) : List ℕ :=
  if n < 0x80 then [n]
  else if n < 0x800 then [0xC0 + n / 64, 0x80 + n % 64]
  else if n < 0x10000 then [0xE0 + n / 4096, 0x80 + n / 64 % 64, 0x80 + n % 64]
  else [0xF0 + n / 262144, 0x80 + n / 4096 % 64, 0x80 + n / 64 % 64, 0x80 + n % 64]

/-- Valid numbers are those of characters. -/
theorem toNat_ofNat {n : ℕ} (h : n.isValidChar) : (Char.ofNat n).toNat = n := by
  rw [Char.ofNat, dif_pos h]
  rfl

/-- There are no characters from here on. -/
theorem toNat_lt (c : Char) : c.toNat < 0x110000 := by
  rcases c.valid with h | h
  · exact Nat.lt_trans h (by decide)
  · exact h.2

/-- The bytes of a character, as numbers. -/
theorem map_toNat_encodeChar (c : Char) : (encodeChar c).map Char.toNat = codes c.toNat := by
  have hlt : c.toNat < 0x110000 := toNat_lt c
  have hbytes : (encodeChar c).map Char.toNat = (String.utf8EncodeChar c).map UInt8.toNat := by
    rw [encodeChar, List.map_map]
    refine List.map_congr_left fun b _ => ?_
    exact toNat_ofNat (.inl (Nat.lt_trans b.toNat_lt (by decide)))
  have hval : c.val.toNat = c.toNat := rfl
  rw [hbytes, codes]
  unfold String.utf8EncodeChar
  simp only [hval]
  split_ifs <;> first | omega | skip
  all_goals
    simp only [List.map_cons, List.map_nil, UInt8.toNat_ofNat', List.cons.injEq, and_true]
    omega

/-- Texts are told apart by the numbers of their characters. -/
theorem map_toNat_injective {text text' : List Char}
    (h : text.map Char.toNat = text'.map Char.toNat) : text = text' :=
  List.map_injective_iff.mpr (fun _ _ hc => Char.ext (UInt32.toNat_inj.mp hc)) h

/-- An ASCII character is its own byte. -/
theorem encodeChar_of_lt {c : Char} (h : c.toNat < 0x80) : encodeChar c = [c] := by
  refine map_toNat_injective ?_
  rw [map_toNat_encodeChar, codes, if_pos h]
  rfl

/-- ASCII characters are copied. -/
@[simp] theorem encode_cons_of_lt {c : Char} (h : c.toNat < 0x80) (text : List Char) :
    encode (c :: text) = c :: encode text := by
  rw [encode_cons, encodeChar_of_lt h, List.singleton_append]

/-- ASCII text is its own encoding. -/
theorem encode_of_ascii {text : List Char} (h : ∀ c ∈ text, c.toNat < 0x80) :
    encode text = text := by
  induction text with
  | nil => rfl
  | cons c text ih =>
      rw [List.forall_mem_cons] at h
      rw [encode_cons_of_lt h.1, ih h.2]

/-! ## Well-formed sequences -/

/-- A byte between two bounds. -/
def Between (range : ℕ × ℕ) (b : Char) : Prop := range.1 ≤ b.toNat ∧ b.toNat ≤ range.2

instance (range : ℕ × ℕ) (b : Char) : Decidable (Between range b) :=
  inferInstanceAs (Decidable (_ ∧ _))

/-- The ranges of the bytes after a leading byte. -/
def following (lead : ℕ) : Option (List (ℕ × ℕ)) :=
  if lead < 0x80 then some []
  else if 0xC2 ≤ lead ∧ lead ≤ 0xDF then some [(0x80, 0xBF)]
  else if lead = 0xE0 then some [(0xA0, 0xBF), (0x80, 0xBF)]
  else if lead = 0xED then some [(0x80, 0x9F), (0x80, 0xBF)]
  else if 0xE1 ≤ lead ∧ lead ≤ 0xEF then some [(0x80, 0xBF), (0x80, 0xBF)]
  else if lead = 0xF0 then some [(0x90, 0xBF), (0x80, 0xBF), (0x80, 0xBF)]
  else if 0xF1 ≤ lead ∧ lead ≤ 0xF3 then some [(0x80, 0xBF), (0x80, 0xBF), (0x80, 0xBF)]
  else if lead = 0xF4 then some [(0x80, 0x8F), (0x80, 0xBF), (0x80, 0xBF)]
  else none

/-- The bits of the number that a leading byte holds. -/
def leadBits (lead : ℕ) : ℕ :=
  if lead < 0x80 then lead
  else if lead < 0xE0 then lead - 0xC0
  else if lead < 0xF0 then lead - 0xE0
  else lead - 0xF0

/-- The number that a sequence encodes. -/
def codePoint (lead : Char) (bytes : List Char) : ℕ :=
  bytes.foldl (fun n b => n * 64 + (b.toNat - 0x80)) (leadBits lead.toNat)

/-- A leading byte and what follows it, for one character. -/
def Sequence (lead : Char) (bytes : List Char) : Prop :=
  ∃ ranges, following lead.toNat = some ranges ∧ List.Forall₂ Between ranges bytes

/-- The sequences of the characters are well-formed. -/
theorem following_codes {n lead : ℕ} {bytes : List ℕ} (hn : n.isValidChar)
    (h : codes n = lead :: bytes) :
    ∃ ranges, following lead = some ranges ∧
      List.Forall₂ (fun range b => range.1 ≤ b ∧ b ≤ range.2) ranges bytes ∧
      bytes.foldl (fun n b => n * 64 + (b - 0x80)) (leadBits lead) = n := by
  have hlt : n < 0x110000 := by
    rcases hn with hn | hn
    · omega
    · exact hn.2
  have hsurrogate : n < 0xD800 ∨ 0xDFFF < n := by
    rcases hn with hn | hn
    · exact .inl hn
    · exact .inr hn.1
  unfold codes at h
  -- one case for each length
  split_ifs at h with h1 h2 h3 <;> obtain ⟨rfl, rfl⟩ := List.cons.inj h
  · exact ⟨[], if_pos h1, .nil, by simp [leadBits, h1]⟩
  all_goals
    simp only [following, leadBits]
    split_ifs <;> first
      | omega
      | refine ⟨_, rfl, ?_, ?_⟩
        · simp only [List.forall₂_cons, List.Forall₂.nil, and_true]
          omega
        · simp only [List.foldl_cons, List.foldl_nil]
          omega

/-- A well-formed sequence is the one of the character that it encodes. -/
theorem codes_foldl {lead : ℕ} {ranges : List (ℕ × ℕ)} {bytes : List ℕ}
    (hlead : following lead = some ranges)
    (h : List.Forall₂ (fun range b => range.1 ≤ b ∧ b ≤ range.2) ranges bytes) :
    (bytes.foldl (fun n b => n * 64 + (b - 0x80)) (leadBits lead)).isValidChar ∧
      codes (bytes.foldl (fun n b => n * 64 + (b - 0x80)) (leadBits lead)) = lead :: bytes := by
  unfold following at hlead
  split_ifs at hlead <;> obtain rfl := Option.some.inj hlead
  next hascii =>
    obtain rfl := List.forall₂_nil_left_iff.mp h
    rw [List.foldl_nil, leadBits, if_pos hascii, codes, if_pos hascii]
    exact ⟨.inl (by omega), rfl⟩
  all_goals
    -- the bounds of each byte, one after another
    repeat rcases h with _ | ⟨⟨_, _⟩, h⟩
    generalize hn : List.foldl _ _ _ = n
    simp only [leadBits, List.foldl_cons, List.foldl_nil] at hn
    refine ⟨?_, ?_⟩
    · show n < 0xD800 ∨ 0xDFFF < n ∧ n < 0x110000
      split_ifs at hn <;> omega
    · unfold codes
      split_ifs at hn ⊢ <;> first
        | omega
        | simp only [List.cons.injEq, and_true]
          omega

/-- The number of a sequence depends on the numbers of its bytes. -/
theorem codePoint_eq (lead : Char) (bytes : List Char) :
    codePoint lead bytes =
      (bytes.map Char.toNat).foldl (fun n b => n * 64 + (b - 0x80)) (leadBits lead.toNat) := by
  rw [codePoint, List.foldl_map]

/-- The same for the ranges. -/
theorem forall₂_map_toNat {ranges : List (ℕ × ℕ)} {bytes : List Char} :
    List.Forall₂ (fun range b => range.1 ≤ b ∧ b ≤ range.2) ranges (bytes.map Char.toNat) ↔
      List.Forall₂ Between ranges bytes := List.forall₂_map_right_iff

/-- The bytes of a character are the sequence of its number. -/
theorem encodeChar_eq_cons_iff {c lead : Char} {bytes : List Char} :
    encodeChar c = lead :: bytes ↔ Sequence lead bytes ∧ codePoint lead bytes = c.toNat := by
  constructor
  · intro h
    have hcodes : codes c.toNat = lead.toNat :: bytes.map Char.toNat := by
      rw [← map_toNat_encodeChar, h, List.map_cons]
    obtain ⟨ranges, hlead, hranges, hpoint⟩ := following_codes c.valid hcodes
    refine ⟨⟨ranges, hlead, forall₂_map_toNat.mp hranges⟩, ?_⟩
    exact (codePoint_eq lead bytes).trans hpoint
  · rintro ⟨⟨ranges, hlead, hranges⟩, hpoint⟩
    obtain ⟨-, hcodes⟩ := codes_foldl hlead (forall₂_map_toNat.mpr hranges)
    rw [← codePoint_eq, hpoint] at hcodes
    -- a number has one sequence only
    apply map_toNat_injective
    rw [map_toNat_encodeChar, hcodes, List.map_cons]

/-- A well-formed sequence encodes a character. -/
theorem Sequence.exists_encodeChar {lead : Char} {bytes : List Char} (h : Sequence lead bytes) :
    ∃ c, encodeChar c = lead :: bytes ∧ c = Char.ofNat (codePoint lead bytes) := by
  obtain ⟨ranges, hlead, hranges⟩ := h
  obtain ⟨hvalid, -⟩ := codes_foldl hlead (forall₂_map_toNat.mpr hranges)
  rw [← codePoint_eq] at hvalid
  refine ⟨_, ?_, rfl⟩
  rw [encodeChar_eq_cons_iff]
  exact ⟨⟨ranges, hlead, hranges⟩, (toNat_ofNat hvalid).symm⟩

/-- Every character has a byte. -/
theorem encodeChar_ne_nil (c : Char) : encodeChar c ≠ [] := by
  rw [encodeChar, ne_eq, List.map_eq_nil_iff]
  exact String.utf8EncodeChar_ne_nil

/-- Every text but the empty one has a byte. -/
theorem encode_ne_nil {text : List Char} (h : text ≠ []) : encode text ≠ [] := by
  obtain ⟨c, rest, rfl⟩ := List.exists_cons_of_ne_nil h
  simp [encode_cons, encodeChar_ne_nil]

/-- Only an ASCII character has an ASCII byte. -/
theorem eq_of_encodeChar_eq_cons {c lead : Char} {bytes : List Char}
    (h : encodeChar c = lead :: bytes) (hlead : lead.toNat < 0x80) : c = lead ∧ bytes = [] := by
  obtain ⟨⟨ranges, hranges, hbytes⟩, hpoint⟩ := encodeChar_eq_cons_iff.mp h
  rw [following, if_pos hlead] at hranges
  obtain rfl := Option.some.inj hranges
  obtain rfl := List.forall₂_nil_left_iff.mp hbytes
  refine ⟨?_, rfl⟩
  rw [codePoint, List.foldl_nil, leadBits, if_pos hlead] at hpoint
  exact Char.ext (UInt32.toNat_inj.mp hpoint.symm)

end Utf8
