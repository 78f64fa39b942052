import CsiFirmware.Lib.JsonText
import CsiFirmware.Lib.Utf8

/-!
# Strings of the JSON library

Reference: `nlohmann::detail::lexer::scan_string`.

A string is scanned byte by byte, and what it holds is collected in `token_buffer`. It is scanned
to its end if and only if it is a string of JSON whose text is UTF-8; the buffer then holds the
UTF-8 of the string (`scanString_sound`, `scanString_complete`).
-/

namespace CsiFirmware.Nlohmann

open CInt (hexDigit hexDigit_lt ascii_of_hexDigit)
open JsonText Utf8

/-- One round of the loop of `get_codepoint`. -/
def addHexDigit : ℕ × List Char → ℕ → Option (ℕ × List Char)
  | (codepoint, current :: input), factor =>
      (hexDigit current).map fun digit => (codepoint + digit <<< factor, input)
  | (_, []), _ => none

/-- `get_codepoint`. -/
def getCodepoint (input : List Char) : Option (ℕ × List Char) :=
  [12, 8, 4, 0].foldlM addHexDigit (0, input)

/-- The bytes that are added, and the input after them. -/
def nextByteInRange : List (ℕ × ℕ) → List Char → Option (List Char × List Char)
  | [], input => some ([], input)
  | range :: ranges, current :: input =>
      if Between range current then
        (nextByteInRange ranges input).map fun (bytes, input) => (current :: bytes, input)
      else none
  | _ :: _, [] => none

/-- "translate codepoint into bytes" -/
def codepointBytes (codepoint : ℕ) : List Char :=
  if codepoint < 0x80 then [Char.ofNat codepoint]
  else if codepoint ≤ 0x7FF then
    [Char.ofNat (0xC0 ||| codepoint >>> 6), Char.ofNat (0x80 ||| codepoint &&& 0x3F)]
  else if codepoint ≤ 0xFFFF then
    [Char.ofNat (0xE0 ||| codepoint >>> 12), Char.ofNat (0x80 ||| codepoint >>> 6 &&& 0x3F),
      Char.ofNat (0x80 ||| codepoint &&& 0x3F)]
  else
    [Char.ofNat (0xF0 ||| codepoint >>> 18), Char.ofNat (0x80 ||| codepoint >>> 12 &&& 0x3F),
      Char.ofNat (0x80 ||| codepoint >>> 6 &&& 0x3F), Char.ofNat (0x80 ||| codepoint &&& 0x3F)]

/-- The escapes of one character. -/
def simpleEscape : Char → Option Char
  | '"' => some '"'
  | '\\' => some '\\'
  | '/' => some '/'
  | 'b' => some '\x08'
  | 'f' => some '\x0c'
  | 'n' => some '\n'
  | 'r' => some '\r'
  | 't' => some '\t'
  | _ => none

/-- What follows `\u`. -/
def scanUnicode (input : List Char) : Option (List Char × List Char) := do
  let (codepoint1, input) ← getCodepoint input
  if 0xD800 ≤ codepoint1 ∧ codepoint1 ≤ 0xDBFF then
    match input with
    | '\\' :: 'u' :: input =>
        let (codepoint2, input) ← getCodepoint input
        if 0xDC00 ≤ codepoint2 ∧ codepoint2 ≤ 0xDFFF then
          some (codepointBytes (codepoint1 <<< 10 + codepoint2 - 0x35FDC00), input)
        else none
    | _ => none
  else if 0xDC00 ≤ codepoint1 ∧ codepoint1 ≤ 0xDFFF then none
  else some (codepointBytes codepoint1, input)

/-- What follows a backslash. -/
def scanEscape : List Char → Option (List Char × List Char)
  | 'u' :: input => scanUnicode input
  | current :: input => (simpleEscape current).map fun c => ([c], input)
  | [] => none

/-- The cases of `scan_string` for a byte that is neither a quotation mark nor a backslash. -/
def byteRanges (current : ℕ) : Option (List (ℕ × ℕ)) :=
  if current < 0x20 then none
  else if current ≤ 0x7F then some []
  else if 0xC2 ≤ current ∧ current ≤ 0xDF then some [(0x80, 0xBF)]
  else if current = 0xE0 then some [(0xA0, 0xBF), (0x80, 0xBF)]
  else if 0xE1 ≤ current ∧ current ≤ 0xEC ∨ current = 0xEE ∨ current = 0xEF then
    some [(0x80, 0xBF), (0x80, 0xBF)]
  else if current = 0xED then some [(0x80, 0x9F), (0x80, 0xBF)]
  else if current = 0xF0 then some [(0x90, 0xBF), (0x80, 0xBF), (0x80, 0xBF)]
  else if 0xF1 ≤ current ∧ current ≤ 0xF3 then some [(0x80, 0xBF), (0x80, 0xBF), (0x80, 0xBF)]
  else if current = 0xF4 then some [(0x80, 0x8F), (0x80, 0xBF), (0x80, 0xBF)]
  else none

/-- One character of a string: the bytes that go to `token_buffer`, and the input after it. -/
def scanCharacter : List Char → Option (List Char × List Char)
  | '\\' :: input => scanEscape input
  | current :: input => do
      let ranges ← byteRanges current.toNat
      let (bytes, input) ← nextByteInRange ranges input
      some (current :: bytes, input)
  | [] => none

/-- The bytes are read if each one is in its range. -/
theorem nextByteInRange_eq_some_iff {ranges : List (ℕ × ℕ)} {input bytes rest : List Char} :
    nextByteInRange ranges input = some (bytes, rest) ↔
      input = bytes ++ rest ∧ List.Forall₂ Between ranges bytes := by
  induction ranges generalizing input bytes with
  | nil =>
      rw [nextByteInRange, Option.some_inj, Prod.mk.injEq, List.forall₂_nil_left_iff]
      constructor
      · rintro ⟨rfl, rfl⟩
        exact ⟨rfl, rfl⟩
      · rintro ⟨rfl, rfl⟩
        exact ⟨rfl, rfl⟩
  | cons range ranges ih =>
      rw [List.forall₂_cons_left_iff]
      cases input with
      | nil =>
          constructor
          · intro h
            cases h
          · rintro ⟨hnil, b, bytes', -, -, rfl⟩
            cases hnil
      | cons current input =>
          rw [nextByteInRange]
          constructor
          · intro h
            split_ifs at h with hrange
            obtain ⟨⟨bytes', rest'⟩, hnext, heq⟩ := Option.map_eq_some_iff.mp h
            obtain ⟨rfl, rfl⟩ := Prod.mk.inj heq
            obtain ⟨rfl, hbytes⟩ := ih.mp hnext
            exact ⟨rfl, current, bytes', hrange, hbytes, rfl⟩
          · rintro ⟨hinput, b, bytes', hrange, hbytes, rfl⟩
            obtain ⟨rfl, hinput⟩ := List.cons.inj hinput
            have hnext : nextByteInRange ranges input = some (bytes', rest) :=
              ih.mpr ⟨(List.cons.inj hinput).2, hbytes⟩
            rw [if_pos hrange, hnext, Option.map_some]

/-- The cases of the switch are those of UTF-8. -/
theorem byteRanges_eq {n : ℕ} (h : 0x20 ≤ n) : byteRanges n = following n := by
  unfold byteRanges following
  split_ifs <;> first | omega | rfl

/-- Bits below those of a marker are added to it. -/
theorem marker_or {marker i b : ℕ} (hb : b < 2 ^ i) (hmarker : 2 ^ i ∣ marker) :
    marker ||| b = marker + b := by
  obtain ⟨a, rfl⟩ := hmarker
  exact (Nat.two_pow_add_eq_or_of_lt hb a).symm

/-- The bytes that are put together from the bits are the UTF-8 of the character. -/
theorem codepointBytes_eq {n : ℕ} (h : n.isValidChar) :
    codepointBytes n = encodeChar (Char.ofNat n) := by
  apply map_toNat_injective
  rw [map_toNat_encodeChar, toNat_ofNat h]
  have hlt : n < 0x110000 := by
    rcases h with h | h
    · omega
    · exact h.2
  have hmask (m : ℕ) : 0x80 ||| m &&& 0x3F = 0x80 + m % 64 := by
    rw [Nat.and_two_pow_sub_one_eq_mod m 6]
    exact marker_or (i := 6) (Nat.mod_lt _ (by decide)) (by decide)
  have hbyte {m : ℕ} (hm : m < 256) : (Char.ofNat m).toNat = m := toNat_ofNat (.inl (by omega))
  unfold codepointBytes codes
  simp only [hmask, Nat.shiftRight_eq_div_pow, Nat.reducePow]
  -- one case for each number of bytes
  split_ifs with h1 h2 h3 h4 h5 h6 <;> first | omega | skip
  · rw [List.map_singleton, hbyte (by omega)]
  · rw [marker_or (i := 5) (by omega) (by decide)]
    simp only [List.map_cons, List.map_nil]
    rw [hbyte (by omega), hbyte (by omega)]
  · rw [marker_or (i := 4) (by omega) (by decide)]
    simp only [List.map_cons, List.map_nil]
    rw [hbyte (by omega), hbyte (by omega), hbyte (by omega)]
  · rw [marker_or (i := 3) (by omega) (by decide)]
    simp only [List.map_cons, List.map_nil]
    rw [hbyte (by omega), hbyte (by omega), hbyte (by omega), hbyte (by omega)]

/-- The cases of the switch are the escapes of JSON. -/
theorem simpleEscape_eq_some_iff {e c : Char} : simpleEscape e = some c ↔ (e, c) ∈ escapes := by
  constructor
  · intro h
    unfold simpleEscape at h
    split at h <;> cases h <;> decide
  · intro h
    simp only [escapes, List.mem_cons, List.not_mem_nil, or_false, Prod.mk.injEq] at h
    rcases h with h | h | h | h | h | h | h | h <;> obtain ⟨rfl, rfl⟩ := h <;> rfl

/-- The escapes are in ASCII, and so is what they stand for. -/
theorem ascii_of_mem_escapes {e c : Char} (h : (e, c) ∈ escapes) :
    e.toNat < 0x80 ∧ c.toNat < 0x80 := by
  have hall : ∀ escape ∈ escapes, escape.1.toNat < 0x80 ∧ escape.2.toNat < 0x80 := by decide
  exact hall _ h

/-- One round of `get_codepoint`. -/
theorem addHexDigit_eq_some_iff {codepoint factor n : ℕ} {input rest : List Char} :
    addHexDigit (codepoint, input) factor = some (n, rest) ↔
      ∃ current digit, input = current :: rest ∧ hexDigit current = some digit ∧
        n = codepoint + digit <<< factor := by
  cases input with
  | nil => simp [addHexDigit]
  | cons current input =>
      rw [addHexDigit, Option.map_eq_some_iff]
      constructor
      · rintro ⟨digit, hdigit, heq⟩
        obtain ⟨rfl, rfl⟩ := Prod.mk.inj heq
        exact ⟨current, digit, rfl, hdigit, rfl⟩
      · rintro ⟨current', digit, hinput, hdigit, rfl⟩
        obtain ⟨rfl, rfl⟩ := List.cons.inj hinput
        exact ⟨digit, hdigit, rfl⟩

/-- Four digits, the first one for the highest bits. -/
theorem getCodepoint_eq_some_iff {input rest : List Char} {n : ℕ} :
    getCodepoint input = some (n, rest) ↔
      ∃ digits, input = digits ++ rest ∧ fourDigits digits = some n := by
  simp only [getCodepoint, List.foldlM_cons, List.foldlM_nil, Option.bind_eq_bind,
    Option.bind_eq_some_iff, Option.pure_def, Option.some_inj, Prod.exists,
    addHexDigit_eq_some_iff]
  constructor
  · rintro ⟨_, _, ⟨a, i, rfl, hi, rfl⟩, _, _, ⟨b, j, rfl, hj, rfl⟩, _, _, ⟨c, k, rfl, hk, rfl⟩,
      _, _, ⟨d, l, rfl, hl, rfl⟩, heq⟩
    obtain ⟨rfl, rfl⟩ := Prod.mk.inj heq
    refine ⟨[a, b, c, d], rfl, ?_⟩
    simp only [fourDigits, hi, hj, hk, hl, Option.bind_eq_bind, Option.bind_some, Option.some_inj,
      Nat.shiftLeft_eq]
    omega
  · rintro ⟨digits, rfl, h⟩
    obtain ⟨a, b, c, d, i, j, k, l, rfl, hi, hj, hk, hl, rfl⟩ := exists_fourDigits h
    refine ⟨_, _, ⟨a, i, rfl, hi, rfl⟩, _, _, ⟨b, j, rfl, hj, rfl⟩, _, _, ⟨c, k, rfl, hk, rfl⟩,
      _, _, ⟨d, l, rfl, hl, rfl⟩, ?_⟩
    rw [Prod.mk.injEq]
    refine ⟨?_, rfl⟩
    simp only [Nat.shiftLeft_eq]
    omega

/-- Four digits are at most `0xFFFF`. -/
theorem fourDigits_lt {digits : List Char} {n : ℕ} (h : fourDigits digits = some n) :
    n < 0x10000 := by
  obtain ⟨a, b, c, d, i, j, k, l, rfl, hi, hj, hk, hl, rfl⟩ := exists_fourDigits h
  have hi : i < 16 := hexDigit_lt hi
  have hj : j < 16 := hexDigit_lt hj
  have hk : k < 16 := hexDigit_lt hk
  have hl : l < 16 := hexDigit_lt hl
  omega

/-- Four digits are their own bytes. -/
theorem encode_fourDigits {digits : List Char} {n : ℕ} (h : fourDigits digits = some n) :
    encode digits = digits := by
  apply encode_of_ascii
  obtain ⟨a, b, c, d, i, j, k, l, rfl, ha, hb, hc, hd, -⟩ := exists_fourDigits h
  simp only [List.forall_mem_cons, List.not_mem_nil, false_implies, implies_true, and_true]
  exact ⟨ascii_of_hexDigit ha, ascii_of_hexDigit hb, ascii_of_hexDigit hc, ascii_of_hexDigit hd⟩

/-- The constant takes the marks of both surrogates off and adds what they leave out. -/
theorem surrogates_eq {m n : ℕ} (hm : 0xD800 ≤ m) (hn : 0xDC00 ≤ n) :
    m <<< 10 + n - 0x35FDC00 = 0x10000 + (m - 0xD800) * 0x400 + (n - 0xDC00) := by
  rw [Nat.shiftLeft_eq]
  omega

/-- What is read behind `\u` is an escape of JSON, with one surrogate or two. -/
theorem scanUnicode_sound {input bytes rest : List Char}
    (h : scanUnicode input = some (bytes, rest)) :
    ∃ text c, CharText ('\\' :: 'u' :: text) c ∧ input = encode text ++ rest ∧
      bytes = encodeChar c := by
  simp only [scanUnicode, Option.bind_eq_bind, Option.bind_eq_some_iff, Prod.exists] at h
  obtain ⟨m, input', hm, h⟩ := h
  obtain ⟨high, rfl, hhigh⟩ := getCodepoint_eq_some_iff.mp hm
  -- the digits give no code point above `0xFFFF`
  have hmlt : m < 0x10000 := fourDigits_lt hhigh
  split_ifs at h with hleading htrailing
  · split at h
    next input =>
      simp only [Option.bind_eq_some_iff, Prod.exists] at h
      obtain ⟨n, input'', hn, h⟩ := h
      obtain ⟨low, rfl, hlow⟩ := getCodepoint_eq_some_iff.mp hn
      split_ifs at h with htrailing
      obtain ⟨rfl, rfl⟩ := Prod.mk.inj (Option.some.inj h)
      refine ⟨high ++ '\\' :: 'u' :: low, _,
        .surrogates high low m n hhigh hlow ⟨hleading.1, by omega⟩ ⟨htrailing.1, by omega⟩, ?_, ?_⟩
      · simp [encode_fourDigits hhigh, encode_fourDigits hlow]
      · rw [surrogates_eq hleading.1 htrailing.1]
        exact codepointBytes_eq (.inr (by omega))
    next => cases h
  · obtain ⟨rfl, rfl⟩ := Prod.mk.inj (Option.some.inj h)
    have hvalid : m.isValidChar := by
      show m < 0xD800 ∨ 0xDFFF < m ∧ m < 0x110000
      omega
    exact ⟨high, _, .unicode high m hhigh hvalid, by rw [encode_fourDigits hhigh],
      codepointBytes_eq hvalid⟩

/-- A character that is no surrogate is read. -/
theorem scanUnicode_unicode {digits : List Char} {n : ℕ} (h : fourDigits digits = some n)
    (scalar : n.isValidChar) (rest : List Char) :
    scanUnicode (digits ++ rest) = some (encodeChar (Char.ofNat n), rest) := by
  have hget : getCodepoint (digits ++ rest) = some (n, rest) :=
    getCodepoint_eq_some_iff.mpr ⟨digits, rfl, h⟩
  have hrange : n < 0xD800 ∨ 0xDFFF < n ∧ n < 0x110000 := scalar
  simp only [scanUnicode, hget, Option.bind_eq_bind, Option.bind_some]
  rw [if_neg (by omega), if_neg (by omega), codepointBytes_eq scalar]

/-- Two surrogates are read as one character. -/
theorem scanUnicode_surrogates {high low : List Char} {m n : ℕ} (hm : fourDigits high = some m)
    (hn : fourDigits low = some n) (leading : 0xD800 ≤ m ∧ m < 0xDC00)
    (trailing : 0xDC00 ≤ n ∧ n < 0xE000) (rest : List Char) :
    scanUnicode (high ++ '\\' :: 'u' :: (low ++ rest)) =
      some (encodeChar (Char.ofNat (0x10000 + (m - 0xD800) * 0x400 + (n - 0xDC00))), rest) := by
  have hhigh : getCodepoint (high ++ '\\' :: 'u' :: (low ++ rest)) =
      some (m, '\\' :: 'u' :: (low ++ rest)) := getCodepoint_eq_some_iff.mpr ⟨high, rfl, hm⟩
  have hlow : getCodepoint (low ++ rest) = some (n, rest) :=
    getCodepoint_eq_some_iff.mpr ⟨low, rfl, hn⟩
  simp only [scanUnicode, hhigh, hlow, Option.bind_eq_bind, Option.bind_some]
  rw [if_pos (by omega), if_pos (by omega), surrogates_eq leading.1 trailing.1,
    codepointBytes_eq (.inr (by omega))]

/-- A byte that is not a backslash begins a sequence of UTF-8. -/
theorem scanCharacter_of_ne {current : Char} (h : current ≠ '\\')
    {input bytes rest : List Char} :
    scanCharacter (current :: input) = some (bytes, rest) ↔
      0x20 ≤ current.toNat ∧
        ∃ tail, Sequence current tail ∧ input = tail ++ rest ∧ bytes = current :: tail := by
  have hscan : scanCharacter (current :: input) =
      (byteRanges current.toNat).bind fun ranges =>
        (nextByteInRange ranges input).bind fun s => some (current :: s.1, s.2) := by
    unfold scanCharacter
    split
    next heq => exact absurd (List.cons.inj heq).1 h
    next heq =>
      obtain ⟨rfl, rfl⟩ := List.cons.inj heq
      rfl
    next heq => cases heq
  -- behind the control characters the switch is that of UTF-8
  have hlow : byteRanges current.toNat = if current.toNat < 0x20 then none
      else following current.toNat := by
    split_ifs with hlt
    · rw [byteRanges, if_pos hlt]
    · exact byteRanges_eq (by omega)
  rw [hscan, hlow]
  split_ifs with hlt
  · simp only [Option.bind_none]
    constructor
    · intro h
      cases h
    · intro h
      omega
  · simp only [Option.bind_eq_some_iff, Prod.exists, nextByteInRange_eq_some_iff, Option.some_inj,
      Prod.mk.injEq]
    constructor
    · rintro ⟨ranges, hranges, tail, _, ⟨rfl, htail⟩, rfl, rfl⟩
      exact ⟨by omega, tail, ⟨ranges, hranges, htail⟩, rfl, rfl⟩
    · rintro ⟨-, tail, ⟨ranges, hranges, htail⟩, rfl, rfl⟩
      exact ⟨ranges, hranges, tail, rest, ⟨rfl, htail⟩, rfl, rfl⟩

/-- A character in a string, and the bytes that it stands for. -/
theorem scanCharacter_sound {input bytes rest : List Char} (hquote : input.head? ≠ some '"')
    (h : scanCharacter input = some (bytes, rest)) :
    ∃ pre c, CharText pre c ∧ input = encode pre ++ rest ∧ bytes = encodeChar c := by
  cases input with
  | nil => cases h
  | cons current input =>
      by_cases hslash : current = '\\'
      · subst hslash
        have h : scanEscape input = some (bytes, rest) := h
        unfold scanEscape at h
        split at h
        next input =>
          obtain ⟨text, c, htext, rfl, rfl⟩ := scanUnicode_sound h
          exact ⟨_, c, htext, by simp, rfl⟩
        next e input _ _ =>
          obtain ⟨c, hc, heq⟩ := Option.map_eq_some_iff.mp h
          obtain ⟨rfl, rfl⟩ := Prod.mk.inj heq
          have hmem : (e, c) ∈ escapes := simpleEscape_eq_some_iff.mp hc
          obtain ⟨he, hascii⟩ := ascii_of_mem_escapes hmem
          exact ⟨_, c, .escape e c hmem, by simp [he], (encodeChar_of_lt hascii).symm⟩
        next => cases h
      · obtain ⟨hlow, tail, hsequence, rfl, rfl⟩ := (scanCharacter_of_ne hslash).mp h
        obtain ⟨c, hc, -⟩ := hsequence.exists_encodeChar
        -- a character of ASCII is its own byte, so that it is neither of the two that mean
        -- something else
        have hself : c.toNat < 0x80 → c = current := by
          intro hascii
          rw [encodeChar_of_lt hascii] at hc
          exact (List.cons.inj hc).1
        refine ⟨[c], c, .plain c ⟨?_, ?_, ?_⟩, by simp [encode_cons, hc], hc.symm⟩
        · rintro rfl
          exact hquote (congrArg some (hself (by decide)).symm)
        · rintro rfl
          exact hslash (hself (by decide)).symm
        · by_contra hlt
          rw [hself (by omega)] at hlt
          exact hlt hlow

/-- A character of a string is read, whichever way it is written. -/
theorem scanCharacter_complete {pre : List Char} {c : Char} (h : CharText pre c)
    (rest : List Char) : scanCharacter (encode pre ++ rest) = some (encodeChar c, rest) := by
  cases h with
  | plain _ hplain =>
      obtain ⟨lead, tail, hcons⟩ := List.exists_cons_of_ne_nil (encodeChar_ne_nil c)
      -- nor does the first byte of another character look like one of ASCII
      have hself : lead.toNat < 0x80 → c = lead := fun h => (eq_of_encodeChar_eq_cons hcons h).1
      obtain ⟨hsequence, -⟩ := encodeChar_eq_cons_iff.mp hcons
      have hslash : lead ≠ '\\' := by
        rintro rfl
        exact hplain.2.1 (hself (by decide))
      rw [encode_cons, encode_nil, List.append_nil, hcons, List.cons_append,
        scanCharacter_of_ne hslash]
      refine ⟨?_, tail, hsequence, rfl, rfl⟩
      by_contra hlt
      rw [← hself (by omega)] at hlt
      exact hlt hplain.2.2
  | escape e _ hmem =>
      obtain ⟨hcurrent, hascii⟩ := ascii_of_mem_escapes hmem
      have he : e ≠ 'u' := by
        rintro rfl
        revert hmem
        simp [escapes]
      rw [encode_cons_of_lt (by decide), encode_cons_of_lt hcurrent, encodeChar_of_lt hascii]
      show scanEscape (e :: rest) = _
      unfold scanEscape
      split
      next heq => exact absurd (List.cons.inj heq).1 he
      next heq =>
        obtain ⟨rfl, rfl⟩ := List.cons.inj heq
        rw [simpleEscape_eq_some_iff.mpr hmem, Option.map_some]
      next heq => cases heq
  | unicode digits n hdigits scalar =>
      rw [encode_cons_of_lt (by decide), encode_cons_of_lt (by decide), encode_fourDigits hdigits]
      exact scanUnicode_unicode hdigits scalar rest
  | surrogates high low m n hm hn leading trailing =>
      have hscan := scanUnicode_surrogates hm hn leading trailing rest
      have htext : encode ('\\' :: 'u' :: high ++ '\\' :: 'u' :: low) ++ rest =
          '\\' :: 'u' :: (high ++ '\\' :: 'u' :: (low ++ rest)) := by
        simp [encode_fourDigits hm, encode_fourDigits hn]
      rw [htext]
      exact hscan

/-- A character takes some of the input, so that `scan_string` ends. -/
theorem length_lt_of_scanCharacter {input bytes rest : List Char}
    (h : scanCharacter input = some (bytes, rest)) : rest.length < input.length := by
  -- a quotation mark would be read as itself here, though `scan_string` never does so
  by_cases hquote : input.head? = some '"'
  · obtain ⟨input', rfl⟩ := List.head?_eq_some_iff.mp hquote
    obtain ⟨-, tail, -, rfl, -⟩ := (scanCharacter_of_ne (by decide)).mp h
    simp only [List.length_cons, List.length_append]
    omega
  · obtain ⟨pre, c, hpre, rfl, -⟩ := scanCharacter_sound hquote h
    have hpos : 0 < (encode pre).length :=
      List.length_pos_iff.mpr (encode_ne_nil (List.length_pos_iff.mp hpre.length_pos))
    simp only [List.length_append]
    omega

/-- `scan_string`, with what is in `token_buffer`. -/
def scanString (buffer input : List Char) : Option (String × List Char) :=
  match input with
  | '"' :: input => some (String.ofList buffer, input)
  | input =>
      match _hscan : scanCharacter input with
      | some (bytes, rest) => scanString (buffer ++ bytes) rest
      | none => none
termination_by input.length
decreasing_by exact length_lt_of_scanCharacter (by assumption)

/-- The quotation mark ends the string. -/
theorem scanString_quote (buffer input : List Char) :
    scanString buffer ('"' :: input) = some (String.ofList buffer, input) := by
  rw [scanString]

/-- Without one, a character is read and then the rest. -/
theorem scanString_of_ne {buffer input : List Char} (hquote : input.head? ≠ some '"') :
    scanString buffer input =
      (scanCharacter input).bind fun s => scanString (buffer ++ s.1) s.2 := by
  rw [scanString.eq_def]
  split
  next => exact absurd rfl hquote
  next =>
    split
    next heq => rw [heq, Option.bind_some]
    next heq => rw [heq, Option.bind_none]

/-- A string that is scanned is a string of JSON, and its bytes are UTF-8. -/
theorem scanString_sound {buffer input rest : List Char} {value : String}
    (h : scanString buffer input = some (value, rest)) :
    ∃ body s, input = encode body ++ rest ∧ (∀ more, StringBody (body ++ more) s more) ∧
      value = String.ofList (buffer ++ encode s) := by
  by_cases hquote : input.head? = some '"'
  · obtain ⟨input', rfl⟩ := List.head?_eq_some_iff.mp hquote
    rw [scanString_quote] at h
    obtain ⟨rfl, rfl⟩ := Prod.mk.inj (Option.some.inj h)
    exact ⟨['"'], [], by simp, .close, by simp⟩
  · rw [scanString_of_ne hquote] at h
    obtain ⟨⟨bytes, input'⟩, hscan, h⟩ := Option.bind_eq_some_iff.mp h
    have hlt : input'.length < input.length := length_lt_of_scanCharacter hscan
    obtain ⟨pre, c, hpre, rfl, rfl⟩ := scanCharacter_sound hquote hscan
    obtain ⟨body, s, rfl, hbody, rfl⟩ := scanString_sound h
    refine ⟨pre ++ body, c :: s, by simp, fun more => ?_, by simp [encode_cons]⟩
    rw [List.append_assoc]
    exact .char hpre (hbody more)
termination_by input.length

/-- The text of a character does not begin with a quotation mark. -/
theorem head?_encode_ne {pre : List Char} {c : Char} (h : CharText pre c) (rest : List Char) :
    (encode pre ++ rest).head? ≠ some '"' := by
  rcases h.head with ⟨rfl, hplain⟩ | ⟨e, more, rfl⟩
  · obtain ⟨lead, tail, hcons⟩ := List.exists_cons_of_ne_nil (encodeChar_ne_nil c)
    rw [encode_cons, encode_nil, List.append_nil, hcons]
    intro hhead
    obtain rfl : lead = '"' := Option.some.inj hhead
    exact hplain.1 (eq_of_encodeChar_eq_cons hcons (by decide)).1
  · simp

/-- A string of JSON is scanned up to its quotation mark. -/
theorem scanString_complete {text s rest : List Char} (h : StringBody text s rest)
    (buffer tail : List Char) :
    scanString buffer (encode text ++ tail) =
      some (String.ofList (buffer ++ encode s), encode rest ++ tail) := by
  induction h generalizing buffer with
  | close rest => simp [scanString_quote]
  | @char pre text d rest c head _ ih =>
      rw [encode_append, List.append_assoc, scanString_of_ne (head?_encode_ne head _),
        scanCharacter_complete head, Option.bind_some, ih, encode_cons, List.append_assoc]

end CsiFirmware.Nlohmann
