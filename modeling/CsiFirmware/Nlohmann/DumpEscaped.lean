import CsiFirmware.Lib.JsonText
import CsiFirmware.Lib.Utf8

/-!
# Strings that the JSON library writes

Reference: `nlohmann::detail::serializer::dump_escaped` and `decode`.

The bytes of a string go through an automaton that knows UTF-8 by a table. `pending` says what each
state of it waits for; with it, a string is written if and only if it is the UTF-8 of a text, and
what is written is the UTF-8 of the text with its escapes (`dumpEscaped_eq_some_iff`).
-/

namespace CsiFirmware.Nlohmann

open JsonText Utf8

/-- The types of the bytes, sixteen a line, and behind them the transitions, one line for each
state. -/
def utf8d : List ℕ :=
  [ 0, 0, 0, 0, 0, 0, 0, 0, 0, 0, 0, 0, 0, 0, 0, 0,
    0, 0, 0, 0, 0, 0, 0, 0, 0, 0, 0, 0, 0, 0, 0, 0,
    0, 0, 0, 0, 0, 0, 0, 0, 0, 0, 0, 0, 0, 0, 0, 0,
    0, 0, 0, 0, 0, 0, 0, 0, 0, 0, 0, 0, 0, 0, 0, 0,
    0, 0, 0, 0, 0, 0, 0, 0, 0, 0, 0, 0, 0, 0, 0, 0,
    0, 0, 0, 0, 0, 0, 0, 0, 0, 0, 0, 0, 0, 0, 0, 0,
    0, 0, 0, 0, 0, 0, 0, 0, 0, 0, 0, 0, 0, 0, 0, 0,
    0, 0, 0, 0, 0, 0, 0, 0, 0, 0, 0, 0, 0, 0, 0, 0,
    1, 1, 1, 1, 1, 1, 1, 1, 1, 1, 1, 1, 1, 1, 1, 1,
    9, 9, 9, 9, 9, 9, 9, 9, 9, 9, 9, 9, 9, 9, 9, 9,
    7, 7, 7, 7, 7, 7, 7, 7, 7, 7, 7, 7, 7, 7, 7, 7,
    7, 7, 7, 7, 7, 7, 7, 7, 7, 7, 7, 7, 7, 7, 7, 7,
    8, 8, 2, 2, 2, 2, 2, 2, 2, 2, 2, 2, 2, 2, 2, 2,
    2, 2, 2, 2, 2, 2, 2, 2, 2, 2, 2, 2, 2, 2, 2, 2,
    10, 3, 3, 3, 3, 3, 3, 3, 3, 3, 3, 3, 3, 4, 3, 3,
    11, 6, 6, 6, 5, 8, 8, 8, 8, 8, 8, 8, 8, 8, 8, 8,
    0, 1, 2, 3, 5, 8, 7, 1, 1, 1, 4, 6, 1, 1, 1, 1,
    1, 1, 1, 1, 1, 1, 1, 1, 1, 1, 1, 1, 1, 1, 1, 1,
    1, 0, 1, 1, 1, 1, 1, 0, 1, 0, 1, 1, 1, 1, 1, 1,
    1, 2, 1, 1, 1, 1, 1, 2, 1, 2, 1, 1, 1, 1, 1, 1,
    1, 1, 1, 1, 1, 1, 1, 2, 1, 1, 1, 1, 1, 1, 1, 1,
    1, 2, 1, 1, 1, 1, 1, 1, 1, 2, 1, 1, 1, 1, 1, 1,
    1, 1, 1, 1, 1, 1, 1, 3, 1, 3, 1, 1, 1, 1, 1, 1,
    1, 3, 1, 1, 1, 1, 1, 3, 1, 3, 1, 1, 1, 1, 1, 1,
    1, 3, 1, 1, 1, 1, 1, 1, 1, 1, 1, 1, 1, 1, 1, 1 ]

/-- The type of a byte, by the table. -/
def byteType (byte : ℕ) : ℕ := utf8d.getD byte 0

/-- `decode`: the new state. -/
def nextState (state byte : ℕ) : ℕ := utf8d.getD (256 + state * 16 + byteType byte) 0

/-- `decode`: the new code point. -/
def nextCodepoint (state codepoint byte : ℕ) : ℕ :=
  if state ≠ 0 then byte &&& 0x3F ||| codepoint <<< 6 else 0xFF >>> byteType byte &&& byte

/-- `snprintf` with `%04x`. -/
def fourHexDigits (n : ℕ) : List Char :=
  [n / 4096 % 16, n / 256 % 16, n / 16 % 16, n % 16].map Nat.digitChar

/-- What is written for a code point; without it the bytes are copied. -/
def escaped (codepoint : ℕ) : Option (List Char) :=
  match codepoint with
  | 0x08 => some ['\\', 'b']
  | 0x09 => some ['\\', 't']
  | 0x0A => some ['\\', 'n']
  | 0x0C => some ['\\', 'f']
  | 0x0D => some ['\\', 'r']
  | 0x22 => some ['\\', '"']
  | 0x5C => some ['\\', '\\']
  | _ => if codepoint ≤ 0x1F then some ('\\' :: 'u' :: fourHexDigits codepoint) else none

/-- `dump_escaped`, with what was written; `none` is the exception for a string that is not
UTF-8. -/
def dumpEscaped (state codepoint : ℕ) (written : List Char) : List Char → Option (List Char)
  | c :: s =>
      -- the characters of a `std::string` are bytes
      if 256 ≤ c.toNat then none
      else
        let state' := nextState state c.toNat
        let codepoint' := nextCodepoint state codepoint c.toNat
        if state' = 0 then
          dumpEscaped 0 codepoint' (written ++ (escaped codepoint').getD [c]) s
        else if state' = 1 then none
        else dumpEscaped state' codepoint' (written ++ [c]) s
  | [] => if state = 0 then some written else none

/-! ## The automaton -/

/-- The ranges of the bytes that a state waits for. -/
def pending : ℕ → Option (List (ℕ × ℕ))
  | 0 => some []
  | 2 => some [(0x80, 0xBF)]
  | 3 => some [(0x80, 0xBF), (0x80, 0xBF)]
  | 4 => some [(0xA0, 0xBF), (0x80, 0xBF)]
  | 5 => some [(0x80, 0x9F), (0x80, 0xBF)]
  | 6 => some [(0x90, 0xBF), (0x80, 0xBF), (0x80, 0xBF)]
  | 7 => some [(0x80, 0xBF), (0x80, 0xBF), (0x80, 0xBF)]
  | 8 => some [(0x80, 0x8F), (0x80, 0xBF), (0x80, 0xBF)]
  | _ => none

/-- The table has no other states. -/
theorem nextState_lt (state : ℕ) (hstate : state < 9) (byte : ℕ) (hbyte : byte < 256) :
    nextState state byte < 9 := by
  have htype : ∀ byte < 256, byteType byte < 12 := by decide +kernel
  -- there are twelve types of bytes, and the table has sixteen columns
  have hall : ∀ state < 9, ∀ type < 12, utf8d.getD (256 + state * 16 + type) 0 < 9 := by
    decide +kernel
  exact hall state hstate (byteType byte) (htype byte hbyte)

/-- In the state between two characters any first byte of one may come. -/
theorem pending_nextState_zero : ∀ byte < 256, pending (nextState 0 byte) = following byte := by
  decide +kernel

/-- In the others a byte of the first range goes on, and any other one is an error. -/
theorem pending_nextState : ∀ state < 9, ∀ byte < 256, ∀ range ∈ ((pending state).getD []).head?,
    pending (nextState state byte) =
      if range.1 ≤ byte ∧ byte ≤ range.2 then some ((pending state).getD []).tail else none := by
  decide +kernel

/-- The bits of a first byte. -/
theorem nextCodepoint_zero : ∀ byte < 256, (following byte).isSome →
    nextCodepoint 0 0 byte = leadBits byte := by
  decide +kernel

/-- A state that waits for something is one of the table. -/
theorem lt_of_pending {state : ℕ} {ranges : List (ℕ × ℕ)} (h : pending state = some ranges) :
    state < 9 := by
  unfold pending at h
  split at h <;> first | omega | cases h

/-- Only the state between two characters waits for nothing. -/
theorem eq_zero_of_pending {state : ℕ} (h : pending state = some []) : state = 0 := by
  unfold pending at h
  split at h <;> first | rfl | cases h

/-- Inside a character the state is neither that one nor the error. -/
theorem ne_of_pending {state : ℕ} {ranges : List (ℕ × ℕ)} (h : pending state = some ranges)
    (hne : ranges ≠ []) : state ≠ 0 ∧ state ≠ 1 := by
  constructor
  · rintro rfl
    exact hne (Option.some.inj h).symm
  · rintro rfl
    cases h

/-- The only other state is the error. -/
theorem eq_one_of_pending {state : ℕ} (h : pending state = none) (hlt : state < 9) :
    state = 1 := by
  have hall : ∀ state < 9, pending state = none → state = 1 := by decide
  exact hall state hlt h

/-- A state that waits for a byte goes on if the byte is in the first range. -/
theorem pending_next {state : ℕ} {b : Char} {range : ℕ × ℕ} {ranges : List (ℕ × ℕ)}
    (h : pending state = some (range :: ranges)) (hbyte : b.toNat < 256) :
    pending (nextState state b.toNat) = if Between range b then some ranges else none := by
  have hnext := pending_nextState state (lt_of_pending h) b.toNat hbyte range (by rw [h]; rfl)
  rw [h] at hnext
  exact hnext

/-- Every byte that is waited for is a continuation byte. -/
theorem continuation_of_pending {state : ℕ} {range : ℕ × ℕ} {ranges : List (ℕ × ℕ)}
    (h : pending state = some (range :: ranges)) : 0x80 ≤ range.1 ∧ range.2 ≤ 0xBF := by
  have hall : ∀ state < 9, ∀ range ∈ ((pending state).getD []).head?,
      0x80 ≤ range.1 ∧ range.2 ≤ 0xBF := by decide
  exact hall state (lt_of_pending h) range (by rw [h]; rfl)

/-- The bits of a further byte. -/
theorem nextCodepoint_continuation {state codepoint byte : ℕ} (hstate : state ≠ 0)
    (hlow : 0x80 ≤ byte) (hhigh : byte ≤ 0xBF) :
    nextCodepoint state codepoint byte = codepoint * 64 + (byte - 0x80) := by
  have hmask : byte &&& 0x3F = byte - 0x80 := by
    rw [Nat.and_two_pow_sub_one_eq_mod byte 6]
    omega
  rw [nextCodepoint, if_pos hstate, hmask, Nat.or_comm, Nat.shiftLeft_eq, Nat.mul_comm codepoint,
    ← Nat.two_pow_add_eq_or_of_lt (i := 6) (by omega)]

/-- Only characters of ASCII have escapes. -/
theorem escaped_of_le {codepoint : ℕ} (h : 0x80 ≤ codepoint) : escaped codepoint = none := by
  unfold escaped
  split <;> first | omega | skip
  exact if_neg (by omega)

/-! ## Texts in UTF-8 are written -/

/-- The rest of a character is copied. -/
theorem dumpEscaped_pending {state codepoint : ℕ} {written bytes : List Char}
    {ranges : List (ℕ × ℕ)} (h : pending state = some ranges) (hne : ranges ≠ [])
    (hbytes : List.Forall₂ Between ranges bytes)
    (hfinal : 0x80 ≤ bytes.foldl (fun n b => n * 64 + (b.toNat - 0x80)) codepoint)
    (s : List Char) :
    dumpEscaped state codepoint written (bytes ++ s) =
      dumpEscaped 0 (bytes.foldl (fun n b => n * 64 + (b.toNat - 0x80)) codepoint)
        (written ++ bytes) s := by
  induction hbytes generalizing state codepoint written with
  | nil => exact absurd rfl hne
  | @cons range b ranges bytes hb hbytes ih =>
      obtain ⟨hlow, hhigh⟩ := continuation_of_pending h
      obtain ⟨hleft, hright⟩ := hb
      have hstate : state ≠ 0 := (ne_of_pending h (List.cons_ne_nil _ _)).1
      have hcode : nextCodepoint state codepoint b.toNat = codepoint * 64 + (b.toNat - 0x80) :=
        nextCodepoint_continuation hstate (by omega) (by omega)
      have hnext : pending (nextState state b.toNat) = some ranges := by
        rw [pending_next h (by omega), if_pos ⟨hleft, hright⟩]
      rw [List.cons_append, dumpEscaped, if_neg (by omega)]
      rw [List.foldl_cons] at hfinal ⊢
      simp only [hcode]
      -- with the last byte the character is complete; it is above ASCII and has no escape
      by_cases hnil : ranges = []
      · subst hnil
        obtain rfl := List.forall₂_nil_left_iff.mp hbytes
        rw [List.foldl_nil] at hfinal ⊢
        rw [eq_zero_of_pending hnext, if_pos rfl, escaped_of_le hfinal]
        rfl
      · obtain ⟨hzero, hone⟩ := ne_of_pending hnext hnil
        rw [if_neg hzero, if_neg hone, ih hnext hnil hfinal, List.append_assoc,
          List.singleton_append]

/-- What a character becomes. -/
def escapeChar (c : Char) : List Char := (escaped c.toNat).getD [c]

/-- Escapes are in ASCII. -/
theorem ascii_of_escaped {codepoint : ℕ} {text : List Char} (h : escaped codepoint = some text) :
    ∀ c ∈ text, c.toNat < 0x80 := by
  have hlt : codepoint < 0x80 := by
    by_contra hle
    rw [escaped_of_le (by omega)] at h
    cases h
  have hall : ∀ codepoint < 0x80, ((escaped codepoint).getD []).all (·.toNat < 0x80) := by
    decide +kernel
  have hascii := hall codepoint hlt
  rw [h, Option.getD_some, List.all_eq_true] at hascii
  intro c hc
  exact of_decide_eq_true (hascii c hc)

/-- Other characters stay as they are. -/
theorem escapeChar_of_le {c : Char} (h : 0x80 ≤ c.toNat) : escapeChar c = [c] := by
  rw [escapeChar, escaped_of_le h, Option.getD_none]

/-- What is written for a character of ASCII is ASCII. -/
theorem encode_escapeChar {c : Char} (h : c.toNat < 0x80) :
    encode (escapeChar c) = escapeChar c := by
  refine encode_of_ascii ?_
  unfold escapeChar
  cases hescaped : escaped c.toNat with
  | none => simpa using h
  | some text => exact ascii_of_escaped hescaped

/-- A first byte is a byte, and alone only in ASCII. -/
theorem byte_of_following {lead : ℕ} {ranges : List (ℕ × ℕ)} (h : following lead = some ranges) :
    lead < 256 ∧ (ranges = [] → lead < 0x80) := by
  unfold following at h
  split_ifs at h <;> obtain rfl := Option.some.inj h <;> constructor <;>
    first | omega | exact fun hnil => absurd hnil (List.cons_ne_nil _ _)

/-- A character is written with its escape. -/
theorem dumpEscaped_encodeChar (c : Char) (codepoint : ℕ) (written s : List Char) :
    dumpEscaped 0 codepoint written (encodeChar c ++ s) =
      dumpEscaped 0 c.toNat (written ++ encode (escapeChar c)) s := by
  obtain ⟨lead, bytes, hcons⟩ := List.exists_cons_of_ne_nil (encodeChar_ne_nil c)
  obtain ⟨⟨ranges, hlead, hbytes⟩, hpoint⟩ := encodeChar_eq_cons_iff.mp hcons
  obtain ⟨hbyte, hascii⟩ := byte_of_following hlead
  have hnext : pending (nextState 0 lead.toNat) = some ranges := by
    rw [pending_nextState_zero _ hbyte, hlead]
  have hcode : nextCodepoint 0 codepoint lead.toNat = leadBits lead.toNat :=
    nextCodepoint_zero _ hbyte (by rw [hlead]; rfl)
  rw [hcons, List.cons_append, dumpEscaped, if_neg (by omega)]
  simp only [hcode]
  by_cases hnil : ranges = []
  · obtain ⟨rfl, rfl⟩ := eq_of_encodeChar_eq_cons hcons (hascii hnil)
    have hc : leadBits c.toNat = c.toNat := hpoint
    rw [hnil] at hnext
    rw [eq_zero_of_pending hnext, if_pos rfl, hc, encode_escapeChar (hascii hnil)]
    rfl
  · have hc : 0x80 ≤ c.toNat := by
      by_contra hlt
      rw [encodeChar_of_lt (by omega)] at hcons
      obtain ⟨-, rfl⟩ := List.cons.inj hcons
      exact hnil (List.forall₂_nil_right_iff.mp hbytes)
    obtain ⟨hzero, hone⟩ := ne_of_pending hnext hnil
    -- the code point is that of the character, which is none of ASCII
    have hfinal : 0x80 ≤ bytes.foldl (fun n b => n * 64 + (b.toNat - 0x80)) (leadBits lead.toNat) :=
      hc.trans_eq hpoint.symm
    rw [if_neg hzero, if_neg hone, dumpEscaped_pending hnext hnil hbytes hfinal]
    rw [codePoint] at hpoint
    rw [hpoint, escapeChar_of_le hc, encode_cons, hcons, encode_nil, List.append_nil,
      List.append_assoc, List.singleton_append]

/-- A text is written with its escapes. What the code point was before does not matter. -/
theorem dumpEscaped_encode (text : List Char) (codepoint : ℕ) (written s : List Char) :
    ∃ codepoint', dumpEscaped 0 codepoint written (encode text ++ s) =
      dumpEscaped 0 codepoint' (written ++ encode (text.flatMap escapeChar)) s := by
  induction text generalizing codepoint written with
  | nil => exact ⟨codepoint, by simp⟩
  | cons c text ih =>
      obtain ⟨codepoint', h⟩ := ih c.toNat (written ++ encode (escapeChar c))
      refine ⟨codepoint', ?_⟩
      rw [encode_cons, List.append_assoc, dumpEscaped_encodeChar, h, List.flatMap_cons,
        encode_append, List.append_assoc]

/-! ## Nothing else is written -/

/-- Where the automaton waits for bytes, a string that is written has them. -/
theorem exists_pending {state codepoint : ℕ} {written s out : List Char} {ranges : List (ℕ × ℕ)}
    (h : pending state = some ranges) (hout : dumpEscaped state codepoint written s = some out) :
    ∃ bytes rest, s = bytes ++ rest ∧ List.Forall₂ Between ranges bytes := by
  induction ranges generalizing state codepoint written s with
  | nil => exact ⟨[], s, rfl, .nil⟩
  | cons range ranges ih =>
      have hstate : state ≠ 0 := (ne_of_pending h (List.cons_ne_nil _ _)).1
      cases s with
      | nil =>
          rw [dumpEscaped, if_neg hstate] at hout
          cases hout
      | cons b s =>
          rw [dumpEscaped] at hout
          split_ifs at hout with hbyte
          simp only at hout
          -- a byte that is not waited for leads to the error
          have hnext := pending_next h (b := b) (by omega)
          split_ifs at hnext with hrange
          · have hmore : ∃ bytes rest, s = bytes ++ rest ∧ List.Forall₂ Between ranges bytes := by
              split_ifs at hout with hzero hone
              · rw [hzero] at hnext
                obtain rfl := Option.some.inj hnext
                exact ⟨[], s, rfl, .nil⟩
              · exact ih hnext hout
            obtain ⟨bytes, rest, rfl, hbytes⟩ := hmore
            exact ⟨b :: bytes, rest, rfl, .cons hrange hbytes⟩
          · have hone : nextState state b.toNat = 1 :=
              eq_one_of_pending hnext
                (nextState_lt state (lt_of_pending h) b.toNat (by omega))
            simp [hone] at hout

/-- A string that is written is the UTF-8 of a text. -/
theorem exists_encode {codepoint : ℕ} {written s out : List Char}
    (h : dumpEscaped 0 codepoint written s = some out) : ∃ text, s = encode text := by
  cases s with
  | nil => exact ⟨[], rfl⟩
  | cons lead s =>
      have hsequence : ∃ bytes rest, s = bytes ++ rest ∧ Sequence lead bytes := by
        have hout := h
        rw [dumpEscaped] at hout
        split_ifs at hout with hbyte
        simp only at hout
        have hnext := pending_nextState_zero lead.toNat (by omega)
        split_ifs at hout with hzero hone
        · rw [hzero] at hnext
          exact ⟨[], s, rfl, [], hnext.symm, .nil⟩
        · cases hlead : following lead.toNat with
          | none =>
              rw [hlead] at hnext
              exact absurd (eq_one_of_pending hnext
                (nextState_lt 0 (by decide) lead.toNat (by omega))) hone
          | some ranges =>
              rw [hlead] at hnext
              obtain ⟨bytes, rest, hs, hbytes⟩ := exists_pending hnext hout
              exact ⟨bytes, rest, hs, ranges, hlead, hbytes⟩
      obtain ⟨bytes, rest, rfl, hsequence⟩ := hsequence
      -- the first character is complete, and the rest is shorter
      obtain ⟨c, hc, -⟩ := hsequence.exists_encodeChar
      rw [← List.cons_append, ← hc, dumpEscaped_encodeChar] at h
      obtain ⟨text, rfl⟩ := exists_encode h
      exact ⟨c :: text, by rw [encode_cons, hc, List.cons_append]⟩
termination_by s.length

/-- A string is written if and only if it is the UTF-8 of a text; then the text is written with its
escapes. -/
theorem dumpEscaped_eq_some_iff {s out : List Char} :
    dumpEscaped 0 0 [] s = some out ↔
      ∃ text, s = encode text ∧ out = encode (text.flatMap escapeChar) := by
  have hwritten (text : List Char) :
      dumpEscaped 0 0 [] (encode text) = some (encode (text.flatMap escapeChar)) := by
    obtain ⟨codepoint, h⟩ := dumpEscaped_encode text 0 [] []
    rw [List.append_nil] at h
    rw [h]
    rfl
  constructor
  · intro h
    obtain ⟨text, rfl⟩ := exists_encode h
    rw [hwritten] at h
    exact ⟨text, rfl, (Option.some.inj h).symm⟩
  · rintro ⟨text, rfl, rfl⟩
    exact hwritten text

/-! ## What is written is a string of JSON -/

/-- An escape stands for its character. -/
theorem charText_escapeChar (c : Char) : CharText (escapeChar c) c := by
  have hescape {e : Char} {n : ℕ} (hn : c.toNat = n) (hmem : (e, Char.ofNat n) ∈ escapes) :
      CharText ['\\', e] c := by
    rw [← hn, Char.ofNat_toNat] at hmem
    exact .escape e c hmem
  unfold escapeChar escaped
  split
  next hn => exact hescape hn (by decide)
  next hn => exact hescape hn (by decide)
  next hn => exact hescape hn (by decide)
  next hn => exact hescape hn (by decide)
  next hn => exact hescape hn (by decide)
  next hn => exact hescape hn (by decide)
  next hn => exact hescape hn (by decide)
  next hquote hslash =>
    split_ifs with hcontrol
    · have hall : ∀ n ≤ 0x1F, fourDigits (fourHexDigits n) = some n := by decide
      have hunicode := CharText.unicode _ _ (hall c.toNat hcontrol) c.valid
      rwa [Char.ofNat_toNat] at hunicode
    · refine .plain c ⟨?_, ?_, by omega⟩
      · rintro rfl
        exact hquote rfl
      · rintro rfl
        exact hslash rfl

/-- The escapes of a text, up to a quotation mark, are a string of JSON. -/
theorem stringBody_escape (text rest : List Char) :
    StringBody (text.flatMap escapeChar ++ '"' :: rest) text rest := by
  induction text with
  | nil => exact .close rest
  | cons c text ih =>
      rw [List.flatMap_cons, List.append_assoc]
      exact .char (charText_escapeChar c) ih

end CsiFirmware.Nlohmann
