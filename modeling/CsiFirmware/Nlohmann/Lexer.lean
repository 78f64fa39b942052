import CsiFirmware.Nlohmann.ScanNumber
import CsiFirmware.Nlohmann.ScanString

/-!
# The scanner of the JSON library

Reference: `nlohmann::detail::lexer`.

`scan` takes the next token off a `std::string`, byte by byte. `scan_sound` and `TokenText.scan` say
between them what it accepts: the tokens of JSON, where the characters of a string are UTF-8.

The position and the text of the current token are not modelled: only the messages of the
exceptions show them. The decimal point of the locale is a point.
-/

namespace CsiFirmware.Nlohmann

open CInt (strtol)
open JsonText Utf8

/-- The conversions of floating-point numbers. -/
structure Floats where
  /-- `std::strtod`; `none` is a result that is not finite. -/
  strtod : List Char → Option ℚ
  /-- `to_chars`. -/
  toChars : ℚ → List Char

/-- `token_type`, with the value that goes with it. A `parse_error` is `none` where a token is
read: whatever the parser expects, it throws. -/
inductive Token where
  | literalTrue
  | literalFalse
  | literalNull
  | valueString (s : String)
  | valueUnsigned (n : ℕ)
  | valueInteger (i : Int)
  /-- `none` is a number that is not finite. -/
  | valueFloat (q : Option ℚ)
  | beginArray
  | beginObject
  | endArray
  | endObject
  | nameSeparator
  | valueSeparator
  | endOfInput
deriving DecidableEq

/-- What `scan_number` makes of the text. -/
def Floats.convert (floats : Floats) (type : NumberType) (buffer : List Char) : Token :=
  match type, strtol (String.ofList buffer) with
  | .unsigned, some x =>
      if x < 2 ^ 64 then .valueUnsigned x.toNat else .valueFloat (floats.strtod buffer)
  | .integer, some x =>
      if -2 ^ 63 ≤ x ∧ x < 2 ^ 63 then .valueInteger x else .valueFloat (floats.strtod buffer)
  | _, _ => .valueFloat (floats.strtod buffer)

/-- `scan_literal`, after the first character. -/
def scanLiteral : List Char → Token → List Char → Option (Token × List Char)
  | [], token, input => some (token, input)
  | c :: literalText, token, current :: input =>
      if current = c then scanLiteral literalText token input else none
  | _ :: _, _, [] => none

/-- The literal is scanned if the input goes on with it. -/
theorem scanLiteral_eq_some_iff {literalText input rest : List Char} {token token' : Token} :
    scanLiteral literalText token input = some (token', rest) ↔
      input = literalText ++ rest ∧ token' = token := by
  induction literalText generalizing input with
  | nil =>
      rw [scanLiteral, Option.some_inj, Prod.mk.injEq, List.nil_append]
      constructor
      · rintro ⟨rfl, rfl⟩
        exact ⟨rfl, rfl⟩
      · rintro ⟨rfl, rfl⟩
        exact ⟨rfl, rfl⟩
  | cons c literalText ih =>
      cases input with
      | nil => simp [scanLiteral]
      | cons current input =>
          rw [scanLiteral, List.cons_append, List.cons.injEq]
          split_ifs with hc
          · rw [ih, and_iff_right hc]
          · simp [hc]

/-! ## Tokens -/

/-- `skip_bom`: what follows the byte order mark, if there is one. -/
def skipBom : List Char → Option (List Char)
  | '\xef' :: input =>
      match input with
      | '\xbb' :: '\xbf' :: input => some input
      | _ => none
  | input => some input

/-- `scan`, after `skip_bom`: the next token, and the input after it. -/
def scan (floats : Floats) (input : List Char) : Option (Token × List Char) :=
  match skipWhite input with
  | '[' :: input => some (.beginArray, input)
  | ']' :: input => some (.endArray, input)
  | '\x7b' :: input => some (.beginObject, input)
  | '\x7d' :: input => some (.endObject, input)
  | ':' :: input => some (.nameSeparator, input)
  | ',' :: input => some (.valueSeparator, input)
  | 't' :: input => scanLiteral ['r', 'u', 'e'] .literalTrue input
  | 'f' :: input => scanLiteral ['a', 'l', 's', 'e'] .literalFalse input
  | 'n' :: input => scanLiteral ['u', 'l', 'l'] .literalNull input
  | '"' :: input => (scanString [] input).map fun (s, input) => (.valueString s, input)
  | '\x00' :: input => some (.endOfInput, input)
  | [] => some (.endOfInput, [])
  | current :: input =>
      if current = '-' ∨ current.isDigit then do
        let (type, buffer, input) ← scanNumber .init .unsigned [] (current :: input)
        some (floats.convert type buffer, input)
      else none

/-- The texts of the tokens. -/
inductive TokenText (floats : Floats) : List Char → Token → Prop where
  | beginArray : TokenText floats ['['] .beginArray
  | endArray : TokenText floats [']'] .endArray
  | beginObject : TokenText floats ['\x7b'] .beginObject
  | endObject : TokenText floats ['\x7d'] .endObject
  | nameSeparator : TokenText floats [':'] .nameSeparator
  | valueSeparator : TokenText floats [','] .valueSeparator
  | literalTrue : TokenText floats ['t', 'r', 'u', 'e'] .literalTrue
  | literalFalse : TokenText floats ['f', 'a', 'l', 's', 'e'] .literalFalse
  | literalNull : TokenText floats ['n', 'u', 'l', 'l'] .literalNull
  | valueString {body s : List Char} (h : ∀ more, StringBody (body ++ more) s more) :
      TokenText floats ('"' :: body) (.valueString (String.ofList (encode s)))
  | number {text : List Char} (h : NumberText text) :
      TokenText floats text (floats.convert (numberType text) text)

/-- Every token has a text. -/
theorem TokenText.ne_nil {floats : Floats} {text : List Char} {token : Token}
    (h : TokenText floats text token) : text ≠ [] := by
  cases h with
  | number h =>
      obtain ⟨c, rest, rfl, -⟩ := h.head
      exact List.cons_ne_nil c rest
  | _ => exact List.cons_ne_nil _ _

/-- The input ends, or goes on with a null character. -/
def AtEnd (input : List Char) : Prop := input.head? ∈ [none, some '\x00']

/-- Every token that is scanned is one of JSON. -/
theorem scan_sound {floats : Floats} {input rest : List Char} {token : Token}
    (h : scan floats input = some (token, rest)) :
    token = .endOfInput ∧ AtEnd (skipWhite input) ∨
      ∃ text, TokenText floats text token ∧ skipWhite input = encode text ++ rest := by
  unfold scan at h
  split at h
  case h_7 | h_8 | h_9 =>
    obtain ⟨rfl, rfl⟩ := scanLiteral_eq_some_iff.mp h
    refine .inr ⟨_, by constructor, ?_⟩
    simpa
  case h_10 input hinput =>
    obtain ⟨⟨value, rest'⟩, hscan, heq⟩ := Option.map_eq_some_iff.mp h
    obtain ⟨rfl, rfl⟩ := Prod.mk.inj heq
    obtain ⟨body, s, rfl, hbody, rfl⟩ := scanString_sound hscan
    exact .inr ⟨_, .valueString hbody, by simpa using hinput⟩
  case h_11 input hinput =>
    obtain ⟨rfl, rfl⟩ := Prod.mk.inj (Option.some.inj h)
    exact .inl ⟨rfl, by simp [AtEnd, hinput]⟩
  case h_12 hinput =>
    obtain ⟨rfl, rfl⟩ := Prod.mk.inj (Option.some.inj h)
    exact .inl ⟨rfl, by simp [AtEnd, hinput]⟩
  case h_13 current input _ _ _ _ _ _ _ _ _ _ _ hinput =>
    split_ifs at h with hnumber
    simp only [Option.bind_eq_bind, Option.bind_eq_some_iff, Prod.exists] at h
    obtain ⟨type, text, rest', hscan, heq⟩ := h
    obtain ⟨rfl, rfl⟩ := Prod.mk.inj (Option.some.inj heq)
    have hinit : NumberState.init.Scanned [] := rfl
    obtain ⟨htext, hnumber, rfl⟩ := scanNumber_sound hinit rfl hscan
    refine .inr ⟨text, .number hnumber, ?_⟩
    rw [hinput, encode_of_ascii hnumber.ascii]
    exact htext
  all_goals
    obtain ⟨rfl, rfl⟩ := Prod.mk.inj (Option.some.inj h)
    refine .inr ⟨_, by constructor, ?_⟩
    simpa

/-- Every token of JSON is scanned, unless what follows goes on a number. -/
theorem TokenText.scan {floats : Floats} {text rest : List Char} {token : Token}
    (h : TokenText floats text token) (hrest : NumberText text → Delimited rest) :
    Nlohmann.scan floats (encode text ++ rest) = some (token, rest) := by
  have hliteral (literalText : List Char) :
      scanLiteral literalText token (literalText ++ rest) = some (token, rest) :=
    scanLiteral_eq_some_iff.mpr ⟨rfl, rfl⟩
  cases h with
  | literalTrue => exact hliteral ['r', 'u', 'e']
  | literalFalse => exact hliteral ['a', 'l', 's', 'e']
  | literalNull => exact hliteral ['u', 'l', 'l']
  | @valueString body s h =>
      have hscan := scanString_complete (h []) [] rest
      rw [List.append_nil] at hscan
      rw [encode_cons_of_lt (by decide)]
      show (scanString [] (encode body ++ rest)).map _ = _
      rw [hscan]
      rfl
  | number h =>
      obtain ⟨c, more, htext, hc⟩ := h.head
      have hscan := scanNumber_complete h (hrest h)
      rw [encode_of_ascii h.ascii, Nlohmann.scan, h.skipWhite]
      rw [htext, List.cons_append] at hscan ⊢
      -- no other token begins with a minus or a digit
      split
      case h_12 heq => cases heq
      case h_13 heq =>
        obtain ⟨rfl, rfl⟩ := List.cons.inj heq
        rw [if_pos hc, hscan]
        rfl
      all_goals
        next heq =>
          obtain ⟨rfl, -⟩ := List.cons.inj heq
          rcases hc with hc | hc <;> cases hc
  | _ => rfl

end CsiFirmware.Nlohmann
