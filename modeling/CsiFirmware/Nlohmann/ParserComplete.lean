import CsiFirmware.Nlohmann.Parser

/-!
# Texts of JSON are read

`valueOf` is what a text of JSON denotes. `reads_value` follows the loop of the parser through the
text of a value, by induction on the text: it leaves the loop where a value has ended, with what the
text denotes in its place.
-/

namespace CsiFirmware.Nlohmann

open JsonText Utf8

variable {floats : Floats}

/-! ## What a text denotes -/

mutual

/-- The value that a text denotes, unless a number in it is too large. -/
def valueOf (floats : Floats) : Node → Option Json
  | .null => some .null
  | .boolean b => some (.boolean b)
  | .number text => (floats.convert (numberType text) text).scalar
  | .string s => some (.string (String.ofList (encode s)))
  | .array items => (valuesOf floats items).map .array
  | .object members => (membersOf floats members).map fun members =>
      .object (members.foldl (fun acc m => assign acc m.1 m.2) [])

/-- The values of the elements of an array. -/
def valuesOf (floats : Floats) : List Node → Option (List Json)
  | [] => some []
  | item :: items => do
      let v ← valueOf floats item
      let vs ← valuesOf floats items
      some (v :: vs)

/-- The members in the order in which they stand. -/
def membersOf (floats : Floats) : List (List Char × Node) → Option (List (String × Json))
  | [] => some []
  | (key, item) :: members => do
      let v ← valueOf floats item
      let vs ← membersOf floats members
      some ((String.ofList (encode key), v) :: vs)

end

/-- Of two values under one key the last stays. -/
theorem assign_assign (members : List (String × Json)) (key : String) (v w : Json) :
    assign (assign members key v) key w = assign members key w := by
  induction members with
  | nil => simp [assign]
  | cons m rest ih =>
      obtain ⟨key', v'⟩ := m
      rw [assign, assign]
      split_ifs with heq hlt
      · rw [assign, if_pos rfl]
      · rw [assign, if_pos rfl]
      · rw [assign, if_neg heq, if_neg hlt, ih]

/-- `key` puts a null in place first, which the value then replaces. -/
theorem assign_subscript (members : List (String × Json)) (key : String) (v : Json) :
    assign (subscript members key) key v = assign members key v := by
  rw [subscript]
  split_ifs with h
  · rfl
  · exact assign_assign members key .null v

/-! ## Texts of JSON are read -/

/-- A round is the beginning of the run. -/
theorem Step.run {config config' : Config} (h : Step floats config (.next config')) :
    Nlohmann.run floats config = Nlohmann.run floats config' := by
  rw [Nlohmann.run.eq_def floats config]
  split
  next next hstep =>
    rw [h.eq] at hstep
    cases hstep
    rfl
  next hstep =>
    rw [h.eq] at hstep
    cases hstep
  next hstep =>
    rw [h.eq] at hstep
    cases hstep

/-- White space is its own UTF-8. -/
theorem encode_white {white : List Char} (h : ∀ c ∈ white, isWhite c) : encode white = white := by
  refine encode_of_ascii fun c hc => ?_
  have hall : ∀ c ∈ [' ', '\t', '\n', '\r'], c.toNat < 0x80 := by simp
  exact hall c (of_decide_eq_true (h c hc))

/-- White space in front of a token is passed over. -/
theorem scan_encode_skipWhite (text tail : List Char) :
    scan floats (encode text ++ tail) = scan floats (encode (skipWhite text) ++ tail) := by
  obtain ⟨white, hwhite, htext⟩ := exists_white text
  have hskip : skipWhite (encode text ++ tail) = skipWhite (encode (skipWhite text) ++ tail) := by
    conv_lhs => rw [htext, encode_append, encode_white hwhite, List.append_assoc]
    exact skipWhite_append hwhite _
  rw [scan, scan, hskip]

/-- A token of one character. -/
theorem scan_encode_cons {text rest : List Char} {c : Char} {token : Token}
    (htoken : TokenText floats [c] token) (hc : c ≠ '-' ∧ c.isDigit = false)
    (htext : skipWhite text = c :: rest) (tail : List Char) :
    scan floats (encode text ++ tail) = some (token, encode rest ++ tail) := by
  have hnumber : NumberText [c] → Delimited (encode rest ++ tail) := by
    intro h
    have hne : [c] ++ [] ≠ [c] := h.ne_cons hc
    exact absurd rfl hne
  rw [scan_encode_skipWhite, htext, ← List.singleton_append, encode_append, List.append_assoc]
  exact htoken.scan hnumber

section Complete

variable (floats) (tail : List Char)

/-- From `text` the parser reads `v` and goes on behind it, at `rest`. The first token is read
before the value is begun, as the loop does; it is not the bracket that would close an array. -/
def Reads (text rest : List Char) (v : Json) : Prop :=
  ∃ token input, scan floats (encode text ++ tail) = some (token, input) ∧ token ≠ .endArray ∧
    ∀ states sax, run floats (.value token input states sax) =
      run floats (.evaluate (encode rest ++ tail) states (sax.handleValue v))

/-- The same inside an array that holds `items` so far: what is read are the elements `vs` and the
bracket that closes it. -/
def ReadsElements (text rest : List Char) (vs : List Json) : Prop :=
  ∃ token input, scan floats (encode text ++ tail) = some (token, input) ∧ token ≠ .endArray ∧
    ∀ states root outer items,
      run floats (.value token input (true :: states)
          { root := root, refStack := .array items :: outer }) =
        run floats (.evaluate (encode rest ++ tail) states
          (Sax.handleValue { root := root, refStack := outer } (.array (items ++ vs))))

/-- The same inside an object that holds `members` so far. -/
def ReadsMembers (text rest : List Char) (vs : List (String × Json)) : Prop :=
  ∃ token input s token' input', scan floats (encode text ++ tail) = some (token, input) ∧
    KeyText floats token input s token' input' ∧
    ∀ states root outer members element,
      run floats (.value token' input' (false :: states)
          (Sax.key { root := root, refStack := .object members element :: outer } s)) =
        run floats (.evaluate (encode rest ++ tail) states
          (Sax.handleValue { root := root, refStack := outer }
            (.object (vs.foldl (fun acc m => assign acc m.1 m.2) members))))

variable {floats tail}

/-- A value that is a token by itself. -/
theorem reads_token {text rest : List Char} {token : Token} {v : Json}
    (htoken : TokenText floats text token)
    (hrest : NumberText text → Delimited (encode rest ++ tail)) (hv : token.scalar = some v) :
    Reads floats tail (text ++ rest) rest v := by
  refine ⟨token, encode rest ++ tail, ?_, ?_, fun states sax => (Step.scalar hv).run⟩
  · rw [encode_append, List.append_assoc]
    exact htoken.scan hrest
  · -- a bracket is no value
    rintro rfl
    cases hv

/-- White space in front of a value is passed over. -/
theorem Reads.of_skipWhite {text rest : List Char} {v : Json}
    (h : Reads floats tail (skipWhite text) rest v) : Reads floats tail text rest v := by
  obtain ⟨token, input, hscan, h⟩ := h
  exact ⟨token, input, by rw [scan_encode_skipWhite, hscan], h⟩

/-- Brackets with white space between them. -/
theorem reads_emptyArray {text rest : List Char} (close : skipWhite text = ']' :: rest) :
    Reads floats tail ('[' :: text) rest (.array []) := by
  have hopen : scan floats (encode ('[' :: text) ++ tail) =
      some (.beginArray, encode text ++ tail) :=
    scan_encode_cons .beginArray (by decide) rfl tail
  have hclose : scan floats (encode text ++ tail) = some (.endArray, encode rest ++ tail) :=
    scan_encode_cons .endArray (by decide) close tail
  exact ⟨.beginArray, _, hopen, Token.noConfusion, fun states sax => (Step.emptyArray hclose).run⟩

/-- A bracket and elements. -/
theorem reads_array {text rest : List Char} {vs : List Json}
    (h : ReadsElements floats tail text rest vs) :
    Reads floats tail ('[' :: text) rest (.array vs) := by
  have hopen : scan floats (encode ('[' :: text) ++ tail) =
      some (.beginArray, encode text ++ tail) :=
    scan_encode_cons .beginArray (by decide) rfl tail
  obtain ⟨token, input, hfirst, hne, hrun⟩ := h
  refine ⟨.beginArray, _, hopen, Token.noConfusion, fun states sax => ?_⟩
  rw [(Step.array hfirst hne).run]
  exact hrun states sax.root sax.refStack []

/-- Braces with white space between them. -/
theorem reads_emptyObject {text rest : List Char} (close : skipWhite text = '\x7d' :: rest) :
    Reads floats tail ('\x7b' :: text) rest (.object []) := by
  have hopen : scan floats (encode ('\x7b' :: text) ++ tail) =
      some (.beginObject, encode text ++ tail) :=
    scan_encode_cons .beginObject (by decide) rfl tail
  have hclose : scan floats (encode text ++ tail) = some (.endObject, encode rest ++ tail) :=
    scan_encode_cons .endObject (by decide) close tail
  exact ⟨.beginObject, _, hopen, Token.noConfusion, fun states sax => (Step.emptyObject hclose).run⟩

/-- A brace and members. -/
theorem reads_object {text rest : List Char} {vs : List (String × Json)}
    (h : ReadsMembers floats tail text rest vs) :
    Reads floats tail ('\x7b' :: text) rest
      (.object (vs.foldl (fun acc m => assign acc m.1 m.2) [])) := by
  have hopen : scan floats (encode ('\x7b' :: text) ++ tail) =
      some (.beginObject, encode text ++ tail) :=
    scan_encode_cons .beginObject (by decide) rfl tail
  obtain ⟨token, input, s, token', input', hfirst, hkey, hrun⟩ := h
  refine ⟨.beginObject, _, hopen, Token.noConfusion, fun states sax => ?_⟩
  rw [(Step.object hfirst hkey).run]
  exact hrun states sax.root sax.refStack [] none

/-- The last element and the bracket. -/
theorem readsElements_last {text mid rest : List Char} {v : Json}
    (h : Reads floats tail text mid v) (close : skipWhite mid = ']' :: rest) :
    ReadsElements floats tail text rest [v] := by
  have hclose : scan floats (encode mid ++ tail) = some (.endArray, encode rest ++ tail) :=
    scan_encode_cons .endArray (by decide) close tail
  obtain ⟨token, input, hfirst, hne, hrun⟩ := h
  refine ⟨token, input, hfirst, hne, fun states root outer items => ?_⟩
  rw [hrun, (Step.endArray hclose).run]
  rfl

/-- An element, a comma, and the others. -/
theorem readsElements_next {text mid more rest : List Char} {v : Json} {vs : List Json}
    (h : Reads floats tail text mid v) (comma : skipWhite mid = ',' :: more)
    (hmore : ReadsElements floats tail more rest vs) :
    ReadsElements floats tail text rest (v :: vs) := by
  have hcomma : scan floats (encode mid ++ tail) = some (.valueSeparator, encode more ++ tail) :=
    scan_encode_cons .valueSeparator (by decide) comma tail
  obtain ⟨token, input, hfirst, hne, hrun⟩ := h
  obtain ⟨token', input', hfirst', -, hrun'⟩ := hmore
  refine ⟨token, input, hfirst, hne, fun states root outer items => ?_⟩
  rw [hrun, (Step.nextElement hcomma hfirst').run]
  -- the rest is read into an array that holds the first element already
  have hrest := hrun' states root outer (items ++ [v])
  rw [List.append_assoc] at hrest
  exact hrest

/-- A string in quotation marks is one token. -/
theorem scan_quote {text body key rest : List Char} (quote : skipWhite text = '"' :: body)
    (name : StringBody body key rest) :
    scan floats (encode text ++ tail) =
      some (.valueString (String.ofList (encode key)), encode rest ++ tail) := by
  obtain ⟨body, rfl, hbody⟩ := name.exists_body
  have hnumber : NumberText ('"' :: body) → Delimited (encode rest ++ tail) := by
    intro h
    have hne : ('"' :: body) ++ [] ≠ '"' :: (body ++ []) := h.ne_cons (by decide)
    exact absurd rfl hne
  rw [scan_encode_skipWhite, quote, ← List.cons_append, encode_append, List.append_assoc]
  exact (TokenText.valueString hbody).scan hnumber

/-- The key of a member, its colon, and the value. -/
theorem keyText {colon value mid : List Char} {v : Json}
    (separator : skipWhite colon = ':' :: value) (h : Reads floats tail value mid v) (s : String) :
    ∃ token input, KeyText floats (.valueString s) (encode colon ++ tail) s token input ∧
      ∀ states sax, run floats (.value token input states sax) =
        run floats (.evaluate (encode mid ++ tail) states (sax.handleValue v)) := by
  have hcolon : scan floats (encode colon ++ tail) = some (.nameSeparator, encode value ++ tail) :=
    scan_encode_cons .nameSeparator (by decide) separator tail
  obtain ⟨token, input, hfirst, -, hrun⟩ := h
  exact ⟨token, input, .mk hcolon hfirst, hrun⟩

/-- A key and its value are one assignment. -/
theorem handleValue_key (root : Json) (outer : List Frame) (members : List (String × Json))
    (element : Option String) (s : String) (v : Json) :
    (Sax.key { root := root, refStack := .object members element :: outer } s).handleValue v =
      { root := root, refStack := .object (assign members s v) (some s) :: outer } := by
  show Sax.mk root (.object (assign (subscript members s) s v) (some s) :: outer) = _
  rw [assign_subscript]

/-- The last member and the brace. -/
theorem readsMembers_last {text body key colon value mid rest : List Char} {v : Json}
    (quote : skipWhite text = '"' :: body) (name : StringBody body key colon)
    (separator : skipWhite colon = ':' :: value) (h : Reads floats tail value mid v)
    (close : skipWhite mid = '\x7d' :: rest) :
    ReadsMembers floats tail text rest [(String.ofList (encode key), v)] := by
  have hclose : scan floats (encode mid ++ tail) = some (.endObject, encode rest ++ tail) :=
    scan_encode_cons .endObject (by decide) close tail
  obtain ⟨token, input, hkey, hrun⟩ := keyText separator h (String.ofList (encode key))
  refine ⟨_, _, _, token, input, scan_quote quote name, hkey, ?_⟩
  intro states root outer members element
  rw [hrun, handleValue_key, (Step.endObject hclose).run]
  rfl

/-- A member, a comma, and the others. -/
theorem readsMembers_next {text body key colon value mid more rest : List Char} {v : Json}
    {vs : List (String × Json)} (quote : skipWhite text = '"' :: body)
    (name : StringBody body key colon) (separator : skipWhite colon = ':' :: value)
    (h : Reads floats tail value mid v) (comma : skipWhite mid = ',' :: more)
    (hmore : ReadsMembers floats tail more rest vs) :
    ReadsMembers floats tail text rest ((String.ofList (encode key), v) :: vs) := by
  have hcomma : scan floats (encode mid ++ tail) = some (.valueSeparator, encode more ++ tail) :=
    scan_encode_cons .valueSeparator (by decide) comma tail
  obtain ⟨token, input, hkey, hrun⟩ := keyText separator h (String.ofList (encode key))
  obtain ⟨first, input', s, token', input'', hfirst, hkey', hrun'⟩ := hmore
  refine ⟨_, _, _, token, input, scan_quote quote name, hkey, ?_⟩
  intro states root outer members element
  rw [hrun, handleValue_key, (Step.nextMember hcomma hfirst hkey').run, hrun']
  rfl

/-- What follows a value inside an array or an object ends a number. -/
theorem delimited_of_skipWhite {mid rest : List Char} {c : Char} (h : skipWhite mid = c :: rest)
    (hc : c ∈ [',', ']', '\x7d']) (tail : List Char) : Delimited (encode mid ++ tail) := by
  obtain ⟨white, hwhite, hmid⟩ := exists_white mid
  have hall : ∀ c ∈ [',', ']', '\x7d'],
      c.toNat < 0x80 ∧ c ∈ [' ', '\t', '\n', '\r', ',', ']', '\x7d', '\x00'] := by simp
  rw [hmid, h, encode_append, encode_white hwhite, encode_cons_of_lt (hall c hc).1]
  rw [List.append_assoc]
  refine .white hwhite ?_
  rintro _ ⟨⟩
  exact (hall c hc).2

mutual

/-- A value is read up to its end. -/
theorem reads_value {text rest : List Char} {node : Node} (h : Value text node rest) {v : Json}
    (hv : valueOf floats node = some v) (hrest : Delimited (encode rest ++ tail)) :
    Reads floats tail text rest v := by
  cases h with
  | nullLiteral =>
      rw [valueOf] at hv
      exact reads_token .literalNull (fun _ => hrest) hv
  | trueLiteral =>
      rw [valueOf] at hv
      exact reads_token .literalTrue (fun _ => hrest) hv
  | falseLiteral =>
      rw [valueOf] at hv
      exact reads_token .literalFalse (fun _ => hrest) hv
  | number text rest h =>
      rw [valueOf] at hv
      exact reads_token (.number h) (fun _ => hrest) hv
  -- the text of a string is the same whatever follows it, of a number only if it is ended
  | string body =>
      rw [valueOf] at hv
      obtain ⟨body, rfl, hbody⟩ := body.exists_body
      exact reads_token (.valueString hbody) (fun _ => hrest) hv
  | emptyArray close =>
      simp only [valueOf, valuesOf, Option.map_some, Option.some_inj] at hv
      subst hv
      exact reads_emptyArray close
  | array elements =>
      rw [valueOf, Option.map_eq_some_iff] at hv
      obtain ⟨vs, hvs, rfl⟩ := hv
      exact reads_array (reads_elements elements hvs)
  | emptyObject close =>
      simp only [valueOf, membersOf, Option.map_some, Option.some_inj] at hv
      subst hv
      exact reads_emptyObject close
  | object members =>
      rw [valueOf, Option.map_eq_some_iff] at hv
      obtain ⟨vs, hvs, rfl⟩ := hv
      exact reads_object (reads_members members hvs)

/-- The elements of an array are read up to its bracket. -/
theorem reads_elements {text rest : List Char} {items : List Node}
    (h : Elements text items rest) {vs : List Json} (hvs : valuesOf floats items = some vs) :
    ReadsElements floats tail text rest vs := by
  cases h with
  | last value close =>
      simp only [valuesOf, Option.bind_eq_bind, Option.bind_eq_some_iff, Option.some_inj] at hvs
      obtain ⟨v, hv, _, rfl, rfl⟩ := hvs
      have hmid := delimited_of_skipWhite close (by decide) tail
      exact readsElements_last (reads_value value hv hmid).of_skipWhite close
  | next value comma more =>
      simp only [valuesOf, Option.bind_eq_bind, Option.bind_eq_some_iff, Option.some_inj] at hvs
      obtain ⟨v, hv, vs, hvs, rfl⟩ := hvs
      have hmid := delimited_of_skipWhite comma (by decide) tail
      exact readsElements_next (reads_value value hv hmid).of_skipWhite comma
        (reads_elements more hvs)

/-- The members of an object are read up to its brace. -/
theorem reads_members {text rest : List Char} {members : List (List Char × Node)}
    (h : Members text members rest) {vs : List (String × Json)}
    (hvs : membersOf floats members = some vs) : ReadsMembers floats tail text rest vs := by
  cases h with
  | last quote name separator node close =>
      simp only [membersOf, Option.bind_eq_bind, Option.bind_eq_some_iff, Option.some_inj] at hvs
      obtain ⟨v, hv, _, rfl, rfl⟩ := hvs
      have hmid := delimited_of_skipWhite close (by decide) tail
      exact readsMembers_last quote name separator (reads_value node hv hmid).of_skipWhite close
  | next quote name separator node comma more =>
      simp only [membersOf, Option.bind_eq_bind, Option.bind_eq_some_iff, Option.some_inj] at hvs
      obtain ⟨v, hv, vs, hvs, rfl⟩ := hvs
      have hmid := delimited_of_skipWhite comma (by decide) tail
      exact readsMembers_next quote name separator (reads_value node hv hmid).of_skipWhite comma
        (reads_members more hvs)

end

end Complete

end CsiFirmware.Nlohmann
