import CsiFirmware.Nlohmann.ParserComplete

/-!
# What is read is a text of JSON

A loop that comes to its end has gone through the text of a value: `isValue_of_run` finds it from
the first token on, and what is left of the run. With the other direction this says what the library
reads (`parse_eq_some_iff`).
-/

namespace CsiFirmware.Nlohmann

open JsonText Utf8

variable {floats : Floats}

/-! ## What is read is a text of JSON -/

/-- A run that comes to its end makes one round and then the rest, or is done. -/
theorem run_cases {config : Config} {result : Json × List Char}
    (h : run floats config = some result) :
    (∃ config', Step floats config (.next config') ∧ run floats config' = some result) ∨
      Step floats config (.done result.1 result.2) := by
  rw [run] at h
  split at h
  next config' hstep => exact .inl ⟨config', step_cases hstep, h⟩
  next root input hstep =>
    obtain rfl := Option.some.inj h
    exact .inr (step_cases hstep)
  next => cases h

/-- The text of a token that is the same everywhere. -/
def Token.spelling : Token → Option (List Char)
  | .beginArray => some ['[']
  | .endArray => some [']']
  | .beginObject => some ['\x7b']
  | .endObject => some ['\x7d']
  | .nameSeparator => some [':']
  | .valueSeparator => some [',']
  | _ => none

/-- A number becomes one of the three tokens for numbers. -/
theorem convert_cases (floats : Floats) (type : NumberType) (text : List Char) :
    (∃ n, floats.convert type text = .valueUnsigned n) ∨
      (∃ i, floats.convert type text = .valueInteger i) ∨
        ∃ q, floats.convert type text = .valueFloat q := by
  unfold Floats.convert
  split
  · split_ifs
    · exact .inl ⟨_, rfl⟩
    · exact .inr (.inr ⟨_, rfl⟩)
  · split_ifs
    · exact .inr (.inl ⟨_, rfl⟩)
    · exact .inr (.inr ⟨_, rfl⟩)
  · exact .inr (.inr ⟨_, rfl⟩)

/-- Such a token has no other text. -/
theorem TokenText.eq_of_spelling {text spelling : List Char} {token : Token}
    (h : TokenText floats text token) (hspelling : token.spelling = some spelling) :
    text = spelling := by
  cases h with
  | number h =>
      rcases convert_cases floats (numberType text) text with ⟨_, h⟩ | ⟨_, h⟩ | ⟨_, h⟩ <;>
        rw [h] at hspelling <;> cases hspelling
  | literalTrue | literalFalse | literalNull | valueString => cases hspelling
  | _ => exact Option.some.inj hspelling

/-- What the text of a string token looks like. -/
theorem TokenText.of_valueString {text : List Char} {s : String}
    (h : TokenText floats text (.valueString s)) :
    ∃ body key, text = '"' :: body ∧ s = String.ofList (encode key) ∧
      ∀ more, StringBody (body ++ more) key more := by
  generalize htoken : Token.valueString s = token at h
  cases h with
  | @valueString body key h => exact ⟨body, key, rfl, Token.valueString.inj htoken, h⟩
  | number h =>
      rcases convert_cases floats (numberType text) text with ⟨_, h⟩ | ⟨_, h⟩ | ⟨_, h⟩ <;>
        rw [h] at htoken <;> cases htoken
  | _ => cases htoken

/-- A token that is a value by itself. -/
theorem TokenText.value {text : List Char} {token : Token} {v : Json}
    (h : TokenText floats text token) (hv : token.scalar = some v) :
    ∃ node, (∀ more, Value (text ++ more) node more) ∧ valueOf floats node = some v := by
  cases h with
  | literalTrue => exact ⟨.boolean true, .trueLiteral, by rw [valueOf, ← hv]; rfl⟩
  | literalFalse => exact ⟨.boolean false, .falseLiteral, by rw [valueOf, ← hv]; rfl⟩
  | literalNull => exact ⟨.null, .nullLiteral, by rw [valueOf, ← hv]; rfl⟩
  | @valueString body s h =>
      exact ⟨.string s, fun more => .string (h more), by rw [valueOf, ← hv]; rfl⟩
  | number h => exact ⟨.number text, fun more => .number text more h, by rw [valueOf, hv]⟩
  | _ => cases hv

/-- No token begins with white space. -/
theorem TokenText.skipWhite {text : List Char} {token : Token} (h : TokenText floats text token)
    (more : List Char) : JsonText.skipWhite (text ++ more) = text ++ more := by
  cases h with
  | number h => exact h.skipWhite more
  | _ => exact skipWhite_cons rfl _

/-- The text of a token that was scanned, after some white space. -/
theorem exists_text {input rest : List Char} {token : Token}
    (h : scan floats input = some (token, rest)) (hend : token ≠ .endOfInput) :
    ∃ read text, TokenText floats text token ∧ input = encode read ++ rest ∧
      ∀ more, skipWhite (read ++ more) = text ++ more := by
  rcases scan_sound h with ⟨rfl, -⟩ | ⟨text, htext, hinput⟩
  · exact absurd rfl hend
  · obtain ⟨white, hwhite, heq⟩ := exists_white input
    refine ⟨white ++ text, text, htext, ?_, fun more => ?_⟩
    · rw [encode_append, encode_white hwhite, List.append_assoc, ← hinput]
      exact heq
    · rw [List.append_assoc, skipWhite_append hwhite, htext.skipWhite]

/-- The same for a token of one character. -/
theorem exists_spelling {input rest : List Char} {token : Token} {c : Char}
    (h : scan floats input = some (token, rest)) (hc : token.spelling = some [c]) :
    ∃ read, input = encode read ++ rest ∧ ∀ more, skipWhite (read ++ more) = c :: more := by
  have hend : token ≠ .endOfInput := by
    rintro rfl
    cases hc
  obtain ⟨read, text, htext, hinput, hskip⟩ := exists_text h hend
  obtain rfl := htext.eq_of_spelling hc
  exact ⟨read, hinput, hskip⟩

/-! ## The parts of a value -/

section Parts

variable (floats) (text input mid : List Char)

/-- The text of a token and the input behind it are a value, and then comes `mid`. -/
def IsValue (v : Json) : Prop :=
  ∃ read node, input = encode read ++ mid ∧ (∀ more, Value (text ++ (read ++ more)) node more) ∧
    valueOf floats node = some v

/-- The same for the elements of an array, up to its closing bracket. -/
def IsElements (vs : List Json) : Prop :=
  ∃ read items, input = encode read ++ mid ∧
    (∀ start more, skipWhite start = text ++ (read ++ more) → Elements start items more) ∧
    valuesOf floats items = some vs

/-- The same for the members of an object. -/
def IsMembers (vs : List (String × Json)) : Prop :=
  ∃ read members, input = encode read ++ mid ∧
    (∀ start more, skipWhite start = text ++ (read ++ more) → Members start members more) ∧
    membersOf floats members = some vs

end Parts

variable {text first input mid rest : List Char} {token : Token}

/-- A value that is a token by itself takes no more of the input. -/
theorem TokenText.isValue {v : Json} (h : TokenText floats text token)
    (hv : token.scalar = some v) : IsValue floats text input input v := by
  obtain ⟨node, hnode, hvalue⟩ := h.value hv
  exact ⟨[], node, rfl, hnode, hvalue⟩

/-- Brackets with nothing between them. -/
theorem isValue_emptyArray (close : scan floats input = some (.endArray, rest)) :
    IsValue floats ['['] input rest (.array []) := by
  obtain ⟨read, rfl, hread⟩ := exists_spelling close rfl
  exact ⟨read, .array [], rfl, fun more => .emptyArray (hread more), rfl⟩

/-- Braces with nothing between them. -/
theorem isValue_emptyObject (close : scan floats input = some (.endObject, rest)) :
    IsValue floats ['\x7b'] input rest (.object []) := by
  obtain ⟨read, rfl, hread⟩ := exists_spelling close rfl
  exact ⟨read, .object [], rfl, fun more => .emptyObject (hread more), rfl⟩

/-- A bracket and elements are an array. -/
theorem IsElements.isValue {vs : List Json} {read : List Char}
    (h : IsElements floats first rest mid vs)
    (hread : ∀ more, skipWhite (read ++ more) = first ++ more) :
    IsValue floats ['['] (encode read ++ rest) mid (.array vs) := by
  obtain ⟨read', items, rfl, helements, hvs⟩ := h
  refine ⟨read ++ read', .array items, by simp, fun more => ?_, ?_⟩
  · have hstart : skipWhite (read ++ read' ++ more) = first ++ (read' ++ more) := by
      rw [List.append_assoc, hread]
    exact .array (helements _ more hstart)
  · rw [valueOf, hvs, Option.map_some]

/-- A brace and members are an object. -/
theorem IsMembers.isValue {vs : List (String × Json)} {read : List Char}
    (h : IsMembers floats first rest mid vs)
    (hread : ∀ more, skipWhite (read ++ more) = first ++ more) :
    IsValue floats ['\x7b'] (encode read ++ rest) mid
      (.object (vs.foldl (fun acc m => assign acc m.1 m.2) [])) := by
  obtain ⟨read', members, rfl, hmembers, hvs⟩ := h
  refine ⟨read ++ read', .object members, by simp, fun more => ?_, ?_⟩
  · have hstart : skipWhite (read ++ read' ++ more) = first ++ (read' ++ more) := by
      rw [List.append_assoc, hread]
    exact .object (hmembers _ more hstart)
  · rw [valueOf, hvs, Option.map_some]

/-- A value and the bracket are the last element. -/
theorem IsValue.last {v : Json} (h : IsValue floats text input mid v)
    (close : scan floats mid = some (.endArray, rest)) :
    IsElements floats text input rest [v] := by
  obtain ⟨read, node, rfl, hnode, hv⟩ := h
  obtain ⟨read', rfl, hread'⟩ := exists_spelling close rfl
  refine ⟨read ++ read', [node], by simp, fun start more hstart => ?_, ?_⟩
  · refine .last ?_ (hread' more)
    rw [hstart, List.append_assoc]
    exact hnode (read' ++ more)
  · simp [valuesOf, hv]

/-- A value, a comma and elements are elements. -/
theorem IsValue.next {v : Json} {vs : List Json} {value read : List Char}
    (h : IsValue floats text input mid v)
    (comma : scan floats mid = some (.valueSeparator, value))
    (hvalue : value = encode read ++ rest)
    (hread : ∀ more, skipWhite (read ++ more) = first ++ more) {mid' : List Char}
    (hmore : IsElements floats first rest mid' vs) :
    IsElements floats text input mid' (v :: vs) := by
  subst hvalue
  obtain ⟨readValue, node, rfl, hnode, hv⟩ := h
  obtain ⟨readComma, rfl, hcomma⟩ := exists_spelling comma rfl
  obtain ⟨readMore, items, rfl, hitems, hvs⟩ := hmore
  refine ⟨readValue ++ (readComma ++ (read ++ readMore)), node :: items, by simp, ?_, ?_⟩
  · intro start more hstart
    refine .next ?_ (hcomma (read ++ (readMore ++ more))) (hitems _ more (hread _))
    have hvalue := hnode (readComma ++ (read ++ (readMore ++ more)))
    rw [hstart]
    simpa using hvalue
  · simp [valuesOf, hv, hvs]

section Member

variable {s : String} {value read mid' rest' : List Char} {v : Json}
  {vs : List (String × Json)} (htext : TokenText floats text (.valueString s))
  (separator : scan floats input = some (.nameSeparator, value))
  (hvalue : value = encode read ++ rest)
  (hread : ∀ more, skipWhite (read ++ more) = first ++ more)
  (h : IsValue floats first rest mid v)
include htext separator hvalue hread h

/-- A key, a colon, a value and the brace are the last member. -/
theorem IsValue.last_member (close : scan floats mid = some (.endObject, rest')) :
    IsMembers floats text input rest' [(s, v)] := by
  subst hvalue
  obtain ⟨body, key, rfl, rfl, hbody⟩ := htext.of_valueString
  obtain ⟨readColon, rfl, hcolon⟩ := exists_spelling separator rfl
  obtain ⟨readValue, node, rfl, hnode, hv⟩ := h
  obtain ⟨readClose, rfl, hclose⟩ := exists_spelling close rfl
  refine ⟨readColon ++ (read ++ (readValue ++ readClose)), [(key, node)], by simp, ?_, ?_⟩
  · intro start more hstart
    simp only [List.append_assoc] at hstart
    refine .last hstart (hbody _) (hcolon _) ?_ (hclose more)
    rw [hread]
    exact hnode (readClose ++ more)
  · simp [membersOf, hv]

/-- A key, a colon, a value, a comma and members are members. -/
theorem IsValue.next_member (comma : scan floats mid = some (.valueSeparator, mid'))
    {read' first' member : List Char} (hmember : mid' = encode read' ++ member)
    (hread' : ∀ more, skipWhite (read' ++ more) = first' ++ more)
    (hmore : IsMembers floats first' member rest' vs) :
    IsMembers floats text input rest' ((s, v) :: vs) := by
  subst hvalue hmember
  obtain ⟨body, key, rfl, rfl, hbody⟩ := htext.of_valueString
  obtain ⟨readColon, rfl, hcolon⟩ := exists_spelling separator rfl
  obtain ⟨readValue, node, rfl, hnode, hv⟩ := h
  obtain ⟨readComma, rfl, hcomma⟩ := exists_spelling comma rfl
  obtain ⟨readMore, members, rfl, hmembers, hvs⟩ := hmore
  refine ⟨readColon ++ (read ++ (readValue ++ (readComma ++ (read' ++ readMore)))),
    (key, node) :: members, by simp, ?_, ?_⟩
  · intro start more hstart
    simp only [List.append_assoc] at hstart
    refine .next hstart (hbody _) (hcolon _) ?_ (hcomma _) (hmembers _ more (hread' _))
    rw [hread]
    exact hnode (readComma ++ (read' ++ (readMore ++ more)))
  · simp [membersOf, hv, hvs]

end Member

/-! ## The loop -/

/-- The parser throws where the input ends before a value. -/
theorem ne_endOfInput_of_run {states : List Bool} {sax : Sax} {result : Json × List Char}
    (h : run floats (.value token input states sax) = some result) : token ≠ .endOfInput := by
  rintro rfl
  rcases run_cases h with ⟨config, ⟨hscalar⟩, -⟩ | hdone
  · cases hscalar
  · cases hdone

/-- A key is there. -/
theorem KeyText.ne_endOfInput {token' : Token} {s : String}
    (h : KeyText floats token input s token' rest) : token ≠ .endOfInput := by
  cases h
  exact Token.noConfusion

/-- A value leaves no more than there was. -/
theorem IsValue.length_le {v : Json} (h : IsValue floats text input mid v) :
    mid.length ≤ input.length := by
  obtain ⟨read, node, rfl, -⟩ := h
  simp

mutual

/-- Where a value begins, the run goes through the text of a value. -/
theorem isValue_of_run {token : Token} {input text : List Char} {states : List Bool} {sax : Sax}
    {result : Json × List Char} (htext : TokenText floats text token)
    (h : run floats (.value token input states sax) = some result) :
    ∃ mid v, IsValue floats text input mid v ∧
      run floats (.evaluate mid states (sax.handleValue v)) = some result := by
  rcases run_cases h with ⟨config, hstep, hrun⟩ | hdone
  · cases hstep with
    | scalar hv => exact ⟨input, _, htext.isValue hv, hrun⟩
    | emptyArray close =>
        obtain rfl := htext.eq_of_spelling rfl
        exact ⟨_, .array [], isValue_emptyArray close, hrun⟩
    | emptyObject close =>
        obtain rfl := htext.eq_of_spelling rfl
        exact ⟨_, .object [], isValue_emptyObject close, hrun⟩
    | array hscan =>
        obtain rfl := htext.eq_of_spelling rfl
        have hne := ne_endOfInput_of_run hrun
        have hlt := length_lt_of_scan hscan hne
        obtain ⟨read, first, hfirst, rfl, hread⟩ := exists_text hscan hne
        obtain ⟨mid, vs, helements, hrun⟩ := isElements_of_run hfirst hrun
        exact ⟨mid, .array vs, helements.isValue hread, hrun⟩
    | object hscan key =>
        obtain rfl := htext.eq_of_spelling rfl
        have hlt := length_lt_of_scan hscan key.ne_endOfInput
        obtain ⟨read, first, hfirst, rfl, hread⟩ := exists_text hscan key.ne_endOfInput
        obtain ⟨mid, vs, hmembers, hrun⟩ := isMembers_of_run hfirst key hrun
        exact ⟨mid, _, hmembers.isValue hread, hrun⟩
  · cases hdone
termination_by (input.length, 0)
decreasing_by all_goals exact Prod.Lex.left _ _ (by assumption)

/-- The same inside an array: the run goes through the elements and the bracket. -/
theorem isElements_of_run {token : Token} {input text : List Char} {states : List Bool}
    {root : Json} {outer : List Frame} {items : List Json} {result : Json × List Char}
    (htext : TokenText floats text token)
    (h : run floats (.value token input (true :: states)
      { root := root, refStack := .array items :: outer }) = some result) :
    ∃ mid vs, IsElements floats text input mid vs ∧
      run floats (.evaluate mid states
        (Sax.handleValue { root := root, refStack := outer } (.array (items ++ vs)))) =
          some result := by
  obtain ⟨mid, v, hvalue, hrun⟩ := isValue_of_run htext h
  rcases run_cases hrun with ⟨config, hstep, hrun⟩ | hdone
  · cases hstep with
    | endArray close => exact ⟨_, [v], hvalue.last close, hrun⟩
    | nextElement comma hscan =>
        have hne := ne_endOfInput_of_run hrun
        -- the first token of the next element and the comma are taken from what the value has left
        have hlt : _ < input.length :=
          (length_lt_of_scan hscan hne).trans
            ((length_lt_of_scan comma Token.noConfusion).trans_le hvalue.length_le)
        obtain ⟨read, first, hfirst, hinput, hread⟩ := exists_text hscan hne
        obtain ⟨mid', vs, helements, hrun⟩ := isElements_of_run hfirst hrun
        refine ⟨mid', v :: vs, hvalue.next comma hinput hread helements, ?_⟩
        rw [List.append_assoc] at hrun
        exact hrun
  · cases hdone
termination_by (input.length, 1)
decreasing_by
  all_goals first
    | exact Prod.Lex.left _ _ (by assumption)
    | exact Prod.Lex.right _ Nat.zero_lt_one

/-- The same inside an object. -/
theorem isMembers_of_run {token token' : Token} {input input' text : List Char} {s : String}
    {states : List Bool} {root : Json} {outer : List Frame} {members : List (String × Json)}
    {element : Option String} {result : Json × List Char}
    (htext : TokenText floats text token) (hkey : KeyText floats token input s token' input')
    (h : run floats (.value token' input' (false :: states)
      (Sax.key { root := root, refStack := .object members element :: outer } s)) = some result) :
    ∃ mid vs, IsMembers floats text input mid vs ∧
      run floats (.evaluate mid states (Sax.handleValue { root := root, refStack := outer }
        (.object (vs.foldl (fun acc m => assign acc m.1 m.2) members)))) = some result := by
  obtain ⟨separator, hscan⟩ := hkey
  have hne := ne_endOfInput_of_run h
  have hlt := (length_lt_of_scan hscan hne).trans (length_lt_of_scan separator Token.noConfusion)
  obtain ⟨read, first, hfirst, hinput, hread⟩ := exists_text hscan hne
  obtain ⟨mid, v, hvalue, hrun⟩ := isValue_of_run hfirst h
  -- the parser has assigned null to the key before it comes to the value
  rw [handleValue_key] at hrun
  rcases run_cases hrun with ⟨config, hstep, hrun⟩ | hdone
  · cases hstep with
    | endObject close =>
        exact ⟨_, [(s, v)], hvalue.last_member htext separator hinput hread close, hrun⟩
    | nextMember comma hscan' key =>
        have hlt' : _ < input.length :=
          ((length_lt_of_scan hscan' key.ne_endOfInput).trans
            (length_lt_of_scan comma Token.noConfusion)).trans_le (hvalue.length_le.trans hlt.le)
        obtain ⟨read', first', hfirst', hmember, hread'⟩ := exists_text hscan' key.ne_endOfInput
        obtain ⟨mid', vs, hmembers, hrun⟩ := isMembers_of_run hfirst' key hrun
        exact ⟨mid', (s, v) :: vs,
          hvalue.next_member htext separator hinput hread comma hmember hread' hmembers, hrun⟩
  · cases hdone
termination_by (input.length, 1)
decreasing_by all_goals exact Prod.Lex.left _ _ (by assumption)

end

/-! ## What the library reads -/

/-- What is skipped is a byte order mark or nothing. -/
theorem skipBom_sound (h : skipBom input = some rest) :
    ∃ bom, (bom = [] ∨ bom = ['\xef', '\xbb', '\xbf']) ∧ input = bom ++ rest := by
  unfold skipBom at h
  split at h
  next input =>
    split at h
    next =>
      obtain rfl := Option.some.inj h
      exact ⟨_, .inr rfl, rfl⟩
    next => cases h
  next =>
    obtain rfl := Option.some.inj h
    exact ⟨[], .inl rfl, rfl⟩

/-- Without its first byte nothing is skipped. -/
theorem skipBom_of_head (h : input.head? ≠ some '\xef') : skipBom input = some input := by
  unfold skipBom
  split
  next => exact absurd rfl h
  next => rfl

/-- The token for the end stands for an end. -/
theorem atEnd_of_scan (h : scan floats input = some (.endOfInput, rest)) :
    AtEnd (skipWhite input) := by
  rcases scan_sound h with ⟨-, hend⟩ | ⟨text, htext, -⟩
  · exact hend
  · -- no text is the text of that token
    generalize htoken : Token.endOfInput = token at htext
    cases htext with
    | number =>
        rcases convert_cases floats (numberType text) text with ⟨_, h⟩ | ⟨_, h⟩ | ⟨_, h⟩ <;>
          rw [h] at htoken <;> cases htoken
    | _ => cases htoken

/-- At an end that token is scanned. -/
theorem AtEnd.scan (h : AtEnd input) :
    ∃ rest, Nlohmann.scan floats input = some (.endOfInput, rest) := by
  cases input with
  | nil => exact ⟨[], rfl⟩
  | cons c input =>
      obtain rfl : c = '\x00' := by simpa [AtEnd] using h
      exact ⟨input, rfl⟩

/-- What follows a document: white space, and then the end. -/
theorem delimited_of_atEnd {white tail : List Char} (hwhite : ∀ c ∈ white, isWhite c)
    (htail : AtEnd tail) : Delimited (white ++ tail) := by
  refine .white hwhite fun c hc => ?_
  have hc : tail.head? = some c := hc
  obtain rfl : c = '\x00' := by simpa [AtEnd, hc] using htail
  decide

/-- Whatever is read is a text of JSON. -/
theorem parse_sound {v : Json} (h : parse floats input = some v) :
    ∃ bom text tail node, (bom = [] ∨ bom = ['\xef', '\xbb', '\xbf']) ∧
      input = bom ++ encode text ++ tail ∧ AtEnd tail ∧ Document text node ∧
      valueOf floats node = some v := by
  simp only [parse, Option.bind_eq_bind, Option.bind_eq_some_iff, Prod.exists] at h
  obtain ⟨input, hskipBom, token, rest, hscan, root, mid, hrun, token', rest', hend, h⟩ := h
  split_ifs at h with htoken
  subst htoken
  obtain rfl := Option.some.inj h
  obtain ⟨bom, hbom, rfl⟩ := skipBom_sound hskipBom
  obtain ⟨read, text, htext, rfl, hread⟩ := exists_text hscan (ne_endOfInput_of_run hrun)
  obtain ⟨mid', v, ⟨read', node, rfl, hnode, hv⟩, hevaluate⟩ := isValue_of_run htext hrun
  rcases run_cases hevaluate with ⟨config, hstep, -⟩ | hdone
  · cases hstep
  · -- the stack of states is empty behind the value, so that the loop ends there
    generalize hround : Round.done root mid = round at hdone
    cases hdone
    obtain ⟨rfl, rfl⟩ := Round.done.inj hround
    obtain ⟨white, hwhite, hmid⟩ := exists_white mid
    refine ⟨bom, read ++ (read' ++ white), skipWhite mid, node, hbom, ?_, atEnd_of_scan hend,
      ⟨white, ?_, ?_⟩, hv⟩
    · conv_lhs => rw [hmid]
      simp [encode_white hwhite]
    · rw [hread]
      exact hnode white
    · have hskip := skipWhite_append hwhite []
      rw [List.append_nil] at hskip
      exact hskip

/-- Every text of JSON is read. -/
theorem parse_complete {bom text tail : List Char} {node : Node} {v : Json}
    (hbom : bom = [] ∨ bom = ['\xef', '\xbb', '\xbf']) (htail : AtEnd tail)
    (hdocument : Document text node) (hv : valueOf floats node = some v) :
    parse floats (bom ++ encode text ++ tail) = some v := by
  obtain ⟨white, hvalue, hskipWhite⟩ := hdocument
  obtain ⟨_, hwhite, heq⟩ := exists_white white
  rw [hskipWhite, List.append_nil] at heq
  subst heq
  have hdelimited := delimited_of_atEnd hwhite htail
  rw [← encode_white hwhite] at hdelimited
  obtain ⟨token, input, hscan, -, hrun⟩ := (reads_value hvalue hv hdelimited).of_skipWhite
  have hskip : skipBom (bom ++ encode text ++ tail) = some (encode text ++ tail) := by
    rcases hbom with rfl | rfl
    · refine skipBom_of_head fun hhead => ?_
      obtain ⟨input', hinput⟩ := List.head?_eq_some_iff.mp hhead
      rw [List.nil_append] at hinput
      -- no token begins with the first byte of a byte order mark
      rw [hinput] at hscan
      cases hscan
    · rfl
  have hdone : run floats (.evaluate (encode white ++ tail) []
      (Sax.handleValue { root := .null, refStack := [] } v)) = some (v, encode white ++ tail) := by
    rw [run.eq_def]
    rfl
  have hend : ∃ rest', scan floats (encode white ++ tail) = some (.endOfInput, rest') := by
    -- the white space behind the value is skipped in front of the end
    have h : ∃ rest', scan floats tail = some (.endOfInput, rest') := htail.scan
    obtain ⟨rest', h⟩ := h
    refine ⟨rest', ?_⟩
    rw [← h, encode_white hwhite]
    unfold scan
    rw [skipWhite_append hwhite]
  obtain ⟨rest', hend⟩ := hend
  simp only [parse, hskip, hscan, hrun, hdone, hend, Option.bind_eq_bind, Option.bind_some]
  rfl

/-- What the library reads: a text of JSON in UTF-8, with a byte order mark or without, up to the
end of the input or a null character. -/
theorem parse_eq_some_iff {v : Json} :
    parse floats input = some v ↔ ∃ bom text tail node,
      (bom = [] ∨ bom = ['\xef', '\xbb', '\xbf']) ∧ input = bom ++ encode text ++ tail ∧
        AtEnd tail ∧ Document text node ∧ valueOf floats node = some v := by
  constructor
  · exact parse_sound
  · rintro ⟨bom, text, tail, node, hbom, rfl, htail, hdocument, hv⟩
    exact parse_complete hbom htail hdocument hv

end CsiFirmware.Nlohmann
