import CsiFirmware.Lib.Json
import CsiFirmware.Nlohmann.Lexer

/-!
# The parser of the JSON library

Reference: `nlohmann::detail::parser` and `json_sax_dom_parser`.

The parser keeps the containers that are open on a stack instead of calling itself, and goes through
a loop with two places: one where a value begins and one where a value has ended. `step` is what
happens between two visits of these places.

Every round uses up some of the input (`Step.weight_lt`), so that the loop comes to an end.
-/

namespace CsiFirmware.Nlohmann

open JsonText Utf8

/-! ## The values that are built -/

section Members

/-- `object[key] = value`, on a `std::map`. -/
def assign (members : List (String × Json)) (key : String) (value : Json) : List (String × Json) :=
  match members with
  | [] => [(key, value)]
  | (key', value') :: rest =>
      if key = key' then (key, value) :: rest
      else if key.toList < key'.toList then (key, value) :: (key', value') :: rest
      else (key', value') :: assign rest key value

/-- `object[key]`: a null if there was nothing. -/
def subscript (members : List (String × Json)) (key : String) : List (String × Json) :=
  if (members.lookup key).isSome then members else assign members key .null

end Members

/-- A container that is open. -/
inductive Frame where
  | array (items : List Json)
  /-- The members, and the key that `object_element` belongs to. -/
  | object (members : List (String × Json)) (element : Option String)

/-- `json_sax_dom_parser`. A container is put in its place when it is closed; until then it is on
the stack, which is what `ref_stack` refers to. -/
structure Sax where
  root : Json
  refStack : List Frame

namespace Sax

/-- `json_sax_dom_parser::handle_value`: the value goes into what is open, or is the root. -/
def handleValue (sax : Sax) (v : Json) : Sax :=
  match sax.refStack with
  | [] => { sax with root := v }
  | .array items :: outer => { sax with refStack := .array (items ++ [v]) :: outer }
  | .object members (some key) :: outer =>
      { sax with refStack := .object (assign members key v) (some key) :: outer }
  -- `JSON_ASSERT(object_element)`
  | .object _ none :: _ => sax

/-- `start_object`. -/
def startObject (sax : Sax) : Sax := { sax with refStack := .object [] none :: sax.refStack }

/-- `key`: `object_element` is where the value of the member will go. -/
def key (sax : Sax) (val : String) : Sax :=
  match sax.refStack with
  | .object members _ :: outer =>
      { sax with refStack := .object (subscript members val) (some val) :: outer }
  -- `JSON_ASSERT(ref_stack.back()->is_object())`
  | _ => sax

/-- `end_object`. -/
def endObject (sax : Sax) : Sax :=
  match sax.refStack with
  | .object members _ :: outer => handleValue { sax with refStack := outer } (.object members)
  -- `JSON_ASSERT(ref_stack.back()->is_object())`
  | _ => sax

/-- `start_array`. -/
def startArray (sax : Sax) : Sax := { sax with refStack := .array [] :: sax.refStack }

/-- `end_array`. -/
def endArray (sax : Sax) : Sax :=
  match sax.refStack with
  | .array items :: outer => handleValue { sax with refStack := outer } (.array items)
  -- `JSON_ASSERT(ref_stack.back()->is_array())`
  | _ => sax

end Sax

/-! ## The loop -/

/-- What a token that is a value by itself passes to `handle_value`. A number that is not finite
throws. -/
def Token.scalar : Token → Option Json
  | .valueFloat q => q.map .numberFloat
  | .literalFalse => some (.boolean false)
  | .literalNull => some .null
  | .literalTrue => some (.boolean true)
  | .valueInteger i => some (.numberInteger i)
  | .valueString s => some (.string s)
  | .valueUnsigned n => some (.numberUnsigned n)
  | _ => none

/-- A place in the loop of `sax_parse_internal`, with `states` and the input behind the last token;
`true` is an array. -/
inductive Config where
  /-- A value begins with `last_token`. -/
  | value (lastToken : Token) (input : List Char) (states : List Bool) (sax : Sax)
  /-- "we reached this line after we successfully parsed a value" -/
  | evaluate (input : List Char) (states : List Bool) (sax : Sax)

/-- A round of the loop goes on, or returns: the value, and the input that is left. -/
inductive Round where
  | next (config : Config)
  | done (root : Json) (input : List Char)

/-- "parse key", with `last_token`, up to the first token of the value. -/
def parseKey (floats : Floats) (lastToken : Token) (input : List Char) (sax : Sax) :
    Option (Token × List Char × Sax) :=
  match lastToken with
  | .valueString s => do
      let (lastToken, input) ← scan floats input
      if lastToken = .nameSeparator then do
        let (lastToken, input) ← scan floats input
        some (lastToken, input, sax.key s)
      else none
  | _ => none

/-- From one place to the next; an exception is `none`. -/
def step (floats : Floats) : Config → Option Round
  | .value lastToken input states sax =>
      match lastToken with
      | .beginObject => do
          let sax := sax.startObject
          let (lastToken, input) ← scan floats input
          if lastToken = .endObject then some (.next (.evaluate input states sax.endObject))
          else do
            let (lastToken, input, sax) ← parseKey floats lastToken input sax
            some (.next (.value lastToken input (false :: states) sax))
      | .beginArray => do
          let sax := sax.startArray
          let (lastToken, input) ← scan floats input
          if lastToken = .endArray then some (.next (.evaluate input states sax.endArray))
          else some (.next (.value lastToken input (true :: states) sax))
      | lastToken =>
          lastToken.scalar.map fun v => .next (.evaluate input states (sax.handleValue v))
  | .evaluate input [] sax => some (.done sax.root input)
  | .evaluate input (true :: outer) sax => do
      let (lastToken, input) ← scan floats input
      if lastToken = .valueSeparator then do
        let (lastToken, input) ← scan floats input
        some (.next (.value lastToken input (true :: outer) sax))
      else if lastToken = .endArray then some (.next (.evaluate input outer sax.endArray))
      else none
  | .evaluate input (false :: outer) sax => do
      let (lastToken, input) ← scan floats input
      if lastToken = .valueSeparator then do
        let (lastToken, input) ← scan floats input
        let (lastToken, input, sax) ← parseKey floats lastToken input sax
        some (.next (.value lastToken input (false :: outer) sax))
      else if lastToken = .endObject then some (.next (.evaluate input outer sax.endObject))
      else none

variable {floats : Floats}

/-- Every token but the end takes some of the input. -/
theorem length_lt_of_scan {input rest : List Char} {token : Token}
    (h : scan floats input = some (token, rest)) (hend : token ≠ .endOfInput) :
    rest.length < input.length := by
  rcases scan_sound h with ⟨rfl, -⟩ | ⟨text, htext, hinput⟩
  · exact absurd rfl hend
  · have hpos : 0 < (encode text).length := List.length_pos_iff.mpr (encode_ne_nil htext.ne_nil)
    have hskip : (skipWhite input).length ≤ input.length := List.length_dropWhile_le _ _
    rw [hinput, List.length_append] at hskip
    omega

/-- A key, its colon, and the first token of the value. -/
inductive KeyText (floats : Floats) :
    Token → List Char → String → Token → List Char → Prop where
  | mk {s : String} {token : Token} {input value rest : List Char}
      (separator : scan floats input = some (.nameSeparator, value))
      (first : scan floats value = some (token, rest)) :
      KeyText floats (.valueString s) input s token rest

/-- What is read of a member in front of its value. -/
theorem parseKey_eq_some_iff {lastToken token : Token} {input rest : List Char} {sax sax' : Sax} :
    parseKey floats lastToken input sax = some (token, rest, sax') ↔
      ∃ s, KeyText floats lastToken input s token rest ∧ sax' = sax.key s := by
  unfold parseKey
  split
  next s =>
    simp only [Option.bind_eq_bind, Option.bind_eq_some_iff, Prod.exists]
    constructor
    · rintro ⟨separator, value, hseparator, h⟩
      split_ifs at h with heq
      simp only [Option.bind_eq_some_iff, Prod.exists, Option.some_inj, Prod.mk.injEq] at h
      obtain ⟨_, _, hscan, rfl, rfl, rfl⟩ := h
      exact ⟨s, .mk (heq ▸ hseparator) hscan, rfl⟩
    · rintro ⟨_, ⟨hseparator, hscan⟩, rfl⟩
      refine ⟨.nameSeparator, _, hseparator, ?_⟩
      rw [if_pos rfl, hscan]
      rfl
  next hne =>
    constructor
    · intro h
      cases h
    · rintro ⟨s, ⟨-, -⟩, -⟩
      exact absurd rfl (hne s)

/-- The direction that a round of the loop uses. -/
theorem KeyText.parseKey {token token' : Token} {s : String} {input rest : List Char}
    (h : KeyText floats token input s token' rest) (sax : Sax) :
    Nlohmann.parseKey floats token input sax = some (token', rest, sax.key s) :=
  parseKey_eq_some_iff.mpr ⟨s, h, rfl⟩

/-- A member does not begin with the brace that would close its object. -/
theorem KeyText.ne {token token' : Token} {s : String} {input rest : List Char}
    (h : KeyText floats token input s token' rest) : token ≠ .endObject := by
  cases h
  exact Token.noConfusion

/-- The value of a member is read from a shorter input. -/
theorem KeyText.length_lt {token token' : Token} {s : String} {input rest : List Char}
    (h : KeyText floats token input s token' rest) :
    ∃ value, value.length < input.length ∧ scan floats value = some (token', rest) := by
  obtain ⟨separator, first⟩ := h
  exact ⟨_, length_lt_of_scan separator Token.noConfusion, first⟩

/-- What a round of the loop can do. -/
inductive Step (floats : Floats) : Config → Round → Prop where
  | scalar {token : Token} {v : Json} {input : List Char} {states : List Bool} {sax : Sax}
      (scalar : token.scalar = some v) :
      Step floats (.value token input states sax)
        (.next (.evaluate input states (sax.handleValue v)))
  | emptyObject {input rest : List Char} {states : List Bool} {sax : Sax}
      (close : scan floats input = some (.endObject, rest)) :
      Step floats (.value .beginObject input states sax)
        (.next (.evaluate rest states sax.startObject.endObject))
  | object {token token' : Token} {s : String} {input input' rest : List Char}
      {states : List Bool} {sax : Sax} (first : scan floats input = some (token, input'))
      (key : KeyText floats token input' s token' rest) :
      Step floats (.value .beginObject input states sax)
        (.next (.value token' rest (false :: states) (sax.startObject.key s)))
  | emptyArray {input rest : List Char} {states : List Bool} {sax : Sax}
      (close : scan floats input = some (.endArray, rest)) :
      Step floats (.value .beginArray input states sax)
        (.next (.evaluate rest states sax.startArray.endArray))
  | array {token : Token} {input rest : List Char} {states : List Bool} {sax : Sax}
      (first : scan floats input = some (token, rest)) (ne : token ≠ .endArray) :
      Step floats (.value .beginArray input states sax)
        (.next (.value token rest (true :: states) sax.startArray))
  | nextElement {token : Token} {input value rest : List Char} {outer : List Bool} {sax : Sax}
      (comma : scan floats input = some (.valueSeparator, value))
      (first : scan floats value = some (token, rest)) :
      Step floats (.evaluate input (true :: outer) sax)
        (.next (.value token rest (true :: outer) sax))
  | endArray {input rest : List Char} {outer : List Bool} {sax : Sax}
      (close : scan floats input = some (.endArray, rest)) :
      Step floats (.evaluate input (true :: outer) sax) (.next (.evaluate rest outer sax.endArray))
  | nextMember {token token' : Token} {s : String} {input member input' rest : List Char}
      {outer : List Bool} {sax : Sax} (comma : scan floats input = some (.valueSeparator, member))
      (first : scan floats member = some (token, input'))
      (key : KeyText floats token input' s token' rest) :
      Step floats (.evaluate input (false :: outer) sax)
        (.next (.value token' rest (false :: outer) (sax.key s)))
  | endObject {input rest : List Char} {outer : List Bool} {sax : Sax}
      (close : scan floats input = some (.endObject, rest)) :
      Step floats (.evaluate input (false :: outer) sax)
        (.next (.evaluate rest outer sax.endObject))
  | done {input : List Char} {sax : Sax} :
      Step floats (.evaluate input [] sax) (.done sax.root input)

/-- A token that opens no container is a value, or throws. -/
theorem step_value {token : Token} (hobject : token ≠ .beginObject) (harray : token ≠ .beginArray)
    (input : List Char) (states : List Bool) (sax : Sax) :
    step floats (.value token input states sax) =
      token.scalar.map fun v => .next (.evaluate input states (sax.handleValue v)) := by
  cases token with
  | beginObject => exact absurd rfl hobject
  | beginArray => exact absurd rfl harray
  | _ => rfl

/-- The function does what the relation says. -/
theorem Step.eq {config : Config} {round : Round} (h : Step floats config round) :
    step floats config = some round := by
  cases h with
  | done => rfl
  | @scalar token v _ _ _ h =>
      have hne : token ≠ .beginObject ∧ token ≠ .beginArray := by
        constructor <;> (rintro rfl; cases h)
      rw [step_value hne.1 hne.2, h, Option.map_some]
  | emptyObject close => simp [step, close]
  | object first key =>
      simp [step, first, key.parseKey, key.ne]
  | emptyArray close => simp [step, close]
  | array first ne => simp [step, first, ne]
  | nextElement comma first => simp [step, comma, first]
  | endArray close => simp [step, close]
  | nextMember comma first key =>
      simp [step, comma, first, key.parseKey]
  | endObject close => simp [step, close]

/-- The other direction: the relation names everything a round can do. -/
theorem step_cases {config : Config} {round : Round} (h : step floats config = some round) :
    Step floats config round := by
  cases config with
  | value token input states sax =>
      cases token with
      | beginObject =>
          simp only [step, Option.bind_eq_bind, Option.bind_eq_some_iff, Prod.exists] at h
          obtain ⟨token, input', hfirst, h⟩ := h
          split_ifs at h with hclose
          · subst hclose
            cases h
            exact .emptyObject hfirst
          · simp only [Option.bind_eq_some_iff, Prod.exists] at h
            obtain ⟨token', rest, sax', hkey, h⟩ := h
            obtain ⟨s, hkeyText, rfl⟩ := parseKey_eq_some_iff.mp hkey
            cases h
            exact .object hfirst hkeyText
      | beginArray =>
          simp only [step, Option.bind_eq_bind, Option.bind_eq_some_iff, Prod.exists] at h
          obtain ⟨token, rest, hfirst, h⟩ := h
          split_ifs at h with hclose <;> cases h
          · subst hclose
            exact .emptyArray hfirst
          · exact .array hfirst hclose
      -- the tokens that are values themselves, and those that cannot begin one
      | _ =>
          rw [step_value Token.noConfusion Token.noConfusion] at h
          obtain ⟨v, hv, heq⟩ := Option.map_eq_some_iff.mp h
          cases heq
          exact .scalar hv
  | evaluate input states sax =>
      match states with
      | [] =>
          cases h
          exact .done
      | true :: outer =>
          simp only [step, Option.bind_eq_bind, Option.bind_eq_some_iff, Prod.exists] at h
          obtain ⟨token, rest, hscan, h⟩ := h
          split_ifs at h with hcomma hclose
          · subst hcomma
            simp only [Option.bind_eq_some_iff, Prod.exists] at h
            obtain ⟨token, rest', hfirst, h⟩ := h
            cases h
            exact .nextElement hscan hfirst
          · subst hclose
            cases h
            exact .endArray hscan
      | false :: outer =>
          simp only [step, Option.bind_eq_bind, Option.bind_eq_some_iff, Prod.exists] at h
          obtain ⟨token, member, hscan, h⟩ := h
          split_ifs at h with hcomma hclose
          · subst hcomma
            simp only [Option.bind_eq_some_iff, Prod.exists] at h
            obtain ⟨token, input', hfirst, token', rest, sax', hkey, h⟩ := h
            obtain ⟨s, hkeyText, rfl⟩ := parseKey_eq_some_iff.mp hkey
            cases h
            exact .nextMember hscan hfirst hkeyText
          · subst hclose
            cases h
            exact .endObject hscan

/-- What the loop uses up: the input, and after the end of it the last visit. -/
def Config.weight : Config → ℕ
  | .value lastToken input _ _ => if lastToken = .endOfInput then 0 else 2 * input.length + 2
  | .evaluate input _ _ => 2 * input.length + 1

/-- What a first token leaves weighs no more than the input it was read from. -/
theorem weight_value_le {lastToken : Token} {input rest : List Char}
    (h : scan floats input = some (lastToken, rest)) (states : List Bool) (sax : Sax) :
    (Config.value lastToken rest states sax).weight ≤ 2 * input.length := by
  rw [Config.weight]
  split_ifs with hend
  · omega
  · have hlt := length_lt_of_scan h hend
    omega

/-- A round that is followed by another one uses something up. -/
theorem Step.weight_lt {config config' : Config} (h : Step floats config (.next config')) :
    config'.weight < config.weight := by
  cases h with
  | @scalar token v input _ _ h =>
      -- the end of the input is no value, so that a value never weighs nothing
      have hend : token ≠ .endOfInput := by
        rintro rfl
        cases h
      simp only [Config.weight, if_neg hend]
      omega
  | emptyObject close | emptyArray close =>
      have hlt := length_lt_of_scan close Token.noConfusion
      simp only [Config.weight, reduceCtorEq, ↓reduceIte]
      omega
  | endArray close | endObject close =>
      have hlt := length_lt_of_scan close Token.noConfusion
      simp only [Config.weight]
      omega
  | @object token _ _ _ _ _ _ _ first key =>
      have hend : token ≠ .endOfInput := by
        rintro rfl
        cases key
      have hfirst := length_lt_of_scan first hend
      obtain ⟨value, hvalue, hscan⟩ := key.length_lt
      refine Nat.lt_of_le_of_lt (weight_value_le hscan _ _) ?_
      simp only [Config.weight, reduceCtorEq, ↓reduceIte]
      omega
  | array first ne =>
      refine Nat.lt_of_le_of_lt (weight_value_le first _ _) ?_
      simp only [Config.weight, reduceCtorEq, ↓reduceIte]
      omega
  | nextElement comma first =>
      have hcomma := length_lt_of_scan comma Token.noConfusion
      refine Nat.lt_of_le_of_lt (weight_value_le first _ _) ?_
      simp only [Config.weight]
      omega
  | @nextMember token _ _ _ _ _ _ _ _ comma first key =>
      have hend : token ≠ .endOfInput := by
        rintro rfl
        cases key
      have hcomma := length_lt_of_scan comma Token.noConfusion
      have hfirst := length_lt_of_scan first hend
      obtain ⟨value, hvalue, hscan⟩ := key.length_lt
      refine Nat.lt_of_le_of_lt (weight_value_le hscan _ _) ?_
      simp only [Config.weight]
      omega

/-- `sax_parse_internal`, from a place in the loop on. -/
def run (floats : Floats) (config : Config) : Option (Json × List Char) :=
  match _hstep : step floats config with
  | some (.next config') => run floats config'
  | some (.done root input) => some (root, input)
  | none => none
termination_by config.weight
decreasing_by exact (step_cases (by assumption)).weight_lt

/-- `json::parse`; an exception is `none`. -/
def parse (floats : Floats) (input : List Char) : Option Json := do
  let input ← skipBom input
  let (lastToken, input) ← scan floats input
  let (root, input) ← run floats (.value lastToken input [] { root := .null, refStack := [] })
  let (lastToken, _) ← scan floats input
  if lastToken = .endOfInput then some root else none

end CsiFirmware.Nlohmann
