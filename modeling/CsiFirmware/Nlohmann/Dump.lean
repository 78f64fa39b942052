import CsiFirmware.Nlohmann.DumpEscaped
import CsiFirmware.Nlohmann.DumpInteger
import CsiFirmware.Nlohmann.ParserSound

/-!
# Values that the JSON library writes

Reference: `nlohmann::detail::serializer::dump`.

A value is written if and only if all its strings are UTF-8 (`dump_isSome_iff`), and what is written
is read back (`parse_dump`), pretty-printed or not.

`ensure_ascii` is off and the error handler is strict, as `basic_json::dump` has them by default.

The blanks of an indentation come from `indent_string`. It begins with 512 and is doubled once where
it is too short, which is enough for steps up to 1024. With a step of 1025 the first line of an
array or an object takes the null character behind the blanks along, and with a longer one it reads
past the end of the buffer.
-/

namespace CsiFirmware.Nlohmann

open JsonText Utf8

section Dump

variable (floats : Floats) (prettyPrint : Bool) (indentStep : ℕ)

/-- What is written only if the output is pretty-printed. -/
def ifPretty (text : List Char) : List Char := if prettyPrint then text else []

/-- `write_characters(indent_string.c_str(), indent)`, with `size` blanks in `indent_string`. They
are followed by a null character, and that by nothing that may be read. -/
def indentation (size indent : ℕ) : Option (List Char) :=
  if prettyPrint then
    if indent ≤ size then some (List.replicate indent ' ')
    else if indent = size + 1 then some (List.replicate size ' ' ++ ['\x00'])
    else none
  else some []

/-- `new_indent`, an `unsigned int`. -/
def newIndent (currentIndent : ℕ) : ℕ := (currentIndent + indentStep) % 2 ^ 32

/-- The size of `indent_string` after the test. -/
def resized (size newIndent : ℕ) : ℕ := if size < newIndent then size * 2 else size

mutual

/-- `serializer::dump`. The second component is the size of `indent_string`. -/
def dumpValue (size currentIndent : ℕ) : Json → Option (List Char × ℕ)
  | .null => some (['n', 'u', 'l', 'l'], size)
  | .boolean b => some (if b then ['t', 'r', 'u', 'e'] else ['f', 'a', 'l', 's', 'e'], size)
  | .numberInteger i => some (dumpInteger i, size)
  | .numberUnsigned n => some (dumpInteger n, size)
  | .numberFloat q => some (floats.toChars q, size)
  | .string s => do
      let text ← dumpEscaped 0 0 [] s.toList
      some ('"' :: text ++ ['"'], size)
  | .array items =>
      if items.isEmpty then some (['[', ']'], size)
      else do
        let new := newIndent indentStep currentIndent
        let (text, size) ← dumpItems (resized size new) new items
        let closing ← indentation prettyPrint size currentIndent
        some ('[' :: ifPretty prettyPrint ['\n'] ++ text ++
          (ifPretty prettyPrint ['\n'] ++ closing) ++ [']'], size)
  | .object members =>
      if members.isEmpty then some (['\x7b', '\x7d'], size)
      else do
        let new := newIndent indentStep currentIndent
        let (text, size) ← dumpMembers (resized size new) new members
        let closing ← indentation prettyPrint size currentIndent
        some ('\x7b' :: ifPretty prettyPrint ['\n'] ++ text ++
          (ifPretty prettyPrint ['\n'] ++ closing) ++ ['\x7d'], size)

/-- The loop over the elements of an array. -/
def dumpItems (size new : ℕ) : List Json → Option (List Char × ℕ)
  | [] => some ([], size)
  | j :: rest => do
      let indent ← indentation prettyPrint size new
      let (text, size) ← dumpValue size new j
      let (more, size) ← dumpItems size new rest
      let separator := if rest.isEmpty then [] else ',' :: ifPretty prettyPrint ['\n']
      some (indent ++ text ++ separator ++ more, size)

/-- The loop over the members of an object. -/
def dumpMembers (size new : ℕ) : List (String × Json) → Option (List Char × ℕ)
  | [] => some ([], size)
  | (key, j) :: rest => do
      let indent ← indentation prettyPrint size new
      let name ← dumpEscaped 0 0 [] key.toList
      let (text, size) ← dumpValue size new j
      let (more, size) ← dumpMembers size new rest
      let separator := if rest.isEmpty then [] else ',' :: ifPretty prettyPrint ['\n']
      some (indent ++ '"' :: name ++ '"' :: ':' :: ifPretty prettyPrint [' '] ++ text ++
        separator ++ more, size)

end

end Dump

/-- `basic_json::dump`. -/
def dump (floats : Floats) (indent : Int) (j : Json) : Option (List Char) :=
  if 0 ≤ indent then (dumpValue floats true indent.toNat 512 0 j).map Prod.fst
  else (dumpValue floats false 0 512 0 j).map Prod.fst

/-! ## Which values are written -/

/-- The bytes are those of a text. -/
def IsUtf8 (s : String) : Prop := ∃ text, s.toList = encode text

/-- A string is written if it is UTF-8, which makes this decidable. -/
theorem dumpEscaped_isSome_iff {s : String} :
    (dumpEscaped 0 0 [] s.toList).isSome ↔ IsUtf8 s := by
  rw [Option.isSome_iff_exists]
  constructor
  · rintro ⟨out, h⟩
    obtain ⟨text, htext, -⟩ := dumpEscaped_eq_some_iff.mp h
    exact ⟨text, htext⟩
  · rintro ⟨text, h⟩
    exact ⟨_, dumpEscaped_eq_some_iff.mpr ⟨text, h, rfl⟩⟩

instance (s : String) : Decidable (IsUtf8 s) := decidable_of_iff _ dumpEscaped_isSome_iff

variable {floats : Floats} {prettyPrint : Bool} {indentStep size size' currentIndent : ℕ}

/-- `indent_string` is long enough for this indentation, and for the next after one doubling. -/
structure Room (indentStep size currentIndent : ℕ) : Prop where
  step : indentStep ≤ 1024
  initial : 512 ≤ size
  current : currentIndent ≤ size
  next : currentIndent + indentStep ≤ size * 2

/-- A longer `indent_string` has room for the same. -/
theorem Room.mono (h : Room indentStep size currentIndent) (hle : size ≤ size') :
    Room indentStep size' currentIndent where
  step := h.step
  initial := h.initial.trans hle
  current := h.current.trans hle
  next := h.next.trans (Nat.mul_le_mul_right 2 hle)

/-- The 512 blanks of the beginning, in front of the first doubling. -/
theorem room_initial (hstep : indentStep ≤ 1024) : Room indentStep 512 0 :=
  ⟨hstep, le_rfl, Nat.zero_le _, by omega⟩

/-- The test does not shorten `indent_string`. -/
theorem le_resized (size new : ℕ) : size ≤ resized size new := by
  unfold resized
  split_ifs <;> omega

/-- One doubling is enough for one more level. -/
theorem Room.resized (h : Room indentStep size currentIndent) :
    Room indentStep (resized size (newIndent indentStep currentIndent))
      (newIndent indentStep currentIndent) := by
  obtain ⟨hstep, hinitial, hcurrent, hnext⟩ := h
  have hle : newIndent indentStep currentIndent ≤ currentIndent + indentStep := Nat.mod_le _ _
  have hsame : currentIndent + indentStep < 2 ^ 32 →
      newIndent indentStep currentIndent = currentIndent + indentStep := Nat.mod_eq_of_lt
  -- a sum that wraps around is only smaller
  unfold Nlohmann.resized
  split_ifs with hshort
  · exact ⟨hstep, by omega, by omega, by omega⟩
  · exact ⟨hstep, by omega, by omega, by omega⟩

/-- With enough room the indentation is written. -/
theorem Room.indentation (h : Room indentStep size currentIndent) (prettyPrint : Bool) :
    (indentation prettyPrint size currentIndent).isSome := by
  unfold Nlohmann.indentation
  rw [if_pos h.current]
  split_ifs <;> rfl

mutual

/-- `indent_string` never shrinks. -/
theorem size_le_of_dumpValue : ∀ (j : Json) {size currentIndent size' : ℕ} {out : List Char},
    dumpValue floats prettyPrint indentStep size currentIndent j = some (out, size') → size ≤ size'
  | .null, _, _, _, _, h | .boolean _, _, _, _, _, h | .numberInteger _, _, _, _, _, h
  | .numberUnsigned _, _, _, _, _, h | .numberFloat _, _, _, _, _, h => by
      obtain ⟨-, rfl⟩ := Prod.mk.inj (Option.some.inj h)
      exact le_rfl
  | .string _, _, _, _, _, h => by
      obtain ⟨text, -, h⟩ := Option.bind_eq_some_iff.mp h
      obtain ⟨-, rfl⟩ := Prod.mk.inj (Option.some.inj h)
      exact le_rfl
  | .array items, _, _, _, _, h => by
      rw [dumpValue] at h
      split_ifs at h
      · obtain ⟨-, rfl⟩ := Prod.mk.inj (Option.some.inj h)
        exact le_rfl
      · obtain ⟨⟨text, size⟩, hitems, h⟩ := Option.bind_eq_some_iff.mp h
        obtain ⟨closing, -, h⟩ := Option.bind_eq_some_iff.mp h
        obtain ⟨-, rfl⟩ := Prod.mk.inj (Option.some.inj h)
        exact (le_resized ..).trans (size_le_of_dumpItems items hitems)
  | .object members, _, _, _, _, h => by
      rw [dumpValue] at h
      split_ifs at h
      · obtain ⟨-, rfl⟩ := Prod.mk.inj (Option.some.inj h)
        exact le_rfl
      · obtain ⟨⟨text, size⟩, hmembers, h⟩ := Option.bind_eq_some_iff.mp h
        obtain ⟨closing, -, h⟩ := Option.bind_eq_some_iff.mp h
        obtain ⟨-, rfl⟩ := Prod.mk.inj (Option.some.inj h)
        exact (le_resized ..).trans (size_le_of_dumpMembers members hmembers)

/-- The same over the elements. -/
theorem size_le_of_dumpItems : ∀ (items : List Json) {size new size' : ℕ} {out : List Char},
    dumpItems floats prettyPrint indentStep size new items = some (out, size') → size ≤ size'
  | [], _, _, _, _, h => by
      obtain ⟨-, rfl⟩ := Prod.mk.inj (Option.some.inj h)
      exact le_rfl
  | j :: rest, _, _, _, _, h => by
      obtain ⟨indent, -, h⟩ := Option.bind_eq_some_iff.mp h
      obtain ⟨⟨text, size⟩, hj, h⟩ := Option.bind_eq_some_iff.mp h
      obtain ⟨⟨more, size'⟩, hrest, h⟩ := Option.bind_eq_some_iff.mp h
      obtain ⟨-, rfl⟩ := Prod.mk.inj (Option.some.inj h)
      exact (size_le_of_dumpValue j hj).trans (size_le_of_dumpItems rest hrest)

/-- The same over the members. -/
theorem size_le_of_dumpMembers : ∀ (members : List (String × Json)) {size new size' : ℕ}
    {out : List Char}, dumpMembers floats prettyPrint indentStep size new members =
      some (out, size') → size ≤ size'
  | [], _, _, _, _, h => by
      obtain ⟨-, rfl⟩ := Prod.mk.inj (Option.some.inj h)
      exact le_rfl
  | (key, j) :: rest, _, _, _, _, h => by
      obtain ⟨indent, -, h⟩ := Option.bind_eq_some_iff.mp h
      obtain ⟨name, -, h⟩ := Option.bind_eq_some_iff.mp h
      obtain ⟨⟨text, size⟩, hj, h⟩ := Option.bind_eq_some_iff.mp h
      obtain ⟨⟨more, size'⟩, hrest, h⟩ := Option.bind_eq_some_iff.mp h
      obtain ⟨-, rfl⟩ := Prod.mk.inj (Option.some.inj h)
      exact (size_le_of_dumpValue j hj).trans (size_le_of_dumpMembers rest hrest)

end

mutual

/-- As long as the step is at most 1024, only a string can keep a value from being written. -/
theorem dumpValue_isSome_iff : ∀ (j : Json) {size currentIndent : ℕ},
    Room indentStep size currentIndent →
      ((dumpValue floats prettyPrint indentStep size currentIndent j).isSome ↔
        ∀ s ∈ j.strings, IsUtf8 s)
  | .null, _, _, _ | .boolean _, _, _, _ | .numberInteger _, _, _, _ | .numberUnsigned _, _, _, _
  | .numberFloat _, _, _, _ => by simp [dumpValue, Json.strings]
  | .string s, _, _, _ => by
      rw [Json.strings_string, List.forall_mem_singleton, ← dumpEscaped_isSome_iff, dumpValue]
      cases dumpEscaped 0 0 [] s.toList <;> simp
  | .array [], _, _, _ => by simp [dumpValue]
  | .array (j :: rest), size, currentIndent, hroom => by
      have hroom' := hroom.resized
      rw [Json.strings_array, List.forall_mem_flatMap,
        ← dumpItems_isSome_iff (j :: rest) hroom', dumpValue, if_neg (by simp)]
      cases hitems : dumpItems floats prettyPrint indentStep _ _ (j :: rest) with
      | none => simp [hitems]
      | some written =>
          -- the blanks in front of the closing bracket are written with the size that the elements
          -- left
          have hle := (le_resized size _).trans (size_le_of_dumpItems _ hitems)
          obtain ⟨closing, hclosing⟩ := Option.isSome_iff_exists.mp
            ((hroom.mono hle).indentation prettyPrint)
          simp [hitems, hclosing]
  | .object [], _, _, _ => by simp [dumpValue]
  | .object (m :: rest), size, currentIndent, hroom => by
      have hroom' := hroom.resized
      rw [Json.strings_object, List.forall_mem_flatMap,
        ← dumpMembers_isSome_iff (m :: rest) hroom', dumpValue, if_neg (by simp)]
      cases hmembers : dumpMembers floats prettyPrint indentStep _ _ (m :: rest) with
      | none => simp [hmembers]
      | some written =>
          have hle := (le_resized size _).trans (size_le_of_dumpMembers _ hmembers)
          obtain ⟨closing, hclosing⟩ := Option.isSome_iff_exists.mp
            ((hroom.mono hle).indentation prettyPrint)
          simp [hmembers, hclosing]

/-- The same over the elements. -/
theorem dumpItems_isSome_iff : ∀ (items : List Json) {size new : ℕ}, Room indentStep size new →
    ((dumpItems floats prettyPrint indentStep size new items).isSome ↔
      ∀ j ∈ items, ∀ s ∈ j.strings, IsUtf8 s)
  | [], _, _, _ => by simp [dumpItems]
  | j :: rest, size, new, hroom => by
      obtain ⟨indent, hindent⟩ := Option.isSome_iff_exists.mp (hroom.indentation prettyPrint)
      rw [List.forall_mem_cons, ← dumpValue_isSome_iff j hroom, dumpItems, hindent]
      cases hj : dumpValue floats prettyPrint indentStep size new j with
      | none => simp
      | some written =>
          rw [← dumpItems_isSome_iff rest (hroom.mono (size_le_of_dumpValue j hj))]
          cases hrest : dumpItems floats prettyPrint indentStep written.2 new rest <;> simp [hrest]

/-- The same over the members. -/
theorem dumpMembers_isSome_iff : ∀ (members : List (String × Json)) {size new : ℕ},
    Room indentStep size new →
      ((dumpMembers floats prettyPrint indentStep size new members).isSome ↔
        ∀ m ∈ members, ∀ s ∈ m.1 :: m.2.strings, IsUtf8 s)
  | [], _, _, _ => by simp [dumpMembers]
  | (key, j) :: rest, size, new, hroom => by
      obtain ⟨indent, hindent⟩ := Option.isSome_iff_exists.mp (hroom.indentation prettyPrint)
      rw [List.forall_mem_cons, List.forall_mem_cons, ← dumpEscaped_isSome_iff,
        ← dumpValue_isSome_iff j hroom, dumpMembers, hindent]
      cases dumpEscaped 0 0 [] key.toList with
      | none => simp
      | some name =>
          cases hj : dumpValue floats prettyPrint indentStep size new j with
          | none => simp
          | some written =>
              rw [← dumpMembers_isSome_iff rest (hroom.mono (size_le_of_dumpValue j hj))]
              cases hrest : dumpMembers floats prettyPrint indentStep written.2 new rest <;>
                simp [hrest]

end

/-- The value begins with a line that is indented. -/
def Indents : Json → Bool
  | .array items => !items.isEmpty
  | .object members => !members.isEmpty
  | .null | .boolean _ | .numberInteger _ | .numberUnsigned _ | .numberFloat _ | .string _ => false

/-- With a longer step the first line reads past the end of `indent_string`. -/
theorem dumpValue_eq_none {j : Json} (hlong : 1025 < indentStep) (hint : indentStep < 2 ^ 32)
    (hindents : Indents j) : dumpValue floats true indentStep 512 0 j = none := by
  have hnew : newIndent indentStep 0 = indentStep := by
    rw [newIndent, Nat.zero_add, Nat.mod_eq_of_lt hint]
  have hresized : resized 512 indentStep = 1024 := if_pos (by omega)
  -- neither the 1024 blanks nor the null character behind them are enough
  have hpast : indentation true 1024 indentStep = none := by
    rw [indentation, if_pos rfl, if_neg (by omega), if_neg (by omega)]
  cases j with
  | array items =>
      cases items with
      | nil => cases hindents
      | cons j rest => simp [dumpValue, dumpItems, hnew, hresized, hpast]
  | object members =>
      cases members with
      | nil => cases hindents
      | cons m rest => simp [dumpValue, dumpMembers, hnew, hresized, hpast]
  | null | boolean | numberInteger | numberUnsigned | numberFloat | string => cases hindents

/-- What has no indented line does not depend on `indent_string`. -/
theorem dumpValue_of_not_indents {j : Json} (hindents : Indents j = false) (step step' : ℕ) :
    dumpValue floats prettyPrint step size currentIndent j =
      dumpValue floats prettyPrint step' size currentIndent j := by
  cases j with
  | array items =>
      cases items with
      | nil => simp [dumpValue]
      | cons j rest => cases hindents
  | object members =>
      cases members with
      | nil => simp [dumpValue]
      | cons m rest => cases hindents
  | null | boolean | numberInteger | numberUnsigned | numberFloat | string => simp [dumpValue]

/-- The indentation stays within the blanks of `indent_string`. -/
def Fits (indent : Int) (j : Json) : Prop := indent ≤ 1024 ∨ Indents j = false

/-- What is written with such an indentation is written with room for it. -/
theorem Fits.exists_room {indent : Int} {j : Json} (hfits : Fits indent j) :
    ∃ prettyPrint step, Room step 512 0 ∧
      dump floats indent j = (dumpValue floats prettyPrint step 512 0 j).map Prod.fst := by
  unfold dump
  split_ifs with hpretty
  · by_cases hshort : indent ≤ 1024
    · exact ⟨true, indent.toNat, room_initial (by omega), rfl⟩
    · -- nothing is indented, so that any step will do
      have hindents : Indents j = false := hfits.resolve_left hshort
      exact ⟨true, 0, room_initial (Nat.zero_le _), by rw [dumpValue_of_not_indents hindents _ 0]⟩
  · exact ⟨false, 0, room_initial (Nat.zero_le _), rfl⟩

/-- With an indentation that fits, a value is written unless a string is not UTF-8. -/
theorem dump_isSome_iff {indent : Int} {j : Json} (hfits : Fits indent j) :
    (dump floats indent j).isSome ↔ ∀ s ∈ j.strings, IsUtf8 s := by
  obtain ⟨prettyPrint, step, hroom, hdump⟩ := hfits.exists_room
  rw [hdump, Option.isSome_map, dumpValue_isSome_iff j hroom]

/-- With an indentation that is still longer, no array and no object with members is written. -/
theorem dump_eq_none {indent : Int} {j : Json} (hlong : 1025 < indent) (hint : indent < 2 ^ 31)
    (hindents : Indents j) : dump floats indent j = none := by
  rw [dump, if_pos (by omega), dumpValue_eq_none (by omega) (by omega) hindents, Option.map_none]

/-! ## What is written is read back -/

/-- `to_chars` writes numbers of JSON. -/
def Floats.Lawful (floats : Floats) : Prop := ∀ q, NumberText (floats.toChars q)

/-- The text of a floating-point number is read back, and is not that of an integer. -/
def Floats.ReadsBack (floats : Floats) (q : ℚ) : Prop :=
  numberType (floats.toChars q) = .float ∧ floats.strtod (floats.toChars q) = some q

/-- A member that comes behind all others is added at the end. -/
theorem assign_of_lt {members : List (String × Json)} {key : String}
    (h : ∀ m ∈ members, m.1.toList < key.toList) (v : Json) :
    assign members key v = members ++ [(key, v)] := by
  induction members with
  | nil => rfl
  | cons m rest ih =>
      rw [List.forall_mem_cons] at h
      have hne : key ≠ m.1 := by
        intro heq
        rw [heq] at h
        exact List.lt_irrefl _ h.1
      rw [assign, if_neg hne, if_neg (List.lt_asymm h.1), ih h.2, List.cons_append]

/-- Members in the order of their keys are added as they are. -/
theorem foldl_assign (done : List (String × Json)) {members : List (String × Json)}
    (h : (done ++ members).Pairwise (·.1.toList < ·.1.toList)) :
    members.foldl (fun acc m => assign acc m.1 m.2) done = done ++ members := by
  induction members generalizing done with
  | nil => rw [List.foldl_nil, List.append_nil]
  | cons m rest ih =>
      have hlt : ∀ m' ∈ done, m'.1.toList < m.1.toList := fun m' hm' =>
        (List.pairwise_append.mp h).2.2 m' hm' m List.mem_cons_self
      rw [List.foldl_cons, assign_of_lt hlt, ih _ (by simpa using h), List.append_assoc,
        List.singleton_append]

section Texts

variable (floats)

/-- What is written is the text of a value, and denotes the value that is read back. -/
def IsText (j : Json) (out : List Char) : Prop :=
  ∃ text node, out = encode text ∧ (∀ more, Value (text ++ more) node more) ∧
    (j.Ordered → j.Exact floats.ReadsBack → valueOf floats node = some j.reread)

/-- The same for the elements of an array, up to its closing bracket. -/
def AreTexts (items : List Json) (out : List Char) : Prop :=
  ∃ text nodes, out = encode text ∧
    (∀ start mid rest, skipWhite start = skipWhite (text ++ mid) → skipWhite mid = ']' :: rest →
      Elements start nodes rest) ∧
    ((∀ j ∈ items, j.Ordered) → Json.ExactItems floats.ReadsBack items →
      valuesOf floats nodes = some (items.map Json.reread))

/-- The same for the members of an object. -/
def AreMemberTexts (members : List (String × Json)) (out : List Char) : Prop :=
  ∃ text nodes, out = encode text ∧
    (∀ start mid rest, skipWhite start = skipWhite (text ++ mid) →
      skipWhite mid = '\x7d' :: rest → Members start nodes rest) ∧
    ((∀ m ∈ members, m.2.Ordered) → Json.ExactMembers floats.ReadsBack members →
      membersOf floats nodes = some (members.map fun m => (m.1, m.2.reread)))

end Texts

/-- An integer, of either type. -/
theorem isText_integer {i : Int} {j : Json}
    (hj : j.reread = if 0 ≤ i then .numberUnsigned i.toNat else .numberInteger i)
    (hexact : j.Exact floats.ReadsBack → -2 ^ 63 ≤ i ∧ i < 2 ^ 64) :
    IsText floats j (dumpInteger i) := by
  have hnumber := numberText_toString i
  -- the text of an integer is in its range if the value is
  have hstrtol : CInt.strtol (String.ofList (toString i).toList) = some i := by
    rw [String.ofList_toList, CInt.strtol_toString]
  refine ⟨(toString i).toList, .number (toString i).toList, ?_, fun more => .number _ _ hnumber, ?_⟩
  · rw [dumpInteger_eq, encode_of_ascii hnumber.ascii]
  · intro _ hj'
    obtain ⟨hlow, hhigh⟩ := hexact hj'
    rw [valueOf, numberType_toString, hj]
    split_ifs with hi
    · have hconvert : floats.convert .unsigned (toString i).toList = .valueUnsigned i.toNat := by
        unfold Floats.convert
        rw [hstrtol]
        exact if_pos hhigh
      rw [hconvert]
      rfl
    · have hconvert : floats.convert .integer (toString i).toList = .valueInteger i := by
        unfold Floats.convert
        rw [hstrtol]
        exact if_pos ⟨hlow, by omega⟩
      rw [hconvert]
      rfl

/-- A floating-point number, as `to_chars` writes it. -/
theorem isText_float (hfloats : floats.Lawful) (q : ℚ) :
    IsText floats (.numberFloat q) (floats.toChars q) := by
  have hnumber := hfloats q
  refine ⟨floats.toChars q, .number (floats.toChars q), (encode_of_ascii hnumber.ascii).symm,
    fun more => .number _ _ hnumber, ?_⟩
  rintro - ⟨htype, hstrtod⟩
  have hconvert : floats.convert .float (floats.toChars q) = .valueFloat (some q) := by
    unfold Floats.convert
    rw [hstrtod]
  rw [valueOf, htype, hconvert]
  rfl

/-- What is written between quotation marks. -/
theorem exists_name {s : String} {name : List Char}
    (h : dumpEscaped 0 0 [] s.toList = some name) :
    ∃ text, s = String.ofList (encode text) ∧ name = encode (text.flatMap escapeChar) := by
  obtain ⟨text, hs, hname⟩ := dumpEscaped_eq_some_iff.mp h
  exact ⟨text, by rw [← hs, String.ofList_toList], hname⟩

/-- A string. -/
theorem isText_string {s : String} {name : List Char}
    (h : dumpEscaped 0 0 [] s.toList = some name) :
    IsText floats (.string s) ('"' :: name ++ ['"']) := by
  obtain ⟨text, rfl, rfl⟩ := exists_name h
  refine ⟨'"' :: text.flatMap escapeChar ++ ['"'], .string text, by simp, fun more => ?_,
    fun _ _ => ?_⟩
  · rw [List.append_assoc]
    exact .string (stringBody_escape text more)
  · rw [valueOf, Json.reread_string]

/-! White space is written only between tokens. -/

/-- Line breaks. -/
theorem white_ifPretty {text : List Char} (h : ∀ c ∈ text, isWhite c) (pretty : Bool) :
    ∀ c ∈ ifPretty pretty text, isWhite c := by
  unfold ifPretty
  split_ifs
  · exact h
  · simp

/-- Blanks. -/
theorem white_replicate (n : ℕ) : ∀ c ∈ List.replicate n ' ', isWhite c := by
  intro c hc
  rw [List.eq_of_mem_replicate hc]
  rfl

section Containers

variable {j : Json} {out white white' : List Char} (hwhite : ∀ c ∈ white, isWhite c)
  (hwhite' : ∀ c ∈ white', isWhite c)
include hwhite

/-- The last element of an array. -/
theorem IsText.last (h : IsText floats j out) : AreTexts floats [j] (white ++ out) := by
  obtain ⟨text, node, rfl, hnode, hj⟩ := h
  refine ⟨white ++ text, [node], by rw [encode_append, encode_white hwhite], ?_, ?_⟩
  · intro start mid rest hstart hclose
    rw [List.append_assoc, skipWhite_append hwhite, (hnode mid).skipWhite_eq] at hstart
    refine .last ?_ hclose
    rw [hstart]
    exact hnode mid
  · intro hordered hexact
    rw [List.forall_mem_singleton] at hordered
    simp [valuesOf, hj hordered hexact.1]

include hwhite'

/-- An element with others behind it. -/
theorem IsText.next {rest : List Json} {more : List Char} (h : IsText floats j out)
    (hmore : AreTexts floats rest more) :
    AreTexts floats (j :: rest) (white ++ out ++ ',' :: white' ++ more) := by
  obtain ⟨text, node, rfl, hnode, hj⟩ := h
  obtain ⟨textMore, nodes, rfl, hnodes, hrest⟩ := hmore
  refine ⟨white ++ text ++ ',' :: white' ++ textMore, node :: nodes, ?_, ?_, ?_⟩
  · simp [encode_white hwhite, encode_white hwhite']
  · intro start mid rest hstart hclose
    -- what follows the value is the comma, the white space behind it, and the others
    have hvalue := hnode (',' :: (white' ++ (textMore ++ mid)))
    simp only [List.append_assoc, List.cons_append] at hstart
    rw [skipWhite_append hwhite, hvalue.skipWhite_eq] at hstart
    rw [← hstart] at hvalue
    exact .next hvalue (skipWhite_cons rfl _)
      (hnodes _ mid rest (skipWhite_append hwhite' _) hclose)
  · intro hordered hexact
    rw [List.forall_mem_cons] at hordered
    simp [valuesOf, hj hordered.1 hexact.1, hrest hordered.2 hexact.2]

/-- The elements in their brackets. -/
theorem AreTexts.array {items : List Json} (h : AreTexts floats items out) :
    IsText floats (.array items) ('[' :: white ++ out ++ white' ++ [']']) := by
  obtain ⟨text, nodes, rfl, hnodes, hitems⟩ := h
  refine ⟨'[' :: white ++ text ++ white' ++ [']'], .array nodes, ?_, fun more => ?_, ?_⟩
  · simp [encode_white hwhite, encode_white hwhite']
  · have hclose : skipWhite (white' ++ ']' :: more) = ']' :: more := by
      rw [skipWhite_append hwhite', skipWhite_cons rfl]
    have helements := hnodes (white ++ (text ++ (white' ++ ']' :: more))) _ more
      (skipWhite_append hwhite _) hclose
    simpa using Value.array helements
  · intro hordered hexact
    rw [valueOf, hitems (Json.ordered_array.mp hordered) hexact, Option.map_some,
      Json.reread_array]

end Containers

section ObjectMembers

variable {key : String} {j : Json} {name out white space white' : List Char}
  (hwhite : ∀ c ∈ white, isWhite c) (hspace : ∀ c ∈ space, isWhite c)
  (hname : dumpEscaped 0 0 [] key.toList = some name) (h : IsText floats j out)
include hwhite hspace hname h

/-- The last member of an object. -/
theorem IsText.last_member :
    AreMemberTexts floats [(key, j)]
      (white ++ '"' :: name ++ '"' :: ':' :: space ++ out) := by
  obtain ⟨keyText, rfl, rfl⟩ := exists_name hname
  obtain ⟨text, node, rfl, hnode, hj⟩ := h
  refine ⟨white ++ '"' :: keyText.flatMap escapeChar ++ '"' :: ':' :: space ++ text,
    [(keyText, node)], ?_, ?_, ?_⟩
  · simp [encode_white hwhite, encode_white hspace]
  · intro start mid rest hstart hclose
    simp only [List.append_assoc, List.cons_append] at hstart
    rw [skipWhite_append hwhite, skipWhite_cons rfl] at hstart
    refine .last hstart (stringBody_escape keyText _) (skipWhite_cons rfl _) ?_ hclose
    rw [skipWhite_append hspace, (hnode mid).skipWhite_eq]
    exact hnode mid
  · intro hordered hexact
    rw [List.forall_mem_singleton] at hordered
    simp [membersOf, hj hordered hexact.1]

/-- A member with others behind it. -/
theorem IsText.next_member (hwhite' : ∀ c ∈ white', isWhite c) {rest : List (String × Json)}
    {more : List Char} (hmore : AreMemberTexts floats rest more) :
    AreMemberTexts floats ((key, j) :: rest)
      (white ++ '"' :: name ++ '"' :: ':' :: space ++ out ++ ',' :: white' ++ more) := by
  obtain ⟨keyText, rfl, rfl⟩ := exists_name hname
  obtain ⟨text, node, rfl, hnode, hj⟩ := h
  obtain ⟨textMore, nodes, rfl, hnodes, hrest⟩ := hmore
  refine ⟨white ++ '"' :: keyText.flatMap escapeChar ++ '"' :: ':' :: space ++ text ++
    ',' :: white' ++ textMore, (keyText, node) :: nodes, ?_, ?_, ?_⟩
  · simp [encode_white hwhite, encode_white hspace, encode_white hwhite']
  · intro start mid rest hstart hclose
    have hvalue := hnode (',' :: (white' ++ (textMore ++ mid)))
    simp only [List.append_assoc, List.cons_append] at hstart
    rw [skipWhite_append hwhite, skipWhite_cons rfl] at hstart
    refine .next hstart (stringBody_escape keyText _) (skipWhite_cons rfl _) ?_
      (skipWhite_cons rfl _) (hnodes _ mid rest (skipWhite_append hwhite' _) hclose)
    rw [skipWhite_append hspace, hvalue.skipWhite_eq]
    exact hvalue
  · intro hordered hexact
    rw [List.forall_mem_cons] at hordered
    simp [membersOf, hj hordered.1 hexact.1, hrest hordered.2 hexact.2]

end ObjectMembers

/-- The members in their braces. -/
theorem AreMemberTexts.object {members : List (String × Json)} {out white white' : List Char}
    (h : AreMemberTexts floats members out) (hwhite : ∀ c ∈ white, isWhite c)
    (hwhite' : ∀ c ∈ white', isWhite c) :
    IsText floats (.object members) ('\x7b' :: white ++ out ++ white' ++ ['\x7d']) := by
  obtain ⟨text, nodes, rfl, hnodes, hmembers⟩ := h
  refine ⟨'\x7b' :: white ++ text ++ white' ++ ['\x7d'], .object nodes, ?_, fun more => ?_, ?_⟩
  · simp [encode_white hwhite, encode_white hwhite']
  · have hclose : skipWhite (white' ++ '\x7d' :: more) = '\x7d' :: more := by
      rw [skipWhite_append hwhite', skipWhite_cons rfl]
    have helements := hnodes (white ++ (text ++ (white' ++ '\x7d' :: more))) _ more
      (skipWhite_append hwhite _) hclose
    simpa using Value.object helements
  · intro hordered hexact
    obtain ⟨hsorted, hordered⟩ := Json.ordered_object.mp hordered
    -- with the keys in order no member replaces another one
    have hreread : (members.map fun m => (m.1, m.2.reread)).Pairwise
        (·.1.toList < ·.1.toList) := by
      rw [List.pairwise_map]
      exact hsorted
    rw [valueOf, hmembers hordered hexact, Option.map_some, foldl_assign [] hreread,
      Json.reread_object, List.nil_append]

/-- With enough room the indentation is white space. -/
theorem Room.white_indentation {blanks : List Char} (hroom : Room indentStep size currentIndent)
    (h : Nlohmann.indentation prettyPrint size currentIndent = some blanks) :
    ∀ c ∈ blanks, isWhite c := by
  unfold Nlohmann.indentation at h
  rw [if_pos hroom.current] at h
  split_ifs at h <;> obtain rfl := Option.some.inj h
  · exact white_replicate currentIndent
  · simp

/-- What stands before a closing bracket. -/
theorem white_closing {blanks : List Char} (h : ∀ c ∈ blanks, isWhite c) (pretty : Bool) :
    ∀ c ∈ ifPretty pretty ['\n'] ++ blanks, isWhite c :=
  List.forall_mem_append.mpr ⟨white_ifPretty (by simp [isWhite]) pretty, h⟩

mutual

/-- Whatever is written with enough room is the text of a value. -/
theorem isText_of_dumpValue (hfloats : floats.Lawful) :
    ∀ (j : Json) {size currentIndent size' : ℕ} {out : List Char},
      Room indentStep size currentIndent →
        dumpValue floats prettyPrint indentStep size currentIndent j = some (out, size') →
          IsText floats j out
  | .null, _, _, _, _, _, h => by
      obtain ⟨rfl, -⟩ := Prod.mk.inj (Option.some.inj h)
      exact ⟨['n', 'u', 'l', 'l'], .null, rfl, .nullLiteral, fun _ _ => rfl⟩
  | .boolean true, _, _, _, _, _, h => by
      obtain ⟨rfl, -⟩ := Prod.mk.inj (Option.some.inj h)
      exact ⟨['t', 'r', 'u', 'e'], .boolean true, rfl, .trueLiteral, fun _ _ => rfl⟩
  | .boolean false, _, _, _, _, _, h => by
      obtain ⟨rfl, -⟩ := Prod.mk.inj (Option.some.inj h)
      exact ⟨['f', 'a', 'l', 's', 'e'], .boolean false, rfl, .falseLiteral, fun _ _ => rfl⟩
  | .numberInteger i, _, _, _, _, _, h => by
      obtain ⟨rfl, -⟩ := Prod.mk.inj (Option.some.inj h)
      refine isText_integer (by rw [Json.reread]) fun hexact => ?_
      obtain ⟨hlow, hhigh⟩ := hexact
      omega
  | .numberUnsigned n, _, _, _, _, _, h => by
      obtain ⟨rfl, -⟩ := Prod.mk.inj (Option.some.inj h)
      refine isText_integer ?_ fun hexact => ?_
      · rw [Json.reread, if_pos (Int.natCast_nonneg n), Int.toNat_natCast]
      · have hlt : n < 2 ^ 64 := hexact
        omega
  | .numberFloat q, _, _, _, _, _, h => by
      obtain ⟨rfl, -⟩ := Prod.mk.inj (Option.some.inj h)
      exact isText_float hfloats q
  | .string s, _, _, _, _, _, h => by
      obtain ⟨name, hname, h⟩ := Option.bind_eq_some_iff.mp h
      obtain ⟨rfl, -⟩ := Prod.mk.inj (Option.some.inj h)
      exact isText_string hname
  | .array items, _, _, _, _, hroom, h => by
      rw [dumpValue] at h
      split_ifs at h with hempty
      · obtain rfl := List.isEmpty_iff.mp hempty
        obtain ⟨rfl, -⟩ := Prod.mk.inj (Option.some.inj h)
        exact ⟨['[', ']'], .array [], rfl, fun more => .emptyArray (skipWhite_cons rfl _),
          fun _ _ => rfl⟩
      · obtain ⟨⟨text, size⟩, htext, h⟩ := Option.bind_eq_some_iff.mp h
        obtain ⟨closing, hclosing, h⟩ := Option.bind_eq_some_iff.mp h
        obtain ⟨rfl, -⟩ := Prod.mk.inj (Option.some.inj h)
        have hitems :=
          areTexts_of_dumpItems hfloats items (by simpa using hempty) hroom.resized htext
        have hle := (le_resized _ _).trans (size_le_of_dumpItems _ htext)
        exact hitems.array (white_ifPretty (by simp [isWhite]) _)
          (white_closing ((hroom.mono hle).white_indentation hclosing) _)
  | .object members, _, _, _, _, hroom, h => by
      rw [dumpValue] at h
      split_ifs at h with hempty
      · obtain rfl := List.isEmpty_iff.mp hempty
        obtain ⟨rfl, -⟩ := Prod.mk.inj (Option.some.inj h)
        exact ⟨['\x7b', '\x7d'], .object [], rfl, fun more => .emptyObject (skipWhite_cons rfl _),
          fun _ _ => rfl⟩
      · obtain ⟨⟨text, size⟩, htext, h⟩ := Option.bind_eq_some_iff.mp h
        obtain ⟨closing, hclosing, h⟩ := Option.bind_eq_some_iff.mp h
        obtain ⟨rfl, -⟩ := Prod.mk.inj (Option.some.inj h)
        have hmembers :=
          areTexts_of_dumpMembers hfloats members (by simpa using hempty) hroom.resized htext
        have hle := (le_resized _ _).trans (size_le_of_dumpMembers _ htext)
        exact hmembers.object (white_ifPretty (by simp [isWhite]) _)
          (white_closing ((hroom.mono hle).white_indentation hclosing) _)

/-- Whatever is written of the elements is the text of them. -/
theorem areTexts_of_dumpItems (hfloats : floats.Lawful) :
    ∀ (items : List Json) {size new size' : ℕ} {out : List Char}, items ≠ [] →
      Room indentStep size new →
        dumpItems floats prettyPrint indentStep size new items = some (out, size') →
          AreTexts floats items out
  | [], _, _, _, _, hne, _, _ => absurd rfl hne
  | j :: rest, size, new, _, _, _, hroom, h => by
      obtain ⟨indent, hindent, h⟩ := Option.bind_eq_some_iff.mp h
      obtain ⟨⟨text, size⟩, htext, h⟩ := Option.bind_eq_some_iff.mp h
      obtain ⟨⟨more, size'⟩, hmore, h⟩ := Option.bind_eq_some_iff.mp h
      obtain ⟨rfl, -⟩ := Prod.mk.inj (Option.some.inj h)
      have hj := isText_of_dumpValue hfloats j hroom htext
      have hwhite := hroom.white_indentation hindent
      have hroom' := hroom.mono (size_le_of_dumpValue j htext)
      cases rest with
      | nil =>
          obtain ⟨rfl, -⟩ := Prod.mk.inj (Option.some.inj hmore)
          simpa using hj.last hwhite
      | cons j' rest =>
          have hrest :=
            areTexts_of_dumpItems hfloats (j' :: rest) (List.cons_ne_nil _ _) hroom' hmore
          exact hj.next hwhite (white_ifPretty (by simp [isWhite]) _) hrest

/-- Whatever is written of the members is the text of them. -/
theorem areTexts_of_dumpMembers (hfloats : floats.Lawful) :
    ∀ (members : List (String × Json)) {size new size' : ℕ} {out : List Char}, members ≠ [] →
      Room indentStep size new →
        dumpMembers floats prettyPrint indentStep size new members = some (out, size') →
          AreMemberTexts floats members out
  | [], _, _, _, _, hne, _, _ => absurd rfl hne
  | (key, j) :: rest, size, new, _, _, _, hroom, h => by
      obtain ⟨indent, hindent, h⟩ := Option.bind_eq_some_iff.mp h
      obtain ⟨name, hname, h⟩ := Option.bind_eq_some_iff.mp h
      obtain ⟨⟨text, size⟩, htext, h⟩ := Option.bind_eq_some_iff.mp h
      obtain ⟨⟨more, size'⟩, hmore, h⟩ := Option.bind_eq_some_iff.mp h
      obtain ⟨rfl, -⟩ := Prod.mk.inj (Option.some.inj h)
      have hj := isText_of_dumpValue hfloats j hroom htext
      have hwhite := hroom.white_indentation hindent
      have hroom' := hroom.mono (size_le_of_dumpValue j htext)
      have hspace : ∀ c ∈ ifPretty prettyPrint [' '], isWhite c :=
        white_ifPretty (by simp [isWhite]) _
      cases rest with
      | nil =>
          obtain ⟨rfl, -⟩ := Prod.mk.inj (Option.some.inj hmore)
          simpa using hj.last_member hwhite hspace hname
      | cons m rest =>
          have hrest :=
            areTexts_of_dumpMembers hfloats (m :: rest) (List.cons_ne_nil _ _) hroom' hmore
          exact hj.next_member hwhite hspace hname (white_ifPretty (by simp [isWhite]) _) hrest

end

/-- With an indentation that fits, what is written is the text of the value. -/
theorem isText_of_dump (hfloats : floats.Lawful) {indent : Int} {j : Json} {out : List Char}
    (hfits : Fits indent j) (h : dump floats indent j = some out) : IsText floats j out := by
  obtain ⟨prettyPrint, step, hroom, hdump⟩ := hfits.exists_room
  rw [hdump] at h
  obtain ⟨⟨out, size⟩, hvalue, rfl⟩ := Option.map_eq_some_iff.mp h
  exact isText_of_dumpValue hfloats j hroom hvalue

/-- What is written is read back. -/
theorem parse_dump (hfloats : floats.Lawful) {indent : Int} {j : Json} {out : List Char}
    (hordered : j.Ordered) (hexact : j.Exact floats.ReadsBack) (hfits : Fits indent j)
    (h : dump floats indent j = some out) : parse floats out = some j.reread := by
  obtain ⟨text, node, rfl, hnode, hj⟩ := isText_of_dump hfloats hfits h
  have hvalue := hnode []
  rw [List.append_nil] at hvalue
  have hdocument : Document text node := by
    refine ⟨[], ?_, rfl⟩
    rw [hvalue.skipWhite_eq]
    exact hvalue
  have hend : AtEnd [] := .head _
  have hparse := parse_complete (.inl rfl) hend hdocument (hj hordered hexact)
  rw [List.nil_append, List.append_nil] at hparse
  exact hparse

/-- With an indentation that fits, a value is written and read back if all its strings are UTF-8,
and otherwise it is not written. -/
theorem dump_parse_iff (hfloats : floats.Lawful) {j : Json} (hordered : j.Ordered)
    (hexact : j.Exact floats.ReadsBack) {indent : Int} (hfits : Fits indent j) :
    ((∃ out, dump floats indent j = some out ∧ parse floats out = some j.reread) ↔
      ∀ s ∈ j.strings, IsUtf8 s) ∧
    (dump floats indent j = none ↔ ¬ ∀ s ∈ j.strings, IsUtf8 s) := by
  have hwritten : (dump floats indent j).isSome ↔ ∀ s ∈ j.strings, IsUtf8 s := dump_isSome_iff hfits
  refine ⟨?_, ?_⟩
  · rw [← hwritten, Option.isSome_iff_exists]
    refine exists_congr fun out => and_iff_left_of_imp fun h => ?_
    exact parse_dump hfloats hordered hexact hfits h
  · rw [← hwritten, Option.not_isSome_iff_eq_none]

/-- A reading as the firmware writes it, with a number of each kind. -/
private def reading : Json :=
  .object [("id", .numberInteger 3), ("name", .string "P=\"1\"\n"), ("offset", .numberInteger (-2)),
    ("values", .array [.numberFloat (1 / 2), .numberFloat (-3 / 2), .null])]

/-- Writes and reads the multiples of one half, with one digit after the point. -/
private def halves : Floats where
  strtod text :=
    let digits := text.dropWhile (· = '-')
    let whole : ℚ := Nat.ofDigitChars 10 (digits.takeWhile Char.isDigit) 0
    let value := if digits.getLast? = some '5' then whole + 1 / 2 else whole
    some (if text.head? = some '-' then -value else value)
  toChars q :=
    (if q < 0 then ['-'] else []) ++ (q.num.natAbs / q.den).repr.toList ++
      (if q.den = 2 then ['.', '5'] else ['.', '0'])

private theorem halves_lawful : halves.Lawful := by
  intro q
  refine ⟨if q < 0 then ['-'] else [], (q.num.natAbs / q.den).repr.toList,
    if q.den = 2 then ['.', '5'] else ['.', '0'], [], (List.append_nil _).symm, ?_,
    whole_natRepr _, .inr ?_, .inl rfl⟩
  · split_ifs
    · exact .inr rfl
    · exact .inl rfl
  · split_ifs
    · exact ⟨['5'], rfl, digits_singleton rfl⟩
    · exact ⟨['0'], rfl, digits_singleton rfl⟩

private theorem halves_readsBack :
    halves.ReadsBack (1 / 2) ∧ halves.ReadsBack (-3 / 2) := by
  have hhalf : halves.toChars (1 / 2) = ['0', '.', '5'] := by decide +kernel
  have hthree : halves.toChars (-3 / 2) = ['-', '1', '.', '5'] := by decide +kernel
  rw [Floats.ReadsBack, Floats.ReadsBack, hhalf, hthree]
  decide +kernel

private theorem reading_strings :
    reading.strings = ["id", "name", "P=\"1\"\n", "offset", "values"] := by
  simp [reading, Json.strings, Json.itemStrings]

/-- A reading that is written and read back, and a string that is not written. -/
theorem dump_parse_reading :
    (∃ out, dump halves 4 reading = some out ∧ parse halves out = some reading.reread) ∧
      dump halves 4 (.string "\xff") = none := by
  have hordered : reading.Ordered := by
    refine ⟨by simp [List.cons_lt_cons_iff], trivial, trivial, trivial, ?_, trivial⟩
    exact ⟨trivial, trivial, trivial, trivial⟩
  have hexact : reading.Exact halves.ReadsBack :=
    ⟨⟨by decide, by decide⟩, trivial, ⟨by decide, by decide⟩,
      ⟨halves_readsBack.1, halves_readsBack.2, trivial, trivial⟩, trivial⟩
  have hascii : ∀ s ∈ reading.strings, s.toList.all (·.toNat < 0x80) := by
    rw [reading_strings]
    simp
  have hutf8 : ∀ s ∈ reading.strings, IsUtf8 s := fun s hs =>
    ⟨s.toList, (encode_of_ascii fun c hc =>
      of_decide_eq_true (List.all_eq_true.mp (hascii s hs) c hc)).symm⟩
  constructor
  · exact (dump_parse_iff halves_lawful hordered hexact (.inl (by decide))).1.mpr hutf8
  · refine (dump_parse_iff halves_lawful Json.ordered_string Json.exact_string
      (.inl (by decide))).2.mpr fun h => ?_
    rw [Json.strings_string, List.forall_mem_singleton] at h
    exact absurd h (by decide +kernel)

/-! ## The codec -/

/-- What the firmware uses of the library. -/
def codec (floats : Floats) : Json.Codec where
  parse text := parse floats text.toList
  dump j := (dump floats (-1) j).map String.ofList
  dumpIndented j := (dump floats 4 j).map String.ofList
  utf8 s := decide (IsUtf8 s)

/-- The library does what the firmware relies on. -/
theorem codec_lawful (hfloats : floats.Lawful) : (codec floats).Lawful where
  utf8_ascii s h := decide_eq_true ⟨s.toList, (encode_of_ascii h).symm⟩
  dump_isSome j := by
    have hfits : Fits (-1) j := .inl (by decide)
    simp only [codec, Option.isSome_map, dump_isSome_iff hfits, decide_eq_true_eq]
  dumpIndented_isSome j := by
    have hfits : Fits 4 j := .inl (by decide)
    simp only [codec, Option.isSome_map, dump_isSome_iff hfits, decide_eq_true_eq]
  utf8_dumpIndented j text h := by
    obtain ⟨out, hout, rfl⟩ := Option.map_eq_some_iff.mp h
    obtain ⟨text, node, rfl, -⟩ := isText_of_dump hfloats (.inl (by decide)) hout
    exact decide_eq_true ⟨text, String.toList_ofList⟩
  dump_ne_empty j h := by
    obtain ⟨out, hout, hempty⟩ := Option.map_eq_some_iff.mp h
    obtain ⟨text, node, rfl, hnode, -⟩ := isText_of_dump hfloats (.inl (by decide)) hout
    have hnil : encode text = [] := by
      rw [← String.toList_ofList (l := encode text), hempty]
      rfl
    have hne : text ++ [] ≠ [] := (hnode []).ne_nil
    rw [List.append_nil] at hne
    exact encode_ne_nil hne hnil

/-- The hypothesis is met. -/
theorem codec_lawful_halves : (codec halves).Lawful := codec_lawful halves_lawful

/-- What it writes without floating-point numbers it reads back. -/
theorem codec_faithful (hfloats : floats.Lawful) : (codec floats).Faithful := by
  intro j text hordered hexact h
  obtain ⟨out, hout, rfl⟩ := Option.map_eq_some_iff.mp h
  have hparse := parse_dump hfloats hordered (hexact.mono fun _ => False.elim)
    (.inl (by decide)) hout
  show parse floats (String.ofList out).toList = some j.reread
  rw [String.toList_ofList, hparse]

end CsiFirmware.Nlohmann
