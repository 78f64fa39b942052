import CsiFirmware.Lib.JsonText
import CsiFirmware.Task.Decode
import CsiFirmware.Webserver.SendDataToWeb

/-!
# The text of the readings

Reference: `NetWorkLayerImp::sendDataToWeb` and `TaskSerial::handleRecvData`.

The text is put together by hand: names and units stand between quotation marks as they are. It is
JSON with the names and units of the readings if and only if these are plain. The value of a reading
is chosen by two sentinels, -1 for a reading that is a `double` and -1.0 for one that is an `int`,
and a reading whose value is the integer -1 is taken for the other kind.
-/

namespace CsiFirmware.Webserver

open CInt JsonText CsiFirmware.Task

variable {δ : Type} [CDouble δ] [DecidableEq δ]

/-- The value that is shown for a reading. -/
def valueText (info : RTSrcInfo δ) : String :=
  if info.value.idata = -1 ∧ info.value.sData = "NULL" then CDouble.toStr info.value.ddata
  else if info.value.ddata = CDouble.negOne ∧ info.value.sData = "NULL" then
    toString info.value.idata
  else info.value.sData

/-- The JSON object with these three members. -/
def objectText (sourceName value unit : String) : String :=
  "\x7b\"sourceName\":\"" ++ sourceName ++ "\", \"value\":\"" ++ value ++ "\", \"unit\":\"" ++
    unit ++ "\"\x7d"

/-- The text of a reading is an object with its name, its value and its unit. -/
theorem sourceText_eq (info : RTSrcInfo δ) :
    sourceText info = objectText info.sourceName (valueText info) info.unit := rfl

/-- The request is answered with these readings: the current ones, or those kept from before. -/
inductive Selects (w : NetWorkLayerImp δ) (devSn : String) : List (RTSrcInfo δ) → Prop where
  | current (h : devSn = w.sn) : Selects w devSn w.vRTSrcInfo
  | cached (h : devSn ≠ w.sn) (pre : w.preSn = devSn) : Selects w devSn w.vPreRTSrcInfo

variable {w : NetWorkLayerImp δ} {devSn : String} {infos : List (RTSrcInfo δ)}

/-- The answer is the text of the readings that it is given with. -/
theorem Selects.text (h : Selects w devSn infos) : (sendDataToWeb w devSn).1 = listText infos := by
  cases h with
  | current h => rw [sendDataToWeb, if_pos h]
  | cached h pre => rw [sendDataToWeb, if_neg h, if_pos pre]

/-! ## The values -/

/-- The value of a decoded reading: an `int` if the factor is 1. -/
def readingText (d : Decoded δ) : String :=
  if d.point.factor = CDouble.one then toString d.value
  else CDouble.toStr (CDouble.scale d.value d.point.factor)

/-- The sentinels lead to the right kind of number, unless the reading is the integer -1. -/
theorem valueText_entry_iff
    (hdistinct : CDouble.toStr (CDouble.negOne : δ) ≠ toString (-1 : Int)) (d : Decoded δ) :
    valueText d.entry = readingText d ↔ ¬ (d.point.factor = CDouble.one ∧ d.value = -1) := by
  by_cases hone : d.point.factor = CDouble.one
  · by_cases hvalue : d.value = -1
    · -- the first sentinel does not tell this -1 from a reading that is a `double`
      have hwrong : valueText d.entry = CDouble.toStr (CDouble.negOne : δ) := by
        simp [valueText, Decoded.entry, hone, hvalue]
      have hright : readingText d = toString (-1 : Int) := by
        rw [readingText, if_pos hone, hvalue]
      rw [hwrong, hright]
      exact iff_of_false hdistinct (by simp [hone, hvalue])
    · have hint : valueText d.entry = readingText d := by
        simp [valueText, Decoded.entry, readingText, hone, hvalue]
      exact iff_of_true hint fun h => hvalue h.2
  · have hdouble : valueText d.entry = readingText d := by
      simp [valueText, Decoded.entry, readingText, hone]
    exact iff_of_true hdouble fun h => hone h.1

/-- The text, current or cached, shows a value for each decoded reading. All of them are the values
of the readings if and only if no reading is the integer -1. -/
theorem sendDataToWeb_values_iff {ds : List (Decoded δ)}
    (hdistinct : CDouble.toStr (CDouble.negOne : δ) ≠ toString (-1 : Int))
    (hselects : Selects w devSn (ds.map Decoded.entry)) :
    (sendDataToWeb w devSn).1 = "[" ++ ",".intercalate
        (ds.map fun d => objectText d.point.name (valueText d.entry) d.point.unit) ++ "]" ∧
      ((∀ d ∈ ds, valueText d.entry = readingText d) ↔
        ∀ d ∈ ds, ¬ (d.point.factor = CDouble.one ∧ d.value = -1)) := by
  constructor
  · have hmap : (ds.map Decoded.entry).map sourceText =
        ds.map fun d => objectText d.point.name (valueText d.entry) d.point.unit := by
      rw [List.map_map]
      exact List.map_congr_left fun d _ => sourceText_eq d.entry
    rw [hselects.text, listText, hmap]
  · exact forall₂_congr fun d _ => valueText_entry_iff hdistinct d

/-- A reading with this factor. -/
private def scaled (factor : Decimal) (value : Int) : Decoded Decimal :=
  { block := .fresh
    point :=
      { name := "state", description := "", dataType := "U32", factor, unit := "", res := 0
        invalid := 0, mpkg := [{ func := 0, reg := (14, 16), len := (0, 0) }] }
    count := 0, value }

/-- A reading that is an `int`. -/
private def counted (value : Int) : Decoded Decimal := scaled CDouble.one value

/-- A server with these readings, current for one device and cached for another. -/
private def showing (infos : List (RTSrcInfo Decimal)) : NetWorkLayerImp Decimal :=
  { vRTSrcInfo := infos, vPreRTSrcInfo := infos, sn := "0001", preSn := "0002" }

/-- A counter, and a value of -1 that is scaled by one half. -/
theorem sendDataToWeb_values_counted :
    let ds := [counted 5, scaled ⟨500000⟩ (-1)]
    (sendDataToWeb (showing (ds.map Decoded.entry)) "0002").1 = "[" ++ ",".intercalate
        (ds.map fun d => objectText d.point.name (valueText d.entry) d.point.unit) ++ "]" ∧
      ∀ d ∈ ds, valueText d.entry = readingText d := by
  intro ds
  have hselects : Selects (showing (ds.map Decoded.entry)) "0002" (ds.map Decoded.entry) :=
    .cached (by decide) rfl
  have hvalues := sendDataToWeb_values_iff (by decide +kernel) hselects
  exact ⟨hvalues.1, hvalues.2.mpr (by decide +kernel)⟩

/-- The integer -1 is shown as the `double` -1. -/
theorem sendDataToWeb_not_values :
    ¬ ∀ (w : NetWorkLayerImp Decimal) (devSn : String) (ds : List (Decoded Decimal)),
      Selects w devSn (ds.map Decoded.entry) → ∀ d ∈ ds, valueText d.entry = readingText d := by
  intro h
  have hselects : Selects (showing [(counted (-1)).entry]) "0001" ([counted (-1)].map
      Decoded.entry) := .current rfl
  have hvalue := h _ _ _ hselects _ (List.mem_singleton_self _)
  have hdistinct : CDouble.toStr (CDouble.negOne : Decimal) ≠ toString (-1 : Int) := by
    decide +kernel
  exact (valueText_entry_iff hdistinct (counted (-1))).mp hvalue ⟨rfl, rfl⟩

/-! ## The text, character by character -/

/-- The text of a reading, and what follows it. -/
def sourceChars (info : RTSrcInfo δ) (rest : List Char) : List Char :=
  '\x7b' :: memberText "sourceName".toList info.sourceName.toList
    (',' :: ' ' :: memberText "value".toList (valueText info).toList
      (',' :: ' ' :: memberText "unit".toList info.unit.toList ('\x7d' :: rest)))

/-- The characters of an object are three members between braces. -/
theorem toList_objectText (sourceName value unit : String) :
    (objectText sourceName value unit).toList =
      '\x7b' :: memberText "sourceName".toList sourceName.toList
        (',' :: ' ' :: memberText "value".toList value.toList
          (',' :: ' ' :: memberText "unit".toList unit.toList ['\x7d'])) := by
  unfold objectText
  simp [memberText]

/-- The characters of a reading, with nothing after it. -/
theorem toList_sourceText (info : RTSrcInfo δ) :
    (sourceText info).toList = sourceChars info [] :=
  toList_objectText info.sourceName (valueText info) info.unit

/-- What follows a reading comes after its brace. -/
theorem sourceChars_append (info : RTSrcInfo δ) (rest : List Char) :
    sourceChars info [] ++ rest = sourceChars info rest := by
  simp [sourceChars, memberText]

/-- The texts of the readings with commas between them, and the closing bracket. -/
def elementsChars : List (RTSrcInfo δ) → List Char
  | [] => [']']
  | [info] => sourceChars info [']']
  | info :: infos => sourceChars info (',' :: elementsChars infos)

/-- The characters of the list, from its bracket on. -/
theorem toList_listText (infos : List (RTSrcInfo δ)) :
    (listText infos).toList = '[' :: elementsChars infos := by
  have helements : (",".intercalate (infos.map sourceText)).toList ++ [']'] =
      elementsChars infos := by
    -- the commas stand between the readings, so the last one is a case of its own
    induction infos with
    | nil => simp [elementsChars]
    | cons info infos ih =>
        cases infos with
        | nil =>
            rw [List.map_singleton, String.intercalate_singleton, toList_sourceText,
              sourceChars_append, elementsChars]
        | cons info' infos =>
            rw [List.map_cons, List.map_cons, String.intercalate_cons_cons, String.toList_append,
              String.toList_append, toList_sourceText, elementsChars, ← ih, List.append_assoc,
              List.append_assoc, sourceChars_append]
            · rfl
            · simp
  rw [listText, String.toList_append, String.toList_append, List.append_assoc, ← helements]
  rfl

/-! ## Well-formed text -/

/-- The object has such a member, and no other value for its key. -/
structure Names (members : List (List Char × Node)) (key s : String) : Prop where
  exists_mem : ∃ node, (key.toList, node) ∈ members
  eq_of_mem : ∀ node, (key.toList, node) ∈ members → node = .string s.toList

/-- The object shows the name and the unit of the reading. -/
def Describes (info : RTSrcInfo δ) (node : Node) : Prop :=
  ∃ members, node = .object members ∧ Names members "sourceName" info.sourceName ∧
    Names members "unit" info.unit

/-- The text is a JSON array with one object for each reading, in this order. -/
def ShowsAll (text : String) (infos : List (RTSrcInfo δ)) : Prop :=
  ∃ items, Document text.toList (.array items) ∧ List.Forall₂ Describes infos items

/-- All characters of the string are plain. -/
def PlainText (s : String) : Prop := ∀ c ∈ s.toList, Plain c

instance (s : String) : Decidable (PlainText s) :=
  inferInstanceAs (Decidable (∀ c ∈ s.toList, Plain c))

/-- The name and the unit of a reading are plain. -/
def PlainLabels (info : RTSrcInfo δ) : Prop :=
  PlainText info.sourceName ∧ PlainText info.unit

/-- The three keys are plain. -/
theorem plainText_key : PlainText "sourceName" ∧ PlainText "value" ∧ PlainText "unit" := by
  simp [PlainText, Plain]

/-- What is read from the text of a reading shows its name and unit only if they are plain. -/
theorem plainLabels_of_value {info : RTSrcInfo δ} {text rest : List Char} {node : Node}
    (hvalue : PlainText (valueText info)) (htext : Guarded ('\x7d' :: text))
    (h : Value (sourceChars info text) node rest) (hshows : Describes info node) :
    PlainLabels info ∧ rest = text := by
  obtain ⟨members, rfl, hname, hunit⟩ := hshows
  obtain ⟨hsourceName, hvalueKey, hunitKey⟩ := plainText_key
  rcases h.of_brace with ⟨-, hclose⟩ | ⟨_, hnode, hmembers⟩
  · cases (List.cons.inj hclose).1
  obtain rfl := Node.object.inj hnode
  have hguard (rest : List Char) : Guarded (',' :: ' ' :: '"' :: rest) :=
    guarded_of_plain (s := [',', ' ']) (by simp [Plain])
  obtain ⟨hplainName, members, rfl, hafterName⟩ :=
    hmembers.of_memberText_comma hsourceName (hguard _) rfl
      (fun _ _ _ hmem => Node.string.inj (hname.eq_of_mem _ hmem)) rfl
  obtain ⟨-, members, rfl, hafterValue⟩ :=
    hafterName.of_memberText_comma hvalueKey (hguard _) rfl
      (fun _ _ hbody _ => ((stringBody_plain_iff hvalue).mp hbody).1) rfl
  -- the last member of the object: the string must end in front of the brace
  obtain ⟨hplainUnit, -, hrest⟩ :=
    hafterValue.of_memberText_close hunitKey htext rfl
      (fun _ _ _ hmem => Node.string.inj (hunit.eq_of_mem _
        (List.mem_cons_of_mem _ (List.mem_cons_of_mem _ hmem)))) rfl
  exact ⟨⟨hplainName, hplainUnit⟩, hrest⟩

/-- What is read from the text of a reading with a plain name and a plain unit. -/
theorem value_of_plainLabels {info : RTSrcInfo δ} (hvalue : PlainText (valueText info))
    (hplain : PlainLabels info) (text : List Char) :
    ∃ node, Value (sourceChars info text) node text ∧ Describes info node := by
  obtain ⟨hsourceName, hvalueKey, hunitKey⟩ := plainText_key
  let members : List (List Char × Node) :=
    [("sourceName".toList, .string info.sourceName.toList),
      ("value".toList, .string (valueText info).toList), ("unit".toList, .string info.unit.toList)]
  have hunit : Members (' ' :: memberText "unit".toList info.unit.toList ('\x7d' :: text))
      [("unit".toList, .string info.unit.toList)] text :=
    Members.last_memberText hunitKey hplain.2 rfl rfl
  have hvalue : Members (' ' :: memberText "value".toList (valueText info).toList
      (',' :: ' ' :: memberText "unit".toList info.unit.toList ('\x7d' :: text)))
      [("value".toList, .string (valueText info).toList),
        ("unit".toList, .string info.unit.toList)] text :=
    Members.next_memberText hvalueKey hvalue rfl rfl hunit
  have hmembers : Value (sourceChars info text) (.object members) text :=
    .object (Members.next_memberText hsourceName hplain.1 rfl rfl hvalue)
  refine ⟨.object members, hmembers, members, rfl, ⟨?_, ?_⟩, ⟨?_, ?_⟩⟩
  · exact ⟨.string info.sourceName.toList, by simp [members]⟩
  · simp [members]
  · exact ⟨.string info.unit.toList, by simp [members]⟩
  · simp [members]

/-! ## The array -/

/-- The object of a reading is followed by a comma and by the brace of the next one, which no string
can swallow unnoticed. -/
theorem guarded_elementsChars (info : RTSrcInfo δ) (infos : List (RTSrcInfo δ)) :
    Guarded ('\x7d' :: ',' :: elementsChars (info :: infos)) := by
  have hplain : ∀ c ∈ ['\x7d', ',', '\x7b'], Plain c := by simp [Plain]
  cases infos with
  | nil => exact guarded_of_plain hplain
  | cons info' infos => exact guarded_of_plain hplain

/-- An array that shows all readings has plain labels. -/
theorem plainLabels_of_elements {info : RTSrcInfo δ} {infos : List (RTSrcInfo δ)}
    {rest : List Char} {items : List Node}
    (hvalue : ∀ info' ∈ info :: infos, PlainText (valueText info'))
    (h : Elements (elementsChars (info :: infos)) items rest)
    (hshows : List.Forall₂ Describes (info :: infos) items) :
    ∀ info' ∈ info :: infos, PlainLabels info' := by
  induction infos generalizing info items with
  | nil =>
      have hguard : Guarded ['\x7d', ']'] := guarded_of_quote_not_mem (by simp)
      cases hshows with
      | cons hitem htail =>
          have hinfo := hvalue info List.mem_cons_self
          have hlabels : PlainLabels info := by
            cases h with
            | last value => exact (plainLabels_of_value hinfo hguard value hitem).1
            | next value => exact (plainLabels_of_value hinfo hguard value hitem).1
          simpa using hlabels
  | cons info' infos ih =>
      rw [List.forall_mem_cons] at hvalue
      cases hshows with
      | cons hitem htail =>
          cases h with
          | last => cases htail
          | next value comma tail =>
              -- the object ends at its own brace, so the rest is the text of the other readings
              obtain ⟨hlabels, rfl⟩ :=
                plainLabels_of_value hvalue.1 (guarded_elementsChars info' infos) value hitem
              obtain ⟨-, rfl⟩ := List.cons.inj comma
              exact List.forall_mem_cons.mpr ⟨hlabels, ih hvalue.2 tail htail⟩

/-- Readings with plain labels are shown one after another. -/
theorem elements_of_plainLabels {info : RTSrcInfo δ} {infos : List (RTSrcInfo δ)}
    (hvalue : ∀ info' ∈ info :: infos, PlainText (valueText info'))
    (hplain : ∀ info' ∈ info :: infos, PlainLabels info') :
    ∃ items, Elements (elementsChars (info :: infos)) items [] ∧
      List.Forall₂ Describes (info :: infos) items := by
  induction infos generalizing info with
  | nil =>
      obtain ⟨node, hnode, hdescribes⟩ := value_of_plainLabels
        (hvalue info List.mem_cons_self) (hplain info List.mem_cons_self) [']']
      exact ⟨[node], .last hnode rfl, .cons hdescribes .nil⟩
  | cons info' infos ih =>
      rw [List.forall_mem_cons] at hvalue hplain
      obtain ⟨node, hnode, hdescribes⟩ :=
        value_of_plainLabels hvalue.1 hplain.1 (',' :: elementsChars (info' :: infos))
      obtain ⟨items, hitems, hall⟩ := ih hvalue.2 hplain.2
      exact ⟨node :: items, .next hnode rfl hitems, .cons hdescribes hall⟩

/-- A list is shown if and only if its labels are plain. -/
theorem showsAll_iff (hvalue : ∀ info ∈ infos, PlainText (valueText info)) :
    ShowsAll (listText infos) infos ↔ ∀ info ∈ infos, PlainLabels info := by
  rw [ShowsAll, toList_listText]
  cases infos with
  | nil =>
      have hempty : Document ('[' :: elementsChars ([] : List (RTSrcInfo δ))) (.array []) :=
        ⟨[], .emptyArray rfl, rfl⟩
      exact ⟨fun _ _ hinfo => absurd hinfo List.not_mem_nil, fun _ => ⟨[], hempty, .nil⟩⟩
  | cons info infos =>
      constructor
      · rintro ⟨items, ⟨rest, hvalueText, -⟩, hshows⟩
        rcases hvalueText.of_bracket with ⟨hnil, -⟩ | ⟨_, hitems, helements⟩
        · obtain rfl := Node.array.inj hnil
          cases hshows
        · obtain rfl := Node.array.inj hitems
          exact plainLabels_of_elements hvalue helements hshows
      · intro hplain
        obtain ⟨items, hitems, hall⟩ := elements_of_plainLabels hvalue hplain
        exact ⟨items, ⟨[], .array hitems, rfl⟩, hall⟩

/-! ## Readings in plain characters -/

/-- A digit is plain. -/
theorem plain_of_isDigit {c : Char} (h : c.isDigit) : Plain c := by
  have hcode := toNat_of_isDigit h
  refine ⟨?_, ?_, by omega⟩
  · rintro rfl
    cases h
  · rintro rfl
    cases h

/-- An integer is written in plain characters. -/
theorem plainText_toString (i : Int) : PlainText (toString i) := by
  intro c hc
  rcases mem_toString c hc with rfl | hdigit
  · decide
  · exact plain_of_isDigit hdigit

/-- The value of a reading that `handleRecvData` wrote is plain. -/
theorem plainText_valueText {info : RTSrcInfo δ} (hprint : ∀ d : δ, PlainText (CDouble.toStr d))
    (hinfo : info.value.sData = "NULL") : PlainText (valueText info) := by
  unfold valueText
  split
  · exact hprint _
  · split
    · exact plainText_toString _
    · rw [hinfo]
      simp [PlainText, Plain]

/-- For readings as `handleRecvData` writes them, current or cached, the text is a JSON array with
one object for each reading, in order, that decodes to its name and unit, if and only if every name
and every unit is free of quotation marks, backslashes and control characters. -/
theorem sendDataToWeb_json_iff (hprint : ∀ d : δ, PlainText (CDouble.toStr d))
    (hselects : Selects w devSn infos) (hinfos : ∀ info ∈ infos, info.value.sData = "NULL") :
    ShowsAll (sendDataToWeb w devSn).1 infos ↔
      ∀ info ∈ infos, PlainText info.sourceName ∧ PlainText info.unit := by
  rw [hselects.text]
  exact showsAll_iff fun info hinfo => plainText_valueText hprint (hinfos info hinfo)

/-- A text is plain if its parts are. -/
theorem plainText_append {s t : String} : PlainText (s ++ t) ↔ PlainText s ∧ PlainText t := by
  simp only [PlainText, String.toList_append, List.forall_mem_append]

/-- Decimal fractions are printed with digits, a minus and a point. -/
theorem plainText_decimal (d : Decimal) : PlainText (CDouble.toStr d) := by
  have hsign : PlainText (if d.micro < 0 then "-" else "") := by
    split <;> simp [PlainText, Plain]
  have hwhole : PlainText (toString (d.micro.natAbs / 1000000)) :=
    fun c hc => plain_of_isDigit (isDigit_of_mem_natRepr c hc)
  have hpoint : PlainText "." := by simp [PlainText, Plain]
  have hdigits (n : ℕ) : PlainText (sixDigits n) := by
    intro c hc
    rw [sixDigits, String.toList_ofList] at hc
    obtain ⟨i, -, rfl⟩ := List.mem_map.mp hc
    apply plain_of_isDigit
    rw [Nat.isDigit_digitChar]
    simp [Nat.mod_lt]
  simp only [CDouble.toStr, plainText_append]
  exact ⟨⟨⟨hsign, hwhole⟩, hpoint⟩, hdigits _⟩

/-- A reading of this name, as `handleRecvData` writes it. -/
private def named (sourceName : String) : RTSrcInfo Decimal :=
  { title := "运行信息", sourceName, value := ⟨230, CDouble.negOne, "NULL"⟩, buf := [], unit := "V" }

/-- Two readings from the cached list. -/
theorem sendDataToWeb_json_voltage :
    let infos := [named "voltage", named "电压"]
    ShowsAll (sendDataToWeb (showing infos) "0002").1 infos := by
  intro infos
  have hselects : Selects (showing infos) "0002" infos := .cached (by decide) rfl
  refine (sendDataToWeb_json_iff plainText_decimal hselects (by simp [infos, named])).mpr ?_
  simp [infos, named, PlainText, Plain]

/-- A name with a quotation mark ends early. -/
theorem sendDataToWeb_not_json :
    ¬ ∀ (w : NetWorkLayerImp Decimal) (devSn : String) (infos : List (RTSrcInfo Decimal)),
      Selects w devSn infos → (∀ info ∈ infos, info.value.sData = "NULL") →
        ShowsAll (sendDataToWeb w devSn).1 infos := by
  intro h
  have hselects : Selects (showing [named "3\" valve"]) "0001" [named "3\" valve"] := .current rfl
  have hshows := h _ _ _ hselects (by simp [named])
  rw [hselects.text, showsAll_iff] at hshows
  · -- the quotation mark in the name is not plain
    have hplain := (hshows _ (List.mem_singleton_self _)).1
    simp [named, PlainText, Plain] at hplain
  · exact fun info hinfo => plainText_valueText plainText_decimal (by simp_all [named])

end CsiFirmware.Webserver
