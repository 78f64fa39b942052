import CsiFirmware.Webserver.TableRoundTrip

/-!
# The parsers of channels

Reference: `NetWorkLayerImp::addChannel`, `NetWorkLayerImp::editChannel` and
`NetWorkLayerImp::delChannel`.

All three read the same members of a request. Baud rate and data bits may be numbers when a channel
is added; the other two handlers read them with `get<std::string>`, which throws there. A channel
that is sent with strings throughout is read by all of them in the same way.
-/

namespace CsiFirmware.Webserver

open CInt Json CsiFirmware.Common

/-- The channels agree on what a request tells about them, but for the `Id`. -/
structure SameParameters (serialInfo serialInfo' : SerialIdInfo) : Prop where
  name : serialInfo.name = serialInfo'.name
  serialName : serialInfo.serialName = serialInfo'.serialName
  serialParamInfo : serialInfo.serialParamInfo = serialInfo'.serialParamInfo

/-- The Setting service is told about a channel. -/
def publication (act : Action) (serialInfo : SerialIdInfo) : List Effect :=
  [.askSerial "SerialTable/addSerial" [{ act, serialInfo }]]

/-- All three handlers reject a request without publishing, or publish the same channel. -/
inductive ParsersAgree (b : Backend) (recvData : String) : Prop where
  | rejected (add : addChannel b recvData = .failed) (edit : editChannel b recvData = .failed)
      (del : delChannel b recvData = .failed)
  | accepted (added edited deleted : SerialIdInfo)
      (add : (addChannel b recvData).effects = publication .add added)
      (edit : (editChannel b recvData).effects = publication .edit edited)
      (del : (delChannel b recvData).effects = publication .del deleted)
      (sameEdited : SameParameters edited added) (sameDeleted : SameParameters deleted added)

/-- What `addChannel` reads a baud rate from. -/
def IsNumeral : Json → Prop
  | .string _ | .numberInteger _ | .numberUnsigned _ | .numberFloat _ | .boolean _ => True
  | .null | .array _ | .object _ => False

/-- The baud rate or the data bits are not a string, and apart from that the channel is well
formed. -/
structure SentAsNumber (data : Json) : Prop where
  texts : ∀ key ∈ ["portName", "port", "parity", "stopBits"],
    ∃ s, data.member key = some (.string s)
  numerals : ∀ key ∈ ["baudRate", "dataBits"], ∃ j, data.member key = some j ∧ IsNumeral j
  number : ∃ key ∈ ["baudRate", "dataBits"], ∀ s, data.member key ≠ some (.string s)

variable {b : Backend} {recvData id : String} {http data : Json}

/-! ## Members -/

section Members

variable (hdata : http.member "data" = some data)
include hdata

/-- `get<std::string>` does not throw if the member is a string. -/
theorem dataString_isSome_iff {key : String} :
    (dataString http key).isSome ↔ ∃ s, data.member key = some (.string s) := by
  rw [dataString_of_data hdata]
  cases hmember : data.member key with
  | none => simp
  | some j => cases j <;> simp [getString]

/-- The baud rate of a channel that is changed has to be a string. -/
theorem numeral_isSome_iff {key : String} :
    (numeral b http key).isSome ↔ ∃ s, data.member key = some (.string s) := by
  rw [← dataString_isSome_iff hdata, numeral]
  cases dataString http key <;> simp

/-- The baud rate of a channel that is added may be a number as well. -/
theorem numeralOrInt_isSome_iff {key : String} :
    (numeralOrInt b http key).isSome ↔ ∃ j, data.member key = some j ∧ IsNumeral j := by
  rw [numeralOrInt, dataMember_of_data hdata]
  cases hmember : data.member key with
  | none => simp
  -- `get<int>` takes numbers and booleans
  | some j => cases j <;> simp [getInt, IsNumeral]

end Members

/-- A string is read in the same way by all handlers. -/
theorem numeralOrInt_of_numeral {key : String} {i : Int} (h : numeral b http key = some i) :
    numeralOrInt b http key = some i := by
  simp only [numeral, dataString, Option.bind_eq_bind, Option.bind_eq_some_iff] at h
  obtain ⟨s, ⟨j, hmember, hstring⟩, hi⟩ := h
  obtain rfl := getString_eq_some_iff.mp hstring
  rw [numeralOrInt, hmember]
  exact hi

/-! ## Requests -/

/-- A request describes a channel if all its members can be read. -/
theorem parseChannel_isSome_iff {readId : Json → Option String}
    {readNumeral : Json → String → Option Int} (hbody : b.json.parseObject recvData = some http) :
    (parseChannel b readId readNumeral recvData).isSome ↔
      (readId http).isSome ∧
        (∀ key ∈ ["portName", "port", "parity", "stopBits"], (dataString http key).isSome) ∧
          ∀ key ∈ ["baudRate", "dataBits"], (readNumeral http key).isSome := by
  rw [parseChannel, hbody]
  simp only [Option.bind_eq_bind, Option.bind_some, Option.isSome_iff_exists,
    Option.bind_eq_some_iff, List.forall_mem_cons, List.not_mem_nil, false_imp_iff, forall_const,
    and_true]
  constructor
  · rintro ⟨_, id, hid, name, hname, port, hport, baud, hbaud, bits, hbits, parity, hparity, stop,
      hstop, -⟩
    exact ⟨⟨id, hid⟩, ⟨⟨name, hname⟩, ⟨port, hport⟩, ⟨parity, hparity⟩, ⟨stop, hstop⟩⟩,
      ⟨baud, hbaud⟩, ⟨bits, hbits⟩⟩
  · rintro ⟨⟨id, hid⟩, ⟨⟨name, hname⟩, ⟨port, hport⟩, ⟨parity, hparity⟩, ⟨stop, hstop⟩⟩,
      ⟨baud, hbaud⟩, ⟨bits, hbits⟩⟩
    exact ⟨_, id, hid, name, hname, port, hport, baud, hbaud, bits, hbits, parity, hparity, stop,
      hstop, rfl⟩

/-- What a handler reads from a channel that is changed, `addChannel` reads as well. -/
theorem parseChannel_of_text {serialInfo : SerialIdInfo}
    (h : parseChannel b (dataString · "Id") (numeral b) recvData = some serialInfo) :
    parseChannel b (fun _ => some "") (numeralOrInt b) recvData =
      some { serialInfo with id := "" } := by
  simp only [parseChannel, Option.bind_eq_bind, Option.bind_eq_some_iff] at h
  obtain ⟨http, hbody, id, -, name, hname, port, hport, baud, hbaud, bits, hbits, parity, hparity,
    stop, hstop, hserialInfo⟩ := h
  obtain rfl := Option.some.inj hserialInfo
  rw [parseChannel, hbody]
  simp only [Option.bind_eq_bind, Option.bind_some, hname, hport, hparity, hstop,
    numeralOrInt_of_numeral hbaud, numeralOrInt_of_numeral hbits]

/-- The Setting service is told about the channel that was read. -/
theorem effects_changeChannel (act : Action) (serialInfo : SerialIdInfo) :
    (changeChannel b act (some serialInfo)).effects = publication act serialInfo :=
  effects_consult

/-- The handlers agree if the channel that is added can be read when it is changed. -/
theorem parsersAgree_iff : ParsersAgree b recvData ↔
    ((parseChannel b (fun _ => some "") (numeralOrInt b) recvData).isSome →
      (parseChannel b (dataString · "Id") (numeral b) recvData).isSome) := by
  cases hchanged : parseChannel b (dataString · "Id") (numeral b) recvData with
  | some serialInfo =>
      refine iff_of_true ?_ (fun _ => rfl)
      have hadded := parseChannel_of_text hchanged
      refine .accepted { serialInfo with id := "" } serialInfo serialInfo ?_ ?_ ?_
        ⟨rfl, rfl, rfl⟩ ⟨rfl, rfl, rfl⟩
      · rw [addChannel, hadded, effects_changeChannel]
      · rw [editChannel, hchanged, effects_changeChannel]
      · rw [delChannel, hchanged, effects_changeChannel]
  | none =>
      have hedit : editChannel b recvData = .failed := by rw [editChannel, hchanged]; rfl
      have hdel : delChannel b recvData = .failed := by rw [delChannel, hchanged]; rfl
      cases hadded : parseChannel b (fun _ => some "") (numeralOrInt b) recvData with
      | none =>
          refine iff_of_true (.rejected ?_ hedit hdel) (fun h => by cases h)
          rw [addChannel, hadded]
          rfl
      | some serialInfo =>
          -- the channel is added, and the other two handlers turn it down
          refine iff_of_false (fun h => ?_) (by simp)
          have hadd : (addChannel b recvData).effects = publication .add serialInfo := by
            rw [addChannel, hadded, effects_changeChannel]
          cases h with
          | rejected add =>
              rw [add] at hadd
              cases hadd
          | accepted _ _ _ _ edit =>
              rw [hedit] at edit
              cases edit

/-- For a request whose `data` has an `Id`, the three handlers agree if and only if it is not one
with a number for the baud rate or the data bits that `addChannel` reads. -/
theorem channelParsers_agree_iff (hsends : Sends b recvData data)
    (hid : data.member "Id" = some (.string id)) :
    ParsersAgree b recvData ↔ ¬ SentAsNumber data := by
  obtain ⟨http, hbody, hdata⟩ := hsends
  have hid : (dataString http "Id").isSome := (dataString_isSome_iff hdata).mpr ⟨id, hid⟩
  rw [parsersAgree_iff, parseChannel_isSome_iff hbody, parseChannel_isSome_iff hbody]
  simp only [dataString_isSome_iff hdata, numeral_isSome_iff hdata, numeralOrInt_isSome_iff hdata,
    hid, Option.isSome_some, true_and]
  constructor
  · rintro hchanged ⟨htexts, hnumerals, key, hkey, hnumber⟩
    obtain ⟨s, hs⟩ := (hchanged ⟨htexts, hnumerals⟩).2 key hkey
    exact hnumber s hs
  · rintro hnone ⟨htexts, hnumerals⟩
    refine ⟨htexts, fun key hkey => ?_⟩
    by_contra hnumber
    exact hnone ⟨htexts, hnumerals, key, hkey, not_exists.mp hnumber⟩

/-- The `data` of a request with this baud rate. -/
private def channelData (baudRate : Json) : Json :=
  .object [("Id", .string "1"), ("baudRate", baudRate), ("dataBits", .string "8"),
    ("parity", .string "N"), ("port", .string "RS485-1"), ("portName", .string "COM1"),
    ("stopBits", .string "1")]

/-- What the library makes of a request with this baud rate. -/
private def channelJson (baudRate : Json) : Json :=
  .object [("data", channelData baudRate), ("taskID", .numberUnsigned 9)]

/-- The text of a request with this baud rate. -/
private def channelText (baudRate : String) : String :=
  "\x7b\"taskID\":9,\"data\":\x7b\"Id\":\"1\",\"baudRate\":" ++ baudRate ++
    ",\"dataBits\":\"8\",\"parity\":\"N\",\"port\":\"RS485-1\",\"portName\":\"COM1\"," ++
    "\"stopBits\":\"1\"\x7d\x7d"

/-- A Setting service that answers `ok`, and a library that knows two requests. -/
private def channelBackend : Backend where
  json :=
    { parse := fun text =>
        if text = channelText "9600" then some (channelJson (.numberUnsigned 9600))
        else if text = channelText "\"9600\"" then some (channelJson (.string "9600"))
        else none
      dump := fun _ => none
      dumpIndented := fun _ => none
      utf8 := fun _ => true }
  platform := { castOverflow := fun _ => 1, atoiOverflow := fun _ => 1 }
  openFile := fun _ => none
  devService := []
  serialService := [{ topic := "SerialTable/addSerial", callback := fun _ => ⟨[], [], "ok"⟩ }]
  rttaskId := .yx

/-- The request with a string is read. -/
private theorem sends_text : Sends channelBackend (channelText "\"9600\"")
    (channelData (.string "9600")) := by
  have hne : channelText "\"9600\"" ≠ channelText "9600" := by decide +kernel
  refine ⟨channelJson (.string "9600"), ?_, rfl⟩
  simp [Codec.parseObject, channelBackend, hne, channelJson, isObject]

/-- The request with a number is read. -/
private theorem sends_number : Sends channelBackend (channelText "9600")
    (channelData (.numberUnsigned 9600)) :=
  ⟨channelJson (.numberUnsigned 9600), rfl, rfl⟩

/-- A channel whose baud rate is sent as a string. -/
theorem channelParsers_agree_text : ParsersAgree channelBackend (channelText "\"9600\"") ↔
    ¬ SentAsNumber (channelData (.string "9600")) :=
  channelParsers_agree_iff sends_text rfl

/-- A channel whose baud rate is sent as a number is added, and cannot be edited. -/
theorem channelParsers_not_agree :
    ¬ ∀ (b : Backend) (recvData id : String) (data : Json), Sends b recvData data →
      data.member "Id" = some (.string id) → ParsersAgree b recvData := by
  intro h
  have hedit : editChannel channelBackend (channelText "9600") = .failed := by rfl
  have hadd : (addChannel channelBackend (channelText "9600")).code = some 200 := by rfl
  cases h _ _ "1" _ sends_number rfl with
  | rejected add =>
      rw [add] at hadd
      cases hadd
  | accepted _ _ _ _ edit =>
      rw [hedit] at edit
      cases edit

end CsiFirmware.Webserver
