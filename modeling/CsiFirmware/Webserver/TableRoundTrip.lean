import CsiFirmware.Webserver.Handlers

/-!
# Tables in the browser and back

Reference: `NetWorkLayerImp::getDevTable`, `NetWorkLayerImp::editDev`, `NetWorkLayerImp::delDev`,
`NetWorkLayerImp::getChannelTable` and `NetWorkLayerImp::editChannel`.

The browser shows the entries of a table and sends one of them back as the `data` of a request. A
device comes back as it was. A channel comes back with `vmin` 1 and `vtime` 15, which `editChannel`
sets without a look at the request.
-/

namespace CsiFirmware.Webserver

open CInt Json CsiFirmware.Common

/-- The entries of the table in the text that a handler returned. -/
def tableEntries (b : Backend) (data : String) : Option (List Json) := do
  match ← (← (← b.json.parse data).member "data").member "table" with
  | .array entries => some entries
  | _ => none

/-- The body is a request whose `data` is this entry. -/
def Sends (b : Backend) (recvData : String) (entry : Json) : Prop :=
  ∃ http, b.json.parseObject recvData = some http ∧ http.member "data" = some entry

variable {b : Backend} {recvData : String}

/-- A handler that returns 200 has rendered the answer of the Setting service. -/
theorem render_of_consult {μ : Type} {responders : List (Responder μ SrvGetInfo)} {topic : String}
    {message : μ} {effect : Effect} {render : SrvGetInfo → Option String} {res : SrvGetInfo}
    (hservice : servicePublish responders topic message = some res)
    (hcode : (consult responders topic message effect render).code = some 200) :
    render res = some (consult responders topic message effect render).data := by
  rw [consult, hservice] at hcode ⊢
  simp only at hcode ⊢
  split at hcode
  next hok =>
    rw [if_pos hok]
    split at hcode
    next => cases hcode
    next data hdata => rw [hdata]
  next => cases hcode

/-- The message is sent whatever the answer is. -/
theorem effects_consult {μ : Type} {responders : List (Responder μ SrvGetInfo)} {topic : String}
    {message : μ} {effect : Effect} {render : SrvGetInfo → Option String} :
    (consult responders topic message effect render).effects = [effect] := by
  unfold consult
  split
  · rfl
  · split
    · split <;> rfl
    · rfl

/-- The browser reads the entries that were written. -/
theorem tableEntries_dump {entries : List Json} {text : String} (hjson : b.json.Faithful)
    (hordered : ∀ entry ∈ entries, entry.Ordered)
    (hexact : ∀ entry ∈ entries, entry.Exact fun _ => False)
    (hdump : b.json.dumpIndented (tableJson entries) = some text) :
    tableEntries b text = some (entries.map reread) := by
  have htable : (tableJson entries).Ordered := by simpa [tableJson] using hordered
  have htable' : (tableJson entries).Exact fun _ => False := by simpa [tableJson] using hexact
  -- the table is exact and ordered, so the library reads back what it wrote
  have hparse := hjson _ _ htable htable' hdump
  rw [tableEntries, hparse]
  simp [tableJson, member]

/-- A member of `data` is a member of the entry. -/
theorem dataMember_of_data {http entry : Json} (hdata : http.member "data" = some entry)
    (key : String) : dataMember http key = entry.member key := by
  rw [dataMember, hdata]
  rfl

/-- A string of `data` is read off the entry. -/
theorem dataString_of_data {http entry : Json} (hdata : http.member "data" = some entry)
    (key : String) : dataString http key = (entry.member key).bind getString := by
  rw [dataString, dataMember_of_data hdata]
  rfl

/-! ## Devices -/

/-- What a request tells about a device. -/
structure SameDevice (devInfo entry : DevInfo) : Prop where
  id : devInfo.id = entry.id
  addr : devInfo.addr = entry.addr
  category : devInfo.category = entry.category
  devName : devInfo.devName = entry.devName
  model : devInfo.model = entry.model
  protocol : devInfo.protocol = entry.protocol
  port : devInfo.serialInfo.name = entry.serialInfo.name
  sn : devInfo.sn = entry.sn

/-- `nlohmann::json` keeps the members of an object in the order of their keys. -/
theorem devEntryJson_ordered (entry : DevInfo) : (devEntryJson entry).Ordered := by
  simp [devEntryJson, List.cons_lt_cons_iff]

/-- A device is written in strings only, so no number is out of range. -/
theorem devEntryJson_exact (entry : DevInfo) : (devEntryJson entry).Exact fun _ => False := by
  simp [devEntryJson]

/-- The library reads a string back as that string. -/
theorem devEntryJson_reread (entry : DevInfo) :
    (devEntryJson entry).reread = devEntryJson entry := by
  simp [devEntryJson]

/-- The device that is decoded from an entry. -/
def sentDev (entry : DevInfo) : DevInfo :=
  { DevInfo.fresh with
    id := entry.id, addr := entry.addr, category := entry.category, devName := entry.devName
    model := entry.model, protocol := entry.protocol, sn := entry.sn
    serialInfo := { SerialIdInfo.fresh with name := entry.serialInfo.name } }

/-- Nothing that the entry shows about a device is lost. -/
theorem sentDev_same (entry : DevInfo) : SameDevice (sentDev entry) entry := by
  constructor <;> rfl

/-- `editDev` and `delDev` decode the entry of a device, if its address is an `int`: the address is
written by `std::to_string` and read by `std::stoi`. -/
theorem parseDev_entry {entry : DevInfo} (hrange : InRange entry.addr)
    (hsends : Sends b recvData (devEntryJson entry)) :
    parseDev b (dataString · "Id") recvData = some (sentDev entry) := by
  obtain ⟨http, hbody, hdata⟩ := hsends
  have haddr : dataString http "communicationAddress" = some (toString entry.addr) :=
    dataString_of_data hdata _
  rw [parseDev, hbody]
  -- `std::stoi` is the only step that can throw, the other members are strings
  simp only [Option.bind_eq_bind, Option.bind_some, haddr, stoi_toString hrange]
  simp only [dataString_of_data hdata]
  rfl

/-- Every entry of the device table is accepted by `editDev` and `delDev` when it is sent back, and
is decoded to the device that it stands for. -/
theorem devTable_roundTrip {res : SrvGetInfo} (hjson : b.json.Faithful)
    (hservice : servicePublish b.devService "devTable/addDev" getDevMessage = some res)
    (haddr : ∀ entry ∈ res.devList, InRange entry.addr)
    (hcode : (getDevTable b).code = some 200) :
    ∃ entries, tableEntries b (getDevTable b).data = some entries ∧
      List.Forall₂ (fun original entry => ∀ recvData, Sends b recvData entry →
        ∃ devInfo, SameDevice devInfo original ∧
          editDev b recvData =
            consultDev b [{ act := .edit, devInfo, oldDevInfo := .fresh }] noData ∧
          delDev b recvData =
            consultDev b [{ act := .del, devInfo, oldDevInfo := .fresh }] noData)
        res.devList entries := by
  have hdump := render_of_consult hservice hcode
  have hentries := tableEntries_dump hjson (by simp [devEntryJson_ordered])
    (by simp [devEntryJson_exact]) hdump
  refine ⟨_, hentries, ?_⟩
  -- device by device: the entry that the browser holds is the one that was written
  rw [List.map_map, List.forall₂_map_right_iff, List.forall₂_same]
  intro original hmem recvData hsends
  rw [Function.comp_apply, devEntryJson_reread] at hsends
  have hparse := parseDev_entry (haddr original hmem) hsends
  refine ⟨sentDev original, sentDev_same original, ?_, ?_⟩
  · rw [editDev, hparse, changeDev]
  · rw [delDev, hparse, changeDev]

/-! ## Channels -/

/-- What the table tells about a channel. -/
structure SameChannel (serialInfo entry : SerialIdInfo) : Prop where
  id : serialInfo.id = entry.id
  name : serialInfo.name = entry.name
  serialName : serialInfo.serialName = entry.serialName
  serialParamInfo : serialInfo.serialParamInfo = entry.serialParamInfo

/-- The keys of a channel are in order as well: `port` comes before `portName`. -/
theorem channelEntryJson_ordered (entry : SerialIdInfo) : (channelEntryJson entry).Ordered := by
  simp [channelEntryJson, List.cons_lt_cons_iff]

/-- The `int` members of a channel. -/
structure IntMembers (entry : SerialIdInfo) : Prop where
  baudrate : InRange entry.serialParamInfo.baudrate
  databit : InRange entry.serialParamInfo.databit
  vmin : InRange entry.serialParamInfo.vmin
  vtime : InRange entry.serialParamInfo.vtime

/-- `vmin` and `vtime` are written as numbers, and an `int` fits. -/
theorem channelEntryJson_exact {entry : SerialIdInfo} (h : IntMembers entry) :
    (channelEntryJson entry).Exact fun _ => False := by
  obtain ⟨-, -, ⟨hvmin, hvmin'⟩, ⟨hvtime, hvtime'⟩⟩ := h
  simp only [channelEntryJson, exact_object, List.forall_mem_cons, exact_string,
    exact_numberInteger, true_and, List.not_mem_nil, false_imp_iff, implies_true, and_true]
  omega

/-- The channel that is decoded from an entry. -/
def sentChannel (entry : SerialIdInfo) : SerialIdInfo :=
  { SerialIdInfo.fresh with
    id := entry.id, name := entry.name, serialName := entry.serialName
    serialParamInfo := { entry.serialParamInfo with vmin := 1, vtime := 15 } }

/-- A channel comes back as it was if it has the `vmin` and `vtime` that `editChannel` sets. -/
theorem sentChannel_same_iff {entry : SerialIdInfo} :
    SameChannel (sentChannel entry) entry ↔
      entry.serialParamInfo.vmin = 1 ∧ entry.serialParamInfo.vtime = 15 := by
  constructor
  · intro h
    -- the entry has to agree with the two constants
    have hvmin := congrArg SerialParamInfo.vmin h.serialParamInfo
    have hvtime := congrArg SerialParamInfo.vtime h.serialParamInfo
    exact ⟨hvmin.symm, hvtime.symm⟩
  · rintro ⟨hvmin, hvtime⟩
    refine ⟨rfl, rfl, rfl, ?_⟩
    rw [sentChannel, ← hvmin, ← hvtime]

/-- `editChannel` decodes the entry of a channel: the baud rate and the data bits are written by
`std::to_string` and read by `std::atoi`. -/
theorem parseChannel_entry {entry : SerialIdInfo}
    (hbaudrate : InRange entry.serialParamInfo.baudrate)
    (hdatabit : InRange entry.serialParamInfo.databit)
    (hsends : Sends b recvData (channelEntryJson entry).reread) :
    parseChannel b (dataString · "Id") (numeral b) recvData = some (sentChannel entry) := by
  obtain ⟨http, hbody, hdata⟩ := hsends
  have hbaudrate' : dataString http "baudRate" = some (toString entry.serialParamInfo.baudrate) :=
    dataString_of_data hdata _
  have hdatabit' : dataString http "dataBits" = some (toString entry.serialParamInfo.databit) :=
    dataString_of_data hdata _
  rw [parseChannel, hbody]
  simp only [numeral, Option.bind_eq_bind, Option.bind_some, hbaudrate', hdatabit',
    Platform.atoi_toString hbaudrate, Platform.atoi_toString hdatabit]
  simp only [dataString_of_data hdata]
  rfl

/-- Every entry of the channel table is accepted by `editChannel` when it is sent back, and is
decoded to the channel that it stands for, but with `vmin` 1 and `vtime` 15. -/
theorem channelTable_roundTrip {res : SrvGetInfo} (hjson : b.json.Faithful)
    (hservice : servicePublish b.serialService "SerialTable/addSerial" getSerialMessage = some res)
    (hint : ∀ entry ∈ res.serialList, IntMembers entry)
    (hcode : (getChannelTable b).code = some 200) :
    ∃ entries, tableEntries b (getChannelTable b).data = some entries ∧
      List.Forall₂ (fun original entry => ∀ recvData, Sends b recvData entry →
        ∃ serialInfo,
          SameChannel serialInfo { original with
            serialParamInfo := { original.serialParamInfo with vmin := 1, vtime := 15 } } ∧
          editChannel b recvData = consultSerial b [{ act := .edit, serialInfo }] noData ∧
          (SameChannel serialInfo original ↔
            original.serialParamInfo.vmin = 1 ∧ original.serialParamInfo.vtime = 15))
        res.serialList entries := by
  have hdump := render_of_consult hservice hcode
  have hexact : ∀ entry ∈ res.serialList.map channelEntryJson, entry.Exact fun _ => False := by
    intro entry hmem
    obtain ⟨original, horiginal, rfl⟩ := List.mem_map.mp hmem
    exact channelEntryJson_exact (hint original horiginal)
  have hentries := tableEntries_dump hjson (by simp [channelEntryJson_ordered]) hexact hdump
  refine ⟨_, hentries, ?_⟩
  rw [List.map_map, List.forall₂_map_right_iff, List.forall₂_same]
  intro original hmem recvData hsends
  have hparse := parseChannel_entry (hint original hmem).baudrate (hint original hmem).databit
    hsends
  refine ⟨sentChannel original, ⟨rfl, rfl, rfl, rfl⟩, ?_, sentChannel_same_iff⟩
  rw [editChannel, hparse, changeChannel]

/-! ## A table of one device and a table of one channel -/

/-- A device at the lowest address that an `int` can hold. -/
private def inverter : DevInfo :=
  { DevInfo.fresh with
    id := "1", devName := "PCS", protocol := "modbus", addr := -2147483648, category := "pcs"
    model := "csi", sn := "0001", serialInfo := { SerialIdInfo.fresh with name := "COM1" } }

/-- A channel with `vmin` and `vtime` 0. -/
private def port : SerialIdInfo :=
  { SerialIdInfo.fresh with
    id := "1", name := "COM1", serialName := "RS485-1"
    serialParamInfo :=
      { baudrate := 9600, databit := 8, stopbit := "1", parity := "N", vtime := 0, vmin := 0 } }

/-- The table of the device. -/
@[match_pattern] private def inverterTable : Json :=
  .object [("data", .object [("table", .array [.object [("Id", .string "1"),
    ("category", .string "pcs"), ("communicationAddress", .string "-2147483648"),
    ("model", .string "csi"), ("name", .string "PCS"), ("port", .string "COM1"),
    ("protocol", .string "modbus"), ("sn", .string "0001")]])])]

/-- The table of the channel. -/
@[match_pattern] private def portTable : Json :=
  .object [("data", .object [("table", .array [.object [("Id", .string "1"),
    ("baudRate", .string "9600"), ("dataBits", .string "8"), ("parity", .string "N"),
    ("port", .string "RS485-1"), ("portName", .string "COM1"), ("stopBits", .string "1"),
    ("vmin", .numberInteger 0), ("vtime", .numberInteger 0)]])])]

/-- A member of an entry, as `dump(4)` writes it. -/
private def memberLine (key value : String) : String :=
  "                \"" ++ key ++ "\": " ++ value

/-- A table with one entry, as `dump(4)` writes it. -/
private def tableText (lines : List String) : String :=
  "\x7b\n    \"data\": \x7b\n        \"table\": [\n            \x7b\n" ++
    ",\n".intercalate lines ++ "\n            \x7d\n        ]\n    \x7d\n\x7d"

/-- The table of the device, as `dump(4)` writes it. -/
private def inverterText : String :=
  tableText [memberLine "Id" "\"1\"", memberLine "category" "\"pcs\"",
    memberLine "communicationAddress" "\"-2147483648\"", memberLine "model" "\"csi\"",
    memberLine "name" "\"PCS\"", memberLine "port" "\"COM1\"",
    memberLine "protocol" "\"modbus\"", memberLine "sn" "\"0001\""]

/-- The table of the channel, as `dump(4)` writes it. -/
private def portText : String :=
  tableText [memberLine "Id" "\"1\"", memberLine "baudRate" "\"9600\"",
    memberLine "dataBits" "\"8\"", memberLine "parity" "\"N\"", memberLine "port" "\"RS485-1\"",
    memberLine "portName" "\"COM1\"", memberLine "stopBits" "\"1\"", memberLine "vmin" "0",
    memberLine "vtime" "0"]

/-- The request to edit the device. -/
private def inverterBody : String :=
  "\x7b\"data\":\x7b\"Id\":\"1\",\"category\":\"pcs\"," ++
    "\"communicationAddress\":\"-2147483648\",\"model\":\"csi\",\"name\":\"PCS\"," ++
    "\"port\":\"COM1\",\"protocol\":\"modbus\",\"sn\":\"0001\"\x7d,\"taskID\":6\x7d"

/-- What the library makes of the request to edit the device. -/
private def inverterRequest : Json :=
  .object [("data", devEntryJson inverter), ("taskID", .numberUnsigned 6)]

/-- The request to edit the channel. -/
private def portBody : String :=
  "\x7b\"data\":\x7b\"Id\":\"1\",\"baudRate\":\"9600\",\"dataBits\":\"8\",\"parity\":\"N\"," ++
    "\"port\":\"RS485-1\",\"portName\":\"COM1\",\"stopBits\":\"1\",\"vmin\":0,\"vtime\":0\x7d," ++
    "\"taskID\":9\x7d"

/-- What the library makes of the request to edit the channel. -/
private def portRequest : Json :=
  .object [("data", (channelEntryJson port).reread), ("taskID", .numberUnsigned 9)]

/-- A Setting service with the device and the channel, and a library that knows the two tables and
the two requests. -/
private def pageBackend : Backend where
  json :=
    { parse := fun text =>
        if text = inverterText then some inverterTable
        else if text = portText then some portTable.reread
        else if text = portBody then some portRequest
        else if text = inverterBody then some inverterRequest
        else none
      dump := fun _ => none
      dumpIndented := fun
        | inverterTable => some inverterText
        | portTable => some portText
        | _ => none
      utf8 := fun _ => true }
  platform := { castOverflow := fun _ => 0, atoiOverflow := fun _ => 0 }
  openFile _ := none
  devService := [{ topic := "devTable/addDev", callback := fun _ => ⟨[inverter], [], "ok"⟩ }]
  serialService := [{ topic := "SerialTable/addSerial", callback := fun _ => ⟨[], [port], "ok"⟩ }]
  rttaskId := .yx

/-- The library goes through the texts that it knows. -/
private theorem parse_page (text : String) : pageBackend.json.parse text =
    if text = inverterText then some inverterTable
    else if text = portText then some portTable.reread
    else if text = portBody then some portRequest
    else if text = inverterBody then some inverterRequest
    else none := rfl

/-- The table of the device is read. -/
private theorem parse_inverterText :
    pageBackend.json.parse inverterText = some inverterTable := by
  rw [parse_page, if_pos rfl]

/-- The table of the channel is read. -/
private theorem parse_portText : pageBackend.json.parse portText = some portTable.reread := by
  have hne : portText ≠ inverterText := by decide +kernel
  rw [parse_page, if_neg hne, if_pos rfl]

/-- The request to edit the channel is read. -/
private theorem parse_portBody : pageBackend.json.parse portBody = some portRequest := by
  have hne : portBody ≠ inverterText := by decide +kernel
  have hne' : portBody ≠ portText := by decide +kernel
  rw [parse_page, if_neg hne, if_neg hne', if_pos rfl]

/-- The request to edit the device is read. -/
private theorem parse_inverterBody :
    pageBackend.json.parse inverterBody = some inverterRequest := by
  have hne : inverterBody ≠ inverterText := by decide +kernel
  have hne' : inverterBody ≠ portText := by decide +kernel
  have hne'' : inverterBody ≠ portBody := by decide +kernel
  rw [parse_page, if_neg hne, if_neg hne', if_neg hne'', if_pos rfl]

/-- The request sends the entry of the device. -/
private theorem sends_inverterBody : Sends pageBackend inverterBody (devEntryJson inverter) :=
  ⟨inverterRequest, by rw [Codec.parseObject, parse_inverterBody]; rfl, rfl⟩

/-- The request sends the entry of the channel. -/
private theorem sends_portBody : Sends pageBackend portBody (channelEntryJson port).reread :=
  ⟨portRequest, by rw [Codec.parseObject, parse_portBody]; rfl, rfl⟩

/-- The two tables are all that this library writes, and it reads them back. -/
private theorem pageJson_faithful : pageBackend.json.Faithful := by
  intro j text _ _ h
  simp only [pageBackend] at h
  split at h
  · obtain rfl := Option.some.inj h
    rw [parse_inverterText]
    rfl
  · obtain rfl := Option.some.inj h
    exact parse_portText
  · cases h

/-- The table of devices is fetched. -/
private theorem getDevTable_page : (getDevTable pageBackend).code = some 200 := by
  rfl

/-- The table of channels is fetched, and the text of the channel is returned. -/
private theorem getChannelTable_page : getChannelTable pageBackend =
    { code := some 200, data := portText
      effects := [.askSerial "SerialTable/addSerial" getSerialMessage] } := by
  rfl

/-- The members of the channel are `int`s. -/
private theorem intMembers_port : ∀ entry ∈ [port], IntMembers entry := by
  intro entry hmem
  obtain rfl := List.mem_singleton.mp hmem
  constructor <;> decide

/-- The device comes back as it was, and a request that sends it exists. -/
theorem devTable_roundTrip_inverter :
    Sends pageBackend inverterBody (devEntryJson inverter) ∧
      ∃ entries, tableEntries pageBackend (getDevTable pageBackend).data = some entries ∧
      List.Forall₂ (fun original entry => ∀ recvData, Sends pageBackend recvData entry →
        ∃ devInfo, SameDevice devInfo original ∧
          editDev pageBackend recvData =
            consultDev pageBackend [{ act := .edit, devInfo, oldDevInfo := .fresh }] noData ∧
          delDev pageBackend recvData =
            consultDev pageBackend [{ act := .del, devInfo, oldDevInfo := .fresh }] noData)
        [inverter] entries := by
  have hservice : servicePublish pageBackend.devService "devTable/addDev" getDevMessage =
      some ⟨[inverter], [], "ok"⟩ := by rfl
  exact ⟨sends_inverterBody, devTable_roundTrip pageJson_faithful hservice
    (by simp [inverter, InRange]) getDevTable_page⟩

/-- The channel comes back with `vmin` 1 and `vtime` 15, and a request that sends it exists. -/
theorem channelTable_roundTrip_port :
    Sends pageBackend portBody (channelEntryJson port).reread ∧
      ∃ entries, tableEntries pageBackend (getChannelTable pageBackend).data = some entries ∧
      List.Forall₂ (fun original entry => ∀ recvData, Sends pageBackend recvData entry →
        ∃ serialInfo,
          SameChannel serialInfo { original with
            serialParamInfo := { original.serialParamInfo with vmin := 1, vtime := 15 } } ∧
          editChannel pageBackend recvData =
            consultSerial pageBackend [{ act := .edit, serialInfo }] noData ∧
          (SameChannel serialInfo original ↔
            original.serialParamInfo.vmin = 1 ∧ original.serialParamInfo.vtime = 15))
        [port] entries := by
  have hservice : servicePublish pageBackend.serialService "SerialTable/addSerial"
      getSerialMessage = some ⟨[], [port], "ok"⟩ := by rfl
  exact ⟨sends_portBody, channelTable_roundTrip pageJson_faithful hservice intMembers_port
    (by rw [getChannelTable_page])⟩

/-- A channel with `vmin` 0 does not come back as it was. -/
theorem channelTable_not_roundTrip :
    ¬ ∀ (b : Backend) (res : SrvGetInfo), b.json.Faithful →
      servicePublish b.serialService "SerialTable/addSerial" getSerialMessage = some res →
      (∀ entry ∈ res.serialList, IntMembers entry) →
      (getChannelTable b).code = some 200 →
        ∃ entries, tableEntries b (getChannelTable b).data = some entries ∧
          List.Forall₂ (fun original entry => ∀ recvData, Sends b recvData entry →
            ∃ serialInfo, SameChannel serialInfo original ∧
              editChannel b recvData = consultSerial b [{ act := .edit, serialInfo }] noData)
            res.serialList entries := by
  intro h
  obtain ⟨entries, hentries, hsame⟩ := h pageBackend ⟨[], [port], "ok"⟩ pageJson_faithful rfl
    intMembers_port (by rw [getChannelTable_page])
  have hwritten : tableEntries pageBackend portText = some [(channelEntryJson port).reread] := by
    rw [tableEntries, parse_portText]
    rfl
  rw [getChannelTable_page, hwritten] at hentries
  obtain rfl := Option.some.inj hentries
  rw [List.forall₂_cons] at hsame
  obtain ⟨serialInfo, hserial, hedit⟩ := hsame.1 portBody sends_portBody
  have hbaudrate : InRange port.serialParamInfo.baudrate := by simp [port, InRange]
  have hdatabit : InRange port.serialParamInfo.databit := by simp [port, InRange]
  have hsent : editChannel pageBackend portBody =
      consultSerial pageBackend [{ act := .edit, serialInfo := sentChannel port }] noData := by
    rw [editChannel, parseChannel_entry hbaudrate hdatabit sends_portBody, changeChannel]
  -- both calls tell the Setting service about the same channel
  have heffects := congrArg Handled.effects (hedit.symm.trans hsent)
  rw [consultSerial, consultSerial, effects_consult, effects_consult] at heffects
  obtain rfl : serialInfo = sentChannel port := by simpa using heffects
  have hvmin : port.serialParamInfo.vmin = 1 := (sentChannel_same_iff.mp hserial).1
  cases hvmin

end CsiFirmware.Webserver
