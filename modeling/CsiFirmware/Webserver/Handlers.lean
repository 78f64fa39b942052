import CsiFirmware.Common.MessageQueue
import CsiFirmware.Lib.Json
import CsiFirmware.Webserver.HttpService
import CsiFirmware.Webserver.SendDataToWeb

/-!
# The handlers of the tasks

Reference: `NetWorkLayerImp::getPassWord` to `NetWorkLayerImp::getRTData`.

A handler reads its request from the JSON text of the body and returns an error code: 200, 400 for a
wrong password, or 0. It catches what is thrown while it reads the request. Most handlers go on to
ask the Setting service, which is another program, and two of them write its answer as JSON text;
what is thrown there leaves the handler.

Whatever is thrown inside a `try` block has the same effect there, so the order in which a block
reads the members of the request is left out.
-/

namespace CsiFirmware.Webserver

open CInt Json CsiFirmware.Common

/-- What the handlers use. -/
structure Backend where
  json : Codec
  platform : Platform
  /-- The content of a file that can be opened. -/
  openFile : String → Option String
  /-- The responders of `ServiceQueue<std::vector<srv_DevInfo>, srv_GetInfo>`. -/
  devService : List (Responder (List SrvDevInfo) SrvGetInfo)
  /-- The responders of `ServiceQueue<std::vector<srv_SerialInfo>, srv_GetInfo>`. -/
  serialService : List (Responder (List SrvSerialInfo) SrvGetInfo)
  /-- What an `RTtaskId` holds before it is written. A number that is not in the enumeration is
  treated like `yx`. -/
  rttaskId : RTtaskId

/-- What a handler does to the rest of the system. -/
inductive Effect where
  | write (filename text : String)
  | askDev (topic : String) (message : List SrvDevInfo)
  | askSerial (topic : String) (message : List SrvSerialInfo)
  | publish (topic : String) (rttask : RTtask)
deriving DecidableEq

/-- A call of a handler. -/
structure Handled where
  /-- The error code, unless an exception leaves the handler. -/
  code : Option Int
  /-- The parameter `data` of the handlers that have one. -/
  data : String
  effects : List Effect
deriving DecidableEq

/-- The `catch` block of every handler. -/
def Handled.failed : Handled := { code := some 0, data := "", effects := [] }

/-- `http_jsonData["data"][key]`. -/
def dataMember (http : Json) (key : String) : Option Json := do (← http.member "data").member key

/-- `http_jsonData["data"][key].get<std::string>()`. -/
def dataString (http : Json) (key : String) : Option String := do (← dataMember http key).getString

variable (b : Backend)

/-! ## Files -/

/-- `username` and `password`, in the file or under `data` of a request. -/
def credentials (j : Json) : Option (String × Int) := do
  let name ← (← j.member "username").getString
  let password ← (← j.member "password").getInt b.platform
  some (name, password)

/-- The outcome of the comparison, if everything could be read. -/
def passWordResult (filename recvData : String) : Option Int := do
  let (name, password) ← credentials b (← b.json.parseObject (← b.openFile filename))
  let http ← b.json.parseObject recvData
  let (httpName, httpPassword) ← credentials b (← http.member "data")
  some (if name = httpName ∧ password = httpPassword then 200 else 400)

/-- Whatever cannot be read gives 0, in the file as in the request. -/
def getPassWord (filename recvData : String) : Handled :=
  { code := some ((passWordResult b filename recvData).getD 0), data := "", effects := [] }

/-- A body that is an object is written to a file. The file is emptied first. -/
def tableSave (filename recvData : String) : Handled :=
  match b.json.parseObject recvData with
  | none => .failed
  | some http =>
      match b.json.dumpIndented http with
      -- `dump(4)` throws after the `std::ofstream` has emptied the file
      | none => { code := some 0, data := "", effects := [.write filename ""] }
      | some text => { code := some 200, data := "", effects := [.write filename (text ++ "\n")] }

/-- The table of devices goes to `data/csi_devtable.json`. -/
def devTableSave (filename recvData : String) : Handled := tableSave b filename recvData

/-- The table of channels goes to `data/csi_channeltable.json`. -/
def channelTableSave (filename recvData : String) : Handled := tableSave b filename recvData

/-! ## The Setting service -/

/-- A message to the Setting service, and what a handler makes of an answer whose status is `ok`. -/
def consult {μ : Type} (responders : List (Responder μ SrvGetInfo)) (topic : String) (message : μ)
    (effect : Effect) (render : SrvGetInfo → Option String) : Handled :=
  match servicePublish responders topic message with
  -- nobody has subscribed to the topic, and `get` of the broken promise throws
  | none => { code := none, data := "", effects := [effect] }
  | some res =>
      if res.status = "ok" then
        match render res with
        | none => { code := none, data := "", effects := [effect] }
        | some data => { code := some 200, data, effects := [effect] }
      else { code := some 0, data := "", effects := [effect] }

/-- A message about devices. -/
def consultDev (message : List SrvDevInfo) (render : SrvGetInfo → Option String) : Handled :=
  consult b.devService "devTable/addDev" message (.askDev "devTable/addDev" message) render

/-- A message about channels. -/
def consultSerial (message : List SrvSerialInfo) (render : SrvGetInfo → Option String) : Handled :=
  consult b.serialService "SerialTable/addSerial" message
    (.askSerial "SerialTable/addSerial" message) render

/-- Nothing is written for a message other than `Get`. -/
def noData : SrvGetInfo → Option String := fun _ => some ""

/-- `j["data"]["table"] = tableJson`. -/
def tableJson (entries : List Json) : Json :=
  .object [("data", .object [("table", .array entries)])]

/-! ## Devices -/

/-- `entryJson` of a device. -/
def devEntryJson (entry : DevInfo) : Json :=
  .object [("Id", .string entry.id), ("category", .string entry.category),
    ("communicationAddress", .string (toString entry.addr)), ("model", .string entry.model),
    ("name", .string entry.devName), ("port", .string entry.serialInfo.name),
    ("protocol", .string entry.protocol), ("sn", .string entry.sn)]

/-- The message with which `getDevTable` asks for the devices. -/
def getDevMessage : List SrvDevInfo :=
  [{ act := .get, devInfo := .fresh, oldDevInfo := .fresh }]

/-- All devices of the Setting service, as JSON text. -/
def getDevTable : Handled :=
  consultDev b getDevMessage fun res =>
    b.json.dumpIndented (tableJson (res.devList.map devEntryJson))

/-- The device that a request describes. -/
def parseDev (readId : Json → Option String) (recvData : String) : Option DevInfo := do
  let http ← b.json.parseObject recvData
  let id ← readId http
  let addr ← stoi (← dataString http "communicationAddress")
  let category ← dataString http "category"
  let devName ← dataString http "name"
  let model ← dataString http "model"
  let protocol ← dataString http "protocol"
  let port ← dataString http "port"
  let sn ← dataString http "sn"
  some { DevInfo.fresh with
    id, addr, category, devName, model, protocol, sn
    serialInfo := { SerialIdInfo.fresh with name := port } }

/-- The request describes a device, and the Setting service is told what to do with it. -/
def changeDev (act : Action) (devInfo : Option DevInfo) : Handled :=
  match devInfo with
  | none => .failed
  | some devInfo => consultDev b [{ act, devInfo, oldDevInfo := .fresh }] noData

/-- A new device has no `Id` yet. -/
def addDev (recvData : String) : Handled :=
  changeDev b .add (parseDev b (fun _ => some "") recvData)

/-- The device with the `Id` of the request is changed. -/
def editDev (recvData : String) : Handled :=
  changeDev b .edit (parseDev b (dataString · "Id") recvData)

/-- The device with the `Id` of the request is removed. -/
def delDev (recvData : String) : Handled :=
  changeDev b .del (parseDev b (dataString · "Id") recvData)

/-! ## Channels -/

/-- `entryJson` of a channel. -/
def channelEntryJson (entry : SerialIdInfo) : Json :=
  .object [("Id", .string entry.id),
    ("baudRate", .string (toString entry.serialParamInfo.baudrate)),
    ("dataBits", .string (toString entry.serialParamInfo.databit)),
    ("parity", .string entry.serialParamInfo.parity), ("port", .string entry.serialName),
    ("portName", .string entry.name), ("stopBits", .string entry.serialParamInfo.stopbit),
    ("vmin", .numberInteger entry.serialParamInfo.vmin),
    ("vtime", .numberInteger entry.serialParamInfo.vtime)]

/-- The message with which `getChannelTable` asks for the channels. -/
def getSerialMessage : List SrvSerialInfo := [{ act := .get, serialInfo := .fresh }]

/-- All channels of the Setting service, as JSON text. -/
def getChannelTable : Handled :=
  consultSerial b getSerialMessage fun res =>
    b.json.dumpIndented (tableJson (res.serialList.map channelEntryJson))

/-- `std::atoi` of a member that has to be a string. -/
def numeral (http : Json) (key : String) : Option Int := do
  some (b.platform.atoi (← dataString http key))

/-- A member that may also be a number. -/
def numeralOrInt (http : Json) (key : String) : Option Int := do
  match ← dataMember http key with
  | .string s => some (b.platform.atoi s)
  | j => j.getInt b.platform

/-- The channel that a request describes. -/
def parseChannel (readId : Json → Option String) (readNumeral : Json → String → Option Int)
    (recvData : String) : Option SerialIdInfo := do
  let http ← b.json.parseObject recvData
  let id ← readId http
  let name ← dataString http "portName"
  let serialName ← dataString http "port"
  let baudrate ← readNumeral http "baudRate"
  let databit ← readNumeral http "dataBits"
  let parity ← dataString http "parity"
  let stopbit ← dataString http "stopBits"
  some { SerialIdInfo.fresh with
    id, name, serialName
    serialParamInfo := { baudrate, databit, parity, stopbit, vmin := 1, vtime := 15 } }

/-- The request describes a channel, and the Setting service is told what to do with it. -/
def changeChannel (act : Action) (serialInfo : Option SerialIdInfo) : Handled :=
  match serialInfo with
  | none => .failed
  | some serialInfo => consultSerial b [{ act, serialInfo }] noData

/-- A new channel has no `Id` yet, and its baud rate and data bits may be numbers. -/
def addChannel (recvData : String) : Handled :=
  changeChannel b .add (parseChannel b (fun _ => some "") (numeralOrInt b) recvData)

/-- The channel with the `Id` of the request is changed. -/
def editChannel (recvData : String) : Handled :=
  changeChannel b .edit (parseChannel b (dataString · "Id") (numeral b) recvData)

/-- The channel with the `Id` of the request is removed. -/
def delChannel (recvData : String) : Handled :=
  changeChannel b .del (parseChannel b (dataString · "Id") (numeral b) recvData)

/-! ## Readings -/

/-- The request for readings that a body describes. -/
def parseRTtask (recvData : String) : Option RTtask := do
  let http ← b.json.parseObject recvData
  let tmpstr ← dataString http "RTtaskId"
  let id :=
    if tmpstr = "Yc" then .yc
    else if tmpstr = "Yk" then .yk
    else if tmpstr = "Yt" then .yt
    else if tmpstr = "Yx" then .yx
    -- no branch of the source writes the member
    else b.rttaskId
  let isOn ← (← dataMember http "isOn").getInt b.platform
  let devSn ← dataString http "dev_sn"
  some { isOn, devSn, id }

/-- The request for readings is published for the web socket, and nobody waits for an answer. -/
def getRTData (recvData : String) : Handled :=
  match parseRTtask b recvData with
  | none => .failed
  | some rttask =>
      { code := some 200, data := "", effects := [.publish "TaskWebSocket/getRtData" rttask] }

/-! ## All handlers -/

/-- The call of a handler in `operation`. -/
def handle (recvData : String) : TaskId → Handled
  | .getPassWord => getPassWord b "data/csi_user.json" recvData
  | .devTableSave => devTableSave b "data/csi_devtable.json" recvData
  | .channelTableSave => channelTableSave b "data/csi_channeltable.json" recvData
  | .getDevTable => getDevTable b
  | .getChannelTable => getChannelTable b
  | .addDev => addDev b recvData
  | .editDev => editDev b recvData
  | .delDev => delDev b recvData
  | .addChannel => addChannel b recvData
  | .editChannel => editChannel b recvData
  | .delChannel => delChannel b recvData
  | .getRTData => getRTData b recvData

/-! ## What a handler can do -/

/-- A handler decides on its own, tells the Setting service about a change, or fetches a table. -/
inductive Handling : TaskId → Handled → Prop where
  | own (task : TaskId) (c : Int) (effects : List Effect) (dev : task ≠ .getDevTable)
      (channel : task ≠ .getChannelTable) (code : c = 200 ∨ c = 0 ∨ c = 400) :
      Handling task { code := some c, data := "", effects }
  | changeDev (task : TaskId) (message : List SrvDevInfo) (dev : task ≠ .getDevTable)
      (channel : task ≠ .getChannelTable) : Handling task (consultDev b message noData)
  | changeChannel (task : TaskId) (message : List SrvSerialInfo) (dev : task ≠ .getDevTable)
      (channel : task ≠ .getChannelTable) : Handling task (consultSerial b message noData)
  | devTable : Handling .getDevTable (getDevTable b)
  | channelTable : Handling .getChannelTable (getChannelTable b)

section Results

variable {b} {recvData : String} {task : TaskId}

/-- A comparison that is reached gives 200 or 400. -/
theorem passWordResult_eq {filename : String} {c : Int}
    (h : passWordResult b filename recvData = some c) : c = 200 ∨ c = 400 := by
  simp only [passWordResult, Option.bind_eq_bind, Option.bind_eq_some_iff] at h
  obtain ⟨content, -, jsonData, -, stored, -, http, -, data, -, given, -, hc⟩ := h
  obtain rfl := Option.some.inj hc
  split
  · exact .inl rfl
  · exact .inr rfl

/-- The login decides on its own. -/
theorem getPassWord_handling {filename : String} :
    Handling b .getPassWord (getPassWord b filename recvData) := by
  refine .own .getPassWord _ [] (by decide) (by decide) ?_
  cases hresult : passWordResult b filename recvData with
  | none => exact .inr (.inl rfl)
  | some c => exact (passWordResult_eq hresult).imp_right .inr

/-- Saving a table involves nobody else. -/
theorem tableSave_handling {filename : String} (hdev : task ≠ .getDevTable)
    (hchannel : task ≠ .getChannelTable) :
    Handling b task (tableSave b filename recvData) := by
  unfold tableSave
  split
  · exact .own task 0 [] hdev hchannel (.inr (.inl rfl))
  · split
    · exact .own task 0 _ hdev hchannel (.inr (.inl rfl))
    · exact .own task 200 _ hdev hchannel (.inl rfl)

/-- A device is changed by the Setting service, or the request is turned down. -/
theorem changeDev_handling {act : Action} {devInfo : Option DevInfo} (hdev : task ≠ .getDevTable)
    (hchannel : task ≠ .getChannelTable) : Handling b task (changeDev b act devInfo) := by
  cases devInfo with
  | none => exact .own task 0 [] hdev hchannel (.inr (.inl rfl))
  | some devInfo => exact .changeDev task _ hdev hchannel

/-- A channel is changed by the Setting service, or the request is turned down. -/
theorem changeChannel_handling {act : Action} {serialInfo : Option SerialIdInfo}
    (hdev : task ≠ .getDevTable) (hchannel : task ≠ .getChannelTable) :
    Handling b task (changeChannel b act serialInfo) := by
  cases serialInfo with
  | none => exact .own task 0 [] hdev hchannel (.inr (.inl rfl))
  | some serialInfo => exact .changeChannel task _ hdev hchannel

/-- A request for readings is published, or turned down. -/
theorem getRTData_handling : Handling b .getRTData (getRTData b recvData) := by
  unfold getRTData
  split
  · exact .own .getRTData 0 [] (by decide) (by decide) (.inr (.inl rfl))
  · exact .own .getRTData 200 _ (by decide) (by decide) (.inl rfl)

/-- Every task is handled in one of these ways. -/
theorem handle_handling (recvData : String) (task : TaskId) :
    Handling b task (handle b recvData task) := by
  cases task with
  | getPassWord => exact getPassWord_handling
  | devTableSave => exact tableSave_handling (by decide) (by decide)
  | channelTableSave => exact tableSave_handling (by decide) (by decide)
  | getDevTable => exact .devTable
  | getChannelTable => exact .channelTable
  | addDev => exact changeDev_handling (by decide) (by decide)
  | editDev => exact changeDev_handling (by decide) (by decide)
  | delDev => exact changeDev_handling (by decide) (by decide)
  | addChannel => exact changeChannel_handling (by decide) (by decide)
  | editChannel => exact changeChannel_handling (by decide) (by decide)
  | delChannel => exact changeChannel_handling (by decide) (by decide)
  | getRTData => exact getRTData_handling

/-- The Setting service leads to 200 or to 0, if nothing is thrown. -/
theorem consult_code {μ : Type} {responders : List (Responder μ SrvGetInfo)}
    {topic : String} {message : μ} {effect : Effect} {render : SrvGetInfo → Option String} {c : Int}
    (h : (consult responders topic message effect render).code = some c) : c = 200 ∨ c = 0 := by
  unfold consult at h
  split at h
  · cases h
  · split at h
    · split at h
      · cases h
      · exact .inl (Option.some.inj h).symm
    · exact .inr (Option.some.inj h).symm

/-- The error codes that reach the browser. -/
theorem handle_code {c : Int} (h : (handle b recvData task).code = some c) :
    c = 200 ∨ c = 0 ∨ c = 400 := by
  have hhandling : Handling b task (handle b recvData task) := handle_handling recvData task
  generalize handle b recvData task = handled at h hhandling
  cases hhandling with
  | own task c' effects dev channel code => exact Option.some.inj h ▸ code
  | changeDev task message dev channel => exact (consult_code h).imp_right .inl
  | changeChannel task message dev channel => exact (consult_code h).imp_right .inl
  | devTable => exact (consult_code h).imp_right .inl
  | channelTable => exact (consult_code h).imp_right .inl

/-- A body that is not an object describes no device. -/
theorem parseDev_of_parseObject (hbody : b.json.parseObject recvData = none)
    {readId : Json → Option String} : parseDev b readId recvData = none := by
  rw [parseDev, hbody]
  rfl

/-- A body that is not an object describes no channel. -/
theorem parseChannel_of_parseObject (hbody : b.json.parseObject recvData = none)
    {readId : Json → Option String} {readNumeral : Json → String → Option Int} :
    parseChannel b readId readNumeral recvData = none := by
  rw [parseChannel, hbody]
  rfl

/-- A body that is not an object asks for no readings. -/
theorem parseRTtask_of_parseObject (hbody : b.json.parseObject recvData = none) :
    parseRTtask b recvData = none := by
  rw [parseRTtask, hbody]
  rfl

/-- A body that is not an object is not written to a file. -/
theorem tableSave_of_parseObject (hbody : b.json.parseObject recvData = none) {filename : String} :
    tableSave b filename recvData = .failed := by
  rw [tableSave, hbody]

/-- A body that is not an object is turned down before anything happens, except by the two handlers
that do not look at it. -/
theorem handle_of_parseObject (hbody : b.json.parseObject recvData = none)
    (hdev : task ≠ .getDevTable) (hchannel : task ≠ .getChannelTable) :
    handle b recvData task = .failed := by
  cases task with
  | getPassWord => simp [handle, getPassWord, passWordResult, hbody, Handled.failed]
  | devTableSave => exact tableSave_of_parseObject hbody
  | channelTableSave => exact tableSave_of_parseObject hbody
  | getDevTable => exact absurd rfl hdev
  | getChannelTable => exact absurd rfl hchannel
  | addDev => rw [handle, addDev, parseDev_of_parseObject hbody, changeDev]
  | editDev => rw [handle, editDev, parseDev_of_parseObject hbody, changeDev]
  | delDev => rw [handle, delDev, parseDev_of_parseObject hbody, changeDev]
  | addChannel => rw [handle, addChannel, parseChannel_of_parseObject hbody, changeChannel]
  | editChannel => rw [handle, editChannel, parseChannel_of_parseObject hbody, changeChannel]
  | delChannel => rw [handle, delChannel, parseChannel_of_parseObject hbody, changeChannel]
  | getRTData => rw [handle, getRTData, parseRTtask_of_parseObject hbody]

end Results

end CsiFirmware.Webserver
