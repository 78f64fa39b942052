import CsiFirmware.Webserver.Handlers

/-!
# One reply for each request

Reference: `NetWorkLayerImp::operation` and `NetWorkLayerImp::getTaskId`.

`operation` runs the handler of the task that a body asks for, and sends the error code it returns.
`getTaskId` reads the task as `get<int>` does, from any number and from a boolean, and returns 0
where there is none, which is `GetPassWord`. A number that is not a task is met with silence.
`answeredOnce_iff` says which bodies get one reply and from the right handler.
-/

namespace CsiFirmware.Webserver

open CInt Json CsiFirmware.Common

/-- The integer that `get<int>` finds under a key of an object. -/
def Backend.jsonInt (b : Backend) (text key : String) : Option Int := do
  (← (← b.json.parseObject text).member key).getInt b.platform

/-- `jsonObject`, which is sent for an error code. -/
def replyJson (result : Int) : Json :=
  .object [("errorCode", .numberInteger result), ("response", .string "ok")]

/-- `jsonObject` with a table. -/
def tableReplyJson (result : Int) (data : String) : Json :=
  .object [("data", .string data), ("errorCode", .numberInteger result), ("response", .string "ok")]

/-- `jsonObject` at the end of a case of the `switch`. -/
def TaskId.replyJson (task : TaskId) (result : Int) (data : String) : Json :=
  match task with
  | .getDevTable | .getChannelTable =>
      if result = 200 then tableReplyJson result data else Webserver.replyJson result
  | _ => Webserver.replyJson result

/-- A call of `operation`. -/
structure Operation where
  /-- The task whose handler is run. -/
  handler : Option TaskId
  effects : List Effect
  /-- What `send` is called with. -/
  sent : List String
  /-- Whether an exception leaves the call. -/
  threw : Bool

/-- The text that is sent for a task. -/
def jsonString (b : Backend) (recvData : String) (task : TaskId) : Option String :=
  (handle b recvData task).code.bind fun result =>
    b.json.dump (task.replyJson result (handle b recvData task).data)

/-- `operation` when `receive` returns `recvData`. -/
def operation (b : Backend) (recvData : String) : Operation :=
  match selectedTask b.jsonInt recvData with
  | none => { handler := none, effects := [], sent := [], threw := false }
  | some task =>
      { handler := some task
        effects := (handle b recvData task).effects
        sent := (jsonString b recvData task).toList
        threw := (jsonString b recvData task).isNone }

/-! ## The reply discipline -/

/-- The body is an object whose `taskID` is the number of a task. -/
def Requests (b : Backend) (recvData : String) (task : TaskId) : Prop :=
  ∃ members taskID k, b.json.parse recvData = some (.object members) ∧
    members.lookup "taskID" = some taskID ∧ taskID.number? = some ((k : Int) : ℚ) ∧
    TaskId.ofInt k = some task

/-- One reply, from the handler that the body asks for; an error if it asks for none. -/
structure AnsweredOnce (b : Backend) (recvData : String) : Prop where
  returns : (operation b recvData).threw = false
  once : (operation b recvData).sent.length = 1
  handler : ∀ task, (operation b recvData).handler = some task → Requests b recvData task
  refused : (∀ task, ¬ Requests b recvData task) →
    (operation b recvData).handler = none ∧
      ∀ text ∈ (operation b recvData).sent, getCodeError b.jsonInt text ≠ 200

/-- The Setting service has subscribed to both topics. -/
structure Backend.SettingAnswers (b : Backend) : Prop where
  dev : ∃ r ∈ b.devService, r.topic = "devTable/addDev"
  serial : ∃ r ∈ b.serialService, r.topic = "SerialTable/addSerial"

/-- The strings of a device that `getDevTable` shows. -/
def devStrings (dev : DevInfo) : List String :=
  [dev.id, dev.category, dev.model, dev.devName, dev.serialInfo.name, dev.protocol, dev.sn]

/-- The strings of a channel that `getChannelTable` shows. -/
def channelStrings (info : SerialIdInfo) : List String :=
  [info.id, info.serialParamInfo.parity, info.serialName, info.name, info.serialParamInfo.stopbit]

/-- The table that the Setting service sends for a task, if it sends one, is in UTF-8. -/
def TableInUtf8 (b : Backend) : TaskId → Prop
  | .getDevTable => ∀ res, servicePublish b.devService "devTable/addDev" getDevMessage = some res →
      res.status = "ok" → ∀ dev ∈ res.devList, ∀ s ∈ devStrings dev, b.json.utf8 s
  | .getChannelTable =>
      ∀ res, servicePublish b.serialService "SerialTable/addSerial" getSerialMessage = some res →
        res.status = "ok" → ∀ info ∈ res.serialList, ∀ s ∈ channelStrings info, b.json.utf8 s
  | _ => True

variable {b : Backend} {recvData : String} {task : TaskId}

/-! ## The task of a body -/

/-- The number of a task is an `int`. -/
theorem TaskId.inRange_of_ofInt {k : Int} (h : TaskId.ofInt k = some task) : InRange k := by
  unfold TaskId.ofInt at h
  split at h
  case h_13 => cases h
  all_goals decide

/-- A task that is asked for by its number is the one selected. -/
theorem Requests.selectedTask (h : Requests b recvData task) (hne : recvData ≠ "") :
    selectedTask b.jsonInt recvData = some task := by
  obtain ⟨members, taskID, k, hparse, hmember, hnumber, htask⟩ := h
  have hobject : b.json.parseObject recvData = some (.object members) := by
    rw [Codec.parseObject, hparse]
    rfl
  -- `get<int>` takes any number of this value, whatever its type
  have hint : b.jsonInt recvData "taskID" = some k := by
    have hread := getInt_of_number? (p := b.platform) (TaskId.inRange_of_ofInt htask) hnumber
    simp [Backend.jsonInt, hobject, member, hmember, hread]
  rw [Webserver.selectedTask, if_neg hne, getTaskId, hint]
  exact htask

/-- A number that is not a task leads to nothing. -/
theorem operation_of_none (h : selectedTask b.jsonInt recvData = none) :
    operation b recvData = { handler := none, effects := [], sent := [], threw := false } := by
  rw [operation, h]

/-- The handler of the selected task is run. -/
theorem operation_handler (h : selectedTask b.jsonInt recvData = some task) :
    (operation b recvData).handler = some task := by
  rw [operation, h]

/-- The text is sent, if there is one. -/
theorem operation_sent (h : selectedTask b.jsonInt recvData = some task) :
    (operation b recvData).sent = (jsonString b recvData task).toList := by
  rw [operation, h]

/-- An exception leaves the call if there is no text to send. -/
theorem operation_threw (h : selectedTask b.jsonInt recvData = some task) :
    (operation b recvData).threw = (jsonString b recvData task).isNone := by
  rw [operation, h]

/-! ## Replies -/

/-- The keys and the address of a device are ASCII, so its other strings decide. -/
theorem utf8_devEntryJson (hjson : b.json.Lawful) {dev : DevInfo} :
    (∀ s ∈ (devEntryJson dev).strings, b.json.utf8 s) ↔ ∀ s ∈ devStrings dev, b.json.utf8 s := by
  have hkeys : ∀ key ∈ ["Id", "category", "communicationAddress", "model", "name", "port",
      "protocol", "sn"], b.json.utf8 key := fun key hkey =>
    hjson.utf8_ascii key (by revert key; simp)
  have haddr : b.json.utf8 dev.addr.repr := hjson.utf8_ascii _ ascii_toString
  simp only [List.forall_mem_cons] at hkeys
  simp [devEntryJson, devStrings, hkeys, haddr]

/-- The keys and the numbers of a channel are ASCII, so its other strings decide. -/
theorem utf8_channelEntryJson (hjson : b.json.Lawful) {info : SerialIdInfo} :
    (∀ s ∈ (channelEntryJson info).strings, b.json.utf8 s) ↔
      ∀ s ∈ channelStrings info, b.json.utf8 s := by
  have hkeys : ∀ key ∈ ["Id", "baudRate", "dataBits", "parity", "port", "portName", "stopBits",
      "vmin", "vtime"], b.json.utf8 key := fun key hkey =>
    hjson.utf8_ascii key (by revert key; simp)
  have hbaudrate : b.json.utf8 info.serialParamInfo.baudrate.repr :=
    hjson.utf8_ascii _ ascii_toString
  have hdatabit : b.json.utf8 info.serialParamInfo.databit.repr :=
    hjson.utf8_ascii _ ascii_toString
  simp only [List.forall_mem_cons] at hkeys
  simp [channelEntryJson, channelStrings, hkeys, hbaudrate, hdatabit]

/-- A table is written exactly if its entries are in UTF-8. -/
theorem dumpIndented_tableJson (hjson : b.json.Lawful) {entries : List Json} :
    (b.json.dumpIndented (tableJson entries)).isSome ↔
      ∀ entry ∈ entries, ∀ s ∈ entry.strings, b.json.utf8 s := by
  have hdata : b.json.utf8 "data" := hjson.utf8_ascii _ (by simp)
  have htable : b.json.utf8 "table" := hjson.utf8_ascii _ (by simp)
  rw [hjson.dumpIndented_isSome]
  simp only [tableJson, strings_object, strings_array, List.flatMap_cons, List.flatMap_nil,
    List.append_nil, List.forall_mem_cons, hdata, htable, true_and, List.mem_flatMap]
  exact ⟨fun h entry hentry s hs => h s ⟨entry, hentry, hs⟩,
    fun h s ⟨entry, hentry, hs⟩ => h entry hentry s hs⟩

/-- With someone to answer, `get` throws nothing, and what is left is the text of the table. -/
theorem consult_code_isSome {μ : Type} {responders : List (Responder μ SrvGetInfo)}
    {topic : String} {message : μ} {effect : Effect} {render : SrvGetInfo → Option String}
    (hresponder : ∃ r ∈ responders, r.topic = topic) :
    (consult responders topic message effect render).code.isSome ↔
      ∀ res, servicePublish responders topic message = some res → res.status = "ok" →
        (render res).isSome := by
  have hsome : (servicePublish responders topic message).isSome :=
    isSome_servicePublish.mpr hresponder
  obtain ⟨res, hres⟩ := Option.isSome_iff_exists.mp hsome
  have hone : (∀ res', some res = some res' → res'.status = "ok" → (render res').isSome) ↔
      (res.status = "ok" → (render res).isSome) := by simp
  rw [consult, hres, hone]
  by_cases hok : res.status = "ok"
  · cases hrender : render res with
    | none => simp [hok, hrender]
    | some data => simp [hok, hrender]
  · simp [hok]

/-- Only two tasks write a table. -/
theorem TableInUtf8.of_ne (hdev : task ≠ .getDevTable) (hchannel : task ≠ .getChannelTable) :
    TableInUtf8 b task := by
  cases task with
  | getDevTable => exact absurd rfl hdev
  | getChannelTable => exact absurd rfl hchannel
  | _ => trivial

/-- An exception leaves a handler exactly if it has to write a table that is not in UTF-8. -/
theorem handle_code_isSome (hjson : b.json.Lawful) (hsetting : b.SettingAnswers)
    (recvData : String) (task : TaskId) :
    (handle b recvData task).code.isSome ↔ TableInUtf8 b task := by
  have hhandling : Handling b task (handle b recvData task) := handle_handling recvData task
  generalize handle b recvData task = handled at hhandling
  cases hhandling with
  | own task c effects dev channel code => exact iff_of_true rfl (.of_ne dev channel)
  | changeDev task message dev channel =>
      refine iff_of_true ?_ (.of_ne dev channel)
      exact (consult_code_isSome hsetting.dev).mpr fun _ _ _ => rfl
  | changeChannel task message dev channel =>
      refine iff_of_true ?_ (.of_ne dev channel)
      exact (consult_code_isSome hsetting.serial).mpr fun _ _ _ => rfl
  | devTable =>
      refine (consult_code_isSome hsetting.dev).trans (forall₃_congr fun res hres hok => ?_)
      rw [dumpIndented_tableJson hjson]
      simp only [List.forall_mem_map, utf8_devEntryJson hjson]
  | channelTable =>
      refine (consult_code_isSome hsetting.serial).trans (forall₃_congr fun res hres hok => ?_)
      rw [dumpIndented_tableJson hjson]
      simp only [List.forall_mem_map, utf8_channelEntryJson hjson]

/-- The empty text is UTF-8. -/
theorem utf8_empty (hjson : b.json.Lawful) : b.json.utf8 "" := hjson.utf8_ascii _ (by simp)

/-- What is returned after asking the Setting service is empty or has been rendered. -/
theorem utf8_consult_data (hjson : b.json.Lawful) {μ : Type}
    {responders : List (Responder μ SrvGetInfo)} {topic : String} {message : μ} {effect : Effect}
    {render : SrvGetInfo → Option String}
    (hrender : ∀ res data, render res = some data → b.json.utf8 data) :
    b.json.utf8 (consult responders topic message effect render).data := by
  unfold consult
  split
  · exact utf8_empty hjson
  · split
    · split
      · exact utf8_empty hjson
      next data hdata => exact hrender _ data hdata
    · exact utf8_empty hjson

/-- What a handler leaves in `data` can be sent. -/
theorem utf8_handle_data (hjson : b.json.Lawful) (recvData : String) (task : TaskId) :
    b.json.utf8 (handle b recvData task).data := by
  have hnoData : ∀ res data, noData res = some data → b.json.utf8 data := fun _ _ h =>
    Option.some.inj h ▸ utf8_empty hjson
  have hhandling : Handling b task (handle b recvData task) := handle_handling recvData task
  -- what `dump(4)` wrote is ASCII or was checked when it was written
  generalize handle b recvData task = handled at hhandling
  cases hhandling with
  | own task c effects dev channel code => exact utf8_empty hjson
  | changeDev task message dev channel => exact utf8_consult_data hjson hnoData
  | changeChannel task message dev channel => exact utf8_consult_data hjson hnoData
  | devTable => exact utf8_consult_data hjson fun _ _ => hjson.utf8_dumpIndented _ _
  | channelTable => exact utf8_consult_data hjson fun _ _ => hjson.utf8_dumpIndented _ _

/-- A reply can always be written, if its table can. -/
theorem dump_replyJson (hjson : b.json.Lawful) {result : Int} {data : String}
    (hdata : b.json.utf8 data) : (b.json.dump (task.replyJson result data)).isSome := by
  have hkeys : ∀ key ∈ ["data", "errorCode", "response", "ok"], b.json.utf8 key := fun key hkey =>
    hjson.utf8_ascii key (by revert key; simp)
  simp only [List.forall_mem_cons] at hkeys
  have hcode : (b.json.dump (replyJson result)).isSome := by
    rw [hjson.dump_isSome]
    simp [replyJson, hkeys]
  have htable : (b.json.dump (tableReplyJson result data)).isSome := by
    rw [hjson.dump_isSome]
    simp [tableReplyJson, hkeys, hdata]
  unfold TaskId.replyJson
  split
  · split
    · exact htable
    · exact hcode
  · split
    · exact htable
    · exact hcode
  · exact hcode

/-! ## The condition -/

/-- There is a text to send exactly if the handler returns. -/
theorem jsonString_isSome (hjson : b.json.Lawful) (hsetting : b.SettingAnswers) (recvData : String)
    (task : TaskId) : (jsonString b recvData task).isSome ↔ TableInUtf8 b task := by
  rw [← handle_code_isSome hjson hsetting recvData task, jsonString]
  cases (handle b recvData task).code with
  | none => rfl
  | some result =>
      exact iff_of_true (dump_replyJson hjson (utf8_handle_data hjson recvData task)) rfl

/-- Every body is met with one reply from the right handler exactly if it asks for a task by number
and no table that is not in UTF-8 has to be written. -/
theorem answeredOnce_iff (hjson : b.json.Lawful) (hsetting : b.SettingAnswers)
    (hne : recvData ≠ "") :
    AnsweredOnce b recvData ↔ ∃ task, Requests b recvData task ∧ TableInUtf8 b task := by
  constructor
  · intro h
    cases htask : selectedTask b.jsonInt recvData with
    | none =>
        have honce := h.once
        rw [operation_of_none htask] at honce
        cases honce
    | some task =>
        refine ⟨task, h.handler task (operation_handler htask), ?_⟩
        rw [← jsonString_isSome hjson hsetting recvData, ← Option.isNone_eq_false_iff,
          ← operation_threw htask]
        exact h.returns
  · rintro ⟨task, hrequests, htable⟩
    have htask := hrequests.selectedTask hne
    obtain ⟨text, htext⟩ := Option.isSome_iff_exists.mp
      ((jsonString_isSome hjson hsetting recvData task).mpr htable)
    refine ⟨?_, ?_, fun task' hhandler => ?_, fun hnone => absurd hrequests (hnone task)⟩
    · rw [operation_threw htask, htext]
      rfl
    · rw [operation_sent htask, htext]
      rfl
    · obtain rfl := Option.some.inj ((operation_handler htask).symm.trans hhandler)
      exact hrequests

/-- The thread of the server does with a request what `operation` does, as long as it throws
nothing. -/
theorem workerStep_operation (hjson : b.json.Lawful) {s : HttpState} {request : Entry}
    (pc : s.worker = .operation request) (hreturns : (operation b request.body).threw = false) :
    workerStep b.jsonInt ((operation b request.body).sent.headD "") s = some { s with
      worker := match (operation b request.body).sent with
        | [] => .checkEmpty
        | text :: _ => .store request text } := by
  cases htask : selectedTask b.jsonInt request.body with
  | none => simp [workerStep, pc, htask, operation_of_none htask]
  | some task =>
      rw [operation_threw htask, Option.isNone_eq_false_iff] at hreturns
      obtain ⟨text, htext⟩ := Option.isSome_iff_exists.mp hreturns
      have hne : text ≠ "" := by
        rintro rfl
        obtain ⟨result, -, hdump⟩ := Option.bind_eq_some_iff.mp htext
        exact hjson.dump_ne_empty _ hdump
      simp [workerStep, pc, htask, operation_sent htask, htext, hne]

/-! ## A server without a user file -/

/-- `dump()` of a value that is an error code or null. -/
private def dumpCode : Json → String
  | .object [("errorCode", .numberInteger result), ("response", .string "ok")] =>
      "\x7b\"errorCode\":" ++ toString result ++ ",\"response\":\"ok\"\x7d"
  | _ => "null"

/-- The body of a login without a name and a password. -/
private def loginBody : String := "\x7b\"taskID\":0\x7d"

/-- A body with a number that is not a task. -/
private def unknownBody : String := "\x7b\"taskID\":12\x7d"

/-- A library that knows these two bodies. -/
private def plainJson : Codec where
  parse text :=
    if text = loginBody then some (.object [("taskID", .numberUnsigned 0)])
    else if text = unknownBody then some (.object [("taskID", .numberUnsigned 12)])
    else none
  dump j := some (dumpCode j)
  dumpIndented j := some (dumpCode j)
  utf8 _ := true

/-- A server whose Setting service answers with empty tables. -/
private def plainBackend : Backend where
  json := plainJson
  platform := { castOverflow := fun _ => 0, atoiOverflow := fun _ => 0 }
  openFile _ := none
  devService := [{ topic := "devTable/addDev", callback := fun _ => ⟨[], [], "ok"⟩ }]
  serialService := [{ topic := "SerialTable/addSerial", callback := fun _ => ⟨[], [], "ok"⟩ }]
  rttaskId := .yx

/-- This library writes every value. -/
private theorem plainJson_lawful : plainBackend.json.Lawful where
  utf8_ascii _ _ := rfl
  dump_isSome _ := iff_of_true rfl fun _ _ => rfl
  dumpIndented_isSome _ := iff_of_true rfl fun _ _ => rfl
  utf8_dumpIndented _ _ _ := rfl
  dump_ne_empty j h := by
    have hlength := congrArg String.length (Option.some.inj h)
    unfold dumpCode at hlength
    split at hlength
    · simp at hlength
    · cases hlength

/-- The Setting service answers to both topics. -/
private theorem plainBackend_settingAnswers : plainBackend.SettingAnswers where
  dev := ⟨_, List.mem_singleton_self _, rfl⟩
  serial := ⟨_, List.mem_singleton_self _, rfl⟩

/-- A login is answered once. -/
theorem answeredOnce_login : AnsweredOnce plainBackend loginBody := by
  have hparse : plainBackend.json.parse loginBody =
      some (.object [("taskID", .numberUnsigned 0)]) := by rfl
  refine (answeredOnce_iff plainJson_lawful plainBackend_settingAnswers (by decide)).mpr ?_
  exact ⟨.getPassWord, ⟨_, _, 0, hparse, rfl, by simp [number?], rfl⟩, trivial⟩

/-- What is no JSON is taken for a login, and a task that does not exist is not answered. -/
theorem not_answeredOnce : plainBackend.json.Lawful ∧ plainBackend.SettingAnswers ∧
    ¬ AnsweredOnce plainBackend "hello" ∧ ¬ AnsweredOnce plainBackend unknownBody := by
  refine ⟨plainJson_lawful, plainBackend_settingAnswers, fun h => ?_, fun h => ?_⟩
  · have htask : selectedTask plainBackend.jsonInt "hello" = some .getPassWord := by
      rfl
    -- the handler that is run is not one that the body asks for
    obtain ⟨_, _, _, hparse, -⟩ := h.handler .getPassWord (operation_handler htask)
    cases hparse
  · have htask : selectedTask plainBackend.jsonInt unknownBody = none := by
      rfl
    have honce := h.once
    rw [operation_of_none htask] at honce
    cases honce

end CsiFirmware.Webserver
