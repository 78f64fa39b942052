import CsiFirmware.Lib.Runs
import CsiFirmware.Protocol.Modbus

/-!
# Device and serial lists

Reference: the subscribers in the constructor of `TaskSerial`, `TaskSerial::loadAllList` and the
constructors of `Serial_485` and `Modbus`.

The Setting service publishes the whole device list or the whole serial list after every change.
`TaskSerial` keeps the last of each and two maps derived from them: the ports, by the name of the
serial, and the protocol objects, by the name of the device. A port object has an identity, and a
protocol object holds the identity of its port, as the raw pointer in `Modbus::_serial` does.

The removing loops call `erase(it)` and go on with `it`. An iterator into a vector then stands at
the next element. Into a map it is one to a freed node, which the loop reads and increments: that is
undefined, and the model has no next state. So a removing loop over a map either matches every key
and changes nothing, or it is not survived (`eraseUnmatched_eq_some_iff`).
-/

namespace CsiFirmware.Task

open Protocol Runs

variable {δ : Type}

/-- Maps by name. Only look-ups matter, so the order of the entries is left to the loops. -/
abbrev StringMap (β : Type) := AList fun _ : String => β

/-- The outside world. -/
structure Environment (δ : Type) where
  /-- The file descriptor that opening a path yields, or `-1`. -/
  openDriver : String → Int
  /-- What `loadPointFromJson` reads. -/
  pointTable : List (ModbusPoint δ)

/-! ## Ports -/

/-- The driver files that are RS-485 ports. -/
def rs485Names : List String :=
  ["RS485-1", "RS485-2", "RS485-3", "RS485-4", "RS485-5", "RS485-6", "RS485-7", "RS485-8"]

/-- The serial is one of the board's RS485 ports. -/
def isRS485 (serial : SerialIdInfo) : Prop := serial.serialName ∈ rs485Names

instance (serial : SerialIdInfo) : Decidable (isRS485 serial) :=
  inferInstanceAs (Decidable (_ ∈ _))

/-- What the constructor of `Serial_485` writes to the record it is given. -/
def openedInfo (env : Environment δ) (serial : SerialIdInfo) : SerialIdInfo :=
  { serial with
    serialId := env.openDriver
      (if serial.serialName ∈ rs485Names then "/dev/tty" ++ serial.serialName else "")
    statu := 0 }

/-- `Serial_485`. -/
structure Serial485 where
  ident : ℕ
  serialIdtmp : SerialIdInfo
deriving DecidableEq

/-! ## The state -/

/-- The members of `TaskSerial` that the two lists are kept in. -/
structure TaskLists (δ : Type) where
  devList : List DevInfo
  serialList : List SerialIdInfo
  serialInfoMap : StringMap Serial485
  protocolInfoMap : StringMap (Modbus δ)
  isLoadDevList : Bool
  isLoadSerialList : Bool
  isMergeDevAndSerial : Bool
  /-- The identity of the next port object. -/
  nextIdent : ℕ

namespace TaskLists

/-- After the constructor of `TaskSerial`. -/
def init : TaskLists δ :=
  { devList := [], serialList := [], serialInfoMap := ∅, protocolInfoMap := ∅
    isLoadDevList := true, isLoadSerialList := true, isMergeDevAndSerial := true, nextIdent := 0 }

/-- `serialInfoMap[serial.name] = std::make_shared<Serial_485>(serial)`, for an RS-485 port. -/
def addSerial (env : Environment δ) (s : TaskLists δ) (serial : SerialIdInfo) : TaskLists δ :=
  if isRS485 serial then
    { s with
      serialInfoMap := s.serialInfoMap.insert serial.name
        ⟨s.nextIdent, openedInfo env serial⟩
      nextIdent := s.nextIdent + 1 }
  else s

/-- The loop over `serialInfoMap` that looks for the port of a device and creates the protocol. -/
def bindDevice (env : Environment δ) (s : TaskLists δ) (dev : DevInfo) : TaskLists δ :=
  match s.serialInfoMap.lookup dev.serialInfo.name with
  | some serial =>
      if "modbus" = dev.protocol then
        { s with
          protocolInfoMap := s.protocolInfoMap.insert dev.devName
            (Modbus.new env.pointTable serial.ident) }
      else s
  | none => s

/-- The body of a removing loop. An entry without a match is erased, and the loop then uses the
iterator to it, which is undefined. -/
def eraseEntry {β : Type} (matched : String → Prop) [DecidablePred matched] (m : StringMap β)
    (key : String) : Option (StringMap β) :=
  if matched key then some m else none

/-- A removing loop. Nothing it does depends on the order of the entries. -/
def eraseUnmatched {β : Type} (matched : String → Prop) [DecidablePred matched] (m : StringMap β) :
    Option (StringMap β) :=
  m.keys.foldlM (eraseEntry matched) m

/-- The first device of a message whose name is not in the list. -/
def newDevice (devList msg : List DevInfo) : Option DevInfo :=
  msg.find? fun dev => dev.devName ∉ devList.map DevInfo.devName

/-- The first serial of a message whose name is not in the list. -/
def newSerial (serialList msg : List SerialIdInfo) : Option SerialIdInfo :=
  msg.find? fun serial => serial.name ∉ serialList.map SerialIdInfo.name

/-- The callback on `Setting/DevList`. What the removing branch erases from `devList` itself is
overwritten at the end. -/
def onDevList (env : Environment δ) (s : TaskLists δ) (msg : List DevInfo) : Option (TaskLists δ) :=
  if s.isLoadDevList = false then
    if s.devList.length < msg.length then
      -- the loop ends with the first new device, whether or not it has a port
      match newDevice s.devList msg with
      | some dev => some { bindDevice env s dev with devList := msg }
      | none => some { s with devList := msg }
    else if msg.length < s.devList.length then
      (eraseUnmatched (· ∈ msg.map DevInfo.devName) s.protocolInfoMap).map
        fun protocolInfoMap => { s with protocolInfoMap, devList := msg }
    else some { s with devList := msg }
  -- the first message only fills the list, which `loadAllList` reads later
  else some { s with isLoadDevList := false, devList := msg }

/-- The callback on `Setting/serialList`. The removing branch compares the keys of the map with the
`SerialName`s of the message. -/
def onSerialList (env : Environment δ) (s : TaskLists δ) (msg : List SerialIdInfo) :
    Option (TaskLists δ) :=
  if s.isLoadSerialList = false then
    if s.serialList.length < msg.length then
      match newSerial s.serialList msg with
      | some serial => some { addSerial env s serial with serialList := msg }
      | none => some { s with serialList := msg }
    else if msg.length < s.serialList.length then
      (eraseUnmatched (· ∈ msg.map SerialIdInfo.serialName) s.serialInfoMap).map
        fun serialInfoMap => { s with serialInfoMap, serialList := msg }
    else some { s with serialList := msg }
  else some { s with isLoadSerialList := false, serialList := msg }

/-- The serials are passed to the constructor of `Serial_485` by reference, out of the list. -/
def loadAllList (env : Environment δ) (s : TaskLists δ) : TaskLists δ :=
  let ported := s.serialList.foldl (addSerial env) s
  let opened :=
    { ported with
      serialList := s.serialList.map fun serial =>
        if isRS485 serial then openedInfo env serial else serial }
  { s.devList.foldl (bindDevice env) opened with isMergeDevAndSerial := false }

/-- One turn of the worker thread, as far as the lists are concerned. -/
def work (env : Environment δ) (s : TaskLists δ) : TaskLists δ :=
  if s.isLoadDevList = false ∧ s.isLoadSerialList = false ∧ s.isMergeDevAndSerial = true then
    loadAllList env s
  else s

/-- The state after the first message on each topic and `loadAllList`. -/
def loaded (env : Environment δ) (devList : List DevInfo) (serialList : List SerialIdInfo) :
    TaskLists δ :=
  loadAllList env { (init : TaskLists δ) with
    devList, serialList, isLoadDevList := false, isLoadSerialList := false }

variable {env : Environment δ} {s s' : TaskLists δ}

/-! ## Frames -/

section Frames

variable (env s) (serial : SerialIdInfo) (dev : DevInfo)

/-- Adding a port leaves the protocol objects. -/
@[simp] theorem addSerial_protocolInfoMap :
    (addSerial env s serial).protocolInfoMap = s.protocolInfoMap := by
  rw [addSerial]; split_ifs <;> rfl

/-- Adding a port leaves the device list. -/
@[simp] theorem addSerial_devList : (addSerial env s serial).devList = s.devList := by
  rw [addSerial]; split_ifs <;> rfl

/-- Adding a port leaves the flag of the device list. -/
@[simp] theorem addSerial_isLoadDevList :
    (addSerial env s serial).isLoadDevList = s.isLoadDevList := by
  rw [addSerial]; split_ifs <;> rfl

/-- Adding a port leaves the flag of the serial list. -/
@[simp] theorem addSerial_isLoadSerialList :
    (addSerial env s serial).isLoadSerialList = s.isLoadSerialList := by
  rw [addSerial]; split_ifs <;> rfl

/-- Binding a device leaves the ports. -/
@[simp] theorem bindDevice_serialInfoMap :
    (bindDevice env s dev).serialInfoMap = s.serialInfoMap := by
  rw [bindDevice]; split <;> [split_ifs <;> rfl; rfl]

/-- Binding a device leaves the device list. -/
@[simp] theorem bindDevice_devList : (bindDevice env s dev).devList = s.devList := by
  rw [bindDevice]; split <;> [split_ifs <;> rfl; rfl]

/-- Binding a device leaves the serial list. -/
@[simp] theorem bindDevice_serialList : (bindDevice env s dev).serialList = s.serialList := by
  rw [bindDevice]; split <;> [split_ifs <;> rfl; rfl]

/-- Binding a device leaves the flag of the device list. -/
@[simp] theorem bindDevice_isLoadDevList :
    (bindDevice env s dev).isLoadDevList = s.isLoadDevList := by
  rw [bindDevice]; split <;> [split_ifs <;> rfl; rfl]

/-- Binding a device leaves the flag of the serial list. -/
@[simp] theorem bindDevice_isLoadSerialList :
    (bindDevice env s dev).isLoadSerialList = s.isLoadSerialList := by
  rw [bindDevice]; split <;> [split_ifs <;> rfl; rfl]

/-- Binding a device creates no port. -/
@[simp] theorem bindDevice_nextIdent : (bindDevice env s dev).nextIdent = s.nextIdent := by
  rw [bindDevice]; split <;> [split_ifs <;> rfl; rfl]

end Frames

/-! ## What is removed -/

section Erase

variable {β : Type} {matched : String → Prop} [DecidablePred matched] {m m' : StringMap β}

/-- Over any list of keys, the loop reaches its end exactly if all of them are matched. -/
private theorem foldlM_eraseEntry_eq_some_iff {keys : List String} :
    keys.foldlM (eraseEntry matched) m = some m' ↔ m' = m ∧ ∀ key ∈ keys, matched key := by
  induction keys with
  | nil => simp [eq_comm]
  | cons k keys ih =>
      rw [List.foldlM_cons, eraseEntry]
      by_cases hk : matched k
      · rw [if_pos hk, Option.bind_eq_bind, Option.bind_some, ih, List.forall_mem_cons]
        exact and_congr_right fun _ => (and_iff_right hk).symm
      · -- the first entry without a match ends the run
        rw [if_neg hk]
        exact iff_of_false (by simp) fun h => hk (h.2 k List.mem_cons_self)

/-- A removing loop is survived if and only if it has nothing to remove. -/
theorem eraseUnmatched_eq_some_iff :
    eraseUnmatched matched m = some m' ↔ m' = m ∧ ∀ key ∈ m, matched key := by
  rw [eraseUnmatched, foldlM_eraseEntry_eq_some_iff]
  simp only [AList.mem_keys]

end Erase

/-- What `find?` returns satisfies the predicate. -/
theorem of_find?_eq_some {α : Type*} {p : α → Prop} [DecidablePred p] {l : List α} {a : α}
    (h : l.find? (fun x => p x) = some a) : p a := by
  have hfound := List.find?_some h
  exact of_decide_eq_true hfound

/-- If a message has one element more than the list, with a name that the list does not have, then
that element is found, up to what its key leaves out. -/
theorem find?_added {α κ : Type*} {key : α → κ} {name : α → String} (nameOf : κ → String)
    (hname : ∀ a, name a = nameOf (key a)) {l msg : List α} {a : α} (hfresh : name a ∉ l.map name)
    (hperm : (msg.map key).Perm (key a :: l.map key)) :
    ∃ found, msg.find? (fun b => name b ∉ l.map name) = some found ∧ key found = key a := by
  obtain ⟨found, hfound⟩ : ∃ found, msg.find? (fun b => name b ∉ l.map name) = some found := by
    rw [← Option.isSome_iff_exists, List.find?_isSome]
    have hmem : key a ∈ msg.map key := hperm.mem_iff.mpr List.mem_cons_self
    obtain ⟨found, hmsg, hkey⟩ := List.mem_map.mp hmem
    refine ⟨found, hmsg, decide_eq_true ?_⟩
    rw [hname, hkey, ← hname]
    exact hfresh
  refine ⟨found, hfound, ?_⟩
  have hnew := of_find?_eq_some hfound
  have hmem := hperm.mem_iff.mp (List.mem_map_of_mem (List.mem_of_find?_eq_some hfound))
  rcases List.mem_cons.mp hmem with heq | hold
  · exact heq
  · obtain ⟨b, hb, hkey⟩ := List.mem_map.mp hold
    exact absurd (List.mem_map.mpr ⟨b, hb, by rw [hname, hkey, ← hname]⟩) hnew

/-! ## What is added -/

/-- The names of the RS-485 ports of a list. -/
def portNames (serials : List SerialIdInfo) : List String :=
  (serials.filter fun serial => isRS485 serial).map SerialIdInfo.name

/-- The names of the RS485 ports of a list. -/
theorem mem_portNames {serials : List SerialIdInfo} {key : String} :
    key ∈ portNames serials ↔
      ∃ serial ∈ serials, isRS485 serial ∧ serial.name = key := by
  simp [portNames, and_assoc]

/-- One serial after the other. -/
theorem mem_portNames_cons {serial : SerialIdInfo} {serials : List SerialIdInfo} {key : String} :
    key ∈ portNames (serial :: serials) ↔
      isRS485 serial ∧ key = serial.name ∨ key ∈ portNames serials := by
  rw [mem_portNames, mem_portNames, eq_comm]
  simp only [List.mem_cons, exists_eq_or_imp]

/-- One port is new, or nothing is. -/
theorem lookup_addSerial (serial : SerialIdInfo) (key : String) :
    (addSerial env s serial).serialInfoMap.lookup key =
      if isRS485 serial ∧ key = serial.name then
        some ⟨s.nextIdent, openedInfo env serial⟩
      else s.serialInfoMap.lookup key := by
  rw [addSerial]
  by_cases h : isRS485 serial
  · by_cases hkey : key = serial.name
    · subst hkey
      simp [h]
    · simp [h, hkey, AList.lookup_insert_ne]
  · simp [h]

/-- A port is added under its name. -/
theorem mem_addSerial (serial : SerialIdInfo) (key : String) :
    key ∈ (addSerial env s serial).serialInfoMap ↔
      isRS485 serial ∧ key = serial.name ∨ key ∈ s.serialInfoMap := by
  rw [← AList.lookup_isSome, lookup_addSerial]
  split_ifs with h
  · simp [h]
  · simp [h, AList.lookup_isSome]

/-- The keys after the first loop of `loadAllList`. -/
theorem mem_foldl_addSerial (env : Environment δ) (s : TaskLists δ) (serials : List SerialIdInfo)
    (key : String) :
    key ∈ (serials.foldl (addSerial env) s).serialInfoMap ↔
      key ∈ portNames serials ∨ key ∈ s.serialInfoMap := by
  induction serials generalizing s with
  | nil => simp [portNames]
  | cons serial serials ih =>
      rw [List.foldl_cons, ih, mem_addSerial, mem_portNames_cons, or_left_comm, ← or_assoc]

/-- The protocol of one device is new, or nothing is. -/
theorem lookup_bindDevice (dev : DevInfo) (key : String) :
    (bindDevice env s dev).protocolInfoMap.lookup key =
      if key = dev.devName ∧ dev.protocol = "modbus" ∧ dev.serialInfo.name ∈ s.serialInfoMap then
        (s.serialInfoMap.lookup dev.serialInfo.name).map fun serial =>
          Modbus.new env.pointTable serial.ident
      else s.protocolInfoMap.lookup key := by
  rw [bindDevice]
  cases hport : s.serialInfoMap.lookup dev.serialInfo.name with
  | none =>
      have hmem : dev.serialInfo.name ∉ s.serialInfoMap := AList.lookup_eq_none.mp hport
      simp [hmem]
  | some serial =>
      have hmem : dev.serialInfo.name ∈ s.serialInfoMap := by
        rw [← AList.lookup_isSome, hport]
        rfl
      by_cases hprotocol : "modbus" = dev.protocol
      · by_cases hkey : key = dev.devName
        · subst hkey
          simp [hprotocol.symm, hmem]
        · simp [hprotocol, hkey, AList.lookup_insert_ne]
      · have hprotocol' : ¬ dev.protocol = "modbus" := fun h => hprotocol h.symm
        simp [hprotocol, hprotocol']

/-- After the second loop a protocol object is the one from before, or belongs to a device of the
list and refers to a port in the map. -/
theorem lookup_foldl_bindDevice (env : Environment δ) (s : TaskLists δ) (devs : List DevInfo)
    (name : String) :
    ((devs.foldl (bindDevice env) s).protocolInfoMap.lookup name =
        s.protocolInfoMap.lookup name ∧
      ∀ dev ∈ devs, dev.devName = name → dev.protocol = "modbus" →
        dev.serialInfo.name ∉ s.serialInfoMap) ∨
    ∃ dev ∈ devs, dev.devName = name ∧ dev.protocol = "modbus" ∧
      ∃ p, s.serialInfoMap.lookup dev.serialInfo.name = some p ∧
        (devs.foldl (bindDevice env) s).protocolInfoMap.lookup name =
          some (Modbus.new env.pointTable p.ident) := by
  induction devs generalizing s with
  | nil => exact Or.inl ⟨rfl, fun _ hdev => absurd hdev List.not_mem_nil⟩
  | cons dev devs ih =>
      rw [List.foldl_cons]
      rcases ih (bindDevice env s dev) with ⟨hlookup, hnone⟩ | hsome
      · -- no later device of the name has a port, so this one decides
        rw [hlookup, lookup_bindDevice]
        simp only [bindDevice_serialInfoMap] at hnone
        split_ifs with hnew
        · obtain ⟨rfl, hprotocol, hport⟩ := hnew
          obtain ⟨p, hp⟩ := Option.isSome_iff_exists.mp (AList.lookup_isSome.mpr hport)
          exact Or.inr ⟨dev, List.mem_cons_self, rfl, hprotocol, p, hp, by rw [hp]; rfl⟩
        · refine Or.inl ⟨rfl, fun dev' hdev' hname hprotocol hport => ?_⟩
          rcases List.mem_cons.mp hdev' with rfl | hdev'
          · exact hnew ⟨hname.symm, hprotocol, hport⟩
          · exact hnone dev' hdev' hname hprotocol hport
      · obtain ⟨dev', hdev', hname, hprotocol, p, hp, hlookup⟩ := hsome
        rw [bindDevice_serialInfoMap] at hp
        exact Or.inr ⟨dev', List.mem_cons_of_mem _ hdev', hname, hprotocol, p, hp, hlookup⟩

/-! ## What a message can do -/

/-- A device list that is shorter is survived if every protocol belongs to a device of it. -/
theorem onDevList_shorter {msg : List DevInfo} (hload : s.isLoadDevList = false)
    (hshorter : msg.length < s.devList.length) :
    onDevList env s msg = some s' ↔
      s' = { s with devList := msg } ∧
        ∀ name ∈ s.protocolInfoMap, name ∈ msg.map DevInfo.devName := by
  rw [onDevList, if_pos hload, if_neg (by omega), if_pos hshorter, Option.map_eq_some_iff]
  simp only [eraseUnmatched_eq_some_iff]
  constructor
  · rintro ⟨_, ⟨rfl, hmatched⟩, rfl⟩
    exact ⟨rfl, hmatched⟩
  · rintro ⟨rfl, hmatched⟩
    exact ⟨s.protocolInfoMap, ⟨rfl, hmatched⟩, rfl⟩

/-- A serial list that is shorter is survived if every port is called like a driver of it. -/
theorem onSerialList_shorter {msg : List SerialIdInfo} (hload : s.isLoadSerialList = false)
    (hshorter : msg.length < s.serialList.length) :
    onSerialList env s msg = some s' ↔
      s' = { s with serialList := msg } ∧
        ∀ key ∈ s.serialInfoMap, key ∈ msg.map SerialIdInfo.serialName := by
  rw [onSerialList, if_pos hload, if_neg (by omega), if_pos hshorter, Option.map_eq_some_iff]
  simp only [eraseUnmatched_eq_some_iff]
  constructor
  · rintro ⟨_, ⟨rfl, hmatched⟩, rfl⟩
    exact ⟨rfl, hmatched⟩
  · rintro ⟨rfl, hmatched⟩
    exact ⟨s.serialInfoMap, ⟨rfl, hmatched⟩, rfl⟩

/-- After the first message, a device list binds one new device or changes no protocol. -/
theorem onDevList_cases {msg : List DevInfo} (hs : onDevList env s msg = some s') :
    (s.isLoadDevList = true ∧ s' = { s with isLoadDevList := false, devList := msg }) ∨
    (s.isLoadDevList = false ∧ s.devList.length < msg.length ∧
      ∃ dev, newDevice s.devList msg = some dev ∧
        s' = { bindDevice env s dev with devList := msg }) ∨
    (s.isLoadDevList = false ∧
      (msg.length < s.devList.length →
        ∀ name ∈ s.protocolInfoMap, name ∈ msg.map DevInfo.devName) ∧
      s' = { s with devList := msg }) := by
  by_cases hload : s.isLoadDevList = false
  swap
  · rw [onDevList, if_neg hload] at hs
    exact Or.inl ⟨Bool.of_not_eq_false hload, (Option.some.inj hs).symm⟩
  by_cases hshorter : msg.length < s.devList.length
  · obtain ⟨rfl, hmatched⟩ := (onDevList_shorter hload hshorter).mp hs
    exact Or.inr (Or.inr ⟨hload, fun _ => hmatched, rfl⟩)
  rw [onDevList, if_pos hload, if_neg hshorter] at hs
  split_ifs at hs with hlonger
  · cases hnew : newDevice s.devList msg with
    | none =>
        simp only [hnew, Option.some.injEq] at hs
        exact Or.inr (Or.inr ⟨hload, fun h => absurd h hshorter, hs.symm⟩)
    | some dev =>
        simp only [hnew, Option.some.injEq] at hs
        exact Or.inr (Or.inl ⟨hload, hlonger, dev, rfl, hs.symm⟩)
  · exact Or.inr (Or.inr ⟨hload, fun h => absurd h hshorter, (Option.some.inj hs).symm⟩)

/-- A serial list likewise. -/
theorem onSerialList_cases {msg : List SerialIdInfo} (hs : onSerialList env s msg = some s') :
    (s.isLoadSerialList = true ∧ s' = { s with isLoadSerialList := false, serialList := msg }) ∨
    (s.isLoadSerialList = false ∧ s.serialList.length < msg.length ∧
      ∃ serial, newSerial s.serialList msg = some serial ∧
        s' = { addSerial env s serial with serialList := msg }) ∨
    (s.isLoadSerialList = false ∧
      (msg.length < s.serialList.length →
        ∀ key ∈ s.serialInfoMap, key ∈ msg.map SerialIdInfo.serialName) ∧
      s' = { s with serialList := msg }) := by
  by_cases hload : s.isLoadSerialList = false
  swap
  · rw [onSerialList, if_neg hload] at hs
    exact Or.inl ⟨Bool.of_not_eq_false hload, (Option.some.inj hs).symm⟩
  by_cases hshorter : msg.length < s.serialList.length
  · obtain ⟨rfl, hmatched⟩ := (onSerialList_shorter hload hshorter).mp hs
    exact Or.inr (Or.inr ⟨hload, fun _ => hmatched, rfl⟩)
  rw [onSerialList, if_pos hload, if_neg hshorter] at hs
  split_ifs at hs with hlonger
  · cases hnew : newSerial s.serialList msg with
    | none =>
        simp only [hnew, Option.some.injEq] at hs
        exact Or.inr (Or.inr ⟨hload, fun h => absurd h hshorter, hs.symm⟩)
    | some serial =>
        simp only [hnew, Option.some.injEq] at hs
        exact Or.inr (Or.inl ⟨hload, hlonger, serial, rfl, hs.symm⟩)
  · exact Or.inr (Or.inr ⟨hload, fun h => absurd h hshorter, (Option.some.inj hs).symm⟩)

/-! ## After `loadAllList` -/

/-- The ports after `loadAllList`. -/
theorem loadAllList_serialInfoMap :
    (loadAllList env s).serialInfoMap =
      (s.serialList.foldl (addSerial env) s).serialInfoMap := by
  rw [loadAllList]
  simp only [foldl_frame (bindDevice_serialInfoMap env)]

/-- The protocols after `loadAllList`: that of a device is the one from before if no device of the
name has a port, and else it refers to a port in the map. -/
theorem lookup_loadAllList (env : Environment δ) (s : TaskLists δ) (name : String) :
    ((loadAllList env s).protocolInfoMap.lookup name = s.protocolInfoMap.lookup name ∧
      ∀ dev ∈ s.devList, dev.devName = name → dev.protocol = "modbus" →
        dev.serialInfo.name ∉ (loadAllList env s).serialInfoMap) ∨
    ∃ dev ∈ s.devList, dev.devName = name ∧ dev.protocol = "modbus" ∧
      ∃ p, (loadAllList env s).serialInfoMap.lookup dev.serialInfo.name = some p ∧
        (loadAllList env s).protocolInfoMap.lookup name =
          some (Modbus.new env.pointTable p.ident) := by
  rw [loadAllList_serialInfoMap]
  rcases lookup_foldl_bindDevice env { s.serialList.foldl (addSerial env) s with
      serialList := s.serialList.map fun serial =>
        if isRS485 serial then openedInfo env serial else serial } s.devList name with
    ⟨hlookup, hnone⟩ | hsome
  · refine Or.inl ⟨hlookup.trans ?_, hnone⟩
    exact congrArg _ (foldl_frame (addSerial_protocolInfoMap env) s.serialList s)
  · exact Or.inr hsome

/-- What is kept of each serial, with the result of opening it. -/
theorem loaded_serialList (env : Environment δ) (devList : List DevInfo)
    (serialList : List SerialIdInfo) :
    (loaded env devList serialList).serialList = serialList.map fun serial =>
      if isRS485 serial then openedInfo env serial else serial := by
  rw [loaded, loadAllList]
  simp only [foldl_frame (bindDevice_serialList env)]

/-- The devices are kept as they came. -/
theorem loaded_devList (env : Environment δ) (devList : List DevInfo)
    (serialList : List SerialIdInfo) : (loaded env devList serialList).devList = devList := by
  rw [loaded, loadAllList]
  simp only [foldl_frame (bindDevice_devList env), foldl_frame (addSerial_devList env)]

end TaskLists

end CsiFirmware.Task
