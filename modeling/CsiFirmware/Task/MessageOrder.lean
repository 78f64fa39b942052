import CsiFirmware.Task.PortIdentity
import CsiFirmware.Task.SerialSync

/-!
# A device before its port

Reference: the subscribers on `Setting/DevList` and `Setting/serialList`, and
`TaskSerial::loadAllList`.

The two lists travel on message queues of their own, so a device can be added before its port. Only
the callback on the device list looks for the port of a device, and only once; `loadAllList` runs
when both lists are there. `order_matters` compares the two orders.
-/

namespace CsiFirmware.Task

open Protocol Runs

variable {δ : Type}

namespace TaskLists

/-- What the callback reads of a device. -/
def deviceKey (dev : DevInfo) : String × String × String :=
  (dev.devName, dev.protocol, dev.serialInfo.name)

/-- The message has the serial in addition to those of the list, under a new name. -/
structure AddsSerial (serialList msg : List SerialIdInfo) (serial : SerialIdInfo) : Prop where
  fresh : serial.name ∉ serialList.map SerialIdInfo.name
  perm : (msg.map serialKey).Perm (serialKey serial :: serialList.map serialKey)

/-- The message has the device in addition to those of the list, under a new name. -/
structure AddsDevice (devList msg : List DevInfo) (dev : DevInfo) : Prop where
  fresh : dev.devName ∉ devList.map DevInfo.devName
  perm : (msg.map deviceKey).Perm (deviceKey dev :: devList.map deviceKey)

/-- The protocol object of the device refers to the port under `key`. -/
def Bound (s : TaskLists δ) (name key : String) : Prop :=
  ∃ m serial, s.protocolInfoMap.lookup name = some m ∧
    s.serialInfoMap.lookup key = some serial ∧ serial.ident = m.serial

/-- The lists, the ports and the bindings are the same. Identities of objects may differ. -/
structure SameConfiguration (s s' : TaskLists δ) : Prop where
  devList : s.devList = s'.devList
  serialList : s.serialList = s'.serialList
  keys : ∀ key, key ∈ s.serialInfoMap ↔ key ∈ s'.serialInfoMap
  bound : ∀ name key, s.Bound name key ↔ s'.Bound name key

/-- Every identity in use has been handed out, and the merge comes after the first lists. -/
structure Created (s : TaskLists δ) : Prop where
  idents : s.Idents
  serial_lt : ∀ name m, s.protocolInfoMap.lookup name = some m → m.serial < s.nextIdent
  merged : s.isMergeDevAndSerial = false → s.isLoadDevList = false ∧ s.isLoadSerialList = false

variable {env : Environment δ} {s s' : TaskLists δ} {serials : List SerialIdInfo}
  {devs : List DevInfo} {serial : SerialIdInfo} {dev : DevInfo}

/-! ## What has been created -/

/-- Adding a serial does not make the loading due again. -/
@[simp] theorem addSerial_isMergeDevAndSerial (env : Environment δ) (s : TaskLists δ)
    (serial : SerialIdInfo) :
    (addSerial env s serial).isMergeDevAndSerial = s.isMergeDevAndSerial := by
  rw [addSerial]; split_ifs <;> rfl

/-- Binding a device does not make it due either. -/
@[simp] theorem bindDevice_isMergeDevAndSerial (env : Environment δ) (s : TaskLists δ)
    (dev : DevInfo) :
    (bindDevice env s dev).isMergeDevAndSerial = s.isMergeDevAndSerial := by
  rw [bindDevice]; split <;> [split_ifs <;> rfl; rfl]

/-- A new protocol object refers to a port that has been created. -/
theorem Created.serial_lt_bindDevice (h : s.Created) (dev : DevInfo) (name : String)
    (m : Modbus δ) (hm : (bindDevice env s dev).protocolInfoMap.lookup name = some m) :
    m.serial < s.nextIdent := by
  rw [lookup_bindDevice] at hm
  split_ifs at hm with hnew
  · -- the new object has the number of a port in the map
    obtain ⟨p, hp, rfl⟩ := Option.map_eq_some_iff.mp hm
    exact h.idents.lt _ p hp
  · exact h.serial_lt name m hm

/-- `loadAllList` only adds to what has been created. -/
theorem nextIdent_le_loadAllList (env : Environment δ) (s : TaskLists δ) :
    s.nextIdent ≤ (loadAllList env s).nextIdent := by
  have hle : ∀ (serials : List SerialIdInfo) (t : TaskLists δ),
      t.nextIdent ≤ (serials.foldl (addSerial env) t).nextIdent := by
    intro serials
    induction serials with
    | nil => exact fun t => le_rfl
    | cons serial serials ih =>
        exact fun t => (nextIdent_le_addSerial serial).trans (ih (addSerial env t serial))
  rw [loadAllList]
  simp only [foldl_frame (bindDevice_nextIdent env)]
  exact hle s.serialList s

/-- Every message keeps the objects that were created. -/
theorem Created.step {e : ListEvent} (h : s.Created) (hs : step env s e = some s') :
    s'.Created := by
  have hidents := h.idents.step hs
  cases e with
  | devices msg =>
      rcases onDevList_cases hs with ⟨-, rfl⟩ | ⟨hload, -, dev, -, rfl⟩ | ⟨hload, -, rfl⟩
      · exact ⟨hidents, h.serial_lt, fun hmerged => ⟨rfl, (h.merged hmerged).2⟩⟩
      · refine ⟨hidents, fun name m hm => ?_, by simpa using h.merged⟩
        simpa using h.serial_lt_bindDevice dev name m hm
      · exact ⟨hidents, h.serial_lt, h.merged⟩
  | serials msg =>
      rcases onSerialList_cases hs with ⟨-, rfl⟩ | ⟨hload, -, serial, -, rfl⟩ | ⟨hload, -, rfl⟩
      · exact ⟨hidents, h.serial_lt, fun hmerged => ⟨(h.merged hmerged).1, rfl⟩⟩
      · refine ⟨hidents, fun name m hm => ?_, by simpa using h.merged⟩
        refine Nat.lt_of_lt_of_le (h.serial_lt name m ?_) (nextIdent_le_addSerial serial)
        simpa using hm
      · exact ⟨hidents, h.serial_lt, h.merged⟩
  | work =>
      obtain rfl := Option.some.inj hs
      rw [work] at hidents ⊢
      split_ifs at hidents ⊢ with hflags
      · refine ⟨hidents, fun name m hm => ?_, fun _ => ?_⟩
        · rcases lookup_loadAllList env s name with ⟨hlookup, -⟩ | ⟨_, -, -, -, p, hp, hlookup⟩
          · exact Nat.lt_of_lt_of_le (h.serial_lt name m (hlookup ▸ hm))
              (nextIdent_le_loadAllList env s)
          · obtain rfl := Option.some.inj (hlookup.symm.trans hm)
            exact hidents.lt _ p hp
        · rw [loadAllList]
          simp only [foldl_frame (bindDevice_isLoadDevList env),
            foldl_frame (addSerial_isLoadDevList env),
            foldl_frame (bindDevice_isLoadSerialList env),
            foldl_frame (addSerial_isLoadSerialList env)]
          exact ⟨hflags.1, hflags.2.1⟩
      · exact h

/-- In every reachable state, what the maps refer to has been created. -/
theorem created_of_reachable (h : Reachable (step env) (· = init) s) : s.Created := by
  refine h.invariant (fun s₀ h₀ => ?_) fun _ _ _ hs hstep => hs.step hstep
  subst h₀
  exact ⟨liveInv_init.idents, fun name m hm => by simp [init] at hm,
    fun hmerged => by cases hmerged⟩

/-! ## The two orders -/

/-- After a message that adds a serial. -/
def withPort (env : Environment δ) (serials : List SerialIdInfo) (port : SerialIdInfo)
    (s : TaskLists δ) : TaskLists δ :=
  { addSerial env s port with serialList := serials }

/-- After a message that adds a device. -/
def withDevice (env : Environment δ) (devs : List DevInfo) (device : DevInfo) (s : TaskLists δ) :
    TaskLists δ :=
  { bindDevice env s device with devList := devs }

section Frames

variable {port : SerialIdInfo} {device : DevInfo}

/-- The port leaves the device list. -/
@[simp] theorem withPort_devList : (withPort env serials port s).devList = s.devList :=
  addSerial_devList env s port

/-- The port leaves the flag of the device list. -/
@[simp] theorem withPort_isLoadDevList :
    (withPort env serials port s).isLoadDevList = s.isLoadDevList :=
  addSerial_isLoadDevList env s port

/-- The port leaves the protocol objects. -/
@[simp] theorem withPort_protocolInfoMap :
    (withPort env serials port s).protocolInfoMap = s.protocolInfoMap :=
  addSerial_protocolInfoMap env s port

/-- The port is in the map under its name. -/
theorem lookup_withPort (hport : isRS485 port) (key : String) :
    (withPort env serials port s).serialInfoMap.lookup key =
      if key = port.name then some ⟨s.nextIdent, openedInfo env port⟩
      else s.serialInfoMap.lookup key := by
  have hlookup : (addSerial env s port).serialInfoMap.lookup key = _ := lookup_addSerial port key
  simp only [hport, true_and] at hlookup
  exact hlookup

/-- The device leaves the serial list. -/
@[simp] theorem withDevice_serialList :
    (withDevice env devs device s).serialList = s.serialList :=
  bindDevice_serialList env s device

/-- The device leaves the flag of the serial list. -/
@[simp] theorem withDevice_isLoadSerialList :
    (withDevice env devs device s).isLoadSerialList = s.isLoadSerialList :=
  bindDevice_isLoadSerialList env s device

/-- The device leaves the ports. -/
@[simp] theorem withDevice_serialInfoMap :
    (withDevice env devs device s).serialInfoMap = s.serialInfoMap :=
  bindDevice_serialInfoMap env s device

/-- The device creates no port. -/
@[simp] theorem withDevice_nextIdent : (withDevice env devs device s).nextIdent = s.nextIdent :=
  bindDevice_nextIdent env s device

/-- A device whose port is there gets an object on it. -/
theorem lookup_withDevice (hprotocol : device.protocol = "modbus") (name : String) :
    (withDevice env devs device s).protocolInfoMap.lookup name =
      if name = device.devName ∧ device.serialInfo.name ∈ s.serialInfoMap then
        (s.serialInfoMap.lookup device.serialInfo.name).map fun serial =>
          Modbus.new env.pointTable serial.ident
      else s.protocolInfoMap.lookup name := by
  have hlookup : (bindDevice env s device).protocolInfoMap.lookup name = _ :=
    lookup_bindDevice device name
  simp only [hprotocol, true_and] at hlookup
  exact hlookup

/-- A message that adds a serial does just that. -/
theorem onSerialList_new (hload : s.isLoadSerialList = false)
    (hadd : AddsSerial s.serialList serials serial)
    (hnew : newSerial s.serialList serials = some port) :
    onSerialList env s serials = some (withPort env serials port s) := by
  have hlength := hadd.perm.length_eq
  simp only [List.length_map, List.length_cons] at hlength
  rw [onSerialList, if_pos hload, if_pos (by omega), hnew]
  rfl

/-- A message that adds a device does just that. -/
theorem onDevList_new (hload : s.isLoadDevList = false) (hadd : AddsDevice s.devList devs dev)
    (hnew : newDevice s.devList devs = some device) :
    onDevList env s devs = some (withDevice env devs device s) := by
  have hlength := hadd.perm.length_eq
  simp only [List.length_map, List.length_cons] at hlength
  rw [onDevList, if_pos hload, if_pos (by omega), hnew]
  rfl

end Frames

/-- The ports are the same in both orders. -/
theorem lookup_ports {port : SerialIdInfo} {device : DevInfo} (hport : isRS485 port)
    (key : String) :
    (withDevice env devs device (withPort env serials port s)).serialInfoMap.lookup key =
      (withPort env serials port (withDevice env devs device s)).serialInfoMap.lookup key := by
  rw [withDevice_serialInfoMap, lookup_withPort hport, lookup_withPort hport, withDevice_nextIdent,
    withDevice_serialInfoMap]

/-- If the port comes first, the device is bound to it. -/
theorem bound_portFirst {port : SerialIdInfo} {device : DevInfo} (hport : isRS485 port)
    (hprotocol : device.protocol = "modbus") (hname : device.serialInfo.name = port.name) :
    (withDevice env devs device (withPort env serials port s)).Bound device.devName port.name := by
  have hlookup : (withPort env serials port s).serialInfoMap.lookup port.name =
      some ⟨s.nextIdent, openedInfo env port⟩ := by rw [lookup_withPort hport, if_pos rfl]
  have hmem : port.name ∈ (withPort env serials port s).serialInfoMap := by
    rw [← AList.lookup_isSome, hlookup]
    rfl
  refine ⟨Modbus.new env.pointTable s.nextIdent, ⟨s.nextIdent, openedInfo env port⟩, ?_, ?_, rfl⟩
  · rw [lookup_withDevice hprotocol, hname, if_pos ⟨rfl, hmem⟩, hlookup]
    rfl
  · rw [withDevice_serialInfoMap, hlookup]

/-- If the device comes first, no object refers to the new port. -/
theorem not_bound_deviceFirst (h : s.Created) {port : SerialIdInfo} {device : DevInfo}
    (hport : isRS485 port) (name : String) :
    ¬ (withPort env serials port (withDevice env devs device s)).Bound name port.name := by
  rintro ⟨m, serial, hm, hserial, hident⟩
  rw [withPort_protocolInfoMap] at hm
  -- every object there is older than the port that comes now
  have hlt := h.serial_lt_bindDevice device name m hm
  rw [lookup_withPort hport, if_pos rfl, withDevice_nextIdent] at hserial
  obtain rfl := Option.some.inj hserial
  exact absurd hident.symm (Nat.ne_of_lt hlt)

/-- In both orders the lists are the messages and the ports are the same, and so are the bindings of
the other devices. The new device is bound to its port if the port comes first, and only then. -/
theorem bound_of_order (h : s.Created) (hmerged : s.isMergeDevAndSerial = false)
    (hserial : AddsSerial s.serialList serials serial) (hport : isRS485 serial)
    (hdev : AddsDevice s.devList devs dev) (hprotocol : dev.protocol = "modbus")
    (hname : dev.serialInfo.name = serial.name) :
    ∃ s₁ s₂, run (step env) s [.serials serials, .devices devs] = some s₁ ∧
      run (step env) s [.devices devs, .serials serials] = some s₂ ∧
      s₁.devList = s₂.devList ∧ s₁.serialList = s₂.serialList ∧
      (∀ key, key ∈ s₁.serialInfoMap ↔ key ∈ s₂.serialInfoMap) ∧
      (∀ name ≠ dev.devName, ∀ key, s₁.Bound name key ↔ s₂.Bound name key) ∧
      s₁.Bound dev.devName serial.name ∧ ¬ s₂.Bound dev.devName serial.name := by
  obtain ⟨hloadDev, hloadSerial⟩ := h.merged hmerged
  obtain ⟨port, hnewPort, hportKey⟩ := exists_newSerial hserial.fresh hserial.perm
  obtain ⟨device, hnewDevice, hdeviceKey⟩ : ∃ found, newDevice s.devList devs = some found ∧
      deviceKey found = deviceKey dev :=
    find?_added Prod.fst (fun _ => rfl) hdev.fresh hdev.perm
  obtain ⟨hportName, hdriver⟩ := Prod.mk.inj hportKey
  obtain ⟨hdeviceName, hkey⟩ := Prod.mk.inj hdeviceKey
  obtain ⟨hdeviceProtocol, hdevicePort⟩ := Prod.mk.inj hkey
  have hrs485 : isRS485 port := by rwa [isRS485, hdriver]
  have hmodbus : device.protocol = "modbus" := hdeviceProtocol.trans hprotocol
  rw [← hdeviceName, ← hportName]
  refine ⟨withDevice env devs device (withPort env serials port s),
    withPort env serials port (withDevice env devs device s), ?_, ?_, ?_, ?_, fun key => ?_,
    fun name hne key => ?_, ?_, not_bound_deviceFirst h hrs485 _⟩
  · -- the serial and then the device
    rw [run_cons, step, onSerialList_new hloadSerial hserial hnewPort, Option.bind_some, run_cons,
      step, onDevList_new (s := withPort env serials port s) (by simpa using hloadDev)
        (by simpa using hdev) (by simpa using hnewDevice)]
    rfl
  · -- the other way round
    rw [run_cons, step, onDevList_new hloadDev hdev hnewDevice, Option.bind_some, run_cons, step,
      onSerialList_new (s := withDevice env devs device s) (by simpa using hloadSerial)
        (by simpa using hserial) (by simpa using hnewPort)]
    rfl
  · rw [withPort_devList]
    rfl
  · rw [withDevice_serialList]
    rfl
  · rw [← AList.lookup_isSome, ← AList.lookup_isSome, lookup_ports hrs485]
  · simp only [Bound, lookup_ports hrs485, withPort_protocolInfoMap, lookup_withDevice hmodbus, hne,
      false_and, if_false]
  · exact bound_portFirst hrs485 hmodbus (by rw [hdevicePort, hname, hportName])

/-- From every state after `loadAllList`, a new serial and a new device on it lead to the same
lists, ports and other bindings in both orders, and never to the same configuration. -/
theorem order_matters (hs : Reachable (step env) (· = init) s)
    (hmerged : s.isMergeDevAndSerial = false) (hserial : AddsSerial s.serialList serials serial)
    (hport : isRS485 serial) (hdev : AddsDevice s.devList devs dev)
    (hprotocol : dev.protocol = "modbus") (hname : dev.serialInfo.name = serial.name) :
    ∃ s₁ s₂, run (step env) s [.serials serials, .devices devs] = some s₁ ∧
      run (step env) s [.devices devs, .serials serials] = some s₂ ∧
      s₁.devList = s₂.devList ∧ s₁.serialList = s₂.serialList ∧
      (∀ key, key ∈ s₁.serialInfoMap ↔ key ∈ s₂.serialInfoMap) ∧
      (∀ name ≠ dev.devName, ∀ key, s₁.Bound name key ↔ s₂.Bound name key) ∧
      ¬ SameConfiguration s₁ s₂ := by
  obtain ⟨s₁, s₂, hrun₁, hrun₂, hdevList, hserialList, hkeys, hothers, hbound, hunbound⟩ :=
    bound_of_order (created_of_reachable hs) hmerged hserial hport hdev hprotocol hname
  refine ⟨s₁, s₂, hrun₁, hrun₂, hdevList, hserialList, hkeys, hothers, fun hsame => ?_⟩
  exact hunbound ((hsame.bound _ _).mp hbound)

/-- An RS-485 port with a name of its own. -/
private def meterPort : SerialIdInfo :=
  { serialId := 0, statu := 0, serialName := "RS485-1", name := "meter", id := ""
    serialParamInfo := ⟨9600, 8, "1", "N", 0, 0⟩ }

/-- A device on it. -/
private def meterDevice : DevInfo :=
  { id := "", devName := "meter 1", serialInfo := meterPort, protocol := "modbus", addr := 1
    category := "", model := "", sn := "", deviceStatus := 0 }

/-- Nothing is configured yet. -/
private theorem reachable_empty (env : Environment Decimal) :
    Reachable (step env) (· = init) (loaded env [] []) :=
  ⟨init, [.serials [], .devices [], .work], rfl, rfl⟩

/-- The list with it adds it. -/
private theorem addsSerial_empty (env : Environment Decimal) :
    AddsSerial (loaded env [] []).serialList [meterPort] meterPort :=
  ⟨List.not_mem_nil, .refl _⟩

/-- The list with the device adds the device. -/
private theorem addsDevice_empty (env : Environment Decimal) :
    AddsDevice (loaded env [] []).devList [meterDevice] meterDevice :=
  ⟨List.not_mem_nil, .refl _⟩

/-- Whichever message comes first, the other one follows. -/
theorem order_matters_empty :
    let env : Environment Decimal := ⟨fun _ => 3, []⟩
    ∃ s₁ s₂, run (step env) (loaded env [] []) [.serials [meterPort], .devices [meterDevice]] =
        some s₁ ∧
      run (step env) (loaded env [] []) [.devices [meterDevice], .serials [meterPort]] = some s₂ ∧
      s₁.devList = s₂.devList ∧ s₁.serialList = s₂.serialList ∧
      (∀ key, key ∈ s₁.serialInfoMap ↔ key ∈ s₂.serialInfoMap) ∧
      (∀ name ≠ "meter 1", ∀ key, s₁.Bound name key ↔ s₂.Bound name key) ∧
      ¬ SameConfiguration s₁ s₂ :=
  order_matters (reachable_empty _) rfl (addsSerial_empty _) (by decide) (addsDevice_empty _) rfl
    rfl

/-- In the empty configuration the device is announced before its port, and no object is created for
it. -/
theorem not_order_independent :
    ¬ ∀ (env : Environment Decimal) (s s₁ s₂ : TaskLists Decimal) (serials : List SerialIdInfo)
        (devs : List DevInfo) (serial : SerialIdInfo) (dev : DevInfo),
      Reachable (step env) (· = init) s → s.isMergeDevAndSerial = false →
      AddsSerial s.serialList serials serial → isRS485 serial → AddsDevice s.devList devs dev →
      dev.protocol = "modbus" → dev.serialInfo.name = serial.name →
      run (step env) s [.serials serials, .devices devs] = some s₁ →
      run (step env) s [.devices devs, .serials serials] = some s₂ → SameConfiguration s₁ s₂ := by
  intro h
  have hsame := h ⟨fun _ => 3, []⟩ _ _ _ _ _ _ _ (reachable_empty _) rfl
    (addsSerial_empty _) (by decide) (addsDevice_empty _) rfl rfl rfl rfl
  obtain ⟨m, -, hm, -⟩ :=
    (hsame.bound "meter 1" "meter").mp ⟨_, _, rfl, rfl, rfl⟩
  cases hm

end TaskLists

end CsiFirmware.Task
