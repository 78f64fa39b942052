import CsiFirmware.Task.Lists

/-!
# The protocols follow the device list

`loadAllList` builds the protocol map from scratch: one entry for each Modbus device whose port
exists, bound to that port (`bindingOf`). The callback on `Setting/DevList` updates the map instead.
It chooses a branch by the lengths of the lists, adds the first new device, and compares names only.
A removal is survived only if no protocol has to go.
`deviceSynced_iff` says for which messages the result is the one a rebuild would give.
-/

namespace CsiFirmware.Task

open Protocol Runs

variable {δ : Type}

namespace TaskLists

/-- The port object that a rebuild binds the device to. -/
def bindingOf (ports : StringMap Serial485) (devs : List DevInfo) (name : String) : Option ℕ :=
  (devs.find? fun dev => dev.devName = name).bind fun dev =>
    if dev.protocol = "modbus" then (ports.lookup dev.serialInfo.name).map Serial485.ident else none

/-- The protocol map is the one a rebuild from the message would give. -/
def DeviceSynced (_ : TaskLists δ) (msg : List DevInfo) (s' : TaskLists δ) : Prop :=
  ∀ name, (s'.protocolInfoMap.lookup name).map Modbus.serial = bindingOf s'.serialInfoMap msg name

/-- The message leaves the binding of every device name as it was, except that a message with more
devices may bind its first new device. -/
def KeepsBindings (s : TaskLists δ) (msg : List DevInfo) : Prop :=
  ∀ name, (s.devList.length < msg.length → ∀ dev ∈ newDevice s.devList msg, dev.devName ≠ name) →
    bindingOf s.serialInfoMap msg name = bindingOf s.serialInfoMap s.devList name

/-- The protocol map agrees with the list. -/
structure DeviceInv (s : TaskLists δ) : Prop where
  isLoadDevList : s.isLoadDevList = false
  lookup_eq : ∀ name,
    (s.protocolInfoMap.lookup name).map Modbus.serial = bindingOf s.serialInfoMap s.devList name

variable {env : Environment δ} {s s' : TaskLists δ} {msg : List DevInfo}

/-! ## Bindings -/

/-- A device that is not in the list has no binding. -/
theorem bindingOf_eq_none {ports : StringMap Serial485} {devs : List DevInfo} {name : String}
    (h : name ∉ devs.map DevInfo.devName) : bindingOf ports devs name = none := by
  have hfind : (devs.find? fun dev => dev.devName = name) = none := by
    rw [List.find?_eq_none]
    intro dev hdev hname
    exact h (List.mem_map.mpr ⟨dev, hdev, of_decide_eq_true hname⟩)
  rw [bindingOf, hfind, Option.bind_none]

/-- The first new device is the first of its name. -/
theorem find?_newDevice {devList : List DevInfo} {dev : DevInfo}
    (h : newDevice devList msg = some dev) :
    (msg.find? fun dev' => dev'.devName = dev.devName) = some dev := by
  obtain ⟨hnew, before, after, rfl, hbefore⟩ := List.find?_eq_some_iff_append.mp h
  refine List.find?_eq_some_iff_append.mpr ⟨decide_eq_true rfl, before, after, rfl, ?_⟩
  intro dev' hdev'
  have hold := hbefore dev' hdev'
  simp only [Bool.not_eq_eq_eq_not, Bool.not_true, decide_eq_false_iff_not, not_not,
    decide_eq_true_eq] at hold hnew ⊢
  rintro hname
  exact hnew (hname ▸ hold)

/-- The map after a device is bound, if the map agreed with the list and the device is new. -/
theorem lookup_bindDevice_newDevice (h : s.DeviceInv) {dev : DevInfo}
    (hnew : newDevice s.devList msg = some dev) (name : String) :
    ((bindDevice env s dev).protocolInfoMap.lookup name).map Modbus.serial =
      if name = dev.devName then bindingOf s.serialInfoMap msg name
      else bindingOf s.serialInfoMap s.devList name := by
  rw [lookup_bindDevice]
  by_cases hname : name = dev.devName
  · subst hname
    have hfresh := of_find?_eq_some hnew
    rw [if_pos rfl, bindingOf, find?_newDevice hnew, Option.bind_some]
    by_cases hprotocol : dev.protocol = "modbus"
    · rw [if_pos hprotocol]
      split_ifs with hbound
      · rw [Option.map_map]
        rfl
      · have hport : dev.serialInfo.name ∉ s.serialInfoMap :=
          fun hport => hbound ⟨rfl, hprotocol, hport⟩
        rw [h.lookup_eq, bindingOf_eq_none hfresh, AList.lookup_eq_none.mpr hport, Option.map_none]
    · rw [if_neg hprotocol, if_neg fun hbound => hprotocol hbound.2.1, h.lookup_eq,
        bindingOf_eq_none hfresh]
  · -- the other devices are as they were
    rw [if_neg hname, if_neg fun hbound => hname hbound.1, h.lookup_eq]

/-! ## One message -/

/-- A device with a binding is in the list. -/
theorem mem_map_devName_of_bindingOf {ports : StringMap Serial485} {devs : List DevInfo}
    {name : String} (h : bindingOf ports devs name ≠ none) : name ∈ devs.map DevInfo.devName :=
  not_not.mp fun hnot => h (bindingOf_eq_none hnot)

/-- A device is bound exactly if it has a protocol. -/
theorem DeviceInv.mem_iff (h : s.DeviceInv) (name : String) :
    name ∈ s.protocolInfoMap ↔ bindingOf s.serialInfoMap s.devList name ≠ none := by
  rw [← h.lookup_eq, ne_eq, Option.map_eq_none_iff, AList.lookup_eq_none, not_not]

/-- A removal comes out right if and only if no binding changes. -/
theorem onDevList_removes (h : s.DeviceInv) (hshorter : msg.length < s.devList.length) :
    KeepsBindings s msg ↔ ∃ s', onDevList env s msg = some s' ∧ DeviceSynced s msg s' := by
  have hlonger : ¬ s.devList.length < msg.length := by omega
  simp only [onDevList_shorter h.isLoadDevList hshorter, KeepsBindings, hlonger, false_imp_iff,
    true_imp_iff]
  constructor
  · intro hsame
    refine ⟨_, ⟨rfl, fun name hname => ?_⟩, fun name => ?_⟩
    · -- nothing is dropped, so every bound device is still in the message
      have hbound : bindingOf s.serialInfoMap msg name ≠ none := by
        rw [hsame name]
        exact (h.mem_iff name).mp hname
      exact mem_map_devName_of_bindingOf hbound
    · exact (h.lookup_eq name).trans (hsame name).symm
  · rintro ⟨_, ⟨rfl, -⟩, hsynced⟩ name
    exact (hsynced name).symm.trans (h.lookup_eq name)

/-- One message keeps list and map together if and only if it keeps the bindings. -/
theorem onDevList_synced_iff (h : s.DeviceInv) :
    KeepsBindings s msg ↔ ∃ s', onDevList env s msg = some s' ∧ DeviceSynced s msg s' := by
  by_cases hshorter : msg.length < s.devList.length
  · exact onDevList_removes h hshorter
  rw [onDevList, if_pos h.isLoadDevList]
  by_cases hlonger : s.devList.length < msg.length
  · rw [if_pos hlonger]
    cases hnew : newDevice s.devList msg with
    | none =>
        simp only [KeepsBindings, hnew, hlonger, Option.not_mem_none, false_imp_iff, implies_true,
          true_imp_iff, Option.some.injEq, exists_eq_left', DeviceSynced, h.lookup_eq]
        simp only [eq_comm]
    | some dev =>
        simp only [KeepsBindings, hnew, hlonger, Option.mem_some_iff, forall_eq', true_imp_iff,
          Option.some.injEq, exists_eq_left', DeviceSynced,
          bindDevice_serialInfoMap, lookup_bindDevice_newDevice h hnew]
        refine forall_congr' fun name => ?_
        by_cases hname : name = dev.devName
        · simp [hname]
        · simp only [if_neg hname, Ne.symm hname, ne_eq, not_false_eq_true, true_imp_iff, eq_comm]
  · -- a message of the same length changes nothing
    rw [if_neg hlonger, if_neg hshorter]
    simp only [KeepsBindings, hlonger, false_imp_iff, true_imp_iff, Option.some.injEq,
      exists_eq_left', DeviceSynced, h.lookup_eq]
    simp only [eq_comm]

/-- The list after a message is the message. -/
theorem onDevList_devList (hs : onDevList env s msg = some s') :
    s'.devList = msg ∧ s'.isLoadDevList = false := by
  rcases onDevList_cases hs with
    ⟨-, rfl⟩ | ⟨hload, -, dev, -, rfl⟩ | ⟨hload, -, rfl⟩
  · exact ⟨rfl, rfl⟩
  · exact ⟨rfl, (bindDevice_isLoadDevList env s dev).trans hload⟩
  · exact ⟨rfl, hload⟩

/-! ## Whole runs -/

/-- `loadAllList` binds every device. -/
theorem deviceInv_loaded (env : Environment δ) {devList : List DevInfo}
    (hdistinct : (devList.map DevInfo.devName).Nodup) (serialList : List SerialIdInfo) :
    (loaded env devList serialList).DeviceInv := by
  refine ⟨?_, fun name => ?_⟩
  · rw [loaded, loadAllList]
    simp only [foldl_frame (bindDevice_isLoadDevList env),
      foldl_frame (addSerial_isLoadDevList env)]
  rw [loaded_devList, bindingOf]
  rcases lookup_loadAllList env { (init : TaskLists δ) with
      devList, serialList, isLoadDevList := false, isLoadSerialList := false } name with
    ⟨hlookup, hnone⟩ | ⟨dev, hdev, rfl, hprotocol, p, hp, hlookup⟩
  · have hempty : (loaded env devList serialList).protocolInfoMap.lookup name = none :=
      hlookup.trans (AList.lookup_empty name)
    rw [hempty, Option.map_none]
    cases hfind : devList.find? fun dev => dev.devName = name with
    | none => rfl
    | some dev =>
        rw [Option.bind_some]
        split_ifs with hprotocol
        · have hname := of_find?_eq_some hfind
          have hport : dev.serialInfo.name ∉ (loaded env devList serialList).serialInfoMap :=
            hnone dev (List.mem_of_find?_eq_some hfind) hname hprotocol
          rw [AList.lookup_eq_none.mpr hport, Option.map_none]
        · rfl
  · have hfind : (devList.find? fun dev' => dev'.devName = dev.devName) = some dev := by
      obtain ⟨dev', hfind⟩ : ∃ dev', devList.find? (fun dev' => dev'.devName = dev.devName) =
          some dev' := by
        rw [← Option.isSome_iff_exists, List.find?_isSome]
        exact ⟨dev, hdev, decide_eq_true rfl⟩
      -- the names are distinct, so that it is this device
      have hname := of_find?_eq_some hfind
      rw [hfind, List.inj_on_of_nodup_map hdistinct (List.mem_of_find?_eq_some hfind) hdev hname]
    have hport :
        (loaded env devList serialList).serialInfoMap.lookup dev.serialInfo.name = some p := hp
    have hbound : (loaded env devList serialList).protocolInfoMap.lookup dev.devName =
        some (Modbus.new env.pointTable p.ident) := hlookup
    rw [hbound, hfind, Option.bind_some, if_pos hprotocol, hport]
    rfl

/-- Along every sequence of messages the protocol map is the one a rebuild would give if and only if
every message keeps the bindings. -/
theorem deviceSynced_iff (env : Environment δ) {devList : List DevInfo}
    (hdistinct : (devList.map DevInfo.devName).Nodup) (serialList : List SerialIdInfo)
    (msgs : List (List DevInfo)) :
    Always (onDevList env) DeviceSynced (loaded env devList serialList) msgs ↔
      StepsMeet (onDevList env) KeepsBindings (loaded env devList serialList) msgs := by
  refine always_iff_stepsMeet (D := fun _ _ => True) (fun _ _ hs _ => onDevList_synced_iff hs) ?_
    (deviceInv_loaded env hdistinct serialList) (stepsMeet_trivial _ _)
  intro s msg s' _ _ hstep hsynced
  obtain ⟨hlist, hload⟩ := onDevList_devList hstep
  exact ⟨hload, by rw [hlist]; exact hsynced⟩

/-- An RS-485 port. -/
private def port : SerialIdInfo :=
  { serialId := 0, statu := 0, serialName := "RS485-1", name := "RS485-1", id := ""
    serialParamInfo := ⟨9600, 8, "1", "N", 0, 0⟩ }

/-- A device on it. -/
private def inverter (devName : String) : DevInfo :=
  { id := "", devName, serialInfo := port, protocol := "modbus", addr := 1, category := ""
    model := "", sn := "", deviceStatus := 0 }

/-- Devices on the same port are added one at a time. -/
theorem deviceSynced_of_adds :
    let env : Environment Decimal := ⟨fun _ => 3, []⟩
    Always (onDevList env) DeviceSynced (loaded env [inverter "a"] [port])
      [[inverter "a", inverter "b"], [inverter "a", inverter "b", inverter "c"]] := by
  intro env
  refine (deviceSynced_iff env (by decide) [port]
    [[inverter "a", inverter "b"], [inverter "a", inverter "b", inverter "c"]]).mpr
      ⟨fun name hname => ?_, ?_⟩
  · have hother : (inverter "b").devName ≠ name := hname (by decide) (inverter "b") (by decide)
    have hlist : (loaded env [inverter "a"] [port]).devList = [inverter "a"] := by decide
    rw [hlist]
    simp only [bindingOf, List.find?_cons, List.find?_nil, hother, decide_false]
  · rintro _ ⟨⟩
    refine ⟨fun name hname => ?_, fun _ _ => trivial⟩
    have hother : (inverter "c").devName ≠ name := hname (by decide) (inverter "c") (by decide)
    simp only [bindingOf, List.find?_cons, List.find?_nil, hother, decide_false]

/-- The only device is renamed. The lists have the same length, so the map keeps the old name. -/
theorem not_deviceSynced :
    ¬ ∀ (env : Environment Decimal) (devList : List DevInfo) (serialList : List SerialIdInfo)
        (msgs : List (List DevInfo)), (devList.map DevInfo.devName).Nodup →
      (∀ msg ∈ msgs, (msg.map DevInfo.devName).Nodup) →
        Always (onDevList env) DeviceSynced (loaded env devList serialList) msgs := by
  intro h
  obtain ⟨_, ⟨⟩, hsynced, -⟩ :=
    h ⟨fun _ => 3, []⟩ [inverter "a"] [port] [[inverter "b"]] (by decide) (by decide)
  exact absurd (hsynced "a") (by decide)

end TaskLists

end CsiFirmware.Task
