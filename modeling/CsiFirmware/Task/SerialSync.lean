import CsiFirmware.Task.Lists

/-!
# The ports follow the serial list

After every message the port map should hold one port for each RS-485 serial of the message, under
its name, and a serial that stays should keep its port object. Additions do that. A removal compares
map keys, which are names, with the driver names of the message, and is not survived if a key has no
match. `serialSynced_iff` says which removals come out right all the same: those that take no RS-485
port away and leave ports that are called like drivers.
-/

namespace CsiFirmware.Task

open Runs

variable {δ : Type}

namespace TaskLists

/-- What a serial is identified by in the list and in the map. -/
def serialKey (serial : SerialIdInfo) : String × String := (serial.name, serial.serialName)

/-- The message has one serial more than the list, under a new name. -/
def AddsOne (serialList msg : List SerialIdInfo) : Prop :=
  ∃ serial, serial.name ∉ serialList.map SerialIdInfo.name ∧
    (msg.map serialKey).Perm (serialKey serial :: serialList.map serialKey)

/-- The message has some of the serials of the list. -/
def Removes (serialList msg : List SerialIdInfo) : Prop :=
  (msg.map serialKey).Subperm (serialList.map serialKey)

/-- What the Setting service sends: one addition, or any number of removals. -/
def SingleEdit (s : TaskLists δ) (msg : List SerialIdInfo) : Prop :=
  AddsOne s.serialList msg ∨ Removes s.serialList msg

/-- The map agrees with the message, and a serial that stays keeps its port. -/
def SerialSynced (s : TaskLists δ) (msg : List SerialIdInfo) (s' : TaskLists δ) : Prop :=
  (∀ key, key ∈ s'.serialInfoMap ↔ key ∈ portNames msg) ∧
    ∀ key ∈ s.serialList.map SerialIdInfo.name, key ∈ msg.map SerialIdInfo.name →
      s'.serialInfoMap.lookup key = s.serialInfoMap.lookup key

/-- In a message with fewer serials, every RS-485 serial of the list stays, and its name is a driver
name of the message. -/
def KeepsPorts (s : TaskLists δ) (msg : List SerialIdInfo) : Prop :=
  msg.length < s.serialList.length → ∀ key ∈ portNames s.serialList,
    key ∈ msg.map SerialIdInfo.serialName ∧ key ∈ portNames msg

instance (s : TaskLists δ) (msg : List SerialIdInfo) : Decidable (KeepsPorts s msg) :=
  inferInstanceAs (Decidable (_ → ∀ _ ∈ _, _))

/-- The map agrees with the list, in which every name occurs once. -/
structure SerialInv (s : TaskLists δ) : Prop where
  isLoadSerialList : s.isLoadSerialList = false
  distinct : (s.serialList.map SerialIdInfo.name).Nodup
  mem_iff : ∀ key, key ∈ s.serialInfoMap ↔ key ∈ portNames s.serialList

/-- The ports of a list depend only on the names and drivers in it. -/
theorem mem_portNames_iff_serialKey {serials : List SerialIdInfo} {key : String} :
    key ∈ portNames serials ↔
      ∃ p ∈ serials.map serialKey, p.2 ∈ rs485Names ∧ p.1 = key := by
  rw [mem_portNames]
  constructor
  · rintro ⟨serial, hmem, hport, hname⟩
    exact ⟨serialKey serial, List.mem_map_of_mem hmem, hport, hname⟩
  · rintro ⟨p, hp, hport, hname⟩
    obtain ⟨serial, hmem, rfl⟩ := List.mem_map.mp hp
    exact ⟨serial, hmem, hport, hname⟩

variable {env : Environment δ} {s s' : TaskLists δ} {msg : List SerialIdInfo}

/-- The serial that is found is the one that was added. -/
theorem exists_newSerial {serialList : List SerialIdInfo} {serial : SerialIdInfo}
    (hfresh : serial.name ∉ serialList.map SerialIdInfo.name)
    (hperm : (msg.map serialKey).Perm (serialKey serial :: serialList.map serialKey)) :
    ∃ found, newSerial serialList msg = some found ∧ serialKey found = serialKey serial :=
  find?_added Prod.fst (fun _ => rfl) hfresh hperm

/-- An addition is found, and adds its port. -/
theorem onSerialList_addsOne (h : s.SerialInv) (hadd : AddsOne s.serialList msg) :
    ∃ s', onSerialList env s msg = some s' ∧ SerialSynced s msg s' := by
  obtain ⟨serial, hfresh, hperm⟩ := hadd
  have hlength : s.serialList.length < msg.length := by
    have := hperm.length_eq
    simp only [List.length_map, List.length_cons] at this
    omega
  obtain ⟨found, hfound, hkey⟩ := exists_newSerial hfresh hperm
  have hname : found.name = serial.name := congrArg Prod.fst hkey
  refine ⟨_, by rw [onSerialList, if_pos h.isLoadSerialList, if_pos hlength, hfound], ?_, ?_⟩
  · intro key
    change key ∈ (addSerial env s found).serialInfoMap ↔ _
    rw [mem_addSerial, h.mem_iff, mem_portNames_iff_serialKey, mem_portNames_iff_serialKey]
    simp only [hperm.mem_iff, List.mem_cons, exists_eq_or_imp, ← hkey]
    simp only [serialKey, isRS485, eq_comm]
  · intro key hkey' _
    have hne : key ≠ found.name := by
      rintro rfl
      exact hfresh (hname ▸ hkey')
    change (addSerial env s found).serialInfoMap.lookup key = _
    rw [lookup_addSerial, if_neg fun hc => hne hc.2]

/-- The names are the first components. -/
theorem map_name_eq (serials : List SerialIdInfo) :
    serials.map SerialIdInfo.name = (serials.map serialKey).map Prod.fst := by
  rw [List.map_map]
  rfl

/-- An edit leaves the names distinct. -/
theorem SingleEdit.nodup (h : s.SingleEdit msg)
    (hdistinct : (s.serialList.map SerialIdInfo.name).Nodup) :
    (msg.map SerialIdInfo.name).Nodup := by
  rcases h with ⟨serial, hfresh, hperm⟩ | hremoves
  · have hnames := hperm.map Prod.fst
    rw [← map_name_eq, List.map_cons, ← map_name_eq] at hnames
    exact hnames.nodup_iff.mpr (List.nodup_cons.mpr ⟨hfresh, hdistinct⟩)
  · obtain ⟨kept, hperm, hsub⟩ := hremoves
    rw [map_name_eq] at hdistinct ⊢
    exact (hperm.map Prod.fst).nodup_iff.mp ((hsub.map Prod.fst).nodup hdistinct)

/-- A message that only removes keeps its ports among those of the list. -/
theorem Removes.portNames_subset {serialList : List SerialIdInfo} (h : Removes serialList msg)
    {key : String} (hkey : key ∈ portNames msg) : key ∈ portNames serialList := by
  rw [mem_portNames_iff_serialKey] at hkey ⊢
  obtain ⟨p, hp, hport, hname⟩ := hkey
  exact ⟨p, h.subset hp, hport, hname⟩

/-- A message of the same length has the same serials. -/
theorem onSerialList_sameLength (h : s.SerialInv) (hremoves : Removes s.serialList msg)
    (hlength : msg.length = s.serialList.length) :
    ∃ s', onSerialList env s msg = some s' ∧ SerialSynced s msg s' := by
  have hperm : (msg.map serialKey).Perm (s.serialList.map serialKey) :=
    hremoves.perm_of_length_le (by simp only [List.length_map]; omega)
  refine ⟨{ s with serialList := msg },
    by rw [onSerialList, if_pos h.isLoadSerialList, if_neg (by omega), if_neg (by omega)],
    fun key => ?_, fun key _ _ => rfl⟩
  rw [mem_portNames_iff_serialKey]
  simp only [hperm.mem_iff]
  rw [← mem_portNames_iff_serialKey]
  exact h.mem_iff key

/-- A removal comes out right if and only if it leaves the ports alone. -/
theorem onSerialList_removes (h : s.SerialInv) (hremoves : Removes s.serialList msg) :
    (∃ s', onSerialList env s msg = some s' ∧ SerialSynced s msg s') ↔ KeepsPorts s msg := by
  have hle : msg.length ≤ s.serialList.length := by
    have := hremoves.length_le
    simpa only [List.length_map] using this
  by_cases hlt : msg.length < s.serialList.length
  · simp only [onSerialList_shorter h.isLoadSerialList hlt]
    constructor
    · rintro ⟨_, ⟨rfl, hmatched⟩, hsynced, -⟩ _ key hkey
      have hmem : key ∈ s.serialInfoMap := (h.mem_iff key).mpr hkey
      exact ⟨hmatched key hmem, (hsynced key).mp hmem⟩
    · intro hkeeps
      refine ⟨_, ⟨rfl, fun key hkey => (hkeeps hlt key ((h.mem_iff key).mp hkey)).1⟩,
        fun key => ?_, fun key _ _ => rfl⟩
      -- the map is as before, so the ports of the list have to be those of the message
      change key ∈ s.serialInfoMap ↔ _
      rw [h.mem_iff]
      exact ⟨fun hkey => (hkeeps hlt key hkey).2, hremoves.portNames_subset⟩
  · exact iff_of_true (onSerialList_sameLength h hremoves (by omega)) fun hlt' => absurd hlt' hlt

/-- One message keeps list and map together if and only if it keeps the ports. -/
theorem onSerialList_synced_iff (h : s.SerialInv) (hedit : s.SingleEdit msg) :
    KeepsPorts s msg ↔ ∃ s', onSerialList env s msg = some s' ∧ SerialSynced s msg s' := by
  rcases hedit with hadd | hremoves
  · refine iff_of_true ?_ (onSerialList_addsOne h hadd)
    obtain ⟨serial, -, hperm⟩ := hadd
    have hlength := hperm.length_eq
    simp only [List.length_map, List.length_cons] at hlength
    intro hlt
    omega
  · exact (onSerialList_removes h hremoves).symm

/-- The list after a message is the message. -/
theorem onSerialList_serialList (hs : onSerialList env s msg = some s') :
    s'.serialList = msg ∧ s'.isLoadSerialList = false := by
  rcases onSerialList_cases hs with
    ⟨-, rfl⟩ | ⟨hload, -, serial, -, rfl⟩ | ⟨hload, -, rfl⟩
  · exact ⟨rfl, rfl⟩
  · exact ⟨rfl, (addSerial_isLoadSerialList env s serial).trans hload⟩
  · exact ⟨rfl, hload⟩

/-- A message that comes out right leads to the same situation. -/
theorem SerialInv.of_synced (h : s.SerialInv) (hedit : s.SingleEdit msg)
    (hs : onSerialList env s msg = some s') (hsynced : SerialSynced s msg s') : s'.SerialInv := by
  obtain ⟨hlist, hload⟩ := onSerialList_serialList hs
  refine ⟨hload, ?_, ?_⟩ <;> rw [hlist]
  · exact hedit.nodup h.distinct
  · exact hsynced.1

/-! ## Whole runs -/

/-- `loadAllList` creates a port for each RS-485 serial. -/
theorem serialInv_loaded (env : Environment δ) (devList : List DevInfo)
    {serialList : List SerialIdInfo} (hdistinct : (serialList.map SerialIdInfo.name).Nodup) :
    (loaded env devList serialList).SerialInv := by
  have hkeys : (loaded env devList serialList).serialList.map serialKey =
      serialList.map serialKey := by
    rw [loaded_serialList, List.map_map]
    refine List.map_congr_left fun serial _ => ?_
    simp only [Function.comp]
    split_ifs <;> rfl
  refine ⟨?_, ?_, fun key => ?_⟩
  · rw [loaded, loadAllList]
    simp only [foldl_frame (bindDevice_isLoadSerialList env),
      foldl_frame (addSerial_isLoadSerialList env)]
  · rw [map_name_eq, hkeys, ← map_name_eq]
    exact hdistinct
  · rw [mem_portNames_iff_serialKey, hkeys, ← mem_portNames_iff_serialKey, loaded,
      loadAllList_serialInfoMap, mem_foldl_addSerial]
    simp [init]

/-- Along every sequence of additions and removals the map follows the list if and only if every
removal keeps the ports. -/
theorem serialSynced_iff (env : Environment δ) (devList : List DevInfo)
    {serialList : List SerialIdInfo} (hdistinct : (serialList.map SerialIdInfo.name).Nodup)
    (msgs : List (List SerialIdInfo))
    (hedits : StepsMeet (onSerialList env) SingleEdit (loaded env devList serialList) msgs) :
    Always (onSerialList env) SerialSynced (loaded env devList serialList) msgs ↔
      StepsMeet (onSerialList env) KeepsPorts (loaded env devList serialList) msgs :=
  always_iff_stepsMeet (fun _ _ hs hedit => onSerialList_synced_iff hs hedit)
    (fun _ _ _ hs hedit hstep hsynced => hs.of_synced hedit hstep hsynced)
    (serialInv_loaded env devList hdistinct) hedits

/-- A serial of this driver. -/
private def serial (name serialName : String) : SerialIdInfo :=
  { serialId := 0, statu := 0, serialName, name, id := ""
    serialParamInfo := ⟨9600, 8, "1", "N", 0, 0⟩ }

/-- A second port is added and a serial on another driver removed; the ports are called like their
drivers. -/
theorem serialSynced_of_add_remove :
    let env : Environment Decimal := ⟨fun _ => 3, []⟩
    Always (onSerialList env) SerialSynced
      (loaded env [] [serial "RS485-1" "RS485-1", serial "meter" "USB"])
      [[serial "RS485-1" "RS485-1", serial "meter" "USB", serial "RS485-2" "RS485-2"],
        [serial "RS485-1" "RS485-1", serial "RS485-2" "RS485-2"]] :=
  (serialSynced_iff _ _ (by decide) _ (by
    refine ⟨Or.inl ⟨serial "RS485-2" "RS485-2", by decide, by decide⟩, ?_⟩
    rintro _ ⟨⟩
    refine ⟨Or.inr ?_, fun _ _ => trivial⟩
    exact List.Sublist.subperm (by decide))).mpr (by
    refine ⟨by decide, ?_⟩
    rintro _ ⟨⟩
    exact ⟨by decide, fun _ _ => trivial⟩)

/-- The port `USB` is removed, but a serial that stays has a driver of that name, so the loop keeps
the port. -/
theorem not_serialSynced :
    ¬ ∀ (env : Environment Decimal) (devList : List DevInfo) (serialList : List SerialIdInfo)
        (msgs : List (List SerialIdInfo)), (serialList.map SerialIdInfo.name).Nodup →
      StepsMeet (onSerialList env) SingleEdit (loaded env devList serialList) msgs →
        Always (onSerialList env) SerialSynced (loaded env devList serialList) msgs := by
  intro h
  obtain ⟨_, ⟨⟩, ⟨hkeys, -⟩, -⟩ := h ⟨fun _ => 3, []⟩ []
    [serial "RS485-1" "RS485-1", serial "USB" "RS485-2", serial "meter" "USB"]
    [[serial "RS485-1" "RS485-1", serial "meter" "USB"]]
    (by decide) ⟨Or.inr (List.Sublist.subperm (by decide)), fun _ _ => trivial⟩
  exact absurd ((hkeys "USB").mp (by decide)) (by decide)

end TaskLists

end CsiFirmware.Task
