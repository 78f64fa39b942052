import CsiFirmware.Task.Lists

/-!
# Protocol objects and their ports

A protocol object keeps the raw pointer of its port, and the port map owns the port. Creating a port
under a key that is taken and `loadAllList` replace the owner without a look at the protocols; a
removal that finds something to erase is not survived. `portsLive_iff` says for which messages every
protocol object refers to a port object in the map.

Identities are handed out in order (`Idents`), so a port that was replaced is never in the map again
and a lost reference stays lost until its protocol is replaced as well.
-/

namespace CsiFirmware.Task

open Protocol Runs

variable {δ : Type}

namespace TaskLists

/-- What changes the lists and the maps. -/
inductive ListEvent where
  | devices (msg : List DevInfo)
  | serials (msg : List SerialIdInfo)
  | work

/-- The names in a message are distinct. -/
def ListEvent.Distinct : ListEvent → Prop
  | .devices msg => (msg.map DevInfo.devName).Nodup
  | .serials msg => (msg.map SerialIdInfo.name).Nodup
  | .work => True

instance : DecidablePred ListEvent.Distinct
  | .devices _ => inferInstanceAs (Decidable (List.Nodup _))
  | .serials _ => inferInstanceAs (Decidable (List.Nodup _))
  | .work => inferInstanceAs (Decidable True)

/-- A list message, or a turn of the worker. -/
def step (env : Environment δ) (s : TaskLists δ) : ListEvent → Option (TaskLists δ)
  | .devices msg => onDevList env s msg
  | .serials msg => onSerialList env s msg
  | .work => some (work env s)

/-! ## References -/

/-- A port object that is the value of some entry. -/
def LivePort (s : TaskLists δ) (ident : ℕ) : Prop :=
  ∃ key serial, s.serialInfoMap.lookup key = some serial ∧ serial.ident = ident

/-- Every protocol object refers to a live port. -/
def PortsLive (s : TaskLists δ) : Prop :=
  ∀ name m, s.protocolInfoMap.lookup name = some m → s.LivePort m.serial

/-- The entry under `key` is the port of a protocol object. -/
def InUse (s : TaskLists δ) (key : String) : Prop :=
  ∃ name m serial, s.protocolInfoMap.lookup name = some m ∧
    s.serialInfoMap.lookup key = some serial ∧ serial.ident = m.serial

/-- `loadAllList` creates the protocol object of the device anew. -/
def Rebound (s : TaskLists δ) (name : String) : Prop :=
  ∃ dev ∈ s.devList, dev.devName = name ∧ dev.protocol = "modbus" ∧
    (dev.serialInfo.name ∈ portNames s.serialList ∨ dev.serialInfo.name ∈ s.serialInfoMap)

/-- A shorter list erases nothing, no port in use is replaced by an addition, and `loadAllList`
rebinds the devices whose port it replaces. -/
def KeepsReferences (s : TaskLists δ) : ListEvent → Prop
  | .devices msg =>
      s.isLoadDevList = false → msg.length < s.devList.length →
        ∀ name ∈ s.protocolInfoMap, name ∈ msg.map DevInfo.devName
  | .serials msg =>
      s.isLoadSerialList = false →
        (msg.length < s.serialList.length →
          ∀ key ∈ s.serialInfoMap, key ∈ msg.map SerialIdInfo.serialName) ∧
        (s.serialList.length < msg.length → ∀ serial ∈ newSerial s.serialList msg,
          isRS485 serial → ¬ s.InUse serial.name)
  | .work =>
      s.isLoadDevList = false ∧ s.isLoadSerialList = false ∧ s.isMergeDevAndSerial = true →
        ∀ name m key serial, s.protocolInfoMap.lookup name = some m →
          s.serialInfoMap.lookup key = some serial → serial.ident = m.serial →
            key ∈ portNames s.serialList → s.Rebound name

/-- The identities in the map are different from each other and from the next one. -/
structure Idents (s : TaskLists δ) : Prop where
  lt : ∀ key serial, s.serialInfoMap.lookup key = some serial → serial.ident < s.nextIdent
  inj : ∀ key key' serial serial', s.serialInfoMap.lookup key = some serial →
    s.serialInfoMap.lookup key' = some serial' → serial.ident = serial'.ident → key = key'

/-- A live port and the protocol object that refers to it. -/
structure LiveInv (s : TaskLists δ) : Prop where
  idents : s.Idents
  live : s.PortsLive

variable {env : Environment δ} {s s' : TaskLists δ}

/-! ## Identities -/

/-- Identities are handed out in order. -/
theorem nextIdent_le_addSerial (serial : SerialIdInfo) :
    s.nextIdent ≤ (addSerial env s serial).nextIdent := by
  rw [addSerial]
  split_ifs
  · exact Nat.le_succ _
  · exact le_rfl

/-- A new port has a new one. -/
theorem Idents.addSerial (h : s.Idents) (serial : SerialIdInfo) :
    (addSerial env s serial).Idents := by
  -- a port in the map is the new one or has been there before
  have hsub : ∀ key p, (TaskLists.addSerial env s serial).serialInfoMap.lookup key = some p →
      isRS485 serial ∧ key = serial.name ∧ p.ident = s.nextIdent ∨
        s.serialInfoMap.lookup key = some p ∧ p.ident < s.nextIdent := by
    intro key p hp
    rw [lookup_addSerial] at hp
    split_ifs at hp with hnew
    · obtain rfl := Option.some.inj hp
      exact Or.inl ⟨hnew.1, hnew.2, rfl⟩
    · exact Or.inr ⟨hp, h.lt key p hp⟩
  constructor
  · intro key p hp
    rcases hsub key p hp with ⟨hport, -, hident⟩ | ⟨-, hlt⟩
    · rw [hident, TaskLists.addSerial, if_pos hport]
      exact Nat.lt_succ_self _
    · exact Nat.lt_of_lt_of_le hlt (nextIdent_le_addSerial serial)
  · intro key key' p p' hp hp' heq
    rcases hsub key p hp with ⟨-, hkey, hident⟩ | ⟨hold, hlt⟩ <;>
      rcases hsub key' p' hp' with ⟨-, hkey', hident'⟩ | ⟨hold', hlt'⟩
    · rw [hkey, hkey']
    · omega
    · omega
    · exact h.inj key key' p p' hold hold' heq

/-- The loop of `loadAllList`. -/
theorem Idents.foldl_addSerial (env : Environment δ) (h : s.Idents) (serials : List SerialIdInfo) :
    (serials.foldl (TaskLists.addSerial env) s).Idents := by
  induction serials generalizing s with
  | nil => exact h
  | cons serial serials ih => exact ih (h.addSerial serial)

/-- Only the ports and the counter matter. -/
theorem Idents.congr (h : s.Idents) (hports : s'.serialInfoMap = s.serialInfoMap)
    (hnext : s'.nextIdent = s.nextIdent) : s'.Idents := by
  constructor
  · rw [hports, hnext]
    exact h.lt
  · rw [hports]
    exact h.inj

/-- The first loop of `loadAllList` replaces the ports it names by new ones and keeps the others. -/
theorem lookup_foldl_addSerial (env : Environment δ) (s : TaskLists δ)
    (serials : List SerialIdInfo) (key : String) :
    (key ∉ portNames serials ∧
        (serials.foldl (TaskLists.addSerial env) s).serialInfoMap.lookup key =
          s.serialInfoMap.lookup key) ∨
      (key ∈ portNames serials ∧
        ∃ p, (serials.foldl (TaskLists.addSerial env) s).serialInfoMap.lookup key = some p ∧
          s.nextIdent ≤ p.ident) := by
  induction serials generalizing s with
  | nil => exact Or.inl ⟨List.not_mem_nil, rfl⟩
  | cons serial serials ih =>
      rw [List.foldl_cons, mem_portNames_cons]
      rcases ih (TaskLists.addSerial env s serial) with ⟨hnot, hlookup⟩ | ⟨hmem, p, hp, hle⟩
      · rw [hlookup, lookup_addSerial]
        -- this serial names the port, or it has to be named by a later one
        split_ifs with hnew
        · exact Or.inr ⟨Or.inl hnew, _, rfl, le_rfl⟩
        · exact Or.inl ⟨not_or.mpr ⟨hnew, hnot⟩, rfl⟩
      · exact Or.inr ⟨Or.inr hmem, p, hp, Nat.le_trans (nextIdent_le_addSerial serial) hle⟩

/-! ## Additions -/

/-- Adding a port keeps every reference unless it replaces a port in use. -/
theorem portsLive_addSerial_iff (env : Environment δ) (h : s.LiveInv) (serial : SerialIdInfo) :
    (addSerial env s serial).PortsLive ↔ (isRS485 serial → ¬ s.InUse serial.name) := by
  constructor
  · rintro hlive hport ⟨name, m, old, hm, hold, hident⟩
    obtain ⟨key, p, hp, hpm⟩ := hlive name m (by rw [addSerial_protocolInfoMap]; exact hm)
    have holdlt := h.idents.lt _ _ hold
    rw [lookup_addSerial] at hp
    split_ifs at hp with hnew
    · -- the new port has an identity that no protocol can hold yet
      obtain rfl := Option.some.inj hp
      simp only at hpm
      omega
    · -- the object that was replaced is nowhere else in the map
      have hkey := h.idents.inj key serial.name p old hp hold (hpm.trans hident.symm)
      exact hnew ⟨hport, hkey⟩
  · intro hfree name m hm
    rw [addSerial_protocolInfoMap] at hm
    obtain ⟨key, p, hp, hpm⟩ := h.live name m hm
    refine ⟨key, p, ?_, hpm⟩
    rw [lookup_addSerial, if_neg]
    · exact hp
    · rintro ⟨hport, rfl⟩
      exact hfree hport ⟨name, m, p, hm, hp, hpm⟩

/-- A new protocol object refers to the port it was created for. -/
theorem PortsLive.bindDevice (h : s.PortsLive) (dev : DevInfo) :
    (bindDevice env s dev).PortsLive := by
  intro name m hm
  have hports : (TaskLists.bindDevice env s dev).LivePort m.serial ↔ s.LivePort m.serial := by
    simp only [LivePort, bindDevice_serialInfoMap]
  rw [hports]
  rw [lookup_bindDevice] at hm
  split_ifs at hm with hnew
  · obtain ⟨p, hp, rfl⟩ := Option.map_eq_some_iff.mp hm
    exact ⟨_, p, hp, rfl⟩
  · exact h name m hm

/-! ## `loadAllList` -/

/-- What the two loops leave under a device name. -/
theorem rebound_or_kept (env : Environment δ) (s : TaskLists δ) (name : String) :
    ((loadAllList env s).protocolInfoMap.lookup name = s.protocolInfoMap.lookup name ∧
      ¬ s.Rebound name) ∨
    s.Rebound name ∧ ∃ key p, (loadAllList env s).serialInfoMap.lookup key = some p ∧
      (loadAllList env s).protocolInfoMap.lookup name =
        some (Modbus.new env.pointTable p.ident) := by
  have hmem (key : String) : key ∈ (loadAllList env s).serialInfoMap ↔
      key ∈ portNames s.serialList ∨ key ∈ s.serialInfoMap := by
    rw [loadAllList_serialInfoMap]
    exact mem_foldl_addSerial env s s.serialList key
  rcases lookup_loadAllList env s name with
    ⟨hlookup, hnone⟩ | ⟨dev, hdev, hname, hprotocol, p, hp, hlookup⟩
  · refine Or.inl ⟨hlookup, ?_⟩
    rintro ⟨dev, hdev, hname, hprotocol, hport⟩
    exact hnone dev hdev hname hprotocol ((hmem _).mpr hport)
  · refine Or.inr ⟨⟨dev, hdev, hname, hprotocol, (hmem _).mp ?_⟩, dev.serialInfo.name, p, hp,
      hlookup⟩
    rw [← AList.lookup_isSome, hp]
    rfl

/-- `loadAllList` loses a reference if and only if it replaces a port in use and does not replace
the protocol object as well. -/
theorem portsLive_loadAllList_iff (h : s.LiveInv) :
    (loadAllList env s).PortsLive ↔
      ∀ name m key serial, s.protocolInfoMap.lookup name = some m →
        s.serialInfoMap.lookup key = some serial → serial.ident = m.serial →
          key ∈ portNames s.serialList → s.Rebound name := by
  constructor
  · intro hlive name m key serial hm hport hident hkey
    by_contra hnot
    rcases rebound_or_kept env s name with ⟨hlookup, -⟩ | ⟨hrebound, -⟩
    · obtain ⟨key', p, hp, hpm⟩ := hlive name m (hlookup.trans hm)
      have hlt := h.idents.lt key serial hport
      rw [loadAllList_serialInfoMap] at hp
      rcases lookup_foldl_addSerial env s s.serialList key' with
        ⟨hnot', hsame⟩ | ⟨-, p', hp', hle⟩
      · rw [hsame] at hp
        -- the port that the object refers to has been replaced
        obtain rfl := h.idents.inj key' key p serial hp hport (hpm.trans hident.symm)
        exact hnot' hkey
      · obtain rfl := Option.some.inj (hp.symm.trans hp')
        omega
    · exact hnot hrebound
  · intro hrebound name m hm
    rcases rebound_or_kept env s name with ⟨hlookup, hnot⟩ | ⟨-, key, p, hp, hlookup⟩
    · rw [hlookup] at hm
      obtain ⟨key, p, hp, hpm⟩ := h.live name m hm
      refine ⟨key, p, ?_, hpm⟩
      rw [loadAllList_serialInfoMap]
      rcases lookup_foldl_addSerial env s s.serialList key with
        ⟨-, hsame⟩ | ⟨hmem, -⟩
      · exact hsame.trans hp
      · exact absurd (hrebound name m key p hm hp hpm hmem) hnot
    · obtain rfl := Option.some.inj (hlookup.symm.trans hm)
      exact ⟨key, p, hp, rfl⟩

/-! ## Steps and runs -/

/-- A device list loses a reference only by not being survived. -/
theorem onDevList_live_iff (h : s.LiveInv) (msg : List DevInfo) :
    KeepsReferences s (.devices msg) ↔ ∃ s', onDevList env s msg = some s' ∧ s'.PortsLive := by
  rw [KeepsReferences]
  by_cases hload : s.isLoadDevList = false
  swap
  · rw [onDevList, if_neg hload]
    exact iff_of_true (fun hload' => absurd hload' hload) ⟨_, rfl, h.live⟩
  by_cases hshorter : msg.length < s.devList.length
  · -- a shorter list erases objects, and no port
    simp only [onDevList_shorter hload hshorter]
    constructor
    · exact fun hkeeps => ⟨_, ⟨rfl, hkeeps hload hshorter⟩, h.live⟩
    · rintro ⟨_, ⟨-, hmatched⟩, -⟩ - -
      exact hmatched
  · rw [onDevList, if_pos hload, if_neg hshorter]
    refine iff_of_true (fun _ hlt => absurd hlt hshorter) ?_
    split_ifs
    · cases newDevice s.devList msg with
      | none => exact ⟨_, rfl, h.live⟩
      | some dev => exact ⟨_, rfl, h.live.bindDevice dev⟩
    · exact ⟨_, rfl, h.live⟩

/-- A serial list loses a reference by erasing a port or by replacing one that is in use. -/
theorem onSerialList_live_iff (h : s.LiveInv) (msg : List SerialIdInfo) :
    KeepsReferences s (.serials msg) ↔
      ∃ s', onSerialList env s msg = some s' ∧ s'.PortsLive := by
  rw [KeepsReferences]
  by_cases hload : s.isLoadSerialList = false
  swap
  · rw [onSerialList, if_neg hload]
    exact iff_of_true (fun hload' => absurd hload' hload) ⟨_, rfl, h.live⟩
  by_cases hshorter : msg.length < s.serialList.length
  · simp only [onSerialList_shorter hload hshorter]
    constructor
    · exact fun hkeeps => ⟨_, ⟨rfl, (hkeeps hload).1 hshorter⟩, h.live⟩
    · rintro ⟨_, ⟨-, hmatched⟩, -⟩ -
      exact ⟨fun _ => hmatched, fun hlt => by omega⟩
  rw [onSerialList, if_pos hload, if_neg hshorter]
  by_cases hlonger : s.serialList.length < msg.length
  · rw [if_pos hlonger]
    cases hnew : newSerial s.serialList msg with
    | none =>
        refine iff_of_true (fun _ => ⟨fun hlt => by omega, fun _ => ?_⟩) ⟨_, rfl, h.live⟩
        exact fun serial hserial => absurd hserial (by simp)
    | some serial =>
        have hadd := portsLive_addSerial_iff env h serial
        constructor
        · intro hkeeps
          exact ⟨_, rfl, hadd.mpr ((hkeeps hload).2 hlonger serial rfl)⟩
        · rintro ⟨s', hs', hlive⟩ -
          obtain rfl := Option.some.inj hs'
          refine ⟨fun hlt => by omega, fun _ serial' hserial' => ?_⟩
          obtain rfl := Option.some.inj hserial'
          exact hadd.mp hlive
  · rw [if_neg hlonger]
    exact iff_of_true (fun _ => ⟨fun hlt => absurd hlt hshorter, fun hlt => absurd hlt hlonger⟩)
      ⟨_, rfl, h.live⟩

/-- A turn of the worker loses a reference only where `loadAllList` does. -/
theorem work_live_iff (h : s.LiveInv) :
    KeepsReferences s .work ↔ ∃ s', some (work env s) = some s' ∧ s'.PortsLive := by
  simp only [Option.some.injEq, exists_eq_left']
  rw [KeepsReferences, work]
  split_ifs with hflags
  · rw [portsLive_loadAllList_iff h]
    exact ⟨fun hkeeps => hkeeps hflags, fun hkeeps _ => hkeeps⟩
  · exact iff_of_true (fun hflags' => absurd hflags' hflags) h.live

/-- No event hands an identity out twice. -/
theorem Idents.step {e : ListEvent} (h : s.Idents) (hs : step env s e = some s') : s'.Idents := by
  cases e with
  | devices msg =>
      rcases onDevList_cases hs with ⟨-, rfl⟩ | ⟨-, -, dev, -, rfl⟩ | ⟨-, -, rfl⟩
      · exact h.congr rfl rfl
      · exact h.congr (bindDevice_serialInfoMap env s dev) (bindDevice_nextIdent env s dev)
      · exact h.congr rfl rfl
  | serials msg =>
      rcases onSerialList_cases hs with ⟨-, rfl⟩ | ⟨-, -, serial, -, rfl⟩ | ⟨-, -, rfl⟩
      · exact h.congr rfl rfl
      · exact (h.addSerial serial).congr rfl rfl
      · exact h.congr rfl rfl
  | work =>
      obtain rfl := Option.some.inj hs
      rw [work]
      split_ifs
      · refine (h.foldl_addSerial env s.serialList).congr loadAllList_serialInfoMap ?_
        rw [loadAllList]
        simp only [foldl_frame (bindDevice_nextIdent env)]
      · exact h

/-- At the start there is no reference. -/
theorem liveInv_init : (init : TaskLists δ).LiveInv where
  idents := ⟨fun key serial h => by simp [init] at h, fun key key' serial serial' h => by
    simp [init] at h⟩
  live := fun name m h => by simp [init] at h

/-- From start-up, whatever the messages and the moments at which the worker thread takes a turn,
every protocol object always refers to a port in the map if and only if no step loses a reference.
-/
theorem portsLive_iff (env : Environment δ) (events : List ListEvent) :
    Always (step env) (fun _ _ s' => s'.PortsLive) init events ↔
      StepsMeet (step env) KeepsReferences init events := by
  refine always_iff_stepsMeet (D := fun _ _ => True) ?_ ?_ liveInv_init ?_
  · rintro s (msg | msg | _) hs -
    · exact onDevList_live_iff hs msg
    · exact onSerialList_live_iff hs msg
    · exact work_live_iff hs
  · exact fun s e s' hs _ hstep hlive => ⟨hs.idents.step hstep, hlive⟩
  · exact stepsMeet_trivial init events

/-- The identity is in no entry. -/
theorem not_livePort {ident : ℕ} (h : ∀ p ∈ s.serialInfoMap.entries, p.2.ident ≠ ident) :
    ¬ s.LivePort ident := by
  rintro ⟨key, serial, hport, hident⟩
  exact h _ (AList.mem_lookup_iff.mp hport) hident

/-- A serial of the board. -/
private def rs485 (name : String) : SerialIdInfo :=
  { serialId := 0, statu := 0, serialName := name, name, id := ""
    serialParamInfo := ⟨9600, 8, "1", "N", 0, 0⟩ }

/-- The list loses the port of a device in a message of the same length, which leaves the map alone,
and gets it back in a longer one, which creates the port anew. -/
theorem not_portsLive :
    ¬ ∀ (env : Environment Decimal) (events : List ListEvent), (∀ e ∈ events, e.Distinct) →
      Always (step env) (fun _ _ s' => s'.PortsLive) init events := by
  intro h
  obtain ⟨_, ⟨⟩, -, _, ⟨⟩, -, _, ⟨⟩, -, _, ⟨⟩, -, _, ⟨⟩, hlive, -⟩ := h ⟨fun _ => 3, []⟩
    [.serials [rs485 "RS485-1"],
      .devices [⟨"1", "inverter", rs485 "RS485-1", "modbus", 1, "", "", "", 0⟩], .work,
      .serials [rs485 "RS485-2"], .serials [rs485 "RS485-2", rs485 "RS485-1"]] (by decide)
  exact not_livePort (by decide) (hlive "inverter" ⟨0, [], 0⟩ (by decide))

end TaskLists

end CsiFirmware.Task
