import CsiFirmware.Serial.Termios
import CsiFirmware.Task.PortIdentity

/-!
# Driver files

Reference: the constructor of `Serial_485` and its callers in `TaskSerial`.

A driver file is configured when a port object is constructed on it, and by nothing else. The port
objects of a run are numbered in the order of their construction (`Serial485.ident`), so
`lines_last_constructed` can say for every run which of them decides how a line is set, and which
record each port in the map was made from.
-/

namespace CsiFirmware.Task

open MaskedWord Runs Serial

variable {δ : Type}

/-- The path the constructor of `Serial_485` opens. -/
def driverFile (serial : SerialIdInfo) : String :=
  if serial.serialName ∈ rs485Names then "/dev/tty" ++ serial.serialName else ""

/-- The settings of the terminal behind each path. -/
abbrev Ttys := String → Termios

/-- What the constructor of `Serial_485` does to the terminals. On a negative descriptor every call
of `set_port_attr` fails. -/
def configure (env : Environment δ) (lib : SpeedLibrary) (ttys : Ttys) (serial : SerialIdInfo) :
    Ttys :=
  if env.openDriver (driverFile serial) < 0 then ttys
  else
    Function.update ttys (driverFile serial)
      (setPortAttr lib serial.serialParamInfo (ttys (driverFile serial)))

/-- The serial is on the path, and the path can be opened. -/
def OpensOn (env : Environment δ) (path : String) (serial : SerialIdInfo) : Prop :=
  driverFile serial = path ∧ 0 ≤ env.openDriver path

instance (env : Environment δ) (path : String) : DecidablePred (OpensOn env path) :=
  fun _ => inferInstanceAs (Decidable (_ ∧ _))

namespace TaskLists

/-- The serials that an event constructs port objects for. -/
def constructed (s : TaskLists δ) : ListEvent → List SerialIdInfo
  | .devices _ => []
  | .serials msg =>
      if s.isLoadSerialList = false ∧ s.serialList.length < msg.length then
        (newSerial s.serialList msg).toList.filter fun serial => isRS485 serial
      else []
  | .work =>
      if s.isLoadDevList = false ∧ s.isLoadSerialList = false ∧ s.isMergeDevAndSerial = true then
        s.serialList.filter fun serial => isRS485 serial
      else []

/-- The serials that a run constructs port objects for, in order. -/
def constructions (env : Environment δ) : TaskLists δ → List ListEvent → List SerialIdInfo
  | _, [] => []
  | s, e :: es =>
      s.constructed e ++ ((step env s e).elim [] fun s' => constructions env s' es)

end TaskLists

/-- The lists and the ports as they are configured. -/
structure DriverState (δ : Type) where
  lists : TaskLists δ
  ttys : Ttys

namespace DriverState

/-- A step configures the ports that it constructs, in order. -/
def step (env : Environment δ) (lib : SpeedLibrary) (s : DriverState δ)
    (e : TaskLists.ListEvent) : Option (DriverState δ) :=
  (TaskLists.step env s.lists e).map fun lists =>
    { lists, ttys := (s.lists.constructed e).foldl (configure env lib) s.ttys }

end DriverState

variable {env : Environment δ} {lib : SpeedLibrary}

/-! ## Which constructor decides -/

/-- A constructor that opens the path sets its attributes. -/
theorem configure_of_opensOn {serial : SerialIdInfo} {path : String} (h : OpensOn env path serial)
    (ttys : Ttys) :
    configure env lib ttys serial path =
      setPortAttr lib serial.serialParamInfo (ttys path) := by
  obtain ⟨rfl, hopen⟩ := h
  rw [configure, if_neg (by omega), Function.update_self]

/-- Any other one leaves the path alone. -/
theorem configure_of_not_opensOn {serial : SerialIdInfo} {path : String}
    (h : ¬ OpensOn env path serial) (ttys : Ttys) :
    configure env lib ttys serial path = ttys path := by
  rw [configure]
  split_ifs with hopen
  · rfl
  · refine Function.update_of_ne ?_ _ _
    rintro rfl
    exact h ⟨rfl, by omega⟩

/-- The settings are those from before, or what the last of the serials on the path asks for. -/
def DecidedBy (env : Environment δ) (path : String) (serials : List SerialIdInfo)
    (before after : Termios) : Prop :=
  match (serials.filter fun serial => OpensOn env path serial).getLast? with
  | none => after = before
  | some serial => Configured serial.serialParamInfo before after

/-- After some constructors the last one on the path decides. -/
theorem decidedBy_foldl (env : Environment δ) (lib : SpeedLibrary) (ttys : Ttys) (path : String)
    (serials : List SerialIdInfo) :
    DecidedBy env path serials (ttys path) (serials.foldl (configure env lib) ttys path) := by
  induction serials using List.reverseRecOn with
  | nil => rfl
  | append_singleton serials serial ih =>
      rw [List.foldl_append, List.foldl_cons, List.foldl_nil, DecidedBy, List.filter_append]
      by_cases hon : OpensOn env path serial
      · rw [List.filter_singleton, decide_eq_true hon, cond_true, List.getLast?_concat,
          configure_of_opensOn hon]
        have hset := configured_setPortAttr lib serial.serialParamInfo
          (serials.foldl (configure env lib) ttys path)
        rw [DecidedBy] at ih
        -- the settings before this constructor may stem from an earlier one
        split at ih
        · rw [ih] at hset ⊢
          exact hset
        · exact ih.trans hset
      · rw [List.filter_singleton, decide_eq_false hon, cond_false, List.append_nil,
          configure_of_not_opensOn hon]
        exact ih

/-! ## The ports in the map -/

namespace TaskLists

variable {s s' : TaskLists δ} {e : ListEvent} {made : List SerialIdInfo}

/-- The port objects made so far are `made`, in order, and the map holds some of them. -/
structure Built (env : Environment δ) (made : List SerialIdInfo) (s : TaskLists δ) : Prop where
  count : s.nextIdent = made.length
  port : ∀ key p, s.serialInfoMap.lookup key = some p → ∃ serial, made[p.ident]? = some serial ∧
    serial.name = key ∧ p.serialIdtmp = openedInfo env serial

/-- Only the ports and the counter matter. -/
theorem Built.congr (h : Built env made s) (hports : s'.serialInfoMap = s.serialInfoMap)
    (hnext : s'.nextIdent = s.nextIdent) : Built env made s' :=
  ⟨hnext.trans h.count, fun key p hp => h.port key p (hports ▸ hp)⟩

/-- One construction, or none if the serial is no RS485 port. -/
theorem Built.addSerial (h : Built env made s) (serial : SerialIdInfo) :
    Built env (made ++ [serial].filter fun serial => isRS485 serial) (addSerial env s serial) := by
  by_cases hport : isRS485 serial
  · rw [List.filter_singleton, decide_eq_true hport, cond_true]
    constructor
    · rw [TaskLists.addSerial, if_pos hport, List.length_append, ← h.count]
      rfl
    · intro key p hp
      rw [lookup_addSerial] at hp
      split_ifs at hp with hnew
      · obtain rfl := Option.some.inj hp
        exact ⟨serial, by rw [h.count, List.getElem?_concat_length], hnew.2.symm, rfl⟩
      · -- the ports that stay keep their places among those made so far
        obtain ⟨old, hold, hname, hinfo⟩ := h.port key p hp
        have hlt : p.ident < made.length := (List.getElem?_eq_some_iff.mp hold).1
        exact ⟨old, by rw [List.getElem?_append_left hlt, hold], hname, hinfo⟩
  · rw [List.filter_singleton, decide_eq_false hport, cond_false, List.append_nil,
      TaskLists.addSerial, if_neg hport]
    exact h

/-- The loop of `loadAllList`. -/
theorem Built.foldl_addSerial (h : Built env made s) (serials : List SerialIdInfo) :
    Built env (made ++ serials.filter fun serial => isRS485 serial)
      (serials.foldl (TaskLists.addSerial env) s) := by
  induction serials generalizing s made with
  | nil =>
      rw [List.filter_nil, List.append_nil]
      exact h
  | cons serial serials ih =>
      have hnext := ih (h.addSerial serial)
      rw [List.append_assoc, ← List.filter_append] at hnext
      exact hnext

/-- A message constructs the ports that `constructed` says. -/
theorem Built.onSerialList {msg : List SerialIdInfo} (h : Built env made s)
    (hs : onSerialList env s msg = some s') :
    Built env (made ++ s.constructed (.serials msg)) s' := by
  rw [constructed]
  rw [TaskLists.onSerialList] at hs
  by_cases hload : s.isLoadSerialList = false
  · rw [if_pos hload] at hs
    by_cases hlonger : s.serialList.length < msg.length
    · rw [if_pos hlonger] at hs
      rw [if_pos ⟨hload, hlonger⟩]
      cases hnew : newSerial s.serialList msg with
      | none =>
          rw [hnew] at hs
          obtain rfl := Option.some.inj hs
          rw [Option.toList_none, List.filter_nil, List.append_nil]
          exact h.congr rfl rfl
      | some serial =>
          rw [hnew] at hs
          obtain rfl := Option.some.inj hs
          exact (h.addSerial serial).congr rfl rfl
    · rw [if_neg hlonger] at hs
      rw [if_neg (fun hboth => hlonger hboth.2), List.append_nil]
      split_ifs at hs
      · -- a shorter list takes ports out and makes none
        obtain ⟨ports, hports, rfl⟩ := Option.map_eq_some_iff.mp hs
        obtain ⟨rfl, -⟩ := eraseUnmatched_eq_some_iff.mp hports
        exact h.congr rfl rfl
      · obtain rfl := Option.some.inj hs
        exact h.congr rfl rfl
  · rw [if_neg hload] at hs
    obtain rfl := Option.some.inj hs
    rw [if_neg (fun hboth => hload hboth.1), List.append_nil]
    exact h.congr rfl rfl

/-- The same for the other steps. -/
theorem Built.step (h : Built env made s) (hs : step env s e = some s') :
    Built env (made ++ s.constructed e) s' := by
  cases e with
  | devices msg =>
      rw [constructed, List.append_nil]
      rcases onDevList_cases hs with ⟨-, rfl⟩ | ⟨-, -, dev, -, rfl⟩ | ⟨-, -, rfl⟩
      · exact h.congr rfl rfl
      · exact h.congr (bindDevice_serialInfoMap env s dev) (bindDevice_nextIdent env s dev)
      · exact h.congr rfl rfl
  | serials msg => exact h.onSerialList hs
  | work =>
      obtain rfl := Option.some.inj hs
      rw [work, constructed]
      split_ifs
      · -- the devices that are bound afterwards do not touch the ports
        refine (h.foldl_addSerial s.serialList).congr loadAllList_serialInfoMap ?_
        · rw [loadAllList]
          simp only [foldl_frame (bindDevice_nextIdent env)]
      · rw [List.append_nil]
        exact h

/-- The ports in the map at the end of a run are among those the run constructed. -/
theorem Built.run {events : List ListEvent} (h : Built env made s)
    (hrun : run (TaskLists.step env) s events = some s') :
    Built env (made ++ constructions env s events) s' := by
  induction events generalizing s made with
  | nil =>
      obtain rfl : s = s' := by simpa using hrun
      rw [constructions, List.append_nil]
      exact h
  | cons e events ih =>
      rw [run_cons] at hrun
      obtain ⟨s₁, h₁, hrest⟩ := Option.bind_eq_some_iff.mp hrun
      rw [constructions, h₁, ← List.append_assoc]
      exact ih (h.step h₁) hrest

/-- At the start nothing is constructed. -/
theorem built_init (env : Environment δ) : Built env [] (init : TaskLists δ) :=
  ⟨rfl, fun key p hp => by simp [init] at hp⟩

end TaskLists

/-! ## Runs -/

namespace DriverState

variable {s s' : DriverState δ} {events : List TaskLists.ListEvent}

/-- The lists go on as without the ports. -/
theorem run_lists (hrun : run (step env lib) s events = some s') :
    run (TaskLists.step env) s.lists events = some s'.lists := by
  induction events generalizing s with
  | nil =>
      obtain rfl : s = s' := by simpa using hrun
      rfl
  | cons e events ih =>
      rw [run_cons] at hrun ⊢
      obtain ⟨s₁, h₁, hrest⟩ := Option.bind_eq_some_iff.mp hrun
      obtain ⟨lists, hlists, rfl⟩ := Option.map_eq_some_iff.mp h₁
      rw [hlists]
      exact ih hrest

/-- The ports go through the constructions of the run, one after the other. -/
theorem run_ttys (hrun : run (step env lib) s events = some s') :
    s'.ttys = (TaskLists.constructions env s.lists events).foldl (configure env lib) s.ttys := by
  induction events generalizing s with
  | nil =>
      obtain rfl : s = s' := by simpa using hrun
      rfl
  | cons e events ih =>
      rw [run_cons] at hrun
      obtain ⟨s₁, h₁, hrest⟩ := Option.bind_eq_some_iff.mp hrun
      obtain ⟨lists, hlists, rfl⟩ := Option.map_eq_some_iff.mp h₁
      rw [TaskLists.constructions, hlists, List.foldl_append]
      exact ih hrest

/-- A list of serials as long as the one before replaces it and does nothing else. -/
theorem step_edited {msg : List SerialIdInfo} (hload : s.lists.isLoadSerialList = false)
    (hlength : msg.length = s.lists.serialList.length) :
    step env lib s (.serials msg) =
      some { s with lists := { s.lists with serialList := msg } } := by
  have hlists : TaskLists.step env s.lists (.serials msg) =
      some { s.lists with serialList := msg } := by
    show TaskLists.onSerialList env s.lists msg = _
    rw [TaskLists.onSerialList, if_pos hload, if_neg hlength.symm.not_lt, if_neg hlength.not_lt]
  have hnone : s.lists.constructed (.serials msg) = [] := by
    rw [TaskLists.constructed, if_neg fun hboth => hlength.symm.not_lt hboth.2]
  rw [step, hlists, hnone]
  rfl

/-- From start-up, whatever messages arrive, the line of each driver file is set as the last port
object constructed on it asks for, or as it was if there is none. Each port in the map was made
from the record of its number. A list that only edits records sets no line and makes no port. -/
theorem lines_last_constructed (ttys : Ttys)
    (hrun : run (step env lib) ⟨TaskLists.init, ttys⟩ events = some s) :
    (∀ path, DecidedBy env path (TaskLists.constructions env TaskLists.init events) (ttys path)
      (s.ttys path)) ∧
    (∀ key p, s.lists.serialInfoMap.lookup key = some p → ∃ serial,
      (TaskLists.constructions env TaskLists.init events)[p.ident]? = some serial ∧
        serial.name = key ∧ p.serialIdtmp = openedInfo env serial) ∧
    ∀ msg s', s.lists.isLoadSerialList = false → msg.length = s.lists.serialList.length →
      step env lib s (.serials msg) = some s' →
        s'.ttys = s.ttys ∧ s'.lists.serialInfoMap = s.lists.serialInfoMap := by
  refine ⟨fun path => ?_, ((TaskLists.built_init env).run (run_lists hrun)).port,
    fun msg s' hload hlength hstep => ?_⟩
  · rw [run_ttys hrun]
    exact decidedBy_foldl env lib ttys path _
  · rw [step_edited hload hlength] at hstep
    obtain rfl := Option.some.inj hstep
    exact ⟨rfl, rfl⟩

/-! The functions of glibc. A number that is no speed constant is refused. -/

/-- `cfsetospeed` of glibc. -/
private def glibcOutput (speed : BitVec 32) (opt : Termios) : Termios :=
  if speed &&& ~~~cbaud ≠ 0 then opt
  else { opt with cCflag := raise speed (clear cbaud opt.cCflag), cOspeed := speed }

/-- `cfsetispeed` of glibc. -/
private def glibcInput (speed : BitVec 32) (opt : Termios) : Termios :=
  if speed &&& ~~~cbaud ≠ 0 then opt
  else if speed = 0 then { opt with cIflag := raise ibaud0 opt.cIflag, cIspeed := speed }
  else
    { opt with
      cIflag := clear ibaud0 opt.cIflag
      cCflag := raise speed (clear cbaud opt.cCflag)
      cIspeed := speed }

/-- A speed that is accepted stays within its bits. -/
private theorem touches_cbaud {speed : BitVec 32} (h : ¬ speed &&& ~~~cbaud ≠ 0) :
    Touches cbaud fun x => raise speed (clear cbaud x) :=
  ((touches_raise speed).mono ((and_eq_self_iff speed cbaud).mpr (not_not.mp h))).comp
    (touches_clear cbaud)

/-- The output speed is stored as the library should. -/
private theorem storesSpeed_glibcOutput (speed : BitVec 32) (opt : Termios) :
    StoresSpeed opt (glibcOutput speed opt) := by
  rw [glibcOutput]
  split_ifs with hspeed
  · exact ⟨.refl _ _, .refl _ _, rfl, rfl, rfl⟩
  · exact ⟨touches_cbaud hspeed _, .refl _ _, rfl, rfl, rfl⟩

/-- The input speed is stored as the library should. -/
private theorem storesSpeed_glibcInput (speed : BitVec 32) (opt : Termios) :
    StoresSpeed opt (glibcInput speed opt) := by
  rw [glibcInput]
  split_ifs with hspeed
  · exact ⟨.refl _ _, .refl _ _, rfl, rfl, rfl⟩
  · exact ⟨.refl _ _, touches_raise ibaud0 _, rfl, rfl, rfl⟩
  · exact ⟨touches_cbaud hspeed _, touches_clear ibaud0 _, rfl, rfl, rfl⟩

/-- The list is loaded with one port; then its parameters are edited. -/
theorem lines_last_constructed_edited :
    let env : Environment Decimal := ⟨fun _ => 3, []⟩
    let lib : SpeedLibrary := ⟨glibcInput, glibcOutput, storesSpeed_glibcInput,
      storesSpeed_glibcOutput⟩
    let port (param : SerialParamInfo) : SerialIdInfo := ⟨0, 0, "RS485-1", "meter", "", param⟩
    ∃ s, run (step env lib) ⟨TaskLists.init, fun _ => ⟨0, 0, 0, 0, fun _ => 0, 0, 0⟩⟩
        [.serials [port ⟨13, 7, "2", "E", 0, 1⟩], .devices [], .work,
          .serials [port ⟨13, 8, "1", "N", 0, 1⟩]] = some s ∧
      framing (s.ttys "/dev/ttyRS485-1").cCflag = ⟨7, .even, 2⟩ := by
  intro env lib port
  obtain ⟨s, hs⟩ : ∃ s, run (step env lib) ⟨TaskLists.init, fun _ => ⟨0, 0, 0, 0, fun _ => 0, 0, 0⟩⟩
      [.serials [port ⟨13, 7, "2", "E", 0, 1⟩], .devices [], .work,
        .serials [port ⟨13, 8, "1", "N", 0, 1⟩]] = some s := ⟨_, rfl⟩
  have hconfigured : Configured ⟨13, 7, "2", "E", 0, 1⟩ _ (s.ttys "/dev/ttyRS485-1") :=
    (lines_last_constructed _ hs).1 "/dev/ttyRS485-1"
  exact ⟨s, hs, hconfigured.framing⟩

end DriverState

end CsiFirmware.Task
