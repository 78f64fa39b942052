import CsiFirmware.Protocol.Requests
import CsiFirmware.Task.Association
import CsiFirmware.Task.Lines

/-!
# Tables and polls

Reference: `Modbus::Modbus`, the subscriber of `modbus/point`, `TaskSerial::serialTaskRun` and
`TaskSerial::sendPacketProc`.

Every protocol object reads a table of blocks when it is created and publishes it on `modbus/point`.
Workers of a pool deliver the tables to `TaskSerial::v_point` in any order. The polling thread takes
the frames from the table of the polled object and the titles from `v_point`, with a counter of its
own for each, `nextPkg` and `pointCount`.

`TableState.Inv` relates the counters to each other and the tables to what was read and delivered.
-/

namespace CsiFirmware.Task

open Protocol Runs

variable {δ : Type}

/-! ## The state -/

/-- A poll of one device. -/
structure DevicePoll where
  device : String
  /-- The number of the constructor call that created its object. -/
  origin : ℕ
  /-- `nextPkg` at the beginning. -/
  first : ℕ
  /-- The value of `pointCount` and the frame, for each request. -/
  sent : List (ℕ × List UInt8)
  /-- `nextPkg` at the end. -/
  last : Option ℕ
deriving DecidableEq

/-- The threads of `TaskSerial`, the tables, and what has happened so far. -/
structure TableState (δ : Type) where
  poll : PollState δ
  /-- What `loadPointFromJson` reads. -/
  file : List (ModbusPoint δ)
  /-- What each call of the constructor of `Modbus` has read. -/
  loaded : List (List (ModbusPoint δ))
  /-- The calls whose publications are with the pool, with the messages. -/
  pending : List (ℕ × List (ModbusPoint δ))
  /-- The call whose publication was delivered last. -/
  delivered : Option ℕ
  /-- The call that created the object of a device. -/
  origin : String → ℕ
  /-- The newest first. -/
  polls : List DevicePoll

/-- What can happen next. -/
inductive TableEvent (δ : Type) where
  | line (e : LineEvent δ)
  | edit (file : List (ModbusPoint δ))
  /-- `protocolInfoMap[device] = std::make_shared<Modbus>(port)`. -/
  | create (device : String) (port : ℕ)
  /-- Objects are destroyed, or the map is rehashed: what is left, by the old positions. -/
  | keep (order : List ℕ)
  /-- A worker runs the callback on `modbus/point`. -/
  | deliver (i : ℕ)

namespace TableState

/-- Nothing has happened since the constructor of `TaskSerial`. -/
structure Initial (s : TableState δ) : Prop extends s.poll.StartUp where
  protocolInfoMap : s.poll.protocolInfoMap = []
  vPoint : s.poll.vPoint = []
  loaded : s.loaded = []
  pending : s.pending = []
  delivered : s.delivered = none
  polls : s.polls = []

/-- Before anything is created. -/
def new [CDouble δ] (file : List (ModbusPoint δ)) : TableState δ :=
  { poll := .new [] [], file, loaded := [], pending := [], delivered := none, origin := fun _ => 0
    polls := [] }

/-- Runs begin after the constructor. -/
theorem initial_new [CDouble δ] (file : List (ModbusPoint δ)) : (new file).Initial :=
  { PollState.startUp_new [] [] with
    protocolInfoMap := rfl
    vPoint := rfl
    loaded := rfl
    pending := rfl
    delivered := rfl
    polls := rfl }

/-- A step of the polling thread from `t` to `t'` begins a poll, ends it, or sends a request. -/
def recordPoll (s : TableState δ) (t t' : PollState δ) : List DevicePoll :=
  match t.pollPc, t.protocolInfoMap[t.it]? with
  | .next, some (device, m) => ⟨device, s.origin device, m.nextPkg, [], none⟩ :: s.polls
  | .assemble, some _ =>
      s.polls.modifyHead fun p =>
        if t'.pollPc = .publish then
          { p with last := t'.protocolInfoMap[t'.it]?.map fun q => q.2.nextPkg }
        else
          { p with sent := p.sent ++
              (t'.requests.drop t.requests.length).map fun r => (r.pointCount, r.frame) }
  | _, _ => s.polls

/-- The map after `protocolInfoMap[device] = std::make_shared<Modbus>(port)`. -/
def created (s : TableState δ) (device : String) (port : ℕ) : List (String × Modbus δ) :=
  (device, Modbus.new s.file port) :: s.poll.protocolInfoMap.filter fun p => p.1 ≠ device

/-- What is left of the map, by the old positions. -/
def kept (s : TableState δ) (order : List ℕ) : List (String × Modbus δ) :=
  order.filterMap (s.poll.protocolInfoMap[·]?)

variable [CDouble δ]

/-- Creation and destruction of objects and `serialTaskRun` exclude each other by `list_mutex`. -/
def step (s : TableState δ) : TableEvent δ → Option (TableState δ)
  | .line (.own (.point _)) | .line (.own (.devices _)) => none
  | .line (.own .poll) =>
      (s.poll.lineStep (.own .poll)).map fun poll =>
        { s with poll, polls := s.recordPoll s.poll poll }
  | .line e => (s.poll.lineStep e).map fun poll => { s with poll }
  | .edit file => some { s with file }
  | .create device port =>
      (s.poll.lineStep (.own (.devices (s.created device port)))).map fun poll =>
        { s with
          poll
          loaded := s.loaded ++ [s.file]
          pending := s.pending ++ [(s.loaded.length, s.file)]
          origin := Function.update s.origin device s.loaded.length }
  | .keep order =>
      if order.Nodup then
        (s.poll.lineStep (.own (.devices (s.kept order)))).map fun poll => { s with poll }
      else none
  | .deliver i =>
      match s.pending[i]? with
      | none => none
      | some (call, msg) =>
          (s.poll.lineStep (.own (.point msg))).map fun poll =>
            { s with poll, pending := s.pending.eraseIdx i, delivered := some call }

/-! ## What a step can do -/

/-- All that a step can do. -/
inductive TableTransition (s : TableState δ) : TableEvent δ → TableState δ → Prop where
  | poll (t : PollState δ) (step : PollTransition transparent anyReply s.poll .poll t) :
      TableTransition s (.line (.own .poll)) { s with
        poll := { t with line := s.poll.line }
        polls := s.recordPoll s.poll { t with line := s.poll.line } }
  | arrive (port : ℕ) (bytes : List UInt8) :
      TableTransition s (.line (.arrive port bytes)) { s with
        poll := { s.poll with
          line := Function.update s.poll.line port (s.poll.line port ++ bytes) } }
  | recv (recvLen : ℕ) (t : PollState δ)
      (step : PollTransition transparent anyReply s.poll (.recv recvLen) t) :
      TableTransition s (.line (.own (.recv recvLen))) { s with poll := t }
  | spurious : TableTransition s (.line (.own .spurious))
      { s with poll := { s.poll with recvPc := s.poll.recvPc.wake } }
  | edit (file : List (ModbusPoint δ)) : TableTransition s (.edit file) { s with file }
  | create (device : String) (port : ℕ) (idle : s.poll.pollPc = .idle) :
      TableTransition s (.create device port) { s with
        poll := { s.poll with protocolInfoMap := s.created device port }
        loaded := s.loaded ++ [s.file]
        pending := s.pending ++ [(s.loaded.length, s.file)]
        origin := Function.update s.origin device s.loaded.length }
  | keep (order : List ℕ) (idle : s.poll.pollPc = .idle) :
      TableTransition s (.keep order)
        { s with poll := { s.poll with protocolInfoMap := s.kept order } }
  | deliver (i call : ℕ) (msg : List (ModbusPoint δ)) (pending : s.pending[i]? = some (call, msg)) :
      TableTransition s (.deliver i) { s with
        poll := { s.poll with vPoint := msg }
        pending := s.pending.eraseIdx i
        delivered := some call }

variable {s s' : TableState δ}

/-- A defined step is one of the transitions. -/
theorem step_transition {e : TableEvent δ} (h : s.step e = some s') : TableTransition s e s' := by
  cases e with
  | line e =>
      cases e with
      | arrive port bytes =>
          obtain rfl := Option.some.inj h
          exact .arrive port bytes
      | own e =>
          cases e with
          | poll =>
              obtain ⟨poll, hpoll, rfl⟩ := Option.map_eq_some_iff.mp h
              obtain ⟨t, ht, rfl⟩ := Option.map_eq_some_iff.mp hpoll
              exact .poll t (PollState.step_transition ht)
          | recv recvLen =>
              obtain ⟨t, ht, rfl⟩ := Option.map_eq_some_iff.mp h
              exact .recv recvLen t (recvStep_transition ht)
          | spurious =>
              obtain rfl := Option.some.inj h
              exact .spurious
          | point | devices => cases h
  | edit file =>
      obtain rfl := Option.some.inj h
      exact .edit file
  | create device port =>
      obtain ⟨t, ht, rfl⟩ := Option.map_eq_some_iff.mp h
      obtain ⟨idle, ht⟩ := Option.ite_none_right_eq_some.mp ht
      obtain rfl := Option.some.inj ht
      exact .create device port idle
  | keep order =>
      obtain ⟨-, h⟩ := Option.ite_none_right_eq_some.mp h
      obtain ⟨t, ht, rfl⟩ := Option.map_eq_some_iff.mp h
      obtain ⟨idle, ht⟩ := Option.ite_none_right_eq_some.mp ht
      obtain rfl := Option.some.inj ht
      exact .keep order idle
  | deliver i =>
      simp only [step] at h
      split at h
      · cases h
      next call msg pending =>
        obtain rfl := Option.some.inj h
        exact .deliver i call msg pending

end TableState

/-! ## The invariant -/

/-- The polling thread is in the loop over the blocks of a device. -/
def PollPc.inDevice : PollPc → Bool
  | .assemble | .disarm | .notify | .parse | .retryDisarm | .retryNotify | .answered => true
  | .idle | .next | .publish => false

/-- The requests of a poll. -/
def DevicePoll.requests (p : DevicePoll) : List Request :=
  p.sent.map fun q => ⟨p.device, q.1, q.2⟩

/-- The poll has begun with the first block, has requested every block of the table that its object
has read, and has left the counter as it was. -/
def DevicePoll.Finished (loaded : List (List (ModbusPoint δ))) (p : DevicePoll) : Prop :=
  ∃ table, loaded[p.origin]? = some table ∧ p.first = 0 ∧ p.sent = tableFrames table ∧
    p.last = some 0

/-- What is in a list stays there. -/
theorem getElem?_append_of {α : Type*} {l l' : List α} {i : ℕ} {a : α} (h : l[i]? = some a) :
    (l ++ l')[i]? = some a := by
  obtain ⟨hlt, -⟩ := List.getElem?_eq_some_iff.mp h
  rw [List.getElem?_append_left hlt, h]

/-- A poll that is over does not depend on what is loaded later. -/
theorem DevicePoll.Finished.append {loaded : List (List (ModbusPoint δ))} {p : DevicePoll}
    (h : p.Finished loaded) (more : List (List (ModbusPoint δ))) : p.Finished (loaded ++ more) := by
  obtain ⟨own, hown, hp⟩ := h
  exact ⟨own, getElem?_append_of hown, hp⟩

namespace TableState

/-- The tables are what was read from the file. -/
structure Tables (s : TableState δ) : Prop where
  own : ∀ p ∈ s.poll.protocolInfoMap, s.loaded[s.origin p.1]? = some p.2.vPoint
  message : ∀ q ∈ s.pending, s.loaded[q.1]? = some q.2
  vPoint : ∀ call ∈ s.delivered, s.loaded[call]? = some s.poll.vPoint
  undelivered : s.delivered = none → s.poll.vPoint = []

/-- The poll of the current device so far. -/
def Current (s : TableState δ) (p : DevicePoll) : Prop :=
  ∃ device m, s.poll.protocolInfoMap[s.poll.it]? = some (device, m) ∧
    m.nextPkg = s.poll.pointCount ∧ s.poll.pointCount ≤ m.vPoint.length ∧
    p = ⟨device, s.origin device, 0, (tableFrames m.vPoint).take s.poll.pointCount, none⟩

/-- `nextPkg` is `pointCount` in the current object and `0` in the others. -/
structure Polls (s : TableState δ) : Prop where
  clean : ∀ i device m, s.poll.protocolInfoMap[i]? = some (device, m) →
    (s.poll.pollPc.inDevice = true → i ≠ s.poll.it) → m.nextPkg = 0
  between : s.poll.pollPc.inDevice = false → ∀ p ∈ s.polls, p.Finished s.loaded
  current : s.poll.pollPc.inDevice = true →
    ∃ p rest, s.polls = p :: rest ∧ s.Current p ∧ ∀ q ∈ rest, q.Finished s.loaded
  requests : s.poll.requests = s.polls.reverse.flatMap DevicePoll.requests

/-- The tables are those of the file, and the polls go through them. -/
structure Inv (s : TableState δ) : Prop where
  tables : s.Tables
  polls : s.Polls

/-- At the start there is neither. -/
theorem Initial.inv {s : TableState δ} (h : s.Initial) : s.Inv where
  tables := {
    own p hp := by simp [h.protocolInfoMap] at hp
    message q hq := by simp [h.pending] at hq
    vPoint call hcall := by simp [h.delivered] at hcall
    undelivered _ := h.vPoint }
  polls := {
    clean i device m hm := by simp [h.protocolInfoMap] at hm
    between _ p hp := by simp [h.polls] at hp
    current hpc := by simp [h.pollPc, PollPc.inDevice] at hpc
    requests := by simp [h.requests, h.polls] }

variable {s s' : TableState δ}

/-- Steps that leave the polling thread at its block, or outside of the devices. -/
theorem Polls.congr (hs : s.Polls) (hpc : s'.poll.pollPc.inDevice = s.poll.pollPc.inDevice)
    (hmap : s'.poll.protocolInfoMap = s.poll.protocolInfoMap)
    (hat : s.poll.pollPc.inDevice = true →
      s'.poll.it = s.poll.it ∧ s'.poll.pointCount = s.poll.pointCount)
    (hrequests : s'.poll.requests = s.poll.requests) (hloaded : s'.loaded = s.loaded)
    (horigin : s'.origin = s.origin) (hpolls : s'.polls = s.polls) : s'.Polls where
  clean i device m hm hi := by
    rw [hmap] at hm
    rw [hpc] at hi
    exact hs.clean i device m hm fun h => (hat h).1 ▸ hi h
  between h := by
    rw [hpc] at h
    rw [hpolls, hloaded]
    exact hs.between h
  current h := by
    rw [hpc] at h
    obtain ⟨hit, hcount⟩ := hat h
    simp only [Current, hpolls, hloaded, hmap, hit, hcount, horigin]
    exact hs.current h
  requests := by rw [hrequests, hpolls, hs.requests]

section Poll

variable {t : PollState δ}

/-- Steps of a poll between the requests. -/
theorem recordPoll_of_ne (hnext : s.poll.pollPc ≠ .next) (hassemble : s.poll.pollPc ≠ .assemble) :
    s.recordPoll s.poll t = s.polls := by
  unfold recordPoll
  split
  next pc _ => exact absurd pc hnext
  next pc _ => exact absurd pc hassemble
  · rfl

/-- A poll begins. -/
theorem Polls.startDevice (hs : s.Polls) {device : String} {m : Modbus δ}
    (pc : s.poll.pollPc = .next) (at_it : s.poll.protocolInfoMap[s.poll.it]? = some (device, m))
    (hpc : t.pollPc = .assemble) (hmap : t.protocolInfoMap = s.poll.protocolInfoMap)
    (hit : t.it = s.poll.it) (hcount : t.pointCount = 0)
    (hrequests : t.requests = s.poll.requests) :
    Polls { s with poll := t, polls := s.recordPoll s.poll t } := by
  have hout : s.poll.pollPc.inDevice = false := by rw [pc]; rfl
  -- between two devices every counter is at zero
  have hclean : ∀ i device (m : Modbus δ), s.poll.protocolInfoMap[i]? = some (device, m) →
      m.nextPkg = 0 := fun i device m hm => hs.clean i device m hm fun h => by simp [hout] at h
  have hrecord : s.recordPoll s.poll t =
      ⟨device, s.origin device, m.nextPkg, [], none⟩ :: s.polls := by
    simp [recordPoll, pc, at_it]
  refine ⟨fun i device m hm _ => ?_, fun h => ?_, fun _ => ?_, ?_⟩
  · rw [hmap] at hm
    exact hclean i device m hm
  · simp [hpc, PollPc.inDevice] at h
  · refine ⟨_, s.polls, hrecord, ⟨device, m, ?_, ?_, ?_, ?_⟩, hs.between hout⟩
    · simp only [hmap, hit, at_it]
    · simp only [hcount, hclean _ _ _ at_it]
    · simp only [hcount, Nat.zero_le]
    · simp only [hcount, hclean _ _ _ at_it, List.take_zero]
  · simp only [hrecord, hrequests, hs.requests, List.reverse_cons, List.flatMap_append]
    simp [DevicePoll.requests]

/-- The objects that are not polled keep their counters. -/
theorem Polls.clean_set (hs : s.Polls) {q : String × Modbus δ}
    {i : ℕ} {device : String} {m : Modbus δ} (hi : i ≠ s.poll.it)
    (hm : (s.poll.protocolInfoMap.set s.poll.it q)[i]? = some (device, m)) : m.nextPkg = 0 := by
  rw [List.getElem?_set_ne (Ne.symm hi)] at hm
  exact hs.clean i device m hm fun _ => hi

/-- The poll that is under way when the next block is due. -/
theorem Polls.underWay (hs : s.Polls) {device : String} {m : Modbus δ}
    (pc : s.poll.pollPc = .assemble)
    (at_it : s.poll.protocolInfoMap[s.poll.it]? = some (device, m)) :
    m.nextPkg = s.poll.pointCount ∧ s.poll.pointCount ≤ m.vPoint.length ∧
      ∃ rest, s.polls = ⟨device, s.origin device, 0,
          (tableFrames m.vPoint).take s.poll.pointCount, none⟩ :: rest ∧
        ∀ p ∈ rest, p.Finished s.loaded := by
  have hin : s.poll.pollPc.inDevice = true := by rw [pc]; rfl
  obtain ⟨p, rest, hpolls, ⟨device', m₀, hm₀, hcount, hle, rfl⟩, hrest⟩ := hs.current hin
  obtain ⟨rfl, rfl⟩ : device = device' ∧ m = m₀ :=
    Prod.mk.inj (Option.some.inj (at_it.symm.trans hm₀))
  exact ⟨hcount, hle, rest, hpolls, hrest⟩

/-- A poll ends. -/
theorem Polls.endDevice (hs : s.Polls) (htables : s.Tables) {device : String} {m m' : Modbus δ}
    {sendBuf : List UInt8} (pc : s.poll.pollPc = .assemble)
    (at_it : s.poll.protocolInfoMap[s.poll.it]? = some (device, m))
    (assembled : assemblePacket m = some (-1, sendBuf, m')) (hpc : t.pollPc = .publish)
    (hmap : t.protocolInfoMap = s.poll.protocolInfoMap.set s.poll.it (device, m'))
    (hit : t.it = s.poll.it) (hrequests : t.requests = s.poll.requests) :
    Polls { s with poll := t, polls := s.recordPoll s.poll t } := by
  obtain ⟨hcount, hle, rest, hpolls, hrest⟩ := hs.underWay pc at_it
  obtain ⟨hend, rfl⟩ := assemblePacket_end assembled
  -- `AssemblePacket` puts the counter back
  have hset : t.protocolInfoMap[t.it]? = some (device, { m with nextPkg := 0 }) := by
    rw [hmap, hit]
    exact PollState.device_set at_it
  have hrecord : s.recordPoll s.poll t = ⟨device, s.origin device, 0,
      (tableFrames m.vPoint).take s.poll.pointCount, some 0⟩ :: rest := by
    simp [recordPoll, pc, at_it, hpolls, hpc, hset]
  refine ⟨fun i device m hm _ => ?_, fun _ p hp => ?_, fun h => ?_, ?_⟩
  · simp only [hmap] at hm
    by_cases hi : i = s.poll.it
    · rw [hi, PollState.device_set at_it] at hm
      cases hm
      rfl
    · exact hs.clean_set hi hm
  · simp only [hrecord, List.mem_cons] at hp
    rcases hp with rfl | hp
    · refine ⟨m.vPoint, htables.own _ (List.mem_of_getElem? at_it), rfl, ?_, rfl⟩
      exact List.take_of_length_le (by rw [length_tableFrames]; omega)
    · exact hrest p hp
  · simp [hpc, PollPc.inDevice] at h
  · simp only [hrecord, hrequests, hs.requests, hpolls, List.reverse_cons, List.flatMap_append]
    simp [DevicePoll.requests]

/-- A poll goes on with the next block. -/
theorem Polls.request (hs : s.Polls) {device : String} {m m' : Modbus δ} {sendLen : Int}
    {sendBuf : List UInt8} (pc : s.poll.pollPc = .assemble)
    (at_it : s.poll.protocolInfoMap[s.poll.it]? = some (device, m))
    (assembled : assemblePacket m = some (sendLen, sendBuf, m')) (sent : sendLen ≠ -1)
    (hpc : t.pollPc = .disarm)
    (hmap : t.protocolInfoMap = s.poll.protocolInfoMap.set s.poll.it (device, m'))
    (hit : t.it = s.poll.it) (hcount' : t.pointCount = s.poll.pointCount + 1)
    (hrequests : t.requests = s.poll.requests ++ [⟨device, s.poll.pointCount, sendBuf⟩]) :
    Polls { s with poll := t, polls := s.recordPoll s.poll t } := by
  obtain ⟨hcount, -, rest, hpolls, hrest⟩ := hs.underWay pc at_it
  obtain ⟨point, hpoint, rfl, rfl⟩ := assemblePacket_sent assembled sent
  rw [hcount] at hpoint
  -- one frame more of the table
  have htake : (tableFrames m.vPoint).take s.poll.pointCount ++
      [(s.poll.pointCount, pointFrame point)] =
        (tableFrames m.vPoint).take (s.poll.pointCount + 1) := by
    rw [List.take_add_one, tableFrames_getElem? hpoint]
    rfl
  have hrecord : s.recordPoll s.poll t = ⟨device, s.origin device, 0,
      (tableFrames m.vPoint).take (s.poll.pointCount + 1), none⟩ :: rest := by
    simp [recordPoll, pc, at_it, hpolls, hpc, hrequests, htake]
  refine ⟨fun i device m hm hi => ?_, fun h => ?_, fun _ => ?_, ?_⟩
  · simp only [hmap] at hm
    have hne : i ≠ s.poll.it := by simpa [hpc, hit, PollPc.inDevice] using hi
    exact hs.clean_set hne hm
  · simp [hpc, PollPc.inDevice] at h
  · refine ⟨_, rest, hrecord,
      ⟨device, { m with nextPkg := m.nextPkg + 1 }, ?_, ?_, ?_, ?_⟩, hrest⟩
    · rw [hmap, hit]
      exact PollState.device_set at_it
    · simp only [hcount, hcount']
    · obtain ⟨hlt, -⟩ := List.getElem?_eq_some_iff.mp hpoint
      rw [hcount']
      exact hlt
    · simp only [hcount']
  · simp only [hrecord, hrequests, hs.requests, hpolls, List.reverse_cons, List.flatMap_append,
      List.append_assoc]
    simp [DevicePoll.requests, ← htake]

variable [CDouble δ] {line : ℕ → List UInt8}

/-- The steps of the polling thread. -/
theorem Polls.poll (hs : s.Polls) (htables : s.Tables)
    (h : PollTransition transparent anyReply s.poll .poll t) :
    Polls { s with
      poll := { t with line }, polls := s.recordPoll s.poll { t with line } } := by
  cases h with
  | startRound pc =>
      have hout : s.poll.pollPc.inDevice = false := by rw [pc]; rfl
      exact hs.congr hout.symm rfl (by simp [hout]) rfl rfl rfl
        (recordPoll_of_ne (by simp [pc]) (by simp [pc]))
  | endRound pc at_it =>
      have hout : s.poll.pollPc.inDevice = false := by rw [pc]; rfl
      exact hs.congr hout.symm rfl (by simp [hout]) rfl rfl rfl (by simp [recordPoll, pc, at_it])
  | startDevice device m pc at_it => exact hs.startDevice pc at_it rfl rfl rfl rfl rfl
  | endDevice device m m' sendBuf pc at_it assembled =>
      exact hs.endDevice htables pc at_it assembled rfl rfl rfl rfl
  | request device m m' sendLen sendBuf point pc at_it assembled sent =>
      exact hs.request pc at_it assembled sent rfl rfl rfl rfl rfl
  | disarm pc | retryDisarm pc | answered _ pc =>
      exact hs.congr (by rw [pc]; rfl) rfl (fun _ => ⟨rfl, rfl⟩) rfl rfl rfl
        (recordPoll_of_ne (by simp [pc]) (by simp [pc]))
  | notify pc =>
      rcases pc with pc | pc <;>
        exact hs.congr (by rw [pc]; rfl) rfl (fun _ => ⟨rfl, rfl⟩) rfl rfl rfl
          (recordPoll_of_ne (by simp [pc]) (by simp [pc]))
  | parse pc =>
      refine hs.congr ?_ rfl (fun _ => ⟨rfl, rfl⟩) rfl rfl rfl
        (recordPoll_of_ne (by simp [pc]) (by simp [pc]))
      simp only [parseStep]
      split <;> rw [pc] <;> rfl
  | publish device m pc at_it =>
      have hout : s.poll.pollPc.inDevice = false := by rw [pc]; rfl
      exact hs.congr hout.symm rfl (by simp [hout]) rfl rfl rfl
        (recordPoll_of_ne (by simp [pc]) (by simp [pc]))

end Poll

/-! ## Steps -/

/-- The same objects with the same tables. -/
theorem Tables.congr (hs : s.Tables)
    (hmap : ∀ p ∈ s'.poll.protocolInfoMap, ∃ q ∈ s.poll.protocolInfoMap,
      q.1 = p.1 ∧ q.2.vPoint = p.2.vPoint)
    (hvPoint : s'.poll.vPoint = s.poll.vPoint) (hloaded : s'.loaded = s.loaded)
    (horigin : s'.origin = s.origin) (hpending : s'.pending = s.pending)
    (hdelivered : s'.delivered = s.delivered) : s'.Tables where
  own p hp := by
    obtain ⟨q, hq, hname, htable⟩ := hmap p hp
    rw [hloaded, horigin, ← hname, ← htable]
    exact hs.own q hq
  message := by
    rw [hpending, hloaded]
    exact hs.message
  vPoint := by
    rw [hdelivered, hloaded, hvPoint]
    exact hs.vPoint
  undelivered h := by
    rw [hdelivered] at h
    rw [hvPoint]
    exact hs.undelivered h

/-- `AssemblePacket` does not touch the table. -/
theorem vPoint_of_assemblePacket {m m' : Modbus δ} {sendLen : Int} {sendBuf : List UInt8}
    (h : assemblePacket m = some (sendLen, sendBuf, m')) : m'.vPoint = m.vPoint := by
  by_cases hlen : sendLen = -1
  · subst hlen
    rw [(assemblePacket_end h).2]
  · obtain ⟨-, -, -, rfl⟩ := assemblePacket_sent h hlen
    rfl

/-- A step that changes nothing that the tables and the polls depend on. -/
theorem Inv.congr {t : PollState δ} (hs : s.Inv) (hpc : t.pollPc = s.poll.pollPc)
    (hmap : t.protocolInfoMap = s.poll.protocolInfoMap) (hit : t.it = s.poll.it)
    (hcount : t.pointCount = s.poll.pointCount) (hrequests : t.requests = s.poll.requests)
    (hvPoint : t.vPoint = s.poll.vPoint) : Inv { s with poll := t } where
  tables := hs.tables.congr (fun p hp => ⟨p, hmap ▸ hp, rfl, rfl⟩) hvPoint rfl rfl rfl rfl
  polls := hs.polls.congr (congrArg _ hpc) hmap (fun _ => ⟨hit, hcount⟩) hrequests rfl rfl rfl

/-- The set of objects changes between two rounds. -/
theorem Polls.devices (hs : s.Polls) (hpc : s.poll.pollPc = .idle)
    (hclean : ∀ p ∈ s'.poll.protocolInfoMap, p.2.nextPkg = 0)
    (hpc' : s'.poll.pollPc = s.poll.pollPc) (hrequests : s'.poll.requests = s.poll.requests)
    (hpolls : s'.polls = s.polls)
    (hloaded : s.loaded <+: s'.loaded) : s'.Polls where
  clean i device m hm _ := hclean _ (List.mem_of_getElem? hm)
  between _ p hp := by
    rw [hpolls] at hp
    have hfinished := hs.between (by rw [hpc]; rfl) p hp
    obtain ⟨more, hloaded⟩ := hloaded
    rw [← hloaded]
    exact hfinished.append more
  current h := by simp [hpc', hpc, PollPc.inDevice] at h
  requests := by rw [hrequests, hpolls, hs.requests]

/-- Between two rounds every object is about to request its first block. -/
theorem Polls.clean_mem (hs : s.Polls) (hpc : s.poll.pollPc = .idle) {p : String × Modbus δ}
    (hp : p ∈ s.poll.protocolInfoMap) : p.2.nextPkg = 0 := by
  obtain ⟨i, hi⟩ := List.mem_iff_getElem?.mp hp
  exact hs.clean i p.1 p.2 hi fun h => by simp [hpc, PollPc.inDevice] at h

/-- A new object has read the file. -/
theorem Tables.create (hs : s.Tables) (device : String) (port : ℕ) :
    Tables { s with
      poll := { s.poll with protocolInfoMap := s.created device port }
      loaded := s.loaded ++ [s.file]
      pending := s.pending ++ [(s.loaded.length, s.file)]
      origin := Function.update s.origin device s.loaded.length } where
  own p hp := by
    rcases List.mem_cons.mp hp with rfl | hp
    · simp [Modbus.new]
    · obtain ⟨hp, hne⟩ := List.mem_filter.mp hp
      -- a device that keeps its object keeps its table
      have horigin : Function.update s.origin device s.loaded.length p.1 = s.origin p.1 :=
        Function.update_of_ne (of_decide_eq_true hne) ..
      simp only [horigin]
      exact getElem?_append_of (hs.own p hp)
  message q hq := by
    rcases List.mem_append.mp hq with hq | hq
    · exact getElem?_append_of (hs.message q hq)
    · obtain rfl := List.mem_singleton.mp hq
      simp
  vPoint call hcall := getElem?_append_of (hs.vPoint call hcall)
  undelivered := hs.undelivered

section Steps

variable [CDouble δ] {t : PollState δ} {line : ℕ → List UInt8}

/-- The polling thread does not touch the tables. -/
theorem Tables.poll (hs : s.Tables) (h : PollTransition transparent anyReply s.poll .poll t)
    (polls : List DevicePoll) : Tables { s with poll := { t with line }, polls } := by
  have hset : ∀ {device : String} {m m' : Modbus δ},
      s.poll.protocolInfoMap[s.poll.it]? = some (device, m) → m'.vPoint = m.vPoint →
      ∀ p ∈ s.poll.protocolInfoMap.set s.poll.it (device, m'),
        ∃ q ∈ s.poll.protocolInfoMap, q.1 = p.1 ∧ q.2.vPoint = p.2.vPoint := by
    intro device m m' at_it hkeep p hp
    rcases List.mem_or_eq_of_mem_set hp with hp | rfl
    · exact ⟨p, hp, rfl, rfl⟩
    · exact ⟨_, List.mem_of_getElem? at_it, rfl, hkeep.symm⟩
  cases h with
  | endDevice device m m' sendBuf pc at_it assembled
  | request device m m' sendLen sendBuf point pc at_it assembled =>
      exact hs.congr (hset at_it (vPoint_of_assemblePacket assembled)) rfl rfl rfl rfl rfl
  | startRound | endRound | startDevice | disarm | retryDisarm | notify | parse | answered
  | publish => exact hs.congr (fun p hp => ⟨p, hp, rfl, rfl⟩) rfl rfl rfl rfl rfl

/-- The receive thread touches neither the tables nor the polls. -/
theorem Inv.recv {recvLen : ℕ} (hs : s.Inv)
    (h : PollTransition transparent anyReply s.poll (.recv recvLen) t) :
    Inv { s with poll := t } := by
  cases h with
  | test | block | capture | readNothing | read | append | rearm =>
      exact hs.congr rfl rfl rfl rfl rfl rfl

/-- Every step keeps both. -/
theorem Inv.step {e : TableEvent δ} (hs : s.Inv) (h : s.step e = some s') : s'.Inv := by
  cases step_transition h with
  | poll t ht => exact ⟨hs.tables.poll ht _, hs.polls.poll hs.tables ht⟩
  | recv recvLen t ht => exact hs.recv ht
  | arrive | spurious => exact hs.congr rfl rfl rfl rfl rfl rfl
  | edit file =>
      exact ⟨hs.tables.congr (fun p hp => ⟨p, hp, rfl, rfl⟩) rfl rfl rfl rfl rfl,
        hs.polls.congr rfl rfl (fun _ => ⟨rfl, rfl⟩) rfl rfl rfl rfl⟩
  | create device port idle =>
      refine ⟨hs.tables.create device port, hs.polls.devices idle ?_ rfl rfl rfl ⟨_, rfl⟩⟩
      intro p hp
      rcases List.mem_cons.mp hp with rfl | hp
      · rfl
      · exact hs.polls.clean_mem idle (List.mem_of_mem_filter hp)
  -- objects may be removed and come in another order
  | keep order idle =>
      have hmem : ∀ p ∈ s.kept order, p ∈ s.poll.protocolInfoMap := by
        intro p hp
        obtain ⟨i, -, hi⟩ := List.mem_filterMap.mp hp
        exact List.mem_of_getElem? hi
      exact ⟨hs.tables.congr (fun p hp => ⟨p, hmem p hp, rfl, rfl⟩) rfl rfl rfl rfl rfl,
        hs.polls.devices idle (fun p hp => hs.polls.clean_mem idle (hmem p hp)) rfl rfl rfl
          ⟨[], by simp⟩⟩
  -- the delivery replaces `v_point` by what was published
  | deliver i call msg hmsg =>
      refine ⟨⟨hs.tables.own, fun q hq => ?_, fun call' hcall => ?_, by simp⟩,
        hs.polls.congr rfl rfl (fun _ => ⟨rfl, rfl⟩) rfl rfl rfl rfl⟩
      · exact hs.tables.message q (List.mem_of_mem_eraseIdx hq)
      · obtain rfl := Option.some.inj hcall
        exact hs.tables.message _ (List.mem_of_getElem? hmsg)

end Steps

end TableState

end CsiFirmware.Task
