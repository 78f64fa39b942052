import CsiFirmware.Lib.Threads
import CsiFirmware.Task.Association
import CsiFirmware.Task.PortIdentity

/-!
# The address in a request

Reference: `Modbus::AssemblePacket`, `TaskSerial::loadAllList` and `TaskSerial::serialTaskRun`.

A device is added with its address, and the device list carries it to `TaskSerial`. A protocol
object is created from the port of the device alone, and `AssemblePacket` writes the constant `0x01`
where the address belongs. Of the slaves on a line the one with the address in the frame answers.

The polling thread goes through `protocolInfoMap` in the order of a `std::unordered_map`, which may
be any order and another one after every change of the map. `addressed_iff` says in which runs the
requests and readings are those of the right slave.
-/

namespace CsiFirmware.Task

open Protocol Runs

variable {δ : Type}

/-! ## The lists and the polling thread -/

/-- The entries of a `std::unordered_map`, if `order` is an order of its names. -/
def iterated {β : Type} (m : StringMap β) (order : List String) : Option (List (String × β)) :=
  if order.Perm m.keys then some (order.filterMap fun name => (m.lookup name).map (name, ·))
  else none

/-- The address that a frame is sent to. -/
def frameAddress (frame : List UInt8) : Option Int := frame.head?.map fun b => (b.toNat : Int)

/-- The members of `TaskSerial`. -/
structure TaskSerial (δ : Type) where
  lists : TaskLists δ
  poll : PollState δ
  /-- For each request, the devices in the list with the name of the entry that was polled. -/
  polled : List (List DevInfo)

/-- What can happen next. -/
inductive SerialEvent (δ : Type) where
  /-- A callback on one of the lists, or `loadAllList`, after which the map is in some order. -/
  | lists (e : TaskLists.ListEvent) (order : List String)
  | poll (e : PollEvent δ)

namespace TaskSerial

/-- Nothing has happened since the constructor. -/
structure Initial (s : TaskSerial δ) : Prop where
  lists : s.lists = TaskLists.init
  poll : s.poll.Initial
  protocolInfoMap : s.poll.protocolInfoMap = []
  polled : s.polled = []

/-- The address that the next request is sent to. -/
def asked (s : TaskSerial δ) : Int :=
  (s.poll.nextRequest.bind fun next => frameAddress next.2).getD 0

/-- The devices in the list with the name of the current entry. -/
def current (s : TaskSerial δ) : List DevInfo :=
  s.lists.devList.filter fun dev => dev.devName = s.poll.device

variable [CDouble δ] (env : Environment δ) (tty : ℕ → UInt8 → List UInt8)
  (slaves : Int → ℕ → PositiveReply)

/-- `slaves addr k` is the reply to request `k` of the slave with the address `addr` on its line.
Between two rounds `nextPkg` is `0` in every protocol object, as it is in a new one. -/
def step (s : TaskSerial δ) : SerialEvent δ → Option (TaskSerial δ)
  | .lists e order =>
      -- the callbacks and `serialTaskRun` exclude each other by `list_mutex`
      if s.poll.pollPc = .idle then
        (TaskLists.step env s.lists e).bind fun lists =>
          (iterated lists.protocolInfoMap order).map fun protocolInfoMap =>
            { s with lists, poll := { s.poll with protocolInfoMap } }
      else none
  | .poll (.devices _) => none
  | .poll e =>
      (s.poll.step tty (slaves s.asked) e).map fun poll =>
        { s with
          poll
          polled := if s.poll.requests.length < poll.requests.length then s.polled ++ [s.current]
            else s.polled }

end TaskSerial

/-! ## Requests -/

/-- The address of a frame. -/
theorem frameAddress_requestFrame (pkg : ModbusPkg) :
    frameAddress (requestFrame pkg) = some 1 := rfl

/-- Every frame has the constant address. -/
theorem frameAddress_assemblePacket {m m' : Modbus δ} {sendLen : Int} {sendBuf : List UInt8}
    (h : assemblePacket m = some (sendLen, sendBuf, m')) (hlen : sendLen ≠ -1) :
    frameAddress sendBuf = some 1 := by
  unfold assemblePacket at h
  split at h
  · split at h
    next pkg _ _ =>
      cases h
      exact frameAddress_requestFrame pkg
    · cases h
  · cases h
    exact absurd rfl hlen

namespace PollState

variable {s s' : PollState δ} {tty : ℕ → UInt8 → List UInt8} {reply reply' : ℕ → PositiveReply}

/-- The next frame has the constant address. -/
theorem frameAddress_nextRequest {port : ℕ} {frame : List UInt8}
    (h : s.nextRequest = some (port, frame)) : frameAddress frame = some 1 := by
  obtain ⟨p, -, hsent⟩ := Option.bind_eq_some_iff.mp h
  obtain ⟨⟨sendLen, sendBuf, m'⟩, hassemble, hframe⟩ := Option.bind_eq_some_iff.mp hsent
  obtain ⟨hlen, hframe⟩ := Option.ite_none_left_eq_some.mp hframe
  obtain ⟨-, rfl⟩ := Prod.mk.inj (Option.some.inj hframe)
  exact frameAddress_assemblePacket hassemble hlen

variable [CDouble δ]

/-- Without a request no slave is asked. -/
theorem assembleStep_congr (h : s.nextRequest = none) :
    assembleStep tty reply s = assembleStep tty reply' s := by
  unfold assembleStep
  split
  · rfl
  next device m at_it =>
    split
    · rfl
    next sendLen sendBuf m' assembled =>
      have hlen : sendLen = -1 := by
        rw [nextRequest_eq at_it assembled] at h
        by_contra hlen
        rw [if_neg hlen] at h
        cases h
      rw [if_pos hlen, if_pos hlen]

/-- A step does not depend on replies that are not asked for. -/
theorem step_congr (h : s.nextRequest = none) (e : PollEvent δ) :
    s.step tty reply e = s.step tty reply' e := by
  cases e with
  | poll =>
      rw [step, step, pollStep, pollStep]
      cases hpc : s.pollPc with
      | assemble => exact assembleStep_congr h
      | idle | next | disarm | notify | parse | retryDisarm | retryNotify | answered
      | publish => rfl
  | recv | spurious | point | devices => rfl

end PollState

/-! ## Between two rounds -/

/-- `AssemblePacket` only moves `nextPkg`, and moves it back at the end of the table. -/
theorem object_of_assemblePacket {m m' : Modbus δ} {sendLen : Int} {sendBuf : List UInt8}
    (h : assemblePacket m = some (sendLen, sendBuf, m')) :
    ∃ nextPkg, m' = { m with nextPkg } ∧ (sendLen = -1 → nextPkg = 0) := by
  unfold assemblePacket at h
  split at h
  · split at h
    · cases h
      exact ⟨_, rfl, by simp⟩
    · cases h
  · cases h
    exact ⟨0, rfl, fun _ => rfl⟩

/-- Every protocol object in the lists is about to request its first block. -/
def Unstarted (s : TaskLists δ) : Prop :=
  ∀ name m, s.protocolInfoMap.lookup name = some m → m.nextPkg = 0

/-- The objects that `loadAllList` makes are new. -/
theorem unstarted_loadAllList {env : Environment δ} {s : TaskLists δ} (h : Unstarted s) :
    Unstarted (TaskLists.loadAllList env s) := by
  intro name m hm
  rcases TaskLists.lookup_loadAllList env s name with ⟨hlookup, -⟩ | ⟨-, -, -, -, p, -, hlookup⟩
  · exact h name m (hlookup ▸ hm)
  · obtain rfl := Option.some.inj (hlookup.symm.trans hm)
    rfl

/-- A new protocol object starts with its first block. -/
theorem Unstarted.step {env : Environment δ} {s s' : TaskLists δ} {e : TaskLists.ListEvent}
    (h : Unstarted s) (hs : TaskLists.step env s e = some s') : Unstarted s' := by
  cases e with
  | devices msg =>
      rcases TaskLists.onDevList_cases hs with
        ⟨-, rfl⟩ | ⟨-, -, dev, -, rfl⟩ | ⟨-, -, rfl⟩
      · exact h
      · intro name m hm
        change (TaskLists.bindDevice env s dev).protocolInfoMap.lookup name = some m at hm
        rw [TaskLists.lookup_bindDevice] at hm
        split_ifs at hm
        · obtain ⟨_, -, rfl⟩ := Option.map_eq_some_iff.mp hm
          rfl
        · exact h name m hm
      · exact h
  | serials msg =>
      rcases TaskLists.onSerialList_cases hs with
        ⟨-, rfl⟩ | ⟨-, -, serial, -, rfl⟩ | ⟨-, -, rfl⟩
      · exact h
      · intro name m hm
        change (TaskLists.addSerial env s serial).protocolInfoMap.lookup name = some m at hm
        rw [TaskLists.addSerial_protocolInfoMap] at hm
        exact h name m hm
      · exact h
  | work =>
      obtain rfl := Option.some.inj hs
      rw [TaskLists.work]
      split_ifs
      · exact unstarted_loadAllList h
      · exact h

/-- In whatever order, the entries are those of the map. -/
theorem mem_iterated {β : Type} {m : StringMap β} {order : List String}
    {entries : List (String × β)} (h : iterated m order = some entries) {p : String × β} :
    p ∈ entries ↔ m.lookup p.1 = some p.2 := by
  obtain ⟨horder, h⟩ := Option.ite_none_right_eq_some.mp h
  obtain rfl := Option.some.inj h
  simp only [List.mem_filterMap, Option.map_eq_some_iff]
  constructor
  · rintro ⟨name, -, b, hb, rfl⟩
    exact hb
  · intro hp
    have hkey : p.1 ∈ m := by
      rw [← AList.lookup_isSome, hp]
      rfl
    exact ⟨p.1, horder.mem_iff.mpr (AList.mem_keys.mp hkey), p.2, hp, rfl⟩

/-- The polling thread goes through the map `base`, and only the object of the current entry is not
as it was. -/
def PollState.GoesThrough (base : List (String × Modbus δ)) (s : PollState δ) : Prop :=
  match s.pollPc with
  | .idle | .next | .publish => s.protocolInfoMap = base
  | .assemble | .disarm | .notify | .parse | .retryDisarm | .retryNotify | .answered =>
      ∃ name m nextPkg, base[s.it]? = some (name, m) ∧
        s.protocolInfoMap = base.set s.it (name, { m with nextPkg })

namespace PollState.GoesThrough

variable {base : List (String × Modbus δ)} {s s' : PollState δ} {tty : ℕ → UInt8 → List UInt8}
  {reply : ℕ → PositiveReply}

/-- A step that leaves the map and the place in it. -/
theorem congr (h : s.GoesThrough base) (hpc : s'.pollPc = s.pollPc)
    (hmap : s'.protocolInfoMap = s.protocolInfoMap) (hit : s'.it = s.it) :
    s'.GoesThrough base := by
  unfold GoesThrough at h ⊢
  rw [hpc, hmap, hit]
  exact h

/-- `AssemblePacket` changes the object of the current entry only. -/
theorem set {name : String} {m m' : Modbus δ} (h : s.GoesThrough base) (pc : s.pollPc = .assemble)
    (at_it : s.protocolInfoMap[s.it]? = some (name, m)) {sendLen : Int} {sendBuf : List UInt8}
    (assembled : assemblePacket m = some (sendLen, sendBuf, m')) :
    ∃ m₀ nextPkg, base[s.it]? = some (name, m₀) ∧ (sendLen = -1 → nextPkg = 0) ∧
      s.protocolInfoMap.set s.it (name, m') = base.set s.it (name, { m₀ with nextPkg }) := by
  rw [GoesThrough, pc] at h
  obtain ⟨name₀, m₀, nextPkg₀, hit, hmap⟩ := h
  have hcurrent : some (name₀, { m₀ with nextPkg := nextPkg₀ }) = some (name, m) := by
    rw [← at_it, hmap, Threads.lookup_set_self hit]
  obtain ⟨rfl, rfl⟩ := Prod.mk.inj (Option.some.inj hcurrent)
  obtain ⟨nextPkg, rfl, hback⟩ := object_of_assemblePacket assembled
  exact ⟨m₀, nextPkg, hit, hback, by rw [hmap, List.set_set]⟩

/-- Every step of the threads keeps it, since each object is back where it was when its poll ends.
-/
theorem step [CDouble δ] {e : PollEvent δ} (h : s.GoesThrough base)
    (hbase : ∀ p ∈ base, p.2.nextPkg = 0) (he : ∀ map, e ≠ .devices map)
    (hs : s.step tty reply e = some s') : s'.GoesThrough base := by
  cases PollState.step_transition hs with
  | startRound pc | endRound pc | disarm pc | retryDisarm pc | answered _ pc | publish _ _ pc =>
      rw [GoesThrough, pc] at h
      exact h
  | startDevice name m pc at_it =>
      rw [GoesThrough, pc] at h
      rw [h] at at_it
      obtain ⟨hlt, hget⟩ := List.getElem?_eq_some_iff.mp at_it
      refine ⟨name, m, m.nextPkg, at_it, h.trans ?_⟩
      exact (hget ▸ List.set_getElem_self hlt).symm
  | endDevice name m m' sendBuf pc at_it assembled =>
      -- the object is as it was before its first block
      obtain ⟨m₀, nextPkg, hit, hback, hset⟩ := h.set pc at_it assembled
      have hzero : m₀.nextPkg = 0 := hbase _ (List.mem_of_getElem? hit)
      obtain rfl : nextPkg = m₀.nextPkg := (hback rfl).trans hzero.symm
      obtain ⟨hlt, hget⟩ := List.getElem?_eq_some_iff.mp hit
      exact hset.trans (hget ▸ List.set_getElem_self hlt)
  | request name m m' sendLen sendBuf point pc at_it assembled =>
      obtain ⟨m₀, nextPkg, hit, -, hset⟩ := h.set pc at_it assembled
      exact ⟨name, m₀, nextPkg, hit, hset⟩
  | notify pc =>
      rcases pc with pc | pc <;>
      · rw [GoesThrough, pc] at h
        exact h
  | parse pc =>
      rw [GoesThrough, pc] at h
      rw [GoesThrough, parseStep]
      split_ifs <;> exact h
  | test | block | capture | readNothing | read | append | rearm | spurious | point =>
      exact h.congr rfl rfl rfl
  | devices map => exact absurd rfl (he map)

end PollState.GoesThrough

namespace TaskSerial

variable [CDouble δ] {env : Environment δ} {tty : ℕ → UInt8 → List UInt8}
  {slaves : Int → ℕ → PositiveReply} {s s' : TaskSerial δ} {e : SerialEvent δ}

omit [CDouble δ] in
/-- Whatever slave is asked has the address `1`. -/
theorem asked_eq_one {port : ℕ} {frame : List UInt8}
    (h : s.poll.nextRequest = some (port, frame)) : s.asked = 1 := by
  rw [asked, h, Option.bind_some, PollState.frameAddress_nextRequest h, Option.getD_some]

/-- Whatever the devices say, it is the slave with the address 1 that is asked. -/
theorem poll_step_asked (s : TaskSerial δ) (e : PollEvent δ) :
    s.poll.step tty (slaves s.asked) e = s.poll.step tty (slaves 1) e := by
  cases hnext : s.poll.nextRequest with
  | none => exact PollState.step_congr hnext e
  | some next => rw [asked_eq_one hnext]

/-- The polling thread is about to send a request. -/
def sends (s : TaskSerial δ) : SerialEvent δ → Bool
  | .poll .poll => s.poll.pollPc = .assemble ∧ s.poll.nextRequest.isSome
  | _ => false

variable (env tty slaves) in
/-- All that a step can do. -/
inductive Transition (s : TaskSerial δ) : SerialEvent δ → TaskSerial δ → Prop where
  | lists (e : TaskLists.ListEvent) (order : List String) (lists : TaskLists δ)
      (protocolInfoMap : List (String × Modbus δ)) (idle : s.poll.pollPc = .idle)
      (step : TaskLists.step env s.lists e = some lists)
      (ordered : iterated lists.protocolInfoMap order = some protocolInfoMap) :
      Transition s (.lists e order) { s with lists, poll := { s.poll with protocolInfoMap } }
  | poll (e : PollEvent δ) (poll : PollState δ) (step : s.poll.step tty (slaves 1) e = some poll)
      (own : ∀ protocolInfoMap, e ≠ .devices protocolInfoMap)
      (requests : poll.requests = s.poll.requests) (quiet : s.sends (.poll e) = false) :
      Transition s (.poll e) { s with poll }
  | request (port : ℕ) (frame : List UInt8) (poll : PollState δ) (pc : s.poll.pollPc = .assemble)
      (next : s.poll.nextRequest = some (port, frame))
      (step : s.poll.step tty (slaves 1) .poll = some poll)
      (requests : poll.requests =
        s.poll.requests ++ [⟨s.poll.device, s.poll.pointCount, frame⟩]) :
      Transition s (.poll .poll) { s with poll, polled := s.polled ++ [s.current] }

/-- A defined step is one of the transitions. -/
theorem step_transition (hs : s.step env tty slaves e = some s') :
    Transition env tty slaves s e s' := by
  unfold step at hs
  split at hs
  next le order =>
    obtain ⟨idle, hs⟩ := Option.ite_none_right_eq_some.mp hs
    obtain ⟨lists, hlists, hs⟩ := Option.bind_eq_some_iff.mp hs
    obtain ⟨protocolInfoMap, hordered, rfl⟩ := Option.map_eq_some_iff.mp hs
    exact .lists le order lists protocolInfoMap idle hlists hordered
  next => cases hs
  next pe own =>
    rw [poll_step_asked] at hs
    obtain ⟨poll, hpoll, rfl⟩ := Option.map_eq_some_iff.mp hs
    have hquiet : poll.requests = s.poll.requests → s.sends (.poll pe) = false →
        Transition env tty slaves s (.poll pe) { s with
          poll
          polled := if s.poll.requests.length < poll.requests.length then s.polled ++ [s.current]
            else s.polled } := by
      intro requests quiet
      rw [requests, if_neg (lt_irrefl _)]
      exact .poll pe poll hpoll own requests quiet
    cases PollState.step_transition hpoll with
    | request device m m' sendLen sendBuf point pc at_it assembled sent =>
        have hnext := PollState.nextRequest_eq at_it assembled
        rw [if_neg sent] at hnext
        rw [if_pos (by simp)]
        exact .request m.serial sendBuf _ pc hnext hpoll (by rw [PollState.device_eq at_it])
    | endDevice device m m' sendBuf pc at_it assembled =>
        have hnext := PollState.nextRequest_eq at_it assembled
        exact hquiet rfl (by simp [sends, hnext])
    | startRound pc | endRound pc | startDevice _ _ pc | disarm pc | retryDisarm pc | parse pc
    | answered _ pc | publish _ _ pc => exact hquiet rfl (by simp [sends, pc])
    | notify pc => exact hquiet rfl (by obtain pc | pc := pc <;> simp [sends, pc])
    | test | block | capture | readNothing | read | append | rearm | spurious | point =>
        exact hquiet rfl rfl
    | devices map => exact absurd rfl (own map)

/-- The polling thread goes through the map that the lists have kept since its last round, in some
order. -/
structure Mirrored (s : TaskSerial δ) : Prop where
  unstarted : Unstarted s.lists
  goesThrough : ∃ order base, iterated s.lists.protocolInfoMap order = some base ∧
    s.poll.GoesThrough base

omit [CDouble δ] in
/-- At the start there is no object. -/
theorem Initial.mirrored (h : s.Initial) : s.Mirrored where
  unstarted name m hm := by simp [h.lists, TaskLists.init] at hm
  goesThrough := by
    refine ⟨[], [], by rw [h.lists]; rfl, ?_⟩
    rw [PollState.GoesThrough, h.poll.pollPc]
    exact h.protocolInfoMap

/-- Every step keeps the polling thread on the map of the lists. -/
theorem Mirrored.step (hs : s.Mirrored) (h : s.step env tty slaves e = some s') : s'.Mirrored := by
  obtain ⟨order, base, hordered, hthrough⟩ := hs.goesThrough
  -- the objects in the lists have not been used by the thread's copy
  have hbase : ∀ p ∈ base, p.2.nextPkg = 0 :=
    fun p hp => hs.unstarted p.1 p.2 ((mem_iterated hordered).mp hp)
  cases step_transition h with
  | lists e order' lists protocolInfoMap idle step ordered =>
      refine ⟨hs.unstarted.step step, order', protocolInfoMap, ordered, ?_⟩
      rw [PollState.GoesThrough, idle]
  | poll e poll step own =>
      exact ⟨hs.unstarted, order, base, hordered, hthrough.step hbase own step⟩
  | request port frame poll pc next step =>
      exact ⟨hs.unstarted, order, base, hordered, hthrough.step hbase (fun map => by simp) step⟩

/-- Between two rounds the polling thread and the lists have the same protocol objects. -/
theorem protocolInfoMap_of_idle (h : Reachable (step env tty slaves) Initial s)
    (idle : s.poll.pollPc = .idle) :
    ∃ order, iterated s.lists.protocolInfoMap order = some s.poll.protocolInfoMap := by
  have hs : s.Mirrored := h.invariant (fun _ hs => hs.mirrored) fun _ _ _ hs hstep => hs.step hstep
  obtain ⟨order, base, hordered, hthrough⟩ := hs.goesThrough
  rw [PollState.GoesThrough, idle] at hthrough
  exact ⟨order, hthrough ▸ hordered⟩

/-! ## Addresses -/

/-- Request `k` was sent for the device. -/
def SentFor (s : TaskSerial δ) (k : ℕ) (dev : DevInfo) : Prop :=
  ∃ devs, s.polled[k]? = some devs ∧ dev ∈ devs

/-- Each request has the address of its device, so that devices with different addresses do not get
the same frame, and the readings published for a device are those of the slave with its address. -/
structure Addressed (slaves : Int → ℕ → PositiveReply) (s : TaskSerial δ) : Prop where
  address : ∀ k request dev, s.poll.requests[k]? = some request → s.SentFor k dev →
    frameAddress request.frame = some dev.addr
  distinct : ∀ k k' request request' dev dev', s.poll.requests[k]? = some request →
    s.poll.requests[k']? = some request' → s.SentFor k dev → s.SentFor k' dev' →
      dev.addr ≠ dev'.addr → request.frame ≠ request'.frame
  readings : ∀ p ∈ s.poll.published, ∀ info ∈ p.2, ∃ k request,
    s.poll.requests[k]? = some request ∧ request.device = p.1 ∧
      ∀ dev, s.SentFor k dev → dev.devName = p.1 ∧ PollState.Holds info (slaves dev.addr k)

/-- A step that sends a request does so for a device with the address `1`. -/
def PollsAddressOne (env : Environment δ) (tty : ℕ → UInt8 → List UInt8)
    (slaves : Int → ℕ → PositiveReply) (s : TaskSerial δ) (e : SerialEvent δ) : Prop :=
  (s.step env tty slaves e).isSome → s.sends e → ∀ dev ∈ s.current, dev.addr = 1

instance (s : TaskSerial δ) (e : SerialEvent δ) :
    Decidable (s.PollsAddressOne env tty slaves e) :=
  inferInstanceAs (Decidable (_ → _ → _))

/-- If the step sends a request, the reply to it passes the terminal of the port. -/
def ReplyPasses (tty : ℕ → UInt8 → List UInt8) (slaves : Int → ℕ → PositiveReply)
    (s : TaskSerial δ) : SerialEvent δ → Prop
  | .lists _ _ => True
  | .poll e => s.poll.ReplyPasses tty (slaves s.asked) e

/-- What holds as long as only devices with the address `1` are polled. -/
structure AddressInv (slaves : Int → ℕ → PositiveReply) (s : TaskSerial δ) : Prop where
  poll : s.poll.TtyInv (slaves 1)
  length : s.polled.length = s.poll.requests.length
  address : ∀ request ∈ s.poll.requests, frameAddress request.frame = some 1
  devices : ∀ k request dev, s.poll.requests[k]? = some request → s.SentFor k dev →
    dev.devName = request.device ∧ dev.addr = 1

namespace AddressInv

omit [CDouble δ] in
/-- Requests and readings have the addresses that the invariant gives them. -/
theorem addressed (hs : s.AddressInv slaves) : s.Addressed slaves where
  address k request dev hk hdev := by
    rw [hs.address request (List.mem_of_getElem? hk), (hs.devices k request dev hk hdev).2]
  distinct k k' request request' dev dev' hk hk' hdev hdev' hne := by
    rw [(hs.devices k request dev hk hdev).2, (hs.devices k' request' dev' hk' hdev').2] at hne
    exact absurd rfl hne
  readings p hp info hinfo := by
    have hassociated := hs.poll.associated
    have hmem : (p.1, info) ∈ s.poll.handedOn :=
      List.mem_append_left _ (List.mem_flatMap.mpr ⟨p, hp, List.mem_map_of_mem hinfo⟩)
    rw [hassociated.handedOn] at hmem
    obtain ⟨result, hresult, heq⟩ := List.mem_map.mp hmem
    obtain ⟨hdevice, rfl⟩ := Prod.mk.inj heq
    obtain ⟨k, hk⟩ := List.mem_iff_getElem?.mp hresult
    obtain ⟨hrequest, hholds, -⟩ := hassociated.result k result hk
    refine ⟨k, result.request, hrequest, hdevice, fun dev hdev => ?_⟩
    obtain ⟨hname, haddr⟩ := hs.devices k result.request dev hrequest hdev
    exact ⟨hname.trans hdevice, by rwa [haddr]⟩

omit [CDouble δ] in
/-- A new request is sent for the devices of the current entry. -/
theorem request {port : ℕ} {frame : List UInt8} {poll : PollState δ} (hs : s.AddressInv slaves)
    (next : s.poll.nextRequest = some (port, frame)) (hpoll : poll.TtyInv (slaves 1))
    (requests : poll.requests = s.poll.requests ++ [⟨s.poll.device, s.poll.pointCount, frame⟩])
    (haddr : ∀ dev ∈ s.current, dev.addr = 1) :
    AddressInv slaves { s with poll, polled := s.polled ++ [s.current] } where
  poll := hpoll
  length := by
    rw [requests, List.length_append, List.length_append, hs.length]
    rfl
  address request hrequest := by
    rw [requests, List.mem_append, List.mem_singleton] at hrequest
    rcases hrequest with hrequest | rfl
    · exact hs.address request hrequest
    · exact PollState.frameAddress_nextRequest next
  devices k request dev hk hdev := by
    rw [requests] at hk
    obtain ⟨devs, hdevs, hmem⟩ := hdev
    -- the last request is for the devices of the last entry, the others are as before
    rcases Threads.lookup_concat hk with hk | ⟨rfl, rfl⟩
    · rcases Threads.lookup_concat hdevs with hdevs | ⟨rfl, -⟩
      · exact hs.devices k request dev hk ⟨devs, hdevs, hmem⟩
      · have hlt := (List.getElem?_eq_some_iff.mp hk).1
        rw [hs.length] at hlt
        exact absurd hlt (lt_irrefl _)
    · rcases Threads.lookup_concat hdevs with hdevs | ⟨-, rfl⟩
      · have hlt := (List.getElem?_eq_some_iff.mp hdevs).1
        rw [hs.length] at hlt
        exact absurd hlt (lt_irrefl _)
      · exact ⟨of_decide_eq_true (List.mem_filter.mp hmem).2, haddr dev hmem⟩

/-- A step of the polling or the receive thread, whatever slave it asks. -/
theorem poll_step {pe : PollEvent δ} {poll : PollState δ} (hs : s.AddressInv slaves)
    (hpasses : s.ReplyPasses tty slaves (.poll pe))
    (step : s.poll.step tty (slaves 1) pe = some poll) : poll.TtyInv (slaves 1) := by
  refine hs.poll.step (fun pc port frame next => ?_) step
  have hreply := hpasses pc port frame next
  rwa [asked_eq_one next] at hreply

/-- A step keeps the invariant, if the reply passes and what is polled has the address 1. -/
theorem step (hs : s.AddressInv slaves) (hpasses : s.ReplyPasses tty slaves e)
    (hone : s.PollsAddressOne env tty slaves e) (h : s.step env tty slaves e = some s') :
    s'.AddressInv slaves := by
  have hdefined : (s.step env tty slaves e).isSome := Option.isSome_iff_exists.mpr ⟨s', h⟩
  cases step_transition h with
  | lists e order lists protocolInfoMap idle =>
      have hstep : s.poll.step tty (slaves 1) (.devices protocolInfoMap) =
          some { s.poll with protocolInfoMap } := if_pos idle
      have hpoll := hs.poll.step (fun pc => by rw [idle] at pc; cases pc) hstep
      exact ⟨hpoll, hs.length, hs.address, hs.devices⟩
  | poll e poll step own requests quiet =>
      refine ⟨hs.poll_step hpasses step, ?_, ?_, ?_⟩
      · rw [requests]
        exact hs.length
      · rw [requests]
        exact hs.address
      · rw [requests]
        exact hs.devices
  | request port frame poll pc next step requests =>
      have hsends : s.sends (.poll .poll) := decide_eq_true ⟨pc, by rw [next]; rfl⟩
      exact hs.request next (hs.poll_step hpasses step) requests (hone hdefined hsends)

end AddressInv

/-- One step keeps the addresses right exactly if a request it sends is for the address 1. -/
theorem addressed_step_iff (hs : s.AddressInv slaves) (hpasses : s.ReplyPasses tty slaves e) :
    After (step env tty slaves) (Addressed slaves) s e ↔ s.PollsAddressOne env tty slaves e := by
  constructor
  · intro hafter hdefined hsends dev hdev
    obtain ⟨s', hs'⟩ := Option.isSome_iff_exists.mp hdefined
    have haddressed := hafter s' hs'
    cases step_transition hs' with
    | lists => cases hsends
    | poll e poll step own requests quiet => rw [quiet] at hsends; cases hsends
    | request port frame poll pc next step requests =>
        -- the new request has the constant address and is judged by the device's
        have hlast : poll.requests[s.poll.requests.length]? =
            some ⟨s.poll.device, s.poll.pointCount, frame⟩ := by
          rw [requests, List.getElem?_concat_length]
        have hsent : (s.polled ++ [s.current])[s.poll.requests.length]? = some s.current := by
          rw [← hs.length, List.getElem?_concat_length]
        have haddr := haddressed.address _ _ dev hlast ⟨s.current, hsent, hdev⟩
        rw [PollState.frameAddress_nextRequest next] at haddr
        exact (Option.some.inj haddr).symm
  · exact fun hone s' hs' => (hs.step hpasses hone hs').addressed

omit [CDouble δ] in
/-- At the start nothing has been polled. -/
theorem Initial.addressInv (h : s.Initial) : s.AddressInv slaves where
  poll := h.poll.ttyInv
  length := by
    rw [h.polled, h.poll.requests]
    rfl
  address request hrequest := by simp [h.poll.requests] at hrequest
  devices k request dev hk := by simp [h.poll.requests] at hk

/-- From start-up, whatever the list messages, the tables, the replies, the order of the map and
that in which the threads take their steps: as long as the terminals pass the replies, requests and
readings are those of the right slaves if and only if only devices with the address `1` are polled.
-/
theorem addressed_iff (h : s.Initial) {es : List (SerialEvent δ)}
    (hpasses : StepsMeet (step env tty slaves) (ReplyPasses tty slaves) s es) :
    StepsMeet (step env tty slaves) (After (step env tty slaves) (Addressed slaves)) s es ↔
      StepsMeet (step env tty slaves) (PollsAddressOne env tty slaves) s es := by
  refine stepsMeet_congr (AddressInv slaves) (fun s e hs he => addressed_step_iff hs he) ?_
    h.addressInv hpasses
  -- as long as the property holds, only such devices have been polled
  intro s e s' hs he hafter hs'
  exact hs.step he ((addressed_step_iff hs he).mp hafter) hs'

/-- A serial of the list on an RS-485 line. -/
private def rs485Line : SerialIdInfo :=
  { serialId := 0, statu := 0, serialName := "RS485-1", name := "RS485-1", id := ""
    serialParamInfo := ⟨9600, 8, "1", "N", 0, 0⟩ }

/-- A device on it. -/
private def slave (devName : String) (addr : Int) : DevInfo :=
  { id := "", devName, serialInfo := rs485Line, protocol := "modbus", addr, category := ""
    model := "", sn := "", deviceStatus := 0 }

/-- A block of one register. -/
private def registers : ModbusPoint Decimal :=
  ⟨"运行信息", "", "", ⟨1000000⟩, "", 0, 0, [⟨0x03, (0x0E, 0x10), (0x00, 0x01)⟩]⟩

/-- A function code for reading. -/
private theorem isRead : (0x03 : UInt8) = 0x03 ∨ (0x03 : UInt8) = 0x04 := Or.inl rfl

/-- One register, in which a slave holds its address. -/
private def ownAddress (addr : Int) (_ : ℕ) : PositiveReply where
  addr := UInt8.ofNat addr.toNat
  func := 0x03
  data := [0x00, UInt8.ofNat addr.toNat]
  crc := (0x00, 0x00)
  func_eq := isRead
  data_pos := by simp
  data_le := by simp

/-- Before the lists arrive. -/
private def start : TaskSerial Decimal :=
  { lists := TaskLists.init
    poll :=
      { protocolInfoMap := [], vPoint := [registers], pit := none, isRecvRun := true
        totalRecvBuf := [], pollPc := .idle, it := 0, pointCount := 0, rtSrcInfo := .fresh
        vRtSrcInfo := [], recvPc := .test, line := fun _ => [], requests := [], results := []
        published := [] }
    polled := [] }

/-- The lists arrive, the map is in the order `order`, and its first device is polled. -/
private def firstDevice (devs : List DevInfo) (order : List String) : List (SerialEvent Decimal) :=
  [.lists (.serials [rs485Line]) [], .lists (.devices devs) [], .lists .work order, .poll .poll,
    .poll .poll, .poll .poll, .poll .poll, .poll (.recv 0), .poll (.recv 0), .poll (.recv 7),
    .poll (.recv 0), .poll .poll, .poll .poll, .poll .poll]

/-- The replies have no carriage return. -/
private theorem replyPasses_ownAddress (s : TaskSerial Decimal) (e : SerialEvent Decimal) :
    s.ReplyPasses linuxTty ownAddress e := by
  cases e with
  | lists => trivial
  | poll e =>
      intro _ port frame next
      rw [asked_eq_one next]
      exact (passes_icrnl_iff _).mpr (by simp [ownAddress])

/-- Two devices in the order in which the map has them, the second one first. -/
theorem addressed_of_address_one :
    StepsMeet (step ⟨fun _ => 3, [registers]⟩ linuxTty ownAddress)
      (After (step ⟨fun _ => 3, [registers]⟩ linuxTty ownAddress) (Addressed ownAddress)) start
      (firstDevice [slave "a" 1, slave "b" 1] ["b", "a"]) := by
  refine (addressed_iff ⟨rfl, by constructor <;> intros <;> rfl, rfl, rfl⟩ ?_).mpr
    (by decide +kernel)
  exact stepsMeet_of_always replyPasses_ownAddress _ _

/-- Two devices on one line are polled with the same frame. -/
theorem same_frame :
    ∃ s : TaskSerial Decimal,
      run (step ⟨fun _ => 3, [registers]⟩ linuxTty ownAddress) start
          (firstDevice [slave "a" 1, slave "b" 2] ["b", "a"] ++
            [.poll .poll, .poll .poll, .poll .poll, .poll .poll]) = some s ∧
        s.polled = [[slave "b" 2], [slave "a" 1]] ∧ ¬ s.Addressed ownAddress := by
  have hrun : (run (step ⟨fun _ => 3, [registers]⟩ linuxTty ownAddress) start
      (firstDevice [slave "a" 1, slave "b" 2] ["b", "a"] ++
        [.poll .poll, .poll .poll, .poll .poll, .poll .poll])).map
          (fun s => (s.polled, s.poll.requests.map Request.frame)) =
      some ([[slave "b" 2], [slave "a" 1]],
        List.replicate 2 (requestFrame ⟨0x03, (0x0E, 0x10), (0x00, 0x01)⟩)) := by decide +kernel
  obtain ⟨s, hs, hlast⟩ := Option.map_eq_some_iff.mp hrun
  obtain ⟨hpolled, hframes⟩ := Prod.mk.inj hlast
  refine ⟨s, hs, hpolled, fun haddressed => ?_⟩
  -- both requests have the frame of the block
  have hframe : ∀ k < 2, ∃ request, s.poll.requests[k]? = some request ∧
      request.frame = requestFrame ⟨0x03, (0x0E, 0x10), (0x00, 0x01)⟩ := by
    intro k hk
    have hget := congrArg (·[k]?) hframes
    simp only [List.getElem?_map, List.getElem?_replicate, if_pos hk] at hget
    exact Option.map_eq_some_iff.mp hget
  obtain ⟨request, hrequest, hfirst⟩ := hframe 0 (by decide)
  obtain ⟨request', hrequest', hsecond⟩ := hframe 1 (by decide)
  refine haddressed.distinct 0 1 request request' (slave "b" 2) (slave "a" 1) hrequest hrequest'
    ⟨[slave "b" 2], by rw [hpolled]; rfl, List.mem_cons_self⟩
    ⟨[slave "a" 1], by rw [hpolled]; rfl, List.mem_cons_self⟩ (by decide) ?_
  rw [hfirst, hsecond]

end TaskSerial

end CsiFirmware.Task
