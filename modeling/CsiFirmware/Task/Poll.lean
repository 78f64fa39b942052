import CsiFirmware.Lib.Runs
import CsiFirmware.Task.Receive
import Mathlib.Logic.Function.Basic

/-!
# The polling thread and the receive thread

Reference: `TaskSerial::serialTaskRun`, `TaskSerial::sendPacketProc` and `recv_thread`.

`serialTaskRun` polls the devices of `protocolInfoMap` one after the other. For every point it sends
one request and parses the receive buffer until an attempt succeeds, while the receive thread reads
from the port and appends to the buffer. The threads share `is_RecvRun`, `recv_cv` and, under
`recv_mutex`, `total_recv_buf`. Each constructor of `PollPc` and `RecvPc` is a place between two
accesses to what is shared, and a run interleaves the steps of the two threads in any order.

Between a slave and the port stands a terminal. `tty port b` is what it hands on for a byte `b` that
is received: `set_port_attr` turns editing, echo and flow control off, and leaves what becomes of
carriage returns and line feeds as it finds it (`Serial.inputByte_setPortAttr`).

A step has no result where the program's behaviour is undefined: a point without packages, or a
request whose index is past the end of `TaskSerial::v_point`.
-/

namespace CsiFirmware.Task

open Protocol

variable {δ : Type} [CDouble δ]

/-- The next step of the polling thread. -/
inductive PollPc where
  /-- Between two rounds of `serialTaskRun`; `list_mutex` is free. -/
  | idle
  /-- The head of the loop over `protocolInfoMap`. -/
  | next
  /-- `AssemblePacket` and `send`. -/
  | assemble
  /-- `is_RecvRun = false` after a request. -/
  | disarm
  /-- `recv_cv.notify_all()` after a request. -/
  | notify
  /-- `parsePacketProc`. -/
  | parse
  /-- `is_RecvRun = false` after a failed attempt, inside the critical section. -/
  | retryDisarm
  /-- `recv_cv.notify_all()` after a failed attempt, inside the critical section. -/
  | retryNotify
  /-- `sendPacketProc` returns `true`. -/
  | answered
  /-- `handleAllRecvData` and `publish`. -/
  | publish
deriving DecidableEq

/-- The polling thread holds `recv_mutex`. -/
def PollPc.holdsRecvMutex (pc : PollPc) : Prop := pc = .retryDisarm ∨ pc = .retryNotify

instance (pc : PollPc) : Decidable pc.holdsRecvMutex := inferInstanceAs (Decidable (_ ∨ _))

/-- The next step of the receive thread. -/
inductive RecvPc where
  /-- The test of `is_RecvRun`. -/
  | test
  /-- The flag was found set, `recv_cv.wait` is not entered yet. A notification is lost here. -/
  | wait
  /-- Inside `recv_cv.wait`. -/
  | blocked
  /-- The copy of `pit`. -/
  | capture
  /-- `receive` on the port of the copy, if there is one. -/
  | read (port : Option ℕ)
  /-- The critical section that appends what was read. -/
  | append (recvBuf : List UInt8)
  /-- `is_RecvRun = true`. -/
  | rearm
deriving DecidableEq

/-- What `notify_all`, or a spurious wake-up, does to the receive thread. -/
def RecvPc.wake : RecvPc → RecvPc
  | .blocked => .test
  | pc => pc

/-- The size of the buffer passed to `read`. -/
def maxRecvSize : ℕ := 512

/-- A request that was sent: the device it was sent for, the value of `pointCount`, and the frame.
-/
structure Request where
  device : String
  pointCount : ℕ
  frame : List UInt8
deriving DecidableEq

/-- What `sendPacketProc` leaves behind when it returns `true`, with the request it was called for.
-/
structure PollResult (δ : Type) where
  request : Request
  rtSrcInfo : RTSrcInfo δ
  totalRecvBuf : List UInt8

/-- The state shared by the two threads, their local variables, the serial lines, and what has
happened so far. -/
structure PollState (δ : Type) where
  /-- In the order of iteration. -/
  protocolInfoMap : List (String × Modbus δ)
  vPoint : List (ModbusPoint δ)
  /-- The port of the object `pit` points to. -/
  pit : Option ℕ
  isRecvRun : Bool
  totalRecvBuf : List UInt8
  pollPc : PollPc
  /-- The position of `it` in `protocolInfoMap`. -/
  it : ℕ
  pointCount : ℕ
  rtSrcInfo : RTSrcInfo δ
  vRtSrcInfo : List (RTSrcInfo δ)
  recvPc : RecvPc
  /-- The bytes that have arrived at a port and have not been read. -/
  line : ℕ → List UInt8
  requests : List Request
  results : List (PollResult δ)
  /-- The blocks collected for each device, when they are decoded and published. -/
  published : List (String × List (RTSrcInfo δ))

/-- A terminal that hands on every byte as it is. -/
def transparent (_ : ℕ) (b : UInt8) : List UInt8 := [b]

/-- What a transparent terminal hands on. -/
@[simp] theorem flatMap_transparent (port : ℕ) (bytes : List UInt8) :
    bytes.flatMap (transparent port) = bytes := List.flatMap_singleton' bytes

/-- `AssemblePacket` and `send` on the current device, whose slave answers the request with the next
reply. The reply arrives as the terminal of the port hands it on. -/
def assembleStep (tty : ℕ → UInt8 → List UInt8) (reply : ℕ → PositiveReply) (s : PollState δ) :
    Option (PollState δ) :=
  match s.protocolInfoMap[s.it]? with
  | none => none
  | some (device, m) =>
      match assemblePacket m with
      | none => none
      | some (sendLen, sendBuf, m') =>
          let s := { s with protocolInfoMap := s.protocolInfoMap.set s.it (device, m') }
          -- `sendPacketProc` returns `false`, which ends the loop of the device
          if sendLen = -1 then some { s with pollPc := .publish }
          else
            match s.vPoint[s.pointCount]? with
            | none => none
            | some point =>
                some { s with
                  line := Function.update s.line m.serial
                    (s.line m.serial ++ (reply s.requests.length).bytes.flatMap (tty m.serial))
                  requests := s.requests ++ [⟨device, s.pointCount, sendBuf⟩]
                  rtSrcInfo := { RTSrcInfo.fresh with title := point.name }
                  pointCount := s.pointCount + 1
                  pollPc := .disarm }

/-- `parsePacketProc` up to its result. After a failed attempt the critical section goes on. -/
def parseStep (s : PollState δ) : PollState δ :=
  let attempt := parsePacketProc s.rtSrcInfo s.totalRecvBuf
  { s with
    rtSrcInfo := attempt.rtSrcInfo
    totalRecvBuf := attempt.totalRecvBuf
    pollPc := if attempt.isRecvAll then .answered else .retryDisarm }

/-- `sendPacketProc` returns `true`, and its block is added to `v_rtSrcInfo`. -/
def answeredStep (s : PollState δ) : Option (PollState δ) :=
  s.requests[s.results.length]?.map fun request =>
    { s with
      results := s.results ++ [⟨request, s.rtSrcInfo, s.totalRecvBuf⟩]
      vRtSrcInfo := s.vRtSrcInfo ++ [s.rtSrcInfo]
      pollPc := .assemble }

/-- A step of the polling thread. -/
def pollStep (tty : ℕ → UInt8 → List UInt8) (reply : ℕ → PositiveReply) (s : PollState δ) :
    Option (PollState δ) :=
  match s.pollPc with
  | .idle => some { s with it := 0, pollPc := .next }
  | .next =>
      match s.protocolInfoMap[s.it]? with
      | none => some { s with pollPc := .idle }
      | some (_, m) =>
          some { s with
            vRtSrcInfo := []
            pointCount := 0
            pit := some m.serial
            pollPc := .assemble }
  | .assemble => assembleStep tty reply s
  | .disarm => some { s with isRecvRun := false, pollPc := .notify }
  | .notify => some { s with recvPc := s.recvPc.wake, pollPc := .parse }
  | .parse => some (parseStep s)
  | .retryDisarm => some { s with isRecvRun := false, pollPc := .retryNotify }
  | .retryNotify => some { s with recvPc := s.recvPc.wake, pollPc := .parse }
  | .answered => answeredStep s
  | .publish =>
      s.protocolInfoMap[s.it]?.map fun p =>
        { s with
          published := s.published ++ [(p.1, s.vRtSrcInfo)]
          vRtSrcInfo := []
          it := s.it + 1
          pollPc := .next }

/-- A step of the receive thread. `recvLen` bytes are read, if it is about to read; an error reads
none. -/
def recvStep (recvLen : ℕ) (s : PollState δ) : Option (PollState δ) :=
  match s.recvPc with
  | .test => some { s with recvPc := if s.isRecvRun then .wait else .capture }
  | .wait => some { s with recvPc := .blocked }
  | .blocked => none
  | .capture => some { s with recvPc := .read s.pit }
  | .read none => some { s with recvPc := .append [] }
  | .read (some port) =>
      if recvLen ≤ maxRecvSize then
        some { s with
          line := Function.update s.line port ((s.line port).drop recvLen)
          recvPc := .append ((s.line port).take recvLen) }
      else none
  | .append recvBuf =>
      -- `recv_mutex`; a whole attempt of the other thread is one step unless it fails
      if s.pollPc.holdsRecvMutex then none
      else some { s with totalRecvBuf := s.totalRecvBuf ++ recvBuf, recvPc := .rearm }
  | .rearm => some { s with isRecvRun := true, recvPc := .test }

/-- What can happen next. -/
inductive PollEvent (δ : Type) where
  | poll
  | recv (recvLen : ℕ)
  /-- A spurious wake-up of the receive thread. -/
  | spurious
  /-- A table arrives on `modbus/point`. -/
  | point (msg : List (ModbusPoint δ))
  /-- The device list changes, for which `list_mutex` must be free. -/
  | devices (protocolInfoMap : List (String × Modbus δ))

/-- A step of one of the threads, or a message. -/
def PollState.step (tty : ℕ → UInt8 → List UInt8) (reply : ℕ → PositiveReply)
    (s : PollState δ) : PollEvent δ → Option (PollState δ)
  | .poll => pollStep tty reply s
  | .recv recvLen => recvStep recvLen s
  | .spurious => some { s with recvPc := s.recvPc.wake }
  | .point msg => some { s with vPoint := msg }
  | .devices protocolInfoMap => if s.pollPc = .idle then some { s with protocolInfoMap } else none

/-- No request has been sent and the lines are silent. Everything else is arbitrary. -/
structure PollState.Initial (s : PollState δ) : Prop where
  pollPc : s.pollPc = .idle
  recvPc : s.recvPc = .test
  totalRecvBuf : s.totalRecvBuf = []
  vRtSrcInfo : s.vRtSrcInfo = []
  line : ∀ port, s.line port = []
  requests : s.requests = []
  results : s.results = []
  published : s.published = []

/-! ## What a step can do -/

/-- All that a step can do. -/
inductive PollTransition (tty : ℕ → UInt8 → List UInt8) (reply : ℕ → PositiveReply)
    (s : PollState δ) : PollEvent δ → PollState δ → Prop where
  | startRound (pc : s.pollPc = .idle) :
      PollTransition tty reply s .poll { s with it := 0, pollPc := .next }
  | endRound (pc : s.pollPc = .next) (at_it : s.protocolInfoMap[s.it]? = none) :
      PollTransition tty reply s .poll { s with pollPc := .idle }
  | startDevice (device : String) (m : Modbus δ) (pc : s.pollPc = .next)
      (at_it : s.protocolInfoMap[s.it]? = some (device, m)) :
      PollTransition tty reply s .poll { s with
        vRtSrcInfo := []
        pointCount := 0
        pit := some m.serial
        pollPc := .assemble }
  | endDevice (device : String) (m m' : Modbus δ) (sendBuf : List UInt8) (pc : s.pollPc = .assemble)
      (at_it : s.protocolInfoMap[s.it]? = some (device, m))
      (assembled : assemblePacket m = some (-1, sendBuf, m')) :
      PollTransition tty reply s .poll { s with
        protocolInfoMap := s.protocolInfoMap.set s.it (device, m')
        pollPc := .publish }
  | request (device : String) (m m' : Modbus δ) (sendLen : Int) (sendBuf : List UInt8)
      (point : ModbusPoint δ) (pc : s.pollPc = .assemble)
      (at_it : s.protocolInfoMap[s.it]? = some (device, m))
      (assembled : assemblePacket m = some (sendLen, sendBuf, m')) (sent : sendLen ≠ -1)
      (at_point : s.vPoint[s.pointCount]? = some point) :
      PollTransition tty reply s .poll { s with
        protocolInfoMap := s.protocolInfoMap.set s.it (device, m')
        line := Function.update s.line m.serial
          (s.line m.serial ++ (reply s.requests.length).bytes.flatMap (tty m.serial))
        requests := s.requests ++ [⟨device, s.pointCount, sendBuf⟩]
        rtSrcInfo := { RTSrcInfo.fresh with title := point.name }
        pointCount := s.pointCount + 1
        pollPc := .disarm }
  | disarm (pc : s.pollPc = .disarm) :
      PollTransition tty reply s .poll { s with isRecvRun := false, pollPc := .notify }
  | retryDisarm (pc : s.pollPc = .retryDisarm) :
      PollTransition tty reply s .poll { s with isRecvRun := false, pollPc := .retryNotify }
  | notify (pc : s.pollPc = .notify ∨ s.pollPc = .retryNotify) :
      PollTransition tty reply s .poll { s with recvPc := s.recvPc.wake, pollPc := .parse }
  | parse (pc : s.pollPc = .parse) : PollTransition tty reply s .poll (parseStep s)
  | answered (request : Request) (pc : s.pollPc = .answered)
      (pending : s.requests[s.results.length]? = some request) :
      PollTransition tty reply s .poll { s with
        results := s.results ++ [⟨request, s.rtSrcInfo, s.totalRecvBuf⟩]
        vRtSrcInfo := s.vRtSrcInfo ++ [s.rtSrcInfo]
        pollPc := .assemble }
  | publish (device : String) (m : Modbus δ) (pc : s.pollPc = .publish)
      (at_it : s.protocolInfoMap[s.it]? = some (device, m)) :
      PollTransition tty reply s .poll { s with
        published := s.published ++ [(device, s.vRtSrcInfo)]
        vRtSrcInfo := []
        it := s.it + 1
        pollPc := .next }
  | test (recvLen : ℕ) (pc : s.recvPc = .test) :
      PollTransition tty reply s (.recv recvLen)
        { s with recvPc := if s.isRecvRun then .wait else .capture }
  | block (recvLen : ℕ) (pc : s.recvPc = .wait) :
      PollTransition tty reply s (.recv recvLen) { s with recvPc := .blocked }
  | capture (recvLen : ℕ) (pc : s.recvPc = .capture) :
      PollTransition tty reply s (.recv recvLen) { s with recvPc := .read s.pit }
  | readNothing (recvLen : ℕ) (pc : s.recvPc = .read none) :
      PollTransition tty reply s (.recv recvLen) { s with recvPc := .append [] }
  | read (recvLen port : ℕ) (pc : s.recvPc = .read (some port)) (le : recvLen ≤ maxRecvSize) :
      PollTransition tty reply s (.recv recvLen) { s with
        line := Function.update s.line port ((s.line port).drop recvLen)
        recvPc := .append ((s.line port).take recvLen) }
  | append (recvLen : ℕ) (recvBuf : List UInt8) (pc : s.recvPc = .append recvBuf)
      (free : ¬ s.pollPc.holdsRecvMutex) :
      PollTransition tty reply s (.recv recvLen)
        { s with totalRecvBuf := s.totalRecvBuf ++ recvBuf, recvPc := .rearm }
  | rearm (recvLen : ℕ) (pc : s.recvPc = .rearm) :
      PollTransition tty reply s (.recv recvLen) { s with isRecvRun := true, recvPc := .test }
  | spurious : PollTransition tty reply s .spurious { s with recvPc := s.recvPc.wake }
  | point (msg : List (ModbusPoint δ)) :
      PollTransition tty reply s (.point msg) { s with vPoint := msg }
  | devices (protocolInfoMap : List (String × Modbus δ)) (idle : s.pollPc = .idle) :
      PollTransition tty reply s (.devices protocolInfoMap) { s with protocolInfoMap }

variable {tty : ℕ → UInt8 → List UInt8} {reply : ℕ → PositiveReply} {s s' : PollState δ}

/-- The step that sends, or comes to the end of the table. -/
theorem assembleStep_transition (pc : s.pollPc = .assemble)
    (hs : assembleStep tty reply s = some s') : PollTransition tty reply s .poll s' := by
  unfold assembleStep at hs
  split at hs
  · cases hs
  next device m at_it =>
    split at hs
    · cases hs
    next sendLen sendBuf m' assembled =>
      split_ifs at hs with hlen
      · obtain rfl := Option.some.inj hs
        exact .endDevice device m m' sendBuf pc at_it (hlen ▸ assembled)
      · dsimp only at hs
        split at hs
        · cases hs
        next point at_point =>
          obtain rfl := Option.some.inj hs
          exact .request device m m' sendLen sendBuf point pc at_it assembled hlen at_point

/-- The steps of the polling thread. -/
theorem pollStep_transition (hs : pollStep tty reply s = some s') :
    PollTransition tty reply s .poll s' := by
  unfold pollStep at hs
  split at hs
  next pc =>
    obtain rfl := Option.some.inj hs
    exact .startRound pc
  next pc =>
    split at hs
    next at_it =>
      obtain rfl := Option.some.inj hs
      exact .endRound pc at_it
    next device m at_it =>
      obtain rfl := Option.some.inj hs
      exact .startDevice device m pc at_it
  next pc => exact assembleStep_transition pc hs
  next pc =>
    obtain rfl := Option.some.inj hs
    exact .disarm pc
  next pc =>
    obtain rfl := Option.some.inj hs
    exact .notify (.inl pc)
  next pc =>
    obtain rfl := Option.some.inj hs
    exact .parse pc
  next pc =>
    obtain rfl := Option.some.inj hs
    exact .retryDisarm pc
  next pc =>
    obtain rfl := Option.some.inj hs
    exact .notify (.inr pc)
  next pc =>
    obtain ⟨request, pending, rfl⟩ := Option.map_eq_some_iff.mp hs
    exact .answered request pc pending
  next pc =>
    obtain ⟨⟨device, m⟩, at_it, rfl⟩ := Option.map_eq_some_iff.mp hs
    exact .publish device m pc at_it

/-- The steps of the receive thread. -/
theorem recvStep_transition {recvLen : ℕ} (hs : recvStep recvLen s = some s') :
    PollTransition tty reply s (.recv recvLen) s' := by
  unfold recvStep at hs
  split at hs
  next pc =>
    obtain rfl := Option.some.inj hs
    exact .test recvLen pc
  next pc =>
    obtain rfl := Option.some.inj hs
    exact .block recvLen pc
  next => cases hs
  next pc =>
    obtain rfl := Option.some.inj hs
    exact .capture recvLen pc
  next pc =>
    obtain rfl := Option.some.inj hs
    exact .readNothing recvLen pc
  next port pc =>
    obtain ⟨le, hs⟩ := Option.ite_none_right_eq_some.mp hs
    obtain rfl := Option.some.inj hs
    exact .read recvLen port pc le
  next recvBuf pc =>
    obtain ⟨free, hs⟩ := Option.ite_none_left_eq_some.mp hs
    obtain rfl := Option.some.inj hs
    exact .append recvLen recvBuf pc free
  next pc =>
    obtain rfl := Option.some.inj hs
    exact .rearm recvLen pc

/-- A defined step is one of the transitions. -/
theorem PollState.step_transition {e : PollEvent δ} (hs : s.step tty reply e = some s') :
    PollTransition tty reply s e s' := by
  cases e with
  | poll => exact pollStep_transition hs
  | recv recvLen => exact recvStep_transition hs
  | spurious =>
      obtain rfl := Option.some.inj hs
      exact .spurious
  | point msg =>
      obtain rfl := Option.some.inj hs
      exact .point msg
  | devices protocolInfoMap =>
      obtain ⟨idle, hs⟩ := Option.ite_none_right_eq_some.mp hs
      obtain rfl := Option.some.inj hs
      exact .devices protocolInfoMap idle

end CsiFirmware.Task
