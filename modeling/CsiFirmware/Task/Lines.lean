import CsiFirmware.Task.Poll

/-!
# The polling thread on arbitrary lines

Reference: `TaskSerial::sendPacketProc`, `recv_thread` and `Serial_485::receive`.

`PollState.step` lets every slave answer with a positive reply as soon as it is asked. Here the
slaves owe nothing: what arrives at a port is an event of its own, any bytes at any time. The bytes
are those that the terminal hands on.
-/

namespace CsiFirmware.Task

open Protocol Runs

variable {δ : Type} [CDouble δ]

/-- A function code for reading. -/
private theorem isRead_anyReply : (0x03 : UInt8) = 0x03 ∨ (0x03 : UInt8) = 0x04 := .inl rfl

/-- A reply for `PollState.step`. It is taken off the line again, so it does not matter which. -/
def anyReply (_ : ℕ) : PositiveReply where
  addr := 0x01
  func := 0x03
  data := [0x00]
  crc := (0x00, 0x00)
  func_eq := isRead_anyReply
  data_pos := by simp
  data_le := by simp

/-- What can happen next. -/
inductive LineEvent (δ : Type) where
  | arrive (port : ℕ) (bytes : List UInt8)
  | own (e : PollEvent δ)

/-- The event is a step of the polling thread or of the receive thread. -/
def LineEvent.thread : LineEvent δ → Bool
  | .own .poll | .own (.recv _) => true
  | .own .spurious | .own (.point _) | .own (.devices _) | .arrive _ _ => false

namespace PollState

/-- One step of the firmware, or bytes that arrive. What a request would be answered with is not put
on the line. -/
def lineStep (s : PollState δ) : LineEvent δ → Option (PollState δ)
  | .arrive port bytes =>
      some { s with line := Function.update s.line port (s.line port ++ bytes) }
  | .own .poll => (s.step transparent anyReply .poll).map fun s' => { s' with line := s.line }
  | .own e => s.step transparent anyReply e

/-- After the constructor of `TaskSerial`. -/
structure StartUp (s : PollState δ) : Prop extends s.Initial where
  isRecvRun : s.isRecvRun = true
  pit : s.pit = none

/-- The state after the constructor, for some objects and a table. -/
def new (protocolInfoMap : List (String × Modbus δ)) (vPoint : List (ModbusPoint δ)) :
    PollState δ where
  protocolInfoMap
  vPoint
  pit := none
  isRecvRun := true
  totalRecvBuf := []
  pollPc := .idle
  it := 0
  pointCount := 0
  rtSrcInfo := .fresh
  vRtSrcInfo := []
  recvPc := .test
  line _ := []
  requests := []
  results := []
  published := []

/-- A new object has not begun. -/
theorem startUp_new (protocolInfoMap : List (String × Modbus δ)) (vPoint : List (ModbusPoint δ)) :
    (new protocolInfoMap vPoint).StartUp where
  pollPc := rfl
  recvPc := rfl
  totalRecvBuf := rfl
  vRtSrcInfo := rfl
  line _ := rfl
  requests := rfl
  results := rfl
  published := rfl
  isRecvRun := rfl
  pit := rfl

/-- All that a step can do. -/
inductive LineTransition (s : PollState δ) : LineEvent δ → PollState δ → Prop where
  | arrive (port : ℕ) (bytes : List UInt8) :
      LineTransition s (.arrive port bytes)
        { s with line := Function.update s.line port (s.line port ++ bytes) }
  | poll (s' : PollState δ) (step : PollTransition transparent anyReply s .poll s') :
      LineTransition s (.own .poll) { s' with line := s.line }
  | other (e : PollEvent δ) (s' : PollState δ) (other : e ≠ .poll)
      (step : PollTransition transparent anyReply s e s') : LineTransition s (.own e) s'

variable {s s' : PollState δ} {e : LineEvent δ}

/-- A defined step is one of the transitions. -/
theorem lineStep_transition (hs : s.lineStep e = some s') : LineTransition s e s' := by
  cases e with
  | arrive port bytes =>
      obtain rfl := Option.some.inj hs
      exact .arrive port bytes
  | own e =>
      cases e with
      | poll =>
          obtain ⟨t, ht, rfl⟩ := Option.map_eq_some_iff.mp hs
          exact .poll t (step_transition ht)
      | recv | spurious | point | devices =>
          exact .other _ _ (by simp) (step_transition hs)

end PollState

end CsiFirmware.Task
