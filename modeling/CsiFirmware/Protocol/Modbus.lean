import CsiFirmware.DataStructure
import Mathlib.Logic.Function.Iterate

/-!
# The Modbus protocol object

Reference: `code/protocol/Modbus.cpp`.

A protocol object requests the blocks of its table `v_point` one after the other and checks the
replies. Buffers are lists of bytes. `std::vector::operator[]` on an index past the end is undefined
behaviour: `assemblePacket` answers `none` there.
-/

namespace CsiFirmware.Protocol

variable {δ : Type}

/-- `Modbus`. `serial` is the raw `SerialAbstract*`, as the identity of the object it points to. -/
structure Modbus (δ : Type) where
  serial : ℕ
  vPoint : List (ModbusPoint δ)
  nextPkg : ℕ
deriving DecidableEq

/-- The constructor. `table` is what `loadPointFromJson` puts into `v_point`. -/
def Modbus.new (table : List (ModbusPoint δ)) (serial : ℕ) : Modbus δ :=
  { serial, vPoint := table, nextPkg := 0 }

/-! ### `Modbus::CRC16` -/

/-- One turn of the inner loop. -/
def crcShift (crc : UInt16) : UInt16 :=
  if crc &&& 0x0001 ≠ 0 then (crc >>> 1) ^^^ 0xA001 else crc >>> 1

/-- One turn of the outer loop. -/
def crcByte (crc : UInt16) (b : UInt8) : UInt16 := crcShift^[8] (crc ^^^ b.toUInt16)

/-- `CRC16`. -/
def crc16 (pDataBuf : List UInt8) (dataLen : ℕ) : UInt16 :=
  (pDataBuf.take dataLen).foldl crcByte 0xFFFF

/-! ### `Modbus::AssemblePacket` -/

/-- The eight bytes written for one package. -/
def requestFrame (pkg : ModbusPkg) : List UInt8 :=
  let request := [0x01, pkg.func, pkg.reg.1, pkg.reg.2, pkg.len.1, pkg.len.2]
  let crc := crc16 request 6
  request ++ [(crc &&& 0xFF).toUInt8, (crc >>> 8).toUInt8]

/-- Returns `len`, the bytes written to `request` and the object with `nextPkg` moved on. Only the
first package of a point is looked at, and a point without packages has none. -/
def assemblePacket (m : Modbus δ) : Option (Int × List UInt8 × Modbus δ) :=
  match m.vPoint[m.nextPkg]? with
  | some point =>
      match point.mpkg with
      | pkg :: _ => some (7, requestFrame pkg, { m with nextPkg := m.nextPkg + 1 })
      | [] => none
  | none => some (-1, [], { m with nextPkg := 0 })

/-! ### `Modbus::ParsePacket` -/

/-- Returns the payload length and the buffer, whose front the payload is moved to. -/
def parseFunc (request : List UInt8) (length : Int) : Int × List UInt8 :=
  let functionCode := request.getD 1 0
  let dataLength := (request.getD 2 0).toNat
  if functionCode &&& 0x80 = 0x80 then (0, request)
  else if (dataLength : Int) + 5 ≠ length then (0, request)
  else if functionCode = 0x03 ∨ functionCode = 0x04 then
    -- `std::copy` to the front, over the header and the beginning of the data
    (dataLength, (request.drop 3).take dataLength ++ request.drop dataLength)
  else (dataLength, request)

/-- `0` for an error reply, `-1` for a CRC error or an incomplete reply, else the payload length,
says the source. The CRC check itself is commented out there. -/
def parsePacket (request : List UInt8) (length : Int) : Int × List UInt8 :=
  if length < 5 then (-1, request)
  else
    let fn := request.getD 1 0
    let pkglen := (request.getD 2 0).toNat
    if fn = 0x83 then (0, request)
    else if fn ≠ 0x03 ∧ fn ≠ 0x04 then (-1, request)
    else if pkglen = 0 then (0, request)
    else if (pkglen : Int) ≠ length - 5 then (-1, request)
    -- the CRC comparison of the source stands behind the `return` and is commented out
    else parseFunc request length

/-- The two checks of `parseFunc` repeat checks that `parsePacket` has already made, so a reply that
gets that far is accepted. -/
theorem parsePacket_eq (request : List UInt8) (length : Int) :
    parsePacket request length =
      (let fn := request.getD 1 0
      let pkglen := (request.getD 2 0).toNat
      if length < 5 ∨ (fn ≠ 0x83 ∧ fn ≠ 0x03 ∧ fn ≠ 0x04) then (-1, request)
      else if fn = 0x83 ∨ pkglen = 0 then (0, request)
      else if (pkglen : Int) + 5 ≠ length then (-1, request)
      else ((pkglen : Int), (request.drop 3).take pkglen ++ request.drop pkglen)) := by
  simp only [parsePacket, parseFunc]
  generalize request.getD 1 0 = fn
  by_cases hlen : length < 5
  · simp [hlen]
  by_cases h83 : fn = 0x83
  · simp [hlen, h83]
  by_cases hfn : fn = 0x03 ∨ fn = 0x04
  · have hread : fn &&& 0x80 ≠ 0x80 := by rcases hfn with rfl | rfl <;> decide
    have hother : ¬ (fn ≠ 0x03 ∧ fn ≠ 0x04) := by rcases hfn with rfl | rfl <;> decide
    simp only [hlen, h83, hother, hread, hfn, ne_eq, not_false_eq_true, true_and, or_self, if_false,
      false_or, if_true]
    split_ifs <;> first | rfl | omega
  · have hother : fn ≠ 0x03 ∧ fn ≠ 0x04 := by simpa [not_or] using hfn
    simp [hlen, h83, hother]

end CsiFirmware.Protocol
