import Mathlib

/-!
# Data structures

The records of `DataStructure.h`. Byte arrays and `std::vector` are lists; the two-byte arrays
behind `modbusPkg::reg` and `modbusPkg::len` are pairs. A C++ `int` is an `Int`, with the 32-bit
arithmetic written out where a value is computed.

The firmware multiplies, compares and prints `double` values and does nothing else with them, so
their type is a parameter `δ` with the operations of `CDouble`.
-/

namespace CsiFirmware

/-- The operations the firmware performs on `double`. Comparisons are only ever made with `1.0` and
`-1.0`, for which C++ equality is equality of values. -/
class CDouble (δ : Type) where
  zero : δ
  one : δ
  negOne : δ
  /-- `value * factor` for an `int` value. -/
  scale : Int → δ → δ
  /-- `std::to_string(double)`. -/
  toStr : δ → String

/-- Decimal fractions with the six places that `std::to_string` prints. -/
structure Decimal where
  micro : Int
deriving DecidableEq

/-- Six digits, padded with zeros on the left. -/
def sixDigits (n : ℕ) : String :=
  String.ofList ((List.range 6).reverse.map fun i => Nat.digitChar (n / 10 ^ i % 10))

instance : CDouble Decimal where
  zero := ⟨0⟩
  one := ⟨1000000⟩
  negOne := ⟨-1000000⟩
  scale value factor := ⟨value * factor.micro⟩
  toStr d := (if d.micro < 0 then "-" else "") ++ toString (d.micro.natAbs / 1000000) ++ "." ++
    sixDigits (d.micro.natAbs % 1000000)

/-! ## Readings -/

/-- `s_RTValueType`: one of the three members carries the reading. -/
structure RTValueType (δ : Type) where
  idata : Int
  ddata : δ
  sData : String
deriving DecidableEq

/-- `s_RTSrcInfo`: a reading, or a block of raw bytes on its way to the decoder. -/
structure RTSrcInfo (δ : Type) where
  title : String
  sourceName : String
  value : RTValueType δ
  buf : List UInt8
  unit : String
deriving DecidableEq

/-- A freshly declared `s_RTSrcInfo`. The numeric members are indeterminate in C++ and written
before they are read; they are zero here. -/
def RTSrcInfo.fresh {δ : Type} [CDouble δ] : RTSrcInfo δ :=
  { title := "", sourceName := "", value := ⟨0, CDouble.zero, ""⟩, buf := [], unit := "" }

/-- Assigns one of the three members of `value` and leaves the others as they are. -/
def RTSrcInfo.setIdata {δ : Type} (info : RTSrcInfo δ) (idata : Int) : RTSrcInfo δ :=
  { info with value := { info.value with idata } }

/-! ## Serial ports and devices -/

/-- The line parameters of a port, as the user enters them. -/
structure SerialParamInfo where
  baudrate : Int
  databit : Int
  stopbit : String
  parity : String
  vtime : Int
  vmin : Int
deriving DecidableEq

/-- An entry of the serial list. -/
structure SerialIdInfo where
  /-- File descriptor of the opened driver. -/
  serialId : Int
  statu : Int
  /-- Name of the driver file, such as `RS485-1`. -/
  serialName : String
  /-- Name of the port, chosen by the user. -/
  name : String
  id : String
  serialParamInfo : SerialParamInfo
deriving DecidableEq

/-- An entry of the device list. -/
structure DevInfo where
  id : String
  devName : String
  serialInfo : SerialIdInfo
  protocol : String
  addr : Int
  category : String
  model : String
  sn : String
  deviceStatus : Int
deriving DecidableEq

/-! A freshly declared record: its strings are empty. The numeric members are indeterminate in C++;
they are zero here. -/

/-- As the default constructor leaves it. -/
def SerialParamInfo.fresh : SerialParamInfo :=
  { baudrate := 0, databit := 0, stopbit := "", parity := "", vtime := 0, vmin := 0 }

/-- As the default constructor leaves it. -/
def SerialIdInfo.fresh : SerialIdInfo :=
  { serialId := 0, statu := 0, serialName := "", name := "", id := "", serialParamInfo := .fresh }

/-- As the default constructor leaves it. -/
def DevInfo.fresh : DevInfo :=
  { id := "", devName := "", serialInfo := .fresh, protocol := "", addr := 0, category := ""
    model := "", sn := "", deviceStatus := 0 }

/-! ## The Setting service -/

/-- What a request to the Setting service asks for. -/
inductive Action where
  | add
  | edit
  | del
  | get
deriving DecidableEq

/-- `srv_DevInfo`. -/
structure SrvDevInfo where
  act : Action
  devInfo : DevInfo
  oldDevInfo : DevInfo
deriving DecidableEq

/-- `srv_SerialInfo`. -/
structure SrvSerialInfo where
  act : Action
  serialInfo : SerialIdInfo
deriving DecidableEq

/-- `srv_GetInfo`, what the service answers. -/
structure SrvGetInfo where
  devList : List DevInfo
  serialList : List SerialIdInfo
  status : String
deriving DecidableEq

/-! ## Modbus tables -/

/-- `modbusPkg`, one request: function code, start register, register count. -/
structure ModbusPkg where
  func : UInt8
  reg : UInt8 × UInt8
  len : UInt8 × UInt8
deriving DecidableEq

/-- `modbusPoint`. In `Modbus::v_point` an entry is a block of registers to request; in
`TaskSerial::v_points` it is one register to decode. -/
structure ModbusPoint (δ : Type) where
  name : String
  description : String
  dataType : String
  factor : δ
  unit : String
  res : Int
  invalid : Int
  mpkg : List ModbusPkg
deriving DecidableEq

/-- The two bytes of a register address or count, high byte first. -/
def regValue (r : UInt8 × UInt8) : ℕ := r.1.toNat <<< 8 ||| r.2.toNat

end CsiFirmware
