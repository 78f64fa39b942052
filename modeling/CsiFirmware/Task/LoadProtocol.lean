import CsiFirmware.Protocol.LoadPoint
import CsiFirmware.Task.Decode

/-!
# Loading the point tables

Reference: `TaskSerial::loadPcsProtocolByJson`, `Modbus::loadPointFromJson` and `Modbus::Modbus`.

The second loader reads one register for each point. Both push points one by one, and neither takes
back what it has pushed when a later point cannot be read; the constructor of `Modbus` publishes its
table without a look at what the loader returned.
-/

namespace CsiFirmware.Task

open CInt Json CsiFirmware.Common CsiFirmware.Protocol

variable {δ : Type}

/-- What is read from an element of `points`. `double` is the conversion of a number to `double`,
and the address goes through its decimal text. -/
def readItem (files : Files) (double : ℚ → δ) (item : Json) : Except Fault (PointItem δ) := do
  let name ← orThrow ((item.member "name").bind getString)
  let dataType ← orThrow ((item.member "dataType").bind getString)
  let factor ← orThrow ((item.member "factor").bind number?)
  let unit ← orThrow ((item.member "unit").bind getString)
  let hexString ← orThrow ((item.member "addr").bind (getInt files.platform))
  let addr ← orThrow (stoi (toString hexString))
  .ok { name, dataType, factor := double factor, unit, addr }

/-- `loadPcsProtocolByJson`. -/
def loadPcsProtocolByJson (files : Files) (double : ℚ → δ) (filename : String)
    (vPoints : List (ModbusPoint δ)) : Loaded (ModbusPoint δ) :=
  loadPoints files (fun item => (readItem files double item).map loadPoint) filename vPoints

/-- The constructor of `Modbus`: the table that it publishes and sends its requests from, whatever
the loader returns. -/
def publishedPoints [CDouble δ] (files : Files) : Loaded (ModbusPoint δ) :=
  loadPointFromJson files "data/csi_pcs_series_reg.json" []

/-- The constructor of `TaskSerial`: the table that blocks are decoded with, whatever the loader
returns. -/
def decodedPoints (files : Files) (double : ℚ → δ) : Loaded (ModbusPoint δ) :=
  loadPcsProtocolByJson files double "data/csi_pcs_modbus.json" []

/-- Both loaders are all or nothing, and the tables in use are whole, exactly for files without
points, files whose first point makes them throw, and files whose points are an array in which every
point can be read. -/
theorem loaders_allOrNothing_iff [CDouble δ] (files : Files) (double : ℚ → δ) (filename : String)
    (table : List (ModbusPoint δ)) :
    (AllOrNothing (readPoint files) ((filePoints files filename).elim [] elements) table
        (loadPointFromJson files filename table) ↔
      ∀ points, filePoints files filename = some points →
        Loadable (readPoint (δ := δ) files) points) ∧
    (AllOrNothing (fun item => (readItem files double item).map loadPoint)
        ((filePoints files filename).elim [] elements) table
        (loadPcsProtocolByJson files double filename table) ↔
      ∀ points, filePoints files filename = some points →
        Loadable (fun item => (readItem files double item).map loadPoint) points) ∧
    (Whole (readPoint files) ((filePoints files "data/csi_pcs_series_reg.json").elim [] elements)
        (publishedPoints (δ := δ) files) ↔
      ∀ points, filePoints files "data/csi_pcs_series_reg.json" = some points →
        Loadable (readPoint (δ := δ) files) points) ∧
    (Whole (fun item => (readItem files double item).map loadPoint)
        ((filePoints files "data/csi_pcs_modbus.json").elim [] elements)
        (decodedPoints files double) ↔
      ∀ points, filePoints files "data/csi_pcs_modbus.json" = some points →
        Loadable (fun item => (readItem files double item).map loadPoint) points) :=
  ⟨loadPoints_allOrNothing_iff, loadPoints_allOrNothing_iff, loadPoints_whole_iff,
    loadPoints_whole_iff⟩

/-- The text of a file with two points, of which the second has no members. -/
private def brokenText : String :=
  "\x7b\"points\":[\x7b\"addr\":2300,\"name\":\"ARMC主版本号\",\"description\":\"\"," ++
    "\"dataType\":\"U16\",\"factor\":1,\"unit\":\"NULL\",\"res\":1,\"invalid\":1," ++
    "\"mpkg\":[\"0x04,0x0c,0xe4,0x00,0x1e\"]\x7d,\x7b\x7d]\x7d"

/-- A point as the file has them. -/
private def readableItem : Json :=
  .object [("addr", .numberUnsigned 2300), ("dataType", .string "U16"),
    ("description", .string ""), ("factor", .numberUnsigned 1), ("invalid", .numberUnsigned 1),
    ("mpkg", .array [.string "0x04,0x0c,0xe4,0x00,0x1e"]), ("name", .string "ARMC主版本号"),
    ("res", .numberUnsigned 1), ("unit", .string "NULL")]

/-- A file with such a point and then one without members. -/
private def brokenFiles : Files where
  json :=
    { parse := fun text =>
        if text = brokenText then
          some (.object [("points", .array [readableItem, .object []])])
        else none
      dump := fun _ => none
      dumpIndented := fun _ => none
      utf8 := fun _ => true }
  platform := { castOverflow := fun _ => 0, atoiOverflow := fun _ => 0 }
  openFile _ := some brokenText
  longBits := 64
  longBits_ge := by decide

/-- What is in the file. -/
private theorem filePoints_broken (filename : String) :
    filePoints brokenFiles filename = some (.array [readableItem, .object []]) := by
  simp only [filePoints, brokenFiles, Codec.parseObject, Option.bind_eq_bind, Option.bind_some,
    ↓reduceIte]
  rfl

/-- The first point can be read by one loader. -/
private theorem readPoint_readable : readPoint (δ := Decimal) brokenFiles readableItem = .ok
    { name := "ARMC主版本号", description := "", dataType := "U16", factor := CDouble.zero, unit := ""
      res := 1, invalid := 1
      mpkg := [{ func := 0x04, reg := (0x0c, 0xe4), len := (0x00, 0x1e) }] } := by
  rfl

/-- The first point can be read by the other loader as well. -/
private theorem readItem_readable (double : ℚ → Decimal) :
    readItem brokenFiles double readableItem = .ok
      { name := "ARMC主版本号", dataType := "U16", factor := double 1, unit := "NULL"
        addr := 2300 } := by
  rfl

/-- A point without members leaves the point before it in both tables. -/
theorem loaders_not_allOrNothing :
    (¬ ∀ (files : Files) (filename : String) (table : List (ModbusPoint Decimal)),
        AllOrNothing (readPoint files) ((filePoints files filename).elim [] elements) table
          (loadPointFromJson files filename table)) ∧
      ¬ ∀ (files : Files) (double : ℚ → Decimal) (filename : String)
          (table : List (ModbusPoint Decimal)),
        AllOrNothing (fun item => (readItem files double item).map loadPoint)
          ((filePoints files filename).elim [] elements) table
          (loadPcsProtocolByJson files double filename table) := by
  have hfile := filePoints_broken "data/csi_pcs_modbus.json"
  constructor
  · intro h
    have hall := loadPoints_allOrNothing_iff.mp (h brokenFiles "data/csi_pcs_modbus.json" [])
    exact not_loadable_of_second readPoint_readable rfl (hall _ hfile)
  · intro h
    have hall := loadPoints_allOrNothing_iff.mp
      (h brokenFiles (fun _ => CDouble.one) "data/csi_pcs_modbus.json" [])
    have hfirst := congrArg (Except.map loadPoint) (readItem_readable fun _ => CDouble.one)
    exact not_loadable_of_second hfirst rfl (hall _ hfile)

end CsiFirmware.Task
