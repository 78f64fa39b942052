import CsiFirmware.Common.PointFile
import CsiFirmware.DataStructure

/-!
# The point table of the protocol

Reference: `Modbus::loadPointFromJson`.

A package is written as text: function code, register address and register count, byte by byte in
hexadecimal, with commas between them. The loader converts each field with `std::stoul`, which reads
a number at the beginning of the field and ignores the rest, keeps the lowest eight bits, and takes
the first five of what it gets, however many there are.
-/

namespace CsiFirmware.Protocol

open CInt Json CsiFirmware.Common

variable {δ : Type} [CDouble δ]

/-! ## Packages -/

/-- What `std::getline` finds up to each comma. Nothing begins behind a comma at the end. -/
def fields (text : List Char) : List (List Char) :=
  if (text.splitOn ',').getLast? = some [] then (text.splitOn ',').dropLast else text.splitOn ','

/-- The package in the first five of the bytes. -/
def takePackage : List UInt8 → Except Fault ModbusPkg
  | func :: reg0 :: reg1 :: len0 :: len1 :: _ =>
      .ok { func, reg := (reg0, reg1), len := (len0, len1) }
  | _ => .error .outOfBounds

/-- The package that a string describes. -/
def readPackage (bits : ℕ) (pkgString : String) : Except Fault ModbusPkg := do
  let numbers ← orThrow ((fields pkgString.toList).mapM (stoul bits))
  takePackage (numbers.map UInt8.ofNat)

/-- The body of the loop over the packages of a point. -/
def readPackageJson (bits : ℕ) (pkgStringJson : Json) : Except Fault ModbusPkg := do
  readPackage bits (← orThrow pkgStringJson.getString)

/-- The body of the loop over the points. The members it leaves alone are empty or indeterminate;
the indeterminate one is zero here. -/
def readPoint (files : Files) (item : Json) : Except Fault (ModbusPoint δ) := do
  let name ← orThrow ((item.member "name").bind getString)
  let description ← orThrow ((item.member "description").bind getString)
  let dataType ← orThrow ((item.member "dataType").bind getString)
  let res ← orThrow ((item.member "res").bind (getInt files.platform))
  let invalid ← orThrow ((item.member "invalid").bind (getInt files.platform))
  let packages ← orThrow (item.member "mpkg")
  let mpkg ← packages.items.mapM (readPackageJson files.longBits)
  .ok { name, description, dataType, factor := CDouble.zero, unit := "", res, invalid, mpkg }

/-- `loadPointFromJson`, and the constructor, which calls it with an empty table. -/
def loadPointFromJson (files : Files) (path : String) (vPoint : List (ModbusPoint δ)) :
    Loaded (ModbusPoint δ) :=
  loadPoints files (readPoint files) path vPoint

/-! ## The grammar of packages -/

/-- Five hexadecimal numbers of one byte each, with commas between them. -/
def PackageText (text : List Char) (pkg : ModbusPkg) : Prop :=
  ∃ (tokens : List (List Char)) (func reg0 reg1 len0 len1 : ℕ), text = [','].intercalate tokens ∧
    List.Forall₂ HexNumber tokens [func, reg0, reg1, len0, len1] ∧
    (∀ n ∈ [func, reg0, reg1, len0, len1], n ≤ 0xFF) ∧
    pkg = { func := UInt8.ofNat func, reg := (UInt8.ofNat reg0, UInt8.ofNat reg1)
            len := (UInt8.ofNat len0, UInt8.ofNat len1) }

/-- A conversion of all fails if one of them does. -/
theorem mapM_eq_none_iff {α β : Type} {f : α → Option β} {l : List α} :
    l.mapM f = none ↔ ∃ a ∈ l, f a = none := by
  induction l with
  | nil => simp
  | cons a l ih =>
      cases ha : f a with
      | none => simp [ha]
      | some b =>
          cases hl : l.mapM f with
          | none => simpa [ha, hl] using ih.mp hl
          | some bs =>
              have hne : ¬ ∃ a ∈ l, f a = none := by simp [← ih, hl]
              simpa [ha, hl] using hne

/-- The fields of numbers between commas are the numbers. -/
theorem fields_intercalate {tokens : List (List Char)} {numbers : List ℕ}
    (h : List.Forall₂ HexNumber tokens numbers) (hne : tokens ≠ []) :
    fields ([','].intercalate tokens) = tokens := by
  have hboth : List.Forall₂ (fun token n => (',' ∉ token ∧ token ≠ []) ∧ HexNumber token n) tokens
      numbers := h.imp fun token n hn => ⟨⟨hn.comma_not_mem, hn.ne_nil⟩, hn⟩
  have htokens := (List.forall₂_and_left tokens numbers).mp hboth
  have hcomma : ∀ token ∈ tokens, ',' ∉ token := fun token ht => (htokens.1 token ht).1
  have hlast : tokens.getLast? ≠ some [] := fun hnil =>
    (htokens.1 [] (List.mem_of_getLast? hnil)).2 rfl
  rw [fields, List.splitOn_intercalate ',' hcomma hne, if_neg hlast]

/-- Numbers that fit into an `unsigned long` are converted. -/
theorem mapM_stoul {bits : ℕ} {tokens : List (List Char)} {numbers : List ℕ}
    (h : List.Forall₂ HexNumber tokens numbers) (hlt : ∀ n ∈ numbers, n < 2 ^ bits) :
    tokens.mapM (stoul bits) = some numbers := by
  induction h with
  | nil => rfl
  | cons hn _ ih =>
      rw [List.forall_mem_cons] at hlt
      simp [hn.stoul_eq hlt.1, ih hlt.2]

/-- A string of the grammar is read as it should be. -/
theorem readPackage_of_packageText {bits : ℕ} (hbits : 32 ≤ bits) {pkgString : String}
    {pkg : ModbusPkg} (h : PackageText pkgString.toList pkg) :
    readPackage bits pkgString = .ok pkg := by
  obtain ⟨tokens, func, reg0, reg1, len0, len1, htext, htokens, hbyte, rfl⟩ := h
  have hne : tokens ≠ [] := by
    rintro rfl
    cases htokens
  have hpow : 2 ^ 32 ≤ 2 ^ bits := Nat.pow_le_pow_right (by decide) hbits
  have hlt : ∀ n ∈ [func, reg0, reg1, len0, len1], n < 2 ^ bits := by
    intro n hn
    have hle := hbyte n hn
    omega
  rw [readPackage, htext, fields_intercalate htokens hne, mapM_stoul htokens hlt]
  rfl

/-- Taking the fields of the bytes throws nothing. -/
theorem takePackage_ne_exception (bytes : List UInt8) :
    takePackage bytes ≠ .error .exception := by
  unfold takePackage
  split <;> simp

/-- A string is turned down if and only if one of its fields cannot be converted. -/
theorem readPackage_eq_exception_iff {bits : ℕ} {pkgString : String} :
    readPackage bits pkgString = .error .exception ↔
      ∃ field ∈ fields pkgString.toList, stoul bits field = none := by
  rw [← mapM_eq_none_iff, readPackage]
  cases hnumbers : (fields pkgString.toList).mapM (stoul bits) with
  | none => exact iff_of_true rfl rfl
  | some numbers => exact iff_of_false (takePackage_ne_exception _) (by simp)

/-! ## A package in a file -/

/-- What stands around a package in a file: the other packages of its point, and the other points.
-/
structure Surroundings (δ : Type) where
  pointsBefore : List (ModbusPoint δ)
  point : ModbusPoint δ
  packagesBefore : List ModbusPkg
  packagesAfter : List ModbusPkg
  pointsAfter : List (ModbusPoint δ)

/-- The points of the file, with this package. -/
def Surroundings.points (around : Surroundings δ) (pkg : ModbusPkg) : List (ModbusPoint δ) :=
  around.pointsBefore ++
    { around.point with mpkg := around.packagesBefore ++ pkg :: around.packagesAfter } ::
      around.pointsAfter

/-- The item has the members of the point, and this array of packages. -/
structure Describes (files : Files) (item : Json) (point : ModbusPoint δ) (packages : List Json) :
    Prop where
  name : item.member "name" = some (.string point.name)
  description : item.member "description" = some (.string point.description)
  dataType : item.member "dataType" = some (.string point.dataType)
  res : ∃ j, item.member "res" = some j ∧ j.getInt files.platform = some point.res
  invalid : ∃ j, item.member "invalid" = some j ∧ j.getInt files.platform = some point.invalid
  mpkg : item.member "mpkg" = some (.array packages)
  factor : point.factor = CDouble.zero
  unit : point.unit = ""

/-- The file holds the string in an `mpkg` array, and everything around it can be read. -/
inductive HoldsPackage (files : Files) (path pkgString : String) (around : Surroundings δ) :
    Prop where
  | mk (itemsBefore itemsAfter : List Json) (item : Json) (before after : List Json)
      (file : filePoints files path = some (.array (itemsBefore ++ item :: itemsAfter)))
      (pointsBefore : List.Forall₂ (fun item point => readPoint files item = .ok point) itemsBefore
        around.pointsBefore)
      (pointsAfter : List.Forall₂ (fun item point => readPoint files item = .ok point) itemsAfter
        around.pointsAfter)
      (describes : Describes files item around.point (before ++ .string pkgString :: after))
      (packagesBefore : List.Forall₂ (fun j pkg => readPackageJson files.longBits j = .ok pkg)
        before around.packagesBefore)
      (packagesAfter : List.Forall₂ (fun j pkg => readPackageJson files.longBits j = .ok pkg)
        after around.packagesAfter)

variable {files : Files} {path pkgString : String}

/-- A loop that succeeds at every element. -/
theorem mapM_eq_ok {α β : Type} {f : α → Except Fault β} {l : List α} {l' : List β}
    (h : List.Forall₂ (fun a b => f a = .ok b) l l') : l.mapM f = .ok l' := by
  induction h with
  | nil => rfl
  | cons ha _ ih =>
      rw [List.mapM_cons, ha, ih]
      rfl

/-- A list in which one element is left open. -/
theorem mapM_append_cons {α β : Type} {f : α → Except Fault β} {before after : List α}
    {before' after' : List β} (hbefore : List.Forall₂ (fun a b => f a = .ok b) before before')
    (hafter : List.Forall₂ (fun a b => f a = .ok b) after after') (a : α) :
    (before ++ a :: after).mapM f = (f a).map fun b => before' ++ b :: after' := by
  rw [List.mapM_append, mapM_eq_ok hbefore, List.mapM_cons, mapM_eq_ok hafter]
  cases f a <;> rfl

/-- The point is read if its packages are. -/
theorem Describes.readPoint {item : Json} {point : ModbusPoint δ} {packages : List Json}
    (h : Describes files item point packages) :
    readPoint files item = (packages.mapM (readPackageJson files.longBits)).map
      fun mpkg => { point with mpkg } := by
  obtain ⟨_, hres, hresInt⟩ := h.res
  obtain ⟨_, hinvalid, hinvalidInt⟩ := h.invalid
  rw [Protocol.readPoint, h.name, h.description, h.dataType, hres, hinvalid, h.mpkg]
  simp only [Option.bind_some, getString, hresInt, hinvalidInt, orThrow_some_bind, items]
  cases packages.mapM (readPackageJson files.longBits) with
  | error fault => rfl
  | ok mpkg =>
      rw [← h.factor, ← h.unit]
      rfl

variable {around : Surroundings δ} {vPoint : List (ModbusPoint δ)}

/-- Such a file is loaded if its package can be read. -/
theorem loadPointFromJson_holdsPackage (h : HoldsPackage files path pkgString around) :
    loadPointFromJson files path vPoint =
      match readPackage files.longBits pkgString with
      | .ok pkg => { ret := some 1, table := vPoint ++ around.points pkg }
      | .error .exception => { ret := some 0, table := vPoint ++ around.pointsBefore }
      | .error .outOfBounds => { ret := none, table := vPoint ++ around.pointsBefore } := by
  obtain ⟨itemsBefore, itemsAfter, item, before, after, hfile, hpointsBefore, hpointsAfter, hitem,
    hbefore, hafter⟩ := h
  have hread : readPoint files item =
      (readPackage files.longBits pkgString).map fun pkg =>
        { around.point with mpkg := around.packagesBefore ++ pkg :: around.packagesAfter } := by
    rw [hitem.readPoint, mapM_append_cons hbefore hafter]
    show ((readPackage files.longBits pkgString).map _).map _ = _
    cases readPackage files.longBits pkgString <;> rfl
  -- the package decides over its point, and the point over the file
  rw [loadPointFromJson, loadPoints, hfile]
  simp only [items, pushPoints_append hpointsBefore]
  rw [pushPoints, hread]
  cases hpackage : readPackage files.longBits pkgString with
  | error fault => cases fault <;> rfl
  | ok pkg =>
      simp only [Except.map, pushPoints_read hpointsAfter]
      simp [Surroundings.points]

/-- A package string is parsed exactly, with the package of the grammar or not at all, if and only
if it is in the grammar or one of its fields cannot be converted. -/
theorem loadPointFromJson_exact_iff (h : HoldsPackage files path pkgString around) :
    ((∀ pkg, PackageText pkgString.toList pkg → loadPointFromJson files path vPoint =
          { ret := some 1, table := vPoint ++ around.points pkg }) ∧
        ((∀ pkg, ¬ PackageText pkgString.toList pkg) →
          (loadPointFromJson files path vPoint).ret = some 0)) ↔
      (∃ pkg, PackageText pkgString.toList pkg) ∨
        ∃ field ∈ fields pkgString.toList, stoul files.longBits field = none := by
  have hgrammar {pkg : ModbusPkg} (hpkg : PackageText pkgString.toList pkg) :
      readPackage files.longBits pkgString = .ok pkg :=
    readPackage_of_packageText files.longBits_ge hpkg
  rw [loadPointFromJson_holdsPackage h, ← readPackage_eq_exception_iff]
  constructor
  · rintro ⟨-, hother⟩
    by_cases htext : ∃ pkg, PackageText pkgString.toList pkg
    · exact .inl htext
    · have hzero := hother (not_exists.mp htext)
      split at hzero
      · cases hzero
      next hfault => exact .inr hfault
      · cases hzero
  · rintro (⟨pkg, hpkg⟩ | hfault)
    · refine ⟨fun pkg' hpkg' => ?_, fun hnone => absurd hpkg (hnone pkg)⟩
      rw [hgrammar hpkg']
    · refine ⟨fun pkg hpkg => ?_, fun _ => ?_⟩
      · rw [hgrammar hpkg] at hfault
        cases hfault
      · rw [hfault]

/-- The text of a file with two points, of which the second has this package string. -/
private def deviceText (pkgString : String) : String :=
  "\x7b\"points\":[\x7b\"name\":\"设备信息\",\"description\":\"\",\"dataType\":\"U16\"," ++
    "\"res\":1,\"invalid\":1,\"mpkg\":[]\x7d,\x7b\"name\":\"运行信息\",\"description\":\"\"," ++
    "\"dataType\":\"U16\",\"res\":1,\"invalid\":1,\"mpkg\":[\"" ++ pkgString ++ "\"]\x7d]\x7d"

/-- A point of the file. -/
private def deviceItem (name : String) (packages : List Json) : Json :=
  .object [("dataType", .string "U16"), ("description", .string ""),
    ("invalid", .numberUnsigned 1), ("mpkg", .array packages), ("name", .string name),
    ("res", .numberUnsigned 1)]

/-- Two points, the second with a package. -/
private def deviceItems (pkgString : String) : List Json :=
  [deviceItem "设备信息" [], deviceItem "运行信息" [.string pkgString]]

/-- Files of which one holds such a string as a package. -/
private def deviceFiles (pkgString : String) : Files where
  json :=
    { parse := fun text =>
        if text = deviceText pkgString then
          some (.object [("points", .array (deviceItems pkgString))])
        else none
      dump := fun _ => none
      dumpIndented := fun _ => none
      utf8 := fun _ => true }
  platform := { castOverflow := fun _ => 0, atoiOverflow := fun _ => 0 }
  openFile path :=
    if path = "data/csi_pcs_series_reg.json" then some (deviceText pkgString) else none
  longBits := 32
  longBits_ge := le_rfl

/-- What is loaded of a point without packages. -/
private def devicePoint (name : String) : ModbusPoint Decimal :=
  { name, description := "", dataType := "U16", factor := CDouble.zero, unit := "", res := 1
    invalid := 1, mpkg := [] }

/-- What stands around the package in that file. -/
private def deviceAround : Surroundings Decimal where
  pointsBefore := [devicePoint "设备信息"]
  point := devicePoint "运行信息"
  packagesBefore := []
  packagesAfter := []
  pointsAfter := []

/-- The file holds the string. -/
private theorem holdsPackage_device (pkgString : String) :
    HoldsPackage (deviceFiles pkgString) "data/csi_pcs_series_reg.json" pkgString deviceAround := by
  have hfile : filePoints (deviceFiles pkgString) "data/csi_pcs_series_reg.json" =
      some (.array (deviceItems pkgString)) := by
    simp only [filePoints, deviceFiles, Codec.parseObject, Option.bind_eq_bind, Option.bind_some,
      ↓reduceIte]
    rfl
  exact .mk [deviceItem "设备信息" []] [] (deviceItem "运行信息" [.string pkgString]) [] [] hfile
    (.cons rfl .nil) .nil ⟨rfl, rfl, rfl, ⟨_, rfl, rfl⟩, ⟨_, rfl, rfl⟩, rfl, rfl, rfl⟩ .nil .nil

/-- A package of the table that is shipped. -/
theorem loadPointFromJson_exact_device :
    ((∀ pkg, PackageText "0x04,0x0c,0xe4,0x00,0x1e".toList pkg →
          loadPointFromJson (deviceFiles "0x04,0x0c,0xe4,0x00,0x1e")
              "data/csi_pcs_series_reg.json" [] =
            { ret := some 1, table := [] ++ deviceAround.points pkg }) ∧
        ((∀ pkg, ¬ PackageText "0x04,0x0c,0xe4,0x00,0x1e".toList pkg) →
          (loadPointFromJson (δ := Decimal) (deviceFiles "0x04,0x0c,0xe4,0x00,0x1e")
            "data/csi_pcs_series_reg.json" []).ret = some 0)) ↔
      (∃ pkg, PackageText "0x04,0x0c,0xe4,0x00,0x1e".toList pkg) ∨
        ∃ field ∈ fields "0x04,0x0c,0xe4,0x00,0x1e".toList, stoul 32 field = none :=
  loadPointFromJson_exact_iff (holdsPackage_device "0x04,0x0c,0xe4,0x00,0x1e")

/-- A package without its last byte is read past its end. -/
theorem loadPointFromJson_not_exact :
    ¬ ∀ (files : Files) (path pkgString : String) (around : Surroundings Decimal)
        (vPoint : List (ModbusPoint Decimal)), HoldsPackage files path pkgString around →
      (∀ pkg, PackageText pkgString.toList pkg → loadPointFromJson files path vPoint =
          { ret := some 1, table := vPoint ++ around.points pkg }) ∧
        ((∀ pkg, ¬ PackageText pkgString.toList pkg) →
          (loadPointFromJson files path vPoint).ret = some 0) := by
  intro h
  have hone := holdsPackage_device "0x04,0x0c,0xe4,0x00"
  have hfields : fields "0x04,0x0c,0xe4,0x00".toList =
      [['0', 'x', '0', '4'], ['0', 'x', '0', 'c'], ['0', 'x', 'e', '4'], ['0', 'x', '0', '0']] := by
    simp
    decide
  rcases (loadPointFromJson_exact_iff hone).mp (h _ _ _ _ [] hone) with htext | hfault
  · obtain ⟨_, tokens, _, _, _, _, _, htext, htokens, -⟩ := htext
    have hne : tokens ≠ [] := by
      rintro rfl
      cases htokens
    rw [htext, fields_intercalate htokens hne] at hfields
    have hlength := htokens.length_eq
    rw [hfields] at hlength
    cases hlength
  · rw [hfields] at hfault
    revert hfault
    decide

end CsiFirmware.Protocol
