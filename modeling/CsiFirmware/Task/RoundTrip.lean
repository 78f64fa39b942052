import CsiFirmware.Task.ReadOffsets

/-!
# Typed values

The points of one window, packed in table order as big-endian numbers, are decoded field by field:
each point gets its own bytes (`value_decode_encoded`), so the values of a whole block come back if
and only if each one comes back alone. `roundTrip_iff` says which do. A negative `S16` does not,
since nothing extends its sign, and no 32-bit value does, since its high byte is shifted by 32.
-/

namespace CsiFirmware.Task

variable {δ : Type} [CDouble δ]

/-! ## Readings -/

/-- The numeric data types of the register table. -/
inductive FieldType where
  | U8 | U16 | S16 | U32 | S32
deriving DecidableEq

namespace FieldType

/-- The spelling in the table. -/
def name : FieldType → String
  | U8 => "U8"
  | U16 => "U16"
  | S16 => "S16"
  | U32 => "U32"
  | S32 => "S32"

/-- The bytes of a field. -/
def bytes : FieldType → ℕ
  | U8 => 1
  | U16 | S16 => 2
  | U32 | S32 => 4

/-- The declared range. `U32` values are limited to those that fit into an `int`. -/
def InRange : FieldType → Int → Prop
  | U8, v => 0 ≤ v ∧ v < 2 ^ 8
  | U16, v => 0 ≤ v ∧ v < 2 ^ 16
  | S16, v => -2 ^ 15 ≤ v ∧ v < 2 ^ 15
  | U32, v => 0 ≤ v ∧ v < 2 ^ 31
  | S32, v => -2 ^ 31 ≤ v ∧ v < 2 ^ 31

/-- Big-endian, negative values in two's complement. -/
def encode (t : FieldType) (v : Int) : List UInt8 :=
  BigEndian.bytes t.bytes (v % 256 ^ t.bytes).toNat

/-- The width that the firmware takes from its name. -/
@[simp] theorem width_name (t : FieldType) : width t.name = t.bytes := by
  cases t <;> rfl

/-- A value fills its field. -/
@[simp] theorem length_encode (t : FieldType) (v : Int) : (t.encode v).length = t.bytes :=
  BigEndian.length_bytes _ _

/-- No field is empty. -/
theorem bytes_pos (t : FieldType) : 0 < t.bytes := by
  cases t <;> decide

end FieldType

/-- A point with factor 1, and a value in the range of its type. -/
structure TypedReading (δ : Type) [CDouble δ] where
  point : ModbusPoint δ
  type : FieldType
  value : Int
  dataType_eq : point.dataType = type.name
  factor_eq : point.factor = CDouble.one
  in_range : type.InRange value

namespace TypedReading

/-- The bytes of a reading. -/
def encode (r : TypedReading δ) : List UInt8 := r.type.encode r.value

/-- The firmware takes as many bytes as the field has. -/
theorem pointWidth_eq (r : TypedReading δ) : pointWidth r.point = r.type.bytes := by
  rw [pointWidth, r.dataType_eq, FieldType.width_name]

/-- The encoding of a reading is as long as its data type says. -/
theorem length_encode (r : TypedReading δ) : r.encode.length = pointWidth r.point := by
  rw [encode, FieldType.length_encode, pointWidth_eq]

/-- What the decoder computes from the encoding of the value. -/
def decoded (u : Undefined) (r : TypedReading δ) : Int :=
  (rawValue u r.type.name fun i => r.encode.getD i 0).toInt

/-- The reading is no negative `S16`, and its type has not 32 bits. -/
def Survives (r : TypedReading δ) : Prop :=
  (r.type = .S16 → 0 ≤ r.value) ∧ r.type ≠ .U32 ∧ r.type ≠ .S32

/-- A byte comes back. -/
theorem decoded_U8 {u : Undefined} {r : TypedReading δ} (h : r.type = .U8) :
    r.decoded u = r.value := by
  have hrange := r.in_range
  rw [h] at hrange
  have hbyte : (UInt8.ofNat (r.value % 256).toNat).toNat = r.value.toNat := by
    rw [UInt8.toNat_ofNat']
    simp only [FieldType.InRange] at hrange
    omega
  have hraw : rawValue u "U8" (fun i => r.encode.getD i 0) =
      promote (UInt8.ofNat (r.value % 256).toNat) := by
    rw [encode, h]
    simp [rawValue, FieldType.encode, FieldType.bytes, BigEndian.bytes]
  simp only [FieldType.InRange] at hrange
  rw [decoded, h, FieldType.name, hraw,
    BitVec.toInt_eq_toNat_of_lt (by rw [toNat_promote]; omega), toNat_promote, hbyte]
  omega

/-- A two-byte value is read as an unsigned number. -/
theorem decoded_word {u : Undefined} {r : TypedReading δ}
    (h : r.type = .U16 ∨ r.type = .S16) : r.decoded u = r.value % 65536 := by
  have hname : r.type.name = "U16" ∨ r.type.name = "S16" := by
    rcases h with h | h <;> simp [h, FieldType.name]
  have hbytes : r.encode = BigEndian.bytes 2 (r.value % 65536).toNat := by
    rcases h with h | h <;> simp [encode, FieldType.encode, h, FieldType.bytes]
  have hvalue := BigEndian.value_bytes 2 (r.value % 65536).toNat
  rw [decoded, toInt_rawValue_word hname, hbytes]
  change ((BigEndian.value (BigEndian.bytes 2 (r.value % 65536).toNat) : ℕ) : Int) = _
  rw [hvalue]
  omega

/-- The result of the overlong shift shows in the sign bit, so no value is independent of it. -/
theorem decoded_dword {r : TypedReading δ} (h : r.type = .U32 ∨ r.type = .S32) :
    ¬ ∀ u, r.decoded u = r.value := by
  intro hall
  -- two machines that disagree on the sign bit cannot both return the value
  have hsame : r.decoded ⟨fun _ => 0, fun _ => 0⟩ = r.decoded ⟨fun _ => 0, fun _ => 1 <<< 31⟩ := by
    rw [hall, hall]
  have hbits := congrArg (fun x : BitVec 32 => x.getLsbD 31) (BitVec.eq_of_toInt_eq hsame)
  rcases h with h | h <;>
    simp [h, rawValue, FieldType.name, promote] at hbits

/-- A single value comes back, whatever the undefined results are, exactly if it survives. -/
theorem decoded_eq_iff (r : TypedReading δ) :
    (∀ u, r.decoded u = r.value) ↔ r.Survives := by
  have hrange := r.in_range
  cases h : r.type with
  | U8 => simp [Survives, h, decoded_U8 h]
  | U16 =>
      simp only [h, FieldType.InRange] at hrange
      simp only [Survives, h, decoded_word (Or.inl h)]
      constructor
      · intro _
        exact ⟨nofun, by decide, by decide⟩
      · intro _ _
        omega
  | S16 =>
      simp only [h, FieldType.InRange] at hrange
      simp only [Survives, h, decoded_word (Or.inr h)]
      constructor
      · intro hall
        have := hall ⟨fun _ => 0, fun _ => 0⟩
        exact ⟨fun _ => by omega, by decide, by decide⟩
      · intro hsurvives _
        have : 0 ≤ r.value := hsurvives.1 trivial
        omega
  | U32 => simp [Survives, h, decoded_dword (Or.inl h)]
  | S32 => simp [Survives, h, decoded_dword (Or.inr h)]

end TypedReading

/-! ## Blocks -/

/-- A register table, and a reading for each of its points in the window, in table order. -/
structure WindowReadings (δ : Type) [CDouble δ] (window : ℕ × ℕ) where
  vPoints : List (ModbusPoint δ)
  readings : List (TypedReading δ)
  points_eq : windowPoints vPoints window = readings.map TypedReading.point

/-- A block that holds the encodings of the readings, in order. -/
def encodedBlock (title : String) (readings : List (TypedReading δ)) : RTSrcInfo δ :=
  { (RTSrcInfo.fresh : RTSrcInfo δ).setIdata (readings.flatMap TypedReading.encode).length with
    title, buf := readings.flatMap TypedReading.encode }

/-- At a reading's offset the decoder finds the reading's own bytes. -/
theorem value_decode_encoded {u : Undefined} {title : String}
    {readings : List (TypedReading δ)} {count : ℕ} {r : TypedReading δ}
    (h : (count, r) ∈ Layout.place (fun r => pointWidth r.point) 0 readings) :
    (decode u (encodedBlock title readings) count r.point).value = r.decoded u := by
  have hbytes := Layout.take_drop_of_mem_place TypedReading.length_encode h
  rw [decode, TypedReading.decoded, ← r.dataType_eq]
  refine congrArg BitVec.toInt (rawValue_congr fun i (hi : i < pointWidth r.point) => ?_)
  have hget : (readings.flatMap TypedReading.encode)[count + i]? = r.encode[i]? := by
    rw [← hbytes, List.getElem?_take, if_pos hi, List.getElem?_drop]
  have hlt : i < r.encode.length := by
    rw [r.length_encode]
    exact hi
  rw [readByte, encodedBlock]
  simp only [List.getD_eq_getElem?_getD, hget, List.getElem?_eq_getElem hlt, Option.getD_some]

variable {window : ℕ × ℕ}

/-- The entries of a packed block carry what each reading decodes to. -/
theorem idata_handleRecvData (u : Undefined) (title : String) [DecidableEq δ]
    (t : WindowReadings δ window) :
    (handleRecvData u t.vPoints (encodedBlock title t.readings) window.1 window.2 []).map
        (fun d => d.entry.value.idata) =
      t.readings.map fun r => r.decoded u := by
  have hentries : windowEntries u t.vPoints (encodedBlock title t.readings) window =
      (Layout.place (fun r : TypedReading δ => pointWidth r.point) 0 t.readings).map
        fun p => decode u (encodedBlock title t.readings) p.1 p.2.point := by
    rw [windowEntries, t.points_eq]
    cases hreadings : t.readings with
    | nil => simp [Layout.place]
    | cons r readings =>
        have hdata : CarriesData (encodedBlock title (r :: readings)) := by
          have hpos : 0 < ((r :: readings).flatMap TypedReading.encode).length := by
            have := r.type.bytes_pos
            rw [List.flatMap_cons, List.length_append, r.length_encode, r.pointWidth_eq]
            omega
          simp only [CarriesData, encodedBlock, RTSrcInfo.setIdata]
          omega
        rw [if_pos hdata, Layout.place_map, List.map_map]
        rfl
  rw [handleRecvData_eq, List.nil_append, hentries, List.map_map]
  calc _ = (Layout.place (fun r : TypedReading δ => pointWidth r.point) 0 t.readings).map
        (fun p => p.2.decoded u) := by
        refine List.map_congr_left fun p hp => ?_
        have hfactor : ¬ p.2.point.factor ≠ CDouble.one := not_not.mpr p.2.factor_eq
        have hpoint : (decode u (encodedBlock title t.readings) p.1 p.2.point).point =
            p.2.point := rfl
        simp only [Function.comp, Decoded.entry, hpoint, if_neg hfactor]
        exact value_decode_encoded hp
    _ = t.readings.map fun r => r.decoded u := by
        conv_rhs => rw [← Layout.map_snd_place (fun r => pointWidth r.point) 0 t.readings]
        rw [List.map_map]
        rfl

/-- The values of a packed window come back in order, whatever the undefined results are, if and
only if there is no negative `S16` and no 32-bit value among them. -/
theorem roundTrip_iff [DecidableEq δ] (title : String) (t : WindowReadings δ window) :
    (∀ u, (handleRecvData u t.vPoints (encodedBlock title t.readings) window.1 window.2 []).map
      (fun d => d.entry.value.idata) = t.readings.map TypedReading.value) ↔
    ∀ r ∈ t.readings, r.Survives := by
  simp only [idata_handleRecvData, List.map_inj_left]
  constructor
  · intro h r hr
    exact r.decoded_eq_iff.mp fun u => h u r hr
  · intro h u r hr
    exact r.decoded_eq_iff.mpr (h r hr) u

/-- The `S16` value -1 comes back as 65535. -/
theorem not_roundTrip :
    ¬ ∀ (window : ℕ × ℕ) (u : Undefined) (title : String) (t : WindowReadings Decimal window),
      (handleRecvData u t.vPoints (encodedBlock title t.readings) window.1 window.2 []).map
        (fun d => d.entry.value.idata) = t.readings.map TypedReading.value := by
  intro h
  let reading : TypedReading Decimal :=
    { point := loadPoint ⟨"current", "S16", ⟨1000000⟩, "A", 3600⟩
      type := .S16
      value := -1
      dataType_eq := rfl
      factor_eq := rfl
      in_range := ⟨by decide, by decide⟩ }
  have hback := h (3600, 3614) Undefined.zero "运行信息" ⟨[reading.point], [reading], by decide⟩
  rw [idata_handleRecvData] at hback
  exact absurd hback (by decide)

end CsiFirmware.Task
