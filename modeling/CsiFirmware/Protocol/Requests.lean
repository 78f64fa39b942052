import CsiFirmware.Protocol.Crc

/-!
# Request frames

Reference: `Modbus::AssemblePacket`.

What the calls of `AssemblePacket` emit for the blocks of a table. The CRC over each frame is zero
(`crc16_requestFrame`).
-/

namespace CsiFirmware.Protocol

variable {δ : Type}

/-! ## The frames of a table -/

/-- A request checks to zero. -/
theorem crc16_requestFrame (pkg : ModbusPkg) : crc16 (requestFrame pkg) 8 = 0 :=
  (crc16_request_eq_zero_iff pkg _ _).mpr rfl

/-- The frame for a block. -/
def pointFrame (point : ModbusPoint δ) : List UInt8 :=
  match point.mpkg with
  | pkg :: _ => requestFrame pkg
  | [] => []

/-- Every block of a table, by its index, with its frame. -/
def tableFrames (table : List (ModbusPoint δ)) : List (ℕ × List UInt8) :=
  table.mapIdx fun k point => (k, pointFrame point)

/-- One frame for each point. -/
@[simp] theorem length_tableFrames (table : List (ModbusPoint δ)) :
    (tableFrames table).length = table.length := List.length_mapIdx

/-- The frame of a point is numbered with its place. -/
theorem tableFrames_getElem? {table : List (ModbusPoint δ)} {k : ℕ} {point : ModbusPoint δ}
    (h : table[k]? = some point) : (tableFrames table)[k]? = some (k, pointFrame point) := by
  rw [tableFrames, List.getElem?_mapIdx, h]
  rfl

variable {m m' : Modbus δ} {sendLen : Int} {sendBuf : List UInt8}

/-- A call that assembles a frame assembles that of block `nextPkg` and counts it. -/
theorem assemblePacket_sent (h : assemblePacket m = some (sendLen, sendBuf, m'))
    (hlen : sendLen ≠ -1) : ∃ point, m.vPoint[m.nextPkg]? = some point ∧
      sendBuf = pointFrame point ∧ m' = { m with nextPkg := m.nextPkg + 1 } := by
  unfold assemblePacket at h
  split at h
  next point hpoint =>
    split at h
    next pkg _ hpkg =>
      cases h
      exact ⟨point, hpoint, by rw [pointFrame, hpkg], rfl⟩
    · cases h
  · cases h
    exact absurd rfl hlen

/-- The call past the last block starts again. -/
theorem assemblePacket_end (h : assemblePacket m = some (-1, sendBuf, m')) :
    m.vPoint.length ≤ m.nextPkg ∧ m' = { m with nextPkg := 0 } := by
  unfold assemblePacket at h
  split at h
  · split at h
    · exact absurd (congrArg Prod.fst (Option.some.inj h)) (by simp)
    · cases h
  next hpoint =>
    cases h
    exact ⟨List.getElem?_eq_none_iff.mp hpoint, rfl⟩

/-- If every block has a package, there is always a result. -/
theorem exists_assemblePacket (h : ∀ point ∈ m.vPoint, point.mpkg ≠ []) :
    ∃ sent, assemblePacket m = some sent := by
  unfold assemblePacket
  split
  next point hpoint =>
    split
    · exact ⟨_, rfl⟩
    next hpkg => exact absurd hpkg (h point (List.mem_of_getElem? hpoint))
  · exact ⟨_, rfl⟩

end CsiFirmware.Protocol
