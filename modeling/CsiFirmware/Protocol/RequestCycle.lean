import CsiFirmware.Protocol.Requests

/-!
# A cycle of requests

Reference: `Modbus::AssemblePacket` and `modbusPoint`.

A point of the table may have several packages, says the source, each of them a request. The
assembler goes through the points and takes the first package of each: a cycle that has a result
emits one frame for each point. This is one for each package exactly if every point has one.
-/

namespace CsiFirmware.Protocol

variable {δ : Type}

/-- The calls of `AssemblePacket` up to the one that returns -1, and the frames of the others. -/
inductive Cycle : Modbus δ → List (List UInt8) → Modbus δ → Prop where
  | done {m m' : Modbus δ} {sendBuf : List UInt8} (h : assemblePacket m = some (-1, sendBuf, m')) :
      Cycle m [] m'
  | sent {m m₁ m' : Modbus δ} {sendLen : Int} {sendBuf : List UInt8} {frames : List (List UInt8)}
      (h : assemblePacket m = some (sendLen, sendBuf, m₁)) (hlen : sendLen ≠ -1)
      (rest : Cycle m₁ frames m') : Cycle m (sendBuf :: frames) m'

/-- The frames of all packages, in table order. -/
def packageFrames (table : List (ModbusPoint δ)) : List (List UInt8) :=
  table.flatMap fun point => point.mpkg.map requestFrame

/-- A cycle emits the frames of the first packages of the points that are left. -/
theorem Cycle.frames_eq {m m' : Modbus δ} {frames : List (List UInt8)} (h : Cycle m frames m') :
    (∀ point ∈ m.vPoint.drop m.nextPkg, point.mpkg ≠ []) ∧
      frames = (m.vPoint.drop m.nextPkg).map pointFrame := by
  induction h with
  | done h =>
      obtain ⟨hle, -⟩ := assemblePacket_end h
      rw [List.drop_eq_nil_of_le hle]
      simp
  | @sent m m₁ m' sendLen sendBuf frames h hlen _ ih =>
      obtain ⟨point, hpoint, rfl, rfl⟩ := assemblePacket_sent h hlen
      obtain ⟨hlt, rfl⟩ := List.getElem?_eq_some_iff.mp hpoint
      obtain ⟨hpackages, hframes⟩ := ih
      rw [List.drop_eq_getElem_cons hlt]
      refine ⟨?_, ?_⟩
      · -- without a package the call would have had no result
        refine List.forall_mem_cons.mpr ⟨fun hnil => ?_, hpackages⟩
        simp [assemblePacket, hpoint, hnil] at h
      · rw [hframes, List.map_cons]

/-- If every point that is left has a package, the cycle has a result. -/
theorem exists_cycle {m : Modbus δ} {points : List (ModbusPoint δ)}
    (hdrop : m.vPoint.drop m.nextPkg = points) (h : ∀ point ∈ points, point.mpkg ≠ []) :
    ∃ m', Cycle m (points.map pointFrame) m' := by
  -- by induction on the points that are left, while `nextPkg` moves on
  induction points generalizing m with
  | nil =>
      have hend : m.vPoint[m.nextPkg]? = none :=
        List.getElem?_eq_none_iff.mpr (List.drop_eq_nil_iff.mp hdrop)
      have hcall : assemblePacket m = some (-1, [], { m with nextPkg := 0 }) := by
        simp only [assemblePacket, hend]
      exact ⟨_, .done hcall⟩
  | cons point points ih =>
      rw [List.forall_mem_cons] at h
      have hpoint : m.vPoint[m.nextPkg]? = some point := by
        rw [← List.head?_drop, hdrop]
        rfl
      have hrest : m.vPoint.drop (m.nextPkg + 1) = points := by
        rw [← List.tail_drop, hdrop]
        rfl
      obtain ⟨pkg, more, hmpkg⟩ := List.exists_cons_of_ne_nil h.1
      have hcall : assemblePacket m =
          some (7, pointFrame point, { m with nextPkg := m.nextPkg + 1 }) := by
        simp only [assemblePacket, hpoint, hmpkg, pointFrame]
      obtain ⟨m', hcycle⟩ := ih (m := { m with nextPkg := m.nextPkg + 1 }) hrest h.2
      exact ⟨m', .sent hcall (by decide) hcycle⟩

/-- The packages of the first point come first. -/
theorem packageFrames_cons (point : ModbusPoint δ) (points : List (ModbusPoint δ)) :
    packageFrames (point :: points) = point.mpkg.map requestFrame ++ packageFrames points :=
  List.flatMap_cons

/-- There are at least as many packages as points, if every point has one. -/
theorem length_le_packageFrames {table : List (ModbusPoint δ)}
    (h : ∀ point ∈ table, point.mpkg ≠ []) : table.length ≤ (packageFrames table).length := by
  induction table with
  | nil => exact Nat.zero_le _
  | cons point table ih =>
      rw [List.forall_mem_cons] at h
      have hpos : 0 < point.mpkg.length := List.length_pos_of_ne_nil h.1
      have hrest := ih h.2
      rw [packageFrames_cons, List.length_append, List.length_map, List.length_cons]
      omega

/-- The frames of the first packages are those of all packages if and only if there are no others.
-/
theorem map_pointFrame_eq_iff {table : List (ModbusPoint δ)}
    (h : ∀ point ∈ table, point.mpkg ≠ []) :
    table.map pointFrame = packageFrames table ↔ ∀ point ∈ table, point.mpkg.length = 1 := by
  induction table with
  | nil => simp [packageFrames]
  | cons point table ih =>
      rw [List.forall_mem_cons] at h ⊢
      obtain ⟨pkg, more, hmpkg⟩ := List.exists_cons_of_ne_nil h.1
      have hframe : pointFrame point = requestFrame pkg := by rw [pointFrame, hmpkg]
      rw [packageFrames_cons, List.map_cons, hframe, hmpkg, List.map_cons, List.cons_append,
        List.cons_inj_right]
      constructor
      · intro heq
        have hlength := congrArg List.length heq
        -- the rest of the table has a frame for each point, so there is none left for `more`
        have hle := length_le_packageFrames h.2
        simp only [List.length_map, List.length_append] at hlength
        have hmore : more = [] := List.eq_nil_of_length_eq_zero (by omega)
        subst hmore
        exact ⟨rfl, (ih h.2).mp heq⟩
      · rintro ⟨hone, hrest⟩
        have hmore : more = [] := List.eq_nil_of_length_eq_zero (Nat.succ.inj hone)
        subst hmore
        exact (ih h.2).mpr hrest

/-- A full cycle of a new protocol object has a result and emits one frame for each package of each
point, in table order, if and only if every point has exactly one package. -/
theorem cycle_complete_iff (table : List (ModbusPoint δ)) (serial : ℕ) :
    (∃ m', Cycle (Modbus.new table serial) (packageFrames table) m') ↔
      ∀ point ∈ table, point.mpkg.length = 1 := by
  constructor
  · rintro ⟨m', hcycle⟩
    obtain ⟨hpackages, hframes⟩ := hcycle.frames_eq
    exact (map_pointFrame_eq_iff hpackages).mp hframes.symm
  · intro hone
    have hpackages : ∀ point ∈ table, point.mpkg ≠ [] := by
      intro point hpoint hnil
      have hlength := hone point hpoint
      simp [hnil] at hlength
    rw [← (map_pointFrame_eq_iff hpackages).mpr hone]
    exact exists_cycle (m := Modbus.new table serial) rfl hpackages

/-- A point with two packages. -/
private def twoPackages : ModbusPoint Decimal :=
  { name := "运行信息", description := "", dataType := "U16", factor := CDouble.one, unit := ""
    res := 1, invalid := 1
    mpkg := [{ func := 4, reg := (0x0e, 0x10), len := (0, 0x50) },
      { func := 4, reg := (0x0e, 0x60), len := (0, 0x14) }] }

/-- The second package of a point is not requested. -/
theorem cycle_not_complete :
    ¬ ∀ (table : List (ModbusPoint Decimal)) (serial : ℕ),
      ∃ m', Cycle (Modbus.new table serial) (packageFrames table) m' := by
  intro h
  have hone := (cycle_complete_iff _ _).mp (h [twoPackages] 0) twoPackages
    (List.mem_singleton_self _)
  cases hone

end CsiFirmware.Protocol
