import CsiFirmware.Lib.BigEndian
import CsiFirmware.Lib.Layout
import CsiFirmware.Task.Receive

/-!
# Decoding the collected blocks

Reference: `TaskSerial::loadPcsProtocolByJson`, `TaskSerial::handleAllRecvData` and
`TaskSerial::handleRecvData`.

The decoder walks the register table once for every address window of a block's title. It never
computes an offset from an address: a byte counter starts at zero and moves on by the width of each
point in the window. `handleRecvData_eq` and `handleAllRecvData_eq` turn the loops into
`Layout.place`, and everything proved about decoding goes through `mem_handleAllRecvData_iff`.
-/

namespace CsiFirmware.Task

variable {δ : Type}

/-- What the decoder does not define itself. -/
structure Undefined where
  /-- The byte that `it.buf[i]` yields for an index `i` past the end of the vector. -/
  heap : ℕ → UInt8
  /-- The value of `tmp[0] << 32`, a shift by the full width of `int`. -/
  shl32 : UInt8 → BitVec 32

/-! ## The register table -/

/-- One element of the JSON array `points`. -/
structure PointItem (δ : Type) where
  name : String
  dataType : String
  factor : δ
  unit : String
  addr : Int
deriving DecidableEq

/-- The body of the loop in `loadPcsProtocolByJson`. The members it leaves alone are empty or
indeterminate and are never read. -/
def loadPoint (item : PointItem δ) : ModbusPoint δ :=
  { name := item.name, description := "", dataType := item.dataType, factor := item.factor,
    unit := item.unit, res := 0, invalid := 0,
    mpkg := [{ func := 0, reg := (UInt8.ofInt (item.addr >>> (8 : ℕ)), UInt8.ofInt item.addr),
               len := (0, 0) }] }

/-- `merged`, the register address of a point. Every loaded point has its one package. -/
def merged (point : ModbusPoint δ) : ℕ :=
  match point.mpkg with
  | pkg :: _ => regValue pkg.reg
  | [] => 0

/-- Addresses that fit into two bytes survive the split into two bytes. -/
theorem merged_loadPoint {item : PointItem δ} (h0 : 0 ≤ item.addr) (h1 : item.addr ≤ 65535) :
    (merged (loadPoint item) : Int) = item.addr := by
  obtain ⟨a, ha⟩ := Int.eq_ofNat_of_zero_le h0
  have hhigh : (UInt8.ofInt (item.addr >>> (8 : ℕ))).toNat = a / 256 := by
    rw [ha, Int.shiftRight_eq_div_pow]
    simp only [UInt8.ofInt, UInt8.toNat_ofNat']
    omega
  have hlow : (UInt8.ofInt item.addr).toNat = a % 256 := by
    rw [ha]
    simp only [UInt8.ofInt, UInt8.toNat_ofNat']
    omega
  have hmerged : merged (loadPoint item) = (a / 256) <<< 8 ||| (UInt8.ofInt item.addr).toNat := by
    rw [← hhigh]
    rfl
  rw [hmerged, BigEndian.shiftLeft_or_byte, hlow]
  omega

/-! ## One point -/

/-- The number of bytes read for a data type. -/
def width (dataType : String) : ℕ :=
  if dataType = "U16" ∨ dataType = "S16" then 2
  else if dataType = "U32" ∨ dataType = "S32" then 4
  else if dataType = "U8" then 1
  else if dataType = "ASCII" then 20
  else 0

/-- The width of a table point. -/
def pointWidth (point : ModbusPoint δ) : ℕ := width point.dataType

/-- A byte promoted to `int`. -/
def promote (b : UInt8) : BitVec 32 := b.toBitVec.setWidth 32

/-- `value`, computed from the bytes in `tmp`. ASCII bytes are read and dropped. -/
def rawValue (u : Undefined) (dataType : String) (tmp : ℕ → UInt8) : BitVec 32 :=
  if dataType = "U16" ∨ dataType = "S16" then promote (tmp 0) <<< 8 ||| promote (tmp 1)
  else if dataType = "U32" ∨ dataType = "S32" then
    u.shl32 (tmp 0) ||| promote (tmp 1) <<< 16 ||| promote (tmp 2) <<< 8 ||| promote (tmp 3)
  else if dataType = "U8" then promote (tmp 0)
  else 0

/-- The value depends on the bytes of the data type's width only. -/
theorem rawValue_congr {u : Undefined} {dataType : String} {tmp tmp' : ℕ → UInt8}
    (h : ∀ i < width dataType, tmp i = tmp' i) :
    rawValue u dataType tmp = rawValue u dataType tmp' := by
  simp only [width] at h
  simp only [rawValue]
  split_ifs at h ⊢
  · rw [h 0 (by decide), h 1 (by decide)]
  · rw [h 0 (by decide), h 1 (by decide), h 2 (by decide), h 3 (by decide)]
  · rw [h 0 (by decide)]
  · rfl
  · rfl

/-- A pushed entry together with where it comes from: the block, the table point, the value of
`count` before the point was read, and `value` before scaling. -/
structure Decoded (δ : Type) where
  block : RTSrcInfo δ
  point : ModbusPoint δ
  count : ℕ
  value : Int
deriving DecidableEq

/-- `it.buf[i]`. -/
def readByte (u : Undefined) (it : RTSrcInfo δ) (i : ℕ) : UInt8 := it.buf.getD i (u.heap i)

/-- The value of one point, read at `count` bytes into the block. -/
def decode (u : Undefined) (it : RTSrcInfo δ) (count : ℕ) (point : ModbusPoint δ) : Decoded δ :=
  { block := it, point, count
    value := (rawValue u point.dataType fun i => readByte u it (count + i)).toInt }

/-- The `s_RTSrcInfo` that is pushed. Of the three members of `value` only one carries the reading.
-/
def Decoded.entry [CDouble δ] [DecidableEq δ] (d : Decoded δ) : RTSrcInfo δ :=
  { title := d.block.title, sourceName := d.point.name, buf := [], unit := d.point.unit
    value :=
      if d.point.factor ≠ CDouble.one then ⟨-1, CDouble.scale d.value d.point.factor, "NULL"⟩
      else ⟨d.value, CDouble.negOne, "NULL"⟩ }

/-! ## The loops -/

/-- The body of the loop over `v_points`, acting on `count` and the entries pushed so far. -/
def handlePoint (u : Undefined) (it : RTSrcInfo δ) (haddr taddr : ℕ) :
    ℕ × List (Decoded δ) → ModbusPoint δ → ℕ × List (Decoded δ)
  | (count, pushed), point =>
      if haddr ≤ merged point ∧ merged point ≤ taddr then
        (count + pointWidth point, pushed ++ [decode u it count point])
      else (count, pushed)

/-- `handleRecvData`: the points of a window, unless the block says that it has no data. -/
def handleRecvData (u : Undefined) (vPoints : List (ModbusPoint δ)) (it : RTSrcInfo δ)
    (haddr taddr : ℕ) (pushed : List (Decoded δ)) : List (Decoded δ) :=
  if it.value.idata ≠ 0 ∧ it.value.idata ≠ -1 then
    (vPoints.foldl (handlePoint u it haddr taddr) (0, pushed)).2
  else pushed

/-- The arguments `haddr` and `taddr` of the `handleRecvData` calls made for a title. -/
def addressWindows (title : String) : List (ℕ × ℕ) :=
  if title = "设备信息" then [(3300, 3321)]
  else if title = "运行信息" then [(3600, 3614), (3618, 3667)]
  else if title = "电池组信息" then [(3680, 3694)]
  else if title = "运行参数" then [(3900, 3904), (3906, 3923), (3929, 3955)]
  else if title = "保护参数" then [(3800, 3845)]
  else if title = "采样校正" then [(5000, 5017), (5024, 5037)]
  else if title = "并离网模式设置" then [(8000, 8012), (8014, 8019)]
  else if title = "无功调节" then [(8030, 8040)]
  else if title = "低电压穿越参数" then [(8100, 8110)]
  else if title = "高电压穿越参数" then [(8150, 8159)]
  else if title = "功率缓启" then [(8200, 8204)]
  else []

/-- What is pushed to `v_singleRTSrcInfo`, which is cleared first. -/
def handleAllRecvData (u : Undefined) (vPoints : List (ModbusPoint δ))
    (vRtSrcInfo : List (RTSrcInfo δ)) : List (Decoded δ) :=
  vRtSrcInfo.foldl (fun pushed it =>
    (addressWindows it.title).foldl (fun pushed window =>
      handleRecvData u vPoints it window.1 window.2 pushed) pushed) []

/-- `v_singleRTSrcInfo` after `handleAllRecvData`. -/
def vSingleRTSrcInfo [CDouble δ] [DecidableEq δ] (u : Undefined) (vPoints : List (ModbusPoint δ))
    (vRtSrcInfo : List (RTSrcInfo δ)) : List (RTSrcInfo δ) :=
  (handleAllRecvData u vPoints vRtSrcInfo).map Decoded.entry

/-! ## The loops as layouts -/

/-- The table points whose address lies in a window, in table order. -/
def windowPoints (vPoints : List (ModbusPoint δ)) (window : ℕ × ℕ) : List (ModbusPoint δ) :=
  vPoints.filter fun point => window.1 ≤ merged point ∧ merged point ≤ window.2

/-- The block carries bytes. `0` stands for an error reply and `-1` for a failed attempt. -/
def CarriesData (it : RTSrcInfo δ) : Prop := it.value.idata ≠ 0 ∧ it.value.idata ≠ -1

instance (it : RTSrcInfo δ) : Decidable (CarriesData it) := inferInstanceAs (Decidable (_ ∧ _))

/-- What one window of one block yields. -/
def windowEntries (u : Undefined) (vPoints : List (ModbusPoint δ)) (it : RTSrcInfo δ)
    (window : ℕ × ℕ) : List (Decoded δ) :=
  if CarriesData it then
    (Layout.place pointWidth 0 (windowPoints vPoints window)).map fun p => decode u it p.1 p.2
  else []

/-- The loop places the points of the window one behind the other. -/
private theorem foldl_handlePoint (u : Undefined) (it : RTSrcInfo δ) (haddr taddr : ℕ)
    (vPoints : List (ModbusPoint δ)) (count : ℕ) (pushed : List (Decoded δ)) :
    (vPoints.foldl (handlePoint u it haddr taddr) (count, pushed)).2 =
      pushed ++ (Layout.place pointWidth count (windowPoints vPoints (haddr, taddr))).map
        fun p => decode u it p.1 p.2 := by
  induction vPoints generalizing count pushed with
  | nil => simp [windowPoints, Layout.place]
  | cons point vPoints ih =>
      by_cases hin : haddr ≤ merged point ∧ merged point ≤ taddr
      · have hwin : windowPoints (point :: vPoints) (haddr, taddr) =
            point :: windowPoints vPoints (haddr, taddr) := by
          simp [windowPoints, hin]
        rw [List.foldl_cons, handlePoint, if_pos hin, ih, hwin, Layout.place, List.map_cons,
          List.append_assoc]
        rfl
      · have hwin : windowPoints (point :: vPoints) (haddr, taddr) =
            windowPoints vPoints (haddr, taddr) := by
          simp only [windowPoints, List.filter_cons, hin, decide_false]
          rfl
        rw [List.foldl_cons, handlePoint, if_neg hin, ih, hwin]

/-- One call appends the entries of its window. -/
theorem handleRecvData_eq (u : Undefined) (vPoints : List (ModbusPoint δ)) (it : RTSrcInfo δ)
    (window : ℕ × ℕ) (pushed : List (Decoded δ)) :
    handleRecvData u vPoints it window.1 window.2 pushed =
      pushed ++ windowEntries u vPoints it window := by
  by_cases hdata : CarriesData it
  · rw [windowEntries, if_pos hdata, handleRecvData, foldl_handlePoint]
    exact if_pos hdata
  · rw [windowEntries, if_neg hdata, List.append_nil]
    exact if_neg hdata

/-- A poll yields the entries of all blocks, window by window. -/
theorem handleAllRecvData_eq (u : Undefined) (vPoints : List (ModbusPoint δ))
    (vRtSrcInfo : List (RTSrcInfo δ)) :
    handleAllRecvData u vPoints vRtSrcInfo =
      vRtSrcInfo.flatMap fun it =>
        (addressWindows it.title).flatMap (windowEntries u vPoints it) := by
  have hwindows (it : RTSrcInfo δ) (ws : List (ℕ × ℕ)) (pushed : List (Decoded δ)) :
      ws.foldl (fun pushed w => handleRecvData u vPoints it w.1 w.2 pushed) pushed =
        pushed ++ ws.flatMap (windowEntries u vPoints it) := by
    induction ws generalizing pushed with
    | nil => simp
    | cons w ws ih => rw [List.foldl_cons, handleRecvData_eq, ih, List.flatMap_cons,
        List.append_assoc]
  have hblocks (pushed : List (Decoded δ)) :
      vRtSrcInfo.foldl (fun pushed it => (addressWindows it.title).foldl (fun pushed w =>
          handleRecvData u vPoints it w.1 w.2 pushed) pushed) pushed =
        pushed ++ vRtSrcInfo.flatMap fun it =>
          (addressWindows it.title).flatMap (windowEntries u vPoints it) := by
    induction vRtSrcInfo generalizing pushed with
    | nil => simp
    | cons it vRtSrcInfo ih => rw [List.foldl_cons, hwindows, ih, List.flatMap_cons,
        List.append_assoc]
  exact hblocks []

/-- An entry is pushed for each point of each window of each block that carries data, and it is read
at the total width of the window's points before it. -/
theorem mem_handleAllRecvData_iff {u : Undefined} {vPoints : List (ModbusPoint δ)}
    {vRtSrcInfo : List (RTSrcInfo δ)} {d : Decoded δ} :
    d ∈ handleAllRecvData u vPoints vRtSrcInfo ↔
      ∃ it ∈ vRtSrcInfo, CarriesData it ∧ ∃ window ∈ addressWindows it.title,
        ∃ before point after, windowPoints vPoints window = before ++ point :: after ∧
          d = decode u it (Layout.size pointWidth before) point := by
  rw [handleAllRecvData_eq]
  simp only [List.mem_flatMap, windowEntries]
  constructor
  · rintro ⟨it, hit, window, hwindow, hd⟩
    split_ifs at hd with hdata
    · obtain ⟨⟨count, point⟩, hplace, rfl⟩ := List.mem_map.mp hd
      obtain ⟨before, after, hsplit, rfl⟩ := Layout.mem_place_iff.mp hplace
      exact ⟨it, hit, hdata, window, hwindow, before, point, after, hsplit, by rw [Nat.zero_add]⟩
    · exact absurd hd List.not_mem_nil
  · rintro ⟨it, hit, hdata, window, hwindow, before, point, after, hsplit, rfl⟩
    refine ⟨it, hit, window, hwindow, ?_⟩
    rw [if_pos hdata]
    exact List.mem_map.mpr ⟨(Layout.size pointWidth before, point),
      Layout.mem_place_iff.mpr ⟨before, after, hsplit, (Nat.zero_add _).symm⟩, rfl⟩

end CsiFirmware.Task
