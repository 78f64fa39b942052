import CsiFirmware.Task.Decode

/-!
# Where the decoder reads

A Modbus reply carries the registers of its request in order, two bytes each, so the register at
address `a` of a block that starts at `base` lies at byte `2 * (a - base)`. The decoder reads at the
total width of the window's points before the one it decodes. `wordsFromOwnRegister_iff` says for
which tables and requests the two agree, and `readsInBounds_iff` for which tables and replies the
decoder stays inside the reply.
-/

namespace CsiFirmware.Task

open Protocol

variable {δ : Type} [CDouble δ]

/-! ## Words -/

/-- Promotion keeps the value of a byte. -/
@[simp] theorem toNat_promote (b : UInt8) : (promote b).toNat = b.toNat := by
  have := b.toNat_lt
  rw [promote, BitVec.toNat_setWidth, UInt8.toNat_toBitVec]
  omega

/-- A two-byte value is an unsigned big-endian word, for `S16` as well. -/
theorem toInt_rawValue_word {u : Undefined} {dataType : String} {tmp : ℕ → UInt8}
    (h : dataType = "U16" ∨ dataType = "S16") :
    (rawValue u dataType tmp).toInt = BigEndian.value [tmp 0, tmp 1] := by
  have h0 := (tmp 0).toNat_lt
  have h1 := (tmp 1).toNat_lt
  have hnat : (rawValue u dataType tmp).toNat = BigEndian.value [tmp 0, tmp 1] := by
    rw [rawValue, if_pos h, BitVec.toNat_or, BitVec.toNat_shiftLeft, toNat_promote, toNat_promote,
      Nat.mod_eq_of_lt (by rw [Nat.shiftLeft_eq]; omega), BigEndian.shiftLeft_or_byte]
    simp [BigEndian.value_cons]
  have hlt := BigEndian.value_lt [tmp 0, tmp 1]
  simp only [List.length_cons, List.length_nil] at hlt
  rw [BitVec.toInt_eq_toNat_of_lt (by omega), hnat]

omit [CDouble δ] in
/-- A word is two bytes, the higher one first. -/
theorem value_decode_word {u : Undefined} {it : RTSrcInfo δ} {count : ℕ} {point : ModbusPoint δ}
    (h : point.dataType = "U16" ∨ point.dataType = "S16") :
    (decode u it count point).value =
      BigEndian.value [readByte u it count, readByte u it (count + 1)] :=
  toInt_rawValue_word h

/-! ## Register alignment -/

/-- A table of registers: the addresses are register addresses, and no two points share one. -/
structure RegisterTable (δ : Type) where
  items : List (PointItem δ)
  addr_range : ∀ item ∈ items, 0 ≤ item.addr ∧ item.addr ≤ 65535
  addr_distinct : (items.map PointItem.addr).Nodup

/-- `v_points` after `loadPcsProtocolByJson`. -/
def RegisterTable.vPoints (table : RegisterTable δ) : List (ModbusPoint δ) :=
  table.items.map loadPoint

/-- A block request, and the number of registers it is answered with. The byte count of a reply is a
single byte. -/
structure ReadRequest where
  title : String
  pkg : ModbusPkg
  registers : ℕ
  registers_pos : 0 < registers
  registers_le : 2 * registers ≤ 255

/-- The start address in the request frame. -/
def ReadRequest.base (r : ReadRequest) : ℕ :=
  regValue ((requestFrame r.pkg).getD 2 0, (requestFrame r.pkg).getD 3 0)

/-- An answered block request. -/
structure ReadBlock where
  request : ReadRequest
  reply : PositiveReply
  length_data : reply.data.length = 2 * request.registers

/-- The big-endian word at a register of the block. -/
def ReadBlock.word (b : ReadBlock) (addr : ℕ) : ℕ :=
  BigEndian.value ((b.reply.data.drop (2 * (addr - b.request.base))).take 2)

/-- What `sendPacketProc` hands on for the block. -/
def ReadBlock.info (b : ReadBlock) : RTSrcInfo δ :=
  (parsePacketProc { RTSrcInfo.fresh with title := b.request.title } b.reply.bytes).rtSrcInfo

/-- What `sendPacketProc` makes of the reply. -/
theorem ReadBlock.info_eq (b : ReadBlock) :
    (b.info : RTSrcInfo δ) =
      { (RTSrcInfo.fresh : RTSrcInfo δ).setIdata b.reply.data.length with
        title := b.request.title, buf := b.reply.data } := by
  rw [info, parsePacketProc_bytes]
  rfl

/-- The buffer of a block is not one of the values that mean no data. -/
theorem ReadBlock.carriesData (b : ReadBlock) : CarriesData (b.info : RTSrcInfo δ) := by
  have hpos := b.reply.data_pos
  rw [info_eq]
  exact ⟨by simp only [RTSrcInfo.setIdata]; omega, by simp only [RTSrcInfo.setIdata]; omega⟩

/-- Each entry pushed for a `U16` point inside a block is decoded from the word at the point's own
register, before scaling. -/
def WordsFromOwnRegister (u : Undefined) (vPoints : List (ModbusPoint δ))
    (blocks : List ReadBlock) : Prop :=
  ∀ d ∈ handleAllRecvData u vPoints (blocks.map ReadBlock.info), d.point.dataType = "U16" →
    ∀ b ∈ blocks, b.info = d.block → b.request.base ≤ merged d.point →
      merged d.point < b.request.base + b.request.registers →
        d.value = b.word (merged d.point)

/-- In each window of the request's title, the points before a `U16` point inside the block take up
exactly the registers between the block's base and that point. -/
def RegistersPacked (vPoints : List (ModbusPoint δ)) (r : ReadRequest) : Prop :=
  ∀ window ∈ addressWindows r.title, ∀ before point after,
    windowPoints vPoints window = before ++ point :: after → point.dataType = "U16" →
      r.base ≤ merged point → merged point < r.base + r.registers →
        Layout.size pointWidth before = 2 * (merged point - r.base)

/-- Two consecutive bytes of a buffer. -/
private theorem take_drop_two {bs : List UInt8} {i : ℕ} (h : i + 1 < bs.length) :
    (bs.drop i).take 2 = [bs.getD i 0, bs.getD (i + 1) 0] := by
  rw [List.drop_eq_getElem_cons (by omega), List.drop_eq_getElem_cons h, List.getD_eq_getElem?_getD,
    List.getD_eq_getElem?_getD, List.getElem?_eq_getElem h, List.getElem?_eq_getElem (by omega)]
  rfl

/-- A reply of `2 * registers` data bytes, of which only the one at offset `i` is not zero. -/
def spikeReply (registers i : ℕ) (hpos : 0 < registers) (hle : 2 * registers ≤ 255) :
    PositiveReply where
  addr := 0x01
  func := 0x03
  data := (List.range (2 * registers)).map fun j => if j = i then 1 else 0
  crc := (0, 0)
  func_eq := Or.inl rfl
  data_pos := by rw [List.length_map, List.length_range]; omega
  data_le := by rw [List.length_map, List.length_range]; exact hle

/-- A block that is zero but for one byte. -/
def spikeBlock (i : ℕ) (r : ReadRequest) : ReadBlock where
  request := r
  reply := spikeReply r.registers i r.registers_pos r.registers_le
  length_data := by simp [spikeReply]

/-- The one byte of the block that is not zero is the byte `i`. -/
private theorem getD_spike {r : ReadRequest} {i : ℕ} (hi : i < 2 * r.registers) (j : ℕ) :
    (spikeBlock i r).reply.data.getD j 0 = if j = i then 1 else 0 := by
  have hdata : (spikeBlock i r).reply.data =
      (List.range (2 * r.registers)).map fun j => if j = i then (1 : UInt8) else 0 := rfl
  rw [hdata, List.getD_eq_getElem?_getD, List.getElem?_map]
  by_cases hj : j < 2 * r.registers
  · rw [List.getElem?_range hj]
    rfl
  · rw [List.getElem?_eq_none (by rw [List.length_range]; omega), if_neg (by omega)]
    rfl

/-- Nothing is read past the end, and the overlong shift yields zero. -/
def Undefined.zero : Undefined := ⟨fun _ => 0, fun _ => 0⟩

/-- A block with a single nonzero byte tells the offsets of words apart. -/
private theorem count_eq_of_spike {r : ReadRequest} {i count : ℕ} {point : ModbusPoint δ}
    (htype : point.dataType = "U16") (hi : i + 1 < 2 * r.registers)
    (h : (decode Undefined.zero (spikeBlock i r).info count point).value =
      BigEndian.value (((spikeBlock i r).reply.data.drop i).take 2)) : count = i := by
  have hexpected : BigEndian.value (((spikeBlock i r).reply.data.drop i).take 2) = 256 := by
    have hlen : (spikeBlock i r).reply.data.length = 2 * r.registers := (spikeBlock i r).length_data
    rw [take_drop_two (by omega), getD_spike (by omega), getD_spike (by omega), if_pos rfl,
      if_neg (by omega)]
    rfl
  have hread (j : ℕ) : readByte Undefined.zero ((spikeBlock i r).info : RTSrcInfo δ) j =
      if j = i then 1 else 0 := by
    rw [ReadBlock.info_eq]
    exact getD_spike (by omega) j
  rw [value_decode_word (Or.inl htype), hread, hread, hexpected] at h
  by_contra hne
  rw [if_neg hne] at h
  split_ifs at h <;> simp [BigEndian.value_cons] at h

/-- Whatever a poll of the given requests is answered, its `U16` entries come from their own
registers if and only if the table is packed from the base of every request. -/
theorem wordsFromOwnRegister_iff (table : RegisterTable δ) (requests : List ReadRequest) :
    (∀ (u : Undefined) (blocks : List ReadBlock), blocks.map ReadBlock.request = requests →
      WordsFromOwnRegister u table.vPoints blocks) ↔
    ∀ r ∈ requests, RegistersPacked table.vPoints r := by
  constructor
  · -- a reply that is zero but for the high byte of the point's own register
    intro h r hr window hwindow before point after hsplit htype hbase hlast
    have hmem : spikeBlock (2 * (merged point - r.base)) r ∈
        requests.map (spikeBlock (2 * (merged point - r.base))) := List.mem_map_of_mem hr
    have hrequests : (requests.map (spikeBlock (2 * (merged point - r.base)))).map
        ReadBlock.request = requests := by
      rw [List.map_map]
      exact List.map_id requests
    have hpushed : decode Undefined.zero (spikeBlock (2 * (merged point - r.base)) r).info
        (Layout.size pointWidth before) point ∈ handleAllRecvData Undefined.zero table.vPoints
          ((requests.map (spikeBlock (2 * (merged point - r.base)))).map ReadBlock.info) := by
      refine mem_handleAllRecvData_iff.mpr ⟨_, List.mem_map_of_mem hmem, ReadBlock.carriesData _,
        window, ?_, before, point, after, hsplit, rfl⟩
      rw [ReadBlock.info_eq]
      exact hwindow
    have hwords := h Undefined.zero _ hrequests _ hpushed htype _ hmem rfl hbase hlast
    exact count_eq_of_spike htype (by omega) hwords
  · -- a packed table reads the two bytes of the register
    rintro h u blocks rfl d hd htype b hb hinfo hbase hlast
    obtain ⟨it, -, -, window, hwindow, before, point, after, hsplit, rfl⟩ :=
      mem_handleAllRecvData_iff.mp hd
    obtain rfl : b.info = it := hinfo
    rw [ReadBlock.info_eq] at hwindow
    have hcount := h b.request (List.mem_map_of_mem hb) window hwindow before point after hsplit
      htype hbase hlast
    change point.dataType = "U16" at htype
    change b.request.base ≤ merged point at hbase
    change merged point < b.request.base + b.request.registers at hlast
    have hin : 2 * (merged point - b.request.base) + 1 < b.reply.data.length := by
      have hlen := b.length_data
      omega
    have hread (j : ℕ) (hj : j < b.reply.data.length) :
        readByte u (b.info : RTSrcInfo δ) j = b.reply.data.getD j 0 := by
      rw [ReadBlock.info_eq, readByte]
      simp only [List.getD_eq_getElem?_getD, List.getElem?_eq_getElem hj, Option.getD_some]
    change _ = ((b.word (merged point) : ℕ) : Int)
    rw [value_decode_word (Or.inl htype), ReadBlock.word, take_drop_two hin, hcount,
      hread _ (by omega), hread _ hin]

/-- `count` restarts at zero for the window from 3618, so the register there is decoded from the
first word of a block that starts at 3600. -/
theorem not_wordsFromOwnRegister :
    ¬ ∀ (table : RegisterTable Decimal) (u : Undefined) (blocks : List ReadBlock),
      WordsFromOwnRegister u table.vPoints blocks := by
  intro h
  let table : RegisterTable Decimal :=
    { items := [⟨"a", "U16", ⟨1000000⟩, "V", 3600⟩, ⟨"b", "U16", ⟨1000000⟩, "V", 3618⟩]
      addr_range := by decide
      addr_distinct := by decide }
  let request : ReadRequest :=
    { title := "运行信息", pkg := ⟨0x03, (0x0E, 0x10), (0x00, 0x13)⟩, registers := 19
      registers_pos := by decide, registers_le := by decide }
  -- the word at 3600 is 1, the word at 3618 is 0
  have hwrong := h table Undefined.zero [spikeBlock 1 request]
    (decode Undefined.zero (spikeBlock 1 request).info 0
      (loadPoint ⟨"b", "U16", ⟨1000000⟩, "V", 3618⟩)) (by decide) rfl _ List.mem_cons_self rfl
    (by decide) (by decide)
  exact absurd hwrong (by decide)

/-! ## Bounds -/

/-- A request of a poll and the frame on which `parsePacketProc` returned `true` for it. -/
structure PollBlock where
  title : String
  frame : List UInt8
  accepted : ¬ NotAccepted frame frame.length

namespace PollBlock

variable (b : PollBlock)

/-- What `sendPacketProc` hands on for the request. -/
def info : RTSrcInfo δ :=
  (parsePacketProc { RTSrcInfo.fresh with title := b.title } b.frame).rtSrcInfo

/-- The third byte of the frame. -/
def byteCount : ℕ := (b.frame.getD 2 0).toNat

/-- The frame is neither an error reply nor empty. -/
def IsPositive : Prop := b.frame.getD 1 0 ≠ 0x83 ∧ 0 < b.byteCount

/-- A positive block carries as many bytes as its byte count says; any other block carries none. -/
theorem info_cases :
    (b.IsPositive ∧ CarriesData (b.info : RTSrcInfo δ) ∧
        (b.info : RTSrcInfo δ).buf.length = b.byteCount ∧ (b.info : RTSrcInfo δ).title = b.title) ∨
      (¬ b.IsPositive ∧ ¬ CarriesData (b.info : RTSrcInfo δ)) := by
  have haccepted := b.accepted
  by_cases hpos : 0 < (parsePacket b.frame b.frame.length).1
  · left
    obtain ⟨r, hr⟩ := PositiveReply.exists_bytes_eq hpos
    have hinfo : (b.info : RTSrcInfo δ) =
        { (RTSrcInfo.fresh : RTSrcInfo δ).setIdata r.data.length with
          title := b.title, buf := r.data } := by
      rw [info, ← hr, parsePacketProc_bytes]
      rfl
    have hcount : b.byteCount = r.data.length := by
      rw [byteCount, ← hr]
      exact r.toNat_count
    have hfunc : b.frame.getD 1 0 = r.func := by rw [← hr]; rfl
    have hlen := r.data_pos
    refine ⟨⟨hfunc ▸ r.func_ne, by omega⟩, ?_, by rw [hinfo, hcount], by rw [hinfo]⟩
    rw [hinfo]
    exact ⟨by simp only [RTSrcInfo.setIdata]; omega, by simp only [RTSrcInfo.setIdata]; omega⟩
  · right
    have hzero : (parsePacket b.frame b.frame.length).1 = 0 := by
      have hne : (parsePacket b.frame b.frame.length).1 ≠ -1 :=
        fun h => haccepted (parsePacket_eq_neg_one_iff.mp h)
      simp only [parsePacket_eq] at hne hpos ⊢
      grind
    constructor
    · rintro ⟨hfunc, hcount⟩
      refine hpos (parsePacket_pos_iff.mpr ?_)
      simp only [NotAccepted, byteCount] at haccepted hcount
      grind
    · rintro ⟨hne, -⟩
      apply hne
      simp only [info, parsePacketProc, hzero, if_true]
      split_ifs <;> rfl

end PollBlock

/-- The indices `count++` that are read for an entry. -/
def Decoded.reads (d : Decoded δ) : List ℕ := (List.range (pointWidth d.point)).map (d.count + ·)

/-- No byte of a block is read past the end of its vector. -/
def ReadsInBounds (u : Undefined) (vPoints : List (ModbusPoint δ)) (blocks : List PollBlock) :
    Prop :=
  ∀ d ∈ handleAllRecvData u vPoints (blocks.map PollBlock.info), ∀ i ∈ d.reads,
    i < d.block.buf.length

/-- The decoder stays inside the replies of a poll if and only if in each window of each positive
reply's title the points of the table take up no more bytes than the reply has. -/
theorem readsInBounds_iff (u : Undefined) (vPoints : List (ModbusPoint δ))
    (blocks : List PollBlock) :
    ReadsInBounds u vPoints blocks ↔
      ∀ b ∈ blocks, b.IsPositive → ∀ window ∈ addressWindows b.title,
        Layout.size pointWidth (windowPoints vPoints window) ≤ b.byteCount := by
  constructor
  · intro h b hb hpositive window hwindow
    rcases b.info_cases (δ := δ) with ⟨-, hdata, hlen, htitle⟩ | ⟨hnot, -⟩
    · rw [← hlen]
      refine Layout.inBounds_iff.mp ?_
      rintro ⟨count, point⟩ hplace i hi
      obtain ⟨before, after, hsplit, rfl⟩ := Layout.mem_place_iff.mp hplace
      rw [Nat.zero_add] at hplace ⊢
      exact h (decode u b.info (Layout.size pointWidth before) point)
        (mem_handleAllRecvData_iff.mpr ⟨b.info, List.mem_map_of_mem hb, hdata, window,
          htitle ▸ hwindow, before, point, after, hsplit, rfl⟩) _
        (List.mem_map_of_mem (List.mem_range.mpr hi))
    · exact absurd hpositive hnot
  · rintro h d hd j hj
    obtain ⟨it, hit, hdata, window, hwindow, before, point, after, hsplit, rfl⟩ :=
      mem_handleAllRecvData_iff.mp hd
    obtain ⟨b, hb, rfl⟩ := List.mem_map.mp hit
    obtain ⟨i, hi, rfl⟩ := List.mem_map.mp hj
    rcases b.info_cases (δ := δ) with ⟨hpositive, -, hlen, htitle⟩ | ⟨-, hnot⟩
    · have hsize := h b hb hpositive window (htitle ▸ hwindow)
      rw [← hlen] at hsize
      exact Layout.inBounds_iff.mpr hsize (Layout.size pointWidth before, point)
        (Layout.mem_place_iff.mpr ⟨before, after, hsplit, (Nat.zero_add _).symm⟩) i
        (List.mem_range.mp hi)
    · exact absurd hdata hnot

/-- A reply with one data byte to the request for the device information. -/
theorem not_readsInBounds :
    ¬ ∀ (u : Undefined) (vPoints : List (ModbusPoint Decimal)) (blocks : List PollBlock),
      ReadsInBounds u vPoints blocks := by
  intro h
  have hread := h Undefined.zero [loadPoint ⟨"a", "U16", ⟨1000000⟩, "V", 3300⟩]
    [⟨"设备信息", [0x01, 0x03, 0x01, 0x00, 0xF0, 0x48], by simp [NotAccepted]⟩]
  exact absurd hread (by simp only [ReadsInBounds]; decide)

end CsiFirmware.Task
