import CsiFirmware.Protocol.Modbus

/-!
# What `parsePacket` accepts

`parsePacket_eq_neg_one_iff` and its neighbours say for which buffers each of the three kinds of
answer is given. A well-formed positive reply is accepted with its data bytes
(`PositiveReply.parsePacket_bytes`), and no proper prefix of one is
(`PositiveReply.parsePacket_prefix`), which is what lets the receiver collect a reply in pieces.

The CRC trailer plays no part in any of this. `parsePacket_crc_iff` says for which buffers the
answer nevertheless agrees with the trailer.
-/

namespace CsiFirmware.Protocol

/-- The buffers `parsePacket` answers with `-1`: too short, an unknown function code, or a byte
count that does not fit the length. -/
def NotAccepted (request : List UInt8) (length : Int) : Prop :=
  let fn := request.getD 1 0
  let pkglen := (request.getD 2 0).toNat
  length < 5 ∨ (fn ≠ 0x83 ∧ fn ≠ 0x03 ∧ fn ≠ 0x04) ∨
    (fn ≠ 0x83 ∧ 0 < pkglen ∧ (pkglen : Int) + 5 ≠ length)

/-- What is no reply. -/
theorem parsePacket_eq_neg_one_iff {request : List UInt8} {length : Int} :
    (parsePacket request length).1 = -1 ↔ NotAccepted request length := by
  simp only [parsePacket_eq, NotAccepted]
  split_ifs with hshort herror hcount
  · simp only [true_iff]
    tauto
  · rcases herror with h83 | hzero <;> grind
  · simp only [true_iff]
    grind
  · grind

/-- What is accepted as a complete reply with data. -/
theorem parsePacket_pos_iff {request : List UInt8} {length : Int} :
    0 < (parsePacket request length).1 ↔
      let fn := request.getD 1 0
      let pkglen := (request.getD 2 0).toNat
      (fn = 0x03 ∨ fn = 0x04) ∧ 0 < pkglen ∧ (pkglen : Int) + 5 = length := by
  simp only [parsePacket_eq]
  split_ifs <;> grind

/-! ## Positive replies -/

/-- A well-formed positive reply `[addr, func, n, n data bytes, 2 CRC bytes]`. -/
structure PositiveReply where
  addr : UInt8
  func : UInt8
  data : List UInt8
  crc : UInt8 × UInt8
  func_eq : func = 0x03 ∨ func = 0x04
  data_pos : 0 < data.length
  data_le : data.length ≤ 255

namespace PositiveReply

variable (r : PositiveReply)

/-- The reply on the line. -/
def bytes : List UInt8 :=
  r.addr :: r.func :: UInt8.ofNat r.data.length :: (r.data ++ [r.crc.1, r.crc.2])

/-- Header, data and trailer. -/
theorem length_bytes : r.bytes.length = r.data.length + 5 := by
  simp [bytes]

/-- The count fits into its byte. -/
theorem toNat_count : (UInt8.ofNat r.data.length).toNat = r.data.length :=
  UInt8.toNat_ofNat_of_lt' (Nat.lt_succ_of_le r.data_le)

/-- A positive reply does not answer with an error. -/
theorem func_ne : r.func ≠ 0x83 := by
  rcases r.func_eq with h | h <;> rw [h] <;> decide

/-- A complete reply is accepted, and its data bytes are moved to the front of the buffer. -/
theorem parsePacket_bytes :
    (parsePacket r.bytes r.bytes.length).1 = r.data.length ∧
      (parsePacket r.bytes r.bytes.length).2.take r.data.length = r.data := by
  have hfn : ¬ (r.func ≠ 0x83 ∧ r.func ≠ 0x03 ∧ r.func ≠ 0x04) := by
    rcases r.func_eq with h | h <;> simp [h]
  have hpos := r.data_pos
  have heq : parsePacket r.bytes r.bytes.length =
      ((r.data.length : Int), r.data ++ r.bytes.drop r.data.length) := by
    rw [parsePacket_eq, length_bytes]
    simp only [bytes, List.getD_cons_succ, List.getD_cons_zero, toNat_count, List.drop_succ_cons,
      List.drop_zero, List.take_left]
    rw [if_neg (by push Not; exact ⟨by omega, by simpa using hfn⟩),
      if_neg (by push Not; exact ⟨r.func_ne, by omega⟩), if_neg (by push_cast; omega)]
  rw [heq]
  exact ⟨rfl, List.take_left⟩

/-- A proper prefix of a reply is not accepted. -/
theorem parsePacket_prefix {p : List UInt8} (hp : p <+: r.bytes)
    (hlt : p.length < r.bytes.length) : (parsePacket p p.length).1 = -1 := by
  rw [parsePacket_eq_neg_one_iff, NotAccepted]
  by_cases hshort : p.length < 5
  · exact Or.inl (by exact_mod_cast hshort)
  -- the prefix is long enough to hold the function code and the byte count
  have hget : ∀ i < 3, p.getD i 0 = r.bytes.getD i 0 := by
    intro i hi
    obtain ⟨rest, hrest⟩ := hp
    rw [List.getD_eq_getElem?_getD, List.getD_eq_getElem?_getD, ← hrest,
      List.getElem?_append_left (by omega)]
  have hfn : p.getD 1 0 = r.func := hget 1 (by omega)
  have hcount : (p.getD 2 0).toNat = r.data.length := by
    rw [hget 2 (by omega)]
    exact r.toNat_count
  have hpos := r.data_pos
  rw [length_bytes] at hlt
  refine Or.inr (Or.inr ⟨hfn ▸ r.func_ne, by omega, by rw [hcount]; omega⟩)

/-- Whatever is accepted with a payload is a well-formed positive reply. -/
theorem exists_bytes_eq {b : List UInt8} (h : 0 < (parsePacket b b.length).1) :
    ∃ r : PositiveReply, r.bytes = b := by
  obtain ⟨hfn, hpos, hlen⟩ := parsePacket_pos_iff.mp h
  match b, hfn, hpos, hlen with
  | addr :: func :: count :: rest, hfn, hpos, hlen =>
      have hrest : rest.length = count.toNat + 2 := by
        simp only [List.getD_cons_succ, List.getD_cons_zero, List.length_cons] at hlen
        omega
      obtain ⟨crc₁, crc₂, hcrc⟩ : ∃ crc₁ crc₂, rest.drop count.toNat = [crc₁, crc₂] :=
        List.length_eq_two.mp (by rw [List.length_drop]; omega)
      have hdata : (rest.take count.toNat).length = count.toNat := by
        rw [List.length_take]
        omega
      have hcount : 0 < count.toNat := hpos
      refine ⟨⟨addr, func, rest.take count.toNat, (crc₁, crc₂), hfn, by omega, ?_⟩, ?_⟩
      · have := count.toNat_lt
        omega
      · simp only [bytes, hdata, UInt8.ofNat_toNat, ← hcrc, List.take_append_drop]

end PositiveReply

/-! ## The CRC trailer -/

/-- The last two bytes of the frame, low byte first, equal `crc16` of the bytes before them. -/
def CrcMatches (frame : List UInt8) : Prop :=
  (frame.getD (frame.length - 2) 0).toUInt16 ||| (frame.getD (frame.length - 1) 0).toUInt16 <<< 8 =
    crc16 frame (frame.length - 2)

instance (frame : List UInt8) : Decidable (CrcMatches frame) :=
  inferInstanceAs (Decidable (_ = _))

/-- What the comment on `ParsePacket` promises: a frame is accepted only with a matching trailer,
and a wrong one is answered with `-1`. -/
def CrcRespected (request : List UInt8) (length : Int) : Prop :=
  let frame := request.take length.toNat
  (0 < (parsePacket request length).1 → CrcMatches frame) ∧
    (¬ CrcMatches frame → (parsePacket request length).1 = -1)

/-- The trailer is respected exactly where it happens to match or the frame is turned down for
another reason. -/
theorem parsePacket_crc_iff (request : List UInt8) (length : Int) :
    CrcRespected request length ↔
      CrcMatches (request.take length.toNat) ∨ NotAccepted request length := by
  rw [CrcRespected, ← parsePacket_eq_neg_one_iff]
  by_cases hcrc : CrcMatches (request.take length.toNat)
  · simp [hcrc]
  · simp only [hcrc, not_false_eq_true, imp_false, true_imp_iff, false_or]
    constructor
    · exact fun h => h.2
    · intro h
      exact ⟨by rw [h]; decide, h⟩

/-- A reply with two data bytes and the trailer `00 00`, which is not its CRC, is accepted. -/
theorem not_crcRespected :
    ¬ ∀ (request : List UInt8) (length : Int), CrcRespected request length := by
  intro h
  exact absurd ((h [0x01, 0x03, 0x02, 0xAA, 0xBB, 0x00, 0x00] 7).1 (by decide)) (by decide +kernel)

end CsiFirmware.Protocol
