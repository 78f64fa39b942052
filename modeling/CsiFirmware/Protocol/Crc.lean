import CsiFirmware.Lib.ShiftRegister
import CsiFirmware.Protocol.Modbus

/-!
# The CRC

Reference: `Modbus::CRC16` and `Modbus::AssemblePacket`.

The CRC is a shift register of 16 bits that takes in a message in the order of its transmission, the
least significant bit of each byte first. The polynomial 0xA001 has its highest bit set, so the
register tells apart what it takes in.
-/

namespace CsiFirmware.Protocol

open ShiftRegister

/-- CRC校验特征公式. -/
def crcPoly : BitVec 16 := 0xA001#16

/-- The bits of a byte in the order of their transmission. -/
def byteBits (b : UInt8) : List Bool := (List.range 8).map b.toBitVec.getLsbD

/-- The bits of a message in the order of their transmission. -/
def transmitted (m : List UInt8) : List Bool := m.flatMap byteBits

/-! ## Bits -/

/-- The lowest coefficient of the polynomial, which a step must not lose. -/
theorem crcPoly_msb : crcPoly.msb = true := by decide

/-- A byte is eight bits. -/
theorem length_byteBits (b : UInt8) : (byteBits b).length = 8 := List.length_map _

/-- The bits of a byte by their number. -/
theorem getD_byteBits (b : UInt8) (i : ℕ) : (byteBits b).getD i false = b.toBitVec.getLsbD i := by
  by_cases hi : i < 8
  · rw [List.getD_eq_getElem _ _ (by rw [length_byteBits]; exact hi)]
    simp only [byteBits, List.getElem_map, List.getElem_range]
  · rw [List.getD_eq_default _ _ (by rw [length_byteBits]; omega),
      BitVec.getLsbD_of_ge _ _ (by omega)]

/-- A byte in the register. -/
theorem load_byteBits (b : UInt8) : load 16 (byteBits b) = b.toUInt16.toBitVec := by
  apply BitVec.eq_of_getLsbD_eq
  intro i hi
  rw [getLsbD_load, getD_byteBits, UInt8.toBitVec_toUInt16, BitVec.getLsbD_setWidth]

/-- Two bytes in the register, the first one below the second. -/
theorem load_byteBits_append (a b : UInt8) :
    load 16 (byteBits a ++ byteBits b) = b.toBitVec ++ a.toBitVec := by
  apply BitVec.eq_of_getLsbD_eq
  intro i hi
  rw [getLsbD_load, BitVec.getLsbD_append]
  by_cases hlow : i < 8
  · rw [List.getD_append _ _ _ _ (by rw [length_byteBits]; exact hlow), getD_byteBits]
    simp [hi, hlow]
  · rw [List.getD_append_right _ _ _ _ (by rw [length_byteBits]; omega), getD_byteBits,
      length_byteBits]
    simp [hi, hlow]

/-- A byte is told by its bits. -/
theorem byteBits_injective : Function.Injective byteBits := by
  intro a b h
  apply UInt8.toBitVec_inj.mp
  apply BitVec.eq_of_getLsbD_eq
  intro i _
  rw [← getD_byteBits, ← getD_byteBits, h]

/-- The bits of the first byte come first. -/
theorem transmitted_cons (b : UInt8) (m : List UInt8) :
    transmitted (b :: m) = byteBits b ++ transmitted m := List.flatMap_cons

/-- Eight bits for each byte. -/
theorem length_transmitted (m : List UInt8) : (transmitted m).length = 8 * m.length := by
  induction m with
  | nil => rfl
  | cons b m ih =>
      rw [transmitted_cons, List.length_append, length_byteBits, ih, List.length_cons]
      omega

/-- Messages of the same length are told apart by their bits. -/
theorem transmitted_ne {m m' : List UInt8} (hlength : m.length = m'.length) (hne : m ≠ m') :
    transmitted m ≠ transmitted m' := by
  induction m generalizing m' with
  | nil => exact absurd (List.eq_nil_of_length_eq_zero hlength.symm).symm hne
  | cons b m ih =>
      cases m' with
      | nil => cases hlength
      | cons b' m' =>
          intro heq
          rw [transmitted_cons, transmitted_cons] at heq
          obtain ⟨hb, hm⟩ := List.append_inj heq (by rw [length_byteBits, length_byteBits])
          have hrest : m ≠ m' := by
            rintro rfl
            exact hne (by rw [byteBits_injective hb])
          exact ih (Nat.succ.inj hlength) hrest hm

/-! ## The register -/

/-- The test of the loop reads the lowest bit. -/
theorem and_one_eq_zero_iff (crc : UInt16) :
    crc &&& 0x0001 = 0 ↔ crc.toBitVec.getLsbD 0 = false := by
  rw [← UInt16.toBitVec_inj, UInt16.toBitVec_and]
  show crc.toBitVec &&& 1#16 = 0#16 ↔ _
  rw [BitVec.and_one_eq_setWidth_ofBool_getLsbD]
  cases crc.toBitVec.getLsbD 0 <;> decide

/-- One round of the inner loop is a turn of the register. -/
theorem toBitVec_crcShift (crc : UInt16) :
    (crcShift crc).toBitVec = turn crcPoly crc.toBitVec := by
  unfold crcShift turn
  cases hbit : crc.toBitVec.getLsbD 0 with
  | false =>
      rw [if_neg (not_not.mpr ((and_one_eq_zero_iff crc).mpr hbit))]
      rfl
  | true =>
      rw [if_pos (by rw [ne_eq, and_one_eq_zero_iff, hbit]; decide)]
      rfl

/-- A byte is taken in bit by bit. -/
theorem toBitVec_crcByte (crc : UInt16) (b : UInt8) :
    (crcByte crc b).toBitVec = (byteBits b).foldl (feed crcPoly) crc.toBitVec := by
  -- the loop takes the byte in at once and then turns the register eight times
  have hshift : Function.Semiconj UInt16.toBitVec crcShift (turn crcPoly) := toBitVec_crcShift
  rw [crcByte, (hshift.iterate_right 8).eq, UInt16.toBitVec_xor, ← load_byteBits,
    foldl_feed (by rw [length_byteBits]; decide), length_byteBits]

/-- The loop takes in the bits of the message. -/
theorem toBitVec_foldl_crcByte (m : List UInt8) (crc : UInt16) :
    (m.foldl crcByte crc).toBitVec = (transmitted m).foldl (feed crcPoly) crc.toBitVec := by
  induction m generalizing crc with
  | nil => rfl
  | cons b m ih =>
      rw [List.foldl_cons, ih, toBitVec_crcByte, ← List.foldl_append]
      rfl

/-- Over a whole message. -/
theorem crc16_self (m : List UInt8) : crc16 m m.length = m.foldl crcByte 0xFFFF := by
  rw [crc16, List.take_length]

/-! ## Trailers -/

/-- A register against its two halves. -/
theorem toBitVec_eq_append_iff (crc : UInt16) (a b : UInt8) :
    crc.toBitVec = b.toBitVec ++ a.toBitVec ↔
      a.toUInt16 = crc &&& 0xFF ∧ b.toUInt16 = crc >>> 8 := by
  have ha := a.toNat_lt
  have happend : (b.toBitVec ++ a.toBitVec).toNat = b.toNat * 2 ^ 8 + a.toNat := by
    rw [BitVec.toNat_append, ← Nat.shiftLeft_add_eq_or_of_lt a.toBitVec.isLt,
      Nat.shiftLeft_eq]
    rfl
  have hlow : (crc &&& 0xFF).toNat = crc.toNat % 2 ^ 8 := by
    rw [UInt16.toNat_and]
    exact Nat.and_two_pow_sub_one_eq_mod _ 8
  have hhigh : (crc >>> 8).toNat = crc.toNat / 2 ^ 8 := by
    rw [UInt16.toNat_shiftRight]
    simp [Nat.shiftRight_eq_div_pow]
  rw [← BitVec.toNat_inj, happend, ← UInt16.toNat_inj, ← UInt16.toNat_inj, hlow, hhigh,
    UInt8.toNat_toUInt16, UInt8.toNat_toUInt16, UInt16.toNat_toBitVec]
  omega

/-- Two bytes clear the register exactly if they are its halves, low byte first. -/
theorem foldl_crcByte_pair_eq_zero_iff (crc : UInt16) (a b : UInt8) :
    [a, b].foldl crcByte crc = 0 ↔ a.toUInt16 = crc &&& 0xFF ∧ b.toUInt16 = crc >>> 8 := by
  have hbits : transmitted [a, b] = byteBits a ++ byteBits b := by
    rw [transmitted_cons, transmitted_cons, transmitted, List.flatMap_nil, List.append_nil]
  have hfits : (byteBits a ++ byteBits b).length ≤ 16 := by
    rw [List.length_append, length_byteBits, length_byteBits]
  rw [← toBitVec_eq_append_iff, ← load_byteBits_append, ← UInt16.toBitVec_inj,
    toBitVec_foldl_crcByte, hbits]
  exact foldl_feed_eq_zero_iff crcPoly_msb hfits

/-- The trailer of any message, as `CRC16` sees it. -/
theorem crc16_append_pair_eq_zero_iff (m : List UInt8) (a b : UInt8) :
    crc16 (m ++ [a, b]) (m.length + 2) = 0 ↔
      a.toUInt16 = crc16 m m.length &&& 0xFF ∧ b.toUInt16 = crc16 m m.length >>> 8 := by
  have happend : crc16 (m ++ [a, b]) (m.length + 2) = [a, b].foldl crcByte (crc16 m m.length) := by
    rw [crc16_self m, ← List.foldl_append, ← crc16_self, List.length_append]
    rfl
  rw [happend, foldl_crcByte_pair_eq_zero_iff]

/-- A byte against a short that fits into one. -/
theorem toUInt16_eq_iff {a : UInt8} {x : UInt16} (hx : x.toNat < 2 ^ 8) :
    a.toUInt16 = x ↔ a = x.toUInt8 := by
  rw [← UInt16.toNat_inj, ← UInt8.toNat_inj, UInt8.toNat_toUInt16, UInt16.toNat_toUInt8,
    Nat.mod_eq_of_lt hx]

/-- The trailer of a request, as it is assembled, is the one that clears the register. -/
theorem crc16_request_eq_zero_iff (pkg : ModbusPkg) (a b : UInt8) :
    crc16 ([0x01, pkg.func, pkg.reg.1, pkg.reg.2, pkg.len.1, pkg.len.2] ++ [a, b]) 8 = 0 ↔
      [0x01, pkg.func, pkg.reg.1, pkg.reg.2, pkg.len.1, pkg.len.2] ++ [a, b] =
        requestFrame pkg := by
  have htrailer := crc16_append_pair_eq_zero_iff
    [0x01, pkg.func, pkg.reg.1, pkg.reg.2, pkg.len.1, pkg.len.2] a b
  -- both halves of the register are bytes
  have hlow (crc : UInt16) : (crc &&& 0xFF).toNat < 2 ^ 8 := by
    rw [UInt16.toNat_and]
    exact Nat.lt_of_le_of_lt Nat.and_le_right (by decide)
  have hhigh (crc : UInt16) : (crc >>> 8).toNat < 2 ^ 8 := by
    rw [UInt16.toNat_shiftRight, Nat.shiftRight_eq_div_pow]
    exact Nat.div_lt_of_lt_mul crc.toNat_lt
  rw [toUInt16_eq_iff (hlow _), toUInt16_eq_iff (hhigh _)] at htrailer
  refine htrailer.trans ?_
  rw [requestFrame, List.append_cancel_left_eq]
  simp

/-- A message with two more bytes checks to zero exactly if these are its CRC, low byte first. So
the trailer of a request is the only one that makes the frame check to zero. -/
theorem crc16_self_check (m : List UInt8) (a b : UInt8) :
    (crc16 (m ++ [a, b]) (m.length + 2) = 0 ↔
      a.toUInt16 = crc16 m m.length &&& 0xFF ∧ b.toUInt16 = crc16 m m.length >>> 8) ∧
    ∀ pkg : ModbusPkg,
      (crc16 ([0x01, pkg.func, pkg.reg.1, pkg.reg.2, pkg.len.1, pkg.len.2] ++ [a, b]) 8 = 0 ↔
        [0x01, pkg.func, pkg.reg.1, pkg.reg.2, pkg.len.1, pkg.len.2] ++ [a, b] =
          requestFrame pkg) :=
  ⟨crc16_append_pair_eq_zero_iff m a b, fun pkg => crc16_request_eq_zero_iff pkg a b⟩

/-! ## Bursts -/

/-- Messages of the same length have different CRCs if they differ, within 16 consecutive bits in
the order of their transmission. -/
theorem crc16_ne_of_burst {m m' : List UInt8} {k : ℕ} (hlength : m.length = m'.length)
    (hne : m ≠ m')
    (hburst : ∀ i, (transmitted m)[i]? ≠ (transmitted m')[i]? → k ≤ i ∧ i < k + 16) :
    crc16 m m.length ≠ crc16 m' m'.length := by
  have hbits : (transmitted m).length = (transmitted m').length := by
    rw [length_transmitted, length_transmitted, hlength]
  rw [crc16_self, crc16_self, ← UInt16.toBitVec_inj.ne, toBitVec_foldl_crcByte,
    toBitVec_foldl_crcByte]
  exact foldl_feed_ne_of_burst crcPoly_msb hbits (transmitted_ne hlength hne) hburst _

/-- A burst of 16 bits, from the last bit of the second byte on. -/
theorem crc16_ne_of_burst_request :
    crc16 [0x01, 0x04, 0x0C, 0xE4] 4 ≠ crc16 [0x01, 0x84, 0xF3, 0xA5] 4 := by
  have hwindow : ∀ i < 32, (transmitted [0x01, 0x04, 0x0C, 0xE4])[i]? ≠
      (transmitted [0x01, 0x84, 0xF3, 0xA5])[i]? → 15 ≤ i ∧ i < 15 + 16 := by decide
  have hburst : ∀ i, (transmitted [0x01, 0x04, 0x0C, 0xE4])[i]? ≠
      (transmitted [0x01, 0x84, 0xF3, 0xA5])[i]? → 15 ≤ i ∧ i < 15 + 16 := by
    intro i hi
    -- behind the last bit the messages do not differ
    by_cases hlt : i < 32
    · exact hwindow i hlt hi
    · rw [List.getElem?_eq_none (by rw [length_transmitted]; simpa using hlt),
        List.getElem?_eq_none (by rw [length_transmitted]; simpa using hlt)] at hi
      exact absurd rfl hi
  exact crc16_ne_of_burst rfl (by decide) hburst

end CsiFirmware.Protocol
