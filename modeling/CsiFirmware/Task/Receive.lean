import CsiFirmware.Protocol.Replies

/-!
# Collecting a reply

Reference: `TaskSerial::parsePacketProc` and the loop that calls it in `sendPacketProc`.

The receive thread appends what it reads to `total_recv_buf`; the polling thread parses the whole
buffer again and again until an attempt succeeds. A failed attempt keeps the buffer, so it only ever
grows; its size is taken to fit the `int` that holds it. `parsePacketProc_isRecvAll_iff` reduces an
attempt to `NotAccepted`, and `exists_recvAll_iff` decides which buffers a longer wait can still
turn into an accepted one.
-/

namespace CsiFirmware.Task

open Protocol

variable {δ : Type}

/-- What one call of `parsePacketProc` leaves behind. Whenever it returns `false` it has also set
`is_RecvRun = false` and notified the receive thread. -/
structure ParseAttempt (δ : Type) where
  isRecvAll : Bool
  rtSrcInfo : RTSrcInfo δ
  totalRecvBuf : List UInt8

/-- `parsePacketProc`. -/
def parsePacketProc (rtSrcInfo : RTSrcInfo δ) (totalRecvBuf : List UInt8) : ParseAttempt δ :=
  if totalRecvBuf.length ≠ 0 then
    -- the source parses a copy, so the payload is moved in the copy only
    let parsed := parsePacket totalRecvBuf totalRecvBuf.length
    if parsed.1 = 0 then
      { isRecvAll := true, rtSrcInfo := rtSrcInfo.setIdata 0, totalRecvBuf := [] }
    else if parsed.1 = -1 then
      { isRecvAll := false, rtSrcInfo := rtSrcInfo.setIdata (-1), totalRecvBuf }
    else
      { isRecvAll := true
        rtSrcInfo := { rtSrcInfo.setIdata parsed.1 with
          buf := rtSrcInfo.buf ++ parsed.2.take parsed.1.toNat }
        totalRecvBuf := [] }
  else { isRecvAll := false, rtSrcInfo, totalRecvBuf }

/-- An attempt succeeds unless `parsePacket` answers `-1`. -/
theorem parsePacketProc_isRecvAll_iff (info : RTSrcInfo δ) (b : List UInt8) :
    (parsePacketProc info b).isRecvAll = true ↔ ¬ NotAccepted b b.length := by
  rw [← parsePacket_eq_neg_one_iff]
  by_cases hb : b.length = 0
  · obtain rfl : b = [] := List.eq_nil_of_length_eq_zero hb
    simp [parsePacketProc, parsePacket_eq]
  · simp only [parsePacketProc, if_pos hb]
    split_ifs with hzero hneg <;> simp [*]

/-- A failed attempt keeps the buffer and the bytes collected so far. -/
theorem parsePacketProc_failed {info : RTSrcInfo δ} {b : List UInt8}
    (h : (parsePacketProc info b).isRecvAll = false) :
    (parsePacketProc info b).totalRecvBuf = b ∧ (parsePacketProc info b).rtSrcInfo.buf = info.buf ∧
      (parsePacketProc info b).rtSrcInfo.title = info.title := by
  simp only [parsePacketProc] at h ⊢
  split_ifs at h ⊢ <;> first | exact absurd h (by decide) | exact ⟨rfl, rfl, rfl⟩

/-- On a complete positive reply the attempt succeeds and hands on exactly its data bytes. -/
theorem parsePacketProc_bytes (info : RTSrcInfo δ) (r : PositiveReply) :
    parsePacketProc info r.bytes =
      { isRecvAll := true
        rtSrcInfo := { info.setIdata r.data.length with buf := info.buf ++ r.data }
        totalRecvBuf := [] } := by
  have hpos := r.data_pos
  obtain ⟨hlen, hdata⟩ := r.parsePacket_bytes
  rw [parsePacketProc, if_pos (by rw [r.length_bytes]; omega)]
  simp only [hlen, Int.toNat_natCast, hdata]
  rw [if_neg (by omega), if_neg (by omega)]

/-- On a proper prefix of a positive reply the attempt fails. -/
theorem parsePacketProc_prefix (info : RTSrcInfo δ) {r : PositiveReply} {p : List UInt8}
    (hp : p <+: r.bytes) (hlt : p.length < r.bytes.length) :
    (parsePacketProc info p).isRecvAll = false := by
  rw [← Bool.not_eq_true, parsePacketProc_isRecvAll_iff, not_not, ← parsePacket_eq_neg_one_iff]
  exact r.parsePacket_prefix hp hlt

/-! ## The waiting loop -/

/-- `while (!is_recvAll)`: an attempt after each of the chunks that arrive, starting with the buffer
contents `totalRecvBuf`. `none` if an attempt succeeds, else what the failed attempts leave. -/
def waitLoop (rtSrcInfo : RTSrcInfo δ) (totalRecvBuf : List UInt8) :
    List (List UInt8) → Option (RTSrcInfo δ × List UInt8)
  | [] => some (rtSrcInfo, totalRecvBuf)
  | chunk :: chunks =>
      let attempt := parsePacketProc rtSrcInfo (totalRecvBuf ++ chunk)
      if attempt.isRecvAll then none
      else waitLoop attempt.rtSrcInfo attempt.totalRecvBuf chunks

/-- While the loop waits, the buffer is the concatenation of everything that arrived. -/
theorem waitLoop_buf {info info' : RTSrcInfo δ} {buf b : List UInt8} {chunks : List (List UInt8)}
    (h : waitLoop info buf chunks = some (info', b)) : b = buf ++ chunks.flatten := by
  induction chunks generalizing info buf with
  | nil =>
      obtain ⟨-, rfl⟩ := Prod.mk.inj (Option.some.inj h)
      simp
  | cons chunk chunks ih =>
      simp only [waitLoop] at h
      split_ifs at h with hattempt
      have hkept := (parsePacketProc_failed (Bool.not_eq_true _ ▸ hattempt)).1
      rw [ih h, hkept, List.flatten_cons, List.append_assoc]

/-- The bytes received so far can still be completed: fewer than two of them, or an `0x83` error
reply, or function code `03` or `04` with a byte count that is missing, zero or not yet overrun. -/
def CanComplete (b : List UInt8) : Prop :=
  b.length < 2 ∨ b.getD 1 0 = 0x83 ∨
    ((b.getD 1 0 = 0x03 ∨ b.getD 1 0 = 0x04) ∧
      (b.length = 2 ∨ (b.getD 2 0).toNat = 0 ∨ b.length ≤ (b.getD 2 0).toNat + 5))

instance (b : List UInt8) : Decidable (CanComplete b) :=
  inferInstanceAs (Decidable (_ ∨ _ ∨ _))

/-- A prefix fixes the bytes it holds. -/
private theorem getD_append_of_lt {b s : List UInt8} {i : ℕ} (h : i < b.length) :
    (b ++ s).getD i 0 = b.getD i 0 := by
  rw [List.getD_eq_getElem?_getD, List.getD_eq_getElem?_getD, List.getElem?_append_left h]

/-- A byte read in place of `default` past the end is zero, so a nonzero one is in the buffer. -/
private theorem lt_length_of_getD_ne {b : List UInt8} {i : ℕ} (h : b.getD i 0 ≠ 0) :
    i < b.length := by
  by_contra hle
  rw [List.getD_eq_getElem?_getD, List.getElem?_eq_none (by omega)] at h
  exact h rfl

/-- Bytes that complete a buffer for which this is possible. -/
theorem CanComplete.exists_completion {b : List UInt8} (h : CanComplete b) :
    ∃ s, ¬ NotAccepted (b ++ s) (b ++ s).length := by
  rcases h with hshort | h83 | ⟨hfn, hcount⟩
  · -- an error reply can be formed from nothing and from the address byte alone
    match b, hshort with
    | [], _ => exact ⟨[0x83, 0x83, 0, 0, 0], by simp [NotAccepted]⟩
    | [x], _ => exact ⟨[0x83, 0, 0, 0], by simp [NotAccepted]⟩
  · have hlen : 1 < b.length := lt_length_of_getD_ne (by rw [h83]; decide)
    refine ⟨List.replicate 5 0, ?_⟩
    simp only [NotAccepted, getD_append_of_lt hlen, h83, List.length_append, List.length_replicate]
    grind
  · have hlen : 1 < b.length :=
      lt_length_of_getD_ne (by rcases hfn with h | h <;> rw [h] <;> decide)
    have hne : b.getD 1 0 ≠ 0x83 := by rcases hfn with h | h <;> rw [h] <;> decide
    by_cases htwo : b.length = 2
    · -- the missing byte count may be zero
      have hget : (b ++ [0, 0, 0]).getD 2 0 = 0 := by
        rw [List.getD_eq_getElem?_getD, List.getElem?_append_right (by omega), htwo]
        rfl
      refine ⟨[0, 0, 0], ?_⟩
      simp only [NotAccepted, getD_append_of_lt hlen, hget, List.length_append, htwo,
        List.length_cons, List.length_nil]
      grind
    · have hlen' : 2 < b.length := by omega
      rcases hcount with hcount | hzero | hroom
      · exact absurd hcount htwo
      · refine ⟨List.replicate 5 0, ?_⟩
        simp only [NotAccepted, getD_append_of_lt hlen, getD_append_of_lt hlen', hzero,
          List.length_append, List.length_replicate]
        grind
      · refine ⟨List.replicate ((b.getD 2 0).toNat + 5 - b.length) 0, ?_⟩
        simp only [NotAccepted, getD_append_of_lt hlen, getD_append_of_lt hlen',
          List.length_append, List.length_replicate]
        grind

/-- A buffer that has a completion can be completed. -/
theorem CanComplete.of_completion {b s : List UInt8}
    (h : ¬ NotAccepted (b ++ s) (b ++ s).length) : CanComplete b := by
  by_cases hlen : b.length < 2
  · exact Or.inl hlen
  · have h1 : (b ++ s).getD 1 0 = b.getD 1 0 := getD_append_of_lt (by omega)
    simp only [NotAccepted, h1, List.length_append] at h
    by_cases htwo : b.length = 2
    · simp only [CanComplete, htwo]
      grind
    · have h2 : (b ++ s).getD 2 0 = b.getD 2 0 := getD_append_of_lt (by omega)
      simp only [h2] at h
      simp only [CanComplete]
      grind

/-- In every state of the waiting loop, whatever arrived in whatever pieces, some further bytes make
a later attempt succeed exactly if what arrived can still be completed. -/
theorem exists_recvAll_iff {info info' : RTSrcInfo δ} {stale b : List UInt8}
    {chunks : List (List UInt8)} (h : waitLoop info stale chunks = some (info', b)) :
    (∃ s, (parsePacketProc info' (b ++ s)).isRecvAll = true) ↔
      CanComplete (stale ++ chunks.flatten) := by
  rw [← waitLoop_buf h]
  simp only [parsePacketProc_isRecvAll_iff]
  constructor
  · rintro ⟨s, hs⟩
    exact CanComplete.of_completion hs
  · exact CanComplete.exists_completion

/-- Two chunks into a reply the loop can still succeed. -/
theorem exists_recvAll_of_partial :
    ∃ s, (parsePacketProc (RTSrcInfo.fresh.setIdata (-1) : RTSrcInfo Decimal)
      ([0x01, 0x03, 0x02] ++ s)).isRecvAll = true := by
  have hwait : waitLoop (RTSrcInfo.fresh : RTSrcInfo Decimal) [] [[0x01, 0x03], [0x02]] =
      some (RTSrcInfo.fresh.setIdata (-1), [0x01, 0x03, 0x02]) := by decide
  exact (exists_recvAll_iff hwait).mpr (by decide)

/-- The exception reply to a request with function code `04` carries `84`, which `parsePacket` does
not know. Once it is in the buffer no further bytes end the loop. -/
theorem not_exists_recvAll :
    ¬ ∀ (info info' : RTSrcInfo Decimal) (stale b : List UInt8) (chunks : List (List UInt8)),
      waitLoop info stale chunks = some (info', b) →
        ∃ s, (parsePacketProc info' (b ++ s)).isRecvAll = true := by
  intro h
  obtain ⟨s, hs⟩ := h .fresh (RTSrcInfo.fresh.setIdata (-1)) [] [0x01, 0x84, 0x02, 0xC2, 0xC1]
    [[0x01, 0x84, 0x02, 0xC2, 0xC1]] (by decide)
  rw [parsePacketProc_isRecvAll_iff] at hs
  exact absurd (CanComplete.of_completion hs) (by decide)

end CsiFirmware.Task
