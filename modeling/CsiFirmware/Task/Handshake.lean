import CsiFirmware.Lib.Threads
import CsiFirmware.Task.Association
import CsiFirmware.Task.Lines

/-!
# Waiting for bytes

Reference: `recv_thread`, `TaskSerial::sendPacketProc` and `TaskSerial::parsePacketProc`.

The polling thread asks for bytes by `is_RecvRun = false` and a notification. Notifications are lost
between the test of the flag and the wait, and the receive thread overwrites requests by
`is_RecvRun = true`, but each failed attempt asks again. `Handshake` is the invariant of the two
threads; `exists_received` says how far they get with the bytes at a port, and `left_behind` why no
further.
-/

namespace CsiFirmware.Task

open Protocol Runs

variable {δ : Type}

/-! ## The invariant -/

/-- The polling thread has asked for bytes and parses what arrives. -/
def PollPc.collects : PollPc → Bool
  | .notify | .parse | .retryDisarm | .retryNotify => true
  | .idle | .next | .assemble | .disarm | .answered | .publish => false

/-- The receive thread is about to add to the buffer. -/
def RecvPc.reads : RecvPc → Bool
  | .capture | .read _ | .append _ => true
  | .test | .wait | .blocked | .rearm => false

/-- A notification does not make it read. -/
@[simp] theorem RecvPc.reads_wake (pc : RecvPc) : pc.wake.reads = pc.reads := by
  cases pc <;> rfl

/-- A notification does not get it to its last assignment. -/
@[simp] theorem RecvPc.wake_eq_rearm {pc : RecvPc} : pc.wake = .rearm ↔ pc = .rearm := by
  cases pc <;> simp [wake]

/-- A notification does not send it to another port. -/
@[simp] theorem RecvPc.wake_eq_read {pc : RecvPc} {port : Option ℕ} :
    pc.wake = .read port ↔ pc = .read port := by
  cases pc <;> simp [wake]

/-- `recv_mutex` is held between two attempts. -/
theorem PollPc.collects_of_holdsRecvMutex {pc : PollPc} (h : pc.holdsRecvMutex) :
    pc.collects = true := by
  rcases h with rfl | rfl <;> rfl

namespace PollState

/-- An attempt on the buffer fails. -/
def Incomplete (s : PollState δ) : Prop := NotAccepted s.totalRecvBuf s.totalRecvBuf.length

instance (s : PollState δ) : Decidable s.Incomplete :=
  inferInstanceAs (Decidable (_ ∨ _ ∨ _))

/-- A buffer is incomplete if and only if `parsePacketProc` returns false. -/
theorem incomplete_iff {s : PollState δ} :
    s.Incomplete ↔ (parsePacketProc s.rtSrcInfo s.totalRecvBuf).isRecvAll = false := by
  rw [Incomplete, ← not_iff_not, ← parsePacketProc_isRecvAll_iff, Bool.not_eq_false]

/-- The receive thread reads only on request, from the port of the current device, and while it
does so no attempt succeeds. -/
structure Handshake (s : PollState δ) : Prop where
  drained : s.pollPc.collects = false → s.totalRecvBuf = []
  retried : s.pollPc.holdsRecvMutex → s.Incomplete
  asked : s.isRecvRun = false →
    s.recvPc = .rearm ∨ (s.pollPc.collects = true ∧ s.Incomplete)
  reading : s.recvPc.reads = true → s.pollPc.collects = true ∧ s.Incomplete
  port : ∀ port, s.recvPc = .read port → port = s.pit

/-- Nothing is no reply. -/
theorem incomplete_nil {s : PollState δ} (h : s.totalRecvBuf = []) : s.Incomplete := by
  rw [Incomplete, h]
  exact .inl (by decide)

/-- At the start neither thread is at work. -/
theorem StartUp.handshake {s : PollState δ} (h : s.StartUp) : s.Handshake where
  drained _ := h.totalRecvBuf
  retried hmutex := by
    rw [h.pollPc] at hmutex
    exact absurd hmutex (by decide)
  asked hflag := by simp [h.isRecvRun] at hflag
  reading hreads := by
    rw [h.recvPc] at hreads
    cases hreads
  port port hport := by simp [h.recvPc] at hport

/-- A successful attempt empties the buffer. -/
theorem totalRecvBuf_of_isRecvAll {info : RTSrcInfo δ} {b : List UInt8}
    (h : (parsePacketProc info b).isRecvAll = true) :
    (parsePacketProc info b).totalRecvBuf = [] := by
  simp only [parsePacketProc] at h ⊢
  split_ifs at h ⊢ <;> rfl

namespace Handshake

variable {s s' : PollState δ}

/-- A step that keeps the buffer. -/
theorem keep (hs : s.Handshake) (hcollects : s'.pollPc.collects = s.pollPc.collects)
    (hbuf : s'.totalRecvBuf = s.totalRecvBuf)
    (hretried : s'.pollPc.holdsRecvMutex → s.Incomplete)
    (hasked : s'.isRecvRun = false →
      s'.recvPc = .rearm ∨ (s.pollPc.collects = true ∧ s.Incomplete))
    (hreading : s'.recvPc.reads = true → s.pollPc.collects = true ∧ s.Incomplete)
    (hport : ∀ port, s'.recvPc = .read port → port = s'.pit) : s'.Handshake := by
  have hincomplete : s'.Incomplete ↔ s.Incomplete := by rw [Incomplete, Incomplete, hbuf]
  refine ⟨?_, fun h => hincomplete.mpr (hretried h), ?_, ?_, hport⟩
  · rw [hcollects, hbuf]
    exact hs.drained
  · rw [hcollects, hincomplete]
    exact hasked
  · rw [hcollects, hincomplete]
    exact hreading

/-- While the polling thread does not collect, the receive thread does not read. -/
theorem not_reads (hs : s.Handshake) (hpc : s.pollPc.collects = false) :
    s.recvPc.reads = false := by
  rw [← Bool.not_eq_true]
  intro hreads
  rw [(hs.reading hreads).1] at hpc
  cases hpc

/-- A step of the polling thread that begins and ends where it does not collect. -/
theorem outside (hs : s.Handshake) (hpc : s.pollPc.collects = false)
    (hpc' : s'.pollPc.collects = false) (hbuf : s'.totalRecvBuf = s.totalRecvBuf)
    (hflag : s'.isRecvRun = s.isRecvRun) (hrecv : s'.recvPc = s.recvPc) : s'.Handshake := by
  refine hs.keep (hpc'.trans hpc.symm) hbuf (fun hmutex => ?_) ?_ ?_ (fun port hport => ?_)
  · rw [PollPc.collects_of_holdsRecvMutex hmutex] at hpc'
    cases hpc'
  · rw [hflag, hrecv]
    exact hs.asked
  · rw [hrecv]
    exact hs.reading
  · have hreads := hs.not_reads hpc
    rw [← hrecv, hport] at hreads
    cases hreads

/-- An attempt that succeeds ends the collecting, and the receive thread is not reading. -/
theorem parsed (hs : s.Handshake)
    (hall : (parsePacketProc s.rtSrcInfo s.totalRecvBuf).isRecvAll = true)
    (hpc : s'.pollPc = .answered) (hbuf : s'.totalRecvBuf = [])
    (hflag : s'.isRecvRun = s.isRecvRun) (hrecv : s'.recvPc = s.recvPc) : s'.Handshake := by
  have hcomplete : ¬ s.Incomplete := fun h => by
    rw [incomplete_iff.mp h] at hall
    cases hall
  -- a receive thread that reads would mean that the attempt failed
  have hreads : s'.recvPc.reads = true → False := fun hreads => by
    rw [hrecv] at hreads
    exact hcomplete (hs.reading hreads).2
  refine ⟨fun _ => hbuf, fun hmutex => ?_, fun hrun => ?_, fun h => (hreads h).elim,
    fun port hport => ?_⟩
  · rw [hpc] at hmutex
    exact absurd hmutex (by decide)
  · rw [hflag] at hrun
    exact .inl (hrecv.trans ((hs.asked hrun).resolve_right fun h => hcomplete h.2))
  · exact (hreads (by rw [hport]; rfl)).elim

variable [CDouble δ] {tty : ℕ → UInt8 → List UInt8} {reply : ℕ → PositiveReply}

omit [CDouble δ] in
/-- The attempt: if it fails, what is needed for the next one is there. -/
theorem parse (hs : s.Handshake) (hpc : s.pollPc = .parse) : (parseStep s).Handshake := by
  cases hall : (parsePacketProc s.rtSrcInfo s.totalRecvBuf).isRecvAll with
  | true =>
      refine hs.parsed hall ?_ (totalRecvBuf_of_isRecvAll hall) rfl rfl
      simp [parseStep, hall]
  | false =>
      have hbuf := (parsePacketProc_failed hall).1
      have hretry : (parseStep s).pollPc = .retryDisarm := by simp [parseStep, hall]
      refine hs.keep ?_ hbuf (fun _ => incomplete_iff.mpr hall) hs.asked hs.reading hs.port
      rw [hretry, hpc]
      rfl

/-- Every step of the polling thread keeps it. -/
theorem poll (hs : s.Handshake) (h : PollTransition tty reply s .poll s') : s'.Handshake := by
  cases h with
  | startRound pc | endRound pc | startDevice _ _ pc | endDevice _ _ _ _ pc
  | request _ _ _ _ _ _ pc | answered _ pc | publish _ _ pc =>
      exact hs.outside (by rw [pc]; rfl) rfl rfl rfl rfl
  | disarm pc =>
      have hcollects : s.pollPc.collects = false := by rw [pc]; rfl
      have hreads := hs.not_reads hcollects
      -- the first request is made with an empty buffer
      have hincomplete : s.Incomplete := incomplete_nil (hs.drained hcollects)
      refine ⟨fun h => (by cases h), by simp [PollPc.holdsRecvMutex],
        fun _ => .inr ⟨rfl, hincomplete⟩, fun _ => ⟨rfl, hincomplete⟩, fun port hport => ?_⟩
      rw [show s.recvPc = .read port from hport] at hreads
      cases hreads
  | retryDisarm pc =>
      have hincomplete := hs.retried (.inl pc)
      have hcollects : s.pollPc.collects = true := by rw [pc]; rfl
      exact hs.keep (hcollects.symm ▸ rfl) rfl (fun _ => hincomplete)
        (fun _ => .inr ⟨hcollects, hincomplete⟩) hs.reading hs.port
  | notify pc =>
      have hcollects : s.pollPc.collects = true := by obtain pc | pc := pc <;> rw [pc] <;> rfl
      refine hs.keep (hcollects.symm ▸ rfl) rfl (by simp [PollPc.holdsRecvMutex]) ?_ ?_ ?_
      · simpa using hs.asked
      · simpa using hs.reading
      · simpa using hs.port
  | parse pc => exact hs.parse pc

omit [CDouble δ] in
/-- What is read is appended where the polling thread collects. -/
theorem append {recvBuf : List UInt8} (hs : s.Handshake) (hpc : s.recvPc = .append recvBuf)
    (free : ¬ s.pollPc.holdsRecvMutex) :
    Handshake { s with totalRecvBuf := s.totalRecvBuf ++ recvBuf, recvPc := .rearm } where
  drained hcollects := by
    have hreads := hs.not_reads hcollects
    rw [hpc] at hreads
    cases hreads
  retried hmutex := absurd hmutex free
  asked _ := .inl rfl
  reading hreads := by cases hreads
  port _ hport := by cases hport

/-- Every step of the receive thread keeps it. -/
theorem recv {recvLen : ℕ} (hs : s.Handshake) (h : PollTransition tty reply s (.recv recvLen) s') :
    s'.Handshake := by
  cases h with
  | test _ pc =>
      cases hflag : s.isRecvRun with
      | true =>
          refine hs.keep rfl rfl hs.retried (fun h => ?_) (by simp [RecvPc.reads]) (by simp)
          cases h
      | false =>
          have hasked := (hs.asked hflag).resolve_left (by simp [pc])
          exact hs.keep rfl rfl hs.retried (fun _ => .inr hasked) (fun _ => hasked) (by simp)
  | block _ pc =>
      refine hs.keep rfl rfl hs.retried (fun h => ?_) (by simp [RecvPc.reads]) (by simp)
      exact .inr ((hs.asked h).resolve_left (by simp [pc]))
  | capture _ pc =>
      have hreading := hs.reading (by rw [pc]; rfl)
      exact hs.keep rfl rfl hs.retried (fun _ => .inr hreading) (fun _ => hreading)
        (fun port hport => (RecvPc.read.inj hport).symm)
  | readNothing _ pc | read _ _ pc =>
      have hreading := hs.reading (by rw [pc]; rfl)
      exact hs.keep rfl rfl hs.retried (fun _ => .inr hreading) (fun _ => hreading) (by simp)
  | append _ recvBuf pc free => exact hs.append pc free
  | rearm _ pc => exact hs.keep rfl rfl hs.retried (by simp) (by simp [RecvPc.reads]) (by simp)

/-- Every step of the system keeps the handshake. -/
theorem step {e : LineEvent δ} (hs : s.Handshake) (h : s.lineStep e = some s') :
    s'.Handshake := by
  cases lineStep_transition h with
  -- bytes at a port concern neither thread
  | arrive => exact hs.keep rfl rfl hs.retried hs.asked hs.reading hs.port
  | poll t ht =>
      have hpolled := hs.poll ht
      exact hpolled.keep rfl rfl hpolled.retried hpolled.asked hpolled.reading hpolled.port
  | other e t other ht =>
      cases e with
      | poll => exact absurd rfl other
      | recv => exact hs.recv ht
      | spurious =>
          cases ht
          exact hs.keep rfl rfl hs.retried (by simpa using hs.asked) (by simpa using hs.reading)
            (by simpa using hs.port)
      | point msg =>
          cases ht
          exact hs.keep rfl rfl hs.retried hs.asked hs.reading hs.port
      | devices map =>
          cases ht
          exact hs.keep rfl rfl hs.retried hs.asked hs.reading hs.port

end Handshake

/-! ## Continuations of the two threads -/

/-- No byte has moved. -/
structure SameBytes (s s' : PollState δ) : Prop where
  totalRecvBuf : s'.totalRecvBuf = s.totalRecvBuf
  line : s'.line = s.line
  pit : s'.pit = s.pit

/-- One stretch after another. -/
theorem SameBytes.trans {s₁ s₂ s₃ : PollState δ} (h : SameBytes s₁ s₂) (h' : SameBytes s₂ s₃) :
    SameBytes s₁ s₃ :=
  ⟨h'.totalRecvBuf.trans h.totalRecvBuf, h'.line.trans h.line, h'.pit.trans h.pit⟩

/-- An attempt fails as before. -/
theorem SameBytes.incomplete {s s' : PollState δ} (h : SameBytes s s') :
    s'.Incomplete ↔ s.Incomplete := by
  rw [Incomplete, Incomplete, h.totalRecvBuf]

section Continuations

variable [CDouble δ] {s s' t : PollState δ} {port : ℕ}

/-- A continuation with a step of the receive thread. -/
theorem leads_recv (recvLen : ℕ) (h : recvStep recvLen s = some t)
    (hrest : Leads lineStep (LineEvent.thread ·) t s') :
    Leads lineStep (LineEvent.thread ·) s s' :=
  .head (e := .own (.recv recvLen)) rfl h hrest

/-- A continuation with a step of the polling thread. -/
theorem leads_poll (h : pollStep transparent anyReply s = some t)
    (hrest : Leads lineStep (LineEvent.thread ·) { t with line := s.line } s') :
    Leads lineStep (LineEvent.thread ·) s s' :=
  .head (e := .own .poll) rfl (congrArg (Option.map _) h) hrest

/-- After a failed attempt the polling thread has asked again. -/
theorem retries (hpc : s.pollPc = .parse) (hincomplete : s.Incomplete) :
    ∃ s', Leads lineStep (LineEvent.thread ·) s s' ∧ SameBytes s s' ∧ s'.pollPc = .parse ∧
      s'.isRecvRun = false ∧ s'.recvPc = s.recvPc.wake := by
  have hfailed := incomplete_iff.mp hincomplete
  have hbuf := (parsePacketProc_failed hfailed).1
  refine ⟨{ parseStep s with isRecvRun := false, recvPc := s.recvPc.wake, pollPc := .parse },
    leads_poll (t := parseStep s) (by simp [pollStep, hpc]) ?_, ⟨hbuf, rfl, rfl⟩, rfl, rfl, rfl⟩
  have hretry : (parseStep s).pollPc = .retryDisarm := by simp [parseStep, hfailed]
  refine leads_poll (t := { parseStep s with isRecvRun := false, pollPc := .retryNotify })
    (by simp [pollStep, hretry]; rfl) ?_
  exact leads_poll rfl (.refl _)

/-- The receive thread is about to read from the port. -/
def AboutToRead (s : PollState δ) : Prop := s.pollPc = .parse ∧ s.recvPc = .read s.pit

/-- While the polling thread parses, the receive thread gets from its test to the next read. -/
theorem reads_after_test (hpc : s.pollPc = .parse) (hrecv : s.recvPc = .test)
    (hflag : s.isRecvRun = false) :
    ∃ s', Leads lineStep (LineEvent.thread ·) s s' ∧ SameBytes s s' ∧ s'.AboutToRead := by
  refine ⟨{ s with recvPc := .read s.pit }, ?_, ⟨rfl, rfl, rfl⟩, hpc, rfl⟩
  refine leads_recv 0 (t := { s with recvPc := .capture })
    (by simp [recvStep, hrecv, hflag]) ?_
  exact leads_recv 0 rfl (.refl _)

/-- A receive thread that waits is woken after the next failed attempt. -/
theorem reads_after_wait (hpc : s.pollPc = .parse) (hincomplete : s.Incomplete)
    (hrecv : s.recvPc = .blocked) :
    ∃ s', Leads lineStep (LineEvent.thread ·) s s' ∧ SameBytes s s' ∧ s'.AboutToRead := by
  obtain ⟨s₁, hleads₁, hsame₁, hpc₁, hflag₁, hrecv₁⟩ := retries hpc hincomplete
  rw [hrecv] at hrecv₁
  obtain ⟨s₂, hleads₂, hsame₂, habout⟩ := reads_after_test hpc₁ hrecv₁ hflag₁
  exact ⟨s₂, hleads₁.trans hleads₂, hsame₁.trans hsame₂, habout⟩

/-- Wherever the receive thread stands, unless it has bytes to append, it gets to the next read: if
it has missed the last request, the next failed attempt makes another. -/
theorem reads (hs : s.Handshake) (hpc : s.pollPc = .parse) (hincomplete : s.Incomplete)
    (hrecv : ∀ recvBuf, s.recvPc ≠ .append recvBuf) :
    ∃ s', Leads lineStep (LineEvent.thread ·) s s' ∧ SameBytes s s' ∧ s'.AboutToRead := by
  have hwait : ∀ {t : PollState δ}, SameBytes s t → t.pollPc = .parse → t.recvPc = .wait →
      Leads lineStep (LineEvent.thread ·) s t →
      ∃ s', Leads lineStep (LineEvent.thread ·) s s' ∧ SameBytes s s' ∧ s'.AboutToRead := by
    intro t hsame hpc hrecv hleads
    obtain ⟨s', hleads', hsame', habout⟩ := reads_after_wait (s := { t with recvPc := .blocked })
      hpc (hsame.incomplete.mpr hincomplete) rfl
    refine ⟨s', hleads.trans (leads_recv 0 ?_ hleads'),
      ⟨hsame'.totalRecvBuf.trans hsame.totalRecvBuf, hsame'.line.trans hsame.line,
        hsame'.pit.trans hsame.pit⟩, habout⟩
    rw [recvStep, hrecv]
  cases hrecv' : s.recvPc with
  | append recvBuf => exact absurd hrecv' (hrecv recvBuf)
  | read p => exact ⟨s, .refl s, ⟨rfl, rfl, rfl⟩, hpc, by rw [hrecv', hs.port p hrecv']⟩
  | capture =>
      refine ⟨{ s with recvPc := .read s.pit }, leads_recv 0 ?_ (.refl _),
        ⟨rfl, rfl, rfl⟩, hpc, rfl⟩
      rw [recvStep, hrecv']
  | blocked => exact reads_after_wait hpc hincomplete hrecv'
  | wait => exact hwait ⟨rfl, rfl, rfl⟩ hpc hrecv' (.refl s)
  | test =>
      cases hflag : s.isRecvRun with
      | false => exact reads_after_test hpc hrecv' hflag
      | true =>
          refine hwait (t := { s with recvPc := .wait }) ⟨rfl, rfl, rfl⟩ hpc rfl ?_
          exact leads_recv 0 (by simp [recvStep, hrecv', hflag]) (.refl _)
  | rearm =>
      refine hwait (t := { s with isRecvRun := true, recvPc := .wait }) ⟨rfl, rfl, rfl⟩ hpc rfl ?_
      refine leads_recv 0 (t := { s with isRecvRun := true, recvPc := .test })
        (by rw [recvStep, hrecv']) ?_
      exact leads_recv 0 rfl (.refl _)

/-- One read and its bytes in the buffer. -/
theorem receives_chunk (h : s.AboutToRead) (hport : s.pit = some port) :
    ∃ s', Leads lineStep (LineEvent.thread ·) s s' ∧ s'.pollPc = .parse ∧ s'.recvPc = .rearm ∧
      s'.pit = some port ∧
      s'.totalRecvBuf = s.totalRecvBuf ++ (s.line port).take maxRecvSize ∧
      s'.line port = (s.line port).drop maxRecvSize := by
  obtain ⟨hpc, hrecv⟩ := h
  rw [hport] at hrecv
  let read : PollState δ :=
    { s with
      line := Function.update s.line port ((s.line port).drop maxRecvSize)
      recvPc := .append ((s.line port).take maxRecvSize) }
  have hread : recvStep maxRecvSize s = some read := by simp [recvStep, hrecv, read]
  have happend : recvStep 0 read = some
      { read with
        totalRecvBuf := s.totalRecvBuf ++ (s.line port).take maxRecvSize, recvPc := .rearm } := by
    simp [recvStep, read, hpc, PollPc.holdsRecvMutex]
  exact ⟨_, leads_recv maxRecvSize hread (leads_recv 0 happend (.refl _)), hpc, rfl, hport, rfl,
    Function.update_self ..⟩

/-- The unread bytes of the port come into the buffer chunk by chunk, until the port holds no more
or an attempt on the buffer succeeds. -/
theorem receives (hs : s.Handshake) (hpc : s.pollPc = .parse) (hport : s.pit = some port)
    (hrecv : ∀ recvBuf, s.recvPc ≠ .append recvBuf) :
    ∃ s', Leads lineStep (LineEvent.thread ·) s s' ∧
      (∃ k, s'.totalRecvBuf = s.totalRecvBuf ++ (s.line port).take k ∧
        s'.line port = (s.line port).drop k) ∧
      (s'.line port = [] ∨ ¬ s'.Incomplete) := by
  induction hlen : (s.line port).length using Nat.strongRecOn generalizing s with
  | ind n ih =>
      by_cases hended : s.line port = [] ∨ ¬ s.Incomplete
      · exact ⟨s, .refl s, ⟨0, by simp, by simp⟩, hended⟩
      rw [not_or, not_not] at hended
      obtain ⟨hne, hincomplete⟩ := hended
      obtain ⟨s₁, hleads₁, hsame, habout⟩ := reads hs hpc hincomplete hrecv
      obtain ⟨s₂, hleads₂, hpc₂, hrecv₂, hport₂, hbuf₂, hline₂⟩ :=
        receives_chunk habout (hsame.pit.trans hport)
      rw [hsame.totalRecvBuf, hsame.line] at hbuf₂
      rw [hsame.line] at hline₂
      have hleads : Leads lineStep (LineEvent.thread ·) s s₂ := hleads₁.trans hleads₂
      have hs₂ : s₂.Handshake := hleads.invariant (fun _ _ _ hs _ h => hs.step h) hs
      have hshorter : (s₂.line port).length < n := by
        have hpos := List.length_pos_iff.mpr hne
        rw [hline₂, List.length_drop, ← hlen]
        have hmax : 0 < maxRecvSize := by decide
        omega
      obtain ⟨s', hleads', ⟨k, hbuf', hline'⟩, hended'⟩ :=
        ih _ hshorter hs₂ hpc₂ hport₂ (by simp [hrecv₂]) rfl
      refine ⟨s', hleads.trans hleads', ⟨maxRecvSize + k, ?_, ?_⟩, hended'⟩
      · rw [hbuf', hbuf₂, hline₂, List.append_assoc, List.take_add]
      · rw [hline', hline₂, List.drop_drop]

/-- Wherever the polling thread waits for a reply, it gets to the next attempt. -/
theorem parses (hpc : s.pollPc.stage = .waiting) :
    ∃ s', Leads lineStep (LineEvent.thread ·) s s' ∧ SameBytes s s' ∧ s'.pollPc = .parse ∧
      (s'.recvPc = s.recvPc ∨ s'.recvPc = s.recvPc.wake) := by
  have hnotify : ∀ {t : PollState δ}, t.pollPc = .notify ∨ t.pollPc = .retryNotify →
      Leads lineStep (LineEvent.thread ·) t
        { t with recvPc := t.recvPc.wake, pollPc := .parse } := by
    intro t hpc
    exact leads_poll (by obtain hpc | hpc := hpc <;> simp [pollStep, hpc] <;> rfl) (.refl _)
  cases hpc' : s.pollPc with
  | idle | next | assemble | answered | publish => simp [hpc', PollPc.stage] at hpc
  | parse => exact ⟨s, .refl s, ⟨rfl, rfl, rfl⟩, hpc', .inl rfl⟩
  | notify => exact ⟨_, hnotify (.inl hpc'), ⟨rfl, rfl, rfl⟩, rfl, .inr rfl⟩
  | retryNotify => exact ⟨_, hnotify (.inr hpc'), ⟨rfl, rfl, rfl⟩, rfl, .inr rfl⟩
  | disarm =>
      refine ⟨_, leads_poll (t := { s with isRecvRun := false, pollPc := .notify }) ?_
        (hnotify (.inl rfl)), ⟨rfl, rfl, rfl⟩, rfl, .inr rfl⟩
      rw [pollStep, hpc']
  | retryDisarm =>
      refine ⟨_, leads_poll (t := { s with isRecvRun := false, pollPc := .retryNotify }) ?_
        (hnotify (.inr rfl)), ⟨rfl, rfl, rfl⟩, rfl, .inr rfl⟩
      rw [pollStep, hpc']

/-- The bytes that were in the hands of the receive thread and the first unread bytes of the port
have been appended: all of them, or so many that an attempt on the buffer succeeds. -/
structure Received (s s' : PollState δ) (port : ℕ) : Prop where
  bytes : ∃ k, s'.totalRecvBuf =
      s.totalRecvBuf ++ s.recvPc.inFlight ++ (s.line port).take k ∧
    s'.line port = (s.line port).drop k
  ended : s'.line port = [] ∨ (parsePacketProc s'.rtSrcInfo s'.totalRecvBuf).isRecvAll = true

/-- The same from an attempt, with what was read and not appended yet. -/
theorem received_of_parse (hs : s.Handshake) (hpc : s.pollPc = .parse)
    (hport : s.pit = some port) :
    ∃ s', Leads lineStep (LineEvent.thread ·) s s' ∧ Received s s' port := by
  have hended : ∀ {t : PollState δ}, t.line port = [] ∨ ¬ t.Incomplete →
      t.line port = [] ∨ (parsePacketProc t.rtSrcInfo t.totalRecvBuf).isRecvAll = true := by
    intro t h
    rwa [incomplete_iff, Bool.not_eq_false] at h
  -- what was read before is appended first
  by_cases happend : ∃ recvBuf, s.recvPc = .append recvBuf
  · obtain ⟨recvBuf, hrecv⟩ := happend
    have free : ¬ s.pollPc.holdsRecvMutex := by simp [hpc, PollPc.holdsRecvMutex]
    have hstep : recvStep 0 s = some
        { s with totalRecvBuf := s.totalRecvBuf ++ recvBuf, recvPc := .rearm } := by
      simp [recvStep, hrecv, free]
    obtain ⟨s', hleads, hbytes, hend⟩ := receives (hs.append hrecv free) hpc hport (by simp)
    refine ⟨s', leads_recv 0 hstep hleads, ?_, hended hend⟩
    rw [hrecv]
    exact hbytes
  · have hflight : s.recvPc.inFlight = [] := by
      cases hrecv : s.recvPc with
      | append recvBuf => exact absurd ⟨recvBuf, hrecv⟩ happend
      | test | wait | blocked | capture | read | rearm => rfl
    obtain ⟨s', hleads, hbytes, hend⟩ :=
      receives hs hpc hport fun recvBuf hrecv => happend ⟨recvBuf, hrecv⟩
    refine ⟨s', hleads, ?_, hended hend⟩
    rw [hflight, List.append_nil]
    exact hbytes

/-- From every reachable state in which the polling thread waits for a reply, whatever flags have
been overwritten and notifications lost, the two threads alone can get the unread bytes into the
buffer, up to the end of the wait. -/
theorem exists_received (hs : Reachable lineStep StartUp s) (hpc : s.pollPc.stage = .waiting)
    (hport : s.pit = some port) :
    ∃ s', Leads lineStep (LineEvent.thread ·) s s' ∧ Received s s' port := by
  have hhand : s.Handshake := hs.invariant (fun _ h => h.handshake) fun _ _ _ hs h => hs.step h
  obtain ⟨s₁, hleads₁, hsame, hpc₁, hrecv₁⟩ := parses hpc
  have hhand₁ : s₁.Handshake := hleads₁.invariant (fun _ _ _ hs _ h => hs.step h) hhand
  have hflight : s₁.recvPc.inFlight = s.recvPc.inFlight := by
    rcases hrecv₁ with hrecv₁ | hrecv₁ <;> simp [hrecv₁]
  obtain ⟨s', hleads, hbytes, hended⟩ :=
    received_of_parse hhand₁ hpc₁ (hsame.pit.trans hport)
  rw [hsame.totalRecvBuf, hflight, hsame.line] at hbytes
  exact ⟨s', hleads₁.trans hleads, hbytes, hended⟩

end Continuations

/-! ## Bytes behind the end of the wait -/

section LeftBehind

/-- A block of one register. -/
private def block : ModbusPoint Decimal :=
  ⟨"运行信息", "", "", ⟨1000000⟩, "", 0, 0, [⟨0x03, (0x0E, 0x10), (0x00, 0x01)⟩]⟩

/-- Two devices on two ports; `nextPkg` of the first. -/
private def objects (nextPkg : ℕ) : List (String × Modbus Decimal) :=
  [("a", ⟨0, [block], nextPkg⟩), ("b", ⟨1, [block], 0⟩)]

/-- More bytes than one read takes, the first five of which are an error reply. -/
private def noise : List UInt8 := 0x01 :: 0x83 :: List.replicate 600 0x00

/-- An attempt that fails has seen less than the error reply. -/
private theorem length_lt_of_noise {b rest : List UInt8} (h : b ++ rest = noise)
    (hb : NotAccepted b b.length) : b.length < 5 := by
  by_contra hlen
  have hfn : b.getD 1 0 = 0x83 := by
    have hget : (b ++ rest)[1]? = b[1]? := List.getElem?_append_left (by omega)
    rw [List.getD_eq_getElem?_getD, ← hget, h]
    rfl
  rw [NotAccepted, hfn] at hb
  rcases hb with hshort | ⟨hfn, -⟩ | ⟨hfn, -⟩
  · omega
  · exact hfn rfl
  · exact hfn rfl

/-- The way of the polling thread from the first device to the second. -/
private inductive Between (s : PollState Decimal) : Prop where
  | answered (pc : s.pollPc = .answered) (it : s.it = 0) (map : s.protocolInfoMap = objects 1)
  | last (pc : s.pollPc = .assemble) (it : s.it = 0) (map : s.protocolInfoMap = objects 1)
  | publish (pc : s.pollPc = .publish) (it : s.it = 0) (map : s.protocolInfoMap = objects 0)
  | next (pc : s.pollPc = .next) (it : s.it = 1) (map : s.protocolInfoMap = objects 0)
  | request (pc : s.pollPc = .assemble) (it : s.it = 1) (map : s.protocolInfoMap = objects 0)
      (pit : s.pit = some 1)

/-- The polling thread waits for the first device, whose line has carried `noise`. -/
private structure First (s : PollState Decimal) : Prop where
  pc : s.pollPc.stage = .waiting
  pit : s.pit = some 0
  it : s.it = 0
  map : s.protocolInfoMap = objects 1
  bytes : s.totalRecvBuf ++ s.recvPc.inFlight ++ s.line 0 = noise

/-- The polling thread waits for the second device, whose line is silent. -/
private structure Second (s : PollState Decimal) : Prop where
  pc : s.pollPc.stage = .waiting
  pit : s.pit = some 1
  totalRecvBuf : s.totalRecvBuf = []
  inFlight : s.recvPc.inFlight = []

/-- Where the polling thread stands. -/
private inductive Scene (s : PollState Decimal) : Prop where
  | first (h : First s)
  | between (h : Between s)
  | second (h : Second s)

/-- While line 0 carries `noise` and line 1 is silent. -/
private structure Behind (s : PollState Decimal) : Prop where
  handshake : s.Handshake
  silent : s.line 1 = []
  unread : s.line 0 ≠ []
  scene : Scene s

variable {s s' : PollState Decimal}

/-- In between nothing is waited for. -/
private theorem Between.not_collects (hs : Between s) : s.pollPc.collects = false := by
  cases hs with
  | answered pc | last pc | publish pc | next pc | request pc =>
      rw [pc]
      rfl

/-- The way of the polling thread goes from the first device to the second, and no further back. -/
private theorem Between.poll (hs : Between s) (hbuf : s.totalRecvBuf = [])
    (hflight : s.recvPc.inFlight = []) (h : pollStep transparent anyReply s = some s')
    (line : ℕ → List UInt8) : Scene { s' with line } := by
  cases hs with
  | answered pc it map =>
      rw [pollStep, pc] at h
      obtain ⟨request, -, rfl⟩ := Option.map_eq_some_iff.mp h
      exact .between (.last rfl it map)
  | last pc it map =>
      rw [pollStep, pc] at h
      simp only [assembleStep, map, it, objects, assemblePacket] at h
      obtain rfl := Option.some.inj h
      exact .between (.publish rfl rfl rfl)
  | publish pc it map =>
      rw [pollStep, pc] at h
      obtain ⟨p, -, rfl⟩ := Option.map_eq_some_iff.mp h
      exact .between (.next rfl (by rw [it]) map)
  | next pc it map =>
      rw [pollStep, pc] at h
      simp only [map, it, objects] at h
      obtain rfl := Option.some.inj h
      exact .between (.request rfl rfl rfl rfl)
  | request pc it map pit =>
      rw [pollStep, pc] at h
      simp [assembleStep, map, it, objects, assemblePacket, block] at h
      split at h
      · cases h
      · obtain rfl := Option.some.inj h
        exact .second ⟨rfl, pit, hbuf, hflight⟩

/-- The steps of a polling thread that waits for a reply. -/
private theorem waiting_cases (hpc : s.pollPc.stage = .waiting)
    (h : PollTransition transparent anyReply s .poll s') :
    (∃ pc : PollPc, pc.stage = .waiting ∧ s' = { s with isRecvRun := false, pollPc := pc }) ∨
      s' = { s with recvPc := s.recvPc.wake, pollPc := .parse } ∨ s' = parseStep s := by
  cases h with
  | startRound pc | endRound pc | startDevice _ _ pc | endDevice _ _ _ _ pc
  | request _ _ _ _ _ _ pc | answered _ pc | publish _ _ pc =>
      rw [pc] at hpc
      cases hpc
  | disarm => exact .inl ⟨.notify, rfl, rfl⟩
  | retryDisarm => exact .inl ⟨.retryNotify, rfl, rfl⟩
  | notify => exact .inr (.inl rfl)
  | parse => exact .inr (.inr rfl)

/-- At the first device it waits until the error reply is there. -/
private theorem First.poll (hs : First s) (h : PollTransition transparent anyReply s .poll s')
    (line : ℕ → List UInt8) (hline : line 0 = s.line 0) : Scene { s' with line } := by
  rcases waiting_cases hs.pc h with ⟨pc, hwaiting, rfl⟩ | rfl | rfl
  · exact .first ⟨hwaiting, hs.pit, hs.it, hs.map, by simpa [hline] using hs.bytes⟩
  · exact .first ⟨rfl, hs.pit, hs.it, hs.map, by simpa [hline] using hs.bytes⟩
  · -- the attempt
    cases hall : (parsePacketProc s.rtSrcInfo s.totalRecvBuf).isRecvAll with
    | true => exact .between (.answered (by simp [parseStep, hall]) hs.it hs.map)
    | false =>
        have hbuf := (parsePacketProc_failed hall).1
        refine .first ⟨?_, hs.pit, hs.it, hs.map, ?_⟩
        · simp [parseStep, hall, PollPc.stage]
        · simpa [parseStep, hbuf, hline] using hs.bytes

/-- At the second device it waits for ever. -/
private theorem Second.poll (hs : Second s) (h : PollTransition transparent anyReply s .poll s')
    (line : ℕ → List UInt8) : Second { s' with line } := by
  rcases waiting_cases hs.pc h with ⟨pc, hwaiting, rfl⟩ | rfl | rfl
  · exact ⟨hwaiting, hs.pit, hs.totalRecvBuf, hs.inFlight⟩
  · exact ⟨rfl, hs.pit, hs.totalRecvBuf, by simpa using hs.inFlight⟩
  · have hfailed := incomplete_iff.mp (incomplete_nil hs.totalRecvBuf)
    refine ⟨?_, hs.pit, (parsePacketProc_failed hfailed).1.trans hs.totalRecvBuf, hs.inFlight⟩
    simp [parseStep, hfailed, PollPc.stage]

/-- A read takes too little to empty line 0. -/
private theorem First.read {recvLen : ℕ} (hs : First s) (hincomplete : s.Incomplete)
    (hflight : s.recvPc.inFlight = []) (hle : recvLen ≤ maxRecvSize) :
    (s.line 0).drop recvLen ≠ [] := by
  have hbytes := hs.bytes
  rw [hflight, List.append_nil] at hbytes
  have hshort := length_lt_of_noise hbytes hincomplete
  have hlen := congrArg List.length hbytes
  rw [List.length_append, noise] at hlen
  simp only [List.length_cons, List.length_replicate] at hlen
  rw [maxRecvSize] at hle
  intro hnil
  have hdrop := congrArg List.length hnil
  rw [List.length_drop, List.length_nil] at hdrop
  omega

/-- Only the place of the polling thread matters. -/
private theorem Between.congr (hs : Between s) (hpc : s'.pollPc = s.pollPc) (hit : s'.it = s.it)
    (hmap : s'.protocolInfoMap = s.protocolInfoMap) (hpit : s'.pit = s.pit) : Between s' := by
  cases hs with
  | answered pc it map => exact .answered (hpc.trans pc) (hit.trans it) (hmap.trans map)
  | last pc it map => exact .last (hpc.trans pc) (hit.trans it) (hmap.trans map)
  | publish pc it map => exact .publish (hpc.trans pc) (hit.trans it) (hmap.trans map)
  | next pc it map => exact .next (hpc.trans pc) (hit.trans it) (hmap.trans map)
  | request pc it map pit =>
      exact .request (hpc.trans pc) (hit.trans it) (hmap.trans map) (hpit.trans pit)

/-- A step of the receive thread that moves no byte. -/
private theorem Behind.quiet (hs : Behind s) (hhand : s'.Handshake) (hpc : s'.pollPc = s.pollPc)
    (hit : s'.it = s.it) (hmap : s'.protocolInfoMap = s.protocolInfoMap) (hpit : s'.pit = s.pit)
    (hbytes : s'.totalRecvBuf ++ s'.recvPc.inFlight = s.totalRecvBuf ++ s.recvPc.inFlight)
    (hline : s'.line = s.line) : Behind s' := by
  refine ⟨hhand, hline ▸ hs.silent, hline ▸ hs.unread, ?_⟩
  cases hs.scene with
  | first h =>
      exact .first ⟨hpc ▸ h.pc, hpit.trans h.pit, hit.trans h.it, hmap.trans h.map,
        by rw [hbytes, hline, h.bytes]⟩
  | between h => exact .between (h.congr hpc hit hmap hpit)
  | second h =>
      rw [h.totalRecvBuf, h.inFlight, List.append_nil, List.append_eq_nil_iff] at hbytes
      exact .second ⟨hpc ▸ h.pc, hpit.trans h.pit, hbytes.1, hbytes.2⟩

/-- The receive thread never empties line 0. -/
private theorem Behind.recv {recvLen : ℕ} (hs : Behind s)
    (h : PollTransition transparent anyReply s (.recv recvLen) s') : Behind s' := by
  have hhand := hs.handshake.recv h
  cases h with
  | test _ pc =>
      refine hs.quiet hhand rfl rfl rfl rfl ?_ rfl
      cases hflag : s.isRecvRun <;> simp [pc, RecvPc.inFlight]
  | block _ pc | capture _ pc | rearm _ pc =>
      exact hs.quiet hhand rfl rfl rfl rfl (by simp [pc, RecvPc.inFlight]) rfl
  | append _ recvBuf pc =>
      exact hs.quiet hhand rfl rfl rfl rfl (by simp [pc, RecvPc.inFlight]) rfl
  | readNothing _ pc =>
      exact hs.quiet hhand rfl rfl rfl rfl (by simp [pc, RecvPc.inFlight]) rfl
  | read _ port pc le =>
      have hport := hs.handshake.port _ pc
      have hflight : s.recvPc.inFlight = [] := by rw [pc]; rfl
      cases hs.scene with
      | first h =>
          obtain rfl : port = 0 := Option.some.inj (hport.trans h.pit)
          refine ⟨hhand, hs.silent, ?_, .first ⟨h.pc, h.pit, h.it, h.map, ?_⟩⟩
          · -- at most four bytes were taken when the last attempt failed, and one read leaves some
            -- of the rest
            have hrest := h.read (hs.handshake.reading (by rw [pc]; rfl)).2 hflight le
            simpa using hrest
          · have hbytes := h.bytes
            rw [hflight, List.append_nil] at hbytes
            simpa [RecvPc.inFlight] using hbytes
      -- no one has asked for bytes there
      | between h =>
          have hreads := hs.handshake.not_reads h.not_collects
          rw [pc] at hreads
          cases hreads
      | second h =>
          obtain rfl : port = 1 := Option.some.inj (hport.trans h.pit)
          refine ⟨hhand, ?_, hs.unread, .second ⟨h.pc, h.pit, h.totalRecvBuf, ?_⟩⟩
          · simp [hs.silent]
          · simp [RecvPc.inFlight, hs.silent]

/-- The system does not empty it either, as long as nothing arrives. -/
private theorem Behind.step {e : LineEvent Decimal} (hs : Behind s) (he : e.thread = true)
    (h : s.lineStep e = some s') : Behind s' := by
  have hhand := hs.handshake.step h
  cases e with
  | arrive => cases he
  | own e =>
      cases e with
      | spurious | point | devices => cases he
      | recv recvLen => exact hs.recv (recvStep_transition h)
      | poll =>
          obtain ⟨t, ht, rfl⟩ := Option.map_eq_some_iff.mp h
          refine ⟨hhand, hs.silent, hs.unread, ?_⟩
          cases hs.scene with
          | first h => exact h.poll (step_transition ht) _ rfl
          | second h => exact .second (h.poll (step_transition ht) _)
          | between h =>
              have hcollects := h.not_collects
              refine h.poll (hs.handshake.drained hcollects) ?_ ht _
              have hreads := hs.handshake.not_reads hcollects
              cases hrecv : s.recvPc with
              | append recvBuf =>
                  rw [hrecv] at hreads
                  cases hreads
              | test | wait | blocked | capture | read | rearm => rfl

/-- The first device has been asked, and `bytes` have arrived at its port. -/
private def asked (bytes : List UInt8) : PollState Decimal :=
  { new (objects 0) [block] with
    protocolInfoMap := objects 1
    pit := some 0
    pollPc := .disarm
    pointCount := 1
    rtSrcInfo := { RTSrcInfo.fresh with title := block.name }
    line := Function.update (fun _ => []) 0 bytes
    requests := [⟨"a", 0, requestFrame ⟨0x03, (0x0E, 0x10), (0x00, 0x01)⟩⟩] }

/-- Three steps and some bytes lead there. -/
private theorem reachable_asked (bytes : List UInt8) :
    Reachable lineStep StartUp (asked bytes) :=
  ⟨new (objects 0) [block], [.own .poll, .own .poll, .own .poll, .arrive 0 bytes],
    startUp_new _ _, rfl⟩

/-- Three bytes are waiting at the port. -/
theorem exists_received_asked :
    ∃ s', Leads lineStep (LineEvent.thread ·) (asked [0x01, 0x03, 0x02]) s' ∧
      Received (asked [0x01, 0x03, 0x02]) s' 0 :=
  exists_received (reachable_asked _) rfl rfl

/-- More bytes than one read takes, after an error reply that ends the wait: the two threads leave
bytes at the port, whatever they do. -/
theorem left_behind :
    ∃ s : PollState Decimal, Reachable lineStep StartUp s ∧ s.pollPc.stage = .waiting ∧
      s.pit = some 0 ∧ s.line 0 ≠ [] ∧
      ∀ s', Leads lineStep (LineEvent.thread ·) s s' → s'.line 0 ≠ [] := by
  have hreach := reachable_asked noise
  have hhand : (asked noise).Handshake :=
    hreach.invariant (fun _ h => h.handshake) fun _ _ _ hs h => hs.step h
  have hbehind : Behind (asked noise) :=
    ⟨hhand, rfl, List.cons_ne_nil _ _, .first ⟨rfl, rfl, rfl, rfl, rfl⟩⟩
  refine ⟨asked noise, hreach, rfl, rfl, hbehind.unread, fun s' hleads => ?_⟩
  exact (hleads.invariant (fun _ _ _ hs he h => hs.step he h) hbehind).unread

end LeftBehind

end PollState

end CsiFirmware.Task
