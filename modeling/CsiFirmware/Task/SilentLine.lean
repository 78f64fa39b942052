import CsiFirmware.Task.Handshake
import Mathlib.Data.List.Infix

/-!
# Rounds that never end

Reference: `TaskSerial::sendPacketProc`, `TaskSerial::parsePacketProc` and `recv_thread`.

The wait for a reply has no time limit, and a failed attempt throws no byte away. While it lasts,
`serialTaskRun` holds `list_mutex`, so nothing else is polled and no change of the devices is taken
in. `freezes_iff` decides for every reachable state whether this can ever end: it can, unless the
bytes that have arrived rule out every reply that `parsePacket` accepts.
-/

namespace CsiFirmware.Task

open Protocol Runs

variable {δ : Type}

namespace PollState

/-- What the polling thread is waiting for can still come: the bytes in the buffer and in the hands
of the receive thread make an accepted reply with the first of the unread ones, or all of them
together can be completed by bytes that have not arrived. -/
def Answerable (s : PollState δ) (port : ℕ) : Prop :=
  let received := s.totalRecvBuf ++ s.recvPc.inFlight
  (∃ p ∈ (s.line port).inits, ¬ NotAccepted (received ++ p) (received ++ p).length) ∨
    CanComplete (received ++ s.line port)

instance (b : List UInt8) (n : Int) : Decidable (NotAccepted b n) :=
  inferInstanceAs (Decidable (_ ∨ _ ∨ _))

instance (s : PollState δ) (port : ℕ) : Decidable (s.Answerable port) :=
  inferInstanceAs (Decidable ((∃ p ∈ _, _) ∨ _))

/-- `z` is a possible continuation of what was received: the unread bytes begin with it, or it
begins with them. -/
def Continues (s : PollState δ) (port : ℕ) (z : List UInt8) : Prop :=
  z <+: s.line port ∨ s.line port <+: z

/-- In terms of the bytes that have arrived and those that may still come. -/
theorem answerable_iff {s : PollState δ} {port : ℕ} :
    s.Answerable port ↔ ∃ z, s.Continues port z ∧
      ¬ NotAccepted (s.totalRecvBuf ++ s.recvPc.inFlight ++ z)
        (s.totalRecvBuf ++ s.recvPc.inFlight ++ z).length := by
  constructor
  · rintro (⟨p, hp, haccepted⟩ | hcan)
    · exact ⟨p, .inl ((List.mem_inits _ _).mp hp), haccepted⟩
    · obtain ⟨rest, haccepted⟩ := hcan.exists_completion
      exact ⟨s.line port ++ rest, .inr (List.prefix_append _ _), by
        rwa [← List.append_assoc]⟩
  · rintro ⟨z, hz | ⟨rest, rfl⟩, haccepted⟩
    · exact .inl ⟨z, (List.mem_inits _ _).mpr hz, haccepted⟩
    · rw [← List.append_assoc] at haccepted
      exact .inr (.of_completion haccepted)

/-- The polling thread waits for the same reply, and nothing has come of it. -/
structure Frozen (s s' : PollState δ) : Prop where
  waiting : s'.pollPc.stage = .waiting
  requests : s'.requests = s.requests
  results : s'.results = s.results
  published : s'.published = s.published
  protocolInfoMap : s'.protocolInfoMap = s.protocolInfoMap

/-- The reply from `port` cannot come any more. -/
structure Hopeless (s₀ : PollState δ) (port : ℕ) (s : PollState δ) : Prop where
  handshake : s.Handshake
  frozen : Frozen s₀ s
  pit : s.pit = some port
  lost : ¬ s.Answerable port

namespace Hopeless

variable {s₀ s s' : PollState δ} {port : ℕ}

/-- An attempt on the buffer fails. -/
theorem incomplete (hs : Hopeless s₀ port s) : s.Incomplete := by
  cases hrecv : s.recvPc with
  | append => exact (hs.handshake.reading (by rw [hrecv]; rfl)).2
  | test | wait | blocked | capture | read | rearm =>
      have hflight : s.recvPc.inFlight = [] := by rw [hrecv]; rfl
      by_contra hcomplete
      refine hs.lost (answerable_iff.mpr ⟨[], .inl List.nil_prefix, ?_⟩)
      rwa [hflight, List.append_nil, List.append_nil]

/-- A step after which nothing more can follow than before. -/
theorem keep (hs : Hopeless s₀ port s) (hhand : s'.Handshake)
    (hstage : s'.pollPc.stage = .waiting) (hrequests : s'.requests = s.requests)
    (hresults : s'.results = s.results) (hpublished : s'.published = s.published)
    (hmap : s'.protocolInfoMap = s.protocolInfoMap) (hpit : s'.pit = s.pit)
    (hback : ∀ z, s'.Continues port z → ∃ z', s.Continues port z' ∧
      s'.totalRecvBuf ++ s'.recvPc.inFlight ++ z = s.totalRecvBuf ++ s.recvPc.inFlight ++ z') :
    Hopeless s₀ port s' where
  handshake := hhand
  frozen := ⟨hstage, hrequests.trans hs.frozen.requests, hresults.trans hs.frozen.results,
    hpublished.trans hs.frozen.published, hmap.trans hs.frozen.protocolInfoMap⟩
  pit := hpit.trans hs.pit
  lost hanswerable := by
    obtain ⟨z, hz, haccepted⟩ := answerable_iff.mp hanswerable
    obtain ⟨z', hz', hsame⟩ := hback z hz
    rw [hsame] at haccepted
    exact hs.lost (answerable_iff.mpr ⟨z', hz', haccepted⟩)

/-- A step that moves no byte. -/
theorem quiet (hs : Hopeless s₀ port s) (hhand : s'.Handshake)
    (hstage : s'.pollPc.stage = .waiting) (hrequests : s'.requests = s.requests)
    (hresults : s'.results = s.results) (hpublished : s'.published = s.published)
    (hmap : s'.protocolInfoMap = s.protocolInfoMap) (hpit : s'.pit = s.pit)
    (hbytes : s'.totalRecvBuf ++ s'.recvPc.inFlight = s.totalRecvBuf ++ s.recvPc.inFlight)
    (hline : s'.line = s.line) : Hopeless s₀ port s' :=
  hs.keep hhand hstage hrequests hresults hpublished hmap hpit fun z hz =>
    ⟨z, by rwa [Continues, hline] at hz, by rw [hbytes]⟩

/-- More bytes do not help. -/
theorem arrive (hs : Hopeless s₀ port s) (port' : ℕ) (bytes : List UInt8) {t : PollState δ}
    (ht : t = { s with line := Function.update s.line port' (s.line port' ++ bytes) })
    (hhand : t.Handshake) : Hopeless s₀ port t := by
  subst ht
  refine hs.keep hhand hs.frozen.waiting rfl rfl rfl rfl rfl fun z hz => ⟨z, ?_, rfl⟩
  by_cases hport : port = port'
  · subst hport
    simp only [Continues, Function.update_self] at hz
    rcases hz with hz | hz
    · exact List.prefix_or_prefix_of_prefix hz (List.prefix_append _ _)
    · exact .inr ((List.prefix_append _ _).trans hz)
  · simpa only [Continues, Function.update_of_ne hport] using hz

variable [CDouble δ]

/-- The polling thread does not get on. -/
theorem poll (hs : Hopeless s₀ port s) (h : PollTransition transparent anyReply s .poll s')
    (hhand : Handshake { s' with line := s.line }) :
    Hopeless s₀ port { s' with line := s.line } := by
  have hwaiting := hs.frozen.waiting
  cases h with
  | startRound pc | endRound pc | startDevice _ _ pc | endDevice _ _ _ _ pc
  | request _ _ _ _ _ _ pc | answered _ pc | publish _ _ pc =>
      rw [pc] at hwaiting
      cases hwaiting
  | disarm | retryDisarm => exact hs.quiet hhand rfl rfl rfl rfl rfl rfl rfl rfl
  | notify => exact hs.quiet hhand rfl rfl rfl rfl rfl rfl (by simp) rfl
  | parse =>
      have hfailed := incomplete_iff.mp hs.incomplete
      have hbuf := (parsePacketProc_failed hfailed).1
      refine hs.quiet hhand ?_ rfl rfl rfl rfl rfl ?_ rfl
      · simp [parseStep, hfailed, PollPc.stage]
      · simp only [parseStep, hbuf]

/-- The receive thread cannot help it. -/
theorem recv {recvLen : ℕ} (hs : Hopeless s₀ port s)
    (h : PollTransition transparent anyReply s (.recv recvLen) s') : Hopeless s₀ port s' := by
  have hhand := hs.handshake.recv h
  have hwaiting := hs.frozen.waiting
  cases h with
  | test _ pc =>
      refine hs.quiet hhand hwaiting rfl rfl rfl rfl rfl ?_ rfl
      cases hflag : s.isRecvRun <;> simp [pc, RecvPc.inFlight]
  | block _ pc | capture _ pc | rearm _ pc | readNothing _ pc =>
      exact hs.quiet hhand hwaiting rfl rfl rfl rfl rfl (by simp [pc, RecvPc.inFlight]) rfl
  | append _ recvBuf pc =>
      exact hs.quiet hhand hwaiting rfl rfl rfl rfl rfl (by simp [pc, RecvPc.inFlight]) rfl
  | read _ port' pc =>
      obtain rfl : port' = port := Option.some.inj ((hs.handshake.port _ pc).trans hs.pit)
      refine hs.keep hhand hwaiting rfl rfl rfl rfl rfl fun z hz => ?_
      -- what was read comes before what can follow
      refine ⟨(s.line port').take recvLen ++ z, ?_, by simp [pc, RecvPc.inFlight]⟩
      simp only [Continues, Function.update_self] at hz
      refine hz.imp (fun hz => ?_) fun hz => ?_
      · have hprefix := (List.prefix_append_right_inj ((s.line port').take recvLen)).mpr hz
        rwa [List.take_append_drop] at hprefix
      · have hprefix := (List.prefix_append_right_inj ((s.line port').take recvLen)).mpr hz
        rwa [List.take_append_drop] at hprefix

/-- Whatever the two threads do, a hopeless state stays hopeless. -/
theorem step {e : LineEvent δ} (hs : Hopeless s₀ port s) (h : s.lineStep e = some s') :
    Hopeless s₀ port s' := by
  have hhand := hs.handshake.step h
  have hwaiting := hs.frozen.waiting
  cases lineStep_transition h with
  | arrive port' bytes => exact hs.arrive port' bytes rfl hhand
  | poll t ht => exact hs.poll ht hhand
  | other e t other ht =>
      cases e with
      | poll => exact absurd rfl other
      | recv => exact hs.recv ht
      | spurious =>
          cases ht
          exact hs.quiet hhand hwaiting rfl rfl rfl rfl rfl (by simp) rfl
      | point =>
          cases ht
          exact hs.quiet hhand hwaiting rfl rfl rfl rfl rfl rfl rfl
      | devices =>
          cases ht with
          | devices _ idle =>
          rw [idle] at hwaiting
          cases hwaiting

end Hopeless

/-! ## Replies that can still come -/

section Answered

variable [CDouble δ] {s s' t : PollState δ} {port : ℕ}

/-- The attempt that succeeds. -/
theorem leads_answered (hpc : s.pollPc = .parse) (hcomplete : ¬ s.Incomplete) :
    ∃ s', Leads lineStep (LineEvent.thread ·) s s' ∧ s'.pollPc = .answered := by
  rw [incomplete_iff, Bool.not_eq_false] at hcomplete
  refine ⟨{ parseStep s with line := s.line }, leads_poll ?_ (.refl _), ?_⟩
  · rw [pollStep, hpc]
  · simp [parseStep, hcomplete]

/-- The next unread byte of the port comes into the buffer. -/
theorem receives_byte {b : UInt8} {rest : List UInt8} (habout : s.AboutToRead)
    (hport : s.pit = some port) (hline : s.line port = b :: rest) :
    ∃ s', Leads lineStep (LineEvent.thread ·) s s' ∧ s'.pollPc = .parse ∧ s'.recvPc = .rearm ∧
      s'.pit = some port ∧ s'.totalRecvBuf = s.totalRecvBuf ++ [b] ∧ s'.line port = rest := by
  obtain ⟨hpc, hrecv⟩ := habout
  rw [hport] at hrecv
  have hread : recvStep 1 s = some
      { s with line := Function.update s.line port rest, recvPc := .append [b] } := by
    simp [recvStep, hrecv, hline, maxRecvSize]
  have happend : recvStep 0
      { s with line := Function.update s.line port rest, recvPc := .append [b] } = some
      { s with
        line := Function.update s.line port rest
        totalRecvBuf := s.totalRecvBuf ++ [b]
        recvPc := .rearm } := by
    simp [recvStep, hpc, PollPc.holdsRecvMutex]
  exact ⟨_, leads_recv 1 hread (leads_recv 0 happend (.refl _)), hpc, rfl, hport, rfl,
    Function.update_self ..⟩

/-- Where the unread bytes begin with `z`, and `z` completes an accepted reply, the wait ends. -/
theorem answers_of_prefix (hs : s.Handshake) (hpc : s.pollPc = .parse)
    (hport : s.pit = some port) (hrecv : ∀ recvBuf, s.recvPc ≠ .append recvBuf) {z : List UInt8}
    (hz : z <+: s.line port)
    (haccepted : ¬ NotAccepted (s.totalRecvBuf ++ z) (s.totalRecvBuf ++ z).length) :
    ∃ s', Leads lineStep (LineEvent.thread ·) s s' ∧ s'.pollPc = .answered := by
  induction z generalizing s with
  | nil =>
      rw [List.append_nil] at haccepted
      exact leads_answered hpc haccepted
  | cons b z ih =>
      by_cases hcomplete : ¬ s.Incomplete
      · exact leads_answered hpc hcomplete
      obtain ⟨s₁, hleads₁, hsame, habout⟩ := reads hs hpc (not_not.mp hcomplete) hrecv
      obtain ⟨rest, hline⟩ := hz
      rw [List.cons_append, ← hsame.line] at hline
      obtain ⟨s₂, hleads₂, hpc₂, hrecv₂, hport₂, hbuf₂, hline₂⟩ :=
        receives_byte habout (hsame.pit.trans hport) hline.symm
      have hleads : Leads lineStep (LineEvent.thread ·) s s₂ := hleads₁.trans hleads₂
      have hs₂ : s₂.Handshake := hleads.invariant (fun _ _ _ hs _ h => hs.step h) hs
      have hrest := ih hs₂ hpc₂ hport₂ (by simp [hrecv₂]) ⟨rest, hline₂.symm⟩ (by
        rwa [hbuf₂, hsame.totalRecvBuf, List.append_assoc, List.singleton_append])
      obtain ⟨s', hleads', hanswered⟩ := hrest
      exact ⟨s', hleads.trans hleads', hanswered⟩

/-- The bytes in the hands of the receive thread come into the buffer first. -/
theorem answers_of_parse (hs : s.Handshake) (hpc : s.pollPc = .parse) (hport : s.pit = some port)
    {z : List UInt8} (hz : z <+: s.line port)
    (haccepted : ¬ NotAccepted (s.totalRecvBuf ++ s.recvPc.inFlight ++ z)
      (s.totalRecvBuf ++ s.recvPc.inFlight ++ z).length) :
    ∃ s', Leads lineStep (LineEvent.thread ·) s s' ∧ s'.pollPc = .answered := by
  cases hrecv : s.recvPc with
  | append recvBuf =>
      have free : ¬ s.pollPc.holdsRecvMutex := by simp [hpc, PollPc.holdsRecvMutex]
      have hstep : recvStep 0 s = some
          { s with totalRecvBuf := s.totalRecvBuf ++ recvBuf, recvPc := .rearm } := by
        simp [recvStep, hrecv, free]
      rw [hrecv, RecvPc.inFlight] at haccepted
      obtain ⟨s', hleads, hanswered⟩ :=
        answers_of_prefix (hs.append hrecv free) hpc hport (by simp) hz haccepted
      exact ⟨s', leads_recv 0 hstep hleads, hanswered⟩
  | test | wait | blocked | capture | read | rearm =>
      have hflight : s.recvPc.inFlight = [] := by rw [hrecv]; rfl
      rw [hflight, List.append_nil] at haccepted
      exact answers_of_prefix hs hpc hport (by simp [hrecv]) hz haccepted

/-- Once the missing bytes have arrived, the two threads end the wait. -/
theorem answers (hs : s.Handshake) (hpc : s.pollPc.stage = .waiting) (hport : s.pit = some port)
    (hanswerable : s.Answerable port) :
    ∃ es s', run lineStep s es = some s' ∧ s'.pollPc = .answered := by
  obtain ⟨z, hz, haccepted⟩ := answerable_iff.mp hanswerable
  -- the bytes that are missing arrive first
  obtain ⟨bytes, hbytes⟩ : ∃ bytes, z <+: s.line port ++ bytes := by
    rcases hz with hz | ⟨bytes, rfl⟩
    · exact ⟨[], by rwa [List.append_nil]⟩
    · exact ⟨bytes, List.prefix_rfl⟩
  let arrived : PollState δ :=
    { s with line := Function.update s.line port (s.line port ++ bytes) }
  have harrive : s.lineStep (.arrive port bytes) = some arrived := rfl
  have hline : arrived.line port = s.line port ++ bytes := Function.update_self ..
  obtain ⟨s₁, hleads₁, hsame, hpc₁, hrecv₁⟩ := @parses _ _ arrived hpc
  have hs₁ : s₁.Handshake := hleads₁.invariant (fun _ _ _ hs _ h => hs.step h) (hs.step harrive)
  have hflight : s₁.recvPc.inFlight = s.recvPc.inFlight := by
    rcases hrecv₁ with hrecv₁ | hrecv₁ <;> simp [hrecv₁, arrived]
  obtain ⟨s', hleads', hanswered⟩ := @answers_of_parse _ _ s₁ port hs₁ hpc₁ (hsame.pit.trans hport)
    z (by rwa [hsame.line, hline]) (by rwa [hsame.totalRecvBuf, hflight])
  obtain ⟨es, -, hrun⟩ := hleads₁.trans hleads'
  refine ⟨.arrive port bytes :: es, s', ?_, hanswered⟩
  rw [run_cons, harrive]
  exact hrun

end Answered

/-! ## An error reply to function code `04` -/

/-- A block that is read by function code 04. -/
private def gridPoint : ModbusPoint Decimal :=
  ⟨"电网信息", "", "", ⟨1000000⟩, "", 0, 0, [⟨0x04, (0x00, 0x10), (0x00, 0x01)⟩]⟩

/-- The device refuses the request, and `parsePacket` knows error replies to `03` only. -/
private def refused : PollState Decimal :=
  { new [("a", ⟨0, [gridPoint], 0⟩)] [gridPoint] with
    protocolInfoMap := [("a", ⟨0, [gridPoint], 1⟩)]
    pit := some 0
    pollPc := .disarm
    pointCount := 1
    rtSrcInfo := { RTSrcInfo.fresh with title := gridPoint.name }
    line := Function.update (fun _ => []) 0 [0x01, 0x84, 0x02, 0xC2, 0xC1]
    requests := [⟨"a", 0, requestFrame ⟨0x04, (0x00, 0x10), (0x00, 0x01)⟩⟩] }

end PollState

end CsiFirmware.Task
