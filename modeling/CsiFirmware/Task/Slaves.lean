import CsiFirmware.Task.Handshake

/-!
# Slaves that answer

Reference: `TaskSerial::serialTaskRun`, `TaskSerial::sendPacketProc` and `recv_thread`.

`PollState.lineStep` lets anything arrive at a port. Here each port leads to slaves that answer
every request once. An answer is accepted by the receiver, and no proper prefix of it is: a positive
reply, an error reply with function code `83`, or a reply without data. It may take any time and
arrives in any pieces.

While a request waits, the bytes that are in the buffer, read, unread and owed are together exactly
its answer, and between requests there are none (`SlaveState.Carries`).
-/

namespace CsiFirmware.Task

open Protocol Runs

variable {δ : Type}

/-! ## Answers -/

/-- An answer that the receiver recognises as complete, and not before. -/
structure Answer where
  bytes : List UInt8
  accepted : ¬ NotAccepted bytes bytes.length
  minimal : ∀ p, p <+: bytes → p.length < bytes.length → NotAccepted p p.length

namespace Answer

/-- A positive reply. -/
def positive (r : PositiveReply) : Answer where
  bytes := r.bytes
  accepted := by
    have hpos := r.data_pos
    rw [← parsePacket_eq_neg_one_iff, r.parsePacket_bytes.1]
    omega
  minimal p hp hlt := parsePacket_eq_neg_one_iff.mp (r.parsePacket_prefix hp hlt)

/-- Five bytes that are accepted are accepted at the fifth. -/
def short (b₀ b₁ b₂ b₃ b₄ : UInt8) (h : ¬ NotAccepted [b₀, b₁, b₂, b₃, b₄] 5) : Answer where
  bytes := [b₀, b₁, b₂, b₃, b₄]
  accepted := h
  minimal p _ hlt := .inl (by
    simp only [List.length_cons, List.length_nil] at hlt
    omega)

/-- An error reply to a request with function code `03`. -/
def error (addr code crcLo crcHi : UInt8) : Answer :=
  short addr 0x83 code crcLo crcHi (by simp [NotAccepted])

/-- A reply without data. -/
def noData (addr func crcLo crcHi : UInt8) (h : func = 0x03 ∨ func = 0x04) : Answer :=
  short addr func 0x00 crcLo crcHi (by
    rcases h with rfl | rfl <;> simp [NotAccepted])

variable (a : Answer)

/-- An answer is not empty. -/
theorem bytes_ne_nil : a.bytes ≠ [] := by
  intro hnil
  have haccepted := a.accepted
  rw [hnil] at haccepted
  exact haccepted (.inl (by decide))

end Answer

/-- What `sendPacketProc` makes of an answer. -/
def answerInfo [CDouble δ] (title : String) (a : Answer) : RTSrcInfo δ :=
  (parsePacketProc { RTSrcInfo.fresh with title } a.bytes).rtSrcInfo

/-- A block that has not collected anything yet. A failed attempt may have written `idata`. -/
def Blank [CDouble δ] (info : RTSrcInfo δ) : Prop :=
  info = RTSrcInfo.setIdata { RTSrcInfo.fresh with title := info.title } info.value.idata

/-- What is published of an answer is under the title. -/
theorem answerInfo_title [CDouble δ] (title : String) (a : Answer) :
    (answerInfo (δ := δ) title a).title = title := by
  simp only [answerInfo, parsePacketProc]
  split_ifs <;> rfl

/-- An attempt succeeds on the whole answer. -/
theorem parsePacketProc_answer [CDouble δ] {info : RTSrcInfo δ} (h : Blank info) (a : Answer) :
    parsePacketProc info a.bytes =
      { isRecvAll := true, rtSrcInfo := answerInfo info.title a, totalRecvBuf := [] } := by
  have haccepted : (parsePacket a.bytes a.bytes.length).1 ≠ -1 := fun h =>
    a.accepted (parsePacket_eq_neg_one_iff.mp h)
  have hlength : a.bytes.length ≠ 0 := by simpa using a.bytes_ne_nil
  rw [h]
  simp only [answerInfo, parsePacketProc, if_pos hlength, if_neg haccepted]
  split <;> rfl

/-- An attempt on less than the answer fails. -/
theorem parsePacketProc_answer_prefix (info : RTSrcInfo δ) {a : Answer} {p : List UInt8}
    (hp : p <+: a.bytes) (hlt : p.length < a.bytes.length) :
    (parsePacketProc info p).isRecvAll = false := by
  rw [← Bool.not_eq_true, parsePacketProc_isRecvAll_iff, not_not]
  exact a.minimal p hp hlt

/-- An attempt that fails leaves nothing behind. -/
theorem blank_parsePacketProc [CDouble δ] {info : RTSrcInfo δ} {b : List UInt8} (h : Blank info)
    (hfailed : (parsePacketProc info b).isRecvAll = false) :
    Blank (parsePacketProc info b).rtSrcInfo := by
  simp only [parsePacketProc] at hfailed ⊢
  split_ifs at hfailed ⊢
  · rw [h]
    rfl
  · exact h

/-! ## Slaves that answer every request -/

/-- The program, and what the slaves at each port have still to send. -/
structure SlaveState (δ : Type) where
  poll : PollState δ
  owed : ℕ → List UInt8

/-- What can happen next. -/
inductive SlaveEvent (δ : Type) where
  | own (e : PollEvent δ)
  /-- The next bytes that are owed at a port arrive there, `n` at most. -/
  | deliver (port n : ℕ)

/-- The event is a step of a thread or a delivery. -/
def SlaveEvent.inner : SlaveEvent δ → Bool
  | .own .poll | .own (.recv _) | .deliver _ _ => true
  | .own .spurious | .own (.point _) | .own (.devices _) => false

namespace SlaveState

/-- After a step to `t` the slave at the port of the current device owes one answer more, if the
step has sent a request. -/
def owe (tty : ℕ → UInt8 → List UInt8) (answer : ℕ → Answer) (s : SlaveState δ) (t : PollState δ) :
    ℕ → List UInt8 :=
  match s.poll.protocolInfoMap[s.poll.it]? with
  | some (_, m) =>
      if s.poll.requests.length < t.requests.length then
        Function.update s.owed m.serial
          (s.owed m.serial ++ (answer s.poll.requests.length).bytes.flatMap (tty m.serial))
      else s.owed
  | none => s.owed

/-- `answer k` is the answer to request `k`. It arrives as the terminal of the port hands it on. -/
def step [CDouble δ] (tty : ℕ → UInt8 → List UInt8) (answer : ℕ → Answer) (s : SlaveState δ) :
    SlaveEvent δ → Option (SlaveState δ)
  | .own e => (s.poll.lineStep (.own e)).map fun t => ⟨t, s.owe tty answer t⟩
  | .deliver port n => some
      { poll := { s.poll with
          line := Function.update s.poll.line port
            (s.poll.line port ++ (s.owed port).take n) }
        owed := Function.update s.owed port ((s.owed port).drop n) }

/-- The terminals hand on every byte of the answers as it is. -/
def Unaltered (tty : ℕ → UInt8 → List UInt8) (answer : ℕ → Answer) : Prop :=
  ∀ k port, ∀ b ∈ (answer k).bytes, tty port b = [b]

/-- After the constructor of `TaskSerial`; nothing is owed. -/
structure StartUp (s : SlaveState δ) : Prop where
  poll : s.poll.StartUp
  owed : ∀ port, s.owed port = []

/-! ### What a step can do -/

/-- All that a step can do. -/
inductive Transition [CDouble δ] (answer : ℕ → Answer) (s : SlaveState δ) :
    SlaveEvent δ → SlaveState δ → Prop where
  | deliver (port n : ℕ) :
      Transition answer s (.deliver port n)
        { poll := { s.poll with
            line := Function.update s.poll.line port
              (s.poll.line port ++ (s.owed port).take n) }
          owed := Function.update s.owed port ((s.owed port).drop n) }
  | request (device : String) (m m' : Modbus δ) (sendLen : Int) (sendBuf : List UInt8)
      (point : ModbusPoint δ) (pc : s.poll.pollPc = .assemble)
      (at_it : s.poll.protocolInfoMap[s.poll.it]? = some (device, m))
      (assembled : assemblePacket m = some (sendLen, sendBuf, m')) (sent : sendLen ≠ -1)
      (at_point : s.poll.vPoint[s.poll.pointCount]? = some point) :
      Transition answer s (.own .poll)
        { poll := { s.poll with
            protocolInfoMap := s.poll.protocolInfoMap.set s.poll.it (device, m')
            requests := s.poll.requests ++ [⟨device, s.poll.pointCount, sendBuf⟩]
            rtSrcInfo := { RTSrcInfo.fresh with title := point.name }
            pointCount := s.poll.pointCount + 1
            pollPc := .disarm }
          owed := Function.update s.owed m.serial
            (s.owed m.serial ++ (answer s.poll.requests.length).bytes) }
  | other (e : PollEvent δ) (t : PollState δ)
      (step : PollTransition transparent anyReply s.poll e t)
      (requests : t.requests = s.poll.requests) :
      Transition answer s (.own e) { s with poll := t }

/-- Without a request nothing more is owed. -/
theorem owe_eq {tty : ℕ → UInt8 → List UInt8} {answer : ℕ → Answer} {s : SlaveState δ}
    {t : PollState δ} (h : t.requests = s.poll.requests) : s.owe tty answer t = s.owed := by
  unfold owe
  split
  · rw [if_neg (by rw [h]; exact lt_irrefl _)]
  · rfl

/-- With `ICRNL` set, answers without a carriage return are handed on as they are. -/
theorem unaltered_icrnl {answer : ℕ → Answer} (h : ∀ k, 0x0D ∉ (answer k).bytes) :
    Unaltered linuxTty answer := by
  intro k _ b hb
  have hne : b ≠ 0x0D := fun heq => h k (heq ▸ hb)
  exact (Serial.inputByte_icrnl b).trans (by rw [if_neg hne])

variable [CDouble δ] {answer : ℕ → Answer} {s s' : SlaveState δ}

/-- Terminals that leave the answers alone might as well be transparent. -/
theorem step_eq_of_unaltered {tty : ℕ → UInt8 → List UInt8} (h : Unaltered tty answer) :
    (step tty answer : SlaveState δ → SlaveEvent δ → _) = step transparent answer := by
  have hbytes (k port : ℕ) : (answer k).bytes.flatMap (tty port) =
      (answer k).bytes.flatMap (transparent port) := List.flatMap_congr (h k port)
  have howe (s : SlaveState δ) (t : PollState δ) :
      s.owe tty answer t = s.owe transparent answer t := by
    simp only [owe, hbytes]
  funext s e
  cases e with
  | deliver => rfl
  | own e => simp only [step, howe]

/-- A step of the polling thread sends a request or leaves what the slaves owe. -/
theorem poll_transition {t : PollState δ}
    (h : PollTransition transparent anyReply s.poll .poll t) :
    Transition answer s (.own .poll)
      ⟨{ t with line := s.poll.line },
        s.owe transparent answer { t with line := s.poll.line }⟩ := by
  -- whether a request is sent shows in the list of requests
  by_cases hrequests : t.requests = s.poll.requests
  · rw [owe_eq (by exact hrequests)]
    cases h with
    | request => simp at hrequests
    | startRound pc => exact .other _ _ (.startRound pc) rfl
    | endRound pc at_it => exact .other _ _ (.endRound pc at_it) rfl
    | startDevice device m pc at_it => exact .other _ _ (.startDevice device m pc at_it) rfl
    | endDevice device m m' sendBuf pc at_it assembled =>
        exact .other _ _ (.endDevice device m m' sendBuf pc at_it assembled) rfl
    | disarm pc => exact .other _ _ (.disarm pc) rfl
    | retryDisarm pc => exact .other _ _ (.retryDisarm pc) rfl
    | notify pc => exact .other _ _ (.notify pc) rfl
    | parse pc => exact .other _ _ (.parse pc) rfl
    | answered request pc pending => exact .other _ _ (.answered request pc pending) rfl
    | publish device m pc at_it => exact .other _ _ (.publish device m pc at_it) rfl
  · cases h with
    | request device m m' sendLen sendBuf point pc at_it assembled sent at_point =>
        simpa [owe, at_it] using @Transition.request _ _ answer s device m m' sendLen sendBuf point
          pc at_it assembled sent at_point
    | startRound | endRound | startDevice | endDevice | disarm | retryDisarm | notify | parse
    | answered | publish => exact absurd rfl hrequests

/-- Among transparent terminals, a defined step is one of the transitions. -/
theorem step_transition {e : SlaveEvent δ} (h : s.step transparent answer e = some s') :
    Transition answer s e s' := by
  cases e with
  | deliver port n =>
      obtain rfl := Option.some.inj h
      exact .deliver port n
  | own e =>
      obtain ⟨t, ht, rfl⟩ := Option.map_eq_some_iff.mp h
      cases PollState.lineStep_transition ht with
      | poll t' ht' => exact poll_transition ht'
      | other _ _ other ht' =>
          -- only the polling thread sends
          have hrequests : t.requests = s.poll.requests := by
            cases ht' <;> first | rfl | exact absurd rfl other
          rw [owe_eq hrequests]
          exact .other e t ht' hrequests

/-! ### Bytes on their way -/

/-- What has been read is on its way. -/
@[simp] theorem inFlight_append (recvBuf : List UInt8) :
    (RecvPc.append recvBuf).inFlight = recvBuf := rfl

/-- Once it is appended it is not. -/
@[simp] theorem inFlight_rearm : RecvPc.rearm.inFlight = [] := rfl

/-- The bytes in the buffer, with the receive thread, on the line and owed are `b`, all of them from
`port`. -/
structure Carries (s : SlaveState δ) (port : ℕ) (b : List UInt8) : Prop where
  bytes : s.poll.totalRecvBuf ++ s.poll.recvPc.inFlight ++ s.poll.line port ++ s.owed port = b
  silent : ∀ port' ≠ port, s.poll.line port' = [] ∧ s.owed port' = []

namespace Carries

variable {δ : Type} {s s' : SlaveState δ} {port : ℕ} {b : List UInt8}

/-- Where nothing is on its way, every place is empty. -/
theorem parts_nil (h : s.Carries port []) : s.poll.totalRecvBuf = [] ∧
    s.poll.recvPc.inFlight = [] ∧ ∀ port', s.poll.line port' = [] ∧ s.owed port' = [] := by
  have hbytes := h.bytes
  simp only [List.append_eq_nil_iff] at hbytes
  obtain ⟨⟨⟨hbuf, hflight⟩, hline⟩, howed⟩ := hbytes
  refine ⟨hbuf, hflight, fun port' => ?_⟩
  by_cases hport : port' = port
  · subst hport
    exact ⟨hline, howed⟩
  · exact h.silent port' hport

/-- Where there is no byte, the port does not matter. -/
theorem nil (h : s.Carries port []) (port' : ℕ) : s.Carries port' [] := by
  obtain ⟨hbuf, hflight, hports⟩ := h.parts_nil
  refine ⟨?_, fun port'' _ => hports port''⟩
  rw [hbuf, hflight, (hports port').1, (hports port').2]
  rfl

/-- A step that moves no byte. -/
theorem congr (h : s.Carries port b) (hbuf : s'.poll.totalRecvBuf = s.poll.totalRecvBuf)
    (hflight : s'.poll.recvPc.inFlight = s.poll.recvPc.inFlight)
    (hline : s'.poll.line = s.poll.line) (howed : s'.owed = s.owed) : s'.Carries port b := by
  refine ⟨?_, ?_⟩
  · rw [hbuf, hflight, hline, howed]
    exact h.bytes
  · rw [hline, howed]
    exact h.silent

/-- A step that moves bytes along the way from one port, and touches no other. -/
theorem move (h : s.Carries port b) (port' : ℕ)
    (hline : ∀ q ≠ port', s'.poll.line q = s.poll.line q)
    (howed : ∀ q ≠ port', s'.owed q = s.owed q)
    (hbuf : s'.poll.totalRecvBuf ++ s'.poll.recvPc.inFlight ++ s'.poll.line port' ++ s'.owed port' =
      s.poll.totalRecvBuf ++ s.poll.recvPc.inFlight ++ s.poll.line port' ++ s.owed port')
    (hsilent : s.poll.line port' = [] → s.owed port' = [] →
      s'.poll.totalRecvBuf ++ s'.poll.recvPc.inFlight =
        s.poll.totalRecvBuf ++ s.poll.recvPc.inFlight ∧
      s'.poll.line port' = [] ∧ s'.owed port' = []) : s'.Carries port b := by
  by_cases hport : port' = port
  · subst hport
    refine ⟨hbuf.trans h.bytes, fun q hq => ?_⟩
    rw [hline q hq, howed q hq]
    exact h.silent q hq
  · -- nothing is on its way from another port
    obtain ⟨hnil, hnil'⟩ := h.silent port' hport
    obtain ⟨hkept, hline', howed'⟩ := hsilent hnil hnil'
    refine ⟨?_, fun q hq => ?_⟩
    · rw [hkept, hline port (Ne.symm hport), howed port (Ne.symm hport), h.bytes]
    · by_cases hq' : q = port'
      · subst hq'
        exact ⟨hline', howed'⟩
      · rw [hline q hq', howed q hq']
        exact h.silent q hq

/-- A slave sends some of what it owes. -/
theorem deliver (h : s.Carries port b) (port' n : ℕ) :
    Carries
      { poll := { s.poll with
          line := Function.update s.poll.line port'
            (s.poll.line port' ++ (s.owed port').take n) }
        owed := Function.update s.owed port' ((s.owed port').drop n) } port b := by
  refine h.move port' (fun q hq => ?_) (fun q hq => ?_) ?_ (fun hline howed => ?_)
  · exact Function.update_of_ne hq ..
  · exact Function.update_of_ne hq ..
  · simp
  · simp [hline, howed]

/-- The receive thread reads some of what is at the port. -/
theorem read (h : s.Carries port b) (hflight : s.poll.recvPc.inFlight = []) (port' n : ℕ) :
    Carries { s with
      poll := { s.poll with
        line := Function.update s.poll.line port' ((s.poll.line port').drop n)
        recvPc := .append ((s.poll.line port').take n) } } port b := by
  refine h.move port' (fun q hq => ?_) (fun _ _ => rfl) ?_ (fun hline howed => ?_)
  · exact Function.update_of_ne hq ..
  · simp [hflight]
  · simp [hline, howed, hflight]

/-- The receive thread appends what it has read to the buffer. -/
theorem append (h : s.Carries port b) {recvBuf : List UInt8}
    (hpc : s.poll.recvPc = .append recvBuf) :
    Carries { s with
      poll := { s.poll with
        totalRecvBuf := s.poll.totalRecvBuf ++ recvBuf
        recvPc := .rearm } } port b := by
  refine h.move port (fun _ _ => rfl) (fun _ _ => rfl) ?_ (fun hline howed => ?_)
  · simp [hpc]
  · simp [hpc, hline, howed]

end Carries

/-! ### The invariant -/

/-- The device that is being polled, and `pit` at its port. -/
def Current (s : PollState δ) (device : String) (port : ℕ) : Prop :=
  ∃ m, s.protocolInfoMap[s.it]? = some (device, m) ∧ m.serial = port ∧ s.pit = some port

/-- What is known of the current request, by the stage of the polling thread. -/
def Phase (answer : ℕ → Answer) (s : SlaveState δ) : Prop :=
  match s.poll.pollPc.stage with
  | .between => s.poll.Settled ∧ s.Carries 0 [] ∧ s.poll.vRtSrcInfo = []
  | .collecting => s.poll.Settled ∧ s.Carries 0 [] ∧ ∃ device port, Current s.poll device port
  | .waiting => ∃ device port, Current s.poll device port ∧ s.poll.Pending device ∧
      s.Carries port (answer s.poll.results.length).bytes ∧ Blank s.poll.rtSrcInfo
  | .answered => ∃ device port, Current s.poll device port ∧ s.poll.Pending device ∧
      s.Carries port [] ∧
      s.poll.rtSrcInfo = answerInfo s.poll.rtSrcInfo.title (answer s.poll.results.length)

/-- Every call of `sendPacketProc` that returns `true` returns what it makes of the answer to its
own request, with an empty buffer. -/
def Exact (answer : ℕ → Answer) (s : PollState δ) : Prop :=
  ∀ k r, s.results[k]? = some r →
    r.rtSrcInfo = answerInfo r.rtSrcInfo.title (answer k) ∧ r.totalRecvBuf = []

/-- The phase, and what the results so far have been made of. -/
structure Inv (answer : ℕ → Answer) (s : SlaveState δ) : Prop where
  phase : s.Phase answer
  exact : Exact answer s.poll
  handedOn : s.poll.handedOn = s.poll.results.map fun r => (r.request.device, r.rtSrcInfo)

namespace Inv

/-- Steps that move bytes and change nothing else keep the invariant, provided they keep which bytes
are on their way. -/
theorem move (h : s.Inv answer) {vPoint : List (ModbusPoint δ)} {isRecvRun : Bool}
    {totalRecvBuf : List UInt8} {line owed : ℕ → List UInt8} {recvPc : RecvPc} {pollPc : PollPc}
    (hstage : pollPc.stage = s.poll.pollPc.stage)
    (hcarries : ∀ port b, s.Carries port b → Carries
      ⟨{ s.poll with vPoint, isRecvRun, totalRecvBuf, line, recvPc, pollPc }, owed⟩ port b) :
    Inv answer
      ⟨{ s.poll with vPoint, isRecvRun, totalRecvBuf, line, recvPc, pollPc }, owed⟩ where
  phase := by
    have hphase := h.phase
    simp only [Phase, hstage] at hphase ⊢
    cases hs : s.poll.pollPc.stage with
    | between =>
        simp only [hs] at hphase
        obtain ⟨hsettled, hquiet, hnil⟩ := hphase
        exact ⟨hsettled, hcarries _ _ hquiet, hnil⟩
    | collecting =>
        simp only [hs] at hphase
        obtain ⟨hsettled, hquiet, hcurrent⟩ := hphase
        exact ⟨hsettled, hcarries _ _ hquiet, hcurrent⟩
    | waiting =>
        simp only [hs] at hphase
        obtain ⟨device, port, hcurrent, hpending, hcoming, hblank⟩ := hphase
        exact ⟨device, port, hcurrent, hpending, hcarries _ _ hcoming, hblank⟩
    | answered =>
        simp only [hs] at hphase
        obtain ⟨device, port, hcurrent, hpending, hquiet, hinfo⟩ := hphase
        exact ⟨device, port, hcurrent, hpending, hcarries _ _ hquiet, hinfo⟩
  exact := h.exact
  handedOn := h.handedOn

/-- The steps that do not move any byte. -/
theorem signal (h : s.Inv answer) {vPoint : List (ModbusPoint δ)} {isRecvRun : Bool}
    {recvPc : RecvPc} {pollPc : PollPc} (hstage : pollPc.stage = s.poll.pollPc.stage)
    (hflight : recvPc.inFlight = s.poll.recvPc.inFlight) :
    Inv answer { s with poll := { s.poll with vPoint, isRecvRun, recvPc, pollPc } } :=
  h.move hstage fun _ _ hcarries => hcarries.congr rfl hflight rfl rfl

/-- The blocks handed on depend on the name of the device only as long as there are any. -/
theorem handedOn_of {t : PollState δ} (h : s.Inv answer)
    (hpublished : t.published = s.poll.published) (hresults : t.results = s.poll.results)
    (hblocks : t.vRtSrcInfo = s.poll.vRtSrcInfo)
    (hdevice : s.poll.vRtSrcInfo = [] ∨ t.device = s.poll.device) :
    t.handedOn = t.results.map fun r => (r.request.device, r.rtSrcInfo) := by
  rw [hresults, ← h.handedOn]
  simp only [PollState.handedOn, hpublished, hblocks]
  rcases hdevice with hnil | hdevice
  · rw [hnil]
    rfl
  · rw [hdevice]

/-- A request on a silent line: its answer is all that is on its way. -/
theorem request {device : String} {m m' : Modbus δ} {sendLen : Int} {sendBuf : List UInt8}
    (h : s.Inv answer) (pc : s.poll.pollPc = .assemble)
    (at_it : s.poll.protocolInfoMap[s.poll.it]? = some (device, m))
    (assembled : assemblePacket m = some (sendLen, sendBuf, m')) (title : String) :
    Inv answer
      { poll := { s.poll with
          protocolInfoMap := s.poll.protocolInfoMap.set s.poll.it (device, m')
          requests := s.poll.requests ++ [⟨device, s.poll.pointCount, sendBuf⟩]
          rtSrcInfo := { RTSrcInfo.fresh with title }
          pointCount := s.poll.pointCount + 1
          pollPc := .disarm }
        owed := Function.update s.owed m.serial
          (s.owed m.serial ++ (answer s.poll.requests.length).bytes) } := by
  have hphase := h.phase
  simp only [Phase, pc, PollPc.stage] at hphase
  obtain ⟨hsettled, hquiet, name, port, hcurrent⟩ := hphase
  obtain ⟨m₁, at_it₁, rfl, hpit⟩ := hcurrent
  obtain ⟨rfl, rfl⟩ : device = name ∧ m = m₁ :=
    Prod.mk.inj (Option.some.inj (at_it.symm.trans at_it₁))
  have hlength : s.poll.requests.length = s.poll.results.length := by
    rw [hsettled, List.length_map]
  -- the line is silent, so that nothing gets in front of the answer
  obtain ⟨hbuf, hflight, hports⟩ := hquiet.parts_nil
  refine ⟨⟨device, m.serial,
    ⟨m', PollState.device_set at_it, PollState.serial_of_assemblePacket assembled, hpit⟩,
    ⟨_, congrArg (· ++ _) hsettled, rfl⟩, ⟨?_, fun q hq => ?_⟩, rfl⟩, h.exact,
    h.handedOn_of rfl rfl rfl (.inr (PollState.device_of_set at_it))⟩
  · simp [hbuf, hflight, (hports m.serial).1, (hports m.serial).2, hlength]
  · simp [Function.update_of_ne hq, hports q]

/-- The last request of the device is answered, nothing is sent. -/
theorem endDevice {device : String} {m m' : Modbus δ} {sendLen : Int} {sendBuf : List UInt8}
    (h : s.Inv answer) (pc : s.poll.pollPc = .assemble)
    (at_it : s.poll.protocolInfoMap[s.poll.it]? = some (device, m))
    (assembled : assemblePacket m = some (sendLen, sendBuf, m')) :
    Inv answer { s with
      poll := { s.poll with
        protocolInfoMap := s.poll.protocolInfoMap.set s.poll.it (device, m')
        pollPc := .publish } } := by
  have hphase := h.phase
  simp only [Phase, pc, PollPc.stage] at hphase
  obtain ⟨hsettled, hquiet, name, port, hcurrent⟩ := hphase
  obtain ⟨m₁, at_it₁, rfl, hpit⟩ := hcurrent
  obtain ⟨rfl, rfl⟩ : device = name ∧ m = m₁ :=
    Prod.mk.inj (Option.some.inj (at_it.symm.trans at_it₁))
  exact ⟨⟨hsettled, hquiet.congr rfl rfl rfl rfl, device, m.serial, m',
    PollState.device_set at_it, PollState.serial_of_assemblePacket assembled, hpit⟩, h.exact,
    h.handedOn_of rfl rfl rfl (.inr (PollState.device_of_set at_it))⟩

/-- An attempt succeeds on the whole answer and on nothing less. -/
theorem parseStep (h : s.Inv answer) (pc : s.poll.pollPc = .parse) :
    Inv answer { s with poll := Task.parseStep s.poll } := by
  have hphase := h.phase
  simp only [Phase, pc, PollPc.stage] at hphase
  obtain ⟨device, port, hcurrent, hpending, hcoming, hblank⟩ := hphase
  -- what is in the buffer is the beginning of the answer
  have hprefix : s.poll.totalRecvBuf <+: (answer s.poll.results.length).bytes :=
    ⟨s.poll.recvPc.inFlight ++ s.poll.line port ++ s.owed port, by
      rw [← hcoming.bytes, List.append_assoc, List.append_assoc, List.append_assoc]⟩
  by_cases hlt : s.poll.totalRecvBuf.length < (answer s.poll.results.length).bytes.length
  · have hfailed := parsePacketProc_answer_prefix s.poll.rtSrcInfo hprefix hlt
    have hpc' : (Task.parseStep s.poll).pollPc = .retryDisarm := by
      simp [Task.parseStep, hfailed]
    refine ⟨?_, h.exact, h.handedOn⟩
    simp only [Phase, hpc', PollPc.stage]
    exact ⟨device, port, hcurrent, hpending,
      hcoming.congr (parsePacketProc_failed hfailed).1 rfl rfl rfl,
      blank_parsePacketProc hblank hfailed⟩
  · have hall : s.poll.totalRecvBuf = (answer s.poll.results.length).bytes :=
      hprefix.eq_of_length_le (by omega)
    have hattempt := parsePacketProc_answer hblank (answer s.poll.results.length)
    rw [← hall] at hattempt
    have hpc' : (Task.parseStep s.poll).pollPc = .answered := by
      simp [Task.parseStep, hattempt]
    refine ⟨?_, h.exact, h.handedOn⟩
    simp only [Phase, hpc', PollPc.stage]
    refine ⟨device, port, hcurrent, hpending, ⟨?_, hcoming.silent⟩, ?_⟩
    · -- the buffer is emptied and nothing stood behind it
      have hbytes := hcoming.bytes
      rw [hall, List.append_assoc, List.append_assoc, List.append_right_eq_self] at hbytes
      simpa [Task.parseStep, hattempt, List.append_assoc] using hbytes
    · simp [Task.parseStep, hattempt, answerInfo_title]

/-- The result of the call belongs to the request that was pending. -/
theorem answered {request : Request} (h : s.Inv answer) (pc : s.poll.pollPc = .answered)
    (pending : s.poll.requests[s.poll.results.length]? = some request) :
    Inv answer { s with
      poll := { s.poll with
        results := s.poll.results ++ [⟨request, s.poll.rtSrcInfo, s.poll.totalRecvBuf⟩]
        vRtSrcInfo := s.poll.vRtSrcInfo ++ [s.poll.rtSrcInfo]
        pollPc := .assemble } } := by
  have hphase := h.phase
  simp only [Phase, pc, PollPc.stage] at hphase
  obtain ⟨device, port, hcurrent, ⟨last, hrequests, rfl⟩, hquiet, hinfo⟩ := hphase
  -- the call was made for the last request
  obtain rfl : last = request := by
    rw [hrequests, List.getElem?_append_right (by rw [List.length_map]), List.length_map,
      Nat.sub_self] at pending
    exact Option.some.inj pending
  have hname : s.poll.device = last.device := by
    obtain ⟨m, at_it, -⟩ := hcurrent
    exact PollState.device_eq at_it
  refine ⟨⟨?_, (hquiet.nil 0).congr rfl rfl rfl rfl, _, port, hcurrent⟩, ?_, ?_⟩
  · rw [PollState.Settled, List.map_append, ← hrequests.symm]
    rfl
  · intro k r hk
    rw [List.getElem?_append] at hk
    split_ifs at hk with hlt
    · exact h.exact k r hk
    · obtain ⟨hk', rfl⟩ : k - s.poll.results.length = 0 ∧ _ = r := by
        simpa [List.getElem?_singleton] using hk
      obtain rfl : k = s.poll.results.length := by omega
      exact ⟨hinfo, hquiet.parts_nil.1⟩
  · have hsplit := h.handedOn
    simp only [PollState.handedOn, List.map_append] at hsplit ⊢
    rw [← List.append_assoc]
    exact congrArg₂ (· ++ ·) hsplit (congrArg (fun name => [(name, s.poll.rtSrcInfo)]) hname)

/-- The steps that send no request. -/
theorem other {e : PollEvent δ} {t : PollState δ} (h : s.Inv answer)
    (hstep : PollTransition transparent anyReply s.poll e t)
    (hrequests : t.requests = s.poll.requests) :
    Inv answer { s with poll := t } := by
  have hphase := h.phase
  cases hstep with
  | startRound pc =>
      simp only [Phase, pc, PollPc.stage] at hphase
      obtain ⟨hsettled, hquiet, hnil⟩ := hphase
      exact ⟨⟨hsettled, hquiet.congr rfl rfl rfl rfl, hnil⟩, h.exact,
        h.handedOn_of rfl rfl rfl (.inl hnil)⟩
  | endRound pc =>
      simp only [Phase, pc, PollPc.stage] at hphase
      obtain ⟨hsettled, hquiet, hnil⟩ := hphase
      exact ⟨⟨hsettled, hquiet.congr rfl rfl rfl rfl, hnil⟩, h.exact, h.handedOn⟩
  | startDevice device m pc at_it =>
      simp only [Phase, pc, PollPc.stage] at hphase
      obtain ⟨hsettled, hquiet, hnil⟩ := hphase
      exact ⟨⟨hsettled, hquiet.congr rfl rfl rfl rfl, device, m.serial, m, at_it, rfl, rfl⟩,
        h.exact, h.handedOn_of rfl rfl hnil.symm (.inl hnil)⟩
  | endDevice device m m' sendBuf pc at_it assembled => exact h.endDevice pc at_it assembled
  | request => simp at hrequests
  | disarm pc | retryDisarm pc => exact h.signal (by rw [pc]; rfl) rfl
  | notify pc =>
      refine h.signal ?_ (RecvPc.inFlight_wake _)
      rcases pc with pc | pc <;> rw [pc] <;> rfl
  | parse pc => exact h.parseStep pc
  | answered request pc pending => exact h.answered pc pending
  -- the blocks are handed on under the same name
  | publish device m pc at_it =>
      simp only [Phase, pc, PollPc.stage] at hphase
      refine ⟨⟨hphase.1, hphase.2.1.congr rfl rfl rfl rfl, rfl⟩, h.exact, ?_⟩
      rw [← h.handedOn]
      simp [PollState.handedOn, PollState.device_eq at_it]
  | test recvLen pc =>
      refine h.signal rfl ?_
      rw [pc]
      split_ifs <;> rfl
  | block recvLen pc | capture recvLen pc | readNothing recvLen pc | rearm recvLen pc =>
      exact h.signal rfl (by rw [pc]; rfl)
  | read recvLen port pc =>
      exact h.move rfl fun _ _ hcarries => hcarries.read (by rw [pc]; rfl) port recvLen
  | append recvLen recvBuf pc => exact h.move rfl fun _ _ hcarries => hcarries.append pc
  | spurious => exact h.signal rfl (RecvPc.inFlight_wake _)
  | point => exact h.signal rfl rfl
  | devices protocolInfoMap idle =>
      simp only [Phase, idle, PollPc.stage] at hphase
      obtain ⟨hsettled, hquiet, hnil⟩ := hphase
      refine ⟨?_, h.exact, h.handedOn_of rfl rfl rfl (.inl hnil)⟩
      simp only [Phase, idle, PollPc.stage]
      exact ⟨hsettled, hquiet.congr rfl rfl rfl rfl, hnil⟩

/-- Every step keeps it. -/
theorem step {e : SlaveEvent δ} (h : s.Inv answer) (hs : s.step transparent answer e = some s') :
    s'.Inv answer := by
  cases step_transition hs with
  | deliver port n => exact h.move rfl fun _ _ hcarries => hcarries.deliver port n
  | request device m m' sendLen sendBuf point pc at_it assembled =>
      exact h.request pc at_it assembled point.name
  | other e t hstep hrequests => exact h.other hstep hrequests

/-- The results so far are those of the first requests. -/
theorem requests_prefix (h : s.Inv answer) :
    s.poll.results.map PollResult.request <+: s.poll.requests := by
  have hphase := h.phase
  simp only [Phase] at hphase
  cases hs : s.poll.pollPc.stage with
  | between | collecting =>
      simp only [hs] at hphase
      have hsettled : s.poll.requests = s.poll.results.map PollResult.request := hphase.1
      rw [hsettled]
  | waiting | answered =>
      simp only [hs] at hphase
      obtain ⟨-, -, -, ⟨request, hrequests, -⟩, -⟩ := hphase
      exact ⟨[request], hrequests.symm⟩

end Inv

/-- At the start nothing is owed. -/
theorem StartUp.inv (h : s.StartUp) : s.Inv answer where
  phase := by
    simp only [Phase, h.poll.pollPc, PollPc.stage]
    refine ⟨?_, ⟨?_, fun port _ => ⟨h.poll.line port, h.owed port⟩⟩, h.poll.vRtSrcInfo⟩
    · rw [PollState.Settled, h.poll.requests, h.poll.results]
      rfl
    · rw [h.poll.totalRecvBuf, h.poll.recvPc, h.poll.line, h.owed]
      rfl
  exact k r hk := by simp [h.poll.results] at hk
  handedOn := by
    simp [PollState.handedOn, h.poll.published, h.poll.vRtSrcInfo, h.poll.results]

/-! ## Answers belong to their requests -/

/-- The `k`-th call of `sendPacketProc` that returns `true` was made for the `k`-th request and
returns what it makes of the answer to it, with an empty buffer; and the blocks are handed on for
the device their request was sent for, each once and in order. -/
structure Belongs (answer : ℕ → Answer) (s : SlaveState δ) : Prop where
  result : ∀ k r, s.poll.results[k]? = some r → s.poll.requests[k]? = some r.request ∧
    r.rtSrcInfo = answerInfo r.rtSrcInfo.title (answer k) ∧ r.totalRecvBuf = []
  handedOn : s.poll.handedOn = s.poll.results.map fun r => (r.request.device, r.rtSrcInfo)

/-- What it says of the results. -/
theorem Inv.belongs (h : s.Inv answer) : s.Belongs answer where
  result k r hk := by
    obtain ⟨hinfo, hempty⟩ := h.exact k r hk
    refine ⟨?_, hinfo, hempty⟩
    have hmap : (s.poll.results.map PollResult.request)[k]? = some r.request := by
      rw [List.getElem?_map, hk]
      rfl
    obtain ⟨rest, hrest⟩ := h.requests_prefix
    obtain ⟨hlt, -⟩ := List.getElem?_eq_some_iff.mp hmap
    rw [← hrest, List.getElem?_append_left hlt, hmap]
  handedOn := h.handedOn

/-- Whatever the answers, errors among them, and however late and in whatever pieces they arrive,
where the terminals leave them alone. -/
theorem answers_belong (tty : ℕ → UInt8 → List UInt8) (answer : ℕ → Answer)
    (hunaltered : Unaltered tty answer) (h : Reachable (step tty answer) StartUp s) :
    s.Belongs answer := by
  rw [step_eq_of_unaltered hunaltered] at h
  exact (h.invariant (fun _ hs => hs.inv) fun _ _ _ hs hstep => hs.step hstep).belongs

/-- An error reply that arrives in two pieces, with an attempt after the first of them, through a
terminal as Linux drivers set it up. -/
theorem answers_belong_error :
    let point : ModbusPoint Decimal :=
      ⟨"运行信息", "", "", ⟨1000000⟩, "", 0, 0, [⟨0x03, (0x0E, 0x10), (0x00, 0x01)⟩]⟩
    let answer : ℕ → Answer := fun _ => .error 0x01 0x02 0xC0 0xF1
    let start : SlaveState Decimal :=
      ⟨PollState.new [("A", Modbus.new [point] 7)] [point], fun _ => []⟩
    let poll : SlaveEvent Decimal := .own .poll
    let recv (n : ℕ) : SlaveEvent Decimal := .own (.recv n)
    let events : List (SlaveEvent Decimal) :=
      [poll, poll, poll, poll, poll, recv 0, recv 0, .deliver 7 2, recv 512, recv 0, recv 0,
        poll, poll, poll, recv 0, recv 0, .deliver 7 9, recv 512, recv 0, poll, poll]
    ∃ s, run (step linuxTty answer) start events = some s ∧ s.poll.results.length = 1 ∧
      s.Belongs answer := by
  intro point answer start poll recv events
  obtain ⟨s, hrun, hlength⟩ := Option.map_eq_some_iff.mp
    (show (run (step linuxTty answer) start events).map (fun s => s.poll.results.length) = some 1 by
      decide +kernel)
  exact ⟨s, hrun, hlength, answers_belong linuxTty answer (unaltered_icrnl fun _ => by decide)
    ⟨start, events, ⟨PollState.startUp_new _ _, fun _ => rfl⟩, hrun⟩⟩

end SlaveState

end CsiFirmware.Task
