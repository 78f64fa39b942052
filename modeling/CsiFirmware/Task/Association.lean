import CsiFirmware.Serial.Termios
import CsiFirmware.Task.Poll

/-!
# Replies belong to their requests

A terminal that turns carriage returns into line feeds alters a reply whose byte count is 13 or
whose data have a byte `0x0D`. Where the terminals hand the replies on with the same data
(`Passes`), every request gets the data of its own reply (`associated_always`); `not_associated` is
a reply with such a byte.

The invariant follows a reply, as it arrives, from the line to the result. While a request waits for
its reply, the receive buffer, the bytes in the hands of the receive thread and the line hold
together exactly the reply (`PollState.Awaiting`), and no other byte is anywhere. A successful
attempt parses a prefix of the reply, and no proper prefix is accepted, so it parses all of it and
nothing is left (`PollState.Drained`) when the next request is sent.
-/

namespace CsiFirmware.Task

open Protocol Runs

variable {δ : Type}

/-! ## Replies as they arrive -/

/-- The terminal hands on a reply so that it is still a reply, with the same data. -/
def Passes (tty : UInt8 → List UInt8) (r : PositiveReply) : Prop :=
  ∃ r' : PositiveReply, r'.data = r.data ∧ r'.bytes = r.bytes.flatMap tty

/-- Terminals as Linux drivers set them up. -/
def linuxTty : ℕ → UInt8 → List UInt8 := fun _ => Serial.inputByte Serial.icrnl

/-- A transparent terminal passes every reply. -/
theorem passes_transparent (port : ℕ) (r : PositiveReply) : Passes (transparent port) r :=
  ⟨r, rfl, (flatMap_transparent port r.bytes).symm⟩

/-- What a terminal with `ICRNL` set makes of a byte. -/
private def cookedByte (b : UInt8) : UInt8 := if b = 0x0D then 0x0A else b

/-- Only carriage returns do not pass. -/
private theorem cookedByte_eq_self {b : UInt8} : cookedByte b = b ↔ b ≠ 0x0D := by
  rw [cookedByte]
  split_ifs with h
  · simp [h]
  · simp [h]

/-- With `ICRNL` set, a reply passes if its byte count is not 13 and no data byte is a carriage
return. The address and the checksum are not looked at. -/
theorem passes_icrnl_iff (r : PositiveReply) :
    Passes (Serial.inputByte Serial.icrnl) r ↔ r.data.length ≠ 13 ∧ 0x0D ∉ r.data := by
  have hcount : UInt8.ofNat r.data.length = 0x0D ↔ r.data.length = 13 := by
    rw [← UInt8.toNat_inj, r.toNat_count]
    rfl
  have hdata : r.data.map cookedByte = r.data ↔ 0x0D ∉ r.data := by
    conv_lhs => rw [← List.map_id r.data]
    simp only [List.map_map, List.map_inj_left, Function.comp, id, cookedByte_eq_self]
    exact ⟨fun h hmem => h _ hmem rfl, fun h b hb hb' => h (hb' ▸ hb)⟩
  have hmap (l : List UInt8) : l.flatMap (Serial.inputByte Serial.icrnl) = l.map cookedByte := by
    rw [List.flatMap_congr fun b _ => Serial.inputByte_icrnl b]
    exact List.flatMap_pure_eq_map cookedByte l
  rw [Passes]
  simp only [hmap]
  constructor
  · rintro ⟨r', hsame, hbytes⟩
    rw [PositiveReply.bytes, PositiveReply.bytes, hsame] at hbytes
    simp only [List.map_cons, List.map_append, List.cons.injEq] at hbytes
    obtain ⟨-, -, hlength, hrest⟩ := hbytes
    have hkept : r.data = r.data.map cookedByte :=
      (List.append_inj hrest (by simp)).1
    exact ⟨fun h => cookedByte_eq_self.mp hlength.symm (hcount.mpr h), hdata.mp hkept.symm⟩
  · rintro ⟨hlength, hnone⟩
    refine ⟨{ r with
      addr := cookedByte r.addr
      crc := (cookedByte r.crc.1, cookedByte r.crc.2) }, rfl, ?_⟩
    have hfunc : cookedByte r.func = r.func := by
      rw [cookedByte_eq_self]
      rcases r.func_eq with h | h <;> rw [h] <;> decide
    simp [PositiveReply.bytes, hfunc, hdata.mpr hnone,
      cookedByte_eq_self.mpr (mt hcount.mp hlength)]

/-! ## The invariant -/

/-- The bytes that the receive thread has read and not appended. -/
def RecvPc.inFlight : RecvPc → List UInt8
  | .append recvBuf => recvBuf
  | _ => []

/-- A notification takes no byte away. -/
@[simp] theorem RecvPc.inFlight_wake (pc : RecvPc) : pc.wake.inFlight = pc.inFlight := by
  cases pc <;> rfl

/-- The places of the polling thread at which the same holds. -/
inductive Stage where
  | between
  | collecting
  | waiting
  | answered
deriving DecidableEq

/-- What the polling thread is at. -/
def PollPc.stage : PollPc → Stage
  | .idle | .next => .between
  | .assemble | .publish => .collecting
  | .disarm | .notify | .parse | .retryDisarm | .retryNotify => .waiting
  | .answered => .answered

namespace PollState

/-- No byte is in the buffer, with the receive thread or on a line. -/
structure Drained (s : PollState δ) : Prop where
  totalRecvBuf : s.totalRecvBuf = []
  inFlight : s.recvPc.inFlight = []
  line : ∀ port, s.line port = []

/-- A step that moves no byte. -/
theorem Drained.congr {s s' : PollState δ} (h : s.Drained) (hbuf : s'.totalRecvBuf = s.totalRecvBuf)
    (hpc : s'.recvPc = s.recvPc) (hline : s'.line = s.line) : s'.Drained where
  totalRecvBuf := hbuf.trans h.totalRecvBuf
  inFlight := by rw [hpc, h.inFlight]
  line := by rw [hline]; exact h.line

/-- A reply from `port` is on its way into the buffer, and there is no other byte. -/
structure Awaiting (s : PollState δ) (r : PositiveReply) (port : ℕ) : Prop where
  bytes : s.totalRecvBuf ++ s.recvPc.inFlight ++ s.line port = r.bytes
  silent : ∀ port' ≠ port, s.line port' = []
  buf : s.rtSrcInfo.buf = []

/-- Every request has its result. -/
def Settled (s : PollState δ) : Prop := s.requests = s.results.map PollResult.request

/-- The last request, sent for `device`, is the only one without a result. -/
def Pending (s : PollState δ) (device : String) : Prop :=
  ∃ request, s.requests = s.results.map PollResult.request ++ [request] ∧ request.device = device

/-- The block at hand is the data of a reply. -/
def Holds (info : RTSrcInfo δ) (r : PositiveReply) : Prop :=
  info.buf = r.data ∧ info.value.idata = r.data.length

/-- What is known of the current request, by the stage of the polling thread. -/
def Phase (reply : ℕ → PositiveReply) (s : PollState δ) : Prop :=
  match s.pollPc.stage with
  | .between => s.Settled ∧ s.Drained ∧ s.vRtSrcInfo = []
  | .collecting => s.Settled ∧ s.Drained
  | .waiting => ∃ device m, s.protocolInfoMap[s.it]? = some (device, m) ∧ s.Pending device ∧
      s.Awaiting (reply s.results.length) m.serial
  | .answered => ∃ device m, s.protocolInfoMap[s.it]? = some (device, m) ∧ s.Pending device ∧
      s.Drained ∧ Holds s.rtSrcInfo (reply s.results.length)

/-- The name of the device being polled. -/
def device (s : PollState δ) : String := (s.protocolInfoMap[s.it]?.map Prod.fst).getD ""

/-- The blocks collected so far, each with the name of the device it is or will be published for. -/
def handedOn (s : PollState δ) : List (String × RTSrcInfo δ) :=
  s.published.flatMap (fun p => p.2.map fun info => (p.1, info)) ++
    s.vRtSrcInfo.map fun info => (s.device, info)

/-- A result carries the data of its reply and was reached with an empty buffer. -/
def Exact (reply : ℕ → PositiveReply) (s : PollState δ) : Prop :=
  ∀ k r, s.results[k]? = some r → Holds r.rtSrcInfo (reply k) ∧ r.totalRecvBuf = []

/-- The phase, and what the results so far have been made of. -/
structure Inv (reply : ℕ → PositiveReply) (s : PollState δ) : Prop where
  phase : s.Phase reply
  exact : s.Exact reply
  handedOn : s.handedOn = s.results.map fun r => (r.request.device, r.rtSrcInfo)

variable {reply : ℕ → PositiveReply} {s s' : PollState δ}

/-! ## Bytes on their way -/

/-- Steps that move bytes and change nothing else keep the invariant, provided they take what is
drained to what is drained and a reply on its way to the same reply on its way. -/
theorem Inv.move (h : s.Inv reply) {vPoint : List (ModbusPoint δ)} {isRecvRun : Bool}
    {totalRecvBuf : List UInt8} {line : ℕ → List UInt8} {recvPc : RecvPc} {pollPc : PollPc}
    (hstage : pollPc.stage = s.pollPc.stage)
    (hdrained : s.Drained →
      Drained { s with vPoint, isRecvRun, totalRecvBuf, line, recvPc, pollPc })
    (hawaiting : ∀ r port, s.Awaiting r port →
      Awaiting { s with vPoint, isRecvRun, totalRecvBuf, line, recvPc, pollPc } r port) :
    Inv reply { s with vPoint, isRecvRun, totalRecvBuf, line, recvPc, pollPc } where
  phase := by
    have hphase := h.phase
    simp only [Phase, hstage] at hphase ⊢
    cases hs : s.pollPc.stage with
    | between =>
        simp only [hs] at hphase
        obtain ⟨hsettled, hd, hnil⟩ := hphase
        exact ⟨hsettled, hdrained hd, hnil⟩
    | collecting =>
        simp only [hs] at hphase
        exact ⟨hphase.1, hdrained hphase.2⟩
    | waiting =>
        simp only [hs] at hphase
        obtain ⟨device, m, hit, hpending, ha⟩ := hphase
        exact ⟨device, m, hit, hpending, hawaiting _ _ ha⟩
    | answered =>
        simp only [hs] at hphase
        obtain ⟨device, m, hit, hpending, hd, hholds⟩ := hphase
        exact ⟨device, m, hit, hpending, hdrained hd, hholds⟩
  exact := h.exact
  handedOn := h.handedOn

/-- The steps that do not move any byte. -/
theorem Inv.signal (h : s.Inv reply) {vPoint : List (ModbusPoint δ)} {isRecvRun : Bool}
    {recvPc : RecvPc} {pollPc : PollPc} (hstage : pollPc.stage = s.pollPc.stage)
    (hflight : recvPc.inFlight = s.recvPc.inFlight) :
    Inv reply { s with vPoint, isRecvRun, recvPc, pollPc } := by
  refine h.move hstage ?_ ?_
  · intro hd
    exact ⟨hd.totalRecvBuf, hflight.trans hd.inFlight, hd.line⟩
  · intro r port ha
    exact ⟨by rw [← ha.bytes, hflight], ha.silent, ha.buf⟩

/-- A read takes bytes from the front of a line. -/
theorem Inv.read (h : s.Inv reply) (hflight : s.recvPc.inFlight = []) (port n : ℕ) :
    Inv reply { s with
      line := Function.update s.line port ((s.line port).drop n)
      recvPc := .append ((s.line port).take n) } := by
  refine h.move rfl ?_ ?_
  · intro hd
    refine ⟨hd.totalRecvBuf, ?_, fun q => ?_⟩
    · simp only [RecvPc.inFlight, hd.line port, List.take_nil]
    · by_cases hq : q = port
      · subst hq
        simp [hd.line q]
      · simp [Function.update_of_ne hq, hd.line q]
  · intro r p ha
    by_cases hp : p = port
    · subst hp
      refine ⟨?_, fun q hq => ?_, ha.buf⟩
      · rw [← ha.bytes, hflight]
        simp [RecvPc.inFlight]
      · simp [Function.update_of_ne hq, ha.silent q hq]
    · -- nothing is there to read on another port than the one in use
      have hsilent : s.line port = [] := ha.silent port (Ne.symm hp)
      refine ⟨?_, fun q hq => ?_, ha.buf⟩
      · rw [← ha.bytes, hflight]
        simp [RecvPc.inFlight, hsilent, Function.update_of_ne hp]
      · by_cases hq' : q = port
        · subst hq'
          simp [hsilent]
        · simp [Function.update_of_ne hq', ha.silent q hq]

/-- Appending moves the bytes the receive thread holds into the buffer. -/
theorem Inv.append (h : s.Inv reply) :
    Inv reply { s with
      totalRecvBuf := s.totalRecvBuf ++ s.recvPc.inFlight
      recvPc := .rearm } := by
  refine h.move rfl ?_ ?_
  · intro hd
    exact ⟨by rw [hd.totalRecvBuf, hd.inFlight]; rfl, rfl, hd.line⟩
  · intro r port ha
    exact ⟨by rw [← ha.bytes]; simp [RecvPc.inFlight], ha.silent, ha.buf⟩

/-! ## The polling thread -/

/-- `AssemblePacket` only moves `nextPkg`. -/
theorem serial_of_assemblePacket {m m' : Modbus δ} {sendLen : Int} {sendBuf : List UInt8}
    (h : assemblePacket m = some (sendLen, sendBuf, m')) : m'.serial = m.serial := by
  simp only [assemblePacket] at h
  split at h
  · split at h
    · cases h
      rfl
    · cases h
  · cases h
    rfl

/-- Replacing the object of the device being polled keeps its name. -/
theorem device_set {m m' : Modbus δ} {name : String}
    (hit : s.protocolInfoMap[s.it]? = some (name, m)) :
    (s.protocolInfoMap.set s.it (name, m'))[s.it]? = some (name, m') := by
  obtain ⟨hlt, -⟩ := List.getElem?_eq_some_iff.mp hit
  rw [List.getElem?_set_self hlt]

/-- The name of the current entry. -/
theorem device_eq {m : Modbus δ} {name : String}
    (hit : s.protocolInfoMap[s.it]? = some (name, m)) : s.device = name := by
  rw [device, hit]
  rfl

/-- The blocks handed on depend on the name of the device only as long as there are any. -/
theorem Inv.handedOn_of (h : s.Inv reply) (hpublished : s'.published = s.published)
    (hresults : s'.results = s.results) (hblocks : s'.vRtSrcInfo = s.vRtSrcInfo)
    (hdevice : s.vRtSrcInfo = [] ∨ s'.device = s.device) :
    s'.handedOn = s'.results.map fun r => (r.request.device, r.rtSrcInfo) := by
  rw [hresults, ← h.handedOn]
  simp only [PollState.handedOn, hpublished, hblocks]
  rcases hdevice with hnil | hdevice
  · rw [hnil]
    rfl
  · rw [hdevice]

/-- `AssemblePacket` leaves the name of the device as it was. -/
theorem device_of_set {m m' : Modbus δ} {name : String}
    (at_it : s.protocolInfoMap[s.it]? = some (name, m)) :
    ({ s with protocolInfoMap := s.protocolInfoMap.set s.it (name, m') } : PollState δ).device =
      s.device :=
  (device_eq (device_set at_it)).trans (device_eq at_it).symm

/-- The last request of the device is answered, nothing is sent. -/
theorem Inv.endDevice {name : String} {m m' : Modbus δ} (h : s.Inv reply)
    (pc : s.pollPc = .assemble) (at_it : s.protocolInfoMap[s.it]? = some (name, m)) :
    Inv reply { s with
      protocolInfoMap := s.protocolInfoMap.set s.it (name, m')
      pollPc := .publish } := by
  have hphase := h.phase
  simp only [Phase, pc, PollPc.stage] at hphase
  obtain ⟨hsettled, hdrained⟩ := hphase
  exact ⟨⟨hsettled, hdrained.congr rfl rfl rfl⟩, h.exact,
    h.handedOn_of rfl rfl rfl (Or.inr (device_of_set at_it))⟩

/-- A request puts its reply on a silent line. -/
theorem Inv.request [CDouble δ] {name : String} {m m' : Modbus δ} {sendLen : Int}
    {sendBuf bytes : List UInt8} {point : ModbusPoint δ} (h : s.Inv reply)
    (pc : s.pollPc = .assemble) (at_it : s.protocolInfoMap[s.it]? = some (name, m))
    (assembled : assemblePacket m = some (sendLen, sendBuf, m'))
    (hbytes : bytes = (reply s.requests.length).bytes) :
    Inv reply { s with
      protocolInfoMap := s.protocolInfoMap.set s.it (name, m')
      line := Function.update s.line m.serial (s.line m.serial ++ bytes)
      requests := s.requests ++ [⟨name, s.pointCount, sendBuf⟩]
      rtSrcInfo := { RTSrcInfo.fresh with title := point.name }
      pointCount := s.pointCount + 1
      pollPc := .disarm } := by
  have hphase := h.phase
  simp only [Phase, pc, PollPc.stage] at hphase
  obtain ⟨hsettled, hdrained⟩ := hphase
  subst hbytes
  have hserial : m'.serial = m.serial := serial_of_assemblePacket assembled
  -- the reply to this request is the one the next result is judged by
  have hlength : s.requests.length = s.results.length := by
    rw [hsettled, List.length_map]
  refine ⟨⟨name, m', device_set at_it, ⟨_, congrArg (· ++ _) hsettled, rfl⟩, ?_⟩, h.exact,
    h.handedOn_of rfl rfl rfl (Or.inr (device_of_set at_it))⟩
  refine ⟨?_, fun q hq => ?_, rfl⟩
  · simp [hserial, hdrained.totalRecvBuf, hdrained.inFlight, hdrained.line, hlength]
  · rw [hserial] at hq
    simp [Function.update_of_ne hq, hdrained.line]

/-- An attempt succeeds on the whole reply and on nothing less. -/
theorem Inv.parseStep (h : s.Inv reply) (hpc : s.pollPc = .parse) : Inv reply (parseStep s) := by
  have hphase := h.phase
  simp only [Phase, hpc, PollPc.stage] at hphase
  obtain ⟨name, m, hit, hpending, hawaiting⟩ := hphase
  -- the buffer holds a prefix of the reply, and only the whole reply is accepted
  have hprefix : s.totalRecvBuf <+: (reply s.results.length).bytes :=
    ⟨s.recvPc.inFlight ++ s.line m.serial, by rw [← hawaiting.bytes, List.append_assoc]⟩
  by_cases hlt : s.totalRecvBuf.length < (reply s.results.length).bytes.length
  · have hfailed := parsePacketProc_prefix s.rtSrcInfo hprefix hlt
    obtain ⟨hbuf, hinfo, -⟩ := parsePacketProc_failed hfailed
    have hpc' : (Task.parseStep s).pollPc = .retryDisarm := by
      simp [Task.parseStep, hfailed]
    refine ⟨?_, h.exact, h.handedOn⟩
    simp only [Phase, hpc', PollPc.stage]
    exact ⟨name, m, hit, hpending, (congrArg (· ++ _ ++ _) hbuf).trans hawaiting.bytes,
      hawaiting.silent, hinfo.trans hawaiting.buf⟩
  · have hall : s.totalRecvBuf = (reply s.results.length).bytes :=
      hprefix.eq_of_length_le (by omega)
    have hrest : s.recvPc.inFlight = [] ∧ s.line m.serial = [] := by
      have hbytes := hawaiting.bytes
      rw [hall, List.append_assoc, List.append_right_eq_self] at hbytes
      exact List.append_eq_nil_iff.mp hbytes
    have hattempt := parsePacketProc_bytes s.rtSrcInfo (reply s.results.length)
    rw [← hall] at hattempt
    have hpc' : (Task.parseStep s).pollPc = .answered := by
      simp [Task.parseStep, hattempt]
    refine ⟨?_, h.exact, h.handedOn⟩
    simp only [Phase, hpc', PollPc.stage]
    refine ⟨name, m, hit, hpending, ⟨?_, hrest.1, fun port => ?_⟩, ?_, ?_⟩
    · simp [Task.parseStep, hattempt]
    · by_cases hport : port = m.serial
      · subst hport
        exact hrest.2
      · exact hawaiting.silent port hport
    · simp [Task.parseStep, hattempt, hawaiting.buf]
    · simp [Task.parseStep, hattempt, RTSrcInfo.setIdata]

/-- The result of the call belongs to the request that was pending. -/
theorem Inv.answered {request : Request} (h : s.Inv reply) (pc : s.pollPc = .answered)
    (pending : s.requests[s.results.length]? = some request) :
    Inv reply { s with
      results := s.results ++ [⟨request, s.rtSrcInfo, s.totalRecvBuf⟩]
      vRtSrcInfo := s.vRtSrcInfo ++ [s.rtSrcInfo]
      pollPc := .assemble } := by
  have hphase := h.phase
  simp only [Phase, pc, PollPc.stage] at hphase
  obtain ⟨name, m, hit, ⟨last, hrequests, hname⟩, hdrained, hholds⟩ := hphase
  obtain rfl : last = request := by
    rw [hrequests, List.getElem?_append_right (by rw [List.length_map]), List.length_map,
      Nat.sub_self] at pending
    exact Option.some.inj pending
  refine ⟨⟨?_, hdrained.congr rfl rfl rfl⟩, ?_, ?_⟩
  · rw [Settled, List.map_append, ← hrequests.symm]
    rfl
  · intro k r hk
    rw [List.getElem?_append] at hk
    split_ifs at hk with hlt
    · exact h.exact k r hk
    · have hk' : k = s.results.length := by
        have := (List.getElem?_eq_some_iff.mp hk).1
        simp only [List.length_cons, List.length_nil] at this
        omega
      subst hk'
      simp only [Nat.sub_self, List.getElem?_cons_zero, Option.some.injEq] at hk
      subst hk
      exact ⟨hholds, hdrained.totalRecvBuf⟩
  · have hsplit := h.handedOn
    simp only [PollState.handedOn, List.map_append] at hsplit ⊢
    rw [← List.append_assoc]
    refine congrArg₂ (· ++ ·) hsplit ?_
    have hdevice : ({ s with
        results := s.results ++ [⟨last, s.rtSrcInfo, s.totalRecvBuf⟩]
        vRtSrcInfo := s.vRtSrcInfo ++ [s.rtSrcInfo]
        pollPc := .assemble } : PollState δ).device = last.device :=
      (device_eq hit).trans hname.symm
    rw [List.map_cons, List.map_nil, hdevice]
    rfl

/-! ## Whole runs -/

variable [CDouble δ]

/-- The port and the frame of the request that `AssemblePacket` is about to write for the current
device, if there is one left. -/
def nextRequest (s : PollState δ) : Option (ℕ × List UInt8) :=
  s.protocolInfoMap[s.it]?.bind fun p => (assemblePacket p.2).bind fun sent =>
    if sent.1 = -1 then none else some (p.2.serial, sent.2.1)

omit [CDouble δ] in
/-- What the next frame will be. -/
theorem nextRequest_eq {name : String} {m m' : Modbus δ} {sendLen : Int} {sendBuf : List UInt8}
    (at_it : s.protocolInfoMap[s.it]? = some (name, m))
    (assembled : assemblePacket m = some (sendLen, sendBuf, m')) :
    s.nextRequest = if sendLen = -1 then none else some (m.serial, sendBuf) := by
  rw [nextRequest, at_it, Option.bind_some, assembled, Option.bind_some]

/-- If the step sends a request, `bytes` is what arrives in reply. -/
def Replies (tty : ℕ → UInt8 → List UInt8) (sent reply : ℕ → PositiveReply) (s : PollState δ) :
    Prop :=
  ∀ port frame, s.nextRequest = some (port, frame) →
    (sent s.requests.length).bytes.flatMap (tty port) = (reply s.requests.length).bytes

/-- The invariant is about the replies as they arrive. -/
theorem Inv.step {tty : ℕ → UInt8 → List UInt8} {sent : ℕ → PositiveReply} {e : PollEvent δ}
    (h : s.Inv reply) (harrives : s.pollPc = .assemble → Replies tty sent reply s)
    (hs : s.step tty sent e = some s') : Inv reply s' := by
  have hphase := h.phase
  cases PollState.step_transition hs with
  | startRound pc =>
      simp only [Phase, pc, PollPc.stage] at hphase
      obtain ⟨hsettled, hdrained, hnil⟩ := hphase
      exact ⟨⟨hsettled, hdrained.congr rfl rfl rfl, hnil⟩, h.exact,
        h.handedOn_of rfl rfl rfl (Or.inl hnil)⟩
  | endRound pc =>
      simp only [Phase, pc, PollPc.stage] at hphase
      obtain ⟨hsettled, hdrained, hnil⟩ := hphase
      exact ⟨⟨hsettled, hdrained.congr rfl rfl rfl, hnil⟩, h.exact, h.handedOn⟩
  | startDevice name m pc =>
      simp only [Phase, pc, PollPc.stage] at hphase
      obtain ⟨hsettled, hdrained, hnil⟩ := hphase
      exact ⟨⟨hsettled, hdrained.congr rfl rfl rfl⟩, h.exact,
        h.handedOn_of rfl rfl hnil.symm (Or.inl hnil)⟩
  | endDevice name m m' sendBuf pc at_it => exact h.endDevice pc at_it
  | request name m m' sendLen sendBuf point pc at_it assembled sent =>
      have hnext := nextRequest_eq at_it assembled
      rw [if_neg sent] at hnext
      exact h.request pc at_it assembled (harrives pc _ _ hnext)
  | disarm pc | retryDisarm pc => exact h.signal (by rw [pc]; rfl) rfl
  | notify pc =>
      refine h.signal ?_ (RecvPc.inFlight_wake _)
      rcases pc with pc | pc <;> rw [pc] <;> rfl
  | parse pc => exact h.parseStep pc
  | answered request pc pending => exact h.answered pc pending
  | publish name m pc at_it =>
      simp only [Phase, pc, PollPc.stage] at hphase
      refine ⟨⟨hphase.1, hphase.2.congr rfl rfl rfl, rfl⟩, h.exact, ?_⟩
      rw [← h.handedOn]
      simp [PollState.handedOn, device_eq at_it]
  | test recvLen pc =>
      refine h.signal rfl ?_
      rw [pc]
      split_ifs <;> rfl
  | block recvLen pc | capture recvLen pc | readNothing recvLen pc | rearm recvLen pc =>
      exact h.signal rfl (by rw [pc]; rfl)
  | read recvLen port pc => exact h.read (by rw [pc]; rfl) port recvLen
  | append recvLen recvBuf pc =>
      have happend := h.append
      rwa [pc] at happend
  | spurious => exact h.signal rfl (RecvPc.inFlight_wake _)
  | point => exact h.signal rfl rfl
  | devices protocolInfoMap idle =>
      simp only [Phase, idle, PollPc.stage] at hphase
      obtain ⟨hsettled, hdrained, hnil⟩ := hphase
      refine ⟨?_, h.exact, h.handedOn_of rfl rfl rfl (Or.inl hnil)⟩
      simp only [Phase, idle, PollPc.stage]
      exact ⟨hsettled, hdrained.congr rfl rfl rfl, hnil⟩

omit [CDouble δ] in
/-- At the start nothing has been requested. -/
theorem Initial.inv (h : s.Initial) : s.Inv reply where
  phase := by
    simp only [Phase, h.pollPc, PollPc.stage]
    refine ⟨?_, ⟨h.totalRecvBuf, ?_, h.line⟩, h.vRtSrcInfo⟩
    · rw [Settled, h.requests, h.results]
      rfl
    · rw [h.recvPc]
      rfl
  exact := by
    intro k r hk
    simp [h.results] at hk
  handedOn := by
    simp [PollState.handedOn, h.published, h.vRtSrcInfo, h.results]

/-- Every call of `sendPacketProc` that returns `true` returns the data of the reply to its own
request, with an empty buffer; and the blocks are handed on for the device their request was sent
for, each once and in order. -/
structure Associated (reply : ℕ → PositiveReply) (s : PollState δ) : Prop where
  result : ∀ k r, s.results[k]? = some r → s.requests[k]? = some r.request ∧
    Holds r.rtSrcInfo (reply k) ∧ r.totalRecvBuf = []
  handedOn : s.handedOn = s.results.map fun r => (r.request.device, r.rtSrcInfo)

omit [CDouble δ] in
/-- The results so far are those of the first requests. -/
theorem Inv.requests_prefix (h : s.Inv reply) :
    s.results.map PollResult.request <+: s.requests := by
  have hphase := h.phase
  simp only [Phase] at hphase
  cases hs : s.pollPc.stage with
  | between =>
      simp only [hs] at hphase
      exact ⟨[], by rw [List.append_nil]; exact hphase.1.symm⟩
  | collecting =>
      simp only [hs] at hphase
      exact ⟨[], by rw [List.append_nil]; exact hphase.1.symm⟩
  | waiting =>
      simp only [hs] at hphase
      obtain ⟨-, -, -, ⟨request, hrequests, -⟩, -⟩ := hphase
      exact ⟨[request], hrequests.symm⟩
  | answered =>
      simp only [hs] at hphase
      obtain ⟨-, -, -, ⟨request, hrequests, -⟩, -⟩ := hphase
      exact ⟨[request], hrequests.symm⟩

omit [CDouble δ] in
/-- Results and blocks belong to their requests, as the invariant says. -/
theorem Inv.associated (h : s.Inv reply) : s.Associated reply where
  result := by
    intro k r hk
    obtain ⟨hholds, hempty⟩ := h.exact k r hk
    refine ⟨?_, hholds, hempty⟩
    obtain ⟨rest, hrest⟩ := h.requests_prefix
    have hmap : (s.results.map PollResult.request)[k]? = some r.request := by
      rw [List.getElem?_map, hk]
      rfl
    obtain ⟨hlt, -⟩ := List.getElem?_eq_some_iff.mp hmap
    rw [← hrest, List.getElem?_append_left hlt, hmap]
  handedOn := h.handedOn

/-! ## Replies that pass -/

omit [CDouble δ] in
/-- Only the replies to the requests sent so far matter. -/
theorem Inv.congr_reply {reply' : ℕ → PositiveReply} (h : s.Inv reply)
    (hsame : ∀ k < s.requests.length, reply' k = reply k) : s.Inv reply' where
  phase := by
    have hphase := h.phase
    have hpending : ∀ {device}, s.Pending device →
        reply' s.results.length = reply s.results.length := by
      rintro device ⟨request, hrequests, -⟩
      refine hsame _ ?_
      rw [hrequests, List.length_append, List.length_map]
      exact Nat.lt_succ_self _
    simp only [Phase] at hphase ⊢
    cases hs : s.pollPc.stage with
    | between | collecting =>
        simp only [hs] at hphase
        exact hphase
    | waiting =>
        simp only [hs] at hphase
        obtain ⟨device, m, hit, hp, ha⟩ := hphase
        exact ⟨device, m, hit, hp, by rwa [hpending hp]⟩
    | answered =>
        simp only [hs] at hphase
        obtain ⟨device, m, hit, hp, hd, hholds⟩ := hphase
        exact ⟨device, m, hit, hp, hd, by rwa [hpending hp]⟩
  exact := by
    intro k r hk
    have hlt : k < s.requests.length := by
      have hle := h.requests_prefix.length_le
      rw [List.length_map] at hle
      exact (List.getElem?_eq_some_iff.mp hk).1.trans_le hle
    rw [hsame k hlt]
    exact h.exact k r hk
  handedOn := h.handedOn

/-- The invariant holds for replies that have the same data. -/
def TtyInv (reply : ℕ → PositiveReply) (s : PollState δ) : Prop :=
  ∃ arrived : ℕ → PositiveReply, (∀ k, (arrived k).data = (reply k).data) ∧ s.Inv arrived

/-- If the step sends a request, the reply to it passes the terminal of the port. -/
def ReplyPasses (tty : ℕ → UInt8 → List UInt8) (reply : ℕ → PositiveReply) (s : PollState δ)
    (_ : PollEvent δ) : Prop :=
  s.pollPc = .assemble → ∀ port frame, s.nextRequest = some (port, frame) →
    Passes (tty port) (reply s.requests.length)

omit [CDouble δ] in
/-- At the start every reply has passed. -/
theorem Initial.ttyInv (h : s.Initial) : s.TtyInv reply := ⟨reply, fun _ => rfl, h.inv⟩

omit [CDouble δ] in
/-- A reply that passed is the one that was sent. -/
theorem TtyInv.associated (h : s.TtyInv reply) : s.Associated reply := by
  obtain ⟨arrived, hdata, hinv⟩ := h
  obtain ⟨hresult, hhanded⟩ := hinv.associated
  refine ⟨fun k r hk => ?_, hhanded⟩
  obtain ⟨hrequest, ⟨hbuf, hidata⟩, hempty⟩ := hresult k r hk
  exact ⟨hrequest, ⟨hbuf.trans (hdata k), by rw [hidata, hdata k]⟩, hempty⟩

/-- A step whose reply passes keeps it. -/
theorem TtyInv.step {tty : ℕ → UInt8 → List UInt8} {e : PollEvent δ} (h : s.TtyInv reply)
    (hpasses : s.ReplyPasses tty reply e) (hs : s.step tty reply e = some s') :
    s'.TtyInv reply := by
  obtain ⟨arrived, hdata, hinv⟩ := h
  by_cases hsends : s.pollPc = .assemble ∧ ∃ port frame, s.nextRequest = some (port, frame)
  · -- from this request on, its reply is the one that arrives
    obtain ⟨hpc, port, frame, hnext⟩ := hsends
    obtain ⟨r, hsame, hbytes⟩ := hpasses hpc port frame hnext
    refine ⟨Function.update arrived s.requests.length r, fun k => ?_,
      (hinv.congr_reply fun k hk => Function.update_of_ne hk.ne r arrived).step (fun _ => ?_) hs⟩
    · by_cases hk : k = s.requests.length
      · subst hk
        rw [Function.update_self, hsame]
      · rw [Function.update_of_ne hk, hdata]
    · intro port' frame' hnext'
      obtain ⟨rfl, rfl⟩ := Prod.mk.inj (Option.some.inj (hnext.symm.trans hnext'))
      rw [Function.update_self, hbytes]
  · refine ⟨arrived, hdata, hinv.step (fun hpc port frame hnext => ?_) hs⟩
    exact absurd ⟨hpc, port, frame, hnext⟩ hsends

/-- Whatever the tables, the devices, the pieces in which replies arrive and the order in which the
threads take their steps: in a run in which the terminals pass the replies, each reply belongs to
its request. -/
theorem associated_always (tty : ℕ → UInt8 → List UInt8) (reply : ℕ → PositiveReply)
    (h : s.Initial) {es : List (PollEvent δ)}
    (hpasses : StepsMeet (PollState.step tty reply) (ReplyPasses tty reply) s es) :
    StepsMeet (PollState.step tty reply) (After (PollState.step tty reply) (Associated reply)) s
      es :=
  hpasses.imp (TtyInv reply) (fun _ _ hs he _ hstep => (hs.step he hstep).associated)
    (fun _ _ _ hs he hstep => hs.step he hstep) h.ttyInv

/-- A function code for reading. -/
private theorem isRead : (0x03 : UInt8) = 0x03 ∨ (0x03 : UInt8) = 0x04 := .inl rfl

/-- Every request is answered with one register. -/
private def register (high low : UInt8) (_ : ℕ) : PositiveReply where
  addr := 0x01
  func := 0x03
  data := [high, low]
  crc := (0x00, 0x00)
  func_eq := isRead
  data_pos := by simp
  data_le := by simp

/-- One device with one block of one register. -/
private def oneDevice : PollState Decimal :=
  let point : ModbusPoint Decimal :=
    ⟨"运行信息", "", "", ⟨1000000⟩, "", 0, 0, [⟨0x03, (0x0E, 0x10), (0x00, 0x01)⟩]⟩
  { protocolInfoMap := [("A", Modbus.new [point] 7)], vPoint := [point], pit := none
    isRecvRun := true, totalRecvBuf := [], pollPc := .idle, it := 0, pointCount := 0
    rtSrcInfo := .fresh, vRtSrcInfo := [], recvPc := .test, line := fun _ => []
    requests := [], results := [], published := [] }

/-- Before anything has happened. -/
private theorem initial_oneDevice : oneDevice.Initial := by
  constructor <;> intros <;> rfl

/-- The device is polled, and the reply arrives in two pieces, with an attempt after the first of
them. -/
private def twoPieces : List (PollEvent Decimal) :=
  [.poll, .poll, .poll, .poll, .recv 0, .recv 0, .recv 3, .recv 0, .poll, .poll, .recv 0, .poll,
    .recv 0, .recv 0, .recv 4, .poll, .recv 0, .poll, .poll]

/-- A terminal as Linux drivers set it up, and a register without a carriage return. -/
theorem associated_of_pieces :
    StepsMeet (PollState.step linuxTty (register 0xAA 0xBB))
      (After (PollState.step linuxTty (register 0xAA 0xBB)) (Associated (register 0xAA 0xBB)))
      oneDevice twoPieces ∧
    (run (PollState.step linuxTty (register 0xAA 0xBB)) oneDevice twoPieces).map
      (fun s => s.results.map fun r => r.rtSrcInfo.buf) = some [[0xAA, 0xBB]] := by
  have hpasses : Passes (linuxTty 7) (register 0xAA 0xBB 0) :=
    (passes_icrnl_iff _).mpr (by simp [register])
  refine ⟨associated_always linuxTty _ initial_oneDevice ?_, by decide +kernel⟩
  exact stepsMeet_of_always (fun s e _ port frame _ => hpasses) _ _

/-- The register holds 13, and the line feed that arrives for its low byte is taken as data. -/
theorem not_associated :
    ¬ ∀ (reply : ℕ → PositiveReply) (s₀ s : PollState Decimal) (es : List (PollEvent Decimal)),
      s₀.Initial → run (PollState.step linuxTty reply) s₀ es = some s → s.Associated reply := by
  intro h
  obtain ⟨s, hrun, hresults⟩ := Option.map_eq_some_iff.mp
    (show (run (PollState.step linuxTty (register 0x00 0x0D)) oneDevice twoPieces).map
      (fun s => s.results.map fun r => r.rtSrcInfo.buf) = some [[0x00, 0x0A]] by decide +kernel)
  have hassociated := h _ _ _ _ initial_oneDevice hrun
  obtain ⟨r, hr, hbuf⟩ : ∃ r, s.results[0]? = some r ∧ r.rtSrcInfo.buf = [0x00, 0x0A] := by
    have hfirst := congrArg (·[0]?) hresults
    rw [List.getElem?_map] at hfirst
    exact Option.map_eq_some_iff.mp hfirst
  have hholds := (hassociated.result 0 r hr).2.1.1
  rw [hbuf] at hholds
  exact absurd hholds (by decide)

end PollState

end CsiFirmware.Task
