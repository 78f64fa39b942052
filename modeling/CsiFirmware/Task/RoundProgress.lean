import CsiFirmware.Task.PollCycle
import CsiFirmware.Task.Slaves

/-!
# Rounds come to an end

Reference: `TaskSerial::serialTaskRun`, `TaskSerial::sendPacketProc` and `recv_thread`.

Where slaves answer every request, a round that has begun can always be completed: whatever the
threads have done so far, deliveries and steps of the two threads lead to its end
(`round_completes`). The proof has two parts. `takes_answer` says that a request that waits gets its
result; what is not yet in the buffer is delivered and received. `Round` says what every step of a
round keeps: the entries published so far, together with those to come, are the same.
-/

namespace CsiFirmware.Task

open Protocol Runs

variable {δ : Type}

/-! ## The two threads -/

section Threads

variable [CDouble δ]

namespace SlaveState

variable {answer : ℕ → Answer} {s s' : SlaveState δ}

/-- What arrives is what is owed, which `lineStep` allows as well. -/
theorem lineStep_of_step {e : SlaveEvent δ} (h : s.step transparent answer e = some s') :
    ∃ e' : LineEvent δ, s.poll.lineStep e' = some s'.poll := by
  cases e with
  | deliver port n =>
      obtain rfl := Option.some.inj h
      exact ⟨.arrive port ((s.owed port).take n), rfl⟩
  | own e =>
      obtain ⟨t, ht, rfl⟩ := Option.map_eq_some_iff.mp h
      exact ⟨.own e, ht⟩

end SlaveState

namespace PollState

/-- The same with bytes that arrive. -/
theorem Tracked.lineStep {s s' : PollState δ} {e : LineEvent δ} (hs : s.Tracked)
    (h : s.lineStep e = some s') : s'.Tracked := by
  cases lineStep_transition h with
  | arrive port bytes => exact hs.line _
  | poll t ht => exact (hs.step ht).line _
  | other e t other ht => exact hs.step ht

/-- No result is taken back. -/
theorem results_length_le {s s' : PollState δ} {e : LineEvent δ} (h : s.lineStep e = some s') :
    s.results.length ≤ s'.results.length := by
  have hstep : ∀ {e t}, PollTransition transparent anyReply s e t →
      s.results.length ≤ t.results.length := by
    intro e t ht
    cases ht with
    | answered => simp
    | startRound | endRound | startDevice | endDevice | request | disarm | retryDisarm | notify
    | parse | publish | test | block | capture | readNothing | read | append | rearm | spurious
    | point | devices => exact le_rfl
  cases lineStep_transition h with
  | arrive => exact le_rfl
  | poll t ht =>
      have hpolled := hstep ht
      exact hpolled
  | other e t other ht => exact hstep ht

/-- One result more than in `s`, or the same request is still under way. -/
def Since (s t : PollState δ) : Prop :=
  s.results.length < t.results.length ∨
    (t.results.length = s.results.length ∧
      (t.pollPc.stage = .waiting ∨ t.pollPc.stage = .answered))

/-- A request stays under way until its result is there. -/
theorem Since.step {s t t' : PollState δ} {e : LineEvent δ} (h : Since s t)
    (hs : t.lineStep e = some t') : Since s t' := by
  rcases h with hmore | ⟨hresults, hstage⟩
  · exact .inl (hmore.trans_le (results_length_le hs))
  have hstep : ∀ {e u}, PollTransition transparent anyReply t e u → Since s u := by
    intro e u hu
    cases hu with
    | startRound pc | endRound pc | startDevice _ _ pc | endDevice _ _ _ _ pc
    | request _ _ _ _ _ _ pc | publish _ _ pc | devices _ pc =>
        simp [pc, PollPc.stage] at hstage
    | disarm | retryDisarm | notify => exact .inr ⟨hresults, .inl rfl⟩
    | parse =>
        refine .inr ⟨hresults, ?_⟩
        cases hall : (parsePacketProc t.rtSrcInfo t.totalRecvBuf).isRecvAll <;>
          simp [parseStep, hall, PollPc.stage]
    -- the call returns
    | answered => exact .inl (by simp [hresults])
    | test | block | capture | readNothing | read | append | rearm | spurious | point =>
        exact .inr ⟨hresults, hstage⟩
  cases lineStep_transition hs with
  | arrive => exact .inr ⟨hresults, hstage⟩
  | poll u hu =>
      have hpolled := hstep hu
      exact hpolled
  | other e u other hu => exact hstep hu

end PollState

namespace SlaveState

variable {answer : ℕ → Answer} {s s' : SlaveState δ}

/-- What holds in every reachable state. -/
structure Sound (answer : ℕ → Answer) (s : SlaveState δ) : Prop where
  inv : s.Inv answer
  handshake : s.poll.Handshake
  tracked : s.poll.Tracked

/-- The constructor leaves a sound state. -/
theorem StartUp.sound (h : s.StartUp) : s.Sound answer :=
  ⟨h.inv, h.poll.handshake, h.poll.tracked⟩

/-- A step leads from a sound state to a sound state. -/
theorem Sound.step {e : SlaveEvent δ} (hs : s.Sound answer)
    (h : s.step transparent answer e = some s') : s'.Sound answer := by
  obtain ⟨e', h'⟩ := lineStep_of_step h
  exact ⟨hs.inv.step h, hs.handshake.step h', hs.tracked.lineStep h'⟩

/-- Every continuation of a sound state is sound. -/
theorem Sound.leads (hs : s.Sound answer)
    (h : Leads (SlaveState.step transparent answer) (SlaveEvent.inner ·) s s') : s'.Sound answer :=
  h.invariant (fun _ _ _ hs _ h => hs.step h) hs

/-- Steps of the two threads are steps among slaves. -/
theorem leads_of_lineStep {p : PollState δ}
    (h : Leads PollState.lineStep (LineEvent.thread ·) s.poll p) :
    ∃ owed, Leads (step transparent answer) (SlaveEvent.inner ·) s ⟨p, owed⟩ := by
  obtain ⟨es, hes, hrun⟩ := h
  induction es generalizing s with
  | nil =>
      obtain rfl : s.poll = p := by simpa using hrun
      exact ⟨s.owed, .refl s⟩
  | cons e es ih =>
      rw [List.forall_mem_cons] at hes
      rw [run_cons] at hrun
      obtain ⟨t, ht, hrest⟩ := Option.bind_eq_some_iff.mp hrun
      obtain ⟨owed, hleads⟩ := ih (s := ⟨t, s.owe transparent answer t⟩) hes.2 hrest
      refine ⟨owed, ?_⟩
      cases e with
      -- bytes arrive from slaves only
      | arrive => simp [LineEvent.thread] at hes
      | own e =>
          refine .head (e := .own e) ?_ (congrArg (Option.map _) ht) hleads
          cases e with
          | poll | recv => rfl
          | spurious | point | devices => simp [LineEvent.thread] at hes

/-! ## A request gets its result -/

/-- A step of the polling thread. -/
theorem leads_of_pollStep {t : PollState δ} (h : pollStep transparent anyReply s.poll = some t) :
    ∃ owed, Leads (step transparent answer) (SlaveEvent.inner ·) s
      ⟨{ t with line := s.poll.line }, owed⟩ :=
  leads_of_lineStep (PollState.leads_poll h (.refl _))

/-- There is one result more. -/
def TakesAnswer (answer : ℕ → Answer) (s : SlaveState δ) : Prop :=
  ∃ s', Leads (step transparent answer) (SlaveEvent.inner ·) s s' ∧
    s.poll.results.length < s'.poll.results.length

/-- It is enough that the answer is taken from further on, with the request still under way. -/
theorem TakesAnswer.of_leads
    (hleads : Leads (step transparent answer) (SlaveEvent.inner ·) s s')
    (hsince : s.poll.Since s'.poll) (h : s'.poll.results.length = s.poll.results.length →
      (s'.poll.pollPc.stage = .waiting ∨ s'.poll.pollPc.stage = .answered) →
        s'.TakesAnswer answer) :
    s.TakesAnswer answer := by
  rcases hsince with hmore | ⟨hresults, hstage⟩
  · exact ⟨s', hleads, hmore⟩
  · obtain ⟨s₁, hleads₁, hmore⟩ := h hresults hstage
    exact ⟨s₁, hleads.trans hleads₁, hresults ▸ hmore⟩

/-- `sendPacketProc` returns. -/
theorem takesAnswer_of_answered (hs : s.Sound answer) (hpc : s.poll.pollPc = .answered) :
    s.TakesAnswer answer := by
  obtain ⟨t, ht⟩ := hs.tracked.exists_pollStep fun h => by
    rw [hpc] at h
    cases h
  obtain ⟨owed, hleads⟩ := @leads_of_pollStep _ _ answer _ _ ht
  refine ⟨_, hleads, ?_⟩
  rw [pollStep, hpc] at ht
  obtain ⟨request, -, rfl⟩ := Option.map_eq_some_iff.mp ht
  simp

/-- The next attempt succeeds where the buffer holds the whole answer. -/
theorem takesAnswer_of_complete (hs : s.Sound answer) (hpc : s.poll.pollPc.stage = .waiting)
    (hcomplete : ¬ s.poll.Incomplete) : s.TakesAnswer answer := by
  obtain ⟨q, hleads, hsame, hparse, -⟩ := PollState.parses hpc
  obtain ⟨owed, hleads'⟩ := @leads_of_lineStep _ _ answer _ _ hleads
  have hsince : s.poll.Since q := hleads.invariant (fun _ _ _ hq _ h => hq.step h)
    (.inr ⟨rfl, .inl hpc⟩)
  refine .of_leads hleads' hsince fun _ _ => ?_
  have hq : SlaveState.Sound answer ⟨q, owed⟩ := hs.leads hleads'
  -- the attempt, and then the return
  have hall : (parsePacketProc q.rtSrcInfo q.totalRecvBuf).isRecvAll = true := by
    rw [← Bool.not_eq_false, ← PollState.incomplete_iff, hsame.incomplete]
    exact hcomplete
  have hstep : pollStep transparent anyReply q = some (parseStep q) := by rw [pollStep, hparse]
  obtain ⟨owed', hleads₁⟩ := @leads_of_pollStep _ _ answer ⟨q, owed⟩ _ hstep
  have hanswered : (parseStep q).pollPc = .answered := by simp [parseStep, hall]
  refine .of_leads hleads₁ (.inr ⟨rfl, .inr ?_⟩) fun _ _ =>
    takesAnswer_of_answered (hq.leads hleads₁) hanswered
  exact congrArg PollPc.stage hanswered

/-- From wherever a request waits, deliveries and steps of the two threads lead to its result. -/
theorem takes_answer (hs : s.Sound answer) (hpc : s.poll.pollPc.stage = .waiting) :
    s.TakesAnswer answer := by
  have hphase := hs.inv.phase
  simp only [Phase, hpc] at hphase
  obtain ⟨device, port, ⟨m, -, -, hpit⟩, -, hcarries, -⟩ := hphase
  -- all that is owed arrives
  have hdelivered := hcarries.deliver port (s.owed port).length
  set s₁ : SlaveState δ :=
    { poll := { s.poll with
        line := Function.update s.poll.line port
          (s.poll.line port ++ (s.owed port).take (s.owed port).length) }
      owed := Function.update s.owed port ((s.owed port).drop (s.owed port).length) } with hs₁
  have hleads₁ : Leads (step transparent answer) (SlaveEvent.inner ·) s s₁ :=
    .head (e := .deliver port (s.owed port).length) rfl rfl (.refl _)
  have howed : s₁.owed port = [] := by simp [hs₁]
  have hbytes := hdelivered.bytes
  rw [howed, List.append_nil] at hbytes
  refine .of_leads hleads₁ (.inr ⟨rfl, .inl hpc⟩) fun _ _ => ?_
  have hsound₁ := hs.leads hleads₁
  -- what has arrived is received
  obtain ⟨p, hleads, hsame, hparse, hrecv⟩ := PollState.parses (s := s₁.poll) hpc
  have hhand : p.Handshake := hleads.invariant (fun _ _ _ hs _ h => hs.step h) hsound₁.handshake
  obtain ⟨q, hleads', ⟨k, hbuf, hline⟩, hended⟩ :=
    PollState.received_of_parse hhand hparse (hsame.pit.trans hpit)
  obtain ⟨owed, hleads₂⟩ := @leads_of_lineStep _ _ answer _ _ (hleads.trans hleads')
  have hsince : s₁.poll.Since q :=
    (hleads.trans hleads').invariant (fun _ _ _ hq _ h => hq.step h) (.inr ⟨rfl, .inl hpc⟩)
  refine .of_leads hleads₂ hsince fun _ hstage => ?_
  have hq : SlaveState.Sound answer ⟨q, owed⟩ := hsound₁.leads hleads₂
  rcases hstage with hwaiting | hanswered
  · refine takesAnswer_of_complete hq hwaiting ?_
    rcases hended with hnil | hall
    · -- nothing is left on the line, so the buffer holds the answer
      have hflight : p.recvPc.inFlight = s₁.poll.recvPc.inFlight := by
        rcases hrecv with hrecv | hrecv <;> simp [hrecv]
      have htake : (p.line port).take k = p.line port := by
        rw [hline, List.drop_eq_nil_iff] at hnil
        exact List.take_of_length_le hnil
      rw [htake, hsame.totalRecvBuf, hflight, hsame.line, hbytes] at hbuf
      rw [PollState.Incomplete, hbuf]
      exact (answer _).accepted
    · rw [PollState.incomplete_iff, hall]
      simp
  · refine takesAnswer_of_answered hq ?_
    cases hpc' : q.pollPc <;> simp [hpc', PollPc.stage] at hanswered ⊢

end SlaveState

end Threads

/-! ## What a round publishes -/

/-- The blocks of the table that have not been requested yet. -/
def blocksLeft (m : Modbus δ) : ℕ := m.vPoint.length - m.nextPkg

/-- The blocks that are still to be added for the device that is being polled. -/
def PollPc.toCome (pc : PollPc) (m : Modbus δ) : ℕ :=
  match pc with
  | .publish => 0
  | .idle | .next | .assemble => blocksLeft m
  | .disarm | .notify | .parse | .retryDisarm | .retryNotify | .answered => blocksLeft m + 1

/-- A bound on the steps of the polling thread that are not attempts, up to the end of the poll. -/
def PollPc.weight (pc : PollPc) (m : Modbus δ) : ℕ :=
  match pc with
  | .publish => 1
  | .assemble => 3 * blocksLeft m + 2
  | .idle | .next | .answered => 3 * blocksLeft m + 3
  | .disarm | .notify | .parse | .retryDisarm | .retryNotify => 3 * blocksLeft m + 4

namespace PollState

/-- The entries that the round under way is still to publish: each device and its number of blocks.
-/
def outlook (s : PollState δ) : List (String × ℕ) :=
  match s.protocolInfoMap.drop s.it with
  | [] => []
  | (device, m) :: rest =>
      (device, s.vRtSrcInfo.length + s.pollPc.toCome m) :: rest.map fun p => (p.1, blocksLeft p.2)

/-- What is left of the round. -/
def work (s : PollState δ) : ℕ :=
  match s.protocolInfoMap.drop s.it with
  | [] => 0
  | (_, m) :: rest => s.pollPc.weight m + (rest.map fun p => 3 * blocksLeft p.2 + 3).sum

/-- The entries published so far. -/
def entries (s : PollState δ) : List (String × ℕ) := s.published.map fun p => (p.1, p.2.length)

/-- Every block has a package, and `v_point` is as long as each device's own table. -/
def Ready (s : PollState δ) : Prop :=
  ∀ p ∈ s.protocolInfoMap, (∀ point ∈ p.2.vPoint, point.mpkg ≠ []) ∧
    p.2.vPoint.length ≤ s.vPoint.length

instance (s : PollState δ) : Decidable s.Ready :=
  inferInstanceAs (Decidable (∀ p ∈ s.protocolInfoMap, _ ∧ _))

/-- No more blocks have been counted for the device that is being polled than requested. -/
def Counted (s : PollState δ) : Prop :=
  s.pollPc.inDevice = true → ∃ device m, s.protocolInfoMap[s.it]? = some (device, m) ∧
    s.pointCount ≤ m.nextPkg

/-! ### One step of the polling thread -/

section Advance

variable {s t : PollState δ} {device : String} {m : Modbus δ}

/-- The current entry and those behind it. -/
theorem drop_eq_cons (at_it : s.protocolInfoMap[s.it]? = some (device, m)) :
    s.protocolInfoMap.drop s.it = (device, m) :: s.protocolInfoMap.drop (s.it + 1) := by
  obtain ⟨hlt, hget⟩ := List.getElem?_eq_some_iff.mp at_it
  rw [List.drop_eq_getElem_cons hlt, hget]

/-- A change of the current entry leaves those behind it. -/
theorem drop_set_eq_cons (at_it : s.protocolInfoMap[s.it]? = some (device, m))
    (p : String × Modbus δ) :
    (s.protocolInfoMap.set s.it p).drop s.it = p :: s.protocolInfoMap.drop (s.it + 1) := by
  obtain ⟨hlt, -⟩ := List.getElem?_eq_some_iff.mp at_it
  rw [List.drop_eq_getElem_cons (by simpa using hlt), List.getElem_set_self,
    List.drop_set_of_lt (by omega)]

/-- The round has not lost an entry, and what is left of it has not grown. -/
structure Advance (s t : PollState δ) : Prop where
  entries : t.entries ++ t.outlook = s.entries ++ s.outlook
  work : t.work + t.results.length ≤ s.work + s.results.length

/-- A step that leaves the device, its blocks and the table as they are. -/
theorem Advance.stay (hmap : t.protocolInfoMap = s.protocolInfoMap) (hit : t.it = s.it)
    (hblocks : t.vRtSrcInfo = s.vRtSrcInfo) (hpublished : t.published = s.published)
    (hresults : t.results = s.results) (hcome : t.pollPc.toCome = s.pollPc.toCome (δ := δ))
    (hweight : ∀ m : Modbus δ, t.pollPc.weight m ≤ s.pollPc.weight m) : Advance s t := by
  refine ⟨?_, ?_⟩
  · rw [PollState.entries, PollState.entries, outlook, outlook, hmap, hit, hblocks, hpublished,
      hcome]
  · rw [PollState.work, PollState.work, hmap, hit, hresults]
    cases s.protocolInfoMap.drop s.it with
    | nil => exact le_rfl
    | cons p rest =>
        have hle := hweight p.2
        simp only
        omega

/-- A poll begins. -/
theorem advance_startDevice (pc : s.pollPc = .next) (hfresh : s.vRtSrcInfo = [])
    (at_it : s.protocolInfoMap[s.it]? = some (device, m)) :
    Advance s
        { s with vRtSrcInfo := [], pointCount := 0, pit := some m.serial, pollPc := .assemble } ∧
      PollState.work
        { s with vRtSrcInfo := [], pointCount := 0, pit := some m.serial, pollPc := .assemble } <
        s.work := by
  have hdrop := drop_eq_cons at_it
  refine ⟨⟨?_, ?_⟩, ?_⟩ <;>
    simp [PollState.entries, outlook, PollState.work, hdrop, pc, hfresh, PollPc.toCome,
      PollPc.weight]

/-- The table of the device comes to its end. -/
theorem advance_endDevice {m' : Modbus δ} {sendBuf : List UInt8} (pc : s.pollPc = .assemble)
    (at_it : s.protocolInfoMap[s.it]? = some (device, m))
    (assembled : assemblePacket m = some (-1, sendBuf, m')) :
    Advance s { s with
        protocolInfoMap := s.protocolInfoMap.set s.it (device, m')
        pollPc := .publish } ∧
      PollState.work { s with
        protocolInfoMap := s.protocolInfoMap.set s.it (device, m')
        pollPc := .publish } < s.work := by
  have hdrop := drop_eq_cons at_it
  have hset := drop_set_eq_cons at_it (device, m')
  -- no block is left when the table ends
  have hleft : blocksLeft m = 0 := Nat.sub_eq_zero_of_le (assemblePacket_end assembled).1
  refine ⟨⟨?_, ?_⟩, ?_⟩ <;>
    simp [PollState.entries, outlook, PollState.work, hdrop, hset, pc, hleft, PollPc.toCome,
      PollPc.weight]

/-- A block is requested and will come. -/
theorem advance_request [CDouble δ] {m' : Modbus δ} {sendLen : Int} {sendBuf : List UInt8}
    {title : String} (pc : s.pollPc = .assemble)
    (at_it : s.protocolInfoMap[s.it]? = some (device, m))
    (assembled : assemblePacket m = some (sendLen, sendBuf, m')) (sent : sendLen ≠ -1) :
    let t : PollState δ :=
      { s with
        protocolInfoMap := s.protocolInfoMap.set s.it (device, m')
        requests := s.requests ++ [⟨device, s.pointCount, sendBuf⟩]
        rtSrcInfo := { RTSrcInfo.fresh with title }
        pointCount := s.pointCount + 1
        pollPc := .disarm }
    Advance s t ∧ t.work < s.work := by
  intro t
  have hdrop := drop_eq_cons at_it
  have hset := drop_set_eq_cons at_it (device, m')
  obtain ⟨point, hpoint, -, rfl⟩ := assemblePacket_sent assembled sent
  have hlt := (List.getElem?_eq_some_iff.mp hpoint).1
  -- one block fewer is left, and it is under way
  have hleft : blocksLeft m = blocksLeft { m with nextPkg := m.nextPkg + 1 } + 1 := by
    simp only [blocksLeft]
    omega
  refine ⟨⟨?_, ?_⟩, ?_⟩
  · simp [t, PollState.entries, outlook, hdrop, hset, pc, hleft, PollPc.toCome]
  · simp [t, PollState.work, hdrop, hset, pc, hleft, PollPc.weight]
    omega
  · simp [t, PollState.work, hdrop, hset, pc, hleft, PollPc.weight]
    omega

/-- The block that was to come is there. -/
theorem advance_answered {request : Request} (pc : s.pollPc = .answered)
    (at_it : s.protocolInfoMap[s.it]? = some (device, m)) :
    let t : PollState δ :=
      { s with
        results := s.results ++ [⟨request, s.rtSrcInfo, s.totalRecvBuf⟩]
        vRtSrcInfo := s.vRtSrcInfo ++ [s.rtSrcInfo]
        pollPc := .assemble }
    Advance s t ∧ t.work < s.work := by
  intro t
  have hdrop := drop_eq_cons at_it
  refine ⟨⟨?_, ?_⟩, ?_⟩
  · simp [t, PollState.entries, outlook, hdrop, pc, PollPc.toCome]
    omega
  · simp [t, PollState.work, hdrop, pc, PollPc.weight]
    omega
  · simp [t, PollState.work, hdrop, pc, PollPc.weight]

/-- An entry that was to be published is published. -/
theorem advance_publish (pc : s.pollPc = .publish)
    (at_it : s.protocolInfoMap[s.it]? = some (device, m)) :
    let t : PollState δ :=
      { s with
        published := s.published ++ [(device, s.vRtSrcInfo)]
        vRtSrcInfo := []
        it := s.it + 1
        pollPc := .next }
    Advance s t ∧ t.work < s.work := by
  intro t
  have hdrop := drop_eq_cons at_it
  refine ⟨⟨?_, ?_⟩, ?_⟩ <;>
    cases hrest : s.protocolInfoMap.drop (s.it + 1) <;>
    simp [t, PollState.entries, outlook, PollState.work, hdrop, hrest, pc, PollPc.toCome,
      PollPc.weight]

/-- A step of the polling thread in a round moves on, unless a request waits or the round ends. -/
theorem advance_poll [CDouble δ] {tty : ℕ → UInt8 → List UInt8} {reply : ℕ → PositiveReply}
    (h : PollTransition tty reply s .poll t)
    (hround : s.pollPc ≠ .idle) (hfresh : s.pollPc = .next → s.vRtSrcInfo = [])
    (hdevice : s.pollPc = .answered → ∃ device m, s.protocolInfoMap[s.it]? = some (device, m))
    (hrequests : t.requests = s.requests) :
    Advance s t ∧ (s.pollPc.stage ≠ .waiting → t.pollPc = .idle ∨ t.work < s.work) := by
  cases h with
  | startRound pc => exact absurd pc hround
  | endRound pc =>
      refine ⟨.stay rfl rfl rfl rfl rfl ?_ fun m => ?_, fun _ => .inl rfl⟩
      · rw [pc]
        rfl
      · rw [pc]
        exact le_rfl
  | startDevice device m pc at_it =>
      obtain ⟨hadvance, hlt⟩ := advance_startDevice pc (hfresh pc) at_it
      exact ⟨hadvance, fun _ => .inr hlt⟩
  | endDevice device m m' sendBuf pc at_it assembled =>
      obtain ⟨hadvance, hlt⟩ := advance_endDevice pc at_it assembled
      exact ⟨hadvance, fun _ => .inr hlt⟩
  -- sending is dealt with on its own
  | request => simp at hrequests
  | disarm pc | retryDisarm pc =>
      refine ⟨.stay rfl rfl rfl rfl rfl ?_ fun m => ?_, fun hstage => ?_⟩
      · rw [pc]
        rfl
      · rw [pc]
        exact le_rfl
      · exact absurd (by rw [pc]; rfl) hstage
  | notify pc =>
      refine ⟨.stay rfl rfl rfl rfl rfl ?_ fun m => ?_, fun hstage => ?_⟩
      · rcases pc with pc | pc <;> rw [pc] <;> rfl
      · rcases pc with pc | pc <;> rw [pc] <;> exact le_rfl
      · exact absurd (by obtain pc | pc := pc <;> rw [pc] <;> rfl) hstage
  | parse pc =>
      refine ⟨.stay rfl rfl rfl rfl rfl ?_ fun m => ?_, fun hstage => ?_⟩
      · cases hall : (parsePacketProc s.rtSrcInfo s.totalRecvBuf).isRecvAll <;>
          simp only [parseStep, hall, pc] <;> rfl
      · cases hall : (parsePacketProc s.rtSrcInfo s.totalRecvBuf).isRecvAll <;>
          simp [parseStep, hall, pc, PollPc.weight]
      · exact absurd (by rw [pc]; rfl) hstage
  | answered request pc =>
      obtain ⟨device, m, at_it⟩ := hdevice pc
      obtain ⟨hadvance, hlt⟩ := @advance_answered _ _ _ _ request pc at_it
      exact ⟨hadvance, fun _ => .inr hlt⟩
  | publish device m pc at_it =>
      obtain ⟨hadvance, hlt⟩ := advance_publish pc at_it
      exact ⟨hadvance, fun _ => .inr hlt⟩

end Advance

/-! ### Tables that are ready -/

section Ready

variable {s t : PollState δ} {tty : ℕ → UInt8 → List UInt8} {reply : ℕ → PositiveReply}

/-- `AssemblePacket` keeps the table. -/
theorem Ready.set {device : String} {m m' : Modbus δ} (hs : s.Ready)
    (at_it : s.protocolInfoMap[s.it]? = some (device, m)) (hm : m'.vPoint = m.vPoint) :
    ∀ p ∈ s.protocolInfoMap.set s.it (device, m'),
      (∀ point ∈ p.2.vPoint, point.mpkg ≠ []) ∧ p.2.vPoint.length ≤ s.vPoint.length := by
  intro p hp
  rcases List.mem_or_eq_of_mem_set hp with hp | rfl
  · exact hs p hp
  · rw [hm]
    exact hs _ (List.mem_of_getElem? at_it)

variable [CDouble δ]

/-- The polling thread keeps the tables. -/
theorem Ready.poll (hs : s.Ready) (h : PollTransition tty reply s .poll t) : t.Ready := by
  cases h with
  | endDevice _ _ _ _ _ at_it assembled =>
      exact hs.set at_it (TableState.vPoint_of_assemblePacket assembled)
  | request _ _ _ _ _ _ _ at_it assembled =>
      exact hs.set at_it (TableState.vPoint_of_assemblePacket assembled)
  | startRound | endRound | startDevice | disarm | retryDisarm | notify | parse | answered
  | publish => exact hs

/-- The receive thread does not know them. -/
theorem Ready.recv {recvLen : ℕ} (hs : s.Ready) (h : PollTransition tty reply s (.recv recvLen) t) :
    t.Ready := by
  cases h <;> exact hs

/-- Each transition of the polling thread keeps the counts. -/
theorem Counted.step {e : PollEvent δ} (hs : s.Counted) (h : PollTransition tty reply s e t) :
    t.Counted := by
  cases h with
  | startRound | endRound | endDevice | publish => simp [Counted, PollPc.inDevice]
  | startDevice device m _ at_it => exact fun _ => ⟨device, m, at_it, Nat.zero_le _⟩
  | request device m m' sendLen sendBuf point pc at_it assembled sent =>
      obtain ⟨_, m₁, at_it₁, hcount⟩ := hs (by rw [pc]; rfl)
      obtain rfl : m = m₁ := (Prod.mk.inj (Option.some.inj (at_it.symm.trans at_it₁))).2
      obtain ⟨-, -, -, rfl⟩ := assemblePacket_sent assembled sent
      exact fun _ => ⟨device, _, device_set at_it, Nat.succ_le_succ hcount⟩
  | disarm pc | retryDisarm pc | answered _ pc | parse pc => exact fun _ => hs (by rw [pc]; rfl)
  | notify pc => exact fun _ => hs (by obtain pc | pc := pc <;> rw [pc] <;> rfl)
  | devices _ idle => simp [Counted, idle, PollPc.inDevice]
  | test | block | capture | readNothing | read | append | rearm | spurious | point => exact hs

/-- The same with bytes that arrive. -/
theorem Counted.lineStep {e : LineEvent δ} (hs : s.Counted) (h : s.lineStep e = some t) :
    t.Counted := by
  cases lineStep_transition h with
  | arrive => exact hs
  | poll u hu =>
      have hpolled := hs.step hu
      exact hpolled
  | other e u other hu => exact hs.step hu

/-- With tables that are ready the polling thread never reads past an end. -/
theorem Ready.exists_pollStep (hs : s.Ready) (hcounted : s.Counted) (htracked : s.Tracked) :
    ∃ t, pollStep tty reply s = some t := by
  refine htracked.exists_pollStep fun pc => ?_
  obtain ⟨device, m, at_it, hcount⟩ := hcounted (by rw [pc]; rfl)
  obtain ⟨hpkg, hle⟩ := hs _ (List.mem_of_getElem? at_it)
  obtain ⟨⟨sendLen, sendBuf, m'⟩, assembled⟩ := exists_assemblePacket hpkg
  refine exists_assembleStep at_it assembled fun hlen => ?_
  obtain ⟨point, hpoint, -⟩ := assemblePacket_sent assembled hlen
  -- the title is looked up at an index that is not above the one of the frame
  have hlt : m.nextPkg < m.vPoint.length := (List.getElem?_eq_some_iff.mp hpoint).1
  exact (hcount.trans_lt hlt).trans_le hle

end Ready

end PollState

/-! ## Whole rounds -/

namespace SlaveState

variable [CDouble δ] {answer : ℕ → Answer} {s s' : SlaveState δ} {plan : List (String × ℕ)}

/-- The counts are right in every reachable state. -/
theorem counted_of_reachable (h : Reachable (step transparent answer) StartUp s) :
    s.poll.Counted := by
  have hinit : ∀ s : SlaveState δ, s.StartUp → s.poll.Counted := by
    intro s hs hpc
    rw [hs.poll.pollPc] at hpc
    cases hpc
  refine h.invariant hinit fun s e s' hs hstep => ?_
  obtain ⟨e', h'⟩ := lineStep_of_step hstep
  exact hs.lineStep h'

/-- A round under way, or just ended, that publishes `plan`. -/
structure Round (answer : ℕ → Answer) (plan : List (String × ℕ)) (s : SlaveState δ) : Prop where
  sound : s.Sound answer
  ready : s.poll.Ready
  counted : s.poll.Counted
  entries : s.poll.entries ++ s.poll.outlook = plan
  ended : s.poll.pollPc = .idle → s.poll.outlook = []

/-- A step of a round, and what it leaves of it. -/
structure Moves (s s' : SlaveState δ) : Prop where
  advance : s.poll.Advance s'.poll
  ready : s'.poll.Ready
  counted : s'.poll.Counted
  ended : s'.poll.pollPc = .idle → s'.poll.outlook = []

/-- The polling thread moves on, unless it waits for an answer. -/
theorem Round.poll (hs : Round answer plan s) (hround : s.poll.pollPc ≠ .idle)
    (h : s.step transparent answer (.own .poll) = some s') : Moves s s' ∧
      (s.poll.pollPc.stage ≠ .waiting → s'.poll.pollPc = .idle ∨ s'.poll.work < s.poll.work) := by
  cases step_transition h with
  | request device m m' sendLen sendBuf point pc at_it assembled sent =>
      obtain ⟨hadvance, hlt⟩ := PollState.advance_request pc at_it assembled sent
      refine ⟨⟨⟨hadvance.entries, hadvance.work⟩, ?_, fun _ => ?_, fun hidle => ?_⟩,
        fun _ => .inr hlt⟩
      · exact hs.ready.set at_it (TableState.vPoint_of_assemblePacket assembled)
      · obtain ⟨_, m₁, at_it₁, hcount⟩ := hs.counted (by rw [pc]; rfl)
        obtain rfl : m = m₁ := (Prod.mk.inj (Option.some.inj (at_it.symm.trans at_it₁))).2
        obtain ⟨-, -, -, rfl⟩ := assemblePacket_sent assembled sent
        exact ⟨device, _, PollState.device_set at_it, Nat.succ_le_succ hcount⟩
      · cases hidle
  | other e t ht hrequests =>
      -- between two devices nothing has been collected
      have hfresh : s.poll.pollPc = .next → s.poll.vRtSrcInfo = [] := fun pc => by
        have hphase := hs.sound.inv.phase
        simp only [Phase, pc, PollPc.stage] at hphase
        exact hphase.2.2
      have hdevice : s.poll.pollPc = .answered →
          ∃ device m, s.poll.protocolInfoMap[s.poll.it]? = some (device, m) := fun pc => by
        obtain ⟨device, m, at_it, -⟩ := hs.counted (by rw [pc]; rfl)
        exact ⟨device, m, at_it⟩
      obtain ⟨hadvance, hmoves⟩ := PollState.advance_poll ht hround hfresh hdevice hrequests
      refine ⟨⟨hadvance, hs.ready.poll ht, hs.counted.step ht, fun hidle => ?_⟩, hmoves⟩
      cases ht with
      | endRound _ at_it =>
          rw [PollState.outlook, List.drop_eq_nil_of_le (List.getElem?_eq_none_iff.mp at_it)]
      | parse => cases hall : (parsePacketProc s.poll.rtSrcInfo s.poll.totalRecvBuf).isRecvAll <;>
          simp [parseStep, hall] at hidle
      | startRound | startDevice | endDevice | request | disarm | retryDisarm | notify | answered
      | publish => cases hidle

/-- Every step of the two threads and the slaves moves the round on, or leaves it. -/
theorem Round.moves {e : SlaveEvent δ} (hs : Round answer plan s) (hround : s.poll.pollPc ≠ .idle)
    (he : e.inner = true) (h : s.step transparent answer e = some s') : Moves s s' := by
  cases e with
  | deliver port n =>
      obtain rfl := Option.some.inj h
      exact ⟨.stay rfl rfl rfl rfl rfl rfl fun _ => le_rfl, hs.ready, hs.counted, hs.ended⟩
  | own e =>
      cases e with
      | poll => exact (hs.poll hround h).1
      | recv recvLen =>
          cases step_transition h with
          | other _ t ht =>
              refine ⟨?_, hs.ready.recv ht, hs.counted.step ht, ?_⟩
              · cases ht <;> exact .stay rfl rfl rfl rfl rfl rfl fun _ => le_rfl
              · cases ht <;> exact hs.ended
      | spurious | point | devices => cases he

/-- Until the round ends, its plan stays the same. -/
theorem Round.step {e : SlaveEvent δ} (hs : Round answer plan s) (hround : s.poll.pollPc ≠ .idle)
    (he : e.inner = true) (h : s.step transparent answer e = some s') : Round answer plan s' := by
  have hmoves := hs.moves hround he h
  exact ⟨hs.sound.step h, hmoves.ready, hmoves.counted, hmoves.advance.entries.trans hs.entries,
    hmoves.ended⟩

/-- Some continuation ends the round or leaves less of it. -/
theorem Round.progress (hs : Round answer plan s) (hround : s.poll.pollPc ≠ .idle) :
    ∃ s', Leads (SlaveState.step transparent answer) (SlaveEvent.inner ·) s s' ∧
      Round answer plan s' ∧ (s'.poll.pollPc = .idle ∨ s'.poll.work < s.poll.work) := by
  by_cases hwaiting : s.poll.pollPc.stage = .waiting
  · obtain ⟨s₁, hleads, hmore⟩ := takes_answer hs.sound hwaiting
    -- up to the result, or up to the end of the round should that come first
    have huntil := Leads.until
      (fun t => Round answer plan t ∧
        t.poll.work + t.poll.results.length ≤ s.poll.work + s.poll.results.length)
      (fun t => t.poll.pollPc = .idle)
      (fun t e t' ht hgoal he h => ⟨ht.1.step hgoal he h,
        (ht.1.moves hgoal he h).advance.work.trans ht.2⟩) hleads ⟨hs, le_rfl⟩
    rcases huntil with ⟨s₂, hleads₂, ⟨hround₂, -⟩, hidle⟩ | ⟨hround₁, hwork⟩
    · exact ⟨s₂, hleads₂, hround₂, .inl hidle⟩
    · exact ⟨s₁, hleads, hround₁, .inr (by omega)⟩
  · have hnext : ∃ t, pollStep transparent anyReply s.poll = some t :=
      hs.ready.exists_pollStep hs.counted hs.sound.tracked
    obtain ⟨t, ht⟩ := hnext
    have hstep : s.step transparent answer (.own .poll) =
        some ⟨{ t with line := s.poll.line },
          s.owe transparent answer { t with line := s.poll.line }⟩ := by
      simp [SlaveState.step, PollState.lineStep, PollState.step, ht]
    obtain ⟨-, hmoves⟩ := hs.poll hround hstep
    exact ⟨_, .head (e := .own .poll) rfl hstep (.refl _), hs.step hround rfl hstep,
      hmoves hwaiting⟩

/-- From every reachable state in a round, whatever the threads and the slaves have done so far, the
round can be completed, provided the tables are ready and the terminals leave the answers alone. It
publishes each remaining device once, in order, with as many blocks as its table has points left,
each block made of the answer to its own request. -/
theorem round_completes (tty : ℕ → UInt8 → List UInt8) (answer : ℕ → Answer)
    (hunaltered : Unaltered tty answer) (hs : Reachable (step tty answer) StartUp s)
    (hready : s.poll.Ready) (hround : s.poll.pollPc ≠ .idle) :
    ∃ s', Leads (step tty answer) (SlaveEvent.inner ·) s s' ∧ s'.poll.pollPc = .idle ∧
      s'.poll.entries = s.poll.entries ++ s.poll.outlook ∧ s'.Belongs answer := by
  rw [step_eq_of_unaltered hunaltered] at hs ⊢
  have hsound : s.Sound answer := hs.invariant (fun _ h => h.sound) fun _ _ _ hs h => hs.step h
  have hstart : Round answer (s.poll.entries ++ s.poll.outlook) s :=
    ⟨hsound, hready, counted_of_reachable hs, rfl, fun hidle => absurd hidle hround⟩
  obtain ⟨s', hleads, hs', hidle⟩ := Leads.of_progress
    (Round answer (s.poll.entries ++ s.poll.outlook)) (fun t => t.poll.pollPc = .idle)
    (fun t => t.poll.work) (fun t ht hgoal => ht.progress hgoal) hstart
  have hentries := hs'.entries
  rw [hs'.ended hidle, List.append_nil] at hentries
  exact ⟨s', hleads, hidle, hentries, hs'.sound.inv.belongs⟩

/-- The first of two devices has been asked. -/
theorem round_completes_asked :
    let point : ModbusPoint Decimal :=
      ⟨"运行信息", "", "", ⟨1000000⟩, "", 0, 0, [⟨0x03, (0x0E, 0x10), (0x00, 0x01)⟩]⟩
    let answer : ℕ → Answer := fun _ => .error 0x01 0x02 0xC0 0xF1
    let start : SlaveState Decimal :=
      ⟨PollState.new [("A", Modbus.new [point] 7), ("B", Modbus.new [point] 8)] [point],
        fun _ => []⟩
    let events : List (SlaveEvent Decimal) := [.own .poll, .own .poll, .own .poll]
    ∃ s s', run (step linuxTty answer) start events = some s ∧
      Leads (step linuxTty answer) (SlaveEvent.inner ·) s s' ∧ s'.poll.pollPc = .idle ∧
      s'.poll.entries = [("A", 1), ("B", 1)] := by
  intro point answer start events
  obtain ⟨s, hrun, hpc, houtlook, hready⟩ : ∃ s, run (step linuxTty answer) start events = some s ∧
      s.poll.pollPc = .disarm ∧ s.poll.entries ++ s.poll.outlook = [("A", 1), ("B", 1)] ∧
      s.poll.Ready :=
    ⟨_, rfl, rfl, rfl, by decide +kernel⟩
  obtain ⟨s', hleads, hidle, hentries, -⟩ := round_completes linuxTty answer
    (unaltered_icrnl fun _ => by decide)
    ⟨start, events, ⟨PollState.startUp_new _ _, fun _ => rfl⟩, hrun⟩ hready (by simp [hpc])
  exact ⟨s, s', hrun, hleads, hidle, hentries.trans houtlook⟩

end SlaveState

end CsiFirmware.Task
