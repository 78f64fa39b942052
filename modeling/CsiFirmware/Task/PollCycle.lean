import CsiFirmware.Task.PointTables

/-!
# Poll cycle

Reference: `TaskSerial::serialTaskRun`, `TaskSerial::sendPacketProc` and `Modbus::AssemblePacket`.

While the polling thread works with one table everywhere, every poll of a device requests every
block of that table once, in order, and leaves the counters as it found them (`poll_cycle`).
-/

namespace CsiFirmware.Task

open Protocol Runs

variable {δ : Type}

namespace TableState

/-- `v_point` and every protocol object hold `table`, when the polling thread makes a step. -/
def SameTable (table : List (ModbusPoint δ)) (s : TableState δ) (e : TableEvent δ) : Prop :=
  match e with
  | .line (.own .poll) =>
      s.poll.vPoint = table ∧ ∀ p ∈ s.poll.protocolInfoMap, p.2.vPoint = table
  | _ => True

instance [DecidableEq δ] (table : List (ModbusPoint δ)) (s : TableState δ) :
    ∀ e, Decidable (SameTable table s e)
  | .line (.own .poll) => inferInstanceAs (Decidable (_ ∧ _))
  | .line (.own (.recv _)) | .line (.own .spurious) | .line (.own (.point _))
  | .line (.own (.devices _)) | .line (.arrive _ _) | .edit _ | .create _ _ | .keep _
  | .deliver _ => .isTrue trivial

/-- The poll has begun with `nextPkg = 0` and has requested the blocks of the table in order. If it
has ended, it has requested all of them and left `nextPkg = 0`. -/
structure InOrder (table : List (ModbusPoint δ)) (p : DevicePoll) : Prop where
  first : p.first = 0
  sent : p.sent <+: tableFrames table
  ended : ∀ nextPkg, p.last = some nextPkg → nextPkg = 0 ∧ p.sent = tableFrames table

/-- A request for one block of the table. -/
def IsRequestFor (table : List (ModbusPoint δ)) (r : Request) : Prop :=
  ∃ point pkg, table[r.pointCount]? = some point ∧ point.mpkg.head? = some pkg ∧
    ∃ crcLo crcHi, r.frame =
      [0x01, pkg.func, pkg.reg.1, pkg.reg.2, pkg.len.1, pkg.len.2, crcLo, crcHi] ∧
    crc16 r.frame 8 = 0

/-- The polls of a run with one table. Only the newest of them may be under way. -/
structure Cycles (table : List (ModbusPoint δ)) (s : TableState δ) : Prop where
  inOrder : ∀ p ∈ s.polls, InOrder table p
  ended : ∀ p ∈ s.polls.tail, p.last ≠ none
  requests : s.poll.requests = s.polls.reverse.flatMap DevicePoll.requests
  frame : ∀ r ∈ s.poll.requests, IsRequestFor table r

end TableState

/-! ## Frames -/

/-- A frame of the table is a request for one of its points. -/
theorem isRequestFor_of_mem {table : List (ModbusPoint δ)} (hpkg : ∀ point ∈ table, point.mpkg ≠ [])
    {device : String} {q : ℕ × List UInt8} (hq : q ∈ tableFrames table) :
    TableState.IsRequestFor table ⟨device, q.1, q.2⟩ := by
  obtain ⟨k, hk⟩ := List.mem_iff_getElem?.mp hq
  cases hpoint : table[k]? with
  | none =>
      rw [tableFrames, List.getElem?_mapIdx, hpoint] at hk
      cases hk
  | some point =>
      rw [tableFrames_getElem? hpoint] at hk
      obtain rfl := Option.some.inj hk
      cases hmpkg : point.mpkg with
      | nil => exact absurd hmpkg (hpkg point (List.mem_of_getElem? hpoint))
      | cons pkg pkgs =>
          have hframe : pointFrame point = requestFrame pkg := by rw [pointFrame, hmpkg]
          exact ⟨point, pkg, hpoint, by rw [hmpkg]; rfl, _, _, hframe,
            by rw [hframe, crc16_requestFrame]⟩

namespace PollState

/-! ## Every step of the polling thread is defined -/

/-- The entry to publish is there, and a reply that is waited for belongs to the last request. -/
structure Tracked (s : PollState δ) : Prop where
  publish : s.pollPc = .publish → s.it < s.protocolInfoMap.length
  settled : s.pollPc.stage = .between ∨ s.pollPc.stage = .collecting →
    s.requests.length = s.results.length
  pending : s.pollPc.stage = .waiting ∨ s.pollPc.stage = .answered →
    s.requests.length = s.results.length + 1

/-- At the start nothing is waited for. -/
theorem StartUp.tracked {s : PollState δ} (h : s.StartUp) : s.Tracked where
  publish hpc := by simp [h.pollPc] at hpc
  settled _ := by rw [h.requests, h.results]; rfl
  pending hpc := by simp [h.pollPc, PollPc.stage] at hpc

/-- Between two rounds the devices may change. -/
theorem Tracked.devices {s : PollState δ} (hs : s.Tracked) (idle : s.pollPc = .idle)
    (protocolInfoMap : List (String × Modbus δ)) : Tracked { s with protocolInfoMap } where
  publish hpc := by simp [idle] at hpc
  settled := hs.settled
  pending := hs.pending

variable [CDouble δ] {tty : ℕ → UInt8 → List UInt8} {reply : ℕ → PositiveReply} {s s' : PollState δ}

/-- Each transition of the polling thread is tracked. -/
theorem Tracked.step {e : PollEvent δ} (hs : s.Tracked) (h : PollTransition tty reply s e s') :
    s'.Tracked := by
  have hsettled := hs.settled
  have hpending := hs.pending
  cases h with
  | startRound pc | endRound pc | startDevice _ _ pc | publish _ _ pc =>
      refine ⟨by simp, fun _ => hsettled ?_, by simp [PollPc.stage]⟩
      simp [pc, PollPc.stage]
  -- the entry is still there when its results are published
  | endDevice _ _ _ _ pc at_it =>
      refine ⟨fun _ => ?_, fun _ => hsettled ?_, by simp [PollPc.stage]⟩
      · obtain ⟨hlt, -⟩ := List.getElem?_eq_some_iff.mp at_it
        simpa using hlt
      · simp [pc, PollPc.stage]
  | request _ _ _ _ _ _ pc =>
      refine ⟨by simp, by simp [PollPc.stage], fun _ => ?_⟩
      have hlen := hsettled (by simp [pc, PollPc.stage])
      simp [hlen]
  | disarm pc | retryDisarm pc =>
      refine ⟨by simp, by simp [PollPc.stage], fun _ => hpending ?_⟩
      simp [pc, PollPc.stage]
  | notify pc =>
      refine ⟨by simp, by simp [PollPc.stage], fun _ => hpending ?_⟩
      rcases pc with pc | pc <;> simp [pc, PollPc.stage]
  | parse pc =>
      have hlen := hpending (by simp [pc, PollPc.stage])
      refine ⟨?_, ?_, fun _ => hlen⟩ <;>
        cases hall : (parsePacketProc s.rtSrcInfo s.totalRecvBuf).isRecvAll <;>
        simp [parseStep, hall, PollPc.stage]
  -- the reply is recorded against the last request
  | answered _ pc =>
      have hlen := hpending (by simp [pc, PollPc.stage])
      refine ⟨by simp, fun _ => ?_, by simp [PollPc.stage]⟩
      simp [hlen]
  | devices protocolInfoMap idle => exact hs.devices idle protocolInfoMap
  | test | block | capture | readNothing | read | append | rearm | spurious | point =>
      exact ⟨hs.publish, hs.settled, hs.pending⟩

omit [CDouble δ] in
/-- What is on the lines does not matter for the record of the polls. -/
theorem Tracked.line (hs : s.Tracked) (line : ℕ → List UInt8) : Tracked { s with line } :=
  ⟨hs.publish, hs.settled, hs.pending⟩

/-- The step that sends has an effect if there is a frame, and a title for it. -/
theorem exists_assembleStep {device : String} {m : Modbus δ} {sent : Int × List UInt8 × Modbus δ}
    (at_it : s.protocolInfoMap[s.it]? = some (device, m)) (assembled : assemblePacket m = some sent)
    (hpoint : sent.1 ≠ -1 → s.pointCount < s.vPoint.length) :
    ∃ t, assembleStep tty reply s = some t := by
  simp only [assembleStep, at_it, assembled]
  split_ifs with hlen
  · exact ⟨_, rfl⟩
  · simp only [List.getElem?_eq_getElem (hpoint hlen)]
    exact ⟨_, rfl⟩

/-- The next step of the polling thread has an effect, provided the frame and the title exist. -/
theorem Tracked.exists_pollStep (hs : s.Tracked)
    (hassemble : s.pollPc = .assemble → ∃ t, assembleStep tty reply s = some t) :
    ∃ t, pollStep tty reply s = some t := by
  cases hpc : s.pollPc with
  | assemble =>
      obtain ⟨t, ht⟩ := hassemble hpc
      exact ⟨t, by rw [pollStep, hpc]; exact ht⟩
  | next =>
      cases hit : s.protocolInfoMap[s.it]? with
      | none => exact ⟨_, by simp only [pollStep, hpc, hit]; rfl⟩
      | some p => exact ⟨_, by simp only [pollStep, hpc, hit]; rfl⟩
  | publish =>
      have hlt := hs.publish hpc
      exact ⟨_, by simp only [pollStep, hpc, List.getElem?_eq_getElem hlt, Option.map_some]; rfl⟩
  | answered =>
      have hlen := hs.pending (by simp [hpc, PollPc.stage])
      have hlt : s.results.length < s.requests.length := by omega
      exact ⟨_, by simp only [pollStep, hpc, answeredStep, List.getElem?_eq_getElem hlt,
        Option.map_some]; rfl⟩
  | idle | disarm | notify | parse | retryDisarm | retryNotify =>
      exact ⟨_, by simp only [pollStep, hpc]; rfl⟩

end PollState

namespace TableState

variable {table : List (ModbusPoint δ)} {s s' : TableState δ}

/-! ## Runs with one table -/

/-- A recorded poll has been recorded before, or is one of the current object. -/
theorem origin_of_mem_recordPoll {t : PollState δ} {p : DevicePoll}
    (hp : p ∈ s.recordPoll s.poll t) : (∃ q ∈ s.polls, q.origin = p.origin) ∨
      ∃ device m, s.poll.protocolInfoMap[s.poll.it]? = some (device, m) ∧
        p.origin = s.origin device := by
  unfold recordPoll at hp
  split at hp
  next device m pc at_it =>
    rcases List.mem_cons.mp hp with rfl | hp
    · exact .inr ⟨device, m, at_it, rfl⟩
    · exact .inl ⟨p, hp, rfl⟩
  · cases hpolls : s.polls with
    | nil => simp [hpolls] at hp
    | cons q rest =>
        rw [hpolls, List.modifyHead_cons] at hp
        rcases List.mem_cons.mp hp with rfl | hp
        · refine .inl ⟨q, List.mem_cons_self, ?_⟩
          split <;> rfl
        · exact .inl ⟨p, List.mem_cons_of_mem _ hp, rfl⟩
  · exact .inl ⟨p, hp, rfl⟩

/-- Every object that has been polled has read `table`. -/
structure OneTable (table : List (ModbusPoint δ)) (s : TableState δ) : Prop where
  inv : s.Inv
  tracked : s.poll.Tracked
  polled : ∀ p ∈ s.polls, s.loaded[p.origin]? = some table

/-- At the start nothing has been polled. -/
theorem Initial.oneTable (h : s.Initial) : OneTable table s where
  inv := h.inv
  tracked := h.toStartUp.tracked
  polled p hp := by simp [h.polls] at hp

variable [CDouble δ]

/-- A step that reads no other table keeps it. -/
theorem OneTable.step {e : TableEvent δ} (hs : OneTable table s) (hsame : SameTable table s e)
    (h : s.step e = some s') : OneTable table s' := by
  have hinv := hs.inv.step h
  cases step_transition h with
  | poll t ht =>
      refine ⟨hinv, (hs.tracked.step ht).line _, fun p hp => ?_⟩
      -- a poll begins with the table that its object has loaded
      rcases origin_of_mem_recordPoll hp with ⟨q, hq, horigin⟩ | ⟨device, m, at_it, horigin⟩
      · rw [← horigin]
        exact hs.polled q hq
      · have hmem := List.mem_of_getElem? at_it
        have hown := hs.inv.tables.own _ hmem
        rw [hsame.2 _ hmem] at hown
        rw [horigin]
        exact hown
  | recv recvLen t ht =>
      refine ⟨hinv, hs.tracked.step ht, fun p hp => ?_⟩
      exact hs.polled p hp
  | arrive | spurious | edit | deliver =>
      exact ⟨hinv, ⟨hs.tracked.publish, hs.tracked.settled, hs.tracked.pending⟩, hs.polled⟩
  | keep _ idle =>
      exact ⟨hinv, hs.tracked.devices idle _, hs.polled⟩
  | create _ _ idle =>
      exact ⟨hinv, hs.tracked.devices idle _,
        fun p hp => getElem?_append_of (hs.polled p hp)⟩

omit [CDouble δ] in
/-- A poll that has come to its end has sent every frame, and the index is back at zero. -/
theorem OneTable.finished {p : DevicePoll} (hs : OneTable table s) (hp : p ∈ s.polls)
    (h : p.Finished s.loaded) : InOrder table p ∧ p.last = some 0 := by
  obtain ⟨own, hown, hfirst, hsent, hlast⟩ := h
  obtain rfl := Option.some.inj (hown.symm.trans (hs.polled p hp))
  refine ⟨⟨hfirst, hsent ▸ List.prefix_refl _, fun nextPkg hnext => ⟨?_, hsent⟩⟩, hlast⟩
  exact (Option.some.inj (hlast.symm.trans hnext)).symm

omit [CDouble δ] in
/-- The object that is being polled holds the table. -/
theorem OneTable.current {p : DevicePoll} (hs : OneTable table s) (hp : p ∈ s.polls)
    (h : s.Current p) : ∃ device m, s.poll.protocolInfoMap[s.poll.it]? = some (device, m) ∧
      m.vPoint = table ∧ m.nextPkg = s.poll.pointCount ∧
      p = ⟨device, s.origin device, 0, (tableFrames table).take s.poll.pointCount, none⟩ := by
  obtain ⟨device, m, at_it, hcount, -, rfl⟩ := h
  have hown := hs.inv.tables.own _ (List.mem_of_getElem? at_it)
  obtain rfl : m.vPoint = table := Option.some.inj (hown.symm.trans (hs.polled _ hp))
  exact ⟨device, m, at_it, rfl, hcount, rfl⟩

omit [CDouble δ] in
/-- What it says of the polls that are recorded. -/
theorem OneTable.cycles (hs : OneTable table s) (hpkg : ∀ point ∈ table, point.mpkg ≠ []) :
    Cycles table s := by
  have hpolls : (∀ p ∈ s.polls, InOrder table p) ∧ ∀ p ∈ s.polls.tail, p.last ≠ none := by
    cases hin : s.poll.pollPc.inDevice with
    | false =>
        have hfinished := fun p hp => hs.finished hp (hs.inv.polls.between hin p hp)
        refine ⟨fun p hp => (hfinished p hp).1, fun p hp => ?_⟩
        rw [(hfinished p (List.mem_of_mem_tail hp)).2]
        simp
    | true =>
        obtain ⟨p, rest, hp, hcurrent, hrest⟩ := hs.inv.polls.current hin
        have hfinished : ∀ q ∈ rest, InOrder table q ∧ q.last = some 0 := fun q hq =>
          hs.finished (hp ▸ List.mem_cons_of_mem _ hq) (hrest q hq)
        obtain ⟨device, m, -, -, -, rfl⟩ := hs.current (hp ▸ List.mem_cons_self) hcurrent
        rw [hp, List.forall_mem_cons]
        -- the poll under way has sent the first frames of the table
        refine ⟨⟨⟨rfl, List.take_prefix .., by simp⟩, fun q hq => (hfinished q hq).1⟩,
          fun q hq => ?_⟩
        rw [(hfinished q hq).2]
        simp
  refine ⟨hpolls.1, hpolls.2, hs.inv.polls.requests, fun r hr => ?_⟩
  rw [hs.inv.polls.requests] at hr
  obtain ⟨p, hp, hr⟩ := List.mem_flatMap.mp hr
  obtain ⟨q, hq, rfl⟩ := List.mem_map.mp hr
  exact isRequestFor_of_mem hpkg ((hpolls.1 p (List.mem_reverse.mp hp)).sent.subset hq)

/-- With one table the polling thread never reads past an end. -/
theorem OneTable.exists_step (hs : OneTable table s) (hpkg : ∀ point ∈ table, point.mpkg ≠ [])
    (hsame : SameTable table s (.line (.own .poll))) :
    ∃ t, s.step (.line (.own .poll)) = some t := by
  have hassemble : s.poll.pollPc = .assemble →
      ∃ t, assembleStep transparent anyReply s.poll = some t := by
    intro hpc
    obtain ⟨p, rest, hp, hcurrent, -⟩ := hs.inv.polls.current (by rw [hpc]; rfl)
    obtain ⟨device, m, at_it, hm, hcount, -⟩ := hs.current (hp ▸ List.mem_cons_self) hcurrent
    obtain ⟨⟨sendLen, sendBuf, m'⟩, assembled⟩ := exists_assemblePacket (hm ▸ hpkg)
    -- the copy that gives the titles is as long as the table of the object
    refine PollState.exists_assembleStep at_it assembled fun hlen => ?_
    obtain ⟨point, hpoint, -⟩ := assemblePacket_sent assembled hlen
    rw [hm, hcount, ← hsame.1] at hpoint
    exact (List.getElem?_eq_some_iff.mp hpoint).1
  obtain ⟨t, ht⟩ := hs.tracked.exists_pollStep hassemble
  have hpoll : s.poll.lineStep (.own .poll) = some { t with line := s.poll.line } :=
    congrArg (Option.map _) ht
  exact ⟨_, congrArg (Option.map _) hpoll⟩

/-- In every run in which the polling thread works with one table everywhere, whatever the objects,
their order and the bytes on the lines, the polls are in order and no step of it is undefined. -/
theorem poll_cycle {es : List (TableEvent δ)} (hpkg : ∀ point ∈ table, point.mpkg ≠ [])
    (hs : s.Initial) (hsame : StepsMeet step (SameTable table) s es)
    (hrun : run step s es = some s') :
    Cycles table s' ∧ (SameTable table s' (.line (.own .poll)) →
      ∃ t, s'.step (.line (.own .poll)) = some t) := by
  have hone : OneTable table s' :=
    hsame.invariant (OneTable table) (fun _ _ _ hs hsame h => hs.step hsame h) hs.oneTable hrun
  exact ⟨hone.cycles hpkg, hone.exists_step hpkg⟩

/-- A block of two registers. -/
private def statusBlock : ModbusPoint Decimal :=
  ⟨"系统状态", "", "", ⟨1000000⟩, "", 0, 0, [⟨0x04, (0x0B, 0xB8), (0x00, 0x02)⟩]⟩

/-- Another block, of one register. -/
private def gridInfoBlock : ModbusPoint Decimal :=
  ⟨"电网信息", "", "", ⟨1000000⟩, "", 0, 0, [⟨0x04, (0x0B, 0xC0), (0x00, 0x01)⟩]⟩

/-- A table of two blocks. -/
private def twoBlocks : List (ModbusPoint Decimal) := [statusBlock, gridInfoBlock]

/-- A step of the polling thread. -/
private def pollEvent : TableEvent Decimal := .line (.own .poll)

/-- A step of the receiving thread. -/
private def recvEvent (recvLen : ℕ) : TableEvent Decimal := .line (.own (.recv recvLen))

/-- A block is requested, and the slave answers with an error reply. -/
private def blockEvents (port : ℕ) : List (TableEvent Decimal) :=
  [pollEvent, pollEvent, pollEvent, .line (.arrive port [0x01, 0x83, 0x02, 0xC0, 0xF1]),
    recvEvent 0, recvEvent 0, recvEvent 5, recvEvent 0, recvEvent 0, pollEvent, pollEvent]

/-- The poll of one device, from its first request to the end of its table. -/
private def deviceEvents (port : ℕ) : List (TableEvent Decimal) :=
  pollEvent :: blockEvents port ++ blockEvents port ++ [pollEvent, pollEvent]

/-- Two devices are created, their tables come in the other order, and one round polls both. -/
private def firstRound : List (TableEvent Decimal) :=
  [.create "pcs" 0, .create "bms" 1, .deliver 1, .deliver 0, pollEvent] ++ deviceEvents 1 ++
    deviceEvents 0 ++ [pollEvent]

/-- The first round over two devices. -/
private theorem run_firstRound : ∃ s', run step (new twoBlocks) firstRound = some s' ∧
    s'.polls = [⟨"pcs", 0, 0, [(0, pointFrame statusBlock), (1, pointFrame gridInfoBlock)], some 0⟩,
      ⟨"bms", 1, 0, [(0, pointFrame statusBlock), (1, pointFrame gridInfoBlock)], some 0⟩] :=
  ⟨_, rfl, rfl⟩

/-- In which no other table is read. -/
private theorem sameTable_firstRound :
    StepsMeet step (SameTable twoBlocks) (new twoBlocks) firstRound := by
  decide +kernel

/-- Both devices are asked for both blocks. -/
theorem poll_cycle_firstRound : ∃ s', run step (new twoBlocks) firstRound = some s' ∧
    s'.polls = [⟨"pcs", 0, 0, [(0, pointFrame statusBlock), (1, pointFrame gridInfoBlock)], some 0⟩,
      ⟨"bms", 1, 0, [(0, pointFrame statusBlock), (1, pointFrame gridInfoBlock)], some 0⟩] ∧
    Cycles twoBlocks s' := by
  obtain ⟨s', hrun, hpolls⟩ := run_firstRound
  exact ⟨s', hrun, hpolls,
    (poll_cycle (by decide) (initial_new _) sameTable_firstRound hrun).1⟩

end TableState

end CsiFirmware.Task
