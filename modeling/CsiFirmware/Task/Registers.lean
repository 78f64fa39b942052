import CsiFirmware.Task.PollResult
import CsiFirmware.Task.ReadOffsets
import CsiFirmware.Task.RoundProgress

/-!
# From registers to readings

Reference: `TaskSerial::serialTaskRun`, `TaskSerial::sendPacketProc` and
`TaskSerial::handleAllRecvData`.

All objects have read one block table, which is also the one in `v_point`. Then the publications are
batches of requests: the `j`-th holds the answers to the requests from `j * n` on, where `n` is the
number of blocks (`published_batch`). If the slaves answer with the registers asked for, and the
register table fits the blocks, what is published are the registers (`published_readings`).
-/

namespace CsiFirmware.Task

open Protocol Runs

variable {δ : Type} [CDouble δ]

/-! ## Batches -/

/-- The blocks of the first `count` requests from `first` on. -/
def blocksFrom (answer : ℕ → Answer) (table : List (ModbusPoint δ)) (first count : ℕ) :
    List (RTSrcInfo δ) :=
  (table.take count).mapIdx fun i block => answerInfo block.name (answer (first + i))

/-- The next block is added at the end. -/
theorem blocksFrom_succ {answer : ℕ → Answer} {table : List (ModbusPoint δ)} {first count : ℕ}
    {block : ModbusPoint δ} (h : table[count]? = some block) :
    blocksFrom answer table first (count + 1) =
      blocksFrom answer table first count ++ [answerInfo block.name (answer (first + count))] := by
  obtain ⟨hlt, -⟩ := List.getElem?_eq_some_iff.mp h
  rw [blocksFrom, List.take_add_one, h, Option.toList_some, List.mapIdx_append, blocksFrom,
    List.length_take, Nat.min_eq_left hlt.le, List.mapIdx_singleton, Nat.zero_add]

/-- The requests from `first` on are those of the device for the first `count` blocks. -/
def Asked (table : List (ModbusPoint δ)) (requests : List Request) (first : ℕ) (device : String)
    (count : ℕ) : Prop :=
  ∀ i < count, ∃ block, table[i]? = some block ∧
    requests[first + i]? = some ⟨device, i, pointFrame block⟩

namespace Asked

omit [CDouble δ]

variable {table : List (ModbusPoint δ)} {requests requests' : List Request} {first count : ℕ}
  {device : String}

/-- Further requests do not matter. -/
theorem mono (h : Asked table requests first device count) (hpre : requests <+: requests') :
    Asked table requests' first device count := by
  intro i hi
  obtain ⟨block, hblock, hrequest⟩ := h i hi
  obtain ⟨rest, rfl⟩ := hpre
  obtain ⟨hlt, -⟩ := List.getElem?_eq_some_iff.mp hrequest
  exact ⟨block, hblock, by rw [List.getElem?_append_left hlt, hrequest]⟩

/-- No more blocks are asked for than the table has. -/
theorem le_length (h : Asked table requests first device count) : count ≤ table.length := by
  cases count with
  | zero => exact Nat.zero_le _
  | succ count =>
      obtain ⟨block, hblock, -⟩ := h count (Nat.lt_succ_self count)
      exact (List.getElem?_eq_some_iff.mp hblock).1

/-- The request for the next block. -/
theorem succ (h : Asked table requests first device count)
    (hlength : requests.length = first + count) {block : ModbusPoint δ}
    (hblock : table[count]? = some block) :
    Asked table (requests ++ [⟨device, count, pointFrame block⟩]) first device (count + 1) := by
  intro i hi
  rcases Nat.lt_succ_iff_lt_or_eq.mp hi with hi | rfl
  · exact h.mono (List.prefix_append ..) i hi
  · exact ⟨block, hblock, by rw [← hlength, List.getElem?_concat_length]⟩

end Asked

/-- An event that brings no other table than this one. -/
def SlaveEvent.Supplies (table : List (ModbusPoint δ)) : SlaveEvent δ → Prop
  | .own (.point msg) => msg = table
  | .own (.devices protocolInfoMap) => ∀ p ∈ protocolInfoMap, p.2.vPoint = table ∧ p.2.nextPkg = 0
  | _ => True

namespace SlaveState

variable (answer : ℕ → Answer) (table : List (ModbusPoint δ))

/-- The first request of the poll that is published next. -/
def first (s : PollState δ) : ℕ := s.published.length * table.length

/-- The polling thread is between two devices. -/
structure Between (s : PollState δ) : Prop where
  counters : ∀ p ∈ s.protocolInfoMap, p.2.nextPkg = 0
  requests : s.requests.length = first table s

/-- The blocks up to `count` have been collected, and `pending` more have been requested. -/
structure Underway (s : PollState δ) (count pending : ℕ) : Prop where
  current : ∃ device m, s.protocolInfoMap[s.it]? = some (device, m) ∧
    m.nextPkg = count + pending ∧ Asked table s.requests (first table s) device (count + pending)
  pointCount : s.pointCount = count + pending
  requests : s.requests.length = first table s + (count + pending)
  blocks : s.vRtSrcInfo = blocksFrom answer table (first table s) count
  others : ∀ i p, s.protocolInfoMap[i]? = some p → i ≠ s.it → p.2.nextPkg = 0

/-- All blocks of the device have been collected. -/
structure Collected (s : PollState δ) : Prop where
  counters : ∀ p ∈ s.protocolInfoMap, p.2.nextPkg = 0
  current : ∃ device m, s.protocolInfoMap[s.it]? = some (device, m) ∧
    Asked table s.requests (first table s) device table.length
  requests : s.requests.length = first table s + table.length
  blocks : s.vRtSrcInfo = blocksFrom answer table (first table s) table.length

/-- What is known of the batch under way, by the place of the polling thread. -/
def BatchPhase (s : PollState δ) : Prop :=
  match s.pollPc with
  | .idle | .next => Between table s
  | .assemble => ∃ count, Underway answer table s count 0
  | .disarm | .notify | .parse | .retryDisarm | .retryNotify | .answered =>
      ∃ count block, Underway answer table s count 1 ∧ table[count]? = some block ∧
        s.rtSrcInfo.title = block.name
  | .publish => Collected answer table s

/-- A publication: the requests from `first` on, and the answers to them. -/
structure Batch (requests : List Request) (first : ℕ) (p : String × List (RTSrcInfo δ)) :
    Prop where
  asked : Asked table requests first p.1 table.length
  blocks : p.2 = blocksFrom answer table first table.length

/-- `v_point` and the objects hold the table, and every publication is a batch. -/
structure Batches (s : PollState δ) : Prop where
  vPoint : s.vPoint = table
  objects : ∀ p ∈ s.protocolInfoMap, p.2.vPoint = table
  phase : BatchPhase answer table s
  published : ∀ j p, s.published[j]? = some p →
    Batch answer table s.requests (j * table.length) p

/-! ### One step -/

variable {answer table} {s t : PollState δ} {count pending : ℕ}

/-- A step that changes nothing that a batch speaks of. -/
structure SameBatch (s t : PollState δ) : Prop where
  protocolInfoMap : t.protocolInfoMap = s.protocolInfoMap
  it : t.it = s.it
  pointCount : t.pointCount = s.pointCount
  requests : t.requests = s.requests
  vRtSrcInfo : t.vRtSrcInfo = s.vRtSrcInfo
  published : t.published = s.published

omit [CDouble δ] in
/-- The batch under way begins at the same request. -/
theorem SameBatch.first_eq (h : SameBatch s t) : first table t = first table s := by
  rw [first, first, h.published]

omit [CDouble δ] in
/-- The same before the next device. -/
theorem Between.congr (h : Between table s) (hsame : SameBatch s t) : Between table t where
  counters := by
    rw [hsame.protocolInfoMap]
    exact h.counters
  requests := by
    rw [hsame.requests, hsame.first_eq]
    exact h.requests

/-- The same while a device is polled. -/
theorem Underway.congr (h : Underway answer table s count pending) (hsame : SameBatch s t) :
    Underway answer table t count pending where
  current := by
    rw [hsame.protocolInfoMap, hsame.it, hsame.requests, hsame.first_eq]
    exact h.current
  pointCount := hsame.pointCount.trans h.pointCount
  requests := by
    rw [hsame.requests, hsame.first_eq]
    exact h.requests
  blocks := by
    rw [hsame.vRtSrcInfo, hsame.first_eq]
    exact h.blocks
  others := by
    rw [hsame.protocolInfoMap, hsame.it]
    exact h.others

/-- The same before the publication. -/
theorem Collected.congr (h : Collected answer table s) (hsame : SameBatch s t) :
    Collected answer table t where
  counters := by
    rw [hsame.protocolInfoMap]
    exact h.counters
  current := by
    rw [hsame.protocolInfoMap, hsame.it, hsame.requests, hsame.first_eq]
    exact h.current
  requests := by
    rw [hsame.requests, hsame.first_eq]
    exact h.requests
  blocks := by
    rw [hsame.vRtSrcInfo, hsame.first_eq]
    exact h.blocks

/-- Where the program counter stays, so does the phase. -/
theorem BatchPhase.congr (h : BatchPhase answer table s) (hsame : SameBatch s t)
    (hpc : t.pollPc = s.pollPc) (htitle : t.rtSrcInfo.title = s.rtSrcInfo.title) :
    BatchPhase answer table t := by
  simp only [BatchPhase, hpc] at h ⊢
  cases hs : s.pollPc with
  | idle | next =>
      simp only [hs] at h
      exact h.congr hsame
  | assemble =>
      simp only [hs] at h
      obtain ⟨count, hunderway⟩ := h
      exact ⟨count, hunderway.congr hsame⟩
  | disarm | notify | parse | retryDisarm | retryNotify | answered =>
      simp only [hs] at h
      obtain ⟨count, block, hunderway, hblock, hname⟩ := h
      exact ⟨count, block, hunderway.congr hsame, hblock, htitle.trans hname⟩
  | publish =>
      simp only [hs] at h
      exact h.congr hsame

/-- Between two devices a poll may begin. -/
theorem Between.startDevice {device : String} {m : Modbus δ} (h : Between table s)
    (at_it : s.protocolInfoMap[s.it]? = some (device, m)) :
    Underway answer table
      { s with vRtSrcInfo := [], pointCount := 0, pit := some m.serial, pollPc := .assemble }
      0 0 where
  current := ⟨device, m, at_it, h.counters _ (List.mem_of_getElem? at_it), nofun⟩
  pointCount := rfl
  requests := h.requests
  blocks := rfl
  others _ p hp _ := h.counters p (List.mem_of_getElem? hp)

/-- The frame of the next block is sent. -/
theorem Underway.request {device : String} {m m' : Modbus δ} {sendLen : Int} {sendBuf : List UInt8}
    {block : ModbusPoint δ} {title : String} (h : Underway answer table s count 0)
    (hm : m.vPoint = table) (at_it : s.protocolInfoMap[s.it]? = some (device, m))
    (assembled : assemblePacket m = some (sendLen, sendBuf, m')) (sent : sendLen ≠ -1)
    (hblock : table[count]? = some block) :
    Underway answer table
      { s with
        protocolInfoMap := s.protocolInfoMap.set s.it (device, m')
        requests := s.requests ++ [⟨device, s.pointCount, sendBuf⟩]
        rtSrcInfo := { RTSrcInfo.fresh with title }
        pointCount := s.pointCount + 1
        pollPc := .disarm } count 1 := by
  obtain ⟨name, m₁, at_it₁, hnext, hasked⟩ := h.current
  obtain ⟨rfl, rfl⟩ : device = name ∧ m = m₁ :=
    Prod.mk.inj (Option.some.inj (at_it.symm.trans at_it₁))
  obtain ⟨point, hpoint, rfl, rfl⟩ := assemblePacket_sent assembled sent
  rw [hm, hnext, Nat.add_zero] at hpoint
  -- the frame is that of the block the counter stands at
  obtain rfl : block = point := Option.some.inj (hblock.symm.trans hpoint)
  refine ⟨⟨device, _, PollState.device_set at_it, congrArg (· + 1) hnext, ?_⟩,
    congrArg (· + 1) h.pointCount, ?_, h.blocks, fun i p hp hne => ?_⟩
  · rw [h.pointCount]
    exact hasked.succ h.requests hblock
  · rw [List.length_append, h.requests]
    rfl
  · rw [List.getElem?_set_ne (Ne.symm hne)] at hp
    exact h.others i p hp hne

/-- After the last block the counter starts again. -/
theorem Underway.endDevice {device : String} {m m' : Modbus δ} {sendBuf : List UInt8}
    (h : Underway answer table s count 0) (hm : m.vPoint = table)
    (at_it : s.protocolInfoMap[s.it]? = some (device, m))
    (assembled : assemblePacket m = some (-1, sendBuf, m')) :
    Collected answer table { s with
      protocolInfoMap := s.protocolInfoMap.set s.it (device, m')
      pollPc := .publish } := by
  obtain ⟨name, m₁, at_it₁, hnext, hasked⟩ := h.current
  obtain ⟨rfl, rfl⟩ : device = name ∧ m = m₁ :=
    Prod.mk.inj (Option.some.inj (at_it.symm.trans at_it₁))
  obtain ⟨hle, rfl⟩ := assemblePacket_end assembled
  -- the counter has passed the last block, and every block up to it is one of the table
  have hcount : count = table.length := by
    have hge := hasked.le_length
    rw [hm] at hle
    omega
  subst hcount
  refine ⟨fun p hp => ?_, ⟨device, _, PollState.device_set at_it, hasked⟩, h.requests, h.blocks⟩
  obtain ⟨i, hi⟩ := List.mem_iff_getElem?.mp hp
  by_cases hit : i = s.it
  · subst hit
    rw [PollState.device_set at_it] at hi
    obtain rfl := Option.some.inj hi
    rfl
  · rw [List.getElem?_set_ne (Ne.symm hit)] at hi
    exact h.others i p hi hit

/-- The answer to the pending request is added. -/
theorem Underway.answered {block : ModbusPoint δ} {result : PollResult δ}
    (h : Underway answer table s count 1) (hblock : table[count]? = some block)
    (hinfo : s.rtSrcInfo = answerInfo block.name (answer (first table s + count))) :
    Underway answer table
      { s with
        results := s.results ++ [result]
        vRtSrcInfo := s.vRtSrcInfo ++ [s.rtSrcInfo]
        pollPc := .assemble } (count + 1) 0 where
  current := h.current
  pointCount := h.pointCount
  requests := h.requests
  blocks := by
    show s.vRtSrcInfo ++ [s.rtSrcInfo] = blocksFrom answer table (first table s) (count + 1)
    -- its answer has the number of the last request
    rw [h.blocks, hinfo, blocksFrom_succ hblock]
  others := h.others

/-- What is published is a batch, and the next one begins behind it. -/
theorem Collected.publish {device : String} {m : Modbus δ} (h : Collected answer table s)
    (at_it : s.protocolInfoMap[s.it]? = some (device, m)) :
    Batch answer table s.requests (first table s) (device, s.vRtSrcInfo) ∧
      Between table { s with
        published := s.published ++ [(device, s.vRtSrcInfo)]
        vRtSrcInfo := []
        it := s.it + 1
        pollPc := .next } := by
  obtain ⟨name, m₁, at_it₁, hasked⟩ := h.current
  obtain rfl : device = name := (Prod.mk.inj (Option.some.inj (at_it.symm.trans at_it₁))).1
  refine ⟨⟨hasked, h.blocks⟩, h.counters, ?_⟩
  rw [first, List.length_append, List.length_singleton, Nat.succ_mul]
  exact h.requests

omit [CDouble δ] in
/-- `AssemblePacket` keeps the table of an object. -/
theorem objects_set {device : String} {m m' : Modbus δ} {sendLen : Int} {sendBuf : List UInt8}
    (h : ∀ p ∈ s.protocolInfoMap, p.2.vPoint = table)
    (at_it : s.protocolInfoMap[s.it]? = some (device, m))
    (assembled : assemblePacket m = some (sendLen, sendBuf, m')) :
    ∀ p ∈ s.protocolInfoMap.set s.it (device, m'), p.2.vPoint = table := by
  intro p hp
  rcases List.mem_or_eq_of_mem_set hp with hp | rfl
  · exact h p hp
  · exact (TableState.vPoint_of_assemblePacket assembled).trans (h _ (List.mem_of_getElem? at_it))

/-- Further requests do not matter for a publication. -/
theorem Batch.mono {requests requests' : List Request} {first : ℕ}
    {p : String × List (RTSrcInfo δ)} (h : Batch answer table requests first p)
    (hpre : requests <+: requests') : Batch answer table requests' first p :=
  ⟨h.asked.mono hpre, h.blocks⟩

/-- A step that publishes nothing. -/
theorem Batches.keep (h : Batches answer table s) (hvPoint : t.vPoint = table)
    (hobjects : ∀ p ∈ t.protocolInfoMap, p.2.vPoint = table)
    (hphase : BatchPhase answer table t) (hpre : s.requests <+: t.requests)
    (hpublished : t.published = s.published) : Batches answer table t where
  vPoint := hvPoint
  objects := hobjects
  phase := hphase
  published j p hp := by
    rw [hpublished] at hp
    exact (h.published j p hp).mono hpre

/-- A step that leaves the tables and the batches as they are. -/
theorem Batches.stay (h : Batches answer table s) (hvPoint : t.vPoint = s.vPoint)
    (hsame : SameBatch s t) (hphase : BatchPhase answer table t) : Batches answer table t :=
  h.keep (hvPoint.trans h.vPoint) (by rw [hsame.protocolInfoMap]; exact h.objects) hphase
    (by rw [hsame.requests]) hsame.published

omit [CDouble δ] in
/-- An attempt does not touch the title. -/
theorem parsePacketProc_title (info : RTSrcInfo δ) (b : List UInt8) :
    (parsePacketProc info b).rtSrcInfo.title = info.title := by
  simp only [parsePacketProc]
  split_ifs <;> rfl

/-- The frame of the next block is sent. -/
theorem Batches.request {device : String} {m m' : Modbus δ} {sendLen : Int} {sendBuf : List UInt8}
    {point : ModbusPoint δ} (h : Batches answer table s) (pc : s.pollPc = .assemble)
    (at_it : s.protocolInfoMap[s.it]? = some (device, m))
    (assembled : assemblePacket m = some (sendLen, sendBuf, m')) (sent : sendLen ≠ -1)
    (at_point : s.vPoint[s.pointCount]? = some point) :
    Batches answer table { s with
      protocolInfoMap := s.protocolInfoMap.set s.it (device, m')
      requests := s.requests ++ [⟨device, s.pointCount, sendBuf⟩]
      rtSrcInfo := { RTSrcInfo.fresh with title := point.name }
      pointCount := s.pointCount + 1
      pollPc := .disarm } := by
  have hphase := h.phase
  simp only [BatchPhase, pc] at hphase
  obtain ⟨count, hunderway⟩ := hphase
  have hm := h.objects _ (List.mem_of_getElem? at_it)
  rw [h.vPoint, hunderway.pointCount, Nat.add_zero] at at_point
  exact h.keep h.vPoint (objects_set h.objects at_it assembled)
    ⟨count, point, hunderway.request hm at_it assembled sent at_point, at_point, rfl⟩
    (List.prefix_append ..) rfl

/-- The last block has been answered. -/
theorem Batches.endDevice {device : String} {m m' : Modbus δ} {sendBuf : List UInt8}
    (h : Batches answer table s) (pc : s.pollPc = .assemble)
    (at_it : s.protocolInfoMap[s.it]? = some (device, m))
    (assembled : assemblePacket m = some (-1, sendBuf, m')) :
    Batches answer table { s with
      protocolInfoMap := s.protocolInfoMap.set s.it (device, m')
      pollPc := .publish } := by
  have hphase := h.phase
  simp only [BatchPhase, pc] at hphase
  obtain ⟨count, hunderway⟩ := hphase
  have hm := h.objects _ (List.mem_of_getElem? at_it)
  exact h.keep h.vPoint (objects_set h.objects at_it assembled)
    (hunderway.endDevice hm at_it assembled) List.prefix_rfl rfl

/-- While the polling thread waits for an answer, its batch stays. -/
theorem Batches.waits (h : Batches answer table s) (hstage : s.pollPc.stage = .waiting)
    (hstage' : t.pollPc.stage = .waiting ∨ t.pollPc.stage = .answered)
    (hvPoint : t.vPoint = s.vPoint) (hsame : SameBatch s t)
    (htitle : t.rtSrcInfo.title = s.rtSrcInfo.title) : Batches answer table t := by
  have hwaiting : ∃ count block, Underway answer table s count 1 ∧
      table[count]? = some block ∧ s.rtSrcInfo.title = block.name := by
    have hphase := h.phase
    cases hpc : s.pollPc with
    | disarm | notify | parse | retryDisarm | retryNotify =>
        simpa only [BatchPhase, hpc] using hphase
    | idle | next | assemble | answered | publish => simp [hpc, PollPc.stage] at hstage
  obtain ⟨count, block, hunderway, hblock, hname⟩ := hwaiting
  refine h.stay hvPoint hsame ?_
  cases hpc : t.pollPc with
  | disarm | notify | parse | retryDisarm | retryNotify | answered =>
      simpa only [BatchPhase, hpc] using
        ⟨count, block, hunderway.congr hsame, hblock, htitle.trans hname⟩
  | idle | next | assemble | publish => simp [hpc, PollPc.stage] at hstage'

/-- An attempt keeps the title, whether or not it succeeds. -/
theorem Batches.parse (h : Batches answer table s) (pc : s.pollPc = .parse) :
    Batches answer table (parseStep s) := by
  refine h.waits (by rw [pc]; rfl) ?_ rfl ⟨rfl, rfl, rfl, rfl, rfl, rfl⟩ (parsePacketProc_title ..)
  cases hall : (parsePacketProc s.rtSrcInfo s.totalRecvBuf).isRecvAll <;>
    simp [parseStep, hall, PollPc.stage]

/-- The answer to the last request, which is that for block `count`, is added. -/
theorem Batches.answered {result : PollResult δ} (h : Batches answer table s)
    (pc : s.pollPc = .answered) (hlast : s.requests.length = s.results.length + 1)
    (hinfo : s.rtSrcInfo = answerInfo s.rtSrcInfo.title (answer s.results.length)) :
    Batches answer table { s with
      results := s.results ++ [result]
      vRtSrcInfo := s.vRtSrcInfo ++ [s.rtSrcInfo]
      pollPc := .assemble } := by
  have hphase := h.phase
  simp only [BatchPhase, pc] at hphase
  obtain ⟨count, block, hunderway, hblock, hname⟩ := hphase
  -- one result for each request before the last
  have hresults : s.results.length = first table s + count := by
    have hlength := hunderway.requests
    omega
  rw [hname, hresults] at hinfo
  exact h.keep h.vPoint h.objects ⟨count + 1, hunderway.answered hblock hinfo⟩ List.prefix_rfl rfl

/-- The batch is published, and the next one begins. -/
theorem Batches.publish {device : String} {m : Modbus δ} (h : Batches answer table s)
    (pc : s.pollPc = .publish) (at_it : s.protocolInfoMap[s.it]? = some (device, m)) :
    Batches answer table { s with
      published := s.published ++ [(device, s.vRtSrcInfo)]
      vRtSrcInfo := []
      it := s.it + 1
      pollPc := .next } := by
  have hphase := h.phase
  simp only [BatchPhase, pc] at hphase
  obtain ⟨hbatch, hbetween⟩ := hphase.publish at_it
  refine ⟨h.vPoint, h.objects, hbetween, fun j p hp => ?_⟩
  rcases Threads.lookup_concat hp with hp | ⟨rfl, rfl⟩
  · exact h.published j p hp
  · exact hbatch

/-- The steps of the polling thread. -/
theorem Batches.poll {s s' : SlaveState δ} (h : Batches answer table s.poll)
    (hinv : s.Inv answer) (hs : s.step transparent answer (.own .poll) = some s') :
    Batches answer table s'.poll := by
  have hphase := h.phase
  cases step_transition hs with
  | request device m m' sendLen sendBuf point pc at_it assembled sent at_point =>
      exact h.request pc at_it assembled sent at_point
  | other e t ht hrequests =>
      cases ht with
      | startRound pc | endRound pc =>
          simp only [BatchPhase, pc] at hphase
          exact h.keep h.vPoint h.objects ⟨hphase.counters, hphase.requests⟩ List.prefix_rfl rfl
      | startDevice device m pc at_it =>
          simp only [BatchPhase, pc] at hphase
          exact h.keep h.vPoint h.objects ⟨0, hphase.startDevice at_it⟩ List.prefix_rfl rfl
      | endDevice device m m' sendBuf pc at_it assembled => exact h.endDevice pc at_it assembled
      -- the step that sends is the case before
      | request => simp at hrequests
      | disarm pc | retryDisarm pc =>
          exact h.waits (by rw [pc]; rfl) (.inl rfl) rfl ⟨rfl, rfl, rfl, rfl, rfl, rfl⟩ rfl
      | notify pc =>
          have hstage : s.poll.pollPc.stage = .waiting := by
            rcases pc with pc | pc <;> rw [pc] <;> rfl
          exact h.waits hstage (.inl rfl) rfl ⟨rfl, rfl, rfl, rfl, rfl, rfl⟩ rfl
      | parse pc => exact h.parse pc
      | answered request pc pending =>
          have hanswered := hinv.phase
          simp only [Phase, pc, PollPc.stage] at hanswered
          obtain ⟨-, -, -, ⟨last, hlast, -⟩, -, hinfo⟩ := hanswered
          refine h.answered pc ?_ hinfo
          rw [hlast, List.length_append, List.length_map, List.length_singleton]
      | publish device m pc at_it => exact h.publish pc at_it

/-- A step keeps the batches, if what it supplies holds the table. -/
theorem Batches.step {s s' : SlaveState δ} {e : SlaveEvent δ} (h : Batches answer table s.poll)
    (hinv : s.Inv answer) (he : e.Supplies table) (hs : s.step transparent answer e = some s') :
    Batches answer table s'.poll := by
  have hsame : ∀ {vPoint : List (ModbusPoint δ)} {isRecvRun : Bool} {totalRecvBuf : List UInt8}
      {line : ℕ → List UInt8} {recvPc : RecvPc}, vPoint = s.poll.vPoint →
      Batches answer table { s.poll with vPoint, isRecvRun, totalRecvBuf, line, recvPc } :=
    fun hvPoint => h.stay hvPoint ⟨rfl, rfl, rfl, rfl, rfl, rfl⟩
      (h.phase.congr ⟨rfl, rfl, rfl, rfl, rfl, rfl⟩ rfl rfl)
  cases e with
  | deliver port n =>
      obtain rfl := Option.some.inj hs
      exact hsame rfl
  | own e =>
      cases e with
      | poll => exact h.poll hinv hs
      | recv recvLen =>
          cases step_transition hs with
          | other _ t ht => cases ht <;> exact hsame rfl
      | spurious =>
          cases step_transition hs with
          | other _ t ht =>
              cases ht
              exact hsame rfl
      | point msg =>
          cases step_transition hs with
          | other _ t ht =>
              cases ht
              exact hsame (Eq.trans he h.vPoint.symm)
      | devices protocolInfoMap =>
          cases step_transition hs with
          | other _ t ht =>
              cases ht with
              | devices _ idle =>
                  have hphase := h.phase
                  simp only [BatchPhase, idle] at hphase
                  have hbetween : Between table { s.poll with protocolInfoMap } :=
                    ⟨fun p hp => (he p hp).2, hphase.requests⟩
                  -- new objects come between two rounds and have not sent anything
                  refine h.keep h.vPoint (fun p hp => (he p hp).1) ?_ List.prefix_rfl rfl
                  simpa only [BatchPhase, idle] using hbetween

/-! ### Whole runs -/

/-- The table is in `v_point` and in every object, before the first round. -/
structure Supplied (table : List (ModbusPoint δ)) (s : SlaveState δ) : Prop extends s.StartUp where
  vPoint : s.poll.vPoint = table
  objects : ∀ p ∈ s.poll.protocolInfoMap, p.2.vPoint = table ∧ p.2.nextPkg = 0

/-- At the start nothing is published. -/
theorem Supplied.batches {s : SlaveState δ} (h : s.Supplied table) :
    Batches answer table s.poll where
  vPoint := h.vPoint
  objects p hp := (h.objects p hp).1
  phase := by
    simp only [BatchPhase, h.poll.pollPc]
    refine ⟨fun p hp => (h.objects p hp).2, ?_⟩
    rw [first, h.poll.requests, h.poll.published]
    exact (Nat.zero_mul _).symm
  published j p hp := by simp [h.poll.published] at hp

/-- In every state of a run with one block table the publications come in batches. -/
theorem Supplied.batches_of_run {s₀ s : SlaveState δ} {es : List (SlaveEvent δ)}
    (hs₀ : s₀.Supplied table) (hes : ∀ e ∈ es, e.Supplies table)
    (hrun : run (SlaveState.step transparent answer) s₀ es = some s) :
    Batches answer table s.poll :=
  ((stepsMeet_of_forall hes s₀).invariant (fun s => s.Inv answer ∧ Batches answer table s.poll)
    (fun _ _ _ hs he h => ⟨hs.1.step h, hs.2.step hs.1 he h⟩)
    ⟨hs₀.toStartUp.inv, hs₀.batches⟩ hrun).2

/-- With one table everywhere and terminals that leave the answers alone, the `j`-th publication is
made of the requests from `j * n` on: those of one device for all `n` blocks in order, and the
answers to them, in the same order and each under the name of its block. No answer is lost, doubled
or given to another publication. -/
theorem published_batch {tty : ℕ → UInt8 → List UInt8} (hunaltered : Unaltered tty answer)
    {s₀ s : SlaveState δ} {es : List (SlaveEvent δ)} (hs₀ : s₀.Supplied table)
    (hes : ∀ e ∈ es, e.Supplies table) (hrun : run (step tty answer) s₀ es = some s) {j : ℕ}
    {p : String × List (RTSrcInfo δ)} (hp : s.poll.published[j]? = some p) :
    Batch answer table s.poll.requests (j * table.length) p := by
  rw [step_eq_of_unaltered hunaltered] at hrun
  exact (hs₀.batches_of_run hes hrun).published j p hp

section Example

/-- Two registers. -/
def deviceBlock : ModbusPoint Decimal :=
  ⟨"设备信息", "", "", ⟨1000000⟩, "", 0, 0, [⟨0x03, (0x0C, 0xE4), (0x00, 0x02)⟩]⟩

/-- The registers 3300 and 3301, which hold their own addresses. -/
def deviceAnswer : Answer :=
  .positive ⟨0x01, 0x03, [0x0C, 0xE4, 0x0C, 0xE5], (0x00, 0x00), (anyReply 0).func_eq, by decide,
    by decide⟩

/-- One device, on port 7. -/
def oneDevice : SlaveState Decimal :=
  ⟨PollState.new [("A", Modbus.new [deviceBlock] 7)] [deviceBlock], fun _ => []⟩

/-- A round, from the first request to the publication. -/
def deviceRound : List (SlaveEvent Decimal) :=
  let poll : SlaveEvent Decimal := .own .poll
  let recv (n : ℕ) : SlaveEvent Decimal := .own (.recv n)
  [poll, poll, poll, poll, poll, recv 0, recv 0, .deliver 7 9, recv 512, recv 0, poll, poll, poll,
    poll]

/-- The answer has no carriage return. -/
theorem unaltered_deviceAnswer : Unaltered linuxTty fun _ => deviceAnswer :=
  unaltered_icrnl fun _ => by decide

/-- One device with one block. -/
theorem supplied_oneDevice : oneDevice.Supplied [deviceBlock] where
  poll := PollState.startUp_new _ _
  owed _ := rfl
  vPoint := rfl
  objects p hp := by
    obtain rfl := List.mem_singleton.mp hp
    exact ⟨rfl, rfl⟩

/-- Nothing but the table is supplied in the round. -/
theorem supplies_deviceRound : ∀ e ∈ deviceRound, e.Supplies [deviceBlock] := by
  simp [deviceRound, SlaveEvent.Supplies]

/-- The round asks for the block once and publishes the answer. -/
private theorem run_deviceRound :
    ∃ s, run (step linuxTty fun _ => deviceAnswer) oneDevice deviceRound = some s ∧
       s.poll.requests = [⟨"A", 0, pointFrame deviceBlock⟩] ∧
    s.poll.published = [("A", [answerInfo "设备信息" deviceAnswer])] := by
  obtain ⟨s, hrun, hdone⟩ := Option.map_eq_some_iff.mp
    (show (run (step linuxTty fun _ => deviceAnswer) oneDevice deviceRound).map
        (fun s => (s.poll.requests, s.poll.published)) =
      some ([⟨"A", 0, pointFrame deviceBlock⟩], [("A", [answerInfo "设备信息" deviceAnswer])]) by
        decide +kernel)
  exact ⟨s, hrun, Prod.mk.inj hdone⟩

/-- The publication is the batch of that request. -/
theorem published_batch_device : ∃ s,
    run (step linuxTty fun _ => deviceAnswer) oneDevice deviceRound = some s ∧
    Batch (fun _ => deviceAnswer) [deviceBlock] s.poll.requests (0 * 1)
      ("A", [answerInfo "设备信息" deviceAnswer]) := by
  obtain ⟨s, hrun, -, hpublished⟩ := run_deviceRound
  exact ⟨s, hrun, published_batch unaltered_deviceAnswer supplied_oneDevice supplies_deviceRound
    hrun (by rw [hpublished]; rfl)⟩

end Example

end SlaveState

/-! ## Registers -/

/-- The data of a reply to a request for `count` registers from `base` on. -/
def registerData (read : ℕ → UInt16) (base count : ℕ) : List UInt8 :=
  (List.range count).flatMap fun i => BigEndian.bytes 2 (read (base + i)).toNat

omit [CDouble δ] in
/-- The two bytes of a register. -/
theorem drop_registerData {read : ℕ → UInt16} {base count i : ℕ} (hi : i < count) :
    ((registerData read base count).drop (2 * i)).take 2 =
      BigEndian.bytes 2 (read (base + i)).toNat := by
  have hplace : (2 * i, i) ∈ Layout.place (fun _ => 2) 0 (List.range count) := by
    refine Layout.mem_place_iff.mpr ⟨List.range i, (List.range count).drop (i + 1), ?_, ?_⟩
    · have hrange : i < (List.range count).length := by simpa using hi
      have hsplit := List.take_append_drop i (List.range count)
      rw [List.drop_eq_getElem_cons hrange, List.getElem_range, List.take_range,
        Nat.min_eq_left hi.le] at hsplit
      exact hsplit.symm
    · simp [Layout.size, Nat.mul_comm]
  have hbytes : ∀ i, (BigEndian.bytes 2 (read (base + i)).toNat).length = 2 := fun _ =>
    BigEndian.length_bytes 2 _
  exact Layout.take_drop_of_mem_place hbytes hplace

/-- The slave answers the request with the registers asked for. -/
def IsReadReply (read : UInt8 → ℕ → UInt16) (frame : List UInt8) (a : Answer) : Prop :=
  ∃ r : PositiveReply, a = .positive r ∧
    r.data = registerData (read (frame.getD 1 0)) (regValue (frame.getD 2 0, frame.getD 3 0))
      (regValue (frame.getD 4 0, frame.getD 5 0))

/-- The register at an address that the request for a block asks for. -/
def blockRegister (read : UInt8 → ℕ → UInt16) (block : ModbusPoint δ) (addr : ℕ) : UInt16 :=
  match block.mpkg with
  | pkg :: _ => read pkg.func addr
  | [] => 0

/-- The entry for a table point and the value of its register. -/
def reading [DecidableEq δ] (title : String) (point : ModbusPoint δ) (value : UInt16) :
    RTSrcInfo δ :=
  { title, sourceName := point.name, buf := [], unit := point.unit
    value :=
      if point.factor ≠ CDouble.one then
        ⟨-1, CDouble.scale value.toNat point.factor, "NULL"⟩
      else ⟨value.toNat, CDouble.negOne, "NULL"⟩ }

/-- What a poll shows if block `i` is answered with `read i`. -/
def readings [DecidableEq δ] (read : ℕ → UInt8 → ℕ → UInt16)
    (table vPoints : List (ModbusPoint δ)) : List (RTSrcInfo δ) :=
  (table.mapIdx fun i block => (addressWindows block.name).flatMap fun window =>
    (windowPoints vPoints window).map fun point =>
      reading block.name point (blockRegister (read i) block (merged point))).flatten

/-- The register table fits a block: the points in each of its windows are words, and the bytes of
those before a point are those of the registers between the start of the block and that point. -/
def Fits (vPoints : List (ModbusPoint δ)) (block : ModbusPoint δ) : Prop :=
  block.mpkg ≠ [] ∧ ∀ pkg ∈ block.mpkg.head?, ∀ window ∈ addressWindows block.name,
    ∀ p ∈ Layout.place pointWidth 0 (windowPoints vPoints window),
      (p.2.dataType = "U16" ∨ p.2.dataType = "S16") ∧
        regValue pkg.reg ≤ merged p.2 ∧ merged p.2 < regValue pkg.reg + regValue pkg.len ∧
        p.1 = 2 * (merged p.2 - regValue pkg.reg)

instance (vPoints : List (ModbusPoint δ)) (block : ModbusPoint δ) :
    Decidable (Fits vPoints block) :=
  inferInstanceAs (Decidable (_ ∧ ∀ pkg ∈ block.mpkg.head?, _))

variable {vPoints : List (ModbusPoint δ)} {block : ModbusPoint δ} {a : Answer}

/-- What is handed on for a positive reply. -/
theorem answerInfo_positive (title : String) (r : PositiveReply) :
    (answerInfo title (.positive r) : RTSrcInfo δ) =
      { (RTSrcInfo.fresh : RTSrcInfo δ).setIdata r.data.length with title, buf := r.data } := by
  rw [answerInfo, Answer.positive, parsePacketProc_bytes]
  rfl

omit [CDouble δ] in
/-- A decoder that reads at a register gets its value. -/
theorem value_decode_register {u : Undefined} {it : RTSrcInfo δ} {read : ℕ → UInt16}
    {base count addr : ℕ} {point : ModbusPoint δ} (hbuf : it.buf = registerData read base count)
    (htype : point.dataType = "U16" ∨ point.dataType = "S16") (hbase : base ≤ addr)
    (hlast : addr < base + count) :
    (decode u it (2 * (addr - base)) point).value = (read addr).toNat := by
  have hbytes := @drop_registerData read base count (addr - base) (by omega)
  rw [← hbuf, Nat.add_sub_cancel' hbase] at hbytes
  have hread : ∀ j < 2, ∀ b, (BigEndian.bytes 2 (read addr).toNat)[j]? = some b →
      readByte u it (2 * (addr - base) + j) = b := by
    intro j hj b hb
    rw [← hbytes, List.getElem?_take_of_lt hj, List.getElem?_drop] at hb
    rw [readByte, List.getD_eq_getElem?_getD, hb]
    rfl
  have hvalue := BigEndian.value_bytes 2 (read addr).toNat
  have hlt := (read addr).toNat_lt
  rw [value_decode_word htype, hread 1 (by decide) _ rfl]
  rw [show readByte u it (2 * (addr - base)) = _ from hread 0 (by decide) _ rfl]
  change ((BigEndian.value (BigEndian.bytes 2 (read addr).toNat) : ℕ) : Int) = _
  rw [hvalue, Nat.mod_eq_of_lt (by omega)]

/-- A block that is answered with its registers and that the register table fits is decoded to
them. -/
theorem map_entry_block [DecidableEq δ] {u : Undefined} {read : UInt8 → ℕ → UInt16}
    (ha : IsReadReply read (pointFrame block) a) (hfits : Fits vPoints block) :
    ((addressWindows block.name).flatMap
        (windowEntries u vPoints (answerInfo block.name a))).map Decoded.entry =
      (addressWindows block.name).flatMap fun window =>
        (windowPoints vPoints window).map fun point =>
          reading block.name point (blockRegister read block (merged point)) := by
  obtain ⟨r, rfl, hdata⟩ := ha
  obtain ⟨hne, hfits⟩ := hfits
  obtain ⟨pkg, pkgs, hpkg⟩ := List.exists_cons_of_ne_nil hne
  have hframe : pointFrame block = requestFrame pkg := by rw [pointFrame, hpkg]
  rw [hframe] at hdata
  change r.data = registerData (read pkg.func) (regValue pkg.reg) (regValue pkg.len) at hdata
  have hcarries : CarriesData (answerInfo block.name (.positive r) : RTSrcInfo δ) := by
    have hpos := r.data_pos
    rw [answerInfo_positive]
    exact ⟨by simp only [RTSrcInfo.setIdata]; omega, by simp only [RTSrcInfo.setIdata]; omega⟩
  rw [List.map_flatMap]
  refine List.flatMap_congr fun window hwindow => ?_
  have hplaced : ∀ p ∈ Layout.place pointWidth 0 (windowPoints vPoints window),
      (decode u (answerInfo block.name (.positive r)) p.1 p.2).entry =
        reading block.name p.2 (blockRegister read block (merged p.2)) := by
    intro p hp
    obtain ⟨htype, hbase, hlast, hcount⟩ := hfits pkg (by rw [hpkg]; rfl) window hwindow p hp
    have hbuf : (answerInfo block.name (.positive r) : RTSrcInfo δ).buf =
        registerData (read pkg.func) (regValue pkg.reg) (regValue pkg.len) := by
      rw [answerInfo_positive]
      exact hdata
    have hvalue := value_decode_register (u := u) hbuf htype hbase hlast
    rw [← hcount] at hvalue
    rw [Decoded.entry, hvalue, blockRegister, hpkg, answerInfo_positive]
    rfl
  rw [windowEntries, if_pos hcarries, List.map_map]
  calc (Layout.place pointWidth 0 (windowPoints vPoints window)).map
        (Decoded.entry ∘ fun p => decode u (answerInfo block.name (.positive r)) p.1 p.2)
      = (Layout.place pointWidth 0 (windowPoints vPoints window)).map
          ((fun point => reading block.name point (blockRegister read block (merged point))) ∘
            Prod.snd) := List.map_congr_left hplaced
    _ = _ := by rw [← List.map_map, Layout.map_snd_place]

/-! ## What is published -/

namespace SlaveState

variable [DecidableEq δ] {answer : ℕ → Answer} {table : List (ModbusPoint δ)} {s₀ s : SlaveState δ}
  {es : List (SlaveEvent δ)}

/-- The slave that request `k` was sent to answers it with the registers it has then. -/
def Honest (registers : ℕ → String → UInt8 → ℕ → UInt16) (answer : ℕ → Answer)
    (s : SlaveState δ) : Prop :=
  ∀ k r, s.poll.requests[k]? = some r → IsReadReply (registers k r.device) r.frame (answer k)

/-- A batch with honest answers is decoded to the registers of its device. -/
theorem Batch.pollResult_eq {registers : ℕ → String → UInt8 → ℕ → UInt16} {first : ℕ}
    {p : String × List (RTSrcInfo δ)} (h : Batch answer table s.poll.requests first p)
    (hhonest : s.Honest registers answer) (hfits : ∀ block ∈ table, Fits vPoints block)
    (u : Undefined) (vSingle : List (RTSrcInfo δ)) :
    pollResult u vPoints vSingle p.2 =
      readings (fun i => registers (first + i) p.1) table vPoints := by
  rw [Task.pollResult_eq, vSingleRTSrcInfo, handleAllRecvData_eq, h.blocks, blocksFrom,
    List.take_length, List.flatMap_def, List.map_flatten, List.map_map, readings]
  refine congrArg List.flatten (List.ext_getElem? fun i => ?_)
  rw [List.getElem?_map, List.getElem?_mapIdx, List.getElem?_mapIdx]
  cases hblock : table[i]? with
  | none => rfl
  | some block =>
      obtain ⟨hlt, -⟩ := List.getElem?_eq_some_iff.mp hblock
      obtain ⟨block', hblock', hrequest⟩ := h.asked i hlt
      obtain rfl : block = block' := Option.some.inj (hblock.symm.trans hblock')
      have hreply : IsReadReply (registers (first + i) p.1) (pointFrame block)
          (answer (first + i)) := hhonest _ _ hrequest
      have hentry := map_entry_block (u := u) hreply (hfits block (List.mem_of_getElem? hblock))
      simp only [Option.map_some, Function.comp_apply, answerInfo_title]
      exact congrArg some hentry

/-- From end to end: in every run with one block table, whatever the threads do and in whatever
pieces the replies arrive, if the slaves answer with the registers asked for, the terminals leave
the answers alone and the register table fits the blocks, then the `j`-th publication of a device
shows, for each block, each window of its name and each point in it, the value of the point's own
register in that device. -/
theorem published_readings {registers : ℕ → String → UInt8 → ℕ → UInt16}
    {tty : ℕ → UInt8 → List UInt8} (hunaltered : Unaltered tty answer) (hs₀ : s₀.Supplied table)
    (hes : ∀ e ∈ es, e.Supplies table) (hrun : run (step tty answer) s₀ es = some s)
    (hhonest : s.Honest registers answer) (hfits : ∀ block ∈ table, Fits vPoints block) {j : ℕ}
    {device : String} {blocks : List (RTSrcInfo δ)}
    (hj : s.poll.published[j]? = some (device, blocks)) (u : Undefined)
    (vSingle : List (RTSrcInfo δ)) :
    pollResult u vPoints vSingle blocks =
      readings (fun i => registers (j * table.length + i) device) table vPoints := by
  rw [step_eq_of_unaltered hunaltered] at hrun
  exact ((hs₀.batches_of_run hes hrun).published j _ hj).pollResult_eq hhonest hfits u vSingle

/-- Two words of the device information. -/
theorem published_readings_device :
    let vPoints : List (ModbusPoint Decimal) :=
      [loadPoint ⟨"voltage", "U16", ⟨1000000⟩, "V", 3300⟩,
        loadPoint ⟨"current", "S16", ⟨1000000⟩, "A", 3301⟩]
    ∃ s blocks, run (step linuxTty fun _ => deviceAnswer) oneDevice deviceRound = some s ∧
      s.poll.published[0]? = some ("A", blocks) ∧
      (pollResult Undefined.zero vPoints [] blocks).map
          (fun info => (info.sourceName, info.value.idata)) =
        [("voltage", 3300), ("current", 3301)] := by
  intro vPoints
  obtain ⟨s, hrun, hrequests, hpublished⟩ := run_deviceRound
  have hhonest : s.Honest (fun _ _ _ addr => UInt16.ofNat addr) fun _ => deviceAnswer := by
    intro k r hr
    obtain ⟨rfl, rfl⟩ : k = 0 ∧ _ = r := by simpa [hrequests, List.getElem?_singleton] using hr
    exact ⟨_, rfl, by decide +kernel⟩
  have hfits : ∀ block ∈ [deviceBlock], Fits vPoints block := by decide +kernel
  have hfirst : s.poll.published[0]? = some ("A", [answerInfo "设备信息" deviceAnswer]) := by
    rw [hpublished]
    rfl
  refine ⟨s, _, hrun, hfirst, ?_⟩
  rw [published_readings unaltered_deviceAnswer supplied_oneDevice supplies_deviceRound hrun
    hhonest hfits hfirst Undefined.zero []]
  decide +kernel

end SlaveState

end CsiFirmware.Task
