import CsiFirmware.Task.Registers
import CsiFirmware.Webserver.Handlers
import CsiFirmware.Webserver.WebSocketService

/-!
# Live readings on the web page

Reference: `TaskWebSocket`, `WebSocketService` and `NetWorkLayerImp::operation(s_RTtask)`, behind
the publications of `TaskSerial::serialTaskRun`.

A page opens a web socket and asks for a device over HTTP. From then on a thread of `TaskWebSocket`
pushes the readings of the device to every connection, round after round. What it pushes has come a
long way: registers of a slave, bytes on a line, blocks, decoded entries, a message to a callback.
`viewer_readings` is about the whole way, and `survives_iff` about pages that are closed meanwhile.

The loop over the connections is taken step by step. One step each are `sendDataToWeb`, the callback
of `TaskWebSocket/getRtData` and the callback of `TaskSerial/seriesRTSrcInfo`, which assigns the
list and then the device. In the program they share their variables without a lock.
-/

namespace CsiFirmware.Webserver

open Protocol Runs CsiFirmware.Task

variable {δ : Type}

/-! ## The program from the lines to the connections -/

/-- A text handed to `WebSocketService::send`, and the task it answers. -/
structure Push where
  rttask : RTtask
  text : String
deriving DecidableEq

/-- The next step of the thread of `TaskWebSocket`, between two loops over the connections. -/
inductive WsPc where
  /-- The test of `rttask.isOn`. -/
  | test
  /-- `ptr_wsWork->operation(rttask)`. -/
  | operation
deriving DecidableEq

/-- All that lies between the lines and the browsers. -/
structure LiveState (δ : Type) where
  serial : SlaveState δ
  vSingleRTSrcInfo : List (RTSrcInfo δ)
  /-- The messages on `TaskSerial/seriesRTSrcInfo` that the callback has not run for. -/
  series : List (String × List (RTSrcInfo δ))
  /-- The messages on `TaskWebSocket/getRtData` that the callback has not run for. -/
  tasks : List RTtask
  rttask : RTtask
  wsWork : NetWorkLayerImp δ
  wsPc : WsPc
  /-- `ptr_wsService`. -/
  service : WebSocketService
  pushes : List Push

/-- What can happen next. -/
inductive LiveEvent (δ : Type) where
  | serial (e : SlaveEvent δ)
  /-- The callback runs for one of the messages on `TaskSerial/seriesRTSrcInfo`. -/
  | series (i : ℕ)
  /-- `NetWorkLayerImp::getRTData` is called with the body of a request. -/
  | getRTData (recvData : String)
  /-- The callback runs for one of the messages on `TaskWebSocket/getRtData`. -/
  | task (i : ℕ)
  /-- The thread of `TaskWebSocket` takes a step. -/
  | ws
  | connection (e : ConnectionEvent)

/-- An event that brings no other table than this one. -/
def LiveEvent.Supplies [CDouble δ] (table : List (ModbusPoint δ)) : LiveEvent δ → Prop
  | .serial e => e.Supplies table
  | _ => True

namespace LiveState

section Step

variable [CDouble δ] [DecidableEq δ]

/-- The tasks that a handler publishes on `TaskWebSocket/getRtData`. -/
def publications (handled : Handled) : List RTtask :=
  handled.effects.filterMap fun
    | .publish topic rttask => if topic = "TaskWebSocket/getRtData" then some rttask else none
    | .write .. | .askDev .. | .askSerial .. => none

/-- `handleAllRecvData` and `publish`, if the step of the polling thread has come to them. -/
def publish (u : Undefined) (vPoints : List (ModbusPoint δ)) (s : LiveState δ)
    (serial : SlaveState δ) : LiveState δ :=
  -- a step publishes at most one list, the one after those already there
  match serial.poll.published[s.serial.poll.published.length]? with
  | some (device, vRtSrcInfo) =>
      let vSingle := pollResult u vPoints s.vSingleRTSrcInfo vRtSrcInfo
      { s with serial, vSingleRTSrcInfo := vSingle, series := s.series ++ [(device, vSingle)] }
  | none => { s with serial }

/-- `ptr_wsWork->operation(rttask)`, up to the loop over the connections. -/
def operation (s : LiveState δ) : LiveState δ :=
  match operationRTtask s.wsWork s.rttask with
  | (none, wsWork) => { s with wsWork, wsPc := .test }
  | (some text, wsWork) =>
      { s with
        wsWork
        wsPc := .test
        service := s.service.send text
        pushes := s.pushes ++ [⟨s.rttask, text⟩] }

/-- A step of the thread of `TaskWebSocket`. -/
def wsStep (s : LiveState δ) : LiveState δ :=
  -- while `send` is at work, the thread is inside its loop
  if s.service.loop = .idle then
    match s.wsPc with
    | .test => { s with wsPc := if s.rttask.isOn ≠ 0 then .operation else .test }
    | .operation => s.operation
  else { s with service := s.service.advance }

/-- A step of the program. Nothing happens any more once the process has ended. -/
def step (b : Backend) (tty : ℕ → UInt8 → List UInt8) (answer : ℕ → Answer) (u : Undefined)
    (vPoints : List (ModbusPoint δ)) (s : LiveState δ) (e : LiveEvent δ) : Option (LiveState δ) :=
  if s.service.ended.isSome then none
  else
    match e with
    | .serial e => (s.serial.step tty answer e).map (s.publish u vPoints)
    | .series i => s.series[i]?.map fun msg =>
        { s with series := s.series.eraseIdx i, wsWork := onSeriesRTSrcInfo s.wsWork msg }
    | .getRTData recvData => some { s with
        tasks := s.tasks ++ publications (Webserver.getRTData b recvData) }
    | .task i => s.tasks[i]?.map fun rttask => { s with tasks := s.tasks.eraseIdx i, rttask }
    | .ws => some s.wsStep
    | .connection e => (s.service.handle e).map fun service => { s with service }

/-- Terminals that leave the answers alone might as well be transparent. -/
theorem step_eq_of_unaltered {b : Backend} {tty : ℕ → UInt8 → List UInt8} {answer : ℕ → Answer}
    {u : Undefined} {vPoints : List (ModbusPoint δ)} (h : SlaveState.Unaltered tty answer) :
    step b tty answer u vPoints = step b transparent answer u vPoints := by
  funext s e
  simp only [step, SlaveState.step_eq_of_unaltered h]

end Step

/-! ### What a step can do -/

/-- All that a step can do. -/
inductive Transition [CDouble δ] [DecidableEq δ] (b : Backend) (tty : ℕ → UInt8 → List UInt8)
    (answer : ℕ → Answer) (u : Undefined) (vPoints : List (ModbusPoint δ)) (s : LiveState δ) :
    LiveEvent δ → LiveState δ → Prop where
  | serial (e : SlaveEvent δ) (serial : SlaveState δ)
      (step : s.serial.step tty answer e = some serial) :
      Transition b tty answer u vPoints s (.serial e) (s.publish u vPoints serial)
  | series (i : ℕ) (msg : String × List (RTSrcInfo δ)) (at_i : s.series[i]? = some msg) :
      Transition b tty answer u vPoints s (.series i)
        { s with series := s.series.eraseIdx i, wsWork := onSeriesRTSrcInfo s.wsWork msg }
  | getRTData (recvData : String) :
      Transition b tty answer u vPoints s (.getRTData recvData)
        { s with tasks := s.tasks ++ publications (Webserver.getRTData b recvData) }
  | task (i : ℕ) (rttask : RTtask) (at_i : s.tasks[i]? = some rttask) :
      Transition b tty answer u vPoints s (.task i)
        { s with tasks := s.tasks.eraseIdx i, rttask }
  | test (idle : s.service.loop = .idle) (pc : s.wsPc = .test) :
      Transition b tty answer u vPoints s .ws
        { s with wsPc := if s.rttask.isOn ≠ 0 then .operation else .test }
  | operation (idle : s.service.loop = .idle) (pc : s.wsPc = .operation) :
      Transition b tty answer u vPoints s .ws s.operation
  | advance (busy : s.service.loop ≠ .idle) :
      Transition b tty answer u vPoints s .ws { s with service := s.service.advance }
  | connection (e : ConnectionEvent) (service : WebSocketService)
      (handle : s.service.handle e = some service) :
      Transition b tty answer u vPoints s (.connection e) { s with service }

section Transition

variable [CDouble δ] [DecidableEq δ] {b : Backend} {tty : ℕ → UInt8 → List UInt8}
  {answer : ℕ → Answer} {u : Undefined} {vPoints : List (ModbusPoint δ)} {s s' : LiveState δ}
  {e : LiveEvent δ}

/-- A defined step is one of the transitions, of a process that has not ended. -/
theorem step_transition (h : s.step b tty answer u vPoints e = some s') :
    s.service.ended = none ∧ Transition b tty answer u vPoints s e s' := by
  obtain ⟨halive, h⟩ := Option.ite_none_left_eq_some.mp h
  refine ⟨by simpa using halive, ?_⟩
  cases e with
  | serial e =>
      obtain ⟨serial, hserial, rfl⟩ := Option.map_eq_some_iff.mp h
      exact .serial e serial hserial
  | series i =>
      obtain ⟨msg, at_i, rfl⟩ := Option.map_eq_some_iff.mp h
      exact .series i msg at_i
  | getRTData recvData =>
      obtain rfl := Option.some.inj h
      exact .getRTData recvData
  | task i =>
      obtain ⟨rttask, at_i, rfl⟩ := Option.map_eq_some_iff.mp h
      exact .task i rttask at_i
  | ws =>
      obtain rfl := Option.some.inj h
      by_cases idle : s.service.loop = .idle
      · rw [wsStep, if_pos idle]
        cases pc : s.wsPc with
        | test => exact .test idle pc
        | operation => exact .operation idle pc
      · rw [wsStep, if_neg idle]
        exact .advance idle
  | connection e =>
      obtain ⟨service, handle, rfl⟩ := Option.map_eq_some_iff.mp h
      exact .connection e service handle

/-- A push, or a task that is not for readings. -/
theorem operation_cases (s : LiveState δ) :
    (s.rttask.id ≠ .yc ∧ s.operation = { s with wsPc := .test }) ∨
      s.rttask.id = .yc ∧
        let text := (sendDataToWeb s.wsWork s.rttask.devSn).1
        s.operation = { s with
          wsWork := (sendDataToWeb s.wsWork s.rttask.devSn).2
          wsPc := .test
          service := s.service.send text
          pushes := s.pushes ++ [⟨s.rttask, text⟩] } := by
  cases hid : s.rttask.id with
  | yc =>
      refine .inr ⟨rfl, ?_⟩
      simp only [operation, operationRTtask, hid]
  | yx | yk | yt =>
      refine .inl ⟨by simp, ?_⟩
      simp only [operation, operationRTtask, hid]

end Transition

/-! ## What a connection receives -/

/-- The pushes are the texts that `send` was called with, and have been delivered. -/
structure Delivered (s : LiveState δ) : Prop where
  service : s.service.Delivered
  sent : s.service.sent = s.pushes.map Push.text

section Delivered

variable [CDouble δ] [DecidableEq δ] {b : Backend} {tty : ℕ → UInt8 → List UInt8}
  {answer : ℕ → Answer} {u : Undefined} {vPoints : List (ModbusPoint δ)} {s s' : LiveState δ}
  {e : LiveEvent δ}

/-- Each push is sent once and reaches the connections in its turn. -/
theorem Delivered.step (hs : s.Delivered) (h : s.step b tty answer u vPoints e = some s') :
    s'.Delivered := by
  obtain ⟨halive, ht⟩ := step_transition h
  cases ht with
  | serial e serial =>
      rw [publish]
      split <;> exact ⟨hs.service, hs.sent⟩
  | series | getRTData | task | test => exact ⟨hs.service, hs.sent⟩
  | operation idle =>
      rcases s.operation_cases with ⟨-, hoperation⟩ | ⟨-, hoperation⟩
      · rw [hoperation]
        exact ⟨hs.service, hs.sent⟩
      · rw [hoperation]
        refine ⟨hs.service.send halive idle _, ?_⟩
        rw [List.map_append, ← hs.sent]
        rfl
  | advance => exact ⟨hs.service.advance halive, (s.service.sent_advance).trans hs.sent⟩
  | connection e service handle =>
      exact ⟨hs.service.handle handle, (WebSocketService.sent_handle handle).trans hs.sent⟩

end Delivered

/-! ## What the texts show -/

section Shown

variable [CDouble δ] [DecidableEq δ] {b : Backend} {answer : ℕ → Answer} {u : Undefined}
  {vPoints : List (ModbusPoint δ)} {published published' : List (String × List (RTSrcInfo δ))}
  {device : String} {infos : List (RTSrcInfo δ)} {pushes : List Push} {s s' : LiveState δ}

/-- The readings are what `handleAllRecvData` makes of the blocks of one poll of the device. -/
def Stems (u : Undefined) (vPoints : List (ModbusPoint δ))
    (published : List (String × List (RTSrcInfo δ))) (device : String)
    (infos : List (RTSrcInfo δ)) : Prop :=
  ∃ (j : ℕ) (blocks : List (RTSrcInfo δ)), published[j]? = some (device, blocks) ∧
    infos = pollResult u vPoints [] blocks

/-- What a poll has shown stays shown. -/
theorem Stems.mono (h : Stems u vPoints published device infos)
    (hpre : published <+: published') : Stems u vPoints published' device infos := by
  obtain ⟨j, blocks, hj, rfl⟩ := h
  obtain ⟨rest, rfl⟩ := hpre
  obtain ⟨hlt, -⟩ := List.getElem?_eq_some_iff.mp hj
  exact ⟨j, blocks, by rw [List.getElem?_append_left hlt, hj], rfl⟩

/-- Push `k` shows nothing, or readings of the device that it was for, or readings of the device of
an earlier push if the one directly before it was for the same device. -/
def Shown (Source : String → List (RTSrcInfo δ) → Prop) (pushes : List Push) (k : ℕ)
    (push : Push) : Prop :=
  push.text = placeholder ∨ push.text = "[]" ∨
    ∃ (k' : ℕ) (push' : Push) (infos : List (RTSrcInfo δ)), pushes[k']? = some push' ∧
      Source push'.rttask.devSn infos ∧ push.text = listText infos ∧
      (k' = k ∨ k' < k ∧
        ∃ before, pushes[k - 1]? = some before ∧ before.rttask.devSn = push.rttask.devSn)

/-- Later pushes and later polls take nothing back. -/
theorem Shown.mono {Source Source' : String → List (RTSrcInfo δ) → Prop} {pushes' : List Push}
    {k : ℕ} {push : Push} (h : Shown Source pushes k push)
    (hsource : ∀ device infos, Source device infos → Source' device infos)
    (hpushes : pushes <+: pushes') : Shown Source' pushes' k push := by
  have hget : ∀ {i p}, pushes[i]? = some p → pushes'[i]? = some p := fun hi => by
    obtain ⟨rest, rfl⟩ := hpushes
    obtain ⟨hlt, -⟩ := List.getElem?_eq_some_iff.mp hi
    rw [List.getElem?_append_left hlt, hi]
  refine h.imp_right (Or.imp_right ?_)
  rintro ⟨k', push', infos, hpush', hinfos, htext, horder⟩
  refine ⟨k', push', infos, hget hpush', hsource _ _ hinfos, htext, horder.imp_right ?_⟩
  rintro ⟨hlt, before, hbefore, hsame⟩
  exact ⟨hlt, before, hget hbefore, hsame⟩

/-- Where the lists of the server and the texts come from. -/
structure Sourced (u : Undefined) (vPoints : List (ModbusPoint δ)) (s : LiveState δ) : Prop where
  series : ∀ msg ∈ s.series, Stems u vPoints s.serial.poll.published msg.1 msg.2
  live : s.wsWork.vRTSrcInfo = [] ∨
    Stems u vPoints s.serial.poll.published s.wsWork.sn s.wsWork.vRTSrcInfo
  cached : s.wsWork.vPreRTSrcInfo = [] ∨ ∃ (k : ℕ) (push : Push), s.pushes[k]? = some push ∧
    Stems u vPoints s.serial.poll.published push.rttask.devSn s.wsWork.vPreRTSrcInfo
  preSn : ∀ push ∈ s.pushes.getLast?, s.wsWork.preSn = push.rttask.devSn
  shown : ∀ k push, s.pushes[k]? = some push →
    Shown (Stems u vPoints s.serial.poll.published) s.pushes k push

omit [DecidableEq δ] in
/-- A step of the polling thread publishes nothing or one list. -/
theorem published_step {serial serial' : SlaveState δ} {e : SlaveEvent δ}
    (h : serial.step transparent answer e = some serial') :
    serial'.poll.published = serial.poll.published ∨
      ∃ p, serial'.poll.published = serial.poll.published ++ [p] := by
  cases SlaveState.step_transition h with
  | deliver | request => exact .inl rfl
  | other e t ht =>
      cases ht with
      | publish => exact .inr ⟨_, rfl⟩
      | startRound | endRound | startDevice | endDevice | request | disarm | retryDisarm | notify
      | parse | answered | test | block | capture | readNothing | read | append | rearm | spurious
      | point | devices => exact .inl rfl

omit [DecidableEq δ] in
/-- What has been published stays in its place. -/
theorem published_prefix {serial serial' : SlaveState δ} {e : SlaveEvent δ}
    (h : serial.step transparent answer e = some serial') :
    serial.poll.published <+: serial'.poll.published := by
  rcases published_step h with hsame | ⟨p, hmore⟩
  · rw [hsame]
  · rw [hmore]
    exact List.prefix_append ..

namespace Sourced

/-- The polling thread publishes what it has polled, and the server's lists are as before. -/
theorem serial (hs : s.Sourced u vPoints) {serial : SlaveState δ} {e : SlaveEvent δ}
    (h : s.serial.step transparent answer e = some serial) :
    (s.publish u vPoints serial).Sourced u vPoints := by
  have hpre := published_prefix h
  -- the message that may come in addition does not concern the other parts
  have hkeep : ∀ {vSingleRTSrcInfo : List (RTSrcInfo δ)}
      {series : List (String × List (RTSrcInfo δ))},
      (∀ msg ∈ series, Stems u vPoints serial.poll.published msg.1 msg.2) →
      Sourced u vPoints { s with serial, vSingleRTSrcInfo, series } := fun hseries =>
    { series := hseries
      live := hs.live.imp_right (·.mono hpre)
      cached := hs.cached.imp_right fun ⟨k, push, hpush, hstems⟩ =>
        ⟨k, push, hpush, hstems.mono hpre⟩
      preSn := hs.preSn
      shown := fun k push hpush => (hs.shown k push hpush).mono
        (fun _ _ hstems => hstems.mono hpre) List.prefix_rfl }
  rw [publish]
  split
  next device blocks hnew =>
    refine hkeep fun msg hmsg => ?_
    rcases List.mem_append.mp hmsg with hmsg | hmsg
    · exact (hs.series msg hmsg).mono hpre
    · obtain rfl := List.mem_singleton.mp hmsg
      exact ⟨_, blocks, hnew, by rw [pollResult_eq, pollResult_eq]⟩
  next => exact hkeep fun msg hmsg => (hs.series msg hmsg).mono hpre

/-- The text of the next push. -/
theorem shown_next (hs : s.Sourced u vPoints) (rttask : RTtask) :
    let text := (sendDataToWeb s.wsWork rttask.devSn).1
    Shown (Stems u vPoints s.serial.poll.published) (s.pushes ++ [⟨rttask, text⟩]) s.pushes.length
      ⟨rttask, text⟩ := by
  simp only [sendDataToWeb]
  split_ifs with hlive hpre
  · rcases hs.live with hnil | hstems
    · exact .inr (.inl (by rw [hnil, listText_nil]))
    · rw [← hlive] at hstems
      exact .inr (.inr ⟨_, _, _, List.getElem?_concat_length, hstems, rfl, .inl rfl⟩)
  · rcases hs.cached with hnil | ⟨k, push, hpush, hstems⟩
    · exact .inr (.inl (by rw [hnil, listText_nil]))
    · obtain ⟨hlt, -⟩ := List.getElem?_eq_some_iff.mp hpush
      refine .inr (.inr ⟨k, push, _, ?_, hstems, rfl, .inr ⟨hlt, ?_⟩⟩)
      · rw [List.getElem?_append_left hlt, hpush]
      · -- the push before this one has left `preSn`
        have hlast : s.pushes.length - 1 < s.pushes.length := by omega
        refine ⟨s.pushes[s.pushes.length - 1], ?_, ?_⟩
        · rw [List.getElem?_append_left hlast, List.getElem?_eq_getElem hlast]
        · rw [← hs.preSn _ (by rw [List.getLast?_eq_getElem?, List.getElem?_eq_getElem hlast]; rfl),
            hpre]
  · exact .inl rfl

/-- A push shows the current list or the cached one, and the cached list is that of its own device
afterwards. -/
theorem push (hs : s.Sourced u vPoints) (rttask : RTtask) (service : WebSocketService) :
    Sourced u vPoints { s with
      wsWork := (sendDataToWeb s.wsWork rttask.devSn).2
      wsPc := .test
      service
      pushes := s.pushes ++ [⟨rttask, (sendDataToWeb s.wsWork rttask.devSn).1⟩] } where
  series := hs.series
  live := by
    simp only [sendDataToWeb]
    split_ifs <;> exact hs.live
  cached := by
    have hcached : s.wsWork.vPreRTSrcInfo = [] ∨ ∃ (k : ℕ) (push : Push),
        (s.pushes ++ [⟨rttask, (sendDataToWeb s.wsWork rttask.devSn).1⟩])[k]? = some push ∧
        Stems u vPoints s.serial.poll.published push.rttask.devSn s.wsWork.vPreRTSrcInfo := by
      refine hs.cached.imp_right ?_
      rintro ⟨k, push, hpush, hstems⟩
      obtain ⟨hlt, -⟩ := List.getElem?_eq_some_iff.mp hpush
      exact ⟨k, push, by rw [List.getElem?_append_left hlt, hpush], hstems⟩
    -- the cached list is replaced only if the task is for the current device
    by_cases hlive : rttask.devSn = s.wsWork.sn
    · have hpre : (sendDataToWeb s.wsWork rttask.devSn).2.vPreRTSrcInfo = s.wsWork.vRTSrcInfo := by
        rw [sendDataToWeb, if_pos hlive]
      rw [hpre]
      refine hs.live.imp_right fun hstems => ⟨_, _, List.getElem?_concat_length, ?_⟩
      rwa [hlive]
    · have hpre : (sendDataToWeb s.wsWork rttask.devSn).2.vPreRTSrcInfo =
          s.wsWork.vPreRTSrcInfo := by
        rw [sendDataToWeb, if_neg hlive]
        split_ifs <;> rfl
      rwa [hpre]
  preSn push hpush := by
    obtain rfl : _ = push := by simpa using hpush
    simp only [sendDataToWeb]
    split_ifs <;> rfl
  shown k push hpush := by
    rcases Nat.lt_or_ge k s.pushes.length with hlt | hge
    · rw [List.getElem?_append_left hlt] at hpush
      exact (hs.shown k push hpush).mono (fun _ _ => id) (List.prefix_append ..)
    · rw [List.getElem?_append_right hge] at hpush
      obtain ⟨hk, rfl⟩ : k - s.pushes.length = 0 ∧ _ = push := by
        simpa [List.getElem?_singleton] using hpush
      obtain rfl : k = s.pushes.length := by omega
      exact hs.shown_next rttask

/-- Only a message from the polling thread and a push have an effect on what is shown. -/
theorem step {e : LiveEvent δ} (hs : s.Sourced u vPoints)
    (h : s.step b transparent answer u vPoints e = some s') : s'.Sourced u vPoints := by
  obtain ⟨-, ht⟩ := step_transition h
  cases ht with
  | serial e serial hserial => exact hs.serial hserial
  | series i msg at_i =>
      refine ⟨fun msg' hmsg' => hs.series msg' (List.mem_of_mem_eraseIdx hmsg'), ?_, hs.cached,
        hs.preSn, hs.shown⟩
      -- the callback takes over the list together with its device
      exact .inr (hs.series msg (List.mem_of_getElem? at_i))
  | getRTData | task | test | advance | connection =>
      exact ⟨hs.series, hs.live, hs.cached, hs.preSn, hs.shown⟩
  | operation =>
      rcases s.operation_cases with ⟨-, hoperation⟩ | ⟨-, hoperation⟩
      · rw [hoperation]
        exact ⟨hs.series, hs.live, hs.cached, hs.preSn, hs.shown⟩
      · rw [hoperation]
        exact hs.push _ _

end Sourced

end Shown

/-! ## Whole runs -/

section Runs

variable [CDouble δ] [DecidableEq δ] {b : Backend} {tty : ℕ → UInt8 → List UInt8}
  {answer : ℕ → Answer} {u : Undefined} {vPoints table : List (ModbusPoint δ)}
  {s₀ s s' : LiveState δ} {es : List (LiveEvent δ)} {e : LiveEvent δ}

/-- After the constructors. The `id` of `rttask` is not initialised. -/
structure StartUp (table : List (ModbusPoint δ)) (s : LiveState δ) : Prop where
  serial : s.serial.Supplied table
  series : s.series = []
  tasks : s.tasks = []
  isOn : s.rttask.isOn = 0
  wsWork : s.wsWork = .init
  wsPc : s.wsPc = .test
  service : s.service = .init
  pushes : s.pushes = []

omit [CDouble δ] [DecidableEq δ] in
/-- Nothing has been pushed yet. -/
theorem StartUp.delivered (h : s.StartUp table) : s.Delivered where
  service := h.service ▸ WebSocketService.delivered_init
  sent := by rw [h.service, h.pushes]; rfl

/-- The server starts with empty lists. -/
theorem StartUp.sourced (h : s.StartUp table) : s.Sourced u vPoints where
  series msg hmsg := by simp [h.series] at hmsg
  live := .inl (by rw [h.wsWork]; rfl)
  cached := .inl (by rw [h.wsWork]; rfl)
  preSn push hpush := by simp [h.pushes] at hpush
  shown k push hpush := by simp [h.pushes] at hpush

/-- What a step does to the serial side. -/
theorem serial_step (h : s.step b tty answer u vPoints e = some s') :
    (∃ e', e = .serial e' ∧ s.serial.step tty answer e' = some s'.serial) ∨
      s'.serial = s.serial := by
  obtain ⟨-, ht⟩ := step_transition h
  cases ht with
  | serial e serial hserial =>
      refine .inl ⟨e, rfl, ?_⟩
      rw [hserial, publish]
      split <;> rfl
  | series | getRTData | task | test | advance | connection => exact .inr rfl
  | operation =>
      rcases s.operation_cases with ⟨-, hoperation⟩ | ⟨-, hoperation⟩ <;>
        exact .inr (by rw [hoperation])

/-- A request that can be read is published once, and any other not at all. -/
theorem publications_getRTData (b : Backend) (recvData : String) :
    publications (Webserver.getRTData b recvData) = (parseRTtask b recvData).toList := by
  rw [Webserver.getRTData]
  split
  next h => simp [publications, Handled.failed, h]
  next rttask h => simp [publications, h]

/-- The tasks come from requests, up to the ones that pushes were made for. -/
structure Requested (asked : RTtask → Prop) (s : LiveState δ) : Prop where
  tasks : ∀ rttask ∈ s.tasks, asked rttask
  rttask : asked s.rttask ∨ (s.rttask.isOn = 0 ∧ s.wsPc = .test)
  pushes : ∀ push ∈ s.pushes, asked push.rttask

/-- A push is made for the task that the callback has last stored, and this comes from a request. -/
theorem Requested.step {asked : RTtask → Prop} (hs : s.Requested asked)
    (hasked : ∀ recvData, e = .getRTData recvData → ∀ rttask, parseRTtask b recvData = some rttask →
      asked rttask) (h : s.step b tty answer u vPoints e = some s') : s'.Requested asked := by
  obtain ⟨-, ht⟩ := step_transition h
  cases ht with
  | serial e serial =>
      rw [publish]
      split <;> exact ⟨hs.tasks, hs.rttask, hs.pushes⟩
  | series | advance | connection => exact ⟨hs.tasks, hs.rttask, hs.pushes⟩
  | getRTData recvData =>
      refine ⟨fun rttask hmem => ?_, hs.rttask, hs.pushes⟩
      rw [publications_getRTData] at hmem
      rcases List.mem_append.mp hmem with hmem | hmem
      · exact hs.tasks rttask hmem
      · exact hasked recvData rfl rttask (Option.mem_toList.mp hmem)
  | task i rttask at_i =>
      exact ⟨fun rttask' hmem => hs.tasks rttask' (List.mem_of_mem_eraseIdx hmem),
        .inl (hs.tasks rttask (List.mem_of_getElem? at_i)), hs.pushes⟩
  -- the `id` and the device of the first task are not set, but its `isOn` is 0
  | test idle pc =>
      refine ⟨hs.tasks, hs.rttask.imp_right fun ⟨hoff, _⟩ => ⟨hoff, ?_⟩, hs.pushes⟩
      simp [hoff]
  | operation idle pc =>
      have hcurrent : asked s.rttask := hs.rttask.resolve_right fun h => by simp [pc] at h
      rcases s.operation_cases with ⟨-, hoperation⟩ | ⟨-, hoperation⟩
      · rw [hoperation]
        exact ⟨hs.tasks, .inl hcurrent, hs.pushes⟩
      · rw [hoperation]
        refine ⟨hs.tasks, .inl hcurrent, fun push hpush => ?_⟩
        rcases List.mem_append.mp hpush with hpush | hpush
        · exact hs.pushes push hpush
        · obtain rfl := List.mem_singleton.mp hpush
          exact hcurrent

/-- The lists of registers that the polls of a device show. -/
def Polled (registers : ℕ → String → UInt8 → ℕ → UInt16) (table vPoints : List (ModbusPoint δ))
    (published : List (String × List (RTSrcInfo δ))) (device : String)
    (infos : List (RTSrcInfo δ)) : Prop :=
  ∃ j : ℕ, published[j]?.map Prod.fst = some device ∧
    infos = readings (fun i => registers (j * table.length + i) device) table vPoints

/-- The batches of the serial side, in a run with one block table. -/
theorem StartUp.batches_of_run (hs₀ : s₀.StartUp table) (hes : ∀ e ∈ es, e.Supplies table)
    (hrun : run (step b transparent answer u vPoints) s₀ es = some s) :
    SlaveState.Batches answer table s.serial.poll := by
  have hstep : ∀ (s : LiveState δ) (e : LiveEvent δ) (s' : LiveState δ),
      s.serial.Inv answer ∧ SlaveState.Batches answer table s.serial.poll → e.Supplies table →
      s.step b transparent answer u vPoints e = some s' →
      s'.serial.Inv answer ∧ SlaveState.Batches answer table s'.serial.poll := by
    rintro s e s' ⟨hinv, hbatches⟩ he h
    rcases serial_step h with ⟨e', rfl, hserial⟩ | hserial
    · exact ⟨hinv.step hserial, hbatches.step hinv he hserial⟩
    · rw [hserial]
      exact ⟨hinv, hbatches⟩
  exact ((stepsMeet_of_forall hes s₀).invariant _ hstep
    ⟨hs₀.serial.toStartUp.inv, hs₀.serial.batches⟩ hrun).2

/-- The tasks of a run come from its requests. -/
theorem StartUp.requested_of_run (hs₀ : s₀.StartUp table)
    (hrun : run (step b tty answer u vPoints) s₀ es = some s) :
    s.Requested fun rttask =>
      ∃ recvData, .getRTData recvData ∈ es ∧ parseRTtask b recvData = some rttask := by
  have hstart : s₀.Requested fun rttask =>
      ∃ recvData, .getRTData recvData ∈ es ∧ parseRTtask b recvData = some rttask := by
    refine ⟨fun rttask hmem => ?_, .inr ⟨hs₀.isOn, hs₀.wsPc⟩, fun push hpush => ?_⟩
    · simp [hs₀.tasks] at hmem
    · simp [hs₀.pushes] at hpush
  refine (stepsMeet_of_forall (C := (· ∈ es)) (fun _ h => h) s₀).invariant _
    (fun s e s' hs he h => hs.step ?_ h) hstart hrun
  rintro recvData rfl rttask hparse
  exact ⟨recvData, he, hparse⟩

/-- The texts of the pushes from the first that comes to the connection on. -/
def since (pushes : List Push) (con : Connection) : List String :=
  (pushes.drop con.joined).map Push.text

/-- What a connection has received: the pushes one after another, and all of them if it is
registered and no loop is under way. Each of them is for a task that some request has named, and
shows nothing or readings that come from `Source`. -/
structure Views (Source : String → List (RTSrcInfo δ) → Prop) (asked : RTtask → Prop)
    (s : LiveState δ) (con : Connection) : Prop where
  received : con.received <+: since s.pushes con
  complete : s.service.ended = none → s.service.loop = .idle → con.state ≠ .closed →
    con.received = since s.pushes con
  shown : ∀ i text, con.received[i]? = some text →
    ∃ push, s.pushes[con.joined + i]? = some push ∧ push.text = text ∧ asked push.rttask ∧
      Shown Source s.pushes (con.joined + i) push

omit [CDouble δ] [DecidableEq δ] in
/-- A text received is that of the push at its place. -/
theorem Delivered.push_of_received (hs : s.Delivered) {hdl : ℕ} {con : Connection}
    (hcon : s.service.clients hdl = some con) {i : ℕ} {text : String}
    (htext : con.received[i]? = some text) :
    ∃ push, s.pushes[con.joined + i]? = some push ∧ push.text = text := by
  obtain ⟨-, rest, hrest⟩ := hs.service.received hdl con hcon
  obtain ⟨hlt, -⟩ := List.getElem?_eq_some_iff.mp htext
  have hsince : (s.service.sent.drop con.joined)[i]? = some text := by
    rw [← hrest, List.getElem?_append_left hlt, htext]
  rw [hs.sent, ← List.map_drop, List.getElem?_map, List.getElem?_drop] at hsince
  exact Option.map_eq_some_iff.mp hsince

/-- From the registers of the slaves to the connections: in every run with one block table, whatever
the threads do and in whatever order the callbacks run, if the slaves answer with the registers
asked for, the terminals leave the answers alone and the register table fits the blocks, then the
texts that a connection receives are the pushes from the first that comes to it on. Each is for a
task that some request has named, and shows nothing, or the registers that one poll of one device
has read: the device that the push was for, or that of an earlier push if the one directly before it
was for the same device. -/
theorem viewer_readings {registers : ℕ → String → UInt8 → ℕ → UInt16}
    (hunaltered : SlaveState.Unaltered tty answer) (hs₀ : s₀.StartUp table)
    (hes : ∀ e ∈ es, e.Supplies table)
    (hrun : run (step b tty answer u vPoints) s₀ es = some s)
    (hhonest : s.serial.Honest registers answer) (hfits : ∀ block ∈ table, Fits vPoints block)
    {hdl : ℕ} {con : Connection} (hcon : s.service.clients hdl = some con) :
    s.Views (Polled registers table vPoints s.serial.poll.published)
      (fun rttask => ∃ recvData, .getRTData recvData ∈ es ∧ parseRTtask b recvData = some rttask)
      con := by
  rw [step_eq_of_unaltered hunaltered] at hrun
  have hbatches := hs₀.batches_of_run hes hrun
  have hrequested := hs₀.requested_of_run hrun
  have hdelivered : s.Delivered :=
    run_invariant (fun _ _ _ hs h => hs.step h) hs₀.delivered hrun
  have hsourced : s.Sourced u vPoints :=
    run_invariant (fun _ _ _ hs h => hs.step h) hs₀.sourced hrun
  have hsent : s.service.sent.drop con.joined = since s.pushes con := by
    rw [hdelivered.sent, since, List.map_drop]
  refine ⟨?_, fun halive hidle hstate => ?_, fun i text htext => ?_⟩
  · rw [← hsent]
    exact (hdelivered.service.received hdl con hcon).2
  · -- between two loops there is no iterator that could be dangling
    have hvalid : s.service.Valid := fun hdl hmem => by simp [hidle, Loop.element] at hmem
    have hdue : s.service.due hdl = s.service.sent := by
      simp [WebSocketService.due, WebSocketService.pending, hidle]
    rw [← hsent, ← hdue]
    exact (hdelivered.service.complete halive hvalid hdl con hcon hstate).2
  · obtain ⟨push, hpush, rfl⟩ := hdelivered.push_of_received hcon htext
    refine ⟨push, hpush, rfl, hrequested.pushes push (List.mem_of_getElem? hpush),
      (hsourced.shown _ push hpush).mono (fun device infos hstems => ?_) List.prefix_rfl⟩
    obtain ⟨j, blocks, hj, rfl⟩ := hstems
    refine ⟨j, by rw [hj]; rfl, ?_⟩
    exact (hbatches.published j _ hj).pollResult_eq hhonest hfits u []

/-- The connection that the next step of the thread leads the loop to. -/
def comesTo (s : LiveState δ) : Option ℕ :=
  if s.service.loop = .idle then
    if s.wsPc = .operation ∧ s.rttask.id = .yc then first s.service.connections else none
  else s.service.following

/-- The loop comes to no connection that is closing. None stops being open when the loop is about to
serve it, and none is erased when the iterator is at it. -/
def Undisturbed (s : LiveState δ) : LiveEvent δ → Prop
  | .ws => ∀ hdl ∈ s.comesTo, s.service.isOpen hdl = true
  | .connection e => s.service.Undisturbed e
  | _ => True

/-- In every run the process is alive, and the next step of the loop does not end it, if and only if
the loops are not disturbed by connections that close. Once it is not so, no event restores it. -/
theorem survives_iff (hs₀ : s₀.StartUp table)
    (hrun : run (step b tty answer u vPoints) s₀ es = some s) :
    s.service.Secure ↔ StepsMeet (step b tty answer u vPoints) Undisturbed s₀ es := by
  have hstart : s₀.service.Secure := hs₀.service ▸ ⟨rfl, rfl⟩
  -- a step that meets the condition keeps the process alive, and none restores it
  refine kept_iff_stepsMeet Delivered (fun s => s.service.Secure) (fun _ _ _ hs h => hs.step h)
    (fun s e s' hs hok h => ?_) (fun s e s' hs h hok => ?_) hs₀.delivered hstart hrun
  · obtain ⟨halive, ht⟩ := step_transition h
    cases ht with
    | serial e serial =>
        rw [publish]
        split <;> exact iff_of_true hok trivial
    | series | getRTData | task => exact iff_of_true hok trivial
    | test idle pc => exact iff_of_true hok (by simp [Undisturbed, comesTo, idle, pc])
    | operation idle pc =>
        rcases s.operation_cases with ⟨hid, hoperation⟩ | ⟨hid, hoperation⟩
        · rw [hoperation]
          exact iff_of_true hok (by simp [Undisturbed, comesTo, idle, hid])
        · rw [hoperation, WebSocketService.secure_send_iff halive, Undisturbed, comesTo,
            if_pos idle, if_pos ⟨pc, hid⟩]
    | advance busy =>
        rw [hok.advance_iff, Undisturbed, comesTo, if_neg busy]
    | connection e service handle => exact hok.handle_iff handle
  · obtain ⟨halive, ht⟩ := step_transition h
    cases ht with
    | serial e serial =>
        rw [publish] at hok
        split at hok <;> exact hok
    | series | getRTData | task | test => exact hok
    | operation idle =>
        exact WebSocketService.secure_of_idle halive idle
    | advance busy => exact ⟨halive, hok.1⟩
    | connection e service handle => exact hs.service.secure_of_handle handle hok

/-- A push that is already under way. -/
def underWay (s : LiveState δ) : ℕ := if s.wsPc = .operation then 1 else 0

/-- The callback does not run for a task that is on. -/
def StaysOff (s : LiveState δ) : LiveEvent δ → Prop
  | .task i => ∀ rttask ∈ s.tasks[i]?, rttask.isOn = 0
  | _ => True

/-- Once the task is off, whatever else happens until the callback runs for a task that is on, at
most one more text is pushed, and none unless the thread has already tested `isOn`. -/
theorem quiet_after_off (hoff : s₀.rttask.isOn = 0)
    (h : StepsMeet (step b tty answer u vPoints) StaysOff s₀ es)
    (hrun : run (step b tty answer u vPoints) s₀ es = some s) :
    s.pushes.length ≤ s₀.pushes.length + s₀.underWay := by
  have hinv := h.invariant
    (fun s => s.rttask.isOn = 0 ∧
      s.pushes.length + s.underWay ≤ s₀.pushes.length + s₀.underWay)
    (fun s e s' hs hstays hstep => by
      obtain ⟨hoff, hle⟩ := hs
      obtain ⟨-, ht⟩ := step_transition hstep
      cases ht with
      | serial e serial =>
          rw [publish]
          split <;> exact ⟨hoff, hle⟩
      | series | getRTData | advance | connection => exact ⟨hoff, hle⟩
      | task i rttask at_i => exact ⟨hstays rttask at_i, hle⟩
      | test idle pc =>
          refine ⟨hoff, le_trans ?_ hle⟩
          simp [underWay, pc, hoff]
      | operation idle pc =>
          rcases s.operation_cases with ⟨-, hoperation⟩ | ⟨-, hoperation⟩
          · rw [hoperation]
            refine ⟨hoff, le_trans ?_ hle⟩
            simp [underWay]
          · rw [hoperation]
            refine ⟨hoff, le_trans ?_ hle⟩
            simp [underWay, pc])
    ⟨hoff, le_rfl⟩ hrun
  exact (Nat.le_add_right ..).trans hinv.2

end Runs

/-! ## A page that shows one device -/

section Page

/-- After the constructors, with one device. -/
private def started : LiveState Decimal where
  serial := SlaveState.oneDevice
  vSingleRTSrcInfo := []
  series := []
  tasks := []
  rttask := ⟨0, "", .yc⟩
  wsWork := .init
  wsPc := .test
  service := .init
  pushes := []

/-- The constructors have run. -/
private theorem startUp_started : started.StartUp [SlaveState.deviceBlock] where
  serial := SlaveState.supplied_oneDevice
  series := rfl
  tasks := rfl
  isOn := rfl
  wsWork := rfl
  wsPc := rfl
  service := rfl
  pushes := rfl

/-- The body of a request for the readings of `A`. -/
private def askBody : String :=
  "\x7b\"data\":\x7b\"RTtaskId\":\"Yc\",\"dev_sn\":\"A\",\"isOn\":1\x7d,\"taskID\":11\x7d"

/-- What the library makes of the body. -/
private def askJson : Json :=
  .object
    [("data", .object
      [("RTtaskId", .string "Yc"), ("dev_sn", .string "A"), ("isOn", .numberUnsigned 1)]),
      ("taskID", .numberUnsigned 11)]

/-- A server that knows this one body. -/
private def askBackend : Backend where
  json :=
    { parse := fun text => if text = askBody then some askJson else none
      dump := fun _ => none
      dumpIndented := fun _ => none
      utf8 := fun _ => true }
  platform := { castOverflow := fun _ => 1, atoiOverflow := fun _ => 1 }
  openFile := fun _ => none
  devService := []
  serialService := []
  rttaskId := .yx

/-- The register table has one point, without a scale. -/
private def voltagePoint : ModbusPoint Decimal := loadPoint ⟨"voltage", "U16", ⟨1000000⟩, "V", 3300⟩

/-- The program in this setting, with the terminal settings of Linux. -/
private def liveStep : LiveState Decimal → LiveEvent Decimal → Option (LiveState Decimal) :=
  step askBackend linuxTty (fun _ => SlaveState.deviceAnswer) Undefined.zero [voltagePoint]

/-- Two connections are opened, the device is asked for and read, and its readings are pushed. -/
private def page : List (LiveEvent Decimal) :=
  .connection (.opened 5) :: .connection (.opened 3) :: .getRTData askBody :: .task 0 ::
    (SlaveState.deviceRound.map .serial ++ [.series 0, .ws, .ws, .ws, .ws, .ws, .ws])

/-- The device has been polled once, and the first connection has one text. -/
private theorem run_page : ∃ s, run liveStep started page = some s ∧
    s.serial.poll.requests = [⟨"A", 0, pointFrame SlaveState.deviceBlock⟩] ∧
    s.service.loop = .idle ∧
    (s.service.clients 5).map (fun con => (con.joined, con.received.length)) = some (0, 1) := by
  obtain ⟨s, hrun, hdone⟩ := Option.map_eq_some_iff.mp
    (show (run liveStep started page).map (fun s => (s.serial.poll.requests, s.service.loop,
        (s.service.clients 5).map fun con => (con.joined, con.received.length))) =
      some ([⟨"A", 0, pointFrame SlaveState.deviceBlock⟩], .idle, some (0, 1)) by
        decide +kernel)
  obtain ⟨hrequests, hrest⟩ := Prod.mk.inj hdone
  obtain ⟨hloop, hclient⟩ := Prod.mk.inj hrest
  exact ⟨s, hrun, hrequests, hloop, hclient⟩

/-- The connection has received the readings. -/
theorem viewer_readings_page : ∃ s con, run liveStep started page = some s ∧
    s.service.clients 5 = some con ∧ con.joined = 0 ∧ con.received.length = 1 ∧
    s.Views (Polled (fun _ _ _ addr => UInt16.ofNat addr) [SlaveState.deviceBlock] [voltagePoint]
        s.serial.poll.published)
      (fun rttask => ∃ recvData, .getRTData recvData ∈ page ∧
        parseRTtask askBackend recvData = some rttask) con := by
  obtain ⟨s, hrun, hrequests, -, hclient⟩ := run_page
  obtain ⟨con, hcon, hone⟩ := Option.map_eq_some_iff.mp hclient
  obtain ⟨hjoined, hlength⟩ := Prod.mk.inj hone
  have hsupplies : ∀ e ∈ page, e.Supplies [SlaveState.deviceBlock] := by
    simp [page, SlaveState.deviceRound, LiveEvent.Supplies, SlaveEvent.Supplies]
  have hhonest : s.serial.Honest (fun _ _ _ addr => UInt16.ofNat addr)
      fun _ => SlaveState.deviceAnswer := by
    intro k r hr
    obtain ⟨rfl, rfl⟩ : k = 0 ∧ _ = r := by simpa [hrequests, List.getElem?_singleton] using hr
    exact ⟨_, rfl, by decide +kernel⟩
  have hfits : ∀ block ∈ [SlaveState.deviceBlock], Fits [voltagePoint] block := by decide +kernel
  exact ⟨s, con, hrun, hcon, hjoined, hlength,
    viewer_readings SlaveState.unaltered_deviceAnswer startUp_started hsupplies hrun hhonest hfits
      hcon⟩

/-- The page is closed after `echo_server.send` and before the increment. -/
private def closedInLoop : List (LiveEvent Decimal) :=
  [.connection (.opened 5), .getRTData askBody, .task 0, .ws, .ws, .ws,
    .connection (.closing 5), .connection (.closed 5), .ws]

/-- The page is closed after the increment. -/
private def closedAfterLoop : List (LiveEvent Decimal) :=
  [.connection (.opened 5), .getRTData askBody, .task 0, .ws, .ws, .ws, .ws,
    .connection (.closing 5), .connection (.closed 5), .ws, .ws]

/-- The connection was open when it was served, and yet the first run ends the process. -/
theorem survives_closedInLoop :
    (∃ s, run liveStep started closedInLoop = some s ∧ s.service.ended = some .undefined ∧
      ¬ StepsMeet liveStep Undisturbed started closedInLoop) ∧
    ∃ s, run liveStep started closedAfterLoop = some s ∧ s.pushes.length = 2 ∧
      StepsMeet liveStep Undisturbed started closedAfterLoop := by
  constructor
  · obtain ⟨s, hrun, hended⟩ := Option.map_eq_some_iff.mp
      (show (run liveStep started closedInLoop).map (fun s => s.service.ended) =
        some (some .undefined) by decide +kernel)
    refine ⟨s, hrun, hended, fun hcalm => ?_⟩
    have halive := ((survives_iff startUp_started hrun).mpr hcalm).1
    rw [hended] at halive
    cases halive
  · obtain ⟨s, hrun, hdone⟩ := Option.map_eq_some_iff.mp
      (show (run liveStep started closedAfterLoop).map (fun s =>
          (s.pushes.length, s.service.ended, s.service.advance.ended)) = some (2, none, none) by
        decide +kernel)
    obtain ⟨hlength, hsecure⟩ := Prod.mk.inj hdone
    exact ⟨s, hrun, hlength, (survives_iff startUp_started hrun).mp (Prod.mk.inj hsecure)⟩

/-- The task is switched off between the test and the push, with one connection open. -/
theorem quiet_after_off_started :
    let events : List (LiveEvent Decimal) := [.connection (.opened 5), .ws, .ws, .ws, .ws, .ws]
    ∃ s, run liveStep { started with wsPc := .operation } events = some s ∧
      (s.service.clients 5).map (fun con => con.received) = some ["[]"] ∧
      s.pushes.length ≤ 0 + 1 := by
  intro events
  obtain ⟨s, hrun, hreceived⟩ := Option.map_eq_some_iff.mp
    (show (run liveStep { started with wsPc := .operation } events).map
      (fun s => (s.service.clients 5).map fun con => con.received) = some (some ["[]"]) by
        decide +kernel)
  have hoff : StepsMeet liveStep StaysOff { started with wsPc := .operation } events := by
    simp [events, StepsMeet, StaysOff]
  exact ⟨s, hrun, hreceived, quiet_after_off rfl hoff hrun⟩

end Page

end LiveState

end CsiFirmware.Webserver
