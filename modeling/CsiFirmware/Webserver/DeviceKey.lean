import CsiFirmware.Task.Addressing
import CsiFirmware.Task.Decode
import CsiFirmware.Task.Lines
import CsiFirmware.Task.ReadOffsets
import CsiFirmware.Webserver.SendDataToWeb

/-!
# The key of a device

Reference: `TaskSerial::loadAllList`, `TaskSerial::serialTaskRun`, the constructor of
`NetWorkLayerImp` and `NetWorkLayerImp::sendDataToWeb`.

`TaskSerial` keeps the protocol objects by `devName` and publishes the readings under that key. The
web server stores the key as `sn` and compares it with the `dev_sn` of a request.
`answeredBySn_iff` says for which devices the two ends meet.
-/

namespace CsiFirmware.Webserver

open Protocol Runs CsiFirmware.Task

variable {δ : Type} [CDouble δ] [DecidableEq δ]

/-- What `serialTaskRun` publishes for a device whose blocks have been collected. -/
def seriesRTSrcInfo (u : Undefined) (vPoints : List (ModbusPoint δ))
    (polled : String × List (RTSrcInfo δ)) : String × List (RTSrcInfo δ) :=
  (polled.1, vSingleRTSrcInfo u vPoints polled.2)

/-- The answer to a telemetry request after a publication. -/
def ycAnswer (w : NetWorkLayerImp δ) (msg : String × List (RTSrcInfo δ)) (isOn : Int)
    (devSn : String) : Option String :=
  (operationRTtask (onSeriesRTSrcInfo w msg) { isOn, devSn, id := .yc }).1

/-- Whatever the server has done before, a request that names the `sn` of the device is answered
with the readings just published, and the answer to one that names the `sn` of another device of the
list does not depend on them. -/
structure AnsweredBySn (devList : List DevInfo) (dev : DevInfo)
    (msg : String × List (RTSrcInfo δ)) : Prop where
  own : ∀ w isOn, ycAnswer w msg isOn dev.sn = some (listText msg.2)
  other : ∀ w isOn, ∀ dev' ∈ devList, dev' ≠ dev → ∀ infos,
    ycAnswer w msg isOn dev'.sn = ycAnswer w (msg.1, infos) isOn dev'.sn

variable {w : NetWorkLayerImp δ} {msg : String × List (RTSrcInfo δ)} {isOn : Int} {devSn : String}

/-- A request under the name of the publication is answered with it. -/
theorem ycAnswer_self : ycAnswer w msg isOn msg.1 = some (listText msg.2) := by
  simp [ycAnswer, operationRTtask, sendDataToWeb, onSeriesRTSrcInfo]

/-- Under another name than that of the publication there is only the cached list. -/
theorem ycAnswer_of_ne (hne : devSn ≠ msg.1) :
    ycAnswer w msg isOn devSn =
      some (if w.preSn = devSn then listText w.vPreRTSrcInfo else placeholder) := by
  have hanswer : (sendDataToWeb (onSeriesRTSrcInfo w msg) devSn).1 =
      if w.preSn = devSn then listText w.vPreRTSrcInfo else placeholder := by
    have hlive : devSn ≠ (onSeriesRTSrcInfo w msg).sn := hne
    rw [sendDataToWeb, if_neg hlive]
    exact apply_ite Prod.fst ..
  exact congrArg some hanswer

/-- Only requests under the name of the publication are answered with it in every state of the
server. -/
theorem eq_of_ycAnswer (h : ∀ w isOn, ycAnswer w msg isOn devSn = some (listText msg.2)) :
    devSn = msg.1 := by
  by_contra hne
  obtain ⟨other, hother⟩ : ∃ other : String, other ≠ devSn := by
    by_cases hempty : devSn = ""
    · exact ⟨"-", by rw [hempty]; decide⟩
    · exact ⟨"", Ne.symm hempty⟩
  -- one server with nothing to show and one with an empty list in its cache
  have hnothing := h { NetWorkLayerImp.init with preSn := other } 0
  have hcached := h { NetWorkLayerImp.init with preSn := devSn } 0
  rw [ycAnswer_of_ne hne, if_neg hother] at hnothing
  rw [ycAnswer_of_ne hne, if_pos rfl] at hcached
  have hplaceholder : placeholder = "[]" :=
    (Option.some.inj hnothing).trans (Option.some.inj hcached).symm
  exact absurd hplaceholder (by decide +kernel)

/-- Requests by `sn` work exactly if the publication is under the `sn` of the device. -/
theorem answeredBySn_iff_key {devList : List DevInfo} {dev : DevInfo}
    (hdistinct : (devList.map DevInfo.sn).Nodup) (hdev : dev ∈ devList) :
    AnsweredBySn devList dev msg ↔ dev.sn = msg.1 := by
  constructor
  · intro h
    exact eq_of_ycAnswer h.own
  · intro hkey
    refine ⟨fun w isOn => ?_, fun w isOn dev' hdev' hne infos => ?_⟩
    · rw [hkey, ycAnswer_self]
    · have hsn : dev'.sn ≠ msg.1 := fun heq =>
        hne (List.inj_on_of_nodup_map hdistinct hdev' hdev (heq.trans hkey.symm))
      have hother : ∀ msg' : String × List (RTSrcInfo δ), msg'.1 = msg.1 →
          ycAnswer w msg' isOn dev'.sn =
            some (if w.preSn = dev'.sn then listText w.vPreRTSrcInfo else placeholder) :=
        fun msg' hmsg' => ycAnswer_of_ne (hmsg' ▸ hsn)
      rw [hother msg rfl, hother (msg.1, infos) rfl]

variable {env : Environment δ} {tty : ℕ → UInt8 → List UInt8} {slaves : Int → ℕ → PositiveReply}
  {s s' : TaskSerial δ}

omit [DecidableEq δ] in
/-- The blocks of the current device are published under the key of the map. -/
theorem published_of_publish (hpc : s.poll.pollPc = .publish)
    (hstep : s.step env tty slaves (.poll .poll) = some s') :
    s'.poll.published = s.poll.published ++ [(s.poll.device, s.poll.vRtSrcInfo)] := by
  obtain ⟨poll, hpoll, rfl⟩ := Option.map_eq_some_iff.mp hstep
  cases PollState.step_transition hpoll with
  | publish device m pc at_it => simp [PollState.device_eq at_it]
  | startRound pc | endRound pc | startDevice _ _ pc | endDevice _ _ _ _ pc
  | request _ _ _ _ _ _ pc | disarm pc | retryDisarm pc | parse pc | answered _ pc =>
      rw [hpc] at pc
      cases pc
  | notify pc => simp [hpc] at pc

/-- When the readings of a device of the list have just been published, requests by `sn` work if and
only if its `sn` is its `devName`. -/
theorem answeredBySn_iff (u : Undefined) (vPoints : List (ModbusPoint δ))
    (hdistinct : (s.lists.devList.map DevInfo.sn).Nodup) {dev : DevInfo} (hdev : dev ∈ s.current)
    (hpc : s.poll.pollPc = .publish) (hstep : s.step env tty slaves (.poll .poll) = some s') :
    ∃ polled, s'.poll.published = s.poll.published ++ [polled] ∧
      (AnsweredBySn s.lists.devList dev (seriesRTSrcInfo u vPoints polled) ↔
        dev.sn = dev.devName) := by
  refine ⟨_, published_of_publish hpc hstep, ?_⟩
  obtain ⟨hmem, hname⟩ := List.mem_filter.mp hdev
  have hkey : dev.devName = s.poll.device := of_decide_eq_true hname
  rw [answeredBySn_iff_key hdistinct hmem, hkey]
  rfl

/-- A serial port in use. -/
private def rs485Port : SerialIdInfo :=
  { serialId := 0, statu := 0, serialName := "RS485-1", name := "RS485-1", id := ""
    serialParamInfo := ⟨9600, 8, "1", "N", 0, 0⟩ }

/-- A device on this port. -/
private def modbusDevice (devName : String) (addr : Int) (sn : String) : DevInfo :=
  { id := "", devName, serialInfo := rs485Port, protocol := "modbus", addr, category := ""
    model := "", sn, deviceStatus := 0 }

/-- An inverter, and a meter on the same line. -/
private def twoDevices (sn : String) : List DevInfo :=
  [modbusDevice "inverter" 1 sn, modbusDevice "meter" 2 "SN002"]

/-- Two registers. -/
private def infoBlock : ModbusPoint Decimal :=
  ⟨"设备信息", "", "", ⟨1000000⟩, "", 0, 0, [⟨0x03, (0x0C, 0xE4), (0x00, 0x02)⟩]⟩

/-- A voltage and a current, one register each. -/
private def infoPoints : List (ModbusPoint Decimal) :=
  [loadPoint ⟨"voltage", "U16", ⟨1000000⟩, "V", 3300⟩,
    loadPoint ⟨"current", "S16", ⟨1000000⟩, "A", 3301⟩]

/-- A port that can be opened, and the block table. -/
private def hardware : Environment Decimal := ⟨fun _ => 3, [infoBlock]⟩

/-- A reply to the function 0x03. -/
private theorem isReadReply : (0x03 : UInt8) = 0x03 ∨ (0x03 : UInt8) = 0x04 := .inl rfl

/-- The registers hold 230 and 7. -/
private def replies (_ : Int) (_ : ℕ) : PositiveReply where
  addr := 0x01
  func := 0x03
  data := [0x00, 0xE6, 0x00, 0x07]
  crc := (0x00, 0x00)
  func_eq := isReadReply
  data_pos := by simp
  data_le := by simp

/-- After the constructors. -/
private def atStart : TaskSerial Decimal :=
  { lists := TaskLists.init, poll := .new [] [infoBlock], polled := [] }

/-- The program can begin in this state. -/
private theorem initial_atStart : atStart.Initial :=
  ⟨rfl, (PollState.startUp_new [] [infoBlock]).toInitial, rfl, rfl⟩

/-- The lists arrive, and the first round comes to the publication for its first device. -/
private def firstPublication (devs : List DevInfo) : List (SerialEvent Decimal) :=
  [.lists (.serials [rs485Port]) [], .lists (.devices devs) [], .lists .work ["inverter", "meter"],
    .poll .poll, .poll .poll, .poll .poll, .poll .poll, .poll (.recv 0), .poll (.recv 0),
    .poll (.recv 9), .poll (.recv 0), .poll .poll, .poll .poll, .poll .poll, .poll .poll]

/-- What has been collected for the inverter. -/
private def collected : RTSrcInfo Decimal :=
  { (RTSrcInfo.fresh : RTSrcInfo Decimal).setIdata 4 with
    title := "设备信息", buf := [0x00, 0xE6, 0x00, 0x07] }

/-- The run comes to the publication, which shows what was collected for the inverter. -/
private theorem exists_publication {sn : String} (hsn : sn = "inverter" ∨ sn = "SN001") :
    ∃ s ∈ run (TaskSerial.step hardware linuxTty replies) atStart
        (firstPublication (twoDevices sn)),
      s.lists.devList = twoDevices sn ∧ modbusDevice "inverter" 1 sn ∈ s.current ∧
        s.poll.pollPc = .publish ∧
        ∃ s' ∈ s.step hardware linuxTty replies (.poll .poll),
          s'.poll.published = [("inverter", [collected])] := by
  rcases hsn with rfl | rfl <;> decide +kernel

/-- The `sn` of the inverter is its name. What is published for it are the values of its registers,
and requests by the `sn` of the meter do not get them. -/
theorem answeredBySn_of_name : ∃ s' : TaskSerial Decimal,
    s'.poll.published = [("inverter", [collected])] ∧
    AnsweredBySn (twoDevices "inverter") (modbusDevice "inverter" 1 "inverter")
      (seriesRTSrcInfo .zero infoPoints ("inverter", [collected])) ∧
    (seriesRTSrcInfo .zero infoPoints ("inverter", [collected])).2.map
      (fun info => (info.sourceName, info.value.idata)) = [("voltage", 230), ("current", 7)] := by
  obtain ⟨s, -, hlist, hcurrent, hpc, s', hstep, hpublished'⟩ := exists_publication (.inl rfl)
  obtain ⟨polled, hpublished, hiff⟩ :=
    answeredBySn_iff .zero infoPoints (by rw [hlist]; decide) hcurrent hpc hstep
  obtain rfl : polled = ("inverter", [collected]) := by
    have hlast := congrArg List.getLast? (hpublished.symm.trans hpublished')
    rw [List.getLast?_concat] at hlast
    exact Option.some.inj hlast
  exact ⟨s', hpublished', hlist ▸ hiff.mpr rfl, by decide +kernel⟩

/-- A device whose `sn` is not its name is published under the name, and requests by `sn` get the
placeholder. -/
theorem not_answeredBySn :
    ¬ ∀ (s s' : TaskSerial Decimal) (dev : DevInfo),
      Reachable (TaskSerial.step hardware linuxTty replies) TaskSerial.Initial s →
      (s.lists.devList.map DevInfo.devName).Nodup → (s.lists.devList.map DevInfo.sn).Nodup →
      dev ∈ s.current → s.poll.pollPc = .publish →
      s.step hardware linuxTty replies (.poll .poll) = some s' →
      ∀ polled, s'.poll.published = s.poll.published ++ [polled] →
        AnsweredBySn s.lists.devList dev (seriesRTSrcInfo .zero infoPoints polled) := by
  intro h
  obtain ⟨s, hrun, hlist, hcurrent, hpc, s', hstep, -⟩ := exists_publication (.inr rfl)
  have hanswered := h s s' _ ⟨atStart, _, initial_atStart, hrun⟩ (by rw [hlist]; decide)
    (by rw [hlist]; decide) hcurrent hpc hstep _ (published_of_publish hpc hstep)
  obtain ⟨hmem, hname⟩ := List.mem_filter.mp hcurrent
  have hkey : (modbusDevice "inverter" 1 "SN001").devName = s.poll.device := of_decide_eq_true hname
  -- a request by `sn` works only if it is the key, and the key is the name
  have hsn : (modbusDevice "inverter" 1 "SN001").sn = s.poll.device := eq_of_ycAnswer hanswered.own
  exact absurd (hsn.trans hkey.symm) (by decide)

end CsiFirmware.Webserver
