import CsiFirmware.DataStructure
import CsiFirmware.Lib.Runs

/-!
# Readings on the web page

Reference: `NetWorkLayerImp::sendDataToWeb` and the subscriber in the constructor of
`NetWorkLayerImp`.

The page asks for the readings of one device at a time. The server holds the list published last,
under `sn`, and the list it rendered last from there, `v_PreRTSrcInfo`. A request for `preSn`, the
device of the request before, is answered from the second list; but `preSn` follows every request,
and the list only those that named `sn`. `answered_always` says for which histories the answers stay
with the device that was asked for.
-/

namespace CsiFirmware.Webserver

open Runs

variable {δ : Type} [CDouble δ] [DecidableEq δ]

/-! ## Rendering -/

/-- The JSON object of one reading. -/
def sourceText (info : RTSrcInfo δ) : String :=
  let value :=
    if info.value.idata = -1 ∧ info.value.sData = "NULL" then CDouble.toStr info.value.ddata
    else if info.value.ddata = CDouble.negOne ∧ info.value.sData = "NULL" then
      toString info.value.idata
    else info.value.sData
  "\x7b\"sourceName\":\"" ++ info.sourceName ++ "\", \"value\":\"" ++ value ++ "\", \"unit\":\"" ++
    info.unit ++ "\"\x7d"

/-- The JSON array of a list of readings. -/
def listText (infos : List (RTSrcInfo δ)) : String :=
  "[" ++ ",".intercalate (infos.map sourceText) ++ "]"

/-- The answer when there is nothing to show: an array with one empty reading. -/
def placeholder : String :=
  "[" ++ "\x7b\"sourceName\":\"" ++ "" ++ "\", \"value\":\"" ++ "" ++ "\", \"unit\":\"" ++ "" ++
    "\"\x7d" ++ "]"

/-- No readings give an empty array. -/
theorem listText_nil : listText ([] : List (RTSrcInfo δ)) = "[]" := rfl

/-! ## The server -/

/-- The members of `NetWorkLayerImp` that hold readings. -/
structure NetWorkLayerImp (δ : Type) where
  vRTSrcInfo : List (RTSrcInfo δ)
  vPreRTSrcInfo : List (RTSrcInfo δ)
  sn : String
  preSn : String

/-- After the constructor, with empty lists and empty names. -/
def NetWorkLayerImp.init : NetWorkLayerImp δ :=
  { vRTSrcInfo := [], vPreRTSrcInfo := [], sn := "", preSn := "" }

/-- The callback subscribed to `TaskSerial/seriesRTSrcInfo`. -/
def onSeriesRTSrcInfo (w : NetWorkLayerImp δ) (msg : String × List (RTSrcInfo δ)) :
    NetWorkLayerImp δ :=
  { w with vRTSrcInfo := msg.2, sn := msg.1 }

/-- The text sent for a request that names `devSn`, and the members afterwards. -/
def sendDataToWeb (w : NetWorkLayerImp δ) (devSn : String) : String × NetWorkLayerImp δ :=
  if devSn = w.sn then
    (listText w.vRTSrcInfo, { w with vPreRTSrcInfo := w.vRTSrcInfo, preSn := devSn })
  else if w.preSn = devSn then (listText w.vPreRTSrcInfo, { w with preSn := devSn })
  else (placeholder, { w with preSn := devSn })

/-- `RTtaskId`, the kinds of data that a page can ask for. -/
inductive RTtaskId where
  /-- Telemetry. -/
  | yc
  /-- Remote signals. -/
  | yx
  /-- Remote control. -/
  | yk
  /-- Remote adjustment. -/
  | yt
deriving DecidableEq

/-- `s_RTtask`. -/
structure RTtask where
  isOn : Int
  devSn : String
  id : RTtaskId
deriving DecidableEq

/-- `operation(s_RTtask)`: what is sent, and the members afterwards. -/
def operationRTtask (w : NetWorkLayerImp δ) (rttask : RTtask) :
    Option String × NetWorkLayerImp δ :=
  match rttask.id with
  | .yc => (some (sendDataToWeb w rttask.devSn).1, (sendDataToWeb w rttask.devSn).2)
  | .yx | .yk | .yt => (none, w)

/-! ## Histories -/

/-- What can happen to the server. -/
inductive WebEvent (δ : Type) where
  /-- A list of readings is published under a device name. -/
  | publish (devSn : String) (infos : List (RTSrcInfo δ))
  /-- The page requests the readings of a device. -/
  | request (devSn : String)

/-- The server together with the history that its answers are judged by: everything published so
far, and the device of the last request that was answered from the list published last. -/
structure Session (δ : Type) where
  server : NetWorkLayerImp δ
  published : List (String × List (RTSrcInfo δ))
  lastLive : Option String

namespace Session

/-- A session that has just begun. -/
def init : Session δ := { server := .init, published := [], lastLive := none }

/-- The server takes over a publication, or answers a request. -/
def step (s : Session δ) : WebEvent δ → Option (Session δ)
  | .publish devSn infos =>
      some { s with
        server := onSeriesRTSrcInfo s.server (devSn, infos)
        published := (devSn, infos) :: s.published }
  | .request devSn =>
      some { s with
        server := (sendDataToWeb s.server devSn).2
        lastLive := if devSn = s.server.sn then some devSn else s.lastLive }

end Session

/-- The texts a request for `devSn` may be answered with. -/
def Permitted (published : List (String × List (RTSrcInfo δ))) (devSn text : String) : Prop :=
  text = placeholder ∨ text = "[]" ∨ ∃ infos, (devSn, infos) ∈ published ∧ text = listText infos

/-- A request is answered with a permitted text. -/
def Answered (s : Session δ) (e : WebEvent δ) (_ : Session δ) : Prop :=
  match e with
  | .publish _ _ => True
  | .request devSn => Permitted s.published devSn (sendDataToWeb s.server devSn).1

/-- A request names the device published last, or another device than the request before it, or the
device of the last request answered from the list published last, if there was one. -/
def AsksOwnCache (s : Session δ) : WebEvent δ → Prop
  | .publish _ _ => True
  | .request devSn =>
      devSn = s.server.sn ∨ devSn ≠ s.server.preSn ∨ ∀ d ∈ s.lastLive, d = devSn

/-- Both lists are empty or were published, the first under `sn` and the second under `lastLive`. -/
structure Session.Attributed (s : Session δ) : Prop where
  live : s.server.vRTSrcInfo = [] ∨ (s.server.sn, s.server.vRTSrcInfo) ∈ s.published
  cached : s.server.vPreRTSrcInfo = [] ∨
    ∃ d ∈ s.lastLive, (d, s.server.vPreRTSrcInfo) ∈ s.published

/-- A list that is empty or was published under the device may be shown for it. -/
theorem permitted_listText {published : List (String × List (RTSrcInfo δ))} {devSn : String}
    {infos : List (RTSrcInfo δ)} (h : infos = [] ∨ (devSn, infos) ∈ published) :
    Permitted published devSn (listText infos) := by
  rcases h with rfl | h
  · exact Or.inr (Or.inl listText_nil)
  · exact Or.inr (Or.inr ⟨infos, h, rfl⟩)

omit [CDouble δ] [DecidableEq δ] in
/-- A publication keeps the attribution of both lists. -/
theorem Session.Attributed.publish {s : Session δ} (h : s.Attributed) (devSn : String)
    (infos : List (RTSrcInfo δ)) :
    Attributed { s with
      server := onSeriesRTSrcInfo s.server (devSn, infos)
      published := (devSn, infos) :: s.published } where
  live := Or.inr List.mem_cons_self
  cached := by
    rcases h.cached with hnil | ⟨d, hd, hmem⟩
    · exact Or.inl hnil
    · exact Or.inr ⟨d, hd, List.mem_cons_of_mem _ hmem⟩

/-- A request keeps the attribution of both lists, whatever device it names. -/
theorem Session.Attributed.request {s : Session δ} (h : s.Attributed) (devSn : String) :
    Attributed { s with
      server := (sendDataToWeb s.server devSn).2
      lastLive := if devSn = s.server.sn then some devSn else s.lastLive } := by
  simp only [sendDataToWeb]
  split_ifs with hlive hpre
  · constructor
    · exact h.live
    · -- the list just rendered becomes the cached one
      subst hlive
      exact h.live.imp_right fun hmem => ⟨_, rfl, hmem⟩
  · exact ⟨h.live, h.cached⟩
  · exact ⟨h.live, h.cached⟩

/-- An answer is permitted unless the cached list belongs to another device. -/
theorem Session.Attributed.permitted {s : Session δ} (h : s.Attributed) {devSn : String}
    (hask : AsksOwnCache s (.request devSn)) :
    Permitted s.published devSn (sendDataToWeb s.server devSn).1 := by
  simp only [sendDataToWeb]
  split_ifs with hlive hpre
  · subst hlive
    exact permitted_listText h.live
  · rcases hask with hlive' | hother | hown
    · exact absurd hlive' hlive
    · exact absurd hpre.symm hother
    · refine permitted_listText (h.cached.imp_right ?_)
      rintro ⟨d, hd, hmem⟩
      rwa [← hown d hd]
  · exact Or.inl rfl

/-- In every history whose requests ask for nothing but their own cached list, every answer is the
placeholder, an empty array or a list published under the device that was asked for. -/
theorem answered_always {events : List (WebEvent δ)}
    (h : StepsMeet Session.step AsksOwnCache Session.init events) :
    Always Session.step Answered Session.init events := by
  refine h.always Session.Attributed ?_ ⟨Or.inl rfl, Or.inl rfl⟩
  rintro s (⟨devSn, infos⟩ | devSn) hs hask
  · exact ⟨_, rfl, trivial, hs.publish devSn infos⟩
  · exact ⟨_, rfl, hs.permitted hask, hs.request devSn⟩

/-- A voltage of 230 V. -/
private def voltage : RTSrcInfo Decimal :=
  { title := "运行信息", sourceName := "voltage", value := ⟨230, CDouble.negOne, "NULL"⟩, buf := []
    unit := "V" }

/-- After a publication for another device the list is shown from the cache. -/
theorem answered_from_cache :
    Always Session.step Answered (.init : Session Decimal)
      [.publish "A" [voltage], .request "A", .publish "B" [], .request "A"] :=
  answered_always (by simp [StepsMeet, Session.step, AsksOwnCache, Session.init, onSeriesRTSrcInfo,
    sendDataToWeb])

/-- Only `A` publishes. The first request for `B` moves `preSn` and leaves the list of `A`, which
the second one is then answered with. -/
theorem not_answered_always :
    ¬ ∀ events : List (WebEvent Decimal), Always Session.step Answered Session.init events := by
  intro h
  obtain ⟨_, ⟨⟩, -, _, ⟨⟩, -, _, ⟨⟩, -, _, ⟨⟩, hanswer, -⟩ :=
    h [.publish "A" [voltage], .request "A", .request "B", .request "B"]
  -- the answer is the list of `A`, which is none of the three
  rcases hanswer with hplaceholder | hempty | ⟨infos, hmem, -⟩
  · exact absurd hplaceholder (by decide +kernel)
  · exact absurd hempty (by decide +kernel)
  · obtain ⟨hname, -⟩ := Prod.mk.inj (List.mem_singleton.mp hmem)
    exact absurd hname (by decide)

end CsiFirmware.Webserver
