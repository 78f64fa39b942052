import CsiFirmware.Webserver.SendDataToWeb

/-!
# One viewer, many devices

Reference: `NetWorkLayerImp::sendDataToWeb`.

A page that shows one device asks for it again and again, while the devices are polled in turn. The
server keeps the list published last, of whichever device, and refreshes its copy of a list only
when a request comes before the next device is published. `fresh_always` says when that is enough
for every answer to be the newest list of the device.
-/

namespace CsiFirmware.Webserver

open Runs

variable {δ : Type} [CDouble δ] [DecidableEq δ]

/-- The list published last under a device; the newest publication is first. -/
def latest (devSn : String) (published : List (String × List (RTSrcInfo δ))) :
    Option (List (RTSrcInfo δ)) :=
  (published.find? fun p => p.1 = devSn).map Prod.snd

/-- The newest publication is one of the device. -/
def Newest (devSn : String) (published : List (String × List (RTSrcInfo δ))) : Prop :=
  published.head?.map Prod.fst = some devSn

instance (devSn : String) (published : List (String × List (RTSrcInfo δ))) :
    Decidable (Newest devSn published) :=
  inferInstanceAs (Decidable (_ = _))

/-- A session with one viewer, of the device `devSn` below. -/
structure Viewer (δ : Type) where
  session : Session δ
  /-- The latest list of the device was requested while it was the newest publication. -/
  shown : Bool

namespace Viewer

/-- A viewer that has seen nothing. -/
def init : Viewer δ := { session := .init, shown := false }

/-- A publication of the device makes what was shown of it out of date. -/
def step (devSn : String) (v : Viewer δ) (e : WebEvent δ) : Option (Viewer δ) :=
  (v.session.step e).map fun session =>
    match e with
    | .publish name _ => { session, shown := if name = devSn then false else v.shown }
    | .request _ => { session, shown := v.shown || decide (Newest devSn v.session.published) }

/-- A request names the device. -/
def Names (devSn : String) : WebEvent δ → Prop
  | .publish _ _ => True
  | .request name => name = devSn

/-- A request after the first publication of the device is answered with its latest list. -/
def Fresh (devSn : String) (v : Viewer δ) (e : WebEvent δ) (_ : Viewer δ) : Prop :=
  match e with
  | .publish _ _ => True
  | .request name => ∀ infos, latest devSn v.session.published = some infos →
      (sendDataToWeb v.session.server name).1 = listText infos

/-- A request comes before the first publication of the device, or while its latest list is the
newest publication, or after another request that did. -/
def InTime (devSn : String) (v : Viewer δ) : WebEvent δ → Prop
  | .publish _ _ => True
  | .request _ => latest devSn v.session.published = none ∨ Newest devSn v.session.published ∨
      v.shown = true

/-- The server holds the newest publication, and once the latest list of the device has been shown,
also that. -/
structure Inv (devSn : String) (v : Viewer δ) : Prop where
  live : ∀ p ∈ v.session.published.head?,
    v.session.server.sn = p.1 ∧ v.session.server.vRTSrcInfo = p.2
  cached : v.shown = true → v.session.server.preSn = devSn ∧
    latest devSn v.session.published = some v.session.server.vPreRTSrcInfo

variable {devSn : String} {v : Viewer δ}

omit [CDouble δ] [DecidableEq δ] in
/-- A publication counts for the device if it is under its name. -/
theorem latest_cons (p : String × List (RTSrcInfo δ))
    (published : List (String × List (RTSrcInfo δ))) :
    latest devSn (p :: published) = if p.1 = devSn then some p.2 else latest devSn published := by
  by_cases hname : p.1 = devSn <;> simp [latest, hname]

omit [CDouble δ] [DecidableEq δ] in
/-- If the newest publication is one of the device, the server holds its latest list. -/
theorem Inv.of_newest (h : v.Inv devSn) (hnewest : Newest devSn v.session.published) :
    v.session.server.sn = devSn ∧
      latest devSn v.session.published = some v.session.server.vRTSrcInfo := by
  obtain ⟨p, hp, hname⟩ := Option.map_eq_some_iff.mp hnewest
  obtain ⟨hsn, hinfos⟩ := h.live p hp
  obtain ⟨rest, hpublished⟩ : ∃ rest, v.session.published = p :: rest :=
    ⟨_, (List.cons_head?_tail hp).symm⟩
  refine ⟨hsn.trans hname, ?_⟩
  rw [hpublished, latest_cons, if_pos hname, hinfos]

omit [CDouble δ] [DecidableEq δ] in
/-- Once there is a publication, the server holds the name of the newest. -/
theorem Inv.newest_of_sn (h : v.Inv devSn) {infos : List (RTSrcInfo δ)}
    (hlatest : latest devSn v.session.published = some infos)
    (hsn : devSn = v.session.server.sn) : Newest devSn v.session.published := by
  cases hpublished : v.session.published with
  | nil => simp [hpublished, latest] at hlatest
  | cons p rest =>
      have hname := (h.live p (by rw [hpublished]; rfl)).1
      rw [Newest, List.head?_cons, Option.map_some, ← hname, hsn]

omit [CDouble δ] [DecidableEq δ] in
/-- The server holds what was published last, and the copy of another device is not touched. -/
theorem Inv.publish (h : v.Inv devSn) (name : String) (infos : List (RTSrcInfo δ)) :
    Inv devSn {
      session := { v.session with
        server := onSeriesRTSrcInfo v.session.server (name, infos)
        published := (name, infos) :: v.session.published }
      shown := if name = devSn then false else v.shown } where
  live p hp := by
    obtain rfl := Option.some.inj hp
    exact ⟨rfl, rfl⟩
  cached hshown := by
    obtain ⟨hother, hshown⟩ : name ≠ devSn ∧ v.shown = true := by simpa using hshown
    simp only [latest_cons, if_neg hother]
    exact h.cached hshown

/-- A request that comes in time is answered with the latest list. -/
theorem Inv.fresh (h : v.Inv devSn) {infos : List (RTSrcInfo δ)}
    (hlatest : latest devSn v.session.published = some infos)
    (htime : Newest devSn v.session.published ∨ v.shown = true) :
    (sendDataToWeb v.session.server devSn).1 = listText infos := by
  simp only [sendDataToWeb]
  by_cases hnewest : Newest devSn v.session.published
  · obtain ⟨hsn, hlive⟩ := h.of_newest hnewest
    rw [if_pos hsn.symm, ← Option.some.inj (hlive.symm.trans hlatest)]
  · -- another device has been published since, so the answer comes from the copy
    obtain ⟨hpre, hcached⟩ := h.cached (htime.resolve_left hnewest)
    have hother : devSn ≠ v.session.server.sn := fun hsn => hnewest (h.newest_of_sn hlatest hsn)
    rw [if_neg hother, if_pos hpre, ← Option.some.inj (hcached.symm.trans hlatest)]

/-- A request that comes in time takes the latest list into the copy, and one that does not changes
neither. -/
theorem Inv.request (h : v.Inv devSn) (lastLive : Option String) :
    Inv devSn {
      session := { v.session with
        server := (sendDataToWeb v.session.server devSn).2, lastLive }
      shown := v.shown || decide (Newest devSn v.session.published) } where
  live := by
    simp only [sendDataToWeb]
    split_ifs <;> exact h.live
  cached hshown := by
    rw [Bool.or_eq_true, decide_eq_true_eq] at hshown
    simp only [sendDataToWeb]
    by_cases hnewest : Newest devSn v.session.published
    · obtain ⟨hsn, hlive⟩ := h.of_newest hnewest
      rw [if_pos hsn.symm]
      exact ⟨rfl, hlive⟩
    · -- it was shown before, and is answered from the copy
      obtain ⟨hpre, hcached⟩ := h.cached (hshown.resolve_right hnewest)
      rw [if_neg fun hsn => hnewest (h.newest_of_sn hcached hsn), if_pos hpre]
      exact ⟨rfl, hcached⟩

omit [CDouble δ] [DecidableEq δ] in
/-- Nothing is published and nothing is shown. -/
theorem inv_init : Inv devSn (init : Viewer δ) where
  live p hp := by cases hp
  cached hshown := by cases hshown

/-- In every history with one viewer whose requests come in time, every request after the first
publication of the device is answered with its latest list. -/
theorem fresh_always {events : List (WebEvent δ)} (hviewer : ∀ e ∈ events, Names devSn e)
    (h : StepsMeet (step devSn) (InTime devSn) init events) :
    Always (step devSn) (Fresh devSn) init events := by
  refine ((stepsMeet_of_forall hviewer _).and h).always (Inv devSn) ?_ inv_init
  rintro v (⟨name, infos⟩ | name) hv ⟨hname, htime⟩
  · exact ⟨_, rfl, trivial, hv.publish name infos⟩
  · obtain rfl : name = devSn := hname
    refine ⟨_, rfl, fun infos hlatest => hv.fresh hlatest ?_, hv.request _⟩
    exact htime.resolve_left (by simp [hlatest])

/-- A current of 12 A. -/
private def current : RTSrcInfo Decimal :=
  { title := "运行信息", sourceName := "current", value := ⟨12, CDouble.negOne, "NULL"⟩, buf := []
    unit := "A" }

/-- Every publication of `A` is requested before `B` follows. -/
theorem fresh_in_time :
    Always (step "A") (Fresh "A") (init : Viewer Decimal)
      [.publish "A" [current], .request "A", .publish "B" [], .request "A", .publish "A" [],
        .request "A"] :=
  fresh_always (by simp [Names]) (by
    simp [StepsMeet, step, Session.step, InTime, init, Session.init, Newest])

/-- `B` is published before the only list of `A` is requested. -/
theorem not_fresh_always :
    ¬ ∀ (devSn : String) (events : List (WebEvent Decimal)), (∀ e ∈ events, Names devSn e) →
      Always (step devSn) (Fresh devSn) init events := by
  intro h
  obtain ⟨_, ⟨⟩, -, _, ⟨⟩, -, _, ⟨⟩, hfresh, -⟩ :=
    h "A" [.publish "A" [current], .publish "B" [], .request "A"] (by simp [Names])
  exact absurd (hfresh [current] rfl) (by decide +kernel)

end Viewer

end CsiFirmware.Webserver
