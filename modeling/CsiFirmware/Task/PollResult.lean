import CsiFirmware.Task.Decode

/-!
# The result of a poll

Reference: `TaskSerial::handleAllRecvData` and `TaskSerial::handleRecvData`.

The entries are pushed to the member `v_singleRTSrcInfo`, which still holds those of the device that
was polled before. `pollResult_eq` says that the member ends up with the entries of
`handleAllRecvData` and nothing else. The windows of a title do not overlap, so no table point is
decoded twice from one block.
-/

namespace CsiFirmware.Task

variable {δ : Type}

/-! ## The member -/

section Member

variable [CDouble δ] [DecidableEq δ]

/-- The body of the loop over `v_points`, acting on `count` and `v_singleRTSrcInfo`. -/
def pushPoint (u : Undefined) (it : RTSrcInfo δ) (window : ℕ × ℕ) :
    ℕ × List (RTSrcInfo δ) → ModbusPoint δ → ℕ × List (RTSrcInfo δ)
  | (count, vSingle), point =>
      if window.1 ≤ merged point ∧ merged point ≤ window.2 then
        (count + pointWidth point, vSingle ++ [(decode u it count point).entry])
      else (count, vSingle)

/-- A call of `handleRecvData`. -/
def pushWindow (u : Undefined) (vPoints : List (ModbusPoint δ)) (it : RTSrcInfo δ)
    (vSingle : List (RTSrcInfo δ)) (window : ℕ × ℕ) : List (RTSrcInfo δ) :=
  if CarriesData it then (vPoints.foldl (pushPoint u it window) (0, vSingle)).2 else vSingle

/-- `v_singleRTSrcInfo.clear()`. -/
def clear (_vSingle : List (RTSrcInfo δ)) : List (RTSrcInfo δ) := []

/-- `v_singleRTSrcInfo` after a call of `handleAllRecvData`, from its content before. -/
def pollResult (u : Undefined) (vPoints : List (ModbusPoint δ))
    (vSingle vRtSrcInfo : List (RTSrcInfo δ)) : List (RTSrcInfo δ) :=
  vRtSrcInfo.foldl
    (fun vSingle it => (addressWindows it.title).foldl (pushWindow u vPoints it) vSingle)
    (clear vSingle)

/-- A call pushes the entries of what it decodes. -/
theorem pushWindow_map (u : Undefined) (vPoints : List (ModbusPoint δ)) (it : RTSrcInfo δ)
    (pushed : List (Decoded δ)) (window : ℕ × ℕ) :
    pushWindow u vPoints it (pushed.map Decoded.entry) window =
      (handleRecvData u vPoints it window.1 window.2 pushed).map Decoded.entry := by
  -- the loop goes through the same points, with the entries in place of what was decoded
  let entries : ℕ × List (Decoded δ) → ℕ × List (RTSrcInfo δ) := fun p =>
    (p.1, p.2.map Decoded.entry)
  have hpoint (p : ℕ × List (Decoded δ)) (point : ModbusPoint δ) :
      pushPoint u it window (entries p) point =
        entries (handlePoint u it window.1 window.2 p point) := by
    obtain ⟨count, pushed⟩ := p
    simp only [entries, pushPoint, handlePoint]
    split
    · simp
    · rfl
  by_cases hdata : CarriesData it
  · have hloop : vPoints.foldl (pushPoint u it window) (entries (0, pushed)) =
        entries (vPoints.foldl (handlePoint u it window.1 window.2) (0, pushed)) :=
      List.foldl_hom entries hpoint
    have hdecode : handleRecvData u vPoints it window.1 window.2 pushed =
        (vPoints.foldl (handlePoint u it window.1 window.2) (0, pushed)).2 := if_pos hdata
    rw [pushWindow, if_pos hdata, hdecode]
    exact congrArg Prod.snd hloop
  · have hdecode : handleRecvData u vPoints it window.1 window.2 pushed = pushed := if_neg hdata
    rw [pushWindow, if_neg hdata, hdecode]

/-- Whatever the member held, it holds the entries of this poll afterwards. -/
theorem pollResult_eq (u : Undefined) (vPoints : List (ModbusPoint δ))
    (vSingle vRtSrcInfo : List (RTSrcInfo δ)) :
    pollResult u vPoints vSingle vRtSrcInfo = vSingleRTSrcInfo u vPoints vRtSrcInfo := by
  have hblock (pushed : List (Decoded δ)) (it : RTSrcInfo δ) :
      (addressWindows it.title).foldl (pushWindow u vPoints it) (pushed.map Decoded.entry) =
        ((addressWindows it.title).foldl (fun pushed window =>
          handleRecvData u vPoints it window.1 window.2 pushed) pushed).map Decoded.entry :=
    List.foldl_hom (List.map Decoded.entry) (pushWindow_map u vPoints it)
  show vRtSrcInfo.foldl _ (List.map Decoded.entry []) = _
  exact List.foldl_hom (List.map Decoded.entry) hblock

end Member

/-! ## Table points -/

/-- The positions of the table points whose address lies in a window, in table order. -/
def windowIndices (vPoints : List (ModbusPoint δ)) (window : ℕ × ℕ) : List (Fin vPoints.length) :=
  (List.finRange vPoints.length).filter fun i =>
    window.1 ≤ merged (vPoints.get i) ∧ merged (vPoints.get i) ≤ window.2

/-- The positions of the table points that a block of this title is decoded to. -/
def blockIndices (vPoints : List (ModbusPoint δ)) (title : String) : List (Fin vPoints.length) :=
  (addressWindows title).flatMap (windowIndices vPoints)

/-- The points with these indices. -/
theorem map_get_windowIndices (vPoints : List (ModbusPoint δ)) (window : ℕ × ℕ) :
    (windowIndices vPoints window).map vPoints.get = windowPoints vPoints window := by
  conv_rhs => rw [windowPoints, ← List.map_get_finRange vPoints, List.filter_map]
  rfl

/-- The windows of a title are in the order of their addresses, and do not overlap. -/
theorem addressWindows_pairwise (title : String) :
    (addressWindows title).Pairwise fun window window' => window.2 < window'.1 := by
  have hite {p : Prop} [Decidable p] {ws ws' : List (ℕ × ℕ)}
      (h : ws.Pairwise fun window window' => window.2 < window'.1)
      (h' : ws'.Pairwise fun window window' => window.2 < window'.1) :
      (if p then ws else ws').Pairwise fun window window' => window.2 < window'.1 := by
    split
    · exact h
    · exact h'
  unfold addressWindows
  repeat
    apply hite (by decide)
  exact .nil

/-- No point is in a block twice. -/
theorem blockIndices_nodup (vPoints : List (ModbusPoint δ)) (title : String) :
    (blockIndices vPoints title).Nodup := by
  refine List.nodup_flatMap.mpr ⟨fun window _ => ?_, ?_⟩
  · exact (List.nodup_finRange _).filter _
  · refine (addressWindows_pairwise title).imp fun {window window'} hlt => ?_
    intro i hi hi'
    simp only [windowIndices, List.mem_filter, decide_eq_true_eq] at hi hi'
    omega

/-! ## The structure of the result -/

/-- What the page shows of an entry beside its value. -/
def label (info : RTSrcInfo δ) : String × String × String :=
  (info.title, info.sourceName, info.unit)

/-- The labels of the entries are those of the points of the window, in order. -/
theorem map_label_windowEntries [CDouble δ] [DecidableEq δ] (u : Undefined)
    (vPoints : List (ModbusPoint δ)) {it : RTSrcInfo δ} (hdata : CarriesData it)
    (window : ℕ × ℕ) :
    ((windowEntries u vPoints it window).map Decoded.entry).map label =
      (windowIndices vPoints window).map fun i =>
        (it.title, (vPoints.get i).name, (vPoints.get i).unit) := by
  have hlabel : (fun p : ℕ × ModbusPoint δ => label (decode u it p.1 p.2).entry) =
      (fun point => (it.title, point.name, point.unit)) ∘ Prod.snd := rfl
  calc ((windowEntries u vPoints it window).map Decoded.entry).map label
      = (Layout.place pointWidth 0 (windowPoints vPoints window)).map
          ((fun point => (it.title, point.name, point.unit)) ∘ Prod.snd) := by
        rw [windowEntries, if_pos hdata, List.map_map, List.map_map, ← hlabel]
        rfl
    _ = (windowPoints vPoints window).map fun point => (it.title, point.name, point.unit) := by
        rw [← List.map_map, Layout.map_snd_place]
    _ = _ := by
        rw [← map_get_windowIndices, List.map_map]
        rfl

/-- Whatever `v_singleRTSrcInfo` held before, a poll leaves one entry for each block that carries
data, each address window of its title and each table point in the window, in this order, with the
block's title and the point's name and unit. No table point is decoded twice from one block. -/
theorem pollResult_structure [CDouble δ] [DecidableEq δ] (u : Undefined)
    (vPoints : List (ModbusPoint δ)) (vSingle vRtSrcInfo : List (RTSrcInfo δ)) :
    ((pollResult u vPoints vSingle vRtSrcInfo).map label =
      vRtSrcInfo.flatMap fun it =>
        if CarriesData it then
          (addressWindows it.title).flatMap fun window =>
            (windowIndices vPoints window).map fun i =>
              (it.title, (vPoints.get i).name, (vPoints.get i).unit)
        else []) ∧
    ∀ title, ((addressWindows title).flatMap (windowIndices vPoints)).Nodup := by
  refine ⟨?_, blockIndices_nodup vPoints⟩
  rw [pollResult_eq, vSingleRTSrcInfo, handleAllRecvData_eq, List.map_map, List.map_flatMap]
  refine List.flatMap_congr fun it _ => ?_
  rw [List.map_flatMap]
  split
  next hdata =>
    refine List.flatMap_congr fun window _ => ?_
    rw [← List.map_map, map_label_windowEntries u vPoints hdata]
  next hdata => simp [windowEntries, hdata]

end CsiFirmware.Task
