import CsiFirmware.Lib.Json
import Mathlib.Data.List.Forall2

/-!
# Files of points

Reference: `Modbus::loadPointFromJson` and `TaskSerial::loadPcsProtocolByJson`.

Both loaders push the points of a file to their table one after the other, inside one `try` block
around the whole file. A point that cannot be read ends the loop, and those before it stay in the
table. `loadPoints_allOrNothing_iff` says for which files a loader is all or nothing.
-/

namespace CsiFirmware.Common

open Json

variable {α : Type}

/-- What the loaders use. -/
structure Files where
  json : Codec
  platform : CInt.Platform
  /-- The content of a file that can be opened. -/
  openFile : String → Option String
  /-- The width of `unsigned long`. -/
  longBits : ℕ
  longBits_ge : 32 ≤ longBits

/-- Why a point is not read. -/
inductive Fault where
  | exception
  /-- A read past the end of a vector: the behaviour is undefined. -/
  | outOfBounds
deriving DecidableEq

/-- What throws if there is no value. -/
def orThrow : Option α → Except Fault α
  | some a => .ok a
  | none => .error .exception

/-- What is there does not throw. -/
theorem orThrow_some_bind {β : Type} (a : α) (f : α → Except Fault β) :
    orThrow (some a) >>= f = f a := rfl

/-- The value that a loader returns, unless its behaviour is undefined, and its table. -/
structure Loaded (α : Type) where
  ret : Option Int
  table : List α
deriving DecidableEq

/-- The loop over `jsonData["points"]`: what ended it early, and the table. -/
def pushPoints (readPoint : Json → Except Fault α) : List α → List Json → Option Fault × List α
  | table, [] => (none, table)
  | table, item :: items =>
      match readPoint item with
      | .ok point => pushPoints readPoint (table ++ [point]) items
      | .error fault => (some fault, table)

/-- What `jsonData["points"]` is, if the file can be opened and holds an object. -/
def filePoints (files : Files) (filename : String) : Option Json := do
  (← files.json.parseObject (← files.openFile filename)).member "points"

/-- What both loaders do with a file. -/
def loadPoints (files : Files) (readPoint : Json → Except Fault α) (filename : String)
    (table : List α) : Loaded α :=
  match filePoints files filename with
  | none => { ret := some 0, table }
  | some points =>
      match pushPoints readPoint table points.items with
      | (none, table) => { ret := some 1, table }
      | (some .exception, table) => { ret := some 0, table }
      | (some .outOfBounds, table) => { ret := none, table }

/-- A call that returns 0 leaves the table alone, and one that returns 1 appends a point for each
element of an array. -/
structure AllOrNothing (readPoint : Json → Except Fault α) (elements : List Json) (table : List α)
    (loaded : Loaded α) : Prop where
  returns : loaded.ret = some 0 ∨ loaded.ret = some 1
  failed : loaded.ret = some 0 → loaded.table = table
  complete : loaded.ret = some 1 → ∃ points, loaded.table = table ++ points ∧
    List.Forall₂ (fun element point => readPoint element = .ok point) elements points

/-- There are no points, or the first one throws, or they are an array that can be read. -/
inductive Loadable (readPoint : Json → Except Fault α) (points : Json) : Prop where
  | empty (h : points.items = [])
  | first (item : Json) (items : List Json) (h : points.items = item :: items)
      (throws : readPoint item = .error .exception)
  | array (items : List Json) (h : points = .array items)
      (reads : ∀ item ∈ items, ∃ point, readPoint item = .ok point)

variable {files : Files} {readPoint : Json → Except Fault α} {filename : String} {table : List α}

/-- The points before the first one that cannot be read are pushed. -/
theorem pushPoints_spec (readPoint : Json → Except Fault α) (table : List α) (items : List Json) :
    ∃ points, (pushPoints readPoint table items).2 = table ++ points ∧
      ((pushPoints readPoint table items).1 = none ∧
          List.Forall₂ (fun item point => readPoint item = .ok point) items points ∨
        ∃ read item rest fault, items = read ++ item :: rest ∧
          List.Forall₂ (fun item point => readPoint item = .ok point) read points ∧
          readPoint item = .error fault ∧
          (pushPoints readPoint table items).1 = some fault) := by
  induction items generalizing table with
  | nil => exact ⟨[], by simp [pushPoints], .inl ⟨rfl, .nil⟩⟩
  | cons item items ih =>
      rw [pushPoints]
      split
      next point hpoint =>
        obtain ⟨points, htable, hend⟩ := ih (table ++ [point])
        refine ⟨point :: points, by rw [htable]; simp, ?_⟩
        rcases hend with ⟨hnone, hall⟩ | ⟨read, item', rest, fault, rfl, hread, hfault, hsome⟩
        · exact .inl ⟨hnone, .cons hpoint hall⟩
        · exact .inr ⟨item :: read, item', rest, fault, rfl, .cons hpoint hread, hfault, hsome⟩
      next fault hfault =>
        exact ⟨[], by simp, .inr ⟨[], item, items, fault, rfl, .nil, hfault, rfl⟩⟩

/-- Points that can be read are pushed, and the loop goes on behind them. -/
theorem pushPoints_append {before rest : List Json} {points : List α}
    (h : List.Forall₂ (fun item point => readPoint item = .ok point) before points)
    (table : List α) :
    pushPoints readPoint table (before ++ rest) = pushPoints readPoint (table ++ points) rest := by
  induction h generalizing table with
  | nil => rw [List.nil_append, List.append_nil]
  | cons hpoint _ ih =>
      rw [List.cons_append, pushPoints, hpoint]
      simp only
      rw [ih, List.append_assoc, List.singleton_append]

/-- If every item is read, all points are pushed. -/
theorem pushPoints_read {items : List Json} {points : List α}
    (h : List.Forall₂ (fun item point => readPoint item = .ok point) items points)
    (table : List α) : pushPoints readPoint table items = (none, table ++ points) := by
  rw [← List.append_nil items, pushPoints_append h, pushPoints]

/-- An array that is not empty is all that has elements to iterate over. -/
theorem elements_eq_items {points : Json} (h : points.elements ≠ []) :
    points = .array points.items ∧ points.elements = points.items := by
  cases points with
  | array items => exact ⟨rfl, rfl⟩
  | null | boolean | numberInteger | numberUnsigned | numberFloat | string | object =>
      exact absurd rfl h

/-- All points are read: all or nothing if there are none or they are an array. -/
theorem allOrNothing_read_iff {points : Json} {read : List α}
    (hread : List.Forall₂ (fun item point => readPoint item = .ok point) points.items read) :
    AllOrNothing readPoint points.elements table { ret := some 1, table := table ++ read } ↔
      Loadable readPoint points := by
  constructor
  · intro h
    -- as many points were pushed as there are elements
    obtain ⟨read', htable, helements⟩ := h.complete rfl
    obtain rfl : read = read' := List.append_cancel_left htable
    by_cases hempty : points.elements = []
    · have hlength := hread.length_eq.trans helements.length_eq.symm
      rw [hempty] at hlength
      exact .empty (List.eq_nil_of_length_eq_zero hlength)
    · obtain ⟨harray, -⟩ := elements_eq_items hempty
      refine .array _ harray fun item hitem => ?_
      obtain ⟨i, hi, rfl⟩ := List.mem_iff_getElem.mp hitem
      have hi' : i < read.length := hread.length_eq ▸ hi
      exact ⟨read[i], hread.get hi hi'⟩
  · intro h
    refine ⟨.inr rfl, fun h => by simp at h, fun _ => ⟨read, rfl, ?_⟩⟩
    cases h with
    | empty hitems =>
        rw [hitems] at hread
        cases hread
        by_cases hempty : points.elements = []
        · rw [hempty]
          exact .nil
        · exact absurd ((elements_eq_items hempty).2.trans hitems) hempty
    | first item items hitems throws =>
        rw [hitems] at hread
        cases hread with
        | cons hpoint => simp [throws] at hpoint
    | array items harray =>
        subst harray
        exact hread

/-- A point is not read: all or nothing if it is the first one, and throws. -/
theorem loadable_unread_iff {points item : Json} {before rest : List Json} {read : List α}
    {fault : Fault} (hitems : points.items = before ++ item :: rest)
    (hread : List.Forall₂ (fun item point => readPoint item = .ok point) before read)
    (hfault : readPoint item = .error fault) :
    Loadable readPoint points ↔ read = [] ∧ fault = .exception := by
  constructor
  · intro h
    cases h with
    | empty hempty => simp [hitems] at hempty
    | first first items hfirst throws =>
        rw [hitems] at hfirst
        cases hread with
        | nil =>
            obtain ⟨rfl, -⟩ := List.cons.inj hfirst
            exact ⟨rfl, Except.error.inj (hfault.symm.trans throws)⟩
        | cons hpoint =>
            obtain ⟨rfl, -⟩ := List.cons.inj hfirst
            simp [throws] at hpoint
    | array items harray reads =>
        subst harray
        have hmem : item ∈ items := by
          have hitems : items = before ++ item :: rest := hitems
          simp [hitems]
        obtain ⟨point, hpoint⟩ := reads item hmem
        simp [hfault] at hpoint
  · rintro ⟨rfl, rfl⟩
    cases hread
    exact .first item rest hitems hfault

/-- What a loader does with a file that has points. -/
theorem loadPoints_spec (readPoint : Json → Except Fault α) {points : Json}
    (hfile : filePoints files filename = some points) (table : List α) :
    ∃ read, (List.Forall₂ (fun item point => readPoint item = .ok point) points.items read ∧
        loadPoints files readPoint filename table = { ret := some 1, table := table ++ read }) ∨
      ∃ before item rest fault, points.items = before ++ item :: rest ∧
        List.Forall₂ (fun item point => readPoint item = .ok point) before read ∧
        readPoint item = .error fault ∧
        loadPoints files readPoint filename table =
          { ret := if fault = .exception then some 0 else none, table := table ++ read } := by
  obtain ⟨read, htable, hend⟩ := pushPoints_spec readPoint table points.items
  obtain ⟨ended, table', hpush⟩ : ∃ ended table',
      pushPoints readPoint table points.items = (ended, table') := ⟨_, _, rfl⟩
  rw [hpush] at htable hend
  simp only at htable hend
  refine ⟨read, ?_⟩
  rw [loadPoints, hfile]
  simp only [hpush, htable]
  rcases hend with ⟨rfl, hread⟩ | ⟨before, item, rest, fault, hitems, hread, hfault, rfl⟩
  · exact .inl ⟨hread, rfl⟩
  · exact .inr ⟨before, item, rest, fault, hitems, hread, hfault, by cases fault <;> rfl⟩

/-- Points of which the second cannot be read are not loadable. -/
theorem not_loadable_of_second {first second : Json} {point : α} {fault : Fault}
    (hfirst : readPoint first = .ok point) (hsecond : readPoint second = .error fault) :
    ¬ Loadable readPoint (.array [first, second]) := by
  have hitems : (array [first, second]).items = [first] ++ second :: [] := rfl
  rw [loadable_unread_iff hitems (.cons hfirst .nil) hsecond]
  simp

/-- A loader is all or nothing exactly for files whose points are loadable. -/
theorem loadPoints_allOrNothing_iff :
    AllOrNothing readPoint ((filePoints files filename).elim [] elements) table
        (loadPoints files readPoint filename table) ↔
      ∀ points, filePoints files filename = some points → Loadable readPoint points := by
  cases hfile : filePoints files filename with
  | none =>
      have hfailed : loadPoints files readPoint filename table = { ret := some 0, table } := by
        simp only [loadPoints, hfile]
      rw [hfailed]
      exact iff_of_true ⟨.inl rfl, fun _ => rfl, fun h => by simp at h⟩ (by simp)
  | some points =>
      simp only [Option.elim_some, Option.some_inj, forall_eq']
      rcases loadPoints_spec readPoint hfile table with
          ⟨read, ⟨hread, hload⟩ | ⟨before, item, rest, fault, hitems, hread, hfault, hload⟩⟩
      · rw [hload]
        exact allOrNothing_read_iff hread
      · rw [loadable_unread_iff hitems hread hfault, hload]
        constructor
        · intro h
          have hexception : fault = .exception := by
            by_contra hne
            rcases h.returns with hret | hret <;> simp [hne] at hret
          -- nothing is taken back, so nothing was pushed
          have htable : table ++ read = table := h.failed (if_pos hexception)
          exact ⟨by simpa using htable, hexception⟩
        · rintro ⟨rfl, rfl⟩
          exact ⟨.inl rfl, fun _ => by simp, fun h => by simp at h⟩

/-! ## What is used afterwards -/

/-- A table that was empty before the call is still empty, or has a point for each element of an
array. -/
def Whole (readPoint : Json → Except Fault α) (elements : List Json) (loaded : Loaded α) : Prop :=
  loaded.ret ≠ none ∧ (loaded.table = [] ∨
    List.Forall₂ (fun element point => readPoint element = .ok point) elements loaded.table)

/-- The points before one that is not read are not the points of all elements. -/
theorem forall₂_elements_unread {points item : Json} {before rest : List Json} {read : List α}
    (hitems : points.items = before ++ item :: rest)
    (hread : List.Forall₂ (fun item point => readPoint item = .ok point) before read)
    (h : List.Forall₂ (fun element point => readPoint element = .ok point) points.elements read) :
    read = [] := by
  by_contra hne
  have helements : points.elements ≠ [] := by
    intro hempty
    rw [hempty] at h
    cases h
    exact hne rfl
  have hlength := h.length_eq.trans hread.length_eq.symm
  rw [(elements_eq_items helements).2, hitems, List.length_append, List.length_cons] at hlength
  omega

/-- The table that a loader fills is whole exactly for files whose points are loadable. -/
theorem loadPoints_whole_iff :
    Whole readPoint ((filePoints files filename).elim [] elements)
        (loadPoints files readPoint filename []) ↔
      ∀ points, filePoints files filename = some points → Loadable readPoint points := by
  constructor
  · rintro ⟨hdefined, hwhole⟩ points hfile
    rw [hfile, Option.elim_some] at hwhole
    rcases loadPoints_spec readPoint hfile [] with
        ⟨read, ⟨hread, hload⟩ | ⟨before, item, rest, fault, hitems, hread, hfault, hload⟩⟩
    · rw [hload, List.nil_append] at hwhole
      rcases hwhole with rfl | helements
      · exact .empty (List.forall₂_nil_right_iff.mp hread)
      · have hall : AllOrNothing readPoint points.elements []
            { ret := some 1, table := [] ++ read } :=
          ⟨.inr rfl, fun h => by simp at h, fun _ => ⟨read, rfl, helements⟩⟩
        exact (allOrNothing_read_iff hread).mp hall
    · rw [hload, List.nil_append] at hwhole
      rw [loadable_unread_iff hitems hread hfault]
      constructor
      · rcases hwhole with hempty | helements
        · exact hempty
        · exact forall₂_elements_unread hitems hread helements
      · by_contra hne
        exact hdefined (by rw [hload, if_neg hne])
  · intro h
    have hall : AllOrNothing readPoint ((filePoints files filename).elim [] elements) []
        (loadPoints files readPoint filename []) := loadPoints_allOrNothing_iff.mpr h
    rcases hall.returns with hret | hret
    · exact ⟨by simp [hret], .inl (hall.failed hret)⟩
    · obtain ⟨points, htable, helements⟩ := hall.complete hret
      rw [List.nil_append] at htable
      exact ⟨by simp [hret], .inr (htable ▸ helements)⟩

end CsiFirmware.Common
