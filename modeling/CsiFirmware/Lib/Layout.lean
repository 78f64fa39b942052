import Mathlib

/-!
# Packed layouts

Fields of different widths are stored one after the other, without gaps. `place` gives every field
its offset. A decoder that walks the fields with a running byte counter visits exactly these
offsets, so its results are statements about `place`: `mem_place_iff` says what an offset is,
`inBounds_iff` when all reads stay inside a buffer, and `take_drop_of_mem_place` what is read from a
buffer that was written by concatenation.
-/

namespace CsiFirmware.Layout

variable {α : Type*} {width : α → ℕ}

/-- The number of bytes a list of fields occupies. -/
def size (width : α → ℕ) (fields : List α) : ℕ := (fields.map width).sum

/-- Each field with its offset, the first one at `start`. -/
def place (width : α → ℕ) : ℕ → List α → List (ℕ × α)
  | _, [] => []
  | start, x :: fields => (start, x) :: place width (start + width x) fields

@[simp] theorem size_nil : size width [] = 0 := rfl

/-- Sizes add up. -/
@[simp] theorem size_cons (x : α) (fields : List α) :
    size width (x :: fields) = width x + size width fields := by
  simp [size]

/-- Placing changes neither the fields nor their order. -/
@[simp] theorem map_snd_place (width : α → ℕ) (start : ℕ) (fields : List α) :
    (place width start fields).map Prod.snd = fields := by
  induction fields generalizing start with
  | nil => rfl
  | cons x fields ih => rw [place, List.map_cons, ih]

/-- Placing images is placing the originals with the widths of their images. -/
theorem place_map {β : Type*} (f : β → α) (start : ℕ) (fields : List β) :
    place width start (fields.map f) =
      (place (fun y => width (f y)) start fields).map fun p => (p.1, f p.2) := by
  induction fields generalizing start with
  | nil => rfl
  | cons y fields ih => rw [List.map_cons, place, ih, place, List.map_cons]

/-- A field's offset is the total width of the fields before it. -/
theorem mem_place_iff {start c : ℕ} {x : α} {fields : List α} :
    (c, x) ∈ place width start fields ↔
      ∃ before after, fields = before ++ x :: after ∧ c = start + size width before := by
  induction fields generalizing start with
  | nil => simp [place]
  | cons y fields ih =>
      rw [place, List.mem_cons, ih]
      constructor
      · rintro (h | ⟨before, after, rfl, rfl⟩)
        · obtain ⟨rfl, rfl⟩ := Prod.mk.inj h
          exact ⟨[], fields, rfl, by simp⟩
        · exact ⟨y :: before, after, rfl, by rw [size_cons]; omega⟩
      · rintro ⟨before, after, hsplit, rfl⟩
        cases before with
        | nil =>
            obtain ⟨rfl, rfl⟩ := List.cons.inj hsplit
            exact Or.inl rfl
        | cons z before =>
            obtain ⟨rfl, rfl⟩ := List.cons.inj hsplit
            exact Or.inr ⟨before, after, rfl, by rw [size_cons]; omega⟩

/-- The same for fields that begin at any place. -/
private theorem inBounds_iff_aux {start n : ℕ} {fields : List α} :
    (∀ p ∈ place width start fields, ∀ i < width p.2, p.1 + i < n) ↔
      (0 < size width fields → start + size width fields ≤ n) := by
  induction fields generalizing start with
  | nil => simp [place]
  | cons x fields ih =>
      simp only [place, List.mem_cons, forall_eq_or_imp, ih, size_cons]
      constructor
      · rintro ⟨hx, hrest⟩ hpos
        by_cases hsize : 0 < size width fields
        · have := hrest hsize
          omega
        · by_cases hw : 0 < width x
          · have := hx (width x - 1) (by omega)
            omega
          · omega
      · intro h
        constructor
        · intro i hi
          have := h (by omega)
          omega
        · intro hsize
          have := h (by omega)
          omega

/-- Every byte of every field lies below `n` exactly when the fields fit into `n` bytes. -/
theorem inBounds_iff {n : ℕ} {fields : List α} :
    (∀ p ∈ place width 0 fields, ∀ i < width p.2, p.1 + i < n) ↔ size width fields ≤ n := by
  rw [inBounds_iff_aux]
  omega

/-- What a field's offset and width select from the concatenation of the fields' encodings is the
field's own encoding. -/
theorem take_drop_of_mem_place {β : Type*} {enc : α → List β}
    (henc : ∀ x, (enc x).length = width x) {c : ℕ} {x : α} {fields : List α}
    (h : (c, x) ∈ place width 0 fields) :
    ((fields.flatMap enc).drop c).take (width x) = enc x := by
  obtain ⟨before, after, rfl, rfl⟩ := mem_place_iff.mp h
  have hlen : (before.flatMap enc).length = size width before := by
    rw [List.length_flatMap, size, List.map_congr_left fun y _ => henc y]
  rw [List.flatMap_append, List.flatMap_cons, Nat.zero_add, ← hlen, List.drop_left, ← henc x,
    List.take_left]

end CsiFirmware.Layout
