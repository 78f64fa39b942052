import Mathlib.Data.Nat.Notation
import Mathlib.Logic.Basic

/-!
# Runs of a partial step function

A component is described by a state type `σ`, an event type `ε` and a step function
`σ → ε → Option σ`. The answer `none` means that the event has no defined effect in that state:
either it cannot occur there, or the program's behaviour is undefined from then on.

`run` processes a list of events. `run_invariant` and `Reachable.invariant` are the induction rules
for properties of states, and `Leads` speaks about continuations. `reaches_or_count_le` bounds the
number of events before a goal is reached. `Always` and `StepsMeet` speak about the steps of a run,
and `always_iff_stepsMeet` turns an equivalence proved for one step into one about whole runs.
-/

namespace CsiFirmware.Runs

variable {σ ε : Type*} {step : σ → ε → Option σ}

/-- Process the events in order; undefined as soon as one of them is. -/
def run (step : σ → ε → Option σ) : σ → List ε → Option σ
  | s, [] => some s
  | s, e :: es => (step s e).bind fun s' => run step s' es

/-- A run without events stays where it is. -/
@[simp] theorem run_nil (s : σ) : run step s [] = some s := rfl

/-- A run begins with its first step. -/
theorem run_cons (s : σ) (e : ε) (es : List ε) :
    run step s (e :: es) = (step s e).bind fun s' => run step s' es := rfl

/-- What every defined step preserves, every defined run preserves. -/
theorem run_invariant {Inv : σ → Prop}
    (hstep : ∀ s e s', Inv s → step s e = some s' → Inv s') {s s' : σ} {es : List ε}
    (hs : Inv s) (hrun : run step s es = some s') : Inv s' := by
  induction es generalizing s with
  | nil =>
      obtain rfl : s = s' := by simpa using hrun
      exact hs
  | cons e es ih =>
      rw [run_cons] at hrun
      obtain ⟨s₁, h₁, hrest⟩ := Option.bind_eq_some_iff.mp hrun
      exact ih (hstep s e s₁ hs h₁) hrest

/-- A run can be cut anywhere. -/
theorem run_append (s : σ) (es es' : List ε) :
    run step s (es ++ es') = (run step s es).bind fun s' => run step s' es' := by
  induction es generalizing s with
  | nil => rfl
  | cons e es ih =>
      rw [List.cons_append, run_cons, run_cons, Option.bind_assoc]
      exact congrArg _ (funext ih)

/-- `s` ends some run from an initial state. -/
def Reachable (step : σ → ε → Option σ) (init : σ → Prop) (s : σ) : Prop :=
  ∃ s₀ es, init s₀ ∧ run step s₀ es = some s

/-- An inductive invariant holds in every reachable state. -/
theorem Reachable.invariant {init Inv : σ → Prop} {s : σ} (h : Reachable step init s)
    (hinit : ∀ s₀, init s₀ → Inv s₀)
    (hstep : ∀ s e s', Inv s → step s e = some s' → Inv s') : Inv s := by
  obtain ⟨s₀, es, h₀, hrun⟩ := h
  exact run_invariant hstep (hinit s₀ h₀) hrun

/-- A step leads from a reachable state to a reachable state. -/
theorem Reachable.tail {init : σ → Prop} {s s' : σ} {e : ε} (h : Reachable step init s)
    (hs : step s e = some s') : Reachable step init s' := by
  obtain ⟨s₀, es, h₀, hrun⟩ := h
  refine ⟨s₀, es ++ [e], h₀, ?_⟩
  rw [run_append, hrun, Option.bind_some, run_cons, hs]
  rfl

/-- A fold keeps what each of its steps keeps. -/
theorem foldl_frame {α β : Type*} {f : σ → α → σ} {g : σ → β} (h : ∀ s a, g (f s a) = g s)
    (l : List α) (s : σ) : g (l.foldl f s) = g s := by
  induction l generalizing s with
  | nil => rfl
  | cons a l ih => rw [List.foldl_cons, ih, h]

/-! ## Continuations -/

/-- Some finite run whose events satisfy `own` leads from `s` to `s'`. -/
def Leads (step : σ → ε → Option σ) (own : ε → Prop) (s s' : σ) : Prop :=
  ∃ es, (∀ e ∈ es, own e) ∧ run step s es = some s'

section Leads

variable {own : ε → Prop} {s s₁ s' : σ} {e : ε}

/-- No step is needed. -/
theorem Leads.refl (s : σ) : Leads step own s s := ⟨[], by simp, rfl⟩

/-- Continuations can be continued. -/
theorem Leads.trans (h : Leads step own s s₁) (h' : Leads step own s₁ s') :
    Leads step own s s' := by
  obtain ⟨es, hes, hrun⟩ := h
  obtain ⟨es', hes', hrun'⟩ := h'
  refine ⟨es ++ es', ?_, ?_⟩
  · rw [List.forall_mem_append]
    exact ⟨hes, hes'⟩
  · rw [run_append, hrun]
    exact hrun'

/-- A step and a continuation of it. -/
theorem Leads.head (he : own e) (hstep : step s e = some s₁) (h : Leads step own s₁ s') :
    Leads step own s s' := by
  obtain ⟨es, hes, hrun⟩ := h
  refine ⟨e :: es, List.forall_mem_cons.mpr ⟨he, hes⟩, ?_⟩
  rw [run_cons, hstep]
  exact hrun

/-- What the steps on such events preserve, continuations preserve. -/
theorem Leads.invariant {Inv : σ → Prop} (h : Leads step own s s')
    (hstep : ∀ s e s', Inv s → own e → step s e = some s' → Inv s') (hs : Inv s) : Inv s' := by
  obtain ⟨es, hes, hrun⟩ := h
  induction es generalizing s with
  | nil =>
      obtain rfl : s = s' := by simpa using hrun
      exact hs
  | cons e es ih =>
      rw [List.forall_mem_cons] at hes
      rw [run_cons] at hrun
      obtain ⟨s₁, h₁, hrest⟩ := Option.bind_eq_some_iff.mp hrun
      exact ih (hstep s e s₁ hs hes.1 h₁) hes.2 hrest

/-- What steps outside the goal preserve holds at the end of a continuation, or up to the goal on
the way. -/
theorem Leads.until (Inv Goal : σ → Prop)
    (hstep : ∀ s e s', Inv s → ¬ Goal s → own e → step s e = some s' → Inv s')
    (h : Leads step own s s') (hs : Inv s) :
    (∃ s₁, Leads step own s s₁ ∧ Inv s₁ ∧ Goal s₁) ∨ Inv s' := by
  obtain ⟨es, hes, hrun⟩ := h
  induction es generalizing s with
  | nil =>
      obtain rfl : s = s' := by simpa using hrun
      exact .inr hs
  | cons e es ih =>
      by_cases hgoal : Goal s
      · exact .inl ⟨s, .refl s, hs, hgoal⟩
      rw [List.forall_mem_cons] at hes
      rw [run_cons] at hrun
      obtain ⟨s₁, h₁, hrest⟩ := Option.bind_eq_some_iff.mp hrun
      refine (ih (hstep s e s₁ hs hgoal hes.1 h₁) hes.2 hrest).imp_left ?_
      rintro ⟨s₂, hleads, hs₂, hgoal₂⟩
      exact ⟨s₂, .head hes.1 h₁ hleads, hs₂, hgoal₂⟩

/-- If outside the goal some continuation lowers the measure, one leads to the goal. -/
theorem Leads.of_progress (Inv Goal : σ → Prop) (μ : σ → ℕ)
    (hstep : ∀ s, Inv s → ¬ Goal s →
      ∃ s', Leads step own s s' ∧ Inv s' ∧ (Goal s' ∨ μ s' < μ s))
    (hs : Inv s) : ∃ s', Leads step own s s' ∧ Inv s' ∧ Goal s' := by
  induction hn : μ s using Nat.strongRecOn generalizing s with
  | ind n ih =>
      by_cases hgoal : Goal s
      · exact ⟨s, .refl s, hs, hgoal⟩
      rcases hstep s hs hgoal with ⟨s₁, hleads, hs₁, hgoal₁ | hlt⟩
      · exact ⟨s₁, hleads, hs₁, hgoal₁⟩
      · -- the rest of the way is shorter by the measure
        obtain ⟨s', hleads', hs', hgoal'⟩ := ih (μ s₁) (hn ▸ hlt) hs₁ rfl
        exact ⟨s', hleads.trans hleads', hs', hgoal'⟩

/-- If outside the goal some step lowers the measure, a continuation leads to the goal. -/
theorem Leads.of_measure (Inv Goal : σ → Prop) (μ : σ → ℕ)
    (hstep : ∀ s, Inv s → ¬ Goal s →
      ∃ e s', own e ∧ step s e = some s' ∧ Inv s' ∧ (Goal s' ∨ μ s' < μ s))
    (hs : Inv s) : ∃ s', Leads step own s s' ∧ Inv s' ∧ Goal s' := by
  refine Leads.of_progress Inv Goal μ (fun s hs hgoal => ?_) hs
  obtain ⟨e, s₁, he, h₁, hs₁, hlower⟩ := hstep s hs hgoal
  exact ⟨s₁, Leads.head he h₁ (Leads.refl s₁), hs₁, hlower⟩

end Leads

/-! ## Bounded progress -/

/-- A goal that stays reached is reached by a run, or every event counted by `p` has lowered the
measure. -/
theorem reaches_or_count_le (Inv Goal : σ → Prop) (p : ε → Bool) (μ : σ → ℕ)
    (hstep : ∀ s e s', Inv s → step s e = some s' → Inv s' ∧ (Goal s → Goal s'))
    (hmeasure : ∀ s e s', Inv s → step s e = some s' → ¬ Goal s' →
      μ s' + (if p e then 1 else 0) ≤ μ s)
    {s s' : σ} {es : List ε} (hs : Inv s) (hrun : run step s es = some s') :
    Goal s' ∨ es.countP p + μ s' ≤ μ s := by
  induction es generalizing s with
  | nil =>
      obtain rfl : s = s' := by simpa using hrun
      exact .inr (by simp)
  | cons e es ih =>
      rw [run_cons] at hrun
      obtain ⟨s₁, h₁, hrest⟩ := Option.bind_eq_some_iff.mp hrun
      obtain ⟨hinv, -⟩ := hstep s e s₁ hs h₁
      by_cases hgoal : Goal s₁
      · have hboth : Inv s' ∧ Goal s' :=
          @run_invariant _ _ step (fun s => Inv s ∧ Goal s)
            (fun s e s' hs hs' => (hstep s e s' hs.1 hs').imp_right fun h => h hs.2) _ _ _
            ⟨hinv, hgoal⟩ hrest
        exact .inl hboth.2
      · refine (ih hinv hrest).imp_right fun hle => ?_
        have hlower := hmeasure s e s₁ hs h₁ hgoal
        rw [List.countP_cons]
        omega

/-! ## Properties of the steps of a run -/

/-- Every event meets `C` in the state in which it is processed. -/
def StepsMeet (step : σ → ε → Option σ) (C : σ → ε → Prop) : σ → List ε → Prop
  | _, [] => True
  | s, e :: es => C s e ∧ ∀ s', step s e = some s' → StepsMeet step C s' es

/-- A condition that holds of every event in every state. -/
theorem stepsMeet_of_always {C : σ → ε → Prop} (h : ∀ s e, C s e) (s : σ) (es : List ε) :
    StepsMeet step C s es := by
  induction es generalizing s with
  | nil => trivial
  | cons e es ih => exact ⟨h s e, fun s' _ => ih s'⟩

/-- Every run meets the trivial condition. -/
theorem stepsMeet_trivial (s : σ) (es : List ε) : StepsMeet step (fun _ _ => True) s es :=
  stepsMeet_of_always (fun _ _ => trivial) s es

/-- A condition on the events alone. -/
theorem stepsMeet_of_forall {C : ε → Prop} {es : List ε} (h : ∀ e ∈ es, C e) (s : σ) :
    StepsMeet step (fun _ e => C e) s es := by
  induction es generalizing s with
  | nil => trivial
  | cons e es ih =>
      rw [List.forall_mem_cons] at h
      exact ⟨h.1, fun s' _ => ih h.2 s'⟩

/-- Conditions can be met together. -/
theorem StepsMeet.and {C C' : σ → ε → Prop} {s : σ} {es : List ε} (h : StepsMeet step C s es)
    (h' : StepsMeet step C' s es) : StepsMeet step (fun s e => C s e ∧ C' s e) s es := by
  induction es generalizing s with
  | nil => trivial
  | cons e es ih => exact ⟨⟨h.1, h'.1⟩, fun s' hs' => ih (h.2 s' hs') (h'.2 s' hs')⟩

instance decidableStepsMeet {C : σ → ε → Prop} [∀ s e, Decidable (C s e)] :
    ∀ s es, Decidable (StepsMeet step C s es)
  | _, [] => isTrue trivial
  | s, e :: es =>
      match h : step s e with
      | none => decidable_of_iff (C s e) ⟨fun hC => ⟨hC, by simp [h]⟩, And.left⟩
      | some s₁ =>
          have := decidableStepsMeet (C := C) s₁ es
          decidable_of_iff (C s e ∧ StepsMeet step C s₁ es) (by simp [StepsMeet, h])

/-- The event leads to a state that satisfies `Q`, if it has a defined effect. -/
def After (step : σ → ε → Option σ) (Q : σ → Prop) (s : σ) (e : ε) : Prop := ∀ s' ∈ step s e, Q s'

instance {Q : σ → Prop} [DecidablePred Q] (s : σ) (e : ε) : Decidable (After step Q s e) :=
  inferInstanceAs (Decidable (∀ s' ∈ step s e, Q s'))

/-- The state reached by a run whose events meet `C` satisfies what such steps preserve. -/
theorem StepsMeet.invariant (Inv : σ → Prop) {C : σ → ε → Prop}
    (hstep : ∀ s e s', Inv s → C s e → step s e = some s' → Inv s') {s s' : σ} {es : List ε}
    (hs : Inv s) (h : StepsMeet step C s es) (hrun : run step s es = some s') : Inv s' := by
  induction es generalizing s with
  | nil =>
      obtain rfl : s = s' := by simpa using hrun
      exact hs
  | cons e es ih =>
      rw [run_cons] at hrun
      obtain ⟨s₁, h₁, hrest⟩ := Option.bind_eq_some_iff.mp hrun
      exact ih (hstep s e s₁ hs h.1 h₁) (h.2 s₁ h₁) hrest

/-- If every step leads to a state that satisfies `Q`, so does a run. -/
theorem StepsMeet.reached {Q : σ → Prop} {s s' : σ} {es : List ε} (hs : Q s)
    (h : StepsMeet step (After step Q) s es) (hrun : run step s es = some s') : Q s' :=
  h.invariant Q (fun _ _ s' _ hafter hs' => hafter s' hs') hs hrun

/-- If a step keeps `Ok` exactly on events that meet `C`, and nothing restores it once it is lost,
then a run keeps it if and only if its events meet `C`. -/
theorem kept_iff_stepsMeet (Inv Ok : σ → Prop) {C : σ → ε → Prop}
    (hinv : ∀ s e s', Inv s → step s e = some s' → Inv s')
    (hstep : ∀ s e s', Inv s → Ok s → step s e = some s' → (Ok s' ↔ C s e))
    (hlost : ∀ s e s', Inv s → step s e = some s' → Ok s' → Ok s) {s s' : σ} {es : List ε}
    (hs : Inv s) (hok : Ok s) (hrun : run step s es = some s') :
    Ok s' ↔ StepsMeet step C s es := by
  induction es generalizing s with
  | nil =>
      obtain rfl : s = s' := by simpa using hrun
      exact iff_of_true hok trivial
  | cons e es ih =>
      rw [run_cons] at hrun
      obtain ⟨s₁, h₁, hrest⟩ := Option.bind_eq_some_iff.mp hrun
      have hs₁ : Inv s₁ := hinv s e s₁ hs h₁
      have hiff : Ok s₁ ↔ C s e := hstep s e s₁ hs hok h₁
      by_cases hok₁ : Ok s₁
      · rw [ih hs₁ hok₁ hrest]
        refine ⟨fun h => ⟨hiff.mp hok₁, fun s₂ h₂ => ?_⟩, fun h => h.2 s₁ h₁⟩
        obtain rfl : s₁ = s₂ := Option.some.inj (h₁.symm.trans h₂)
        exact h
      · -- it is lost here, and so at the end of the run
        have hnever : Inv s' ∧ ¬ Ok s' :=
          @run_invariant _ _ step (fun s => Inv s ∧ ¬ Ok s)
            (fun s e s' h hs' => ⟨hinv s e s' h.1 hs', fun hok' => h.2 (hlost s e s' h.1 hs' hok')⟩)
            _ _ _ ⟨hs₁, hok₁⟩ hrest
        exact iff_of_false hnever.2 fun h => hok₁ (hiff.mpr h.1)

/-- Two conditions on the events of a run whose events lie in the domain `D` are equivalent if they
agree in every state that satisfies `Inv`, and steps that meet them preserve `Inv`. -/
theorem stepsMeet_congr (Inv : σ → Prop) {C C' D : σ → ε → Prop}
    (hiff : ∀ s e, Inv s → D s e → (C s e ↔ C' s e))
    (hinv : ∀ s e s', Inv s → D s e → C s e → step s e = some s' → Inv s')
    {s : σ} {es : List ε} (hs : Inv s) (hD : StepsMeet step D s es) :
    StepsMeet step C s es ↔ StepsMeet step C' s es := by
  induction es generalizing s with
  | nil => exact Iff.rfl
  | cons e es ih =>
      obtain ⟨hDe, hDrest⟩ := hD
      have hC : C s e ↔ C' s e := hiff s e hs hDe
      constructor
      · rintro ⟨he, hrest⟩
        exact ⟨hC.mp he, fun s' h' =>
          (ih (hinv s e s' hs hDe he h') (hDrest s' h')).mp (hrest s' h')⟩
      · rintro ⟨he, hrest⟩
        exact ⟨hC.mpr he, fun s' h' =>
          (ih (hinv s e s' hs hDe (hC.mpr he) h') (hDrest s' h')).mpr (hrest s' h')⟩

/-- A run whose events meet `C` also meets what `C` implies in the states that satisfy `Inv`, if
such steps preserve `Inv`. -/
theorem StepsMeet.imp (Inv : σ → Prop) {C C' : σ → ε → Prop}
    (himp : ∀ s e, Inv s → C s e → C' s e)
    (hinv : ∀ s e s', Inv s → C s e → step s e = some s' → Inv s')
    {s : σ} {es : List ε} (hs : Inv s) (h : StepsMeet step C s es) : StepsMeet step C' s es :=
  have hiff : ∀ s e, Inv s → C s e → (True ↔ C' s e) := fun s e hi hC =>
    ⟨fun _ => himp s e hi hC, fun _ => trivial⟩
  (stepsMeet_congr Inv hiff (fun s e s' hi hC _ => hinv s e s' hi hC) hs h).mp
    (stepsMeet_trivial s es)

/-- Every event has a defined effect, and `R` relates the states around it. -/
def Always (step : σ → ε → Option σ) (R : σ → ε → σ → Prop) : σ → List ε → Prop
  | _, [] => True
  | s, e :: es => ∃ s', step s e = some s' ∧ R s e s' ∧ Always step R s' es

/-- If `C` lets a step have an effect that satisfies `R` and preserves the invariant, then so does
every step of a run whose events meet `C`. -/
theorem StepsMeet.always (Inv : σ → Prop) {C : σ → ε → Prop} {R : σ → ε → σ → Prop}
    (hstep : ∀ s e, Inv s → C s e → ∃ s', step s e = some s' ∧ R s e s' ∧ Inv s')
    {s : σ} {es : List ε} (hs : Inv s) (h : StepsMeet step C s es) : Always step R s es := by
  induction es generalizing s with
  | nil => trivial
  | cons e es ih =>
      obtain ⟨hC, hrest⟩ := h
      obtain ⟨s', hs', hR, hinv⟩ := hstep s e hs hC
      exact ⟨s', hs', hR, ih hinv (hrest s' hs')⟩

/-- In a run whose events lie in the domain `D`, each step satisfies `R` if and only if each event
meets `C`, provided the two agree on one step from every state that satisfies `Inv`. -/
theorem always_iff_stepsMeet {Inv : σ → Prop} {C D : σ → ε → Prop} {R : σ → ε → σ → Prop}
    (hiff : ∀ s e, Inv s → D s e → (C s e ↔ ∃ s', step s e = some s' ∧ R s e s'))
    (hinv : ∀ s e s', Inv s → D s e → step s e = some s' → R s e s' → Inv s')
    {s : σ} {es : List ε} (hs : Inv s) (hD : StepsMeet step D s es) :
    Always step R s es ↔ StepsMeet step C s es := by
  induction es generalizing s with
  | nil => exact Iff.rfl
  | cons e es ih =>
      obtain ⟨hDe, hDrest⟩ := hD
      constructor
      · rintro ⟨s₁, h₁, hR, hrest⟩
        have hs₁ : Inv s₁ := hinv s e s₁ hs hDe h₁ hR
        refine ⟨(hiff s e hs hDe).mpr ⟨s₁, h₁, hR⟩, fun s₂ h₂ => ?_⟩
        obtain rfl : s₁ = s₂ := Option.some.inj (h₁.symm.trans h₂)
        exact (ih hs₁ (hDrest s₁ h₁)).mp hrest
      · rintro ⟨hC, hrest⟩
        obtain ⟨s₁, h₁, hR⟩ := (hiff s e hs hDe).mp hC
        have hs₁ : Inv s₁ := hinv s e s₁ hs hDe h₁ hR
        exact ⟨s₁, h₁, hR, (ih hs₁ (hDrest s₁ h₁)).mpr (hrest s₁ h₁)⟩

end CsiFirmware.Runs
