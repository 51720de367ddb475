import Mathlib.Data.List.Infix

/-!
# `CarLocator.Library.Runs`: labelled runs and the rules for invariants

A system is a partial step function `step : σ → ι → Option σ`. A label says which party
moves and what its surroundings answer, so the label lists are the schedules, and
`run step s as` executes one of them. `none` means that a label was not enabled.

Three notions speak about a run state by state:

* `Always step P s as`: `P` holds in every state the run passes through, the first one
  included. `always_iff` reads it over the prefixes of the schedule.
* `Guarded step C s as`: every step taken meets `C` in the state it is taken from.
* `Reachable step s₀ s`: some schedule leads from `s₀` to `s`.

The rules a development uses are `always_of_guarded` (an invariant that every guarded
step preserves holds along every guarded run), `reachable_induction` (the same without a
guard) and `always_iff_guarded` (a guard that is exact for one step is exact for runs), with
`always_iff_guarded_of_invariant` for a guard that is exact under an invariant.
-/

set_option autoImplicit false

namespace CarLocator.Library

variable {σ ι : Type*}

/-- Execute a schedule. -/
def run (step : σ → ι → Option σ) : σ → List ι → Option σ
  | s, [] => some s
  | s, a :: as =>
    match step s a with
    | some s' => run step s' as
    | none => none

/-- `P` holds in every state that the schedule passes through. -/
def Always (step : σ → ι → Option σ) (P : σ → Prop) : σ → List ι → Prop
  | s, [] => P s
  | s, a :: as =>
    P s ∧ match step s a with
      | some s' => Always step P s' as
      | none => True

/-- Every step of the schedule that is taken meets `C` in the state it is taken from. -/
def Guarded (step : σ → ι → Option σ) (C : σ → ι → Prop) : σ → List ι → Prop
  | _, [] => True
  | s, a :: as =>
    match step s a with
    | some s' => C s a ∧ Guarded step C s' as
    | none => True

/-- Some schedule leads from `s₀` to `s`. -/
def Reachable (step : σ → ι → Option σ) (s₀ s : σ) : Prop :=
  ∃ as, run step s₀ as = some s

variable {step : σ → ι → Option σ}

instance decidableAlways {P : σ → Prop} [DecidablePred P] :
    ∀ (as : List ι) (s : σ), Decidable (Always step P s as)
  | [], s => inferInstanceAs (Decidable (P s))
  | a :: as, s =>
    have : Decidable (match step s a with
        | some s' => Always step P s' as
        | none => True) :=
      match step s a with
      | some s' => decidableAlways as s'
      | none => isTrue trivial
    inferInstanceAs (Decidable (P s ∧ _))

instance decidableGuarded {C : σ → ι → Prop} [∀ s a, Decidable (C s a)] :
    ∀ (as : List ι) (s : σ), Decidable (Guarded step C s as)
  | [], _ => isTrue trivial
  | a :: as, s =>
    have : Decidable (match step s a with
        | some s' => C s a ∧ Guarded step C s' as
        | none => True) :=
      match step s a with
      | some s' =>
        have : Decidable (Guarded step C s' as) := decidableGuarded as s'
        inferInstanceAs (Decidable (C s a ∧ Guarded step C s' as))
      | none => isTrue trivial
    this

@[simp]
theorem run_nil (s : σ) : run step s [] = some s := rfl

/-- The first step of a run. -/
theorem run_cons (s : σ) (a : ι) (as : List ι) :
    run step s (a :: as) = (step s a).bind (run step · as) := by
  simp only [run]
  cases step s a <;> rfl

/-- A run over two schedules in a row. -/
theorem run_append (s : σ) (as bs : List ι) :
    run step s (as ++ bs) = (run step s as).bind (run step · bs) := by
  induction as generalizing s with
  | nil => rfl
  | cons a as ih =>
      rw [List.cons_append, run_cons, run_cons]
      cases step s a with
      | none => rfl
      | some s' => exact ih s'

/-- `Always` over the prefixes of the schedule: `P` holds wherever a prefix leads. -/
theorem always_iff {P : σ → Prop} (s : σ) (as : List ι) :
    Always step P s as ↔ ∀ bs s', bs <+: as → run step s bs = some s' → P s' := by
  induction as generalizing s with
  | nil =>
      constructor
      · intro h bs s' hbs hrun
        rw [List.prefix_nil.mp hbs, run_nil] at hrun
        cases hrun
        exact h
      · intro h
        exact h [] s (List.prefix_refl _) rfl
  | cons a as ih =>
      constructor
      · rintro ⟨hs, hrest⟩ bs s' hbs hrun
        cases bs with
        | nil =>
            cases hrun
            exact hs
        | cons b bs =>
            obtain ⟨rfl, hpre⟩ := List.cons_prefix_cons.mp hbs
            rw [run_cons] at hrun
            cases hstep : step s b with
            | none => simp [hstep] at hrun
            | some t =>
                rw [hstep] at hrun hrest
                exact (ih t).mp hrest bs s' hpre hrun
      · intro h
        refine ⟨h [] s (List.nil_prefix) rfl, ?_⟩
        cases hstep : step s a with
        | none => trivial
        | some t =>
            refine (ih t).mpr fun bs s' hbs hrun => ?_
            refine h (a :: bs) s' (List.cons_prefix_cons.mpr ⟨rfl, hbs⟩) ?_
            rw [run_cons, hstep]
            exact hrun

/-- What holds along a run holds in its last state. -/
theorem Always.last {P : σ → Prop} {s s' : σ} {as : List ι} (h : Always step P s as)
    (hrun : run step s as = some s') : P s' :=
  (always_iff s as).mp h as s' (List.prefix_refl _) hrun

/-- A weaker property holds along the same run. -/
theorem Always.mono {P Q : σ → Prop} (hPQ : ∀ s, P s → Q s) {s : σ} {as : List ι}
    (h : Always step P s as) : Always step Q s as :=
  (always_iff s as).mpr fun bs s' hbs hrun => hPQ s' ((always_iff s as).mp h bs s' hbs hrun)

/-- **The invariant rule.** What the first state has and every guarded step preserves
holds in every state of a guarded run. -/
theorem always_of_guarded {I : σ → Prop} {C : σ → ι → Prop}
    (hstep : ∀ s a s', I s → C s a → step s a = some s' → I s') {s : σ} {as : List ι}
    (hs : I s) (hg : Guarded step C s as) : Always step I s as := by
  induction as generalizing s with
  | nil => exact hs
  | cons a as ih =>
      refine ⟨hs, ?_⟩
      simp only [Guarded] at hg
      cases h : step s a with
      | none => trivial
      | some s' =>
          rw [h] at hg
          exact ih (hstep s a s' hs hg.1 h) hg.2

/-- The invariant rule for unguarded steps, over reachable states. -/
theorem reachable_induction {I : σ → Prop} {s₀ : σ} (h₀ : I s₀)
    (hstep : ∀ s a s', I s → step s a = some s' → I s') {s : σ}
    (h : Reachable step s₀ s) : I s := by
  obtain ⟨as, hrun⟩ := h
  have hguard : Guarded step (fun _ _ => True) s₀ as := by
    clear hrun h₀
    induction as generalizing s₀ with
    | nil => trivial
    | cons a as ih =>
        simp only [Guarded]
        cases step s₀ a with
        | none => trivial
        | some s' => exact ⟨trivial, ih⟩
  exact (always_of_guarded (fun s a s' hI _ => hstep s a s' hI) h₀ hguard).last hrun

/-- **An exact guard.** If a step from a state with `P` keeps `P` exactly when the guard
holds, then `P` holds along a run exactly when every step of it meets the guard. -/
theorem always_iff_guarded {P : σ → Prop} {C : σ → ι → Prop}
    (hexact : ∀ s a s', P s → step s a = some s' → (P s' ↔ C s a))
    {s : σ} {as : List ι} (hs : P s) :
    Always step P s as ↔ Guarded step C s as := by
  induction as generalizing s with
  | nil => exact ⟨fun _ => trivial, fun _ => hs⟩
  | cons a as ih =>
      simp only [Always, Guarded]
      cases h : step s a with
      | none => exact ⟨fun _ => trivial, fun _ => ⟨hs, trivial⟩⟩
      | some s' =>
          constructor
          · rintro ⟨-, hrest⟩
            have hs' : P s' := ((always_iff s' as).mp hrest) [] s' List.nil_prefix rfl
            exact ⟨(hexact s a s' hs h).mp hs', (ih hs').mp hrest⟩
          · rintro ⟨hC, hrest⟩
            exact ⟨hs, (ih ((hexact s a s' hs h).mpr hC)).mpr hrest⟩

/-- **An exact guard, with an invariant.** The guard has to be exact only in states with an
invariant that every step keeps. -/
theorem always_iff_guarded_of_invariant {I P : σ → Prop} {C : σ → ι → Prop}
    (hkeep : ∀ s a s', I s → step s a = some s' → I s')
    (hexact : ∀ s a s', I s → P s → step s a = some s' → (P s' ↔ C s a))
    {s : σ} {as : List ι} (hi : I s) (hs : P s) :
    Always step P s as ↔ Guarded step C s as := by
  have hboth : Always step (fun s => I s ∧ P s) s as ↔ Guarded step C s as := by
    refine always_iff_guarded (fun s a s' h hstep => ?_) ⟨hi, hs⟩
    rw [← hexact s a s' h.1 h.2 hstep]
    exact and_iff_right (hkeep s a s' h.1 hstep)
  rw [← hboth]
  constructor
  · intro h
    refine (always_iff s as).mpr fun bs s' hbs hrun => ?_
    have hinv : ∀ t, Reachable step s t → I t := fun t ht => reachable_induction hi hkeep ht
    exact ⟨hinv s' ⟨bs, hrun⟩, (always_iff s as).mp h bs s' hbs hrun⟩
  · exact fun h => h.mono fun _ h => h.2

end CarLocator.Library
