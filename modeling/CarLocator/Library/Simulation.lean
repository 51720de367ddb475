import CarLocator.Library.Runs

/-!
# `CarLocator.Library.Simulation`: a system that behaves like another one

Two step functions, the concrete `step` and the abstract `absStep`, with a map `abs` from the
states of the one to those of the other and a map `label` between their labels.

* `Forward`: every concrete step that meets a guard is an abstract step. What holds along every
  abstract run then holds along every guarded concrete run (`Forward.always`).
* `Exact`: a concrete step is enabled exactly when its image is, and leads to the same abstract
  state. `Always` and `Guarded` then say the same of both runs (`Exact.always_iff`,
  `Exact.guarded_iff`).

Both carry an invariant of the concrete system.
-/

set_option autoImplicit false

namespace CarLocator.Library

variable {σ ι τ κ : Type*}

/-- Guarded steps of `step` are steps of `absStep`. -/
structure Forward (step : σ → ι → Option σ) (absStep : τ → κ → Option τ) (I : σ → Prop)
    (C : σ → ι → Prop) (abs : σ → τ) (label : ι → κ) : Prop where
  keeps : ∀ s a s', I s → C s a → step s a = some s' → I s'
  commutes : ∀ s a s', I s → C s a → step s a = some s' →
    absStep (abs s) (label a) = some (abs s')

/-- The steps of `step` are, seen through `abs`, exactly the steps of `absStep`. -/
structure Exact (step : σ → ι → Option σ) (absStep : τ → κ → Option τ) (I : σ → Prop)
    (abs : σ → τ) (label : ι → κ) : Prop where
  keeps : ∀ s a s', I s → step s a = some s' → I s'
  commutes : ∀ s a, I s → (step s a).map abs = absStep (abs s) (label a)

variable {step : σ → ι → Option σ} {absStep : τ → κ → Option τ} {I : σ → Prop}
  {C : σ → ι → Prop} {abs : σ → τ} {label : ι → κ}

/-- What only guarded steps lead to, from states with an invariant that these keep. -/
theorem guarded_of_always {P : σ → Prop}
    (hkeep : ∀ s a s', I s → C s a → step s a = some s' → I s')
    (hguard : ∀ s a s', I s → step s a = some s' → P s' → C s a) {s : σ} {as : List ι} (hs : I s)
    (h : Always step P s as) : Guarded step C s as := by
  induction as generalizing s with
  | nil => trivial
  | cons a as ih =>
      simp only [Always, Guarded] at h ⊢
      cases hnext : step s a with
      | none => trivial
      | some s' =>
          rw [hnext] at h
          have hP : P s' := (always_iff s' as).mp h.2 [] s' List.nil_prefix rfl
          have hC := hguard s a s' hs hnext hP
          exact ⟨hC, ih (hkeep s a s' hs hC hnext) h.2⟩

/-- A guard that holds along a schedule holds along its front. -/
theorem Guarded.of_prefix {s : σ} {as bs : List ι} (h : Guarded step C s as) (hbs : bs <+: as) :
    Guarded step C s bs := by
  induction bs generalizing s as with
  | nil => trivial
  | cons b bs ih =>
      obtain ⟨cs, rfl⟩ := hbs
      rw [List.cons_append] at h
      simp only [Guarded] at h ⊢
      cases hstep : step s b with
      | none => trivial
      | some t =>
          rw [hstep] at h
          exact ⟨h.1, ih h.2 (List.prefix_append bs cs)⟩

/-- A guarded run is an abstract run. -/
theorem Forward.run (h : Forward step absStep I C abs label) {s s' : σ} {as : List ι} (hs : I s)
    (hg : Guarded step C s as) (hrun : run step s as = some s') :
    run absStep (abs s) (as.map label) = some (abs s') ∧ I s' := by
  induction as generalizing s with
  | nil =>
      cases hrun
      exact ⟨rfl, hs⟩
  | cons a as ih =>
      rw [run_cons] at hrun
      simp only [Guarded] at hg
      cases hstep : step s a with
      | none => simp [hstep] at hrun
      | some t =>
          rw [hstep] at hrun hg
          rw [List.map_cons, run_cons, h.commutes s a t hs hg.1 hstep]
          exact ih (h.keeps s a t hs hg.1 hstep) hg.2 hrun

/-- What holds along the abstract run holds along the guarded run. -/
theorem Forward.always (h : Forward step absStep I C abs label) {P : τ → Prop} {s : σ}
    {as : List ι} (hs : I s) (hg : Guarded step C s as)
    (hP : Always absStep P (abs s) (as.map label)) :
    Always step (fun s => P (abs s)) s as := by
  refine (always_iff s as).mpr fun bs s' hbs hrun => ?_
  obtain ⟨habs, -⟩ := h.run hs (hg.of_prefix hbs) hrun
  exact (always_iff _ _).mp hP _ _ (hbs.map label) habs

/-- The invariant holds along every run. -/
theorem Exact.reachable (h : Exact step absStep I abs label) {s s' : σ} (hs : I s)
    (hr : Reachable step s s') : I s' :=
  reachable_induction hs h.keeps hr

/-- A property of the abstract state along both runs. -/
theorem Exact.always_iff (h : Exact step absStep I abs label) {P : τ → Prop} {s : σ}
    {as : List ι} (hs : I s) :
    Always step (fun s => P (abs s)) s as ↔ Always absStep P (abs s) (as.map label) := by
  induction as generalizing s with
  | nil => exact Iff.rfl
  | cons a as ih =>
      simp only [Always, List.map_cons]
      rw [← h.commutes s a hs]
      cases hstep : step s a with
      | none => exact Iff.rfl
      | some t => exact and_congr_right fun _ => ih (h.keeps s a t hs hstep)

/-- A guard on the abstract state along both runs. -/
theorem Exact.guarded_iff (h : Exact step absStep I abs label) {D : τ → κ → Prop} {s : σ}
    {as : List ι} (hs : I s) :
    Guarded step (fun s a => D (abs s) (label a)) s as
      ↔ Guarded absStep D (abs s) (as.map label) := by
  induction as generalizing s with
  | nil => exact Iff.rfl
  | cons a as ih =>
      simp only [Guarded, List.map_cons]
      rw [← h.commutes s a hs]
      cases hstep : step s a with
      | none => exact Iff.rfl
      | some t => exact and_congr_right fun _ => ih (h.keeps s a t hs hstep)

end CarLocator.Library
