import Mathlib.Data.Nat.Basic
import Mathlib.Tactic.Linarith
import Mathlib.Tactic.Ring

/-!
# `CarLocator.Library.Staircase`: steps of an error accumulator

A line is rasterised without a division: every round adds the increment `δ` to an error, and
when the error is above the distance `D`, the distance is taken off it and the coordinate
makes a step. `stairs δ D t` is the number of steps made in the first `t` rounds.

`stairs_succ` is the accumulator, `stairs_bounds` the invariant of it (the error stays in
`(0, D]`). What a rasteriser needs follows: a round makes no step or one
(`stairs_le_succ`, `stairs_succ_le`), the steps of `D + 1` rounds come to `δ`
(`stairs_last`), the longer axis steps in every round but the first (`stairs_self`), and
the staircase keeps less than one step away from the line through its ends
(`stairs_offset`).
-/

set_option autoImplicit false

namespace CarLocator.Library

/-- The steps made in the first `t` rounds. -/
def stairs (δ D t : Nat) : Nat := (t * δ - 1) / D

/-- No round, no step. -/
@[simp]
theorem stairs_zero (δ D : Nat) : stairs δ D 0 = 0 := by
  simp [stairs]

/-- No increment, no step. -/
@[simp]
theorem stairs_flat (D t : Nat) : stairs 0 D t = 0 := by
  simp [stairs]

/-- The error behind `t` rounds is in `(0, D]`. -/
theorem stairs_bounds {δ D t : Nat} (hδ : 0 < δ) (hD : δ ≤ D) (ht : 0 < t) :
    D * stairs δ D t < t * δ ∧ t * δ ≤ D * stairs δ D t + D := by
  have hpos : 0 < t * δ := Nat.mul_pos ht hδ
  have hdiv := Nat.div_add_mod (t * δ - 1) D
  have hmod := Nat.mod_lt (t * δ - 1) (show 0 < D from Nat.lt_of_lt_of_le hδ hD)
  rw [stairs]
  omega

/-- The number of steps is the one that leaves the error in `(0, D]`. -/
theorem stairs_eq {δ D t s : Nat} (hlow : D * s < t * δ) (hhigh : t * δ ≤ D * s + D) :
    stairs δ D t = s := by
  have hD : 0 < D := by
    rcases Nat.eq_zero_or_pos D with rfl | h
    · omega
    · exact h
  rw [stairs, Nat.div_eq_iff hD, Nat.mul_comm s D]
  omega

/-- **The accumulator.** -/
theorem stairs_succ {δ D : Nat} (hD : δ ≤ D) (t : Nat) :
    stairs δ D (t + 1) = if D * stairs δ D t + D < (t + 1) * δ then stairs δ D t + 1
      else stairs δ D t := by
  rcases Nat.eq_zero_or_pos δ with rfl | hδ
  · simp
  · have hstep : (t + 1) * δ = t * δ + δ := by ring
    rcases Nat.eq_zero_or_pos t with rfl | ht
    · -- the first round leaves the error at `δ`
      have hfirst : ¬ D * stairs δ D 0 + D < (0 + 1) * δ := by
        rw [stairs_zero]
        omega
      rw [if_neg hfirst]
      refine stairs_eq ?_ ?_
      · rw [stairs_zero]
        omega
      · rw [stairs_zero]
        omega
    · obtain ⟨hlow, hhigh⟩ := stairs_bounds hδ hD ht
      split
      · rename_i h
        refine stairs_eq ?_ ?_
        · rw [Nat.mul_add, Nat.mul_one]
          exact h
        · rw [Nat.mul_add, Nat.mul_one]
          omega
      · rename_i h
        exact stairs_eq (by omega) (by omega)

/-- The first round makes no step. -/
theorem stairs_one {δ D : Nat} (hD : δ ≤ D) : stairs δ D 1 = 0 := by
  have hstep := stairs_succ hD 0
  rw [stairs_zero, if_neg (by omega)] at hstep
  exact hstep

/-- A round takes no step back. -/
theorem stairs_le_succ {δ D : Nat} (hD : δ ≤ D) (t : Nat) :
    stairs δ D t ≤ stairs δ D (t + 1) := by
  rw [stairs_succ hD]
  split
  · exact Nat.le_succ _
  · exact Nat.le_refl _

/-- A round makes at most one step. -/
theorem stairs_succ_le {δ D : Nat} (hD : δ ≤ D) (t : Nat) :
    stairs δ D (t + 1) ≤ stairs δ D t + 1 := by
  rw [stairs_succ hD]
  split
  · exact Nat.le_refl _
  · exact Nat.le_succ _

/-- More rounds, more steps. -/
theorem stairs_mono {δ D t u : Nat} (h : t ≤ u) : stairs δ D t ≤ stairs δ D u :=
  Nat.div_le_div_right (Nat.sub_le_sub_right (Nat.mul_le_mul_right δ h) 1)

/-- `D + 1` rounds make `δ` steps. -/
theorem stairs_last {δ D : Nat} (hD : δ ≤ D) : stairs δ D (D + 1) = δ := by
  rcases Nat.eq_zero_or_pos δ with rfl | hδ
  · exact stairs_flat D (D + 1)
  · have hsum : (D + 1) * δ = D * δ + δ := by ring
    exact stairs_eq (by omega) (by omega)

/-- No more than `δ` steps are made on the way. -/
theorem stairs_le {δ D t : Nat} (hD : δ ≤ D) (ht : t ≤ D + 1) : stairs δ D t ≤ δ :=
  calc
    stairs δ D t ≤ stairs δ D (D + 1) := stairs_mono ht
    _ = δ := stairs_last hD

/-- The longer axis steps in every round but the first. -/
theorem stairs_self {D : Nat} (hD : 0 < D) (t : Nat) : stairs D D (t + 1) = t := by
  have hsum : (t + 1) * D = D * t + D := by ring
  exact stairs_eq (by omega) (by omega)

/-- **The staircase keeps to the line**: with `stairs D D t` steps made along the longer axis,
it is less than one step away from its `δ / D` part of them. -/
theorem stairs_offset {δ D : Nat} (hδ : δ ≤ D) (hD : 0 < D) (t : Nat) :
    D * stairs δ D t < stairs D D t * δ + D ∧ stairs D D t * δ < D * stairs δ D t + D := by
  cases t with
  | zero =>
      rw [stairs_zero, stairs_zero]
      omega
  | succ t =>
      rw [stairs_self hD]
      rcases Nat.eq_zero_or_pos δ with rfl | hpos
      · rw [stairs_flat]
        omega
      · have hsum : (t + 1) * δ = t * δ + δ := by ring
        obtain ⟨hlow, hhigh⟩ := stairs_bounds hpos hδ (show 0 < t + 1 from Nat.succ_pos t)
        omega

end CarLocator.Library
