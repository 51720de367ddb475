import Mathlib.Data.List.Basic
import Mathlib.Tactic.Ring

/-!
# `CarLocator.Library.Grid`: a grid gone through column by column

`columns w h f` lists the values `f i j` of the `w` columns of `h` entries, one column behind
the other. Code that goes through a grid in blocks of a fixed size, with a shorter block at the
end of each column, visits the same entries in the same order: `columns_blocks`.

`succ_div_mod_of_lt` and `succ_div_mod_of_eq` step from one block to the next.

`filter_columns` says that the entry that a test singles out is visited exactly once.
-/

set_option autoImplicit false

namespace CarLocator.Library

variable {α : Type*}

/-- The entries of a grid, column by column. -/
def columns (w h : Nat) (f : Nat → Nat → α) : List α :=
  (List.range w).flatMap fun i => (List.range h).map (f i)

/-- What is in the list. -/
theorem mem_columns {w h : Nat} {f : Nat → Nat → α} {a : α} :
    a ∈ columns w h f ↔ ∃ i < w, ∃ j < h, f i j = a := by
  simp [columns, List.mem_flatMap]

/-- A range of `w * n` in `w` parts. -/
theorem flatMap_range_mul (w n : Nat) (f : Nat → Nat → List α) :
    (List.range (w * n)).flatMap (fun t => f (t / n) (t % n))
      = (List.range w).flatMap fun i => (List.range n).flatMap (f i) := by
  induction w with
  | zero => simp
  | succ w ih =>
      have hpart : ∀ k ∈ List.range n, f ((w * n + k) / n) ((w * n + k) % n) = f w k := by
        intro k hk
        have hlt := List.mem_range.mp hk
        have hn : 0 < n := Nat.lt_of_le_of_lt (Nat.zero_le k) hlt
        rw [Nat.mul_comm w n, Nat.mul_add_div hn, Nat.div_eq_of_lt hlt, Nat.add_zero,
          Nat.mul_add_mod, Nat.mod_eq_of_lt hlt]
      rw [Nat.succ_mul, List.range_add, List.flatMap_append, ih, List.flatMap_map,
        List.range_succ, List.flatMap_append, List.flatMap_singleton]
      exact congrArg _ (List.flatMap_congr hpart)

/-- A column in blocks of `s`. -/
theorem flatMap_blocks (s n h : Nat) (g : Nat → α) :
    (List.range n).flatMap (fun b => (List.range (min s (h - s * b))).map fun k => g (s * b + k))
      = (List.range (min h (s * n))).map g := by
  induction n with
  | zero => simp
  | succ n ih =>
      have hsum : s * (n + 1) = s * n + s := by ring
      rw [List.range_succ, List.flatMap_append, ih, List.flatMap_singleton]
      rcases Nat.le_total h (s * n) with hle | hle
      · -- the column is over
        have hmin : min h (s * (n + 1)) = min h (s * n) := by omega
        rw [Nat.sub_eq_zero_of_le hle, hmin]
        simp
      · have hmin : min h (s * (n + 1)) = s * n + min s (h - s * n) := by omega
        rw [hmin, Nat.min_eq_right hle, List.range_add, List.map_append, List.map_map]
        rfl

/-- **The grid in blocks**: `n` blocks of `s` entries cover a column, and the last one ends with
it. -/
theorem columns_blocks {w h s n : Nat} (hn : h ≤ s * n) (f : Nat → Nat → α) :
    (List.range (w * n)).flatMap (fun t =>
        (List.range (min s (h - s * (t % n)))).map fun k => f (t / n) (s * (t % n) + k))
      = columns w h f := by
  rw [flatMap_range_mul w n fun i b =>
    (List.range (min s (h - s * b))).map fun k => f i (s * b + k)]
  refine List.flatMap_congr fun i _ => ?_
  rw [flatMap_blocks, Nat.min_eq_left hn]

/-- The next block in the same column. -/
theorem succ_div_mod_of_lt {t n : Nat} (h : t % n + 1 < n) :
    (t + 1) / n = t / n ∧ (t + 1) % n = t % n + 1 := by
  rw [Nat.div_mod_unique (by omega)]
  exact ⟨by rw [Nat.add_right_comm, Nat.mod_add_div], h⟩

/-- The first block of the next column. -/
theorem succ_div_mod_of_eq {t n : Nat} (h : t % n + 1 = n) :
    (t + 1) / n = t / n + 1 ∧ (t + 1) % n = 0 := by
  have hdiv := Nat.mod_add_div t n
  rw [Nat.div_mod_unique (by omega), Nat.mul_succ]
  omega

/-- A range where only one entry contributes. -/
theorem flatMap_range_single {n k : Nat} (hk : k < n) {g : Nat → List α}
    (h : ∀ i < n, i ≠ k → g i = []) : (List.range n).flatMap g = g k := by
  induction n with
  | zero => omega
  | succ n ih =>
      rw [List.range_succ, List.flatMap_append, List.flatMap_singleton]
      by_cases hlast : k = n
      · subst hlast
        have hbefore : (List.range k).flatMap g = [] :=
          List.flatMap_eq_nil_iff.mpr fun i hi => by
            have hlt := List.mem_range.mp hi
            exact h i (Nat.lt_succ_of_lt hlt) (Nat.ne_of_lt hlt)
        rw [hbefore, List.nil_append]
      · have hrest := ih (by omega) fun i hi => h i (Nat.lt_succ_of_lt hi)
        rw [hrest, h n (Nat.lt_succ_self n) (fun hn => hlast hn.symm), List.append_nil]

/-- **An entry is visited once.** -/
theorem filter_columns {w h i₀ j₀ : Nat} (hi : i₀ < w) (hj : j₀ < h) {f : Nat → Nat → α}
    {p : α → Bool} (hp : ∀ i < w, ∀ j < h, p (f i j) = true ↔ i = i₀ ∧ j = j₀) :
    (columns w h f).filter p = [f i₀ j₀] := by
  -- an entry that passes the test is left as it is, any other one drops out
  have hentry : ∀ i < w, ∀ j < h, ¬ (i = i₀ ∧ j = j₀) → [f i j].filter p = [] := by
    intro i hi' j hj' hne
    exact List.filter_cons_of_neg fun hpass => hne ((hp i hi' j hj').mp hpass)
  have hcolumn : ∀ i, ((List.range h).map (f i)).filter p
      = (List.range h).flatMap fun j => [f i j].filter p := by
    intro i
    rw [List.map_eq_flatMap, List.filter_flatMap]
  rw [columns, List.filter_flatMap]
  simp only [hcolumn]
  rw [flatMap_range_single hi, flatMap_range_single hj]
  · exact List.filter_cons_of_pos ((hp i₀ hi j₀ hj).mpr ⟨rfl, rfl⟩)
  · intro j hj' hne
    exact hentry i₀ hi j hj' fun h => hne h.2
  · intro i hi' hne
    exact List.flatMap_eq_nil_iff.mpr fun j hj' =>
      hentry i hi' j (List.mem_range.mp hj') fun h => hne h.1

end CarLocator.Library
