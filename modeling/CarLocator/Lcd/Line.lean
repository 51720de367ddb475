import CarLocator.Lcd.Draw
import CarLocator.Library.Staircase
import Mathlib.Algebra.Order.Field.Basic
import Mathlib.Data.Finset.Card
import Mathlib.Data.List.Range
import Mathlib.Tactic.FieldSimp

/-!
# `CarLocator.Lcd.Line`: `LCD_DrawLine` draws the line

Each of the two accumulators of `LCD_DrawLine` is a staircase (`CarLocator.Library.Staircase`)
of the distance along the longer axis: behind `t` rounds the coordinate has made
`stairs δ D t` steps (`lineCoord`), and the accumulator holds the rest (`lineAxis`). One round
of the loop is one round of both (`step_lineAxis`), so the loop draws the points of the rounds
`0 .. D + 1` (`lcdDrawLineLoop_points`). The 16-bit counter gets as far as that when the sides
of the panel are below 32768.

`LineDrawn` is what is asked of a line. Every part of it is a rule of the staircase, read off
the points.
-/

set_option autoImplicit false

namespace CarLocator.Lcd

open CarLocator.Library

/-! ### What is asked of a line -/

/-- The distance along the longer axis. -/
def lineDistance (x1 y1 x2 y2 : UInt16) : Nat :=
  max ((x2.toNat : Int) - x1.toNat).natAbs ((y2.toNat : Int) - y1.toNat).natAbs

/-- No axis is longer than the longer axis. -/
theorem le_lineDistance_x (x1 y1 x2 y2 : UInt16) :
    ((x2.toNat : Int) - x1.toNat).natAbs ≤ lineDistance x1 y1 x2 y2 :=
  Nat.le_max_left _ _

/-- No axis is longer than the longer axis. -/
theorem le_lineDistance_y (x1 y1 x2 y2 : UInt16) :
    ((y2.toNat : Int) - y1.toNat).natAbs ≤ lineDistance x1 y1 x2 y2 :=
  Nat.le_max_right _ _

/-- The points are equal or 8-neighbours. -/
def Neighbours (p q : Point) : Prop :=
  |(q.x.toNat : Int) - p.x.toNat| ≤ 1 ∧ |(q.y.toNat : Int) - p.y.toNat| ≤ 1

/-- From `u` to `v` is no step away from the way from `a` to `b`. -/
def Toward (a b u v : UInt16) : Prop := (a ≤ b → u ≤ v) ∧ (b ≤ a → v ≤ u)

/-- The coordinate is between the ends. -/
def Between (a b u : UInt16) : Prop :=
  min a.toNat b.toNat ≤ u.toNat ∧ u.toNat ≤ max a.toNat b.toNat

/-- At `u` on the way from `a` to `b`, the coordinate `v` is less than one pixel away from the
segment that goes from `c` to `d` on that way. -/
def CloseTo (a b c d u v : UInt16) : Prop :=
  |(v.toNat : ℚ) - (c.toNat + ((d.toNat : ℚ) - c.toNat) * ((u.toNat : ℚ) - a.toNat)
    / ((b.toNat : ℚ) - a.toNat))| < 1

/-- The points of the line from `(x1,y1)` to `(x2,y2)`. -/
structure LineDrawn (x1 y1 x2 y2 : UInt16) (points : List Point) : Prop where
  first : points.head? = some ⟨x1, y1⟩
  last : points.getLast? = some ⟨x2, y2⟩
  neighbours : points.IsChain Neighbours
  monotone : points.IsChain fun p q => Toward x1 x2 p.x q.x ∧ Toward y1 y2 p.y q.y
  box : ∀ p ∈ points, Between x1 x2 p.x ∧ Between y1 y2 p.y
  distinct : points.toFinset.card = lineDistance x1 y1 x2 y2 + 1
  -- measured along y where x is the longer axis, and along x where y is
  close : ∀ p ∈ points,
    (((y2.toNat : Int) - y1.toNat).natAbs ≤ ((x2.toNat : Int) - x1.toNat).natAbs →
      CloseTo x1 x2 y1 y2 p.x p.y)
    ∧ (((x2.toNat : Int) - x1.toNat).natAbs ≤ ((y2.toNat : Int) - y1.toNat).natAbs →
      CloseTo y1 y2 x1 x2 p.y p.x)

/-! ### One axis -/

/-- The step direction is the sign of the increment. -/
theorem lineInc_eq_sign (delta : Int) : lineInc delta = delta.sign := by
  unfold lineInc
  split
  · rename_i h
    exact (Int.sign_eq_one_of_pos h).symm
  · split
    · rename_i h
      rw [h]
      rfl
    · rename_i hpos hzero
      exact (Int.sign_eq_neg_one_of_neg (by omega)).symm

/-- The increment of the accumulator is its magnitude. -/
theorem lineDelta_eq_natAbs (delta : Int) : lineDelta delta = delta.natAbs := by
  unfold lineDelta
  split <;> omega

/-- The coordinate that goes from `a` to `b`, behind `t` rounds. -/
def lineCoord (a b : UInt16) (D t : Nat) : Int :=
  a.toNat + ((b.toNat : Int) - a.toNat).sign
    * stairs ((b.toNat : Int) - a.toNat).natAbs D t

/-- The accumulator behind `t` rounds. -/
def lineAxis (a b : UInt16) (D t : Nat) : LineAxis where
  err := (t * ((b.toNat : Int) - a.toNat).natAbs : Nat)
    - (D * stairs ((b.toNat : Int) - a.toNat).natAbs D t : Nat)
  pos := lineCoord a b D t

/-- One round of an accumulator. -/
theorem step_lineAxis {a b : UInt16} {D : Nat}
    (hD : ((b.toNat : Int) - a.toNat).natAbs ≤ D) (t : Nat) :
    (lineAxis a b D t).step (((b.toNat : Int) - a.toNat).natAbs : Nat) D
      (lineInc ((b.toNat : Int) - a.toNat)) = lineAxis a b D (t + 1) := by
  rw [lineInc_eq_sign]
  generalize hδ : ((b.toNat : Int) - a.toNat).natAbs = δ at hD
  have hsum : (t + 1) * δ = t * δ + δ := by ring
  have hstep := stairs_succ hD t
  simp only [LineAxis.step, lineAxis, lineCoord, hδ]
  by_cases h : D * stairs δ D t + D < (t + 1) * δ
  · rw [if_pos h] at hstep
    have hdist : D * (stairs δ D t + 1) = D * stairs δ D t + D := by ring
    rw [if_pos (by omega), hstep, hsum, hdist]
    congr 1
    · push_cast
      ring
    · push_cast
      ring
  · rw [if_neg h] at hstep
    rw [if_neg (by omega), hstep, hsum]
    congr 1
    push_cast
    ring

/-- On the way up the steps are added. -/
theorem lineCoord_of_le {a b : UInt16} (h : a ≤ b) (D t : Nat) :
    lineCoord a b D t = a.toNat + (stairs (b.toNat - a.toNat) D t : Nat) := by
  have hle : a.toNat ≤ b.toNat := UInt16.le_iff_toNat_le.mp h
  have habs : ((b.toNat : Int) - a.toNat).natAbs = b.toNat - a.toNat := by omega
  rw [lineCoord, habs]
  rcases Nat.eq_or_lt_of_le hle with heq | hlt
  · rw [heq, Nat.sub_self, stairs_flat]
    simp
  · rw [Int.sign_eq_one_of_pos (by omega), Int.one_mul]

/-- On the way down they are subtracted. -/
theorem lineCoord_of_ge {a b : UInt16} (h : b ≤ a) (D t : Nat) :
    lineCoord a b D t = a.toNat - (stairs (a.toNat - b.toNat) D t : Nat) := by
  have hle : b.toNat ≤ a.toNat := UInt16.le_iff_toNat_le.mp h
  have habs : ((b.toNat : Int) - a.toNat).natAbs = a.toNat - b.toNat := by omega
  rw [lineCoord, habs]
  rcases Nat.eq_or_lt_of_le hle with heq | hlt
  · rw [heq, Nat.sub_self, stairs_flat]
    simp
  · rw [Int.sign_eq_neg_one_of_neg (by omega)]
    ring

/-- The coordinate does not leave the way. -/
theorem lineCoord_bounds {a b : UInt16} {D t : Nat}
    (hD : ((b.toNat : Int) - a.toNat).natAbs ≤ D) (ht : t ≤ D + 1) :
    (min a.toNat b.toNat : Nat) ≤ lineCoord a b D t
      ∧ lineCoord a b D t ≤ (max a.toNat b.toNat : Nat) := by
  rcases UInt16.le_total a b with h | h
  · have hle := UInt16.le_iff_toNat_le.mp h
    have hsteps : stairs (b.toNat - a.toNat) D t ≤ b.toNat - a.toNat :=
      stairs_le (by omega) ht
    rw [lineCoord_of_le h]
    omega
  · have hle := UInt16.le_iff_toNat_le.mp h
    have hsteps : stairs (a.toNat - b.toNat) D t ≤ a.toNat - b.toNat :=
      stairs_le (by omega) ht
    rw [lineCoord_of_ge h]
    omega

/-- The coordinate that is drawn in round `t`. -/
def lineAt (a b : UInt16) (D t : Nat) : UInt16 := UInt16.ofInt (lineCoord a b D t)

section Axis

variable {a b : UInt16} {D : Nat} (hD : ((b.toNat : Int) - a.toNat).natAbs ≤ D)
include hD

/-- The 16 bits of `LCD_DrawPoint` cut nothing off. -/
theorem toNat_lineAt {t : Nat} (ht : t ≤ D + 1) :
    ((lineAt a b D t).toNat : Int) = lineCoord a b D t := by
  obtain ⟨hlow, hhigh⟩ := lineCoord_bounds hD ht
  have ha := a.toNat_lt
  have hb := b.toNat_lt
  have hwrap : (lineAt a b D t).toNat = (lineCoord a b D t % 2 ^ 16).toNat % 2 ^ 16 := rfl
  omega

/-- It starts at `a`. -/
theorem lineAt_zero : lineAt a b D 0 = a := by
  have h := toNat_lineAt hD (Nat.zero_le (D + 1))
  rw [lineCoord, stairs_zero, Nat.cast_zero, Int.mul_zero] at h
  apply UInt16.toNat_inj.mp
  omega

/-- The first round does not move it. -/
theorem lineAt_one : lineAt a b D 1 = a := by
  have h := toNat_lineAt hD (show 1 ≤ D + 1 from Nat.le_add_left 1 D)
  rw [lineCoord, stairs_one hD, Nat.cast_zero, Int.mul_zero] at h
  apply UInt16.toNat_inj.mp
  omega

/-- It ends at `b`. -/
theorem lineAt_last : lineAt a b D (D + 1) = b := by
  have h := toNat_lineAt hD (Nat.le_refl (D + 1))
  rw [lineCoord, stairs_last hD, Int.sign_mul_natAbs] at h
  apply UInt16.toNat_inj.mp
  omega

/-- It stays between the ends. -/
theorem lineAt_between {t : Nat} (ht : t ≤ D + 1) : Between a b (lineAt a b D t) := by
  obtain ⟨hlow, hhigh⟩ := lineCoord_bounds hD ht
  rw [← toNat_lineAt hD ht] at hlow hhigh
  unfold Between
  omega

/-- One round moves it by one at most. -/
theorem lineAt_succ_near {t : Nat} (ht : t < D + 1) :
    |((lineAt a b D (t + 1)).toNat : Int) - (lineAt a b D t).toNat| ≤ 1 := by
  have hsucc : t + 1 ≤ D + 1 := ht
  rw [toNat_lineAt hD hsucc, toNat_lineAt hD (Nat.le_of_lt ht), abs_le]
  rcases UInt16.le_total a b with h | h
  · have hδ : b.toNat - a.toNat ≤ D := by omega
    have hup := stairs_le_succ hδ t
    have hone := stairs_succ_le hδ t
    rw [lineCoord_of_le h, lineCoord_of_le h]
    omega
  · have hδ : a.toNat - b.toNat ≤ D := by omega
    have hup := stairs_le_succ hδ t
    have hone := stairs_succ_le hδ t
    rw [lineCoord_of_ge h, lineCoord_of_ge h]
    omega

/-- One round does not move it back. -/
theorem lineAt_succ_toward {t : Nat} (ht : t < D + 1) :
    Toward a b (lineAt a b D t) (lineAt a b D (t + 1)) := by
  have hsucc : t + 1 ≤ D + 1 := ht
  have hnext := toNat_lineAt hD hsucc
  have hthis := toNat_lineAt hD (Nat.le_of_lt ht)
  constructor
  · intro h
    have hup := stairs_mono (δ := b.toNat - a.toNat) (D := D) (Nat.le_add_right t 1)
    rw [lineCoord_of_le h] at hnext hthis
    rw [UInt16.le_iff_toNat_le]
    omega
  · intro h
    have hup := stairs_mono (δ := a.toNat - b.toNat) (D := D) (Nat.le_add_right t 1)
    rw [lineCoord_of_ge h] at hnext hthis
    rw [UInt16.le_iff_toNat_le]
    omega

end Axis

/-- A sign makes nothing larger. -/
theorem abs_sign_mul_le (s w : Int) : |s.sign * w| ≤ |w| := by
  rcases Int.sign_trichotomy s with h | h | h
  · rw [h, Int.one_mul]
  · rw [h, Int.zero_mul, abs_zero]
    exact abs_nonneg w
  · rw [h, Int.neg_mul, Int.one_mul, abs_neg]

section Axes

variable {a b c d : UInt16} {D : Nat} (hmajor : ((b.toNat : Int) - a.toNat).natAbs = D)
  (hminor : ((d.toNat : Int) - c.toNat).natAbs ≤ D)
include hmajor

/-- Behind the first round, the longer axis is somewhere else in every round. -/
theorem lineAt_injective {t u : Nat} (ht : t ≤ D) (hu : u ≤ D)
    (h : lineAt a b D (t + 1) = lineAt a b D (u + 1)) : t = u := by
  rcases Nat.eq_zero_or_pos D with rfl | hD
  · omega
  · have htoNat : lineCoord a b D (t + 1) = lineCoord a b D (u + 1) := by
      rw [← toNat_lineAt (Nat.le_of_eq hmajor) (Nat.succ_le_succ ht),
        ← toNat_lineAt (Nat.le_of_eq hmajor) (Nat.succ_le_succ hu), h]
    have hsign : ((b.toNat : Int) - a.toNat).sign ≠ 0 := by
      intro hzero
      have := Int.sign_eq_zero_iff_zero.mp hzero
      omega
    rw [lineCoord, lineCoord, hmajor, stairs_self hD, stairs_self hD] at htoNat
    have hmul := Int.eq_of_mul_eq_mul_left hsign (Int.add_left_cancel htoNat)
    omega

include hminor

/-- How far off the segment a point is, times the distance. -/
theorem lineAt_offset (hD : 0 < D) {t : Nat} (ht : t ≤ D + 1) :
    |(((lineAt c d D t).toNat : Int) - c.toNat) * ((b.toNat : Int) - a.toNat)
      - ((d.toNat : Int) - c.toNat) * (((lineAt a b D t).toNat : Int) - a.toNat)| < D := by
  rw [toNat_lineAt hminor ht, toNat_lineAt (Nat.le_of_eq hmajor) ht, lineCoord, lineCoord,
    hmajor, add_sub_cancel_left, add_sub_cancel_left]
  obtain ⟨hlow, hhigh⟩ := stairs_offset hminor hD t
  have hba := Int.sign_mul_natAbs ((b.toNat : Int) - a.toNat)
  have hdc := Int.sign_mul_natAbs ((d.toNat : Int) - c.toNat)
  rw [hmajor] at hba
  generalize ((d.toNat : Int) - c.toNat).natAbs = δ at hlow hhigh hdc ⊢
  have hoff : |((D * stairs δ D t : Nat) : Int) - (stairs D D t * δ : Nat)| < D := by
    rw [abs_lt]
    omega
  calc
    _ = |((d.toNat : Int) - c.toNat).sign * (((b.toNat : Int) - a.toNat).sign
          * (((D * stairs δ D t : Nat) : Int) - (stairs D D t * δ : Nat)))| := by
        generalize ((b.toNat : Int) - a.toNat).sign = sb at hba ⊢
        generalize ((d.toNat : Int) - c.toNat).sign = sd at hdc ⊢
        rw [← hba, ← hdc]
        congr 1
        push_cast
        ring
    _ ≤ |((D * stairs δ D t : Nat) : Int) - (stairs D D t * δ : Nat)| :=
        (abs_sign_mul_le _ _).trans (abs_sign_mul_le _ _)
    _ < D := hoff

/-- The point of every round is close to the segment. -/
theorem lineAt_closeTo {t : Nat} (ht : t ≤ D + 1) :
    CloseTo a b c d (lineAt a b D t) (lineAt c d D t) := by
  rcases Nat.eq_zero_or_pos D with rfl | hD
  · -- a single point
    have hends := lineAt_between hminor ht
    have hv : (lineAt c d 0 t).toNat = c.toNat := by
      unfold Between at hends
      omega
    have hba : (b.toNat : ℚ) - a.toNat = 0 := by
      have heq : b.toNat = a.toNat := by omega
      rw [heq, sub_self]
    rw [CloseTo, hv, hba, div_zero, add_zero, sub_self, abs_zero]
    exact one_pos
  · have hoff := lineAt_offset hmajor hminor hD ht
    have hne : (b.toNat : ℚ) - a.toNat ≠ 0 := by
      intro hzero
      have heq : (b.toNat : ℚ) = a.toNat := sub_eq_zero.mp hzero
      have := Nat.cast_injective heq
      omega
    have hdist : |(b.toNat : ℚ) - a.toNat| = D := by
      rw [← hmajor, Nat.cast_natAbs]
      push_cast
      rfl
    rw [CloseTo]
    generalize (lineAt a b D t).toNat = u at hoff ⊢
    generalize (lineAt c d D t).toNat = v at hoff ⊢
    have hcast : |((v : ℚ) - c.toNat) * ((b.toNat : ℚ) - a.toNat)
        - ((d.toNat : ℚ) - c.toNat) * ((u : ℚ) - a.toNat)| < D := by
      exact_mod_cast hoff
    have hquot : (v : ℚ) - (c.toNat + ((d.toNat : ℚ) - c.toNat) * ((u : ℚ) - a.toNat)
          / ((b.toNat : ℚ) - a.toNat))
        = (((v : ℚ) - c.toNat) * ((b.toNat : ℚ) - a.toNat)
          - ((d.toNat : ℚ) - c.toNat) * ((u : ℚ) - a.toNat)) / ((b.toNat : ℚ) - a.toNat) := by
      field_simp
      ring
    rw [hquot, abs_div, hdist, div_lt_one (by exact_mod_cast hD)]
    exact hcast

end Axes

/-! ### The loop -/

/-- The point of round `t`. -/
def linePoint (x1 y1 x2 y2 : UInt16) (D t : Nat) : Point where
  x := lineAt x1 x2 D t
  y := lineAt y1 y2 D t

/-- The loop with `n` rounds to go, from round `t` on. -/
theorem lcdDrawLineLoop_points {x1 y1 x2 y2 : UInt16} {D : Nat}
    (hx : ((x2.toNat : Int) - x1.toNat).natAbs ≤ D)
    (hy : ((y2.toNat : Int) - y1.toNat).natAbs ≤ D) (hD : D + 2 < 2 ^ 16) {n t fuel : Nat}
    (hn : t + n = D + 2) (hfuel : n < fuel) :
    lcdDrawLineLoop (((x2.toNat : Int) - x1.toNat).natAbs : Nat)
        (((y2.toNat : Int) - y1.toNat).natAbs : Nat) D (lineInc ((x2.toNat : Int) - x1.toNat))
        (lineInc ((y2.toNat : Int) - y1.toNat)) fuel (UInt16.ofNat t) (lineAxis x1 x2 D t)
        (lineAxis y1 y2 D t)
      = some ((List.range' t n).map (linePoint x1 y1 x2 y2 D)) := by
  induction n generalizing t fuel with
  | zero =>
      obtain ⟨fuel, rfl⟩ := Nat.exists_eq_add_of_lt hfuel
      have ht : (UInt16.ofNat t).toNat = t := by
        rw [UInt16.toNat_ofNat', Nat.mod_eq_of_lt (by omega)]
      rw [lcdDrawLineLoop, if_neg (by omega)]
      rfl
  | succ n ih =>
      obtain ⟨fuel, rfl⟩ : ∃ k, fuel = k + 1 := Nat.exists_eq_succ_of_ne_zero (by omega)
      -- the counter of 16 bits has not wrapped
      have ht : (UInt16.ofNat t).toNat = t := by
        rw [UInt16.toNat_ofNat', Nat.mod_eq_of_lt (by omega)]
      have hnext : UInt16.ofNat t + 1 = UInt16.ofNat (t + 1) := (UInt16.ofNat_add t 1).symm
      rw [lcdDrawLineLoop, if_pos (by omega), step_lineAxis hx, step_lineAxis hy, hnext,
        ih (by omega) (by omega), List.range'_succ, List.map_cons]
      rfl

/-- The points that `LCD_DrawLine` draws. -/
def linePoints (x1 y1 x2 y2 : UInt16) : List Point :=
  (List.range (lineDistance x1 y1 x2 y2 + 2)).map
    (linePoint x1 y1 x2 y2 (lineDistance x1 y1 x2 y2))

/-- **`LCD_DrawLine` terminates**, where its counter can count the rounds. -/
theorem lcdDrawLine_points {x1 y1 x2 y2 : UInt16}
    (hD : lineDistance x1 y1 x2 y2 + 2 < 2 ^ 16) {fuel : Nat}
    (hfuel : lineDistance x1 y1 x2 y2 + 2 < fuel) :
    lcdDrawLine fuel x1 y1 x2 y2 = some (linePoints x1 y1 x2 y2) := by
  have hdistance : (if lineDelta ((y2.toNat : Int) - y1.toNat)
        < lineDelta ((x2.toNat : Int) - x1.toNat) then lineDelta ((x2.toNat : Int) - x1.toNat)
      else lineDelta ((y2.toNat : Int) - y1.toNat)) = lineDistance x1 y1 x2 y2 := by
    rw [lineDelta_eq_natAbs, lineDelta_eq_natAbs, lineDistance]
    split <;> omega
  have hstart : ∀ a b : UInt16, (⟨0, a.toNat⟩ : LineAxis)
      = lineAxis a b (lineDistance x1 y1 x2 y2) 0 := by
    intro a b
    simp [lineAxis, lineCoord]
  have hloop := lcdDrawLineLoop_points (le_lineDistance_x x1 y1 x2 y2)
    (le_lineDistance_y x1 y1 x2 y2) hD
    (show 0 + (lineDistance x1 y1 x2 y2 + 2) = lineDistance x1 y1 x2 y2 + 2 from
      Nat.zero_add _) hfuel
  rw [← List.range_eq_range'] at hloop
  rw [lcdDrawLine]
  simp only [hdistance]
  rw [lineDelta_eq_natAbs, lineDelta_eq_natAbs, hstart x1 x2, hstart y1 y2]
  exact hloop

/-! ### The line is drawn -/

/-- The ends are on the first and on the last place. -/
theorem linePoints_ends (x1 y1 x2 y2 : UInt16) :
    (linePoints x1 y1 x2 y2).head? = some ⟨x1, y1⟩
      ∧ (linePoints x1 y1 x2 y2).getLast? = some ⟨x2, y2⟩ := by
  have hx := le_lineDistance_x x1 y1 x2 y2
  have hy := le_lineDistance_y x1 y1 x2 y2
  constructor
  · rw [linePoints, List.range_succ_eq_map, List.map_cons, List.head?_cons, linePoint,
      lineAt_zero hx, lineAt_zero hy]
  · rw [linePoints, List.range_succ, List.map_append, List.map_singleton,
      List.getLast?_concat, linePoint, lineAt_last hx, lineAt_last hy]

/-- The rounds behind the first one draw different points, and the first one draws the point of
the second. -/
theorem linePoints_card (x1 y1 x2 y2 : UInt16) :
    (linePoints x1 y1 x2 y2).toFinset.card = lineDistance x1 y1 x2 y2 + 1 := by
  have hx := le_lineDistance_x x1 y1 x2 y2
  have hy := le_lineDistance_y x1 y1 x2 y2
  have hD : lineDistance x1 y1 x2 y2 = max ((x2.toNat : Int) - x1.toNat).natAbs
    ((y2.toNat : Int) - y1.toNat).natAbs := rfl
  rw [linePoints]
  generalize lineDistance x1 y1 x2 y2 = D at hD hx hy
  have hfirst : linePoint x1 y1 x2 y2 D 0 = linePoint x1 y1 x2 y2 D 1 := by
    rw [linePoint, linePoint, lineAt_zero hx, lineAt_zero hy, lineAt_one hx, lineAt_one hy]
  have himage : ((List.range (D + 2)).map (linePoint x1 y1 x2 y2 D)).toFinset
      = (Finset.range (D + 1)).image fun t => linePoint x1 y1 x2 y2 D (t + 1) := by
    ext p
    simp only [List.mem_toFinset, List.mem_map, List.mem_range,
      Finset.mem_image, Finset.mem_range]
    constructor
    · rintro ⟨t, ht, rfl⟩
      cases t with
      | zero => exact ⟨0, Nat.succ_pos D, hfirst.symm⟩
      | succ t => exact ⟨t, by omega, rfl⟩
    · rintro ⟨t, ht, rfl⟩
      exact ⟨t + 1, by omega, rfl⟩
  rw [himage, Finset.card_image_of_injOn, Finset.card_range]
  intro t ht u hu heq
  have ht' : t ≤ D := Nat.le_of_lt_succ (Finset.mem_range.mp ht)
  have hu' : u ≤ D := Nat.le_of_lt_succ (Finset.mem_range.mp hu)
  -- the longer axis tells the points apart
  rcases Nat.le_total ((y2.toNat : Int) - y1.toNat).natAbs ((x2.toNat : Int) - x1.toNat).natAbs
    with hle | hle
  · exact lineAt_injective (by omega) ht' hu' (congrArg Point.x heq)
  · exact lineAt_injective (by omega) ht' hu' (congrArg Point.y heq)

/-- **`LCD_DrawLine` draws the line** between any two points of a panel whose sides are below
32768. -/
theorem lcdDrawLine_drawn (lcddev : LcdDev) (hwidth : lcddev.width.toNat < 32768)
    (hheight : lcddev.height.toNat < 32768) {x1 y1 x2 y2 : UInt16} (hx1 : x1 < lcddev.width)
    (hy1 : y1 < lcddev.height) (hx2 : x2 < lcddev.width) (hy2 : y2 < lcddev.height) :
    ∃ points, LineDrawn x1 y1 x2 y2 points
      ∧ ∀ fuel, lineDistance x1 y1 x2 y2 + 2 < fuel →
          lcdDrawLine fuel x1 y1 x2 y2 = some points := by
  rw [UInt16.lt_iff_toNat_lt] at hx1 hy1 hx2 hy2
  have hx := le_lineDistance_x x1 y1 x2 y2
  have hy := le_lineDistance_y x1 y1 x2 y2
  have hD : lineDistance x1 y1 x2 y2 + 2 < 2 ^ 16 := by
    rw [lineDistance]
    omega
  have hround : ∀ p ∈ linePoints x1 y1 x2 y2, ∃ t ≤ lineDistance x1 y1 x2 y2 + 1,
      linePoint x1 y1 x2 y2 (lineDistance x1 y1 x2 y2) t = p := by
    intro p hp
    obtain ⟨t, ht, rfl⟩ := List.mem_map.mp hp
    exact ⟨t, Nat.le_of_lt_succ (List.mem_range.mp ht), rfl⟩
  refine ⟨linePoints x1 y1 x2 y2, ?_, fun fuel hfuel => lcdDrawLine_points hD hfuel⟩
  exact {
    first := (linePoints_ends x1 y1 x2 y2).1
    last := (linePoints_ends x1 y1 x2 y2).2
    neighbours := by
      rw [linePoints, List.isChain_map, List.isChain_range_succ]
      intro t ht
      exact ⟨lineAt_succ_near hx ht, lineAt_succ_near hy ht⟩
    monotone := by
      rw [linePoints, List.isChain_map, List.isChain_range_succ]
      intro t ht
      exact ⟨lineAt_succ_toward hx ht, lineAt_succ_toward hy ht⟩
    box := by
      intro p hp
      obtain ⟨t, ht, rfl⟩ := hround p hp
      exact ⟨lineAt_between hx ht, lineAt_between hy ht⟩
    distinct := linePoints_card x1 y1 x2 y2
    close := by
      intro p hp
      obtain ⟨t, ht, rfl⟩ := hround p hp
      constructor
      · intro hle
        have hmajor := (Nat.max_eq_left hle).symm
        exact lineAt_closeTo hmajor hy ht
      · intro hle
        have hmajor := (Nat.max_eq_right hle).symm
        exact lineAt_closeTo hmajor hx ht }

/-- A line down to the left on the panel of the board. -/
theorem lcdDrawLine_drawn_down :
    ∃ points, LineDrawn 20 10 13 40 points
      ∧ ∀ fuel, lineDistance 20 10 13 40 + 2 < fuel →
          lcdDrawLine fuel 20 10 13 40 = some points :=
  lcdDrawLine_drawn ⟨240, 320⟩ (by decide) (by decide) (by decide) (by decide) (by decide)
    (by decide)

end CarLocator.Lcd
