import CarLocator.Lcd.Text
import CarLocator.Library.Overlay

/-!
# `CarLocator.Lcd.Screen`: the screen as a grid of characters

Every string of the program stands on one grid of cells of 8 by 16 pixels, so the screen is
described by the character that each cell shows last. `Screen.showString` is a call of
`LCD_ShowString` on it.

A field of one line is read back with `Screen.field`. What a string does to its own field is
`field_showCells`: it is written over what the field shows. Cells of another line keep what
they show (`showCells_other`).
-/

set_option autoImplicit false

namespace CarLocator.Lcd

open CarLocator.Library

/-! ### Characters and strings on the screen -/

/-- The character in the cell whose upper left corner is `(x, y)`. -/
def Screen := (x y : UInt16) → UInt8

/-- The screen behind `LCD_Clear`. -/
def Screen.clear : Screen := fun _ _ => 32

/-- A character drawn over what its cell shows. -/
def Screen.showChar (screen : Screen) (c : CharCall) : Screen := fun x y =>
  if x = c.x ∧ y = c.y then c.num else screen x y

/-- A call `LCD_ShowString(x,y,width,height,size,p)`. -/
structure StringCall where
  x : UInt16
  y : UInt16
  width : UInt16
  height : UInt16
  size : UInt8
  p : Bytes
  deriving DecidableEq, Repr

/-- `LCD_ShowString` on the screen. -/
def Screen.showString (screen : Screen) (c : StringCall) : Option Screen := do
  let cells ← lcdShowString c.x c.y c.width c.height c.size c.p
  pure (cells.foldl Screen.showChar screen)

/-- What is shown of a text: the characters in front of the first one that `LCD_ShowString`
does not show. -/
def lineOf (p : Bytes) : Bytes := p.takeWhile fun b => IsPrintable b

/-- The first `n` cells of a line of text that starts at `(x, y)`. -/
def Screen.field (screen : Screen) (x y : UInt16) (size : UInt8) (n : Nat) : Bytes :=
  (List.range n).map fun k => screen (cellX x size k) y

/-- It has as many characters. -/
theorem length_field (screen : Screen) (x y : UInt16) (size : UInt8) (n : Nat) :
    (screen.field x y size n).length = n := by
  rw [Screen.field, List.length_map, List.length_range]

/-- A text with a NUL ends at a character that is not shown. -/
theorem exists_lineOf_stop {p : Bytes} (h : (0 : UInt8) ∈ p) :
    ∃ stop rest, p = lineOf p ++ stop :: rest ∧ ¬ IsPrintable stop := by
  obtain ⟨stop, rest, hp, hstop⟩ := exists_takeWhile_append_cons
    (p := fun b => decide (IsPrintable b)) h (by decide)
  exact ⟨stop, rest, hp, of_decide_eq_false hstop⟩

/-- Every character of the line is shown. -/
theorem isPrintable_of_mem_lineOf {p : Bytes} : ∀ b ∈ lineOf p, IsPrintable b := by
  intro b hb
  simpa using List.mem_takeWhile_imp hb

/-! ### A field of one line -/

section Region

variable {lcddev : LcdDev} {x y width height : UInt16} {size : UInt8}
  (hsize : size = 12 ∨ size = 16 ∨ size = 24) (hpanel : OnPanel lcddev x y width height)
include hsize hpanel

/-- The cells of a line are different ones. -/
theorem cellX_inj {j k : Nat} (hj : j < lineCells width size) (hk : k < lineCells width size) :
    cellX x size j = cellX x size k ↔ j = k := by
  have hwidth := hpanel.width_le
  have hright := hpanel.right_le
  have hj' := full_iff width hsize j
  have hk' := full_iff width hsize k
  constructor
  · intro h
    have hnat := congrArg UInt16.toNat h
    rw [cellX, cellX, UInt16.toNat_ofNat', UInt16.toNat_ofNat', Nat.mod_eq_of_lt (by omega),
      Nat.mod_eq_of_lt (by omega)] at hnat
    have hpos : 0 < size.toNat / 2 := by rcases hsize with rfl | rfl | rfl <;> decide
    exact Nat.eq_of_mul_eq_mul_right hpos (Nat.add_left_cancel hnat)
  · exact fun h => h ▸ rfl

/-- A cell of the line, once a text has been shown from column `k` on. -/
theorem showCells_cell (hheight : height.toNat ≤ size.toNat) (hpos : 0 < height.toNat)
    (text : Bytes) (screen : Screen) {j k : Nat} (hj : j < lineCells width size) :
    (stringCells x y width height size text k).foldl Screen.showChar screen (cellX x size j) y
      = if k ≤ j then text.getD (j - k) (screen (cellX x size j) y)
        else screen (cellX x size j) y := by
  induction text generalizing k screen with
  | nil =>
      rw [List.getD_nil, ite_self]
      rfl
  | cons b text ih =>
      rw [stringCells_cons]
      by_cases hk : k < lineCells width size
      · have hdiv : k / lineCells width size = 0 := Nat.div_eq_of_lt hk
        have hcell : stringCell x y width size b k = ⟨cellX x size k, y, b, size, 0⟩ := by
          rw [stringCell, hdiv, Nat.mod_eq_of_lt hk, Nat.zero_mul, Nat.add_zero,
            UInt16.ofNat_toNat, cellX]
        rw [hdiv, Nat.zero_mul, if_pos hpos, List.foldl_cons, ih, hcell]
        rcases Nat.lt_trichotomy j k with hlt | rfl | hgt
        · have hne : ¬ (cellX x size j = cellX x size k ∧ y = y) := fun h =>
            absurd ((cellX_inj hsize hpanel hj hk).mp h.1) (by omega)
          rw [if_neg (by omega), if_neg (by omega), Screen.showChar, if_neg hne]
        · rw [if_neg (by omega), if_pos (Nat.le_refl j), Nat.sub_self, Screen.showChar,
            if_pos ⟨rfl, rfl⟩]
          rfl
        · have hne : ¬ (cellX x size j = cellX x size k ∧ y = y) := fun h =>
            absurd ((cellX_inj hsize hpanel hj hk).mp h.1) (by omega)
          rw [if_pos (by omega), if_pos (by omega), Screen.showChar, if_neg hne,
            show j - k = (j - (k + 1)) + 1 by omega, List.getD_cons_succ]
      · -- the line is full
        have hone : 1 ≤ k / lineCells width size :=
          (Nat.one_le_div_iff (by omega)).mpr (by omega)
        have hle : 1 * size.toNat ≤ k / lineCells width size * size.toNat :=
          Nat.mul_le_mul_right _ hone
        rw [if_neg (by omega), if_neg (by omega)]
        rfl

/-- **A text that is shown in its field** is written over it. -/
theorem field_showCells (hheight : height.toNat ≤ size.toNat) (hpos : 0 < height.toNat)
    (text : Bytes) (screen : Screen) :
    Screen.field ((stringCells x y width height size text 0).foldl Screen.showChar screen) x y
        size (lineCells width size)
      = overlay text (screen.field x y size (lineCells width size)) := by
  refine List.ext_getElem (by rw [length_overlay, length_field, length_field]) fun j hj _ => ?_
  rw [length_field] at hj
  have hcell := showCells_cell hsize hpanel hheight hpos text screen hj (k := 0)
  rw [if_pos (Nat.zero_le j), Nat.sub_zero] at hcell
  rw [getElem_overlay text _ (by rwa [length_field])]
  simp only [Screen.field, List.getElem_map, List.getElem_range]
  exact hcell

end Region

/-- The cells of a field of one line are in this line. -/
theorem y_of_mem_stringCells {x y width height : UInt16} {size : UInt8}
    (hheight : height.toNat ≤ size.toNat) {text : Bytes} {c : CharCall}
    (hc : c ∈ stringCells x y width height size text 0) : c.y = y := by
  obtain ⟨⟨b, k⟩, hmem, rfl⟩ := List.mem_map.mp hc
  have hline := List.mem_takeWhile_imp hmem
  simp only [decide_eq_true_eq] at hline
  have hzero : k / lineCells width size = 0 := by
    by_contra hne
    have hle : 1 * size.toNat ≤ k / lineCells width size * size.toNat :=
      Nat.mul_le_mul_right _ (Nat.one_le_iff_ne_zero.mpr hne)
    omega
  show UInt16.ofNat (y.toNat + k / lineCells width size * size.toNat) = y
  rw [hzero, Nat.zero_mul, Nat.add_zero, UInt16.ofNat_toNat]

/-- Cells of another line keep what they show. -/
theorem showCells_other {cells : List CharCall} {y : UInt16} (h : ∀ c ∈ cells, c.y ≠ y)
    (screen : Screen) (x : UInt16) :
    cells.foldl Screen.showChar screen x y = screen x y := by
  induction cells generalizing screen with
  | nil => rfl
  | cons c cells ih =>
      have hne : ¬ (x = c.x ∧ y = c.y) := fun hat => h c List.mem_cons_self hat.2.symm
      rw [List.foldl_cons, ih (fun c' hc' => h c' (List.mem_cons_of_mem _ hc')),
        Screen.showChar, if_neg hne]

end CarLocator.Lcd
