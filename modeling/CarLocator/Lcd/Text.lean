import CarLocator.Lcd.Draw
import Mathlib.Data.List.TakeWhile
import Mathlib.Tactic.Linarith
import Mathlib.Tactic.Ring

/-!
# `CarLocator.Lcd.Text`: where `LCD_ShowString` puts the characters

A region `width` pixels wide has `c = ceil(width / (size / 2))` characters in a line, so
character `k` belongs in column `k % c` of line `k / c`, as far down as the lines start within
the region. `stringCells` is this layout.

The loop is followed by line and column (`showStringLoop_cells`): behind the last column it
goes on in the next line, at the left margin it has saved in `x0`. The margin is saved in 8
bits. Where a second line starts in a region from column 256 on, it starts somewhere else
(`showStringLoop_wrapped`), and this is the only thing that goes wrong
(`lcdShowString_layout_iff`).
-/

set_option autoImplicit false

namespace CarLocator.Lcd

open CarLocator.Library

/-! ### The layout -/

/-- A character that `LCD_ShowString` shows. -/
def IsPrintable (b : UInt8) : Prop := b ≤ 126 ∧ 32 ≤ b

instance (b : UInt8) : Decidable (IsPrintable b) :=
  inferInstanceAs (Decidable (b ≤ 126 ∧ 32 ≤ b))

/-- How many characters a line has. -/
def lineCells (width : UInt16) (size : UInt8) : Nat :=
  (width.toNat + (size.toNat / 2 - 1)) / (size.toNat / 2)

/-- Character `k` of the text, in its place. -/
def stringCell (x y width : UInt16) (size : UInt8) (b : UInt8) (k : Nat) : CharCall where
  x := UInt16.ofNat (x.toNat + k % lineCells width size * (size.toNat / 2))
  y := UInt16.ofNat (y.toNat + k / lineCells width size * size.toNat)
  num := b
  size := size
  mode := 0

/-- The characters from number `k` on, as far as their lines start within the region. -/
def stringCells (x y width height : UInt16) (size : UInt8) (text : Bytes) (k : Nat) :
    List CharCall :=
  ((text.zipIdx k).takeWhile fun c =>
      y.toNat + c.2 / lineCells width size * size.toNat < y.toNat + height.toNat).map
    fun c => stringCell x y width size c.1 c.2

/-- One more character in front. -/
theorem stringCells_cons (x y width height : UInt16) (size : UInt8) (b : UInt8) (text : Bytes)
    (k : Nat) :
    stringCells x y width height size (b :: text) k
      = if k / lineCells width size * size.toNat < height.toNat then
          stringCell x y width size b k :: stringCells x y width height size text (k + 1)
        else [] := by
  rw [stringCells, List.zipIdx_cons]
  by_cases h : k / lineCells width size * size.toNat < height.toNat
  · rw [if_pos h, List.takeWhile_cons_of_pos (by simpa using h), List.map_cons]
    rfl
  · rw [if_neg h, List.takeWhile_cons_of_neg (by simpa using h)]
    rfl

/-- The region is on a panel of up to 800 by 800 pixels. -/
structure OnPanel (lcddev : LcdDev) (x y width height : UInt16) : Prop where
  width_le : lcddev.width.toNat ≤ 800
  height_le : lcddev.height.toNat ≤ 800
  right_le : x.toNat + width.toNat ≤ lcddev.width.toNat
  bottom_le : y.toNat + height.toNat ≤ lcddev.height.toNat

/-! ### The loop -/

/-- The place of column `col` in line `row`. -/
def cellX (x : UInt16) (size : UInt8) (col : Nat) : UInt16 :=
  UInt16.ofNat (x.toNat + col * (size.toNat / 2))

/-- The place of column `col` in line `row`. -/
def cellY (y : UInt16) (size : UInt8) (row : Nat) : UInt16 :=
  UInt16.ofNat (y.toNat + row * size.toNat)

/-- The first column. -/
theorem cellX_zero (x : UInt16) (size : UInt8) : cellX x size 0 = x := by
  rw [cellX, Nat.zero_mul, Nat.add_zero, UInt16.ofNat_toNat]

/-- The next column. -/
theorem cellX_succ (x : UInt16) (size : UInt8) (col : Nat) :
    cellX x size col + (size / 2).toUInt16 = cellX x size (col + 1) := by
  rw [cellX, cellX, half_toUInt16, ← UInt16.ofNat_add, Nat.add_mul, Nat.one_mul, Nat.add_assoc]

/-- The first line. -/
theorem cellY_zero (y : UInt16) (size : UInt8) : cellY y size 0 = y := by
  rw [cellY, Nat.zero_mul, Nat.add_zero, UInt16.ofNat_toNat]

/-- The next line. -/
theorem cellY_succ (y : UInt16) (size : UInt8) (row : Nat) :
    cellY y size row + size.toUInt16 = cellY y size (row + 1) := by
  rw [cellY, cellY, ← UInt16.ofNat_uInt8ToNat, ← UInt16.ofNat_add, Nat.add_mul, Nat.one_mul, Nat.add_assoc]

section Region

variable {lcddev : LcdDev} {x y width height : UInt16} {size : UInt8}
  (hsize : size = 12 ∨ size = 16 ∨ size = 24) (hpanel : OnPanel lcddev x y width height)
include hsize

variable (width) in
/-- A line is full when its columns reach the width. -/
theorem full_iff (col : Nat) :
    width.toNat ≤ col * (size.toNat / 2) ↔ lineCells width size ≤ col := by
  rw [lineCells]
  rcases hsize with rfl | rfl | rfl
  · show width.toNat ≤ col * 6 ↔ (width.toNat + 5) / 6 ≤ col
    omega
  · show width.toNat ≤ col * 8 ↔ (width.toNat + 7) / 8 ≤ col
    omega
  · show width.toNat ≤ col * 12 ↔ (width.toNat + 11) / 12 ≤ col
    omega

include hpanel

/-- The test for the end of the line. -/
theorem width_le_cellX_iff {col : Nat} (hcol : col ≤ lineCells width size) :
    width + x ≤ cellX x size col ↔ col = lineCells width size := by
  have hwidth := hpanel.width_le
  have hright := hpanel.right_le
  have hsum : (width + x).toNat = width.toNat + x.toNat := by
    rw [UInt16.toNat_add, Nat.mod_eq_of_lt (by omega)]
  -- the last column starts within the region
  have hlast : col * (size.toNat / 2) < width.toNat + 12 := by
    have hbefore := full_iff width hsize (col - 1)
    rcases Nat.eq_zero_or_pos col with rfl | hpos
    · omega
    · have hstep : col * (size.toNat / 2) = (col - 1) * (size.toNat / 2) + size.toNat / 2 := by
        rw [← Nat.succ_mul, Nat.succ_eq_add_one, Nat.sub_add_cancel hpos]
      have hhalf : size.toNat / 2 ≤ 12 := by rcases hsize with rfl | rfl | rfl <;> decide
      omega
  have hcell : (cellX x size col).toNat = x.toNat + col * (size.toNat / 2) := by
    rw [cellX, UInt16.toNat_ofNat', Nat.mod_eq_of_lt (by omega)]
  rw [UInt16.le_iff_toNat_le, hsum, hcell]
  have hfull := full_iff width hsize col
  omega

/-- The test for the end of the region. -/
theorem height_le_cellY_iff {row : Nat} (hrow : row * size.toNat ≤ height.toNat + size.toNat) :
    height + y ≤ cellY y size row ↔ height.toNat ≤ row * size.toNat := by
  have hheight := hpanel.height_le
  have hbottom := hpanel.bottom_le
  have hle : size.toNat ≤ 24 := by rcases hsize with rfl | rfl | rfl <;> decide
  have hsum : (height + y).toNat = height.toNat + y.toNat := by
    rw [UInt16.toNat_add, Nat.mod_eq_of_lt (by omega)]
  have hcell : (cellY y size row).toNat = y.toNat + row * size.toNat := by
    rw [cellY, UInt16.toNat_ofNat', Nat.mod_eq_of_lt (by omega)]
  rw [UInt16.le_iff_toNat_le, hsum, hcell]
  omega

/-- **The loop**, from column `col` of line `row` on, shows the layout. The left margin is not
needed, or it is right. -/
theorem showStringLoop_cells (hwidth : 0 < width.toNat) {x0 : UInt8} {stop : UInt8}
    (hstop : ¬ IsPrintable stop) (rest : Bytes) {text : Bytes}
    (htext : ∀ b ∈ text, IsPrintable b) {row col : Nat}
    (hcol : col ≤ lineCells width size) (hrow : row * size.toNat ≤ height.toNat)
    (hmargin : x0.toUInt16 = x ∨ row * lineCells width size + col + text.length
      ≤ lineCells width size ∨ height.toNat ≤ size.toNat) :
    showStringLoop x0 (width + x) (height + y) size (text ++ stop :: rest) (cellX x size col)
        (cellY y size row)
      = some (stringCells x y width height size text (row * lineCells width size + col)) := by
  have hcells : 0 < lineCells width size := by
    have := full_iff width hsize 0
    omega
  induction text generalizing row col with
  | nil =>
      have hstop' : ¬ (stop ≤ 126 ∧ 32 ≤ stop) := hstop
      rw [List.nil_append, showStringLoop, if_neg hstop']
      rfl
  | cons b text ih =>
      have hb : b ≤ 126 ∧ 32 ≤ b := htext b (by simp)
      have hrest : ∀ b ∈ text, IsPrintable b := fun b' hb' => htext b' (by simp [hb'])
      rw [List.length_cons] at hmargin
      rw [List.cons_append, showStringLoop, if_pos hb, stringCells_cons]
      by_cases hfull : col = lineCells width size
      · have hdiv : (row * lineCells width size + col) / lineCells width size = row + 1 := by
          rw [hfull, ← Nat.succ_mul, Nat.mul_div_cancel _ hcells]
        have hwrap := (width_le_cellX_iff hsize hpanel hcol).mpr hfull
        simp only [if_pos hwrap, cellY_succ, hdiv]
        have hnext : (row + 1) * size.toNat = row * size.toNat + size.toNat := Nat.succ_mul _ _
        by_cases hend : height.toNat ≤ (row + 1) * size.toNat
        · -- the next line is below the region
          rw [if_pos ((height_le_cellY_iff hsize hpanel (by omega)).mpr hend), if_neg (by omega)]
        · have hx0 : x0.toUInt16 = x := by
            rcases hmargin with h | h | h
            · exact h
            · omega
            · omega
          have hfirst : x + (size / 2).toUInt16 = cellX x size 1 := by
            have hnext := cellX_succ x size 0
            rw [cellX_zero] at hnext
            exact hnext
          have hmod : (row * lineCells width size + col) % lineCells width size = 0 := by
            rw [hfull, ← Nat.succ_mul, Nat.mul_mod_left]
          have hstart : row * lineCells width size + col + 1
              = (row + 1) * lineCells width size + 1 := by
            rw [hfull, Nat.succ_mul]
          have hloop := ih hrest (show 1 ≤ lineCells width size from hcells)
            (show (row + 1) * size.toNat ≤ height.toNat by omega) (Or.inl hx0)
          rw [← hstart] at hloop
          have hcell : stringCell x y width size b (row * lineCells width size + col)
              = ⟨x, cellY y size (row + 1), b, size, 0⟩ := by
            rw [stringCell, hdiv, hmod, Nat.zero_mul, Nat.add_zero, UInt16.ofNat_toNat, cellY]
          rw [if_neg (fun h => hend ((height_le_cellY_iff hsize hpanel (by omega)).mp h)),
            if_pos (by omega), hx0, hfirst, hloop, hcell]
          rfl
      · have hlt : col < lineCells width size := Nat.lt_of_le_of_ne hcol hfull
        have hdiv : (row * lineCells width size + col) / lineCells width size = row := by
          rw [Nat.mul_comm, Nat.mul_add_div hcells, Nat.div_eq_of_lt hlt, Nat.add_zero]
        have hmod : (row * lineCells width size + col) % lineCells width size = col := by
          rw [Nat.mul_comm, Nat.mul_add_mod, Nat.mod_eq_of_lt hlt]
        have hwrap := mt (width_le_cellX_iff hsize hpanel hcol).mp hfull
        simp only [if_neg hwrap, hdiv]
        by_cases hend : height.toNat ≤ row * size.toNat
        · rw [if_pos ((height_le_cellY_iff hsize hpanel (by omega)).mpr hend), if_neg (by omega)]
        · have hmargin' := hmargin.imp_right fun h => h.imp_left fun h =>
            show row * lineCells width size + (col + 1) + text.length ≤ lineCells width size by
              omega
          have hloop := ih hrest hlt hrow hmargin'
          have hcell : stringCell x y width size b (row * lineCells width size + col)
              = ⟨cellX x size col, cellY y size row, b, size, 0⟩ := by
            rw [stringCell, hdiv, hmod, cellX, cellY]
          rw [if_neg (fun h => hend ((height_le_cellY_iff hsize hpanel (by omega)).mp h)),
            if_pos (by omega), cellX_succ, hloop, hcell]
          rfl

/-- A second line starts at the margin that was saved. -/
theorem showStringLoop_wrapped {x0 : UInt8} {p : Bytes} {text : Bytes}
    (htext : ∀ b ∈ text, IsPrintable b) {col : Nat} (hcol : col ≤ lineCells width size)
    (hlong : lineCells width size < col + text.length) (hheight : size.toNat < height.toNat)
    {cells : List CharCall}
    (h : showStringLoop x0 (width + x) (height + y) size (text ++ p) (cellX x size col) y
      = some cells) :
    ∃ c ∈ cells, c.x = x0.toUInt16 := by
  induction text generalizing col cells with
  | nil =>
      rw [List.length_nil] at hlong
      omega
  | cons b text ih =>
      have hb : b ≤ 126 ∧ 32 ≤ b := htext b (by simp)
      have hrest : ∀ b ∈ text, IsPrintable b := fun b' hb' => htext b' (by simp [hb'])
      rw [List.length_cons] at hlong
      rw [List.cons_append, showStringLoop, if_pos hb] at h
      by_cases hfull : col = lineCells width size
      · have hwrap := (width_le_cellX_iff hsize hpanel hcol).mpr hfull
        have hdown := height_le_cellY_iff hsize hpanel
          (show 1 * size.toNat ≤ height.toNat + size.toNat by omega)
        have hline := cellY_succ y size 0
        rw [cellY_zero] at hline
        simp only [if_pos hwrap, hline] at h
        rw [if_neg (fun hend => absurd (hdown.mp hend) (by omega))] at h
        obtain ⟨rest, -, hcells⟩ := Option.bind_eq_some_iff.mp h
        rw [Option.pure_def, Option.some.injEq] at hcells
        subst hcells
        exact ⟨_, List.mem_cons_self, rfl⟩
      · have hlt : col < lineCells width size := Nat.lt_of_le_of_ne hcol hfull
        have hwrap := mt (width_le_cellX_iff hsize hpanel hcol).mp hfull
        have hdown := height_le_cellY_iff hsize hpanel
          (show 0 * size.toNat ≤ height.toNat + size.toNat by omega)
        rw [cellY_zero] at hdown
        simp only [if_neg hwrap] at h
        rw [if_neg (fun hend => absurd (hdown.mp hend) (by omega)), cellX_succ] at h
        obtain ⟨rest, hloop, hcells⟩ := Option.bind_eq_some_iff.mp h
        rw [Option.pure_def, Option.some.injEq] at hcells
        subst hcells
        obtain ⟨c, hc, hx⟩ := ih hrest hlt (by omega) hloop
        exact ⟨c, List.mem_cons_of_mem _ hc, hx⟩

/-- No character of the layout is left of the region. -/
theorem le_x_of_mem_stringCells (hwidth : 0 < width.toNat) {text : Bytes} {c : CharCall}
    (hc : c ∈ stringCells x y width height size text 0) : x.toNat ≤ c.x.toNat := by
  obtain ⟨⟨b, k⟩, -, rfl⟩ := List.mem_map.mp hc
  have hpos : 0 < lineCells width size := by
    have := full_iff width hsize 0
    omega
  have hcol := full_iff width hsize (k % lineCells width size)
  have hlt := Nat.mod_lt k hpos
  have hwidth' := hpanel.width_le
  have hright := hpanel.right_le
  show x.toNat ≤ (UInt16.ofNat (x.toNat + k % lineCells width size * (size.toNat / 2))).toNat
  rw [UInt16.toNat_ofNat', Nat.mod_eq_of_lt (by omega)]
  omega

end Region

/-- When the text is laid out in its region: there is nothing to show, or the left margin fits
into 8 bits, or no second line is begun. -/
def KeepsMargin (x width height : UInt16) (size : UInt8) (text : Bytes) : Prop :=
  text = [] ∨ height = 0 ∨ 0 < width
    ∧ (x < 256 ∨ text.length ≤ lineCells width size ∨ height.toNat ≤ size.toNat)

section Region

variable {lcddev : LcdDev} {x y width height : UInt16} {size : UInt8}
  (hsize : size = 12 ∨ size = 16 ∨ size = 24) (hpanel : OnPanel lcddev x y width height)
  {text : Bytes} (htext : ∀ b ∈ text, IsPrintable b) {stop : UInt8}
include hsize hpanel htext

/-- A region without a line shows nothing. -/
theorem showStringLoop_empty (hheight : height = 0) (hstop : ¬ IsPrintable stop) (rest : Bytes)
    (x0 : UInt8) :
    showStringLoop x0 (width + x) (height + y) size (text ++ stop :: rest) x y = some [] := by
  have hdown : ∀ row, row ≤ 1 → height + y ≤ cellY y size row := by
    intro row hrow
    have hle : row * size.toNat ≤ 1 * size.toNat := Nat.mul_le_mul_right _ hrow
    refine (height_le_cellY_iff hsize hpanel (by omega)).mpr ?_
    rw [hheight]
    exact Nat.zero_le _
  cases text with
  | nil =>
      have hstop' : ¬ (stop ≤ 126 ∧ 32 ≤ stop) := hstop
      rw [List.nil_append, showStringLoop, if_neg hstop']
  | cons b text =>
      have hb : b ≤ 126 ∧ 32 ≤ b := htext b (by simp)
      have hsame := hdown 0 (Nat.zero_le 1)
      have hnext := hdown 1 (Nat.le_refl 1)
      rw [cellY_zero] at hsame
      rw [← cellY_succ, cellY_zero] at hnext
      rw [List.cons_append, showStringLoop, if_pos hb]
      by_cases hwrap : width + x ≤ x
      · simp only [if_pos hwrap, if_pos hnext]
      · simp only [if_neg hwrap, if_pos hsame]

/-- **The layout**, where the margin is kept. -/
theorem lcdShowString_layout (hstop : ¬ IsPrintable stop) (rest : Bytes)
    (hkeeps : KeepsMargin x width height size text) :
    lcdShowString x y width height size (text ++ stop :: rest)
      = some (stringCells x y width height size text 0) := by
  rcases hkeeps with rfl | hheight | ⟨hwidth, hmargin⟩
  · have hstop' : ¬ (stop ≤ 126 ∧ 32 ≤ stop) := hstop
    rw [lcdShowString, List.nil_append, showStringLoop, if_neg hstop']
    rfl
  · rw [lcdShowString, showStringLoop_empty hsize hpanel htext hheight hstop rest]
    cases text with
    | nil => rfl
    | cons b text =>
        have hnone : ¬ 0 / lineCells width size * size.toNat < height.toNat := by
          rw [hheight]
          exact Nat.not_lt_zero _
        rw [stringCells_cons, if_neg hnone]
  · have hmargin' : x.toUInt8.toUInt16 = x ∨ 0 * lineCells width size + 0 + text.length
        ≤ lineCells width size ∨ height.toNat ≤ size.toNat := by
      rw [Nat.zero_mul, Nat.add_zero, Nat.zero_add]
      refine hmargin.imp_left fun hx => ?_
      have hlt : x.toNat < 256 := UInt16.lt_iff_toNat_lt.mp hx
      apply UInt16.toNat_inj.mp
      rw [UInt8.toNat_toUInt16, UInt16.toNat_toUInt8, Nat.mod_eq_of_lt (by omega)]
    have hloop := showStringLoop_cells hsize hpanel (UInt16.lt_iff_toNat_lt.mp hwidth) hstop rest
      htext (Nat.zero_le _) (show 0 * size.toNat ≤ height.toNat by omega) hmargin'
    rw [cellX_zero, cellY_zero, Nat.zero_mul] at hloop
    exact hloop

/-- **In a second line** the text is somewhere else when the margin does not fit. -/
theorem lcdShowString_astray (hwidth : 0 < width.toNat) (hx : 256 ≤ x.toNat)
    (hlong : lineCells width size < text.length) (hheight : size.toNat < height.toNat)
    (p : Bytes) :
    lcdShowString x y width height size (text ++ p)
      ≠ some (stringCells x y width height size text 0) := by
  intro h
  have hloop : showStringLoop x.toUInt8 (width + x) (height + y) size (text ++ p)
      (cellX x size 0) y = some (stringCells x y width height size text 0) := by
    rw [cellX_zero]
    exact h
  obtain ⟨c, hc, hcx⟩ := showStringLoop_wrapped hsize hpanel htext (Nat.zero_le _)
    (by rw [Nat.zero_add]; exact hlong) hheight hloop
  have hright := le_x_of_mem_stringCells hsize hpanel hwidth hc
  have hleft : c.x.toNat < 256 := by
    rw [hcx, UInt8.toNat_toUInt16]
    exact x.toUInt8.toNat_lt
  omega

omit hpanel in
/-- **A line without columns** is left before its first character. -/
theorem lcdShowString_noColumns (hwidth : width = 0) (hne : text ≠ [])
    (hheight : 0 < height.toNat) (p : Bytes) :
    lcdShowString x y width height size (text ++ p)
      ≠ some (stringCells x y width height size text 0) := by
  obtain ⟨b, text, rfl⟩ := List.exists_cons_of_ne_nil hne
  have hb : b ≤ 126 ∧ 32 ≤ b := htext b (by simp)
  have hwrap : width + x ≤ x := by
    rw [hwidth, UInt16.zero_add]
    exact UInt16.le_refl x
  have hfirst : stringCells x y width height size (b :: text) 0
      = stringCell x y width size b 0 :: stringCells x y width height size text 1 := by
    rw [stringCells_cons, if_pos (by rw [Nat.zero_div, Nat.zero_mul]; exact hheight)]
  have hy : (stringCell x y width size b 0).y = y := by
    rw [stringCell, Nat.zero_div, Nat.zero_mul, Nat.add_zero, UInt16.ofNat_toNat]
  rw [lcdShowString, List.cons_append, showStringLoop, if_pos hb, hfirst]
  simp only [if_pos hwrap]
  intro h
  split at h
  · cases h
  · obtain ⟨rest, -, hcells⟩ := Option.bind_eq_some_iff.mp h
    rw [Option.pure_def, Option.some.injEq, List.cons.injEq] at hcells
    have hline : y + size.toUInt16 = y := (congrArg CharCall.y hcells.1).trans hy
    have hzero : size.toUInt16 = 0 := by simpa using hline
    rcases hsize with rfl | rfl | rfl <;> cases hzero

end Region

/-- **`LCD_ShowString` lays its text out** exactly where it keeps the margin. -/
theorem lcdShowString_layout_iff {lcddev : LcdDev} {x y width height : UInt16} {size : UInt8}
    (hsize : size = 12 ∨ size = 16 ∨ size = 24) (hpanel : OnPanel lcddev x y width height)
    {text : Bytes} (htext : ∀ b ∈ text, IsPrintable b) {stop : UInt8}
    (hstop : ¬ IsPrintable stop) (rest : Bytes) :
    lcdShowString x y width height size (text ++ stop :: rest)
        = some (stringCells x y width height size text 0)
      ↔ KeepsMargin x width height size text := by
  constructor
  · intro h
    by_contra hkeeps
    simp only [KeepsMargin, not_or, not_and_or] at hkeeps
    obtain ⟨hne, hheight, hrest⟩ := hkeeps
    have hpos : 0 < height.toNat := Nat.pos_of_ne_zero fun hzero =>
      hheight (UInt16.toNat_inj.mp hzero)
    rcases hrest with hwidth | ⟨hx, hlong, hlow⟩
    · have hzero : width = 0 := UInt16.toNat_inj.mp (by
        rw [UInt16.lt_iff_toNat_lt] at hwidth
        exact Nat.eq_zero_of_not_pos hwidth)
      exact lcdShowString_noColumns hsize htext hzero hne hpos _ h
    · by_cases hwidth : 0 < width.toNat
      · have hx' : ¬ x.toNat < 256 := fun hlt => hx (UInt16.lt_iff_toNat_lt.mpr hlt)
        exact lcdShowString_astray hsize hpanel htext hwidth (Nat.le_of_not_lt hx')
          (Nat.lt_of_not_le hlong) (Nat.lt_of_not_le hlow) _ h
      · have hzero : width = 0 := UInt16.toNat_inj.mp (Nat.eq_zero_of_not_pos hwidth)
        exact lcdShowString_noColumns hsize htext hzero hne hpos _ h
  · intro hkeeps
    exact lcdShowString_layout hsize hpanel htext hstop rest hkeeps

/-- The title of `main` in its region. -/
theorem lcdShowString_layout_iff_title :
    lcdShowString 80 20 100 16 16 (ascii "Car Locator" ++ 0 :: [])
        = some (stringCells 80 20 100 16 16 (ascii "Car Locator") 0)
      ↔ KeepsMargin 80 100 16 16 (ascii "Car Locator") :=
  lcdShowString_layout_iff (by decide)
    (show OnPanel ⟨240, 320⟩ 80 20 100 16 from ⟨by decide, by decide, by decide, by decide⟩)
    (by decide) (by decide) []

/-- The title in a region of two lines, on the right of a wide panel: the second line starts in
column 44. -/
theorem lcdShowString_rightHalf :
    ¬ ∀ (lcddev : LcdDev) (x y width height : UInt16) (size : UInt8) (text : Bytes)
        (stop : UInt8) (rest : Bytes), (size = 12 ∨ size = 16 ∨ size = 24) →
      OnPanel lcddev x y width height → (∀ b ∈ text, IsPrintable b) → ¬ IsPrintable stop →
      lcdShowString x y width height size (text ++ stop :: rest)
        = some (stringCells x y width height size text 0) := by
  intro h
  have hpanel : OnPanel ⟨800, 480⟩ 300 0 80 32 := ⟨by decide, by decide, by decide, by decide⟩
  have htext : ∀ b ∈ ascii "Car Locator", IsPrintable b := by decide
  have hlayout := h _ 300 0 80 32 16 (ascii "Car Locator") 0 [] (by decide) hpanel htext
    (by decide)
  exact lcdShowString_astray (by decide) hpanel htext (by decide) (by decide) (by decide)
    (by decide) _ hlayout

end CarLocator.Lcd
