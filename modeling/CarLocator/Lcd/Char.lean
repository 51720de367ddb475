import CarLocator.Lcd.Draw
import CarLocator.Library.Grid
import Mathlib.Data.Nat.Bitwise

/-!
# `CarLocator.Lcd.Char`: which pixels `LCD_ShowChar` paints

The font data of a character goes down its columns, one after the other. A column of 12 or 16
pixels takes two bytes and one of 24 pixels three, so the last byte of a column may be used in
part. `showCharBits_eq` says what the inner loop does with one byte: it paints down to the end
of the byte or of the column, and the next byte starts below or at the next column. Byte by
byte (`showCharBytes_eq`) this is the cell gone through column by column
(`CarLocator.Library.Grid`), and every pixel is painted once.

The `return` at the end of the panel stands before the step to the next column. A cell that
ends at the last row of the panel is left behind its first column
(`showCharBytes_bottom`), and one that ends at the last column is complete.
-/

set_option autoImplicit false

namespace CarLocator.Lcd

open CarLocator.Library

/-! ### What is asked of a character -/

/-- Byte `t` of the font data of a character. -/
def glyphByte (font : Font) (size num : UInt8) (t : Nat) : UInt8 :=
  ((fontByte font size (num - 32) (UInt8.ofNat t)).join).getD 0

/-- How many bytes a column takes. -/
def columnBytes (size : UInt8) : Nat := (size.toNat + 7) / 8

/-- The bit of row `j` in column `i`. -/
def glyphBit (font : Font) (size num : UInt8) (i j : Nat) : Bool :=
  (glyphByte font size num (i * columnBytes size + j / 8)).toNat.testBit (7 - j % 8)

/-- The color of a bit. -/
def penColor (pen : Pen) (bit : Bool) : UInt16 := if bit then pen.pointColor else pen.backColor

/-- The pixels are the cell of the character at `(x,y)`, each once. -/
structure CellPainted (font : Font) (pen : Pen) (x y : UInt16) (num size : UInt8)
    (pixels : List Pixel) : Prop where
  once : ∀ i < size.toNat / 2, ∀ j < size.toNat,
    (pixels.filter fun p => p.x.toNat = x.toNat + i ∧ p.y.toNat = y.toNat + j).map Pixel.color
      = [penColor pen (glyphBit font size num i j)]
  inside : ∀ p ∈ pixels, (x.toNat ≤ p.x.toNat ∧ p.x.toNat < x.toNat + size.toNat / 2)
    ∧ y.toNat ≤ p.y.toNat ∧ p.y.toNat < y.toNat + size.toNat

/-! ### One byte -/

/-- The bit that the inner loop tests. -/
theorem and_top_ne_zero_iff (temp : UInt8) :
    temp &&& 0x80 ≠ 0 ↔ temp.toNat.testBit 7 = true := by
  have hand : (temp &&& 0x80).toNat = (temp.toNat.testBit 7).toNat * 2 ^ 7 := by
    rw [UInt8.toNat_and]
    exact Nat.and_two_pow temp.toNat 7
  rw [ne_eq, ← UInt8.toNat_inj, hand]
  cases temp.toNat.testBit 7 <;> decide

/-- The bits move up. -/
theorem testBit_shiftLeft_one (temp : UInt8) {k : Nat} (hk : k < 7) :
    (temp <<< 1).toNat.testBit (7 - k) = temp.toNat.testBit (7 - (k + 1)) := by
  have hshift : (temp <<< 1).toNat = (temp.toNat <<< 1) % 2 ^ 8 := UInt8.toNat_shiftLeft temp 1
  rw [hshift, Nat.testBit_mod_two_pow, Nat.testBit_shiftLeft]
  have hlt : 7 - k < 8 := by omega
  have hle : 7 - k ≥ 1 := by omega
  have hsub : 7 - k - 1 = 7 - (k + 1) := by omega
  simp [hlt, hle, hsub]

/-- What one round of the inner loop paints. -/
theorem drawn_eq (pen : Pen) (temp : UInt8) (x y : UInt16) :
    (if temp &&& 0x80 ≠ 0 then [⟨x, y, pen.pointColor⟩]
      else if (0 : UInt8) = 0 then [⟨x, y, pen.backColor⟩] else [] : List Pixel)
      = [⟨x, y, penColor pen (temp.toNat.testBit 7)⟩] := by
  unfold penColor
  by_cases h : temp.toNat.testBit 7 = true
  · rw [if_pos ((and_top_ne_zero_iff temp).mpr h), if_pos h]
  · rw [if_neg (fun hne => h ((and_top_ne_zero_iff temp).mp hne)), if_neg h, if_pos rfl]

/-- Where the next byte starts when the rows above row `j` of the column are painted. -/
def cellNext (lcddev : LcdDev) (y : UInt16) (size : UInt8) (x : UInt16) (j : Nat) :
    Option (UInt16 × UInt16) :=
  if j < size.toNat then some (x, UInt16.ofNat (y.toNat + j))
  else if lcddev.height.toNat ≤ y.toNat + size.toNat ∨ lcddev.width ≤ x + 1 then none
  else some (x + 1, y)

/-- **The inner loop**, from row `j` of a column on: it paints down to the end of the byte or of
the column. -/
theorem showCharBits_eq {lcddev : LcdDev} {y : UInt16} {size : UInt8}
    (hbottom : y.toNat + size.toNat ≤ lcddev.height.toNat) (pen : Pen) (x : UInt16) {n : Nat}
    (hn : n ≤ 8) (temp : UInt8) {j : Nat} (hj : j < size.toNat) :
    showCharBits lcddev pen y size 0 n temp x (UInt16.ofNat (y.toNat + j))
      = ((List.range (min n (size.toNat - j))).map fun k =>
          ⟨x, UInt16.ofNat (y.toNat + (j + k)), penColor pen (temp.toNat.testBit (7 - k))⟩,
        cellNext lcddev y size x (j + n)) := by
  have hheight := lcddev.height.toNat_lt
  induction n generalizing temp j with
  | zero =>
      rw [showCharBits, Nat.zero_min, cellNext, Nat.add_zero, if_pos hj]
      rfl
  | succ n ih =>
      have hnext : UInt16.ofNat (y.toNat + j) + 1 = UInt16.ofNat (y.toNat + (j + 1)) := by
        rw [← Nat.add_assoc]
        exact (UInt16.ofNat_add _ 1).symm
      have htoNat : (UInt16.ofNat (y.toNat + (j + 1))).toNat = y.toNat + (j + 1) := by
        rw [UInt16.toNat_ofNat', Nat.mod_eq_of_lt (by omega)]
      rw [showCharBits, drawn_eq]
      simp only [hnext, UInt16.le_iff_toNat_le, htoNat]
      by_cases hend : j + 1 = size.toNat
      · -- the column is over
        have hrows : min (n + 1) (size.toNat - j) = 1 := by omega
        have hover : ¬ j + (n + 1) < size.toNat := by omega
        rw [hrows, cellNext, if_neg hover]
        by_cases hpanel : lcddev.height.toNat ≤ y.toNat + size.toNat
        · rw [if_pos (by omega), if_pos (Or.inl hpanel)]
          rfl
        · rw [if_neg (by omega), if_pos (by omega)]
          by_cases hright : lcddev.width ≤ x + 1
          · rw [if_pos (UInt16.le_iff_toNat_le.mp hright), if_pos (Or.inr hright)]
            rfl
          · rw [if_neg (fun h => hright (UInt16.le_iff_toNat_le.mpr h)),
              if_neg (not_or_intro hpanel hright)]
            rfl
      · -- and here it is not
        have hrows : min (n + 1) (size.toNat - j) = min n (size.toNat - (j + 1)) + 1 := by omega
        have hbits : ∀ k ∈ List.range (min n (size.toNat - (j + 1))),
            penColor pen ((temp <<< 1).toNat.testBit (7 - k))
              = penColor pen (temp.toNat.testBit (7 - (k + 1))) := by
          intro k hk
          have hlt := List.mem_range.mp hk
          rw [testBit_shiftLeft_one temp (by omega)]
        rw [if_neg (by omega), if_neg (by omega), ih (by omega) (temp <<< 1) (by omega), hrows,
          List.range_succ_eq_map, List.map_cons, List.map_map]
        have hpixels : ((List.range (min n (size.toNat - (j + 1)))).map fun k =>
              (⟨x, UInt16.ofNat (y.toNat + (j + 1 + k)),
                penColor pen ((temp <<< 1).toNat.testBit (7 - k))⟩ : Pixel))
            = (List.range (min n (size.toNat - (j + 1)))).map fun k =>
              ⟨x, UInt16.ofNat (y.toNat + (j + (k + 1))),
                penColor pen (temp.toNat.testBit (7 - (k + 1)))⟩ := by
          refine List.map_congr_left fun k hk => ?_
          rw [hbits k hk, show j + 1 + k = j + (k + 1) from by omega]
        rw [hpixels, show j + 1 + n = j + (n + 1) from by omega]
        rfl

/-! ### The bytes of a cell -/

/-- The sizes of the three fonts: a cell is half as wide as it is high, and its data are whole
bytes for each column. -/
theorem cell_sizes {size : UInt8} (hsize : size = 12 ∨ size = 16 ∨ size = 24) :
    (fontBytes size).toNat = size.toNat / 2 * columnBytes size
      ∧ size.toNat ≤ 8 * columnBytes size ∧ 8 * columnBytes size < size.toNat + 8
      ∧ 2 ≤ size.toNat / 2 ∧ size.toNat ≤ 24 := by
  rcases hsize with rfl | rfl | rfl <;> decide

/-- A printable character is in the tables of the three fonts. -/
theorem fontByte_glyphByte (font : Font) {size num : UInt8}
    (hsize : size = 12 ∨ size = 16 ∨ size = 24) (hnum : 32 ≤ num ∧ num ≤ 126) {t : Nat}
    (ht : t < (fontBytes size).toNat) :
    fontByte font size (num - 32) (UInt8.ofNat t) = some (some (glyphByte font size num t)) := by
  have hlow : 32 ≤ num.toNat := UInt8.le_iff_toNat_le.mp hnum.1
  have hhigh : num.toNat ≤ 126 := UInt8.le_iff_toNat_le.mp hnum.2
  have hrow : (num - 32).toNat < 95 := by
    rw [UInt8.toNat_sub_of_le num 32 hnum.1]
    show num.toNat - 32 < 95
    omega
  have hsome : ∃ b, fontByte font size (num - 32) (UInt8.ofNat t) = some (some b) := by
    rcases hsize with rfl | rfl | rfl
    · have hbyte : t % 256 < 12 := Nat.lt_of_le_of_lt (Nat.mod_le t 256) ht
      simp [fontByte, Vector.getElem?_eq_getElem hrow, Vector.getElem?_eq_getElem hbyte]
    · have hbyte : t % 256 < 16 := Nat.lt_of_le_of_lt (Nat.mod_le t 256) ht
      simp [fontByte, Vector.getElem?_eq_getElem hrow, Vector.getElem?_eq_getElem hbyte]
    · have hbyte : t % 256 < 36 := Nat.lt_of_le_of_lt (Nat.mod_le t 256) ht
      simp [fontByte, Vector.getElem?_eq_getElem hrow, Vector.getElem?_eq_getElem hbyte]
  obtain ⟨b, hb⟩ := hsome
  rw [glyphByte, hb]
  rfl

/-- The pixel of row `j` in column `i`. -/
def cellPixel (font : Font) (pen : Pen) (x y : UInt16) (num size : UInt8) (i j : Nat) :
    Pixel where
  x := UInt16.ofNat (x.toNat + i)
  y := UInt16.ofNat (y.toNat + j)
  color := penColor pen (glyphBit font size num i j)

/-- The pixels of byte `t`. -/
def bytePixels (font : Font) (pen : Pen) (x y : UInt16) (num size : UInt8) (t : Nat) :
    List Pixel :=
  (List.range (min 8 (size.toNat - 8 * (t % columnBytes size)))).map fun k =>
    cellPixel font pen x y num size (t / columnBytes size) (8 * (t % columnBytes size) + k)

/-- The bits of a byte are those of its rows. -/
theorem glyphBit_of_byte (font : Font) (size num : UInt8) (t : Nat) {k : Nat} (hk : k < 8) :
    glyphBit font size num (t / columnBytes size) (8 * (t % columnBytes size) + k)
      = (glyphByte font size num t).toNat.testBit (7 - k) := by
  have hindex : t / columnBytes size * columnBytes size + t % columnBytes size = t := by
    rw [Nat.mul_comm]
    exact Nat.div_add_mod t (columnBytes size)
  rw [glyphBit, Nat.mul_add_div (by decide), Nat.mul_add_mod, Nat.div_eq_of_lt hk,
    Nat.mod_eq_of_lt hk, Nat.add_zero, hindex]

/-- The inner loop on byte `t`. -/
theorem showCharBits_byte {lcddev : LcdDev} {x y : UInt16} {size : UInt8}
    (hbottom : y.toNat + size.toNat ≤ lcddev.height.toNat) (font : Font) (pen : Pen)
    (num : UInt8) {t : Nat} (ht : 8 * (t % columnBytes size) < size.toNat) :
    showCharBits lcddev pen y size 0 8 (glyphByte font size num t)
        (UInt16.ofNat (x.toNat + t / columnBytes size))
        (UInt16.ofNat (y.toNat + 8 * (t % columnBytes size)))
      = (bytePixels font pen x y num size t,
        cellNext lcddev y size (UInt16.ofNat (x.toNat + t / columnBytes size))
          (8 * (t % columnBytes size) + 8)) := by
  rw [showCharBits_eq hbottom pen _ (Nat.le_refl 8) _ ht, bytePixels]
  congr 1
  refine List.map_congr_left fun k hk => ?_
  have hlt := List.mem_range.mp hk
  rw [cellPixel, glyphBit_of_byte font size num t (by omega)]

/-- **The outer loop**, from byte `t` on: above the last row of the panel it goes through all
bytes. -/
theorem showCharBytes_eq {lcddev : LcdDev} {x y : UInt16} {num size : UInt8}
    (hsize : size = 12 ∨ size = 16 ∨ size = 24) (hnum : 32 ≤ num ∧ num ≤ 126)
    (hright : x.toNat + size.toNat / 2 ≤ lcddev.width.toNat)
    (hbottom : y.toNat + size.toNat < lcddev.height.toNat) (font : Font) (pen : Pen) {n t : Nat}
    (hn : t + n = (fontBytes size).toNat) :
    showCharBytes lcddev font pen y (num - 32) size 0 n (UInt8.ofNat t)
        (UInt16.ofNat (x.toNat + t / columnBytes size))
        (UInt16.ofNat (y.toNat + 8 * (t % columnBytes size)))
      = some ((List.range' t n).flatMap (bytePixels font pen x y num size)) := by
  obtain ⟨hbytes, hcover, hlast, htwo, -⟩ := cell_sizes hsize
  have hwidth := lcddev.width.toNat_lt
  induction n generalizing t with
  | zero => rfl
  | succ n ih =>
      have hmod := Nat.mod_lt t (show 0 < columnBytes size by omega)
      have hcolumn : t / columnBytes size < size.toNat / 2 :=
        Nat.div_lt_of_lt_mul (by rw [Nat.mul_comm, ← hbytes]; omega)
      have hrow : 8 * (t % columnBytes size) < size.toNat := by omega
      have hbyte := fontByte_glyphByte font hsize hnum (show t < (fontBytes size).toNat by omega)
      have hbits := showCharBits_byte (x := x) (Nat.le_of_lt hbottom) font pen num hrow
      have hnextByte : UInt8.ofNat t + 1 = UInt8.ofNat (t + 1) := (UInt8.ofNat_add t 1).symm
      have hnextColumn : UInt16.ofNat (x.toNat + t / columnBytes size) + 1
          = UInt16.ofNat (x.toNat + (t / columnBytes size + 1)) := by
        rw [← Nat.add_assoc]
        exact (UInt16.ofNat_add _ 1).symm
      rw [List.range'_succ, List.flatMap_cons]
      by_cases hcol : t % columnBytes size + 1 < columnBytes size
      · -- the next byte is in the same column
        obtain ⟨hdiv, hmod'⟩ := succ_div_mod_of_lt hcol
        have hrest := ih (t := t + 1) (by omega)
        rw [hdiv, hmod', Nat.mul_succ] at hrest
        rw [cellNext, if_pos (by omega)] at hbits
        simp only [showCharBytes, hbyte, hbits, hnextByte, hrest, Option.bind_eq_bind,
          Option.bind_some, Option.pure_def]
      · obtain ⟨hdiv, hmod'⟩ := succ_div_mod_of_eq (show t % columnBytes size + 1
          = columnBytes size by omega)
        have hrest := ih (t := t + 1) (by omega)
        rw [hdiv, hmod', Nat.mul_zero, Nat.add_zero y.toNat, UInt16.ofNat_toNat] at hrest
        rw [cellNext, if_neg (by omega), hnextColumn] at hbits
        by_cases hpanel : lcddev.width ≤ UInt16.ofNat (x.toNat + (t / columnBytes size + 1))
        · -- the last column is at the end of the panel, and this was its last byte
          have hend : lcddev.width.toNat ≤ x.toNat + (t / columnBytes size + 1) := by
            rw [UInt16.le_iff_toNat_le, UInt16.toNat_ofNat', Nat.mod_eq_of_lt (by omega)] at hpanel
            exact hpanel
          have hlastByte : n = 0 := by
            have hcolumns : t / columnBytes size + 1 = size.toNat / 2 := by omega
            have hall := Nat.div_add_mod (t + 1) (columnBytes size)
            rw [hdiv, hmod', hcolumns, Nat.mul_comm, ← hbytes] at hall
            omega
          rw [if_pos (Or.inr hpanel)] at hbits
          simp only [showCharBytes, hbyte, hbits, Option.bind_eq_bind, Option.bind_some,
            Option.pure_def, hlastByte, List.range'_zero, List.flatMap_nil, List.append_nil]
        · rw [if_neg (not_or_intro (by omega) hpanel)] at hbits
          simp only [showCharBytes, hbyte, hbits, hnextByte, hrest, Option.bind_eq_bind,
            Option.bind_some, Option.pure_def]

/-! ### The cell -/

/-- The pixels of all bytes are the pixels of the cell, column by column. -/
theorem bytePixels_columns (font : Font) (pen : Pen) (x y : UInt16) (num : UInt8)
    {size : UInt8} (hsize : size = 12 ∨ size = 16 ∨ size = 24) :
    (List.range (fontBytes size).toNat).flatMap (bytePixels font pen x y num size)
      = columns (size.toNat / 2) size.toNat (cellPixel font pen x y num size) := by
  obtain ⟨hbytes, hcover, -, -, -⟩ := cell_sizes hsize
  rw [hbytes]
  exact columns_blocks hcover (cellPixel font pen x y num size)

/-- The pixels of the cell, column by column, are what is asked for. -/
theorem cellPainted_columns (font : Font) (pen : Pen) {x y : UInt16} (num : UInt8)
    {size : UInt8} (hx : x.toNat + size.toNat / 2 < 2 ^ 16)
    (hy : y.toNat + size.toNat < 2 ^ 16) :
    CellPainted font pen x y num size
      (columns (size.toNat / 2) size.toNat (cellPixel font pen x y num size)) := by
  have hpos : ∀ i < size.toNat / 2, ∀ j < size.toNat,
      (cellPixel font pen x y num size i j).x.toNat = x.toNat + i
        ∧ (cellPixel font pen x y num size i j).y.toNat = y.toNat + j := by
    intro i hi j hj
    constructor
    · rw [cellPixel, UInt16.toNat_ofNat', Nat.mod_eq_of_lt (by omega)]
    · rw [cellPixel, UInt16.toNat_ofNat', Nat.mod_eq_of_lt (by omega)]
  constructor
  · intro i hi j hj
    have hsingle := filter_columns hi hj (f := cellPixel font pen x y num size)
      (p := fun p => p.x.toNat = x.toNat + i ∧ p.y.toNat = y.toNat + j) ?_
    · rw [hsingle]
      rfl
    · intro i' hi' j' hj'
      obtain ⟨hcolumn, hrow⟩ := hpos i' hi' j' hj'
      rw [decide_eq_true_iff, hcolumn, hrow]
      omega
  · intro p hp
    obtain ⟨i, hi, j, hj, rfl⟩ := mem_columns.mp hp
    obtain ⟨hcolumn, hrow⟩ := hpos i hi j hj
    omega

section Cell

variable {lcddev : LcdDev} {x y : UInt16} {num size : UInt8}
  (hsize : size = 12 ∨ size = 16 ∨ size = 24) (hnum : 32 ≤ num ∧ num ≤ 126)
  (hright : x.toNat + size.toNat / 2 ≤ lcddev.width.toNat)
include hsize hnum

include hright in
/-- **Above the last row of the panel** the whole cell is painted. -/
theorem lcdShowChar_columns (hbottom : y.toNat + size.toNat < lcddev.height.toNat)
    (font : Font) (pen : Pen) :
    lcdShowChar lcddev font pen x y num size 0
      = some (columns (size.toNat / 2) size.toNat (cellPixel font pen x y num size)) := by
  have hloop := showCharBytes_eq hsize hnum hright hbottom font pen
    (Nat.zero_add (fontBytes size).toNat)
  rw [← List.range_eq_range', bytePixels_columns font pen x y num hsize, Nat.zero_div,
    Nat.zero_mod, Nat.mul_zero, Nat.add_zero, Nat.add_zero, UInt16.ofNat_toNat,
    UInt16.ofNat_toNat] at hloop
  exact hloop

/-- **At the last row of the panel** the loop does not get behind the first column. -/
theorem showCharBytes_bottom (hbottom : y.toNat + size.toNat = lcddev.height.toNat)
    (font : Font) (pen : Pen) {n t j : Nat} (hn : t + n = (fontBytes size).toNat)
    (hj : j < size.toNat) {pixels : List Pixel}
    (h : showCharBytes lcddev font pen y (num - 32) size 0 n (UInt8.ofNat t) x
      (UInt16.ofNat (y.toNat + j)) = some pixels) :
    ∀ p ∈ pixels, p.x = x := by
  induction n generalizing t j pixels with
  | zero =>
      rw [showCharBytes, Option.some.injEq] at h
      subst h
      simp
  | succ n ih =>
      have hbyte := fontByte_glyphByte font hsize hnum (show t < (fontBytes size).toNat by omega)
      have hbits := showCharBits_eq (Nat.le_of_eq hbottom) pen x (Nat.le_refl 8)
        (glyphByte font size num t) hj
      have hnextByte : UInt8.ofNat t + 1 = UInt8.ofNat (t + 1) := (UInt8.ofNat_add t 1).symm
      generalize hdrawn : ((List.range (min 8 (size.toNat - j))).map fun k =>
        (⟨x, UInt16.ofNat (y.toNat + (j + k)),
          penColor pen ((glyphByte font size num t).toNat.testBit (7 - k))⟩ : Pixel)) = drawn
        at hbits
      have hcolumn : ∀ p ∈ drawn, p.x = x := by
        intro p hp
        rw [← hdrawn] at hp
        obtain ⟨k, -, rfl⟩ := List.mem_map.mp hp
        rfl
      by_cases hcol : j + 8 < size.toNat
      · rw [cellNext, if_pos hcol] at hbits
        simp only [showCharBytes, hbyte, hbits, hnextByte, Option.bind_eq_bind, Option.bind_some,
          Option.pure_def] at h
        obtain ⟨rest, hrest, hpixels⟩ := Option.bind_eq_some_iff.mp h
        rw [Option.some.injEq] at hpixels
        subst hpixels
        intro p hp
        rcases List.mem_append.mp hp with hp | hp
        · exact hcolumn p hp
        · exact ih (by omega) hcol hrest p hp
      · rw [cellNext, if_neg hcol, if_pos (Or.inl (Nat.le_of_eq hbottom.symm))] at hbits
        simp only [showCharBytes, hbyte, hbits, Option.bind_eq_bind, Option.bind_some,
          Option.pure_def, Option.some.injEq] at h
        subst h
        exact hcolumn

/-- A cell at the last row is not painted: its second column is missing. -/
theorem lcdShowChar_bottom (hbottom : y.toNat + size.toNat = lcddev.height.toNat)
    (font : Font) (pen : Pen) :
    ¬ ∃ pixels, lcdShowChar lcddev font pen x y num size 0 = some pixels
      ∧ CellPainted font pen x y num size pixels := by
  rintro ⟨pixels, hshow, hpainted⟩
  obtain ⟨-, -, -, htwo, -⟩ := cell_sizes hsize
  have hloop : showCharBytes lcddev font pen y (num - 32) size 0 (fontBytes size).toNat
      (UInt8.ofNat 0) x (UInt16.ofNat (y.toNat + 0)) = some pixels := by
    rw [Nat.add_zero, UInt16.ofNat_toNat]
    exact hshow
  have hcolumn := showCharBytes_bottom hsize hnum hbottom font pen
    (Nat.zero_add (fontBytes size).toNat) (show 0 < size.toNat by omega) hloop
  have hmissing : (pixels.filter fun p => p.x.toNat = x.toNat + 1 ∧ p.y.toNat = y.toNat + 0)
      = [] := by
    rw [List.filter_eq_nil_iff]
    intro p hp
    rw [hcolumn p hp, decide_eq_true_iff]
    omega
  have honce := hpainted.once 1 (by omega) 0 (by omega)
  rw [hmissing] at honce
  cases honce

end Cell

/-- **`LCD_ShowChar` paints its cell**, and nothing else, exactly where the cell does not touch
the last row of the panel. -/
theorem lcdShowChar_painted_iff (lcddev : LcdDev) (font : Font) (pen : Pen) {x y : UInt16}
    {num size : UInt8} (hsize : size = 12 ∨ size = 16 ∨ size = 24)
    (hnum : 32 ≤ num ∧ num ≤ 126) (hright : x.toNat + size.toNat / 2 ≤ lcddev.width.toNat)
    (hbottom : y.toNat + size.toNat ≤ lcddev.height.toNat) :
    (∃ pixels, lcdShowChar lcddev font pen x y num size 0 = some pixels
      ∧ CellPainted font pen x y num size pixels)
      ↔ y.toNat + size.toNat < lcddev.height.toNat := by
  constructor
  · intro hpainted
    refine Nat.lt_of_le_of_ne hbottom fun heq => ?_
    exact lcdShowChar_bottom hsize hnum heq font pen hpainted
  · intro hlt
    have hwidth := lcddev.width.toNat_lt
    have hheight := lcddev.height.toNat_lt
    exact ⟨_, lcdShowChar_columns hsize hnum hright hlt font pen,
      cellPainted_columns font pen num (by omega) (by omega)⟩

/-- A font without ink, for examples. -/
def blankFont : Font where
  asc2_1206 := Vector.replicate 95 (Vector.replicate 12 0)
  asc2_1608 := Vector.replicate 95 (Vector.replicate 16 0)
  asc2_2412 := Vector.replicate 95 (Vector.replicate 36 0)

/-- The first letter of `"Car Locator"` where `main` shows it. -/
theorem lcdShowChar_painted_iff_title :
    (∃ pixels, lcdShowChar ⟨240, 320⟩ blankFont ⟨0, 0xFFFF⟩ 80 20 67 16 0 = some pixels
      ∧ CellPainted blankFont ⟨0, 0xFFFF⟩ 80 20 67 16 pixels)
      ↔ (20 : UInt16).toNat + (16 : UInt8).toNat < (320 : UInt16).toNat :=
  lcdShowChar_painted_iff ⟨240, 320⟩ blankFont ⟨0, 0xFFFF⟩ (by decide) (by decide) (by decide)
    (by decide)

/-- A letter on the last line of text of the panel is not painted. -/
theorem lcdShowChar_lastLine :
    ¬ ∀ (lcddev : LcdDev) (font : Font) (pen : Pen) (x y : UInt16) (num size : UInt8),
      (size = 12 ∨ size = 16 ∨ size = 24) → 32 ≤ num ∧ num ≤ 126 →
      x.toNat + size.toNat / 2 ≤ lcddev.width.toNat →
      y.toNat + size.toNat ≤ lcddev.height.toNat →
      ∃ pixels, lcdShowChar lcddev font pen x y num size 0 = some pixels
        ∧ CellPainted font pen x y num size pixels := by
  intro h
  have hpainted := h ⟨240, 320⟩ blankFont ⟨0, 0xFFFF⟩ 0 304 65 16 (by decide) (by decide)
    (by decide) (by decide)
  exact lcdShowChar_bottom (by decide) (by decide) (by decide) blankFont ⟨0, 0xFFFF⟩ hpainted

end CarLocator.Lcd
