import CarLocator.Gps.Nmea

/-!
# `CarLocator.Lcd.Draw`: lines, characters and strings on the panel

The drawing functions of `applications/lcd.c`, one definition for each function of the
source. A function returns what it draws, in order: the points of `LCD_DrawLine`, the pixels
of `LCD_ShowChar`, and the calls of `LCD_ShowChar` that the number and string functions make.
How a point reaches the controller chip is not part of it.

`none` is a read outside a font table or a string, a division by zero, or a loop that is
not over within its fuel. The coordinates are `rt_uint16_t` and wrap. `int` is `Int` in
`LCD_DrawLine`: no sum there leaves `-2 ^ 18 .. 2 ^ 18`.
-/

set_option autoImplicit false

namespace CarLocator.Lcd

open CarLocator.Library CarLocator.Gps

/-! ### The data -/

/-- The members of `lcddev` that the drawing functions read. -/
structure LcdDev where
  width : UInt16
  height : UInt16
  deriving DecidableEq, Repr

/-- `POINT_COLOR` and `BACK_COLOR`. -/
structure Pen where
  pointColor : UInt16
  backColor : UInt16
  deriving DecidableEq, Repr

/-- The tables of `font.h`: the bytes of the characters from `' '` to `'~'`, column by
column. -/
structure Font where
  asc2_1206 : Vector (Vector UInt8 12) 95
  asc2_1608 : Vector (Vector UInt8 16) 95
  asc2_2412 : Vector (Vector UInt8 36) 95

/-- A call `LCD_DrawPoint(x,y)`. -/
structure Point where
  x : UInt16
  y : UInt16
  deriving DecidableEq, Repr

/-- A call `LCD_Fast_DrawPoint(x,y,color)`. -/
structure Pixel where
  x : UInt16
  y : UInt16
  color : UInt16
  deriving DecidableEq, Repr

/-- A call `LCD_ShowChar(x,y,num,size,mode)`. -/
structure CharCall where
  x : UInt16
  y : UInt16
  num : UInt8
  size : UInt8
  mode : UInt8
  deriving DecidableEq, Repr

/-! ### `LCD_DrawLine` -/

/-- One of the two accumulators of `LCD_DrawLine` with the coordinate it moves: `xerr` with
`uRow`, and `yerr` with `uCol`. -/
structure LineAxis where
  err : Int
  pos : Int
  deriving DecidableEq, Repr

/-- The half of a round that belongs to one axis. -/
def LineAxis.step (delta distance inc : Int) (a : LineAxis) : LineAxis :=
  let err := a.err + delta
  if distance < err then ⟨err - distance, a.pos + inc⟩ else ⟨err, a.pos⟩

/-- The single step direction `incx`, `incy`. -/
def lineInc (delta : Int) : Int := if 0 < delta then 1 else if delta = 0 then 0 else -1

/-- A negative increment is negated. -/
def lineDelta (delta : Int) : Int := if delta < 0 then -delta else delta

/-- The loop of `LCD_DrawLine`. -/
def lcdDrawLineLoop (deltaX deltaY distance incx incy : Int) :
    (fuel : Nat) → (t : UInt16) → (row col : LineAxis) → Option (List Point)
  | 0, _, _, _ => none
  | fuel + 1, t, row, col =>
    if (t.toNat : Int) ≤ distance + 1 then do
      let points ← lcdDrawLineLoop deltaX deltaY distance incx incy fuel (t + 1)
        (row.step deltaX distance incx) (col.step deltaY distance incy)
      pure (⟨UInt16.ofInt row.pos, UInt16.ofInt col.pos⟩ :: points)
    else some []

/-- `LCD_DrawLine`. -/
def lcdDrawLine (fuel : Nat) (x1 y1 x2 y2 : UInt16) : Option (List Point) :=
  let incx := lineInc ((x2.toNat : Int) - x1.toNat)
  let incy := lineInc ((y2.toNat : Int) - y1.toNat)
  let deltaX := lineDelta ((x2.toNat : Int) - x1.toNat)
  let deltaY := lineDelta ((y2.toNat : Int) - y1.toNat)
  let distance := if deltaY < deltaX then deltaX else deltaY
  lcdDrawLineLoop deltaX deltaY distance incx incy fuel 0 ⟨0, x1.toNat⟩ ⟨0, y1.toNat⟩

/-! ### `LCD_ShowChar` -/

/-- Byte `t` of the character `num` in the font of this size. The inner `none` says that there
is no such font. -/
def fontByte (font : Font) (size num t : UInt8) : Option (Option UInt8) :=
  if size = 12 then do
    let row ← font.asc2_1206[num.toNat]?
    let temp ← row[t.toNat]?
    pure (some temp)
  else if size = 16 then do
    let row ← font.asc2_1608[num.toNat]?
    let temp ← row[t.toNat]?
    pure (some temp)
  else if size = 24 then do
    let row ← font.asc2_2412[num.toNat]?
    let temp ← row[t.toNat]?
    pure (some temp)
  else some none

/-- The inner loop of `LCD_ShowChar` over the bits of `temp`, with `n` rounds left: the pixels,
and where the next byte starts. There is no such place behind a `return`. -/
def showCharBits (dev : LcdDev) (pen : Pen) (y0 : UInt16) (size mode : UInt8) :
    (n : Nat) → (temp : UInt8) → (x y : UInt16) → List Pixel × Option (UInt16 × UInt16)
  | 0, _, x, y => ([], some (x, y))
  | n + 1, temp, x, y =>
    let drawn : List Pixel :=
      if temp &&& 0x80 ≠ 0 then [⟨x, y, pen.pointColor⟩]
      else if mode = 0 then [⟨x, y, pen.backColor⟩]
      else []
    let y := y + 1
    if dev.height ≤ y then (drawn, none)
    else if (y.toNat : Int) - y0.toNat = size.toNat then
      let x := x + 1
      if dev.width ≤ x then (drawn, none) else (drawn, some (x, y0))
    else
      let (rest, next) := showCharBits dev pen y0 size mode n (temp <<< 1) x y
      (drawn ++ rest, next)

/-- The outer loop of `LCD_ShowChar` over the bytes of the character, with `n` rounds left. -/
def showCharBytes (dev : LcdDev) (font : Font) (pen : Pen) (y0 : UInt16)
    (num size mode : UInt8) : (n : Nat) → (t : UInt8) → (x y : UInt16) → Option (List Pixel)
  | 0, _, _, _ => some []
  | n + 1, t, x, y => do
    match ← fontByte font size num t with
    | none => pure []
    | some temp =>
      match showCharBits dev pen y0 size mode 8 temp x y with
      | (drawn, none) => pure drawn
      | (drawn, some (x, y)) =>
        let rest ← showCharBytes dev font pen y0 num size mode n (t + 1) x y
        pure (drawn ++ rest)

/-- `csize`: how many bytes a character of this size has. -/
def fontBytes (size : UInt8) : UInt8 := (size / 8 + if size % 8 ≠ 0 then 1 else 0) * (size / 2)

/-- `LCD_ShowChar`. -/
def lcdShowChar (dev : LcdDev) (font : Font) (pen : Pen) (x y : UInt16)
    (num size mode : UInt8) : Option (List Pixel) :=
  showCharBytes dev font pen y (num - 32) size mode (fontBytes size).toNat 0 x y

/-! ### `LCD_ShowNum` and `LCD_ShowxNum` -/

/-- `LCD_Pow`, which is `NMEA_Pow` once more. -/
def lcdPow (m n : UInt8) : UInt32 := nmeaPowLoop m n.toNat 1

/-- The loop that `LCD_ShowNum` and `LCD_ShowxNum` share, with `n` of its `len` rounds left: a
suppressed digit is shown as `pad`. -/
def showDigits (x y : UInt16) (num : UInt32) (len size mode pad : UInt8) :
    (n : Nat) → (t : UInt8) → (enshow : Bool) → Option (List CharCall)
  | 0, _, _ => some []
  | n + 1, t, enshow => do
    let pow := lcdPow 10 (len - t - 1)
    if pow = 0 then none
    let temp := (num / pow % 10).toUInt8
    let cell := x + (size / 2).toUInt16 * t.toUInt16
    if enshow = false ∧ t < len - 1 then
      if temp = 0 then
        let rest ← showDigits x y num len size mode pad n (t + 1) enshow
        pure (⟨cell, y, pad, size, mode⟩ :: rest)
      else
        let rest ← showDigits x y num len size mode pad n (t + 1) true
        pure (⟨cell, y, temp + 48, size, mode⟩ :: rest)
    else
      let rest ← showDigits x y num len size mode pad n (t + 1) enshow
      pure (⟨cell, y, temp + 48, size, mode⟩ :: rest)

/-- `LCD_ShowNum`. -/
def lcdShowNum (x y : UInt16) (num : UInt32) (len size : UInt8) : Option (List CharCall) :=
  showDigits x y num len size 0 32 len.toNat 0 false

/-- `LCD_ShowxNum`. -/
def lcdShowxNum (x y : UInt16) (num : UInt32) (len size mode : UInt8) :
    Option (List CharCall) :=
  showDigits x y num len size (mode &&& 0x01) (if mode &&& 0x80 ≠ 0 then 48 else 32)
    len.toNat 0 false

/-! ### `LCD_ShowString` -/

/-- The loop of `LCD_ShowString`, over the bytes at `p`. `x0` is the saved left margin, and
`width` and `height` are the ends of the region by now. -/
def showStringLoop (x0 : UInt8) (width height : UInt16) (size : UInt8) :
    (p : Bytes) → (x y : UInt16) → Option (List CharCall)
  | [], _, _ => none
  | b :: p, x, y =>
    if b ≤ 126 ∧ 32 ≤ b then
      let (x, y) := if width ≤ x then (x0.toUInt16, y + size.toUInt16) else (x, y)
      if height ≤ y then some []
      else do
        let rest ← showStringLoop x0 width height size p (x + (size / 2).toUInt16) y
        pure (⟨x, y, b, size, 0⟩ :: rest)
    else some []

/-- `LCD_ShowString`. -/
def lcdShowString (x y width height : UInt16) (size : UInt8) (p : Bytes) :
    Option (List CharCall) :=
  showStringLoop x.toUInt8 (width + x) (height + y) size p x y

/-- The width of a character, in the coordinates' own type. -/
theorem half_toUInt16 (size : UInt8) : (size / 2).toUInt16 = UInt16.ofNat (size.toNat / 2) := by
  rw [← UInt16.ofNat_uInt8ToNat, UInt8.toNat_div]
  rfl

end CarLocator.Lcd
