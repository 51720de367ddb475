import CarLocator.Gps.Number
import CarLocator.Lcd.Draw

/-!
# `CarLocator.Lcd.Number`: what `LCD_ShowNum` and `LCD_ShowxNum` show

Both functions write a number into a field of `len` characters, digit by digit from the
highest one on. With the true powers of ten, the field would be `paddedDecimal`
(`CarLocator.Library.Decimal`). `LCD_Pow` computes them modulo `2 ^ 32`, so the digit with the
exponent `e` is taken from `10 ^ e % 2 ^ 32` (`showDigits_suppressed`), and from exponent 32 on
the division is by zero (`showDigits_wide`).

Up to exponent 9 the powers are exact. A higher digit of a 32-bit number is a zero, and it
comes out as one exactly when the number is below the wrapped power (`WideDigitsVanish`).
-/

set_option autoImplicit false

namespace CarLocator.Lcd

open CarLocator.Library CarLocator.Gps

/-! ### What is asked of a number -/

/-- The characters of a field, from left to right. -/
def numberCells (x y : UInt16) (size mode : UInt8) (text : Bytes) (k : Nat) : List CharCall :=
  (text.zipIdx k).map fun c => ⟨x + UInt16.ofNat (size.toNat / 2 * c.2), y, c.1, size, mode⟩

/-- What fills the field of `LCD_ShowxNum` on the left. -/
def padOfMode (mode : UInt8) : UInt8 := if mode &&& 0x80 ≠ 0 then 48 else 32

/-- Both functions show `num` in a field of `len` characters. -/
structure NumberShown (x y : UInt16) (num : UInt32) (len size mode : UInt8) : Prop where
  showNum : lcdShowNum x y num len size
    = some (numberCells x y size 0
        (paddedDecimal 32 len.toNat (num.toNat % 10 ^ len.toNat)) 0)
  showxNum : lcdShowxNum x y num len size mode
    = some (numberCells x y size (mode &&& 0x01)
        (paddedDecimal (padOfMode mode) len.toNat (num.toNat % 10 ^ len.toNat)) 0)
  same : mode &&& 0x80 = 0 → mode &&& 0x01 = 0 →
    lcdShowxNum x y num len size mode = lcdShowNum x y num len size

/-- The number is below every power of ten that has wrapped. -/
def WideDigitsVanish (num : UInt32) (len : UInt8) : Prop :=
  ∀ e, 10 ≤ e → e < len.toNat → num.toNat < 10 ^ e % 2 ^ 32

/-! ### The powers -/

/-- `LCD_Pow` is the power modulo `2 ^ 32`. -/
theorem toNat_lcdPow {e : Nat} (he : e < 256) :
    (lcdPow 10 (UInt8.ofNat e)).toNat = 10 ^ e % 2 ^ 32 := by
  rw [lcdPow, nmeaPowLoop_eq, UInt32.one_mul, UInt32.toNat_ofNat', UInt8.toNat_ofNat',
    Nat.mod_eq_of_lt he]
  rfl

/-- From the exponent 32 on it is zero. -/
theorem pow_mod_eq_zero {e : Nat} (he : 32 ≤ e) : 10 ^ e % 2 ^ 32 = 0 := by
  apply Nat.mod_eq_zero_of_dvd
  have hten : (2 : Nat) ^ 32 ∣ 10 ^ 32 := by
    rw [show (10 : Nat) = 2 * 5 from rfl, Nat.mul_pow]
    exact Nat.dvd_mul_right _ _
  exact hten.trans (Nat.pow_dvd_pow 10 he)

/-- And below it is large. -/
theorem le_pow_mod {e : Nat} (he : e < 32) (hwide : 10 ≤ e) : 2 ^ 28 ≤ 10 ^ e % 2 ^ 32 := by
  have hall : ∀ e < 32, 10 ≤ e → 2 ^ 28 ≤ 10 ^ e % 2 ^ 32 := by decide
  exact hall e he hwide

/-- No power with an exponent below 32 is zero. -/
theorem pow_mod_pos {e : Nat} (he : e < 32) : 0 < 10 ^ e % 2 ^ 32 := by
  have hall : ∀ e < 32, 0 < 10 ^ e % 2 ^ 32 := by decide
  exact hall e he

/-- The digit with the exponent `e`, as the loop computes it. -/
def shownDigit (num : UInt32) (e : Nat) : Nat := num.toNat / (10 ^ e % 2 ^ 32) % 10

/-- Where the powers do not disturb, the digits are right. -/
theorem shownDigit_eq {num : UInt32} {len : UInt8} (hvanish : WideDigitsVanish num len) {e : Nat}
    (he : e < len.toNat) : shownDigit num e = num.toNat / 10 ^ e % 10 := by
  by_cases hwide : 10 ≤ e
  · have hlt := hvanish e hwide he
    have hpow : 10 ^ 10 ≤ 10 ^ e := Nat.pow_le_pow_right (by norm_num) hwide
    have hnum := num.toNat_lt
    rw [shownDigit, Nat.div_eq_of_lt hlt, Nat.div_eq_of_lt (by omega)]
  · have hpow : 10 ^ e ≤ 10 ^ 9 := Nat.pow_le_pow_right (by norm_num) (by omega)
    have hexact : 10 ^ e % 2 ^ 32 = 10 ^ e := Nat.mod_eq_of_lt (by omega)
    rw [shownDigit, hexact]

/-- And where the high digits come out as zeros, they do not disturb. -/
theorem wideDigitsVanish_of_shownDigit {num : UInt32} {len : UInt8} (hlen : len.toNat ≤ 32)
    (hzero : ∀ e, 10 ≤ e → e < len.toNat → shownDigit num e = 0) :
    WideDigitsVanish num len := by
  intro e hwide he
  have hnum := num.toNat_lt
  -- the eleventh digit leaves 10 ^ 10 - 2 * 2 ^ 32 as the bound of the number
  have hten := hzero 10 (Nat.le_refl 10) (by omega)
  have hbound : num.toNat < 1410065408 := by
    have hpow : (10 : Nat) ^ 10 % 2 ^ 32 = 1410065408 := by decide
    rw [shownDigit, hpow] at hten
    omega
  have hlarge := le_pow_mod (show e < 32 by omega) hwide
  have hdigit := hzero e hwide he
  rw [shownDigit] at hdigit
  generalize 10 ^ e % 2 ^ 32 = w at hlarge hdigit ⊢
  by_contra hge
  have hpos : 1 ≤ num.toNat / w := (Nat.one_le_div_iff (by omega)).mpr (by omega)
  have hsmall : num.toNat / w < 10 := by
    rw [Nat.div_lt_iff_lt_mul (by omega)]
    omega
  omega

/-! ### The loop -/

/-- The place of character `t`. -/
theorem numberCell_x (x : UInt16) (size : UInt8) {t : Nat} (ht : t < 256) :
    x + (size / 2).toUInt16 * (UInt8.ofNat t).toUInt16
      = x + UInt16.ofNat (size.toNat / 2 * t) := by
  have hindex : (UInt8.ofNat t).toUInt16 = UInt16.ofNat t := by
    rw [← UInt16.ofNat_uInt8ToNat, UInt8.toNat_ofNat', Nat.mod_eq_of_lt ht]
  rw [half_toUInt16, hindex, UInt16.ofNat_mul]

/-- A digit and its character. -/
theorem shownDigit_toUInt8 (num : UInt32) {pow : UInt32} {e : Nat}
    (hpow : pow.toNat = 10 ^ e % 2 ^ 32) :
    (num / pow % 10).toUInt8 = UInt8.ofNat (shownDigit num e) := by
  apply UInt8.toNat_inj.mp
  rw [UInt32.toNat_toUInt8, UInt32.toNat_mod, UInt32.toNat_div, hpow, UInt8.toNat_ofNat']
  rfl

/-- **The loop**, with `n` digits to go: it shows the digits it computes, with the zeros in front
suppressed. -/
theorem showDigits_suppressed (x y : UInt16) (num : UInt32) {len : UInt8} (size mode pad : UInt8)
    (hlen : len.toNat ≤ 32) {n t : Nat} (ht : t + n = len.toNat) (enshow : Bool) :
    showDigits x y num len size mode pad n (UInt8.ofNat t) enshow
      = some (numberCells x y size mode (suppressed pad (shownDigit num) n enshow) t) := by
  induction n generalizing t enshow with
  | zero => rfl
  | succ n ih =>
      have htoNat : (UInt8.ofNat t).toNat = t := by
        rw [UInt8.toNat_ofNat', Nat.mod_eq_of_lt (by omega)]
      have hexp : len - UInt8.ofNat t - 1 = UInt8.ofNat n := by
        apply UInt8.toNat_inj.mp
        have hone : (1 : UInt8).toNat = 1 := rfl
        rw [UInt8.toNat_sub, UInt8.toNat_sub, htoNat, hone, UInt8.toNat_ofNat']
        omega
      have hpow := toNat_lcdPow (show n < 256 by omega)
      have hne : ¬ lcdPow 10 (UInt8.ofNat n) = 0 := by
        intro hzero
        have hpos := pow_mod_pos (show n < 32 by omega)
        rw [← hpow, hzero] at hpos
        exact absurd hpos (by decide)
      have hdigit := shownDigit_toUInt8 num hpow
      have hlt : shownDigit num n < 10 := Nat.mod_lt _ (by norm_num)
      have hchar : UInt8.ofNat (shownDigit num n) + 48 = digitByte (shownDigit num n) := by
        rw [digitByte, Nat.add_comm, UInt8.ofNat_add]
        rfl
      have hzero : UInt8.ofNat (shownDigit num n) = 0 ↔ shownDigit num n = 0 := by
        rw [← UInt8.toNat_inj, UInt8.toNat_ofNat', Nat.mod_eq_of_lt (by omega)]
        rfl
      have hfront : UInt8.ofNat t < len - 1 ↔ n ≠ 0 := by
        have hone : (1 : UInt8).toNat = 1 := rfl
        rw [UInt8.lt_iff_toNat_lt, UInt8.toNat_sub, htoNat, hone]
        omega
      have hnext : UInt8.ofNat t + 1 = UInt8.ofNat (t + 1) := (UInt8.ofNat_add t 1).symm
      rw [showDigits, hexp, if_neg hne]
      simp only [hdigit, hchar, hzero, hfront, hnext, numberCell_x x size (show t < 256 by omega),
        ih (show t + 1 + n = len.toNat by omega), Option.bind_eq_bind, Option.bind_some,
        Option.pure_def]
      by_cases hsuppress : enshow = false ∧ n ≠ 0
      · rw [if_pos hsuppress, suppressed]
        by_cases hdigit0 : shownDigit num n = 0
        · rw [if_pos hdigit0, if_pos ⟨hsuppress.1, hsuppress.2, hdigit0⟩, hsuppress.1]
          rfl
        · rw [if_neg hdigit0, if_neg (fun h => hdigit0 h.2.2)]
          rfl
      · rw [if_neg hsuppress, suppressed, if_neg (fun h => hsuppress ⟨h.1, h.2.1⟩)]
        -- a digit has been shown before, or this is the last one
        have hshown : suppressed pad (shownDigit num) n enshow
            = suppressed pad (shownDigit num) n true := by
          cases enshow with
          | true => rfl
          | false =>
              have hlast : n = 0 := by
                by_contra hne
                exact hsuppress ⟨rfl, hne⟩
              rw [hlast]
              rfl
        rw [hshown]
        rfl

/-- A field wider than 32 characters is a division by zero. -/
theorem showDigits_wide (x y : UInt16) (num : UInt32) {len : UInt8} (size mode pad : UInt8)
    (hlen : 32 < len.toNat) :
    showDigits x y num len size mode pad len.toNat 0 false = none := by
  obtain ⟨n, hn⟩ : ∃ n, len.toNat = n + 1 := ⟨len.toNat - 1, by omega⟩
  have hexp : len - 0 - 1 = UInt8.ofNat n := by
    apply UInt8.toNat_inj.mp
    have hone : (1 : UInt8).toNat = 1 := rfl
    have hlt := len.toNat_lt
    rw [UInt8.sub_zero, UInt8.toNat_sub, hone, UInt8.toNat_ofNat']
    omega
  have hzero : lcdPow 10 (UInt8.ofNat n) = 0 := by
    have hlt := len.toNat_lt
    apply UInt32.toNat_inj.mp
    rw [toNat_lcdPow (by omega), pow_mod_eq_zero (by omega)]
    rfl
  rw [hn, showDigits, hexp, if_pos hzero]
  rfl

/-- The text of a list of cells. -/
theorem numberCells_injective {x y : UInt16} {size mode : UInt8} {text text' : Bytes} {k : Nat}
    (h : numberCells x y size mode text k = numberCells x y size mode text' k) :
    text = text' := by
  have hnum : ∀ text, (numberCells x y size mode text k).map CharCall.num = text := by
    intro text
    rw [numberCells, List.map_map]
    exact List.zipIdx_map_fst k text
  rw [← hnum text, h, hnum text']

/-- **The field is right** exactly where the wrapped powers do no harm. -/
theorem showDigits_shown_iff (x y : UInt16) (num : UInt32) {len : UInt8} (size mode : UInt8)
    {pad : UInt8} (hpad : pad = 32 ∨ pad = 48) (hlen : 0 < len.toNat) :
    showDigits x y num len size mode pad len.toNat 0 false
        = some (numberCells x y size mode
            (paddedDecimal pad len.toNat (num.toNat % 10 ^ len.toNat)) 0)
      ↔ WideDigitsVanish num len := by
  by_cases hwide : 32 < len.toNat
  · rw [showDigits_wide x y num size mode pad hwide]
    constructor
    · intro h
      cases h
    · intro hvanish
      have hlt := hvanish 32 (by norm_num) hwide
      rw [pow_mod_eq_zero (Nat.le_refl 32)] at hlt
      omega
  · have hle : len.toNat ≤ 32 := Nat.le_of_not_lt hwide
    have hloop := showDigits_suppressed x y num size mode pad hle (Nat.zero_add len.toNat) false
    have hdecimal := suppressed_eq_paddedDecimal pad num.toNat hlen
    rw [show UInt8.ofNat 0 = 0 from rfl] at hloop
    rw [hloop, Option.some.injEq]
    constructor
    · intro h
      have htext := numberCells_injective h
      -- a number of 32 bits has ten digits at most, and what is in front of them is padding
      have hnum : num.toNat % 10 ^ len.toNat < 10 ^ 10 := by
        have hlt := num.toNat_lt
        have hmod := Nat.mod_le num.toNat (10 ^ len.toNat)
        omega
      have hfront := take_paddedDecimal pad len.toNat (length_decimal_le (by norm_num) hnum)
      rw [← htext] at hfront
      have hpadDigit : ∀ d, 0 < d → d < 10 → digitByte d ≠ pad := by
        intro d hpos hlt hd
        have htoNat : (digitByte d).toNat = 48 + d := by
          rw [digitByte, UInt8.toNat_ofNat', Nat.mod_eq_of_lt (by omega)]
        rw [hd] at htoNat
        rcases hpad with rfl | rfl
        · have hblank : 32 = 48 + d := htoNat
          omega
        · have hzero : 48 = 48 + d := htoNat
          omega
      have hdigit : ∀ e, shownDigit num e < 10 := fun e => Nat.mod_lt _ (by norm_num)
      exact wideDigitsVanish_of_shownDigit hle fun e hten he =>
        eq_zero_of_suppressed hpadDigit hdigit (by norm_num) hfront hten he
    · intro hvanish
      rw [suppressed_congr pad (fun e he => shownDigit_eq hvanish he), hdecimal]

/-- **`LCD_ShowNum` and `LCD_ShowxNum` show their number** in a field of `len` characters exactly
where it is below every wrapped power of ten. -/
theorem numberShown_iff (x y : UInt16) (num : UInt32) {len : UInt8} (size mode : UInt8)
    (hlen : 1 ≤ len) : NumberShown x y num len size mode ↔ WideDigitsVanish num len := by
  have hpos : 0 < len.toNat := UInt8.le_iff_toNat_le.mp hlen
  have hpad : padOfMode mode = 32 ∨ padOfMode mode = 48 := by
    unfold padOfMode
    split
    · exact Or.inr rfl
    · exact Or.inl rfl
  have hshowNum := showDigits_shown_iff x y num size 0 (Or.inl rfl) hpos
  have hshowxNum := showDigits_shown_iff x y num size (mode &&& 0x01) hpad hpos
  constructor
  · intro hshown
    exact hshowNum.mp hshown.showNum
  · intro hvanish
    refine ⟨hshowNum.mpr hvanish, hshowxNum.mpr hvanish, fun hfill hover => ?_⟩
    rw [lcdShowxNum, lcdShowNum, hfill, hover]
    rfl

/-- A speed in a field of six characters. -/
theorem numberShown_iff_six :
    NumberShown 100 160 12340 6 16 0x80 ↔ WideDigitsVanish 12340 6 :=
  numberShown_iff 100 160 12340 16 0x80 (by decide)

/-- The largest number in a field of eleven characters has a digit too many. -/
theorem numberShown_max :
    ¬ ∀ (x y : UInt16) (num : UInt32) (len size mode : UInt8), 1 ≤ len →
      NumberShown x y num len size mode := by
  intro h
  have hshown := (h 0 0 4294967295 11 16 0 (by decide)).showNum
  have hvanish := (showDigits_shown_iff 0 0 4294967295 16 0 (Or.inl rfl) (by decide)).mp hshown
  exact absurd (hvanish 10 (by decide) (by decide)) (by decide)

end CarLocator.Lcd
