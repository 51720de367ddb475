import CarLocator.Gps.Fix

/-!
# `CarLocator.Gps.Position`: the conversion of a position

A receiver sends a position as `d..dmm.f...f`, degrees and decimal minutes in one number
(`PositionField`). `NMEA_GNRMC_Analysis` takes the number apart again, through a scaled integer
of 32 bits, and stores degrees times 100000 with the minutes as a fraction of a degree.

`position_exact` proves the value for every number of decimals, over exact arithmetic in place
of `float`. The integer that all of it goes through has at most 18059 and five decimals in it,
which is why nothing overflows (`scaled_lt`).
-/

set_option autoImplicit false

namespace CarLocator.Gps

open CarLocator.Library

/-! ### Position fields -/

/-- A field `d..dmm` or `d..dmm.f...f`. -/
structure PositionField where
  deg : Bytes
  mins : Bytes
  frac : Bytes
  deg_ne : deg ≠ []
  deg_digits : ∀ b ∈ deg, isDigit b = true
  mins_digits : ∀ b ∈ mins, isDigit b = true
  frac_digits : ∀ b ∈ frac, isDigit b = true
  mins_length : mins.length = 2
  mins_lt : decVal mins < 60

namespace PositionField

/-- The field as a number. -/
def number (p : PositionField) : Number where
  neg := false
  int := p.deg ++ p.mins
  frac := p.frac
  int_ne := by simp [p.deg_ne]
  int_digits b hb := (List.mem_append.mp hb).elim (p.deg_digits b) (p.mins_digits b)
  frac_digits := p.frac_digits

/-- The text of the field. -/
def text (p : PositionField) : Bytes := p.number.text

/-- The degrees. -/
def degrees (p : PositionField) : Nat := decVal p.deg

/-- The decimals that are kept. -/
def decimals (p : PositionField) : Nat := min 5 p.frac.length

/-- The minutes, truncated to five decimals. -/
def minutes (p : PositionField) : Rat :=
  decVal p.mins + decVal (p.frac.take 5) / 10 ^ p.decimals

/-- The position in degrees times 100000. -/
def hundredThousandths (p : PositionField) : Int :=
  ⌊(10 ^ 5 * p.degrees + 10 ^ 5 * p.minutes / 60 : Rat)⌋

/-- The minutes as an integer, with the decimals. -/
def scaledMinutes (p : PositionField) : Nat := decVal (p.mins ++ p.frac.take 5)

/-- The degrees and the minutes as one integer. -/
def scaled (p : PositionField) : Nat := p.degrees * 10 ^ (p.decimals + 2) + p.scaledMinutes

end PositionField

/-- The 32-bit intermediates of a conversion that starts with the result `v` and `dx` of
`NMEA_Str2num` are exact: this result, `NMEA_Pow(10,dx+2)`, and the product with the degrees. -/
structure NoOverflow (p : PositionField) (v : Int32) (dx : UInt8) : Prop where
  str2num : v.toInt = scaledValue p.text
  pow : (nmeaPow 10 (dx + 2)).toNat = 10 ^ (dx.toNat + 2)
  product : (v.toUInt32 / nmeaPow 10 (dx + 2) * nmeaPow 10 5).toNat = p.degrees * 10 ^ 5

/-- The two position members. -/
inductive Axis
  | latitude
  | longitude
  deriving DecidableEq, Repr

/-- The field of `$GNRMC`. -/
def Axis.field : Axis → UInt8
  | .latitude => 3
  | .longitude => 5

/-- The greatest number of degrees. -/
def Axis.maxDegrees : Axis → Nat
  | .latitude => 90
  | .longitude => 180

/-- The member. -/
def Axis.get (gpsx : NmeaMsg) : Axis → UInt32
  | .latitude => gpsx.latitude
  | .longitude => gpsx.longitude

/-! ### The scaled integer -/

namespace PositionField

/-- The decimals that are kept are the ones of the field. -/
theorem fieldDecimals_text (p : PositionField) : fieldDecimals p.text = p.decimals :=
  p.number.fieldDecimals_text

/-- The length of the kept decimals. -/
theorem length_take_frac (p : PositionField) : (p.frac.take 5).length = p.decimals := by
  rw [List.length_take, decimals]

/-- The value of the field. -/
theorem scaledValue_text (p : PositionField) : scaledValue p.text = p.scaled := by
  have hlen : (p.mins ++ p.frac.take 5).length = p.decimals + 2 := by
    rw [List.length_append, p.length_take_frac, p.mins_length, Nat.add_comm]
  rw [text, p.number.scaledValue_text]
  show (1 : Int) * (decVal ((p.deg ++ p.mins) ++ p.frac.take 5) : Nat) = _
  rw [Int.one_mul, List.append_assoc, decVal_append, hlen]
  rfl

/-- The minutes are less than sixty. -/
theorem scaledMinutes_lt (p : PositionField) : p.scaledMinutes < 60 * 10 ^ p.decimals := by
  have hfrac := decVal_lt (p.frac.take 5) fun b hb => p.frac_digits b (List.mem_of_mem_take hb)
  have hmin := p.mins_lt
  rw [p.length_take_frac] at hfrac
  rw [scaledMinutes, decVal_append, p.length_take_frac]
  calc decVal p.mins * 10 ^ p.decimals + decVal (p.frac.take 5)
      < decVal p.mins * 10 ^ p.decimals + 10 ^ p.decimals := by omega
    _ = (decVal p.mins + 1) * 10 ^ p.decimals := by ring
    _ ≤ 60 * 10 ^ p.decimals := Nat.mul_le_mul_right _ (by omega)

/-- **The margin**: the scaled integer fits into an `int`. -/
theorem scaled_lt (p : PositionField) (hdeg : p.degrees ≤ 180) : p.scaled < 2 ^ 31 := by
  have hmin := p.scaledMinutes_lt
  have hpow : 10 ^ p.decimals ≤ 10 ^ 5 :=
    Nat.pow_le_pow_right (by decide) (Nat.min_le_left _ _)
  -- In front of the decimals stand at most 18000 for the degrees, and less than sixty minutes.
  have hprod : p.degrees * 10 ^ (p.decimals + 2) ≤ 18000 * 10 ^ p.decimals := by
    rw [pow_add]
    calc p.degrees * (10 ^ p.decimals * 10 ^ 2)
        = p.degrees * 100 * 10 ^ p.decimals := by ring
      _ ≤ 18000 * 10 ^ p.decimals := Nat.mul_le_mul_right _ (by omega)
  rw [scaled]
  omega

/-- The degrees are found again. -/
theorem scaled_div (p : PositionField) : p.scaled / 10 ^ (p.decimals + 2) = p.degrees := by
  have hmin := p.scaledMinutes_lt
  have hlt : p.scaledMinutes < 10 ^ (p.decimals + 2) := by
    rw [pow_add]
    omega
  rw [scaled, Nat.add_comm, Nat.add_mul_div_right _ _ (by positivity), Nat.div_eq_of_lt hlt,
    Nat.zero_add]

/-- And so are the minutes. -/
theorem scaled_mod (p : PositionField) : p.scaled % 10 ^ (p.decimals + 2) = p.scaledMinutes := by
  have hmin := p.scaledMinutes_lt
  have hlt : p.scaledMinutes < 10 ^ (p.decimals + 2) := by
    rw [pow_add]
    omega
  rw [scaled, Nat.add_comm, Nat.add_mul_mod_self_right, Nat.mod_eq_of_lt hlt]

/-- The minutes with five decimals. -/
theorem minutes_eq (p : PositionField) :
    (10 ^ 5 * p.minutes : Rat) = p.scaledMinutes * 10 ^ (5 - p.decimals) := by
  have hle : p.decimals ≤ 5 := Nat.min_le_left _ _
  have hpow : (10 ^ 5 : Rat) = 10 ^ p.decimals * 10 ^ (5 - p.decimals) := by
    rw [← pow_add, Nat.add_sub_cancel' hle]
  have hne : (10 ^ p.decimals : Rat) ≠ 0 := by positivity
  rw [scaledMinutes, decVal_append, p.length_take_frac, minutes, hpow]
  push_cast
  field_simp

/-- The minutes as a fraction of a degree. -/
theorem minutes_nonneg (p : PositionField) : (0 : Rat) ≤ 10 ^ 5 * p.minutes / 60 := by
  rw [p.minutes_eq]
  positivity

/-- The position is not negative. -/
theorem hundredThousandths_nonneg (p : PositionField) : 0 ≤ p.hundredThousandths := by
  have hmin := p.minutes_nonneg
  exact Int.floor_nonneg.mpr (by positivity)

/-- The position is less than the next whole degree. -/
theorem hundredThousandths_lt (p : PositionField) (hdeg : p.degrees ≤ 180) :
    p.hundredThousandths < 181 * 10 ^ 5 := by
  have hle : p.decimals ≤ 5 := Nat.min_le_left _ _
  have hmin : p.scaledMinutes * 10 ^ (5 - p.decimals) < 60 * 10 ^ 5 := by
    calc p.scaledMinutes * 10 ^ (5 - p.decimals)
        < 60 * 10 ^ p.decimals * 10 ^ (5 - p.decimals) :=
          Nat.mul_lt_mul_of_pos_right p.scaledMinutes_lt (by positivity)
      _ = 60 * 10 ^ 5 := by
          rw [Nat.mul_assoc, ← pow_add, Nat.add_sub_cancel' hle]
  -- less than sixty minutes, so the fraction of a degree is less than one
  have hmin' : (10 ^ 5 * p.minutes : Rat) < 60 * 10 ^ 5 := by
    rw [p.minutes_eq]
    exact_mod_cast hmin
  have hdeg' : (p.degrees : Rat) ≤ 180 := by exact_mod_cast hdeg
  rw [hundredThousandths, Int.floor_lt]
  push_cast
  linarith

end PositionField

/-! ### The conversion -/

/-- What `NMEA_Str2num` returns for the field, as the `rt_uint32_t` it is stored into. -/
theorem PositionField.toNat_temp (p : PositionField) (hdeg : p.degrees ≤ 180) :
    (Int32.ofInt (scaledValue p.text)).toUInt32.toNat = p.scaled := by
  have h := toNat_toUInt32_ofInt (scaledValue p.text)
  have hlt := p.scaled_lt hdeg
  rw [p.scaledValue_text] at h ⊢
  omega

/-- The decimals as the `rt_uint8_t` that `*dx` is. -/
theorem PositionField.toNat_decimals (p : PositionField) :
    (UInt8.ofNat p.decimals).toNat = p.decimals ∧ (UInt8.ofNat p.decimals + 2).toNat
      = p.decimals + 2 ∧ (5 - UInt8.ofNat p.decimals).toNat = 5 - p.decimals := by
  have hle : p.decimals ≤ 5 := Nat.min_le_left _ _
  interval_cases p.decimals <;> decide

/-- The degrees and the minutes as the code takes them apart. -/
theorem PositionField.toNat_parts (p : PositionField) (hdeg : p.degrees ≤ 180) :
    ((Int32.ofInt (scaledValue p.text)).toUInt32 / nmeaPow 10 (UInt8.ofNat p.decimals + 2)
        * nmeaPow 10 5).toNat = p.degrees * 10 ^ 5
      ∧ ((Int32.ofInt (scaledValue p.text)).toUInt32
        % nmeaPow 10 (UInt8.ofNat p.decimals + 2)).toNat = p.scaledMinutes := by
  have hle : p.decimals ≤ 5 := Nat.min_le_left _ _
  obtain ⟨-, hdx, -⟩ := p.toNat_decimals
  have hpow : (nmeaPow 10 (UInt8.ofNat p.decimals + 2)).toNat = 10 ^ (p.decimals + 2) := by
    rw [toNat_nmeaPow (by omega), hdx]
  have hfive : (nmeaPow 10 5).toNat = 10 ^ 5 := toNat_nmeaPow (by decide)
  constructor
  · rw [UInt32.toNat_mul, UInt32.toNat_div, p.toNat_temp hdeg, hpow, p.scaled_div, hfive]
    exact Nat.mod_eq_of_lt (by omega)
  · rw [UInt32.toNat_mod, p.toNat_temp hdeg, hpow, p.scaled_mod]

/-- No intermediate of the conversion overflows. -/
theorem PositionField.noOverflow (p : PositionField) (hdeg : p.degrees ≤ 180) :
    NoOverflow p (Int32.ofInt (scaledValue p.text)) (UInt8.ofNat p.decimals) where
  str2num := by
    have hlt := p.scaled_lt hdeg
    rw [p.scaledValue_text]
    exact Int32.toInt_ofInt_of_le (by omega) (by omega)
  pow := by
    have hle : p.decimals ≤ 5 := Nat.min_le_left _ _
    obtain ⟨hdec, hdx, -⟩ := p.toNat_decimals
    rw [toNat_nmeaPow (by omega), hdx, hdec]
  product := (p.toNat_parts hdeg).1

/-- The conversion is exact. -/
theorem PositionField.toDegrees_text (p : PositionField) (hdeg : p.degrees ≤ 180) :
    ((toDegrees .exact (Int32.ofInt (scaledValue p.text)).toUInt32
      (UInt8.ofNat p.decimals)).toNat : Int) = p.hundredThousandths := by
  have hle : p.decimals ≤ 5 := Nat.min_le_left _ _
  obtain ⟨-, -, hexp⟩ := p.toNat_decimals
  obtain ⟨hwhole, hrs⟩ := p.toNat_parts hdeg
  have hpow : (nmeaPow 10 (5 - UInt8.ofNat p.decimals)).toNat = 10 ^ (5 - p.decimals) := by
    rw [toNat_nmeaPow (by omega), hexp]
  -- The sum the code stores is the position, before it is cut.
  have hsum : toDegrees .exact (Int32.ofInt (scaledValue p.text)).toUInt32
        (UInt8.ofNat p.decimals)
      = floatToUInt32 (10 ^ 5 * p.degrees + 10 ^ 5 * p.minutes / 60) := by
    rw [p.minutes_eq]
    simp only [toDegrees, Rounding.exact, id, hwhole, hrs, hpow]
    push_cast
    ring_nf
  have hnonneg := p.hundredThousandths_nonneg
  have hlt := p.hundredThousandths_lt hdeg
  rw [hsum, floatToUInt32]
  change ((UInt32.ofNat (min p.hundredThousandths.toNat (2 ^ 32 - 1))).toNat : Int) = _
  rw [Nat.min_eq_left (by omega), UInt32.toNat_ofNat', Nat.mod_eq_of_lt (by omega)]
  exact Int.toNat_of_nonneg hnonneg

/-- Both axes are within half a turn. -/
theorem Axis.maxDegrees_le (axis : Axis) : axis.maxDegrees ≤ 180 := by
  cases axis <;> decide

/-- A position member after the sentence. -/
theorem Axis.get_gnrmcStored (axis : Axis) (fl : Rounding)
    (reading : Nat → Option (Int32 × UInt8)) (byte : Nat → Option UInt8) (gpsx : NmeaMsg) :
    axis.get (gnrmcStored fl reading byte gpsx)
      = (reading axis.field.toNat).elim (axis.get gpsx)
        fun v => toDegrees fl v.1.toUInt32 v.2 := by
  cases axis <;> rfl

/-- The latitude of `fixLine`. -/
def fixLatitude : PositionField where
  deg := ascii "42"
  mins := ascii "50"
  frac := ascii "5589"
  deg_ne := by decide
  deg_digits := by decide
  mins_digits := by decide
  frac_digits := by decide
  mins_length := by decide
  mins_lt := by decide

end CarLocator.Gps
