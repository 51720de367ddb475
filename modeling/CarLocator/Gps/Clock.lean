import CarLocator.Gps.Fix

/-!
# `CarLocator.Gps.Clock`: the UTC time and date

A receiver sends the time as `hhmmss` or `hhmmss.f...f` (`TimeField`) and the date as `ddmmyy`
(`DateField`). `NMEA_GNRMC_Analysis` reads both as integers and takes them apart in groups of
two digits. For the time it divides the decimals away first.

Up to five decimals are in the integer before they are divided away, and it has 32 bits.
`utc_exact_iff` says which times survive: all of them with fewer than five decimals, and those
before 04:29:49.67296 with more. The result of `NMEA_Str2num` is an `int`, but it is put back
into an `rt_uint32_t` at once, so that `2 ^ 31` is not the limit.
-/

set_option autoImplicit false

namespace CarLocator.Gps

open CarLocator.Library

/-! ### Time and date fields -/

/-- Two digits. -/
structure TwoDigits where
  text : Bytes
  digits : ∀ b ∈ text, isDigit b = true
  length_eq : text.length = 2

/-- Their value. -/
def TwoDigits.value (d : TwoDigits) : Nat := decVal d.text

/-- A field `hhmmss` or `hhmmss.f...f`, up to the leap second. -/
structure TimeField where
  hh : TwoDigits
  mm : TwoDigits
  ss : TwoDigits
  frac : Bytes
  hh_lt : hh.value < 24
  mm_lt : mm.value < 60
  ss_le : ss.value ≤ 60
  frac_digits : ∀ b ∈ frac, isDigit b = true

/-- A field `ddmmyy`. -/
structure DateField where
  dd : TwoDigits
  mm : TwoDigits
  yy : TwoDigits
  dd_range : 1 ≤ dd.value ∧ dd.value ≤ 31
  mm_range : 1 ≤ mm.value ∧ mm.value ≤ 12

/-- Three groups of two digits, with decimals. -/
def groupsNumber (a b c : TwoDigits) (frac : Bytes)
    (hfrac : ∀ x ∈ frac, isDigit x = true) : Number where
  neg := false
  int := a.text ++ b.text ++ c.text
  frac := frac
  int_ne h := by
    have hlen := congrArg List.length h
    simp only [List.length_append, a.length_eq, b.length_eq, c.length_eq, List.length_nil,
      reduceCtorEq] at hlen
  int_digits x hx := by
    simp only [List.mem_append] at hx
    rcases hx with (hx | hx) | hx
    · exact a.digits x hx
    · exact b.digits x hx
    · exact c.digits x hx
  frac_digits := hfrac

/-- The text of the time. -/
def TimeField.text (t : TimeField) : Bytes :=
  (groupsNumber t.hh t.mm t.ss t.frac t.frac_digits).text

/-- The text of the date. -/
def DateField.text (d : DateField) : Bytes :=
  (groupsNumber d.dd d.mm d.yy [] (by simp)).text

/-- The members of `utc` show the time and the date. -/
structure ShowsClock (t : TimeField) (d : DateField) (utc : NmeaUtcTime) : Prop where
  hour : utc.hour.toNat = t.hh.value
  min : utc.min.toNat = t.mm.value
  sec : utc.sec.toNat = t.ss.value
  date : utc.date.toNat = d.dd.value
  month : utc.month.toNat = d.mm.value
  year : utc.year.toNat = 2000 + d.yy.value

/-- The times that survive: with fewer than five decimals, or with the digits `hhmmssfffff`
below `2 ^ 32`, which is before 04:29:49.67296. -/
def TimeField.Fits (t : TimeField) : Prop :=
  t.frac.length < 5
    ∨ decVal (t.hh.text ++ t.mm.text ++ t.ss.text ++ t.frac.take 5) < 2 ^ 32

instance (t : TimeField) : Decidable t.Fits :=
  inferInstanceAs (Decidable (_ ∨ _))

/-! ### Groups of two digits -/

/-- Two digits are less than a hundred. -/
theorem TwoDigits.value_lt (d : TwoDigits) : d.value < 100 := by
  have h := decVal_lt d.text d.digits
  rwa [d.length_eq] at h

/-- The value of three groups. -/
theorem decVal_groups (a b c : TwoDigits) :
    decVal (a.text ++ b.text ++ c.text) = a.value * 10000 + b.value * 100 + c.value := by
  rw [decVal_append, decVal_append, b.length_eq, c.length_eq]
  simp only [TwoDigits.value]
  omega

/-- The value of a field of three groups. -/
theorem scaledValue_groups (a b c : TwoDigits) (frac : Bytes)
    (hfrac : ∀ x ∈ frac, isDigit x = true) :
    scaledValue (groupsNumber a b c frac hfrac).text
      = (decVal (a.text ++ b.text ++ c.text ++ frac.take 5) : Nat) := by
  rw [Number.scaledValue_text]
  exact Int.one_mul _

/-! ### The integers the code takes apart -/

/-- The time as six digits. -/
def TimeField.hhmmss (t : TimeField) : Nat :=
  t.hh.value * 10000 + t.mm.value * 100 + t.ss.value

/-- The time with the decimals that are kept. -/
theorem TimeField.scaled_bounds (t : TimeField) :
    ∃ scaled : Nat, scaledValue t.text = scaled
      ∧ scaled = decVal (t.hh.text ++ t.mm.text ++ t.ss.text ++ t.frac.take 5)
      ∧ t.hhmmss * 10 ^ min 5 t.frac.length ≤ scaled
      ∧ scaled < (t.hhmmss + 1) * 10 ^ min 5 t.frac.length := by
  have hfrac := decVal_lt (t.frac.take 5) fun b hb => t.frac_digits b (List.mem_of_mem_take hb)
  refine ⟨_, scaledValue_groups t.hh t.mm t.ss t.frac t.frac_digits, rfl, ?_, ?_⟩
  all_goals rw [decVal_append, decVal_groups, List.length_take]
  · exact Nat.le_add_right _ _
  · rw [List.length_take] at hfrac
    rw [← TimeField.hhmmss, Nat.add_mul, Nat.one_mul]
    exact Nat.add_lt_add_left hfrac _

/-- What `NMEA_GNRMC_Analysis` takes the time apart from: the `temp` of the source. -/
def TimeField.temp (t : TimeField) : UInt32 :=
  (Int32.ofInt (scaledValue t.text)).toUInt32 / nmeaPow 10 (UInt8.ofNat (fieldDecimals t.text))

/-- It is the integer modulo `2 ^ 32`, without the decimals. -/
theorem TimeField.toNat_temp (t : TimeField) {scaled : Nat} (h : scaledValue t.text = scaled) :
    t.temp.toNat = scaled % 2 ^ 32 / 10 ^ min 5 t.frac.length := by
  have htemp := toNat_toUInt32_ofInt (scaledValue t.text)
  have hle : min 5 t.frac.length ≤ 5 := Nat.min_le_left _ _
  have hdx : (UInt8.ofNat (fieldDecimals t.text)).toNat = min 5 t.frac.length := by
    rw [toNat_fieldDecimals]
    exact Number.fieldDecimals_text _
  rw [h] at htemp
  have hmod : (Int32.ofInt scaled).toUInt32.toNat = scaled % 2 ^ 32 := by omega
  rw [TimeField.temp, UInt32.toNat_div, toNat_nmeaPow (by omega), hdx, h, hmod]

/-- It is never later than the time. -/
theorem TimeField.temp_le (t : TimeField) : t.temp.toNat ≤ t.hhmmss := by
  obtain ⟨scaled, hval, -, -, hhigh⟩ := t.scaled_bounds
  rw [t.toNat_temp hval, ← Nat.lt_succ_iff, Nat.div_lt_iff_lt_mul (by positivity)]
  exact Nat.lt_of_le_of_lt (Nat.mod_le _ _) hhigh

/-- The time is found again exactly when it fits into 32 bits. Otherwise what is left of it is
earlier by at least 04:29:49. -/
theorem TimeField.temp_eq_iff (t : TimeField) : t.temp.toNat = t.hhmmss ↔ t.Fits := by
  obtain ⟨scaled, hval, hdec, hlow, hhigh⟩ := t.scaled_bounds
  have hlt : t.hhmmss < 235961 := by
    have hhh := t.hh_lt
    have hmm := t.mm_lt
    have hss := t.ss_le
    unfold TimeField.hhmmss
    omega
  rw [t.toNat_temp hval, TimeField.Fits, ← hdec, Nat.div_eq_iff (by positivity)]
  by_cases hfive : t.frac.length < 5
  · -- at most 235960 and four decimals, which is below 2 ^ 32
    have hmono : 10 ^ min 5 t.frac.length ≤ 10 ^ 4 :=
      Nat.pow_le_pow_right (by decide) (by omega)
    have hfits : scaled < 2 ^ 32 :=
      Nat.lt_of_lt_of_le hhigh (Nat.le_trans (Nat.mul_le_mul hlt hmono) (by decide))
    rw [Nat.add_mul, Nat.one_mul] at hhigh
    rw [Nat.mod_eq_of_lt hfits]
    omega
  · -- With five decimals a wrap takes at least 42949 off the six digits.
    rw [Nat.min_eq_left (by omega)] at *
    omega

/-- The date is found again. -/
theorem DateField.toNat_temp (d : DateField) :
    (Int32.ofInt (scaledValue d.text)).toUInt32.toNat
      = d.dd.value * 10000 + d.mm.value * 100 + d.yy.value := by
  have h := toNat_toUInt32_ofInt (scaledValue d.text)
  have hdd := d.dd.value_lt
  have hmm := d.mm.value_lt
  have hyy := d.yy.value_lt
  rw [DateField.text, scaledValue_groups, List.take_nil, List.append_nil, decVal_groups] at h ⊢
  omega

/-! ### The clock -/

/-- The members of the time, from the integer that is taken apart. -/
theorem withTime_utc (gpsx : NmeaMsg) (v : Int32) (dx : UInt8) (n : Nat)
    (h : (v.toUInt32 / nmeaPow 10 dx).toNat = n) :
    (withTime gpsx v dx).utc.hour.toNat = n / 10000 % 256
      ∧ (withTime gpsx v dx).utc.min.toNat = n / 100 % 100
      ∧ (withTime gpsx v dx).utc.sec.toNat = n % 100 := by
  simp only [withTime, UInt32.toNat_toUInt8, UInt32.toNat_div, UInt32.toNat_mod,
    UInt32.reduceToNat] at h ⊢
  rw [h]
  omega

/-- The members of the date. -/
theorem withDate_utc (gpsx : NmeaMsg) (v : Int32) (n : Nat) (h : v.toUInt32.toNat = n) :
    (withDate gpsx v).utc.date.toNat = n / 10000 % 256
      ∧ (withDate gpsx v).utc.month.toNat = n / 100 % 100
      ∧ (withDate gpsx v).utc.year.toNat = 2000 + n % 100 := by
  simp only [withDate, UInt32.toNat_toUInt8, UInt32.toNat_toUInt16, UInt32.toNat_add,
    UInt32.toNat_div, UInt32.toNat_mod, UInt32.reduceToNat]
  rw [h]
  omega

/-- The members after the sentence show the clock exactly when the time is found again. -/
theorem showsClock_iff (fl : Rounding) (reading : Nat → Option (Int32 × UInt8))
    (byte : Nat → Option UInt8) (gpsx : NmeaMsg) (t : TimeField) (d : DateField)
    (htime : reading 1 = some (Int32.ofInt (scaledValue t.text),
      UInt8.ofNat (fieldDecimals t.text)))
    (hdate : reading 9 = some (Int32.ofInt (scaledValue d.text),
      UInt8.ofNat (fieldDecimals d.text))) :
    ShowsClock t d (gnrmcStored fl reading byte gpsx).utc ↔ t.Fits := by
  obtain ⟨hhour, hmin, hsec⟩ := withTime_utc gpsx (Int32.ofInt (scaledValue t.text))
    (UInt8.ofNat (fieldDecimals t.text)) t.temp.toNat rfl
  obtain ⟨hdd, hmonth, hyear⟩ := withDate_utc gpsx _ _ d.toNat_temp
  have hutc : (gnrmcStored fl reading byte gpsx).utc = {
      year := (withDate gpsx (Int32.ofInt (scaledValue d.text))).utc.year
      month := (withDate gpsx (Int32.ofInt (scaledValue d.text))).utc.month
      date := (withDate gpsx (Int32.ofInt (scaledValue d.text))).utc.date
      hour := (withTime gpsx (Int32.ofInt (scaledValue t.text))
        (UInt8.ofNat (fieldDecimals t.text))).utc.hour
      min := (withTime gpsx (Int32.ofInt (scaledValue t.text))
        (UInt8.ofNat (fieldDecimals t.text))).utc.min
      sec := (withTime gpsx (Int32.ofInt (scaledValue t.text))
        (UInt8.ofNat (fieldDecimals t.text))).utc.sec } := by
    simp only [gnrmcStored, htime, hdate, Option.elim_some]
  have hdv := d.dd.value_lt
  have hmv := d.mm.value_lt
  have hyv := d.yy.value_lt
  have htmm := t.mm.value_lt
  have htss := t.ss.value_lt
  have hthh := t.hh_lt
  have hle := t.temp_le
  rw [← t.temp_eq_iff, hutc]
  unfold TimeField.hhmmss at *
  constructor
  · rintro ⟨h₁, h₂, h₃, -, -, -⟩
    rw [hhour] at h₁
    rw [hmin] at h₂
    rw [hsec] at h₃
    omega
  · intro h
    rw [h] at hhour hmin hsec
    refine ⟨hhour.trans ?_, hmin.trans ?_, hsec.trans ?_, hdd.trans ?_, hmonth.trans ?_,
      hyear.trans ?_⟩ <;> omega

/-- The time of `fixLine`. -/
def fixTime : TimeField where
  hh := ⟨ascii "09", by decide, rfl⟩
  mm := ⟨ascii "22", by decide, rfl⟩
  ss := ⟨ascii "04", by decide, rfl⟩
  frac := ascii "999"
  hh_lt := by decide
  mm_lt := by decide
  ss_le := by decide
  frac_digits := by decide

/-- The date of `fixLine`. -/
def fixDate : DateField where
  dd := ⟨ascii "21", by decide, rfl⟩
  mm := ⟨ascii "12", by decide, rfl⟩
  yy := ⟨ascii "00", by decide, rfl⟩
  dd_range := by decide
  mm_range := by decide

/-- A time with five decimals. -/
def fiveDecimals : TimeField where
  hh := ⟨ascii "12", by decide, rfl⟩
  mm := ⟨ascii "34", by decide, rfl⟩
  ss := ⟨ascii "56", by decide, rfl⟩
  frac := ascii "78901"
  hh_lt := by decide
  mm_lt := by decide
  ss_le := by decide
  frac_digits := by decide

/-- A line with this time. -/
def fiveDecimalsLine : Sentence where
  tag := .gnrmc
  fields := [ascii "123456.78901", ascii "A", ascii "4250.5589", ascii "S",
    ascii "14718.5084", ascii "E", ascii "0.00", ascii "89.68", ascii "211200", [], []]
  checksum := ascii "3F"
  field_bytes := by decide
  no_gnrmc := by decide
  checksum_hex := by decide
  checksum_length := by decide
  length_lt := by decide

end CarLocator.Gps
