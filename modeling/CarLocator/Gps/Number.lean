import CarLocator.Gps.Nmea
import CarLocator.Library.Decimal

/-!
# `CarLocator.Gps.Number`: what `NMEA_Str2num` reads

A number field has the form `-?digits(.digits+)?`: a `Number` is such a text in its parts.
`scaledValue` says what the text is worth, scaled by ten to the number of its decimals and
cut after five of them (`fieldDecimals`). It reads any bytes, and the empty field is worth
zero.

The powers of ten and the sums of `NMEA_Str2num` wrap on the way, so the digit loop is
computed modulo `2 ^ 32` throughout (`nmeaDigits_take`), by an induction over the bytes
already summed up, each worth its power of ten. Below it is what the scan loop does at a
single byte. `CarLocator.Gps.Scan` goes on from there.
-/

set_option autoImplicit false

namespace CarLocator.Gps

open CarLocator.Library

/-- A text of the form `-?digits(.digits+)?`, in its parts. -/
structure Number where
  neg : Bool
  int : Bytes
  frac : Bytes
  int_ne : int ≠ []
  int_digits : ∀ b ∈ int, isDigit b = true
  frac_digits : ∀ b ∈ frac, isDigit b = true

/-- The sign, the digits, and the point with the decimals. -/
def numberText (neg : Bool) (int frac : Bytes) : Bytes :=
  (if neg then [45] else []) ++ (int ++ (if frac = [] then [] else 46 :: frac))

/-- The text of a number. -/
def Number.text (n : Number) : Bytes := numberText n.neg n.int n.frac

/-- A field that holds a number. -/
def IsNumeric (f : Bytes) : Prop := ∃ n : Number, n.text = f

/-- A field `NMEA_Str2num` is meant for: empty or a number. -/
def IsNumberField (f : Bytes) : Prop := f = [] ∨ IsNumeric f

/-- The field starts with a minus sign. -/
def isNegative (f : Bytes) : Bool := f.head? == some 45

/-- The field behind its sign. -/
def unsigned (f : Bytes) : Bytes := if isNegative f then f.drop 1 else f

/-- The digits before the point. -/
def intDigits (f : Bytes) : Bytes := (unsigned f).takeWhile isDigit

/-- The digits behind the point. -/
def fracDigits (f : Bytes) : Bytes := ((unsigned f).dropWhile isDigit).drop 1

/-- How many decimals count: five at most. -/
def fieldDecimals (f : Bytes) : Nat := min 5 (fracDigits f).length

/-- The value of the field times `10 ^ fieldDecimals`, cut after five decimals. -/
def scaledValue (f : Bytes) : Int :=
  (if isNegative f then -1 else 1) * (decVal (intDigits f ++ (fracDigits f).take 5) : Nat)

/-! ### The parts of a number are found again -/

/-- A digit is not the minus sign. -/
theorem ne_minus_of_isDigit {b : UInt8} (h : isDigit b = true) : b ≠ 45 := by
  rintro rfl
  exact absurd h (by decide)

/-- The first byte behind the sign is a digit. -/
theorem Number.head_digit (n : Number) :
    ∃ d ds, n.int = d :: ds ∧ isDigit d = true := by
  cases h : n.int with
  | nil => exact absurd h n.int_ne
  | cons d ds => exact ⟨d, ds, rfl, n.int_digits d (by simp [h])⟩

/-- The sign is found again. -/
theorem isNegative_text (n : Number) : isNegative n.text = n.neg := by
  obtain ⟨d, ds, hint, hd⟩ := n.head_digit
  cases hneg : n.neg with
  | true => simp [Number.text, numberText, hneg, isNegative]
  | false => simp [Number.text, numberText, hneg, isNegative, hint, ne_minus_of_isDigit hd]

/-- The digits are what follows the sign. -/
theorem unsigned_text (n : Number) :
    unsigned n.text = n.int ++ (if n.frac = [] then [] else 46 :: n.frac) := by
  unfold unsigned
  rw [isNegative_text]
  cases hneg : n.neg <;> simp [Number.text, numberText, hneg]

/-- The digits before the point are found again. -/
theorem intDigits_text (n : Number) : intDigits n.text = n.int := by
  rw [intDigits, unsigned_text, List.takeWhile_append_of_pos n.int_digits]
  split
  · simp
  · rw [List.takeWhile_cons_of_neg (by decide), List.append_nil]

/-- The digits behind the point are found again. -/
theorem fracDigits_text (n : Number) : fracDigits n.text = n.frac := by
  rw [fracDigits, unsigned_text, List.dropWhile_append_of_pos n.int_digits]
  split
  · rename_i h
    simp [h]
  · rw [List.dropWhile_cons_of_neg (by decide), List.drop_one, List.tail_cons]

/-- A numeric field is recognised by its parts. -/
theorem isNumeric_iff (f : Bytes) :
    IsNumeric f ↔ intDigits f ≠ [] ∧ (∀ b ∈ fracDigits f, isDigit b = true)
      ∧ numberText (isNegative f) (intDigits f) (fracDigits f) = f := by
  constructor
  · rintro ⟨n, rfl⟩
    rw [intDigits_text, fracDigits_text, isNegative_text]
    exact ⟨n.int_ne, n.frac_digits, rfl⟩
  · rintro ⟨hint, hfrac, htext⟩
    have hdigits : ∀ b ∈ intDigits f, isDigit b = true := by
      intro b hb
      exact List.all_eq_true.mp List.all_takeWhile b hb
    exact ⟨⟨isNegative f, intDigits f, fracDigits f, hint, hdigits, hfrac⟩, htext⟩

instance (f : Bytes) : Decidable (IsNumeric f) := decidable_of_iff _ (isNumeric_iff f).symm

instance (f : Bytes) : Decidable (IsNumberField f) :=
  inferInstanceAs (Decidable (f = [] ∨ IsNumeric f))

/-- The digits that `NMEA_Str2num` keeps. -/
def Number.kept (n : Number) : Nat := decVal (n.int ++ n.frac.take 5)

/-- What a number is worth. -/
theorem Number.scaledValue_text (n : Number) :
    scaledValue n.text = (if n.neg then -1 else 1) * (n.kept : Int) := by
  rw [scaledValue, isNegative_text, intDigits_text, fracDigits_text, Number.kept]

/-- And the scale of it. -/
theorem Number.fieldDecimals_text (n : Number) : fieldDecimals n.text = min 5 n.frac.length := by
  rw [fieldDecimals, fracDigits_text]

/-- The scale fits into `*dx`. -/
theorem toNat_fieldDecimals (f : Bytes) :
    (UInt8.ofNat (fieldDecimals f)).toNat = fieldDecimals f := by
  have hle : fieldDecimals f ≤ 5 := Nat.min_le_left _ _
  rw [UInt8.toNat_ofNat', Nat.mod_eq_of_lt (by omega)]

/-- The value times `10 ^ k`, truncated towards zero. -/
def Number.truncated (n : Number) (k : Nat) : Int :=
  (if n.neg then -1 else 1) * (decVal (n.int ++ n.frac) * 10 ^ k / 10 ^ n.frac.length : Nat)

/-- For a scale up to five decimals the digits that are kept are enough. -/
theorem Number.truncated_eq (n : Number) {k : Nat} (hk : k ≤ 5) :
    n.truncated k = (if n.neg then -1 else 1)
      * (n.kept * 10 ^ k / 10 ^ min 5 n.frac.length : Nat) := by
  rw [Number.truncated, Number.kept]
  by_cases hlen : n.frac.length ≤ 5
  · rw [List.take_of_length_le hlen, Nat.min_eq_right hlen]
  · have hdrop : ∀ b ∈ n.frac.drop 5, isDigit b = true := fun b hb =>
      n.frac_digits b (List.mem_of_mem_drop hb)
    -- The decimals that are cut off do not reach a scale of five.
    have hcut := decVal_append_rescale (n.int ++ n.frac.take 5) hdrop hk
    rw [List.append_assoc, List.take_append_drop, List.length_drop,
      Nat.add_sub_cancel' (by omega)] at hcut
    rw [hcut, Nat.min_eq_left (by omega)]

/-- The digits that are kept are the value at their own scale. -/
theorem Number.truncated_fieldDecimals (n : Number) :
    n.truncated (min 5 n.frac.length) = scaledValue n.text := by
  rw [n.truncated_eq (Nat.min_le_left _ _), n.scaledValue_text,
    Nat.mul_div_cancel _ (by positivity)]

/-- The digits are part of the text. -/
theorem Number.length_digits_le (n : Number) :
    n.int.length + n.frac.length ≤ n.text.length := by
  have hfrac : n.frac.length ≤ (if n.frac = [] then [] else 46 :: n.frac).length := by
    split
    · rename_i h
      rw [h]
    · exact Nat.le_succ _
  rw [Number.text, numberText, List.length_append, List.length_append]
  omega

/-! ### The powers of ten and the digit loop -/

/-- The loop of `NMEA_Pow`. -/
theorem nmeaPowLoop_eq (m : UInt8) (n : Nat) (r : UInt32) :
    nmeaPowLoop m n r = r * UInt32.ofNat (m.toNat ^ n) := by
  induction n generalizing r with
  | zero => simp [nmeaPowLoop]
  | succ n ih =>
      have hm : m.toUInt32 = UInt32.ofNat m.toNat := by
        apply UInt32.toNat_inj.mp
        have := m.toNat_lt
        rw [UInt8.toNat_toUInt32, UInt32.toNat_ofNat', Nat.mod_eq_of_lt (by omega)]
      rw [nmeaPowLoop, ih, hm, pow_succ', UInt32.ofNat_mul, UInt32.mul_assoc]

/-- `NMEA_Pow` is the power modulo `2 ^ 32`. -/
theorem nmeaPow_eq (m n : UInt8) : nmeaPow m n = UInt32.ofNat (m.toNat ^ n.toNat) := by
  rw [nmeaPow, nmeaPowLoop_eq, UInt32.one_mul]

/-- `NMEA_Pow` with an exponent up to nine is exact. -/
theorem toNat_nmeaPow {n : UInt8} (hn : n.toNat ≤ 9) : (nmeaPow 10 n).toNat = 10 ^ n.toNat := by
  have hpow : 10 ^ n.toNat ≤ 10 ^ 9 := Nat.pow_le_pow_right (by decide) hn
  rw [nmeaPow_eq, show (10 : UInt8).toNat = 10 from rfl, UInt32.toNat_ofNat']
  exact Nat.mod_eq_of_lt (by omega)

/-- A natural number, modulo `2 ^ 32`. -/
theorem uint32_ofInt_natCast (n : Nat) : UInt32.ofInt n = UInt32.ofNat n := by
  apply UInt32.toNat_inj.mp
  simp only [UInt32.ofInt, UInt32.toNat_ofNat']
  omega

/-- A byte as the loop sees it. -/
theorem toUInt32_sub_eq_ofInt (b : UInt8) :
    b.toUInt32 - 48 = UInt32.ofInt ((b.toNat : Int) - 48) := by
  have hb : b.toUInt32 = UInt32.ofNat b.toNat := by
    apply UInt32.toNat_inj.mp
    have := b.toNat_lt
    rw [UInt8.toNat_toUInt32, UInt32.toNat_ofNat', Nat.mod_eq_of_lt (by omega)]
  rw [Int.sub_eq_add_neg, UInt32.ofInt_add, uint32_ofInt_natCast, ← hb, UInt32.sub_eq_add_neg]
  rfl

/-- The digit loop after `k` of `n` rounds: the first `k` bytes, each worth its power of
ten. -/
theorem nmeaDigits_prefix (buf : Bytes) (n : Nat) (hn : n ≤ buf.length) (hlen : n < 256) (k : Nat)
    (hk : k ≤ n) :
    (List.range k).foldlM (fun acc i => do
      let b ← buf[i]?
      pure (acc + nmeaPow 10 (UInt8.ofNat (n - 1 - i)) * (b.toUInt32 - 48)))
        (0 : UInt32)
      = some (UInt32.ofInt (rawVal (buf.take k) * (10 ^ (n - k) : Nat))) := by
  induction k with
  | zero =>
      rw [List.take_zero, show rawVal [] = 0 from rfl, Int.zero_mul]
      rfl
  | succ k ih =>
      have hget : buf[k]? = some buf[k] := List.getElem?_eq_getElem (by omega)
      have hpow : nmeaPow 10 (UInt8.ofNat (n - 1 - k))
          = UInt32.ofInt (10 ^ (n - (k + 1)) : Nat) := by
        rw [nmeaPow_eq, UInt8.toNat_ofNat', Nat.mod_eq_of_lt (by omega), uint32_ofInt_natCast,
          show n - 1 - k = n - (k + 1) from by omega]
        rfl
      have htake : rawVal (buf.take (k + 1))
          = rawVal (buf.take k) * 10 + ((buf[k].toNat : Int) - 48) := by
        rw [List.take_add_one, hget, Option.toList_some, rawVal_append_singleton]
      have hexp : n - k = n - (k + 1) + 1 := by omega
      rw [List.range_succ, List.foldlM_append, ih (by omega)]
      simp only [List.foldlM_cons, List.foldlM_nil, Option.bind_eq_bind, Option.bind_some,
        hget, toUInt32_sub_eq_ofInt, hpow, Option.pure_def]
      rw [← UInt32.ofInt_mul, ← UInt32.ofInt_add, htake, hexp, pow_succ]
      congr 2
      push_cast
      ring

/-- **The digit loops of `NMEA_Str2num`** compute the positional value of their bytes. -/
theorem nmeaDigits_take (buf : Bytes) (len : UInt8) (h : len.toNat ≤ buf.length) :
    nmeaDigits buf len = some (UInt32.ofInt (rawVal (buf.take len.toNat))) := by
  have hloop := nmeaDigits_prefix buf len.toNat h len.toNat_lt len.toNat (Nat.le_refl _)
  rw [Nat.sub_self, pow_zero, Nat.cast_one, Int.mul_one] at hloop
  exact hloop

/-! ### The scan -/

/-- The scan stops at the end of the field. -/
theorem nmeaScan_end {t : UInt8} (ht : t = 44 ∨ t = 42) (rest : Bytes) (s : NmeaScan) :
    nmeaScan (t :: rest) .round s = some s := by
  have h45 : t ≠ 45 := by rcases ht with rfl | rfl <;> decide
  simp [nmeaScan, h45, ht]

/-- A digit is counted. -/
theorem nmeaScan_digit {d : UInt8} (hd : isDigit d = true) (rest : Bytes) (s : NmeaScan) :
    nmeaScan (d :: rest) .round s = nmeaScan rest .round s.count := by
  have hb := (isDigit_iff d).mp hd
  have hne : ∀ c : UInt8, c.toNat < 48 → d ≠ c := by
    rintro c hc rfl
    omega
  have hlt : ¬ (d > 57 ∨ d < 48) := by
    rw [gt_iff_lt, UInt8.lt_iff_toNat_lt, UInt8.lt_iff_toNat_lt]
    have h57 : (57 : UInt8).toNat = 57 := rfl
    have h48 : (48 : UInt8).toNat = 48 := rfl
    omega
  simp [nmeaScan, hne 45 (by decide), hne 44 (by decide), hne 42 (by decide),
    hne 46 (by decide), hlt]

/-- A minus sign in front of a byte that is not another one. -/
theorem nmeaScan_minus {c : UInt8} (hc : c ≠ 45) (rest : Bytes) (s : NmeaScan) :
    nmeaScan (45 :: c :: rest) .round s
      = nmeaScan (c :: rest) .round { s with neg := true } := by
  simp [nmeaScan, hc]

/-- A decimal point and the byte behind it. -/
theorem nmeaScan_point (d : UInt8) (rest : Bytes) (s : NmeaScan) :
    nmeaScan (46 :: d :: rest) .round s
      = nmeaScan rest .round { s with point := true, flen := s.flen + 1 } := by
  simp [nmeaScan, NmeaScan.count]

end CarLocator.Gps
