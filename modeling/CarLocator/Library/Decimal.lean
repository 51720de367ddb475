import CarLocator.Library.CText
import Mathlib.Data.Nat.Digits.Lemmas

/-!
# `CarLocator.Library.Decimal`: numbers written as ASCII digits

`decVal` is the value of a string of decimal digits and `decimal` the digits of a number
without leading zeros. `decVal_decimal` is the round trip. `decVal_append` is the rule
that scanners and positional sums use: a digit string splits into a high and a low part,
and the high part is worth `10 ^ length` of the low one.

A number in a field of fixed width is `paddedDecimal`. Code that writes such a field digit by
digit, from the highest one on, leaves out the zeros in front: this is `suppressed`, over any
function that yields the digits, and `suppressed_eq_paddedDecimal` says that the true digits
give the field. `eq_zero_of_suppressed` reads the digits back off a field that starts with
padding.
-/

set_option autoImplicit false

namespace CarLocator.Library

/-- The ASCII digits `'0'..'9'`. -/
def isDigit (b : UInt8) : Bool := 48 ≤ b && b ≤ 57

/-- The value of a digit. -/
def digitVal (b : UInt8) : Nat := b.toNat - 48

/-- The digit of a value below ten. -/
def digitByte (d : Nat) : UInt8 := UInt8.ofNat (48 + d)

/-- The value of a string of digits, most significant first. -/
def decVal (ds : Bytes) : Nat := Nat.ofDigits 10 (ds.reverse.map digitVal)

/-- The positional value of any bytes, each worth its distance from `'0'`. -/
def rawVal (bs : Bytes) : Int := bs.foldl (fun v b => v * 10 + ((b.toNat : Int) - 48)) 0

/-- The decimal digits of a number, without leading zeros. -/
def decimal (n : Nat) : Bytes :=
  if n = 0 then [48] else (Nat.digits 10 n).reverse.map digitByte

/-- The bounds that `isDigit` tests. -/
theorem isDigit_iff (b : UInt8) : isDigit b = true ↔ 48 ≤ b.toNat ∧ b.toNat ≤ 57 := by
  simp only [isDigit, Bool.and_eq_true, decide_eq_true_eq, UInt8.le_iff_toNat_le]
  exact Iff.rfl

/-- A digit is worth less than ten. -/
theorem digitVal_lt {b : UInt8} (h : isDigit b = true) : digitVal b < 10 := by
  have := (isDigit_iff b).mp h
  unfold digitVal
  omega

@[simp]
theorem decVal_nil : decVal [] = 0 := rfl

@[simp]
theorem decVal_singleton (b : UInt8) : decVal [b] = digitVal b := by
  simp [decVal]

/-- A digit string in two parts. -/
theorem decVal_append (ds es : Bytes) :
    decVal (ds ++ es) = decVal ds * 10 ^ es.length + decVal es := by
  simp only [decVal, List.reverse_append, List.map_append, Nat.ofDigits_append,
    List.length_map, List.length_reverse]
  ring

/-- One more byte. -/
theorem rawVal_append_singleton (bs : Bytes) (b : UInt8) :
    rawVal (bs ++ [b]) = rawVal bs * 10 + ((b.toNat : Int) - 48) := by
  rw [rawVal, List.foldl_append]
  rfl

/-- On digits it is their value. -/
theorem rawVal_eq_decVal {ds : Bytes} (h : ∀ b ∈ ds, isDigit b = true) :
    rawVal ds = decVal ds := by
  induction ds using List.reverseRecOn with
  | nil => rfl
  | append_singleton ds b ih =>
      have hb := (isDigit_iff b).mp (h b (by simp))
      rw [rawVal_append_singleton, ih fun c hc => h c (by simp [hc]), decVal_append,
        decVal_singleton, digitVal, List.length_singleton, pow_one]
      push_cast [hb.1]
      ring

/-- A string of `n` digits is worth less than `10 ^ n`. -/
theorem decVal_lt (ds : Bytes) (h : ∀ b ∈ ds, isDigit b = true) :
    decVal ds < 10 ^ ds.length := by
  have hlt : ∀ d ∈ ds.reverse.map digitVal, d < 10 := by
    intro d hd
    obtain ⟨b, hb, rfl⟩ := List.mem_map.mp hd
    exact digitVal_lt (h b (List.mem_reverse.mp hb))
  have hbound := Nat.ofDigits_lt_base_pow_length (by norm_num) hlt
  rwa [List.length_map, List.length_reverse] at hbound

/-- The high part of a digit string, found again. -/
theorem decVal_append_div (ds : Bytes) {es : Bytes} (h : ∀ b ∈ es, isDigit b = true) :
    decVal (ds ++ es) / 10 ^ es.length = decVal ds := by
  rw [decVal_append, Nat.add_comm, Nat.add_mul_div_right _ _ (by positivity),
    Nat.div_eq_of_lt (decVal_lt es h), Nat.zero_add]

/-- Rescaling does not see the digits that are cut: with `m` decimals in `ds` and more of them
in `es`, the value times `10 ^ k` has the same whole part with and without `es`. -/
theorem decVal_append_rescale (ds : Bytes) {es : Bytes} (h : ∀ b ∈ es, isDigit b = true)
    {k m : Nat} (hkm : k ≤ m) :
    decVal (ds ++ es) * 10 ^ k / 10 ^ (m + es.length) = decVal ds * 10 ^ k / 10 ^ m := by
  obtain ⟨j, rfl⟩ := Nat.exists_eq_add_of_le hkm
  have hcancel : ∀ a b, a * 10 ^ k / 10 ^ (k + b) = a / 10 ^ b := by
    intro a b
    rw [pow_add, Nat.mul_comm a, Nat.mul_div_mul_left _ _ (by positivity)]
  rw [Nat.add_assoc, hcancel, hcancel, Nat.add_comm, pow_add, ← Nat.div_div_eq_div_mul,
    decVal_append_div ds h]

/-- The byte of a digit, read back. -/
theorem digitVal_digitByte {d : Nat} (h : d < 10) : digitVal (digitByte d) = d := by
  simp only [digitVal, digitByte, UInt8.toNat_ofNat']
  omega

/-- The bytes of `decimal` are digits. -/
theorem isDigit_digitByte {d : Nat} (h : d < 10) : isDigit (digitByte d) = true := by
  rw [isDigit_iff]
  simp only [digitByte, UInt8.toNat_ofNat']
  omega

/-- Every byte of `decimal n` is a digit. -/
theorem isDigit_of_mem_decimal {n : Nat} {b : UInt8} (h : b ∈ decimal n) :
    isDigit b = true := by
  unfold decimal at h
  split at h
  · rw [List.mem_singleton.mp h]
    decide
  · obtain ⟨d, hd, rfl⟩ := List.mem_map.mp h
    exact isDigit_digitByte (Nat.digits_lt_base (by norm_num) (List.mem_reverse.mp hd))

/-- There is at least one digit. -/
theorem decimal_ne_nil (n : Nat) : decimal n ≠ [] := by
  unfold decimal
  split
  · simp
  · rename_i h
    simpa [Nat.digits_eq_nil_iff_eq_zero] using h

/-- No number but zero starts with a zero. -/
theorem decimal_head {n : Nat} (h : n ≠ 0) : ∃ d ds, decimal n = d :: ds ∧ d ≠ 48 := by
  have hne : Nat.digits 10 n ≠ [] := Nat.digits_ne_nil_iff_ne_zero.mpr h
  have hlast := Nat.getLast_digit_ne_zero 10 h
  have hlt : (Nat.digits 10 n).getLast hne < 10 :=
    Nat.digits_lt_base (by norm_num) (List.getLast_mem hne)
  obtain ⟨low, high, hdigits⟩ : ∃ low high, Nat.digits 10 n = low ++ [high] :=
    ⟨_, _, (List.dropLast_append_getLast hne).symm⟩
  simp only [hdigits, List.getLast_append_singleton] at hlast hlt
  refine ⟨digitByte high, low.reverse.map digitByte, ?_, fun h48 => hlast ?_⟩
  · rw [decimal, if_neg h, hdigits, List.reverse_append, List.reverse_singleton,
      List.singleton_append, List.map_cons]
  · rw [← digitVal_digitByte hlt, h48]
    rfl

/-- The round trip. -/
theorem decVal_decimal (n : Nat) : decVal (decimal n) = n := by
  unfold decimal
  split
  · rename_i h
    rw [h]
    rfl
  · have hmap : ((Nat.digits 10 n).reverse.map digitByte).reverse.map digitVal
        = Nat.digits 10 n := by
      rw [← List.map_reverse, List.reverse_reverse, List.map_map]
      refine (List.map_congr_left fun d hd => ?_).trans (List.map_id _)
      exact digitVal_digitByte (Nat.digits_lt_base (by norm_num) hd)
    rw [decVal, hmap, Nat.ofDigits_digits]

/-! ### Fields of fixed width -/

/-- A number of one digit. -/
theorem decimal_of_lt {n : Nat} (h : n < 10) : decimal n = [digitByte n] := by
  unfold decimal
  split
  · rename_i hzero
    rw [hzero]
    rfl
  · rename_i hne
    rw [Nat.digits_of_lt 10 n hne h]
    rfl

/-- The last digit of a longer number. -/
theorem decimal_of_ge {n : Nat} (h : 10 ≤ n) :
    decimal n = decimal (n / 10) ++ [digitByte (n % 10)] := by
  have hne : n ≠ 0 := by omega
  have hdiv : n / 10 ≠ 0 := by omega
  rw [decimal, if_neg hne, decimal, if_neg hdiv, Nat.digits_def' (by norm_num) (by omega),
    List.reverse_cons, List.map_append]
  rfl

/-- The last `n` digits of a number. -/
def fixedDecimal : (n m : Nat) → Bytes
  | 0, _ => []
  | n + 1, m => digitByte (m / 10 ^ n % 10) :: fixedDecimal n m

/-- There are `n` of them. -/
theorem length_fixedDecimal (n m : Nat) : (fixedDecimal n m).length = n := by
  induction n with
  | zero => rfl
  | succ n ih => rw [fixedDecimal, List.length_cons, ih]

/-- The last digit comes last. -/
theorem fixedDecimal_succ (n m : Nat) :
    fixedDecimal (n + 1) m = fixedDecimal n (m / 10) ++ [digitByte (m % 10)] := by
  induction n with
  | zero => simp [fixedDecimal]
  | succ n ih =>
      have hdigit : m / 10 ^ (n + 1) % 10 = m / 10 / 10 ^ n % 10 := by
        rw [Nat.div_div_eq_div_mul, pow_succ']
      rw [fixedDecimal, ih, hdigit, ← List.cons_append]
      rfl

/-- A number of `n + 1` digits. -/
theorem decimal_eq_fixedDecimal {n m : Nat} (hlow : 10 ^ n ≤ m) (hhigh : m < 10 ^ (n + 1)) :
    decimal m = fixedDecimal (n + 1) m := by
  induction n generalizing m with
  | zero =>
      have hlt : m < 10 := hhigh
      rw [decimal_of_lt hlt, fixedDecimal, pow_zero, Nat.div_one, Nat.mod_eq_of_lt hlt]
      rfl
  | succ n ih =>
      have hten : 10 ≤ m := Nat.le_trans (Nat.le_self_pow (Nat.succ_ne_zero n) 10) hlow
      have hlow' : 10 ^ n ≤ m / 10 := by
        rw [Nat.le_div_iff_mul_le (by norm_num), ← pow_succ]
        exact hlow
      have hhigh' : m / 10 < 10 ^ (n + 1) := by
        rw [Nat.div_lt_iff_lt_mul (by norm_num), ← pow_succ]
        exact hhigh
      rw [decimal_of_ge hten, ih hlow' hhigh', ← fixedDecimal_succ]

/-- The digits below `10 ^ n` are those of the remainder. -/
theorem mod_pow_digit (m : Nat) {n e : Nat} (he : e < n) :
    m % 10 ^ n / 10 ^ e % 10 = m / 10 ^ e % 10 := by
  obtain ⟨k, rfl⟩ := Nat.exists_eq_add_of_lt he
  rw [show e + k + 1 = e + (k + 1) from rfl, pow_add, Nat.mod_mul_right_div_self, pow_succ']
  exact Nat.mod_mod_of_dvd _ (Nat.dvd_mul_right 10 (10 ^ k))

/-- So the last digits of a number are those of its remainder. -/
theorem fixedDecimal_mod (m : Nat) {k n : Nat} (h : k ≤ n) :
    fixedDecimal k (m % 10 ^ n) = fixedDecimal k m := by
  induction k with
  | zero => rfl
  | succ k ih =>
      rw [fixedDecimal, fixedDecimal, mod_pow_digit m h, ih (Nat.le_of_succ_le h)]

/-- A number in a field of width `len`. -/
def paddedDecimal (pad : UInt8) (len n : Nat) : Bytes :=
  List.replicate (len - (decimal n).length) pad ++ decimal n

/-- The field starts with padding. -/
theorem take_paddedDecimal (pad : UInt8) (len : Nat) {n k : Nat}
    (h : (decimal n).length ≤ k) :
    (paddedDecimal pad len n).take (len - k) = List.replicate (len - k) pad := by
  have hle : len - k ≤ (List.replicate (len - (decimal n).length) pad).length := by
    rw [List.length_replicate]
    omega
  rw [paddedDecimal, List.take_append_of_le_length hle, List.take_replicate,
    Nat.min_eq_left (by omega)]

/-- A number below `10 ^ n` has at most `n` digits. -/
theorem length_decimal_le {n m : Nat} (hn : 0 < n) (h : m < 10 ^ n) :
    (decimal m).length ≤ n := by
  unfold decimal
  split
  · exact hn
  · rw [List.length_map, List.length_reverse]
    exact (Nat.digits_length_le_iff (by norm_num) m).mpr h

/-- The digits from number `n - 1` down, the zeros in front as padding. `shown` says that a
digit has been shown. -/
def suppressed (pad : UInt8) (digit : Nat → Nat) : (n : Nat) → (shown : Bool) → Bytes
  | 0, _ => []
  | n + 1, shown =>
    if shown = false ∧ n ≠ 0 ∧ digit n = 0 then pad :: suppressed pad digit n false
    else digitByte (digit n) :: suppressed pad digit n true

/-- Only the digits of the field count. -/
theorem suppressed_congr (pad : UInt8) {digit digit' : Nat → Nat} {n : Nat}
    (h : ∀ e < n, digit e = digit' e) (shown : Bool) :
    suppressed pad digit n shown = suppressed pad digit' n shown := by
  induction n generalizing shown with
  | zero => rfl
  | succ n ih =>
      have hrest := ih fun e he => h e (Nat.lt_succ_of_lt he)
      rw [suppressed, suppressed, h n (Nat.lt_succ_self n), hrest, hrest]

/-- Behind the first digit all of them are shown. -/
theorem suppressed_true (pad : UInt8) (m n : Nat) :
    suppressed pad (fun e => m / 10 ^ e % 10) n true = fixedDecimal n m := by
  induction n with
  | zero => rfl
  | succ n ih =>
      have hshown : ¬ (true = false ∧ n ≠ 0 ∧ m / 10 ^ n % 10 = 0) := fun h => nomatch h.1
      rw [suppressed, if_neg hshown, ih, fixedDecimal]

/-- **The field, digit by digit.** -/
theorem suppressed_eq_paddedDecimal (pad : UInt8) (m : Nat) {n : Nat} (hn : 0 < n) :
    suppressed pad (fun e => m / 10 ^ e % 10) n false = paddedDecimal pad n (m % 10 ^ n) := by
  induction n with
  | zero => omega
  | succ n ih =>
      have hsplit : m % 10 ^ (n + 1) = m % 10 ^ n + 10 ^ n * (m / 10 ^ n % 10) := by
        rw [pow_succ, Nat.mod_mul]
      by_cases hzero : n ≠ 0 ∧ m / 10 ^ n % 10 = 0
      · -- one more blank in front of a shorter field
        have hpos : 0 < n := Nat.pos_of_ne_zero hzero.1
        have hle := length_decimal_le hpos (Nat.mod_lt m (show 0 < 10 ^ n by positivity))
        rw [hzero.2, Nat.mul_zero, Nat.add_zero (m % 10 ^ n)] at hsplit
        rw [suppressed, if_pos ⟨rfl, hzero⟩, ih hpos, paddedDecimal, paddedDecimal, hsplit,
          Nat.sub_add_comm hle, List.replicate_succ, List.cons_append]
      · have hdecimal : decimal (m % 10 ^ (n + 1)) = fixedDecimal (n + 1) m := by
          have hhigh : m % 10 ^ (n + 1) < 10 ^ (n + 1) := Nat.mod_lt m (by positivity)
          rcases Nat.eq_zero_or_pos n with rfl | hpos
          · rw [decimal_of_lt hhigh, fixedDecimal, pow_zero, Nat.div_one]
            rfl
          · have hdigit : 0 < m / 10 ^ n % 10 := by
              apply Nat.pos_of_ne_zero
              intro hdigit
              exact hzero ⟨Nat.ne_of_gt hpos, hdigit⟩
            have hlow : 10 ^ n ≤ m % 10 ^ (n + 1) := by
              rw [hsplit]
              exact Nat.le_trans (Nat.le_mul_of_pos_right _ hdigit) (Nat.le_add_left _ _)
            rw [decimal_eq_fixedDecimal hlow hhigh, fixedDecimal_mod m (Nat.le_refl _)]
        have hlength : (fixedDecimal (n + 1) m).length = n + 1 := length_fixedDecimal (n + 1) m
        rw [suppressed, if_neg (fun h => hzero h.2), suppressed_true, paddedDecimal, hdecimal,
          hlength, Nat.sub_self, List.replicate_zero, List.nil_append, fixedDecimal]

/-- **The digits, read back**: a field with padding down to digit number `k` has only zeros down
to there. -/
theorem eq_zero_of_suppressed {pad : UInt8} (hpad : ∀ d, 0 < d → d < 10 → digitByte d ≠ pad)
    {digit : Nat → Nat} (hdigit : ∀ e, digit e < 10) {k n : Nat} (hk : 0 < k)
    (h : (suppressed pad digit n false).take (n - k) = List.replicate (n - k) pad) {e : Nat}
    (hke : k ≤ e) (hen : e < n) : digit e = 0 := by
  induction n with
  | zero => omega
  | succ n ih =>
      have hlen : n + 1 - k = n - k + 1 := by omega
      rw [hlen, List.replicate_succ, suppressed] at h
      split at h
      · rename_i hzero
        rw [List.take_succ_cons, List.cons.injEq] at h
        rcases Nat.lt_succ_iff_lt_or_eq.mp hen with hlt | rfl
        · exact ih h.2 hlt
        · exact hzero.2.2
      · rename_i hshown
        rw [List.take_succ_cons, List.cons.injEq] at h
        have hpos : 0 < digit n := by
          apply Nat.pos_of_ne_zero
          intro hzero
          exact hshown ⟨rfl, by omega, hzero⟩
        exact absurd h.1 (hpad _ hpos (hdigit n))

end CarLocator.Library
