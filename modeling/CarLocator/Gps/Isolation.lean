import CarLocator.Gps.Scan

/-!
# `CarLocator.Gps.Isolation`: a field and what is behind it

A `StoppedField` is a text up to the first `','`, `'*'` or NUL. Its contract (`Isolates`) has two
halves: what `NMEA_Str2num` returns depends on the field alone, and a field that is no number
is rejected with a zero.

`isolates_iff` states when the two hold. The first one fails for a point at the end of the
field, since the byte behind a point is passed unread. The second one fails for every
malformed field that the scan gets through, because nothing but single bytes is checked:
second points, and minus signs behind digits. Only if the bytes read happen to sum up to zero
is it rejected nevertheless.
-/

set_option autoImplicit false

namespace CarLocator.Gps

open CarLocator.Library

/-- A field and the byte that ends it. -/
structure StoppedField where
  text : Bytes
  stop : UInt8
  text_free : ∀ b ∈ text, ¬ IsStop b ∧ b ≠ 0
  stop_is : IsStop stop ∨ stop = 0

/-- The form `-?digits(.digits*)?`. -/
def HasNumberForm (f : Bytes) : Prop :=
  ∃ minus int frac, int ≠ [] ∧ (∀ b ∈ int, isDigit b = true) ∧ (∀ b ∈ frac, isDigit b = true)
    ∧ (f = minusText minus ++ int ∨ f = minusText minus ++ (int ++ 46 :: frac))

/-- The contract of `NMEA_Str2num`. -/
structure Isolates (f : StoppedField) : Prop where
  same : ∀ r₁ r₂, nmeaStr2num (f.text ++ f.stop :: r₁) = nmeaStr2num (f.text ++ f.stop :: r₂)
  -- the memory ends with the byte that ends the field
  within : (nmeaStr2num (f.text ++ [f.stop])).isSome
  rejects : f.text ≠ [] → ¬ HasNumberForm f.text →
    ∀ rest, nmeaStr2num (f.text ++ f.stop :: rest) = some (0, 0)

/-- The passed bytes come to zero without decimals: no point, or a multiple of 256 rounds behind
the first one, and a sum of the integer digits that is a multiple of `2 ^ 32`. -/
def Passed.Vanishes (p : Passed) : Prop :=
  256 ∣ (fracRounds p.rounds).length ∧ 2 ^ 32 ∣ rawVal (p.digits.take p.ilen)

/-- A value is zero as an `int`. -/
theorem int32_ofInt_eq_zero_iff (v : Int) : Int32.ofInt v = 0 ↔ 2 ^ 32 ∣ v := by
  have h : (Int32.ofInt v).toInt = v.bmod (2 ^ 32) := Int32.toInt_ofInt
  constructor
  · intro h0
    rw [h0] at h
    exact Int.dvd_of_bmod_eq_zero h.symm
  · intro hdvd
    apply Int32.toInt_inj.mp
    rw [h, Int.bmod_eq_zero_of_dvd hdvd]
    rfl

/-- The result is zero without decimals exactly when the passed bytes vanish. -/
theorem Passed.eq_zero_iff (p : Passed) :
    (Int32.ofInt p.value, UInt8.ofNat p.flen) = (0, 0) ↔ p.Vanishes := by
  have hflen : UInt8.ofNat p.flen = 0 ↔ p.flen = 0 := by
    rw [← UInt8.toNat_inj, p.toNat_flen]
    exact Iff.rfl
  have hdvd : p.flen = 0 ↔ 256 ∣ (fracRounds p.rounds).length := by
    rw [Passed.flen]
    omega
  have hvalue : p.flen = 0 → (2 ^ 32 ∣ p.value ↔ 2 ^ 32 ∣ rawVal (p.digits.take p.ilen)) := by
    intro h0
    rw [Passed.value, h0, pow_zero, List.take_zero, show rawVal [] = 0 from rfl, Int.add_zero,
      Nat.cast_one, Int.mul_one]
    split
    · rw [Int.neg_mul, Int.one_mul, Int.dvd_neg]
    · rw [Int.one_mul]
  rw [Prod.mk.injEq, int32_ofInt_eq_zero_iff, hflen, hdvd, Passed.Vanishes, and_comm]
  exact and_congr_right fun h => hvalue (hdvd.mpr h)

/-- A field that is given up is zero, whatever is behind it. -/
theorem isolates_of_zero {f : StoppedField}
    (h : ∀ rest, nmeaStr2num (f.text ++ f.stop :: rest) = some (0, 0)) : Isolates f where
  same r₁ r₂ := (h r₁).trans (h r₂).symm
  within := by
    rw [h]
    rfl
  rejects _ _ := h

/-- A field that the scan gets through, up to a `','` or `'*'`. -/
theorem isolates_iff_of_passed {f : StoppedField} (hstop : IsStop f.stop) {p : Passed}
    (hp : f.text = p.text) :
    Isolates f ↔ f.text = [] ∨ HasNumberForm f.text ∨ p.Vanishes := by
  have hrun := nmeaStr2num_stop p hstop
  rw [← hp] at hrun
  constructor
  · intro h
    by_cases hempty : f.text = []
    · exact Or.inl hempty
    by_cases hform : HasNumberForm f.text
    · exact Or.inr (Or.inl hform)
    have hzero := h.rejects hempty hform []
    rw [hrun] at hzero
    exact Or.inr (Or.inr (p.eq_zero_iff.mp (Option.some.inj hzero)))
  · intro h
    refine ⟨fun r₁ r₂ => (hrun r₁).trans (hrun r₂).symm, by rw [hrun]; rfl, ?_⟩
    intro hempty hform rest
    rcases h with h | h | h
    · exact absurd h hempty
    · exact absurd h hform
    · rw [hrun, p.eq_zero_iff.mpr h]

/-- **When a field is isolated**: the scan does not get to a point at its end, and if the scan
gets through it up to a `','` or `'*'`, it is empty or a number or its bytes vanish. -/
theorem isolates_iff (f : StoppedField) :
    Isolates f ↔ ¬ RunsOff f.text ∧ (IsStop f.stop → ∀ p : Passed, f.text = p.text →
      f.text = [] ∨ HasNumberForm f.text ∨ p.Vanishes) := by
  constructor
  · intro h
    refine ⟨?_, fun hstop p hp => (isolates_iff_of_passed hstop hp).mp h⟩
    intro hoff
    -- The scan passes the byte that ends the field.
    have hsome := h.within
    rw [nmeaStr2num_runsOff hoff] at hsome
    cases hsome
  · rintro ⟨hoff, hpass⟩
    obtain ⟨rounds, minus, tail, htext, hend⟩ := exists_rounds f.text
    cases hend with
    | done =>
        rw [List.append_nil] at htext
        rcases f.stop_is with hstop | hzero
        · have hp : f.text = Passed.text ⟨rounds, minus⟩ := htext
          exact (isolates_iff_of_passed hstop hp).mpr (hpass hstop _ hp)
        · -- The NUL is an illegal byte.
          refine isolates_of_zero fun rest => ?_
          have hill : IsIllegal minus f.stop := by
            rw [hzero]
            exact ⟨rfl, by decide, by decide, fun _ => by decide⟩
          rw [htext, List.append_assoc]
          exact nmeaStr2num_illegal rounds hill rest
    | point =>
        refine absurd ⟨⟨rounds, minus⟩, ?_⟩ hoff
        rw [Passed.text, List.append_assoc]
        exact htext
    | stop b rest hb =>
        -- a stop within the field, which has none
        exact absurd hb (f.text_free b (by simp [htext])).1
    | illegal b rest hb =>
        refine isolates_of_zero fun rest' => ?_
        rw [htext, List.append_assoc, List.append_assoc]
        exact nmeaStr2num_illegal rounds hb (rest ++ f.stop :: rest')

/-- A field that ends in a point. -/
def pointField : StoppedField where
  text := ascii "12."
  stop := 44
  text_free := by decide
  stop_is := by decide

/-- The decimals of `12.` are those of the next field. -/
theorem not_isolates_pointField : ¬ Isolates pointField := by
  intro h
  exact absurd (h.same (ascii "5,") (ascii "6,")) (by decide)

end CarLocator.Gps
