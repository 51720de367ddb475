import CarLocator.Gps.Number

/-!
# `CarLocator.Gps.Scan`: `NMEA_Str2num` on any bytes

The scan loop of `NMEA_Str2num` passes a digit or a decimal point in a round, each with a
minus sign in front of it or none. Behind a point it passes one more byte without a look at
it. A `ScanRound` is what one round passes, and every text is a list of rounds with a
`ScanEnd` behind them (`exists_rounds`).

The ways to end decide what `NMEA_Str2num` does. At a `','` or `'*'` it returns what the
passed bytes come to (`nmeaStr2num_stop`), at any other byte zero (`nmeaStr2num_illegal`). A
point at the end of the text takes the byte behind the text along (`nmeaStr2num_runsOff`).

A number is passed as its parts, so that on an empty or numeric field the result is
`scaledValue` modulo `2 ^ 32`, with `fieldDecimals` in `*dx` (`nmeaStr2num_field`).
-/

set_option autoImplicit false

namespace CarLocator.Gps

open CarLocator.Library

/-! ### Rounds -/

/-- A minus sign or none. -/
def minusText (minus : Bool) : Bytes := if minus then [45] else []

/-- What one round of the scan passes. -/
inductive ScanRound
  | digit (minus : Bool) (d : UInt8) (hd : isDigit d = true)
  -- the byte behind the point is any byte
  | point (minus : Bool) (b : UInt8)

/-- The bytes of a round. -/
def ScanRound.text : ScanRound → Bytes
  | .digit minus d _ => minusText minus ++ [d]
  | .point minus b => minusText minus ++ [46, b]

/-- There is a minus sign in the round. -/
def ScanRound.minus : ScanRound → Bool
  | .digit minus _ _ => minus
  | .point minus _ => minus

/-- The round passes a digit. -/
def ScanRound.isInt : ScanRound → Bool
  | .digit _ _ _ => true
  | .point _ _ => false

/-- The counters behind a round. -/
def ScanRound.pass (s : NmeaScan) (r : ScanRound) : NmeaScan :=
  { s with neg := s.neg || r.minus, point := s.point || !r.isInt }.count

/-- The bytes of some rounds. -/
def roundsText (rounds : List ScanRound) : Bytes := rounds.flatMap ScanRound.text

/-- The rounds that are counted as integer digits: those before the first point. -/
def intRounds (rounds : List ScanRound) : List ScanRound := rounds.takeWhile ScanRound.isInt

/-- The rounds that are counted as decimals. -/
def fracRounds (rounds : List ScanRound) : List ScanRound := rounds.dropWhile ScanRound.isInt

/-- Every round counts. -/
theorem length_intRounds_add_fracRounds (rounds : List ScanRound) :
    (intRounds rounds).length + (fracRounds rounds).length = rounds.length := by
  rw [← List.length_append, intRounds, fracRounds, List.takeWhile_append_dropWhile]

/-- A minus sign in front of a byte that is not another one. -/
theorem nmeaScan_minusText (minus : Bool) {c : UInt8} (hc : c ≠ 45) (rest : Bytes)
    (s : NmeaScan) :
    nmeaScan (minusText minus ++ c :: rest) .round s
      = nmeaScan (c :: rest) .round { s with neg := s.neg || minus } := by
  cases minus with
  | false => simp [minusText]
  | true => simp [minusText, nmeaScan_minus hc]

/-- One round. -/
theorem nmeaScan_round (r : ScanRound) (rest : Bytes) (s : NmeaScan) :
    nmeaScan (r.text ++ rest) .round s = nmeaScan rest .round (r.pass s) := by
  cases r with
  | digit minus d hd =>
      rw [ScanRound.text, List.append_assoc, List.singleton_append,
        nmeaScan_minusText minus (ne_minus_of_isDigit hd), nmeaScan_digit hd]
      simp [ScanRound.pass, ScanRound.minus, ScanRound.isInt]
  | point minus b =>
      rw [ScanRound.text, List.append_assoc]
      show nmeaScan (minusText minus ++ 46 :: b :: rest) .round s = _
      rw [nmeaScan_minusText minus (by decide), nmeaScan_point]
      simp [ScanRound.pass, ScanRound.minus, ScanRound.isInt, NmeaScan.count]

/-- All rounds. -/
theorem nmeaScan_rounds (rounds : List ScanRound) (rest : Bytes) (s : NmeaScan) :
    nmeaScan (roundsText rounds ++ rest) .round s
      = nmeaScan rest .round (rounds.foldl ScanRound.pass s) := by
  induction rounds generalizing s with
  | nil => rfl
  | cons r rounds ih =>
      rw [roundsText, List.flatMap_cons, List.append_assoc, nmeaScan_round]
      exact ih (r.pass s)

/-- Rounds behind a point. -/
theorem foldl_pass_frac (rounds : List ScanRound) (s : NmeaScan) (hs : s.point = true) :
    rounds.foldl ScanRound.pass s = { s with
      flen := s.flen + UInt8.ofNat rounds.length
      neg := s.neg || rounds.any ScanRound.minus } := by
  induction rounds generalizing s with
  | nil => simp
  | cons r rounds ih =>
      -- behind the point every round is counted as a decimal
      have hpass : r.pass s = { s with flen := s.flen + 1, neg := s.neg || r.minus } := by
        simp [ScanRound.pass, NmeaScan.count, hs]
      rw [List.foldl_cons, hpass,
        ih { s with flen := s.flen + 1, neg := s.neg || r.minus } hs]
      simp [UInt8.ofNat_add, UInt8.add_assoc, UInt8.add_comm, Bool.or_assoc]

/-- Rounds before the point, and behind it. -/
theorem foldl_pass (rounds : List ScanRound) (s : NmeaScan) (hs : s.point = false) :
    rounds.foldl ScanRound.pass s = {
      ilen := s.ilen + UInt8.ofNat (intRounds rounds).length
      flen := s.flen + UInt8.ofNat (fracRounds rounds).length
      point := !(fracRounds rounds).isEmpty
      neg := s.neg || rounds.any ScanRound.minus } := by
  induction rounds generalizing s with
  | nil =>
      obtain ⟨ilen, flen, point, neg⟩ := s
      obtain rfl : point = false := hs
      simp [intRounds, fracRounds]
  | cons r rounds ih =>
      cases hr : r.isInt with
      | true =>
          have hpass : r.pass s = { s with ilen := s.ilen + 1, neg := s.neg || r.minus } := by
            simp [ScanRound.pass, NmeaScan.count, hs, hr]
          rw [List.foldl_cons, hpass,
            ih { s with ilen := s.ilen + 1, neg := s.neg || r.minus } hs]
          simp [intRounds, fracRounds, hr, UInt8.ofNat_add, UInt8.add_assoc, UInt8.add_comm,
            Bool.or_assoc]
      | false =>
          have hpass : r.pass s
              = { s with flen := s.flen + 1, neg := s.neg || r.minus, point := true } := by
            simp [ScanRound.pass, NmeaScan.count, hr]
          rw [List.foldl_cons, hpass, foldl_pass_frac rounds _ rfl]
          simp [intRounds, fracRounds, hr, UInt8.ofNat_add, UInt8.add_assoc, UInt8.add_comm,
            Bool.or_assoc]

/-! ### Ends -/

/-- The byte ends a number. -/
def IsStop (b : UInt8) : Prop := b = 44 ∨ b = 42

instance (b : UInt8) : Decidable (IsStop b) := inferInstanceAs (Decidable (b = 44 ∨ b = 42))

/-- The scan gives the number up at this byte, with a minus sign in front of it or none. -/
def IsIllegal (minus : Bool) (b : UInt8) : Prop :=
  isDigit b = false ∧ ¬ IsStop b ∧ b ≠ 46 ∧ (minus = false → b ≠ 45)

/-- What is behind the rounds of a text, and a minus sign or none. -/
inductive ScanEnd (minus : Bool) : Bytes → Prop
  | done : ScanEnd minus []
  | point : ScanEnd minus [46]
  | stop (b : UInt8) (rest : Bytes) (h : IsStop b) : ScanEnd minus (b :: rest)
  | illegal (b : UInt8) (rest : Bytes) (h : IsIllegal minus b) : ScanEnd minus (b :: rest)

/-- **Every text is a list of rounds with an end.** -/
theorem exists_rounds (text : Bytes) :
    ∃ rounds minus tail, text = roundsText rounds ++ (minusText minus ++ tail)
      ∧ ScanEnd minus tail := by
  induction hn : text.length using Nat.strong_induction_on generalizing text with
  | _ n ih =>
      -- One round or the end, behind a minus sign or none.
      have hround : ∀ minus tail, text = minusText minus ++ tail →
          (minus = false → tail.head? ≠ some 45) →
          ∃ rounds minus tail, text = roundsText rounds ++ (minusText minus ++ tail)
            ∧ ScanEnd minus tail := by
        intro minus tail htext hhead
        have hgo : ∀ (r : ScanRound) (rest : Bytes), text = r.text ++ rest →
            rest.length < text.length →
            ∃ rounds minus tail, text = roundsText rounds ++ (minusText minus ++ tail)
              ∧ ScanEnd minus tail := by
          intro r rest hr hlt
          obtain ⟨rounds, minus', tail', hrest, hend⟩ := ih _ (by omega) rest rfl
          refine ⟨r :: rounds, minus', tail', ?_, hend⟩
          rw [hr, hrest, roundsText, roundsText, List.flatMap_cons, List.append_assoc]
        match tail, htext, hhead with
        | [], htext, _ => exact ⟨[], minus, [], htext, .done⟩
        | b :: rest, htext, hhead =>
            by_cases hstop : IsStop b
            · exact ⟨[], minus, b :: rest, htext, .stop b rest hstop⟩
            by_cases hpoint : b = 46
            · subst hpoint
              match rest, htext with
              | [], htext => exact ⟨[], minus, [46], htext, .point⟩
              | c :: rest, htext =>
                  refine hgo (.point minus c) rest ?_ ?_
                  · rw [htext, ScanRound.text, List.append_assoc]
                    rfl
                  · rw [htext, List.length_append, List.length_cons, List.length_cons]
                    omega
            cases hdigit : isDigit b with
            | true =>
                refine hgo (.digit minus b hdigit) rest ?_ ?_
                · rw [htext, ScanRound.text, List.append_assoc]
                  rfl
                · rw [htext, List.length_append, List.length_cons]
                  omega
            | false =>
                refine ⟨[], minus, b :: rest, htext, .illegal b rest ⟨hdigit, hstop, hpoint, ?_⟩⟩
                rintro hminus rfl
                exact hhead hminus rfl
      by_cases hminus : text.head? = some 45
      · obtain ⟨rest, rfl⟩ := List.head?_eq_some_iff.mp hminus
        exact hround true rest rfl (by simp)
      · exact hround false text rfl fun _ => hminus

/-! ### What the passed bytes come to -/

/-- The bytes that are passed: the rounds, and a minus sign or none. -/
structure Passed where
  rounds : List ScanRound
  minus : Bool

namespace Passed

/-- The bytes. -/
def text (p : Passed) : Bytes := roundsText p.rounds ++ minusText p.minus

/-- There is a minus sign among them. -/
def neg (p : Passed) : Bool := p.rounds.any ScanRound.minus || p.minus

/-- The bytes that the digits are read from: one minus sign is taken off the beginning, wherever
it stands. -/
def digits (p : Passed) : Bytes := if p.neg then p.text.drop 1 else p.text

/-- How many bytes are read as integer digits, in 8 bits. -/
def ilen (p : Passed) : Nat := (intRounds p.rounds).length % 256

/-- How many bytes are read as decimals: five at most, and counted in 8 bits. -/
def flen (p : Passed) : Nat := min 5 ((fracRounds p.rounds).length % 256)

/-- The value of the bytes read. -/
def value (p : Passed) : Int :=
  (if p.neg then -1 else 1) * (rawVal (p.digits.take p.ilen) * (10 ^ p.flen : Nat)
    + rawVal ((p.digits.drop (p.ilen + 1)).take p.flen))

end Passed

/-- The scan up to a stop. -/
theorem nmeaScan_stop (p : Passed) {c : UInt8} (hc : IsStop c) (rest : Bytes) :
    nmeaScan (p.text ++ c :: rest) .round ⟨0, 0, false, false⟩
      = some ⟨UInt8.ofNat (intRounds p.rounds).length, UInt8.ofNat (fracRounds p.rounds).length,
          !(fracRounds p.rounds).isEmpty, p.neg⟩ := by
  have hc45 : c ≠ 45 := by rcases hc with rfl | rfl <;> decide
  rw [Passed.text, List.append_assoc, nmeaScan_rounds, foldl_pass _ _ rfl,
    nmeaScan_minusText _ hc45, nmeaScan_end hc]
  simp [Passed.neg]

/-- Every round is a byte, and a minus sign or a point is one more. -/
theorem length_le_roundsText (rounds : List ScanRound) :
    rounds.length + (rounds.any ScanRound.minus).toNat + (!(fracRounds rounds).isEmpty).toNat
      ≤ (roundsText rounds).length := by
  induction rounds with
  | nil => simp [fracRounds, roundsText]
  | cons r rounds ih =>
      have hround : r.text.length = 1 + r.minus.toNat + (!r.isInt).toNat := by
        cases r with
        | digit minus d hd => cases minus <;> rfl
        | point minus b => cases minus <;> rfl
      have hany : ((r :: rounds).any ScanRound.minus).toNat
          ≤ r.minus.toNat + (rounds.any ScanRound.minus).toNat := by
        rw [List.any_cons]
        cases r.minus <;> cases rounds.any ScanRound.minus <;> decide
      have hfrac : (!(fracRounds (r :: rounds)).isEmpty).toNat
          ≤ (!r.isInt).toNat + (!(fracRounds rounds).isEmpty).toNat := by
        cases hint : r.isInt with
        | true => simp [fracRounds, hint]
        | false => simp [fracRounds, hint]
      have htext : (roundsText (r :: rounds)).length
          = r.text.length + (roundsText rounds).length := by
        simp [roundsText]
      rw [List.length_cons]
      omega

namespace Passed

/-- The length of the passed bytes. -/
theorem length_text (p : Passed) :
    p.text.length = (roundsText p.rounds).length + p.minus.toNat := by
  rw [text, List.length_append, minusText]
  cases p.minus <;> rfl

/-- The decimals fit into `*dx`. -/
theorem toNat_flen (p : Passed) : (UInt8.ofNat p.flen).toNat = p.flen := by
  have hle : p.flen ≤ 5 := Nat.min_le_left _ _
  rw [UInt8.toNat_ofNat', Nat.mod_eq_of_lt (by omega)]

/-- A minus sign is a byte. -/
theorem length_text_pos (p : Passed) (hneg : p.neg = true) : 0 < p.text.length := by
  have hlen := length_le_roundsText p.rounds
  rw [length_text]
  rw [neg, Bool.or_eq_true] at hneg
  rcases hneg with h | h
  · rw [h, Bool.toNat_true] at hlen
    omega
  · rw [h, Bool.toNat_true]
    omega

/-- The digits that are read are among the passed bytes. -/
theorem length_digits (p : Passed) :
    p.ilen ≤ p.digits.length ∧ (p.flen ≠ 0 → p.ilen + 1 + p.flen ≤ p.digits.length) := by
  have hlen := length_le_roundsText p.rounds
  have hsplit := length_intRounds_add_fracRounds p.rounds
  have hdigits : (roundsText p.rounds).length + p.minus.toNat = p.digits.length + p.neg.toNat := by
    rw [← p.length_text, digits]
    cases hneg : p.neg with
    | false => rfl
    | true =>
        have hpos := p.length_text_pos hneg
        rw [if_pos rfl, List.length_drop, Bool.toNat_true]
        omega
  have hneg : p.neg.toNat ≤ (p.rounds.any ScanRound.minus).toNat + p.minus.toNat := by
    rw [neg]
    cases p.rounds.any ScanRound.minus <;> cases p.minus <;> decide
  have hilen : p.ilen ≤ (intRounds p.rounds).length := Nat.mod_le _ _
  have hflen : p.flen ≤ (fracRounds p.rounds).length :=
    Nat.le_trans (Nat.min_le_right _ _) (Nat.mod_le _ _)
  constructor
  · omega
  · intro h
    have hsome : (fracRounds p.rounds).isEmpty = false := by
      rw [List.isEmpty_eq_false_iff, ← List.length_pos_iff]
      omega
    rw [hsome, Bool.not_false, Bool.toNat_true] at hlen
    omega

end Passed

/-- A value modulo `2 ^ 32`, as an `int`. -/
theorem toInt32_uint32_ofInt (v : Int) : (UInt32.ofInt v).toInt32 = Int32.ofInt v := by
  have h : UInt32.ofInt v = (Int32.ofInt v).toUInt32 := by
    apply UInt32.toNat_inj.mp
    show (v % 2 ^ 32).toNat % 2 ^ 32 = (BitVec.ofInt 32 v).toNat
    rw [BitVec.toNat_ofInt]
    omega
  rw [h, Int32.toInt32_toUInt32]

namespace Passed

/-- The five decimals that count, in the 8 bits of the counter. -/
theorem clamp_flen (p : Passed) :
    (if UInt8.ofNat (fracRounds p.rounds).length > 5 then 5
      else UInt8.ofNat (fracRounds p.rounds).length) = UInt8.ofNat p.flen := by
  have h8 : (UInt8.ofNat (fracRounds p.rounds).length).toNat
      = (fracRounds p.rounds).length % 256 := UInt8.toNat_ofNat'
  apply UInt8.toNat_inj.mp
  rw [p.toNat_flen, flen, ← h8]
  split
  · rename_i hgt
    have : 5 < (UInt8.ofNat (fracRounds p.rounds).length).toNat := UInt8.lt_iff_toNat_lt.mp hgt
    show 5 = _
    omega
  · rename_i hle
    have : ¬ 5 < (UInt8.ofNat (fracRounds p.rounds).length).toNat := fun h =>
      hle (UInt8.lt_iff_toNat_lt.mpr h)
    omega

/-- The integer digits, modulo `2 ^ 32`. -/
theorem nmeaDigits_int (p : Passed) (rest : Bytes) :
    nmeaDigits (p.digits ++ rest) (UInt8.ofNat (intRounds p.rounds).length)
      = some (UInt32.ofInt (rawVal (p.digits.take p.ilen))) := by
  have hilen : (UInt8.ofNat (intRounds p.rounds).length).toNat = p.ilen := UInt8.toNat_ofNat'
  obtain ⟨hint, -⟩ := p.length_digits
  rw [nmeaDigits_take _ _ (by rw [hilen, List.length_append]; omega), hilen,
    List.take_append_of_le_length hint]

/-- The decimals, modulo `2 ^ 32`. -/
theorem nmeaDigits_frac (p : Passed) (rest : Bytes) :
    nmeaDigits ((p.digits ++ rest).drop (p.ilen + 1)) (UInt8.ofNat p.flen)
      = some (UInt32.ofInt (rawVal ((p.digits.drop (p.ilen + 1)).take p.flen))) := by
  by_cases h0 : p.flen = 0
  · -- without decimals the loop reads nothing, wherever it would start
    rw [h0, List.take_zero]
    rfl
  · have hlen := p.length_digits.2 h0
    rw [List.drop_append_of_le_length (by omega),
      nmeaDigits_take _ _ (by simp [p.toNat_flen]; omega), p.toNat_flen,
      List.take_append_of_le_length (by rw [List.length_drop]; omega)]

end Passed

/-- **At a `','` or a `'*'`** the result is the value of the passed bytes. -/
theorem nmeaStr2num_stop (p : Passed) {c : UInt8} (hc : IsStop c) (rest : Bytes) :
    nmeaStr2num (p.text ++ c :: rest) = some (Int32.ofInt p.value, UInt8.ofNat p.flen) := by
  have hbuf : (if p.neg = true then (p.text ++ c :: rest).drop 1 else p.text ++ c :: rest)
      = p.digits ++ c :: rest := by
    rw [Passed.digits]
    cases hneg : p.neg with
    | false => rfl
    | true => exact List.drop_append_of_le_length (p.length_text_pos hneg)
  have hilen : (UInt8.ofNat (intRounds p.rounds).length).toNat = p.ilen := UInt8.toNat_ofNat'
  have hires := p.nmeaDigits_int (c :: rest)
  have hfres := p.nmeaDigits_frac (c :: rest)
  -- Both sums and the power are taken modulo 2 ^ 32.
  have hpow : nmeaPow 10 (UInt8.ofNat p.flen) = UInt32.ofInt (10 ^ p.flen : Nat) := by
    rw [nmeaPow_eq, p.toNat_flen, uint32_ofInt_natCast]
    rfl
  unfold nmeaStr2num
  rw [nmeaScan_stop p hc rest]
  simp only [Option.bind_eq_bind, Option.bind_some, hbuf, hires, hilen, p.clamp_flen, hfres, hpow,
    Option.pure_def, Passed.value, ← UInt32.ofInt_mul, ← UInt32.ofInt_add,
    toInt32_uint32_ofInt]
  cases p.neg with
  | false =>
      rw [if_neg (by decide), if_neg (by decide), Int.one_mul]
  | true =>
      rw [if_pos rfl, if_pos rfl, Int.neg_mul, Int.one_mul, Int32.ofInt_neg]

/-! ### Numbers -/

/-- Digits are passed in rounds of their own. -/
theorem exists_digitRounds {ds : Bytes} (hds : ∀ b ∈ ds, isDigit b = true) :
    ∃ rounds, roundsText rounds = ds ∧ rounds.length = ds.length
      ∧ ∀ r ∈ rounds, ScanRound.isInt r = true ∧ r.minus = false := by
  induction ds with
  | nil => exact ⟨[], rfl, rfl, by simp⟩
  | cons d ds ih =>
      obtain ⟨rounds, htext, hlen, hall⟩ := ih fun b hb => hds b (by simp [hb])
      refine ⟨.digit false d (hds d (by simp)) :: rounds, ?_, by simp [hlen], ?_⟩
      · rw [roundsText, List.flatMap_cons, ← roundsText, htext]
        rfl
      · simpa [ScanRound.isInt, ScanRound.minus] using hall

/-- So are the point and the decimals, if there are any. -/
theorem exists_fracRounds {frac : Bytes} (hfrac : ∀ b ∈ frac, isDigit b = true) :
    ∃ rounds, roundsText rounds = (if frac = [] then [] else 46 :: frac)
      ∧ rounds.length = frac.length ∧ intRounds rounds = [] ∧ fracRounds rounds = rounds
      ∧ ∀ r ∈ rounds, ScanRound.minus r = false := by
  cases frac with
  | nil => exact ⟨[], rfl, rfl, rfl, rfl, by simp⟩
  | cons d ds =>
      obtain ⟨rounds, htext, hlen, hall⟩ := exists_digitRounds fun b hb =>
        hfrac b (List.mem_cons_of_mem d hb)
      refine ⟨.point false d :: rounds, ?_, by simp [hlen], rfl, rfl, ?_⟩
      · rw [if_neg (by simp), roundsText, List.flatMap_cons, ← roundsText, htext]
        rfl
      · simpa [ScanRound.minus] using fun r hr => (hall r hr).2

/-- **A number is passed as its parts**: the sign with the first digit, and the point with the
first decimal. -/
theorem Number.exists_passed (n : Number) :
    ∃ p : Passed, p.text = n.text ∧ p.neg = n.neg
      ∧ (intRounds p.rounds).length = n.int.length
      ∧ (fracRounds p.rounds).length = n.frac.length := by
  obtain ⟨d, ds, hint, hd⟩ := n.head_digit
  obtain ⟨ints, hitext, hilen, hi⟩ := exists_digitRounds fun b hb =>
    n.int_digits b (by rw [hint]; exact List.mem_cons_of_mem d hb)
  obtain ⟨fracs, hftext, hflen, hfint, hffrac, hf⟩ := exists_fracRounds n.frac_digits
  -- The rounds in front of the point are those of the integer digits.
  have hall : ∀ r ∈ ScanRound.digit n.neg d hd :: ints, r.isInt = true := by
    simpa [ScanRound.isInt] using fun r hr => (hi r hr).1
  have hints : intRounds ((.digit n.neg d hd :: ints) ++ fracs) = .digit n.neg d hd :: ints := by
    rw [intRounds, List.takeWhile_append_of_pos hall, ← intRounds, hfint, List.append_nil]
  have hfracs : fracRounds ((.digit n.neg d hd :: ints) ++ fracs) = fracs := by
    rw [fracRounds, List.dropWhile_append_of_pos hall, ← fracRounds, hffrac]
  have hminus : ∀ rounds : List ScanRound, (∀ r ∈ rounds, r.minus = false) →
      rounds.any ScanRound.minus = false := fun rounds h => by simpa using h
  refine ⟨⟨(.digit n.neg d hd :: ints) ++ fracs, false⟩, ?_, ?_, ?_, ?_⟩
  · show roundsText _ ++ [] = _
    rw [List.append_nil, roundsText, List.flatMap_append, List.flatMap_cons, ← roundsText,
      ← roundsText, hitext, hftext, Number.text, numberText, hint, ScanRound.text]
    simp [minusText]
  · rw [Passed.neg, List.any_append, List.any_cons, hminus ints fun r hr => (hi r hr).2,
      hminus fracs hf]
    simp [ScanRound.minus]
  · rw [hints, hint, List.length_cons, List.length_cons, hilen]
  · rw [hfracs, hflen]

/-- **`NMEA_Str2num` on a number.** -/
theorem nmeaStr2num_number (n : Number) {t : UInt8} (ht : IsStop t) (rest : Bytes)
    (hint : n.int.length < 256) (hfrac : n.frac.length < 256) :
    nmeaStr2num (n.text ++ t :: rest)
      = some (Int32.ofInt (scaledValue n.text), UInt8.ofNat (fieldDecimals n.text)) := by
  obtain ⟨p, htext, hneg, hints, hfracs⟩ := n.exists_passed
  -- The digits are few enough for the 8-bit counters.
  have hilen : p.ilen = n.int.length := by
    rw [Passed.ilen, hints, Nat.mod_eq_of_lt hint]
  have hflen : p.flen = min 5 n.frac.length := by
    rw [Passed.flen, hfracs, Nat.mod_eq_of_lt hfrac]
  -- Behind the sign the digits are read as they stand.
  have hdigits : p.digits = n.int ++ (if n.frac = [] then [] else 46 :: n.frac) := by
    rw [← unsigned_text, unsigned, isNegative_text, Passed.digits, hneg, htext]
  have hdecimals : (p.digits.drop (p.ilen + 1)).take p.flen = n.frac.take 5 := by
    rw [hdigits, hilen, hflen, ← List.drop_drop, List.drop_left]
    split
    · rename_i h
      simp [h]
    · rw [List.drop_one, List.tail_cons, ← List.take_eq_take_min]
  have hval : p.value = scaledValue n.text := by
    have htake : ∀ b ∈ n.frac.take 5, isDigit b = true := fun b hb =>
      n.frac_digits b (List.mem_of_mem_take hb)
    rw [Passed.value, hneg, hdecimals, hdigits, hilen, List.take_left,
      rawVal_eq_decVal n.int_digits, rawVal_eq_decVal htake, n.scaledValue_text, Number.kept,
      decVal_append, List.length_take, hflen]
    push_cast
    rfl
  rw [← htext, nmeaStr2num_stop p ht, hval, hflen, htext, n.fieldDecimals_text]

/-- **`NMEA_Str2num` on a field** that is empty or a number, up to the `','` or `'*'`
behind it. -/
theorem nmeaStr2num_field {f : Bytes} (hf : IsNumberField f) (hlen : f.length < 255)
    {t : UInt8} (ht : IsStop t) (rest : Bytes) :
    nmeaStr2num (f ++ t :: rest)
      = some (Int32.ofInt (scaledValue f), UInt8.ofNat (fieldDecimals f)) := by
  rcases hf with rfl | ⟨n, rfl⟩
  · rw [List.nil_append, nmeaStr2num, nmeaScan_end ht]
    rfl
  · have hdigits := n.length_digits_le
    exact nmeaStr2num_number n ht rest (by omega) (by omega)

/-- **`NMEA_Str2num` is exact** on a number that fits, however its powers of ten wrap on the
way. -/
theorem nmeaStr2num_exact (n : Number) (hint : n.int.length ≤ 250) (hfrac : n.frac.length ≤ 250)
    (hrange : |n.truncated (min 5 n.frac.length)| < 2 ^ 31) {t : UInt8} (ht : IsStop t)
    (rest : Bytes) :
    ∃ v dx, nmeaStr2num (n.text ++ t :: rest) = some (v, dx)
      ∧ v.toInt = n.truncated (min 5 n.frac.length) ∧ dx.toNat = min 5 n.frac.length := by
  rw [n.truncated_fieldDecimals] at hrange ⊢
  obtain ⟨hlow, hhigh⟩ := abs_lt.mp hrange
  refine ⟨_, _, nmeaStr2num_number n ht rest (by omega) (by omega), ?_, ?_⟩
  · exact Int32.toInt_ofInt_of_le (Int.le_of_lt hlow) hhigh
  · rw [toNat_fieldDecimals, n.fieldDecimals_text]

/-- The number `-000000000000045.0000000`, with more zeros than the powers of ten can count. -/
def zeroPadded : Number where
  neg := true
  int := ascii "000000000000045"
  frac := ascii "0000000"
  int_ne := by decide
  int_digits := by decide
  frac_digits := by decide

theorem nmeaStr2num_exact_zeroPadded :
    ∃ v dx, nmeaStr2num (zeroPadded.text ++ 44 :: []) = some (v, dx)
      ∧ v.toInt = zeroPadded.truncated (min 5 zeroPadded.frac.length)
      ∧ dx.toNat = min 5 zeroPadded.frac.length :=
  nmeaStr2num_exact zeroPadded (by decide) (by decide) (by decide) (by decide) []

/-- A byte that is illegal, or a minus sign and one. -/
theorem nmeaScan_illegal {minus : Bool} {c : UInt8} (hc : IsIllegal minus c) (rest : Bytes)
    (s : NmeaScan) :
    nmeaScan (minusText minus ++ c :: rest) .round s
      = some { s with ilen := 0, flen := 0, neg := s.neg || minus } := by
  obtain ⟨hdigit, hstop, hpoint, hminus⟩ := hc
  have hout : c > 57 ∨ c < 48 := by
    by_contra hin
    push Not at hin
    have : isDigit c = true := by
      simpa [isDigit] using ⟨UInt8.not_lt.mp hin.2, UInt8.not_lt.mp hin.1⟩
    rw [hdigit] at this
    cases this
  have hstop' : ¬ (c = 44 ∨ c = 42) := hstop
  cases minus with
  | false => simp [minusText, nmeaScan, hminus rfl, hstop', hpoint, hout]
  | true => simp [minusText, nmeaScan, hstop', hpoint, hout]

/-- **At an illegal byte** the result is zero. -/
theorem nmeaStr2num_illegal (rounds : List ScanRound) {minus : Bool} {c : UInt8}
    (hc : IsIllegal minus c) (rest : Bytes) :
    nmeaStr2num (roundsText rounds ++ (minusText minus ++ c :: rest)) = some (0, 0) := by
  have hnone : ∀ buf, nmeaDigits buf 0 = some 0 := fun _ => rfl
  have hflen : (if (0 : UInt8) > 5 then 5 else 0) = (0 : UInt8) := by decide
  unfold nmeaStr2num
  rw [nmeaScan_rounds, nmeaScan_illegal hc]
  simp only [Option.bind_eq_bind, Option.bind_some, hflen, hnone]
  generalize ((rounds.foldl ScanRound.pass ⟨0, 0, false, false⟩).neg || minus) = neg
  cases neg <;> decide

/-! ### Running off the text -/

/-- The text ends with a point, which the scan gets to. -/
def RunsOff (text : Bytes) : Prop := ∃ p : Passed, text = p.text ++ [46]

/-- **Behind a point at the end** the scan takes a byte along that is not part of the text, and
goes on behind it. -/
theorem nmeaStr2num_runsOff {text : Bytes} (h : RunsOff text) (c : UInt8) :
    nmeaStr2num (text ++ [c]) = none := by
  obtain ⟨p, rfl⟩ := h
  have hscan : nmeaScan (p.text ++ [46] ++ [c]) .round ⟨0, 0, false, false⟩ = none := by
    rw [Passed.text, List.append_assoc, List.append_assoc, nmeaScan_rounds]
    show nmeaScan (minusText p.minus ++ 46 :: [c]) _ _ = none
    rw [nmeaScan_minusText _ (by decide), nmeaScan_point]
    rfl
  unfold nmeaStr2num
  rw [hscan]
  rfl

/-- Otherwise the scan gives the number up at the NUL at the latest. -/
theorem nmeaStr2num_isSome_iff (text : Bytes) :
    (nmeaStr2num (text ++ [0])).isSome ↔ ¬ RunsOff text := by
  constructor
  · intro hsome hoff
    rw [nmeaStr2num_runsOff hoff] at hsome
    cases hsome
  · intro hoff
    obtain ⟨rounds, minus, tail, rfl, hend⟩ := exists_rounds text
    cases hend with
    | done =>
        have hnul : IsIllegal minus 0 := ⟨rfl, by decide, by decide, fun _ => by decide⟩
        have h := nmeaStr2num_illegal rounds hnul []
        rw [List.append_nil, List.append_assoc, h]
        rfl
    | point =>
        refine absurd ⟨⟨rounds, minus⟩, ?_⟩ hoff
        rw [Passed.text, List.append_assoc]
    | stop b rest hb =>
        have h := nmeaStr2num_stop ⟨rounds, minus⟩ hb (rest ++ [0])
        rw [Passed.text] at h
        simp only [List.append_assoc, List.cons_append] at h ⊢
        rw [h]
        rfl
    | illegal b rest hb =>
        have h := nmeaStr2num_illegal rounds hb (rest ++ [0])
        simp only [List.append_assoc, List.cons_append]
        rw [h]
        rfl

/-! ### Lines -/

/-- The loop of `NMEA_Comma_Pos` stops at a control byte at the latest. -/
theorem nmeaCommaPosLoop_line (p : Bytes) {c : UInt8} (hc : c < 32) (rest : Bytes)
    (cx off : Nat) :
    nmeaCommaPosLoop (p ++ c :: rest) cx off = some 0xFF ∨
      ∃ n ≤ p.length, nmeaCommaPosLoop (p ++ c :: rest) cx off = some (UInt8.ofNat (off + n)) := by
  induction p generalizing cx off with
  | nil =>
      cases cx with
      | zero => exact Or.inr ⟨0, Nat.le_refl _, by rw [nmeaCommaPosLoop, Nat.add_zero]⟩
      | succ cx =>
          refine Or.inl ?_
          rw [List.nil_append, nmeaCommaPosLoop, if_pos (Or.inr (Or.inl hc))]
  | cons b p ih =>
      cases cx with
      | zero => exact Or.inr ⟨0, Nat.zero_le _, by rw [nmeaCommaPosLoop, Nat.add_zero]⟩
      | succ cx =>
          -- the next byte, whether this one was a comma or not
          have hgo : ∀ cx', nmeaCommaPosLoop (p ++ c :: rest) cx' (off + 1) = some 0xFF ∨
              ∃ n ≤ p.length + 1, nmeaCommaPosLoop (p ++ c :: rest) cx' (off + 1)
                = some (UInt8.ofNat (off + n)) := by
            intro cx'
            refine (ih cx' (off + 1)).imp_right ?_
            rintro ⟨n, hn, h⟩
            exact ⟨n + 1, by omega, by rw [h, Nat.add_assoc, Nat.add_comm 1 n]⟩
          rw [List.cons_append, nmeaCommaPosLoop]
          split
          · exact Or.inl rfl
          · split
            · exact hgo cx
            · exact hgo (cx + 1)

/-- **`NMEA_Comma_Pos` stays in front of a control byte**, and so does the pointer it stands
for. -/
theorem nmeaCommaPos_line (p : Bytes) {c : UInt8} (hc : c < 32) (rest : Bytes) (cx : UInt8) :
    ∃ posx, nmeaCommaPos (p ++ c :: rest) cx = some posx
      ∧ (posx = 0xFF ∨ posx.toNat ≤ p.length) := by
  rw [nmeaCommaPos]
  rcases nmeaCommaPosLoop_line p hc rest cx.toNat 0 with h | ⟨n, hn, h⟩
  · exact ⟨0xFF, h, Or.inl rfl⟩
  · refine ⟨_, h, Or.inr ?_⟩
    rw [UInt8.toNat_ofNat', Nat.zero_add]
    exact Nat.le_trans (Nat.mod_le _ _) hn

/-- A control byte is illegal. -/
theorem isIllegal_of_lt {c : UInt8} (hc : c < 32) (minus : Bool) : IsIllegal minus c := by
  have hlt : c.toNat < 32 := UInt8.lt_iff_toNat_lt.mp hc
  have hne : ∀ d : UInt8, 32 ≤ d.toNat → c ≠ d := by
    rintro d hd rfl
    omega
  refine ⟨?_, ?_, hne 46 (by decide), fun _ => hne 45 (by decide)⟩
  · rw [← Bool.not_eq_true, isDigit_iff]
    omega
  · rintro (h | h)
    · exact hne 44 (by decide) h
    · exact hne 42 (by decide) h

/-- **`NMEA_Str2num` in front of two control bytes** stays in front of them. -/
theorem nmeaStr2num_line_isSome (p : Bytes) {c d : UInt8} (hc : c < 32) (hd : d < 32)
    (rest : Bytes) : (nmeaStr2num (p ++ c :: d :: rest)).isSome := by
  obtain ⟨rounds, minus, tail, rfl, hend⟩ := exists_rounds p
  simp only [List.append_assoc]
  cases hend with
  | done =>
      rw [List.nil_append, nmeaStr2num_illegal rounds (isIllegal_of_lt hc minus)]
      rfl
  | point =>
      -- The first one is passed unread.
      have hround : roundsText rounds ++ (minusText minus ++ ([46] ++ c :: d :: rest))
          = roundsText (rounds ++ [.point minus c]) ++ (minusText false ++ d :: rest) := by
        simp [roundsText, ScanRound.text, minusText]
      rw [hround, nmeaStr2num_illegal _ (isIllegal_of_lt hd false)]
      rfl
  | stop b tail hb =>
      have h := nmeaStr2num_stop ⟨rounds, minus⟩ hb (tail ++ c :: d :: rest)
      rw [Passed.text, List.append_assoc] at h
      rw [List.cons_append, h]
      rfl
  | illegal b tail hb =>
      rw [List.cons_append, nmeaStr2num_illegal rounds hb]
      rfl

/-- A number field of a line that ends in two control bytes is read without a fault. -/
theorem fieldNumber_line_isSome (p : Bytes) {c d : UInt8} (hc : c < 32) (hd : d < 32)
    (rest : Bytes) (cx : UInt8) : (fieldNumber (p ++ c :: d :: rest) cx).isSome := by
  obtain ⟨posx, hpos, hle⟩ := nmeaCommaPos_line p hc (d :: rest) cx
  rw [fieldNumber, hpos, Option.bind_eq_bind, Option.bind_some]
  split
  · rfl
  · rename_i hne
    rw [List.drop_append_of_le_length (hle.resolve_left hne)]
    obtain ⟨v, hv⟩ := Option.isSome_iff_exists.mp
      (nmeaStr2num_line_isSome (p.drop posx.toNat) hc hd rest)
    rw [hv]
    rfl

end CarLocator.Gps
