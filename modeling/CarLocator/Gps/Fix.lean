import CarLocator.Gps.Fields
import CarLocator.Library.Runs

/-!
# `CarLocator.Gps.Fix`: the position through a loss of fix

Without a fix a receiver goes on sending `$GNRMC`, with the position, the hemispheres, the
time or the date left empty. The intended behaviour (`Retained`) is that each of the four
position members keeps what the last line with a non-empty field for it gave.

`rmcStep` feeds one line to `GPS_Analysis` and keeps the history of lines.
`position_retained_iff` says which runs behave as intended: exactly those in which no line
has an empty hemisphere field, and a line with an empty latitude (longitude) field comes
only while the latitude (longitude) held is zero. Otherwise the parser takes the byte
behind the empty field for the hemisphere, and reads the empty position as zero, since
`NMEA_Comma_Pos` reports an empty field like any other.
-/

set_option autoImplicit false

namespace CarLocator.Gps

open CarLocator.Library

/-! ### Lines -/

/-- A well-formed `$GNRMC` line. Any of its fields may be empty. -/
structure RmcLine extends Sentence where
  tag_eq : tag = .gnrmc
  numeric : toSentence.Numeric
  -- 'N' or 'S'
  nshemi_form : ∀ f ∈ toSentence.field 4, f = [] ∨ f = [78] ∨ f = [83]
  -- 'E' or 'W'
  ewhemi_form : ∀ f ∈ toSentence.field 6, f = [] ∨ f = [69] ∨ f = [87]

/-- What a line gives for field `k`: nothing when the field is empty or missing. -/
def RmcLine.given {α : Type} (k : Nat) (value : Bytes → α) (l : RmcLine) : Option α :=
  (l.field k).bind fun f => if f = [] then none else some (value f)

/-- The position a field stands for, in degrees times 100000. -/
def fieldDegrees (fl : Rounding) (f : Bytes) : UInt32 :=
  toDegrees fl (Int32.ofInt (scaledValue f)).toUInt32 (UInt8.ofNat (fieldDecimals f))

/-- The letter of a hemisphere field. -/
def fieldLetter (f : Bytes) : UInt8 := f.headD 0

/-- What the last line that gives something gave, or the initial value. -/
def lastGiven {α : Type} (given : RmcLine → Option α) (init : α) (past : List RmcLine) : α :=
  (past.reverse.findSome? given).getD init

/-- One more line. -/
theorem lastGiven_append {α : Type} (given : RmcLine → Option α) (init : α)
    (past : List RmcLine) (l : RmcLine) :
    lastGiven given init (past ++ [l]) = (given l).getD (lastGiven given init past) := by
  rw [lastGiven, lastGiven, List.reverse_append, List.reverse_singleton,
    List.singleton_append, List.findSome?_cons]
  cases given l <;> rfl

/-! ### Runs -/

/-- The parsed state with the lines it has been fed. -/
abbrev Fed := NmeaMsg × List RmcLine

/-- One line through `GPS_Analysis`, with what is behind it in the buffer. -/
def rmcStep (fl : Rounding) (s : Fed) (a : RmcLine × Bytes) : Option Fed :=
  (gpsAnalysis fl s.1 (a.1.buffer a.2)).map fun gpsx => (gpsx, s.2 ++ [a.1])

/-- The hemispheres are as `gps.h` documents them. -/
def HemisInRange (gpsx : NmeaMsg) : Prop :=
  gpsx.nshemi ∈ [0, 78, 83] ∧ gpsx.ewhemi ∈ [0, 69, 87]

instance (gpsx : NmeaMsg) : Decidable (HemisInRange gpsx) :=
  inferInstanceAs (Decidable (gpsx.nshemi ∈ [0, 78, 83] ∧ gpsx.ewhemi ∈ [0, 69, 87]))

/-- The position is the one last given, and the hemispheres are in range. -/
structure Retained (fl : Rounding) (init : NmeaMsg) (s : Fed) : Prop where
  latitude : s.1.latitude
    = lastGiven (RmcLine.given 3 (fieldDegrees fl)) init.latitude s.2
  nshemi : s.1.nshemi = lastGiven (RmcLine.given 4 fieldLetter) init.nshemi s.2
  longitude : s.1.longitude
    = lastGiven (RmcLine.given 5 (fieldDegrees fl)) init.longitude s.2
  ewhemi : s.1.ewhemi = lastGiven (RmcLine.given 6 fieldLetter) init.ewhemi s.2
  range : HemisInRange s.1

/-- The lines after which the position is still the one last given: the hemispheres are
not empty, and an empty position field only repeats the zero that is held. -/
def KeepsPosition (s : Fed) (a : RmcLine × Bytes) : Prop :=
  a.1.field 4 ≠ some [] ∧ a.1.field 6 ≠ some []
    ∧ (a.1.field 3 = some [] → s.1.latitude = 0)
    ∧ (a.1.field 5 = some [] → s.1.longitude = 0)

/-! ### One line -/

/-- An empty position field is read as zero. -/
theorem toDegrees_zero (fl : Rounding) : toDegrees fl 0 0 = 0 := by
  have hzero : ((0 : UInt32) % nmeaPow 10 (0 + 2)).toNat = 0 := by decide
  have hwhole : ((0 : UInt32) / nmeaPow 10 (0 + 2) * nmeaPow 10 5).toNat = 0 := by decide
  unfold toDegrees
  simp only [hzero, hwhole, Nat.cast_zero, fl.round_zero, zero_mul, zero_div, add_zero]
  rfl

/-- A position member after a line. -/
theorem RmcLine.fed_position (fl : Rounding) (l : RmcLine) (k : Nat) (old : UInt32) :
    l.fed k old (fun v => toDegrees fl v.1.toUInt32 v.2)
      = if l.field k = some [] then 0
        else (l.given k (fieldDegrees fl)).getD old := by
  cases hf : l.field k with
  | none => simp [Sentence.fed, Sentence.number, RmcLine.given, hf]
  | some f =>
      rw [l.fed_field hf]
      by_cases hempty : f = []
      · subst hempty
        rw [if_pos rfl]
        exact toDegrees_zero fl
      · simp [RmcLine.given, hf, hempty, fieldDegrees]

/-- A hemisphere member after a line. -/
theorem RmcLine.byte_hemisphere (l : RmcLine) (k : Nat) (old : UInt8) :
    (l.byte k).getD old
      = if l.field k = some [] then endByte l.fields.length k
        else (l.given k fieldLetter).getD old := by
  cases hf : l.field k with
  | none => simp [Sentence.byte, RmcLine.given, hf]
  | some f =>
      cases f with
      | nil => simp [Sentence.byte, hf]
      | cons b f => simp [Sentence.byte, RmcLine.given, hf, fieldLetter]

/-- The four members after a line. -/
theorem RmcLine.latitude_fed (fl : Rounding) (l : RmcLine) (gpsx : NmeaMsg) :
    (l.gnrmcFed fl gpsx).latitude = if l.field 3 = some [] then 0
      else (l.given 3 (fieldDegrees fl)).getD gpsx.latitude :=
  l.fed_position fl 3 gpsx.latitude

theorem RmcLine.nshemi_fed (fl : Rounding) (l : RmcLine) (gpsx : NmeaMsg) :
    (l.gnrmcFed fl gpsx).nshemi = if l.field 4 = some [] then endByte l.fields.length 4
      else (l.given 4 fieldLetter).getD gpsx.nshemi :=
  l.byte_hemisphere 4 gpsx.nshemi

theorem RmcLine.longitude_fed (fl : Rounding) (l : RmcLine) (gpsx : NmeaMsg) :
    (l.gnrmcFed fl gpsx).longitude = if l.field 5 = some [] then 0
      else (l.given 5 (fieldDegrees fl)).getD gpsx.longitude :=
  l.fed_position fl 5 gpsx.longitude

theorem RmcLine.ewhemi_fed (fl : Rounding) (l : RmcLine) (gpsx : NmeaMsg) :
    (l.gnrmcFed fl gpsx).ewhemi = if l.field 6 = some [] then endByte l.fields.length 6
      else (l.given 6 fieldLetter).getD gpsx.ewhemi :=
  l.byte_hemisphere 6 gpsx.ewhemi

/-- Every line is parsed without a fault. -/
theorem rmcStep_eq (fl : Rounding) (s : Fed) (a : RmcLine × Bytes) :
    rmcStep fl s a = some (a.1.gnrmcFed fl s.1, s.2 ++ [a.1]) := by
  rw [rmcStep, gpsAnalysis_sentence, a.1.tag_eq]
  show (nmeaGnrmcAnalysis fl s.1 (a.1.buffer a.2)).map _ = _
  rw [nmeaGnrmcAnalysis_sentence fl a.1.toSentence a.1.tag_eq a.1.numeric]
  rfl

/-- A letter a line gives is a hemisphere. -/
theorem RmcLine.letter_mem (l : RmcLine) {k : Nat} {letters : List UInt8}
    (hform : ∀ f ∈ l.field k, f = [] ∨ ∃ b ∈ letters, f = [b]) {old : UInt8}
    (hold : old ∈ 0 :: letters) : (l.given k fieldLetter).getD old ∈ 0 :: letters := by
  cases hf : l.field k with
  | none => simpa [RmcLine.given, hf] using hold
  | some f =>
      rcases hform f hf with rfl | ⟨b, hb, rfl⟩
      · simpa [RmcLine.given, hf] using hold
      · simp [RmcLine.given, hf, fieldLetter, hb]

/-- What ends a field is not a hemisphere. -/
theorem endByte_notMem (n k : Nat) : endByte n k ∉ [0, 78, 83] ∧ endByte n k ∉ [0, 69, 87] := by
  rcases endByte_cases n k with h | h <;> rw [h] <;> decide

/-- **One line keeps the position exactly when `KeepsPosition` says so.** -/
theorem retained_step_iff (fl : Rounding) (init : NmeaMsg) (s : Fed) (a : RmcLine × Bytes)
    (s' : Fed) (hs : Retained fl init s) (hstep : rmcStep fl s a = some s') :
    Retained fl init s' ↔ KeepsPosition s a := by
  rw [rmcStep_eq] at hstep
  obtain rfl := (Option.some.inj hstep).symm
  unfold KeepsPosition
  generalize a.1 = l
  constructor
  · intro h
    have hlat := h.latitude
    have hlon := h.longitude
    have hrange := h.range
    rw [lastGiven_append, ← hs.latitude, l.latitude_fed] at hlat
    rw [lastGiven_append, ← hs.longitude, l.longitude_fed] at hlon
    rw [HemisInRange, l.nshemi_fed, l.ewhemi_fed] at hrange
    refine ⟨?_, ?_, ?_, ?_⟩
    · intro h4
      rw [if_pos h4] at hrange
      exact (endByte_notMem _ _).1 hrange.1
    · intro h6
      rw [if_pos h6] at hrange
      exact (endByte_notMem _ _).2 hrange.2
    · intro h3
      rw [if_pos h3] at hlat
      simpa [RmcLine.given, h3] using hlat.symm
    · intro h5
      rw [if_pos h5] at hlon
      simpa [RmcLine.given, h5] using hlon.symm
  · rintro ⟨h4, h6, h3, h5⟩
    refine ⟨?_, ?_, ?_, ?_, ?_, ?_⟩
    · rw [lastGiven_append, ← hs.latitude, l.latitude_fed]
      split
      · rename_i hempty
        simp [RmcLine.given, hempty, h3 hempty]
      · rfl
    · rw [lastGiven_append, ← hs.nshemi, l.nshemi_fed, if_neg h4]
    · rw [lastGiven_append, ← hs.longitude, l.longitude_fed]
      split
      · rename_i hempty
        simp [RmcLine.given, hempty, h5 hempty]
      · rfl
    · rw [lastGiven_append, ← hs.ewhemi, l.ewhemi_fed, if_neg h6]
    · rw [l.nshemi_fed, if_neg h4]
      exact l.letter_mem (fun f hf => by simpa using l.nshemi_form f hf) hs.range.1
    · rw [l.ewhemi_fed, if_neg h6]
      exact l.letter_mem (fun f hf => by simpa using l.ewhemi_form f hf) hs.range.2

/-! ### All lines -/

/-- Every run reaches its end. -/
theorem run_rmcStep_isSome (fl : Rounding) (s : Fed) (lines : List (RmcLine × Bytes)) :
    (run (rmcStep fl) s lines).isSome := by
  induction lines generalizing s with
  | nil => rfl
  | cons a lines ih =>
      rw [run_cons, rmcStep_eq]
      exact ih _

/-- **When the position is retained.** From a state with the hemispheres in range, the
position is the one last given after every line exactly when every line meets
`KeepsPosition`. -/
theorem position_retained_iff (fl : Rounding) (init : NmeaMsg) (hinit : HemisInRange init)
    (lines : List (RmcLine × Bytes)) :
    (run (rmcStep fl) (init, []) lines).isSome
      ∧ (Always (rmcStep fl) (Retained fl init) (init, []) lines
        ↔ Guarded (rmcStep fl) KeepsPosition (init, []) lines) := by
  have hs : Retained fl init (init, []) := ⟨rfl, rfl, rfl, rfl, hinit⟩
  exact ⟨run_rmcStep_isSome fl _ lines,
    always_iff_guarded (retained_step_iff fl init) hs⟩

/-- A line with a fix. -/
def fixLine : RmcLine where
  tag := .gnrmc
  fields := [ascii "092204.999", ascii "A", ascii "4250.5589", ascii "S",
    ascii "14718.5084", ascii "E", ascii "0.00", ascii "89.68", ascii "211200", [], []]
  checksum := ascii "25"
  field_bytes := by decide
  no_gnrmc := by decide
  checksum_hex := by decide
  checksum_length := by decide
  length_lt := by decide
  tag_eq := rfl
  numeric := by decide
  nshemi_form := by decide
  ewhemi_form := by decide

/-- The line a receiver sends when the fix is lost. -/
def noFixLine : RmcLine where
  tag := .gnrmc
  fields := [ascii "092205.999", ascii "V", [], [], [], [], [], [], ascii "211200", [], []]
  checksum := ascii "3C"
  field_bytes := by decide
  no_gnrmc := by decide
  checksum_hex := by decide
  checksum_length := by decide
  length_lt := by decide
  tag_eq := rfl
  numeric := by decide
  nshemi_form := by decide
  ewhemi_form := by decide

theorem position_retained_iff_fix_lost :
    (run (rmcStep .exact) (gpsData, []) [(fixLine, []), (noFixLine, [])]).isSome
      ∧ (Always (rmcStep .exact) (Retained .exact gpsData) (gpsData, [])
          [(fixLine, []), (noFixLine, [])]
        ↔ Guarded (rmcStep .exact) KeepsPosition (gpsData, [])
          [(fixLine, []), (noFixLine, [])]) :=
  position_retained_iff .exact gpsData (by decide) [(fixLine, []), (noFixLine, [])]

/-- The first line without a fix overwrites the hemisphere with a comma. -/
theorem position_not_retained :
    ¬ Always (rmcStep .exact) (Retained .exact gpsData) (gpsData, [])
      [(fixLine, []), (noFixLine, [])] := by
  intro h
  have hrun : run (rmcStep .exact) (gpsData, []) [(fixLine, []), (noFixLine, [])]
      = some (noFixLine.gnrmcFed .exact (fixLine.gnrmcFed .exact gpsData),
        [fixLine, noFixLine]) := by
    rw [run_cons, rmcStep_eq, Option.bind_some, run_cons, rmcStep_eq, Option.bind_some,
      run_nil]
    rfl
  have hrange := (h.last hrun).range.1
  rw [noFixLine.nshemi_fed] at hrange
  exact absurd hrange (by decide)

end CarLocator.Gps
