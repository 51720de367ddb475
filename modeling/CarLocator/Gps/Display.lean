import CarLocator.Gps.Fields
import CarLocator.Gps.PositionLog
import CarLocator.Lcd.Screen
import CarLocator.Library.Printf

/-!
# `CarLocator.Gps.Display`: the speed and the position on the display

`NMEA_GNRMC_Analysis` shows the position and `NMEA_GNVTG_Analysis` the speed, each with
`sprintf` and `LCD_ShowString`. `nmeaGnrmcAnalysisShown` and `nmeaGnvtgAnalysisShown` are these
functions with their calls of `LCD_ShowString`, and without the calls they are the functions
of `CarLocator.Gps.Nmea` (`gpsAnalysisShown_gpsx`).

A run is a sequence of lines, from the screen that `main` has set up. After a line each of the
three fields should read the text that was formatted for it last, with blanks behind it
(`DisplayRight`). `LCD_ShowString` draws only the characters of the text, so the end of a longer
text stays where it was. `display_iff` states which lines leave every field right.
-/

set_option autoImplicit false

namespace CarLocator.Gps

open CarLocator.Library CarLocator.Lcd

/-! ### The analysis functions with their calls -/

/-- `sprintf` with ``"%2d:%2d`%2d\"  %1c\n"``, and its NUL. -/
def positionText (dms : Int32 × Int32 × Int32) (hemi : UInt8) : Bytes :=
  formatInt 2 dms.1.toInt ++ ascii ":" ++ formatInt 2 dms.2.1.toInt ++ ascii "`"
    ++ formatInt 2 dms.2.2.toInt ++ ascii "\"  " ++ [hemi, 10, 0]

/-- `sprintf` with `"%.2f  km/h\n"` of `(float)gpsx->speed / 1000`, and its NUL. -/
def speedText (fl : Rounding) (speed : UInt16) : Bytes :=
  formatFixed 2 (fl.round (fl.round speed.toNat / 1000)) ++ ascii "  km/h" ++ [10, 0]

/-- A position of `NMEA_GNRMC_Analysis` from field `cx`: it is stored into a member, and shown in
line `y` with its hemisphere. -/
def showPosition (fl dbl : Rounding) (cx : UInt8) (p1 : Bytes) (gpsx : NmeaMsg) (y : UInt16)
    (hemi : UInt8) (store : UInt32 → NmeaMsg) : Option (NmeaMsg × List StringCall) := do
  match ← fieldNumber p1 cx with
  | some (v, dx) =>
    let position := toDegrees fl v.toUInt32 dx
    let data := positionText (toDms fl dbl position) hemi
    pure (store position, [⟨20 + 88, y, 100, 16, 16, data⟩])
  | none => pure (gpsx, [])

/-- The latitude of `NMEA_GNRMC_Analysis`. -/
def showLatitude (fl dbl : Rounding) (p1 : Bytes) (gpsx : NmeaMsg) :
    Option (NmeaMsg × List StringCall) :=
  showPosition fl dbl 3 p1 gpsx 120 gpsx.nshemi fun latitude => { gpsx with latitude := latitude }

/-- The longitude of `NMEA_GNRMC_Analysis`. -/
def showLongitude (fl dbl : Rounding) (p1 : Bytes) (gpsx : NmeaMsg) :
    Option (NmeaMsg × List StringCall) :=
  showPosition fl dbl 5 p1 gpsx 80 gpsx.ewhemi fun longitude =>
    { gpsx with longitude := longitude }

/-- `NMEA_GNRMC_Analysis` with what it shows. -/
def nmeaGnrmcAnalysisShown (fl dbl : Rounding) (gpsx : NmeaMsg) (buf : Bytes) :
    Option (NmeaMsg × List StringCall) := do
  let p1 ← strstr (ascii "GNRMC") buf
  let gpsx ← feed p1 1 gpsx fun (v, dx) => withTime gpsx v dx
  let gpsx ← feedByte p1 4 gpsx fun b => { gpsx with nshemi := b }
  let (gpsx, latitude) ← showLatitude fl dbl p1 gpsx
  let gpsx ← feedByte p1 6 gpsx fun b => { gpsx with ewhemi := b }
  let (gpsx, longitude) ← showLongitude fl dbl p1 gpsx
  let gpsx ← feed p1 9 gpsx fun (v, _) => withDate gpsx v
  pure (gpsx, latitude ++ longitude)

/-- `NMEA_GNVTG_Analysis` with what it shows. -/
def nmeaGnvtgAnalysisShown (fl : Rounding) (gpsx : NmeaMsg) (buf : Bytes) :
    Option (NmeaMsg × List StringCall) := do
  let p1 ← strstr (ascii "$GNVTG") buf
  match ← fieldNumber p1 7 with
  | some (v, dx) =>
    let speed := toSpeed v dx
    pure ({ gpsx with speed := speed }, [⟨20 + 8 * 10, 160, 100, 16, 16, speedText fl speed⟩])
  | none => pure (gpsx, [])

/-- One `if (strstr(buf, tag)) Analysis(gpsx, buf)` of `GPS_Analysis`. -/
def whenTaggedShown (tag buf : Bytes)
    (analysis : NmeaMsg → Bytes → Option (NmeaMsg × List StringCall)) (gpsx : NmeaMsg) :
    Option (NmeaMsg × List StringCall) :=
  if (strstr tag buf).isSome then analysis gpsx buf else some (gpsx, [])

/-- `GPS_Analysis` with what it shows. -/
def gpsAnalysisShown (fl dbl : Rounding) (gpsx : NmeaMsg) (buf : Bytes) :
    Option (NmeaMsg × List StringCall) := do
  let gpsx ← gpsAnalysisBefore gpsx buf
  let (gpsx, position) ←
    whenTaggedShown (ascii "GNRMC") buf (nmeaGnrmcAnalysisShown fl dbl) gpsx
  let (gpsx, speed) ← whenTaggedShown (ascii "$GNVTG") buf (nmeaGnvtgAnalysisShown fl) gpsx
  pure (gpsx, position ++ speed)

/-- The strings that `main` shows first. -/
def mainStrings : List StringCall :=
  [⟨80, 20, 100, 16, 16, ascii "Car Locator" ++ [0]⟩,
    ⟨20, 80, 100, 16, 16, ascii "longitude:" ++ [0]⟩,
    ⟨20, 120, 100, 16, 16, ascii "latitude:" ++ [0]⟩,
    ⟨20, 160, 100, 16, 16, ascii "Speed:" ++ [0]⟩]

/-- The text of a position fits into `data`. -/
theorem length_positionText_le (dms : Int32 × Int32 × Int32) (hemi : UInt8) :
    (positionText dms hemi).length ≤ 50 := by
  have hint : ∀ v : Int32, (formatInt 2 v.toInt).length ≤ 11 := by
    intro v
    have hlow := v.le_toInt
    have hhigh := v.toInt_lt
    exact length_formatInt_le 2 (n := 10) (by decide) (by omega)
  have hdeg := hint dms.1
  have hfen := hint dms.2.1
  have hmiao := hint dms.2.2
  have hrest : (ascii ":").length = 1 ∧ (ascii "`").length = 1 ∧ (ascii "\"  ").length = 3 := by
    decide
  simp only [positionText, List.length_append, List.length_cons, List.length_nil]
  omega

/-! ### The same functions without their calls -/

/-- A position that is not shown. -/
theorem showPosition_fst (fl dbl : Rounding) (cx : UInt8) (p1 : Bytes) (gpsx : NmeaMsg)
    (y : UInt16) (hemi : UInt8) (store : UInt32 → NmeaMsg) :
    (showPosition fl dbl cx p1 gpsx y hemi store).map Prod.fst
      = feed p1 cx gpsx fun (v, dx) => store (toDegrees fl v.toUInt32 dx) := by
  rw [showPosition, feed]
  rcases fieldNumber p1 cx with _ | _ | _ <;> rfl

/-- `NMEA_GNRMC_Analysis` without its calls. -/
theorem nmeaGnrmcAnalysisShown_fst (fl dbl : Rounding) (gpsx : NmeaMsg) (buf : Bytes) :
    (nmeaGnrmcAnalysisShown fl dbl gpsx buf).map Prod.fst = nmeaGnrmcAnalysis fl gpsx buf := by
  unfold nmeaGnrmcAnalysisShown nmeaGnrmcAnalysis
  refine map_bind_eq id Option.map_id' fun p1 => ?_
  refine map_bind_eq id Option.map_id' fun g₁ => ?_
  refine map_bind_eq id Option.map_id' fun g₂ => ?_
  refine map_bind_eq Prod.fst (showPosition_fst fl dbl 3 p1 g₂ _ _ _) fun ⟨g₃, latitude⟩ => ?_
  refine map_bind_eq id Option.map_id' fun g₄ => ?_
  refine map_bind_eq Prod.fst (showPosition_fst fl dbl 5 p1 g₄ _ _ _) fun ⟨g₅, longitude⟩ => ?_
  show _ = feed p1 9 g₅ fun x => withDate g₅ x.1
  rw [← Option.bind_fun_some (feed p1 9 g₅ _)]
  exact map_bind_eq id Option.map_id' fun g₆ => rfl

/-- `NMEA_GNVTG_Analysis` without its call. -/
theorem nmeaGnvtgAnalysisShown_fst (fl : Rounding) (gpsx : NmeaMsg) (buf : Bytes) :
    (nmeaGnvtgAnalysisShown fl gpsx buf).map Prod.fst = nmeaGnvtgAnalysis gpsx buf := by
  unfold nmeaGnvtgAnalysisShown nmeaGnvtgAnalysis
  refine map_bind_eq id Option.map_id' fun p1 => ?_
  show _ = feed p1 7 gpsx _
  rw [feed]
  rcases fieldNumber p1 7 with _ | _ | _ <;> rfl

/-- One test without the calls. -/
theorem whenTaggedShown_fst (tag buf : Bytes)
    {shown : NmeaMsg → Bytes → Option (NmeaMsg × List StringCall)}
    {analysis : NmeaMsg → Bytes → Option NmeaMsg}
    (h : ∀ gpsx, (shown gpsx buf).map Prod.fst = analysis gpsx buf) (gpsx : NmeaMsg) :
    (whenTaggedShown tag buf shown gpsx).map Prod.fst = whenTagged tag buf analysis gpsx := by
  unfold whenTaggedShown whenTagged
  split
  · exact h gpsx
  · rfl

/-- **`GPS_Analysis` without what it shows.** -/
theorem gpsAnalysisShown_gpsx (fl dbl : Rounding) (gpsx : NmeaMsg) (buf : Bytes) :
    (gpsAnalysisShown fl dbl gpsx buf).map Prod.fst = gpsAnalysis fl gpsx buf := by
  have hsplit : gpsAnalysis fl gpsx buf
      = (gpsAnalysisBefore gpsx buf).bind fun gpsx =>
        (whenTagged (ascii "GNRMC") buf (nmeaGnrmcAnalysis fl) gpsx).bind
          (whenTagged (ascii "$GNVTG") buf nmeaGnvtgAnalysis) := by
    simp only [gpsAnalysis, gpsAnalysisBefore, Option.bind_eq_bind, Option.bind_assoc]
  rw [hsplit]
  refine map_bind_eq id Option.map_id' fun g₁ => ?_
  refine map_bind_eq Prod.fst (whenTaggedShown_fst _ buf
    (fun g => nmeaGnrmcAnalysisShown_fst fl dbl g buf) g₁) fun r => ?_
  rw [← Option.bind_fun_some (whenTagged _ buf _ _)]
  exact map_bind_eq Prod.fst (whenTaggedShown_fst _ buf
    (fun g => nmeaGnvtgAnalysisShown_fst fl g buf) r.1) fun _ => rfl

/-! ### The fields of the display -/

/-- The fields that the two functions write. -/
inductive Row
  | speed
  | latitude
  | longitude
  deriving DecidableEq, Repr

/-- Where a field starts. -/
def Row.x : Row → UInt16
  | .speed => 20 + 8 * 10
  | .latitude | .longitude => 20 + 88
def Row.y : Row → UInt16
  | .speed => 160
  | .latitude => 120
  | .longitude => 80

/-- How many characters a field of 100 pixels has. -/
def rowCells : Nat := lineCells 100 16

/-- A call that shows a text in a field. -/
def Row.call (row : Row) (p : Bytes) : StringCall := ⟨row.x, row.y, 100, 16, 16, p⟩

/-- The parsed data, the screen, and for each field the text that was formatted for it last,
an empty one before the first. -/
structure DisplayState where
  gpsx : NmeaMsg
  screen : Screen
  last : Row → Bytes

/-- What a field reads. -/
def DisplayState.read (s : DisplayState) (row : Row) : Bytes :=
  s.screen.field row.x row.y 16 rowCells

/-- A call of `LCD_ShowString`. -/
def DisplayState.showString (s : DisplayState) (c : StringCall) : Option DisplayState := do
  let screen ← s.screen.showString c
  pure { s with
    screen := screen
    last := fun row => if c.x = row.x ∧ c.y = row.y then c.p else s.last row }

/-- A line `$GNVTG` or `$GNRMC` whose number fields are empty or numbers, and what was in the
buffer before. -/
structure DisplayLine where
  sentence : Sentence
  junk : Bytes
  tag : sentence.tag = .gnvtg ∨ sentence.tag = .gnrmc
  numeric : sentence.Numeric

/-- A line as a step of a run. -/
def displayStep (fl dbl : Rounding) (s : DisplayState) (l : DisplayLine) :
    Option DisplayState := do
  let (gpsx, calls) ← gpsAnalysisShown fl dbl s.gpsx (l.sentence.buffer l.junk)
  calls.foldlM DisplayState.showString { s with gpsx := gpsx }

/-- The screen behind `main`. -/
def startScreen : Screen := (mainStrings.foldlM Screen.showString .clear).getD .clear

/-- Before the first line. -/
def DisplayState.start (gpsx : NmeaMsg) : DisplayState := ⟨gpsx, startScreen, fun _ => []⟩

/-- A number of the sentence, as a text for a field. -/
def Sentence.shown (s : Sentence) (row : Row) (k : Nat) (text : Int32 × UInt8 → Bytes) :
    List (Row × Bytes) :=
  ((s.number k).map fun v => (row, text v)).toList

/-- The texts that a line is shown with. -/
def DisplayLine.texts (fl dbl : Rounding) (l : DisplayLine) (gpsx : NmeaMsg) :
    List (Row × Bytes) :=
  let position (hemi : UInt8) (v : Int32 × UInt8) : Bytes :=
    positionText (toDms fl dbl (toDegrees fl v.1.toUInt32 v.2)) hemi
  if l.sentence.tag = .gnvtg then
    l.sentence.shown .speed 7 fun v => speedText fl (toSpeed v.1 v.2)
  else
    l.sentence.shown .latitude 3 (position ((l.sentence.byte 4).getD gpsx.nshemi))
      ++ l.sentence.shown .longitude 5 (position ((l.sentence.byte 6).getD gpsx.ewhemi))

/-- A field reads the text that was formatted for it last, with blanks behind it. -/
def RowRight (s : DisplayState) (row : Row) : Prop :=
  s.read row = padded 32 rowCells (lineOf (s.last row))

/-- All fields do. -/
def DisplayRight (s : DisplayState) : Prop := ∀ row, RowRight s row

/-- Each text of the line fits into its field, and covers what was shown there, blanks apart. -/
def LineCovers (fl dbl : Rounding) (s : DisplayState) (l : DisplayLine) : Prop :=
  ∀ t ∈ l.texts fl dbl s.gpsx, Covers 32 rowCells (lineOf t.2) (lineOf (s.last t.1))

/-! ### One text in its field -/

/-- The state once a text has been shown in its field. -/
def DisplayState.put (s : DisplayState) (row : Row) (p : Bytes) : DisplayState :=
  { s with
    screen := (stringCells row.x row.y 100 16 16 (lineOf p) 0).foldl Screen.showChar s.screen
    last := Function.update s.last row p }

/-- The fields are on the panel. -/
theorem Row.onPanel (row : Row) : OnPanel ⟨240, 320⟩ row.x row.y 100 16 := by
  cases row <;> exact ⟨by decide, by decide, by decide, by decide⟩

/-- They are in different lines. -/
theorem Row.y_inj {row row' : Row} (h : row.y = row'.y) : row = row' := by
  cases row <;> cases row' <;> first | rfl | exact absurd h (by decide)

/-- A call of `LCD_ShowString` for a field. -/
theorem showString_call (s : DisplayState) (row : Row) {p : Bytes} (h : (0 : UInt8) ∈ p) :
    s.showString (row.call p) = some (s.put row p) := by
  obtain ⟨stop, rest, hp, hstop⟩ := exists_lineOf_stop h
  have hkeeps : KeepsMargin row.x 100 16 16 (lineOf p) :=
    Or.inr (Or.inr ⟨by decide, Or.inr (Or.inr (by decide))⟩)
  have hlayout := lcdShowString_layout (by decide) row.onPanel isPrintable_of_mem_lineOf hstop
    rest hkeeps
  rw [← hp] at hlayout
  have hlast : (fun r : Row => if (row.call p).x = r.x ∧ (row.call p).y = r.y then (row.call p).p
      else s.last r) = Function.update s.last row p := by
    funext r
    by_cases hr : r = row
    · rw [hr, Function.update_self, if_pos ⟨rfl, rfl⟩]
      rfl
    · rw [Function.update_of_ne hr, if_neg fun h => hr (Row.y_inj h.2).symm]
  rw [DisplayState.showString, Screen.showString]
  simp only [hlast]
  show ((lcdShowString row.x row.y 100 16 16 p).bind _).bind _ = _
  rw [hlayout]
  rfl

/-- The field of the text. -/
theorem read_put_self (s : DisplayState) (row : Row) (p : Bytes) :
    (s.put row p).read row = overlay (lineOf p) (s.read row) :=
  field_showCells (by decide) row.onPanel (by decide) (by decide) (lineOf p) s.screen

/-- Another field. -/
theorem read_put_other (s : DisplayState) {row row' : Row} (h : row' ≠ row) (p : Bytes) :
    (s.put row p).read row' = s.read row' := by
  have hother : ∀ c ∈ stringCells row.x row.y 100 16 16 (lineOf p) 0, c.y ≠ row'.y := by
    intro c hc hy
    rw [y_of_mem_stringCells (by decide) hc] at hy
    exact h (Row.y_inj hy).symm
  exact List.map_congr_left fun k _ => showCells_other hother s.screen _

/-- **One text** leaves its field right exactly when it covers what was shown there. -/
theorem rowRight_put_self {s : DisplayState} {row : Row} (h : RowRight s row) (p : Bytes) :
    RowRight (s.put row p) row ↔
      Covers 32 rowCells (lineOf p) (lineOf (s.last row)) := by
  have hold := length_le_of_padded h (length_field _ _ _ _ _)
  rw [RowRight, read_put_self, h]
  show overlay _ _ = padded 32 rowCells (lineOf (Function.update s.last row p row)) ↔ _
  rw [Function.update_self]
  exact overlay_padded_iff hold

/-- Another field stays as it is. -/
theorem rowRight_put_other {s : DisplayState} {row row' : Row} (h : row' ≠ row) (p : Bytes) :
    RowRight (s.put row p) row' ↔ RowRight s row' := by
  rw [RowRight, read_put_other s h]
  show _ = padded 32 rowCells (lineOf (Function.update s.last row p row')) ↔ _
  rw [Function.update_of_ne h]
  rfl

/-! ### The texts of one line -/

/-- The state once some texts have been shown. -/
def DisplayState.puts (s : DisplayState) (texts : List (Row × Bytes)) : DisplayState :=
  texts.foldl (fun s t => s.put t.1 t.2) s

/-- The calls of `LCD_ShowString` for them. -/
theorem showString_calls (s : DisplayState) {texts : List (Row × Bytes)}
    (h : ∀ t ∈ texts, (0 : UInt8) ∈ t.2) :
    (texts.map fun t => t.1.call t.2).foldlM DisplayState.showString s
      = some (s.puts texts) := by
  induction texts generalizing s with
  | nil => rfl
  | cons t texts ih =>
      rw [List.map_cons, List.foldlM_cons, showString_call s t.1 (h t List.mem_cons_self)]
      exact ih _ fun t' ht' => h t' (List.mem_cons_of_mem _ ht')

/-- Texts for other fields. -/
theorem rowRight_puts_other {s : DisplayState} {texts : List (Row × Bytes)} {row : Row}
    (h : row ∉ texts.map Prod.fst) : RowRight (s.puts texts) row ↔ RowRight s row := by
  induction texts generalizing s with
  | nil => exact Iff.rfl
  | cons t texts ih =>
      rw [List.map_cons, List.mem_cons, not_or] at h
      exact (ih h.2).trans (rowRight_put_other h.1 t.2)

/-- **Some texts**, for different fields, leave a field right exactly when the one for it covers
what was shown there. -/
theorem rowRight_puts_iff {s : DisplayState} {texts : List (Row × Bytes)}
    (hnodup : (texts.map Prod.fst).Nodup) {row : Row} (h : RowRight s row) :
    RowRight (s.puts texts) row ↔
      ∀ t ∈ texts, t.1 = row → Covers 32 rowCells (lineOf t.2) (lineOf (s.last row)) := by
  induction texts generalizing s with
  | nil => exact iff_of_true h fun t ht => absurd ht List.not_mem_nil
  | cons t texts ih =>
      rw [List.map_cons, List.nodup_cons] at hnodup
      rw [List.forall_mem_cons]
      by_cases hrow : t.1 = row
      · -- no later text is for the same field
        subst hrow
        have hrest : ∀ t' ∈ texts, t'.1 ≠ t.1 := fun t' ht' heq =>
          hnodup.1 (heq ▸ List.mem_map_of_mem ht')
        have hput := rowRight_put_self h t.2
        refine (rowRight_puts_other hnodup.1).trans (hput.trans ?_)
        exact ⟨fun hc => ⟨fun _ => hc, fun t' ht' heq => absurd heq (hrest t' ht')⟩,
          fun hc => hc.1 rfl⟩
      · have hput := (rowRight_put_other (Ne.symm hrow) t.2).mpr h
        have hlast : (s.put t.1 t.2).last row = s.last row :=
          Function.update_of_ne (Ne.symm hrow) _ _
        have hnext := ih hnodup.2 hput
        rw [hlast] at hnext
        exact hnext.trans (and_iff_right fun heq => absurd heq hrow).symm

/-! ### One line -/

/-- What a text for a field is. -/
theorem Sentence.of_mem_shown {s : Sentence} {row : Row} {k : Nat}
    {text : Int32 × UInt8 → Bytes} {t : Row × Bytes} (h : t ∈ s.shown row k text) :
    ∃ v, t = (row, text v) := by
  obtain ⟨v, -, rfl⟩ := Option.map_eq_some_iff.mp (Option.mem_toList.mp h)
  exact ⟨v, rfl⟩

/-- Every text ends in a NUL. -/
theorem zero_mem_texts (fl dbl : Rounding) (l : DisplayLine) (gpsx : NmeaMsg) :
    ∀ t ∈ l.texts fl dbl gpsx, (0 : UInt8) ∈ t.2 := by
  have hposition : ∀ dms hemi, (0 : UInt8) ∈ positionText dms hemi := fun _ _ =>
    List.mem_append_right _ (by simp)
  have hspeed : ∀ speed, (0 : UInt8) ∈ speedText fl speed := fun _ =>
    List.mem_append_right _ (by simp)
  intro t ht
  rw [DisplayLine.texts] at ht
  split at ht
  · obtain ⟨v, rfl⟩ := Sentence.of_mem_shown ht
    exact hspeed _
  · rcases List.mem_append.mp ht with ht | ht
    · obtain ⟨v, rfl⟩ := Sentence.of_mem_shown ht
      exact hposition _ _
    · obtain ⟨v, rfl⟩ := Sentence.of_mem_shown ht
      exact hposition _ _

/-- The texts of a line are for different fields. -/
theorem nodup_texts (fl dbl : Rounding) (l : DisplayLine) (gpsx : NmeaMsg) :
    ((l.texts fl dbl gpsx).map Prod.fst).Nodup := by
  rw [DisplayLine.texts]
  split
  · rw [Sentence.shown]
    cases l.sentence.number 7 <;> simp
  · rw [Sentence.shown, Sentence.shown]
    cases l.sentence.number 3 <;> cases l.sentence.number 5 <;> simp

/-- A position of the sentence. -/
theorem showPosition_sentence (fl dbl : Rounding) (s : Sentence) (junk : Bytes) {k : UInt8}
    (hk : 0 < k.toNat) (hnum : ∀ f, s.field k.toNat = some f → IsNumberField f) (gpsx : NmeaMsg)
    (row : Row) (hx : row.x = 20 + 88) (hemi : UInt8) (store : UInt32 → NmeaMsg) :
    showPosition fl dbl k (s.start junk) gpsx row.y hemi store
      = some ((s.number k.toNat).elim gpsx fun v => store (toDegrees fl v.1.toUInt32 v.2),
        (s.shown row k.toNat fun v => positionText (toDms fl dbl
          (toDegrees fl v.1.toUInt32 v.2)) hemi).map fun t => t.1.call t.2) := by
  rw [showPosition, fieldNumber_sentence s junk hk hnum, Sentence.shown, ← hx]
  cases s.number k.toNat <;> rfl

/-- `NMEA_GNVTG_Analysis` shows the texts of its line. -/
theorem nmeaGnvtgAnalysisShown_line (fl dbl : Rounding) (l : DisplayLine)
    (htag : l.sentence.tag = .gnvtg) (gpsx : NmeaMsg) :
    ∃ gpsx', nmeaGnvtgAnalysisShown fl gpsx (l.sentence.buffer l.junk)
      = some (gpsx', (l.texts fl dbl gpsx).map fun t => t.1.call t.2) := by
  have hnum := l.numeric
  rw [Sentence.Numeric, htag] at hnum
  have hstart : strstr (ascii "$GNVTG") (l.sentence.buffer l.junk)
      = some (l.sentence.start l.junk) := l.sentence.strstr_of_tag htag l.junk
  have hfield := fieldNumber_sentence l.sentence l.junk (k := 7) (by decide)
    (hnum 7 (by decide))
  rw [nmeaGnvtgAnalysisShown, hstart, Option.bind_eq_bind, Option.bind_some, hfield,
    DisplayLine.texts, if_pos htag, Sentence.shown]
  simp only [UInt8.reduceToNat]
  cases l.sentence.number 7 with
  | none => exact ⟨gpsx, rfl⟩
  | some v => exact ⟨{ gpsx with speed := toSpeed v.1 v.2 }, rfl⟩

/-- `NMEA_GNRMC_Analysis` shows the texts of its line. -/
theorem nmeaGnrmcAnalysisShown_line (fl dbl : Rounding) (l : DisplayLine)
    (htag : l.sentence.tag = .gnrmc) (gpsx : NmeaMsg) :
    ∃ gpsx', nmeaGnrmcAnalysisShown fl dbl gpsx (l.sentence.buffer l.junk)
      = some (gpsx', (l.texts fl dbl gpsx).map fun t => t.1.call t.2) := by
  have hnum := l.numeric
  rw [Sentence.Numeric, htag] at hnum
  have hstart : strstr (ascii "GNRMC") (l.sentence.buffer l.junk)
      = some (l.sentence.start l.junk) := l.sentence.strstr_of_tag htag l.junk
  let s := l.sentence
  let g₁ : NmeaMsg := (s.reading l.junk 1).elim gpsx fun v => withTime gpsx v.1 v.2
  let g₂ : NmeaMsg := { g₁ with nshemi := (s.byte 4).getD g₁.nshemi }
  let g₃ : NmeaMsg := (s.number 3).elim g₂ fun v =>
    { g₂ with latitude := toDegrees fl v.1.toUInt32 v.2 }
  let g₄ : NmeaMsg := { g₃ with ewhemi := (s.byte 6).getD g₃.ewhemi }
  let g₅ : NmeaMsg := (s.number 5).elim g₄ fun v =>
    { g₄ with longitude := toDegrees fl v.1.toUInt32 v.2 }
  have h₁ := feed_reading s l.junk 1 gpsx fun v => withTime gpsx v.1 v.2
  have h₂ := feedByte_member s l.junk (k := 4) (by decide)
    (fun b => { g₁ with nshemi := b }) g₁.nshemi rfl
  have h₃ := showPosition_sentence fl dbl s l.junk (k := 3) (by decide) (hnum 3 (by decide)) g₂
    .latitude rfl g₂.nshemi fun latitude => { g₂ with latitude := latitude }
  have h₄ := feedByte_member s l.junk (k := 6) (by decide)
    (fun b => { g₃ with ewhemi := b }) g₃.ewhemi rfl
  have h₅ := showPosition_sentence fl dbl s l.junk (k := 5) (by decide) (hnum 5 (by decide)) g₄
    .longitude rfl g₄.ewhemi fun longitude => { g₄ with longitude := longitude }
  have h₆ := feed_reading s l.junk 9 g₅ fun v => withDate g₅ v.1
  -- the time and the other position leave the hemispheres alone
  have hnshemi : g₂.nshemi = (s.byte 4).getD gpsx.nshemi := by
    have hold : g₁.nshemi = gpsx.nshemi := by
      cases hread : s.reading l.junk 1 <;> simp only [g₁, hread, Option.elim, withTime]
    exact congrArg (s.byte 4).getD hold
  have hewhemi : g₄.ewhemi = (s.byte 6).getD gpsx.ewhemi := by
    have hold : g₃.ewhemi = gpsx.ewhemi := by
      cases hread : s.reading l.junk 1 <;> cases hnumber : s.number 3 <;>
        simp only [g₃, g₂, g₁, hread, hnumber, Option.elim, withTime]
    exact congrArg (s.byte 6).getD hold
  refine ⟨(s.reading l.junk 9).elim g₅ fun v => withDate g₅ v.1, ?_⟩
  rw [DisplayLine.texts, if_neg (by rw [htag]; decide), List.map_append, ← hnshemi, ← hewhemi]
  unfold nmeaGnrmcAnalysisShown
  exact bind_eq_of_eq_some hstart (bind_eq_of_eq_some h₁ (bind_eq_of_eq_some h₂
      (bind_eq_of_eq_some h₃ (bind_eq_of_eq_some h₄ (bind_eq_of_eq_some h₅
        (bind_eq_of_eq_some h₆ rfl))))))

/-- A test of `GPS_Analysis` against a line. -/
theorem whenTaggedShown_sentence (s : Sentence) (t : Tag) (junk : Bytes)
    (analysis : NmeaMsg → Bytes → Option (NmeaMsg × List StringCall)) (gpsx : NmeaMsg) :
    whenTaggedShown t.key (s.buffer junk) analysis gpsx
      = if t = s.tag then analysis gpsx (s.buffer junk) else some (gpsx, []) :=
  if_congr (s.strstr_isSome_iff t junk) rfl rfl

/-- **`GPS_Analysis`** shows the texts of its line, in order. -/
theorem gpsAnalysisShown_line (fl dbl : Rounding) (l : DisplayLine) (gpsx : NmeaMsg) :
    ∃ gpsx', gpsAnalysisShown fl dbl gpsx (l.sentence.buffer l.junk)
      = some (gpsx', (l.texts fl dbl gpsx).map fun t => t.1.call t.2) := by
  have hother : ∀ t, t ≠ l.sentence.tag → ∀ analysis,
      whenTagged t.key (l.sentence.buffer l.junk) analysis gpsx = some gpsx := by
    intro t ht analysis
    rw [whenTagged_sentence, if_neg ht]
  have hbefore : gpsAnalysisBefore gpsx (l.sentence.buffer l.junk) = some gpsx := by
    have hne : Tag.gpgsv ≠ l.sentence.tag ∧ Tag.gngga ≠ l.sentence.tag
        ∧ Tag.gpgsa ≠ l.sentence.tag := by
      rcases l.tag with htag | htag <;> rw [htag] <;> decide
    exact bind_eq_of_eq_some (hother .gpgsv hne.1 _) (bind_eq_of_eq_some (hother .gngga hne.2.1 _)
      (hother .gpgsa hne.2.2 _))
  have hgnrmc := whenTaggedShown_sentence l.sentence .gnrmc l.junk
    (nmeaGnrmcAnalysisShown fl dbl)
  have hgnvtg := whenTaggedShown_sentence l.sentence .gnvtg l.junk (nmeaGnvtgAnalysisShown fl)
  rcases l.tag with htag | htag
  · obtain ⟨gpsx', hshown⟩ := nmeaGnvtgAnalysisShown_line fl dbl l htag gpsx
    refine ⟨gpsx', bind_eq_of_eq_some hbefore (bind_eq_of_eq_some (a := (gpsx, [])) ?_ ?_)⟩
    · exact (hgnrmc gpsx).trans (if_neg (by rw [htag]; decide))
    · refine bind_eq_of_eq_some ((hgnvtg gpsx).trans ((if_pos htag.symm).trans hshown)) ?_
      rfl
  · obtain ⟨gpsx', hshown⟩ := nmeaGnrmcAnalysisShown_line fl dbl l htag gpsx
    refine ⟨gpsx', bind_eq_of_eq_some hbefore
      (bind_eq_of_eq_some ((hgnrmc gpsx).trans ((if_pos htag.symm).trans hshown)) ?_)⟩
    refine bind_eq_of_eq_some ((hgnvtg gpsx').trans (if_neg (by rw [htag]; decide))) ?_
    simp

/-- What a line does to the display. -/
theorem displayStep_eq (fl dbl : Rounding) (s : DisplayState) (l : DisplayLine) :
    ∃ gpsx', displayStep fl dbl s l
      = some (({ s with gpsx := gpsx' } : DisplayState).puts (l.texts fl dbl s.gpsx)) := by
  obtain ⟨gpsx', hshown⟩ := gpsAnalysisShown_line fl dbl l s.gpsx
  exact ⟨gpsx', bind_eq_of_eq_some hshown
    (showString_calls _ (zero_mem_texts fl dbl l s.gpsx))⟩

/-- **One line** leaves the display right exactly when its texts cover the ones before. -/
theorem displayRight_step_iff {fl dbl : Rounding} {s s' : DisplayState} {l : DisplayLine}
    (h : DisplayRight s) (hstep : displayStep fl dbl s l = some s') :
    DisplayRight s' ↔ LineCovers fl dbl s l := by
  obtain ⟨gpsx', heq⟩ := displayStep_eq fl dbl s l
  rw [heq, Option.some.injEq] at hstep
  subst hstep
  have hrow := fun row => rowRight_puts_iff (s := { s with gpsx := gpsx' })
    (nodup_texts fl dbl l s.gpsx) (h row)
  constructor
  · exact fun h' t ht => (hrow t.1).mp (h' t.1) t ht rfl
  · exact fun hcovers row => (hrow row).mpr fun t ht heq => heq ▸ hcovers t ht

/-! ### The texts in the speed field -/

/-- The speed is shown up to its unit. -/
theorem lineOf_speedText (fl : Rounding) (speed : UInt16) :
    lineOf (speedText fl speed)
      = formatFixed 2 (fl.round (fl.round speed.toNat / 1000)) ++ ascii "  km/" ++ [104] := by
  have hshown : ∀ b ∈ formatFixed 2 (fl.round (fl.round speed.toNat / 1000)) ++ ascii "  km/h",
      IsPrintable b := by
    have hunit : ∀ b ∈ ascii "  km/h", IsPrintable b := by decide
    have hdigit : ∀ b : UInt8, isDigit b = true → IsPrintable b := by
      intro b hb
      obtain ⟨hlow, hhigh⟩ := (isDigit_iff b).mp hb
      rw [IsPrintable, UInt8.le_iff_toNat_le, UInt8.le_iff_toNat_le]
      exact ⟨Nat.le_trans hhigh (by decide), Nat.le_trans (by decide) hlow⟩
    intro b hb
    rcases List.mem_append.mp hb with hb | hb
    · rcases mem_formatFixed hb with rfl | rfl | hb
      · decide
      · decide
      · exact hdigit b hb
    · exact hunit b hb
  rw [lineOf, speedText, List.takeWhile_append_of_pos fun b hb => decide_eq_true (hshown b hb),
    List.append_assoc, List.append_assoc]
  rfl

/-- In exact arithmetic a speed is shown with two digits before the point from 9.995 km/h on. -/
theorem length_lineOf_speedText (speed : UInt16) :
    (lineOf (speedText .exact speed)).length = if 9995 ≤ speed.toNat then 11 else 10 := by
  have hscaled : fixedScaled 2 ((speed.toNat : Rat) / 1000)
      = (roundHalfEven ((speed.toNat : Rat) / (10 : Nat))).toNat := by
    rw [fixedScaled, abs_of_nonneg (by positivity)]
    congr 2
    ring
  rw [roundHalfEven_div _ (by decide)] at hscaled
  have hlt := speed.toNat_lt
  have hlen := length_formatFixed 2 (show 0 ≤ (speed.toNat : Rat) / 1000 by positivity)
  rw [lineOf_speedText]
  simp only [List.length_append]
  show (formatFixed 2 ((speed.toNat : Rat) / 1000)).length + 5 + 1 = _
  rw [hlen]
  by_cases hfast : 9995 ≤ speed.toNat
  · have hdigits : (decimal (fixedScaled 2 ((speed.toNat : Rat) / 1000) / 10 ^ 2)).length = 2 := by
      rw [decimal_eq_fixedDecimal (n := 1) (by rw [hscaled]; omega) (by rw [hscaled]; omega),
        length_fixedDecimal]
    rw [if_pos hfast, hdigits]
  · have hdigits : (decimal (fixedScaled 2 ((speed.toNat : Rat) / 1000) / 10 ^ 2)).length = 1 := by
      rw [decimal_of_lt (by rw [hscaled]; omega), List.length_singleton]
    rw [if_neg hfast, hdigits]

/-- **A speed covers the one before** unless that one has two digits before the point and it has
only one. -/
theorem covers_speedText_iff (speed before : UInt16) :
    Covers 32 rowCells (lineOf (speedText .exact speed)) (lineOf (speedText .exact before)) ↔
      (9995 ≤ before.toNat → 9995 ≤ speed.toNat) := by
  have hlen := length_lineOf_speedText speed
  have hlen' := length_lineOf_speedText before
  have hcells : rowCells = 13 := by decide
  rw [lineOf_speedText _ before] at hlen' ⊢
  rw [Covers, forall_mem_drop_iff (by decide), hlen', hlen, hcells]
  split <;> split <;> omega

/-! ### A run of lines -/

/-- The strings of `main` are shown. -/
theorem mainStrings_shown : mainStrings.foldlM Screen.showString .clear = some startScreen := rfl

/-- They leave the fields blank. -/
theorem displayRight_start (gpsx : NmeaMsg) : DisplayRight (.start gpsx) := by
  have hblank : ∀ row : Row, startScreen.field row.x row.y 16 rowCells
      = padded 32 rowCells (lineOf []) := by
    intro row
    cases row <;> decide
  exact hblank

/-- **The display shows the latest values after every line of a run** exactly when every line
covers the texts that were shown before it. -/
theorem display_iff (fl dbl : Rounding) (gpsx : NmeaMsg) (lines : List DisplayLine) :
    Always (displayStep fl dbl) DisplayRight (.start gpsx) lines ↔
      Guarded (displayStep fl dbl) (LineCovers fl dbl) (.start gpsx) lines :=
  always_iff_guarded (fun _ _ _ h hstep => displayRight_step_iff h hstep)
    (displayRight_start gpsx)

/-- A line with 12.34 km/h. -/
def fastLine : DisplayLine where
  sentence :=
    { tag := .gnvtg
      fields := [ascii "89.68", ascii "T", [], ascii "M", ascii "6.663", ascii "N",
        ascii "12.340", ascii "K", ascii "A"]
      checksum := ascii "2D"
      field_bytes := by decide
      no_gnrmc := by decide
      checksum_hex := by decide
      checksum_length := by decide
      length_lt := by decide }
  junk := []
  tag := Or.inl rfl
  numeric := by decide

/-- A line with 5 km/h. -/
def slowLine : DisplayLine where
  sentence :=
    { tag := .gnvtg
      fields := [ascii "89.68", ascii "T", [], ascii "M", ascii "2.700", ascii "N",
        ascii "5.000", ascii "K", ascii "A"]
      checksum := ascii "1C"
      field_bytes := by decide
      no_gnrmc := by decide
      checksum_hex := by decide
      checksum_length := by decide
      length_lt := by decide }
  junk := []
  tag := Or.inl rfl
  numeric := by decide

/-- When the speed falls from 12.34 km/h to 5 km/h, the field reads `5.00  km/hh`. -/
theorem not_display_slowing :
    ¬ Always (displayStep .exact .exact) DisplayRight (.start gpsData) [fastLine, slowLine] := by
  intro h
  have hfast : ∀ gpsx, fastLine.texts .exact .exact gpsx
      = [(.speed, speedText .exact 12340)] := fun _ => rfl
  have hslow : ∀ gpsx, slowLine.texts .exact .exact gpsx
      = [(.speed, speedText .exact 5000)] := fun _ => rfl
  obtain ⟨gpsx₁, hfirst⟩ := displayStep_eq .exact .exact (.start gpsData) fastLine
  rw [hfast] at hfirst
  obtain ⟨gpsx₂, hsecond⟩ := displayStep_eq .exact .exact
    (({ DisplayState.start gpsData with gpsx := gpsx₁ } : DisplayState).puts
      [(.speed, speedText .exact 12340)]) slowLine
  simp only [Always, hfirst, hsecond] at h
  have hcovers := (displayRight_step_iff h.2.1 hsecond).mp h.2.2 _ (hslow _ ▸ List.mem_cons_self)
  have hspeed := (covers_speedText_iff 5000 12340).mp hcovers
  exact absurd (hspeed (by decide)) (by decide)

end CarLocator.Gps
