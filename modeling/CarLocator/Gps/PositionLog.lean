import CarLocator.Gps.Nmea
import CarLocator.Library.Runs

/-!
# `CarLocator.Gps.PositionLog`: the periodic position log

Every 200th call of `NMEA_GNRMC_Analysis` also logs the position. The call keeps the position
in degrees, minutes and seconds in six local variables for it, three when the latitude is read
and three when the longitude is. A variable is an `Option` here: `none` is a variable that the
call has not assigned.

`nmeaGnrmcAnalysisLog` is the analysis function with the counter, the variables and the log,
and `gpsAnalysisLog` feeds one buffer to `GPS_Analysis`. Without the log they are the functions
of `CarLocator.Gps.Nmea` (`nmeaGnrmcAnalysisLog_gpsx`, `gpsAnalysisLog_gpsx`).

`log_assigned_iff` is about runs: the log prints only variables of its own line exactly when
every line that reaches the log has both position fields. The log itself does not look at them,
so a truncated line is enough, if it is the 200th.
-/

set_option autoImplicit false

namespace CarLocator.Gps

open CarLocator.Library

/-! ### The analysis function with its log -/

/-- The six variables `gps_longitude_int` to `gps_latitude_miao`. `none` is not assigned. -/
structure GnrmcVars where
  longitudeInt : Option Int32
  longitudeFen : Option Int32
  longitudeMiao : Option Int32
  latitudeInt : Option Int32
  latitudeFen : Option Int32
  latitudeMiao : Option Int32
  deriving DecidableEq, Repr

/-- The variables at the start of a call. -/
def GnrmcVars.declared : GnrmcVars := ⟨none, none, none, none, none, none⟩

/-- What the log branch prints: the position with its hemispheres, and the speed. -/
structure Printed where
  vars : GnrmcVars
  ewhemi : UInt8
  nshemi : UInt8
  speed : Rat
  deriving DecidableEq, Repr

/-- A float stored into an `int`. -/
def floatToInt32 (x : Rat) : Int32 := Int32.ofInt (if 0 ≤ x then x.floor else x.ceil)

/-- A position in degrees, minutes and seconds. The division by `100000.0` is in `double` (`dbl`),
and everything behind the cast is in `float` (`fl`). -/
def toDms (fl dbl : Rounding) (position : UInt32) : Int32 × Int32 × Int32 :=
  let int := (position / 100000).toInt32
  let deg := fl.round (dbl.round (position.toNat / 100000))
  let minutes := fl.round (fl.round (deg - fl.round int.toInt) * 60)
  let fen := floatToInt32 minutes
  let miao := floatToInt32 (fl.round (fl.round (minutes - fl.round fen.toInt) * 60))
  (int, fen, miao)

/-- A position of `NMEA_GNRMC_Analysis` from field `cx`: it is stored into a member, and assigned to
three variables. -/
def feedPosition (fl dbl : Rounding) (cx : UInt8) (p1 : Bytes) (gpsx : NmeaMsg) (vars : GnrmcVars)
    (store : UInt32 → NmeaMsg) (assign : Int32 × Int32 × Int32 → GnrmcVars) :
    Option (NmeaMsg × GnrmcVars) := do
  match ← fieldNumber p1 cx with
  | some (v, dx) =>
    let position := toDegrees fl v.toUInt32 dx
    pure (store position, assign (toDms fl dbl position))
  | none => pure (gpsx, vars)

/-- The latitude of `NMEA_GNRMC_Analysis`. -/
def feedLatitude (fl dbl : Rounding) (p1 : Bytes) (gpsx : NmeaMsg) (vars : GnrmcVars) :
    Option (NmeaMsg × GnrmcVars) :=
  feedPosition fl dbl 3 p1 gpsx vars (fun latitude => { gpsx with latitude := latitude })
    fun (int, fen, miao) =>
      { vars with latitudeInt := int, latitudeFen := fen, latitudeMiao := miao }

/-- The longitude of `NMEA_GNRMC_Analysis`. -/
def feedLongitude (fl dbl : Rounding) (p1 : Bytes) (gpsx : NmeaMsg) (vars : GnrmcVars) :
    Option (NmeaMsg × GnrmcVars) :=
  feedPosition fl dbl 5 p1 gpsx vars (fun longitude => { gpsx with longitude := longitude })
    fun (int, fen, miao) =>
      { vars with longitudeInt := int, longitudeFen := fen, longitudeMiao := miao }

/-- What a call of `NMEA_GNRMC_Analysis` leaves: the parsed data, the static counter, and what it
has logged. -/
structure GnrmcResult where
  gpsx : NmeaMsg
  count : UInt16
  printed : Option Printed
  deriving DecidableEq, Repr

/-- `NMEA_GNRMC_Analysis` with the counter and the log branch. -/
def nmeaGnrmcAnalysisLog (fl dbl : Rounding) (count : UInt16) (gpsx : NmeaMsg) (buf : Bytes) :
    Option GnrmcResult := do
  let vars := GnrmcVars.declared
  let count := count + 1
  let p1 ← strstr (ascii "GNRMC") buf
  let gpsx ← feed p1 1 gpsx fun (v, dx) => withTime gpsx v dx
  let gpsx ← feedByte p1 4 gpsx fun b => { gpsx with nshemi := b }
  let (gpsx, vars) ← feedLatitude fl dbl p1 gpsx vars
  let gpsx ← feedByte p1 6 gpsx fun b => { gpsx with ewhemi := b }
  let (gpsx, vars) ← feedLongitude fl dbl p1 gpsx vars
  let gpsx ← feed p1 9 gpsx fun (v, _) => withDate gpsx v
  if count ≥ 200 then
    pure ⟨gpsx, 0, some ⟨vars, gpsx.ewhemi, gpsx.nshemi,
      fl.round (fl.round gpsx.speed.toNat / 1000)⟩⟩
  else pure ⟨gpsx, count, none⟩

/-! ### The program with its log -/

/-- The state over a run: the parsed data and the counter, everything that has been logged, and
whether a fault has ended the program. -/
structure PositionLog where
  gpsx : NmeaMsg
  count : UInt16
  printed : List Printed
  faulted : Bool
  deriving DecidableEq, Repr

/-- The part of `GPS_Analysis` before `NMEA_GNRMC_Analysis`. -/
def gpsAnalysisBefore (gpsx : NmeaMsg) (buf : Bytes) : Option NmeaMsg := do
  let gpsx ← whenTagged (ascii "$GPGSV") buf nmeaGpgsvAnalysis gpsx
  let gpsx ← whenTagged (ascii "$GNGGA") buf nmeaGnggaAnalysis gpsx
  whenTagged (ascii "$GPGSA") buf nmeaGpgsaAnalysis gpsx

/-- `GPS_Analysis` up to `NMEA_GNRMC_Analysis` and with it. -/
def gpsAnalysisGnrmc (fl dbl : Rounding) (count : UInt16) (gpsx : NmeaMsg) (buf : Bytes) :
    Option GnrmcResult := do
  let gpsx ← gpsAnalysisBefore gpsx buf
  if (strstr (ascii "GNRMC") buf).isSome then nmeaGnrmcAnalysisLog fl dbl count gpsx buf
  else some ⟨gpsx, count, none⟩

/-- One buffer through `GPS_Analysis`. What has been logged before a fault stays logged. -/
def gpsAnalysisLog (fl dbl : Rounding) (s : PositionLog) (buf : Bytes) : PositionLog :=
  if s.faulted then s
  else
    match gpsAnalysisGnrmc fl dbl s.count s.gpsx buf with
    | none => { s with faulted := true }
    | some r =>
      let printed := s.printed ++ r.printed.toList
      match whenTagged (ascii "$GNVTG") buf nmeaGnvtgAnalysis r.gpsx with
      | none => ⟨r.gpsx, r.count, printed, true⟩
      | some gpsx => ⟨gpsx, r.count, printed, false⟩

/-! ### The same functions without the log -/

/-- A position without its variables. -/
theorem feedPosition_fst (fl dbl : Rounding) (cx : UInt8) (p1 : Bytes) (gpsx : NmeaMsg)
    (vars : GnrmcVars) (store : UInt32 → NmeaMsg) (assign : Int32 × Int32 × Int32 → GnrmcVars) :
    (feedPosition fl dbl cx p1 gpsx vars store assign).map Prod.fst
      = feed p1 cx gpsx fun (v, dx) => store (toDegrees fl v.toUInt32 dx) := by
  rw [feedPosition, feed]
  rcases fieldNumber p1 cx with _ | _ | _ <;> rfl

/-- One step of a computation and of its image under `q`. -/
theorem map_bind_eq {α β γ δ : Type} {x : Option α} {y : Option γ} (p : α → γ)
    (hx : x.map p = y) {f : α → Option β} {g : γ → Option δ} {q : β → δ}
    (hf : ∀ a, (f a).map q = g (p a)) : (x.bind f).map q = y.bind g := by
  rw [← hx]
  cases x with
  | none => rfl
  | some a => exact hf a

/-- **`NMEA_GNRMC_Analysis` without its log.** -/
theorem nmeaGnrmcAnalysisLog_gpsx (fl dbl : Rounding) (count : UInt16) (gpsx : NmeaMsg)
    (buf : Bytes) :
    (nmeaGnrmcAnalysisLog fl dbl count gpsx buf).map GnrmcResult.gpsx
      = nmeaGnrmcAnalysis fl gpsx buf := by
  unfold nmeaGnrmcAnalysisLog nmeaGnrmcAnalysis
  refine map_bind_eq id Option.map_id' fun p1 => ?_
  refine map_bind_eq id Option.map_id' fun g₁ => ?_
  refine map_bind_eq id Option.map_id' fun g₂ => ?_
  refine map_bind_eq Prod.fst (feedPosition_fst fl dbl 3 p1 g₂ _ _ _) fun ⟨g₃, vars₁⟩ => ?_
  refine map_bind_eq id Option.map_id' fun g₄ => ?_
  refine map_bind_eq Prod.fst (feedPosition_fst fl dbl 5 p1 g₄ _ _ _) fun ⟨g₅, vars₂⟩ => ?_
  -- The date is the last field, and the log behind it leaves the data alone.
  show _ = feed p1 9 g₅ fun x => withDate g₅ x.1
  rw [← Option.bind_fun_some (feed p1 9 g₅ _)]
  refine map_bind_eq id Option.map_id' fun g₆ => ?_
  split <;> rfl

/-- **`GPS_Analysis` without the log.** -/
theorem gpsAnalysisLog_gpsx (fl dbl : Rounding) (s : PositionLog) (buf : Bytes)
    (h : s.faulted = false) :
    gpsAnalysis fl s.gpsx buf
      = if (gpsAnalysisLog fl dbl s buf).faulted then none
        else some (gpsAnalysisLog fl dbl s buf).gpsx := by
  have hgnrmc : (gpsAnalysisGnrmc fl dbl s.count s.gpsx buf).map GnrmcResult.gpsx
      = (gpsAnalysisBefore s.gpsx buf).bind
        (whenTagged (ascii "GNRMC") buf (nmeaGnrmcAnalysis fl)) := by
    refine map_bind_eq id Option.map_id' fun g => ?_
    rw [whenTagged]
    split
    · exact nmeaGnrmcAnalysisLog_gpsx fl dbl s.count g buf
    · rfl
  have hsplit : gpsAnalysis fl s.gpsx buf
      = ((gpsAnalysisGnrmc fl dbl s.count s.gpsx buf).map GnrmcResult.gpsx).bind
        (whenTagged (ascii "$GNVTG") buf nmeaGnvtgAnalysis) := by
    rw [hgnrmc]
    simp only [gpsAnalysis, gpsAnalysisBefore, Option.bind_eq_bind, Option.bind_assoc]
  rw [hsplit]
  simp only [gpsAnalysisLog, h, Bool.false_eq_true, if_false]
  cases gpsAnalysisGnrmc fl dbl s.count s.gpsx buf with
  | none => rfl
  | some r =>
      simp only [Option.map_some, Option.bind_some]
      cases whenTagged (ascii "$GNVTG") buf nmeaGnvtgAnalysis r.gpsx <;> rfl

/-! ### The variables of one call -/

/-- All six variables are assigned. -/
structure GnrmcVars.AllAssigned (vars : GnrmcVars) : Prop where
  longitudeInt : vars.longitudeInt.isSome
  longitudeFen : vars.longitudeFen.isSome
  longitudeMiao : vars.longitudeMiao.isSome
  latitudeInt : vars.latitudeInt.isSome
  latitudeFen : vars.latitudeFen.isSome
  latitudeMiao : vars.latitudeMiao.isSome

/-- The line has both position fields, as `NMEA_Comma_Pos` looks for them. -/
def PositionFound (buf : Bytes) : Prop :=
  ∀ p1, strstr (ascii "GNRMC") buf = some p1 →
    nmeaCommaPos p1 3 ≠ some 0xFF ∧ nmeaCommaPos p1 5 ≠ some 0xFF

/-- A field is read as missing exactly when `NMEA_Comma_Pos` does not find it. -/
theorem fieldNumber_eq_some_none_iff {p1 : Bytes} {cx : UInt8} {r : Option (Int32 × UInt8)}
    (h : fieldNumber p1 cx = some r) : r = none ↔ nmeaCommaPos p1 cx = some 0xFF := by
  rw [fieldNumber] at h
  obtain ⟨posx, hpos, h⟩ := Option.bind_eq_some_iff.mp h
  rw [hpos, Option.some_inj]
  split at h
  · rename_i hff
    exact iff_of_true (Option.some.inj h).symm hff
  · rename_i hff
    obtain ⟨v, -, hv⟩ := Option.bind_eq_some_iff.mp h
    exact iff_of_false (by rw [← Option.some.inj hv]; exact Option.some_ne_none v) hff

/-- What reading a position does to the variables. -/
theorem feedPosition_vars {fl dbl : Rounding} {cx : UInt8} {p1 : Bytes} {gpsx gpsx' : NmeaMsg}
    {vars vars' : GnrmcVars} {store : UInt32 → NmeaMsg}
    {assign : Int32 × Int32 × Int32 → GnrmcVars}
    (h : feedPosition fl dbl cx p1 gpsx vars store assign = some (gpsx', vars')) :
    nmeaCommaPos p1 cx = some 0xFF ∧ vars' = vars
      ∨ nmeaCommaPos p1 cx ≠ some 0xFF ∧ ∃ dms, vars' = assign dms := by
  obtain ⟨r, hr, h⟩ := Option.bind_eq_some_iff.mp h
  rw [ne_eq, ← fieldNumber_eq_some_none_iff hr]
  cases r with
  | none => exact Or.inl ⟨rfl, (congrArg Prod.snd (Option.some.inj h)).symm⟩
  | some v =>
      exact Or.inr ⟨Option.some_ne_none v, _, (congrArg Prod.snd (Option.some.inj h)).symm⟩

/-- **One call.** It prints when the counter is there, and what it prints is assigned exactly when
the line has both position fields. -/
theorem nmeaGnrmcAnalysisLog_printed {fl dbl : Rounding} {count : UInt16} {gpsx : NmeaMsg}
    {buf : Bytes} {r : GnrmcResult}
    (h : nmeaGnrmcAnalysisLog fl dbl count gpsx buf = some r) :
    ¬ 200 ≤ count + 1 ∧ r.printed = none
      ∨ 200 ≤ count + 1 ∧ ∃ x, r.printed = some x
        ∧ (x.vars.AllAssigned ↔ PositionFound buf) := by
  obtain ⟨p1, hp1, h⟩ := Option.bind_eq_some_iff.mp h
  obtain ⟨g₁, -, h⟩ := Option.bind_eq_some_iff.mp h
  obtain ⟨g₂, -, h⟩ := Option.bind_eq_some_iff.mp h
  obtain ⟨⟨g₃, vars₁⟩, hlat, h⟩ := Option.bind_eq_some_iff.mp h
  obtain ⟨g₄, -, h⟩ := Option.bind_eq_some_iff.mp h
  obtain ⟨⟨g₅, vars₂⟩, hlon, h⟩ := Option.bind_eq_some_iff.mp h
  obtain ⟨g₆, -, h⟩ := Option.bind_eq_some_iff.mp h
  have hfound : PositionFound buf
      ↔ nmeaCommaPos p1 3 ≠ some 0xFF ∧ nmeaCommaPos p1 5 ≠ some 0xFF := by
    constructor
    · exact fun hf => hf p1 hp1
    · intro hf p hp
      rwa [Option.some.inj (hp.symm.trans hp1)]
  -- Each position is assigned exactly when its field is found.
  have hvars : vars₂.AllAssigned ↔ PositionFound buf := by
    rw [hfound]
    rcases feedPosition_vars hlat with ⟨h₃, rfl⟩ | ⟨h₃, _, rfl⟩
    · exact iff_of_false (fun ha => by
        rcases feedPosition_vars hlon with ⟨-, rfl⟩ | ⟨-, _, rfl⟩ <;>
          exact absurd ha.latitudeInt Bool.false_ne_true) fun hf => hf.1 h₃
    · rcases feedPosition_vars hlon with ⟨h₅, rfl⟩ | ⟨h₅, _, rfl⟩
      · exact iff_of_false (fun ha => absurd ha.longitudeInt Bool.false_ne_true)
          fun hf => hf.2 h₅
      · exact iff_of_true ⟨rfl, rfl, rfl, rfl, rfl, rfl⟩ ⟨h₃, h₅⟩
  split at h
  · rename_i hlog
    rw [← Option.some.inj h]
    exact Or.inr ⟨hlog, _, rfl, hvars⟩
  · rename_i hlog
    rw [← Option.some.inj h]
    exact Or.inl ⟨hlog, rfl⟩

/-! ### Runs -/

/-- Everything the log has printed was assigned in the call that printed it. -/
def OwnLine (s : PositionLog) : Prop := ∀ x ∈ s.printed, x.vars.AllAssigned

/-- The call on the buffer comes to the log branch: the program is still running, the counter is
at least 199 before the line, and the line is parsed without a fault. -/
def LogReached (fl : Rounding) (s : PositionLog) (buf : Bytes) : Prop :=
  s.faulted = false ∧ 200 ≤ s.count + 1 ∧ (strstr (ascii "GNRMC") buf).isSome
    ∧ ((gpsAnalysisBefore s.gpsx buf).bind (nmeaGnrmcAnalysis fl · buf)).isSome

/-- One buffer as a step of a run. -/
def logStep (fl dbl : Rounding) (s : PositionLog) (buf : Bytes) : Option PositionLog :=
  some (gpsAnalysisLog fl dbl s buf)

/-- The log behind `NMEA_GNVTG_Analysis` is the one behind `NMEA_GNRMC_Analysis`. -/
theorem gpsAnalysisLog_of_gnrmc {fl dbl : Rounding} {s : PositionLog} {buf : Bytes}
    (h : s.faulted = false) {r : GnrmcResult}
    (hr : gpsAnalysisGnrmc fl dbl s.count s.gpsx buf = some r) :
    (gpsAnalysisLog fl dbl s buf).printed = s.printed ++ r.printed.toList := by
  simp only [gpsAnalysisLog, h, Bool.false_eq_true, if_false, hr]
  cases whenTagged (ascii "$GNVTG") buf nmeaGnvtgAnalysis r.gpsx <;> rfl

/-- What one buffer adds to the log. -/
theorem gpsAnalysisLog_printed (fl dbl : Rounding) (s : PositionLog) (buf : Bytes) :
    (¬ LogReached fl s buf ∧ (gpsAnalysisLog fl dbl s buf).printed = s.printed)
      ∨ LogReached fl s buf ∧ ∃ x : Printed,
        (gpsAnalysisLog fl dbl s buf).printed = s.printed ++ [x]
          ∧ (x.vars.AllAssigned ↔ PositionFound buf) := by
  cases hf : s.faulted with
  | true =>
      rw [gpsAnalysisLog, if_pos hf]
      exact Or.inl ⟨fun h => absurd (h.1.symm.trans hf) Bool.false_ne_true, rfl⟩
  | false =>
      cases hbefore : gpsAnalysisBefore s.gpsx buf with
      | none =>
          have hnone : gpsAnalysisGnrmc fl dbl s.count s.gpsx buf = none := by
            rw [gpsAnalysisGnrmc, hbefore]
            rfl
          rw [LogReached, hbefore]
          simp only [gpsAnalysisLog, hf, hnone]
          exact Or.inl ⟨fun h => absurd h.2.2.2 Bool.false_ne_true, rfl⟩
      | some g =>
          have hgnrmc : gpsAnalysisGnrmc fl dbl s.count s.gpsx buf
              = if (strstr (ascii "GNRMC") buf).isSome then
                  nmeaGnrmcAnalysisLog fl dbl s.count g buf
                else some ⟨g, s.count, none⟩ := by
            rw [gpsAnalysisGnrmc, hbefore]
            rfl
          rw [LogReached, hbefore, Option.bind_some,
            ← nmeaGnrmcAnalysisLog_gpsx fl dbl s.count g buf, Option.isSome_map]
          by_cases htag : (strstr (ascii "GNRMC") buf).isSome
          · rw [if_pos htag] at hgnrmc
            cases hr : nmeaGnrmcAnalysisLog fl dbl s.count g buf with
            | none =>
                rw [hr] at hgnrmc
                simp only [gpsAnalysisLog, hf, hgnrmc]
                exact Or.inl ⟨fun h => absurd h.2.2.2 Bool.false_ne_true, rfl⟩
            | some r =>
                rw [gpsAnalysisLog_of_gnrmc hf (hgnrmc.trans hr)]
                rcases nmeaGnrmcAnalysisLog_printed hr with ⟨hnot, hnone⟩ | ⟨hlog, x, hx, hvars⟩
                · rw [hnone]
                  exact Or.inl ⟨fun h => hnot h.2.1, List.append_nil _⟩
                · rw [hx]
                  exact Or.inr ⟨⟨hf, hlog, htag, rfl⟩, x, rfl, hvars⟩
          · rw [if_neg htag] at hgnrmc
            rw [gpsAnalysisLog_of_gnrmc hf hgnrmc]
            exact Or.inl ⟨fun h => htag h.2.2.1, List.append_nil _⟩

/-- **One line.** The log stays on its own line exactly when a line that reaches the log has both
position fields. -/
theorem ownLine_step_iff (fl dbl : Rounding) (s : PositionLog) (buf : Bytes) (s' : PositionLog)
    (hs : OwnLine s) (hstep : logStep fl dbl s buf = some s') :
    OwnLine s' ↔ (LogReached fl s buf → PositionFound buf) := by
  rw [← Option.some.inj hstep, OwnLine]
  rcases gpsAnalysisLog_printed fl dbl s buf with ⟨hnot, hsame⟩ | ⟨hreached, x, hadd, hvars⟩
  · rw [hsame]
    exact iff_of_true hs fun h => absurd h hnot
  · rw [hadd, ← hvars]
    constructor
    · exact fun h _ => h x (by simp)
    · intro h y hy
      rcases List.mem_append.mp hy with hy | hy
      · exact hs y hy
      · rw [List.mem_singleton.mp hy]
        exact h hreached

/-- **When the log prints only variables of its own line.** Over any buffers, from any parsed data
and any counter: after every line all that was printed was assigned, exactly when every line
that reaches the log has both position fields. -/
theorem log_assigned_iff (fl dbl : Rounding) (gpsx : NmeaMsg) (count : UInt16)
    (lines : List Bytes) :
    Always (logStep fl dbl) OwnLine ⟨gpsx, count, [], false⟩ lines
      ↔ Guarded (logStep fl dbl) (fun s buf => LogReached fl s buf → PositionFound buf)
        ⟨gpsx, count, [], false⟩ lines :=
  always_iff_guarded (ownLine_step_iff fl dbl) fun _ hx => absurd hx List.not_mem_nil

/-- A line cut off behind its second field. -/
def truncatedLine : Bytes := ascii "$GNRMC,092204.999,A*0E" ++ [13, 10, 0]

/-- As the 200th line it prints six variables that nothing has assigned. -/
theorem not_log_assigned_truncated :
    ¬ Always (logStep .exact .exact) OwnLine ⟨gpsData, 199, [], false⟩ [truncatedLine] := by
  intro h
  have hreached : LogReached .exact ⟨gpsData, 199, [], false⟩ truncatedLine :=
    ⟨rfl, by decide, by decide, by decide +kernel⟩
  have hmissing : ¬ PositionFound truncatedLine := fun hfound =>
    (hfound _ rfl).1 (by decide +kernel)
  have hstep := (ownLine_step_iff .exact .exact ⟨gpsData, 199, [], false⟩ truncatedLine _
    (fun _ hx => absurd hx List.not_mem_nil) rfl).mp (h.last rfl)
  exact hmissing (hstep hreached)

end CarLocator.Gps
