import CarLocator.Library.CText
import Mathlib.Data.Rat.Floor

/-!
# `CarLocator.Gps.Nmea`: the NMEA-0183 parser

`nmea_msg` and the analysis functions of `applications/gps.c`, one definition for each
function of the source. A buffer is the bytes of memory from the pointer on
(`CarLocator.Library.CText`), with the text ended by a NUL. Each function returns an
`Option`: `none` is a read outside the buffer, a null pointer handed on, or a write
outside `slmsg`.

The integer types are those of the source: `rt_uint8_t`, `rt_uint16_t` and `rt_uint32_t`
wrap, and `int` is `Int32`. The one floating-point computation is the conversion of a
position (`toDegrees`). It is written over the rationals, with every operation followed by
the rounding of a `Rounding`, so that binary32 is one instance and exact arithmetic
another.

`NMEA_GNRMC_Analysis` and `NMEA_GNVTG_Analysis` also show the position and the speed on
the display and log them. Those statements only read `nmea_msg`, and they are left out
here: the display is in `CarLocator.Gps.Display`, the log in `CarLocator.Gps.PositionLog`.
-/

set_option autoImplicit false

namespace CarLocator.Gps

open CarLocator.Library

/-! ### The data -/

/-- `nmea_slmsg`: number, elevation, azimuth and signal-to-noise ratio of a satellite. -/
structure NmeaSlmsg where
  num : UInt8
  eledeg : UInt8
  azideg : UInt16
  sn : UInt8
  deriving DecidableEq, Repr

/-- `nmea_utc_time`. -/
structure NmeaUtcTime where
  year : UInt16
  month : UInt8
  date : UInt8
  hour : UInt8
  min : UInt8
  sec : UInt8
  deriving DecidableEq, Repr

/-- `nmea_msg`. -/
structure NmeaMsg where
  svnum : UInt8
  slmsg : Vector NmeaSlmsg 12
  utc : NmeaUtcTime
  latitude : UInt32
  nshemi : UInt8
  longitude : UInt32
  ewhemi : UInt8
  gpssta : UInt8
  posslnum : UInt8
  possl : Vector UInt8 12
  fixmode : UInt8
  pdop : UInt16
  hdop : UInt16
  vdop : UInt16
  altitude : Int32
  speed : UInt16
  deriving DecidableEq, Repr

/-- `gps_data` as the program starts with it: a global, so all zero. -/
def gpsData : NmeaMsg where
  svnum := 0
  slmsg := Vector.replicate 12 ⟨0, 0, 0, 0⟩
  utc := ⟨0, 0, 0, 0, 0, 0⟩
  latitude := 0
  nshemi := 0
  longitude := 0
  ewhemi := 0
  gpssta := 0
  posslnum := 0
  possl := Vector.replicate 12 0
  fixmode := 0
  pdop := 0
  hdop := 0
  vdop := 0
  altitude := 0
  speed := 0

/-- How a floating-point result is rounded. Zero is representable. -/
structure Rounding where
  round : Rat → Rat
  round_zero : round 0 = 0

/-- Exact arithmetic. -/
def Rounding.exact : Rounding := ⟨id, rfl⟩

/-! ### Fields and numbers -/

/-- The loop of `NMEA_Comma_Pos`: `off` bytes have been passed and `cx` commas are still
to come. -/
def nmeaCommaPosLoop : Bytes → (cx off : Nat) → Option UInt8
  | _, 0, off => some (UInt8.ofNat off)
  | [], _ + 1, _ => none
  | b :: buf, cx + 1, off =>
    if b = 42 ∨ b < 32 ∨ b > 122 then some 0xFF
    else if b = 44 then nmeaCommaPosLoop buf cx (off + 1)
    else nmeaCommaPosLoop buf (cx + 1) (off + 1)

/-- `NMEA_Comma_Pos`: the offset behind the `cx`-th comma, or `0xFF`. The offset is a
pointer difference narrowed to 8 bits. -/
def nmeaCommaPos (buf : Bytes) (cx : UInt8) : Option UInt8 := nmeaCommaPosLoop buf cx.toNat 0

/-- The loop of `NMEA_Pow`. -/
def nmeaPowLoop (m : UInt8) : Nat → UInt32 → UInt32
  | 0, result => result
  | n + 1, result => nmeaPowLoop m n (result * m.toUInt32)

/-- `NMEA_Pow`: `m` to the power `n`, modulo `2 ^ 32`. -/
def nmeaPow (m n : UInt8) : UInt32 := nmeaPowLoop m n.toNat 1

/-- What the scan of `NMEA_Str2num` keeps: the digit counts before and behind the point,
and the two bits of `mask`. -/
structure NmeaScan where
  ilen : UInt8
  flen : UInt8
  -- bit 0x01 of `mask`: a decimal point was seen
  point : Bool
  -- bit 0x02 of `mask`: a minus sign was seen
  neg : Bool
  deriving DecidableEq, Repr

/-- One byte counted as a digit. -/
def NmeaScan.count (s : NmeaScan) : NmeaScan :=
  if s.point then { s with flen := s.flen + 1 } else { s with ilen := s.ilen + 1 }

/-- Where the scan of `NMEA_Str2num` is within a round of its loop. -/
inductive ScanAt
  -- at the top of the loop
  | round
  -- behind the `p++` of a minus sign, in the same round
  | behindMinus
  -- behind the `p++` of a decimal point: the byte here is counted and skipped unread
  | behindPoint
  deriving DecidableEq, Repr

/-- The scan loop of `NMEA_Str2num`, byte by byte. A minus sign is skipped and the byte
behind it is looked at in the same round. -/
def nmeaScan : Bytes → ScanAt → NmeaScan → Option NmeaScan
  | [], _, _ => none
  | b :: p, at_, s =>
    if at_ = .behindPoint then nmeaScan p .round s.count
    else if b = 45 ∧ at_ = .round then nmeaScan p .behindMinus { s with neg := true }
    else if b = 44 ∨ b = 42 then some s
    else if b = 46 then nmeaScan p .behindPoint { s with point := true }
    else if b > 57 ∨ b < 48 then some { s with ilen := 0, flen := 0 }
    else nmeaScan p .round s.count

/-- The two digit loops of `NMEA_Str2num`: the `len` bytes at `buf`, each times its power
of ten. -/
def nmeaDigits (buf : Bytes) (len : UInt8) : Option UInt32 :=
  (List.range len.toNat).foldlM (fun acc i => do
    let b ← buf[i]?
    pure (acc + nmeaPow 10 (UInt8.ofNat (len.toNat - 1 - i)) * (b.toUInt32 - 48))) 0

/-- `NMEA_Str2num`: the number at `buf` up to the next `','` or `'*'`, as an integer, and
how many decimals it was scaled by (`*dx`, at most 5). -/
def nmeaStr2num (buf : Bytes) : Option (Int32 × UInt8) := do
  let s ← nmeaScan buf .round ⟨0, 0, false, false⟩
  let buf := if s.neg then buf.drop 1 else buf
  let ires ← nmeaDigits buf s.ilen
  let flen := if s.flen > 5 then 5 else s.flen
  let fres ← nmeaDigits (buf.drop (s.ilen.toNat + 1)) flen
  let res := (ires * nmeaPow 10 flen + fres).toInt32
  pure (if s.neg then -res else res, flen)

/-- The number in field `cx` of the sentence at `p1`: the two calls
`posx=NMEA_Comma_Pos(p1,cx)` and, if `posx!=0XFF`, `NMEA_Str2num(p1+posx,&dx)`, with
which every analysis function reads its fields. -/
def fieldNumber (p1 : Bytes) (cx : UInt8) : Option (Option (Int32 × UInt8)) := do
  let posx ← nmeaCommaPos p1 cx
  if posx = 0xFF then pure none
  else
    let num ← nmeaStr2num (p1.drop posx.toNat)
    pure (some num)

/-- The first byte of field `cx` of the sentence at `p1`: `*(p1+posx)`. -/
def fieldByte (p1 : Bytes) (cx : UInt8) : Option (Option UInt8) := do
  let posx ← nmeaCommaPos p1 cx
  if posx = 0xFF then pure none
  else
    let b ← p1[posx.toNat]?
    pure (some b)

/-- A number field fed into a member: `f` stores it, and a missing field stores nothing. -/
def feed (p1 : Bytes) (cx : UInt8) (gpsx : NmeaMsg) (f : Int32 × UInt8 → NmeaMsg) :
    Option NmeaMsg := do
  match ← fieldNumber p1 cx with
  | some num => pure (f num)
  | none => pure gpsx

/-! ### The analysis functions -/

/-- One field of a satellite in `NMEA_GPGSV_Analysis`: stored into `slmsg[slx]`, or the
inner loop breaks (`false`) because the field is not there. -/
def gpgsvField (p1 : Bytes) (cx slx : UInt8) (store : NmeaSlmsg → Int32 → NmeaSlmsg)
    (gpsx : NmeaMsg) : Option (NmeaMsg × Bool) := do
  match ← fieldNumber p1 cx with
  | none => pure (gpsx, false)
  | some (v, _) =>
    if h : slx.toNat < 12 then
      let slmsg := gpsx.slmsg.set slx.toNat (store gpsx.slmsg[slx.toNat] v)
      pure ({ gpsx with slmsg := slmsg }, true)
    else none

/-- One round of the inner loop of `NMEA_GPGSV_Analysis`. The flag says that all four
fields were there, so that `slx` moves on. -/
def gpgsvSatellite (p1 : Bytes) (j slx : UInt8) (gpsx : NmeaMsg) :
    Option (NmeaMsg × Bool) := do
  let (gpsx, found) ← gpgsvField p1 (4 + j * 4) slx
    (fun s v => { s with num := v.toUInt32.toUInt8 }) gpsx
  if found = false then pure (gpsx, false) else
  let (gpsx, found) ← gpgsvField p1 (5 + j * 4) slx
    (fun s v => { s with eledeg := v.toUInt32.toUInt8 }) gpsx
  if found = false then pure (gpsx, false) else
  let (gpsx, found) ← gpgsvField p1 (6 + j * 4) slx
    (fun s v => { s with azideg := v.toUInt32.toUInt16 }) gpsx
  if found = false then pure (gpsx, false) else
  gpgsvField p1 (7 + j * 4) slx (fun s v => { s with sn := v.toUInt32.toUInt8 }) gpsx

/-- The inner loop of `NMEA_GPGSV_Analysis` over `j`, with `n` rounds left. -/
def gpgsvSatellites (p1 : Bytes) : (n : Nat) → (j slx : UInt8) → NmeaMsg →
    Option (NmeaMsg × UInt8)
  | 0, _, slx, gpsx => some (gpsx, slx)
  | n + 1, j, slx, gpsx => do
    let (gpsx, whole) ← gpgsvSatellite p1 j slx gpsx
    if whole then gpgsvSatellites p1 n (j + 1) (slx + 1) gpsx else pure (gpsx, slx)

/-- The outer loop of `NMEA_GPGSV_Analysis`, with `n` rounds left: find the next sentence
behind `p`, read its satellites, go on behind its `'$'`. A search that finds nothing hands
a null pointer to `NMEA_Comma_Pos`. -/
def gpgsvSentences : (n : Nat) → (p : Bytes) → (slx : UInt8) → NmeaMsg → Option NmeaMsg
  | 0, _, _, gpsx => some gpsx
  | n + 1, p, slx, gpsx => do
    let p1 ← strstr (ascii "$GPGSV") p
    let (gpsx, slx) ← gpgsvSatellites p1 4 0 slx gpsx
    gpgsvSentences n (p1.drop 1) slx gpsx

/-- `NMEA_GPGSV_Analysis`. -/
def nmeaGpgsvAnalysis (gpsx : NmeaMsg) (buf : Bytes) : Option NmeaMsg := do
  let p1 ← strstr (ascii "$GPGSV") buf
  let b ← p1[7]?
  let len := b - 48
  let gpsx ← feed p1 3 gpsx fun (v, _) => { gpsx with svnum := v.toUInt32.toUInt8 }
  gpgsvSentences len.toNat buf 0 gpsx

/-- `NMEA_GNGGA_Analysis`. -/
def nmeaGnggaAnalysis (gpsx : NmeaMsg) (buf : Bytes) : Option NmeaMsg := do
  let p1 ← strstr (ascii "$GNGGA") buf
  let gpsx ← feed p1 6 gpsx fun (v, _) => { gpsx with gpssta := v.toUInt32.toUInt8 }
  let gpsx ← feed p1 7 gpsx fun (v, _) => { gpsx with posslnum := v.toUInt32.toUInt8 }
  feed p1 9 gpsx fun (v, _) => { gpsx with altitude := v }

/-- The loop of `NMEA_GPGSA_Analysis` over the satellites in use, with `n` of its twelve
rounds left. -/
def gpgsaSatellites (p1 : Bytes) : (n : Nat) → NmeaMsg → Option NmeaMsg
  | 0, gpsx => some gpsx
  | n + 1, gpsx => do
    let i := 11 - n
    match ← fieldNumber p1 (UInt8.ofNat (3 + i)) with
    | some (v, _) =>
      gpgsaSatellites p1 n
        { gpsx with possl := gpsx.possl.set i v.toUInt32.toUInt8 (by omega) }
    | none => pure gpsx

/-- `NMEA_GPGSA_Analysis`. -/
def nmeaGpgsaAnalysis (gpsx : NmeaMsg) (buf : Bytes) : Option NmeaMsg := do
  let p1 ← strstr (ascii "$GPGSA") buf
  let gpsx ← feed p1 2 gpsx fun (v, _) => { gpsx with fixmode := v.toUInt32.toUInt8 }
  let gpsx ← gpgsaSatellites p1 12 gpsx
  let gpsx ← feed p1 15 gpsx fun (v, _) => { gpsx with pdop := v.toUInt32.toUInt16 }
  let gpsx ← feed p1 16 gpsx fun (v, _) => { gpsx with hdop := v.toUInt32.toUInt16 }
  feed p1 17 gpsx fun (v, _) => { gpsx with vdop := v.toUInt32.toUInt16 }

/-- A float stored into a `rt_uint32_t`: truncated, and kept in range as the
floating-point unit does. -/
def floatToUInt32 (x : Rat) : UInt32 := UInt32.ofNat (min x.floor.toNat (2 ^ 32 - 1))

/-- The conversion of a position from `dddmm.mmmm`, read as the integer `temp` with `dx`
decimals, to degrees times 100000. `temp` and the powers of ten are `rt_uint32_t`, `rs` is
a `float`, and the sum of the two parts is a `float`. -/
def toDegrees (fl : Rounding) (temp : UInt32) (dx : UInt8) : UInt32 :=
  let deg := temp / nmeaPow 10 (dx + 2)
  let rs := fl.round (temp % nmeaPow 10 (dx + 2)).toNat
  let whole := deg * nmeaPow 10 5
  let part := fl.round (fl.round (rs * fl.round (nmeaPow 10 (5 - dx)).toNat) / 60)
  floatToUInt32 (fl.round (fl.round whole.toNat + part))

/-- The UTC time of `NMEA_GNRMC_Analysis`: `hhmmss` with the decimals divided away. -/
def withTime (gpsx : NmeaMsg) (v : Int32) (dx : UInt8) : NmeaMsg :=
  let temp := v.toUInt32 / nmeaPow 10 dx
  { gpsx with utc := { gpsx.utc with
    hour := (temp / 10000).toUInt8
    min := (temp / 100 % 100).toUInt8
    sec := (temp % 100).toUInt8 } }

/-- The UTC date of `NMEA_GNRMC_Analysis`: `ddmmyy`. -/
def withDate (gpsx : NmeaMsg) (v : Int32) : NmeaMsg :=
  let temp := v.toUInt32
  { gpsx with utc := { gpsx.utc with
    date := (temp / 10000).toUInt8
    month := (temp / 100 % 100).toUInt8
    year := (2000 + temp % 100).toUInt16 } }

/-- A hemisphere of `NMEA_GNRMC_Analysis`: the first byte of the field as it is. -/
def feedByte (p1 : Bytes) (cx : UInt8) (gpsx : NmeaMsg) (f : UInt8 → NmeaMsg) :
    Option NmeaMsg := do
  match ← fieldByte p1 cx with
  | some b => pure (f b)
  | none => pure gpsx

/-- `NMEA_GNRMC_Analysis`. -/
def nmeaGnrmcAnalysis (fl : Rounding) (gpsx : NmeaMsg) (buf : Bytes) : Option NmeaMsg := do
  let p1 ← strstr (ascii "GNRMC") buf
  let gpsx ← feed p1 1 gpsx fun (v, dx) => withTime gpsx v dx
  let gpsx ← feedByte p1 4 gpsx fun b => { gpsx with nshemi := b }
  let gpsx ← feed p1 3 gpsx fun (v, dx) =>
    { gpsx with latitude := toDegrees fl v.toUInt32 dx }
  let gpsx ← feedByte p1 6 gpsx fun b => { gpsx with ewhemi := b }
  let gpsx ← feed p1 5 gpsx fun (v, dx) =>
    { gpsx with longitude := toDegrees fl v.toUInt32 dx }
  feed p1 9 gpsx fun (v, _) => withDate gpsx v

/-- The speed of `NMEA_GNVTG_Analysis`: stored in 16 bits and rescaled in place to three
decimals. -/
def toSpeed (v : Int32) (dx : UInt8) : UInt16 :=
  let speed := v.toUInt32.toUInt16
  if dx < 3 then (speed.toUInt32 * nmeaPow 10 (3 - dx)).toUInt16 else speed

/-- `NMEA_GNVTG_Analysis`. -/
def nmeaGnvtgAnalysis (gpsx : NmeaMsg) (buf : Bytes) : Option NmeaMsg := do
  let p1 ← strstr (ascii "$GNVTG") buf
  feed p1 7 gpsx fun (v, dx) => { gpsx with speed := toSpeed v dx }

/-- One `if (strstr(buf, tag)) Analysis(gpsx, buf)` of `GPS_Analysis`. -/
def whenTagged (tag buf : Bytes) (analysis : NmeaMsg → Bytes → Option NmeaMsg)
    (gpsx : NmeaMsg) : Option NmeaMsg :=
  if (strstr tag buf).isSome then analysis gpsx buf else some gpsx

/-- `GPS_Analysis`. -/
def gpsAnalysis (fl : Rounding) (gpsx : NmeaMsg) (buf : Bytes) : Option NmeaMsg := do
  let gpsx ← whenTagged (ascii "$GPGSV") buf nmeaGpgsvAnalysis gpsx
  let gpsx ← whenTagged (ascii "$GNGGA") buf nmeaGnggaAnalysis gpsx
  let gpsx ← whenTagged (ascii "$GPGSA") buf nmeaGpgsaAnalysis gpsx
  let gpsx ← whenTagged (ascii "GNRMC") buf (nmeaGnrmcAnalysis fl) gpsx
  whenTagged (ascii "$GNVTG") buf nmeaGnvtgAnalysis gpsx

end CarLocator.Gps
