import CarLocator.Gps.Scan
import CarLocator.Gps.Sentence

/-!
# `CarLocator.Gps.Fields`: what a sentence feeds into `nmea_msg`

`Member` lists the members of `nmea_msg` down to the single integers, and `Tag.feeds` is
the table of the parser: which member takes which field of which sentence.
`gpsAnalysis_fields` proves the table for the four sentence types that the parser reads as
one line. A member outside the table keeps its value, a member whose field is missing
keeps its value, and the members of `$GNGGA` and `$GPGSA` get the value of their field.

The analysis functions are sequences of `feed`. `feed_sentence` turns each of them into
`Sentence.fed`, which has no pointers left, and one lemma for each sentence type
(`nmeaGnggaAnalysis_sentence` and its siblings) states what the sequence amounts to.
-/

set_option autoImplicit false

namespace CarLocator.Gps

open CarLocator.Library

/-! ### Members -/

/-- The integers of `nmea_msg`. -/
inductive Member
  | svnum
  | slNum (i : Fin 12)
  | slEledeg (i : Fin 12)
  | slAzideg (i : Fin 12)
  | slSn (i : Fin 12)
  | year
  | month
  | date
  | hour
  | min
  | sec
  | latitude
  | nshemi
  | longitude
  | ewhemi
  | gpssta
  | posslnum
  | possl (i : Fin 12)
  | fixmode
  | pdop
  | hdop
  | vdop
  | altitude
  | speed
  deriving DecidableEq, Repr

/-- The value of a member. -/
def Member.get (g : NmeaMsg) : Member → Int
  | .svnum => g.svnum.toNat
  | .slNum i => g.slmsg[i].num.toNat
  | .slEledeg i => g.slmsg[i].eledeg.toNat
  | .slAzideg i => g.slmsg[i].azideg.toNat
  | .slSn i => g.slmsg[i].sn.toNat
  | .year => g.utc.year.toNat
  | .month => g.utc.month.toNat
  | .date => g.utc.date.toNat
  | .hour => g.utc.hour.toNat
  | .min => g.utc.min.toNat
  | .sec => g.utc.sec.toNat
  | .latitude => g.latitude.toNat
  | .nshemi => g.nshemi.toNat
  | .longitude => g.longitude.toNat
  | .ewhemi => g.ewhemi.toNat
  | .gpssta => g.gpssta.toNat
  | .posslnum => g.posslnum.toNat
  | .possl i => g.possl[i].toNat
  | .fixmode => g.fixmode.toNat
  | .pdop => g.pdop.toNat
  | .hdop => g.hdop.toNat
  | .vdop => g.vdop.toNat
  | .altitude => g.altitude.toInt
  | .speed => g.speed.toNat

/-- A value truncated to the width of the member: 32 bits with a sign, 32, 16 or 8. -/
def Member.truncate (v : Int) : Member → Int
  | .altitude => v.bmod (2 ^ 32)
  | .latitude | .longitude => v % 2 ^ 32
  | .slAzideg _ | .year | .pdop | .hdop | .vdop | .speed => v % 2 ^ 16
  | _ => v % 2 ^ 8

/-- The field that a member takes its value from, in a sentence with the tag. The table
leaves out `$GPGSV`, where the place of a satellite depends on the sentence number. -/
def Tag.feeds : Tag → Member → Option Nat
  | .gngga, .gpssta => some 6
  | .gngga, .posslnum => some 7
  | .gngga, .altitude => some 9
  | .gpgsa, .fixmode => some 2
  | .gpgsa, .possl i => some (3 + i)
  | .gpgsa, .pdop => some 15
  | .gpgsa, .hdop => some 16
  | .gpgsa, .vdop => some 17
  | .gnrmc, .hour | .gnrmc, .min | .gnrmc, .sec => some 1
  | .gnrmc, .latitude => some 3
  | .gnrmc, .nshemi => some 4
  | .gnrmc, .longitude => some 5
  | .gnrmc, .ewhemi => some 6
  | .gnrmc, .date | .gnrmc, .month | .gnrmc, .year => some 9
  | .gnvtg, .speed => some 7
  | _, _ => none

/-- The fields that are read as numbers. -/
def Tag.numberFields : Tag → List Nat
  | .gpgsv => List.range' 3 17
  | .gngga => [6, 7, 9]
  | .gpgsa => List.range' 2 16
  | .gnrmc => [1, 3, 5, 9]
  | .gnvtg => [7]

/-- The number fields of the sentence are empty or numbers. -/
def Sentence.Numeric (s : Sentence) : Prop :=
  ∀ k ∈ s.tag.numberFields, ∀ f ∈ s.field k, IsNumberField f

instance (s : Sentence) : Decidable s.Numeric :=
  inferInstanceAs (Decidable (∀ k ∈ s.tag.numberFields, ∀ f ∈ s.field k, IsNumberField f))

/-! ### One field -/

/-- The number in a field as `NMEA_Str2num` returns it. -/
def Sentence.number (s : Sentence) (k : Nat) : Option (Int32 × UInt8) :=
  (s.field k).map fun f => (Int32.ofInt (scaledValue f), UInt8.ofNat (fieldDecimals f))

/-- A member after field `k`: the new value, or the old one when the field is missing. -/
def Sentence.fed {α : Type} (s : Sentence) (k : Nat) (old : α) (new : Int32 × UInt8 → α) :
    α :=
  (s.number k).elim old new

/-- A field is shorter than the line. -/
theorem Sentence.field_length (s : Sentence) {k : Nat} {f : Bytes}
    (hf : s.field k = some f) : f.length < 255 := by
  unfold Sentence.field at hf
  split at hf
  · cases hf
  · have hmem := List.mem_of_getElem? hf
    have hlen := s.length_lt
    have hle : f.length ≤ (fieldsText s.fields).length := by
      rw [fieldsText]
      refine Nat.le_trans (Nat.le_succ _) ?_
      exact (List.sublist_flatten_of_mem
        (List.mem_map_of_mem (f := fun g : Bytes => 44 :: g) hmem)).length_le
    simp only [lineText, List.length_append, List.length_cons] at hlen
    omega

/-- A field beyond the last one is missing. -/
theorem Sentence.field_eq_none (s : Sentence) {k : Nat} (hk : s.fields.length < k) :
    s.field k = none := by
  rw [Sentence.field, if_neg (by omega), List.getElem?_eq_none_iff]
  omega

/-- Behind a missing field every field is missing. -/
theorem Sentence.field_eq_none_of_le (s : Sentence) {j k : Nat} (hj : 0 < j) (hjk : j ≤ k)
    (h : s.field j = none) : s.field k = none := by
  rw [Sentence.field, if_neg (by omega), List.getElem?_eq_none_iff] at h
  exact s.field_eq_none (by omega)

/-- **A number field of the sentence.** -/
theorem fieldNumber_sentence (s : Sentence) (junk : Bytes) {k : UInt8} (hk : 0 < k.toNat)
    (hnum : ∀ f, s.field k.toNat = some f → IsNumberField f) :
    fieldNumber (s.start junk) k = some (s.number k.toNat) := by
  unfold fieldNumber
  cases hf : s.field k.toNat with
  | none =>
      rw [nmeaCommaPos_missing s junk hk hf]
      simp [Sentence.number, hf]
  | some f =>
      obtain ⟨posx, tail, hpos, hne, hdrop⟩ := nmeaCommaPos_field s junk hf
      have hval := nmeaStr2num_field (hnum f hf) (s.field_length hf)
        (endByte_cases s.fields.length k.toNat) tail
      rw [hpos]
      simp [hne, hdrop, hval, Sentence.number, hf]

/-- The number that field `k` is read as, whatever its bytes are. -/
def Sentence.reading (s : Sentence) (junk : Bytes) (k : Nat) : Option (Int32 × UInt8) :=
  (fieldNumber (s.start junk) (UInt8.ofNat k)).getD none

/-- Every field is read without a fault, since the line ends in `\r\n`. -/
theorem fieldNumber_reading (s : Sentence) (junk : Bytes) (k : UInt8) :
    fieldNumber (s.start junk) k = some (s.reading junk k.toNat) := by
  have hstart : s.start junk
      = (s.tag.key ++ (fieldsText s.fields ++ 42 :: s.checksum)) ++ 13 :: 10 :: 0 :: junk := by
    simp [Sentence.start, Sentence.behindTag]
  obtain ⟨r, hr⟩ := Option.isSome_iff_exists.mp
    (fieldNumber_line_isSome (s.tag.key ++ (fieldsText s.fields ++ 42 :: s.checksum))
      (c := 13) (d := 10) (by decide) (by decide) (0 :: junk) k)
  rw [← hstart] at hr
  rw [Sentence.reading, UInt8.ofNat_toNat, hr]
  rfl

/-- An empty field and a number are read as what they are worth. -/
theorem Sentence.reading_eq_number (s : Sentence) (junk : Bytes) {k : UInt8} (hk : 0 < k.toNat)
    (hnum : ∀ f, s.field k.toNat = some f → IsNumberField f) :
    s.reading junk k.toNat = s.number k.toNat :=
  Option.some.inj ((fieldNumber_reading s junk k).symm.trans
    (fieldNumber_sentence s junk hk hnum))

/-- The number fields of a sentence are counted from 1, in 8 bits. -/
theorem Tag.numberFields_range (t : Tag) : ∀ k ∈ t.numberFields, 0 < k ∧ k < 256 := by
  cases t <;> decide

/-- All of them are read as what they are worth, if they are empty or numbers. -/
theorem Sentence.Numeric.reading {s : Sentence} (hnum : s.Numeric) (junk : Bytes) :
    ∀ k ∈ s.tag.numberFields, s.reading junk k = s.number k := by
  intro k hmem
  obtain ⟨hk, hlt⟩ := s.tag.numberFields_range k hmem
  have hk8 : (UInt8.ofNat k).toNat = k := by
    rw [UInt8.toNat_ofNat', Nat.mod_eq_of_lt hlt]
  have h := s.reading_eq_number junk (k := UInt8.ofNat k) (by omega)
    (by rw [hk8]; exact hnum k hmem)
  rwa [hk8] at h

/-- A field that is a number. -/
theorem Sentence.reading_number (s : Sentence) (junk : Bytes) {k : UInt8} (hk : 0 < k.toNat)
    {n : Number} (hf : s.field k.toNat = some n.text) :
    s.reading junk k.toNat
      = some (Int32.ofInt (scaledValue n.text), UInt8.ofNat (fieldDecimals n.text)) := by
  rw [s.reading_eq_number junk hk, Sentence.number, hf, Option.map_some]
  intro f hfield
  rw [hf] at hfield
  exact Or.inr ⟨n, Option.some.inj hfield⟩

/-- What is missing is read as missing, and nothing else. -/
theorem Sentence.reading_eq_none_iff (s : Sentence) (junk : Bytes) {k : UInt8} (hk : 0 < k.toNat) :
    s.reading junk k.toNat = none ↔ s.field k.toNat = none := by
  have hread := fieldNumber_reading s junk k
  rw [fieldNumber] at hread
  cases hf : s.field k.toNat with
  | none =>
      rw [nmeaCommaPos_missing s junk hk hf] at hread
      exact iff_of_true (Option.some.inj hread).symm rfl
  | some f =>
      obtain ⟨posx, tail, hpos, hne, -⟩ := nmeaCommaPos_field s junk hf
      rw [hpos, Option.bind_eq_bind, Option.bind_some, if_neg hne] at hread
      obtain ⟨v, -, hv⟩ := Option.bind_eq_some_iff.mp hread
      rw [← Option.some.inj hv]
      exact iff_of_false (Option.some_ne_none v) (Option.some_ne_none f)

/-- A `feed` from any field of the sentence. -/
theorem feed_reading (s : Sentence) (junk : Bytes) (k : UInt8) (gpsx : NmeaMsg)
    (f : Int32 × UInt8 → NmeaMsg) :
    feed (s.start junk) k gpsx f = some ((s.reading junk k.toNat).elim gpsx f) := by
  rw [feed, fieldNumber_reading]
  cases s.reading junk k.toNat <;> rfl

/-- A `feed` from the sentence. -/
theorem feed_sentence (s : Sentence) (junk : Bytes) {k : UInt8} (hk : 0 < k.toNat)
    (hnum : ∀ f, s.field k.toNat = some f → IsNumberField f) (gpsx : NmeaMsg)
    (f : Int32 × UInt8 → NmeaMsg) :
    feed (s.start junk) k gpsx f = some (s.fed k.toNat gpsx f) := by
  rw [feed_reading, s.reading_eq_number junk hk hnum]
  rfl

/-- The first byte of a field, which for an empty field is the byte behind it. -/
def Sentence.byte (s : Sentence) (k : Nat) : Option UInt8 :=
  (s.field k).map fun f => f.head?.getD (endByte s.fields.length k)

/-- A byte field of the sentence. -/
theorem fieldByte_sentence (s : Sentence) (junk : Bytes) {k : UInt8} (hk : 0 < k.toNat) :
    fieldByte (s.start junk) k = some (s.byte k.toNat) := by
  unfold fieldByte
  cases hf : s.field k.toNat with
  | none =>
      rw [nmeaCommaPos_missing s junk hk hf]
      simp [Sentence.byte, hf]
  | some f =>
      obtain ⟨posx, tail, hpos, hne, hdrop⟩ := nmeaCommaPos_field s junk hf
      have hbyte : (s.start junk)[posx.toNat]?
          = some (f.head?.getD (endByte s.fields.length k.toNat)) := by
        rw [← List.head?_drop, hdrop]
        cases f <;> rfl
      rw [hpos]
      simp [hne, hbyte, Sentence.byte, hf]

/-- A `feedByte` from the sentence. -/
theorem feedByte_sentence (s : Sentence) (junk : Bytes) {k : UInt8} (hk : 0 < k.toNat)
    (gpsx : NmeaMsg) (f : UInt8 → NmeaMsg) :
    feedByte (s.start junk) k gpsx f = some ((s.byte k.toNat).elim gpsx f) := by
  rw [feedByte, fieldByte_sentence s junk hk]
  cases s.byte k.toNat <;> rfl

/-! ### One sentence -/

/-- A step of an analysis function that succeeds. -/
theorem bind_eq_of_eq_some {α β : Type} {x : Option α} {f : α → Option β} {a : α}
    {o : Option β} (hx : x = some a) (hf : f a = o) : (x >>= f) = o := by
  rw [hx]
  exact hf

/-- A `feed` into a single member: `upd` writes it, and `old` is what stood there. -/
theorem feed_member {α : Type} (s : Sentence) (junk : Bytes) (k : UInt8) {gpsx : NmeaMsg}
    (upd : α → NmeaMsg) (old : α) (hold : upd old = gpsx) (new : Int32 × UInt8 → α) :
    feed (s.start junk) k gpsx (fun v => upd (new v))
      = some (upd ((s.reading junk k.toNat).elim old new)) := by
  rw [feed_reading, ← hold]
  cases s.reading junk k.toNat <;> rfl

/-- A `feedByte` into a single member. -/
theorem feedByte_member (s : Sentence) (junk : Bytes) {k : UInt8} (hk : 0 < k.toNat)
    {gpsx : NmeaMsg} (upd : UInt8 → NmeaMsg) (old : UInt8) (hold : upd old = gpsx) :
    feedByte (s.start junk) k gpsx upd = some (upd ((s.byte k.toNat).getD old)) := by
  rw [feedByte_sentence s junk hk, ← hold]
  cases s.byte k.toNat <;> rfl

/-- The state behind `$GNGGA`. -/
def Sentence.gnggaFed (s : Sentence) (gpsx : NmeaMsg) : NmeaMsg :=
  { gpsx with
    gpssta := s.fed 6 gpsx.gpssta fun v => v.1.toUInt32.toUInt8
    posslnum := s.fed 7 gpsx.posslnum fun v => v.1.toUInt32.toUInt8
    altitude := s.fed 9 gpsx.altitude fun v => v.1 }

/-- The state behind `$GPGSA`. -/
def Sentence.gpgsaFed (s : Sentence) (gpsx : NmeaMsg) : NmeaMsg :=
  { gpsx with
    fixmode := s.fed 2 gpsx.fixmode fun v => v.1.toUInt32.toUInt8
    possl := Vector.ofFn fun i : Fin 12 =>
      s.fed (3 + i) gpsx.possl[i] fun v => v.1.toUInt32.toUInt8
    pdop := s.fed 15 gpsx.pdop fun v => v.1.toUInt32.toUInt16
    hdop := s.fed 16 gpsx.hdop fun v => v.1.toUInt32.toUInt16
    vdop := s.fed 17 gpsx.vdop fun v => v.1.toUInt32.toUInt16 }

/-- The state behind `$GNRMC`. -/
def Sentence.gnrmcFed (s : Sentence) (fl : Rounding) (gpsx : NmeaMsg) : NmeaMsg :=
  { gpsx with
    utc := {
      year := s.fed 9 gpsx.utc.year fun v => (withDate gpsx v.1).utc.year
      month := s.fed 9 gpsx.utc.month fun v => (withDate gpsx v.1).utc.month
      date := s.fed 9 gpsx.utc.date fun v => (withDate gpsx v.1).utc.date
      hour := s.fed 1 gpsx.utc.hour fun v => (withTime gpsx v.1 v.2).utc.hour
      min := s.fed 1 gpsx.utc.min fun v => (withTime gpsx v.1 v.2).utc.min
      sec := s.fed 1 gpsx.utc.sec fun v => (withTime gpsx v.1 v.2).utc.sec }
    nshemi := (s.byte 4).getD gpsx.nshemi
    latitude := s.fed 3 gpsx.latitude fun v => toDegrees fl v.1.toUInt32 v.2
    ewhemi := (s.byte 6).getD gpsx.ewhemi
    longitude := s.fed 5 gpsx.longitude fun v => toDegrees fl v.1.toUInt32 v.2 }

/-- The state behind `$GNVTG`. -/
def Sentence.gnvtgFed (s : Sentence) (gpsx : NmeaMsg) : NmeaMsg :=
  { gpsx with
    speed := s.fed 7 gpsx.speed fun v => toSpeed v.1 v.2 }

/-- The state behind `$GNGGA`, from what its fields are read as. -/
def gnggaStored (reading : Nat → Option (Int32 × UInt8)) (gpsx : NmeaMsg) : NmeaMsg :=
  { gpsx with
    gpssta := (reading 6).elim gpsx.gpssta fun v => v.1.toUInt32.toUInt8
    posslnum := (reading 7).elim gpsx.posslnum fun v => v.1.toUInt32.toUInt8
    altitude := (reading 9).elim gpsx.altitude fun v => v.1 }

/-- The state behind `$GNRMC`, from what its fields are read as. -/
def gnrmcStored (fl : Rounding) (reading : Nat → Option (Int32 × UInt8))
    (byte : Nat → Option UInt8) (gpsx : NmeaMsg) : NmeaMsg :=
  { gpsx with
    utc := {
      year := (reading 9).elim gpsx.utc.year fun v => (withDate gpsx v.1).utc.year
      month := (reading 9).elim gpsx.utc.month fun v => (withDate gpsx v.1).utc.month
      date := (reading 9).elim gpsx.utc.date fun v => (withDate gpsx v.1).utc.date
      hour := (reading 1).elim gpsx.utc.hour fun v => (withTime gpsx v.1 v.2).utc.hour
      min := (reading 1).elim gpsx.utc.min fun v => (withTime gpsx v.1 v.2).utc.min
      sec := (reading 1).elim gpsx.utc.sec fun v => (withTime gpsx v.1 v.2).utc.sec }
    nshemi := (byte 4).getD gpsx.nshemi
    latitude := (reading 3).elim gpsx.latitude fun v => toDegrees fl v.1.toUInt32 v.2
    ewhemi := (byte 6).getD gpsx.ewhemi
    longitude := (reading 5).elim gpsx.longitude fun v => toDegrees fl v.1.toUInt32 v.2 }

/-- The state behind `$GPGSA`, from what its fields are read as. -/
def gpgsaStored (reading : Nat → Option (Int32 × UInt8)) (gpsx : NmeaMsg) : NmeaMsg :=
  { gpsx with
    fixmode := (reading 2).elim gpsx.fixmode fun v => v.1.toUInt32.toUInt8
    possl := Vector.ofFn fun i : Fin 12 =>
      (reading (3 + i)).elim gpsx.possl[i] fun v => v.1.toUInt32.toUInt8
    pdop := (reading 15).elim gpsx.pdop fun v => v.1.toUInt32.toUInt16
    hdop := (reading 16).elim gpsx.hdop fun v => v.1.toUInt32.toUInt16
    vdop := (reading 17).elim gpsx.vdop fun v => v.1.toUInt32.toUInt16 }

/-- `NMEA_GNGGA_Analysis` on its sentence, whatever the fields are. -/
theorem nmeaGnggaAnalysis_reading (s : Sentence) (htag : s.tag = .gngga) (gpsx : NmeaMsg)
    (junk : Bytes) :
    nmeaGnggaAnalysis gpsx (s.buffer junk) = some (gnggaStored (s.reading junk) gpsx) := by
  have hstart : strstr (ascii "$GNGGA") (s.buffer junk) = some (s.start junk) :=
    s.strstr_of_tag htag junk
  let g₁ : NmeaMsg := { gpsx with
    gpssta := (s.reading junk 6).elim gpsx.gpssta fun v => v.1.toUInt32.toUInt8 }
  let g₂ : NmeaMsg := { g₁ with
    posslnum := (s.reading junk 7).elim gpsx.posslnum fun v => v.1.toUInt32.toUInt8 }
  have h₁ := feed_member s junk 6 (fun x => { gpsx with gpssta := x }) gpsx.gpssta rfl
    fun v => v.1.toUInt32.toUInt8
  have h₂ := feed_member s junk 7 (fun x => { g₁ with posslnum := x }) gpsx.posslnum rfl
    fun v => v.1.toUInt32.toUInt8
  have h₃ := feed_member s junk 9 (fun x => { g₂ with altitude := x }) gpsx.altitude rfl
    fun v => v.1
  unfold nmeaGnggaAnalysis
  exact bind_eq_of_eq_some hstart
    (bind_eq_of_eq_some h₁ (bind_eq_of_eq_some h₂ h₃))

/-- `NMEA_GNGGA_Analysis` on its sentence. -/
theorem nmeaGnggaAnalysis_sentence (s : Sentence) (htag : s.tag = .gngga)
    (hnum : s.Numeric) (gpsx : NmeaMsg) (junk : Bytes) :
    nmeaGnggaAnalysis gpsx (s.buffer junk) = some (s.gnggaFed gpsx) := by
  have hread := hnum.reading junk
  rw [htag] at hread
  rw [nmeaGnggaAnalysis_reading s htag]
  simp only [gnggaStored, hread 6 (by decide), hread 7 (by decide), hread 9 (by decide),
    Sentence.gnggaFed, Sentence.fed]

/-- `NMEA_GNVTG_Analysis` on its sentence, whatever the field is. -/
theorem nmeaGnvtgAnalysis_reading (s : Sentence) (htag : s.tag = .gnvtg) (gpsx : NmeaMsg)
    (junk : Bytes) :
    nmeaGnvtgAnalysis gpsx (s.buffer junk) = some { gpsx with
      speed := (s.reading junk 7).elim gpsx.speed fun v => toSpeed v.1 v.2 } := by
  have hstart : strstr (ascii "$GNVTG") (s.buffer junk) = some (s.start junk) :=
    s.strstr_of_tag htag junk
  have hfeed := feed_member s junk 7 (fun x => { gpsx with speed := x }) gpsx.speed rfl
    fun v => toSpeed v.1 v.2
  unfold nmeaGnvtgAnalysis
  exact bind_eq_of_eq_some hstart hfeed

/-- `NMEA_GNVTG_Analysis` on its sentence. -/
theorem nmeaGnvtgAnalysis_sentence (s : Sentence) (htag : s.tag = .gnvtg)
    (hnum : s.Numeric) (gpsx : NmeaMsg) (junk : Bytes) :
    nmeaGnvtgAnalysis gpsx (s.buffer junk) = some (s.gnvtgFed gpsx) := by
  have hread := hnum.reading junk
  rw [htag] at hread
  rw [nmeaGnvtgAnalysis_reading s htag]
  simp only [hread 7 (by decide), Sentence.gnvtgFed, Sentence.fed]

/-- `NMEA_GNRMC_Analysis` on its sentence, whatever the fields are. -/
theorem nmeaGnrmcAnalysis_reading (fl : Rounding) (s : Sentence) (htag : s.tag = .gnrmc)
    (gpsx : NmeaMsg) (junk : Bytes) :
    nmeaGnrmcAnalysis fl gpsx (s.buffer junk)
      = some (gnrmcStored fl (s.reading junk) s.byte gpsx) := by
  have hstart : strstr (ascii "GNRMC") (s.buffer junk) = some (s.start junk) :=
    s.strstr_of_tag htag junk
  let g₁ : NmeaMsg := (s.reading junk 1).elim gpsx fun v => withTime gpsx v.1 v.2
  let g₂ : NmeaMsg := { g₁ with nshemi := (s.byte 4).getD g₁.nshemi }
  let g₃ : NmeaMsg := { g₂ with
    latitude := (s.reading junk 3).elim g₂.latitude fun v => toDegrees fl v.1.toUInt32 v.2 }
  let g₄ : NmeaMsg := { g₃ with ewhemi := (s.byte 6).getD g₃.ewhemi }
  let g₅ : NmeaMsg := { g₄ with
    longitude := (s.reading junk 5).elim g₄.longitude fun v => toDegrees fl v.1.toUInt32 v.2 }
  have h₁ := feed_reading s junk 1 gpsx fun v => withTime gpsx v.1 v.2
  have h₂ := feedByte_member s junk (k := 4) (by decide)
    (fun b => { g₁ with nshemi := b }) g₁.nshemi rfl
  have h₃ := feed_member s junk 3 (fun x => { g₂ with latitude := x }) g₂.latitude rfl
    fun v => toDegrees fl v.1.toUInt32 v.2
  have h₄ := feedByte_member s junk (k := 6) (by decide)
    (fun b => { g₃ with ewhemi := b }) g₃.ewhemi rfl
  have h₅ := feed_member s junk 5 (fun x => { g₄ with longitude := x }) g₄.longitude rfl
    fun v => toDegrees fl v.1.toUInt32 v.2
  have h₆ := feed_reading s junk 9 g₅ fun v => withDate g₅ v.1
  have hrun : nmeaGnrmcAnalysis fl gpsx (s.buffer junk)
      = some ((s.reading junk 9).elim g₅ fun v => withDate g₅ v.1) := by
    unfold nmeaGnrmcAnalysis
    exact bind_eq_of_eq_some hstart (bind_eq_of_eq_some h₁ (bind_eq_of_eq_some h₂
      (bind_eq_of_eq_some h₃ (bind_eq_of_eq_some h₄ (bind_eq_of_eq_some h₅ h₆)))))
  rw [hrun]
  simp only [gnrmcStored, g₅, g₄, g₃, g₂, g₁]
  -- The time and the date are the two feeds that write more than one member.
  cases s.reading junk 1 <;> cases s.reading junk 9 <;> rfl

/-- `NMEA_GNRMC_Analysis` on its sentence. -/
theorem nmeaGnrmcAnalysis_sentence (fl : Rounding) (s : Sentence) (htag : s.tag = .gnrmc)
    (hnum : s.Numeric) (gpsx : NmeaMsg) (junk : Bytes) :
    nmeaGnrmcAnalysis fl gpsx (s.buffer junk) = some (s.gnrmcFed fl gpsx) := by
  have hread := hnum.reading junk
  rw [htag] at hread
  rw [nmeaGnrmcAnalysis_reading fl s htag]
  simp only [gnrmcStored, hread 1 (by decide), hread 3 (by decide), hread 5 (by decide),
    hread 9 (by decide), Sentence.gnrmcFed, Sentence.fed]

/-- The satellites in use: the loop stops at the first missing field, and behind it every
field is missing. -/
theorem gpgsaSatellites_reading (s : Sentence) (junk : Bytes) (n : Nat) (hn : n ≤ 12)
    (gpsx : NmeaMsg) :
    gpgsaSatellites (s.start junk) n gpsx = some { gpsx with
      possl := Vector.ofFn fun i : Fin 12 =>
        if (i : Nat) < 12 - n then gpsx.possl[i]
        else (s.reading junk (3 + i)).elim gpsx.possl[i] fun v => v.1.toUInt32.toUInt8 } := by
  induction n generalizing gpsx with
  | zero =>
      have hsame : (Vector.ofFn fun i : Fin 12 =>
          if (i : Nat) < 12 - 0 then gpsx.possl[i]
          else (s.reading junk (3 + i)).elim gpsx.possl[i] fun v => v.1.toUInt32.toUInt8)
          = gpsx.possl := by
        apply Vector.ext
        intro i hi
        rw [Vector.getElem_ofFn, if_pos hi]
        rfl
      rw [gpgsaSatellites, hsame]
  | succ n ih =>
      have hk : ∀ i, i < 12 → (UInt8.ofNat (3 + i)).toNat = 3 + i := by
        intro i hi
        rw [UInt8.toNat_ofNat', Nat.mod_eq_of_lt (by omega)]
      have hmissing : ∀ i, i < 12 →
          (s.reading junk (3 + i) = none ↔ s.field (3 + i) = none) := by
        intro i hi
        have h := s.reading_eq_none_iff junk (k := UInt8.ofNat (3 + i)) (by rw [hk i hi]; omega)
        rwa [hk i hi] at h
      rw [gpgsaSatellites, fieldNumber_reading, hk (11 - n) (by omega)]
      cases hv : s.reading junk (3 + (11 - n)) with
      | none =>
          have hmiss := (hmissing (11 - n) (by omega)).mp hv
          have hsame : (Vector.ofFn fun i : Fin 12 =>
              if (i : Nat) < 12 - (n + 1) then gpsx.possl[i]
              else (s.reading junk (3 + i)).elim gpsx.possl[i] fun v => v.1.toUInt32.toUInt8)
              = gpsx.possl := by
            apply Vector.ext
            intro i hi
            by_cases hlt : i < 12 - (n + 1)
            · rw [Vector.getElem_ofFn, if_pos hlt]
              rfl
            · have hnone := (hmissing i hi).mpr
                (s.field_eq_none_of_le (by omega) (by omega) hmiss)
              rw [Vector.getElem_ofFn, if_neg hlt]
              simp only [hnone, Option.elim_none]
              rfl
          rw [hsame]
          rfl
      | some v =>
          simp only [Option.bind_eq_bind, Option.bind_some]
          rw [ih (by omega)]
          congr 2
          apply Vector.ext
          intro i hi
          simp only [Vector.getElem_ofFn, Fin.getElem_fin, Vector.getElem_set]
          rcases Nat.lt_trichotomy i (11 - n) with hlt | rfl | hgt
          · rw [if_pos (by omega), if_neg (by omega), if_pos (by omega)]
          · rw [if_pos (by omega), if_pos rfl, if_neg (by omega), hv, Option.elim_some]
          · rw [if_neg (by omega), if_neg (by omega), if_neg (by omega)]

/-- `NMEA_GPGSA_Analysis` on its sentence, whatever the fields are. -/
theorem nmeaGpgsaAnalysis_reading (s : Sentence) (htag : s.tag = .gpgsa) (gpsx : NmeaMsg)
    (junk : Bytes) :
    nmeaGpgsaAnalysis gpsx (s.buffer junk) = some (gpgsaStored (s.reading junk) gpsx) := by
  have hstart : strstr (ascii "$GPGSA") (s.buffer junk) = some (s.start junk) :=
    s.strstr_of_tag htag junk
  let g₁ : NmeaMsg := { gpsx with
    fixmode := (s.reading junk 2).elim gpsx.fixmode fun v => v.1.toUInt32.toUInt8 }
  let g₂ : NmeaMsg := { g₁ with
    possl := Vector.ofFn fun i : Fin 12 =>
      (s.reading junk (3 + i)).elim gpsx.possl[i] fun v => v.1.toUInt32.toUInt8 }
  let g₃ : NmeaMsg := { g₂ with
    pdop := (s.reading junk 15).elim gpsx.pdop fun v => v.1.toUInt32.toUInt16 }
  let g₄ : NmeaMsg := { g₃ with
    hdop := (s.reading junk 16).elim gpsx.hdop fun v => v.1.toUInt32.toUInt16 }
  have h₁ := feed_member s junk 2 (fun x => { gpsx with fixmode := x }) gpsx.fixmode rfl
    fun v => v.1.toUInt32.toUInt8
  have h₂ : gpgsaSatellites (s.start junk) 12 g₁ = some g₂ := by
    rw [gpgsaSatellites_reading s junk 12 (Nat.le_refl _)]
    simp only [Nat.sub_self, Nat.not_lt_zero, if_false, g₂, g₁]
  have h₃ := feed_member s junk 15 (fun x => { g₂ with pdop := x }) gpsx.pdop rfl
    fun v => v.1.toUInt32.toUInt16
  have h₄ := feed_member s junk 16 (fun x => { g₃ with hdop := x }) gpsx.hdop rfl
    fun v => v.1.toUInt32.toUInt16
  have h₅ := feed_member s junk 17 (fun x => { g₄ with vdop := x }) gpsx.vdop rfl
    fun v => v.1.toUInt32.toUInt16
  unfold nmeaGpgsaAnalysis
  exact bind_eq_of_eq_some hstart (bind_eq_of_eq_some h₁ (bind_eq_of_eq_some h₂
    (bind_eq_of_eq_some h₃ (bind_eq_of_eq_some h₄ h₅))))

/-- `NMEA_GPGSA_Analysis` on its sentence. -/
theorem nmeaGpgsaAnalysis_sentence (s : Sentence) (htag : s.tag = .gpgsa)
    (hnum : s.Numeric) (gpsx : NmeaMsg) (junk : Bytes) :
    nmeaGpgsaAnalysis gpsx (s.buffer junk) = some (s.gpgsaFed gpsx) := by
  have hread := hnum.reading junk
  rw [htag] at hread
  have hpossl : ∀ i : Fin 12, s.reading junk (3 + i) = s.number (3 + i) := fun i =>
    hread (3 + i) (List.mem_range'_1.mpr (by omega))
  rw [nmeaGpgsaAnalysis_reading s htag]
  simp only [gpgsaStored, hpossl, hread 2 (by decide), hread 15 (by decide),
    hread 16 (by decide), hread 17 (by decide), Sentence.gpgsaFed, Sentence.fed]

/-! ### Fields and members -/

/-- `int` to `rt_uint32_t`. -/
theorem toNat_toUInt32_ofInt (v : Int) : ((Int32.ofInt v).toUInt32.toNat : Int) = v % 2 ^ 32 := by
  show ((BitVec.ofInt 32 v).toNat : Int) = _
  rw [BitVec.toNat_ofInt]
  omega

/-- `int` to `rt_uint8_t`. -/
theorem toNat_toUInt8_ofInt (v : Int) :
    ((Int32.ofInt v).toUInt32.toUInt8.toNat : Int) = v % 2 ^ 8 := by
  have h := toNat_toUInt32_ofInt v
  rw [UInt32.toNat_toUInt8]
  omega

/-- `int` to `rt_uint16_t`. -/
theorem toNat_toUInt16_ofInt (v : Int) :
    ((Int32.ofInt v).toUInt32.toUInt16.toNat : Int) = v % 2 ^ 16 := by
  have h := toNat_toUInt32_ofInt v
  rw [UInt32.toNat_toUInt16]
  omega

/-- A missing field leaves the member alone. -/
theorem Sentence.fed_missing {α : Type} (s : Sentence) {k : Nat} (hk : s.fields.length < k)
    (old : α) (new : Int32 × UInt8 → α) : s.fed k old new = old := by
  rw [Sentence.fed, Sentence.number, s.field_eq_none hk]
  rfl

/-- The number of a field that is there. -/
theorem Sentence.fed_field {α : Type} (s : Sentence) {k : Nat} {f : Bytes}
    (hf : s.field k = some f) (old : α) (new : Int32 × UInt8 → α) :
    s.fed k old new = new (Int32.ofInt (scaledValue f), UInt8.ofNat (fieldDecimals f)) := by
  rw [Sentence.fed, Sentence.number, hf]
  rfl

/-- A missing byte field leaves the member alone. -/
theorem Sentence.byte_missing (s : Sentence) {k : Nat} (hk : s.fields.length < k) :
    s.byte k = none := by
  rw [Sentence.byte, s.field_eq_none hk]
  rfl

/-- What the table `Tag.feeds` says about a state before and after a sentence. -/
structure FedBy (s : Sentence) (gpsx gpsx' : NmeaMsg) : Prop where
  -- the frame
  other : ∀ m, s.tag.feeds m = none → m.get gpsx' = m.get gpsx
  missing : ∀ m k, s.tag.feeds m = some k → s.fields.length < k → m.get gpsx' = m.get gpsx
  value : s.tag = .gngga ∨ s.tag = .gpgsa → ∀ m k f, s.tag.feeds m = some k →
    s.field k = some f → m.get gpsx' = m.truncate (scaledValue f)

/-- `$GNGGA` obeys the table. -/
theorem fedBy_gngga (s : Sentence) (htag : s.tag = .gngga) (gpsx : NmeaMsg) :
    FedBy s gpsx (s.gnggaFed gpsx) where
  other m h := by
    rw [htag] at h
    cases m <;> simp only [Tag.feeds, reduceCtorEq] at h <;>
      simp only [Member.get, Sentence.gnggaFed]
  missing m k h hk := by
    rw [htag] at h
    cases m <;> cases h <;> simp only [Member.get, Sentence.gnggaFed, s.fed_missing hk]
  value _ m k f h hf := by
    rw [htag] at h
    cases m <;> cases h <;>
      simp only [Member.get, Sentence.gnggaFed, Member.truncate, s.fed_field hf,
        toNat_toUInt8_ofInt]
    exact Int32.toInt_ofInt

/-- `$GPGSA` obeys the table. -/
theorem fedBy_gpgsa (s : Sentence) (htag : s.tag = .gpgsa) (gpsx : NmeaMsg) :
    FedBy s gpsx (s.gpgsaFed gpsx) where
  other m h := by
    rw [htag] at h
    cases m <;> simp only [Tag.feeds, reduceCtorEq] at h <;>
      simp only [Member.get, Sentence.gpgsaFed]
  missing m k h hk := by
    rw [htag] at h
    cases m <;> cases h <;>
      simp only [Member.get, Sentence.gpgsaFed, Fin.getElem_fin, Vector.getElem_ofFn,
        s.fed_missing hk]
  value _ m k f h hf := by
    rw [htag] at h
    cases m <;> cases h <;>
      simp only [Member.get, Sentence.gpgsaFed, Member.truncate, Fin.getElem_fin,
        Vector.getElem_ofFn, s.fed_field hf, toNat_toUInt8_ofInt, toNat_toUInt16_ofInt]

/-- `$GNRMC` obeys the frame of the table. -/
theorem fedBy_gnrmc (fl : Rounding) (s : Sentence) (htag : s.tag = .gnrmc)
    (gpsx : NmeaMsg) : FedBy s gpsx (s.gnrmcFed fl gpsx) where
  other m h := by
    rw [htag] at h
    cases m <;> simp only [Tag.feeds, reduceCtorEq] at h <;>
      simp only [Member.get, Sentence.gnrmcFed]
  missing m k h hk := by
    rw [htag] at h
    cases m <;> cases h <;>
      simp only [Member.get, Sentence.gnrmcFed, s.fed_missing hk, s.byte_missing hk,
        Option.getD_none]
  value h := by simp [htag] at h

/-- `$GNVTG` obeys the frame of the table. -/
theorem fedBy_gnvtg (s : Sentence) (htag : s.tag = .gnvtg) (gpsx : NmeaMsg) :
    FedBy s gpsx (s.gnvtgFed gpsx) where
  other m h := by
    rw [htag] at h
    cases m <;> simp only [Tag.feeds, reduceCtorEq] at h <;>
      simp only [Member.get, Sentence.gnvtgFed]
  missing m k h hk := by
    rw [htag] at h
    cases m <;> cases h
    simp only [Member.get, Sentence.gnvtgFed, s.fed_missing hk]
  value h := by simp [htag] at h

/-- A single sentence other than `$GPGSV` is parsed without a fault, as the table says. -/
theorem gpsAnalysis_fedBy (fl : Rounding) (gpsx : NmeaMsg) (s : Sentence) (junk : Bytes)
    (htag : s.tag ≠ .gpgsv) (hnum : s.Numeric) :
    ∃ gpsx', gpsAnalysis fl gpsx (s.buffer junk) = some gpsx' ∧ FedBy s gpsx gpsx' := by
  rw [gpsAnalysis_sentence]
  cases h : s.tag with
  | gpgsv => exact absurd h htag
  | gngga => exact ⟨_, nmeaGnggaAnalysis_sentence s h hnum gpsx junk, fedBy_gngga s h gpsx⟩
  | gpgsa => exact ⟨_, nmeaGpgsaAnalysis_sentence s h hnum gpsx junk, fedBy_gpgsa s h gpsx⟩
  | gnrmc =>
      exact ⟨_, nmeaGnrmcAnalysis_sentence fl s h hnum gpsx junk, fedBy_gnrmc fl s h gpsx⟩
  | gnvtg => exact ⟨_, nmeaGnvtgAnalysis_sentence s h hnum gpsx junk, fedBy_gnvtg s h gpsx⟩

/-- **Fields and frame.** A single sentence other than `$GPGSV` leaves the state that
`Tag.feeds` says, and an altitude that fits its member is exact. -/
theorem gpsAnalysis_fields (fl : Rounding) (gpsx : NmeaMsg) (s : Sentence) (junk : Bytes)
    (htag : s.tag ≠ .gpgsv) (hnum : s.Numeric) :
    ∃ gpsx', gpsAnalysis fl gpsx (s.buffer junk) = some gpsx' ∧ FedBy s gpsx gpsx'
      ∧ (∀ f, s.tag = .gngga → s.field 9 = some f → |scaledValue f| < 2 ^ 31 →
        gpsx'.altitude.toInt = scaledValue f) := by
  obtain ⟨gpsx', hrun, hfed⟩ := gpsAnalysis_fedBy fl gpsx s junk htag hnum
  refine ⟨gpsx', hrun, hfed, ?_⟩
  intro f hgga hf hbound
  have hval := hfed.value (Or.inl hgga) .altitude 9 f (by rw [hgga]; rfl) hf
  rw [abs_lt] at hbound
  simp only [Member.get, Member.truncate] at hval
  rw [hval, Int.bmod_eq_of_le (by omega) (by omega)]

/-- A position report with the altitude below sea level and the last fields empty. -/
def ggaSentence : Sentence where
  tag := .gngga
  fields := [ascii "092204.999", ascii "4250.5589", ascii "S", ascii "14718.5084", ascii "E",
    ascii "1", ascii "04", ascii "24.4", ascii "-19.7", ascii "M", [], []]
  checksum := ascii "1F"
  field_bytes := by decide
  no_gnrmc := by decide
  checksum_hex := by decide
  checksum_length := by decide
  length_lt := by decide

theorem gpsAnalysis_fields_gga :
    ∃ gpsx', gpsAnalysis .exact gpsData (ggaSentence.buffer []) = some gpsx'
      ∧ FedBy ggaSentence gpsData gpsx'
      ∧ (∀ f, ggaSentence.tag = .gngga → ggaSentence.field 9 = some f →
        |scaledValue f| < 2 ^ 31 → gpsx'.altitude.toInt = scaledValue f) :=
  gpsAnalysis_fields .exact gpsData ggaSentence [] (by decide) (by decide)

end CarLocator.Gps
