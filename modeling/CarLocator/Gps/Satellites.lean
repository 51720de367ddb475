import CarLocator.Gps.Fields
import CarLocator.Library.Runs

/-!
# `CarLocator.Gps.Satellites`: a cycle of `$GPGSV` sentences

A receiver reports the satellites in view four to a sentence, in a cycle of up to three
sentences (`GsvCycle`). `gps_thread_entry` hands them to `GPS_Analysis` one line at a time,
while `NMEA_GPGSV_Analysis` was written for a buffer with the whole cycle: it looks for as
many sentences as the first one announces.

`gsvCycle_stored_iff` states that the table is as intended behind the cycle
(`CycleStored`) exactly when the cycle is a single sentence. A sentence that announces a
second one makes the search for it fail, and the null pointer it returns is parsed
(`gpsAnalysis_gsv_null`).
-/

set_option autoImplicit false

namespace CarLocator.Gps

open CarLocator.Library

/-! ### Cycles -/

/-- A satellite as it is reported: four numbers that fit the members of `nmea_slmsg`. -/
structure Satellite where
  num : Bytes
  eledeg : Bytes
  azideg : Bytes
  sn : Bytes
  numeric : ∀ f ∈ [num, eledeg, azideg, sn], IsNumeric f
  num_fits : 0 ≤ scaledValue num ∧ scaledValue num < 2 ^ 8
  eledeg_fits : 0 ≤ scaledValue eledeg ∧ scaledValue eledeg < 2 ^ 8
  azideg_fits : 0 ≤ scaledValue azideg ∧ scaledValue azideg < 2 ^ 16
  sn_fits : 0 ≤ scaledValue sn ∧ scaledValue sn < 2 ^ 8

/-- The four fields of a satellite. -/
def Satellite.fields (sat : Satellite) : List Bytes :=
  [sat.num, sat.eledeg, sat.azideg, sat.sn]

/-- The line `$GPGSV,count,number,total,...` with its satellites. -/
structure GsvSentence extends Sentence where
  count : Nat
  number : Nat
  total : Bytes
  sats : List Satellite
  tag_eq : tag = .gpgsv
  fields_eq : fields
    = decimal count :: decimal number :: total :: sats.flatMap Satellite.fields
  total_numeric : IsNumeric total

/-- A full cycle: `N` sentences numbered from 1, four satellites in each but the last. -/
structure GsvCycle where
  sentences : List GsvSentence
  total : Nat
  length_pos : 1 ≤ sentences.length
  length_le : sentences.length ≤ 3
  total_le : total ≤ 12
  numbered : ∀ k s, sentences[k]? = some s →
    s.count = sentences.length ∧ s.number = k + 1 ∧ scaledValue s.total = total
  full : ∀ k s, sentences[k]? = some s → k + 1 < sentences.length → s.sats.length = 4
  last : ∀ s, sentences[sentences.length - 1]? = some s →
    1 ≤ s.sats.length ∧ s.sats.length ≤ 4
  total_eq : (sentences.map (·.sats.length)).sum = total

/-- The table entry holds the satellite. -/
structure Satellite.HeldBy (sat : Satellite) (sl : NmeaSlmsg) : Prop where
  num : (sl.num.toNat : Int) = scaledValue sat.num
  eledeg : (sl.eledeg.toNat : Int) = scaledValue sat.eledeg
  azideg : (sl.azideg.toNat : Int) = scaledValue sat.azideg
  sn : (sl.sn.toNat : Int) = scaledValue sat.sn

/-- What the cycle is to leave behind: the number of satellites, the satellites in their
slots, and everything else as it was. -/
structure CycleStored (c : GsvCycle) (gpsx gpsx' : NmeaMsg) : Prop where
  svnum : gpsx'.svnum.toNat = c.total
  slot : ∀ k j s sat, c.sentences[k]? = some s → s.sats[j]? = some sat →
    ∃ sl, gpsx'.slmsg[4 * k + j]? = some sl ∧ sat.HeldBy sl
  beyond : ∀ i (h : i < 12), c.total ≤ i → gpsx'.slmsg[i] = gpsx.slmsg[i]
  others : gpsx' = { gpsx with svnum := gpsx'.svnum, slmsg := gpsx'.slmsg }

/-- One line through `GPS_Analysis`, with what is behind it in the buffer. -/
def gsvStep (fl : Rounding) (gpsx : NmeaMsg) (a : GsvSentence × Bytes) : Option NmeaMsg :=
  gpsAnalysis fl gpsx (a.1.buffer a.2)

/-- The lines of the cycle. -/
def GsvCycle.lines (c : GsvCycle) (junk : GsvSentence → Bytes) :
    List (GsvSentence × Bytes) :=
  c.sentences.map fun s => (s, junk s)

/-! ### The fields of a sentence -/

/-- A digit alone. -/
theorem decimal_of_lt_ten {n : Nat} (h : n < 10) : decimal n = [digitByte n] := by
  unfold decimal
  split
  · rename_i h0
    rw [h0]
    rfl
  · rename_i h0
    rw [Nat.digits_of_lt 10 n h0 h]
    rfl

/-- The fields of satellite `j`. -/
theorem flatMap_fields_getElem? (sats : List Satellite) (j i : Nat) (hi : i < 4) :
    (sats.flatMap Satellite.fields)[4 * j + i]? = sats[j]?.bind (·.fields[i]?) := by
  induction sats generalizing j with
  | nil => rfl
  | cons sat sats ih =>
      have hlen : sat.fields.length = 4 := rfl
      rw [List.flatMap_cons]
      cases j with
      | zero =>
          rw [List.getElem?_append_left (by omega), Nat.mul_zero, Nat.zero_add]
          rfl
      | succ j =>
          rw [List.getElem?_append_right (by omega), List.getElem?_cons_succ, ← ih j]
          congr 1
          omega

/-- Field `4 + 4 * j + i` belongs to satellite `j`. -/
theorem GsvSentence.field_sat (s : GsvSentence) (j i : Nat) (hi : i < 4) :
    s.field (4 + i + 4 * j) = s.sats[j]?.bind (·.fields[i]?) := by
  rw [Sentence.field, if_neg (by omega), s.fields_eq, ← flatMap_fields_getElem? s.sats j i hi,
    show 4 + i + 4 * j - 1 = 4 * j + i + 1 + 1 + 1 from by omega]
  rfl

/-- Field 3 is the number of satellites. -/
theorem GsvSentence.field_total (s : GsvSentence) : s.field 3 = some s.total := by
  rw [Sentence.field, if_neg (by omega), s.fields_eq]
  rfl

/-- The number fields are numbers. -/
theorem GsvSentence.numeric (s : GsvSentence) : s.Numeric := by
  intro k hk f hf
  rw [s.tag_eq] at hk
  have hk3 : 3 ≤ k := (List.mem_range'_1.mp hk).1
  rcases Nat.eq_or_lt_of_le hk3 with rfl | hk4
  · rw [s.field_total] at hf
    cases hf
    exact Or.inr s.total_numeric
  · obtain ⟨j, i, hi, rfl⟩ : ∃ j i, i < 4 ∧ k = 4 + i + 4 * j :=
      ⟨(k - 4) / 4, (k - 4) % 4, by omega, by omega⟩
    rw [s.field_sat j i hi] at hf
    obtain ⟨sat, -, hget⟩ := Option.bind_eq_some_iff.mp hf
    exact Or.inr (sat.numeric f (List.mem_of_getElem? hget))

/-- The byte that `len` is taken from. -/
theorem GsvSentence.start_seven (s : GsvSentence) (junk : Bytes) (hcount : s.count < 10) :
    (s.start junk)[7]? = some (digitByte s.count) := by
  rw [Sentence.start, Sentence.behindTag, s.tag_eq, s.fields_eq, decimal_of_lt_ten hcount]
  rfl

/-! ### The satellites of one sentence -/

/-- A satellite as the parser stores it. -/
def Satellite.slmsg (sat : Satellite) : NmeaSlmsg where
  num := (Int32.ofInt (scaledValue sat.num)).toUInt32.toUInt8
  eledeg := (Int32.ofInt (scaledValue sat.eledeg)).toUInt32.toUInt8
  azideg := (Int32.ofInt (scaledValue sat.azideg)).toUInt32.toUInt16
  sn := (Int32.ofInt (scaledValue sat.sn)).toUInt32.toUInt8

/-- Since the numbers fit, they are stored whole. -/
theorem Satellite.heldBy_slmsg (sat : Satellite) : sat.HeldBy sat.slmsg where
  num := (toNat_toUInt8_ofInt _).trans (Int.emod_eq_of_lt sat.num_fits.1 sat.num_fits.2)
  eledeg :=
    (toNat_toUInt8_ofInt _).trans (Int.emod_eq_of_lt sat.eledeg_fits.1 sat.eledeg_fits.2)
  azideg :=
    (toNat_toUInt16_ofInt _).trans (Int.emod_eq_of_lt sat.azideg_fits.1 sat.azideg_fits.2)
  sn := (toNat_toUInt8_ofInt _).trans (Int.emod_eq_of_lt sat.sn_fits.1 sat.sn_fits.2)

/-- The state with another table entry. -/
def withSlmsg (gpsx : NmeaMsg) (i : Nat) (hi : i < 12) (sl : NmeaSlmsg) : NmeaMsg :=
  { gpsx with slmsg := gpsx.slmsg.set i sl }

/-- The entry written is the entry read. -/
@[simp]
theorem withSlmsg_self (gpsx : NmeaMsg) (i : Nat) (hi : i < 12) (sl : NmeaSlmsg) :
    (withSlmsg gpsx i hi sl).slmsg[i] = sl := by
  simp [withSlmsg]

/-- The last write of an entry counts. -/
@[simp]
theorem withSlmsg_withSlmsg (gpsx : NmeaMsg) (i : Nat) (hi : i < 12) (sl sl' : NmeaSlmsg) :
    withSlmsg (withSlmsg gpsx i hi sl) i hi sl' = withSlmsg gpsx i hi sl' := by
  simp [withSlmsg]

/-- A field of satellite `j` is stored into entry `slx`. -/
theorem gpgsvField_sat (s : GsvSentence) (junk : Bytes) {cx slx : UInt8} {j i : Nat}
    (hcx : cx.toNat = 4 + i + 4 * j) (hi : i < 4) (hj : j < 4) (hslx : slx.toNat < 12)
    {sat : Satellite} {f : Bytes} (hsat : s.sats[j]? = some sat)
    (hf : sat.fields[i]? = some f) (store : NmeaSlmsg → Int32 → NmeaSlmsg)
    (gpsx : NmeaMsg) :
    gpgsvField (s.start junk) cx slx store gpsx
      = some (withSlmsg gpsx slx.toNat hslx
          (store gpsx.slmsg[slx.toNat] (Int32.ofInt (scaledValue f))), true) := by
  have hfield : s.field cx.toNat = some f := by
    rw [hcx, s.field_sat j i hi, hsat]
    exact hf
  have hmem : cx.toNat ∈ s.tag.numberFields := by
    rw [s.tag_eq]
    exact List.mem_range'_1.mpr (by omega)
  rw [gpgsvField, fieldNumber_sentence s.toSentence junk (by omega) (s.numeric _ hmem),
    Sentence.number, hfield]
  simp only [Option.map_some, Option.bind_eq_bind, Option.bind_some, hslx, dif_pos]
  rfl

/-- The first field of a satellite that is not there ends the loop. -/
theorem gpgsvField_missing (s : GsvSentence) (junk : Bytes) {cx slx : UInt8} {j : Nat}
    (hcx : cx.toNat = 4 + 4 * j) (hj : j < 4) (hsat : s.sats[j]? = none)
    (store : NmeaSlmsg → Int32 → NmeaSlmsg) (gpsx : NmeaMsg) :
    gpgsvField (s.start junk) cx slx store gpsx = some (gpsx, false) := by
  have hfield : s.field cx.toNat = none := by
    rw [hcx, s.field_sat j 0 (by omega), hsat]
    rfl
  have hmem : cx.toNat ∈ s.tag.numberFields := by
    rw [s.tag_eq]
    exact List.mem_range'_1.mpr (by omega)
  rw [gpgsvField, fieldNumber_sentence s.toSentence junk (by omega) (s.numeric _ hmem),
    Sentence.number, hfield]
  rfl

/-- The four fields of a satellite that is there. -/
theorem gpgsvSatellite_there (s : GsvSentence) (junk : Bytes) {j slx : UInt8}
    (hj : j.toNat < 4) (hslx : slx.toNat < 12) {sat : Satellite}
    (hsat : s.sats[j.toNat]? = some sat) (gpsx : NmeaMsg) :
    gpgsvSatellite (s.start junk) j slx gpsx
      = some (withSlmsg gpsx slx.toNat hslx sat.slmsg, true) := by
  have hcx : ∀ i : UInt8, i.toNat < 4 → (4 + i + j * 4).toNat = 4 + i.toNat + 4 * j.toNat := by
    intro i hi
    simp only [UInt8.toNat_add, UInt8.toNat_mul, UInt8.reduceToNat]
    omega
  have h₀ := fun store g => gpgsvField_sat s junk (i := 0) (hcx 0 (by decide)) (by decide) hj
    hslx hsat rfl store g
  have h₁ := fun store g => gpgsvField_sat s junk (i := 1) (hcx 1 (by decide)) (by decide) hj
    hslx hsat rfl store g
  have h₂ := fun store g => gpgsvField_sat s junk (i := 2) (hcx 2 (by decide)) (by decide) hj
    hslx hsat rfl store g
  have h₃ := fun store g => gpgsvField_sat s junk (i := 3) (hcx 3 (by decide)) (by decide) hj
    hslx hsat rfl store g
  simp only [UInt8.reduceAdd] at h₀ h₁ h₂ h₃
  unfold gpgsvSatellite
  simp only [h₀, h₁, h₂, h₃, Option.bind_eq_bind, Option.bind_some, Bool.true_eq_false,
    if_false, withSlmsg_self, withSlmsg_withSlmsg]
  rfl

/-- The table with the satellites from `j` on in their slots. -/
def storedFrom (sats : List Satellite) (j : Nat) (old : Vector NmeaSlmsg 12) :
    Vector NmeaSlmsg 12 :=
  Vector.ofFn fun i : Fin 12 =>
    if j ≤ i then ((sats[(i : Nat)]?).map Satellite.slmsg).getD (old.get i) else old.get i

/-- One entry of the table. -/
theorem getElem_storedFrom (sats : List Satellite) (j : Nat) (old : Vector NmeaSlmsg 12) {i : Nat}
    (hi : i < 12) : (storedFrom sats j old)[i]
      = if j ≤ i then ((sats[i]?).map Satellite.slmsg).getD old[i] else old[i] := by
  rw [storedFrom, Vector.getElem_ofFn]
  rfl

/-- Nothing to store. -/
theorem storedFrom_of_length_le {sats : List Satellite} {j : Nat} (h : sats.length ≤ j)
    (old : Vector NmeaSlmsg 12) : storedFrom sats j old = old := by
  apply Vector.ext
  intro i hi
  rw [getElem_storedFrom sats j old hi]
  by_cases hle : j ≤ i
  · rw [if_pos hle, List.getElem?_eq_none (Nat.le_trans h hle)]
    rfl
  · rw [if_neg hle]

/-- Satellite `j` and the ones behind it. -/
theorem storedFrom_set {sats : List Satellite} {j : Nat} (hj : j < 12) {sat : Satellite}
    (hsat : sats[j]? = some sat) (old : Vector NmeaSlmsg 12) :
    storedFrom sats (j + 1) (old.set j sat.slmsg) = storedFrom sats j old := by
  apply Vector.ext
  intro i hi
  simp only [getElem_storedFrom, Vector.getElem_set]
  rcases Nat.lt_trichotomy i j with hlt | rfl | hgt
  · rw [if_neg (show ¬ j + 1 ≤ i by omega), if_neg (show ¬ j ≤ i by omega),
      if_neg (show ¬ j = i by omega)]
  · rw [if_neg (show ¬ i + 1 ≤ i by omega), if_pos rfl, if_pos (Nat.le_refl _), hsat]
    rfl
  · rw [if_pos (show j + 1 ≤ i from hgt), if_pos (show j ≤ i by omega),
      if_neg (show ¬ j = i by omega)]

/-- The inner loop over a single sentence: it starts with entry `j` for satellite `j` and
stops behind the last one. -/
theorem gpgsvSatellites_single (s : GsvSentence) (junk : Bytes) (hlen : s.sats.length ≤ 4)
    (n : Nat) (j : UInt8) (hj : n + j.toNat = 4) (gpsx : NmeaMsg) :
    ∃ slx, gpgsvSatellites (s.start junk) n j j gpsx
      = some ({ gpsx with slmsg := storedFrom s.sats j.toNat gpsx.slmsg }, slx) := by
  induction n generalizing j gpsx with
  | zero =>
      refine ⟨j, ?_⟩
      rw [storedFrom_of_length_le (by omega)]
      rfl
  | succ n ih =>
      have hj4 : j.toNat < 4 := by omega
      rw [gpgsvSatellites]
      cases hsat : s.sats[j.toNat]? with
      | none =>
          have hcx : (4 + j * 4).toNat = 4 + 4 * j.toNat := by
            simp only [UInt8.toNat_add, UInt8.toNat_mul, UInt8.reduceToNat]
            omega
          refine ⟨j, ?_⟩
          rw [storedFrom_of_length_le (List.getElem?_eq_none_iff.mp hsat), gpgsvSatellite,
            gpgsvField_missing s junk hcx hj4 hsat]
          rfl
      | some sat =>
          have hsucc : (j + 1).toNat = j.toNat + 1 := by
            simp only [UInt8.toNat_add, UInt8.reduceToNat]
            omega
          rw [gpgsvSatellite_there s junk hj4 (by omega) hsat]
          obtain ⟨slx, hrun⟩ := ih (j + 1) (by omega)
            (withSlmsg gpsx j.toNat (by omega) sat.slmsg)
          refine ⟨slx, ?_⟩
          simp only [withSlmsg, hsucc, storedFrom_set (show j.toNat < 12 by omega) hsat] at hrun
          exact hrun

/-! ### One call -/

/-- The count of the announced sentences, as the outer loop takes it. -/
theorem GsvSentence.len_eq (s : GsvSentence) (hcount : s.count < 10) :
    (digitByte s.count - 48).toNat = s.count := by
  have h48 : (48 : UInt8) ≤ digitByte s.count := by
    rw [UInt8.le_iff_toNat_le, digitByte, UInt8.toNat_ofNat']
    show 48 ≤ _
    omega
  rw [UInt8.toNat_sub_of_le _ _ h48, digitByte, UInt8.toNat_ofNat']
  show _ - 48 = _
  omega

/-- The tag is found. -/
theorem GsvSentence.strstr_gpgsv (s : GsvSentence) (junk : Bytes) :
    strstr (ascii "$GPGSV") (s.buffer junk) = some (s.start junk) := by
  rw [← s.toSentence.strstr_self, s.tag_eq]
  rfl

/-- There is no second `'$'` on the line. -/
theorem GsvSentence.strstr_next (s : GsvSentence) (junk : Bytes) :
    strstr (ascii "$GPGSV") ((s.start junk).drop 1) = none := by
  have htext : (s.start junk).drop 1 = s.text.drop 1 ++ 0 :: junk := by
    rw [Sentence.start, Sentence.text, Sentence.behindTag, lineText, s.tag_eq]
    simp [Tag.key, Tag.text, ascii]
  have hdollar : (36 : UInt8) ∉ s.text.drop 1 := by
    have htail : s.text.drop 1
        = ascii "GPGSV" ++ (fieldsText s.fields ++ 42 :: (s.checksum ++ [13, 10])) := by
      rw [Sentence.text, lineText, s.tag_eq]
      rfl
    rw [htail]
    simp only [fieldsText, List.mem_append, List.mem_cons, List.mem_flatMap]
    rintro (h | ⟨f, hf, h | h⟩ | h | h | h)
    · exact absurd h (by decide)
    · exact absurd h (by decide)
    · exact absurd (s.field_bytes f hf 36 h) (by decide)
    · exact absurd h (by decide)
    · exact absurd (s.checksum_hex 36 h) (by decide)
    · simp at h
  rw [htext]
  refine strstr_eq_none (by decide) (by decide) ?_ ?_ junk
  · exact fun h => s.zero_notMem (List.mem_of_mem_drop h)
  · exact fun h => hdollar (h.subset (by decide))

/-- The number of satellites is fed from field 3. -/
theorem GsvSentence.feed_total (s : GsvSentence) (junk : Bytes) (gpsx : NmeaMsg) :
    feed (s.start junk) 3 gpsx (fun v => { gpsx with svnum := v.1.toUInt32.toUInt8 })
      = some { gpsx with
          svnum := (Int32.ofInt (scaledValue s.total)).toUInt32.toUInt8 } := by
  have hmem : 3 ∈ s.tag.numberFields := by
    rw [s.tag_eq]
    decide
  rw [feed_sentence s.toSentence junk (k := 3) (by decide) (s.numeric 3 hmem)]
  exact congrArg some (s.fed_field s.field_total _ _)

/-- **A cycle of one sentence** is stored as intended. -/
theorem gpsAnalysis_gsv_single (fl : Rounding) (s : GsvSentence) (junk : Bytes)
    (hcount : s.count = 1) (hlen : s.sats.length ≤ 4) (gpsx : NmeaMsg) :
    gpsAnalysis fl gpsx (s.buffer junk) = some { gpsx with
      svnum := (Int32.ofInt (scaledValue s.total)).toUInt32.toUInt8
      slmsg := storedFrom s.sats 0 gpsx.slmsg } := by
  let g₁ : NmeaMsg :=
    { gpsx with svnum := (Int32.ofInt (scaledValue s.total)).toUInt32.toUInt8 }
  obtain ⟨slx, hsats⟩ := gpgsvSatellites_single s junk hlen 4 0 rfl g₁
  have hrounds : gpgsvSentences (digitByte s.count - 48).toNat (s.buffer junk) 0 g₁
      = some { g₁ with slmsg := storedFrom s.sats 0 g₁.slmsg } := by
    rw [s.len_eq (by omega), hcount, gpgsvSentences, s.strstr_gpgsv, Option.bind_eq_bind,
      Option.bind_some, hsats]
    rfl
  rw [gpsAnalysis_sentence, s.tag_eq]
  show nmeaGpgsvAnalysis gpsx (s.buffer junk) = _
  unfold nmeaGpgsvAnalysis
  exact bind_eq_of_eq_some (s.strstr_gpgsv junk)
    (bind_eq_of_eq_some (s.start_seven junk (by omega))
      (bind_eq_of_eq_some (s.feed_total junk gpsx) hrounds))

/-- **A sentence that announces a second one**: the search for it fails, and the call does
not get beyond the null pointer. -/
theorem gpsAnalysis_gsv_null (fl : Rounding) (s : GsvSentence) (junk : Bytes)
    (hcount : 2 ≤ s.count) (hcount' : s.count < 10) (gpsx : NmeaMsg) :
    gpsAnalysis fl gpsx (s.buffer junk) = none := by
  have hrounds : ∀ g, gpgsvSentences (digitByte s.count - 48).toNat (s.buffer junk) 0 g
      = none := by
    intro g
    obtain ⟨n, hn⟩ : ∃ n, s.count = n + 2 := ⟨s.count - 2, by omega⟩
    rw [s.len_eq hcount', hn, gpgsvSentences]
    refine bind_eq_of_eq_some (s.strstr_gpgsv junk) ?_
    cases gpgsvSatellites (s.start junk) 4 0 0 g with
    | none => rfl
    | some r =>
        show gpgsvSentences (n + 1) ((s.start junk).drop 1) r.2 r.1 = none
        rw [gpgsvSentences, s.strstr_next]
        rfl
  rw [gpsAnalysis_sentence, s.tag_eq]
  show nmeaGpgsvAnalysis gpsx (s.buffer junk) = _
  unfold nmeaGpgsvAnalysis
  exact bind_eq_of_eq_some (s.strstr_gpgsv junk)
    (bind_eq_of_eq_some (s.start_seven junk hcount')
      (bind_eq_of_eq_some (s.feed_total junk gpsx) (hrounds _)))

/-! ### The cycle -/

/-- The state behind a cycle of one sentence is the intended one. -/
theorem cycleStored_single (c : GsvCycle) (s : GsvSentence) (hc : c.sentences = [s])
    (gpsx : NmeaMsg) :
    CycleStored c gpsx { gpsx with
      svnum := (Int32.ofInt (scaledValue s.total)).toUInt32.toUInt8
      slmsg := storedFrom s.sats 0 gpsx.slmsg } := by
  have htotal : scaledValue s.total = c.total := (c.numbered 0 s (by rw [hc]; rfl)).2.2
  have hlast := (c.last s (by rw [hc]; rfl)).2
  have hsum : s.sats.length = c.total := by
    rw [← c.total_eq, hc]
    rfl
  have hle := c.total_le
  refine ⟨?_, ?_, ?_, rfl⟩
  · have h := toNat_toUInt8_ofInt (scaledValue s.total)
    rw [htotal] at h ⊢
    simp only at h ⊢
    omega
  · intro k j t sat ht hsat
    rw [hc] at ht
    cases k with
    | succ k => simp at ht
    | zero =>
        obtain rfl : s = t := by simpa using ht
        have hj : j < s.sats.length := (List.getElem?_eq_some_iff.mp hsat).1
        refine ⟨sat.slmsg, ?_, sat.heldBy_slmsg⟩
        rw [Nat.mul_zero, Nat.zero_add, Vector.getElem?_eq_getElem (by omega)]
        simp only [getElem_storedFrom]
        rw [if_pos (Nat.zero_le _), hsat]
        rfl
  · intro i hi hbeyond
    simp only [getElem_storedFrom]
    rw [if_pos (Nat.zero_le _), List.getElem?_eq_none (by omega)]
    rfl

/-- **When a cycle is stored.** The table is as intended behind the lines of a cycle
exactly when the cycle is a single sentence. -/
theorem gsvCycle_stored_iff (fl : Rounding) (c : GsvCycle) (junk : GsvSentence → Bytes)
    (gpsx : NmeaMsg) :
    (∃ gpsx', run (gsvStep fl) gpsx (c.lines junk) = some gpsx' ∧ CycleStored c gpsx gpsx')
      ↔ c.sentences.length = 1 := by
  constructor
  · rintro ⟨gpsx', hrun, -⟩
    by_contra hne
    have hpos := c.length_pos
    have hle := c.length_le
    cases hc : c.sentences with
    | nil => simp [hc] at hpos
    | cons s rest =>
        -- The first line of a longer cycle already fails.
        have hcount : s.count = c.sentences.length := (c.numbered 0 s (by rw [hc]; rfl)).1
        have hnull := gpsAnalysis_gsv_null fl s (junk s) (by omega) (by omega) gpsx
        rw [GsvCycle.lines, hc, List.map_cons, run_cons, gsvStep, hnull] at hrun
        cases hrun
  · intro hone
    obtain ⟨s, hc⟩ := List.length_eq_one_iff.mp hone
    have hcount : s.count = 1 := by
      rw [(c.numbered 0 s (by rw [hc]; rfl)).1, hone]
    have hlen := (c.last s (by rw [hc]; rfl)).2
    refine ⟨_, ?_, cycleStored_single c s hc gpsx⟩
    rw [GsvCycle.lines, hc, List.map_singleton, run_cons, gsvStep,
      gpsAnalysis_gsv_single fl s (junk s) hcount hlen gpsx]
    rfl

/-- Satellites 1 to 4 of a cycle of two sentences. -/
def gsvFirst : GsvSentence where
  tag := .gpgsv
  count := 2
  number := 1
  total := ascii "05"
  sats := [
    ⟨ascii "01", ascii "40", ascii "083", ascii "46", by decide, by decide, by decide,
      by decide, by decide⟩,
    ⟨ascii "02", ascii "17", ascii "308", ascii "41", by decide, by decide, by decide,
      by decide, by decide⟩,
    ⟨ascii "12", ascii "07", ascii "344", ascii "39", by decide, by decide, by decide,
      by decide, by decide⟩,
    ⟨ascii "14", ascii "22", ascii "228", ascii "45", by decide, by decide, by decide,
      by decide, by decide⟩]
  fields := [ascii "2", ascii "1", ascii "05", ascii "01", ascii "40", ascii "083",
    ascii "46", ascii "02", ascii "17", ascii "308", ascii "41", ascii "12", ascii "07",
    ascii "344", ascii "39", ascii "14", ascii "22", ascii "228", ascii "45"]
  checksum := ascii "7C"
  field_bytes := by decide
  no_gnrmc := by decide
  checksum_hex := by decide
  checksum_length := by decide
  length_lt := by decide
  tag_eq := rfl
  fields_eq := by
    rw [decimal_of_lt_ten (by decide), decimal_of_lt_ten (by decide)]
    decide
  total_numeric := by decide

/-- Satellite 5. -/
def gsvSecond : GsvSentence where
  tag := .gpgsv
  count := 2
  number := 2
  total := ascii "05"
  sats := [⟨ascii "32", ascii "61", ascii "111", ascii "28", by decide, by decide,
    by decide, by decide, by decide⟩]
  fields := [ascii "2", ascii "2", ascii "05", ascii "32", ascii "61", ascii "111",
    ascii "28"]
  checksum := ascii "4D"
  field_bytes := by decide
  no_gnrmc := by decide
  checksum_hex := by decide
  checksum_length := by decide
  length_lt := by decide
  tag_eq := rfl
  fields_eq := by
    rw [decimal_of_lt_ten (by decide)]
    decide
  total_numeric := by decide

/-- The cycle of the two. -/
def gsvCycleOfTwo : GsvCycle where
  sentences := [gsvFirst, gsvSecond]
  total := 5
  length_pos := by decide
  length_le := by decide
  total_le := by decide
  numbered k s hs := by
    match k, hs with
    | 0, hs => cases hs; decide
    | 1, hs => cases hs; decide
  full k s hs hk := by
    match k, hs with
    | 0, hs => cases hs; rfl
    | 1, hs => exact absurd hk (by decide)
  last s hs := by
    cases hs
    decide
  total_eq := rfl

/-- The call with the first of two sentences does not return a state at all. -/
theorem gsvCycle_not_stored :
    ¬ ∃ gpsx', run (gsvStep .exact) gpsData (gsvCycleOfTwo.lines fun _ => []) = some gpsx'
      ∧ CycleStored gsvCycleOfTwo gpsData gpsx' := by
  rintro ⟨gpsx', hrun, -⟩
  have hnull := gpsAnalysis_gsv_null .exact gsvFirst [] (by decide) (by decide) gpsData
  rw [show gsvCycleOfTwo.lines (fun _ => []) = [(gsvFirst, []), (gsvSecond, [])] from rfl,
    run_cons, gsvStep, hnull] at hrun
  cases hrun

end CarLocator.Gps
