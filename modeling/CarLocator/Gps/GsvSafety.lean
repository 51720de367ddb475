import CarLocator.Gps.Scan

/-!
# `CarLocator.Gps.GsvSafety`: which lines `NMEA_GPGSV_Analysis` survives

The memory is the text of a line and its NUL, so every read behind the NUL is a fault, like a
null pointer and a write outside `slmsg`. A `GsvText` is any text with the tag in it.

`gsvSafe_iff` states which texts are safe. `NMEA_Comma_Pos` stops at the NUL by itself
(`nmeaCommaPos_line`), so what can go wrong is the announced number of sentences, read behind
the tag and never compared with the sentences that are there, the index of the table, which only
grows, and a field that `NMEA_Str2num` runs off.
-/

set_option autoImplicit false

namespace CarLocator.Gps

open CarLocator.Library

/-! ### The fields of a text -/

/-- Field `cx` is there for the parser. -/
def FieldFound (p : Bytes) (cx : UInt8) : Prop := nmeaCommaPos (p ++ [0]) cx ≠ some 0xFF

instance (p : Bytes) (cx : UInt8) : Decidable (FieldFound p cx) :=
  inferInstanceAs (Decidable (nmeaCommaPos (p ++ [0]) cx ≠ some 0xFF))

/-- If field `cx` is there, `NMEA_Str2num` stays within the text when it reads it. -/
def FieldEnds (p : Bytes) (cx : UInt8) : Prop :=
  ∀ posx, nmeaCommaPos (p ++ [0]) cx = some posx → posx ≠ 0xFF → ¬ RunsOff (p.drop posx.toNat)

/-- A field that is not there. -/
theorem fieldNumber_text_missing {p : Bytes} {cx : UInt8} (h : ¬ FieldFound p cx) :
    fieldNumber (p ++ [0]) cx = some none := by
  have hpos : nmeaCommaPos (p ++ [0]) cx = some 0xFF := not_not.mp h
  rw [fieldNumber, hpos]
  rfl

/-- A field that is there. -/
theorem fieldNumber_text {p : Bytes} {cx : UInt8} (h : FieldFound p cx) :
    (FieldEnds p cx ∧ ∃ v, fieldNumber (p ++ [0]) cx = some (some v)) ∨
      (¬ FieldEnds p cx ∧ fieldNumber (p ++ [0]) cx = none) := by
  obtain ⟨posx, hpos, hle⟩ := nmeaCommaPos_line p (c := 0) (by decide) [] cx
  have hne : posx ≠ 0xFF := fun hff => h (by rw [hpos, hff])
  have hends : FieldEnds p cx ↔ ¬ RunsOff (p.drop posx.toNat) := by
    constructor
    · exact fun hends => hends posx hpos hne
    · intro hoff posx' hpos' _
      cases hpos.symm.trans hpos'
      exact hoff
  have hnum := nmeaStr2num_isSome_iff (p.drop posx.toNat)
  -- `NMEA_Str2num` starts within the text.
  rw [← List.drop_append_of_le_length (hle.resolve_left hne), ← hends] at hnum
  rw [fieldNumber, hpos, Option.bind_eq_bind, Option.bind_some, if_neg hne]
  cases hv : nmeaStr2num ((p ++ [0]).drop posx.toNat) with
  | none =>
      rw [hv] at hnum
      exact Or.inr ⟨fun he => absurd (hnum.mpr he) (by decide), rfl⟩
  | some v =>
      rw [hv] at hnum
      exact Or.inl ⟨hnum.mp rfl, v, rfl⟩

/-- A `feed` from a text. -/
theorem feed_text_isSome (p : Bytes) (cx : UInt8) (gpsx : NmeaMsg)
    (f : Int32 × UInt8 → NmeaMsg) : (feed (p ++ [0]) cx gpsx f).isSome ↔ FieldEnds p cx := by
  rw [feed]
  by_cases hfound : FieldFound p cx
  · rcases fieldNumber_text hfound with ⟨hends, v, hv⟩ | ⟨hends, hv⟩
    · rw [hv]
      exact iff_of_true rfl hends
    · rw [hv]
      exact iff_of_false Bool.false_ne_true hends
  · rw [fieldNumber_text_missing hfound]
    refine iff_of_true rfl fun posx hpos hne => ?_
    rw [not_not.mp hfound] at hpos
    exact absurd (Option.some.inj hpos).symm hne

/-! ### The satellites of a sentence -/

/-- The fields of satellite `j`. -/
def satelliteFields (j : UInt8) : List UInt8 := [4 + j * 4, 5 + j * 4, 6 + j * 4, 7 + j * 4]

/-- The fields of `n` satellites from `j` on. -/
def satellitesFields : (n : Nat) → (j : UInt8) → List UInt8
  | 0, _ => []
  | n + 1, j => satelliteFields j ++ satellitesFields n (j + 1)

/-- The fields that are read in a sentence: up to the first one that is not there. -/
def fieldsRead (p : Bytes) (n : Nat) (j : UInt8) : List UInt8 :=
  (satellitesFields n j).takeWhile (FieldFound p ·)

/-- One field of a satellite: whether it is stored, or a fault. -/
theorem gpgsvField_text (p : Bytes) (cx slx : UInt8) (store : NmeaSlmsg → Int32 → NmeaSlmsg)
    (gpsx : NmeaMsg) :
    (gpgsvField (p ++ [0]) cx slx store gpsx = some (gpsx, false) ∧ ¬ FieldFound p cx) ∨
      FieldFound p cx ∧
        ((∃ gpsx', gpgsvField (p ++ [0]) cx slx store gpsx = some (gpsx', true)) ∧
            FieldEnds p cx ∧ slx.toNat < 12 ∨
          gpgsvField (p ++ [0]) cx slx store gpsx = none ∧
            ¬ (FieldEnds p cx ∧ slx.toNat < 12)) := by
  rw [gpgsvField]
  by_cases hfound : FieldFound p cx
  · refine Or.inr ⟨hfound, ?_⟩
    rcases fieldNumber_text hfound with ⟨hends, v, hv⟩ | ⟨hends, hv⟩
    · rw [hv, Option.bind_eq_bind, Option.bind_some]
      -- the table has twelve entries
      by_cases hslx : slx.toNat < 12
      · simp only [dif_pos hslx]
        exact Or.inl ⟨⟨_, rfl⟩, hends, hslx⟩
      · simp only [dif_neg hslx]
        exact Or.inr ⟨trivial, fun h => hslx h.2⟩
    · rw [hv]
      exact Or.inr ⟨rfl, fun h => hends h.1⟩
  · rw [fieldNumber_text_missing hfound]
    exact Or.inl ⟨rfl, hfound⟩

/-- The fields of a satellite one after the other, each with its member of the table entry. The
flag says that all of them were there. -/
def readFields (p1 : Bytes) (slx : UInt8) : List (UInt8 × (NmeaSlmsg → Int32 → NmeaSlmsg)) →
    NmeaMsg → Option (NmeaMsg × Bool)
  | [], gpsx => some (gpsx, true)
  | (cx, store) :: fields, gpsx => do
    let (gpsx, found) ← gpgsvField p1 cx slx store gpsx
    if found = false then pure (gpsx, false) else readFields p1 slx fields gpsx

/-- A satellite is its four fields. -/
theorem gpgsvSatellite_eq (p1 : Bytes) (j slx : UInt8) (gpsx : NmeaMsg) :
    gpgsvSatellite p1 j slx gpsx = readFields p1 slx
      [(4 + j * 4, fun s v => { s with num := v.toUInt32.toUInt8 }),
        (5 + j * 4, fun s v => { s with eledeg := v.toUInt32.toUInt8 }),
        (6 + j * 4, fun s v => { s with azideg := v.toUInt32.toUInt16 }),
        (7 + j * 4, fun s v => { s with sn := v.toUInt32.toUInt8 })] gpsx := by
  have hlast : ∀ (r : Option (NmeaMsg × Bool)),
      (r.bind fun a => if a.2 = false then some (a.1, false) else some (a.1, true)) = r := by
    rintro (_ | ⟨g, _ | _⟩) <;> rfl
  simp only [gpgsvSatellite, readFields, Option.bind_eq_bind, Option.pure_def, hlast]

/-- The fields of a satellite: those up to the first one that is not there are read, and there is
no fault if each of them ends and the entry is in the table. -/
theorem readFields_text (p : Bytes) (slx : UInt8)
    (fields : List (UInt8 × (NmeaSlmsg → Int32 → NmeaSlmsg))) (gpsx : NmeaMsg) :
    let read := (fields.map Prod.fst).takeWhile (FieldFound p ·)
    ((∃ gpsx', readFields (p ++ [0]) slx fields gpsx
          = some (gpsx', decide (read.length = fields.length))) ∧
        ∀ cx ∈ read, FieldEnds p cx ∧ slx.toNat < 12) ∨
      (readFields (p ++ [0]) slx fields gpsx = none ∧
        ¬ ∀ cx ∈ read, FieldEnds p cx ∧ slx.toNat < 12) := by
  induction fields generalizing gpsx with
  | nil => exact Or.inl ⟨⟨gpsx, rfl⟩, by simp⟩
  | cons field fields ih =>
      obtain ⟨cx, store⟩ := field
      rw [readFields, List.map_cons]
      rcases gpgsvField_text p cx slx store gpsx with ⟨hrun, hmiss⟩ | ⟨hfound, h⟩
      · rw [hrun, List.takeWhile_cons_of_neg (by simpa using hmiss)]
        exact Or.inl ⟨⟨gpsx, rfl⟩, by simp⟩
      · rw [List.takeWhile_cons_of_pos (by simpa using hfound)]
        simp only [List.forall_mem_cons, List.length_cons, Nat.add_right_cancel_iff]
        rcases h with ⟨⟨gpsx', hrun⟩, hok⟩ | ⟨hrun, hbad⟩
        · rw [hrun]
          refine (ih gpsx').imp ?_ ?_
          · exact fun hr => ⟨hr.1, hok, hr.2⟩
          · exact fun hr => ⟨hr.1, fun hall => hr.2 hall.2⟩
        · rw [hrun]
          exact Or.inr ⟨rfl, fun hall => hbad hall.1⟩

/-- The fields of satellite `j` that are read. -/
def satelliteRead (p : Bytes) (j : UInt8) : List UInt8 :=
  (satelliteFields j).takeWhile (FieldFound p ·)

/-- **One satellite.** -/
theorem gpgsvSatellite_text (p : Bytes) (j slx : UInt8) (gpsx : NmeaMsg) :
    ((∃ gpsx', gpgsvSatellite (p ++ [0]) j slx gpsx
          = some (gpsx', decide ((satelliteRead p j).length = 4))) ∧
        ∀ cx ∈ satelliteRead p j, FieldEnds p cx ∧ slx.toNat < 12) ∨
      (gpgsvSatellite (p ++ [0]) j slx gpsx = none ∧
        ¬ ∀ cx ∈ satelliteRead p j, FieldEnds p cx ∧ slx.toNat < 12) := by
  rw [gpgsvSatellite_eq]
  exact readFields_text p slx _ gpsx

/-- The fields that are read from satellite `j` on. -/
theorem fieldsRead_succ (p : Bytes) (n : Nat) (j : UInt8) :
    fieldsRead p (n + 1) j = if (satelliteRead p j).length = 4
      then satelliteRead p j ++ fieldsRead p n (j + 1) else satelliteRead p j := by
  rw [fieldsRead, satellitesFields, List.takeWhile_append]
  show (if (satelliteRead p j).length = 4 then satelliteFields j ++ fieldsRead p n (j + 1)
    else satelliteRead p j) = _
  by_cases hall : (satelliteRead p j).length = 4
  · have hread : satelliteRead p j = satelliteFields j :=
      (List.takeWhile_prefix _).eq_of_length hall
    rw [if_pos hall, if_pos hall, hread]
  · rw [if_neg hall, if_neg hall]

/-- A sentence whose fields are read from entry `stored` on: each of them ends, and the entries
are in the table. -/
def SentenceFits (p : Bytes) (read : List UInt8) (stored : Nat) : Prop :=
  (∀ cx ∈ read, FieldEnds p cx) ∧ stored + (read.length + 3) / 4 ≤ 12

/-- At most one satellite: its fields need one entry, if there are any. -/
theorem sentenceFits_iff_of_le {p : Bytes} {read : List UInt8} {stored : Nat}
    (hlen : read.length ≤ 4) (hstored : stored ≤ 12) :
    SentenceFits p read stored ↔ ∀ cx ∈ read, FieldEnds p cx ∧ stored < 12 := by
  constructor
  · rintro ⟨hends, hfits⟩ cx hcx
    have hpos := List.length_pos_of_mem hcx
    exact ⟨hends cx hcx, by omega⟩
  · intro h
    refine ⟨fun cx hcx => (h cx hcx).1, ?_⟩
    by_cases hempty : read = []
    · rw [hempty]
      exact hstored
    · obtain ⟨cx, hcx⟩ := List.exists_mem_of_ne_nil read hempty
      have hlt := (h cx hcx).2
      omega

/-- A whole satellite and the rest of the sentence, which starts with the next entry. -/
theorem sentenceFits_append {p : Bytes} {read rest : List UInt8} {stored : Nat}
    (hlen : read.length = 4) :
    SentenceFits p (read ++ rest) stored ↔
      (∀ cx ∈ read, FieldEnds p cx ∧ stored < 12) ∧ SentenceFits p rest (stored + 1) := by
  simp only [SentenceFits, List.forall_mem_append, List.length_append, hlen]
  constructor
  · rintro ⟨⟨hread, hrest⟩, hfits⟩
    exact ⟨fun cx hcx => ⟨hread cx hcx, by omega⟩, hrest, by omega⟩
  · rintro ⟨hread, hrest, hfits⟩
    exact ⟨⟨fun cx hcx => (hread cx hcx).1, hrest⟩, by omega⟩

/-- **The satellites of a sentence**: the index moves on for each whole one. -/
theorem gpgsvSatellites_text (p : Bytes) (n : Nat) (j slx : UInt8) (hslx : slx.toNat ≤ 12)
    (gpsx : NmeaMsg) :
    ((∃ gpsx' slx', gpgsvSatellites (p ++ [0]) n j slx gpsx = some (gpsx', slx') ∧
          slx'.toNat = slx.toNat + (fieldsRead p n j).length / 4) ∧
        SentenceFits p (fieldsRead p n j) slx.toNat) ∨
      (gpgsvSatellites (p ++ [0]) n j slx gpsx = none ∧
        ¬ SentenceFits p (fieldsRead p n j) slx.toNat) := by
  induction n generalizing j slx gpsx with
  | zero =>
      rw [show fieldsRead p 0 j = [] from rfl]
      exact Or.inl ⟨⟨gpsx, slx, rfl, rfl⟩, by simp, hslx⟩
  | succ n ih =>
      have hle : (satelliteRead p j).length ≤ 4 := (List.takeWhile_prefix _).length_le
      have hone := gpgsvSatellite_text p j slx gpsx
      rw [gpgsvSatellites, fieldsRead_succ]
      generalize satelliteRead p j = read at hle hone ⊢
      by_cases hall : read.length = 4
      · rw [if_pos hall, sentenceFits_append hall, List.length_append, hall]
        rcases hone with ⟨⟨gpsx', hrun⟩, hgood⟩ | ⟨hrun, hbad⟩
        · -- A whole satellite: the rest of the sentence starts with the next entry.
          obtain ⟨cx, hcx⟩ := List.exists_mem_of_length_pos (show 0 < read.length by omega)
          have hlt := (hgood cx hcx).2
          have hsucc : (slx + 1).toNat = slx.toNat + 1 := by
            rw [UInt8.toNat_add]
            exact Nat.mod_eq_of_lt (show slx.toNat + 1 < 256 by omega)
          rw [hrun, Option.bind_eq_bind, Option.bind_some]
          simp only [hall, decide_true, if_true]
          rw [← hsucc]
          rcases ih (j + 1) (slx + 1) (by omega) gpsx' with
            ⟨⟨g, slx', hrest, hto⟩, hfits⟩ | ⟨hrest, hbad⟩
          · exact Or.inl ⟨⟨g, slx', hrest, by omega⟩, hgood, hfits⟩
          · exact Or.inr ⟨hrest, fun h => hbad h.2⟩
        · rw [hrun]
          exact Or.inr ⟨rfl, fun h => hbad h.1⟩
      · rw [if_neg hall, sentenceFits_iff_of_le hle hslx]
        rcases hone with ⟨⟨gpsx', hrun⟩, hgood⟩ | ⟨hrun, hbad⟩
        · -- The loop breaks, and the index stays.
          rw [hrun, Option.bind_eq_bind, Option.bind_some]
          simp only [hall, decide_false, Bool.false_eq_true, if_false]
          exact Or.inl ⟨⟨gpsx', slx, rfl, by omega⟩, hgood⟩
        · rw [hrun]
          exact Or.inr ⟨rfl, hbad⟩

/-! ### The sentences of a text -/

/-- The fields that are read of the sentence at `p`. -/
def gsvFields (p : Bytes) : List UInt8 := fieldsRead p 4 0

/-- How many table entries the first `k` sentences fill. -/
def storedBefore (sentences : List Bytes) (k : Nat) : Nat :=
  ((sentences.take k).map fun p => (gsvFields p).length / 4).sum

/-- The first `n` sentences are there and fit into the table behind `stored` entries. -/
def SentencesFit (n : Nat) (sentences : List Bytes) (stored : Nat) : Prop :=
  n ≤ sentences.length ∧ ∀ k p, k < n → sentences[k]? = some p →
    SentenceFits p (gsvFields p) (stored + storedBefore sentences k)

/-- The first sentence and the others. -/
theorem sentencesFit_cons (n : Nat) (p : Bytes) (sentences : List Bytes) (stored : Nat) :
    SentencesFit (n + 1) (p :: sentences) stored ↔ SentenceFits p (gsvFields p) stored ∧
      SentencesFit n sentences (stored + (gsvFields p).length / 4) := by
  have hnext : ∀ k, stored + storedBefore (p :: sentences) (k + 1)
      = stored + (gsvFields p).length / 4 + storedBefore sentences k := by
    intro k
    simp only [storedBefore, List.take_succ_cons, List.map_cons, List.sum_cons]
    omega
  constructor
  · rintro ⟨hlen, hfit⟩
    refine ⟨?_, by simpa using hlen, ?_⟩
    · simpa [storedBefore] using hfit 0 p (Nat.succ_pos n) rfl
    · intro k q hk hq
      rw [← hnext]
      exact hfit (k + 1) q (by omega) hq
  · rintro ⟨hfirst, hlen, hrest⟩
    refine ⟨by simpa using hlen, ?_⟩
    rintro (_ | k) q hk hq
    · cases hq
      simpa [storedBefore] using hfirst
    · rw [hnext]
      exact hrest k q (by omega) hq

/-- **The sentences of a text.** -/
theorem gpgsvSentences_text (n : Nat) (text : Bytes) (h0 : (0 : UInt8) ∉ text) (slx : UInt8)
    (hslx : slx.toNat ≤ 12) (gpsx : NmeaMsg) :
    (gpgsvSentences n (text ++ [0]) slx gpsx).isSome
      ↔ SentencesFit n (places (ascii "$GPGSV") text) slx.toNat := by
  induction n generalizing text slx gpsx with
  | zero =>
      refine iff_of_true rfl ⟨Nat.zero_le _, ?_⟩
      intro k p hk
      omega
  | succ n ih =>
      rw [gpgsvSentences]
      rcases strstr_places (show ascii "$GPGSV" ≠ [] by decide) (by decide) h0 with
        ⟨hnone, hplaces⟩ | ⟨place, hfound, hne, hsuf, hplaces⟩
      · -- no sentence is left, and the null pointer is handed on
        rw [hnone, hplaces]
        exact iff_of_false Bool.false_ne_true fun h => Nat.not_succ_le_zero n h.1
      · rw [hfound, hplaces, sentencesFit_cons]
        simp only [Option.bind_eq_bind, Option.bind_some]
        rcases gpgsvSatellites_text place 4 0 slx hslx gpsx with
          ⟨⟨gpsx', slx', hrun, hto⟩, hfits⟩ | ⟨hrun, hbad⟩
        · have hle : slx'.toNat ≤ 12 := by
            have := hfits.2
            omega
          have h0' : (0 : UInt8) ∉ place.drop 1 := fun hm =>
            h0 (hsuf.subset (List.mem_of_mem_drop hm))
          have hdrop : (place ++ [0]).drop 1 = place.drop 1 ++ [0] :=
            List.drop_append_of_le_length (List.length_pos_iff.mpr hne)
          rw [hrun]
          simp only [Option.bind_some, hdrop]
          rw [ih _ h0' slx' hle gpsx', hto]
          exact (and_iff_right hfits).symm
        · rw [hrun]
          exact iff_of_false Bool.false_ne_true fun h => hbad h.1

/-! ### One call -/

/-- A text with the tag in it. -/
structure GsvText where
  text : Bytes
  no_nul : (0 : UInt8) ∉ text
  tagged : ascii "$GPGSV" <:+: text

namespace GsvText

/-- The sentences, each up to the end of the text. -/
def sentences (t : GsvText) : List Bytes := places (ascii "$GPGSV") t.text

/-- The first sentence. -/
def first (t : GsvText) : Bytes := t.sentences.headD []

/-- The number of sentences that the first one announces: the byte behind its comma, less
`'0'`. -/
def announced (t : GsvText) : Nat := (((t.first ++ [0])[7]?).getD 0 - 48).toNat

/-- The text is safe. -/
structure Safe (t : GsvText) : Prop where
  /-- the text goes on behind the first tag -/
  goesOn : 6 < t.first.length
  /-- the number of satellites ends -/
  total : FieldEnds t.first 3
  fits : SentencesFit t.announced t.sentences 0

/-- The first sentence is what `strstr` finds. -/
theorem strstr_first (t : GsvText) :
    strstr (ascii "$GPGSV") (t.text ++ [0]) = some (t.first ++ [0]) := by
  rcases strstr_places (show ascii "$GPGSV" ≠ [] by decide) (by decide) t.no_nul with
    ⟨hnone, -⟩ | ⟨place, hfound, -, -, hplaces⟩
  · obtain ⟨pre, post, htext⟩ := t.tagged
    have h0 : (0 : UInt8) ∉ pre := fun hm => t.no_nul (by simp [← htext, hm])
    have hsome := strstr_isSome h0 (ascii "$GPGSV") (post ++ [0])
    rw [← List.append_assoc, ← List.append_assoc, htext, hnone] at hsome
    cases hsome
  · rw [hfound, first, sentences, hplaces]
    rfl

end GsvText

/-- **Which texts are safe.** -/
theorem gsvSafe_iff (t : GsvText) (gpsx : NmeaMsg) :
    (nmeaGpgsvAnalysis gpsx (t.text ++ [0])).isSome ↔ t.Safe := by
  have hfits := fun g => gpgsvSentences_text t.announced t.text t.no_nul 0 (by decide) g
  rw [nmeaGpgsvAnalysis, t.strstr_first, Option.bind_eq_bind, Option.bind_some]
  cases hseven : (t.first ++ [0])[7]? with
  | none =>
      -- The text ends right behind the tag.
      refine iff_of_false Bool.false_ne_true fun h => ?_
      have := h.goesOn
      rw [List.getElem?_eq_none_iff, List.length_append, List.length_singleton] at hseven
      omega
  | some b =>
      have hgoes : 6 < t.first.length := by
        have := (List.getElem?_eq_some_iff.mp hseven).1
        rw [List.length_append, List.length_singleton] at this
        omega
      have hannounced : (b - 48).toNat = t.announced := by
        rw [GsvText.announced, hseven]
        rfl
      have hfeed := feed_text_isSome t.first 3 gpsx
        fun v => { gpsx with svnum := v.1.toUInt32.toUInt8 }
      simp only [Option.bind_eq_bind, Option.bind_some, hannounced]
      show ((feed (t.first ++ [0]) 3 gpsx
        fun v => { gpsx with svnum := v.1.toUInt32.toUInt8 }).bind _).isSome ↔ _
      generalize (feed (t.first ++ [0]) 3 gpsx
        fun v => { gpsx with svnum := v.1.toUInt32.toUInt8 }) = fed at hfeed ⊢
      cases fed with
      | none =>
          exact iff_of_false Bool.false_ne_true fun h =>
            absurd (hfeed.mpr h.total) Bool.false_ne_true
      | some g =>
          rw [Option.bind_some, hfits g]
          exact ⟨fun h => ⟨hgoes, hfeed.mp rfl, h⟩, fun h => h.fits⟩

/-- A line that announces two sentences and has one. -/
def gsvTextOfTwo : GsvText where
  text := ascii "$GPGSV,2,1,05,01,40,083,46*43\r\n"
  no_nul := by decide
  tagged := by decide

/-- The search for the second sentence fails, and the null pointer is handed on. -/
theorem not_gsvSafe_two : nmeaGpgsvAnalysis gpsData (gsvTextOfTwo.text ++ [0]) = none := by
  decide +kernel

end CarLocator.Gps
