import CarLocator.Gps.Nmea

/-!
# `CarLocator.Gps.Sentence`: one NMEA sentence in the buffer

A `Sentence` is a line `<tag>,f1,...,fn*hh\r\n` as a receiver sends it. Its invariants say
what the parser relies on: printable field bytes without the separators, no field that
spells another tag, and a length the 8-bit offsets of `NMEA_Comma_Pos` can hold.

Two facts carry everything that is proved about the analysis functions. The first is
`gpsAnalysis_sentence`: of the five `strstr` tests of `GPS_Analysis` only the one for the
tag of the sentence succeeds. The second is the pair `nmeaCommaPos_field` and
`nmeaCommaPos_missing`: field `k` is found where it stands, and a field beyond the last
one is reported missing.
-/

set_option autoImplicit false

namespace CarLocator.Gps

open CarLocator.Library

/-! ### Sentences -/

/-- The sentence types `GPS_Analysis` knows. -/
inductive Tag
  | gpgsv
  | gngga
  | gpgsa
  | gnrmc
  | gnvtg
  deriving DecidableEq, Repr

/-- The tag as it stands on the line. -/
def Tag.text : Tag → Bytes
  | .gpgsv => ascii "$GPGSV"
  | .gngga => ascii "$GNGGA"
  | .gpgsa => ascii "$GPGSA"
  | .gnrmc => ascii "$GNRMC"
  | .gnvtg => ascii "$GNVTG"

/-- What `GPS_Analysis` searches for. -/
def Tag.key : Tag → Bytes
  | .gpgsv => ascii "$GPGSV"
  | .gngga => ascii "$GNGGA"
  | .gpgsa => ascii "$GPGSA"
  | .gnrmc => ascii "GNRMC"
  | .gnvtg => ascii "$GNVTG"

/-- The analysis function `GPS_Analysis` calls for the tag. -/
def Tag.analysis (fl : Rounding) : Tag → NmeaMsg → Bytes → Option NmeaMsg
  | .gpgsv => nmeaGpgsvAnalysis
  | .gngga => nmeaGnggaAnalysis
  | .gpgsa => nmeaGpgsaAnalysis
  | .gnrmc => nmeaGnrmcAnalysis fl
  | .gnvtg => nmeaGnvtgAnalysis

/-- Each field behind its comma. -/
def fieldsText (fields : List Bytes) : Bytes := fields.flatMap (44 :: ·)

/-- The line `<tag>,f1,...,fn*hh\r\n`. -/
def lineText (tag : Tag) (fields : List Bytes) (checksum : Bytes) : Bytes :=
  tag.text ++ (fieldsText fields ++ 42 :: (checksum ++ [13, 10]))

/-- A byte of a field: between `' '` and `'z'`, and neither `','` nor `'*'` nor `'$'`. -/
def IsFieldByte (b : UInt8) : Prop := 32 ≤ b ∧ b ≤ 122 ∧ b ≠ 44 ∧ b ≠ 42 ∧ b ≠ 36

/-- A digit of the checksum. -/
def IsHexDigit (b : UInt8) : Prop := 48 ≤ b ∧ b ≤ 57 ∨ 65 ≤ b ∧ b ≤ 70 ∨ 97 ≤ b ∧ b ≤ 102

instance (b : UInt8) : Decidable (IsFieldByte b) :=
  inferInstanceAs (Decidable (32 ≤ b ∧ b ≤ 122 ∧ b ≠ 44 ∧ b ≠ 42 ∧ b ≠ 36))

instance (b : UInt8) : Decidable (IsHexDigit b) :=
  inferInstanceAs (Decidable (48 ≤ b ∧ b ≤ 57 ∨ 65 ≤ b ∧ b ≤ 70 ∨ 97 ≤ b ∧ b ≤ 102))

/-- A line that holds a single sentence. -/
structure Sentence where
  tag : Tag
  fields : List Bytes
  checksum : Bytes
  field_bytes : ∀ f ∈ fields, ∀ b ∈ f, IsFieldByte b
  -- the one tag that is searched for without its `'$'`
  no_gnrmc : ∀ f ∈ fields, ¬ ascii "GNRMC" <:+: f
  checksum_hex : ∀ b ∈ checksum, IsHexDigit b
  checksum_length : checksum.length = 2
  length_lt : (lineText tag fields checksum).length < 256

/-- The line. -/
def Sentence.text (s : Sentence) : Bytes := lineText s.tag s.fields s.checksum

/-- The fields are counted from 1. -/
def Sentence.field (s : Sentence) (k : Nat) : Option Bytes :=
  if k = 0 then none else s.fields[k - 1]?

/-- The buffer `GPS_Analysis` is called with: the line, its NUL, and what was in the
buffer before. -/
def Sentence.buffer (s : Sentence) (junk : Bytes) : Bytes := s.text ++ 0 :: junk

/-! ### Dispatch -/

/-- A text without separators that stands in the fields stands in one of them, in front of
them or behind them. -/
theorem infix_fieldsText {pat : Bytes} (hcomma : (44 : UInt8) ∉ pat)
    (hstar : (42 : UInt8) ∉ pat) (fields : List Bytes) (pre rest : Bytes)
    (h : pat <:+: pre ++ (fieldsText fields ++ 42 :: rest)) :
    pat <:+: pre ∨ (∃ f ∈ fields, pat <:+: f) ∨ pat <:+: rest := by
  induction fields generalizing pre with
  | nil =>
      rcases infix_append_cons hstar h with h | h
      · exact Or.inl h
      · exact Or.inr (Or.inr h)
  | cons f fields ih =>
      have hsplit : pre ++ (fieldsText (f :: fields) ++ 42 :: rest)
          = pre ++ 44 :: (f ++ (fieldsText fields ++ 42 :: rest)) := by
        simp [fieldsText]
      rw [hsplit] at h
      rcases infix_append_cons hcomma h with h | h
      · exact Or.inl h
      · rcases ih f h with h | ⟨g, hg, h⟩ | h
        · exact Or.inr (Or.inl ⟨f, by simp, h⟩)
        · exact Or.inr (Or.inl ⟨g, by simp [hg], h⟩)
        · exact Or.inr (Or.inr h)

/-- The line has no NUL. -/
theorem Sentence.zero_notMem (s : Sentence) : (0 : UInt8) ∉ s.text := by
  intro h
  simp only [Sentence.text, lineText, fieldsText, List.mem_append, List.mem_cons,
    List.mem_flatMap] at h
  rcases h with h | ⟨f, hf, h | h⟩ | h | h | h
  · cases ht : s.tag <;> rw [ht] at h <;> exact absurd h (by decide)
  · exact absurd h (by decide)
  · exact absurd (s.field_bytes f hf 0 h) (by decide)
  · exact absurd h (by decide)
  · exact absurd (s.checksum_hex 0 h) (by decide)
  · simp at h

/-- No other key stands on the line. -/
theorem Sentence.key_not_infix (s : Sentence) {t : Tag} (ht : t ≠ s.tag) :
    ¬ t.key <:+: s.text := by
  intro h
  have hcomma : (44 : UInt8) ∉ t.key := by cases t <;> decide
  have hstar : (42 : UInt8) ∉ t.key := by cases t <;> decide
  -- Every key starts with a byte that neither the fields nor the checksum have, except
  -- for `GNRMC` in the fields.
  rcases infix_fieldsText hcomma hstar s.fields s.tag.text _ h with h | ⟨f, hf, h⟩ | h
  · have hother : ∀ a b : Tag, a ≠ b → ¬ a.key <:+: b.text := by
      intro a b
      cases a <;> cases b <;> decide
    exact hother t s.tag ht h
  · have hdollar : t ≠ .gnrmc → (36 : UInt8) ∈ t.key := by cases t <;> decide
    by_cases hg : t = .gnrmc
    · subst hg
      exact s.no_gnrmc f hf h
    · exact absurd (s.field_bytes f hf 36 (h.subset (hdollar hg))) (by decide)
  · have hG : (71 : UInt8) ∈ t.key := by cases t <;> decide
    rcases List.mem_append.mp (h.subset hG) with hG | hG
    · exact absurd (s.checksum_hex 71 hG) (by decide)
    · exact absurd hG (by decide)

/-- The search for another tag finds nothing. -/
theorem Sentence.strstr_other (s : Sentence) {t : Tag} (ht : t ≠ s.tag) (junk : Bytes) :
    strstr t.key (s.buffer junk) = none := by
  refine strstr_eq_none ?_ ?_ s.zero_notMem (s.key_not_infix ht) junk
  · cases t <;> decide
  · cases t <;> decide

/-- The line behind its tag. -/
def Sentence.behindTag (s : Sentence) (junk : Bytes) : Bytes :=
  fieldsText s.fields ++ 42 :: (s.checksum ++ 13 :: 10 :: 0 :: junk)

/-- The buffer in its parts. -/
theorem Sentence.buffer_eq (s : Sentence) (junk : Bytes) :
    s.buffer junk = s.tag.text ++ s.behindTag junk := by
  simp [Sentence.buffer, Sentence.text, lineText, Sentence.behindTag]

/-- The pointer the analysis function parses from: the start of the line, or the byte
behind the `'$'` for `GNRMC`. -/
def Sentence.start (s : Sentence) (junk : Bytes) : Bytes := s.tag.key ++ s.behindTag junk

/-- The search for the own tag finds it. -/
theorem Sentence.strstr_self (s : Sentence) (junk : Bytes) :
    strstr s.tag.key (s.buffer junk) = some (s.start junk) := by
  rw [s.buffer_eq, Sentence.start]
  by_cases hg : s.tag = .gnrmc
  · rw [hg]
    have hskip : ¬ ascii "GNRMC" <+: 36 :: (ascii "GNRMC" ++ s.behindTag junk) := by
      intro h
      exact absurd (List.cons_prefix_cons.mp h).1 (by decide)
    have htext : Tag.gnrmc.text = 36 :: ascii "GNRMC" := by decide
    rw [htext, List.cons_append]
    show strstr (ascii "GNRMC") _ = _
    rw [strstr_cons hskip (by decide), Library.strstr_self]
    rfl
  · have htext : s.tag.text = s.tag.key := by
      revert hg
      cases s.tag <;> decide
    rw [htext, Library.strstr_self]

/-- And so does the search of its analysis function. -/
theorem Sentence.strstr_of_tag (s : Sentence) {t : Tag} (htag : s.tag = t) (junk : Bytes) :
    strstr t.key (s.buffer junk) = some (s.start junk) := by
  rw [← htag, s.strstr_self]

/-- A test of `GPS_Analysis` succeeds for the own tag only. -/
theorem Sentence.strstr_isSome_iff (s : Sentence) (t : Tag) (junk : Bytes) :
    (strstr t.key (s.buffer junk)).isSome ↔ t = s.tag := by
  by_cases ht : t = s.tag
  · rw [ht, s.strstr_self]
    exact iff_of_true rfl rfl
  · rw [s.strstr_other ht]
    exact iff_of_false Bool.false_ne_true ht

/-- One test of `GPS_Analysis` against a single sentence. -/
theorem whenTagged_sentence (s : Sentence) (t : Tag) (junk : Bytes)
    (analysis : NmeaMsg → Bytes → Option NmeaMsg) (gpsx : NmeaMsg) :
    whenTagged t.key (s.buffer junk) analysis gpsx
      = if t = s.tag then analysis gpsx (s.buffer junk) else some gpsx :=
  if_congr (s.strstr_isSome_iff t junk) rfl rfl

/-- **Dispatch.** `GPS_Analysis` runs the analysis function of the tag, and no other. -/
theorem gpsAnalysis_sentence (fl : Rounding) (gpsx : NmeaMsg) (s : Sentence)
    (junk : Bytes) :
    gpsAnalysis fl gpsx (s.buffer junk) = s.tag.analysis fl gpsx (s.buffer junk) := by
  have h := fun t => whenTagged_sentence s t junk
  simp only [Tag.key] at h
  unfold gpsAnalysis
  rw [h .gpgsv]
  cases htag : s.tag <;>
    simp [Tag.analysis, htag, h .gngga, h .gpgsa, h .gnrmc, h .gnvtg]

/-! ### Fields -/

/-- The loop passes a text without separators. -/
theorem nmeaCommaPosLoop_append (l : Bytes) (hl : ∀ b ∈ l, IsFieldByte b) (buf : Bytes)
    (cx off : Nat) :
    nmeaCommaPosLoop (l ++ buf) (cx + 1) off
      = nmeaCommaPosLoop buf (cx + 1) (off + l.length) := by
  induction l generalizing off with
  | nil => rfl
  | cons b l ih =>
      obtain ⟨hlo, hhi, hcomma, hstar, -⟩ := hl b (by simp)
      have hstop : ¬ (b = 42 ∨ b < 32 ∨ b > 122) := by
        rw [gt_iff_lt, ← UInt8.not_le, ← UInt8.not_le]
        tauto
      rw [List.cons_append, nmeaCommaPosLoop, if_neg hstop, if_neg hcomma,
        ih (fun b hb => hl b (by simp [hb])), List.length_cons]
      congr 1
      omega

/-- The loop passes a comma. -/
theorem nmeaCommaPosLoop_comma (buf : Bytes) (cx off : Nat) :
    nmeaCommaPosLoop (44 :: buf) (cx + 1) off = nmeaCommaPosLoop buf cx (off + 1) := by
  rw [nmeaCommaPosLoop, if_neg (by decide), if_pos rfl]

/-- The loop stops at the `'*'`. -/
theorem nmeaCommaPosLoop_star (buf : Bytes) (cx off : Nat) :
    nmeaCommaPosLoop (42 :: buf) (cx + 1) off = some 0xFF := by
  rw [nmeaCommaPosLoop, if_pos (Or.inl rfl)]

/-- What stands behind field `k` of `n`: a star behind the last one, a comma behind the
others. -/
def endByte (n k : Nat) : UInt8 := if k = n then 42 else 44

/-- Both end a number. -/
theorem endByte_cases (n k : Nat) : endByte n k = 44 ∨ endByte n k = 42 := by
  unfold endByte
  split
  · exact Or.inr rfl
  · exact Or.inl rfl

/-- The byte behind a field and before the ones in `fields`. -/
theorem fieldsText_head (fields : List Bytes) (rest : Bytes) :
    ∃ tail, fieldsText fields ++ 42 :: rest = endByte (fields.length + 1) 1 :: tail := by
  cases fields with
  | nil => exact ⟨rest, rfl⟩
  | cons f fields => exact ⟨f ++ (fieldsText fields ++ 42 :: rest), by simp [fieldsText, endByte]⟩

/-- The loop over the fields finds field `k`, counted from 0, and the pointer it stands
for. -/
theorem nmeaCommaPosLoop_field (fields : List Bytes)
    (hbytes : ∀ f ∈ fields, ∀ b ∈ f, IsFieldByte b) (rest : Bytes) {k : Nat} {f : Bytes}
    (hf : fields[k]? = some f) (off : Nat) :
    ∃ n tail, nmeaCommaPosLoop (fieldsText fields ++ 42 :: rest) (k + 1) off
        = some (UInt8.ofNat (off + n))
      ∧ n ≤ (fieldsText fields).length
      ∧ (fieldsText fields ++ 42 :: rest).drop n
        = f ++ endByte fields.length (k + 1) :: tail := by
  induction fields generalizing k off with
  | nil => simp at hf
  | cons g fields ih =>
      have hbuf : fieldsText (g :: fields) ++ 42 :: rest
          = 44 :: (g ++ (fieldsText fields ++ 42 :: rest)) := by
        simp [fieldsText]
      have hlen : (fieldsText (g :: fields)).length
          = 1 + g.length + (fieldsText fields).length := by
        simp [fieldsText]
        omega
      rw [hbuf, nmeaCommaPosLoop_comma, hlen]
      cases k with
      | zero =>
          obtain rfl : g = f := by simpa using hf
          obtain ⟨tail, htail⟩ := fieldsText_head fields rest
          refine ⟨1, tail, ?_, by omega, ?_⟩
          · rw [nmeaCommaPosLoop]
          · rw [htail, List.drop_succ_cons, List.drop_zero, List.length_cons]
      | succ k =>
          obtain ⟨n, tail, hpos, hn, hdrop⟩ :=
            ih (fun f hf => hbytes f (by simp [hf])) (by simpa using hf) (off + 1 + g.length)
          have hend : endByte (g :: fields).length (k + 1 + 1)
              = endByte fields.length (k + 1) := by
            simp [endByte]
          refine ⟨1 + g.length + n, tail, ?_, by omega, ?_⟩
          · rw [nmeaCommaPosLoop_append g (hbytes g (by simp)), hpos]
            congr 2
            omega
          · rw [Nat.add_assoc, Nat.add_comm, List.drop_succ_cons, ← List.drop_drop,
              List.drop_left, hdrop, hend]

/-- The loop runs into the `'*'` when there are too few fields. -/
theorem nmeaCommaPosLoop_missing (fields : List Bytes)
    (hbytes : ∀ f ∈ fields, ∀ b ∈ f, IsFieldByte b) (rest : Bytes) {k : Nat}
    (hk : fields.length ≤ k) (off : Nat) :
    nmeaCommaPosLoop (fieldsText fields ++ 42 :: rest) (k + 1) off = some 0xFF := by
  induction fields generalizing k off with
  | nil => exact nmeaCommaPosLoop_star rest k off
  | cons g fields ih =>
      have hbuf : fieldsText (g :: fields) ++ 42 :: rest
          = 44 :: (g ++ (fieldsText fields ++ 42 :: rest)) := by
        simp [fieldsText]
      cases k with
      | zero => simp at hk
      | succ k =>
          rw [hbuf, nmeaCommaPosLoop_comma,
            nmeaCommaPosLoop_append g (hbytes g (by simp))]
          exact ih (fun f hf => hbytes f (by simp [hf])) (by simpa using hk) _

/-- A key is passed like a field, except for its `'$'`. -/
theorem nmeaCommaPosLoop_key (t : Tag) (buf : Bytes) (cx off : Nat) :
    nmeaCommaPosLoop (t.key ++ buf) (cx + 1) off
      = nmeaCommaPosLoop buf (cx + 1) (off + t.key.length) := by
  have hdollar : nmeaCommaPosLoop (36 :: (t.key.drop 1 ++ buf)) (cx + 1) off
      = nmeaCommaPosLoop (t.key.drop 1 ++ buf) (cx + 1) (off + 1) := by
    rw [nmeaCommaPosLoop, if_neg (by decide), if_neg (by decide)]
  by_cases hg : t = .gnrmc
  · exact nmeaCommaPosLoop_append t.key (by rw [hg]; decide) buf cx off
  · have hkey : t.key = 36 :: t.key.drop 1 := by
      revert hg
      cases t <;> decide
    have hrest : ∀ b ∈ t.key.drop 1, IsFieldByte b := by cases t <;> decide
    rw [hkey, List.cons_append, hdollar, nmeaCommaPosLoop_append _ hrest, List.length_cons]
    congr 1
    omega

/-- **Field `k` is found**, and a `','` or a `'*'` ends it. -/
theorem nmeaCommaPos_field (s : Sentence) (junk : Bytes) {k : UInt8} {f : Bytes}
    (hf : s.field k.toNat = some f) :
    ∃ posx tail, nmeaCommaPos (s.start junk) k = some posx ∧ posx ≠ 0xFF
      ∧ (s.start junk).drop posx.toNat
        = f ++ endByte s.fields.length k.toNat :: tail := by
  have hk : k.toNat ≠ 0 := fun h0 => by simp [Sentence.field, h0] at hf
  rw [Sentence.field, if_neg hk] at hf
  obtain ⟨n, tail, hpos, hn, hdrop⟩ :=
    nmeaCommaPosLoop_field s.fields s.field_bytes (s.checksum ++ 13 :: 10 :: 0 :: junk) hf
      (0 + s.tag.key.length)
  -- The offset is less than the length of the line, so its 8 bits hold it.
  have hkey : s.tag.key.length ≤ s.tag.text.length := by cases s.tag <;> decide
  have hlen := s.length_lt
  simp only [lineText, List.length_append, List.length_cons] at hlen
  have hoff : (UInt8.ofNat (0 + s.tag.key.length + n)).toNat = s.tag.key.length + n := by
    rw [UInt8.toNat_ofNat', Nat.mod_eq_of_lt (by omega), Nat.zero_add]
  rw [Nat.sub_add_cancel (by omega)] at hpos hdrop
  refine ⟨UInt8.ofNat (0 + s.tag.key.length + n), tail, ?_, ?_, ?_⟩
  · rw [nmeaCommaPos, Sentence.start,
      show k.toNat = (k.toNat - 1) + 1 from by omega, nmeaCommaPosLoop_key,
      Nat.sub_add_cancel (by omega)]
    exact hpos
  · intro h
    rw [h] at hoff
    have h255 : (0xFF : UInt8).toNat = 255 := rfl
    omega
  · rw [hoff, Sentence.start, ← List.drop_drop, List.drop_left]
    exact hdrop

/-- **A missing field is reported.** -/
theorem nmeaCommaPos_missing (s : Sentence) (junk : Bytes) {k : UInt8}
    (hk : 0 < k.toNat) (hf : s.field k.toNat = none) :
    nmeaCommaPos (s.start junk) k = some 0xFF := by
  rw [Sentence.field, if_neg (by omega), List.getElem?_eq_none_iff] at hf
  rw [nmeaCommaPos, Sentence.start,
    show k.toNat = (k.toNat - 1) + 1 from by omega, nmeaCommaPosLoop_key]
  exact nmeaCommaPosLoop_missing s.fields s.field_bytes _ hf _

end CarLocator.Gps
