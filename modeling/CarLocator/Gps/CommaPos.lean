import CarLocator.Gps.Nmea

/-!
# `CarLocator.Gps.CommaPos`: `NMEA_Comma_Pos` and its contract

The comment on `NMEA_Comma_Pos` promises an offset from 0 to `0XFE`, or `0XFF` for a comma that
does not exist. The loop keeps the rest of the promise on any buffer: it stops at the first
`'*'`, control byte or byte above `'z'` (`visible` is what is in front of it), finds the comma
if it is there (`nmeaCommaPosLoop_found`), and says that it is missing otherwise
(`nmeaCommaPosLoop_gone`). Neither depends on what is behind the stop.

The offset is narrowed to 8 bits at the end, so the contract holds exactly where the field
starts within the first 254 bytes (`commaPosContract_iff`).
-/

set_option autoImplicit false

namespace CarLocator.Gps

open CarLocator.Library

/-! ### The contract -/

/-- The bytes at which `NMEA_Comma_Pos` gives up. -/
def IsLineStop (b : UInt8) : Prop := b = 42 ∨ b < 32 ∨ b > 122

instance (b : UInt8) : Decidable (IsLineStop b) :=
  inferInstanceAs (Decidable (b = 42 ∨ b < 32 ∨ b > 122))

/-- The bytes in front of the first stop. -/
def visible (buf : Bytes) : Bytes := buf.takeWhile fun b => ¬ IsLineStop b

/-- Behind the first `off` bytes of the text is the place just after its comma number `cx`. -/
def IsFieldStart (text : Bytes) (cx off : Nat) : Prop :=
  ∃ pre post, text = pre ++ 44 :: post ∧ pre.count 44 + 1 = cx ∧ pre.length + 1 = off

/-- What is promised of `NMEA_Comma_Pos`. -/
structure CommaPosContract (buf : Bytes) (cx : UInt8) : Prop where
  found : ∀ off, IsFieldStart (visible buf) cx.toNat off →
    ∃ posx, nmeaCommaPos buf cx = some posx ∧ posx.toNat = off ∧ posx ≠ 0xFF
  missing : (∀ off, ¬ IsFieldStart (visible buf) cx.toNat off) →
    nmeaCommaPos buf cx = some 0xFF
  -- with the memory cut off behind the first stop, nothing is missed
  unread : (nmeaCommaPos (buf.take ((visible buf).length + 1)) cx).isSome
    ∧ nmeaCommaPos (buf.take ((visible buf).length + 1)) cx = nmeaCommaPos buf cx

/-! ### The loop -/

/-- A comma is no stop. -/
theorem nmeaCommaPosLoop_step {b : UInt8} (hb : ¬ IsLineStop b) (p : Bytes) (cx off : Nat) :
    nmeaCommaPosLoop (b :: p) (cx + 1) off
      = nmeaCommaPosLoop p (if b = 44 then cx else cx + 1) (off + 1) := by
  have hstop : ¬ (b = 42 ∨ b < 32 ∨ b > 122) := hb
  rw [nmeaCommaPosLoop, if_neg hstop]
  split
  · rfl
  · rfl

/-- **The comma is found**, whatever is behind it. -/
theorem nmeaCommaPosLoop_found {pre : Bytes} (hpre : ∀ b ∈ pre, ¬ IsLineStop b) (p : Bytes)
    (off : Nat) :
    nmeaCommaPosLoop (pre ++ 44 :: p) (pre.count 44 + 1) off
      = some (UInt8.ofNat (off + (pre.length + 1))) := by
  induction pre generalizing off with
  | nil =>
      rw [List.nil_append, nmeaCommaPosLoop_step (by decide), if_pos rfl]
      cases p <;> rfl
  | cons b pre ih =>
      have hb := hpre b (by simp)
      have hrest := ih (fun c hc => hpre c (by simp [hc])) (off + 1)
      have hlength : off + 1 + (pre.length + 1) = off + ((b :: pre).length + 1) := by
        rw [List.length_cons]
        omega
      rw [hlength] at hrest
      rw [List.cons_append, nmeaCommaPosLoop_step hb]
      by_cases hcomma : b = 44
      · rw [if_pos hcomma, hcomma, List.count_cons_self]
        rw [hcomma] at hrest
        exact hrest
      · rw [if_neg hcomma, List.count_cons_of_ne hcomma]
        exact hrest

/-- **A comma is missing** when the stop comes first. -/
theorem nmeaCommaPosLoop_gone {text : Bytes} (htext : ∀ b ∈ text, ¬ IsLineStop b) {c : UInt8}
    (hc : IsLineStop c) (rest : Bytes) {cx : Nat} (hcx : text.count 44 < cx) (off : Nat) :
    nmeaCommaPosLoop (text ++ c :: rest) cx off = some 0xFF := by
  induction text generalizing cx off with
  | nil =>
      obtain ⟨cx, rfl⟩ := Nat.exists_eq_add_of_lt hcx
      have hstop : c = 42 ∨ c < 32 ∨ c > 122 := hc
      rw [List.nil_append, nmeaCommaPosLoop, if_pos hstop]
  | cons b text ih =>
      obtain ⟨k, rfl⟩ : ∃ k, cx = k + 1 := ⟨cx - 1, by omega⟩
      have hb := htext b (by simp)
      have hrest : ∀ c ∈ text, ¬ IsLineStop c := fun c hc => htext c (by simp [hc])
      rw [List.cons_append, nmeaCommaPosLoop_step hb]
      by_cases hcomma : b = 44
      · rw [hcomma, List.count_cons_self] at hcx
        rw [if_pos hcomma]
        exact ih hrest (Nat.lt_of_succ_lt_succ hcx) (off + 1)
      · rw [List.count_cons_of_ne hcomma] at hcx
        rw [if_neg hcomma]
        exact ih hrest hcx (off + 1)

/-! ### The buffer -/

/-- No byte in front of the first stop is one. -/
theorem not_isLineStop_of_mem_visible {buf : Bytes} {b : UInt8} (h : b ∈ visible buf) :
    ¬ IsLineStop b := by
  have := List.mem_takeWhile_imp h
  simpa using this

/-- The text in front of the first stop is found again. -/
theorem visible_append {text : Bytes} (htext : ∀ b ∈ text, ¬ IsLineStop b) {c : UInt8}
    (hc : IsLineStop c) (rest : Bytes) : visible (text ++ c :: rest) = text := by
  rw [visible, List.takeWhile_append_of_pos (fun b hb => by simpa using htext b hb),
    List.takeWhile_cons_of_neg (by simpa using hc), List.append_nil]

/-- A buffer with a NUL has a first stop. -/
theorem exists_stop {buf : Bytes} (h0 : (0 : UInt8) ∈ buf) :
    ∃ c rest, buf = visible buf ++ c :: rest ∧ IsLineStop c := by
  obtain ⟨c, rest, hbuf, hc⟩ := exists_takeWhile_append_cons
    (p := fun b => decide (¬ IsLineStop b)) h0 (by decide)
  exact ⟨c, rest, hbuf, by simpa using hc⟩

/-- A comma that is counted is somewhere. -/
theorem exists_isFieldStart {text : Bytes} {cx : Nat} (hpos : 0 < cx)
    (hle : cx ≤ text.count 44) : ∃ off, IsFieldStart text cx off := by
  induction text generalizing cx with
  | nil =>
      rw [List.count_nil] at hle
      omega
  | cons b text ih =>
      by_cases hcomma : b = 44
      · by_cases hone : cx = 1
        · exact ⟨1, [], text, by rw [hcomma, List.nil_append], hone.symm, rfl⟩
        · rw [hcomma, List.count_cons_self] at hle
          obtain ⟨off, pre, post, htext, hcount, -⟩ := ih (show 0 < cx - 1 by omega) (by omega)
          refine ⟨_, b :: pre, post, by rw [htext, List.cons_append], ?_, rfl⟩
          rw [hcomma, List.count_cons_self]
          omega
      · rw [List.count_cons_of_ne hcomma] at hle
        obtain ⟨off, pre, post, htext, hcount, -⟩ := ih hpos hle
        refine ⟨_, b :: pre, post, by rw [htext, List.cons_append], ?_, rfl⟩
        rw [List.count_cons_of_ne hcomma]
        exact hcount

section Buffer

variable {buf : Bytes} {cx : UInt8}

/-- The comma is found at its offset modulo 256. -/
theorem nmeaCommaPos_isFieldStart {off : Nat} (h : IsFieldStart (visible buf) cx.toNat off)
    (p : Bytes) : nmeaCommaPos (visible buf ++ p) cx = some (UInt8.ofNat off) := by
  obtain ⟨pre, post, htext, hcount, hoff⟩ := h
  have hpre : ∀ b ∈ pre, ¬ IsLineStop b := by
    intro b hb
    have hmem : b ∈ visible buf := by
      rw [htext]
      exact List.mem_append_left _ hb
    exact not_isLineStop_of_mem_visible hmem
  have hfound := nmeaCommaPosLoop_found hpre (post ++ p) 0
  rw [hcount, hoff, Nat.zero_add] at hfound
  rw [nmeaCommaPos, htext, List.append_assoc, List.cons_append]
  exact hfound

/-- Or it is missing. -/
theorem nmeaCommaPos_gone (hpos : 0 < cx.toNat)
    (h : ∀ off, ¬ IsFieldStart (visible buf) cx.toNat off) {c : UInt8} (hc : IsLineStop c)
    (rest : Bytes) : nmeaCommaPos (visible buf ++ c :: rest) cx = some 0xFF := by
  have hcount : (visible buf).count 44 < cx.toNat := by
    by_contra hge
    obtain ⟨off, hoff⟩ := exists_isFieldStart hpos (Nat.le_of_not_lt hge)
    exact h off hoff
  exact nmeaCommaPosLoop_gone (fun b hb => not_isLineStop_of_mem_visible hb) hc rest hcount 0

variable (buf) in
/-- Nothing behind the first stop is read. -/
theorem nmeaCommaPos_unread (hpos : 0 < cx.toNat) {c : UInt8} (hc : IsLineStop c)
    (rest : Bytes) :
    (nmeaCommaPos (visible buf ++ [c]) cx).isSome
      ∧ nmeaCommaPos (visible buf ++ [c]) cx = nmeaCommaPos (visible buf ++ c :: rest) cx := by
  by_cases h : ∃ off, IsFieldStart (visible buf) cx.toNat off
  · obtain ⟨off, hoff⟩ := h
    rw [nmeaCommaPos_isFieldStart hoff, nmeaCommaPos_isFieldStart hoff]
    exact ⟨rfl, rfl⟩
  · have hnone : ∀ off, ¬ IsFieldStart (visible buf) cx.toNat off := not_exists.mp h
    rw [nmeaCommaPos_gone hpos hnone hc, nmeaCommaPos_gone hpos hnone hc]
    exact ⟨rfl, rfl⟩

/-- The offset is lost when it does not fit, and it is the mark of a missing comma when it is
255. -/
theorem CommaPosContract.lt {off : Nat} (h : CommaPosContract buf cx)
    (hoff : IsFieldStart (visible buf) cx.toNat off) : off < 255 := by
  obtain ⟨posx, -, htoNat, hne⟩ := h.found off hoff
  have hlt := posx.toNat_lt
  have hne' : posx.toNat ≠ 255 := fun heq => hne (UInt8.toNat_inj.mp heq)
  omega

end Buffer

/-- **`NMEA_Comma_Pos` keeps its contract** exactly where the field, if it is there, starts
behind 254 bytes at most. -/
theorem commaPosContract_iff {buf : Bytes} (h0 : (0 : UInt8) ∈ buf) {cx : UInt8}
    (hcx : 1 ≤ cx) :
    CommaPosContract buf cx ↔ ∀ off, IsFieldStart (visible buf) cx.toNat off → off < 255 := by
  have hpos : 0 < cx.toNat := UInt8.le_iff_toNat_le.mp hcx
  obtain ⟨c, rest, hbuf, hc⟩ := exists_stop h0
  constructor
  · intro h off hoff
    exact h.lt hoff
  · intro hfits
    constructor
    · intro off hoff
      have hlt := hfits off hoff
      have htoNat : (UInt8.ofNat off).toNat = off := by
        rw [UInt8.toNat_ofNat', Nat.mod_eq_of_lt (by omega)]
      refine ⟨UInt8.ofNat off, ?_, htoNat, ?_⟩
      · rw [hbuf]
        exact nmeaCommaPos_isFieldStart hoff (c :: rest)
      · intro heq
        rw [heq] at htoNat
        have h255 : 255 = off := htoNat
        omega
    · intro hnone
      rw [hbuf]
      exact nmeaCommaPos_gone hpos hnone hc rest
    · have hcut : buf.take ((visible buf).length + 1) = visible buf ++ [c] := by
        nth_rewrite 2 [hbuf]
        rw [List.take_append, List.take_of_length_le (by omega), Nat.add_sub_cancel_left]
        rfl
      have hunread := nmeaCommaPos_unread buf hpos hc rest
      rw [← hbuf] at hunread
      rw [hcut]
      exact hunread

/-- The seventh field of a speed sentence. -/
theorem commaPosContract_iff_speed :
    CommaPosContract (ascii "$GNVTG,,T,,M,12.3,N,22.8,K*" ++ [0]) 7
      ↔ ∀ off, IsFieldStart (visible (ascii "$GNVTG,,T,,M,12.3,N,22.8,K*" ++ [0]))
          (7 : UInt8).toNat off → off < 255 :=
  commaPosContract_iff (by decide) (by decide)

/-- A comma behind 254 bytes is reported as missing. -/
theorem commaPosContract_far :
    ¬ ∀ (buf : Bytes) (cx : UInt8), (0 : UInt8) ∈ buf → 1 ≤ cx → CommaPosContract buf cx := by
  intro h
  -- the tag and 248 letters
  obtain ⟨pre, hpre, hcount, hlength⟩ : ∃ pre : Bytes, (∀ b ∈ pre, ¬ IsLineStop b)
      ∧ pre.count 44 = 0 ∧ pre.length = 254 := by
    refine ⟨ascii "$GNVTG" ++ List.replicate 248 65, ?_, ?_, ?_⟩
    · intro b hb
      rcases List.mem_append.mp hb with hb | hb
      · have htag : ∀ b ∈ ascii "$GNVTG", ¬ IsLineStop b := by decide
        exact htag b hb
      · rw [List.eq_of_mem_replicate hb]
        decide
    · rw [List.count_append, List.count_replicate]
      rfl
    · rw [List.length_append, List.length_replicate]
      rfl
  have htext : ∀ b ∈ pre ++ [44], ¬ IsLineStop b := by
    intro b hb
    rcases List.mem_append.mp hb with hb | hb
    · exact hpre b hb
    · rw [List.mem_singleton.mp hb]
      decide
  have hcontract := h ((pre ++ [44]) ++ 0 :: []) 1 (by simp) (by decide)
  have hstart : IsFieldStart (visible ((pre ++ [44]) ++ 0 :: [])) (1 : UInt8).toNat 255 := by
    rw [visible_append htext (by decide)]
    refine ⟨pre, [], rfl, ?_, ?_⟩
    · rw [hcount]
      rfl
    · rw [hlength]
  exact absurd (hcontract.lt hstart) (by decide)

end CarLocator.Gps
