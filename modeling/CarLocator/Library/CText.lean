import Mathlib.Data.List.Infix
import Mathlib.Data.List.TakeWhile

/-!
# `CarLocator.Library.CText`: byte strings in memory

C code reads text through pointers. A pointer into a buffer is modelled by the bytes of
the buffer from there on, so `p + k` is `List.drop k` and a null pointer is `none`. A
read past the end of the list is a read outside the buffer. The text at a pointer ends at
the first NUL, which is a byte of the list like any other: `cString` is the text alone.

`strstr` finds the first place where a pattern stands in the text and returns the pointer
to it. Its rules are `strstr_self` (the pattern stands at the pointer itself),
`strstr_cons` (it does not, so the search goes on one byte further) and
`strstr_eq_none` (it stands nowhere in the text).
-/

set_option autoImplicit false

namespace CarLocator.Library

/-- Bytes in memory, from a pointer on. -/
abbrev Bytes := List UInt8

/-- A property of all bytes of a text is decided over the text, not over all 256 bytes. -/
instance decidableForallMem (text : Bytes) {P : UInt8 → Prop} [DecidablePred P] :
    Decidable (∀ b ∈ text, P b) :=
  List.decidableBAll P text

/-- The bytes of an ASCII string literal. -/
def ascii (s : String) : Bytes := s.toList.map Char.toUInt8

/-- The text at a pointer: the bytes before the first NUL. -/
def cString (mem : Bytes) : Bytes := mem.takeWhile (· ≠ 0)

/-- `strstr(mem, pat)`: the pointer to the first place of the text where `pat` stands. -/
def strstr (pat : Bytes) : Bytes → Option Bytes
  | [] => if pat = [] then some [] else none
  | b :: mem =>
    if pat <+: b :: mem then some (b :: mem)
    else if b = 0 then none
    else strstr pat mem

/-- A text with a byte that ends the scan of its beginning has a first one. -/
theorem exists_takeWhile_append_cons {p : UInt8 → Bool} {text : Bytes} {b : UInt8}
    (hb : b ∈ text) (hp : p b = false) :
    ∃ c rest, text = text.takeWhile p ++ c :: rest ∧ p c = false := by
  have hne : text.dropWhile p ≠ [] := by
    intro hnil
    have hall := List.dropWhile_eq_nil_iff.mp hnil b hb
    exact absurd (hp.symm.trans hall) Bool.false_ne_true
  obtain ⟨c, rest, hrest⟩ := List.exists_cons_of_ne_nil hne
  refine ⟨c, rest, ?_, ?_⟩
  · rw [← hrest]
    exact (List.takeWhile_append_dropWhile).symm
  · have hhead := List.head_dropWhile_not p hne
    simpa [hrest] using hhead

/-- The pattern stands at the pointer. -/
theorem strstr_self (pat post : Bytes) : strstr pat (pat ++ post) = some (pat ++ post) := by
  cases h : pat ++ post with
  | nil => simp_all [strstr]
  | cons b mem =>
      have hpre : pat <+: b :: mem := h ▸ List.prefix_append pat post
      rw [strstr, if_pos hpre]

/-- The pattern does not stand at the pointer, and the text goes on. -/
theorem strstr_cons {pat : Bytes} {b : UInt8} {mem : Bytes} (h : ¬ pat <+: b :: mem)
    (hb : b ≠ 0) : strstr pat (b :: mem) = strstr pat mem := by
  rw [strstr, if_neg h, if_neg hb]

/-- A pattern at the pointer ends before a byte it does not contain. -/
theorem prefix_of_prefix_append_cons {pat l r : Bytes} {c : UInt8} (hc : c ∉ pat)
    (h : pat <+: l ++ c :: r) : pat <+: l := by
  induction l generalizing pat with
  | nil =>
      cases pat with
      | nil => exact List.nil_prefix
      | cons d pat =>
          obtain ⟨rfl, -⟩ := List.cons_prefix_cons.mp h
          simp at hc
  | cons b l ih =>
      cases pat with
      | nil => exact List.nil_prefix
      | cons d pat =>
          obtain ⟨rfl, hrest⟩ := List.cons_prefix_cons.mp h
          exact List.cons_prefix_cons.mpr ⟨rfl, ih (fun hm => hc (by simp [hm])) hrest⟩

/-- A pattern that stands next to a byte it does not contain stands on one side of it. -/
theorem infix_append_cons {pat l r : Bytes} {c : UInt8} (hc : c ∉ pat)
    (h : pat <:+: l ++ c :: r) : pat <:+: l ∨ pat <:+: r := by
  induction l with
  | nil =>
      rcases List.infix_cons_iff.mp h with h | h
      · exact Or.inl (prefix_of_prefix_append_cons (l := []) hc h).isInfix
      · exact Or.inr h
  | cons b l ih =>
      rcases List.infix_cons_iff.mp h with h | h
      · exact Or.inl (prefix_of_prefix_append_cons (l := b :: l) hc h).isInfix
      · exact (ih h).imp List.infix_cons id

/-- A NUL-free pattern that stands nowhere in the text is not found. -/
theorem strstr_eq_none {pat txt : Bytes} (hpat : pat ≠ []) (h0 : (0 : UInt8) ∉ pat)
    (h0' : (0 : UInt8) ∉ txt) (h : ¬ pat <:+: txt) (post : Bytes) :
    strstr pat (txt ++ 0 :: post) = none := by
  induction txt with
  | nil =>
      have hpre : ¬ pat <+: 0 :: post := fun hpre =>
        hpat (List.prefix_nil.mp (prefix_of_prefix_append_cons (l := []) h0 hpre))
      rw [List.nil_append, strstr, if_neg hpre, if_pos rfl]
  | cons b txt ih =>
      have hb : b ≠ 0 := fun hb => h0' (by simp [hb])
      -- The pattern has no NUL, so where it stands it ends before the NUL of the text.
      have hpre : ¬ pat <+: b :: (txt ++ 0 :: post) := fun hpre =>
        h (prefix_of_prefix_append_cons (l := b :: txt) h0 hpre).isInfix
      rw [List.cons_append, strstr_cons hpre hb]
      exact ih (fun hm => h0' (by simp [hm])) fun hi => h (List.infix_cons hi)

/-- A single byte is found at its first place. -/
theorem strstr_singleton {c : UInt8} {txt : Bytes} (h0 : (0 : UInt8) ∉ txt) (hc : c ∉ txt)
    (post : Bytes) : strstr [c] (txt ++ c :: post) = some (c :: post) := by
  induction txt with
  | nil => exact strstr_self [c] post
  | cons b txt ih =>
      have hpre : ¬ [c] <+: b :: (txt ++ c :: post) := fun hpre =>
        hc (by simp [(List.cons_prefix_cons.mp hpre).1])
      have hb : b ≠ 0 := fun hb => h0 (by simp [hb])
      rw [List.cons_append, strstr_cons hpre hb]
      exact ih (fun hm => h0 (by simp [hm])) fun hm => hc (by simp [hm])

/-- The text of a part without NUL goes on behind it. -/
theorem cString_append {pre : Bytes} (h0 : (0 : UInt8) ∉ pre) (post : Bytes) :
    cString (pre ++ post) = pre ++ cString post := by
  refine List.takeWhile_append_of_pos fun b hb => ?_
  have hne : b ≠ 0 := fun h => h0 (h ▸ hb)
  simpa using hne

/-- What is found is a place of the memory where the pattern stands. -/
theorem strstr_eq_some {pat mem place : Bytes} (h : strstr pat mem = some place) :
    pat <+: place ∧ place <:+ mem := by
  induction mem with
  | nil =>
      rw [strstr] at h
      split at h
      · rename_i hpat
        cases h
        simp [hpat]
      · cases h
  | cons b mem ih =>
      rw [strstr] at h
      split at h
      · rename_i hpre
        cases h
        exact ⟨hpre, List.suffix_refl _⟩
      · split at h
        · cases h
        · exact ⟨(ih h).1, (ih h).2.trans (List.suffix_cons b mem)⟩

/-- A pattern that stands behind a part without NUL is found. -/
theorem strstr_isSome {pre : Bytes} (h0 : (0 : UInt8) ∉ pre) (pat post : Bytes) :
    (strstr pat (pre ++ (pat ++ post))).isSome := by
  induction pre with
  | nil => simp [strstr_self]
  | cons b pre ih =>
      have hb : b ≠ 0 := fun hb => h0 (by simp [hb])
      by_cases hpre : pat <+: b :: (pre ++ (pat ++ post))
      · rw [List.cons_append, strstr, if_pos hpre]
        rfl
      · rw [List.cons_append, strstr_cons hpre hb]
        exact ih fun hm => h0 (by simp [hm])

/-- A pattern that stands nowhere in the memory is not found. -/
theorem strstr_isSome_of_not_infix {pat mem : Bytes} (h : ¬ pat <:+: mem) :
    ¬ (strstr pat mem).isSome := by
  intro hsome
  obtain ⟨place, hplace⟩ := Option.isSome_iff_exists.mp hsome
  obtain ⟨hpre, hsuf⟩ := strstr_eq_some hplace
  exact h (hpre.isInfix.trans hsuf.isInfix)

/-- What is found stands in the text. -/
theorem infix_cString_of_strstr {pat mem : Bytes} (h0 : (0 : UInt8) ∉ pat)
    (h : (strstr pat mem).isSome) : pat <:+: cString mem := by
  induction mem with
  | nil =>
      rw [strstr] at h
      split at h
      · rename_i hnil
        rw [hnil]
        exact List.nil_infix
      · cases h
  | cons b mem ih =>
      by_cases hpre : pat <+: b :: mem
      · obtain ⟨post, hpost⟩ := hpre
        rw [← hpost, cString_append h0]
        exact (List.prefix_append pat _).isInfix
      · by_cases hb : b = 0
        · rw [strstr, if_neg hpre, if_pos hb] at h
          cases h
        · rw [strstr_cons hpre hb] at h
          rw [cString, List.takeWhile_cons_of_pos (by simpa using hb)]
          exact List.infix_cons (ih h)

/-- There is no NUL in a text. -/
theorem zero_notMem_cString (mem : Bytes) : (0 : UInt8) ∉ cString mem := by
  intro h
  have := List.mem_takeWhile_imp h
  simp at this

/-- A text that ends in a part without a byte ends behind that byte. -/
theorem suffix_of_suffix_append_cons {pat l r : Bytes} {c : UInt8} (hc : c ∉ pat)
    (h : pat <:+ l ++ c :: r) : pat <:+ r := by
  rcases List.suffix_or_suffix_of_suffix h (List.suffix_append l (c :: r)) with h | h
  · rcases List.suffix_cons_iff.mp h with rfl | h
    · simp at hc
    · exact h
  · exact absurd (h.subset (by simp)) hc

/-- All places of a text where a pattern stands, each up to the end of the text. -/
def places (pat text : Bytes) : List Bytes := text.tails.filter (pat <+: ·)

/-- **`strstr` finds the first place**, and the search from the byte behind its beginning goes
through the other ones. -/
theorem strstr_places {pat text : Bytes} (hpat : pat ≠ []) (h0 : (0 : UInt8) ∉ pat)
    (h0' : (0 : UInt8) ∉ text) :
    (strstr pat (text ++ [0]) = none ∧ places pat text = []) ∨
      ∃ place, strstr pat (text ++ [0]) = some (place ++ [0]) ∧ place ≠ [] ∧ place <:+ text ∧
        places pat text = place :: places pat (place.drop 1) := by
  have hnul : ∀ l : Bytes, pat <+: l ++ [0] ↔ pat <+: l := fun l =>
    ⟨prefix_of_prefix_append_cons h0, fun h => h.trans (List.prefix_append l [0])⟩
  induction text with
  | nil =>
      have hnil : ¬ pat <+: [] := fun h => hpat (List.prefix_nil.mp h)
      refine Or.inl ⟨?_, by simp [places, hpat]⟩
      have hpre : ¬ pat <+: [0] := fun h => hnil ((hnul []).mp h)
      rw [List.nil_append, strstr, if_neg hpre, if_pos rfl]
  | cons b text ih =>
      have hb : b ≠ 0 := fun hb => h0' (by simp [hb])
      have htails : (b :: text).tails = (b :: text) :: text.tails := by simp
      by_cases hpre : pat <+: b :: text
      · refine Or.inr ⟨b :: text, ?_, List.cons_ne_nil _ _, List.suffix_refl _, ?_⟩
        · have hpre' : pat <+: b :: (text ++ [0]) := (hnul (b :: text)).mpr hpre
          rw [List.cons_append, strstr, if_pos hpre']
        · rw [places, htails, List.filter_cons_of_pos (by simpa using hpre)]
          rfl
      · have hplaces : places pat (b :: text) = places pat text := by
          rw [places, htails, List.filter_cons_of_neg (by simpa using hpre)]
          rfl
        have hpre' : ¬ pat <+: b :: (text ++ [0]) := fun h => hpre ((hnul (b :: text)).mp h)
        rw [List.cons_append, strstr_cons hpre' hb, hplaces]
        rcases ih fun hm => h0' (by simp [hm]) with hnone | ⟨place, hfound, hne, hsuf, hrest⟩
        · exact Or.inl hnone
        · exact Or.inr ⟨place, hfound, hne, hsuf.trans (List.suffix_cons b text), hrest⟩

end CarLocator.Library
