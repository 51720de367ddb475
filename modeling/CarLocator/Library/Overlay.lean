import Mathlib.Data.List.GetD

/-!
# `CarLocator.Library.Overlay`: writing over a field of fixed width

A field of `n` places holds a text with blanks behind it (`padded`). A new text that is written
over the field from its first place on replaces as many places as it is long, and the places
behind it keep what they had (`overlay`).

`overlay_padded_iff` says when the field holds the new text with blanks behind it: the text
fits, and of the old one only blanks are left. A text that does not end in a blank has to be
reached to its end (`forall_mem_drop_iff`).
-/

set_option autoImplicit false

namespace CarLocator.Library

variable {α : Type*}

/-- A field of `n` places with a text at its beginning. -/
def padded (blank : α) (n : Nat) (text : List α) : List α :=
  text ++ List.replicate (n - text.length) blank

/-- A field, once a text has been written over it. -/
def overlay (text field : List α) : List α := text.take field.length ++ field.drop text.length

/-- The text fits into the field, and blanks are all that it leaves of the old one. -/
def Covers (blank : α) (n : Nat) (text old : List α) : Prop :=
  text.length ≤ n ∧ ∀ b ∈ old.drop text.length, b = blank

instance [DecidableEq α] (blank : α) (n : Nat) (text old : List α) :
    Decidable (Covers blank n text old) :=
  inferInstanceAs (Decidable (_ ∧ _))

/-- A text that fits does not make the field longer. -/
theorem length_padded {blank : α} {n : Nat} {text : List α} (h : text.length ≤ n) :
    (padded blank n text).length = n := by
  rw [padded, List.length_append, List.length_replicate, Nat.add_sub_cancel' h]

/-- A field of `n` places holds `n` characters at most. -/
theorem length_le_of_padded {blank : α} {n : Nat} {text field : List α}
    (h : field = padded blank n text) (hlen : field.length = n) : text.length ≤ n := by
  rw [h, padded, List.length_append] at hlen
  omega

/-- Writing over a field does not change its length. -/
theorem length_overlay (text field : List α) : (overlay text field).length = field.length := by
  rw [overlay, List.length_append, List.length_take, List.length_drop]
  omega

/-- A place of the field holds a character of the text, or what it held before. -/
theorem getElem_overlay (text field : List α) {j : Nat} (hj : j < field.length)
    (hj' : j < (overlay text field).length) :
    (overlay text field)[j] = text.getD j field[j] := by
  have hmin : (text.take field.length).length = min field.length text.length :=
    List.length_take
  simp only [overlay]
  by_cases hlt : j < text.length
  · rw [List.getElem_append_left (by omega), List.getElem_take, List.getD_eq_getElem _ _ hlt]
  · have hbehind : text.length + (j - (text.take field.length).length) = j := by omega
    rw [List.getElem_append_right (by omega), List.getElem_drop,
      List.getD_eq_default _ _ (by omega)]
    simp only [hbehind]

/-- What a text leaves of a field. -/
theorem drop_padded_eq_iff {blank : α} {n k : Nat} {old : List α} (hold : old.length ≤ n) :
    (padded blank n old).drop k = List.replicate (n - k) blank ↔
      ∀ b ∈ old.drop k, b = blank := by
  rw [List.eq_replicate_iff, List.length_drop, length_padded hold, padded, List.drop_append]
  refine (and_iff_right rfl).trans ?_
  simp only [List.mem_append]
  constructor
  · exact fun h b hb => h b (Or.inl hb)
  · rintro h b (hb | hb)
    · exact h b hb
    · exact List.eq_of_mem_replicate (List.mem_of_mem_drop hb)

/-- **Writing over a field**: the new text stands in it, with blanks behind it, exactly when it
covers the old one. -/
theorem overlay_padded_iff {blank : α} {n : Nat} {text old : List α} (hold : old.length ≤ n) :
    overlay text (padded blank n old) = padded blank n text ↔ Covers blank n text old := by
  have hlen := length_overlay text (padded blank n old)
  rw [length_padded hold] at hlen
  constructor
  · intro h
    have hfits := length_le_of_padded h hlen
    refine ⟨hfits, (drop_padded_eq_iff hold).mp ?_⟩
    rw [overlay, length_padded hold, List.take_of_length_le hfits] at h
    exact List.append_cancel_left h
  · rintro ⟨hfits, hrest⟩
    rw [overlay, length_padded hold, List.take_of_length_le hfits,
      (drop_padded_eq_iff hold).mpr hrest]
    rfl

/-- A text whose last character is no blank has to be reached to its end. -/
theorem forall_mem_drop_iff {blank last : α} (hlast : last ≠ blank) (pre : List α) (k : Nat) :
    (∀ b ∈ (pre ++ [last]).drop k, b = blank) ↔ (pre ++ [last]).length ≤ k := by
  constructor
  · intro h
    rw [List.length_append, List.length_singleton]
    refine Nat.succ_le_of_lt (Nat.lt_of_not_le fun hk => ?_)
    rw [List.drop_append_of_le_length hk] at h
    exact hlast (h last (by simp))
  · intro hk b hb
    rw [List.drop_eq_nil_of_le hk] at hb
    cases hb

end CarLocator.Library
