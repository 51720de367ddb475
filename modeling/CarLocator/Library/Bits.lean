import Mathlib.Data.BitVec

/-!
# `CarLocator.Library.Bits`: words as sets of bits

A word of flags is read as the set of its bits. `Within x y` is inclusion, and the test
`x &&& y ≠ 0` of a C program asks whether the two sets meet. The rules are stated with the
operators the programs use: `|||` sets bits, `&&& ~~~` clears them.
-/

set_option autoImplicit false

namespace CarLocator.Library

variable {w : Nat} {x y z m : BitVec w}

/-- Every bit of `x` is a bit of `y`. -/
def Within (x y : BitVec w) : Prop := ∀ k, x.getLsbD k = true → y.getLsbD k = true

/-- The test `x & y`: some bit is in both. -/
theorem and_ne_zero_iff : x &&& y ≠ 0 ↔ ∃ k, x.getLsbD k = true ∧ y.getLsbD k = true := by
  constructor
  · intro h
    by_contra hno
    refine h (BitVec.eq_of_getLsbD_eq fun k _ => ?_)
    rw [BitVec.getLsbD_and]
    cases hx : x.getLsbD k with
    | false => simp
    | true =>
        cases hy : y.getLsbD k with
        | false => simp
        | true => exact absurd ⟨k, hx, hy⟩ hno
  · rintro ⟨k, hx, hy⟩ h
    have hk := congrArg (·.getLsbD k) h
    simp [hx, hy] at hk

/-- The test `x & y` fails: no bit is in both. -/
theorem and_eq_zero_iff : x &&& y = 0 ↔ ∀ k, x.getLsbD k = true → y.getLsbD k = false := by
  rw [← not_iff_not, ← ne_eq, and_ne_zero_iff]
  simp

/-- The bits that are left when others are cleared. -/
theorem getLsbD_and_not (k : Nat) :
    (x &&& ~~~m).getLsbD k = true ↔ x.getLsbD k = true ∧ m.getLsbD k = false := by
  rw [BitVec.getLsbD_and, BitVec.getLsbD_not, Bool.and_eq_true, Bool.and_eq_true,
    decide_eq_true_eq, Bool.not_eq_true']
  exact ⟨fun h => ⟨h.1, h.2.2⟩, fun h => ⟨h.1, BitVec.lt_of_getLsbD h.1, h.2⟩⟩

/-- A word is within itself with more bits set. -/
theorem within_or_left : Within x (x ||| y) := fun k h => by simp [h]

/-- So are the bits that are set. -/
theorem within_or_right : Within y (x ||| y) := fun k h => by simp [h]

/-- What two words share is a part of each. -/
theorem within_and_left : Within (x &&& y) x := fun k h => by
  rw [BitVec.getLsbD_and, Bool.and_eq_true] at h
  exact h.1

theorem within_and_right : Within (x &&& y) y := fun k h => by
  rw [BitVec.getLsbD_and, Bool.and_eq_true] at h
  exact h.2

/-- Nothing is within every word. -/
theorem within_zero : Within 0 x := fun k h => by simp at h

theorem Within.trans (h : Within x y) (h' : Within y z) : Within x z := fun k hk => h' k (h k hk)

/-- The union of two parts of a word is a part of it. -/
theorem Within.or (h : Within x z) (h' : Within y z) : Within (x ||| y) z := fun k hk => by
  rw [BitVec.getLsbD_or, Bool.or_eq_true] at hk
  exact hk.elim (h k) (h' k)

/-- Clearing bits leaves a part. -/
theorem within_and_not : Within (x &&& ~~~m) x := fun k hk => ((getLsbD_and_not k).mp hk).1

/-- A part of a word after the bits `m` of the word were taken from both. -/
theorem Within.and_not (h : Within x y) : Within (x &&& ~~~(y &&& m)) (y &&& ~~~m) := by
  intro k hk
  rw [getLsbD_and_not] at hk ⊢
  have hy := h k hk.1
  rw [BitVec.getLsbD_and, hy, Bool.true_and] at hk
  exact ⟨hy, hk.2⟩

/-- A word that meets `m` is met by `m` in every word it is within. -/
theorem Within.and_ne_zero (h : Within x y) (hx : x &&& m ≠ 0) : y &&& m ≠ 0 := by
  obtain ⟨k, hk, hm⟩ := and_ne_zero_iff.mp hx
  exact and_ne_zero_iff.mpr ⟨k, h k hk, hm⟩

/-- A part of a word that does not meet `m` does not meet it either. -/
theorem Within.and_eq_zero (h : Within x y) (hy : y &&& m = 0) : x &&& m = 0 := by
  by_contra hx
  exact h.and_ne_zero hx hy

/-- The bits of a union that meet `m`. -/
theorem or_and_ne_zero : (x ||| y) &&& m ≠ 0 ↔ x &&& m ≠ 0 ∨ y &&& m ≠ 0 := by
  simp only [and_ne_zero_iff, BitVec.getLsbD_or, Bool.or_eq_true, or_and_right, exists_or]

/-- A union does not meet `m` when neither part does. -/
theorem or_and_eq_zero (hx : x &&& m = 0) (hy : y &&& m = 0) : (x ||| y) &&& m = 0 := by
  by_contra h
  exact (or_and_ne_zero.mp h).elim (absurd hx) (absurd hy)

/-- Clearing bits that do not meet `m` keeps what meets `m`. -/
theorem and_not_and_ne_zero (h : x &&& m ≠ 0) (hy : y &&& m = 0) : x &&& ~~~y &&& m ≠ 0 := by
  obtain ⟨k, hx, hm⟩ := and_ne_zero_iff.mp h
  refine and_ne_zero_iff.mpr ⟨k, (getLsbD_and_not k).mpr ⟨hx, ?_⟩, hm⟩
  cases hk : y.getLsbD k with
  | false => rfl
  | true => rw [and_eq_zero_iff.mp hy k hk] at hm; cases hm

/-- Cleared bits are gone. -/
theorem and_not_and_self : x &&& ~~~m &&& m = 0 := by
  rw [and_eq_zero_iff]
  exact fun k hk => ((getLsbD_and_not k).mp hk).2

/-- Clearing bits that a word does not have keeps it. -/
theorem and_not_of_and_eq_zero (h : x &&& m = 0) : x &&& ~~~m = x := by
  refine BitVec.eq_of_getLsbD_eq fun k _ => ?_
  cases hx : x.getLsbD k with
  | false => rw [BitVec.getLsbD_and, hx, Bool.false_and]
  | true => exact (getLsbD_and_not k).mpr ⟨hx, and_eq_zero_iff.mp h k hx⟩

/-- What is left of a union when one part of it is cleared. -/
theorem within_or_and_not : Within ((x ||| (m ||| y)) &&& ~~~m) (x ||| y) := by
  intro k hk
  rw [getLsbD_and_not, BitVec.getLsbD_or, BitVec.getLsbD_or, Bool.or_eq_true, Bool.or_eq_true,
    hk.2] at hk
  rw [BitVec.getLsbD_or, Bool.or_eq_true]
  exact hk.1.imp_right fun h => h.resolve_left Bool.false_ne_true

/-- A part of a word, cut out of it. -/
theorem Within.and_eq (h : Within x y) : x &&& y = x := by
  refine BitVec.eq_of_getLsbD_eq fun k _ => ?_
  rw [BitVec.getLsbD_and]
  cases hx : x.getLsbD k with
  | false => simp
  | true => simp [h k hx]

end CarLocator.Library
