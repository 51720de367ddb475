import CarLocator.Library.Decimal
import Mathlib.Data.Rat.Floor

/-!
# `CarLocator.Library.Printf`: formatted output

The conversions of `printf` for integers in a field (`%2d`) and for numbers with a fixed count
of decimals (`%.2f`). A number is given exactly, as a rational, and rounded to the nearest
decimal, halfway cases to an even last digit.

`roundHalfEven_div` computes the rounding of a quotient of integers.
-/

set_option autoImplicit false

namespace CarLocator.Library

/-- The minus sign of a negative number. -/
def minusSign (negative : Bool) : Bytes := if negative then [45] else []

/-- `%<width>d`: blanks fill the field on the left, and a longer number widens it. -/
def formatInt (width : Nat) (v : Int) : Bytes :=
  let text := minusSign (v < 0) ++ decimal v.natAbs
  List.replicate (width - text.length) 32 ++ text

/-- The nearest integer, and the even one of two. -/
def roundHalfEven (x : Rat) : Int :=
  let k := x.floor
  if x - k < 1 / 2 then k else if 1 / 2 < x - k then k + 1 else k + k % 2

/-- The digits that `%.<digits>f` prints, as one number. -/
def fixedScaled (digits : Nat) (x : Rat) : Nat := (roundHalfEven (|x| * 10 ^ digits)).toNat

/-- `%.<digits>f`. -/
def formatFixed (digits : Nat) (x : Rat) : Bytes :=
  minusSign (x < 0) ++ decimal (fixedScaled digits x / 10 ^ digits)
    ++ 46 :: fixedDecimal digits (fixedScaled digits x)

/-- A number of `n` digits takes one place more, or the width of its field. -/
theorem length_formatInt_le (width : Nat) {n : Nat} (hn : 0 < n) {v : Int}
    (hv : v.natAbs < 10 ^ n) : (formatInt width v).length ≤ max width (n + 1) := by
  have hdigits := length_decimal_le hn hv
  have hsign : (minusSign (v < 0)).length ≤ 1 := by
    rw [minusSign]
    split <;> decide
  simp only [formatInt, List.length_append, List.length_replicate]
  omega

/-- The digits of a field are digits. -/
theorem isDigit_of_mem_fixedDecimal {n m : Nat} {b : UInt8} (h : b ∈ fixedDecimal n m) :
    isDigit b = true := by
  induction n with
  | zero => cases h
  | succ n ih =>
      rcases List.mem_cons.mp h with rfl | h
      · exact isDigit_digitByte (Nat.mod_lt _ (by decide))
      · exact ih h

/-- What `%.<digits>f` is made of. -/
theorem mem_formatFixed {digits : Nat} {x : Rat} {b : UInt8} (h : b ∈ formatFixed digits x) :
    b = 45 ∨ b = 46 ∨ isDigit b = true := by
  rcases List.mem_append.mp h with h | h
  · rcases List.mem_append.mp h with h | h
    · rw [minusSign] at h
      split at h
      · exact Or.inl (List.mem_singleton.mp h)
      · cases h
    · exact Or.inr (Or.inr (isDigit_of_mem_decimal h))
  · rcases List.mem_cons.mp h with rfl | h
    · exact Or.inr (Or.inl rfl)
    · exact Or.inr (Or.inr (isDigit_of_mem_fixedDecimal h))

/-- How long a number is that is not negative. -/
theorem length_formatFixed (digits : Nat) {x : Rat} (h : 0 ≤ x) :
    (formatFixed digits x).length
      = (decimal (fixedScaled digits x / 10 ^ digits)).length + 1 + digits := by
  have hsign : minusSign (x < 0) = [] := by rw [minusSign, decide_eq_false (not_lt.mpr h)]; rfl
  rw [formatFixed, hsign, List.nil_append, List.length_append, List.length_cons,
    length_fixedDecimal]
  omega

/-- **The rounding of a quotient.** -/
theorem roundHalfEven_div (a : Nat) {b : Nat} (hb : 0 < b) :
    roundHalfEven ((a : Rat) / b)
      = if 2 * (a % b) < b then ((a / b : Nat) : Int)
        else if b < 2 * (a % b) then ((a / b : Nat) : Int) + 1
        else ((a / b : Nat) : Int) + ((a / b : Nat) : Int) % 2 := by
  have hpos : (0 : Rat) < b := Nat.cast_pos.mpr hb
  have hfloor : ((a : Rat) / b).floor = ((a / b : Nat) : Int) :=
    Rat.floor_natCast_div_natCast a b
  -- what is left above the integer is the remainder over the divisor
  have hrest : (a : Rat) / b - ((a / b : Nat) : Int) = (a % b : Nat) / b := by
    have hsplit : (b : Rat) * (a / b : Nat) + (a % b : Nat) = a := by
      exact_mod_cast Nat.div_add_mod a b
    rw [Int.cast_natCast, ← hsplit, add_div, mul_div_cancel_left₀ _ hpos.ne', add_sub_cancel_left]
  have hlow : ((a % b : Nat) : Rat) / b < 1 / 2 ↔ 2 * (a % b) < b := by
    rw [div_lt_div_iff₀ hpos two_pos, one_mul, mul_comm]
    exact_mod_cast Iff.rfl
  have hhigh : 1 / 2 < ((a % b : Nat) : Rat) / b ↔ b < 2 * (a % b) := by
    rw [div_lt_div_iff₀ two_pos hpos, one_mul, mul_comm _ (2 : Rat)]
    exact_mod_cast Iff.rfl
  unfold roundHalfEven
  simp only [hfloor, hrest, hlow, hhigh]

end CarLocator.Library
