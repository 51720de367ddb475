import Mathlib.Data.List.DropRight
import Mathlib.Logic.Function.Basic
import Mathlib.Data.Fintype.Basic
import Mathlib.Tactic.Common

/-!
# `CarLocator.Library.Ring`: rings of a fixed size

A ring of size `n` is a function on `Fin n`. `forward i k` is the place `k` steps behind `i`,
`distance i j` is how many steps lead from `i` to `j`, and `slice buf i len` reads `len`
places from `i` on. A ring that is used as a queue is read by two lemmas: `drop_slice` (elements
are taken from the front) and `slice_update_concat` (an element is written behind the slice).
-/

set_option autoImplicit false

namespace CarLocator.Library.Ring

variable {α : Type*} {n : Nat}

/-- The place `k` steps behind `i`. -/
def forward (i : Fin n) (k : Nat) : Fin n := ⟨(i + k) % n, Nat.mod_lt _ i.pos⟩

/-- How many steps lead from `i` to `j`. -/
def distance (i j : Fin n) : Nat := if i ≤ j then j - i else n - (i - j)

/-- The `len` elements from `i` on. -/
def slice (buf : Fin n → α) (i : Fin n) (len : Nat) : List α :=
  (List.range len).map fun k => buf (forward i k)

@[simp]
theorem forward_zero (i : Fin n) : forward i 0 = i := by
  apply Fin.ext
  show (i + 0 : Nat) % n = i
  rw [Nat.add_zero, Nat.mod_eq_of_lt i.isLt]

/-- Once around the ring. -/
@[simp]
theorem forward_size (i : Fin n) : forward i n = i := by
  apply Fin.ext
  show (i + n : Nat) % n = i
  rw [Nat.add_mod_right, Nat.mod_eq_of_lt i.isLt]

/-- Steps add up. -/
theorem forward_forward (i : Fin n) (a b : Nat) :
    forward (forward i a) b = forward i (a + b) := by
  apply Fin.ext
  show ((i + a) % n + b) % n = (i + (a + b)) % n
  rw [Nat.mod_add_mod, Nat.add_assoc]

/-- The step of an index that is set to zero at the end of the ring. -/
theorem val_forward_one (i : Fin n) :
    (forward i 1 : Nat) = if (i : Nat) + 1 ≥ n then 0 else (i : Nat) + 1 := by
  show (i + 1 : Nat) % n = _
  split
  · rename_i hend
    have hlast : (i + 1 : Nat) = n := by
      have := i.isLt
      omega
    rw [hlast, Nat.mod_self]
  · rename_i hin
    exact Nat.mod_eq_of_lt (by omega)

/-- There are fewer steps between two places than the ring has places. -/
theorem distance_lt (i j : Fin n) : distance i j < n := by
  have hi := i.isLt
  have hj := j.isLt
  unfold distance
  split
  · omega
  · rename_i hlt
    have : (j : Nat) < i := by simpa using hlt
    omega

/-- The steps between two places lead from the one to the other. -/
theorem forward_distance (i j : Fin n) : forward i (distance i j) = j := by
  have hi := i.isLt
  have hj := j.isLt
  apply Fin.ext
  show (i + distance i j) % n = j
  unfold distance
  split
  · rename_i hle
    have : (i : Nat) ≤ j := by simpa using hle
    rw [Nat.add_sub_cancel' this, Nat.mod_eq_of_lt hj]
  · rename_i hlt
    have : (j : Nat) < i := by simpa using hlt
    rw [show (i + (n - (i - j)) : Nat) = j + n from by omega, Nat.add_mod_right,
      Nat.mod_eq_of_lt hj]

/-- Fewer steps than places lead to different places. -/
theorem forward_injective (i : Fin n) {a b : Nat} (ha : a < n) (hb : b < n)
    (h : forward i a = forward i b) : a = b := by
  have hval : (i + a) % n = (i + b) % n := congrArg Fin.val h
  have hi := i.isLt
  rcases Nat.lt_or_ge (i + a) n with hia | hia <;> rcases Nat.lt_or_ge (i + b) n with hib | hib
  · rw [Nat.mod_eq_of_lt hia, Nat.mod_eq_of_lt hib] at hval
    omega
  · rw [Nat.mod_eq_of_lt hia, Nat.mod_eq_sub_mod hib, Nat.mod_eq_of_lt (by omega)] at hval
    omega
  · rw [Nat.mod_eq_sub_mod hia, Nat.mod_eq_of_lt (by omega), Nat.mod_eq_of_lt hib] at hval
    omega
  · rw [Nat.mod_eq_sub_mod hia, Nat.mod_eq_of_lt (by omega), Nat.mod_eq_sub_mod hib,
      Nat.mod_eq_of_lt (by omega)] at hval
    omega

/-- The distance to a place counts the steps. -/
theorem distance_forward (i : Fin n) {k : Nat} (hk : k < n) : distance i (forward i k) = k :=
  forward_injective i (distance_lt i _) hk (forward_distance i _)

/-- There is no step between equal places. -/
@[simp]
theorem distance_self (i : Fin n) : distance i i = 0 := by
  simp [distance]

/-- Only equal places have no step between them. -/
theorem distance_eq_zero_iff (i j : Fin n) : distance i j = 0 ↔ i = j := by
  constructor
  · intro h
    have hj := forward_distance i j
    rwa [h, forward_zero] at hj
  · rintro rfl
    exact distance_self i

@[simp]
theorem length_slice (buf : Fin n → α) (i : Fin n) (len : Nat) :
    (slice buf i len).length = len := by
  simp [slice]

@[simp]
theorem slice_zero (buf : Fin n → α) (i : Fin n) : slice buf i 0 = [] := rfl

/-- Two slices in a row. -/
theorem slice_add (buf : Fin n → α) (i : Fin n) (a b : Nat) :
    slice buf i (a + b) = slice buf i a ++ slice buf (forward i a) b := by
  unfold slice
  rw [List.range_add, List.map_append, List.map_map]
  congr 1
  refine List.map_congr_left fun k _ => ?_
  rw [Function.comp_apply, forward_forward]

/-- The first element of a slice. -/
theorem slice_succ (buf : Fin n → α) (i : Fin n) (len : Nat) :
    slice buf i (len + 1) = buf i :: slice buf (forward i 1) len := by
  rw [Nat.add_comm, slice_add]
  show [buf (forward i 0)] ++ _ = _
  rw [forward_zero, List.singleton_append]

/-- The front of a slice. -/
theorem take_slice (buf : Fin n → α) (i : Fin n) {a len : Nat} (h : a ≤ len) :
    (slice buf i len).take a = slice buf i a := by
  obtain ⟨b, rfl⟩ := Nat.exists_eq_add_of_le h
  rw [slice_add, List.take_left' (length_slice _ _ _)]

/-- The back of a slice. -/
theorem drop_slice (buf : Fin n → α) (i : Fin n) {a len : Nat} (h : a ≤ len) :
    (slice buf i len).drop a = slice buf (forward i a) (len - a) := by
  obtain ⟨b, rfl⟩ := Nat.exists_eq_add_of_le h
  rw [slice_add, List.drop_left' (length_slice _ _ _), Nat.add_sub_cancel_left]

/-- A slice is not changed by what is written behind it. -/
theorem slice_update_of_le (buf : Fin n → α) (i : Fin n) (x : α) {len d : Nat} (hlen : len ≤ d)
    (hd : d < n) : slice (Function.update buf (forward i d) x) i len = slice buf i len := by
  refine List.map_congr_left fun k hk => ?_
  have hk : k < len := List.mem_range.mp hk
  refine Function.update_of_ne ?_ x buf
  intro h
  have := forward_injective i (by omega) hd h
  omega

/-- An element written behind a slice that does not fill the ring. -/
theorem slice_update_concat (buf : Fin n → α) (i : Fin n) (x : α) {len : Nat} (hlen : len < n) :
    slice (Function.update buf (forward i len) x) i (len + 1) = slice buf i len ++ [x] := by
  rw [slice_add, slice_update_of_le buf i x (Nat.le_refl len) hlen]
  show _ ++ [Function.update buf (forward i len) x (forward (forward i len) 0)] = _
  rw [forward_zero, Function.update_self]

/-- A slice that does not pass the end is a piece of the buffer. -/
theorem slice_eq_take_drop (buf : Fin n → α) (i : Fin n) {len : Nat} (h : i + len ≤ n) :
    slice buf i len = ((List.ofFn buf).drop i).take len := by
  apply List.ext_getElem
  · rw [length_slice, List.length_take, List.length_drop, List.length_ofFn]
    omega
  · intro k hk _
    rw [length_slice] at hk
    have hplace : forward i k = ⟨i + k, by omega⟩ := Fin.ext (Nat.mod_eq_of_lt (by omega))
    simp only [slice, List.getElem_map, List.getElem_range, List.getElem_take, List.getElem_drop,
      List.getElem_ofFn, hplace]

/-- A slice that passes the end is the rest of the buffer and a piece of its front. -/
theorem slice_eq_append (buf : Fin n → α) (i : Fin n) {len : Nat} (hend : n ≤ i + len)
    (hlen : len ≤ n) :
    slice buf i len
      = ((List.ofFn buf).drop i).take (n - i) ++ (List.ofFn buf).take (i + len - n) := by
  have hi := i.isLt
  have hsplit : len = (n - i) + (i + len - n) := by omega
  have hstart : forward i (n - i) = ⟨0, i.pos⟩ := by
    apply Fin.ext
    show (i + (n - i) : Nat) % n = 0
    rw [Nat.add_sub_cancel' (Nat.le_of_lt hi), Nat.mod_self]
  have hfront : (i + len - n : Nat) ≤ n := by omega
  conv_lhs => rw [hsplit]
  rw [slice_add, slice_eq_take_drop buf i (by omega), hstart,
    slice_eq_take_drop buf ⟨0, i.pos⟩ (by simpa using hfront)]
  rfl

end CarLocator.Library.Ring
