import Mathlib.Algebra.Group.Nat.Defs
import Mathlib.Logic.Function.Basic

/-!
# `CarLocator.Library.Memory`: numbers in byte memory

A memory gives every address a byte. `readNum` and `writeNum` read and write a number of some
bytes, least significant byte first, as a structure member in memory is read and written.

* `readNum_writeNum`: what was written is read back, if it fits.
* `readNum_writeNum_of_disjoint`: a write elsewhere does not matter.
* `writeNum_outside`: a write changes the bytes of its own place only.

`copyBytes` and `fillBytes` are `memcpy` and `memset`, and `sizeSub` is the difference of two
unsigned numbers of 32 bits.
-/

set_option autoImplicit false

namespace CarLocator.Library

/-- Byte memory. -/
abbrev Memory := Nat → UInt8

/-- The number in the `n` bytes from `p` on. -/
def readNum (mem : Memory) (p : Nat) : Nat → Nat
  | 0 => 0
  | n + 1 => (mem p).toNat + 256 * readNum mem (p + 1) n

/-- A number is written to the `n` bytes from `p` on. -/
def writeNum (mem : Memory) (p : Nat) : (n v : Nat) → Memory
  | 0, _ => mem
  | n + 1, v => Function.update (writeNum mem (p + 1) n (v / 256)) p (UInt8.ofNat v)

/-- `memcpy`. -/
def copyBytes (mem : Memory) (dst src n : Nat) : Memory := fun x =>
  if dst ≤ x ∧ x < dst + n then mem (src + (x - dst)) else mem x

/-- `memset`. -/
def fillBytes (mem : Memory) (dst : Nat) (value : UInt8) (n : Nat) : Memory := fun x =>
  if dst ≤ x ∧ x < dst + n then value else mem x

/-- `a - b` on numbers of 32 bits. -/
def sizeSub (a b : Nat) : Nat := (a + 2 ^ 32 - b) % 2 ^ 32

/-- It is the difference when there is one. -/
theorem sizeSub_eq {a b : Nat} (hle : b ≤ a) (ha : a < 2 ^ 32) : sizeSub a b = a - b := by
  unfold sizeSub
  rw [show a + 2 ^ 32 - b = (a - b) + 2 ^ 32 by omega, Nat.add_mod_right,
    Nat.mod_eq_of_lt (by omega)]

/-- A write changes the bytes of its own place only. -/
theorem writeNum_outside {mem : Memory} {p n v x : Nat} (hx : x < p ∨ p + n ≤ x) :
    writeNum mem p n v x = mem x := by
  induction n generalizing p v with
  | zero => rfl
  | succ n ih =>
      have hne : x ≠ p := by omega
      rw [writeNum, Function.update_of_ne hne]
      exact ih (by omega)

/-- A number is read from its own bytes only. -/
theorem readNum_congr {mem mem' : Memory} {p n : Nat}
    (h : ∀ x, p ≤ x → x < p + n → mem x = mem' x) : readNum mem p n = readNum mem' p n := by
  induction n generalizing p with
  | zero => rfl
  | succ n ih =>
      rw [readNum, readNum, h p (Nat.le_refl p) (by omega)]
      rw [ih fun x hlo hhi => h x (by omega) (by omega)]

/-- A write elsewhere does not matter. -/
theorem readNum_writeNum_of_disjoint {mem : Memory} {p q n m v : Nat}
    (h : p + n ≤ q ∨ q + m ≤ p) : readNum (writeNum mem p n v) q m = readNum mem q m :=
  readNum_congr fun _ _ _ => writeNum_outside (by omega)

/-- What was written is read back, if it fits. -/
theorem readNum_writeNum {mem : Memory} {p n v : Nat} (hv : v < 256 ^ n) :
    readNum (writeNum mem p n v) p n = v := by
  induction n generalizing p v with
  | zero =>
      rw [readNum]
      omega
  | succ n ih =>
      have hrest : v / 256 < 256 ^ n := by
        rw [Nat.pow_succ] at hv
        omega
      have hread : readNum (writeNum mem p (n + 1) v) (p + 1) n = v / 256 := by
        rw [← ih hrest]
        refine readNum_congr fun x hlo _ => ?_
        rw [writeNum, Function.update_of_ne (by omega)]
      rw [readNum, hread, writeNum, Function.update_self, UInt8.toNat_ofNat']
      omega

end CarLocator.Library
