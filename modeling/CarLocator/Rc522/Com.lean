import CarLocator.Library.CText
import Mathlib.Data.Nat.Find

/-!
# `CarLocator.Rc522.Com`: one exchange with a card

`pcdComMF522` is `PcdComMF522` of `rc522.c`: it gives a command to the RC522, polls its
interrupt register, and copies the answer of the card out of the FIFO. What the chip puts
into its registers is given by an `Exchange`, and it may be anything, so what the driver
writes to the chip is left out.

`answerBits` is the length of the card's answer. The driver computes it in eight bits, so
an answer of 256 bits more looks the same (`outLenBit_eq_iff`).
-/

set_option autoImplicit false

namespace CarLocator.Rc522

open CarLocator.Library

/-- `MI_OK`, `MI_NOTAGERR` and `MI_ERR`. -/
inductive MiStatus
  | ok
  | noTagErr
  | err
  deriving DecidableEq, Repr

/-- The commands of the RC522 that `PcdComMF522` knows. -/
inductive PcdCommand
  | authent
  | transceive
  deriving DecidableEq, Repr

/-- `irqEn` and `waitFor` for a command. -/
def PcdCommand.irqEn : PcdCommand → UInt8
  | .authent => 0x12
  | .transceive => 0x77
def PcdCommand.waitFor : PcdCommand → UInt8
  | .authent => 0x10
  | .transceive => 0x30

/-- `MAXRLEN`. -/
def maxRLen : Nat := 18

/-- What the chip puts into the registers that are read in one exchange. -/
structure Exchange where
  -- `ComIrqReg`, each time it is polled
  comIrq : Nat → UInt8
  errorReg : UInt8
  fifoLevel : Fin 65
  controlReg : UInt8
  -- `FIFODataReg`, each time it is read
  fifoData : Nat → UInt8

/-- `ucComMF522Buf`, of which the first `MAXRLEN` bytes are used. -/
abbrev ComBuf := Nat → UInt8

/-- The buffer with these bytes at its beginning. -/
def ComBuf.store (buf : ComBuf) (bytes : Bytes) : ComBuf := fun k => bytes.getD k (buf k)

/-- The first `k` bytes of the buffer. -/
def ComBuf.first (buf : ComBuf) (k : Nat) : Bytes := (List.range k).map buf

/-- What `PcdComMF522` leaves. -/
structure ComResult where
  status : MiStatus
  outLenBit : UInt8
  out : ComBuf
  -- how many bytes it has read from the FIFO
  fifoRead : Nat

/-- No interrupt that ends the polling is requested. -/
def Silent (waitFor n : UInt8) : Prop := n &&& 0x01 = 0 ∧ n &&& waitFor = 0

instance (waitFor n : UInt8) : Decidable (Silent waitFor n) :=
  inferInstanceAs (Decidable (_ ∧ _))

/-- The loop that polls `ComIrqReg`, with `i` rounds left, from the `k`-th poll on: what was
read last, and the `i` that is left. -/
def pollComIrq (comIrq : Nat → UInt8) (waitFor : UInt8) : (i k : Nat) → UInt8 × Nat
  | 0, k => (comIrq k, 0)
  | i + 1, k =>
    if i ≠ 0 ∧ Silent waitFor (comIrq k) then pollComIrq comIrq waitFor i (k + 1)
    else (comIrq k, i)

/-- The number of polls. -/
def polls : Nat := 100000

/-- `*pOutLenBit` for `n` bytes in the FIFO. -/
def outLenBit (n lastBits : UInt8) : UInt8 :=
  if lastBits ≠ 0 then (n - 1) * 8 + lastBits else n * 8

/-- How many bytes are read from a FIFO of this level. -/
def fifoReads (level : Nat) : Nat :=
  let n := if level = 0 then 1 else level
  if n > maxRLen then maxRLen else n

/-- `PcdComMF522`. `pOut` and `pOutLenBit` are what the two hold before. -/
def pcdComMF522 (x : Exchange) (command : PcdCommand) (pOut : ComBuf) (pOutLenBit : UInt8) :
    ComResult :=
  let (n, i) := pollComIrq x.comIrq command.waitFor polls 0
  if i = 0 ∨ x.errorReg &&& 0x1B ≠ 0 then ⟨.err, pOutLenBit, pOut, 0⟩
  else
    let status := if n &&& command.irqEn &&& 0x01 ≠ 0 then .noTagErr else .ok
    match command with
    | .transceive =>
      let reads := fifoReads x.fifoLevel
      ⟨status, outLenBit (UInt8.ofNat x.fifoLevel) (x.controlReg &&& 0x07),
        fun k => if k < reads then x.fifoData k else pOut k, reads⟩
    | .authent => ⟨status, pOutLenBit, pOut, 0⟩

/-! ### When an exchange completes -/

/-- The chip answers a transceive without an error: a poll before the last one finds the
receiver or the command ready and the timer not, the polls before it find nothing. -/
def Exchange.Completes (x : Exchange) : Prop :=
  (∃ m < polls - 1, (∀ j < m, Silent 0x30 (x.comIrq j)) ∧ ¬ Silent 0x30 (x.comIrq m) ∧
    x.comIrq m &&& 0x01 = 0) ∧ x.errorReg &&& 0x1B = 0

/-- The bits of a partial last byte, 0 for a whole one. -/
def Exchange.lastBits (x : Exchange) : UInt8 := x.controlReg &&& 0x07

/-- The number of bits the card has answered with. -/
def Exchange.answerBits (x : Exchange) : Nat :=
  if x.fifoLevel.val = 0 then 0
  else if x.lastBits ≠ 0 then (x.fifoLevel.val - 1) * 8 + x.lastBits.toNat
  else x.fifoLevel.val * 8

/-- The bytes that an exchange reads from the FIFO. -/
def Exchange.read (x : Exchange) : Bytes := (List.range (fifoReads x.fifoLevel)).map x.fifoData

/-- **The polling loop** comes to an end before its last round, at a value with `P`, exactly
when the first value that is not silent comes early enough and has `P`. -/
theorem pollComIrq_iff (comIrq : Nat → UInt8) (waitFor : UInt8) (P : UInt8 → Prop) (i k : Nat) :
    (pollComIrq comIrq waitFor (i + 1) k).2 ≠ 0 ∧ P (pollComIrq comIrq waitFor (i + 1) k).1 ↔
      ∃ m < i, (∀ j < m, Silent waitFor (comIrq (k + j))) ∧
        ¬ Silent waitFor (comIrq (k + m)) ∧ P (comIrq (k + m)) := by
  induction i generalizing k with
  | zero =>
      rw [pollComIrq, if_neg (by simp)]
      simp
  | succ i ih =>
      have hshift : ∀ j, k + 1 + j = k + (j + 1) := fun j => by omega
      rw [pollComIrq]
      by_cases hsilent : Silent waitFor (comIrq k)
      · rw [if_pos ⟨Nat.succ_ne_zero i, hsilent⟩, ih]
        simp only [hshift]
        constructor
        · rintro ⟨m, hm, hbefore, hat⟩
          refine ⟨m + 1, by omega, fun j hj => ?_, hat⟩
          cases j with
          | zero => exact hsilent
          | succ j => exact hbefore j (by omega)
        · rintro ⟨m, hm, hbefore, hat⟩
          cases m with
          | zero => exact absurd hsilent hat.1
          | succ m => exact ⟨m, by omega, fun j hj => hbefore (j + 1) (by omega), hat⟩
      · rw [if_neg fun h => hsilent h.2]
        constructor
        · intro h
          exact ⟨0, Nat.succ_pos i, fun j hj => absurd hj (Nat.not_lt_zero j), hsilent, h.2⟩
        · rintro ⟨m, hm, hbefore, hat⟩
          cases m with
          | zero => exact ⟨Nat.succ_ne_zero i, hat.2⟩
          | succ m => exact absurd (hbefore 0 (Nat.succ_pos m)) hsilent

/-- The timer interrupt is enabled, so the driver sees it. -/
theorem and_irqEn (n : UInt8) : n &&& PcdCommand.transceive.irqEn &&& 0x01 = n &&& 0x01 := by
  rw [UInt8.and_assoc, show PcdCommand.transceive.irqEn &&& 0x01 = 0x01 by decide]

/-- The polling of a transceive that completes. -/
theorem completes_iff (x : Exchange) :
    x.Completes ↔ ((pollComIrq x.comIrq 0x30 polls 0).2 ≠ 0 ∧
      (pollComIrq x.comIrq 0x30 polls 0).1 &&& 0x01 = 0) ∧ x.errorReg &&& 0x1B = 0 := by
  have hpoll := pollComIrq_iff x.comIrq 0x30 (fun n => n &&& 0x01 = 0) (polls - 1) 0
  simp only [Nat.zero_add] at hpoll
  rw [Exchange.Completes, ← hpoll]
  rfl

/-- What a transceive returns with `MI_OK`: it has completed, and the answer is in the
buffer. -/
theorem pcdComMF522_ok {x : Exchange} (h : x.Completes) (pOut : ComBuf) (pOutLenBit : UInt8) :
    pcdComMF522 x .transceive pOut pOutLenBit
      = ⟨.ok, outLenBit (UInt8.ofNat x.fifoLevel) x.lastBits,
        fun k => if k < fifoReads x.fifoLevel then x.fifoData k else pOut k,
        fifoReads x.fifoLevel⟩ := by
  obtain ⟨⟨hi, hn⟩, herror⟩ := (completes_iff x).mp h
  have hgo : ¬ ((pollComIrq x.comIrq 0x30 polls 0).2 = 0 ∨ x.errorReg &&& 0x1B ≠ 0) := by
    rintro (hzero | hne)
    · exact hi hzero
    · exact hne herror
  rw [pcdComMF522]
  simp only [show PcdCommand.transceive.waitFor = 0x30 from rfl]
  rw [if_neg hgo, and_irqEn, if_neg (not_not.mpr hn)]
  rfl

/-- A transceive that does not complete does not return `MI_OK`. -/
theorem pcdComMF522_not_ok {x : Exchange} (h : ¬ x.Completes) (pOut : ComBuf)
    (pOutLenBit : UInt8) : (pcdComMF522 x .transceive pOut pOutLenBit).status ≠ .ok := by
  intro hok
  refine h ((completes_iff x).mpr ?_)
  rw [pcdComMF522] at hok
  simp only [show PcdCommand.transceive.waitFor = 0x30 from rfl] at hok
  split at hok
  · cases hok
  · rename_i hgo
    rw [not_or, not_not] at hgo
    simp only [and_irqEn] at hok
    split at hok
    · cases hok
    · rename_i hn
      exact ⟨⟨hgo.1, not_not.mp hn⟩, hgo.2⟩

/-- A partial last byte has less than eight bits. -/
theorem lastBits_lt (x : Exchange) : x.lastBits.toNat < 8 := by
  rw [Exchange.lastBits, UInt8.toNat_and]
  exact Nat.lt_succ_of_le Nat.and_le_right

/-- **The length in eight bits**: an answer of 256 bits more looks the same. -/
theorem outLenBit_eq_iff (x : Exchange) {bits : UInt8} (hpos : 0 < bits.toNat)
    (hlt : bits.toNat < 248) :
    outLenBit (UInt8.ofNat x.fifoLevel) x.lastBits = bits ↔
      x.answerBits = bits.toNat ∨ x.answerBits = bits.toNat + 256 := by
  have hlevel : x.fifoLevel.val < 65 := x.fifoLevel.isLt
  have hlast := lastBits_lt x
  have hn : (UInt8.ofNat x.fifoLevel).toNat = x.fifoLevel := by
    rw [UInt8.toNat_ofNat']
    omega
  rw [← UInt8.toNat_inj, outLenBit, Exchange.answerBits]
  by_cases hzero : x.lastBits = 0
  · rw [if_neg (not_not.mpr hzero), if_neg (not_not.mpr hzero), UInt8.toNat_mul, hn]
    show x.fifoLevel.val * 8 % 256 = bits.toNat ↔ _
    split <;> omega
  · rw [if_pos hzero, if_pos hzero, UInt8.toNat_add, UInt8.toNat_mul, UInt8.toNat_sub, hn]
    show ((256 - 1 + x.fifoLevel.val) % 256 * 8 % 256 + x.lastBits.toNat) % 256 = bits.toNat ↔ _
    have hne : x.lastBits.toNat ≠ 0 := fun h => hzero (UInt8.toNat_inj.mp h)
    split <;> omega

end CarLocator.Rc522
