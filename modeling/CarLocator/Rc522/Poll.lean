import CarLocator.Library.Runs
import CarLocator.Rc522.Card
import Mathlib.Data.List.FinRange
import Mathlib.Tactic.IntervalCases

/-!
# `CarLocator.Rc522.Poll`: polling for a card

`readID` is `ReadID` of `rc522.c`: two requests, of which the second one counts, the
anticollision, and the card number written to `num` in hexadecimal. What the chip answers to
the three exchanges is given by `PollAnswers`, and `PollAnswers.uid` is the card number that a
poll reads.

A run is a sequence of polls, from any values of the globals. `PollRight` is what should hold
after each of them. The text in `num` is always that of the last card (`num_always`). The status
and the flag are not: `MI_OK` is overwritten before it is returned, and `Card_flag` is never
reset (`pollRight_iff`).
-/

set_option autoImplicit false

namespace CarLocator.Rc522

open CarLocator.Library

/-! ### One poll -/

/-- The globals of `rc522.c` that a poll reads or writes: `CT`, `SN`, `Card_flag` and `num`. -/
structure ReaderState where
  ct : Vector UInt8 2
  sn : Vector UInt8 4
  cardFlag : UInt8
  num : Vector UInt8 9
  deriving DecidableEq, Repr

/-- What the chip answers in one poll: to the request before the antenna is switched off and on,
to the one after it, and to the anticollision. -/
structure PollAnswers where
  first : CardAnswers
  request : CardAnswers
  anticoll : CardAnswers

/-- The bytes that an operation hands to the caller, in the caller's array. -/
def handTo {n : Nat} (mem : Vector UInt8 n) (bytes : Bytes) : Vector UInt8 n :=
  Vector.ofFn fun i => bytes.getD i mem[i]

/-- Half a byte as a character, as `TurnID` computes it in place. -/
def turnNibble (n : UInt8) : UInt8 := if n > 9 then n + 55 else n + 48

/-- One round of `TurnID`. -/
def turnIDRound (p : Vector UInt8 4) (num : Vector UInt8 9) (i : Fin 4) : Vector UInt8 9 :=
  (num.set (i.val * 2) (turnNibble (p[i] >>> 4)) (by omega)).set (i.val * 2 + 1)
    (turnNibble (p[i] &&& 0x0F)) (by omega)

/-- `TurnID`. -/
def turnID (p : Vector UInt8 4) (num : Vector UInt8 9) : Vector UInt8 9 :=
  ((List.finRange 4).foldl (turnIDRound p) num).set 8 0

/-- `PICC_REQALL`. -/
def piccReqAll : UInt8 := 0x52

/-- `ReadID`. The status of the first request is overwritten. -/
def readID (a : PollAnswers) (s : ReaderState) : ReaderState × MiStatus :=
  let s := { s with ct := handTo s.ct (pcdRequest a.first piccReqAll).handed }
  let r := pcdRequest a.request piccReqAll
  let s := { s with ct := handTo s.ct r.handed }
  if r.status = .ok then
    let r := pcdAnticoll a.anticoll
    let s := { s with sn := handTo s.sn r.handed }
    if r.status = .ok then
      ({ s with cardFlag := 1, num := turnID s.sn s.num, sn := Vector.replicate 4 0 }, .err)
    else (s, r.status)
  else (s, r.status)

/-! ### What is asked of the polls -/

/-- The card number that the poll reads, if it reads one. -/
def PollAnswers.uid (a : PollAnswers) : Option Bytes :=
  if (pcdRequest a.request piccReqAll).status = .ok ∧ (pcdAnticoll a.anticoll).status = .ok then
    some (pcdAnticoll a.anticoll).handed
  else none

/-- A hexadecimal digit. -/
def hexDigit (d : Nat) : UInt8 := (ascii "0123456789ABCDEF").getD d 0

/-- Bytes in hexadecimal, with a NUL at the end. -/
def hexText (bytes : Bytes) : Bytes :=
  bytes.flatMap (fun b => [hexDigit (b.toNat / 16), hexDigit (b.toNat % 16)]) ++ [0]

/-- The globals, with what the last poll returned and read, and the last card number that was
read. -/
structure PollState where
  reader : ReaderState
  last : Option (MiStatus × Option Bytes)
  uid : Option Bytes

/-- Before the first poll. -/
def PollState.start (reader : ReaderState) : PollState := ⟨reader, none, none⟩

/-- A poll. -/
def pollStep (s : PollState) (a : PollAnswers) : Option PollState :=
  some ⟨(readID a s.reader).1, some ((readID a s.reader).2, a.uid), a.uid.or s.uid⟩

/-- The text that should be in `num`: the last card number, or what was there at first. -/
def numText (num₀ : Vector UInt8 9) (uid : Option Bytes) : Bytes :=
  uid.elim num₀.toList hexText

/-- After a poll: the status and the flag say whether it has read a card, and `num` is the last
card. -/
structure PollRight (num₀ : Vector UInt8 9) (s : PollState) : Prop where
  returned : ∀ status uid, s.last = some (status, uid) → (status = .ok ↔ uid.isSome)
  flag : ∀ status uid, s.last = some (status, uid) → (s.reader.cardFlag = 1 ↔ uid.isSome)
  num : s.reader.num.toList = numText num₀ s.uid

/-- The poll reads no card, and the flag is not left over from one that was read before. -/
def NoCard (s : PollState) (a : PollAnswers) : Prop := a.uid = none ∧ s.reader.cardFlag ≠ 1

/-! ### `TurnID` -/

/-- Half a byte as a character is its hexadecimal digit. -/
theorem turnNibble_eq {n : UInt8} (h : n.toNat < 16) : turnNibble n = hexDigit n.toNat := by
  have hall : ∀ k < 16, turnNibble (UInt8.ofNat k) = hexDigit k := by decide
  have hn := hall n.toNat h
  rwa [UInt8.ofNat_toNat] at hn

/-- The upper half. -/
theorem turnNibble_high (b : UInt8) : turnNibble (b >>> 4) = hexDigit (b.toNat / 16) := by
  have hhigh : (b >>> 4).toNat = b.toNat / 16 := by
    rw [UInt8.toNat_shiftRight]
    exact Nat.shiftRight_eq_div_pow b.toNat 4
  have hlt := b.toNat_lt
  rw [turnNibble_eq (by omega), hhigh]

/-- The lower half. -/
theorem turnNibble_low (b : UInt8) : turnNibble (b &&& 0x0F) = hexDigit (b.toNat % 16) := by
  have hlow : (b &&& 0x0F).toNat = b.toNat % 16 := by
    rw [UInt8.toNat_and]
    exact Nat.and_two_pow_sub_one_eq_mod b.toNat 4
  have hlt := Nat.mod_lt b.toNat (show 16 > 0 by decide)
  rw [turnNibble_eq (by omega), hlow]

/-- **`TurnID`** writes the bytes in hexadecimal, whatever was in `num`. -/
theorem turnID_toList (p : Vector UInt8 4) (num : Vector UInt8 9) :
    (turnID p num).toList = hexText p.toList := by
  have hp : p.toList = [p[0], p[1], p[2], p[3]] := by
    refine List.ext_getElem (by simp) fun i hi _ => ?_
    have hlt : i < 4 := by simpa using hi
    interval_cases i <;> simp
  have hrounds : List.finRange 4 = [0, 1, 2, 3] := by decide
  rw [hp]
  refine List.ext_getElem (by simp [hexText]) fun i hi _ => ?_
  have hlt : i < 9 := by simpa using hi
  interval_cases i <;>
    simp [turnID, hrounds, turnIDRound, hexText, turnNibble_high, turnNibble_low]

/-! ### What one poll does -/

/-- An array that is handed all its bytes. -/
theorem handTo_toList {n : Nat} (mem : Vector UInt8 n) {bytes : Bytes} (h : bytes.length = n) :
    (handTo mem bytes).toList = bytes := by
  refine List.ext_getElem (by simp [h]) fun i hi hi' => ?_
  simp [handTo, List.getElem?_eq_getElem hi']

/-- `PcdAnticoll` hands a card number of four bytes. -/
theorem length_handed_anticoll {a : CardAnswers} (h : (pcdAnticoll a).status = .ok) :
    (pcdAnticoll a).handed.length = 4 := by
  rw [pcdAnticoll] at h ⊢
  split
  · simp [ComBuf.first]
  · rename_i hne
    rw [if_neg hne] at h
    exact absurd h hne

/-- **A poll that reads a card** puts its number into `num` and sets the flag, and returns
`MI_ERR`. -/
theorem readID_card {a : PollAnswers} {uid : Bytes} (h : a.uid = some uid) (s : ReaderState) :
    (readID a s).2 = .err ∧ (readID a s).1.cardFlag = 1
      ∧ (readID a s).1.num.toList = hexText uid := by
  rw [PollAnswers.uid] at h
  split at h
  · rename_i hok
    rw [Option.some.injEq] at h
    have hsn : (handTo s.sn (pcdAnticoll a.anticoll).handed).toList = uid := by
      rw [handTo_toList s.sn (length_handed_anticoll hok.2), h]
    have hnum : (turnID (handTo s.sn (pcdAnticoll a.anticoll).handed) s.num).toList
        = hexText uid := by
      rw [turnID_toList, hsn]
    rw [readID, if_pos hok.1, if_pos hok.2]
    exact ⟨rfl, rfl, hnum⟩
  · cases h

/-- **A poll that reads none** leaves the flag and the text alone. -/
theorem readID_noCard {a : PollAnswers} (h : a.uid = none) (s : ReaderState) :
    (readID a s).2 ≠ .ok ∧ (readID a s).1.cardFlag = s.cardFlag
      ∧ (readID a s).1.num = s.num := by
  rw [PollAnswers.uid] at h
  split at h
  · cases h
  · rename_i hfail
    rw [readID]
    by_cases hrequest : (pcdRequest a.request piccReqAll).status = .ok
    · have hanticoll : (pcdAnticoll a.anticoll).status ≠ .ok := fun hok => hfail ⟨hrequest, hok⟩
      rw [if_pos hrequest, if_neg hanticoll]
      exact ⟨hanticoll, rfl, rfl⟩
    · rw [if_neg hrequest]
      exact ⟨hrequest, rfl, rfl⟩

/-- The text in `num` stays that of the last card. -/
theorem num_pollStep {num₀ : Vector UInt8 9} {s s' : PollState} {a : PollAnswers}
    (h : s.reader.num.toList = numText num₀ s.uid) (hstep : pollStep s a = some s') :
    s'.reader.num.toList = numText num₀ s'.uid := by
  rw [pollStep, Option.some.injEq] at hstep
  subst hstep
  show (readID a s.reader).1.num.toList = numText num₀ (a.uid.or s.uid)
  cases huid : a.uid with
  | none =>
      obtain ⟨-, -, hnum⟩ := readID_noCard huid s.reader
      rw [hnum, h, Option.none_or]
  | some uid =>
      obtain ⟨-, -, hnum⟩ := readID_card huid s.reader
      rw [hnum, Option.some_or]
      rfl

/-- **After any polls `num` is the last card number**, or what was there at first. -/
theorem num_always (reader : ReaderState) (as : List PollAnswers) :
    Always pollStep (fun s => s.reader.num.toList = numText reader.num s.uid)
      (.start reader) as := by
  rw [always_iff]
  intro bs s' _ hrun
  exact reachable_induction (I := fun s => s.reader.num.toList = numText reader.num s.uid) rfl
    (fun _ _ _ h hstep => num_pollStep h hstep) ⟨bs, hrun⟩

/-! ### A run of polls -/

/-- A poll leaves everything right exactly when it reads no card and none was read before. -/
theorem pollRight_step_iff {num₀ : Vector UInt8 9} {s s' : PollState} {a : PollAnswers}
    (h : PollRight num₀ s) (hstep : pollStep s a = some s') :
    PollRight num₀ s' ↔ NoCard s a := by
  have hnum := num_pollStep h.num hstep
  rw [pollStep, Option.some.injEq] at hstep
  subst hstep
  constructor
  · intro h'
    have hreturned := h'.returned _ _ rfl
    have hflag := h'.flag _ _ rfl
    cases huid : a.uid with
    | none =>
        obtain ⟨-, hkept, -⟩ := readID_noCard huid s.reader
        rw [huid] at hflag
        refine ⟨huid, fun hone => ?_⟩
        exact absurd (hflag.mp (hkept.trans hone)) Bool.false_ne_true
    | some uid =>
        -- `MI_ERR` is returned for the card
        obtain ⟨herr, -, -⟩ := readID_card huid s.reader
        rw [huid, herr] at hreturned
        exact absurd (hreturned.mpr rfl) (by decide)
  · rintro ⟨huid, hflag⟩
    obtain ⟨hstatus, hkept, -⟩ := readID_noCard huid s.reader
    exact
      { returned := by
          rintro status uid ⟨⟩
          rw [huid]
          exact iff_of_false hstatus Bool.false_ne_true
        flag := by
          rintro status uid ⟨⟩
          rw [huid]
          exact iff_of_false (fun hone => hflag (hkept.symm.trans hone)) Bool.false_ne_true
        num := hnum }

/-- **The status, the flag and the text are right after every poll of a run exactly when no
poll reads a card**, and the flag is not set before one. -/
theorem pollRight_iff (reader : ReaderState) (as : List PollAnswers) :
    Always pollStep (PollRight reader.num) (.start reader) as ↔
      Guarded pollStep NoCard (.start reader) as := by
  refine always_iff_guarded (fun s a s' h hstep => pollRight_step_iff h hstep) ?_
  exact
    { returned := fun _ _ h => by cases h
      flag := fun _ _ h => by cases h
      num := rfl }

/-- An exchange that the card answers with these bytes. -/
def answering (bytes : Bytes) (h : bytes.length < 65) : CardAnswers :=
  let x : Exchange := ⟨fun _ => 0x30, 0, ⟨bytes.length, h⟩, 0, fun k => bytes.getD k 0⟩
  ⟨x, x, (0, 0), (0, 0), fun _ => 0, 0⟩

/-- Such an exchange completes at the first poll of the interrupt register. -/
theorem answering_completes (bytes : Bytes) (h : bytes.length < 65) :
    (answering bytes h).first.Completes := by
  have hready : ¬ Silent 0x30 0x30 := by decide
  have htimer : (0x30 : UInt8) &&& 0x01 = 0 := by decide
  have herror : (0 : UInt8) &&& 0x1B = 0 := by decide
  exact ⟨⟨0, by decide, fun j hj => absurd hj (Nat.not_lt_zero j), hready, htimer⟩, herror⟩

/-- A poll with a card in the field, of the number `DEADBEEF`. -/
def cardInField : PollAnswers where
  first := answering [0x04, 0x00] (by decide)
  request := answering [0x04, 0x00] (by decide)
  anticoll := answering [0xDE, 0xAD, 0xBE, 0xEF, 0x22] (by decide)

/-- The first poll with a card in the field returns `MI_ERR`. -/
theorem not_pollRight_cardInField :
    ¬ Always pollStep (PollRight (Vector.replicate 9 0))
      (.start ⟨Vector.replicate 2 0, Vector.replicate 4 0, 0, Vector.replicate 9 0⟩)
      [cardInField] := by
  intro h
  have hrequest : (pcdRequest cardInField.request piccReqAll).status = .ok := by
    rw [pcdRequest, cardInField, pcdComMF522_ok (answering_completes _ _)]
    decide
  have hanticoll : (pcdAnticoll cardInField.anticoll).status = .ok := by
    rw [pcdAnticoll, cardInField, pcdComMF522_ok (answering_completes _ _)]
    decide
  have huid : cardInField.uid = some (pcdAnticoll cardInField.anticoll).handed :=
    if_pos ⟨hrequest, hanticoll⟩
  obtain ⟨hnone, -⟩ := (pollRight_step_iff h.1 rfl).mp h.2
  rw [huid] at hnone
  cases hnone

end CarLocator.Rc522
