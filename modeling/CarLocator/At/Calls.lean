import CarLocator.Library.CText

/-!
# `CarLocator.At.Calls`: the calls an operation makes on the AT client

A modem operation is modelled by its result and by the calls it makes, in order. An
`AtCall` carries the arguments the source passes and the answer that call got.

`acceptedData` reads the data bytes the device has accepted off the calls, and
`AnnouncedExactly` compares them with the lengths that were announced before.
-/

set_option autoImplicit false

namespace CarLocator.At

open CarLocator.Library

/-- `RT_ERROR`, `RT_ETIMEOUT` and `RT_ENOMEM`. -/
def rtError : Int := 1
def rtEtimeout : Int := 2
def rtEnomem : Int := 5

/-- The commands of the socket operations. -/
inductive SocketCmd
  /-- `AT+CIPSEND=<socket>,<size>` -/
  | cipsend (socket : Int) (size : Nat)
  /-- the empty command, which only waits for a response -/
  | empty
  deriving DecidableEq, Repr

/-- A call on the AT client or on the response object. -/
inductive AtCall
  | createResp (bufSize lineNum : Nat)
  | deleteResp
  | mutexTake
  | mutexRelease
  | setEndSign (ch : UInt8)
  | respSetInfo (bufSize lineNum : Nat)
  /-- `at_obj_exec_cmd`, and whether it returned `RT_EOK` -/
  | execCmd (cmd : SocketCmd) (ok : Bool)
  /-- `at_client_obj_send`, and the number of bytes it accepted -/
  | objSend (data : Bytes) (accepted : Nat)
  deriving DecidableEq, Repr

/-- The call did not do all it was asked to. -/
def AtCall.Failed : AtCall → Prop
  | .execCmd _ ok => ok = false
  | .objSend data accepted => accepted ≠ data.length
  | _ => False

/-- The data bytes that the device accepts, in order. -/
def acceptedData : List AtCall → Bytes
  | [] => []
  | .objSend data accepted :: calls => data.take accepted ++ acceptedData calls
  | _ :: calls => acceptedData calls

/-- The number of data bytes accepted before the next command, or `none` when there is no
further command. -/
def acceptedBeforeCmd : List AtCall → Option Nat
  | [] => none
  | .execCmd _ _ :: _ => some 0
  | .objSend data accepted :: calls =>
    (acceptedBeforeCmd calls).map ((data.take accepted).length + ·)
  | _ :: calls => acceptedBeforeCmd calls

/-- Every `AT+CIPSEND` announces 1 to `max` bytes, and so many are accepted before the next
command is issued. -/
def AnnouncedExactly (max : Nat) : List AtCall → Prop
  | [] => True
  | .execCmd (.cipsend _ size) _ :: calls =>
    (1 ≤ size ∧ size ≤ max ∧ ∀ n, acceptedBeforeCmd calls = some n → n = size) ∧
      AnnouncedExactly max calls
  | _ :: calls => AnnouncedExactly max calls

/-- The calls of two phases in a row. -/
@[simp]
theorem acceptedData_append (xs ys : List AtCall) :
    acceptedData (xs ++ ys) = acceptedData xs ++ acceptedData ys := by
  induction xs with
  | nil => rfl
  | cons x xs ih => cases x <;> simp [acceptedData, ih]

/-- Calls without a command change nothing about the calls before them. -/
theorem announcedExactly_append {max : Nat} {ys : List AtCall}
    (hnone : acceptedBeforeCmd ys = none) (hys : AnnouncedExactly max ys) (xs : List AtCall) :
    AnnouncedExactly max (xs ++ ys) ↔ AnnouncedExactly max xs := by
  have hbefore : ∀ xs : List AtCall, acceptedBeforeCmd (xs ++ ys) = acceptedBeforeCmd xs := by
    intro xs
    induction xs with
    | nil => exact hnone
    | cons x xs ih => cases x <;> simp [acceptedBeforeCmd, ih]
  induction xs with
  | nil => exact ⟨fun _ => trivial, fun _ => hys⟩
  | cons x xs ih =>
      cases x with
      | execCmd cmd ok =>
          cases cmd with
          | cipsend socket size =>
              simp only [List.cons_append, AnnouncedExactly, hbefore, ih]
          | empty => exact ih
      | _ => exact ih

end CarLocator.At
