import CarLocator.At.Calls
import CarLocator.Library.Runs
import Mathlib.Logic.Function.Basic

/-!
# `CarLocator.At.Resources`: what an operation holds of the AT client

An operation on the modem creates response objects, takes the lock of the client and sets
its end sign. `resStep` is what one call does to these resources. A call that would be a
misuse has no result: using or deleting an object that is not there, deleting one that the
client still points to, or releasing a lock that is not held.

`CleansUp` is the promise of an operation: its calls have a result, and afterwards the
resources are as before. The operations have one shape, an object that is created, calls
that change nothing (`Neutral`), and the object deleted; `cleansUp_of_neutral` is the rule
for it.
-/

set_option autoImplicit false

namespace CarLocator.At

open CarLocator.Library

/-- How a call of `at_obj_exec_cmd` ends. -/
inductive ExecOutcome
  /-- it returns before it takes the lock, because of the CLI mode -/
  | refused
  /-- `-RT_ERROR` or `-RT_ETIMEOUT` -/
  | failed
  | ok
  deriving DecidableEq, Repr

/-- A call that concerns the resources. The response objects of an operation are numbered. -/
inductive ResCall
  /-- `at_create_resp`, when there is memory -/
  | createResp (obj : Nat)
  /-- the object is read or written -/
  | useResp (obj : Nat)
  | deleteResp (obj : Nat)
  | mutexTake
  | mutexRelease
  | setEndSign (ch : UInt8)
  /-- the assignment to `client->resp`, through which the reader writes -/
  | setClientResp (resp : Option Nat)
  deriving DecidableEq, Repr

/-- The resources, as the thread of the operation sees them. -/
structure Resources where
  /-- the response objects that are there -/
  live : Nat → Bool
  /-- `client->resp` -/
  clientResp : Option Nat
  /-- the hold count of `client->lock` -/
  hold : Nat
  /-- `client->end_sign` -/
  endSign : UInt8

/-- One call, or nothing if it is a misuse. The lock is recursive. -/
def resStep (s : Resources) : ResCall → Option Resources
  | .createResp obj =>
    if s.live obj then none else some { s with live := Function.update s.live obj true }
  | .useResp obj => if s.live obj then some s else none
  | .deleteResp obj =>
    if s.live obj ∧ s.clientResp ≠ some obj then
      some { s with live := Function.update s.live obj false }
    else none
  | .mutexTake => some { s with hold := s.hold + 1 }
  | .mutexRelease => if s.hold = 0 then none else some { s with hold := s.hold - 1 }
  | .setEndSign ch => some { s with endSign := ch }
  | .setClientResp resp => some { s with clientResp := resp }

/-- `at_obj_exec_cmd` with a response object or with `RT_NULL`. -/
def execCalls (resp : Option Nat) : ExecOutcome → List ResCall
  | .refused => []
  | .failed | .ok =>
    [.mutexTake, .setClientResp resp] ++ (resp.map .useResp).toList
      ++ [.setClientResp none, .mutexRelease]

/-- An operation begins without response objects of its own. -/
def Resources.Before (s : Resources) : Prop := (∀ obj, s.live obj = false) ∧ s.clientResp = none

/-- **The promise of an operation.** -/
structure CleansUp (calls : List ResCall) : Prop where
  /-- what was created is deleted, once -/
  once : ∀ obj, calls.count (.deleteResp obj) = calls.count (.createResp obj)
  /-- no call is a misuse, no object is left, the lock is held as often as before, and an end
  sign of 0 is 0 again -/
  restores : ∀ s : Resources, s.Before → ∃ s', run resStep s calls = some s' ∧ s'.Before ∧
    s'.hold = s.hold ∧ (s.endSign = 0 → s'.endSign = 0)

/-- The calls change nothing, in a state with `I`. -/
def Neutral (I : Resources → Prop) (calls : List ResCall) : Prop :=
  ∀ s, I s → run resStep s calls = some s

variable {I : Resources → Prop}

/-! ### Neutral calls -/

theorem Neutral.nil : Neutral I [] := fun _ _ => rfl

/-- Neutral calls in a row. -/
theorem Neutral.append {xs ys : List ResCall} (hx : Neutral I xs) (hy : Neutral I ys) :
    Neutral I (xs ++ ys) := by
  intro s hs
  rw [run_append, hx s hs]
  exact hy s hs

/-- A stronger assumption. -/
theorem Neutral.mono {J : Resources → Prop} {xs : List ResCall} (h : Neutral I xs)
    (hJ : ∀ s, J s → I s) : Neutral J xs := fun s hs => h s (hJ s hs)

/-- Neutral calls, one list for each entry of a trace. -/
theorem Neutral.flatMap {α : Type} {f : α → List ResCall} {xs : List α}
    (h : ∀ x ∈ xs, Neutral I (f x)) : Neutral I (xs.flatMap f) := by
  induction xs with
  | nil => exact Neutral.nil
  | cons x xs ih =>
      rw [List.flatMap_cons]
      exact (h x List.mem_cons_self).append (ih fun y hy => h y (List.mem_cons_of_mem x hy))

/-- The object is there, and the reader does not write to any. -/
def Has (obj : Nat) (s : Resources) : Prop := s.live obj = true ∧ s.clientResp = none

/-- The object is the only one of the operation. -/
def Holding (obj : Nat) (s : Resources) : Prop :=
  (∀ o, s.live o = decide (o = obj)) ∧ s.clientResp = none

/-- The object that is held is there. -/
theorem Holding.has {obj : Nat} {s : Resources} (h : Holding obj s) : Has obj s := by
  refine ⟨?_, h.2⟩
  rw [h.1]
  exact decide_eq_true rfl

/-- Using the object. -/
theorem neutral_useResp (obj : Nat) : Neutral (Has obj) [.useResp obj] := by
  intro s hs
  simp [run, resStep, hs.1]

/-- `at_obj_exec_cmd` leaves the lock and `client->resp` as they were. -/
theorem neutral_execCalls (obj : Nat) (outcome : ExecOutcome) :
    Neutral (Has obj) (execCalls (some obj) outcome) := by
  rintro ⟨live, clientResp, hold, endSign⟩ ⟨hlive, hclient⟩
  change live obj = true at hlive
  change clientResp = none at hclient
  subst hclient
  cases outcome with
  | refused => rfl
  | failed | ok => simp [run, resStep, execCalls, hlive]

/-- The same without a response object. -/
theorem neutral_execCalls_none (outcome : ExecOutcome) :
    Neutral (fun s => s.clientResp = none) (execCalls none outcome) := by
  rintro ⟨live, clientResp, hold, endSign⟩ (rfl : clientResp = none)
  cases outcome with
  | refused => rfl
  | failed | ok => simp [run, resStep, execCalls]

/-! ### Whole operations -/

/-- The ledger of an object: what is there at the end is what was there and was created, less
what was deleted. -/
theorem run_ledger {calls : List ResCall} {s s' : Resources}
    (h : run resStep s calls = some s') (obj : Nat) :
    (s.live obj).toNat + calls.count (.createResp obj)
      = (s'.live obj).toNat + calls.count (.deleteResp obj) := by
  induction calls generalizing s with
  | nil =>
      cases h
      rfl
  | cons call calls ih =>
      rw [run_cons] at h
      obtain ⟨t, hstep, hrun⟩ := Option.bind_eq_some_iff.mp h
      have hrest := ih hrun
      -- A call that is about something else leaves both sides of the ledger alone.
      have hother : t.live obj = s.live obj → call ≠ .createResp obj →
          call ≠ .deleteResp obj → (s.live obj).toNat + (call :: calls).count (.createResp obj)
            = (s'.live obj).toNat + (call :: calls).count (.deleteResp obj) := by
        intro hlive hcreate hdelete
        rw [List.count_cons_of_ne hcreate, List.count_cons_of_ne hdelete, ← hlive]
        exact hrest
      cases call with
      | createResp o =>
          simp only [resStep] at hstep
          split at hstep
          · cases hstep
          · rename_i hnot
            cases hstep
            by_cases ho : o = obj
            · subst ho
              rw [List.count_cons_self, List.count_cons_of_ne (by simp)]
              simp only [Function.update_self, Bool.toNat_true] at hrest
              simp only [Bool.not_eq_true] at hnot
              rw [hnot]
              simp only [Bool.toNat_false]
              omega
            · exact hother (Function.update_of_ne (Ne.symm ho) _ _) (by simpa using ho) (by simp)
      | deleteResp o =>
          simp only [resStep] at hstep
          split at hstep
          · rename_i hlive
            cases hstep
            by_cases ho : o = obj
            · subst ho
              rw [List.count_cons_self, List.count_cons_of_ne (by simp)]
              simp only [Function.update_self, Bool.toNat_false] at hrest
              rw [hlive.1]
              simp only [Bool.toNat_true]
              omega
            · exact hother (Function.update_of_ne (Ne.symm ho) _ _) (by simp) (by simpa using ho)
          · cases hstep
      | useResp o =>
          simp only [resStep] at hstep
          split at hstep
          · cases hstep
            exact hother rfl (by simp) (by simp)
          · cases hstep
      | mutexRelease =>
          simp only [resStep] at hstep
          split at hstep
          · cases hstep
          · cases hstep
            exact hother rfl (by simp) (by simp)
      | mutexTake | setEndSign | setClientResp =>
          cases hstep
          exact hother rfl (by simp) (by simp)

/-- The first part of the promise follows from the second one. -/
theorem cleansUp_of_restores {calls : List ResCall}
    (h : ∀ s : Resources, s.Before → ∃ s', run resStep s calls = some s' ∧ s'.Before ∧
      s'.hold = s.hold ∧ (s.endSign = 0 → s'.endSign = 0)) : CleansUp calls := by
  refine ⟨fun obj => ?_, h⟩
  obtain ⟨s', hrun, hafter, -⟩ := h ⟨fun _ => false, none, 0, 0⟩ ⟨fun _ => rfl, rfl⟩
  have hledger := run_ledger hrun obj
  rw [hafter.1 obj] at hledger
  simp only [Bool.toNat_false, Nat.zero_add] at hledger
  exact hledger.symm

/-- An operation that gets no memory for its response object. -/
theorem cleansUp_nil : CleansUp [] :=
  cleansUp_of_restores fun s hs => ⟨s, rfl, hs, rfl, id⟩

/-- Creating an object and deleting it, around calls that change nothing. -/
theorem run_neutral {obj : Nat} {body : List ResCall} {s : Resources} (hlive : s.live obj = false)
    (hclient : s.clientResp = none)
    (hbody : run resStep { s with live := Function.update s.live obj true } body
      = some { s with live := Function.update s.live obj true }) :
    run resStep s ([.createResp obj] ++ body ++ [.deleteResp obj]) = some s := by
  have hcreate : run resStep s [.createResp obj]
      = some { s with live := Function.update s.live obj true } := by
    simp [run, resStep, hlive]
  rw [run_append, run_append, hcreate, Option.bind_some, hbody, Option.bind_some]
  -- Deleting the object undoes its creation.
  have hback : Function.update (Function.update s.live obj true) obj false = s.live := by
    rw [Function.update_idem, ← hlive, Function.update_eq_self]
  have hdelete : run resStep { s with live := Function.update s.live obj true }
      [.deleteResp obj] = some { s with live := s.live } := by
    have hnot : s.clientResp ≠ some obj := by simp [hclient]
    simp [run, resStep, hnot, hback]
  exact hdelete

/-- The object created first is the only one. -/
theorem holding_of_before {s : Resources} (h : s.Before) (obj : Nat) :
    Holding obj { s with live := Function.update s.live obj true } := by
  refine ⟨fun o => ?_, h.2⟩
  by_cases ho : o = obj
  · subst ho
    simp
  · simp [ho, h.1]

/-- **The rule for an operation**: its object is created and deleted around calls that change
nothing. -/
theorem cleansUp_of_neutral {obj : Nat} {body : List ResCall}
    (h : Neutral (Holding obj) body) :
    CleansUp ([.createResp obj] ++ body ++ [.deleteResp obj]) :=
  cleansUp_of_restores fun s hs =>
    ⟨s, run_neutral (hs.1 obj) hs.2 (h _ (holding_of_before hs obj)), hs, rfl, id⟩

end CarLocator.At
