import Mathlib.Init

/-!
# `CarLocator.Library.Hoare`: programs with a state that may stop

A `Prog ε σ α` reads and writes a state `σ` and returns an `α` or stops with an `ε`: the
body of a C function whose `goto` to the exit is the stop. The state is kept when it
stops. `retry n body` is a loop that runs its body at most `n` times and is left when the
body says so.

`Triple P m Q E` is total: from a state with `P` the program returns with `Q` or stops
with `E`. Its rules follow the shape of the program, `Triple.pure`, `Triple.bind`,
`Triple.ite` and `Triple.retry` with an invariant, and `Triple.conseq` joins what they
leave.
-/

set_option autoImplicit false

namespace CarLocator.Library

variable {ε σ α β : Type}

/-- A program with a state that may stop. -/
abbrev Prog (ε σ α : Type) := ExceptT ε (StateM σ) α

/-- The run of a program from a state. -/
def Prog.exec (m : Prog ε σ α) (s : σ) : Except ε α × σ := m.run.run s

/-- The loop `for (i = 0; i < n; i++)` over a body that may `break`, and whether it did. -/
def retry : Nat → Prog ε σ Bool → Prog ε σ Bool
  | 0, _ => pure false
  | n + 1, body => do
    if ← body then pure true else retry n body

/-- How a run has ended. -/
def Ends (r : Except ε α × σ) (Q : α → σ → Prop) (E : ε → σ → Prop) : Prop :=
  match r with
  | (.ok a, s) => Q a s
  | (.error e, s) => E e s

/-- From a state with `P`, `m` returns with `Q` or stops with `E`. -/
def Triple (P : σ → Prop) (m : Prog ε σ α) (Q : α → σ → Prop) (E : ε → σ → Prop) : Prop :=
  ∀ s, P s → Ends (m.exec s) Q E

variable {P P' : σ → Prop} {Q Q' : α → σ → Prop} {R : β → σ → Prop} {E E' : ε → σ → Prop}

/-- The run of a sequence. -/
theorem exec_bind (m : Prog ε σ α) (f : α → Prog ε σ β) (s : σ) :
    Prog.exec (m >>= f) s
      = match m.exec s with
        | (.ok a, s') => (f a).exec s'
        | (.error e, s') => (.error e, s') := by
  show (match m s with
    | (a, s') => (ExceptT.bindCont f a) s') = _
  unfold Prog.exec
  show _ = match m s with
    | (.ok a, s') => (f a) s'
    | (.error e, s') => (.error e, s')
  rcases m s with ⟨a | a, s'⟩ <;> rfl

/-- What a run has ended with, weakened. -/
theorem Ends.mono {r : Except ε α × σ} (h : Ends r Q E) (hQ : ∀ a s, Q a s → Q' a s)
    (hE : ∀ e s, E e s → E' e s) : Ends r Q' E' := by
  unfold Ends at h ⊢
  split at h
  · exact hQ _ _ h
  · exact hE _ _ h

/-- A weaker beginning, stronger ends. -/
theorem Triple.conseq {m : Prog ε σ α} (h : Triple P m Q E) (hP : ∀ s, P' s → P s)
    (hQ : ∀ a s, Q a s → Q' a s) (hE : ∀ e s, E e s → E' e s) : Triple P' m Q' E' :=
  fun s hs => (h s (hP s hs)).mono hQ hE

/-- `return`. -/
theorem Triple.pure {a : α} (h : ∀ s, P s → Q a s) : Triple P (Pure.pure a : Prog ε σ α) Q E :=
  fun s hs => h s hs

/-- Reading the state. -/
theorem Triple.get : Triple P (MonadState.get : Prog ε σ σ) (fun a s => a = s ∧ P s) E :=
  fun _ hs => ⟨rfl, hs⟩

/-- `goto` to the exit. -/
theorem Triple.throw {e : ε} (h : ∀ s, P s → E e s) :
    Triple P (MonadExcept.throw e : Prog ε σ α) Q E :=
  fun s hs => h s hs

/-- One program after the other. -/
theorem Triple.bind {m : Prog ε σ α} {f : α → Prog ε σ β} (hm : Triple P m Q E)
    (hf : ∀ a, Triple (Q a) (f a) R E) : Triple P (m >>= f) R E := by
  intro s hs
  have hends := hm s hs
  rw [exec_bind]
  unfold Ends at hends
  split at hends
  · exact hf _ _ hends
  · exact hends

/-- A branch. -/
theorem Triple.ite {c : Prop} [Decidable c] {m m' : Prog ε σ α}
    (hm : c → Triple P m Q E) (hm' : ¬ c → Triple P m' Q E) :
    Triple P (if c then m else m') Q E := by
  split
  · exact hm ‹_›
  · exact hm' ‹_›

/-- A loop: its body keeps the invariant `P`, or is left with the end of the loop. -/
theorem Triple.retry {body : Prog ε σ Bool} {L : σ → Prop} (n : Nat)
    (h : Triple P body (fun left s => if left = true then L s else P s) E) :
    Triple P (retry n body) (fun left s => if left = true then L s else P s) E := by
  induction n with
  | zero => exact Triple.pure fun s hs => hs
  | succ n ih =>
      refine Triple.bind h fun left => ?_
      cases left with
      | true => exact Triple.pure fun s hs => hs
      | false => exact ih

end CarLocator.Library
