import CarLocator.Library.Runs
import Mathlib.Logic.Function.Basic

/-!
# `CarLocator.Aliot.Socket`: the socket of the shell command `a9g`

`client_server.c` keeps one socket descriptor in `g_socket_id`. The shell commands
`a9g connect`, `a9g post` and `a9g close` work on it, one command after the other, while
other threads open and close descriptors of their own. A step is one call of the socket
layer, and a label carries its outcome.

The `log` records the calls of the module. `Owned` reads off it which descriptors the module
has obtained and not closed since, and `OwnUses` says that it sends on and closes no other
ones. `g_socket_id` is set by `a9g connect` alone, so after a successful `a9g close` it
still names the old descriptor. `ownUses_iff` states when this does no harm.
-/

set_option autoImplicit false

namespace CarLocator.Aliot

open CarLocator.Library

/-- Where the shell thread is. -/
inductive ShellPc
  /-- no command is running -/
  | prompt
  /-- `connect_aliot_http_device` is about to call `socket_create` -/
  | create
  /-- it is about to call `socket_connect` -/
  | connect
  deriving DecidableEq, Repr

/-- What comes of `at_closesocket`. -/
inductive CloseOutcome
  | closed
  | failed
  /-- it returns -1 after `free_socket` -/
  | failedFreed
  deriving DecidableEq, Repr

/-- The calls of the module on the socket layer. -/
inductive SocketCall
  /-- `at_socket`, with its result -/
  | socket (d : Int)
  /-- `at_closesocket`, and whether it returned 0 -/
  | closesocket (d : Int) (ok : Bool)
  | send (d : Int)
  deriving DecidableEq, Repr

/-- The module and the descriptors of the system. -/
structure Module where
  pc : ShellPc
  gSocketId : Int
  /-- the descriptors that are open, whoever has opened them -/
  isOpen : Int → Bool
  /-- the calls of the module, newest first -/
  log : List SocketCall

/-- The steps of the shell thread and of the others. -/
inductive ModuleAct
  /-- `a9g connect` up to `socket_create`, with the outcome of its `socket_close` -/
  | connect (outcome : CloseOutcome)
  /-- `socket_create`, with the result of `at_socket` -/
  | create (d : Int)
  /-- `socket_connect`, and whether it succeeds -/
  | connected (ok : Bool)
  /-- `a9g post` -/
  | post
  /-- `a9g close`, with the outcome of its `socket_close` -/
  | close (outcome : CloseOutcome)
  /-- another thread calls `at_socket` -/
  | otherSocket (d : Int)
  /-- another thread calls `at_closesocket` -/
  | otherClose (d : Int) (outcome : CloseOutcome)
  deriving DecidableEq, Repr

/-- Before the first command: no descriptor is held. -/
def moduleInit (isOpen : Int → Bool) : Module :=
  { pc := .prompt, gSocketId := -1, isOpen := isOpen, log := [] }

/-- `at_socket`: a descriptor that is not open, or a negative value. -/
def atSocket (isOpen : Int → Bool) (d : Int) : Option (Int → Bool) :=
  if d < 0 then some isOpen
  else if isOpen d = true then none
  else some (Function.update isOpen d true)

/-- `at_closesocket`: only an open descriptor can be closed or freed. -/
def atClosesocket (isOpen : Int → Bool) (d : Int) : CloseOutcome → Option (Int → Bool)
  | .failed => some isOpen
  | .closed | .failedFreed =>
    if isOpen d = true then some (Function.update isOpen d false) else none

/-- `socket_close`. -/
def socketClose (s : Module) (outcome : CloseOutcome) : Option Module :=
  (atClosesocket s.isOpen s.gSocketId outcome).map fun isOpen =>
    { s with
      isOpen := isOpen
      log := .closesocket s.gSocketId (decide (outcome = .closed)) :: s.log }

/-- `socket_create` in `connect_aliot_http_device`. -/
def socketCreate (s : Module) (d : Int) : Option Module :=
  (atSocket s.isOpen d).map fun isOpen =>
    { s with
      isOpen := isOpen, gSocketId := d, log := .socket d :: s.log
      pc := if d < 0 then .prompt else .connect }

/-- One step. -/
def moduleStep (s : Module) : ModuleAct → Option Module
  | .connect outcome =>
    if s.pc ≠ .prompt then none
    else if s.gSocketId < 0 then some { s with pc := .create }
    else (socketClose s outcome).map fun s => { s with pc := .create }
  | .create d => if s.pc = .create then socketCreate s d else none
  | .connected _ => if s.pc = .connect then some { s with pc := .prompt } else none
  | .post =>
    if s.pc = .prompt then some { s with log := .send s.gSocketId :: s.log } else none
  | .close outcome => if s.pc = .prompt then socketClose s outcome else none
  | .otherSocket d => (atSocket s.isOpen d).map fun isOpen => { s with isOpen := isOpen }
  | .otherClose d outcome =>
    (atClosesocket s.isOpen d outcome).map fun isOpen => { s with isOpen := isOpen }

/-- The module has obtained `d` from `at_socket` and not successfully closed it since. -/
def Owned : List SocketCall → Int → Prop
  | [], _ => False
  | .socket d' :: log, d => d' = d ∨ Owned log d
  | .closesocket d' true :: log, d => d' ≠ d ∧ Owned log d
  | _ :: log, d => Owned log d

/-- A call uses a descriptor of the module. -/
def SocketCall.Right (log : List SocketCall) : SocketCall → Prop
  | .socket _ => True
  | .closesocket d _ | .send d => 0 ≤ d ∧ Owned log d

/-- Every call uses a descriptor of the module. -/
def OwnUses : List SocketCall → Prop
  | [] => True
  | call :: log => call.Right log ∧ OwnUses log

/-- A descriptor was closed since the last `at_socket`. -/
def ClosedSince : List SocketCall → Prop
  | [] | .socket _ :: _ => False
  | .closesocket _ true :: _ => True
  | _ :: log => ClosedSince log

/-- The guard on the steps. `a9g post` and `a9g close` come only while the last `at_socket`
has given a descriptor, and no command comes after a successful `a9g close`. -/
def Holding (s : Module) : ModuleAct → Prop
  | .connect _ => 0 ≤ s.gSocketId → ¬ ClosedSince s.log
  | .post | .close _ => 0 ≤ s.gSocketId ∧ ¬ ClosedSince s.log
  | _ => True

instance decidableOwned (d : Int) : ∀ log, Decidable (Owned log d)
  | [] => isFalse id
  | .socket d' :: log =>
    have : Decidable (Owned log d) := decidableOwned d log
    inferInstanceAs (Decidable (d' = d ∨ Owned log d))
  | .closesocket d' true :: log =>
    have : Decidable (Owned log d) := decidableOwned d log
    inferInstanceAs (Decidable (d' ≠ d ∧ Owned log d))
  | .closesocket _ false :: log => decidableOwned d log
  | .send _ :: log => decidableOwned d log

instance (log : List SocketCall) (call : SocketCall) : Decidable (call.Right log) := by
  cases call <;> unfold SocketCall.Right <;> infer_instance

instance decidableOwnUses : DecidablePred OwnUses
  | [] => isTrue trivial
  | call :: log =>
    have : Decidable (OwnUses log) := decidableOwnUses log
    inferInstanceAs (Decidable (call.Right log ∧ OwnUses log))

/-! ### The steps -/

/-- **What a step does**: it closes the descriptor of the module, gets a new one, sends, or
does neither and leaves the trace and the descriptor alone. -/
theorem moduleStep_cases {s s' : Module} {a : ModuleAct} (hstep : moduleStep s a = some s') :
    (∃ outcome t, socketClose s outcome = some t ∧ s'.log = t.log ∧
      s'.gSocketId = t.gSocketId ∧
      (a = .connect outcome ∧ 0 ≤ s.gSocketId ∨ a = .close outcome)) ∨
    (∃ d, a = .create d ∧ s'.log = .socket d :: s.log ∧ s'.gSocketId = d) ∨
    (a = .post ∧ s'.log = .send s.gSocketId :: s.log ∧ s'.gSocketId = s.gSocketId) ∨
    (Holding s a ∧ s'.log = s.log ∧ s'.gSocketId = s.gSocketId) := by
  cases a with
  | connect outcome =>
      simp only [moduleStep] at hstep
      split at hstep
      · cases hstep
      split at hstep
      · -- Without a descriptor there is nothing to close.
        rename_i hneg
        cases hstep
        exact Or.inr (Or.inr (Or.inr ⟨fun hge => absurd hneg (Int.not_lt.mpr hge), rfl, rfl⟩))
      · rename_i hge
        obtain ⟨t, hclose, rfl⟩ := Option.map_eq_some_iff.mp hstep
        exact Or.inl ⟨outcome, t, hclose, rfl, rfl, Or.inl ⟨rfl, Int.not_lt.mp hge⟩⟩
  | create d =>
      simp only [moduleStep] at hstep
      split at hstep
      · obtain ⟨isOpen, -, rfl⟩ := Option.map_eq_some_iff.mp hstep
        exact Or.inr (Or.inl ⟨d, rfl, rfl, rfl⟩)
      · cases hstep
  | connected ok =>
      simp only [moduleStep] at hstep
      split at hstep
      · cases hstep
        exact Or.inr (Or.inr (Or.inr ⟨trivial, rfl, rfl⟩))
      · cases hstep
  | post =>
      simp only [moduleStep] at hstep
      split at hstep
      · cases hstep
        exact Or.inr (Or.inr (Or.inl ⟨rfl, rfl, rfl⟩))
      · cases hstep
  | close outcome =>
      simp only [moduleStep] at hstep
      split at hstep
      · exact Or.inl ⟨outcome, s', hstep, rfl, rfl, Or.inr rfl⟩
      · cases hstep
  | otherSocket d =>
      obtain ⟨isOpen, -, rfl⟩ := Option.map_eq_some_iff.mp hstep
      exact Or.inr (Or.inr (Or.inr ⟨trivial, rfl, rfl⟩))
  | otherClose d outcome =>
      obtain ⟨isOpen, -, rfl⟩ := Option.map_eq_some_iff.mp hstep
      exact Or.inr (Or.inr (Or.inr ⟨trivial, rfl, rfl⟩))

/-! ### The invariant -/

/-- `g_socket_id` is a descriptor of the module unless it was closed since. -/
def SocketInv (s : Module) : Prop :=
  0 ≤ s.gSocketId → (Owned s.log s.gSocketId ↔ ¬ ClosedSince s.log)

/-- `socket_close` keeps the invariant. -/
theorem SocketInv.socketClose {s s' : Module} (h : SocketInv s) {outcome : CloseOutcome}
    (hstep : socketClose s outcome = some s') : SocketInv s' := by
  obtain ⟨isOpen, -, rfl⟩ := Option.map_eq_some_iff.mp hstep
  intro hge
  -- A close that fails changes nothing but the trace.
  cases hok : decide (outcome = .closed) with
  | true => exact iff_of_false (fun howned => howned.1 rfl) fun hnot => hnot trivial
  | false => exact h hge

/-- Every step keeps the invariant, which is about the trace and the descriptor. -/
theorem socketInv_moduleStep (s : Module) (a : ModuleAct) (s' : Module) (h : SocketInv s)
    (hstep : moduleStep s a = some s') : SocketInv s' := by
  rcases moduleStep_cases hstep with ⟨outcome, t, hclose, hlog, hid, -⟩ | ⟨d, -, hlog, hid⟩ |
    ⟨-, hlog, hid⟩ | ⟨-, hlog, hid⟩ <;> rw [SocketInv, hlog, hid]
  · exact h.socketClose hclose
  · -- A new descriptor is owned and not closed, whatever was before.
    exact fun _ => iff_of_true (Or.inl rfl) id
  · exact h
  · exact h

/-! ### When the module uses its own descriptors -/

/-- The call that `socket_close` makes. -/
theorem ownUses_socketClose {s s' : Module} {outcome : CloseOutcome}
    (h : OwnUses s.log) (hstep : socketClose s outcome = some s') :
    OwnUses s'.log ↔ 0 ≤ s.gSocketId ∧ Owned s.log s.gSocketId := by
  obtain ⟨isOpen, -, rfl⟩ := Option.map_eq_some_iff.mp hstep
  exact and_iff_left h

/-- **The step lemma.** A step uses a descriptor of the module exactly when it meets the
guard. -/
theorem ownUses_moduleStep (s : Module) (a : ModuleAct) (s' : Module) (hinv : SocketInv s)
    (h : OwnUses s.log) (hstep : moduleStep s a = some s') : OwnUses s'.log ↔ Holding s a := by
  have hheld : 0 ≤ s.gSocketId ∧ Owned s.log s.gSocketId ↔
      0 ≤ s.gSocketId ∧ ¬ ClosedSince s.log := and_congr_right hinv
  rcases moduleStep_cases hstep with ⟨outcome, t, hclose, hlog, -, ha⟩ | ⟨d, rfl, hlog, -⟩ |
    ⟨rfl, hlog, -⟩ | ⟨hholding, hlog, -⟩ <;> rw [hlog]
  · rw [ownUses_socketClose h hclose, hheld]
    rcases ha with ⟨rfl, hge⟩ | rfl
    · exact ⟨fun hc _ => hc.2, fun hc => ⟨hge, hc hge⟩⟩
    · exact Iff.rfl
  · exact iff_of_true ⟨trivial, h⟩ trivial
  · show (0 ≤ s.gSocketId ∧ Owned s.log s.gSocketId) ∧ OwnUses s.log ↔ _
    rw [hheld]
    exact and_iff_left h
  · exact iff_of_true h hholding

/-- **The module sends on and closes its own descriptors only, in every state of a run, exactly
when every step of the run meets the guard.** -/
theorem ownUses_iff (isOpen : Int → Bool) (as : List ModuleAct) :
    Always moduleStep (fun s => OwnUses s.log) (moduleInit isOpen) as ↔
      Guarded moduleStep Holding (moduleInit isOpen) as :=
  always_iff_guarded_of_invariant socketInv_moduleStep ownUses_moduleStep
    (fun h => absurd (show (0 : Int) ≤ -1 from h) (by decide)) trivial

/-- After `a9g close`, another thread gets the descriptor, and `a9g connect` closes it. -/
theorem not_ownUses_reused :
    ¬ Always moduleStep (fun s => OwnUses s.log) (moduleInit fun _ => false)
      [.connect .failed, .create 3, .connected true, .close .closed, .otherSocket 3,
        .connect .closed] := by
  decide

end CarLocator.Aliot
