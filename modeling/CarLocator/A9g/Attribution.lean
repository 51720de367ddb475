import CarLocator.A9g.Connect
import Mathlib.Data.List.TakeWhile

/-!
# `CarLocator.A9g.Attribution`: no result goes to the wrong socket in an orderly run

`Sound` is the invariant of the orderly runs of `connectStep`. It says for every socket, by
the place of its call, what the event word holds for it (`SocketAt`), that only one result
is pending at a time, and that the threads on the suspend list wait for bits that are not
there. A delivered result is in the word with its result bit until its own call takes it
(`Outstanding`), so the call that takes result bits is the one they were sent for.

Every step changes the place of one call and perhaps the word. `Sound.move` reduces a step
to that one socket.
-/

set_option autoImplicit false

namespace CarLocator.A9g

open CarLocator.At
open CarLocator.Kernel
open CarLocator.Library

variable {priority : Nat → Nat}

/-! ### The invariant -/

/-- A result that was delivered and not yet taken: its bits are in the word, with the result
bit, and they tell the truth. -/
structure Outstanding (word : EventSet) (ok fail : Bool) (pending : EventSet) : Prop where
  within : Within pending word
  result : pending &&& connResult ≠ 0
  okCame : pending &&& a9gEventConnOk ≠ 0 → ok = true
  failCame : pending &&& a9gEventConnFail ≠ 0 → fail = true
  /-- a FAIL bit in the word is not a foreign one -/
  shared : word &&& a9gEventConnFail ≠ 0 → fail = true

/-- What the trace and the word hold for socket `i`, by the place of its call. -/
def SocketSound (i : Nat) (word : EventSet) (h : History) : ConnectPc → Prop
  | .idle | .clear _ | .close => h.waiting i = false ∧ h.pending i = 0
  | .command _ | .wait1 _ => h.waiting i = true ∧
      (h.pending i = 0 ∨ Outstanding word (h.ok i) (h.fail i) (h.pending i) ∧
        Within (setEvent i 0) (h.pending i))
  | .wait1Suspended _ => h.waiting i = true ∧ h.pending i = 0
  | .wait2 _ => h.waiting i = true ∧ Outstanding word (h.ok i) (h.fail i) (h.pending i)
  | .wait2Suspended _ => False

/-- `SocketSound` in a state. -/
def SocketAt (s : Connects) (i : Nat) : Prop :=
  SocketSound i s.event.set (history s.log) (s.pc i)

/-- The suspend list holds the calls in their first wait, and their bits are not there. -/
structure ListSound (priority : Nat → Nat) (s : Connects) : Prop where
  mem : ∀ w, w ∈ s.event.suspendThread ↔
    ∃ i retryed, s.pc i = .wait1Suspended retryed ∧ w = connectWaiter priority i
  nodup : (s.event.suspendThread.map (·.thread)).Nodup
  asleep : ∀ w ∈ s.event.suspendThread, w.eventSet &&& s.event.set = 0

/-- The invariant of an orderly run. -/
structure Sound (priority : Nat → Nat) (s : Connects) : Prop where
  attributed : Attributed s.log
  socket : ∀ i, SocketAt s i
  one : ∀ i j, i ≠ j → (history s.log).pending i ≠ 0 → (history s.log).pending j = 0
  range : ∀ i, s.pc i ≠ .idle → i < socketsNum
  list : ListSound priority s

/-- Nothing is pending when the calls start. -/
theorem sound_connectInit (flag : IpcFlag) : Sound priority (connectInit flag) where
  attributed := trivial
  socket := fun _ => ⟨rfl, rfl⟩
  one := fun _ _ _ _ => rfl
  range := fun _ h => absurd rfl h
  list := ⟨fun w => by simp [connectInit, rtEventInit], List.nodup_nil, fun w hw => by cases hw⟩

/-! ### Sockets that do not move -/

/-- The trace says the same about a socket. -/
structure SameAt (h h' : History) (j : Nat) : Prop where
  waiting : h'.waiting j = h.waiting j
  ok : h'.ok j = h.ok j
  fail : h'.fail j = h.fail j
  pending : h'.pending j = h.pending j

theorem SameAt.refl (h : History) (j : Nat) : SameAt h h j := ⟨rfl, rfl, rfl, rfl⟩

theorem SameAt.trans {h h' h'' : History} {j : Nat} (a : SameAt h h' j) (b : SameAt h' h'' j) :
    SameAt h h'' j :=
  ⟨b.waiting.trans a.waiting, b.ok.trans a.ok, b.fail.trans a.fail, b.pending.trans a.pending⟩

/-- An entry about one socket says nothing about another. -/
theorem sameAt_cleared {h : History} {i j : Nat} (hne : j ≠ i) :
    SameAt h (h.after (.cleared i)) j :=
  ⟨Function.update_of_ne hne _ _, Function.update_of_ne hne _ _, Function.update_of_ne hne _ _,
    Function.update_of_ne hne _ _⟩

theorem sameAt_failed {h : History} {i j : Nat} (hne : j ≠ i) :
    SameAt h (h.after (.failed i)) j :=
  ⟨Function.update_of_ne hne _ _, rfl, rfl, Function.update_of_ne hne _ _⟩

theorem sameAt_returned {h : History} {i j : Nat} {r : Int} (hne : j ≠ i) :
    SameAt h (h.after (.returned i r)) j :=
  ⟨Function.update_of_ne hne _ _, rfl, rfl, Function.update_of_ne hne _ _⟩

theorem sameAt_result {h : History} {n j : Nat} {ok : Bool} (hne : j ≠ n) :
    SameAt h (h.after (.result n ok)) j := by
  refine ⟨rfl, Function.update_of_ne hne _ _, Function.update_of_ne hne _ _, ?_⟩
  simp only [History.after]
  split
  · exact Function.update_of_ne hne _ _
  · rfl

/-- Bits of which nothing is pending for a socket. -/
theorem sameAt_took {h : History} {i j : Nat} {bits : EventSet} (hj : h.pending j &&& bits = 0) :
    SameAt h (h.after (.took i bits)) j :=
  ⟨rfl, rfl, rfl, and_not_of_and_eq_zero hj⟩

/-- A delivered result is pending. -/
theorem Outstanding.pending_ne_zero {word pending : EventSet} {ok fail : Bool}
    (h : Outstanding word ok fail pending) : pending ≠ 0 := by
  rintro rfl
  exact h.result BitVec.zero_and

/-- Bits that are added to the word, with a FAIL bit only if it is the truth. -/
def Grows (word word' : EventSet) (fail : Bool) : Prop :=
  Within word word' ∧
    (word' &&& a9gEventConnFail ≠ 0 → word &&& a9gEventConnFail ≠ 0 ∨ fail = true)

theorem Grows.refl (word : EventSet) (fail : Bool) : Grows word word fail :=
  ⟨fun _ => id, Or.inl⟩

/-- A delivered result is still in a word with more bits. -/
theorem Outstanding.grows {word word' pending : EventSet} {ok fail : Bool}
    (h : Outstanding word ok fail pending) (hword : Grows word word' fail) :
    Outstanding word' ok fail pending where
  within := h.within.trans hword.1
  result := h.result
  okCame := h.okCame
  failCame := h.failCame
  shared := fun hfail => (hword.2 hfail).elim h.shared id

/-- What the word holds matters to a socket with a pending result only. -/
theorem SocketSound.grows {i : Nat} {word word' : EventSet} {h : History} {pc : ConnectPc}
    (hs : SocketSound i word h pc)
    (hword : h.pending i ≠ 0 → Grows word word' (h.fail i)) : SocketSound i word' h pc := by
  cases pc with
  | idle | clear _ | close | wait1Suspended _ => exact hs
  | command _ | wait1 _ =>
      refine ⟨hs.1, hs.2.imp_right fun hout => ⟨?_, hout.2⟩⟩
      exact hout.1.grows (hword hout.1.pending_ne_zero)
  | wait2 _ => exact ⟨hs.1, hs.2.grows (hword hs.2.pending_ne_zero)⟩
  | wait2Suspended _ => exact hs

/-- A socket about which the trace says the same. -/
theorem SocketSound.congr {i : Nat} {word : EventSet} {h h' : History} {pc : ConnectPc}
    (hs : SocketSound i word h pc) (hsame : SameAt h h' i) : SocketSound i word h' pc := by
  cases pc <;> simp only [SocketSound, hsame.waiting, hsame.ok, hsame.fail, hsame.pending] at hs ⊢
    <;> exact hs

/-- A socket whose call does not wait has nothing pending. -/
theorem Sound.pending_of_not_waiting {s : Connects} (h : Sound priority s) {i : Nat}
    (hw : (history s.log).waiting i = false) : (history s.log).pending i = 0 := by
  have hs := h.socket i
  unfold SocketAt SocketSound at hs
  split at hs
  all_goals first
    | exact hs.2
    | exact absurd (hw.symm.trans hs.1) (by decide)
    | exact hs.elim

/-- Nothing is pending for a number that is no socket. -/
theorem Sound.pending_of_ge {s : Connects} (h : Sound priority s) {j : Nat}
    (hj : ¬ j < socketsNum) : (history s.log).pending j = 0 := by
  have hs := h.socket j
  have hpc : s.pc j = .idle := by
    by_contra hne
    exact hj (h.range j hne)
  rw [SocketAt, hpc] at hs
  exact hs.2

/-- Nothing is pending elsewhere, if nothing is among the sockets. -/
theorem Sound.pending_elsewhere {s : Connects} (h : Sound priority s) {i : Nat}
    (hothers : ∀ j < socketsNum, j ≠ i → (history s.log).pending j = 0) {j : Nat} (hne : j ≠ i) :
    (history s.log).pending j = 0 := by
  by_cases hj : j < socketsNum
  · exact hothers j hj hne
  · exact h.pending_of_ge hj

/-! ### The step of one socket -/

/-- **A step of one socket.** It is enough to look at that socket, at what its step does to the
word for the others, and at the suspend list. -/
theorem Sound.move {s s' : Connects} (h : Sound priority s) {i : Nat} (hi : i < socketsNum)
    (hattr : Attributed s'.log) (hpc : ∀ j, j ≠ i → s'.pc j = s.pc j)
    (hsame : ∀ j, j ≠ i → SameAt (history s.log) (history s'.log) j)
    (hword : ∀ j, j ≠ i → (history s.log).pending j ≠ 0 →
      Grows s.event.set s'.event.set ((history s.log).fail j))
    (hone : (history s'.log).pending i ≠ 0 → ∀ j, j ≠ i → (history s.log).pending j = 0)
    (hsocket : SocketAt s' i) (hlist : ListSound priority s') : Sound priority s' where
  attributed := hattr
  socket := by
    intro j
    by_cases hj : j = i
    · exact hj ▸ hsocket
    · have hs := (h.socket j).congr (hsame j hj)
      unfold SocketAt
      rw [hpc j hj]
      refine hs.grows ?_
      rw [(hsame j hj).pending, (hsame j hj).fail]
      exact hword j hj
  one := by
    intro j k hjk hpending
    by_cases hk : k = i
    · subst hk
      by_contra hne
      rw [(hsame j hjk).pending, hone hne j hjk] at hpending
      exact hpending rfl
    · rw [(hsame k hk).pending]
      by_cases hj : j = i
      · subst hj
        exact hone hpending k hk
      · rw [(hsame j hj).pending] at hpending
        exact h.one j k hjk hpending
  range := by
    intro j hne
    by_cases hj : j = i
    · exact hj ▸ hi
    · rw [hpc j hj] at hne
      exact h.range j hne
  list := hlist

/-- The suspend list is sound in a state with the same list, the same suspended calls and
fewer bits. -/
theorem ListSound.of_same {s s' : Connects} (h : ListSound priority s)
    (hlist : s'.event.suspendThread = s.event.suspendThread)
    (hpc : ∀ j retryed, s'.pc j = .wait1Suspended retryed ↔ s.pc j = .wait1Suspended retryed)
    (hword : Within s'.event.set s.event.set) : ListSound priority s' where
  mem := by
    intro w
    rw [hlist, h.mem w]
    simp only [hpc]
  nodup := hlist ▸ h.nodup
  asleep := by
    intro w hw
    rw [hlist] at hw
    rw [BitVec.and_comm]
    refine hword.and_eq_zero ?_
    rw [BitVec.and_comm]
    exact h.asleep w hw

/-- A call that moves outside of its first wait suspends and resumes nobody. -/
theorem suspended_iff_of_update {pc : Nat → ConnectPc} {i : Nat} {pc' : ConnectPc}
    (hold : ∀ retryed, pc i ≠ .wait1Suspended retryed)
    (hnew : ∀ retryed, pc' ≠ .wait1Suspended retryed) (j : Nat) (retryed : Bool) :
    Function.update pc i pc' j = .wait1Suspended retryed ↔ pc j = .wait1Suspended retryed := by
  by_cases hj : j = i
  · subst hj
    rw [Function.update_self]
    exact iff_of_false (hnew retryed) (hold retryed)
  · rw [Function.update_of_ne hj]

/-- A call that no longer waits. -/
theorem Sound.stop {s s' : Connects} (h : Sound priority s) {i : Nat} {pc : ConnectPc}
    (hi : i < socketsNum) (hpc : s'.pc = Function.update s.pc i pc)
    (hstop : pc = .idle ∨ pc = .close) (hattr : Attributed s'.log)
    (hsame : ∀ j, j ≠ i → SameAt (history s.log) (history s'.log) j)
    (hword : ∀ j, j ≠ i → (history s.log).pending j ≠ 0 →
      Grows s.event.set s'.event.set ((history s.log).fail j))
    (hwaiting : (history s'.log).waiting i = false) (hpending : (history s'.log).pending i = 0)
    (hlist : ListSound priority s') : Sound priority s' := by
  refine h.move hi hattr (fun j hj => ?_) hsame hword (fun hne => absurd hpending hne) ?_ hlist
  · rw [hpc, Function.update_of_ne hj]
  · unfold SocketAt
    rw [hpc, Function.update_self]
    rcases hstop with rfl | rfl
    · exact ⟨hwaiting, hpending⟩
    · exact ⟨hwaiting, hpending⟩

/-- `__exit` of a call: what it says and what it leaves. -/
theorem Sound.exit {s : Connects} (h : Sound priority s) {i : Nat} {r : Int} (hi : i < socketsNum)
    (hold : ∀ retryed, s.pc i ≠ .wait1Suspended retryed)
    (hright : r = 0 → (history s.log).ok i = true) : Sound priority (s.exit i r) :=
  h.stop hi rfl (Or.inl rfl) ⟨hright, h.attributed⟩ (fun _ hj => sameAt_returned hj)
    (fun _ _ _ => Grows.refl _ _) (Function.update_self _ _ _) (Function.update_self _ _ _)
    (h.list.of_same rfl (suspended_iff_of_update hold fun _ => ConnectPc.noConfusion)
      fun _ => id)

/-- A call that goes on and says nothing. -/
theorem Sound.goTo {s : Connects} (h : Sound priority s) {i : Nat} {pc : ConnectPc}
    (hi : i < socketsNum) (hold : ∀ retryed, s.pc i ≠ .wait1Suspended retryed)
    (hnew : ∀ retryed, pc ≠ .wait1Suspended retryed)
    (hsocket : SocketSound i s.event.set (history s.log) pc) : Sound priority (s.goTo i pc) := by
  refine h.move hi h.attributed (fun j hj => Function.update_of_ne hj _ _)
    (fun j _ => SameAt.refl _ j) (fun _ _ _ => Grows.refl _ _)
    (fun hne j hj => h.one i j (Ne.symm hj) hne) ?_
    (h.list.of_same rfl (suspended_iff_of_update hold hnew) fun _ => id)
  unfold SocketAt
  rw [show (s.goTo i pc).pc i = pc from Function.update_self _ _ _]
  exact hsocket

/-- What a socket says at its place. -/
theorem Sound.socketAt {s : Connects} (h : Sound priority s) {i : Nat} {pc : ConnectPc}
    (hpc : s.pc i = pc) : SocketSound i s.event.set (history s.log) pc :=
  hpc ▸ h.socket i

/-- A call that is under way is a call of a socket. -/
theorem Sound.lt {s : Connects} (h : Sound priority s) {i : Nat} {pc : ConnectPc}
    (hpc : s.pc i = pc) (hne : pc ≠ .idle) : i < socketsNum :=
  h.range i (hpc ▸ hne)

/-- A call at another place is not in its first wait. -/
theorem not_suspended {s : Connects} {i : Nat} {pc : ConnectPc} (hpc : s.pc i = pc)
    (hne : ∀ retryed, pc ≠ .wait1Suspended retryed) (retryed : Bool) :
    s.pc i ≠ .wait1Suspended retryed :=
  hpc ▸ hne retryed

/-! ### The steps -/

/-- The call. -/
theorem sound_call {s s' : Connects} (h : Sound priority s) {i : Nat} {memory : Bool}
    (hstep : connectStep priority s (.call i memory) = some s') : Sound priority s' := by
  rw [connectStep] at hstep
  split at hstep
  case isFalse => cases hstep
  rename_i hcall
  cases hstep
  have hold := not_suspended hcall.2 fun _ => ConnectPc.noConfusion
  have hsocket := h.socketAt hcall.2
  cases memory with
  | true => exact h.goTo hcall.1 hold (fun _ => ConnectPc.noConfusion) hsocket
  | false => exact h.exit hcall.1 hold fun hr => absurd hr (by decide)

/-- `AT+CIPSTART`. -/
theorem sound_command {s s' : Connects} (h : Sound priority s) {i : Nat} {ok : Bool}
    (hstep : connectStep priority s (.command i ok) = some s') : Sound priority s' := by
  rw [connectStep] at hstep
  split at hstep
  case h_2 => cases hstep
  rename_i retryed hpc
  cases hstep
  have hi := h.lt hpc ConnectPc.noConfusion
  have hold := not_suspended hpc fun _ => ConnectPc.noConfusion
  have hsocket := h.socketAt hpc
  cases ok with
  | true => exact h.goTo hi hold (fun _ => ConnectPc.noConfusion) hsocket
  | false => exact h.exit hi hold fun hr => absurd hr (by decide)

/-- `a9g_socket_close` before the retry. -/
theorem sound_close {s s' : Connects} (h : Sound priority s) {i : Nat} {ok : Bool}
    (hstep : connectStep priority s (.close i ok) = some s') : Sound priority s' := by
  rw [connectStep] at hstep
  split at hstep
  case h_2 => cases hstep
  rename_i hpc
  cases hstep
  have hi := h.lt hpc ConnectPc.noConfusion
  have hold := not_suspended hpc fun _ => ConnectPc.noConfusion
  have hsocket := h.socketAt hpc
  cases ok with
  | true => exact h.goTo hi hold (fun _ => ConnectPc.noConfusion) hsocket
  | false => exact h.exit hi hold fun hr => absurd hr (by decide)

/-- The state after a call has taken bits of which nothing is pending for another socket. -/
theorem Sound.take {s : Connects} (h : Sound priority s) {i : Nat} (hi : i < socketsNum)
    (set bits : EventSet) {pc : ConnectPc}
    (hold : ∀ retryed, s.pc i ≠ .wait1Suspended retryed)
    (hnew : ∀ retryed, pc ≠ .wait1Suspended retryed)
    (hothers : ∀ j, j ≠ i → (history s.log).pending j = 0)
    (hsocket : SocketSound i (s.event.set &&& ~~~set)
      ((history s.log).after (.took i bits)) pc) :
    Sound priority (({ s with event := { s.event with set := s.event.set &&& ~~~set } }.note
      (.took i bits)).goTo i pc) := by
  refine h.move hi ⟨fun j _ hj => ?_, h.attributed⟩ (fun j hj => Function.update_of_ne hj _ _)
    (fun j hj => sameAt_took ?_) (fun j hj hne => absurd (hothers j hj) hne)
    (fun _ => hothers) ?_
    (h.list.of_same rfl (suspended_iff_of_update hold hnew) within_and_not)
  · rw [hothers j hj]
    exact BitVec.zero_and
  · rw [hothers j hj]
    exact BitVec.zero_and
  · unfold SocketAt
    rw [show Connects.pc _ i = pc from Function.update_self _ _ _]
    exact hsocket

/-- The call has cleared its event. -/
theorem Sound.cleared {s : Connects} (h : Sound priority s) {i : Nat} {retryed : Bool}
    (hpc : s.pc i = .clear retryed) :
    Sound priority ((s.note (.cleared i)).goTo i (.command retryed)) := by
  have hi := h.lt hpc ConnectPc.noConfusion
  have hold := not_suspended hpc fun _ => ConnectPc.noConfusion
  refine h.move hi ⟨trivial, h.attributed⟩ (fun j hj => Function.update_of_ne hj _ _)
    (fun j hj => sameAt_cleared hj) (fun _ _ _ => Grows.refl _ _) (fun hne => ?_) ?_
    (h.list.of_same rfl (suspended_iff_of_update hold fun _ => ConnectPc.noConfusion)
      fun _ => id)
  · exact absurd (Function.update_self i 0 _) hne
  · unfold SocketAt
    rw [show Connects.pc _ i = .command retryed from Function.update_self _ _ _]
    exact ⟨Function.update_self _ _ _, Or.inl (Function.update_self _ _ _)⟩

/-- Going on where the call is. -/
theorem Connects.goTo_self {s : Connects} {i : Nat} {pc : ConnectPc} (hpc : s.pc i = pc) :
    s.goTo i pc = s := by
  rw [Connects.goTo, ← hpc, Function.update_eq_self]

/-- The clear of the connect event: with the guard it takes nothing of another socket. -/
theorem sound_clear {s s' : Connects} (h : Sound priority s) {i : Nat}
    (hg : Orderly s (.clear i)) (hstep : connectStep priority s (.clear i) = some s') :
    Sound priority s' := by
  rw [connectStep] at hstep
  split at hstep
  case h_2 => cases hstep
  rename_i retryed hpc
  have hi := h.lt hpc ConnectPc.noConfusion
  by_cases hbits : s.event.set &&& setEvent i connResult = 0
  · rw [eventRecv_of_no_wait priority i (setEvent_ne_zero hi connResult) hbits] at hstep
    cases hstep
    exact h.cleared hpc
  · rw [eventRecv_of_ready priority i 0 hbits] at hstep
    cases hstep
    have hothers : ∀ j, j ≠ i → (history s.log).pending j = 0 :=
      fun j hj => h.pending_elsewhere hg hj
    have hs : SocketSound i s.event.set (history s.log) (.clear retryed) := h.socketAt hpc
    have hsocket : SocketSound i (s.event.set &&& ~~~setEvent i connResult)
        ((history s.log).after (.took i (s.event.set &&& setEvent i connResult)))
        (.clear retryed) := by
      refine ⟨hs.1, ?_⟩
      show (history s.log).pending i &&& _ = 0
      rw [hs.2]
      exact BitVec.zero_and
    have htake := h.take hi (setEvent i connResult) (s.event.set &&& setEvent i connResult)
      (not_suspended hpc fun _ => ConnectPc.noConfusion) (fun _ => ConnectPc.noConfusion)
      hothers hsocket
    rw [Connects.goTo_self (by exact hpc)] at htake
    exact htake.cleared hpc

/-- A delivered result after its call has taken the bits of its socket: the result bit is
left. -/
theorem Outstanding.took {word pending code : EventSet} {ok fail : Bool}
    (h : Outstanding word ok fail pending) (hcode : code &&& connResult = 0) :
    Outstanding (word &&& ~~~code) ok fail (pending &&& ~~~(word &&& code)) where
  within := h.within.and_not
  result := by
    refine and_not_and_ne_zero h.result ?_
    rw [BitVec.and_assoc, hcode]
    exact BitVec.and_zero
  okCame := fun hok => h.okCame (within_and_not.and_ne_zero hok)
  failCame := fun hfail => h.failCame (within_and_not.and_ne_zero hfail)
  shared := fun hfail => h.shared (within_and_not.and_ne_zero hfail)

/-- The suspend list after a call has gone to its first wait. -/
theorem ListSound.suspend {s s' : Connects} (h : ListSound priority s) {i : Nat} {retryed : Bool}
    (hold : ∀ retryed, s.pc i ≠ .wait1Suspended retryed)
    (hbits : s.event.set &&& setEvent i 0 = 0)
    (hlist : s'.event.suspendThread = rtIpcListSuspend s.event.flag s.event.suspendThread
      (connectWaiter priority i))
    (hpc : s'.pc = Function.update s.pc i (.wait1Suspended retryed))
    (hset : s'.event.set = s.event.set) : ListSound priority s' where
  mem := by
    intro w
    rw [hlist, mem_rtIpcListSuspend, h.mem w, hpc]
    constructor
    · rintro (rfl | ⟨j, r, hj, rfl⟩)
      · exact ⟨i, retryed, Function.update_self _ _ _, rfl⟩
      · have hne : j ≠ i := by
          rintro rfl
          exact hold r hj
        exact ⟨j, r, (Function.update_of_ne hne _ _).trans hj, rfl⟩
    · rintro ⟨j, r, hj, rfl⟩
      by_cases hne : j = i
      · exact Or.inl (hne ▸ rfl)
      · rw [Function.update_of_ne hne] at hj
        exact Or.inr ⟨j, r, hj, rfl⟩
  nodup := by
    have hperm := (rtIpcListSuspend_perm s.event.flag s.event.suspendThread
      (connectWaiter priority i)).map (·.thread)
    rw [hlist, hperm.nodup_iff]
    refine List.nodup_cons.mpr ⟨fun hmem => ?_, h.nodup⟩
    obtain ⟨w, hw, hthread⟩ := List.mem_map.mp hmem
    obtain ⟨j, r, hj, rfl⟩ := (h.mem w).mp hw
    have hji : j = i := hthread
    exact hold r (hji ▸ hj)
  asleep := by
    intro w hw
    rw [hlist, mem_rtIpcListSuspend] at hw
    rw [hset]
    rcases hw with rfl | hw
    · show setEvent i 0 &&& s.event.set = 0
      rw [BitVec.and_comm]
      exact hbits
    · exact h.asleep w hw

/-- The first wait: with the guard it takes the bits of the call's own result. -/
theorem sound_wait1 {s s' : Connects} (h : Sound priority s) {i : Nat}
    (hg : Orderly s (.wait1 i)) (hstep : connectStep priority s (.wait1 i) = some s') :
    Sound priority s' := by
  rw [connectStep] at hstep
  split at hstep
  case h_2 => cases hstep
  rename_i retryed hpc
  have hi := h.lt hpc ConnectPc.noConfusion
  have hold := not_suspended hpc fun _ => ConnectPc.noConfusion
  obtain ⟨hwaiting, hout⟩ : SocketSound i s.event.set (history s.log) (.wait1 retryed) :=
    h.socketAt hpc
  by_cases hbits : s.event.set &&& setEvent i 0 = 0
  · rw [eventRecv_of_not_ready priority hi hbits] at hstep
    cases hstep
    have hzero : (history s.log).pending i = 0 := by
      refine hout.resolve_right fun hout => ?_
      refine (hout.2.trans hout.1.within).and_ne_zero ?_ hbits
      rw [BitVec.and_self]
      exact (setEvent_zero hi).1
    refine h.move hi h.attributed (fun j hj => Function.update_of_ne hj _ _)
      (fun j _ => SameAt.refl _ j) (fun _ _ _ => Grows.refl _ _)
      (fun hne => absurd hzero hne) ?_ (h.list.suspend hold hbits rfl rfl rfl)
    unfold SocketAt
    rw [show Connects.pc _ i = .wait1Suspended retryed from Function.update_self _ _ _]
    exact ⟨hwaiting, hzero⟩
  · rw [eventRecv_of_ready priority i _ hbits] at hstep
    cases hstep
    have hpending : (history s.log).pending i ≠ 0 := hg hbits
    have hout := hout.resolve_left hpending
    exact h.take hi (setEvent i 0) _ hold (fun _ => ConnectPc.noConfusion)
      (fun j hj => h.one i j (Ne.symm hj) hpending)
      ⟨hwaiting, hout.1.took (setEvent_zero hi).2⟩

/-- The result bits are the OK bit and the FAIL bit. -/
theorem and_connResult_ne_zero {x : EventSet} :
    x &&& connResult ≠ 0 ↔ x &&& a9gEventConnOk ≠ 0 ∨ x &&& a9gEventConnFail ≠ 0 := by
  rw [BitVec.and_comm x, connResult, or_and_ne_zero, BitVec.and_comm x, BitVec.and_comm x]

/-- What the second wait takes has the FAIL bit when the word has. -/
theorem and_connResult_and_fail (x : EventSet) :
    x &&& connResult &&& a9gEventConnFail = x &&& a9gEventConnFail := by
  rw [BitVec.and_assoc, show connResult &&& a9gEventConnFail = a9gEventConnFail by decide]

/-- Check result, after the second wait has taken the result bits of its own result. -/
theorem sound_checkResult {s : Connects} (h : Sound priority s) {i : Nat} {retryed : Bool}
    (hpc : s.pc i = .wait2 retryed) :
    Sound priority ((Connects.note { s with event :=
      { s.event with set := s.event.set &&& ~~~connResult } }
        (.took i (s.event.set &&& connResult))).checkResult i retryed
          (s.event.set &&& connResult)) := by
  have hi := h.lt hpc ConnectPc.noConfusion
  have hold := not_suspended hpc fun _ => ConnectPc.noConfusion
  obtain ⟨-, hout⟩ : SocketSound i s.event.set (history s.log) (.wait2 retryed) :=
    h.socketAt hpc
  have hothers : ∀ j, j ≠ i → (history s.log).pending j = 0 :=
    fun j hj => h.one i j (Ne.symm hj) hout.pending_ne_zero
  have hnone : ∀ j, j ≠ i → (history s.log).pending j &&& (s.event.set &&& connResult) = 0 := by
    intro j hj
    rw [hothers j hj]
    exact BitVec.zero_and
  have hstop : ∀ {s' : Connects} {pc : ConnectPc}, s'.event.set = s.event.set &&& ~~~connResult →
      s'.event.suspendThread = s.event.suspendThread → s'.pc = Function.update s.pc i pc →
      pc = .idle ∨ pc = .close → Attributed s'.log →
      (∀ j, j ≠ i → SameAt (history s.log) (history s'.log) j) →
      (history s'.log).waiting i = false → (history s'.log).pending i = 0 → Sound priority s' := by
    intro s' pc hset hlist hpc' hstopped hattr hsame hwaiting hpending
    refine h.stop hi hpc' hstopped hattr hsame (fun j hj hne => absurd (hothers j hj) hne)
      hwaiting hpending (h.list.of_same hlist ?_ (hset ▸ within_and_not))
    rw [hpc']
    refine suspended_iff_of_update hold fun _ => ?_
    rcases hstopped with rfl | rfl
    · exact ConnectPc.noConfusion
    · exact ConnectPc.noConfusion
  rw [Connects.checkResult, and_connResult_and_fail]
  split
  case isTrue hfail =>
    -- a FAIL bit in the word is the call's own one
    have hcame : (history s.log).fail i = true := hout.shared hfail
    split
    case isTrue =>
      exact hstop rfl rfl rfl (Or.inr rfl) ⟨hcame, fun j _ => hnone j, h.attributed⟩
        (fun j hj => (sameAt_took (hnone j hj)).trans (sameAt_failed hj))
        (Function.update_self _ _ _) (Function.update_self _ _ _)
    case isFalse =>
      exact hstop rfl rfl rfl (Or.inl rfl)
        ⟨fun hr => absurd hr (by decide), hcame, fun j _ => hnone j, h.attributed⟩
        (fun j hj => ((sameAt_took (hnone j hj)).trans (sameAt_failed hj)).trans
          (sameAt_returned hj)) (Function.update_self _ _ _) (Function.update_self _ _ _)
  case isFalse hfail =>
    have hcame : (history s.log).ok i = true := by
      rcases and_connResult_ne_zero.mp hout.result with hok | hpending
      · exact hout.okCame hok
      · exact absurd (hout.within.and_ne_zero hpending) hfail
    exact hstop rfl rfl rfl (Or.inl rfl) ⟨fun _ => hcame, fun j _ => hnone j, h.attributed⟩
      (fun j hj => (sameAt_took (hnone j hj)).trans (sameAt_returned hj))
      (Function.update_self _ _ _) (Function.update_self _ _ _)

/-- The second wait: the result is there. -/
theorem sound_wait2 {s s' : Connects} (h : Sound priority s) {i : Nat}
    (hstep : connectStep priority s (.wait2 i) = some s') : Sound priority s' := by
  rw [connectStep] at hstep
  split at hstep
  case h_2 => cases hstep
  rename_i retryed hpc
  have hout : SocketSound i s.event.set (history s.log) (.wait2 retryed) := h.socketAt hpc
  have hbits : s.event.set &&& connResult ≠ 0 := hout.2.within.and_ne_zero hout.2.result
  rw [eventRecv_of_ready priority i _ hbits] at hstep
  cases hstep
  exact sound_checkResult h hpc

/-! ### A result line -/

/-- The FAIL bit is sent for a FAIL. -/
theorem eq_false_of_sent {n : Nat} (hn : n < socketsNum) {ok : Bool}
    (h : setEvent n (connEvent ok) &&& a9gEventConnFail ≠ 0) : ok = false := by
  rw [setEvent_eq, or_and_ne_zero] at h
  have hbit := h.resolve_left (absurd (setEvent_zero_and hn within_or_right))
  cases ok with
  | false => rfl
  | true => exact absurd hbit (by decide)

/-- The OK bit is sent for an OK. -/
theorem eq_true_of_sent {n : Nat} (hn : n < socketsNum) {ok : Bool}
    (h : setEvent n (connEvent ok) &&& a9gEventConnOk ≠ 0) : ok = true := by
  rw [setEvent_eq, or_and_ne_zero] at h
  have hbit := h.resolve_left (absurd (setEvent_zero_and hn within_or_left))
  cases ok with
  | true => rfl
  | false => exact absurd hbit (by decide)

/-- The result of a line that was sent while nothing foreign is in the word. -/
theorem outstanding_of_sent {n : Nat} (hn : n < socketsNum) {word pending : EventSet}
    {okCame failCame ok : Bool}
    (hout : pending = 0 ∨ Outstanding word okCame failCame pending)
    (hshared : ok = true → word &&& a9gEventConnFail ≠ 0 → failCame = true) :
    Outstanding (word ||| setEvent n (connEvent ok)) (okCame || ok) (failCame || !ok)
      (pending ||| setEvent n (connEvent ok)) where
  within := by
    refine Within.or ?_ within_or_right
    rcases hout with rfl | hout
    · exact within_zero
    · exact hout.within.trans within_or_left
  result := by
    rw [setEvent_eq]
    have hbit : connEvent ok &&& connResult ≠ 0 := by
      cases ok <;> decide
    exact or_and_ne_zero.mpr (Or.inr (or_and_ne_zero.mpr (Or.inr hbit)))
  okCame := by
    intro h
    rcases or_and_ne_zero.mp h with h | h
    · rcases hout with rfl | hout
      · exact absurd BitVec.zero_and h
      · rw [hout.okCame h, Bool.true_or]
    · rw [eq_true_of_sent hn h, Bool.or_true]
  failCame := by
    intro h
    rcases or_and_ne_zero.mp h with h | h
    · rcases hout with rfl | hout
      · exact absurd BitVec.zero_and h
      · rw [hout.failCame h, Bool.true_or]
    · rw [eq_false_of_sent hn h, Bool.not_false, Bool.or_true]
  shared := by
    intro h
    rcases or_and_ne_zero.mp h with hword | hsent
    · cases ok with
      | true => rw [hshared rfl hword, Bool.true_or]
      | false => exact Bool.or_true _
    · rw [eq_false_of_sent hn hsent, Bool.not_false, Bool.or_true]

/-- A thread that asks for bits that are not there is not resumed. -/
theorem connectWaiter_satisfied {i : Nat} {set : EventSet} (h : setEvent i 0 &&& set = 0) :
    (connectWaiter priority i).satisfied set = none := by
  rw [Waiter.satisfied_or rfl]
  exact if_neg (not_not.mpr h)

/-- Who is on the list. -/
theorem Sound.waiter {s : Connects} (h : Sound priority s) {w : Waiter Nat}
    (hw : w ∈ s.event.suspendThread) :
    ∃ j < socketsNum, w = connectWaiter priority j ∧ setEvent j 0 &&& s.event.set = 0 := by
  have hasleep := h.list.asleep w hw
  obtain ⟨j, r, hj, rfl⟩ := (h.list.mem w).mp hw
  exact ⟨j, h.lt hj ConnectPc.noConfusion, rfl, hasleep⟩

/-- A suspended thread whose number has no bit in common with `n` sleeps on after a line for
socket `n`. -/
theorem Sound.asleep_of_sent {s : Connects} (h : Sound priority s) {n : Nat} (ok : Bool)
    {w : Waiter Nat} (hw : w ∈ s.event.suspendThread)
    (hcode : w.eventSet &&& setEvent n 0 = 0) :
    w.eventSet &&& (s.event.set ||| setEvent n (connEvent ok)) = 0 := by
  obtain ⟨j, hj, rfl, hasleep⟩ := h.waiter hw
  have hbit := setEvent_zero_and hj (within_connEvent ok)
  rw [BitVec.and_comm] at hasleep hcode hbit ⊢
  rw [setEvent_eq]
  exact or_and_eq_zero hasleep (or_and_eq_zero hcode hbit)

/-- What is pending after a line for a waiting socket. -/
theorem pending_of_result {h : History} {n : Nat} (hw : h.waiting n = true) (ok : Bool) :
    (h.after (.result n ok)).pending n = h.pending n ||| setEvent n (connEvent ok) := by
  simp only [History.after]
  rw [if_pos hw, Function.update_self]

/-- A line for a socket that does not wait leaves nothing pending. -/
theorem pending_of_unasked {h : History} {n : Nat} (hw : h.waiting n = false) (ok : Bool) :
    (h.after (.result n ok)).pending = h.pending := by
  simp only [History.after]
  rw [if_neg (Bool.not_eq_true _ ▸ hw)]

/-- The result of a line for a waiting socket is delivered. -/
theorem outstanding_of_result {h : History} {n : Nat} (hn : n < socketsNum)
    (hw : h.waiting n = true) {word : EventSet} {ok : Bool}
    (hout : h.pending n = 0 ∨ Outstanding word (h.ok n) (h.fail n) (h.pending n))
    (hshared : ok = true → word &&& a9gEventConnFail ≠ 0 → h.fail n = true) :
    Outstanding (word ||| setEvent n (connEvent ok)) ((h.after (.result n ok)).ok n)
      ((h.after (.result n ok)).fail n) ((h.after (.result n ok)).pending n) := by
  rw [pending_of_result hw,
    show (h.after (.result n ok)).ok n = (h.ok n || ok) from Function.update_self _ _ _,
    show (h.after (.result n ok)).fail n = (h.fail n || !ok) from Function.update_self _ _ _]
  exact outstanding_of_sent hn hout hshared

/-- A line for a waiting socket whose call is not suspended. -/
theorem SocketSound.sent {n : Nat} (hn : n < socketsNum) {word : EventSet} {h : History}
    {pc : ConnectPc} {ok : Bool} (hs : SocketSound n word h pc) (hw : h.waiting n = true)
    (hawake : ∀ r, pc ≠ .wait1Suspended r)
    (hshared : ok = true → word &&& a9gEventConnFail ≠ 0 → h.fail n = true) :
    SocketSound n (word ||| setEvent n (connEvent ok)) (h.after (.result n ok)) pc := by
  cases pc with
  | idle | clear _ | close => exact absurd (hw.symm.trans hs.1) (by decide)
  | command _ | wait1 _ =>
      have hout := outstanding_of_result hn hw (hs.2.imp_right And.left) hshared
      refine ⟨hw, Or.inr ⟨hout, ?_⟩⟩
      rw [pending_of_result hw, setEvent_eq n (connEvent ok)]
      exact within_or_left.trans within_or_right
  | wait2 _ => exact ⟨hw, outstanding_of_result hn hw (Or.inr hs.2) hshared⟩
  | wait1Suspended r => exact absurd rfl (hawake r)
  | wait2Suspended _ => exact hs

/-- A line for a socket that does not wait. -/
theorem SocketSound.unasked {n : Nat} {word word' : EventSet} {h : History} {pc : ConnectPc}
    {ok : Bool} (hs : SocketSound n word h pc) (hw : h.waiting n = false) :
    SocketSound n word' (h.after (.result n ok)) pc := by
  cases pc with
  | idle | clear _ | close =>
      refine ⟨hw, ?_⟩
      rw [pending_of_unasked hw]
      exact hs.2
  | command _ | wait1 _ | wait2 _ | wait1Suspended _ =>
      exact absurd (hw.symm.trans hs.1) (by decide)
  | wait2Suspended _ => exact hs

/-- A line for a socket whose call is not suspended. -/
theorem sound_urc_awake {s : Connects} (h : Sound priority s) {n : Nat} (hn : n < socketsNum)
    {ok : Bool} (hg : Orderly s (.urc n ok)) (hawake : ∀ r, s.pc n ≠ .wait1Suspended r) :
    rtEventSend s.event (setEvent n (connEvent ok))
        = ({ s.event with set := s.event.set ||| setEvent n (connEvent ok) }, []) ∧
      Sound priority (Connects.note { s with event := { s.event with
        set := s.event.set ||| setEvent n (connEvent ok) } } (.result n ok)) := by
  -- the thread is not on the list, so the guard speaks about the whole list
  have hthread : ∀ w ∈ s.event.suspendThread, w.thread ≠ n := by
    rintro w hw rfl
    obtain ⟨j, r, hj, rfl⟩ := (h.list.mem w).mp hw
    exact hawake r hj
  have hall : s.event.suspendThread.takeWhile (·.thread ≠ n) = s.event.suspendThread := by
    rw [List.takeWhile_eq_self_iff]
    exact fun w hw => decide_eq_true (hthread w hw)
  obtain ⟨hcodes, hresult⟩ := hg
  rw [hall] at hcodes
  have hasleep : ∀ w ∈ s.event.suspendThread,
      w.eventSet &&& (s.event.set ||| setEvent n (connEvent ok)) = 0 :=
    fun w hw => h.asleep_of_sent ok hw (hcodes w hw)
  refine ⟨rtEventSend_of_none (setEvent_ne_zero hn _) fun w hw => ?_, ?_⟩
  · have hbits := hasleep w hw
    obtain ⟨j, -, rfl, -⟩ := h.waiter hw
    exact connectWaiter_satisfied hbits
  have hlist : ListSound priority (Connects.note { s with event := { s.event with
      set := s.event.set ||| setEvent n (connEvent ok) } } (.result n ok)) :=
    ⟨h.list.mem, h.list.nodup, hasleep⟩
  cases hw : (history s.log).waiting n with
  | true =>
      rw [hw, if_pos rfl] at hresult
      have hothers : ∀ j, j ≠ n → (history s.log).pending j = 0 :=
        fun j hj => h.pending_elsewhere hresult.1 hj
      refine h.move hn ⟨trivial, h.attributed⟩ (fun _ _ => rfl) (fun j hj => sameAt_result hj)
        (fun j hj hne => absurd (hothers j hj) hne) (fun _ => hothers) ?_ hlist
      exact (h.socket n).sent hn hw hawake hresult.2
  | false =>
      rw [hw, if_neg Bool.false_ne_true] at hresult
      have hzero := h.pending_of_not_waiting hw
      refine h.move hn ⟨trivial, h.attributed⟩ (fun _ _ => rfl) (fun j hj => sameAt_result hj)
        (fun j hj hne => ⟨within_or_left, fun hfail => ?_⟩) (fun hne => absurd ?_ hne) ?_ hlist
      · refine (or_and_ne_zero.mp hfail).imp_right fun hsent => ?_
        by_cases hj : j < socketsNum
        · exact hresult (eq_false_of_sent hn hsent) j hj hne
        · exact absurd (h.pending_of_ge hj) hne
      · show ((history s.log).after (.result n ok)).pending n = 0
        rw [pending_of_unasked hw]
        exact hzero
      · exact (h.socket n).unasked hw

/-- The suspend list after the call for socket `i` has left it. -/
theorem ListSound.leave {s s' : Connects} (h : ListSound priority s) {i : Nat} {pc : ConnectPc}
    (hpc : s'.pc = Function.update s.pc i pc) (hnew : ∀ r, pc ≠ .wait1Suspended r)
    (hsub : s'.event.suspendThread.Sublist s.event.suspendThread)
    (hmem : ∀ w ∈ s.event.suspendThread, w ∈ s'.event.suspendThread ↔ w.thread ≠ i)
    (hasleep : ∀ w ∈ s'.event.suspendThread, w.eventSet &&& s'.event.set = 0) :
    ListSound priority s' where
  mem := by
    intro w
    rw [hpc]
    constructor
    · intro hw
      have hold := hsub.subset hw
      have hthread := (hmem w hold).mp hw
      obtain ⟨j, r, hj, rfl⟩ := (h.mem w).mp hold
      exact ⟨j, r, (Function.update_of_ne hthread _ _).trans hj, rfl⟩
    · rintro ⟨j, r, hj, rfl⟩
      have hne : j ≠ i := by
        rintro rfl
        rw [Function.update_self] at hj
        exact hnew r hj
      rw [Function.update_of_ne hne] at hj
      exact (hmem _ ((h.mem _).mpr ⟨j, r, hj, rfl⟩)).mpr hne
  nodup := h.nodup.sublist (hsub.map _)
  asleep := hasleep

/-- A thread on the list, with those ahead of it and those behind it. -/
theorem ListSound.split {s : Connects} (h : ListSound priority s) {n : Nat} {r : Bool}
    (hpc : s.pc n = .wait1Suspended r) :
    ∃ l₁ l₂, s.event.suspendThread = l₁ ++ connectWaiter priority n :: l₂ ∧
      s.event.suspendThread.takeWhile (·.thread ≠ n) = l₁ ∧
      ∀ w ∈ l₁ ++ l₂, w.thread ≠ n := by
  obtain ⟨l₁, l₂, hlist⟩ := List.append_of_mem ((h.mem _).mpr ⟨n, r, hpc, rfl⟩)
  have hnodup := h.nodup
  rw [hlist, List.map_append, List.map_cons, List.nodup_middle, ← List.map_append,
    List.nodup_cons] at hnodup
  have hne : ∀ w ∈ l₁ ++ l₂, w.thread ≠ n :=
    fun w hw heq => hnodup.1 (List.mem_map.mpr ⟨w, hw, heq⟩)
  refine ⟨l₁, l₂, hlist, ?_, hne⟩
  rw [hlist, List.takeWhile_append_of_pos, List.takeWhile_cons_of_neg, List.append_nil]
  · simp [connectWaiter]
  · exact fun w hw => decide_eq_true (hne w (List.mem_append_left _ hw))

/-- Every suspended thread sleeps on after a line for socket `n` whose own bits were taken. -/
theorem Sound.asleep_of_taken {s : Connects} (h : Sound priority s) {n : Nat} {ok : Bool}
    {w : Waiter Nat} (hw : w ∈ s.event.suspendThread) :
    w.eventSet &&& ((s.event.set ||| setEvent n (connEvent ok)) &&& ~~~setEvent n 0) = 0 := by
  obtain ⟨j, hj, rfl, hasleep⟩ := h.waiter hw
  have hbit := setEvent_zero_and hj (within_connEvent ok)
  rw [BitVec.and_comm] at hasleep hbit ⊢
  rw [setEvent_eq n (connEvent ok)]
  exact within_or_and_not.and_eq_zero (or_and_eq_zero hasleep hbit)

/-- A line for a socket whose call is suspended: it wakes this call only. -/
theorem sound_urc_suspended {s : Connects} (h : Sound priority s) {n : Nat}
    {ok r : Bool} (hg : Orderly s (.urc n ok)) (hpc : s.pc n = .wait1Suspended r) :
    ∃ l₁ l₂, rtEventSend s.event (setEvent n (connEvent ok))
        = ({ s.event with
            set := (s.event.set ||| setEvent n (connEvent ok)) &&& ~~~setEvent n 0
            suspendThread := l₁ ++ l₂ }, [(n, setEvent n 0)]) ∧
      Sound priority (((Connects.note { s with event := { s.event with
        set := (s.event.set ||| setEvent n (connEvent ok)) &&& ~~~setEvent n 0
        suspendThread := l₁ ++ l₂ } } (.result n ok)).note (.took n (setEvent n 0))).goTo n
          (.wait2 r)) := by
  have hn := h.lt hpc ConnectPc.noConfusion
  obtain ⟨l₁, l₂, hlist, hahead, hne⟩ := h.list.split hpc
  obtain ⟨hcodes, hresult⟩ := hg
  obtain ⟨hwaiting, hzero⟩ : SocketSound n s.event.set (history s.log) (.wait1Suspended r) :=
    h.socketAt hpc
  rw [hahead] at hcodes
  rw [hwaiting, if_pos rfl] at hresult
  have hothers : ∀ j, j ≠ n → (history s.log).pending j = 0 :=
    fun j hj => h.pending_elsewhere hresult.1 hj
  have hcode : Within (setEvent n 0) (s.event.set ||| setEvent n (connEvent ok)) := by
    rw [setEvent_eq n (connEvent ok)]
    exact within_or_left.trans within_or_right
  have hmem : ∀ w ∈ l₁ ++ l₂, w ∈ s.event.suspendThread := by
    intro w hw
    rw [hlist]
    exact (List.sublist_cons_self _ l₂).append_left l₁ |>.subset hw
  have hasleep : ∀ w ∈ l₁ ++ l₂,
      w.eventSet &&& ((s.event.set ||| setEvent n (connEvent ok)) &&& ~~~setEvent n 0) = 0 :=
    fun w hw => h.asleep_of_taken (hmem w hw)
  refine ⟨l₁, l₂, ?_, ?_⟩
  · have hrecved : setEvent n 0 &&& (s.event.set ||| setEvent n (connEvent ok))
        = setEvent n 0 := hcode.and_eq
    have hsatisfied : (connectWaiter priority n).satisfied
        (s.event.set ||| setEvent n (connEvent ok)) = some (setEvent n 0) := by
      rw [Waiter.satisfied_or rfl, show (connectWaiter priority n).eventSet = setEvent n 0 from rfl,
        hrecved, if_pos (setEvent_zero hn).1]
    have hleaves : (connectWaiter priority n).leaves (setEvent n 0)
        (s.event.set ||| setEvent n (connEvent ok))
          = (s.event.set ||| setEvent n (connEvent ok)) &&& ~~~setEvent n 0 :=
      Waiter.leaves_or rfl _ _
    rw [rtEventSend_of_one (setEvent_ne_zero hn _) hlist ?_ hsatisfied ?_, hleaves]
    · rfl
    · intro w hw
      have hall := hmem w (List.mem_append_left _ hw)
      have hbits := h.asleep_of_sent ok hall (hcodes w hw)
      obtain ⟨j, -, rfl, -⟩ := h.waiter hall
      exact connectWaiter_satisfied hbits
    · intro w hw
      have hbits := hasleep w (List.mem_append_right _ hw)
      obtain ⟨j, -, rfl, -⟩ := h.waiter (hmem w (List.mem_append_right _ hw))
      rw [hleaves]
      exact connectWaiter_satisfied hbits
  · have hnone : ∀ j, j ≠ n →
        ((history s.log).after (.result n ok)).pending j &&& setEvent n 0 = 0 := by
      intro j hj
      rw [(sameAt_result hj).pending, hothers j hj]
      exact BitVec.zero_and
    refine h.move hn ⟨fun j _ => hnone j, trivial, h.attributed⟩
      (fun j hj => Function.update_of_ne hj _ _)
      (fun j hj => (sameAt_result hj).trans (sameAt_took (hnone j hj)))
      (fun j hj hne => absurd (hothers j hj) hne) (fun _ => hothers) ?_
      (h.list.leave rfl (fun _ => ConnectPc.noConfusion) ?_ ?_ hasleep)
    · have hout := (outstanding_of_result hn hwaiting (Or.inl hzero) hresult.2).took
        (setEvent_zero hn).2
      rw [BitVec.and_comm _ (setEvent n 0), hcode.and_eq] at hout
      unfold SocketAt
      rw [show Connects.pc _ n = .wait2 r from Function.update_self _ _ _]
      exact ⟨hwaiting, hout⟩
    · show (l₁ ++ l₂).Sublist s.event.suspendThread
      rw [hlist]
      exact (List.sublist_cons_self _ l₂).append_left l₁
    · intro w hw
      rw [hlist] at hw
      refine ⟨hne w, fun hthread => ?_⟩
      rcases List.mem_append.mp hw with hw | hw
      · exact List.mem_append_left _ hw
      · rcases List.mem_cons.mp hw with rfl | hw
        · exact absurd rfl hthread
        · exact List.mem_append_right _ hw

/-- A result line. -/
theorem sound_urc {s s' : Connects} (h : Sound priority s) {n : Nat} {ok : Bool}
    (hg : Orderly s (.urc n ok)) (hstep : connectStep priority s (.urc n ok) = some s') :
    Sound priority s' := by
  have hn : n < socketsNum := by
    by_contra hno
    rw [connectStep, if_neg hno] at hstep
    cases hstep
  by_cases hawake : ∀ r, s.pc n ≠ .wait1Suspended r
  · obtain ⟨hsend, hs'⟩ := sound_urc_awake h hn hg hawake
    rw [connectStep_urc hn hsend] at hstep
    cases hstep
    exact hs'
  · obtain ⟨r, hpc⟩ : ∃ r, s.pc n = .wait1Suspended r := by
      by_contra hno
      exact hawake fun r hr => hno ⟨r, hr⟩
    obtain ⟨l₁, l₂, hsend, hs'⟩ := sound_urc_suspended h hg hpc
    rw [connectStep_urc hn hsend] at hstep
    cases hstep
    show Sound priority (Connects.resume _ n (setEvent n 0))
    rw [Connects.resume]
    split
    case h_1 retryed hr =>
      have hr : ConnectPc.wait1Suspended r = .wait1Suspended retryed := hpc.symm.trans hr
      cases hr
      exact hs'
    case h_2 retryed hr => exact ConnectPc.noConfusion (hpc.symm.trans hr)
    case h_3 hne _ => exact absurd hpc (hne r)

/-- A wait that times out is a first wait, and the call returns with an error. -/
theorem sound_timeout {s s' : Connects} (h : Sound priority s) {i : Nat}
    (hstep : connectStep priority s (.timeout i) = some s') : Sound priority s' := by
  rw [connectStep, Option.map_eq_some_iff] at hstep
  obtain ⟨event, hevent, rfl⟩ := hstep
  rw [rtThreadTimeout] at hevent
  split at hevent
  case isFalse => cases hevent
  rename_i hwaits
  cases hevent
  obtain ⟨w, hw, rfl, -⟩ := hwaits
  obtain ⟨j, r, hj, rfl⟩ := (h.list.mem w).mp hw
  have hi : j < socketsNum := h.lt hj ConnectPc.noConfusion
  refine h.stop hi rfl (Or.inl rfl) ⟨fun hr => absurd hr (by decide), h.attributed⟩
    (fun _ hk => sameAt_returned hk) (fun _ _ _ => Grows.refl _ _) (Function.update_self _ _ _)
    (Function.update_self _ _ _)
    (h.list.leave rfl (fun _ => ConnectPc.noConfusion) List.filter_sublist ?_ ?_)
  · intro w hw
    show w ∈ s.event.suspendThread.filter _ ↔ _
    rw [List.mem_filter, decide_eq_true_eq]
    exact ⟨fun hin => hin.2, fun hne => ⟨hw, hne⟩⟩
  · intro w hw
    exact h.list.asleep w (List.mem_of_mem_filter hw)

/-- **The step lemma.** A step that meets the guard keeps the invariant. -/
theorem sound_step {s s' : Connects} {a : ConnectAct} (h : Sound priority s) (hg : Orderly s a)
    (hstep : connectStep priority s a = some s') : Sound priority s' := by
  cases a with
  | call i memory => exact sound_call h hstep
  | clear i => exact sound_clear h hg hstep
  | command i ok => exact sound_command h hstep
  | wait1 i => exact sound_wait1 h hg hstep
  | wait2 i => exact sound_wait2 h hstep
  | close i ok => exact sound_close h hstep
  | urc n ok => exact sound_urc h hg hstep
  | timeout i => exact sound_timeout h hstep

/-! ### The runs -/

/-- **No result goes to the wrong socket in an orderly run**: a call returns 0 because of a
`CONNECT OK` for its socket, it takes the failure branch because of a `CONNECT FAIL` for its
socket, and it takes nothing of a result that another socket waits for. -/
theorem attributed_of_orderly (flag : IpcFlag) (priority : Nat → Nat) (as : List ConnectAct)
    (hg : Guarded (connectStep priority) Orderly (connectInit flag) as) :
    Always (connectStep priority) (fun s => Attributed s.log) (connectInit flag) as :=
  (always_of_guarded (fun _ _ _ h hC hstep => sound_step h hC hstep)
    (sound_connectInit flag) hg).mono fun _ h => h.attributed

/-- Two sockets connect one after the other, the second one with a failure and a retry. -/
theorem attributed_of_orderly_two :
    Guarded (connectStep fun _ => 10) Orderly (connectInit .fifo)
        [.call 0 true, .clear 0, .command 0 true, .wait1 0, .call 1 true, .clear 1,
          .command 1 true, .wait1 1, .urc 0 true, .wait2 0, .urc 1 false, .wait2 1,
          .close 1 true, .clear 1, .command 1 true, .wait1 1, .urc 1 true, .wait2 1] ∧
      Always (connectStep fun _ => 10) (fun s => Attributed s.log) (connectInit .fifo)
        [.call 0 true, .clear 0, .command 0 true, .wait1 0, .call 1 true, .clear 1,
          .command 1 true, .wait1 1, .urc 0 true, .wait2 0, .urc 1 false, .wait2 1,
          .close 1 true, .clear 1, .command 1 true, .wait1 1, .urc 1 true, .wait2 1] :=
  ⟨by decide +kernel, attributed_of_orderly .fifo (fun _ => 10) _ (by decide +kernel)⟩

/-- Sockets 0 and 2 are encoded as 1 and 3. A `CONNECT OK` for socket 0 wakes the call for
socket 2, which takes the result. -/
theorem not_attributed_overlapping :
    ¬ Always (connectStep fun _ => 10) (fun s => Attributed s.log) (connectInit .fifo)
      [.call 0 true, .clear 0, .command 0 true, .call 2 true, .clear 2, .command 2 true,
        .wait1 2, .urc 0 true, .wait2 2] := by
  decide +kernel

end CarLocator.A9g
