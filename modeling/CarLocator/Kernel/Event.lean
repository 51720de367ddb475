import Mathlib.Data.BitVec

/-!
# `CarLocator.Kernel.Event`: the event object of the kernel

`rt_event_send` and `rt_event_recv` of `rt-thread/src/ipc.c`, with the suspend list they
work on. Both run with interrupts disabled, so each is one atomic step. `rt_event_recv`
is split where the source gives up the processor: `rtEventRecv` is the part up to the
call of `rt_schedule`, and a thread that is suspended there gets its result later, either
from `rtEventSend`, which takes it off the list and stores the event set it waited for,
or from `rtThreadTimeout`, the thread timer of `thread.c`.

The threads are of any type `τ`, and the suspend list is kept in the order of the source
(`RT_IPC_FLAG_FIFO` or `RT_IPC_FLAG_PRIO`). The lemmas read the list only through
membership, because which threads wait does not depend on that order.
-/

set_option autoImplicit false

namespace CarLocator.Kernel

/-- `rt_uint32_t`, the word of an event set. -/
abbrev EventSet := BitVec 32

/-- `RT_EVENT_FLAG_AND`: all the bits of the set must be there. -/
def rtEventFlagAnd : BitVec 8 := 0x01

/-- `RT_EVENT_FLAG_OR`: one bit of the set is enough. -/
def rtEventFlagOr : BitVec 8 := 0x02

/-- `RT_EVENT_FLAG_CLEAR`: received bits are cleared. -/
def rtEventFlagClear : BitVec 8 := 0x04

/-- `RT_WAITING_FOREVER`. -/
def rtWaitingForever : Int := -1

/-- The order of the suspend list: `RT_IPC_FLAG_FIFO` or `RT_IPC_FLAG_PRIO`. -/
inductive IpcFlag
  | fifo
  | prio
  deriving DecidableEq, Repr

/-- A suspended thread: the fields of `struct rt_thread` that the event object uses. -/
structure Waiter (τ : Type) where
  thread : τ
  currentPriority : Nat
  eventSet : EventSet
  eventInfo : BitVec 8
  /-- The thread timer runs, so the wait can time out. -/
  timer : Bool
  deriving DecidableEq, Repr

/-- `struct rt_event`. -/
structure RtEvent (τ : Type) where
  flag : IpcFlag
  set : EventSet
  suspendThread : List (Waiter τ)
  deriving DecidableEq, Repr

variable {τ : Type}

/-- `rt_event_init`: no bit is set and no thread waits. -/
def rtEventInit (flag : IpcFlag) : RtEvent τ := ⟨flag, 0, []⟩

/-- The place `RT_IPC_FLAG_PRIO` gives a thread: before the first one of lower priority. -/
def insertByPriority (w : Waiter τ) : List (Waiter τ) → List (Waiter τ)
  | [] => [w]
  | s :: ws => if w.currentPriority < s.currentPriority then w :: s :: ws
      else s :: insertByPriority w ws

/-- `rt_ipc_list_suspend`. -/
def rtIpcListSuspend (flag : IpcFlag) (ws : List (Waiter τ)) (w : Waiter τ) :
    List (Waiter τ) :=
  match flag with
  | .fifo => ws ++ [w]
  | .prio => insertByPriority w ws

/-- The event set with which `rt_event_send` resumes a waiting thread, if `set` satisfies
it: the whole set it asked for (AND), or the bits of it that are there (OR). -/
def Waiter.satisfied (w : Waiter τ) (set : EventSet) : Option EventSet :=
  if w.eventInfo &&& rtEventFlagAnd ≠ 0 then
    if w.eventSet &&& set = w.eventSet then some w.eventSet else none
  else if w.eventInfo &&& rtEventFlagOr ≠ 0 then
    if w.eventSet &&& set ≠ 0 then some (w.eventSet &&& set) else none
  else none

/-- The bits left for the threads behind `w` on the list, after `w` was resumed with
`recved`. -/
def Waiter.leaves (w : Waiter τ) (recved set : EventSet) : EventSet :=
  if w.eventInfo &&& rtEventFlagClear ≠ 0 then set &&& ~~~recved else set

/-- The loop of `rt_event_send` over the suspend list: the event set it leaves, the
threads that stay suspended, and the resumed threads with the set each one received. -/
def rtEventSendLoop : List (Waiter τ) → EventSet →
    EventSet × List (Waiter τ) × List (τ × EventSet)
  | [], set => (set, [], [])
  | w :: ws, set =>
    match w.satisfied set with
    | some recved =>
      let (set', ws', resumed) := rtEventSendLoop ws (w.leaves recved set)
      (set', ws', (w.thread, recved) :: resumed)
    | none =>
      let (set', ws', resumed) := rtEventSendLoop ws set
      (set', w :: ws', resumed)

/-- `rt_event_send`: the event object afterwards and the threads that were resumed. An
empty set is refused (`-RT_ERROR`) and changes nothing. -/
def rtEventSend (e : RtEvent τ) (set : EventSet) : RtEvent τ × List (τ × EventSet) :=
  if set = 0 then (e, [])
  else
    let (set', ws', resumed) := rtEventSendLoop e.suspendThread (e.set ||| set)
    ({ e with set := set', suspendThread := ws' }, resumed)

/-- What `rt_event_recv` has come to when it calls `rt_schedule` or returns. -/
inductive RecvResult
  /-- `-RT_ERROR`: the set asked for is empty. -/
  | error
  /-- `RT_ASSERT(0)`: the option has neither `RT_EVENT_FLAG_AND` nor `RT_EVENT_FLAG_OR`. -/
  | assertFailed
  /-- `RT_EOK` with this event set in `*recved`. -/
  | received (recved : EventSet)
  /-- `-RT_ETIMEOUT` without waiting. -/
  | timeout
  /-- The thread was put on the suspend list. -/
  | suspended
  deriving DecidableEq, Repr

/-- The test of `rt_event_recv`, or `none` for an option without AND and OR. -/
def recvReady (e : RtEvent τ) (set : EventSet) (option : BitVec 8) : Option Bool :=
  if option &&& rtEventFlagAnd ≠ 0 then some (e.set &&& set == set)
  else if option &&& rtEventFlagOr ≠ 0 then some (e.set &&& set != 0)
  else none

/-- `rt_event_recv` up to its call of `rt_schedule`. -/
def rtEventRecv (e : RtEvent τ) (thread : τ) (priority : Nat) (set : EventSet)
    (option : BitVec 8) (timeout : Int) : RecvResult × RtEvent τ :=
  if set = 0 then (.error, e)
  else
    match recvReady e set option with
    | none => (.assertFailed, e)
    | some true =>
      (.received (e.set &&& set),
        if option &&& rtEventFlagClear ≠ 0 then { e with set := e.set &&& ~~~set } else e)
    | some false =>
      if timeout = 0 then (.timeout, e)
      else
        let w : Waiter τ := ⟨thread, priority, set, option, decide (0 < timeout)⟩
        (.suspended, { e with suspendThread := rtIpcListSuspend e.flag e.suspendThread w })

/-- `rt_thread_timeout` of a thread whose timer runs: it leaves the suspend list, and its
`rt_event_recv` returns `-RT_ETIMEOUT`. -/
def rtThreadTimeout [DecidableEq τ] (e : RtEvent τ) (thread : τ) : Option (RtEvent τ) :=
  if ∃ w ∈ e.suspendThread, w.thread = thread ∧ w.timer = true then
    some { e with suspendThread := e.suspendThread.filter (·.thread ≠ thread) }
  else none

/-! ### The suspend list -/

/-- Suspending a thread adds it to the list, in either order. -/
theorem rtIpcListSuspend_perm (flag : IpcFlag) (ws : List (Waiter τ)) (w : Waiter τ) :
    (rtIpcListSuspend flag ws w).Perm (w :: ws) := by
  cases flag with
  | fifo => exact List.perm_append_singleton w ws
  | prio =>
      simp only [rtIpcListSuspend]
      induction ws with
      | nil => exact List.Perm.refl _
      | cons s ws ih =>
          simp only [insertByPriority]
          split
          · exact List.Perm.refl _
          · exact (ih.cons s).trans (List.Perm.swap w s ws)

/-- Who waits after a thread was suspended. -/
@[simp]
theorem mem_rtIpcListSuspend (flag : IpcFlag) (ws : List (Waiter τ)) (w x : Waiter τ) :
    x ∈ rtIpcListSuspend flag ws w ↔ x = w ∨ x ∈ ws := by
  rw [(rtIpcListSuspend_perm flag ws w).mem_iff, List.mem_cons]

/-- An empty suspend list, in either order. -/
@[simp]
theorem rtIpcListSuspend_nil (flag : IpcFlag) (w : Waiter τ) :
    rtIpcListSuspend flag [] w = [w] := by
  cases flag <;> rfl

/-! ### What a send does -/

/-- A send that satisfies nobody only adds its bits. -/
theorem rtEventSendLoop_of_none (ws : List (Waiter τ)) (set : EventSet)
    (h : ∀ w ∈ ws, w.satisfied set = none) : rtEventSendLoop ws set = (set, ws, []) := by
  induction ws with
  | nil => rfl
  | cons w ws ih =>
      simp only [rtEventSendLoop, h w (by simp), ih fun x hx => h x (by simp [hx])]

/-- `rt_event_send` of bits with which no waiting thread is satisfied. -/
theorem rtEventSend_of_none {e : RtEvent τ} {set : EventSet} (hset : set ≠ 0)
    (h : ∀ w ∈ e.suspendThread, w.satisfied (e.set ||| set) = none) :
    rtEventSend e set = ({ e with set := e.set ||| set }, []) := by
  rw [rtEventSend, if_neg hset, rtEventSendLoop_of_none _ _ h]

/-- A send that satisfies one thread, as the list is walked: that thread is resumed, and the
threads behind it see what it leaves. -/
theorem rtEventSendLoop_of_one {ws₁ ws₂ : List (Waiter τ)} {w : Waiter τ}
    {set recved : EventSet} (h₁ : ∀ x ∈ ws₁, x.satisfied set = none)
    (hw : w.satisfied set = some recved)
    (h₂ : ∀ x ∈ ws₂, x.satisfied (w.leaves recved set) = none) :
    rtEventSendLoop (ws₁ ++ w :: ws₂) set
      = (w.leaves recved set, ws₁ ++ ws₂, [(w.thread, recved)]) := by
  induction ws₁ with
  | nil => simp only [List.nil_append, rtEventSendLoop, hw, rtEventSendLoop_of_none ws₂ _ h₂]
  | cons x ws₁ ih =>
      simp only [List.cons_append, rtEventSendLoop, h₁ x (by simp),
        ih fun y hy => h₁ y (by simp [hy])]

/-- `rt_event_send` of bits with which one waiting thread is satisfied. -/
theorem rtEventSend_of_one {e : RtEvent τ} {set : EventSet} (hset : set ≠ 0)
    {ws₁ ws₂ : List (Waiter τ)} {w : Waiter τ} {recved : EventSet}
    (hlist : e.suspendThread = ws₁ ++ w :: ws₂)
    (h₁ : ∀ x ∈ ws₁, x.satisfied (e.set ||| set) = none)
    (hw : w.satisfied (e.set ||| set) = some recved)
    (h₂ : ∀ x ∈ ws₂, x.satisfied (w.leaves recved (e.set ||| set)) = none) :
    rtEventSend e set
      = ({ e with set := w.leaves recved (e.set ||| set), suspendThread := ws₁ ++ ws₂ },
        [(w.thread, recved)]) := by
  rw [rtEventSend, if_neg hset, hlist, rtEventSendLoop_of_one h₁ hw h₂]

/-- A thread that waits for one of its bits. -/
theorem Waiter.satisfied_or {w : Waiter τ} (h : w.eventInfo = rtEventFlagOr ||| rtEventFlagClear)
    (set : EventSet) :
    w.satisfied set
      = if w.eventSet &&& set ≠ 0 then some (w.eventSet &&& set) else none := by
  have hand : ¬ w.eventInfo &&& rtEventFlagAnd ≠ 0 := by
    rw [h]
    decide
  have hor : w.eventInfo &&& rtEventFlagOr ≠ 0 := by
    rw [h]
    decide
  rw [Waiter.satisfied, if_neg hand, if_pos hor]

/-- It clears the bits it receives. -/
theorem Waiter.leaves_or {w : Waiter τ} (h : w.eventInfo = rtEventFlagOr ||| rtEventFlagClear)
    (recved set : EventSet) : w.leaves recved set = set &&& ~~~recved := by
  rw [Waiter.leaves, if_pos]
  rw [h]
  decide

/-! ### What a receive does -/

/-- `rt_event_recv` with `RT_EVENT_FLAG_CLEAR` when the bits are there. -/
theorem rtEventRecv_of_ready {e : RtEvent τ} {thread : τ} {priority : Nat} {set : EventSet}
    {option : BitVec 8} {timeout : Int} (hset : set ≠ 0)
    (hclear : option &&& rtEventFlagClear ≠ 0) (h : recvReady e set option = some true) :
    rtEventRecv e thread priority set option timeout
      = (.received (e.set &&& set), { e with set := e.set &&& ~~~set }) := by
  rw [rtEventRecv, if_neg hset, h]
  show (_, if _ then _ else _) = _
  rw [if_pos hclear]

/-- `rt_event_recv` with a timeout when the bits are not there: the thread is suspended. -/
theorem rtEventRecv_of_not_ready {e : RtEvent τ} {thread : τ} {priority : Nat}
    {set : EventSet} {option : BitVec 8} {timeout : Int} (hset : set ≠ 0)
    (htimeout : timeout ≠ 0) (h : recvReady e set option = some false) :
    rtEventRecv e thread priority set option timeout
      = (.suspended, { e with
          suspendThread :=
            rtIpcListSuspend e.flag e.suspendThread
              ⟨thread, priority, set, option, decide (0 < timeout)⟩ }) := by
  rw [rtEventRecv, if_neg hset, h]
  show (if _ then _ else _) = _
  rw [if_neg htimeout]

/-- The test of `rt_event_recv` for one of the bits. -/
theorem recvReady_or (e : RtEvent τ) (set : EventSet) :
    recvReady e set (rtEventFlagOr ||| rtEventFlagClear) = some (e.set &&& set != 0) := by
  rw [recvReady, if_neg (by decide), if_pos (by decide)]

/-- `rt_event_recv` without a timeout when the bits are not there. -/
theorem rtEventRecv_of_no_wait {e : RtEvent τ} {thread : τ} {priority : Nat}
    {set : EventSet} {option : BitVec 8} (hset : set ≠ 0)
    (h : recvReady e set option = some false) :
    rtEventRecv e thread priority set option 0 = (.timeout, e) := by
  rw [rtEventRecv, if_neg hset, h]
  rfl

end CarLocator.Kernel
