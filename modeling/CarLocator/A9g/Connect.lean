import CarLocator.A9g.Urc
import CarLocator.At.Calls
import CarLocator.Library.Bits
import CarLocator.Library.Runs

/-!
# `CarLocator.A9g.Connect`: concurrent `a9g_socket_connect` calls

The sockets of one device share the event object `device->socket_event`. `connectStep`
interleaves one call of `a9g_socket_connect` a socket with the result lines of the modem,
which `urc_connect_func` turns into event sends. A step of a call is one command or one
`rt_event_recv`, with the code up to the next one.

A socket is encoded as the number `socket + 1` in the upper half of the event word, so the
bits of two sockets overlap, and all sockets share the two result bits.

The `log` records what a reader of a trace would see: which results have come in, which
bits each call has taken, and how it has gone on. `History` reads it back, and
`Attributed` says that no result went to the wrong socket.
-/

set_option autoImplicit false

namespace CarLocator.A9g

open CarLocator.At
open CarLocator.Kernel
open CarLocator.Library

/-- `RT_TICK_PER_SECOND`. -/
def rtTickPerSecond : Int := 1000

/-- Where a call of `a9g_socket_connect` is, with its `retryed`. -/
inductive ConnectPc
  | idle
  /-- at `__retry`: about to clear the connect event -/
  | clear (retryed : Bool)
  /-- about to send `AT+CIPSTART` -/
  | command (retryed : Bool)
  /-- about to wait for the socket's bits -/
  | wait1 (retryed : Bool)
  | wait1Suspended (retryed : Bool)
  /-- about to wait for the result bits -/
  | wait2 (retryed : Bool)
  | wait2Suspended (retryed : Bool)
  /-- about to call `a9g_socket_close` -/
  | close
  deriving DecidableEq, Repr

/-- What happens in a run, for the trace. -/
inductive ConnectEntry
  /-- the call for socket `i` has cleared its event -/
  | cleared (i : Nat)
  /-- the result `CONNECT OK` or `CONNECT FAIL` for socket `n` was processed -/
  | result (n : Nat) (ok : Bool)
  /-- an `rt_event_recv` of the call for socket `i` has taken these bits -/
  | took (i : Nat) (bits : EventSet)
  /-- the call for socket `i` takes the branch of a failed connect -/
  | failed (i : Nat)
  /-- the call for socket `i` returns -/
  | returned (i : Nat) (r : Int)
  deriving DecidableEq, Repr

/-- The event object, the calls, and the trace, newest entry first. -/
structure Connects where
  event : RtEvent Nat
  pc : Nat → ConnectPc
  log : List ConnectEntry

/-- The steps of the calls and of the modem. -/
inductive ConnectAct
  /-- a thread calls `a9g_socket_connect`, and whether there is memory for the response -/
  | call (i : Nat) (memory : Bool)
  | clear (i : Nat)
  /-- `AT+CIPSTART`, and whether it succeeds -/
  | command (i : Nat) (ok : Bool)
  | wait1 (i : Nat)
  | wait2 (i : Nat)
  /-- `a9g_socket_close`, and whether it succeeds -/
  | close (i : Nat) (ok : Bool)
  /-- the modem sends `<n>,CONNECT OK` or `<n>,CONNECT FAIL` -/
  | urc (n : Nat) (ok : Bool)
  /-- the wait of the call for socket `i` times out -/
  | timeout (i : Nat)
  deriving DecidableEq, Repr

/-- `A9G_EVENT_CONN_OK | A9G_EVENT_CONN_FAIL`. -/
def connResult : EventSet := a9gEventConnOk ||| a9gEventConnFail

/-- The result bit that `urc_connect_func` sends. -/
def connEvent (ok : Bool) : EventSet := if ok then a9gEventConnOk else a9gEventConnFail

/-- The line `<n>,CONNECT OK` or `<n>,CONNECT FAIL` as the URC function gets it. -/
def connectLine (n : Nat) (ok : Bool) : Bytes :=
  decimal n ++ ascii (if ok then ",CONNECT OK\r\n" else ",CONNECT FAIL\r\n") ++ [0]

/-- Nothing is connecting, and the event is initialised. -/
def connectInit (flag : IpcFlag) : Connects :=
  { event := rtEventInit flag, pc := fun _ => .idle, log := [] }

/-- The call for socket `i` goes on at `pc`. -/
def Connects.goTo (s : Connects) (i : Nat) (pc : ConnectPc) : Connects :=
  { s with pc := Function.update s.pc i pc }

/-- An entry of the trace. -/
def Connects.note (s : Connects) (e : ConnectEntry) : Connects := { s with log := e :: s.log }

/-- `__exit` with this result. -/
def Connects.exit (s : Connects) (i : Nat) (r : Int) : Connects :=
  (s.note (.returned i r)).goTo i .idle

/-- Check result: what follows the second wait, with the bits it has taken. -/
def Connects.checkResult (s : Connects) (i : Nat) (retryed : Bool) (bits : EventSet) :
    Connects :=
  if bits &&& a9gEventConnFail ≠ 0 then
    if retryed = false then (s.note (.failed i)).goTo i .close
    else (s.note (.failed i)).exit i (-rtError)
  else s.exit i 0

/-- A suspended call gets its event set from `rt_event_send`. -/
def Connects.resume (s : Connects) (i : Nat) (bits : EventSet) : Connects :=
  match s.pc i with
  | .wait1Suspended retryed => (s.note (.took i bits)).goTo i (.wait2 retryed)
  | .wait2Suspended retryed => (s.note (.took i bits)).checkResult i retryed bits
  | _ => s

/-- The event set that `urc_connect_func` sends for a line. -/
def sentSet (data : Bytes) : Option EventSet :=
  match urcConnectFunc data with
  | some [.eventSend set] => some set
  | _ => none

/-- `a9g_socket_event_recv` of the call for socket `i`, up to `rt_schedule`. -/
def Connects.eventRecv (s : Connects) (priority : Nat → Nat) (i : Nat) (set : EventSet)
    (timeout : Int) : RecvResult × Connects :=
  match rtEventRecv s.event i (priority i) set (rtEventFlagOr ||| rtEventFlagClear) timeout with
  | (r, event) => (r, { s with event := event })

/-- One step of the interleaving. `priority` is the priority of the threads. -/
def connectStep (priority : Nat → Nat) (s : Connects) : ConnectAct → Option Connects
  | .call i memory =>
    if i < socketsNum ∧ s.pc i = .idle then
      some (if memory then s.goTo i (.clear false) else s.exit i (-rtEnomem))
    else none
  | .clear i =>
    match s.pc i with
    | .clear retryed =>
      match s.eventRecv priority i (setEvent i connResult) 0 with
      | (.received bits, s) =>
        some (((s.note (.took i bits)).note (.cleared i)).goTo i (.command retryed))
      | (_, s) => some ((s.note (.cleared i)).goTo i (.command retryed))
    | _ => none
  | .command i ok =>
    match s.pc i with
    | .command retryed => some (if ok then s.goTo i (.wait1 retryed) else s.exit i (-rtError))
    | _ => none
  | .wait1 i =>
    match s.pc i with
    | .wait1 retryed =>
      match s.eventRecv priority i (setEvent i 0) (10 * rtTickPerSecond) with
      | (.received bits, s) => some ((s.note (.took i bits)).goTo i (.wait2 retryed))
      | (.suspended, s) => some (s.goTo i (.wait1Suspended retryed))
      | (_, s) => some (s.exit i (-rtEtimeout))
    | _ => none
  | .wait2 i =>
    match s.pc i with
    | .wait2 retryed =>
      match s.eventRecv priority i connResult (1 * rtTickPerSecond) with
      | (.received bits, s) => some ((s.note (.took i bits)).checkResult i retryed bits)
      | (.suspended, s) => some (s.goTo i (.wait2Suspended retryed))
      | (_, s) => some (s.exit i (-rtEtimeout))
    | _ => none
  | .close i ok =>
    match s.pc i with
    | .close => some (if ok then s.goTo i (.clear true) else s.exit i (-rtError))
    | _ => none
  | .urc n ok =>
    if n < socketsNum then
      match sentSet (connectLine n ok) with
      | some set =>
        match rtEventSend s.event set with
        | (event, resumed) =>
          let s := { s with event := event }
          some (resumed.foldl (fun s r => s.resume r.1 r.2) (s.note (.result n ok)))
      | none => none
    else none
  | .timeout i =>
    (rtThreadTimeout s.event i).map fun event => { s with event := event }.exit i (-rtEtimeout)

/-! ### The trace -/

/-- What the trace says about the sockets. -/
structure History where
  /-- the call for the socket waits for its result -/
  waiting : Nat → Bool
  /-- a `CONNECT OK` naming the socket has come since the call last cleared its event -/
  ok : Nat → Bool
  /-- the same for `CONNECT FAIL` -/
  fail : Nat → Bool
  /-- the bits of results that came while the socket was waiting, as far as no call has taken
  them -/
  pending : Nat → EventSet

/-- What one more entry says. -/
def History.after (h : History) : ConnectEntry → History
  | .cleared i =>
    { waiting := Function.update h.waiting i true, ok := Function.update h.ok i false,
      fail := Function.update h.fail i false, pending := Function.update h.pending i 0 }
  | .result n ok =>
    { waiting := h.waiting
      ok := Function.update h.ok n (h.ok n || ok)
      fail := Function.update h.fail n (h.fail n || !ok)
      pending := if h.waiting n
        then Function.update h.pending n (h.pending n ||| setEvent n (connEvent ok))
        else h.pending }
  | .took _ bits => { h with pending := fun i => h.pending i &&& ~~~bits }
  | .failed i | .returned i _ =>
    { h with
      waiting := Function.update h.waiting i false, pending := Function.update h.pending i 0 }

/-- What a trace says. -/
def history : List ConnectEntry → History
  | [] => ⟨fun _ => false, fun _ => false, fun _ => false, fun _ => 0⟩
  | e :: log => (history log).after e

/-- An entry attributes its result to the right socket. -/
def ConnectEntry.Right (h : History) : ConnectEntry → Prop
  /- a call returns 0 because of a `CONNECT OK` for its socket -/
  | .returned i r => r = 0 → h.ok i = true
  /- it takes the failure branch because of a `CONNECT FAIL` for its socket -/
  | .failed i => h.fail i = true
  /- it takes nothing of a result that another socket waits for -/
  | .took i bits => ∀ j < socketsNum, j ≠ i → h.pending j &&& bits = 0
  | _ => True

/-- No entry of the trace attributes a result to the wrong socket. -/
def Attributed : List ConnectEntry → Prop
  | [] => True
  | e :: log => e.Right (history log) ∧ Attributed log

/-- The guard on the steps: results are pending for one socket at a time.

* A call clears its event only while no result of another socket is pending.
* The first wait finds bits of its socket only if its own result is pending.
* A result wakes no other socket, unless the socket it names stands ahead on the list. One
  for a waiting socket comes only while no other is pending, and an OK only while no foreign
  FAIL bit is left. A FAIL for a socket that is not waiting comes only while no OK is
  pending. -/
def Orderly (s : Connects) : ConnectAct → Prop
  | .clear i => ∀ j < socketsNum, j ≠ i → (history s.log).pending j = 0
  | .wait1 i => s.event.set &&& setEvent i 0 ≠ 0 → (history s.log).pending i ≠ 0
  | .urc n ok =>
    (∀ w ∈ s.event.suspendThread.takeWhile (·.thread ≠ n), w.eventSet &&& setEvent n 0 = 0) ∧
      if (history s.log).waiting n then
        (∀ j < socketsNum, j ≠ n → (history s.log).pending j = 0) ∧
          (ok = true → s.event.set &&& a9gEventConnFail ≠ 0 → (history s.log).fail n = true)
      else ok = false → ∀ j < socketsNum, (history s.log).pending j ≠ 0 →
        (history s.log).fail j = true
  | _ => True

instance (h : History) (e : ConnectEntry) : Decidable (e.Right h) := by
  cases e <;> unfold ConnectEntry.Right <;> infer_instance

instance decidableAttributed : DecidablePred Attributed
  | [] => isTrue trivial
  | e :: log =>
    have : Decidable (Attributed log) := decidableAttributed log
    inferInstanceAs (Decidable (e.Right (history log) ∧ Attributed log))

instance (s : Connects) (a : ConnectAct) : Decidable (Orderly s a) := by
  cases a <;> unfold Orderly <;> infer_instance

/-! ### The words of the sockets -/

/-- **`urc_connect_func` names the socket of the line**, with the result of the line. -/
theorem sentSet_connectLine {n : Nat} (hn : n < socketsNum) (ok : Bool) :
    sentSet (connectLine n ok) = some (setEvent n (connEvent ok)) := by
  have hall : ∀ n < socketsNum, ∀ ok,
      sentSet (connectLine n ok) = some (setEvent n (connEvent ok)) := by
    decide +kernel
  exact hall n hn ok

/-- The step of a result line, by what `rt_event_send` does. -/
theorem connectStep_urc {priority : Nat → Nat} {s : Connects} {n : Nat} {ok : Bool}
    (hn : n < socketsNum) {event : RtEvent Nat} {resumed : List (Nat × EventSet)}
    (hsend : rtEventSend s.event (setEvent n (connEvent ok)) = (event, resumed)) :
    connectStep priority s (.urc n ok)
      = some (resumed.foldl (fun s r => s.resume r.1 r.2)
          (Connects.note { s with event := event } (.result n ok))) := by
  rw [connectStep, if_pos hn, sentSet_connectLine hn ok]
  simp only [hsend]

/-- `SET_EVENT` is the number of the socket and the event. -/
theorem setEvent_eq (n : Nat) (event : EventSet) :
    setEvent n event = setEvent n 0 ||| event := by
  simp [setEvent]

/-- Every socket has a bit of its own to wait for, apart from the result bits. -/
theorem setEvent_zero {i : Nat} (hi : i < socketsNum) :
    setEvent i 0 ≠ 0 ∧ setEvent i 0 &&& connResult = 0 := by
  have hall : ∀ i < socketsNum, setEvent (i : Nat) 0 ≠ 0 ∧
      setEvent (i : Nat) 0 &&& connResult = 0 := by
    decide
  exact hall i hi

/-- A result bit is one of the two. -/
theorem within_connEvent (ok : Bool) : Within (connEvent ok) connResult := by
  cases ok with
  | true => exact within_or_left
  | false => exact within_or_right

/-- No socket number reaches the result bits. -/
theorem setEvent_zero_and {i : Nat} (hi : i < socketsNum) {m : EventSet}
    (hm : Within m connResult) : setEvent i 0 &&& m = 0 := by
  rw [BitVec.and_comm]
  refine hm.and_eq_zero ?_
  rw [BitVec.and_comm]
  exact (setEvent_zero hi).2

/-- What is sent is not empty. -/
theorem setEvent_ne_zero {n : Nat} (hn : n < socketsNum) (event : EventSet) :
    setEvent n event ≠ 0 := by
  intro h
  have hcode := (setEvent_zero hn).1
  have hwithin : Within (setEvent n 0) (setEvent n event) := by
    rw [setEvent_eq n event]
    exact within_or_left
  rw [h] at hwithin
  refine hcode ?_
  rw [← hwithin.and_eq]
  exact BitVec.and_zero

/-! ### Receiving -/

/-- `a9g_socket_event_recv` when a bit is there: it takes all the bits it asks for. -/
theorem eventRecv_of_ready {s : Connects} (priority : Nat → Nat) (i : Nat) {set : EventSet}
    (timeout : Int) (h : s.event.set &&& set ≠ 0) :
    s.eventRecv priority i set timeout
      = (.received (s.event.set &&& set),
        { s with event := { s.event with set := s.event.set &&& ~~~set } }) := by
  have hset : set ≠ 0 := by
    rintro rfl
    exact h BitVec.and_zero
  have hready : recvReady s.event set (rtEventFlagOr ||| rtEventFlagClear) = some true := by
    rw [recvReady_or]
    simpa using h
  rw [Connects.eventRecv, rtEventRecv_of_ready hset (by decide) hready]

/-- A bare test of the event when no bit is there. -/
theorem eventRecv_of_no_wait {s : Connects} (priority : Nat → Nat) (i : Nat) {set : EventSet}
    (hset : set ≠ 0) (h : s.event.set &&& set = 0) :
    s.eventRecv priority i set 0 = (.timeout, s) := by
  have hready : recvReady s.event set (rtEventFlagOr ||| rtEventFlagClear) = some false := by
    rw [recvReady_or]
    simpa using h
  rw [Connects.eventRecv, rtEventRecv_of_no_wait hset hready]

/-- The waiter of a call in its first wait. -/
def connectWaiter (priority : Nat → Nat) (i : Nat) : Waiter Nat :=
  ⟨i, priority i, setEvent i 0, rtEventFlagOr ||| rtEventFlagClear, true⟩

/-- The first wait when no bit is there. -/
theorem eventRecv_of_not_ready {s : Connects} (priority : Nat → Nat) {i : Nat}
    (hi : i < socketsNum) (h : s.event.set &&& setEvent i 0 = 0) :
    s.eventRecv priority i (setEvent i 0) (10 * rtTickPerSecond)
      = (.suspended, { s with event := { s.event with
          suspendThread := rtIpcListSuspend s.event.flag s.event.suspendThread
            (connectWaiter priority i) } }) := by
  have hready : recvReady s.event (setEvent i 0) (rtEventFlagOr ||| rtEventFlagClear)
      = some false := by
    rw [recvReady_or]
    simpa using h
  rw [Connects.eventRecv,
    rtEventRecv_of_not_ready (setEvent_zero hi).1 (by decide) hready]
  rfl

end CarLocator.A9g
