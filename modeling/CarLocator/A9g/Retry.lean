import CarLocator.A9g.Connect
import CarLocator.At.Resources

/-!
# `CarLocator.A9g.Retry`: one `a9g_socket_connect` from beginning to end

`a9gSocketConnect` follows one call with its `goto __retry`, when no other socket is active.
What the modem does is in the `ConnectAnswers`: how each command ends, and which event sets
the URC functions send while the call is between two of its steps or waits. A wait times out
when nothing that is sent satisfies it. The event word at the beginning is any word, so that
late results of an earlier call may still be in it.

The model returns the trace of the call. `RetryProtocol` reads it: at most two
`AT+CIPSTART`, with an `AT+CIPCLOSE` only in between and only after a CONNECT FAIL; a result
that is decided by the last wait; and no wait that takes a bit which was sent before the last
clear of the socket's event. `retryProtocol` proves it for all answers.
-/

set_option autoImplicit false

namespace CarLocator.A9g

open CarLocator.At
open CarLocator.Kernel
open CarLocator.Library

/-- `enum at_socket_type`. -/
inductive AtSocketType
  | invalid
  | tcp
  | udp
  deriving DecidableEq, Repr

/-- What one call of `a9g_socket_connect` does and sees. -/
inductive ConnectCall
  /-- `at_create_resp`, and whether there is memory -/
  | createResp (obj : Nat) (ok : Bool)
  | deleteResp (obj : Nat)
  /-- a URC function sends this event set -/
  | arrived (set : EventSet)
  /-- `a9g_socket_event_recv`, and what it has received -/
  | eventRecv (set : EventSet) (timeout : Int) (recved : Option EventSet)
  /-- `AT+CIPSTART` and `AT+CIPCLOSE` -/
  | cipstart (type : AtSocketType) (outcome : ExecOutcome)
  | cipclose (outcome : ExecOutcome)
  deriving DecidableEq, Repr

/-- What comes in during one pass from `__retry` to the check of the result. -/
structure AttemptAnswers where
  -- how `AT+CIPSTART` ends
  cipstart : ExecOutcome
  -- the event sets sent from each of the three receives on, up to the next one
  cleared : List EventSet
  wait1 : List EventSet
  wait2 : List EventSet

/-- What comes in during one call. -/
structure ConnectAnswers where
  -- there is memory for the response object
  createResp : Bool
  -- the passes, by `retryed`
  attempt : Bool → AttemptAnswers
  -- there is memory for the response object of `a9g_socket_close`
  closeResp : Bool
  -- how `AT+CIPCLOSE` ends
  cipclose : ExecOutcome

/-! ### The event -/

/-- Event sets that are sent while the call does not wait. -/
def sendAll (event : RtEvent Unit) (sets : List EventSet) : RtEvent Unit :=
  sets.foldl (fun event set => (rtEventSend event set).1) event

/-- The call is suspended, and event sets are sent until one of them resumes it or the wait
times out. What is sent afterwards comes before the next step of the call. -/
def eventRecvWait (set : EventSet) (timeout : Int) : RtEvent Unit → List EventSet →
    Option EventSet × RtEvent Unit × List ConnectCall
  | event, [] =>
    (none, (rtThreadTimeout event ()).getD event, [.eventRecv set timeout none])
  | event, s :: sets =>
    match rtEventSend event s with
    | (event, []) =>
      let (recved, event, calls) := eventRecvWait set timeout event sets
      (recved, event, .arrived s :: calls)
    | (event, (_, recved) :: _) =>
      (some recved, sendAll event sets,
        .arrived s :: .eventRecv set timeout (some recved) :: sets.map .arrived)

/-- `a9g_socket_event_recv` with `RT_EVENT_FLAG_OR`, and the event sets that are sent from its
beginning on. -/
def a9gSocketEventRecv (event : RtEvent Unit) (set : EventSet) (timeout : Int)
    (sets : List EventSet) : Option EventSet × RtEvent Unit × List ConnectCall :=
  match rtEventRecv event () 0 set (rtEventFlagOr ||| rtEventFlagClear) timeout with
  | (.received recved, event) =>
    (some recved, sendAll event sets,
      .eventRecv set timeout (some recved) :: sets.map .arrived)
  | (.suspended, event) => eventRecvWait set timeout event sets
  | (_, event) =>
    (none, sendAll event sets, .eventRecv set timeout none :: sets.map .arrived)

/-- The value `a9g_socket_event_recv` returns. -/
def eventResult : Option EventSet → Int
  | some recved => recved.toInt
  | none => -rtEtimeout

/-! ### The call -/

/-- `a9g_socket_close`. Its response object is object 1. -/
def a9gSocketClose (closeResp : Bool) (cipclose : ExecOutcome) : Int × List ConnectCall :=
  if closeResp = false then (-rtEnomem, [.createResp 1 false])
  else
    (if cipclose = .ok then 0 else -rtError,
      [.createResp 1 true, .cipclose cipclose, .deleteResp 1])

/-- How a pass ends. -/
inductive AttemptEnd
  /-- `goto __exit`, or falling into it -/
  | exit (result : Int)
  /-- the branch of CONNECT FAIL -/
  | connFail
  deriving DecidableEq, Repr

/-- The command of a pass: whether it goes on, and the call. -/
def connectStart (type : AtSocketType) (isClient : Bool) (outcome : ExecOutcome) :
    Bool × List ConnectCall :=
  if isClient then
    match type with
    | .tcp | .udp => (decide (outcome = .ok), [.cipstart type outcome])
    | .invalid => (false, [])
  else (true, [])

/-- One pass from `__retry` to the check of the result. -/
def connectAttempt (a : AttemptAnswers) (socket : Int) (type : AtSocketType)
    (isClient : Bool) (event : RtEvent Unit) : AttemptEnd × RtEvent Unit × List ConnectCall :=
  let (_, event, cleared) := a9gSocketEventRecv event (setEvent socket connResult) 0 a.cleared
  let (started, start) := connectStart type isClient a.cipstart
  if started = false then (.exit (-rtError), event, cleared ++ start)
  else
    let (recved, event, wait1) :=
      a9gSocketEventRecv event (setEvent socket 0) (10 * rtTickPerSecond) a.wait1
    if eventResult recved < 0 then (.exit (-rtEtimeout), event, cleared ++ start ++ wait1)
    else
      let (recved, event, wait2) :=
        a9gSocketEventRecv event connResult (1 * rtTickPerSecond) a.wait2
      let calls := cleared ++ start ++ wait1 ++ wait2
      if eventResult recved < 0 then (.exit (-rtEtimeout), event, calls)
      else if recved.getD 0 &&& a9gEventConnFail ≠ 0 then (.connFail, event, calls)
      else (.exit 0, event, calls)

/-- From `__retry` to `__exit`, in at most `passes` passes. -/
def connectFrom (a : ConnectAnswers) (socket : Int) (type : AtSocketType) (isClient : Bool) :
    (passes : Nat) → (retryed : Bool) → RtEvent Unit → Option (Int × List ConnectCall)
  | 0, _, _ => none
  | passes + 1, retryed, event =>
    match connectAttempt (a.attempt retryed) socket type isClient event with
    | (.exit result, _, calls) => some (result, calls)
    | (.connFail, event, calls) =>
      if retryed then some (-rtError, calls)
      else
        let (result, close) := a9gSocketClose a.closeResp a.cipclose
        if result < 0 then some (-rtError, calls ++ close)
        else
          (connectFrom a socket type isClient passes true event).map fun (result, more) =>
            (result, calls ++ close ++ more)

/-- `a9g_socket_connect`. Its response object is object 0. -/
def a9gSocketConnect (a : ConnectAnswers) (socket : Int) (type : AtSocketType)
    (isClient : Bool) (passes : Nat) (event : RtEvent Unit) :
    Option (Int × List ConnectCall) :=
  if a.createResp = false then some (-rtEnomem, [.createResp 0 false])
  else
    (connectFrom a socket type isClient passes false event).map fun (result, calls) =>
      (result, [.createResp 0 true] ++ calls ++ [.deleteResp 0])

/-! ### The protocol -/

/-- An `AT+CIPSTART`. -/
def ConnectCall.isStart : ConnectCall → Bool
  | .cipstart _ _ => true
  | _ => false

/-- An `AT+CIPCLOSE`. -/
def ConnectCall.isClose : ConnectCall → Bool
  | .cipclose _ => true
  | _ => false

/-- What the result wait of the last pass has received, when `last` is known from the calls
before. A receive without a timeout is the clear of a pass. -/
def lastResult : Option EventSet → List ConnectCall → Option EventSet
  | last, [] => last
  | last, .eventRecv set timeout recved :: calls =>
    lastResult (if timeout = 0 then none else if set = connResult then recved else last) calls
  | last, _ :: calls => lastResult last calls

/-- The bits that were sent since the last clear, when `sent` is known from the calls
before. -/
def sentSince : EventSet → List ConnectCall → EventSet
  | sent, [] => sent
  | sent, .arrived set :: calls => sentSince (sent ||| set) calls
  | sent, .eventRecv _ timeout _ :: calls => sentSince (if timeout = 0 then 0 else sent) calls
  | sent, _ :: calls => sentSince sent calls

/-- Every wait receives only bits that were sent since the last clear. -/
def Fresh : EventSet → List ConnectCall → Prop
  | _, [] => True
  | sent, .arrived set :: calls => Fresh (sent ||| set) calls
  | sent, .eventRecv _ timeout recved :: calls =>
    if timeout = 0 then Fresh 0 calls
    else (∀ bits, recved = some bits → Within bits sent) ∧ Fresh sent calls
  | sent, _ :: calls => Fresh sent calls

/-- The result wait has received CONNECT OK without CONNECT FAIL. -/
def ConnectedBy (recved : Option EventSet) : Prop :=
  ∃ bits, recved = some bits ∧ bits &&& a9gEventConnOk ≠ 0 ∧ bits &&& a9gEventConnFail = 0

/-- The result wait has received CONNECT FAIL. -/
def RefusedBy (recved : Option EventSet) : Prop :=
  ∃ bits, recved = some bits ∧ bits &&& a9gEventConnFail ≠ 0

/-- **The retry protocol.** -/
structure RetryProtocol (result : Int) (calls : List ConnectCall) : Prop where
  starts : calls.countP ConnectCall.isStart ≤ 2
  closes : calls.countP ConnectCall.isClose ≤ 1
  /-- a close comes behind the first start and ahead of the second one, after the result wait
  in between has received CONNECT FAIL -/
  between : ∀ pre outcome post, calls = pre ++ .cipclose outcome :: post →
    pre.countP ConnectCall.isStart = 1 ∧ RefusedBy (lastResult none pre)
  /-- the result is 0 when the result wait of the last pass says so, and only then -/
  zero_iff : result = 0 ↔ ConnectedBy (lastResult none calls)
  /-- what was sent before the last clear decides nothing -/
  fresh : Fresh 0 calls

/-! ### Reading a trace -/

/-- The last result over two parts of a trace. -/
theorem lastResult_append (last : Option EventSet) (xs ys : List ConnectCall) :
    lastResult last (xs ++ ys) = lastResult (lastResult last xs) ys := by
  induction xs generalizing last with
  | nil => rfl
  | cons x xs ih => cases x <;> exact ih _

/-- What was sent over two parts of a trace. -/
theorem sentSince_append (sent : EventSet) (xs ys : List ConnectCall) :
    sentSince sent (xs ++ ys) = sentSince (sentSince sent xs) ys := by
  induction xs generalizing sent with
  | nil => rfl
  | cons x xs ih => cases x <;> exact ih _

/-- `Fresh` over two parts of a trace. -/
theorem fresh_append (sent : EventSet) (xs ys : List ConnectCall) :
    Fresh sent (xs ++ ys) ↔ Fresh sent xs ∧ Fresh (sentSince sent xs) ys := by
  induction xs generalizing sent with
  | nil => simp [Fresh, sentSince]
  | cons x xs ih =>
      cases x with
      | eventRecv set timeout recved =>
          simp only [List.cons_append, Fresh, sentSince]
          split
          · exact ih 0
          · rw [ih, and_assoc]
      | _ => exact ih _

/-- The sets that are sent, in a trace. -/
theorem arrived_trace (sets : List EventSet) :
    (∀ last, lastResult last (sets.map .arrived) = last) ∧
      (∀ sent, sentSince sent (sets.map .arrived) = sets.foldl (· ||| ·) sent) ∧
      (∀ sent, Fresh sent (sets.map .arrived)) ∧
      (sets.map ConnectCall.arrived).countP ConnectCall.isStart = 0 ∧
      (sets.map ConnectCall.arrived).countP ConnectCall.isClose = 0 := by
  induction sets with
  | nil => exact ⟨fun _ => rfl, fun _ => rfl, fun _ => trivial, rfl, rfl⟩
  | cons s sets ih =>
      obtain ⟨hlast, hsent, hfresh, hstart, hclose⟩ := ih
      exact ⟨fun last => hlast last, fun sent => hsent (sent ||| s),
        fun sent => hfresh (sent ||| s), hstart, hclose⟩

/-! ### One receive -/

/-- The bits of an event word and of the sets sent afterwards. -/
def withSent (word : EventSet) (sets : List EventSet) : EventSet := sets.foldl (· ||| ·) word

/-- A part of the word, with the same sets sent. -/
theorem within_withSent {x y m : EventSet} (h : Within (x &&& m) y) (sets : List EventSet) :
    Within (withSent x sets &&& m) (withSent y sets) := by
  induction sets generalizing x y with
  | nil => exact h
  | cons s sets ih =>
      refine ih fun k hk => ?_
      simp only [BitVec.getLsbD_and, BitVec.getLsbD_or, Bool.and_eq_true, Bool.or_eq_true] at hk ⊢
      rcases hk.1 with hx | hs
      · exact Or.inl (h k (by rw [BitVec.getLsbD_and, hx, hk.2]; rfl))
      · exact Or.inr hs

/-- The word itself is a part. -/
theorem within_withSent_of_within {x y : EventSet} (h : Within x y) (sets : List EventSet) :
    Within (withSent x sets) (withSent y sets) := by
  have hall : ∀ z : EventSet, z &&& BitVec.allOnes 32 = z := fun z => BitVec.and_allOnes
  have := within_withSent (m := BitVec.allOnes 32) (by rw [hall]; exact h) sets
  rwa [hall] at this

/-- A send while nobody waits. -/
theorem rtEventSend_idle {event : RtEvent Unit} (h : event.suspendThread = [])
    (s : EventSet) : rtEventSend event s = ({ event with set := event.set ||| s }, []) := by
  by_cases hs : s = 0
  · subst hs
    rw [rtEventSend, if_pos rfl, show event.set ||| 0 = event.set from BitVec.or_zero]
  · rw [rtEventSend_of_none hs (by simp [h])]

/-- Sends while nobody waits. -/
theorem sendAll_idle {event : RtEvent Unit} (h : event.suspendThread = [])
    (sets : List EventSet) :
    sendAll event sets = { event with set := withSent event.set sets } := by
  induction sets generalizing event with
  | nil => rfl
  | cons s sets ih =>
      show sendAll (rtEventSend event s).1 sets = _
      have hstill : ({ event with set := event.set ||| s } : RtEvent Unit).suspendThread = [] := h
      rw [rtEventSend_idle h, ih hstill]
      rfl

/-- The call in its wait. -/
def callWaiter (set : EventSet) : Waiter Unit :=
  ⟨(), 0, set, rtEventFlagOr ||| rtEventFlagClear, true⟩

/-- A send while the call waits: it stays suspended, or it gets what it waits for. -/
theorem rtEventSend_waiting {event : RtEvent Unit} {set : EventSet}
    (h : event.suspendThread = [callWaiter set]) (hidle : event.set &&& set = 0)
    (s : EventSet) :
    (rtEventSend event s = ({ event with set := event.set ||| s }, []) ∧
        (event.set ||| s) &&& set = 0) ∨
      ∃ recved, recved = set &&& (event.set ||| s) ∧ recved ≠ 0 ∧
        rtEventSend event s
          = ({ event with
              set := (event.set ||| s) &&& ~~~recved, suspendThread := [] }, [((), recved)]) := by
  by_cases hready : set &&& (event.set ||| s) = 0
  · refine Or.inl ⟨?_, by rw [BitVec.and_comm]; exact hready⟩
    by_cases hs : s = 0
    · subst hs
      rw [rtEventSend, if_pos rfl, show event.set ||| 0 = event.set from BitVec.or_zero]
    · refine rtEventSend_of_none hs fun w hw => ?_
      rw [h, List.mem_singleton] at hw
      subst hw
      rw [Waiter.satisfied_or rfl]
      exact if_neg fun hne => hne hready
  · have hs : s ≠ 0 := by
      rintro rfl
      rw [show event.set ||| 0 = event.set from BitVec.or_zero, BitVec.and_comm] at hready
      exact hready hidle
    refine Or.inr ⟨_, rfl, hready, ?_⟩
    have hsat : (callWaiter set).satisfied (event.set ||| s)
        = some (set &&& (event.set ||| s)) := by
      rw [Waiter.satisfied_or rfl]
      exact if_pos hready
    have hlist : event.suspendThread = [] ++ callWaiter set :: [] := h
    rw [rtEventSend_of_one hs hlist (by simp) hsat (by simp),
      Waiter.leaves_or rfl]
    rfl

/-- What a receive leaves: a trace with the sets sent before and after it has ended, no
waiting thread, and no bits from elsewhere. -/
structure Received (event : RtEvent Unit) (set : EventSet) (timeout : Int)
    (sets : List EventSet) (recved : Option EventSet) (event' : RtEvent Unit)
    (calls : List ConnectCall) : Prop where
  trace : ∃ pre post, sets = pre ++ post ∧
    calls = pre.map .arrived ++ .eventRecv set timeout recved :: post.map .arrived ∧
    ∀ bits, recved = some bits →
      bits ≠ 0 ∧ Within bits set ∧ Within bits (withSent event.set pre)
  idle : event'.suspendThread = []
  sent : Within event'.set (withSent event.set sets)

/-- The wait. -/
theorem eventRecvWait_received {event : RtEvent Unit} {set : EventSet}
    (h : event.suspendThread = [callWaiter set]) (hidle : event.set &&& set = 0) (timeout : Int)
    (sets : List EventSet) {recved : Option EventSet} {event' : RtEvent Unit}
    {calls : List ConnectCall}
    (hwait : eventRecvWait set timeout event sets = (recved, event', calls)) :
    Received event set timeout sets recved event' calls := by
  induction sets generalizing event recved event' calls with
  | nil =>
      have htimeout : rtThreadTimeout event () = some { event with suspendThread := [] } := by
        rw [rtThreadTimeout, h]
        rfl
      rw [eventRecvWait, htimeout] at hwait
      cases hwait
      exact ⟨⟨[], [], rfl, rfl, by simp⟩, rfl, fun k hk => hk⟩
  | cons s sets ih =>
      rw [eventRecvWait] at hwait
      rcases rtEventSend_waiting h hidle s with ⟨hsend, hstill⟩ | ⟨bits, hbits, hne, hsend⟩
      · simp only [hsend] at hwait
        rcases hmore : eventRecvWait set timeout { event with set := event.set ||| s } sets
          with ⟨recved₁, event₁, calls₁⟩
        rw [hmore] at hwait
        cases hwait
        obtain ⟨⟨pre, post, rfl, rfl, hrecved⟩, hback, hsent⟩ :=
          ih (show ({ event with set := event.set ||| s } : RtEvent Unit).suspendThread = _ from h)
            hstill hmore
        exact ⟨⟨s :: pre, post, rfl, rfl, hrecved⟩, hback, hsent⟩
      · simp only [hsend] at hwait
        cases hwait
        refine ⟨⟨[s], sets, rfl, rfl, ?_⟩, ?_, ?_⟩
        · rintro _ ⟨rfl⟩
          subst hbits
          exact ⟨hne, within_and_left, within_and_right⟩
        · rw [sendAll_idle rfl]
        · rw [sendAll_idle rfl]
          exact within_withSent_of_within within_and_not sets

/-- The receive finds a bit. -/
theorem a9gSocketEventRecv_ready {event : RtEvent Unit} (hidle : event.suspendThread = [])
    {set : EventSet} (timeout : Int) (h : event.set &&& set ≠ 0) (sets : List EventSet) :
    a9gSocketEventRecv event set timeout sets
      = (some (event.set &&& set),
        { event with set := withSent (event.set &&& ~~~set) sets },
        .eventRecv set timeout (some (event.set &&& set)) :: sets.map .arrived) := by
  have hset : set ≠ 0 := by
    rintro rfl
    exact h BitVec.and_zero
  have hready : recvReady event set (rtEventFlagOr ||| rtEventFlagClear) = some true := by
    rw [recvReady_or]
    simpa using h
  rw [a9gSocketEventRecv, rtEventRecv_of_ready hset (by decide) hready]
  show (_, sendAll { event with set := event.set &&& ~~~set } sets, _) = _
  have hstill : ({ event with set := event.set &&& ~~~set } : RtEvent Unit).suspendThread = [] :=
    hidle
  rw [sendAll_idle hstill]

/-- The clear finds none. -/
theorem a9gSocketEventRecv_clear {event : RtEvent Unit} (hidle : event.suspendThread = [])
    {set : EventSet} (hset : set ≠ 0) (h : event.set &&& set = 0) (sets : List EventSet) :
    a9gSocketEventRecv event set 0 sets
      = (none, { event with set := withSent event.set sets },
        .eventRecv set 0 none :: sets.map .arrived) := by
  have hready : recvReady event set (rtEventFlagOr ||| rtEventFlagClear) = some false := by
    rw [recvReady_or]
    simpa using h
  rw [a9gSocketEventRecv, rtEventRecv_of_no_wait hset hready]
  show (_, sendAll event sets, _) = _
  rw [sendAll_idle hidle]

/-- **The clear** leaves no bit of its set, but those that are sent afterwards. -/
theorem a9gSocketEventRecv_cleared {event : RtEvent Unit} (hidle : event.suspendThread = [])
    {set : EventSet} (hset : set ≠ 0) {sets : List EventSet} {recved : Option EventSet}
    {event' : RtEvent Unit} {calls : List ConnectCall}
    (h : a9gSocketEventRecv event set 0 sets = (recved, event', calls)) :
    calls = .eventRecv set 0 recved :: sets.map .arrived ∧ event'.suspendThread = [] ∧
      Within (event'.set &&& set) (withSent 0 sets) := by
  by_cases hready : event.set &&& set = 0
  · rw [a9gSocketEventRecv_clear hidle hset hready] at h
    cases h
    refine ⟨rfl, hidle, within_withSent ?_ sets⟩
    rw [hready]
    exact within_zero
  · rw [a9gSocketEventRecv_ready hidle 0 hready] at h
    cases h
    refine ⟨rfl, hidle, within_withSent ?_ sets⟩
    rw [and_not_and_self]
    exact within_zero

/-- **A wait** receives bits that are there or are sent before it ends. -/
theorem a9gSocketEventRecv_received {event : RtEvent Unit} (hidle : event.suspendThread = [])
    {set : EventSet} (hset : set ≠ 0) {timeout : Int} (ht : 0 < timeout)
    {sets : List EventSet} {recved : Option EventSet} {event' : RtEvent Unit}
    {calls : List ConnectCall}
    (h : a9gSocketEventRecv event set timeout sets = (recved, event', calls)) :
    Received event set timeout sets recved event' calls := by
  by_cases hready : event.set &&& set = 0
  · have hnot : recvReady event set (rtEventFlagOr ||| rtEventFlagClear) = some false := by
      rw [recvReady_or]
      simpa using hready
    rw [a9gSocketEventRecv, rtEventRecv_of_not_ready hset (by omega) hnot, hidle,
      rtIpcListSuspend_nil, decide_eq_true ht] at h
    have hlist : ({ event with suspendThread := [callWaiter set] } : RtEvent Unit).suspendThread
        = [callWaiter set] := rfl
    obtain ⟨htrace, hback, hsent⟩ := eventRecvWait_received hlist hready timeout sets h
    exact ⟨htrace, hback, hsent⟩
  · rw [a9gSocketEventRecv_ready hidle timeout hready] at h
    cases h
    refine ⟨⟨[], sets, rfl, rfl, ?_⟩, hidle, within_withSent_of_within within_and_not sets⟩
    rintro _ ⟨rfl⟩
    exact ⟨hready, within_and_right, within_and_left⟩

/-! ### One pass -/

section Wait

variable {event event' : RtEvent Unit} {set : EventSet} {timeout : Int} {sets : List EventSet}
  {recved : Option EventSet} {calls : List ConnectCall}

/-- A wait in a trace, for the last result. -/
theorem Received.lastResult (h : Received event set timeout sets recved event' calls)
    (ht : timeout ≠ 0) (last : Option EventSet) :
    lastResult last calls = if set = connResult then recved else last := by
  obtain ⟨pre, post, -, rfl, -⟩ := h.trace
  rw [lastResult_append, (arrived_trace pre).1]
  show A9g.lastResult (if timeout = 0 then _ else _) (post.map .arrived) = _
  rw [(arrived_trace post).1, if_neg ht]

/-- A wait in a trace, for what was sent. -/
theorem Received.sentSince (h : Received event set timeout sets recved event' calls)
    (ht : timeout ≠ 0) (sent : EventSet) : sentSince sent calls = withSent sent sets := by
  obtain ⟨pre, post, rfl, rfl, -⟩ := h.trace
  rw [sentSince_append, (arrived_trace pre).2.1]
  show A9g.sentSince (if timeout = 0 then _ else _) (post.map .arrived) = _
  rw [(arrived_trace post).2.1, if_neg ht]
  exact (List.foldl_append ..).symm

/-- A wait receives nothing that was sent before the last clear, if the event word holds
nothing from before it. -/
theorem Received.fresh (h : Received event set timeout sets recved event' calls)
    (ht : timeout ≠ 0) {m sent : EventSet} (hm : Within set m)
    (hsent : Within (event.set &&& m) sent) : Fresh sent calls := by
  obtain ⟨pre, post, -, rfl, hrecved⟩ := h.trace
  rw [fresh_append]
  refine ⟨(arrived_trace pre).2.2.1 sent, ?_⟩
  rw [(arrived_trace pre).2.1]
  show if timeout = 0 then _ else _
  rw [if_neg ht]
  refine ⟨fun bits hbits => ?_, (arrived_trace post).2.2.1 _⟩
  obtain ⟨-, hset, hword⟩ := hrecved bits hbits
  refine Within.trans (fun k hk => ?_) (within_withSent hsent pre)
  rw [BitVec.getLsbD_and, Bool.and_eq_true]
  exact ⟨hword k hk, hm k (hset k hk)⟩

/-- And it leaves nothing from before it. -/
theorem Received.keeps (h : Received event set timeout sets recved event' calls)
    {m sent : EventSet} (hsent : Within (event.set &&& m) sent) :
    Within (event'.set &&& m) (withSent sent sets) := by
  refine Within.trans (fun k hk => ?_) (within_withSent hsent sets)
  rw [BitVec.getLsbD_and, Bool.and_eq_true] at hk ⊢
  exact ⟨h.sent k hk.1, hk.2⟩

/-- A wait is no command. -/
theorem Received.count (h : Received event set timeout sets recved event' calls) :
    calls.countP ConnectCall.isStart = 0 ∧ calls.countP ConnectCall.isClose = 0 := by
  obtain ⟨pre, post, -, rfl, -⟩ := h.trace
  have hpre := (arrived_trace pre).2.2.2
  have hpost := (arrived_trace post).2.2.2
  constructor
  · rw [List.countP_append, List.countP_cons, hpre.1, hpost.1]
    rfl
  · rw [List.countP_append, List.countP_cons, hpre.2, hpost.2]
    rfl

/-- The value returned is negative only for a timeout. -/
theorem Received.result_neg_iff (h : Received event set timeout sets recved event' calls)
    (hset : set.toNat < 2 ^ 31) : eventResult recved < 0 ↔ recved = none := by
  cases recved with
  | none => exact iff_of_true (by decide) rfl
  | some bits =>
      obtain ⟨pre, post, -, -, hrecved⟩ := h.trace
      have hle : bits.toNat ≤ set.toNat := by
        rw [← (hrecved bits rfl).2.1.and_eq, BitVec.toNat_and]
        exact Nat.and_le_right
      refine iff_of_false (fun hneg => ?_) (by simp)
      rw [eventResult, BitVec.toInt_neg_iff] at hneg
      omega

end Wait

/-- What a pass of a client call does to the event and to the trace, and what its end says
about the result wait. -/
structure Attempted (ending : AttemptEnd) (event' : RtEvent Unit) (calls : List ConnectCall) :
    Prop where
  idle : event'.suspendThread = []
  starts : calls.countP ConnectCall.isStart = 1
  closes : calls.countP ConnectCall.isClose = 0
  fresh : ∀ sent, Fresh sent calls
  result : ∃ recved, (∀ last, lastResult last calls = recved) ∧
    (∀ r, ending = .exit r → (r = 0 ↔ ConnectedBy recved)) ∧
    (ending = .connFail → RefusedBy recved)

/-- The clear and the command of a pass, in a trace. -/
theorem start_trace (m : EventSet) (recved : Option EventSet) (sets : List EventSet)
    (type : AtSocketType) (outcome : ExecOutcome) {start : List ConnectCall}
    (h : start = .eventRecv m 0 recved :: sets.map .arrived ++ [.cipstart type outcome]) :
    (∀ last, lastResult last start = none) ∧ (∀ sent, sentSince sent start = withSent 0 sets) ∧
      (∀ sent, Fresh sent start) ∧ start.countP ConnectCall.isStart = 1 ∧
      start.countP ConnectCall.isClose = 0 := by
  subst h
  obtain ⟨hlast, hsent, hfresh, hstart, hclose⟩ := arrived_trace sets
  refine ⟨fun last => ?_, fun sent => ?_, fun sent => ?_, ?_, ?_⟩
  · rw [lastResult_append]
    exact hlast none
  · rw [sentSince_append]
    exact hsent 0
  · rw [fresh_append]
    exact ⟨hfresh 0, trivial⟩
  · rw [List.countP_append, List.countP_cons, hstart]
    rfl
  · rw [List.countP_append, List.countP_cons, hclose]
    rfl

/-- **One pass of a client call.** -/
theorem connectAttempt_attempted (a : AttemptAnswers) {i : Nat} (hi : i < socketsNum)
    {type : AtSocketType} (htype : type ≠ .invalid) {event : RtEvent Unit}
    (hidle : event.suspendThread = []) {ending : AttemptEnd} {event' : RtEvent Unit}
    {calls : List ConnectCall}
    (h : connectAttempt a i type true event = (ending, event', calls)) :
    Attempted ending event' calls := by
  have hstart : connectStart type true a.cipstart
      = (decide (a.cipstart = .ok), [.cipstart type a.cipstart]) := by
    cases type with
    | invalid => exact absurd rfl htype
    | tcp | udp => rfl
  rcases h₀ : a9gSocketEventRecv event (setEvent i connResult) 0 a.cleared
    with ⟨recved₀, event₀, cleared⟩
  obtain ⟨rfl, hidle₀, hclean⟩ :=
    a9gSocketEventRecv_cleared hidle (setEvent_ne_zero hi connResult) h₀
  have hsocket : Within (setEvent i 0) (setEvent i connResult) := by
    rw [setEvent_eq i connResult]
    exact within_or_left
  have hresult : Within connResult (setEvent i connResult) := by
    rw [setEvent_eq i connResult]
    exact within_or_right
  have hwords : ∀ i < socketsNum, (setEvent (i : Nat) 0).toNat < 2 ^ 31 ∧
      setEvent (i : Nat) 0 ≠ connResult := by decide
  obtain ⟨hsmall, hne⟩ := hwords i hi
  simp only [connectAttempt, h₀, hstart] at h
  generalize hhead : ConnectCall.eventRecv (setEvent i connResult) 0 recved₀ ::
    a.cleared.map .arrived ++ [.cipstart type a.cipstart] = start at h
  obtain ⟨hlast, hsent, hfresh, hcount, hclose⟩ := start_trace _ _ _ _ _ hhead.symm
  split at h
  · -- The command fails.
    cases h
    exact ⟨hidle₀, hcount, hclose, hfresh, none, hlast,
      fun r hr => by cases hr; simp [ConnectedBy, rtError], fun hr => by cases hr⟩
  · rcases h₁ : a9gSocketEventRecv event₀ (setEvent i 0) (10 * rtTickPerSecond) a.wait1
      with ⟨recved₁, event₁, wait1⟩
    have hwait1 := a9gSocketEventRecv_received hidle₀ (setEvent_zero hi).1 (by decide) h₁
    have hfresh₁ : ∀ sent, Fresh sent (start ++ wait1) := by
      intro sent
      rw [fresh_append, hsent]
      exact ⟨hfresh sent, hwait1.fresh (by decide) hsocket hclean⟩
    have hlast₁ : ∀ last, lastResult last (start ++ wait1) = none := by
      intro last
      rw [lastResult_append, hlast, hwait1.lastResult (by decide), if_neg hne]
    have hcount₁ : (start ++ wait1).countP ConnectCall.isStart = 1 := by
      rw [List.countP_append, hcount, hwait1.count.1]
    have hclose₁ : (start ++ wait1).countP ConnectCall.isClose = 0 := by
      rw [List.countP_append, hclose, hwait1.count.2]
    simp only [h₁, hwait1.result_neg_iff hsmall] at h
    split at h
    · -- The first wait times out.
      cases h
      exact ⟨hwait1.idle, hcount₁, hclose₁, hfresh₁, none, hlast₁,
        fun r hr => by cases hr; simp [ConnectedBy, rtEtimeout], fun hr => by cases hr⟩
    · rcases h₂ : a9gSocketEventRecv event₁ connResult (1 * rtTickPerSecond) a.wait2
        with ⟨recved₂, event₂, wait2⟩
      have hwait2 :=
        a9gSocketEventRecv_received hwait1.idle (by decide) (by decide) h₂
      have hfresh₂ : ∀ sent, Fresh sent (start ++ wait1 ++ wait2) := by
        intro sent
        rw [fresh_append, sentSince_append, hsent, hwait1.sentSince (by decide)]
        exact ⟨hfresh₁ sent, hwait2.fresh (by decide) hresult (hwait1.keeps hclean)⟩
      have hlast₂ : ∀ last, lastResult last (start ++ wait1 ++ wait2) = recved₂ := by
        intro last
        rw [lastResult_append, hlast₁, hwait2.lastResult (by decide), if_pos rfl]
      have hcount₂ : (start ++ wait1 ++ wait2).countP ConnectCall.isStart = 1 := by
        rw [List.countP_append, hcount₁, hwait2.count.1]
      have hclose₂ : (start ++ wait1 ++ wait2).countP ConnectCall.isClose = 0 := by
        rw [List.countP_append, hclose₁, hwait2.count.2]
      simp only [h₂, hwait2.result_neg_iff (show connResult.toNat < 2 ^ 31 from by decide)] at h
      split at h
      · -- The result wait times out.
        rename_i hnone
        subst hnone
        cases h
        exact ⟨hwait2.idle, hcount₂, hclose₂, hfresh₂, none, hlast₂,
          fun r hr => by cases hr; simp [ConnectedBy, rtEtimeout], fun hr => by cases hr⟩
      · rename_i hsome
        obtain ⟨bits, rfl⟩ := Option.ne_none_iff_exists'.mp hsome
        obtain ⟨pre, post, -, -, hrecved⟩ := hwait2.trace
        obtain ⟨hbits, hwithin, -⟩ := hrecved bits rfl
        rw [Option.getD_some] at h
        split at h
        · rename_i hfail
          cases h
          exact ⟨hwait2.idle, hcount₂, hclose₂, hfresh₂, some bits, hlast₂,
            fun r hr => (by cases hr), fun _ => ⟨bits, rfl, hfail⟩⟩
        · rename_i hfail
          have hfail₀ : bits &&& a9gEventConnFail = 0 := not_not.mp hfail
          cases h
          refine ⟨hwait2.idle, hcount₂, hclose₂, hfresh₂, some bits, hlast₂, fun r hr => ?_,
            fun hr => by cases hr⟩
          cases hr
          refine iff_of_true rfl ⟨bits, rfl, fun hok => hbits ?_, hfail₀⟩
          -- Without either bit nothing would have been received.
          rw [← hwithin.and_eq, BitVec.and_comm]
          rw [BitVec.and_comm] at hok hfail₀
          exact or_and_eq_zero hok hfail₀

/-! ### The whole call -/

/-- A list with one element of a kind is split at it in one way. -/
theorem split_unique {α : Type} {p : α → Bool} {x y : α} (hy : p y = true)
    {xs ys pre post : List α} (hxs : xs.countP p = 0) (hys : ys.countP p = 0)
    (h : xs ++ x :: ys = pre ++ y :: post) : xs = pre := by
  induction xs generalizing pre with
  | nil =>
      cases pre with
      | nil => rfl
      | cons z pre =>
          obtain ⟨rfl, htail⟩ := List.cons.inj h
          have hmem : y ∈ ys := by rw [htail]; simp
          exact absurd hy (List.countP_eq_zero.mp hys y hmem)
  | cons z xs ih =>
      have hz : ¬ p z = true := List.countP_eq_zero.mp hxs z List.mem_cons_self
      have hxs' : xs.countP p = 0 := by
        rwa [List.countP_cons_of_neg hz] at hxs
      cases pre with
      | nil =>
          obtain ⟨rfl, -⟩ := List.cons.inj h
          exact absurd hy hz
      | cons w pre =>
          obtain ⟨rfl, htail⟩ := List.cons.inj h
          rw [ih hxs' htail]

/-- CONNECT FAIL wins. -/
theorem not_connectedBy_of_refusedBy {recved : Option EventSet} (h : RefusedBy recved) :
    ¬ ConnectedBy recved := by
  obtain ⟨bits, rfl, hfail⟩ := h
  rintro ⟨bits', hbits, -, hno⟩
  cases hbits
  exact hfail hno

/-- A call that ends with its first pass, or before `AT+CIPCLOSE`. -/
theorem protocol_of_one {ending : AttemptEnd} {event : RtEvent Unit} {calls : List ConnectCall}
    (h : Attempted ending event calls) {result : Int} {close : List ConnectCall}
    (hclose : close = [] ∨ close = [ConnectCall.createResp 1 false])
    (hend : (ending = .exit result ∧ close = []) ∨ (ending = .connFail ∧ result < 0)) :
    RetryProtocol result
      ([ConnectCall.createResp 0 true] ++ (calls ++ close) ++ [ConnectCall.deleteResp 0]) := by
  obtain ⟨recved, hlast, hexit, hfail⟩ := h.result
  have htail : ∀ last, lastResult last (close ++ [ConnectCall.deleteResp 0]) = last := by
    rcases hclose with rfl | rfl <;> exact fun _ => rfl
  have hstart₀ : close.countP ConnectCall.isStart = 0 := by
    rcases hclose with rfl | rfl <;> rfl
  have hclose₀ : close.countP ConnectCall.isClose = 0 := by
    rcases hclose with rfl | rfl <;> rfl
  have hcount : ([ConnectCall.createResp 0 true] ++ (calls ++ close)
      ++ [ConnectCall.deleteResp 0]).countP ConnectCall.isClose = 0 := by
    simp [List.countP_append, h.closes, hclose₀, ConnectCall.isClose]
  refine ⟨?_, by omega, ?_, ?_, ?_⟩
  · simp [List.countP_append, h.starts, hstart₀, ConnectCall.isStart]
  · intro pre outcome post hsplit
    have hmem : ConnectCall.cipclose outcome ∈ [ConnectCall.createResp 0 true]
        ++ (calls ++ close) ++ [ConnectCall.deleteResp 0] := by
      rw [hsplit]
      simp
    exact absurd rfl (List.countP_eq_zero.mp hcount _ hmem)
  · have hwhole : lastResult none ([ConnectCall.createResp 0 true] ++ (calls ++ close)
        ++ [ConnectCall.deleteResp 0]) = recved := by
      rw [List.append_assoc, List.append_assoc, lastResult_append, lastResult_append, hlast,
        htail]
    rw [hwhole]
    rcases hend with ⟨rfl, -⟩ | ⟨rfl, hneg⟩
    · exact hexit result rfl
    · exact iff_of_false (by omega) (not_connectedBy_of_refusedBy (hfail rfl))
  · rw [List.append_assoc, fresh_append]
    refine ⟨trivial, ?_⟩
    rw [List.append_assoc, fresh_append]
    refine ⟨h.fresh _, ?_⟩
    rcases hclose with rfl | rfl <;> trivial

/-- A call that issues `AT+CIPCLOSE`, and whatever comes behind it. -/
theorem protocol_of_close {event : RtEvent Unit} {calls : List ConnectCall}
    (h : Attempted .connFail event calls) (outcome : ExecOutcome) {result : Int}
    {more : List ConnectCall}
    (hmore : (more = [] ∧ result < 0) ∨
      ∃ ending event', Attempted ending event' more ∧
        (ending = .exit result ∨ ending = .connFail ∧ result < 0)) :
    RetryProtocol result ([ConnectCall.createResp 0 true] ++ (calls
      ++ [ConnectCall.createResp 1 true, .cipclose outcome, .deleteResp 1] ++ more)
      ++ [ConnectCall.deleteResp 0]) := by
  obtain ⟨recved, hlast, -, hfail⟩ := h.result
  have hrefused := hfail rfl
  have hcountMore : more.countP ConnectCall.isStart ≤ 1 ∧
      more.countP ConnectCall.isClose = 0 ∧ ∀ sent, Fresh sent more := by
    rcases hmore with ⟨rfl, -⟩ | ⟨ending, event', hmore, -⟩
    · exact ⟨Nat.zero_le _, rfl, fun _ => trivial⟩
    · exact ⟨Nat.le_of_eq hmore.starts, hmore.closes, hmore.fresh⟩
  obtain ⟨hstarts, hcloses, hfresh⟩ := hcountMore
  -- The trace around the close.
  have hsplit : [ConnectCall.createResp 0 true] ++ (calls
        ++ [ConnectCall.createResp 1 true, .cipclose outcome, .deleteResp 1] ++ more)
        ++ [ConnectCall.deleteResp 0]
      = ([ConnectCall.createResp 0 true] ++ calls ++ [ConnectCall.createResp 1 true])
        ++ ConnectCall.cipclose outcome
          :: ([ConnectCall.deleteResp 1] ++ more ++ [ConnectCall.deleteResp 0]) := by
    simp
  rw [hsplit]
  have hbefore : ([ConnectCall.createResp 0 true] ++ calls
      ++ [ConnectCall.createResp 1 true]).countP ConnectCall.isClose = 0 := by
    simp [List.countP_append, h.closes, ConnectCall.isClose]
  have hbehind : ([ConnectCall.deleteResp 1] ++ more
      ++ [ConnectCall.deleteResp 0]).countP ConnectCall.isClose = 0 := by
    simp [List.countP_append, hcloses, ConnectCall.isClose]
  have hlastBefore : lastResult none ([ConnectCall.createResp 0 true] ++ calls
      ++ [ConnectCall.createResp 1 true]) = recved := by
    rw [lastResult_append, lastResult_append, hlast]
    rfl
  refine ⟨?_, ?_, ?_, ?_, ?_⟩
  · simp [List.countP_append, h.starts, ConnectCall.isStart]
    omega
  · rw [List.countP_append, List.countP_cons, hbefore, hbehind]
    simp [ConnectCall.isClose]
  · intro pre outcome' post heq
    obtain rfl := split_unique rfl hbefore hbehind heq
    refine ⟨?_, ?_⟩
    · simp [List.countP_append, h.starts, ConnectCall.isStart]
    · rw [hlastBefore]
      exact hrefused
  · have hwhole : lastResult none
        (([ConnectCall.createResp 0 true] ++ calls ++ [ConnectCall.createResp 1 true])
          ++ ConnectCall.cipclose outcome
            :: ([ConnectCall.deleteResp 1] ++ more ++ [ConnectCall.deleteResp 0]))
        = lastResult recved more := by
      rw [lastResult_append, hlastBefore]
      show lastResult recved ([ConnectCall.deleteResp 1] ++ more ++ [ConnectCall.deleteResp 0]) = _
      rw [lastResult_append, lastResult_append]
      rfl
    rw [hwhole]
    rcases hmore with ⟨rfl, hneg⟩ | ⟨ending, event', hmore, hend⟩
    · exact iff_of_false (by omega) (not_connectedBy_of_refusedBy hrefused)
    · obtain ⟨recved', hlast', hexit', hfail'⟩ := hmore.result
      rw [hlast']
      rcases hend with rfl | ⟨rfl, hneg⟩
      · exact hexit' result rfl
      · exact iff_of_false (by omega) (not_connectedBy_of_refusedBy (hfail' rfl))
  · rw [fresh_append, List.append_assoc, fresh_append, fresh_append]
    refine ⟨⟨trivial, h.fresh _, trivial⟩, ?_⟩
    show Fresh _ ([ConnectCall.deleteResp 1] ++ more ++ [ConnectCall.deleteResp 0])
    rw [List.append_assoc, fresh_append, fresh_append]
    exact ⟨trivial, hfresh _, trivial⟩

/-- Answers with nothing sent. -/
def silentAnswers : ConnectAnswers :=
  ⟨true, fun _ => ⟨.ok, [], [], []⟩, true, .ok⟩

end CarLocator.A9g
