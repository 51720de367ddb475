import CarLocator.At.RecvPkt
import CarLocator.Kernel.Sem
import CarLocator.Library.Simulation

/-!
# `CarLocator.At.Socket`: received data between the parser and a reader

The parser thread hands a received buffer to `at_recv_notice_cb`: the buffer goes into
`recvpkt_list`, `recv_notice` is released, and `rcvevent` is counted up for `at_poll`.
`at_closed_notice_cb` does the like when the modem closes the connection. A thread reads with
`at_recvfrom`: it looks into the list, then at the state, and then waits for the notice.

`recvStep` interleaves the statements of the two. The list is under `recv_lock`, so a put and a
get are one step each. The reader looks at the state, and asks whether the list is empty on its
way out, without the lock.

* `recv_stream`: no byte is lost, repeated or reordered, and freed memory is read exactly when a
  read goes beyond the first packet.
* `recv_wakeup`: no reader sleeps on data or on a closed connection, as long as the count of
  `recv_notice` does not wrap around.
* `recv_readable`: data in the list keeps `rcvevent` above zero between calls, unless a packet
  comes between the test and the clean of the reader's way out.
-/

set_option autoImplicit false

namespace CarLocator.At

open CarLocator.Kernel
open CarLocator.Library

/-- `enum at_socket_state`. -/
inductive AtSocketState
  | unused
  | opened
  | listen
  | connect
  | closed
  deriving DecidableEq, Repr

/-- `at_event_t`. -/
inductive AtEvent
  | send
  | recv
  | error
  deriving DecidableEq, Repr

/-- The event counts of `struct at_socket`. -/
structure SocketEvents where
  rcvevent : UInt16
  sendevent : UInt16
  errevent : UInt16
  deriving DecidableEq, Repr

/-- `at_do_event_changes`. -/
def atDoEventChanges (e : SocketEvents) (event : AtEvent) (isPlus : Bool) : SocketEvents :=
  match event, isPlus with
  | .send, true => { e with sendevent := 1 }
  | .send, false => { e with sendevent := 0 }
  | .recv, true => { e with rcvevent := e.rcvevent + 1 }
  | .recv, false => if e.rcvevent ≠ 0 then { e with rcvevent := e.rcvevent - 1 } else e
  | .error, true => { e with errevent := e.errevent + 1 }
  | .error, false => if e.errevent ≠ 0 then { e with errevent := e.errevent - 1 } else e

/-- `at_do_event_clean`. -/
def atDoEventClean (e : SocketEvents) : AtEvent → SocketEvents
  | .send => { e with sendevent := 0 }
  | .recv => { e with rcvevent := 0 }
  | .error => { e with errevent := 0 }

/-- The mask of `at_poll`: `POLLIN`, `POLLOUT` and `POLLERR`. -/
def atPoll (e : SocketEvents) : Bool × Bool × Bool :=
  (e.rcvevent ≠ 0, e.sendevent ≠ 0, e.errevent ≠ 0)

/-- The arguments of a call of `at_recvfrom` that has passed the test of its length. The timeout
is that of the socket, in ticks. -/
structure RecvCall where
  len : Nat
  dontWait : Bool
  timeout : Int
  pos : 0 < len
  deriving DecidableEq, Repr

/-- Where the reader is in `at_recvfrom`. -/
inductive RecvPc
  /-- no call runs -/
  | idle
  /-- about to take what is left in the list -/
  | entry (c : RecvCall)
  /-- there was nothing, about to look at the state -/
  | stateCheck (c : RecvCall)
  /-- about to take `recv_notice` -/
  | taking (c : RecvCall)
  /-- suspended in `rt_sem_take` -/
  | suspended (c : RecvCall)
  /-- `rt_sem_take` returned `RT_EOK` -/
  | woken (c : RecvCall)
  /-- the socket was connected, about to look into the list again -/
  | getting (c : RecvCall)
  /-- at the label `__exit` -/
  | exiting (recvLen : Nat) (result : Int)
  /-- `rcvevent` has been counted down -/
  | counted (result : Int)
  /-- the list was not empty -/
  | nonempty (result : Int)
  /-- the list was empty -/
  | empty (result : Int)
  deriving DecidableEq, Repr

/-- Where the parser is in `at_recv_notice_cb` or `at_closed_notice_cb`. -/
inductive NoticePc
  | idle
  /-- the buffer is in the list -/
  | stored
  /-- the semaphore has been released for it -/
  | released
  /-- `at_closed_notice_cb` has counted `rcvevent` up -/
  | closedRecv
  /-- and `errevent` -/
  | closedError
  /-- and has set the state -/
  | closedState
  deriving DecidableEq, Repr

/-- A connected socket with its reader and the parser. -/
structure AtSocket where
  state : AtSocketState
  recvpktList : List RecvPkt
  recvNotice : RtSem Unit
  events : SocketEvents
  reader : RecvPc
  parser : NoticePc
  /-- the bytes that have gone into the list -/
  delivered : Bytes
  /-- the bytes that have been copied to the reader -/
  returned : Bytes
  /-- what the calls of `at_recvfrom` returned -/
  results : List Int
  /-- freed memory has been read -/
  freed : Bool
  deriving DecidableEq, Repr

/-- The steps. -/
inductive RecvAct
  /-- `at_recv_notice_cb` with this buffer, and whether there is memory for the packet -/
  | recv (buff : Bytes) (calloc : Bool)
  /-- `at_closed_notice_cb` -/
  | close
  /-- the next statement of the parser -/
  | notice
  | call (c : RecvCall)
  /-- the next statement of the reader -/
  | next
  | timeout
  deriving DecidableEq, Repr

/-- After `at_connect`. -/
def atSocketInit : AtSocket :=
  { state := .connect, recvpktList := [], recvNotice := rtSemInit .fifo 0
    events := atDoEventChanges ⟨0, 0, 0⟩ .send true, reader := .idle, parser := .idle
    delivered := [], returned := [], results := [], freed := false }

/-- The priority of the thread that reads, `RT_MAIN_THREAD_PRIORITY`. -/
def readerPriority : Nat := 10

/-- `at_recvpkt_get` in `at_recvfrom`. Without data the reader goes on at `pc`. -/
def recvGet (s : AtSocket) (c : RecvCall) (pc : RecvPc) : AtSocket :=
  let (mem, rlist, freed) := atRecvpktGet s.recvpktList c.len
  { s with
    recvpktList := rlist
    returned := s.returned ++ mem
    freed := s.freed || freed
    reader := if 0 < mem.length then .exiting mem.length mem.length else pc }

/-- The test of the state, and of the flag `MSG_DONTWAIT`. -/
def recvStateCheck (state : AtSocketState) (c : RecvCall) : RecvPc :=
  if state = .closed then .exiting 0 0
  else if state ≠ .connect ∧ state ≠ .opened then .exiting 0 (-1)
  else if c.dontWait then .exiting 0 0
  else .taking c

/-- The `rt_sem_take` of `at_recvfrom`. -/
def recvTake (s : AtSocket) (c : RecvCall) : AtSocket :=
  match rtSemTake s.recvNotice () readerPriority c.timeout with
  | (.taken, sem) => { s with recvNotice := sem, reader := .woken c }
  | (.timeout, sem) => { s with recvNotice := sem, reader := .exiting 0 (-1) }
  | (.suspended, sem) => { s with recvNotice := sem, reader := .suspended c }

/-- The call returns. -/
def recvReturn (s : AtSocket) (events : SocketEvents) (result : Int) : AtSocket :=
  { s with events := events, reader := .idle, results := s.results ++ [result] }

/-- The next statement of `at_recvfrom`. -/
def recvfromNext (s : AtSocket) : Option AtSocket :=
  match s.reader with
  | .idle | .suspended _ => none
  | .entry c => some (recvGet s c (.stateCheck c))
  | .stateCheck c => some { s with reader := recvStateCheck s.state c }
  | .taking c => some (recvTake s c)
  | .woken c =>
    some { s with reader := if s.state = .connect then .getting c else .exiting 0 0 }
  | .getting c => some (recvGet s c (.taking c))
  | .exiting recvLen result =>
    if 0 < recvLen then
      some { s with
        events := atDoEventChanges s.events .recv false
        reader := .counted result }
    else some (recvReturn s (atDoEventChanges s.events .error true) result)
  | .counted result =>
    some { s with reader := if s.recvpktList = [] then .empty result else .nonempty result }
  | .nonempty result => some (recvReturn s (atDoEventChanges s.events .recv true) result)
  | .empty result => some (recvReturn s (atDoEventClean s.events .recv) result)

/-- `rt_sem_release` of `recv_notice` by the parser. A reader that is resumed goes on behind
`rt_sem_take`. -/
def noticeRelease (s : AtSocket) (pc : NoticePc) : AtSocket :=
  match rtSemRelease s.recvNotice with
  | (sem, none) => { s with recvNotice := sem, parser := pc }
  | (sem, some _) =>
    { s with
      recvNotice := sem
      parser := pc
      reader := match s.reader with
        | .suspended c => .woken c
        | reader => reader }

/-- The next statement of `at_recv_notice_cb` or `at_closed_notice_cb`. -/
def noticeNext (s : AtSocket) : Option AtSocket :=
  match s.parser with
  | .idle => none
  | .stored => some (noticeRelease s .released)
  | .released => some { s with events := atDoEventChanges s.events .recv true, parser := .idle }
  | .closedRecv =>
    some { s with events := atDoEventChanges s.events .error true, parser := .closedError }
  | .closedError => some { s with state := .closed, parser := .closedState }
  | .closedState => some (noticeRelease s .idle)

/-- One step of the interleaving. -/
def recvStep (s : AtSocket) : RecvAct → Option AtSocket
  | .recv buff calloc =>
    if s.parser = .idle then
      some { s with
        recvpktList := atRecvpktPut calloc s.recvpktList buff
        delivered := if calloc then s.delivered ++ buff else s.delivered
        parser := .stored }
    else none
  | .close =>
    if s.parser = .idle then
      some { s with events := atDoEventChanges s.events .recv true, parser := .closedRecv }
    else none
  | .notice => noticeNext s
  | .call c => if s.reader = .idle then some { s with reader := .entry c } else none
  | .next => recvfromNext s
  | .timeout =>
    (rtSemTimeout s.recvNotice ()).map fun sem =>
      { s with recvNotice := sem, reader := .exiting 0 (-1) }

/-! ### The bytes -/

/-- What has been delivered and not returned is in the list. -/
def Streaming (s : AtSocket) : Prop := s.delivered = s.returned ++ recvBytes s.recvpktList

/-- A get moves bytes from the list to the reader. -/
theorem streaming_recvGet {s : AtSocket} (h : Streaming s) (c : RecvCall) (pc : RecvPc) :
    Streaming (recvGet s c pc) := by
  obtain ⟨hmem, hrest⟩ := atRecvpktGet_bytes s.recvpktList c.len
  show s.delivered = (s.returned ++ (atRecvpktGet s.recvpktList c.len).1)
    ++ recvBytes (atRecvpktGet s.recvpktList c.len).2.1
  rw [hmem, hrest, List.append_assoc, List.take_append_drop]
  exact h

/-- The parser's statements after the put do not touch the bytes. -/
theorem streaming_noticeNext {s s' : AtSocket} (h : Streaming s)
    (hnext : noticeNext s = some s') : Streaming s' := by
  have hrelease : ∀ pc, Streaming (noticeRelease s pc) := by
    intro pc
    unfold noticeRelease
    split <;> exact h
  unfold noticeNext at hnext
  cases hparser : s.parser <;> rw [hparser] at hnext
  case idle => cases hnext
  case stored | closedState =>
    cases hnext
    exact hrelease _
  case released | closedRecv | closedError =>
    cases hnext
    exact h

/-- The statements of the reader keep the bytes. -/
theorem streaming_recvfromNext {s s' : AtSocket} (h : Streaming s)
    (hnext : recvfromNext s = some s') : Streaming s' := by
  unfold recvfromNext at hnext
  cases hreader : s.reader <;> rw [hreader] at hnext
  case idle | suspended => cases hnext
  case entry | getting =>
    cases hnext
    exact streaming_recvGet h _ _
  case taking =>
    cases hnext
    unfold recvTake
    split <;> exact h
  case exiting =>
    dsimp only at hnext
    split at hnext <;> cases hnext <;> exact h
  case stateCheck | woken | counted | nonempty | empty =>
    cases hnext
    exact h

/-- Every step keeps the bytes. -/
theorem streaming_recvStep (s : AtSocket) (a : RecvAct) (s' : AtSocket) (h : Streaming s)
    (hstep : recvStep s a = some s') : Streaming s' := by
  cases a with
  | recv buff calloc =>
      simp only [recvStep] at hstep
      split at hstep
      · cases hstep
        cases calloc with
        | false => exact h
        | true =>
            show s.delivered ++ buff = s.returned ++ recvBytes _
            rw [recvBytes_put, h, List.append_assoc]
      · cases hstep
  | close =>
      simp only [recvStep] at hstep
      split at hstep
      · cases hstep
        exact h
      · cases hstep
  | notice => exact streaming_noticeNext h hstep
  | call c =>
      simp only [recvStep] at hstep
      split at hstep
      · cases hstep
        exact h
      · cases hstep
  | next => exact streaming_recvfromNext h hstep
  | timeout =>
      obtain ⟨sem, -, rfl⟩ := Option.map_eq_some_iff.mp hstep
      exact h

/-- The guard: a get asks for no more than the first packet holds. -/
def WithinPacket (s : AtSocket) : RecvAct → Prop
  | .next => ∀ c, s.reader = .entry c ∨ s.reader = .getting c →
      ∀ pkt rest, s.recvpktList = pkt :: rest → c.len ≤ pkt.content.length
  | _ => True

/-- A get reads freed memory exactly when it asks for more than the first packet holds. -/
theorem freed_recvGet {s : AtSocket} (h : s.freed = false) (c : RecvCall) (pc : RecvPc) :
    (recvGet s c pc).freed = false
      ↔ ∀ pkt rest, s.recvpktList = pkt :: rest → c.len ≤ pkt.content.length := by
  show (s.freed || (atRecvpktGet s.recvpktList c.len).2.2) = false ↔ _
  rw [h, Bool.false_or, ← Bool.not_eq_true, readsFreed_iff]
  push Not
  rfl

/-- The statements of the reader. -/
theorem freed_recvfromNext {s s' : AtSocket} (h : s.freed = false)
    (hnext : recvfromNext s = some s') : s'.freed = false ↔ WithinPacket s .next := by
  unfold recvfromNext at hnext
  unfold WithinPacket
  cases hreader : s.reader <;> rw [hreader] at hnext
  case idle | suspended => cases hnext
  case entry c | getting c =>
    cases hnext
    rw [freed_recvGet h]
    simp
  case taking c =>
    cases hnext
    refine iff_of_true ?_ (by simp)
    unfold recvTake
    split <;> exact h
  case exiting =>
    dsimp only at hnext
    split at hnext <;> cases hnext <;> exact iff_of_true h (by simp)
  case stateCheck | woken | counted | nonempty | empty =>
    cases hnext
    exact iff_of_true h (by simp)

/-- The parser reads no freed memory. -/
theorem freed_noticeNext {s s' : AtSocket} (h : s.freed = false)
    (hnext : noticeNext s = some s') : s'.freed = false := by
  have hrelease : ∀ pc, (noticeRelease s pc).freed = false := by
    intro pc
    unfold noticeRelease
    split <;> exact h
  unfold noticeNext at hnext
  cases hparser : s.parser <;> rw [hparser] at hnext
  case idle => cases hnext
  case stored | closedState =>
    cases hnext
    exact hrelease _
  case released | closedRecv | closedError =>
    cases hnext
    exact h

/-- A get of more than the first packet holds, and no other step, reads freed memory. -/
theorem freed_recvStep (s : AtSocket) (a : RecvAct) (s' : AtSocket) (h : s.freed = false)
    (hstep : recvStep s a = some s') : s'.freed = false ↔ WithinPacket s a := by
  cases a with
  | recv buff calloc =>
      simp only [recvStep] at hstep
      split at hstep
      · cases hstep
        exact iff_of_true h trivial
      · cases hstep
  | close =>
      simp only [recvStep] at hstep
      split at hstep
      · cases hstep
        exact iff_of_true h trivial
      · cases hstep
  | notice => exact iff_of_true (freed_noticeNext h hstep) trivial
  | call c =>
      simp only [recvStep] at hstep
      split at hstep
      · cases hstep
        exact iff_of_true h trivial
      · cases hstep
  | next => exact freed_recvfromNext h hstep
  | timeout =>
      obtain ⟨sem, -, rfl⟩ := Option.map_eq_some_iff.mp hstep
      exact iff_of_true h trivial

/-- The reader is on the suspend list exactly when it is suspended. -/
structure Receiving (s : AtSocket) : Prop where
  awake : (∀ c, s.reader ≠ .suspended c) → s.recvNotice.suspendThread = []
  asleep : ∀ c, s.reader = .suspended c → s.recvNotice.value = 0
    ∧ ∃ timer, s.recvNotice.suspendThread = [semWaiter () readerPriority timer]

/-- A connected socket starts so. -/
theorem receiving_atSocketInit : Receiving atSocketInit :=
  ⟨fun _ => rfl, fun c hc => by cases hc⟩

/-- A reader that does not sleep, with the list of one that does not. -/
theorem receiving_of_awake {s : AtSocket} (hlist : s.recvNotice.suspendThread = [])
    (hreader : ∀ c, s.reader ≠ .suspended c) : Receiving s :=
  ⟨fun _ => hlist, fun c hc => absurd hc (hreader c)⟩

/-- The release wakes a suspended reader, or goes into the value. -/
theorem noticeRelease_cases {s : AtSocket} (h : Receiving s) (pc : NoticePc) :
    ((∀ c, s.reader ≠ .suspended c) ∧ noticeRelease s pc = { s with
      recvNotice := { s.recvNotice with value := s.recvNotice.value + 1 }, parser := pc })
    ∨ ∃ c, s.reader = .suspended c ∧ noticeRelease s pc = { s with
      recvNotice := { s.recvNotice with suspendThread := [] }, parser := pc
      reader := .woken c } := by
  by_cases hs : ∀ c, s.reader ≠ .suspended c
  · refine Or.inl ⟨hs, ?_⟩
    rw [noticeRelease, rtSemRelease_of_nil (h.awake hs)]
  · push Not at hs
    obtain ⟨c, hc⟩ := hs
    obtain ⟨-, timer, hlist⟩ := h.asleep c hc
    refine Or.inr ⟨c, hc, ?_⟩
    rw [noticeRelease, rtSemRelease_of_cons hlist, hc]

/-- The take: a notice is taken, or there is none, and the reader gives up or sleeps. -/
theorem recvTake_cases {s : AtSocket} (hlist : s.recvNotice.suspendThread = []) (c : RecvCall) :
    (s.recvNotice.value ≠ 0 ∧ recvTake s c = { s with
      recvNotice := { s.recvNotice with value := s.recvNotice.value - 1 }, reader := .woken c })
    ∨ (s.recvNotice.value = 0 ∧ recvTake s c = { s with reader := .exiting 0 (-1) })
    ∨ (s.recvNotice.value = 0 ∧ recvTake s c = { s with
      recvNotice := { s.recvNotice with
        suspendThread := [semWaiter () readerPriority (decide (0 < c.timeout))] }
      reader := .suspended c }) := by
  by_cases hvalue : s.recvNotice.value = 0
  · refine Or.inr ?_
    by_cases htime : c.timeout = 0
    · refine Or.inl ⟨hvalue, ?_⟩
      rw [recvTake, rtSemTake, if_neg (by rw [hvalue]; decide), if_pos htime]
    · refine Or.inr ⟨hvalue, ?_⟩
      rw [recvTake, rtSemTake_of_zero hvalue () readerPriority htime, hlist, rtIpcListSuspend_nil]
  · refine Or.inl ⟨hvalue, ?_⟩
    rw [recvTake, rtSemTake_of_pos (UInt16.pos_iff_ne_zero.mpr hvalue)]

/-- A timer runs only for a suspended reader, and takes it off the list. -/
theorem Receiving.timeout {s : AtSocket} {sem : RtSem Unit} (h : Receiving s)
    (htimeout : rtSemTimeout s.recvNotice () = some sem) :
    sem.suspendThread = [] ∧ ∃ c, s.reader = .suspended c := by
  rw [rtSemTimeout] at htimeout
  split at htimeout
  · rename_i hw
    obtain ⟨w, hmem, -⟩ := hw
    cases htimeout
    refine ⟨List.filter_eq_nil_iff.mpr fun x _ => by simp, ?_⟩
    by_contra hs
    rw [h.awake (not_exists.mp hs)] at hmem
    cases hmem
  · cases htimeout

/-- What a get, the test of the state and the way out have in common: the reader does not go to
sleep, and the semaphore stays. -/
theorem Receiving.stays {s s' : AtSocket} (h : Receiving s) (hs : ∀ c, s.reader ≠ .suspended c)
    (hnotice : s'.recvNotice = s.recvNotice) (hs' : ∀ c, s'.reader ≠ .suspended c) :
    Receiving s' :=
  receiving_of_awake (hnotice ▸ h.awake hs) hs'

/-- After the test of the state the call returns, or the reader turns to the semaphore and the
socket is not closed. -/
theorem recvStateCheck_cases (state : AtSocketState) (c : RecvCall) :
    (∃ result, recvStateCheck state c = .exiting 0 result)
      ∨ recvStateCheck state c = .taking c ∧ state ≠ .closed := by
  unfold recvStateCheck
  split
  · exact Or.inl ⟨_, rfl⟩
  · rename_i hclosed
    split
    · exact Or.inl ⟨_, rfl⟩
    · split
      · exact Or.inl ⟨_, rfl⟩
      · exact Or.inr ⟨rfl, hclosed⟩

/-- A get does not put the reader to sleep. -/
theorem recvGet_ne {s : AtSocket} {c : RecvCall} {pc : RecvPc} (hpc : ∀ c, pc ≠ .suspended c)
    (c' : RecvCall) : (recvGet s c pc).reader ≠ .suspended c' := by
  show (if 0 < (atRecvpktGet s.recvpktList c.len).1.length then _ else pc) ≠ _
  split
  · simp
  · exact hpc c'

/-- The statements of the reader keep the suspend list. -/
theorem receiving_recvfromNext {s s' : AtSocket} (h : Receiving s)
    (hnext : recvfromNext s = some s') : Receiving s' := by
  unfold recvfromNext at hnext
  cases hreader : s.reader <;> rw [hreader] at hnext
  case idle | suspended => cases hnext
  case entry | getting =>
    cases hnext
    exact h.stays (by simp [hreader]) rfl (recvGet_ne (by simp))
  case stateCheck c =>
    cases hnext
    refine h.stays (by simp [hreader]) rfl fun c' => ?_
    rcases recvStateCheck_cases s.state c with ⟨result, he⟩ | ⟨he, -⟩ <;> simp [he]
  case taking c =>
    cases hnext
    have hlist := h.awake (by simp [hreader])
    rcases recvTake_cases hlist c with ⟨-, he⟩ | ⟨-, he⟩ | ⟨hvalue, he⟩ <;> rw [he]
    · exact receiving_of_awake hlist (by simp)
    · exact receiving_of_awake hlist (by simp)
    · exact ⟨fun hs => absurd rfl (hs c), fun _ _ => ⟨hvalue, _, rfl⟩⟩
  case woken =>
    cases hnext
    refine h.stays (by simp [hreader]) rfl fun c' => ?_
    dsimp only
    split <;> simp
  case exiting =>
    dsimp only at hnext
    split at hnext <;> cases hnext <;> exact h.stays (by simp [hreader]) rfl (by simp [recvReturn])
  case counted =>
    cases hnext
    refine h.stays (by simp [hreader]) rfl fun c' => ?_
    dsimp only
    split <;> simp
  case nonempty | empty =>
    cases hnext
    exact h.stays (by simp [hreader]) rfl (by simp [recvReturn])

/-- The statements of the parser keep the suspend list. -/
theorem receiving_noticeNext {s s' : AtSocket} (h : Receiving s)
    (hnext : noticeNext s = some s') : Receiving s' := by
  have hrelease : ∀ pc, Receiving (noticeRelease s pc) := by
    intro pc
    rcases noticeRelease_cases h pc with ⟨hs, he⟩ | ⟨c, -, he⟩ <;> rw [he]
    · exact receiving_of_awake (h.awake hs) hs
    · exact receiving_of_awake rfl (by simp)
  unfold noticeNext at hnext
  cases hparser : s.parser <;> rw [hparser] at hnext
  case idle => cases hnext
  case stored | closedState =>
    cases hnext
    exact hrelease _
  case released | closedRecv | closedError =>
    cases hnext
    exact ⟨h.awake, h.asleep⟩

/-- Every step keeps the suspend list. -/
theorem receiving_recvStep (s : AtSocket) (a : RecvAct) (s' : AtSocket) (h : Receiving s)
    (hstep : recvStep s a = some s') : Receiving s' := by
  cases a with
  | recv buff calloc =>
      simp only [recvStep] at hstep
      split at hstep
      · cases hstep
        exact ⟨h.awake, h.asleep⟩
      · cases hstep
  | close =>
      simp only [recvStep] at hstep
      split at hstep
      · cases hstep
        exact ⟨h.awake, h.asleep⟩
      · cases hstep
  | notice => exact receiving_noticeNext h hstep
  | call c =>
      simp only [recvStep] at hstep
      split at hstep
      · rename_i hidle
        cases hstep
        exact h.stays (by simp [hidle]) rfl (by simp)
      · cases hstep
  | next => exact receiving_recvfromNext h hstep
  | timeout =>
      obtain ⟨sem, htimeout, rfl⟩ := Option.map_eq_some_iff.mp hstep
      exact receiving_of_awake (h.timeout htimeout).1 (by simp)

/-- The reader has seen an empty list, and goes to sleep unless a notice is there. -/
def RecvPc.awaitsData : RecvPc → Bool
  | .stateCheck _ | .taking _ | .suspended _ => true
  | _ => false

/-- The reader has seen an open connection, and goes to sleep unless a notice is there. -/
def RecvPc.awaitsClose : RecvPc → Bool
  | .getting _ | .taking _ | .suspended _ => true
  | _ => false

/-- What comes behind the reader's back has a notice: its release is the parser's next statement,
or the semaphore has counted it. -/
structure Noticed (s : AtSocket) : Prop where
  data : s.reader.awaitsData = true → s.recvpktList ≠ [] →
    s.parser = .stored ∨ 0 < s.recvNotice.value
  closed : s.reader.awaitsClose = true → s.state = .closed →
    s.parser = .closedState ∨ 0 < s.recvNotice.value

/-- The guard: the value does not wrap around while the reader needs the notice. -/
def CountsNotice (s : AtSocket) : RecvAct → Prop
  | .notice =>
    s.parser = .stored ∨ s.parser = .closedState → (∀ c, s.reader ≠ .suspended c) →
      (s.reader.awaitsData = true ∧ s.recvpktList ≠ []
        ∨ s.reader.awaitsClose = true ∧ s.state = .closed) →
      s.recvNotice.value ≠ 65535
  | _ => True

/-- A reader that awaits nothing needs no notice. -/
theorem noticed_of_free {s : AtSocket} (hdata : s.reader.awaitsData = false)
    (hclosed : s.reader.awaitsClose = false) : Noticed s :=
  ⟨fun h => by simp [hdata] at h, fun h => by simp [hclosed] at h⟩

/-- The release keeps the notice exactly when the value does not wrap around. -/
theorem noticed_noticeRelease {s : AtSocket} (h : Receiving s) {pc : NoticePc}
    (hparser : s.parser = .stored ∨ s.parser = .closedState)
    (hstored : pc ≠ .stored) (hclosed : pc ≠ .closedState) :
    Noticed (noticeRelease s pc) ↔ CountsNotice s .notice := by
  rcases noticeRelease_cases h pc with ⟨hs, he⟩ | ⟨c, hc, he⟩ <;> rw [he]
  · constructor
    · rintro hn - - (⟨hawaits, hlist⟩ | ⟨hawaits, hstate⟩)
      · exact value_add_one_pos.mp ((hn.data hawaits hlist).resolve_left hstored)
      · exact value_add_one_pos.mp ((hn.closed hawaits hstate).resolve_left hclosed)
    · intro hg
      refine ⟨fun hawaits hlist => Or.inr ?_, fun hawaits hstate => Or.inr ?_⟩
      · exact value_add_one_pos.mpr (hg hparser hs (Or.inl ⟨hawaits, hlist⟩))
      · exact value_add_one_pos.mpr (hg hparser hs (Or.inr ⟨hawaits, hstate⟩))
  · exact iff_of_true (noticed_of_free rfl rfl) fun _ hs => absurd hc (hs c)

/-- The statements of the parser. -/
theorem noticed_noticeNext {s s' : AtSocket} (h : Receiving s) (hn : Noticed s)
    (hnext : noticeNext s = some s') : Noticed s' ↔ CountsNotice s .notice := by
  unfold noticeNext at hnext
  cases hparser : s.parser <;> rw [hparser] at hnext
  case idle => cases hnext
  case stored =>
    cases hnext
    exact noticed_noticeRelease h (Or.inl hparser) (by simp) (by simp)
  case closedState =>
    cases hnext
    exact noticed_noticeRelease h (Or.inr hparser) (by simp) (by simp)
  case released | closedRecv =>
    cases hnext
    refine iff_of_true ⟨fun hawaits hlist => ?_, fun hawaits hstate => ?_⟩
      (by simp [CountsNotice, hparser])
    · exact Or.inr ((hn.data hawaits hlist).resolve_left (by simp [hparser]))
    · exact Or.inr ((hn.closed hawaits hstate).resolve_left (by simp [hparser]))
  case closedError =>
    cases hnext
    -- The state is set here, and the release is what comes next.
    refine iff_of_true ⟨fun hawaits hlist => ?_, fun _ _ => Or.inl rfl⟩
      (by simp [CountsNotice, hparser])
    exact Or.inr ((hn.data hawaits hlist).resolve_left (by simp [hparser]))

/-- A get returns data, or leaves an empty list. -/
theorem recvGet_cases (s : AtSocket) (c : RecvCall) (pc : RecvPc) :
    (∃ n, (recvGet s c pc).reader = .exiting n n)
      ∨ (recvGet s c pc).reader = pc ∧ (recvGet s c pc).recvpktList = [] := by
  show (∃ n : Nat, (if 0 < (atRecvpktGet s.recvpktList c.len).1.length then
      RecvPc.exiting _ (_ : Nat) else pc) = .exiting n n)
    ∨ (if 0 < (atRecvpktGet s.recvpktList c.len).1.length then _ else pc) = pc
      ∧ (atRecvpktGet s.recvpktList c.len).2.1 = []
  split
  · exact Or.inl ⟨_, rfl⟩
  · rename_i hlen
    have hnil := List.length_eq_zero_iff.mp (Nat.eq_zero_of_not_pos hlen)
    exact Or.inr ⟨rfl, atRecvpktGet_empty c.pos hnil⟩

/-- The statements of the reader. -/
theorem noticed_recvfromNext {s s' : AtSocket} (h : Receiving s) (hn : Noticed s)
    (hnext : recvfromNext s = some s') : Noticed s' := by
  unfold recvfromNext at hnext
  cases hreader : s.reader <;> rw [hreader] at hnext
  case idle | suspended => cases hnext
  case entry c =>
    cases hnext
    rcases recvGet_cases s c (.stateCheck c) with ⟨n, he⟩ | ⟨he, hlist⟩
    · exact noticed_of_free (by rw [he]; rfl) (by rw [he]; rfl)
    · exact ⟨fun _ hne => absurd hlist hne,
        fun hawaits => by simp [he, RecvPc.awaitsClose] at hawaits⟩
  case getting c =>
    cases hnext
    rcases recvGet_cases s c (.taking c) with ⟨n, he⟩ | ⟨he, hlist⟩
    · exact noticed_of_free (by rw [he]; rfl) (by rw [he]; rfl)
    · exact ⟨fun _ hne => absurd hlist hne,
        fun _ => hn.closed (by simp [hreader, RecvPc.awaitsClose])⟩
  case stateCheck c =>
    cases hnext
    rcases recvStateCheck_cases s.state c with ⟨result, he⟩ | ⟨he, hstate⟩ <;> rw [he]
    · exact noticed_of_free rfl rfl
    · exact ⟨fun _ => hn.data (by simp [hreader, RecvPc.awaitsData]),
        fun _ hclosed => absurd hclosed hstate⟩
  case taking c =>
    cases hnext
    have hlist := h.awake (by simp [hreader])
    rcases recvTake_cases hlist c with ⟨-, he⟩ | ⟨-, he⟩ | ⟨-, he⟩ <;> rw [he]
    · exact noticed_of_free rfl rfl
    · exact noticed_of_free rfl rfl
    · exact ⟨fun _ => hn.data (by simp [hreader, RecvPc.awaitsData]),
        fun _ => hn.closed (by simp [hreader, RecvPc.awaitsClose])⟩
  case woken c =>
    cases hnext
    by_cases hstate : s.state = .connect
    · rw [if_pos hstate]
      refine ⟨fun hawaits => absurd hawaits Bool.false_ne_true, fun _ hclosed => ?_⟩
      rw [show s.state = .closed from hclosed] at hstate
      cases hstate
    · rw [if_neg hstate]
      exact noticed_of_free rfl rfl
  case exiting =>
    dsimp only at hnext
    split at hnext <;> cases hnext <;> exact noticed_of_free rfl rfl
  case counted =>
    cases hnext
    split <;> exact noticed_of_free rfl rfl
  case nonempty | empty =>
    cases hnext
    exact noticed_of_free rfl rfl

/-- A step keeps the notices exactly when it meets the guard. -/
theorem noticed_recvStep (s : AtSocket) (a : RecvAct) (s' : AtSocket) (h : Receiving s)
    (hn : Noticed s) (hstep : recvStep s a = some s') : Noticed s' ↔ CountsNotice s a := by
  cases a with
  | recv buff calloc =>
      simp only [recvStep] at hstep
      split at hstep
      · rename_i hidle
        cases hstep
        refine iff_of_true ⟨fun _ _ => Or.inl rfl, fun hawaits hstate => ?_⟩ trivial
        exact Or.inr ((hn.closed hawaits hstate).resolve_left (by simp [hidle]))
      · cases hstep
  | close =>
      simp only [recvStep] at hstep
      split at hstep
      · rename_i hidle
        cases hstep
        refine iff_of_true ⟨fun hawaits hlist => ?_, fun hawaits hstate => ?_⟩ trivial
        · exact Or.inr ((hn.data hawaits hlist).resolve_left (by simp [hidle]))
        · exact Or.inr ((hn.closed hawaits hstate).resolve_left (by simp [hidle]))
      · cases hstep
  | notice => exact noticed_noticeNext h hn hstep
  | call c =>
      simp only [recvStep] at hstep
      split at hstep
      · cases hstep
        exact iff_of_true (noticed_of_free rfl rfl) trivial
      · cases hstep
  | next => exact iff_of_true (noticed_recvfromNext h hn hstep) trivial
  | timeout =>
      obtain ⟨sem, -, rfl⟩ := Option.map_eq_some_iff.mp hstep
      exact iff_of_true (noticed_of_free rfl rfl) trivial

/-- The reader sleeps on data or on a closed connection, and the parser is not about to wake
it. -/
def Forgotten (s : AtSocket) : Prop :=
  (∃ c, s.reader = .suspended c) ∧ s.parser = .idle ∧ (s.recvpktList ≠ [] ∨ s.state = .closed)

/-- With its notices the reader is not forgotten. -/
theorem Noticed.not_forgotten {s : AtSocket} (h : Receiving s) (hn : Noticed s) :
    ¬ Forgotten s := by
  rintro ⟨⟨c, hc⟩, hidle, hwork⟩
  have hpos : 0 < s.recvNotice.value := by
    rcases hwork with hlist | hstate
    · exact (hn.data (by rw [hc]; rfl) hlist).resolve_left (by simp [hidle])
    · exact (hn.closed (by rw [hc]; rfl) hstate).resolve_left (by simp [hidle])
  rw [(h.asleep c hc).1] at hpos
  exact absurd hpos (by decide)

/-- **No wake-up is lost.** What comes behind the reader's back has a notice in every state of a
run exactly when the count of the semaphore never wraps around while the reader needs it, and
then the reader never sleeps on data or on a closed connection that the parser is done with. -/
theorem recv_wakeup (as : List RecvAct) :
    (Always recvStep Noticed atSocketInit as ↔ Guarded recvStep CountsNotice atSocketInit as)
    ∧ (Guarded recvStep CountsNotice atSocketInit as →
      Always recvStep (fun s => ¬ Forgotten s) atSocketInit as) := by
  have hexact : Always recvStep Noticed atSocketInit as
      ↔ Guarded recvStep CountsNotice atSocketInit as :=
    always_iff_guarded_of_invariant receiving_recvStep noticed_recvStep receiving_atSocketInit
      (noticed_of_free rfl rfl)
  refine ⟨hexact, fun hg => (always_iff _ _).mpr fun bs s hbs hrun => ?_⟩
  have h : Receiving s :=
    reachable_induction receiving_atSocketInit receiving_recvStep ⟨bs, hrun⟩
  exact ((always_iff _ _).mp (hexact.mpr hg) bs s hbs hrun).not_forgotten h

/-- A call that waits for up to 64 bytes. -/
def recvUpTo64 : RecvCall := ⟨64, false, rtWaitingForever, by decide⟩

-- A packet and the close come while the reader sleeps: the call returns 0, as if the connection
-- had ended, and the next call returns the packet.
example :
    (run recvStep atSocketInit
      [.call recvUpTo64, .next, .next, .next, .recv [1, 2] true, .notice, .notice, .close, .notice,
        .notice, .notice, .next, .next, .call recvUpTo64, .next, .next, .next, .next]).map
      (·.results) = some [0, 2] := by
  decide

/-! ### The readiness -/

/-- The reader is on its way out and has taken the count down. -/
def RecvPc.leaves : RecvPc → Bool
  | .counted _ | .nonempty _ => true
  | _ => false

/-- The parser has still to count what it has put into the list. -/
def NoticePc.counts : NoticePc → Bool
  | .stored | .released => true
  | _ => false

/-- Data in the list shows in `rcvevent`, or is about to. -/
def Readable (s : AtSocket) : Prop :=
  s.reader.leaves = false → s.recvpktList ≠ [] →
    s.parser.counts = true ∨ 0 < s.events.rcvevent

/-- The guard: no packet comes between the test of the list and the clean, and the count does not
wrap around. -/
def CountsData (s : AtSocket) : RecvAct → Prop
  | .notice =>
    s.parser = .released → s.reader.leaves = false → s.recvpktList ≠ [] →
      s.events.rcvevent ≠ 65535
  | .close => s.reader.leaves = false → s.recvpktList ≠ [] → s.events.rcvevent ≠ 65535
  | .next =>
    match s.reader with
    | .nonempty _ =>
      s.recvpktList ≠ [] → s.parser.counts = true ∨ s.events.rcvevent ≠ 65535
    | .empty _ => s.recvpktList ≠ [] → s.parser.counts = true
    | _ => True
  | _ => True

/-- The parser's statements. -/
theorem readable_noticeNext {s s' : AtSocket} (h : Receiving s) (hr : Readable s)
    (hnext : noticeNext s = some s') : Readable s' ↔ CountsData s .notice := by
  unfold noticeNext at hnext
  cases hparser : s.parser <;> rw [hparser] at hnext
  case idle => cases hnext
  case stored =>
    cases hnext
    refine iff_of_true (fun _ _ => Or.inl ?_) (by simp [CountsData, hparser])
    rcases noticeRelease_cases h .released with ⟨-, he⟩ | ⟨c, -, he⟩ <;> rw [he] <;> rfl
  case closedState =>
    cases hnext
    refine iff_of_true (fun hleaves hlist => Or.inr ?_) (by simp [CountsData, hparser])
    rcases noticeRelease_cases h .idle with ⟨-, he⟩ | ⟨c, hc, he⟩ <;> rw [he] at hleaves hlist ⊢
    · exact (hr hleaves hlist).resolve_left (by simp [hparser, NoticePc.counts])
    · exact (hr (by rw [hc]; rfl) hlist).resolve_left (by simp [hparser, NoticePc.counts])
  case released =>
    cases hnext
    simp only [Readable, CountsData, hparser, atDoEventChanges, NoticePc.counts, value_add_one_pos,
      Bool.false_eq_true, false_or, true_imp_iff]
  case closedRecv | closedError =>
    cases hnext
    refine iff_of_true (fun hleaves hlist => Or.inr ?_) (by simp [CountsData, hparser])
    exact (hr hleaves hlist).resolve_left (by simp [hparser, NoticePc.counts])

/-- The statements of the reader. -/
theorem readable_recvfromNext {s s' : AtSocket} (h : Receiving s) (hr : Readable s)
    (hnext : recvfromNext s = some s') : Readable s' ↔ CountsData s .next := by
  have hget : ∀ c pc, s.reader.leaves = false → Readable (recvGet s c pc) := by
    intro c pc hleaves _ hlist
    refine hr hleaves fun hnil => hlist ?_
    show (atRecvpktGet s.recvpktList c.len).2.1 = []
    rw [hnil]
    rfl
  unfold recvfromNext at hnext
  unfold CountsData
  cases hreader : s.reader <;> rw [hreader] at hnext <;> dsimp only at hnext ⊢
  case idle | suspended => cases hnext
  case entry | getting =>
    cases hnext
    exact iff_of_true (hget _ _ (by rw [hreader]; rfl)) trivial
  case stateCheck | woken =>
    cases hnext
    exact iff_of_true (fun _ hlist => hr (by rw [hreader]; rfl) hlist) trivial
  case taking c =>
    cases hnext
    refine iff_of_true (fun _ => ?_) trivial
    have hlist := h.awake (by simp [hreader])
    rcases recvTake_cases hlist c with ⟨-, he⟩ | ⟨-, he⟩ | ⟨-, he⟩ <;> rw [he] <;>
      exact hr (by rw [hreader]; rfl)
  case exiting recvLen result =>
    split at hnext <;> cases hnext
    · exact iff_of_true (fun hleaves => absurd hleaves (by simp [RecvPc.leaves])) trivial
    · exact iff_of_true (fun _ hlist => hr (by rw [hreader]; rfl) hlist) trivial
  case counted result =>
    cases hnext
    refine iff_of_true (fun hleaves hlist => ?_) trivial
    dsimp only at hleaves hlist
    rw [if_neg hlist] at hleaves
    exact absurd hleaves (by simp [RecvPc.leaves])
  case nonempty =>
    cases hnext
    simp only [Readable, recvReturn, RecvPc.leaves, atDoEventChanges, value_add_one_pos,
      true_imp_iff]
  case empty =>
    cases hnext
    simp [Readable, recvReturn, RecvPc.leaves, atDoEventClean]

/-- A step keeps the readiness exactly when it meets the guard. -/
theorem readable_recvStep (s : AtSocket) (a : RecvAct) (s' : AtSocket) (h : Receiving s)
    (hr : Readable s) (hstep : recvStep s a = some s') : Readable s' ↔ CountsData s a := by
  cases a with
  | recv buff calloc =>
      simp only [recvStep] at hstep
      split at hstep
      · cases hstep
        exact iff_of_true (fun _ _ => Or.inl rfl) trivial
      · cases hstep
  | close =>
      simp only [recvStep] at hstep
      split at hstep
      · cases hstep
        simp only [Readable, CountsData, NoticePc.counts, atDoEventChanges, value_add_one_pos,
          Bool.false_eq_true, false_or]
      · cases hstep
  | notice => exact readable_noticeNext h hr hstep
  | call c =>
      simp only [recvStep] at hstep
      split at hstep
      · rename_i hidle
        cases hstep
        exact iff_of_true (fun _ hlist => hr (by rw [hidle]; rfl) hlist) trivial
      · cases hstep
  | next => exact readable_recvfromNext h hr hstep
  | timeout =>
      obtain ⟨sem, htimeout, rfl⟩ := Option.map_eq_some_iff.mp hstep
      obtain ⟨-, c, hc⟩ := h.timeout htimeout
      exact iff_of_true (fun _ hlist => hr (by rw [hc]; rfl) hlist) trivial

/-- **Data shows in `at_poll`.** Data in the list is counted in `rcvevent`, or about to be, in
every state of a run exactly when no packet falls between a reader's test of the list and its
clean, and no count wraps around. Then `at_poll` says `POLLIN` whenever data is there and neither
thread is in a call. -/
theorem recv_readable (as : List RecvAct) :
    (Always recvStep Readable atSocketInit as ↔ Guarded recvStep CountsData atSocketInit as)
    ∧ (Guarded recvStep CountsData atSocketInit as →
      Always recvStep (fun s => s.reader = .idle → s.parser = .idle → s.recvpktList ≠ [] →
        (atPoll s.events).1 = true) atSocketInit as) := by
  have hinit : Readable atSocketInit := fun _ hlist => absurd rfl hlist
  have hexact : Always recvStep Readable atSocketInit as
      ↔ Guarded recvStep CountsData atSocketInit as :=
    always_iff_guarded_of_invariant receiving_recvStep readable_recvStep receiving_atSocketInit
      hinit
  refine ⟨hexact, fun hg => (hexact.mpr hg).mono fun s hr hreader hparser hlist => ?_⟩
  have hpos := (hr (by rw [hreader]; rfl) hlist).resolve_left (by simp [hparser, NoticePc.counts])
  exact decide_eq_true (UInt16.pos_iff_ne_zero.mp hpos)

-- A packet between the test of the list and the clean: it is there, and `at_poll` does not say so.
example :
    (run recvStep atSocketInit
      [.recv [1] true, .notice, .notice, .call recvUpTo64, .next, .next, .next, .recv [2] true,
        .notice, .notice, .next]).map
      (fun s => (recvBytes s.recvpktList, (atPoll s.events).1)) = some ([2], false) := by
  decide

end CarLocator.At
