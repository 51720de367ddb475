import CarLocator.Kernel.Event
import CarLocator.Library.Runs

/-!
# `CarLocator.Gps.Uart`: the hand-over from the receive interrupt to `uart_getchar`

The driver's interrupt puts bytes into the receive FIFO and then calls the receive
indication `uart_intput`, which sends `UART_RX_EVENT`. The reader thread loops in
`uart_getchar`: it reads one byte, and when the FIFO is empty it waits for the event.

`uartStep` interleaves the two. An interrupt is two steps, its append and its event send,
so that the reader can be looked at in between (`isr` counts the interrupts that are
between the two). The reader is one `rt_device_read` or one `rt_event_recv` a step. The
FIFO is unbounded, and the event has been initialised.

`received` and `returned` are the history: the bytes the interrupts have appended and the
bytes `uart_getchar` has returned so far. `uart_handover` states that the second is always
a prefix of the first and that no wake-up is lost. The invariant `Safe` carries it. Its
field `wakeup` says why there is no lost wake-up: once the reader has seen an empty FIFO, a
byte that arrives comes with an interrupt that has its send still ahead or has already set
the event bit.
-/

set_option autoImplicit false

namespace CarLocator.Gps

open CarLocator.Kernel
open CarLocator.Library

/-- `UART_RX_EVENT`. -/
def uartRxEvent : EventSet := 1

/-- Where the reader thread is in the loop of `uart_getchar`. -/
inductive Reader
  /-- about to call `rt_device_read` -/
  | reading
  /-- about to call `rt_event_recv`, after a read that returned no byte -/
  | waiting
  /-- suspended in `rt_event_recv` -/
  | suspended
  deriving DecidableEq, Repr

/-- The UART as the reader thread and the interrupts share it. -/
structure Uart where
  fifo : List UInt8
  event : RtEvent Unit
  reader : Reader
  /-- interrupts between their append and their event send -/
  isr : Nat
  /-- the bytes appended so far -/
  received : List UInt8
  /-- the bytes returned by `uart_getchar` so far -/
  returned : List UInt8
  deriving DecidableEq, Repr

/-- The steps of the interrupts and of the reader thread. -/
inductive UartAct
  | append (bytes : List UInt8)
  | send
  | read
  | recv
  deriving DecidableEq, Repr

/-- The state after `uart_open`: nothing received, the event initialised. -/
def uartInit : Uart :=
  { fifo := [], event := rtEventInit .fifo, reader := .reading, isr := 0,
    received := [], returned := [] }

/-- `uart_intput`: send the event. A reader that is resumed returns from `rt_event_recv`
and goes back to `rt_device_read`. -/
def uartIntput (s : Uart) : Uart :=
  match rtEventSend s.event uartRxEvent with
  | (event, []) => { s with event := event }
  | (event, _ :: _) => { s with event := event, reader := .reading }

/-- The `rt_device_read` of `uart_getchar`: with a byte there `uart_getchar` returns it and
is called again, without one the reader goes on to wait. -/
def uartRead (s : Uart) : Uart :=
  match s.fifo with
  | ch :: fifo => { s with fifo := fifo, returned := s.returned ++ [ch] }
  | [] => { s with reader := .waiting }

/-- The `rt_event_recv` of `uart_getchar`. Its result is not looked at: unless the thread
is suspended, the loop reads again. The priority is that of `gps_thread_entry`. -/
def uartWait (s : Uart) : Uart :=
  match rtEventRecv s.event () 8 uartRxEvent (rtEventFlagAnd ||| rtEventFlagClear)
      rtWaitingForever with
  | (.suspended, event) => { s with event := event, reader := .suspended }
  | (_, event) => { s with event := event, reader := .reading }

/-- One step of the interleaving. -/
def uartStep (s : Uart) : UartAct → Option Uart
  | .append bytes =>
    if bytes = [] then none
    else some { s with
      fifo := s.fifo ++ bytes, received := s.received ++ bytes, isr := s.isr + 1 }
  | .send => if s.isr = 0 then none else some { uartIntput s with isr := s.isr - 1 }
  | .read => if s.reader = .reading then some (uartRead s) else none
  | .recv => if s.reader = .waiting then some (uartWait s) else none

/-- The reader on the suspend list of the event. -/
def readerWaiter : Waiter Unit :=
  ⟨(), 8, uartRxEvent, rtEventFlagAnd ||| rtEventFlagClear, false⟩

/-- The invariant of the hand-over. -/
structure Safe (s : Uart) : Prop where
  /-- every byte is in the FIFO until it is returned, in order -/
  bytes : s.received = s.returned ++ s.fifo
  /-- the event has one bit -/
  bit : s.event.set = 0 ∨ s.event.set = uartRxEvent
  /-- the reader is on the suspend list exactly when it is suspended -/
  list : s.event.suspendThread = if s.reader = .suspended then [readerWaiter] else []
  /-- the reader does not sleep on a bit that is set -/
  asleep : s.reader = .suspended → s.event.set = 0
  /-- a byte behind a reader that saw an empty FIFO will wake it -/
  wakeup : s.reader ≠ .reading → s.fifo ≠ [] → 0 < s.isr ∨ s.event.set = uartRxEvent

/-- The hand-over starts in a safe state. -/
theorem safe_uartInit : Safe uartInit where
  bytes := rfl
  bit := Or.inl rfl
  list := rfl
  asleep := by simp [uartInit]
  wakeup := by simp [uartInit]

/-- Sending the event: the bit is set, or the suspended reader takes it at once. -/
theorem uartIntput_cases {s : Uart} (h : Safe s) :
    (s.reader ≠ .suspended ∧
      uartIntput s = { s with event := { s.event with set := uartRxEvent } }) ∨
    (s.reader = .suspended ∧ uartIntput s = { s with
      event := { s.event with set := 0, suspendThread := [] }, reader := .reading }) := by
  have hlist := h.list
  have hbit : s.event.set ||| uartRxEvent = uartRxEvent := by
    rcases h.bit with hset | hset <;> rw [hset] <;> decide
  have hne : uartRxEvent ≠ 0 := by decide
  by_cases hr : s.reader = .suspended
  · rw [if_pos hr] at hlist
    have hloop : rtEventSendLoop [readerWaiter] uartRxEvent = (0, [], [((), uartRxEvent)]) := by
      decide
    refine Or.inr ⟨hr, ?_⟩
    rw [uartIntput, rtEventSend, if_neg hne, hlist, hbit, hloop]
  · rw [if_neg hr] at hlist
    refine Or.inl ⟨hr, ?_⟩
    rw [uartIntput, rtEventSend_of_none hne (by simp [hlist]), hbit]

/-- Waiting for the event: a set bit is taken and the reader reads again, without one it
goes to sleep. -/
theorem uartWait_cases {s : Uart} (h : Safe s) (hr : s.reader = .waiting) :
    (s.event.set = uartRxEvent ∧
      uartWait s = { s with event := { s.event with set := 0 }, reader := .reading }) ∨
    (s.event.set = 0 ∧ uartWait s = { s with
      event := { s.event with suspendThread := [readerWaiter] }, reader := .suspended }) := by
  have hlist := h.list
  rw [if_neg (by rw [hr]; decide)] at hlist
  have hne : uartRxEvent ≠ 0 := by decide
  rcases h.bit with hset | hset
  · refine Or.inr ⟨hset, ?_⟩
    have hready : recvReady s.event uartRxEvent (rtEventFlagAnd ||| rtEventFlagClear)
        = some false := by
      rw [recvReady, hset]
      decide
    rw [uartWait, rtEventRecv_of_not_ready hne (by decide) hready, hlist,
      rtIpcListSuspend_nil]
    rfl
  · refine Or.inl ⟨hset, ?_⟩
    have hready : recvReady s.event uartRxEvent (rtEventFlagAnd ||| rtEventFlagClear)
        = some true := by
      rw [recvReady, hset]
      decide
    rw [uartWait, rtEventRecv_of_ready hne (by decide) hready, hset]
    rfl

/-- Every step of the interrupts and of the reader keeps `Safe`. -/
theorem safe_uartStep (s : Uart) (a : UartAct) (s' : Uart) (h : Safe s)
    (hstep : uartStep s a = some s') : Safe s' := by
  cases a with
  | append bytes =>
      simp only [uartStep] at hstep
      split at hstep
      · cases hstep
      · cases hstep
        exact
          { bytes := by simp [h.bytes]
            bit := h.bit
            list := h.list
            asleep := h.asleep
            wakeup := fun _ _ => Or.inl (Nat.succ_pos _) }
  | send =>
      simp only [uartStep] at hstep
      split at hstep
      · cases hstep
      · cases hstep
        rcases uartIntput_cases h with ⟨hr, he⟩ | ⟨hr, he⟩ <;> rw [he]
        · exact
            { bytes := h.bytes
              bit := Or.inr rfl
              list := h.list
              asleep := fun hs => absurd hs hr
              wakeup := fun _ _ => Or.inr rfl }
        · exact
            { bytes := h.bytes
              bit := Or.inl rfl
              list := rfl
              asleep := fun hs => by cases hs
              wakeup := fun hs => absurd rfl hs }
  | read =>
      simp only [uartStep] at hstep
      split at hstep
      · rename_i hr
        cases hstep
        have hlist := h.list
        rw [if_neg (by rw [hr]; decide)] at hlist
        unfold uartRead
        split
        · rename_i ch fifo hfifo
          exact
            { bytes := by simp [h.bytes, hfifo]
              bit := h.bit
              list := by simp [hlist, hr]
              asleep := fun hs => by rw [hr] at hs; cases hs
              wakeup := fun hs => absurd hr hs }
        · rename_i hfifo
          -- The reader turns to the event with an empty FIFO, so nothing has to wake it yet.
          exact
            { bytes := h.bytes
              bit := h.bit
              list := hlist
              asleep := fun hs => by cases hs
              wakeup := fun _ hne => absurd hfifo hne }
      · cases hstep
  | recv =>
      simp only [uartStep] at hstep
      split at hstep
      · rename_i hr
        cases hstep
        have hlist := h.list
        rw [if_neg (by rw [hr]; decide)] at hlist
        rcases uartWait_cases h hr with ⟨hset, he⟩ | ⟨hset, he⟩ <;> rw [he]
        · exact
            { bytes := h.bytes
              bit := Or.inl rfl
              list := hlist
              asleep := fun hs => by cases hs
              wakeup := fun hs => absurd rfl hs }
        · exact
            { bytes := h.bytes
              bit := h.bit
              list := rfl
              asleep := fun _ => hset
              -- The bit was clear, so the byte's interrupt has its send still ahead.
              wakeup := fun _ hne =>
                h.wakeup (by rw [hr]; decide) hne }
      · cases hstep

/-- What a safe state says about the bytes and about the reader. -/
theorem Safe.handover {s : Uart} (h : Safe s) :
    s.returned <+: s.received ∧ ¬ (s.reader = .suspended ∧ s.fifo ≠ [] ∧ s.isr = 0) := by
  refine ⟨⟨s.fifo, h.bytes.symm⟩, ?_⟩
  rintro ⟨hr, hfifo, hisr⟩
  have hclear := h.asleep hr
  rcases h.wakeup (by rw [hr]; decide) hfifo with hpos | hset
  · omega
  · rw [hset] at hclear
    exact absurd hclear (by decide)

/-- **The hand-over loses and repeats nothing.** Under every schedule of interrupts and
reader steps, in every state: the bytes returned are a prefix of the bytes received, and
the reader is not suspended while a byte waits in the FIFO and no interrupt is between its
append and its event send. -/
theorem uart_handover (as : List UartAct) :
    Always uartStep
      (fun s => s.returned <+: s.received ∧
        ¬ (s.reader = .suspended ∧ s.fifo ≠ [] ∧ s.isr = 0))
      uartInit as := by
  refine (always_iff _ _).mpr fun bs s _ hrun => ?_
  have h : Safe s := reachable_induction safe_uartInit safe_uartStep ⟨bs, hrun⟩
  exact h.handover

end CarLocator.Gps
