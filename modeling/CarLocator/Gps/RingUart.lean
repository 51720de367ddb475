import CarLocator.Gps.Uart
import CarLocator.Serial.RxFifo

/-!
# `CarLocator.Gps.RingUart`: the hand-over through the driver's ring

`CarLocator.Gps.Uart` takes the receive FIFO for an unbounded queue. Here it is the ring of the
serial driver, which drops the oldest byte when it is full: an interrupt is the receive loop of
`rt_hw_serial_isr`, and a read of `uart_getchar` is `_serial_int_rx` for one byte.

Seen through `RingUart.uart`, the ring keeps the invariant `Safe` of the unbounded queue, so no
wake-up is lost even when bytes are (`safe_ringUartStep`). Bytes are lost exactly when an
interrupt brings more of them than the ring has places left (`ringUart_handover`).
-/

set_option autoImplicit false

namespace CarLocator.Gps

open CarLocator.Kernel
open CarLocator.Library
open CarLocator.Serial

variable {bufsz : Nat}

/-- The UART with the ring of the driver. -/
structure RingUart (bufsz : Nat) where
  fifo : RxFifo bufsz
  event : RtEvent Unit
  reader : Reader
  /-- interrupts between their receive loop and their event send -/
  isr : Nat
  /-- the bytes received so far -/
  received : Bytes
  /-- the bytes returned by `uart_getchar` so far -/
  returned : Bytes

/-- The same UART with the unread bytes as its queue, and without the bytes that are lost. -/
def RingUart.uart (s : RingUart bufsz) : Uart :=
  { fifo := s.fifo.unread, event := s.event, reader := s.reader, isr := s.isr,
    received := s.returned ++ s.fifo.unread, returned := s.returned }

/-- A step that does not touch the ring is taken over from the queue. -/
def RingUart.withUart (s : RingUart bufsz) (u : Uart) : RingUart bufsz :=
  { s with event := u.event, reader := u.reader, isr := u.isr }

/-- The `rt_device_read` of `uart_getchar`. -/
def ringUartRead (s : RingUart bufsz) : RingUart bufsz :=
  match serialIntRx 1 s.fifo with
  | ([], fifo) => { s with fifo := fifo, reader := .waiting }
  | (ch :: _, fifo) => { s with fifo := fifo, returned := s.returned ++ [ch] }

/-- One step of the interleaving. -/
def ringUartStep (s : RingUart bufsz) : UartAct → Option (RingUart bufsz)
  | .append bytes =>
    if bytes = [] then none
    else
      let (fifo, indicate) := rtHwSerialIsr s.fifo bytes
      some { s with
        fifo := fifo, received := s.received ++ bytes,
        isr := if indicate.isSome then s.isr + 1 else s.isr }
  | .send =>
    if s.isr = 0 then none else some (s.withUart { uartIntput s.uart with isr := s.isr - 1 })
  | .read => if s.reader = .reading then some (ringUartRead s) else none
  | .recv => if s.reader = .waiting then some (s.withUart (uartWait s.uart)) else none

/-- After `uart_open`: the ring is empty, and its buffer holds anything. -/
def ringUartInit (buffer : Fin bufsz → UInt8) (hsz : 0 < bufsz) : RingUart bufsz :=
  { fifo := (rxOpen buffer hsz).fifo, event := rtEventInit .fifo, reader := .reading, isr := 0,
    received := [], returned := [] }

/-- The invariant: that of the queue, the indices of the ring are apart, and what was not lost is
in order. -/
structure RingSafe (s : RingUart bufsz) : Prop where
  safe : Safe s.uart
  separate : s.fifo.Separate
  order : (s.returned ++ s.fifo.unread).Sublist s.received

/-! ### The interrupt -/

/-- The receive loop keeps the indices apart. -/
theorem separate_rtHwSerialIsr (hsz : 1 < bufsz) {fifo : RxFifo bufsz} (h : fifo.Separate)
    (chs : Bytes) : (rtHwSerialIsr fifo chs).1.Separate := by
  show (chs.foldl rtHwSerialIsrByte fifo).Separate
  induction chs generalizing fifo with
  | nil => exact h
  | cons ch chs ih => exact ih (separate_rtHwSerialIsrByte hsz fifo ch)

/-- The receive loop leaves the last `bufsz - 1` bytes. -/
theorem unread_rtHwSerialIsr (hsz : 1 < bufsz) (fifo : RxFifo bufsz) (chs : Bytes) :
    (rtHwSerialIsr fifo chs).1.unread = (fifo.unread ++ chs).rtake (bufsz - 1) := by
  rw [← foldl_pushLast (length_unread_le fifo)]
  show (chs.foldl rtHwSerialIsrByte fifo).unread = _
  induction chs generalizing fifo with
  | nil => rfl
  | cons ch chs ih => rw [List.foldl_cons, ih, unread_rtHwSerialIsrByte hsz, List.foldl_cons]

/-- A byte that has arrived is announced. -/
theorem indicate_rtHwSerialIsr (hsz : 1 < bufsz) (fifo : RxFifo bufsz) {chs : Bytes}
    (hchs : chs ≠ []) :
    (rtHwSerialIsr fifo chs).2 = some (rtHwSerialIsr fifo chs).1.unread.length := by
  have hlen : (rtHwSerialIsr fifo chs).1.unread.length ≠ 0 := by
    rw [unread_rtHwSerialIsr hsz, List.rtake, List.length_drop, List.length_append]
    have := List.length_pos_of_ne_nil hchs
    omega
  show (if _ then _ else _) = _
  rw [rxLength_eq]
  exact if_pos hlen

/-! ### The reader -/

/-- A read takes the oldest byte, or turns the reader to the event. -/
theorem ringUartRead_cases {s : RingUart bufsz} (h : s.fifo.Separate) :
    (ringUartRead s).uart = uartRead s.uart ∧ (ringUartRead s).fifo.Separate
      ∧ (ringUartRead s).received = s.received := by
  unfold ringUartRead serialIntRx serialIntRx
  rcases serialIntRxByte_eq h with ⟨hnone, hunread⟩ | ⟨ch, fifo', hsome, hunread, h'⟩
  · rw [hnone]
    refine ⟨?_, h, rfl⟩
    simp only [RingUart.uart, uartRead, hunread]
  · rw [hsome]
    refine ⟨?_, h', rfl⟩
    simp only [RingUart.uart, uartRead, hunread, List.append_assoc, List.singleton_append]

/-- The event and the reader alone leave the bytes as they are. -/
theorem uart_withUart (s : RingUart bufsz) {u : Uart} (hfifo : u.fifo = s.fifo.unread)
    (hreturned : u.returned = s.returned)
    (hreceived : u.received = s.returned ++ s.fifo.unread) : (s.withUart u).uart = u := by
  cases u
  cases hfifo
  cases hreturned
  cases hreceived
  rfl

/-- Sending the event does not touch the bytes. -/
theorem uartIntput_bytes (u : Uart) :
    (uartIntput u).fifo = u.fifo ∧ (uartIntput u).returned = u.returned
      ∧ (uartIntput u).received = u.received := by
  unfold uartIntput
  split <;> exact ⟨rfl, rfl, rfl⟩

/-- Nor does waiting for it. -/
theorem uartWait_bytes (u : Uart) :
    (uartWait u).fifo = u.fifo ∧ (uartWait u).returned = u.returned
      ∧ (uartWait u).received = u.received := by
  unfold uartWait
  split <;> exact ⟨rfl, rfl, rfl⟩

/-- Only an interrupt receives bytes. -/
theorem uartStep_received {u u' : Uart} {a : UartAct} (ha : ∀ bytes, a ≠ .append bytes)
    (hstep : uartStep u a = some u') : u'.received = u.received := by
  cases a with
  | append bytes => exact absurd rfl (ha bytes)
  | send =>
      simp only [uartStep] at hstep
      split at hstep
      · cases hstep
      · cases hstep
        exact (uartIntput_bytes u).2.2
  | read =>
      simp only [uartStep] at hstep
      split at hstep
      · cases hstep
        unfold uartRead
        split <;> rfl
      · cases hstep
  | recv =>
      simp only [uartStep] at hstep
      split at hstep
      · cases hstep
        exact (uartWait_bytes u).2.2
      · cases hstep

/-- A step other than an interrupt is a step of the queue, and it receives nothing. -/
theorem ringUartStep_uart {s s' : RingUart bufsz} {a : UartAct} (h : s.fifo.Separate)
    (ha : ∀ bytes, a ≠ .append bytes) (hstep : ringUartStep s a = some s') :
    uartStep s.uart a = some s'.uart ∧ s'.fifo.Separate ∧ s'.received = s.received := by
  cases a with
  | append bytes => exact absurd rfl (ha bytes)
  | send =>
      simp only [ringUartStep] at hstep
      split at hstep
      · cases hstep
      · rename_i hisr
        cases hstep
        obtain ⟨hfifo, hreturned, hreceived⟩ := uartIntput_bytes s.uart
        refine ⟨?_, h, rfl⟩
        have hview := uart_withUart s (u := { uartIntput s.uart with isr := s.isr - 1 }) hfifo
          hreturned hreceived
        rw [uartStep, if_neg (show ¬ s.uart.isr = 0 from hisr), hview]
        rfl
  | read =>
      simp only [ringUartStep] at hstep
      split at hstep
      · rename_i hr
        cases hstep
        obtain ⟨huart, hsep, hreceived⟩ := ringUartRead_cases h
        refine ⟨?_, hsep, hreceived⟩
        rw [uartStep, if_pos (show s.uart.reader = .reading from hr), huart]
      · cases hstep
  | recv =>
      simp only [ringUartStep] at hstep
      split at hstep
      · rename_i hr
        cases hstep
        obtain ⟨hfifo, hreturned, hreceived⟩ := uartWait_bytes s.uart
        refine ⟨?_, h, rfl⟩
        rw [uartStep, if_pos (show s.uart.reader = .waiting from hr),
          uart_withUart s hfifo hreturned hreceived]
      · cases hstep

/-! ### Runs -/

/-- An interrupt keeps the invariant, whatever it overwrites. -/
theorem safe_append (hsz : 1 < bufsz) {s s' : RingUart bufsz} {bytes : Bytes} (h : RingSafe s)
    (hstep : ringUartStep s (.append bytes) = some s') :
    RingSafe s' ∧ s'.received = s.received ++ bytes ∧ s'.returned = s.returned
      ∧ s'.fifo.unread = (s.fifo.unread ++ bytes).rtake (bufsz - 1) := by
  simp only [ringUartStep] at hstep
  split at hstep
  · cases hstep
  · rename_i hbytes
    rw [indicate_rtHwSerialIsr hsz s.fifo hbytes] at hstep
    cases hstep
    have hunread := unread_rtHwSerialIsr hsz s.fifo bytes
    refine ⟨⟨?_, separate_rtHwSerialIsr hsz h.separate bytes, ?_⟩, rfl, rfl, hunread⟩
    · exact
        { bytes := rfl
          bit := h.safe.bit
          list := h.safe.list
          asleep := h.safe.asleep
          wakeup := fun _ _ => Or.inl (Nat.succ_pos _) }
    · show (s.returned ++ (rtHwSerialIsr s.fifo bytes).1.unread).Sublist (s.received ++ bytes)
      have hlast : (rtHwSerialIsr s.fifo bytes).1.unread.Sublist (s.fifo.unread ++ bytes) := by
        rw [hunread]
        exact List.drop_sublist _ _
      refine ((List.Sublist.refl s.returned).append hlast).trans ?_
      rw [← List.append_assoc]
      exact h.order.append (List.Sublist.refl bytes)

/-- Every step keeps the invariant. -/
theorem safe_ringUartStep (hsz : 1 < bufsz) (s : RingUart bufsz) (a : UartAct)
    (s' : RingUart bufsz) (h : RingSafe s) (hstep : ringUartStep s a = some s') :
    RingSafe s' := by
  cases a with
  | append bytes => exact (safe_append hsz h hstep).1
  | send | read | recv =>
      obtain ⟨huart, hsep, hreceived⟩ := ringUartStep_uart h.separate (by simp) hstep
      refine ⟨safe_uartStep s.uart _ s'.uart h.safe huart, hsep, ?_⟩
      show s'.uart.received.Sublist s'.received
      rw [uartStep_received (by simp) huart, hreceived]
      exact h.order

/-- The port starts in a safe state. -/
theorem ringSafe_ringUartInit (buffer : Fin bufsz → UInt8) (hsz : 0 < bufsz) :
    RingSafe (ringUartInit buffer hsz) := by
  have hunread : (ringUartInit buffer hsz).fifo.unread = [] :=
    congrArg LossyQueue.queue (queue_rxOpen buffer hsz)
  refine ⟨?_, separate_rxOpen buffer hsz, ?_⟩
  · exact
      { bytes := rfl
        bit := Or.inl rfl
        list := rfl
        asleep := fun hr => by cases hr
        wakeup := fun hr => absurd rfl hr }
  · rw [hunread]
    exact List.Sublist.refl []

/-- Every byte received has been returned or is in the ring. -/
def RingUart.Lossless (s : RingUart bufsz) : Prop := s.received = s.returned ++ s.fifo.unread

/-- The guard: an interrupt brings no more bytes than the ring has places left. -/
def FitsRing (s : RingUart bufsz) : UartAct → Prop
  | .append bytes => s.fifo.unread.length + bytes.length ≤ bufsz - 1
  | _ => True

/-- A step loses bytes exactly when they do not fit. -/
theorem lossless_ringUartStep (hsz : 1 < bufsz) (s : RingUart bufsz) (a : UartAct)
    (s' : RingUart bufsz) (h : RingSafe s) (hl : s.Lossless)
    (hstep : ringUartStep s a = some s') : s'.Lossless ↔ FitsRing s a := by
  cases a with
  | append bytes =>
      obtain ⟨-, hreceived, hreturned, hunread⟩ := safe_append hsz h hstep
      show _ = _ ↔ _
      rw [hreceived, hreturned, hunread, hl, List.append_assoc, List.append_right_inj, eq_comm]
      exact rtake_append_eq_iff _ _ _
  | send | read | recv =>
      obtain ⟨huart, -, hreceived⟩ := ringUartStep_uart h.separate (by simp) hstep
      refine iff_of_true ?_ trivial
      show s'.received = s'.uart.received
      rw [hreceived, hl, uartStep_received (by simp) huart]
      rfl

/-- **The hand-over through the ring.** Under every schedule of interrupts and reader steps, in
every state, the reader is not suspended while a byte is unread and no interrupt is between its
receive loop and its event send, and the bytes returned and unread are in the order in which
they were received. None of them is lost, in every state, exactly when every interrupt brings no
more bytes than the ring has places left. -/
theorem ringUart_handover (hsz : 1 < bufsz) (buffer : Fin bufsz → UInt8) (as : List UartAct) :
    Always ringUartStep
        (fun s => ¬ (s.reader = .suspended ∧ s.fifo.unread ≠ [] ∧ s.isr = 0)
          ∧ (s.returned ++ s.fifo.unread).Sublist s.received)
        (ringUartInit buffer (Nat.zero_lt_of_lt hsz)) as
      ∧ (Always ringUartStep RingUart.Lossless (ringUartInit buffer (Nat.zero_lt_of_lt hsz)) as
        ↔ Guarded ringUartStep FitsRing (ringUartInit buffer (Nat.zero_lt_of_lt hsz)) as) := by
  have hinit : RingSafe (ringUartInit buffer (show 0 < bufsz by omega)) :=
    ringSafe_ringUartInit buffer _
  constructor
  · refine (always_iff _ _).mpr fun bs s _ hrun => ?_
    have h : RingSafe s := reachable_induction hinit (safe_ringUartStep hsz) ⟨bs, hrun⟩
    exact ⟨h.safe.handover.2, h.order⟩
  · exact always_iff_guarded_of_invariant (safe_ringUartStep hsz) (lossless_ringUartStep hsz)
      hinit rfl

/-- A byte arrives, and the reader takes it. -/
def oneByte : List UartAct := [.read, .append [36], .send, .recv, .read]

theorem ringUart_handover_four :
    Always ringUartStep
        (fun s => ¬ (s.reader = .suspended ∧ s.fifo.unread ≠ [] ∧ s.isr = 0)
          ∧ (s.returned ++ s.fifo.unread).Sublist s.received)
        (ringUartInit fourZeros (by decide)) oneByte
      ∧ (Always ringUartStep RingUart.Lossless (ringUartInit fourZeros (by decide)) oneByte
        ↔ Guarded ringUartStep FitsRing (ringUartInit fourZeros (by decide)) oneByte) :=
  ringUart_handover (by decide) fourZeros oneByte

end CarLocator.Gps
