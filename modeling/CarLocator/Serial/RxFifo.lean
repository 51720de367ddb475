import CarLocator.Library.CText
import CarLocator.Library.LossyQueue
import CarLocator.Library.Ring
import CarLocator.Library.Simulation

/-!
# `CarLocator.Serial.RxFifo`: the receive FIFO of the serial driver

`struct rt_serial_rx_fifo` of `components/drivers/serial/serial.c` in interrupt mode:
`rt_hw_serial_isr` stores the received bytes, `_serial_int_rx` reads them. The two share the
ring, and both exclude interrupts for one byte at a time, so a step is one byte.

When the write index catches up with the read index, the interrupt moves the read index on:
one place of the ring stays unused, and the oldest byte is dropped. `isFull` then tells an
empty ring from a full one, and the two never meet (`Separate`). The ring is a queue that keeps its
last `bufsz - 1` bytes (`exact_rxFifo`), and `rxPort_lossless_iff` says when the reader misses
none.
-/

set_option autoImplicit false

namespace CarLocator.Serial

open CarLocator.Library

variable {bufsz : Nat}

/-- `struct rt_serial_rx_fifo`, with a buffer of `serial->config.bufsz` bytes. -/
structure RxFifo (bufsz : Nat) where
  buffer : Fin bufsz → UInt8
  putIndex : Fin bufsz
  getIndex : Fin bufsz
  isFull : Bool

/-- `index += 1; if (index >= bufsz) index = 0;` -/
def bump (index : Fin bufsz) : Fin bufsz :=
  if h : index.val + 1 ≥ bufsz then ⟨0, index.pos⟩ else ⟨index.val + 1, Nat.not_le.mp h⟩

/-- The body of the receive loop of `rt_hw_serial_isr`, for the byte `ch`. -/
def rtHwSerialIsrByte (fifo : RxFifo bufsz) (ch : UInt8) : RxFifo bufsz :=
  let fifo := { fifo with
    buffer := Function.update fifo.buffer fifo.putIndex ch, putIndex := bump fifo.putIndex }
  -- if the next position is the read index, the oldest byte is discarded
  if fifo.putIndex = fifo.getIndex then
    { fifo with getIndex := bump fifo.getIndex, isFull := true }
  else fifo

/-- The `rx_length` that `rt_hw_serial_isr` hands to the receive indication. -/
def RxFifo.rxLength (fifo : RxFifo bufsz) : Nat :=
  if fifo.putIndex ≥ fifo.getIndex then fifo.putIndex - fifo.getIndex
  else bufsz - (fifo.getIndex - fifo.putIndex)

/-- `rt_hw_serial_isr` with `RT_SERIAL_EVENT_RX_IND`: the ring, and the size of the receive
indication if there is one. -/
def rtHwSerialIsr (fifo : RxFifo bufsz) (chs : Bytes) : RxFifo bufsz × Option Nat :=
  let fifo := chs.foldl rtHwSerialIsrByte fifo
  (fifo, if fifo.rxLength ≠ 0 then some fifo.rxLength else none)

/-- The body of the loop of `_serial_int_rx`: a byte, or nothing when the ring is empty. -/
def serialIntRxByte (fifo : RxFifo bufsz) : Option (UInt8 × RxFifo bufsz) :=
  if fifo.getIndex = fifo.putIndex ∧ fifo.isFull = false then none
  else some (fifo.buffer fifo.getIndex,
    { fifo with getIndex := bump fifo.getIndex, isFull := false })

/-- `_serial_int_rx`: up to `length` bytes. -/
def serialIntRx : Nat → RxFifo bufsz → Bytes × RxFifo bufsz
  | 0, fifo => ([], fifo)
  | length + 1, fifo =>
    match serialIntRxByte fifo with
    | none => ([], fifo)
    | some (ch, fifo) =>
      let (data, fifo) := serialIntRx length fifo
      (ch :: data, fifo)

/-- `_serial_fifo_calc_recved_len`. -/
def serialFifoCalcRecvedLen (fifo : RxFifo bufsz) : Nat :=
  if fifo.putIndex = fifo.getIndex then (if fifo.isFull = false then 0 else bufsz)
  else if fifo.putIndex > fifo.getIndex then fifo.putIndex - fifo.getIndex
  else bufsz - (fifo.getIndex - fifo.putIndex)

/-- The unread bytes. -/
def RxFifo.unread (fifo : RxFifo bufsz) : Bytes :=
  Ring.slice fifo.buffer fifo.getIndex (Ring.distance fifo.getIndex fifo.putIndex)

/-- Equal indices mean an empty ring. -/
def RxFifo.Separate (fifo : RxFifo bufsz) : Prop :=
  fifo.isFull = true → fifo.putIndex ≠ fifo.getIndex

/-- An index goes one step around the ring. -/
theorem bump_eq_forward (index : Fin bufsz) : bump index = Ring.forward index 1 := by
  apply Fin.ext
  rw [Ring.val_forward_one]
  unfold bump
  split <;> rfl

/-- In a ring of two or more places, the next place is another one. -/
theorem bump_ne (hsz : 1 < bufsz) (index : Fin bufsz) : bump index ≠ index := by
  intro h
  rw [bump_eq_forward] at h
  have h0 := h.trans (Ring.forward_zero index).symm
  exact absurd (Ring.forward_injective index hsz (by omega) h0) (by decide)

@[simp]
theorem length_unread (fifo : RxFifo bufsz) :
    fifo.unread.length = Ring.distance fifo.getIndex fifo.putIndex :=
  Ring.length_slice _ _ _

/-- The receive indication announces the unread bytes. -/
theorem rxLength_eq (fifo : RxFifo bufsz) : fifo.rxLength = fifo.unread.length := by
  rw [length_unread]
  rfl

/-- So does the count of the driver, with separate indices. -/
theorem serialFifoCalcRecvedLen_eq {fifo : RxFifo bufsz} (h : fifo.Separate) :
    serialFifoCalcRecvedLen fifo = fifo.unread.length := by
  rw [length_unread]
  unfold serialFifoCalcRecvedLen Ring.distance
  split
  · rename_i heq
    have hfull : fifo.isFull = false := by
      cases hfull : fifo.isFull with
      | false => rfl
      | true => exact absurd heq (h hfull)
    rw [if_pos hfull, if_pos (Fin.le_of_eq heq.symm), heq, Nat.sub_self]
  · rename_i hne
    split
    · rename_i hgt
      rw [if_pos (Fin.le_of_lt hgt)]
    · rename_i hgt
      rw [if_neg fun hle => hgt (lt_of_le_of_ne hle (Ne.symm hne))]

/-- There are at most `bufsz - 1` unread bytes. -/
theorem length_unread_le (fifo : RxFifo bufsz) : fifo.unread.length ≤ bufsz - 1 := by
  have := Ring.distance_lt fifo.getIndex fifo.putIndex
  rw [length_unread]
  omega

/-! ### A byte arrives -/

/-- The interrupt keeps the indices apart when it sets `is_full`. -/
theorem separate_rtHwSerialIsrByte (hsz : 1 < bufsz) (fifo : RxFifo bufsz) (ch : UInt8) :
    (rtHwSerialIsrByte fifo ch).Separate := by
  unfold rtHwSerialIsrByte
  intro hfull
  dsimp only at hfull ⊢
  split
  · rename_i hmeet
    rw [if_pos hmeet] at hfull
    show bump fifo.putIndex ≠ bump fifo.getIndex
    rw [hmeet]
    exact (bump_ne hsz _).symm
  · rename_i hmeet
    exact hmeet

/-- The unread bytes, by how far the write index is ahead. -/
theorem unread_eq {fifo : RxFifo bufsz} {d : Nat} (hd : d < bufsz)
    (h : fifo.putIndex = Ring.forward fifo.getIndex d) :
    fifo.unread = Ring.slice fifo.buffer fifo.getIndex d := by
  rw [RxFifo.unread, h, Ring.distance_forward _ hd]

/-- **A byte arrives.** It goes behind the unread bytes, and when there are `bufsz - 1` of them
already, the oldest one is dropped. -/
theorem unread_rtHwSerialIsrByte (hsz : 1 < bufsz) (fifo : RxFifo bufsz) (ch : UInt8) :
    (rtHwSerialIsrByte fifo ch).unread = pushLast (bufsz - 1) fifo.unread ch := by
  obtain ⟨d, hd, hput⟩ : ∃ d, d < bufsz ∧ fifo.putIndex = Ring.forward fifo.getIndex d :=
    ⟨_, Ring.distance_lt _ _, (Ring.forward_distance fifo.getIndex fifo.putIndex).symm⟩
  have hnext : bump fifo.putIndex = Ring.forward fifo.getIndex (d + 1) := by
    rw [bump_eq_forward, hput, Ring.forward_forward]
  have hold : fifo.unread = Ring.slice fifo.buffer fifo.getIndex d := unread_eq hd hput
  have hnew : Ring.slice (Function.update fifo.buffer fifo.putIndex ch) fifo.getIndex (d + 1)
      = fifo.unread ++ [ch] := by
    rw [hput, Ring.slice_update_concat fifo.buffer fifo.getIndex ch hd, hold]
  have hlen : fifo.unread.length = d := by rw [hold, Ring.length_slice]
  unfold rtHwSerialIsrByte
  dsimp only
  split
  · -- The write index has come around, and the read index goes on.
    rename_i hmeet
    have hfull : d + 1 = bufsz := by
      by_contra hne
      rw [hnext] at hmeet
      have h0 := hmeet.trans (Ring.forward_zero fifo.getIndex).symm
      exact absurd (Ring.forward_injective _ (by omega) (by omega) h0) (by omega)
    have hback : bump fifo.putIndex = Ring.forward (bump fifo.getIndex) d := by
      rw [hmeet, bump_eq_forward, Ring.forward_forward, Nat.add_comm, hfull, Ring.forward_size]
    rw [unread_eq hd hback]
    show Ring.slice _ (bump fifo.getIndex) d = _
    have htail := Ring.drop_slice (Function.update fifo.buffer fifo.putIndex ch)
      fifo.getIndex (show 1 ≤ d + 1 by omega)
    rw [Nat.add_sub_cancel, ← bump_eq_forward, hnew] at htail
    rw [← htail, pushLast_of_full (by omega) (by omega)]
    have hne : fifo.unread ≠ [] := by
      intro hnil
      rw [hnil, List.length_nil] at hlen
      omega
    rw [List.drop_one, List.tail_append_of_ne_nil hne]
  · rename_i hmeet
    have hroom : d + 1 < bufsz := by
      by_contra hge
      have hfull : d + 1 = bufsz := by omega
      rw [hnext, hfull, Ring.forward_size] at hmeet
      exact hmeet rfl
    rw [unread_eq hroom hnext]
    show Ring.slice _ fifo.getIndex (d + 1) = _
    rw [hnew, pushLast_of_lt (by omega)]

/-! ### A byte is read -/

/-- **A byte is read.** It is the oldest unread one, and an empty ring gives none. -/
theorem serialIntRxByte_eq {fifo : RxFifo bufsz} (h : fifo.Separate) :
    (serialIntRxByte fifo = none ∧ fifo.unread = [])
      ∨ ∃ ch fifo', serialIntRxByte fifo = some (ch, fifo') ∧ fifo.unread = ch :: fifo'.unread
        ∧ fifo'.Separate := by
  unfold serialIntRxByte
  by_cases hmeet : fifo.getIndex = fifo.putIndex
  · have hfull : fifo.isFull = false := by
      cases hfull : fifo.isFull with
      | false => rfl
      | true => exact absurd hmeet.symm (h hfull)
    refine Or.inl ⟨if_pos ⟨hmeet, hfull⟩, ?_⟩
    rw [RxFifo.unread, hmeet, Ring.distance_self, Ring.slice_zero]
  · refine Or.inr ⟨fifo.buffer fifo.getIndex,
      { fifo with getIndex := bump fifo.getIndex, isFull := false },
      if_neg fun hempty => hmeet hempty.1, ?_, by intro hfull; cases hfull⟩
    obtain ⟨d, hd⟩ : ∃ d, Ring.distance fifo.getIndex fifo.putIndex = d + 1 := by
      refine Nat.exists_eq_succ_of_ne_zero fun h0 => hmeet ?_
      exact (Ring.distance_eq_zero_iff _ _).mp h0
    have hlt := Ring.distance_lt fifo.getIndex fifo.putIndex
    have hput : fifo.putIndex = Ring.forward (bump fifo.getIndex) d := by
      rw [bump_eq_forward, Ring.forward_forward, Nat.add_comm, ← hd, Ring.forward_distance]
    have hrest : RxFifo.unread { fifo with getIndex := bump fifo.getIndex, isFull := false }
        = Ring.slice fifo.buffer (bump fifo.getIndex) d := unread_eq (by omega) hput
    rw [hrest, RxFifo.unread, hd, Ring.slice_succ, bump_eq_forward]

/-- `_serial_int_rx` takes the oldest bytes, as many as it was asked for if there are so
many. -/
theorem serialIntRx_eq (length : Nat) {fifo : RxFifo bufsz} (h : fifo.Separate) :
    (serialIntRx length fifo).1 = fifo.unread.take length
      ∧ (serialIntRx length fifo).2.unread = fifo.unread.drop length := by
  induction length generalizing fifo with
  | zero => exact ⟨rfl, rfl⟩
  | succ length ih =>
      unfold serialIntRx
      rcases serialIntRxByte_eq h with ⟨hnone, hunread⟩ | ⟨ch, fifo', hsome, hunread, h'⟩
      · rw [hnone, hunread]
        exact ⟨rfl, List.drop_nil.symm⟩
      · obtain ⟨hdata, hrest⟩ := ih h'
        rw [hsome, hunread]
        exact ⟨congrArg (ch :: ·) hdata, hrest⟩

/-! ### Runs of the interrupt and the reader -/

/-- The ring with the bytes received and the bytes read so far. -/
structure RxPort (bufsz : Nat) where
  fifo : RxFifo bufsz
  received : Bytes
  read : Bytes

/-- A byte arrives, or the reader goes through the loop of `_serial_int_rx` once. -/
inductive RxAct
  | receive (ch : UInt8)
  | read
  deriving DecidableEq, Repr

/-- One step. -/
def rxStep (s : RxPort bufsz) : RxAct → Option (RxPort bufsz)
  | .receive ch =>
    some { s with fifo := rtHwSerialIsrByte s.fifo ch, received := s.received ++ [ch] }
  | .read =>
    some (match serialIntRxByte s.fifo with
      | none => s
      | some (ch, fifo) => { s with fifo := fifo, read := s.read ++ [ch] })

/-- `rt_serial_open`: the indices are 0, and the buffer holds anything. -/
def rxOpen (buffer : Fin bufsz → UInt8) (hsz : 0 < bufsz) : RxPort bufsz :=
  ⟨⟨buffer, ⟨0, hsz⟩, ⟨0, hsz⟩, false⟩, [], []⟩

/-- The queue that the ring stands for. -/
def RxPort.queue (s : RxPort bufsz) : LossyQueue UInt8 := ⟨s.fifo.unread, s.received, s.read⟩

/-- The operation that a step stands for. -/
def RxAct.queueAct : RxAct → QueueAct UInt8
  | .receive ch => .push ch
  | .read => .pop

/-- The ring starts empty. -/
theorem separate_rxOpen (buffer : Fin bufsz → UInt8) (hsz : 0 < bufsz) :
    (rxOpen buffer hsz).fifo.Separate := by
  intro hfull
  cases hfull

/-- The opened port is the empty queue. -/
theorem queue_rxOpen (buffer : Fin bufsz → UInt8) (hsz : 0 < bufsz) :
    (rxOpen buffer hsz).queue = LossyQueue.empty := by
  unfold rxOpen RxPort.queue RxFifo.unread LossyQueue.empty
  rw [Ring.distance_self, Ring.slice_zero]

/-- **The ring is a queue** that keeps its last `bufsz - 1` bytes. -/
theorem exact_rxFifo (hsz : 1 < bufsz) :
    Exact rxStep (lossyStep (bufsz - 1)) (fun s : RxPort bufsz => s.fifo.Separate)
      RxPort.queue RxAct.queueAct where
  keeps s a s' h hstep := by
    cases a with
    | receive ch =>
        cases hstep
        exact separate_rtHwSerialIsrByte hsz s.fifo ch
    | read =>
        simp only [rxStep, Option.some.injEq] at hstep
        subst hstep
        rcases serialIntRxByte_eq h with ⟨hnone, -⟩ | ⟨ch, fifo', hsome, -, h'⟩
        · rw [hnone]
          exact h
        · rw [hsome]
          exact h'
  commutes s a h := by
    cases a with
    | receive ch =>
        simp only [rxStep, lossyStep, RxAct.queueAct, RxPort.queue, Option.map_some,
          unread_rtHwSerialIsrByte hsz]
    | read =>
        simp only [rxStep, lossyStep, RxAct.queueAct, Option.map_some, Option.some.injEq]
        rcases serialIntRxByte_eq h with ⟨hnone, hunread⟩ | ⟨ch, fifo', hsome, hunread, -⟩
        · rw [hnone]
          simp only [RxPort.queue, hunread]
        · rw [hsome]
          simp only [RxPort.queue, hunread]

/-- **Order and no repetition.** Whatever the timing, the bytes read and the unread ones are
part of the bytes received, in their order, and the unread ones are the last received. -/
theorem rxPort_inOrder (hsz : 1 < bufsz) (buffer : Fin bufsz → UInt8) {s : RxPort bufsz}
    (hr : Reachable rxStep (rxOpen buffer (Nat.zero_lt_of_lt hsz)) s) :
    (s.read ++ s.fifo.unread).Sublist s.received ∧ s.fifo.unread <:+ s.received := by
  have hkeep : ∀ (s : RxPort bufsz) (a : RxAct) (s' : RxPort bufsz),
      s.fifo.Separate ∧ InOrder (bufsz - 1) s.queue → rxStep s a = some s' →
        s'.fifo.Separate ∧ InOrder (bufsz - 1) s'.queue := by
    intro s a s' h hstep
    have hcomm := (exact_rxFifo hsz).commutes s a h.1
    rw [hstep] at hcomm
    exact ⟨(exact_rxFifo hsz).keeps s a s' h.1 hstep,
      inOrder_lossyStep s.queue _ s'.queue h.2 hcomm.symm⟩
  have hopen : InOrder (bufsz - 1) (rxOpen buffer (Nat.zero_lt_of_lt hsz)).queue := by
    rw [queue_rxOpen]
    exact inOrder_empty _
  have h : InOrder (bufsz - 1) s.queue :=
    (reachable_induction ⟨separate_rxOpen buffer _, hopen⟩ hkeep hr).2
  exact ⟨h.order, h.last⟩

/-- The guard: a byte arrives while fewer than `bufsz - 1` bytes are unread. -/
def ArrivesInTime (s : RxPort bufsz) : RxAct → Prop
  | .receive _ => s.fifo.unread.length < bufsz - 1
  | .read => True

/-- A run loses no byte exactly when every byte arrives in time. -/
theorem rxPort_lossless_iff (hsz : 1 < bufsz) {s : RxPort bufsz} (hs : s.fifo.Separate)
    (hlossless : Lossless s.queue) (as : List RxAct) :
    Always rxStep (fun s => s.received = s.read ++ s.fifo.unread) s as
      ↔ Guarded rxStep ArrivesInTime s as := by
  have hguard : (ArrivesInTime : RxPort bufsz → RxAct → Prop)
      = fun s a => FindsRoom (bufsz - 1) s.queue a.queueAct := by
    funext s a
    cases a <;> rfl
  rw [hguard, (exact_rxFifo hsz).guarded_iff hs, ← lossless_iff (bufsz - 1) _ hlossless,
    ← (exact_rxFifo hsz).always_iff hs]
  exact Iff.rfl

/-- **The receive FIFO in interrupt mode.** Whatever the timing, the bytes read and the unread
ones are part of the bytes received, in their order, and the unread ones are the last received.
In every state of a run they are all of the bytes received exactly when every byte arrives
while fewer than `bufsz - 1` are unread. -/
theorem rxPort_fifo (hsz : 1 < bufsz) (buffer : Fin bufsz → UInt8) (as : List RxAct) :
    Always rxStep
        (fun s => (s.read ++ s.fifo.unread).Sublist s.received ∧ s.fifo.unread <:+ s.received)
        (rxOpen buffer (Nat.zero_lt_of_lt hsz)) as
      ∧ (Always rxStep (fun s => s.received = s.read ++ s.fifo.unread)
          (rxOpen buffer (Nat.zero_lt_of_lt hsz)) as
        ↔ Guarded rxStep ArrivesInTime (rxOpen buffer (Nat.zero_lt_of_lt hsz)) as) := by
  constructor
  · exact (always_iff _ _).mpr fun bs s _ hrun => rxPort_inOrder hsz buffer ⟨bs, hrun⟩
  · refine rxPort_lossless_iff hsz (separate_rxOpen buffer _) ?_ as
    rw [queue_rxOpen]
    rfl

/-- A buffer of four bytes. -/
def fourZeros : Fin 4 → UInt8 := fun _ => 0

theorem rxPort_fifo_four :
    Always rxStep
        (fun s => (s.read ++ s.fifo.unread).Sublist s.received ∧ s.fifo.unread <:+ s.received)
        (rxOpen fourZeros (by decide)) [.receive 36, .read, .receive 71]
      ∧ (Always rxStep (fun s => s.received = s.read ++ s.fifo.unread)
          (rxOpen fourZeros (by decide)) [.receive 36, .read, .receive 71]
        ↔ Guarded rxStep ArrivesInTime
          (rxOpen fourZeros (by decide)) [.receive 36, .read, .receive 71]) :=
  rxPort_fifo (by decide) fourZeros [.receive 36, .read, .receive 71]

end CarLocator.Serial
