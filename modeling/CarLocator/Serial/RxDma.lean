import CarLocator.Library.Memory
import CarLocator.Serial.RxFifo
import Mathlib.Order.Fin.Basic

/-!
# `CarLocator.Serial.RxDma`: the receive FIFO behind a DMA stream

The serial driver in DMA mode, which is how the AT client opens its port. The stream writes the
bytes into the buffer of the ring, round and round, without telling anyone. Two interrupts of
`drv_usart.c` then count them: the idle line interrupt of `uart_isr` reads the data counter of
the stream, and `HAL_UART_RxCpltCallback` runs when the stream has reached the end of the buffer.
Each hands the number of new bytes to `rt_hw_serial_isr`, which moves the write index
(`rt_dma_recv_update_put_index`). `_serial_dma_rx` reads.

The idle interrupt is two steps, since the transfer complete interrupt has the higher priority
and may come between the measure and the report. A reader excludes interrupts but not the stream.
Here it is one step: while no byte is overrun, the stream writes to none of the places it reads.

`rxDma_stream` is the result. The bytes that were received and not read are in the ring, in
their order, and are counted right, exactly as long as every byte finds a free place and the
idle interrupt does not overtake a transfer complete interrupt.
-/

set_option autoImplicit false

namespace CarLocator.Serial

open CarLocator.Library

variable {bufsz : Nat}

/-! ### The ring in DMA mode -/

/-- `index += len; if (index >= bufsz) index %= bufsz;` with the index in 16 bits. -/
def advance (index : Fin bufsz) (len : Nat) : Fin bufsz :=
  let next := (index + len) % 2 ^ 16
  if h : next ≥ bufsz then ⟨next % bufsz, Nat.mod_lt _ index.pos⟩ else ⟨next, Nat.not_le.mp h⟩

/-- `rt_dma_recv_update_get_index`. -/
def rtDmaRecvUpdateGetIndex (fifo : RxFifo bufsz) (len : Nat) : RxFifo bufsz :=
  let fifo := if fifo.isFull = true ∧ len ≠ 0 then { fifo with isFull := false } else fifo
  { fifo with getIndex := advance fifo.getIndex len }

/-- A full ring is read from the write index on. -/
def RxFifo.followPut (fifo : RxFifo bufsz) : RxFifo bufsz :=
  if fifo.isFull = true then { fifo with getIndex := fifo.putIndex } else fifo

/-- `rt_dma_recv_update_put_index`. -/
def rtDmaRecvUpdatePutIndex (fifo : RxFifo bufsz) (len : Nat) : RxFifo bufsz :=
  let put := (fifo.putIndex + len) % 2 ^ 16
  let moved := { fifo with putIndex := advance fifo.putIndex len }
  RxFifo.followPut <|
    if fifo.getIndex ≤ fifo.putIndex then
      -- beyond the end of the buffer
      if put ≥ bufsz then
        if moved.putIndex ≥ moved.getIndex then { moved with isFull := true } else moved
      else moved
    else
      if put ≥ fifo.getIndex then { moved with isFull := true } else moved

/-- `rt_memcpy` out of the buffer. -/
def memcpyFrom (buffer : Fin bufsz → UInt8) (offset len : Nat) : Bytes :=
  ((List.ofFn buffer).drop offset).take len

/-- `_serial_dma_rx`: up to `length` bytes. -/
def serialDmaRx (fifo : RxFifo bufsz) (length : Nat) : Bytes × RxFifo bufsz :=
  let fifoRecvedLen := serialFifoCalcRecvedLen fifo
  let recvLen := if length < fifoRecvedLen then length else fifoRecvedLen
  let data :=
    if fifo.getIndex + recvLen < bufsz then memcpyFrom fifo.buffer fifo.getIndex recvLen
    else memcpyFrom fifo.buffer fifo.getIndex (bufsz - fifo.getIndex)
      ++ memcpyFrom fifo.buffer 0 (recvLen + fifo.getIndex - bufsz)
  (data, rtDmaRecvUpdateGetIndex fifo recvLen)

/-- `RT_SERIAL_EVENT_RX_DMADONE`. -/
def rtSerialEventRxDmadone : BitVec 32 := 0x03#32

/-- The event word of a driver that has received `recvLen` bytes. -/
def dmadoneEvent (recvLen : Nat) : BitVec 32 :=
  rtSerialEventRxDmadone ||| BitVec.ofNat 32 recvLen <<< 8

/-- The length `rt_hw_serial_isr` takes out of the event word, `(event & (~0xff)) >> 8`. -/
def dmadoneLength (event : BitVec 32) : Nat := ((event &&& ~~~0xff#32).sshiftRight 8).toNat

/-- `rt_hw_serial_isr` with `RT_SERIAL_EVENT_RX_DMADONE`: the ring, and the size of the receive
indication. -/
def rtHwSerialIsrDma (fifo : RxFifo bufsz) (event : BitVec 32) : RxFifo bufsz × Nat :=
  let fifo := rtDmaRecvUpdatePutIndex fifo (dmadoneLength event)
  (fifo, serialFifoCalcRecvedLen fifo)

/-! ### The receiver -/

/-- The ring, the DMA stream and the accounting of `drv_usart.c`, with the history. -/
structure RxDma (bufsz : Nat) where
  fifo : RxFifo bufsz
  /-- where the stream writes next -/
  position : Fin bufsz
  /-- the transfer complete interrupt is pending -/
  complete : Bool
  /-- `uart->dma.last_index` -/
  lastIndex : Nat
  /-- `recv_len` of an idle interrupt that has yet to report it -/
  recvLen : Option Nat
  received : Bytes
  read : Bytes

/-- The steps of the stream, the two interrupts and the reader. -/
inductive DmaAct
  /-- the stream stores a byte -/
  | arrive (ch : UInt8)
  /-- the idle interrupt, up to the report -/
  | idle
  /-- its report -/
  | report
  /-- the transfer complete interrupt -/
  | complete
  | read (length : Nat)
  deriving DecidableEq, Repr

/-- `__HAL_DMA_GET_COUNTER`: how many bytes the stream stores before it starts again. -/
def RxDma.counter (s : RxDma bufsz) : Nat := bufsz - s.position

/-- The DMA stream stores a byte. -/
def dmaArrive (s : RxDma bufsz) (ch : UInt8) : RxDma bufsz :=
  { s with
    fifo := { s.fifo with buffer := Function.update s.fifo.buffer s.position ch }
    position := bump s.position
    complete := s.complete || decide (s.position.val + 1 ≥ bufsz)
    received := s.received ++ [ch] }

/-- The idle branch of `uart_isr` up to the call of `rt_hw_serial_isr`. -/
def uartIsrIdle (s : RxDma bufsz) : RxDma bufsz :=
  let recvTotalIndex := bufsz - s.counter
  let recvLen := sizeSub recvTotalIndex s.lastIndex
  { s with
    lastIndex := recvTotalIndex, recvLen := if recvLen ≠ 0 then some recvLen else none }

/-- `HAL_UART_RxCpltCallback`. -/
def halUartRxCpltCallback (s : RxDma bufsz) : RxDma bufsz :=
  let recvLen := sizeSub bufsz s.lastIndex
  let s := { s with lastIndex := 0 }
  if recvLen ≠ 0 then { s with fifo := (rtHwSerialIsrDma s.fifo (dmadoneEvent recvLen)).1 } else s

/-- One step of the interleaving. -/
def dmaStep (s : RxDma bufsz) : DmaAct → Option (RxDma bufsz)
  | .arrive ch => some (dmaArrive s ch)
  | .idle => if s.recvLen = none then some (uartIsrIdle s) else none
  | .report => s.recvLen.map fun recvLen => { s with
      fifo := (rtHwSerialIsrDma s.fifo (dmadoneEvent recvLen)).1, recvLen := none }
  | .complete =>
    if s.complete = true then some (halUartRxCpltCallback { s with complete := false }) else none
  | .read length =>
    let (data, fifo) := serialDmaRx s.fifo length
    some { s with fifo, read := s.read ++ data }

/-- After `rt_device_open` and `stm32_dma_config`. -/
def rxDmaOpen (buffer : Fin bufsz → UInt8) (hpos : 0 < bufsz) : RxDma bufsz :=
  { fifo := ⟨buffer, ⟨0, hpos⟩, ⟨0, hpos⟩, false⟩, position := ⟨0, hpos⟩, complete := false,
    lastIndex := 0, recvLen := none, received := [], read := [] }

/-! ### The functions of the driver -/

/-- The event word carries the number of bytes. -/
theorem dmadoneLength_dmadoneEvent {recvLen : Nat} (h : recvLen < 2 ^ 23) :
    dmadoneLength (dmadoneEvent recvLen) = recvLen := by
  have hhigh : ∀ {x k j : Nat}, x < 2 ^ k → k ≤ j → x.testBit j = false := fun hx hj =>
    Nat.testBit_lt_two_pow (lt_of_lt_of_le hx (Nat.pow_le_pow_right (by decide) hj))
  have hword : (dmadoneEvent recvLen &&& ~~~0xff#32).sshiftRight 8 = BitVec.ofNat 32 recvLen := by
    apply BitVec.eq_of_getLsbD_eq
    intro i hi
    have hevent : Nat.testBit 3 (8 + i) = false := hhigh (by decide : 3 < 2 ^ 8) (by omega)
    have hmask : Nat.testBit 255 (8 + i) = false := hhigh (by decide : 255 < 2 ^ 8) (by omega)
    rw [BitVec.getLsbD_sshiftRight, BitVec.msb_eq_getLsbD_last]
    simp only [dmadoneEvent, rtSerialEventRxDmadone, BitVec.getLsbD_and, BitVec.getLsbD_or,
      BitVec.getLsbD_shiftLeft, BitVec.getLsbD_not, BitVec.getLsbD_ofNat]
    by_cases hi8 : 8 + i < 32
    · simp [hi, hi8, hevent, hmask, Nat.not_le.mpr hi, show ¬ 8 + i < 8 by omega]
    · -- the sign of the word is bit 23 of the length
      have hsign : Nat.testBit 3 31 = false := by decide
      simp [hi, hi8, hsign, hhigh h (show 23 ≤ i by omega), hhigh h (Nat.le_refl 23)]
  rw [dmadoneLength, hword, BitVec.toNat_ofNat, Nat.mod_eq_of_lt (by omega)]


/-- An index goes around the ring, as long as it fits into 16 bits. -/
theorem advance_eq_forward (index : Fin bufsz) {len : Nat} (h : index + len < 2 ^ 16) :
    advance index len = Ring.forward index len := by
  apply Fin.ext
  unfold advance
  simp only [Nat.mod_eq_of_lt h]
  split
  · rfl
  · rename_i hlt
    exact (Nat.mod_eq_of_lt (Nat.not_le.mp hlt)).symm

/-- The ring holds `len` unread bytes. -/
structure RxFifo.Holds (fifo : RxFifo bufsz) (len : Nat) : Prop where
  le : len ≤ bufsz
  put : fifo.putIndex = Ring.forward fifo.getIndex len
  full : fifo.isFull = true ↔ len = bufsz

/-- The value of the write index. -/
theorem RxFifo.Holds.putIndex_cases {fifo : RxFifo bufsz} {len : Nat} (h : fifo.Holds len) :
    (fifo.getIndex + len < bufsz ∧ (fifo.putIndex : Nat) = fifo.getIndex + len)
    ∨ (bufsz ≤ fifo.getIndex + len ∧ (fifo.putIndex : Nat) = fifo.getIndex + len - bufsz) := by
  have hput : (fifo.putIndex : Nat) = (fifo.getIndex + len) % bufsz := congrArg Fin.val h.put
  have hget := fifo.getIndex.isLt
  have hle := h.le
  rcases Nat.lt_or_ge (fifo.getIndex + len) bufsz with hin | hend
  · exact Or.inl ⟨hin, hput.trans (Nat.mod_eq_of_lt hin)⟩
  · refine Or.inr ⟨hend, hput.trans ?_⟩
    rw [Nat.mod_eq_sub_mod hend, Nat.mod_eq_of_lt (by omega)]

/-- The driver counts them. -/
theorem RxFifo.Holds.calc_eq {fifo : RxFifo bufsz} {len : Nat} (h : fifo.Holds len) :
    serialFifoCalcRecvedLen fifo = len := by
  have hget := fifo.getIndex.isLt
  have hle := h.le
  have hempty : fifo.isFull = false ↔ len ≠ bufsz := by
    rw [← Bool.not_eq_true, h.full]
  unfold serialFifoCalcRecvedLen
  simp only [Fin.ext_iff, gt_iff_lt, Fin.lt_def, hempty]
  rcases h.putIndex_cases with ⟨hin, hput⟩ | ⟨hend, hput⟩ <;> rw [hput] <;> split_ifs <;> omega

/-- The read index and the write index, moved by the driver. -/
theorem RxFifo.Holds.read {fifo : RxFifo bufsz} {len n : Nat} (hmax : 2 * bufsz ≤ 2 ^ 16)
    (h : fifo.Holds len) (hn : n ≤ len) :
    (rtDmaRecvUpdateGetIndex fifo n).Holds (len - n)
      ∧ (rtDmaRecvUpdateGetIndex fifo n).getIndex = Ring.forward fifo.getIndex n
      ∧ (rtDmaRecvUpdateGetIndex fifo n).buffer = fifo.buffer := by
  have hget := fifo.getIndex.isLt
  have hle := h.le
  have hforward : advance fifo.getIndex n = Ring.forward fifo.getIndex n :=
    advance_eq_forward _ (by omega)
  by_cases hfull : fifo.isFull = true ∧ n ≠ 0
  · rw [rtDmaRecvUpdateGetIndex, if_pos hfull]
    refine ⟨⟨by omega, ?_, ?_⟩, hforward, rfl⟩
    · show fifo.putIndex = Ring.forward (advance fifo.getIndex n) (len - n)
      rw [hforward, Ring.forward_forward, Nat.add_sub_cancel' hn, h.put]
    · show false = true ↔ len - n = bufsz
      exact iff_of_false (by decide) (by omega)
  · rw [rtDmaRecvUpdateGetIndex, if_neg hfull]
    refine ⟨⟨by omega, ?_, ?_⟩, hforward, rfl⟩
    · show fifo.putIndex = Ring.forward (advance fifo.getIndex n) (len - n)
      rw [hforward, Ring.forward_forward, Nat.add_sub_cancel' hn, h.put]
    · show fifo.isFull = true ↔ len - n = bufsz
      rw [h.full]
      have hzero : len = bufsz → n = 0 := fun hlen => by
        by_contra hne
        exact hfull ⟨h.full.mpr hlen, hne⟩
      omega

/-- The write index passes the read index, or the ring was full before. -/
def RxFifo.Overtakes (fifo : RxFifo bufsz) (len : Nat) : Prop :=
  fifo.isFull = true ∨
    if fifo.getIndex ≤ fifo.putIndex then
      fifo.putIndex + len ≥ bufsz ∧ advance fifo.putIndex len ≥ fifo.getIndex
    else fifo.putIndex + len ≥ fifo.getIndex

/-- The two outcomes of a report. -/
theorem rtDmaRecvUpdatePutIndex_cases (fifo : RxFifo bufsz) {len : Nat}
    (h : fifo.putIndex + len < 2 ^ 16) :
    (fifo.Overtakes len ∧ rtDmaRecvUpdatePutIndex fifo len = { fifo with
      putIndex := advance fifo.putIndex len, getIndex := advance fifo.putIndex len,
      isFull := true })
    ∨ (¬ fifo.Overtakes len ∧ rtDmaRecvUpdatePutIndex fifo len = { fifo with
      putIndex := advance fifo.putIndex len }) := by
  unfold rtDmaRecvUpdatePutIndex RxFifo.followPut RxFifo.Overtakes
  simp only [Nat.mod_eq_of_lt h]
  cases hfull : fifo.isFull <;> split_ifs <;> simp_all

/-- New bytes that the ring has room for. -/
theorem RxFifo.Holds.report {fifo : RxFifo bufsz} {len n : Nat} (hmax : 2 * bufsz ≤ 2 ^ 16)
    (h : fifo.Holds len) (hn : len + n ≤ bufsz) :
    (rtDmaRecvUpdatePutIndex fifo n).Holds (len + n)
      ∧ (rtDmaRecvUpdatePutIndex fifo n).getIndex = fifo.getIndex
      ∧ (rtDmaRecvUpdatePutIndex fifo n).buffer = fifo.buffer := by
  have hget := fifo.getIndex.isLt
  have hput := fifo.putIndex.isLt
  have hfit : fifo.putIndex + n < 2 ^ 16 := by omega
  have hforward : advance fifo.putIndex n = Ring.forward fifo.getIndex (len + n) := by
    rw [advance_eq_forward _ hfit, h.put, Ring.forward_forward]
  have hvalue : (advance fifo.putIndex n : Nat) = (fifo.getIndex + (len + n)) % bufsz :=
    congrArg Fin.val hforward
  have hovertakes : fifo.Overtakes n ↔ len + n = bufsz := by
    unfold RxFifo.Overtakes
    rw [h.full]
    simp only [ge_iff_le, Fin.le_def, hvalue]
    rcases h.putIndex_cases with ⟨hin, hindex⟩ | ⟨hend, hindex⟩ <;> rw [hindex]
    · -- the write index is behind the read index and goes around the end
      have hround : bufsz ≤ fifo.getIndex + (len + n) →
          (fifo.getIndex + (len + n)) % bufsz = fifo.getIndex + (len + n) - bufsz := fun hend => by
        rw [Nat.mod_eq_sub_mod hend, Nat.mod_eq_of_lt (by omega)]
      rw [if_pos (by omega)]
      constructor
      · rintro (hlen | ⟨hend, hpast⟩)
        · omega
        · rw [hround (by omega)] at hpast
          omega
      · intro hall
        refine Or.inr ⟨by omega, ?_⟩
        rw [hround (by omega)]
        omega
    · -- it has gone around the end already
      split_ifs <;> omega
  rcases rtDmaRecvUpdatePutIndex_cases fifo hfit with ⟨hover, he⟩ | ⟨hover, he⟩ <;> rw [he]
  · have hall := hovertakes.mp hover
    rw [hall, Ring.forward_size] at hforward
    rw [hforward, hall]
    exact ⟨⟨Nat.le_refl _, (Ring.forward_size _).symm, iff_of_true rfl rfl⟩, rfl, rfl⟩
  · rw [hovertakes] at hover
    have hnot : ¬ fifo.isFull = true := by
      rw [h.full]
      omega
    exact ⟨⟨hn, hforward, iff_of_false hnot hover⟩, rfl, rfl⟩

/-- What a read copies and leaves. -/
theorem serialDmaRx_spec {fifo : RxFifo bufsz} {len : Nat} (hmax : 2 * bufsz ≤ 2 ^ 16)
    (h : fifo.Holds len) (length : Nat) :
    (serialDmaRx fifo length).1 = Ring.slice fifo.buffer fifo.getIndex (min length len)
      ∧ (serialDmaRx fifo length).2.Holds (len - min length len)
      ∧ (serialDmaRx fifo length).2.getIndex = Ring.forward fifo.getIndex (min length len)
      ∧ (serialDmaRx fifo length).2.buffer = fifo.buffer := by
  have hle := h.le
  have hcount : (if length < len then length else len) = min length len := by
    split <;> omega
  simp only [serialDmaRx, h.calc_eq, hcount]
  refine ⟨?_, h.read hmax (Nat.min_le_right _ _)⟩
  split
  · rename_i hin
    exact (Ring.slice_eq_take_drop _ _ (Nat.le_of_lt hin)).symm
  · rename_i hend
    rw [Ring.slice_eq_append _ _ (Nat.not_lt.mp hend) (by omega), memcpyFrom, memcpyFrom,
      List.drop_zero, Nat.add_comm fifo.getIndex.val]

/-! ### The accounting -/

/-- The bytes the driver knows to be unread. -/
def RxDma.unread (s : RxDma bufsz) : Nat := serialFifoCalcRecvedLen s.fifo

/-- These bytes, the oldest first. -/
def RxDma.reported (s : RxDma bufsz) : Bytes :=
  Ring.slice s.fifo.buffer s.fifo.getIndex s.unread

/-- How far the stream has written since the last transfer complete interrupt was served. -/
def RxDma.written (s : RxDma bufsz) : Nat := (if s.complete = true then bufsz else 0) + s.position

/-- The bytes the stream has stored and no interrupt has reported. -/
def RxDma.unreported (s : RxDma bufsz) : Nat := s.written - s.lastIndex + s.recvLen.getD 0

/-- All the bytes that were received and not read are in the ring, from the read index on and in
their order, and the driver can account for all of them. -/
structure RxDma.Intact (s : RxDma bufsz) : Prop where
  bytes : s.received
    = s.read ++ Ring.slice s.fifo.buffer s.fifo.getIndex (s.unread + s.unreported)
  room : s.unread + s.unreported ≤ bufsz
  place : s.position = Ring.forward s.fifo.getIndex (s.unread + s.unreported)
  ring : s.fifo.Holds s.unread
  lastIndex_lt : s.lastIndex < bufsz
  lastIndex_le : s.lastIndex ≤ s.written
  measured : s.recvLen ≠ some 0

/-- The guard. A byte must arrive while fewer than `bufsz` are unread, and the idle interrupt
must not be served before a pending transfer complete interrupt, unless the stream stores no
byte between the end of the buffer and the last count. -/
def InTime (s : RxDma bufsz) : DmaAct → Prop
  | .arrive _ => s.received.length - s.read.length < bufsz
  | .idle => s.complete = true → s.position = s.lastIndex
  | .report | .complete | .read _ => True

/-- How many bytes are unread. -/
theorem RxDma.Intact.length {s : RxDma bufsz} (h : s.Intact) :
    s.received.length - s.read.length = s.unread + s.unreported := by
  rw [h.bytes, List.length_append, Ring.length_slice, Nat.add_sub_cancel_left]

/-- A byte counts as written, unless the stream goes twice past the end. -/
theorem written_dmaArrive {s : RxDma bufsz} (ch : UInt8)
    (h : ¬ (s.complete = true ∧ s.position.val + 1 ≥ bufsz)) :
    (dmaArrive s ch).written = s.written + 1 := by
  have hposition : ((bump s.position : Fin bufsz) : Nat)
      = if s.position.val + 1 ≥ bufsz then 0 else s.position.val + 1 := by
    rw [bump_eq_forward, Ring.val_forward_one]
  have hlt := s.position.isLt
  show (if (s.complete || decide (s.position.val + 1 ≥ bufsz)) = true then bufsz else 0)
    + (bump s.position : Nat) = (if s.complete = true then bufsz else 0) + s.position + 1
  rw [hposition]
  by_cases hend : s.position.val + 1 ≥ bufsz
  · rw [if_neg fun hcomplete => h ⟨hcomplete, hend⟩, if_pos hend]
    simp only [hend, decide_true, Bool.or_true, if_true]
    omega
  · rw [if_neg hend]
    simp only [hend, decide_false, Bool.or_false]
    omega

/-- The stream stores a byte. -/
theorem intact_dmaArrive {s : RxDma bufsz} (h : s.Intact) (ch : UInt8) :
    (dmaArrive s ch).Intact ↔ InTime s (.arrive ch) := by
  have hpos := s.position.pos
  have hlast := h.lastIndex_lt
  have hroom := h.room
  show _ ↔ s.received.length - s.read.length < bufsz
  rw [h.length]
  by_cases htwice : s.complete = true ∧ s.position.val + 1 ≥ bufsz
  · -- nothing has been counted since the stream was at this place before
    have hwritten : s.written = bufsz + s.position := by rw [RxDma.written, if_pos htwice.1]
    have hunreported : bufsz ≤ s.unreported := by
      unfold RxDma.unreported
      omega
    refine iff_of_false (fun h' => ?_) (by omega)
    have hstart : ((bump s.position : Fin bufsz) : Nat) = 0 := by
      rw [bump_eq_forward, Ring.val_forward_one, if_pos htwice.2]
    have hwritten' : (dmaArrive s ch).written = bufsz := by
      show (if (s.complete || decide (s.position.val + 1 ≥ bufsz)) = true then bufsz else 0)
        + (bump s.position : Nat) = bufsz
      rw [hstart, if_pos (by rw [htwice.1, Bool.true_or]), Nat.add_zero]
    have hlength : (s.received ++ [ch]).length - s.read.length
        = s.unread + ((dmaArrive s ch).written - s.lastIndex + s.recvLen.getD 0) := h'.length
    have hbytes := congrArg List.length h.bytes
    rw [List.length_append, Ring.length_slice] at hbytes
    rw [List.length_append, List.length_singleton, hwritten', hbytes] at hlength
    have hcount : s.unreported = s.written - s.lastIndex + s.recvLen.getD 0 := rfl
    omega
  · have hwritten := written_dmaArrive ch htwice
    have hunreported : (dmaArrive s ch).unreported = s.unreported + 1 := by
      show (dmaArrive s ch).written - s.lastIndex + s.recvLen.getD 0
        = s.written - s.lastIndex + s.recvLen.getD 0 + 1
      have hle := h.lastIndex_le
      omega
    constructor
    · intro h'
      have hroom' : s.unread + (dmaArrive s ch).unreported ≤ bufsz := h'.room
      omega
    · intro hfree
      refine ⟨?_, ?_, ?_, ⟨h.ring.le, h.ring.put, h.ring.full⟩, hlast, ?_, h.measured⟩
      · show s.received ++ [ch] = s.read ++ Ring.slice (Function.update s.fifo.buffer s.position ch)
          s.fifo.getIndex (s.unread + (dmaArrive s ch).unreported)
        rw [hunreported, ← Nat.add_assoc, h.place, Ring.slice_update_concat _ _ _ hfree,
          ← List.append_assoc, ← h.bytes]
      · show s.unread + (dmaArrive s ch).unreported ≤ bufsz
        omega
      · show bump s.position
          = Ring.forward s.fifo.getIndex (s.unread + (dmaArrive s ch).unreported)
        rw [hunreported, ← Nat.add_assoc, bump_eq_forward, h.place, Ring.forward_forward]
      · show s.lastIndex ≤ (dmaArrive s ch).written
        have hle := h.lastIndex_le
        omega

/-- A report counts bytes that were not counted before. -/
theorem RxDma.Intact.counted {s : RxDma bufsz} {n : Nat} (hmax : 2 * bufsz ≤ 2 ^ 16)
    (h : s.Intact) (s' : RxDma bufsz)
    (hfifo : s'.fifo = (rtHwSerialIsrDma s.fifo (dmadoneEvent n)).1)
    (hunreported : s'.unreported + n = s.unreported) (hposition : s'.position = s.position)
    (hreceived : s'.received = s.received) (hread : s'.read = s.read)
    (hlt : s'.lastIndex < bufsz) (hle : s'.lastIndex ≤ s'.written)
    (hmeasured : s'.recvLen ≠ some 0) :
    s'.Intact ∧ s'.reported = s.reported
      ++ Ring.slice s.fifo.buffer (Ring.forward s.fifo.getIndex s.unread) n := by
  have hroom := h.room
  have hfifo : s'.fifo = rtDmaRecvUpdatePutIndex s.fifo n := by
    rw [hfifo, rtHwSerialIsrDma, dmadoneLength_dmadoneEvent (by omega)]
  obtain ⟨hholds, hget, hbuffer⟩ := h.ring.report hmax (show s.unread + n ≤ bufsz by omega)
  rw [← hfifo] at hholds hget hbuffer
  have hunread : s'.unread = s.unread + n := hholds.calc_eq
  have hsum : s'.unread + s'.unreported = s.unread + s.unreported := by omega
  refine ⟨⟨?_, ?_, ?_, ?_, hlt, hle, hmeasured⟩, ?_⟩
  · rw [hreceived, hread, hbuffer, hget, hsum]
    exact h.bytes
  · rw [hsum]
    exact hroom
  · rw [hposition, hget, hsum]
    exact h.place
  · rw [hunread]
    exact hholds
  · rw [RxDma.reported, hbuffer, hget, hunread, Ring.slice_add]
    rfl

/-- The idle interrupt measures. -/
theorem intact_uartIsrIdle {s : RxDma bufsz} (hmax : 2 * bufsz ≤ 2 ^ 16) (h : s.Intact)
    (hidle : s.recvLen = none) : (uartIsrIdle s).Intact ↔ InTime s .idle := by
  have hposition := s.position.isLt
  have hlast := h.lastIndex_lt
  have hle := h.lastIndex_le
  have hroom := h.room
  have htotal : bufsz - s.counter = s.position := by
    unfold RxDma.counter
    omega
  have hcount : s.unreported = s.written - s.lastIndex := by
    rw [RxDma.unreported, hidle]
    rfl
  have hcount' : (uartIsrIdle s).unreported
      = s.written - s.position + sizeSub s.position s.lastIndex := by
    have hoption : ∀ n : Nat, (if n ≠ 0 then some n else none).getD 0 = n := fun n => by
      split
      · rfl
      · rename_i hzero
        exact (not_not.mp hzero).symm
    rw [← htotal, ← hoption (sizeSub _ _)]
    rfl
  have hcomplete : s.written = (if s.complete = true then bufsz else 0) + s.position := rfl
  have hguard : InTime s .idle ↔ (uartIsrIdle s).unreported = s.unreported := by
    rw [hcount', hcount]
    show (s.complete = true → (s.position : Nat) = s.lastIndex) ↔ _
    unfold sizeSub
    cases hc : s.complete <;> rw [hc] at hcomplete
    · refine iff_of_true (by simp) ?_
      simp only [Bool.false_eq_true, if_false, Nat.zero_add] at hcomplete
      omega
    · simp only [if_true] at hcomplete
      simp only [true_implies]
      omega
  rw [hguard]
  constructor
  · intro h'
    have hlength : s.received.length - s.read.length
        = s.unread + (uartIsrIdle s).unreported := h'.length
    rw [h.length] at hlength
    omega
  · intro hsame
    refine ⟨?_, ?_, ?_, ⟨h.ring.le, h.ring.put, h.ring.full⟩, ?_, ?_, ?_⟩
    · show s.received = s.read ++ Ring.slice s.fifo.buffer s.fifo.getIndex
        (s.unread + (uartIsrIdle s).unreported)
      rw [hsame]
      exact h.bytes
    · show s.unread + (uartIsrIdle s).unreported ≤ bufsz
      rw [hsame]
      exact hroom
    · show s.position = Ring.forward s.fifo.getIndex (s.unread + (uartIsrIdle s).unreported)
      rw [hsame]
      exact h.place
    · show bufsz - s.counter < bufsz
      omega
    · show bufsz - s.counter ≤ s.written
      omega
    · show (if sizeSub (bufsz - s.counter) s.lastIndex ≠ 0 then
        some (sizeSub (bufsz - s.counter) s.lastIndex) else none) ≠ some 0
      split
      · rename_i hne
        exact fun hzero => hne (Option.some.inj hzero)
      · simp

/-- The report of the idle interrupt: the ring grows. -/
theorem intact_report {s s' : RxDma bufsz} (hmax : 2 * bufsz ≤ 2 ^ 16) (h : s.Intact)
    (hstep : dmaStep s .report = some s') :
    s'.Intact ∧ ∃ chs, chs ≠ [] ∧ s'.reported = s.reported ++ chs := by
  obtain ⟨n, hn, rfl⟩ := Option.map_eq_some_iff.mp hstep
  have hne : n ≠ 0 := fun hzero => h.measured (hzero ▸ hn)
  have hunreported : s.written - s.lastIndex + 0 + n = s.unreported := by
    rw [RxDma.unreported, hn]
    rfl
  obtain ⟨hkept, hreported⟩ := h.counted hmax { s with
    fifo := (rtHwSerialIsrDma s.fifo (dmadoneEvent n)).1, recvLen := none } rfl hunreported rfl
    rfl rfl h.lastIndex_lt h.lastIndex_le (by simp)
  refine ⟨hkept, _, List.ne_nil_of_length_pos ?_, hreported⟩
  rw [Ring.length_slice]
  omega

/-- The transfer complete interrupt: the ring grows. -/
theorem intact_complete {s : RxDma bufsz} (hmax : 2 * bufsz ≤ 2 ^ 16) (h : s.Intact)
    (hcomplete : s.complete = true) :
    (halUartRxCpltCallback { s with complete := false }).Intact
      ∧ ∃ chs, chs ≠ []
        ∧ (halUartRxCpltCallback { s with complete := false }).reported = s.reported ++ chs := by
  have hlast := h.lastIndex_lt
  have hlen : sizeSub bufsz s.lastIndex = bufsz - s.lastIndex := by
    unfold sizeSub
    omega
  have hne : sizeSub bufsz s.lastIndex ≠ 0 := by omega
  have hunreported : 0 + s.position.val - 0 + s.recvLen.getD 0 + sizeSub bufsz s.lastIndex
      = s.unreported := by
    rw [RxDma.unreported, RxDma.written, if_pos hcomplete, hlen]
    omega
  simp only [halUartRxCpltCallback]
  rw [if_pos hne]
  obtain ⟨hkept, hreported⟩ := h.counted hmax { s with
    fifo := (rtHwSerialIsrDma s.fifo (dmadoneEvent (sizeSub bufsz s.lastIndex))).1,
    complete := false, lastIndex := 0 } rfl hunreported rfl rfl rfl (Nat.zero_lt_of_lt hlast)
    (Nat.zero_le _) h.measured
  refine ⟨hkept, _, List.ne_nil_of_length_pos ?_, hreported⟩
  rw [Ring.length_slice]
  omega

/-- A read takes the oldest of the reported bytes. -/
theorem intact_read {s : RxDma bufsz} (hmax : 2 * bufsz ≤ 2 ^ 16) (h : s.Intact) {length : Nat}
    {data : Bytes} {fifo : RxFifo bufsz} (hread : serialDmaRx s.fifo length = (data, fifo)) :
    RxDma.Intact { s with fifo, read := s.read ++ data }
      ∧ s.reported = data ++ RxDma.reported { s with fifo, read := s.read ++ data }
      ∧ data.length = min length s.unread := by
  obtain ⟨hdata, hholds, hget, hbuffer⟩ := serialDmaRx_spec hmax h.ring length
  rw [hread] at hdata hholds hget hbuffer
  have hdata : data = Ring.slice s.fifo.buffer s.fifo.getIndex (min length s.unread) := hdata
  have hroom := h.room
  have hmin : min length s.unread ≤ s.unread := Nat.min_le_right _ _
  have hunread : serialFifoCalcRecvedLen fifo = s.unread - min length s.unread := hholds.calc_eq
  have hrest : s.unread + s.unreported
      = min length s.unread + (s.unread - min length s.unread + s.unreported) := by omega
  refine ⟨⟨?_, ?_, ?_, ?_, h.lastIndex_lt, h.lastIndex_le, h.measured⟩, ?_, ?_⟩
  · show s.received = s.read ++ data
      ++ Ring.slice fifo.buffer fifo.getIndex (serialFifoCalcRecvedLen fifo + s.unreported)
    rw [hdata, hbuffer, hget, hunread, List.append_assoc, ← Ring.slice_add, ← hrest]
    exact h.bytes
  · show serialFifoCalcRecvedLen fifo + s.unreported ≤ bufsz
    omega
  · show s.position = Ring.forward fifo.getIndex (serialFifoCalcRecvedLen fifo + s.unreported)
    rw [hget, hunread, Ring.forward_forward, ← hrest]
    exact h.place
  · show fifo.Holds (serialFifoCalcRecvedLen fifo)
    rw [hunread]
    exact hholds
  · show Ring.slice s.fifo.buffer s.fifo.getIndex s.unread
      = data ++ Ring.slice fifo.buffer fifo.getIndex (serialFifoCalcRecvedLen fifo)
    rw [hdata, hbuffer, hget, hunread, ← Ring.slice_add, Nat.add_sub_cancel' hmin]
  · rw [hdata, Ring.length_slice]

/-- A step keeps the bytes exactly when it meets the guard. -/
theorem intact_dmaStep (hmax : 2 * bufsz ≤ 2 ^ 16) (s : RxDma bufsz) (a : DmaAct)
    (s' : RxDma bufsz) (h : s.Intact) (hstep : dmaStep s a = some s') :
    s'.Intact ↔ InTime s a := by
  cases a with
  | arrive ch =>
      cases hstep
      exact intact_dmaArrive h ch
  | idle =>
      simp only [dmaStep] at hstep
      split at hstep
      · rename_i hidle
        cases hstep
        exact intact_uartIsrIdle hmax h hidle
      · cases hstep
  | report => exact iff_of_true (intact_report hmax h hstep).1 trivial
  | complete =>
      simp only [dmaStep] at hstep
      split at hstep
      · rename_i hcomplete
        cases hstep
        exact iff_of_true (intact_complete hmax h hcomplete).1 trivial
      · cases hstep
  | read length =>
      cases hstep
      exact iff_of_true (intact_read hmax h rfl).1 trivial

/-- A port that was just opened. -/
theorem intact_rxDmaOpen (buffer : Fin bufsz → UInt8) (hpos : 0 < bufsz) :
    (rxDmaOpen buffer hpos).Intact := by
  have hunread : (rxDmaOpen buffer hpos).unread = 0 := rfl
  have hunreported : (rxDmaOpen buffer hpos).unreported = 0 := rfl
  refine ⟨?_, Nat.zero_le _, ?_, ⟨Nat.zero_le _, ?_, ?_⟩, hpos, Nat.zero_le _, by simp [rxDmaOpen]⟩
  · rw [hunread, hunreported]
    rfl
  · rw [hunread, hunreported]
    exact (Ring.forward_zero _).symm
  · rw [hunread]
    exact (Ring.forward_zero _).symm
  · rw [hunread]
    exact iff_of_false (by simp [rxDmaOpen]) (Nat.ne_of_lt hpos)

/-- **The receive FIFO in DMA mode.** Under every schedule of the stream, the two interrupts and
the reader, the bytes that were received and not read are in the ring, in their order, and are
counted right, in every state of the run, exactly when every byte arrives while fewer than
`bufsz` are unread and no idle interrupt overtakes a transfer complete interrupt. -/
theorem rxDma_stream (hpos : 0 < bufsz) (hmax : 2 * bufsz ≤ 2 ^ 16) (buffer : Fin bufsz → UInt8)
    (as : List DmaAct) :
    Always dmaStep RxDma.Intact (rxDmaOpen buffer hpos) as
      ↔ Guarded dmaStep InTime (rxDmaOpen buffer hpos) as :=
  always_iff_guarded (intact_dmaStep hmax) (intact_rxDmaOpen buffer hpos)

/-- A byte is stored, counted and read, and the stream goes on to the end of the buffer. -/
def fiveBytes : List DmaAct :=
  [.arrive 79, .idle, .report, .read 1, .arrive 75, .arrive 13, .arrive 10, .arrive 62, .complete]

theorem rxDma_stream_four :
    Always dmaStep RxDma.Intact (rxDmaOpen fourZeros (by decide)) fiveBytes
      ↔ Guarded dmaStep InTime (rxDmaOpen fourZeros (by decide)) fiveBytes :=
  rxDma_stream (by decide) (by decide) fourZeros fiveBytes

end CarLocator.Serial
