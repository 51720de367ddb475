import CarLocator.At.Getchar
import CarLocator.Serial.RxDma

/-!
# `CarLocator.At.DmaGetchar`: the AT client behind its DMA port

`CarLocator.At.Getchar` takes the receive FIFO for a queue to which an interrupt appends. The
port of the AT client is open in DMA mode, so here the FIFO is the ring of
`CarLocator.Serial.RxDma`: the stream fills it, two interrupts count the bytes and then call
`at_client_rx_ind`, and a read of `at_client_getchar` is `_serial_dma_rx` for one byte.

Seen through `DmaClient.client`, which shows the bytes that were reported, a report is an
`append` of the queue, and what the stream does in between is not seen at all.
`dmaGetchar_handover` joins the two exact guards.
-/

set_option autoImplicit false

namespace CarLocator.At

open CarLocator.Kernel
open CarLocator.Library
open CarLocator.Serial

variable {bufsz : Nat}

/-- The port, the semaphore and the reader. -/
structure DmaClient (bufsz : Nat) where
  port : RxDma bufsz
  rxNotice : RtSem Unit
  pc : GetcharPc
  /-- interrupts between their report and their indication -/
  isr : Nat
  /-- the calls of `at_client_getchar` that returned an error -/
  failed : Nat

/-- The steps of the port, and those of the client and its indications. -/
inductive DmaClientAct
  | port (a : DmaAct)
  | client (a : GetcharAct)
  deriving DecidableEq, Repr

/-- The same client with the reported bytes as its queue. -/
def DmaClient.client (s : DmaClient bufsz) : ClientPort :=
  { fifo := s.port.reported, rxNotice := s.rxNotice, pc := s.pc, isr := s.isr,
    received := s.port.read ++ s.port.reported, returned := s.port.read, failed := s.failed }

/-- A step that does not touch the ring is taken over from the queue. -/
def DmaClient.withClient (s : DmaClient bufsz) (t : ClientPort) : DmaClient bufsz :=
  { s with rxNotice := t.rxNotice, pc := t.pc, isr := t.isr, failed := t.failed }

/-- Whether a step of the port calls the receive indication. -/
def dmaIndicates (s : RxDma bufsz) : DmaAct → Bool
  | .report => true
  | .complete => decide (sizeSub bufsz s.lastIndex ≠ 0)
  | .arrive _ | .idle | .read _ => false

/-- The `rt_device_read` of `at_client_getchar`. -/
def dmaGetcharRead (s : DmaClient bufsz) : DmaClient bufsz :=
  match serialDmaRx s.port.fifo 1 with
  | ([], fifo) => { s with port := { s.port with fifo }, pc := .resetting }
  | (ch :: _, fifo) => { s with port := { s.port with fifo, read := s.port.read ++ [ch] } }

/-- One step of the interleaving. -/
def dmaClientStep (s : DmaClient bufsz) : DmaClientAct → Option (DmaClient bufsz)
  | .port (.read _) => none
  | .port a => (dmaStep s.port a).map fun port =>
      { s with port, isr := if dmaIndicates s.port a = true then s.isr + 1 else s.isr }
  | .client (.append _) => none
  | .client .read => if s.pc = .reading then some (dmaGetcharRead s) else none
  | .client a => (getcharStep s.client a).map s.withClient

/-- After `at_client_init`. -/
def dmaClientInit (buffer : Fin bufsz → UInt8) (hpos : 0 < bufsz) : DmaClient bufsz :=
  { port := rxDmaOpen buffer hpos, rxNotice := rtSemInit .fifo 0, pc := .reading, isr := 0,
    failed := 0 }

/-- The guard of the port, and that of the client. -/
def BothInTime (s : DmaClient bufsz) : DmaClientAct → Prop
  | .port a => Serial.InTime s.port a
  | .client a => ResetInTime s.client a

/-! ### The steps of the port -/

/-- While there is room, the stream does not touch the bytes that were reported. -/
theorem reported_dmaArrive {s : RxDma bufsz} (h : s.Intact) {ch : UInt8}
    (hfree : Serial.InTime s (.arrive ch)) : (dmaArrive s ch).reported = s.reported := by
  have hfree : s.received.length - s.read.length < bufsz := hfree
  rw [h.length] at hfree
  show Ring.slice (Function.update s.fifo.buffer s.position ch) s.fifo.getIndex s.unread
    = Ring.slice s.fifo.buffer s.fifo.getIndex s.unread
  rw [h.place, Ring.slice_update_of_le _ _ _ (Nat.le_add_right _ _) hfree]

/-- A report appends to the queue. -/
theorem client_append {s : DmaClient bufsz} {port : RxDma bufsz} {chs : Bytes} (hne : chs ≠ [])
    (hread : port.read = s.port.read) (hreported : port.reported = s.port.reported ++ chs) :
    getcharStep s.client (.append chs)
      = some (DmaClient.client { s with port, isr := s.isr + 1 }) := by
  rw [getcharStep, if_neg hne]
  simp only [DmaClient.client]
  rw [hreported, hread, List.append_assoc]

/-- A step of the port is not seen by the client, or it appends to the queue. -/
theorem client_port {s s' : DmaClient bufsz} (hmax : 2 * bufsz ≤ 2 ^ 16) (h : s.port.Intact)
    {a : DmaAct} (hintime : Serial.InTime s.port a) (hstep : dmaClientStep s (.port a) = some s') :
    s'.client = s.client ∨ ∃ chs, getcharStep s.client (.append chs) = some s'.client := by
  cases a with
  | arrive ch =>
      cases hstep
      refine Or.inl ?_
      simp only [DmaClient.client]
      rw [reported_dmaArrive h hintime]
      rfl
  | idle =>
      obtain ⟨port, hport, rfl⟩ := Option.map_eq_some_iff.mp hstep
      simp only [dmaStep] at hport
      split at hport
      · cases hport
        exact Or.inl rfl
      · cases hport
  | report =>
      obtain ⟨port, hport, rfl⟩ := Option.map_eq_some_iff.mp hstep
      obtain ⟨-, chs, hne, hreported⟩ := intact_report hmax h hport
      obtain ⟨n, -, rfl⟩ := Option.map_eq_some_iff.mp hport
      exact Or.inr ⟨chs, client_append hne rfl hreported⟩
  | complete =>
      obtain ⟨port, hport, rfl⟩ := Option.map_eq_some_iff.mp hstep
      simp only [dmaStep] at hport
      split at hport
      · rename_i hcomplete
        cases hport
        obtain ⟨-, chs, hne, hreported⟩ := intact_complete hmax h hcomplete
        have hindicates : dmaIndicates s.port .complete = true := by
          have hlast := h.lastIndex_lt
          unfold dmaIndicates sizeSub
          rw [decide_eq_true_eq]
          omega
        have hread : (halUartRxCpltCallback { s.port with complete := false }).read
            = s.port.read := by
          simp only [halUartRxCpltCallback]
          split <;> rfl
        refine Or.inr ⟨chs, ?_⟩
        rw [if_pos hindicates]
        exact client_append hne hread hreported
      · cases hport
  | read length => cases hstep

/-- A step of the port keeps its bytes exactly when it meets the guard of the port. -/
theorem intact_port {s s' : DmaClient bufsz} (hmax : 2 * bufsz ≤ 2 ^ 16) (h : s.port.Intact)
    {a : DmaAct} (hstep : dmaClientStep s (.port a) = some s') :
    s'.port.Intact ↔ Serial.InTime s.port a := by
  cases a with
  | read length => cases hstep
  | arrive ch =>
      cases hstep
      exact intact_dmaArrive h ch
  | idle | report | complete =>
      obtain ⟨port, hport, rfl⟩ := Option.map_eq_some_iff.mp hstep
      exact intact_dmaStep hmax _ _ _ h hport

/-! ### The steps of the client -/

/-- A step that does not touch the queue leaves the ring alone. -/
theorem client_withClient (s : DmaClient bufsz) {t : ClientPort}
    (hfifo : t.fifo = s.port.reported) (hreturned : t.returned = s.port.read)
    (hreceived : t.received = s.port.read ++ s.port.reported) : (s.withClient t).client = t := by
  cases t
  cases hfifo
  cases hreturned
  cases hreceived
  rfl

/-- Only an arrival and a read touch the queue. -/
theorem getcharStep_bytes {s t : ClientPort} {a : GetcharAct} (happend : ∀ chs, a ≠ .append chs)
    (hread : a ≠ .read) (hstep : getcharStep s a = some t) :
    t.fifo = s.fifo ∧ t.returned = s.returned ∧ t.received = s.received := by
  cases a with
  | append chs => exact absurd rfl (happend chs)
  | read => exact absurd rfl hread
  | indicate =>
      simp only [getcharStep] at hstep
      split at hstep
      · cases hstep
      · cases hstep
        unfold atClientRxInd
        split <;> exact ⟨rfl, rfl, rfl⟩
  | reset =>
      simp only [getcharStep] at hstep
      split at hstep
      · cases hstep
        exact ⟨rfl, rfl, rfl⟩
      · cases hstep
  | take time =>
      simp only [getcharStep] at hstep
      split at hstep
      · cases hstep
        unfold getcharTake
        split <;> exact ⟨rfl, rfl, rfl⟩
      · cases hstep
  | timeout =>
      obtain ⟨sem, -, rfl⟩ := Option.map_eq_some_iff.mp hstep
      exact ⟨rfl, rfl, rfl⟩

/-- A read takes the oldest reported byte, or turns the reader to the reset. -/
theorem dmaGetcharRead_cases {s : DmaClient bufsz} (hmax : 2 * bufsz ≤ 2 ^ 16)
    (h : s.port.Intact) :
    (dmaGetcharRead s).client = getcharRead s.client ∧ (dmaGetcharRead s).port.Intact := by
  unfold dmaGetcharRead
  cases hrx : serialDmaRx s.port.fifo 1 with
  | mk data fifo =>
      obtain ⟨hintact, hreported, hlen⟩ := intact_read hmax h hrx
      cases data with
      | nil =>
          rw [List.append_nil] at hintact hreported
          rw [List.nil_append] at hreported
          have hempty : s.port.reported = [] := by
            refine List.eq_nil_of_length_eq_zero ?_
            rw [RxDma.reported, Ring.length_slice]
            rw [List.length_nil] at hlen
            omega
          refine ⟨?_, hintact⟩
          simp only [getcharRead, DmaClient.client, hempty]
          rw [← hreported, hempty]
      | cons ch data =>
          obtain rfl : data = [] := by
            refine List.eq_nil_of_length_eq_zero ?_
            rw [List.length_cons] at hlen
            omega
          rw [List.singleton_append] at hreported
          refine ⟨?_, hintact⟩
          simp only [getcharRead, DmaClient.client, hreported]
          rw [List.append_assoc, List.singleton_append]

/-- A step of the client is one of the queue, and the port keeps its bytes. -/
theorem client_client {s s' : DmaClient bufsz} (hmax : 2 * bufsz ≤ 2 ^ 16) (h : s.port.Intact)
    {a : GetcharAct} (hstep : dmaClientStep s (.client a) = some s') :
    getcharStep s.client a = some s'.client ∧ s'.port.Intact := by
  cases a with
  | append chs => cases hstep
  | read =>
      simp only [dmaClientStep] at hstep
      split at hstep
      · rename_i hpc
        cases hstep
        obtain ⟨hclient, hintact⟩ := dmaGetcharRead_cases hmax h
        refine ⟨?_, hintact⟩
        rw [getcharStep, if_pos (show s.client.pc = .reading from hpc), hclient]
      · cases hstep
  | indicate | reset | take time | timeout =>
      obtain ⟨t, ht, rfl⟩ := Option.map_eq_some_iff.mp hstep
      obtain ⟨hfifo, hreturned, hreceived⟩ := getcharStep_bytes (by simp) (by simp) ht
      exact ⟨by rw [client_withClient s hfifo hreturned hreceived]; exact ht, h⟩

/-! ### Runs -/

/-- The port has its bytes, and the client its notices. -/
structure Supplied (s : DmaClient bufsz) : Prop where
  intact : s.port.Intact
  listening : Listening s.client
  kept : NoticeKept s.client

/-- A step keeps bytes and notices exactly when it meets both guards. -/
theorem supplied_dmaClientStep (hmax : 2 * bufsz ≤ 2 ^ 16) (s : DmaClient bufsz)
    (a : DmaClientAct) (s' : DmaClient bufsz) (h : Supplied s)
    (hstep : dmaClientStep s a = some s') : Supplied s' ↔ BothInTime s a := by
  cases a with
  | port a =>
      have hexact := intact_port hmax h.intact hstep
      refine ⟨fun h' => hexact.mp h'.intact, fun hintime => ?_⟩
      rcases client_port hmax h.intact hintime hstep with hsame | ⟨chs, happend⟩
      · refine ⟨hexact.mpr hintime, ?_, ?_⟩ <;> rw [hsame]
        · exact h.listening
        · exact h.kept
      · exact ⟨hexact.mpr hintime, listening_getcharStep _ _ _ h.listening happend,
          (noticeKept_getcharStep _ _ _ h.listening h.kept happend).mpr trivial⟩
  | client a =>
      obtain ⟨hclient, hintact⟩ := client_client hmax h.intact hstep
      have hexact := noticeKept_getcharStep _ _ _ h.listening h.kept hclient
      exact ⟨fun h' => hexact.mp h'.kept, fun hintime =>
        ⟨hintact, listening_getcharStep _ _ _ h.listening hclient, hexact.mpr hintime⟩⟩

/-- The client starts so. -/
theorem supplied_dmaClientInit (buffer : Fin bufsz → UInt8) (hpos : 0 < bufsz) :
    Supplied (dmaClientInit buffer hpos) :=
  ⟨intact_rxDmaOpen buffer hpos, listening_clientPortInit,
    noticeKept_of_awake (by simp [DmaClient.client, dmaClientInit])
      (by simp [DmaClient.client, dmaClientInit])⟩

/-- **The AT client behind its port.** Under every schedule the port has all its bytes in order
and the client a notice for every byte behind the reader's back, in every state of the run,
exactly when both guards are met. The bytes returned are then the first of those received, and
the reader never sleeps while a byte was reported and no indication is to come. -/
theorem dmaGetchar_handover (hpos : 0 < bufsz) (hmax : 2 * bufsz ≤ 2 ^ 16)
    (buffer : Fin bufsz → UInt8) (as : List DmaClientAct) :
    (Always dmaClientStep Supplied (dmaClientInit buffer hpos) as
      ↔ Guarded dmaClientStep BothInTime (dmaClientInit buffer hpos) as)
    ∧ (Guarded dmaClientStep BothInTime (dmaClientInit buffer hpos) as →
      Always dmaClientStep (fun s => s.port.read <+: s.port.received ∧ ¬ Stuck s.client)
        (dmaClientInit buffer hpos) as) := by
  have hexact : Always dmaClientStep Supplied (dmaClientInit buffer hpos) as
      ↔ Guarded dmaClientStep BothInTime (dmaClientInit buffer hpos) as :=
    always_iff_guarded (supplied_dmaClientStep hmax) (supplied_dmaClientInit buffer hpos)
  refine ⟨hexact, fun hguard => (hexact.mpr hguard).mono fun s h => ?_⟩
  exact ⟨⟨_, h.intact.bytes.symm⟩, h.kept.not_stuck h.listening⟩

/-- The reader sleeps, and two bytes arrive. -/
def twoBytes : List DmaClientAct :=
  [.client .read, .client .reset, .client (.take rtWaitingForever), .port (.arrive 79),
    .port (.arrive 75), .port .idle, .port .report, .client .indicate, .client .read]

theorem dmaGetchar_handover_four :
    (Always dmaClientStep Supplied (dmaClientInit fourZeros (by decide)) twoBytes
      ↔ Guarded dmaClientStep BothInTime (dmaClientInit fourZeros (by decide)) twoBytes)
    ∧ (Guarded dmaClientStep BothInTime (dmaClientInit fourZeros (by decide)) twoBytes →
      Always dmaClientStep (fun s => s.port.read <+: s.port.received ∧ ¬ Stuck s.client)
        (dmaClientInit fourZeros (by decide)) twoBytes) :=
  dmaGetchar_handover (by decide) (by decide) fourZeros twoBytes

end CarLocator.At
