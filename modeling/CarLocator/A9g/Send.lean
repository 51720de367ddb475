import CarLocator.At.Calls

/-!
# `CarLocator.A9g.Send`: `a9g_socket_send`

The loop of `a9g_socket_send` cuts the buffer into packets of `A9G_MODULE_SEND_MAX_SIZE`
bytes. `sendPacket` is its body: announce the packet, hand over the data, wait for the
result. What the modem answers is given packet by packet in `SendAnswers`, and the model
returns the result and the calls that were made.

`Truthful` says what the operation promises: the result is the size of the buffer and the
whole buffer was accepted, or it is negative. The result variable holds the size of the
last packet only, and a packet that is accepted in part is not noticed, so the promise is
kept exactly under `SendsAll` (`truthful_iff`).
-/

set_option autoImplicit false

namespace CarLocator.A9g

open CarLocator.At
open CarLocator.Library

/-- `A9G_MODULE_SEND_MAX_SIZE`. -/
def a9gModuleSendMaxSize : Nat := 1000

/-- What the modem answers while one packet is sent. -/
structure PacketAnswers where
  -- `AT+CIPSEND` succeeds
  cipsend : Bool
  -- how many of `size` bytes `at_client_obj_send` accepts
  accept : (size : Nat) → Fin (size + 1)
  -- the empty command that waits for the result succeeds
  sent : Bool

/-- The answers to one call of `a9g_socket_send`. -/
structure SendAnswers where
  -- there is memory for the response object
  createResp : Bool
  -- the answers for the packets, in order
  packet : Nat → PacketAnswers

/-- One round of the loop of `a9g_socket_send`: the bytes accepted, or `none` for
`goto __exit` with `-RT_ERROR`. -/
def sendPacket (p : PacketAnswers) (socket : Int) (data : Bytes) :
    Option Nat × List AtCall :=
  let announce := AtCall.execCmd (.cipsend socket data.length) p.cipsend
  if p.cipsend = false then (none, [announce])
  else
    let result := (p.accept data.length).val
    let send := AtCall.objSend data result
    if result = 0 then (none, [announce, send])
    else
      let wait := AtCall.execCmd .empty p.sent
      if p.sent = false then (none, [announce, send, .respSetInfo 128 0, wait])
      else (some result, [announce, send, .respSetInfo 128 0, wait, .respSetInfo 128 2])

/-- `cur_pkt_size` when `sent_size` of `bfsz` bytes are done. -/
def curPktSize (bfsz sentSize : Nat) : Nat :=
  if bfsz - sentSize < a9gModuleSendMaxSize then bfsz - sentSize else a9gModuleSendMaxSize

/-- The size of a packet is the smaller of what is left and the maximum. -/
theorem curPktSize_eq (bfsz sentSize : Nat) :
    curPktSize bfsz sentSize = min a9gModuleSendMaxSize (bfsz - sentSize) := by
  rw [curPktSize]
  split <;> omega

/-- The loop of `a9g_socket_send` from its `k`-th round on. -/
def sendLoop (a : SendAnswers) (socket : Int) (buff : Bytes) (sentSize k : Nat)
    (result : Int) : Int × List AtCall :=
  if sentSize < buff.length then
    let size := curPktSize buff.length sentSize
    match sendPacket (a.packet k) socket ((buff.drop sentSize).take size) with
    | (none, calls) => (-rtError, calls)
    | (some accepted, calls) =>
      let (result, more) := sendLoop a socket buff (sentSize + size) (k + 1) accepted
      (result, calls ++ more)
  else (result, [])
termination_by buff.length - sentSize
decreasing_by
  have hsize : size = min a9gModuleSendMaxSize (buff.length - sentSize) :=
    curPktSize_eq buff.length sentSize
  have hmax : a9gModuleSendMaxSize = 1000 := rfl
  omega

/-- `a9g_socket_send`. -/
def a9gSocketSend (a : SendAnswers) (socket : Int) (buff : Bytes) : Int × List AtCall :=
  if a.createResp = false then (-rtEnomem, [])
  else
    let (result, calls) := sendLoop a socket buff 0 0 0
    (result, [.createResp 128 2, .mutexTake, .setEndSign 62] ++ calls
      ++ [.setEndSign 0, .mutexRelease, .deleteResp])

/-! ### The promise and when it is kept -/

/-- What `a9g_socket_send` promises about its result and its calls. -/
structure Truthful (buff : Bytes) (result : Int) (calls : List AtCall) : Prop where
  /-- a result that is not negative is the size of the buffer, all of it accepted -/
  whole : 0 ≤ result → result = buff.length ∧ acceptedData calls = buff
  /-- every announced length is met before the next command -/
  announced : AnnouncedExactly a9gModuleSendMaxSize calls
  /-- whatever goes wrong makes the result negative -/
  negative : (∃ call ∈ calls, call.Failed) → result < 0

/-- The size of packet `k` of a buffer of `n` bytes. -/
def packetSize (n k : Nat) : Nat := min a9gModuleSendMaxSize (n - a9gModuleSendMaxSize * k)

/-- The bytes of packet `k`. -/
def packet (buff : Bytes) (k : Nat) : Bytes :=
  (buff.drop (a9gModuleSendMaxSize * k)).take (packetSize buff.length k)

/-- How many bytes of packet `k` the device accepts. -/
def accepted (a : SendAnswers) (n k : Nat) : Nat := (a.packet k).accept (packetSize n k)

/-- The loop gets past packet `k`: both commands succeed and some byte is accepted. -/
def Passes (a : SendAnswers) (n k : Nat) : Prop :=
  (a.packet k).cipsend = true ∧ accepted a n k ≠ 0 ∧ (a.packet k).sent = true

/-- Some but not all bytes of packet `k` are accepted. -/
def AcceptedInPart (a : SendAnswers) (n k : Nat) : Prop :=
  (a.packet k).cipsend = true ∧ 0 < accepted a n k ∧ accepted a n k < packetSize n k

/-- No packet from the `k`-th on is accepted in part, if the loop gets to it. -/
def NoneInPart (a : SendAnswers) (n k : Nat) : Prop :=
  ∀ m, k ≤ m → a9gModuleSendMaxSize * m < n → (∀ j, k ≤ j → j < m → Passes a n j) →
    ¬ AcceptedInPart a n m

/-- Every packet from the `k`-th on passes. -/
def AllPass (a : SendAnswers) (n k : Nat) : Prop :=
  ∀ m, k ≤ m → a9gModuleSendMaxSize * m < n → Passes a n m

/-- The answers under which `a9g_socket_send` keeps its promise for a buffer of `n` bytes:
no packet that is sent is accepted in part, and the buffer is one packet unless something
fails. -/
def SendsAll (a : SendAnswers) (n : Nat) : Prop :=
  a.createResp = false ∨
    NoneInPart a n 0 ∧ (n ≤ a9gModuleSendMaxSize ∨ ¬ AllPass a n 0)

/-! ### One packet -/

/-- The packet has the size that is announced for it. -/
@[simp]
theorem length_packet (buff : Bytes) (k : Nat) :
    (packet buff k).length = packetSize buff.length k := by
  rw [packet, List.length_take, List.length_drop, packetSize]
  omega

/-- A packet and the packets behind it. -/
theorem packet_append_drop (buff : Bytes) (k : Nat) :
    packet buff k ++ buff.drop (a9gModuleSendMaxSize * (k + 1))
      = buff.drop (a9gModuleSendMaxSize * k) := by
  have hmul : a9gModuleSendMaxSize * (k + 1) = a9gModuleSendMaxSize * k + a9gModuleSendMaxSize :=
    Nat.mul_succ _ _
  rw [hmul, packet, packetSize, ← List.length_drop, ← List.take_eq_take_min, ← List.drop_drop,
    List.take_append_drop]

/-- A packet that passes: the bytes accepted and the five calls. -/
theorem sendPacket_passes {p : PacketAnswers} (socket : Int) {data : Bytes}
    (hcipsend : p.cipsend = true) (haccept : (p.accept data.length).val ≠ 0)
    (hsent : p.sent = true) :
    sendPacket p socket data
      = (some (p.accept data.length).val,
        [.execCmd (.cipsend socket data.length) true, .objSend data (p.accept data.length),
          .respSetInfo 128 0, .execCmd .empty true, .respSetInfo 128 2]) := by
  simp only [sendPacket, hcipsend, hsent, haccept, Bool.true_eq_false, if_false]

/-- A packet that does not pass: where the loop leaves it. -/
theorem sendPacket_not_passes {p : PacketAnswers} (socket : Int) {data : Bytes}
    (h : ¬ (p.cipsend = true ∧ (p.accept data.length).val ≠ 0 ∧ p.sent = true)) :
    sendPacket p socket data = (none, [.execCmd (.cipsend socket data.length) false]) ∧
        p.cipsend = false ∨
      sendPacket p socket data = (none, [.execCmd (.cipsend socket data.length) true,
        .objSend data 0]) ∧ (p.accept data.length).val = 0 ∨
      sendPacket p socket data = (none, [.execCmd (.cipsend socket data.length) true,
        .objSend data (p.accept data.length), .respSetInfo 128 0, .execCmd .empty false]) ∧
        p.cipsend = true ∧ (p.accept data.length).val ≠ 0 := by
  cases hcipsend : p.cipsend with
  | false => exact Or.inl ⟨by simp only [sendPacket, hcipsend, if_true], rfl⟩
  | true =>
      by_cases haccept : (p.accept data.length).val = 0
      · refine Or.inr (Or.inl ⟨?_, haccept⟩)
        simp only [sendPacket, hcipsend, haccept, Bool.true_eq_false, if_false, if_true]
      · have hsent : p.sent = false := by
          cases hs : p.sent with
          | false => rfl
          | true => exact absurd ⟨hcipsend, haccept, hs⟩ h
        refine Or.inr (Or.inr ⟨?_, rfl, haccept⟩)
        simp only [sendPacket, hcipsend, haccept, hsent, Bool.true_eq_false, if_false, if_true]

/-! ### The loop -/

/-- Behind the end of the buffer the loop returns its result. -/
theorem sendLoop_done (a : SendAnswers) (socket : Int) {buff : Bytes} {sentSize : Nat}
    (k : Nat) (result : Int) (h : buff.length ≤ sentSize) :
    sendLoop a socket buff sentSize k result = (result, []) := by
  rw [sendLoop, if_neg (by omega)]

/-- One round of the loop at the start of packet `k`. -/
theorem sendLoop_round (a : SendAnswers) (socket : Int) {buff : Bytes} {k : Nat}
    (result : Int) (h : a9gModuleSendMaxSize * k < buff.length) :
    sendLoop a socket buff (a9gModuleSendMaxSize * k) k result
      = match sendPacket (a.packet k) socket (packet buff k) with
        | (none, calls) => (-rtError, calls)
        | (some accepted, calls) =>
          let (result, more) :=
            sendLoop a socket buff (a9gModuleSendMaxSize * (k + 1)) (k + 1) accepted
          (result, calls ++ more) := by
  rw [sendLoop, if_pos h, curPktSize_eq]
  change (match sendPacket (a.packet k) socket (packet buff k) with
    | (none, calls) => (-rtError, calls)
    | (some accepted, calls) =>
      let (result, more) := sendLoop a socket buff
        (a9gModuleSendMaxSize * k + packetSize buff.length k) (k + 1) accepted
      (result, calls ++ more)) = _
  have hmul : a9gModuleSendMaxSize * (k + 1) = a9gModuleSendMaxSize * k + a9gModuleSendMaxSize :=
    Nat.mul_succ _ _
  -- The last packet ends at the end of the buffer, where the next round is as far as any.
  have hnext : ∀ accepted : Int,
      sendLoop a socket buff (a9gModuleSendMaxSize * k + packetSize buff.length k) (k + 1)
          accepted
        = sendLoop a socket buff (a9gModuleSendMaxSize * (k + 1)) (k + 1) accepted := by
    intro accepted
    by_cases hlast : buff.length ≤ a9gModuleSendMaxSize * (k + 1)
    · rw [sendLoop_done _ _ _ _ hlast, sendLoop_done]
      rw [packetSize]
      omega
    · have hfull : a9gModuleSendMaxSize * k + packetSize buff.length k
          = a9gModuleSendMaxSize * (k + 1) := by
        rw [packetSize]
        omega
      rw [hfull]
  simp only [hnext]

/-- A round that passes goes on with the next packet. -/
theorem sendLoop_passes {a : SendAnswers} (socket : Int) {buff : Bytes} {k : Nat}
    (result : Int) (h : a9gModuleSendMaxSize * k < buff.length)
    (hpass : Passes a buff.length k) :
    sendLoop a socket buff (a9gModuleSendMaxSize * k) k result
      = let (result, more) := sendLoop a socket buff (a9gModuleSendMaxSize * (k + 1)) (k + 1)
          (accepted a buff.length k)
        (result, [.execCmd (.cipsend socket (packetSize buff.length k)) true,
          .objSend (packet buff k) (accepted a buff.length k), .respSetInfo 128 0,
          .execCmd .empty true, .respSetInfo 128 2] ++ more) := by
  obtain ⟨hcipsend, haccept, hsent⟩ := hpass
  have hlen := length_packet buff k
  rw [sendLoop_round _ _ _ h, sendPacket_passes socket hcipsend (by rw [hlen]; exact haccept)
    hsent, hlen]
  rfl

/-- A round that does not pass ends the loop, with one of three endings. -/
theorem sendLoop_not_passes {a : SendAnswers} (socket : Int) {buff : Bytes} {k : Nat}
    (result : Int) (h : a9gModuleSendMaxSize * k < buff.length)
    (hpass : ¬ Passes a buff.length k) :
    sendLoop a socket buff (a9gModuleSendMaxSize * k) k result
        = (-rtError, [.execCmd (.cipsend socket (packetSize buff.length k)) false]) ∧
        (a.packet k).cipsend = false ∨
      sendLoop a socket buff (a9gModuleSendMaxSize * k) k result
        = (-rtError, [.execCmd (.cipsend socket (packetSize buff.length k)) true,
          .objSend (packet buff k) 0]) ∧ accepted a buff.length k = 0 ∨
      sendLoop a socket buff (a9gModuleSendMaxSize * k) k result
        = (-rtError, [.execCmd (.cipsend socket (packetSize buff.length k)) true,
          .objSend (packet buff k) (accepted a buff.length k), .respSetInfo 128 0,
          .execCmd .empty false]) ∧
        (a.packet k).cipsend = true ∧ accepted a buff.length k ≠ 0 := by
  have hlen := length_packet buff k
  have hnot : ¬ ((a.packet k).cipsend = true ∧
      ((a.packet k).accept (packet buff k).length).val ≠ 0 ∧ (a.packet k).sent = true) := by
    rw [hlen]
    exact hpass
  have hend := sendPacket_not_passes socket hnot
  rw [hlen] at hend
  rw [sendLoop_round _ _ _ h]
  rcases hend with ⟨heq, hwhy⟩ | ⟨heq, hwhy⟩ | ⟨heq, hwhy⟩
  · exact Or.inl ⟨by rw [heq], hwhy⟩
  · exact Or.inr (Or.inl ⟨by rw [heq], hwhy⟩)
  · exact Or.inr (Or.inr ⟨by rw [heq]; rfl, hwhy⟩)

/-- Induction over the packets of a buffer, from the last one backwards. -/
theorem packet_induction {motive : Nat → Prop} (n : Nat)
    (done : ∀ k, n ≤ a9gModuleSendMaxSize * k → motive k)
    (round : ∀ k, a9gModuleSendMaxSize * k < n → motive (k + 1) → motive k) (k : Nat) :
    motive k := by
  have hbound : ∀ d k, n ≤ a9gModuleSendMaxSize * (k + d) → motive k := by
    intro d
    induction d with
    | zero => exact fun k h => done k h
    | succ d ih =>
        intro k h
        by_cases hk : a9gModuleSendMaxSize * k < n
        · refine round k hk (ih (k + 1) ?_)
          rw [Nat.add_right_comm]
          exact h
        · exact done k (by omega)
  refine hbound n k ?_
  have hmax : a9gModuleSendMaxSize = 1000 := rfl
  rw [hmax]
  omega

/-! ### Whole runs of the loop -/

/-- `AllPass` one packet on. -/
theorem allPass_iff {a : SendAnswers} {n k : Nat} (h : a9gModuleSendMaxSize * k < n) :
    AllPass a n k ↔ Passes a n k ∧ AllPass a n (k + 1) := by
  constructor
  · intro hall
    exact ⟨hall k (le_refl k) h, fun m hm hlt => hall m (by omega) hlt⟩
  · rintro ⟨hk, hall⟩ m hm hlt
    rcases Nat.eq_or_lt_of_le hm with rfl | hgt
    · exact hk
    · exact hall m hgt hlt

/-- `NoneInPart` one packet on: what comes behind a packet counts only if it passes. -/
theorem noneInPart_iff {a : SendAnswers} {n k : Nat} (h : a9gModuleSendMaxSize * k < n) :
    NoneInPart a n k ↔
      ¬ AcceptedInPart a n k ∧ (Passes a n k → NoneInPart a n (k + 1)) := by
  constructor
  · intro hnone
    refine ⟨hnone k (le_refl k) h fun j hj hlt => by omega, fun hpass m hm hlt hbefore => ?_⟩
    refine hnone m (by omega) hlt fun j hj hjm => ?_
    rcases Nat.eq_or_lt_of_le hj with rfl | hgt
    · exact hpass
    · exact hbefore j hgt hjm
  · rintro ⟨hk, hrest⟩ m hm hlt hbefore
    rcases Nat.eq_or_lt_of_le hm with rfl | hgt
    · exact hk
    · exact hrest (hbefore k (le_refl k) hgt) m hgt hlt fun j hj hjm =>
        hbefore j (by omega) hjm

/-- A packet that passes and is not accepted in part is accepted whole. -/
theorem accepted_of_passes {a : SendAnswers} {n k : Nat} (hpass : Passes a n k)
    (hpart : ¬ AcceptedInPart a n k) : accepted a n k = packetSize n k := by
  obtain ⟨hcipsend, haccept, -⟩ := hpass
  have hle : accepted a n k ≤ packetSize n k :=
    Nat.lt_succ_iff.mp ((a.packet k).accept (packetSize n k)).isLt
  by_contra hne
  exact hpart ⟨hcipsend, by omega, by omega⟩

/-- If some packet does not pass, the loop ends with `-RT_ERROR`. -/
theorem sendLoop_of_not_allPass (a : SendAnswers) (socket : Int) (buff : Bytes) (k : Nat)
    (result : Int) (h : ¬ AllPass a buff.length k) :
    (sendLoop a socket buff (a9gModuleSendMaxSize * k) k result).1 = -rtError := by
  induction k using packet_induction buff.length generalizing result with
  | done k hk =>
      exact absurd (fun m hm hlt => by
        have := Nat.mul_le_mul_left a9gModuleSendMaxSize hm
        omega) h
  | round k hk ih =>
      rw [allPass_iff hk, not_and] at h
      by_cases hpass : Passes a buff.length k
      · rw [sendLoop_passes socket result hk hpass]
        exact ih _ (h hpass)
      · rcases sendLoop_not_passes socket result hk hpass with ⟨heq, -⟩ | ⟨heq, -⟩ | ⟨heq, -⟩ <;>
          rw [heq]

/-- If every packet passes and none is accepted in part, everything behind the offset is
accepted, and the result is the size of the last packet. -/
theorem sendLoop_of_allPass {a : SendAnswers} (socket : Int) {buff : Bytes} {k : Nat}
    (result : Int) (hall : AllPass a buff.length k) (hnone : NoneInPart a buff.length k) :
    acceptedData (sendLoop a socket buff (a9gModuleSendMaxSize * k) k result).2
        = buff.drop (a9gModuleSendMaxSize * k) ∧
      (∀ call ∈ (sendLoop a socket buff (a9gModuleSendMaxSize * k) k result).2,
        ¬ call.Failed) ∧
      (sendLoop a socket buff (a9gModuleSendMaxSize * k) k result).1
        = if a9gModuleSendMaxSize * k < buff.length
          then (packetSize buff.length ((buff.length - 1) / a9gModuleSendMaxSize) : Int)
          else result := by
  induction k using packet_induction buff.length generalizing result with
  | done k hk =>
      rw [sendLoop_done _ _ _ _ hk, if_neg (by omega), List.drop_of_length_le hk]
      exact ⟨rfl, by simp, rfl⟩
  | round k hk ih =>
      obtain ⟨hpass, hrest⟩ := (allPass_iff hk).mp hall
      obtain ⟨hpart, hnone⟩ := (noneInPart_iff hk).mp hnone
      have haccept := accepted_of_passes hpass hpart
      obtain ⟨hdata, hok, hres⟩ := ih (accepted a buff.length k) hrest (hnone hpass)
      rw [sendLoop_passes socket result hk hpass, if_pos hk]
      have htake : (packet buff k).take (accepted a buff.length k) = packet buff k := by
        rw [haccept, ← length_packet, List.take_length]
      refine ⟨?_, ?_, ?_⟩
      · show acceptedData (_ ++ _) = _
        rw [acceptedData_append, hdata, ← packet_append_drop buff k]
        simp only [acceptedData, htake, List.append_nil]
      · intro call hcall
        rcases List.mem_append.mp hcall with hmem | hmem
        · simp only [List.mem_cons, List.not_mem_nil, or_false] at hmem
          rcases hmem with rfl | rfl | rfl | rfl | rfl <;>
            simp [AtCall.Failed, haccept]
        · exact hok call hmem
      · show (sendLoop _ _ _ _ _ _).1 = _
        rw [hres]
        split
        · rfl
        · -- This was the last packet.
          have hlast : (buff.length - 1) / a9gModuleSendMaxSize = k := by
            refine Nat.div_eq_of_lt_le ?_ ?_ <;> rw [Nat.mul_comm] <;> omega
          rw [hlast, haccept]

/-- The announced lengths are met exactly when no packet is accepted in part. -/
theorem announcedExactly_sendLoop (a : SendAnswers) (socket : Int) (buff : Bytes) (k : Nat)
    (result : Int) :
    AnnouncedExactly a9gModuleSendMaxSize
        (sendLoop a socket buff (a9gModuleSendMaxSize * k) k result).2 ↔
      NoneInPart a buff.length k := by
  have hmax : a9gModuleSendMaxSize = 1000 := rfl
  induction k using packet_induction buff.length generalizing result with
  | done k hk =>
      rw [sendLoop_done _ _ _ _ hk]
      refine iff_of_true trivial fun m hm hlt => ?_
      have := Nat.mul_le_mul_left a9gModuleSendMaxSize hm
      omega
  | round k hk ih =>
      have hsize : 1 ≤ packetSize buff.length k ∧
          packetSize buff.length k ≤ a9gModuleSendMaxSize := by
        rw [packetSize]
        omega
      have hle : accepted a buff.length k ≤ packetSize buff.length k :=
        Nat.lt_succ_iff.mp ((a.packet k).accept (packetSize buff.length k)).isLt
      rw [noneInPart_iff hk]
      by_cases hpass : Passes a buff.length k
      · rw [sendLoop_passes socket result hk hpass]
        simp only [List.cons_append, List.nil_append, AnnouncedExactly, acceptedBeforeCmd,
          Option.map_some, List.length_take, length_packet, ih, AcceptedInPart, hpass,
          hpass.1]
        have hne := hpass.2.1
        simp [hsize]
        omega
      · rcases sendLoop_not_passes socket result hk hpass with
          ⟨heq, hwhy⟩ | ⟨heq, hwhy⟩ | ⟨heq, hwhy, hne⟩
        · rw [heq]
          simp [AnnouncedExactly, acceptedBeforeCmd, AcceptedInPart, hsize, hpass, hwhy]
        · rw [heq]
          simp [AnnouncedExactly, acceptedBeforeCmd, AcceptedInPart, hsize, hpass, hwhy]
        · rw [heq]
          simp [AnnouncedExactly, acceptedBeforeCmd, AcceptedInPart, hsize, hpass, hwhy]
          omega

/-! ### The whole call -/

/-- The calls around the loop do not touch what `Truthful` looks at. -/
theorem a9gSocketSend_spec {a : SendAnswers} (socket : Int) (buff : Bytes)
    (hresp : a.createResp = true) {loop : Int × List AtCall}
    (hloop : sendLoop a socket buff (a9gModuleSendMaxSize * 0) 0 0 = loop) :
    (a9gSocketSend a socket buff).1 = loop.1 ∧
      acceptedData (a9gSocketSend a socket buff).2 = acceptedData loop.2 ∧
      (AnnouncedExactly a9gModuleSendMaxSize (a9gSocketSend a socket buff).2 ↔
        AnnouncedExactly a9gModuleSendMaxSize loop.2) ∧
      ((∃ call ∈ (a9gSocketSend a socket buff).2, call.Failed) →
        ∃ call ∈ loop.2, call.Failed) := by
  have hcall : a9gSocketSend a socket buff
      = (loop.1, [.createResp 128 2, .mutexTake, .setEndSign 62] ++ loop.2
        ++ [.setEndSign 0, .mutexRelease, .deleteResp]) := by
    rw [a9gSocketSend, if_neg (by rw [hresp]; decide)]
    rw [Nat.mul_zero] at hloop
    rw [hloop]
  rw [hcall]
  refine ⟨rfl, ?_, ?_, ?_⟩
  · rw [acceptedData_append, acceptedData_append]
    exact List.append_nil _
  · exact @announcedExactly_append _ [.setEndSign 0, .mutexRelease, .deleteResp] rfl trivial _
  · rintro ⟨call, hmem, hfailed⟩
    simp only [List.mem_append, List.mem_cons, List.not_mem_nil, or_false] at hmem
    rcases hmem with ((rfl | rfl | rfl) | hmem) | rfl | rfl | rfl
    case inl.inr => exact ⟨call, hmem, hfailed⟩
    all_goals exact hfailed.elim

/-- **The promise of `a9g_socket_send` is kept exactly under `SendsAll`.** -/
theorem truthful_iff (a : SendAnswers) (socket : Int) (buff : Bytes) :
    Truthful buff (a9gSocketSend a socket buff).1 (a9gSocketSend a socket buff).2 ↔
      SendsAll a buff.length := by
  have hmax : a9gModuleSendMaxSize = 1000 := rfl
  cases hresp : a.createResp with
  | false =>
      -- Without a response object nothing is sent and the result is negative.
      rw [a9gSocketSend, if_pos hresp]
      refine iff_of_true ?_ (Or.inl hresp)
      exact ⟨fun h => absurd h (by decide), trivial, fun h => by simp at h⟩
  | true =>
      obtain ⟨hres, hdata, hann, hfail⟩ := a9gSocketSend_spec socket buff hresp rfl
      rw [announcedExactly_sendLoop] at hann
      have hneg := sendLoop_of_not_allPass a socket buff 0 0
      have hall := @sendLoop_of_allPass a socket buff 0 0
      rw [SendsAll, hresp]
      constructor
      · rintro ⟨hwhole, hannounced, -⟩
        have hnone := hann.mp hannounced
        refine Or.inr ⟨hnone, ?_⟩
        by_cases hpass : AllPass a buff.length 0
        · -- The result is the size of the last packet, so there is one packet.
          left
          obtain ⟨-, -, hlast⟩ := hall hpass hnone
          rw [hres, hlast] at hwhole
          by_cases hpos : a9gModuleSendMaxSize * 0 < buff.length
          · rw [if_pos hpos] at hwhole
            have hwhole := (hwhole (by omega)).1
            rw [packetSize] at hwhole
            omega
          · omega
        · exact Or.inr hpass
      · rintro (hno | ⟨hnone, hone⟩)
        · cases hno
        · by_cases hpass : AllPass a buff.length 0
          · obtain ⟨hloop, hok, hlast⟩ := hall hpass hnone
            have hle : buff.length ≤ a9gModuleSendMaxSize := by
              rcases hone with hle | hnot
              · exact hle
              · exact absurd hpass hnot
            refine ⟨fun _ => ⟨?_, by rw [hdata, hloop]; rfl⟩, hann.mpr hnone, fun hf => ?_⟩
            · rw [hres, hlast]
              split
              · rw [Nat.div_eq_of_lt (by omega), packetSize]
                omega
              · have : buff.length = 0 := by omega
                rw [this]
                rfl
            · obtain ⟨call, hmem, hcall⟩ := hfail hf
              exact absurd hcall (hok call hmem)
          · rw [hres, hneg hpass]
            exact ⟨fun h => absurd h (by decide), hann.mpr hnone, fun _ => by decide⟩

/-- The modem that takes everything. -/
def obligingAnswers : SendAnswers where
  createResp := true
  packet := fun _ => ⟨true, fun size => Fin.last size, true⟩

/-- A buffer of 1500 bytes, all of them taken: the result is the 500 of the last packet. -/
theorem not_truthful_two_packets :
    ¬ Truthful (List.replicate 1500 0)
      (a9gSocketSend obligingAnswers 0 (List.replicate 1500 0)).1
      (a9gSocketSend obligingAnswers 0 (List.replicate 1500 0)).2 := by
  intro h
  have hpass : AllPass obligingAnswers (List.replicate 1500 (0 : UInt8)).length 0 := by
    intro m hm hlt
    refine ⟨rfl, ?_, rfl⟩
    show packetSize _ m ≠ 0
    rw [packetSize]
    have hmax : a9gModuleSendMaxSize = 1000 := rfl
    omega
  have hnone : NoneInPart obligingAnswers (List.replicate 1500 (0 : UInt8)).length 0 := by
    rintro m hm hlt hbefore ⟨-, -, hpart⟩
    exact absurd hpart (lt_irrefl _)
  have hres := (sendLoop_of_allPass 0 0 hpass hnone).2.2
  have hwhole := h.whole
  rw [(a9gSocketSend_spec 0 _ rfl rfl).1, hres, List.length_replicate] at hwhole
  exact absurd (hwhole (by decide)).1 (by decide)

end CarLocator.A9g
