import CarLocator.Rc522.Com

/-!
# `CarLocator.Rc522.Card`: request, anticollision, select, read and write

The five operations of `rc522.c` that look at an answer of the card. Each puts its request
into a buffer, exchanges it with `pcdComMF522`, which leaves the answer in the same buffer,
and checks the length of the answer, except that `PcdAnticoll` checks a sum only. A
`CardResult` records for each exchange which bytes of the buffer the operation has looked
at.

`Exact` is what an accepted answer should be: of the exact length, and looked at only as far
as it was received. `exact_iff` states when an operation keeps to it.
-/

set_option autoImplicit false

namespace CarLocator.Rc522

open CarLocator.Library

/-- An exchange, and the bytes of the buffer that are handed to the caller or compared after
it. -/
structure Use where
  exchange : Exchange
  bytes : Bytes

/-- What an operation returns. -/
structure CardResult where
  status : MiStatus
  -- the bytes written to the caller
  handed : Bytes
  -- its exchanges, in order
  uses : List Use

/-- The operations, with what the caller passes. -/
inductive CardCall
  | request (reqCode : UInt8)
  | anticoll
  | select (snr : Fin 4 → UInt8)
  | read (addr : UInt8)
  | write (addr : UInt8) (p : Fin 16 → UInt8)

/-- What the chip answers to an operation, and what its variables hold at first. -/
structure CardAnswers where
  first : Exchange
  second : Exchange
  -- the results of `CalulateCRC`
  crc : UInt8 × UInt8
  crc' : UInt8 × UInt8
  buf : ComBuf
  unLen : UInt8

/-- `PcdRequest`. -/
def pcdRequest (a : CardAnswers) (reqCode : UInt8) : CardResult :=
  let r := pcdComMF522 a.first .transceive (a.buf.store [reqCode]) a.unLen
  if r.status = .ok ∧ r.outLenBit = 0x10 then
    ⟨.ok, r.out.first 2, [⟨a.first, r.out.first 2⟩]⟩
  else ⟨.err, [], [⟨a.first, []⟩]⟩

/-- `PcdAnticoll`. -/
def pcdAnticoll (a : CardAnswers) : CardResult :=
  let r := pcdComMF522 a.first .transceive (a.buf.store [0x93, 0x20]) a.unLen
  if r.status = .ok then
    let snrCheck := 0 ^^^ r.out 0 ^^^ r.out 1 ^^^ r.out 2 ^^^ r.out 3
    ⟨if snrCheck ≠ r.out 4 then .err else .ok, r.out.first 4, [⟨a.first, r.out.first 5⟩]⟩
  else ⟨r.status, [], [⟨a.first, []⟩]⟩

/-- `PcdSelect`. -/
def pcdSelect (a : CardAnswers) (snr : Fin 4 → UInt8) : CardResult :=
  let bcc := 0 ^^^ snr 0 ^^^ snr 1 ^^^ snr 2 ^^^ snr 3
  let r := pcdComMF522 a.first .transceive
    (a.buf.store [0x93, 0x70, snr 0, snr 1, snr 2, snr 3, bcc, a.crc.1, a.crc.2]) a.unLen
  if r.status = .ok ∧ r.outLenBit = 0x18 then ⟨.ok, [], [⟨a.first, []⟩]⟩
  else ⟨.err, [], [⟨a.first, []⟩]⟩

/-- `PcdRead`. -/
def pcdRead (a : CardAnswers) (addr : UInt8) : CardResult :=
  let r := pcdComMF522 a.first .transceive (a.buf.store [0x30, addr, a.crc.1, a.crc.2]) a.unLen
  if r.status = .ok ∧ r.outLenBit = 0x90 then
    ⟨.ok, r.out.first 16, [⟨a.first, r.out.first 16⟩]⟩
  else ⟨.err, [], [⟨a.first, []⟩]⟩

/-- The test of `PcdWrite` for an acknowledge: whether it passes, and the bytes compared. -/
def acknowledged (r : ComResult) : Bool × Bytes :=
  if r.status ≠ .ok ∨ r.outLenBit ≠ 4 then (false, [])
  else (decide (r.out 0 &&& 0x0F = 0x0A), r.out.first 1)

/-- `PcdWrite`. -/
def pcdWrite (a : CardAnswers) (addr : UInt8) (p : Fin 16 → UInt8) : CardResult :=
  let r := pcdComMF522 a.first .transceive (a.buf.store [0xA0, addr, a.crc.1, a.crc.2]) a.unLen
  match acknowledged r with
  | (false, bytes) => ⟨.err, [], [⟨a.first, bytes⟩]⟩
  | (true, bytes) =>
    let r' := pcdComMF522 a.second .transceive
      (r.out.store (List.ofFn p ++ [a.crc'.1, a.crc'.2])) r.outLenBit
    match acknowledged r' with
    | (false, bytes') => ⟨.err, [], [⟨a.first, bytes⟩, ⟨a.second, bytes'⟩]⟩
    | (true, bytes') => ⟨.ok, [], [⟨a.first, bytes⟩, ⟨a.second, bytes'⟩]⟩

/-- The operations. -/
def CardCall.run (a : CardAnswers) : CardCall → CardResult
  | .request reqCode => pcdRequest a reqCode
  | .anticoll => pcdAnticoll a
  | .select snr => pcdSelect a snr
  | .read addr => pcdRead a addr
  | .write addr p => pcdWrite a addr p

/-- The length of the answer in bits. -/
def CardCall.bits : CardCall → Nat
  | .request _ => 16
  | .anticoll => 40
  | .select _ => 24
  | .read _ => 144
  | .write _ _ => 4

/-- The number of exchanges. -/
def CardCall.exchanges : CardCall → Nat
  | .write _ _ => 2
  | _ => 1

/-- The fifth byte is the XOR of the first four. -/
def Checksum (bytes : Bytes) : Prop :=
  ∃ b₀ b₁ b₂ b₃, bytes = [b₀, b₁, b₂, b₃, b₀ ^^^ b₁ ^^^ b₂ ^^^ b₃]

/-- An operation accepts answers of their exact length only, and looks at received bytes
only. -/
structure Exact (c : CardCall) (r : CardResult) : Prop where
  exchanges : r.status = .ok → r.uses.length = c.exchanges
  length : r.status = .ok → ∀ u ∈ r.uses, u.exchange.Completes ∧ u.exchange.answerBits = c.bits
  checksum : r.status = .ok → c = .anticoll → ∀ u ∈ r.uses, Checksum u.bytes
  received : ∀ u ∈ r.uses, u.bytes <+: u.exchange.read
  handed : r.handed = [] ∨ ∃ u ∈ r.uses, r.handed <+: u.bytes

/-- An answer that `PcdWrite` takes for an acknowledge. -/
def Acked (x : Exchange) : Prop :=
  x.Completes ∧ (x.answerBits = 4 ∨ x.answerBits = 260) ∧ x.fifoData 0 &&& 0x0F = 0x0A

/-- The answers under which an operation is exact: none of 256 bits more passes for the right
one, and an answer to `PcdAnticoll` has five bytes at least, and exactly five if the fifth is
the XOR of the first four. -/
def CardCall.Unmistakable (a : CardAnswers) : CardCall → Prop
  | .anticoll => a.first.Completes → 5 ≤ a.first.fifoLevel.val ∧
      (Checksum (a.first.read.take 5) → a.first.answerBits = 40)
  | .write _ _ => Acked a.first → Acked a.second →
      a.first.answerBits = 4 ∧ a.second.answerBits = 4
  | c => a.first.Completes → a.first.answerBits ≠ c.bits + 256

/-! ### One answer -/

/-- An answer of some bytes fills the FIFO with as many. -/
theorem fifoReads_ge {x : Exchange} {k : Nat} (hk : k ≤ maxRLen) (h : 8 * k ≤ x.answerBits + 7) :
    k ≤ fifoReads x.fifoLevel := by
  have hlast := lastBits_lt x
  unfold Exchange.answerBits at h
  unfold fifoReads maxRLen at *
  simp only
  split at h
  · split <;> split <;> omega
  · split at h <;> split <;> split <;> omega

/-- The beginning of the buffer after an exchange is what was received. -/
theorem first_eq_take (x : Exchange) (pOut : ComBuf) {k : Nat} (hk : k ≤ fifoReads x.fifoLevel) :
    ComBuf.first (fun j => if j < fifoReads x.fifoLevel then x.fifoData j else pOut j) k
      = x.read.take k := by
  rw [ComBuf.first, Exchange.read, ← List.map_take, List.take_range, Nat.min_eq_left hk]
  refine List.map_congr_left fun j hj => ?_
  have hj := List.mem_range.mp hj
  rw [if_pos (by omega)]

/-- A length that is checked: it is right, or of 256 bits more. -/
theorem checked_iff (x : Exchange) (pOut : ComBuf) (unLen bits : UInt8)
    (hpos : 0 < bits.toNat) (hlt : bits.toNat < 248) :
    ((pcdComMF522 x .transceive pOut unLen).status = .ok ∧
        (pcdComMF522 x .transceive pOut unLen).outLenBit = bits) ↔
      x.Completes ∧ (x.answerBits = bits.toNat ∨ x.answerBits = bits.toNat + 256) := by
  by_cases hc : x.Completes
  · rw [pcdComMF522_ok hc pOut unLen, ← outLenBit_eq_iff x hpos hlt]
    simp [hc]
  · exact iff_of_false (fun h => pcdComMF522_not_ok hc pOut unLen h.1) fun h => hc h.1

/-- An operation that does not accept the answers, hands nothing on and has looked at received
bytes only is exact. -/
theorem exact_of_refused {c : CardCall} {uses : List Use} {status : MiStatus}
    (h : status ≠ .ok) (hreceived : ∀ u ∈ uses, u.bytes <+: u.exchange.read) :
    Exact c ⟨status, [], uses⟩ where
  exchanges := fun hok => absurd hok h
  length := fun hok => absurd hok h
  checksum := fun hok => absurd hok h
  received := hreceived
  handed := Or.inl rfl

/-- An exchange after which nothing was looked at. -/
theorem received_nil (x : Exchange) : ∀ u ∈ [(⟨x, []⟩ : Use)], u.bytes <+: u.exchange.read := by
  intro u hu
  rw [List.mem_singleton.mp hu]
  exact List.nil_prefix

/-- An operation that accepts the answer of one exchange is exact if the length is right. -/
theorem exact_of_accepted {c : CardCall} {x : Exchange} {handed bytes : Bytes}
    (hone : c.exchanges = 1) (hc : x.Completes) (hsum : c = .anticoll → Checksum bytes)
    (hbytes : bytes <+: x.read) (hhanded : handed <+: bytes) :
    Exact c ⟨.ok, handed, [⟨x, bytes⟩]⟩ ↔ x.answerBits = c.bits := by
  constructor
  · exact fun h => (h.length rfl _ List.mem_cons_self).2
  · intro hbits
    exact
      { exchanges := fun _ => hone.symm
        length := by
          intro _ u hu
          rw [List.mem_singleton.mp hu]
          exact ⟨hc, hbits⟩
        checksum := by
          intro _ hanti u hu
          rw [List.mem_singleton.mp hu]
          exact hsum hanti
        received := by
          intro u hu
          rw [List.mem_singleton.mp hu]
          exact hbytes
        handed := Or.inr ⟨_, List.mem_cons_self, hhanded⟩ }

/-- **The operations that check the length of one answer.** `k` bytes of it are handed on. -/
theorem exact_checked_iff {c : CardCall} (x : Exchange) (pOut : ComBuf) (unLen bits : UInt8)
    {k : Nat} (hpos : 0 < bits.toNat) (hlt : bits.toNat < 248)
    (hbits : c.bits = bits.toNat) (hone : c.exchanges = 1) (hanti : c ≠ .anticoll)
    (hk : k ≤ maxRLen) (hlen : 8 * k ≤ bits.toNat + 7) :
    Exact c (if (pcdComMF522 x .transceive pOut unLen).status = .ok ∧
          (pcdComMF522 x .transceive pOut unLen).outLenBit = bits
        then ⟨.ok, (pcdComMF522 x .transceive pOut unLen).out.first k,
          [⟨x, (pcdComMF522 x .transceive pOut unLen).out.first k⟩]⟩
        else ⟨.err, [], [⟨x, []⟩]⟩) ↔
      (x.Completes → x.answerBits ≠ c.bits + 256) := by
  have hchecked := checked_iff x pOut unLen bits hpos hlt
  split
  · rename_i hok
    obtain ⟨hc, hanswer⟩ := hchecked.mp hok
    have hreads : k ≤ fifoReads x.fifoLevel := fifoReads_ge hk (by omega)
    rw [pcdComMF522_ok hc pOut unLen]
    simp only [first_eq_take x pOut hreads]
    rw [exact_of_accepted hone hc (fun h => absurd h hanti) (List.take_prefix k _)
      (List.prefix_refl _), hbits]
    constructor
    · intro h _
      omega
    · intro h
      exact hanswer.resolve_right (h hc)
  · rename_i hno
    refine iff_of_true (exact_of_refused (by decide) (received_nil x)) fun hc h => ?_
    exact hno (hchecked.mpr ⟨hc, Or.inr (by omega)⟩)

/-! ### Anticollision -/

/-- The test of `PcdAnticoll` on five received bytes. -/
theorem checksum_iff {x : Exchange} (h : 5 ≤ fifoReads x.fifoLevel) :
    Checksum (x.read.take 5) ↔
      0 ^^^ x.fifoData 0 ^^^ x.fifoData 1 ^^^ x.fifoData 2 ^^^ x.fifoData 3 = x.fifoData 4 := by
  have hread : x.read.take 5
      = [x.fifoData 0, x.fifoData 1, x.fifoData 2, x.fifoData 3, x.fifoData 4] := by
    rw [Exchange.read, ← List.map_take, List.take_range, Nat.min_eq_left h]
    rfl
  rw [hread, UInt8.zero_xor]
  constructor
  · rintro ⟨b₀, b₁, b₂, b₃, heq⟩
    simp only [List.cons.injEq, and_true] at heq
    obtain ⟨rfl, rfl, rfl, rfl, h4⟩ := heq
    exact h4.symm
  · intro h4
    exact ⟨_, _, _, _, by rw [h4]⟩

/-- The number of bytes read is that of the FIFO, if it has some but not too many. -/
theorem five_le_fifoReads {level : Nat} : 5 ≤ fifoReads level ↔ 5 ≤ level := by
  unfold fifoReads maxRLen
  simp only
  split <;> split <;> omega

/-- **`PcdAnticoll`.** -/
theorem exact_anticoll_iff (a : CardAnswers) :
    Exact .anticoll (pcdAnticoll a) ↔ CardCall.anticoll.Unmistakable a := by
  rw [pcdAnticoll]
  by_cases hc : a.first.Completes
  · rw [pcdComMF522_ok hc]
    simp only [if_true]
    by_cases hlevel : 5 ≤ a.first.fifoLevel.val
    · have hreads := five_le_fifoReads.mpr hlevel
      have hout : ∀ {j : Nat}, j < 5 → j < fifoReads a.first.fifoLevel :=
        fun hj => Nat.lt_of_lt_of_le hj hreads
      rw [first_eq_take _ _ hreads, first_eq_take _ _ (Nat.le_trans (by omega) hreads)]
      simp only [hout (show 0 < 5 by decide), hout (show 1 < 5 by decide),
        hout (show 2 < 5 by decide), hout (show 3 < 5 by decide), hout (show 4 < 5 by decide),
        if_true]
      by_cases hsum : Checksum (a.first.read.take 5)
      · rw [if_neg (not_not.mpr ((checksum_iff hreads).mp hsum)),
          exact_of_accepted rfl hc (fun _ => hsum) (List.take_prefix 5 _)
            (List.take_prefix_take_left (by omega))]
        exact ⟨fun h _ => ⟨hlevel, fun _ => h⟩, fun h => (h hc).2 hsum⟩
      · rw [if_pos fun h => hsum ((checksum_iff hreads).mpr h)]
        refine iff_of_true ?_ fun _ => ⟨hlevel, fun h => absurd h hsum⟩
        exact
          { exchanges := fun hok => by cases hok
            length := fun hok => by cases hok
            checksum := fun hok => by cases hok
            received := by
              intro u hu
              rw [List.mem_singleton.mp hu]
              exact List.take_prefix 5 _
            handed := Or.inr ⟨_, List.mem_cons_self, List.take_prefix_take_left (by omega)⟩ }
    · refine iff_of_false (fun h => ?_) fun h => hlevel (h hc).1
      -- five bytes are looked at, but fewer were received
      have hlen := (h.received _ List.mem_cons_self).length_le
      simp only [ComBuf.first, Exchange.read, List.length_map, List.length_range] at hlen
      exact hlevel (five_le_fifoReads.mp hlen)
  · rw [if_neg (pcdComMF522_not_ok hc _ _)]
    exact iff_of_true (exact_of_refused (pcdComMF522_not_ok hc _ _) (received_nil _))
      fun h => absurd h hc

/-! ### Write -/

/-- The test for an acknowledge looks at a received byte at most. -/
theorem acknowledged_cases (x : Exchange) (pOut : ComBuf) (unLen : UInt8) :
    (Acked x ∧ ∃ bytes, acknowledged (pcdComMF522 x .transceive pOut unLen) = (true, bytes) ∧
        bytes <+: x.read) ∨
      ¬ Acked x ∧ ∃ bytes, acknowledged (pcdComMF522 x .transceive pOut unLen) = (false, bytes) ∧
        bytes <+: x.read := by
  have hchecked := checked_iff x pOut unLen 4 (by decide) (by decide)
  rw [acknowledged]
  split
  · rename_i hno
    refine Or.inr ⟨fun hacked => ?_, [], rfl, List.nil_prefix⟩
    obtain ⟨hstatus, hlen⟩ := hchecked.mpr ⟨hacked.1, hacked.2.1⟩
    rcases hno with hno | hno
    · exact hno hstatus
    · exact hno hlen
  · rename_i hok
    rw [not_or, not_not, not_not] at hok
    obtain ⟨hc, hanswer⟩ := hchecked.mp hok
    have hreads : 1 ≤ fifoReads x.fifoLevel :=
      fifoReads_ge (by decide) (by rcases hanswer with h | h <;> rw [h] <;> decide)
    rw [pcdComMF522_ok hc pOut unLen]
    simp only [first_eq_take x pOut hreads, show 0 < fifoReads x.fifoLevel by omega, if_true]
    by_cases hnibble : x.fifoData 0 &&& 0x0F = 0x0A
    · exact Or.inl ⟨⟨hc, hanswer, hnibble⟩, _, by rw [decide_eq_true hnibble],
        List.take_prefix 1 _⟩
    · exact Or.inr ⟨fun h => hnibble h.2.2, _, by rw [decide_eq_false hnibble],
        List.take_prefix 1 _⟩

/-- **`PcdWrite`.** -/
theorem exact_write_iff (a : CardAnswers) (addr : UInt8) (p : Fin 16 → UInt8) :
    Exact (.write addr p) (pcdWrite a addr p) ↔ (CardCall.write addr p).Unmistakable a := by
  show _ ↔ (Acked a.first → Acked a.second → a.first.answerBits = 4 ∧ a.second.answerBits = 4)
  rw [pcdWrite]
  simp only
  rcases acknowledged_cases a.first (a.buf.store [0xA0, addr, a.crc.1, a.crc.2]) a.unLen with
    ⟨hacked, bytes, heq, hbytes⟩ | ⟨hacked, bytes, heq, hbytes⟩
  · rw [heq]
    simp only
    generalize ComBuf.store _ _ = pOut
    generalize ComResult.outLenBit _ = unLen
    rcases acknowledged_cases a.second pOut unLen with
      ⟨hacked', bytes', heq', hbytes'⟩ | ⟨hacked', bytes', heq', hbytes'⟩
    · rw [heq']
      constructor
      · intro h _ _
        exact ⟨(h.length rfl _ List.mem_cons_self).2,
          (h.length rfl _ (List.mem_cons_of_mem _ List.mem_cons_self)).2⟩
      · intro h
        obtain ⟨hfirst, hsecond⟩ := h hacked hacked'
        exact
          { exchanges := fun _ => rfl
            length := fun _ => List.forall_mem_cons.mpr ⟨⟨hacked.1, hfirst⟩,
              List.forall_mem_singleton.mpr ⟨hacked'.1, hsecond⟩⟩
            checksum := fun _ hanti => CardCall.noConfusion hanti
            received := List.forall_mem_cons.mpr ⟨hbytes, List.forall_mem_singleton.mpr hbytes'⟩
            handed := Or.inl rfl }
    · rw [heq']
      refine iff_of_true (exact_of_refused (by decide) ?_) fun _ h => absurd h hacked'
      exact List.forall_mem_cons.mpr ⟨hbytes, List.forall_mem_singleton.mpr hbytes'⟩
  · rw [heq]
    refine iff_of_true (exact_of_refused (by decide) ?_) fun h => absurd h hacked
    exact List.forall_mem_singleton.mpr hbytes

/-! ### All operations -/

/-- **Every operation accepts answers of their exact length only, and looks at received bytes
only, exactly when the answers are unmistakable.** -/
theorem exact_iff (c : CardCall) (a : CardAnswers) : Exact c (c.run a) ↔ c.Unmistakable a := by
  cases c with
  | request reqCode =>
      exact exact_checked_iff (c := .request reqCode) (k := 2) a.first _ a.unLen 0x10
        (by decide) (by decide) rfl rfl CardCall.noConfusion (by decide) (by decide)
  | anticoll => exact exact_anticoll_iff a
  | select snr =>
      exact exact_checked_iff (c := .select snr) (k := 0) a.first _ a.unLen 0x18
        (by decide) (by decide) rfl rfl CardCall.noConfusion (by decide) (by decide)
  | read addr =>
      exact exact_checked_iff (c := .read addr) (k := 16) a.first _ a.unLen 0x90
        (by decide) (by decide) rfl rfl CardCall.noConfusion (by decide) (by decide)
  | write addr p => exact exact_write_iff a addr p

/-- An answer of six bytes, the fifth of which is the XOR of the first four. -/
def sixBytes : Exchange where
  comIrq := fun _ => 0x30
  errorReg := 0
  fifoLevel := 6
  controlReg := 0
  fifoData := fun k => [1, 2, 3, 4, 4, 0].getD k 0

/-- `PcdAnticoll` accepts an answer of 48 bits. -/
theorem not_exact_anticoll_six :
    ¬ Exact .anticoll (CardCall.run
      ⟨sixBytes, sixBytes, (0, 0), (0, 0), fun _ => 0, 0⟩ .anticoll) := by
  intro h
  have hc : sixBytes.Completes :=
    ⟨⟨0, by decide, fun j hj => absurd hj (Nat.not_lt_zero j), by decide, by decide⟩, by decide⟩
  have hsum : Checksum (sixBytes.read.take 5) := ⟨1, 2, 3, 4, by decide⟩
  have hbits := (exact_anticoll_iff
    ⟨sixBytes, sixBytes, (0, 0), (0, 0), fun _ => 0, 0⟩).mp h hc
  exact absurd (hbits.2 hsum) (by decide)

end CarLocator.Rc522
