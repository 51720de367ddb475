import CarLocator.At.Response

/-!
# `CarLocator.At.Client`: the line reader and the dispatcher of the AT client

`atRecvReadline` and `clientParser` follow `at_recv_readline` and one round of the loop of
`client_parser`. The input is the list of bytes still to come from the device, so a round
either ends with what it did and the bytes behind it, or it has no result because it waits
for a byte that is not there. The table of URC functions is a parameter, and so is the
interpreter that says what a URC function does to the input.

Every suffix in a URC table of this program ends in `\r\n` (`CrlfTable`). Under this
condition the line reader stops at the first `\r\n` or end sign and nowhere else:
`atRecvReadline_line` and `atRecvReadline_full` are its two outcomes.
-/

set_option autoImplicit false

namespace CarLocator.At

open CarLocator.Library

/-- `struct at_urc`. -/
structure AtUrc (φ : Type) where
  cmdPrefix : Bytes
  cmdSuffix : Bytes
  func : Option φ
  deriving DecidableEq, Repr

/-- What `client_parser` reads and writes of `struct at_client`. -/
structure AtClient where
  endSign : UInt8
  recvBufsz : Nat
  resp : Option AtResponse
  respStatus : AtRespStatus
  deriving DecidableEq, Repr

/-- What a round of `client_parser` does: a URC function is called, the function does
something, or a line goes to the pending response. -/
inductive ClientEffect (φ ε : Type)
  | urc (func : φ)
  | did (e : ε)
  | respLine (line : Bytes)
  deriving DecidableEq, Repr

variable {φ ε : Type}

/-- The test of `get_urc_obj` for one entry. -/
def AtUrc.Matches (urc : AtUrc φ) (buffer : Bytes) : Prop :=
  urc.cmdPrefix.length + urc.cmdSuffix.length ≤ buffer.length
    ∧ urc.cmdPrefix <+: buffer ∧ urc.cmdSuffix <:+ buffer

instance (urc : AtUrc φ) (buffer : Bytes) : Decidable (urc.Matches buffer) :=
  inferInstanceAs (Decidable (_ ∧ _ ∧ _))

/-- `get_urc_obj`: the first matching entry, table by table. -/
def getUrcObj (urcTable : List (List (AtUrc φ))) (buffer : Bytes) : Option (AtUrc φ) :=
  urcTable.flatten.find? fun urc => urc.Matches buffer

/-- The loop of `at_recv_readline`: `buf` has been stored, `lastCh` came before, and
`isFull` says that bytes have been dropped. The result is the line, or nothing when it
did not fit, and the bytes behind it. -/
def readlineLoop (client : AtClient) (urcTable : List (List (AtUrc φ))) :
    Bytes → Bytes → UInt8 → Bool → Option (Option Bytes × Bytes)
  | [], _, _, _ => none
  | ch :: input, buf, lastCh, isFull =>
    let fits := buf.length < client.recvBufsz
    let buf := if fits then buf ++ [ch] else buf
    let isFull := if fits then isFull else true
    if ch = 10 ∧ lastCh = 13 ∨ client.endSign ≠ 0 ∧ ch = client.endSign
        ∨ (getUrcObj urcTable buf).isSome then
      some (if isFull then none else some buf, input)
    else readlineLoop client urcTable input buf ch isFull

/-- `at_recv_readline`. -/
def atRecvReadline (client : AtClient) (urcTable : List (List (AtUrc φ))) (input : Bytes) :
    Option (Option Bytes × Bytes) :=
  readlineLoop client urcTable input [] 0 false

/-- `at_client_obj_recv` when every byte arrives in time: exactly `size` bytes. -/
def atClientObjRecv (input : Bytes) (size : Nat) : Option (Bytes × Bytes) :=
  if size ≤ input.length then some (input.take size, input.drop size) else none

/-- One round of the loop of `client_parser`. `exec` runs a URC function on its line and
the bytes behind it. -/
def clientParser (urcTable : List (List (AtUrc φ)))
    (exec : φ → Bytes → Bytes → Option (List ε × Bytes)) (client : AtClient)
    (input : Bytes) : Option (AtClient × List (ClientEffect φ ε) × Bytes) := do
  let (line, rest) ← atRecvReadline client urcTable input
  match line with
  | none => pure (client, [], rest)
  | some line =>
    match getUrcObj urcTable line with
    | some urc =>
      match urc.func with
      | some func =>
        let (effects, rest) ← exec func line rest
        pure (client, .urc func :: effects.map .did, rest)
      | none => pure (client, [], rest)
    | none =>
      match client.resp with
      | some resp =>
        let (resp, status, complete) := resp.addLine client.respStatus line
        let client := { client with
          resp := if complete then none else some resp
          respStatus := status }
        pure (client, [.respLine line], rest)
      | none => pure (client, [], rest)

/-- `n` rounds: the client, what they did, and the bytes still to come. -/
def clientRounds (urcTable : List (List (AtUrc φ)))
    (exec : φ → Bytes → Bytes → Option (List ε × Bytes)) :
    Nat → AtClient → Bytes → Option (AtClient × List (ClientEffect φ ε) × Bytes)
  | 0, client, input => some (client, [], input)
  | n + 1, client, input => do
    let (client, effects, input) ← clientParser urcTable exec client input
    let (client, effects', input) ← clientRounds urcTable exec n client input
    pure (client, effects ++ effects', input)

/-! ### The line reader -/

/-- Every suffix of the table ends in `\r\n`. -/
def CrlfTable (urcTable : List (List (AtUrc φ))) : Prop :=
  ∀ urc ∈ urcTable.flatten, [13, 10] <:+ urc.cmdSuffix

/-- The input up to the first `\r\n` or end sign, and what is behind it. -/
def splitLine (endSign : UInt8) : Bytes → UInt8 → Option (Bytes × Bytes)
  | [], _ => none
  | ch :: input, lastCh =>
    if ch = 10 ∧ lastCh = 13 ∨ endSign ≠ 0 ∧ ch = endSign then some ([ch], input)
    else (splitLine endSign input ch).map fun (line, rest) => (ch :: line, rest)

/-- A line that ends in `\r\n`, by its last two bytes. -/
theorem crlf_suffix_append_singleton (buf : Bytes) (ch : UInt8) :
    [13, 10] <:+ buf ++ [ch] ↔ ch = 10 ∧ buf.getLast? = some 13 := by
  constructor
  · rintro ⟨pre, h⟩
    have hsplit : (pre ++ [13]) ++ [10] = buf ++ [ch] := by simpa using h
    obtain ⟨rfl, hch⟩ := List.append_inj' hsplit rfl
    simp only [List.cons.injEq, and_true] at hch
    simp [hch]
  · rintro ⟨rfl, hlast⟩
    obtain ⟨pre, rfl⟩ := List.getLast?_eq_some_iff.mp hlast
    exact ⟨pre, by simp⟩

/-- What matches an entry of the table ends in `\r\n`. -/
theorem crlf_suffix_of_getUrcObj {urcTable : List (List (AtUrc φ))} (ht : CrlfTable urcTable)
    {buf : Bytes} {urc : AtUrc φ} (h : getUrcObj urcTable buf = some urc) :
    [13, 10] <:+ buf := by
  have hmatch : urc.Matches buf := by simpa using List.find?_some h
  exact (ht urc (List.mem_of_find?_eq_some h)).trans hmatch.2.2

/-- The loop of the line reader under a table of `\r\n` suffixes. The bytes stored so far
do not end in `\r\n`, and unless bytes were dropped, the last one of them is `lastCh`. -/
theorem readlineLoop_eq (client : AtClient) {urcTable : List (List (AtUrc φ))}
    (ht : CrlfTable urcTable) (input buf : Bytes) (lastCh : UInt8) (isFull : Bool)
    (hbuf : ¬ [13, 10] <:+ buf) (hlast : isFull = false → lastCh = buf.getLast?.getD 0)
    (hfull : isFull = true → client.recvBufsz ≤ buf.length) :
    readlineLoop client urcTable input buf lastCh isFull
      = (splitLine client.endSign input lastCh).map fun (line, rest) =>
          (if isFull = false ∧ buf.length + line.length ≤ client.recvBufsz
            then some (buf ++ line) else none, rest) := by
  induction input generalizing buf lastCh isFull with
  | nil => rfl
  | cons ch input ih =>
      rw [readlineLoop, splitLine]
      by_cases hfits : buf.length < client.recvBufsz
      · have hnot : isFull = false := by
          cases isFull with
          | false => rfl
          | true => exact absurd (hfull rfl) (by omega)
        subst hnot
        -- The byte is stored, so a match ends in `\r\n` and the newline test holds too.
        have hurc : (getUrcObj urcTable (buf ++ [ch])).isSome → ch = 10 ∧ lastCh = 13 := by
          intro h
          obtain ⟨urc, hurc⟩ := Option.isSome_iff_exists.mp h
          have hend := (crlf_suffix_append_singleton buf ch).mp
            (crlf_suffix_of_getUrcObj ht hurc)
          refine ⟨hend.1, ?_⟩
          rw [hlast rfl, hend.2]
          rfl
        have hcond : (ch = 10 ∧ lastCh = 13 ∨ client.endSign ≠ 0 ∧ ch = client.endSign
            ∨ (getUrcObj urcTable (buf ++ [ch])).isSome)
            ↔ (ch = 10 ∧ lastCh = 13 ∨ client.endSign ≠ 0 ∧ ch = client.endSign) := by
          rw [← or_assoc]
          exact or_iff_left_of_imp fun h => Or.inl (hurc h)
        simp only [hfits, if_true]
        rw [if_congr hcond rfl rfl]
        by_cases hstop : ch = 10 ∧ lastCh = 13 ∨ client.endSign ≠ 0 ∧ ch = client.endSign
        · rw [if_pos hstop, if_pos hstop]
          simp only [Option.map_some, List.length_singleton, true_and, Bool.false_eq_true,
            if_false]
          rw [if_pos (by omega)]
        · rw [if_neg hstop, if_neg hstop, ih]
          · rw [Option.map_map]
            congr 1
            funext r
            simp only [Function.comp_apply, true_and, List.length_append, List.length_cons,
              List.length_nil, List.append_assoc, List.singleton_append]
            rw [show buf.length + (0 + 1) + r.1.length = buf.length + (r.1.length + 1) from by
              omega]
          · rw [crlf_suffix_append_singleton]
            rintro ⟨rfl, hsome⟩
            refine hstop (Or.inl ⟨rfl, ?_⟩)
            rw [hlast rfl, hsome]
            rfl
          · simp
          · simp
      · -- The byte is dropped, and the stored bytes match as little as before.
        have hurc : ¬ (getUrcObj urcTable buf).isSome := by
          intro h
          obtain ⟨urc, hurc⟩ := Option.isSome_iff_exists.mp h
          exact hbuf (crlf_suffix_of_getUrcObj ht hurc)
        simp only [hfits, if_false]
        rw [if_congr (or_congr_right (or_iff_left hurc)) rfl rfl]
        by_cases hstop : ch = 10 ∧ lastCh = 13 ∨ client.endSign ≠ 0 ∧ ch = client.endSign
        · rw [if_pos hstop, if_pos hstop]
          simp only [Option.map_some, List.length_singleton, if_true]
          rw [if_neg (by omega)]
        · rw [if_neg hstop, if_neg hstop, ih _ _ _ hbuf (by simp) (by intro; omega)]
          rw [Option.map_map]
          congr 1
          funext r
          simp only [Function.comp_apply, List.length_cons, Bool.true_eq_false, false_and,
            if_false]
          rw [if_neg (by omega)]

/-- **The line reader** stops at the first `\r\n` or end sign, and the line counts when it
fits into the buffer. -/
theorem atRecvReadline_eq (client : AtClient) {urcTable : List (List (AtUrc φ))}
    (ht : CrlfTable urcTable) (input : Bytes) :
    atRecvReadline client urcTable input
      = (splitLine client.endSign input 0).map fun (line, rest) =>
          (if line.length ≤ client.recvBufsz then some line else none, rest) := by
  rw [atRecvReadline, readlineLoop_eq client ht input [] 0 false (by simp) (by simp) (by simp)]
  simp

/-- A line is not empty, and with the rest it makes up the input. -/
theorem splitLine_append {endSign : UInt8} {input : Bytes} {lastCh : UInt8}
    {line rest : Bytes} (h : splitLine endSign input lastCh = some (line, rest)) :
    line ≠ [] ∧ line ++ rest = input := by
  induction input generalizing lastCh line with
  | nil => cases h
  | cons ch input ih =>
      rw [splitLine] at h
      split at h
      · cases h
        simp
      · obtain ⟨⟨line', rest'⟩, hr, heq⟩ := Option.map_eq_some_iff.mp h
        cases heq
        simp [(ih hr).2]

/-- The line reader passes a text without `\r\n` and end sign. -/
theorem splitLine_skip {endSign : UInt8} (pre : Bytes) {lastCh : UInt8}
    (hcrlf : ¬ [13, 10] <:+: lastCh :: pre) (hsign : endSign = 0 ∨ endSign ∉ pre)
    (input : Bytes) :
    splitLine endSign (pre ++ input) lastCh
      = (splitLine endSign input (pre.getLast?.getD lastCh)).map
          fun (line, rest) => (pre ++ line, rest) := by
  induction pre generalizing lastCh with
  | nil => simp
  | cons ch pre ih =>
      have hnl : ¬ (ch = 10 ∧ lastCh = 13) := by
        rintro ⟨rfl, rfl⟩
        exact hcrlf ⟨[], pre, rfl⟩
      have hch : ¬ (endSign ≠ 0 ∧ ch = endSign) := by
        rintro ⟨hne, rfl⟩
        exact hsign.elim hne fun hnot => hnot (by simp)
      have hlast : (ch :: pre).getLast?.getD lastCh = pre.getLast?.getD ch := by
        cases pre with
        | nil => rfl
        | cons b pre =>
            rw [List.getLast?_cons_cons]
            simp [List.getLast?_eq_some_getLast]
      rw [List.cons_append, splitLine, if_neg (not_or.mpr ⟨hnl, hch⟩), hlast, ih, Option.map_map]
      · rfl
      · exact fun h => hcrlf (List.infix_cons h)
      · exact hsign.imp id fun h hm => h (by simp [hm])

/-- The line reader stops at `\r\n`. -/
theorem splitLine_crlf {endSign : UInt8} (hsign : endSign ≠ 13) (input : Bytes)
    (lastCh : UInt8) :
    splitLine endSign (13 :: 10 :: input) lastCh = some ([13, 10], input) := by
  have h13 : ¬ ((13 : UInt8) = 10 ∧ lastCh = 13 ∨ endSign ≠ 0 ∧ 13 = endSign) := by
    rintro (⟨h, -⟩ | ⟨-, h⟩)
    · exact absurd h (by decide)
    · exact hsign h.symm
  rw [splitLine, if_neg h13, splitLine, if_pos (Or.inl ⟨rfl, rfl⟩)]
  rfl

/-- The line reader stops at the end sign. -/
theorem splitLine_endSign {endSign : UInt8} (hsign : endSign ≠ 0) (input : Bytes)
    (lastCh : UInt8) :
    splitLine endSign (endSign :: input) lastCh = some ([endSign], input) := by
  rw [splitLine, if_pos (Or.inr ⟨hsign, rfl⟩)]

/-! ### Rounds -/

/-- The bytes an effect accounts for, when `w` accounts for what URC functions do. -/
def ClientEffect.weight (w : ε → Nat) : ClientEffect φ ε → Nat
  | .did e => w e
  | _ => 0

/-- The bytes all effects account for. -/
def totalWeight (w : ε → Nat) (effects : List (ClientEffect φ ε)) : Nat :=
  (effects.map (ClientEffect.weight w)).sum

theorem totalWeight_append (w : ε → Nat) (es es' : List (ClientEffect φ ε)) :
    totalWeight w (es ++ es') = totalWeight w es + totalWeight w es' := by
  simp [totalWeight]

variable {urcTable : List (List (AtUrc φ))}
  {exec : φ → Bytes → Bytes → Option (List ε × Bytes)} {w : ε → Nat}

/-- **What one round does with its line**: it calls the function of the first matching
entry, or it drops the line or hands it to the response and leaves the rest alone. -/
theorem clientParser_cases (ht : CrlfTable urcTable) {client client' : AtClient}
    {input rest : Bytes} {effects : List (ClientEffect φ ε)}
    (h : clientParser urcTable exec client input = some (client', effects, rest)) :
    ∃ line behind, splitLine client.endSign input 0 = some (line, behind)
      ∧ ((∃ urc func did, line.length ≤ client.recvBufsz
            ∧ getUrcObj urcTable line = some urc ∧ urc.func = some func
            ∧ exec func line behind = some (did, rest)
            ∧ effects = .urc func :: did.map .did)
        ∨ ((effects = [] ∨ effects = [.respLine line]) ∧ rest = behind)) := by
  rw [clientParser, atRecvReadline_eq client ht] at h
  cases hline : splitLine client.endSign input 0 with
  | none => simp [hline] at h
  | some r =>
      obtain ⟨line, behind⟩ := r
      refine ⟨line, behind, rfl, ?_⟩
      simp only [hline, Option.map_some, Option.bind_eq_bind, Option.bind_some] at h
      by_cases hfits : line.length ≤ client.recvBufsz
      · simp only [hfits, if_true] at h
        cases hurc : getUrcObj urcTable line with
        | some urc =>
            cases hfunc : urc.func with
            | some func =>
                simp only [hurc, hfunc] at h
                obtain ⟨⟨did, rest'⟩, hrun, heq⟩ := Option.bind_eq_some_iff.mp h
                cases heq
                exact Or.inl ⟨urc, func, did, hfits, rfl, hfunc, hrun, rfl⟩
            | none =>
                simp only [hurc, hfunc] at h
                cases h
                exact Or.inr ⟨Or.inl rfl, rfl⟩
        | none =>
            cases hresp : client.resp with
            | some resp =>
                simp only [hurc, hresp] at h
                cases h
                exact Or.inr ⟨Or.inr rfl, rfl⟩
            | none =>
                simp only [hurc, hresp] at h
                cases h
                exact Or.inr ⟨Or.inl rfl, rfl⟩
      · simp only [hfits, if_false] at h
        cases h
        exact Or.inr ⟨Or.inl rfl, rfl⟩

/-- A round that calls a function, the other way round. -/
theorem clientParser_of_urc (ht : CrlfTable urcTable) {client : AtClient}
    {input line behind rest : Bytes} {urc : AtUrc φ} {func : φ} {did : List ε}
    (hline : splitLine client.endSign input 0 = some (line, behind))
    (hfits : line.length ≤ client.recvBufsz) (hurc : getUrcObj urcTable line = some urc)
    (hfunc : urc.func = some func) (hrun : exec func line behind = some (did, rest)) :
    clientParser urcTable exec client input
      = some (client, .urc func :: did.map .did, rest) := by
  rw [clientParser, atRecvReadline_eq client ht, hline]
  simp [hfits, hurc, hfunc, hrun]

/-- A round takes at least the bytes that its effects account for, if every URC function
does so with its line and the bytes it reads. -/
theorem clientParser_consumes (ht : CrlfTable urcTable)
    (hexec : ∀ func line rest effects rest', exec func line rest = some (effects, rest') →
      rest'.length + (effects.map w).sum ≤ rest.length + line.length)
    {client client' : AtClient} {input rest : Bytes} {effects : List (ClientEffect φ ε)}
    (h : clientParser urcTable exec client input = some (client', effects, rest)) :
    rest.length + totalWeight w effects ≤ input.length := by
  obtain ⟨line, behind, hline, hcases⟩ := clientParser_cases ht h
  have hlen : line.length + behind.length = input.length := by
    rw [← List.length_append, (splitLine_append hline).2]
  rcases hcases with ⟨urc, func, did, -, -, -, hrun, rfl⟩ | ⟨rfl | rfl, rfl⟩
  · have hsum : totalWeight w ((.urc func : ClientEffect φ ε) :: did.map .did)
        = (did.map w).sum := by
      simp [totalWeight, ClientEffect.weight, Function.comp_def]
    have hle := hexec _ _ _ _ _ hrun
    omega
  · simp only [totalWeight, List.map_nil, List.sum_nil]
    omega
  · simp only [totalWeight, ClientEffect.weight, List.map_cons, List.map_nil, List.sum_cons,
      List.sum_nil]
    omega

/-- **Any number of rounds** takes at least the bytes that its effects account for. -/
theorem clientRounds_consumes (ht : CrlfTable urcTable)
    (hexec : ∀ func line rest effects rest', exec func line rest = some (effects, rest') →
      rest'.length + (effects.map w).sum ≤ rest.length + line.length)
    {n : Nat} {client client' : AtClient} {input rest : Bytes}
    {effects : List (ClientEffect φ ε)}
    (h : clientRounds urcTable exec n client input = some (client', effects, rest)) :
    rest.length + totalWeight w effects ≤ input.length := by
  induction n generalizing client input effects with
  | zero =>
      cases h
      simp [totalWeight]
  | succ n ih =>
      obtain ⟨⟨client₁, effects₁, input₁⟩, hround, hrest⟩ := Option.bind_eq_some_iff.mp h
      obtain ⟨⟨client₂, effects₂, input₂⟩, hrounds, heq⟩ := Option.bind_eq_some_iff.mp hrest
      cases heq
      have h₁ := clientParser_consumes ht hexec hround
      have h₂ := ih hrounds
      rw [totalWeight_append]
      omega

end CarLocator.At
