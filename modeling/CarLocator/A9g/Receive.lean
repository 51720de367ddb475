import CarLocator.A9g.Urc

/-!
# `CarLocator.A9g.Receive`: a socket payload on its way to the receive callback

The modem sends a payload as `+CIPRCV,socket,length:`, the bytes, and `\r\n`. Part of the
bytes are read by the line reader of the AT client, which stops at the first `\r\n` or end
sign, and the rest by `urc_recv_func`, which takes the line to end in two bytes that do not
belong to the payload.

`delivered_iff` states when a payload arrives whole, with one callback and nothing else
(`Delivered`): exactly when `ReceivesWhole` holds. The payload is cut at its first `\r\n`:
`beforeCrlf` is read with the line, and the two bytes behind it are lost, so that the rest
has to be a repetition of `\r\n` for the loss to go unnoticed.

The proof in the harder direction counts bytes. A callback accounts for three bytes more
than its data (`execUrc_consumes`). So once the first line is read without a callback, no
later round can make up for it within the message (`clientRounds_consumes`).
-/

set_option autoImplicit false

namespace CarLocator.A9g

open CarLocator.At
open CarLocator.Library

/-! ### Messages -/

/-- `\r\n`. -/
def crlf : Bytes := [13, 10]

/-- `+CIPRCV,socket,length`. -/
def ciprcvHead (socket n : Nat) : Bytes :=
  ascii "+CIPRCV," ++ (decimal socket ++ 44 :: decimal n)

/-- `+CIPRCV,socket,length:`. -/
def ciprcvHeader (socket n : Nat) : Bytes := ciprcvHead socket n ++ [58]

/-- The message that carries a payload. -/
def ciprcv (socket : Nat) (p : Bytes) : Bytes := ciprcvHeader socket p.length ++ (p ++ crlf)

/-- The payload up to its first `\r\n`. -/
def beforeCrlf : Bytes → Bytes
  | [] => []
  | b :: p => if crlf <+: b :: p then [] else b :: beforeCrlf p

/-- The memory and the receive callback are there. -/
structure Env.Working (env : Env) : Prop where
  calloc : ∀ n, env.calloc n = true
  evtRecv : env.evtRecv = true

/-- After some rounds, the receive function has run once, with one callback for the socket
and the payload, nothing else has happened, and the reader is behind the message. -/
def Delivered (env : Env) (client : AtClient) (socket : Nat) (p rest : Bytes) : Prop :=
  ∃ n client', clientRounds urcTable (execUrc env) n client (ciprcv socket p ++ rest)
    = some (client', [.urc .urcRecvFunc, .did (.recv socket p)], rest)

/-- The URC endings that win over `+CIPRCV`. -/
def earlierEndings : List Bytes :=
  [ascii "CONNECT OK", ascii ",CONNECT FAIL", ascii ",SEND FAIL"]

/-- The payloads that arrive whole. -/
structure ReceivesWhole (client : AtClient) (socket : Nat) (p : Bytes) : Prop where
  -- behind its first `\r\n` there are only further ones
  crlfs : ∃ m, p = beforeCrlf p ++ (List.replicate m crlf).flatten
  fits : (ciprcvHeader socket p.length).length + (beforeCrlf p).length + 2
    ≤ client.recvBufsz
  endSign : client.endSign = 0 ∨ client.endSign ∉ beforeCrlf p
  ending : ∀ t ∈ earlierEndings, ¬ t <:+ beforeCrlf p
  length : p.length < 2 ^ 31

/-! ### Cutting at `\r\n` -/

/-- No `\r\n` in front of the first one. -/
theorem crlf_not_infix_beforeCrlf (p : Bytes) : ¬ crlf <:+: beforeCrlf p := by
  induction p with
  | nil => simp [beforeCrlf, crlf]
  | cons b p ih =>
      rw [beforeCrlf]
      split
      · simp [crlf]
      · rename_i hpre
        rw [List.infix_cons_iff]
        rintro (h | h)
        · -- The two bytes would start the payload as well.
          apply hpre
          obtain ⟨rfl, h10⟩ := List.cons_prefix_cons.mp h
          refine List.cons_prefix_cons.mpr ⟨rfl, ?_⟩
          cases p with
          | nil => simp [beforeCrlf] at h10
          | cons c p =>
              rw [beforeCrlf] at h10
              split at h10
              · simp at h10
              · obtain ⟨rfl, -⟩ := List.cons_prefix_cons.mp h10
                simp
        · exact ih h

/-- The payload from its first `\r\n` on. -/
theorem beforeCrlf_append (p : Bytes) :
    ∃ r, p = beforeCrlf p ++ r ∧ (r = [] ∨ crlf <+: r) := by
  induction p with
  | nil => exact ⟨[], rfl, Or.inl rfl⟩
  | cons b p ih =>
      rw [beforeCrlf]
      split
      · rename_i hpre
        exact ⟨b :: p, rfl, Or.inr hpre⟩
      · obtain ⟨r, hr, hcases⟩ := ih
        refine ⟨r, ?_, hcases⟩
        rw [List.cons_append, ← hr]

/-- The message goes on with a `\r\n` behind the cut. -/
theorem crlf_behind {r : Bytes} (hr : r = [] ∨ crlf <+: r) (rest : Bytes) :
    ∃ y, r ++ (crlf ++ rest) = crlf ++ y := by
  rcases hr with rfl | ⟨r', rfl⟩
  · exact ⟨rest, rfl⟩
  · exact ⟨r' ++ (crlf ++ rest), by rw [List.append_assoc]⟩

/-- What commutes with `\r\n` is a repetition of it. -/
theorem eq_replicate_of_crlf_comm (r : Bytes) (h : r ++ crlf = crlf ++ r) :
    ∃ m, r = (List.replicate m crlf).flatten := by
  match r, h with
  | [], _ => exact ⟨0, rfl⟩
  | [a], h =>
      simp [crlf] at h
  | a :: b :: r, h =>
      obtain ⟨ha, hb, hr⟩ : a = 13 ∧ b = 10 ∧ r ++ [13, 10] = a :: b :: r := by
        simpa [crlf] using h
      subst ha hb
      obtain ⟨m, hm⟩ := eq_replicate_of_crlf_comm r hr
      refine ⟨m + 1, ?_⟩
      rw [List.replicate_succ, List.flatten_cons, ← hm]
      rfl

/-- A repetition of `\r\n` commutes with it. -/
theorem replicate_crlf_comm (m : Nat) (rest : Bytes) :
    (List.replicate m crlf).flatten ++ (crlf ++ rest)
      = crlf ++ ((List.replicate m crlf).flatten ++ rest) := by
  induction m with
  | zero => rfl
  | succ m ih =>
      rw [List.replicate_succ, List.flatten_cons, List.append_assoc, ih, List.append_assoc]

/-! ### The header -/

/-- The bytes in front of the colon. -/
theorem ciprcvHead_bytes (socket n : Nat) {b : UInt8} (hb : b ∈ ciprcvHead socket n) :
    b ∉ [0, 10, 13, 58, 62] := by
  have hdigit : ∀ {c : UInt8}, isDigit c = true → c ∉ [0, 10, 13, 58, 62] := by
    intro c hc hmem
    have hall : ∀ d ∈ [(0 : UInt8), 10, 13, 58, 62], isDigit d = false := by decide
    rw [hall c hmem] at hc
    cases hc
  simp only [ciprcvHead, List.mem_append, List.mem_cons] at hb
  rcases hb with hb | hb | rfl | hb
  · have hall : ∀ d ∈ ascii "+CIPRCV,", d ∉ [(0 : UInt8), 10, 13, 58, 62] := by decide
    exact hall b hb
  · exact hdigit (isDigit_of_mem_decimal hb)
  · decide
  · exact hdigit (isDigit_of_mem_decimal hb)

/-- No NUL in the header. -/
theorem zero_notMem_ciprcvHeader (socket n : Nat) : (0 : UInt8) ∉ ciprcvHeader socket n := by
  intro h
  rcases List.mem_append.mp h with h | h
  · exact ciprcvHead_bytes socket n h (by decide)
  · exact absurd h (by decide)

/-- The header is parsed, if the length is an `int`. -/
theorem scanCiprcv_header (socket n : Nat) (hs : socket < socketsNum) (x : Bytes) :
    scanCiprcv (ciprcvHeader socket n ++ x)
      = if n < 2 ^ 31 then some ((socket : Int), n) else none := by
  have hcomma : ∀ (y : Bytes), ∀ b ∈ (44 :: y).head?, isDigit b = false := by
    intro y b hb
    cases hb
    decide
  have hcolon : ∀ (y : Bytes), ∀ b ∈ (58 :: y).head?, isDigit b = false := by
    intro y b hb
    cases hb
    decide
  have hsocket : socket < 2 ^ 31 := by
    unfold socketsNum at hs
    omega
  have htext : ciprcvHeader socket n ++ cString x
      = ascii "+CIPRCV," ++ (decimal socket ++ 44 :: (decimal n ++ 58 :: cString x)) := by
    simp [ciprcvHeader, ciprcvHead]
  rw [scanCiprcv, cString_append (zero_notMem_ciprcvHeader socket n), htext, ciprcvFormat,
    scan_lits, scan_int_decimal socket (hcomma _), if_pos hsocket, scan_lit,
    scan_int_decimal n (hcolon _), scan_lit]
  by_cases hn : n < 2 ^ 31
  · have hval : (BitVec.ofInt 32 (n : Int)).toNat = n := by
      rw [BitVec.toNat_ofInt]
      omega
    rw [if_pos hn, if_pos hn]
    show some ((socket : Int), (BitVec.ofInt 32 (n : Int)).toNat) = _
    rw [hval]
  · rw [if_neg hn, if_neg hn]
    rfl

/-- The colon of the header is the one that is found. -/
theorem strstr_colon (socket n : Nat) (x : Bytes) :
    strstr (ascii ":") (ciprcvHeader socket n ++ x) = some (58 :: x) := by
  have h0 : (0 : UInt8) ∉ ciprcvHead socket n := fun h =>
    ciprcvHead_bytes socket n h (by decide)
  have hc : (58 : UInt8) ∉ ciprcvHead socket n := fun h =>
    ciprcvHead_bytes socket n h (by decide)
  rw [ciprcvHeader, List.append_assoc]
  exact strstr_singleton h0 hc x

/-! ### The first line -/

/-- There is no `\r\n` in the header and the payload up to the cut. -/
theorem crlf_not_infix_header (socket n : Nat) {a : Bytes} (ha : ¬ crlf <:+: a) :
    ¬ [13, 10] <:+: 0 :: (ciprcvHeader socket n ++ a) := by
  intro h
  have hsplit : 0 :: (ciprcvHeader socket n ++ a) = (0 :: ciprcvHead socket n) ++ 58 :: a := by
    simp [ciprcvHeader]
  rw [hsplit] at h
  rcases infix_append_cons (by decide) h with h | h
  · have h10 : (10 : UInt8) ∈ 0 :: ciprcvHead socket n := h.subset (by simp)
    rcases List.mem_cons.mp h10 with h0 | h10
    · exact absurd h0 (by decide)
    · exact ciprcvHead_bytes socket n h10 (by decide)
  · exact ha h

/-- The end sign is not in the header. -/
theorem endSign_header {e : UInt8} (he : e = 0 ∨ e = 62) (socket n : Nat) {a : Bytes}
    (ha : e = 0 ∨ e ∉ a) : e = 0 ∨ e ∉ ciprcvHeader socket n ++ a := by
  rcases he with rfl | rfl
  · exact Or.inl rfl
  · refine Or.inr fun h => ?_
    simp only [ciprcvHeader, List.append_assoc, List.mem_append, List.mem_singleton] at h
    rcases h with h | h | h
    · exact ciprcvHead_bytes socket n h (by decide)
    · exact absurd h (by decide)
    · exact ha.elim (by decide) fun hnot => hnot h

/-- Without an end sign in front of it, the line ends at the first `\r\n`. -/
theorem splitLine_ciprcv_crlf {e : UInt8} (he : e = 0 ∨ e = 62) (socket n : Nat) {a : Bytes}
    (ha : ¬ crlf <:+: a) (hsign : e = 0 ∨ e ∉ a) (y : Bytes) :
    splitLine e (ciprcvHeader socket n ++ (a ++ (crlf ++ y))) 0
      = some (ciprcvHeader socket n ++ (a ++ crlf), y) := by
  have h13 : e ≠ 13 := by rcases he with rfl | rfl <;> decide
  rw [← List.append_assoc, splitLine_skip _ (crlf_not_infix_header socket n ha)
    (endSign_header he socket n hsign)]
  show Option.map _ (splitLine e (13 :: 10 :: y) _) = _
  rw [splitLine_crlf h13, Option.map_some, ← List.append_assoc]
  rfl

/-- With an end sign in front of it, the line ends there. -/
theorem splitLine_ciprcv_endSign {e : UInt8} (he : e = 62) (socket n : Nat) {a : Bytes}
    (ha : ¬ crlf <:+: a) (hsign : e ∉ a) (z : Bytes) :
    splitLine e (ciprcvHeader socket n ++ (a ++ e :: z)) 0
      = some (ciprcvHeader socket n ++ (a ++ [e]), z) := by
  have h0 : e ≠ 0 := by rw [he]; decide
  rw [← List.append_assoc, splitLine_skip _ (crlf_not_infix_header socket n ha)
    (endSign_header (Or.inr he) socket n (Or.inr hsign)), splitLine_endSign h0,
    Option.map_some, ← List.append_assoc]

/-! ### Which function gets the line -/

/-- An entry without a prefix matches the line exactly when the payload part ends as the
entry says. -/
theorem matches_suffix_iff (socket n : Nat) (q t : Bytes) (ht : (58 : UInt8) ∉ t)
    (func : Option UrcFunc) :
    (AtUrc.mk [] (t ++ crlf) func).Matches (ciprcvHeader socket n ++ (q ++ crlf))
      ↔ t <:+ q := by
  constructor
  · rintro ⟨-, -, pre, h⟩
    rw [← List.append_assoc, ← List.append_assoc] at h
    have hpre : pre ++ t = ciprcvHead socket n ++ 58 :: q := by
      have := List.append_cancel_right h
      rw [this, ciprcvHeader, List.append_assoc]
      rfl
    exact suffix_of_suffix_append_cons ht ⟨pre, hpre⟩
  · rintro ⟨pre, rfl⟩
    refine ⟨?_, List.nil_prefix, ⟨ciprcvHeader socket n ++ pre, by simp⟩⟩
    simp only [List.length_append, List.length_nil]
    omega

/-- **The receive function gets the line** unless the payload part ends as an earlier entry
of the table. -/
theorem getUrcObj_ciprcv (socket n : Nat) (q : Bytes) :
    (∃ urc, getUrcObj urcTable (ciprcvHeader socket n ++ (q ++ crlf)) = some urc
      ∧ urc.func = some .urcRecvFunc) ↔ ∀ t ∈ earlierEndings, ¬ t <:+ q := by
  have hplus : ∀ (b : UInt8) (pre : Bytes) suf func, b ≠ 43 →
      ¬ (AtUrc.mk (b :: pre) suf func : AtUrc UrcFunc).Matches
        (ciprcvHeader socket n ++ (q ++ crlf)) := by
    rintro b pre suf func hb ⟨-, hpre, -⟩
    have hhead : ciprcvHeader socket n ++ (q ++ crlf)
        = 43 :: (ciprcvHeader socket n ++ (q ++ crlf)).tail := rfl
    rw [hhead] at hpre
    exact hb (List.cons_prefix_cons.mp hpre).1
  have hready := hplus 82 (ascii "EADY") (ascii "\r\n") (some .urcFunc) (by decide)
  have hclosed := hplus 67 (ascii "LOSED:") (ascii "\r\n") (some .urcCloseFunc) (by decide)
  have hrecv : (AtUrc.mk (ascii "+CIPRCV,") (ascii "\r\n") (some UrcFunc.urcRecvFunc)).Matches
      (ciprcvHeader socket n ++ (q ++ crlf)) := by
    refine ⟨?_, ?_, ?_⟩
    · simp [ciprcvHeader, ciprcvHead, ascii, crlf]
      omega
    · simp [ciprcvHeader, ciprcvHead]
    · exact ⟨ciprcvHeader socket n ++ q, List.append_assoc _ _ _⟩
  have hok := matches_suffix_iff socket n q (ascii "CONNECT OK") (by decide)
    (some .urcConnectFunc)
  have hfail := matches_suffix_iff socket n q (ascii ",CONNECT FAIL") (by decide)
    (some .urcConnectFunc)
  have hsend := matches_suffix_iff socket n q (ascii ",SEND FAIL") (by decide)
    (some .urcSendFunc)
  have htable : urcTable.flatten = [
      ⟨82 :: ascii "EADY", ascii "\r\n", some .urcFunc⟩,
      ⟨[], ascii "CONNECT OK" ++ crlf, some .urcConnectFunc⟩,
      ⟨[], ascii ",CONNECT FAIL" ++ crlf, some .urcConnectFunc⟩,
      ⟨[], ascii ",SEND FAIL" ++ crlf, some .urcSendFunc⟩,
      ⟨67 :: ascii "LOSED:", ascii "\r\n", some .urcCloseFunc⟩,
      ⟨ascii "+CIPRCV,", ascii "\r\n", some .urcRecvFunc⟩] := by decide
  simp only [earlierEndings, List.mem_cons, List.not_mem_nil, or_false, forall_eq_or_imp,
    forall_eq, ← hok, ← hfail, ← hsend]
  rw [getUrcObj, htable]
  simp only [List.find?_cons, hready, hclosed, hrecv, decide_true, decide_false]
  split
  · rename_i h
    simp [of_decide_eq_true h]
  · rename_i h
    have hnot := of_decide_eq_false h
    split
    · rename_i h
      simp [of_decide_eq_true h]
    · rename_i h
      have hnot' := of_decide_eq_false h
      split
      · rename_i h
        simp [of_decide_eq_true h]
      · rename_i h
        simp [hnot, hnot', of_decide_eq_false h]

/-! ### What the receive function does -/

/-- `urc_recv_func` on the first line of the message: the part of the payload on the line,
and as many bytes as are missing. -/
theorem urcRecvFunc_ciprcv {env : Env} (henv : env.Working) {socket n : Nat}
    (hs : socket < socketsNum) (hn : 0 < n) {q : Bytes} (hq : q.length ≤ n) (y : Bytes) :
    urcRecvFunc env (ciprcvHeader socket n ++ (q ++ crlf)) y
      = if n < 2 ^ 31 then
          (atClientObjRecv y (n - q.length)).map fun (more, rest) =>
            ([.recv socket (q ++ more)], rest)
        else none := by
  rw [urcRecvFunc, scanCiprcv_header socket n hs]
  by_cases hlt : n < 2 ^ 31
  · have hcond : ¬ ((socket : Int) < 0 ∨ n = 0) := by omega
    have hindex : socketIndex (socket : Int) = some socket := by
      rw [socketIndex, if_pos (by omega)]
      rfl
    have hlen : (q ++ crlf).length = q.length + 2 := by simp [crlf]
    have htake : (q ++ crlf).take q.length = q := List.take_left
    rw [if_pos hlt, if_pos hlt, Option.bind_eq_bind, Option.bind_some]
    simp only [hcond, if_false, strstr_colon, Option.bind_eq_bind, Option.bind_some,
      List.drop_succ_cons, List.drop_zero, hlen, henv.calloc, Bool.true_eq_false]
    rw [if_neg (by omega), if_neg (by omega), Nat.add_sub_cancel]
    cases atClientObjRecv y (n - q.length) with
    | none => rfl
    | some r =>
        simp only [Option.bind_some, Option.map_some, hindex, htake, henv.evtRecv, if_true]
        rfl
  · rw [if_neg hlt, if_neg hlt]
    rfl

/-- The bytes a callback accounts for. -/
def SocketEffect.weight : SocketEffect → Nat
  | .recv _ data => data.length + 3
  | _ => 0

/-- The discard loop takes bytes away. -/
theorem drain_length {bfsz tempSize : Nat} {rest rest' : Bytes}
    (h : drain bfsz rest tempSize = some rest') : rest'.length ≤ rest.length := by
  induction hlen : rest.length using Nat.strong_induction_on generalizing rest tempSize with
  | _ n ih =>
      by_cases hlt : tempSize < bfsz
      · rw [drain_round hlt] at h
        obtain ⟨⟨piece, rest₁⟩, hrecv, h⟩ := Option.bind_eq_some_iff.mp h
        have hpos := drainRequest_pos hlt
        unfold atClientObjRecv at hrecv
        split at hrecv
        · cases hrecv
          have hle := ih _ (by rw [List.length_drop]; omega) h rfl
          rw [List.length_drop] at hle
          omega
        · cases hrecv
      · rw [drain_done hlt] at h
        cases h
        omega

/-- The receive function: the data is the payload on the line and the bytes read behind
it, and the line is longer than its payload by the colon and its two last bytes. -/
theorem urcRecvFunc_consumes {env : Env} {line rest rest' : Bytes}
    {effects : List SocketEffect}
    (h : urcRecvFunc env line rest = some (effects, rest')) :
    rest'.length + (effects.map SocketEffect.weight).sum ≤ rest.length + line.length := by
  obtain ⟨⟨s, n⟩, -, h⟩ := Option.bind_eq_some_iff.mp h
  simp only at h
  split at h
  · cases h
    simp
  · obtain ⟨colon, hcolon, h⟩ := Option.bind_eq_some_iff.mp h
    have hle : colon.length ≤ line.length := (strstr_eq_some hcolon).2.length_le
    split at h
    · cases h
    · rename_i htwo
      rw [List.length_drop] at htwo
      split at h
      · obtain ⟨rest₁, hdrain, h⟩ := Option.bind_eq_some_iff.mp h
        cases h
        have := drain_length hdrain
        simp
        omega
      · split at h
        · cases h
        · rename_i hfit
          obtain ⟨⟨more, rest₁⟩, hrecv, h⟩ := Option.bind_eq_some_iff.mp h
          obtain ⟨socket, -, h⟩ := Option.bind_eq_some_iff.mp h
          unfold atClientObjRecv at hrecv
          split at hrecv
          · rename_i hsize
            cases hrecv
            cases h
            rw [List.length_drop] at hfit hsize
            split
            · simp [SocketEffect.weight]
              omega
            · simp
              omega
          · cases hrecv

/-- **A receive callback accounts for three bytes more than its data**, the colon and the
end of the line; the other functions read no bytes. -/
theorem execUrc_consumes (env : Env) (func : UrcFunc) (line rest : Bytes)
    (effects : List SocketEffect) (rest' : Bytes)
    (h : execUrc env func line rest = some (effects, rest')) :
    rest'.length + (effects.map SocketEffect.weight).sum ≤ rest.length + line.length := by
  have hquiet : ∀ {o : Option (List SocketEffect)},
      (∀ es : List SocketEffect, o = some es → (es.map SocketEffect.weight).sum = 0) →
      o.map (·, rest) = some (effects, rest') →
      rest'.length + (effects.map SocketEffect.weight).sum ≤ rest.length + line.length := by
    intro o hzero ho
    obtain ⟨es, hes, heq⟩ := Option.map_eq_some_iff.mp ho
    have hsum := hzero es hes
    cases heq
    rw [hsum]
    omega
  cases func with
  | urcFunc =>
      cases h
      simp
  | urcConnectFunc =>
      refine hquiet (fun es hes => ?_) h
      obtain ⟨s, -, hes⟩ := Option.bind_eq_some_iff.mp hes
      split at hes
      · cases hes
        rfl
      · split at hes <;> cases hes <;> rfl
  | urcSendFunc =>
      refine hquiet (fun es hes => ?_) h
      obtain ⟨s, -, hes⟩ := Option.bind_eq_some_iff.mp hes
      split at hes
      · cases hes
        rfl
      · split at hes <;> cases hes <;> rfl
  | urcCloseFunc =>
      refine hquiet (fun es hes => ?_) h
      obtain ⟨s, -, hes⟩ := Option.bind_eq_some_iff.mp hes
      split at hes
      · cases hes
        rfl
      · split at hes
        · obtain ⟨i, -, hes⟩ := Option.bind_eq_some_iff.mp hes
          cases hes
          split <;> rfl
        · cases hes
          rfl
  | urcRecvFunc => exact urcRecvFunc_consumes h

/-! ### Delivery -/

/-- The message in its parts: header, payload up to the cut, `\r\n`, and what is behind
it. -/
theorem ciprcv_split (socket : Nat) (p rest : Bytes) :
    ∃ r y, p = beforeCrlf p ++ r ∧ r ++ (crlf ++ rest) = crlf ++ y
      ∧ ciprcv socket p ++ rest
        = ciprcvHeader socket p.length ++ (beforeCrlf p ++ (crlf ++ y)) := by
  obtain ⟨r, hr, hcases⟩ := beforeCrlf_append p
  obtain ⟨y, hy⟩ := crlf_behind hcases rest
  refine ⟨r, y, hr, hy, ?_⟩
  have hp : p ++ (crlf ++ rest) = beforeCrlf p ++ (r ++ (crlf ++ rest)) := by
    rw [← List.append_assoc (beforeCrlf p), ← hr]
  rw [ciprcv, List.append_assoc, List.append_assoc, hp, hy]

/-- The effects of a delivery. -/
def deliveryEffects (socket : Nat) (p : Bytes) : List (ClientEffect UrcFunc SocketEffect) :=
  [.urc .urcRecvFunc, .did (.recv socket p)]

/-- Once the header and a byte more are gone, the message is too short for a callback with
the whole payload. -/
theorem not_delivered_late (env : Env) {n : Nat} {client client' : AtClient} {socket : Nat}
    {p rest input : Bytes}
    (hlen : input.length + (ciprcvHeader socket p.length).length + 1
      ≤ (ciprcv socket p ++ rest).length) :
    clientRounds urcTable (execUrc env) n client input
      ≠ some (client', deliveryEffects socket p, rest) := by
  intro h
  have hle := clientRounds_consumes crlfTable_urcTable (execUrc_consumes env) h
  have hweight : totalWeight SocketEffect.weight (deliveryEffects socket p)
      = p.length + 3 := by
    simp [totalWeight, deliveryEffects, ClientEffect.weight, SocketEffect.weight]
  simp only [ciprcv, crlf, List.length_append, List.length_cons, List.length_nil] at hlen
  omega

/-- The message is delivered in one round. -/
theorem delivered_of_receivesWhole {env : Env} (henv : env.Working) {client : AtClient}
    (he : client.endSign = 0 ∨ client.endSign = 62) {socket : Nat}
    (hs : socket < socketsNum) {p : Bytes} (hp : p ≠ [])
    (h : ReceivesWhole client socket p) (rest : Bytes) : Delivered env client socket p rest := by
  obtain ⟨m, hm⟩ := h.crlfs
  have hlen : p.length
      = (beforeCrlf p).length + ((List.replicate m crlf).flatten).length := by
    rw [← List.length_append, ← hm]
  have hmsg : ciprcv socket p ++ rest = ciprcvHeader socket p.length
      ++ (beforeCrlf p ++ (crlf ++ ((List.replicate m crlf).flatten ++ rest))) := by
    have hcut : p ++ (crlf ++ rest)
        = beforeCrlf p ++ ((List.replicate m crlf).flatten ++ (crlf ++ rest)) := by
      rw [← List.append_assoc (beforeCrlf p), ← hm]
    rw [ciprcv, List.append_assoc, List.append_assoc, hcut, replicate_crlf_comm]
  have hline := splitLine_ciprcv_crlf he socket p.length (crlf_not_infix_beforeCrlf p)
    h.endSign ((List.replicate m crlf).flatten ++ rest)
  rw [← hmsg] at hline
  obtain ⟨urc, hurc, hfunc⟩ :=
    (getUrcObj_ciprcv socket p.length (beforeCrlf p)).mpr h.ending
  have hfits : (ciprcvHeader socket p.length ++ (beforeCrlf p ++ crlf)).length
      ≤ client.recvBufsz := by
    have := h.fits
    simp only [crlf, List.length_append, List.length_cons, List.length_nil]
    omega
  have hrun : execUrc env .urcRecvFunc
      (ciprcvHeader socket p.length ++ (beforeCrlf p ++ crlf))
      ((List.replicate m crlf).flatten ++ rest) = some ([.recv socket p], rest) := by
    have hmissing : p.length - (beforeCrlf p).length
        = ((List.replicate m crlf).flatten).length := by omega
    show urcRecvFunc env _ _ = _
    rw [urcRecvFunc_ciprcv henv hs (List.length_pos_of_ne_nil hp) (by omega),
      if_pos h.length, hmissing, atClientObjRecv, if_pos (by simp), List.take_left,
      List.drop_left, Option.map_some]
    show some ([SocketEffect.recv socket (beforeCrlf p ++ _)], rest) = _
    rw [← hm]
  refine ⟨1, client, ?_⟩
  rw [clientRounds, clientParser_of_urc crlfTable_urcTable hline hfits hurc hfunc hrun]
  rfl

/-- The first line of the message has the header and at least one byte more. If it ends in
`\r\n`, it is the header with the payload up to the cut, without an end sign. -/
theorem firstLine_ciprcv {e : UInt8} (he : e = 0 ∨ e = 62) {socket : Nat}
    {p y msg line behind : Bytes}
    (hmsg : msg = ciprcvHeader socket p.length ++ (beforeCrlf p ++ (crlf ++ y)))
    (hline : splitLine e msg 0 = some (line, behind)) :
    (ciprcvHeader socket p.length).length + 1 ≤ line.length
      ∧ ([13, 10] <:+ line → (e = 0 ∨ e ∉ beforeCrlf p) ∧ behind = y
        ∧ line = ciprcvHeader socket p.length ++ (beforeCrlf p ++ crlf)) := by
  have hcut := crlf_not_infix_beforeCrlf p
  by_cases hsign : e = 0 ∨ e ∉ beforeCrlf p
  · rw [hmsg, splitLine_ciprcv_crlf he socket p.length hcut hsign y] at hline
    cases hline
    refine ⟨?_, fun _ => ⟨hsign, rfl, rfl⟩⟩
    simp only [crlf, List.length_append, List.length_cons, List.length_nil]
    omega
  · -- The line ends at the first end sign of the payload.
    have he' : e = 62 := he.resolve_left fun h0 => hsign (Or.inl h0)
    have hmem : e ∈ beforeCrlf p := by
      by_contra hnot
      exact hsign (Or.inr hnot)
    obtain ⟨a, b, hab, hna⟩ := List.eq_append_cons_of_mem hmem
    have hcuta : ¬ crlf <:+: a := fun h => hcut (by
      rw [hab]
      exact h.trans (List.prefix_append a (e :: b)).isInfix)
    have hmsg' : msg
        = ciprcvHeader socket p.length ++ (a ++ e :: (b ++ (crlf ++ y))) := by
      rw [hmsg, hab, List.append_assoc, List.cons_append]
    rw [hmsg', splitLine_ciprcv_endSign he' socket p.length hcuta hna] at hline
    cases hline
    refine ⟨?_, fun hsuffix => ?_⟩
    · simp only [List.length_append, List.length_cons, List.length_nil]
      omega
    · rw [← List.append_assoc, crlf_suffix_append_singleton, he'] at hsuffix
      exact absurd hsuffix.1 (by decide)

/-- A delivered message was read whole with its first line. -/
theorem receivesWhole_of_delivered {env : Env} (henv : env.Working) {client : AtClient}
    (he : client.endSign = 0 ∨ client.endSign = 62) {socket : Nat}
    (hs : socket < socketsNum) {p rest : Bytes} (hp : p ≠ [])
    (h : Delivered env client socket p rest) : ReceivesWhole client socket p := by
  obtain ⟨n, client', hrun⟩ := h
  cases n with
  | zero => cases hrun
  | succ n =>
      obtain ⟨⟨client₁, e₁, input₁⟩, hround, hrest⟩ := Option.bind_eq_some_iff.mp hrun
      obtain ⟨⟨client₂, e₂, input₂⟩, hrounds, heq⟩ := Option.bind_eq_some_iff.mp hrest
      simp only [Option.pure_def, Option.some.injEq, Prod.mk.injEq] at heq
      obtain ⟨-, heffects, rfl⟩ := heq
      obtain ⟨line, behind, hline, hcases⟩ := clientParser_cases crlfTable_urcTable hround
      obtain ⟨r, y, hr, hy, hmsg⟩ := ciprcv_split socket p input₂
      obtain ⟨hlong, hcrlf⟩ := firstLine_ciprcv he hmsg hline
      have hlen := congrArg List.length (splitLine_append hline).2
      rw [List.length_append] at hlen
      rcases hcases with ⟨urc, func, did, hfits, hurc, hfunc, hexec, rfl⟩ | ⟨hquiet, rfl⟩
      · -- The line went to a URC function, which has to be the receive function.
        simp only [List.cons_append, List.cons.injEq, ClientEffect.urc.injEq] at heffects
        obtain ⟨rfl, heffects⟩ := heffects
        obtain ⟨hsign, rfl, rfl⟩ :=
          hcrlf (crlf_suffix_of_getUrcObj crlfTable_urcTable hurc)
        have hending := (getUrcObj_ciprcv socket p.length (beforeCrlf p)).mp
          ⟨urc, hurc, hfunc⟩
        have hplen : p.length = (beforeCrlf p).length + r.length := by
          rw [← List.length_append, ← hr]
        have hmissing : p.length - (beforeCrlf p).length = r.length := by omega
        change urcRecvFunc env _ _ = _ at hexec
        rw [urcRecvFunc_ciprcv henv hs (List.length_pos_of_ne_nil hp) (by omega),
          hmissing] at hexec
        split at hexec
        · rename_i hlength
          unfold atClientObjRecv at hexec
          split at hexec
          · cases hexec
            -- What was read behind the line is the payload behind the cut.
            simp only [List.map_cons, List.map_nil, List.cons_append, List.nil_append,
              List.cons.injEq, ClientEffect.did.injEq, SocketEffect.recv.injEq, true_and]
              at heffects
            have hread : behind.take r.length = r :=
              List.append_cancel_left (heffects.1.trans hr)
            have hcomm : r ++ crlf = crlf ++ r := by
              have htake := congrArg (List.take (r.length + 2)) hy
              rw [← List.append_assoc, List.take_left' (by simp [crlf])] at htake
              rw [htake, crlf, List.cons_append, List.cons_append, List.nil_append,
                List.take_succ_cons, List.take_succ_cons, hread]
              rfl
            obtain ⟨m, hm⟩ := eq_replicate_of_crlf_comm r hcomm
            refine ⟨⟨m, by rw [← hm]; exact hr⟩, ?_, hsign, hending, hlength⟩
            simp only [crlf, List.length_append, List.length_cons, List.length_nil] at hfits
            omega
          · cases hexec
        · cases hexec
      · -- The line is gone without a callback.
        have hnil : e₁ = [] := by
          rcases hquiet with rfl | rfl
          · rfl
          · simp at heffects
        subst hnil
        rw [List.nil_append] at heffects
        rw [heffects] at hrounds
        exact absurd hrounds (not_delivered_late env (by omega))

/-- **When a payload is delivered.** With memory and the callback there, and with the end
sign of an idle client or of one that is sending, the payload arrives exactly when
`ReceivesWhole` holds, whatever comes behind it. -/
theorem delivered_iff (env : Env) (henv : env.Working) (client : AtClient)
    (he : client.endSign = 0 ∨ client.endSign = 62) (socket : Nat)
    (hs : socket < socketsNum) (p : Bytes) (hp : p ≠ []) (rest : Bytes) :
    Delivered env client socket p rest ↔ ReceivesWhole client socket p :=
  ⟨receivesWhole_of_delivered henv he hs hp,
    fun h => delivered_of_receivesWhole henv he hs hp h rest⟩

/-- An environment with memory and callbacks. -/
def workingEnv : Env := ⟨fun _ => true, true, true⟩

/-- The environment works. -/
theorem workingEnv_working : workingEnv.Working := ⟨fun _ => rfl, rfl⟩

/-- An idle client with the receive buffer of the program. -/
def idleClient : AtClient := ⟨0, 512, none, .ok⟩

theorem delivered_iff_hello :
    Delivered workingEnv idleClient 1 (ascii "hello") [] ↔
      ReceivesWhole idleClient 1 (ascii "hello") :=
  delivered_iff workingEnv workingEnv_working idleClient (Or.inl rfl) 1 (by decide)
    (ascii "hello") (by decide) []

/-- A payload with a line break inside does not arrive. -/
theorem not_delivered_lineBreak :
    ¬ Delivered workingEnv idleClient 0 (ascii "a\r\nb") [] := by
  intro h
  obtain ⟨m, hm⟩ := (receivesWhole_of_delivered workingEnv_working (Or.inl rfl)
    (by decide) (by decide) h).crlfs
  have hlen := congrArg List.length hm
  have hrep : ((List.replicate m crlf).flatten).length = 2 * m := by
    simp [crlf, Nat.mul_comm]
  rw [List.length_append, hrep, show (beforeCrlf (ascii "a\r\nb")).length = 1 from by decide,
    show (ascii "a\r\nb").length = 4 from by decide] at hlen
  omega

end CarLocator.A9g
