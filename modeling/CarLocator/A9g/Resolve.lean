import CarLocator.At.Resources
import CarLocator.At.Response

/-!
# `CarLocator.A9g.Resolve`: `a9g_domain_resolve`

The loop of `a9g_domain_resolve` asks with `AT+CDNSGIP` until an answer has an address, at
most `RESOLVE_RETRY` times. Each answer is parsed twice, for an error code and for the
address. `resolveRound` is the body of the loop over what the command and the two parses
come to (`RoundAnswers`), and `parseRound` takes these from the lines of a response. A number
that is no `int` and a text that does not fit into `recv_ip` are undefined behaviour
(`none`).

`Contract` is what the function promises: it succeeds exactly when it has written an address
that stands in quotes in the response to its last query. It does not say so when no query
brings an answer: then the loop runs out, and the result is still `RT_EOK`.
`contract_iff` gives the exact condition.
-/

set_option autoImplicit false

namespace CarLocator.A9g

open CarLocator.At
open CarLocator.Library

/-- `RESOLVE_RETRY`. -/
def resolveRetry : Nat := 5

/-- `sizeof(recv_ip)`. -/
def recvIpSize : Nat := 16

/-- What the parse of the address comes to. -/
inductive AddrParse
  /-- no line has the keyword: the result is negative -/
  | noLine
  /-- the format does not match: the result is 0 -/
  | noMatch
  /-- a text for `recv_ip` -/
  | text (t : Bytes)
  deriving DecidableEq, Repr

/-- What one round of the loop gets. -/
structure RoundAnswers where
  -- how `AT+CDNSGIP` ends
  cdnsgip : ExecOutcome
  -- the error code, if the first parse finds one
  errCode : Option Int
  -- the second parse
  addr : AddrParse
  deriving DecidableEq, Repr

/-- How a round ends. -/
inductive RoundEnd
  /-- `goto __exit` -/
  | exit (result : Int)
  /-- `continue` -/
  | again
  /-- `recv_ip` is copied -/
  | found
  deriving DecidableEq, Repr

/-- What a call of `a9g_domain_resolve` does. -/
structure Resolved where
  result : Int
  /-- what is in `ip`, if it was written -/
  ip : Option Bytes
  /-- the number of queries issued -/
  queries : Nat
  calls : List ResCall
  deriving DecidableEq, Repr

/-- `rt_strncpy(ip, recv_ip, 15)` and the NUL behind it. -/
def copyIp (recvIp : Bytes) : Bytes := (recvIp ++ List.replicate 15 0).take 15 ++ [0]

/-- The end of a round, with `recv_ip` as the parse has left it. -/
def checkLength (recvIp : Bytes) : RoundEnd := if recvIp.length < 8 then .again else .found

/-- One round of the loop: how it ends, what `recv_ip` holds, and the calls. -/
def resolveRound (a : RoundAnswers) (recvIp : Bytes) : RoundEnd × Bytes × List ResCall :=
  if a.cdnsgip ≠ .ok then (.exit (-rtError), recvIp, execCalls (some 0) a.cdnsgip)
  else
    let query := execCalls (some 0) .ok
    -- 3 is a network error, 8 a DNS error
    if a.errCode = some 3 ∨ a.errCode = some 8 then
      (.exit (-rtError), recvIp, query ++ [.useResp 0])
    else
      let calls := query ++ [.useResp 0] ++ [.useResp 0]
      match a.addr with
      | .noLine => (.again, recvIp, calls)
      | .noMatch => (checkLength recvIp, recvIp, calls)
      | .text t => (checkLength t, t, calls)

/-- The loop from round `k` on, with `n` rounds left. -/
def resolveLoop (rounds : Nat → Option RoundAnswers) :
    (n k : Nat) → (recvIp : Bytes) → Option Resolved
  | 0, k, _ => some ⟨0, none, k, []⟩
  | n + 1, k, recvIp =>
    match rounds k with
    | none => none
    | some a =>
      match resolveRound a recvIp with
      | (.exit result, _, calls) => some ⟨result, none, k + 1, calls⟩
      | (.found, recvIp, calls) => some ⟨0, some (copyIp recvIp), k + 1, calls⟩
      | (.again, recvIp, calls) =>
        (resolveLoop rounds n (k + 1) recvIp).map fun r => { r with calls := calls ++ r.calls }

/-- `a9g_domain_resolve`, when a device is found, or not, and there is memory, or not. -/
def a9gDomainResolve (device createResp : Bool) (rounds : Nat → Option RoundAnswers) :
    Option Resolved :=
  if device = false then some ⟨-rtError, none, 0, []⟩
  else if createResp = false then some ⟨-rtEnomem, none, 0, []⟩
  else
    (resolveLoop rounds resolveRetry 0 []).map fun r =>
      { r with calls := [.createResp 0] ++ r.calls ++ [.deleteResp 0] }

/-! ### From the lines of a response -/

/-- What comes in for one `AT+CDNSGIP`. -/
structure CdnsgipAnswer where
  -- the command is refused
  refused : Bool
  -- the lines that come in before the timeout
  lines : List Bytes

/-- The response, with its status. -/
def CdnsgipAnswer.response (a : CdnsgipAnswer) : AtResponse × AtRespStatus :=
  atObjExecCmd (atCreateResp 1024 3) a.lines

/-- The keyword of both parses. -/
def cdnsgipKw : Bytes := ascii "+CDNSGIP:"

/-- `"+CDNSGIP: 0,%d"`. -/
def errCodeFormat : List Directive := lits cdnsgipKw ++ .space :: lits (ascii "0,") ++ [.int true]

/-- `"%*[^,],%*[^,],\"%[^\"]"`. -/
def addrFormat : List Directive :=
  [.noneOf [44] false, .lit 44, .noneOf [44] false, .lit 44, .lit 34, .noneOf [34] true]

/-- The error code of a response. -/
def parseErrCode (resp : AtResponse) : Option (Option Int) :=
  match atRespParseLineArgsByKw resp cdnsgipKw errCodeFormat with
  | none => none
  | some (.int v :: _) => some (some v)
  | some _ => some none

/-- The address of a response. The text has to fit into `recv_ip` with its NUL. -/
def parseAddr (resp : AtResponse) : Option AddrParse :=
  match atRespGetLineByKw resp cdnsgipKw with
  | none => some .noLine
  | some line =>
    match scan addrFormat (cString line) with
    | none => none
    | some (.str t :: _) => if t.length < recvIpSize then some (.text t) else none
    | some _ => some .noMatch

/-- One round, from the answer to its query. The address is parsed when the error code does
not end the round. -/
def parseRound (a : CdnsgipAnswer) : Option RoundAnswers :=
  let (resp, status) := a.response
  if a.refused then some ⟨.refused, none, .noLine⟩
  else if status ≠ .ok then some ⟨.failed, none, .noLine⟩
  else
    match parseErrCode resp with
    | none => none
    | some errCode =>
      if errCode = some 3 ∨ errCode = some 8 then some ⟨.ok, errCode, .noLine⟩
      else (parseAddr resp).map fun addr => ⟨.ok, errCode, addr⟩

/-! ### The contract -/

/-- The text is the third item of the line, in quotes. -/
def QuotedThird (line text : Bytes) : Prop :=
  ∃ a b rest, line = a ++ 44 :: (b ++ 44 :: 34 :: (text ++ 34 :: rest)) ∧
    (44 : UInt8) ∉ a ∧ (44 : UInt8) ∉ b ∧ (34 : UInt8) ∉ text

/-- The text stands in quotes in a `+CDNSGIP:` line of the response. -/
def InQuotes (a : CdnsgipAnswer) (text : Bytes) : Prop :=
  ∃ line ∈ a.response.1.lines, cdnsgipKw <:+: line ∧ QuotedThird line text

/-- What is in `ip` is a NUL-terminated address from the response. -/
def IsAddress (a : CdnsgipAnswer) (ip : Bytes) : Prop :=
  (0 : UInt8) ∈ ip ∧ 8 ≤ (cString ip).length ∧ (cString ip).length ≤ 15 ∧
    InQuotes a (cString ip)

/-- **What `a9g_domain_resolve` promises.** -/
def Contract (answers : Nat → CdnsgipAnswer) : Option Resolved → Prop
  | none => False
  | some r =>
    (r.result = 0 ↔ ∃ ip q, r.ip = some ip ∧ r.queries = q + 1 ∧ IsAddress (answers q) ip) ∧
      (r.result ≠ 0 → r.result < 0 ∧ r.ip = none)

/-- The query fails: the command, or with an error code for which there is no other try. -/
def QueryFails (a : CdnsgipAnswer) : Prop :=
  ∃ r, parseRound a = some r ∧ (r.cdnsgip ≠ .ok ∨ r.errCode = some 3 ∨ r.errCode = some 8)

/-- The query brings an address of eight characters or more, in quotes. -/
def QueryFinds (a : CdnsgipAnswer) : Prop :=
  ∃ r t, parseRound a = some r ∧ r.cdnsgip = .ok ∧ ¬ (r.errCode = some 3 ∨ r.errCode = some 8) ∧
    r.addr = .text t ∧ 8 ≤ t.length ∧ InQuotes a t

/-- The query brings neither. -/
def QueryAgain (a : CdnsgipAnswer) : Prop :=
  ∃ r, parseRound a = some r ∧ r.cdnsgip = .ok ∧ ¬ (r.errCode = some 3 ∨ r.errCode = some 8) ∧
    ∀ t, r.addr = .text t → t.length < 8

/-! ### The parse of the address -/

/-- **The address format**: the text is what follows the second comma and a quote, up to the
next quote or the end of the line. -/
theorem scan_addrFormat {line t : Bytes} {more : List Scanned}
    (h : scan addrFormat line = some (.str t :: more)) :
    ∃ a b rest, line = a ++ 44 :: (b ++ 44 :: 34 :: (t ++ rest)) ∧ (44 : UInt8) ∉ a ∧
      (44 : UInt8) ∉ b ∧ (34 : UInt8) ∉ t ∧ ∀ c ∈ rest.head?, c = 34 := by
  -- Directive by directive. A list of values that is not empty excludes a directive that stops.
  rcases scan_noneOf_cases h with hnil | ⟨a, _, _, rfl, -, ha, -, h₁, heq⟩
  · cases hnil
  rw [if_neg (by simp), List.nil_append] at heq
  subst heq
  rcases scan_lit_cases h₁ with hnil | ⟨_, rfl, h₂⟩
  · cases hnil
  rcases scan_noneOf_cases h₂ with hnil | ⟨b, _, _, rfl, -, hb, -, h₃, heq⟩
  · cases hnil
  rw [if_neg (by simp), List.nil_append] at heq
  subst heq
  rcases scan_lit_cases h₃ with hnil | ⟨_, rfl, h₄⟩
  · cases hnil
  rcases scan_lit_cases h₄ with hnil | ⟨_, rfl, h₅⟩
  · cases hnil
  rcases scan_noneOf_cases h₅ with hnil | ⟨word, rest, _, rfl, -, hword, hrest, -, heq⟩
  · cases hnil
  rw [if_pos rfl] at heq
  obtain ⟨hstr, -⟩ := List.cons.inj heq
  cases hstr
  exact ⟨a, b, rest, rfl, fun hm => ha 44 hm (by simp), fun hm => hb 44 hm (by simp),
    fun hm => hword 34 hm (by simp), fun c hc => by simpa using hrest c hc⟩

/-- A text for `recv_ip` fits, and comes from the line that has the keyword. -/
theorem parseAddr_text {resp : AtResponse} {t : Bytes} (h : parseAddr resp = some (.text t)) :
    t.length < recvIpSize ∧ (0 : UInt8) ∉ t ∧ ∃ line ∈ resp.lines, cdnsgipKw <:+: line ∧
      ∃ more, scan addrFormat line = some (.str t :: more) := by
  unfold parseAddr at h
  split at h
  · cases h
  · rename_i line hline
    obtain ⟨hmem, hkw⟩ := mem_lines_of_lineByKw (by decide) hline
    split at h
    · cases h
    · rename_i t' more hscan
      split at h
      · rename_i hfits
        cases h
        refine ⟨hfits, fun h0 => ?_, _, hmem, hkw, more, hscan⟩
        obtain ⟨a, b, rest, heq, -⟩ := scan_addrFormat hscan
        refine zero_notMem_of_mem_lines hmem ?_
        rw [heq]
        simp [h0]
      · cases h
    · cases h

/-- A text with a quote behind it stands in quotes. Without one it goes up to the end of the
line. -/
theorem inQuotes_of_parseAddr {a : CdnsgipAnswer} {t : Bytes}
    (h : parseAddr a.response.1 = some (.text t)) :
    InQuotes a t ∨ ∃ line ∈ a.response.1.lines, cdnsgipKw <:+: line ∧ 34 :: t <:+ line := by
  obtain ⟨-, -, line, hmem, hkw, more, hscan⟩ := parseAddr_text h
  obtain ⟨x, y, rest, heq, hx, hy, ht, hrest⟩ := scan_addrFormat hscan
  cases rest with
  | nil =>
      refine Or.inr ⟨line, hmem, hkw, ⟨x ++ 44 :: (y ++ [44]), ?_⟩⟩
      rw [heq]
      simp
  | cons c rest =>
      obtain rfl : c = 34 := hrest c rfl
      exact Or.inl ⟨line, hmem, hkw, x, y, rest, heq, hx, hy, ht⟩

/-- What the parse of a round gives for the address. -/
theorem addr_of_parseRound {a : CdnsgipAnswer} {r : RoundAnswers} {t : Bytes}
    (h : parseRound a = some r) (haddr : r.addr = .text t) :
    parseAddr a.response.1 = some (.text t) := by
  simp only [parseRound] at h
  split at h
  · cases h
    cases haddr
  · split at h
    · cases h
      cases haddr
    · split at h
      · cases h
      · split at h
        · cases h
          cases haddr
        · obtain ⟨addr, hparse, rfl⟩ := Option.map_eq_some_iff.mp h
          rw [← haddr]
          exact hparse

/-! ### One round -/

/-- What a copied text reads as. -/
theorem cString_copyIp {t : Bytes} (h0 : (0 : UInt8) ∉ t) (hlen : t.length ≤ 15) :
    cString (copyIp t) = t ∧ (0 : UInt8) ∈ copyIp t := by
  refine ⟨?_, by simp [copyIp]⟩
  -- The padding of `rt_strncpy` begins with a NUL.
  have hzeros : ∀ n, cString (List.replicate n 0 ++ [0]) = [] := by
    intro n
    cases n <;> rfl
  rw [copyIp, List.take_append, List.take_of_length_le hlen, List.append_assoc,
    cString_append h0, List.take_replicate, hzeros, List.append_nil]

/-- A query that fails ends the loop with an error. -/
theorem resolveRound_fails {r : RoundAnswers}
    (h : r.cdnsgip ≠ .ok ∨ r.errCode = some 3 ∨ r.errCode = some 8) (recvIp : Bytes) :
    ∃ calls, resolveRound r recvIp = (.exit (-rtError), recvIp, calls) := by
  rw [resolveRound]
  by_cases hok : r.cdnsgip = .ok
  · rw [if_neg (by simp [hok]), if_pos (h.resolve_left fun hne => hne hok)]
    exact ⟨_, rfl⟩
  · rw [if_pos hok]
    exact ⟨_, rfl⟩

/-- A query that brings nothing goes on, and what is in `recv_ip` stays short. -/
theorem resolveRound_again {r : RoundAnswers} (hok : r.cdnsgip = .ok)
    (herr : ¬ (r.errCode = some 3 ∨ r.errCode = some 8))
    (hshort : ∀ t, r.addr = .text t → t.length < 8) {recvIp : Bytes} (h : recvIp.length < 8) :
    ∃ recvIp' calls, resolveRound r recvIp = (.again, recvIp', calls) ∧ recvIp'.length < 8 := by
  simp only [resolveRound, hok, ne_eq, not_true_eq_false, if_false, herr]
  cases haddr : r.addr with
  | noLine => exact ⟨_, _, rfl, h⟩
  | noMatch =>
      simp only [checkLength, if_pos h]
      exact ⟨_, _, rfl, h⟩
  | text t =>
      simp only [checkLength, if_pos (hshort t haddr)]
      exact ⟨_, _, rfl, hshort t haddr⟩

/-- A query that brings an address ends the loop with it. -/
theorem resolveRound_found {r : RoundAnswers} (hok : r.cdnsgip = .ok)
    (herr : ¬ (r.errCode = some 3 ∨ r.errCode = some 8)) {t : Bytes} (haddr : r.addr = .text t)
    (hlong : 8 ≤ t.length) (recvIp : Bytes) :
    ∃ calls, resolveRound r recvIp = (.found, t, calls) := by
  have hnot : ¬ t.length < 8 := by omega
  simp only [resolveRound, hok, ne_eq, not_true_eq_false, if_false, herr, haddr, checkLength, hnot]
  exact ⟨_, rfl⟩

/-! ### The loop -/

/-- The calls do not matter for the contract. -/
theorem contract_map (answers : Nat → CdnsgipAnswer) (f : List ResCall → List ResCall)
    (o : Option Resolved) :
    Contract answers (o.map fun r => { r with calls := f r.calls }) ↔ Contract answers o := by
  cases o <;> exact Iff.rfl

/-- An error, with `ip` as it was. -/
theorem contract_error (answers : Nat → CdnsgipAnswer) {result : Int} (h : result < 0)
    (queries : Nat) (calls : List ResCall) :
    Contract answers (some ⟨result, none, queries, calls⟩) := by
  refine ⟨iff_of_false (fun h0 => ?_) ?_, fun _ => ⟨h, rfl⟩⟩
  · change result = 0 at h0
    omega
  · rintro ⟨ip, q, hip, -⟩
    cases hip

/-- A query that brings nothing neither fails nor finds an address. -/
theorem not_ends_of_again {a : CdnsgipAnswer} (hagain : QueryAgain a) :
    ¬ (QueryFails a ∨ QueryFinds a) := by
  obtain ⟨r, hround, hok, herr, hshort⟩ := hagain
  rintro (⟨r', hr', hfails⟩ | ⟨r', t, hr', -, -, haddr, hlong, -⟩)
  · obtain rfl := Option.some.inj (hround.symm.trans hr')
    exact hfails.elim (fun hne => hne hok) herr
  · obtain rfl := Option.some.inj (hround.symm.trans hr')
    exact absurd (hshort t haddr) (by omega)

/-- A query answered by a text that is long enough: the contract holds when the text stands in
quotes. -/
theorem contract_found_iff {answers : Nat → CdnsgipAnswer} {k : Nat} {r : RoundAnswers}
    (hround : parseRound (answers k) = some r) (hok : r.cdnsgip = .ok)
    (herr : ¬ (r.errCode = some 3 ∨ r.errCode = some 8)) {t : Bytes} (haddr : r.addr = .text t)
    (hlong : 8 ≤ t.length) (calls : List ResCall) :
    Contract answers (some ⟨0, some (copyIp t), k + 1, calls⟩) ↔
      QueryFails (answers k) ∨ QueryFinds (answers k) := by
  obtain ⟨hfits, h0, -⟩ := parseAddr_text (addr_of_parseRound hround haddr)
  have hle : t.length ≤ 15 := by
    rw [recvIpSize] at hfits
    omega
  obtain ⟨htext, hnul⟩ := cString_copyIp h0 hle
  constructor
  · rintro ⟨hiff, -⟩
    obtain ⟨ip, q, hip, hq, -, -, -, hquotes⟩ := hiff.mp rfl
    cases hip
    cases hq
    rw [htext] at hquotes
    exact Or.inr ⟨r, t, hround, hok, herr, haddr, hlong, hquotes⟩
  · rintro (⟨r', hr', hfails⟩ | ⟨r', t', hr', -, -, haddr', -, hquotes⟩)
    · obtain rfl := Option.some.inj (hround.symm.trans hr')
      exact absurd hfails (not_or.mpr ⟨fun hne => hne hok, herr⟩)
    · obtain rfl := Option.some.inj (hround.symm.trans hr')
      cases haddr.symm.trans haddr'
      refine ⟨iff_of_true rfl ⟨_, k, rfl, rfl, hnul, ?_⟩, fun hne => absurd rfl hne⟩
      rw [htext]
      exact ⟨hlong, hle, hquotes⟩

/-- A query that brings nothing leaves it to the later ones. -/
theorem queries_succ_iff {answers : Nat → CdnsgipAnswer} {n k : Nat}
    (hagain : QueryAgain (answers k)) :
    (∃ m, k + 1 ≤ m ∧ m < k + 1 + n ∧ (∀ j, k + 1 ≤ j → j < m → QueryAgain (answers j)) ∧
      (QueryFails (answers m) ∨ QueryFinds (answers m))) ↔
      ∃ m, k ≤ m ∧ m < k + (n + 1) ∧ (∀ j, k ≤ j → j < m → QueryAgain (answers j)) ∧
        (QueryFails (answers m) ∨ QueryFinds (answers m)) := by
  constructor
  · rintro ⟨m, hkm, hmn, hbefore, hm⟩
    refine ⟨m, by omega, by omega, fun j hj hlt => ?_, hm⟩
    rcases Nat.eq_or_lt_of_le hj with rfl | hlt'
    · exact hagain
    · exact hbefore j hlt' hlt
  · rintro ⟨m, hkm, hmn, hbefore, hm⟩
    rcases Nat.eq_or_lt_of_le hkm with rfl | hlt
    · exact absurd hm (not_ends_of_again hagain)
    · exact ⟨m, hlt, by omega, fun j hj => hbefore j (by omega), hm⟩

/-- **The loop keeps the contract** exactly when some query within reach fails or finds an
address. The induction is on the rounds left; `recv_ip` never holds eight characters when a
round begins. -/
theorem contract_resolveLoop_iff (answers : Nat → CdnsgipAnswer) (n k : Nat) {recvIp : Bytes}
    (h : recvIp.length < 8) :
    Contract answers (resolveLoop (fun k => parseRound (answers k)) n k recvIp) ↔
      ∃ m, k ≤ m ∧ m < k + n ∧ (∀ j, k ≤ j → j < m → QueryAgain (answers j)) ∧
        (QueryFails (answers m) ∨ QueryFinds (answers m)) := by
  induction n generalizing k recvIp with
  | zero =>
      refine iff_of_false ?_ ?_
      · rintro ⟨hiff, -⟩
        obtain ⟨ip, q, hip, -⟩ := hiff.mp rfl
        cases hip
      · rintro ⟨m, hkm, hmk, -⟩
        omega
  | succ n ih =>
      -- Only round `k` counts when it does not go on.
      have hhere : ¬ QueryAgain (answers k) →
          ((∃ m, k ≤ m ∧ m < k + (n + 1) ∧ (∀ j, k ≤ j → j < m → QueryAgain (answers j)) ∧
            (QueryFails (answers m) ∨ QueryFinds (answers m))) ↔
            QueryFails (answers k) ∨ QueryFinds (answers k)) := by
        intro hnot
        constructor
        · rintro ⟨m, hkm, -, hagain, hm⟩
          rcases Nat.eq_or_lt_of_le hkm with rfl | hlt
          · exact hm
          · exact absurd (hagain k (Nat.le_refl k) hlt) hnot
        · exact fun hk => ⟨k, Nat.le_refl k, by omega, fun j hj hlt => by omega, hk⟩
      rw [resolveLoop]
      cases hround : parseRound (answers k) with
      | none =>
          have hnone : ∀ r, parseRound (answers k) ≠ some r := fun r hr => by
            rw [hround] at hr
            cases hr
          rw [hhere fun ⟨r, hr, _⟩ => hnone r hr]
          refine iff_of_false id ?_
          rintro (⟨r, hr, -⟩ | ⟨r, t, hr, -⟩)
          · exact hnone r hr
          · exact hnone r hr
      | some r =>
          by_cases hfails : r.cdnsgip ≠ .ok ∨ r.errCode = some 3 ∨ r.errCode = some 8
          · -- the query fails
            have hnot : ¬ QueryAgain (answers k) := fun hagain =>
              not_ends_of_again hagain (Or.inl ⟨r, hround, hfails⟩)
            obtain ⟨calls, hres⟩ := resolveRound_fails hfails recvIp
            rw [hhere hnot]
            simp only [hres]
            exact iff_of_true (contract_error answers (by decide) _ _)
              (Or.inl ⟨r, hround, hfails⟩)
          · obtain ⟨hok, herr⟩ : r.cdnsgip = .ok ∧ ¬ (r.errCode = some 3 ∨ r.errCode = some 8) :=
              ⟨by_contra fun hne => hfails (Or.inl hne), fun he => hfails (Or.inr he)⟩
            by_cases hshort : ∀ t, r.addr = .text t → t.length < 8
            · -- the loop goes on
              have hagain : QueryAgain (answers k) := ⟨r, hround, hok, herr, hshort⟩
              obtain ⟨recvIp', calls, hres, h'⟩ := resolveRound_again hok herr hshort h
              simp only [hres]
              rw [contract_map, ih (k + 1) h']
              exact queries_succ_iff hagain
            · -- an address
              push Not at hshort
              obtain ⟨t, haddr, hlong⟩ := hshort
              have hnot : ¬ QueryAgain (answers k) := by
                rintro ⟨r', hr', -, -, hlt⟩
                obtain rfl := Option.some.inj (hround.symm.trans hr')
                exact absurd (hlt t haddr) (by omega)
              obtain ⟨calls, hres⟩ := resolveRound_found hok herr haddr hlong recvIp
              rw [hhere hnot]
              simp only [hres]
              exact contract_found_iff hround hok herr haddr hlong calls

/-- **The contract of `a9g_domain_resolve`**: it holds exactly when there is no device, or no
memory, or one of the five queries fails or finds an address, and those before it bring
neither. -/
theorem contract_iff (device createResp : Bool) (answers : Nat → CdnsgipAnswer) :
    Contract answers (a9gDomainResolve device createResp fun k => parseRound (answers k)) ↔
      device = false ∨ createResp = false ∨
        ∃ m < resolveRetry, (∀ j < m, QueryAgain (answers j)) ∧
          (QueryFails (answers m) ∨ QueryFinds (answers m)) := by
  rw [a9gDomainResolve]
  by_cases hdevice : device = false
  · rw [if_pos hdevice]
    exact iff_of_true (contract_error answers (by decide) _ _) (Or.inl hdevice)
  by_cases hresp : createResp = false
  · rw [if_neg hdevice, if_pos hresp]
    exact iff_of_true (contract_error answers (by decide) _ _) (Or.inr (Or.inl hresp))
  rw [if_neg hdevice, if_neg hresp,
    contract_map answers fun calls => [ResCall.createResp 0] ++ calls ++ [ResCall.deleteResp 0],
    contract_resolveLoop_iff answers resolveRetry 0 (by decide)]
  constructor
  · rintro ⟨m, -, hm, hbefore, hends⟩
    exact Or.inr (Or.inr ⟨m, by omega, fun j => hbefore j (Nat.zero_le j), hends⟩)
  · rintro (h | h | ⟨m, hm, hbefore, hends⟩)
    · exact absurd h hdevice
    · exact absurd h hresp
    · exact ⟨m, Nat.zero_le m, by omega, fun j _ => hbefore j, hends⟩

/-- An answer of three lines, none of which has the keyword. -/
def emptyAnswer : CdnsgipAnswer :=
  { refused := false, lines := [ascii "\r\n", ascii "\r\n", ascii "OK\r\n"] }

/-- Five queries that bring nothing: the result is `RT_EOK`, and `ip` is not written. -/
theorem not_contract_exhausted :
    (∃ calls, a9gDomainResolve true true (fun _ => parseRound emptyAnswer)
      = some ⟨0, none, 5, calls⟩) ∧
    ¬ Contract (fun _ => emptyAnswer)
        (a9gDomainResolve true true fun _ => parseRound emptyAnswer) := by
  have hround : parseRound emptyAnswer = some ⟨.ok, none, .noLine⟩ := by decide +kernel
  simp only [hround]
  refine ⟨⟨_, rfl⟩, ?_⟩
  rintro ⟨hiff, -⟩
  obtain ⟨ip, q, hip, -⟩ := hiff.mp rfl
  cases hip

end CarLocator.A9g
