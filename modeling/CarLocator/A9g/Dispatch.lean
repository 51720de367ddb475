import CarLocator.A9g.UrcBounds

/-!
# `CarLocator.A9g.Dispatch`: the socket a line names

Four forms of lines name a socket by its number: `<n>,CONNECT OK`, `<n>,CONNECT FAIL`,
`<n>,SEND FAIL` and `CLOSED:<n>`. The number is any text that `%d` reads (`ReadsAs`): white
space, a sign, leading zeros. `get_urc_obj` selects a function for the line, and the function
reads the number again, with `"%d,%*s"`.

The first three forms start as this format expects. A line of the fourth form does not, so
that `urc_close_func` keeps the socket number it started with, 0. `attributes_iff` puts this
together, and `clientParser_form` is the line on its way through the reader.
-/

set_option autoImplicit false

namespace CarLocator.A9g

open CarLocator.At
open CarLocator.Library

/-- The forms of the lines that name a socket. -/
inductive UrcForm
  | connectOk
  | connectFail
  | sendFail
  | closed
  deriving DecidableEq, Repr

/-- The text is read whole by `%d`, as this number. -/
def ReadsAs (num : Bytes) (n : Int) : Prop := scanInt num = .next (some (.int n)) []

/-- A line of a form, without its end. -/
def UrcForm.body : UrcForm → Bytes → Bytes
  | .connectOk, num => num ++ ascii ",CONNECT OK"
  | .connectFail, num => num ++ ascii ",CONNECT FAIL"
  | .sendFail, num => num ++ ascii ",SEND FAIL"
  | .closed, num => ascii "CLOSED:" ++ num

/-- A line of a form. -/
def UrcForm.line (form : UrcForm) (num : Bytes) : Bytes := form.body num ++ [13, 10]

/-- What a line that names socket `n` stands for. -/
def UrcForm.effects (env : Env) (n : Nat) : UrcForm → List SocketEffect
  | .connectOk => [.eventSend (setEvent n a9gEventConnOk)]
  | .connectFail => [.eventSend (setEvent n a9gEventConnFail)]
  | .sendFail => [.eventSend (setEvent n a9gEventSendFail)]
  | .closed => if env.evtClosed then [.closed n] else []

/-- The line goes to a function that does what the line stands for, and nothing else. -/
def Attributes (env : Env) (form : UrcForm) (num : Bytes) (n : Nat) : Prop :=
  ∃ urc func, getUrcObj urcTable (form.line num) = some urc ∧ urc.func = some func ∧
    ∀ rest, execUrc env func (form.line num) rest = some (form.effects env n, rest)

/-- The socket that an effect is for. In an event set it is the number in the upper half. -/
def SocketEffect.Names (m : Nat) : SocketEffect → Prop
  | .eventSend set => set >>> 16 = BitVec.ofNat 32 (m + 1)
  | .closed socket | .recv socket _ => socket = m

/-- What a line stands for is for the one socket. -/
theorem names_effects_iff (env : Env) {n m : Nat} (hn : n < socketsNum) (hm : m < socketsNum)
    (form : UrcForm) {e : SocketEffect} (he : e ∈ form.effects env n) : e.Names m ↔ m = n := by
  -- The upper half of an event set, for each socket.
  have hupper : ∀ n < socketsNum,
      setEvent n a9gEventConnOk >>> 16 = BitVec.ofNat 32 (n + 1) ∧
        setEvent n a9gEventConnFail >>> 16 = BitVec.ofNat 32 (n + 1) ∧
        setEvent n a9gEventSendFail >>> 16 = BitVec.ofNat 32 (n + 1) := by
    decide
  have hnumber : BitVec.ofNat 32 (n + 1) = BitVec.ofNat 32 (m + 1) ↔ m = n := by
    unfold socketsNum at hn hm
    rw [← BitVec.toNat_inj, BitVec.toNat_ofNat, BitVec.toNat_ofNat]
    omega
  obtain ⟨hok, hfail, hsend⟩ := hupper n hn
  cases form with
  | connectOk =>
      rw [List.mem_singleton.mp he, SocketEffect.Names, hok, hnumber]
  | connectFail =>
      rw [List.mem_singleton.mp he, SocketEffect.Names, hfail, hnumber]
  | sendFail =>
      rw [List.mem_singleton.mp he, SocketEffect.Names, hsend, hnumber]
  | closed =>
      rw [UrcForm.effects] at he
      split at he
      · rw [List.mem_singleton.mp he]
        exact eq_comm
      · cases he

/-! ### The number -/

/-- What the bytes of a number are. -/
theorem readsAs_bytes {num : Bytes} {n : Int} (h : ReadsAs num n) {b : UInt8} (hb : b ∈ num) :
    isSpace b = true ∨ b = 45 ∨ b = 43 ∨ isDigit b = true := by
  obtain ⟨⟨sp, sign, ds, rfl, hsp, hsign, -, hds⟩, -⟩ := scanInt_whole h
  rcases List.mem_append.mp hb with hb | hb
  · exact Or.inl (hsp b hb)
  · rcases List.mem_append.mp hb with hb | hb
    · exact Or.inr ((hsign b hb).imp id Or.inl)
    · exact Or.inr (Or.inr (Or.inr (hds b hb)))

/-- A byte that no number has. -/
theorem notMem_of_readsAs {num : Bytes} {n : Int} (h : ReadsAs num n) {c : UInt8}
    (hc : ¬ (isSpace c = true ∨ c = 45 ∨ c = 43 ∨ isDigit c = true)) : c ∉ num :=
  fun hmem => hc (readsAs_bytes h hmem)

/-- A number ends in a digit. -/
theorem readsAs_last {num : Bytes} {n : Int} (h : ReadsAs num n) :
    ∃ pre d, num = pre ++ [d] ∧ isDigit d = true := by
  obtain ⟨⟨sp, sign, ds, rfl, -, -, hne, hds⟩, -⟩ := scanInt_whole h
  refine ⟨sp ++ (sign ++ ds.dropLast), ds.getLast hne, ?_, hds _ (List.getLast_mem hne)⟩
  rw [List.append_assoc, List.append_assoc, List.dropLast_append_getLast]

/-- `"%d,%*s"` on a line that starts with a number and a comma. -/
theorem scanSocket_num {num : Bytes} {n : Int} (h : ReadsAs num n) (rest : Bytes) :
    scanSocket (num ++ 44 :: rest) = some n := by
  have h0 : (0 : UInt8) ∉ num := notMem_of_readsAs h (by decide)
  have htext : cString (num ++ 44 :: rest) = num ++ 44 :: cString rest := by
    rw [cString_append h0]
    rfl
  have hint : scanInt (num ++ 44 :: cString rest)
      = .next (some (.int n)) (44 :: cString rest) := by
    refine (scanInt_whole h).2 _ fun b hb => ?_
    cases hb
    decide
  rw [scanSocket, htext, scan, Directive.apply, hint]
  show Option.bind (Option.map _ (scan [.lit 44, .str false] (44 :: cString rest))) _ = _
  rw [scan_lit, scan_str_skip]
  rfl

/-! ### Which function gets the line -/

/-- A line that starts with a number does not start with another byte. -/
theorem not_prefix_num {num : Bytes} {n : Int} (h : ReadsAs num n) {c : UInt8}
    (hc : c ∉ num) (pat rest : Bytes) : ¬ c :: pat <+: num ++ rest := by
  obtain ⟨pre, d, rfl, -⟩ := readsAs_last h
  intro hpre
  cases pre with
  | nil => exact hc (by simp [(List.cons_prefix_cons.mp hpre).1])
  | cons b pre => exact hc (by simp [(List.cons_prefix_cons.mp hpre).1])

/-- Two endings of which neither is an ending of the other. -/
theorem not_suffix_append {t u : Bytes} (htu : ¬ t <:+ u) (hut : ¬ u <:+ t) (pre : Bytes) :
    ¬ t <:+ pre ++ u := fun h =>
  (List.suffix_or_suffix_of_suffix h (List.suffix_append pre u)).elim htu hut

/-- A line with a number in front of its end. -/
theorem not_suffix_num {num : Bytes} {n : Int} (h : ReadsAs num n) {c : UInt8}
    (hc : isDigit c = false) (t pre : Bytes) :
    ¬ t ++ [c, 13, 10] <:+ pre ++ num ++ [13, 10] := by
  obtain ⟨init, d, rfl, hd⟩ := readsAs_last h
  rintro ⟨x, hx⟩
  have hcut : (x ++ t) ++ [c, 13, 10] = (pre ++ init) ++ [d, 13, 10] := by
    simpa using hx
  have hlast := (List.append_inj' hcut rfl).2
  rw [(List.cons.inj hlast).1, hd] at hc
  cases hc

/-- The table in one list. -/
theorem urcTable_flatten : urcTable.flatten = [
    ⟨82 :: ascii "EADY", ascii "\r\n", some .urcFunc⟩,
    ⟨[], ascii "CONNECT O" ++ [75, 13, 10], some .urcConnectFunc⟩,
    ⟨[], ascii ",CONNECT FAI" ++ [76, 13, 10], some .urcConnectFunc⟩,
    ⟨[], ascii ",SEND FAI" ++ [76, 13, 10], some .urcSendFunc⟩,
    ⟨67 :: ascii "LOSED:", ascii "\r\n", some .urcCloseFunc⟩,
    ⟨ascii "+CIPRCV,", ascii "\r\n", some .urcRecvFunc⟩] := by decide

/-- The function that `get_urc_obj` selects for a form. -/
def UrcForm.func : UrcForm → UrcFunc
  | .connectOk | .connectFail => .urcConnectFunc
  | .sendFail => .urcSendFunc
  | .closed => .urcCloseFunc

/-- **The function selected** for a line of a form. -/
theorem getUrcObj_form (form : UrcForm) {num : Bytes} {n : Int} (h : ReadsAs num n) :
    ∃ urc, getUrcObj urcTable (form.line num) = some urc ∧ urc.func = some form.func := by
  -- The entry `READY` starts with a letter. The entries without a prefix are told apart by their
  -- endings.
  have hready : ∀ rest suf func,
      ¬ (AtUrc.mk (82 :: ascii "EADY") suf func : AtUrc UrcFunc).Matches (num ++ rest) :=
    fun rest _ _ hm => not_prefix_num h (notMem_of_readsAs h (by decide)) _ rest hm.2.1
  have hother : ∀ {t u : Bytes}, ¬ t <:+ u → ¬ u <:+ t → ∀ pre func,
      ¬ (AtUrc.mk pre t func : AtUrc UrcFunc).Matches (num ++ u) :=
    fun htu hut _ _ hm => not_suffix_append htu hut num hm.2.2
  have hself : ∀ {t u : Bytes}, t <:+ u → ∀ func,
      (AtUrc.mk [] t func : AtUrc UrcFunc).Matches (num ++ u) := by
    intro t u htu func
    have hsuf : t <:+ num ++ u := htu.trans (List.suffix_append num u)
    exact ⟨by simpa using hsuf.length_le, List.nil_prefix, hsuf⟩
  rw [getUrcObj, urcTable_flatten]
  cases form with
  | connectOk =>
      have hline : UrcForm.connectOk.line num = num ++ ascii ",CONNECT OK\r\n" :=
        List.append_assoc _ _ _
      have hok := @hself (ascii "CONNECT O" ++ [75, 13, 10]) (ascii ",CONNECT OK\r\n")
        (by decide) (some .urcConnectFunc)
      simp only [hline, List.find?_cons, hready, hok, decide_true, decide_false]
      exact ⟨_, rfl, rfl⟩
  | connectFail =>
      have hline : UrcForm.connectFail.line num = num ++ ascii ",CONNECT FAIL\r\n" :=
        List.append_assoc _ _ _
      have hok := @hother (ascii "CONNECT O" ++ [75, 13, 10]) (ascii ",CONNECT FAIL\r\n")
        (by decide) (by decide) [] (some .urcConnectFunc)
      have hfail := @hself (ascii ",CONNECT FAI" ++ [76, 13, 10]) (ascii ",CONNECT FAIL\r\n")
        (by decide) (some .urcConnectFunc)
      simp only [hline, List.find?_cons, hready, hok, hfail, decide_true, decide_false]
      exact ⟨_, rfl, rfl⟩
  | sendFail =>
      have hline : UrcForm.sendFail.line num = num ++ ascii ",SEND FAIL\r\n" :=
        List.append_assoc _ _ _
      have hok := @hother (ascii "CONNECT O" ++ [75, 13, 10]) (ascii ",SEND FAIL\r\n")
        (by decide) (by decide) [] (some .urcConnectFunc)
      have hfail := @hother (ascii ",CONNECT FAI" ++ [76, 13, 10]) (ascii ",SEND FAIL\r\n")
        (by decide) (by decide) [] (some .urcConnectFunc)
      have hsend := @hself (ascii ",SEND FAI" ++ [76, 13, 10]) (ascii ",SEND FAIL\r\n")
        (by decide) (some .urcSendFunc)
      simp only [hline, List.find?_cons, hready, hok, hfail, hsend, decide_true, decide_false]
      exact ⟨_, rfl, rfl⟩
  | closed =>
      -- This line ends in a digit, so that only its beginning decides.
      have hend : ∀ (c : UInt8) t pre func, isDigit c = false →
          ¬ (AtUrc.mk pre (t ++ [c, 13, 10]) func : AtUrc UrcFunc).Matches
            (UrcForm.closed.line num) :=
        fun c t _ _ hc hm => not_suffix_num h hc t (ascii "CLOSED:") hm.2.2
      have hready' : ¬ (AtUrc.mk (82 :: ascii "EADY") (ascii "\r\n")
          (some .urcFunc) : AtUrc UrcFunc).Matches (UrcForm.closed.line num) := by
        rintro ⟨-, hpre, -⟩
        exact absurd (List.cons_prefix_cons.mp hpre).1 (by decide)
      have hok := hend 75 (ascii "CONNECT O") [] (some .urcConnectFunc) (by decide)
      have hfail := hend 76 (ascii ",CONNECT FAI") [] (some .urcConnectFunc) (by decide)
      have hsend := hend 76 (ascii ",SEND FAI") [] (some .urcSendFunc) (by decide)
      have hclosed : (AtUrc.mk (67 :: ascii "LOSED:") (ascii "\r\n")
          (some .urcCloseFunc) : AtUrc UrcFunc).Matches (UrcForm.closed.line num) := by
        refine ⟨?_, ?_, List.suffix_append _ _⟩
        · simp [UrcForm.line, UrcForm.body, ascii]
        · exact (List.prefix_append (ascii "CLOSED:") num).trans (List.prefix_append _ _)
      simp only [List.find?_cons, hready', hok, hfail, hsend, hclosed, decide_true,
        decide_false]
      exact ⟨_, rfl, rfl⟩

/-! ### What the function does -/

/-- A text with a comma in it stands behind the number, or nowhere. -/
theorem not_infix_num {num : Bytes} {n : Int} (h : ReadsAs num n) {c : UInt8} {pat rest : Bytes}
    (hc : ¬ (isSpace c = true ∨ c = 45 ∨ c = 43 ∨ isDigit c = true)) (hmem : c ∈ pat)
    (h44 : (44 : UInt8) ∉ pat) (hrest : ¬ pat <:+: rest) : ¬ pat <:+: num ++ 44 :: rest := by
  intro hpat
  rcases infix_append_cons h44 hpat with hpat | hpat
  · exact notMem_of_readsAs h hc (hpat.subset hmem)
  · exact hrest hpat

/-- The three forms that start with the number. -/
theorem execUrc_form (env : Env) {form : UrcForm} (hform : form ≠ .closed) {num : Bytes}
    {n : Nat} (h : ReadsAs num n) (rest : Bytes) :
    execUrc env form.func (form.line num) rest = some (form.effects env n, rest) := by
  have h0 : (0 : UInt8) ∉ num ++ [44] := by
    simpa using notMem_of_readsAs h (by decide)
  cases form with
  | connectOk =>
      have hline : UrcForm.connectOk.line num = num ++ 44 :: ascii "CONNECT OK\r\n" :=
        List.append_assoc _ _ _
      have hok : (strstr (ascii "CONNECT OK") (num ++ 44 :: ascii "CONNECT OK\r\n")).isSome := by
        have := strstr_isSome h0 (ascii "CONNECT OK") [13, 10]
        rwa [List.append_assoc] at this
      rw [hline, UrcForm.func, execUrc, urcConnectFunc, scanSocket_num h, Option.bind_eq_bind,
        Option.bind_some, if_pos hok]
      rfl
  | connectFail =>
      have hline : UrcForm.connectFail.line num = num ++ 44 :: ascii "CONNECT FAIL\r\n" :=
        List.append_assoc _ _ _
      have hok : ¬ (strstr (ascii "CONNECT OK")
          (num ++ 44 :: ascii "CONNECT FAIL\r\n")).isSome :=
        strstr_isSome_of_not_infix
          (not_infix_num h (c := 67) (by decide) (by decide) (by decide) (by decide))
      have hfail : (strstr (ascii "CONNECT FAIL")
          (num ++ 44 :: ascii "CONNECT FAIL\r\n")).isSome := by
        have := strstr_isSome h0 (ascii "CONNECT FAIL") [13, 10]
        rwa [List.append_assoc] at this
      rw [hline, UrcForm.func, execUrc, urcConnectFunc, scanSocket_num h, Option.bind_eq_bind,
        Option.bind_some, if_neg hok, if_pos hfail]
      rfl
  | sendFail =>
      have hline : UrcForm.sendFail.line num = num ++ 44 :: ascii "SEND FAIL\r\n" :=
        List.append_assoc _ _ _
      have hok : ¬ (strstr (ascii "SEND OK") (num ++ 44 :: ascii "SEND FAIL\r\n")).isSome :=
        strstr_isSome_of_not_infix
          (not_infix_num h (c := 83) (by decide) (by decide) (by decide) (by decide))
      have hfail : (strstr (ascii "SEND FAIL") (num ++ 44 :: ascii "SEND FAIL\r\n")).isSome := by
        have := strstr_isSome h0 (ascii "SEND FAIL") [13, 10]
        rwa [List.append_assoc] at this
      rw [hline, UrcForm.func, execUrc, urcSendFunc, scanSocket_num h, Option.bind_eq_bind,
        Option.bind_some, if_neg hok, if_pos hfail]
      rfl
  | closed => exact absurd rfl hform

/-- The form that does not: the function keeps socket 0. -/
theorem execUrc_closed (env : Env) {num : Bytes} {n : Int} (h : ReadsAs num n) (rest : Bytes) :
    execUrc env .urcCloseFunc (UrcForm.closed.line num) rest
      = some (if env.evtClosed then [.closed 0] else [], rest) := by
  have hline : UrcForm.closed.line num = ascii "CLOSED:" ++ (num ++ [13, 10]) :=
    List.append_assoc _ _ _
  have hok : ¬ (strstr (ascii "CLOSE OK") (ascii "CLOSED:" ++ (num ++ [13, 10]))).isSome := by
    refine strstr_isSome_of_not_infix fun hpat => ?_
    have hsplit : ascii "CLOSED:" ++ (num ++ [13, 10])
        = ascii "CLOSED" ++ 58 :: (num ++ [13, 10]) := rfl
    rw [hsplit] at hpat
    rcases infix_append_cons (by decide) hpat with hpat | hpat
    · exact absurd hpat (by decide)
    · have hmem : (67 : UInt8) ∈ num ++ [13, 10] := hpat.subset (by decide)
      rcases List.mem_append.mp hmem with hmem | hmem
      · exact notMem_of_readsAs h (by decide) hmem
      · exact absurd hmem (by decide)
  have hclosed : (strstr (ascii "CLOSED") (ascii "CLOSED:" ++ (num ++ [13, 10]))).isSome := by
    have hsplit : ascii "CLOSED:" ++ (num ++ [13, 10])
        = ascii "CLOSED" ++ 58 :: (num ++ [13, 10]) := rfl
    rw [hsplit, strstr_self]
    rfl
  rw [hline, execUrc, urcCloseFunc, scanSocket_closed, Option.bind_eq_bind, Option.bind_some,
    if_neg hok, if_pos hclosed]
  rfl

/-- **A line is attributed to the socket it names** unless it is a `CLOSED:` for another
socket than 0, with a callback to tell. -/
theorem attributes_iff (env : Env) (form : UrcForm) {num : Bytes} {n : Nat}
    (h : ReadsAs num n) :
    Attributes env form num n ↔ (form = .closed → n = 0 ∨ env.evtClosed = false) := by
  obtain ⟨urc, hurc, hfunc⟩ := getUrcObj_form form h
  have hiff : Attributes env form num n ↔ ∀ rest,
      execUrc env form.func (form.line num) rest = some (form.effects env n, rest) := by
    constructor
    · rintro ⟨urc', func, hurc', hfunc', hexec⟩
      rw [hurc] at hurc'
      cases hurc'
      rw [hfunc] at hfunc'
      cases hfunc'
      exact hexec
    · exact fun hexec => ⟨urc, form.func, hurc, hfunc, hexec⟩
  rw [hiff]
  by_cases hform : form = .closed
  · subst hform
    simp only [UrcForm.func, execUrc_closed env h, UrcForm.effects, forall_const]
    cases env.evtClosed with
    | true => simp [eq_comm]
    | false => simp
  · exact iff_of_true (execUrc_form env hform h) fun heq => absurd heq hform

/-- `CLOSED:3`, with a callback. -/
theorem not_attributes_closed :
    ReadsAs (ascii "3") (3 : Nat) ∧
      ¬ Attributes ⟨fun _ => true, true, true⟩ .closed (ascii "3") 3 := by
  have h : ReadsAs (ascii "3") (3 : Nat) := by
    unfold ReadsAs
    decide
  refine ⟨h, ?_⟩
  rintro ⟨urc, func, hurc, hfunc, hexec⟩
  obtain ⟨urc', hurc', hfunc'⟩ := getUrcObj_form .closed h
  rw [hurc'] at hurc
  cases hurc
  rw [hfunc'] at hfunc
  cases hfunc
  have hzero := hexec []
  rw [UrcForm.func, execUrc_closed _ h] at hzero
  exact absurd hzero (by decide)

theorem attributes_iff_five :
    Attributes ⟨fun _ => true, true, true⟩ .connectOk (ascii " +05") 5 ↔
      (UrcForm.connectOk = .closed → 5 = 0 ∨ true = false) :=
  attributes_iff ⟨fun _ => true, true, true⟩ .connectOk
    (show scanInt (ascii " +05") = .next (some (.int (5 : Nat))) [] from by decide)

/-! ### The line in the reader -/

/-- There is no `\r\n` in the line before its end. -/
theorem crlf_not_infix_body (form : UrcForm) {num : Bytes} (hnum : ¬ [13, 10] <:+: num) :
    ¬ [13, 10] <:+: 0 :: form.body num := by
  have hbody : ∀ rest : Bytes, ¬ [13, 10] <:+: rest → ¬ [13, 10] <:+: 0 :: (num ++ 44 :: rest) := by
    intro rest hrest h
    rcases List.infix_cons_iff.mp h with h | h
    · exact absurd (List.cons_prefix_cons.mp h).1 (by decide)
    · exact (infix_append_cons (by decide) h).elim hnum hrest
  cases form with
  | connectOk => exact hbody (ascii "CONNECT OK") (by decide)
  | connectFail => exact hbody (ascii "CONNECT FAIL") (by decide)
  | sendFail => exact hbody (ascii "SEND FAIL") (by decide)
  | closed =>
      intro h
      rcases infix_append_cons (l := 0 :: ascii "CLOSED") (by decide) h with h | h
      · exact absurd h (by decide)
      · exact hnum h

/-- The end sign is not in the line. -/
theorem endSign_notMem_body (form : UrcForm) {num : Bytes} {n : Int} (h : ReadsAs num n)
    {e : UInt8} (he : e = 0 ∨ e = 62) : e = 0 ∨ e ∉ form.body num := by
  rcases he with rfl | rfl
  · exact Or.inl rfl
  · have hnum : (62 : UInt8) ∉ num := notMem_of_readsAs h (by decide)
    refine Or.inr fun hmem => ?_
    cases form with
    | connectOk | connectFail | sendFail =>
        rcases List.mem_append.mp hmem with hmem | hmem
        · exact hnum hmem
        · exact absurd hmem (by decide)
    | closed =>
        rcases List.mem_append.mp hmem with hmem | hmem
        · exact absurd hmem (by decide)
        · exact hnum hmem

/-- **The line on its way through the reader.** A line of a form that fits into the buffer is
read whole, its function is called once, and what the line stands for is all that happens. -/
theorem clientParser_form {env : Env} {form : UrcForm} {num : Bytes} {n : Nat}
    (h : ReadsAs num n) (hattr : Attributes env form num n) {client : AtClient}
    (he : client.endSign = 0 ∨ client.endSign = 62) (hnum : ¬ [13, 10] <:+: num)
    (hfits : (form.line num).length ≤ client.recvBufsz) (rest : Bytes) :
    ∃ func, clientParser urcTable (execUrc env) client (form.line num ++ rest)
      = some (client, .urc func :: (form.effects env n).map .did, rest) := by
  obtain ⟨urc, func, hurc, hfunc, hexec⟩ := hattr
  have h13 : client.endSign ≠ 13 := by
    rcases he with he | he <;> rw [he] <;> decide
  have hline : splitLine client.endSign (form.line num ++ rest) 0
      = some (form.line num, rest) := by
    rw [UrcForm.line, List.append_assoc,
      splitLine_skip _ (crlf_not_infix_body form hnum) (endSign_notMem_body form h he)]
    show Option.map _ (splitLine client.endSign (13 :: 10 :: rest) _) = _
    rw [splitLine_crlf h13]
    rfl
  exact ⟨func, clientParser_of_urc crlfTable_urcTable hline hfits hurc hfunc (hexec rest)⟩

end CarLocator.A9g
