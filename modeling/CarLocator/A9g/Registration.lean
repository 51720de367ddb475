import CarLocator.A9g.InitThread

/-!
# `CarLocator.A9g.Registration`: the two registration checks

The answer to `AT+CREG?` is looked at in two places. `a9g_init_thread_entry` reads the word
behind `+CREG:` and accepts `1,1` and `1,5` (`cregRegistered`). `check_link_status_entry` reads
two numbers and takes the link for up when the second one is 1 (`linkStatus`).

`checksAgree_iff` says for which responses the two come to the same: the word fits into
`parsed_data`, it is not the `1,5` of a roaming module, and a second number that is 1 is the one
of the word `1,1`. So the first poll takes a roaming module down that the initialisation has
accepted, and a module that reports with another mode, or with a location, is only accepted by
the poll.
-/

set_option autoImplicit false

namespace CarLocator.A9g

open CarLocator.At
open CarLocator.Library

/-! ### The checks -/

/-- `"+CREG: %d,%d"` behind the tag. -/
def linkStatusExpr : List Directive := [.space, .int true, .lit 44, .int true]

/-- `A9G_LINK_STATUS_OK`. -/
def a9gLinkStatusOk : Int := 1

/-- `link_status` after the parse in `check_link_status_entry`: -1, or the second number. -/
def linkStatus (resp : AtResponse) : Option Int :=
  (atRespParseLineArgsByKw resp (ascii "+CREG:") (lits (ascii "+CREG:") ++ linkStatusExpr)).map
    fun
      | [.int _, .int status] => status
      | _ => -1

/-- The link after a round of `check_link_status_entry` whose command succeeds. -/
def checkLinkStatus (resp : AtResponse) (linkUp : Bool) : Option Bool :=
  (linkStatus resp).map fun status =>
    if decide (a9gLinkStatusOk = status) ≠ linkUp then decide (a9gLinkStatusOk = status)
    else linkUp

/-- `parsed_data` after a parse, when it was cleared before. -/
def Reading.parsedData : Reading → Option Bytes
  | .undefined => none
  | .text word => some word
  | .nothing | .number _ => some []

/-- The module is registered for `a9g_init_thread_entry`. -/
def cregRegistered (resp : AtResponse) : Option Bool :=
  (InitCmd.cregQuery.parse resp).parsedData.map fun data =>
    decide (data = ascii "1,1" ∨ data = ascii "1,5")

/-- A round of the registration check of `a9g_init_thread_entry`. -/
def cregRound (answer : InitCmd → Nat → List Bytes) : InitM Bool := do
  query answer .cregQuery
  let s ← get
  pure (decide (s.parsedData = ascii "1,1" ∨ s.parsedData = ascii "1,5"))

/-- The registration check is its rounds. -/
theorem cregCheck_eq (answer : InitCmd → Nat → List Bytes) :
    cregCheck answer = (do
      let registered ← retry cregRetry (cregRound answer)
      if registered then pure () else throw .exitError) := rfl

/-- A round from a cleared `parsed_data` is `cregRegistered`. -/
theorem cregRound_exec (answer : InitCmd → Nat → List Bytes) (s : InitState)
    (hs : s.parsedData = [])
    (hok : (InitCmd.cregQuery.respond (answer .cregQuery (s.issued .cregQuery))).2 = .ok) :
    ((cregRound answer).exec s).1
      = match cregRegistered
          (InitCmd.cregQuery.respond (answer .cregQuery (s.issued .cregQuery))).1 with
        | none => .error .fault
        | some registered => .ok registered := by
  have hsend : (atSendCmd answer .cregQuery).exec s
      = (.ok (InitCmd.cregQuery.respond (answer .cregQuery (s.issued .cregQuery))).1,
        s.issue .cregQuery) := by
    -- a command that succeeds hands its response on
    show ((if (InitCmd.cregQuery.respond _).2 = AtRespStatus.ok then pure _
      else throw .exitError : InitM AtResponse)).exec (s.issue .cregQuery) = _
    rw [if_pos hok]
    rfl
  have hissue : (s.issue .cregQuery).parsedData = [] := hs
  rw [cregRound, exec_bind, query, exec_bind, hsend, cregRegistered]
  simp only
  cases InitCmd.cregQuery.parse
      (InitCmd.cregQuery.respond (answer .cregQuery (s.issued .cregQuery))).1 with
  | undefined => rfl
  | nothing =>
      show Except.ok (decide ((s.issue .cregQuery).parsedData = _ ∨ _)) = _
      rw [hissue]
      rfl
  | text word => rfl
  | number v =>
      show Except.ok (decide ((s.issue .cregQuery).parsedData = _ ∨ _)) = _
      rw [hissue]
      rfl

/-! ### What the answer says -/

/-- The two checks come to the same, whatever the link was. -/
def ChecksAgree (resp : AtResponse) : Prop :=
  ∀ linkUp, ∃ up, checkLinkStatus resp linkUp = some up ∧ cregRegistered resp = some up

/-- The text behind the tag, if the line that is found starts with the tag. -/
def tagText (resp : AtResponse) : Option Bytes :=
  (atRespGetLineByKw resp (ascii "+CREG:")).bind fun line =>
    if ascii "+CREG:" <+: cString line then some ((cString line).drop 6) else none

/-- The first word of a text. -/
def firstWord (text : Bytes) : Bytes := (text.dropWhile isSpace).takeWhile fun b => !isSpace b

/-- The texts on which the checks agree. -/
structure SameVerdict (text : Bytes) : Prop where
  fits : (firstWord text).length < parsedDataSize
  not_roaming : firstWord text ≠ ascii "1,5"
  status : ∀ (mode status : IntText) (tail : Bytes),
    text = mode.text ++ 44 :: (status.text ++ tail) → (∀ b ∈ tail.head?, isDigit b = false) →
      fitsInt status.value ∧ (status.value = 1 → firstWord text = ascii "1,1")

/-! ### The two formats behind the tag -/

/-- A format that starts with the tag gets the text behind it. -/
theorem parse_tag (resp : AtResponse) (format : List Directive) :
    atRespParseLineArgsByKw resp (ascii "+CREG:") (lits (ascii "+CREG:") ++ format)
      = (tagText resp).elim (some []) (scan format) := by
  rw [atRespParseLineArgsByKw, tagText]
  cases atRespGetLineByKw resp (ascii "+CREG:") with
  | none => rfl
  | some line =>
      rw [Option.bind_some]
      by_cases hpre : ascii "+CREG:" <+: cString line
      · obtain ⟨text, htext⟩ := hpre
        rw [if_pos ⟨text, htext⟩]
        show scan _ (cString line) = scan format ((cString line).drop 6)
        rw [← htext, scan_lits]
        rfl
      · rw [if_neg hpre]
        exact scan_lits_of_not_prefix hpre format

/-- `" %s"` reads the first word. -/
theorem scan_word (text : Bytes) :
    scan [.space, .str true] text
      = some (if firstWord text = [] then [] else [.str (firstWord text)]) := by
  have hword : (text.dropWhile isSpace).takeWhile (fun b => !isSpace b) = firstWord text := rfl
  simp only [scan, Directive.apply, scanStr, dropWhile_dropWhile_isSpace, hword]
  by_cases hempty : firstWord text = []
  · rw [if_pos hempty, if_pos hempty]
    rfl
  · rw [if_neg hempty, if_neg hempty]
    rfl

/-- What `a9g_init_thread_entry` says of a text. -/
theorem cregRegistered_text {resp : AtResponse} {text : Bytes} (h : tagText resp = some text) :
    cregRegistered resp = if (firstWord text).length < parsedDataSize then
      some (decide (firstWord text = ascii "1,1" ∨ firstWord text = ascii "1,5")) else none := by
  have hargs : InitCmd.cregQuery.args
      = some (ascii "+CREG:", lits (ascii "+CREG:") ++ [.space, .str true]) := rfl
  have hparse := parse_tag resp [.space, .str true]
  rw [h, Option.elim_some, scan_word] at hparse
  simp only [cregRegistered, InitCmd.parse, hargs, hparse]
  by_cases hempty : firstWord text = []
  · rw [if_pos hempty, hempty]
    rfl
  · rw [if_neg hempty]
    simp only
    split <;> rfl

/-- What `check_link_status_entry` reads from a text. -/
theorem linkStatus_text {resp : AtResponse} {text : Bytes} (h : tagText resp = some text) :
    linkStatus resp = (scan linkStatusExpr text).map fun
      | [.int _, .int status] => status
      | _ => -1 := by
  rw [linkStatus, parse_tag, h]
  rfl

/-- Two numbers with a comma between them. -/
theorem scan_two (mode status : IntText) {tail : Bytes}
    (htail : ∀ b ∈ tail.head?, isDigit b = false) :
    scan linkStatusExpr (mode.text ++ 44 :: (status.text ++ tail))
      = if fitsInt mode.value ∧ fitsInt status.value then
          some [.int mode.value, .int status.value] else none := by
  have hcomma : ∀ rest : Bytes, ∀ b ∈ (44 :: rest).head?, isDigit b = false := by
    intro rest b hb
    rw [← Option.some.inj hb]
    rfl
  rw [linkStatusExpr, scan_space_int, scan_int_intText mode (hcomma _), scan_lit,
    scan_int_intText status htail]
  by_cases hmode : fitsInt mode.value
  · by_cases hstatus : fitsInt status.value
    · rw [if_pos hmode, if_pos hstatus, if_pos ⟨hmode, hstatus⟩]
      rfl
    · rw [if_pos hmode, if_neg hstatus, if_neg fun h => hstatus h.2]
      rfl
  · rw [if_neg hmode, if_neg fun h => hmode h.1]

/-- A word that fits into `parsed_data` starts with a number that fits into an `int`. -/
theorem fitsInt_mode {text : Bytes} (h : (firstWord text).length < parsedDataSize) (mode : IntText)
    {rest : Bytes} (htext : text = mode.text ++ rest) : fitsInt mode.value := by
  have hword : firstWord text
      = mode.sign ++ mode.digits ++ rest.takeWhile fun b => !isSpace b := by
    rw [firstWord, htext, mode.dropWhile_text]
    exact List.takeWhile_append_of_pos fun b hb => by simp [mode.not_space hb]
  have hlen : mode.digits.length ≤ 9 := by
    rw [hword, List.length_append, List.length_append] at h
    have hsize : parsedDataSize = 10 := rfl
    omega
  have hval := decVal_lt mode.digits mode.digits_bytes
  have hpow : 10 ^ mode.digits.length ≤ 10 ^ 9 := Nat.pow_le_pow_right (by decide) hlen
  unfold fitsInt IntText.value
  split <;> omega

/-- A word of the form `1,d`. -/
theorem scan_pair {text : Bytes} {d : UInt8} (hd : isDigit d = true)
    (h : firstWord text = [49, 44, d]) :
    ∃ (mode status : IntText) (tail : Bytes), text = mode.text ++ 44 :: (status.text ++ tail)
      ∧ (∀ b ∈ tail.head?, isDigit b = false) ∧ mode.value = 1
      ∧ status.value = digitVal d := by
  have hsplit : text = text.takeWhile isSpace ++ (firstWord text
      ++ (text.dropWhile isSpace).dropWhile fun b => !isSpace b) := by
    rw [firstWord, List.takeWhile_append_dropWhile, List.takeWhile_append_dropWhile]
  refine ⟨⟨text.takeWhile isSpace, [], [49], fun b hb => List.mem_takeWhile_imp hb, Or.inl rfl,
    by decide, by decide⟩, ⟨[], [], [d], by simp, Or.inl rfl, by simp, by simpa using hd⟩,
    (text.dropWhile isSpace).dropWhile fun b => !isSpace b, ?_, fun b hb => ?_, rfl, ?_⟩
  · rw [h] at hsplit
    simpa [IntText.text] using hsplit
  · have hnot := List.head?_dropWhile_not (fun b => !isSpace b) (text.dropWhile isSpace)
    rw [Option.mem_def.mp hb] at hnot
    by_contra hdig
    rw [Bool.not_eq_false] at hdig
    simp [isSpace_of_isDigit hdig] at hnot
  · exact (if_neg (show ¬ ([] : Bytes) = [45] by decide)).trans (by rw [decVal_singleton])

/-- The link status of a word `1,d`. -/
theorem linkStatus_pair {resp : AtResponse} {text : Bytes} (h : tagText resp = some text)
    {d : UInt8} (hd : isDigit d = true) (hword : firstWord text = [49, 44, d]) :
    linkStatus resp = some (digitVal d) := by
  obtain ⟨mode, status, tail, rfl, htail, hmode, hstatus⟩ := scan_pair hd hword
  have hfits : fitsInt (digitVal d : Int) := by
    have hlt := digitVal_lt hd
    unfold fitsInt
    omega
  rw [linkStatus_text h, scan_two mode status htail, hmode, hstatus,
    if_pos ⟨by decide, hfits⟩]
  rfl

/-- The link status of any other text that the checks agree on. -/
theorem linkStatus_other {resp : AtResponse} {text : Bytes} (h : tagText resp = some text)
    (hs : SameVerdict text) (hword : firstWord text ≠ ascii "1,1") :
    ∃ status, linkStatus resp = some status ∧ status ≠ 1 := by
  rw [linkStatus_text h, linkStatusExpr, scan_space_int]
  rcases scanInt_cases text with hstop | ⟨mode, rest, rfl, hrest⟩
  · -- no number
    rw [scan_int_stop hstop]
    exact ⟨-1, rfl, by decide⟩
  have hmode := fitsInt_mode hs.fits mode rfl
  rw [scan_int_intText mode hrest, if_pos hmode]
  by_cases hcomma : [44] <+: rest
  · obtain ⟨rest', rfl⟩ := hcomma
    rw [List.singleton_append, scan_lit]
    rcases scanInt_cases rest' with hstop | ⟨status, tail, rfl, htail⟩
    · -- no number behind the comma
      rw [scan_int_stop hstop]
      exact ⟨-1, rfl, by decide⟩
    · obtain ⟨hfits, hone⟩ := hs.status mode status tail rfl htail
      -- Two numbers, and the second one is 1 only in the word `1,1`.
      rw [scan_int_intText status htail, if_pos hfits]
      exact ⟨status.value, rfl, fun h1 => hword (hone h1)⟩
  · -- no comma
    have hlit : scan [.lit 44, .int true] rest = some [] :=
      scan_lits_of_not_prefix hcomma [.int true]
    rw [hlit]
    exact ⟨-1, rfl, by decide⟩

/-- The link after a check. -/
theorem checkLinkStatus_eq (resp : AtResponse) (linkUp : Bool) :
    checkLinkStatus resp linkUp = (linkStatus resp).map fun status => decide (status = 1) := by
  rw [checkLinkStatus]
  cases linkStatus resp with
  | none => rfl
  | some status =>
      have hcomm : decide (a9gLinkStatusOk = status) = decide (status = 1) :=
        decide_eq_decide.mpr eq_comm
      simp only [Option.map_some, hcomm]
      split
      · rfl
      · rename_i hsame
        rw [not_not.mp hsame]

/-- Without a text behind the tag neither check sees a registration. -/
theorem checks_of_noText {resp : AtResponse} (h : tagText resp = none) :
    linkStatus resp = some (-1) ∧ cregRegistered resp = some false := by
  constructor
  · rw [linkStatus, parse_tag, h]
    rfl
  · have hparse := parse_tag resp [.space, .str true]
    rw [h, Option.elim_none] at hparse
    rw [cregRegistered, InitCmd.parse]
    simp only [InitCmd.args, hparse]
    rfl

/-- What an agreement says about the text. -/
theorem sameVerdict_of_agree {resp : AtResponse} {text : Bytes} (h : tagText resp = some text)
    {up : Bool} (hlink : (linkStatus resp).map (fun status => decide (status = 1)) = some up)
    (hcreg : cregRegistered resp = some up) : SameVerdict text := by
  rw [cregRegistered_text h] at hcreg
  split at hcreg
  · rename_i hfits
    rw [← Option.some.inj hcreg] at hlink
    -- The poll reads a 5 there, the initialisation accepts it.
    have hroaming : firstWord text ≠ ascii "1,5" := by
      intro hword
      have hfive := linkStatus_pair h (d := 53) (by decide) hword
      rw [hfive, hword] at hlink
      exact absurd (Option.some.inj hlink) (by decide)
    refine ⟨hfits, hroaming, fun mode status tail htext htail => ?_⟩
    rw [linkStatus_text h, htext, scan_two mode status htail, ← htext] at hlink
    split at hlink
    · rename_i hboth
      refine ⟨hboth.2, fun hone => ?_⟩
      have hword := decide_eq_decide.mp (Option.some.inj hlink)
      exact (hword.mp hone).resolve_right hroaming
    · cases hlink
  · cases hcreg

/-- **When the two registration checks agree.** -/
theorem checksAgree_iff (resp : AtResponse) :
    ChecksAgree resp ↔ ∀ text, tagText resp = some text → SameVerdict text := by
  simp only [ChecksAgree, checkLinkStatus_eq, forall_const]
  cases htext : tagText resp with
  | none =>
      obtain ⟨hlink, hcreg⟩ := checks_of_noText htext
      refine iff_of_true ⟨false, ?_, hcreg⟩ fun text h => by cases h
      rw [hlink]
      rfl
  | some text =>
      constructor
      · rintro ⟨up, hlink, hcreg⟩ text' h
        cases h
        exact sameVerdict_of_agree htext hlink hcreg
      · intro h
        have hs := h text rfl
        rw [cregRegistered_text htext, if_pos hs.fits]
        refine ⟨_, ?_, rfl⟩
        by_cases hword : firstWord text = ascii "1,1"
        · rw [linkStatus_pair htext (d := 49) (by decide) hword, hword]
          rfl
        · obtain ⟨status, hstatus, hne⟩ := linkStatus_other htext hs hword
          have hnot : ¬ (firstWord text = ascii "1,1" ∨ firstWord text = ascii "1,5") :=
            not_or.mpr ⟨hword, hs.not_roaming⟩
          rw [hstatus, Option.map_some, decide_eq_false hne, decide_eq_false hnot]

/-- The answer of a module that is registered and roams. -/
def roamingResponse : AtResponse :=
  (InitCmd.cregQuery.respond [ascii "+CREG: 1,5\r\n", ascii "OK\r\n"]).1

/-- The initialisation accepts it, and the first poll takes the link down. -/
theorem not_checksAgree_roaming :
    cregRegistered roamingResponse = some true ∧ checkLinkStatus roamingResponse true = some false
      ∧ ¬ ChecksAgree roamingResponse := by
  have hcreg : cregRegistered roamingResponse = some true := by decide +kernel
  have hlink : checkLinkStatus roamingResponse true = some false := by decide +kernel
  refine ⟨hcreg, hlink, fun h => ?_⟩
  obtain ⟨up, hup, hreg⟩ := h true
  rw [hlink] at hup
  rw [hcreg] at hreg
  exact absurd (hup.trans hreg.symm) (by decide)

end CarLocator.A9g
