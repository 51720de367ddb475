import CarLocator.A9g.InitThread
import CarLocator.A9g.Resolve
import CarLocator.A9g.SetInfo

/-!
# `CarLocator.A9g.ParseTargets`: the arrays that modem text is parsed into

Seven conversions of the A9G driver write a text of the modem into an array on the stack
without a bound on its length: `%s` takes everything up to white space, `%[^"]` everything
up to a quote. A `ParseTarget` is one of them, with the response it parses and the size of
the array, and `written` are the bytes it writes for an answer of the modem.

Nothing in the response keeps the text short, so it fits exactly when the text itself ends
in time (`written_fits_iff`). An IMEI of 15 digits does not.
-/

set_option autoImplicit false

namespace CarLocator.A9g

open CarLocator.At
open CarLocator.Library

/-- Which line of a response is parsed. -/
inductive LineChoice
  /-- `at_resp_parse_line_args` -/
  | byNumber (respLine : Nat)
  /-- `at_resp_parse_line_args_by_kw` -/
  | byKw (keyword : Bytes)

/-- One conversion of the driver. -/
structure ParseTarget where
  -- the response object
  bufSize : Nat
  lineNum : Nat
  line : LineChoice
  /-- the format up to the conversion -/
  before : List Directive
  /-- `%[^set]`, or `%s` without a set -/
  set : Option Bytes
  /-- the size of the array -/
  size : Nat
  silent : ∀ d ∈ before, d.silent = true
  size_pos : 0 < size

/-- `"%s"` of `AT+GSN` into `iemi[A9G_IEMI_LEN]`. -/
def iemiTarget : ParseTarget where
  bufSize := 32
  lineNum := 0
  line := .byNumber 2
  before := []
  set := none
  size := a9gIemiLen
  silent := by decide
  size_pos := by decide

/-- `"%s"` of `AT+CIFSR` into `ipaddr[IP_ADDR_SIZE_MAX]`. -/
def ipaddrTarget : ParseTarget where
  bufSize := 32
  lineNum := 2
  line := .byKw (ascii ".")
  before := []
  set := none
  size := 16
  silent := by decide
  size_pos := by decide

/-- `"+CREG: %s"` into `parsed_data`. -/
def cregTarget : ParseTarget where
  bufSize := 128
  lineNum := 0
  line := .byKw (ascii "+CREG:")
  before := lits (ascii "+CREG:") ++ [.space]
  set := none
  size := parsedDataSize
  silent := by decide
  size_pos := by decide

/-- `"%s"` of `AT+CGACT` into `parsed_data`. -/
def cgactTarget : ParseTarget where
  bufSize := 128
  lineNum := 0
  line := .byKw (ascii "OK")
  before := []
  set := none
  size := parsedDataSize
  silent := by decide
  size_pos := by decide

/-- `"+CSQ: %s"` into `parsed_data`. -/
def csqTarget : ParseTarget where
  bufSize := 128
  lineNum := 0
  line := .byKw (ascii "+CSQ:")
  before := lits (ascii "+CSQ:") ++ [.space]
  set := none
  size := parsedDataSize
  silent := by decide
  size_pos := by decide

/-- `"+COPS: %*[^\"]\"%[^\"]"` into `parsed_data`. -/
def copsTarget : ParseTarget where
  bufSize := 128
  lineNum := 0
  line := .byKw (ascii "+COPS:")
  before := lits (ascii "+COPS:") ++ [.space, .noneOf [34] false, .lit 34]
  set := some [34]
  size := parsedDataSize
  silent := by decide
  size_pos := by decide

/-- `"%*[^,],%*[^,],\"%[^\"]"` of `AT+CDNSGIP` into `recv_ip`. -/
def recvIpTarget : ParseTarget where
  bufSize := 1024
  lineNum := 3
  line := .byKw cdnsgipKw
  before := [.noneOf [44] false, .lit 44, .noneOf [44] false, .lit 44, .lit 34]
  set := some [34]
  size := recvIpSize
  silent := by decide
  size_pos := by decide

/-- The conversions of the driver. -/
def parseTargets : List ParseTarget :=
  [iemiTarget, ipaddrTarget, cregTarget, cgactTarget, csqTarget, copsTarget, recvIpTarget]

namespace ParseTarget

/-- The directive of the conversion. -/
def conversion (t : ParseTarget) : Directive :=
  match t.set with
  | none => .str true
  | some set => .noneOf set true

/-- The format. -/
def format (t : ParseTarget) : List Directive := t.before ++ [t.conversion]

/-- The line that is parsed, when `lines` come in for the command. There is none when the
command does not succeed. -/
def parsedLine (t : ParseTarget) (lines : List Bytes) : Option Bytes :=
  match atObjExecCmd (atCreateResp t.bufSize t.lineNum) lines with
  | (resp, .ok) =>
    match t.line with
    | .byNumber respLine => (atRespGetLine resp respLine).map cString
    | .byKw keyword => (atRespGetLineByKw resp keyword).map cString
  | _ => none

/-- The bytes written into the array: the text and its NUL. -/
def written (t : ParseTarget) (lines : List Bytes) : Bytes :=
  match t.parsedLine lines with
  | none => []
  | some line =>
    match scan t.format line with
    | some (.str text :: _) => text ++ [0]
    | _ => []

/-- The text, as far as the conversion would read. -/
def textOf (t : ParseTarget) (rest : Bytes) : Bytes :=
  match t.set with
  | none => rest.dropWhile isSpace
  | some _ => rest

/-- The byte belongs to the text. -/
def keeps (t : ParseTarget) (b : UInt8) : Bool :=
  match t.set with
  | none => !isSpace b
  | some set => !set.contains b

/-- **The text ends in time**: from where the conversion begins to read, one of the first `size`
bytes ends it, or the line does. -/
def EndsInTime (t : ParseTarget) (lines : List Bytes) : Prop :=
  ∀ line rest, t.parsedLine lines = some line → skip t.before line = some rest →
    ∃ i < t.size, ∀ b ∈ (t.textOf rest)[i]?, t.keeps b = false

/-- The format assigns what the conversion keeps, unless that is nothing. -/
theorem scan_format (t : ParseTarget) (line : Bytes) :
    scan t.format line = (skip t.before line).elim (some []) fun rest =>
      some (if (t.textOf rest).takeWhile t.keeps = [] then []
        else [.str ((t.textOf rest).takeWhile t.keeps)]) := by
  rw [format, scan_append_of_silent t.silent]
  congr 1
  funext rest
  -- `%s` skips white space first and stops at white space, `%[^set]` does neither.
  rcases hset : t.set with _ | set
  · have hkeeps : t.keeps = fun b => !isSpace b := by
      funext b
      simp only [keeps, hset]
    simp only [conversion, textOf, hkeeps, hset, scan, Directive.apply, scanStr]
    split_ifs <;> rfl
  · have hkeeps : t.keeps = fun b => !set.contains b := by
      funext b
      simp only [keeps, hset]
    simp only [conversion, textOf, hkeeps, hset, scan, Directive.apply, scanStr]
    split_ifs <;> rfl

/-- What is written for a line whose beginning matches. -/
theorem length_written {t : ParseTarget} {lines : List Bytes} {line rest : Bytes}
    (hline : t.parsedLine lines = some line) (hskip : skip t.before line = some rest) :
    (t.written lines).length ≤ t.size ↔ ((t.textOf rest).takeWhile t.keeps).length < t.size := by
  simp only [written, hline, scan_format, hskip, Option.elim_some]
  by_cases hnil : (t.textOf rest).takeWhile t.keeps = []
  · rw [hnil]
    exact iff_of_true (Nat.zero_le _) t.size_pos
  · simp only [if_neg hnil, List.length_append, List.length_singleton]
    exact Nat.succ_le_iff

/-- **The bytes fit into the array** exactly when the text ends in time. -/
theorem written_fits_iff (t : ParseTarget) (lines : List Bytes) :
    (t.written lines).length ≤ t.size ↔ t.EndsInTime lines := by
  cases hline : t.parsedLine lines with
  | none =>
      refine iff_of_true (by simp [written, hline]) fun line rest h => ?_
      rw [hline] at h
      cases h
  | some line =>
      cases hskip : skip t.before line with
      | none =>
          have hnothing : t.written lines = [] := by
            simp only [written, hline, scan_format, hskip, Option.elim_none]
          rw [hnothing]
          refine iff_of_true (Nat.zero_le _) fun line' rest h hs => ?_
          cases hline.symm.trans h
          rw [hskip] at hs
          cases hs
      | some rest =>
          rw [length_written hline hskip, length_takeWhile_lt_iff]
          constructor
          · intro hends line' rest' h hs
            cases hline.symm.trans h
            cases hskip.symm.trans hs
            exact hends
          · exact fun hends => hends line rest hline hskip

end ParseTarget

/-- The conversions of the initialisation. -/
def InitCmd.target : InitCmd → Option ParseTarget
  | .cregQuery => some cregTarget
  | .cgact => some cgactTarget
  | .csq => some csqTarget
  | .copsQuery => some copsTarget
  | _ => none

/-- The parse of an answer in the initialisation is undefined exactly when its text does not
fit into `parsed_data`. -/
theorem parse_undefined_iff {c : InitCmd} {t : ParseTarget} (ht : c.target = some t)
    {lines : List Bytes} (hok : (c.respond lines).2 = .ok) :
    c.parse (c.respond lines).1 = .undefined ↔ ¬ t.EndsInTime lines := by
  -- The four targets are what the initialisation parses, with its response object.
  obtain ⟨keyword, hline, hargs, hresp, hsize⟩ : ∃ keyword, t.line = .byKw keyword ∧
      c.args = some (keyword, t.format) ∧
      c.respond lines = atObjExecCmd (atCreateResp t.bufSize t.lineNum) lines ∧
      t.size = parsedDataSize := by
    cases c <;> cases ht <;> exact ⟨_, rfl, rfl, rfl, rfl⟩
  rw [← t.written_fits_iff lines, ParseTarget.written, ParseTarget.parsedLine, InitCmd.parse, hargs]
  rw [hresp] at hok ⊢
  rcases hexec : atObjExecCmd (atCreateResp t.bufSize t.lineNum) lines with ⟨resp, status⟩
  rw [hexec] at hok
  obtain rfl : status = .ok := hok
  simp only [hline, atRespParseLineArgsByKw]
  cases atRespGetLineByKw resp keyword with
  | none => simp
  | some line =>
      simp only [Option.map_some, t.scan_format]
      cases skip t.before (cString line) with
      | none => simp
      | some rest =>
          simp only [Option.elim_some]
          by_cases hnil : (t.textOf rest).takeWhile t.keeps = []
          · simp [hnil]
          · simp only [if_neg hnil, hsize, List.length_append, List.length_singleton]
            split_ifs with hfits
            · simpa using hfits
            · simpa using hfits

/-- What the modem answers to `AT+GSN`, with an IMEI of 15 digits. -/
def imeiAnswer : List Bytes := [ascii "\r\n", ascii "867567045611532\r\n", ascii "OK\r\n"]

/-- The IMEI and its NUL are 16 bytes, and `iemi` has 15. -/
theorem not_fits_imei :
    iemiTarget ∈ parseTargets ∧ iemiTarget.written imeiAnswer = ascii "867567045611532" ++ [0] ∧
      ¬ (iemiTarget.written imeiAnswer).length ≤ iemiTarget.size := by
  have hwritten : iemiTarget.written imeiAnswer = ascii "867567045611532" ++ [0] := by
    decide +kernel
  rw [hwritten]
  exact ⟨List.mem_cons_self, rfl, by decide⟩

end CarLocator.A9g
