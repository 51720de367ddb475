import CarLocator.Library.Scanf

/-!
# `CarLocator.At.Response`: the response object of the AT client

An `AtResponse` collects the lines that answer a command. `AtResponse.addLine` is the
response branch of `client_parser`: it stores one line and says whether the response is
complete. `atObjExecCmd` is `at_obj_exec_cmd` seen from the wire: the lines that come in
until the response is complete, or the timeout when they end before.

Only the bytes up to `buf_len` are kept as `buf`, since nothing behind them is read.
-/

set_option autoImplicit false

namespace CarLocator.At

open CarLocator.Library

/-- `at_resp_status_t`. -/
inductive AtRespStatus
  | ok
  | error
  | timeout
  | buffFull
  deriving DecidableEq, Repr

/-- `struct at_response`: the stored lines, each ended by a NUL, and the settings. -/
structure AtResponse where
  buf : Bytes
  bufSize : Nat
  lineNum : Nat
  lineCounts : Nat
  deriving DecidableEq, Repr

/-- `at_create_resp`. -/
def atCreateResp (bufSize lineNum : Nat) : AtResponse := ⟨[], bufSize, lineNum, 0⟩

/-- `at_resp_set_info` with an unchanged buffer size, as all its callers use it. -/
def atRespSetInfo (resp : AtResponse) (lineNum : Nat) : AtResponse :=
  { resp with lineNum := lineNum }

/-- A line stored into the response. The last byte of the line is overwritten by the
NUL. -/
def AtResponse.store (resp : AtResponse) (status : AtRespStatus) (line : Bytes) :
    AtResponse × AtRespStatus :=
  if resp.buf.length + line.length < resp.bufSize then
    ({ resp with buf := resp.buf ++ line, lineCounts := resp.lineCounts + 1 }, status)
  else (resp, .buffFull)

/-- The response branch of `client_parser`. The flag says that the response is complete,
so that `resp_notice` is released. -/
def AtResponse.addLine (resp : AtResponse) (status : AtRespStatus) (line : Bytes) :
    AtResponse × AtRespStatus × Bool :=
  let line := line.dropLast ++ [0]
  let (resp, status) := resp.store status line
  if ascii "OK" <+: line ∧ resp.lineNum = 0 then (resp, .ok, true)
  else if (strstr (ascii "ERROR") line).isSome ∨ ascii "FAIL" <+: line then
    (resp, .error, true)
  else if resp.lineCounts = resp.lineNum ∧ resp.lineNum ≠ 0 then (resp, .ok, true)
  else (resp, status, false)

/-- The lines of a pending response, until it is complete. -/
def collect (resp : AtResponse) (status : AtRespStatus) :
    List Bytes → AtResponse × AtRespStatus
  | [] => (resp, .timeout)
  | line :: lines =>
    let (resp, status, complete) := resp.addLine status line
    if complete then (resp, status) else collect resp status lines

/-- `at_obj_exec_cmd` with a response object, when `lines` come in before the timeout. -/
def atObjExecCmd (resp : AtResponse) (lines : List Bytes) : AtResponse × AtRespStatus :=
  collect { resp with buf := [], lineCounts := 0 } .ok lines

/-- The loop of `at_resp_get_line_by_kw` over `n` stored lines. -/
def lineByKw (keyword : Bytes) : Nat → Bytes → Option Bytes
  | 0, _ => none
  | n + 1, buf =>
    if (strstr keyword buf).isSome then some buf
    else lineByKw keyword n (buf.drop ((cString buf).length + 1))

/-- The first `n` texts of a buffer. -/
def texts : Nat → Bytes → List Bytes
  | 0, _ => []
  | n + 1, buf => cString buf :: texts n (buf.drop ((cString buf).length + 1))

/-- The lines of a response. -/
def AtResponse.lines (resp : AtResponse) : List Bytes := texts resp.lineCounts resp.buf

/-- `at_resp_get_line_by_kw`: the first stored line with the keyword in it. -/
def atRespGetLineByKw (resp : AtResponse) (keyword : Bytes) : Option Bytes :=
  lineByKw keyword resp.lineCounts resp.buf

/-- The buffer from its text `n` on. -/
def dropTexts : Nat → Bytes → Bytes
  | 0, buf => buf
  | n + 1, buf => dropTexts n (buf.drop ((cString buf).length + 1))

/-- `at_resp_get_line`, with lines numbered from 1. -/
def atRespGetLine (resp : AtResponse) (respLine : Nat) : Option Bytes :=
  if respLine > resp.lineCounts ∨ respLine = 0 then none
  else some (dropTexts (respLine - 1) resp.buf)

/-- `at_resp_parse_line_args_by_kw`: the values assigned, in order. -/
def atRespParseLineArgsByKw (resp : AtResponse) (keyword : Bytes)
    (respExpr : List Directive) : Option (List Scanned) :=
  match atRespGetLineByKw resp keyword with
  | none => some []
  | some line => scan respExpr (cString line)

/-- The line that is found is one of the response, with the keyword in it. -/
theorem mem_lines_of_lineByKw {resp : AtResponse} {keyword line : Bytes}
    (h0 : (0 : UInt8) ∉ keyword) (h : atRespGetLineByKw resp keyword = some line) :
    cString line ∈ resp.lines ∧ keyword <:+: cString line := by
  have hloop : ∀ n buf, lineByKw keyword n buf = some line →
      cString line ∈ texts n buf ∧ (strstr keyword line).isSome := by
    intro n
    induction n with
    | zero => exact fun buf h => by cases h
    | succ n ih =>
        intro buf h
        rw [lineByKw] at h
        split at h
        · rename_i hfound
          cases h
          exact ⟨List.mem_cons_self, hfound⟩
        · exact (ih _ h).imp_left (List.mem_cons_of_mem _)
  obtain ⟨hmem, hfound⟩ := hloop _ _ h
  exact ⟨hmem, infix_cString_of_strstr h0 hfound⟩

/-- There is no NUL in a line. -/
theorem zero_notMem_of_mem_lines {resp : AtResponse} {line : Bytes} (h : line ∈ resp.lines) :
    (0 : UInt8) ∉ line := by
  have hloop : ∀ n buf, line ∈ texts n buf → (0 : UInt8) ∉ line := by
    intro n
    induction n with
    | zero => exact fun buf h => by cases h
    | succ n ih =>
        intro buf h
        rcases List.mem_cons.mp h with rfl | h
        · exact zero_notMem_cString buf
        · exact ih _ h
  exact hloop _ _ h

/-- Storing a line does not change how many lines are waited for. -/
theorem store_lineNum (resp : AtResponse) (status : AtRespStatus) (line : Bytes) :
    (resp.store status line).1.lineNum = resp.lineNum := by
  rw [AtResponse.store]
  split <;> rfl

/-- A line that does not start with `OK`, in a response without a number of lines: an error,
or the response goes on. -/
theorem addLine_of_not_ok {resp : AtResponse} (hnum : resp.lineNum = 0)
    {status : AtRespStatus} {line : Bytes} (hok : ¬ ascii "OK" <+: line.dropLast ++ [0]) :
    ∃ resp', resp.addLine status line = (resp', .error, true) ∨
      ∃ status', resp'.lineNum = 0 ∧ resp.addLine status line = (resp', status', false) := by
  have hstore := (store_lineNum resp status (line.dropLast ++ [0])).trans hnum
  refine ⟨(resp.store status (line.dropLast ++ [0])).1, ?_⟩
  simp only [AtResponse.addLine]
  rw [if_neg fun hc => hok hc.1]
  split
  · exact Or.inl rfl
  · rw [if_neg fun hc => hc.2 hstore]
    exact Or.inr ⟨_, hstore, rfl⟩

/-- A response without a number of lines ends well only with an `OK` line. -/
theorem ok_of_collect {resp : AtResponse} (hnum : resp.lineNum = 0) {status : AtRespStatus}
    {lines : List Bytes} (h : (collect resp status lines).2 = .ok) :
    ∃ line ∈ lines, ascii "OK" <+: line := by
  induction lines generalizing resp status with
  | nil => cases h
  | cons line lines ih =>
      by_cases hok : ascii "OK" <+: line.dropLast ++ [0]
      · -- The NUL that replaces the last byte is not a byte of the keyword.
        have hpre := prefix_of_prefix_append_cons (by decide) hok
        exact ⟨line, List.mem_cons_self, hpre.trans (List.dropLast_prefix line)⟩
      · obtain ⟨resp', hadd | ⟨status', hnum', hadd⟩⟩ := @addLine_of_not_ok _ hnum status _ hok
        · rw [collect, hadd] at h
          cases h
        · rw [collect, hadd] at h
          obtain ⟨line', hmem, hpre⟩ := ih hnum' h
          exact ⟨line', List.mem_cons_of_mem _ hmem, hpre⟩

end CarLocator.At
