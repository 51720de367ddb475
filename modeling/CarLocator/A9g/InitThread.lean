import CarLocator.At.Response
import CarLocator.Library.Hoare

/-!
# `CarLocator.A9g.InitThread`: the initialisation of the A9G device

`a9g_init_thread_entry` with its five attempts. The modem is given by the lines it sends
after each command (`InitAnswers`), for every attempt, command and repetition of that
command: any lines, complete or cut off by the timeout. An attempt is a program over
`parsed_data`, `qimux` and the number of times each command was issued.

`Established` collects what a successful initialisation stands for. `parsed_data` and
`qimux` are not reset between the checks, and whether a parse has matched is not looked
at, so a value from an earlier answer can pass a later check. `established_iff` says when
it does not.

A text that does not fit into `parsed_data`, or a number that does not fit into an `int`,
is undefined behaviour and stops the model (`Stop.fault`).
-/

set_option autoImplicit false

namespace CarLocator.A9g

open CarLocator.At
open CarLocator.Library

/-- `INIT_RETRY` and its siblings. -/
def initRetry : Nat := 5
def cpinRetry : Nat := 10
def csqRetry : Nat := 10
def cregRetry : Nat := 10
def cgregRetry : Nat := 20

/-- `sizeof(parsed_data)`. -/
def parsedDataSize : Nat := 10

/-- The commands of the initialisation. -/
inductive InitCmd
  | ate0
  | ati
  | ccid
  | rst
  | cregQuery
  -- `AT+CGATT=0` and `AT+CGATT=1`
  | cgattOff
  | cgattOn
  | cgdcont
  | cgact
  | csq
  -- `AT+CIPMUX?` and `AT+CIPMUX=1`
  | cipmuxQuery
  | cipmuxOn
  | copsQuery
  -- `CSTT_CHINA_MOBILE`, `CSTT_CHINA_UNICOM` and `CSTT_CHINA_TELECOM`
  | csttMobile
  | csttUnicom
  | csttTelecom
  | cifsr
  -- `AT+GPS?` and `AT+GPS=1`
  | gpsQuery
  | gpsOn
  deriving DecidableEq, Repr

/-- The `resp_line` of a command: 0 for a response that ends with `OK`. -/
def InitCmd.respLine : InitCmd → Nat
  | .ati => 5
  | .ccid | .cifsr => 2
  | _ => 0

/-- The keyword and the format with which the answer to a command is parsed. -/
def InitCmd.args : InitCmd → Option (Bytes × List Directive)
  | .cregQuery => some (ascii "+CREG:", lits (ascii "+CREG:") ++ [.space, .str true])
  | .cgact => some (ascii "OK", [.str true])
  | .csq => some (ascii "+CSQ:", lits (ascii "+CSQ:") ++ [.space, .str true])
  | .cipmuxQuery => some (ascii "+CIPMUX:", lits (ascii "+CIPMUX:") ++ [.int true])
  | .copsQuery =>
    some (ascii "+COPS:", lits (ascii "+COPS:")
      ++ [.space, .noneOf [34] false, .lit 34, .noneOf [34] true])
  | .gpsQuery => some (ascii "+GPS:", lits (ascii "+GPS:") ++ [.space, .int true])
  | _ => none

/-- The response to a command and its status, when `lines` come in. -/
def InitCmd.respond (c : InitCmd) (lines : List Bytes) : AtResponse × AtRespStatus :=
  atObjExecCmd (atRespSetInfo (atCreateResp 128 0) c.respLine) lines

/-- What the parse of a response assigns. -/
inductive Reading
  /-- the behaviour is undefined -/
  | undefined
  /-- nothing, because no line has the keyword or the format does not match -/
  | nothing
  /-- a text to `parsed_data` -/
  | text (word : Bytes)
  /-- a number to `qimux` -/
  | number (v : Int)
  deriving DecidableEq, Repr

/-- `at_resp_parse_line_args_by_kw` on the response to a command. -/
def InitCmd.parse (c : InitCmd) (resp : AtResponse) : Reading :=
  match c.args with
  | none => .nothing
  | some (keyword, respExpr) =>
    match atRespParseLineArgsByKw resp keyword respExpr with
    | none => .undefined
    | some (.str word :: _) => if word.length < parsedDataSize then .text word else .undefined
    | some (.int v :: _) => .number v
    | some [] => .nothing

/-- Why an attempt ends early. -/
inductive Stop
  /-- `goto __exit` with `-RT_ERROR` or `-RT_ETIMEOUT` -/
  | exitError
  | exitTimeout
  | fault
  deriving DecidableEq, Repr

/-- The variables of an attempt. -/
structure InitState where
  parsedData : Bytes
  qimux : Int
  /-- how often each command has been issued in this attempt -/
  issued : InitCmd → Nat

/-- A part of an attempt. -/
abbrev InitM := Prog Stop InitState

/-- The variables when an attempt begins: `parsed_data` is cleared, `qimux` is not. -/
def initState (qimux : Int) : InitState := ⟨[], qimux, fun _ => 0⟩

/-- The commands issued, with one more. -/
def InitState.issue (s : InitState) (c : InitCmd) : InitState :=
  { s with issued := Function.update s.issued c (s.issued c + 1) }

section Attempt

-- The lines that come in after the `n`-th time a command is issued.
variable (answer : InitCmd → Nat → List Bytes)

/-- `at_obj_exec_cmd`. -/
def execCmd (c : InitCmd) : InitM (AtResponse × AtRespStatus) := do
  let s ← get
  set (s.issue c)
  pure (c.respond (answer c (s.issued c)))

/-- `AT_SEND_CMD`. -/
def atSendCmd (c : InitCmd) : InitM AtResponse := do
  let (resp, status) ← execCmd answer c
  if status = .ok then pure resp else throw .exitError

/-- The assignment of a parse. -/
def assign : Reading → InitM Unit
  | .undefined => throw .fault
  | .nothing => pure ()
  | .text word => modify ({ · with parsedData := word })
  | .number v => modify ({ · with qimux := v })

/-- `AT_SEND_CMD` and the parse of its response. -/
def query (c : InitCmd) : InitM Unit := do
  let resp ← atSendCmd answer c
  assign (c.parse resp)

/-- Check SIM card. -/
def ccidCheck : InitM Unit := do
  let seen ← retry cpinRetry do
    let resp ← atSendCmd answer .ccid
    pure (atRespGetLineByKw resp (ascii "+CCID:")).isSome
  if seen then pure () else throw .exitError

/-- Check the GSM network is registered. -/
def cregCheck : InitM Unit := do
  let registered ← retry cregRetry do
    query answer .cregQuery
    let s ← get
    pure (decide (s.parsedData = ascii "1,1" ∨ s.parsedData = ascii "1,5"))
  if registered then pure () else throw .exitError

/-- The loop that repeats `AT+CGATT` until it succeeds, or not. -/
def cgatt (c : InitCmd) : InitM Bool :=
  retry initRetry do
    let (_, status) ← execCmd answer c
    pure (decide (status = .ok))

/-- Check the GPRS network is registered. -/
def cgactCheck : InitM Unit := do
  let registered ← retry cgregRetry do
    let _ ← cgatt answer .cgattOn
    let _ ← atSendCmd answer .cgdcont
    query answer .cgact
    let s ← get
    pure (decide (s.parsedData = ascii "OK"))
  if registered then pure () else throw .exitError

/-- Check signal strength. -/
def csqCheck : InitM Unit := do
  let signal ← retry csqRetry do
    query answer .csq
    let s ← get
    pure (decide (s.parsedData ≠ ascii "99,99"))
  if signal then pure () else throw .exitError

/-- Ask with `c` whether a function is on, and if not, switch it on with `c'`. -/
def switchOn (c c' : InitCmd) : InitM Unit := do
  query answer c
  let s ← get
  if s.qimux = 0 then
    let _ ← atSendCmd answer c'
    pure ()
  else pure ()

/-- Set to multiple connections. -/
def cipmuxCheck : InitM Unit := switchOn answer .cipmuxQuery .cipmuxOn

/-- The network operator and its `AT+CSTT`. -/
def copsCheck : InitM Unit := do
  query answer .copsQuery
  let s ← get
  if s.parsedData = ascii "CHINA MOBILE" then
    let _ ← atSendCmd answer .csttMobile
    pure ()
  else if s.parsedData = ascii "CHN-UNICOM" then
    let _ ← atSendCmd answer .csttUnicom
    pure ()
  else if s.parsedData = ascii "CHN-CT" then
    let _ ← atSendCmd answer .csttTelecom
    pure ()
  else pure ()

/-- The local address. -/
def cifsrCheck : InitM Unit := do
  let resp ← atSendCmd answer .cifsr
  if atRespGetLineByKw resp (ascii "ERROR") ≠ none then throw .exitError else pure ()

/-- Switch the GPS on. -/
def gpsCheck : InitM Unit := switchOn answer .gpsQuery .gpsOn

/-- Wait a9g startup finish, with the result of `at_client_obj_wait_connect`. -/
def waitConnect (connected : Bool) : InitM Unit :=
  if connected then pure () else throw .exitTimeout

/-- One round of the loop of `a9g_init_thread_entry`, up to the GPS. -/
def attemptNetwork (connected : Bool) : InitM Unit := do
  waitConnect connected
  let _ ← atSendCmd answer .ate0
  let _ ← atSendCmd answer .ati
  ccidCheck answer
  let _ ← atSendCmd answer .rst
  cregCheck answer
  let _ ← cgatt answer .cgattOff
  cgactCheck answer
  csqCheck answer
  cipmuxCheck answer
  copsCheck answer
  cifsrCheck answer

/-- One round of the loop of `a9g_init_thread_entry`. -/
def attempt (connected : Bool) : InitM Unit := do
  attemptNetwork answer connected
  gpsCheck answer

end Attempt

/-- What the modem and the heap answer to `a9g_init_thread_entry`. -/
structure InitAnswers where
  -- there is memory for the response object
  createResp : Bool
  -- `at_client_obj_wait_connect` succeeds in attempt `k`
  connects : Nat → Bool
  -- the lines after the `n`-th time a command is issued in attempt `k`
  lines : Nat → InitCmd → Nat → List Bytes

/-- How the loop of attempts has ended. -/
inductive InitResult
  | eok
  | error
  | etimeout
  | enomem
  | fault
  deriving DecidableEq, Repr

/-- An attempt with what came of it. -/
structure Attempt where
  -- the number of the attempt
  index : Nat
  -- what `qimux` holds when it begins
  held : Int
  -- the commands it has issued
  issued : InitCmd → Nat

/-- The loop of `a9g_init_thread_entry` from attempt `k` on, with `qimux` and `result` as the
attempts before have left them. -/
def initLoop (a : InitAnswers) : (retryNum k : Nat) → (qimux : Int) → (result : InitResult) →
    InitResult × List Attempt
  | 0, _, _, result => (result, [])
  | retryNum + 1, k, qimux, _ =>
    match (attempt (a.lines k) (a.connects k)).exec (initState qimux) with
    | (.ok _, s) => (.eok, [⟨k, qimux, s.issued⟩])
    | (.error .fault, s) => (.fault, [⟨k, qimux, s.issued⟩])
    | (.error .exitError, s) =>
      let (result, attempts) := initLoop a retryNum (k + 1) s.qimux .error
      (result, ⟨k, qimux, s.issued⟩ :: attempts)
    | (.error .exitTimeout, s) =>
      let (result, attempts) := initLoop a retryNum (k + 1) s.qimux .etimeout
      (result, ⟨k, qimux, s.issued⟩ :: attempts)

/-- `a9g_init_thread_entry` up to its tail: the result and the attempts made. `qimux` is what
the uninitialised variable holds. -/
def a9gInitThreadEntry (a : InitAnswers) (qimux : Int) : InitResult × List Attempt :=
  if a.createResp = false then (.enomem, []) else initLoop a initRetry 0 qimux .eok

/-! ### What an initialisation stands for -/

/-- The command is acknowledged: `at_obj_exec_cmd` returns `RT_EOK`. -/
def InitCmd.Acked (c : InitCmd) (lines : List Bytes) : Prop := (c.respond lines).2 = .ok

instance (c : InitCmd) (lines : List Bytes) : Decidable (c.Acked lines) :=
  inferInstanceAs (Decidable (_ = _))

/-- What the answer to a command assigns. The answer to a command that is not acknowledged
is not parsed. -/
def InitCmd.reading (c : InitCmd) (lines : List Bytes) : Reading :=
  if c.Acked lines then c.parse (c.respond lines).1 else .nothing

section Reports

variable (answer : InitCmd → Nat → List Bytes) (issued : InitCmd → Nat)

/-- A `+CCID:` line was seen. -/
def CcidSeen : Prop :=
  ∃ n < issued .ccid, InitCmd.ccid.Acked (answer .ccid n) ∧
    (atRespGetLineByKw (InitCmd.ccid.respond (answer .ccid n)).1 (ascii "+CCID:")).isSome

/-- A `+CREG:` line was read as `1,1` or `1,5`. -/
def CregRead : Prop :=
  ∃ n < issued .cregQuery,
    InitCmd.cregQuery.reading (answer .cregQuery n) = .text (ascii "1,1") ∨
      InitCmd.cregQuery.reading (answer .cregQuery n) = .text (ascii "1,5")

/-- `AT+CGACT=1,1` was acknowledged with `OK`. -/
def CgactOk : Prop :=
  ∃ n < issued .cgact, InitCmd.cgact.Acked (answer .cgact n) ∧
    ∃ line ∈ answer .cgact n, ascii "OK" <+: line

/-- A `+CSQ:` line was parsed and differs from `99,99`. -/
def CsqRead : Prop :=
  ∃ n < issued .csq, ∃ word, word ≠ ascii "99,99" ∧
    InitCmd.csq.reading (answer .csq n) = .text word

/-- A function is on: the answer to `c` has a number that is not 0, or `c'` is
acknowledged. -/
def SwitchedOn (c c' : InitCmd) : Prop :=
  (∃ n < issued c, ∃ v, v ≠ 0 ∧ c.reading (answer c n) = .number v) ∨
    ∃ n < issued c', c'.Acked (answer c' n)

/-- `AT+CIFSR` produced no `ERROR` line. -/
def CifsrClean : Prop :=
  0 < issued .cifsr ∧ ∀ n < issued .cifsr, InitCmd.cifsr.Acked (answer .cifsr n) ∧
    atRespGetLineByKw (InitCmd.cifsr.respond (answer .cifsr n)).1 (ascii "ERROR") = none

/-- What a successful initialisation reports, read off the answers to the commands that one
attempt has issued. -/
structure Established : Prop where
  ccid : CcidSeen answer issued
  creg : CregRead answer issued
  cgact : CgactOk answer issued
  csq : CsqRead answer issued
  cipmux : SwitchedOn answer issued .cipmuxQuery .cipmuxOn
  cifsr : CifsrClean answer issued
  gps : SwitchedOn answer issued .gpsQuery .gpsOn

end Reports

/-- Every parsed answer is defined: its text fits into `parsed_data` and its number into an
`int`. -/
def Fits (answer : InitCmd → Nat → List Bytes) (issued : InitCmd → Nat) : Prop :=
  ∀ c, ∀ n < issued c, c.reading (answer c n) ≠ .undefined

/-- `c` was issued and acknowledged, and so was `c'` if it was issued. -/
def Acknowledged (answer : InitCmd → Nat → List Bytes) (issued : InitCmd → Nat)
    (c c' : InitCmd) : Prop :=
  0 < issued c ∧ c.Acked (answer c 0) ∧ (0 < issued c' → c'.Acked (answer c' 0))

/-- The number that `qimux` holds after `c` has been answered. -/
def Reading.numberOr (held : Int) : Reading → Int
  | .number v => v
  | _ => held

/-- No check of the attempt passes on a value from an earlier answer. -/
structure ReadsAnew (answer : InitCmd → Nat → List Bytes) (held : Int) : Prop where
  /-- the first `AT+CSQ` answer has a text -/
  csq : ∃ word, InitCmd.csq.reading (answer .csq 0) = .text word
  /-- the `AT+CIPMUX?` answer has a number, or `qimux` is 0 before it -/
  cipmux : held = 0 ∨ ∃ v, InitCmd.cipmuxQuery.reading (answer .cipmuxQuery 0) = .number v
  /-- the `AT+GPS?` answer has a number, or `qimux` is 0 before it -/
  gps : (InitCmd.cipmuxQuery.reading (answer .cipmuxQuery 0)).numberOr held = 0 ∨
    ∃ v, InitCmd.gpsQuery.reading (answer .gpsQuery 0) = .number v

/-- What the initialisation promises about its result and its attempts. -/
structure InitTruthful (a : InitAnswers) (result : InitResult) (attempts : List Attempt) :
    Prop where
  retries : attempts.length ≤ initRetry
  defined : result ≠ .fault
  established : result = .eok →
    ∃ x ∈ attempts, Established (a.lines x.index) x.issued

/-- The answers under which it keeps the promise: in every attempt they fit, and in an attempt
that is acknowledged to the end no check passes on an earlier value. -/
def AllReadAnew (a : InitAnswers) (attempts : List Attempt) : Prop :=
  ∀ x ∈ attempts, Fits (a.lines x.index) x.issued ∧
    (Acknowledged (a.lines x.index) x.issued .gpsQuery .gpsOn →
      ReadsAnew (a.lines x.index) x.held)

end CarLocator.A9g
