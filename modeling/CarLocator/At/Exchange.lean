import CarLocator.At.Calls
import CarLocator.At.Response
import CarLocator.Kernel.Sem
import CarLocator.Library.Simulation

/-!
# `CarLocator.At.Exchange`: a command and its response, statement by statement

`atObjExecCmd` of `CarLocator.At.Response` sees `at_obj_exec_cmd` from the wire: the lines go
into the response until it is complete. In the program two threads do this. The caller publishes
its response object in `client->resp`, sends the command and takes `resp_notice`. The parser
thread stores the lines, and with the last one it clears `client->resp` and releases the
semaphore. Only the callers hold `client->lock`, so the statements of a caller and of the parser
interleave, and so does the timer that ends the wait.

`exchangeStep` is one statement of the caller (`next`) or of the response branch of the parser
(`parse`), a line the parser has read (`line`), the timer (`timeout`), or another thread that
creates, sets or deletes a response object. A parser that follows a null pointer or a deleted
response is `faulted`.

`exchange_refines` compares the two views. If no wait ends while the parser is on a response, and
the parser finds no response whose command is not waiting, then every command returns what
`atObjExecCmd` computes from the lines that came in for it, and no notice is left over. A notice
that is left over answers the next command (`stale_notice`).
-/

set_option autoImplicit false

namespace CarLocator.At

open CarLocator.Kernel
open CarLocator.Library

/-- The statement of `at_obj_exec_cmd` that the caller has done last. -/
inductive CommandPc
  /-- `rt_mutex_take` -/
  | locked
  /-- `client->resp_status = AT_RESP_OK` -/
  | statusSet
  /-- `client->resp = resp` -/
  | published
  /-- `resp->buf_len = 0` and `resp->line_counts = 0` -/
  | cleared
  /-- `at_vprintfln` -/
  | sent
  /-- suspended in `rt_sem_take` -/
  | suspended
  /-- `rt_sem_take` returned `-RT_ETIMEOUT` -/
  | timedOut
  /-- `rt_sem_take` returned `RT_EOK` -/
  | woken
  /-- at the label `__exit` -/
  | exiting (result : Int)
  /-- `client->resp = RT_NULL` -/
  | withdrawn (result : Int)
  deriving DecidableEq, Repr

/-- The caller that holds `client->lock`. -/
structure Command where
  /-- the response object, `none` for `RT_NULL` -/
  obj : Option Nat
  priority : Nat
  pc : CommandPc
  /-- the response before it was cleared -/
  start : AtResponse
  /-- the lines the parser has put into the response since then -/
  lines : List Bytes
  deriving DecidableEq, Repr

/-- Where the parser is in the response branch of `client_parser`. -/
inductive ParserPc
  | idle
  /-- `client->resp != RT_NULL` was true -/
  | tested (line : Bytes)
  /-- `resp = client->resp` -/
  | fetched (obj : Nat) (line : Bytes)
  /-- the line has been copied, or the buffer was full -/
  | stored (obj : Nat) (line : Bytes)
  /-- the response is complete -/
  | judged
  /-- `client->resp = RT_NULL` -/
  | withdrawn
  /-- a null pointer or a deleted response was used -/
  | faulted
  deriving DecidableEq, Repr

/-- A call of `at_obj_exec_cmd` that has returned: its response before and after. -/
structure Finished where
  obj : Option Nat
  start : AtResponse
  lines : List Bytes
  resp : Option AtResponse
  result : Int
  deriving DecidableEq, Repr

/-- The client, the response objects, the two threads and what has come back so far. -/
structure Exchange where
  resp : Option Nat
  respStatus : AtRespStatus
  respNotice : RtSem Unit
  objs : Nat → Option AtResponse
  command : Option Command
  parser : ParserPc
  log : List Finished

/-- The steps. -/
inductive ExchangeAct
  | createResp (obj bufSize lineNum : Nat)
  | setInfo (obj lineNum : Nat)
  | deleteResp (obj : Nat)
  /-- a thread gets the lock in `at_obj_exec_cmd` -/
  | lock (obj : Option Nat) (priority : Nat)
  /-- the next statement of the caller, whose response has this timeout -/
  | next (time : Int)
  | timeout
  /-- the parser has read a line that is not a URC -/
  | line (line : Bytes)
  /-- the next statement of the parser -/
  | parse
  deriving DecidableEq, Repr

/-- After `at_client_init`. -/
def exchangeInit : Exchange :=
  { resp := none, respStatus := .ok, respNotice := rtSemInit .fifo 0, objs := fun _ => none,
    command := none, parser := .idle, log := [] }

/-- `resp->buf_len = 0` and `resp->line_counts = 0`. -/
def AtResponse.clear (resp : AtResponse) : AtResponse := { resp with buf := [], lineCounts := 0 }

/-- The line as the parser stores it, with `'\0'` for its last byte. -/
def terminated (line : Bytes) : Bytes := line.dropLast ++ [0]

/-- The check of the response result in `client_parser`: the status, and whether the response is
complete. -/
def AtResponse.judge (resp : AtResponse) (status : AtRespStatus) (line : Bytes) :
    AtRespStatus × Bool :=
  if ascii "OK" <+: line ∧ resp.lineNum = 0 then (.ok, true)
  else if (strstr (ascii "ERROR") line).isSome ∨ ascii "FAIL" <+: line then (.error, true)
  else if resp.lineCounts = resp.lineNum ∧ resp.lineNum ≠ 0 then (.ok, true)
  else (status, false)

/-- What `at_obj_exec_cmd` returns for a status. -/
def execResult : AtRespStatus → Int
  | .ok => 0
  | .timeout => -rtEtimeout
  | .error | .buffFull => -rtError

/-- The caller is at another statement. -/
def Command.goto (c : Command) (pc : CommandPc) : Command := { c with pc := pc }

/-- The object is in use by the caller, so no other thread has it. -/
def Exchange.inUse (s : Exchange) (obj : Nat) : Bool := s.command.any (·.obj == some obj)

/-- The `rt_sem_take` of `at_obj_exec_cmd`. -/
def commandTake (s : Exchange) (c : Command) (time : Int) : Exchange :=
  match rtSemTake s.respNotice () c.priority time with
  | (.taken, sem) => { s with respNotice := sem, command := some (c.goto .woken) }
  | (.timeout, sem) => { s with respNotice := sem, command := some (c.goto .timedOut) }
  | (.suspended, sem) => { s with respNotice := sem, command := some (c.goto .suspended) }

/-- The next statement of `at_obj_exec_cmd`. -/
def commandNext (s : Exchange) (c : Command) (time : Int) : Option Exchange :=
  match c.pc with
  | .locked => some { s with respStatus := .ok, command := some (c.goto .statusSet) }
  | .statusSet => some { s with resp := c.obj, command := some (c.goto .published) }
  | .published =>
    match c.obj with
    | none => some { s with command := some (c.goto .cleared) }
    | some obj =>
      (s.objs obj).map fun resp => { s with
        objs := Function.update s.objs obj (some resp.clear)
        command := some { c with pc := .cleared, start := resp, lines := [] } }
  | .cleared => some { s with command := some (c.goto .sent) }
  | .sent =>
    match c.obj with
    | none => some { s with command := some (c.goto (.exiting 0)) }
    | some _ => some (commandTake s c time)
  | .suspended => none
  | .timedOut =>
    some { s with respStatus := .timeout, command := some (c.goto (.exiting (-rtEtimeout))) }
  | .woken =>
    let result := if s.respStatus ≠ .ok then -rtError else 0
    some { s with command := some (c.goto (.exiting result)) }
  | .exiting result => some { s with resp := none, command := some (c.goto (.withdrawn result)) }
  | .withdrawn result =>
    some { s with
      command := none
      log := s.log ++ [⟨c.obj, c.start, c.lines, c.obj.bind s.objs, result⟩] }

/-- The next statement of the response branch of `client_parser`. -/
def parserNext (s : Exchange) : Option Exchange :=
  match s.parser with
  | .idle | .faulted => none
  | .tested line =>
    match s.resp with
    | none => some { s with parser := .faulted }
    | some obj => some { s with parser := .fetched obj line }
  | .fetched obj line =>
    match s.objs obj with
    | none => some { s with parser := .faulted }
    | some resp =>
      let (resp, status) := resp.store s.respStatus (terminated line)
      some { s with
        objs := Function.update s.objs obj (some resp)
        respStatus := status
        parser := .stored obj line }
  | .stored obj line =>
    match s.objs obj with
    | none => some { s with parser := .faulted }
    | some resp =>
      let (status, complete) := resp.judge s.respStatus (terminated line)
      some { s with
        respStatus := status
        command := s.command.map fun c => { c with lines := c.lines ++ [line] }
        parser := if complete then .judged else .idle }
  | .judged => some { s with resp := none, parser := .withdrawn }
  | .withdrawn =>
    match rtSemRelease s.respNotice with
    | (sem, none) => some { s with respNotice := sem, parser := .idle }
    | (sem, some _) =>
      some { s with
        respNotice := sem
        command := s.command.map (·.goto .woken)
        parser := .idle }

/-- One step of the interleaving. -/
def exchangeStep (s : Exchange) : ExchangeAct → Option Exchange
  | .createResp obj bufSize lineNum =>
    if s.objs obj = none then
      some { s with objs := Function.update s.objs obj (some (atCreateResp bufSize lineNum)) }
    else none
  | .setInfo obj lineNum =>
    if s.inUse obj then none
    else (s.objs obj).map fun resp =>
      { s with objs := Function.update s.objs obj (some (atRespSetInfo resp lineNum)) }
  | .deleteResp obj =>
    if s.inUse obj ∨ s.objs obj = none then none
    else some { s with objs := Function.update s.objs obj none }
  | .lock obj priority =>
    if s.command = none ∧ ∀ o ∈ obj, (s.objs o).isSome then
      some { s with command := some ⟨obj, priority, .locked, atCreateResp 0 0, []⟩ }
    else none
  | .next time => s.command.bind (commandNext s · time)
  | .timeout =>
    (rtSemTimeout s.respNotice ()).map fun sem =>
      { s with respNotice := sem, command := s.command.map (·.goto .timedOut) }
  | .line line =>
    if s.parser = .idle then
      some (if s.resp = none then s else { s with parser := .tested line })
    else none
  | .parse => parserNext s

/-! ### The response, line by line -/

/-- `addLine` is the copy and then the check. -/
theorem addLine_eq (resp : AtResponse) (status : AtRespStatus) (line : Bytes) :
    resp.addLine status line
      = ((resp.store status (terminated line)).1,
          (resp.store status (terminated line)).1.judge
            (resp.store status (terminated line)).2 (terminated line)) := by
  simp only [AtResponse.addLine, AtResponse.judge]
  by_cases hok : ascii "OK" <+: terminated line
      ∧ (resp.store status (terminated line)).1.lineNum = 0
  · rw [if_pos hok]
    exact if_pos hok
  rw [if_neg hok]
  refine (if_neg hok).trans ?_
  by_cases herror : (strstr (ascii "ERROR") (terminated line)).isSome
      ∨ ascii "FAIL" <+: terminated line
  · rw [if_pos herror]
    exact if_pos herror
  rw [if_neg herror]
  refine (if_neg herror).trans ?_
  by_cases hnum : (resp.store status (terminated line)).1.lineCounts
      = (resp.store status (terminated line)).1.lineNum
      ∧ (resp.store status (terminated line)).1.lineNum ≠ 0
  · rw [if_pos hnum]
    exact if_pos hnum
  · rw [if_neg hnum]
    exact if_neg hnum

/-- A complete response is not a timeout. -/
theorem judge_of_complete {resp : AtResponse} {status status' : AtRespStatus} {line : Bytes}
    (h : resp.judge status line = (status', true)) : status' ≠ .timeout := by
  rw [AtResponse.judge] at h
  split_ifs at h <;> cases h <;> simp

/-- A response that no line has completed. -/
def pending (resp : AtResponse) (status : AtRespStatus) :
    List Bytes → Option (AtResponse × AtRespStatus)
  | [] => some (resp, status)
  | line :: lines =>
    let (resp, status, complete) := resp.addLine status line
    if complete then none else pending resp status lines

/-- One more line that does not complete it. -/
theorem pending_concat {resp resp' resp'' : AtResponse} {status status' status'' : AtRespStatus}
    {lines : List Bytes} {line : Bytes} (h : pending resp status lines = some (resp', status'))
    (hline : resp'.addLine status' line = (resp'', status'', false)) :
    pending resp status (lines ++ [line]) = some (resp'', status'') := by
  induction lines generalizing resp status with
  | nil =>
      cases h
      simp [pending, hline]
  | cons l lines ih =>
      simp only [pending, List.cons_append] at h ⊢
      split at h
      · cases h
      · rename_i hcomplete
        rw [if_neg hcomplete]
        exact ih h

/-- The line that completes it. -/
theorem collect_concat {resp resp' resp'' : AtResponse} {status status' status'' : AtRespStatus}
    {lines : List Bytes} {line : Bytes} (h : pending resp status lines = some (resp', status'))
    (hline : resp'.addLine status' line = (resp'', status'', true)) :
    collect resp status (lines ++ [line]) = (resp'', status'') := by
  induction lines generalizing resp status with
  | nil =>
      cases h
      simp [collect, hline]
  | cons l lines ih =>
      simp only [pending, List.cons_append, collect] at h ⊢
      split at h
      · cases h
      · rename_i hcomplete
        rw [if_neg hcomplete]
        exact ih h

/-- A wait that ends before that. -/
theorem collect_of_pending {resp resp' : AtResponse} {status status' : AtRespStatus}
    {lines : List Bytes} (h : pending resp status lines = some (resp', status')) :
    collect resp status lines = (resp', .timeout) := by
  induction lines generalizing resp status with
  | nil =>
      cases h
      rfl
  | cons l lines ih =>
      simp only [pending, collect] at h ⊢
      split at h
      · cases h
      · rename_i hcomplete
        rw [if_neg hcomplete]
        exact ih h

/-! ### The invariant -/

/-- Nothing is published, the parser is on no response, and no notice is there. -/
def Quiet (s : Exchange) : Prop :=
  s.parser = .idle ∧ s.resp = none ∧ s.respNotice.value = 0

/-- The command waits for more lines. -/
def Pending (s : Exchange) (c : Command) (obj : Nat) : Prop :=
  s.resp = some obj ∧ s.respNotice.value = 0 ∧ ∃ resp, s.objs obj = some resp
    ∧ pending c.start.clear .ok c.lines = some (resp, s.respStatus)

/-- The response holds what `atObjExecCmd` makes of the lines. -/
def Complete (s : Exchange) (c : Command) (obj : Nat) (status : AtRespStatus) : Prop :=
  ∃ resp, s.objs obj = some resp ∧ atObjExecCmd c.start c.lines = (resp, status)

/-- The parser has completed the response. -/
def Answered (s : Exchange) (c : Command) (obj : Nat) : Prop :=
  s.respStatus ≠ .timeout ∧ Complete s c obj s.respStatus

/-- A command and the parser, while the command waits. -/
def Exchanging (s : Exchange) (c : Command) (obj : Nat) : Prop :=
  match s.parser with
  | .idle =>
    Pending s c obj
      ∨ s.resp = none ∧ s.respNotice.value = 1 ∧ c.pc ≠ .suspended ∧ Answered s c obj
  | .tested _ => Pending s c obj
  | .fetched obj' _ => obj' = obj ∧ Pending s c obj
  | .stored obj' line =>
    obj' = obj ∧ s.resp = some obj ∧ s.respNotice.value = 0
      ∧ ∃ resp status, pending c.start.clear .ok c.lines = some (resp, status)
        ∧ s.objs obj = some (resp.store status (terminated line)).1
        ∧ s.respStatus = (resp.store status (terminated line)).2
  | .judged => s.resp = some obj ∧ s.respNotice.value = 0 ∧ Answered s c obj
  | .withdrawn => s.resp = none ∧ s.respNotice.value = 0 ∧ Answered s c obj
  | .faulted => False

/-- What the caller will return is what `atObjExecCmd` says, or there is no response. -/
def Returning (s : Exchange) (c : Command) (result : Int) : Prop :=
  match c.obj with
  | none => result = 0
  | some obj => ∃ status, Complete s c obj status ∧ result = execResult status

/-- Where the caller is, and what holds there. -/
def Phase (s : Exchange) (c : Command) : Prop :=
  match c.pc with
  | .locked => Quiet s
  | .statusSet => Quiet s ∧ s.respStatus = .ok
  | .published =>
    s.parser = .idle ∧ s.resp = c.obj ∧ s.respNotice.value = 0 ∧ s.respStatus = .ok
  | .cleared | .sent =>
    match c.obj with
    | none => Quiet s
    | some obj => Exchanging s c obj
  | .suspended => ∃ obj, c.obj = some obj ∧ Exchanging s c obj
  | .timedOut => ∃ obj, c.obj = some obj ∧ s.parser = .idle ∧ Pending s c obj
  | .woken => ∃ obj, c.obj = some obj ∧ Quiet s ∧ Answered s c obj
  | .exiting result => s.parser = .idle ∧ s.respNotice.value = 0 ∧ Returning s c result
  | .withdrawn result => Quiet s ∧ Returning s c result

/-- A call that returned what `atObjExecCmd` says. -/
def Finished.Faithful (f : Finished) : Prop :=
  match f.obj with
  | none => f.result = 0
  | some _ => ∃ resp status, f.resp = some resp
    ∧ atObjExecCmd f.start f.lines = (resp, status) ∧ f.result = execResult status

/-- The invariant of the exchange. -/
structure Serving (s : Exchange) : Prop where
  log : ∀ f ∈ s.log, f.Faithful
  free : s.command = none → Quiet s ∧ s.respNotice.suspendThread = []
  live : ∀ c, s.command = some c → ∀ obj, c.obj = some obj → (s.objs obj).isSome
  awake : ∀ c, s.command = some c → c.pc ≠ .suspended → s.respNotice.suspendThread = []
  asleep : ∀ c, s.command = some c → c.pc = .suspended →
    ∃ timer, s.respNotice.suspendThread = [semWaiter () c.priority timer]
  phase : ∀ c, s.command = some c → Phase s c

/-- The client starts so. -/
theorem serving_exchangeInit : Serving exchangeInit where
  log := fun f hf => by cases hf
  free := fun _ => ⟨⟨rfl, rfl, rfl⟩, rfl⟩
  live := fun c hc => by cases hc
  awake := fun c hc => by cases hc
  asleep := fun c hc => by cases hc
  phase := fun c hc => by cases hc

/-- The command waits for its lines. -/
def CommandPc.Waits (pc : CommandPc) : Prop := pc = .cleared ∨ pc = .sent ∨ pc = .suspended

/-- There is a command that waits. -/
def Exchange.Waits (s : Exchange) : Prop := ∃ c, s.command = some c ∧ c.pc.Waits

/-- A caller that does not sleep. -/
theorem serving_of_awake {s : Exchange} {c : Command} (hlog : ∀ f ∈ s.log, f.Faithful)
    (hc : s.command = some c) (hlive : ∀ obj, c.obj = some obj → (s.objs obj).isSome)
    (hpc : c.pc ≠ .suspended) (hlist : s.respNotice.suspendThread = [])
    (hphase : Phase s c) : Serving s where
  log := hlog
  free := fun hnone => by simp [hc] at hnone
  live := fun c' hc' => by
    cases hc.symm.trans hc'
    exact hlive
  awake := fun _ _ _ => hlist
  asleep := fun c' hc' hs => by
    cases hc.symm.trans hc'
    exact absurd hs hpc
  phase := fun c' hc' => by
    cases hc.symm.trans hc'
    exact hphase

/-! ### Other threads -/

/-- Other objects do not matter to a command. -/
theorem Complete.objs {s : Exchange} {c : Command} {obj : Nat} {status : AtRespStatus}
    {objs : Nat → Option AtResponse} (hobjs : objs obj = s.objs obj)
    (h : Complete s c obj status) : Complete { s with objs := objs } c obj status := by
  obtain ⟨resp, hresp, hexec⟩ := h
  exact ⟨resp, hobjs.trans hresp, hexec⟩

theorem Pending.objs {s : Exchange} {c : Command} {obj : Nat}
    {objs : Nat → Option AtResponse} (hobjs : objs obj = s.objs obj)
    (h : Pending s c obj) : Pending { s with objs := objs } c obj := by
  obtain ⟨hresp, hvalue, resp, hobj, hlines⟩ := h
  exact ⟨hresp, hvalue, resp, hobjs.trans hobj, hlines⟩

theorem Exchanging.objs {s : Exchange} {c : Command} {obj : Nat}
    {objs : Nat → Option AtResponse} (hobjs : objs obj = s.objs obj)
    (h : Exchanging s c obj) : Exchanging { s with objs := objs } c obj := by
  unfold Exchanging at h ⊢
  dsimp only
  cases hparser : s.parser with
  | idle =>
      rw [hparser] at h
      rcases h with h | ⟨hresp, hvalue, hpc, hstatus, hcomplete⟩
      · exact Or.inl (h.objs hobjs)
      · exact Or.inr ⟨hresp, hvalue, hpc, hstatus, hcomplete.objs hobjs⟩
  | tested line =>
      rw [hparser] at h
      exact Pending.objs hobjs h
  | fetched obj' line =>
      rw [hparser] at h
      exact ⟨h.1, Pending.objs hobjs h.2⟩
  | stored obj' line =>
      rw [hparser] at h
      obtain ⟨hobj, hresp, hvalue, resp, status, hlines, hstored, hstatus⟩ := h
      exact ⟨hobj, hresp, hvalue, resp, status, hlines, hobjs.trans hstored, hstatus⟩
  | judged =>
      rw [hparser] at h
      exact ⟨h.1, h.2.1, h.2.2.1, Complete.objs hobjs h.2.2.2⟩
  | withdrawn =>
      rw [hparser] at h
      exact ⟨h.1, h.2.1, h.2.2.1, Complete.objs hobjs h.2.2.2⟩
  | faulted =>
      rw [hparser] at h
      exact h

theorem Returning.objs {s : Exchange} {c : Command} {result : Int}
    {objs : Nat → Option AtResponse} (hobjs : ∀ obj, c.obj = some obj → objs obj = s.objs obj)
    (h : Returning s c result) : Returning { s with objs := objs } c result := by
  unfold Returning at h ⊢
  cases hobj : c.obj with
  | none =>
      rw [hobj] at h
      exact h
  | some obj =>
      rw [hobj] at h
      obtain ⟨status, hcomplete, hresult⟩ := h
      exact ⟨status, hcomplete.objs (hobjs obj hobj), hresult⟩

theorem Phase.objs {s : Exchange} {c : Command} {objs : Nat → Option AtResponse}
    (hobjs : ∀ obj, c.obj = some obj → objs obj = s.objs obj) (h : Phase s c) :
    Phase { s with objs := objs } c := by
  unfold Phase at h ⊢
  cases hpc : c.pc <;> rw [hpc] at h <;> dsimp only at h ⊢
  case locked | statusSet | published => exact h
  case cleared | sent =>
    cases hobj : c.obj <;> rw [hobj] at h
    · exact h
    · exact Exchanging.objs (hobjs _ hobj) h
  case suspended =>
    obtain ⟨obj, hobj, hex⟩ := h
    exact ⟨obj, hobj, hex.objs (hobjs obj hobj)⟩
  case timedOut =>
    obtain ⟨obj, hobj, hidle, hpending⟩ := h
    exact ⟨obj, hobj, hidle, hpending.objs (hobjs obj hobj)⟩
  case woken =>
    obtain ⟨obj, hobj, hquiet, hstatus, hcomplete⟩ := h
    exact ⟨obj, hobj, hquiet, hstatus, hcomplete.objs (hobjs obj hobj)⟩
  case exiting => exact ⟨h.1, h.2.1, h.2.2.objs hobjs⟩
  case withdrawn => exact ⟨h.1, h.2.objs hobjs⟩

/-- Creating, setting and deleting other responses keeps the invariant. -/
theorem Serving.objs {s : Exchange} {objs : Nat → Option AtResponse} (h : Serving s)
    (hobjs : ∀ c, s.command = some c → ∀ obj, c.obj = some obj → objs obj = s.objs obj) :
    Serving { s with objs := objs } where
  log := h.log
  free := h.free
  live := fun c hc obj hobj => by
    show (objs obj).isSome
    rw [hobjs c hc obj hobj]
    exact h.live c hc obj hobj
  awake := h.awake
  asleep := h.asleep
  phase := fun c hc => (h.phase c hc).objs (hobjs c hc)

/-- An object that no command uses may change. -/
theorem Serving.update {s : Exchange} {obj : Nat} (h : Serving s) (hfree : s.inUse obj = false)
    (resp : Option AtResponse) : Serving { s with objs := Function.update s.objs obj resp } := by
  refine h.objs fun c hc obj' hobj' => Function.update_of_ne (fun heq => ?_) _ _
  rw [Exchange.inUse, hc, Option.any_some, hobj', heq] at hfree
  simp at hfree

/-- A fresh object is not in use. -/
theorem Serving.not_inUse {s : Exchange} {obj : Nat} (h : Serving s) (hfresh : s.objs obj = none) :
    s.inUse obj = false := by
  rw [Exchange.inUse]
  cases hc : s.command with
  | none => rfl
  | some c =>
      refine beq_eq_false_iff_ne.mpr fun hobj => ?_
      have hlive := h.live c hc obj hobj
      rw [hfresh] at hlive
      cases hlive

/-! ### The caller -/

/-- The guard. A wait ends without a notice only while the parser is on no response, and the
parser turns to a response only while its command waits. -/
def InTime (s : Exchange) : ExchangeAct → Prop
  | .line _ => s.resp ≠ none → s.Waits
  | .next time =>
    (∃ c, s.command = some c ∧ c.pc = .sent ∧ c.obj ≠ none) → time = 0 →
      s.respNotice.value = 0 → s.parser = .idle
  | .timeout => s.parser = .idle
  | _ => True

/-- An exchange does not depend on where the caller waits, unless it has been answered. -/
theorem Exchanging.goto {s : Exchange} {c : Command} {obj : Nat} {pc : CommandPc}
    (h : Exchanging s c obj) (hpc : pc = .suspended → s.respNotice.value = 0) :
    Exchanging s (c.goto pc) obj := by
  unfold Exchanging at h ⊢
  cases hparser : s.parser with
  | idle =>
      rw [hparser] at h
      rcases h with h | ⟨hresp, hvalue, -, hanswered⟩
      · exact Or.inl h
      · refine Or.inr ⟨hresp, hvalue, fun hs => ?_, hanswered⟩
        rw [hpc hs] at hvalue
        cases hvalue
  | _ =>
      rw [hparser] at h
      exact h

/-- While there is no notice, a parser on no response means that the command waits for lines. -/
theorem Exchanging.pending {s : Exchange} {c : Command} {obj : Nat} (h : Exchanging s c obj)
    (hidle : s.parser = .idle) (hvalue : s.respNotice.value = 0) : Pending s c obj := by
  rw [Exchanging, hidle] at h
  rcases h with h | ⟨-, hone, -⟩
  · exact h
  · rw [hvalue] at hone
    cases hone

/-- A notice is there only when the command has been answered. -/
theorem Exchanging.answered {s : Exchange} {c : Command} {obj : Nat} (h : Exchanging s c obj)
    (hvalue : s.respNotice.value ≠ 0) :
    s.parser = .idle ∧ s.resp = none ∧ s.respNotice.value = 1 ∧ Answered s c obj := by
  unfold Exchanging at h
  cases hparser : s.parser <;> rw [hparser] at h
  case idle =>
    rcases h with h | h
    · exact absurd h.2.1 hvalue
    · exact ⟨rfl, h.1, h.2.1, h.2.2.2⟩
  case tested => exact absurd h.2.1 hvalue
  case fetched => exact absurd h.2.2.1 hvalue
  case stored => exact absurd h.2.2.1 hvalue
  case judged => exact absurd h.2.1 hvalue
  case withdrawn => exact absurd h.2.1 hvalue
  case faulted => exact h.elim

/-- The status of an answer decides what the caller returns. -/
theorem execResult_of_answered {status : AtRespStatus} (h : status ≠ .timeout) :
    (if status ≠ .ok then -rtError else 0) = execResult status := by
  cases status with
  | timeout => exact absurd rfl h
  | _ => rfl

/-- The `rt_sem_take` keeps the invariant. -/
theorem serving_commandTake {s : Exchange} {c : Command} {obj : Nat} {time : Int}
    (h : Serving s) (hc : s.command = some c) (hpc : c.pc = .sent) (hobj : c.obj = some obj)
    (hg : InTime s (.next time)) : Serving (commandTake s c time) := by
  have hlist := h.awake c hc (by rw [hpc]; decide)
  have hphase := h.phase c hc
  rw [Phase, hpc] at hphase
  simp only [hobj] at hphase
  by_cases hvalue : s.respNotice.value = 0
  · by_cases htime : time = 0
    · -- No notice and no time: the guard says that the parser is on no response.
      have hidle := hg ⟨c, hc, hpc, by simp [hobj]⟩ htime hvalue
      rw [commandTake, rtSemTake, if_neg (by rw [hvalue]; decide), if_pos htime]
      refine serving_of_awake (c := c.goto .timedOut) h.log rfl (h.live c hc)
        (by simp [Command.goto]) hlist ?_
      exact ⟨obj, hobj, hidle, hphase.pending hidle hvalue⟩
    · rw [commandTake, rtSemTake_of_zero hvalue () c.priority htime, hlist, rtIpcListSuspend_nil]
      exact
        { log := h.log
          free := fun hnone => by cases hnone
          live := fun c' hc' => by
            cases hc'
            exact h.live c hc
          awake := fun c' hc' hs => by
            cases hc'
            exact absurd rfl hs
          asleep := fun c' hc' _ => by
            cases hc'
            exact ⟨_, rfl⟩
          phase := fun c' hc' => by
            cases hc'
            exact ⟨obj, hobj, hphase.goto fun _ => hvalue⟩ }
  · obtain ⟨hidle, hresp, hone, hanswered⟩ := hphase.answered hvalue
    rw [commandTake, rtSemTake_of_pos (UInt16.pos_iff_ne_zero.mpr hvalue)]
    refine serving_of_awake (c := c.goto .woken) h.log rfl (h.live c hc)
      (by simp [Command.goto]) hlist ?_
    refine ⟨obj, hobj, ⟨hidle, hresp, ?_⟩, hanswered⟩
    show s.respNotice.value - 1 = 0
    rw [hone]
    rfl

/-- Every statement of the caller keeps the invariant. -/
theorem serving_commandNext {s s' : Exchange} {c : Command} {time : Int} (h : Serving s)
    (hc : s.command = some c) (hg : InTime s (.next time))
    (hnext : commandNext s c time = some s') : Serving s' := by
  have hlive := h.live c hc
  have hphase := h.phase c hc
  have hawake := h.awake c hc
  unfold Phase at hphase
  unfold commandNext at hnext
  cases hpc : c.pc <;> rw [hpc] at hnext hphase hawake <;> dsimp only at hnext hphase
  case locked =>
    cases hnext
    exact serving_of_awake (c := c.goto .statusSet) h.log rfl hlive (by simp [Command.goto])
      (hawake (by simp)) ⟨hphase, rfl⟩
  case statusSet =>
    cases hnext
    obtain ⟨⟨hidle, -, hvalue⟩, hstatus⟩ := hphase
    exact serving_of_awake (c := c.goto .published) h.log rfl hlive (by simp [Command.goto])
      (hawake (by simp)) ⟨hidle, rfl, hvalue, hstatus⟩
  case published =>
    obtain ⟨hidle, hresp, hvalue, hstatus⟩ := hphase
    cases hobj : c.obj with
    | none =>
        rw [hobj] at hnext hresp
        cases hnext
        refine serving_of_awake (c := c.goto .cleared) h.log rfl hlive (by simp [Command.goto])
          (hawake (by simp)) ?_
        simp only [Phase, Command.goto, hobj]
        exact ⟨hidle, hresp, hvalue⟩
    | some obj =>
        rw [hobj] at hnext hresp
        obtain ⟨resp, hresp', rfl⟩ := Option.map_eq_some_iff.mp hnext
        have hupdate : Function.update s.objs obj (some resp.clear) obj = some resp.clear :=
          Function.update_self _ _ _
        refine serving_of_awake (c := ⟨some obj, c.priority, .cleared, resp, []⟩)
          h.log rfl (fun obj' hobj' => ?_) (by simp) (hawake (by simp)) ?_
        · cases hobj'
          exact Option.isSome_iff_exists.mpr ⟨_, hupdate⟩
        · -- The empty response is what the lines handled so far make of it.
          simp only [Phase, Exchanging, hidle]
          exact Or.inl ⟨hresp, hvalue, resp.clear, hupdate, by rw [hstatus]; rfl⟩
  case cleared =>
    cases hnext
    refine serving_of_awake (c := c.goto .sent) h.log rfl hlive (by simp [Command.goto])
      (hawake (by simp)) ?_
    cases hobj : c.obj with
    | none =>
        simp only [hobj] at hphase
        simp only [Phase, Command.goto, hobj]
        exact hphase
    | some obj =>
        simp only [hobj] at hphase
        simp only [Phase, Command.goto, hobj]
        have hsent : CommandPc.sent = .suspended → s.respNotice.value = 0 := by simp
        exact hphase.goto hsent
  case sent =>
    cases hobj : c.obj with
    | none =>
        rw [hobj] at hnext
        simp only [hobj] at hphase
        cases hnext
        refine serving_of_awake (c := c.goto (.exiting 0)) h.log rfl hlive
          (by simp [Command.goto]) (hawake (by simp)) ⟨hphase.1, hphase.2.2, ?_⟩
        simp only [Returning, Command.goto, hobj]
    | some obj =>
        rw [hobj] at hnext
        cases hnext
        exact serving_commandTake h hc hpc hobj hg
  case suspended => cases hnext
  case timedOut =>
    cases hnext
    obtain ⟨obj, hobj, hidle, -, hvalue, resp, hresp, hlines⟩ := hphase
    refine serving_of_awake (c := c.goto (.exiting (-rtEtimeout))) h.log rfl hlive
      (by simp [Command.goto]) (hawake (by simp)) ⟨hidle, hvalue, ?_⟩
    simp only [Returning, Command.goto, hobj]
    exact ⟨.timeout, ⟨resp, hresp, collect_of_pending hlines⟩, rfl⟩
  case woken =>
    cases hnext
    obtain ⟨obj, hobj, ⟨hidle, -, hvalue⟩, hstatus, hcomplete⟩ := hphase
    refine serving_of_awake (c := c.goto (.exiting _)) h.log rfl hlive
      (by simp [Command.goto]) (hawake (by simp)) ⟨hidle, hvalue, ?_⟩
    simp only [Returning, Command.goto, hobj]
    exact ⟨s.respStatus, hcomplete, execResult_of_answered hstatus⟩
  case exiting result =>
    cases hnext
    obtain ⟨hidle, hvalue, hreturn⟩ := hphase
    exact serving_of_awake (c := c.goto (.withdrawn result)) h.log rfl hlive
      (by simp [Command.goto]) (hawake (by simp)) ⟨⟨hidle, rfl, hvalue⟩, hreturn⟩
  case withdrawn result =>
    cases hnext
    obtain ⟨hquiet, hreturn⟩ := hphase
    refine
      { log := fun f hf => ?_
        free := fun _ => ⟨hquiet, hawake (by simp)⟩
        live := fun c' hc' => by cases hc'
        awake := fun c' hc' => by cases hc'
        asleep := fun c' hc' => by cases hc'
        phase := fun c' hc' => by cases hc' }
    rcases List.mem_append.mp hf with hf | hf
    · exact h.log f hf
    · cases List.mem_singleton.mp hf
      unfold Returning at hreturn
      unfold Finished.Faithful
      cases hobj : c.obj with
      | none =>
          rw [hobj] at hreturn
          exact hreturn
      | some obj =>
          rw [hobj] at hreturn
          obtain ⟨status, ⟨resp, hresp, hexec⟩, hresult⟩ := hreturn
          exact ⟨resp, status, by simpa [hobj] using hresp, hexec, hresult⟩

/-! ### The parser -/

/-- The parser is on a response only while its command waits. -/
theorem Serving.exchanging {s : Exchange} (h : Serving s) (hparser : s.parser ≠ .idle) :
    ∃ c obj, s.command = some c ∧ c.obj = some obj ∧ c.pc.Waits ∧ Exchanging s c obj := by
  cases hc : s.command with
  | none => exact absurd (h.free hc).1.1 hparser
  | some c =>
      have hphase := h.phase c hc
      unfold Phase at hphase
      cases hpc : c.pc <;> rw [hpc] at hphase <;> dsimp only at hphase
      case locked => exact absurd hphase.1 hparser
      case statusSet => exact absurd hphase.1.1 hparser
      case published => exact absurd hphase.1 hparser
      case cleared =>
        cases hobj : c.obj <;> rw [hobj] at hphase
        · exact absurd hphase.1 hparser
        · exact ⟨c, _, rfl, hobj, Or.inl hpc, hphase⟩
      case sent =>
        cases hobj : c.obj <;> rw [hobj] at hphase
        · exact absurd hphase.1 hparser
        · exact ⟨c, _, rfl, hobj, Or.inr (Or.inl hpc), hphase⟩
      case suspended =>
        obtain ⟨obj, hobj, hex⟩ := hphase
        exact ⟨c, obj, rfl, hobj, Or.inr (Or.inr hpc), hex⟩
      case timedOut =>
        obtain ⟨obj, -, hidle, -⟩ := hphase
        exact absurd hidle hparser
      case woken =>
        obtain ⟨obj, -, ⟨hidle, -⟩, -⟩ := hphase
        exact absurd hidle hparser
      case exiting => exact absurd hphase.1 hparser
      case withdrawn => exact absurd hphase.1.1 hparser

/-- A published response of a command that waits. -/
theorem Serving.exchanging_of_waits {s : Exchange} {c : Command} (h : Serving s)
    (hc : s.command = some c) (hpc : c.pc.Waits) (hresp : s.resp ≠ none) :
    ∃ obj, c.obj = some obj ∧ Exchanging s c obj := by
  have hphase := h.phase c hc
  rcases hpc with hpc | hpc | hpc <;> rw [Phase, hpc] at hphase
  · cases hobj : c.obj <;> simp only [hobj] at hphase
    · exact absurd hphase.2.1 hresp
    · exact ⟨_, rfl, hphase⟩
  · cases hobj : c.obj <;> simp only [hobj] at hphase
    · exact absurd hphase.2.1 hresp
    · exact ⟨_, rfl, hphase⟩
  · exact hphase

/-- A command that waits, with its exchange. -/
theorem phase_of_exchanging {s : Exchange} {c : Command} {obj : Nat} (hpc : c.pc.Waits)
    (hobj : c.obj = some obj) (h : Exchanging s c obj) : Phase s c := by
  rcases hpc with hpc | hpc | hpc <;> rw [Phase, hpc]
  · simpa only [hobj] using h
  · simpa only [hobj] using h
  · exact ⟨obj, hobj, h⟩

/-- What the parser does to the response of a command that goes on waiting. -/
theorem Serving.parsed {s s' : Exchange} {c c' : Command} {obj : Nat} (h : Serving s)
    (hc : s.command = some c) (hc' : s'.command = some c') (hobj' : c'.obj = some obj)
    (hpc : c.pc.Waits) (hpc' : c'.pc = c.pc)
    (hpriority : c'.priority = c.priority) (hlog : s'.log = s.log)
    (hlist : s'.respNotice.suspendThread = s.respNotice.suspendThread)
    (hlive : (s'.objs obj).isSome) (hex : Exchanging s' c' obj) : Serving s' where
  log := by
    rw [hlog]
    exact h.log
  free := fun hnone => by simp [hc'] at hnone
  live := fun c'' hc'' obj' hobj'' => by
    cases hc'.symm.trans hc''
    cases hobj'.symm.trans hobj''
    exact hlive
  awake := fun c'' hc'' hs => by
    cases hc'.symm.trans hc''
    rw [hlist]
    exact h.awake c hc (hpc' ▸ hs)
  asleep := fun c'' hc'' hs => by
    cases hc'.symm.trans hc''
    rw [hlist, hpriority]
    exact h.asleep c hc (hpc' ▸ hs)
  phase := fun c'' hc'' => by
    cases hc'.symm.trans hc''
    exact phase_of_exchanging (hpc' ▸ hpc) hobj' hex

/-- The release of `resp_notice`. -/
theorem serving_release {s : Exchange} {c : Command} {obj : Nat} {s' : Exchange}
    (h : Serving s) (hparser : s.parser = .withdrawn) (hc : s.command = some c)
    (hobj : c.obj = some obj) (hpc : c.pc.Waits) (hex : Exchanging s c obj)
    (hnext : parserNext s = some s') : Serving s' := by
  rw [Exchanging, hparser] at hex
  obtain ⟨hresp, hvalue, hanswered⟩ := hex
  rw [parserNext, hparser] at hnext
  dsimp only at hnext
  by_cases hs : c.pc = .suspended
  · -- The caller sleeps, and the release resumes it.
    obtain ⟨timer, hlist⟩ := h.asleep c hc hs
    rw [rtSemRelease_of_cons hlist] at hnext
    cases hnext
    refine serving_of_awake (c := c.goto .woken) h.log (by simp [hc]) (h.live c hc)
      (by simp [Command.goto]) rfl ?_
    exact ⟨obj, hobj, ⟨rfl, hresp, hvalue⟩, hanswered⟩
  · -- The caller has yet to take the notice.
    rw [rtSemRelease_of_nil (h.awake c hc hs)] at hnext
    cases hnext
    refine h.parsed hc hc hobj hpc rfl rfl rfl rfl (h.live c hc obj hobj) ?_
    refine Or.inr ⟨hresp, ?_, hs, hanswered⟩
    show s.respNotice.value + 1 = 1
    rw [hvalue]
    rfl

/-- Every statement of the parser keeps the invariant. -/
theorem serving_parserNext {s s' : Exchange} (h : Serving s) (hnext : parserNext s = some s') :
    Serving s' := by
  have hbusy : s.parser ≠ .idle := fun hidle => by simp [parserNext, hidle] at hnext
  obtain ⟨c, obj, hc, hobj, hpc, hex⟩ := h.exchanging hbusy
  have hlive := h.live c hc obj hobj
  cases hparser : s.parser with
  | idle => exact absurd hparser hbusy
  | faulted =>
      rw [Exchanging, hparser] at hex
      exact hex.elim
  | tested line =>
      rw [Exchanging, hparser] at hex
      obtain ⟨hresp, hrest⟩ := hex
      simp only [parserNext, hparser, hresp, Option.some.injEq] at hnext
      subst hnext
      exact h.parsed hc hc hobj hpc rfl rfl rfl rfl hlive ⟨rfl, rfl, hrest⟩
  | fetched obj' line =>
      rw [Exchanging, hparser] at hex
      obtain ⟨rfl, hresp, hvalue, resp, hresp', hlines⟩ := hex
      simp only [parserNext, hparser, hresp', Option.some.injEq] at hnext
      subst hnext
      refine h.parsed hc hc hobj hpc rfl rfl rfl rfl ?_ ?_
      · show (Function.update s.objs obj' _ obj').isSome
        rw [Function.update_self]
        rfl
      · exact ⟨rfl, hresp, hvalue, resp, s.respStatus, hlines, Function.update_self _ _ _, rfl⟩
  | stored obj' line =>
      rw [Exchanging, hparser] at hex
      obtain ⟨rfl, hresp, hvalue, resp, status, hlines, hstored, hstatus⟩ := hex
      have hadd := addLine_eq resp status line
      simp only [parserNext, hparser, hstored, hc, Option.map_some, hstatus,
        Option.some.injEq] at hnext
      subst hnext
      refine h.parsed hc rfl hobj hpc rfl rfl rfl rfl hlive ?_
      generalize hjudge : (resp.store status (terminated line)).1.judge
        (resp.store status (terminated line)).2 (terminated line) = verdict at hadd ⊢
      obtain ⟨status', complete⟩ := verdict
      cases complete with
      | true =>
          exact ⟨hresp, hvalue, judge_of_complete hjudge, _, hstored,
            collect_concat hlines hadd⟩
      | false => exact Or.inl ⟨hresp, hvalue, _, hstored, pending_concat hlines hadd⟩
  | judged =>
      rw [Exchanging, hparser] at hex
      obtain ⟨-, hvalue, hanswered⟩ := hex
      simp only [parserNext, hparser, Option.some.injEq] at hnext
      subst hnext
      exact h.parsed hc hc hobj hpc rfl rfl rfl rfl hlive ⟨rfl, hvalue, hanswered⟩
  | withdrawn => exact serving_release h hparser hc hobj hpc hex hnext

/-! ### The run -/

/-- A timer ends only the wait of a caller that sleeps. -/
theorem Serving.timeout {s : Exchange} {sem : RtSem Unit} (h : Serving s)
    (htimeout : rtSemTimeout s.respNotice () = some sem) :
    sem = { s.respNotice with suspendThread := [] }
      ∧ ∃ c, s.command = some c ∧ c.pc = .suspended := by
  rw [rtSemTimeout] at htimeout
  split at htimeout
  · rename_i hw
    obtain ⟨w, hmem, -⟩ := hw
    constructor
    · cases htimeout
      congr 1
      exact List.filter_eq_nil_iff.mpr fun x _ => by simp
    · cases hc : s.command with
      | none =>
          rw [(h.free hc).2] at hmem
          cases hmem
      | some c =>
          refine ⟨c, rfl, ?_⟩
          by_contra hpc
          rw [h.awake c hc hpc] at hmem
          cases hmem
  · cases htimeout

/-- Every step that is in time keeps the invariant. -/
theorem serving_exchangeStep (s : Exchange) (a : ExchangeAct) (s' : Exchange) (h : Serving s)
    (hg : InTime s a) (hstep : exchangeStep s a = some s') : Serving s' := by
  cases a with
  | createResp obj bufSize lineNum =>
      simp only [exchangeStep] at hstep
      split at hstep
      · rename_i hfresh
        cases hstep
        exact h.update (h.not_inUse hfresh) _
      · cases hstep
  | setInfo obj lineNum =>
      simp only [exchangeStep] at hstep
      split at hstep
      · cases hstep
      · rename_i hfree
        obtain ⟨resp, -, rfl⟩ := Option.map_eq_some_iff.mp hstep
        exact h.update (Bool.not_eq_true _ ▸ hfree) _
  | deleteResp obj =>
      simp only [exchangeStep] at hstep
      split at hstep
      · cases hstep
      · rename_i hfree
        cases hstep
        exact h.update (Bool.not_eq_true _ ▸ fun hin => hfree (Or.inl hin)) _
  | lock obj priority =>
      simp only [exchangeStep] at hstep
      split at hstep
      · rename_i hfree
        cases hstep
        obtain ⟨hquiet, hlist⟩ := h.free hfree.1
        exact serving_of_awake h.log rfl (fun o ho => hfree.2 o ho) (by simp) hlist hquiet
      · cases hstep
  | next time =>
      obtain ⟨c, hc, hnext⟩ := Option.bind_eq_some_iff.mp hstep
      exact serving_commandNext h hc hg hnext
  | timeout =>
      obtain ⟨sem, htimeout, rfl⟩ := Option.map_eq_some_iff.mp hstep
      obtain ⟨rfl, c, hc, hpc⟩ := h.timeout htimeout
      have hphase := h.phase c hc
      rw [Phase, hpc] at hphase
      obtain ⟨obj, hobj, hex⟩ := hphase
      refine serving_of_awake (c := c.goto .timedOut) h.log (by simp [hc]) (h.live c hc)
        (by simp [Command.goto]) rfl ⟨obj, hobj, hg, ?_⟩
      -- The guard leaves the exchange between two lines, and a caller that sleeps has no notice.
      rw [Exchanging, show s.parser = .idle from hg] at hex
      rcases hex with hpending | ⟨-, -, hawake, -⟩
      · exact hpending
      · exact absurd hpc hawake
  | line line =>
      simp only [exchangeStep] at hstep
      split at hstep
      · rename_i hidle
        cases hresp : s.resp with
        | none =>
            rw [if_pos hresp] at hstep
            cases hstep
            exact h
        | some obj' =>
            rw [if_neg (by simp [hresp])] at hstep
            cases hstep
            obtain ⟨c, hc, hpc⟩ := hg (by simp [hresp])
            obtain ⟨obj, hobj, hex⟩ := h.exchanging_of_waits hc hpc (by simp [hresp])
            rw [Exchanging, hidle] at hex
            rcases hex with hpending | ⟨hnone, -⟩
            · exact h.parsed hc hc hobj hpc rfl rfl rfl rfl (h.live c hc obj hobj) hpending
            · rw [hresp] at hnone
              cases hnone
      · cases hstep
  | parse => exact serving_parserNext h hstep

/-- The parser is on a response only while its command waits. -/
def Attended (s : Exchange) : Prop := s.parser ≠ .idle → s.Waits

/-- Leaving `rt_sem_take` without a notice is leaving the parser alone. -/
theorem inTime_of_attended (s : Exchange) (a : ExchangeAct) (s' : Exchange)
    (hstep : exchangeStep s a = some s') (h : Attended s') : InTime s a := by
  have hgone : ∀ t : Exchange, Attended t → t.parser = s.parser →
      (∀ c, t.command = some c → c.pc = .timedOut) → s.parser = .idle := by
    intro t ht hparser hpc
    by_contra hbusy
    obtain ⟨c, hc, hwaits⟩ := ht (by rwa [hparser])
    rw [hpc c hc] at hwaits
    simp [CommandPc.Waits] at hwaits
  cases a with
  | next time =>
      rintro ⟨c, hc, hpc, hobj⟩ htime hvalue
      obtain ⟨obj, hobj⟩ := Option.ne_none_iff_exists'.mp hobj
      simp only [exchangeStep, hc, Option.bind_some, commandNext, hpc, hobj, commandTake, rtSemTake,
        hvalue, if_pos htime] at hstep
      cases hstep
      refine hgone _ h rfl fun c' hc' => ?_
      cases hc'
      rfl
  | timeout =>
      obtain ⟨sem, -, rfl⟩ := Option.map_eq_some_iff.mp hstep
      refine hgone _ h rfl fun c' hc' => ?_
      obtain ⟨c, -, rfl⟩ := Option.map_eq_some_iff.mp hc'
      rfl
  | line line =>
      intro hresp
      simp only [exchangeStep] at hstep
      split at hstep
      · cases hstep
        exact h (by simp)
      · cases hstep
  | _ => trivial

/-- A caller or a parser that goes wrong: a call that returned something else than
`atObjExecCmd`, a bad pointer, or a notice for nobody. -/
structure Sound (s : Exchange) : Prop where
  log : ∀ f ∈ s.log, f.Faithful
  pointer : s.parser ≠ .faulted
  notice : s.command = none → s.respNotice.value = 0

/-- The invariant leaves nothing wrong. -/
theorem Serving.sound {s : Exchange} (h : Serving s) : Sound s where
  log := h.log
  pointer := fun hfault => by
    obtain ⟨c, obj, -, -, -, hex⟩ := h.exchanging (by simp [hfault])
    rw [Exchanging, hfault] at hex
    exact hex
  notice := fun hc => (h.free hc).1.2.2

/-- The parser keeps to the commands that wait. -/
theorem Serving.attended {s : Exchange} (h : Serving s) : Attended s := fun hbusy => by
  obtain ⟨c, obj, hc, -, hpc, -⟩ := h.exchanging hbusy
  exact ⟨c, hc, hpc⟩

/-- **The exchange refines the atomic call.** Under every schedule of callers, parser and timer:
the parser is on a response only while its command waits exactly when every step is in time, and
then every call that has returned returned what `atObjExecCmd` makes of the lines that came in for
it, no null pointer and no deleted response is used, and no notice is left over. -/
theorem exchange_refines (as : List ExchangeAct) :
    (Always exchangeStep Attended exchangeInit as
      ↔ Guarded exchangeStep InTime exchangeInit as)
    ∧ (Guarded exchangeStep InTime exchangeInit as →
      Always exchangeStep Sound exchangeInit as) := by
  have hserving : Guarded exchangeStep InTime exchangeInit as →
      Always exchangeStep Serving exchangeInit as :=
    always_of_guarded serving_exchangeStep serving_exchangeInit
  have hguard : ∀ s a s', Serving s → exchangeStep s a = some s' → Attended s' → InTime s a :=
    fun s a s' _ => inTime_of_attended s a s'
  refine ⟨⟨guarded_of_always serving_exchangeStep hguard serving_exchangeInit, fun hg => ?_⟩,
    fun hg => ?_⟩
  · exact (hserving hg).mono fun _ h => h.attended
  · exact (hserving hg).mono fun _ h => h.sound

/-- A notice that is there before a command is sent answers it: the call returns `RT_EOK` with an
empty response, before any line of it can come in. -/
theorem stale_notice {s : Exchange} {obj : Nat} {resp : AtResponse} (hc : s.command = none)
    (hresp : s.objs obj = some resp) (hvalue : s.respNotice.value ≠ 0) (priority : Nat)
    (time : Int) :
    (run exchangeStep s (.lock (some obj) priority :: List.replicate 8 (.next time))).map (·.log)
      = some (s.log ++ [⟨some obj, resp, [], some resp.clear, 0⟩]) := by
  have hpos : 0 < s.respNotice.value := UInt16.pos_iff_ne_zero.mpr hvalue
  simp [run, List.replicate, exchangeStep, hc, hresp, commandNext, commandTake,
    rtSemTake_of_pos hpos, Command.goto]

-- The timer runs out while the parser stores the `OK`. The next call is answered at once.
example :
    (run exchangeStep exchangeInit
      [.createResp 0 64 0, .lock (some 0) 10, .next 300, .next 300, .next 300, .next 300, .next 300,
        .line (ascii "OK\r\n"), .parse, .timeout, .parse, .parse, .parse, .parse, .next 300,
        .next 300, .next 300, .lock (some 0) 10, .next 300, .next 300, .next 300, .next 300,
        .next 300, .next 300, .next 300, .next 300]).map (·.log.map (·.result))
      = some [-rtEtimeout, 0] := by
  decide +kernel

end CarLocator.At
