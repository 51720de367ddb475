import CarLocator.A9g.Resolve
import CarLocator.A9g.Retry
import CarLocator.A9g.Send
import CarLocator.A9g.SetInfo

/-!
# `CarLocator.A9g.Cleanup`: every modem operation cleans up

The traces of the operations read as calls on the resources of the AT client: their response
objects, the lock and the end sign. `cleansUp_operations` says for all five operations that
every trace cleans up, whatever the modem, the parses and the allocator do. It is an
instance of `cleansUp_of_neutral` for four of them. `a9g_socket_send` also holds the lock
and changes the end sign around its packets.
-/

set_option autoImplicit false

namespace CarLocator.A9g

open CarLocator.At
open CarLocator.Kernel
open CarLocator.Library

/-! ### Reading the traces -/

/-- A call of `a9g_socket_connect` or `a9g_socket_close`. `AT+CIPSTART` has no response
object, and `AT+CIPCLOSE` has the one of `a9g_socket_close`. -/
def ConnectCall.resCalls : ConnectCall → List ResCall
  | .createResp obj ok => if ok then [.createResp obj] else []
  | .deleteResp obj => [.deleteResp obj]
  | .arrived _ | .eventRecv _ _ _ => []
  | .cipstart _ outcome => execCalls none outcome
  | .cipclose outcome => execCalls (some 1) outcome

/-- A call of `a9g_socket_send`, when a command that does not succeed is refused, or not. -/
def sendResCalls (refused : Bool) : AtCall → List ResCall
  | .createResp _ _ => [.createResp 0]
  | .deleteResp => [.deleteResp 0]
  | .mutexTake => [.mutexTake]
  | .mutexRelease => [.mutexRelease]
  | .setEndSign ch => [.setEndSign ch]
  | .respSetInfo _ _ => [.useResp 0]
  | .execCmd _ true => execCalls (some 0) .ok
  | .execCmd _ false => execCalls (some 0) (if refused then .refused else .failed)
  | .objSend _ _ => []

/-- The calls of `a9g_socket_send`, when `refused` says of each whether it is refused if it
does not succeed. -/
def sendTrace (refused : Nat → Bool) (calls : List AtCall) : List ResCall :=
  calls.zipIdx.flatMap fun (call, k) => sendResCalls (refused k) call

/-! ### `a9g_socket_connect` and `a9g_socket_close` -/

/-- Receives and event sets do not concern the resources. -/
theorem resCalls_arrived (sets : List EventSet) :
    (sets.map ConnectCall.arrived).flatMap ConnectCall.resCalls = [] := by
  simp [ConnectCall.resCalls]

theorem resCalls_eventRecvWait (set : EventSet) (timeout : Int) (event : RtEvent Unit)
    (sets : List EventSet) :
    (eventRecvWait set timeout event sets).2.2.flatMap ConnectCall.resCalls = [] := by
  induction sets generalizing event with
  | nil => rfl
  | cons s sets ih =>
      rw [eventRecvWait]
      split
      · exact ih _
      · exact resCalls_arrived sets

theorem resCalls_a9gSocketEventRecv (event : RtEvent Unit) (set : EventSet) (timeout : Int)
    (sets : List EventSet) :
    (a9gSocketEventRecv event set timeout sets).2.2.flatMap ConnectCall.resCalls = [] := by
  rw [a9gSocketEventRecv]
  rcases rtEventRecv event () 0 set (rtEventFlagOr ||| rtEventFlagClear) timeout
    with ⟨result, event'⟩
  cases result with
  | suspended => exact resCalls_eventRecvWait set timeout event' sets
  | _ => exact resCalls_arrived sets

/-- Neither does a pass, apart from its command, which has no response object. -/
theorem neutral_connectAttempt (a : AttemptAnswers) (socket : Int) (type : AtSocketType)
    (isClient : Bool) (event : RtEvent Unit) :
    Neutral (fun s => s.clientResp = none)
      ((connectAttempt a socket type isClient event).2.2.flatMap ConnectCall.resCalls) := by
  have hstart : Neutral (fun s => s.clientResp = none)
      ((connectStart type isClient a.cipstart).2.flatMap ConnectCall.resCalls) := by
    cases isClient with
    | false => exact Neutral.nil
    | true =>
        cases type with
        | invalid => exact Neutral.nil
        | tcp | udp =>
            simpa [connectStart, ConnectCall.resCalls] using neutral_execCalls_none a.cipstart
  simp only [connectAttempt]
  split
  · simpa [resCalls_a9gSocketEventRecv] using hstart
  · split
    · simpa [resCalls_a9gSocketEventRecv] using hstart
    · split
      · simpa [resCalls_a9gSocketEventRecv] using hstart
      · split <;> simpa [resCalls_a9gSocketEventRecv] using hstart

/-- The calls of `a9g_socket_close` change nothing when its object is not there before. -/
theorem neutral_a9gSocketClose (closeResp : Bool) (cipclose : ExecOutcome) :
    Neutral (fun s => s.live 1 = false ∧ s.clientResp = none)
      ((a9gSocketClose closeResp cipclose).2.flatMap ConnectCall.resCalls) := by
  cases closeResp with
  | false => exact Neutral.nil
  | true =>
      rintro s ⟨hlive, hclient⟩
      refine run_neutral hlive hclient (neutral_execCalls 1 cipclose _ ⟨?_, hclient⟩)
      exact Function.update_self 1 true s.live

/-- `a9g_socket_close` cleans up. -/
theorem cleansUp_a9gSocketClose (closeResp : Bool) (cipclose : ExecOutcome) :
    CleansUp ((a9gSocketClose closeResp cipclose).2.flatMap ConnectCall.resCalls) :=
  cleansUp_of_restores fun s hs =>
    ⟨s, neutral_a9gSocketClose closeResp cipclose s ⟨hs.1 1, hs.2⟩, hs, rfl, id⟩

/-- The second pass of `a9g_socket_connect` ends the call. -/
theorem neutral_connectFrom_retryed (a : ConnectAnswers) (socket : Int) (type : AtSocketType)
    (isClient : Bool) (passes : Nat) (event : RtEvent Unit) :
    ∃ r, connectFrom a socket type isClient (passes + 1) true event = some r ∧
      Neutral (fun s => s.clientResp = none) (r.2.flatMap ConnectCall.resCalls) := by
  have hattempt := neutral_connectAttempt (a.attempt true) socket type isClient event
  rw [connectFrom]
  rcases hpass : connectAttempt (a.attempt true) socket type isClient event
    with ⟨_ | _, event', calls⟩ <;> rw [hpass] at hattempt
  · exact ⟨_, rfl, hattempt⟩
  · exact ⟨_, rfl, hattempt⟩

/-- From the first pass on, with `a9g_socket_close` in between if it fails. -/
theorem neutral_connectFrom (a : ConnectAnswers) (socket : Int) (type : AtSocketType)
    (isClient : Bool) (passes : Nat) (event : RtEvent Unit) :
    ∃ r, connectFrom a socket type isClient (passes + 2) false event = some r ∧
      Neutral (Holding 0) (r.2.flatMap ConnectCall.resCalls) := by
  have hattempt := neutral_connectAttempt (a.attempt false) socket type isClient event
  have hclose := neutral_a9gSocketClose a.closeResp a.cipclose
  rw [connectFrom]
  rcases hpass : connectAttempt (a.attempt false) socket type isClient event
    with ⟨_ | _, event', calls⟩ <;> rw [hpass] at hattempt
  · exact ⟨_, rfl, hattempt.mono fun s hs => hs.2⟩
  · -- CONNECT FAIL: object 1 comes and goes while object 0 is there.
    have hfirst : Neutral (Holding 0) (calls.flatMap ConnectCall.resCalls) :=
      hattempt.mono fun s hs => hs.2
    have hthen : Neutral (Holding 0)
        ((a9gSocketClose a.closeResp a.cipclose).2.flatMap ConnectCall.resCalls) :=
      hclose.mono fun s hs => ⟨by simp [hs.1], hs.2⟩
    obtain ⟨⟨result, more⟩, hmore, hsecond⟩ :=
      neutral_connectFrom_retryed a socket type isClient passes event'
    simp only [Bool.false_eq_true, if_false]
    split
    · refine ⟨_, rfl, ?_⟩
      rw [List.flatMap_append]
      exact hfirst.append hthen
    · refine ⟨_, by rw [hmore, Option.map_some], ?_⟩
      rw [List.flatMap_append, List.flatMap_append]
      exact (hfirst.append hthen).append (hsecond.mono fun s hs => hs.2)

/-- `a9g_socket_connect` cleans up. -/
theorem cleansUp_a9gSocketConnect (a : ConnectAnswers) (socket : Int) (type : AtSocketType)
    (isClient : Bool) (passes : Nat) (event : RtEvent Unit) :
    ∃ r, a9gSocketConnect a socket type isClient (passes + 2) event = some r ∧
      CleansUp (r.2.flatMap ConnectCall.resCalls) := by
  rw [a9gSocketConnect]
  cases a.createResp with
  | false => exact ⟨_, if_pos rfl, cleansUp_nil⟩
  | true =>
      obtain ⟨⟨result, calls⟩, hfrom, hneutral⟩ :=
        neutral_connectFrom a socket type isClient passes event
      rw [if_neg (by decide), hfrom]
      refine ⟨_, rfl, ?_⟩
      rw [List.flatMap_append, List.flatMap_append]
      exact cleansUp_of_neutral hneutral

/-! ### `a9g_domain_resolve` -/

/-- A round leaves the resources as they were. -/
theorem neutral_resolveRound (a : RoundAnswers) (recvIp : Bytes) :
    Neutral (Has 0) (resolveRound a recvIp).2.2 := by
  have hparse := neutral_useResp 0
  simp only [resolveRound]
  split
  · exact neutral_execCalls 0 a.cdnsgip
  · have hquery := neutral_execCalls 0 .ok
    split
    · exact hquery.append hparse
    · cases a.addr <;> exact (hquery.append hparse).append hparse

/-- So does the loop. -/
theorem neutral_resolveLoop (rounds : Nat → RoundAnswers) (n k : Nat) (recvIp : Bytes) :
    ∃ r, resolveLoop (fun k => some (rounds k)) n k recvIp = some r ∧
      Neutral (Has 0) r.calls := by
  induction n generalizing k recvIp with
  | zero => exact ⟨_, rfl, Neutral.nil⟩
  | succ n ih =>
      have hround := neutral_resolveRound (rounds k) recvIp
      rw [resolveLoop]
      rcases hres : resolveRound (rounds k) recvIp with ⟨_ | _ | _, recvIp', calls⟩ <;>
        simp only [hres] at hround ⊢
      · exact ⟨_, rfl, hround⟩
      · obtain ⟨r, hmore, hneutral⟩ := ih (k + 1) recvIp'
        exact ⟨_, by rw [hmore, Option.map_some], hround.append hneutral⟩
      · exact ⟨_, rfl, hround⟩

/-- `a9g_domain_resolve` cleans up. -/
theorem cleansUp_a9gDomainResolve (device createResp : Bool) (rounds : Nat → RoundAnswers) :
    ∃ r, a9gDomainResolve device createResp (fun k => some (rounds k)) = some r ∧
      CleansUp r.calls := by
  rw [a9gDomainResolve]
  cases device with
  | false => exact ⟨_, if_pos rfl, cleansUp_nil⟩
  | true =>
      cases createResp with
      | false => exact ⟨_, by rw [if_neg (by decide), if_pos rfl], cleansUp_nil⟩
      | true =>
          obtain ⟨r, hloop, hneutral⟩ := neutral_resolveLoop rounds resolveRetry 0 []
          rw [if_neg (by decide), if_neg (by decide), hloop]
          exact ⟨_, rfl, cleansUp_of_neutral (hneutral.mono fun _ h => h.has)⟩

/-! ### `a9g_socket_send` -/

/-- The calls inside the loop: commands, data, and settings of the response object, which keep
its size. -/
def InLoop : AtCall → Prop
  | .respSetInfo bufSize _ => bufSize = 128
  | .execCmd _ _ | .objSend _ _ => True
  | _ => False

/-- All calls of a packet are inside the loop. -/
theorem inLoop_sendPacket (p : PacketAnswers) (socket : Int) (data : Bytes) :
    ∀ call ∈ (sendPacket p socket data).2, InLoop call := by
  simp only [sendPacket]
  split_ifs <;> simp [InLoop]

/-- All calls of the loop are. -/
theorem inLoop_sendLoop (a : SendAnswers) (socket : Int) (buff : Bytes) (sentSize k : Nat)
    (result : Int) : ∀ call ∈ (sendLoop a socket buff sentSize k result).2, InLoop call := by
  -- The cases are those of the loop: a packet that fails, one that passes, the end.
  induction sentSize, k, result using sendLoop.induct a socket buff with
  | case1 sentSize k result hlt size calls hpacket =>
      have hcalls := inLoop_sendPacket (a.packet k) socket ((buff.drop sentSize).take size)
      rw [hpacket] at hcalls
      rw [sendLoop, if_pos hlt]
      simp only [size] at hpacket
      simpa only [hpacket] using hcalls
  | case2 sentSize k result hlt size accepted calls hpacket last more hmore ih =>
      have hcalls := inLoop_sendPacket (a.packet k) socket ((buff.drop sentSize).take size)
      rw [hpacket] at hcalls
      rw [sendLoop, if_pos hlt]
      simp only [size] at hpacket
      simp only [hpacket]
      intro call hcall
      change call ∈ calls ++ (sendLoop a socket buff (sentSize + size) (k + 1) accepted).2 at hcall
      exact (List.mem_append.mp hcall).elim (hcalls call) (ih call)
  | case3 sentSize k result hge =>
      rw [sendLoop, if_neg hge]
      exact fun call hcall => absurd hcall List.not_mem_nil

/-- A call inside the loop leaves the resources as they were. -/
theorem neutral_sendResCalls {call : AtCall} (h : InLoop call) (refused : Bool) :
    Neutral (Has 0) (sendResCalls refused call) := by
  cases call with
  | respSetInfo => exact neutral_useResp 0
  | execCmd cmd ok =>
      cases ok with
      | false => exact neutral_execCalls 0 _
      | true => exact neutral_execCalls 0 .ok
  | objSend => exact Neutral.nil
  | _ => exact h.elim

/-- The calls around the packets: the lock and the end sign are put back. -/
theorem run_locked {body : List ResCall} (hbody : Neutral (Has 0) body) {s : Resources}
    (hs : s.Before) :
    run resStep s ([.createResp 0, .mutexTake, .setEndSign 62] ++ body
      ++ [.setEndSign 0, .mutexRelease, .deleteResp 0]) = some { s with endSign := 0 } := by
  rw [run_append, run_append]
  -- The body runs with the lock held once more and the end sign at '>'.
  have hopen : run resStep s [.createResp 0, .mutexTake, .setEndSign 62]
      = some { s with
          live := Function.update s.live 0 true, hold := s.hold + 1, endSign := 62 } := by
    simp [run, resStep, hs.1]
  have hmid := hbody { s with
    live := Function.update s.live 0 true, hold := s.hold + 1, endSign := 62 }
      ⟨Function.update_self 0 true s.live, hs.2⟩
  rw [hopen, Option.bind_some, hmid, Option.bind_some]
  have hback : Function.update s.live 0 false = s.live := by
    rw [← hs.1 0, Function.update_eq_self]
  simp [run, resStep, hs.2, hback]

/-- `a9g_socket_send` cleans up. -/
theorem cleansUp_a9gSocketSend (a : SendAnswers) (socket : Int) (buff : Bytes)
    (refused : Nat → Bool) : CleansUp (sendTrace refused (a9gSocketSend a socket buff).2) := by
  rw [a9gSocketSend]
  cases a.createResp with
  | false => exact cleansUp_nil
  | true =>
      have hinLoop := inLoop_sendLoop a socket buff 0 0 0
      rcases hloop : sendLoop a socket buff 0 0 0 with ⟨result, calls⟩
      rw [hloop] at hinLoop
      -- The first three calls are at the positions 0, 1 and 2.
      have hneutral : Neutral (Has 0)
          ((calls.zipIdx 3).flatMap fun (call, k) => sendResCalls (refused k) call) :=
        Neutral.flatMap fun x hx =>
          neutral_sendResCalls (hinLoop x.1 (List.fst_mem_of_mem_zipIdx hx)) (refused x.2)
      refine cleansUp_of_restores fun s hs => ⟨{ s with endSign := 0 }, ?_, hs, rfl, fun _ => rfl⟩
      have hrun := run_locked hneutral hs
      simpa [sendTrace, sendResCalls, List.zipIdx_append] using hrun

/-! ### All operations -/

/-- **Every operation cleans up**, on all paths. -/
theorem cleansUp_operations :
    (∀ (a : ConnectAnswers) (socket : Int) (type : AtSocketType) (isClient : Bool)
      (passes : Nat) (event : RtEvent Unit),
      ∃ r, a9gSocketConnect a socket type isClient (passes + 2) event = some r ∧
        CleansUp (r.2.flatMap ConnectCall.resCalls)) ∧
    (∀ (closeResp : Bool) (cipclose : ExecOutcome),
      CleansUp ((a9gSocketClose closeResp cipclose).2.flatMap ConnectCall.resCalls)) ∧
    (∀ (a : SendAnswers) (socket : Int) (buff : Bytes) (refused : Nat → Bool),
      CleansUp (sendTrace refused (a9gSocketSend a socket buff).2)) ∧
    (∀ (device createResp : Bool) (rounds : Nat → RoundAnswers),
      ∃ r, a9gDomainResolve device createResp (fun k => some (rounds k)) = some r ∧
        CleansUp r.calls) ∧
    ∀ (a : SetInfoAnswers) (netdev : NetdevInfo), CleansUp (a9gNetdevSetInfo a netdev).calls :=
  ⟨cleansUp_a9gSocketConnect, cleansUp_a9gSocketClose, cleansUp_a9gSocketSend,
    cleansUp_a9gDomainResolve, cleansUp_a9gNetdevSetInfo⟩

end CarLocator.A9g
