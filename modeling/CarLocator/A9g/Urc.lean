import CarLocator.At.Client
import CarLocator.Kernel.Event

/-!
# `CarLocator.A9g.Urc`: the URC functions of the A9G device

The URC tables of `applications/at_device_a9g.c` and `applications/at_socket_a9g.c`, in the
order in which they are registered, and the functions they name. A function gets the line
and the bytes behind it, and returns what it does (`SocketEffect`) and the bytes it leaves.
`none` stands for undefined behaviour and for a wait for bytes that do not come.

The device is registered, has eight sockets, and its lookup succeeds. Whether memory is
there and which callbacks are set is in the `Env`.
-/

set_option autoImplicit false

namespace CarLocator.A9g

open CarLocator.At
open CarLocator.Kernel (EventSet)
open CarLocator.Library

/-- `AT_DEVICE_A9G_SOCKETS_NUM`. -/
def socketsNum : Nat := 8

/-- What the URC functions depend on besides the input. -/
structure Env where
  -- `rt_calloc` of this many bytes succeeds
  calloc : Nat → Bool
  -- the callbacks of `at_evt_cb_set` are set
  evtRecv : Bool
  evtClosed : Bool

/-- The URC functions. -/
inductive UrcFunc
  | urcFunc
  | urcConnectFunc
  | urcSendFunc
  | urcCloseFunc
  | urcRecvFunc
  deriving DecidableEq, Repr

/-- What a URC function does. -/
inductive SocketEffect
  | eventSend (set : EventSet)
  | closed (socket : Nat)
  | recv (socket : Nat) (data : Bytes)
  deriving DecidableEq, Repr

/-- `A9G_EVENT_CONN_OK` and its siblings. -/
def a9gEventConnOk : EventSet := 1#32 <<< 0
def a9gEventSendOk : EventSet := 1#32 <<< 1
def a9gEventRecvOk : EventSet := 1#32 <<< 2
def a9gEventCloseOk : EventSet := 1#32 <<< 3
def a9gEventConnFail : EventSet := 1#32 <<< 4
def a9gEventSendFail : EventSet := 1#32 <<< 5

/-- `SET_EVENT(socket, event)`. -/
def setEvent (socket : Int) (event : EventSet) : EventSet :=
  BitVec.ofInt 32 (socket + 1) <<< 16 ||| event

/-- `sscanf(data, "%d,%*s", &device_socket)` on a `device_socket` that was 0. -/
def scanSocket (data : Bytes) : Option Int := do
  match ← scan [.int true, .lit 44, .str false] (cString data) with
  | .int v :: _ => pure v
  | _ => pure 0

/-- `urc_connect_func`. -/
def urcConnectFunc (data : Bytes) : Option (List SocketEffect) := do
  let deviceSocket ← scanSocket data
  if (strstr (ascii "CONNECT OK") data).isSome then
    pure [.eventSend (setEvent deviceSocket a9gEventConnOk)]
  else if (strstr (ascii "CONNECT FAIL") data).isSome then
    pure [.eventSend (setEvent deviceSocket a9gEventConnFail)]
  else pure []

/-- `urc_send_func`. -/
def urcSendFunc (data : Bytes) : Option (List SocketEffect) := do
  let deviceSocket ← scanSocket data
  if (strstr (ascii "SEND OK") data).isSome then
    pure [.eventSend (setEvent deviceSocket a9gEventSendOk)]
  else if (strstr (ascii "SEND FAIL") data).isSome then
    pure [.eventSend (setEvent deviceSocket a9gEventSendFail)]
  else pure []

/-- The index of `&(device->sockets[device_socket])`, which has to be inside the array. -/
def socketIndex (deviceSocket : Int) : Option Nat :=
  if 0 ≤ deviceSocket ∧ deviceSocket < socketsNum then some deviceSocket.toNat else none

/-- `urc_close_func`. -/
def urcCloseFunc (env : Env) (data : Bytes) : Option (List SocketEffect) := do
  let deviceSocket ← scanSocket data
  if (strstr (ascii "CLOSE OK") data).isSome then
    pure [.eventSend (setEvent deviceSocket a9gEventCloseOk)]
  else if (strstr (ascii "CLOSED") data).isSome then
    let socket ← socketIndex deviceSocket
    pure (if env.evtClosed then [.closed socket] else [])
  else pure []

/-- The format `"+CIPRCV,%d,%d:"`. -/
def ciprcvFormat : List Directive :=
  lits (ascii "+CIPRCV,") ++ [.int true, .lit 44, .int true, .lit 58]

/-- The socket and the length of `+CIPRCV`, 0 where nothing was read. The length is an
`int` read into a `rt_size_t`. -/
def scanCiprcv (data : Bytes) : Option (Int × Nat) := do
  match ← scan ciprcvFormat (cString data) with
  | [.int s] => pure (s, 0)
  | [.int s, .int n] => pure (s, (BitVec.ofInt 32 n).toNat)
  | _ => pure (0, 0)

/-- `sizeof(temp)`. -/
def tempCapacity : Nat := 8

/-- What the discard loop of `urc_recv_func` asks for when `temp_size` of `bfsz` bytes are
done. -/
def drainRequest (bfsz tempSize : Nat) : Nat :=
  if bfsz - tempSize > tempCapacity then tempCapacity else bfsz - tempSize

/-- There is something to ask for. -/
theorem drainRequest_pos {bfsz tempSize : Nat} (h : tempSize < bfsz) :
    0 < drainRequest bfsz tempSize := by
  unfold drainRequest tempCapacity
  split <;> omega

/-- The discard loop of `urc_recv_func`. The counter, a `rt_size_t`, goes on by
`sizeof(temp)` after each piece, the last one included. -/
def drain (bfsz : Nat) (rest : Bytes) (tempSize : Nat) : Option Bytes :=
  if tempSize < bfsz then
    match h : atClientObjRecv rest (drainRequest bfsz tempSize) with
    | none => none
    | some (_, rest') => drain bfsz rest' ((tempSize + tempCapacity) % 2 ^ 32)
  else some rest
termination_by rest.length
decreasing_by
  have hlt : tempSize < bfsz := by assumption
  have hpos := drainRequest_pos hlt
  unfold atClientObjRecv at h
  split at h
  · cases h
    rw [List.length_drop]
    omega
  · cases h

/-- One round of the discard loop. -/
theorem drain_round {bfsz tempSize : Nat} (h : tempSize < bfsz) (rest : Bytes) :
    drain bfsz rest tempSize
      = (atClientObjRecv rest (drainRequest bfsz tempSize)).bind fun r =>
          drain bfsz r.2 ((tempSize + tempCapacity) % 2 ^ 32) := by
  rw [drain, if_pos h]
  split <;> rename_i hrecv <;> rw [hrecv] <;> rfl

/-- The loop ends when the counter has reached the length. -/
theorem drain_done {bfsz tempSize : Nat} (h : ¬ tempSize < bfsz) (rest : Bytes) :
    drain bfsz rest tempSize = some rest := by
  rw [drain, if_neg h]

/-- `urc_recv_func`. `size` counts the two bytes that end the line. -/
def urcRecvFunc (env : Env) (data rest : Bytes) : Option (List SocketEffect × Bytes) := do
  let (deviceSocket, bfsz) ← scanCiprcv data
  if deviceSocket < 0 ∨ bfsz = 0 then pure ([], rest)
  else
    let colon ← strstr (ascii ":") data
    let payload := colon.drop 1
    if payload.length < 2 then none
    else
      let tempSize := payload.length - 2
      if env.calloc bfsz = false then
        let rest ← drain bfsz rest tempSize
        pure ([], rest)
      else if bfsz < tempSize then none
      else
        let (more, rest) ← atClientObjRecv rest (bfsz - tempSize)
        let socket ← socketIndex deviceSocket
        let recvBuf := payload.take tempSize ++ more
        pure (if env.evtRecv then [.recv socket recvBuf] else [], rest)

/-- The URC function behind a table entry. -/
def execUrc (env : Env) : UrcFunc → Bytes → Bytes → Option (List SocketEffect × Bytes)
  | .urcFunc, _, rest => some ([], rest)
  | .urcConnectFunc, data, rest => (urcConnectFunc data).map (·, rest)
  | .urcSendFunc, data, rest => (urcSendFunc data).map (·, rest)
  | .urcCloseFunc, data, rest => (urcCloseFunc env data).map (·, rest)
  | .urcRecvFunc, data, rest => urcRecvFunc env data rest

/-- The URC table for the device control. -/
def deviceUrcTable : List (AtUrc UrcFunc) :=
  [⟨ascii "READY", ascii "\r\n", some .urcFunc⟩]

/-- The URC table for the socket data. -/
def socketUrcTable : List (AtUrc UrcFunc) := [
  ⟨ascii "", ascii "CONNECT OK\r\n", some .urcConnectFunc⟩,
  ⟨ascii "", ascii ",CONNECT FAIL\r\n", some .urcConnectFunc⟩,
  ⟨ascii "", ascii ",SEND FAIL\r\n", some .urcSendFunc⟩,
  ⟨ascii "CLOSED:", ascii "\r\n", some .urcCloseFunc⟩,
  ⟨ascii "+CIPRCV,", ascii "\r\n", some .urcRecvFunc⟩]

/-- The tables in the order `a9g_init` registers them. -/
def urcTable : List (List (AtUrc UrcFunc)) := [deviceUrcTable, socketUrcTable]

/-- Every suffix ends in `\r\n`. -/
theorem crlfTable_urcTable : CrlfTable urcTable := by
  unfold CrlfTable
  decide

end CarLocator.A9g
