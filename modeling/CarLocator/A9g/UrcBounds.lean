import CarLocator.A9g.Urc

/-!
# `CarLocator.A9g.UrcBounds`: the arithmetic of `urc_recv_func` and `urc_close_func`

What a line announces is not checked against what it holds. `urc_recv_func` tests only the
sign of the socket and whether the length is 0, and the length is an `int` read into an
unsigned variable, so a negative one is close to `2 ^ 32`.

Two things follow. The discard loop of the path without memory counts in steps of
`sizeof(temp)`: near the top of the range the counter wraps around and never reaches the
length (`drainsAlike_iff`). And the pointer, the copy, the differences and the index that
the functions use are in bounds only for some lines (`inBounds_iff`).
-/

set_option autoImplicit false

namespace CarLocator.A9g

open CarLocator.At
open CarLocator.Library

/-! ### The discard loop -/

/-- The sizes the discard loop asks for, when it ends within `rounds` rounds. -/
def drainRequests (bfsz : Nat) : Nat → Nat → Option (List Nat)
  | 0, _ => none
  | rounds + 1, tempSize =>
    if tempSize < bfsz then
      (drainRequests bfsz rounds ((tempSize + tempCapacity) % 2 ^ 32)).map
        (drainRequest bfsz tempSize :: ·)
    else some []

/-- The path without memory leaves the stream where the other one does: the discard loop
ends, it asks for the bytes that are missing on the line, and the receive function is as far
as after reading them at once. -/
structure DrainsAlike (data : Bytes) (deviceSocket : Int) (bfsz tempSize : Nat) : Prop where
  requests : ∃ rounds sizes, drainRequests bfsz rounds tempSize = some sizes ∧
    sizes.sum = bfsz - tempSize ∧ ∀ size ∈ sizes, size ≤ tempCapacity
  noMemory : ∀ env : Env, env.calloc bfsz = false → ∀ rest,
    (urcRecvFunc env data rest).map Prod.snd
      = (atClientObjRecv rest (bfsz - tempSize)).map Prod.snd
  received : ∀ env : Env, env.calloc bfsz = true → deviceSocket < socketsNum → ∀ rest,
    (urcRecvFunc env data rest).map Prod.snd
      = (atClientObjRecv rest (bfsz - tempSize)).map Prod.snd

/-- The loop on a stream, by the sizes it asks for. -/
theorem drain_of_requests {bfsz rounds tempSize : Nat} {sizes : List Nat}
    (h : drainRequests bfsz rounds tempSize = some sizes) (rest : Bytes) :
    drain bfsz rest tempSize = (atClientObjRecv rest sizes.sum).map Prod.snd := by
  induction rounds generalizing tempSize sizes rest with
  | zero => cases h
  | succ rounds ih =>
      rw [drainRequests] at h
      split at h
      · rename_i hlt
        obtain ⟨sizes', hmore, rfl⟩ := Option.map_eq_some_iff.mp h
        rw [drain_round hlt, List.sum_cons]
        -- Either the stream has the first piece, or both readers wait for ever.
        by_cases hfirst : drainRequest bfsz tempSize ≤ rest.length
        · rw [atClientObjRecv, if_pos hfirst, Option.bind_some, ih hmore, atClientObjRecv,
            atClientObjRecv, List.length_drop, List.drop_drop]
          by_cases hall : drainRequest bfsz tempSize + sizes'.sum ≤ rest.length
          · rw [if_pos (by omega), if_pos hall]
            rfl
          · rw [if_neg (by omega), if_neg hall]
        · rw [atClientObjRecv, if_neg hfirst, atClientObjRecv, if_neg (by omega)]
          rfl
      · rename_i hge
        cases h
        rw [drain_done hge]
        rfl

/-- A counter that does not wrap around: the loop ends after asking for what is missing. The
induction is on what is missing, and the last multiple of `sizeof(temp)` above the counter
is still below `2 ^ 32`. -/
theorem drainRequests_ends {bfsz tempSize : Nat} (ht : tempSize < 2 ^ 32)
    (h : bfsz ≤ 2 ^ 32 - 8 + tempSize % 8) :
    ∃ rounds sizes, drainRequests bfsz rounds tempSize = some sizes ∧
      sizes.sum = bfsz - tempSize ∧ ∀ size ∈ sizes, size ≤ tempCapacity := by
  induction hmissing : bfsz - tempSize using Nat.strong_induction_on
    generalizing tempSize with
  | _ missing ih =>
      by_cases hlt : tempSize < bfsz
      · -- The bound leaves room for one more step of the counter.
        have hnext : (tempSize + 8) % 2 ^ 32 = tempSize + 8 := by omega
        obtain ⟨rounds, sizes, hmore, hsum, hall⟩ :=
          ih (bfsz - (tempSize + 8)) (by omega) (by omega) (by omega) rfl
        refine ⟨rounds + 1, drainRequest bfsz tempSize :: sizes, ?_, ?_, ?_⟩
        · rw [drainRequests, if_pos hlt]
          show Option.map _ (drainRequests bfsz rounds ((tempSize + 8) % 2 ^ 32)) = _
          rw [hnext, hmore]
          rfl
        · rw [List.sum_cons, hsum]
          unfold drainRequest tempCapacity
          split <;> omega
        · intro size hsize
          rcases List.mem_cons.mp hsize with rfl | hsize
          · unfold drainRequest tempCapacity
            split <;> omega
          · exact hall size hsize
      · -- Nothing is missing, and the loop is not entered.
        refine ⟨1, [], ?_, by simp only [List.sum_nil]; omega, by simp⟩
        rw [drainRequests, if_neg hlt]

/-- A counter that wraps around never reaches the length: it keeps its remainder modulo
`sizeof(temp)`, and the largest number with this remainder is too small. -/
theorem drainRequests_wraps {bfsz tempSize : Nat} (ht : tempSize < 2 ^ 32)
    (h : 2 ^ 32 - 8 + tempSize % 8 < bfsz) (rounds : Nat) :
    drainRequests bfsz rounds tempSize = none := by
  induction rounds generalizing tempSize with
  | zero => rfl
  | succ rounds ih =>
      -- The remainder modulo 8 survives the wrap-around, and the bound with it.
      have hnext : drainRequests bfsz rounds ((tempSize + 8) % 2 ^ 32) = none :=
        ih (Nat.mod_lt _ (by norm_num)) (by omega)
      rw [drainRequests, if_pos (by omega)]
      show Option.map _ (drainRequests bfsz rounds ((tempSize + 8) % 2 ^ 32)) = none
      rw [hnext]
      rfl

/-- The length is a 32-bit number. -/
theorem scanCiprcv_lt {data : Bytes} {deviceSocket : Int} {bfsz : Nat}
    (h : scanCiprcv data = some (deviceSocket, bfsz)) : bfsz < 2 ^ 32 := by
  obtain ⟨vals, -, h⟩ := Option.bind_eq_some_iff.mp h
  split at h
  · cases h
    norm_num
  · cases h
    exact (BitVec.ofInt 32 _).isLt
  · cases h
    norm_num

/-- A line that `urc_recv_func` does not reject, up to the allocation. -/
theorem urcRecvFunc_accepted {data payload : Bytes} {deviceSocket : Int} {bfsz tempSize : Nat}
    (hscan : scanCiprcv data = some (deviceSocket, bfsz)) (hs : 0 ≤ deviceSocket)
    (hn : bfsz ≠ 0) (hcolon : strstr (ascii ":") data = some (58 :: payload))
    (hsize : payload.length = tempSize + 2) (env : Env) (rest : Bytes) :
    urcRecvFunc env data rest
      = if env.calloc bfsz = false then (drain bfsz rest tempSize).map ([], ·)
        else if bfsz < tempSize then none
        else (atClientObjRecv rest (bfsz - tempSize)).bind fun r =>
          (socketIndex deviceSocket).map fun socket =>
            (if env.evtRecv then [.recv socket (payload.take tempSize ++ r.1)] else [], r.2) := by
  have hnot : ¬ (deviceSocket < 0 ∨ bfsz = 0) := by omega
  have htwo : ¬ payload.length < 2 := by omega
  -- What is behind the `:`, less the line end.
  have htemp : payload.length - 2 = tempSize := by omega
  rw [urcRecvFunc, hscan]
  simp only [Option.bind_eq_bind, Option.bind_some, hnot, if_false, hcolon,
    List.drop_succ_cons, List.drop_zero, htwo, htemp]
  split
  · cases drain bfsz rest tempSize <;> rfl
  · split
    · rfl
    · cases atClientObjRecv rest (bfsz - tempSize) with
      | none => rfl
      | some r =>
          simp only [Option.bind_some]
          cases socketIndex deviceSocket <;> rfl

/-- **The path without memory drains what the other one reads** exactly when the counter of
the discard loop reaches the length before it wraps around. -/
theorem drainsAlike_iff {data payload : Bytes} {deviceSocket : Int} {bfsz tempSize : Nat}
    (hscan : scanCiprcv data = some (deviceSocket, bfsz)) (hs : 0 ≤ deviceSocket)
    (hn : bfsz ≠ 0) (hcolon : strstr (ascii ":") data = some (58 :: payload))
    (hsize : payload.length = tempSize + 2) (ht : tempSize ≤ bfsz) :
    DrainsAlike data deviceSocket bfsz tempSize ↔ bfsz ≤ 2 ^ 32 - 8 + tempSize % 8 := by
  have hbfsz := scanCiprcv_lt hscan
  constructor
  · intro h
    by_contra hlarge
    obtain ⟨rounds, sizes, hends, -⟩ := h.requests
    rw [drainRequests_wraps (by omega) (by omega)] at hends
    cases hends
  · intro h
    -- The sizes of the loop add up to what the receive with memory reads at once.
    obtain ⟨rounds, sizes, hends, hsum, hall⟩ := drainRequests_ends (by omega) h
    refine ⟨⟨rounds, sizes, hends, hsum, hall⟩, ?_, ?_⟩
    · intro env hcalloc rest
      rw [urcRecvFunc_accepted hscan hs hn hcolon hsize, if_pos hcalloc,
        drain_of_requests hends, hsum]
      cases atClientObjRecv rest (bfsz - tempSize) <;> rfl
    · intro env hcalloc hlt rest
      have hindex : socketIndex deviceSocket = some deviceSocket.toNat := if_pos ⟨hs, hlt⟩
      rw [urcRecvFunc_accepted hscan hs hn hcolon hsize, if_neg (by simp [hcalloc]),
        if_neg (by omega), hindex]
      cases atClientObjRecv rest (bfsz - tempSize) <;> rfl

theorem drainsAlike_iff_five :
    DrainsAlike (ascii "+CIPRCV,0,5:ab\r\n") 0 5 2 ↔ 5 ≤ 2 ^ 32 - 8 + 2 % 8 := by
  have hcolon : strstr (ascii ":") (ascii "+CIPRCV,0,5:ab\r\n") = some (58 :: ascii "ab\r\n") := by
    decide +kernel
  exact drainsAlike_iff (by decide +kernel) (by decide) (by decide) hcolon (by decide) (by decide)

/-- A negative length is accepted, and without memory the loop does not end. -/
theorem not_drainsAlike_negative :
    scanCiprcv (ascii "+CIPRCV,0,-1:hello\r\n") = some (0, 2 ^ 32 - 1) ∧
      strstr (ascii ":") (ascii "+CIPRCV,0,-1:hello\r\n") = some (ascii ":hello\r\n") ∧
      ¬ DrainsAlike (ascii "+CIPRCV,0,-1:hello\r\n") 0 (2 ^ 32 - 1) 5 := by
  refine ⟨by decide +kernel, by decide +kernel, fun h => ?_⟩
  obtain ⟨rounds, sizes, hends, -⟩ := h.requests
  rw [drainRequests_wraps (by norm_num) (by norm_num)] at hends
  cases hends

/-! ### Accesses -/

/-- What a URC function does that is right only under a condition. -/
inductive Access
  /-- the pointer that `rt_strstr` returned is used -/
  | pointer (found : Bool)
  /-- an unsigned difference -/
  | minus (a b : Nat)
  /-- bytes of the line are copied into `recv_buf` -/
  | copy (n bfsz : Nat)
  /-- `device->sockets[i]` -/
  | index (i : Int)
  deriving DecidableEq, Repr

/-- The access is in bounds. -/
def Access.Ok : Access → Prop
  | .pointer found => found = true
  | .minus a b => b ≤ a
  | .copy n bfsz => n ≤ bfsz
  | .index i => 0 ≤ i ∧ i < socketsNum

/-- The accesses of the first `rounds` rounds of the discard loop. -/
def drainAccesses (bfsz : Nat) : Nat → Nat → List Access
  | 0, _ => []
  | rounds + 1, tempSize =>
    if tempSize < bfsz then
      .minus bfsz tempSize :: drainAccesses bfsz rounds ((tempSize + tempCapacity) % 2 ^ 32)
    else []

/-- The accesses of `urc_recv_func`, when `at_client_obj_recv` returns what it is asked for,
or not. `size` is the length of the line. -/
def recvAccesses (env : Env) (received : Bool) (rounds : Nat) (data : Bytes) :
    Option (List Access) := do
  let (deviceSocket, bfsz) ← scanCiprcv data
  if deviceSocket < 0 ∨ bfsz = 0 then pure []
  else
    match strstr (ascii ":") data with
    | none => pure [.pointer false]
    | some colon =>
      let size := data.length
      let offset := size - colon.length + 1
      let tempSize := size - offset - 2
      let found := [.pointer true, .minus size offset, .minus (size - offset) 2]
      if env.calloc bfsz = false then pure (found ++ drainAccesses bfsz rounds tempSize)
      else
        pure (found ++ [.pointer true, .copy tempSize bfsz, .minus bfsz tempSize]
          ++ if received then [.index deviceSocket] else [])

/-- The accesses of `urc_close_func`. -/
def closeAccesses (data : Bytes) : Option (List Access) := do
  let deviceSocket ← scanSocket data
  if (strstr (ascii "CLOSE OK") data).isSome then pure []
  else if (strstr (ascii "CLOSED") data).isSome then pure [.index deviceSocket]
  else pure []

/-- The accesses of the functions that have some. -/
def urcAccesses (env : Env) (received : Bool) (rounds : Nat) : UrcFunc → Bytes →
    Option (List Access)
  | .urcCloseFunc, data => closeAccesses data
  | .urcRecvFunc, data => recvAccesses env received rounds data
  | _, _ => some []

/-- The function stays in bounds on a line: the numbers on it are read, and every access is in
bounds, however long the discard loop runs. -/
def InBounds (env : Env) (received : Bool) (func : UrcFunc) (data : Bytes) : Prop :=
  ∀ rounds, ∃ accesses, urcAccesses env received rounds func data = some accesses ∧
    ∀ a ∈ accesses, a.Ok

/-- The lines on which `urc_recv_func` stays in bounds. The two numbers fit into an `int`; and
either the line is rejected, or it has a `:`, and if there is memory, not more payload than
announced, and if the rest is received, a socket that exists. -/
def RecvInBounds (env : Env) (received : Bool) (data : Bytes) : Prop :=
  ∃ deviceSocket bfsz, scanCiprcv data = some (deviceSocket, bfsz) ∧
    (deviceSocket < 0 ∨ bfsz = 0 ∨
      ∃ payload, strstr (ascii ":") data = some (58 :: payload) ∧
        (env.calloc bfsz = true →
          payload.length ≤ bfsz + 2 ∧ (received = true → deviceSocket < socketsNum)))

/-- The differences in the discard loop are guarded by its condition. -/
theorem drainAccesses_ok (bfsz rounds tempSize : Nat) :
    ∀ a ∈ drainAccesses bfsz rounds tempSize, a.Ok := by
  induction rounds generalizing tempSize with
  | zero => simp [drainAccesses]
  | succ rounds ih =>
      rw [drainAccesses]
      split
      · rename_i hlt
        intro a ha
        rcases List.mem_cons.mp ha with rfl | ha
        · exact Nat.le_of_lt hlt
        · exact ih _ a ha
      · simp

/-- Behind a `:` in a line that ends in `\r\n`, there are two bytes and more. -/
theorem two_le_of_colon {data payload : Bytes} (hcrlf : [13, 10] <:+ data)
    (hcolon : 58 :: payload <:+ data) : 2 ≤ payload.length := by
  by_contra hshort
  have hsuffix : 58 :: payload <:+ [13, 10] :=
    List.suffix_of_suffix_length_le hcolon hcrlf (by simp; omega)
  have hmem : (58 : UInt8) ∈ [(13 : UInt8), 10] := hsuffix.subset List.mem_cons_self
  exact absurd hmem (by decide)

/-- The pointer that is found points to a `:` of the line. -/
theorem colon_of_strstr {data colon : Bytes} (h : strstr (ascii ":") data = some colon) :
    ∃ payload, colon = 58 :: payload ∧ 58 :: payload <:+ data := by
  obtain ⟨⟨payload, hcolon⟩, hsuffix⟩ := strstr_eq_some h
  refine ⟨payload, hcolon.symm, ?_⟩
  rw [← hcolon] at hsuffix
  exact hsuffix

/-- `urc_recv_func` on a line that it does not reject, with a `:`. -/
theorem recvAccesses_ok_iff (env : Env) (received : Bool) (rounds : Nat) {data payload : Bytes}
    {deviceSocket : Int} {bfsz : Nat} (hscan : scanCiprcv data = some (deviceSocket, bfsz))
    (hs : 0 ≤ deviceSocket) (hn : bfsz ≠ 0)
    (hcolon : strstr (ascii ":") data = some (58 :: payload)) (htwo : 2 ≤ payload.length) :
    (∃ accesses, recvAccesses env received rounds data = some accesses ∧
        ∀ a ∈ accesses, a.Ok) ↔
      (env.calloc bfsz = true →
        payload.length ≤ bfsz + 2 ∧ (received = true → deviceSocket < socketsNum)) := by
  have hnot : ¬ (deviceSocket < 0 ∨ bfsz = 0) := by omega
  have hle : payload.length + 1 ≤ data.length := (strstr_eq_some hcolon).2.length_le
  have hoffset : data.length - (payload.length + 1) + 1 = data.length - payload.length := by
    omega
  have hrest : data.length - (data.length - payload.length) = payload.length := by omega
  simp only [recvAccesses, hscan, Option.bind_eq_bind, Option.bind_some, hnot, if_false, hcolon,
    List.length_cons, hoffset, hrest, Option.pure_def]
  cases hcalloc : env.calloc bfsz with
  | false =>
      -- Without memory: three accesses on the line, and the discard loop.
      simp only [if_true, Option.some.injEq, exists_eq_left', Bool.false_eq_true,
        false_implies, iff_true]
      intro a ha
      rcases List.mem_append.mp ha with ha | ha
      · simp only [List.mem_cons, List.not_mem_nil, or_false] at ha
        rcases ha with rfl | rfl | rfl
        · rfl
        · exact Nat.sub_le _ _
        · exact htwo
      · exact drainAccesses_ok bfsz rounds _ a ha
  | true =>
      -- With memory: the copy, and the index once the rest is received.
      cases received with
      | true =>
          simp [Access.Ok]
          omega
      | false =>
          simp [Access.Ok]
          omega

/-- `urc_recv_func` on a line with an end. -/
theorem inBounds_recv_iff (env : Env) (received : Bool) {data : Bytes}
    (hcrlf : [13, 10] <:+ data) :
    InBounds env received .urcRecvFunc data ↔ RecvInBounds env received data := by
  show (∀ rounds, ∃ accesses, recvAccesses env received rounds data = some accesses ∧ _) ↔ _
  rw [RecvInBounds]
  cases hscan : scanCiprcv data with
  | none => simp [recvAccesses, hscan]
  | some r =>
      obtain ⟨deviceSocket, bfsz⟩ := r
      simp only [Option.some.injEq, Prod.mk.injEq, existsAndEq, and_true, true_and]
      by_cases hreject : deviceSocket < 0 ∨ bfsz = 0
      · -- A line that is rejected is not looked at any further.
        refine iff_of_true (fun rounds => ⟨[], ?_, by simp⟩) (hreject.imp id Or.inl)
        simp [recvAccesses, hscan, hreject]
      · have hs : 0 ≤ deviceSocket := Int.not_lt.mp fun h => hreject (Or.inl h)
        have hn : bfsz ≠ 0 := fun h => hreject (Or.inr h)
        cases hfind : strstr (ascii ":") data with
        | none =>
            -- The null pointer of the search is used.
            refine iff_of_false (fun h => ?_) (by simp [hn, Int.not_lt.mpr hs])
            obtain ⟨accesses, hacc, hok⟩ := h 0
            have hnull : recvAccesses env received 0 data = some [.pointer false] := by
              simp [recvAccesses, hscan, hreject, hfind]
            rw [hnull] at hacc
            cases hacc
            have hpointer := hok (.pointer false) (by simp)
            exact absurd hpointer Bool.false_ne_true
        | some colon =>
            obtain ⟨payload, rfl, hplace⟩ := colon_of_strstr hfind
            have htwo := two_le_of_colon hcrlf hplace
            simp only [recvAccesses_ok_iff env received _ hscan hs hn hfind htwo,
              Int.not_lt.mpr hs, hn, false_or, forall_const]
            constructor
            · exact fun h => ⟨payload, rfl, h⟩
            · rintro ⟨payload', heq, h⟩
              cases heq
              exact h

/-- `%d` does not get past the `C` of a line that starts with `CLOSED:`. -/
theorem scanSocket_closed (rest : Bytes) : scanSocket (ascii "CLOSED:" ++ rest) = some 0 := by
  rw [scanSocket, cString_append (by decide)]
  rfl

/-- `urc_close_func` on a line that starts as the table says. -/
theorem inBounds_close (env : Env) (received : Bool) {data : Bytes}
    (hclosed : ascii "CLOSED:" <+: data) : InBounds env received .urcCloseFunc data := by
  obtain ⟨rest, rfl⟩ := hclosed
  intro rounds
  show ∃ accesses, closeAccesses _ = some accesses ∧ _
  rw [closeAccesses, scanSocket_closed]
  simp only [Option.bind_eq_bind, Option.bind_some]
  split
  · exact ⟨[], rfl, by simp⟩
  · split
    · refine ⟨[.index 0], rfl, ?_⟩
      simp [Access.Ok, socketsNum]
    · exact ⟨[], rfl, by simp⟩

/-- The entry of a URC function that is called with a line. -/
theorem matches_of_getUrcObj {data : Bytes} {urc : AtUrc UrcFunc}
    (h : getUrcObj urcTable data = some urc) :
    urc ∈ urcTable.flatten ∧ urc.Matches data :=
  ⟨List.mem_of_find?_eq_some h, by simpa using List.find?_some h⟩

/-- **The URC functions stay in bounds** on a line of the table exactly when it goes to
`urc_close_func`, or to `urc_recv_func` and meets `RecvInBounds`. -/
theorem inBounds_iff (env : Env) (received : Bool) {data : Bytes} {urc : AtUrc UrcFunc}
    {func : UrcFunc} (hurc : getUrcObj urcTable data = some urc) (hfunc : urc.func = some func)
    (hwhich : func = .urcRecvFunc ∨ func = .urcCloseFunc) :
    InBounds env received func data ↔
      func = .urcCloseFunc ∨ RecvInBounds env received data := by
  rcases hwhich with rfl | rfl
  · rw [inBounds_recv_iff env received (crlf_suffix_of_getUrcObj crlfTable_urcTable hurc)]
    simp
  · obtain ⟨hmem, -, hpre, -⟩ := matches_of_getUrcObj hurc
    have hhead : ∀ urc ∈ urcTable.flatten, urc.func = some .urcCloseFunc →
        urc.cmdPrefix = ascii "CLOSED:" := by decide
    rw [hhead urc hmem hfunc] at hpre
    exact iff_of_true (inBounds_close env received hpre) (Or.inl rfl)

theorem inBounds_iff_hello :
    InBounds ⟨fun _ => true, true, true⟩ true .urcRecvFunc (ascii "+CIPRCV,7,5:hello\r\n") ↔
      UrcFunc.urcRecvFunc = .urcCloseFunc ∨
        RecvInBounds ⟨fun _ => true, true, true⟩ true (ascii "+CIPRCV,7,5:hello\r\n") := by
  have hurc : getUrcObj urcTable (ascii "+CIPRCV,7,5:hello\r\n")
      = some ⟨ascii "+CIPRCV,", ascii "\r\n", some .urcRecvFunc⟩ := by
    decide +kernel
  exact inBounds_iff _ _ hurc rfl (Or.inl rfl)

/-- A line of the table without a `:`: the pointer that was not found is used. -/
theorem not_inBounds_noColon :
    getUrcObj urcTable (ascii "+CIPRCV,0,5\r\n")
        = some ⟨ascii "+CIPRCV,", ascii "\r\n", some .urcRecvFunc⟩ ∧
      ¬ InBounds ⟨fun _ => true, true, true⟩ true .urcRecvFunc (ascii "+CIPRCV,0,5\r\n") := by
  refine ⟨by decide +kernel, fun h => ?_⟩
  obtain ⟨accesses, hacc, hok⟩ := h 0
  have hnull : urcAccesses ⟨fun _ => true, true, true⟩ true 0 .urcRecvFunc
      (ascii "+CIPRCV,0,5\r\n") = some [.pointer false] := by decide +kernel
  rw [hnull] at hacc
  cases hacc
  exact absurd (hok (.pointer false) (by simp)) Bool.false_ne_true

/-- **A URC function with a result has stayed in bounds.** -/
theorem inBounds_of_execUrc {env : Env} {func : UrcFunc} {data rest : Bytes}
    {r : List SocketEffect × Bytes} (h : execUrc env func data rest = some r) :
    InBounds env true func data := by
  intro rounds
  cases func with
  | urcFunc | urcConnectFunc | urcSendFunc => exact ⟨[], rfl, by simp⟩
  | urcCloseFunc =>
      obtain ⟨effects, h, -⟩ := Option.map_eq_some_iff.mp h
      obtain ⟨deviceSocket, hscan, h⟩ := Option.bind_eq_some_iff.mp h
      show ∃ accesses, closeAccesses data = some accesses ∧ _
      rw [closeAccesses, hscan, Option.bind_eq_bind, Option.bind_some]
      split at h
      · rename_i hok
        exact ⟨[], if_pos hok, by simp⟩
      · rename_i hok
        split at h
        · rename_i hclosed
          obtain ⟨socket, hindex, -⟩ := Option.bind_eq_some_iff.mp h
          unfold socketIndex at hindex
          split at hindex
          · rename_i hrange
            refine ⟨[.index deviceSocket], by rw [if_neg hok, if_pos hclosed]; rfl, ?_⟩
            intro a ha
            rw [List.mem_singleton.mp ha]
            exact hrange
          · cases hindex
        · rename_i hclosed
          exact ⟨[], by rw [if_neg hok, if_neg hclosed]; rfl, by simp⟩
  | urcRecvFunc =>
      obtain ⟨⟨deviceSocket, bfsz⟩, hscan, h⟩ := Option.bind_eq_some_iff.mp h
      show ∃ accesses, recvAccesses env true rounds data = some accesses ∧ _
      simp only at h
      split at h
      · rename_i hreject
        refine ⟨[], ?_, by simp⟩
        simp [recvAccesses, hscan, hreject]
      · rename_i hreject
        obtain ⟨colon, hcolon, h⟩ := Option.bind_eq_some_iff.mp h
        obtain ⟨payload, rfl, -⟩ := colon_of_strstr hcolon
        rw [List.drop_succ_cons, List.drop_zero] at h
        split at h
        · cases h
        · rename_i htwo
          refine (recvAccesses_ok_iff env true rounds hscan (by omega) (by omega) hcolon
            (Nat.not_lt.mp htwo)).mpr fun hcalloc => ?_
          rw [if_neg (by simp [hcalloc])] at h
          split at h
          · cases h
          · rename_i hfits
            obtain ⟨received, -, h⟩ := Option.bind_eq_some_iff.mp h
            obtain ⟨socket, hindex, -⟩ := Option.bind_eq_some_iff.mp h
            unfold socketIndex at hindex
            split at hindex
            · rename_i hrange
              exact ⟨by omega, fun _ => hrange.2⟩
            · cases hindex

end CarLocator.A9g
