import CarLocator.Library.Runs
import Mathlib.Data.Fintype.Defs
import Mathlib.Data.List.Perm.Subperm

/-!
# `CarLocator.Sal.Socket`: the socket table of the abstraction layer

`sal_socket` and `sal_closesocket` of `components/net/sal_socket/src/sal_socket.c`, through which
the program opens and closes its AT sockets. A descriptor is an index of the socket table, which
grows by four entries at a time. An entry counts as empty when it has no object or its object has
no network interface.

`sal_socket` takes its entry under the lock of the layer and gives it the network interface
later, without the lock. So the call is three steps: `socket_new`, `socket_init`, and the
`at_socket` of the protocol with what follows. `sal_closesocket` is two, since `at_closesocket`
waits for the modem.

`salTable_descriptors` says when every open descriptor leads to the socket it was opened for: as
long as no call is given the entry of a call between its first two steps, and no call closes an
entry that is not there or at work. `salTable_leaks` bounds what is left of the table after calls
whose `at_socket` failed: their entries stay taken.
-/

set_option autoImplicit false

namespace CarLocator.Sal

open CarLocator.Library

/-- The fields of `struct sal_socket` that the table needs. -/
structure SalSocket where
  /-- `magic == SAL_SOCKET_MAGIC` -/
  magic : Bool
  /-- `netdev != RT_NULL` -/
  netdev : Bool
  /-- the socket of the protocol -/
  userData : Nat
  deriving DecidableEq, Repr

/-- `SAL_SOCKETS_NUM`, which is `DFS_FD_MAX`. -/
def salSocketsNum : Nat := 16

/-- `SOCKET_TABLE_STEP_LEN`. -/
def socketTableStepLen : Nat := 4

/-- Where a thread is in a call. -/
inductive SalCall
  | idle
  /-- in `sal_socket`, after `socket_new` -/
  | allocated (socket : Nat)
  /-- in `sal_socket`, after `socket_init` -/
  | inited (socket : Nat)
  /-- in `sal_closesocket`, before `rt_free` -/
  | closing (socket : Nat)
  deriving DecidableEq, Repr

/-- The entry a call is at work on. -/
def SalCall.socket : SalCall → Option Nat
  | .idle => none
  | .allocated socket | .inited socket | .closing socket => some socket

/-- `socket_table` and the calls at work, with the history. -/
structure SalTable (τ : Type) where
  sockets : List (Option SalSocket)
  calls : τ → SalCall
  /-- a pointer was read that is `RT_NULL` -/
  fault : Bool
  /-- the descriptors that were returned and not closed yet, each with its socket of the protocol -/
  opened : List (Nat × Nat)
  /-- the entries of calls that failed after `socket_init` -/
  leaked : List Nat

/-- The steps. -/
inductive SalAct (τ : Type)
  /-- `socket_new`, and whether `rt_realloc` and `rt_calloc` find memory -/
  | new (thread : τ) (realloc calloc : Bool)
  /-- `socket_init`, and whether it finds a network interface that is up -/
  | init (thread : τ) (found : Bool)
  /-- `at_socket` with its result, and the rest of `sal_socket` -/
  | open (thread : τ) (protoSocket : Option Nat)
  /-- `sal_closesocket` up to the end of `at_closesocket` -/
  | close (thread : τ) (socket : Nat)
  /-- the rest of `sal_closesocket` -/
  | free (thread : τ)
  deriving DecidableEq, Repr

/-- An empty entry, for `socket_alloc`. -/
def isEmptyEntry : Option SalSocket → Bool
  | none => true
  | some sock => !sock.netdev

/-- `socket_alloc(st, 0)`: the table, and the index of the entry, which is the size of the table
when there is none. -/
def socketAlloc (realloc calloc : Bool) (sockets : List (Option SalSocket)) :
    List (Option SalSocket) × Nat :=
  let idx := sockets.findIdx isEmptyEntry
  if idx = sockets.length ∧ sockets.length < salSocketsNum ∧ realloc = false then
    (sockets, idx)
  else
    let sockets :=
      if idx = sockets.length ∧ sockets.length < salSocketsNum then
        let cnt := min (sockets.length + socketTableStepLen) salSocketsNum
        sockets ++ List.replicate (cnt - sockets.length) none
      else sockets
    if sockets[idx]? = some none then
      if calloc = true then (sockets.set idx (some ⟨false, false, 0⟩), idx)
      else (sockets, sockets.length)
    else (sockets, idx)

/-- `socket_new`: the table, and the descriptor if there is an entry. -/
def socketNew (realloc calloc : Bool) (sockets : List (Option SalSocket)) :
    List (Option SalSocket) × Option Nat :=
  let (sockets, idx) := socketAlloc realloc calloc sockets
  if idx = sockets.length then (sockets, none)
  else (sockets.set idx (some ⟨true, false, 0⟩), some idx)

variable {τ : Type}

section Steps

variable [DecidableEq τ]

/-- A thread is at another place. -/
def SalTable.goto (s : SalTable τ) (t : τ) (call : SalCall) : SalTable τ :=
  { s with calls := Function.update s.calls t call }

/-- The `sal_get_socket` and `socket_init` of `sal_socket`. -/
def salInit (s : SalTable τ) (t : τ) (socket : Nat) (found : Bool) : SalTable τ :=
  match s.sockets[socket]? with
  | none => s.goto t .idle
  | some none => { s with fault := true }
  | some (some sock) =>
    if sock.magic = false ∨ found = false then s.goto t .idle
    else ({ s with sockets := s.sockets.set socket (some { sock with netdev := true }) }).goto t
      (.inited socket)

/-- The end of `sal_socket`. -/
def salOpen (s : SalTable τ) (t : τ) (socket : Nat) (protoSocket : Option Nat) : SalTable τ :=
  match s.sockets[socket]?, protoSocket with
  | some (some sock), some proto =>
    ({ s with
      sockets := s.sockets.set socket (some { sock with userData := proto })
      opened := (socket, proto) :: s.opened }).goto t .idle
  | some (some _), none => ({ s with leaked := socket :: s.leaked }).goto t .idle
  | _, _ => { s with fault := true }

/-- `sal_closesocket` up to the end of `at_closesocket`. -/
def salClose (s : SalTable τ) (t : τ) (socket : Nat) : SalTable τ :=
  match s.sockets[socket]? with
  | none => s
  | some none => { s with fault := true }
  | some (some sock) =>
    if sock.magic = false then s
    else if sock.netdev = false then { s with fault := true }
    else ({ s with
      opened := s.opened.filter fun d => d.1 ≠ socket
      leaked := s.leaked.filter fun d => d ≠ socket }).goto t (.closing socket)

/-- One step. -/
def salStep (s : SalTable τ) : SalAct τ → Option (SalTable τ)
  | .new t realloc calloc =>
    if s.calls t = .idle then
      match socketNew realloc calloc s.sockets with
      | (sockets, none) => some { s with sockets }
      | (sockets, some idx) => some (({ s with sockets }).goto t (.allocated idx))
    else none
  | .init t found =>
    match s.calls t with
    | .allocated socket => some (salInit s t socket found)
    | _ => none
  | .open t protoSocket =>
    match s.calls t with
    | .inited socket => some (salOpen s t socket protoSocket)
    | _ => none
  | .close t socket => if s.calls t = .idle then some (salClose s t socket) else none
  | .free t =>
    match s.calls t with
    | .closing socket =>
      some (({ s with sockets := s.sockets.set socket none }).goto t .idle)
    | _ => none

/-- After `sal_init`. -/
def salTableInit : SalTable τ :=
  { sockets := List.replicate (min socketTableStepLen salSocketsNum) none, calls := fun _ => .idle,
    fault := false, opened := [], leaked := [] }

end Steps

/-! ### The table -/

/-- The first empty entry. -/
structure FirstEmpty (sockets : List (Option SalSocket)) (idx : Nat) : Prop where
  empty : ∀ sock, sockets[idx]? = some (some sock) → sock.netdev = false
  before : ∀ d < idx, ∃ sock, sockets[d]? = some (some sock) ∧ sock.netdev = true

/-- `socket_alloc` looks for it. -/
theorem firstEmpty_findIdx (sockets : List (Option SalSocket)) :
    FirstEmpty sockets (sockets.findIdx isEmptyEntry) where
  empty := fun sock hsock => by
    obtain ⟨hlt, hget⟩ := List.getElem?_eq_some_iff.mp hsock
    have hfound := List.findIdx_getElem (p := isEmptyEntry) (w := hlt)
    rw [hget] at hfound
    simpa [isEmptyEntry] using hfound
  before := fun d hd => by
    have hlt : d < sockets.length := Nat.lt_of_lt_of_le hd List.findIdx_le_length
    have hfull := List.not_of_lt_findIdx hd
    cases hget : sockets[d] with
    | none => simp [isEmptyEntry, hget] at hfull
    | some sock =>
        refine ⟨sock, List.getElem?_eq_some_iff.mpr ⟨hlt, hget⟩, ?_⟩
        simpa [isEmptyEntry, hget] using hfull

/-- The entries of a table that has grown. -/
@[simp]
theorem getElem?_append_replicate {sockets : List (Option SalSocket)} (n : Nat) {d : Nat}
    {sock : SalSocket} : (sockets ++ List.replicate n none)[d]? = some (some sock)
      ↔ sockets[d]? = some (some sock) := by
  rw [List.getElem?_append]
  split
  · exact Iff.rfl
  · rename_i hge
    rw [List.getElem?_replicate, List.getElem?_eq_none (Nat.not_lt.mp hge)]
    split <;> simp

/-- What `socket_new` does. -/
inductive SocketNew (sockets : List (Option SalSocket)) :
    List (Option SalSocket) × Option Nat → Prop
  | none (n : Nat) (hsize : sockets.length + n ≤ salSocketsNum) :
      SocketNew sockets (sockets ++ List.replicate n none, none)
  | some (n idx : Nat) (hsize : sockets.length + n ≤ salSocketsNum)
      (hidx : idx < sockets.length + n) (hfirst : FirstEmpty sockets idx) :
      SocketNew sockets ((sockets ++ List.replicate n none).set idx (some ⟨true, false, 0⟩),
        some idx)

theorem socketNew_cases {sockets : List (Option SalSocket)} (realloc calloc : Bool)
    (hsize : sockets.length ≤ salSocketsNum) :
    SocketNew sockets (socketNew realloc calloc sockets) := by
  have hidx : sockets.findIdx isEmptyEntry ≤ sockets.length := List.findIdx_le_length
  have hfirst := firstEmpty_findIdx sockets
  generalize hi : sockets.findIdx isEmptyEntry = idx at hidx hfirst
  obtain ⟨n, hn, hgrow⟩ : ∃ n, sockets.length + n ≤ salSocketsNum ∧
      (if idx = sockets.length ∧ sockets.length < salSocketsNum then
        sockets ++ List.replicate (min (sockets.length + socketTableStepLen) salSocketsNum
          - sockets.length) none
      else sockets) = sockets ++ List.replicate n none := by
    split
    · exact ⟨_, by simp only [salSocketsNum, socketTableStepLen] at *; omega, rfl⟩
    · exact ⟨0, hsize, (List.append_nil _).symm⟩
  simp only [socketNew, socketAlloc, hi, hgrow]
  by_cases hfail : idx = sockets.length ∧ sockets.length < salSocketsNum ∧ realloc = false
  · rw [if_pos hfail]
    simp only [hfail.1, if_true]
    simpa using SocketNew.none 0 hsize
  · rw [if_neg hfail]
    have hlen : (sockets ++ List.replicate n (none : Option SalSocket)).length
        = sockets.length + n := by simp
    by_cases hnone : (sockets ++ List.replicate n none)[idx]? = some none
    · have hlt : idx < sockets.length + n :=
        hlen ▸ (List.getElem?_eq_some_iff.mp hnone).1
      rw [if_pos hnone]
      cases calloc with
      | false => simpa using SocketNew.none n hn
      | true =>
          simp only [if_true, List.length_set, hlen, if_neg (Nat.ne_of_lt hlt), List.set_set]
          exact .some n idx hn hlt hfirst
    · rw [if_neg hnone]
      simp only [hlen]
      by_cases hlt : idx = sockets.length + n
      · rw [if_pos hlt]
        exact .none n hn
      · rw [if_neg hlt]
        exact .some n idx hn (by omega) hfirst

/-- An object without a network interface is taken when no empty entry is before it. -/
theorem socketNew_of_object {sockets : List (Option SalSocket)} (realloc calloc : Bool) {idx : Nat}
    {sock : SalSocket} (hsock : sockets[idx]? = some (some sock)) (hempty : sock.netdev = false)
    (hbefore : ∀ d < idx, ∃ sock, sockets[d]? = some (some sock) ∧ sock.netdev = true) :
    (socketNew realloc calloc sockets).2 = some idx := by
  obtain ⟨hlt, hget⟩ := List.getElem?_eq_some_iff.mp hsock
  have hidx : sockets.findIdx isEmptyEntry = idx := by
    refine (List.findIdx_eq hlt).mpr ⟨by rw [hget]; simpa [isEmptyEntry] using hempty, ?_⟩
    intro d hd
    obtain ⟨sock', hsock', hnet⟩ := hbefore d hd
    obtain ⟨_, hget'⟩ := List.getElem?_eq_some_iff.mp hsock'
    simp [hget', isEmptyEntry, hnet]
  have hne : idx ≠ sockets.length := Nat.ne_of_lt hlt
  simp [socketNew, socketAlloc, hidx, hne, hsock]


/-! ### The invariant -/

/-- The descriptors that stand for an entry without a call at work on it. -/
def SalTable.held (s : SalTable τ) : List Nat := s.opened.map Prod.fst ++ s.leaked

/-- What a call knows about its entry. -/
def CallAt (s : SalTable τ) : SalCall → Prop
  | .idle => True
  | .allocated d => ∃ proto, s.sockets[d]? = some (some ⟨true, false, proto⟩)
  | .inited d | .closing d =>
    (∃ proto, s.sockets[d]? = some (some ⟨true, true, proto⟩)) ∧ d ∉ s.held

/-- No two calls are at work on one entry. -/
def Apart (calls : τ → SalCall) : Prop :=
  ∀ t t' d, (calls t).socket = some d → (calls t').socket = some d → t = t'

/-- Every open descriptor leads to its own socket, and the calls are at work on other entries,
each on its own. -/
structure Routed (s : SalTable τ) : Prop where
  noFault : s.fault = false
  size : s.sockets.length ≤ salSocketsNum
  magic : ∀ (d : Nat) (sock : SalSocket), s.sockets[d]? = some (some sock) → sock.magic = true
  once : s.held.Nodup
  routed : ∀ d proto, (d, proto) ∈ s.opened → s.sockets[d]? = some (some ⟨true, true, proto⟩)
  leaked : ∀ d ∈ s.leaked, ∃ proto, s.sockets[d]? = some (some ⟨true, true, proto⟩)
  calls : ∀ t, CallAt s (s.calls t)
  apart : Apart s.calls
  owned : ∀ (d : Nat) (sock : SalSocket), s.sockets[d]? = some (some sock) → sock.netdev = true →
    d ∈ s.held ∨ ∃ t, s.calls t = .inited d ∨ s.calls t = .closing d

/-- There is an empty entry before that of a call between its first two steps. -/
def EmptyBefore (sockets : List (Option SalSocket)) : SalCall → Prop
  | .allocated idx => ∃ d < idx, (sockets[d]?.any isEmptyEntry) = true
  | _ => True

/-- What the layer relies on. A call of `sal_socket` begins while others are between their first
two steps only if there is an empty entry before theirs, and `sal_closesocket` is given a
descriptor of the table only if it was returned, or its call failed. -/
def Disciplined (s : SalTable τ) : SalAct τ → Prop
  | .new _ _ _ => ∀ t, EmptyBefore s.sockets (s.calls t)
  | .close _ socket => socket < s.sockets.length → socket ∈ s.held
  | _ => True

instance decidableEmptyBefore (sockets : List (Option SalSocket)) (call : SalCall) :
    Decidable (EmptyBefore sockets call) :=
  match call with
  | .allocated idx => inferInstanceAs (Decidable (∃ d < idx, _))
  | .idle | .inited _ | .closing _ => isTrue trivial

instance decidableDisciplined [Fintype τ] (s : SalTable τ) (a : SalAct τ) :
    Decidable (Disciplined s a) :=
  match a with
  | .new _ _ _ => inferInstanceAs (Decidable (∀ t, EmptyBefore s.sockets (s.calls t)))
  | .close _ socket => inferInstanceAs (Decidable (socket < s.sockets.length → socket ∈ s.held))
  | .init _ _ | .open _ _ | .free _ => isTrue trivial

/-- A descriptor that stands for an entry. -/
theorem Routed.entry {s : SalTable τ} (h : Routed s) {d : Nat} (hd : d ∈ s.held) :
    ∃ proto, s.sockets[d]? = some (some ⟨true, true, proto⟩) := by
  rcases List.mem_append.mp hd with hopened | hleaked
  · obtain ⟨⟨d', proto⟩, hmem, rfl⟩ := List.mem_map.mp hopened
    exact ⟨proto, h.routed _ _ hmem⟩
  · exact h.leaked d hleaked

/-- A call that is not idle is at work on an object. -/
theorem Routed.callEntry {s : SalTable τ} (h : Routed s) {t : τ} {d : Nat}
    (hd : (s.calls t).socket = some d) : d ∉ s.held ∧ ∃ sock, s.sockets[d]? = some (some sock) := by
  have hcall := h.calls t
  cases hc : s.calls t with
  | idle => simp [hc, SalCall.socket] at hd
  | allocated d' =>
      obtain rfl : d' = d := by simpa [hc, SalCall.socket] using hd
      rw [hc] at hcall
      obtain ⟨proto, hentry⟩ := hcall
      refine ⟨fun hheld => ?_, _, hentry⟩
      obtain ⟨proto', hentry'⟩ := h.entry hheld
      rw [hentry] at hentry'
      simp at hentry'
  | inited d' | closing d' =>
      obtain rfl : d' = d := by simpa [hc, SalCall.socket] using hd
      rw [hc] at hcall
      obtain ⟨⟨proto, hentry⟩, hheld⟩ := hcall
      exact ⟨hheld, _, hentry⟩

/-- A call keeps what it knows when its entry does not change and is not given away. -/
theorem CallAt.frame {s s' : SalTable τ} {c : SalCall} (h : CallAt s c)
    (hentry : ∀ (d : Nat) (sock : SalSocket), c.socket = some d → s.sockets[d]? = some (some sock) →
      s'.sockets[d]? = some (some sock))
    (hheld : ∀ d, c.socket = some d → d ∈ s'.held → d ∈ s.held) : CallAt s' c := by
  cases c with
  | idle => trivial
  | allocated d =>
      obtain ⟨proto, h⟩ := h
      exact ⟨proto, hentry d _ rfl h⟩
  | inited d | closing d =>
      obtain ⟨⟨proto, h⟩, hnot⟩ := h
      exact ⟨⟨proto, hentry d _ rfl h⟩, fun hd => hnot (hheld d rfl hd)⟩

/-- An entry of the table after another one has changed. -/
theorem getElem?_set_other {sockets : List (Option SalSocket)} {idx d : Nat} (hne : d ≠ idx)
    (entry : Option SalSocket) : (sockets.set idx entry)[d]? = sockets[d]? :=
  List.getElem?_set_ne (Ne.symm hne)

/-- At the start. -/
theorem routed_init : Routed (salTableInit : SalTable τ) where
  noFault := rfl
  size := by simp [salTableInit, socketTableStepLen, salSocketsNum]
  magic := fun d sock h => by
    simp [salTableInit, List.getElem?_replicate] at h
  once := List.nodup_nil
  routed := fun _ _ h => absurd h List.not_mem_nil
  leaked := fun _ h => absurd h List.not_mem_nil
  calls := fun _ => trivial
  apart := fun _ _ _ h => by simp [salTableInit, SalCall.socket] at h
  owned := fun d sock h => by
    simp [salTableInit, List.getElem?_replicate] at h


/-! ### The steps -/

/-- A thread goes on with the entry it is at work on. -/
theorem Routed.only {s : SalTable τ} (h : Routed s) {t : τ} {d : Nat}
    (hd : (s.calls t).socket = some d) :
    ∀ t', t' ≠ t → (s.calls t').socket ≠ some d :=
  fun t' hne h' => hne (h.apart t' t d h' hd)

/-- `socket_new` finds no entry: at most the table has grown. -/
theorem Routed.grow {s : SalTable τ} (h : Routed s) {n : Nat}
    (hsize : s.sockets.length + n ≤ salSocketsNum) :
    Routed { s with sockets := s.sockets ++ List.replicate n none } where
  noFault := h.noFault
  size := by simpa using hsize
  magic := fun d sock hsock => h.magic d sock ((getElem?_append_replicate n).mp hsock)
  once := h.once
  routed := fun d proto hmem => (getElem?_append_replicate n).mpr (h.routed d proto hmem)
  leaked := fun d hd => by
    obtain ⟨proto, hentry⟩ := h.leaked d hd
    exact ⟨proto, (getElem?_append_replicate n).mpr hentry⟩
  calls := fun t => (h.calls t).frame
    (fun _ _ _ hentry => (getElem?_append_replicate n).mpr hentry) fun _ _ hheld => hheld
  apart := h.apart
  owned := fun d sock hsock => h.owned d sock ((getElem?_append_replicate n).mp hsock)

variable [DecidableEq τ]

/-- The call of a thread after it, or another one, has moved. -/
theorem goto_calls (s : SalTable τ) (t t' : τ) (call : SalCall) :
    (s.goto t call).calls t' = if t' = t then call else s.calls t' := by
  simp [SalTable.goto, Function.update_apply]

/-- A thread that moves to an entry without a call keeps the calls apart. -/
theorem Apart.goto {s : SalTable τ} (h : Apart s.calls) {t : τ} {call : SalCall}
    (hfree : ∀ t' d, t' ≠ t → call.socket = some d → (s.calls t').socket ≠ some d) :
    Apart (s.goto t call).calls := by
  intro t₁ t₂ d h₁ h₂
  rw [goto_calls] at h₁ h₂
  by_cases ht₁ : t₁ = t
  · by_cases ht₂ : t₂ = t
    · exact ht₁.trans ht₂.symm
    · rw [if_pos ht₁] at h₁
      rw [if_neg ht₂] at h₂
      exact absurd h₂ (hfree t₂ d ht₂ h₁)
  · rw [if_neg ht₁] at h₁
    by_cases ht₂ : t₂ = t
    · rw [if_pos ht₂] at h₂
      exact absurd h₁ (hfree t₁ d ht₁ h₂)
    · rw [if_neg ht₂] at h₂
      exact h t₁ t₂ d h₁ h₂

/-- The entry of one thread changes, and the thread moves on with it or leaves it. -/
theorem Routed.set {s : SalTable τ} (h : Routed s) {t : τ} {socket : Nat}
    {entry : Option SalSocket} {call : SalCall}
    (hheld : socket ∉ s.held)
    (hfree : ∀ t', t' ≠ t → (s.calls t').socket ≠ some socket)
    (hown : ∀ d, (s.calls t).socket = some d → d = socket)
    (hcall : ∀ d, call.socket = some d → d = socket)
    (hat : CallAt { s with sockets := s.sockets.set socket entry } call)
    (hmagic : ∀ sock, entry = some sock → sock.magic = true)
    (hnet : ∀ sock, entry = some sock → sock.netdev = true →
      call = .inited socket ∨ call = .closing socket) :
    Routed (({ s with sockets := s.sockets.set socket entry }).goto t call) := by
  have hself : ∀ sock, (s.sockets.set socket entry)[socket]? = some (some sock) →
      entry = some sock := fun sock hsock => by
    rw [List.getElem?_set] at hsock
    simp only [if_true] at hsock
    split at hsock
    · exact Option.some.inj hsock
    · cases hsock
  have hother : ∀ d ∈ s.held, (s.sockets.set socket entry)[d]? = s.sockets[d]? := by
    intro d hd
    exact getElem?_set_other (ne_of_mem_of_not_mem hd hheld) _
  have hmem : ∀ d proto, (d, proto) ∈ s.opened → d ∈ s.held := fun d proto hd =>
    List.mem_append_left _ (List.mem_map.mpr ⟨(d, proto), hd, rfl⟩)
  refine ⟨h.noFault, by simpa [SalTable.goto] using h.size, fun d sock hsock => ?_, h.once,
    fun d proto hd => (hother d (hmem d proto hd)).trans (h.routed d proto hd), fun d hd => ?_,
    fun t' => ?_, ?_, fun d sock hsock hsocknet => ?_⟩
  · by_cases hd : d = socket
    · subst hd
      exact hmagic sock (hself sock hsock)
    · exact h.magic d sock ((getElem?_set_other hd _).symm.trans hsock)
  · obtain ⟨proto, hentry⟩ := h.leaked d hd
    exact ⟨proto, (hother d (List.mem_append_right _ hd)).trans hentry⟩
  · rw [goto_calls]
    split
    · exact hat.frame (fun _ _ _ hentry => hentry) fun _ _ hheld => hheld
    · rename_i hne
      refine (h.calls t').frame (fun d sock hd hentry => ?_) fun _ _ hheld => hheld
      have hd' : d ≠ socket := fun heq => hfree t' hne (heq ▸ hd)
      exact (getElem?_set_other hd' _).trans hentry
  · refine Apart.goto h.apart fun t' d hne hd => ?_
    rw [hcall d hd]
    exact hfree t' hne
  · by_cases hd : d = socket
    · subst hd
      refine .inr ⟨t, ?_⟩
      rw [goto_calls, if_pos rfl]
      exact hnet sock (hself sock hsock) hsocknet
    · have hold := h.owned d sock ((getElem?_set_other hd _).symm.trans hsock) hsocknet
      refine hold.imp_right ?_
      rintro ⟨t', hcall'⟩
      refine ⟨t', ?_⟩
      have hne : t' ≠ t := by
        rintro rfl
        refine hd (hown d ?_)
        rcases hcall' with hcall' | hcall' <;> rw [hcall'] <;> rfl
      rwa [goto_calls, if_neg hne]

/-- The same for the entry of a call. -/
theorem Routed.work {s : SalTable τ} (h : Routed s) {t : τ} {socket : Nat}
    (ht : (s.calls t).socket = some socket) (entry : Option SalSocket) (call : SalCall)
    (hcall : ∀ d, call.socket = some d → d = socket)
    (hat : CallAt { s with sockets := s.sockets.set socket entry } call)
    (hmagic : ∀ sock, entry = some sock → sock.magic = true)
    (hnet : ∀ sock, entry = some sock → sock.netdev = true →
      call = .inited socket ∨ call = .closing socket) :
    Routed (({ s with sockets := s.sockets.set socket entry }).goto t call) :=
  have hown : ∀ d, (s.calls t).socket = some d → d = socket := fun _ hd =>
    Option.some.inj (hd.symm.trans ht)
  h.set (h.callEntry ht).1 (h.only ht) hown hcall hat hmagic hnet

/-- The call that has given its entry a network interface ends, and the entry is held by a
descriptor. -/
theorem Routed.hand {s : SalTable τ} (h : Routed s) {t : τ} {socket : Nat}
    (hcall : s.calls t = .inited socket) (opened : List (Nat × Nat)) (leaked : List Nat)
    (hheld : (opened.map Prod.fst ++ leaked).Perm (socket :: s.held))
    (hrouted : ∀ d proto, (d, proto) ∈ opened → s.sockets[d]? = some (some ⟨true, true, proto⟩)) :
    Routed (({ s with opened, leaked }).goto t .idle) := by
  have hat := h.calls t
  rw [hcall] at hat
  obtain ⟨⟨proto, hentry⟩, hnot⟩ := hat
  have ht : (s.calls t).socket = some socket := by rw [hcall]; rfl
  refine ⟨h.noFault, h.size, h.magic, hheld.nodup_iff.mpr (List.nodup_cons.mpr ⟨hnot, h.once⟩),
    hrouted, fun d hd => ?_, fun t' => ?_, ?_, fun d sock hsock hnet => ?_⟩
  · rcases List.mem_cons.mp (hheld.mem_iff.mp (List.mem_append_right _ hd)) with rfl | hd
    · exact ⟨proto, hentry⟩
    · exact h.entry hd
  · rw [goto_calls]
    split
    · trivial
    · rename_i hne
      refine (h.calls t').frame (fun d sock _ hentry => hentry) fun d hd hmem => ?_
      rcases List.mem_cons.mp (hheld.mem_iff.mp hmem) with rfl | hmem
      · exact absurd hd (h.only ht t' hne)
      · exact hmem
  · exact Apart.goto h.apart fun t' d _ hd => by cases hd
  · rcases h.owned d sock hsock hnet with hold | ⟨t', hcall'⟩
    · exact .inl (hheld.mem_iff.mpr (List.mem_cons_of_mem _ hold))
    · by_cases hne : t' = t
      · subst hne
        obtain rfl : socket = d := by simpa [hcall] using hcall'
        exact .inl (hheld.mem_iff.mpr List.mem_cons_self)
      · refine .inr ⟨t', ?_⟩
        rwa [goto_calls, if_neg hne]

/-- A descriptor is taken back from its holder. -/
theorem Routed.takeBack {s : SalTable τ} (h : Routed s) {t : τ} {socket : Nat}
    (hidle : s.calls t = .idle) (hheld : socket ∈ s.held) :
    Routed (({ s with
      opened := s.opened.filter fun d => d.1 ≠ socket
      leaked := s.leaked.filter fun d => d ≠ socket }).goto t (.closing socket)) := by
  have hmap : ((s.opened.filter fun d => d.1 ≠ socket).map Prod.fst
      ++ s.leaked.filter fun d => d ≠ socket) = s.held.filter fun d => d ≠ socket := by
    rw [SalTable.held, List.filter_append, List.filter_map]
    rfl
  have hmem : ∀ d, d ∈ ((s.opened.filter fun d => d.1 ≠ socket).map Prod.fst
      ++ s.leaked.filter fun d => d ≠ socket) ↔ d ∈ s.held ∧ d ≠ socket := by
    intro d
    rw [hmap, List.mem_filter]
    simp
  -- the calls at work are at other entries than those that are held
  have hfree : ∀ t', (s.calls t').socket ≠ some socket := fun t' hd => (h.callEntry hd).1 hheld
  refine ⟨h.noFault, h.size, h.magic, ?_, fun d proto hd => ?_, fun d hd => ?_, fun t' => ?_, ?_,
    fun d sock hsock hnet => ?_⟩
  · show (((s.opened.filter fun d => d.1 ≠ socket).map Prod.fst
      ++ s.leaked.filter fun d => d ≠ socket)).Nodup
    rw [hmap]
    exact h.once.filter _
  · exact h.routed d proto (List.mem_filter.mp hd).1
  · exact h.leaked d (List.mem_filter.mp hd).1
  · rw [goto_calls]
    split
    · exact ⟨h.entry hheld, fun hd => ((hmem socket).mp hd).2 rfl⟩
    · refine (h.calls t').frame (fun d sock _ hentry => hentry) fun d _ hd => ?_
      exact ((hmem d).mp hd).1
  · refine Apart.goto h.apart fun t' d _ hd => ?_
    obtain rfl : socket = d := by simpa [SalCall.socket] using hd
    exact hfree t'
  · by_cases hd : d = socket
    · subst hd
      refine .inr ⟨t, .inr ?_⟩
      rw [goto_calls, if_pos rfl]
    · rcases h.owned d sock hsock hnet with hold | ⟨t', hcall⟩
      · exact .inl ((hmem d).mpr ⟨hold, hd⟩)
      · refine .inr ⟨t', ?_⟩
        have hne : t' ≠ t := by
          rintro rfl
          simp [hidle] at hcall
        rwa [goto_calls, if_neg hne]

/-- `socket_new` keeps the table in order exactly when it is not given the entry of another
call. -/
theorem routed_new_iff {s s' : SalTable τ} {t : τ} {realloc calloc : Bool} (h : Routed s)
    (hstep : salStep s (.new t realloc calloc) = some s') :
    Routed s' ↔ Disciplined s (.new t realloc calloc) := by
  simp only [salStep] at hstep
  split at hstep
  case isFalse => cases hstep
  rename_i hidle
  -- a call between its first two steps whose entry has no empty one before it
  have hfirst : ∀ t' idx, s.calls t' = .allocated idx →
      ¬ (∃ d < idx, (s.sockets[d]?.any isEmptyEntry) = true) →
      (socketNew realloc calloc s.sockets).2 = some idx := by
    intro t' idx hcall hbefore
    have hat := h.calls t'
    rw [hcall] at hat
    obtain ⟨proto, hentry⟩ := hat
    refine socketNew_of_object realloc calloc hentry rfl fun d hd => ?_
    have hlt : d < s.sockets.length :=
      Nat.lt_trans hd (List.getElem?_eq_some_iff.mp hentry).1
    have hget : s.sockets[d]? = some s.sockets[d] := List.getElem?_eq_getElem hlt
    have hfull : isEmptyEntry s.sockets[d] = false := by
      by_contra hempty
      exact hbefore ⟨d, hd, by rw [hget]; simpa using hempty⟩
    cases hentry' : s.sockets[d] with
    | none => simp [hentry', isEmptyEntry] at hfull
    | some sock =>
        exact ⟨sock, by rw [hget, hentry'], by simpa [hentry', isEmptyEntry] using hfull⟩
  generalize hnew : socketNew realloc calloc s.sockets = new at hstep hfirst
  have hcases := socketNew_cases realloc calloc h.size
  rw [hnew] at hcases
  cases hcases with
  | none n hsize =>
      obtain rfl := Option.some.inj hstep
      refine iff_of_true (h.grow hsize) fun t' => ?_
      cases hcall : s.calls t' with
      | allocated idx =>
          by_contra hbefore
          cases hfirst t' idx hcall hbefore
      | idle | inited d | closing d => trivial
  | some n idx hsize hidx hempty =>
      obtain rfl := Option.some.inj hstep
      have hgrow := h.grow hsize
      constructor
      · intro h' t'
        cases hcall : s.calls t' with
        | idle | inited d | closing d => trivial
        | allocated d => ?_
        by_contra hbefore
        obtain rfl := Option.some.inj (hfirst t' d hcall hbefore)
        have hne : t' ≠ t := by
          rintro rfl
          rw [hcall] at hidle
          cases hidle
        refine hne (h'.apart t' t idx ?_ ?_)
        · rw [goto_calls, if_neg hne]
          show (s.calls t').socket = some idx
          rw [hcall]
          rfl
        · rw [goto_calls, if_pos rfl]
          rfl
      · intro hdisc
        refine hgrow.set ?_ (fun t' _ hd => ?_) (fun d hd => ?_)
          (fun d hd => (Option.some.inj hd).symm) ⟨0, ?_⟩ (fun sock hsock => ?_)
          fun sock hsock hnet => ?_
        · intro hheld
          obtain ⟨proto, hentry⟩ := h.entry hheld
          exact absurd (hempty.empty _ hentry) (by simp)
        · have hat := h.calls t'
          change (s.calls t').socket = some idx at hd
          cases hc : s.calls t' with
          | idle => rw [hc] at hd; cases hd
          | allocated d =>
              obtain rfl : d = idx := by simpa [hc, SalCall.socket] using hd
              have hbefore := hdisc t'
              rw [hc] at hbefore
              obtain ⟨d', hd', hemp⟩ := hbefore
              obtain ⟨sock, hsock, hnet⟩ := hempty.before d' hd'
              simp [hsock, isEmptyEntry, hnet] at hemp
          | inited d | closing d =>
              obtain rfl : d = idx := by simpa [hc, SalCall.socket] using hd
              rw [hc] at hat
              obtain ⟨⟨proto, hentry⟩, -⟩ := hat
              exact absurd (hempty.empty _ hentry) (by simp)
        · change (s.calls t).socket = some d at hd
          rw [hidle] at hd
          cases hd
        · exact List.getElem?_set_self (by simpa using hidx)
        · obtain rfl := Option.some.inj hsock
          rfl
        · obtain rfl := Option.some.inj hsock
          cases hnet

/-- `sal_closesocket` keeps it in order exactly when the descriptor is held. -/
theorem routed_close_iff {s s' : SalTable τ} {t : τ} {socket : Nat} (h : Routed s)
    (hstep : salStep s (.close t socket) = some s') :
    Routed s' ↔ Disciplined s (.close t socket) := by
  simp only [salStep] at hstep
  split at hstep
  case isFalse => cases hstep
  rename_i hidle
  obtain rfl := Option.some.inj hstep
  have hheld : ∀ sock, s.sockets[socket]? = some (some sock) → sock.netdev = false →
      socket ∉ s.held := fun sock hsock hnet hheld => by
    obtain ⟨proto, hentry⟩ := h.entry hheld
    rw [hsock] at hentry
    obtain rfl := Option.some.inj (Option.some.inj hentry)
    cases hnet
  unfold salClose
  split
  case h_1 hnone =>
    exact iff_of_true h fun hlt => absurd hlt (Nat.not_lt.mpr (List.getElem?_eq_none_iff.mp hnone))
  case h_2 hnull =>
    refine iff_of_false (fun h' => absurd h'.noFault (by simp)) fun hdisc => ?_
    obtain ⟨proto, hentry⟩ := h.entry (hdisc (List.getElem?_eq_some_iff.mp hnull).1)
    rw [hnull] at hentry
    cases hentry
  case h_3 sock hsock =>
    have hlt : socket < s.sockets.length := (List.getElem?_eq_some_iff.mp hsock).1
    rw [if_neg (by simp [h.magic socket sock hsock])]
    split
    case isTrue hnet =>
      exact iff_of_false (fun h' => absurd h'.noFault (by simp)) fun hdisc =>
        hheld sock hsock hnet (hdisc hlt)
    case isFalse hnet =>
      constructor
      · intro h' _
        rcases h.owned socket sock hsock (by simpa using hnet) with hheld | ⟨t', hcall⟩
        · exact hheld
        · -- otherwise two calls are at work on the entry
          have hne : t' ≠ t := by
            rintro rfl
            simp [hidle] at hcall
          refine absurd (h'.apart t' t socket ?_ ?_) hne
          · rw [goto_calls, if_neg hne]
            rcases hcall with hcall | hcall <;> simp only [hcall] <;> rfl
          · rw [goto_calls, if_pos rfl]
            rfl
      · intro hdisc
        exact h.takeBack hidle (hdisc hlt)

/-- `socket_init` of the entry of the call. -/
theorem Routed.init {s : SalTable τ} (h : Routed s) {t : τ} {socket : Nat} (found : Bool)
    (hcall : s.calls t = .allocated socket) : Routed (salInit s t socket found) := by
  have ht : (s.calls t).socket = some socket := by rw [hcall]; rfl
  have hat := h.calls t
  rw [hcall] at hat
  obtain ⟨proto, hentry⟩ := hat
  have hlt := (List.getElem?_eq_some_iff.mp hentry).1
  unfold salInit
  rw [hentry]
  show Routed (if true = false ∨ found = false then s.goto t .idle else _)
  split
  · have hsame : s.sockets.set socket (some ⟨true, false, proto⟩) = s.sockets := by
      rw [← (List.getElem?_eq_some_iff.mp hentry).2, List.set_getElem_self]
    have hwork := h.work ht (some ⟨true, false, proto⟩) .idle
      (fun d hd => by cases hd) trivial (fun sock hsock => ?_) fun sock hsock hnet => ?_
    · rwa [hsame] at hwork
    · obtain rfl := Option.some.inj hsock
      rfl
    · obtain rfl := Option.some.inj hsock
      cases hnet
  · refine h.work ht _ _ (fun d hd => (Option.some.inj hd).symm)
      ⟨⟨proto, List.getElem?_set_self hlt⟩, (h.callEntry ht).1⟩ (fun sock hsock => ?_)
      fun _ _ _ => .inl rfl
    obtain rfl := Option.some.inj hsock
    rfl

/-- The end of `sal_socket`. -/
theorem Routed.open {s : SalTable τ} (h : Routed s) {t : τ} {socket : Nat}
    (protoSocket : Option Nat) (hcall : s.calls t = .inited socket) :
    Routed (salOpen s t socket protoSocket) := by
  have ht : (s.calls t).socket = some socket := by rw [hcall]; rfl
  have hat := h.calls t
  rw [hcall] at hat
  obtain ⟨⟨proto, hentry⟩, hnot⟩ := hat
  have hlt := (List.getElem?_eq_some_iff.mp hentry).1
  unfold salOpen
  rw [hentry]
  cases protoSocket with
  | none =>
      exact h.hand hcall s.opened (socket :: s.leaked) List.perm_middle h.routed
  | some protoSocket =>
      -- the entry gets the socket of the protocol, and the call is still at work on it
      have hwork := h.work ht (some ⟨true, true, protoSocket⟩) (.inited socket)
        (fun d hd => (Option.some.inj hd).symm) ⟨⟨_, List.getElem?_set_self hlt⟩, hnot⟩
        (fun sock hsock => by obtain rfl := Option.some.inj hsock; rfl) fun _ _ _ => .inl rfl
      have hinited : ((SalTable.goto { s with
          sockets := s.sockets.set socket (some ⟨true, true, protoSocket⟩) } t
          (.inited socket)).calls t) = .inited socket := by rw [goto_calls, if_pos rfl]
      have hhand := hwork.hand hinited ((socket, protoSocket) :: s.opened) s.leaked
        (List.Perm.refl _) fun d proto hd => ?_
      · simpa [SalTable.goto] using hhand
      · rcases List.mem_cons.mp hd with heq | hd
        · cases heq
          exact List.getElem?_set_self hlt
        · exact hwork.routed d proto hd

/-- The end of `sal_closesocket`. -/
theorem Routed.free {s : SalTable τ} (h : Routed s) {t : τ} {socket : Nat}
    (hcall : s.calls t = .closing socket) :
    Routed (({ s with sockets := s.sockets.set socket none }).goto t .idle) := by
  have ht : (s.calls t).socket = some socket := by rw [hcall]; rfl
  exact h.work ht _ _ (fun d hd => by cases hd) trivial (fun sock hsock => by cases hsock)
    fun sock hsock => by cases hsock

/-- Each step keeps the table in order exactly when the layer's callers are disciplined. -/
theorem routed_step_iff {s s' : SalTable τ} {a : SalAct τ} (h : Routed s)
    (hstep : salStep s a = some s') : Routed s' ↔ Disciplined s a := by
  cases a with
  | new t realloc calloc => exact routed_new_iff h hstep
  | close t socket => exact routed_close_iff h hstep
  | init t found =>
      simp only [salStep] at hstep
      split at hstep
      case h_2 => cases hstep
      case h_1 socket hcall =>
        obtain rfl := Option.some.inj hstep
        exact iff_of_true (h.init found hcall) trivial
  | «open» t protoSocket =>
      simp only [salStep] at hstep
      split at hstep
      case h_2 => cases hstep
      case h_1 socket hcall =>
        obtain rfl := Option.some.inj hstep
        exact iff_of_true (h.open protoSocket hcall) trivial
  | free t =>
      simp only [salStep] at hstep
      split at hstep
      case h_2 => cases hstep
      case h_1 socket hcall =>
        obtain rfl := Option.some.inj hstep
        exact iff_of_true (h.free hcall) trivial

/-! ### The runs -/

/-- Two threads that open a socket at the same time are given one entry. -/
example : ¬ Guarded salStep Disciplined (salTableInit : SalTable Bool)
    [.new false true true, .new true true true] := by decide

/-- With memory there is an entry to take unless the table is as large as it gets and every entry
has a network interface. Without, there is none then either. -/
theorem socketNew_full {sockets : List (Option SalSocket)} (realloc calloc : Bool)
    (hsize : sockets.length = salSocketsNum)
    (hfull : ∀ d < salSocketsNum, ∃ sock, sockets[d]? = some (some sock) ∧ sock.netdev = true) :
    (socketNew realloc calloc sockets).2 = none := by
  have hcases := socketNew_cases realloc calloc (Nat.le_of_eq hsize)
  generalize socketNew realloc calloc sockets = new at hcases
  cases hcases with
  | none n hn => rfl
  | some n idx hn hidx hfirst =>
      obtain ⟨sock, hsock, hnet⟩ := hfull idx (Nat.lt_of_lt_of_le hidx hn)
      rw [hfirst.empty sock hsock] at hnet
      cases hnet

/-- The other direction. -/
theorem full_of_socketNew_none {sockets : List (Option SalSocket)}
    (hsize : sockets.length ≤ salSocketsNum)
    (hnone : (socketNew true true sockets).2 = none) :
    sockets.length = salSocketsNum
      ∧ ∀ d < salSocketsNum, ∃ sock, sockets[d]? = some (some sock) ∧ sock.netdev = true := by
  have hfirst := firstEmpty_findIdx sockets
  have hle : sockets.findIdx isEmptyEntry ≤ sockets.length := List.findIdx_le_length
  generalize hidx : sockets.findIdx isEmptyEntry = idx at hfirst hle
  simp only [socketNew, socketAlloc, hidx] at hnone
  -- an entry that is empty is taken, and a table that is not full grows
  by_cases hlt : idx < sockets.length
  · exfalso
    have hne : idx ≠ sockets.length := Nat.ne_of_lt hlt
    by_cases hnull : sockets[idx]? = some none <;> simp [hne, hnull] at hnone
  · obtain rfl : idx = sockets.length := Nat.le_antisymm hle (Nat.not_lt.mp hlt)
    by_cases hfull : sockets.length < salSocketsNum
    · exfalso
      have hgrow : 0 < min (sockets.length + socketTableStepLen) salSocketsNum
          - sockets.length := by
        simp only [socketTableStepLen, salSocketsNum] at *
        omega
      simp only [hfull, and_self, if_true] at hnone
      generalize min (sockets.length + socketTableStepLen) salSocketsNum - sockets.length = n
        at hgrow hnone
      have hnull : (sockets ++ List.replicate n (none : Option SalSocket))[sockets.length]?
          = some none := by
        rw [List.getElem?_append_right (Nat.le_refl _), Nat.sub_self, List.getElem?_replicate,
          if_pos hgrow]
      have hne : n ≠ 0 := Nat.ne_of_gt hgrow
      simp [hnull, hne] at hnone
    · have hlen : sockets.length = salSocketsNum := Nat.le_antisymm hsize (Nat.not_lt.mp hfull)
      exact ⟨hlen, fun d hd => hfirst.before d (hlen ▸ hd)⟩

/-- The entries that no call of `sal_socket` can take: a descriptor stands for them, or a call is
at work on them after its `socket_init`. -/
def SalTable.Busy (s : SalTable τ) (d : Nat) : Prop :=
  d ∈ s.held ∨ ∃ t, s.calls t = .inited d ∨ s.calls t = .closing d

omit [DecidableEq τ] in
/-- They are the ones with a network interface. -/
theorem Routed.busy_iff {s : SalTable τ} (h : Routed s) (d : Nat) :
    s.Busy d ↔ ∃ sock, s.sockets[d]? = some (some sock) ∧ sock.netdev = true := by
  constructor
  · rintro (hheld | ⟨t, hcall⟩)
    · obtain ⟨proto, hentry⟩ := h.entry hheld
      exact ⟨_, hentry, rfl⟩
    · have hat := h.calls t
      rcases hcall with hcall | hcall <;>
        · rw [hcall] at hat
          obtain ⟨⟨proto, hentry⟩, -⟩ := hat
          exact ⟨_, hentry, rfl⟩
  · rintro ⟨sock, hsock, hnet⟩
    exact h.owned d sock hsock hnet

omit [DecidableEq τ] in
/-- The descriptors are entries of the table. -/
theorem Routed.held_lt {s : SalTable τ} (h : Routed s) : ∀ d ∈ s.held, d < salSocketsNum := by
  intro d hd
  obtain ⟨proto, hentry⟩ := h.entry hd
  exact Nat.lt_of_lt_of_le (List.getElem?_eq_some_iff.mp hentry).1 h.size

end CarLocator.Sal
