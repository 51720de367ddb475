import CarLocator.Library.Simulation
import CarLocator.Library.Slist
import Mathlib.Data.List.Perm.Subperm

/-!
# `CarLocator.At.Descriptors`: the descriptors of AT sockets

The sockets in use are on the global list `_socket_list`, and `at_get_socket` takes a descriptor
for a position in it. `alloc_socket_by_device` appends a free socket of the device and gives it
the position as its descriptor. `free_socket` takes out the node at the position that the socket
has as its descriptor, and clears the socket with its list pointer.

When a socket in the middle is closed, those behind it move up, and their descriptors do not.
`descriptors` states that the traversals of the list always end, and that every socket in use is
the one its descriptor leads to exactly when the last socket is always closed first.

The device has `socketNum` sockets, and a node is the index of its socket. Closing takes a while,
so the look-up of `at_closesocket` and its `free_socket` are two steps, with the socket in
`closing` in between.
-/

set_option autoImplicit false

namespace CarLocator.At

open CarLocator.Library

/-- The fields of `struct at_socket` that the list needs. -/
structure DeviceSocket where
  /-- `magic == AT_SOCKET_MAGIC` -/
  magic : Bool
  socket : Nat
  deriving DecidableEq, Repr

/-- The global list and the sockets of the device. -/
structure SocketTable where
  socketList : Slist Nat
  sockets : Nat → DeviceSocket
  /-- the calls of `at_closesocket` between the look-up and `free_socket` -/
  closing : List Nat
  /-- a traversal of the list does not end -/
  hung : Bool

/-- The steps. -/
inductive SocketAct
  /-- `alloc_socket_by_device`, and whether the semaphore and the mutex can be created -/
  | alloc (created : Bool)
  /-- `at_closesocket` up to its call of `free_socket` -/
  | close (socket : Nat)
  /-- `free_socket` of a socket that is being closed -/
  | free (sock : Nat)
  deriving DecidableEq, Repr

/-- Before the first socket. -/
def socketTableInit : SocketTable :=
  { socketList := ⟨none, fun _ => none⟩, sockets := fun _ => ⟨false, 0⟩, closing := [],
    hung := false }

variable (socketNum : Nat)

/-- `at_get_socket`. -/
def atGetSocket (s : SocketTable) (socket : Nat) : Option (Option Nat) :=
  (s.socketList.nodes socketNum).map fun xs => xs[socket]?.filter fun sock => (s.sockets sock).magic

/-- `alloc_socket_by_device`: the table, and the descriptor unless the call fails. When the
semaphore or the mutex cannot be created, the socket stays in the list. -/
def allocSocketByDevice (created : Bool) (s : SocketTable) :
    Option (SocketTable × Option Nat) :=
  match (List.range socketNum).find? fun idx => !(s.sockets idx).magic with
  | none => some (s, none)
  | some idx => do
    let socketList ← (s.socketList.init idx).append socketNum idx
    let xs ← socketList.nodes socketNum
    let sockets := Function.update s.sockets idx ⟨true, xs.length - 1⟩
    pure ({ s with socketList := socketList, sockets := sockets },
      if created then some (xs.length - 1) else none)

/-- The loop of `free_socket`: the node at a position is taken out. -/
def removeAt (l : Slist Nat) (xs : List Nat) (position : Nat) : Option (Slist Nat) :=
  match xs[position]? with
  | none => some l
  | some node => l.remove socketNum node

/-- `free_socket`: the node at the position of the descriptor is taken out, and the socket is
cleared. -/
def freeSocket (s : SocketTable) (sock : Nat) : Option SocketTable := do
  let xs ← s.socketList.nodes socketNum
  let socketList ← removeAt socketNum s.socketList xs (s.sockets sock).socket
  pure { s with
    socketList := socketList.init sock
    sockets := Function.update s.sockets sock ⟨false, 0⟩ }

/-- One step of the threads that use sockets. -/
def socketStep (s : SocketTable) : SocketAct → Option SocketTable
  | .alloc created =>
    some (match allocSocketByDevice socketNum created s with
      | none => { s with hung := true }
      | some (s, _) => s)
  | .close socket =>
    some (match atGetSocket socketNum s socket with
      | none => { s with hung := true }
      | some none => s
      | some (some sock) => { s with closing := sock :: s.closing })
  | .free sock =>
    if sock ∈ s.closing then
      some (match freeSocket socketNum s sock with
        | none => { s with hung := true }
        | some s => { s with closing := s.closing.erase sock })
    else none

/-! ### The list -/

/-- The list ends, and its nodes are sockets of the device. -/
structure Listed (s : SocketTable) (xs : List Nat) : Prop where
  holds : s.socketList.Holds xs
  bound : ∀ sock ∈ xs, sock < socketNum

variable {socketNum}

/-- So there are at most as many nodes as sockets. -/
theorem Listed.length_le {s : SocketTable} {xs : List Nat} (h : Listed socketNum s xs) :
    xs.length ≤ socketNum := by
  have hsub : xs ⊆ List.range socketNum := fun sock hmem => List.mem_range.mpr (h.bound sock hmem)
  have hle := (h.holds.nodup.subperm hsub).length_le
  rwa [List.length_range] at hle

/-- The nodes that a traversal passes. -/
theorem Listed.nodes {s : SocketTable} {xs : List Nat} (h : Listed socketNum s xs) :
    s.socketList.nodes socketNum = some xs :=
  h.holds.nodes h.length_le

/-- Cutting off a node leaves part of the nodes, and all of them when it is not in the list. -/
theorem holds_init_subset {l : Slist Nat} {xs : List Nat} (h : l.Holds xs) (sock : Nat) :
    ∃ ys, (l.init sock).Holds ys ∧ ys ⊆ xs ∧ (sock ∉ xs → ys = xs)
      ∧ (sock ∈ xs → ∃ as, ys = as ++ [sock]) := by
  by_cases hmem : sock ∈ xs
  · obtain ⟨as, bs, rfl⟩ := List.append_of_mem hmem
    refine ⟨_, holds_init h, ?_, fun hnot => absurd hmem hnot, fun _ => ⟨as, rfl⟩⟩
    intro y hy
    rcases List.mem_append.mp hy with hy | hy
    · exact List.mem_append_left _ hy
    · rw [List.mem_singleton.mp hy]
      exact List.mem_append_right _ List.mem_cons_self
  · exact ⟨xs, holds_init_of_notMem h hmem, List.Subset.refl xs, fun _ => rfl,
      fun hmem' => absurd hmem' hmem⟩

/-- The free socket that `alloc_socket_by_device` takes. -/
theorem find_free {s : SocketTable} {idx : Nat}
    (h : ((List.range socketNum).find? fun idx => !(s.sockets idx).magic) = some idx) :
    idx < socketNum ∧ (s.sockets idx).magic = false :=
  ⟨List.mem_range.mp (List.mem_of_find?_eq_some h), by simpa using List.find?_some h⟩

/-- `alloc_socket_by_device` does nothing, or the socket is the last one of a list again. -/
theorem allocSocketByDevice_cases {s : SocketTable} {xs : List Nat} (h : Listed socketNum s xs)
    (created : Bool) :
    allocSocketByDevice socketNum created s = some (s, none)
    ∨ ∃ idx s' result ys, allocSocketByDevice socketNum created s = some (s', result)
      ∧ (s.sockets idx).magic = false ∧ Listed socketNum s' ys ∧ (idx ∉ xs → ys = xs ++ [idx])
      ∧ s'.sockets = Function.update s.sockets idx ⟨true, ys.length - 1⟩
      ∧ s'.closing = s.closing ∧ s'.hung = s.hung := by
  cases hfind : (List.range socketNum).find? fun idx => !(s.sockets idx).magic with
  | none =>
      left
      rw [allocSocketByDevice, hfind]
  | some idx =>
      right
      obtain ⟨hlt, hmagic⟩ := find_free hfind
      obtain ⟨cut, hcut, hsub, hnot, hmem⟩ := holds_init_subset h.holds idx
      have happend : ∃ l ys, (s.socketList.init idx).append socketNum idx = some l ∧ l.Holds ys
          ∧ (∀ y ∈ ys, y < socketNum) ∧ (idx ∉ xs → ys = xs ++ [idx]) := by
        have hbound : ∀ y ∈ cut, y < socketNum := fun y hy => h.bound y (hsub hy)
        have hlen : cut.length ≤ socketNum :=
          Listed.length_le (s := { s with socketList := s.socketList.init idx }) ⟨hcut, hbound⟩
        by_cases hidx : idx ∈ xs
        · obtain ⟨as, rfl⟩ := hmem hidx
          rw [List.length_append, List.length_singleton] at hlen
          obtain ⟨l, hl, hl'⟩ := holds_append_last hcut hlen
          exact ⟨l, _, hl, hl', hbound, fun hnot => absurd hidx hnot⟩
        · rw [hnot hidx] at hcut hlen hbound
          obtain ⟨l, hl, hl'⟩ := holds_append hcut hlen hidx
          refine ⟨l, _, hl, hl', fun y hy => ?_, fun _ => rfl⟩
          rcases List.mem_append.mp hy with hy | hy
          · exact hbound y hy
          · rwa [List.mem_singleton.mp hy]
      obtain ⟨l, ys, hl, hholds, hbound, hys⟩ := happend
      have hlisted : Listed socketNum { s with socketList := l } ys := ⟨hholds, hbound⟩
      have hnodes : l.nodes socketNum = some ys := hlisted.nodes
      refine ⟨idx,
        { s with
          socketList := l, sockets := Function.update s.sockets idx ⟨true, ys.length - 1⟩ },
        if created then some (ys.length - 1) else none, ys, ?_, hmagic, ⟨hholds, hbound⟩, hys,
        rfl, rfl, rfl⟩
      simp only [allocSocketByDevice, hfind, hl, hnodes, Option.bind_eq_bind, Option.bind_some,
        Option.pure_def]

/-- The nodes without the one at a position. -/
theorem removeAt_eq {l : Slist Nat} {xs : List Nat} (h : l.Holds xs) (hlen : xs.length ≤ socketNum)
    (position : Nat) :
    ∃ l', removeAt socketNum l xs position = some l' ∧ l'.Holds (xs.eraseIdx position) := by
  rw [removeAt]
  cases hget : xs[position]? with
  | none => exact ⟨l, rfl, by rwa [List.eraseIdx_of_length_le (List.getElem?_eq_none_iff.mp hget)]⟩
  | some node =>
      obtain ⟨hlt, hnode⟩ := List.getElem?_eq_some_iff.mp hget
      obtain ⟨l', hl, hholds⟩ := holds_remove h hlen node
      refine ⟨l', hl, ?_⟩
      rwa [← hnode, List.Nodup.erase_getElem h.nodup] at hholds

/-- What `free_socket` leaves: the list without the node at the position of the descriptor, cut
off behind the socket if this is still in it. -/
theorem freeSocket_cases {s : SocketTable} {xs : List Nat} (h : Listed socketNum s xs)
    (sock : Nat) :
    ∃ s' ys, freeSocket socketNum s sock = some s' ∧ Listed socketNum s' ys
      ∧ (sock ∉ xs.eraseIdx (s.sockets sock).socket → ys = xs.eraseIdx (s.sockets sock).socket)
      ∧ s'.sockets = Function.update s.sockets sock ⟨false, 0⟩
      ∧ s'.closing = s.closing ∧ s'.hung = s.hung := by
  obtain ⟨l, hl, hholds⟩ := removeAt_eq h.holds h.length_le (s.sockets sock).socket
  obtain ⟨ys, hys, hsub, hnot, -⟩ := holds_init_subset hholds sock
  refine ⟨{ s with
      socketList := l.init sock, sockets := Function.update s.sockets sock ⟨false, 0⟩ },
    ys, ?_, ⟨hys, fun y hy => h.bound y (List.mem_of_mem_eraseIdx (hsub hy))⟩, hnot, rfl, rfl, rfl⟩
  simp only [freeSocket, h.nodes, hl, Option.bind_eq_bind, Option.bind_some, Option.pure_def]

/-- Every traversal of the list ends. -/
structure Ending (socketNum : Nat) (s : SocketTable) : Prop where
  listed : ∃ xs, Listed socketNum s xs
  hung : s.hung = false

/-- The empty list. -/
theorem ending_socketTableInit (socketNum : Nat) : Ending socketNum socketTableInit :=
  ⟨⟨[], rfl, fun _ h => by cases h⟩, rfl⟩

/-- Every step leaves a list that ends. -/
theorem ending_socketStep (s : SocketTable) (a : SocketAct) (s' : SocketTable)
    (h : Ending socketNum s) (hstep : socketStep socketNum s a = some s') :
    Ending socketNum s' := by
  obtain ⟨xs, hxs⟩ := h.listed
  cases a with
  | alloc created =>
      rw [socketStep] at hstep
      rcases allocSocketByDevice_cases hxs created with
        he | ⟨idx, t, result, ys, he, -, hlisted, -, -, -, hhung⟩ <;> rw [he] at hstep
      · cases hstep
        exact h
      · cases hstep
        exact ⟨⟨ys, hlisted⟩, hhung.trans h.hung⟩
  | close socket =>
      rw [socketStep, atGetSocket, hxs.nodes, Option.map_some] at hstep
      split at hstep <;> cases hstep
      · rename_i hnone
        cases hnone
      · exact h
      · exact ⟨⟨xs, hxs.holds, hxs.bound⟩, h.hung⟩
  | free sock =>
      rw [socketStep] at hstep
      split at hstep
      · obtain ⟨t, ys, he, hlisted, -, -, -, hhung⟩ := freeSocket_cases hxs sock
        rw [he] at hstep
        cases hstep
        exact ⟨⟨ys, hlisted.holds, hlisted.bound⟩, hhung.trans h.hung⟩
      · cases hstep

/-! ### The descriptors -/

/-- The sockets on the list are those in use, and the descriptor of each is its position. -/
structure Consistent (socketNum : Nat) (s : SocketTable) (xs : List Nat) : Prop where
  listed : Listed socketNum s xs
  inUse : ∀ sock ∈ xs, (s.sockets sock).magic = true
  position : ∀ p sock, xs[p]? = some sock → (s.sockets sock).socket = p
  free : ∀ sock, sock ∉ xs → s.sockets sock = ⟨false, 0⟩

variable (socketNum)

/-- The descriptor of every socket in use leads to it. -/
def Addressed (s : SocketTable) : Prop :=
  ∀ sock, (s.sockets sock).magic = true →
    atGetSocket socketNum s (s.sockets sock).socket = some (some sock)

/-- The guard: a socket that is freed is the last one of the list, or there is none. -/
def LastFirst (s : SocketTable) : SocketAct → Prop
  | .free sock => ∀ xs, s.socketList.nodes socketNum = some xs → xs = [] ∨ xs.getLast? = some sock
  | _ => True

variable {socketNum}

/-- No socket is in use. -/
theorem consistent_socketTableInit (socketNum : Nat) : Consistent socketNum socketTableInit [] where
  listed := ⟨rfl, fun _ h => by cases h⟩
  inUse := fun _ h => by cases h
  position := fun p sock h => by simp at h
  free := fun _ _ => rfl

/-- What `at_get_socket` finds. -/
theorem Listed.atGetSocket {s : SocketTable} {xs : List Nat} (h : Listed socketNum s xs)
    (socket : Nat) :
    atGetSocket socketNum s socket
      = some (xs[socket]?.filter fun sock => (s.sockets sock).magic) := by
  rw [CarLocator.At.atGetSocket, h.nodes, Option.map_some]

/-- In a consistent table the descriptors lead to their sockets. -/
theorem Consistent.addressed {s : SocketTable} {xs : List Nat} (h : Consistent socketNum s xs) :
    Addressed socketNum s := by
  intro sock hmagic
  have hmem : sock ∈ xs := by
    by_contra hmem
    rw [h.free sock hmem] at hmagic
    cases hmagic
  obtain ⟨p, hp, hget⟩ := List.mem_iff_getElem.mp hmem
  have hget' : xs[p]? = some sock := by rw [List.getElem?_eq_getElem hp, hget]
  rw [h.listed.atGetSocket, h.position p sock hget', hget', Option.filter_some, if_pos hmagic]

/-- A socket that is allocated goes to the end and gets the last position. -/
theorem Consistent.alloc {s s' : SocketTable} {xs ys : List Nat} {idx : Nat}
    (h : Consistent socketNum s xs) (hfree : (s.sockets idx).magic = false)
    (hlisted : Listed socketNum s' ys) (hys : idx ∉ xs → ys = xs ++ [idx])
    (hsockets : s'.sockets = Function.update s.sockets idx ⟨true, ys.length - 1⟩) :
    Consistent socketNum s' ys := by
  have hidx : idx ∉ xs := fun hmem => by
    rw [h.inUse idx hmem] at hfree
    cases hfree
  obtain rfl := hys hidx
  have hself : s'.sockets idx = ⟨true, xs.length⟩ := by
    rw [hsockets, Function.update_self, List.length_append, List.length_singleton,
      Nat.add_sub_cancel]
  have hother : ∀ sock, sock ≠ idx → s'.sockets sock = s.sockets sock := fun sock hne => by
    rw [hsockets, Function.update_of_ne hne]
  refine ⟨hlisted, fun sock hmem => ?_, fun p sock hget => ?_, fun sock hmem => ?_⟩
  · by_cases hsock : sock = idx
    · rw [hsock, hself]
    · rw [hother sock hsock]
      exact h.inUse sock (by simpa [hsock] using hmem)
  · rw [List.getElem?_append] at hget
    split at hget
    · have hmem := List.mem_of_getElem? hget
      rw [hother sock fun heq => hidx (heq ▸ hmem)]
      exact h.position p sock hget
    · rename_i hlen
      obtain ⟨hp, hget⟩ := List.getElem?_eq_some_iff.mp hget
      rw [List.length_singleton] at hp
      rw [List.getElem_singleton] at hget
      rw [← hget, hself]
      show xs.length = p
      omega
  · rw [List.mem_append, List.mem_singleton, not_or] at hmem
    rw [hother sock hmem.2]
    exact h.free sock hmem.1

/-- The look-up of `at_closesocket` changes only which sockets are being closed. -/
theorem Consistent.withClosing {s : SocketTable} {xs : List Nat} (h : Consistent socketNum s xs)
    (closing : List Nat) : Consistent socketNum { s with closing := closing } xs :=
  ⟨⟨h.listed.holds, h.listed.bound⟩, h.inUse, h.position, h.free⟩

/-- The last socket is freed: the others keep their positions. -/
theorem Consistent.freeLast {s s' : SocketTable} {as : List Nat} {sock : Nat}
    (h : Consistent socketNum s (as ++ [sock])) (hlisted : Listed socketNum s' as)
    (hsockets : s'.sockets = Function.update s.sockets sock ⟨false, 0⟩) :
    Consistent socketNum s' as := by
  have hnot : sock ∉ as := fun hmem =>
    (List.nodup_append.mp h.listed.holds.nodup).2.2 sock hmem sock (List.mem_singleton_self _) rfl
  have hother : ∀ other, other ≠ sock → s'.sockets other = s.sockets other := fun other hne => by
    rw [hsockets, Function.update_of_ne hne]
  refine ⟨hlisted, fun other hmem => ?_, fun p other hget => ?_, fun other hmem => ?_⟩
  · rw [hother other fun heq => hnot (heq ▸ hmem)]
    exact h.inUse other (List.mem_append_left _ hmem)
  · have hmem := List.mem_of_getElem? hget
    obtain ⟨hp, -⟩ := List.getElem?_eq_some_iff.mp hget
    rw [hother other fun heq => hnot (heq ▸ hmem)]
    refine h.position p other ?_
    rwa [List.getElem?_append_left hp]
  · by_cases hsock : other = sock
    · rw [hsockets, hsock, Function.update_self]
    · rw [hother other hsock]
      exact h.free other (by simp [hmem, hsock])

/-- `free_socket` of the last socket, or in an empty table, keeps the table consistent. -/
theorem consistent_freeSocket {s : SocketTable} {xs : List Nat} {sock : Nat}
    (h : Consistent socketNum s xs) (hlast : xs = [] ∨ xs.getLast? = some sock) :
    ∃ s' ys, freeSocket socketNum s sock = some s' ∧ Consistent socketNum s' ys := by
  obtain ⟨s', ys, he, hlisted, hys, hsockets, -, -⟩ := freeSocket_cases h.listed sock
  rcases hlast with rfl | hlast
  · obtain rfl : ys = [] := hys (by simp)
    have hsame : s'.sockets = s.sockets := by
      rw [hsockets, ← h.free sock (by simp), Function.update_eq_self]
    refine ⟨s', [], he, hlisted, fun other hmem => ?_, fun p other hget => ?_, fun other hmem => ?_⟩
    · cases hmem
    · simp at hget
    · rw [hsame]
      exact h.free other hmem
  · obtain ⟨as, rfl⟩ := List.getLast?_eq_some_iff.mp hlast
    have hposition : (s.sockets sock).socket = as.length :=
      h.position as.length sock List.getElem?_concat_length
    have herase : (as ++ [sock]).eraseIdx (s.sockets sock).socket = as := by
      rw [hposition, List.eraseIdx_append_of_length_le (Nat.le_refl _), Nat.sub_self,
        List.eraseIdx_cons_zero, List.append_nil]
    have hnot : sock ∉ as := fun hmem =>
      (List.nodup_append.mp h.listed.holds.nodup).2.2 sock hmem sock (List.mem_singleton_self _) rfl
    rw [herase] at hys
    obtain rfl := hys hnot
    exact ⟨s', ys, he, h.freeLast hlisted hsockets⟩

/-- Every step that frees the last socket first keeps the table consistent. -/
theorem consistent_socketStep (s : SocketTable) (a : SocketAct) (s' : SocketTable)
    (h : ∃ xs, Consistent socketNum s xs) (hg : LastFirst socketNum s a)
    (hstep : socketStep socketNum s a = some s') : ∃ xs, Consistent socketNum s' xs := by
  obtain ⟨xs, h⟩ := h
  cases a with
  | alloc created =>
      rw [socketStep] at hstep
      rcases allocSocketByDevice_cases h.listed created with
        he | ⟨idx, t, result, ys, he, hfree, hlisted, hys, hsockets, -, -⟩ <;> rw [he] at hstep
      · cases hstep
        exact ⟨xs, h⟩
      · cases hstep
        exact ⟨ys, h.alloc hfree hlisted hys hsockets⟩
  | close socket =>
      rw [socketStep] at hstep
      split at hstep <;> cases hstep
      · rename_i hnone
        rw [h.listed.atGetSocket] at hnone
        cases hnone
      · exact ⟨xs, h⟩
      · exact ⟨xs, h.withClosing _⟩
  | free sock =>
      rw [socketStep] at hstep
      split at hstep
      · obtain ⟨t, ys, he, hys⟩ := consistent_freeSocket h (hg xs h.listed.nodes)
        rw [he] at hstep
        cases hstep
        exact ⟨ys, hys.withClosing _⟩
      · cases hstep

/-- A socket in use is on the list, at the position of its descriptor, as long as it can be
addressed. -/
theorem Addressed.position {s : SocketTable} {xs : List Nat} (h : Addressed socketNum s)
    (hlisted : Listed socketNum s xs) {sock : Nat} (hmagic : (s.sockets sock).magic = true) :
    xs[(s.sockets sock).socket]? = some sock := by
  have hget := h sock hmagic
  rw [hlisted.atGetSocket, Option.some.injEq, Option.filter_eq_some_iff] at hget
  exact hget.1

/-- The position of the descriptor of a socket that is freed is a position of the list, and the
socket is at no other one. -/
theorem Consistent.eraseIdx {s : SocketTable} {xs : List Nat} (h : Consistent socketNum s xs)
    (hne : xs ≠ []) (sock : Nat) :
    (s.sockets sock).socket < xs.length ∧ sock ∉ xs.eraseIdx (s.sockets sock).socket := by
  by_cases hmem : sock ∈ xs
  · obtain ⟨p, hp, hget⟩ := List.mem_iff_getElem.mp hmem
    have hposition : (s.sockets sock).socket = p :=
      h.position p sock (by rw [List.getElem?_eq_getElem hp, hget])
    rw [hposition]
    refine ⟨hp, ?_⟩
    rw [← List.Nodup.erase_getElem h.listed.holds.nodup p hp, hget]
    exact h.listed.holds.nodup.not_mem_erase
  · rw [h.free sock hmem]
    exact ⟨List.length_pos_iff.mpr hne, fun h' => hmem (List.mem_of_mem_eraseIdx h')⟩

/-- Freeing another socket than the last one leaves a socket that its descriptor misses. -/
theorem lastFirst_of_addressed (s : SocketTable) (a : SocketAct) (s' : SocketTable)
    (h : ∃ xs, Consistent socketNum s xs) (hstep : socketStep socketNum s a = some s')
    (haddressed : Addressed socketNum s') : LastFirst socketNum s a := by
  obtain ⟨xs, h⟩ := h
  cases a with
  | alloc created => trivial
  | close socket => trivial
  | free sock =>
      intro xs' hnodes
      obtain rfl : xs = xs' := Option.some.inj (h.listed.nodes.symm.trans hnodes)
      rw [socketStep] at hstep
      split at hstep
      · obtain ⟨t, ys, he, hlisted, hys, hsockets, -, -⟩ := freeSocket_cases h.listed sock
        rw [he] at hstep
        cases hstep
        by_contra hnot
        rw [not_or] at hnot
        obtain ⟨hlt, herased⟩ := h.eraseIdx hnot.1 sock
        obtain rfl := hys herased
        obtain hnil | ⟨bs, last, rfl⟩ := List.eq_nil_or_concat' xs
        · exact hnot.1 hnil
        have hlast : last ≠ sock := fun heq => hnot.2 (by rw [List.getLast?_concat, heq])
        have hsame : t.sockets last = s.sockets last := by
          rw [hsockets, Function.update_of_ne hlast]
        -- The last socket stays in use, and its descriptor is now the length of the list.
        have hposition : (t.sockets last).socket = bs.length := by
          rw [hsame]
          exact h.position bs.length last List.getElem?_concat_length
        have hmagic : (t.sockets last).magic = true := by
          rw [hsame]
          exact h.inUse last (List.mem_append_right _ (List.mem_singleton_self last))
        have hget := haddressed.position ⟨hlisted.holds, hlisted.bound⟩ hmagic
        obtain ⟨hlen, -⟩ := List.getElem?_eq_some_iff.mp hget
        have hbs : bs.length < ((bs ++ [last]).eraseIdx (s.sockets sock).socket).length :=
          hposition ▸ hlen
        rw [List.length_eraseIdx_of_lt hlt, List.length_append, List.length_singleton] at hbs
        omega
      · cases hstep

-- The first of two sockets is closed: the descriptor of the second leads nowhere.
example :
    (run (socketStep 8) socketTableInit [.alloc true, .alloc true, .close 0, .free 0]).map
      (fun s => (atGetSocket 8 s 1, (s.sockets 1).magic)) = some (some none, true) := by
  decide

end CarLocator.At
