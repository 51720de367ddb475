import CarLocator.Library.CText

/-!
# `CarLocator.At.RecvPkt`: the packets a socket has received

`at_socket.c` keeps what comes in for a socket as a list of packets, `recvpkt_list`. A reader
that asks for `len` bytes gets them from as many packets as it takes, and what is left of the
last one stays. Seen as the bytes it holds (`recvBytes`), the list is a queue of bytes
(`atRecvpktGet_bytes`, `recvBytes_put`).

The loops of `at_recvpkt_get` and `at_recvpkt_all_delete` go on to `rt_slist_next(node)` after
the node has been freed. The model reads the list as it was, and says with a flag that freed
memory was read. `readsFreed_iff` states when a read does that.
-/

set_option autoImplicit false

namespace CarLocator.At

open CarLocator.Library

/-- `struct at_recv_pkt`, with `bfsz_totle` for the length of the buffer. -/
structure RecvPkt where
  buff : Bytes
  bfszIndex : Nat
  le : bfszIndex ≤ buff.length
  deriving DecidableEq, Repr

/-- What a packet still holds. -/
def RecvPkt.content (pkt : RecvPkt) : Bytes := pkt.buff.drop pkt.bfszIndex

/-- `pkt->bfsz_index += n`, for as much as the packet holds. -/
def RecvPkt.advance (pkt : RecvPkt) (n : Nat) (h : n ≤ pkt.buff.length - pkt.bfszIndex) :
    RecvPkt :=
  { pkt with
    bfszIndex := pkt.bfszIndex + n
    le := by
      have := pkt.le
      omega }

/-- The bytes of a list of packets. -/
def recvBytes (rlist : List RecvPkt) : Bytes := rlist.flatMap RecvPkt.content

/-- `at_recvpkt_put`. Without memory for the packet the buffer is dropped. -/
def atRecvpktPut (calloc : Bool) (rlist : List RecvPkt) (ptr : Bytes) : List RecvPkt :=
  if calloc then rlist ++ [⟨ptr, 0, Nat.zero_le _⟩] else rlist

/-- The loop of `at_recvpkt_get`: `mem` has been filled so far. The last result says that a
freed node was read. -/
def recvpktGetLoop (len : Nat) : List RecvPkt → Bytes → Bool → Bytes × List RecvPkt × Bool
  | [], mem, freed => (mem, [], freed)
  | pkt :: rlist, mem, freed =>
    if h : len - mem.length ≤ pkt.buff.length - pkt.bfszIndex then
      let pkt' := pkt.advance (len - mem.length) h
      (mem ++ pkt.content.take (len - mem.length),
        if pkt'.bfszIndex = pkt'.buff.length then rlist else pkt' :: rlist, freed)
    else recvpktGetLoop len rlist (mem ++ pkt.content) true

/-- `at_recvpkt_get`: the bytes copied to `mem`, the list afterwards, and whether freed memory
was read. -/
def atRecvpktGet (rlist : List RecvPkt) (len : Nat) : Bytes × List RecvPkt × Bool :=
  recvpktGetLoop len rlist [] false

/-- `at_recvpkt_all_delete`: the loop reads every node after it has freed it. -/
def atRecvpktAllDelete (rlist : List RecvPkt) : List RecvPkt × Bool := ([], !rlist.isEmpty)

@[simp]
theorem recvBytes_nil : recvBytes [] = [] := rfl

@[simp]
theorem recvBytes_cons (pkt : RecvPkt) (rlist : List RecvPkt) :
    recvBytes (pkt :: rlist) = pkt.content ++ recvBytes rlist := by
  rw [recvBytes, List.flatMap_cons, recvBytes]

@[simp]
theorem RecvPkt.length_content (pkt : RecvPkt) :
    pkt.content.length = pkt.buff.length - pkt.bfszIndex :=
  List.length_drop

@[simp]
theorem RecvPkt.content_advance (pkt : RecvPkt) (n : Nat)
    (h : n ≤ pkt.buff.length - pkt.bfszIndex) : (pkt.advance n h).content = pkt.content.drop n := by
  rw [RecvPkt.content, RecvPkt.content, List.drop_drop]
  rfl

/-- A new packet goes behind the bytes that are there. -/
theorem recvBytes_put (rlist : List RecvPkt) (ptr : Bytes) :
    recvBytes (atRecvpktPut true rlist ptr) = recvBytes rlist ++ ptr := by
  rw [atRecvpktPut, if_pos rfl, recvBytes, List.flatMap_append]
  simp [recvBytes, RecvPkt.content]

/-- What the loop copies, and what it leaves. -/
theorem recvpktGetLoop_bytes {len : Nat} (rlist : List RecvPkt) (mem : Bytes) (freed : Bool)
    (hmem : mem.length ≤ len) :
    (recvpktGetLoop len rlist mem freed).1
        = mem ++ (recvBytes rlist).take (len - mem.length)
      ∧ recvBytes (recvpktGetLoop len rlist mem freed).2.1
        = (recvBytes rlist).drop (len - mem.length) := by
  induction rlist generalizing mem freed with
  | nil => simp [recvpktGetLoop]
  | cons pkt rlist ih =>
      have hlen := pkt.length_content
      rw [recvpktGetLoop]
      split
      · rename_i h
        have hle : len - mem.length ≤ pkt.content.length := by rwa [hlen]
        rw [recvBytes_cons, List.take_append_of_le_length hle, List.drop_append_of_le_length hle]
        refine ⟨rfl, ?_⟩
        dsimp only
        split
        · -- The packet is used up: nothing of it is left.
          rename_i hend
          have hdone : pkt.content.drop (len - mem.length) = [] := by
            rw [← pkt.content_advance _ h, RecvPkt.content, hend, List.drop_length]
          rw [hdone, List.nil_append]
        · rw [recvBytes_cons, RecvPkt.content_advance]
      · rename_i h
        have hmem' : (mem ++ pkt.content).length ≤ len := by
          rw [List.length_append, hlen]
          omega
        obtain ⟨htake, hdrop⟩ := ih _ true hmem'
        have hsub : len - (mem ++ pkt.content).length = len - mem.length - pkt.content.length := by
          rw [List.length_append]
          omega
        have hle : pkt.content.length ≤ len - mem.length := by
          rw [hlen]
          omega
        rw [htake, hdrop, hsub, recvBytes_cons, List.take_append, List.drop_append,
          List.take_of_length_le hle, List.drop_eq_nil_of_le hle, List.append_assoc,
          List.nil_append]
        exact ⟨rfl, rfl⟩

/-- A read takes bytes from the front, across the packets. -/
theorem atRecvpktGet_bytes (rlist : List RecvPkt) (len : Nat) :
    (atRecvpktGet rlist len).1 = (recvBytes rlist).take len
      ∧ recvBytes (atRecvpktGet rlist len).2.1 = (recvBytes rlist).drop len := by
  exact recvpktGetLoop_bytes rlist [] false (Nat.zero_le len)

/-- Once freed memory has been read, that stays. -/
theorem recvpktGetLoop_freed (len : Nat) (rlist : List RecvPkt) (mem : Bytes) :
    (recvpktGetLoop len rlist mem true).2.2 = true := by
  induction rlist generalizing mem with
  | nil => rfl
  | cons pkt rlist ih =>
      rw [recvpktGetLoop]
      split
      · rfl
      · exact ih _

/-- A read goes on to a freed node exactly when it asks for more than the first packet holds. -/
theorem readsFreed_iff (rlist : List RecvPkt) (len : Nat) :
    (atRecvpktGet rlist len).2.2 = true
      ↔ ∃ pkt rest, rlist = pkt :: rest ∧ pkt.content.length < len := by
  cases rlist with
  | nil => simp [atRecvpktGet, recvpktGetLoop]
  | cons pkt rest =>
      rw [atRecvpktGet, recvpktGetLoop]
      split
      · rename_i h
        rw [List.length_nil, Nat.sub_zero] at h
        constructor
        · intro hfreed
          cases hfreed
        · rintro ⟨_, _, heq, hlt⟩
          cases heq
          rw [RecvPkt.length_content] at hlt
          omega
      · rename_i h
        rw [List.length_nil, Nat.sub_zero] at h
        refine iff_of_true (recvpktGetLoop_freed len rest _) ⟨pkt, rest, rfl, ?_⟩
        rw [RecvPkt.length_content]
        omega

/-- A read that leaves a packet got all it asked for. -/
theorem length_recvpktGetLoop {len : Nat} (rlist : List RecvPkt) (mem : Bytes) (freed : Bool)
    (hmem : mem.length ≤ len) (h : (recvpktGetLoop len rlist mem freed).2.1 ≠ []) :
    (recvpktGetLoop len rlist mem freed).1.length = len := by
  induction rlist generalizing mem freed with
  | nil => exact absurd rfl h
  | cons pkt rlist ih =>
      have hlen := pkt.length_content
      rw [recvpktGetLoop] at h ⊢
      split
      · rw [List.length_append, List.length_take, hlen]
        omega
      · rename_i hle
        rw [dif_neg hle] at h
        refine ih _ true ?_ h
        rw [List.length_append, hlen]
        omega

/-- A read that returns nothing leaves no packet, not even an empty one. -/
theorem atRecvpktGet_empty {rlist : List RecvPkt} {len : Nat} (hlen : 0 < len)
    (h : (atRecvpktGet rlist len).1 = []) : (atRecvpktGet rlist len).2.1 = [] := by
  by_contra hrest
  have hfull := length_recvpktGetLoop rlist [] false (Nat.zero_le len) hrest
  rw [← atRecvpktGet, h, List.length_nil] at hfull
  omega

end CarLocator.At
