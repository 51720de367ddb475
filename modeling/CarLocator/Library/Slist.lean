import Mathlib.Data.List.Nodup
import Mathlib.Logic.Function.Basic

/-!
# `CarLocator.Library.Slist`: singly linked lists through next pointers

A list of nodes of any type, each with a pointer to the next one, behind a head pointer. The
operations work on the pointers: `init` cuts a node off what follows it, `append` puts a node at
the end, `remove` takes one out. A loop over a list need not end, so an operation with a loop
gets a number of steps and returns nothing when they are not enough.

`Seg next p xs q` says that the pointers lead from `p` over the nodes `xs` to `q`, and a list
`Holds xs` when they lead from its head to the null pointer. A list that holds some nodes holds
each of them once (`Holds.nodup`). The operations are lists of nodes then: `holds_append`,
`holds_append_last`, `holds_init` and `holds_remove`.
-/

set_option autoImplicit false

namespace CarLocator.Library

variable {α : Type*} [DecidableEq α]

/-- The head pointer and the pointers of the nodes. -/
structure Slist (α : Type*) where
  head : Option α
  next : α → Option α

/-- The pointers lead from `p` over `xs` to `q`. -/
def Seg (next : α → Option α) : Option α → List α → Option α → Prop
  | p, [], q => p = q
  | p, x :: xs, q => p = some x ∧ Seg next (next x) xs q

/-- The list consists of these nodes. -/
def Slist.Holds (l : Slist α) (xs : List α) : Prop := Seg l.next l.head xs none

/-- The nodes up to the null pointer, in at most `n` steps. -/
def walk (next : α → Option α) : Nat → Option α → Option (List α)
  | _, none => some []
  | 0, some _ => none
  | n + 1, some x => (walk next n (next x)).map (x :: ·)

/-- The nodes of the list. -/
def Slist.nodes (l : Slist α) (n : Nat) : Option (List α) := walk l.next n l.head

/-- Set the pointer of a node, or the head pointer. -/
def Slist.setNext (l : Slist α) (node : Option α) (p : Option α) : Slist α :=
  match node with
  | none => { l with head := p }
  | some x => { l with next := Function.update l.next x p }

/-- The pointer of the node is null. -/
def Slist.init (l : Slist α) (x : α) : Slist α := l.setNext (some x) none

/-- The last node points to `x`, and `x` to nothing. -/
def Slist.append (l : Slist α) (n : Nat) (x : α) : Option (Slist α) :=
  (l.nodes n).map fun xs => (l.setNext xs.getLast? (some x)).init x

/-- The node whose pointer is `p`, or one behind it, at which the search for `x` ends. -/
def stopAt (next : α → Option α) (x : α) : Nat → Option α → Option α → Option (Option α)
  | _, node, none => some node
  | n, node, some y =>
    if y = x then some node
    else
      match n with
      | 0 => none
      | n + 1 => stopAt next x n (some y) (next y)

/-- The node before `x` points to the node behind it. Without `x` nothing changes. -/
def Slist.remove (l : Slist α) (n : Nat) (x : α) : Option (Slist α) :=
  (stopAt l.next x n none l.head).map fun node =>
    match (match node with
      | none => l.head
      | some y => l.next y) with
    | none => l
    | some y => l.setNext node (l.next y)

omit [DecidableEq α] in
@[simp]
theorem seg_nil (next : α → Option α) (p q : Option α) : Seg next p [] q ↔ p = q := Iff.rfl

omit [DecidableEq α] in
@[simp]
theorem seg_cons (next : α → Option α) (p : Option α) (x : α) (xs : List α) (q : Option α) :
    Seg next p (x :: xs) q ↔ p = some x ∧ Seg next (next x) xs q := Iff.rfl

omit [DecidableEq α] in
/-- Two segments in a row. -/
theorem seg_append (next : α → Option α) (p : Option α) (xs ys : List α) (q : Option α) :
    Seg next p (xs ++ ys) q ↔ ∃ m, Seg next p xs m ∧ Seg next m ys q := by
  induction xs generalizing p with
  | nil => simp
  | cons x xs ih =>
      rw [List.cons_append, seg_cons, ih]
      constructor
      · rintro ⟨hp, m, hxs, hys⟩
        exact ⟨m, ⟨hp, hxs⟩, hys⟩
      · rintro ⟨m, ⟨hp, hxs⟩, hys⟩
        exact ⟨hp, m, hxs, hys⟩

omit [DecidableEq α] in
/-- The pointers lead over one list of nodes only. -/
theorem seg_unique {next : α → Option α} {p : Option α} {xs ys : List α}
    (hx : Seg next p xs none) (hy : Seg next p ys none) : xs = ys := by
  induction xs generalizing p ys with
  | nil =>
      cases ys with
      | nil => rfl
      | cons y ys =>
          obtain ⟨hp, -⟩ := hy
          rw [seg_nil] at hx
          rw [hx] at hp
          cases hp
  | cons x xs ih =>
      obtain ⟨rfl, hx⟩ := hx
      cases ys with
      | nil => cases hy
      | cons y ys =>
          obtain ⟨hxy, hy⟩ := hy
          cases hxy
          rw [ih hx hy]

omit [DecidableEq α] in
/-- No node comes twice, since the pointers would lead around in a circle. -/
theorem seg_nodup {next : α → Option α} {p : Option α} {xs : List α}
    (h : Seg next p xs none) : xs.Nodup := by
  induction xs generalizing p with
  | nil => exact List.nodup_nil
  | cons x xs ih =>
      obtain ⟨-, hxs⟩ := h
      refine List.nodup_cons.mpr ⟨fun hmem => ?_, ih hxs⟩
      obtain ⟨as, bs, rfl⟩ := List.append_of_mem hmem
      obtain ⟨m, -, rfl, hbs⟩ := (seg_append _ _ _ _ _).mp hxs
      have hlen := congrArg List.length (seg_unique hxs hbs)
      simp only [List.length_append, List.length_cons] at hlen
      omega

omit [DecidableEq α] in
/-- No node of a list comes twice. -/
theorem Slist.Holds.nodup {l : Slist α} {xs : List α} (h : l.Holds xs) : xs.Nodup := seg_nodup h

omit [DecidableEq α] in
/-- A walk that ends, with the nodes it passed. -/
theorem walk_of_seg {next : α → Option α} {n : Nat} {p : Option α} {xs : List α}
    (h : Seg next p xs none) (hn : xs.length ≤ n) : walk next n p = some xs := by
  induction xs generalizing n p with
  | nil =>
      cases h
      cases n <;> rfl
  | cons x xs ih =>
      obtain ⟨rfl, hxs⟩ := h
      cases n with
      | zero => exact absurd hn (Nat.not_succ_le_zero _)
      | succ n => rw [walk, ih hxs (Nat.le_of_succ_le_succ hn), Option.map_some]

omit [DecidableEq α] in
/-- The nodes of a list. -/
theorem Slist.Holds.nodes {l : Slist α} {xs : List α} (h : l.Holds xs) {n : Nat}
    (hn : xs.length ≤ n) : l.nodes n = some xs :=
  walk_of_seg h hn

/-- A node that is not on the way may point anywhere. -/
theorem seg_update {next : α → Option α} {p q : Option α} {xs : List α} {x : α}
    (hx : x ∉ xs) (v : Option α) : Seg (Function.update next x v) p xs q ↔ Seg next p xs q := by
  induction xs generalizing p with
  | nil => rfl
  | cons y xs ih =>
      rw [List.mem_cons, not_or] at hx
      rw [seg_cons, seg_cons, ih hx.2, Function.update_of_ne (Ne.symm hx.1)]

/-- The end of a segment is moved by its last pointer, which is the head pointer when there is no
node. -/
theorem seg_setNext {l : Slist α} {xs : List α} {q : Option α} (h : Seg l.next l.head xs q)
    (hnodup : xs.Nodup) (p : Option α) :
    Seg (l.setNext xs.getLast? p).next (l.setNext xs.getLast? p).head xs p := by
  rcases List.eq_nil_or_concat' xs with rfl | ⟨as, x, rfl⟩
  · exact rfl
  · obtain ⟨m, has, rfl, -⟩ := (seg_append _ _ _ _ _).mp h
    have hx : x ∉ as := fun hmem =>
      (List.nodup_append.mp hnodup).2.2 x hmem x (List.mem_singleton_self x) rfl
    rw [List.getLast?_concat]
    refine (seg_append _ _ _ _ _).mpr ⟨some x, (seg_update hx p).mpr has, rfl, ?_⟩
    exact Function.update_self _ _ _

/-- A pointer that is set elsewhere leaves the rest of a list alone. -/
theorem seg_setNext_of_notMem {l : Slist α} {node : Option α} {p m q : Option α} {xs : List α}
    (hnode : ∀ x ∈ node, x ∉ xs) (h : Seg l.next m xs q) : Seg (l.setNext node p).next m xs q := by
  cases node with
  | none => exact h
  | some x => exact (seg_update (hnode x rfl) p).mpr h

/-- Cutting off a node that is not in the list. -/
theorem holds_init_of_notMem {l : Slist α} {xs : List α} (h : l.Holds xs) {x : α} (hx : x ∉ xs) :
    (l.init x).Holds xs :=
  (seg_update hx none).mpr h

/-- Cutting off a node of the list. -/
theorem holds_init {l : Slist α} {as bs : List α} {x : α} (h : l.Holds (as ++ x :: bs)) :
    (l.init x).Holds (as ++ [x]) := by
  have hx : x ∉ as := fun hmem =>
    (List.nodup_append.mp h.nodup).2.2 x hmem x List.mem_cons_self rfl
  obtain ⟨m, has, rfl, -⟩ := (seg_append _ _ _ _ _).mp h
  refine (seg_append _ _ _ _ _).mpr ⟨some x, (seg_update hx none).mpr has, rfl, ?_⟩
  exact Function.update_self _ _ _

/-- A new node at the end. -/
theorem holds_append {l : Slist α} {xs : List α} (h : l.Holds xs) {n : Nat} (hn : xs.length ≤ n)
    {x : α} (hx : x ∉ xs) : ∃ l', l.append n x = some l' ∧ l'.Holds (xs ++ [x]) := by
  refine ⟨_, by rw [Slist.append, h.nodes hn, Option.map_some], ?_⟩
  have hseg := seg_setNext h h.nodup (some x)
  refine (seg_append _ _ _ _ _).mpr ⟨some x, (seg_update hx none).mpr hseg, rfl, ?_⟩
  exact Function.update_self _ _ _

/-- The last node, put at the end again. -/
theorem holds_append_last {l : Slist α} {as : List α} {x : α} (h : l.Holds (as ++ [x])) {n : Nat}
    (hn : as.length < n) : ∃ l', l.append n x = some l' ∧ l'.Holds (as ++ [x]) := by
  have hlen : (as ++ [x]).length ≤ n := by
    rw [List.length_append, List.length_singleton]
    omega
  refine ⟨_, by rw [Slist.append, h.nodes hlen, Option.map_some, List.getLast?_concat], ?_⟩
  -- It points to itself for a moment, before its pointer is cleared.
  have hself : (l.setNext (some x) (some x)).init x = l.init x := by
    rw [Slist.init, Slist.init, Slist.setNext, Slist.setNext, Slist.setNext]
    simp only [Function.update_idem]
  rw [hself]
  exact holds_init h

/-- Where the search for a node ends. -/
theorem stopAt_of_seg {next : α → Option α} {x : α} {n : Nat} (node : Option α) {p q : Option α}
    {as : List α} (h : Seg next p as q) (hx : x ∉ as) (hn : as.length ≤ n)
    (hq : q = none ∨ q = some x) :
    stopAt next x n node p = some (as.getLast?.or node) := by
  induction as generalizing n node p with
  | nil =>
      obtain rfl : p = q := h
      rcases hq with rfl | rfl <;> cases n <;> simp [stopAt]
  | cons y as ih =>
      obtain ⟨rfl, has⟩ := h
      rw [List.mem_cons, not_or] at hx
      cases n with
      | zero => exact absurd hn (Nat.not_succ_le_zero _)
      | succ n =>
          rw [stopAt, if_neg (Ne.symm hx.1), ih _ has hx.2 (Nat.le_of_succ_le_succ hn),
            List.getLast?_cons]
          cases as.getLast? <;> rfl

omit [DecidableEq α] in
/-- The pointer of the last node of a segment. -/
theorem next_getLast? {l : Slist α} {as : List α} {q : Option α} (h : Seg l.next l.head as q) :
    (match as.getLast? with
      | none => l.head
      | some y => l.next y) = q := by
  rcases List.eq_nil_or_concat' as with rfl | ⟨bs, y, rfl⟩
  · exact h
  · obtain ⟨m, -, -, hy⟩ := (seg_append _ _ _ _ _).mp h
    rw [List.getLast?_concat]
    exact hy

/-- Taking a node out. -/
theorem holds_remove {l : Slist α} {xs : List α} (h : l.Holds xs) {n : Nat} (hn : xs.length ≤ n)
    (x : α) : ∃ l', l.remove n x = some l' ∧ l'.Holds (xs.erase x) := by
  by_cases hx : x ∈ xs
  · obtain ⟨as, bs, rfl, hxas⟩ := List.eq_append_cons_of_mem hx
    have hnodup := h.nodup
    obtain ⟨m, has, rfl, hbs⟩ := (seg_append _ _ _ _ _).mp h
    have hlen : as.length ≤ n := by
      rw [List.length_append] at hn
      omega
    have hstop := stopAt_of_seg none has hxas hlen (Or.inr rfl)
    rw [Option.or_none] at hstop
    refine ⟨_, by rw [Slist.remove, hstop, Option.map_some, next_getLast? has], ?_⟩
    have herase : (as ++ x :: bs).erase x = as ++ bs := by
      rw [List.erase_append_right _ hxas, List.erase_cons_head]
    rw [herase]
    rw [List.nodup_append] at hnodup
    obtain ⟨hnas, -, hdisjoint⟩ := hnodup
    -- The pointer that is set belongs to a node before `x`, so not to one behind it.
    refine (seg_append _ _ _ _ _).mpr ⟨l.next x, seg_setNext has hnas _, ?_⟩
    refine seg_setNext_of_notMem (fun y hy hybs => ?_) hbs
    exact hdisjoint y (List.mem_of_getLast? hy) y (List.mem_cons_of_mem _ hybs) rfl
  · have hstop := stopAt_of_seg none h hx hn (Or.inl rfl)
    rw [Option.or_none] at hstop
    refine ⟨l, ?_, by rwa [List.erase_of_not_mem hx]⟩
    rw [Slist.remove, hstop, Option.map_some, next_getLast? h]

end CarLocator.Library
