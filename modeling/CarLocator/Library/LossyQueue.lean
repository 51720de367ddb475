import CarLocator.Library.Runs
import Mathlib.Data.List.DropRight
import Mathlib.Tactic.Common

/-!
# `CarLocator.Library.LossyQueue`: a queue that keeps its last elements

A queue of at most `cap` elements. When one is pushed on a full queue, the oldest one is
lost. The state carries what was pushed and what was popped so far.

Whatever the schedule, what was popped and what is still there come in the order in which they
were pushed, and nothing comes twice (`popped_append_queue_sublist`). Nothing is lost along a
run exactly when every push finds room (`lossless_iff`).
-/

set_option autoImplicit false

namespace CarLocator.Library

variable {α : Type*}

/-- The queue with its history. -/
structure LossyQueue (α : Type*) where
  queue : List α
  pushed : List α
  popped : List α

/-- The operations. -/
inductive QueueAct (α : Type*)
  | push (x : α)
  | pop

/-- The last `cap` elements stay. -/
def pushLast (cap : Nat) (queue : List α) (x : α) : List α := (queue ++ [x]).rtake cap

/-- One operation. Popping an empty queue changes nothing. -/
def lossyStep (cap : Nat) (s : LossyQueue α) : QueueAct α → Option (LossyQueue α)
  | .push x =>
    some { s with queue := pushLast cap s.queue x, pushed := s.pushed ++ [x] }
  | .pop =>
    some (match s.queue with
      | [] => s
      | x :: queue => { s with queue := queue, popped := s.popped ++ [x] })

/-- The empty queue. -/
def LossyQueue.empty : LossyQueue α := ⟨[], [], []⟩

/-- A push that finds room. -/
theorem pushLast_of_lt {cap : Nat} {queue : List α} (h : queue.length < cap) (x : α) :
    pushLast cap queue x = queue ++ [x] := by
  rw [pushLast, List.rtake_eq_reverse_take_reverse, List.take_of_length_le,
    List.reverse_reverse]
  simp only [List.length_reverse, List.length_append, List.length_singleton]
  omega

/-- A push on a full queue. -/
theorem pushLast_of_full {cap : Nat} {queue : List α} (hcap : 0 < cap)
    (h : queue.length = cap) (x : α) : pushLast cap queue x = queue.tail ++ [x] := by
  have hlen : (queue ++ [x]).length - cap = 1 := by simp [h]
  rw [pushLast, List.rtake, hlen]
  cases queue with
  | nil =>
      rw [List.length_nil] at h
      omega
  | cons y queue => rfl

/-- What a push leaves is the end of what it was given. -/
theorem pushLast_suffix (cap : Nat) (queue : List α) (x : α) :
    pushLast cap queue x <:+ queue ++ [x] :=
  List.drop_suffix _ _

/-- A push never leaves more than `cap` elements. -/
theorem length_pushLast_le (cap : Nat) (queue : List α) (x : α) :
    (pushLast cap queue x).length ≤ cap := by
  rw [pushLast, List.rtake, List.length_drop]
  omega

/-- What is dropped first does not count among the last `n` elements. -/
theorem rtake_append_rtake (n : Nat) (xs ys : List α) :
    (xs.rtake n ++ ys).rtake n = (xs ++ ys).rtake n := by
  simp only [List.rtake, List.length_append, List.length_drop]
  rw [List.drop_append, List.drop_append, List.drop_drop, List.length_drop]
  congr 2 <;> omega

/-- What a few pushes in a row leave. -/
theorem foldl_pushLast {cap : Nat} {queue : List α} (h : queue.length ≤ cap) (xs : List α) :
    xs.foldl (pushLast cap) queue = (queue ++ xs).rtake cap := by
  induction xs generalizing queue with
  | nil =>
      rw [List.append_nil, List.foldl_nil, List.rtake, Nat.sub_eq_zero_of_le h, List.drop_zero]
  | cons x xs ih =>
      rw [List.foldl_cons, ih (length_pushLast_le cap queue x), pushLast, rtake_append_rtake,
        List.append_assoc, List.singleton_append]

/-- A few pushes in a row lose nothing exactly when there is room for all of them. -/
theorem rtake_append_eq_iff (cap : Nat) (queue xs : List α) :
    (queue ++ xs).rtake cap = queue ++ xs ↔ queue.length + xs.length ≤ cap := by
  rw [← List.length_append]
  constructor
  · intro h
    have hlen := congrArg List.length h
    rw [List.rtake, List.length_drop] at hlen
    omega
  · intro h
    rw [List.rtake, Nat.sub_eq_zero_of_le h, List.drop_zero]

/-- The queue is the end of what was pushed, it has at most `cap` elements, and with what was
popped it is part of what was pushed. -/
structure InOrder (cap : Nat) (s : LossyQueue α) : Prop where
  last : s.queue <:+ s.pushed
  room : s.queue.length ≤ cap
  order : (s.popped ++ s.queue).Sublist s.pushed

/-- The empty queue is in order. -/
theorem inOrder_empty (cap : Nat) : InOrder cap (LossyQueue.empty : LossyQueue α) :=
  ⟨List.suffix_refl _, Nat.zero_le _, List.Sublist.refl _⟩

/-- Every operation keeps the order. -/
theorem inOrder_lossyStep {cap : Nat} (s : LossyQueue α) (a : QueueAct α) (s' : LossyQueue α)
    (h : InOrder cap s) (hstep : lossyStep cap s a = some s') : InOrder cap s' := by
  cases a with
  | push x =>
      cases hstep
      have hsuffix := pushLast_suffix cap s.queue x
      refine ⟨hsuffix.trans ?_, length_pushLast_le cap s.queue x, ?_⟩
      · obtain ⟨pre, hpre⟩ := h.last
        exact ⟨pre, by rw [← List.append_assoc, hpre]⟩
      · refine ((List.Sublist.refl s.popped).append hsuffix.sublist).trans ?_
        rw [← List.append_assoc]
        exact h.order.append (List.Sublist.refl [x])
  | pop =>
      simp only [lossyStep, Option.some.injEq] at hstep
      subst hstep
      cases hqueue : s.queue with
      | nil => exact h
      | cons x queue =>
          have hlast := h.last
          have hroom := h.room
          have horder := h.order
          rw [hqueue] at hlast hroom horder
          refine ⟨(List.suffix_cons x queue).trans hlast, ?_, ?_⟩
          · show queue.length ≤ cap
            rw [List.length_cons] at hroom
            omega
          · show ((s.popped ++ [x]) ++ queue).Sublist s.pushed
            rw [List.append_assoc]
            exact horder

/-- **Order and no repetition.** In every state of every run, what was popped and what is still
queued are part of what was pushed, in its order. -/
theorem popped_append_queue_sublist (cap : Nat) {s : LossyQueue α}
    (hr : Reachable (lossyStep cap) LossyQueue.empty s) : InOrder cap s :=
  reachable_induction (inOrder_empty cap) inOrder_lossyStep hr

/-- Nothing was lost. -/
def Lossless (s : LossyQueue α) : Prop := s.pushed = s.popped ++ s.queue

/-- The guard: a push finds room. -/
def FindsRoom (cap : Nat) (s : LossyQueue α) : QueueAct α → Prop
  | .push _ => s.queue.length < cap
  | .pop => True

/-- A step keeps a queue lossless exactly when a push finds room. -/
theorem lossless_step {cap : Nat} (s : LossyQueue α) (a : QueueAct α) (s' : LossyQueue α)
    (h : Lossless s) (hstep : lossyStep cap s a = some s') : Lossless s' ↔ FindsRoom cap s a := by
  cases a with
  | push x =>
      cases hstep
      have hpushed : s.pushed ++ [x] = s.popped ++ (s.queue ++ [x]) := by
        rw [← List.append_assoc, ← h]
      constructor
      · intro h'
        have hqueue : s.queue ++ [x] = pushLast cap s.queue x :=
          List.append_cancel_left (hpushed.symm.trans h')
        have hlen := congrArg List.length hqueue
        have hle := length_pushLast_le cap s.queue x
        rw [List.length_append, List.length_singleton] at hlen
        show s.queue.length < cap
        omega
      · intro hroom
        show s.pushed ++ [x] = s.popped ++ pushLast cap s.queue x
        rw [pushLast_of_lt hroom, hpushed]
  | pop =>
      refine iff_of_true ?_ trivial
      simp only [lossyStep, Option.some.injEq] at hstep
      subst hstep
      cases hqueue : s.queue with
      | nil => exact h
      | cons x queue =>
          show s.pushed = (s.popped ++ [x]) ++ queue
          rw [h, hqueue, List.append_assoc, List.singleton_append]

/-- **When nothing is lost.** A run is lossless in every state exactly when every push finds
room. -/
theorem lossless_iff (cap : Nat) {s : LossyQueue α} (as : List (QueueAct α)) (h : Lossless s) :
    Always (lossyStep cap) Lossless s as ↔ Guarded (lossyStep cap) (FindsRoom cap) s as :=
  always_iff_guarded lossless_step h

end CarLocator.Library
