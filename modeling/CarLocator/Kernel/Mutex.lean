import CarLocator.Kernel.Sem
import CarLocator.Library.Runs
import Mathlib.Data.List.Sort

/-!
# `CarLocator.Kernel.Mutex`: the mutexes of the kernel

`rt_mutex_take` and `rt_mutex_release` of `rt-thread/src/ipc.c`, for any number of mutexes and
threads. Both run with interrupts disabled, so each is one atomic step. As with the semaphore,
`rtMutexTake` is the part up to the call of `rt_schedule`. A thread that is suspended there goes
on when `rtMutexRelease` hands the mutex over, or when its timer runs out (`rtMutexTimeout`).

A thread that holds a mutex may take it again, which `hold` counts in 8 bits. `mutex_exclusive`
says when the mutexes exclude: as long as no thread comes down to the count of its first take
with more takes to go. A thread that has to wait lends its priority to the owner, which is the
subject of `CarLocator.Kernel.MutexPriority`.
-/

set_option autoImplicit false

namespace CarLocator.Kernel

open CarLocator.Library

variable {τ μ : Type}

/-- `struct rt_mutex`. -/
structure RtMutex (τ : Type) where
  flag : IpcFlag
  value : UInt16
  originalPriority : Nat
  hold : UInt8
  owner : Option τ
  suspendThread : List τ
  deriving DecidableEq, Repr

/-- `rt_mutex_create` and `rt_mutex_init`. -/
def rtMutexInit (flag : IpcFlag) : RtMutex τ := ⟨flag, 1, 0xff, 0, none, []⟩

/-- The mutexes and the threads. -/
structure MutexSys (τ μ : Type) where
  mutex : μ → RtMutex τ
  currentPriority : τ → Nat
  /-- what a suspended thread waits for, and whether its timer runs -/
  waits : τ → Option (μ × Bool)
  /-- how many of the takes of a thread that succeeded it has not released yet -/
  held : μ → τ → Nat

/-- The calls of the threads, and the thread timer. -/
inductive MutexAct (τ μ : Type)
  | take (thread : τ) (mutex : μ) (time : Int)
  | release (thread : τ) (mutex : μ)
  | timeout (thread : τ)
  deriving DecidableEq, Repr

section Functions
variable [DecidableEq τ] [DecidableEq μ]

/-- A mutex after a change. -/
def MutexSys.set (s : MutexSys τ μ) (m : μ) (mutex : RtMutex τ) : MutexSys τ μ :=
  { s with mutex := Function.update s.mutex m mutex }

/-- How many takes of one thread are open after a change. -/
def MutexSys.setHeld (s : MutexSys τ μ) (m : μ) (t : τ) (n : Nat) : MutexSys τ μ :=
  { s with held := Function.update s.held m (Function.update (s.held m) t n) }

/-- `rt_ipc_list_suspend`, with the priorities at that moment. -/
def suspendByFlag (flag : IpcFlag) (priority : τ → Nat) (ts : List τ) (t : τ) : List τ :=
  match flag with
  | .fifo => ts ++ [t]
  | .prio => ts.orderedInsert (fun a b => priority a < priority b) t

/-- The priorities when `t` starts to wait for `owner`. -/
def lendPriority (priority : τ → Nat) (owner : Option τ) (t : τ) : τ → Nat :=
  match owner with
  | none => priority
  | some o => if priority t < priority o then Function.update priority o (priority t) else priority

/-- `rt_mutex_take` up to its call of `rt_schedule`. -/
def rtMutexTake (s : MutexSys τ μ) (t : τ) (m : μ) (time : Int) : TakeResult × MutexSys τ μ :=
  let mutex := s.mutex m
  if mutex.owner = some t then (.taken, s.set m { mutex with hold := mutex.hold + 1 })
  else if 0 < mutex.value then
    (.taken, s.set m { mutex with
      value := mutex.value - 1, owner := some t, originalPriority := s.currentPriority t,
      hold := mutex.hold + 1 })
  else if time = 0 then (.timeout, s)
  else
    let priority := lendPriority s.currentPriority mutex.owner t
    let ts := suspendByFlag mutex.flag priority mutex.suspendThread t
    (.suspended, { s.set m { mutex with suspendThread := ts } with
      currentPriority := priority
      waits := Function.update s.waits t (some (m, decide (0 < time))) })

/-- What `rt_mutex_release` returns. -/
inductive ReleaseResult (τ : Type)
  /-- `-RT_ERROR`: the thread is not the owner -/
  | error
  /-- `RT_EOK`, with the thread that was resumed as the new owner -/
  | released (resumed : Option τ)
  deriving DecidableEq, Repr

/-- `rt_mutex_release`. -/
def rtMutexRelease (s : MutexSys τ μ) (t : τ) (m : μ) : ReleaseResult τ × MutexSys τ μ :=
  let mutex := s.mutex m
  if mutex.owner ≠ some t then (.error, s)
  else
    let mutex := { mutex with hold := mutex.hold - 1 }
    if mutex.hold = 0 then
      let priority :=
        if mutex.originalPriority ≠ s.currentPriority t then
          Function.update s.currentPriority t mutex.originalPriority
        else s.currentPriority
      match mutex.suspendThread with
      | w :: ts =>
        (.released (some w), { s.set m { mutex with
            owner := some w, originalPriority := priority w, hold := mutex.hold + 1,
            suspendThread := ts } with
          currentPriority := priority, waits := Function.update s.waits w none })
      | [] =>
        (.released none, { s.set m { mutex with
            value := mutex.value + 1, owner := none, originalPriority := 0xff } with
          currentPriority := priority })
    else (.released none, s.set m mutex)

/-- `rt_thread_timeout` of a thread that waits for `m`: its `rt_mutex_take` returns
`-RT_ETIMEOUT`. -/
def rtMutexTimeout (s : MutexSys τ μ) (t : τ) (m : μ) : MutexSys τ μ :=
  { s.set m { s.mutex m with suspendThread := (s.mutex m).suspendThread.erase t } with
    waits := Function.update s.waits t none }

/-- One step: a thread that is not suspended makes a call, or a timer runs out. -/
def mutexStep (s : MutexSys τ μ) : MutexAct τ μ → Option (MutexSys τ μ)
  | .take t m time =>
    if s.waits t = none then
      match rtMutexTake s t m time with
      | (.taken, s') => some (s'.setHeld m t (s.held m t + 1))
      | (.timeout, s') | (.suspended, s') => some s'
    else none
  | .release t m =>
    if s.waits t = none then
      match rtMutexRelease s t m with
      | (.error, s') => some s'
      | (.released none, s') => some (s'.setHeld m t (s.held m t - 1))
      | (.released (some w), s') => 
        some ((s'.setHeld m t (s.held m t - 1)).setHeld m w (s.held m w + 1))
    else none
  | .timeout t =>
    match s.waits t with
    | some (m, true) => some (rtMutexTimeout s t m)
    | _ => none

/-- No mutex is taken, and no thread waits. -/
def mutexSysInit (flag : μ → IpcFlag) (priority : τ → Nat) : MutexSys τ μ :=
  { mutex := fun m => rtMutexInit (flag m), currentPriority := priority, waits := fun _ => none,
    held := fun _ _ => 0 }

end Functions

/-! ### Exclusion -/

/-- A mutex belongs to the thread that holds it, and to no other. -/
structure Exclusive (s : MutexSys τ μ) (m : μ) : Prop where
  owner : ∀ t, (s.mutex m).owner = some t ↔ 0 < s.held m t
  hold : ∀ t, (s.mutex m).owner = some t → (s.mutex m).hold.toNat = s.held m t % 256
  free : (s.mutex m).owner = none →
    (s.mutex m).value = 1 ∧ (s.mutex m).hold = 0 ∧ (s.mutex m).suspendThread = []
  taken : ∀ t, (s.mutex m).owner = some t →
    (s.mutex m).value = 0 ∧ t ∉ (s.mutex m).suspendThread
  waits : ∀ t, t ∈ (s.mutex m).suspendThread ↔ ∃ timer, s.waits t = some (m, timer)
  nodup : (s.mutex m).suspendThread.Nodup

/-- The guard: a thread that took the mutex more often than `hold` can count must not come down
to the count of the first take. -/
def HoldCounts (s : MutexSys τ μ) : MutexAct τ μ → Prop
  | .release t m => s.held m t ≤ 1 ∨ s.held m t % 256 ≠ 1
  | .take _ _ _ | .timeout _ => True

/-- The facts about a mutex depend only on the mutex and on who holds it and waits for it. -/
theorem Exclusive.congr {s s' : MutexSys τ μ} {m : μ} (h : Exclusive s m)
    (hmutex : s'.mutex m = s.mutex m) (hheld : s'.held m = s.held m)
    (hwaits : ∀ t timer, s'.waits t = some (m, timer) ↔ s.waits t = some (m, timer)) :
    Exclusive s' m := by
  constructor
  · rw [hmutex, hheld]
    exact h.owner
  · rw [hmutex, hheld]
    exact h.hold
  · rw [hmutex]
    exact h.free
  · rw [hmutex]
    exact h.taken
  · intro t
    rw [hmutex, h.waits]
    exact exists_congr fun timer => (hwaits t timer).symm
  · rw [hmutex]
    exact h.nodup

/-- At most one thread holds a mutex. -/
theorem Exclusive.unique {s : MutexSys τ μ} {m : μ} (h : Exclusive s m) {t t' : τ}
    (ht : 0 < s.held m t) (ht' : 0 < s.held m t') : t = t' := by
  have howner := (h.owner t).mpr ht
  rw [(h.owner t').mpr ht'] at howner
  exact (Option.some.inj howner).symm

section Cases
variable [DecidableEq τ] [DecidableEq μ]

/-! ### What a step can do -/

/-- The owner takes the mutex once more. -/
def MutexSys.again (s : MutexSys τ μ) (t : τ) (m : μ) : MutexSys τ μ :=
  (s.set m { s.mutex m with hold := (s.mutex m).hold + 1 }).setHeld m t (s.held m t + 1)

/-- A thread takes a mutex that is free. -/
def MutexSys.acquired (s : MutexSys τ μ) (t : τ) (m : μ) : MutexSys τ μ :=
  (s.set m { s.mutex m with
    value := 0, owner := some t, originalPriority := s.currentPriority t,
    hold := 1 }).setHeld m t 1

/-- A thread waits for the mutex of another one. -/
def MutexSys.suspended (s : MutexSys τ μ) (t : τ) (m : μ) (timer : Bool) : MutexSys τ μ :=
  let priority := lendPriority s.currentPriority (s.mutex m).owner t
  { s.set m { s.mutex m with
      suspendThread := suspendByFlag (s.mutex m).flag priority (s.mutex m).suspendThread t } with
    currentPriority := priority, waits := Function.update s.waits t (some (m, timer)) }

/-- The owner releases the mutex, and holds it still. -/
def MutexSys.left (s : MutexSys τ μ) (t : τ) (m : μ) : MutexSys τ μ :=
  (s.set m { s.mutex m with hold := (s.mutex m).hold - 1 }).setHeld m t (s.held m t - 1)

/-- The owner releases the mutex, and nobody waits. -/
def MutexSys.freed (s : MutexSys τ μ) (t : τ) (m : μ) : MutexSys τ μ :=
  { (s.set m { s.mutex m with
      value := 1, owner := none, originalPriority := 0xff, hold := 0 }).setHeld m t
        (s.held m t - 1) with
    currentPriority := Function.update s.currentPriority t (s.mutex m).originalPriority }

/-- The owner releases the mutex, and `w` gets it. -/
def MutexSys.handed (s : MutexSys τ μ) (t : τ) (m : μ) (w : τ) (ts : List τ) : MutexSys τ μ :=
  { ((s.set m { s.mutex m with
      owner := some w, originalPriority := s.currentPriority w, hold := 1,
      suspendThread := ts }).setHeld m t (s.held m t - 1)).setHeld m w 1 with
    currentPriority := Function.update s.currentPriority t (s.mutex m).originalPriority
    waits := Function.update s.waits w none }

/-- A take. -/
theorem take_cases {s s' : MutexSys τ μ} {t : τ} {m : μ} {time : Int} (h : Exclusive s m)
    (hstep : mutexStep s (.take t m time) = some s') :
    s.waits t = none ∧
      (((s.mutex m).owner = some t ∧ s' = s.again t m)
      ∨ ((s.mutex m).owner = none ∧ s' = s.acquired t m)
      ∨ ∃ o, (s.mutex m).owner = some o ∧ o ≠ t
        ∧ ((time = 0 ∧ s' = s) ∨ (time ≠ 0 ∧ s' = s.suspended t m (decide (0 < time))))) := by
  simp only [mutexStep] at hstep
  split at hstep
  · rename_i hwaits
    refine ⟨hwaits, ?_⟩
    cases howner : (s.mutex m).owner with
    | none =>
        obtain ⟨hvalue, hhold, -⟩ := h.free howner
        have hheld : s.held m t = 0 := by
          have hnot := (not_congr (h.owner t)).mp (by rw [howner]; simp)
          omega
        have htake : rtMutexTake s t m time = (.taken, s.set m { s.mutex m with
            value := 0, owner := some t, originalPriority := s.currentPriority t, hold := 1 }) := by
          rw [rtMutexTake, howner, if_neg (by simp), if_pos (by rw [hvalue]; decide), hvalue, hhold]
          rfl
        rw [htake, hheld] at hstep
        cases hstep
        exact Or.inr (Or.inl ⟨rfl, rfl⟩)
    | some o =>
        obtain ⟨hvalue, -⟩ := h.taken o howner
        by_cases ho : o = t
        · subst ho
          have htake : rtMutexTake s o m time
              = (.taken, s.set m { s.mutex m with hold := (s.mutex m).hold + 1 }) := by
            rw [rtMutexTake, if_pos howner]
          rw [htake] at hstep
          cases hstep
          exact Or.inl ⟨rfl, rfl⟩
        · refine Or.inr (Or.inr ⟨o, rfl, ho, ?_⟩)
          have hother : ¬ (s.mutex m).owner = some t := by
            rw [howner, Option.some.injEq]
            exact ho
          by_cases htime : time = 0
          · rw [rtMutexTake, if_neg hother, if_neg (by rw [hvalue]; decide), if_pos htime] at hstep
            cases hstep
            exact Or.inl ⟨htime, rfl⟩
          · rw [rtMutexTake, if_neg hother, if_neg (by rw [hvalue]; decide), if_neg htime] at hstep
            cases hstep
            exact Or.inr ⟨htime, rfl⟩
  · cases hstep

/-- A release. -/
theorem release_cases {s s' : MutexSys τ μ} {t : τ} {m : μ} (h : Exclusive s m)
    (hstep : mutexStep s (.release t m) = some s') :
    s.waits t = none ∧
      (((s.mutex m).owner ≠ some t ∧ s' = s)
      ∨ ((s.mutex m).owner = some t ∧ (s.mutex m).hold ≠ 1 ∧ s' = s.left t m)
      ∨ ((s.mutex m).owner = some t ∧ (s.mutex m).hold = 1 ∧ (s.mutex m).suspendThread = []
        ∧ s' = s.freed t m)
      ∨ ∃ w ts, (s.mutex m).owner = some t ∧ (s.mutex m).hold = 1
        ∧ (s.mutex m).suspendThread = w :: ts ∧ s' = s.handed t m w ts) := by
  simp only [mutexStep] at hstep
  split at hstep
  · rename_i hwaits
    refine ⟨hwaits, ?_⟩
    by_cases howner : (s.mutex m).owner = some t
    · refine Or.inr ?_
      obtain ⟨hvalue, hnot⟩ := h.taken t howner
      have hrestored : (if (s.mutex m).originalPriority ≠ s.currentPriority t then
          Function.update s.currentPriority t (s.mutex m).originalPriority
          else s.currentPriority)
          = Function.update s.currentPriority t (s.mutex m).originalPriority := by
        split
        · rfl
        · rename_i heq
          rw [not_not.mp heq, Function.update_eq_self]
      by_cases hhold : (s.mutex m).hold = 1
      · refine Or.inr ?_
        have hzero : (s.mutex m).hold - 1 = 0 := by rw [hhold]; decide
        cases hlist : (s.mutex m).suspendThread with
        | nil =>
            have hrelease : rtMutexRelease s t m = (.released none, { s.set m { s.mutex m with
                value := 1, owner := none, originalPriority := 0xff, hold := 0 } with
                currentPriority :=
                  Function.update s.currentPriority t (s.mutex m).originalPriority }) := by
              rw [rtMutexRelease, if_neg (not_not.mpr howner)]
              simp only [hzero, hrestored, hlist, hvalue]
              rfl
            rw [hrelease] at hstep
            cases hstep
            exact Or.inl ⟨howner, hhold, rfl, rfl⟩
        | cons w ts =>
            have hwt : w ≠ t := by
              rintro rfl
              exact hnot (by rw [hlist]; exact List.mem_cons_self)
            have hw : s.held m w = 0 := by
              have hfree := (not_congr (h.owner w)).mp fun hw => hwt <| by
                rw [howner] at hw
                exact (Option.some.inj hw).symm
              omega
            have hrelease : rtMutexRelease s t m = (.released (some w), { s.set m { s.mutex m with
                owner := some w, originalPriority := s.currentPriority w, hold := 1,
                suspendThread := ts } with
                currentPriority :=
                  Function.update s.currentPriority t (s.mutex m).originalPriority
                waits := Function.update s.waits w none }) := by
              rw [rtMutexRelease, if_neg (not_not.mpr howner)]
              simp only [hzero, hrestored, hlist, Function.update_of_ne hwt]
              rfl
            rw [hrelease] at hstep
            simp only [hw] at hstep
            cases hstep
            exact Or.inr ⟨w, ts, howner, hhold, rfl, rfl⟩
      · refine Or.inl ⟨howner, hhold, ?_⟩
        have hnonzero : ¬ (s.mutex m).hold - 1 = 0 := by
          intro hzero
          exact hhold (by grind)
        rw [rtMutexRelease, if_neg (not_not.mpr howner)] at hstep
        simp only [hnonzero, if_false] at hstep
        cases hstep
        rfl
    · rw [rtMutexRelease, if_pos howner] at hstep
      cases hstep
      exact Or.inl ⟨howner, rfl⟩
  · cases hstep

/-- The thread timer. -/
theorem timeout_cases {s s' : MutexSys τ μ} {t : τ} (hstep : mutexStep s (.timeout t) = some s') :
    ∃ m, s.waits t = some (m, true) ∧ s' = rtMutexTimeout s t m := by
  simp only [mutexStep] at hstep
  split at hstep
  · rename_i m hwaits
    cases hstep
    exact ⟨m, hwaits, rfl⟩
  · cases hstep

/-! ### Steps and exclusion -/

@[simp]
theorem setHeld_apply (s : MutexSys τ μ) (m : μ) (t : τ) (n : Nat) (t' : τ) :
    (s.setHeld m t n).held m t' = if t' = t then n else s.held m t' := by
  simp only [MutexSys.setHeld, Function.update_self, Function.update_apply]

omit [DecidableEq μ] in
/-- A step on one mutex leaves the others alone. -/
theorem exclusive_of_ne {s s' : MutexSys τ μ} {m m' : μ} (hne : m' ≠ m) (h : Exclusive s m')
    (hmutex : s'.mutex m' = s.mutex m') (hheld : s'.held m' = s.held m')
    {t : τ} (hwaits : ∀ t', t' ≠ t → s'.waits t' = s.waits t')
    (hold : s.waits t = none ∨ ∃ timer, s.waits t = some (m, timer))
    (hnew : s'.waits t = none ∨ ∃ timer, s'.waits t = some (m, timer)) : Exclusive s' m' := by
  refine h.congr hmutex hheld fun t' timer => ?_
  by_cases ht : t' = t
  · subst ht
    refine iff_of_false ?_ ?_
    · rcases hnew with hnone | ⟨_, hsome⟩
      · rw [hnone]
        simp
      · rw [hsome]
        exact fun heq => hne (Prod.ext_iff.mp (Option.some.inj heq)).1.symm
    · rcases hold with hnone | ⟨_, hsome⟩
      · rw [hnone]
        simp
      · rw [hsome]
        exact fun heq => hne (Prod.ext_iff.mp (Option.some.inj heq)).1.symm
  · rw [hwaits t' ht]

omit [DecidableEq τ] in
/-- The suspend list after a thread was put on it. -/
theorem suspendByFlag_perm (flag : IpcFlag) (priority : τ → Nat) (ts : List τ) (t : τ) :
    (suspendByFlag flag priority ts t).Perm (t :: ts) := by
  cases flag with
  | fifo => exact List.perm_append_singleton t ts
  | prio => exact List.perm_orderedInsert _ t ts

/-- The owner takes the mutex once more. -/
theorem exclusive_again {s : MutexSys τ μ} {t : τ} {m : μ} (h : ∀ m, Exclusive s m)
    (howner : (s.mutex m).owner = some t) (m' : μ) : Exclusive (s.again t m) m' := by
  by_cases hm : m' = m
  · subst hm
    have hmutex : (s.again t m').mutex m'
        = { s.mutex m' with hold := (s.mutex m').hold + 1 } := Function.update_self _ _ _
    have hheld : ∀ t', (s.again t m').held m' t'
        = if t' = t then s.held m' t + 1 else s.held m' t' := setHeld_apply _ _ _ _
    constructor
    · intro t'
      rw [hmutex, hheld]
      show (s.mutex m').owner = some t' ↔ _
      by_cases ht : t' = t
      · subst ht
        rw [if_pos rfl]
        exact iff_of_true howner (Nat.succ_pos _)
      · rw [if_neg ht]
        exact (h m').owner t'
    · intro t' ht'
      rw [hmutex] at ht' ⊢
      obtain rfl : t = t' := Option.some.inj (howner.symm.trans ht')
      rw [hheld, if_pos rfl]
      show ((s.mutex m').hold + 1).toNat = _
      rw [UInt8.toNat_add, (h m').hold t howner]
      show (_ + 1) % 256 = _
      omega
    · intro hnone
      rw [hmutex] at hnone
      exact absurd (howner.symm.trans hnone) (by simp)
    · intro t' ht'
      rw [hmutex] at ht' ⊢
      exact (h m').taken t' ht'
    · intro t'
      rw [hmutex]
      exact (h m').waits t'
    · rw [hmutex]
      exact (h m').nodup
  · exact (h m').congr (Function.update_of_ne hm _ _) (Function.update_of_ne hm _ _)
      fun _ _ => Iff.rfl

/-- A thread takes a mutex that is free. -/
theorem exclusive_acquired {s : MutexSys τ μ} {t : τ} {m : μ} (h : ∀ m, Exclusive s m)
    (howner : (s.mutex m).owner = none) (m' : μ) : Exclusive (s.acquired t m) m' := by
  by_cases hm : m' = m
  · subst hm
    obtain ⟨-, -, hlist⟩ := (h m').free howner
    have hmutex : (s.acquired t m').mutex m' = { s.mutex m' with
        value := 0, owner := some t, originalPriority := s.currentPriority t, hold := 1 } :=
      Function.update_self _ _ _
    have hheld : ∀ t', (s.acquired t m').held m' t' = if t' = t then 1 else s.held m' t' :=
      setHeld_apply _ _ _ _
    constructor
    · intro t'
      rw [hmutex, hheld]
      show some t = some t' ↔ _
      by_cases ht : t' = t
      · subst ht
        rw [if_pos rfl]
        exact iff_of_true rfl Nat.one_pos
      · rw [if_neg ht, ← (h m').owner t', howner]
        exact iff_of_false (fun heq => ht (Option.some.inj heq).symm) (by simp)
    · intro t' ht'
      rw [hmutex] at ht' ⊢
      obtain rfl : t = t' := Option.some.inj ht'
      rw [hheld, if_pos rfl]
      rfl
    · intro hnone
      rw [hmutex] at hnone
      cases hnone
    · intro t' _
      rw [hmutex]
      refine ⟨rfl, ?_⟩
      show t' ∉ (s.mutex m').suspendThread
      rw [hlist]
      exact List.not_mem_nil
    · intro t'
      rw [hmutex]
      exact (h m').waits t'
    · rw [hmutex]
      exact (h m').nodup
  · exact (h m').congr (Function.update_of_ne hm _ _) (Function.update_of_ne hm _ _)
      fun _ _ => Iff.rfl

/-- A thread waits. -/
theorem exclusive_suspended {s : MutexSys τ μ} {t o : τ} {m : μ} {timer : Bool}
    (h : ∀ m, Exclusive s m) (hwaits : s.waits t = none) (howner : (s.mutex m).owner = some o)
    (ho : o ≠ t) (m' : μ) : Exclusive (s.suspended t m timer) m' := by
  have hwaits' : (s.suspended t m timer).waits t = some (m, timer) := Function.update_self _ _ _
  have hothers : ∀ t', t' ≠ t → (s.suspended t m timer).waits t' = s.waits t' := fun t' ht =>
    Function.update_of_ne ht _ _
  by_cases hm : m' = m
  · subst hm
    have hmutex : (s.suspended t m' timer).mutex m' = { s.mutex m' with
        suspendThread := suspendByFlag (s.mutex m').flag
          (lendPriority s.currentPriority (s.mutex m').owner t) (s.mutex m').suspendThread t } :=
      Function.update_self _ _ _
    have hperm := suspendByFlag_perm (s.mutex m').flag
      (lendPriority s.currentPriority (s.mutex m').owner t) (s.mutex m').suspendThread t
    have hnew : t ∉ (s.mutex m').suspendThread := fun hmem => by
      obtain ⟨_, hsome⟩ := ((h m').waits t).mp hmem
      rw [hwaits] at hsome
      cases hsome
    constructor
    · rw [hmutex]
      exact (h m').owner
    · rw [hmutex]
      exact (h m').hold
    · intro hnone
      rw [hmutex] at hnone
      exact absurd (howner.symm.trans hnone) (by simp)
    · intro t' ht'
      rw [hmutex] at ht' ⊢
      obtain ⟨hvalue, hnot⟩ := (h m').taken t' ht'
      refine ⟨hvalue, fun hmem => ?_⟩
      rcases List.mem_cons.mp (hperm.mem_iff.mp hmem) with rfl | hmem
      · exact ho (Option.some.inj (howner.symm.trans ht'))
      · exact hnot hmem
    · intro t'
      rw [hmutex]
      show t' ∈ suspendByFlag _ _ _ _ ↔ _
      rw [hperm.mem_iff, List.mem_cons]
      by_cases ht : t' = t
      · subst ht
        exact iff_of_true (Or.inl rfl) ⟨timer, hwaits'⟩
      · rw [hothers t' ht, ← (h m').waits t', or_iff_right ht]
    · rw [hmutex]
      exact hperm.nodup_iff.mpr (List.nodup_cons.mpr ⟨hnew, (h m').nodup⟩)
  · exact exclusive_of_ne hm (h m') (Function.update_of_ne hm _ _) rfl hothers (Or.inl hwaits)
      (Or.inr ⟨timer, hwaits'⟩)

/-- A timer runs out. -/
theorem exclusive_timeout {s : MutexSys τ μ} {t : τ} {m : μ} {timer : Bool}
    (h : ∀ m, Exclusive s m) (hwaits : s.waits t = some (m, timer)) (m' : μ) :
    Exclusive (rtMutexTimeout s t m) m' := by
  have hwaits' : (rtMutexTimeout s t m).waits t = none := Function.update_self _ _ _
  have hothers : ∀ t', t' ≠ t → (rtMutexTimeout s t m).waits t' = s.waits t' := fun t' ht =>
    Function.update_of_ne ht _ _
  by_cases hm : m' = m
  · subst hm
    have hmutex : (rtMutexTimeout s t m').mutex m' = { s.mutex m' with
        suspendThread := (s.mutex m').suspendThread.erase t } := Function.update_self _ _ _
    constructor
    · rw [hmutex]
      exact (h m').owner
    · rw [hmutex]
      exact (h m').hold
    · intro hnone
      rw [hmutex] at hnone ⊢
      obtain ⟨hvalue, hhold, hlist⟩ := (h m').free hnone
      exact ⟨hvalue, hhold, by simp [hlist]⟩
    · intro t' ht'
      rw [hmutex] at ht' ⊢
      obtain ⟨hvalue, hnot⟩ := (h m').taken t' ht'
      exact ⟨hvalue, fun hmem => hnot (List.mem_of_mem_erase hmem)⟩
    · intro t'
      rw [hmutex]
      show t' ∈ (s.mutex m').suspendThread.erase t ↔ _
      rw [(h m').nodup.mem_erase_iff]
      by_cases ht : t' = t
      · subst ht
        rw [hwaits']
        simp
      · rw [hothers t' ht, ← (h m').waits t', and_iff_right ht]
    · rw [hmutex]
      exact (h m').nodup.erase t
  · exact exclusive_of_ne hm (h m') (Function.update_of_ne hm _ _) rfl hothers
      (Or.inr ⟨timer, hwaits⟩) (Or.inl hwaits')

/-- The owner releases the mutex, and holds it still. -/
theorem exclusive_left {s : MutexSys τ μ} {t : τ} {m : μ} (h : ∀ m, Exclusive s m)
    (howner : (s.mutex m).owner = some t) (hhold : (s.mutex m).hold ≠ 1) (m' : μ) :
    Exclusive (s.left t m) m' := by
  by_cases hm : m' = m
  · subst hm
    have hmutex : (s.left t m').mutex m'
        = { s.mutex m' with hold := (s.mutex m').hold - 1 } := Function.update_self _ _ _
    have hheld : ∀ t', (s.left t m').held m' t'
        = if t' = t then s.held m' t - 1 else s.held m' t' := setHeld_apply _ _ _ _
    have hcount := (h m').hold t howner
    have hpos := ((h m').owner t).mp howner
    have htwo : 1 < s.held m' t := by
      by_contra hle
      have hone : s.held m' t = 1 := by omega
      rw [hone] at hcount
      exact hhold (UInt8.toNat_inj.mp hcount)
    constructor
    · intro t'
      rw [hmutex, hheld]
      show (s.mutex m').owner = some t' ↔ _
      by_cases ht : t' = t
      · subst ht
        rw [if_pos rfl]
        exact iff_of_true howner (by omega)
      · rw [if_neg ht]
        exact (h m').owner t'
    · intro t' ht'
      rw [hmutex] at ht' ⊢
      obtain rfl : t = t' := Option.some.inj (howner.symm.trans ht')
      rw [hheld, if_pos rfl]
      show ((s.mutex m').hold - 1).toNat = _
      rw [UInt8.toNat_sub, hcount]
      show (256 - 1 + _) % 256 = _
      omega
    · intro hnone
      rw [hmutex] at hnone
      exact absurd (howner.symm.trans hnone) (by simp)
    · intro t' ht'
      rw [hmutex] at ht' ⊢
      exact (h m').taken t' ht'
    · intro t'
      rw [hmutex]
      exact (h m').waits t'
    · rw [hmutex]
      exact (h m').nodup
  · exact (h m').congr (Function.update_of_ne hm _ _) (Function.update_of_ne hm _ _)
      fun _ _ => Iff.rfl

/-- The owner releases the mutex, and nobody waits. -/
theorem exclusive_freed {s : MutexSys τ μ} {t : τ} {m : μ} (h : ∀ m, Exclusive s m)
    (howner : (s.mutex m).owner = some t) (hlist : (s.mutex m).suspendThread = []) :
    (∀ m', Exclusive (s.freed t m) m') ↔ s.held m t = 1 := by
  have hpos := ((h m).owner t).mp howner
  have hheld : ∀ t', (s.freed t m).held m t'
      = if t' = t then s.held m t - 1 else s.held m t' := setHeld_apply _ _ _ _
  have hmutex : (s.freed t m).mutex m = { s.mutex m with
      value := 1, owner := none, originalPriority := 0xff, hold := 0 } :=
    Function.update_self _ _ _
  constructor
  · intro h'
    have hnot := (not_congr ((h' m).owner t)).mp (by rw [hmutex]; simp)
    rw [hheld, if_pos rfl] at hnot
    omega
  · intro hone m'
    by_cases hm : m' = m
    · subst hm
      constructor
      · intro t'
        rw [hmutex, hheld]
        refine iff_of_false (by simp) ?_
        by_cases ht : t' = t
        · rw [if_pos ht]
          omega
        · rw [if_neg ht, ← (h m').owner t', howner]
          exact fun heq => ht (Option.some.inj heq).symm
      · intro t' ht'
        rw [hmutex] at ht'
        cases ht'
      · rw [hmutex]
        exact fun _ => ⟨rfl, rfl, hlist⟩
      · intro t' ht'
        rw [hmutex] at ht'
        cases ht'
      · intro t'
        rw [hmutex]
        exact (h m').waits t'
      · rw [hmutex]
        exact (h m').nodup
    · exact (h m').congr (Function.update_of_ne hm _ _) (Function.update_of_ne hm _ _)
        fun _ _ => Iff.rfl

/-- The owner releases the mutex, and the first thread of the list gets it. -/
theorem exclusive_handed {s : MutexSys τ μ} {t w : τ} {m : μ} {ts : List τ}
    (h : ∀ m, Exclusive s m) (howner : (s.mutex m).owner = some t)
    (hlist : (s.mutex m).suspendThread = w :: ts) :
    (∀ m', Exclusive (s.handed t m w ts) m') ↔ s.held m t = 1 := by
  have hpos := ((h m).owner t).mp howner
  obtain ⟨hvalue, hnot⟩ := (h m).taken t howner
  have hnodup := (h m).nodup
  rw [hlist] at hnot hnodup
  have hwt : w ≠ t := fun heq => hnot (heq ▸ List.mem_cons_self)
  have hheld : ∀ t', (s.handed t m w ts).held m t' = if t' = w then 1 else
      if t' = t then s.held m t - 1 else s.held m t' := fun t' =>
    (setHeld_apply _ _ _ _ _).trans (congrArg _ (setHeld_apply _ _ _ _ _))
  have hmutex : (s.handed t m w ts).mutex m = { s.mutex m with
      owner := some w, originalPriority := s.currentPriority w, hold := 1,
      suspendThread := ts } := Function.update_self _ _ _
  constructor
  · intro h'
    have hother := (not_congr ((h' m).owner t)).mp (by rw [hmutex]; simpa using hwt)
    rw [hheld, if_neg hwt.symm, if_pos rfl] at hother
    omega
  · intro hone m'
    obtain ⟨timer, hwaits⟩ := ((h m).waits w).mp (hlist ▸ List.mem_cons_self)
    have hwaits' : (s.handed t m w ts).waits w = none := Function.update_self _ _ _
    have hothers : ∀ t', t' ≠ w → (s.handed t m w ts).waits t' = s.waits t' := fun t' ht =>
      Function.update_of_ne ht _ _
    by_cases hm : m' = m
    · subst hm
      constructor
      · intro t'
        rw [hmutex, hheld]
        show some w = some t' ↔ _
        by_cases hw : t' = w
        · subst hw
          rw [if_pos rfl]
          exact iff_of_true rfl Nat.one_pos
        · rw [if_neg hw]
          refine iff_of_false (fun heq => hw (Option.some.inj heq).symm) ?_
          by_cases ht : t' = t
          · rw [if_pos ht]
            omega
          · rw [if_neg ht, ← (h m').owner t', howner]
            exact fun heq => ht (Option.some.inj heq).symm
      · intro t' ht'
        rw [hmutex] at ht' ⊢
        obtain rfl : w = t' := Option.some.inj ht'
        rw [hheld, if_pos rfl]
        rfl
      · intro hnone
        rw [hmutex] at hnone
        cases hnone
      · intro t' ht'
        rw [hmutex] at ht' ⊢
        obtain rfl : w = t' := Option.some.inj ht'
        exact ⟨hvalue, (List.nodup_cons.mp hnodup).1⟩
      · intro t'
        rw [hmutex]
        show t' ∈ ts ↔ _
        by_cases hw : t' = w
        · subst hw
          rw [hwaits']
          exact iff_of_false (List.nodup_cons.mp hnodup).1 (by simp)
        · rw [hothers t' hw, ← (h m').waits t', hlist, List.mem_cons, or_iff_right hw]
      · rw [hmutex]
        exact (List.nodup_cons.mp hnodup).2
    · refine exclusive_of_ne hm (h m') (Function.update_of_ne hm _ _) ?_ hothers
        (Or.inr ⟨timer, hwaits⟩) (Or.inl hwaits')
      exact (Function.update_of_ne hm _ _).trans (Function.update_of_ne hm _ _)

/-- A step keeps the exclusion exactly when it meets the guard. -/
theorem exclusive_mutexStep (s : MutexSys τ μ) (a : MutexAct τ μ) (s' : MutexSys τ μ)
    (h : ∀ m, Exclusive s m) (hstep : mutexStep s a = some s') :
    (∀ m, Exclusive s' m) ↔ HoldCounts s a := by
  cases a with
  | take t m time =>
      refine iff_of_true ?_ trivial
      obtain ⟨hwaits, ⟨howner, rfl⟩ | ⟨howner, rfl⟩ | ⟨o, howner, ho, ⟨-, rfl⟩ | ⟨-, rfl⟩⟩⟩ :=
        take_cases (h m) hstep
      · exact exclusive_again h howner
      · exact exclusive_acquired h howner
      · exact h
      · exact exclusive_suspended h hwaits howner ho
  | release t m =>
      show _ ↔ s.held m t ≤ 1 ∨ s.held m t % 256 ≠ 1
      obtain ⟨hwaits, ⟨howner, rfl⟩ | ⟨howner, hhold, rfl⟩ | ⟨howner, hhold, hlist, rfl⟩
        | ⟨w, ts, howner, hhold, hlist, rfl⟩⟩ := release_cases (h m) hstep
      · refine iff_of_true h (Or.inl ?_)
        have hnot := (not_congr ((h m).owner t)).mp howner
        omega
      · refine iff_of_true (exclusive_left h howner hhold) (Or.inr fun hone => hhold ?_)
        exact UInt8.toNat_inj.mp (((h m).hold t howner).trans hone)
      · have hcount := (h m).hold t howner
        rw [hhold] at hcount
        have hpos := ((h m).owner t).mp howner
        rw [exclusive_freed h howner hlist]
        have hcount : 1 = s.held m t % 256 := hcount
        omega
      · have hcount := (h m).hold t howner
        rw [hhold] at hcount
        have hpos := ((h m).owner t).mp howner
        rw [exclusive_handed h howner hlist]
        have hcount : 1 = s.held m t % 256 := hcount
        omega
  | timeout t =>
      obtain ⟨m, hwaits, rfl⟩ := timeout_cases hstep
      exact iff_of_true (exclusive_timeout h hwaits) trivial

omit [DecidableEq τ] [DecidableEq μ] in
/-- Free mutexes are exclusive. -/
theorem exclusive_mutexSysInit (flag : μ → IpcFlag) (priority : τ → Nat) (m : μ) :
    Exclusive (mutexSysInit flag priority) m where
  owner t := by simp [mutexSysInit, rtMutexInit]
  hold t ht := by cases ht
  free _ := ⟨rfl, rfl, rfl⟩
  taken t ht := by cases ht
  waits t := by simp [mutexSysInit, rtMutexInit]
  nodup := List.nodup_nil

/-- **Mutual exclusion.** Under every schedule of takes, releases and timeouts, by any number of
threads on any number of mutexes, a mutex belongs in every state of the run to the thread that
holds it, exactly when no thread releases a mutex that it has taken a multiple of 256 times too
often. No two threads then ever hold a mutex at the same time. -/
theorem mutex_exclusive (flag : μ → IpcFlag) (priority : τ → Nat) (as : List (MutexAct τ μ)) :
    (Always mutexStep (fun s => ∀ m, Exclusive s m) (mutexSysInit flag priority) as
      ↔ Guarded mutexStep HoldCounts (mutexSysInit flag priority) as)
    ∧ (Guarded mutexStep HoldCounts (mutexSysInit flag priority) as →
      Always mutexStep (fun s => ∀ m t t', 0 < s.held m t → 0 < s.held m t' → t = t')
        (mutexSysInit flag priority) as) := by
  have hexact : Always mutexStep (fun s => ∀ m, Exclusive s m) (mutexSysInit flag priority) as
      ↔ Guarded mutexStep HoldCounts (mutexSysInit flag priority) as :=
    always_iff_guarded exclusive_mutexStep (exclusive_mutexSysInit flag priority)
  refine ⟨hexact, fun hguard => (hexact.mpr hguard).mono fun s h m t t' ht ht' => ?_⟩
  exact (h m).unique ht ht'

end Cases

end CarLocator.Kernel
