import CarLocator.Kernel.Mutex

/-!
# `CarLocator.Kernel.MutexPriority`: the priorities of those who hold mutexes

A thread that has to wait for a mutex lends its priority to the owner if it is the more urgent
one, and the owner gets its own back when it releases the mutex. A lower number is a higher
priority. What this is for is that no owner is less urgent than a thread that waits for it
(`Lent`).

`mutex_inheritance` says which steps keep that. Three kinds of steps do not: a thread is not
looked at whose owner waits itself, a release takes back what was lent for another mutex, and
with `RT_IPC_FLAG_FIFO` a mutex goes to a thread that is less urgent than the next one.
`mutex_disciplined` is the use that avoids all three: `RT_IPC_FLAG_PRIO`, and no second mutex
while a thread holds one. Then a thread without a mutex has the priority it started with.
-/

set_option autoImplicit false

namespace CarLocator.Kernel

open CarLocator.Library

variable {τ μ : Type} [DecidableEq τ] [DecidableEq μ]

/-- No owner is less urgent than a thread that waits for it. -/
def Lent (s : MutexSys τ μ) : Prop :=
  ∀ m o w, (s.mutex m).owner = some o → w ∈ (s.mutex m).suspendThread →
    s.currentPriority o ≤ s.currentPriority w

/-- The guard. A thread that starts to wait must not raise an owner that waits itself for a less
urgent one. A thread that gives a mutex away must not fall behind those that wait for another one
of its mutexes, and the first thread of the list must be the most urgent one. -/
def LendsOn (s : MutexSys τ μ) : MutexAct τ μ → Prop
  | .take t m time => time ≠ 0 → ∀ o, (s.mutex m).owner = some o → o ≠ t →
      ∀ m' timer o', s.waits o = some (m', timer) → (s.mutex m').owner = some o' →
        s.currentPriority o' ≤ s.currentPriority t
  | .release t m => (s.mutex m).owner = some t → (s.mutex m).hold = 1 →
      (∀ m', m' ≠ m → (s.mutex m').owner = some t → ∀ w ∈ (s.mutex m').suspendThread,
        (s.mutex m).originalPriority ≤ s.currentPriority w)
      ∧ ∀ w ts, (s.mutex m).suspendThread = w :: ts → ∀ w' ∈ ts,
        s.currentPriority w ≤ s.currentPriority w'
  | .timeout _ => True

omit [DecidableEq τ] [DecidableEq μ] in
/-- Fewer threads wait, for the owners there were. -/
theorem lent_mono {s s' : MutexSys τ μ} {m : μ} (hlent : Lent s)
    (hothers : ∀ m', m' ≠ m → s'.mutex m' = s.mutex m')
    (hself : ∀ o w, (s'.mutex m).owner = some o → w ∈ (s'.mutex m).suspendThread →
      (s.mutex m).owner = some o ∧ w ∈ (s.mutex m).suspendThread)
    (hpriority : s'.currentPriority = s.currentPriority) : Lent s' := by
  intro m' o w ho hw
  rw [hpriority]
  by_cases hm : m' = m
  · subst hm
    obtain ⟨ho, hw⟩ := hself o w ho hw
    exact hlent m' o w ho hw
  · rw [hothers m' hm] at ho hw
    exact hlent m' o w ho hw

omit [DecidableEq τ] [DecidableEq μ] in
/-- A thread that runs is on no list. -/
theorem notMem_of_waits {s : MutexSys τ μ} {t : τ} (h : ∀ m, Exclusive s m)
    (hwaits : s.waits t = none) (m : μ) : t ∉ (s.mutex m).suspendThread := by
  intro hmem
  obtain ⟨_, hsome⟩ := ((h m).waits t).mp hmem
  rw [hwaits] at hsome
  cases hsome

omit [DecidableEq μ] in
/-- Lending makes nobody less urgent, and the owner as urgent as the thread that waits. -/
theorem lendPriority_le (priority : τ → Nat) (o t x : τ) :
    lendPriority priority (some o) t x ≤ priority x
      ∧ lendPriority priority (some o) t o ≤ priority t
      ∧ (x ≠ o → lendPriority priority (some o) t x = priority x) := by
  unfold lendPriority
  simp only
  split
  · rename_i hlt
    refine ⟨?_, by rw [Function.update_self], fun hx => Function.update_of_ne hx _ _⟩
    by_cases hx : x = o
    · subst hx
      rw [Function.update_self]
      exact Nat.le_of_lt hlt
    · rw [Function.update_of_ne hx]
  · rename_i hle
    exact ⟨Nat.le_refl _, Nat.not_lt.mp hle, fun _ => rfl⟩

/-- A thread waits. -/
theorem lent_suspended {s : MutexSys τ μ} {t o : τ} {m : μ} {timer : Bool}
    (h : ∀ m, Exclusive s m) (hlent : Lent s) (howner : (s.mutex m).owner = some o) (ho : o ≠ t) :
    Lent (s.suspended t m timer) ↔ ∀ m' timer' o', s.waits o = some (m', timer') →
      (s.mutex m').owner = some o' → s.currentPriority o' ≤ s.currentPriority t := by
  have hpriority : (s.suspended t m timer).currentPriority
      = lendPriority s.currentPriority (some o) t := by
    rw [← howner]
    rfl
  have hmutex : (s.suspended t m timer).mutex m = { s.mutex m with
      suspendThread := suspendByFlag (s.mutex m).flag
        (lendPriority s.currentPriority (s.mutex m).owner t) (s.mutex m).suspendThread t } :=
    Function.update_self _ _ _
  have hothers : ∀ m', m' ≠ m → (s.suspended t m timer).mutex m' = s.mutex m' := fun m' hm =>
    Function.update_of_ne hm _ _
  have howners : ∀ m', ((s.suspended t m timer).mutex m').owner = (s.mutex m').owner := by
    intro m'
    by_cases hm : m' = m
    · rw [hm, hmutex]
    · rw [hothers m' hm]
  have hlists : ∀ m' w, w ∈ ((s.suspended t m timer).mutex m').suspendThread
      ↔ w ∈ (s.mutex m').suspendThread ∨ (m' = m ∧ w = t) := by
    intro m' w
    by_cases hm : m' = m
    · rw [hm, hmutex]
      show w ∈ suspendByFlag _ _ _ _ ↔ _
      rw [(suspendByFlag_perm _ _ _ _).mem_iff, List.mem_cons, or_comm]
      simp
    · rw [hothers m' hm]
      simp [hm]
  have hnever : ∀ m' x, (s.mutex m').owner = some x → x ∉ (s.mutex m').suspendThread :=
    fun m' x hx => ((h m').taken x hx).2
  unfold Lent
  simp only [hpriority, howners, hlists]
  constructor
  · intro hall m' timer' o' hwaits ho'
    have hmem := ((h m').waits o).mpr ⟨timer', hwaits⟩
    have hne : o' ≠ o := by
      rintro rfl
      exact hnever m' o' ho' hmem
    have hle := hall m' o' o ho' (Or.inl hmem)
    rw [(lendPriority_le s.currentPriority o t o').2.2 hne] at hle
    exact hle.trans (lendPriority_le s.currentPriority o t o).2.1
  · rintro hguard m' x w hx (hmem | ⟨rfl, rfl⟩)
    · by_cases hw : w = o
      · -- the owner is raised while it waits for `x`
        subst hw
        obtain ⟨timer', hwaits⟩ := ((h m').waits w).mp hmem
        have hne : x ≠ w := by
          rintro rfl
          exact hnever m' x hx hmem
        rw [(lendPriority_le s.currentPriority w t x).2.2 hne]
        have hto := hguard m' timer' x hwaits hx
        have hold := hlent m' x w hx hmem
        unfold lendPriority
        simp only
        split
        · rw [Function.update_self]
          exact hto
        · exact hold
      · rw [(lendPriority_le s.currentPriority o t w).2.2 hw]
        exact (lendPriority_le s.currentPriority o t x).1.trans (hlent m' x w hx hmem)
    · obtain rfl : o = x := Option.some.inj (howner.symm.trans hx)
      rw [(lendPriority_le s.currentPriority o w w).2.2 ho.symm]
      exact (lendPriority_le s.currentPriority o w o).2.1

/-- The owner gives the mutex away: its own priority comes back. -/
theorem lent_released {s s' : MutexSys τ μ} {t : τ} {m : μ} (h : ∀ m, Exclusive s m)
    (hlent : Lent s) (hwaits : s.waits t = none)
    (hothers : ∀ m', m' ≠ m → s'.mutex m' = s.mutex m')
    (hnew : ∀ w, w ∈ (s'.mutex m).suspendThread → w ∈ (s.mutex m).suspendThread)
    (howner : (s'.mutex m).owner ≠ some t)
    (hpriority : s'.currentPriority
      = Function.update s.currentPriority t (s.mutex m).originalPriority) :
    Lent s' ↔ (∀ m', m' ≠ m → (s.mutex m').owner = some t → ∀ w ∈ (s.mutex m').suspendThread,
        (s.mutex m).originalPriority ≤ s.currentPriority w)
      ∧ ∀ o, (s'.mutex m).owner = some o → ∀ w ∈ (s'.mutex m).suspendThread,
        s.currentPriority o ≤ s.currentPriority w := by
  have hkept : ∀ m' w, w ∈ (s.mutex m').suspendThread →
      s'.currentPriority w = s.currentPriority w := fun m' w hw => by
    have hne : w ≠ t := by
      rintro rfl
      exact notMem_of_waits h hwaits m' hw
    rw [hpriority, Function.update_of_ne hne]
  have hself : s'.currentPriority t = (s.mutex m).originalPriority := by
    rw [hpriority, Function.update_self]
  have hother : ∀ o, o ≠ t → s'.currentPriority o = s.currentPriority o := fun o ho => by
    rw [hpriority, Function.update_of_ne ho]
  constructor
  · intro hlent'
    refine ⟨fun m' hm ht w hw => ?_, fun o ho w hw => ?_⟩
    · have hle := hlent' m' t w (by rw [hothers m' hm]; exact ht) (by rw [hothers m' hm]; exact hw)
      rwa [hself, hkept m' w hw] at hle
    · have hle := hlent' m o w ho hw
      have hne : o ≠ t := by
        rintro rfl
        exact howner ho
      rwa [hother o hne, hkept m w (hnew w hw)] at hle
  · rintro ⟨hfirst, hsecond⟩ m' o w ho hw
    by_cases hm : m' = m
    · subst hm
      have hne : o ≠ t := by
        rintro rfl
        exact howner ho
      rw [hother o hne, hkept m' w (hnew w hw)]
      exact hsecond o ho w hw
    · rw [hothers m' hm] at ho hw
      rw [hkept m' w hw]
      by_cases hot : o = t
      · subst hot
        rw [hself]
        exact hfirst m' hm ho w hw
      · rw [hother o hot]
        exact hlent m' o w ho hw

/-- A step keeps the order of the priorities exactly when it meets the guard. -/
theorem lent_mutexStep (s : MutexSys τ μ) (a : MutexAct τ μ) (s' : MutexSys τ μ)
    (h : ∀ m, Exclusive s m) (hlent : Lent s) (hstep : mutexStep s a = some s') :
    Lent s' ↔ LendsOn s a := by
  cases a with
  | take t m time =>
      obtain ⟨hwaits, ⟨howner, rfl⟩ | ⟨howner, rfl⟩
        | ⟨o, howner, ho, ⟨htime, rfl⟩ | ⟨htime, rfl⟩⟩⟩ := take_cases (h m) hstep
      · refine iff_of_true ?_ fun _ o ho hne => ?_
        · refine lent_mono hlent (fun m' hm => Function.update_of_ne hm _ _) ?_ rfl
          intro o w ho hw
          have hmutex : (s.again t m).mutex m = { s.mutex m with hold := (s.mutex m).hold + 1 } :=
            Function.update_self _ _ _
          rw [hmutex] at ho hw
          exact ⟨ho, hw⟩
        · exact absurd (Option.some.inj (ho.symm.trans howner)) hne
      · refine iff_of_true ?_ fun _ o ho => ?_
        · refine lent_mono hlent (fun m' hm => Function.update_of_ne hm _ _) ?_ rfl
          intro o w _ hw
          have hmutex : (s.acquired t m).mutex m = { s.mutex m with
              value := 0, owner := some t, originalPriority := s.currentPriority t, hold := 1 } :=
            Function.update_self _ _ _
          rw [hmutex] at hw
          have hw : w ∈ (s.mutex m).suspendThread := hw
          rw [((h m).free howner).2.2] at hw
          cases hw
        · exact absurd (ho.symm.trans howner) (by simp)
      · exact iff_of_true hlent fun hne => absurd htime hne
      · rw [lent_suspended h hlent howner ho]
        constructor
        · intro hguard _ o' ho' _
          obtain rfl : o = o' := Option.some.inj (howner.symm.trans ho')
          exact hguard
        · exact fun hguard => hguard htime o howner ho
  | release t m =>
      obtain ⟨hwaits, ⟨howner, rfl⟩ | ⟨howner, hhold, rfl⟩ | ⟨howner, hhold, hlist, rfl⟩
        | ⟨w, ts, howner, hhold, hlist, rfl⟩⟩ := release_cases (h m) hstep
      · exact iff_of_true hlent fun hown => absurd hown howner
      · refine iff_of_true ?_ fun _ hone => absurd hone hhold
        refine lent_mono hlent (fun m' hm => Function.update_of_ne hm _ _) ?_ rfl
        intro o w ho hw
        have hmutex : (s.left t m).mutex m = { s.mutex m with hold := (s.mutex m).hold - 1 } :=
          Function.update_self _ _ _
        rw [hmutex] at ho hw
        exact ⟨ho, hw⟩
      · have hmutex : (s.freed t m).mutex m = { s.mutex m with
            value := 1, owner := none, originalPriority := 0xff, hold := 0 } :=
          Function.update_self _ _ _
        rw [lent_released h hlent hwaits (fun m' hm => Function.update_of_ne hm _ _)
          (by rw [hmutex]; exact fun _ hw => hw) (by rw [hmutex]; simp) rfl, hmutex]
        constructor
        · rintro ⟨hfirst, -⟩ _ _
          refine ⟨hfirst, fun w ts hcons => ?_⟩
          rw [hlist] at hcons
          cases hcons
        · intro hguard
          exact ⟨(hguard howner hhold).1, fun o ho => by cases ho⟩
      · have hmutex : (s.handed t m w ts).mutex m = { s.mutex m with
            owner := some w, originalPriority := s.currentPriority w, hold := 1,
            suspendThread := ts } := Function.update_self _ _ _
        have hwt : w ≠ t := by
          rintro rfl
          exact notMem_of_waits h hwaits m (hlist ▸ List.mem_cons_self)
        rw [lent_released h hlent hwaits (fun m' hm => Function.update_of_ne hm _ _)
          (by rw [hmutex, hlist]; exact fun _ hw => List.mem_cons_of_mem _ hw)
          (by rw [hmutex]; simpa using hwt) rfl, hmutex]
        constructor
        · rintro ⟨hfirst, hsecond⟩ _ _
          refine ⟨hfirst, fun w' ts' hcons => ?_⟩
          rw [hlist] at hcons
          cases hcons
          exact hsecond w rfl
        · intro hguard
          obtain ⟨hfirst, hsecond⟩ := hguard howner hhold
          refine ⟨hfirst, fun o ho => ?_⟩
          cases ho
          exact hsecond w ts hlist
  | timeout t =>
      obtain ⟨m, hwaits, rfl⟩ := timeout_cases hstep
      refine iff_of_true ?_ trivial
      refine lent_mono hlent (fun m' hm => Function.update_of_ne hm _ _) ?_ rfl
      intro o w ho hw
      have hmutex : (rtMutexTimeout s t m).mutex m = { s.mutex m with
          suspendThread := (s.mutex m).suspendThread.erase t } := Function.update_self _ _ _
      rw [hmutex] at ho hw
      exact ⟨ho, List.mem_of_mem_erase hw⟩

/-- **Priority inheritance.** Under every schedule, mutexes are exclusive and no owner is less
urgent than a thread that waits for it, in every state of the run, exactly when the holds are
counted and every step lends on. -/
theorem mutex_inheritance (flag : μ → IpcFlag) (priority : τ → Nat) (as : List (MutexAct τ μ)) :
    Always mutexStep (fun s => (∀ m, Exclusive s m) ∧ Lent s) (mutexSysInit flag priority) as
      ↔ Guarded mutexStep (fun s a => HoldCounts s a ∧ LendsOn s a)
        (mutexSysInit flag priority) as := by
  refine always_iff_guarded (fun s a s' h hstep => ?_) ⟨exclusive_mutexSysInit flag priority, ?_⟩
  · exact and_congr (exclusive_mutexStep s a s' h.1 hstep) (lent_mutexStep s a s' h.1 h.2 hstep)
  · intro m o w ho
    cases ho

-- With `RT_IPC_FLAG_FIFO`, as the lock of the AT client has it, thread 0 waits for thread 1.
example : (run mutexStep (mutexSysInit (fun _ : Fin 1 => .fifo) fun t : Fin 3 => 10 + t.val)
    [.take 2 0 0, .take 1 0 rtWaitingForever, .take 0 0 rtWaitingForever, .release 2 0]).any
      (fun s => decide ((s.mutex 0).owner = some 1 ∧ 0 ∈ (s.mutex 0).suspendThread
        ∧ s.currentPriority 0 < s.currentPriority 1)) = true := by decide

/-! ### A discipline -/

/-- A thread takes a mutex only if it holds no other one, and not more often than `hold` can
count. -/
def Disciplined (s : MutexSys τ μ) : MutexAct τ μ → Prop
  | .take t m _ => (∀ m', m' ≠ m → s.held m' t = 0) ∧ s.held m t < 256
  | .release _ _ | .timeout _ => True

/-- What the discipline keeps, for threads that started with the given priorities. -/
structure Orderly (priority : τ → Nat) (s : MutexSys τ μ) : Prop where
  exclusive : ∀ m, Exclusive s m
  lent : Lent s
  flag : ∀ m, (s.mutex m).flag = .prio
  single : ∀ t m m', 0 < s.held m t → 0 < s.held m' t → m = m'
  idle : ∀ t m timer, s.waits t = some (m, timer) → ∀ m', s.held m' t = 0
  sorted : ∀ m, (s.mutex m).suspendThread.Pairwise fun a b =>
    s.currentPriority a ≤ s.currentPriority b
  counted : ∀ m t, s.held m t ≤ 256
  own : ∀ t, (∀ m, s.held m t = 0) → s.currentPriority t = priority t
  original : ∀ m t, (s.mutex m).owner = some t → (s.mutex m).originalPriority = priority t

omit [DecidableEq τ] [DecidableEq μ] in
/-- A disciplined thread meets both guards. -/
theorem Orderly.guards {priority : τ → Nat} {s : MutexSys τ μ} (h : Orderly priority s)
    (a : MutexAct τ μ) : HoldCounts s a ∧ LendsOn s a := by
  cases a with
  | take t m time =>
      refine ⟨trivial, fun _ o ho _ m' timer o' hwaits _ => ?_⟩
      -- the owner holds a mutex, so it does not wait
      have hpos := ((h.exclusive m).owner o).mp ho
      have hzero := h.idle o m' timer hwaits m
      omega
  | release t m =>
      refine ⟨?_, fun howner _ => ⟨fun m' hm ht => ?_, fun w ts hlist => ?_⟩⟩
      · have hle := h.counted m t
        show s.held m t ≤ 1 ∨ s.held m t % 256 ≠ 1
        omega
      · have hpos := ((h.exclusive m).owner t).mp howner
        exact absurd (h.single t m' m (((h.exclusive m').owner t).mp ht) hpos) hm
      · have hsorted := h.sorted m
        rw [hlist] at hsorted
        exact (List.pairwise_cons.mp hsorted).1
  | timeout t => exact ⟨trivial, trivial⟩

omit [DecidableEq τ] in
/-- The place of a thread among those of its priority keeps the list sorted. -/
theorem pairwise_orderedInsert {priority : τ → Nat} {ts : List τ}
    (h : ts.Pairwise fun a b => priority a ≤ priority b) (t : τ) :
    (ts.orderedInsert (fun a b => priority a < priority b) t).Pairwise fun a b =>
      priority a ≤ priority b := by
  induction ts with
  | nil => exact List.pairwise_singleton _ _
  | cons s ts ih =>
      obtain ⟨hs, hts⟩ := List.pairwise_cons.mp h
      rw [List.orderedInsert_cons]
      split
      · rename_i hlt
        refine List.pairwise_cons.mpr ⟨fun b hb => ?_, h⟩
        rcases List.mem_cons.mp hb with rfl | hb
        · exact Nat.le_of_lt hlt
        · exact (Nat.le_of_lt hlt).trans (hs b hb)
      · rename_i hle
        refine List.pairwise_cons.mpr ⟨fun b hb => ?_, ih hts⟩
        rcases List.mem_cons.mp ((List.perm_orderedInsert _ t ts).mem_iff.mp hb) with rfl | hb
        · exact Nat.not_lt.mp hle
        · exact hs b hb

/-- Who holds what after a change. -/
theorem held_setHeld (s : MutexSys τ μ) (m : μ) (t : τ) (n : Nat) (m' : μ) (t' : τ) :
    (s.setHeld m t n).held m' t' = if m' = m ∧ t' = t then n else s.held m' t' := by
  by_cases hm : m' = m
  · subst hm
    rw [setHeld_apply]
    simp
  · rw [if_neg fun h => hm h.1]
    exact congrFun (Function.update_of_ne hm _ _) t'

omit [DecidableEq τ] [DecidableEq μ] in
/-- The owner takes the mutex once more, or gives it back and holds it still. -/
theorem Orderly.recount {priority : τ → Nat} {s s' : MutexSys τ μ} (h : Orderly priority s)
    (hexclusive : ∀ m, Exclusive s' m) (hlent : Lent s')
    (hmutex : ∀ m, ∃ hold, s'.mutex m = { s.mutex m with hold })
    (hzero : ∀ m t, s'.held m t = 0 ↔ s.held m t = 0) (hcounted : ∀ m t, s'.held m t ≤ 256)
    (hwaits : s'.waits = s.waits) (hpriority : s'.currentPriority = s.currentPriority) :
    Orderly priority s' := by
  have hpos : ∀ m t, 0 < s'.held m t ↔ 0 < s.held m t := fun m t => by
    rw [Nat.pos_iff_ne_zero, Nat.pos_iff_ne_zero]
    exact not_congr (hzero m t)
  refine ⟨hexclusive, hlent, fun m => ?_, fun t m m' h' h'' => ?_, fun t m timer hw m' => ?_,
    fun m => ?_, hcounted, fun t ht => ?_, fun m t ho => ?_⟩
  · obtain ⟨hold, he⟩ := hmutex m
    rw [he]
    exact h.flag m
  · exact h.single t m m' ((hpos m t).mp h') ((hpos m' t).mp h'')
  · rw [hwaits] at hw
    exact (hzero m' t).mpr (h.idle t m timer hw m')
  · obtain ⟨hold, he⟩ := hmutex m
    rw [he, hpriority]
    exact h.sorted m
  · rw [hpriority]
    exact h.own t fun m => (hzero m t).mp (ht m)
  · obtain ⟨hold, he⟩ := hmutex m
    rw [he] at ho ⊢
    exact h.original m t ho

/-- A thread that holds nothing takes a mutex that is free. -/
theorem orderly_acquired {priority : τ → Nat} {s : MutexSys τ μ} {t : τ} {m : μ}
    (h : Orderly priority s) (hwaits : s.waits t = none) (hnothing : ∀ m', s.held m' t = 0)
    (hexclusive : ∀ m', Exclusive (s.acquired t m) m') (hlent : Lent (s.acquired t m)) :
    Orderly priority (s.acquired t m) := by
  have hheld : ∀ m' t', (s.acquired t m).held m' t'
      = if m' = m ∧ t' = t then 1 else s.held m' t' := held_setHeld _ _ _ _
  have hmutex : (s.acquired t m).mutex m = { s.mutex m with
      value := 0, owner := some t, originalPriority := s.currentPriority t, hold := 1 } :=
    Function.update_self _ _ _
  have hothers : ∀ m', m' ≠ m → (s.acquired t m).mutex m' = s.mutex m' := fun m' hm =>
    Function.update_of_ne hm _ _
  refine ⟨hexclusive, hlent, fun m' => ?_, fun t' m' m'' h' h'' => ?_, fun t' m' timer hw m'' => ?_,
    fun m' => ?_, fun m' t' => ?_, fun t' ht' => ?_, fun m' t' ho => ?_⟩
  · by_cases hm : m' = m
    · rw [hm, hmutex]
      exact h.flag m
    · rw [hothers m' hm]
      exact h.flag m'
  · rw [hheld] at h' h''
    by_cases ht : t' = t
    · subst ht
      have hm' : m' = m := by
        by_contra hm'
        rw [if_neg fun heq => hm' heq.1, hnothing] at h'
        cases h'
      have hm'' : m'' = m := by
        by_contra hm''
        rw [if_neg fun heq => hm'' heq.1, hnothing] at h''
        cases h''
      rw [hm', hm'']
    · rw [if_neg fun heq => ht heq.2] at h' h''
      exact h.single t' m' m'' h' h''
  · have hne : t' ≠ t := by
      rintro rfl
      exact absurd (hwaits.symm.trans hw) (by simp)
    rw [hheld, if_neg fun heq => hne heq.2]
    exact h.idle t' m' timer hw m''
  · by_cases hm : m' = m
    · rw [hm, hmutex]
      exact h.sorted m
    · rw [hothers m' hm]
      exact h.sorted m'
  · rw [hheld]
    split
    · decide
    · exact h.counted m' t'
  · refine h.own t' fun m' => ?_
    have hz := ht' m'
    rw [hheld] at hz
    split at hz
    · cases hz
    · exact hz
  · by_cases hm : m' = m
    · rw [hm, hmutex] at ho ⊢
      obtain rfl : t = t' := Option.some.inj ho
      exact h.own t hnothing
    · rw [hothers m' hm] at ho ⊢
      exact h.original m' t' ho

/-- A thread that holds nothing waits. -/
theorem orderly_suspended {priority : τ → Nat} {s : MutexSys τ μ} {t o : τ} {m : μ} {timer : Bool}
    (h : Orderly priority s) (howner : (s.mutex m).owner = some o)
    (ho : o ≠ t) (hnothing : ∀ m', s.held m' t = 0)
    (hexclusive : ∀ m', Exclusive (s.suspended t m timer) m')
    (hlent : Lent (s.suspended t m timer)) : Orderly priority (s.suspended t m timer) := by
  have hpriority : (s.suspended t m timer).currentPriority
      = lendPriority s.currentPriority (some o) t := by
    rw [← howner]
    rfl
  have hpos := ((h.exclusive m).owner o).mp howner
  -- only the owner's priority changes, and it is on no list
  have hkept : ∀ x, x ≠ o → (s.suspended t m timer).currentPriority x = s.currentPriority x :=
    fun x hx => by
      rw [hpriority]
      exact (lendPriority_le s.currentPriority o t x).2.2 hx
  have hwaiting : ∀ m' x, x ∈ (s.mutex m').suspendThread → x ≠ o := by
    rintro m' x hx rfl
    obtain ⟨timer', hw⟩ := ((h.exclusive m').waits x).mp hx
    have hzero := h.idle x m' timer' hw m
    omega
  have hsorted : ∀ m', (s.mutex m').suspendThread.Pairwise fun a b =>
      (s.suspended t m timer).currentPriority a ≤ (s.suspended t m timer).currentPriority b :=
    fun m' => (h.sorted m').imp_of_mem fun {a b} ha hb hle => by
      rw [hkept a (hwaiting m' a ha), hkept b (hwaiting m' b hb)]
      exact hle
  have hmutex : (s.suspended t m timer).mutex m = { s.mutex m with
      suspendThread := suspendByFlag (s.mutex m).flag
        (lendPriority s.currentPriority (s.mutex m).owner t) (s.mutex m).suspendThread t } :=
    Function.update_self _ _ _
  have hothers : ∀ m', m' ≠ m → (s.suspended t m timer).mutex m' = s.mutex m' := fun m' hm =>
    Function.update_of_ne hm _ _
  refine ⟨hexclusive, hlent, fun m' => ?_, h.single, fun t' m' timer' hw m'' => ?_, fun m' => ?_,
    h.counted, fun t' ht' => ?_, fun m' t' ho' => ?_⟩
  · by_cases hm : m' = m
    · rw [hm, hmutex]
      exact h.flag m
    · rw [hothers m' hm]
      exact h.flag m'
  · by_cases ht : t' = t
    · rw [ht]
      exact hnothing m''
    · have hw' : (s.suspended t m timer).waits t' = s.waits t' := Function.update_of_ne ht _ _
      exact h.idle t' m' timer' (hw'.symm.trans hw) m''
  · by_cases hm : m' = m
    · rw [hm, hmutex, hpriority]
      show (suspendByFlag (s.mutex m).flag _ _ _).Pairwise _
      rw [h.flag m, howner]
      refine pairwise_orderedInsert ?_ t
      rw [← hpriority]
      exact hsorted m
    · rw [hothers m' hm]
      exact hsorted m'
  · have hne : t' ≠ o := by
      rintro rfl
      have hz : s.held m t' = 0 := ht' m
      omega
    rw [hkept t' hne]
    exact h.own t' ht'
  · by_cases hm : m' = m
    · rw [hm, hmutex] at ho' ⊢
      exact h.original m t' ho'
    · rw [hothers m' hm] at ho' ⊢
      exact h.original m' t' ho'

/-- A timer runs out. -/
theorem orderly_timeout {priority : τ → Nat} {s : MutexSys τ μ} {t : τ} {m : μ}
    (h : Orderly priority s) (hexclusive : ∀ m', Exclusive (rtMutexTimeout s t m) m')
    (hlent : Lent (rtMutexTimeout s t m)) : Orderly priority (rtMutexTimeout s t m) := by
  have hmutex : (rtMutexTimeout s t m).mutex m = { s.mutex m with
      suspendThread := (s.mutex m).suspendThread.erase t } := Function.update_self _ _ _
  have hothers : ∀ m', m' ≠ m → (rtMutexTimeout s t m).mutex m' = s.mutex m' := fun m' hm =>
    Function.update_of_ne hm _ _
  refine ⟨hexclusive, hlent, fun m' => ?_, h.single, fun t' m' timer hw m'' => ?_, fun m' => ?_,
    h.counted, h.own, fun m' t' ho => ?_⟩
  · by_cases hm : m' = m
    · rw [hm, hmutex]
      exact h.flag m
    · rw [hothers m' hm]
      exact h.flag m'
  · have hne : t' ≠ t := by
      rintro rfl
      have hnone : (rtMutexTimeout s t' m).waits t' = none := Function.update_self _ _ _
      exact absurd (hnone.symm.trans hw) (by simp)
    have hw' : (rtMutexTimeout s t m).waits t' = s.waits t' := Function.update_of_ne hne _ _
    exact h.idle t' m' timer (hw'.symm.trans hw) m''
  · by_cases hm : m' = m
    · rw [hm, hmutex]
      exact (h.sorted m).sublist List.erase_sublist
    · rw [hothers m' hm]
      exact h.sorted m'
  · by_cases hm : m' = m
    · rw [hm, hmutex] at ho ⊢
      exact h.original m t' ho
    · rw [hothers m' hm] at ho ⊢
      exact h.original m' t' ho

/-- The only mutex of a thread goes to the next thread of the list, if there is one. -/
theorem Orderly.released {priority : τ → Nat} {s s' : MutexSys τ μ} {t : τ} {m : μ}
    {next : Option τ} (h : Orderly priority s) (hwaits : s.waits t = none)
    (howner : (s.mutex m).owner = some t) (hnext : next = (s.mutex m).suspendThread.head?)
    (hexclusive : ∀ m', Exclusive s' m') (hlent : Lent s')
    (hothers : ∀ m', m' ≠ m → s'.mutex m' = s.mutex m')
    (hmutex : (s'.mutex m).flag = (s.mutex m).flag ∧ (s'.mutex m).owner = next
      ∧ (s'.mutex m).suspendThread = (s.mutex m).suspendThread.tail)
    (horiginal : ∀ w, next = some w → (s'.mutex m).originalPriority = s.currentPriority w)
    (hheld : ∀ m' t', s'.held m' t' = if m' = m ∧ next = some t' then 1
      else if m' = m ∧ t' = t then 0 else s.held m' t')
    (hpriority : s'.currentPriority
      = Function.update s.currentPriority t (s.mutex m).originalPriority)
    (hwaits' : ∀ t', s'.waits t' = if next = some t' then none else s.waits t') :
    Orderly priority s' := by
  have hpos := ((h.exclusive m).owner t).mp howner
  have hself : s'.currentPriority t = priority t := by
    rw [hpriority, Function.update_self, h.original m t howner]
  have hkept : ∀ x, x ≠ t → s'.currentPriority x = s.currentPriority x := fun x hx => by
    rw [hpriority, Function.update_of_ne hx]
  -- the next thread waits, so it holds nothing yet
  have hfirst : ∀ w, next = some w → ∀ m', s.held m' w = 0 := fun w hw m' => by
    have hmem : w ∈ (s.mutex m).suspendThread := List.mem_of_head? (hnext.symm.trans hw)
    obtain ⟨timer, hsome⟩ := ((h.exclusive m).waits w).mp hmem
    exact h.idle w m timer hsome m'
  have hsorted : ∀ m', (s.mutex m').suspendThread.Pairwise fun a b =>
      s'.currentPriority a ≤ s'.currentPriority b := fun m' =>
    (h.sorted m').imp_of_mem fun {a b} ha hb hle => by
      have hne : ∀ x ∈ (s.mutex m').suspendThread, x ≠ t := by
        rintro x hx rfl
        exact notMem_of_waits h.exclusive hwaits m' hx
      rw [hkept a (hne a ha), hkept b (hne b hb)]
      exact hle
  refine ⟨hexclusive, hlent, fun m' => ?_, fun t' m' m'' h' h'' => ?_, fun t' m' timer hw m'' => ?_,
    fun m' => ?_, fun m' t' => ?_, fun t' ht' => ?_, fun m' t' ho => ?_⟩
  · by_cases hm : m' = m
    · rw [hm, hmutex.1]
      exact h.flag m
    · rw [hothers m' hm]
      exact h.flag m'
  · rw [hheld] at h' h''
    by_cases hw : next = some t'
    · have hzero := hfirst t' hw
      split at h' <;> split at h'' <;> grind
    · have hm' : ¬ (m' = m ∧ next = some t') := fun heq => hw heq.2
      have hm'' : ¬ (m'' = m ∧ next = some t') := fun heq => hw heq.2
      rw [if_neg hm'] at h'
      rw [if_neg hm''] at h''
      split at h'
      · cases h'
      · split at h''
        · cases h''
        · exact h.single t' m' m'' h' h''
  · rw [hwaits'] at hw
    split at hw
    · cases hw
    · rename_i hne
      rw [hheld, if_neg fun heq => hne heq.2]
      split
      · rfl
      · exact h.idle t' m' timer hw m''
  · by_cases hm : m' = m
    · rw [hm, hmutex.2.2]
      exact (hsorted m).sublist (List.tail_sublist _)
    · rw [hothers m' hm]
      exact hsorted m'
  · rw [hheld]
    split
    · decide
    · split
      · exact Nat.zero_le _
      · exact h.counted m' t'
  · by_cases ht : t' = t
    · rw [ht]
      exact hself
    · rw [hkept t' ht]
      refine h.own t' fun m' => ?_
      have hz := ht' m'
      rw [hheld] at hz
      split at hz
      · cases hz
      · rwa [if_neg fun heq => ht heq.2] at hz
  · by_cases hm : m' = m
    · rw [hm] at ho ⊢
      rw [hmutex.2.1] at ho
      rw [horiginal t' ho]
      exact h.own t' (hfirst t' ho)
    · rw [hothers m' hm] at ho ⊢
      exact h.original m' t' ho

omit [DecidableEq τ] in
/-- Only `hold` changes. -/
theorem mutex_set_hold (s : MutexSys τ μ) (m : μ) (n : UInt8) (m' : μ) :
    ∃ hold, (s.set m { s.mutex m with hold := n }).mutex m' = { s.mutex m' with hold } := by
  by_cases hm : m' = m
  · subst hm
    exact ⟨n, Function.update_self _ _ _⟩
  · exact ⟨(s.mutex m').hold, Function.update_of_ne hm _ _⟩

/-- Every step of a disciplined thread keeps the order. -/
theorem orderly_mutexStep (priority : τ → Nat) (s : MutexSys τ μ) (a : MutexAct τ μ)
    (s' : MutexSys τ μ) (h : Orderly priority s) (hguard : Disciplined s a)
    (hstep : mutexStep s a = some s') : Orderly priority s' := by
  obtain ⟨hcounts, hlends⟩ := h.guards a
  have hexclusive := (exclusive_mutexStep s a s' h.exclusive hstep).mpr hcounts
  have hlent := (lent_mutexStep s a s' h.exclusive h.lent hstep).mpr hlends
  cases a with
  | take t m time =>
      obtain ⟨hother, hlt⟩ := hguard
      -- a thread that is not the owner holds nothing
      have hnothing : (s.mutex m).owner ≠ some t → ∀ m', s.held m' t = 0 := fun hne m' => by
        by_cases hm : m' = m
        · have hnot := (not_congr ((h.exclusive m).owner t)).mp hne
          rw [hm]
          omega
        · exact hother m' hm
      obtain ⟨hwaits, ⟨howner, rfl⟩ | ⟨howner, rfl⟩ | ⟨o, howner, ho, ⟨-, rfl⟩ | ⟨-, rfl⟩⟩⟩ :=
        take_cases (h.exclusive m) hstep
      · have hpos := ((h.exclusive m).owner t).mp howner
        refine h.recount hexclusive hlent (fun m' => ?_) (fun m' t' => ?_) (fun m' t' => ?_) rfl rfl
        · exact mutex_set_hold s m _ m'
        · rw [MutexSys.again, held_setHeld]
          split
          · rename_i heq
            rw [heq.1, heq.2]
            omega
          · exact Iff.rfl
        · rw [MutexSys.again, held_setHeld]
          split
          · omega
          · exact h.counted m' t'
      · exact orderly_acquired h hwaits (hnothing (by rw [howner]; simp)) hexclusive hlent
      · exact h
      · refine orderly_suspended h howner ho (hnothing ?_) hexclusive hlent
        rw [howner, ne_eq, Option.some.injEq]
        exact ho
  | release t m =>
      obtain ⟨hwaits, ⟨howner, rfl⟩ | ⟨howner, hhold, rfl⟩ | ⟨howner, hhold, hlist, rfl⟩
        | ⟨w, ts, howner, hhold, hlist, rfl⟩⟩ := release_cases (h.exclusive m) hstep
      · exact h
      · have hcount := (h.exclusive m).hold t howner
        have hpos := ((h.exclusive m).owner t).mp howner
        have htwo : s.held m t ≠ 1 := fun hone => hhold <| by
          rw [hone] at hcount
          exact UInt8.toNat_inj.mp hcount
        refine h.recount hexclusive hlent (fun m' => ?_) (fun m' t' => ?_) (fun m' t' => ?_) rfl rfl
        · exact mutex_set_hold s m _ m'
        · rw [MutexSys.left, held_setHeld]
          split
          · rename_i heq
            rw [heq.1, heq.2]
            omega
          · exact Iff.rfl
        · rw [MutexSys.left, held_setHeld]
          have hle := h.counted m t
          split
          · omega
          · exact h.counted m' t'
      · have hone := (exclusive_freed h.exclusive howner hlist).mp hexclusive
        have hmutex : (s.freed t m).mutex m = { s.mutex m with
            value := 1, owner := none, originalPriority := 0xff, hold := 0 } :=
          Function.update_self _ _ _
        have hnext : none = (s.mutex m).suspendThread.head? := by rw [hlist, List.head?_nil]
        refine h.released hwaits howner hnext hexclusive hlent
          (fun m' hm => Function.update_of_ne hm _ _) ?_ (fun w hw => ?_) (fun m' t' => ?_) rfl
          fun t' => ?_
        · rw [hmutex, hlist]
          exact ⟨rfl, rfl, rfl⟩
        · cases hw
        · show (MutexSys.setHeld _ m t (s.held m t - 1)).held m' t' = _
          rw [held_setHeld, hone, if_neg (show ¬ (m' = m ∧ none = some t') by simp)]
          rfl
        · exact (if_neg (by simp)).symm
      · have hone := (exclusive_handed h.exclusive howner hlist).mp hexclusive
        have hmutex : (s.handed t m w ts).mutex m = { s.mutex m with
            owner := some w, originalPriority := s.currentPriority w, hold := 1,
            suspendThread := ts } := Function.update_self _ _ _
        have hnext : some w = (s.mutex m).suspendThread.head? := by rw [hlist, List.head?_cons]
        have heq : ∀ t', some w = some t' ↔ t' = w := fun t' => by
          rw [Option.some.injEq, eq_comm]
        refine h.released hwaits howner hnext hexclusive hlent
          (fun m' hm => Function.update_of_ne hm _ _) ?_ (fun w' hw => ?_) (fun m' t' => ?_) rfl
          fun t' => ?_
        · rw [hmutex, hlist]
          exact ⟨rfl, rfl, rfl⟩
        · cases hw
          rw [hmutex]
        · show (MutexSys.setHeld _ m w 1).held m' t' = _
          rw [held_setHeld, held_setHeld, hone]
          simp only [heq]
          rfl
        · show Function.update s.waits w none t' = _
          rw [Function.update_apply]
          simp only [heq]
  | timeout t =>
      obtain ⟨m, hwaits, rfl⟩ := timeout_cases hstep
      exact orderly_timeout h hexclusive hlent

omit [DecidableEq τ] [DecidableEq μ] in
/-- Free mutexes are orderly. -/
theorem orderly_mutexSysInit (priority : τ → Nat) :
    Orderly priority (mutexSysInit (fun _ : μ => IpcFlag.prio) priority) where
  exclusive := exclusive_mutexSysInit _ priority
  lent m o w ho := by cases ho
  flag _ := rfl
  single t m m' h := absurd h (Nat.lt_irrefl 0)
  idle t m timer hw := by cases hw
  sorted _ := List.Pairwise.nil
  counted _ _ := Nat.zero_le _
  own _ _ := rfl
  original m t ho := by cases ho

/-- **The disciplined use.** When the lists are in the order of priority, and no thread takes a
second mutex or one mutex more often than `hold` can count, then in every state of a run the
mutexes exclude, no owner is less urgent than a thread that waits for it, and a thread without a
mutex has the priority it started with. -/
theorem mutex_disciplined (priority : τ → Nat) (as : List (MutexAct τ μ))
    (hguard : Guarded mutexStep Disciplined (mutexSysInit (fun _ => .prio) priority) as) :
    Always mutexStep (fun s => (∀ m, Exclusive s m) ∧ Lent s
        ∧ ∀ t, (∀ m, s.held m t = 0) → s.currentPriority t = priority t)
      (mutexSysInit (fun _ => .prio) priority) as := by
  have hrun := always_of_guarded (orderly_mutexStep priority) (orderly_mutexSysInit priority) hguard
  exact hrun.mono fun s h => ⟨h.exclusive, h.lent, h.own⟩

instance (s : MutexSys (Fin 3) (Fin 2)) : (a : MutexAct (Fin 3) (Fin 2)) →
    Decidable (Disciplined s a)
  | .take t m _ => inferInstanceAs (Decidable ((∀ m', m' ≠ m → s.held m' t = 0) ∧ _ < 256))
  | .release _ _ | .timeout _ => isTrue trivial

/-- Thread 0 is the most urgent one. It lends its priority to thread 2, and thread 1 gives up. -/
def threeThreads : List (MutexAct (Fin 3) (Fin 2)) :=
  [.take 2 0 0, .take 1 0 5, .take 0 0 rtWaitingForever, .timeout 1, .release 2 0, .take 2 1 0,
    .release 0 0, .release 2 1]

theorem mutex_disciplined_three :
    Always mutexStep (fun s => (∀ m, Exclusive s m) ∧ Lent s
        ∧ ∀ t : Fin 3, (∀ m, s.held m t = 0) → s.currentPriority t = 10 + t.val)
      (mutexSysInit (fun _ => .prio) fun t : Fin 3 => 10 + t.val) threeThreads :=
  mutex_disciplined (fun t : Fin 3 => 10 + t.val) threeThreads (by decide)

end CarLocator.Kernel
