import CarLocator.Kernel.Event

/-!
# `CarLocator.Kernel.Sem`: the semaphore of the kernel

`rt_sem_take`, `rt_sem_release` and the reset of `rt_sem_control` of `rt-thread/src/ipc.c`. They
run with interrupts disabled, so each is one atomic step. As with the event object,
`rtSemTake` is the part of `rt_sem_take` up to its call of `rt_schedule`. A thread that is
suspended there goes on when `rtSemRelease` or `rtSemReset` resumes it, or when its timer runs
out (`rtSemTimeout`).

The value has 16 bits, and `rt_sem_release` does not check it.
-/

set_option autoImplicit false

namespace CarLocator.Kernel

variable {τ : Type}

/-- `struct rt_semaphore`. -/
structure RtSem (τ : Type) where
  flag : IpcFlag
  value : UInt16
  suspendThread : List (Waiter τ)
  deriving DecidableEq, Repr

/-- `rt_sem_create` and `rt_sem_init`. -/
def rtSemInit (flag : IpcFlag) (value : UInt16) : RtSem τ := ⟨flag, value, []⟩

/-- What `rt_sem_take` has come to when it calls `rt_schedule` or returns. -/
inductive TakeResult
  /-- `RT_EOK` -/
  | taken
  /-- `-RT_ETIMEOUT` without waiting -/
  | timeout
  /-- the thread was put on the suspend list -/
  | suspended
  deriving DecidableEq, Repr

/-- A thread that waits for a semaphore. It is not waiting for an event. -/
def semWaiter (thread : τ) (priority : Nat) (timer : Bool) : Waiter τ :=
  ⟨thread, priority, 0, 0, timer⟩

/-- `rt_sem_take` up to its call of `rt_schedule`. -/
def rtSemTake (s : RtSem τ) (thread : τ) (priority : Nat) (time : Int) : TakeResult × RtSem τ :=
  if 0 < s.value then (.taken, { s with value := s.value - 1 })
  else if time = 0 then (.timeout, s)
  else
    let w := semWaiter thread priority (decide (0 < time))
    (.suspended, { s with suspendThread := rtIpcListSuspend s.flag s.suspendThread w })

/-- `rt_sem_release`: the first suspended thread is resumed, or the value goes up. -/
def rtSemRelease (s : RtSem τ) : RtSem τ × Option τ :=
  match s.suspendThread with
  | [] => ({ s with value := s.value + 1 }, none)
  | w :: ws => ({ s with suspendThread := ws }, some w.thread)

/-- `rt_sem_control` with `RT_IPC_CMD_RESET`: every suspended thread is resumed with
`-RT_ERROR`. -/
def rtSemReset (s : RtSem τ) (value : UInt16) : RtSem τ × List τ :=
  ({ s with value := value, suspendThread := [] }, s.suspendThread.map (·.thread))

/-- `rt_thread_timeout` of a thread whose timer runs: its `rt_sem_take` returns
`-RT_ETIMEOUT`. -/
def rtSemTimeout [DecidableEq τ] (s : RtSem τ) (thread : τ) : Option (RtSem τ) :=
  if ∃ w ∈ s.suspendThread, w.thread = thread ∧ w.timer = true then
    some { s with suspendThread := s.suspendThread.filter (·.thread ≠ thread) }
  else none

/-- A take of a semaphore that is there. -/
theorem rtSemTake_of_pos {s : RtSem τ} (h : 0 < s.value) (thread : τ) (priority : Nat)
    (time : Int) :
    rtSemTake s thread priority time = (.taken, { s with value := s.value - 1 }) :=
  if_pos h

/-- A take that has to wait. -/
theorem rtSemTake_of_zero {s : RtSem τ} (h : s.value = 0) (thread : τ) (priority : Nat)
    {time : Int} (htime : time ≠ 0) :
    rtSemTake s thread priority time = (.suspended, { s with
      suspendThread := rtIpcListSuspend s.flag s.suspendThread
        (semWaiter thread priority (decide (0 < time))) }) := by
  rw [rtSemTake, if_neg (by rw [h]; decide), if_neg htime]

/-- A release while nobody waits. -/
theorem rtSemRelease_of_nil {s : RtSem τ} (h : s.suspendThread = []) :
    rtSemRelease s = ({ s with value := s.value + 1 }, none) := by
  rw [rtSemRelease, h]

/-- A release while one thread waits. -/
theorem rtSemRelease_of_cons {s : RtSem τ} {w : Waiter τ} {ws : List (Waiter τ)}
    (h : s.suspendThread = w :: ws) :
    rtSemRelease s = ({ s with suspendThread := ws }, some w.thread) := by
  rw [rtSemRelease, h]

/-- The value goes up by one unless it wraps around. -/
theorem value_add_one_pos {value : UInt16} : 0 < value + 1 ↔ value ≠ 65535 := by
  constructor
  · rintro h rfl
    exact absurd h (by decide)
  · intro h
    refine UInt16.pos_iff_ne_zero.mpr fun hzero => h ?_
    calc value = value + 1 - 1 := by rw [UInt16.add_sub_cancel]
      _ = 65535 := by rw [hzero]; rfl

end CarLocator.Kernel
