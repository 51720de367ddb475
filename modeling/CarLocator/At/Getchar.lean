import CarLocator.Kernel.Sem
import CarLocator.Library.CText
import CarLocator.Library.Runs

/-!
# `CarLocator.At.Getchar`: how the AT client waits for a byte

`at_client_getchar` of `at_client.c` reads one byte from the device. While there is none it
resets the semaphore `rx_notice` and takes it. The receive indication of the device,
`at_client_rx_ind`, releases it. As in `CarLocator.Gps.Uart`, an interrupt is two steps, the
arrival of bytes and the indication, and the reader is one call of the kernel or the driver a
step. The receive FIFO is a queue.

Unlike the event of the GPS reader, the semaphore is cleared on the way to the wait. An
indication that comes between the empty read and the reset is forgotten with its byte still in
the FIFO, and the reader then sleeps until another byte comes. `getchar_handover` says when that
does not happen. No byte is lost in either case.
-/

set_option autoImplicit false

namespace CarLocator.At

open CarLocator.Kernel
open CarLocator.Library

/-- Where the reader is in the loop of `at_client_getchar`. -/
inductive GetcharPc
  /-- about to call `rt_device_read` -/
  | reading
  /-- about to reset `rx_notice`, after a read that returned no byte -/
  | resetting
  /-- about to take `rx_notice` -/
  | taking
  /-- suspended in `rt_sem_take` -/
  | suspended
  deriving DecidableEq, Repr

/-- The device, the semaphore and the reader. -/
structure ClientPort where
  fifo : Bytes
  rxNotice : RtSem Unit
  pc : GetcharPc
  /-- interrupts between the arrival of their bytes and their indication -/
  isr : Nat
  received : Bytes
  /-- the bytes returned by `at_client_getchar` so far -/
  returned : Bytes
  /-- the calls of `at_client_getchar` that returned an error -/
  failed : Nat
  deriving DecidableEq, Repr

/-- The steps of the interrupts and of the reader. -/
inductive GetcharAct
  | append (bytes : Bytes)
  | indicate
  | read
  | reset
  /-- the take, with the ticks the caller gives it -/
  | take (time : Int)
  | timeout
  deriving DecidableEq, Repr

/-- After `at_client_init`. -/
def clientPortInit : ClientPort :=
  { fifo := [], rxNotice := rtSemInit .fifo 0, pc := .reading, isr := 0, received := [],
    returned := [], failed := 0 }

/-- The priority of the parser thread, `RT_THREAD_PRIORITY_MAX / 3 - 1`. -/
def parserPriority : Nat := 32 / 3 - 1

/-- `at_client_rx_ind`. A reader that is resumed reads again. -/
def atClientRxInd (s : ClientPort) : ClientPort :=
  match rtSemRelease s.rxNotice with
  | (sem, none) => { s with rxNotice := sem }
  | (sem, some _) => { s with rxNotice := sem, pc := .reading }

/-- The `rt_device_read` of `at_client_getchar`. -/
def getcharRead (s : ClientPort) : ClientPort :=
  match s.fifo with
  | ch :: fifo => { s with fifo := fifo, returned := s.returned ++ [ch] }
  | [] => { s with pc := .resetting }

/-- The `rt_sem_take` of `at_client_getchar`. -/
def getcharTake (s : ClientPort) (time : Int) : ClientPort :=
  match rtSemTake s.rxNotice () parserPriority time with
  | (.taken, sem) => { s with rxNotice := sem, pc := .reading }
  | (.timeout, sem) => { s with rxNotice := sem, pc := .reading, failed := s.failed + 1 }
  | (.suspended, sem) => { s with rxNotice := sem, pc := .suspended }

/-- One step of the interleaving. -/
def getcharStep (s : ClientPort) : GetcharAct → Option ClientPort
  | .append bytes =>
    if bytes = [] then none
    else some { s with
      fifo := s.fifo ++ bytes, received := s.received ++ bytes, isr := s.isr + 1 }
  | .indicate => if s.isr = 0 then none else some { atClientRxInd s with isr := s.isr - 1 }
  | .read => if s.pc = .reading then some (getcharRead s) else none
  | .reset =>
    if s.pc = .resetting then
      some { s with rxNotice := (rtSemReset s.rxNotice 0).1, pc := .taking }
    else none
  | .take time => if s.pc = .taking then some (getcharTake s time) else none
  | .timeout =>
    (rtSemTimeout s.rxNotice ()).map fun sem =>
      { s with rxNotice := sem, pc := .reading, failed := s.failed + 1 }

/-! ### The invariant -/

/-- Every byte is in the FIFO until it is returned, and the reader is on the suspend list exactly
when it is suspended. -/
structure Listening (s : ClientPort) : Prop where
  bytes : s.received = s.returned ++ s.fifo
  awake : s.pc ≠ .suspended → s.rxNotice.suspendThread = []
  asleep : s.pc = .suspended → s.rxNotice.value = 0
    ∧ ∃ timer, s.rxNotice.suspendThread = [semWaiter () parserPriority timer]

/-- The client starts so. -/
theorem listening_clientPortInit : Listening clientPortInit :=
  ⟨rfl, fun _ => rfl, fun h => by cases h⟩

/-- The indication wakes a suspended reader, or goes into the value. -/
theorem atClientRxInd_cases {s : ClientPort} (h : Listening s) :
    (s.pc ≠ .suspended ∧ atClientRxInd s = { s with
      rxNotice := { s.rxNotice with value := s.rxNotice.value + 1 } })
    ∨ (s.pc = .suspended ∧ atClientRxInd s = { s with
      rxNotice := { s.rxNotice with suspendThread := [] }, pc := .reading }) := by
  by_cases hpc : s.pc = .suspended
  · obtain ⟨-, timer, hlist⟩ := h.asleep hpc
    refine Or.inr ⟨hpc, ?_⟩
    rw [atClientRxInd, rtSemRelease_of_cons hlist]
  · refine Or.inl ⟨hpc, ?_⟩
    rw [atClientRxInd, rtSemRelease_of_nil (h.awake hpc)]

/-- The take: a notice is taken, or there is none, and the reader returns or sleeps. -/
theorem getcharTake_cases {s : ClientPort} (h : Listening s) (hpc : s.pc = .taking)
    (time : Int) :
    (s.rxNotice.value ≠ 0 ∧ getcharTake s time = { s with
      rxNotice := { s.rxNotice with value := s.rxNotice.value - 1 }, pc := .reading })
    ∨ (s.rxNotice.value = 0 ∧ getcharTake s time = { s with
      pc := .reading, failed := s.failed + 1 })
    ∨ (s.rxNotice.value = 0 ∧ getcharTake s time = { s with
      rxNotice := { s.rxNotice with
        suspendThread := [semWaiter () parserPriority (decide (0 < time))] },
      pc := .suspended }) := by
  have hlist := h.awake (by rw [hpc]; decide)
  by_cases hvalue : s.rxNotice.value = 0
  · refine Or.inr ?_
    by_cases htime : time = 0
    · refine Or.inl ⟨hvalue, ?_⟩
      rw [getcharTake, rtSemTake, if_neg (by rw [hvalue]; decide), if_pos htime]
    · refine Or.inr ⟨hvalue, ?_⟩
      rw [getcharTake, rtSemTake_of_zero hvalue () parserPriority htime, hlist,
        rtIpcListSuspend_nil]
  · refine Or.inl ⟨hvalue, ?_⟩
    rw [getcharTake, rtSemTake_of_pos (UInt16.pos_iff_ne_zero.mpr hvalue)]

/-- A timer runs only for a suspended reader. It takes the reader off the list. -/
theorem rtSemTimeout_cases {s : ClientPort} (h : Listening s) {sem : RtSem Unit}
    (htimeout : rtSemTimeout s.rxNotice () = some sem) :
    s.pc = .suspended ∧ sem = { s.rxNotice with suspendThread := [] } := by
  rw [rtSemTimeout] at htimeout
  split at htimeout
  · rename_i hw
    obtain ⟨w, hmem, -⟩ := hw
    have hpc : s.pc = .suspended := by
      by_contra hpc
      rw [h.awake hpc] at hmem
      cases hmem
    refine ⟨hpc, ?_⟩
    cases htimeout
    congr 1
    exact List.filter_eq_nil_iff.mpr fun x _ => by simp
  · cases htimeout

/-- Every step keeps the bytes and the suspend list. -/
theorem listening_getcharStep (s : ClientPort) (a : GetcharAct) (s' : ClientPort)
    (h : Listening s) (hstep : getcharStep s a = some s') : Listening s' := by
  cases a with
  | append bytes =>
      simp only [getcharStep] at hstep
      split at hstep
      · cases hstep
      · cases hstep
        exact ⟨by simp [h.bytes], h.awake, h.asleep⟩
  | indicate =>
      simp only [getcharStep] at hstep
      split at hstep
      · cases hstep
      · cases hstep
        rcases atClientRxInd_cases h with ⟨hpc, he⟩ | ⟨hpc, he⟩ <;> rw [he]
        · exact ⟨h.bytes, h.awake, fun hs => absurd hs hpc⟩
        · exact ⟨h.bytes, fun _ => rfl, fun hs => by cases hs⟩
  | read =>
      simp only [getcharStep] at hstep
      split at hstep
      · rename_i hpc
        cases hstep
        have hlist := h.awake (by rw [hpc]; decide)
        unfold getcharRead
        split
        · rename_i ch fifo hfifo
          exact ⟨by simp [h.bytes, hfifo], fun _ => hlist, fun hs => by simp [hpc] at hs⟩
        · exact ⟨h.bytes, fun _ => hlist, fun hs => by cases hs⟩
      · cases hstep
  | reset =>
      simp only [getcharStep] at hstep
      split at hstep
      · cases hstep
        exact ⟨h.bytes, fun _ => rfl, fun hs => by cases hs⟩
      · cases hstep
  | take time =>
      simp only [getcharStep] at hstep
      split at hstep
      · rename_i hpc
        cases hstep
        have hlist := h.awake (by rw [hpc]; decide)
        rcases getcharTake_cases h hpc time with ⟨-, he⟩ | ⟨-, he⟩ | ⟨hvalue, he⟩ <;> rw [he]
        · exact ⟨h.bytes, fun _ => hlist, fun hs => by cases hs⟩
        · exact ⟨h.bytes, fun _ => hlist, fun hs => by cases hs⟩
        · exact ⟨h.bytes, fun hs => absurd rfl hs, fun _ => ⟨hvalue, _, rfl⟩⟩
      · cases hstep
  | timeout =>
      obtain ⟨sem, htimeout, rfl⟩ := Option.map_eq_some_iff.mp hstep
      obtain ⟨-, rfl⟩ := rtSemTimeout_cases h htimeout
      exact ⟨h.bytes, fun _ => rfl, fun hs => by cases hs⟩

/-! ### The notice -/

/-- Once the reader is past the reset, a byte in the FIFO has a notice: its indication is still
to come, or the semaphore has counted it. -/
def NoticeKept (s : ClientPort) : Prop :=
  s.pc = .taking ∨ s.pc = .suspended → s.fifo ≠ [] → 0 < s.isr ∨ 0 < s.rxNotice.value

instance (s : ClientPort) : Decidable (NoticeKept s) :=
  inferInstanceAs (Decidable (_ → _ → _))

/-- The guard. The reset must not come after the indication of a byte that is still there, and
the value must not wrap around on the way to the take. -/
def ResetInTime (s : ClientPort) : GetcharAct → Prop
  | .reset => s.fifo ≠ [] → 0 < s.isr
  | .indicate => ¬ (s.pc = .taking ∧ s.fifo ≠ [] ∧ s.isr = 1 ∧ s.rxNotice.value = 65535)
  | _ => True

instance (s : ClientPort) : ∀ a, Decidable (ResetInTime s a)
  | .reset => inferInstanceAs (Decidable (_ → _))
  | .indicate => inferInstanceAs (Decidable (¬ _))
  | .append _ => inferInstanceAs (Decidable True)
  | .read => inferInstanceAs (Decidable True)
  | .take _ => inferInstanceAs (Decidable True)
  | .timeout => inferInstanceAs (Decidable True)

/-- A reader that reads again, or has yet to reset, needs no notice. -/
theorem noticeKept_of_awake {s : ClientPort} (htaking : s.pc ≠ .taking)
    (hsuspended : s.pc ≠ .suspended) : NoticeKept s := fun hpc _ =>
  hpc.elim (absurd · htaking) (absurd · hsuspended)

/-- A step keeps the notice exactly when it meets the guard. -/
theorem noticeKept_getcharStep (s : ClientPort) (a : GetcharAct) (s' : ClientPort)
    (h : Listening s) (hkept : NoticeKept s) (hstep : getcharStep s a = some s') :
    NoticeKept s' ↔ ResetInTime s a := by
  cases a with
  | append bytes =>
      simp only [getcharStep] at hstep
      split at hstep
      · cases hstep
      · cases hstep
        exact iff_of_true (fun _ _ => Or.inl (Nat.succ_pos _)) trivial
  | indicate =>
      simp only [getcharStep] at hstep
      split at hstep
      · cases hstep
      · rename_i hisr
        cases hstep
        rcases atClientRxInd_cases h with ⟨hpc, he⟩ | ⟨hpc, he⟩ <;> rw [he]
        · simp only [NoticeKept, ResetInTime, value_add_one_pos]
          grind
        · refine iff_of_true (noticeKept_of_awake (by simp) (by simp)) ?_
          rintro ⟨htaking, -⟩
          rw [hpc] at htaking
          cases htaking
  | read =>
      simp only [getcharStep] at hstep
      split at hstep
      · rename_i hpc
        cases hstep
        refine iff_of_true ?_ trivial
        unfold getcharRead
        split
        · exact noticeKept_of_awake (by simp [hpc]) (by simp [hpc])
        · exact noticeKept_of_awake (by simp) (by simp)
      · cases hstep
  | reset =>
      simp only [getcharStep] at hstep
      split at hstep
      · cases hstep
        -- The value is zero now, so only an indication still to come is left.
        simp [NoticeKept, ResetInTime, rtSemReset]
      · cases hstep
  | take time =>
      simp only [getcharStep] at hstep
      split at hstep
      · rename_i hpc
        cases hstep
        refine iff_of_true ?_ trivial
        rcases getcharTake_cases h hpc time with ⟨-, he⟩ | ⟨-, he⟩ | ⟨-, he⟩ <;> rw [he]
        · exact noticeKept_of_awake (by simp) (by simp)
        · exact noticeKept_of_awake (by simp) (by simp)
        · exact fun _ hfifo => hkept (Or.inl hpc) hfifo
      · cases hstep
  | timeout =>
      obtain ⟨sem, -, rfl⟩ := Option.map_eq_some_iff.mp hstep
      exact iff_of_true (noticeKept_of_awake (by simp) (by simp)) trivial

/-- The reader sleeps while a byte waits and no indication is to come. -/
def Stuck (s : ClientPort) : Prop := s.pc = .suspended ∧ s.fifo ≠ [] ∧ s.isr = 0

instance (s : ClientPort) : Decidable (Stuck s) :=
  inferInstanceAs (Decidable (_ ∧ _ ∧ _))

/-- With a notice the reader does not sleep on a byte. -/
theorem NoticeKept.not_stuck {s : ClientPort} (h : Listening s) (hkept : NoticeKept s) :
    ¬ Stuck s := by
  rintro ⟨hpc, hfifo, hisr⟩
  rcases hkept (Or.inr hpc) hfifo with hpos | hpos
  · omega
  · rw [(h.asleep hpc).1] at hpos
    exact absurd hpos (by decide)

/-- **The bytes and the notices.** Under every schedule no byte is lost, repeated or reordered,
however many calls time out. A byte behind the reader's back has a notice in every state of a
run exactly when every reset of the run comes in time, and then the reader never sleeps while a
byte waits for it. -/
theorem getchar_handover (as : List GetcharAct) :
    Always getcharStep (fun s => s.received = s.returned ++ s.fifo) clientPortInit as
    ∧ (Always getcharStep NoticeKept clientPortInit as
      ↔ Guarded getcharStep ResetInTime clientPortInit as)
    ∧ (Guarded getcharStep ResetInTime clientPortInit as →
      Always getcharStep (fun s => ¬ Stuck s) clientPortInit as) := by
  have hinv : ∀ s, Reachable getcharStep clientPortInit s → Listening s := fun s hr =>
    reachable_induction listening_clientPortInit listening_getcharStep hr
  have hexact : Always getcharStep NoticeKept clientPortInit as
      ↔ Guarded getcharStep ResetInTime clientPortInit as :=
    always_iff_guarded_of_invariant listening_getcharStep noticeKept_getcharStep
      listening_clientPortInit (noticeKept_of_awake (by decide) (by decide))
  refine ⟨?_, hexact, fun hg => ?_⟩
  · exact (always_iff _ _).mpr fun bs s _ hrun => (hinv s ⟨bs, hrun⟩).bytes
  · refine (always_iff _ _).mpr fun bs s hbs hrun => ?_
    exact ((always_iff _ _).mp (hexact.mpr hg) bs s hbs hrun).not_stuck (hinv s ⟨bs, hrun⟩)

-- One byte, whose indication comes between the empty read and the reset.
example : (run getcharStep clientPortInit
    [.read, .append [65], .indicate, .reset, .take rtWaitingForever]).any
      (fun s => decide (Stuck s)) = true := by decide

end CarLocator.At
