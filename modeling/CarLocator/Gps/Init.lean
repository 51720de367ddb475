import CarLocator.At.Calls
import CarLocator.Gps.Uart

/-!
# `CarLocator.Gps.Init`: `gps_init` and `uart_open` against the receive interrupt

`gps_init` configures the serial device, and `uart_open` registers `uart_intput` as its
receive indication, opens it with interrupt reception, and only then initialises the event
that `uart_intput` sends. `portStep` interleaves the steps of the two functions with the
interrupts, which come once the device is open, and with the reader thread once it runs.

`rt_event_init` is three steps: the object gets its type, the suspend list is made empty,
the event set is cleared. Before that the event is zero memory, so `rt_event_send` stops at
its assertion on the object type (`RT_DEBUG` is defined), and between the first two it
walks a list that is not one. Either way nothing goes on (`halted`).

`eventReady_iff` states when every `uart_intput` finds the event initialised, and
`port_handover` carries the hand-over of `CarLocator.Gps.Uart` over to the runs that start
at `gps_init`.
-/

set_option autoImplicit false

namespace CarLocator.Gps

open CarLocator.At (rtError)
open CarLocator.Kernel
open CarLocator.Library

/-- `RT_EINVAL`. -/
def rtEinval : Int := 10

/-- The steps of `gps_init`, with those of `uart_open` and `rt_event_init` in their place. -/
inductive PortPc
  /-- `rt_device_find` -/
  | find
  /-- the first `rt_device_control` -/
  | config
  /-- `rt_device_set_rx_indicate` -/
  | setIndicate
  /-- `rt_device_open` -/
  | openDevice
  /-- `rt_object_init` of the event -/
  | eventObject
  /-- `rt_ipc_object_init` of the event -/
  | eventList
  /-- `event->set = 0` -/
  | eventSet
  /-- the second `rt_device_control` -/
  | reconfig
  /-- `rt_thread_create` -/
  | create
  /-- `rt_thread_startup` -/
  | startup
  | returned (result : Int)
  deriving DecidableEq, Repr

/-- What happens to the event, for the trace. -/
inductive PortEntry
  /-- `rt_event_init` has completed -/
  | initialised
  /-- `uart_intput` is called, and whether the event has its object type -/
  | intput (typed : Bool)
  deriving DecidableEq, Repr

/-- The device, the event and the two threads. -/
structure Port where
  pc : PortPc
  /-- `uart_intput` is the receive indication of the device -/
  indicate : Bool
  /-- the device is open with `RT_DEVICE_FLAG_INT_RX` -/
  opened : Bool
  /-- the event has the type `RT_Object_Class_Event` -/
  typed : Bool
  /-- its suspend list is initialised -/
  listed : Bool
  /-- the reader thread runs -/
  started : Bool
  /-- an assertion has failed -/
  halted : Bool
  uart : Uart
  /-- the trace, newest entry first -/
  log : List PortEntry
  deriving DecidableEq, Repr

/-- The steps. -/
inductive PortAct
  /-- the next step of `gps_init`, and whether its call succeeds -/
  | init (ok : Bool)
  /-- an interrupt appends bytes -/
  | append (bytes : List UInt8)
  /-- the interrupt calls the receive indication -/
  | intput
  | read
  | recv
  deriving DecidableEq, Repr

/-- The state in which `gps_init` is called. -/
def portInit : Port :=
  { pc := .find, indicate := false, opened := false, typed := false, listed := false,
    started := false, halted := false, uart := Gps.uartInit, log := [] }

/-- The next step of `gps_init`. -/
def gpsInit (s : Port) (ok : Bool) : Option Port :=
  match s.pc with
  | .find => some { s with pc := if ok then .config else .returned rtEinval }
  | .config => some { s with pc := if ok then .setIndicate else .returned rtError }
  | .setIndicate =>
    some (if ok then { s with pc := .openDevice, indicate := true }
      else { s with pc := .returned rtError })
  | .openDevice =>
    some (if ok then { s with pc := .eventObject, opened := true }
      else { s with pc := .returned rtError })
  | .eventObject => some { s with pc := .eventList, typed := true }
  | .eventList =>
    some { s with
      pc := .eventSet, listed := true
      uart := { s.uart with event := { s.uart.event with suspendThread := [] } } }
  | .eventSet =>
    some { s with
      pc := .reconfig, log := .initialised :: s.log
      uart := { s.uart with event := { s.uart.event with set := 0 } } }
  | .reconfig => some { s with pc := if ok then .create else .returned rtError }
  | .create => some { s with pc := if ok then .startup else .returned rtError }
  | .startup => some { s with pc := .returned 0, started := true }
  | .returned _ => none

/-- The call of the receive indication at the end of an interrupt. -/
def portIntput (s : Port) : Option Port :=
  if s.uart.isr = 0 then none
  else if s.indicate = false then some { s with uart := { s.uart with isr := s.uart.isr - 1 } }
  else if s.typed = false ∨ s.listed = false then
    some { s with halted := true, log := .intput s.typed :: s.log }
  else
    (uartStep s.uart .send).map fun uart =>
      { s with uart := uart, log := .intput s.typed :: s.log }

/-- One step of the interleaving. -/
def portStep (s : Port) (a : PortAct) : Option Port :=
  if s.halted then none
  else match a with
    | .init ok => gpsInit s ok
    | .append bytes =>
      if s.opened then (uartStep s.uart (.append bytes)).map fun uart => { s with uart := uart }
      else none
    | .intput => portIntput s
    | .read =>
      if s.started then (uartStep s.uart .read).map fun uart => { s with uart := uart } else none
    | .recv =>
      if s.started then (uartStep s.uart .recv).map fun uart => { s with uart := uart } else none

/-- An entry uses the event rightly: it is initialised before the first signal is sent, the
assertion on its type holds, and no signal is wiped by its initialisation. -/
def PortEntry.Right (log : List PortEntry) : PortEntry → Prop
  | .intput typed => .initialised ∈ log ∧ typed = true
  | .initialised => ∀ typed, .intput typed ∉ log

/-- Every entry of the trace uses the event rightly. -/
def EventReady : List PortEntry → Prop
  | [] => True
  | e :: log => e.Right log ∧ EventReady log

/-- `gps_init` is between `rt_device_open` and the end of `rt_event_init`. -/
def PortPc.opening : PortPc → Bool
  | .eventObject | .eventList | .eventSet => true
  | _ => false

/-- The guard on the steps: no interrupt comes to its call of the receive indication while
`gps_init` is between `rt_device_open` and the end of `rt_event_init`. -/
def NotOpening (s : Port) : PortAct → Prop
  | .intput => s.pc.opening = false
  | _ => True

instance (log : List PortEntry) (e : PortEntry) : Decidable (e.Right log) := by
  cases e <;> unfold PortEntry.Right <;> infer_instance

instance decidableEventReady : DecidablePred EventReady
  | [] => isTrue trivial
  | e :: log =>
    have : Decidable (EventReady log) := decidableEventReady log
    inferInstanceAs (Decidable (e.Right log ∧ EventReady log))

/-! ### What holds on the way -/

/-- `gps_init` has not opened the device. -/
def PortPc.unopened : PortPc → Bool
  | .find | .config | .setIndicate | .openDevice => true
  | _ => false

/-- `gps_init` has opened the device and goes on. -/
def PortPc.pastOpen : PortPc → Bool
  | .eventObject | .eventList | .eventSet | .reconfig | .create | .startup => true
  | _ => false

/-- The invariant of every run. -/
structure PortInv (s : Port) : Prop where
  isr : s.uart.isr ≠ 0 → s.opened = true
  indicate : s.opened = true → s.indicate = true
  unopened : s.pc.unopened = true → s.opened = false
  pastOpen : s.pc.pastOpen = true → s.opened = true
  indicated : s.pc = .openDevice → s.indicate = true
  ready : s.opened = true → s.pc.opening = false →
    .initialised ∈ s.log ∧ s.typed = true ∧ s.listed = true
  unready : s.opened = false ∨ s.pc.opening = true → .initialised ∉ s.log
  typed : s.pc = .eventList → s.typed = true
  listed : s.pc = .eventSet → s.typed = true ∧ s.listed = true

/-- It holds when `gps_init` is called. -/
theorem portInv_portInit : PortInv portInit where
  isr := fun h => absurd rfl h
  indicate := fun h => by cases h
  unopened := fun _ => rfl
  pastOpen := fun h => by cases h
  indicated := fun h => by cases h
  ready := fun h => by cases h
  unready := fun _ => List.not_mem_nil
  typed := fun h => by cases h
  listed := fun h => by cases h

/-- A step of `gps_init` that only goes on, or returns, outside of `uart_open`. -/
theorem PortInv.goTo {s : Port} (h : PortInv s) {pc : PortPc} (hpc : pc.opening = false)
    (hunopened : pc.unopened = true → s.pc.unopened = true ∧ pc ≠ .openDevice)
    (hpast : pc.pastOpen = true → s.pc.pastOpen = true) (hopening : s.pc.opening = false) :
    PortInv { s with pc := pc } where
  isr := h.isr
  indicate := h.indicate
  unopened := fun hu => h.unopened (hunopened hu).1
  pastOpen := fun hp => h.pastOpen (hpast hp)
  indicated := fun hp => by
    subst hp
    exact absurd rfl (hunopened rfl).2
  ready := fun ho _ => h.ready ho hopening
  unready := fun ho => h.unready (ho.imp_right fun hp => absurd (hpc.symm.trans hp) (by decide))
  typed := fun hp => by
    subst hp
    cases hpc
  listed := fun hp => by
    subst hp
    cases hpc

/-- The steps of `gps_init` keep the invariant. -/
theorem portInv_gpsInit {s s' : Port} (h : PortInv s) {ok : Bool}
    (hstep : gpsInit s ok = some s') : PortInv s' := by
  cases hpc : s.pc with
  -- The steps before `rt_device_set_rx_indicate` and behind `rt_event_init` only go on.
  | find | config | reconfig | create =>
      rw [gpsInit, hpc] at hstep
      cases hstep
      cases ok
      all_goals exact h.goTo rfl (by rw [hpc]; decide) (by rw [hpc]; decide) (by rw [hpc]; rfl)
  | setIndicate =>
      rw [gpsInit, hpc] at hstep
      have hclosed : s.opened = false := h.unopened (by rw [hpc]; rfl)
      cases hstep
      cases ok with
      | false => exact h.goTo rfl (fun hu => by cases hu) (fun hp => by cases hp) (by rw [hpc]; rfl)
      | true =>
          exact
            { isr := h.isr
              indicate := fun _ => rfl
              unopened := fun _ => hclosed
              pastOpen := fun hp => by cases hp
              indicated := fun _ => rfl
              ready := fun ho => absurd (hclosed.symm.trans ho) (by decide)
              unready := fun _ => h.unready (Or.inl hclosed)
              typed := fun hp => by cases hp
              listed := fun hp => by cases hp }
  | openDevice =>
      rw [gpsInit, hpc] at hstep
      have hclosed : s.opened = false := h.unopened (by rw [hpc]; rfl)
      cases hstep
      cases ok with
      | false => exact h.goTo rfl (fun hu => by cases hu) (fun hp => by cases hp) (by rw [hpc]; rfl)
      | true =>
          exact
            { isr := fun _ => rfl
              indicate := fun _ => h.indicated hpc
              unopened := fun hu => by cases hu
              pastOpen := fun _ => rfl
              indicated := fun hp => by cases hp
              ready := fun _ hp => by cases hp
              unready := fun _ => h.unready (Or.inl hclosed)
              typed := fun hp => by cases hp
              listed := fun hp => by cases hp }
  | eventObject =>
      rw [gpsInit, hpc] at hstep
      cases hstep
      exact
        { isr := h.isr
          indicate := h.indicate
          unopened := fun hu => by cases hu
          pastOpen := fun _ => h.pastOpen (by rw [hpc]; rfl)
          indicated := fun hp => by cases hp
          ready := fun _ hp => by cases hp
          unready := fun _ => h.unready (Or.inr (by rw [hpc]; rfl))
          typed := fun _ => rfl
          listed := fun hp => by cases hp }
  | eventList =>
      rw [gpsInit, hpc] at hstep
      cases hstep
      exact
        { isr := h.isr
          indicate := h.indicate
          unopened := fun hu => by cases hu
          pastOpen := fun _ => h.pastOpen (by rw [hpc]; rfl)
          indicated := fun hp => by cases hp
          ready := fun _ hp => by cases hp
          unready := fun _ => h.unready (Or.inr (by rw [hpc]; rfl))
          typed := fun hp => by cases hp
          listed := fun _ => ⟨h.typed hpc, rfl⟩ }
  | eventSet =>
      rw [gpsInit, hpc] at hstep
      cases hstep
      exact
        { isr := h.isr
          indicate := h.indicate
          unopened := fun hu => by cases hu
          pastOpen := fun _ => h.pastOpen (by rw [hpc]; rfl)
          indicated := fun hp => by cases hp
          ready := fun _ _ => ⟨List.mem_cons_self, h.listed hpc⟩
          unready := fun ho => by
            have hopen : s.opened = true := h.pastOpen (by rw [hpc]; rfl)
            rcases ho with ho | hp
            · exact absurd (hopen.symm.trans ho) (by decide)
            · cases hp
          typed := fun hp => by cases hp
          listed := fun hp => by cases hp }
  | startup =>
      rw [gpsInit, hpc] at hstep
      cases hstep
      exact
        { isr := h.isr
          indicate := h.indicate
          unopened := fun hu => by cases hu
          pastOpen := fun hp => by cases hp
          indicated := fun hp => by cases hp
          ready := fun ho _ => h.ready ho (by rw [hpc]; rfl)
          unready := fun ho => h.unready (ho.imp_right fun hp => by cases hp)
          typed := fun hp => by cases hp
          listed := fun hp => by cases hp }
  | returned result =>
      rw [gpsInit, hpc] at hstep
      cases hstep

/-- The interrupts and the reader leave `gps_init` alone: what they change is in the `Uart`
and in the trace. -/
theorem PortInv.uart {s : Port} (h : PortInv s) {uart : Uart} {log : List PortEntry}
    (hisr : uart.isr ≠ 0 → s.opened = true)
    (hlog : .initialised ∈ log ↔ .initialised ∈ s.log) :
    PortInv { s with uart := uart, log := log } where
  isr := hisr
  indicate := h.indicate
  unopened := h.unopened
  pastOpen := h.pastOpen
  indicated := h.indicated
  ready := fun ho hp => ⟨hlog.mpr (h.ready ho hp).1, (h.ready ho hp).2⟩
  unready := fun ho hm => h.unready ho (hlog.mp hm)
  typed := h.typed
  listed := h.listed

/-- Only an append starts an interrupt. -/
theorem isr_uartStep {u u' : Uart} {a : UartAct} (hstep : uartStep u a = some u')
    (ha : ∀ bytes, a ≠ .append bytes) : u'.isr ≤ u.isr := by
  cases a with
  | append bytes => exact absurd rfl (ha bytes)
  | send =>
      simp only [uartStep] at hstep
      split at hstep
      · cases hstep
      · cases hstep
        show u.isr - 1 ≤ u.isr
        omega
  | read =>
      simp only [uartStep] at hstep
      split at hstep
      · cases hstep
        rw [uartRead]
        split <;> exact le_refl _
      · cases hstep
  | recv =>
      simp only [uartStep] at hstep
      split at hstep
      · cases hstep
        rw [uartWait]
        split <;> exact le_refl _
      · cases hstep

/-- `.intput` is not the entry of an initialisation. -/
theorem initialised_mem_intput (typed : Bool) (log : List PortEntry) :
    .initialised ∈ .intput typed :: log ↔ .initialised ∈ log :=
  ⟨fun h => (List.mem_cons.mp h).resolve_left PortEntry.noConfusion, List.mem_cons_of_mem _⟩

/-- The call of the receive indication, when there is an interrupt and it is registered: it
stops at the event, or it sends it. -/
theorem portIntput_cases {s s' : Port} (hindicate : s.uart.isr ≠ 0 → s.indicate = true)
    (hstep : portIntput s = some s') :
    s.uart.isr ≠ 0 ∧
      ((s.typed = false ∨ s.listed = false) ∧
          s' = { s with halted := true, log := .intput s.typed :: s.log } ∨
        s.typed = true ∧ s.listed = true ∧ ∃ uart, uartStep s.uart .send = some uart ∧
          s' = { s with uart := uart, log := .intput s.typed :: s.log }) := by
  rw [portIntput] at hstep
  split at hstep
  · cases hstep
  rename_i hisr
  rw [if_neg (by rw [hindicate hisr]; decide)] at hstep
  refine ⟨hisr, ?_⟩
  split at hstep
  · rename_i hevent
    cases hstep
    exact Or.inl ⟨hevent, rfl⟩
  · rename_i hevent
    obtain ⟨uart, hsend, rfl⟩ := Option.map_eq_some_iff.mp hstep
    rw [not_or, Bool.not_eq_false, Bool.not_eq_false] at hevent
    exact Or.inr ⟨hevent.1, hevent.2, uart, hsend, rfl⟩

/-- **What a step does**: `gps_init` goes on, the receive indication is called, or bytes
arrive or the reader goes on as in `CarLocator.Gps.Uart`. -/
theorem portStep_cases {s s' : Port} {a : PortAct} (hstep : portStep s a = some s') :
    (∃ ok, a = .init ok ∧ gpsInit s ok = some s') ∨
    (a = .intput ∧ portIntput s = some s') ∨
    a ≠ .intput ∧ ∃ a' uart, uartStep s.uart a' = some uart ∧ s' = { s with uart := uart } ∧
      ((∃ bytes, a' = .append bytes) ∧ s.opened = true ∨
        (a' = .read ∨ a' = .recv) ∧ s.started = true) := by
  unfold portStep at hstep
  split at hstep
  · cases hstep
  cases a with
  | init ok => exact Or.inl ⟨ok, rfl, hstep⟩
  | intput => exact Or.inr (Or.inl ⟨rfl, hstep⟩)
  | append bytes =>
      simp only at hstep
      split at hstep
      · rename_i hopened
        obtain ⟨uart, hu, rfl⟩ := Option.map_eq_some_iff.mp hstep
        exact Or.inr (Or.inr ⟨PortAct.noConfusion, _, uart, hu, rfl,
          Or.inl ⟨⟨bytes, rfl⟩, hopened⟩⟩)
      · cases hstep
  | read =>
      simp only at hstep
      split at hstep
      · rename_i hstarted
        obtain ⟨uart, hu, rfl⟩ := Option.map_eq_some_iff.mp hstep
        exact Or.inr (Or.inr ⟨PortAct.noConfusion, _, uart, hu, rfl,
          Or.inr ⟨Or.inl rfl, hstarted⟩⟩)
      · cases hstep
  | recv =>
      simp only at hstep
      split at hstep
      · rename_i hstarted
        obtain ⟨uart, hu, rfl⟩ := Option.map_eq_some_iff.mp hstep
        exact Or.inr (Or.inr ⟨PortAct.noConfusion, _, uart, hu, rfl,
          Or.inr ⟨Or.inr rfl, hstarted⟩⟩)
      · cases hstep

/-- Every step keeps the invariant. -/
theorem portInv_portStep (s : Port) (a : PortAct) (s' : Port) (h : PortInv s)
    (hstep : portStep s a = some s') : PortInv s' := by
  rcases portStep_cases hstep with ⟨ok, -, hinit⟩ | ⟨-, hintput⟩ | ⟨-, a', uart, hu, rfl, hwho⟩
  · exact portInv_gpsInit h hinit
  · obtain ⟨-, ⟨-, rfl⟩ | ⟨-, -, uart, hsend, rfl⟩⟩ :=
      portIntput_cases (fun hisr => h.indicate (h.isr hisr)) hintput
    · have hhalted := h.uart h.isr (initialised_mem_intput s.typed s.log)
      exact ⟨hhalted.isr, hhalted.indicate, hhalted.unopened, hhalted.pastOpen,
        hhalted.indicated, hhalted.ready, hhalted.unready, hhalted.typed, hhalted.listed⟩
    · have hle := isr_uartStep hsend fun _ => UartAct.noConfusion
      exact h.uart (fun hne => h.isr (by omega)) (initialised_mem_intput s.typed s.log)
  · refine h.uart ?_ Iff.rfl
    rcases hwho with ⟨-, hopened⟩ | ⟨ha, -⟩
    · exact fun _ => hopened
    · have hle := isr_uartStep hu
        (by rcases ha with rfl | rfl <;> exact fun _ => UartAct.noConfusion)
      exact fun hne => h.isr (by omega)

/-! ### When the event is ready -/

/-- In a sound trace no signal is sent before the initialisation. -/
theorem EventReady.initialised_of_intput {log : List PortEntry} (h : EventReady log)
    {typed : Bool} (hmem : .intput typed ∈ log) : .initialised ∈ log := by
  induction log with
  | nil => cases hmem
  | cons e log ih =>
      rcases List.mem_cons.mp hmem with rfl | hmem
      · exact List.mem_cons_of_mem _ h.1.1
      · exact List.mem_cons_of_mem _ (ih h.2 hmem)

/-- `gps_init` writes to the trace at the end of `rt_event_init` only. -/
theorem gpsInit_log {s s' : Port} {ok : Bool} (hstep : gpsInit s ok = some s') :
    s'.log = s.log ∨ s.pc = .eventSet ∧ s'.log = .initialised :: s.log := by
  cases hpc : s.pc with
  | eventSet =>
      rw [gpsInit, hpc] at hstep
      cases hstep
      exact Or.inr ⟨rfl, rfl⟩
  | returned result =>
      rw [gpsInit, hpc] at hstep
      cases hstep
  | _ =>
      rw [gpsInit, hpc] at hstep
      cases hstep
      cases ok <;> exact Or.inl rfl

/-- **The step lemma.** A step keeps the trace sound exactly when it meets the guard. -/
theorem eventReady_portStep (s : Port) (a : PortAct) (s' : Port) (hinv : PortInv s)
    (h : EventReady s.log) (hstep : portStep s a = some s') :
    EventReady s'.log ↔ NotOpening s a := by
  rcases portStep_cases hstep with ⟨ok, rfl, hinit⟩ | ⟨rfl, hintput⟩ | ⟨hne, a', uart, -, rfl, -⟩
  · refine iff_of_true ?_ trivial
    rcases gpsInit_log hinit with hlog | ⟨hpc, hlog⟩
    · rw [hlog]
      exact h
    · rw [hlog]
      -- a signal before this would have come to an event that was not initialised
      refine ⟨fun typed hmem => ?_, h⟩
      exact hinv.unready (Or.inr (by rw [hpc]; rfl)) (h.initialised_of_intput hmem)
  · obtain ⟨hisr, hcases⟩ := portIntput_cases (fun hisr => hinv.indicate (hinv.isr hisr)) hintput
    have hopened := hinv.isr hisr
    have hlog : s'.log = .intput s.typed :: s.log := by
      rcases hcases with ⟨-, rfl⟩ | ⟨-, -, uart, -, rfl⟩ <;> rfl
    rw [hlog]
    show (.initialised ∈ s.log ∧ s.typed = true) ∧ EventReady s.log ↔ s.pc.opening = false
    constructor
    · rintro ⟨⟨hmem, -⟩, -⟩
      by_contra hopening
      exact hinv.unready (Or.inr (Bool.eq_true_of_not_eq_false hopening)) hmem
    · intro hopening
      have hready := hinv.ready hopened hopening
      exact ⟨⟨hready.1, hready.2.1⟩, h⟩
  · refine iff_of_true h ?_
    cases a with
    | intput => exact absurd rfl hne
    | init _ | append _ | read | recv => trivial

/-- **Every `uart_intput` finds the event initialised, its assertion holds and no signal is
wiped, in every state of a run, exactly when no interrupt of the run comes to its receive
indication while `gps_init` is between `rt_device_open` and the end of `rt_event_init`.** -/
theorem eventReady_iff (as : List PortAct) :
    Always portStep (fun s => EventReady s.log) portInit as ↔
      Guarded portStep NotOpening portInit as :=
  always_iff_guarded_of_invariant portInv_portStep eventReady_portStep portInv_portInit trivial

/-- A byte arrives as soon as the device is open. -/
theorem event_not_ready_byte_at_open :
    ¬ Always portStep (fun s => EventReady s.log) portInit
      [.init true, .init true, .init true, .init true, .append [36], .intput] := by
  decide

/-! ### The hand-over from `gps_init` on -/

/-- The hand-over is safe, and before the event is initialised nobody has used it. -/
structure PortSafe (s : Port) : Prop where
  inv : PortInv s
  ready : EventReady s.log
  safe : Safe s.uart
  untouched : .initialised ∉ s.log → s.uart.event.set = 0
  reader : s.started = false → s.uart.reader = .reading
  started : s.started = true → .initialised ∈ s.log

/-- The steps of `gps_init` do not touch what the reader and the interrupts share, as long as
nobody has used the event before it is initialised. -/
theorem PortSafe.uart_gpsInit {s s' : Port} (h : PortSafe s) {ok : Bool}
    (hstep : gpsInit s ok = some s') : s'.uart = s.uart := by
  cases hpc : s.pc with
  | eventList =>
      rw [gpsInit, hpc] at hstep
      cases hstep
      -- The list is empty already: the reader cannot wait before it is started.
      have hnot : .initialised ∉ s.log := h.inv.unready (Or.inr (by rw [hpc]; rfl))
      have hreader : s.uart.reader = .reading := by
        refine h.reader (Bool.eq_false_of_not_eq_true fun hs => hnot (h.started hs))
      have hlist : s.uart.event.suspendThread = [] := by
        rw [h.safe.list, hreader]
        rfl
      show { s.uart with event := { s.uart.event with suspendThread := [] } } = s.uart
      rw [← hlist]
  | eventSet =>
      rw [gpsInit, hpc] at hstep
      cases hstep
      -- The set is 0 already: under the guard no signal has come.
      have hset := h.untouched (h.inv.unready (Or.inr (by rw [hpc]; rfl)))
      show { s.uart with event := { s.uart.event with set := 0 } } = s.uart
      rw [← hset]
  | returned result =>
      rw [gpsInit, hpc] at hstep
      cases hstep
  | _ =>
      rw [gpsInit, hpc] at hstep
      cases hstep
      cases ok <;> rfl

/-- The reader thread is started at the end. -/
theorem gpsInit_started {s s' : Port} {ok : Bool} (hstep : gpsInit s ok = some s') :
    s'.started = s.started ∨ s.pc = .startup ∧ s'.started = true := by
  cases hpc : s.pc with
  | startup =>
      rw [gpsInit, hpc] at hstep
      cases hstep
      exact Or.inr ⟨rfl, rfl⟩
  | returned result =>
      rw [gpsInit, hpc] at hstep
      cases hstep
  | _ =>
      rw [gpsInit, hpc] at hstep
      cases hstep
      cases ok <;> exact Or.inl rfl

/-- A signal does not make the reader wait. -/
theorem reader_uartIntput (u : Uart) (h : u.reader = .reading) :
    (uartIntput u).reader = .reading := by
  rw [uartIntput]
  split
  · exact h
  · rfl

/-- A guarded step keeps the hand-over safe. -/
theorem portSafe_portStep (s : Port) (a : PortAct) (s' : Port) (h : PortSafe s)
    (hguard : NotOpening s a) (hstep : portStep s a = some s') : PortSafe s' := by
  have hinv := portInv_portStep s a s' h.inv hstep
  have hready := (eventReady_portStep s a s' h.inv h.ready hstep).mpr hguard
  rcases portStep_cases hstep with ⟨ok, rfl, hinit⟩ | ⟨rfl, hintput⟩ |
    ⟨-, a', uart, hu, rfl, hwho⟩
  · have huart := h.uart_gpsInit hinit
    have hlog : .initialised ∈ s.log → .initialised ∈ s'.log := by
      rcases gpsInit_log hinit with heq | ⟨-, heq⟩ <;> rw [heq]
      · exact id
      · exact List.mem_cons_of_mem _
    refine ⟨hinv, hready, huart ▸ h.safe, fun hnot => ?_, fun hs => ?_, fun hs => ?_⟩
    · rw [huart]
      exact h.untouched fun hm => hnot (hlog hm)
    · rw [huart]
      rcases gpsInit_started hinit with heq | ⟨-, heq⟩
      · exact h.reader (heq ▸ hs)
      · exact absurd (heq.symm.trans hs) (by decide)
    · rcases gpsInit_started hinit with heq | ⟨hpc, -⟩
      · exact hlog (h.started (heq ▸ hs))
      · exact hlog (h.inv.ready (h.inv.pastOpen (by rw [hpc]; rfl)) (by rw [hpc]; rfl)).1
  · obtain ⟨hisr, hcases⟩ :=
      portIntput_cases (fun hisr => h.inv.indicate (h.inv.isr hisr)) hintput
    obtain ⟨hmem, htyped, hlisted⟩ := h.inv.ready (h.inv.isr hisr) hguard
    rcases hcases with ⟨hno, -⟩ | ⟨-, -, uart, hsend, rfl⟩
    · rw [htyped, hlisted] at hno
      exact absurd hno (by decide)
    · refine ⟨hinv, hready, safe_uartStep _ _ _ h.safe hsend, fun hnot => ?_, fun hs => ?_,
        fun _ => List.mem_cons_of_mem _ hmem⟩
      · exact absurd (List.mem_cons_of_mem _ hmem) hnot
      · simp only [uartStep] at hsend
        rw [if_neg hisr] at hsend
        cases hsend
        exact reader_uartIntput _ (h.reader hs)
  · have hsafe := safe_uartStep _ _ _ h.safe hu
    rcases hwho with ⟨⟨bytes, rfl⟩, -⟩ | ⟨-, hstarted⟩
    · simp only [uartStep] at hu
      split at hu
      · cases hu
      · cases hu
        exact ⟨hinv, hready, hsafe, h.untouched, h.reader, h.started⟩
    · have hmem := h.started hstarted
      exact ⟨hinv, hready, hsafe, fun hnot => absurd hmem hnot,
        fun hs => absurd (hstarted.symm.trans hs) (by decide), h.started⟩

/-- **The hand-over loses and repeats nothing from `gps_init` on**, in every run in which no
interrupt comes to its receive indication while the device is being opened. -/
theorem port_handover (as : List PortAct) (hguard : Guarded portStep NotOpening portInit as) :
    Always portStep
      (fun s => s.uart.returned <+: s.uart.received ∧
        ¬ (s.uart.reader = .suspended ∧ s.uart.fifo ≠ [] ∧ s.uart.isr = 0)) portInit as := by
  have hinit : PortSafe portInit :=
    ⟨portInv_portInit, trivial, safe_uartInit, fun _ => rfl, fun _ => rfl, fun h => by cases h⟩
  exact (always_of_guarded portSafe_portStep hinit hguard).mono fun _ h => h.safe.handover

end CarLocator.Gps
