import CarLocator.Kernel.HeapRealloc
import CarLocator.Library.Runs

/-!
# `CarLocator.Kernel.HeapRuns`: the heap and its clients

The threads call `rt_malloc`, `rt_calloc`, `rt_realloc` and `rt_free` in any order, and write to
the memory they hold in between. A client that frees, resizes and writes only what it holds is
safe: every call of it succeeds or returns `RT_NULL`, no two blocks overlap, and no call changes
what is in the blocks of the others (`heap_sound`). As long as no block is made smaller in place,
a call fails only when no free block is large enough (`heap_complete`).
-/

set_option autoImplicit false

namespace CarLocator.Kernel

open CarLocator.Library

/-- The heap, and what the clients hold of it: addresses, and the sizes that were asked for. -/
structure Clients where
  heap : Heap
  held : List (Nat × Nat)

/-- What a client does. -/
inductive Call
  | malloc (size : Nat)
  | calloc (count size : Nat)
  | realloc (a size : Nat)
  | free (a : Nat)
  | write (x : Nat) (value : UInt8)
  deriving DecidableEq

/-- What is held when a block has been returned. -/
def release (held : List (Nat × Nat)) (a : Nat) : List (Nat × Nat) := held.filter (·.1 ≠ a)

/-- What is held after a call has returned a pointer. -/
def receive (held : List (Nat × Nat)) (size : Nat) : Heap × Option Nat → Clients
  | (h, none) => ⟨h, held⟩
  | (h, some a) => ⟨h, (a, size) :: held⟩

/-- One call. If it returns `RT_NULL`, `rt_realloc` has left the old block to its holder. -/
def heapStep (s : Clients) : Call → Option Clients
  | .malloc size => (rtMalloc s.heap size).map (receive s.held size)
  | .calloc count size => (rtCalloc s.heap count size).map (receive s.held (count * size))
  | .realloc a size => (rtRealloc s.heap a size).map fun
      | (h, none) => ⟨h, s.held⟩
      | (h, some a') => ⟨h, (a', size) :: release s.held a⟩
  | .free a => (rtFree s.heap a).map fun h => ⟨h, release s.held a⟩
  | .write x value =>
    some { s with heap := { s.heap with mem := Function.update s.heap.mem x value } }

/-- A client frees, resizes and writes what is held, and asks for sizes that `RT_ALIGN` does not
wrap. -/
def Allowed (s : Clients) : Call → Prop
  | .malloc size => size + 3 < 2 ^ 32
  | .calloc count size => count * size + 3 < 2 ^ 32
  | .realloc a size => a ∈ s.held.map Prod.fst ∧ size ≠ 0 ∧ size + 3 < 2 ^ 32
  | .free a => a ∈ s.held.map Prod.fst
  | .write x _ => ∃ e ∈ s.held, e.1 ≤ x ∧ x < e.1 + e.2

instance (s : Clients) : ∀ call, Decidable (Allowed s call)
  | .malloc size => inferInstanceAs (Decidable (size + 3 < 2 ^ 32))
  | .calloc count size => inferInstanceAs (Decidable (count * size + 3 < 2 ^ 32))
  | .realloc a size =>
    inferInstanceAs (Decidable (a ∈ s.held.map Prod.fst ∧ size ≠ 0 ∧ size + 3 < 2 ^ 32))
  | .free a => inferInstanceAs (Decidable (a ∈ s.held.map Prod.fst))
  | .write x _ => inferInstanceAs (Decidable (∃ e ∈ s.held, e.1 ≤ x ∧ x < e.1 + e.2))

/-- The blocks in use are those that are held. -/
structure HeldIn (tiles : List Tile) (held : List (Nat × Nat)) : Prop where
  used : ∀ e ∈ held, UsedAt sizeofStructMem 0 tiles e.1 e.2
  known : ∀ a n, UsedAt sizeofStructMem 0 tiles a n → a ∈ held.map Prod.fst
  distinct : held.Pairwise fun e e' => e.1 ≠ e'.1

/-- What one call does: the heap stays intact, and the memory of what is held before and after
it is left alone. -/
structure Steps (s s' : Clients) (call : Call) (tiles' : List Tile) : Prop where
  holds : s'.heap.Holds tiles'
  size : s'.heap.memSizeAligned = s.heap.memSizeAligned
  held : HeldIn tiles' s'.held
  mem : ∀ e ∈ s.held, e ∈ s'.held → ∀ x, e.1 ≤ x → x < e.1 + e.2 →
    (∀ value, call ≠ .write x value) → s'.heap.mem x = s.heap.mem x

theorem mem_release {held : List (Nat × Nat)} {a : Nat} {e : Nat × Nat} :
    e ∈ release held a ↔ e ∈ held ∧ e.1 ≠ a := by
  simp [release]

theorem mem_map_release {held : List (Nat × Nat)} {a c : Nat} :
    c ∈ (release held a).map Prod.fst ↔ c ∈ held.map Prod.fst ∧ c ≠ a := by
  simp only [List.mem_map, mem_release]
  constructor
  · rintro ⟨e, ⟨he, hne⟩, rfl⟩
    exact ⟨⟨e, he, rfl⟩, hne⟩
  · rintro ⟨⟨e, he, rfl⟩, hne⟩
    exact ⟨e, ⟨he, hne⟩, rfl⟩

/-- A block is given to a client. -/
theorem HeldIn.gives {h h' : Heap} {tiles tiles' : List Tile} {held : List (Nat × Nat)}
    {a n : Nat} (hheld : HeldIn tiles held) (hgives : Gives h h' tiles tiles' a n) :
    HeldIn tiles' ((a, n) :: held) := by
  have hne : ∀ e ∈ held, a ≠ e.1 := fun e he heq =>
    hgives.fresh e.2 (heq ▸ hheld.used e he)
  refine ⟨fun e he => ?_, fun c m hc => ?_, List.pairwise_cons.mpr ⟨hne, hheld.distinct⟩⟩
  · rcases List.mem_cons.mp he with rfl | he
    · exact hgives.given
    · exact (hgives.others _ _ (hne e he).symm).mpr (hheld.used e he)
  · by_cases hca : c = a
    · exact List.mem_cons.mpr (.inl hca)
    · exact List.mem_cons_of_mem _ (hheld.known c m ((hgives.others c m hca).mp hc))

/-- A client gives one back. -/
theorem HeldIn.returns {h h' : Heap} {tiles tiles' : List Tile} {held : List (Nat × Nat)}
    {a : Nat} (hheld : HeldIn tiles held) (hreturns : Returns h h' tiles tiles' a) :
    HeldIn tiles' (release held a) := by
  refine ⟨fun e he => ?_, fun c m hc => ?_, hheld.distinct.filter _⟩
  · obtain ⟨he, hne⟩ := mem_release.mp he
    exact (hreturns.used _ _).mpr ⟨hheld.used e he, hne⟩
  · obtain ⟨hc, hne⟩ := (hreturns.used c m).mp hc
    exact mem_map_release.mpr ⟨hheld.known c m hc, hne⟩

/-- A block is replaced. -/
theorem HeldIn.replaces {h h' : Heap} {tiles tiles' : List Tile} {held : List (Nat × Nat)}
    {a a' n : Nat} (hheld : HeldIn tiles held) (hreplaces : Replaces h h' tiles tiles' a a' n) :
    HeldIn tiles' ((a', n) :: release held a) := by
  have hne : ∀ e ∈ release held a, a' ≠ e.1 := fun e he heq => by
    obtain ⟨he, hea⟩ := mem_release.mp he
    rcases hreplaces.fresh with hsame | hfresh
    · exact hea (heq.symm.trans hsame)
    · exact hfresh e.2 (heq ▸ hheld.used e he)
  refine ⟨fun e he => ?_, fun c m hc => ?_,
    List.pairwise_cons.mpr ⟨hne, hheld.distinct.filter _⟩⟩
  · rcases List.mem_cons.mp he with rfl | he
    · exact hreplaces.given
    · obtain ⟨hin, hea⟩ := mem_release.mp he
      exact (hreplaces.others _ _ (hne e he).symm).mpr ⟨hheld.used e hin, hea⟩
  · by_cases hca : c = a'
    · exact List.mem_cons.mpr (.inl hca)
    · obtain ⟨hc, hne⟩ := (hreplaces.others c m hca).mp hc
      exact List.mem_cons_of_mem _ (mem_map_release.mpr ⟨hheld.known c m hc, hne⟩)

/-- A new block comes to what is held. -/
theorem steps_gives {s : Clients} {tiles tiles' : List Tile} {h' : Heap} {a n : Nat} {call : Call}
    (hheld : HeldIn tiles s.held) (hgives : Gives s.heap h' tiles tiles' a n) :
    Steps s ⟨h', (a, n) :: s.held⟩ call tiles' :=
  ⟨hgives.holds, hgives.size, hheld.gives hgives,
    fun e he _ x hlo hhi _ => hgives.mem x ((hheld.used e he).inUse hlo hhi)⟩

/-- Nothing has happened. -/
theorem steps_same {s : Clients} {tiles : List Tile} {call : Call} (hh : s.heap.Holds tiles)
    (hheld : HeldIn tiles s.held) : Steps s s call tiles :=
  ⟨hh, rfl, hheld, fun _ _ _ _ _ _ _ => rfl⟩

/-- The call leaves a free block below `lfree`. -/
def HidesBlock (s : Clients) : Call → Prop
  | .realloc a size => Hides s.heap a size
  | _ => False

instance (s : Clients) : ∀ call, Decidable (HidesBlock s call)
  | .realloc a size => inferInstanceAs (Decidable (Hides s.heap a size))
  | .malloc _ | .calloc _ _ | .free _ | .write _ _ => inferInstanceAs (Decidable False)

/-- **The step.** An allowed call succeeds. -/
theorem heapStep_spec {s : Clients} {tiles : List Tile} (hh : s.heap.Holds tiles)
    (hheld : HeldIn tiles s.held) {call : Call} (hallowed : Allowed s call) :
    ∃ s' tiles', heapStep s call = some s' ∧ Steps s s' call tiles'
      ∧ (¬ HidesBlock s call → s.heap.Lowest tiles → s'.heap.Lowest tiles') := by
  cases call with
  | malloc size =>
      rcases rtMalloc_gives hh hallowed with hcall | ⟨h', a, tiles', hcall, hgives, hlowest⟩
      · exact ⟨s, tiles, by rw [heapStep, hcall]; rfl, steps_same hh hheld, fun _ hlow => hlow⟩
      · exact ⟨_, tiles', by rw [heapStep, hcall]; rfl, steps_gives hheld hgives,
          fun _ => hlowest⟩
  | calloc count size =>
      rcases rtCalloc_gives hh hallowed with hcall | ⟨h', a, tiles', hcall, hgives, hlowest, -⟩
      · exact ⟨s, tiles, by rw [heapStep, hcall]; rfl, steps_same hh hheld, fun _ hlow => hlow⟩
      · exact ⟨_, tiles', by rw [heapStep, hcall]; rfl, steps_gives hheld hgives,
          fun _ => hlowest⟩
  | realloc a size =>
      obtain ⟨hmem, hpos, hsize⟩ := hallowed
      obtain ⟨e, he, rfl⟩ := List.mem_map.mp hmem
      have hused := hheld.used e he
      rcases rtRealloc_replaces hh hused hpos hsize with
        hcall | ⟨h', a', tiles', hcall, hreplaces, hlowest⟩
      · exact ⟨s, tiles, by rw [heapStep, hcall]; rfl, steps_same hh hheld, fun _ hlow => hlow⟩
      · refine ⟨⟨h', (a', size) :: release s.held e.1⟩, tiles', by rw [heapStep, hcall]; rfl,
          ⟨hreplaces.holds, hreplaces.size, hheld.replaces hreplaces, ?_⟩, hlowest⟩
        intro c hc hc' x hlo hhi _
        have hheld' := hheld.replaces hreplaces
        by_cases hca : c.1 = a'
        · -- the block has stayed where it was
          rcases hreplaces.fresh with rfl | hfresh
          · obtain ⟨i, rfl⟩ := Nat.exists_eq_add_of_le hlo
            rw [hca]
            have hroom := hheld.used c hc
            rw [hca] at hroom
            have hsame : c = (e.1, size) := by
              rcases List.mem_cons.mp hc' with hsame | hrest
              · rw [hsame]
              · exact absurd hca (mem_release.mp hrest).2
            refine hreplaces.content c.2 hroom i (by omega) ?_
            rw [hsame] at hhi
            simp only at hhi
            omega
          · exact absurd (hca ▸ hheld.used c hc) (hfresh c.2)
        · exact hreplaces.mem c.1 c.2 hca (hheld'.used c hc') x hlo hhi
  | free a =>
      obtain ⟨e, he, rfl⟩ := List.mem_map.mp hallowed
      obtain ⟨h', tiles', hcall, hreturns, hlowest⟩ := rtFree_returns hh (hheld.used e he)
      refine ⟨_, tiles', by rw [heapStep, hcall]; rfl, ⟨hreturns.holds, hreturns.size,
        hheld.returns hreturns, fun c _ hc' x hlo hhi _ => ?_⟩, fun _ => hlowest⟩
      exact hreturns.mem x (((hheld.returns hreturns).used c hc').inUse hlo hhi)
  | write x value =>
      obtain ⟨e, he, hlo, hhi⟩ := hallowed
      have hin := (hheld.used e he).inUse hlo hhi
      refine ⟨_, tiles, rfl, ⟨hh.write fun y hy => Function.update_of_ne ?_ _ _, rfl, hheld,
        fun c _ _ y _ _ hne => Function.update_of_ne ?_ _ _⟩, fun _ hlow => hlow⟩
      · rintro rfl
        exact hy hin
      · rintro rfl
        exact hne value rfl

/-- The clients before the first call. -/
def Clients.init (mem : Memory) (size : Nat) : Clients := ⟨rtSystemHeapInit mem size, []⟩

/-- What the clients can rely on. -/
structure Sound (s : Clients) : Prop where
  /-- no assertion fails and every search ends -/
  succeeds : ∀ call, Allowed s call → ∃ s', heapStep s call = some s'
  /-- no two blocks that are held overlap -/
  disjoint : s.held.Pairwise fun e e' => e.1 + e.2 ≤ e'.1 ∨ e'.1 + e'.2 ≤ e.1
  /-- they are aligned and lie in the heap -/
  inside : ∀ e ∈ s.held, sizeofStructMem ≤ e.1 ∧ e.1 % 4 = 0 ∧ e.1 + e.2 ≤ s.heap.heapEnd
  /-- a call does not change what another client holds -/
  kept : ∀ call s', Allowed s call → heapStep s call = some s' →
    ∀ e ∈ s.held, e ∈ s'.held → ∀ x, e.1 ≤ x → x < e.1 + e.2 →
      (∀ value, call ≠ .write x value) → s'.heap.mem x = s.heap.mem x
  /-- `rt_realloc` keeps what is in a block -/
  resized : ∀ e ∈ s.held, ∀ size h' a', size ≠ 0 → size + 3 < 2 ^ 32 →
    rtRealloc s.heap e.1 size = some (h', some a') →
      ∀ i, i < e.2 → i < size → h'.mem (a' + i) = s.heap.mem (e.1 + i)
  /-- `rt_calloc` clears it -/
  zeroed : ∀ count size h' a, count * size + 3 < 2 ^ 32 →
    rtCalloc s.heap count size = some (h', some a) → ∀ i, i < count * size → h'.mem (a + i) = 0
  /-- when everything has been returned, the heap is one free block again -/
  emptied : s.held = [] →
    s.heap.Holds [⟨s.heap.heapEnd, false⟩] ∧ s.heap.usedMem = 0

/-- A heap whose blocks in use are held is sound. -/
theorem sound_of_holds {s : Clients} {tiles : List Tile} (hh : s.heap.Holds tiles)
    (hheld : HeldIn tiles s.held) : Sound s where
  succeeds := fun call hallowed => by
    obtain ⟨s', -, hstep, -⟩ := heapStep_spec hh hheld hallowed
    exact ⟨s', hstep⟩
  disjoint := hheld.distinct.imp_of_mem fun {e e'} he he' hne => by
    have hdisjoint := (hheld.used e he).disjoint (hheld.used e' he')
    omega
  inside := fun e he => by
    have hrange := (hheld.used e he).range
    have htotal := hh.tiled.end_eq
    obtain ⟨pre, b, post, rfl, -, haddress, -⟩ := (hheld.used e he).split
    have hmod := total_mod fun c hc => hh.aligned c (List.mem_append_left (b :: post) hc)
    simp only [sizeofStructMem] at haddress hrange ⊢
    omega
  kept := fun call s' hallowed hstep => by
    obtain ⟨s'', tiles', hstep', hsteps, -⟩ := heapStep_spec hh hheld hallowed
    obtain rfl : s'' = s' := Option.some.inj (hstep'.symm.trans hstep)
    exact hsteps.mem
  resized := fun e he size h' a' hpos hsize hcall => by
    rcases rtRealloc_replaces hh (hheld.used e he) hpos hsize with
      hfails | ⟨h'', a'', tiles', hcall', hreplaces, -⟩
    · rw [hfails] at hcall
      cases hcall
    · rw [hcall'] at hcall
      cases hcall
      exact hreplaces.content e.2 (hheld.used e he)
  zeroed := fun count size h' a hsize hcall => by
    rcases rtCalloc_gives hh hsize with hfails | ⟨h'', a'', tiles', hcall', -, -, hzero⟩
    · rw [hfails] at hcall
      cases hcall
    · rw [hcall'] at hcall
      cases hcall
      exact hzero
  emptied := fun hnone => by
    have hfree := used_eq_false (fun b hb => Nat.le_of_lt (hh.large b hb)) fun a n ha => by
      have hmem := hheld.known a n ha
      rw [hnone] at hmem
      cases hmem
    have htotal := hh.tiled.end_eq
    rw [Nat.zero_add] at htotal
    have hne : tiles ≠ [] := by
      rintro rfl
      have hend : 0 = s.heap.memSizeAligned + 12 := htotal
      omega
    -- free blocks next to each other are joined, so there is only one
    have hone := eq_singleton_of_separate hh.separate hne hfree
    rw [htotal] at hone
    refine ⟨hone ▸ hh, ?_⟩
    rw [hh.usedMem, hone]
    rfl

/-- The heap as it starts is held by nobody. -/
theorem heldIn_init (size : Nat) : HeldIn [⟨size, false⟩] [] := by
  refine ⟨fun e he => ?_, fun a n ha => ?_, List.Pairwise.nil⟩
  · cases he
  · rcases ha with ⟨hused, -⟩ | hnone
    · cases hused
    · exact hnone.elim

/-- The blocks of the heap in every state of a run. -/
theorem always_holds {mem : Memory} {size : Nat} (hleast : minSizeAligned ≤ size)
    (halign : size % 4 = 0) (hbound : size + 24 < 2 ^ 32) {calls : List Call}
    (hguard : Guarded heapStep Allowed (Clients.init mem size) calls) :
    Always heapStep (fun s => ∃ tiles, s.heap.Holds tiles ∧ HeldIn tiles s.held)
      (Clients.init mem size) calls := by
  refine always_of_guarded (fun s call s' hinv hallowed hstep => ?_) ?_ hguard
  · obtain ⟨tiles, hh, hheld⟩ := hinv
    obtain ⟨s'', tiles', hstep', hsteps, -⟩ := heapStep_spec hh hheld hallowed
    obtain rfl : s'' = s' := Option.some.inj (hstep'.symm.trans hstep)
    exact ⟨tiles', hsteps.holds, hsteps.held⟩
  · exact ⟨_, (rtSystemHeapInit_holds mem hleast halign hbound).1, heldIn_init _⟩

/-- **The heap is sound**, in every state of every run of clients that keep to the rules. -/
theorem heap_sound {mem : Memory} {size : Nat} (hleast : minSizeAligned ≤ size)
    (halign : size % 4 = 0) (hbound : size + 24 < 2 ^ 32) {calls : List Call}
    (hguard : Guarded heapStep Allowed (Clients.init mem size) calls) :
    Always heapStep Sound (Clients.init mem size) calls :=
  (always_holds hleast halign hbound hguard).mono fun _ ⟨_, hh, hheld⟩ => sound_of_holds hh hheld

/-- Two threads take blocks, one of them makes its block smaller and returns it. -/
theorem heap_sound_shrink : Always heapStep Sound (Clients.init (fun _ => 0) 96)
    [.malloc 60, .malloc 12, .write 13 7, .realloc 12 12, .free 12] :=
  heap_sound (by decide) (by decide) (by decide) (by decide +kernel)

/-- `rt_malloc` takes the first free block in which the search finds room, and fails only when
there is none. -/
def Complete (s : Clients) : Prop :=
  ∃ tiles, s.heap.Holds tiles ∧ HeldIn tiles s.held ∧
    ∀ size, size ≠ 0 → rtAlign size ≤ s.heap.memSizeAligned →
      (rtMalloc s.heap size = some (s.heap, none)
          ∧ ∀ pre b post, tiles = pre ++ b :: post → ¬ Fits s.heap (request size) (total pre) b)
        ∨ ∃ h' pre b post, rtMalloc s.heap size = some (h', some (total pre + sizeofStructMem))
          ∧ tiles = pre ++ b :: post ∧ Fits s.heap (request size) (total pre) b
          ∧ ∀ pre' b' post', pre = pre' ++ b' :: post' →
            ¬ Fits s.heap (request size) (total pre') b'

/-- It is so when no free block lies below `lfree`. -/
theorem complete_of_lowest {s : Clients} {tiles : List Tile} (hh : s.heap.Holds tiles)
    (hheld : HeldIn tiles s.held) (hlow : s.heap.Lowest tiles) : Complete s := by
  -- a block with room is free, so the search does not start behind it
  have hbelow : ∀ pre b post size, tiles = pre ++ b :: post →
      Fits s.heap (request size) (total pre) b → s.heap.lfree ≤ total pre := by
    rintro pre b post size rfl hfit
    refine hlow (total pre) (freeAt_append.mpr (.inr (.inl ⟨?_, hfit.1⟩)))
    rw [Nat.zero_add]
  refine ⟨tiles, hh, hheld, fun size hpos hle => ?_⟩
  obtain ⟨result, hcall, hresult⟩ := rtMalloc_spec hh size
  cases hresult with
  | none hnone =>
      refine .inl ⟨hcall, fun pre b post heq hfit => ?_⟩
      rcases hnone with hzero | hlarge | hnone
      · exact hpos hzero
      · omega
      · exact hnone pre b post heq (hbelow pre b post size heq hfit) hfit
  | some pre b post h' _ _ htiles hfit hfirst _ _ =>
      refine .inr ⟨h', pre, b, post, hcall, htiles, hfit, fun pre' b' post' heq hfit' => ?_⟩
      have hcut : tiles = pre' ++ b' :: (post' ++ b :: post) := by
        rw [htiles, heq, List.append_assoc, List.cons_append]
      exact hfirst pre' b' post' heq (hbelow _ _ _ size hcut hfit') hfit'

/-- **First fit.** As long as no block below `lfree` is made smaller in place, `rt_malloc` finds
the first free block with room, in every state of every run. -/
theorem heap_complete {mem : Memory} {size : Nat} (hleast : minSizeAligned ≤ size)
    (halign : size % 4 = 0) (hbound : size + 24 < 2 ^ 32) {calls : List Call}
    (hguard : Guarded heapStep (fun s call => Allowed s call ∧ ¬ HidesBlock s call)
      (Clients.init mem size) calls) :
    Always heapStep Complete (Clients.init mem size) calls := by
  have hlowest : Always heapStep
      (fun s => ∃ tiles, s.heap.Holds tiles ∧ HeldIn tiles s.held ∧ s.heap.Lowest tiles)
      (Clients.init mem size) calls := by
    refine always_of_guarded (fun s call s' hinv hallowed hstep => ?_) ?_ hguard
    · obtain ⟨tiles, hh, hheld, hlow⟩ := hinv
      obtain ⟨s'', tiles', hstep', hsteps, hlow'⟩ := heapStep_spec hh hheld hallowed.1
      obtain rfl : s'' = s' := Option.some.inj (hstep'.symm.trans hstep)
      exact ⟨tiles', hsteps.holds, hsteps.held, hlow' hallowed.2 hlow⟩
    · obtain ⟨hh, hlow⟩ := rtSystemHeapInit_holds mem hleast halign hbound
      exact ⟨_, hh, heldIn_init _, hlow⟩
  exact hlowest.mono fun _ ⟨_, hh, hheld, hlow⟩ => complete_of_lowest hh hheld hlow

/-- A block is returned and the room taken again. -/
theorem heap_complete_reuse : Always heapStep Complete (Clients.init (fun _ => 0) 96)
    [.malloc 60, .malloc 12, .free 12, .malloc 16] :=
  heap_complete (by decide) (by decide) (by decide) (by decide +kernel)

/-- When a block below `lfree` has been made smaller, `rt_malloc` does not find the free block
behind it. -/
example : ((run heapStep (Clients.init (fun _ => 0) 96)
    [.malloc 60, .malloc 12, .realloc 12 12]).bind fun s => rtMalloc s.heap 12).map (·.2)
      = some none := by decide +kernel

end CarLocator.Kernel
