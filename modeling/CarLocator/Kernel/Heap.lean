import CarLocator.Library.Memory
import CarLocator.Library.Tiling

/-!
# `CarLocator.Kernel.Heap`: the memory heap of the kernel

`rt_malloc`, `rt_free`, `rt_realloc` and `rt_calloc` of `rt-thread/src/mem.c`, from which the AT
client, the sockets and the drivers take their memory. The heap is one piece of byte memory in
which every block starts with a `struct heap_mem`: its magic number and used flag, and the offsets
of the blocks behind and before it. The last entry, `heap_end`, is always used.

Addresses are offsets from `heap_ptr`, which is aligned. The functions take `heap_sem` for as long
as they look at the heap, so each is one step. `none` is a call that does not end, or an
`RT_ASSERT` that fails.
-/

set_option autoImplicit false

namespace CarLocator.Kernel

open CarLocator.Library

/-- `HEAP_MAGIC`. -/
def heapMagic : Nat := 0x1ea0

/-- `MIN_SIZE_ALIGNED`. -/
def minSizeAligned : Nat := 12

/-- `SIZEOF_STRUCT_MEM`. -/
def sizeofStructMem : Nat := 12

/-- `RT_ALIGN(size, RT_ALIGN_SIZE)` on 32 bits. -/
def rtAlign (size : Nat) : Nat := (size + 3) % 2 ^ 32 / 4 * 4

/-- The variables of the heap. -/
structure Heap where
  /-- the bytes from `heap_ptr` on -/
  mem : Memory
  memSizeAligned : Nat
  /-- the lowest free block -/
  lfree : Nat
  usedMem : Nat
  maxMem : Nat

/-- `heap_end`. -/
def Heap.heapEnd (h : Heap) : Nat := h.memSizeAligned + sizeofStructMem

/-- The members of the `struct heap_mem` at an offset. -/
def magicOf (mem : Memory) (p : Nat) : Nat := readNum mem p 2
def usedOf (mem : Memory) (p : Nat) : Nat := readNum mem (p + 2) 2
def nextOf (mem : Memory) (p : Nat) : Nat := readNum mem (p + 4) 4
def prevOf (mem : Memory) (p : Nat) : Nat := readNum mem (p + 8) 4

/-- Assignments to them. -/
def setMagic (mem : Memory) (p v : Nat) : Memory := writeNum mem p 2 v
def setUsed (mem : Memory) (p v : Nat) : Memory := writeNum mem (p + 2) 2 v
def setNext (mem : Memory) (p v : Nat) : Memory := writeNum mem (p + 4) 4 v
def setPrev (mem : Memory) (p v : Nat) : Memory := writeNum mem (p + 8) 4 v

/-- A whole header. -/
def setHeader (mem : Memory) (p used next prev : Nat) : Memory :=
  setPrev (setNext (setUsed (setMagic mem p heapMagic) p used) p next) p prev

/-- `rt_system_heap_init`, when the area is large enough for two headers. -/
def rtSystemHeapInit (mem : Memory) (memSizeAligned : Nat) : Heap :=
  let heapEnd := memSizeAligned + sizeofStructMem
  let mem := setHeader mem 0 0 heapEnd 0
  { mem := setHeader mem heapEnd 1 heapEnd heapEnd
    memSizeAligned := memSizeAligned
    lfree := 0
    usedMem := 0
    maxMem := 0 }

/-- The first half of `plug_holes`: the block behind is joined. -/
def plugForward (h : Heap) (mem : Nat) : Heap :=
  let nmem := nextOf h.mem mem
  if mem ≠ nmem ∧ usedOf h.mem nmem = 0 ∧ nmem ≠ h.heapEnd then
    let next := nextOf h.mem nmem
    { h with
      lfree := if h.lfree = nmem then mem else h.lfree
      mem := setPrev (setNext h.mem mem next) next mem }
  else h

/-- The second half: the block is joined to the one before it. -/
def plugBackward (h : Heap) (mem : Nat) : Heap :=
  let pmem := prevOf h.mem mem
  if pmem ≠ mem ∧ usedOf h.mem pmem = 0 then
    let next := nextOf h.mem mem
    { h with
      lfree := if h.lfree = mem then pmem else h.lfree
      mem := setPrev (setNext h.mem pmem next) next pmem }
  else h

/-- `plug_holes`, with its assertions. -/
def plugHoles (h : Heap) (mem : Nat) : Option Heap :=
  if mem < h.heapEnd ∧ usedOf h.mem mem = 0 then some (plugBackward (plugForward h mem) mem)
  else none

/-- The statistics after a block has been taken. -/
def Heap.count (h : Heap) (size : Nat) : Heap :=
  let usedMem := (h.usedMem + size) % 2 ^ 32
  { h with usedMem := usedMem, maxMem := if h.maxMem < usedMem then usedMem else h.maxMem }

/-- The block `ptr` is cut in two, the second one unused. -/
def splitBlock (mem : Memory) (heapEnd ptr size : Nat) : Memory :=
  let ptr2 := ptr + sizeofStructMem + size
  let next := nextOf mem ptr
  let mem := setNext (setHeader mem ptr2 0 next ptr) ptr ptr2
  if next ≠ heapEnd then setPrev mem next ptr2 else mem

/-- The search of `rt_malloc` for a block. -/
def mallocLoop (h : Heap) (size : Nat) : (fuel ptr : Nat) → Option (Option Nat)
  | 0, _ => none
  | fuel + 1, ptr =>
    if ptr < sizeSub h.memSizeAligned size then
      if usedOf h.mem ptr = 0 ∧ sizeSub (nextOf h.mem ptr) (ptr + sizeofStructMem) ≥ size then
        some (some ptr)
      else mallocLoop h size fuel (nextOf h.mem ptr)
    else some none

/-- The search of `rt_malloc` for the next free block. The assertion behind it says that its
condition has become false. -/
def lfreeLoop (h : Heap) : (fuel lfree : Nat) → Option Nat
  | 0, _ => none
  | fuel + 1, lfree =>
    if usedOf h.mem lfree ≠ 0 ∧ lfree ≠ h.heapEnd then lfreeLoop h fuel (nextOf h.mem lfree)
    else some lfree

/-- An assignment to `lfree`. -/
def Heap.setLfree (h : Heap) (lfree : Nat) : Heap := { h with lfree := lfree }

/-- Every step of a search goes to another offset below `heap_end`, or it does not end. -/
def Heap.fuel (h : Heap) : Nat := h.heapEnd + 2

/-- The block that `rt_malloc` has found is taken. -/
def takeBlock (h : Heap) (ptr size : Nat) : Heap :=
  let room := sizeSub (nextOf h.mem ptr) (ptr + sizeofStructMem)
  let h :=
    if room ≥ size + sizeofStructMem + minSizeAligned then
      ({ h with mem := setUsed (splitBlock h.mem h.heapEnd ptr size) ptr 1 }).count
        (size + sizeofStructMem)
    else
      ({ h with mem := setUsed h.mem ptr 1 }).count (sizeSub (nextOf h.mem ptr) ptr)
  { h with mem := setMagic h.mem ptr heapMagic }

/-- `rt_malloc`: the heap, and the offset of the memory unless it is `RT_NULL`. -/
def rtMalloc (h : Heap) (size : Nat) : Option (Heap × Option Nat) :=
  if size = 0 then some (h, none)
  else
    let size := rtAlign size
    if size > h.memSizeAligned then some (h, none)
    else do
      let size := if size < minSizeAligned then minSizeAligned else size
      match ← mallocLoop h size h.fuel h.lfree with
      | none => pure (h, none)
      | some ptr =>
        let taken := takeBlock h ptr size
        let lfree ← if ptr = taken.lfree then lfreeLoop taken h.fuel taken.lfree
          else some taken.lfree
        -- the assertions after the semaphore is released
        if ptr + sizeofStructMem + size ≤ h.heapEnd ∧ (ptr + sizeofStructMem) % 4 = 0 then
          pure (taken.setLfree lfree, some (ptr + sizeofStructMem))
        else none

/-- `rt_free` of an address that is not `RT_NULL`. -/
def rtFree (h : Heap) (rmem : Nat) : Option Heap :=
  if rmem % 4 = 0 ∧ sizeofStructMem ≤ rmem ∧ rmem < h.heapEnd then
    let mem := rmem - sizeofStructMem
    if usedOf h.mem mem ≠ 0 ∧ magicOf h.mem mem = heapMagic then
      plugHoles { h with
        mem := setMagic (setUsed h.mem mem 0) mem heapMagic
        lfree := if mem < h.lfree then mem else h.lfree
        usedMem := sizeSub h.usedMem (sizeSub (nextOf h.mem mem) mem) } mem
    else none
  else none

/-- The part of `rt_realloc` with the semaphore, for an aligned size: the heap, and the size of
the block if it has to move. -/
def rtReallocInPlace (h : Heap) (rmem newsize : Nat) : Option (Heap × Option Nat) :=
  let ptr := rmem - sizeofStructMem
  let size := sizeSub (nextOf h.mem ptr) (ptr + sizeofStructMem)
  if size = newsize then some (h, none)
  else if newsize + sizeofStructMem + minSizeAligned < size then
    (plugHoles { h with
      mem := splitBlock h.mem h.heapEnd ptr newsize
      usedMem := sizeSub h.usedMem (size - newsize) } (ptr + sizeofStructMem + newsize)).map
        fun h => (h, none)
  else some (h, some size)

/-- `rt_realloc` of memory that is not `RT_NULL`. -/
def rtRealloc (h : Heap) (rmem newsize : Nat) : Option (Heap × Option Nat) :=
  let newsize := rtAlign newsize
  if newsize > h.memSizeAligned then some (h, none)
  else if newsize = 0 then (rtFree h rmem).map fun h => (h, none)
  else if h.heapEnd ≤ rmem then some (h, some rmem)
  else if rmem < sizeofStructMem then none  -- the header would lie before the heap
  else do
    match ← rtReallocInPlace h rmem newsize with
    | (h, none) => pure (h, some rmem)
    | (h, some size) =>
      match ← rtMalloc h newsize with
      | (h, none) => pure (h, none)
      | (h, some nmem) =>
        let h := { h with
          mem := copyBytes h.mem nmem rmem (if size < newsize then size else newsize) }
        let h ← rtFree h rmem
        pure (h, some nmem)

/-- `rt_calloc`. -/
def rtCalloc (h : Heap) (count size : Nat) : Option (Heap × Option Nat) := do
  let size := count * size % 2 ^ 32
  match ← rtMalloc h size with
  | (h, none) => pure (h, none)
  | (h, some p) => pure ({ h with mem := fillBytes h.mem p 0 size }, some p)

/-! ### Headers -/

/-- What the header of a block says. -/
structure HeaderAt (mem : Memory) (prev p : Nat) (b : Tile) : Prop where
  magic : magicOf mem p = heapMagic
  used : usedOf mem p = b.used.toNat
  next : nextOf mem p = p + b.size
  prev : prevOf mem p = prev

/-- It is in the twelve bytes of the header. -/
theorem HeaderAt.congr {mem mem' : Memory} {prev p : Nat} {b : Tile} (h : HeaderAt mem prev p b)
    (hmem : ∀ x, p ≤ x → x < p + 12 → mem' x = mem x) : HeaderAt mem' prev p b where
  magic := (readNum_congr fun x _ _ => hmem x (by omega) (by omega)).trans h.magic
  used := (readNum_congr fun x _ _ => hmem x (by omega) (by omega)).trans h.used
  next := (readNum_congr fun x _ _ => hmem x (by omega) (by omega)).trans h.next
  prev := (readNum_congr fun x _ _ => hmem x (by omega) (by omega)).trans h.prev

/-- A header with another block before it: its `prev` member has changed. -/
theorem HeaderAt.reprev {mem mem' : Memory} {prev prev' p : Nat} {b : Tile}
    (h : HeaderAt mem prev p b) (hmem : ∀ x, p ≤ x → x < p + 8 → mem' x = mem x)
    (hprev : prevOf mem' p = prev') : HeaderAt mem' prev' p b where
  magic := (readNum_congr fun x _ _ => hmem x (by omega) (by omega)).trans h.magic
  used := (readNum_congr fun x _ _ => hmem x (by omega) (by omega)).trans h.used
  next := (readNum_congr fun x _ _ => hmem x (by omega) (by omega)).trans h.next
  prev := hprev

/-- Blocks stay where they are when their bytes do not change. -/
theorem tiled_congr {mem mem' : Memory} {prev p e : Nat} {tiles : List Tile}
    (h : Tiled (HeaderAt mem) prev p tiles e) (hlarge : ∀ b ∈ tiles, 12 < b.size)
    (hmem : ∀ x, p ≤ x → x < e → mem' x = mem x) : Tiled (HeaderAt mem') prev p tiles e :=
  h.imp fun _ q b hb hle hfit hheader => hheader.congr fun x _ _ => by
    have hsize := hlarge b hb
    exact hmem x (by omega) (by omega)

/-- The same when another block comes before them. -/
theorem tiled_reprev {mem mem' : Memory} {prev prev' p e : Nat} {tiles : List Tile}
    (h : Tiled (HeaderAt mem) prev p tiles e) (hlarge : ∀ b ∈ tiles, 12 < b.size)
    (hmem : ∀ x, p ≤ x → x < p + 8 ∨ p + 12 ≤ x → x < e → mem' x = mem x)
    (hprev : tiles ≠ [] → prevOf mem' p = prev') : Tiled (HeaderAt mem') prev' p tiles e := by
  cases tiles with
  | nil => exact h
  | cons b tiles =>
      have hsize := hlarge b List.mem_cons_self
      have hend := h.2.end_eq
      refine ⟨h.1.reprev (fun x _ _ => hmem x (by omega) (.inl (by omega)) (by omega))
        (hprev (List.cons_ne_nil b tiles)), ?_⟩
      refine tiled_congr h.2 (fun c hc => hlarge c (List.mem_cons_of_mem b hc)) fun x _ hx => ?_
      exact hmem x (by omega) (.inr (by omega)) hx

/-- The used flag of a block changes. -/
theorem tiled_setUsed {mem : Memory} {prev p e : Nat} {pre post : List Tile} {b : Tile}
    (h : Tiled (HeaderAt mem) prev p (pre ++ b :: post) e)
    (hlarge : ∀ c ∈ pre ++ b :: post, 12 < c.size) (used : Bool) :
    Tiled (HeaderAt (setMagic (setUsed mem (p + total pre) used.toNat) (p + total pre) heapMagic))
      prev p (pre ++ ⟨b.size, used⟩ :: post) e := by
  obtain ⟨hpre, hheader, hpost⟩ := Tiled.append_iff.mp h
  generalize hq : p + total pre = q at *
  have hb : 12 < b.size := hlarge b (by simp)
  have hmem : ∀ x, x < q ∨ q + 12 ≤ x →
      setMagic (setUsed mem q used.toNat) q heapMagic x = mem x := fun x hx => by
    simp (disch := omega) only [setMagic, setUsed, writeNum_outside]
  have hused : used.toNat < 256 ^ 2 := by cases used <;> decide
  have hrest := tiled_congr hpost (fun c hc => hlarge c (by simp [hc])) fun x hx _ =>
    hmem x (by omega)
  refine Tiled.append_iff.mpr ⟨?_, ?_⟩
  · rw [hq]
    exact tiled_congr hpre (fun c hc => hlarge c (by simp [hc])) fun x _ hx => hmem x (.inl hx)
  · rw [hq]
    refine ⟨⟨?_, ?_, ?_, ?_⟩, hrest⟩
    · simp (disch := decide) only [magicOf, setMagic, readNum_writeNum]
    · simp (disch := omega) only [usedOf, setMagic, setUsed, readNum_writeNum_of_disjoint,
        readNum_writeNum]
    · simp (disch := omega) only [nextOf, setMagic, setUsed, readNum_writeNum_of_disjoint]
      exact hheader.next
    · simp (disch := omega) only [prevOf, setMagic, setUsed, readNum_writeNum_of_disjoint]
      exact hheader.prev

/-- Two blocks are joined. -/
theorem tiled_join {mem : Memory} {prev p e : Nat} {pre post : List Tile} {b c : Tile}
    (h : Tiled (HeaderAt mem) prev p (pre ++ b :: c :: post) e)
    (hlarge : ∀ d ∈ pre ++ b :: c :: post, 12 < d.size) (he : e < 2 ^ 32) {q next : Nat}
    (hq : q = p + total pre) (hnext : next = q + b.size + c.size) :
    Tiled (HeaderAt (setPrev (setNext mem q next) next q)) prev p
      (pre ++ ⟨b.size + c.size, b.used⟩ :: post) e := by
  obtain ⟨hpre, hheader, -, hpost⟩ := Tiled.append_iff.mp h
  rw [← hq] at hpre hheader hpost
  rw [← hnext] at hpost
  have hb : 12 < b.size := hlarge b (by simp)
  have hend := hpost.end_eq
  -- only the `next` of the first block and the `prev` of the one behind them change
  have hmem : ∀ x, x < q + 4 ∨ q + 8 ≤ x → x < next + 8 ∨ next + 12 ≤ x →
      setPrev (setNext mem q next) next q x = mem x := fun x hx hx' => by
    simp (disch := omega) only [setPrev, setNext, writeNum_outside]
  refine Tiled.append_iff.mpr ⟨?_, ?_⟩
  · rw [← hq]
    exact tiled_congr hpre (fun d hd => hlarge d (by simp [hd])) fun x _ hx =>
      hmem x (by omega) (by omega)
  · rw [← hq]
    refine ⟨⟨?_, ?_, ?_, ?_⟩, ?_⟩
    · simp (disch := omega) only [magicOf, setPrev, setNext, readNum_writeNum_of_disjoint]
      exact hheader.magic
    · simp (disch := omega) only [usedOf, setPrev, setNext, readNum_writeNum_of_disjoint]
      exact hheader.used
    · simp (disch := omega) only [nextOf, setPrev, setNext, readNum_writeNum_of_disjoint,
        readNum_writeNum]
      omega
    · simp (disch := omega) only [prevOf, setPrev, setNext, readNum_writeNum_of_disjoint]
      exact hheader.prev
    · show Tiled _ q (q + (b.size + c.size)) post e
      rw [← Nat.add_assoc, ← hnext]
      refine tiled_reprev hpost (fun d hd => hlarge d (by simp [hd])) (fun x hx hx' _ => ?_)
        fun _ => ?_
      · exact hmem x (by omega) hx'
      · simp (disch := omega) only [prevOf, setPrev, readNum_writeNum]

/-- A header that is written as a whole. -/
theorem headerAt_setHeader (mem : Memory) (prev p : Nat) (b : Tile) (hnext : p + b.size < 2 ^ 32)
    (hprev : prev < 2 ^ 32) :
    HeaderAt (setHeader mem p b.used.toNat (p + b.size) prev) prev p b := by
  have hused : b.used.toNat < 256 ^ 2 := by cases b.used <;> decide
  unfold setHeader
  constructor
  · simp (disch := omega) only [magicOf, setPrev, setNext, setUsed, setMagic, heapMagic,
      readNum_writeNum_of_disjoint, readNum_writeNum]
  · simp (disch := omega) only [usedOf, setPrev, setNext, setUsed,
      readNum_writeNum_of_disjoint, readNum_writeNum]
  · simp (disch := omega) only [nextOf, setPrev, setNext, readNum_writeNum_of_disjoint,
      readNum_writeNum]
  · simp (disch := omega) only [prevOf, setPrev, readNum_writeNum]

/-- The bytes that do not change when a block is cut in two. -/
theorem splitBlock_outside {mem : Memory} {e q size x : Nat} (hx : x < q + 4 ∨ q + 8 ≤ x)
    (hx' : x < q + 12 + size ∨ q + 12 + size + 12 ≤ x)
    (hx'' : x < nextOf mem q + 8 ∨ nextOf mem q + 12 ≤ x) : splitBlock mem e q size x = mem x := by
  unfold splitBlock
  simp only [sizeofStructMem, setHeader]
  split <;> simp (disch := omega) only [setPrev, setNext, setUsed, setMagic, writeNum_outside]

/-- A block is cut in two. -/
theorem tiled_split {mem : Memory} {prev p e : Nat} {pre post : List Tile} {b : Tile}
    (h : Tiled (HeaderAt mem) prev p (pre ++ b :: post) e)
    (hlarge : ∀ d ∈ pre ++ b :: post, 12 < d.size) (he : e < 2 ^ 32) {size : Nat}
    (hsize : size + 24 < b.size) {q : Nat} (hq : q = p + total pre) :
    Tiled (HeaderAt (splitBlock mem e q size)) prev p
      (pre ++ ⟨size + 12, b.used⟩ :: ⟨b.size - (size + 12), false⟩ :: post) e := by
  obtain ⟨hpre, hheader, hpost⟩ := Tiled.append_iff.mp h
  rw [← hq] at hpre hheader hpost
  have hend := hpost.end_eq
  have hnext : nextOf mem q = q + b.size := hheader.next
  obtain ⟨ptr2, hptr2⟩ : ∃ ptr2, ptr2 = q + (size + 12) := ⟨_, rfl⟩
  have hnext2 : ptr2 + (b.size - (size + 12)) = q + b.size := by omega
  have hsplit : splitBlock mem e q size
      = if q + b.size ≠ e then
          setPrev (setNext (setHeader mem ptr2 0 (q + b.size) q) q ptr2) (q + b.size) ptr2
        else setNext (setHeader mem ptr2 0 (q + b.size) q) q ptr2 := by
    unfold splitBlock
    rw [hnext, hptr2, show q + sizeofStructMem + size = q + (size + 12) by
      simp only [sizeofStructMem]; omega]
  have hmem : ∀ x, x < q + 4 ∨ q + 8 ≤ x → x < ptr2 ∨ ptr2 + 12 ≤ x →
      x < q + b.size + 8 ∨ q + b.size + 12 ≤ x → splitBlock mem e q size x = mem x :=
    fun x hx hx' hx'' => splitBlock_outside hx (by omega) (hnext ▸ hx'')
  have hfirst : HeaderAt (splitBlock mem e q size) (lastStart prev p pre) q
      ⟨size + 12, b.used⟩ := by
    rw [hsplit, setHeader]
    constructor
    · refine Eq.trans ?_ hheader.magic
      split <;> simp (disch := omega) only [magicOf, setPrev, setNext, setUsed, setMagic,
        readNum_writeNum_of_disjoint]
    · refine Eq.trans ?_ hheader.used
      split <;> simp (disch := omega) only [usedOf, setPrev, setNext, setUsed, setMagic,
        readNum_writeNum_of_disjoint]
    · refine Eq.trans ?_ hptr2
      split <;> simp (disch := omega) only [nextOf, setPrev, setNext,
        readNum_writeNum_of_disjoint, readNum_writeNum]
    · refine Eq.trans ?_ hheader.prev
      split <;> simp (disch := omega) only [prevOf, setPrev, setNext, setUsed, setMagic,
        readNum_writeNum_of_disjoint]
  have hsecond : HeaderAt (splitBlock mem e q size) q ptr2 ⟨b.size - (size + 12), false⟩ := by
    have hheader := headerAt_setHeader mem q ptr2 ⟨b.size - (size + 12), false⟩
      (by show ptr2 + (b.size - (size + 12)) < _; omega) (by omega)
    refine hheader.congr fun x _ _ => ?_
    show _ = setHeader mem ptr2 0 (ptr2 + (b.size - (size + 12))) q x
    rw [hsplit, hnext2]
    split <;> simp (disch := omega) only [setPrev, setNext, writeNum_outside]
  have hrest : Tiled (HeaderAt (splitBlock mem e q size)) ptr2 (q + b.size) post e := by
    refine tiled_reprev hpost (fun d hd => hlarge d (by simp [hd]))
      (fun x hx hx' _ => hmem x (by omega) (by omega) hx') fun hne => ?_
    -- the block behind is not `heap_end`, whose header is outside the blocks
    have hnotend : q + b.size ≠ e := by
      obtain ⟨d, post', rfl⟩ := List.exists_cons_of_ne_nil hne
      have hd := hlarge d (by simp)
      rw [total_cons] at hend
      omega
    rw [hsplit, if_pos hnotend]
    simp (disch := omega) only [prevOf, setPrev, readNum_writeNum]
  refine Tiled.append_iff.mpr ⟨?_, ?_⟩
  · rw [← hq]
    exact tiled_congr hpre (fun d hd => hlarge d (by simp [hd])) fun x _ hx =>
      hmem x (by omega) (by omega) (by omega)
  · rw [← hq]
    refine ⟨hfirst, ?_⟩
    show Tiled _ q (q + (size + 12)) _ e
    rw [← hptr2]
    refine ⟨hsecond, ?_⟩
    show Tiled _ ptr2 (ptr2 + (b.size - (size + 12))) post e
    rwa [hnext2]

/-! ### The heap and its blocks -/

/-- The heap holds blocks: they fill it, they are aligned, and `lfree` is a free one, or
`heap_end`. The statistics are about them. -/
structure Heap.Lies (h : Heap) (tiles : List Tile) : Prop where
  tiled : Tiled (HeaderAt h.mem) 0 0 tiles h.heapEnd
  large : ∀ b ∈ tiles, 12 < b.size
  aligned : ∀ b ∈ tiles, b.size % 4 = 0
  lfree : FreeAt 0 tiles h.lfree ∨ h.lfree = h.heapEnd
  usedMem : h.usedMem = totalUsed tiles
  maxMem : h.usedMem ≤ h.maxMem
  least : minSizeAligned ≤ h.memSizeAligned
  bound : h.heapEnd + sizeofStructMem < 2 ^ 32

/-- And no two free ones lie next to each other. -/
structure Heap.Holds (h : Heap) (tiles : List Tile) : Prop extends h.Lies tiles where
  separate : Separate tiles

/-- No free block is below `lfree`. -/
def Heap.Lowest (h : Heap) (tiles : List Tile) : Prop := ∀ q, FreeAt 0 tiles q → h.lfree ≤ q

/-- The heap as it starts. -/
theorem rtSystemHeapInit_holds (mem : Memory) {size : Nat} (hleast : minSizeAligned ≤ size)
    (halign : size % 4 = 0) (hbound : size + 24 < 2 ^ 32) :
    (rtSystemHeapInit mem size).Holds [⟨size + sizeofStructMem, false⟩]
      ∧ (rtSystemHeapInit mem size).Lowest [⟨size + sizeofStructMem, false⟩] := by
  have hheader : HeaderAt (rtSystemHeapInit mem size).mem 0 0 ⟨size + sizeofStructMem, false⟩ := by
    have hfirst := headerAt_setHeader mem 0 0 ⟨size + sizeofStructMem, false⟩
      (by show 0 + (size + 12) < 2 ^ 32; omega) (by decide)
    refine hfirst.congr fun x _ hx => ?_
    show setHeader (setHeader mem 0 0 (size + 12) 0) (size + 12) 1 (size + 12) (size + 12) x
      = setHeader mem 0 0 (0 + (size + 12)) 0 x
    rw [Nat.zero_add, setHeader]
    simp (disch := omega) only [setPrev, setNext, setUsed, setMagic, writeNum_outside]
  refine ⟨⟨⟨⟨hheader, Nat.zero_add _⟩, fun b hb => ?_, fun b hb => ?_, .inl (.inl ⟨rfl, rfl⟩), rfl,
    Nat.le_refl 0, hleast, ?_⟩, List.IsChain.singleton _⟩, fun q _ => Nat.zero_le q⟩
  · rw [List.mem_singleton.mp hb]
    show 12 < size + 12
    simp only [minSizeAligned] at hleast
    omega
  · rw [List.mem_singleton.mp hb]
    show (size + 12) % 4 = 0
    omega
  · show size + 12 + 12 < 2 ^ 32
    omega

/-- The size that `rt_malloc` looks for. -/
def request (size : Nat) : Nat :=
  if rtAlign size < minSizeAligned then minSizeAligned else rtAlign size

/-- A block in which the search finds room. -/
def Fits (h : Heap) (size p : Nat) (b : Tile) : Prop :=
  b.used = false ∧ size + sizeofStructMem ≤ b.size ∧ p + size < h.memSizeAligned

/-- The search of `rt_malloc` ends, at the first block with room. -/
theorem mallocLoop_spec {h : Heap} {size : Nat} (hsize : size ≤ h.memSizeAligned)
    (hbound : h.heapEnd + sizeofStructMem < 2 ^ 32) {prev q : Nat} {tiles : List Tile}
    (ht : Tiled (HeaderAt h.mem) prev q tiles h.heapEnd) (hlarge : ∀ b ∈ tiles, 12 < b.size)
    {fuel : Nat} (hfuel : tiles.length < fuel) :
    (mallocLoop h size fuel q = some none
        ∧ ∀ pre b post, tiles = pre ++ b :: post → ¬ Fits h size (q + total pre) b)
      ∨ ∃ pre b post, tiles = pre ++ b :: post
        ∧ mallocLoop h size fuel q = some (some (q + total pre)) ∧ Fits h size (q + total pre) b
        ∧ ∀ pre' b' post', pre = pre' ++ b' :: post' → ¬ Fits h size (q + total pre') b' := by
  have hheap : h.heapEnd = h.memSizeAligned + 12 := rfl
  simp only [sizeofStructMem] at hbound
  have hsub : sizeSub h.memSizeAligned size = h.memSizeAligned - size :=
    sizeSub_eq hsize (by omega)
  -- along the blocks: the search stands at the start of the first one
  induction tiles generalizing prev q fuel with
  | nil =>
      obtain ⟨fuel, rfl⟩ := Nat.exists_eq_add_of_lt hfuel
      have hq : q = h.heapEnd := ht
      refine .inl ⟨?_, fun pre b post heq => by simp at heq⟩
      rw [List.length_nil, Nat.zero_add, mallocLoop, if_neg (by omega)]
  | cons b tiles ih =>
      obtain ⟨fuel, rfl⟩ : ∃ n, fuel = n + 1 := ⟨fuel - 1, by omega⟩
      obtain ⟨hheader, hrest⟩ := ht
      have hend := hrest.end_eq
      have hb : 12 < b.size := hlarge b List.mem_cons_self
      have hroom : sizeSub (nextOf h.mem q) (q + sizeofStructMem) = b.size - 12 := by
        rw [hheader.next, sizeofStructMem, sizeSub_eq (by omega) (by omega)]
        omega
      rw [mallocLoop, hsub]
      by_cases hlt : q < h.memSizeAligned - size
      · rw [if_pos hlt, hroom, hheader.used]
        by_cases hfit : b.used = false ∧ size + 12 ≤ b.size
        · have hcond : b.used.toNat = 0 ∧ b.size - 12 ≥ size := ⟨by rw [hfit.1]; rfl, by omega⟩
          rw [if_pos hcond]
          refine .inr ⟨[], b, tiles, rfl, rfl, ⟨hfit.1, hfit.2, ?_⟩, fun pre' b' post' heq => ?_⟩
          · rw [total_nil]
            omega
          · simp at heq
        · have hcond : ¬ (b.used.toNat = 0 ∧ b.size - 12 ≥ size) := by
            rintro ⟨hused, hge⟩
            refine hfit ⟨?_, by omega⟩
            cases hu : b.used with
            | false => rfl
            | true =>
                rw [hu] at hused
                cases hused
          have hnot : ∀ p, ¬ Fits h size p b := fun p hp => hfit ⟨hp.1, hp.2.1⟩
          rw [if_neg hcond, hheader.next]
          rcases ih hrest (fun c hc => hlarge c (List.mem_cons_of_mem b hc))
            (Nat.lt_of_succ_lt_succ hfuel) with
            ⟨hloop, hnone⟩ | ⟨pre, c, post, heq, hloop, hfit, hfirst⟩
          · refine .inl ⟨hloop, fun pre c post heq => ?_⟩
            cases pre with
            | nil =>
                obtain rfl : b = c := (List.cons.inj heq).1
                exact hnot _
            | cons d pre =>
                obtain ⟨rfl, htail⟩ := List.cons.inj heq
                rw [total_cons, ← Nat.add_assoc]
                exact hnone pre c post htail
          · refine .inr ⟨b :: pre, c, post, by rw [heq]; rfl, ?_, ?_, fun pre' c' post' heq' => ?_⟩
            · rw [hloop, total_cons, Nat.add_assoc]
            · rwa [total_cons, ← Nat.add_assoc]
            · cases pre' with
              | nil =>
                  obtain rfl : b = c' := (List.cons.inj heq').1
                  exact hnot _
              | cons d pre' =>
                  obtain ⟨rfl, htail⟩ := List.cons.inj heq'
                  rw [total_cons, ← Nat.add_assoc]
                  exact hfirst pre' c' post' htail
      · -- the search stops: no block from here on starts low enough
        rw [if_neg hlt]
        exact .inl ⟨rfl, fun pre c post _ hfit => hlt (by have hp := hfit.2.2; omega)⟩

/-- The search for the next free block ends at the first one, or at `heap_end`. -/
theorem lfreeLoop_spec {h : Heap} {prev q : Nat} {tiles : List Tile}
    (ht : Tiled (HeaderAt h.mem) prev q tiles h.heapEnd) (hlarge : ∀ b ∈ tiles, 12 < b.size)
    {fuel : Nat} (hfuel : tiles.length < fuel) :
    lfreeLoop h fuel q = some (q + total (tiles.takeWhile Tile.used)) := by
  induction tiles generalizing prev q fuel with
  | nil =>
      obtain ⟨fuel, rfl⟩ : ∃ n, fuel = n + 1 := ⟨fuel - 1, by omega⟩
      have hq : q = h.heapEnd := ht
      rw [lfreeLoop, if_neg fun hcond => hcond.2 hq]
      rfl
  | cons b tiles ih =>
      obtain ⟨fuel, rfl⟩ : ∃ n, fuel = n + 1 := ⟨fuel - 1, by omega⟩
      obtain ⟨hheader, hrest⟩ := ht
      have hend := hrest.end_eq
      have hb : 12 < b.size := hlarge b List.mem_cons_self
      rw [lfreeLoop, hheader.used, hheader.next]
      cases hused : b.used with
      | true =>
          rw [if_pos ⟨by decide, by omega⟩, List.takeWhile_cons_of_pos hused, total_cons,
            ← Nat.add_assoc]
          exact ih hrest (fun c hc => hlarge c (List.mem_cons_of_mem b hc))
            (Nat.lt_of_succ_lt_succ hfuel)
      | false =>
          rw [if_neg fun hcond => hcond.1 rfl, List.takeWhile_cons_of_neg (by simp [hused])]
          rfl

theorem Heap.Lies.pos {h : Heap} {tiles : List Tile} (hl : h.Lies tiles) :
    ∀ b ∈ tiles, 0 < b.size := fun b hb => Nat.lt_trans (by decide) (hl.large b hb)

/-- Two free blocks are joined. -/
theorem Heap.Lies.join {h : Heap} {pre post : List Tile} {b c : Tile}
    (hl : h.Lies (pre ++ b :: c :: post)) (hb : b.used = false) (hc : c.used = false) {q next : Nat}
    (hq : q = total pre) (hnext : next = q + b.size + c.size) :
    Heap.Lies { h with
        lfree := if h.lfree = q + b.size then q else h.lfree
        mem := setPrev (setNext h.mem q next) next q }
      (pre ++ ⟨b.size + c.size, b.used⟩ :: post) where
  tiled := tiled_join hl.tiled hl.large (by have hbound := hl.bound; omega) (by omega) hnext
  large := fun d hd => by
    have hbsize := hl.large b (by simp)
    simp only [List.mem_append, List.mem_cons] at hd
    rcases hd with hd | rfl | hd
    · exact hl.large d (by simp [hd])
    · show 12 < b.size + c.size
      omega
    · exact hl.large d (by simp [hd])
  aligned := fun d hd => by
    have hbsize := hl.aligned b (by simp)
    have hcsize := hl.aligned c (by simp)
    simp only [List.mem_append, List.mem_cons] at hd
    rcases hd with hd | rfl | hd
    · exact hl.aligned d (by simp [hd])
    · show (b.size + c.size) % 4 = 0
      omega
    · exact hl.aligned d (by simp [hd])
  lfree := by
    show FreeAt 0 _ (if h.lfree = q + b.size then q else h.lfree)
      ∨ (if h.lfree = q + b.size then q else h.lfree) = h.heapEnd
    split
    · exact .inl (by simp [hq, hb])
    · rename_i hne
      refine hl.lfree.imp_left fun hfree => ?_
      simp only [freeAt_append, freeAt_cons, Nat.zero_add] at hfree ⊢
      rcases hfree with hfree | hfree | ⟨hfree, -⟩ | hfree
      · exact .inl hfree
      · exact .inr (.inl hfree)
      · exact absurd hfree (hq ▸ hne)
      · exact .inr (.inr (by rwa [← Nat.add_assoc]))
  usedMem := by
    show h.usedMem = _
    rw [hl.usedMem]
    simp [hb, hc]
  maxMem := hl.maxMem
  least := hl.least
  bound := hl.bound

/-- No free block comes below `lfree`. -/
theorem Heap.Lowest.join {h : Heap} {pre post : List Tile} {b c : Tile}
    (hlow : h.Lowest (pre ++ b :: c :: post)) {q : Nat} (mem : Memory) :
    Heap.Lowest { h with lfree := if h.lfree = q + b.size then q else h.lfree, mem := mem }
      (pre ++ ⟨b.size + c.size, b.used⟩ :: post) := by
  intro q' hfree
  have hle : (if h.lfree = q + b.size then q else h.lfree) ≤ h.lfree := by
    split <;> omega
  refine Nat.le_trans hle (hlow q' ?_)
  simp only [freeAt_append, freeAt_cons, Nat.zero_add, ← Nat.add_assoc] at hfree ⊢
  rcases hfree with hfree | hfree | hfree
  · exact .inl hfree
  · exact .inr (.inl hfree)
  · exact .inr (.inr (.inr hfree))

/-- The memory in use is elsewhere. -/
theorem inUse_join {mem : Memory} {pre post : List Tile} {b c : Tile} (hb : b.used = false)
    (hc : c.used = false) {q next : Nat} (hq : q = total pre) (hnext : next = q + b.size + c.size)
    {x : Nat} (hx : InUse sizeofStructMem 0 (pre ++ b :: c :: post) x) :
    setPrev (setNext mem q next) next q x = mem x := by
  have hx' : x < q ∨ next + 12 ≤ x := by
    simp only [inUse_append, inUse_cons, hb, hc, Nat.zero_add] at hx
    rcases hx with hx | ⟨hused, -⟩ | ⟨hused, -⟩ | hx
    · exact .inl (by have hrange := hx.range; omega)
    · cases hused
    · cases hused
    · refine .inr ?_
      have hrange := hx.range
      simp only [sizeofStructMem] at hrange
      omega
  simp (disch := omega) only [setPrev, setNext, writeNum_outside]

/-- What `plug_holes` keeps, its two halves first. -/
structure Plugs (h h' : Heap) (tiles tiles' : List Tile) : Prop where
  lies : h'.Lies tiles'
  size : h'.memSizeAligned = h.memSizeAligned
  lowest : h.Lowest tiles → h'.Lowest tiles'
  mem : ∀ x, InUse sizeofStructMem 0 tiles x → h'.mem x = h.mem x

/-- The block behind a free one is joined if it is free. -/
theorem plugForward_spec {h : Heap} {pre post : List Tile} {f : Tile}
    (hl : h.Lies (pre ++ f :: post)) (hf : f.used = false) :
    Plugs h (plugForward h (total pre)) (pre ++ f :: post) (pre ++ push f post) := by
  have hfsize : 12 < f.size := hl.large f (by simp)
  obtain ⟨-, hheader, hpost⟩ := Tiled.append_iff.mp hl.tiled
  rw [Nat.zero_add] at hheader hpost
  have hend := hpost.end_eq
  cases post with
  | nil =>
      have hskip : plugForward h (total pre) = h := by
        simp only [plugForward, hheader.next]
        exact if_neg fun hcond => hcond.2.2 hend
      rw [hskip]
      exact ⟨hl, rfl, fun hlow => hlow, fun _ _ => rfl⟩
  | cons c post =>
      have hcheader : HeaderAt h.mem (total pre) (total pre + f.size) c := hpost.1
      have hcsize : 12 < c.size := hl.large c (by simp)
      rw [total_cons] at hend
      rw [push]
      by_cases hc : c.used = false
      · have hjoin : plugForward h (total pre) = { h with
            lfree := if h.lfree = total pre + f.size then total pre else h.lfree
            mem := setPrev (setNext h.mem (total pre) (total pre + f.size + c.size))
              (total pre + f.size + c.size) (total pre) } := by
          simp only [plugForward, hheader.next, hcheader.next, hcheader.used, hc]
          exact if_pos ⟨by omega, rfl, by omega⟩
        rw [if_pos ⟨hf, hc⟩, hjoin, ← hf]
        exact ⟨hl.join hf hc rfl rfl, rfl, fun hlow => hlow.join _,
          fun x hx => inUse_join hf hc rfl rfl hx⟩
      · have hskip : plugForward h (total pre) = h := by
          simp only [plugForward, hheader.next, hcheader.used]
          refine if_neg fun hcond => hc ?_
          cases hu : c.used with
          | false => rfl
          | true =>
              rw [hu] at hcond
              exact absurd hcond.2.1 (by decide)
        rw [if_neg fun hcond => hc hcond.2, hskip]
        exact ⟨hl, rfl, fun hlow => hlow, fun _ _ => rfl⟩

/-- A free block is joined to the one before it if that one is free. -/
theorem plugBackward_spec {h : Heap} {pre post : List Tile} {c f : Tile}
    (hl : h.Lies (pre ++ c :: f :: post)) (hc : c.used = false) (hf : f.used = false) :
    Plugs h (plugBackward h (total pre + c.size)) (pre ++ c :: f :: post)
      (pre ++ push c (f :: post)) := by
  have hcsize : 12 < c.size := hl.large c (by simp)
  obtain ⟨-, hcheader, hheader, -⟩ := Tiled.append_iff.mp hl.tiled
  rw [Nat.zero_add] at hcheader hheader
  have hjoin : plugBackward h (total pre + c.size) = { h with
      lfree := if h.lfree = total pre + c.size then total pre else h.lfree
      mem := setPrev (setNext h.mem (total pre) (total pre + c.size + f.size))
        (total pre + c.size + f.size) (total pre) } := by
    simp only [plugBackward, hheader.prev, hheader.next, hcheader.used, hc]
    exact if_pos ⟨by omega, rfl⟩
  rw [push, if_pos ⟨hc, hf⟩, hjoin, ← hc]
  exact ⟨hl.join hc hf rfl rfl, rfl, fun hlow => hlow.join _,
    fun x hx => inUse_join hc hf rfl rfl hx⟩

/-- It is left alone if that one is used, or there is none. -/
theorem plugBackward_used {h : Heap} {pre post : List Tile} {f : Tile}
    (hl : h.Lies (pre ++ f :: post)) (hlast : ∀ c ∈ pre.getLast?, c.used = true) :
    plugBackward h (total pre) = h := by
  obtain ⟨hpre, hheader, -⟩ := Tiled.append_iff.mp hl.tiled
  rw [Nat.zero_add] at hheader
  rcases List.eq_nil_or_concat pre with rfl | ⟨pre, c, rfl⟩
  · simp only [plugBackward, hheader.prev]
    exact if_neg fun hcond => hcond.1 rfl
  · have hc : c.used = true := hlast c (by simp)
    rw [List.concat_eq_append] at hpre
    have hcheader := hpre.header
    rw [Nat.zero_add] at hcheader
    simp only [plugBackward, hheader.prev]
    refine if_neg fun hcond => ?_
    have hused := hcond.2
    simp only [List.concat_eq_append, lastStart_append_singleton, Nat.zero_add] at hused
    rw [hcheader.used, hc] at hused
    cases hused

/-- **`plug_holes`** of a block that has become free joins all free blocks that lie next to each
other, by looking at two neighbours. -/
theorem plugHoles_spec {h : Heap} {pre post : List Tile} {f : Tile}
    (hl : h.Lies (pre ++ f :: post)) (hf : f.used = false) (hpre : Separate pre)
    (hpost : Separate post) :
    ∃ h', plugHoles h (total pre) = some h'
      ∧ Plugs h h' (pre ++ f :: post) (coalesce (pre ++ f :: post)) := by
  have hassert : total pre < h.heapEnd ∧ usedOf h.mem (total pre) = 0 := by
    obtain ⟨-, hheader, hbehind⟩ := Tiled.append_iff.mp hl.tiled
    rw [Nat.zero_add] at hheader hbehind
    have hend := hbehind.end_eq
    have hlarge : 12 < f.size := hl.large f (by simp)
    rw [hheader.used, hf]
    exact ⟨by omega, rfl⟩
  refine ⟨_, if_pos hassert, ?_⟩
  have hforward := plugForward_spec hl hf
  obtain ⟨g, rest, hpush, hg⟩ := head_push f post
  rw [hf] at hg
  -- the block before decides whether the second half has work to do
  by_cases hlast : ∀ c ∈ pre.getLast?, c.used = true
  · rw [coalesce_used_before f hpre hpost hlast]
    have hskip : plugBackward (plugForward h (total pre)) (total pre)
        = plugForward h (total pre) := by
      have hlies := hforward.lies
      rw [hpush] at hlies
      exact plugBackward_used hlies hlast
    rw [hskip]
    exact hforward
  · rcases List.eq_nil_or_concat pre with rfl | ⟨pre, c, rfl⟩
    · exact absurd (fun c hc => by simp at hc) hlast
    · rw [List.concat_eq_append] at hl hpre hlast hforward ⊢
      have hc : c.used = false := by
        cases hu : c.used with
        | false => rfl
        | true => exact absurd (fun d hd => by simp at hd; rw [← hd, hu]) hlast
      have hlies := hforward.lies
      rw [hpush, List.append_assoc, List.singleton_append] at hlies
      have hbackward := plugBackward_spec hlies hc hg
      have hcoalesce : coalesce (pre ++ [c] ++ f :: post) = pre ++ push c (g :: rest) := by
        rw [List.append_assoc, List.singleton_append, coalesce_free_before f hpre hc hpost, hpush]
      have htotal : total pre + c.size = total (pre ++ [c]) := by simp
      rw [htotal] at hbackward
      rw [hcoalesce]
      refine ⟨hbackward.lies, hbackward.size.trans hforward.size, fun hlow => ?_, fun x hx => ?_⟩
      · have hlow' := hforward.lowest hlow
        rw [hpush, List.append_assoc, List.singleton_append] at hlow'
        exact hbackward.lowest hlow'
      · refine (hbackward.mem x ?_).trans (hforward.mem x hx)
        have hsame : InUse sizeofStructMem 0 (pre ++ [c] ++ push f post) x := by
          rw [inUse_append, inUse_push, ← inUse_append]
          exact hx
        rwa [hpush, List.append_assoc, List.singleton_append] at hsame

end CarLocator.Kernel
