import CarLocator.Kernel.Heap

/-!
# `CarLocator.Kernel.HeapCalls`: what a call does to the blocks of the heap

`rt_malloc` takes the first free block with room from `lfree` on and cuts off what it does not
need; `rt_free` gives a block back and joins it with the free ones next to it. Both keep the
heap, and leave the memory of the other blocks in use alone. Neither search runs on, and no
assertion fails.
-/

set_option autoImplicit false

namespace CarLocator.Kernel

open CarLocator.Library

/-! ### Taking a block -/

/-- The blocks that take the place of a free one that `rt_malloc` has found. -/
def place (size : Nat) (b : Tile) : List Tile :=
  if size + 36 ≤ b.size then [⟨size + 12, true⟩, ⟨b.size - (size + 12), false⟩]
  else [⟨b.size, true⟩]

/-- What a call does to the blocks, and that it leaves the memory in use alone. -/
structure Becomes (h h' : Heap) (tiles tiles' : List Tile) : Prop where
  holds : h'.Holds tiles'
  size : h'.memSizeAligned = h.memSizeAligned
  mem : ∀ x, InUse sizeofStructMem 0 tiles x → InUse sizeofStructMem 0 tiles' x →
    h'.mem x = h.mem x

/-- The new blocks take up as much. -/
theorem total_place (size : Nat) (b : Tile) : total (place size b) = b.size := by
  unfold place
  split
  · simp only [total_cons, total_nil]
    omega
  · simp only [total_cons, total_nil]
    omega

/-- The block that is taken is the first one. -/
theorem place_head (size : Nat) (b : Tile) :
    ∃ c rest, place size b = c :: rest ∧ c.used = true := by
  unfold place
  split
  · exact ⟨_, _, rfl, rfl⟩
  · exact ⟨_, _, rfl, rfl⟩

/-- The blocks stay separate: a free remainder lies before a used block. -/
theorem separate_place {pre post : List Tile} {b : Tile} (h : Separate (pre ++ b :: post))
    (hb : b.used = false) (size : Nat) : Separate (pre ++ (place size b ++ post)) := by
  obtain ⟨hpre, htail, -⟩ := separate_append.mp h
  obtain ⟨hhead, hpost⟩ := separate_cons.mp htail
  have hnext : ∀ c ∈ post.head?, c.used = true := fun c hc => by
    rcases hhead c hc with hused | hused
    · rw [hb] at hused
      cases hused
    · exact hused
  have hplace : Separate (place size b ++ post) := by
    unfold place
    split
    · refine separate_cons.mpr ⟨fun c _ => .inl rfl, separate_cons.mpr ⟨fun c hc => ?_, hpost⟩⟩
      exact .inr (hnext c hc)
    · exact separate_cons.mpr ⟨fun c _ => .inl rfl, hpost⟩
  refine separate_append.mpr ⟨hpre, hplace, fun c _ d hd => .inr ?_⟩
  obtain ⟨d', rest, hcons, hused⟩ := place_head size b
  rw [hcons] at hd
  obtain rfl : d' = d := by simpa using hd
  exact hused

/-- What the statistics say after a block has been taken. -/
theorem Heap.count_usedMem (h : Heap) (size : Nat) (hbound : h.usedMem + size < 2 ^ 32) :
    (h.count size).usedMem = h.usedMem + size
      ∧ (h.count size).usedMem ≤ (h.count size).maxMem := by
  refine ⟨Nat.mod_eq_of_lt hbound, ?_⟩
  show (h.usedMem + size) % 2 ^ 32
    ≤ if h.maxMem < (h.usedMem + size) % 2 ^ 32 then (h.usedMem + size) % 2 ^ 32 else h.maxMem
  split <;> omega

/-- What `takeBlock` does, but for the next `lfree`. -/
structure Takes (h taken : Heap) (tiles tiles' : List Tile) : Prop where
  tiled : Tiled (HeaderAt taken.mem) 0 0 tiles' h.heapEnd
  size : taken.memSizeAligned = h.memSizeAligned
  lfree : taken.lfree = h.lfree
  usedMem : taken.usedMem = totalUsed tiles'
  maxMem : taken.usedMem ≤ taken.maxMem
  mem : ∀ x, InUse sizeofStructMem 0 tiles x → taken.mem x = h.mem x

/-- The block that the search has found is taken. -/
theorem takeBlock_spec {h : Heap} {pre post : List Tile} {b : Tile} {size : Nat}
    (hl : h.Lies (pre ++ b :: post)) (hb : b.used = false) (hsize : size + 12 ≤ b.size)
    (hpos : 0 < size) :
    Takes h (takeBlock h (total pre) size) (pre ++ b :: post) (pre ++ (place size b ++ post)) := by
  obtain ⟨-, hheader, hpost⟩ := Tiled.append_iff.mp hl.tiled
  rw [Nat.zero_add] at hheader hpost
  have hend := hpost.end_eq
  have hbound := hl.bound
  have hpreUsed := totalUsed_le pre
  have hpostUsed := totalUsed_le post
  have hused := hl.usedMem
  simp only [totalUsed_append, totalUsed_cons, hb, Bool.false_eq_true, if_false,
    Nat.zero_add] at hused
  have hnext : nextOf h.mem (total pre) = total pre + b.size := hheader.next
  -- the memory in use is not in the block, nor in the header of the next one
  have hrange : ∀ x, InUse sizeofStructMem 0 (pre ++ b :: post) x →
      x < total pre ∨ total pre + b.size + 12 ≤ x := fun x hx => by
    simp only [inUse_append, inUse_cons, hb, Nat.zero_add] at hx
    rcases hx with hx | ⟨hused, -⟩ | hx
    · exact .inl (by have hrange := hx.range; omega)
    · cases hused
    · exact .inr hx.range.1
  have hroom : sizeSub (nextOf h.mem (total pre)) (total pre + sizeofStructMem) = b.size - 12 := by
    rw [hnext, sizeofStructMem, sizeSub_eq (by omega) (by omega)]
    omega
  unfold takeBlock
  rw [hroom]
  by_cases hsplit : size + 36 ≤ b.size
  · have hplace : place size b = [⟨size + 12, true⟩, ⟨b.size - (size + 12), false⟩] := if_pos hsplit
    have hcond : b.size - 12 ≥ size + sizeofStructMem + minSizeAligned := by
      simp only [sizeofStructMem, minSizeAligned]
      omega
    simp only [if_pos hcond]
    have htiled := tiled_split hl.tiled hl.large (Nat.lt_of_le_of_lt (Nat.le_add_right _ _) hbound)
      (show size + 24 < b.size by omega) (Nat.zero_add (total pre)).symm
    have hlarge : ∀ c ∈ pre ++ ⟨size + 12, b.used⟩ :: ⟨b.size - (size + 12), false⟩ :: post,
        12 < c.size := by
      refine forall_replace [_, _] hl.large
        (List.forall_mem_cons.mpr ⟨?_, List.forall_mem_singleton.mpr ?_⟩)
      · show 12 < size + 12
        omega
      · show 12 < b.size - (size + 12)
        omega
    have htaken := tiled_setUsed htiled hlarge true
    obtain ⟨hcount, hmax⟩ := Heap.count_usedMem
      { h with mem := setUsed (splitBlock h.mem h.heapEnd (total pre) size) (total pre) 1 }
      (size + sizeofStructMem) (by
        show h.usedMem + (size + 12) < 2 ^ 32
        omega)
    rw [hplace]
    refine ⟨?_, rfl, rfl, hcount.trans ?_, hmax, fun x hx => ?_⟩
    · rw [Nat.zero_add] at htaken
      exact htaken
    · simp only [totalUsed_append, totalUsed_cons, totalUsed_nil, sizeofStructMem, hused,
        if_true, Bool.false_eq_true, if_false]
      omega
    · have hx' := hrange x hx
      show setMagic (setUsed (splitBlock h.mem h.heapEnd (total pre) size) (total pre) 1)
        (total pre) heapMagic x = h.mem x
      rw [setMagic, writeNum_outside (by omega), setUsed, writeNum_outside (by omega)]
      exact splitBlock_outside (by omega) (by omega) (by omega)
  · have hplace : place size b = [⟨b.size, true⟩] := if_neg hsplit
    have hcond : ¬ b.size - 12 ≥ size + sizeofStructMem + minSizeAligned := by
      simp only [sizeofStructMem, minSizeAligned]
      omega
    simp only [if_neg hcond]
    have htaken := tiled_setUsed hl.tiled hl.large true
    have hblock : sizeSub (nextOf h.mem (total pre)) (total pre) = b.size := by
      rw [hnext, sizeSub_eq (by omega) (by omega)]
      omega
    obtain ⟨hcount, hmax⟩ := Heap.count_usedMem { h with mem := setUsed h.mem (total pre) 1 }
      b.size (by
        show h.usedMem + b.size < 2 ^ 32
        omega)
    rw [hplace, hblock]
    refine ⟨?_, rfl, rfl, hcount.trans ?_, hmax, fun x hx => ?_⟩
    · rw [Nat.zero_add] at htaken
      exact htaken
    · simp only [totalUsed_append, totalUsed_cons, totalUsed_nil, hused, if_true]
      omega
    · have hx' := hrange x hx
      show setMagic (setUsed h.mem (total pre) 1) (total pre) heapMagic x = h.mem x
      rw [setMagic, writeNum_outside (by omega), setUsed, writeNum_outside (by omega)]

/-- Both are large enough for a header and some memory, and aligned. -/
theorem place_sizes {size : Nat} {b : Tile} (hb : 12 < b.size) (hpos : 0 < size)
    (halign : b.size % 4 = 0) (hsize : size % 4 = 0) :
    ∀ c ∈ place size b, 12 < c.size ∧ c.size % 4 = 0 := by
  intro c hc
  unfold place at hc
  split at hc
  · simp only [List.mem_cons, List.not_mem_nil, or_false] at hc
    rcases hc with rfl | rfl
    · exact ⟨by show 12 < size + 12; omega, by show (size + 12) % 4 = 0; omega⟩
    · exact ⟨by show 12 < b.size - (size + 12); omega,
        by show (b.size - (size + 12)) % 4 = 0; omega⟩
  · simp only [List.mem_cons, List.not_mem_nil, or_false] at hc
    rw [hc]
    exact ⟨hb, halign⟩

/-- A free block of the new ones is one of the old ones, or lies behind the one that is taken. -/
theorem freeAt_place {pre post : List Tile} {b : Tile} {size q : Nat}
    (h : FreeAt 0 (pre ++ (place size b ++ post)) q) :
    FreeAt 0 pre q ∨ q = total pre + (size + 12) ∨ FreeAt (total pre + b.size) post q := by
  rw [freeAt_append, Nat.zero_add, freeAt_append, total_place] at h
  rcases h with h | h | h
  · exact .inl h
  · unfold place at h
    split at h
    · simp only [FreeAt, Bool.true_eq_false, and_false, and_true, or_false, false_or] at h
      exact .inr (.inl h)
    · simp only [FreeAt, Bool.true_eq_false, and_false, or_false] at h
  · exact .inr (.inr h)

/-- What `rt_malloc` returns. -/
inductive Mallocs (h : Heap) (tiles : List Tile) (size : Nat) : Heap × Option Nat → Prop
  | none (hnone : size = 0 ∨ h.memSizeAligned < rtAlign size
      ∨ ∀ pre b post, tiles = pre ++ b :: post → h.lfree ≤ total pre →
        ¬ Fits h (request size) (total pre) b) : Mallocs h tiles size (h, .none)
  | some (pre : List Tile) (b : Tile) (post : List Tile) (h' : Heap) (hpos : size ≠ 0)
      (hle : rtAlign size ≤ h.memSizeAligned) (htiles : tiles = pre ++ b :: post)
      (hfit : Fits h (request size) (total pre) b)
      (hfirst : ∀ pre' b' post', pre = pre' ++ b' :: post' → h.lfree ≤ total pre' →
        ¬ Fits h (request size) (total pre') b')
      (hbecomes : Becomes h h' tiles (pre ++ (place (request size) b ++ post)))
      (hlowest : h.Lowest tiles → h'.Lowest (pre ++ (place (request size) b ++ post))) :
      Mallocs h tiles size (h', .some (total pre + sizeofStructMem))

/-- The blocks from `lfree` on. -/
theorem Heap.Lies.split {h : Heap} {tiles : List Tile} (hl : h.Lies tiles) :
    ∃ lo hi, tiles = lo ++ hi ∧ h.lfree = total lo := by
  rcases hl.lfree with hfree | hend
  · obtain ⟨pre, b, post, htiles, hq, -⟩ := hfree.split
    exact ⟨pre, b :: post, htiles, hq.trans (Nat.zero_add _)⟩
  · have htotal := hl.tiled.end_eq
    exact ⟨tiles, [], (List.append_nil tiles).symm, by omega⟩

/-- The block is taken and `lfree` goes to the next free one. -/
theorem Takes.becomes {h taken : Heap} {pre post : List Tile} {b : Tile} {size : Nat}
    (htakes : Takes h taken (pre ++ b :: post) (pre ++ (place size b ++ post)))
    (hh : h.Holds (pre ++ b :: post)) (hb : b.used = false) (hpos : 0 < size)
    (halign : size % 4 = 0) {lfree : Nat}
    (hlfree : FreeAt 0 (pre ++ (place size b ++ post)) lfree ∨ lfree = h.heapEnd) :
    Becomes h (taken.setLfree lfree) (pre ++ b :: post) (pre ++ (place size b ++ post)) := by
  have hsizes := place_sizes (hh.large b (by simp)) hpos (hh.aligned b (by simp)) halign
  have hend : taken.heapEnd = h.heapEnd := by
    unfold Heap.heapEnd
    rw [htakes.size]
  have hlie : Heap.Lies (taken.setLfree lfree) (pre ++ (place size b ++ post)) :=
    { tiled := hend ▸ htakes.tiled
      large := forall_replace _ hh.large fun c hc => (hsizes c hc).1
      aligned := forall_replace _ hh.aligned fun c hc => (hsizes c hc).2
      lfree := hend ▸ hlfree
      usedMem := htakes.usedMem
      maxMem := htakes.maxMem
      least := htakes.size ▸ hh.least
      bound := hend ▸ hh.bound }
  exact ⟨⟨hlie, separate_place hh.separate hb size⟩, htakes.size, fun x hx _ => htakes.mem x hx⟩

/-- The block at `lfree` is taken: `lfree` goes to the first free block behind it. -/
theorem Takes.lfreeLoop {h taken : Heap} {pre post : List Tile} {b : Tile} {size : Nat}
    (htakes : Takes h taken (pre ++ b :: post) (pre ++ (place size b ++ post)))
    (hl : h.Lies (pre ++ b :: post)) (hpos : 0 < size) (halign : size % 4 = 0) :
    ∃ lfree, CarLocator.Kernel.lfreeLoop taken h.fuel (total pre) = some lfree
      ∧ (FreeAt 0 (pre ++ (place size b ++ post)) lfree ∨ lfree = h.heapEnd)
      ∧ ∀ q, FreeAt (total pre) (place size b ++ post) q → lfree ≤ q := by
  have hsizes := place_sizes (hl.large b (by simp)) hpos (hl.aligned b (by simp)) halign
  have hend : taken.heapEnd = h.heapEnd := by
    unfold Heap.heapEnd
    rw [htakes.size]
  have htiled := (Tiled.append_iff.mp htakes.tiled).2
  rw [Nat.zero_add, ← hend] at htiled
  have hlarge : ∀ c ∈ place size b ++ post, 12 < c.size := fun c hc => by
    rcases List.mem_append.mp hc with hc | hc
    · exact (hsizes c hc).1
    · exact hl.large c (by simp [hc])
  have htotal := htiled.end_eq
  have hlength := length_le_total fun c hc => Nat.lt_trans (by decide) (hlarge c hc)
  have hfuel : (place size b ++ post).length < h.fuel := by
    unfold Heap.fuel
    omega
  refine ⟨_, lfreeLoop_spec htiled hlarge hfuel, ?_, fun q hq => takeWhile_le_of_freeAt hq⟩
  rcases freeAt_takeWhile (total pre) (place size b ++ post) with hfree | hall
  · exact .inl (freeAt_append.mpr (.inr (by rwa [Nat.zero_add])))
  · exact .inr (by rw [hall, htotal, hend])

/-- What the request is when it is not too large. -/
theorem request_spec {h : Heap} {tiles : List Tile} (hl : h.Lies tiles) {size : Nat}
    (hle : rtAlign size ≤ h.memSizeAligned) :
    0 < request size ∧ request size % 4 = 0 ∧ request size ≤ h.memSizeAligned := by
  have hleast := hl.least
  have halign : rtAlign size % 4 = 0 := Nat.mul_mod_left _ 4
  unfold request
  by_cases hsmall : rtAlign size < minSizeAligned
  · rw [if_pos hsmall]
    exact ⟨by decide, by decide, hleast⟩
  · rw [if_neg hsmall]
    simp only [minSizeAligned] at hsmall
    exact ⟨by omega, halign, hle⟩

/-- `rt_malloc` when the search finds nothing. -/
theorem rtMalloc_of_none {h : Heap} {size : Nat} (hpos : size ≠ 0)
    (hle : rtAlign size ≤ h.memSizeAligned)
    (hloop : mallocLoop h (request size) h.fuel h.lfree = some none) :
    rtMalloc h size = some (h, none) := by
  unfold request at hloop
  rw [rtMalloc, if_neg hpos]
  refine (if_neg (Nat.not_lt.mpr hle)).trans ?_
  simp only [hloop]
  rfl

/-- `rt_malloc` when the search finds a block. -/
theorem rtMalloc_of_some {h taken : Heap} {size ptr lfree : Nat} (hpos : size ≠ 0)
    (hle : rtAlign size ≤ h.memSizeAligned)
    (hloop : mallocLoop h (request size) h.fuel h.lfree = some (some ptr))
    (htaken : takeBlock h ptr (request size) = taken)
    (hlfree : (if ptr = taken.lfree then lfreeLoop taken h.fuel taken.lfree
      else some taken.lfree) = some lfree)
    (hassert : ptr + sizeofStructMem + request size ≤ h.heapEnd
      ∧ (ptr + sizeofStructMem) % 4 = 0) :
    rtMalloc h size = some (taken.setLfree lfree, some (ptr + sizeofStructMem)) := by
  unfold request at hloop htaken hassert
  rw [rtMalloc, if_neg hpos]
  refine (if_neg (Nat.not_lt.mpr hle)).trans ?_
  simp only [hloop, htaken, Option.bind_eq_bind, Option.bind_some]
  by_cases hptr : ptr = taken.lfree
  · rw [if_pos hptr] at hlfree ⊢
    rw [hlfree, Option.bind_some, if_pos hassert]
    rfl
  · rw [if_neg hptr] at hlfree ⊢
    rw [if_pos hassert, Option.some.inj hlfree]
    rfl

/-- The block that the search of `rt_malloc` has found is taken. -/
theorem rtMalloc_found {h : Heap} {pre post : List Tile} {b : Tile} {size : Nat}
    (hh : h.Holds (pre ++ b :: post)) (hzero : size ≠ 0) (hle : rtAlign size ≤ h.memSizeAligned)
    (hloop : mallocLoop h (request size) h.fuel h.lfree = some (some (total pre)))
    (hfit : Fits h (request size) (total pre) b) (hlow : h.lfree ≤ total pre) :
    ∃ h', rtMalloc h size = some (h', some (total pre + sizeofStructMem))
      ∧ Becomes h h' (pre ++ b :: post) (pre ++ (place (request size) b ++ post))
      ∧ (h.Lowest (pre ++ b :: post) →
        h'.Lowest (pre ++ (place (request size) b ++ post))) := by
  obtain ⟨hpos, halign, -⟩ := request_spec hh.toLies hle
  obtain ⟨hfree, hroom, hlast⟩ := hfit
  have hassert : total pre + sizeofStructMem + request size ≤ h.heapEnd
      ∧ (total pre + sizeofStructMem) % 4 = 0 := by
    have hmod := total_mod fun c hc => hh.aligned c (List.mem_append_left (b :: post) hc)
    unfold Heap.heapEnd
    simp only [sizeofStructMem]
    omega
  obtain ⟨taken, htaken⟩ : ∃ taken, takeBlock h (total pre) (request size) = taken := ⟨_, rfl⟩
  have htakes := takeBlock_spec hh.toLies hfree hroom hpos
  rw [htaken] at htakes
  -- `lfree` moves on only if it is the block that was taken
  by_cases hptr : total pre = taken.lfree
  · obtain ⟨lfree, hsearch, hlfree, hfirst⟩ := htakes.lfreeLoop hh.toLies hpos halign
    refine ⟨taken.setLfree lfree, rtMalloc_of_some hzero hle hloop htaken ?_ hassert,
      htakes.becomes hh hfree hpos halign hlfree, fun hlowest q hq => ?_⟩
    · rw [if_pos hptr, ← hptr]
      exact hsearch
    · rw [freeAt_append, Nat.zero_add] at hq
      rcases hq with hq | hq
      · have hold := hlowest q (freeAt_append.mpr (.inl hq))
        have hrange := hq.range fun c hc => hh.toLies.pos c (List.mem_append_left (b :: post) hc)
        rw [← htakes.lfree, ← hptr] at hold
        omega
      · exact hfirst q hq
  · refine ⟨taken.setLfree taken.lfree,
      rtMalloc_of_some hzero hle hloop htaken (if_neg hptr) hassert,
      htakes.becomes hh hfree hpos halign ?_, fun hlowest q hq => ?_⟩
    · rw [htakes.lfree]
      rw [htakes.lfree] at hptr
      refine hh.lfree.imp_left fun hold => ?_
      rw [freeAt_append, freeAt_cons, Nat.zero_add] at hold
      rw [freeAt_append, freeAt_append, Nat.zero_add, total_place]
      rcases hold with hold | ⟨hold, -⟩ | hold
      · exact .inl hold
      · exact absurd hold.symm hptr
      · exact .inr (.inr hold)
    · show taken.lfree ≤ q
      rw [htakes.lfree]
      rcases freeAt_place hq with hq | hq | hq
      · exact hlowest q (freeAt_append.mpr (.inl hq))
      · omega
      · refine hlowest q (freeAt_append.mpr (.inr (.inr ?_)))
        rwa [Nat.zero_add]

/-- **`rt_malloc`** ends. It returns the first block with room from `lfree` on, or there is
none. -/
theorem rtMalloc_spec {h : Heap} {tiles : List Tile} (hh : h.Holds tiles) (size : Nat) :
    ∃ result, rtMalloc h size = some result ∧ Mallocs h tiles size result := by
  by_cases hzero : size = 0
  · exact ⟨_, by rw [rtMalloc, if_pos hzero], .none (.inl hzero)⟩
  by_cases hle : rtAlign size ≤ h.memSizeAligned
  case neg =>
    have hgt : rtAlign size > h.memSizeAligned := Nat.not_le.mp hle
    exact ⟨_, by rw [rtMalloc, if_neg hzero]; exact if_pos hgt, .none (.inr (.inl hgt))⟩
  obtain ⟨hpos, halign, hfits⟩ := request_spec hh.toLies hle
  -- the search sees the blocks from `lfree` on only
  obtain ⟨lo, hi, rfl, hlfree⟩ := hh.toLies.split
  obtain ⟨-, htiled⟩ := Tiled.append_iff.mp hh.tiled
  rw [Nat.zero_add] at htiled
  have hlarge : ∀ b ∈ hi, 12 < b.size := fun b hb => hh.large b (List.mem_append_right lo hb)
  have hlength := length_le_total fun c hc => Nat.lt_trans (by decide) (hlarge c hc)
  have htotal := htiled.end_eq
  have hfuel : hi.length < h.fuel := by
    unfold Heap.fuel
    omega
  rcases mallocLoop_spec hfits hh.bound htiled hlarge hfuel with
    ⟨hloop, hnone⟩ | ⟨mid, b, post, rfl, hloop, hfit, hfirst⟩
  · refine ⟨_, rtMalloc_of_none hzero hle (hlfree ▸ hloop), .none (.inr (.inr ?_))⟩
    intro pre b post heq hlow
    obtain ⟨zs, rfl, hys⟩ := append_eq_of_total_le heq
      (fun c hc => hh.toLies.pos c (List.mem_append_left hi hc)) (hlfree ▸ hlow)
    rw [total_append]
    exact hnone zs b post hys
  · rw [← List.append_assoc] at hh ⊢
    rw [← total_append, ← hlfree] at hloop
    rw [← total_append] at hfit
    have hlow : h.lfree ≤ total (lo ++ mid) := by
      rw [total_append]
      omega
    obtain ⟨h', hmalloc, hbecomes, hlowest⟩ :=
      rtMalloc_found hh hzero hle hloop hfit hlow
    refine ⟨_, hmalloc, .some (lo ++ mid) b post h' hzero hle rfl hfit ?_ hbecomes hlowest⟩
    intro pre' b' post' heq hlow'
    obtain ⟨zs, rfl, hys⟩ := append_eq_of_total_le heq
      (fun c hc => hh.toLies.pos c (by simp [hc])) (hlfree ▸ hlow')
    rw [total_append]
    exact hfirst zs b' post' hys

/-! ### Giving a block back -/

/-- **`rt_free`** of a block in use succeeds: the block becomes free, and is joined with the free
blocks next to it. -/
theorem rtFree_spec {h : Heap} {pre post : List Tile} {b : Tile}
    (hh : h.Holds (pre ++ b :: post)) (hb : b.used = true) :
    ∃ h', rtFree h (total pre + sizeofStructMem) = some h'
      ∧ Becomes h h' (pre ++ b :: post) (coalesce (pre ++ ⟨b.size, false⟩ :: post))
      ∧ (h.Lowest (pre ++ b :: post) →
        h'.Lowest (coalesce (pre ++ ⟨b.size, false⟩ :: post))) := by
  obtain ⟨-, hheader, hpost⟩ := Tiled.append_iff.mp hh.tiled
  rw [Nat.zero_add] at hheader hpost
  have hend := hpost.end_eq
  have hlarge : 12 < b.size := hh.large b (by simp)
  have hbound := hh.bound
  have hused := hh.usedMem
  simp only [totalUsed_append, totalUsed_cons, hb, if_true] at hused
  have hpreUsed := totalUsed_le pre
  have hpostUsed := totalUsed_le post
  have hmod := total_mod fun c hc => hh.aligned c (List.mem_append_left (b :: post) hc)
  have haddress : (total pre + sizeofStructMem) % 4 = 0
      ∧ sizeofStructMem ≤ total pre + sizeofStructMem
      ∧ total pre + sizeofStructMem < h.heapEnd := by
    simp only [sizeofStructMem]
    omega
  have hflags : usedOf h.mem (total pre) ≠ 0 ∧ magicOf h.mem (total pre) = heapMagic := by
    rw [hheader.used, hb]
    exact ⟨by decide, hheader.magic⟩
  -- the heap before `plug_holes`
  obtain ⟨freed, hfreed⟩ : ∃ freed : Heap, { h with
      mem := setMagic (setUsed h.mem (total pre) 0) (total pre) heapMagic
      lfree := if total pre < h.lfree then total pre else h.lfree
      usedMem := sizeSub h.usedMem (sizeSub (nextOf h.mem (total pre)) (total pre)) } = freed :=
    ⟨_, rfl⟩
  have hstep : rtFree h (total pre + sizeofStructMem) = plugHoles freed (total pre) := by
    rw [rtFree, if_pos haddress]
    simp only [Nat.add_sub_cancel]
    rw [if_pos hflags, hfreed]
  have hsize : sizeSub (nextOf h.mem (total pre)) (total pre) = b.size := by
    rw [hheader.next, sizeSub_eq (by omega) (by omega)]
    omega
  have hmem : ∀ x, x < total pre ∨ total pre + 12 ≤ x → freed.mem x = h.mem x := fun x hx => by
    rw [← hfreed]
    show setMagic (setUsed h.mem (total pre) 0) (total pre) heapMagic x = h.mem x
    rw [setMagic, writeNum_outside (by omega), setUsed, writeNum_outside (by omega)]
  have hlies : freed.Lies (pre ++ ⟨b.size, false⟩ :: post) := by
    have htiled := tiled_setUsed hh.tiled hh.large false
    rw [Nat.zero_add] at htiled
    have hcount : sizeSub h.usedMem b.size = totalUsed pre + totalUsed post := by
      rw [hused, sizeSub_eq (by omega) (by omega)]
      omega
    rw [← hfreed]
    refine ⟨htiled, forall_replace [⟨b.size, false⟩] hh.large ?_,
      forall_replace [⟨b.size, false⟩] hh.aligned ?_, ?_, ?_, ?_, hh.least, hbound⟩
    · exact List.forall_mem_singleton.mpr hlarge
    · exact List.forall_mem_singleton.mpr (hh.aligned b (by simp))
    · show FreeAt 0 _ (if total pre < h.lfree then total pre else h.lfree)
        ∨ (if total pre < h.lfree then total pre else h.lfree) = h.heapEnd
      split
      · exact .inl (by simp)
      · refine hh.lfree.imp_left fun hold => ?_
        simp only [freeAt_append, freeAt_cons, hb, Bool.true_eq_false, and_false,
          false_or] at hold
        simp only [freeAt_append, freeAt_cons]
        exact hold.imp_right .inr
    · show sizeSub h.usedMem (sizeSub (nextOf h.mem (total pre)) (total pre)) = _
      rw [hsize, hcount]
      simp
    · show sizeSub h.usedMem (sizeSub (nextOf h.mem (total pre)) (total pre)) ≤ h.maxMem
      have hmax := hh.maxMem
      rw [hsize, hcount]
      omega
  obtain ⟨hpre, htail, -⟩ := separate_append.mp hh.separate
  obtain ⟨h', hplug, hplugs⟩ := plugHoles_spec hlies rfl hpre (separate_cons.mp htail).2
  refine ⟨h', hstep.trans hplug, ⟨⟨hplugs.lies, separate_coalesce _⟩, hplugs.size.trans ?_,
    fun x _ hx => ?_⟩, fun hlow => hplugs.lowest fun q hq => ?_⟩
  · rw [← hfreed]
  · rw [inUse_coalesce] at hx
    refine (hplugs.mem x hx).trans (hmem x ?_)
    simp only [inUse_append, inUse_cons, Bool.false_eq_true, false_and, false_or,
      Nat.zero_add] at hx
    rcases hx with hx | hx
    · have hrange := hx.range.2
      exact .inl (by omega)
    · have hrange := hx.range.1
      exact .inr (by omega)
  · rw [← hfreed]
    show (if total pre < h.lfree then total pre else h.lfree) ≤ q
    simp only [freeAt_append, freeAt_cons, Nat.zero_add, and_true] at hq
    rcases hq with hq | rfl | hq
    · have hold := hlow q (by simp [hq])
      split <;> omega
    · split <;> omega
    · have hold := hlow q (by simp [hq])
      split <;> omega

/-! ### What the clients see -/

/-- The blocks of a heap whose memory in use is written. -/
theorem tiled_write {mem mem' : Memory} {prev p e : Nat} {tiles : List Tile}
    (h : Tiled (HeaderAt mem) prev p tiles e) (hlarge : ∀ b ∈ tiles, 12 < b.size)
    (hmem : ∀ x, p ≤ x → ¬ InUse sizeofStructMem p tiles x → mem' x = mem x) :
    Tiled (HeaderAt mem') prev p tiles e := by
  induction tiles generalizing prev p with
  | nil => exact h
  | cons b tiles ih =>
      have hb := hlarge b List.mem_cons_self
      refine ⟨h.1.congr fun x hlo hhi => hmem x hlo ?_, ih h.2
        (fun c hc => hlarge c (List.mem_cons_of_mem b hc)) fun x hlo hx => hmem x (by omega) ?_⟩
      · rintro (⟨-, hle, -⟩ | hin)
        · simp only [sizeofStructMem] at hle
          omega
        · have hrange := hin.range.1
          omega
      · rintro (⟨-, -, hlt⟩ | hin)
        · omega
        · exact hx hin

/-- The clients write to the memory in use. -/
theorem Heap.Holds.write {h : Heap} {tiles : List Tile} (hh : h.Holds tiles) {mem : Memory}
    (hmem : ∀ x, ¬ InUse sizeofStructMem 0 tiles x → mem x = h.mem x) :
    Heap.Holds { h with mem := mem } tiles :=
  { hh with tiled := tiled_write hh.tiled hh.large fun x _ hx => hmem x hx }

/-- A block at `a` is given to a client, with room for `n` bytes. -/
structure Gives (h h' : Heap) (tiles tiles' : List Tile) (a n : Nat) : Prop where
  holds : h'.Holds tiles'
  size : h'.memSizeAligned = h.memSizeAligned
  mem : ∀ x, InUse sizeofStructMem 0 tiles x → h'.mem x = h.mem x
  fresh : ∀ n', ¬ UsedAt sizeofStructMem 0 tiles a n'
  given : UsedAt sizeofStructMem 0 tiles' a n
  others : ∀ a' n', a' ≠ a →
    (UsedAt sizeofStructMem 0 tiles' a' n' ↔ UsedAt sizeofStructMem 0 tiles a' n')

/-- The block at `a` is taken back. -/
structure Returns (h h' : Heap) (tiles tiles' : List Tile) (a : Nat) : Prop where
  holds : h'.Holds tiles'
  size : h'.memSizeAligned = h.memSizeAligned
  mem : ∀ x, InUse sizeofStructMem 0 tiles' x → h'.mem x = h.mem x
  used : ∀ a' n', UsedAt sizeofStructMem 0 tiles' a' n'
    ↔ UsedAt sizeofStructMem 0 tiles a' n' ∧ a' ≠ a

/-- A block that starts with a free one is not in use at its address. -/
theorem not_usedAt_of_free {pre post : List Tile} {b : Tile} (hb : b.used = false) {n : Nat}
    (hlarge : 12 < b.size) :
    ¬ UsedAt sizeofStructMem 0 (pre ++ b :: post) (total pre + sizeofStructMem) n := by
  intro h
  rw [usedAt_append, usedAt_cons, hb] at h
  rcases h with h | ⟨hused, -⟩ | h
  · have hrange := h.range
    simp only [sizeofStructMem] at hrange
    omega
  · cases hused
  · have hrange := h.range.1
    omega

/-- What the clients hold of the new blocks. -/
theorem usedAt_place {p size a n : Nat} {b : Tile} (hroom : size + 12 ≤ b.size) :
    (UsedAt sizeofStructMem p (place size b) a n → a = p + sizeofStructMem)
      ∧ (n ≤ size → UsedAt sizeofStructMem p (place size b) (p + sizeofStructMem) n) := by
  unfold place
  split
  · simp only [UsedAt, sizeofStructMem, Bool.false_eq_true, false_and, or_false,
      true_and]
    omega
  · simp only [UsedAt, sizeofStructMem, or_false, true_and]
    omega

/-- **`rt_malloc`** gives a block with room for what was asked for, or there is none. -/
theorem rtMalloc_gives {h : Heap} {tiles : List Tile} (hh : h.Holds tiles) {size : Nat}
    (hsize : size + 3 < 2 ^ 32) :
    rtMalloc h size = some (h, none)
      ∨ ∃ h' a tiles', rtMalloc h size = some (h', some a) ∧ Gives h h' tiles tiles' a size
        ∧ (h.Lowest tiles → h'.Lowest tiles') := by
  obtain ⟨result, hmalloc, hresult⟩ := rtMalloc_spec hh size
  cases hresult with
  | none hnone => exact .inl hmalloc
  | some pre b post h' hpos hle htiles hfit hfirst hbecomes hlowest =>
      obtain ⟨hfree, hroom, -⟩ := hfit
      have hb : 12 < b.size := hh.large b (by simp [htiles])
      -- `RT_ALIGN` does not wrap, so the request is not below the size
      have hrequest : size ≤ request size := by
        have halign : size ≤ rtAlign size := by
          unfold rtAlign
          omega
        unfold request
        split <;> omega
      subst htiles
      refine .inr ⟨h', _, _, hmalloc, ⟨hbecomes.holds, hbecomes.size, fun x hx => ?_,
        fun n' => not_usedAt_of_free hfree hb, ?_, fun a' n' hne => ?_⟩, hlowest⟩
      · refine hbecomes.mem x hx ?_
        rw [inUse_append, inUse_cons, hfree] at hx
        rw [inUse_append, inUse_append, total_place]
        rcases hx with hx | ⟨hused, -⟩ | hx
        · exact .inl hx
        · cases hused
        · exact .inr (.inr hx)
      · rw [usedAt_append, usedAt_append, Nat.zero_add]
        exact .inr (.inl ((usedAt_place (a := 0) hroom).2 hrequest))
      · rw [usedAt_append, usedAt_append, usedAt_append, usedAt_cons, total_place, hfree,
          Nat.zero_add]
        constructor
        · rintro (hx | hx | hx)
          · exact .inl hx
          · exact absurd ((usedAt_place (n := n') hroom).1 hx) hne
          · exact .inr (.inr hx)
        · rintro (hx | ⟨hused, -⟩ | hx)
          · exact .inl hx
          · cases hused
          · exact .inr (.inr hx)

/-- **`rt_calloc`** gives such a block, full of zeros. -/
theorem rtCalloc_gives {h : Heap} {tiles : List Tile} (hh : h.Holds tiles) {count size : Nat}
    (hsize : count * size + 3 < 2 ^ 32) :
    rtCalloc h count size = some (h, none)
      ∨ ∃ h' a tiles', rtCalloc h count size = some (h', some a)
        ∧ Gives h h' tiles tiles' a (count * size) ∧ (h.Lowest tiles → h'.Lowest tiles')
        ∧ ∀ i, i < count * size → h'.mem (a + i) = 0 := by
  have hmod : count * size % 2 ^ 32 = count * size := Nat.mod_eq_of_lt (by omega)
  unfold rtCalloc
  simp only [hmod]
  rcases rtMalloc_gives hh hsize with hmalloc | ⟨h', a, tiles', hmalloc, hgives, hlowest⟩
  · rw [hmalloc]
    exact .inl rfl
  · rw [hmalloc]
    refine .inr ⟨_, a, tiles', rfl, ⟨hgives.holds.write fun x hx => if_neg fun hcond => hx ?_,
      hgives.size, fun x hx => ?_, hgives.fresh, hgives.given, hgives.others⟩, hlowest,
      fun i hi => if_pos ⟨Nat.le_add_right a i, by omega⟩⟩
    · exact hgives.given.inUse hcond.1 hcond.2
    · -- the memory in use is that of other blocks
      obtain ⟨c, m, hc, hlo, hhi⟩ := hx.usedAt
      have hne : c ≠ a := fun heq => hgives.fresh m (heq ▸ hc)
      have hdisjoint := ((hgives.others c m hne).mpr hc).disjoint hgives.given
      refine Eq.trans (if_neg ?_) (hgives.mem x hx)
      omega

/-- `rt_calloc` multiplies on 32 bits, and `RT_ALIGN` adds 3: what it returns has room for the
whole array exactly if neither wraps. -/
theorem rtCalloc_room {h h' : Heap} {tiles : List Tile} (hh : h.Holds tiles) {count size a : Nat}
    (hcall : rtCalloc h count size = some (h', some a)) :
    (∃ tiles', h'.Holds tiles' ∧ UsedAt sizeofStructMem 0 tiles' a (count * size))
      ↔ count * size + 3 < 2 ^ 32 := by
  constructor
  · rintro ⟨tiles', hh', hused⟩
    have hrange := hused.range
    have htotal := hh'.tiled.end_eq
    have hbound := hh'.bound
    simp only [sizeofStructMem] at hrange hbound
    omega
  · intro hsize
    rcases rtCalloc_gives hh hsize with hfails | ⟨h'', a', tiles', hcall', hgives, -⟩
    · rw [hfails] at hcall
      cases hcall
    · rw [hcall'] at hcall
      cases hcall
      exact ⟨tiles', hgives.holds, hgives.given⟩

/-- 65537 times 65536 bytes are 65536 for `rt_calloc`. -/
theorem rtCalloc_room_wrap : ∃ h' a,
    rtCalloc (rtSystemHeapInit (fun _ => 0) 70000) 65537 65536 = some (h', some a)
      ∧ ¬ ∃ tiles', h'.Holds tiles' ∧ UsedAt sizeofStructMem 0 tiles' a (65537 * 65536) := by
  obtain ⟨hh, -⟩ := rtSystemHeapInit_holds (fun _ => 0) (show minSizeAligned ≤ 70000 by decide)
    (by decide) (by decide)
  have hgiven : ((rtCalloc (rtSystemHeapInit (fun _ => 0) 70000) 65537 65536).bind (·.2)).isSome
      = true := by decide +kernel
  cases hcall : rtCalloc (rtSystemHeapInit (fun _ => 0) 70000) 65537 65536 with
  | none =>
      rw [hcall] at hgiven
      cases hgiven
  | some result =>
      obtain ⟨h', ptr⟩ := result
      cases ptr with
      | none =>
          rw [hcall] at hgiven
          cases hgiven
      | some a =>
          have hexact := rtCalloc_room hh hcall
          exact ⟨h', a, rfl, fun hroom => absurd (hexact.mp hroom) (by decide)⟩

/-- **`rt_free`** takes back a block in use. -/
theorem rtFree_returns {h : Heap} {tiles : List Tile} (hh : h.Holds tiles) {a n : Nat}
    (ha : UsedAt sizeofStructMem 0 tiles a n) :
    ∃ h' tiles', rtFree h a = some h' ∧ Returns h h' tiles tiles' a
      ∧ (h.Lowest tiles → h'.Lowest tiles') := by
  obtain ⟨pre, b, post, rfl, hb, rfl, -⟩ := ha.split
  rw [Nat.zero_add]
  have hlarge : 12 < b.size := hh.large b (by simp)
  obtain ⟨h', hfree, hbecomes, hlowest⟩ := rtFree_spec hh hb
  refine ⟨h', _, hfree, ⟨hbecomes.holds, hbecomes.size, fun x hx => ?_, fun a' n' => ?_⟩, hlowest⟩
  · refine hbecomes.mem x ?_ hx
    rw [inUse_coalesce, inUse_append, inUse_cons] at hx
    rw [inUse_append, inUse_cons]
    rcases hx with hx | ⟨hused, -⟩ | hx
    · exact .inl hx
    · cases hused
    · exact .inr (.inr hx)
  · rw [usedAt_coalesce, usedAt_append, usedAt_append, usedAt_cons, usedAt_cons]
    constructor
    · rintro (hx | ⟨hused, -⟩ | hx)
      · have hrange := hx.range
        simp only [sizeofStructMem] at hrange ⊢
        exact ⟨.inl hx, by omega⟩
      · cases hused
      · have hrange := hx.range
        simp only [sizeofStructMem] at hrange ⊢
        exact ⟨.inr (.inr hx), by omega⟩
    · rintro ⟨hx | ⟨-, hx, -⟩ | hx, hne⟩
      · exact .inl hx
      · exact absurd (hx.trans (by rw [Nat.zero_add])) hne
      · exact .inr (.inr hx)

end CarLocator.Kernel
