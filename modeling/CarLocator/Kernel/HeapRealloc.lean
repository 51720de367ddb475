import CarLocator.Kernel.HeapCalls

/-!
# `CarLocator.Kernel.HeapRealloc`: a block gets another size

`rt_realloc` leaves the block where it is when it has the right size or when its end is worth
cutting off, and otherwise moves it with `rt_malloc`, a copy and `rt_free`. What is in the block
is kept either way, and so is the memory of the others.
-/

set_option autoImplicit false

namespace CarLocator.Kernel

open CarLocator.Library

/-! ### In place -/

/-- The room of a block in use, as `rt_realloc` computes it. -/
theorem room_eq {h : Heap} {pre post : List Tile} {b : Tile} (hl : h.Lies (pre ++ b :: post)) :
    sizeSub (nextOf h.mem (total pre)) (total pre + sizeofStructMem) = b.size - 12 := by
  obtain ⟨-, hheader, hpost⟩ := Tiled.append_iff.mp hl.tiled
  rw [Nat.zero_add] at hheader hpost
  have hend := hpost.end_eq
  have hbound := hl.bound
  have hlarge : 12 < b.size := hl.large b (by simp)
  rw [hheader.next, sizeofStructMem, sizeSub_eq (by omega) (by omega)]
  omega

/-- **`rt_realloc`** in place: the end of the block becomes a free one. -/
theorem rtReallocInPlace_shrinks {h : Heap} {pre post : List Tile} {b : Tile} {size : Nat}
    (hh : h.Holds (pre ++ b :: post)) (hb : b.used = true) (hpos : 0 < size)
    (halign : size % 4 = 0) (hcond : size + sizeofStructMem + minSizeAligned < b.size - 12) :
    ∃ h', rtReallocInPlace h (total pre + sizeofStructMem) size = some (h', none)
      ∧ Becomes h h' (pre ++ b :: post)
        (coalesce (pre ++ ⟨size + 12, true⟩ :: ⟨b.size - (size + 12), false⟩ :: post))
      ∧ (h.lfree ≤ total pre → h.Lowest (pre ++ b :: post) → h'.Lowest
        (coalesce (pre ++ ⟨size + 12, true⟩ :: ⟨b.size - (size + 12), false⟩ :: post))) := by
  obtain ⟨-, hheader, hpost⟩ := Tiled.append_iff.mp hh.tiled
  rw [Nat.zero_add] at hheader hpost
  have hend := hpost.end_eq
  have hbound := hh.bound
  have hbalign : b.size % 4 = 0 := hh.aligned b (by simp)
  have hlt : size + 24 < b.size - 12 := by
    simp only [sizeofStructMem, minSizeAligned] at hcond
    omega
  have hused := hh.usedMem
  simp only [totalUsed_append, totalUsed_cons, hb, if_true] at hused
  have hpreUsed := totalUsed_le pre
  have hpostUsed := totalUsed_le post
  have hcount : sizeSub h.usedMem (b.size - 12 - size)
      = totalUsed pre + (size + 12 + totalUsed post) := by
    rw [hused, sizeSub_eq (by omega) (by omega)]
    omega
  -- the heap before `plug_holes`, which is called for the second part
  obtain ⟨cut, hcut⟩ : ∃ cut : Heap, { h with
      mem := splitBlock h.mem h.heapEnd (total pre) size
      usedMem := sizeSub h.usedMem (b.size - 12 - size) } = cut := ⟨_, rfl⟩
  have hptr2 : total pre + sizeofStructMem + size = total (pre ++ [⟨size + 12, true⟩]) := by
    simp only [total_append, total_cons, total_nil, sizeofStructMem]
    omega
  have hstep : rtReallocInPlace h (total pre + sizeofStructMem) size
      = (plugHoles cut (total (pre ++ [⟨size + 12, true⟩]))).map fun h => (h, none) := by
    rw [← hcut, ← hptr2]
    simp only [rtReallocInPlace, Nat.add_sub_cancel, room_eq hh.toLies]
    rw [if_neg (by omega), if_pos hcond]
  have hlies : cut.Lies (pre ++ [⟨size + 12, true⟩] ++ ⟨b.size - (size + 12), false⟩ :: post) := by
    have htiled := tiled_split hh.tiled hh.large
      (Nat.lt_of_le_of_lt (Nat.le_add_right _ _) hbound) (show size + 24 < b.size by omega)
      (Nat.zero_add (total pre)).symm
    rw [hb] at htiled
    rw [List.append_assoc, List.singleton_append, ← hcut]
    have hparts : ∀ c ∈ ([⟨size + 12, true⟩, ⟨b.size - (size + 12), false⟩] : List Tile),
        12 < c.size ∧ c.size % 4 = 0 := by
      refine List.forall_mem_cons.mpr ⟨?_, List.forall_mem_singleton.mpr ?_⟩
      · show 12 < size + 12 ∧ (size + 12) % 4 = 0
        omega
      · show 12 < b.size - (size + 12) ∧ (b.size - (size + 12)) % 4 = 0
        omega
    refine ⟨htiled, forall_replace _ hh.large fun c hc => (hparts c hc).1,
      forall_replace _ hh.aligned fun c hc => (hparts c hc).2, ?_, hcount.trans ?_, ?_,
      hh.least, hbound⟩
    · refine hh.lfree.imp_left fun hold => ?_
      have hnext : total pre + (size + 12) + (b.size - (size + 12)) = total pre + b.size := by omega
      simp only [freeAt_append, freeAt_cons, hb, Bool.true_eq_false, and_false, false_or,
        Nat.zero_add] at hold
      simp only [freeAt_append, freeAt_cons, Bool.true_eq_false, and_false, false_or,
        Nat.zero_add, hnext]
      exact hold.imp_right .inr
    · simp
    · show sizeSub h.usedMem (b.size - 12 - size) ≤ h.maxMem
      have hmax := hh.maxMem
      rw [hcount]
      omega
  obtain ⟨hpre, htail, hlast⟩ := separate_append.mp hh.separate
  have hpre' : Separate (pre ++ [⟨size + 12, true⟩]) :=
    separate_append.mpr ⟨hpre, List.IsChain.singleton _, fun c _ d hd => .inr (by
      obtain rfl : (⟨size + 12, true⟩ : Tile) = d := by simpa using hd
      rfl)⟩
  obtain ⟨h', hplug, hplugs⟩ := plugHoles_spec hlies rfl hpre' (separate_cons.mp htail).2
  rw [List.append_assoc, List.singleton_append] at hplugs
  refine ⟨h', by rw [hstep, hplug]; rfl, ⟨⟨hplugs.lies, separate_coalesce _⟩, hplugs.size.trans ?_,
    fun x _ hx => ?_⟩, fun hbelow hlow => hplugs.lowest fun q hq => ?_⟩
  · rw [← hcut]
  · rw [inUse_coalesce] at hx
    refine (hplugs.mem x hx).trans ?_
    rw [← hcut]
    show splitBlock h.mem h.heapEnd (total pre) size x = h.mem x
    have hnext : nextOf h.mem (total pre) = total pre + b.size := hheader.next
    simp only [inUse_append, inUse_cons, Bool.false_eq_true, false_and, false_or, true_and,
      Nat.zero_add] at hx
    rcases hx with hx | ⟨hlo, hhi⟩ | hx
    · have hrange := hx.range.2
      exact splitBlock_outside (by omega) (by omega) (by omega)
    · simp only [sizeofStructMem] at hlo
      exact splitBlock_outside (by omega) (by omega) (by omega)
    · have hrange := hx.range.1
      simp only [sizeofStructMem] at hrange
      exact splitBlock_outside (by omega) (by omega) (by omega)
  · rw [← hcut]
    show h.lfree ≤ q
    have hnext : total pre + (size + 12) + (b.size - (size + 12)) = total pre + b.size := by omega
    simp only [freeAt_append, freeAt_cons, Bool.true_eq_false, and_false, false_or, and_true,
      Nat.zero_add, hnext] at hq
    rcases hq with hq | rfl | hq
    · exact hlow q (by simp [hq])
    · omega
    · exact hlow q (by simp [hq])

/-- The block at `a` is replaced by one at `a'` with room for `n` bytes. -/
structure Replaces (h h' : Heap) (tiles tiles' : List Tile) (a a' n : Nat) : Prop where
  holds : h'.Holds tiles'
  size : h'.memSizeAligned = h.memSizeAligned
  given : UsedAt sizeofStructMem 0 tiles' a' n
  fresh : a' = a ∨ ∀ n', ¬ UsedAt sizeofStructMem 0 tiles a' n'
  others : ∀ c m, c ≠ a' → (UsedAt sizeofStructMem 0 tiles' c m
    ↔ UsedAt sizeofStructMem 0 tiles c m ∧ c ≠ a)
  mem : ∀ c m, c ≠ a' → UsedAt sizeofStructMem 0 tiles' c m → ∀ x, c ≤ x → x < c + m →
    h'.mem x = h.mem x
  content : ∀ m, UsedAt sizeofStructMem 0 tiles a m → ∀ i, i < m → i < n →
    h'.mem (a' + i) = h.mem (a + i)

/-! ### Elsewhere -/

/-- `rt_realloc` of a block in use, when nothing has to move. -/
theorem rtRealloc_inPlace {h h' : Heap} {a size : Nat} (hle : rtAlign size ≤ h.memSizeAligned)
    (hpos : rtAlign size ≠ 0) (hend : a < h.heapEnd) (hstart : sizeofStructMem ≤ a)
    (hin : rtReallocInPlace h a (rtAlign size) = some (h', none)) :
    rtRealloc h a size = some (h', some a) := by
  unfold rtRealloc
  simp only [if_neg (Nat.not_lt.mpr hle), if_neg hpos, if_neg (Nat.not_le.mpr hend),
    if_neg (Nat.not_lt.mpr hstart), hin]
  rfl

/-- When the block has to move and there is no room. -/
theorem rtRealloc_fails {h : Heap} {a size room : Nat} (hle : rtAlign size ≤ h.memSizeAligned)
    (hpos : rtAlign size ≠ 0) (hend : a < h.heapEnd) (hstart : sizeofStructMem ≤ a)
    (hin : rtReallocInPlace h a (rtAlign size) = some (h, some room))
    (hmalloc : rtMalloc h (rtAlign size) = some (h, none)) :
    rtRealloc h a size = some (h, none) := by
  unfold rtRealloc
  simp only [if_neg (Nat.not_lt.mpr hle), if_neg hpos, if_neg (Nat.not_le.mpr hend),
    if_neg (Nat.not_lt.mpr hstart), hin, hmalloc, Option.bind_eq_bind, Option.bind_some]
  rfl

/-- When it moves. -/
theorem rtRealloc_moves {h h₁ h' : Heap} {a a' size room : Nat}
    (hle : rtAlign size ≤ h.memSizeAligned) (hpos : rtAlign size ≠ 0) (hend : a < h.heapEnd)
    (hstart : sizeofStructMem ≤ a)
    (hin : rtReallocInPlace h a (rtAlign size) = some (h, some room))
    (hmalloc : rtMalloc h (rtAlign size) = some (h₁, some a'))
    (hfree : rtFree { h₁ with
        mem := copyBytes h₁.mem a' a (if room < rtAlign size then room else rtAlign size) } a
      = some h') :
    rtRealloc h a size = some (h', some a') := by
  unfold rtRealloc
  simp only [if_neg (Nat.not_lt.mpr hle), if_neg hpos, if_neg (Nat.not_le.mpr hend),
    if_neg (Nat.not_lt.mpr hstart), hin, hmalloc, Option.bind_eq_bind, Option.bind_some, hfree]
  rfl

/-- The room of the block at an address. -/
theorem usedAt_block {pre post : List Tile} {b : Tile} (hlarge : 12 < b.size) {n : Nat} :
    UsedAt sizeofStructMem 0 (pre ++ b :: post) (total pre + sizeofStructMem) n
      ↔ b.used = true ∧ n ≤ b.size - 12 := by
  rw [usedAt_append, usedAt_cons, Nat.zero_add]
  simp only [sizeofStructMem]
  constructor
  · rintro (h | ⟨hb, -, hroom⟩ | h)
    · have hrange := h.range
      omega
    · exact ⟨hb, by omega⟩
    · have hrange := h.range
      omega
  · rintro ⟨hb, hroom⟩
    exact .inr (.inl ⟨hb, trivial, by omega⟩)

/-- The blocks after the end of one has been cut off. -/
theorem replaces_shrunk {h h' : Heap} {pre post : List Tile} {b : Tile} {size n : Nat}
    (hb : b.used = true) (hlt : size + 12 ≤ b.size) (hn : n ≤ size)
    (hbecomes : Becomes h h' (pre ++ b :: post)
      (coalesce (pre ++ ⟨size + 12, true⟩ :: ⟨b.size - (size + 12), false⟩ :: post))) :
    Replaces h h' (pre ++ b :: post)
      (coalesce (pre ++ ⟨size + 12, true⟩ :: ⟨b.size - (size + 12), false⟩ :: post))
      (total pre + sizeofStructMem) (total pre + sizeofStructMem) n := by
  have hnext : total pre + (size + 12) + (b.size - (size + 12)) = total pre + b.size := by omega
  have hothers : ∀ c m, c ≠ total pre + sizeofStructMem →
      (UsedAt sizeofStructMem 0
          (coalesce (pre ++ ⟨size + 12, true⟩ :: ⟨b.size - (size + 12), false⟩ :: post)) c m
        ↔ UsedAt sizeofStructMem 0 (pre ++ b :: post) c m ∧ c ≠ total pre + sizeofStructMem) := by
    intro c m hne
    simp only [usedAt_coalesce, usedAt_append, usedAt_cons, Nat.zero_add, hnext, hb, hne, false_and,
      and_false, false_or, Bool.false_eq_true, ne_eq, not_false_eq_true, and_true]
  have hgiven : UsedAt sizeofStructMem 0
      (coalesce (pre ++ ⟨size + 12, true⟩ :: ⟨b.size - (size + 12), false⟩ :: post))
      (total pre + sizeofStructMem) size := by
    rw [usedAt_coalesce, usedAt_append, usedAt_cons]
    refine .inr (.inl ⟨rfl, by rw [Nat.zero_add], ?_⟩)
    show sizeofStructMem + size ≤ size + 12
    simp only [sizeofStructMem]
    omega
  refine ⟨hbecomes.holds, hbecomes.size, hgiven.mono hn, .inl rfl, hothers,
    fun c m hne hc x hlo hhi => ?_, fun m hm i him hin => ?_⟩
  · exact hbecomes.mem x (((hothers c m hne).mp hc).1.inUse hlo hhi) (hc.inUse hlo hhi)
  · exact hbecomes.mem _ (hm.inUse (by omega) (by omega)) (hgiven.inUse (by omega) (by omega))

/-- The blocks after one has moved. -/
theorem rtRealloc_replaces_moved {h h₁ : Heap} {pre post tiles₁ : List Tile} {b : Tile}
    {a' size : Nat} (hh : h.Holds (pre ++ b :: post)) (hb : b.used = true)
    (hle : rtAlign size ≤ h.memSizeAligned) (hnonzero : rtAlign size ≠ 0)
    (hround : size ≤ rtAlign size) (hend : total pre + sizeofStructMem < h.heapEnd)
    (hin : rtReallocInPlace h (total pre + sizeofStructMem) (rtAlign size)
      = some (h, some (b.size - 12)))
    (hmalloc : rtMalloc h (rtAlign size) = some (h₁, some a'))
    (hgives : Gives h h₁ (pre ++ b :: post) tiles₁ a' (rtAlign size))
    (hlowest : h.Lowest (pre ++ b :: post) → h₁.Lowest tiles₁) :
    ∃ h' a' tiles', rtRealloc h (total pre + sizeofStructMem) size = some (h', some a')
      ∧ Replaces h h' (pre ++ b :: post) tiles' (total pre + sizeofStructMem) a' size
      ∧ (h.Lowest (pre ++ b :: post) → h'.Lowest tiles') := by
  have hlarge : 12 < b.size := hh.large b (by simp)
  obtain ⟨a, ha⟩ : ∃ a, total pre + sizeofStructMem = a := ⟨_, rfl⟩
  have hroom : ∀ m, UsedAt sizeofStructMem 0 (pre ++ b :: post) a m ↔ m ≤ b.size - 12 :=
    fun m => by
      rw [← ha, usedAt_block hlarge]
      exact and_iff_right hb
  have hstart : sizeofStructMem ≤ a := ha ▸ Nat.le_add_left _ _
  rw [ha] at hin hend ⊢
  have hnew : a' ≠ a := fun heq => hgives.fresh 0 (heq ▸ (hroom 0).mpr (Nat.zero_le _))
  obtain ⟨len, hlen⟩ : ∃ len, (if b.size - 12 < rtAlign size then b.size - 12 else rtAlign size)
    = len := ⟨_, rfl⟩
  have hlenSize : len ≤ rtAlign size := by
    rw [← hlen]
    split <;> omega
  obtain ⟨copied, hcopied⟩ : ∃ copied : Heap,
    { h₁ with mem := copyBytes h₁.mem a' a len } = copied := ⟨_, rfl⟩
  have hmem : ∀ x, copied.mem x
      = if a' ≤ x ∧ x < a' + len then h₁.mem (a + (x - a')) else h₁.mem x := fun x => by
    rw [← hcopied]
    rfl
  -- the copy stays inside the new block
  have hholds : copied.Holds tiles₁ := by
    rw [← hcopied]
    exact hgives.holds.write fun x hx => if_neg fun hcond =>
      hx (hgives.given.inUse hcond.1 (by omega))
  have hused := (hgives.others a (b.size - 12) hnew.symm).mpr ((hroom _).mpr (Nat.le_refl _))
  have hsame : copied.lfree = h₁.lfree := by rw [← hcopied]
  obtain ⟨h', tiles', hfree, hreturns, hlowest'⟩ := rtFree_returns hholds hused
  have hgiven := (hreturns.used a' (rtAlign size)).mpr ⟨hgives.given, hnew⟩
  refine ⟨h', a', tiles', ?_, ⟨hreturns.holds, ?_, hgiven.mono hround, .inr hgives.fresh,
    fun c m hne => ?_, fun c m hne hc x hlo hhi => ?_, fun m hm i him hin => ?_⟩,
    fun hlow => hlowest' fun q hq => hsame ▸ hlowest hlow q hq⟩
  · refine rtRealloc_moves hle hnonzero hend hstart hin hmalloc ?_
    rw [hlen, hcopied]
    exact hfree
  · rw [hreturns.size, ← hgives.size, ← hcopied]
  · exact (hreturns.used c m).trans (and_congr_left fun _ => hgives.others c m hne)
  · -- the other blocks lie outside the copy
    obtain ⟨hc₁, hca⟩ := (hreturns.used c m).mp hc
    have hc₀ := (hgives.others c m hne).mp hc₁
    have hdisjoint := hc₁.disjoint hgives.given
    rw [hreturns.mem x (hc.inUse hlo hhi), hmem, if_neg (by omega),
      hgives.mem x (hc₀.inUse hlo hhi)]
  · have hm' := (hroom m).mp hm
    have hilen : i < len := by
      rw [← hlen]
      split <;> omega
    rw [hreturns.mem _ (hgiven.inUse (Nat.le_add_right a' i) (by omega)), hmem,
      if_pos ⟨Nat.le_add_right a' i, by omega⟩, Nat.add_sub_cancel_left,
      hgives.mem _ (hm.inUse (Nat.le_add_right a i) (by omega))]

/-- `rt_realloc` cuts off the end of a block below `lfree`, and does not lower `lfree`. -/
def Hides (h : Heap) (a size : Nat) : Prop :=
  rtAlign size + sizeofStructMem + minSizeAligned
      < sizeSub (nextOf h.mem (a - sizeofStructMem)) (a - sizeofStructMem + sizeofStructMem)
    ∧ a - sizeofStructMem < h.lfree

instance (h : Heap) (a size : Nat) : Decidable (Hides h a size) :=
  inferInstanceAs (Decidable (_ ∧ _))

/-- **`rt_realloc`** of a block in use keeps what is in it, in place or elsewhere. If it returns
`RT_NULL` the heap has not changed. -/
theorem rtRealloc_replaces {h : Heap} {tiles : List Tile} (hh : h.Holds tiles) {a n size : Nat}
    (ha : UsedAt sizeofStructMem 0 tiles a n) (hpos : size ≠ 0) (hsize : size + 3 < 2 ^ 32) :
    rtRealloc h a size = some (h, none)
      ∨ ∃ h' a' tiles', rtRealloc h a size = some (h', some a')
        ∧ Replaces h h' tiles tiles' a a' size
        ∧ (¬ Hides h a size → h.Lowest tiles → h'.Lowest tiles') := by
  have hbound : h.memSizeAligned + 12 + 12 < 2 ^ 32 := hh.bound
  have hround : size ≤ rtAlign size ∧ rtAlign size % 4 = 0 := by
    unfold rtAlign
    omega
  by_cases hle : rtAlign size ≤ h.memSizeAligned
  case neg =>
    refine .inl ?_
    unfold rtRealloc
    exact if_pos (Nat.not_le.mp hle)
  have hnonzero : rtAlign size ≠ 0 := by omega
  obtain ⟨pre, b, post, rfl, hb, rfl, hroom⟩ := ha.split
  rw [Nat.zero_add] at ha ⊢
  have hrange := ha.range
  have htotal := hh.tiled.end_eq
  have hlarge : 12 < b.size := hh.large b (by simp)
  simp only [total_append, total_cons] at htotal hrange
  have hend : total pre + sizeofStructMem < h.heapEnd := by
    simp only [sizeofStructMem]
    omega
  have hstart : sizeofStructMem ≤ total pre + sizeofStructMem := Nat.le_add_left _ _
  by_cases hsame : b.size - 12 = rtAlign size
  · -- the room is what is asked for
    refine .inr ⟨h, _, _, rtRealloc_inPlace hle hnonzero hend hstart ?_, ⟨hh, rfl, ?_, .inl rfl,
      fun c m hne => ⟨fun hc => ⟨hc, hne⟩, fun hc => hc.1⟩, fun _ _ _ _ _ _ _ => rfl,
      fun _ _ _ _ _ => rfl⟩, fun _ hlow => hlow⟩
    · simp only [rtReallocInPlace, Nat.add_sub_cancel, room_eq hh.toLies]
      rw [if_pos hsame]
    · exact (usedAt_block hlarge).mpr ⟨hb, by omega⟩
  -- either the end is worth cutting off, or the block moves
  by_cases hless : rtAlign size + sizeofStructMem + minSizeAligned < b.size - 12
  · obtain ⟨h', hin, hbecomes, hlowest⟩ :=
      rtReallocInPlace_shrinks hh hb (Nat.pos_of_ne_zero hnonzero) hround.2 hless
    refine .inr ⟨h', _, _, rtRealloc_inPlace hle hnonzero hend hstart hin,
      replaces_shrunk hb (by omega) hround.1 hbecomes, fun hnot => hlowest ?_⟩
    refine Nat.le_of_not_lt fun hbelow => hnot ⟨?_, ?_⟩
    · rwa [Nat.add_sub_cancel, room_eq hh.toLies]
    · rwa [Nat.add_sub_cancel]
  · have hin : rtReallocInPlace h (total pre + sizeofStructMem) (rtAlign size)
        = some (h, some (b.size - 12)) := by
      simp only [rtReallocInPlace, Nat.add_sub_cancel, room_eq hh.toLies]
      rw [if_neg hsame, if_neg hless]
    rcases @rtMalloc_gives h _ hh (rtAlign size) (by omega) with
      hmalloc | ⟨h₁, a', tiles₁, hmalloc, hgives, hlowest⟩
    · exact .inl (rtRealloc_fails hle hnonzero hend hstart hin hmalloc)
    · obtain ⟨h', a', tiles', hcall, hreplaces, hlowest'⟩ := rtRealloc_replaces_moved hh hb hle
        hnonzero hround.1 hend hin hmalloc hgives hlowest
      exact .inr ⟨h', a', tiles', hcall, hreplaces, fun _ => hlowest'⟩

end CarLocator.Kernel
