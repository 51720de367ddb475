import Mathlib.Data.List.Basic
import Mathlib.Data.List.Chain

/-!
# `CarLocator.Library.Tiling`: blocks laid end to end

An interval of addresses is cut into tiles, each used or not. Every tile starts with a header that
names the tile before it and the one behind it. `Tiled H prev p tiles e` says that the tiles fill
the interval from `p` to `e` and that each has a header, `H` being what a header says.

`Tiled.append_iff` cuts a tiling in two, and `Tiled.imp` moves it to other headers.

`coalesce` joins the unused tiles that lie next to each other. `Separate` tiles are those it
leaves alone (`coalesce_of_separate`), and `coalesce_append` says that it only has work to do
where tiles have changed.

`FreeAt` are the addresses of the unused tiles, `UsedAt` those of the used ones, behind their
headers. `UsedAt.disjoint` says that these do not overlap.
-/

set_option autoImplicit false

namespace CarLocator.Library

/-- A tile. -/
structure Tile where
  size : Nat
  used : Bool
  deriving DecidableEq, Repr

/-- The size of the interval that tiles fill. -/
def total : List Tile → Nat
  | [] => 0
  | b :: tiles => b.size + total tiles

@[simp] theorem total_nil : total [] = 0 := rfl

@[simp] theorem total_cons (b : Tile) (tiles : List Tile) :
    total (b :: tiles) = b.size + total tiles := rfl

@[simp] theorem total_append (xs ys : List Tile) : total (xs ++ ys) = total xs + total ys := by
  induction xs with
  | nil => rw [List.nil_append, total_nil, Nat.zero_add]
  | cons b xs ih => rw [List.cons_append, total_cons, total_cons, ih, Nat.add_assoc]

/-- There are at most as many tiles as addresses. -/
theorem length_le_total {tiles : List Tile} (hpos : ∀ b ∈ tiles, 0 < b.size) :
    tiles.length ≤ total tiles := by
  induction tiles with
  | nil => exact Nat.le_refl 0
  | cons b tiles ih =>
      have hb := hpos b List.mem_cons_self
      have hrest := ih fun c hc => hpos c (List.mem_cons_of_mem b hc)
      rw [List.length_cons, total_cons]
      omega

/-- Tiles of aligned sizes end at an aligned address. -/
theorem total_mod {n : Nat} {tiles : List Tile} (h : ∀ b ∈ tiles, b.size % n = 0) :
    total tiles % n = 0 := by
  induction tiles with
  | nil => exact Nat.zero_mod n
  | cons b tiles ih =>
      rw [total_cons, Nat.add_mod, h b List.mem_cons_self,
        ih fun c hc => h c (List.mem_cons_of_mem b hc), Nat.zero_add, Nat.zero_mod]

/-- Others take the place of one tile, and have what all tiles have. -/
theorem forall_replace {P : Tile → Prop} {pre post : List Tile} {b : Tile} (mid : List Tile)
    (h : ∀ c ∈ pre ++ b :: post, P c) (hmid : ∀ c ∈ mid, P c) :
    ∀ c ∈ pre ++ (mid ++ post), P c := by
  intro c hc
  rcases List.mem_append.mp hc with hpre | hrest
  · exact h c (List.mem_append_left _ hpre)
  · rcases List.mem_append.mp hrest with hc | hpost
    · exact hmid c hc
    · exact h c (List.mem_append_right _ (List.mem_cons_of_mem b hpost))

/-- Where the last tile starts, of tiles that start at `p`. The tile before `p` starts at
`prev`. -/
def lastStart : (prev p : Nat) → List Tile → Nat
  | prev, _, [] => prev
  | _, p, b :: tiles => lastStart p (p + b.size) tiles

theorem lastStart_append (prev p : Nat) (xs ys : List Tile) :
    lastStart prev p (xs ++ ys) = lastStart (lastStart prev p xs) (p + total xs) ys := by
  induction xs generalizing prev p with
  | nil => rfl
  | cons b xs ih => rw [List.cons_append, lastStart, lastStart, ih, total_cons, Nat.add_assoc]

@[simp] theorem lastStart_append_singleton (prev p : Nat) (tiles : List Tile) (b : Tile) :
    lastStart prev p (tiles ++ [b]) = p + total tiles := by
  rw [lastStart_append]
  rfl

/-- The tiles fill the interval from `p` to `e`, and each has its header. -/
def Tiled (H : (prev p : Nat) → Tile → Prop) : (prev p : Nat) → List Tile → (e : Nat) → Prop
  | _, p, [], e => p = e
  | prev, p, b :: tiles, e => H prev p b ∧ Tiled H p (p + b.size) tiles e

section Tiled

variable {H H' : (prev p : Nat) → Tile → Prop}

/-- The end of the interval. -/
theorem Tiled.end_eq {prev p e : Nat} {tiles : List Tile} (h : Tiled H prev p tiles e) :
    p + total tiles = e := by
  induction tiles generalizing prev p with
  | nil => exact h
  | cons b tiles ih =>
      rw [total_cons, ← Nat.add_assoc]
      exact ih h.2

/-- Two tilings in a row. -/
theorem Tiled.append_iff {prev p e : Nat} {xs ys : List Tile} :
    Tiled H prev p (xs ++ ys) e
      ↔ Tiled H prev p xs (p + total xs) ∧ Tiled H (lastStart prev p xs) (p + total xs) ys e := by
  induction xs generalizing prev p with
  | nil => exact ⟨fun h => ⟨rfl, h⟩, fun h => h.2⟩
  | cons b xs ih =>
      rw [List.cons_append, total_cons, ← Nat.add_assoc]
      constructor
      · rintro ⟨hhead, hrest⟩
        obtain ⟨hxs, hys⟩ := ih.mp hrest
        exact ⟨⟨hhead, hxs⟩, hys⟩
      · rintro ⟨⟨hhead, hxs⟩, hys⟩
        exact ⟨hhead, ih.mpr ⟨hxs, hys⟩⟩

/-- A tiling moves to other headers, which have to say the same about the tiles in the
interval. -/
theorem Tiled.imp {prev p e : Nat} {tiles : List Tile} (h : Tiled H prev p tiles e)
    (himp : ∀ prev q, ∀ b ∈ tiles, p ≤ q → q + b.size ≤ e → H prev q b → H' prev q b) :
    Tiled H' prev p tiles e := by
  induction tiles generalizing prev p with
  | nil => exact h
  | cons b tiles ih =>
      have hend := h.2.end_eq
      refine ⟨himp prev p b List.mem_cons_self (Nat.le_refl p) (by omega) h.1, ?_⟩
      refine ih h.2 fun prev' q c hc hle hfit => ?_
      exact himp prev' q c (List.mem_cons_of_mem b hc) (by omega) hfit

/-- A tile of a tiling has its header. -/
theorem Tiled.header {prev p e : Nat} {pre post : List Tile} {b : Tile}
    (h : Tiled H prev p (pre ++ b :: post) e) :
    H (lastStart prev p pre) (p + total pre) b :=
  (Tiled.append_iff.mp h).2.1

end Tiled

/-! ### Joining unused tiles -/

/-- The tiles that lie next to each other are not both unused. -/
def Separate (tiles : List Tile) : Prop :=
  tiles.IsChain fun b c => b.used = true ∨ c.used = true

/-- A tile is put before others, and joined with the first one if both are unused. -/
def push (b : Tile) : List Tile → List Tile
  | [] => [b]
  | c :: tiles => if b.used = false ∧ c.used = false then ⟨b.size + c.size, false⟩ :: tiles
    else b :: c :: tiles

/-- The unused tiles that lie next to each other are joined. -/
def coalesce : List Tile → List Tile
  | [] => []
  | b :: tiles => push b (coalesce tiles)

/-- Separate tiles with one before them. -/
theorem separate_cons {b : Tile} {tiles : List Tile} :
    Separate (b :: tiles)
      ↔ (∀ c ∈ tiles.head?, b.used = true ∨ c.used = true) ∧ Separate tiles := by
  rw [Separate, List.isChain_cons]
  rfl

/-- A tile that is separate from those behind it stays so. -/
theorem push_of_separate {b : Tile} {tiles : List Tile} (h : Separate (b :: tiles)) :
    push b tiles = b :: tiles := by
  cases tiles with
  | nil => rfl
  | cons c tiles =>
      rw [push, if_neg]
      rintro ⟨hb, hc⟩
      rcases (separate_cons.mp h).1 c rfl with hused | hused
      · rw [hb] at hused
        cases hused
      · rw [hc] at hused
        cases hused

/-- Tiles that are separate from what is behind them are left alone. -/
theorem coalesce_append {xs ys : List Tile} (h : Separate (xs ++ coalesce ys)) :
    coalesce (xs ++ ys) = xs ++ coalesce ys := by
  induction xs with
  | nil => rfl
  | cons b xs ih =>
      rw [List.cons_append, coalesce, ih (separate_cons.mp h).2]
      exact push_of_separate h

/-- Separate tiles are left alone. -/
theorem coalesce_of_separate {tiles : List Tile} (h : Separate tiles) :
    coalesce tiles = tiles := by
  have happend : Separate (tiles ++ coalesce []) := by rwa [coalesce, List.append_nil]
  have heq := coalesce_append happend
  rwa [coalesce, List.append_nil] at heq

/-- What `push` puts at the front is used if the tile is. -/
theorem head_push (b : Tile) (tiles : List Tile) :
    ∃ c rest, push b tiles = c :: rest ∧ c.used = b.used := by
  cases tiles with
  | nil => exact ⟨b, [], rfl, rfl⟩
  | cons c tiles =>
      rw [push]
      split
      · rename_i h
        exact ⟨_, _, rfl, h.1.symm⟩
      · exact ⟨_, _, rfl, rfl⟩

/-- The result is separate. -/
theorem separate_push {b : Tile} {tiles : List Tile} (h : Separate tiles) :
    Separate (push b tiles) := by
  cases tiles with
  | nil => exact List.IsChain.singleton b
  | cons c tiles =>
      rw [push]
      obtain ⟨hhead, hrest⟩ := separate_cons.mp h
      split
      · rename_i hfree
        refine separate_cons.mpr ⟨fun d hd => ?_, hrest⟩
        rcases hhead d hd with hc | hd'
        · rw [hfree.2] at hc
          cases hc
        · exact .inr hd'
      · rename_i hused
        refine separate_cons.mpr ⟨fun d hd => ?_, h⟩
        obtain rfl : c = d := by simpa using hd
        cases hb : b.used with
        | true => exact .inl rfl
        | false =>
            cases hc : c.used with
            | true => exact .inr rfl
            | false => exact absurd ⟨hb, hc⟩ hused

theorem separate_coalesce (tiles : List Tile) : Separate (coalesce tiles) := by
  induction tiles with
  | nil => exact List.IsChain.nil
  | cons b tiles ih => exact separate_push ih

/-- Separate tiles in a row. -/
theorem separate_append {xs ys : List Tile} :
    Separate (xs ++ ys) ↔ Separate xs ∧ Separate ys
      ∧ ∀ b ∈ xs.getLast?, ∀ c ∈ ys.head?, b.used = true ∨ c.used = true :=
  List.isChain_append

/-- A tile becomes unused behind a used one: it is joined with the tile behind it at most. -/
theorem coalesce_used_before {xs ys : List Tile} (f : Tile) (hxs : Separate xs)
    (hys : Separate ys) (hlast : ∀ b ∈ xs.getLast?, b.used = true) :
    coalesce (xs ++ f :: ys) = xs ++ push f ys := by
  have hpush : coalesce (f :: ys) = push f ys := by rw [coalesce, coalesce_of_separate hys]
  rw [coalesce_append, hpush]
  rw [hpush]
  exact separate_append.mpr ⟨hxs, separate_push hys, fun b hb _ _ => .inl (hlast b hb)⟩

/-- A tile becomes unused behind an unused one: it is joined with that one too. -/
theorem coalesce_free_before {xs ys : List Tile} {c : Tile} (f : Tile)
    (hxs : Separate (xs ++ [c])) (hc : c.used = false) (hys : Separate ys) :
    coalesce (xs ++ c :: f :: ys) = xs ++ push c (push f ys) := by
  have hpush : coalesce (c :: f :: ys) = push c (push f ys) := by
    rw [coalesce, coalesce, coalesce_of_separate hys]
  obtain ⟨hleft, -, hlast⟩ := separate_append.mp hxs
  rw [coalesce_append, hpush]
  rw [hpush]
  refine separate_append.mpr ⟨hleft, separate_push (separate_push hys), fun b hb _ _ => ?_⟩
  rcases hlast b hb c rfl with hused | hused
  · exact .inl hused
  · rw [hc] at hused
    cases hused

/-- Separate tiles that are all unused are one tile. -/
theorem eq_singleton_of_separate {tiles : List Tile} (h : Separate tiles) (hne : tiles ≠ [])
    (hfree : ∀ b ∈ tiles, b.used = false) : tiles = [⟨total tiles, false⟩] := by
  cases tiles with
  | nil => exact absurd rfl hne
  | cons b tiles =>
      have hb := hfree b List.mem_cons_self
      cases tiles with
      | nil =>
          cases b
          simp_all
      | cons c tiles =>
          have hc := hfree c (List.mem_cons_of_mem _ List.mem_cons_self)
          rcases (separate_cons.mp h).1 c rfl with hused | hused
          · rw [hb] at hused
            cases hused
          · rw [hc] at hused
            cases hused

/-! ### Addresses -/

/-- An unused tile starts at `q`. -/
def FreeAt : (p : Nat) → List Tile → (q : Nat) → Prop
  | _, [], _ => False
  | p, b :: tiles, q => (q = p ∧ b.used = false) ∨ FreeAt (p + b.size) tiles q

/-- A used tile holds the address `x`, behind a header of the given size. -/
def InUse (header : Nat) : (p : Nat) → List Tile → (x : Nat) → Prop
  | _, [], _ => False
  | p, b :: tiles, x =>
    (b.used = true ∧ p + header ≤ x ∧ x < p + b.size) ∨ InUse header (p + b.size) tiles x

/-- The sizes of the used tiles. -/
def totalUsed (tiles : List Tile) : Nat := total (tiles.filter Tile.used)

@[simp] theorem freeAt_cons {p q : Nat} {b : Tile} {tiles : List Tile} :
    FreeAt p (b :: tiles) q ↔ (q = p ∧ b.used = false) ∨ FreeAt (p + b.size) tiles q := Iff.rfl

@[simp] theorem freeAt_append {p q : Nat} {xs ys : List Tile} :
    FreeAt p (xs ++ ys) q ↔ FreeAt p xs q ∨ FreeAt (p + total xs) ys q := by
  induction xs generalizing p with
  | nil => simp [FreeAt]
  | cons b xs ih => rw [List.cons_append, freeAt_cons, freeAt_cons, ih, or_assoc, total_cons,
      Nat.add_assoc]

/-- It lies in the interval. -/
theorem FreeAt.range {p q : Nat} {tiles : List Tile} (h : FreeAt p tiles q)
    (hpos : ∀ b ∈ tiles, 0 < b.size) : p ≤ q ∧ q < p + total tiles := by
  induction tiles generalizing p with
  | nil => exact h.elim
  | cons b tiles ih =>
      have hb := hpos b List.mem_cons_self
      rw [total_cons]
      rcases h with ⟨rfl, -⟩ | h
      · omega
      · have hrest := ih h fun c hc => hpos c (List.mem_cons_of_mem b hc)
        omega

/-- It is one of the tiles. -/
theorem FreeAt.split {p q : Nat} {tiles : List Tile} (h : FreeAt p tiles q) :
    ∃ pre b post, tiles = pre ++ b :: post ∧ q = p + total pre ∧ b.used = false := by
  induction tiles generalizing p with
  | nil => exact h.elim
  | cons b tiles ih =>
      rcases h with ⟨rfl, hb⟩ | h
      · exact ⟨[], b, tiles, rfl, rfl, hb⟩
      · obtain ⟨pre, c, post, rfl, rfl, hc⟩ := ih h
        exact ⟨b :: pre, c, post, rfl, by rw [total_cons, Nat.add_assoc], hc⟩

/-- Two ways to cut tiles in two, by address. -/
theorem append_eq_of_total_le {xs ys pre post : List Tile} (h : xs ++ ys = pre ++ post)
    (hpos : ∀ b ∈ xs, 0 < b.size) (hle : total xs ≤ total pre) :
    ∃ zs, pre = xs ++ zs ∧ ys = zs ++ post := by
  rcases List.append_eq_append_iff.mp h with ⟨zs, hpre, hys⟩ | ⟨zs, hxs, hpost⟩
  · exact ⟨zs, hpre, hys⟩
  · cases zs with
    | nil => exact ⟨[], by rw [hxs, List.append_nil, List.append_nil], hpost.symm⟩
    | cons b zs =>
        have hb := hpos b (by simp [hxs])
        rw [hxs, total_append, total_cons] at hle
        omega

/-- The first unused tile lies behind the used ones before it. -/
theorem freeAt_takeWhile (p : Nat) (tiles : List Tile) :
    FreeAt p tiles (p + total (tiles.takeWhile Tile.used))
      ∨ total (tiles.takeWhile Tile.used) = total tiles := by
  induction tiles generalizing p with
  | nil => exact .inr rfl
  | cons b tiles ih =>
      cases hb : b.used with
      | false =>
          rw [List.takeWhile_cons_of_neg (by simp [hb])]
          exact .inl (.inl ⟨rfl, hb⟩)
      | true =>
          rw [List.takeWhile_cons_of_pos hb, total_cons, total_cons, ← Nat.add_assoc]
          rcases ih (p + b.size) with hfree | hall
          · exact .inl (.inr hfree)
          · exact .inr (by rw [hall])

/-- It is the first one. -/
theorem takeWhile_le_of_freeAt {p q : Nat} {tiles : List Tile} (h : FreeAt p tiles q) :
    p + total (tiles.takeWhile Tile.used) ≤ q := by
  induction tiles generalizing p with
  | nil => exact h.elim
  | cons b tiles ih =>
      cases hb : b.used with
      | false =>
          rw [List.takeWhile_cons_of_neg (by simp [hb]), total_nil]
          rcases h with ⟨rfl, -⟩ | h
          · omega
          · have hle := ih h
            omega
      | true =>
          rw [List.takeWhile_cons_of_pos hb, total_cons]
          rcases h with ⟨-, hfree⟩ | h
          · rw [hb] at hfree
            cases hfree
          · have hle := ih h
            omega

@[simp] theorem inUse_cons {header p x : Nat} {b : Tile} {tiles : List Tile} :
    InUse header p (b :: tiles) x
      ↔ (b.used = true ∧ p + header ≤ x ∧ x < p + b.size)
        ∨ InUse header (p + b.size) tiles x := Iff.rfl

@[simp] theorem inUse_append {header p x : Nat} {xs ys : List Tile} :
    InUse header p (xs ++ ys) x
      ↔ InUse header p xs x ∨ InUse header (p + total xs) ys x := by
  induction xs generalizing p with
  | nil => simp [InUse]
  | cons b xs ih => rw [List.cons_append, inUse_cons, inUse_cons, ih, or_assoc, total_cons,
      Nat.add_assoc]

/-- It lies in the interval, behind the first header. -/
theorem InUse.range {header p x : Nat} {tiles : List Tile} (h : InUse header p tiles x) :
    p + header ≤ x ∧ x < p + total tiles := by
  induction tiles generalizing p with
  | nil => exact h.elim
  | cons b tiles ih =>
      rw [total_cons]
      rcases h with ⟨-, hlo, hhi⟩ | h
      · omega
      · have hrest := ih h
        omega

/-- Joining unused tiles does not matter to the used ones. -/
theorem inUse_push {header p x : Nat} {b : Tile} {tiles : List Tile} :
    InUse header p (push b tiles) x ↔ InUse header p (b :: tiles) x := by
  cases tiles with
  | nil => rfl
  | cons c tiles =>
      rw [push]
      split
      · rename_i hfree
        simp [hfree.1, hfree.2, Nat.add_assoc]
      · exact Iff.rfl

@[simp] theorem inUse_coalesce {header p x : Nat} {tiles : List Tile} :
    InUse header p (coalesce tiles) x ↔ InUse header p tiles x := by
  induction tiles generalizing p with
  | nil => rfl
  | cons b tiles ih => rw [coalesce, inUse_push, inUse_cons, inUse_cons, ih]

/-- A used tile whose memory starts at `a` has room for `n` addresses behind its header. -/
def UsedAt (header : Nat) : (p : Nat) → List Tile → (a n : Nat) → Prop
  | _, [], _, _ => False
  | p, b :: tiles, a, n =>
    (b.used = true ∧ a = p + header ∧ header + n ≤ b.size) ∨ UsedAt header (p + b.size) tiles a n

@[simp] theorem usedAt_cons {header p a n : Nat} {b : Tile} {tiles : List Tile} :
    UsedAt header p (b :: tiles) a n
      ↔ (b.used = true ∧ a = p + header ∧ header + n ≤ b.size)
        ∨ UsedAt header (p + b.size) tiles a n := Iff.rfl

@[simp] theorem usedAt_append {header p a n : Nat} {xs ys : List Tile} :
    UsedAt header p (xs ++ ys) a n
      ↔ UsedAt header p xs a n ∨ UsedAt header (p + total xs) ys a n := by
  induction xs generalizing p with
  | nil => simp [UsedAt]
  | cons b xs ih => rw [List.cons_append, usedAt_cons, usedAt_cons, ih, or_assoc, total_cons,
      Nat.add_assoc]

/-- It is one of the tiles. -/
theorem UsedAt.split {header p a n : Nat} {tiles : List Tile} (h : UsedAt header p tiles a n) :
    ∃ pre b post, tiles = pre ++ b :: post ∧ b.used = true ∧ a = p + total pre + header
      ∧ header + n ≤ b.size := by
  induction tiles generalizing p with
  | nil => exact h.elim
  | cons b tiles ih =>
      rcases h with ⟨hb, rfl, hroom⟩ | h
      · exact ⟨[], b, tiles, rfl, hb, rfl, hroom⟩
      · obtain ⟨pre, c, post, rfl, hc, rfl, hroom⟩ := ih h
        exact ⟨b :: pre, c, post, rfl, hc, by rw [total_cons, ← Nat.add_assoc], hroom⟩

/-- Less room would do as well. -/
theorem UsedAt.mono {header p a n m : Nat} {tiles : List Tile} (h : UsedAt header p tiles a n)
    (hle : m ≤ n) : UsedAt header p tiles a m := by
  induction tiles generalizing p with
  | nil => exact h
  | cons b tiles ih =>
      rcases h with ⟨hb, ha, hroom⟩ | h
      · exact .inl ⟨hb, ha, by omega⟩
      · exact .inr (ih h)

/-- Its addresses are in use. -/
theorem UsedAt.inUse {header p a n x : Nat} {tiles : List Tile} (h : UsedAt header p tiles a n)
    (hlo : a ≤ x) (hhi : x < a + n) : InUse header p tiles x := by
  induction tiles generalizing p with
  | nil => exact h.elim
  | cons b tiles ih =>
      rcases h with ⟨hb, rfl, hroom⟩ | h
      · exact .inl ⟨hb, hlo, by omega⟩
      · exact .inr (ih h)

/-- It lies in the interval. -/
theorem UsedAt.range {header p a n : Nat} {tiles : List Tile} (h : UsedAt header p tiles a n) :
    p + header ≤ a ∧ a + n ≤ p + total tiles := by
  obtain ⟨pre, b, post, rfl, -, rfl, hroom⟩ := h.split
  rw [total_append, total_cons]
  omega

/-- An address in use lies in the memory of a used tile. -/
theorem InUse.usedAt {header p x : Nat} {tiles : List Tile} (h : InUse header p tiles x) :
    ∃ a n, UsedAt header p tiles a n ∧ a ≤ x ∧ x < a + n := by
  induction tiles generalizing p with
  | nil => exact h.elim
  | cons b tiles ih =>
      rcases h with ⟨hb, hlo, hhi⟩ | h
      · exact ⟨p + header, b.size - header, .inl ⟨hb, rfl, by omega⟩, hlo, by omega⟩
      · obtain ⟨a, n, hused, hx⟩ := ih h
        exact ⟨a, n, .inr hused, hx⟩

/-- The memories of two used tiles do not overlap, nor does either overlap the other's
header. -/
theorem UsedAt.disjoint {header p a n a' n' : Nat} {tiles : List Tile}
    (h : UsedAt header p tiles a n) (h' : UsedAt header p tiles a' n') :
    a = a' ∨ a + n + header ≤ a' ∨ a' + n' + header ≤ a := by
  induction tiles generalizing p with
  | nil => exact h.elim
  | cons b tiles ih =>
      rcases h with ⟨-, rfl, hroom⟩ | h
      · rcases h' with ⟨-, rfl, -⟩ | h'
        · exact .inl rfl
        · have hrange := h'.range
          exact .inr (.inl (by omega))
      · rcases h' with ⟨-, rfl, hroom⟩ | h'
        · have hrange := h.range
          exact .inr (.inr (by omega))
        · exact ih h h'

/-- Joining unused tiles does not matter to it. -/
theorem usedAt_push {header p a n : Nat} {b : Tile} {tiles : List Tile} :
    UsedAt header p (push b tiles) a n ↔ UsedAt header p (b :: tiles) a n := by
  cases tiles with
  | nil => rfl
  | cons c tiles =>
      rw [push]
      split
      · rename_i hfree
        simp [hfree.1, hfree.2, Nat.add_assoc]
      · exact Iff.rfl

@[simp] theorem usedAt_coalesce {header p a n : Nat} {tiles : List Tile} :
    UsedAt header p (coalesce tiles) a n ↔ UsedAt header p tiles a n := by
  induction tiles generalizing p with
  | nil => rfl
  | cons b tiles ih => rw [coalesce, usedAt_push, usedAt_cons, usedAt_cons, ih]

/-- Tiles of which none is used. -/
theorem used_eq_false {header p : Nat} {tiles : List Tile}
    (hlarge : ∀ b ∈ tiles, header ≤ b.size) (h : ∀ a n, ¬ UsedAt header p tiles a n) :
    ∀ b ∈ tiles, b.used = false := by
  intro b hb
  cases hused : b.used with
  | false => rfl
  | true =>
      obtain ⟨pre, post, rfl⟩ := List.append_of_mem hb
      refine absurd ?_ (h (p + total pre + header) 0)
      exact usedAt_append.mpr (.inr (.inl ⟨hused, rfl, hlarge b hb⟩))

@[simp] theorem totalUsed_append (xs ys : List Tile) :
    totalUsed (xs ++ ys) = totalUsed xs + totalUsed ys := by
  simp [totalUsed]

@[simp] theorem totalUsed_cons (b : Tile) (tiles : List Tile) :
    totalUsed (b :: tiles) = (if b.used = true then b.size else 0) + totalUsed tiles := by
  unfold totalUsed
  rw [List.filter_cons]
  split
  · rw [total_cons]
  · rw [Nat.zero_add]

@[simp] theorem totalUsed_nil : totalUsed [] = 0 := rfl

/-- Unused tiles do not count. -/
theorem totalUsed_le (tiles : List Tile) : totalUsed tiles ≤ total tiles := by
  induction tiles with
  | nil => exact Nat.le_refl 0
  | cons b tiles ih =>
      rw [totalUsed_cons, total_cons]
      split <;> omega

end CarLocator.Library
