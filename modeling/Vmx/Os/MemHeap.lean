import Vmx.Os.MemPartLib
import Vmx.Lib.Tiling

/-!
# The heap of a partition

What the allocator does to the blocks of its pools is put together from four steps: a
block is cut in two (`cut`), two blocks become one (`join`), and a block goes to the
free list (`release`) or leaves it (`take`).  Each step keeps the blocks in order
(`Heap.Ok`), that is all but the rule that no two neighbours are free (`Heap.Calm`), and
so does a new pool (`grow`).
-/

namespace Vmx.MemPart

open Lib

/-- A pool begins at the address. -/
def First (pools : List (Nat × Nat)) (a : Nat) : Prop := ∃ p ∈ pools, a = p.1

/-- The last header of a pool is at the address. -/
def Last (pools : List (Nat × Nat)) (a : Nat) : Prop := ∃ p ∈ pools, a + headerSize = p.2

instance (pools : List (Nat × Nat)) (a : Nat) : Decidable (First pools a) :=
  inferInstanceAs (Decidable (∃ p ∈ pools, a = p.1))

instance (pools : List (Nat × Nat)) (a : Nat) : Decidable (Last pools a) :=
  inferInstanceAs (Decidable (∃ p ∈ pools, a + headerSize = p.2))

namespace BlockHeader

variable (h : BlockHeader)

def withPrev (pPrevHeader : Nat) : BlockHeader := { h with pPrevHeader := pPrevHeader }

def withWords (nWords : Nat) : BlockHeader := { h with nWords := nWords }

def withFree (free : Bool) : BlockHeader := { h with free := free }

@[simp] theorem withPrev_pPrevHeader (p : Nat) : (h.withPrev p).pPrevHeader = p := rfl
@[simp] theorem withPrev_nWords (p : Nat) : (h.withPrev p).nWords = h.nWords := rfl
@[simp] theorem withPrev_free (p : Nat) : (h.withPrev p).free = h.free := rfl
@[simp] theorem withWords_pPrevHeader (n : Nat) : (h.withWords n).pPrevHeader = h.pPrevHeader := rfl
@[simp] theorem withWords_nWords (n : Nat) : (h.withWords n).nWords = n := rfl
@[simp] theorem withWords_free (n : Nat) : (h.withWords n).free = h.free := rfl
@[simp] theorem withFree_pPrevHeader (b : Bool) : (h.withFree b).pPrevHeader = h.pPrevHeader := rfl
@[simp] theorem withFree_nWords (b : Bool) : (h.withFree b).nWords = h.nWords := rfl
@[simp] theorem withFree_free (b : Bool) : (h.withFree b).free = b := rfl

end BlockHeader

/-- The memory, with the addresses of the headers that are in use. -/
structure Heap where
  header : Nat → BlockHeader
  freeList : List Nat
  tiles : Finset Nat

namespace Heap

variable (c : Heap) (pools : List (Nat × Nat))

/-- The size of a block in bytes. -/
def size (a : Nat) : Nat := 2 * (c.header a).nWords

/-- The address behind a block. -/
def next (a : Nat) : Nat := a + c.size a

/-- The header is that of a block, not the first or the last one of a pool. -/
def Block (a : Nat) : Prop := a ∈ c.tiles ∧ ¬ First pools a ∧ ¬ Last pools a

/-- The allocated blocks. -/
def allocated : Finset Nat :=
  c.tiles.filter fun a => (¬ First pools a ∧ ¬ Last pools a) ∧ (c.header a).free = false

/-- The blocks of each pool are in order, and the free ones are in the list. -/
structure Ok : Prop where
  tiling : Tiling (First pools) (Last pools) c.tiles c.size fun a => (c.header a).pPrevHeader
  inside : ∀ a ∈ c.tiles, ∃ p ∈ pools, p.1 ≤ a ∧ c.next a ≤ p.2
  start : ∀ p ∈ pools, p.1 ∈ c.tiles ∧ c.header p.1 = ⟨0, 4, false⟩
  stop : ∀ p ∈ pools, ∃ a ∈ c.tiles, a + headerSize = p.2 ∧ p.1 + headerSize ≤ a ∧
    (c.header a).nWords = 4 ∧ (c.header a).free = false
  apart : ∀ p ∈ pools, ∀ q ∈ pools, p ≠ q → p.2 ≤ q.1 ∨ q.2 ≤ p.1
  word : ∀ p ∈ pools, p.2 ≤ 4294967296
  block : ∀ a, c.Block pools a → 8 ≤ (c.header a).nWords
  even : ∀ a ∈ c.tiles, a % 4 = 0 ∧ (c.header a).nWords % 2 = 0
  nodup : c.freeList.Nodup
  listed : ∀ a, a ∈ c.freeList ↔ a ∈ c.tiles ∧ (c.header a).free = true

/-- A free block has a free one behind it. -/
def Touching (a : Nat) : Prop :=
  a ∈ c.tiles ∧ ¬ Last pools a ∧ (c.header a).free = true ∧ (c.header (c.next a)).free = true

/-- No two neighbours are free. -/
def Calm : Prop := ∀ a, ¬ c.Touching pools a

/-- The words of the allocated blocks. -/
def words : Nat := ∑ a ∈ c.allocated pools, (c.header a).nWords

/-! ## The steps -/

/-- The first `k` words of a block become a block, and the rest a free one. -/
def cut (a k : Nat) : Heap where
  header :=
    Function.update
      (Function.update
        (Function.update c.header (a + 2 * k)
          { pPrevHeader := a, nWords := (c.header a).nWords - k, free := true })
        a ((c.header a).withWords k))
      (c.next a) ((c.header (c.next a)).withPrev (a + 2 * k))
  freeList := c.freeList ++ [a + 2 * k]
  tiles := insert (a + 2 * k) c.tiles

/-- A block takes the next one in. -/
def join (a : Nat) : Heap where
  header :=
    Function.update
      (Function.update c.header a
        ((c.header a).withWords ((c.header a).nWords + (c.header (c.next a)).nWords)))
      (c.next (c.next a)) ((c.header (c.next (c.next a))).withPrev a)
  freeList := c.freeList.erase (c.next a)
  tiles := c.tiles.erase (c.next a)

/-- A block becomes free. -/
def release (a : Nat) : Heap where
  header := Function.update c.header a ((c.header a).withFree true)
  freeList := a :: c.freeList
  tiles := c.tiles

/-- A free block is allocated. -/
def take (a : Nat) : Heap where
  header := Function.update c.header a ((c.header a).withFree false)
  freeList := c.freeList.erase a
  tiles := c.tiles

/-- A pool is added, with one free block of `n` words. -/
def grow (a n : Nat) : Heap where
  header :=
    Function.update
      (Function.update
        (Function.update c.header a { pPrevHeader := 0, nWords := 4, free := false })
        (a + 8) { pPrevHeader := a, nWords := n, free := true })
      (a + 8 + 2 * n) { pPrevHeader := a + 8, nWords := 4, free := false }
  freeList := (a + 8) :: c.freeList
  tiles := c.tiles ∪ {a, a + 8, a + 8 + 2 * n}

theorem cut_header_apply (a k x : Nat) : (c.cut a k).header x =
    if x = c.next a then (c.header (c.next a)).withPrev (a + 2 * k)
    else if x = a then (c.header a).withWords k
    else if x = a + 2 * k then
      { pPrevHeader := a, nWords := (c.header a).nWords - k, free := true }
    else c.header x := by
  unfold cut
  simp only [Function.update_apply]

end Heap

namespace Heap.Ok

variable {c : Heap} {pools : List (Nat × Nat)} {a b : Nat}

/-- Only the headers of the tiles matter. -/
theorem congr {header : Nat → BlockHeader} (h : c.Ok pools)
    (hh : ∀ a ∈ c.tiles, header a = c.header a) : ({ c with header := header } : Heap).Ok pools where
  tiling := h.tiling.congr (fun a ha => by simp [size, hh a ha]) fun a ha => by simp [hh a ha]
  inside a ha := by
    have := h.inside a ha
    simpa only [next, size, hh a ha] using this
  start p hp := by
    obtain ⟨hm, hhead⟩ := h.start p hp
    exact ⟨hm, (hh _ hm).trans hhead⟩
  stop p hp := by
    obtain ⟨a, ha, hrest⟩ := h.stop p hp
    exact ⟨a, ha, by simpa only [hh a ha] using hrest⟩
  apart := h.apart
  word := h.word
  block a ha := by
    have := h.block a ha
    simpa only [hh a ha.1] using this
  even a ha := by
    have := h.even a ha
    simpa only [hh a ha] using this
  nodup := h.nodup
  listed a := by
    constructor
    · intro hm
      obtain ⟨ha, hf⟩ := (h.listed a).1 hm
      exact ⟨ha, (congrArg BlockHeader.free (hh a ha)).trans hf⟩
    · rintro ⟨ha, hf⟩
      exact (h.listed a).2 ⟨ha, (congrArg BlockHeader.free (hh a ha)).symm.trans hf⟩

/-- The first and the last header of a pool are not free. -/
theorem block_of_free (h : c.Ok pools) (ha : a ∈ c.tiles) (hf : (c.header a).free = true) :
    c.Block pools a := by
  refine ⟨ha, ?_, ?_⟩
  · rintro ⟨p, hp, rfl⟩
    rw [(h.start p hp).2] at hf
    cases hf
  · rintro ⟨p, hp, hlast⟩
    obtain ⟨b, hb, hstop, _, _, hnot⟩ := h.stop p hp
    have hab : a = b := by omega
    rw [hab, hnot] at hf
    cases hf

theorem mem_of_first (h : c.Ok pools) (hf : First pools a) : a ∈ c.tiles := by
  obtain ⟨p, hp, rfl⟩ := hf
  exact (h.start p hp).1

theorem mem_of_last (h : c.Ok pools) (hl : Last pools a) : a ∈ c.tiles := by
  obtain ⟨p, hp, hlast⟩ := hl
  obtain ⟨b, hb, hstop, _⟩ := h.stop p hp
  have hab : a = b := by omega
  rw [hab]
  exact hb

theorem pos_of_block (h : c.Ok pools) (ha : c.Block pools a) : 0 < a := by
  obtain ⟨p, hp, hle, _⟩ := h.inside a ha.1
  have hne : a ≠ p.1 := fun heq => ha.2.1 ⟨p, hp, heq⟩
  omega

/-- The header behind a block is there, and is not the first one of a pool. -/
theorem next_mem (h : c.Ok pools) (ha : c.Block pools a) :
    c.next a ∈ c.tiles ∧ (c.header (c.next a)).pPrevHeader = a ∧ ¬ First pools (c.next a) := by
  obtain ⟨hm, hback⟩ := h.tiling.next a ha.1 ha.2.2
  refine ⟨hm, hback, ?_⟩
  rintro ⟨p, hp, hfirst⟩
  have hpos := h.pos_of_block ha
  have hzero := (h.start p hp).2
  rw [← hfirst] at hzero
  have hback' : (c.header (c.next a)).pPrevHeader = a := hback
  rw [hzero] at hback'
  dsimp only at hback'
  omega

theorem next_lt (h : c.Ok pools) (ha : c.Block pools a) : c.next a + headerSize ≤ 4294967296 := by
  obtain ⟨hm, _, _⟩ := h.next_mem ha
  obtain ⟨p, hp, _, hle⟩ := h.inside _ hm
  have hword := h.word p hp
  have hsize : headerSize ≤ c.size (c.next a) := by
    by_cases hl : Last pools (c.next a)
    · obtain ⟨q, hq, hlast⟩ := hl
      obtain ⟨b, hb, hstop, _, hfour, _⟩ := h.stop q hq
      have hab : c.next a = b := by omega
      rw [size, hab, hfour, headerSize]
    · have := h.block _ ⟨hm, (h.next_mem ha).2.2, hl⟩
      rw [size, headerSize]
      omega
  rw [next] at hle
  omega

/-- The block before a block. -/
theorem prev_mem (h : c.Ok pools) (ha : c.Block pools a) :
    (c.header a).pPrevHeader ∈ c.tiles ∧ c.next (c.header a).pPrevHeader = a :=
  h.tiling.prev a ha.1 ha.2.1

theorem lt_next (h : c.Ok pools) (ha : a ∈ c.tiles) : a < c.next a := by
  have := h.tiling.pos a ha
  rw [next]
  omega

/-! ### A block is cut -/

section Cut

variable {k : Nat}

theorem cut_not_mem (h : c.Ok pools) (ha : c.Block pools a) (hk : 0 < k)
    (hlt : k < (c.header a).nWords) : a + 2 * k ∉ c.tiles :=
  h.tiling.not_mem_inside ha.1 (by omega) (by rw [size]; omega)

theorem cut_header_self (h : c.Ok pools) (ha : c.Block pools a) :
    (c.cut a k).header a = (c.header a).withWords k := by
  have hne : c.next a ≠ a := by
    have := h.lt_next ha.1
    omega
  unfold Heap.cut
  dsimp only
  rw [Function.update_of_ne hne.symm, Function.update_self]

theorem cut_header_new (hk : 0 < k) (hlt : k < (c.header a).nWords) :
    (c.cut a k).header (a + 2 * k) =
      { pPrevHeader := a, nWords := (c.header a).nWords - k, free := true } := by
  have hne : a + 2 * k ≠ c.next a := by
    rw [next, size]
    omega
  have hne' : a + 2 * k ≠ a := by omega
  unfold Heap.cut
  dsimp only
  rw [Function.update_of_ne hne, Function.update_of_ne hne', Function.update_self]

theorem cut_header_next : (c.cut a k).header (c.next a) =
    (c.header (c.next a)).withPrev (a + 2 * k) := Function.update_self ..

theorem cut_header_of_ne {x : Nat} (hxa : x ≠ a) (hxb : x ≠ a + 2 * k) (hxe : x ≠ c.next a) :
    (c.cut a k).header x = c.header x := by
  unfold Heap.cut
  dsimp only
  rw [Function.update_of_ne hxe, Function.update_of_ne hxa, Function.update_of_ne hxb]

/-- Outside the block the cut changes links only. -/
theorem cut_header_tile (h : c.Ok pools) (ha : c.Block pools a) (hk : 0 < k)
    (hlt : k < (c.header a).nWords) {x : Nat} (hx : x ∈ c.tiles) (hxa : x ≠ a) :
    ((c.cut a k).header x).nWords = (c.header x).nWords ∧
      ((c.cut a k).header x).free = (c.header x).free := by
  have hxb : x ≠ a + 2 * k := fun heq => h.cut_not_mem ha hk hlt (heq ▸ hx)
  by_cases hxe : x = c.next a
  · rw [hxe, cut_header_next]
    exact ⟨rfl, rfl⟩
  · rw [cut_header_of_ne hxa hxb hxe]
    exact ⟨rfl, rfl⟩

theorem cut (h : c.Ok pools) (ha : c.Block pools a) (hk : 8 ≤ k) (heven : k % 2 = 0)
    (hrest : k + 8 ≤ (c.header a).nWords) : (c.cut a k).Ok pools := by
  have hnew := h.cut_not_mem ha (k := k) (by omega) (by omega)
  have hself := h.cut_header_self ha (k := k)
  have hb := cut_header_new (c := c) (a := a) (k := k) (by omega) (by omega)
  have htile := fun x hx hxa =>
    h.cut_header_tile ha (k := k) (by omega) (by omega) (x := x) hx hxa
  obtain ⟨heven_a, heven_n⟩ := h.even a ha.1
  have hnotFirst : ¬ First pools (a + 2 * k) := fun hf => hnew (h.mem_of_first hf)
  have hnotLast : ¬ Last pools (a + 2 * k) := fun hl => hnew (h.mem_of_last hl)
  refine
    { tiling := ?_
      inside := fun x hx => ?_
      start := fun p hp => ?_
      stop := fun p hp => ?_
      apart := h.apart
      word := h.word
      block := fun x hx => ?_
      even := fun x hx => ?_
      nodup := ?_
      listed := fun x => ?_ }
  · refine (h.tiling.split ha.1 ha.2.2 (k := 2 * k) (by omega) (by rw [size]; omega)).congr
      (fun x hx => ?_) fun x hx => ?_
    · rcases Finset.mem_insert.1 hx with rfl | hx
      · rw [Function.update_self, size, hb, size]
        dsimp only
        omega
      · have hxb : x ≠ a + 2 * k := fun heq => hnew (heq ▸ hx)
        rw [Function.update_of_ne hxb]
        by_cases hxa : x = a
        · rw [hxa, Function.update_self, size, hself, BlockHeader.withWords_nWords]
        · rw [Function.update_of_ne hxa, size, (htile x hx hxa).1, size]
    · rcases Finset.mem_insert.1 hx with rfl | hx
      · have hne : a + 2 * k ≠ a + c.size a := by
          rw [size]
          omega
        rw [hb, Function.update_of_ne hne, Function.update_self]
      · have hxb : x ≠ a + 2 * k := fun heq => hnew (heq ▸ hx)
        by_cases hxe : x = c.next a
        · have hend : a + c.size a = c.next a := rfl
          rw [hxe, cut_header_next, hend, Function.update_self, BlockHeader.withPrev_pPrevHeader]
        · have hxe' : x ≠ a + c.size a := hxe
          rw [Function.update_of_ne hxe', Function.update_of_ne hxb]
          by_cases hxa : x = a
          · rw [hxa, hself, BlockHeader.withWords_pPrevHeader]
          · rw [cut_header_of_ne hxa hxb hxe]
  · obtain ⟨p, hp, hle, hend⟩ := h.inside a ha.1
    rcases Finset.mem_insert.1 hx with rfl | hx
    · refine ⟨p, hp, by omega, ?_⟩
      rw [next, size, hb]
      rw [next, size] at hend
      dsimp only
      omega
    · by_cases hxa : x = a
      · refine ⟨p, hp, by omega, ?_⟩
        rw [hxa, next, size, hself, BlockHeader.withWords_nWords]
        rw [next, size] at hend
        omega
      · obtain ⟨q, hq, hxle, hxend⟩ := h.inside x hx
        refine ⟨q, hq, hxle, ?_⟩
        rw [next, size, (htile x hx hxa).1]
        exact hxend
  · obtain ⟨hm, hhead⟩ := h.start p hp
    have hpa : p.1 ≠ a := fun heq => ha.2.1 ⟨p, hp, heq.symm⟩
    have hpb : p.1 ≠ a + 2 * k := fun heq => hnew (heq ▸ hm)
    have hpe : p.1 ≠ c.next a := fun heq => (h.next_mem ha).2.2 ⟨p, hp, heq.symm⟩
    exact ⟨Finset.mem_insert_of_mem hm, by rw [cut_header_of_ne hpa hpb hpe, hhead]⟩
  · obtain ⟨x, hx, hstop, hle, hfour, hfree⟩ := h.stop p hp
    have hxa : x ≠ a := fun heq => ha.2.2 ⟨p, hp, heq ▸ hstop⟩
    obtain ⟨hwords, hflag⟩ := htile x hx hxa
    exact ⟨x, Finset.mem_insert_of_mem hx, hstop, hle, hwords.trans hfour, hflag.trans hfree⟩
  · rcases Finset.mem_insert.1 hx.1 with rfl | hx'
    · rw [hb]
      dsimp only
      omega
    · by_cases hxa : x = a
      · rw [hxa, hself]
        exact hk
      · rw [(htile x hx' hxa).1]
        exact h.block x ⟨hx', hx.2⟩
  · rcases Finset.mem_insert.1 hx with rfl | hx
    · rw [hb]
      dsimp only
      omega
    · by_cases hxa : x = a
      · rw [hxa, hself]
        exact ⟨heven_a, heven⟩
      · rw [(htile x hx hxa).1]
        exact h.even x hx
  · show (c.freeList ++ [a + 2 * k]).Nodup
    rw [List.nodup_append]
    refine ⟨h.nodup, List.nodup_singleton _, fun x hx y hy hxy => ?_⟩
    rw [List.mem_singleton] at hy
    exact hnew (hy ▸ hxy ▸ ((h.listed x).1 hx).1)
  · show x ∈ c.freeList ++ [a + 2 * k] ↔ x ∈ insert (a + 2 * k) c.tiles ∧ _
    rw [List.mem_append, List.mem_singleton, Finset.mem_insert]
    by_cases hxb : x = a + 2 * k
    · rw [hxb, hb]
      simp
    · have hflag : x ∈ c.tiles → ((c.cut a k).header x).free = (c.header x).free := by
        intro hx
        by_cases hxa : x = a
        · rw [hxa, hself, BlockHeader.withWords_free]
        · exact (htile x hx hxa).2
      rw [h.listed]
      constructor
      · rintro (⟨hx, hf⟩ | hxb')
        · exact ⟨.inr hx, (hflag hx).trans hf⟩
        · exact absurd hxb' hxb
      · rintro ⟨hx | hx, hf⟩
        · exact absurd hx hxb
        · exact .inl ⟨hx, (hflag hx).symm.trans hf⟩

end Cut

/-! ### A block takes the next one in -/

section Join

theorem join_header_self (h : c.Ok pools) (ha : c.Block pools a) (hb : c.Block pools (c.next a)) :
    (c.join a).header a =
      (c.header a).withWords ((c.header a).nWords + (c.header (c.next a)).nWords) := by
  have hlt := h.lt_next ha.1
  have hlt' := h.lt_next hb.1
  have hne : a ≠ c.next (c.next a) := by omega
  unfold Heap.join
  dsimp only
  rw [Function.update_of_ne hne, Function.update_self]

theorem join_header_next : (c.join a).header (c.next (c.next a)) =
    (c.header (c.next (c.next a))).withPrev a := Function.update_self ..

theorem join_header_of_ne {x : Nat} (hxa : x ≠ a) (hxe : x ≠ c.next (c.next a)) :
    (c.join a).header x = c.header x := by
  unfold Heap.join
  dsimp only
  rw [Function.update_of_ne hxe, Function.update_of_ne hxa]

/-- Outside the block only links change. -/
theorem join_header_tile {x : Nat} (hxa : x ≠ a) :
    ((c.join a).header x).nWords = (c.header x).nWords ∧
      ((c.join a).header x).free = (c.header x).free := by
  by_cases hxe : x = c.next (c.next a)
  · rw [hxe, join_header_next]
    exact ⟨rfl, rfl⟩
  · rw [join_header_of_ne hxa hxe]
    exact ⟨rfl, rfl⟩

theorem join (h : c.Ok pools) (ha : c.Block pools a) (hb : c.Block pools (c.next a)) :
    (c.join a).Ok pools := by
  have hself := h.join_header_self ha hb
  have hlt := h.lt_next ha.1
  have hlt' := h.lt_next hb.1
  have hmem : ∀ {x}, x ∈ (c.join a).tiles ↔ x ≠ c.next a ∧ x ∈ c.tiles := Finset.mem_erase
  refine
    { tiling := ?_
      inside := fun x hx => ?_
      start := fun p hp => ?_
      stop := fun p hp => ?_
      apart := h.apart
      word := h.word
      block := fun x hx => ?_
      even := fun x hx => ?_
      nodup := h.nodup.erase _
      listed := fun x => ?_ }
  · refine (h.tiling.merge ha.1 ha.2.2 hb.2.2).congr (fun x hx => ?_) fun x hx => ?_
    · by_cases hxa : x = a
      · have hend : c.size (a + c.size a) = 2 * (c.header (c.next a)).nWords := rfl
        rw [hxa, Function.update_self, size, hself, BlockHeader.withWords_nWords, hend, size]
        omega
      · rw [Function.update_of_ne hxa, size, (join_header_tile hxa).1, size]
    · have hend : a + c.size a + c.size (a + c.size a) = c.next (c.next a) := rfl
      rw [hend]
      by_cases hxe : x = c.next (c.next a)
      · rw [hxe, join_header_next, Function.update_self, BlockHeader.withPrev_pPrevHeader]
      · rw [Function.update_of_ne hxe]
        by_cases hxa : x = a
        · rw [hxa, hself, BlockHeader.withWords_pPrevHeader]
        · rw [join_header_of_ne hxa hxe]
  · have hx' := (hmem.1 hx).2
    obtain ⟨p, hp, hle, hend⟩ := h.inside x hx'
    by_cases hxa : x = a
    · subst hxa
      obtain ⟨q, hq, hqle, hqend⟩ := h.inside _ hb.1
      have hfirst : c.next x ≠ q.1 := fun heq => hb.2.1 ⟨q, hq, heq⟩
      have hpq : p = q := by
        by_contra hne
        have := h.apart p hp q hq hne
        omega
      subst hpq
      refine ⟨p, hp, hle, ?_⟩
      rw [next, size] at hqend
      rw [next, size, hself, BlockHeader.withWords_nWords]
      have hn : c.next x = x + 2 * (c.header x).nWords := rfl
      omega
    · refine ⟨p, hp, hle, ?_⟩
      rw [next, size, (join_header_tile hxa).1]
      exact hend
  · obtain ⟨hm, hhead⟩ := h.start p hp
    have hpa : p.1 ≠ a := fun heq => ha.2.1 ⟨p, hp, heq.symm⟩
    have hpb : p.1 ≠ c.next a := fun heq => hb.2.1 ⟨p, hp, heq.symm⟩
    have hpe : p.1 ≠ c.next (c.next a) := fun heq => (h.next_mem hb).2.2 ⟨p, hp, heq.symm⟩
    exact ⟨hmem.2 ⟨hpb, hm⟩, by rw [join_header_of_ne hpa hpe, hhead]⟩
  · obtain ⟨x, hx, hstop, hle, hfour, hfree⟩ := h.stop p hp
    have hxa : x ≠ a := fun heq => ha.2.2 ⟨p, hp, heq ▸ hstop⟩
    have hxb : x ≠ c.next a := fun heq => hb.2.2 ⟨p, hp, heq ▸ hstop⟩
    obtain ⟨hwords, hflag⟩ := join_header_tile (c := c) hxa
    exact ⟨x, hmem.2 ⟨hxb, hx⟩, hstop, hle, hwords.trans hfour, hflag.trans hfree⟩
  · have hx' := h.block x ⟨(hmem.1 hx.1).2, hx.2⟩
    by_cases hxa : x = a
    · rw [hxa, hself, BlockHeader.withWords_nWords]
      rw [hxa] at hx'
      omega
    · rw [(join_header_tile hxa).1]
      exact hx'
  · obtain ⟨hxeven, hxwords⟩ := h.even x (hmem.1 hx).2
    refine ⟨hxeven, ?_⟩
    by_cases hxa : x = a
    · have := (h.even _ hb.1).2
      rw [hxa, hself, BlockHeader.withWords_nWords]
      rw [hxa] at hxwords
      omega
    · rw [(join_header_tile hxa).1]
      exact hxwords
  · have hflag : ((c.join a).header x).free = (c.header x).free := by
      by_cases hxa : x = a
      · rw [hxa, hself, BlockHeader.withWords_free]
      · exact (join_header_tile hxa).2
    have hlist : x ∈ (c.join a).freeList ↔ x ≠ c.next a ∧ x ∈ c.freeList :=
      h.nodup.mem_erase_iff
    rw [hmem, hflag, hlist, h.listed, and_assoc]

end Join

/-! ### A block becomes free or is allocated -/

theorem nWords_update_withFree (header : Nat → BlockHeader) (a : Nat) (free : Bool) (x : Nat) :
    (Function.update header a ((header a).withFree free) x).nWords = (header x).nWords := by
  by_cases hxa : x = a
  · rw [hxa, Function.update_self, BlockHeader.withFree_nWords]
  · rw [Function.update_of_ne hxa]

theorem pPrevHeader_update_withFree (header : Nat → BlockHeader) (a : Nat) (free : Bool) (x : Nat) :
    (Function.update header a ((header a).withFree free) x).pPrevHeader =
      (header x).pPrevHeader := by
  by_cases hxa : x = a
  · rw [hxa, Function.update_self, BlockHeader.withFree_pPrevHeader]
  · rw [Function.update_of_ne hxa]

theorem flag (h : c.Ok pools) (ha : c.Block pools a) (free : Bool) {freeList : List Nat}
    (hnodup : freeList.Nodup)
    (hself : a ∈ freeList ↔ free = true) (hother : ∀ x, x ≠ a → (x ∈ freeList ↔ x ∈ c.freeList)) :
    ({ header := Function.update c.header a ((c.header a).withFree free)
       freeList := freeList, tiles := c.tiles } : Heap).Ok pools := by
  have hw := nWords_update_withFree c.header a free
  have hp := pPrevHeader_update_withFree c.header a free
  refine
    { tiling := h.tiling.congr (fun x _ => by simp only [size, hw]) fun x _ => hp x
      inside := fun x hx => ?_
      start := fun p hp => ?_
      stop := fun p hp => ?_
      apart := h.apart
      word := h.word
      block := fun x hx => by
        have := h.block x hx
        simpa only [hw] using this
      even := fun x hx => by simpa only [hw] using h.even x hx
      nodup := hnodup
      listed := fun x => ?_ }
  · have := h.inside x hx
    simpa only [next, size, hw] using this
  · obtain ⟨hm, hhead⟩ := h.start p hp
    have hpa : p.1 ≠ a := fun heq => ha.2.1 ⟨p, hp, heq.symm⟩
    exact ⟨hm, (Function.update_of_ne hpa _ _).trans hhead⟩
  · obtain ⟨x, hx, hstop, hrest⟩ := h.stop p hp
    have hxa : x ≠ a := fun heq => ha.2.2 ⟨p, hp, heq ▸ hstop⟩
    exact ⟨x, hx, hstop, by simpa only [Function.update_of_ne hxa] using hrest⟩
  · by_cases hxa : x = a
    · simp only [hxa, Function.update_self, BlockHeader.withFree_free, hself]
      exact ⟨fun hf => ⟨ha.1, hf⟩, fun hf => hf.2⟩
    · simp only [Function.update_of_ne hxa, hother x hxa]
      exact h.listed x

theorem release (h : c.Ok pools) (ha : c.Block pools a) (hf : (c.header a).free = false) :
    (c.release a).Ok pools := by
  have hnot : a ∉ c.freeList := fun hm => by
    rw [((h.listed a).1 hm).2] at hf
    cases hf
  refine h.flag ha true (List.nodup_cons.2 ⟨hnot, h.nodup⟩) (by simp) fun x hxa => ?_
  simp [hxa]

theorem take (h : c.Ok pools) (ha : a ∈ c.tiles) (hf : (c.header a).free = true) :
    (c.take a).Ok pools := by
  refine h.flag (h.block_of_free ha hf) false (h.nodup.erase _) ?_ fun x hxa => ?_
  · simp [h.nodup.mem_erase_iff]
  · simp [h.nodup.mem_erase_iff, hxa]

/-! ### A pool is added -/

section Grow

variable {n : Nat}

/-- The new pool is apart from the old ones. -/
def Fresh (pools : List (Nat × Nat)) (a n : Nat) : Prop :=
  ∀ p ∈ pools, a + 16 + 2 * n ≤ p.1 ∨ p.2 ≤ a

theorem grow_old (h : c.Ok pools) (hfresh : Fresh pools a n) {x : Nat} (hx : x ∈ c.tiles) :
    c.next x ≤ a ∨ a + 16 + 2 * n ≤ x := by
  obtain ⟨p, hp, hle, hend⟩ := h.inside x hx
  have := hfresh p hp
  omega

theorem grow_header_old (h : c.Ok pools) (hfresh : Fresh pools a n) {x : Nat}
    (hx : x ∈ c.tiles) : (c.grow a n).header x = c.header x := by
  have hlt := h.lt_next hx
  have hold := h.grow_old hfresh hx
  have h1 : x ≠ a := by omega
  have h2 : x ≠ a + 8 := by omega
  have h3 : x ≠ a + 8 + 2 * n := by omega
  unfold Heap.grow
  dsimp only
  rw [Function.update_of_ne h3, Function.update_of_ne h2, Function.update_of_ne h1]

theorem grow_header_first : (c.grow a n).header a = ⟨0, 4, false⟩ := by
  have h1 : a ≠ a + 8 + 2 * n := by omega
  have h2 : a ≠ a + 8 := by omega
  unfold Heap.grow
  dsimp only
  rw [Function.update_of_ne h1, Function.update_of_ne h2, Function.update_self]

theorem grow_header_middle (hn : 0 < n) : (c.grow a n).header (a + 8) = ⟨a, n, true⟩ := by
  have h1 : a + 8 ≠ a + 8 + 2 * n := by omega
  unfold Heap.grow
  dsimp only
  rw [Function.update_of_ne h1, Function.update_self]

theorem grow_header_last : (c.grow a n).header (a + 8 + 2 * n) = ⟨a + 8, 4, false⟩ :=
  Function.update_self ..

theorem mem_grow {x : Nat} :
    x ∈ (c.grow a n).tiles ↔ x ∈ c.tiles ∨ x = a ∨ x = a + 8 ∨ x = a + 8 + 2 * n := by
  unfold Heap.grow
  simp only [Finset.mem_union, Finset.mem_insert, Finset.mem_singleton]

/-- The three headers of the new pool. -/
theorem grow_tiling (hn : 0 < n) :
    Tiling (First ((a, a + 16 + 2 * n) :: pools)) (Last ((a, a + 16 + 2 * n) :: pools))
      {a, a + 8, a + 8 + 2 * n} (c.grow a n).size fun x => ((c.grow a n).header x).pPrevHeader := by
  have hfirst := grow_header_first (c := c) (a := a) (n := n)
  have hmiddle := grow_header_middle (c := c) (a := a) hn
  have hlast := grow_header_last (c := c) (a := a) (n := n)
  have s1 : (c.grow a n).size a = 8 := by simp only [size, hfirst]
  have s2 : (c.grow a n).size (a + 8) = 2 * n := by rw [size, hmiddle]
  have s3 : (c.grow a n).size (a + 8 + 2 * n) = 8 := by simp only [size, hlast]
  have hF : First ((a, a + 16 + 2 * n) :: pools) a := ⟨_, List.mem_cons_self, rfl⟩
  have hL : Last ((a, a + 16 + 2 * n) :: pools) (a + 8 + 2 * n) := by
    refine ⟨_, List.mem_cons_self, ?_⟩
    rw [headerSize]
    dsimp only
    omega
  constructor
  · simp only [Finset.mem_insert, Finset.mem_singleton]
    rintro x (rfl | rfl | rfl) <;> omega
  · simp only [Finset.mem_insert, Finset.mem_singleton]
    rintro x (rfl | rfl | rfl) y (rfl | rfl | rfl) hxy <;> omega
  · simp only [Finset.mem_insert, Finset.mem_singleton]
    rintro x (rfl | rfl | rfl) hx
    · rw [s1, hmiddle]
      exact ⟨.inr (.inl rfl), rfl⟩
    · rw [s2, hlast]
      exact ⟨.inr (.inr rfl), rfl⟩
    · exact absurd hL hx
  · simp only [Finset.mem_insert, Finset.mem_singleton]
    rintro x (rfl | rfl | rfl) hx
    · exact absurd hF hx
    · rw [hmiddle]
      exact ⟨.inl rfl, by rw [s1]⟩
    · rw [hlast]
      exact ⟨.inr (.inl rfl), by rw [s2]⟩

theorem grow (h : c.Ok pools) (hfresh : Fresh pools a n) (hn : 8 ≤ n) (hword : a + 16 + 2 * n ≤ 4294967296)
    (heven : a % 4 = 0 ∧ n % 2 = 0) : (c.grow a n).Ok ((a, a + 16 + 2 * n) :: pools) := by
  have hhead := fun x hx => h.grow_header_old hfresh (x := x) hx
  have hfirst := grow_header_first (c := c) (a := a) (n := n)
  have hmiddle := grow_header_middle (c := c) (a := a) (n := n) (by omega)
  have hlast := grow_header_last (c := c) (a := a) (n := n)
  have hout : ∀ {x}, x ∈ c.tiles → x < a ∨ a + 16 + 2 * n ≤ x := fun {x} hx => by
    have := h.lt_next hx
    have := h.grow_old hfresh hx
    omega
  have hF : ∀ {x}, First pools x → First ((a, a + 16 + 2 * n) :: pools) x :=
    fun ⟨p, hp, heq⟩ => ⟨p, List.mem_cons_of_mem _ hp, heq⟩
  have hL : ∀ {x}, Last pools x → Last ((a, a + 16 + 2 * n) :: pools) x :=
    fun ⟨p, hp, heq⟩ => ⟨p, List.mem_cons_of_mem _ hp, heq⟩
  refine
    { tiling := ?_
      inside := fun x hx => ?_
      start := fun p hp => ?_
      stop := fun p hp => ?_
      apart := fun p hp q hq hpq => ?_
      word := fun p hp => ?_
      block := fun x hx => ?_
      even := fun x hx => ?_
      nodup := List.nodup_cons.2 ⟨fun hm => ?_, h.nodup⟩
      listed := fun x => ?_ }
  · refine Tiling.union ((h.tiling.congr (fun x hx => ?_) fun x hx => ?_).mono (fun x => hF) fun x => hL)
      (grow_tiling (by omega)) fun x hx y hy => ?_
    · simp only [size, hhead x hx]
    · simp only [hhead x hx]
    · have hold := h.grow_old hfresh hx
      rw [next, size] at hold
      rw [size, hhead x hx]
      simp only [Finset.mem_insert, Finset.mem_singleton] at hy
      rcases hy with rfl | rfl | rfl
      · rw [size, hfirst]
        dsimp only
        omega
      · rw [size, hmiddle]
        dsimp only
        omega
      · rw [size, hlast]
        dsimp only
        omega
  · rcases mem_grow.1 hx with hx | rfl | rfl | rfl
    · obtain ⟨p, hp, hin⟩ := h.inside x hx
      refine ⟨p, List.mem_cons_of_mem _ hp, ?_⟩
      simpa only [next, size, hhead x hx] using hin
    · refine ⟨_, List.mem_cons_self, ?_⟩
      rw [next, size, hfirst]
      dsimp only
      omega
    · refine ⟨_, List.mem_cons_self, ?_⟩
      rw [next, size, hmiddle]
      dsimp only
      omega
    · refine ⟨_, List.mem_cons_self, ?_⟩
      rw [next, size, hlast]
      dsimp only
      omega
  · rcases List.mem_cons.1 hp with rfl | hp
    · exact ⟨mem_grow.2 (.inr (.inl rfl)), hfirst⟩
    · obtain ⟨hm, hz⟩ := h.start p hp
      exact ⟨mem_grow.2 (.inl hm), (hhead _ hm).trans hz⟩
  · rcases List.mem_cons.1 hp with rfl | hp
    · refine ⟨a + 8 + 2 * n, mem_grow.2 (.inr (.inr (.inr rfl))), ?_⟩
      rw [hlast, headerSize]
      dsimp only
      exact ⟨by omega, by omega, rfl, rfl⟩
    · obtain ⟨x, hx, hrest⟩ := h.stop p hp
      exact ⟨x, mem_grow.2 (.inl hx), by rwa [hhead x hx]⟩
  · rcases List.mem_cons.1 hp with rfl | hp <;> rcases List.mem_cons.1 hq with rfl | hq
    · exact absurd rfl hpq
    · exact hfresh q hq
    · exact (hfresh p hp).symm
    · exact h.apart p hp q hq hpq
  · rcases List.mem_cons.1 hp with rfl | hp
    · exact hword
    · exact h.word p hp
  · rcases mem_grow.1 hx.1 with hx' | rfl | rfl | rfl
    · rw [hhead x hx']
      exact h.block x ⟨hx', fun hf => hx.2.1 (hF hf), fun hl => hx.2.2 (hL hl)⟩
    · exact absurd ⟨_, List.mem_cons_self, rfl⟩ hx.2.1
    · rw [hmiddle]
      exact hn
    · refine absurd ⟨_, List.mem_cons_self, ?_⟩ hx.2.2
      rw [headerSize]
      dsimp only
      omega
  · rcases mem_grow.1 hx with hx' | rfl | rfl | rfl
    · rw [hhead x hx']
      exact h.even x hx'
    · rw [hfirst]
      dsimp only
      omega
    · rw [hmiddle]
      dsimp only
      omega
    · rw [hlast]
      dsimp only
      omega
  · have := hout ((h.listed _).1 hm).1
    omega
  · have hcons : x ∈ (c.grow a n).freeList ↔ x = a + 8 ∨ x ∈ c.freeList := List.mem_cons
    rw [hcons, h.listed]
    constructor
    · rintro (rfl | ⟨hx, hf⟩)
      · exact ⟨mem_grow.2 (.inr (.inr (.inl rfl))), by rw [hmiddle]⟩
      · exact ⟨mem_grow.2 (.inl hx), by rw [hhead x hx, hf]⟩
    · rintro ⟨hx, hf⟩
      rcases mem_grow.1 hx with hx | rfl | rfl | rfl
      · exact .inr ⟨hx, by rwa [hhead x hx] at hf⟩
      · rw [hfirst] at hf
        cases hf
      · exact .inl rfl
      · rw [hlast] at hf
        cases hf

end Grow

/-! ### Neighbours that are free -/

theorem touching_cut {k x : Nat} (h : c.Ok pools) (ha : c.Block pools a) (hk : 0 < k)
    (hlt : k < (c.header a).nWords) (ht : (c.cut a k).Touching pools x) :
    x = a ∨ (x = a + 2 * k ∧ ((c.header (c.next a)).free = true)) ∨
      (x ≠ a ∧ c.Touching pools x) := by
  obtain ⟨hx, hl, hf, hfn⟩ := ht
  have hnew := h.cut_not_mem ha hk hlt
  have hb := cut_header_new (c := c) (a := a) hk hlt
  have htile := fun y hy hya => h.cut_header_tile ha hk hlt (x := y) hy hya
  by_cases hxa : x = a
  · exact .inl hxa
  · rcases Finset.mem_insert.1 hx with rfl | hx
    · have hn : (c.cut a k).next (a + 2 * k) = c.next a := by
        rw [next, size, hb, next, size]
        dsimp only
        omega
      rw [hn, cut_header_next, BlockHeader.withPrev_free] at hfn
      exact .inr (.inl ⟨rfl, hfn⟩)
    · have hn : (c.cut a k).next x = c.next x := by
        rw [next, size, (htile x hx hxa).1, next, size]
      refine .inr (.inr ⟨hxa, hx, hl, (htile x hx hxa).2.symm.trans hf, ?_⟩)
      rw [hn] at hfn
      have hnx := (h.tiling.next x hx hl).1
      by_cases hna : c.next x = a
      · rw [hna, h.cut_header_self ha, BlockHeader.withWords_free] at hfn
        rwa [hna]
      · exact (htile _ hnx hna).2.symm.trans hfn

theorem touching_join {x : Nat} (h : c.Ok pools) (ha : c.Block pools a)
    (hb : c.Block pools (c.next a)) (hsame : (c.header a).free = (c.header (c.next a)).free)
    (ht : (c.join a).Touching pools x) :
    (x = a ∧ c.Touching pools (c.next a)) ∨ (x ≠ a ∧ x ≠ c.next a ∧ c.Touching pools x) := by
  obtain ⟨hx, hl, hf, hfn⟩ := ht
  rw [show (c.join a).tiles = c.tiles.erase (c.next a) from rfl, Finset.mem_erase] at hx
  have hself := h.join_header_self ha hb
  have hflag : ∀ y, ((c.join a).header y).free = (c.header y).free := by
    intro y
    by_cases hya : y = a
    · rw [hya, hself, BlockHeader.withWords_free]
    · exact (join_header_tile hya).2
  rw [hflag] at hf hfn
  by_cases hxa : x = a
  · subst hxa
    have hn : (c.join x).next x = c.next (c.next x) := by
      have hx2 : c.next x = x + 2 * (c.header x).nWords := rfl
      have hb2 : c.next (c.next x) = c.next x + 2 * (c.header (c.next x)).nWords := rfl
      rw [next, size, hself, BlockHeader.withWords_nWords, hb2, hx2]
      omega
    rw [hn] at hfn
    exact .inl ⟨rfl, hb.1, hb.2.2, hsame.symm.trans hf, hfn⟩
  · have hn : (c.join a).next x = c.next x := by
      rw [next, size, (join_header_tile hxa).1, next, size]
    rw [hn] at hfn
    exact .inr ⟨hxa, hx.1, hx.2, hl, hf, hfn⟩

theorem touching_release {x : Nat} (ht : (c.release a).Touching pools x) :
    x = a ∨ c.next x = a ∨ c.Touching pools x := by
  obtain ⟨hx, hl, hf, hfn⟩ := ht
  by_cases hxa : x = a
  · exact .inl hxa
  · by_cases hna : c.next x = a
    · exact .inr (.inl hna)
    · have hhead : ∀ {y}, y ≠ a → (c.release a).header y = c.header y :=
        fun hy => Function.update_of_ne hy _ _
      have hn : (c.release a).next x = c.next x := by
        rw [next, size, hhead hxa, next, size]
      rw [hn, hhead hna] at hfn
      rw [hhead hxa] at hf
      exact .inr (.inr ⟨hx, hl, hf, hfn⟩)

theorem touching_take {x : Nat} (ht : (c.take a).Touching pools x) :
    x ≠ a ∧ c.next x ≠ a ∧ c.Touching pools x := by
  obtain ⟨hx, hl, hf, hfn⟩ := ht
  have hself : ((c.take a).header a).free = false := by
    unfold Heap.take
    simp only [Function.update_self, BlockHeader.withFree_free]
  have hn : (c.take a).next x = c.next x := by
    have hw := nWords_update_withFree c.header a false x
    unfold Heap.take
    rw [next, size, next, size, hw]
  have hhead : ∀ {y}, ((c.take a).header y).free = true →
      y ≠ a ∧ (c.take a).header y = c.header y := by
    intro y hy
    have hya : y ≠ a := by
      rintro rfl
      rw [hself] at hy
      cases hy
    exact ⟨hya, Function.update_of_ne hya _ _⟩
  rw [hn] at hfn
  obtain ⟨hxa, hx'⟩ := hhead hf
  obtain ⟨hna, hn'⟩ := hhead hfn
  rw [hx'] at hf
  rw [hn'] at hfn
  exact ⟨hxa, hna, hx, hl, hf, hfn⟩

theorem calm_grow {n : Nat} (h : c.Ok pools) (hfresh : Fresh pools a n) (hn : 0 < n)
    (hc : c.Calm pools) : (c.grow a n).Calm ((a, a + 16 + 2 * n) :: pools) := by
  rintro x ⟨hx, hl, hf, hfn⟩
  have hhead := fun x hx => h.grow_header_old hfresh (x := x) hx
  rcases mem_grow.1 hx with hx | rfl | rfl | rfl
  · have hl' : ¬ Last pools x := fun ⟨p, hp, heq⟩ => hl ⟨p, List.mem_cons_of_mem _ hp, heq⟩
    have hn' : (c.grow a n).next x = c.next x := by rw [next, size, hhead x hx, next, size]
    have hnx : c.next x ∈ c.tiles := (h.tiling.next x hx hl').1
    rw [hn', hhead _ hnx] at hfn
    rw [hhead x hx] at hf
    exact hc x ⟨hx, hl', hf, hfn⟩
  · rw [grow_header_first] at hf
    cases hf
  · have hmiddle := grow_header_middle (c := c) (a := a) hn
    have hn' : (c.grow a n).next (a + 8) = a + 8 + 2 * n := by rw [next, size, hmiddle]
    rw [hn', grow_header_last] at hfn
    cases hfn
  · rw [grow_header_last] at hf
    cases hf

end Heap.Ok

/-! ## The allocated blocks -/

namespace Heap

variable {c c' c'' : Heap} {pools pools' pools'' : List (Nat × Nat)} {a : Nat}

theorem mem_allocated {x : Nat} :
    x ∈ c.allocated pools ↔ c.Block pools x ∧ (c.header x).free = false := by
  rw [allocated, Finset.mem_filter, Block, ← and_assoc]

/-- Only free blocks have changed. -/
structure Same (c c' : Heap) (pools pools' : List (Nat × Nat)) : Prop where
  allocated : c'.allocated pools' = c.allocated pools
  nWords : ∀ x ∈ c.allocated pools, (c'.header x).nWords = (c.header x).nWords

namespace Same

theorem refl : Same c c pools pools := ⟨rfl, fun _ _ => rfl⟩

theorem trans (h : Same c c' pools pools') (h' : Same c' c'' pools' pools'') :
    Same c c'' pools pools'' where
  allocated := h'.allocated.trans h.allocated
  nWords x hx := (h'.nWords x (h.allocated ▸ hx)).trans (h.nWords x hx)

theorem words (h : Same c c' pools pools') : c'.words pools' = c.words pools := by
  rw [Heap.words, h.allocated]
  exact Finset.sum_congr rfl h.nWords

theorem cut {k : Nat} (h : c.Ok pools) (ha : c.Block pools a) (hf : (c.header a).free = true)
    (hk : 0 < k) (hlt : k < (c.header a).nWords) : Same c (c.cut a k) pools pools := by
  have hnew := h.cut_not_mem ha hk hlt
  have htile := fun x hx hxa => h.cut_header_tile ha hk hlt (x := x) hx hxa
  have hself := h.cut_header_self ha (k := k)
  have hb := Ok.cut_header_new (c := c) hk hlt
  have hne : ∀ x ∈ c.allocated pools, x ≠ a := by
    rintro x hx rfl
    rw [(mem_allocated.1 hx).2] at hf
    cases hf
  constructor
  · ext x
    rw [mem_allocated, mem_allocated]
    constructor
    · rintro ⟨⟨hx, hl⟩, hxf⟩
      rcases Finset.mem_insert.1 hx with rfl | hx
      · rw [hb] at hxf
        cases hxf
      · have hxa : x ≠ a := by
          rintro rfl
          rw [hself, BlockHeader.withWords_free, hf] at hxf
          cases hxf
        exact ⟨⟨hx, hl⟩, (htile x hx hxa).2.symm.trans hxf⟩
    · rintro ⟨⟨hx, hl⟩, hxf⟩
      have hxa := hne x (mem_allocated.2 ⟨⟨hx, hl⟩, hxf⟩)
      exact ⟨⟨Finset.mem_insert_of_mem hx, hl⟩, (htile x hx hxa).2.trans hxf⟩
  · intro x hx
    exact (htile x (mem_allocated.1 hx).1.1 (hne x hx)).1

theorem join (h : c.Ok pools) (ha : c.Block pools a) (hb : c.Block pools (c.next a))
    (hf : (c.header a).free = true) (hfn : (c.header (c.next a)).free = true) :
    Same c (c.join a) pools pools := by
  have hself := h.join_header_self ha hb
  have hmem : ∀ {x}, x ∈ (c.join a).tiles ↔ x ≠ c.next a ∧ x ∈ c.tiles := Finset.mem_erase
  have hne : ∀ x ∈ c.allocated pools, x ≠ a := by
    rintro x hx rfl
    rw [(mem_allocated.1 hx).2] at hf
    cases hf
  have hne' : ∀ x ∈ c.allocated pools, x ≠ c.next a := by
    rintro x hx rfl
    rw [(mem_allocated.1 hx).2] at hfn
    cases hfn
  constructor
  · ext x
    rw [mem_allocated, mem_allocated]
    constructor
    · rintro ⟨⟨hx, hl⟩, hxf⟩
      have hxa : x ≠ a := by
        rintro rfl
        rw [hself, BlockHeader.withWords_free, hf] at hxf
        cases hxf
      exact ⟨⟨(hmem.1 hx).2, hl⟩, (Ok.join_header_tile hxa).2.symm.trans hxf⟩
    · rintro ⟨⟨hx, hl⟩, hxf⟩
      have hxall := mem_allocated.2 ⟨⟨hx, hl⟩, hxf⟩
      exact ⟨⟨hmem.2 ⟨hne' x hxall, hx⟩, hl⟩, (Ok.join_header_tile (hne x hxall)).2.trans hxf⟩
  · intro x hx
    exact (Ok.join_header_tile (hne x hx)).1

theorem grow {n : Nat} (h : c.Ok pools) (hfresh : Ok.Fresh pools a n) (hn : 0 < n) :
    Same c (c.grow a n) pools ((a, a + 16 + 2 * n) :: pools) := by
  have hhead := fun x hx => h.grow_header_old hfresh (x := x) hx
  constructor
  · ext x
    rw [mem_allocated, mem_allocated]
    constructor
    · rintro ⟨⟨hx, hF, hL⟩, hxf⟩
      rcases Ok.mem_grow.1 hx with hx | rfl | rfl | rfl
      · refine ⟨⟨hx, fun ⟨p, hp, heq⟩ => hF ⟨p, List.mem_cons_of_mem _ hp, heq⟩,
          fun ⟨p, hp, heq⟩ => hL ⟨p, List.mem_cons_of_mem _ hp, heq⟩⟩, ?_⟩
        rwa [hhead x hx] at hxf
      · exact absurd ⟨_, List.mem_cons_self, rfl⟩ hF
      · rw [Ok.grow_header_middle hn] at hxf
        cases hxf
      · refine absurd ⟨_, List.mem_cons_self, ?_⟩ hL
        rw [headerSize]
        dsimp only
        omega
    · rintro ⟨⟨hx, hF, hL⟩, hxf⟩
      have hold := h.grow_old hfresh hx
      have hlt := h.lt_next hx
      refine ⟨⟨Ok.mem_grow.2 (.inl hx), ?_, ?_⟩, by rwa [hhead x hx]⟩
      · rintro ⟨p, hp, heq⟩
        rcases List.mem_cons.1 hp with rfl | hp
        · dsimp only at heq
          omega
        · exact hF ⟨p, hp, heq⟩
      · rintro ⟨p, hp, heq⟩
        rcases List.mem_cons.1 hp with rfl | hp
        · rw [headerSize] at heq
          dsimp only at heq
          omega
        · exact hL ⟨p, hp, heq⟩
  · intro x hx
    rw [hhead x (mem_allocated.1 hx).1.1]

end Same

/-- Only the headers of the tiles matter. -/
theorem Same.congr {header : Nat → BlockHeader} (hh : ∀ a ∈ c.tiles, header a = c.header a) :
    Same c { c with header := header } pools pools where
  allocated := by
    ext x
    rw [mem_allocated, mem_allocated]
    constructor
    · rintro ⟨⟨hx, hl⟩, hf⟩
      exact ⟨⟨hx, hl⟩, (congrArg BlockHeader.free (hh x hx)).symm.trans hf⟩
    · rintro ⟨⟨hx, hl⟩, hf⟩
      exact ⟨⟨hx, hl⟩, (congrArg BlockHeader.free (hh x hx)).trans hf⟩
  nWords x hx := congrArg BlockHeader.nWords (hh x (mem_allocated.1 hx).1.1)

theorem Ok.calm_congr {header : Nat → BlockHeader} (h : c.Ok pools) (hc : c.Calm pools)
    (hh : ∀ a ∈ c.tiles, header a = c.header a) :
    ({ c with header := header } : Heap).Calm pools := by
  rintro x ⟨hx, hl, hf, hfn⟩
  have hnext : ({ c with header := header } : Heap).next x = c.next x := by
    simp only [next, size, hh x hx]
  have hmem : c.next x ∈ c.tiles := (h.tiling.next x hx hl).1
  rw [hnext] at hfn
  exact hc x ⟨hx, hl, (congrArg BlockHeader.free (hh x hx)).symm.trans hf,
    (congrArg BlockHeader.free (hh _ hmem)).symm.trans hfn⟩

theorem allocated_release :
    (c.release a).allocated pools = (c.allocated pools).erase a := by
  ext x
  rw [Finset.mem_erase, mem_allocated, mem_allocated]
  by_cases hxa : x = a
  · have hself : ((c.release a).header x).free = true := by
      unfold release
      simp only [hxa, Function.update_self, BlockHeader.withFree_free]
    simp [hxa ▸ hself, hxa]
  · have hhead : (c.release a).header x = c.header x := Function.update_of_ne hxa _ _
    have hblock : (c.release a).Block pools x ↔ c.Block pools x := Iff.rfl
    rw [hhead, hblock]
    exact ⟨fun h => ⟨hxa, h⟩, fun h => h.2⟩

theorem allocated_take (ha : c.Block pools a) :
    (c.take a).allocated pools = insert a (c.allocated pools) := by
  ext x
  have hblock : (c.take a).Block pools x ↔ c.Block pools x := Iff.rfl
  rw [Finset.mem_insert, mem_allocated, mem_allocated, hblock]
  by_cases hxa : x = a
  · have hself : ((c.take a).header x).free = false := by
      unfold take
      simp only [hxa, Function.update_self, BlockHeader.withFree_free]
    rw [hself]
    exact ⟨fun _ => .inl hxa, fun _ => ⟨hxa ▸ ha, rfl⟩⟩
  · have hhead : (c.take a).header x = c.header x := Function.update_of_ne hxa _ _
    rw [hhead]
    exact ⟨fun h => .inr h, fun h => h.resolve_left hxa⟩

theorem words_release (ha : a ∈ c.allocated pools) :
    (c.release a).words pools + (c.header a).nWords = c.words pools := by
  rw [words, allocated_release, words, ← Finset.sum_erase_add _ _ ha]
  congr 1
  exact Finset.sum_congr rfl fun x _ => Ok.nWords_update_withFree c.header a true x

theorem words_take (ha : c.Block pools a) (hf : (c.header a).free = true) :
    (c.take a).words pools = c.words pools + (c.header a).nWords := by
  have hnot : a ∉ c.allocated pools := fun h => by
    rw [(mem_allocated.1 h).2] at hf
    cases hf
  have hw := fun x => Ok.nWords_update_withFree c.header a false x
  rw [words, allocated_take ha, words, Finset.sum_insert hnot, Nat.add_comm]
  congr 1
  · exact Finset.sum_congr rfl fun x _ => hw x
  · exact hw a

/-- The allocated blocks are not larger together than the memory. -/
theorem Ok.words_le (h : c.Ok pools) : c.words pools ≤ 2147483648 := by
  refine sum_length_le _ (fun a => a / 2) _ (fun a ha b hb hab => ?_) fun a ha => ?_
  · have ha' := (mem_allocated.1 ha).1.1
    have hb' := (mem_allocated.1 hb).1.1
    have := (h.even a ha').1
    have := (h.even b hb').1
    rcases Nat.lt_or_gt_of_ne hab with hlt | hlt
    · have := h.tiling.apart a ha' b hb' hlt
      rw [size] at this
      omega
    · have := h.tiling.apart b hb' a ha' hlt
      rw [size] at this
      omega
  · obtain ⟨p, hp, _, hend⟩ := h.inside a (mem_allocated.1 ha).1.1
    have := h.word p hp
    rw [next, size] at hend
    omega

theorem Ok.card_le (h : c.Ok pools) : (c.allocated pools).card ≤ c.words pools := by
  rw [Finset.card_eq_sum_ones, words]
  refine Finset.sum_le_sum fun a ha => ?_
  have := h.block a (mem_allocated.1 ha).1
  omega

/-- The pools are not larger together than the memory. -/
theorem Ok.pools_le (h : c.Ok pools) (hnodup : pools.Nodup) :
    (pools.map fun p => (p.2 - p.1) / 2).sum ≤ 2147483648 := by
  rw [← List.sum_toFinset _ hnodup]
  have hlt : ∀ p ∈ pools, p.1 < p.2 := fun p hp => by
    obtain ⟨a, _, hstop, hle, _⟩ := h.stop p hp
    rw [headerSize] at hstop
    omega
  refine sum_length_le _ (fun p : Nat × Nat => p.1 / 2) _ (fun p hp q hq hpq => ?_) fun p hp => ?_
  · rw [List.mem_toFinset] at hp hq
    have := hlt p hp
    have := hlt q hq
    have := h.apart p hp q hq hpq
    omega
  · rw [List.mem_toFinset] at hp
    have := hlt p hp
    have := h.word p hp
    omega

theorem Ok.nWords_le (h : c.Ok pools) (ha : a ∈ c.tiles) :
    (c.header a).nWords ≤ (pools.map fun p => (p.2 - p.1) / 2).sum := by
  obtain ⟨p, hp, hle, hend⟩ := h.inside a ha
  rw [next, size] at hend
  calc (c.header a).nWords ≤ (p.2 - p.1) / 2 := by omega
    _ ≤ _ := List.single_le_sum (fun _ _ => Nat.zero_le _) _
        (List.mem_map_of_mem (f := fun p : Nat × Nat => (p.2 - p.1) / 2) hp)

end Heap

end Vmx.MemPart
