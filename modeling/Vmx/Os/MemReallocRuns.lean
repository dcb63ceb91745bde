import Vmx.Os.MemRealloc

/-!
# Calls of `memPartRealloc`

`ReallocOk` is what a call should do.  It does so when the block is copied: the calls of the
allocator write only at headers and in free blocks (`memPartAlloc_frame`,
`memPartFree_frame`), so every block that is allocated keeps its bytes (`kept_of_alloc`,
`kept_of_free`), and the copy goes into the new block.  When the block stays in place the
result has no value.
-/

namespace Vmx.MemPart

open Lib Util

/-! ## Where the allocator writes -/

section Frame

variable {m : Partition} {tiles : Finset Nat} {pools : List (Nat × Nat)} {p nWords k : Nat}

/-- The call has not written the header at the address, and its block is elsewhere. -/
def Spares (m : Partition) (x : Nat) (r : Partition × Option Nat) : Prop :=
  r.1.header x = m.header x ∧ r.2 ≠ some x

/-- A split writes from the header of its block to the one behind. -/
theorem memAlignedBlockSplit_frame (h : (m.heap tiles).Ok pools) (hp : p ∈ m.freeList)
    (hmin : 8 ≤ nWords) (heven : nWords % 2 = 0) (hk : 2 ≤ k) (hk' : k < 32)
    (hfit : nWords + 2 ^ k / 2 < (m.header p).nWords ∨
      (m.header p).nWords = nWords ∧ (p + 8) % 2 ^ k = 0) {x : Nat}
    (hx : x < p ∨ (m.heap tiles).next p < x) :
    Spares m x (memAlignedBlockSplit m p nWords 8 (2 ^ k)) := by
  obtain ⟨hmem, hf⟩ := (h.listed p).1 hp
  have hblock := h.block_of_free hmem hf
  have hp4 : p % 4 = 0 := (h.even p hmem).1
  have hW : (m.header p).nWords % 2 = 0 := (h.even p hmem).2
  have hlt : (m.heap tiles).next p + 8 ≤ 4294967296 := h.next_lt hblock
  have hsize : (m.heap tiles).next p = p + 2 * (m.header p).nWords := rfl
  obtain ⟨E, hE⟩ : ∃ E, E = (m.heap tiles).next p := ⟨_, rfl⟩
  rw [← hE] at hx hlt hsize
  obtain ⟨hround, hal, hb4, hbfit, hbp⟩ := splitAt_spec hsize hp4 hW heven hk hfit
  obtain ⟨b, hb⟩ : ∃ b, b = splitAt E nWords (2 ^ k) := ⟨_, rfl⟩
  rw [← hb] at hround hal hb4 hbfit hbp
  have hEnd : u32 (p + (m.header p).nWords * 2) = E := by
    unfold u32
    omega
  have hv : SplitWords p E b nWords := splitWords hlt (by omega) hbfit hmin (by omega)
  have hdown : roundDown (E + 8 - 2 * nWords) (2 ^ k) = b + 8 := by
    rw [roundDown_two_pow (by omega) (by omega), hround]
  have hhead : blockToHeader (b + 8) = b := blockToHeader_add (by omega)
  have hxE : x ≠ E := by omega
  have hxb : x ≠ b := by omega
  have hxp : x ≠ p := by omega
  have hsome : some b ≠ some x := fun heq => hxb (Option.some.inj heq).symm
  unfold memAlignedBlockSplit
  simp only [hEnd, hv.start, hdown, hhead, hv.size, halfInt_lt_eight (x := b - p) (by omega) (by omega)]
  split
  · exact ⟨rfl, fun heq => nomatch heq⟩
  · simp only [hv.left]
    split <;> refine ⟨?_, hsome⟩
    · simp only [Partition.setHeader, Partition.nextHeader, Function.update_self, hv.words, hv.next,
        Function.update_of_ne hxE, Function.update_of_ne hxb]
      split
      · rfl
      · simp only [Function.update_of_ne hxb, Function.update_of_ne hxp]
    · have hxg : x ≠ b + 2 * nWords := by omega
      simp only [Partition.setHeader, Partition.nextHeader, Function.update_self, hv.thin, hv.gap,
        hv.rest, hv.stop, Function.update_of_ne hxE, Function.update_of_ne hxb,
        Function.update_of_ne hxg]
      split
      · rfl
      · simp only [Function.update_of_ne hxb, Function.update_of_ne hxp]

/-- An allocation writes in free blocks and at the headers behind them. -/
theorem allocLoop_frame (h : (m.heap tiles).Ok pools) (hminBlock : m.minBlockWords = 8)
    (hcalm : (m.heap tiles).Calm pools) (hmin : 8 ≤ nWords) (heven : nWords % 2 = 0) (hk : 2 ≤ k)
    (hk' : k < 32) {nodes : List Nat} (hnodes : ∀ p ∈ nodes, p ∈ m.freeList) {x : Nat}
    (hx : ∀ p ∈ m.freeList, x < p ∨ (m.heap tiles).next p < x) :
    Spares m x (allocLoop m nWords (nWords + 2 ^ k / 2) (2 ^ k) nodes) := by
  induction nodes with
  | nil => exact ⟨rfl, fun heq => nomatch heq⟩
  | cons p nodes ih =>
    have htail := ih fun q hq => hnodes q (List.mem_cons_of_mem _ hq)
    have hp := hnodes p List.mem_cons_self
    have hblock := h.block_of_free ((h.listed p).1 hp).1 ((h.listed p).1 hp).2
    have hlt : (m.heap tiles).next p + 8 ≤ 4294967296 := h.next_lt hblock
    have hpos := headerToBlock_of_lt (Nat.lt_of_lt_of_le (Nat.add_lt_add_right
      (h.lt_next hblock.1) 8) hlt)
    rw [allocLoop, hminBlock]
    split
    next hfit =>
      rw [blockFits, hpos, Bool.or_eq_true, Bool.and_eq_true, decide_eq_true_iff, beq_iff_eq,
        aligned_two_pow] at hfit
      rcases memAlignedBlockSplit_spec h hcalm hp hmin heven hk hk' hfit with
        hnone | ⟨b, header, freeList, c', hsome, _⟩
      · simp only [hnone, Option.isSome_none, Bool.false_eq_true, if_false]
        exact htail
      · have hframe := memAlignedBlockSplit_frame h hp hmin heven hk hk' hfit (hx p hp)
        rw [hsome] at hframe ⊢
        simp only [Option.isSome_some, if_true]
        exact hframe
    next => exact htail

end Frame

/-! ## Blocks and what is written -/

section Apart

variable {m : Partition} {tiles : Finset Nat} {l : Live} {x : Nat}

/-- The block of an allocation. -/
theorem Holds.block_of_live (h : Holds m tiles) (hl : l ∈ m.live) :
    ∃ a ∈ tiles, (m.header a).free = false ∧ l.ptr = a + 8 ∧
      l.ptr + l.nBytes ≤ (m.heap tiles).next a := by
  obtain ⟨a, ha, hptr, _, hend⟩ := h.live l hl
  obtain ⟨hblock, hf⟩ := Heap.mem_allocated.1 ha
  exact ⟨a, hblock.1, hf, hptr, hend⟩

/-- A header is in no allocated block. -/
theorem Holds.header_apart (h : Holds m tiles) (hl : l ∈ m.live) (hx : x ∈ tiles) :
    x + 8 ≤ l.ptr ∨ l.ptr + l.nBytes ≤ x := by
  obtain ⟨a, ha, _, hptr, hend⟩ := h.block_of_live hl
  rcases Nat.lt_or_ge a x with hlt | hge
  · have := h.ok.tiling.apart a ha x hx hlt
    rw [Heap.next] at hend
    omega
  · omega

/-- A free block, with the header behind it, is in no allocated block. -/
theorem Holds.free_apart (h : Holds m tiles) (hl : l ∈ m.live) {p : Nat} (hp : p ∈ m.freeList) :
    (m.heap tiles).next p + 8 ≤ l.ptr ∨ l.ptr + l.nBytes ≤ p := by
  obtain ⟨a, ha, hfa, hptr, hend⟩ := h.block_of_live hl
  obtain ⟨hmem, hf⟩ := (h.ok.listed p).1 hp
  have hne : a ≠ p := by
    rintro rfl
    exact nomatch hf.symm.trans hfa
  rcases Nat.lt_or_ge a p with hlt | hge
  · have := h.ok.tiling.apart a ha p hmem hlt
    rw [Heap.next] at hend
    omega
  · have := h.ok.tiling.apart p hmem a ha (by omega)
    rw [Heap.next]
    omega

theorem Holds.free_large (h : Holds m tiles) {p : Nat} (hp : p ∈ m.freeList) :
    p + freeBlockSize ≤ (m.heap tiles).next p := by
  obtain ⟨hmem, hf⟩ := (h.ok.listed p).1 hp
  have := h.ok.block p (h.ok.block_of_free hmem hf)
  rw [Heap.next, Heap.size, freeBlockSize]
  omega

/-- Two allocated blocks are apart. -/
theorem Holds.live_apart (h : Holds m tiles) {l' : Live} (hl' : l' ∈ m.live)
    (hne : l.ptr ≠ l'.ptr) {a : Nat} (ha : a ∈ tiles) (hla : l.ptr = a + 8) :
    (m.heap tiles).next a + 8 ≤ l'.ptr ∨ l'.ptr + l'.nBytes ≤ a := by
  obtain ⟨a', ha', _, hptr', hend'⟩ := h.block_of_live hl'
  rcases Nat.lt_or_ge a a' with hlt | hge
  · have := h.ok.tiling.apart a ha a' ha' hlt
    rw [Heap.next]
    omega
  · have := h.ok.tiling.apart a' ha' a ha (by omega)
    rw [Heap.next] at hend'
    omega

/-- What is not written. -/
theorem not_wrote {m m' : Partition} {a : Nat}
    (hheader : ∀ x, x ≤ a → a < x + 8 → m'.header x = m.header x)
    (hlist : ∀ x, x ∈ m.freeList ∨ x ∈ m'.freeList → a < x + 8 ∨ x + 16 ≤ a) :
    wrote m m' a = false := by
  rw [wrote, Bool.or_eq_false_iff]
  constructor
  · rw [List.any_eq_false]
    intro i hi
    have hi' : i < 8 := List.mem_range.1 hi
    rw [Bool.and_eq_true, decide_eq_true_iff, decide_eq_true_iff]
    rintro ⟨hle, hne⟩
    exact hne (hheader (a - i) (by omega) (by omega))
  · rw [List.any_eq_false]
    intro x hx
    rw [Bool.and_eq_true, decide_eq_true_iff, decide_eq_true_iff, headerSize, freeBlockSize]
    have := hlist x (List.mem_append.1 hx)
    omega

/-- The memory outside the free blocks and the headers behind them is not written. -/
theorem memPartAlloc_frame (h : Holds m tiles) {nBytes : Nat} (hfits : Fits nBytes ALLOC_ALIGN_SIZE)
    (hx : ∀ p ∈ m.freeList, x < p ∨ (m.heap tiles).next p < x) :
    (memPartAlloc m nBytes).1.header x = m.header x := by
  unfold memPartAlloc memPartAlignedAlloc
  by_cases hover : u32 (requestWords nBytes * 2) < nBytes
  · simp only [hover, if_true]
  · have heven : requestWords nBytes % 2 = 0 := requestWords_even
    have hpad := hfits.resolve_left hover
    have hmax : (if requestWords nBytes < m.minBlockWords then m.minBlockWords
        else requestWords nBytes) = max 8 (requestWords nBytes) := by
      rw [h.minBlock]
      split <;> omega
    simp only [hover, if_false, hmax]
    obtain ⟨w, hw⟩ : ∃ w, w = max 8 (requestWords nBytes) := ⟨_, rfl⟩
    rw [← hw] at hpad ⊢
    have hsum : u32 (w + ALLOC_ALIGN_SIZE / 2) = w + 2 ^ 2 / 2 := Nat.mod_eq_of_lt hpad
    rw [hsum]
    have hframe : Spares m x (allocLoop m w (w + 2 ^ 2 / 2) (2 ^ 2) m.freeList) :=
      allocLoop_frame h.ok h.minBlock h.calm (by omega) (by omega) (by omega) (by omega)
        (fun _ hp => hp) hx
    rw [show ALLOC_ALIGN_SIZE = 2 ^ 2 from rfl]
    generalize allocLoop m w (w + 2 ^ 2 / 2) (2 ^ 2) m.freeList = r at hframe
    obtain ⟨m1, _ | b⟩ := r
    · exact hframe.1
    · have hxb : x ≠ b := fun heq => hframe.2 (congrArg some heq.symm)
      exact (Function.update_of_ne hxb _ _).trans hframe.1

/-- The outstanding allocations of a result. -/
def HasLive (live : List Live) (r : Partition × Option Nat) : Prop := r.1.live = live

theorem memAlignedBlockSplit_live (m : Partition) (pHeader nWords minWords alignment : Nat) :
    HasLive m.live (memAlignedBlockSplit m pHeader nWords minWords alignment) := by
  unfold memAlignedBlockSplit
  dsimp only
  split
  · exact rfl
  · split <;> split <;> exact rfl

theorem allocLoop_live (m : Partition) (nWords nWordsPad alignment : Nat) (nodes : List Nat) :
    HasLive m.live (allocLoop m nWords nWordsPad alignment nodes) := by
  induction nodes generalizing m with
  | nil => rfl
  | cons p nodes ih =>
    rw [allocLoop]
    have hsplit := memAlignedBlockSplit_live m p nWords m.minBlockWords alignment
    generalize memAlignedBlockSplit m p nWords m.minBlockWords alignment = r at hsplit
    split
    · dsimp only
      split
      · exact hsplit
      · exact (ih r.1).trans hsplit
    · exact ih m

/-- A successful allocation is outstanding, and a failed one is not. -/
theorem memPartAlignedAlloc_live (m : Partition) (nBytes alignment : Nat) :
    (memPartAlignedAlloc m nBytes alignment).1.live =
      match (memPartAlignedAlloc m nBytes alignment).2 with
      | .error _ => m.live
      | .ok q => ⟨q, nBytes, alignment⟩ :: m.live := by
  unfold memPartAlignedAlloc
  dsimp only
  split
  · rfl
  · have hlive := allocLoop_live m
      (if requestWords nBytes < m.minBlockWords then m.minBlockWords else requestWords nBytes)
      (u32 ((if requestWords nBytes < m.minBlockWords then m.minBlockWords
        else requestWords nBytes) + alignment / 2)) alignment m.freeList
    generalize allocLoop m _ _ _ _ = r at hlive
    obtain ⟨m1, _ | b⟩ := r
    · exact hlive
    · exact congrArg (_ :: ·) hlive

/-- Whether an allocation succeeds, and what it adds. -/
theorem memPartAlloc_cases (h : Holds m tiles) {nBytes : Nat} (hn : nBytes < 4294967296)
    (hfits : Fits nBytes ALLOC_ALIGN_SIZE) :
    (∃ e, memPartAlloc m nBytes = (m, .error e)) ∨
      ∃ m1 b tiles', memPartAlloc m nBytes = (m1, .ok (b + 8)) ∧ Holds m1 tiles' ∧
        m1.live = ⟨b + 8, nBytes, ALLOC_ALIGN_SIZE⟩ :: m.live ∧ m1.pools = m.pools ∧
        b ∈ (m1.heap tiles').allocated m1.pools ∧ nBytes + 8 ≤ 2 * (m1.header b).nWords ∧
        ∀ a ∈ (m.heap tiles).allocated m.pools, (m1.header a).nWords = (m.header a).nWords := by
  have hlive := memPartAlignedAlloc_live m nBytes ALLOC_ALIGN_SIZE
  obtain ⟨tiles', hholds⟩ := h.alloc (k := 2) (by omega) (by omega) hn hfits
  have hspec := memPartAlignedAlloc_spec h.ok h.calm h.minBlock (k := 2) (by omega) (by omega) hn
    hfits
  rw [show (2 : Nat) ^ 2 = ALLOC_ALIGN_SIZE from rfl] at hspec hholds
  rw [memPartAlloc]
  generalize memPartAlignedAlloc m nBytes ALLOC_ALIGN_SIZE = r at hlive hholds hspec
  obtain ⟨m1, e | q⟩ := r
  · left
    refine ⟨e, ?_⟩
    rcases hspec with heq | ⟨b, header, freeList, c', w, heq, _⟩
    · exact congrArg (·, Except.error e) heq
    · have hlen := congrArg (fun m : Partition => m.live.length) heq
      have hlen' := congrArg List.length hlive
      dsimp only [List.length_cons] at hlen hlen'
      omega
  · right
    rcases hspec with heq | ⟨b, header, freeList, c', w, heq, hcarved, hlarge, _, hhead⟩
    · have hlen' := congrArg List.length hlive
      rw [show m1 = m from heq] at hlen'
      dsimp only [List.length_cons] at hlen'
      omega
    · have heq' : m1.live = ⟨b + 8, nBytes, ALLOC_ALIGN_SIZE⟩ :: m.live :=
        congrArg Partition.live heq
      obtain rfl : q = b + 8 :=
        congrArg Live.ptr (List.cons.inj ((show m1.live = _ from hlive).symm.trans heq')).1
      have hmem : (⟨b + 8, nBytes, ALLOC_ALIGN_SIZE⟩ : Live) ∈ m1.live := by
        rw [heq']
        exact List.mem_cons_self
      obtain ⟨a, ha, hptr, _, hend⟩ := hholds.live _ hmem
      obtain rfl : b = a := by
        dsimp only at hptr
        omega
      have hpools : m1.pools = m.pools := by
        rw [show m1 = _ from heq]
      refine ⟨m1, b, tiles', rfl, hholds, heq', hpools, ha, ?_, ?_⟩
      · rw [Heap.next] at hend
        have hsize : (m1.heap tiles').size b = 2 * (m1.header b).nWords := rfl
        dsimp only at hend
        omega
      · intro x hx
        have hxc : x ∈ c'.allocated m.pools := hcarved.same.allocated ▸ hx
        rw [show m1.header = _ from congrArg Partition.header heq]
        dsimp only
        rw [Heap.Ok.nWords_update_withFree, hhead x (Heap.mem_allocated.1 hxc).1.1]
        exact hcarved.same.nWords x hx

/-- A merge with the block before writes at headers, and the block ends where it did. -/
theorem mergePrev_frame {pools : List (Nat × Nat)} {a : Nat} (h : (m.heap tiles).Ok pools)
    (hblock : (m.heap tiles).Block pools a) :
    (mergePrev m a).2 ∈ tiles ∧
      (mergePrev m a).2 + 2 * ((mergePrev m a).1.header (mergePrev m a).2).nWords =
        (m.heap tiles).next a ∧
      ∀ x, x ∉ tiles ∨ x = (m.heap tiles).next a →
        (mergePrev m a).1.header x = m.header x := by
  have hlt : (m.heap tiles).next a + 8 ≤ 4294967296 := h.next_lt hblock
  have halt := h.lt_next hblock.1
  obtain ⟨hpmem, hpnext⟩ := h.prev_mem hblock
  have hplt := h.lt_next hpmem
  obtain ⟨p, hp⟩ : ∃ p, p = (m.header a).pPrevHeader := ⟨_, rfl⟩
  have hp' : ((m.heap tiles).header a).pPrevHeader = p := hp.symm
  rw [hp'] at hpmem hpnext hplt
  have hsize : (m.heap tiles).next a = a + 2 * (m.header a).nWords := rfl
  have hpsize : (m.heap tiles).next p = p + 2 * (m.header p).nWords := rfl
  have hother (x : Nat) (hx : x ∉ tiles ∨ x = (m.heap tiles).next a) : x ≠ a ∧ x ≠ p := by
    rcases hx with hx | hx
    · exact ⟨fun heq => hx (heq ▸ hblock.1), fun heq => hx (heq ▸ hpmem)⟩
    · omega
  unfold mergePrev Partition.prevHeader
  simp only [← hp]
  cases hmerge : (m.header p).free with
  | true =>
    have hap : a ≠ p := by omega
    have hsum : u31 ((m.header p).nWords + (m.header a).nWords) =
        (m.header p).nWords + (m.header a).nWords := by
      unfold u31
      omega
    simp only [if_true, Partition.setHeader, Function.update_of_ne hap.symm, Function.update_self,
      hsum]
    refine ⟨hpmem, by omega, fun x hx => ?_⟩
    obtain ⟨hxa, hxp⟩ := hother x hx
    rw [Function.update_of_ne hxp, Function.update_of_ne hxa]
  | false =>
    simp only [Bool.false_eq_true, if_false, Partition.setHeader, Function.update_self]
    refine ⟨hblock.1, by omega, fun x hx => ?_⟩
    rw [Function.update_of_ne (hother x hx).1]

/-- Freeing a block writes at headers. -/
theorem memPartFree_frame (h : Holds m tiles) {m' : Partition} {a : Nat}
    (ha : a ∈ (m.heap tiles).allocated m.pools) (hm : memPartFree m (a + 8) = .ok m')
    (hx : x ∉ tiles) : m'.header x = m.header x := by
  obtain ⟨hblock, _⟩ := Heap.mem_allocated.1 ha
  have hlt : (m.heap tiles).next a + 8 ≤ 4294967296 := h.ok.next_lt hblock
  have halt := h.ok.lt_next hblock.1
  have hhead : blockToHeader (a + 8) = a := blockToHeader_add (by omega)
  obtain ⟨hq, hend, hframe⟩ := mergePrev_frame h.ok hblock
  unfold memPartFree at hm
  rw [hhead] at hm
  dsimp only at hm
  split at hm
  · exact nomatch hm
  · obtain rfl := Except.ok.inj hm
    show (mergeNext (mergePrev m a).1 (mergePrev m a).2).header x = m.header x
    generalize mergePrev m a = r at hq hend hframe
    obtain ⟨m1, q⟩ := r
    dsimp only at hq hend hframe ⊢
    have hnext : m1.nextHeader q = (m.heap tiles).next a := by
      unfold Partition.nextHeader u32
      omega
    have hxq : x ≠ q := fun heq => hx (heq ▸ hq)
    obtain ⟨hnmem, _, hnfirst⟩ := h.ok.next_mem hblock
    have hsame := hframe _ (Or.inr rfl)
    unfold mergeNext
    rw [hnext]
    dsimp only
    split
    · rename_i hfree
      rw [hsame] at hfree
      have hnblock : (m.heap tiles).Block m.pools ((m.heap tiles).next a) :=
        h.ok.block_of_free hnmem hfree
      have hnlt : (m.heap tiles).next ((m.heap tiles).next a) + 8 ≤ 4294967296 :=
        h.ok.next_lt hnblock
      have hnsize : (m.heap tiles).next ((m.heap tiles).next a) =
          (m.heap tiles).next a + 2 * (m.header ((m.heap tiles).next a)).nWords := rfl
      have hsum : u31 ((m1.header q).nWords + (m.header ((m.heap tiles).next a)).nWords) =
          (m1.header q).nWords + (m.header ((m.heap tiles).next a)).nWords := by
        unfold u31
        omega
      have hlast : u32 (q + 2 * ((m1.header q).nWords +
          (m.header ((m.heap tiles).next a)).nWords)) =
          (m.heap tiles).next ((m.heap tiles).next a) := by
        unfold u32
        omega
      have hxn : x ≠ (m.heap tiles).next ((m.heap tiles).next a) :=
        fun heq => hx (heq ▸ (h.ok.next_mem hnblock).1)
      simp only [Partition.setHeader, Partition.nextHeader, Function.update_self, hsame, hsum,
        hlast, Function.update_of_ne hxn, Function.update_of_ne hxq]
      exact hframe x (Or.inl hx)
    · have hxn : x ≠ (m.heap tiles).next a := fun heq => hx (heq ▸ hnmem)
      rw [hnext]
      show Function.update m1.header _ _ x = _
      rw [Function.update_of_ne hxn]
      exact hframe x (Or.inl hx)

theorem memPartFree_eq (h : Holds m tiles) (hl : l ∈ m.live) :
    ∃ m' tiles', memPartFree m l.ptr = .ok m' ∧ Holds m' tiles' ∧ m'.pools = m.pools ∧
      m'.live = m.live.filter (fun l' => l'.ptr ≠ l.ptr) ∧
      ∀ x, x ∉ tiles → m'.header x = m.header x := by
  obtain ⟨m', tiles', hfree, hholds⟩ := h.free (List.mem_map_of_mem hl)
  obtain ⟨a, ha, hptr, _⟩ := h.live l hl
  have htotal : (m.header a).nWords ≤ m.totalWords := by
    rw [h.total]
    exact h.ok.nWords_le (Heap.mem_allocated.1 ha).1.1
  obtain ⟨header, freeList, c', hspec, _⟩ := memPartFree_spec h.ok h.calm ha htotal
  rw [← hptr, hfree] at hspec
  have heq := Except.ok.inj hspec
  have hpools : m'.pools = m.pools := by
    rw [heq]
  have hlive : m'.live = m.live.filter (fun l' => l'.ptr ≠ l.ptr) := by
    rw [heq]
  refine ⟨m', tiles', hfree, hholds, hpools, hlive, fun x hx => ?_⟩
  rw [hptr] at hfree
  exact memPartFree_frame h ha hfree hx

end Apart

/-! ## Blocks that keep their bytes -/

/-- The block is still allocated, with the same bytes. -/
def Kept (s s' : Memory) (l : Live) : Prop :=
  l ∈ s'.part.live ∧ ∀ i < l.nBytes, s'.bytes (l.ptr + i) = s.bytes (l.ptr + i)

section Kept

variable {s : Memory} {tiles tiles' : Finset Nat} {l : Live} {m' : Partition}

theorem Kept.trans {s' s'' : Memory} (h : Kept s s' l) (h' : Kept s' s'' l) : Kept s s'' l :=
  ⟨h'.1, fun i hi => (h'.2 i hi).trans (h.2 i hi)⟩

/-- A call of the allocator that writes no header in the block leaves it. -/
theorem kept_after (h : Holds s.part tiles) (h' : Holds m' tiles') (hl : l ∈ s.part.live)
    (hl' : l ∈ m'.live) (links : Nat → UInt8)
    (hheader : ∀ x, l.ptr < x + 8 → x < l.ptr + l.nBytes → m'.header x = s.part.header x) :
    Kept s (s.after m' links) l := by
  refine ⟨hl', fun i hi => if_neg ?_⟩
  rw [Bool.not_eq_true]
  refine not_wrote (fun x hx hxa => hheader x (by omega) (by omega)) fun x hx => ?_
  rcases hx with hx | hx
  · have := h.free_large hx
    have := h.free_apart hl hx
    rw [freeBlockSize] at *
    omega
  · have := h'.free_large hx
    have := h'.free_apart hl' hx
    rw [freeBlockSize] at *
    omega

/-- An allocation leaves every block. -/
theorem kept_of_alloc (h : Holds s.part tiles) (h' : Holds m' tiles') (hl : l ∈ s.part.live)
    (hl' : l ∈ m'.live) {nBytes : Nat} (hfits : Fits nBytes ALLOC_ALIGN_SIZE)
    (hm : (memPartAlloc s.part nBytes).1 = m') (links : Nat → UInt8) :
    Kept s (s.after m' links) l := by
  refine kept_after h h' hl hl' links fun x hx hxa => ?_
  rw [← hm]
  refine memPartAlloc_frame h hfits fun p hp => ?_
  have := h.free_apart hl hp
  omega

/-- Freeing a block leaves the others. -/
theorem kept_of_free (h : Holds s.part tiles) (h' : Holds m' tiles') (hl : l ∈ s.part.live)
    (hl' : l ∈ m'.live) (hframe : ∀ x, x ∉ tiles → m'.header x = s.part.header x)
    (links : Nat → UInt8) : Kept s (s.after m' links) l := by
  refine kept_after h h' hl hl' links fun x hx hxa => hframe x fun hmem => ?_
  have := h.header_apart hl hmem
  omega

/-- A copy leaves the blocks that it does not go into. -/
theorem kept_of_copy {dst src n : Nat} (hl : l ∈ s.part.live)
    (hapart : dst + n ≤ l.ptr ∨ l.ptr + l.nBytes ≤ dst) : Kept s (s.copy dst src n) l :=
  ⟨hl, fun i hi => if_neg (by omega)⟩

end Kept

/-! ## One call -/

/-- What `memPartRealloc` of the block `l` should do: the heap is in order, no other block is
touched, and either the result is a block of the new size with the bytes of the old one, or the
old block is still there. -/
def ReallocOk (s : Memory) (l : Live) (nBytes : Nat) (r : Memory × Returned) : Prop :=
  (∃ tiles, Intact r.1.part tiles) ∧ r.1.part.pools = s.part.pools ∧
  (∀ l' ∈ s.part.live, l'.ptr ≠ l.ptr → Kept s r.1 l') ∧
  match r.2 with
  | .unset => False
  | .null => Kept s r.1 l
  | .block pBlock => ∃ l' ∈ r.1.part.live, l'.ptr = pBlock ∧ nBytes ≤ l'.nBytes ∧
      ∀ i < min l.nBytes nBytes, r.1.bytes (pBlock + i) = s.bytes (l.ptr + i)

/-- The block is copied: it has to be larger, cannot be extended, and the search for a new block
does not wrap, or finds nothing. -/
def Copies (m : Partition) (ptr nBytes : Nat) : Prop :=
  nBytes ≠ 0 ∧ (m.header (blockToHeader ptr)).nWords < reallocWords m nBytes ∧
    cannotExtend m (blockToHeader ptr) (reallocWords m nBytes) = true ∧
    (Fits nBytes ALLOC_ALIGN_SIZE ∨ m.freeList = [])

instance (m : Partition) (ptr nBytes : Nat) : Decidable (Copies m ptr nBytes) :=
  inferInstanceAs (Decidable (_ ∧ _ ∧ _ ∧ _))

/-- The size that is looked for is the rounded one when the block has room for it, or the block
takes more than half of the memory. -/
theorem words_le {m : Partition} {nBytes W W' : Nat} (hmin : m.minBlockWords = 8)
    (hW : W < reallocWords m nBytes) (hroom : nBytes + 8 ≤ 2 * W') (heven : W' % 2 = 0)
    (hlarge : 8 ≤ W') (hapart : 2 * W + 2 * W' + 8 ≤ 4294967296) : W ≤ W' := by
  have hround : roundUp (u32 (nBytes + 8)) 4 = nBytes + 8 + 3 - (nBytes + 8 + 3) % 4 := by
    rw [roundUp_four]
    unfold u32
    omega
  rw [reallocWords, hmin, requestWords, headerSize, ALLOC_ALIGN_SIZE, hround, shiftInt] at hW
  split at hW <;> split at hW <;> omega

/-- A failed allocation changes nothing. -/
theorem kept_of_same (s : Memory) {l : Live} (hl : l ∈ s.part.live) (links : Nat → UInt8)
    {tiles : Finset Nat} (h : Holds s.part tiles) : Kept s (s.after s.part links) l :=
  kept_after h h hl hl links fun _ _ _ => rfl

section Call

variable {s : Memory} {tiles : Finset Nat} {l : Live} {nBytes : Nat} {links links' : Nat → UInt8}

/-- A new block, a copy of the old one, and the old one is freed. -/
theorem reallocOk_of_copy (h : Holds s.part tiles) (hl : l ∈ s.part.live)
    (hn : nBytes < 4294967296) (hfits : Fits nBytes ALLOC_ALIGN_SIZE)
    (hgrows : (s.part.header (blockToHeader l.ptr)).nWords < reallocWords s.part nBytes)
    {m1 : Partition} {q : Nat} (halloc : memPartAlloc s.part nBytes = (m1, .ok q))
    {s2 : Memory} (hs2 : s2 = (s.after m1 links).copy q l.ptr
      (sub32 (u32 (2 * (m1.header (blockToHeader l.ptr)).nWords)) headerSize)) :
    Sane (freed m1 l.ptr) ∧
      ReallocOk s l nBytes (s2.after (freed m1 l.ptr) links', .block q) := by
  rcases memPartAlloc_cases h hn hfits with ⟨e, herr⟩ | hcase
  · rw [halloc] at herr
    exact nomatch congrArg Prod.snd herr
  obtain ⟨m1', b, tiles1, heq, h1, hlive1, hpools1, hb, hroom, hsame⟩ := hcase
  rw [halloc] at heq
  obtain ⟨rfl, hq⟩ := Prod.mk.inj heq
  obtain rfl := Except.ok.inj hq
  obtain ⟨new, hnew⟩ : ∃ new : Live, new = ⟨b + 8, nBytes, ALLOC_ALIGN_SIZE⟩ := ⟨_, rfl⟩
  rw [← hnew] at hlive1
  have hnew1 : new ∈ m1.live := hlive1 ▸ List.mem_cons_self
  have hkeep (l' : Live) (hl' : l' ∈ s.part.live) : l' ∈ m1.live :=
    hlive1 ▸ List.mem_cons_of_mem _ hl'
  have hnodup := h1.ptrs
  rw [hlive1, List.map_cons, List.nodup_cons] at hnodup
  have hfresh (l' : Live) (hl' : l' ∈ s.part.live) : l'.ptr ≠ new.ptr :=
    fun heq => hnodup.1 (heq ▸ List.mem_map_of_mem hl')
  -- the old block
  obtain ⟨a, ha, hptr, _, hend⟩ := h.live l hl
  have hnextLt : (s.part.heap tiles).next a + 8 ≤ 4294967296 :=
    h.ok.next_lt (Heap.mem_allocated.1 ha).1
  have hnext : (s.part.heap tiles).next a = a + 2 * (s.part.header a).nWords := rfl
  have hhead : blockToHeader l.ptr = a := hptr ▸ blockToHeader_add (by omega)
  rw [hhead] at hgrows hs2
  rw [hsame a ha] at hs2
  have hcopied : sub32 (u32 (2 * (s.part.header a).nWords)) headerSize =
      2 * (s.part.header a).nWords - 8 := by
    unfold sub32 u32 headerSize
    omega
  rw [hcopied] at hs2
  -- the new one
  have hbmem := (Heap.mem_allocated.1 hb).1
  have hbLt : (m1.heap tiles1).next b + 8 ≤ 4294967296 := h1.ok.next_lt hbmem
  have hbnext : (m1.heap tiles1).next b = b + 2 * (m1.header b).nWords := rfl
  have hnewPtr : new.ptr = b + 8 := congrArg Live.ptr hnew
  have hapart (l' : Live) (hl' : l' ∈ s.part.live) :=
    h1.live_apart (hkeep l' hl') (hfresh l' hl').symm hbmem.1 hnewPtr
  have hle : (s.part.header a).nWords ≤ (m1.header b).nWords := by
    refine words_le h.minBlock hgrows hroom (h1.ok.even b hbmem.1).2 (h1.ok.block b hbmem) ?_
    obtain ⟨a1, ha1, hptr1, _, _⟩ := h1.live l (hkeep l hl)
    obtain rfl : a = a1 := by omega
    have hne : a ≠ b := fun heq => hfresh l hl (by omega)
    have ha1mem := (Heap.mem_allocated.1 ha1).1.1
    have hanext : (m1.heap tiles1).next a = a + 2 * (m1.header a).nWords := rfl
    rw [hsame a ha] at hanext
    rcases Nat.lt_or_ge a b with hlt | hge
    · have := h1.ok.tiling.apart a ha1mem b hbmem.1 hlt
      rw [Heap.next] at hanext hbnext
      rw [Heap.next] at hbLt
      omega
    · have := h1.ok.tiling.apart b hbmem.1 a ha1mem (by omega)
      rw [Heap.next] at hbnext
      omega
  -- what each of the calls leaves
  obtain ⟨m2, tiles2, hfree, h2, hpools2, hlive2, hframe⟩ := memPartFree_eq h1 (hkeep l hl)
  have hfreed : freed m1 l.ptr = m2 := by rw [freed, hfree]
  rw [hfreed]
  have hpart2 : s2.part = m1 := by rw [hs2]; rfl
  have hkeptAlloc (l' : Live) (hl' : l' ∈ s.part.live) : Kept s (s.after m1 links) l' :=
    kept_of_alloc h h1 hl' (hkeep l' hl') hfits (congrArg Prod.fst halloc) links
  have hkeptFree (l' : Live) (hl' : l' ∈ m1.live) (hne : l'.ptr ≠ l.ptr) :
      Kept s2 (s2.after m2 links') l' := by
    have hl2 : l' ∈ m2.live := by
      rw [hlive2, List.mem_filter, decide_eq_true_iff]
      exact ⟨hl', hne⟩
    rw [← hpart2] at h1 hl' hframe
    exact kept_of_free h1 h2 hl' hl2 hframe links'
  refine ⟨⟨tiles2, h2⟩, ⟨tiles2, h2.intact⟩, hpools2.trans hpools1, fun l' hl' hne => ?_, ?_⟩
  · have hcopy : Kept (s.after m1 links) s2 l' := by
      rw [hs2]
      refine kept_of_copy (hkeep l' hl') ?_
      have := hapart l' hl'
      omega
    exact ((hkeptAlloc l' hl').trans hcopy).trans (hkeptFree l' (hkeep l' hl') hne)
  · have hkept := hkeptFree new hnew1 (hfresh l hl).symm
    have hsize : new.nBytes = nBytes := congrArg Live.nBytes hnew
    refine ⟨new, hkept.1, hnewPtr, hsize.ge, fun i hi => ?_⟩
    have hlast := hkept.2 i (by omega)
    rw [hnewPtr] at hlast
    refine hlast.trans ?_
    rw [hs2]
    show (if b + 8 ≤ b + 8 + i ∧ b + 8 + i < _ then _ else _) = _
    rw [if_pos (by omega), Nat.add_sub_cancel_left]
    exact (hkeptAlloc l hl).2 i (by omega)

end Call

/-! ## A request that wraps -/

/-- The split has made a block. -/
def Splits (r : Partition × Option Nat) : Prop := r.2.isSome = true

theorem splits_of_wrap {m : Partition} {p nWords : Nat} (hmin : m.minBlockWords = 8)
    (hp : p % 4 = 0) (hW : (m.header p).nWords % 2 = 0) (hlarge : 8 ≤ (m.header p).nWords)
    (hlt : p + 2 * (m.header p).nWords + 8 ≤ 4294967296) (hwords : nWords = 4294967294) :
    Splits (memAlignedBlockSplit m p nWords m.minBlockWords ALLOC_ALIGN_SIZE) := by
  obtain ⟨E, hE⟩ : ∃ E, E = p + 2 * (m.header p).nWords := ⟨_, rfl⟩
  have hEnd : u32 (p + (m.header p).nWords * 2) = E := by
    unfold u32
    omega
  have hX : sub32 E (u32 (sub32 nWords (headerSize / 2) * 2)) = u32 (E + 12) := by
    unfold sub32 u32 headerSize
    omega
  have hdown : roundDown (u32 (E + 12)) ALLOC_ALIGN_SIZE = u32 (E + 12) := by
    have hword : u32 (E + 12) < 4294967296 := Nat.mod_lt _ (by omega)
    have hfour : u32 (E + 12) % 4 = 0 := by
      unfold u32
      omega
    rw [ALLOC_ALIGN_SIZE, roundDown_four hword, hfour, Nat.sub_zero]
  have hhead : blockToHeader (u32 (E + 12)) = E + 4 := by
    unfold blockToHeader sub32 u32 headerSize
    omega
  have hsub : sub32 (E + 4) p = E + 4 - p := sub32_of_le (by omega) (by omega)
  unfold memAlignedBlockSplit
  simp only [hEnd, hX, hdown, hhead, hsub, hmin,
    halfInt_lt_eight (x := E + 4 - p) (by omega) (by omega)]
  split
  · rename_i hsmall
    exact absurd hsmall.1 (by omega)
  · split
    · exact rfl
    · exact rfl

/-- The largest requests have a size that wraps when it is padded. -/
theorem requestWords_of_wrap {nBytes : Nat} (hn : nBytes < 4294967296)
    (hwrap : ¬Fits nBytes ALLOC_ALIGN_SIZE) :
    ¬u32 (requestWords nBytes * 2) < nBytes ∧ requestWords nBytes = 4294967294 ∧
      4294967280 < nBytes := by
  rw [Fits, not_or] at hwrap
  obtain ⟨hover, hpad⟩ := hwrap
  refine ⟨hover, ?_⟩
  obtain ⟨R, hR⟩ : ∃ R, R = roundUp (u32 (nBytes + 8)) 4 := ⟨_, rfl⟩
  have hround : R = u32 (u32 (nBytes + 8) + 3) - u32 (u32 (nBytes + 8) + 3) % 4 :=
    hR.trans roundUp_four
  have hshift : requestWords nBytes = shiftInt R := by
    rw [requestWords, headerSize, ALLOC_ALIGN_SIZE, hR]
  rw [hshift] at hpad ⊢
  unfold u32 at hround
  unfold ALLOC_ALIGN_SIZE at hpad
  rw [shiftInt] at hpad ⊢
  split at hpad <;> split <;> omega

theorem allocLoop_cons_of_splits {m : Partition} {nWords nWordsPad alignment p : Nat}
    {nodes : List Nat} (hfit : blockFits m nWords nWordsPad alignment p = true)
    (hsplit : Splits (memAlignedBlockSplit m p nWords m.minBlockWords alignment)) :
    Splits (allocLoop m nWords nWordsPad alignment (p :: nodes)) := by
  rw [allocLoop, if_pos hfit]
  dsimp only
  rw [Splits] at hsplit
  rw [if_pos hsplit]
  exact hsplit

/-- The padded size of such a request is zero, and the first block is split for it. -/
theorem memPartAlloc_of_wrap {m : Partition} {tiles : Finset Nat} (h : Holds m tiles) {nBytes : Nat}
    (hn : nBytes < 4294967296) (hwrap : ¬Fits nBytes ALLOC_ALIGN_SIZE) (hlist : m.freeList ≠ []) :
    ∃ m1 q, memPartAlloc m nBytes = (m1, .ok q) := by
  obtain ⟨hover, hwords, _⟩ := requestWords_of_wrap hn hwrap
  have hzero : u32 (requestWords nBytes + ALLOC_ALIGN_SIZE / 2) = 0 := by
    unfold u32 ALLOC_ALIGN_SIZE
    omega
  have hmin : ¬requestWords nBytes < m.minBlockWords := by
    have := h.minBlock
    omega
  have hloop : Splits (allocLoop m (requestWords nBytes) 0 ALLOC_ALIGN_SIZE m.freeList) := by
    cases hnodes : m.freeList with
    | nil => exact absurd hnodes hlist
    | cons p nodes =>
      have hp : p ∈ m.freeList := hnodes ▸ List.mem_cons_self
      obtain ⟨hmem, hf⟩ := (h.ok.listed p).1 hp
      have hblock := h.ok.block_of_free hmem hf
      have hlt : p + 2 * (m.header p).nWords + 8 ≤ 4294967296 := h.ok.next_lt hblock
      have hsize : 8 ≤ (m.header p).nWords := h.ok.block p hblock
      refine allocLoop_cons_of_splits ?_ (splits_of_wrap h.minBlock (h.ok.even p hmem).1
        (h.ok.even p hmem).2 hsize hlt hwords)
      rw [blockFits, Bool.or_eq_true, decide_eq_true_iff]
      exact Or.inl (by omega)
  generalize hw : requestWords nBytes = w at *
  unfold memPartAlloc memPartAlignedAlloc
  rw [hw]
  simp only [hover, if_false, hmin, hzero]
  generalize allocLoop m w 0 ALLOC_ALIGN_SIZE m.freeList = r at hloop
  obtain ⟨m1, _ | b⟩ := r
  · exact absurd hloop Bool.false_ne_true
  · exact ⟨_, _, rfl⟩

/-- No block of a pool has so many bytes. -/
theorem Intact.live_small {m : Partition} {tiles : Finset Nat} (h : Intact m tiles)
    (hword : ∀ p ∈ m.pools, p.2 ≤ 4294967296) {l : Live} (hl : l ∈ m.live) :
    l.nBytes ≤ 4294967280 := by
  obtain ⟨a, ha, hptr, _, hend⟩ := h.live l hl
  obtain ⟨hblock, _⟩ := Heap.mem_allocated.1 ha
  obtain ⟨p, hp, hle, hstop⟩ := h.inside a hblock.1
  have hp2 := hword p hp
  rw [headerSize] at hptr
  obtain ⟨hfirst, hhead⟩ := h.first p hp
  have hsize : (m.header p.1).nWords = 4 := congrArg BlockHeader.nWords hhead
  by_contra hlarge
  obtain ⟨c, _, huniq⟩ := h.tile p hp a hle (by omega)
  have hself : a = c := huniq a ⟨hblock.1, le_rfl, by omega⟩
  have hother : p.1 = c := huniq p.1 ⟨hfirst, hle, by omega⟩
  exact hblock.2.1 ⟨p, hp, hself.trans hother.symm⟩

/-! ## When a call does what it should -/

section Call

variable {s : Memory} {tiles : Finset Nat} {l : Live} {nBytes : Nat}

/-- A block that is gone is not the old one. -/
theorem not_reallocOk_of_freed (nBytes : Nat) (h : Holds s.part tiles) (hl : l ∈ s.part.live)
    (links : Nat → UInt8) :
    Sane (freed s.part l.ptr) ∧
      ¬ReallocOk s l nBytes (s.after (freed s.part l.ptr) links, .null) := by
  obtain ⟨m', tiles', hfree, h', _, hlive, _⟩ := memPartFree_eq h hl
  have hfreed : freed s.part l.ptr = m' := by rw [freed, hfree]
  rw [hfreed]
  refine ⟨⟨tiles', h'⟩, fun hok => ?_⟩
  have hmem : l ∈ m'.live := hok.2.2.2.1
  rw [hlive, List.mem_filter, decide_eq_true_iff] at hmem
  exact hmem.2 rfl

/-- What a call does when it copies the block, and when it does not. -/
theorem memPartRealloc_spec (h : Holds s.part tiles) (hl : l ∈ s.part.live)
    (hn : nBytes < 4294967296) (links links' : Nat → UInt8) :
    Copies s.part l.ptr nBytes ∧ Sane (memPartRealloc s l.ptr nBytes links links').1.part ∧
        ReallocOk s l nBytes (memPartRealloc s l.ptr nBytes links links') ∨
      ¬Copies s.part l.ptr nBytes ∧
        ¬ReallocOk s l nBytes (memPartRealloc s l.ptr nBytes links links') := by
  have hfailed : Sane s.part ∧ ReallocOk s l nBytes (s.after s.part links, .null) :=
    ⟨⟨tiles, h⟩, ⟨tiles, h.intact⟩, rfl, fun l' hl' _ => kept_of_same s hl' links h,
      kept_of_same s hl links h⟩
  obtain ⟨a, ha, hptr, _⟩ := h.live l hl
  have hlt : (s.part.heap tiles).next a + 8 ≤ 4294967296 :=
    h.ok.next_lt (Heap.mem_allocated.1 ha).1
  have halt := h.ok.lt_next (Heap.mem_allocated.1 ha).1.1
  have hhead : blockToHeader l.ptr = a := hptr ▸ blockToHeader_add (by omega)
  have htotal : (s.part.header a).nWords ≤ s.part.totalWords := by
    rw [h.total]
    exact h.ok.nWords_le (Heap.mem_allocated.1 ha).1.1
  have hvalid : memPartBlockValidate s.part (blockToHeader l.ptr) false = true := by
    rw [hhead]
    exact memPartBlockValidate_of_allocated h.ok ha htotal
  have hptr0 : l.ptr ≠ 0 := by omega
  have hcheck : ¬(s.part.blockCheck = true ∧
      memPartBlockValidate s.part (blockToHeader l.ptr) false = false) := by
    rw [hvalid]
    exact fun hc => nomatch hc.2
  unfold memPartRealloc
  dsimp only
  rw [if_neg hptr0]
  by_cases hzero : nBytes = 0
  · rw [if_pos hzero]
    exact Or.inr ⟨fun hc => hc.1 hzero, (not_reallocOk_of_freed nBytes h hl links).2⟩
  rw [if_neg hzero, if_neg hcheck]
  by_cases hgrows : reallocWords s.part nBytes > (s.part.header (blockToHeader l.ptr)).nWords
  · rw [if_pos hgrows]
    by_cases hext : cannotExtend s.part (blockToHeader l.ptr) (reallocWords s.part nBytes) = true
    · rw [if_pos hext]
      by_cases hfits : Fits nBytes ALLOC_ALIGN_SIZE
      · refine Or.inl ⟨⟨hzero, hgrows, hext, .inl hfits⟩, ?_⟩
        rcases memPartAlloc_cases h hn hfits with ⟨e, herr⟩ | ⟨m1, b, _, halloc, _⟩
        · rw [herr]
          exact hfailed
        · rw [halloc]
          exact reallocOk_of_copy h hl hn hfits hgrows halloc rfl
      · by_cases hlist : s.part.freeList = []
        · refine Or.inl ⟨⟨hzero, hgrows, hext, .inr hlist⟩, ?_⟩
          obtain ⟨hover, _⟩ := requestWords_of_wrap hn hfits
          have herr : memPartAlloc s.part nBytes = (s.part, .error .ENOMEM) := by
            unfold memPartAlloc memPartAlignedAlloc
            rw [hlist]
            simp only [hover, if_false, allocLoop]
          rw [herr]
          exact hfailed
        · refine Or.inr ⟨fun hc => hc.2.2.2.elim hfits hlist, ?_⟩
          obtain ⟨m1, q, halloc⟩ := memPartAlloc_of_wrap h hn hfits hlist
          rw [halloc]
          rintro ⟨⟨tiles', hintact⟩, hpools, _, l', hl', _, hlarge, _⟩
          have hsmall := hintact.live_small (hpools ▸ h.ok.word) hl'
          have := (requestWords_of_wrap hn hfits).2.2
          omega
    · rw [if_neg hext]
      exact Or.inr ⟨fun hc => hext hc.2.2.1, fun hok => hok.2.2.2⟩
  · rw [if_neg hgrows]
    exact Or.inr ⟨fun hc => hgrows hc.2.1, fun hok => hok.2.2.2⟩

end Call

/-! ## Runs -/

inductive Act where
  /-- A call of another routine, and what the memory holds after it. -/
  | call (op : Op) (bytes : Nat → UInt8)
  | realloc (ptr nBytes : Nat) (links links' : Nat → UInt8)

/-- A step of the tasks that use the partition; the block of a `realloc` is allocated. -/
def heapStep (s : Memory) : Act → Option Memory
  | .call op bytes => (step s.part op).map fun m => ⟨m, bytes⟩
  | .realloc ptr nBytes links links' =>
    if nBytes < 4294967296 ∧ (ptr = 0 ∨ ptr ∈ s.part.live.map Live.ptr) then
      some (memPartRealloc s ptr nBytes links links').1
    else none

/-- An allocation does not wrap, and a block is freed or copied. -/
def Steady (s : Memory) : Act → Prop
  | .call op _ => Sound s.part op
  | .realloc ptr nBytes _ _ =>
    if ptr = 0 then Fits nBytes ALLOC_ALIGN_SIZE else nBytes = 0 ∨ Copies s.part ptr nBytes

theorem heapStep_sane {s s' : Memory} {act : Act} (h : Sane s.part) (hsteady : Steady s act)
    (hs : heapStep s act = some s') : Sane s'.part := by
  cases act with
  | call op bytes =>
    obtain ⟨m, hm, rfl⟩ := Option.map_eq_some_iff.1 hs
    exact sane_step h hsteady hm
  | realloc ptr nBytes links links' =>
    obtain ⟨⟨hn, hptr⟩, rfl⟩ := guard_some.1 hs
    obtain ⟨tiles, h⟩ := h
    by_cases hnull : ptr = 0
    · rw [Steady, if_pos hnull] at hsteady
      unfold memPartRealloc
      dsimp only
      rw [if_pos hnull]
      rcases memPartAlloc_cases h hn hsteady with ⟨e, herr⟩ | ⟨m1, b, tiles', halloc, h', _⟩
      · rw [herr]
        exact ⟨tiles, h⟩
      · rw [halloc]
        exact ⟨tiles', h'⟩
    · rw [Steady, if_neg hnull] at hsteady
      obtain ⟨l, hl, rfl⟩ := List.mem_map.1 (hptr.resolve_left hnull)
      by_cases hzero : nBytes = 0
      · unfold memPartRealloc
        dsimp only
        rw [if_neg hnull, if_pos hzero]
        exact (not_reallocOk_of_freed nBytes h hl links).1
      · rcases memPartRealloc_spec h hl hn links links' with ⟨_, hsane, _⟩ | ⟨hnot, _⟩
        · exact hsane
        · exact absurd (hsteady.resolve_left hzero) hnot

instance (s : Memory) : ∀ act, Decidable (Steady s act)
  | .call op _ => inferInstanceAs (Decidable (Sound s.part op))
  | .realloc ptr nBytes _ _ => inferInstanceAs (Decidable
      (if ptr = 0 then Fits nBytes ALLOC_ALIGN_SIZE else nBytes = 0 ∨ Copies s.part ptr nBytes))

/-- In every state of every run of such steps, a call does what it should when, and only when, it
copies the block. -/
theorem heap_realloc {memory : Nat → BlockHeader} {blockCheck : Bool} {bytes : Nat → UInt8}
    {acts : List Act} {s : Memory}
    (hsteady : AllSteps heapStep Steady ⟨memPartInit memory blockCheck, bytes⟩ acts)
    (hrun : exec heapStep ⟨memPartInit memory blockCheck, bytes⟩ acts = some s) :
    ∀ l ∈ s.part.live, ∀ nBytes < 4294967296, ∀ links links',
      ReallocOk s l nBytes (memPartRealloc s l.ptr nBytes links links') ↔
        Copies s.part l.ptr nBytes := by
  intro l hl nBytes hn links links'
  have hinit : Sane (memPartInit memory blockCheck) := ⟨∅, holds_init memory blockCheck⟩
  obtain ⟨tiles, h⟩ := exec_invariant_of (I := fun s : Memory => Sane s.part)
    (fun _ _ _ h hsteady hstep => heapStep_sane h hsteady hstep) hinit hsteady hrun
  rcases memPartRealloc_spec h hl hn links links' with ⟨hcopies, _, hok⟩ | ⟨hnot, hwrong⟩
  · exact iff_of_true hok hcopies
  · exact iff_of_false hwrong hnot

/-- A block that has been copied is copied again. -/
theorem heap_realloc_copied : ∃ s : Memory,
    exec heapStep ⟨memPartInit (fun _ => ⟨0, 0, false⟩) true, fun _ => 0⟩
      [.call (.addToPool 4096 1024) (fun _ => 0), .call (.alloc 100) (fun _ => 1),
        .realloc 5012 200 (fun _ => 2) (fun _ => 3)] = some s ∧
      ReallocOk s ⟨4804, 200, 4⟩ 400 (memPartRealloc s 4804 400 (fun _ => 4) (fun _ => 5)) := by
  have hrun : (exec heapStep ⟨memPartInit (fun _ => ⟨0, 0, false⟩) true, fun _ => 0⟩
      [.call (.addToPool 4096 1024) (fun _ => 0), .call (.alloc 100) (fun _ => 1),
        .realloc 5012 200 (fun _ => 2) (fun _ => 3)]).any (fun s =>
          decide (⟨4804, 200, 4⟩ ∈ s.part.live ∧ Copies s.part 4804 400)) = true := by
    decide +kernel
  obtain ⟨s, hs, hcond⟩ := (Option.any_eq_true _ _).1 hrun
  obtain ⟨hl, hcopies⟩ := of_decide_eq_true hcond
  exact ⟨s, hs, (heap_realloc (by decide +kernel) hs _ hl 400 (by omega) _ _).2 hcopies⟩

/-- A block that becomes smaller: no value is returned. -/
theorem heap_realloc_shrunk : ∃ s : Memory,
    exec heapStep ⟨memPartInit (fun _ => ⟨0, 0, false⟩) true, fun _ => 0⟩
      [.call (.addToPool 4096 1024) (fun _ => 0), .call (.alloc 100) (fun _ => 1)] = some s ∧
      ⟨5012, 100, 4⟩ ∈ s.part.live ∧
      ¬ReallocOk s ⟨5012, 100, 4⟩ 50 (memPartRealloc s 5012 50 (fun _ => 2) (fun _ => 3)) := by
  have hrun : (exec heapStep ⟨memPartInit (fun _ => ⟨0, 0, false⟩) true, fun _ => 0⟩
      [.call (.addToPool 4096 1024) (fun _ => 0), .call (.alloc 100) (fun _ => 1)]).any (fun s =>
          decide (⟨5012, 100, 4⟩ ∈ s.part.live ∧
            (memPartRealloc s 5012 50 (fun _ => 2) (fun _ => 3)).2 = .unset)) = true := by
    decide +kernel
  obtain ⟨s, hs, hcond⟩ := (Option.any_eq_true _ _).1 hrun
  obtain ⟨hl, hunset⟩ := of_decide_eq_true hcond
  refine ⟨s, hs, hl, ?_⟩
  rintro ⟨-, -, -, hok⟩
  rw [hunset] at hok
  exact hok

end Vmx.MemPart
