import Vmx.Os.MemHeap

/-!
# The blocks of a partition stay in order

`Intact` is what the allocator keeps: the blocks of a pool tile it, the links name the
block before, no two neighbours are free, the free list has the free blocks, and an
outstanding allocation has a block to itself.

The rounded size of a request goes through `int` on its way to a number of words.  When
that number and the padding for the alignment do not fit in a word, any block is large
enough for the request, and a piece is taken from below the block
(`heap_intact_wrapped`).  No other call breaks the heap (`heap_intact`).
-/

namespace Vmx.MemPart

open Lib Util

/-! ## Words -/

theorem sub32_of_le {x y : Nat} (hx : x < 4294967296) (h : y ≤ x) : sub32 x y = x - y := by
  unfold sub32 u32
  omega

theorem roundDown_two_pow {x k : Nat} (hx : x < 4294967296) (hk : k ≤ 32) :
    roundDown x (2 ^ k) = x - x % 2 ^ k := by
  have hmask : 4294967296 - 2 ^ k = (2 ^ (32 - k) - 1) <<< k := by
    rw [Nat.shiftLeft_eq, Nat.sub_mul, ← Nat.pow_add, Nat.sub_add_cancel hk, Nat.one_mul]
  have hclear : x - x % 2 ^ k = (x >>> k) <<< k := by
    rw [Nat.shiftLeft_eq, Nat.shiftRight_eq_div_pow]
    have := Nat.div_add_mod x (2 ^ k)
    rw [Nat.mul_comm] at this
    omega
  rw [roundDown, hmask, hclear]
  apply Nat.eq_of_testBit_eq
  intro i
  simp only [Nat.testBit_and, Nat.testBit_shiftLeft, Nat.testBit_shiftRight]
  by_cases hi : i < k
  · have hnot : ¬ k ≤ i := by omega
    simp [hnot]
  · have hsum : k + (i - k) = i := by omega
    simp only [ge_iff_le, Nat.le_of_not_lt hi, decide_true, Bool.true_and, hsum]
    by_cases hi32 : i < 32
    · have hlt : i - k < 32 - k := by omega
      simp [Nat.testBit_two_pow_sub_one, hlt]
    · have hlow : x.testBit i = false :=
        Nat.testBit_lt_two_pow (Nat.lt_of_lt_of_le hx
          (Nat.pow_le_pow_right (n := 2) (i := 32) (by decide) (Nat.le_of_not_lt hi32)))
      simp [hlow]

theorem roundDown_four {x : Nat} (hx : x < 4294967296) : roundDown x 4 = x - x % 4 :=
  roundDown_two_pow (k := 2) hx (by omega)

theorem roundUp_four {x : Nat} : roundUp x 4 = u32 (x + 3) - u32 (x + 3) % 4 := by
  have hlt : u32 (x + 3) < 4294967296 := Nat.mod_lt _ (by omega)
  exact roundDown_four hlt

theorem aligned_two_pow {x k : Nat} : aligned x (2 ^ k) = true ↔ x % 2 ^ k = 0 := by
  rw [aligned, Nat.and_two_pow_sub_one_eq_mod, beq_iff_eq]

theorem headerToBlock_of_lt {p : Nat} (h : p + 8 < 4294967296) : headerToBlock p = p + 8 :=
  Nat.mod_eq_of_lt h

theorem blockToHeader_add {p : Nat} (h : p + 8 < 4294967296) : blockToHeader (p + 8) = p := by
  unfold blockToHeader sub32 u32 headerSize
  omega

/-- Half an even difference, in the field of a header. -/
theorem u31_halfInt {x : Nat} (hx : x < 4294967296) (heven : x % 2 = 0) :
    u31 (halfInt x) = x / 2 := by
  unfold u31 halfInt
  split <;> omega

theorem halfInt_lt_eight {x : Nat} (hx : x < 4294967296) (heven : x % 2 = 0) :
    halfInt x < 8 ↔ x < 16 := by
  unfold halfInt
  split <;> omega

/-- The heap of a partition. -/
def Partition.heap (m : Partition) (tiles : Finset Nat) : Heap := ⟨m.header, m.freeList, tiles⟩

/-! ## The split -/

/-- A heap in which a free block of the size and at the place that were asked for waits to
be taken; the allocated blocks are those of `c`. -/
structure Carved (c : Heap) (pools : List (Nat × Nat)) (c' : Heap)
    (b nWords alignment : Nat) : Prop where
  ok : c'.Ok pools
  same : Heap.Same c c' pools pools
  mem : b ∈ c'.tiles
  free : (c'.header b).free = true
  touching : ∀ x, c'.Touching pools x → x = b ∨ c'.next x = b
  aligned : (b + 8) % alignment = 0
  large : nWords ≤ (c'.header b).nWords

section Split

variable {m : Partition} {tiles : Finset Nat} {pools : List (Nat × Nat)} {p nWords k : Nat}

/-- The new block, from the end of the block it is split from. -/
def splitAt (pEndOfBlock nWords alignment : Nat) : Nat :=
  pEndOfBlock + 8 - 2 * nWords - (pEndOfBlock + 8 - 2 * nWords) % alignment - 8

/-- The first block of a split, all of it free. -/
theorem carved_cut {c : Heap} {b : Nat} (h : c.Ok pools) (hcalm : c.Calm pools) (hp : p ∈ c.tiles)
    (hf : (c.header p).free = true) (hb : p + 16 ≤ b) (heven : b % 4 = 0)
    (hend : b + 16 ≤ c.next p) (hfit : b + 2 * nWords ≤ c.next p) {alignment : Nat}
    (hal : (b + 8) % alignment = 0) :
    Carved c pools (c.cut p ((b - p) / 2)) b nWords alignment ∧
      ¬ (c.cut p ((b - p) / 2)).Touching pools b := by
  have hblock := h.block_of_free hp hf
  have hp4 := (h.even p hp).1
  have hsize : c.next p = p + 2 * (c.header p).nWords := rfl
  have hpb : p + 2 * ((b - p) / 2) = b := by omega
  have hnew : (c.cut p ((b - p) / 2)).header b =
      { pPrevHeader := p, nWords := (c.header p).nWords - (b - p) / 2, free := true } := by
    have := Heap.Ok.cut_header_new (c := c) (a := p) (k := (b - p) / 2) (by omega) (by omega)
    rwa [hpb] at this
  have hnotfree : (c.header (c.next p)).free = false := by
    cases hfn : (c.header (c.next p)).free with
    | false => rfl
    | true => exact absurd ⟨hp, hblock.2.2, hf, hfn⟩ (hcalm p)
  have htouch : ∀ x, (c.cut p ((b - p) / 2)).Touching pools x → x = p := by
    intro x hx
    rcases h.touching_cut hblock (by omega) (by omega) hx with hxp | ⟨_, hfn⟩ | ⟨_, hx⟩
    · exact hxp
    · rw [hnotfree] at hfn
      cases hfn
    · exact absurd hx (hcalm x)
  constructor
  · refine
      { ok := h.cut hblock (by omega) (by omega) (by omega)
        same := .cut h hblock hf (by omega) (by omega)
        mem := Finset.mem_insert.2 (.inl hpb.symm)
        free := by rw [hnew]
        touching := fun x hx => ?_
        aligned := hal
        large := by
          rw [hnew]
          dsimp only
          omega }
    right
    rw [htouch x hx, Heap.next, Heap.size, h.cut_header_self hblock,
      BlockHeader.withWords_nWords, hpb]
  · intro hx
    have := htouch b hx
    omega

/-- What is left behind the new block becomes a block too. -/
theorem Carved.cut {c c' : Heap} {b alignment : Nat} (h : Carved c pools c' b nWords alignment)
    (hnot : ¬ c'.Touching pools b) (hmin : 8 ≤ nWords) (heven : nWords % 2 = 0)
    (hrest : nWords + 8 ≤ (c'.header b).nWords) :
    Carved c pools (c'.cut b nWords) b nWords alignment := by
  have hblock := h.ok.block_of_free h.mem h.free
  have hself := h.ok.cut_header_self hblock (k := nWords)
  have hnew := Heap.Ok.cut_header_new (c := c') (a := b) (k := nWords) (by omega) (by omega)
  refine
    { ok := h.ok.cut hblock hmin heven hrest
      same := h.same.trans (.cut h.ok hblock h.free (by omega) (by omega))
      mem := Finset.mem_insert_of_mem h.mem
      free := by rw [hself, BlockHeader.withWords_free, h.free]
      touching := fun x hx => ?_
      aligned := h.aligned
      large := by rw [hself, BlockHeader.withWords_nWords] }
  rcases h.ok.touching_cut hblock (by omega) (by omega) hx with rfl | ⟨_, hfn⟩ | ⟨hxb, hx⟩
  · exact .inl rfl
  · exact absurd ⟨hblock.1, hblock.2.2, h.free, hfn⟩ hnot
  · have hwords := (h.ok.cut_header_tile hblock (k := nWords) (by omega) (by omega) hx.1 hxb).1
    rcases h.touching x hx with heq | heq
    · exact absurd heq hxb
    · right
      rw [Heap.next, Heap.size, hwords]
      exact heq

theorem splitAt_spec {E W : Nat} (hE : E = p + 2 * W) (hp4 : p % 4 = 0) (hW : W % 2 = 0)
    (heven : nWords % 2 = 0) (hk : 2 ≤ k)
    (hfit : nWords + 2 ^ k / 2 < W ∨ W = nWords ∧ (p + 8) % 2 ^ k = 0) :
    E + 8 - 2 * nWords - (E + 8 - 2 * nWords) % 2 ^ k = splitAt E nWords (2 ^ k) + 8 ∧
      (splitAt E nWords (2 ^ k) + 8) % 2 ^ k = 0 ∧ splitAt E nWords (2 ^ k) % 4 = 0 ∧
      splitAt E nWords (2 ^ k) + 2 * nWords ≤ E ∧
      (splitAt E nWords (2 ^ k) = p ∧ W = nWords ∨ p < splitAt E nWords (2 ^ k)) := by
  have hdvd : 4 ∣ 2 ^ k := Nat.pow_dvd_pow 2 hk
  set X := E + 8 - 2 * nWords with hX
  have hmod4 : X % 2 ^ k % 4 = X % 4 := Nat.mod_mod_of_dvd X hdvd
  have hmod : X % 2 ^ k < 2 ^ k := Nat.mod_lt _ (Nat.two_pow_pos k)
  have hle : X % 2 ^ k ≤ X := Nat.mod_le _ _
  have hzero : (X - X % 2 ^ k) % 2 ^ k = 0 := Nat.mod_eq_zero_of_dvd (Nat.dvd_sub_mod X)
  have hsplit : splitAt E nWords (2 ^ k) = X - X % 2 ^ k - 8 := rfl
  have hlarge : p + 8 ≤ X - X % 2 ^ k ∧
      (X - X % 2 ^ k = p + 8 ∧ W = nWords ∨ p + 8 < X - X % 2 ^ k) := by
    rcases hfit with hfit | ⟨hfit, hal⟩
    · omega
    · have hXp : X = p + 8 := by omega
      have hXm : X % 2 ^ k = 0 := by rwa [hXp]
      omega
  have hback : X - X % 2 ^ k = splitAt E nWords (2 ^ k) + 8 := by omega
  refine ⟨hback, hback ▸ hzero, by omega, by omega, by omega⟩

/-- The words that a split of the block from `p` to `E` at `b` computes do not overflow. -/
structure SplitWords (p E b nWords : Nat) : Prop where
  start : sub32 E (u32 (sub32 nWords (headerSize / 2) * 2)) = E + 8 - 2 * nWords
  size : sub32 b p = b - p
  words : u32 (sub32 E (b + 8) + headerSize) / 2 = (E - b) / 2
  next : u32 (b + 2 * ((E - b) / 2)) = E
  left : sub32 (sub32 E b) (u32 (nWords * 2)) = E - b - 2 * nWords
  thin : u31 nWords = nWords
  gap : u32 (b + 2 * nWords) = b + 2 * nWords
  rest : sub32 E (b + 2 * nWords) / 2 = (E - b) / 2 - nWords
  stop : u32 (b + 2 * nWords + 2 * ((E - b) / 2 - nWords)) = E

theorem splitWords {E b : Nat} (hlt : E + 8 ≤ 4294967296) (hpb : p ≤ b)
    (hfit : b + 2 * nWords ≤ E) (hmin : 8 ≤ nWords) (heven : (E - b) % 2 = 0) :
    SplitWords p E b nWords := by
  constructor <;> simp only [sub32, u32, u31, headerSize] <;> omega

/-- A call has failed and changed nothing, or it has carved a block. -/
def Split (m : Partition) (tiles : Finset Nat) (pools : List (Nat × Nat)) (nWords alignment : Nat)
    (r : Partition × Option Nat) : Prop :=
  r = (m, none) ∨
    ∃ b header freeList c', r = ({ m with header := header, freeList := freeList }, some b) ∧
      Carved (m.heap tiles) pools c' b nWords alignment ∧ freeList = c'.freeList.erase b ∧
      ∀ x ∈ c'.tiles, header x = c'.header x

/-- The split of a block that is large enough. -/
theorem memAlignedBlockSplit_spec (h : (m.heap tiles).Ok pools) (hcalm : (m.heap tiles).Calm pools)
    (hp : p ∈ m.freeList) (hmin : 8 ≤ nWords) (heven : nWords % 2 = 0) (hk : 2 ≤ k) (hk' : k < 32)
    (hfit : nWords + 2 ^ k / 2 < (m.header p).nWords ∨
      (m.header p).nWords = nWords ∧ (p + 8) % 2 ^ k = 0) :
    Split m tiles pools nWords (2 ^ k) (memAlignedBlockSplit m p nWords 8 (2 ^ k)) := by
  obtain ⟨hmem, hf⟩ := (h.listed p).1 hp
  have hblock := h.block_of_free hmem hf
  have hp4 : p % 4 = 0 := (h.even p hmem).1
  have hW : (m.header p).nWords % 2 = 0 := (h.even p hmem).2
  have hlt : (m.heap tiles).next p + 8 ≤ 4294967296 := h.next_lt hblock
  have hsize : (m.heap tiles).next p = p + 2 * (m.header p).nWords := rfl
  set E := (m.heap tiles).next p with hEdef
  obtain ⟨hround, hal, hb4, hbfit, hbp⟩ :=
    splitAt_spec (k := k) hsize hp4 hW heven hk hfit
  set b := splitAt E nWords (2 ^ k) with hb
  have hEnd : u32 (p + (m.header p).nWords * 2) = E := by
    unfold u32
    omega
  have hv : SplitWords p E b nWords := splitWords hlt (by omega) hbfit hmin (by omega)
  have hdown : roundDown (E + 8 - 2 * nWords) (2 ^ k) = b + 8 := by
    rw [roundDown_two_pow (by omega) (by omega), hround]
  have hhead : blockToHeader (b + 8) = b := blockToHeader_add (by omega)
  unfold memAlignedBlockSplit
  simp only [hEnd, hv.start, hdown, hhead, hv.size, halfInt_lt_eight (x := b - p) (by omega) (by omega),
    u31_halfInt (x := b - p) (by omega) (by omega)]
  rcases hbp with ⟨hbp, hexact⟩ | hbp
  · right
    rw [hbp] at hv
    have hrest : sub32 (sub32 E p) (u32 (nWords * 2)) < 8 * 2 := by
      rw [hv.left]
      omega
    have hsmall : p - p < 16 := by omega
    have hwords : u32 (sub32 E (p + 8) + headerSize) / 2 = nWords := by
      rw [hv.words]
      omega
    have hnext : u32 (p + 2 * nWords) = E := by
      rw [hv.gap]
      omega
    simp only [hbp, hsmall, hrest, hwords, ne_eq, not_true_eq_false, and_false, if_true, if_false,
      Partition.setHeader, Partition.nextHeader, Function.update_self, hnext]
    refine ⟨p, _, _, m.heap tiles, rfl, ⟨h, .refl, hmem, hf, fun x hx => absurd hx (hcalm x),
      hbp ▸ hal, Nat.le_of_eq hexact.symm⟩, rfl, fun x _ => ?_⟩
    have hback : (m.header E).pPrevHeader = p := (h.next_mem hblock).2.1
    have hEp : E ≠ p := by omega
    by_cases hxE : x = E
    · rw [hxE, Function.update_self, Function.update_of_ne hEp, ← hback]
      rfl
    · rw [Function.update_of_ne hxE]
      by_cases hxp : x = p
      · rw [hxp, Function.update_self, ← hexact, ← hf]
        rfl
      · rw [Function.update_of_ne hxp]
        rfl
  · by_cases hsmall : b - p < 16
    · left
      have hne : b ≠ p := by omega
      simp only [hsmall, hne, ne_eq, not_false_eq_true, and_self, if_true]
    · right
      have hpb : p ≠ b := by omega
      have hEb : E ≠ b := by omega
      have hEp : E ≠ p := by omega
      have hpk : p + 2 * ((b - p) / 2) = b := by omega
      have hcarve : b + 16 ≤ E → _ := fun hend =>
        carved_cut h hcalm hmem hf (b := b) (by omega) hb4 hend hbfit hal
      have hcutb : ∀ x, ((m.heap tiles).cut p ((b - p) / 2)).header x =
          if x = E then (m.header E).withPrev b
          else if x = p then (m.header p).withWords ((b - p) / 2)
          else if x = b then { pPrevHeader := p, nWords := (E - b) / 2, free := true }
          else m.header x := by
        intro x
        have hb : ((m.heap tiles).header p).nWords - (b - p) / 2 = (E - b) / 2 := by
          show (m.header p).nWords - (b - p) / 2 = (E - b) / 2
          omega
        rw [Heap.cut_header_apply, hpk, hb]
        rfl
      have hnot : b ∉ m.freeList := by
        have hinside := h.cut_not_mem hblock (k := (b - p) / 2) (by omega)
          (show _ < (m.header p).nWords by omega)
        rw [hpk] at hinside
        exact fun hm => hinside ((h.listed b).1 hm).1
      have hlist : ((m.heap tiles).cut p ((b - p) / 2)).freeList = m.freeList ++ [b] := by
        rw [Heap.cut, hpk]
        rfl
      simp only [hsmall, hv.left, hv.words, hv.next, false_and, if_false, Partition.setHeader,
        Partition.nextHeader, Function.update_self, Function.update_of_ne hpb]
      by_cases hrest : E - b - 2 * nWords < 8 * 2
      · simp only [hrest, if_true]
        refine ⟨b, _, _, (m.heap tiles).cut p ((b - p) / 2), rfl, (hcarve (by omega)).1, ?_,
          fun x _ => ?_⟩
        · rw [hlist, List.erase_append_right _ hnot, List.erase_cons_head, List.append_nil]
        · rw [hcutb]
          simp only [Function.update_apply, hpb.symm, hEb, hEp, if_true, if_false]
          by_cases hxE : x = E
          · simp only [hxE, if_true]
            rfl
          · by_cases hxp : x = p
            · simp only [hxp, hEp.symm, hpb, if_true, if_false]
              rfl
            · simp only [hxE, hxp, if_false]
              split <;> rfl
      · have hbp' : b ≠ p := hpb.symm
        have hbw : ((m.heap tiles).cut p ((b - p) / 2)).header b =
            { pPrevHeader := p, nWords := (E - b) / 2, free := true } := by
          rw [hcutb, if_neg hEb.symm, if_neg hbp', if_pos rfl]
        have hbn : ((m.heap tiles).cut p ((b - p) / 2)).next b = E := by
          rw [Heap.next, Heap.size, hbw]
          dsimp only
          omega
        have hcarved := hcarve (by omega)
        simp only [hrest, if_false, hv.thin, hv.gap, hv.rest, hv.stop]
        refine ⟨b, _, _, ((m.heap tiles).cut p ((b - p) / 2)).cut b nWords, rfl,
          hcarved.1.cut hcarved.2 hmin heven ?_, ?_, fun x _ => ?_⟩
        · rw [hbw]
          dsimp only
          omega
        · have hlist' : (((m.heap tiles).cut p ((b - p) / 2)).cut b nWords).freeList =
              m.freeList ++ [b] ++ [b + 2 * nWords] := congrArg (· ++ [b + 2 * nWords]) hlist
          rw [hlist', List.append_assoc, List.erase_append_right _ hnot]
          simp only [List.cons_append, List.nil_append, List.erase_cons_head]
        · have hgb : b + 2 * nWords ≠ b := by omega
          have hgp : b + 2 * nWords ≠ p := by omega
          have hgE : b + 2 * nWords ≠ E := by omega
          rw [Heap.cut_header_apply, hbn, hbw, hcutb E, hcutb x]
          simp only [Function.update_apply, hbp', hEb, hEp, hgE.symm, if_true, if_false]
          by_cases hxE : x = E
          · simp only [hxE, if_true]
            rfl
          · by_cases hxg : x = b + 2 * nWords
            · simp only [hxg, hgE, hgb, hgp, if_true, if_false]
            · by_cases hxb : x = b
              · simp only [hxb, hEb.symm, hgb.symm, if_true, if_false]
                rfl
              · simp only [hxE, hxg, hxb, if_false]
                split <;> rfl

/-- The search of the free list. -/
theorem allocLoop_spec (h : (m.heap tiles).Ok pools) (hcalm : (m.heap tiles).Calm pools)
    (hminBlock : m.minBlockWords = 8) (hmin : 8 ≤ nWords) (heven : nWords % 2 = 0) (hk : 2 ≤ k)
    (hk' : k < 32) {nodes : List Nat} (hnodes : ∀ p ∈ nodes, p ∈ m.freeList) :
    Split m tiles pools nWords (2 ^ k)
      (allocLoop m nWords (nWords + 2 ^ k / 2) (2 ^ k) nodes) := by
  induction nodes with
  | nil => exact .inl rfl
  | cons p nodes ih =>
    have htail := ih fun q hq => hnodes q (List.mem_cons_of_mem _ hq)
    have hp := hnodes p List.mem_cons_self
    have hblock := h.block_of_free ((h.listed p).1 hp).1 ((h.listed p).1 hp).2
    have hlt : (m.heap tiles).next p + 8 ≤ 4294967296 := h.next_lt hblock
    have hpos := headerToBlock_of_lt (Nat.lt_of_lt_of_le (Nat.add_lt_add_right
      (h.lt_next hblock.1) 8) hlt)
    rw [allocLoop, hminBlock]
    split
    next hfit =>
      rw [blockFits, hpos, Bool.or_eq_true, Bool.and_eq_true, decide_eq_true_iff, beq_iff_eq,
        aligned_two_pow] at hfit
      have hsplit := memAlignedBlockSplit_spec h hcalm hp hmin heven hk hk' hfit
      rcases hsplit with hnone | ⟨b, header, freeList, c', hsome, hrest⟩
      · simp only [hnone, Option.isSome_none, Bool.false_eq_true, if_false]
        exact htail
      · simp only [hsome, Option.isSome_some, if_true]
        exact .inr ⟨b, header, freeList, c', rfl, hrest⟩
    next => exact htail

/-- The number of words of a request whose rounded size and padding fit in a word. -/
def Fits (nBytes alignment : Nat) : Prop :=
  u32 (requestWords nBytes * 2) < nBytes ∨ max 8 (requestWords nBytes) + alignment / 2 < 4294967296

instance (nBytes alignment : Nat) : Decidable (Fits nBytes alignment) :=
  inferInstanceAs (Decidable (_ ∨ _))

theorem requestWords_even {nBytes : Nat} : requestWords nBytes % 2 = 0 := by
  unfold requestWords shiftInt
  rw [ALLOC_ALIGN_SIZE, roundUp_four]
  split <;> omega

/-- A request that passes the test for an overflow has room for its header, if any block
is as large. -/
theorem requestWords_large {nBytes : Nat} (hn : nBytes < 4294967296)
    (hover : ¬ u32 (requestWords nBytes * 2) < nBytes) (hword : requestWords nBytes < 2147483648) :
    nBytes + 8 ≤ 2 * requestWords nBytes := by
  unfold requestWords shiftInt at *
  rw [ALLOC_ALIGN_SIZE, roundUp_four] at *
  unfold u32 headerSize at *
  split_ifs at * <;> omega

/-- An allocation has failed and changed nothing, or it has taken a block. -/
theorem memPartAlignedAlloc_spec {nBytes : Nat} (h : (m.heap tiles).Ok pools)
    (hcalm : (m.heap tiles).Calm pools) (hminBlock : m.minBlockWords = 8) (hk : 2 ≤ k)
    (hk' : k < 32) (hn : nBytes < 4294967296) (hfits : Fits nBytes (2 ^ k)) :
    (memPartAlignedAlloc m nBytes (2 ^ k)).1 = m ∨
      ∃ b header freeList c' w, (memPartAlignedAlloc m nBytes (2 ^ k)).1 =
          { m with
              header := Function.update header b ((header b).withFree false)
              freeList := freeList
              currBlocksAlloced := u32 (m.currBlocksAlloced + 1)
              cumBlocksAlloced := u32 (m.cumBlocksAlloced + 1)
              currWordsAlloced := u32 (m.currWordsAlloced + (c'.header b).nWords)
              cumWordsAlloced := u32 (m.cumWordsAlloced + (c'.header b).nWords)
              live := ⟨b + 8, nBytes, 2 ^ k⟩ :: m.live } ∧
        Carved (m.heap tiles) pools c' b w (2 ^ k) ∧ nBytes + 8 ≤ 2 * w ∧
        freeList = c'.freeList.erase b ∧ ∀ x ∈ c'.tiles, header x = c'.header x := by
  unfold memPartAlignedAlloc
  by_cases hover : u32 (requestWords nBytes * 2) < nBytes
  · left
    simp only [hover, if_true]
  · have heven : requestWords nBytes % 2 = 0 := requestWords_even
    have hpad := hfits.resolve_left hover
    have hmax : (if requestWords nBytes < m.minBlockWords then m.minBlockWords
        else requestWords nBytes) = max 8 (requestWords nBytes) := by
      rw [hminBlock]
      split <;> omega
    simp only [hover, if_false, hmax]
    obtain ⟨w, hw⟩ : ∃ w, w = max 8 (requestWords nBytes) := ⟨_, rfl⟩
    rw [← hw] at hpad ⊢
    have hsum : u32 (w + 2 ^ k / 2) = w + 2 ^ k / 2 := Nat.mod_eq_of_lt hpad
    rw [hsum]
    have hspec : Split m tiles pools w (2 ^ k)
        (allocLoop m w (w + 2 ^ k / 2) (2 ^ k) m.freeList) :=
      allocLoop_spec h hcalm hminBlock (by omega) (by omega) hk hk' fun _ hp => hp
    rcases hspec with hnone | ⟨b, header, freeList, c', hsome, hcarved, hfree, hhead⟩
    · left
      rw [hnone]
    · right
      have hblock := hcarved.ok.block_of_free hcarved.mem hcarved.free
      have hlt : c'.next b + 8 ≤ 4294967296 := hcarved.ok.next_lt hblock
      have hlt' := hcarved.ok.lt_next hcarved.mem
      have hlarge := hcarved.large
      have hsize : c'.next b = b + 2 * (c'.header b).nWords := rfl
      have hwords := requestWords_large hn hover (by omega)
      refine ⟨b, header, freeList, c', w, ?_, hcarved, by omega, hfree, hhead⟩
      rw [hsome]
      simp only [Partition.setHeader, Function.update_self, headerToBlock_of_lt (p := b) (by omega),
        hhead b hcarved.mem]
      rfl

end Split

/-! ## A new pool -/

/-- A pool that is large enough is laid out between two headers. -/
theorem memPartAddToPool_spec {m : Partition} (tiles : Finset Nat) {pPool poolSize : Nat}
    (hminBlock : m.minBlockWords = 8) (hsize : poolSize < 4294967296)
    (hword : pPool + poolSize ≤ 4294967296) :
    (∃ e, memPartAddToPool m pPool poolSize = .error e) ∨
      ∃ a n, memPartAddToPool m pPool poolSize = .ok { m with
          header := ((m.heap tiles).grow a n).header
          freeList := (a + 8) :: m.freeList
          totalWords := u32 (m.totalWords + (8 + n))
          pools := (a, a + 16 + 2 * n) :: m.pools } ∧
        pPool ≤ a ∧ a + 16 + 2 * n ≤ pPool + poolSize ∧ a % 4 = 0 ∧ n % 2 = 0 ∧ 8 ≤ n := by
  unfold memPartAddToPool
  simp only [ALLOC_ALIGN_SIZE, hminBlock, headerSize]
  obtain ⟨a, ha⟩ : ∃ a, a = roundUp pPool 4 := ⟨_, rfl⟩
  obtain ⟨s, hs⟩ : ∃ s, s = if sub32 a pPool ≤ poolSize then poolSize - sub32 a pPool else 0 :=
    ⟨_, rfl⟩
  have hslt : s < 4294967296 := by
    rw [hs]
    split <;> omega
  simp only [← ha, ← hs, roundDown_four hslt]
  by_cases hsmall : s - s % 4 < 8 * 3 + 8 * 2
  · exact .inl ⟨_, by rw [if_pos hsmall]⟩
  · right
    rw [if_neg hsmall]
    have hplace : pPool ≤ a ∧ a + (s - s % 4) ≤ pPool + poolSize ∧ a % 4 = 0 := by
      rw [roundUp_four] at ha
      unfold sub32 at hs
      unfold u32 at ha hs
      split at hs <;> omega
    obtain ⟨n, hn⟩ : ∃ n, n = (s - s % 4 - 16) / 2 := ⟨_, rfl⟩
    have hwords : u31 (sub32 (s - s % 4) (2 * 8) / 2) = n := by
      unfold u31 sub32 u32
      omega
    have h1 : u32 (a + 2 * (8 / 2)) = a + 8 := Nat.mod_eq_of_lt (by omega)
    have h2 : u32 (a + 8 + 2 * n) = a + 8 + 2 * n := Nat.mod_eq_of_lt (by omega)
    have htotal : (s - s % 4) / 2 = 8 + n := by omega
    have hend : a + (s - s % 4) = a + 16 + 2 * n := by omega
    refine ⟨a, n, ?_, hplace.1, by omega, hplace.2.2, by omega, by omega⟩
    simp only [Partition.setHeader, Partition.nextHeader, Function.update_self, h1, h2, hwords,
      htotal, hend, hminBlock]
    rfl

/-! ## The merge -/

section Merge

variable {m : Partition} {tiles : Finset Nat} {pools : List (Nat × Nat)} {a : Nat}

/-- The memory is that of the heap, but for a link that is set later. -/
structure Pending (c : Heap) (q : Nat) (m : Partition) : Prop where
  header : ∀ x ∈ c.tiles, x ≠ c.next q → m.header x = c.header x
  nWords : (m.header (c.next q)).nWords = (c.header (c.next q)).nWords
  free : (m.header (c.next q)).free = (c.header (c.next q)).free
  freeList : m.freeList = c.freeList

theorem mergeNext_spec {c : Heap} {q : Nat} (h : c.Ok pools) (hq : c.Block pools q)
    (hf : (c.header q).free = true) (ht : ∀ x, c.Touching pools x → x = q)
    (hm : Pending c q m) :
    ∃ header freeList c', mergeNext m q = { m with header := header, freeList := freeList } ∧
      c'.Ok pools ∧ c'.Calm pools ∧ Heap.Same c c' pools pools ∧ freeList = c'.freeList ∧
      ∀ x ∈ c'.tiles, header x = c'.header x := by
  have hlt : c.next q + 8 ≤ 4294967296 := h.next_lt hq
  have hqlt := h.lt_next hq.1
  have hself := hm.header q hq.1 (by omega)
  have hsize : c.next q = q + 2 * (c.header q).nWords := rfl
  have hnext : m.nextHeader q = c.next q := by
    unfold Partition.nextHeader u32
    rw [hself]
    omega
  unfold mergeNext
  simp only [hnext, hm.free]
  cases hfn : (c.header (c.next q)).free with
  | true =>
    obtain ⟨hmem, _, _⟩ := h.next_mem hq
    have hb := h.block_of_free hmem hfn
    have hlt' : c.next (c.next q) + 8 ≤ 4294967296 := h.next_lt hb
    have hblt := h.lt_next hmem
    have hbsize : c.next (c.next q) = c.next q + 2 * (c.header (c.next q)).nWords := rfl
    have hsum : u31 ((m.header q).nWords + (m.header (c.next q)).nWords) =
        (c.header q).nWords + (c.header (c.next q)).nWords := by
      rw [hself, hm.nWords]
      unfold u31
      omega
    have hnext' : u32 (q + 2 * ((c.header q).nWords + (c.header (c.next q)).nWords)) =
        c.next (c.next q) := by
      unfold u32
      omega
    have hne : c.next (c.next q) ≠ q := by omega
    simp only [if_true, Partition.setHeader, Partition.nextHeader, Function.update_self, hsum,
      hnext', Function.update_of_ne hne]
    refine ⟨_, _, c.join q, rfl, h.join hq hb, ?_, .join h hq hb hf hfn, ?_, fun x hx => ?_⟩
    · intro x hx
      rcases h.touching_join hq hb (hf.trans hfn.symm) hx with ⟨_, htouch⟩ | ⟨hxq, _, htouch⟩
      · have := ht _ htouch
        omega
      · exact hxq (ht _ htouch)
    · rw [hm.freeList]
      rfl
    · have hx' : x ≠ c.next q ∧ x ∈ c.tiles := Finset.mem_erase.1 hx
      by_cases hxe : x = c.next (c.next q)
      · have hold := hm.header x hx'.2 hx'.1
        rw [hxe] at hold
        rw [hxe, Function.update_self, Heap.Ok.join_header_next, hold]
        rfl
      · rw [Function.update_of_ne hxe]
        by_cases hxq : x = q
        · rw [hxq, Function.update_self, h.join_header_self hq hb, hself]
          rfl
        · rw [Function.update_of_ne hxq, Heap.Ok.join_header_of_ne hxq hxe]
          exact hm.header x hx'.2 hx'.1
  | false =>
    simp only [Bool.false_eq_true, if_false, Partition.setHeader, hnext]
    refine ⟨_, _, c, rfl, h, ?_, .refl, hm.freeList, fun x hx => ?_⟩
    · intro x hx
      have hxq := ht x hx
      rw [hxq] at hx
      rw [hx.2.2.2] at hfn
      cases hfn
    · by_cases hxe : x = c.next q
      · have hback : (c.header (c.next q)).pPrevHeader = q := (h.next_mem hq).2.1
        rw [hxe, Function.update_self, hm.nWords, hm.free]
        exact congrArg (BlockHeader.mk · _ _) hback.symm
      · rw [Function.update_of_ne hxe]
        exact hm.header x hx hxe

theorem memPartBlockValidate_of_allocated (h : (m.heap tiles).Ok pools)
    (ha : a ∈ (m.heap tiles).allocated pools) (hw : (m.header a).nWords ≤ m.totalWords) :
    memPartBlockValidate m a false = true := by
  obtain ⟨hblock, hf⟩ := Heap.mem_allocated.1 ha
  have hlt : (m.heap tiles).next a + 8 ≤ 4294967296 := h.next_lt hblock
  have halt := h.lt_next hblock.1
  have hsize : (m.heap tiles).next a = a + 2 * (m.header a).nWords := rfl
  obtain ⟨hprev, hforth⟩ := h.prev_mem hblock
  have hpsize : (m.heap tiles).next (m.header a).pPrevHeader =
      (m.header a).pPrevHeader + 2 * (m.header (m.header a).pPrevHeader).nWords := rfl
  have hforth' : (m.heap tiles).next (m.header a).pPrevHeader = a := hforth
  have h4 : a % 4 = 0 := (h.even a hblock.1).1
  have h2 : (m.header a).nWords % 2 = 0 := (h.even a hblock.1).2
  have hnext : m.nextHeader a = (m.heap tiles).next a := Nat.mod_eq_of_lt (by omega)
  have hback : m.nextHeader (m.header a).pPrevHeader = a := by
    unfold Partition.nextHeader u32
    omega
  have hlink : (m.header ((m.heap tiles).next a)).pPrevHeader = a := (h.next_mem hblock).2.1
  have hal : aligned a ALLOC_ALIGN_SIZE = true := aligned_two_pow (k := 2).2 h4
  have hal' : aligned (u32 (2 * (m.header a).nWords)) ALLOC_ALIGN_SIZE = true := by
    refine aligned_two_pow (k := 2).2 ?_
    unfold u32
    omega
  have hff : (m.header a).free = false := hf
  unfold memPartBlockValidate Partition.prevHeader
  rw [hal, hal', hff, hnext, hlink, hback]
  simp [hw]

/-- The block that is freed is merged with the one before, or it is free on its own. -/
theorem mergePrev_spec (h : (m.heap tiles).Ok pools) (hcalm : (m.heap tiles).Calm pools)
    (ha : a ∈ (m.heap tiles).allocated pools) :
    ∃ header freeList c, (mergePrev m a).1 = { m with header := header, freeList := freeList } ∧
      c.Ok pools ∧ c.Block pools (mergePrev m a).2 ∧
      (c.header (mergePrev m a).2).free = true ∧
      (∀ x, c.Touching pools x → x = (mergePrev m a).2) ∧
      Heap.Same ((m.heap tiles).release a) c pools pools ∧
      Pending c (mergePrev m a).2 (mergePrev m a).1 := by
  obtain ⟨hblock, hf⟩ := Heap.mem_allocated.1 ha
  have hlt : (m.heap tiles).next a + 8 ≤ 4294967296 := h.next_lt hblock
  have halt := h.lt_next hblock.1
  have hrel := h.release hblock hf
  have hself : ((m.heap tiles).release a).header a = (m.header a).withFree true :=
    Function.update_self ..
  have hother : ∀ {x}, x ≠ a → ((m.heap tiles).release a).header x = m.header x :=
    fun hx => Function.update_of_ne hx _ _
  obtain ⟨hpmem, hpnext⟩ := h.prev_mem hblock
  have hplt := h.lt_next hpmem
  have hpa : (m.header a).pPrevHeader ≠ a := by
    have : ((m.heap tiles).header a).pPrevHeader = (m.header a).pPrevHeader := rfl
    omega
  unfold mergePrev Partition.prevHeader
  obtain ⟨p, hp⟩ : ∃ p, p = (m.header a).pPrevHeader := ⟨_, rfl⟩
  have hp' : ((m.heap tiles).header a).pPrevHeader = p := hp.symm
  rw [← hp] at hpa
  rw [hp'] at hpmem hpnext hplt
  simp only [← hp]
  have hpsize : (m.heap tiles).next p = p + 2 * (m.header p).nWords := rfl
  have hrelnext : ((m.heap tiles).release a).next p = a := by
    rw [Heap.next, Heap.size, hother hpa]
    omega
  have honly : ∀ x ∈ tiles, (m.heap tiles).next x = a → x = p := by
    intro x hx hxa
    exact h.tiling.eq_of_next hx hpmem (hxa.trans hpnext.symm)
  cases hmerge : (m.header p).free with
  | true =>
    have hpfree : (((m.heap tiles).release a).header p).free = true := by rw [hother hpa, hmerge]
    have hafree : (((m.heap tiles).release a).header a).free = true := by
      rw [hself, BlockHeader.withFree_free]
    have hpblock := hrel.block_of_free hpmem hpfree
    have hablock : ((m.heap tiles).release a).Block pools (((m.heap tiles).release a).next p) := by
      rw [hrelnext]
      exact hblock
    have hafree' : (((m.heap tiles).release a).header
        (((m.heap tiles).release a).next p)).free = true := by
      rw [hrelnext, hafree]
    have hjoin := hrel.join hpblock hablock
    have hsize : (m.heap tiles).next a = a + 2 * (m.header a).nWords := rfl
    have hrelsize : ((m.heap tiles).release a).next a = (m.heap tiles).next a := by
      rw [Heap.next, Heap.size, hself, BlockHeader.withFree_nWords, hsize]
    have hsum : u31 ((m.header p).nWords + (m.header a).nWords) =
        (m.header p).nWords + (m.header a).nWords := by
      unfold u31
      omega
    have hjself : (((m.heap tiles).release a).join p).header p =
        (m.header p).withWords ((m.header p).nWords + (m.header a).nWords) := by
      rw [hrel.join_header_self hpblock hablock, hrelnext, hself, hother hpa,
        BlockHeader.withFree_nWords]
    have hjnext : (((m.heap tiles).release a).join p).next p = (m.heap tiles).next a := by
      rw [Heap.next, Heap.size, hjself, BlockHeader.withWords_nWords]
      omega
    have hEp : (m.heap tiles).next a ≠ p := by omega
    have hEa : (m.heap tiles).next a ≠ a := by omega
    have hEj : (((m.heap tiles).release a).join p).header ((m.heap tiles).next a) =
        (m.header ((m.heap tiles).next a)).withPrev p := by
      have := Heap.Ok.join_header_next (c := (m.heap tiles).release a) (a := p)
      rwa [hrelnext, hrelsize, hother hEa] at this
    simp only [if_true, Partition.setHeader, Function.update_of_ne hpa, hsum]
    refine ⟨_, _, ((m.heap tiles).release a).join p, rfl, hjoin, ⟨?_, hpblock.2⟩, ?_, ?_,
      .join hrel hpblock hablock hpfree hafree', ?_, ?_, ?_, ?_⟩
    · refine Finset.mem_erase.2 ⟨?_, hpmem⟩
      rwa [hrelnext]
    · rw [hjself, BlockHeader.withWords_free, hmerge]
    · intro x hx
      rcases hrel.touching_join hpblock hablock (hpfree.trans hafree'.symm) hx with
        ⟨hxp, _⟩ | ⟨hxp, hxa, hxt⟩
      · exact hxp
      · rw [hrelnext] at hxa
        rcases Heap.Ok.touching_release hxt with hxa' | hxa' | hxt'
        · exact absurd hxa' hxa
        · exact honly x hxt.1 hxa'
        · exact absurd hxt' (hcalm x)
    · intro x hx hxe
      rw [hjnext] at hxe
      have hx' := (Finset.mem_erase.1 hx).1
      rw [hrelnext] at hx'
      dsimp only
      by_cases hxp : x = p
      · rw [hxp, Function.update_self, hjself]
        rfl
      · rw [Function.update_of_ne hxp, Function.update_of_ne hx',
          Heap.Ok.join_header_of_ne hxp (by rwa [hrelnext, hrelsize]), hother hx']
    · rw [hjnext, hEj]
      dsimp only
      rw [Function.update_of_ne hEp, Function.update_of_ne hEa, BlockHeader.withPrev_nWords]
    · rw [hjnext, hEj]
      dsimp only
      rw [Function.update_of_ne hEp, Function.update_of_ne hEa, BlockHeader.withPrev_free]
    · show m.freeList = (a :: m.freeList).erase (((m.heap tiles).release a).next p)
      rw [hrelnext, List.erase_cons_head]
  | false =>
    simp only [Bool.false_eq_true, if_false]
    refine ⟨_, _, (m.heap tiles).release a, rfl, hrel, hblock, ?_, ?_, .refl, ?_, ?_, ?_, ?_⟩
    · rw [hself, BlockHeader.withFree_free]
    · intro x hx
      rcases Heap.Ok.touching_release hx with hxa | hxa | hxt
      · exact hxa
      · have hxf := hx.2.2.1
        rw [honly x hx.1 hxa, hother hpa, hmerge] at hxf
        cases hxf
      · exact absurd hxt (hcalm x)
    · intro x _ _
      rfl
    · rfl
    · rfl
    · rfl

/-- A block that is freed goes to the free list, and free neighbours are merged. -/
theorem memPartFree_spec (h : (m.heap tiles).Ok pools) (hcalm : (m.heap tiles).Calm pools)
    (ha : a ∈ (m.heap tiles).allocated pools) (hw : (m.header a).nWords ≤ m.totalWords) :
    ∃ header freeList c', memPartFree m (a + 8) = .ok { m with
        header := header
        freeList := freeList
        currBlocksAlloced := sub32 m.currBlocksAlloced 1
        currWordsAlloced := sub32 m.currWordsAlloced (m.header a).nWords
        live := m.live.filter fun l => l.ptr ≠ a + 8 } ∧
      c'.Ok pools ∧ c'.Calm pools ∧ Heap.Same ((m.heap tiles).release a) c' pools pools ∧
      freeList = c'.freeList ∧ ∀ x ∈ c'.tiles, header x = c'.header x := by
  obtain ⟨hblock, hf⟩ := Heap.mem_allocated.1 ha
  have hlt : (m.heap tiles).next a + 8 ≤ 4294967296 := h.next_lt hblock
  have halt := h.lt_next hblock.1
  have hhead : blockToHeader (a + 8) = a := blockToHeader_add (by omega)
  have hvalid := memPartBlockValidate_of_allocated h ha hw
  obtain ⟨header, freeList, c, hprev, hok, hq, hqf, htouch, hsame, hpending⟩ :=
    mergePrev_spec h hcalm ha
  obtain ⟨header', freeList', c', hnext, hok', hcalm', hsame', hlist, hhead'⟩ :=
    mergeNext_spec hok hq hqf htouch hpending
  refine ⟨header', freeList', c', ?_, hok', hcalm', hsame.trans hsame', hlist, hhead'⟩
  unfold memPartFree
  simp only [hhead, hvalid, Bool.true_eq_false, and_false, if_false, hnext]
  rw [hprev]

end Merge

end Vmx.MemPart
