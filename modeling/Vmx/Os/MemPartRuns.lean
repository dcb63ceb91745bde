import Vmx.Os.MemPart

/-!
# Runs of a partition

`Holds` is what every call keeps: the blocks are in order, the outstanding allocations
are the allocated blocks, and the counters count them.  `Intact` says what this means
for the memory.
-/

namespace Vmx.MemPart

open Lib Util

/-- The invariant of a partition, with the addresses of the headers that are in use. -/
structure Holds (m : Partition) (tiles : Finset Nat) : Prop where
  ok : (m.heap tiles).Ok m.pools
  calm : (m.heap tiles).Calm m.pools
  minBlock : m.minBlockWords = 8
  nodup : m.pools.Nodup
  total : m.totalWords = (m.pools.map fun p => (p.2 - p.1) / 2).sum
  live : ∀ l ∈ m.live, ∃ a ∈ (m.heap tiles).allocated m.pools, l.ptr = a + 8 ∧
    l.ptr % l.alignment = 0 ∧ l.ptr + l.nBytes ≤ (m.heap tiles).next a
  ptrs : (m.live.map Live.ptr).Nodup
  owned : ∀ a ∈ (m.heap tiles).allocated m.pools, a + 8 ∈ m.live.map Live.ptr
  blocks : m.currBlocksAlloced = ((m.heap tiles).allocated m.pools).card
  words : m.currWordsAlloced = (m.heap tiles).words m.pools

theorem holds_init (memory : Nat → BlockHeader) (blockCheck : Bool) :
    Holds (memPartInit memory blockCheck) ∅ := by
  refine
    { ok := ?_
      calm := fun x hx => absurd hx.1 (Finset.notMem_empty x)
      minBlock := rfl
      nodup := List.nodup_nil
      total := rfl
      live := fun l hl => absurd hl List.not_mem_nil
      ptrs := List.nodup_nil
      owned := fun a ha => absurd (Heap.mem_allocated.1 ha).1.1 (Finset.notMem_empty a)
      blocks := rfl
      words := rfl }
  constructor <;> simp [memPartInit, Partition.heap, Heap.Block, Tiling.empty]

namespace Holds

variable {m m' : Partition} {tiles : Finset Nat}

/-- The blocks of the allocations are still there when only free blocks change. -/
theorem live_same {c c' : Heap} {pools pools' : List (Nat × Nat)} (hsame : Heap.Same c c' pools pools')
    {l : Live} (hl : ∃ a ∈ c.allocated pools, l.ptr = a + 8 ∧ l.ptr % l.alignment = 0 ∧
      l.ptr + l.nBytes ≤ c.next a) :
    ∃ a ∈ c'.allocated pools', l.ptr = a + 8 ∧ l.ptr % l.alignment = 0 ∧
      l.ptr + l.nBytes ≤ c'.next a := by
  obtain ⟨a, ha, hptr, hal, hend⟩ := hl
  refine ⟨a, hsame.allocated ▸ ha, hptr, hal, ?_⟩
  rw [Heap.next, Heap.size, hsame.nWords a ha]
  exact hend

/-- A state of the same allocations. -/
theorem of_same (h : Holds m tiles) {tiles' : Finset Nat} (hok : (m'.heap tiles').Ok m'.pools)
    (hcalm : (m'.heap tiles').Calm m'.pools) (hminBlock : m'.minBlockWords = m.minBlockWords)
    (hnodup : m'.pools.Nodup)
    (htotal : m'.totalWords = (m'.pools.map fun p => (p.2 - p.1) / 2).sum)
    (hsame : Heap.Same (m.heap tiles) (m'.heap tiles') m.pools m'.pools)
    (hlive : m'.live = m.live) (hblocks : m'.currBlocksAlloced = m.currBlocksAlloced)
    (hwords : m'.currWordsAlloced = m.currWordsAlloced) : Holds m' tiles' where
  ok := hok
  calm := hcalm
  minBlock := hminBlock.trans h.minBlock
  nodup := hnodup
  total := htotal
  live l hl := live_same hsame (h.live l (hlive ▸ hl))
  ptrs := hlive ▸ h.ptrs
  owned a ha := hlive ▸ h.owned a (hsame.allocated ▸ ha)
  blocks := by rw [hblocks, h.blocks, hsame.allocated]
  words := by rw [hwords, h.words, hsame.words]

/-- A pool is added. -/
theorem addToPool (h : Holds m tiles) {pPool poolSize : Nat} (hsize : poolSize < 4294967296)
    (hword : pPool + poolSize ≤ 4294967296)
    (hapart : ∀ p ∈ m.pools, pPool + poolSize ≤ p.1 ∨ p.2 ≤ pPool)
    (hm : memPartAddToPool m pPool poolSize = .ok m') : ∃ tiles', Holds m' tiles' := by
  rcases memPartAddToPool_spec tiles h.minBlock hsize hword with
    ⟨e, herror⟩ | ⟨a, n, hok, hstart, hend, ha4, hn2, hn⟩
  · rw [herror] at hm
    cases hm
  · rw [hok] at hm
    cases hm
    have hfresh : Heap.Ok.Fresh m.pools a n := by
      intro p hp
      have := hapart p hp
      omega
    have hgrow := h.ok.grow hfresh hn (by omega) ⟨ha4, hn2⟩
    have hnew : (a, a + 16 + 2 * n) ∉ m.pools := by
      intro hp
      have := hfresh _ hp
      dsimp only at this
      omega
    have hnodup := List.nodup_cons.2 ⟨hnew, h.nodup⟩
    refine ⟨tiles ∪ {a, a + 8, a + 8 + 2 * n}, h.of_same hgrow
      (h.ok.calm_grow hfresh (by omega) h.calm) rfl hnodup ?_ (.grow h.ok hfresh (by omega)) rfl rfl
      rfl⟩
    have hle := hgrow.pools_le hnodup
    have hhalf : (a + 16 + 2 * n - a) / 2 = 8 + n := by omega
    rw [List.map_cons, List.sum_cons, hhalf] at hle ⊢
    dsimp only
    rw [h.total]
    unfold u32
    omega

/-- A block is allocated. -/
theorem alloc (h : Holds m tiles) {nBytes k : Nat} (hk : 2 ≤ k) (hk' : k < 32)
    (hn : nBytes < 4294967296) (hfits : Fits nBytes (2 ^ k)) :
    ∃ tiles', Holds (memPartAlignedAlloc m nBytes (2 ^ k)).1 tiles' := by
  rcases memPartAlignedAlloc_spec h.ok h.calm h.minBlock hk hk' hn hfits with
    hnone | ⟨b, header, freeList, c', w, hsome, hcarved, hlarge, hfree, hhead⟩
  · rw [hnone]
    exact ⟨tiles, h⟩
  · rw [hsome]
    have hblock := hcarved.ok.block_of_free hcarved.mem hcarved.free
    have hnew : b ∉ c'.allocated m.pools := fun hm => by
      have hf := (Heap.mem_allocated.1 hm).2
      rw [hcarved.free] at hf
      cases hf
    have hold : b ∉ (m.heap tiles).allocated m.pools := hcarved.same.allocated ▸ hnew
    have htake := hcarved.ok.take hcarved.mem hcarved.free
    have hcalm : (c'.take b).Calm m.pools := by
      intro x hx
      obtain ⟨hxb, hxn, hxt⟩ := Heap.Ok.touching_take hx
      rcases hcarved.touching x hxt with heq | heq
      · exact hxb heq
      · exact hxn heq
    have hagree : ∀ x ∈ (c'.take b).tiles,
        Function.update header b ((header b).withFree false) x = (c'.take b).header x := by
      intro x hx
      show _ = Function.update c'.header b ((c'.header b).withFree false) x
      rw [Function.update_apply, Function.update_apply, hhead b hcarved.mem, hhead x hx]
    have hsame : Heap.Same (c'.take b)
        { c'.take b with header := Function.update header b ((header b).withFree false) }
        m.pools m.pools := .congr hagree
    have hwords := Heap.words_take hblock hcarved.free
    have hcard : ((c'.take b).allocated m.pools).card = (c'.allocated m.pools).card + 1 := by
      rw [Heap.allocated_take hblock, Finset.card_insert_of_notMem hnew]
    have hwle := htake.words_le
    have hcle := htake.card_le
    have hwords' := hsame.words
    have hsize : ∀ x, ((c'.take b).header x).nWords = (c'.header x).nWords := fun x =>
      Heap.Ok.nWords_update_withFree c'.header b false x
    rw [hfree]
    refine ⟨c'.tiles, ?_⟩
    refine
      { ok := htake.congr hagree
        calm := htake.calm_congr hcalm hagree
        minBlock := h.minBlock
        nodup := h.nodup
        total := h.total
        live := fun l hl => live_same hsame ?_
        ptrs := ?_
        owned := fun a ha => ?_
        blocks := ?_
        words := ?_ }
    · have hnext : ∀ x, (c'.take b).next x = c'.next x := fun x => by
        rw [Heap.next, Heap.size, hsize, Heap.next, Heap.size]
      rw [Heap.allocated_take hblock]
      rcases List.mem_cons.1 hl with rfl | hl
      · refine ⟨b, Finset.mem_insert_self _ _, rfl, hcarved.aligned, ?_⟩
        have := hcarved.large
        rw [hnext, Heap.next, Heap.size]
        dsimp only
        omega
      · obtain ⟨a, ha, hptr, hal, hend⟩ := live_same hcarved.same (h.live l hl)
        exact ⟨a, Finset.mem_insert_of_mem ha, hptr, hal, by rwa [hnext]⟩
    · refine List.nodup_cons.2 ⟨fun hm => ?_, h.ptrs⟩
      obtain ⟨l, hl, hptr⟩ := List.mem_map.1 hm
      obtain ⟨a, ha, hptr', _⟩ := h.live l hl
      have hab : a = b := by
        dsimp only at hptr
        omega
      exact hold (hab ▸ ha)
    · have ha' : a ∈ (c'.take b).allocated m.pools := hsame.allocated ▸ ha
      rw [Heap.allocated_take hblock] at ha'
      rcases Finset.mem_insert.1 ha' with rfl | ha'
      · exact List.mem_cons_self
      · exact List.mem_cons_of_mem _ (h.owned a (hcarved.same.allocated ▸ ha'))
    · have hall := congrArg Finset.card hsame.allocated
      have hbefore := congrArg Finset.card hcarved.same.allocated
      refine Eq.trans ?_ hall.symm
      dsimp only
      rw [hcard, h.blocks]
      unfold u32
      omega
    · have hbefore := hcarved.same.words
      refine Eq.trans ?_ hwords'.symm
      dsimp only
      rw [hwords, h.words]
      unfold u32
      omega

/-- A block is freed. -/
theorem free (h : Holds m tiles) {ptr : Nat} (hptr : ptr ∈ m.live.map Live.ptr) :
    ∃ m' tiles', memPartFree m ptr = .ok m' ∧ Holds m' tiles' := by
  obtain ⟨l, hl, rfl⟩ := List.mem_map.1 hptr
  obtain ⟨a, ha, hla, _⟩ := h.live l hl
  rw [hla]
  have hblock := (Heap.mem_allocated.1 ha).1
  have htotal : (m.header a).nWords ≤ m.totalWords := by
    rw [h.total]
    exact h.ok.nWords_le hblock.1
  obtain ⟨header, freeList, c', hfree, hok, hcalm, hsame, hlist, hhead⟩ :=
    memPartFree_spec h.ok h.calm ha htotal
  have hsame' : Heap.Same ((m.heap tiles).release a) { c' with header := header } m.pools m.pools :=
    hsame.trans (.congr hhead)
  have hall : ({ c' with header := header } : Heap).allocated m.pools =
      ((m.heap tiles).allocated m.pools).erase a := hsame'.allocated.trans Heap.allocated_release
  have hcard := Finset.card_erase_of_mem ha
  have hpos := Finset.card_pos.2 ⟨a, ha⟩
  have hcle := h.ok.card_le
  have hwle := h.ok.words_le
  have hwords := Heap.words_release ha
  have hsize : ∀ x, (((m.heap tiles).release a).header x).nWords = (m.header x).nWords := fun x =>
    Heap.Ok.nWords_update_withFree m.header a true x
  have hnext : ∀ x, ((m.heap tiles).release a).next x = (m.heap tiles).next x := fun x => by
    rw [Heap.next, Heap.size, hsize]
    rfl
  refine ⟨_, c'.tiles, hfree, ?_⟩
  rw [hlist]
  refine
    { ok := hok.congr hhead
      calm := hok.calm_congr hcalm hhead
      minBlock := h.minBlock
      nodup := h.nodup
      total := h.total
      live := fun l' hl' => live_same hsame' ?_
      ptrs := (List.filter_sublist.map Live.ptr).nodup h.ptrs
      owned := fun x hx => ?_
      blocks := ?_
      words := ?_ }
  · obtain ⟨hl', hne⟩ := List.mem_filter.1 hl'
    obtain ⟨x, hx, hptr', hal, hend⟩ := h.live l' hl'
    refine ⟨x, ?_, hptr', hal, by rwa [hnext]⟩
    rw [Heap.allocated_release, Finset.mem_erase]
    refine ⟨?_, hx⟩
    rintro rfl
    exact of_decide_eq_true hne hptr'
  · have hx' : x ≠ a ∧ x ∈ (m.heap tiles).allocated m.pools := Finset.mem_erase.1 (hall ▸ hx)
    obtain ⟨l', hl', hptr'⟩ := List.mem_map.1 (h.owned x hx'.2)
    refine List.mem_map.2 ⟨l', List.mem_filter.2 ⟨hl', decide_eq_true ?_⟩, hptr'⟩
    omega
  · refine Eq.trans ?_ (congrArg Finset.card hall).symm
    dsimp only
    rw [hcard, h.blocks]
    unfold sub32 u32
    omega
  · refine Eq.trans ?_ hsame'.words.symm
    have hself : ((m.heap tiles).header a).nWords = (m.header a).nWords := rfl
    rw [hself] at hwords
    dsimp only
    rw [h.words]
    unfold sub32 u32
    omega

/-- The owner of a block writes into it. -/
theorem write (h : Holds m tiles) {l : Live} {addr : Nat} {bytes : BlockHeader} (hl : l ∈ m.live)
    (hstart : l.ptr ≤ addr) (hend : addr + 8 ≤ l.ptr + l.nBytes) :
    Holds (m.setHeader addr fun _ => bytes) tiles := by
  obtain ⟨a, ha, hptr, _, hnext⟩ := h.live l hl
  have hmem := (Heap.mem_allocated.1 ha).1.1
  have hnot : addr ∉ tiles := h.ok.tiling.not_mem_inside hmem (by omega) (by
    rw [Heap.next] at hnext
    omega)
  have hhead : ∀ x ∈ (m.heap tiles).tiles,
      (m.setHeader addr fun _ => bytes).header x = (m.heap tiles).header x := by
    intro x hx
    have hxa : x ≠ addr := fun heq => hnot (heq ▸ hx)
    exact Function.update_of_ne hxa _ _
  exact h.of_same (h.ok.congr hhead) (h.ok.calm_congr h.calm hhead) rfl h.nodup h.total
    (.congr hhead) rfl rfl rfl

end Holds

/-! ## Runs -/

/-- The words of a request and its padding do not wrap. -/
def Sound (_ : Partition) : Op → Prop
  | .alignedAlloc nBytes alignment => Fits nBytes alignment
  | .alloc nBytes => Fits nBytes ALLOC_ALIGN_SIZE
  | _ => True

instance (m : Partition) : ∀ op, Decidable (Sound m op)
  | .alignedAlloc nBytes alignment => inferInstanceAs (Decidable (Fits nBytes alignment))
  | .alloc nBytes => inferInstanceAs (Decidable (Fits nBytes ALLOC_ALIGN_SIZE))
  | .addToPool _ _ => inferInstanceAs (Decidable True)
  | .free _ => inferInstanceAs (Decidable True)
  | .write _ _ _ => inferInstanceAs (Decidable True)

/-- The invariant holds for some set of headers. -/
def Sane (m : Partition) : Prop := ∃ tiles, Holds m tiles

theorem sane_step {m m' : Partition} {op : Op} (h : Sane m) (hsound : Sound m op)
    (hs : step m op = some m') : Sane m' := by
  obtain ⟨tiles, h⟩ := h
  cases op with
  | addToPool pPool poolSize =>
    rw [step, Option.ite_none_right_eq_some] at hs
    obtain ⟨⟨hsize, hword, hapart⟩, hm⟩ := hs
    split at hm
    next herror =>
      cases hm
      exact ⟨tiles, h⟩
    next hok =>
      cases hm
      exact h.addToPool hsize hword hapart hok
  | alignedAlloc nBytes alignment =>
    obtain ⟨⟨hn, hpow, hmin, hlt⟩, rfl⟩ := guard_some.1 hs
    obtain ⟨k, hk⟩ : ∃ k, k = alignment.log2 := ⟨_, rfl⟩
    rw [← hk] at hpow
    subst hpow
    have hk2 : 2 ≤ k := (Nat.pow_le_pow_iff_right (a := 2) (m := k) (n := 2) (by decide)).1 hmin
    have hk32 : k < 32 := (Nat.pow_lt_pow_iff_right (a := 2) (m := 32) (n := k) (by decide)).1 hlt
    exact h.alloc hk2 hk32 hn hsound
  | alloc nBytes =>
    obtain ⟨hn, rfl⟩ := guard_some.1 hs
    exact h.alloc (k := 2) (by omega) (by omega) hn hsound
  | free ptr =>
    rw [step, Option.ite_none_right_eq_some] at hs
    obtain ⟨hptr, hm⟩ := hs
    obtain ⟨m1, tiles', hok, h'⟩ := h.free hptr
    rw [hok] at hm
    cases hm
    exact ⟨tiles', h'⟩
  | write l addr bytes =>
    obtain ⟨⟨hl, hstart, hend⟩, rfl⟩ := guard_some.1 hs
    exact ⟨tiles, h.write hl hstart hend⟩

/-- The memory of the pools is in order.  `tiles` are the addresses of the headers. -/
structure Intact (m : Partition) (tiles : Finset Nat) : Prop where
  first : ∀ p ∈ m.pools, p.1 ∈ tiles ∧ m.header p.1 = { pPrevHeader := 0, nWords := 4, free := false }
  last : ∀ p ∈ m.pools, ∃ a ∈ tiles,
    a + headerSize = p.2 ∧ (m.header a).nWords = 4 ∧ (m.header a).free = false
  inside : ∀ a ∈ tiles, ∃ p ∈ m.pools, p.1 ≤ a ∧ a + 2 * (m.header a).nWords ≤ p.2
  tile : ∀ p ∈ m.pools, ∀ x, p.1 ≤ x → x < p.2 →
    ∃! a, a ∈ tiles ∧ a ≤ x ∧ x < a + 2 * (m.header a).nWords
  link : ∀ a ∈ tiles, (∀ p ∈ m.pools, a ≠ p.1) →
    m.prevHeader a ∈ tiles ∧ m.prevHeader a + 2 * (m.header (m.prevHeader a)).nWords = a
  calm : ∀ a ∈ tiles, ∀ b ∈ tiles, b = a + 2 * (m.header a).nWords →
    (m.header a).free = true → (m.header b).free = false
  nodup : m.freeList.Nodup
  listed : ∀ a, a ∈ m.freeList ↔ a ∈ tiles ∧ (m.header a).free = true
  live : ∀ l ∈ m.live, ∃ a ∈ (m.heap tiles).allocated m.pools, l.ptr = a + headerSize ∧
    l.ptr % l.alignment = 0 ∧ l.ptr + l.nBytes ≤ a + 2 * (m.header a).nWords
  disjoint : m.live.Pairwise fun l l' =>
    l.ptr + l.nBytes + headerSize ≤ l'.ptr ∨ l'.ptr + l'.nBytes + headerSize ≤ l.ptr
  blocks : m.currBlocksAlloced = ((m.heap tiles).allocated m.pools).card
  words : m.currWordsAlloced = ∑ a ∈ (m.heap tiles).allocated m.pools, (m.header a).nWords

theorem Holds.intact {m : Partition} {tiles : Finset Nat} (h : Holds m tiles) : Intact m tiles where
  first := h.ok.start
  last p hp := by
    obtain ⟨a, ha, hstop, _, hrest⟩ := h.ok.stop p hp
    exact ⟨a, ha, hstop, hrest⟩
  inside := h.ok.inside
  tile p hp x hle hlt := by
    obtain ⟨hstart, _⟩ := h.ok.start p hp
    obtain ⟨e, he, hstop, hpe, hfour, _⟩ := h.ok.stop p hp
    have hcover := h.ok.tiling.cover hstart hle fun b hb hpb hlast => by
      obtain ⟨q, hq, hqe⟩ := hlast
      obtain ⟨e', he', hstop', hqe', hfour', _⟩ := h.ok.stop q hq
      have hbe : b = e' := by omega
      have hsize : (m.heap tiles).size b = 8 := by rw [Heap.size, hbe, hfour']
      rw [headerSize] at hqe
      by_cases hpq : p = q
      · subst hpq
        omega
      · have := h.ok.apart p hp q hq hpq
        rw [headerSize] at hqe'
        omega
    obtain ⟨a, ha, hax, hxa⟩ := hcover
    refine ⟨a, ⟨ha, hax, hxa⟩, ?_⟩
    rintro b ⟨hb, hbx, hxb⟩
    exact h.ok.tiling.unique hb ⟨hbx, hxb⟩ ha ⟨hax, hxa⟩
  link a ha hfirst := h.ok.tiling.prev a ha fun ⟨p, hp, heq⟩ => hfirst p hp heq
  calm a ha b _ hb hf := by
    have hblock := h.ok.block_of_free ha hf
    have hnext : (m.heap tiles).next a = b := hb.symm
    cases hfn : (m.header b).free with
    | false => rfl
    | true =>
      have hfree : ((m.heap tiles).header ((m.heap tiles).next a)).free = true := by
        rw [hnext]
        exact hfn
      exact absurd ⟨ha, hblock.2.2, hf, hfree⟩ (h.calm a)
  nodup := h.ok.nodup
  listed := h.ok.listed
  live := h.live
  disjoint := by
    refine (List.pairwise_map.1 h.ptrs).imp_of_mem fun {l l'} hl hl' hne => ?_
    obtain ⟨a, ha, hptr, _, hend⟩ := h.live l hl
    obtain ⟨a', ha', hptr', _, hend'⟩ := h.live l' hl'
    rw [Heap.next] at hend hend'
    rw [headerSize]
    have hm := (Heap.mem_allocated.1 ha).1.1
    have hm' := (Heap.mem_allocated.1 ha').1.1
    rcases Nat.lt_trichotomy a a' with hlt | heq | hlt
    · have := h.ok.tiling.apart a hm a' hm' hlt
      omega
    · omega
    · have := h.ok.tiling.apart a' hm' a hm hlt
      omega
  blocks := h.blocks
  words := h.words

/-- In every run in which the size of no request wraps, the memory is in order after every
call. -/
theorem heap_intact {memory : Nat → BlockHeader} {blockCheck : Bool} {ops : List Op} {m : Partition}
    (hsound : AllSteps step Sound (memPartInit memory blockCheck) ops)
    (hrun : exec step (memPartInit memory blockCheck) ops = some m) :
    ∃ tiles, Intact m tiles := by
  have hinit : Sane (memPartInit memory blockCheck) := ⟨∅, holds_init memory blockCheck⟩
  obtain ⟨tiles, h⟩ :=
    exec_invariant_of (fun _ _ _ h hs hstep => sane_step h hs hstep) hinit hsound hrun
  exact ⟨tiles, h.intact⟩

theorem heap_intact_aligned : ∃ m,
    exec step (memPartInit (fun _ => ⟨0, 0, false⟩) true)
      [.addToPool 4097 256, .alloc 10, .alignedAlloc 20 64, .free 4332, .alloc 100] = some m ∧
      ∃ tiles, Intact m tiles := by
  have hrun : (exec step (memPartInit (fun _ => ⟨0, 0, false⟩) true)
      [.addToPool 4097 256, .alloc 10, .alignedAlloc 20 64, .free 4332, .alloc 100]).isSome := by
    decide
  obtain ⟨m, hm⟩ := Option.isSome_iff_exists.1 hrun
  exact ⟨m, hm, heap_intact (by decide) hm⟩

/-- A request near 2^32 bytes: the padding wraps, every block is large enough, and the
block that is carved lies beyond the last header of the pool. -/
theorem heap_intact_wrapped : ∃ m,
    exec step (memPartInit (fun _ => ⟨0, 0, false⟩) true)
      [.addToPool 4097 256, .alloc 4294967284] = some m ∧ ¬ ∃ tiles, Intact m tiles := by
  refine ⟨_, rfl, ?_⟩
  rintro ⟨tiles, h⟩
  have hfree := (h.listed 4108).1 (by decide)
  obtain ⟨a, ha, hend, hwords, _⟩ := h.last (4100, 4352) (by decide)
  obtain ⟨b, _, hunique⟩ := h.tile (4100, 4352) (by decide) 4346 (by decide) (by decide)
  have ha' : a = 4344 := by
    rw [headerSize] at hend
    omega
  have h1 := hunique 4108 ⟨hfree.1, by decide, by decide⟩
  have h2 := hunique a ⟨ha, by omega, by omega⟩
  omega

end Vmx.MemPart
