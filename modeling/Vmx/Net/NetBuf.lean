import Vmx.Lib.Counting
import Vmx.Lib.FreeLists
import Vmx.Net.NetBufLib

/-!
# What the pools conserve

The invariant has a part for each kind of block (`MInv`, `BInv`, `CInv`: the free lists, and the
numbers kept about them) and one for how they hang together (`RInv`: the references).  The
operations are put together from a few changes, and each change is a lemma about one part: a block
is taken from its list or goes back to it, a clBlk gets its cluster, a reference comes or goes.
-/

namespace Vmx.NetBuf

open Lib

variable {s s' : State} {p q m b c : Nat}

/-! ## The invariant -/

/-- The mBlks: those that are not used are on the list of their pool and of type `MT_FREE`, and the
statistics count the mBlks of each type. -/
structure MInv (s : State) : Prop where
  lists : FreeLists (fun p => (s.pools p).pmBlkHead) (fun m => (s.mBlks m).netPool)
    (· < s.nMblks) (fun m => s.used m = false)
  inDom : ∀ m, s.used m = true → m < s.nMblks
  type : ∀ m, (s.mBlks m).mType = MT_FREE ↔ s.used m = false
  type_lt : ∀ m, (s.mBlks m).mType < 256
  stats : ∀ p < s.nPools, ∀ t < 256, (s.pools p).mTypes t =
    ((Finset.range s.nMblks).filter fun m =>
      (s.mBlks m).netPool = p ∧ (s.mBlks m).mType = t).card
  few : ∀ p < s.nPools,
    ((Finset.range s.nMblks).filter fun m => (s.mBlks m).netPool = p).card < 2 ^ 31
  home : ∀ m < s.nMblks, (s.mBlks m).netPool < s.nPools

/-- The clBlks: the free ones are on the list of their pool. -/
structure BInv (s : State) : Prop where
  lists : FreeLists (fun p => (s.pools p).pClBlkHead) s.clBlkPool (· < s.nClBlks)
    (fun b => s.clBlkOwner b = .free)
  inDom : ∀ b, s.clBlkOwner b ≠ .free → b < s.nClBlks
  home : ∀ b, s.clBlkOwner b ≠ .free → (s.clBlks b).pNetPool = s.clBlkPool b
  netPool : ∀ b < s.nClBlks, s.clBlkPool b < s.nPools

/-- The clusters: the free ones are on the list of their cluster pool, which counts them and has a
bit in the mask when there are any. -/
structure CInv (s : State) : Prop where
  lists : FreeLists (fun q => (s.clPools q).pClHead) s.clPoolOf (· < s.nClusters)
    (fun c => s.clOwner c = .free)
  inDom : ∀ c, s.clOwner c ≠ .free → c < s.nClusters
  counts : ∀ q, (s.clPools q).clNumFree = (s.clPools q).pClHead.length
  mask : ∀ q < s.nClPools, (s.pools (s.clPools q).pNetPool).clMask.testBit (s.clPools q).clLg2 =
    decide ((s.clPools q).pClHead ≠ [])
  home : ∀ c < s.nClusters, s.clPoolOf c < s.nClPools
  netPool : ∀ q < s.nClPools, (s.clPools q).pNetPool < s.nPools
  distinct : ∀ q < s.nClPools, ∀ q' < s.nClPools,
    (s.clPools q).pNetPool = (s.clPools q').pNetPool →
    (s.clPools q).clLg2 = (s.clPools q').clLg2 → q = q'
  lg2 : ∀ q < s.nClPools, CL_LOG2_MIN ≤ (s.clPools q).clLg2 ∧ (s.clPools q).clLg2 ≤ CL_LOG2_MAX

/-- An mBlk that has been handed out refers to a clBlk. -/
def RefersTo (s : State) (b m : Nat) : Prop :=
  s.used m = true ∧ (s.mBlks m).ext = true ∧ (s.mBlks m).pClBlk = some b

instance (s : State) (b : Nat) : DecidablePred (RefersTo s b) := fun _ =>
  inferInstanceAs (Decidable (_ ∧ _ ∧ _))

/-- The number of mBlks that refer to a clBlk. -/
def refs (s : State) (b : Nat) : Nat := ((Finset.range s.nMblks).filter (RefersTo s b)).card

/-- The references: a clBlk of mBlks has a cluster of its own and counts the mBlks. -/
structure RInv (s : State) : Prop where
  shared : ∀ b, s.clBlkOwner b = .mBlks → ∃ c, (s.clBlks b).pClBuf = some c ∧
    s.clOwner c = .clBlk b ∧ (s.clBlks b).clRefCount = refs s b ∧ 0 < refs s b
  raw : ∀ b, s.clBlkOwner b = .caller → (s.clBlks b).pClBuf = none
  back : ∀ c b, s.clOwner c = .clBlk b → s.clBlkOwner b = .mBlks ∧ (s.clBlks b).pClBuf = some c
  ext : ∀ m, s.used m = true → (s.mBlks m).ext = true →
    ∃ b, (s.mBlks m).pClBlk = some b ∧ s.clBlkOwner b = .mBlks

/-- The table of a pool is the same, and so are its sizes. -/
structure SameTable (pool' pool : Pool) : Prop where
  table : pool'.clTable = pool.clTable
  lg2Min : pool'.clLg2Min = pool.clLg2Min
  lg2Max : pool'.clLg2Max = pool.clLg2Max
  sizeMin : pool'.clSizeMin = pool.clSizeMin
  sizeMax : pool'.clSizeMax = pool.clSizeMax

/-- The tables of cluster pools: an entry is a cluster pool of the pool, and there is one for every
bit of the mask. -/
structure TInv (s : State) : Prop where
  entry : ∀ p index q, (s.pools p).clTable index = some q →
    q < s.nClPools ∧ (s.clPools q).pNetPool = p
  bit : ∀ p k, (s.pools p).clMask.testBit k = true →
    CL_LOG2_MIN ≤ k ∧ k ≤ CL_LOG2_MAX ∧ (s.pools p).clTable (k - CL_LOG2_MIN) ≠ none
  pool : ∀ q < s.nClPools, CL_LOG2_MIN ≤ (s.clPools q).clLg2 ∧
    (s.clPools q).clLg2 ≤ CL_LOG2_MAX ∧
    (s.pools (s.clPools q).pNetPool).clTable ((s.clPools q).clLg2 - CL_LOG2_MIN) ≠ none
  sizes : ∀ p, ((s.pools p).clLg2Min = 0 ∧ (s.pools p).clLg2Max = 0 ∧
      (s.pools p).clSizeMin = 0 ∧ (s.pools p).clSizeMax = 0) ∨
    (CL_LOG2_MIN ≤ (s.pools p).clLg2Min ∧ CL_LOG2_MIN ≤ (s.pools p).clLg2Max ∧
      (s.pools p).clLg2Max ≤ CL_LOG2_MAX ∧
      (s.pools p).clSizeMin = 2 ^ (s.pools p).clLg2Min ∧
      (s.pools p).clSizeMax = 2 ^ (s.pools p).clLg2Max)

structure PoolInv (s : State) : Prop where
  mBlks : MInv s
  clBlks : BInv s
  clusters : CInv s
  refs : RInv s
  tables : TInv s

/-! ## What does not matter to a part -/

theorem MInv.congr (h : MInv s) (hheads : ∀ p, (s'.pools p).pmBlkHead = (s.pools p).pmBlkHead)
    (hstats : ∀ p, (s'.pools p).mTypes = (s.pools p).mTypes)
    (hpool : ∀ m, (s'.mBlks m).netPool = (s.mBlks m).netPool)
    (htype : ∀ m, (s'.mBlks m).mType = (s.mBlks m).mType) (hused : s'.used = s.used)
    (hn : s'.nMblks = s.nMblks) (hp : s'.nPools = s.nPools) : MInv s' where
  lists := by
    simp only [hheads, hpool, hused, hn]
    exact h.lists
  inDom := by
    simp only [hused, hn]
    exact h.inDom
  type := by
    simp only [htype, hused]
    exact h.type
  type_lt := by
    simp only [htype]
    exact h.type_lt
  stats := by
    simp only [hstats, hpool, htype, hn, hp]
    exact h.stats
  few := by
    simp only [hpool, hn, hp]
    exact h.few
  home := by
    simp only [hpool, hn, hp]
    exact h.home

theorem BInv.congr (h : BInv s) (hheads : ∀ p, (s'.pools p).pClBlkHead = (s.pools p).pClBlkHead)
    (hpool : ∀ b, s.clBlkOwner b ≠ .free → (s'.clBlks b).pNetPool = (s.clBlks b).pNetPool)
    (howner : s'.clBlkOwner = s.clBlkOwner) (hhome : s'.clBlkPool = s.clBlkPool)
    (hn : s'.nClBlks = s.nClBlks) (hp : s'.nPools = s.nPools) : BInv s' where
  lists := by
    simp only [hheads, howner, hhome, hn]
    exact h.lists
  inDom := by
    simp only [howner, hn]
    exact h.inDom
  home b hb := by
    rw [howner] at hb
    rw [hhome, hpool b hb]
    exact h.home b hb
  netPool := by
    simp only [hhome, hn, hp]
    exact h.netPool

theorem CInv.congr (h : CInv s) (hmask : ∀ p, (s'.pools p).clMask = (s.pools p).clMask)
    (hpools : s'.clPools = s.clPools) (howner : s'.clOwner = s.clOwner)
    (hhome : s'.clPoolOf = s.clPoolOf) (hn : s'.nClusters = s.nClusters)
    (hq : s'.nClPools = s.nClPools) (hp : s'.nPools = s.nPools) : CInv s' where
  lists := by
    simp only [hpools, howner, hhome, hn]
    exact h.lists
  inDom := by
    simp only [howner, hn]
    exact h.inDom
  counts := by
    simp only [hpools]
    exact h.counts
  mask := by
    simp only [hpools, hmask, hq]
    exact h.mask
  home := by
    simp only [hhome, hn, hq]
    exact h.home
  netPool := by
    simp only [hpools, hq, hp]
    exact h.netPool
  distinct := by
    simp only [hpools, hq]
    exact h.distinct
  lg2 := by
    simp only [hpools, hq]
    exact h.lg2

/-- Bits of the mask may go, and those of cluster pools may come. -/
theorem TInv.congr (h : TInv s) (htable : ∀ p, SameTable (s'.pools p) (s.pools p))
    (hpool : ∀ q, (s'.clPools q).pNetPool = (s.clPools q).pNetPool ∧
      (s'.clPools q).clLg2 = (s.clPools q).clLg2) (hq : s'.nClPools = s.nClPools)
    (hmask : ∀ p k, (s'.pools p).clMask.testBit k = true → (s.pools p).clMask.testBit k = true ∨
      ∃ q < s.nClPools, (s.clPools q).pNetPool = p ∧ (s.clPools q).clLg2 = k) : TInv s' where
  entry p index q hp := by
    rw [(htable p).table] at hp
    rw [hq, (hpool q).1]
    exact h.entry p index q hp
  bit p k hk := by
    rw [(htable p).table]
    obtain hk | ⟨q, hlt, rfl, rfl⟩ := hmask p k hk
    · exact h.bit p k hk
    · exact h.pool q hlt
  pool q hlt := by
    rw [hq] at hlt
    rw [(hpool q).1, (hpool q).2, (htable _).table]
    exact h.pool q hlt
  sizes p := by
    rw [(htable p).lg2Min, (htable p).lg2Max, (htable p).sizeMin, (htable p).sizeMax]
    exact h.sizes p

/-- The links of mBlks that are not used, and the contents of free clBlks, do not matter. -/
theorem RInv.congr (h : RInv s) (hused : s'.used = s.used) (hn : s'.nMblks = s.nMblks)
    (hm : ∀ m, s.used m = true →
      (s'.mBlks m).ext = (s.mBlks m).ext ∧ (s'.mBlks m).pClBlk = (s.mBlks m).pClBlk)
    (hb : ∀ b, s.clBlkOwner b ≠ .free → (s'.clBlks b).pClBuf = (s.clBlks b).pClBuf ∧
      (s'.clBlks b).clRefCount = (s.clBlks b).clRefCount)
    (howner : s'.clBlkOwner = s.clBlkOwner) (hclOwner : s'.clOwner = s.clOwner) : RInv s' := by
  have hrefers : ∀ b m, RefersTo s' b m ↔ RefersTo s b m := by
    intro b m
    simp only [RefersTo, hused]
    constructor
    · rintro ⟨hu, he, hp⟩
      exact ⟨hu, (hm m hu).1 ▸ he, (hm m hu).2 ▸ hp⟩
    · rintro ⟨hu, he, hp⟩
      exact ⟨hu, (hm m hu).1.symm ▸ he, (hm m hu).2.symm ▸ hp⟩
  have hrefs : ∀ b, Vmx.NetBuf.refs s' b = Vmx.NetBuf.refs s b := by
    intro b
    simp only [Vmx.NetBuf.refs, hrefers, hn]
  refine ⟨fun b hown => ?_, fun b hown => ?_, fun c b hown => ?_, fun m hu he => ?_⟩
  · rw [howner] at hown
    obtain ⟨c, hbuf, hc, hcount, hpos⟩ := h.shared b hown
    have hne : s.clBlkOwner b ≠ .free := by simp [hown]
    exact ⟨c, by rw [(hb b hne).1, hbuf], by rw [hclOwner, hc],
      by rw [(hb b hne).2, hcount, hrefs], by rw [hrefs]; exact hpos⟩
  · rw [howner] at hown
    rw [(hb b (by simp [hown])).1]
    exact h.raw b hown
  · rw [hclOwner] at hown
    obtain ⟨hm', hbuf⟩ := h.back c b hown
    rw [howner, (hb b (by simp [hm'])).1]
    exact ⟨hm', hbuf⟩
  · rw [hused] at hu
    rw [(hm m hu).1] at he
    obtain ⟨b, hp, hown⟩ := h.ext m hu he
    exact ⟨b, by rw [(hm m hu).2, hp], by rw [howner, hown]⟩

/-! ## mBlks -/

/-- A block changes its type, in counters that do not wrap. -/
theorem retype_eq {f : Nat → Nat} {old new t : Nat} (hne : new ≠ old) (hpos : 0 < f old)
    (hold : f old < 2 ^ 31) (hnew : f new < 2 ^ 31) :
    retype f old new t = if t = new then f t + 1 else if t = old then f t - 1 else f t := by
  have hdec : dec32 (f old) = f old - 1 := by
    rw [dec32]
    omega
  have hinc : inc32 (f new) = f new + 1 := by
    rw [inc32]
    omega
  simp only [retype, Function.update_apply, if_neg hne, hdec, hinc]
  split
  · rename_i heq
    rw [heq]
  · split
    · rename_i heq
      rw [heq]
    · rfl

theorem stats_retype (h : MInv s) {new : Nat} (hm : m < s.nMblks)
    (hnew : new ≠ (s.mBlks m).mType) (hlt : new < 256)
    (hself : (s'.pools (s.mBlks m).netPool).mTypes =
      retype (s.pools (s.mBlks m).netPool).mTypes (s.mBlks m).mType new)
    (hother : ∀ p, p ≠ (s.mBlks m).netPool → (s'.pools p).mTypes = (s.pools p).mTypes)
    (hpool : ∀ m', (s'.mBlks m').netPool = (s.mBlks m').netPool)
    (htype : ∀ m', (s'.mBlks m').mType = if m' = m then new else (s.mBlks m').mType)
    (hn : s'.nMblks = s.nMblks) : ∀ p < s.nPools, ∀ t < 256, (s'.pools p).mTypes t =
      ((Finset.range s'.nMblks).filter fun m =>
        (s'.mBlks m).netPool = p ∧ (s'.mBlks m).mType = t).card := by
  intro p hp t ht
  have hsame : ∀ m', m' ≠ m →
      ((s'.mBlks m').netPool = p ∧ (s'.mBlks m').mType = t ↔
        (s.mBlks m').netPool = p ∧ (s.mBlks m').mType = t) := by
    intro m' hm'
    rw [hpool, htype, if_neg hm']
  have hchange := card_filter_change (Finset.mem_range.2 hm) hsame
  simp only [hpool, htype, if_true] at hchange
  rw [hn]
  simp only [hpool, htype]
  have hcount := h.stats p hp t ht
  by_cases hpm : p = (s.mBlks m).netPool
  · subst hpm
    have hle : ∀ t < 256, (s.pools (s.mBlks m).netPool).mTypes t < 2 ^ 31 := by
      intro t ht
      rw [h.stats _ hp t ht]
      refine Nat.lt_of_le_of_lt (Finset.card_le_card fun m' hm' => ?_) (h.few _ hp)
      simp only [Finset.mem_filter] at hm' ⊢
      exact ⟨hm'.1, hm'.2.1⟩
    have hpos : 0 < (s.pools (s.mBlks m).netPool).mTypes (s.mBlks m).mType := by
      rw [h.stats _ hp _ (h.type_lt m), Finset.card_pos]
      exact ⟨m, by simp [hm]⟩
    rw [hself, retype_eq hnew hpos (hle _ (h.type_lt m)) (hle new hlt)]
    simp only [true_and] at hchange
    by_cases htn : t = new
    · subst htn
      rw [if_neg (Ne.symm hnew), if_pos rfl] at hchange
      rw [if_pos rfl]
      omega
    · by_cases hto : t = (s.mBlks m).mType
      · rw [if_pos hto.symm, if_neg (Ne.symm htn)] at hchange
        rw [if_neg htn, if_pos hto]
        omega
      · rw [if_neg (Ne.symm hto), if_neg (Ne.symm htn)] at hchange
        rw [if_neg htn, if_neg hto]
        omega
  · simp only [Ne.symm hpm, false_and, if_false] at hchange
    rw [hother p hpm]
    omega

/-- The state after the first block of a list is taken. -/
def takenM (s : State) (p m : Nat) (rest : List Nat) (type : Nat) : State :=
  ((s.setPool p fun pool =>
    { pool with pmBlkHead := rest, mTypes := retype pool.mTypes MT_FREE type }).setMblk m
      fun blk => { blk with pClBlk := none, mType := type, mNext := none, ext := false,
                            pktHdr := false }).setUsed m true

/-- A block on a free list is not used. -/
theorem MInv.head (h : MInv s) {rest : List Nat} (hp : (s.pools p).pmBlkHead = m :: rest) :
    m < s.nMblks ∧ (s.mBlks m).netPool = p ∧ s.used m = false := by
  have hmem : m ∈ (s.pools p).pmBlkHead := by simp [hp]
  exact (h.lists.mem p m).1 hmem

theorem mBlkGet_free {rest : List Nat} (wait : Bool) (type : Nat)
    (hp : (s.pools p).pmBlkHead = m :: rest) (hfree : (s.mBlks m).mType = MT_FREE) :
    mBlkGet s p wait type = (takenM s p m rest type, some m) := by
  rw [mBlkGet, hp]
  simp only [hfree, ne_eq, not_true_eq_false, if_false]
  rfl

theorem mBlkGet_cons (h : MInv s) {rest : List Nat} (wait : Bool) (type : Nat)
    (hp : (s.pools p).pmBlkHead = m :: rest) :
    mBlkGet s p wait type = (takenM s p m rest type, some m) :=
  mBlkGet_free wait type hp ((h.type m).2 (h.head hp).2.2)

theorem mBlkGet_nil (wait : Bool) (type : Nat) (hp : (s.pools p).pmBlkHead = []) :
    ∃ drops, mBlkGet s p wait type =
      (s.setPool p fun pool => { pool with mDrops := drops }, none) := by
  rw [mBlkGet, hp]
  cases wait with
  | true => exact ⟨(s.pools p).mDrops, by simp [State.setPool]⟩
  | false => exact ⟨(s.pools p).mDrops + 1, rfl⟩

/-- A block that changes its type is used just when the new type is not `MT_FREE`. -/
theorem MInv.retyped (h : MInv s) {new : Nat} (hm : m < s.nMblks)
    (hnew : new ≠ (s.mBlks m).mType) (hlt : new < 256)
    (hself : (s'.pools (s.mBlks m).netPool).mTypes =
      retype (s.pools (s.mBlks m).netPool).mTypes (s.mBlks m).mType new)
    (hother : ∀ p, p ≠ (s.mBlks m).netPool → (s'.pools p).mTypes = (s.pools p).mTypes)
    (hpool : ∀ m', (s'.mBlks m').netPool = (s.mBlks m').netPool)
    (htype : ∀ m', (s'.mBlks m').mType = if m' = m then new else (s.mBlks m').mType)
    (hused : ∀ m', s'.used m' = if m' = m then decide (new ≠ MT_FREE) else s.used m')
    (hn : s'.nMblks = s.nMblks) (hnp : s'.nPools = s.nPools)
    (hlists : FreeLists (fun p => (s'.pools p).pmBlkHead) (fun m => (s.mBlks m).netPool)
      (· < s.nMblks) (fun m => s'.used m = false)) : MInv s' where
  lists := by
    simp only [hpool, hn]
    exact hlists
  inDom m' hm' := by
    rw [hn]
    rw [hused] at hm'
    split at hm'
    · subst_vars
      exact hm
    · exact h.inDom m' hm'
  type m' := by
    rw [htype, hused]
    split
    · simp
    · exact h.type m'
  type_lt m' := by
    rw [htype]
    split
    · exact hlt
    · exact h.type_lt m'
  stats := by
    rw [hnp]
    exact stats_retype h hm hnew hlt hself hother hpool htype hn
  few := by
    simp only [hpool, hn, hnp]
    exact h.few
  home := by
    simp only [hpool, hn, hnp]
    exact h.home

theorem MInv.taken (h : MInv s) {rest : List Nat} {type : Nat}
    (hp : (s.pools p).pmBlkHead = m :: rest) (h0 : type ≠ MT_FREE) (hlt : type < 256) :
    MInv (takenM s p m rest type) := by
  obtain ⟨hm, hpool, hfree⟩ := h.head hp
  have htype0 := (h.type m).2 hfree
  have hused : ∀ m', (takenM s p m rest type).used m' =
      if m' = m then decide (type ≠ MT_FREE) else s.used m' := by
    intro m'
    simp [takenM, State.setUsed, State.setMblk, State.setPool, Function.update_apply, h0]
  refine h.retyped hm (by rw [htype0]; exact h0) hlt ?_ ?_ ?_ ?_ hused rfl rfl ?_
  · rw [hpool, htype0]
    simp [takenM, State.setUsed, State.setMblk, State.setPool]
  · intro p' hp'
    rw [hpool] at hp'
    simp [takenM, State.setUsed, State.setMblk, State.setPool, Function.update_of_ne hp']
  · intro m'
    simp only [takenM, State.setUsed, State.setMblk, State.setPool, Function.update_apply]
    split <;> simp_all
  · intro m'
    simp only [takenM, State.setUsed, State.setMblk, State.setPool, Function.update_apply]
    split <;> rfl
  · refine h.lists.pop hp ?_ ?_ ?_
    · simp [takenM, State.setUsed, State.setMblk, State.setPool]
    · intro p' hp'
      simp [takenM, State.setUsed, State.setMblk, State.setPool, Function.update_of_ne hp']
    · intro m'
      rw [hused]
      split <;> simp_all

theorem MInv.freed (h : MInv s) (hu : s.used m = true) (hpool : (s.mBlks m).netPool = p) :
    MInv (mBlkFree s p m) := by
  have hm := h.inDom m hu
  have hne : (s.mBlks m).mType ≠ MT_FREE := fun h0 => by
    rw [(h.type m).1 h0] at hu
    simp at hu
  have hused : ∀ m', (mBlkFree s p m).used m' =
      if m' = m then decide (MT_FREE ≠ MT_FREE) else s.used m' := by
    intro m'
    simp [mBlkFree, State.setUsed, State.setMblk, State.setPool, Function.update_apply]
  refine h.retyped hm (Ne.symm hne) (by decide) ?_ ?_ ?_ ?_ hused rfl rfl ?_
  · rw [hpool]
    simp [mBlkFree, State.setUsed, State.setMblk, State.setPool]
  · intro p' hp'
    rw [hpool] at hp'
    simp [mBlkFree, State.setUsed, State.setMblk, State.setPool, Function.update_of_ne hp']
  · intro m'
    simp only [mBlkFree, State.setUsed, State.setMblk, State.setPool, Function.update_apply]
    split <;> simp_all
  · intro m'
    simp only [mBlkFree, State.setUsed, State.setMblk, State.setPool, Function.update_apply]
    split <;> rfl
  · refine h.lists.push hm hpool (by simp [hu]) ?_ ?_ ?_
    · simp [mBlkFree, State.setUsed, State.setMblk, State.setPool]
    · intro p' hp'
      simp [mBlkFree, State.setUsed, State.setMblk, State.setPool, Function.update_of_ne hp']
    · intro m'
      rw [hused]
      split <;> simp_all

/-! ## clBlks -/

/-- The state after the first clBlk of a list is taken. -/
def takenB (s : State) (p b : Nat) (rest : List Nat) : State :=
  ((s.setPool p fun pool => { pool with pClBlkHead := rest }).setClBlk b fun blk =>
    { blk with pClBuf := none, clRefCount := 0, pNetPool := p }).setClBlkOwner b .caller

theorem clBlkGet_cons {rest : List Nat} (hp : (s.pools p).pClBlkHead = b :: rest) :
    clBlkGet s p = (takenB s p b rest, some b) := by
  rw [clBlkGet, hp]
  rfl

theorem clBlkGet_nil (hp : (s.pools p).pClBlkHead = []) : clBlkGet s p = (s, none) := by
  rw [clBlkGet, hp]

theorem BInv.head (h : BInv s) {rest : List Nat} (hp : (s.pools p).pClBlkHead = b :: rest) :
    b < s.nClBlks ∧ s.clBlkPool b = p ∧ s.clBlkOwner b = .free := by
  have hmem : b ∈ (s.pools p).pClBlkHead := by simp [hp]
  exact (h.lists.mem p b).1 hmem

theorem BInv.taken (h : BInv s) {rest : List Nat} (hp : (s.pools p).pClBlkHead = b :: rest) :
    BInv (takenB s p b rest) := by
  obtain ⟨hb, hpool, hfree⟩ := h.head hp
  have howner : ∀ b', (takenB s p b rest).clBlkOwner b' =
      if b' = b then .caller else s.clBlkOwner b' := by
    intro b'
    simp only [takenB, State.setClBlkOwner, State.setClBlk, State.setPool, Function.update_apply]
  refine ⟨?_, fun b' hb' => ?_, fun b' hb' => ?_, h.netPool⟩
  · refine h.lists.pop hp ?_ ?_ ?_
    · simp [takenB, State.setClBlkOwner, State.setClBlk, State.setPool]
    · intro p' hp'
      simp [takenB, State.setClBlkOwner, State.setClBlk, State.setPool,
        Function.update_of_ne hp']
    · intro b'
      rw [howner]
      split <;> simp_all
  · rw [howner] at hb'
    split at hb'
    · subst_vars
      exact hb
    · exact h.inDom b' hb'
  · rw [howner] at hb'
    simp only [takenB, State.setClBlkOwner, State.setClBlk, State.setPool, Function.update_apply]
    split at hb'
    · subst_vars
      simp
    · rename_i hne
      rw [if_neg hne]
      exact h.home b' hb'

theorem BInv.returned (h : BInv s) (hb : s.clBlkOwner b ≠ .free) : BInv (clBlkReturn s b) := by
  have howner : ∀ b', (clBlkReturn s b).clBlkOwner b' =
      if b' = b then .free else s.clBlkOwner b' := by
    intro b'
    simp only [clBlkReturn, State.setClBlkOwner, State.setPool, Function.update_apply]
  refine ⟨?_, fun b' hb' => ?_, fun b' hb' => ?_, h.netPool⟩
  · refine h.lists.push (h.inDom b hb) rfl hb ?_ ?_ ?_
    · simp [clBlkReturn, State.setClBlkOwner, State.setPool, h.home b hb]
    · intro p' hp'
      rw [← h.home b hb] at hp'
      simp [clBlkReturn, State.setClBlkOwner, State.setPool, Function.update_of_ne hp']
    · intro b'
      rw [howner]
      split <;> simp_all
  · rw [howner] at hb'
    split at hb'
    · simp at hb'
    · exact h.inDom b' hb'
  · rw [howner] at hb'
    split at hb'
    · simp at hb'
    · exact h.home b' hb'

/-! ## Clusters -/

theorem testBit_clearBit {mask k j : Nat} (hj : j < 32) :
    (clearBit mask k).testBit j = (mask.testBit j && decide (j ≠ k)) := by
  rw [clearBit, Nat.testBit_and, Nat.testBit_xor, Nat.testBit_two_pow_sub_one,
    Nat.testBit_two_pow]
  by_cases hk : k = j
  · simp [hj, hk]
  · simp [hj, hk, Ne.symm hk]

/-- The state after the first cluster of a pool is taken. -/
def takenC (s : State) (p q c : Nat) (rest : List Nat) : State :=
  ((s.setClPool q fun pool =>
    { pool with pClHead := rest, clNumFree := pool.clNumFree - 1,
                clUsage := pool.clUsage + 1 }).setPool p fun pool =>
    { pool with clMask :=
        if rest = [] then clearBit pool.clMask (s.clPools q).clLg2
        else pool.clMask }).setClOwner c .caller

theorem clusterGet_cons {rest : List Nat} (hq : (s.clPools q).pClHead = c :: rest) :
    clusterGet s p q = (takenC s p q c rest, some c) := by
  rw [clusterGet, hq]
  rfl

theorem clusterGet_nil (hq : (s.clPools q).pClHead = []) : clusterGet s p q = (s, none) := by
  rw [clusterGet, hq]

theorem CInv.head (h : CInv s) {rest : List Nat} (hq : (s.clPools q).pClHead = c :: rest) :
    c < s.nClusters ∧ s.clPoolOf c = q ∧ s.clOwner c = .free := by
  have hmem : c ∈ (s.clPools q).pClHead := by simp [hq]
  exact (h.lists.mem q c).1 hmem

theorem CInv.taken (h : CInv s) {rest : List Nat} (hq : (s.clPools q).pClHead = c :: rest)
    (hp : (s.clPools q).pNetPool = p) : CInv (takenC s p q c rest) := by
  obtain ⟨hc, hpool, hfree⟩ := h.head hq
  have hlt : q < s.nClPools := by
    have := h.home c hc
    rwa [hpool] at this
  have howner : ∀ c', (takenC s p q c rest).clOwner c' =
      if c' = c then .caller else s.clOwner c' := by
    intro c'
    simp only [takenC, State.setClOwner, State.setClPool, State.setPool, Function.update_apply]
  have hhead : ∀ q', ((takenC s p q c rest).clPools q').pClHead =
      if q' = q then rest else (s.clPools q').pClHead := by
    intro q'
    simp only [takenC, State.setClOwner, State.setClPool, State.setPool, Function.update_apply]
    split <;> rfl
  have hlg2 : ∀ q', ((takenC s p q c rest).clPools q').clLg2 = (s.clPools q').clLg2 := by
    intro q'
    simp only [takenC, State.setClOwner, State.setClPool, State.setPool, Function.update_apply]
    split <;> simp_all
  have hnet : ∀ q', ((takenC s p q c rest).clPools q').pNetPool = (s.clPools q').pNetPool := by
    intro q'
    simp only [takenC, State.setClOwner, State.setClPool, State.setPool, Function.update_apply]
    split <;> simp_all
  have hmask : ∀ p', ((takenC s p q c rest).pools p').clMask =
      if p' = p ∧ rest = [] then clearBit (s.pools p').clMask (s.clPools q).clLg2
      else (s.pools p').clMask := by
    intro p'
    simp only [takenC, State.setClOwner, State.setClPool, State.setPool, Function.update_apply]
    split <;> simp_all
  refine ⟨?_, fun c' hc' => ?_, fun q' => ?_, fun q' hq' => ?_, h.home, ?_, ?_, ?_⟩
  · refine h.lists.pop hq ?_ ?_ ?_
    · simp [hhead]
    · intro q' hq'
      simp [hhead, hq']
    · intro c'
      rw [howner]
      split <;> simp_all
  · rw [howner] at hc'
    split at hc'
    · subst_vars
      exact hc
    · exact h.inDom c' hc'
  · have hcount := h.counts q'
    rw [hhead]
    simp only [takenC, State.setClOwner, State.setClPool, State.setPool, Function.update_apply]
    split
    · subst_vars
      rw [hq, List.length_cons] at hcount
      simp only [hcount]
      omega
    · exact hcount
  · have hold := h.mask q' hq'
    have hrange := h.lg2 q' hq'
    have hlt32 : (s.clPools q').clLg2 < 32 := by
      have : CL_LOG2_MAX = 16 := rfl
      omega
    rw [hmask, hlg2, hnet, hhead]
    by_cases hqq : q' = q
    · subst hqq
      rw [if_pos rfl]
      by_cases hrest : rest = []
      · rw [if_pos ⟨hp, hrest⟩, testBit_clearBit hlt32]
        simp [hrest]
      · rw [if_neg (by simp [hrest]), hold, hq]
        simp [hrest]
    · rw [if_neg hqq]
      split
      · rename_i hcond
        have hne : (s.clPools q').clLg2 ≠ (s.clPools q).clLg2 := fun heq =>
          hqq (h.distinct q' hq' q hlt (hcond.1.trans hp.symm) heq)
        rw [testBit_clearBit hlt32, hold]
        simp [hne]
      · exact hold
  · simp only [hnet]
    exact h.netPool
  · simp only [hnet, hlg2]
    exact h.distinct
  · simp only [hlg2]
    exact h.lg2

theorem CInv.returned (h : CInv s) (hc : s.clOwner c ≠ .free) : CInv (clusterReturn s c) := by
  have hlt : s.clPoolOf c < s.nClPools := h.home c (h.inDom c hc)
  have howner : ∀ c', (clusterReturn s c).clOwner c' =
      if c' = c then .free else s.clOwner c' := by
    intro c'
    simp only [clusterReturn, State.setClOwner, State.setClPool, State.setPool,
      Function.update_apply]
  have hhead : ∀ q', ((clusterReturn s c).clPools q').pClHead =
      if q' = s.clPoolOf c then c :: (s.clPools q').pClHead else (s.clPools q').pClHead := by
    intro q'
    simp only [clusterReturn, State.setClOwner, State.setClPool, State.setPool,
      Function.update_apply]
    split <;> simp_all
  have hlg2 : ∀ q', ((clusterReturn s c).clPools q').clLg2 = (s.clPools q').clLg2 := by
    intro q'
    simp only [clusterReturn, State.setClOwner, State.setClPool, State.setPool,
      Function.update_apply]
    split <;> simp_all
  have hnet : ∀ q', ((clusterReturn s c).clPools q').pNetPool = (s.clPools q').pNetPool := by
    intro q'
    simp only [clusterReturn, State.setClOwner, State.setClPool, State.setPool,
      Function.update_apply]
    split <;> simp_all
  have hmask : ∀ p', ((clusterReturn s c).pools p').clMask =
      if p' = (s.clPools (s.clPoolOf c)).pNetPool then
        (s.pools p').clMask ||| 2 ^ (s.clPools (s.clPoolOf c)).clLg2
      else (s.pools p').clMask := by
    intro p'
    simp only [clusterReturn, State.setClOwner, State.setClPool, State.setPool,
      Function.update_apply]
    split <;> simp_all
  refine ⟨?_, fun c' hc' => ?_, fun q' => ?_, fun q' hq' => ?_, h.home, ?_, ?_, ?_⟩
  · refine h.lists.push (h.inDom c hc) rfl hc ?_ ?_ ?_
    · simp [hhead]
    · intro q' hq'
      simp [hhead, hq']
    · intro c'
      rw [howner]
      split <;> simp_all
  · rw [howner] at hc'
    split at hc'
    · simp at hc'
    · exact h.inDom c' hc'
  · have hcount := h.counts q'
    rw [hhead]
    simp only [clusterReturn, State.setClOwner, State.setClPool, State.setPool,
      Function.update_apply]
    split
    · rename_i heq
      rw [heq] at hcount
      simp [hcount, heq]
    · exact hcount
  · have hold := h.mask q' hq'
    rw [hmask, hlg2, hnet, hhead]
    by_cases hqq : q' = s.clPoolOf c
    · rw [if_pos hqq, hqq, if_pos rfl, Nat.testBit_or, Nat.testBit_two_pow]
      simp
    · rw [if_neg hqq]
      split
      · rename_i hcond
        have hne : (s.clPools (s.clPoolOf c)).clLg2 ≠ (s.clPools q').clLg2 := fun heq =>
          hqq (h.distinct q' hq' _ hlt hcond heq.symm)
        rw [Nat.testBit_or, Nat.testBit_two_pow, hold]
        simp [hne]
      · exact hold
  · simp only [hnet]
    exact h.netPool
  · simp only [hnet, hlg2]
    exact h.distinct
  · simp only [hlg2]
    exact h.lg2

/-! ## References -/

theorem refs_congr (hn : s'.nMblks = s.nMblks)
    (h : ∀ m, RefersTo s' b m ↔ RefersTo s b m) : refs s' b = refs s b := by
  simp only [refs, hn, h]

/-- A change at one mBlk changes the count by what it changes there. -/
theorem refs_change (hn : s'.nMblks = s.nMblks) (hm : m < s.nMblks)
    (h : ∀ m', m' ≠ m → (RefersTo s' b m' ↔ RefersTo s b m')) :
    refs s' b + (if RefersTo s b m then 1 else 0) =
      refs s b + if RefersTo s' b m then 1 else 0 := by
  rw [refs, refs, hn]
  exact card_filter_change (Finset.mem_range.2 hm) h

/-- References to clBlks stay as they are when the mBlks that are handed out or come back have
none. -/
theorem RInv.of_used (h : RInv s) (hn : s'.nMblks = s.nMblks)
    (hm : ∀ m b, s'.used m = true ∧ (s'.mBlks m).ext = true ∧ (s'.mBlks m).pClBlk = some b ↔
      s.used m = true ∧ (s.mBlks m).ext = true ∧ (s.mBlks m).pClBlk = some b)
    (hext : ∀ m, s'.used m = true → (s'.mBlks m).ext = true → ∃ b, (s'.mBlks m).pClBlk = some b)
    (hb : s'.clBlks = s.clBlks) (howner : s'.clBlkOwner = s.clBlkOwner)
    (hclOwner : s'.clOwner = s.clOwner) : RInv s' where
  shared b hown := by
    have hrefs : refs s' b = refs s b := refs_congr hn fun m => hm m b
    rw [howner] at hown
    rw [hb, hclOwner, hrefs]
    exact h.shared b hown
  raw b hown := by
    rw [howner] at hown
    rw [hb]
    exact h.raw b hown
  back c b hown := by
    rw [hclOwner] at hown
    rw [howner, hb]
    exact h.back c b hown
  ext m hu he := by
    obtain ⟨b, hp⟩ := hext m hu he
    obtain ⟨hu', he', hp'⟩ := (hm m b).1 ⟨hu, he, hp⟩
    obtain ⟨b', hb', hown⟩ := h.ext m hu' he'
    obtain rfl : b = b' := by simpa [hp'] using hb'
    exact ⟨b, hp, by rw [howner, hown]⟩

theorem RInv.takenM (h : RInv s) {rest : List Nat} {type : Nat} (hfree : s.used m = false) :
    RInv (takenM s p m rest type) := by
  refine h.of_used rfl (fun m' b => ?_) (fun m' hu he => ?_) rfl rfl rfl
  · simp only [NetBuf.takenM, State.setUsed, State.setMblk, State.setPool, Function.update_apply]
    by_cases hm : m' = m
    · subst hm
      simp [hfree]
    · simp [hm]
  · simp only [NetBuf.takenM, State.setUsed, State.setMblk, State.setPool,
      Function.update_apply] at hu he ⊢
    by_cases hm : m' = m
    · simp [hm] at he
    · rw [if_neg hm] at hu he ⊢
      obtain ⟨b, hb, _⟩ := h.ext m' hu he
      exact ⟨b, hb⟩

theorem RInv.freedM (h : RInv s) (hext : (s.mBlks m).ext = false) : RInv (mBlkFree s p m) := by
  refine h.of_used rfl (fun m' b => ?_) (fun m' hu he => ?_) rfl rfl rfl
  · simp only [mBlkFree, State.setUsed, State.setMblk, State.setPool, Function.update_apply]
    by_cases hm : m' = m
    · subst hm
      simp [hext]
    · simp [hm]
  · simp only [mBlkFree, State.setUsed, State.setMblk, State.setPool,
      Function.update_apply] at hu he ⊢
    by_cases hm : m' = m
    · simp [hm] at hu
    · rw [if_neg hm] at hu he ⊢
      obtain ⟨b, hb, _⟩ := h.ext m' hu he
      exact ⟨b, hb⟩

/-- A clBlk without references changes hands between its list and a caller. -/
theorem RInv.of_owner (h : RInv s) (hold : s.clBlkOwner b ≠ .mBlks) {o : ClBlkOwner}
    (ho : o ≠ .mBlks) (hmb : s'.mBlks = s.mBlks) (hu : s'.used = s.used)
    (hn : s'.nMblks = s.nMblks) (hclOwner : s'.clOwner = s.clOwner)
    (howner : ∀ b', s'.clBlkOwner b' = if b' = b then o else s.clBlkOwner b')
    (hb : ∀ b', b' ≠ b → s'.clBlks b' = s.clBlks b')
    (hraw : o = .caller → (s'.clBlks b).pClBuf = none) : RInv s' := by
  have hrefs : ∀ b, refs s' b = refs s b := by
    intro b
    exact refs_congr hn fun m => by simp only [RefersTo, hmb, hu]
  refine ⟨fun b' hown => ?_, fun b' hown => ?_, fun c b' hown => ?_, fun m hm he => ?_⟩
  · rw [howner] at hown
    split at hown
    · exact absurd hown ho
    · rename_i hne
      rw [hb b' hne, hclOwner, hrefs]
      exact h.shared b' hown
  · rw [howner] at hown
    split at hown
    · subst_vars
      exact hraw rfl
    · rename_i hne
      rw [hb b' hne]
      exact h.raw b' hown
  · rw [hclOwner] at hown
    obtain ⟨hm, hbuf⟩ := h.back c b' hown
    have hne : b' ≠ b := by
      rintro rfl
      exact hold hm
    rw [howner, if_neg hne, hb b' hne]
    exact ⟨hm, hbuf⟩
  · rw [hu] at hm
    rw [hmb] at he ⊢
    obtain ⟨b', hb', hown⟩ := h.ext m hm he
    have hne : b' ≠ b := by
      rintro rfl
      exact hold hown
    exact ⟨b', hb', by rw [howner, if_neg hne, hown]⟩

/-- A cluster that no clBlk has changes hands between its list and a caller. -/
theorem RInv.of_clOwner (h : RInv s) (hold : ∀ b, s.clOwner c ≠ .clBlk b) {o : ClOwner}
    (ho : ∀ b, o ≠ .clBlk b) (hmb : s'.mBlks = s.mBlks) (hu : s'.used = s.used)
    (hn : s'.nMblks = s.nMblks) (hb : s'.clBlks = s.clBlks)
    (howner : s'.clBlkOwner = s.clBlkOwner)
    (hclOwner : ∀ c', s'.clOwner c' = if c' = c then o else s.clOwner c') : RInv s' := by
  have hrefs : ∀ b, refs s' b = refs s b := by
    intro b
    exact refs_congr hn fun m => by simp only [RefersTo, hmb, hu]
  refine ⟨fun b hown => ?_, fun b hown => ?_, fun c' b hown => ?_, fun m hm he => ?_⟩
  · rw [howner] at hown
    obtain ⟨c', hbuf, hc', hcount, hpos⟩ := h.shared b hown
    have hne : c' ≠ c := by
      rintro rfl
      exact hold b hc'
    exact ⟨c', by rw [hb, hbuf], by rw [hclOwner, if_neg hne, hc'], by rw [hb, hcount, hrefs],
      by rw [hrefs]; exact hpos⟩
  · rw [howner] at hown
    rw [hb]
    exact h.raw b hown
  · rw [hclOwner] at hown
    split at hown
    · exact absurd hown (ho b)
    · rw [howner, hb]
      exact h.back c' b hown
  · rw [hu] at hm
    rw [hmb] at he ⊢
    rw [howner]
    exact h.ext m hm he

/-- A clBlk of a caller has no references. -/
theorem RInv.refs_raw (h : RInv s) (hown : s.clBlkOwner b ≠ .mBlks) (m : Nat) :
    ¬ RefersTo s b m := by
  rintro ⟨hu, he, hp⟩
  obtain ⟨b', hb', hown'⟩ := h.ext m hu he
  obtain rfl : b = b' := by simpa [hp] using hb'
  exact hown hown'

/-- A clBlk gets a cluster and its first reference. -/
theorem RInv.attached {clSize : Nat} (h : RInv s) (hm : m < s.nMblks) (hu : s.used m = true)
    (hext : (s.mBlks m).ext = false) (hb : s.clBlkOwner b = .caller)
    (hc : s.clOwner c = .caller) : RInv (attachCl s m b c clSize) := by
  have hmblk : ∀ m', (attachCl s m b c clSize).mBlks m' = if m' = m then
      { s.mBlks m with ext := true, pClBlk := some b } else s.mBlks m' := by
    intro m'
    simp only [attachCl, State.setClOwner, State.setClBlkOwner, State.setClBlk, State.setMblk,
      Function.update_apply]
  have hclBlk : ∀ b', (attachCl s m b c clSize).clBlks b' = if b' = b then
      { s.clBlks b with pClBuf := some c, clSize := clSize, clRefCount := 1 }
      else s.clBlks b' := by
    intro b'
    simp only [attachCl, State.setClOwner, State.setClBlkOwner, State.setClBlk, State.setMblk,
      Function.update_apply]
  have howner : ∀ b', (attachCl s m b c clSize).clBlkOwner b' =
      if b' = b then .mBlks else s.clBlkOwner b' := by
    intro b'
    simp only [attachCl, State.setClOwner, State.setClBlkOwner, State.setClBlk, State.setMblk,
      Function.update_apply]
  have hclOwner : ∀ c', (attachCl s m b c clSize).clOwner c' =
      if c' = c then .clBlk b else s.clOwner c' := by
    intro c'
    simp only [attachCl, State.setClOwner, State.setClBlkOwner, State.setClBlk, State.setMblk,
      Function.update_apply]
  have hother : ∀ b' m', m' ≠ m →
      (RefersTo (attachCl s m b c clSize) b' m' ↔ RefersTo s b' m') := by
    intro b' m' hm'
    simp only [RefersTo, hmblk, if_neg hm']
    rfl
  have hself : ∀ b', RefersTo (attachCl s m b c clSize) b' m ↔ b = b' := by
    intro b'
    simp only [RefersTo, hmblk, if_true, Option.some.injEq, true_and]
    exact and_iff_right hu
  have hbefore : ∀ b', ¬ RefersTo s b' m := by
    intro b' hr
    rw [RefersTo, hext] at hr
    simp at hr
  have hrefs : ∀ b', refs (attachCl s m b c clSize) b' = if b' = b then 1 else refs s b' := by
    intro b'
    have hchange : refs (attachCl s m b c clSize) b' + (if RefersTo s b' m then 1 else 0) =
        refs s b' + if RefersTo (attachCl s m b c clSize) b' m then 1 else 0 :=
      refs_change rfl hm (hother b')
    rw [if_neg (hbefore b')] at hchange
    simp only [hself] at hchange
    split
    · subst_vars
      have hzero : refs s b' = 0 := by
        rw [refs, Finset.card_eq_zero, Finset.filter_eq_empty_iff]
        exact fun m' _ => h.refs_raw (by simp [hb]) m'
      simpa [hzero] using hchange
    · rename_i hne
      simpa [Ne.symm hne] using hchange
  refine ⟨fun b' hown => ?_, fun b' hown => ?_, fun c' b' hown => ?_, fun m' hm' he => ?_⟩
  · rw [howner] at hown
    rw [hclBlk, hrefs]
    split
    · subst_vars
      exact ⟨c, rfl, by simp [hclOwner], by simp, by simp⟩
    · rename_i hne
      rw [if_neg hne] at hown
      obtain ⟨c', hbuf, hc', hcount⟩ := h.shared b' hown
      have hcc : c' ≠ c := by
        rintro rfl
        simp [hc] at hc'
      exact ⟨c', hbuf, by rw [hclOwner, if_neg hcc, hc'], hcount⟩
  · rw [howner] at hown
    split at hown
    · simp at hown
    · rename_i hne
      rw [hclBlk, if_neg hne]
      exact h.raw b' hown
  · rw [hclOwner] at hown
    rw [howner, hclBlk]
    split at hown
    · obtain rfl : b = b' := by simpa using hown
      subst_vars
      simp
    · obtain ⟨hmb, hbuf⟩ := h.back c' b' hown
      have hne : b' ≠ b := by
        rintro rfl
        simp [hb] at hmb
      simp [hne, hmb, hbuf]
  · have hm2 : s.used m' = true := hm'
    rw [hmblk] at he ⊢
    by_cases hmm : m' = m
    · exact ⟨b, by simp [hmm], by simp [howner]⟩
    · rw [if_neg hmm] at he ⊢
      obtain ⟨b', hb', hown⟩ := h.ext m' hm2 he
      have hne : b' ≠ b := by
        rintro rfl
        simp [hb] at hown
      exact ⟨b', hb', by rw [howner, if_neg hne, hown]⟩

/-- A new mBlk shares the clBlk of an old one. -/
theorem RInv.duped {new old : Nat} {copyhdr : Bool} {len offs : Int} (h : RInv s)
    (hnew : new < s.nMblks) (hu : s.used new = true) (hext : (s.mBlks new).ext = false)
    (hold : RefersTo s b old) : RInv (dupBlk s new old b copyhdr len offs) := by
  have hmblk : ∀ m', m' ≠ new →
      (dupBlk s new old b copyhdr len offs).mBlks m' = s.mBlks m' := by
    intro m' hm'
    simp [dupBlk, State.setClBlk, State.setMblk, Function.update_of_ne hm']
  have hnewExt : ((dupBlk s new old b copyhdr len offs).mBlks new).ext = true := by
    simp [dupBlk, State.setClBlk, State.setMblk, hold.2.1]
  have hnewBlk : ((dupBlk s new old b copyhdr len offs).mBlks new).pClBlk = some b := by
    simp [dupBlk, State.setClBlk, State.setMblk]
  have hclBlk : ∀ b', (dupBlk s new old b copyhdr len offs).clBlks b' = if b' = b then
      { s.clBlks b with clRefCount := (s.clBlks b).clRefCount + 1 } else s.clBlks b' := by
    intro b'
    simp only [dupBlk, State.setClBlk, State.setMblk, Function.update_apply]
  have hother : ∀ b' m', m' ≠ new →
      (RefersTo (dupBlk s new old b copyhdr len offs) b' m' ↔ RefersTo s b' m') := by
    intro b' m' hm'
    simp only [RefersTo, hmblk m' hm']
    rfl
  have hself : ∀ b', RefersTo (dupBlk s new old b copyhdr len offs) b' new ↔ b = b' := by
    intro b'
    simp only [RefersTo, hnewExt, hnewBlk, Option.some.injEq, true_and]
    exact and_iff_right hu
  have hbefore : ∀ b', ¬ RefersTo s b' new := by
    intro b' hr
    rw [RefersTo, hext] at hr
    simp at hr
  have hrefs : ∀ b', refs (dupBlk s new old b copyhdr len offs) b' =
      refs s b' + if b = b' then 1 else 0 := by
    intro b'
    have hchange : refs (dupBlk s new old b copyhdr len offs) b' +
        (if RefersTo s b' new then 1 else 0) =
        refs s b' + if RefersTo (dupBlk s new old b copyhdr len offs) b' new then 1 else 0 :=
      refs_change rfl hnew (hother b')
    simpa only [if_neg (hbefore b'), hself, Nat.add_zero] using hchange
  have hownerB : s.clBlkOwner b = .mBlks := by
    by_contra hne
    exact h.refs_raw hne old hold
  refine ⟨fun b' hown => ?_, fun b' hown => ?_, fun c' b' hown => ?_, fun m' hm' he => ?_⟩
  · obtain ⟨c', hbuf, hc', hcount, hpos⟩ := h.shared b' hown
    rw [hclBlk, hrefs]
    by_cases hbb : b' = b
    · subst hbb
      exact ⟨c', by simp [hbuf], hc', by simp [hcount], by simp⟩
    · rw [if_neg hbb, if_neg (Ne.symm hbb)]
      exact ⟨c', hbuf, hc', hcount, hpos⟩
  · have hne : b' ≠ b := by
      rintro rfl
      have : s.clBlkOwner b' = .caller := hown
      simp [hownerB] at this
    rw [hclBlk, if_neg hne]
    exact h.raw b' hown
  · obtain ⟨hmb, hbuf⟩ := h.back c' b' hown
    rw [hclBlk]
    refine ⟨hmb, ?_⟩
    split
    · subst_vars
      exact hbuf
    · exact hbuf
  · by_cases hmm : m' = new
    · subst hmm
      exact ⟨b, hnewBlk, hownerB⟩
    · rw [hmblk m' hmm] at he ⊢
      exact h.ext m' hm' he

/-- The last reference of a clBlk, or one of several, goes with its mBlk. -/
structure Released (s s' : State) (m b : Nat) (o : ClBlkOwner) : Prop where
  refers : RefersTo s b m
  nMblks : s'.nMblks = s.nMblks
  used : ∀ m', s'.used m' = if m' = m then false else s.used m'
  ext : ∀ m', (s'.mBlks m').ext = (s.mBlks m').ext
  pClBlk : ∀ m', (s'.mBlks m').pClBlk = (s.mBlks m').pClBlk
  pClBuf : ∀ b', (s'.clBlks b').pClBuf = (s.clBlks b').pClBuf
  count : ∀ b', b' ≠ b → (s'.clBlks b').clRefCount = (s.clBlks b').clRefCount
  owner : ∀ b', s'.clBlkOwner b' = if b' = b then o else s.clBlkOwner b'

namespace Released

variable {o : ClBlkOwner}

theorem refers_iff (h : Released s s' m b o) (b' m' : Nat) :
    RefersTo s' b' m' ↔ m' ≠ m ∧ RefersTo s b' m' := by
  simp only [RefersTo, h.used, h.ext, h.pClBlk]
  split
  · simp_all
  · simp_all

theorem refs_eq (h : Released s s' m b o) (hm : m < s.nMblks) (b' : Nat) :
    refs s' b' + (if b = b' then 1 else 0) = refs s b' := by
  have hchange : refs s' b' + (if RefersTo s b' m then 1 else 0) =
      refs s b' + if RefersTo s' b' m then 1 else 0 :=
    refs_change h.nMblks hm fun m' hm' => by simp [h.refers_iff, hm']
  have hself : RefersTo s b' m ↔ b = b' := by
    obtain ⟨hu, he, hp⟩ := h.refers
    simp [RefersTo, hu, he, hp]
  simpa only [h.refers_iff, ne_eq, not_true_eq_false, false_and, if_false, hself,
    Nat.add_zero] using hchange

/-- One of several references goes. -/
theorem shared (h : Released s s' m b .mBlks) (hinv : RInv s) (hm : m < s.nMblks)
    (hmany : 1 < refs s b) (hcount : (s'.clBlks b).clRefCount = (s.clBlks b).clRefCount - 1)
    (hclOwner : s'.clOwner = s.clOwner) : RInv s' := by
  have hownerB : s.clBlkOwner b = .mBlks := by
    by_contra hne
    exact hinv.refs_raw hne m h.refers
  have howner : ∀ b', s'.clBlkOwner b' = s.clBlkOwner b' := by
    intro b'
    rw [h.owner]
    split
    · subst_vars
      exact hownerB.symm
    · rfl
  refine ⟨fun b' hown => ?_, fun b' hown => ?_, fun c' b' hown => ?_, fun m' hm' he => ?_⟩
  · rw [howner] at hown
    obtain ⟨c', hbuf, hc', hcnt, hpos⟩ := hinv.shared b' hown
    have hrefs := h.refs_eq hm b'
    refine ⟨c', by rw [h.pClBuf, hbuf], by rw [hclOwner, hc'], ?_, ?_⟩
    · by_cases hbb : b' = b
      · subst hbb
        rw [if_pos rfl] at hrefs
        omega
      · rw [if_neg (Ne.symm hbb)] at hrefs
        rw [h.count b' hbb, hcnt]
        omega
    · by_cases hbb : b' = b
      · subst hbb
        rw [if_pos rfl] at hrefs
        omega
      · rw [if_neg (Ne.symm hbb)] at hrefs
        omega
  · rw [howner] at hown
    rw [h.pClBuf]
    exact hinv.raw b' hown
  · rw [hclOwner] at hown
    rw [howner, h.pClBuf]
    exact hinv.back c' b' hown
  · rw [h.used] at hm'
    split at hm'
    · simp at hm'
    · rw [h.ext] at he
      obtain ⟨b', hb', hown⟩ := hinv.ext m' hm' he
      exact ⟨b', by rw [h.pClBlk, hb'], by rw [howner, hown]⟩

/-- The last reference goes: the clBlk and its cluster are free. -/
theorem last (h : Released s s' m b .free) (hinv : RInv s)
    (hdom : ∀ m, s.used m = true → m < s.nMblks) (hone : refs s b = 1) (hbuf : (s.clBlks b).pClBuf = some c)
    (hclOwner : ∀ c', s'.clOwner c' = if c' = c then .free else s.clOwner c') : RInv s' := by
  have hownerB : s.clBlkOwner b = .mBlks := by
    by_contra hne
    exact hinv.refs_raw hne m h.refers
  have hownerC : s.clOwner c = .clBlk b := by
    obtain ⟨c', hbuf', hc', _⟩ := hinv.shared b hownerB
    obtain rfl : c = c' := by simpa [hbuf] using hbuf'
    exact hc'
  have hm : m < s.nMblks := hdom m h.refers.1
  have hnone : refs s' b = 0 := by
    have := h.refs_eq hm b
    rw [if_pos rfl] at this
    omega
  refine ⟨fun b' hown => ?_, fun b' hown => ?_, fun c' b' hown => ?_, fun m' hm' he => ?_⟩
  · rw [h.owner] at hown
    split at hown
    · simp at hown
    · rename_i hbb
      obtain ⟨c', hbuf', hc', hcnt, hpos⟩ := hinv.shared b' hown
      have hcc : c' ≠ c := by
        rintro rfl
        rw [hownerC] at hc'
        exact hbb (by simpa using hc'.symm)
      have hrefs := h.refs_eq hm b'
      rw [if_neg (Ne.symm hbb)] at hrefs
      exact ⟨c', by rw [h.pClBuf, hbuf'], by rw [hclOwner, if_neg hcc, hc'],
        by rw [h.count b' hbb, hcnt]; omega, by omega⟩
  · rw [h.owner] at hown
    split at hown
    · simp at hown
    · rw [h.pClBuf]
      exact hinv.raw b' hown
  · rw [hclOwner] at hown
    split at hown
    · simp at hown
    · rename_i hcc
      obtain ⟨hmb, hbuf'⟩ := hinv.back c' b' hown
      have hbb : b' ≠ b := by
        rintro rfl
        exact hcc (by simpa [hbuf] using hbuf'.symm)
      rw [h.owner, if_neg hbb, h.pClBuf]
      exact ⟨hmb, hbuf'⟩
  · have hu := hm'
    rw [h.used] at hm'
    split at hm'
    · simp at hm'
    · have he' := he
      rw [h.ext] at he
      obtain ⟨b', hb', hown⟩ := hinv.ext m' hm' he
      have hbb : b' ≠ b := by
        -- another mBlk with this clBlk would be a second reference
        rintro rfl
        rw [refs, Finset.card_eq_zero, Finset.filter_eq_empty_iff] at hnone
        have hlt : m' < s'.nMblks := by
          rw [h.nMblks]
          exact hdom m' hm'
        exact hnone (Finset.mem_range.2 hlt) ⟨hu, he', by rw [h.pClBlk, hb']⟩
      exact ⟨b', by rw [h.pClBlk, hb'], by rw [h.owner, if_neg hbb, hown]⟩

end Released

end Vmx.NetBuf