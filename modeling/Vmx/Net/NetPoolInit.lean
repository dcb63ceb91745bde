import Mathlib.Data.List.TakeWhile
import Mathlib.Data.Nat.Bitwise
import Vmx.Net.NetPool

/-!
# New pools

`netPoolInit` carves the mBlks and clBlks of a pool, and then the clusters of each size.  A pool
is conserved from the start when its statistics start at zero and no two of its sizes have the same
logarithm.
-/

namespace Vmx.NetBuf

open Lib Vmx.Os

variable {s s' : State} {p q n k : Nat} {stat : Nat → Nat} {home : Nat → Nat}

/-! ## The mBlks and clBlks -/

/-- A pool with new mBlks and clBlks. -/
def newPool (s : State) (n k : Nat) (stat home : Nat → Nat) : State :=
  { s with
    nPools := s.nPools + 1
    pools := Function.update s.pools s.nPools
      { pmBlkHead := List.range' s.nMblks n
        mBlkCount := n
        mBlkFree := n
        mTypes := stat
        pClBlkHead := List.range' s.nClBlks k }
    nMblks := s.nMblks + n
    mBlks := fun m =>
      if s.nMblks ≤ m ∧ m < s.nMblks + n then { netPool := s.nPools } else s.mBlks m
    nClBlks := s.nClBlks + k
    clBlkPool := home }

theorem newPool_mBlk_old {m : Nat} (hm : m < s.nMblks) :
    (newPool s n k stat home).mBlks m = s.mBlks m := by
  have hold : ¬ (s.nMblks ≤ m ∧ m < s.nMblks + n) := by omega
  simp only [newPool, if_neg hold]

theorem newPool_mBlk_new {i : Nat} (hi : i < n) :
    (newPool s n k stat home).mBlks (s.nMblks + i) = { netPool := s.nPools } := by
  have hnew : s.nMblks ≤ s.nMblks + i ∧ s.nMblks + i < s.nMblks + n := by omega
  simp only [newPool, if_pos hnew]

theorem newPool_pool_old (hp : p ≠ s.nPools) :
    (newPool s n k stat home).pools p = s.pools p := by
  simp only [newPool, Function.update_of_ne hp]

/-- The blocks of a pool that meet a condition, before and after there is a new pool. -/
theorem newPool_count (h : MInv s) (t : Nat) (p : Nat) :
    ((Finset.range (s.nMblks + n)).filter fun m =>
      ((newPool s n k stat home).mBlks m).netPool = p ∧
        ((newPool s n k stat home).mBlks m).mType = t).card =
    if p = s.nPools then (if t = MT_FREE then n else 0) else
      ((Finset.range s.nMblks).filter fun m =>
        (s.mBlks m).netPool = p ∧ (s.mBlks m).mType = t).card := by
  have hold : ((Finset.range s.nMblks).filter fun m =>
      ((newPool s n k stat home).mBlks m).netPool = p ∧
        ((newPool s n k stat home).mBlks m).mType = t) =
      (Finset.range s.nMblks).filter fun m => (s.mBlks m).netPool = p ∧ (s.mBlks m).mType = t := by
    refine Finset.filter_congr fun m hm => ?_
    rw [newPool_mBlk_old (Finset.mem_range.1 hm)]
  have hnew : ((Finset.range n).filter fun i =>
      ((newPool s n k stat home).mBlks (s.nMblks + i)).netPool = p ∧
        ((newPool s n k stat home).mBlks (s.nMblks + i)).mType = t) =
      (Finset.range n).filter fun _ => s.nPools = p ∧ MT_FREE = t := by
    refine Finset.filter_congr fun i hi => ?_
    rw [newPool_mBlk_new (Finset.mem_range.1 hi)]
  rw [card_filter_range_add, hold, hnew, Finset.filter_const]
  by_cases hp : p = s.nPools
  · subst hp
    have hnone : ((Finset.range s.nMblks).filter fun m =>
        (s.mBlks m).netPool = s.nPools ∧ (s.mBlks m).mType = t) = ∅ := by
      refine Finset.filter_false_of_mem fun m hm => ?_
      have := h.home m (Finset.mem_range.1 hm)
      omega
    rw [hnone]
    by_cases ht : t = MT_FREE
    · simp [ht]
    · simp [ht, Ne.symm ht]
  · simp [hp, Ne.symm hp]

theorem newPool_few (h : MInv s) (hn : n < 2 ^ 31) (hp : p < s.nPools + 1) :
    ((Finset.range (s.nMblks + n)).filter fun m =>
      ((newPool s n k stat home).mBlks m).netPool = p).card < 2 ^ 31 := by
  have hold : ((Finset.range s.nMblks).filter fun m =>
      ((newPool s n k stat home).mBlks m).netPool = p) =
      (Finset.range s.nMblks).filter fun m => (s.mBlks m).netPool = p := by
    refine Finset.filter_congr fun m hm => ?_
    rw [newPool_mBlk_old (Finset.mem_range.1 hm)]
  have hnew : ((Finset.range n).filter fun i =>
      ((newPool s n k stat home).mBlks (s.nMblks + i)).netPool = p) =
      (Finset.range n).filter fun _ => s.nPools = p := by
    refine Finset.filter_congr fun i hi => ?_
    rw [newPool_mBlk_new (Finset.mem_range.1 hi)]
  rw [card_filter_range_add, hold, hnew, Finset.filter_const]
  by_cases hpn : p = s.nPools
  · subst hpn
    have hnone : ((Finset.range s.nMblks).filter fun m =>
        (s.mBlks m).netPool = s.nPools) = ∅ := by
      refine Finset.filter_false_of_mem fun m hm => ?_
      have := h.home m (Finset.mem_range.1 hm)
      omega
    simpa [hnone] using hn
  · simpa [Ne.symm hpn] using h.few p (by omega)

theorem MInv.newPool (h : MInv s) (hn : n < 2 ^ 31)
    (hstat : ∀ t < 256, stat t = if t = MT_FREE then n else 0) :
    MInv (newPool s n k stat home) where
  lists := by
    refine h.lists.grow s.nPools (List.range' s.nMblks n) List.nodup_range'
      (fun m hm => ?_) ?_ (fun p' hp' => ?_) (fun m => ?_) (fun m hm => ?_) fun m hm => ?_
    · have := h.home m hm
      omega
    · simp [NetBuf.newPool]
    · rw [newPool_pool_old hp']
    · simp only [NetBuf.newPool, List.mem_range'_1]
      omega
    · rw [newPool_mBlk_old hm]
    · obtain ⟨hle, hlt⟩ := List.mem_range'_1.1 hm
      obtain ⟨i, rfl⟩ := Nat.exists_eq_add_of_le hle
      refine ⟨by rw [newPool_mBlk_new (by omega)], ?_⟩
      by_contra hu
      have := h.inDom (s.nMblks + i) (by simpa using hu)
      omega
  inDom m hm := Nat.lt_of_lt_of_le (h.inDom m hm) (Nat.le_add_right _ _)
  type m := by
    by_cases hm : s.nMblks ≤ m ∧ m < s.nMblks + n
    · have hfree : s.used m = false := by
        by_contra hu
        have := h.inDom m (by simpa using hu)
        omega
      simp [NetBuf.newPool, hm, hfree]
    · simp only [NetBuf.newPool, if_neg hm]
      exact h.type m
  type_lt m := by
    by_cases hm : s.nMblks ≤ m ∧ m < s.nMblks + n
    · simp [NetBuf.newPool, hm, MT_FREE]
    · simp only [NetBuf.newPool, if_neg hm]
      exact h.type_lt m
  stats p hp t ht := by
    refine Eq.trans ?_ (newPool_count h t p).symm
    split
    · subst_vars
      simp [NetBuf.newPool, hstat t ht]
    · rename_i hne
      rw [newPool_pool_old hne]
      have hlt : p < s.nPools + 1 := hp
      exact h.stats p (by omega) t ht
  few p hp := newPool_few h hn hp
  home m hm := by
    have hlt : m < s.nMblks + n := hm
    have hpools : (NetBuf.newPool s n k stat home).nPools = s.nPools + 1 := rfl
    by_cases hold : m < s.nMblks
    · rw [newPool_mBlk_old hold, hpools]
      have := h.home m hold
      omega
    · obtain ⟨i, rfl⟩ := Nat.exists_eq_add_of_le (Nat.le_of_not_lt hold)
      rw [newPool_mBlk_new (by omega), hpools]
      simp

theorem BInv.newPool (h : BInv s) (hold : ∀ b < s.nClBlks, home b = s.clBlkPool b)
    (hnew : ∀ b, s.nClBlks ≤ b → b < s.nClBlks + k → home b = s.nPools) :
    BInv (newPool s n k stat home) where
  lists := by
    refine h.lists.grow s.nPools (List.range' s.nClBlks k) List.nodup_range'
      (fun b hb => ?_) ?_ (fun p' hp' => ?_) (fun b => ?_) hold fun b hb => ?_
    · have := h.netPool b hb
      omega
    · simp [NetBuf.newPool]
    · rw [newPool_pool_old hp']
    · simp only [NetBuf.newPool, List.mem_range'_1]
      omega
    · obtain ⟨hle, hlt⟩ := List.mem_range'_1.1 hb
      refine ⟨hnew b hle hlt, ?_⟩
      by_contra hu
      have := h.inDom b hu
      omega
  inDom b hb := Nat.lt_of_lt_of_le (h.inDom b hb) (Nat.le_add_right _ _)
  home b hb := (h.home b hb).trans (hold b (h.inDom b hb)).symm
  netPool b hb := by
    have hlt : b < s.nClBlks + k := hb
    have hpools : (NetBuf.newPool s n k stat home).nPools = s.nPools + 1 := rfl
    have hhome : (NetBuf.newPool s n k stat home).clBlkPool b = home b := rfl
    rw [hpools, hhome]
    by_cases hb' : b < s.nClBlks
    · have := h.netPool b hb'
      rw [hold b hb']
      omega
    · rw [hnew b (by omega) hlt]
      omega

theorem CInv.newPool (h : CInv s) : CInv (newPool s n k stat home) where
  lists := h.lists
  inDom := h.inDom
  counts := h.counts
  mask q hq := by
    have hne := h.netPool q hq
    refine Eq.trans ?_ (h.mask q hq)
    rw [newPool_pool_old (p := ((NetBuf.newPool s n k stat home).clPools q).pNetPool)
      (by simp only [NetBuf.newPool]; omega)]
    rfl
  home := h.home
  netPool q hq := Nat.lt_succ_of_lt (h.netPool q hq)
  distinct := h.distinct
  lg2 := h.lg2

theorem RInv.newPool (h : RInv s) (hm : MInv s) : RInv (newPool s n k stat home) := by
  have hmblk : ∀ m, s.used m = true → (NetBuf.newPool s n k stat home).mBlks m = s.mBlks m :=
    fun m hu => newPool_mBlk_old (hm.inDom m hu)
  have hrefers : ∀ b m, RefersTo (NetBuf.newPool s n k stat home) b m ↔ RefersTo s b m := by
    intro b m
    by_cases hu : s.used m = true
    · simp only [RefersTo, hmblk m hu]
      rfl
    · have hu' : ¬ (NetBuf.newPool s n k stat home).used m = true := hu
      exact ⟨fun hr => absurd hr.1 hu', fun hr => absurd hr.1 hu⟩
  have hrefs : ∀ b, NetBuf.refs (NetBuf.newPool s n k stat home) b = NetBuf.refs s b := by
    intro b
    refine congrArg Finset.card (Finset.ext fun m => ?_)
    simp only [Finset.mem_filter, Finset.mem_range, hrefers]
    constructor
    · rintro ⟨-, hr⟩
      exact ⟨hm.inDom m hr.1, hr⟩
    · rintro ⟨hlt, hr⟩
      exact ⟨Nat.lt_of_lt_of_le hlt (Nat.le_add_right _ _), hr⟩
  refine ⟨fun b hb => ?_, h.raw, h.back, fun m hu he => ?_⟩
  · rw [hrefs]
    exact h.shared b hb
  · rw [hmblk m hu] at he ⊢
    exact h.ext m hu he

theorem TInv.newPool (h : TInv s) (hc : CInv s) : TInv (newPool s n k stat home) where
  entry p index q hp := by
    by_cases hpn : p = s.nPools
    · subst hpn
      simp [NetBuf.newPool] at hp
    · rw [newPool_pool_old hpn] at hp
      exact h.entry p index q hp
  bit p j hj := by
    by_cases hpn : p = s.nPools
    · subst hpn
      simp [NetBuf.newPool] at hj
    · rw [newPool_pool_old hpn] at hj ⊢
      exact h.bit p j hj
  pool q hq := by
    have hne := hc.netPool q hq
    rw [newPool_pool_old (p := ((NetBuf.newPool s n k stat home).clPools q).pNetPool)
      (by simp only [NetBuf.newPool]; omega)]
    exact h.pool q hq
  sizes p := by
    by_cases hpn : p = s.nPools
    · subst hpn
      simp [NetBuf.newPool]
    · rw [newPool_pool_old hpn]
      exact h.sizes p

theorem PoolInv.newPool (h : PoolInv s) (hn : n < 2 ^ 31)
    (hstat : ∀ t < 256, stat t = if t = MT_FREE then n else 0)
    (hold : ∀ b < s.nClBlks, home b = s.clBlkPool b)
    (hnew : ∀ b, s.nClBlks ≤ b → b < s.nClBlks + k → home b = s.nPools) :
    PoolInv (newPool s n k stat home) :=
  ⟨h.mBlks.newPool hn hstat, h.clBlks.newPool hold hnew, h.clusters.newPool,
    h.refs.newPool h.mBlks, h.tables.newPool h.clusters⟩

/-! ## The clusters of one size -/

theorem SIZE_TO_LOG2_eq {size : Nat} (h0 : 0 < size) (h : size < 2 ^ 32) :
    SIZE_TO_LOG2 size = size.log2 := by
  rw [SIZE_TO_LOG2, ffsMsb_eq h (by omega)]
  omega

theorem SIZE_TO_LOG2_range {size : Nat} (hmin : CL_SIZE_MIN ≤ size) (hmax : size ≤ CL_SIZE_MAX) :
    CL_LOG2_MIN ≤ SIZE_TO_LOG2 size ∧ SIZE_TO_LOG2 size ≤ CL_LOG2_MAX := by
  rw [CL_SIZE_MIN] at hmin
  rw [CL_SIZE_MAX] at hmax
  rw [SIZE_TO_LOG2_eq (by omega) (by omega), CL_LOG2_MIN, CL_LOG2_MAX]
  have hlow := (Nat.le_log2 (n := size) (k := 6) (by omega)).2 (by omega)
  have hhigh := (Nat.log2_lt (n := size) (k := 17) (by omega)).2 (by omega)
  omega

/-- The loop writes nothing but the new cluster pool. -/
theorem fillTable_eq (mask q n : Nat) (table : Nat → Option Nat) (i : Nat) :
    fillTable mask q n table i = some q ∨ fillTable mask q n table i = table i := by
  induction n generalizing table with
  | zero => exact .inr rfl
  | succ n ih =>
    rw [fillTable]
    split
    · exact .inr rfl
    · obtain heq | heq := ih (Function.update table n (some q))
      · exact .inl heq
      · rw [heq, Function.update_apply]
        split
        · exact .inl rfl
        · exact .inr rfl

/-- What a pool gets with a new cluster pool `q`. -/
structure Grown (pool pool' : Pool) (q lg2 : Nat) : Prop where
  mBlks : pool'.pmBlkHead = pool.pmBlkHead
  clBlks : pool'.pClBlkHead = pool.pClBlkHead
  stats : pool'.mTypes = pool.mTypes
  mask : pool'.clMask = pool.clMask ||| 2 ^ lg2
  table : ∀ i, pool'.clTable i = some q ∨ pool'.clTable i = pool.clTable i
  slot : pool'.clTable (lg2 - CL_LOG2_MIN) = some q
  range : CL_LOG2_MIN ≤ lg2 ∧ lg2 ≤ CL_LOG2_MAX
  sizes : CL_LOG2_MIN ≤ pool'.clLg2Min ∧ CL_LOG2_MIN ≤ pool'.clLg2Max ∧
    pool'.clLg2Max ≤ CL_LOG2_MAX ∧ pool'.clSizeMin = 2 ^ pool'.clLg2Min ∧
    pool'.clSizeMax = 2 ^ pool'.clLg2Max

/-- The state with a new cluster pool. -/
def addClPool (s : State) (p : Nat) (pool' : Pool) (desc : ClDesc) : State :=
  { s with
    pools := Function.update s.pools p pool'
    nClPools := s.nClPools + 1
    clPools := Function.update s.clPools s.nClPools
      { clSize := desc.clSize
        clLg2 := SIZE_TO_LOG2 desc.clSize
        clNum := desc.clNum
        clNumFree := desc.clNum
        pClHead := List.range' s.nClusters desc.clNum
        pNetPool := p }
    nClusters := s.nClusters + desc.clNum
    clPoolOf := fun c => if s.nClusters ≤ c then s.nClPools else s.clPoolOf c }

theorem clusterInit_some {desc : ClDesc} (h : TInv s) (hinit : clusterInit p s desc = some s') :
    ∃ pool', Grown (s.pools p) pool' s.nClPools (SIZE_TO_LOG2 desc.clSize) ∧
      s' = addClPool s p pool' desc := by
  rw [clusterInit] at hinit
  split at hinit
  · simp at hinit
  · rename_i hsize
    simp only at hinit
    split at hinit
    · simp at hinit
    · split at hinit
      · simp at hinit
      · have hrange := @SIZE_TO_LOG2_range desc.clSize (by omega) (by omega)
        refine ⟨_, ?_, (Option.some.inj hinit).symm⟩
        have hfill := fillTable_eq ((s.pools p).clMask ||| 2 ^ SIZE_TO_LOG2 desc.clSize)
          s.nClPools (SIZE_TO_LOG2 desc.clSize - CL_LOG2_MIN)
          (Function.update (s.pools p).clTable (SIZE_TO_LOG2 desc.clSize - CL_LOG2_MIN)
            (some s.nClPools))
        refine ⟨rfl, rfl, rfl, rfl, fun i => ?_, ?_, hrange, ?_⟩
        · obtain heq | heq := hfill i
          · exact .inl heq
          · simp only [heq, Function.update_apply]
            split
            · exact .inl rfl
            · exact .inr rfl
        · obtain heq | heq := hfill (SIZE_TO_LOG2 desc.clSize - CL_LOG2_MIN)
          · exact heq
          · simp only [heq, Function.update_self]
        · simp only [and_true]
          have hold := h.sizes p
          simp only [CL_LOG2_MIN, CL_LOG2_MAX] at hrange hold ⊢
          split <;> omega

section AddClPool

variable {pool' : Pool} {desc : ClDesc}

theorem addClPool_pool (s : State) (p : Nat) (pool' : Pool) (desc : ClDesc) (p' : Nat) :
    (addClPool s p pool' desc).pools p' = if p' = p then pool' else s.pools p' := by
  simp only [addClPool, Function.update_apply]

theorem addClPool_clPool_old (hq : q < s.nClPools) :
    (addClPool s p pool' desc).clPools q = s.clPools q := by
  simp only [addClPool, Function.update_of_ne (Nat.ne_of_lt hq)]

theorem CInv.addClPool (h : CInv s) (hp : p < s.nPools) (hnum : 0 < desc.clNum)
    (hg : Grown (s.pools p) pool' s.nClPools (SIZE_TO_LOG2 desc.clSize))
    (hnew : ∀ q < s.nClPools, (s.clPools q).pNetPool = p →
      (s.clPools q).clLg2 ≠ SIZE_TO_LOG2 desc.clSize) :
    CInv (addClPool s p pool' desc) := by
  have hself : (NetBuf.addClPool s p pool' desc).clPools s.nClPools =
      { clSize := desc.clSize, clLg2 := SIZE_TO_LOG2 desc.clSize, clNum := desc.clNum,
        clNumFree := desc.clNum, pClHead := List.range' s.nClusters desc.clNum, pNetPool := p } := by
    simp [NetBuf.addClPool]
  have hcases : ∀ q < s.nClPools + 1, q < s.nClPools ∨ q = s.nClPools := fun q hq => by omega
  refine ⟨?_, fun c hc => Nat.lt_of_lt_of_le (h.inDom c hc) (Nat.le_add_right _ _), fun q => ?_,
    fun q hq => ?_, fun c hc => ?_, fun q hq => ?_, fun q hq q' hq' hpool hlg2 => ?_,
    fun q hq => ?_⟩
  · refine h.lists.grow s.nClPools (List.range' s.nClusters desc.clNum)
      List.nodup_range' (fun c hc => ?_) ?_ (fun q hq => ?_) (fun c => ?_) (fun c hc => ?_)
      fun c hc => ?_
    · have := h.home c hc
      omega
    · rw [hself]
    · simp [NetBuf.addClPool, Function.update_of_ne hq]
    · simp only [NetBuf.addClPool, List.mem_range'_1]
      omega
    · simp only [NetBuf.addClPool]
      rw [if_neg (by omega)]
    · obtain ⟨hle, hlt⟩ := List.mem_range'_1.1 hc
      refine ⟨by simp only [NetBuf.addClPool, if_pos hle], ?_⟩
      by_contra hu
      have := h.inDom c hu
      omega
  · by_cases hq : q = s.nClPools
    · rw [hq, hself]
      simp
    · simp only [NetBuf.addClPool, Function.update_of_ne hq]
      exact h.counts q
  · obtain hq | rfl := hcases q hq
    · rw [addClPool_clPool_old hq, addClPool_pool]
      split
      · rename_i hpool
        rw [hg.mask, Nat.testBit_or, Nat.testBit_two_pow, ← h.mask q hq, hpool]
        have hne := hnew q hq hpool
        simp [Ne.symm hne]
      · exact h.mask q hq
    · rw [hself, addClPool_pool, if_pos rfl, hg.mask]
      have hne : List.range' s.nClusters desc.clNum ≠ [] := by
        simp only [ne_eq, List.range'_eq_nil_iff]
        omega
      simp [hne]
  · have hlt : c < s.nClusters + desc.clNum := hc
    simp only [NetBuf.addClPool]
    split
    · omega
    · have := h.home c (by omega)
      omega
  · obtain hq | rfl := hcases q hq
    · rw [addClPool_clPool_old hq]
      exact h.netPool q hq
    · rw [hself]
      exact hp
  · obtain hq | rfl := hcases q hq
    · obtain hq' | rfl := hcases q' hq'
      · rw [addClPool_clPool_old hq, addClPool_clPool_old hq'] at hpool hlg2
        exact h.distinct q hq q' hq' hpool hlg2
      · rw [addClPool_clPool_old hq, hself] at hpool hlg2
        exact absurd hlg2 (hnew q hq hpool)
    · obtain hq' | rfl := hcases q' hq'
      · rw [addClPool_clPool_old hq', hself] at hpool hlg2
        exact absurd hlg2.symm (hnew q' hq' hpool.symm)
      · rfl
  · obtain hq | rfl := hcases q hq
    · rw [addClPool_clPool_old hq]
      exact h.lg2 q hq
    · rw [hself]
      exact hg.range

theorem TInv.addClPool (h : TInv s)
    (hg : Grown (s.pools p) pool' s.nClPools (SIZE_TO_LOG2 desc.clSize)) :
    TInv (addClPool s p pool' desc) := by
  have hself : (NetBuf.addClPool s p pool' desc).clPools s.nClPools =
      { clSize := desc.clSize, clLg2 := SIZE_TO_LOG2 desc.clSize, clNum := desc.clNum,
        clNumFree := desc.clNum, pClHead := List.range' s.nClusters desc.clNum, pNetPool := p } := by
    simp [NetBuf.addClPool]
  have hkeep : ∀ p' i, (s.pools p').clTable i ≠ none →
      ((NetBuf.addClPool s p pool' desc).pools p').clTable i ≠ none := by
    intro p' i hi
    rw [addClPool_pool]
    split
    · subst_vars
      obtain heq | heq := hg.table i <;> simp [heq, hi]
    · exact hi
  have hslot : ((NetBuf.addClPool s p pool' desc).pools p).clTable
      (SIZE_TO_LOG2 desc.clSize - CL_LOG2_MIN) ≠ none := by
    rw [addClPool_pool, if_pos rfl, hg.slot]
    simp
  refine ⟨fun p' i q hp' => ?_, fun p' j hj => ?_, fun q hq => ?_, fun p' => ?_⟩
  · have hold : (s.pools p').clTable i = some q →
        q < s.nClPools + 1 ∧ ((NetBuf.addClPool s p pool' desc).clPools q).pNetPool = p' := by
      intro hq
      obtain ⟨hlt, hpool⟩ := h.entry p' i q hq
      rw [addClPool_clPool_old hlt]
      exact ⟨Nat.lt_succ_of_lt hlt, hpool⟩
    rw [addClPool_pool] at hp'
    split at hp'
    · subst_vars
      obtain heq | heq := hg.table i
      · obtain rfl : s.nClPools = q := by simpa [heq] using hp'
        exact ⟨Nat.lt_succ_self _, by rw [hself]⟩
      · exact hold (heq ▸ hp')
    · exact hold hp'
  · have hold : (s.pools p').clMask.testBit j = true → CL_LOG2_MIN ≤ j ∧ j ≤ CL_LOG2_MAX ∧
        ((NetBuf.addClPool s p pool' desc).pools p').clTable (j - CL_LOG2_MIN) ≠ none := by
      intro hj
      obtain ⟨hmin, hmax, hne⟩ := h.bit p' j hj
      exact ⟨hmin, hmax, hkeep p' _ hne⟩
    rw [addClPool_pool] at hj
    split at hj
    · subst_vars
      rw [hg.mask, Nat.testBit_or, Bool.or_eq_true, Nat.testBit_two_pow, decide_eq_true_eq] at hj
      obtain hj | rfl := hj
      · exact hold hj
      · exact ⟨hg.range.1, hg.range.2, hslot⟩
    · exact hold hj
  · have hlt : q < s.nClPools + 1 := hq
    by_cases hold : q < s.nClPools
    · rw [addClPool_clPool_old hold]
      obtain ⟨hmin, hmax, hne⟩ := h.pool q hold
      exact ⟨hmin, hmax, hkeep _ _ hne⟩
    · obtain rfl : q = s.nClPools := by omega
      rw [hself]
      exact ⟨hg.range.1, hg.range.2, hslot⟩
  · rw [addClPool_pool]
    split
    · exact .inr hg.sizes
    · exact h.sizes p'

theorem PoolInv.addClPool (h : PoolInv s) (hp : p < s.nPools) (hnum : 0 < desc.clNum)
    (hg : Grown (s.pools p) pool' s.nClPools (SIZE_TO_LOG2 desc.clSize))
    (hnew : ∀ q < s.nClPools, (s.clPools q).pNetPool = p →
      (s.clPools q).clLg2 ≠ SIZE_TO_LOG2 desc.clSize) :
    PoolInv (addClPool s p pool' desc) := by
  refine ⟨h.mBlks.congr (fun p' => ?_) (fun p' => ?_) (fun _ => rfl) (fun _ => rfl) rfl rfl rfl,
    h.clBlks.congr (fun p' => ?_) (fun _ _ => rfl) rfl rfl rfl rfl,
    h.clusters.addClPool hp hnum hg hnew,
    h.refs.congr rfl rfl (fun _ _ => ⟨rfl, rfl⟩) (fun _ _ => ⟨rfl, rfl⟩) rfl rfl,
    h.tables.addClPool hg⟩
  · rw [addClPool_pool]
    split
    · subst_vars
      exact hg.mBlks
    · rfl
  · rw [addClPool_pool]
    split
    · subst_vars
      exact hg.stats
    · rfl
  · rw [addClPool_pool]
    split
    · subst_vars
      exact hg.clBlks
    · rfl

end AddClPool

/-! ## The whole pool -/

/-- The descriptors that `netPoolInit` looks at. -/
def usedDescs (descs : List ClDesc) : List ClDesc := descs.takeWhile fun desc => 0 < desc.clNum

def sizeLog2s (descs : List ClDesc) : List Nat := descs.map fun desc => SIZE_TO_LOG2 desc.clSize

theorem clusters_inv {descs : List ClDesc} (h : PoolInv s) (hp : p < s.nPools)
    (hnum : ∀ desc ∈ descs, 0 < desc.clNum) (hnodup : (sizeLog2s descs).Nodup)
    (hnew : ∀ q < s.nClPools, (s.clPools q).pNetPool = p → (s.clPools q).clLg2 ∉ sizeLog2s descs)
    (hinit : descs.foldlM (clusterInit p) s = some s') : PoolInv s' := by
  induction descs generalizing s with
  | nil =>
    obtain rfl : s = s' := by simpa using hinit
    exact h
  | cons desc descs ih =>
    rw [List.foldlM_cons, Option.bind_eq_bind, Option.bind_eq_some_iff] at hinit
    obtain ⟨s1, hone, hrest⟩ := hinit
    obtain ⟨pool', hg, rfl⟩ := clusterInit_some h.tables hone
    rw [sizeLog2s, List.map_cons, List.nodup_cons] at hnodup
    have hne : ∀ q < s.nClPools, (s.clPools q).pNetPool = p →
        (s.clPools q).clLg2 ≠ SIZE_TO_LOG2 desc.clSize := by
      intro q hq hpool heq
      exact hnew q hq hpool (by simp [sizeLog2s, heq])
    refine ih (h.addClPool hp (hnum desc (by simp)) hg hne) hp
      (fun desc' hd => hnum desc' (by simp [hd])) hnodup.2 (fun q hq hpool => ?_) hrest
    have hlt : q < s.nClPools + 1 := hq
    by_cases hold : q < s.nClPools
    · rw [addClPool_clPool_old hold] at hpool ⊢
      intro hmem
      exact hnew q hold hpool (by simpa [sizeLog2s] using .inr (by simpa [sizeLog2s] using hmem))
    · obtain rfl : q = s.nClPools := by omega
      simpa [addClPool, sizeLog2s] using hnodup.1

/-- What `malloc` left in the statistics is zero, but for the counter that is set. -/
def statClear (config : Option MClConfig) (stat : Nat → Nat) : Bool :=
  (List.range 256).all fun t => stat t = 0 || (t = MT_FREE && config.isSome)

theorem blkInit_inv {config : Option MClConfig} (h : PoolInv s)
    (hstat : statClear config stat = true) (hinit : blkInit s config stat = some s') :
    PoolInv s' ∧ s'.nPools = s.nPools + 1 ∧ s'.nClPools = s.nClPools ∧ s'.clPools = s.clPools := by
  have hclear : ∀ t < 256, t ≠ MT_FREE → stat t = 0 := by
    intro t ht hne
    have := List.all_eq_true.1 hstat t (List.mem_range.2 ht)
    simpa [hne] using this
  cases config with
  | none =>
    have hzero : stat MT_FREE = 0 := by
      have := List.all_eq_true.1 hstat MT_FREE (by simp [MT_FREE])
      simpa using this
    have hnone : ∀ m, ¬ (s.nMblks ≤ m ∧ m < s.nMblks) := fun m => by omega
    have hpool : PoolInv (newPool s 0 0 stat s.clBlkPool) := h.newPool (by decide)
      (fun t ht => by by_cases h0 : t = MT_FREE <;> simp [h0, hzero, hclear t ht])
      (fun _ _ => rfl) (fun b hle hlt => by omega)
    simp only [newPool, Nat.add_zero, hnone, if_false, List.range'_zero] at hpool
    cases hinit
    exact ⟨hpool, rfl, rfl, rfl⟩
  | some cfg =>
    simp only [blkInit] at hinit
    split at hinit
    · simp at hinit
    · split at hinit
      · simp at hinit
      · cases hinit
        refine ⟨h.newPool cfg.mBlkNum_lt (fun t ht => ?_) (fun b hb => ?_) fun b hle _ => ?_,
          rfl, rfl, rfl⟩
        · rw [Function.update_apply]
          by_cases h0 : t = MT_FREE
          · simp [h0]
          · simp [h0, hclear t ht h0]
        · rw [if_neg (by omega)]
        · rw [if_pos hle]

theorem netPoolInit_inv {config : Option MClConfig} {descs : List ClDesc} (h : PoolInv s)
    (hstat : statClear config stat = true) (hsizes : (sizeLog2s (usedDescs descs)).Nodup) :
    PoolInv (netPoolInit s config descs stat) := by
  rw [netPoolInit]
  cases hinit : ((blkInit s config stat).bind fun s' =>
      (usedDescs descs).foldlM (clusterInit s.nPools) s') with
  | none =>
    rw [usedDescs] at hinit
    rw [hinit]
    exact h
  | some s2 =>
    have hrun := hinit
    rw [usedDescs] at hrun
    rw [hrun]
    obtain ⟨s1, hblk, hcl⟩ := Option.bind_eq_some_iff.1 hinit
    obtain ⟨h1, hpools, hclPools, hcls⟩ := blkInit_inv h hstat hblk
    refine clusters_inv h1 (by omega) (fun desc hd => ?_) hsizes (fun q hq hpool => ?_) hcl
    · simpa using List.mem_takeWhile_imp hd
    · rw [hclPools] at hq
      rw [hcls] at hpool
      have := h.clusters.netPool q hq
      omega

end Vmx.NetBuf
