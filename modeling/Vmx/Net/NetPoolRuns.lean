import Vmx.Net.NetPoolInit

/-!
# Runs over the pools

Callers free what they hold, and use the library as `goodStep` says.  Then no operation fails, and
every block is on its free list or in use, at all times.
-/

namespace Vmx.NetBuf

open Lib

variable {s s' : State} {p q m : Nat} {size : Int} {bestFit : Bool}

/-! ## What is conserved -/

/-- No block is lost and none is on a list twice: those that are not in use are on their own list,
a shared clBlk counts the mBlks that refer to it, and the numbers that a pool keeps are right. -/
structure Conserved (s : State) : Prop where
  mBlks : ∀ p, (s.pools p).pmBlkHead.Nodup ∧ ∀ m, m ∈ (s.pools p).pmBlkHead ↔
    m < s.nMblks ∧ (s.mBlks m).netPool = p ∧ s.used m = false
  clBlks : ∀ p, (s.pools p).pClBlkHead.Nodup ∧ ∀ b, b ∈ (s.pools p).pClBlkHead ↔
    b < s.nClBlks ∧ s.clBlkPool b = p ∧ s.clBlkOwner b = .free
  clusters : ∀ q, (s.clPools q).pClHead.Nodup ∧ ∀ c, c ∈ (s.clPools q).pClHead ↔
    c < s.nClusters ∧ s.clPoolOf c = q ∧ s.clOwner c = .free
  /-- A clBlk is in use by mBlks while there are mBlks that refer to it. -/
  shared : ∀ b, s.clBlkOwner b = .mBlks ↔ 0 < refs s b
  /-- Its cluster is its own, and its count is right. -/
  counted : ∀ b, 0 < refs s b → ∃ c, (s.clBlks b).pClBuf = some c ∧ s.clOwner c = .clBlk b ∧
    (s.clBlks b).clRefCount = refs s b
  /-- A cluster that is neither free nor with a caller is the cluster of a clBlk with mBlks. -/
  held : ∀ c b, s.clOwner c = .clBlk b → 0 < refs s b ∧ (s.clBlks b).pClBuf = some c
  numFree : ∀ q, (s.clPools q).clNumFree = (s.clPools q).pClHead.length
  mask : ∀ q < s.nClPools, (s.pools (s.clPools q).pNetPool).clMask.testBit (s.clPools q).clLg2 =
    decide (0 < (s.clPools q).clNumFree)
  stats : ∀ p < s.nPools, ∑ t ∈ Finset.range 256, (s.pools p).mTypes t =
    ((Finset.range s.nMblks).filter fun m => (s.mBlks m).netPool = p).card

theorem PoolInv.conserved (h : PoolInv s) : Conserved s where
  mBlks p := ⟨h.mBlks.lists.nodup p, h.mBlks.lists.mem p⟩
  clBlks p := ⟨h.clBlks.lists.nodup p, h.clBlks.lists.mem p⟩
  clusters q := ⟨h.clusters.lists.nodup q, h.clusters.lists.mem q⟩
  shared b := by
    constructor
    · intro hown
      obtain ⟨c, -, -, -, hpos⟩ := h.refs.shared b hown
      exact hpos
    · intro hpos
      obtain ⟨m, hm⟩ := Finset.card_pos.1 hpos
      by_contra hne
      exact h.refs.refs_raw hne m (Finset.mem_filter.1 hm).2
  counted b hpos := by
    have hown : s.clBlkOwner b = .mBlks := by
      obtain ⟨m, hm⟩ := Finset.card_pos.1 hpos
      by_contra hne
      exact h.refs.refs_raw hne m (Finset.mem_filter.1 hm).2
    obtain ⟨c, hbuf, hc, hcount, -⟩ := h.refs.shared b hown
    exact ⟨c, hbuf, hc, hcount⟩
  held c b hc := by
    obtain ⟨hown, hbuf⟩ := h.refs.back c b hc
    obtain ⟨c', -, -, -, hpos⟩ := h.refs.shared b hown
    exact ⟨hpos, hbuf⟩
  numFree := h.clusters.counts
  mask q hq := by
    rw [h.clusters.mask q hq, h.clusters.counts q]
    cases (s.clPools q).pClHead <;> simp
  stats p hp := by
    rw [Finset.sum_congr rfl fun t ht => h.mBlks.stats p hp t (Finset.mem_range.1 ht)]
    rw [Finset.card_eq_sum_card_fiberwise (f := fun m => (s.mBlks m).mType)
      (t := Finset.range 256) fun m _ => Finset.mem_coe.2 (Finset.mem_range.2 (h.mBlks.type_lt m))]
    exact Finset.sum_congr rfl fun t _ => by rw [Finset.filter_filter]

/-! ## Gets that do not fail -/

/-- `_mClGet` finds a clBlk, and its index into the table is not negative. -/
def getOk (s : State) (p : Nat) (size : Int) (bestFit : Bool) : Bool :=
  (s.pools p).pClBlkHead ≠ [] && ((s.pools p).clLg2Max ≠ 0 || (bestFit && decide (0 < size)))

theorem scanMask_some (h : TInv s) (p : Nat) {k : Nat} (hk : (s.pools p).clMask.testBit k = true)
    (fuel lg2 : Nat) (hle : lg2 ≤ k) (hlt : k < lg2 + fuel) :
    ∃ q, scanMask (s.pools p) fuel lg2 = some q := by
  induction fuel generalizing lg2 with
  | zero => omega
  | succ n ih =>
    rw [scanMask]
    by_cases hbit : (s.pools p).clMask.testBit lg2 = true
    · rw [if_pos hbit]
      exact Option.ne_none_iff_exists'.1 (h.bit p lg2 hbit).2.2
    · rw [if_neg hbit]
      have hne : lg2 ≠ k := by
        rintro rfl
        exact hbit hk
      exact ih (lg2 + 1) (by omega) (by omega)

/-- When there is a cluster pool, the one to take from is found. -/
theorem pickPool_some (h : TInv s) (p q : Nat) (bestFit : Bool) :
    ∃ q', pickPool s p q bestFit = some q' := by
  rw [pickPool]
  split
  · simp only
    split
    · rename_i hle
      obtain ⟨k, hk, hbit⟩ := Nat.exists_ge_and_testBit_of_ge_two_pow hle
      have hmax := (h.bit p k hbit).2.1
      exact scanMask_some h p hbit _ _ hk (by omega)
    · split
      · rename_i hmask
        have hne : (s.pools p).clMask ≠ 0 := by
          rw [Bool.and_eq_true, decide_eq_true_eq] at hmask
          exact hmask.2
        have hlt : (s.pools p).clMask < 2 ^ 17 := by
          refine Nat.lt_pow_two_of_testBit _ fun i hi => ?_
          by_contra hbit
          have hmax := (h.bit p i (by simpa using hbit)).2.1
          rw [CL_LOG2_MAX] at hmax
          omega
        obtain ⟨-, -, htable⟩ := h.bit p _ (Nat.testBit_log2 hne)
        rw [Vmx.Os.ffsMsb_eq (by omega) hne, Nat.add_comm 1, Nat.add_sub_add_right]
        exact Option.ne_none_iff_exists'.1 htable
      · exact ⟨q, rfl⟩
  · exact ⟨q, rfl⟩

/-- The index is not negative. -/
theorem clPoolIdGet_some (h : TInv s)
    (hok : (s.pools p).clLg2Max ≠ 0 ∨ (bestFit = true ∧ 0 < size)) :
    ∃ found, clPoolIdGet s p size bestFit = some found := by
  rw [clPoolIdGet]
  simp only
  obtain ⟨hmin0, hmax0, hsmin0, hsmax0⟩ | ⟨hmin, hmax, hmax', hsmin, hsmax⟩ := h.sizes p
  · obtain hne | ⟨rfl, hpos⟩ := hok
    · exact absurd hmax0 hne
    · rw [if_pos (by omega)]
      exact ⟨none, rfl⟩
  · have hat : ∀ lg2, CL_LOG2_MIN ≤ lg2 → ∃ found, (if lg2 < CL_LOG2_MIN then none
        else some ((s.pools p).clTable (lg2 - CL_LOG2_MIN))) = some found := by
      intro lg2 hle
      rw [if_neg (by omega)]
      exact ⟨_, rfl⟩
    split
    · split
      · exact ⟨none, rfl⟩
      · exact hat _ hmax
    · split
      · exact hat _ hmin
      · rename_i hbig hsmall
        have hlow : 2 ^ CL_LOG2_MIN ≤ (s.pools p).clSizeMin := by
          rw [hsmin]
          exact Nat.pow_le_pow_right (by omega) hmin
        have hhigh : (s.pools p).clSizeMax ≤ 2 ^ CL_LOG2_MAX := by
          rw [hsmax]
          exact Nat.pow_le_pow_right (by omega) hmax'
        have hrange := @SIZE_TO_LOG2_range size.toNat
          (by rw [CL_LOG2_MIN] at hlow; rw [CL_SIZE_MIN]; omega)
          (by rw [CL_LOG2_MAX] at hhigh; rw [CL_SIZE_MAX]; omega)
        split
        · exact hat _ (by omega)
        · exact hat _ hrange.1

theorem mClGet_some (h : TInv s) (hok : getOk s p size bestFit = true) (m : Nat) :
    ∃ r, mClGet s p (some m) size bestFit = some r := by
  simp only [getOk, ne_eq, Bool.and_eq_true, Bool.or_eq_true, decide_eq_true_eq] at hok
  obtain ⟨hhead, hindex⟩ := hok
  obtain ⟨b, rest, hp⟩ := List.exists_cons_of_ne_nil hhead
  have h1 := @TInv.takenB s p b h rest
  have hmax : ((takenB s p b rest).pools p).clLg2Max = (s.pools p).clLg2Max := by
    simp [takenB, State.setClBlkOwner, State.setClBlk, State.setPool]
  obtain ⟨found, hfound⟩ := clPoolIdGet_some h1 (hmax ▸ hindex)
  rw [mClGet, clBlkGet_cons hp]
  simp only [hfound]
  cases found with
  | none => exact ⟨_, rfl⟩
  | some q =>
    obtain ⟨q', hq'⟩ := pickPool_some h1 p q bestFit
    simp only [hq']
    split
    · exact ⟨_, rfl⟩
    · exact ⟨_, rfl⟩

/-! ## Runs -/

/-- How the pools may be used: callers free what they hold, and nothing is asked that the code
does not stand. -/
def goodStep (s : State) : Label → Bool
  | .netPoolInit config descs stat =>
    statClear config stat && decide (sizeLog2s (usedDescs descs)).Nodup
  | .netMblkGet _ _ type => type ≠ MT_FREE && decide (type < 256)
  | .netClBlkGet _ => true
  | .netClusterGet p q => (s.clPools q).pNetPool = p
  | .netMblkClGet p m size bestFit => s.used m && !(s.mBlks m).ext && getOk s p size bestFit
  | .netTupleGet p size _ type bestFit =>
    type ≠ MT_FREE && decide (type < 256) &&
      ((s.pools p).pmBlkHead = [] || getOk s p size bestFit)
  | .netMblkChainDup p m offset len _ => dupStart s p m offset len
  | .netMblkFree p m => s.used m && decide ((s.mBlks m).netPool = p) && !(s.mBlks m).ext
  | .netClBlkFree b => s.clBlkOwner b = .caller
  | .netClFree c => s.clOwner c = .caller
  | .netMblkClFree _ => true
  | .netMblkClChainFree _ => true
  | .write _ _ _ _ => true

theorem clusterGet_inv (h : PoolInv s) (hpool : (s.clPools q).pNetPool = p) :
    PoolInv (clusterGet s p q).1 := by
  cases hq : (s.clPools q).pClHead with
  | nil =>
    rw [clusterGet_nil hq]
    exact h
  | cons c rest =>
    rw [clusterGet_cons hq]
    exact h.takenC hq hpool

theorem clBlkGet_inv (h : PoolInv s) (p : Nat) : PoolInv (clBlkGet s p).1 := by
  cases hp : (s.pools p).pClBlkHead with
  | nil =>
    rw [clBlkGet_nil hp]
    exact h
  | cons b rest =>
    rw [clBlkGet_cons hp]
    exact h.takenB hp

theorem mBlkGet_inv {type : Nat} {wait : Bool} (h : PoolInv s) (h0 : type ≠ MT_FREE)
    (hlt : type < 256) : PoolInv (mBlkGet s p wait type).1 := by
  cases hget : mBlkGet s p wait type with
  | mk s1 new =>
    cases new with
    | none => exact mBlkGet_none h hget
    | some m => exact (mBlkGet_some h h0 hlt hget).1

theorem netTupleGet_total {type : Nat} {wait : Bool} (h : PoolInv s) (h0 : type ≠ MT_FREE)
    (hlt : type < 256) (hok : (s.pools p).pmBlkHead = [] ∨ getOk s p size bestFit = true) :
    ∃ s', netTupleGet s p size wait type bestFit = some s' ∧ PoolInv s' := by
  have hsome : ∃ s', netTupleGet s p size wait type bestFit = some s' := by
    rw [netTupleGet]
    cases hget : mBlkGet s p wait type with
    | mk s1 m =>
      cases m with
      | none => exact ⟨s1, rfl⟩
      | some m =>
        obtain ⟨h1, rest, hp, rfl⟩ := mBlkGet_some h h0 hlt hget
        have hok' : getOk (takenM s p m rest type) p size bestFit = true := by
          obtain hnil | hok := hok
          · simp [hp] at hnil
          · simpa [getOk, takenM, State.setUsed, State.setMblk, State.setPool] using hok
        obtain ⟨⟨s2, ok⟩, hcl⟩ := mClGet_some h1.tables hok' m
        simp only [hcl]
        cases ok with
        | true => exact ⟨_, rfl⟩
        | false => exact ⟨_, rfl⟩
  obtain ⟨s', hs'⟩ := hsome
  exact ⟨s', hs', netTupleGet_inv h h0 hlt hs'⟩

/-- A good step happens, and keeps the invariant. -/
theorem step_total {l : Label} (h : PoolInv s) (hgood : goodStep s l = true) :
    ∃ s', step s l = some s' ∧ PoolInv s' := by
  cases l with
  | netPoolInit config descs stat =>
    simp only [goodStep, Bool.and_eq_true, decide_eq_true_eq] at hgood
    exact ⟨_, rfl, netPoolInit_inv h hgood.1 hgood.2⟩
  | netMblkGet p wait type =>
    simp only [goodStep, Bool.and_eq_true, decide_eq_true_eq] at hgood
    exact ⟨_, rfl, mBlkGet_inv h hgood.1 hgood.2⟩
  | netClBlkGet p => exact ⟨_, rfl, clBlkGet_inv h p⟩
  | netClusterGet p q =>
    simp only [goodStep, decide_eq_true_eq] at hgood
    exact ⟨_, rfl, clusterGet_inv h hgood⟩
  | netMblkClGet p m size bestFit =>
    simp only [goodStep, Bool.and_eq_true, Bool.not_eq_true'] at hgood
    obtain ⟨⟨hu, hext⟩, hok⟩ := hgood
    obtain ⟨⟨s', ok⟩, hcl⟩ := mClGet_some h.tables hok m
    exact ⟨s', by simp [step, hcl], (mClGet_inv h hu hext hcl).1⟩
  | netTupleGet p size wait type bestFit =>
    simp only [goodStep, Bool.and_eq_true, Bool.or_eq_true, decide_eq_true_eq] at hgood
    exact netTupleGet_total h hgood.1.1 hgood.1.2 hgood.2
  | netMblkChainDup p m offset len wait => exact netMblkChainDup_inv h hgood
  | netMblkFree p m =>
    simp only [goodStep, Bool.and_eq_true, decide_eq_true_eq, Bool.not_eq_true'] at hgood
    exact ⟨_, rfl, h.mBlkFree hgood.1.1 hgood.1.2 hgood.2⟩
  | netClBlkFree b =>
    simp only [goodStep, decide_eq_true_eq] at hgood
    exact ⟨_, rfl, h.clBlkFree hgood⟩
  | netClFree c =>
    simp only [goodStep, decide_eq_true_eq] at hgood
    exact ⟨_, rfl, h.clusterReturn hgood⟩
  | netMblkClFree m => exact ⟨_, rfl, h.mBlkClFree m⟩
  | netMblkClChainFree m => exact ⟨_, rfl, h.chainFree _ _⟩
  | write m mNext mLen pktHdr => exact ⟨_, rfl, h.setMblk fun _ => ⟨rfl, rfl, rfl, rfl⟩⟩

theorem PoolInv.init : PoolInv {} where
  mBlks := ⟨⟨by simp, by simp⟩, by simp, by simp, by simp [MT_FREE], by simp, by simp, by simp⟩
  clBlks := ⟨⟨by simp, by simp⟩, by simp, by simp, by simp⟩
  clusters := ⟨⟨by simp, by simp⟩, by simp, by simp, by simp, by simp, by simp, by simp, by simp⟩
  refs := ⟨by simp, by simp, by simp, by simp⟩
  tables := ⟨by simp, by simp, by simp, by simp⟩

def config0 : MClConfig := ⟨3, 2, 4096, 256, by decide⟩

/-- Clusters of 64 bytes. -/
def descs0 : List ClDesc := [⟨64, 1, 8192, 256⟩]

/-- A pool is built, a block with a cluster is got and duplicated, and both are freed. -/
def goodRun : List Label :=
  [.netPoolInit (some config0) descs0 fun _ => 0, .netTupleGet 0 64 false 1 true,
    .write 0 none 60 true, .netMblkChainDup 0 0 0 M_COPYALL false, .netMblkClFree 0,
    .netMblkClChainFree 1, .netClusterGet 0 0, .netClFree 0]

end Vmx.NetBuf
