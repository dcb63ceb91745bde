import Mathlib.Logic.Relation
import Vmx.Net.NetPoolInit

/-!
# The table of a new pool

The cluster pools of a new pool are those from `n₀` on, one for each of its sizes.  An entry of its
table is the one with the smallest logarithm that is not less than that of the entry, whatever the
order of the sizes, as long as no two of them have the same logarithm (`netPoolInit_table`).
-/

namespace Vmx.NetBuf

open Lib Vmx.Os

/-- The entries are right for the classes from `n₀` to `n₁`. -/
structure TableOf (table : Nat → Option Nat) (lg2 : Nat → Nat) (n₀ n₁ : Nat) : Prop where
  entry : ∀ index q, table index = some q → n₀ ≤ q ∧ q < n₁ ∧ index + CL_LOG2_MIN ≤ lg2 q ∧
    ∀ q', n₀ ≤ q' → q' < n₁ → index + CL_LOG2_MIN ≤ lg2 q' → lg2 q ≤ lg2 q'
  hole : ∀ index, table index = none → ∀ q, n₀ ≤ q → q < n₁ → lg2 q < index + CL_LOG2_MIN

/-- The cluster pools of `p` are those from `n₀` to `n₁`, and its table has the right one for every
logarithm. -/
structure ClassTable (s : State) (p n₀ n₁ : Nat) : Prop where
  netPool : ∀ q, n₀ ≤ q → q < n₁ → (s.clPools q).pNetPool = p
  lg2 : ∀ q, n₀ ≤ q → q < n₁ → CL_LOG2_MIN ≤ (s.clPools q).clLg2 ∧
    (s.clPools q).clLg2 ≤ CL_LOG2_MAX ∧ 2 ^ (s.clPools q).clLg2 ≤ (s.clPools q).clSize
  distinct : ∀ q q', n₀ ≤ q → q < n₁ → n₀ ≤ q' → q' < n₁ →
    (s.clPools q).clLg2 = (s.clPools q').clLg2 → q = q'
  table : TableOf (s.pools p).clTable (fun q => (s.clPools q).clLg2) n₀ n₁
  lg2Min : ∀ q, n₀ ≤ q → q < n₁ → (s.pools p).clLg2Min ≤ (s.clPools q).clLg2
  lg2Max : ∀ q, n₀ ≤ q → q < n₁ → (s.clPools q).clLg2 ≤ (s.pools p).clLg2Max
  sizeMin : (s.pools p).clSizeMin ≤ 2 ^ (s.pools p).clLg2Min
  sizeMax : ∀ q, n₀ ≤ q → q < n₁ → 2 ^ (s.clPools q).clLg2 ≤ (s.pools p).clSizeMax
  top : (s.pools p).clLg2Max ≤ CL_LOG2_MAX ∧ (s.pools p).clSizeMax ≤ 2 ^ CL_LOG2_MAX
  fresh : (s.pools p).clLg2Min = 0 → (s.pools p).clLg2Max = 0 → n₁ ≤ n₀

/-- The mask has a bit for every cluster pool with free clusters, which are of that pool. -/
structure ClassLists (s : State) (p n₀ n₁ : Nat) : Prop where
  mask : ∀ k, (s.pools p).clMask.testBit k = true ↔
    ∃ q, n₀ ≤ q ∧ q < n₁ ∧ (s.clPools q).clLg2 = k ∧ (s.clPools q).pClHead ≠ []
  home : ∀ q, n₀ ≤ q → q < n₁ → ∀ c ∈ (s.clPools q).pClHead, s.clPoolOf c = q

/-! ## One size -/

/-- The loop fills the entries without a size of their own below. -/
theorem fillTable_apply (mask q n : Nat) (table : Nat → Option Nat) (i : Nat) :
    fillTable mask q n table i =
      if i < n ∧ ∀ k, i ≤ k → k < n → mask.testBit (k + CL_LOG2_MIN) = false then some q
      else table i := by
  induction n generalizing table with
  | zero => rw [fillTable, if_neg (by omega)]
  | succ n ih =>
    rw [fillTable]
    by_cases hbit : mask.testBit (n + CL_LOG2_MIN) = true
    · rw [if_pos hbit, if_neg]
      intro h
      have hclear := h.2 n (by omega) (by omega)
      rw [hbit] at hclear
      exact absurd hclear (by decide)
    · rw [if_neg hbit, ih, Function.update_apply]
      rw [Bool.not_eq_true] at hbit
      by_cases hin : i = n
      · rw [if_neg (by omega), if_pos hin, if_pos]
        refine ⟨by omega, fun k hle hlt => ?_⟩
        have hk : k = n := by omega
        rw [hk]
        exact hbit
      · rw [if_neg hin]
        refine if_congr ?_ rfl rfl
        constructor
        · intro h
          refine ⟨by omega, fun k hle hlt => ?_⟩
          by_cases hk : k = n
          · rw [hk]
            exact hbit
          · exact h.2 k hle (by omega)
        · intro h
          exact ⟨by omega, fun k hle hlt => h.2 k hle (by omega)⟩

/-- The pool with a new cluster pool `q`. -/
def withClass (pool : Pool) (q sizeLog2 : Nat) : Pool :=
  let clMask := pool.clMask ||| 2 ^ sizeLog2
  let first := pool.clLg2Min = 0 ∧ pool.clLg2Max = 0
  let clLg2Min := min sizeLog2 (if first then sizeLog2 else pool.clLg2Min)
  let clLg2Max := max sizeLog2 (if first then sizeLog2 else pool.clLg2Max)
  let index := sizeLog2 - CL_LOG2_MIN
  { pool with
    clMask := clMask
    clLg2Min := clLg2Min
    clLg2Max := clLg2Max
    clSizeMin := 2 ^ clLg2Min
    clSizeMax := 2 ^ clLg2Max
    clTable := fillTable clMask q index (Function.update pool.clTable index (some q)) }

theorem clusterInit_eq {s s' : State} {p : Nat} {desc : ClDesc}
    (h : clusterInit p s desc = some s') :
    CL_SIZE_MIN ≤ desc.clSize ∧ desc.clSize ≤ CL_SIZE_MAX ∧
      s' = addClPool s p (withClass (s.pools p) s.nClPools (SIZE_TO_LOG2 desc.clSize)) desc := by
  rw [clusterInit] at h
  split at h
  · simp at h
  · dsimp only at h
    split at h
    · simp at h
    · split at h
      · simp at h
      · exact ⟨by omega, by omega, (Option.some.inj h).symm⟩

variable {s s' : State} {p n₀ n₁ : Nat} {desc : ClDesc}

theorem TableOf.add {table : Nat → Option Nat} {lg2 : Nat → Nat} {mask : Nat}
    (h : TableOf table lg2 n₀ n₁) (hn : n₀ ≤ n₁) (hmin : CL_LOG2_MIN ≤ lg2 n₁)
    (hmask : ∀ k, mask.testBit k = true ↔ k = lg2 n₁ ∨ ∃ q, n₀ ≤ q ∧ q < n₁ ∧ lg2 q = k) :
    TableOf (fillTable mask n₁ (lg2 n₁ - CL_LOG2_MIN)
      (Function.update table (lg2 n₁ - CL_LOG2_MIN) (some n₁))) lg2 n₀ (n₁ + 1) := by
  have hgap : ∀ index, (∀ k, index ≤ k → k < lg2 n₁ - CL_LOG2_MIN →
      mask.testBit (k + CL_LOG2_MIN) = false) → ∀ q, n₀ ≤ q → q < n₁ →
      index + CL_LOG2_MIN ≤ lg2 q → lg2 n₁ ≤ lg2 q := by
    intro index hclear q hq hlt hle
    by_contra hless
    have hbit := (hmask (lg2 q)).2 (Or.inr ⟨q, hq, hlt, rfl⟩)
    have hfalse := hclear (lg2 q - CL_LOG2_MIN) (by omega) (by omega)
    rw [Nat.sub_add_cancel (by omega), hbit] at hfalse
    exact absurd hfalse (by decide)
  constructor
  · intro index q hentry
    rw [fillTable_apply, Function.update_apply] at hentry
    by_cases hfill : index ≤ lg2 n₁ - CL_LOG2_MIN ∧ ∀ k, index ≤ k →
        k < lg2 n₁ - CL_LOG2_MIN → mask.testBit (k + CL_LOG2_MIN) = false
    · have hq : q = n₁ := by
        split_ifs at hentry with hin heq
        · exact (Option.some.inj hentry).symm
        · exact (Option.some.inj hentry).symm
        · exact absurd ⟨by omega, hfill.2⟩ hin
      rw [hq]
      refine ⟨hn, by omega, by omega, fun q' hq' hlt' hle => ?_⟩
      by_cases hold : q' < n₁
      · exact hgap index hfill.2 q' hq' hold hle
      · have hself : q' = n₁ := by omega
        rw [hself]
    · rw [if_neg (fun hin => hfill ⟨by omega, hin.2⟩), if_neg (fun heq => hfill ⟨by omega, by omega⟩)]
        at hentry
      obtain ⟨hq, hlt, hle, hleast⟩ := h.entry index q hentry
      refine ⟨hq, by omega, hle, fun q' hq' hlt' hle' => ?_⟩
      by_cases hold : q' < n₁
      · exact hleast q' hq' hold hle'
      · have hself : q' = n₁ := by omega
        rw [hself] at hle' ⊢
        have hexists : ∃ k, index ≤ k ∧ k < lg2 n₁ - CL_LOG2_MIN ∧
            mask.testBit (k + CL_LOG2_MIN) = true := by
          by_contra hnone
          refine hfill ⟨by omega, fun k hk hlt => ?_⟩
          by_contra hbit
          exact hnone ⟨k, hk, hlt, by simpa using hbit⟩
        obtain ⟨k, hk, hklt, hbit⟩ := hexists
        rcases (hmask _).1 hbit with heq | ⟨q'', hq'', hlt'', heq⟩
        · omega
        · have := hleast q'' hq'' hlt'' (by omega)
          omega
  · intro index hentry q hq hlt
    rw [fillTable_apply, Function.update_apply] at hentry
    split_ifs at hentry with hin heq
    have hrest := h.hole index hentry
    by_cases hold : q < n₁
    · exact hrest q hq hold
    · have hself : q = n₁ := by omega
      rw [hself]
      by_contra hle
      refine hin ⟨by omega, fun k hk hklt => ?_⟩
      by_contra hbit
      rcases (hmask _).1 (Bool.eq_true_of_not_eq_false hbit) with heq' | ⟨q'', hq'', hlt'', heq'⟩
      · omega
      · have := hrest q'' hq'' hlt''
        omega

theorem TableOf.congr {table : Nat → Option Nat} {lg2 lg2' : Nat → Nat}
    (h : TableOf table lg2 n₀ n₁) (hlg2 : ∀ q, n₀ ≤ q → q < n₁ → lg2' q = lg2 q) :
    TableOf table lg2' n₀ n₁ := by
  constructor
  · intro index q hentry
    obtain ⟨hq, hlt, hle, hleast⟩ := h.entry index q hentry
    rw [hlg2 q hq hlt]
    refine ⟨hq, hlt, hle, fun q' hq' hlt' hle' => ?_⟩
    rw [hlg2 q' hq' hlt'] at hle' ⊢
    exact hleast q' hq' hlt' hle'
  · intro index hentry q hq hlt
    rw [hlg2 q hq hlt]
    exact h.hole index hentry q hq hlt

/-- What holds while the table is built: every class has clusters. -/
structure Building (s : State) (p n₀ : Nat) : Prop where
  range : n₀ ≤ s.nClPools
  table : ClassTable s p n₀ s.nClPools
  lists : ClassLists s p n₀ s.nClPools
  full : ∀ q, n₀ ≤ q → q < s.nClPools → (s.clPools q).pClHead ≠ []
  below : ∀ q, n₀ ≤ q → q < s.nClPools → ∀ c ∈ (s.clPools q).pClHead, c < s.nClusters

theorem addClPool_clPool_new (s : State) (p : Nat) (pool' : Pool) (desc : ClDesc) :
    (addClPool s p pool' desc).clPools s.nClPools =
      { clSize := desc.clSize
        clLg2 := SIZE_TO_LOG2 desc.clSize
        clNum := desc.clNum
        clNumFree := desc.clNum
        pClHead := List.range' s.nClusters desc.clNum
        pNetPool := p } := Function.update_self _ _ _

/-- The state gets a class of logarithm `l`. -/
structure Added (s s' : State) (p l : Nat) (desc : ClDesc) : Prop where
  old : ∀ q, q < s.nClPools → s'.clPools q = s.clPools q
  new : s'.clPools s.nClPools =
    { clSize := desc.clSize, clLg2 := l, clNum := desc.clNum, clNumFree := desc.clNum
      pClHead := List.range' s.nClusters desc.clNum, pNetPool := p }
  pool : s'.pools p = withClass (s.pools p) s.nClPools l
  num : s'.nClPools = s.nClPools + 1
  clusters : s'.nClusters = s.nClusters + desc.clNum
  home : ∀ c, s'.clPoolOf c = if s.nClusters ≤ c then s.nClPools else s.clPoolOf c

theorem addClPool_added (s : State) (p : Nat) (desc : ClDesc) :
    Added s (addClPool s p (withClass (s.pools p) s.nClPools (SIZE_TO_LOG2 desc.clSize)) desc) p
      (SIZE_TO_LOG2 desc.clSize) desc where
  old _ hq := addClPool_clPool_old hq
  new := addClPool_clPool_new s p _ desc
  pool := Function.update_self _ _ _
  num := rfl
  clusters := rfl
  home _ := rfl

section

variable {l : Nat}

theorem Added.lg2_new (ha : Added s s' p l desc) : (s'.clPools s.nClPools).clLg2 = l := by
  rw [ha.new]

theorem Added.table (ha : Added s s' p l desc) (h : Building s p n₀) (hl : CL_LOG2_MIN ≤ l) :
    TableOf (s'.pools p).clTable (fun q => (s'.clPools q).clLg2) n₀ (s.nClPools + 1) := by
  have hlg2 := ha.lg2_new
  have hold : TableOf (s.pools p).clTable (fun q => (s'.clPools q).clLg2) n₀ s.nClPools :=
    h.table.table.congr fun q _ hq => congrArg ClPool.clLg2 (ha.old q hq)
  have hadd := @TableOf.add n₀ s.nClPools _ _ ((s.pools p).clMask ||| 2 ^ l) hold h.range
    (by rw [hlg2]; exact hl)
    (fun k => by
      rw [hlg2, Nat.testBit_or, Bool.or_eq_true, Nat.testBit_two_pow, decide_eq_true_eq,
        h.lists.mask]
      constructor
      · intro hk
        rcases hk with ⟨q, hq, hlt, heq, -⟩ | hk
        · exact Or.inr ⟨q, hq, hlt, by rw [ha.old q hlt]; exact heq⟩
        · exact Or.inl hk.symm
      · intro hk
        rcases hk with hk | ⟨q, hq, hlt, heq⟩
        · exact Or.inr hk.symm
        · rw [ha.old q hlt] at heq
          exact Or.inl ⟨q, hq, hlt, heq, h.full q hq hlt⟩)
  rw [hlg2] at hadd
  rw [ha.pool]
  exact hadd

theorem withClass_top {pool : Pool} {q l : Nat} (hl : l ≤ CL_LOG2_MAX)
    (hmax : pool.clLg2Max ≤ CL_LOG2_MAX) : (withClass pool q l).clLg2Max ≤ CL_LOG2_MAX ∧
      (withClass pool q l).clSizeMax ≤ 2 ^ CL_LOG2_MAX := by
  have htop : (withClass pool q l).clLg2Max ≤ CL_LOG2_MAX := by
    simp only [withClass]
    split <;> omega
  exact ⟨htop, Nat.pow_le_pow_right (by omega) htop⟩

theorem withClass_lg2 (pool : Pool) (q l : Nat) :
    (withClass pool q l).clLg2Min ≤ l ∧ l ≤ (withClass pool q l).clLg2Max ∧
      (pool.clLg2Min = 0 ∧ pool.clLg2Max = 0 ∨
        (withClass pool q l).clLg2Min ≤ pool.clLg2Min ∧
          pool.clLg2Max ≤ (withClass pool q l).clLg2Max) := by
  simp only [withClass]
  split <;> omega

theorem Added.classTable (ha : Added s s' p l desc) (h : Building s p n₀) (hl : CL_LOG2_MIN ≤ l)
    (hmax : l ≤ CL_LOG2_MAX) (hsize : 2 ^ l ≤ desc.clSize)
    (hnew : ∀ q, n₀ ≤ q → q < s.nClPools → (s.clPools q).clLg2 ≠ l) :
    ClassTable s' p n₀ s'.nClPools := by
  have hcases : ∀ q, q < s'.nClPools → q < s.nClPools ∨ q = s.nClPools := by
    rw [ha.num]
    omega
  have ht := h.table
  obtain ⟨hlow, hhigh, hsizes⟩ := withClass_lg2 (s.pools p) s.nClPools l
  rw [← ha.pool] at hlow hhigh hsizes
  have hbounds : ∀ q, n₀ ≤ q → q < s'.nClPools → (s'.pools p).clLg2Min ≤ (s'.clPools q).clLg2 ∧
      (s'.clPools q).clLg2 ≤ (s'.pools p).clLg2Max := by
    intro q hq hlt
    rcases hcases q hlt with hold | hself
    · rw [ha.old q hold]
      have hmin := ht.lg2Min q hq hold
      have hmax := ht.lg2Max q hq hold
      rcases hsizes with hfirst | hmore
      · have := ht.fresh hfirst.1 hfirst.2
        omega
      · omega
    · rw [hself, ha.new]
      exact ⟨hlow, hhigh⟩
  refine ⟨fun q hq hlt => ?_, fun q hq hlt => ?_, fun q q' hq hlt hq' hlt' heq => ?_, ?_,
    fun q hq hlt => (hbounds q hq hlt).1, fun q hq hlt => (hbounds q hq hlt).2, ?_,
    fun q hq hlt => ?_, ?_, fun _ hzero => ?_⟩
  · rcases hcases q hlt with hold | hself
    · rw [ha.old q hold]
      exact ht.netPool q hq hold
    · rw [hself, ha.new]
  · rcases hcases q hlt with hold | hself
    · rw [ha.old q hold]
      exact ht.lg2 q hq hold
    · rw [hself, ha.new]
      exact ⟨hl, hmax, hsize⟩
  · rcases hcases q hlt with hold | hself
    · rcases hcases q' hlt' with hold' | hself'
      · rw [ha.old q hold, ha.old q' hold'] at heq
        exact ht.distinct q q' hq hold hq' hold' heq
      · rw [ha.old q hold, hself', ha.new] at heq
        exact absurd heq (hnew q hq hold)
    · rcases hcases q' hlt' with hold' | hself'
      · rw [ha.old q' hold', hself, ha.new] at heq
        exact absurd heq.symm (hnew q' hq' hold')
      · omega
  · rw [ha.num]
    exact ha.table h hl
  · rw [ha.pool]
    exact Nat.le_refl _
  · have hpow := Nat.pow_le_pow_right (n := 2) (by omega) (hbounds q hq hlt).2
    rw [ha.pool] at hpow ⊢
    exact hpow
  · rw [ha.pool]
    exact withClass_top hmax ht.top.1
  · rw [CL_LOG2_MIN] at hl
    omega

theorem Added.building (ha : Added s s' p l desc) (h : Building s p n₀) (hl : CL_LOG2_MIN ≤ l)
    (hmax : l ≤ CL_LOG2_MAX) (hsize : 2 ^ l ≤ desc.clSize) (hnum : 0 < desc.clNum)
    (hnew : ∀ q, n₀ ≤ q → q < s.nClPools → (s.clPools q).clLg2 ≠ l) : Building s' p n₀ := by
  have hcases : ∀ q, q < s'.nClPools → q < s.nClPools ∨ q = s.nClPools := by
    rw [ha.num]
    omega
  have hrange := h.range
  have hfull : ∀ q, n₀ ≤ q → q < s'.nClPools → (s'.clPools q).pClHead ≠ [] := by
    intro q hq hlt
    rcases hcases q hlt with hold | hself
    · rw [ha.old q hold]
      exact h.full q hq hold
    · rw [hself, ha.new]
      intro hnil
      rw [List.range'_eq_nil_iff] at hnil
      omega
  refine ⟨?_, ha.classTable h hl hmax hsize hnew, ⟨fun k => ?_, fun q hq hlt c hc => ?_⟩, hfull,
    fun q hq hlt c hc => ?_⟩
  · rw [ha.num]
    omega
  · have hmask : (s'.pools p).clMask = (s.pools p).clMask ||| 2 ^ l := by
      rw [ha.pool]
      rfl
    rw [hmask, Nat.testBit_or, Bool.or_eq_true, Nat.testBit_two_pow, decide_eq_true_eq,
      h.lists.mask, ha.num]
    constructor
    · intro hk
      rcases hk with ⟨q, hq, hlt, heq, hne⟩ | hk
      · rw [← ha.old q hlt] at heq hne
        exact ⟨q, hq, by omega, heq, hne⟩
      · have hlt : s.nClPools < s'.nClPools := by
          rw [ha.num]
          omega
        exact ⟨s.nClPools, hrange, by omega, by rw [ha.lg2_new, hk], hfull _ hrange hlt⟩
    · intro hk
      obtain ⟨q, hq, hlt, heq, hne⟩ := hk
      rcases hcases q (by rw [ha.num]; exact hlt) with hold | hself
      · rw [ha.old q hold] at heq hne
        exact Or.inl ⟨q, hq, hold, heq, hne⟩
      · rw [hself, ha.lg2_new] at heq
        exact Or.inr heq
  · rw [ha.home]
    rcases hcases q hlt with hold | hself
    · rw [ha.old q hold] at hc
      have hbelow := h.below q hq hold c hc
      rw [if_neg (by omega)]
      exact h.lists.home q hq hold c hc
    · rw [hself, ha.new, List.mem_range'_1] at hc
      rw [if_pos hc.1, hself]
  · rw [ha.clusters]
    rcases hcases q hlt with hold | hself
    · rw [ha.old q hold] at hc
      have hbelow := h.below q hq hold c hc
      omega
    · rw [hself, ha.new, List.mem_range'_1] at hc
      exact hc.2

end

/-! ## All sizes -/

/-- The classes are those of `descs`, in this order. -/
def OfDescs (s : State) (n₀ : Nat) (descs : List ClDesc) : Prop :=
  s.nClPools = n₀ + descs.length ∧ ∀ i desc, descs[i]? = some desc →
    (s.clPools (n₀ + i)).clSize = desc.clSize ∧
      (s.clPools (n₀ + i)).clLg2 = SIZE_TO_LOG2 desc.clSize

theorem OfDescs.lg2_mem {descs : List ClDesc} {q : Nat} (h : OfDescs s n₀ descs) (hq : n₀ ≤ q)
    (hlt : q < s.nClPools) : (s.clPools q).clLg2 ∈ sizeLog2s descs := by
  obtain ⟨hn, hdescs⟩ := h
  have hi : q - n₀ < descs.length := by omega
  have hlog := (hdescs (q - n₀) descs[q - n₀] (List.getElem?_eq_getElem hi)).2
  rw [Nat.add_sub_cancel' hq] at hlog
  rw [hlog]
  exact List.mem_map_of_mem (List.getElem_mem hi)

theorem OfDescs.add {l : Nat} {descs : List ClDesc} (h : OfDescs s n₀ descs)
    (ha : Added s s' p l desc) (hl : l = SIZE_TO_LOG2 desc.clSize) :
    OfDescs s' n₀ (descs ++ [desc]) := by
  obtain ⟨hn, hdescs⟩ := h
  constructor
  · rw [ha.num, hn, List.length_append]
    rfl
  · intro i d hd
    by_cases hi : i < descs.length
    · rw [List.getElem?_append_left hi] at hd
      rw [ha.old _ (by omega)]
      exact hdescs i d hd
    · rw [List.getElem?_append_right (by omega), List.getElem?_singleton] at hd
      split at hd
      · have hself : n₀ + i = s.nClPools := by omega
        rw [hself, ha.new, ← Option.some.inj hd]
        exact ⟨rfl, hl⟩
      · simp at hd

theorem clusters_building {done descs : List ClDesc} (h : Building s p n₀)
    (hof : OfDescs s n₀ done) (hnum : ∀ desc ∈ descs, 0 < desc.clNum)
    (hnodup : (sizeLog2s (done ++ descs)).Nodup)
    (hinit : descs.foldlM (clusterInit p) s = some s') :
    Building s' p n₀ ∧ OfDescs s' n₀ (done ++ descs) := by
  induction descs generalizing s done with
  | nil =>
    rw [List.append_nil]
    rw [← Option.some.inj hinit]
    exact ⟨h, hof⟩
  | cons desc descs ih =>
    rw [List.foldlM_cons, Option.bind_eq_bind, Option.bind_eq_some_iff] at hinit
    obtain ⟨s1, hone, hrest⟩ := hinit
    obtain ⟨hmin, hmax, hs1⟩ := clusterInit_eq hone
    have ha := addClPool_added s p desc
    rw [← hs1] at ha
    have hlog := SIZE_TO_LOG2_range hmin hmax
    have hpower : 2 ^ SIZE_TO_LOG2 desc.clSize ≤ desc.clSize := by
      rw [CL_SIZE_MIN] at hmin
      rw [CL_SIZE_MAX] at hmax
      rw [SIZE_TO_LOG2_eq (by omega) (by omega)]
      exact Nat.log2_self_le (by omega)
    have hnew : ∀ q, n₀ ≤ q → q < s.nClPools →
        (s.clPools q).clLg2 ≠ SIZE_TO_LOG2 desc.clSize := by
      intro q hq hlt heq
      have hmem := hof.lg2_mem hq hlt
      rw [heq] at hmem
      rw [sizeLog2s, List.map_append, List.nodup_append] at hnodup
      exact hnodup.2.2 _ hmem _ (List.mem_map_of_mem List.mem_cons_self) rfl
    have hnext := ha.building h hlog.1 hlog.2 hpower (hnum desc List.mem_cons_self) hnew
    have happend : done ++ desc :: descs = (done ++ [desc]) ++ descs := by
      rw [List.append_assoc]
      rfl
    rw [happend] at hnodup ⊢
    exact ih hnext (hof.add ha rfl) (fun d hd => hnum d (List.mem_cons_of_mem desc hd)) hnodup
      hrest

/-- A pool without classes. -/
theorem Building.empty (hn : s.nClPools = n₀) (htable : (s.pools p).clTable = fun _ => none)
    (hmask : (s.pools p).clMask = 0) (hmin : (s.pools p).clSizeMin = 0)
    (htop : (s.pools p).clLg2Max = 0 ∧ (s.pools p).clSizeMax = 0) : Building s p n₀ := by
  have hnone : ∀ q, n₀ ≤ q → ¬ q < s.nClPools := by omega
  refine ⟨Nat.le_of_eq hn.symm, ⟨fun q hq hlt => absurd hlt (hnone q hq),
    fun q hq hlt => absurd hlt (hnone q hq), fun q _ hq hlt => absurd hlt (hnone q hq),
    ⟨fun index q hq => ?_, fun _ _ q hq hlt => absurd hlt (hnone q hq)⟩,
    fun q hq hlt => absurd hlt (hnone q hq), fun q hq hlt => absurd hlt (hnone q hq), ?_,
    fun q hq hlt => absurd hlt (hnone q hq), ?_, fun _ _ => Nat.le_of_eq hn⟩,
    ⟨fun k => ?_, fun q hq hlt => absurd hlt (hnone q hq)⟩,
    fun q hq hlt => absurd hlt (hnone q hq), fun q hq hlt => absurd hlt (hnone q hq)⟩
  · rw [htable] at hq
    exact absurd hq (by simp)
  · rw [hmin]
    exact Nat.zero_le _
  · rw [htop.1, htop.2]
    exact ⟨Nat.zero_le _, Nat.zero_le _⟩
  · rw [hmask, Nat.zero_testBit]
    constructor
    · intro hfalse
      exact absurd hfalse (by decide)
    · intro h
      obtain ⟨q, hq, hlt, -⟩ := h
      exact absurd hlt (hnone q hq)

theorem blkInit_building {config : Option MClConfig} {stat : Nat → Nat}
    (hinit : blkInit s config stat = some s') :
    Building s' s.nPools s.nClPools ∧ OfDescs s' s.nClPools [] ∧ s'.nPools = s.nPools + 1 := by
  have hdone : ∀ s1 : State, s1.nClPools = s.nClPools → ∀ pool : Pool,
      s1.pools = Function.update s.pools s.nPools pool → pool.clTable = (fun _ => none) →
      pool.clMask = 0 → pool.clSizeMin = 0 → pool.clLg2Max = 0 ∧ pool.clSizeMax = 0 →
      Building s1 s.nPools s.nClPools ∧ OfDescs s1 s.nClPools [] := by
    intro s1 hn pool hpools htable hmask hmin htop
    have hpool : s1.pools s.nPools = pool := by
      rw [hpools, Function.update_self]
    rw [← hpool] at htable hmask hmin htop
    exact ⟨Building.empty hn htable hmask hmin htop, hn, fun i d hd => absurd hd (by simp)⟩
  cases config with
  | none =>
    rw [← Option.some.inj hinit]
    exact and_assoc.1 ⟨hdone _ rfl { mTypes := stat } rfl rfl rfl rfl ⟨rfl, rfl⟩, rfl⟩
  | some cfg =>
    rw [blkInit] at hinit
    split at hinit
    · simp at hinit
    · split at hinit
      · simp at hinit
      · rw [← Option.some.inj hinit]
        exact and_assoc.1 ⟨hdone _ rfl _ rfl rfl rfl rfl ⟨rfl, rfl⟩, rfl⟩

/-- The table of a pool that has been set up, when its sizes have different logarithms. -/
theorem netPoolInit_table {config : Option MClConfig} {descs : List ClDesc} {stat : Nat → Nat}
    (hdone : (netPoolInit s config descs stat).nPools = s.nPools + 1)
    (hnodup : (sizeLog2s (usedDescs descs)).Nodup) :
    Building (netPoolInit s config descs stat) s.nPools s.nClPools ∧
      OfDescs (netPoolInit s config descs stat) s.nClPools (usedDescs descs) := by
  rw [netPoolInit] at hdone ⊢
  cases hinit : ((blkInit s config stat).bind fun s' =>
      (usedDescs descs).foldlM (clusterInit s.nPools) s') with
  | none =>
    have hrun := hinit
    rw [usedDescs] at hrun
    rw [hrun] at hdone
    exact absurd hdone (by simp)
  | some s2 =>
    have hrun := hinit
    rw [usedDescs] at hrun
    rw [hrun]
    obtain ⟨s1, hblk, hclusters⟩ := Option.bind_eq_some_iff.1 hinit
    obtain ⟨hbuild, hof, -⟩ := blkInit_building hblk
    refine clusters_building hbuild hof (fun desc hd => ?_) hnodup hclusters
    simpa using List.mem_takeWhile_imp hd

end Vmx.NetBuf
