import Vmx.Net.ClusterClass

/-!
# The cluster of a best fit

Clusters are taken from the lists of a pool and put back, and the mask follows.  In every state that
comes of it a get with best fit takes a cluster of the smallest class that is large enough and has
one, when the sizes of the pool have different logarithms (`best_fit`).  Of two sizes with the same
one the first is out of reach (`not_best_fit`).
-/

namespace Vmx.NetBuf

open Lib Vmx.Os

variable {s s' : State} {p q n₀ n₁ : Nat}

/-- A call that leaves the clusters of a pool alone. -/
structure SameClasses (s s' : State) (p n₀ n₁ : Nat) : Prop where
  classes : ∀ q, n₀ ≤ q → q < n₁ → s'.clPools q = s.clPools q
  home : ∀ q, n₀ ≤ q → q < n₁ → ∀ c ∈ (s.clPools q).pClHead, s'.clPoolOf c = s.clPoolOf c
  table : SameTable (s'.pools p) (s.pools p)
  mask : (s'.pools p).clMask = (s.pools p).clMask

/-- What happens to the clusters of a pool: one is taken off a list, one is put back, or a call does
something else. -/
inductive Move (p n₀ n₁ : Nat) : State → State → Prop
  | get (s : State) (q : Nat) : n₀ ≤ q → q < n₁ → Move p n₀ n₁ s (clusterGet s p q).1
  | free (s : State) (c : Nat) : n₀ ≤ s.clPoolOf c → s.clPoolOf c < n₁ →
      Move p n₀ n₁ s (clusterReturn s c)
  | other (s s' : State) : SameClasses s s' p n₀ n₁ → Move p n₀ n₁ s s'

/-- The sizes of the cluster pools do not change. -/
def SameSizes (s s' : State) (n₀ n₁ : Nat) : Prop :=
  ∀ q, n₀ ≤ q → q < n₁ → (s'.clPools q).clSize = (s.clPools q).clSize ∧
    (s'.clPools q).clLg2 = (s.clPools q).clLg2 ∧ (s'.clPools q).pNetPool = (s.clPools q).pNetPool

theorem ClassTable.same (h : ClassTable s p n₀ n₁) (hsizes : SameSizes s s' n₀ n₁)
    (htable : SameTable (s'.pools p) (s.pools p)) : ClassTable s' p n₀ n₁ := by
  refine ⟨fun q hq hlt => ?_, fun q hq hlt => ?_, fun q q' hq hlt hq' hlt' => ?_, ?_,
    fun q hq hlt => ?_, fun q hq hlt => ?_, ?_, fun q hq hlt => ?_, ?_, ?_⟩
  · rw [(hsizes q hq hlt).2.2]
    exact h.netPool q hq hlt
  · rw [(hsizes q hq hlt).1, (hsizes q hq hlt).2.1]
    exact h.lg2 q hq hlt
  · rw [(hsizes q hq hlt).2.1, (hsizes q' hq' hlt').2.1]
    exact h.distinct q q' hq hlt hq' hlt'
  · rw [htable.table]
    exact h.table.congr fun q hq hlt => (hsizes q hq hlt).2.1
  · rw [htable.lg2Min, (hsizes q hq hlt).2.1]
    exact h.lg2Min q hq hlt
  · rw [htable.lg2Max, (hsizes q hq hlt).2.1]
    exact h.lg2Max q hq hlt
  · rw [htable.sizeMin, htable.lg2Min]
    exact h.sizeMin
  · rw [htable.sizeMax, (hsizes q hq hlt).2.1]
    exact h.sizeMax q hq hlt
  · rw [htable.lg2Max, htable.sizeMax]
    exact h.top
  · rw [htable.lg2Min, htable.lg2Max]
    exact h.fresh

theorem ClassLists.same (h : ClassLists s p n₀ n₁) (hsame : SameClasses s s' p n₀ n₁) :
    ClassLists s' p n₀ n₁ := by
  constructor
  · intro k
    rw [hsame.mask, h.mask]
    refine exists_congr fun q => and_congr_right fun hq => and_congr_right fun hlt => ?_
    rw [hsame.classes q hq hlt]
  · intro q hq hlt c hc
    rw [hsame.classes q hq hlt] at hc
    rw [hsame.home q hq hlt c hc]
    exact h.home q hq hlt c hc

/-- A list becomes shorter, and its bit is cleared when it becomes empty. -/
theorem ClassLists.taken {c : Nat} {rest : List Nat} (h : ClassLists s p n₀ n₁)
    (ht : ClassTable s p n₀ n₁) (hq : n₀ ≤ q) (hlt : q < n₁)
    (hhead : (s.clPools q).pClHead = c :: rest) : ClassLists (takenC s p q c rest) p n₀ n₁ := by
  have hlg2 : ∀ q', ((takenC s p q c rest).clPools q').clLg2 = (s.clPools q').clLg2 := by
    intro q'
    show (Function.update s.clPools q _ q').clLg2 = _
    rw [Function.update_apply]
    split
    · rename_i heq
      rw [heq]
    · rfl
  have hother : ∀ q', q' ≠ q →
      ((takenC s p q c rest).clPools q').pClHead = (s.clPools q').pClHead := by
    intro q' hne
    show (Function.update s.clPools q _ q').pClHead = _
    rw [Function.update_of_ne hne]
  have hself : ((takenC s p q c rest).clPools q).pClHead = rest := by
    show (Function.update s.clPools q _ q).pClHead = _
    rw [Function.update_self]
  have hmask : ((takenC s p q c rest).pools p).clMask =
      if rest = [] then clearBit (s.pools p).clMask (s.clPools q).clLg2
      else (s.pools p).clMask := by
    show (Function.update s.pools p _ p).clMask = _
    rw [Function.update_self]
    rfl
  constructor
  · intro k
    rw [hmask]
    by_cases hrest : rest = []
    · rw [if_pos hrest]
      constructor
      · intro hbit
        have hold : (s.pools p).clMask.testBit k = true := by
          rw [clearBit, Nat.testBit_and, Bool.and_eq_true] at hbit
          exact hbit.1
        obtain ⟨q', hq', hlt', hk, hne⟩ := (h.mask k).1 hold
        have hrange := (ht.lg2 q' hq' hlt').2.1
        rw [CL_LOG2_MAX] at hrange
        rw [testBit_clearBit (by omega), Bool.and_eq_true, decide_eq_true_eq] at hbit
        have hqq : q' ≠ q := by
          intro heq
          rw [heq] at hk
          exact hbit.2 hk.symm
        exact ⟨q', hq', hlt', by rw [hlg2, hk], by rw [hother q' hqq]; exact hne⟩
      · intro hfree
        obtain ⟨q', hq', hlt', hk, hne⟩ := hfree
        have hqq : q' ≠ q := by
          intro heq
          rw [heq, hself] at hne
          exact hne hrest
        rw [hlg2] at hk
        rw [hother q' hqq] at hne
        have hrange := (ht.lg2 q' hq' hlt').2.1
        rw [CL_LOG2_MAX] at hrange
        rw [testBit_clearBit (by omega), Bool.and_eq_true, decide_eq_true_eq]
        refine ⟨(h.mask k).2 ⟨q', hq', hlt', hk, hne⟩, fun heq => ?_⟩
        exact hqq (ht.distinct q' q hq' hlt' hq hlt (hk.trans heq))
    · rw [if_neg hrest, h.mask]
      refine exists_congr fun q' => and_congr_right fun _ => and_congr_right fun _ => ?_
      rw [hlg2]
      refine and_congr_right fun _ => ?_
      by_cases hqq : q' = q
      · rw [hqq, hself, hhead]
        exact iff_of_true (List.cons_ne_nil c rest) hrest
      · rw [hother q' hqq]
  · intro q' hq' hlt' c' hc'
    refine h.home q' hq' hlt' c' ?_
    by_cases hne : q' = q
    · rw [hne, hself] at hc'
      rw [hne, hhead]
      exact List.mem_cons_of_mem c hc'
    · rw [hother q' hne] at hc'
      exact hc'

theorem ClassLists.get (h : ClassLists s p n₀ n₁) (ht : ClassTable s p n₀ n₁) (hq : n₀ ≤ q)
    (hlt : q < n₁) : ClassLists (clusterGet s p q).1 p n₀ n₁ := by
  cases hhead : (s.clPools q).pClHead with
  | nil =>
    rw [clusterGet_nil hhead]
    exact h
  | cons c rest =>
    rw [clusterGet_cons hhead]
    exact h.taken ht hq hlt hhead

/-- A list becomes longer, and its bit is set. -/
theorem ClassLists.free {c : Nat} (h : ClassLists s p n₀ n₁) (ht : ClassTable s p n₀ n₁)
    (hq : n₀ ≤ s.clPoolOf c) (hlt : s.clPoolOf c < n₁) :
    ClassLists (clusterReturn s c) p n₀ n₁ := by
  have hlg2 : ∀ q, ((clusterReturn s c).clPools q).clLg2 = (s.clPools q).clLg2 := by
    intro q
    show (Function.update s.clPools (s.clPoolOf c) _ q).clLg2 = _
    rw [Function.update_apply]
    split
    · rename_i heq
      rw [heq]
    · rfl
  have hother : ∀ q, q ≠ s.clPoolOf c →
      ((clusterReturn s c).clPools q).pClHead = (s.clPools q).pClHead := by
    intro q hne
    show (Function.update s.clPools (s.clPoolOf c) _ q).pClHead = _
    rw [Function.update_of_ne hne]
  have hself : ((clusterReturn s c).clPools (s.clPoolOf c)).pClHead =
      c :: (s.clPools (s.clPoolOf c)).pClHead := by
    show (Function.update s.clPools (s.clPoolOf c) _ _).pClHead = _
    rw [Function.update_self]
  have hmask : ((clusterReturn s c).pools p).clMask =
      (s.pools p).clMask ||| 2 ^ (s.clPools (s.clPoolOf c)).clLg2 := by
    show (Function.update s.pools (s.clPools (s.clPoolOf c)).pNetPool _ p).clMask = _
    rw [ht.netPool _ hq hlt, Function.update_self]
    rfl
  constructor
  · intro k
    rw [hmask, Nat.testBit_or, Bool.or_eq_true, h.mask, Nat.testBit_two_pow, decide_eq_true_eq]
    constructor
    · intro hbit
      rcases hbit with ⟨q, hq', hlt', hk, hne⟩ | hk
      · refine ⟨q, hq', hlt', by rw [hlg2, hk], ?_⟩
        by_cases hqq : q = s.clPoolOf c
        · rw [hqq, hself]
          exact List.cons_ne_nil _ _
        · rw [hother q hqq]
          exact hne
      · exact ⟨s.clPoolOf c, hq, hlt, by rw [hlg2, hk], by rw [hself]; exact List.cons_ne_nil _ _⟩
    · intro hfree
      obtain ⟨q, hq', hlt', hk, hne⟩ := hfree
      rw [hlg2] at hk
      by_cases hqq : q = s.clPoolOf c
      · rw [hqq] at hk
        exact Or.inr hk
      · rw [hother q hqq] at hne
        exact Or.inl ⟨q, hq', hlt', hk, hne⟩
  · intro q hq' hlt' c' hc'
    show s.clPoolOf c' = q
    by_cases hqq : q = s.clPoolOf c
    · rw [hqq, hself, List.mem_cons] at hc'
      rcases hc' with heq | hold
      · rw [heq, hqq]
      · rw [hqq]
        exact h.home _ hq hlt c' hold
    · rw [hother q hqq] at hc'
      exact h.home q hq' hlt' c' hc'

/-! ## The choice of a class -/

/-- A cluster pool whose clusters are large enough, by their logarithm. -/
structure Serves (s : State) (n₀ n₁ : Nat) (size : Int) (q : Nat) : Prop where
  low : n₀ ≤ q
  high : q < n₁
  size_le : size ≤ (2 ^ (s.clPools q).clLg2 : Nat)

variable {size : Int}

/-- The next power of two. -/
theorem le_two_pow_iff {n : Nat} (hn : n ≠ 0) (l : Nat) :
    n ≤ 2 ^ l ↔ (if 2 ^ n.log2 < n then n.log2 + 1 else n.log2) ≤ l := by
  have hlow := Nat.log2_self_le hn
  split
  · rename_i hlt
    rw [Nat.succ_le_iff, Nat.log2_lt hn]
    constructor
    · intro hle
      refine Nat.lt_of_le_of_ne hle fun heq => ?_
      rw [heq, Nat.log2_two_pow] at hlt
      exact Nat.lt_irrefl _ hlt
    · exact Nat.le_of_lt
  · rename_i hle
    have heq : 2 ^ n.log2 = n := by omega
    constructor
    · intro hn'
      rw [← heq] at hn'
      exact (Nat.pow_le_pow_iff_right (by omega)).1 hn'
    · intro hl
      rw [← heq]
      exact Nat.pow_le_pow_right (by omega) hl

/-- The entry for the first logarithm that is large enough. -/
theorem ClassTable.entry_spec (ht : ClassTable s p n₀ n₁) {t : Nat} {found : Option Nat}
    (hsize : ∀ q, n₀ ≤ q → q < n₁ →
      (size ≤ (2 ^ (s.clPools q).clLg2 : Nat) ↔ t ≤ (s.clPools q).clLg2))
    (hat : (if t < CL_LOG2_MIN then none else some ((s.pools p).clTable (t - CL_LOG2_MIN))) =
      some found) :
    (found = none → ∀ q, ¬ Serves s n₀ n₁ size q) ∧ ∀ q, found = some q →
      Serves s n₀ n₁ size q ∧ ∀ q', Serves s n₀ n₁ size q' →
        (s.clPools q).clLg2 ≤ (s.clPools q').clLg2 := by
  split at hat
  · simp at hat
  · rename_i hmin
    have hback : t - CL_LOG2_MIN + CL_LOG2_MIN = t := by omega
    have hentry := Option.some.inj hat
    constructor
    · intro hnone q hq
      rw [hnone] at hentry
      have hless := ht.table.hole _ hentry q hq.low hq.high
      have hle := (hsize q hq.low hq.high).1 hq.size_le
      omega
    · intro q hsome
      rw [hsome] at hentry
      obtain ⟨hlow, hhigh, hle, hleast⟩ := ht.table.entry _ q hentry
      rw [hback] at hle hleast
      refine ⟨⟨hlow, hhigh, (hsize q hlow hhigh).2 hle⟩, fun q' hq' => ?_⟩
      exact hleast q' hq'.low hq'.high ((hsize q' hq'.low hq'.high).1 hq'.size_le)

theorem clPoolIdGet_spec (ht : ClassTable s p n₀ n₁) {found : Option Nat}
    (hget : clPoolIdGet s p size true = some found) :
    (found = none → ∀ q, ¬ Serves s n₀ n₁ size q) ∧ ∀ q, found = some q →
      Serves s n₀ n₁ size q ∧ ∀ q', Serves s n₀ n₁ size q' →
        (s.clPools q).clLg2 ≤ (s.clPools q').clLg2 := by
  rw [clPoolIdGet] at hget
  dsimp only at hget
  split at hget
  · rename_i hlarge
    rw [if_pos rfl] at hget
    have hnone := Option.some.inj hget
    constructor
    · intro _ q hq
      have hmax := ht.sizeMax q hq.low hq.high
      have hle := hq.size_le
      omega
    · intro q hsome
      rw [hsome] at hnone
      exact absurd hnone (by simp)
  · rename_i hsmall
    split at hget
    · rename_i htiny
      refine ht.entry_spec (fun q hq hlt => ?_) hget
      have hmin := ht.lg2Min q hq hlt
      have hsize := ht.sizeMin
      have hpow := Nat.pow_le_pow_right (n := 2) (by omega) hmin
      exact iff_of_true (by omega) hmin
    · rename_i hthere
      have htop := ht.top.2
      rw [CL_LOG2_MAX] at htop
      by_cases hzero : size.toNat = 0
      · have hlog : SIZE_TO_LOG2 0 = 0 := by decide
        rw [hzero, hlog] at hget
        simp [CL_LOG2_MIN] at hget
      · rw [SIZE_TO_LOG2_eq (by omega) (by omega)] at hget
        refine ht.entry_spec (fun q _ _ => ?_) hget
        rw [← le_two_pow_iff hzero]
        omega

/-- The scan ends at the first bit. -/
theorem scanMask_spec {pool : Pool} {fuel lg2 q : Nat} (h : scanMask pool fuel lg2 = some q) :
    ∃ k, lg2 ≤ k ∧ pool.clMask.testBit k = true ∧ pool.clTable (k - CL_LOG2_MIN) = some q ∧
      ∀ j, lg2 ≤ j → j < k → pool.clMask.testBit j = false := by
  induction fuel generalizing lg2 with
  | zero => exact absurd h (by simp [scanMask])
  | succ fuel ih =>
    rw [scanMask] at h
    split at h
    · rename_i hbit
      exact ⟨lg2, Nat.le_refl _, hbit, h, fun j hle hlt => by omega⟩
    · rename_i hbit
      obtain ⟨k, hle, hk, htable, hclear⟩ := ih h
      refine ⟨k, by omega, hk, htable, fun j hj hlt => ?_⟩
      by_cases heq : j = lg2
      · rw [heq]
        exact Bool.eq_false_of_not_eq_true hbit
      · exact hclear j (by omega) hlt

/-- A class with clusters that is the smallest of those that serve. -/
structure Smallest (s : State) (n₀ n₁ : Nat) (size : Int) (q : Nat) : Prop where
  serves : Serves s n₀ n₁ size q
  free : (s.clPools q).pClHead ≠ []
  least : ∀ q', Serves s n₀ n₁ size q' → (s.clPools q').pClHead ≠ [] →
    (s.clPools q).clLg2 ≤ (s.clPools q').clLg2

/-- The class that is picked is the smallest one with clusters, or none has any. -/
theorem pickPool_spec (ht : ClassTable s p n₀ n₁) (hl : ClassLists s p n₀ n₁) {q' : Nat}
    (hserves : Serves s n₀ n₁ size q)
    (hleast : ∀ q', Serves s n₀ n₁ size q' → (s.clPools q).clLg2 ≤ (s.clPools q').clLg2)
    (hpick : pickPool s p q true = some q') :
    Smallest s n₀ n₁ size q' ∨
      (s.clPools q').pClHead = [] ∧ ∀ q'', Serves s n₀ n₁ size q'' → (s.clPools q'').pClHead = [] := by
  rw [pickPool] at hpick
  split at hpick
  · rename_i hempty
    dsimp only at hpick
    split at hpick
    · obtain ⟨k, hle, hbit, htable, hclear⟩ := scanMask_spec hpick
      obtain ⟨q₁, hlow₁, hhigh₁, hk, hfree⟩ := (hl.mask k).1 hbit
      have hmin := (ht.lg2 q hserves.low hserves.high).1
      have hback : k - CL_LOG2_MIN + CL_LOG2_MIN = k := by omega
      obtain ⟨hlow, hhigh, hge, hsmall⟩ := ht.table.entry _ q' htable
      rw [hback] at hge hsmall
      have hlg2 : (s.clPools q').clLg2 = k :=
        Nat.le_antisymm (hk ▸ hsmall q₁ hlow₁ hhigh₁ (Nat.le_of_eq hk.symm)) hge
      have hsame : q' = q₁ := ht.distinct q' q₁ hlow hhigh hlow₁ hhigh₁ (hlg2.trans hk.symm)
      left
      refine ⟨⟨hlow, hhigh, ?_⟩, by rw [hsame]; exact hfree, fun q₂ hserves₂ hfree₂ => ?_⟩
      · have hpow := Nat.pow_le_pow_right (n := 2) (by omega) hle
        have hsize := hserves.size_le
        rw [hlg2]
        omega
      · rw [hlg2]
        by_contra hless
        have hfalse := hclear (s.clPools q₂).clLg2 (hleast q₂ hserves₂) (by omega)
        have htrue := (hl.mask (s.clPools q₂).clLg2).2
          ⟨q₂, hserves₂.low, hserves₂.high, rfl, hfree₂⟩
        rw [htrue] at hfalse
        exact absurd hfalse (by decide)
    · rename_i hmask
      have hq : q = q' := Option.some.inj hpick
      rw [← hq]
      right
      refine ⟨hempty, fun q₂ hserves₂ => ?_⟩
      by_contra hfree₂
      have htrue := (hl.mask (s.clPools q₂).clLg2).2
        ⟨q₂, hserves₂.low, hserves₂.high, rfl, hfree₂⟩
      have hge := Nat.ge_two_pow_of_testBit htrue
      have hpow := Nat.pow_le_pow_right (n := 2) (by omega) (hleast q₂ hserves₂)
      omega
  · rename_i hfree
    have hq : q = q' := Option.some.inj hpick
    rw [← hq]
    exact Or.inl ⟨hserves, hfree, fun q₂ hserves₂ _ => hleast q₂ hserves₂⟩

/-- What a get with best fit does: it attaches a cluster of the smallest class that serves and has
one, or no class that serves has any.  `storage` is what the clusters of a class were carved with. -/
structure BestFit (s s' : State) (n₀ n₁ : Nat) (storage : Nat → Nat) (size : Int) (m : Nat)
    (ok : Bool) : Prop where
  attached : ok = true → ∃ q c b, Smallest s n₀ n₁ size q ∧ (s.clPools q).pClHead.head? = some c ∧
    (s'.mBlks m).pClBlk = some b ∧ (s'.clBlks b).pClBuf = some c ∧
    size ≤ (s'.clBlks b).clSize ∧ (s'.clBlks b).clSize = storage (s.clPoolOf c)
  failed : ok = false → ∀ q, Serves s n₀ n₁ size q → (s.clPools q).pClHead = []

theorem takenB_same {b : Nat} {rest : List Nat} : SameClasses s (takenB s p b rest) p n₀ n₁ where
  classes _ _ _ := rfl
  home _ _ _ _ _ := rfl
  table := by
    show SameTable (Function.update s.pools p _ p) _
    rw [Function.update_self]
    exact ⟨rfl, rfl, rfl, rfl, rfl⟩
  mask := by
    show (Function.update s.pools p _ p).clMask = _
    rw [Function.update_self]

theorem Serves.congr (h : Serves s n₀ n₁ size q) (heq : s'.clPools = s.clPools) :
    Serves s' n₀ n₁ size q := ⟨h.low, h.high, by rw [heq]; exact h.size_le⟩

theorem Smallest.congr (h : Smallest s n₀ n₁ size q) (heq : s'.clPools = s.clPools) :
    Smallest s' n₀ n₁ size q := by
  refine ⟨h.serves.congr heq, by rw [heq]; exact h.free, fun q' hq' => ?_⟩
  rw [heq]
  exact h.least q' (hq'.congr heq.symm)

/-- A get that finds a clBlk, from the state without it. -/
theorem mClGet_cons {b : Nat} {rest : List Nat} (hhead : (s.pools p).pClBlkHead = b :: rest)
    {m : Nat} {ok : Bool} (hget : mClGet s p (some m) size true = some (s', ok)) :
    ∃ found, clPoolIdGet (takenB s p b rest) p size true = some found ∧
      (found = none ∧ ok = false ∨ ∃ q q', found = some q ∧
        pickPool (takenB s p b rest) p q true = some q' ∧
        (((takenB s p b rest).clPools q').pClHead = [] ∧ ok = false ∨
          ∃ c rest', ((takenB s p b rest).clPools q').pClHead = c :: rest' ∧ ok = true ∧
            s' = attachCl (takenC (takenB s p b rest) p q' c rest') m b c
              (((takenB s p b rest).clPools q').clSize))) := by
  rw [mClGet, clBlkGet_cons hhead] at hget
  generalize takenB s p b rest = s₁ at hget ⊢
  dsimp only at hget
  cases hfound : clPoolIdGet s₁ p size true with
  | none =>
    rw [hfound] at hget
    exact absurd hget (by simp)
  | some found =>
    rw [hfound] at hget
    refine ⟨found, rfl, ?_⟩
    cases found with
    | none =>
      rw [Option.some.injEq, Prod.mk.injEq] at hget
      exact Or.inl ⟨rfl, hget.2.symm⟩
    | some q =>
      dsimp only at hget
      cases hpick : pickPool s₁ p q true with
      | none =>
        rw [hpick] at hget
        exact absurd hget (by simp)
      | some q' =>
        rw [hpick] at hget
        dsimp only at hget
        refine Or.inr ⟨q, q', rfl, hpick, ?_⟩
        cases hclusters : (s₁.clPools q').pClHead with
        | nil =>
          rw [clusterGet_nil hclusters] at hget
          dsimp only at hget
          rw [Option.some.injEq, Prod.mk.injEq] at hget
          exact Or.inl ⟨rfl, hget.2.symm⟩
        | cons c rest' =>
          rw [clusterGet_cons hclusters] at hget
          dsimp only at hget
          rw [Option.some.injEq, Prod.mk.injEq] at hget
          refine Or.inr ⟨c, rest', rfl, hget.2.symm, ?_⟩
          rw [← hget.1]
          have hsize : ((takenC s₁ p q' c rest').clPools q').clSize = (s₁.clPools q').clSize := by
            show (Function.update s₁.clPools q' _ q').clSize = _
            rw [Function.update_self]
          rw [hsize]

theorem attachCl_mBlk (s : State) (m b c clSize : Nat) :
    ((attachCl s m b c clSize).mBlks m).pClBlk = some b := by
  show (Function.update s.mBlks m _ m).pClBlk = _
  rw [Function.update_self]

theorem attachCl_clBlk (s : State) (m b c clSize : Nat) :
    ((attachCl s m b c clSize).clBlks b).pClBuf = some c ∧
      ((attachCl s m b c clSize).clBlks b).clSize = clSize := by
  show (Function.update s.clBlks b _ b).pClBuf = _ ∧ (Function.update s.clBlks b _ b).clSize = _
  rw [Function.update_self]
  exact ⟨rfl, rfl⟩

theorem mClGet_spec (ht : ClassTable s p n₀ n₁) (hl : ClassLists s p n₀ n₁) {storage : Nat → Nat}
    (hstorage : ∀ q, n₀ ≤ q → q < n₁ → (s.clPools q).clSize = storage q) {m : Nat} {ok : Bool}
    (hget : mClGet s p (some m) size true = some (s', ok)) :
    BestFit s s' n₀ n₁ storage size m ok := by
  cases hhead : (s.pools p).pClBlkHead with
  | nil =>
    rw [mClGet, clBlkGet_nil hhead] at hget
    exact absurd hget (by simp)
  | cons b rest =>
    have hclasses : s.clPools = (takenB s p b rest).clPools := rfl
    have ht₁ : ClassTable (takenB s p b rest) p n₀ n₁ :=
      ht.same (fun _ _ _ => ⟨rfl, rfl, rfl⟩) (@takenB_same s p n₀ n₁ b rest).table
    have hl₁ := hl.same (@takenB_same s p n₀ n₁ b rest)
    obtain ⟨found, hfound, hrest⟩ := mClGet_cons hhead hget
    obtain ⟨hnone, hsome⟩ := clPoolIdGet_spec ht₁ hfound
    rcases hrest with ⟨hfail, hok⟩ | ⟨q, q', hq, hpick, hcluster⟩
    · refine ⟨fun htrue => ?_, fun _ q hq => absurd (hq.congr hclasses.symm) (hnone hfail q)⟩
      rw [hok] at htrue
      exact absurd htrue (by decide)
    · obtain ⟨hserves, hleast⟩ := hsome q hq
      rcases hcluster with ⟨hempty, hok⟩ | ⟨c, rest', hcons, hok, hs'⟩
      · refine ⟨fun htrue => ?_, fun _ q'' hq'' => ?_⟩
        · rw [hok] at htrue
          exact absurd htrue (by decide)
        · rcases pickPool_spec ht₁ hl₁ hserves hleast hpick with hsmall | hall
          · exact absurd hempty hsmall.free
          · exact hall.2 q'' (hq''.congr hclasses.symm)
      · refine ⟨fun _ => ?_, fun hfalse => ?_⟩
        · rcases pickPool_spec ht₁ hl₁ hserves hleast hpick with hsmall | hall
          · have hin := hsmall.serves
            have hattached := attachCl_clBlk (takenC (takenB s p b rest) p q' c rest') m b c
              (((takenB s p b rest).clPools q').clSize)
            rw [← hs'] at hattached
            have hhome : s.clPoolOf c = q' :=
              hl₁.home q' hin.low hin.high c (by rw [hcons]; exact List.mem_cons_self)
            refine ⟨q', c, b, hsmall.congr hclasses, ?_, ?_, hattached.1, ?_, ?_⟩
            · rw [hclasses, hcons]
              rfl
            · rw [hs']
              exact attachCl_mBlk _ m b c _
            · have hlog := (ht₁.lg2 q' hin.low hin.high).2.2
              have hsize := hin.size_le
              rw [hattached.2]
              omega
            · rw [hattached.2, hhome]
              exact hstorage q' hin.low hin.high
          · rw [hall.1] at hcons
            exact absurd hcons (by simp)
        · rw [hok] at hfalse
          exact absurd hfalse (by decide)

/-! ## Every state of the lists -/

theorem takenC_sizes {c : Nat} {rest : List Nat} :
    SameSizes s (takenC s p q c rest) n₀ n₁ ∧
      SameTable ((takenC s p q c rest).pools p) (s.pools p) := by
  constructor
  · intro q' _ _
    show (Function.update s.clPools q _ q').clSize = _ ∧ (Function.update s.clPools q _ q').clLg2 = _
      ∧ (Function.update s.clPools q _ q').pNetPool = _
    rw [Function.update_apply]
    split
    · rename_i heq
      rw [heq]
      exact ⟨rfl, rfl, rfl⟩
    · exact ⟨rfl, rfl, rfl⟩
  · show SameTable (Function.update s.pools p _ p) _
    rw [Function.update_self]
    exact ⟨rfl, rfl, rfl, rfl, rfl⟩

theorem clusterReturn_sizes {c : Nat} :
    SameSizes s (clusterReturn s c) n₀ n₁ ∧
      SameTable ((clusterReturn s c).pools p) (s.pools p) := by
  constructor
  · intro q' _ _
    show (Function.update s.clPools (s.clPoolOf c) _ q').clSize = _ ∧
      (Function.update s.clPools (s.clPoolOf c) _ q').clLg2 = _ ∧
      (Function.update s.clPools (s.clPoolOf c) _ q').pNetPool = _
    rw [Function.update_apply]
    split
    · rename_i heq
      rw [heq]
      exact ⟨rfl, rfl, rfl⟩
    · exact ⟨rfl, rfl, rfl⟩
  · show SameTable (Function.update s.pools _ _ p) _
    rw [Function.update_apply]
    split
    · rename_i heq
      rw [heq]
      exact ⟨rfl, rfl, rfl, rfl, rfl⟩
    · exact ⟨rfl, rfl, rfl, rfl, rfl⟩

/-- The table and the lists of a pool are right, and its clusters have the sizes of `storage`. -/
structure Ready (s : State) (p n₀ n₁ : Nat) (storage : Nat → Nat) : Prop where
  table : ClassTable s p n₀ n₁
  lists : ClassLists s p n₀ n₁
  storage : ∀ q, n₀ ≤ q → q < n₁ → (s.clPools q).clSize = storage q

theorem Ready.move {storage : Nat → Nat} (h : Ready s p n₀ n₁ storage)
    (hmove : Move p n₀ n₁ s s') : Ready s' p n₀ n₁ storage := by
  have hkeep : SameSizes s s' n₀ n₁ → SameTable (s'.pools p) (s.pools p) →
      ClassLists s' p n₀ n₁ → Ready s' p n₀ n₁ storage := by
    intro hsizes htable hlists
    refine ⟨h.table.same hsizes htable, hlists, fun q hq hlt => ?_⟩
    rw [(hsizes q hq hlt).1]
    exact h.storage q hq hlt
  cases hmove with
  | get q hq hlt =>
    have hlists := h.lists.get h.table hq hlt
    cases hhead : (s.clPools q).pClHead with
    | nil =>
      rw [clusterGet_nil hhead]
      exact h
    | cons c rest =>
      rw [clusterGet_cons hhead] at hlists hkeep ⊢
      obtain ⟨hsizes, htable⟩ := @takenC_sizes s p q n₀ n₁ c rest
      exact hkeep hsizes htable hlists
  | free c hq hlt =>
    obtain ⟨hsizes, htable⟩ := @clusterReturn_sizes s p n₀ n₁ c
    exact hkeep hsizes htable (h.lists.free h.table hq hlt)
  | other _ hsame =>
    refine hkeep (fun q hq hlt => ?_) hsame.table (h.lists.same hsame)
    rw [hsame.classes q hq hlt]
    exact ⟨rfl, rfl, rfl⟩

/-- What the clusters of the classes from `n₀` on are carved with. -/
def carved (descs : List ClDesc) (n₀ q : Nat) : Nat :=
  ((descs[q - n₀]?).map ClDesc.clSize).getD 0

/-- A get with best fit is right in every state of the lists of a pool whose sizes have different
logarithms. -/
theorem best_fit {s₀ s s' : State} {config : Option MClConfig} {descs : List ClDesc}
    {stat : Nat → Nat} {size : Int} {m : Nat} {ok : Bool}
    (hdone : (netPoolInit s₀ config descs stat).nPools = s₀.nPools + 1)
    (hnodup : (sizeLog2s (usedDescs descs)).Nodup)
    (hmoves : Relation.ReflTransGen
      (Move s₀.nPools s₀.nClPools (s₀.nClPools + (usedDescs descs).length))
      (netPoolInit s₀ config descs stat) s)
    (hget : mClGet s s₀.nPools (some m) size true = some (s', ok)) :
    BestFit s s' s₀.nClPools (s₀.nClPools + (usedDescs descs).length)
      (carved (usedDescs descs) s₀.nClPools) size m ok := by
  obtain ⟨hbuild, hn, hdescs⟩ := netPoolInit_table hdone hnodup
  have hready : Ready (netPoolInit s₀ config descs stat) s₀.nPools s₀.nClPools
      (s₀.nClPools + (usedDescs descs).length) (carved (usedDescs descs) s₀.nClPools) := by
    rw [← hn]
    refine ⟨hbuild.table, hbuild.lists, fun q hq hlt => ?_⟩
    have hi : q - s₀.nClPools < (usedDescs descs).length := by omega
    have hsize := (hdescs _ _ (List.getElem?_eq_getElem hi)).1
    rw [Nat.add_sub_cancel' hq] at hsize
    rw [hsize, carved, List.getElem?_eq_getElem hi]
    rfl
  have hend : Ready s s₀.nPools s₀.nClPools (s₀.nClPools + (usedDescs descs).length)
      (carved (usedDescs descs) s₀.nClPools) := by
    clear hget
    induction hmoves with
    | refl => exact hready
    | tail _ hmove ih => exact ih.move hmove
  exact mClGet_spec hend.table hend.lists hend.storage hget

/-- The configuration of a pool with an mBlk and a clBlk. -/
def config₁ : MClConfig := ⟨1, 1, 4096, 256, by decide⟩

/-- A cluster of 64 bytes is got for 60. -/
theorem best_fit_small : ∃ s',
    mClGet (netPoolInit {} (some config₁) [⟨64, 1, 8192, 256⟩] fun _ => 0) 0 (some 0) 60 true =
      some (s', true) ∧
    BestFit (netPoolInit {} (some config₁) [⟨64, 1, 8192, 256⟩] fun _ => 0) s' 0 1
      (carved [⟨64, 1, 8192, 256⟩] 0) 60 0 true :=
  ⟨_, rfl, @best_fit {} _ _ (some config₁) [⟨64, 1, 8192, 256⟩] (fun _ => 0) 60 0 true rfl
    (by decide) Relation.ReflTransGen.refl rfl⟩

/-- Clusters of 1024 bytes, and of 1536, which have the same logarithm. -/
def sameLog2 : List ClDesc := [⟨1024, 1, 4096, 2048⟩, ⟨1536, 1, 8192, 2048⟩]

/-- When the cluster of 1536 bytes is taken no request finds the one of 1024. -/
theorem not_best_fit : ¬ ∀ (descs : List ClDesc) (s s' : State) (size : Int) (ok : Bool),
    (netPoolInit {} (some config₁) descs fun _ => 0).nPools = 1 →
    Relation.ReflTransGen (Move 0 0 (usedDescs descs).length)
      (netPoolInit {} (some config₁) descs fun _ => 0) s →
    mClGet s 0 (some 0) size true = some (s', ok) →
    BestFit s s' 0 (usedDescs descs).length (carved (usedDescs descs) 0) size 0 ok := by
  intro h
  have hmove := Relation.ReflTransGen.single (@Move.get 0 0 2
    (netPoolInit {} (some config₁) sameLog2 fun _ => 0) 1 (by decide) (by decide))
  have hfit := h sameLog2 _ _ 1024 false rfl hmove rfl
  have hempty := hfit.failed rfl 0 ⟨by decide, by decide, by decide⟩
  exact absurd hempty (by decide)

end Vmx.NetBuf
