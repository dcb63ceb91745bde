import Vmx.Net.NetBuf

/-!
# The operations on the pools

Each operation keeps the invariant when it is used as `goodStep` says.  What that leaves out is
what breaks a pool: statistics that start with what `malloc` left there, two cluster sizes with the
same logarithm, a block of type `MT_FREE`, `netMblkFree` of a block with a cluster, a second
cluster for a block, and the ways into a pointer that is `NULL` or was never set.
-/

namespace Vmx.NetBuf

open Lib

variable {s s' : State} {p q m b c : Nat} {wait bestFit : Bool} {size : Int}

/-! ## Frames

What an operation on one kind of block does to the others: nothing. -/

theorem BInv.mBlkFree (h : BInv s) : BInv (mBlkFree s p m) := by
  refine h.congr (fun p' => ?_) (fun _ _ => rfl) rfl rfl rfl rfl
  simp only [NetBuf.mBlkFree, State.setUsed, State.setMblk, State.setPool, Function.update_apply]
  split <;> simp_all

theorem CInv.mBlkFree (h : CInv s) : CInv (mBlkFree s p m) := by
  refine h.congr (fun p' => ?_) rfl rfl rfl rfl rfl rfl
  simp only [NetBuf.mBlkFree, State.setUsed, State.setMblk, State.setPool, Function.update_apply]
  split <;> simp_all

theorem MInv.clBlkReturn (h : MInv s) : MInv (clBlkReturn s b) := by
  refine h.congr (fun p' => ?_) (fun p' => ?_) (fun _ => rfl) (fun _ => rfl) rfl rfl rfl <;>
  · simp only [NetBuf.clBlkReturn, State.setClBlkOwner, State.setPool, Function.update_apply]
    split <;> simp_all

theorem CInv.clBlkReturn (h : CInv s) : CInv (clBlkReturn s b) := by
  refine h.congr (fun p' => ?_) rfl rfl rfl rfl rfl rfl
  simp only [NetBuf.clBlkReturn, State.setClBlkOwner, State.setPool, Function.update_apply]
  split <;> simp_all

theorem MInv.clusterReturn (h : MInv s) : MInv (clusterReturn s c) := by
  refine h.congr (fun p' => ?_) (fun p' => ?_) (fun _ => rfl) (fun _ => rfl) rfl rfl rfl <;>
  · simp only [NetBuf.clusterReturn, State.setClOwner, State.setClPool, State.setPool,
      Function.update_apply]
    split <;> simp_all

theorem BInv.clusterReturn (h : BInv s) : BInv (clusterReturn s c) := by
  refine h.congr (fun p' => ?_) (fun _ _ => rfl) rfl rfl rfl rfl
  simp only [NetBuf.clusterReturn, State.setClOwner, State.setClPool, State.setPool,
    Function.update_apply]
  split <;> simp_all

theorem MInv.setClBlk (h : MInv s) (f : ClBlk → ClBlk) : MInv (s.setClBlk b f) :=
  h.congr (fun _ => rfl) (fun _ => rfl) (fun _ => rfl) (fun _ => rfl) rfl rfl rfl

theorem BInv.setClBlk (h : BInv s) {f : ClBlk → ClBlk}
    (hf : ∀ blk, (f blk).pNetPool = blk.pNetPool) : BInv (s.setClBlk b f) := by
  refine h.congr (fun _ => rfl) (fun b' _ => ?_) rfl rfl rfl rfl
  simp only [State.setClBlk, Function.update_apply]
  split <;> simp_all

theorem CInv.setClBlk (h : CInv s) (f : ClBlk → ClBlk) : CInv (s.setClBlk b f) :=
  h.congr (fun _ => rfl) rfl rfl rfl rfl rfl rfl

theorem TInv.setClBlk (h : TInv s) (f : ClBlk → ClBlk) : TInv (s.setClBlk b f) :=
  h.congr (fun _ => ⟨rfl, rfl, rfl, rfl, rfl⟩) (fun _ => ⟨rfl, rfl⟩) rfl fun _ _ hk => .inl hk

theorem MInv.setMblk (h : MInv s) {f : MBlk → MBlk}
    (hf : ∀ blk, (f blk).netPool = blk.netPool ∧ (f blk).mType = blk.mType) :
    MInv (s.setMblk m f) := by
  refine h.congr (fun _ => rfl) (fun _ => rfl) (fun m' => ?_) (fun m' => ?_) rfl rfl rfl <;>
  · simp only [State.setMblk, Function.update_apply]
    split <;> simp_all

/-- No operation changes a table; only a cluster comes and goes in the mask. -/
theorem TInv.same (h : TInv s)
    (hpools : ∀ p, SameTable (s'.pools p) (s.pools p) ∧ (s'.pools p).clMask = (s.pools p).clMask)
    (hcl : s'.clPools = s.clPools) (hq : s'.nClPools = s.nClPools) : TInv s' :=
  h.congr (fun p => (hpools p).1) (fun q => by simp [hcl]) hq
    (fun p k hk => .inl (by rwa [(hpools p).2] at hk))

/-- A change of other fields of a pool. -/
theorem TInv.setPool (h : TInv s) {f : Pool → Pool}
    (hf : ∀ pool, SameTable (f pool) pool ∧ (f pool).clMask = pool.clMask) :
    TInv (s.setPool p f) := by
  refine h.same (fun p' => ?_) rfl rfl
  simp only [State.setPool, Function.update_apply]
  split
  · subst_vars
    exact hf _
  · exact ⟨⟨rfl, rfl, rfl, rfl, rfl⟩, rfl⟩

theorem TInv.mBlkFree (h : TInv s) : TInv (mBlkFree s p m) :=
  (h.setPool (p := p) (f := fun pool =>
    { pool with mTypes := retype pool.mTypes (s.mBlks m).mType MT_FREE
                pmBlkHead := m :: pool.pmBlkHead })
    fun _ => ⟨⟨rfl, rfl, rfl, rfl, rfl⟩, rfl⟩).same
    (fun _ => ⟨⟨rfl, rfl, rfl, rfl, rfl⟩, rfl⟩) rfl rfl

theorem TInv.clBlkReturn (h : TInv s) : TInv (clBlkReturn s b) :=
  (h.setPool (p := (s.clBlks b).pNetPool)
    (f := fun pool => { pool with pClBlkHead := b :: pool.pClBlkHead })
    fun _ => ⟨⟨rfl, rfl, rfl, rfl, rfl⟩, rfl⟩).same
    (fun _ => ⟨⟨rfl, rfl, rfl, rfl, rfl⟩, rfl⟩) rfl rfl

theorem TInv.clusterReturn (h : TInv s) (hq : s.clPoolOf c < s.nClPools) :
    TInv (clusterReturn s c) := by
  refine h.congr (fun p' => ?_) (fun q' => ?_) rfl (fun p' k hk => ?_)
  · simp only [NetBuf.clusterReturn, State.setClOwner, State.setClPool, State.setPool,
      Function.update_apply]
    split
    · subst_vars
      exact ⟨rfl, rfl, rfl, rfl, rfl⟩
    · exact ⟨rfl, rfl, rfl, rfl, rfl⟩
  · simp only [NetBuf.clusterReturn, State.setClOwner, State.setClPool, State.setPool,
      Function.update_apply]
    split <;> simp_all
  · simp only [NetBuf.clusterReturn, State.setClOwner, State.setClPool, State.setPool,
      Function.update_apply] at hk
    split at hk
    · rename_i heq
      simp only [Nat.testBit_or, Nat.testBit_two_pow, Bool.or_eq_true, decide_eq_true_eq] at hk
      obtain hk | hk := hk
      · exact .inl (by rw [heq]; exact hk)
      · exact .inr ⟨s.clPoolOf c, hq, heq.symm, hk⟩
    · exact .inl hk

/-! ## mBlks -/

/-- A block that is handed out comes from the free list. -/
theorem TInv.takenM {type : Nat} {rest : List Nat} (h : TInv s) :
    TInv (takenM s p m rest type) :=
  (h.setPool (p := p) (f := fun pool =>
    { pool with pmBlkHead := rest, mTypes := retype pool.mTypes MT_FREE type })
    fun _ => ⟨⟨rfl, rfl, rfl, rfl, rfl⟩, rfl⟩).same
    (fun _ => ⟨⟨rfl, rfl, rfl, rfl, rfl⟩, rfl⟩) rfl rfl

theorem PoolInv.takenM {type : Nat} {rest : List Nat} (h : PoolInv s)
    (hp : (s.pools p).pmBlkHead = m :: rest) (h0 : type ≠ MT_FREE) (hlt : type < 256) :
    PoolInv (takenM s p m rest type) := by
  have hfree := (h.mBlks.head hp).2.2
  refine ⟨h.mBlks.taken hp h0 hlt, ?_, ?_, h.refs.takenM hfree, h.tables.takenM⟩
  · refine h.clBlks.congr (fun p' => ?_) (fun _ _ => rfl) rfl rfl rfl rfl
    simp only [NetBuf.takenM, State.setUsed, State.setMblk, State.setPool, Function.update_apply]
    split <;> simp_all
  · refine h.clusters.congr (fun p' => ?_) rfl rfl rfl rfl rfl rfl
    simp only [NetBuf.takenM, State.setUsed, State.setMblk, State.setPool, Function.update_apply]
    split <;> simp_all

theorem mBlkGet_head {type : Nat} (h : MInv s) (hget : mBlkGet s p wait type = (s', some m)) :
    ∃ rest, (s.pools p).pmBlkHead = m :: rest := by
  cases hp : (s.pools p).pmBlkHead with
  | nil =>
    obtain ⟨drops, heq⟩ := mBlkGet_nil wait type hp
    rw [heq] at hget
    simp at hget
  | cons m' rest =>
    rw [mBlkGet_cons h wait type hp, Prod.mk.injEq, Option.some.injEq] at hget
    exact ⟨rest, by rw [hget.2]⟩

/-- What a successful `_mBlkGet` hands out. -/
theorem mBlkGet_some {type : Nat} (h : PoolInv s) (h0 : type ≠ MT_FREE) (hlt : type < 256)
    (hget : mBlkGet s p wait type = (s', some m)) :
    PoolInv s' ∧ ∃ rest, (s.pools p).pmBlkHead = m :: rest ∧ s' = takenM s p m rest type := by
  obtain ⟨rest, hp⟩ := mBlkGet_head h.mBlks hget
  rw [mBlkGet_cons h.mBlks wait type hp, Prod.mk.injEq] at hget
  obtain ⟨rfl, -⟩ := hget
  exact ⟨h.takenM hp h0 hlt, rest, hp, rfl⟩

/-- Counting a drop changes nothing that is conserved. -/
theorem PoolInv.drops (h : PoolInv s) (p drops : Nat) :
    PoolInv (s.setPool p fun pool => { pool with mDrops := drops }) := by
  refine ⟨h.mBlks.congr (fun p' => ?_) (fun p' => ?_) (fun _ => rfl) (fun _ => rfl) rfl rfl rfl,
    h.clBlks.congr (fun p' => ?_) (fun _ _ => rfl) rfl rfl rfl rfl,
    h.clusters.congr (fun p' => ?_) rfl rfl rfl rfl rfl rfl,
    h.refs.congr rfl rfl (fun _ _ => ⟨rfl, rfl⟩) (fun _ _ => ⟨rfl, rfl⟩) rfl rfl,
    h.tables.setPool fun _ => ⟨⟨rfl, rfl, rfl, rfl, rfl⟩, rfl⟩⟩ <;>
  · simp only [State.setPool, Function.update_apply]
    split <;> simp_all

theorem mBlkGet_none {type : Nat} (h : PoolInv s) (hget : mBlkGet s p wait type = (s', none)) :
    PoolInv s' := by
  cases hp : (s.pools p).pmBlkHead with
  | nil =>
    obtain ⟨drops, heq⟩ := mBlkGet_nil wait type hp
    rw [heq, Prod.mk.injEq] at hget
    rw [← hget.1]
    exact h.drops p drops
  | cons m' rest =>
    rw [mBlkGet_cons h.mBlks wait type hp] at hget
    simp at hget

/-- `_mBlkFree` of a used block without a cluster. -/
theorem PoolInv.mBlkFree (h : PoolInv s) (hu : s.used m = true)
    (hpool : (s.mBlks m).netPool = p) (hext : (s.mBlks m).ext = false) :
    PoolInv (mBlkFree s p m) := by
  exact ⟨h.mBlks.freed hu hpool, h.clBlks.mBlkFree, h.clusters.mBlkFree, h.refs.freedM hext,
    h.tables.mBlkFree⟩

/-! ## clBlks and clusters by themselves -/

theorem TInv.takenB (h : TInv s) {rest : List Nat} : TInv (takenB s p b rest) :=
  (h.setPool (p := p) (f := fun pool => { pool with pClBlkHead := rest })
    fun _ => ⟨⟨rfl, rfl, rfl, rfl, rfl⟩, rfl⟩).same
    (fun _ => ⟨⟨rfl, rfl, rfl, rfl, rfl⟩, rfl⟩) rfl rfl

theorem PoolInv.takenB (h : PoolInv s) {rest : List Nat}
    (hp : (s.pools p).pClBlkHead = b :: rest) : PoolInv (takenB s p b rest) := by
  have hold : s.clBlkOwner b ≠ .mBlks := by simp [(h.clBlks.head hp).2.2]
  refine ⟨h.mBlks.congr (fun p' => ?_) (fun p' => ?_) (fun _ => rfl) (fun _ => rfl) rfl rfl rfl,
    h.clBlks.taken hp, h.clusters.congr (fun p' => ?_) rfl rfl rfl rfl rfl rfl,
    h.refs.of_owner (o := .caller) hold (by simp) rfl rfl rfl rfl (fun b' => ?_)
      (fun b' hb' => ?_) (fun _ => ?_),
    h.tables.takenB⟩
  · simp only [NetBuf.takenB, State.setClBlkOwner, State.setClBlk, State.setPool,
      Function.update_apply]
    split <;> simp_all
  · simp only [NetBuf.takenB, State.setClBlkOwner, State.setClBlk, State.setPool,
      Function.update_apply]
    split <;> simp_all
  · simp only [NetBuf.takenB, State.setClBlkOwner, State.setClBlk, State.setPool,
      Function.update_apply]
    split <;> simp_all
  · simp [NetBuf.takenB, State.setClBlkOwner, State.setClBlk, State.setPool,
      Function.update_apply]
  · simp [NetBuf.takenB, State.setClBlkOwner, State.setClBlk, State.setPool,
      Function.update_of_ne hb']
  · simp [NetBuf.takenB, State.setClBlkOwner, State.setClBlk, State.setPool]

theorem PoolInv.clBlkReturn (h : PoolInv s) (hb : s.clBlkOwner b = .caller) :
    PoolInv (clBlkReturn s b) := by
  have hold : s.clBlkOwner b ≠ .mBlks := by simp [hb]
  refine ⟨h.mBlks.clBlkReturn, h.clBlks.returned (by simp [hb]), h.clusters.clBlkReturn,
    h.refs.of_owner (o := .free) hold (by simp) rfl rfl rfl rfl (fun b' => ?_)
      (fun b' hb' => ?_) (fun hc => ?_), h.tables.clBlkReturn⟩
  · simp [NetBuf.clBlkReturn, State.setClBlkOwner, State.setPool, Function.update_apply]
  · simp [NetBuf.clBlkReturn, State.setClBlkOwner, State.setPool]
  · simp at hc

/-- A clBlk of a caller has no cluster, so `_clBlkFree` only returns it. -/
theorem PoolInv.clBlkFree (h : PoolInv s) (hb : s.clBlkOwner b = .caller) :
    PoolInv (clBlkFree s b) := by
  rw [NetBuf.clBlkFree, h.refs.raw b hb]
  exact h.clBlkReturn hb

theorem PoolInv.takenC (h : PoolInv s) {rest : List Nat}
    (hq : (s.clPools q).pClHead = c :: rest) (hp : (s.clPools q).pNetPool = p) :
    PoolInv (takenC s p q c rest) := by
  have hold : ∀ b, s.clOwner c ≠ .clBlk b := by simp [(h.clusters.head hq).2.2]
  refine ⟨h.mBlks.congr (fun p' => ?_) (fun p' => ?_) (fun _ => rfl) (fun _ => rfl) rfl rfl rfl,
    h.clBlks.congr (fun p' => ?_) (fun _ _ => rfl) rfl rfl rfl rfl, h.clusters.taken hq hp,
    h.refs.of_clOwner (o := .caller) hold (by simp) rfl rfl rfl rfl rfl
      (fun c' => ?_), h.tables.congr (fun p' => ?_) (fun q' => ?_) rfl (fun p' k hk => ?_)⟩
  · simp only [NetBuf.takenC, State.setClOwner, State.setClPool, State.setPool,
      Function.update_apply]
    split <;> simp_all
  · simp only [NetBuf.takenC, State.setClOwner, State.setClPool, State.setPool,
      Function.update_apply]
    split <;> simp_all
  · simp only [NetBuf.takenC, State.setClOwner, State.setClPool, State.setPool,
      Function.update_apply]
    split <;> simp_all
  · simp [NetBuf.takenC, State.setClOwner, State.setClPool, State.setPool,
      Function.update_apply]
  · simp only [NetBuf.takenC, State.setClOwner, State.setClPool, State.setPool,
      Function.update_apply]
    split
    · subst_vars
      exact ⟨rfl, rfl, rfl, rfl, rfl⟩
    · exact ⟨rfl, rfl, rfl, rfl, rfl⟩
  · simp only [NetBuf.takenC, State.setClOwner, State.setClPool, State.setPool,
      Function.update_apply]
    split <;> simp_all
  · left
    simp only [NetBuf.takenC, State.setClOwner, State.setClPool, State.setPool,
      Function.update_apply] at hk
    split at hk
    · rename_i heq
      rw [heq]
      split at hk
      · rw [clearBit, Nat.testBit_and, Bool.and_eq_true] at hk
        exact hk.1
      · exact hk
    · exact hk

/-- `_clFree` of a cluster of a caller. -/
theorem PoolInv.clusterReturn (h : PoolInv s) (hc : s.clOwner c = .caller) :
    PoolInv (clusterReturn s c) := by
  have hold : ∀ b, s.clOwner c ≠ .clBlk b := by simp [hc]
  refine ⟨h.mBlks.clusterReturn, h.clBlks.clusterReturn, h.clusters.returned (by simp [hc]),
    h.refs.of_clOwner (o := .free) hold (by simp) rfl rfl rfl rfl rfl (fun c' => ?_),
    h.tables.clusterReturn (h.clusters.home c (h.clusters.inDom c (by simp [hc])))⟩
  simp [NetBuf.clusterReturn, State.setClOwner, State.setClPool, State.setPool,
    Function.update_apply]

/-! ## mBlks with their cluster -/

theorem mBlkFree_used (s : State) (p m m' : Nat) :
    (mBlkFree s p m).used m' = if m' = m then false else s.used m' := by
  simp [mBlkFree, State.setUsed, State.setMblk, State.setPool, Function.update_apply]

theorem mBlkFree_ext (s : State) (p m m' : Nat) :
    ((mBlkFree s p m).mBlks m').ext = (s.mBlks m').ext := by
  simp only [mBlkFree, State.setUsed, State.setMblk, State.setPool, Function.update_apply]
  split <;> simp_all

theorem mBlkFree_pClBlk (s : State) (p m m' : Nat) :
    ((mBlkFree s p m).mBlks m').pClBlk = (s.mBlks m').pClBlk := by
  simp only [mBlkFree, State.setUsed, State.setMblk, State.setPool, Function.update_apply]
  split <;> simp_all

theorem clBlkReturn_owner (s : State) (b b' : Nat) :
    (clBlkReturn s b).clBlkOwner b' = if b' = b then .free else s.clBlkOwner b' := by
  simp [clBlkReturn, State.setClBlkOwner, State.setPool, Function.update_apply]

theorem clusterReturn_owner (s : State) (c c' : Nat) :
    (clusterReturn s c).clOwner c' = if c' = c then .free else s.clOwner c' := by
  simp [clusterReturn, State.setClOwner, State.setClPool, State.setPool, Function.update_apply]

/-- A clBlk after its count went down by one. -/
def decRef (s : State) (b : Nat) : State :=
  s.setClBlk b fun blk => { blk with clRefCount := blk.clRefCount - 1 }

theorem decRef_pClBuf (s : State) (b b' : Nat) :
    ((decRef s b).clBlks b').pClBuf = (s.clBlks b').pClBuf := by
  simp only [decRef, State.setClBlk, Function.update_apply]
  split <;> simp_all

theorem decRef_count (s : State) {b b' : Nat} (h : b' ≠ b) :
    ((decRef s b).clBlks b').clRefCount = (s.clBlks b').clRefCount := by
  simp [decRef, State.setClBlk, Function.update_of_ne h]

/-- `_mBlkClFree` keeps the invariant, whatever block it is called for. -/
theorem PoolInv.mBlkClFree (h : PoolInv s) (m : Nat) : PoolInv (mBlkClFree s m).1 := by
  rw [NetBuf.mBlkClFree]
  simp only
  split
  · rename_i htype
    have hsame : s.setUsed m false = s := by
      rw [State.setUsed, ← (h.mBlks.type m).1 htype, Function.update_eq_self]
    rw [hsame]
    exact h
  · rename_i htype
    have hu : s.used m = true := by
      rw [← Bool.not_eq_false, ← h.mBlks.type]
      exact htype
    cases hext : (s.mBlks m).ext with
    | false => exact h.mBlkFree hu rfl hext
    | true =>
      obtain ⟨b, hb, hown⟩ := h.refs.ext m hu hext
      obtain ⟨c, hbuf, hc, hcount, hpos⟩ := h.refs.shared b hown
      simp only [if_true, hb, Option.map_some, Option.getD_some]
      have hdec : ∀ blk : ClBlk, ({ blk with clRefCount := blk.clRefCount - 1 } : ClBlk).pNetPool =
          blk.pNetPool := fun _ => rfl
      have hm := h.mBlks.setClBlk (b := b) fun blk => { blk with clRefCount := blk.clRefCount - 1 }
      have hbinv := h.clBlks.setClBlk (b := b) hdec
      have hcinv := h.clusters.setClBlk (b := b) fun blk =>
        { blk with clRefCount := blk.clRefCount - 1 }
      have htinv := h.tables.setClBlk (b := b) fun blk =>
        { blk with clRefCount := blk.clRefCount - 1 }
      rw [NetBuf.clBlkFree, hbuf]
      simp only
      split
      · rename_i hlast
        have hone : NetBuf.refs s b = 1 := by
          simp only [State.setClBlk, Function.update_self] at hlast
          omega
        refine ⟨(hm.clusterReturn.clBlkReturn).freed hu rfl,
          ((hbinv.clusterReturn).returned ?_).mBlkFree,
          ((hcinv.returned ?_).clBlkReturn).mBlkFree, ?_,
          ((htinv.clusterReturn (hcinv.home c (hcinv.inDom c ?_))).clBlkReturn).mBlkFree⟩
        · simp [NetBuf.clusterReturn, State.setClOwner, State.setPool, State.setClPool,
            State.setClBlk, hown]
        · simp [State.setClBlk, hc]
        · refine Released.last (b := b) (c := c) ⟨⟨hu, hext, hb⟩, rfl, mBlkFree_used _ _ _,
            mBlkFree_ext _ _ _, mBlkFree_pClBlk _ _ _, fun b' => ?_, fun b' hb' => ?_,
            clBlkReturn_owner _ _⟩ h.refs h.mBlks.inDom hone hbuf (clusterReturn_owner _ _)
          · exact decRef_pClBuf s b b'
          · exact decRef_count s hb'
        · simp [State.setClBlk, hc]
      · rename_i hmore
        have hmany : 1 < NetBuf.refs s b := by
          simp only [State.setClBlk, Function.update_self] at hmore
          omega
        refine ⟨hm.freed hu rfl, hbinv.mBlkFree, hcinv.mBlkFree, ?_, htinv.mBlkFree⟩
        refine Released.shared (b := b) ⟨⟨hu, hext, hb⟩, rfl, mBlkFree_used _ _ _,
            mBlkFree_ext _ _ _, mBlkFree_pClBlk _ _ _, fun b' => ?_, fun b' hb' => ?_,
            fun b' => ?_⟩ h.refs (h.mBlks.inDom m hu) hmany ?_ rfl
        · exact decRef_pClBuf s b b'
        · exact decRef_count s hb'
        · show s.clBlkOwner b' = _
          split
          · subst_vars
            exact hown
          · rfl
        · simp [NetBuf.mBlkFree, State.setUsed, State.setMblk, State.setPool, State.setClBlk]

/-- So does freeing a chain. -/
theorem PoolInv.chainFree (h : PoolInv s) (fuel : Nat) (top : Option Nat) :
    PoolInv (netMblkClChainFree fuel s top) := by
  induction fuel generalizing s top with
  | zero => cases top <;> exact h
  | succ n ih =>
    cases top with
    | none => exact h
    | some m => exact ih (h.mBlkClFree m) _

/-! ## A cluster for an mBlk -/

/-- A clBlk and a cluster of the caller go to an mBlk. -/
theorem PoolInv.attachCl {clSize : Nat} (h : PoolInv s) (hu : s.used m = true)
    (hext : (s.mBlks m).ext = false) (hb : s.clBlkOwner b = .caller)
    (hc : s.clOwner c = .caller) : PoolInv (attachCl s m b c clSize) := by
  have howner : ∀ b', (NetBuf.attachCl s m b c clSize).clBlkOwner b' =
      if b' = b then .mBlks else s.clBlkOwner b' := by
    intro b'
    simp only [NetBuf.attachCl, State.setClOwner, State.setClBlkOwner, State.setClBlk,
      State.setMblk, Function.update_apply]
  have hclOwner : ∀ c', (NetBuf.attachCl s m b c clSize).clOwner c' =
      if c' = c then .clBlk b else s.clOwner c' := by
    intro c'
    simp only [NetBuf.attachCl, State.setClOwner, State.setClBlkOwner, State.setClBlk,
      State.setMblk, Function.update_apply]
  refine ⟨h.mBlks.congr (fun _ => rfl) (fun _ => rfl) (fun m' => ?_) (fun m' => ?_) rfl rfl rfl,
    ⟨h.clBlks.lists.congr (fun _ => rfl) (fun b' => ?_) (fun _ _ => rfl), fun b' hb' => ?_,
      fun b' hb' => ?_, h.clBlks.netPool⟩,
    ⟨h.clusters.lists.congr (fun _ => rfl) (fun c' => ?_) (fun _ _ => rfl), fun c' hc' => ?_,
      h.clusters.counts, h.clusters.mask, h.clusters.home, h.clusters.netPool,
      h.clusters.distinct, h.clusters.lg2⟩,
    h.refs.attached (h.mBlks.inDom m hu) hu hext hb hc,
    h.tables.congr (fun _ => ⟨rfl, rfl, rfl, rfl, rfl⟩) (fun _ => ⟨rfl, rfl⟩) rfl
      (fun _ _ hk => .inl hk)⟩
  · simp only [NetBuf.attachCl, State.setClOwner, State.setClBlkOwner, State.setClBlk,
      State.setMblk, Function.update_apply]
    split <;> simp_all
  · simp only [NetBuf.attachCl, State.setClOwner, State.setClBlkOwner, State.setClBlk,
      State.setMblk, Function.update_apply]
    split <;> simp_all
  · rw [howner]
    split
    · subst_vars
      simp [hb]
    · exact Iff.rfl
  · rw [howner] at hb'
    split at hb'
    · subst_vars
      exact h.clBlks.inDom _ (by simp [hb])
    · exact h.clBlks.inDom b' hb'
  · simp only [NetBuf.attachCl, State.setClOwner, State.setClBlkOwner, State.setClBlk,
      State.setMblk, Function.update_apply]
    split
    · subst_vars
      exact h.clBlks.home _ (by simp [hb])
    · rename_i hne
      rw [howner, if_neg hne] at hb'
      exact h.clBlks.home b' hb'
  · rw [hclOwner]
    split
    · subst_vars
      simp [hc]
    · exact Iff.rfl
  · rw [hclOwner] at hc'
    split at hc'
    · subst_vars
      exact h.clusters.inDom _ (by simp [hc])
    · exact h.clusters.inDom c' hc'

/-- The cluster pool that is picked is one of the pool. -/
theorem pickPool_netPool {q' : Nat} (h : TInv s) (hq : (s.clPools q).pNetPool = p)
    (hpick : pickPool s p q bestFit = some q') : (s.clPools q').pNetPool = p := by
  have hscan : ∀ fuel lg2, scanMask (s.pools p) fuel lg2 = some q' →
      (s.clPools q').pNetPool = p := by
    intro fuel
    induction fuel with
    | zero => simp [scanMask]
    | succ n ih =>
      intro lg2 hs
      rw [scanMask] at hs
      split at hs
      · exact (h.entry p _ q' hs).2
      · exact ih _ hs
  rw [pickPool] at hpick
  split at hpick
  · simp only at hpick
    split at hpick
    · exact hscan _ _ hpick
    · split at hpick
      · exact (h.entry p _ q' hpick).2
      · cases hpick
        exact hq
  · cases hpick
    exact hq

/-- `_clPoolIdGet` finds cluster pools of the pool. -/
theorem clPoolIdGet_netPool (h : TInv s)
    (hget : clPoolIdGet s p size bestFit = some (some q)) : (s.clPools q).pNetPool = p := by
  have hat : ∀ lg2, (if lg2 < CL_LOG2_MIN then none
      else some ((s.pools p).clTable (lg2 - CL_LOG2_MIN))) = some (some q) →
      (s.clPools q).pNetPool = p := by
    intro lg2 heq
    split at heq
    · simp at heq
    · exact (h.entry p _ q (Option.some.inj heq)).2
  rw [clPoolIdGet] at hget
  simp only at hget
  split at hget
  · split at hget
    · simp at hget
    · exact hat _ hget
  · split at hget
    · exact hat _ hget
    · exact hat _ hget

/-- `_mClGet` for a used block without a cluster.  When it fails the block is as it was. -/
theorem mClGet_inv {ok : Bool} (h : PoolInv s) (hu : s.used m = true)
    (hext : (s.mBlks m).ext = false)
    (hget : mClGet s p (some m) size bestFit = some (s', ok)) :
    PoolInv s' ∧ (ok = false → s'.used m = true ∧ (s'.mBlks m).ext = false ∧
      (s'.mBlks m).netPool = (s.mBlks m).netPool) := by
  cases hp : (s.pools p).pClBlkHead with
  | nil =>
    rw [mClGet, clBlkGet_nil hp] at hget
    simp at hget
  | cons b rest =>
    have h1 := h.takenB hp
    have hb : (takenB s p b rest).clBlkOwner b = .caller := by
      simp [takenB, State.setClBlkOwner]
    have hkeep : ∀ s2 : State, s2.mBlks = s.mBlks → s2.used = s.used →
        (clBlkFree s2 b).mBlks = s.mBlks ∧ (clBlkFree s2 b).used = s.used := by
      intro s2 hm2 hu2
      rw [clBlkFree]
      split
      · exact ⟨hm2, hu2⟩
      · simp only
        split
        · exact ⟨hm2, hu2⟩
        · exact ⟨hm2, hu2⟩
    rw [mClGet, clBlkGet_cons hp] at hget
    simp only at hget
    split at hget
    · simp at hget
    · -- no cluster pool for the size
      obtain ⟨rfl, rfl⟩ : clBlkFree (takenB s p b rest) b = s' ∧ false = ok := by
        simpa using hget
      obtain ⟨hm2, hu2⟩ := hkeep (takenB s p b rest) rfl rfl
      exact ⟨h1.clBlkFree hb, fun _ => by rw [hm2, hu2]; exact ⟨hu, hext, rfl⟩⟩
    · rename_i q hid
      split at hget
      · simp at hget
      · rename_i q' hpick
        have hq' := pickPool_netPool h1.tables (clPoolIdGet_netPool h1.tables hid) hpick
        cases hc : ((takenB s p b rest).clPools q').pClHead with
        | nil =>
          rw [clusterGet_nil hc] at hget
          simp only [Option.some.injEq, Prod.mk.injEq] at hget
          obtain ⟨rfl, rfl⟩ := hget
          obtain ⟨hm2, hu2⟩ := hkeep ((takenB s p b rest).setPool p fun pool =>
            { pool with mDrops := pool.mDrops + 1 }) rfl rfl
          refine ⟨(h1.drops p _).clBlkFree hb, fun _ => ?_⟩
          rw [hm2, hu2]
          exact ⟨hu, hext, rfl⟩
        | cons c cs =>
          rw [clusterGet_cons hc] at hget
          simp only [Option.some.injEq, Prod.mk.injEq] at hget
          obtain ⟨rfl, rfl⟩ := hget
          exact ⟨(h1.takenC hc hq').attachCl hu hext hb (by simp [takenC, State.setClOwner]),
            by simp⟩

/-- `netTupleGet` of a type that is not `MT_FREE`. -/
theorem netTupleGet_inv {type : Nat} (h : PoolInv s) (h0 : type ≠ MT_FREE) (hlt : type < 256)
    (hget : netTupleGet s p size wait type bestFit = some s') : PoolInv s' := by
  rw [netTupleGet] at hget
  cases hm : mBlkGet s p wait type with
  | mk s1 m =>
    simp only [hm] at hget
    cases m with
    | none =>
      obtain rfl : s1 = s' := by simpa [mClGet] using hget
      exact mBlkGet_none h hm
    | some m =>
      obtain ⟨h1, rest, hp, rfl⟩ := mBlkGet_some h h0 hlt hm
      have hu : (takenM s p m rest type).used m = true := by simp [takenM, State.setUsed]
      have hext : ((takenM s p m rest type).mBlks m).ext = false := by
        simp [takenM, State.setUsed, State.setMblk]
      have hpool : ((takenM s p m rest type).mBlks m).netPool = p := by
        simpa [takenM, State.setUsed, State.setMblk, State.setPool] using (h.mBlks.head hp).2.1
      split at hget
      · simp at hget
      · rename_i s2 hcl
        cases hget
        exact (mClGet_inv h1 hu hext hcl).1
      · rename_i s2 hcl
        cases hget
        obtain ⟨h2, hsame⟩ := mClGet_inv h1 hu hext hcl
        obtain ⟨hu2, hext2, hpool2⟩ := hsame rfl
        exact h2.mBlkFree hu2 (hpool2.trans hpool) hext2

/-! ## Duplicates -/

/-- A caller may write what the library does not look at. -/
theorem PoolInv.setMblk (h : PoolInv s) {f : MBlk → MBlk}
    (hf : ∀ blk, (f blk).netPool = blk.netPool ∧ (f blk).mType = blk.mType ∧
      (f blk).ext = blk.ext ∧ (f blk).pClBlk = blk.pClBlk) : PoolInv (s.setMblk m f) := by
  refine ⟨h.mBlks.setMblk fun blk => ⟨(hf blk).1, (hf blk).2.1⟩,
    h.clBlks.congr (fun _ => rfl) (fun _ _ => rfl) rfl rfl rfl rfl,
    h.clusters.congr (fun _ => rfl) rfl rfl rfl rfl rfl rfl,
    h.refs.congr rfl rfl (fun m' _ => ?_) (fun _ _ => ⟨rfl, rfl⟩) rfl rfl,
    h.tables.same (fun _ => ⟨⟨rfl, rfl, rfl, rfl, rfl⟩, rfl⟩) rfl rfl⟩
  simp only [State.setMblk, Function.update_apply]
  split
  · subst_vars
    exact ⟨(hf _).2.2.1, (hf _).2.2.2⟩
  · exact ⟨rfl, rfl⟩

/-- A new block shares the cluster of an old one. -/
theorem PoolInv.dupBlk {new old : Nat} {copyhdr : Bool} {len offs : Int} (h : PoolInv s)
    (hu : s.used new = true) (hext : (s.mBlks new).ext = false) (hold : RefersTo s b old) :
    PoolInv (dupBlk s new old b copyhdr len offs) := by
  refine ⟨h.mBlks.congr (fun _ => rfl) (fun _ => rfl) (fun m' => ?_) (fun m' => ?_) rfl rfl rfl,
    h.clBlks.congr (fun _ => rfl) (fun b' _ => ?_) rfl rfl rfl rfl,
    h.clusters.congr (fun _ => rfl) rfl rfl rfl rfl rfl rfl,
    h.refs.duped (h.mBlks.inDom new hu) hu hext hold,
    h.tables.same (fun _ => ⟨⟨rfl, rfl, rfl, rfl, rfl⟩, rfl⟩) rfl rfl⟩ <;>
  · simp only [NetBuf.dupBlk, State.setClBlk, State.setMblk, Function.update_apply]
    split <;> simp_all

/-- The copy does not start behind the chain, and the blocks that are copied are used and have a
cluster.  No more are copied than there are free blocks. -/
def dupOk (s : State) : Nat → Bool → Option Nat → Int → Int → Bool
  | _, started, none, _, len => len ≤ 0 || len == M_COPYALL || started
  | 0, _, some _, _, _ => true
  | free + 1, _, some m, offs, len =>
    len ≤ 0 || (s.used m && (s.mBlks m).ext &&
      dupOk s free true (s.mBlks m).mNext 0
        (if len ≠ M_COPYALL then len - min len ((s.mBlks m).mLen - offs) else len))

/-- The blocks that were used at the start of the copy are as they were. -/
def Kept (s0 s : State) : Prop :=
  ∀ m, s0.used m = true → s.used m = true ∧ s.mBlks m = s0.mBlks m

/-- The copy of a chain that is all right goes through and keeps the invariant. -/
theorem dupLoop_inv {s0 : State} (fuel : Nat) {top prev : Option Nat} {offs len : Int}
    {copyhdr : Bool} {m : Option Nat} (h : PoolInv s) (hkept : Kept s0 s)
    (hprev : ∀ last, prev = some last → s0.used last = false)
    (hok : dupOk s0 (s.pools p).pmBlkHead.length top.isSome m offs len = true) :
    ∃ s', dupLoop p wait fuel s top prev m offs len copyhdr = some s' ∧ PoolInv s' := by
  induction fuel generalizing s top prev m offs len copyhdr with
  | zero => exact ⟨s, rfl, h⟩
  | succ fuel ih =>
    unfold dupLoop
    by_cases hlen : 0 < len
    · rw [if_pos hlen]
      have hle : ¬ len ≤ 0 := by omega
      cases m with
      | none =>
        simp only [dupOk, hle, decide_false, Bool.false_or, Bool.or_eq_true, beq_iff_eq] at hok ⊢
        by_cases hall : len = M_COPYALL
        · rw [if_neg (by simp [hall])]
          exact ⟨s, rfl, h⟩
        · rw [if_pos hall]
          cases top with
          | none => simp [hall] at hok
          | some t => exact ⟨_, rfl, h.chainFree _ _⟩
      | some m =>
        simp only
        cases hget : mBlkGet s p wait (s.mBlks m).mType with
        | mk s1 new =>
          cases new with
          | none =>
            have h1 := mBlkGet_none h hget
            cases top with
            | none => exact ⟨s1, rfl, h1⟩
            | some t => exact ⟨_, rfl, h1.chainFree _ _⟩
          | some new =>
            obtain ⟨rest, hp⟩ := mBlkGet_head h.mBlks hget
            simp only [hp, List.length_cons, dupOk, hle, decide_false, Bool.false_or,
              Bool.and_eq_true] at hok
            obtain ⟨⟨hu0, hext0⟩, hrest⟩ := hok
            obtain ⟨hu, hm⟩ := hkept m hu0
            have htype : (s.mBlks m).mType ≠ MT_FREE := fun heq => by
              rw [(h.mBlks.type m).1 heq] at hu
              simp at hu
            rw [mBlkGet_cons h.mBlks wait _ hp, Prod.mk.injEq] at hget
            obtain ⟨rfl, -⟩ := hget
            have h1 := h.takenM hp htype (h.mBlks.type_lt m)
            have hfree := (h.mBlks.head hp).2.2
            have hnew0 : s0.used new = false := by
              by_contra hne
              rw [(hkept new (by simpa using hne)).1] at hfree
              simp at hfree
            have hne : m ≠ new := by
              rintro rfl
              rw [hu0] at hnew0
              simp at hnew0
            obtain ⟨b, hb, hown⟩ := h.refs.ext m hu (by rw [hm]; exact hext0)
            have hsame : ∀ m', m' ≠ new →
                (takenM s p new rest (s.mBlks m).mType).mBlks m' = s.mBlks m' := by
              intro m' hm'
              simp [takenM, State.setUsed, State.setMblk, State.setPool,
                Function.update_of_ne hm']
            simp only [hsame m hne, hb]
            -- the last new block is linked to this one
            have hlink : ∀ last, PoolInv ((takenM s p new rest (s.mBlks m).mType).setMblk last
                fun blk => { blk with mNext := some new }) :=
              fun last => h1.setMblk fun blk => ⟨rfl, rfl, rfl, rfl⟩
            generalize hs2 : ((prev.map fun last =>
              (takenM s p new rest (s.mBlks m).mType).setMblk last fun blk =>
                { blk with mNext := some new }).getD
                  (takenM s p new rest (s.mBlks m).mType)) = s2
            have h2 : PoolInv s2 := by
              rw [← hs2]
              cases prev with
              | none => exact h1
              | some last => exact hlink last
            have hused2 : s2.used = (takenM s p new rest (s.mBlks m).mType).used := by
              rw [← hs2]
              cases prev with
              | none => rfl
              | some last => rfl
            have hpools2 : s2.pools = (takenM s p new rest (s.mBlks m).mType).pools := by
              rw [← hs2]
              cases prev with
              | none => rfl
              | some last => rfl
            have hext2 : ∀ m', (s2.mBlks m').ext =
                ((takenM s p new rest (s.mBlks m).mType).mBlks m').ext := by
              intro m'
              rw [← hs2]
              cases prev with
              | none => rfl
              | some last =>
                simp only [Option.map_some, Option.getD_some, State.setMblk,
                  Function.update_apply]
                split <;> simp_all
            have hold2 : ∀ m', s0.used m' = true → s2.mBlks m' = s0.mBlks m' := by
              intro m' hm'
              have hmn : m' ≠ new := by
                rintro rfl
                rw [hm'] at hnew0
                simp at hnew0
              have hbase := (hsame m' hmn).trans (hkept m' hm').2
              rw [← hs2]
              cases prev with
              | none => exact hbase
              | some last =>
                have hml : m' ≠ last := by
                  rintro rfl
                  rw [hprev m' rfl] at hm'
                  simp at hm'
                simpa [State.setMblk, Function.update_of_ne hml] using hbase
            have hu2 : s2.used new = true := by
              rw [hused2]
              simp [takenM, State.setUsed]
            have hnewExt : (s2.mBlks new).ext = false := by
              rw [hext2]
              simp [takenM, State.setUsed, State.setMblk]
            have hrefers : RefersTo s2 b m := by
              refine ⟨?_, ?_, ?_⟩
              · rw [hused2]
                simp [takenM, State.setUsed, State.setMblk, State.setPool,
                  Function.update_of_ne hne, hu]
              · rw [hold2 m hu0]
                exact hext0
              · rw [hold2 m hu0, ← hm]
                exact hb
            have h3 : PoolInv (dupBlk s2 new m b copyhdr len offs) :=
              h2.dupBlk hu2 hnewExt hrefers
            have hold3 : ∀ m', s0.used m' = true →
                (dupBlk s2 new m b copyhdr len offs).mBlks m' = s0.mBlks m' := by
              intro m' hm'
              have hmn : m' ≠ new := by
                rintro rfl
                rw [hm'] at hnew0
                simp at hnew0
              simpa [dupBlk, State.setClBlk, State.setMblk, Function.update_of_ne hmn] using
                hold2 m' hm'
            have hkept3 : Kept s0 (dupBlk s2 new m b copyhdr len offs) := by
              intro m' hm'
              refine ⟨?_, hold3 m' hm'⟩
              have hmu := (hkept m' hm').1
              show s2.used m' = true
              rw [hused2]
              simp only [takenM, State.setUsed, Function.update_apply]
              split
              · rfl
              · exact hmu
            have hmNext : ((dupBlk s2 new m b copyhdr len offs).mBlks m).mNext =
                (s0.mBlks m).mNext := by rw [hold3 m hu0]
            have hlen3 : ((dupBlk s2 new m b copyhdr len offs).mBlks new).mLen =
                min len ((s0.mBlks m).mLen - offs) := by
              simp [dupBlk, State.setClBlk, State.setMblk, hold2 m hu0]
            have hheads3 : ((dupBlk s2 new m b copyhdr len offs).pools p).pmBlkHead = rest := by
              show (s2.pools p).pmBlkHead = rest
              rw [hpools2]
              simp [takenM, State.setUsed, State.setMblk, State.setPool]
            refine ih h3 hkept3 (fun last hlast => ?_) ?_
            · cases hlast
              exact hnew0
            · rw [hmNext, hlen3, hheads3]
              exact hrest
    · rw [if_neg hlen]
      exact ⟨s, rfl, h⟩

/-- The copy of a chain does not touch a block that is not used or has no cluster, does not start
behind the chain, and the chain does not run into itself before the copy starts. -/
def dupStart (s : State) (p m : Nat) (offset len : Int) : Bool :=
  offset < 0 || len < 0 ||
    match skip s (s.nMblks + 1) (some m) offset with
    | none => false
    | some none => true
    | some (some (start, offs)) => dupOk s (s.pools p).pmBlkHead.length false start offs len

theorem netMblkChainDup_inv {offset len : Int} (h : PoolInv s)
    (hok : dupStart s p m offset len = true) :
    ∃ s', netMblkChainDup s p m offset len wait = some s' ∧ PoolInv s' := by
  rw [netMblkChainDup]
  split
  · exact ⟨s, rfl, h⟩
  · rename_i hargs
    have h1 : ¬ offset < 0 := fun hlt => hargs (.inl hlt)
    have h2 : ¬ len < 0 := fun hlt => hargs (.inr hlt)
    simp only [dupStart, h1, h2, decide_false, Bool.false_or] at hok
    cases hskip : skip s (s.nMblks + 1) (some m) offset with
    | none => simp [hskip] at hok
    | some found =>
      cases found with
      | none => exact ⟨s, rfl, h⟩
      | some start =>
        simp only [hskip] at hok
        exact dupLoop_inv _ h (fun _ hm => ⟨hm, rfl⟩) (by simp) hok

end Vmx.NetBuf
