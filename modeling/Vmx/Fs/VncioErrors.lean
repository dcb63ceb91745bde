import Vmx.Fs.FsBufLeak
import Vmx.Fs.Rt11Write
import Vmx.Fs.VncioLib

/-!
# Device errors and the callers of `vncioRead` and `vncioWrite`

`xbdBlkDevStrategy` does not look at what the driver returns, and `xbdStrategy` does not complete
the bio when the device is gone.  So an operation comes back with an error only for a reason of
its own, and waits for ever for a transfer of a device that is not attached.
-/

namespace Vmx.FsBuf

variable {s s' s1 : State} {b : Nat} {key : Nat × Nat} {e : Int} {hang refuse : Prop}

/-! ## Outcomes -/

/-- What can come of an operation: it hangs, it succeeds, or it refuses. -/
def Outcome (hang refuse : Prop) (r : Option (Int × State)) : Prop :=
  (hang ∧ r = none) ∨ (∃ s', r = some (OK, s')) ∨ (refuse ∧ ∃ e s', e ≠ OK ∧ r = some (e, s'))

/-- What can come of a write: it hangs or it succeeds. -/
def Written (hang : Prop) (r : Option (Int × State)) : Prop :=
  (hang ∧ r = none) ∨ (¬ hang ∧ ∃ s', r = some (OK, s'))

/-- A device hangs or completes without an error. -/
def Answers (hang : Prop) (dev : Dev) : Prop :=
  ∀ n, (hang ∧ dev.bio n = none) ∨ (¬ hang ∧ dev.bio n = some OK)

/-- A buffer can be had. -/
def Room (s : State) : Prop := ∃ b ∈ s.list, (s.buf b).busy = false

/-- Two buffers can be had: one for a block of a file and one for its block of the device. -/
def Room2 (s : State) : Prop :=
  ∃ b1 ∈ s.list, ∃ b2 ∈ s.list, b1 ≠ b2 ∧ (s.buf b1).busy = false ∧ (s.buf b2).busy = false

/-- A mount between operations. -/
structure Ready (s : State) : Prop where
  stale : Stale s
  room : Room2 s

theorem Room2.room (h : Room2 s) : Room s := by
  obtain ⟨b1, hb1, -, -, -, hfree, -⟩ := h
  exact ⟨b1, hb1, hfree⟩

theorem Got.room (h : Got s s1 b key) (hroom : Room2 s) : Room s1 := by
  obtain ⟨b1, hb1, b2, hb2, hne, hfree1, hfree2⟩ := hroom
  by_cases heq : b1 = b
  · have hne2 : b2 ≠ b := by
      intro h2
      exact hne (heq.trans h2.symm)
    exact ⟨b2, h.list b2 hb2, (h.busy b2 hne2).trans hfree2⟩
  · exact ⟨b1, h.list b1 hb1, (h.busy b1 heq).trans hfree1⟩

theorem Same.room (h : Same s s1) (hroom : Room s) : Room s1 := by
  obtain ⟨b1, hb1, hfree⟩ := hroom
  exact ⟨b1, h.list b1 hb1, (h.busy b1).trans hfree⟩

theorem Same.ready (h : Same s s1) (hready : Ready s) : Ready s1 := by
  obtain ⟨b1, hb1, b2, hb2, hne, hfree1, hfree2⟩ := hready.room
  exact ⟨h.stale hready.stale, b1, h.list b1 hb1, b2, h.list b2 hb2, hne,
    (h.busy b1).trans hfree1, (h.busy b2).trans hfree2⟩

theorem M.bind_apply {α γ : Type} (m : M α) (f : α → M γ) (s : State) :
    (m >>= f) s = (m s).bind fun r => f r.1 r.2 := rfl

theorem M.ite_apply {α : Type} {c : Prop} [Decidable c] {m m' : M α} {s : State} :
    (if c then m else m') s = if c then m s else m' s := by
  split <;> rfl

theorem brelse_total (b : Nat) (s : State) : ∃ s', brelse b s = some ((), s') := by
  rw [brelse]
  split
  · exact ⟨_, rfl⟩
  · exact ⟨_, rfl⟩

theorem bufWait_total (b : Nat) (e : Int) (s : State) : ∃ s', bufWait b e s = some ((), s') := by
  unfold bufWait
  split
  · exact ⟨_, rfl⟩
  · exact ⟨_, rfl⟩

/-! ## `bread` and `bwrite` -/

theorem bread_outcome {strategy : Nat → M Int} (hf : Free s key) (hroom : Room s)
    (hstrat : ∀ s2 b, Got s s2 b key → Outcome hang refuse (strategy b s2)) :
    (hang ∧ bread strategy key s = none) ∨
      (∃ b s', bread strategy key s = some ((b, OK), s')) ∨
      (refuse ∧ ∃ b e s', e ≠ OK ∧ bread strategy key s = some ((b, e), s')) := by
  obtain ⟨b1, hb1, hfree⟩ := hroom
  obtain ⟨b, s1, hget⟩ := bufGetblk_total hf hb1 hfree
  have hgot := bufGetblk_got hf hget
  by_cases hcache : (s1.buf b).cache = true
  · refine .inr (.inl ⟨b, s1, ?_⟩)
    simp [bread, M.bind_apply, hget, M.get, hcache]
  · have hgot2 : Got s (s1.setBuf b fun bp => { bp with inval := false }) b key :=
      hgot.same (quiet_setBuf s1 b _ ⟨rfl, rfl, hgot.self.2.2.symm⟩).same
    have hbread : bread strategy key s =
        (strategy b (s1.setBuf b fun bp => { bp with inval := false })).bind fun r =>
          (bufWait b r.1 r.2).map fun r' => ((b, r.1), r'.2) := by
      simp only [bread, M.bind_apply, hget, M.get, M.modify, Option.bind_some, hcache,
        Bool.false_eq_true, if_false]
      congr 1
      funext r
      cases bufWait b r.1 r.2 <;> rfl
    rw [hbread]
    obtain ⟨hh, hnone⟩ | ⟨s2, hok⟩ | ⟨hr, e, s2, hne, herr⟩ := hstrat _ b hgot2
    · exact .inl ⟨hh, by rw [hnone]; rfl⟩
    · obtain ⟨s3, hwait⟩ := bufWait_total b OK s2
      exact .inr (.inl ⟨b, s3, by simp [hok, hwait]⟩)
    · obtain ⟨s3, hwait⟩ := bufWait_total b e s2
      exact .inr (.inr ⟨hr, b, e, s3, hne, by simp [herr, hwait]⟩)

/-- `bwrite` of a buffer that was got waits for its transfer. -/
theorem Got.bwrite_written {strategy : Nat → M Int} (hgot : Got s s1 b key)
    (hstrat : Written hang (strategy b s1)) : Written hang (FsBuf.bwrite strategy b s1) := by
  have hbwrite : FsBuf.bwrite strategy b s1 = (strategy b s1).bind fun r =>
      (bufWait b r.1 r.2).bind fun r' => (brelse b r'.2).map fun r'' => (r.1, r''.2) := by
    simp only [FsBuf.bwrite, M.bind_apply, M.get, Option.bind_some, hgot.self.2.2,
      Bool.false_eq_true, if_false]
    congr 1
    funext r
    congr 1
    funext r'
    cases brelse b r'.2 <;> rfl
  rw [hbwrite]
  obtain ⟨hh, hnone⟩ | ⟨hh, s2, hok⟩ := hstrat
  · exact .inl ⟨hh, by rw [hnone]; rfl⟩
  · obtain ⟨s3, hwait⟩ := bufWait_total b OK s2
    obtain ⟨s4, hrel⟩ := brelse_total b s3
    exact .inr ⟨hh, s4, by simp [hok, hwait, hrel]⟩

section Device

variable {dev : Dev} {syncer : Nat}

theorem readTransfer_outcome (hdev : Answers hang dev) (blkno b : Nat) (s : State) :
    Outcome hang False (readTransfer dev blkno b s) := by
  rw [readTransfer]
  obtain ⟨hh, hnone⟩ | ⟨-, hok⟩ := hdev s.xfers
  · exact Or.inl ⟨hh, by rw [hnone]; rfl⟩
  · exact Or.inr (.inl ⟨_, by rw [hok]; rfl⟩)

theorem writeTransfer_written (hdev : Answers hang dev) (blkno b : Nat) (s : State) :
    Written hang (writeTransfer dev blkno b s) := by
  rw [writeTransfer]
  obtain ⟨hh, hnone⟩ | ⟨hh, hok⟩ := hdev s.xfers
  · exact Or.inl ⟨hh, by rw [hnone]; rfl⟩
  · exact Or.inr ⟨hh, _, by rw [hok]; rfl⟩

theorem breadDev_outcome (hdev : Answers hang dev) {vp blkno : Nat} (hf : Free s (vp, blkno))
    (hroom : Room s) :
    (hang ∧ breadDev dev vp blkno s = none) ∨
      ∃ b s', breadDev dev vp blkno s = some ((b, OK), s') := by
  obtain hnone | hok | ⟨hr, -⟩ := bread_outcome hf hroom
    (fun s2 b _ => readTransfer_outcome hdev blkno b s2)
  · exact .inl hnone
  · exact .inr hok
  · exact hr.elim

theorem bufStartwrite_written (hdev : Answers hang dev) (blkno b : Nat) (s : State) :
    Written hang (bufStartwrite dev blkno b s) := by
  rw [bufStartwrite, M.bind_apply]
  obtain ⟨hh, hnone⟩ | ⟨hh, s1, hok⟩ := writeTransfer_written hdev blkno b s
  · exact Or.inl ⟨hh, by rw [hnone]; rfl⟩
  · obtain ⟨s2, hrel⟩ := brelse_total b s1
    obtain ⟨s3, hwait⟩ := bufWait_total b OK s2
    exact Or.inr ⟨hh, s3, by simp [hok, M.bind_apply, hrel, hwait]⟩

/-- The end of an internal strategy routine. -/
theorem swap_total (tmp b : Nat) (e : Int) (s : State) :
    ∃ s', (do
      bufSwapdata tmp b
      bufInval tmp
      brelse tmp
      return e : M Int) s = some (e, s') := by
  simp only [M.bind_apply, bufSwapdata, bufInval, M.modify, Option.bind_some]
  obtain ⟨s', hrel⟩ := brelse_total tmp (State.setBuf (State.setBuf (State.setBuf s tmp
    fun bp => { bp with data := (s.buf b).data }) b fun bp => { bp with data := (s.buf tmp).data })
    tmp fun bp => { bp with inval := true })
  exact ⟨s', by rw [hrel]; rfl⟩

theorem rt11VopInternalReadStrategy_outcome (hdev : Answers hang dev) (f : Rt11File)
    (lbn b : Nat) (hfree : FreeOf syncer s) (hroom : Room s) :
    Outcome hang False (rt11VopInternalReadStrategy dev syncer f lbn b s) := by
  rw [rt11VopInternalReadStrategy, M.bind_apply]
  obtain ⟨hh, hnone⟩ | ⟨tmp, s1, hok⟩ := breadDev_outcome hdev (hfree (f.physBlk lbn)) hroom
  · exact Or.inl ⟨hh, by rw [hnone]; rfl⟩
  · obtain ⟨s2, hswap⟩ := swap_total tmp b OK s1
    refine Or.inr (.inl ⟨s2, ?_⟩)
    rw [hok]
    simpa using hswap

theorem rt11VopInternalWriteStrategy_written (hdev : Answers hang dev) (f : Rt11File)
    (lbn b : Nat) (hfree : FreeOf syncer s) (hroom : Room s) :
    Written hang (rt11VopInternalWriteStrategy dev syncer f lbn b s) := by
  obtain ⟨b1, hb1, hfree1⟩ := hroom
  obtain ⟨tmp, s1, hget⟩ := bufGetblk_total (hfree (f.physBlk lbn)) hb1 hfree1
  rw [rt11VopInternalWriteStrategy, M.bind_apply, hget, Option.bind_some, M.bind_apply]
  obtain ⟨s2, hs2⟩ : ∃ s2, bufSwapdata b tmp s1 = some ((), s2) := ⟨_, rfl⟩
  rw [hs2, Option.bind_some, M.bind_apply]
  obtain ⟨hh, hnone⟩ | ⟨hh, s3, hok⟩ := bufStartwrite_written hdev (f.physBlk lbn) tmp s2
  · exact Or.inl ⟨hh, by rw [hnone]; rfl⟩
  · refine Or.inr ⟨hh, ?_⟩
    rw [hok, Option.bind_some, M.bind_apply]
    obtain ⟨s4, hs4⟩ : ∃ s4, bufSwapdata b tmp s3 = some ((), s4) := ⟨_, rfl⟩
    rw [hs4, Option.bind_some, M.bind_apply]
    obtain ⟨s5, hs5⟩ : ∃ s5, bufInval tmp s4 = some ((), s5) := ⟨_, rfl⟩
    rw [hs5, Option.bind_some, M.bind_apply]
    obtain ⟨s6, hs6⟩ := brelse_total tmp s5
    exact ⟨s6, by rw [hs6]; rfl⟩

/-! ## Blocks of ext2 -/

/-- The level loop of `ext2fsPhysFindCacheSearch` does not find the block. -/
def Unmapped (v : Ext2Vol) (lbn : Nat) : Prop := Ext2.trieIndex v.vol (Util.u32 lbn) = none

theorem physLoop_outcome (hdev : Answers hang dev) (level : Nat) :
    ∀ (trieMap : Ext2.TrieMap) (s : State), FreeOf syncer s → Room s →
      (hang ∧ physLoop dev syncer level trieMap s = none) ∨
        ∃ trieMap' s', physLoop dev syncer level trieMap s = some ((OK, trieMap'), s') := by
  induction level with
  | zero =>
    intro trieMap s _ _
    exact .inr ⟨trieMap, s, rfl⟩
  | succ level ih =>
    intro trieMap s hfree hroom
    rw [physLoop]
    by_cases hsparse : trieMap.physBlk (level + 1) = Ext2.EXT2FS_SPARSE_BLK_NUM
    · rw [if_pos hsparse]
      exact .inr ⟨trieMap, s, rfl⟩
    rw [if_neg hsparse, M.bind_apply]
    obtain ⟨hh, hnone⟩ | ⟨b, s1, hok⟩ := breadDev_outcome hdev
      (hfree (trieMap.physBlk (level + 1))) hroom
    · exact .inl ⟨hh, by rw [hnone]; rfl⟩
    · obtain ⟨-, hgot⟩ | ⟨hne, -⟩ := breadDev_post (hfree _) hok
      · obtain ⟨s2, hrel⟩ := brelse_total b s1
        have hsame := hgot.release hrel
        rw [hok, Option.bind_some]
        simp only [ne_eq, not_true_eq_false, if_false, M.bind_apply, M.get, Option.bind_some, hrel]
        exact ih _ _ (hsame.freeOf hfree) (hsame.room hroom)
      · exact absurd rfl hne

theorem unmapped_of_search {v : Ext2Vol} {i_block : Nat → Nat} {cached : Ext2.TrieMap} {lbn : Nat}
    (h : Ext2.ext2fsPhysFindCacheSearch v.vol i_block cached (Util.u32 lbn) = none) :
    Unmapped v lbn := by
  rw [Ext2.ext2fsPhysFindCacheSearch] at h
  split at h
  · simp at h
  · split at h
    · assumption
    · simp at h

theorem ext2fsPhysFind_outcome (hdev : Answers hang dev) (v : Ext2Vol) (vp lbn : Nat)
    (hfree : FreeOf syncer s) (hroom : Room s) :
    Outcome hang (Unmapped v lbn) (ext2fsPhysFind dev syncer v vp lbn s) := by
  rw [ext2fsPhysFind, M.bind_apply]
  simp only [M.get, Option.bind_some]
  rcases hsearch : Ext2.ext2fsPhysFindCacheSearch v.vol (s.inodes vp).i_block
    (s.inodes vp).cachedTrieMap (Util.u32 lbn) with _ | ⟨level, trieMap⟩
  · exact Or.inr (Or.inr ⟨unmapped_of_search hsearch, EACCES, s, by decide, rfl⟩)
  · simp only [M.bind_apply]
    obtain ⟨hh, hnone⟩ | ⟨trieMap', s1, hok⟩ := physLoop_outcome hdev level trieMap s hfree hroom
    · exact Or.inl ⟨hh, by rw [hnone]; rfl⟩
    · exact Or.inr (.inl ⟨_, by rw [hok]; rfl⟩)

theorem ext2fsVopInternalReadStrategy_outcome (hdev : Answers hang dev) (vp b : Nat)
    (hfree : FreeOf syncer s) (hroom : Room s) :
    Outcome hang False (ext2fsVopInternalReadStrategy dev syncer vp b s) := by
  rw [ext2fsVopInternalReadStrategy, M.bind_apply]
  simp only [M.get, Option.bind_some]
  by_cases hsparse : (s.inodes vp).cachedTrieMap.physBlk 0 = Ext2.EXT2FS_SPARSE_BLK_NUM
  · rw [if_pos hsparse]
    exact Or.inr (.inl ⟨_, rfl⟩)
  rw [if_neg hsparse, M.bind_apply]
  obtain ⟨hh, hnone⟩ | ⟨tmp, s1, hok⟩ := breadDev_outcome hdev
    (hfree ((s.inodes vp).cachedTrieMap.physBlk 0)) hroom
  · exact Or.inl ⟨hh, by rw [hnone]; rfl⟩
  · obtain ⟨s2, hswap⟩ := swap_total tmp b OK s1
    refine Or.inr (.inl ⟨s2, ?_⟩)
    rw [hok]
    simpa using hswap

theorem ext2fsVopStrategy_outcome (hdev : Answers hang dev) (v : Ext2Vol) (vp lbn b : Nat)
    (hfree : FreeOf syncer s) (hroom : Room s) :
    Outcome hang (Unmapped v lbn) (ext2fsVopStrategy dev syncer v vp lbn b s) := by
  rw [ext2fsVopStrategy, M.bind_apply]
  obtain ⟨hh, hnone⟩ | ⟨s1, hok⟩ | ⟨hr, e, s1, hne, herr⟩ :=
    ext2fsPhysFind_outcome hdev v vp lbn hfree hroom
  · exact Or.inl ⟨hh, by rw [hnone]; rfl⟩
  · have hsame := (ext2fsPhysFind_ends hfree hok).same (by simp)
    rw [hok, Option.bind_some]
    simp only [ne_eq, not_true_eq_false, if_false]
    obtain hnone | hok | ⟨hr, -⟩ := ext2fsVopInternalReadStrategy_outcome hdev vp b
      (hsame.freeOf hfree) (hsame.room hroom)
    · exact .inl hnone
    · exact .inr (.inl hok)
    · exact hr.elim
  · exact Or.inr (Or.inr ⟨hr, e, _, hne, by simp [herr, hne, M.bind_apply, M.modify]; rfl⟩)

/-! ## Loops -/

/-- What a read of a block of a file comes to between operations. -/
def Serves (hang : Prop) (refuse : Nat → Prop) (breadFile : Nat → M (Nat × Int)) : Prop :=
  ∀ s lbn, Ready s → (hang ∧ breadFile lbn s = none) ∨
    (∃ b s1, breadFile lbn s = some ((b, OK), s1)) ∨
    (refuse lbn ∧ ∃ b e s1, e ≠ OK ∧ breadFile lbn s = some ((b, e), s1))

theorem breadDev_serves (hdev : Answers hang dev) (vp : Nat) :
    Serves hang (fun _ => False) (breadDev dev vp) := by
  intro s lbn hready
  obtain hnone | hok := breadDev_outcome hdev (hready.stale.freeOf vp lbn) hready.room.room
  · exact .inl hnone
  · exact .inr (.inl hok)

theorem rt11Bread_serves (hdev : Answers hang dev) (f : Rt11File) {vp : Nat} (hvp : vp ≠ syncer) :
    Serves hang (fun _ => False) (rt11Bread dev syncer f vp) :=
  fun _ lbn hready => bread_outcome (hready.stale.freeOf vp lbn) hready.room.room
    fun _ b hgot => rt11VopInternalReadStrategy_outcome hdev f lbn b
      (hgot.freeOf (hready.stale.freeOf syncer) hvp) (hgot.room hready.room)

theorem ext2Bread_serves (hdev : Answers hang dev) (v : Ext2Vol) {vp : Nat} (hvp : vp ≠ syncer) :
    Serves hang (Unmapped v) (fun lbn => ext2Bread dev syncer v vp (Util.u32 lbn)) := by
  intro s lbn hready
  have hmod : Unmapped v (Util.u32 lbn) ↔ Unmapped v lbn := by
    simp [Unmapped, Util.u32]
  rw [← hmod]
  exact bread_outcome (hready.stale.freeOf vp _) hready.room.room
    fun _ b hgot => ext2fsVopStrategy_outcome hdev v vp _ b
      (hgot.freeOf (hready.stale.freeOf syncer) hvp) (hgot.room hready.room)

/-- What the type of `bytesToRead` does to a count. -/
structure Trunc (trunc : Int → Int) : Prop where
  small : ∀ x, 0 ≤ x → x < 2 ^ 31 → trunc x = x
  rest : ∀ x, trunc (x - trunc x) = 0
  rest_le : ∀ x, x < 2 ^ 31 → x - trunc x ≤ 0

theorem trunc_id : Trunc id where
  small _ _ _ := rfl
  rest x := by simp
  rest_le x _ := by simp

theorem trunc_u32 : Trunc (· % 2 ^ 32) where
  small x h0 h1 := by
    omega
  rest x := by
    omega
  rest_le x h := by
    omega

/-- What can come of a loop. -/
def LoopOutcome (hang refuse : Prop) (r : Option ((Int × List UInt8) × State)) : Prop :=
  (hang ∧ r = none) ∨ (∃ out s', r = some ((OK, out), s')) ∨
    (refuse ∧ ∃ e out s', e ≠ OK ∧ r = some ((e, out), s'))

/-- The count of a turn of `readLoop`. -/
def turnRead (trunc : Int → Int) (bytesToRead bytesToEOF uio_resid : Int) : Int :=
  let bytesToRead := if uio_resid < bytesToRead then uio_resid else bytesToRead
  trunc (if bytesToEOF < bytesToRead then bytesToEOF else bytesToRead)

section Read

variable {vp blkSize fuel lbn : Nat} {breadFile : Nat → M (Nat × Int)} {trunc : Int → Int}
  {refuse : Nat → Prop} {off bytesToRead bytesToEOF uio_resid : Int} {moved : List UInt8}

/-- A turn hangs, refuses, or goes on to the next. -/
theorem readLoop_turn (blkSize fuel lbn : Nat) (trunc : Int → Int)
    (off bytesToRead bytesToEOF : Int) (moved : List UInt8) (hbread : Breads vp breadFile) (hserves : Serves hang refuse breadFile)
    (hready : Ready s) (hresid : 0 < uio_resid) :
    (hang ∧ readLoop breadFile blkSize trunc (fuel + 1) lbn off bytesToRead bytesToEOF uio_resid
      moved s = none) ∨
    (refuse lbn ∧ ∃ e s', e ≠ OK ∧ readLoop breadFile blkSize trunc (fuel + 1) lbn off bytesToRead
      bytesToEOF uio_resid moved s = some ((e, moved), s')) ∨
    ∃ bytes s1, Ready s1 ∧ readLoop breadFile blkSize trunc (fuel + 1) lbn off bytesToRead
        bytesToEOF uio_resid moved s =
      if turnRead trunc bytesToRead bytesToEOF uio_resid = 0 then
        some ((OK, moved ++ bytes), s1)
      else
        readLoop breadFile blkSize trunc fuel (lbn + 1) 0 blkSize
          (bytesToEOF - turnRead trunc bytesToRead bytesToEOF uio_resid)
          (uio_resid - Rt11.uiomove (turnRead trunc bytesToRead bytesToEOF uio_resid) uio_resid)
          (moved ++ bytes) s1 := by
  rw [readLoop, if_neg (by omega), M.bind_apply]
  obtain ⟨hh, hnone⟩ | ⟨b, s1, hok⟩ | ⟨hr, b, e, s1, hne, herr⟩ := hserves s lbn hready
  · exact .inl ⟨hh, by rw [hnone]; rfl⟩
  · obtain ⟨blkno, ⟨-, hgot⟩ | ⟨hne, -⟩⟩ := hbread s lbn b OK s1 hready.stale hok
    · obtain ⟨s2, hrel⟩ := brelse_total b s1
      refine .inr (.inr ⟨(List.range (Rt11.uiomove (turnRead trunc bytesToRead bytesToEOF uio_resid)
        uio_resid).toNat).map fun i => (s1.buf b).data (off.toNat + i), s2, (hgot.release hrel).ready hready, ?_⟩)
      rw [hok, Option.bind_some]
      simp only [ne_eq, not_true_eq_false, if_false, M.bind_apply, M.get, Option.bind_some, hrel]
      exact M.ite_apply
    · exact absurd rfl hne
  · refine .inr (.inl ⟨hr, e, s1, hne, ?_⟩)
    rw [herr, Option.bind_some]
    simp [hne]

/-- At the end of the file one block is read, and nothing is moved from it. -/
theorem readLoop_last (blkSize fuel lbn : Nat) (off uio_resid : Int) (moved : List UInt8) (hbread : Breads vp breadFile) (hserves : Serves hang refuse breadFile)
    (hready : Ready s) (hpos : 0 < bytesToRead) (heof : bytesToEOF ≤ 0)
    (htrunc : trunc bytesToEOF = 0) :
    LoopOutcome hang (refuse lbn) (readLoop breadFile blkSize trunc (fuel + 1) lbn off bytesToRead
      bytesToEOF uio_resid moved s) := by
  by_cases hresid : uio_resid ≤ 0
  · rw [readLoop, if_pos hresid]
    exact Or.inr (.inl ⟨moved, s, rfl⟩)
  have hzero : turnRead trunc bytesToRead bytesToEOF uio_resid = 0 := by
    unfold turnRead
    dsimp only
    rw [if_pos (by split <;> omega), htrunc]
  obtain hnone | ⟨hr, e, s', hne, herr⟩ | ⟨bytes, s1, -, heq⟩ :=
    readLoop_turn blkSize fuel lbn trunc off bytesToRead bytesToEOF moved hbread hserves hready
      (Int.not_le.1 hresid)
  · exact .inl hnone
  · exact .inr (.inr ⟨hr, e, moved, s', hne, herr⟩)
  · rw [heq, if_pos hzero]
    exact .inr (.inl ⟨_, s1, rfl⟩)

/-- A read of bytes that `last` blocks more hold: it may need one block more. -/
theorem readLoop_outcome (htrunc : Trunc trunc) (hblk : 0 < blkSize) (hbread : Breads vp breadFile)
    (hserves : Serves hang refuse breadFile) (fuel : Nat) :
    ∀ (lbn last : Nat) (off bytesToRead bytesToEOF uio_resid : Int) (moved : List UInt8)
      (s : State), Ready s → 0 < bytesToRead → uio_resid < 2 ^ 31 →
      uio_resid ≤ bytesToRead + last * blkSize → uio_resid.toNat + 2 ≤ fuel →
      LoopOutcome hang (∃ lbn', lbn ≤ lbn' ∧ lbn' ≤ lbn + last + 1 ∧ refuse lbn')
        (readLoop breadFile blkSize trunc fuel lbn off bytesToRead bytesToEOF uio_resid moved s) := by
  induction fuel with
  | zero =>
    intro lbn last off bytesToRead bytesToEOF uio_resid moved s _ _ _ _ hfuel
    omega
  | succ fuel ih =>
    intro lbn last off bytesToRead bytesToEOF uio_resid moved s hready hpos hint hlast hfuel
    by_cases hresid : uio_resid ≤ 0
    · rw [readLoop, if_pos hresid]
      exact Or.inr (.inl ⟨moved, s, rfl⟩)
    obtain hnone | ⟨hr, e, s', hne, herr⟩ | ⟨bytes, s1, hready1, heq⟩ :=
      readLoop_turn blkSize fuel lbn trunc off bytesToRead bytesToEOF moved hbread hserves hready
        (Int.not_le.1 hresid)
    · exact Or.inl hnone
    · exact Or.inr (Or.inr ⟨⟨lbn, Nat.le_refl lbn, by omega, hr⟩, e, moved, s', hne, herr⟩)
    rw [heq]
    split
    · exact Or.inr (.inl ⟨_, s1, rfl⟩)
    obtain ⟨want, hwant⟩ : ∃ want, want = if uio_resid < bytesToRead then uio_resid
      else bytesToRead := ⟨_, rfl⟩
    have hwant_pos : 0 < want := by
      rw [hwant]
      split <;> omega
    have hwant_le : want ≤ uio_resid := by
      rw [hwant]
      split <;> omega
    have hturn : turnRead trunc bytesToRead bytesToEOF uio_resid =
        trunc (if bytesToEOF < want then bytesToEOF else want) := by
      rw [hwant]
      rfl
    by_cases heof : bytesToEOF < want
    · -- the next turn is the last
      rw [if_pos heof] at hturn
      obtain ⟨fuel, rfl⟩ : ∃ m, fuel = m + 1 := ⟨fuel - 1, by omega⟩
      rw [hturn]
      obtain hnone | hok | ⟨hr, herr⟩ := readLoop_last blkSize fuel (lbn + 1) 0
        (uio_resid - Rt11.uiomove (trunc bytesToEOF) uio_resid) (moved ++ bytes) hbread hserves
        hready1 (Int.natCast_pos.2 hblk)
        (htrunc.rest_le bytesToEOF (by omega)) (htrunc.rest bytesToEOF)
      · exact .inl hnone
      · exact .inr (.inl hok)
      · exact .inr (.inr ⟨⟨lbn + 1, by omega, by omega, hr⟩, herr⟩)
    · rw [if_neg heof, htrunc.small want (by omega) (by omega)] at hturn
      rw [hturn, Rt11.uiomove_eq hwant_pos hwant_le hint]
      by_cases hend : uio_resid - want ≤ 0
      · obtain ⟨fuel, rfl⟩ : ∃ m, fuel = m + 1 := ⟨fuel - 1, by omega⟩
        rw [readLoop, if_pos hend]
        exact .inr (.inl ⟨_, s1, rfl⟩)
      · have hfull : want = bytesToRead := by
          rw [hwant] at hend ⊢
          split <;> split at hend <;> omega
        obtain ⟨last, rfl⟩ : ∃ m, last = m + 1 := by
          rcases last with _ | last
          · omega
          · exact ⟨last, rfl⟩
        have hnext : uio_resid - want ≤ blkSize + last * blkSize := by
          push_cast at hlast
          rw [Int.add_mul] at hlast
          omega
        obtain hnone | hok | ⟨⟨lbn', hlo, hhi, hr⟩, herr⟩ := ih (lbn + 1) last 0 blkSize
          (bytesToEOF - want) (uio_resid - want) (moved ++ bytes) s1 hready1
          (Int.natCast_pos.2 hblk) (by omega) hnext (by omega)
        · exact .inl hnone
        · exact .inr (.inl hok)
        · exact .inr (.inr ⟨⟨lbn', by omega, by omega, hr⟩, herr⟩)

end Read

section Write

variable {vp blkSize fuel lbn : Nat} {breadFile : Nat → M (Nat × Int)} {getFile : Nat → M Nat}
  {writeFile : Nat → Nat → M Int} {grow : Nat → M Unit} {off bytesToEOF : Int}
  {bytes : List UInt8}

/-- The bytes do not fit.  A write behind the end moves as many as an `int` makes of the distance. -/
def NoRoom (bytesToEOF : Int) (bytes : List UInt8) : Prop :=
  bytesToEOF < bytes.length ∧ Rt11.uiomove bytesToEOF bytes.length < bytes.length

/-- What a write of a block of a file comes to. -/
structure WriteServes (hang : Prop) (vp : Nat) (breadFile : Nat → M (Nat × Int))
    (getFile : Nat → M Nat) (writeFile : Nat → Nat → M Int) (grow : Nat → M Unit) : Prop where
  breads : Breads vp breadFile
  serves : Serves hang (fun _ => False) breadFile
  get : ∀ s lbn, Ready s → ∃ b s1, getFile lbn s = some (b, s1) ∧ Got s s1 b (vp, lbn)
  write : ∀ s s1 lbn b blkno, Ready s → Got s s1 b (vp, blkno) →
    Written hang (writeFile lbn b s1) ∧ ∀ e s2, writeFile lbn b s1 = some (e, s2) → Same s s2
  grow : ∀ lbn s, ∃ s', grow lbn s = some ((), s') ∧ Same s s'

theorem blockToWrite_outcome (h : WriteServes hang vp breadFile getFile writeFile grow)
    (hready : Ready s) (inPart : Bool) (lbn : Nat) :
    (hang ∧ blockToWrite breadFile getFile inPart lbn s = none) ∨
      ∃ b s1 blkno, blockToWrite breadFile getFile inPart lbn s = some ((b, OK), s1) ∧
        Got s s1 b (vp, blkno) := by
  rw [blockToWrite]
  by_cases hpart : inPart = true
  · rw [if_pos hpart]
    obtain hnone | ⟨b, s1, hok⟩ | ⟨hr, -⟩ := h.serves s lbn hready
    · exact .inl hnone
    · obtain ⟨blkno, ⟨-, hgot⟩ | ⟨hne, -⟩⟩ := h.breads s lbn b OK s1 hready.stale hok
      · exact .inr ⟨b, s1, blkno, hok, hgot⟩
      · exact absurd rfl hne
    · exact hr.elim
  · rw [if_neg hpart]
    obtain ⟨b, s1, hget, hgot⟩ := h.get s lbn hready
    exact .inr ⟨b, s1, lbn, by rw [M.bind_apply, hget]; rfl, hgot⟩

/-- A turn ends the write, hangs, or goes on to the next. -/
theorem writeLoop_turn (fuel lbn : Nat) (h : WriteServes hang vp breadFile getFile writeFile grow) (hready : Ready s)
    (hbytes : bytes ≠ [])
    (hturn : Rt11.turnBytes blkSize off bytesToEOF bytes.length ≠ 0) :
    (hang ∧ writeLoop breadFile getFile writeFile grow blkSize (fuel + 1) lbn off
      bytesToEOF bytes s = none) ∨
    ¬ hang ∧ ∃ s1, Ready s1 ∧ writeLoop breadFile getFile writeFile grow blkSize (fuel + 1)
        lbn off bytesToEOF bytes s =
      writeLoop breadFile getFile writeFile grow blkSize fuel (lbn + 1) 0
        (bytesToEOF - Rt11.turnBytes blkSize off bytesToEOF bytes.length)
        (bytes.drop (Rt11.uiomove (Rt11.turnBytes blkSize off bytesToEOF bytes.length)
          bytes.length).toNat) s1 := by
  rw [writeLoop, if_neg hbytes]
  change (hang ∧ (if Rt11.turnBytes blkSize off bytesToEOF bytes.length = 0 then _ else _ : M _) s
    = none) ∨ ¬ hang ∧ ∃ s1, Ready s1 ∧
      (if Rt11.turnBytes blkSize off bytesToEOF bytes.length = 0 then _ else _ : M _) s = _
  rw [if_neg hturn, M.bind_apply]
  obtain ⟨hh, hnone⟩ | ⟨b, s1, blkno, hok, hgot⟩ := blockToWrite_outcome h hready
    (Rt11.turnBytes blkSize off bytesToEOF bytes.length ≠ blkSize) lbn
  · refine .inl ⟨hh, ?_⟩
    change (blockToWrite breadFile getFile
      (Rt11.turnBytes blkSize off bytesToEOF bytes.length ≠ blkSize) lbn s).bind _ = none
    rw [hnone]
    rfl
  obtain ⟨s2, hmove, hsame⟩ : ∃ s2, moveIn b off (bytes.take (Rt11.uiomove
      (Rt11.turnBytes blkSize off bytesToEOF bytes.length) bytes.length).toNat) s1 =
      some ((), s2) ∧ Same s1 s2 :=
    ⟨_, rfl, (quiet_setBuf s1 b _ ⟨rfl, rfl, rfl⟩).same⟩
  have hrun : ∀ k : (Nat × Int) × State → Option ((Int × List UInt8) × State), (blockToWrite breadFile getFile
      (Rt11.turnBytes blkSize off bytesToEOF bytes.length ≠ blkSize) lbn s).bind k =
      k ((b, OK), s1) := fun k => by rw [hok, Option.bind_some]
  obtain ⟨hwritten, hsame3⟩ := h.write s s2 lbn b blkno hready (hgot.same hsame)
  obtain ⟨hh, hnone⟩ | ⟨hh, s3, hwrite⟩ := hwritten
  · refine .inl ⟨hh, (hrun _).trans ?_⟩
    simp only [ne_eq, not_true_eq_false, if_false]
    rw [M.bind_apply]
    change (moveIn b off (bytes.take (Rt11.uiomove
      (Rt11.turnBytes blkSize off bytesToEOF bytes.length) bytes.length).toNat) s1).bind _ = none
    rw [hmove, Option.bind_some, M.bind_apply, hnone]
    rfl
  · obtain ⟨s4, hgrow, hsame4⟩ := h.grow (lbn + 1) s3
    refine .inr ⟨hh, s4, hsame4.ready ((hsame3 OK s3 hwrite).ready hready), (hrun _).trans ?_⟩
    simp only [ne_eq, not_true_eq_false, if_false]
    rw [M.bind_apply]
    change (moveIn b off (bytes.take (Rt11.uiomove
      (Rt11.turnBytes blkSize off bytesToEOF bytes.length) bytes.length).toNat) s1).bind _ = _
    rw [hmove, Option.bind_some, M.bind_apply, hwrite, Option.bind_some]
    simp only [not_true_eq_false, if_false]
    rw [M.bind_apply, hgrow, Option.bind_some]
    rfl

theorem noRoom_of_nonneg (hint : bytes.length < 2 ^ 31) (heof : 0 ≤ bytesToEOF) :
    NoRoom bytesToEOF bytes ↔ bytesToEOF < bytes.length := by
  refine ⟨fun h => h.1, fun h => ⟨h, ?_⟩⟩
  by_cases hzero : bytesToEOF = 0
  · have hmove : Rt11.uiomove 0 bytes.length = 0 := by
      have hnot : ¬ ((bytes.length : Int) < 0) := by omega
      simp [Rt11.uiomove, hnot]
    rw [hzero, hmove]
    omega
  · rw [Rt11.uiomove_eq (by omega) (by omega) (by omega)]
    exact h

/-- What can come of a write. -/
def WriteOutcome (hang noRoom : Prop) (r : Option ((Int × List UInt8) × State)) : Prop :=
  (hang ∧ r = none) ∨ (¬ noRoom ∧ ∃ out s', r = some ((OK, out), s')) ∨
    (noRoom ∧ ∃ e out s', e ≠ OK ∧ r = some ((e, out), s'))

theorem writeLoop_nil :
    writeLoop breadFile getFile writeFile grow blkSize (fuel + 1) lbn off bytesToEOF
      [] s = some ((OK, []), s) := by
  rw [writeLoop, if_pos rfl]
  rfl

theorem writeLoop_full (hbytes : bytes ≠ [])
    (hturn : Rt11.turnBytes blkSize off bytesToEOF bytes.length = 0) :
    writeLoop breadFile getFile writeFile grow blkSize (fuel + 1) lbn off bytesToEOF
      bytes s = some ((EFBIG, bytes), s) := by
  rw [writeLoop, if_neg hbytes]
  change (if Rt11.turnBytes blkSize off bytesToEOF bytes.length = 0 then _ else _ : M _) s = _
  rw [if_pos hturn]
  rfl

theorem turnBytes_eq_zero (hoff : off < blkSize) (hbytes : bytes ≠ []) :
    Rt11.turnBytes blkSize off bytesToEOF bytes.length = 0 ↔ bytesToEOF = 0 := by
  have hlen := List.length_pos_iff.2 hbytes
  unfold Rt11.turnBytes
  dsimp only
  split <;> split <;> omega

theorem writeLoop_outcome (hblk : 0 < blkSize)
    (h : WriteServes hang vp breadFile getFile writeFile grow) (fuel : Nat) :
    ∀ (lbn : Nat) (off bytesToEOF : Int) (bytes : List UInt8) (s : State), Ready s →
      off < blkSize → bytes.length < 2 ^ 31 → bytes.length + 2 ≤ fuel →
      WriteOutcome hang (bytes ≠ [] ∧ NoRoom bytesToEOF bytes)
        (writeLoop breadFile getFile writeFile grow blkSize fuel lbn off bytesToEOF
          bytes s) := by
  induction fuel with
  | zero =>
    intro lbn off bytesToEOF bytes s _ _ _ hfuel
    omega
  | succ fuel ih =>
    intro lbn off bytesToEOF bytes s hready hoff hint hfuel
    by_cases hbytes : bytes = []
    · subst hbytes
      rw [writeLoop_nil]
      exact Or.inr (.inl ⟨fun hno => hno.1 rfl, _, _, rfl⟩)
    have hlen := List.length_pos_iff.2 hbytes
    by_cases hzero : Rt11.turnBytes blkSize off bytesToEOF bytes.length = 0
    · rw [writeLoop_full hbytes hzero]
      rw [turnBytes_eq_zero hoff hbytes] at hzero
      refine .inr (.inr ⟨⟨hbytes, ?_⟩, EFBIG, _, _, by decide, rfl⟩)
      rw [noRoom_of_nonneg hint (by omega)]
      omega
    obtain hnone | ⟨-, s1, hready1, heq⟩ := writeLoop_turn fuel lbn h hready hbytes hzero
    · exact .inl hnone
    rw [heq]
    obtain ⟨hle, hneg⟩ := Rt11.turnBytes_le bytesToEOF hoff (Int.natCast_pos.2 hlen)
    obtain ⟨w, hw⟩ : ∃ w, w = Rt11.turnBytes blkSize off bytesToEOF bytes.length := ⟨_, rfl⟩
    have hcap : 0 < w → w ≤ bytesToEOF := by
      rw [hw]
      unfold Rt11.turnBytes
      dsimp only
      split <;> split <;> omega
    rw [← hw] at hle hneg hzero ⊢
    by_cases hpos : 0 < w
    · have hmove := Rt11.uiomove_eq hpos hle (by omega)
      rw [hmove]
      have hdrop : (bytes.drop w.toNat).length = bytes.length - w.toNat := List.length_drop ..
      have hroom : ((bytes.drop w.toNat ≠ []) ∧ NoRoom (bytesToEOF - w) (bytes.drop w.toNat)) ↔
          (bytes ≠ [] ∧ NoRoom bytesToEOF bytes) := by
        have hcap := hcap hpos
        rw [noRoom_of_nonneg hint (by omega), noRoom_of_nonneg (by omega) (by omega), hdrop,
          ← List.length_pos_iff, ← List.length_pos_iff, hdrop]
        omega
      rw [← hroom]
      exact ih (lbn + 1) 0 (bytesToEOF - w) (bytes.drop w.toNat) s1 hready1 (by omega) (by omega)
        (by omega)
    · -- behind the end one block is written
      have hbehind := hneg (by omega)
      obtain ⟨fuel, rfl⟩ : ∃ m, fuel = m + 1 := ⟨fuel - 1, by omega⟩
      rw [hbehind, Int.sub_self]
      have hmoved := Rt11.uiomove_nonneg bytesToEOF bytes.length
      by_cases hall : Rt11.uiomove bytesToEOF bytes.length < bytes.length
      · have hleft : bytes.drop (Rt11.uiomove bytesToEOF bytes.length).toNat ≠ [] := by
          rw [← List.length_pos_iff, List.length_drop]
          omega
        rw [writeLoop_full hleft ((turnBytes_eq_zero (by omega) hleft).2 rfl)]
        exact .inr (.inr ⟨⟨hbytes, by omega, hall⟩, EFBIG, _, _, by decide, rfl⟩)
      · have hleft : bytes.drop (Rt11.uiomove bytesToEOF bytes.length).toNat = [] := by
          rw [List.drop_eq_nil_iff]
          omega
        rw [hleft, writeLoop_nil]
        exact .inr (.inl ⟨fun hno => hall hno.2.2, _, _, rfl⟩)

/-- Without the device a write hangs at its first block. -/
theorem writeLoop_hangs (h : WriteServes hang vp breadFile getFile writeFile grow) (hh : hang)
    (hready : Ready s) (hoff : off < blkSize) (hbytes : bytes ≠ []) (heof : bytesToEOF ≠ 0) :
    writeLoop breadFile getFile writeFile grow blkSize (fuel + 1) lbn off bytesToEOF
      bytes s = none := by
  obtain ⟨-, hnone⟩ | ⟨hno, -⟩ := writeLoop_turn fuel lbn h hready hbytes
    ((turnBytes_eq_zero hoff hbytes).not.2 heof)
  · exact hnone
  · exact absurd hh hno

end Write

theorem rawVopWrite_serves (hdev : Answers hang dev) (vp : Nat) :
    WriteServes hang vp (breadDev dev vp) (fun lbn => bufGetblk (vp, lbn))
      (fun lbn b => bwrite (writeTransfer dev lbn) b) (fun _ => pure ()) where
  breads := breadDev_breads dev vp
  serves := breadDev_serves hdev vp
  get s lbn hready := by
    obtain ⟨b1, hb1, hfree⟩ := hready.room.room
    obtain ⟨b, s1, hget⟩ := bufGetblk_total (hready.stale.freeOf vp lbn) hb1 hfree
    exact ⟨b, s1, hget, bufGetblk_got (hready.stale.freeOf vp lbn) hget⟩
  write s s1 lbn b blkno hready hgot :=
    ⟨hgot.bwrite_written (writeTransfer_written hdev lbn b s1),
      fun _ _ h => hgot.bwrite (writeTransfer_writes dev lbn) trivial h⟩
  grow _ s := ⟨s, rfl, Same.refl s⟩

theorem rt11VopWrite_serves (hdev : Answers hang dev) (f : Rt11File) {vp : Nat}
    (hvp : vp ≠ syncer) :
    WriteServes hang vp (rt11Bread dev syncer f vp) (fun lbn => bufGetblk (vp, lbn))
      (fun lbn b => bwrite (rt11VopInternalWriteStrategy dev syncer f lbn) b) (rt11Grow vp) where
  breads := rt11Bread_breads f hvp
  serves := rt11Bread_serves hdev f hvp
  get s lbn hready := by
    obtain ⟨b1, hb1, hfree⟩ := hready.room.room
    obtain ⟨b, s1, hget⟩ := bufGetblk_total (hready.stale.freeOf vp lbn) hb1 hfree
    exact ⟨b, s1, hget, bufGetblk_got (hready.stale.freeOf vp lbn) hget⟩
  write s s1 lbn b blkno hready hgot := by
    have hfree := hgot.freeOf (hready.stale.freeOf syncer) hvp
    exact ⟨hgot.bwrite_written (rt11VopInternalWriteStrategy_written hdev f lbn b hfree
      (hgot.room hready.room)), fun _ _ h => hgot.bwrite
      (rt11VopInternalWriteStrategy_writes f lbn) hfree h⟩
  grow lbn s := ⟨_, rfl, rt11Grow_same rfl⟩

end Device

/-! ## Calls -/

/-- A transfer of an attached device completes without an error, whatever the driver returns. -/
theorem xbd_answers (xbd : Xbd) : Answers (xbd.attached = false) xbd.dev := by
  intro n
  show (_ ∧ (xbdStrategy xbd n).2 = none) ∨ (_ ∧ (xbdStrategy xbd n).2 = some OK)
  induction xbd with
  | blkDev attached bd => cases attached <;> simp [xbdStrategy, Xbd.attached, xbdBlkDevStrategy]
  | partition attached subDevice ih =>
    cases attached
    · simp [xbdStrategy, Xbd.attached]
    · simpa [xbdStrategy, Xbd.attached] using ih

variable {syncer : Nat}

/-- `bytesToEOF` of a write. -/
def File.bytesToEOF : File syncer → Nat → Option Int
  | .raw v _, uio_offset => some ((v.diskSize : Int) - uio_offset)
  | .rt11 f _, uio_offset => some (((f.de_nblocks * 2 ^ f.vd_blkSize2 : Nat) : Int) - uio_offset)
  | .ext2 _ _, _ => none
  | .special, _ => none

/-- The call returns `ERROR` for a reason of its own: the mode of the file, a file that has no such
operation, or no room for the bytes.  Without the device a write gets as far as finding no room
only at the very end of the file. -/
def Refused (xbd : Xbd) (fd : FileDesc syncer) : Call → Prop
  | .read _ _ => fd.fd_mode &&& O_ACCMODE = O_WRONLY ∨ fd.fd_vnode = .special
  | .write bytes _ => fd.fd_mode &&& O_ACCMODE = O_RDONLY ∨
    match fd.fd_vnode.bytesToEOF fd.fd_off with
    | none => True
    | some bytesToEOF =>
      bytes ≠ [] ∧ if xbd.attached then NoRoom bytesToEOF bytes else bytesToEOF = 0

/-- The blocks of a file of ext2 that a read may need are within its block map. -/
def Mapped (fd : FileDesc syncer) : Call → Prop
  | .read maxBytes _ =>
    match fd.fd_vnode with
    | .ext2 v _ => ∀ lbn, fd.fd_off / v.vol.blkSize ≤ lbn →
      lbn ≤ fd.fd_off / v.vol.blkSize + (fd.fd_off % v.vol.blkSize + maxBytes) / v.vol.blkSize + 1 →
      ¬ Unmapped v lbn
    | _ => True
  | .write _ _ => True

/-- What can come of a call that is not refused. -/
def CallOutcome (xbd : Xbd) (unmapped : Prop) (fd : FileDesc syncer)
    (r : Option ((Int × FileDesc syncer) × State)) : Prop :=
  (xbd.attached = false ∧ r = none) ∨ (∃ count fd' s', count ≠ ERROR ∧ r = some ((count, fd'), s')) ∨
    (unmapped ∧ ∃ s', r = some ((ERROR, fd), s'))

theorem LoopOutcome.mono {refuse' : Prop} {r : Option ((Int × List UInt8) × State)}
    (h : LoopOutcome hang refuse r) (himp : refuse → refuse') : LoopOutcome hang refuse' r := by
  obtain hnone | hok | ⟨hr, herr⟩ := h
  · exact Or.inl hnone
  · exact Or.inr (.inl hok)
  · exact Or.inr (Or.inr ⟨himp hr, herr⟩)

/-- The blocks of a read. -/
theorem read_cover {blkSize : Nat} (off maxBytes : Nat) (hblk : 0 < blkSize) :
    0 < ((blkSize : Nat) : Int) - ((off % blkSize : Nat) : Int) ∧
      (maxBytes : Int) ≤ ((blkSize : Nat) : Int) - ((off % blkSize : Nat) : Int) +
        (((off % blkSize + maxBytes) / blkSize : Nat) : Int) * blkSize := by
  have hoff := Nat.mod_lt off hblk
  refine ⟨by omega, ?_⟩
  obtain ⟨q, hq⟩ : ∃ q, q = (off % blkSize + maxBytes) / blkSize := ⟨_, rfl⟩
  have hdiv := Nat.div_add_mod (off % blkSize + maxBytes) blkSize
  have hmod := Nat.mod_lt (off % blkSize + maxBytes) hblk
  rw [← hq] at hdiv ⊢
  have hcast : ((blkSize * q + (off % blkSize + maxBytes) % blkSize : Nat) : Int) =
      ((off % blkSize + maxBytes : Nat) : Int) := by rw [hdiv]
  rw [Nat.cast_add, Nat.cast_mul, mul_comm] at hcast
  omega

theorem vopRead_outcome (xbd : Xbd) {fd : FileDesc syncer} {maxBytes : Nat}
    (hint : maxBytes < 2 ^ 31) (hready : Ready s) (hfile : fd.fd_vnode ≠ .special) :
    LoopOutcome (xbd.attached = false) (¬ Mapped fd (.read maxBytes hint))
      (vopRead xbd.dev fd.fd_vnode fd.fd_off maxBytes s) := by
  have hdev := xbd_answers xbd
  rw [Mapped]
  rcases hvnode : fd.fd_vnode with ⟨v, vp⟩ | ⟨f, vp⟩ | ⟨v, vp⟩ | _
  · show LoopOutcome _ _ (rawVopRead xbd.dev v vp fd.fd_off maxBytes s)
    rw [rawVopRead, M.ite_apply]
    by_cases hzero : maxBytes = 0
    · rw [if_pos hzero]
      exact Or.inr (.inl ⟨[], s, rfl⟩)
    · rw [if_neg hzero]
      obtain ⟨hpos, hcover⟩ := read_cover fd.fd_off maxBytes (Nat.two_pow_pos v.blkSize2)
      refine (readLoop_outcome trunc_id (Nat.two_pow_pos _) (breadDev_breads xbd.dev vp)
        (breadDev_serves hdev vp) _ _ _ _ _ _ _ _ s hready hpos (by omega) hcover
        (by omega)).mono ?_
      rintro ⟨_, _, _, hfalse⟩
      exact hfalse.elim
  · show LoopOutcome _ _ (rt11VopRead xbd.dev syncer f vp fd.fd_off maxBytes s)
    rw [rt11VopRead, M.ite_apply]
    by_cases hzero : maxBytes = 0
    · rw [if_pos hzero]
      exact Or.inr (.inl ⟨[], s, rfl⟩)
    · rw [if_neg hzero, M.bind_apply, M.get, Option.bind_some]
      obtain ⟨hpos, hcover⟩ := read_cover fd.fd_off maxBytes (Nat.two_pow_pos f.vd_blkSize2)
      refine (readLoop_outcome trunc_id (Nat.two_pow_pos _) (rt11Bread_breads f vp.2)
        (rt11Bread_serves hdev f vp.2) _ _ _ _ _ _ _ _ s hready hpos (by omega) hcover
        (by omega)).mono ?_
      rintro ⟨_, _, _, hfalse⟩
      exact hfalse.elim
  · show LoopOutcome _ _ (ext2fsVopRead xbd.dev syncer v vp fd.fd_off maxBytes s)
    rw [ext2fsVopRead, M.ite_apply]
    by_cases hzero : maxBytes = 0
    · rw [if_pos hzero]
      exact Or.inr (.inl ⟨[], s, rfl⟩)
    · rw [if_neg hzero]
      have hblk : 0 < v.vol.blkSize := Nat.two_pow_pos _
      obtain ⟨hpos, hcover⟩ := read_cover fd.fd_off maxBytes hblk
      rw [M.bind_apply, M.get, Option.bind_some]
      refine (readLoop_outcome trunc_u32 hblk
        (fun s lbn => ext2Bread_breads v vp.2 s (Util.u32 lbn)) (ext2Bread_serves hdev v vp.2)
        _ _ ((fd.fd_off % v.vol.blkSize + maxBytes) / v.vol.blkSize) _ _ _ _ _ s hready hpos (by omega) hcover (by omega)).mono ?_
      rintro ⟨lbn, hlo, hhi, hunmapped⟩ hmapped
      exact hmapped lbn hlo hhi hunmapped
  · exact absurd hvnode hfile

theorem vopWrite_outcome (xbd : Xbd) {fd : FileDesc syncer} {bytes : List UInt8}
    {bytesToEOF : Int} (hint : bytes.length < 2 ^ 31) (hready : Ready s)
    (heof : fd.fd_vnode.bytesToEOF fd.fd_off = some bytesToEOF) :
    WriteOutcome (xbd.attached = false) (bytes ≠ [] ∧ NoRoom bytesToEOF bytes)
        (vopWrite xbd.dev fd.fd_vnode fd.fd_off bytes s) ∧
      (xbd.attached = false → bytes ≠ [] → bytesToEOF ≠ 0 →
        vopWrite xbd.dev fd.fd_vnode fd.fd_off bytes s = none) ∧
      (bytes ≠ [] → bytesToEOF = 0 →
        ∃ r s', vopWrite xbd.dev fd.fd_vnode fd.fd_off bytes s = some ((EFBIG, r), s')) := by
  have hdev := xbd_answers xbd
  have hoff : ∀ k, ((fd.fd_off % 2 ^ k : Nat) : Int) < ((2 ^ k : Nat) : Int) :=
    fun k => Int.ofNat_lt.2 (Nat.mod_lt _ (Nat.two_pow_pos k))
  rcases hvnode : fd.fd_vnode with ⟨v, vp⟩ | ⟨f, vp⟩ | ⟨v, vp⟩ | _
  all_goals rw [hvnode] at heof
  · cases heof
    have hserves := rawVopWrite_serves hdev vp
    refine ⟨writeLoop_outcome (Nat.two_pow_pos _) hserves _ _ _ _ _ _ hready (hoff v.blkSize2) hint
      (by omega), fun hh hbytes hne => writeLoop_hangs hserves hh hready (hoff v.blkSize2) hbytes hne,
      fun hbytes hzero => ⟨bytes, s, ?_⟩⟩
    rw [vopWrite, rawVopWrite]
    exact writeLoop_full hbytes ((turnBytes_eq_zero (hoff v.blkSize2) hbytes).2 hzero)
  · cases heof
    have hserves := rt11VopWrite_serves hdev f vp.2
    refine ⟨writeLoop_outcome (Nat.two_pow_pos _) hserves _ _ _ _ _ _ hready (hoff f.vd_blkSize2)
      hint (by omega),
      fun hh hbytes hne => writeLoop_hangs hserves hh hready (hoff f.vd_blkSize2) hbytes hne,
      fun hbytes hzero => ⟨bytes, s, ?_⟩⟩
    rw [vopWrite, rt11VopWrite]
    exact writeLoop_full hbytes ((turnBytes_eq_zero (hoff f.vd_blkSize2) hbytes).2 hzero)
  · simp [File.bytesToEOF] at heof
  · simp [File.bytesToEOF] at heof

/-- What a call comes to. -/
theorem call_cases (xbd : Xbd) (fd : FileDesc syncer) (call : Call) (hready : Ready s) :
    (Refused xbd fd call ∧ ∃ s', call.run xbd.dev fd s = some ((ERROR, fd), s')) ∨
      (¬ Refused xbd fd call ∧ CallOutcome xbd (¬ Mapped fd call) fd (call.run xbd.dev fd s)) := by
  rcases call with ⟨maxBytes, hint⟩ | ⟨bytes, hint⟩
  · show _ ∨ (_ ∧ CallOutcome xbd _ fd (vncioRead xbd.dev fd maxBytes s))
    by_cases hmode : fd.fd_mode &&& O_ACCMODE = O_WRONLY
    · refine Or.inl ⟨Or.inl hmode, s, ?_⟩
      rw [Call.run, vncioRead, if_pos hmode]
      rfl
    by_cases hspecial : fd.fd_vnode = .special
    · refine .inl ⟨Or.inr hspecial, s, ?_⟩
      rw [Call.run, vncioRead, if_neg hmode, hspecial]
      rfl
    refine .inr ⟨fun hr => hr.elim hmode hspecial, ?_⟩
    rw [vncioRead, if_neg hmode, M.bind_apply]
    obtain ⟨hh, hnone⟩ | ⟨out, s', hok⟩ | ⟨hr, e, out, s', hne, herr⟩ :=
      vopRead_outcome xbd hint hready hspecial
    · exact Or.inl ⟨hh, by rw [hnone]; rfl⟩
    · refine Or.inr (.inl ⟨out.length, _, s', ?_, by rw [hok]; rfl⟩)
      unfold ERROR
      omega
    · refine Or.inr (Or.inr ⟨hr, s', ?_⟩)
      rw [herr, Option.bind_some]
      simp [hne]
  · show _ ∨ (_ ∧ CallOutcome xbd _ fd (vncioWrite xbd.dev fd bytes s))
    by_cases hmode : fd.fd_mode &&& O_ACCMODE = O_RDONLY
    · refine Or.inl ⟨Or.inl hmode, s, ?_⟩
      rw [Call.run, vncioWrite, if_pos hmode]
      rfl
    rw [vncioWrite, if_neg hmode, M.bind_apply, Call.run, vncioWrite, if_neg hmode, M.bind_apply,
      Refused]
    rcases heof : fd.fd_vnode.bytesToEOF fd.fd_off with _ | bytesToEOF
    · -- there is no such operation
      refine .inl ⟨.inr trivial, s, ?_⟩
      rcases hvnode : fd.fd_vnode with ⟨v, vp⟩ | ⟨f, vp⟩ | ⟨v, vp⟩ | _
      · simp [hvnode, File.bytesToEOF] at heof
      · simp [hvnode, File.bytesToEOF] at heof
      · rfl
      · rfl
    obtain ⟨hwrite, hhangs, hfull⟩ := vopWrite_outcome xbd hint hready heof
    have hcount : ∀ out s', vopWrite xbd.dev fd.fd_vnode fd.fd_off bytes s = some ((OK, out), s') →
        CallOutcome xbd (¬ Mapped fd (.write bytes hint)) fd
          ((vopWrite xbd.dev fd.fd_vnode fd.fd_off bytes s).bind fun r =>
            (if r.1.1 ≠ OK then pure (ERROR, fd)
              else pure (((bytes.length - r.1.2.length : Nat) : Int),
                { fd with fd_off := fd.fd_off + (bytes.length - r.1.2.length) }) : M _) r.2) := by
      intro out s' hok
      refine Or.inr (.inl ⟨((bytes.length - out.length : Nat) : Int), _, s', ?_, by rw [hok]; rfl⟩)
      unfold ERROR
      omega
    have herror : ∀ e out s', e ≠ OK →
        vopWrite xbd.dev fd.fd_vnode fd.fd_off bytes s = some ((e, out), s') →
        ∃ s', ((vopWrite xbd.dev fd.fd_vnode fd.fd_off bytes s).bind fun r =>
          (if r.1.1 ≠ OK then pure (ERROR, fd)
            else pure (((bytes.length - r.1.2.length : Nat) : Int),
              { fd with fd_off := fd.fd_off + (bytes.length - r.1.2.length) }) : M _) r.2) =
          some ((ERROR, fd), s') := by
      intro e out s' hne herr
      refine ⟨s', ?_⟩
      rw [herr, Option.bind_some, if_pos hne]
      rfl
    by_cases hatt : xbd.attached = true
    · simp only [hatt, if_true]
      obtain ⟨hh, -⟩ | ⟨hroom, out, s', hok⟩ | ⟨hno, e, out, s', hne, herr⟩ := hwrite
      · rw [hatt] at hh
        simp at hh
      · exact .inr ⟨fun hr => hr.elim hmode hroom, hcount out s' hok⟩
      · exact .inl ⟨.inr hno, herror e out s' hne herr⟩
    · have hdet : xbd.attached = false := by simpa using hatt
      simp only [hdet, Bool.false_eq_true, if_false]
      by_cases hbytes : bytes = []
      · refine .inr ⟨fun hr => hr.elim hmode fun hno => hno.1 hbytes, ?_⟩
        obtain ⟨hh, hnone⟩ | ⟨-, out, s', hok⟩ | ⟨hno, -⟩ := hwrite
        · exact Or.inl ⟨hh, by rw [hnone]; rfl⟩
        · exact hcount out s' hok
        · exact absurd hbytes hno.1
      · by_cases hzero : bytesToEOF = 0
        · obtain ⟨out, s', herr⟩ := hfull hbytes hzero
          exact .inl ⟨.inr ⟨hbytes, hzero⟩, herror EFBIG out s' (by decide) herr⟩
        · refine .inr ⟨fun hr => hr.elim hmode fun hno => hzero hno.2, Or.inl ⟨hdet, ?_⟩⟩
          rw [hhangs hdet hbytes hzero]
          rfl

/-- The claim on a call: it ends, and with `ERROR` when the device is not attached or one of its
transfers fails in the driver. -/
def Reported (xbd : Xbd) (fd : FileDesc syncer) (call : Call) (s : State) : Prop :=
  ∃ r s', call.run xbd.dev fd s = some (r, s') ∧
    ((xbd.attached = false ∨ ∃ n, s.xfers ≤ n ∧ n < s'.xfers ∧ xbd.bd.rv n ≠ OK) → r.1 = ERROR)

/-- The device is attached, and the driver does all the transfers of the call. -/
def DeviceFine (xbd : Xbd) (fd : FileDesc syncer) (call : Call) (s : State) : Prop :=
  xbd.attached = true ∧ ∀ r s', call.run xbd.dev fd s = some (r, s') →
    ∀ n, s.xfers ≤ n → n < s'.xfers → xbd.bd.rv n = OK

/-- A call on a mount with two buffers that can be had reports the errors of the device only when
there are none to report, or when it is refused anyway. -/
theorem errors_reported (xbd : Xbd) (fd : FileDesc syncer) (call : Call) (hready : Ready s) :
    (Refused xbd fd call ∨ DeviceFine xbd fd call s → Reported xbd fd call s) ∧
      (Mapped fd call → Reported xbd fd call s →
        Refused xbd fd call ∨ DeviceFine xbd fd call s) := by
  obtain ⟨hrefused, s', hrun⟩ | ⟨hnot, hcall⟩ := call_cases xbd fd call hready
  · exact ⟨fun _ => ⟨_, s', hrun, fun _ => rfl⟩, fun _ _ => .inl hrefused⟩
  constructor
  · intro hfine
    obtain ⟨hatt, hok⟩ := hfine.resolve_left hnot
    have hends : ∃ r s', call.run xbd.dev fd s = some (r, s') := by
      obtain ⟨hdet, -⟩ | ⟨count, fd', s', -, hrun⟩ | ⟨-, s', hrun⟩ := hcall
      · rw [hatt] at hdet
        simp at hdet
      · exact ⟨_, s', hrun⟩
      · exact ⟨_, s', hrun⟩
    obtain ⟨r, s', hrun⟩ := hends
    refine ⟨r, s', hrun, fun hbad => ?_⟩
    obtain hdet | ⟨n, hlo, hhi, hrv⟩ := hbad
    · rw [hatt] at hdet
      simp at hdet
    · exact absurd (hok r s' hrun n hlo hhi) hrv
  · rintro hmapped ⟨r, s', hrun, hrep⟩
    right
    obtain ⟨-, hnone⟩ | ⟨count, fd', s1, hne, hrun'⟩ | ⟨hunmapped, -⟩ := hcall
    · rw [hnone] at hrun
      simp at hrun
    · rw [hrun] at hrun'
      obtain ⟨rfl, rfl⟩ := Prod.mk.inj (Option.some.inj hrun')
      have hgood := fun hbad => hne (hrep hbad)
      refine ⟨by simpa using fun hdet => hgood (.inl hdet), fun r' s1 hrun1 n hlo hhi => ?_⟩
      rw [hrun] at hrun1
      obtain ⟨-, rfl⟩ := Prod.mk.inj (Option.some.inj hrun1)
      by_contra hrv
      exact hgood (.inr ⟨n, hlo, hhi, hrv⟩)
    · exact absurd hmapped hunmapped

/-- A mount with two buffers. -/
def twoBufs : State := { list := [0, 1] }

/-- A driver whose calls all return a value. -/
def bdOf (rv : Int) : BlkDev :=
  ⟨fun _ => rv, fun _ => rv = OK, fun _ h => by simp [h]⟩

/-- A raw device of four blocks, open for reading and writing. -/
def rawFd : FileDesc 9 := ⟨2, 0, .raw ⟨1, 8⟩ 0⟩

theorem twoBufs_ready : Ready twoBufs :=
  ⟨fun _ hb => absurd hb (by simp [twoBufs]), 0, by simp [twoBufs], 1, by simp [twoBufs],
    by decide, rfl, rfl⟩

theorem errors_reported_raw :
    Mapped rawFd (.read 3 (by decide)) ∧
      (Refused (.partition true (.blkDev true (bdOf OK))) rawFd (.read 3 (by decide)) ∨
          DeviceFine (.partition true (.blkDev true (bdOf OK))) rawFd (.read 3 (by decide)) twoBufs ↔
        Reported (.partition true (.blkDev true (bdOf OK))) rawFd (.read 3 (by decide)) twoBufs) :=
  ⟨trivial, (errors_reported _ _ _ twoBufs_ready).1, (errors_reported _ _ _ twoBufs_ready).2 trivial⟩

/-- A read of two bytes from a block that the driver cannot read returns 2, and without the device
it does not return. -/
theorem errors_not_reported :
    ¬ Reported (.blkDev true (bdOf EIO)) rawFd (.read 2 (by decide)) twoBufs ∧
      ¬ Reported (.blkDev false (bdOf OK)) rawFd (.read 2 (by decide)) twoBufs := by
  constructor
  · rintro ⟨r, s', hrun, hreported⟩
    have htwo : ((Call.read 2 (by decide)).run (Xbd.blkDev true (bdOf EIO)).dev rawFd twoBufs).map
        (fun x => (x.1.1, x.2.xfers)) = some (2, 1) := rfl
    rw [hrun, Option.map_some, Option.some.injEq, Prod.mk.injEq] at htwo
    have hxfers : s'.xfers = 1 := htwo.2
    have hcount : r.1 = 2 := htwo.1
    have herror := hreported (.inr ⟨0, Nat.le_refl 0, by omega, by decide⟩)
    rw [hcount] at herror
    exact absurd herror (by decide)
  · rintro ⟨r, s', hrun, -⟩
    have hnone : (Call.read 2 (by decide)).run (Xbd.blkDev false (bdOf OK)).dev rawFd twoBufs =
        none := rfl
    rw [hnone] at hrun
    cases hrun

end Vmx.FsBuf
