import Vmx.Fs.Rt11Dir
import Vmx.Fs.Rt11Write
import Vmx.Fs.Vnode

/-!
# The extents of an RT-11 volume

A call of the vnode operators does nothing to the directory, makes an empty entry tentative,
or makes a tentative entry permanent and gives the rest of its blocks back: `DirStep`.  Such a
step keeps the sum of the blocks and every permanent file where it is.

A close is such a step when the blocks of the new file, at least one, fit into its entry.
-/

namespace Vmx.Rt11

open Lib Vfs

variable {l l' : List DirEntry} {start : Int}

/-! ## Directories -/

/-- The entries, each with its start block. -/
def placed (start : Int) : List DirEntry → List (Int × DirEntry)
  | [] => []
  | e :: l => (start, e) :: placed (start + e.blocks) l

/-- The permanent files, each with its start block. -/
def permanents (start : Int) (l : List DirEntry) : List (Int × DirEntry) :=
  (placed start l).filter fun x => x.2.de_status = DES_PERMANENT

theorem placed_append (start : Int) (l l' : List DirEntry) :
    placed start (l ++ l') = placed start l ++ placed (start + sumBlocks l) l' := by
  induction l generalizing start with
  | nil => simp [placed]
  | cons e l ih =>
    rw [List.cons_append, placed, placed, ih, sumBlocks_cons, List.cons_append]
    push_cast
    rw [Int.add_assoc]

theorem le_of_mem_placed {x : Int × DirEntry} (hx : x ∈ placed start l) : start ≤ x.1 := by
  induction l generalizing start with
  | nil => cases hx
  | cons e l ih =>
    obtain rfl | hx := List.mem_cons.1 hx
    · exact Int.le_refl _
    · have hle := ih hx
      omega

/-- The extents are disjoint. -/
theorem placed_disjoint (start : Int) (l : List DirEntry) :
    (placed start l).Pairwise fun x y => x.1 + (x.2.blocks : Int) ≤ y.1 := by
  induction l generalizing start with
  | nil => exact List.Pairwise.nil
  | cons e l ih => exact List.Pairwise.cons (fun y hy => le_of_mem_placed hy) (ih _)

theorem permanents_append (start : Int) (l l' : List DirEntry) :
    permanents start (l ++ l') =
      permanents start l ++ permanents (start + sumBlocks l) l' := by
  rw [permanents, placed_append, List.filter_append]
  rfl

theorem permanents_cons (start : Int) (e : DirEntry) (l : List DirEntry) :
    permanents start (e :: l) =
      (if e.de_status = DES_PERMANENT then [(start, e)] else []) ++
        permanents (start + e.blocks) l := by
  unfold permanents
  rw [placed]
  by_cases he : e.de_status = DES_PERMANENT
  · simp [he]
  · simp [he]

theorem permanents_empty (start : Int) (h : ∀ e ∈ l, e.de_status = DES_EMPTY) :
    permanents start l = [] := by
  induction l generalizing start with
  | nil => rfl
  | cons e l ih =>
    have hne : e.de_status ≠ DES_PERMANENT := by
      rw [h e List.mem_cons_self]
      decide
    rw [permanents_cons, if_neg hne, ih _ fun f hf => h f (List.mem_cons_of_mem _ hf)]
    rfl

/-- What a call does to the directory. -/
inductive DirStep : List DirEntry → List DirEntry → Prop where
  | same (l : List DirEntry) : DirStep l l
  /-- An empty entry becomes tentative. -/
  | create {e f : DirEntry} (pre post : List DirEntry) (he : e.de_status = DES_EMPTY)
      (hf : f.de_status = DES_TENTATIVE) (hblocks : f.blocks = e.blocks) :
      DirStep (pre ++ e :: post) (pre ++ f :: post)
  /-- A tentative entry becomes permanent, and the empty entries `X` behind it become `E`. -/
  | close {e p : DirEntry} {X E : List DirEntry} (pre post : List DirEntry) (he : e.de_status = DES_TENTATIVE)
      (hp : p.de_status = DES_PERMANENT) (hname : p.de_name = e.de_name)
      (hX : ∀ f ∈ X, f.de_status = DES_EMPTY) (hE : ∀ f ∈ E, f.de_status = DES_EMPTY)
      (hsum : p.blocks + sumBlocks E = e.blocks + sumBlocks X) :
      DirStep (pre ++ e :: (X ++ post)) (pre ++ p :: (E ++ post))

/-- A step keeps the blocks. -/
theorem DirStep.sum_eq (h : DirStep l l') : sumBlocks l' = sumBlocks l := by
  cases h with
  | same => rfl
  | create pre post he hf hblocks => simp [hblocks]
  | close pre post he hp hname hX hE hsum =>
    simp only [sumBlocks_append, sumBlocks_cons]
    omega

/-- A step keeps every permanent file where it is. -/
theorem DirStep.permanents_sublist (h : DirStep l l') (start : Int) :
    (permanents start l).Sublist (permanents start l') := by
  have hempty : DES_EMPTY ≠ DES_PERMANENT := by decide
  have htent : DES_TENTATIVE ≠ DES_PERMANENT := by decide
  cases h with
  | same => exact List.Sublist.refl _
  | create pre post he hf hblocks =>
    rw [permanents_append, permanents_append, permanents_cons, permanents_cons, hblocks, he, hf,
      if_neg hempty, if_neg htent]
  | @close e p X E pre post he hp hname hX hE hsum =>
    have hrest : start + sumBlocks pre + p.blocks + sumBlocks E =
        start + sumBlocks pre + e.blocks + sumBlocks X := by omega
    rw [permanents_append, permanents_append, permanents_cons, permanents_cons, permanents_append,
      permanents_append, permanents_empty _ hX, permanents_empty _ hE, hrest, he, if_neg htent]
    exact List.Sublist.append_left (List.Sublist.append_right (List.nil_sublist _) _) _

/-! ## Vnodes -/

variable {s s' : Vol} {m m' : Mount} {handles : List Handle} {h : Handle}

/-- How many references to a vnode there are. -/
def refs (handles : List Handle) (n : Nat) : Nat := (handles.map Handle.vnode).count n

/-- The vnodes of a volume and the references to them. -/
structure MountInv (m : Mount) (handles : List Handle) : Prop where
  good : Good m
  ops : ∀ n, (m.vnode n).v_inode ≠ 0 →
    (m.vnode n).v_ops = some .rt11Vops ∨ (m.vnode n).v_ops = some .rt11VopsDir
  counts : ∀ n, (m.vnode n).v_count = refs handles n
  files : ∀ h ∈ handles, h.vnode ∈ m.files
  inodes : ∀ h ∈ handles, (m.vnode h.vnode).v_inode ≠ 0

theorem refs_pos (hh : h ∈ handles) : 0 < refs handles h.vnode :=
  List.count_pos_iff.2 (List.mem_map_of_mem hh)

theorem refs_cons (h : Handle) (handles : List Handle) (n : Nat) :
    refs (h :: handles) n = refs handles n + if h.vnode = n then 1 else 0 := by
  unfold refs
  rw [List.map_cons, List.count_cons]
  simp only [beq_iff_eq]

theorem refs_erase (hh : h ∈ handles) (n : Nat) :
    refs handles n = refs (handles.erase h) n + if h.vnode = n then 1 else 0 := by
  rw [← refs_cons]
  exact ((List.perm_cons_erase hh).map Handle.vnode).count_eq n

theorem vopActivate_rt11 {malloc : Bool} {w : Vnode}
    (h : (vopActivate (rt11Env malloc) .rt11Vops w).1 = OK) :
    (vopActivate (rt11Env malloc) .rt11Vops w).2.v_ops = some .rt11Vops ∨
      (vopActivate (rt11Env malloc) .rt11Vops w).2.v_ops = some .rt11VopsDir := by
  by_cases hroot : w.v_inode = RT11FS_ROOT_INODE
  · cases malloc <;> simp_all [vopActivate, rt11Env, rt11VopActivate, rt11fsInodeGet, OK, ENOMEM]
  · cases malloc <;> simp_all [vopActivate, rt11Env, rt11VopActivate, rt11fsInodeGet, OK, ENOMEM]

/-- A call of `vgetino` keeps the vnodes that are in use, and hands one of the inode out. -/
theorem vget_spec (hm : MountInv s.mount s.handles) {malloc : Bool} {inode : Nat} {error : Int}
    {r : Option Nat} (hinode : inode ≠ 0) (hr : rt11VfsVget malloc s inode = some (s', error, r)) :
    ∃ m', s' = { s with mount := m' } ∧
      (∀ h ∈ s.handles, (m'.vnode h.vnode).v_inode = (s.mount.vnode h.vnode).v_inode) ∧
      (error ≠ OK ∧ r = none ∧ MountInv m' s.handles ∨
        error = OK ∧ ∃ n, r = some n ∧ (m'.vnode n).v_inode = inode ∧
          ∀ file, MountInv m' ({ vnode := n, file := file } :: s.handles)) := by
  obtain ⟨⟨m', error', r'⟩, hget, heq⟩ := Option.map_eq_some_iff.1 hr
  obtain ⟨rfl, hpair⟩ := Prod.mk.inj heq
  obtain ⟨rfl, rfl⟩ := Prod.mk.inj hpair
  obtain ⟨hgood, hmax, hcase⟩ := vgetino_frame hm.good (Nat.le_succ _) hget
  have hfiles : m'.files = s.mount.files := by
    unfold Mount.files
    rw [hmax]
  refine ⟨m', rfl, ?_⟩
  obtain ⟨herror, rfl, hvnode⟩ | ⟨herror, rfl, n, hn, vp, hzero, hvnode, hcount, hi⟩ |
    ⟨rfl, n, hn, rfl, vp, hvnode, hcount, hi, hops⟩ := hcase
  · -- no vnode is written
    refine ⟨fun h _ => by rw [hvnode], .inl ⟨herror, rfl, hgood, ?_, ?_, ?_, ?_⟩⟩
    · rw [hvnode]
      exact hm.ops
    · rw [hvnode]
      exact hm.counts
    · rw [hfiles]
      exact hm.files
    · rw [hvnode]
      exact hm.inodes
  · -- a vnode that is not used loses its inode
    have hunused : ∀ h ∈ s.handles, h.vnode ≠ n := by
      intro h hh heq
      have hpos := refs_pos hh
      have hc := hm.counts n
      rw [heq] at hpos
      omega
    have hkeep : ∀ h ∈ s.handles,
        (m'.vnode h.vnode).v_inode = (s.mount.vnode h.vnode).v_inode := by
      intro h hh
      rw [hvnode, Function.update_of_ne (hunused h hh)]
    refine ⟨hkeep, .inl ⟨herror, rfl, hgood, fun k hk => ?_, fun k => ?_, ?_, fun h hh => ?_⟩⟩
    · rw [hvnode] at hk ⊢
      by_cases hkn : k = n
      · subst hkn
        rw [Function.update_self] at hk
        exact absurd hi hk
      · rw [Function.update_of_ne hkn] at hk ⊢
        exact hm.ops k hk
    · rw [hvnode]
      by_cases hkn : k = n
      · subst hkn
        rw [Function.update_self, hcount, ← hm.counts k, hzero]
      · rw [Function.update_of_ne hkn]
        exact hm.counts k
    · rw [hfiles]
      exact hm.files
    · rw [hkeep h hh]
      exact hm.inodes h hh
  · -- a vnode is handed out
    have hkeep : ∀ h ∈ s.handles,
        (m'.vnode h.vnode).v_inode = (s.mount.vnode h.vnode).v_inode := by
      intro h hh
      rw [hvnode]
      by_cases hkn : h.vnode = n
      · subst hkn
        rw [Function.update_self, hi]
        have hpos := refs_pos hh
        have hc := hm.counts h.vnode
        obtain ⟨hsame, _⟩ | ⟨hzero, _⟩ := hops
        · exact hsame.symm
        · omega
      · rw [Function.update_of_ne hkn]
    have hnew : (m'.vnode n).v_inode = inode := by
      rw [hvnode, Function.update_self, hi]
    refine ⟨hkeep, .inr ⟨rfl, n, rfl, hnew, fun file => ⟨hgood, fun k hk => ?_, fun k => ?_, ?_,
      List.forall_mem_cons.2 ⟨hnew.trans_ne hinode, fun h hh => ?_⟩⟩⟩⟩
    · rw [hvnode] at hk ⊢
      by_cases hkn : k = n
      · subst hkn
        rw [Function.update_self]
        obtain ⟨hsame, hold⟩ | ⟨_, w, hok, hnew⟩ := hops
        · rw [hold]
          exact hm.ops k (hsame ▸ hinode)
        · rw [hnew]
          exact vopActivate_rt11 hok
      · rw [Function.update_of_ne hkn] at hk ⊢
        exact hm.ops k hk
    · have hc := hm.counts k
      rw [hvnode, refs_cons]
      by_cases hkn : k = n
      · subst hkn
        rw [Function.update_self, hcount, hc, if_pos rfl]
        rfl
      · rw [Function.update_of_ne hkn, hc, if_neg (fun heq => hkn heq.symm)]
        rfl
    · rw [hfiles]
      exact List.forall_mem_cons.2 ⟨hn, hm.files⟩
    · rw [hkeep h hh]
      exact hm.inodes h hh

/-- A reference is given back; the inodes stay. -/
theorem giveBack_spec (hm : MountInv s.mount s.handles) (hh : h ∈ s.handles)
    (hr : giveBack s h = some s') :
    ∃ m', s' = { s with mount := m', handles := s.handles.erase h } ∧
      (∀ n, (m'.vnode n).v_inode = (s.mount.vnode n).v_inode) ∧
      MountInv m' (s.handles.erase h) := by
  obtain ⟨⟨m', error⟩, hunlock, rfl⟩ := Option.map_eq_some_iff.1 hr
  have hpos := refs_pos hh
  have hc := hm.counts h.vnode
  have hfile := hm.files h hh
  unfold Mount.files at hfile
  rw [List.mem_range'_1] at hfile
  obtain ⟨used, free, ht⟩ := hm.good
  have hsyncer := ht.syncer
  -- the operators of RT-11 let every vnode go
  have hsound : Vfs.Sound s.mount (.vnodeUnlock (rt11Env true) h.vnode) := by
    intro _ v_ops hv
    refine iff_of_true ?_ ?_
    · obtain hv' | hv' := hm.ops h.vnode (hm.inodes h hh)
      · obtain rfl := Option.some.inj (hv.symm.trans hv')
        rfl
      · obtain rfl := Option.some.inj (hv.symm.trans hv')
        rfl
    · rw [ht.syncer]
      omega
  have hgood := good_vnodeUnlock hm.good (by omega) (by omega) hsound hunlock
  have hvnode : m'.mnt_maxfiles = s.mount.mnt_maxfiles ∧
      m'.vnode = Function.update s.mount.vnode h.vnode
        { s.mount.vnode h.vnode with v_count := (s.mount.vnode h.vnode).v_count - 1 } := by
    obtain ⟨_, rfl⟩ | ⟨hone, _, _, ⟨_, rfl⟩ | ⟨_, rfl⟩⟩ := vnodeUnlock_cases hunlock
    · exact ⟨rfl, rfl⟩
    · rw [hone]
      exact ⟨rfl, rfl⟩
    · rw [hone]
      exact ⟨rfl, rfl⟩
  obtain ⟨hmax, hvnode⟩ := hvnode
  have hinode : ∀ n, (m'.vnode n).v_inode = (s.mount.vnode n).v_inode := by
    intro n
    rw [hvnode]
    by_cases hn : n = h.vnode
    · subst hn
      rw [Function.update_self]
    · rw [Function.update_of_ne hn]
  refine ⟨m', rfl, hinode, hgood, fun n hn => ?_, fun n => ?_, fun k hk => ?_, fun k hk => ?_⟩
  · rw [hinode] at hn
    rw [hvnode]
    by_cases hnh : n = h.vnode
    · subst hnh
      rw [Function.update_self]
      exact hm.ops _ hn
    · rw [Function.update_of_ne hnh]
      exact hm.ops n hn
  · have hcn := hm.counts n
    rw [refs_erase hh] at hcn
    rw [hvnode]
    by_cases hnh : n = h.vnode
    · subst hnh
      rw [if_pos rfl] at hcn
      rw [Function.update_self]
      dsimp only
      omega
    · rw [if_neg fun heq => hnh heq.symm] at hcn
      rw [Function.update_of_ne hnh]
      exact hcn
  · unfold Mount.files
    rw [hmax]
    exact hm.files k (List.mem_of_mem_erase hk)
  · rw [hinode]
    exact hm.inodes k (List.mem_of_mem_erase hk)

/-! ## Closing a new file -/

/-- The blocks of a file that is closed. -/
def fileBlocks (d : FileDesc) : Nat := if d.rfd_nBlks < 1 then 1 else d.rfd_nBlks

/-- The entry of a new file that is closed. -/
def closedEntry (d : FileDesc) : DirEntry :=
  { d.rfd_dirEntry with
    de_status := DES_PERMANENT, de_nblocks := UInt16.ofNat (fileBlocks d) }

/-- The entry for the blocks that are left. -/
def restEntry (d : FileDesc) : DirEntry :=
  { d.rfd_dirEntry with
    de_status := DES_EMPTY
    de_nblocks := UInt16.ofInt ((d.rfd_dirEntry.blocks : Int) - fileBlocks d) }

/-- The entries behind a new file that is closed. -/
def closedRest (d : FileDesc) (post : List DirEntry) : List DirEntry :=
  if (d.rfd_dirEntry.blocks : Int) - fileBlocks d ≠ 0 then mergeList false (restEntry d) post
  else post

theorem closedEntry_blocks {d : FileDesc} (h : fileBlocks d ≤ d.rfd_dirEntry.blocks) :
    (closedEntry d).blocks = fileBlocks d := by
  have hlt : d.rfd_dirEntry.blocks < 65536 := d.rfd_dirEntry.de_nblocks.toNat_lt
  unfold closedEntry DirEntry.blocks
  dsimp only
  rw [UInt16.toNat_ofNat']
  exact Nat.mod_eq_of_lt (by omega)

theorem restEntry_blocks {d : FileDesc} (h : fileBlocks d ≤ d.rfd_dirEntry.blocks) :
    (restEntry d).blocks = d.rfd_dirEntry.blocks - fileBlocks d := by
  have hlt : d.rfd_dirEntry.blocks < 65536 := d.rfd_dirEntry.de_nblocks.toNat_lt
  obtain ⟨k, hk⟩ : ∃ k : Nat, k = d.rfd_dirEntry.blocks - fileBlocks d := ⟨_, rfl⟩
  have hint : (d.rfd_dirEntry.blocks : Int) - fileBlocks d = k := by omega
  rw [← hk]
  unfold restEntry
  rw [hint]
  unfold DirEntry.blocks UInt16.ofInt
  dsimp only
  rw [UInt16.toNat_ofNat']
  omega

/-- The first close of a new file ends, and changes only the entries from its own one on. -/
theorem close_tentative {pre post : List DirEntry} {v : Nat} {e : DirEntry}
    (hdir : DirAt s.vd_pDirSeg.ds_entries 0 (pre ++ e :: post))
    (hlen : (pre ++ e :: post).length < s.vd_maxEntries)
    (htent : (s.desc v).rfd_dirEntry.de_status = DES_TENTATIVE)
    (hv : (s.mount.vnode v).v_inode = pre.length + RT11FS_FILE_INODE_BASE) :
    ∃ seg d, rt11VopClose s v =
        some { s with vd_pDirSeg := seg, desc := Function.update s.desc v d } ∧
      seg.ds_start = s.vd_pDirSeg.ds_start ∧ d.rfd_dirEntry.de_status ≠ DES_TENTATIVE ∧
      d.rfd_startBlock = (s.desc v).rfd_startBlock ∧
      DirAt seg.ds_entries 0
        (pre ++ closedEntry (s.desc v) :: closedRest (s.desc v) post) := by
  have hperm : (closedEntry (s.desc v)).de_status ≠ DES_END := by
    show DES_PERMANENT ≠ DES_END
    decide
  have hpost := hdir.drop.2.2
  rw [Nat.zero_add] at hpost
  -- the entry is permanent
  obtain ⟨seg₁, hseg₁⟩ : ∃ seg₁, seg₁ =
    rt11fsPutDirEntry s.vd_pDirSeg pre.length (closedEntry (s.desc v)) := ⟨_, rfl⟩
  have hself : seg₁.ds_entries pre.length = closedEntry (s.desc v) := by
    rw [hseg₁]
    exact put_self ..
  have hother : ∀ j, j ≠ pre.length → seg₁.ds_entries j = s.vd_pDirSeg.ds_entries j := by
    intro j hj
    rw [hseg₁]
    exact put_of_ne _ _ hj
  have hpost₁ : DirAt seg₁.ds_entries (pre.length + 1) post :=
    hpost.congr fun j hj => hother j (by omega)
  have hlens : post.length ≤ s.vd_maxEntries + 1 := by
    rw [List.length_append, List.length_cons] at hlen
    omega
  have hsub : pre.length + RT11FS_FILE_INODE_BASE - RT11FS_FILE_INODE_BASE = pre.length :=
    Nat.add_sub_cancel ..
  by_cases hleft : ((s.desc v).rfd_dirEntry.blocks : Int) - fileBlocks (s.desc v) ≠ 0
  · -- the blocks that are left are inserted and merged
    have hrest : (restEntry (s.desc v)).de_status ≠ DES_END := by
      show DES_EMPTY ≠ DES_END
      decide
    obtain ⟨seg₂, hinsert, hstart₂, hdir₂, hsame₂⟩ := dirAt_insert hpost₁ hrest hlens
    have hbefore : pre.length + 1 = 0 ∨
        (seg₂.ds_entries (pre.length + 1 - 1)).de_status ≠ DES_EMPTY := by
      rw [Nat.add_sub_cancel, hsame₂ pre.length (Nat.lt_succ_self _), hself]
      right
      show DES_PERMANENT ≠ DES_EMPTY
      decide
    obtain ⟨seg₃, hmerge, hstart₃, hdir₃, hsame₃⟩ := dirAt_merge hdir₂ rfl hbefore hlens
    refine ⟨seg₃, { s.desc v with
      rfd_nBlks := fileBlocks (s.desc v), rfd_dirEntry := restEntry (s.desc v) }, ?_, ?_, ?_, rfl,
      ?_⟩
    · unfold rt11VopClose
      rw [hv, hsub]
      dsimp only
      rw [if_pos htent]
      rw [if_pos (show ((s.desc v).rfd_dirEntry.blocks : Int) -
        (if (s.desc v).rfd_nBlks < 1 then 1 else (s.desc v).rfd_nBlks : Nat) ≠ 0 from hleft)]
      show (rt11fsInsertDirEntry _ (rt11fsPutDirEntry s.vd_pDirSeg pre.length
        (closedEntry (s.desc v))) _ (restEntry (s.desc v))).bind _ = _
      rw [← hseg₁, hinsert, Option.bind_some, hmerge]
      rfl
    · rw [hstart₃, hstart₂, hseg₁]
      rfl
    · show DES_EMPTY ≠ DES_TENTATIVE
      decide
    · rw [closedRest, if_pos hleft]
      refine hdir.replace (fun j hj => ?_) ⟨?_, hperm, ?_⟩
      · rw [Nat.zero_add] at hj
        rw [hsame₃ j (by omega), hsame₂ j (by omega), hother j (by omega)]
      · rw [Nat.zero_add, hsame₃ _ (Nat.lt_succ_self _), hsame₂ _ (Nat.lt_succ_self _), hself]
      · rw [Nat.zero_add]
        exact hdir₃
  · refine ⟨seg₁, { s.desc v with
      rfd_nBlks := fileBlocks (s.desc v), rfd_dirEntry := closedEntry (s.desc v) }, ?_, ?_, ?_, rfl,
      ?_⟩
    · unfold rt11VopClose
      rw [hv, hsub]
      dsimp only
      rw [if_pos htent]
      rw [if_neg (show ¬ ((s.desc v).rfd_dirEntry.blocks : Int) -
        (if (s.desc v).rfd_nBlks < 1 then 1 else (s.desc v).rfd_nBlks : Nat) ≠ 0 from hleft)]
      rw [hseg₁]
      rfl
    · rw [hseg₁]
      rfl
    · show DES_PERMANENT ≠ DES_TENTATIVE
      decide
    · rw [closedRest, if_neg hleft]
      refine hdir.replace (fun j hj => ?_) ⟨?_, hperm, ?_⟩
      · rw [Nat.zero_add] at hj
        exact hother j (by omega)
      · rw [Nat.zero_add, hself]
      · rw [Nat.zero_add]
        exact hpost₁

/-! ## What the operators do -/

/-- A lookup fails and changes no file, or hands the vnode of a permanent file out. -/
theorem lookup_cases (hdir : DirAt s.vd_pDirSeg.ds_entries 0 l) (hlen : l.length < s.vd_maxEntries)
    (hm : MountInv s.mount s.handles) {malloc : Bool} {name : Name} {error : Int} {r : Option Nat}
    (hr : rt11VopLookup malloc s name = some (s', error, r)) :
    ∃ m', (∀ h ∈ s.handles, (m'.vnode h.vnode).v_inode = (s.mount.vnode h.vnode).v_inode) ∧
      (error ≠ OK ∧ r = none ∧ s' = { s with mount := m' } ∧ MountInv m' s.handles ∨
      error = OK ∧ ∃ n pre e post, r = some n ∧ l = pre ++ e :: post ∧
        e.de_status = DES_PERMANENT ∧ e.de_name = name ∧
        (m'.vnode n).v_inode = pre.length + RT11FS_FILE_INODE_BASE ∧
        s' = { s with
          mount := m'
          desc := Function.update s.desc n
            { rfd_startBlock := s.vd_pDirSeg.ds_start + sumBlocks pre, rfd_nBlks := e.blocks
              rfd_dirEntry := e } } ∧
        ∀ file, MountInv m' ({ vnode := n, file := file } :: s.handles)) := by
  have hnoent : ENOENT ≠ OK := by decide
  have hinval : EINVAL ≠ OK := by decide
  obtain ⟨found, hfound, hspec⟩ := findDirLoop_spec hdir (Nat.lt_succ_of_lt hlen)
  have hfind : rt11fsFindDirEntry (s.vd_maxEntries + 1) s.vd_pDirSeg name = some found := hfound
  unfold rt11VopLookup at hr
  rw [hfind] at hr
  cases found with
  | none =>
    obtain ⟨rfl, hpair⟩ := Prod.mk.inj (Option.some.inj hr)
    obtain ⟨rfl, rfl⟩ := Prod.mk.inj hpair
    exact ⟨s.mount, fun _ _ => rfl, .inl ⟨hnoent, rfl, rfl, hm⟩⟩
  | some x =>
    obtain ⟨k, e, st⟩ := x
    obtain ⟨pre, post, rfl, hk, rfl, rfl, hstatus⟩ := hspec k e st rfl
    rw [Nat.zero_add] at hk
    subst hk
    dsimp only at hr
    split at hr
    next =>
      obtain ⟨rfl, hpair⟩ := Prod.mk.inj (Option.some.inj hr)
      obtain ⟨rfl, rfl⟩ := Prod.mk.inj hpair
      exact ⟨s.mount, fun _ _ => rfl, .inl ⟨hinval, rfl, rfl, hm⟩⟩
    next htent =>
      have hperm := hstatus.resolve_right htent
      obtain ⟨⟨s₁, error₁, r₁⟩, hget, hr⟩ := Option.bind_eq_some_iff.1 hr
      have hne : pre.length + RT11FS_FILE_INODE_BASE ≠ 0 := Nat.succ_ne_zero _
      obtain ⟨m', rfl, hkeep, ⟨herror, rfl, hm'⟩ | ⟨rfl, n, rfl, hn, hm'⟩⟩ :=
        vget_spec hm hne hget
      · rw [if_pos herror] at hr
        obtain ⟨rfl, hpair⟩ := Prod.mk.inj (Option.some.inj hr)
        obtain ⟨rfl, rfl⟩ := Prod.mk.inj hpair
        exact ⟨m', hkeep, .inl ⟨hnoent, rfl, rfl, hm'⟩⟩
      · rw [if_neg (not_not.2 rfl)] at hr
        obtain ⟨rfl, hpair⟩ := Prod.mk.inj (Option.some.inj hr)
        obtain ⟨rfl, rfl⟩ := Prod.mk.inj hpair
        exact ⟨m', hkeep, .inr ⟨rfl, n, pre, e, post, rfl, rfl, hperm, rfl, hn, rfl, hm'⟩⟩

/-- A creation fails and changes no file and no entry, or makes an empty entry tentative. -/
theorem create_cases (hdir : DirAt s.vd_pDirSeg.ds_entries 0 l) (hlen : l.length < s.vd_maxEntries)
    (hm : MountInv s.mount s.handles) {malloc : Bool} {name : Name} {currDate : Nat} {error : Int}
    {r : Option Nat} (hr : rt11VopCreate malloc s name currDate = some (s', error, r)) :
    ∃ m', (∀ h ∈ s.handles, (m'.vnode h.vnode).v_inode = (s.mount.vnode h.vnode).v_inode) ∧
      (error ≠ OK ∧ r = none ∧ s' = { s with mount := m' } ∧ MountInv m' s.handles ∨
      error = OK ∧ ∃ n pre e post f, r = some n ∧ l = pre ++ e :: post ∧
        e.de_status = DES_EMPTY ∧ (∀ f ∈ l, f.de_status ≠ DES_TENTATIVE) ∧
        l.length + 1 < s.vd_maxEntries ∧
        f = { e with de_status := DES_TENTATIVE, de_date := currDate, de_name := name } ∧
        (m'.vnode n).v_inode = pre.length + RT11FS_FILE_INODE_BASE ∧
        s' = { s with
          mount := m'
          vd_pDirSeg := rt11fsPutDirEntry s.vd_pDirSeg pre.length f
          desc := Function.update s.desc n
            { rfd_startBlock := s.vd_pDirSeg.ds_start + sumBlocks pre, rfd_nBlks := 0
              rfd_dirEntry := f } } ∧
        ∀ file, MountInv m' ({ vnode := n, file := file } :: s.handles)) := by
  have hnoent : ENOENT ≠ OK := by decide
  unfold rt11VopCreate at hr
  cases halloc : rt11fsAllocNewDirEntry s.vd_pDirSeg s.vd_maxEntries currDate name with
  | none =>
    rw [halloc] at hr
    obtain ⟨rfl, hpair⟩ := Prod.mk.inj (Option.some.inj hr)
    obtain ⟨rfl, rfl⟩ := Prod.mk.inj hpair
    exact ⟨s.mount, fun _ _ => rfl, .inl ⟨hnoent, rfl, rfl, hm⟩⟩
  | some x =>
    obtain ⟨k, f, st⟩ := x
    obtain ⟨hroom, hnone, pre, e, post, rfl, he, rfl, hf, rfl⟩ := alloc_spec hdir hlen halloc
    rw [halloc] at hr
    obtain ⟨⟨s₁, error₁, r₁⟩, hget, hr⟩ := Option.bind_eq_some_iff.1 hr
    have hne : pre.length + RT11FS_FILE_INODE_BASE ≠ 0 := Nat.succ_ne_zero _
    obtain ⟨m', rfl, hkeep, ⟨herror, rfl, hm'⟩ | ⟨rfl, n, rfl, hn, hm'⟩⟩ := vget_spec hm hne hget
    · rw [if_pos herror] at hr
      obtain ⟨rfl, hpair⟩ := Prod.mk.inj (Option.some.inj hr)
      obtain ⟨rfl, rfl⟩ := Prod.mk.inj hpair
      exact ⟨m', hkeep, .inl ⟨hnoent, rfl, rfl, hm'⟩⟩
    · rw [if_neg (not_not.2 rfl)] at hr
      obtain ⟨rfl, hpair⟩ := Prod.mk.inj (Option.some.inj hr)
      obtain ⟨rfl, rfl⟩ := Prod.mk.inj hpair
      exact ⟨m', hkeep, .inr ⟨rfl, n, pre, e, post, f, rfl, rfl, he, hnone, hroom, hf, hn, rfl,
        hm'⟩⟩

/-- A write changes the blocks of the file. -/
theorem write_cases {v uio_offset uio_resid : Nat} {io : Nat → Bool × Bool} {error : Int}
    (hr : rt11VopWrite s v uio_offset uio_resid io = some (s', error)) :
    ∃ n, s' = { s with desc := Function.update s.desc v { s.desc v with rfd_nBlks := n } } := by
  unfold rt11VopWrite at hr
  split at hr
  next =>
    cases hr
    refine ⟨(s.desc v).rfd_nBlks, ?_⟩
    have hself : ({ s.desc v with rfd_nBlks := (s.desc v).rfd_nBlks } : FileDesc) = s.desc v := rfl
    rw [hself, Function.update_eq_self]
  next =>
    obtain ⟨r, _, heq⟩ := Option.map_eq_some_iff.1 hr
    obtain ⟨rfl, _⟩ := Prod.mk.inj heq
    exact ⟨r.2, rfl⟩

/-! ## Runs -/

/-- The blocks of a new file that is closed fit into its entry. -/
def Sound (s : Vol) : Op → Prop
  | .close h => (s.desc h.vnode).rfd_dirEntry.de_status = DES_TENTATIVE →
    fileBlocks (s.desc h.vnode) ≤ (s.desc h.vnode).rfd_dirEntry.blocks
  | _ => True

instance (s : Vol) : ∀ op, Decidable (Sound s op)
  | .close h => inferInstanceAs (Decidable
      ((s.desc h.vnode).rfd_dirEntry.de_status = DES_TENTATIVE →
        fileBlocks (s.desc h.vnode) ≤ (s.desc h.vnode).rfd_dirEntry.blocks))
  | .root _ => inferInstanceAs (Decidable True)
  | .lookup _ _ => inferInstanceAs (Decidable True)
  | .create _ _ _ => inferInstanceAs (Decidable True)
  | .write _ _ _ _ => inferInstanceAs (Decidable True)
  | .unlock _ => inferInstanceAs (Decidable True)
  | .remove => inferInstanceAs (Decidable True)

/-- The entries of the directory, and the one of the new file if there is one. -/
structure VolInv (s : Vol) (l : List DirEntry) : Prop where
  dir : DirAt s.vd_pDirSeg.ds_entries 0 l
  len : l.length < s.vd_maxEntries
  mount : MountInv s.mount s.handles
  base : ∀ h ∈ s.handles, h.file ≠ none →
    RT11FS_FILE_INODE_BASE ≤ (s.mount.vnode h.vnode).v_inode
  tent : ∀ h ∈ s.handles, h.file ≠ none →
    (s.desc h.vnode).rfd_dirEntry.de_status = DES_TENTATIVE →
    ∃ pre post, l = pre ++ (s.desc h.vnode).rfd_dirEntry :: post ∧
      (s.mount.vnode h.vnode).v_inode = pre.length + RT11FS_FILE_INODE_BASE ∧
      (∀ f ∈ pre ++ post, f.de_status ≠ DES_TENTATIVE) ∧ l.length + 1 < s.vd_maxEntries

/-- The vnodes change, and no file is handed out. -/
theorem VolInv.of_mount (hinv : VolInv s l)
    (hkeep : ∀ h ∈ s.handles, (m'.vnode h.vnode).v_inode = (s.mount.vnode h.vnode).v_inode)
    (hhandles : ∀ h ∈ handles, h.file ≠ none → h ∈ s.handles) (hm : MountInv m' handles) :
    VolInv { s with mount := m', handles := handles } l where
  dir := hinv.dir
  len := hinv.len
  mount := hm
  base h hh hfile := by
    rw [hkeep h (hhandles h hh hfile)]
    exact hinv.base h (hhandles h hh hfile) hfile
  tent h hh hfile htent := by
    rw [hkeep h (hhandles h hh hfile)]
    exact hinv.tent h (hhandles h hh hfile) hfile htent

/-- The descriptor of a vnode changes, but not its entry. -/
theorem VolInv.of_desc {v : Nat} {d : FileDesc} (hinv : VolInv s l)
    (hd : d.rfd_dirEntry = (s.desc v).rfd_dirEntry) :
    VolInv { s with desc := Function.update s.desc v d } l where
  dir := hinv.dir
  len := hinv.len
  mount := hinv.mount
  base := hinv.base
  tent h hh hfile := by
    have hsame : (Function.update s.desc v d h.vnode).rfd_dirEntry =
        (s.desc h.vnode).rfd_dirEntry := by
      by_cases hv : h.vnode = v
      · rw [hv, Function.update_self, hd]
      · rw [Function.update_of_ne hv]
    dsimp only
    rw [hsame]
    exact hinv.tent h hh hfile

theorem VolInv.lookup {malloc : Bool} {name : Name} (hinv : VolInv s l)
    (hs : step s (.lookup malloc name) = some s') :
    VolInv s' l ∧ s'.vd_pDirSeg = s.vd_pDirSeg ∧ s'.vd_maxEntries = s.vd_maxEntries := by
  obtain ⟨⟨s₁, error, r⟩, hr, rfl⟩ := Option.map_eq_some_iff.1 hs
  obtain ⟨m', hkeep, ⟨_, rfl, rfl, hm⟩ |
    ⟨_, n, pre, e, post, rfl, rfl, he, hname, hn, rfl, hm⟩⟩ :=
    lookup_cases hinv.dir hinv.len hinv.mount hr
  · exact ⟨hinv.of_mount hkeep (fun _ hh _ => hh) hm, rfl, rfl⟩
  · refine ⟨⟨hinv.dir, hinv.len, hm _, ?_, ?_⟩, rfl, rfl⟩
    · refine List.forall_mem_cons.2 ⟨fun _ => ?_, fun h hh hfile => ?_⟩
      · show RT11FS_FILE_INODE_BASE ≤ (m'.vnode n).v_inode
        omega
      · show RT11FS_FILE_INODE_BASE ≤ (m'.vnode h.vnode).v_inode
        rw [hkeep h hh]
        exact hinv.base h hh hfile
    · -- the descriptor of the vnode that is handed out is of a permanent file
      intro h hh hfile htent
      dsimp only [handOut] at htent ⊢
      by_cases hv : h.vnode = n
      · rw [hv, Function.update_self, he] at htent
        exact absurd htent (by decide)
      · have hold : h ∈ s.handles := by
          obtain rfl | hold := List.mem_cons.1 hh
          · exact absurd rfl hv
          · exact hold
        rw [Function.update_of_ne hv] at htent ⊢
        rw [hkeep h hold]
        exact hinv.tent h hold hfile htent

theorem VolInv.create {malloc : Bool} {name : Name} {currDate : Nat} (hinv : VolInv s l)
    (hs : step s (.create malloc name currDate) = some s') :
    ∃ l', VolInv s' l' ∧ DirStep l l' ∧ s'.vd_pDirSeg.ds_start = s.vd_pDirSeg.ds_start ∧
      s'.vd_maxEntries = s.vd_maxEntries := by
  obtain ⟨⟨s₁, error, r⟩, hr, rfl⟩ := Option.map_eq_some_iff.1 hs
  obtain ⟨m', hkeep, ⟨_, rfl, rfl, hm⟩ |
    ⟨_, n, pre, e, post, f, rfl, rfl, he, hnone, hroom, hf, hn, rfl, hm⟩⟩ :=
    create_cases hinv.dir hinv.len hinv.mount hr
  · exact ⟨l, hinv.of_mount hkeep (fun _ hh _ => hh) hm, .same l, rfl, rfl⟩
  · have hstatus : f.de_status = DES_TENTATIVE := by rw [hf]
    have hblocks : f.blocks = e.blocks := by
      rw [hf]
      rfl
    have hend : f.de_status ≠ DES_END := by
      rw [hstatus]
      decide
    have hlength : (pre ++ f :: post).length = (pre ++ e :: post).length := by
      rw [List.length_append, List.length_append, List.length_cons, List.length_cons]
    have hdir : DirAt (rt11fsPutDirEntry s.vd_pDirSeg pre.length f).ds_entries 0
        (pre ++ f :: post) := hinv.dir.put hend
    refine ⟨pre ++ f :: post, ⟨hdir, ?_, hm _, ?_, ?_⟩, .create pre post he hstatus hblocks, rfl,
      rfl⟩
    · rw [hlength]
      exact hinv.len
    · refine List.forall_mem_cons.2 ⟨fun _ => ?_, fun h hh hfile => ?_⟩
      · show RT11FS_FILE_INODE_BASE ≤ (m'.vnode n).v_inode
        omega
      · show RT11FS_FILE_INODE_BASE ≤ (m'.vnode h.vnode).v_inode
        rw [hkeep h hh]
        exact hinv.base h hh hfile
    · intro h hh hfile htent
      dsimp only [handOut] at htent ⊢
      by_cases hv : h.vnode = n
      · rw [hv, Function.update_self]
        refine ⟨pre, post, rfl, hn, fun g hg => hnone g ?_, ?_⟩
        · rw [List.mem_append] at hg
          rw [List.mem_append, List.mem_cons]
          tauto
        · rw [hlength]
          exact hroom
      · -- no other file was tentative before
        have hold : h ∈ s.handles := by
          obtain rfl | hold := List.mem_cons.1 hh
          · exact absurd rfl hv
          · exact hold
        rw [Function.update_of_ne hv] at htent
        obtain ⟨pre', post', heq, _⟩ := hinv.tent h hold hfile htent
        have hmem : (s.desc h.vnode).rfd_dirEntry ∈ pre ++ e :: post := by
          rw [heq]
          exact List.mem_append_right _ List.mem_cons_self
        exact absurd htent (hnone _ hmem)

/-- The entry of a new file is the only tentative one. -/
theorem index_unique {pre post pre' post' : List DirEntry} {e e' : DirEntry}
    (h : pre ++ e :: post = pre' ++ e' :: post')
    (hnone : ∀ f ∈ pre ++ post, f.de_status ≠ DES_TENTATIVE)
    (he' : e'.de_status = DES_TENTATIVE) : pre'.length = pre.length := by
  induction pre generalizing pre' with
  | nil =>
    cases pre' with
    | nil => rfl
    | cons g pre' =>
      have htail := (List.cons.inj h).2
      exact absurd he' (hnone e' (by simp [htail]))
  | cons f pre ih =>
    cases pre' with
    | nil =>
      obtain ⟨rfl, _⟩ := List.cons.inj h
      exact absurd he' (hnone f (by simp))
    | cons g pre' =>
      have htail := (List.cons.inj h).2
      have hlen := ih htail fun k hk => hnone k (List.mem_cons_of_mem _ hk)
      rw [List.length_cons, List.length_cons, hlen]

/-- The entries behind a file that is closed: some empty ones are replaced. -/
theorem closedRest_spec {d : FileDesc} (hfit : fileBlocks d ≤ d.rfd_dirEntry.blocks)
    (post : List DirEntry) :
    ∃ X E rest, post = X ++ rest ∧ closedRest d post = E ++ rest ∧
      (∀ f ∈ X, f.de_status = DES_EMPTY) ∧ (∀ f ∈ E, f.de_status = DES_EMPTY) ∧
      (closedEntry d).blocks + sumBlocks E = d.rfd_dirEntry.blocks + sumBlocks X ∧
      E.length ≤ X.length + 1 := by
  unfold closedRest
  rw [closedEntry_blocks hfit]
  split
  next hleft =>
    have hempty : (restEntry d).de_status = DES_EMPTY := rfl
    obtain ⟨X, E, rest, rfl, heq, hX, hE, hsum, hlen⟩ := mergeList_spec false hempty post
    refine ⟨X, E, rest, rfl, heq, hX, hE, ?_, hlen⟩
    rw [hsum, restEntry_blocks hfit]
    omega
  next hleft =>
    refine ⟨[], [], post, rfl, rfl, fun f hf => absurd hf List.not_mem_nil,
      fun f hf => absurd hf List.not_mem_nil, ?_, Nat.zero_le _⟩
    rw [sumBlocks_nil]
    omega

theorem closedRest_length (d : FileDesc) (post : List DirEntry) :
    (closedRest d post).length ≤ post.length + 1 := by
  unfold closedRest
  split
  · have hempty : (restEntry d).de_status = DES_EMPTY := rfl
    obtain ⟨X, E, rest, rfl, heq, _, _, _, hlen⟩ := mergeList_spec false hempty post
    rw [heq, List.length_append, List.length_append]
    omega
  · exact Nat.le_succ _

/-- A close of a file that is not new. -/
theorem close_old {v : Nat} (htent : (s.desc v).rfd_dirEntry.de_status ≠ DES_TENTATIVE) :
    rt11VopClose s v = some { s with
      desc := Function.update s.desc v { s.desc v with rfd_nBlks := fileBlocks (s.desc v) } } := by
  unfold rt11VopClose
  dsimp only
  rw [if_neg htent]
  rfl

theorem VolInv.vopClose (hinv : VolInv s l) (hh : h ∈ s.handles) (hfile : h.file ≠ none)
    (hr : rt11VopClose s h.vnode = some s') :
    ∃ l', VolInv s' l' ∧ (Sound s (.close h) → DirStep l l') ∧
      s'.vd_pDirSeg.ds_start = s.vd_pDirSeg.ds_start ∧ s'.vd_maxEntries = s.vd_maxEntries ∧
      s'.handles = s.handles := by
  by_cases htent : (s.desc h.vnode).rfd_dirEntry.de_status = DES_TENTATIVE
  · obtain ⟨pre, post, rfl, hi, hnone, hroom⟩ := hinv.tent h hh hfile htent
    obtain ⟨seg, d, hclose, hstart, hd, _, hdir⟩ :=
      close_tentative hinv.dir hinv.len htent hi
    obtain rfl := Option.some.inj (hr.symm.trans hclose)
    have hclosed : (closedEntry (s.desc h.vnode)).de_status = DES_PERMANENT := rfl
    refine ⟨_, ⟨hdir, ?_, hinv.mount, hinv.base, ?_⟩, ?_, hstart, rfl, rfl⟩
    · have hlen := closedRest_length (s.desc h.vnode) post
      rw [List.length_append, List.length_cons] at hroom ⊢
      dsimp only
      omega
    · -- there is no other new file
      intro h' hh' hfile' htent'
      dsimp only at htent' ⊢
      by_cases hv : h'.vnode = h.vnode
      · rw [hv, Function.update_self] at htent'
        exact absurd htent' hd
      · rw [Function.update_of_ne hv] at htent'
        obtain ⟨pre', post', heq, hi', _⟩ := hinv.tent h' hh' hfile' htent'
        have hindex := index_unique heq hnone htent'
        obtain ⟨used, free, ht⟩ := hinv.mount.good
        refine absurd (ht.inode _ (hinv.mount.files h' hh') _ (hinv.mount.files h hh) ?_ ?_) hv
        · rw [hi', hi, hindex]
        · exact hinv.mount.inodes h' hh'
    · intro hsound
      obtain ⟨X, E, rest, rfl, heq, hX, hE, hsum, _⟩ := closedRest_spec (hsound htent) post
      rw [heq]
      exact .close pre rest htent hclosed rfl hX hE hsum
  · rw [close_old htent] at hr
    cases hr
    exact ⟨l, hinv.of_desc rfl, fun _ => .same l, rfl, rfl, rfl⟩

theorem VolInv.giveBack (hinv : VolInv s l) (hh : h ∈ s.handles)
    (hr : Rt11.giveBack s h = some s') :
    VolInv s' l ∧ s'.vd_pDirSeg = s.vd_pDirSeg ∧ s'.vd_maxEntries = s.vd_maxEntries := by
  obtain ⟨m', rfl, hinode, hm⟩ := giveBack_spec hinv.mount hh hr
  exact ⟨hinv.of_mount (fun k _ => hinode k.vnode) (fun _ hk _ => List.mem_of_mem_erase hk) hm,
    rfl, rfl⟩

/-- One call. -/
theorem VolInv.step {op : Op} (hinv : VolInv s l) (hs : Rt11.step s op = some s') :
    ∃ l', VolInv s' l' ∧ (Sound s op → DirStep l l') ∧ s'.vd_pDirSeg.ds_start = s.vd_pDirSeg.ds_start ∧
      s'.vd_maxEntries = s.vd_maxEntries := by
  cases op with
  | root malloc =>
    obtain ⟨⟨s₁, error, r⟩, hr, rfl⟩ := Option.map_eq_some_iff.1 hs
    have hroot : RT11FS_ROOT_INODE ≠ 0 := by decide
    obtain ⟨m', rfl, hkeep, ⟨_, rfl, hm⟩ | ⟨_, n, rfl, hn, hm⟩⟩ := vget_spec hinv.mount hroot hr
    · exact ⟨l, hinv.of_mount hkeep (fun _ hh _ => hh) hm, fun _ => .same l, rfl, rfl⟩
    · refine ⟨l, hinv.of_mount hkeep (fun h hh hfile => ?_) (hm none), fun _ => .same l, rfl, rfl⟩
      obtain rfl | hold := List.mem_cons.1 hh
      · exact absurd rfl hfile
      · exact hold
  | lookup malloc name =>
    obtain ⟨hinv', hseg, hmax⟩ := hinv.lookup hs
    exact ⟨l, hinv', fun _ => .same l, by rw [hseg], hmax⟩
  | create malloc name currDate =>
    obtain ⟨l', hinv', hdir, hstart, hmax⟩ := hinv.create hs
    exact ⟨l', hinv', fun _ => hdir, hstart, hmax⟩
  | write h uio_offset uio_resid io =>
    rw [Rt11.step, Option.ite_none_right_eq_some] at hs
    obtain ⟨_, hm⟩ := hs
    obtain ⟨⟨s₁, error⟩, hr, rfl⟩ := Option.map_eq_some_iff.1 hm
    obtain ⟨n, rfl⟩ := write_cases hr
    exact ⟨l, hinv.of_desc rfl, fun _ => .same l, rfl, rfl⟩
  | close h =>
    rw [Rt11.step, Option.ite_none_right_eq_some] at hs
    obtain ⟨⟨hh, hfile⟩, hm⟩ := hs
    obtain ⟨s₁, hclose, hback⟩ := Option.bind_eq_some_iff.1 hm
    obtain ⟨l', hinv₁, hdir, hstart, hmax, hhandles⟩ := hinv.vopClose hh hfile hclose
    obtain ⟨hinv', hseg, hmax'⟩ := hinv₁.giveBack (hhandles ▸ hh) hback
    exact ⟨l', hinv', hdir, by rw [hseg, hstart], hmax'.trans hmax⟩
  | unlock h =>
    rw [Rt11.step, Option.ite_none_right_eq_some] at hs
    obtain ⟨hh, hback⟩ := hs
    obtain ⟨hinv', hseg, hmax⟩ := hinv.giveBack hh hback
    exact ⟨l, hinv', fun _ => .same l, by rw [hseg], hmax⟩
  | remove =>
    cases hs
    exact ⟨l, hinv, fun _ => .same l, rfl, rfl⟩

theorem volInv_mounted {maxFiles vd_blkSize2 vd_maxEntries : Nat} {seg : DirSeg}
    {desc : Nat → FileDesc} (hdir : DirAt seg.ds_entries 0 l) (hlen : l.length < vd_maxEntries) :
    VolInv (mounted maxFiles vd_blkSize2 vd_maxEntries seg desc) l where
  dir := hdir
  len := hlen
  mount := by
    have hvnode : ∀ n, ((mountCreate maxFiles .rt11VopsSyncer).vnode n).v_count = 0 ∧
        ((mountCreate maxFiles .rt11VopsSyncer).vnode n).v_inode = 0 := by
      intro n
      unfold mountCreate
      dsimp only
      by_cases hn : n = 0
      · rw [hn, Function.update_self]
        exact ⟨rfl, rfl⟩
      · rw [Function.update_of_ne hn]
        exact ⟨rfl, rfl⟩
    exact ⟨good_mountCreate maxFiles .rt11VopsSyncer, fun n hn => absurd (hvnode n).2 hn,
      fun n => (hvnode n).1, fun h hh => absurd hh List.not_mem_nil,
      fun h hh => absurd hh List.not_mem_nil⟩
  base h hh := absurd hh List.not_mem_nil
  tent h hh := absurd hh List.not_mem_nil

/-- The rest of a new file whose blocks do not fit is too big. -/
theorem not_fit_sum {d : FileDesc} (hfit : ¬ fileBlocks d ≤ d.rfd_dirEntry.blocks)
    (hn : d.rfd_nBlks < 65536) (post : List DirEntry) :
    (closedEntry d).blocks + sumBlocks (closedRest d post) =
      d.rfd_dirEntry.blocks + sumBlocks post + 65536 := by
  have hblocks : fileBlocks d < 65536 := by
    unfold fileBlocks
    split <;> omega
  have hclosed : (closedEntry d).blocks = fileBlocks d := by
    unfold closedEntry DirEntry.blocks
    dsimp only
    rw [UInt16.toNat_ofNat']
    exact Nat.mod_eq_of_lt hblocks
  have hrest : (restEntry d).blocks = 65536 + d.rfd_dirEntry.blocks - fileBlocks d := by
    obtain ⟨k, hk⟩ : ∃ k : Nat, k = fileBlocks d - d.rfd_dirEntry.blocks := ⟨_, rfl⟩
    have hint : (d.rfd_dirEntry.blocks : Int) - fileBlocks d = -(k : Int) := by omega
    have hk' : 65536 + d.rfd_dirEntry.blocks - fileBlocks d = 65536 - k := by omega
    rw [hk']
    unfold restEntry
    rw [hint]
    unfold DirEntry.blocks UInt16.ofInt
    dsimp only
    rw [UInt16.toNat_ofNat']
    omega
  have hleft : (d.rfd_dirEntry.blocks : Int) - fileBlocks d ≠ 0 := by omega
  have hempty : (restEntry d).de_status = DES_EMPTY := rfl
  obtain ⟨X, E, rest, rfl, heq, _, _, hsum, _⟩ := mergeList_spec false hempty post
  rw [closedRest, if_pos hleft, heq, hclosed, sumBlocks_append, sumBlocks_append, hsum, hrest]
  omega

/-- The directory has kept the blocks and the permanent files that it had at the start. -/
def DirKept (start : Int) (maxEntries : Nat) (l : List DirEntry) (s : Vol) : Prop :=
  ∃ l', VolInv s l' ∧ sumBlocks l' = sumBlocks l ∧
    (permanents start l).Sublist (permanents start l') ∧
    s.vd_pDirSeg.ds_start = start ∧ s.vd_maxEntries = maxEntries

theorem DirKept.step {maxEntries : Nat} {op : Op} (hkept : DirKept start maxEntries l s)
    (hsound : Sound s op) (hs : Rt11.step s op = some s') : DirKept start maxEntries l s' := by
  obtain ⟨l', hinv, hsum, hperm, hstart, hmax⟩ := hkept
  obtain ⟨l'', hinv', hdirStep, hstart', hmax'⟩ := hinv.step hs
  exact ⟨l'', hinv', (hdirStep hsound).sum_eq.trans hsum,
    hperm.trans ((hdirStep hsound).permanents_sublist start), hstart'.trans hstart,
    hmax'.trans hmax⟩

/-- The directory of a volume in a run in which the blocks of every new file that is closed fit
into its entry: it ends within its capacity, its blocks are kept, and so is every permanent
file.  Each call is a `DirStep`, and a creation that fails changes no entry.  A write that
starts within the entry of its file keeps the blocks of the file within it; a new file whose
blocks do not fit adds blocks to the directory. -/
theorem dir_extents {maxFiles vd_blkSize2 vd_maxEntries : Nat} {seg : DirSeg}
    {desc : Nat → FileDesc} {ops : List Op} (hdir : DirAt seg.ds_entries 0 l)
    (hlen : l.length < vd_maxEntries)
    (hsound : AllSteps step Sound (mounted maxFiles vd_blkSize2 vd_maxEntries seg desc) ops)
    (hrun : exec step (mounted maxFiles vd_blkSize2 vd_maxEntries seg desc) ops = some s) :
    ∃ l', DirAt s.vd_pDirSeg.ds_entries 0 l' ∧ l'.length < vd_maxEntries ∧
      sumBlocks l' = sumBlocks l ∧
      ((placed seg.ds_start l').Pairwise fun x y => x.1 + (x.2.blocks : Int) ≤ y.1) ∧
      (permanents seg.ds_start l).Sublist (permanents seg.ds_start l') ∧
      (∀ op s', Sound s op → step s op = some s' →
        ∃ l'', DirAt s'.vd_pDirSeg.ds_entries 0 l'' ∧ DirStep l' l'') ∧
      (∀ malloc name currDate s' error r, rt11VopCreate malloc s name currDate =
        some (s', error, r) → error ≠ OK → s'.vd_pDirSeg = s.vd_pDirSeg) ∧
      (∀ h ∈ s.handles, ∀ uio_offset uio_resid io s' error, uio_resid < 2 ^ 31 →
        uio_offset ≤ (s.desc h.vnode).rfd_dirEntry.blocks * 2 ^ s.vd_blkSize2 →
        (s.desc h.vnode).rfd_nBlks ≤ (s.desc h.vnode).rfd_dirEntry.blocks →
        rt11VopWrite s h.vnode uio_offset uio_resid io = some (s', error) →
        (s'.desc h.vnode).rfd_nBlks ≤ (s'.desc h.vnode).rfd_dirEntry.blocks) ∧
      ∀ h s', ¬ Sound s (.close h) → (s.desc h.vnode).rfd_nBlks < 65536 →
        step s (.close h) = some s' →
        ∃ l'', DirAt s'.vd_pDirSeg.ds_entries 0 l'' ∧ sumBlocks l'' ≠ sumBlocks l' := by
  have hinit : DirKept seg.ds_start vd_maxEntries l
      (mounted maxFiles vd_blkSize2 vd_maxEntries seg desc) :=
    ⟨l, volInv_mounted hdir hlen, rfl, List.Sublist.refl _, rfl, rfl⟩
  obtain ⟨l', hinv, hsum, hperm, hstart, hmax⟩ :=
    exec_invariant_of (fun _ _ _ hkept hs hstep => hkept.step hs hstep) hinit hsound hrun
  refine ⟨l', hinv.dir, hmax ▸ hinv.len, hsum, placed_disjoint _ _, hperm, ?_, ?_, ?_, ?_⟩
  · intro op s' hsound hstep
    obtain ⟨l'', hinv', hdirStep, _⟩ := hinv.step hstep
    exact ⟨l'', hinv'.dir, hdirStep hsound⟩
  · intro malloc name currDate s' error r hr herror
    obtain ⟨m', _, ⟨_, _, rfl, _⟩ | ⟨hok, _⟩⟩ := create_cases hinv.dir hinv.len hinv.mount hr
    · rfl
    · exact absurd hok herror
  · intro h _ uio_offset uio_resid io s' error hint hoffset hn hr
    exact write_within hint hoffset hn hr
  · intro h s' hunsound hn hstep
    rw [Sound] at hunsound
    push Not at hunsound
    obtain ⟨htent, hfit⟩ := hunsound
    rw [step, Option.ite_none_right_eq_some] at hstep
    obtain ⟨⟨hh, hfile⟩, hm⟩ := hstep
    obtain ⟨s₁, hclose, hback⟩ := Option.bind_eq_some_iff.1 hm
    obtain ⟨⟨m', error⟩, _, rfl⟩ := Option.map_eq_some_iff.1 hback
    obtain ⟨pre, post, rfl, hi, _⟩ := hinv.tent h hh hfile htent
    obtain ⟨seg', d, hclose', _, _, _, hdir'⟩ := close_tentative hinv.dir hinv.len htent hi
    obtain rfl := Option.some.inj (hclose.symm.trans hclose')
    refine ⟨_, hdir', ?_⟩
    have hbad := not_fit_sum (Nat.not_le.2 hfit) hn post
    simp only [sumBlocks_append, sumBlocks_cons]
    omega

/-! ## One file -/

def exampleName : Name := { nm_name1 := 1, nm_name2 := 0, nm_type := 0 }

def exampleEntry (status : Nat) (nblocks : UInt16) : DirEntry :=
  { de_status := status, de_name := exampleName, de_nblocks := nblocks, de_date := 0 }

/-- One empty entry. -/
def exampleSeg (nblocks : UInt16) : DirSeg where
  ds_start := 14
  ds_entries i := if i = 0 then exampleEntry DES_EMPTY nblocks else exampleEntry DES_END 0

def exampleVol (nblocks : UInt16) : Vol :=
  mounted 2 9 72 (exampleSeg nblocks)
    fun _ => { rfd_startBlock := 0, rfd_nBlks := 0, rfd_dirEntry := exampleEntry DES_END 0 }

def exampleHandle : Handle := { vnode := 1, file := some (exampleName, 14) }

/-- A file is created, written and closed. -/
def exampleOps (offsets : List Nat) : List Op :=
  .create true exampleName 0 ::
    (offsets.map fun offset => .write exampleHandle offset 600 fun _ => (true, true)) ++
    [.close exampleHandle]

theorem dir_extents_file :
    ∃ s l', exec step (exampleVol 10) (exampleOps [0]) = some s ∧
      (s.vd_pDirSeg.ds_entries 0).blocks = 2 ∧ DirAt s.vd_pDirSeg.ds_entries 0 l' ∧
      sumBlocks l' = 10 := by
  have hsound : AllSteps step Sound (exampleVol 10) (exampleOps [0]) := by decide
  have hblocks : (exec step (exampleVol 10) (exampleOps [0])).map
      (fun s => (s.vd_pDirSeg.ds_entries 0).blocks) = some 2 := by decide
  obtain ⟨s, hrun, hs⟩ := Option.map_eq_some_iff.1 hblocks
  have hdir : DirAt (exampleSeg 10).ds_entries 0 [exampleEntry DES_EMPTY 10] :=
    ⟨rfl, by decide, rfl⟩
  obtain ⟨l', hdir', _, hsum, _⟩ := dir_extents hdir (by decide) hsound hrun
  exact ⟨s, l', hrun, hs, hdir', hsum⟩

/-- A file of one block is written behind its end, twice: the directory had one block, and has
the two of the file and 65535 empty ones.  The same happens to an entry without blocks. -/
theorem dir_extents_broken :
    ((exec step (exampleVol 1) (exampleOps [5000, 5000])).map fun s =>
        ((s.vd_pDirSeg.ds_entries 0).blocks, (s.vd_pDirSeg.ds_entries 1).de_status,
          (s.vd_pDirSeg.ds_entries 1).blocks)) = some (2, DES_EMPTY, 65535) ∧
    ((exec step (exampleVol 0) (exampleOps [])).map fun s =>
        ((s.vd_pDirSeg.ds_entries 0).blocks, (s.vd_pDirSeg.ds_entries 1).de_status,
          (s.vd_pDirSeg.ds_entries 1).blocks)) = some (1, DES_EMPTY, 65535) := by
  refine ⟨?_, ?_⟩ <;> decide

end Vmx.Rt11
