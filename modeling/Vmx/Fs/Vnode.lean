import Vmx.Fs.VnodeLib
import Vmx.Lib.Transition
import Mathlib.Data.List.Perm.Basic

/-!
# The lists of a mount's vnodes

`Good` is the invariant of the two lists: each vnode for a file is on one of them, it is on
`mnt_vused` when it is used, and no two vnodes have the same inode.  Three kinds of call
break it, and the lock of the mount: `vgetino` keeps the lock when it finds no vnode that it
can have, `vnodeUnlock` leaves a vnode that nobody uses on `mnt_vused` when its file system
refuses to let it go, and it takes the syncer off `mnt_vused` although it is not there.
-/

namespace Vmx.Vfs

open Lib

variable {m m' : Mount} {used free pre post : List Nat} {n : Nat}

/-- The vnodes for files. -/
def Mount.files (m : Mount) : List Nat := List.range' 1 m.mnt_maxfiles

/-- The two lists. -/
structure Lists (m : Mount) (used free : List Nat) : Prop where
  vused : IsList m.links m.mnt_vused used
  vlist : IsList m.links m.mnt_vlist free
  files : (used ++ free).Perm m.files
  syncer : m.mnt_syncer = 0
  syncer_next : m.links.next 0 = none
  syncer_prev : m.links.prev 0 = none

/-- The two lists, the use counts and the inodes. -/
structure Table (m : Mount) (used free : List Nat) : Prop extends Lists m used free where
  in_use : ∀ n ∈ used, 0 < (m.vnode n).v_count
  unused : ∀ n ∈ free, (m.vnode n).v_count = 0
  inode : ∀ a ∈ m.files, ∀ b ∈ m.files, (m.vnode a).v_inode = (m.vnode b).v_inode →
    (m.vnode a).v_inode ≠ 0 → a = b

/-- Each vnode for a file is on one list, on `mnt_vused` when its use count is positive, and
no two have the same inode. -/
def Good (m : Mount) : Prop := ∃ used free, Table m used free

@[simp] theorem Mount.setVnode_self (m : Mount) (n : Nat) (vp : Vnode) :
    (m.setVnode n vp).vnode n = vp := Function.update_self ..

/-! ## The lists -/

namespace Lists

theorem nodup (h : Lists m used free) : (used ++ free).Nodup := h.files.nodup_iff.2 List.nodup_range'

theorem not_both (h : Lists m used free) (hu : n ∈ used) : n ∉ free := fun hf =>
  (List.nodup_append.1 h.nodup).2.2 n hu n hf rfl

theorem mem_files (h : Lists m used free) : n ∈ m.files ↔ n ∈ used ∨ n ∈ free := by
  rw [← h.files.mem_iff, List.mem_append]

theorem ne_syncer (h : Lists m used free) (hn : n ∈ used ∨ n ∈ free) : 0 ≠ n := by
  have hmem := h.mem_files.2 hn
  rw [Mount.files, List.mem_range'_1] at hmem
  omega

theorem syncer_or (h : Lists m used free) (hn : n ≤ m.mnt_maxfiles) :
    n = 0 ∨ n ∈ used ∨ n ∈ free := by
  rw [← h.mem_files, Mount.files, List.mem_range'_1]
  omega

theorem length_le (h : Lists m used free) :
    used.length ≤ m.mnt_maxfiles ∧ free.length ≤ m.mnt_maxfiles := by
  have hlen := h.files.length_eq
  rw [List.length_append, Mount.files, List.length_range'] at hlen
  omega

theorem congr (h : Lists m used free) (hlinks : m'.links = m.links)
    (hused : m'.mnt_vused = m.mnt_vused) (hfree : m'.mnt_vlist = m.mnt_vlist)
    (hmax : m'.mnt_maxfiles = m.mnt_maxfiles) (hsyncer : m'.mnt_syncer = m.mnt_syncer) : Lists m' used free where
  vused := by
    rw [hlinks, hused]
    exact h.vused
  vlist := by
    rw [hlinks, hfree]
    exact h.vlist
  files := by
    unfold Mount.files
    rw [hmax]
    exact h.files
  syncer := hsyncer.trans h.syncer
  syncer_next := hlinks ▸ h.syncer_next
  syncer_prev := hlinks ▸ h.syncer_prev

end Lists

/-- A vnode goes from the end of one list to the end of the other. -/
theorem lists_use (h : Lists m used (pre ++ n :: post)) :
    Lists (m.use n) (used ++ [n]) (pre ++ post) := by
  have hmem : n ∈ pre ++ n :: post := List.mem_append_right _ List.mem_cons_self
  have hnu : n ∉ used := fun hu => h.not_both hu hmem
  have hrest : ∀ k ∈ pre ++ post, k ∈ pre ++ n :: post := fun k hk =>
    ((List.sublist_cons_self n post).append_left pre).subset hk
  have hdisj : ∀ k ∈ used, k ∉ pre ++ n :: post := fun k hk => h.not_both hk
  have hnot : n ∉ pre ++ post := by
    obtain ⟨_, hpost, hpre⟩ := List.nodup_append.1 h.vlist.nodup
    rw [List.mem_append]
    rintro (hm | hm)
    · exact hpre n hm n List.mem_cons_self rfl
    · exact (List.nodup_cons.1 hpost).1 hm
  have hfree := isList_remove h.vlist
  have hused := isList_remove_of_disjoint h.vlist h.vused hdisj
  have h0 := h.ne_syncer (.inr hmem)
  have h0u : 0 ∉ used := fun hm => h.ne_syncer (.inl hm) rfl
  have h0f : 0 ∉ pre ++ n :: post := fun hm => h.ne_syncer (.inr hm) rfl
  obtain ⟨hnext, hprev⟩ := listRemove_links h.vlist h0f
  obtain ⟨hnext', hprev'⟩ := listAdd_links hused h0 h0u
  refine ⟨isList_add hused hnu, isList_add_of_disjoint hused hfree hnot fun k hk hku =>
    h.not_both hku (hrest k hk), ?_, h.syncer, ?_, ?_⟩
  · refine List.Perm.trans ?_ h.files
    rw [List.append_assoc, List.singleton_append]
    exact List.Perm.append_left used List.perm_middle.symm
  · exact hnext'.trans (hnext.trans h.syncer_next)
  · exact hprev'.trans (hprev.trans h.syncer_prev)

theorem lists_release (h : Lists m (pre ++ n :: post) free) :
    Lists (m.release n) (pre ++ post) (free ++ [n]) := by
  -- the same move, with the lists exchanged
  let swap : Mount := { m with mnt_vused := m.mnt_vlist, mnt_vlist := m.mnt_vused }
  have hswap : Lists swap free (pre ++ n :: post) :=
    ⟨h.vlist, h.vused, List.perm_append_comm.trans h.files, h.syncer, h.syncer_next, h.syncer_prev⟩
  have huse := lists_use hswap
  exact ⟨huse.vlist, huse.vused, List.perm_append_comm.trans huse.files, huse.syncer,
    huse.syncer_next, huse.syncer_prev⟩

/-! ## Use counts and inodes -/

namespace Table

theorem congr (h : Table m used free) (hvnode : m'.vnode = m.vnode) (hlinks : m'.links = m.links)
    (hused : m'.mnt_vused = m.mnt_vused) (hfree : m'.mnt_vlist = m.mnt_vlist)
    (hmax : m'.mnt_maxfiles = m.mnt_maxfiles) (hsyncer : m'.mnt_syncer = m.mnt_syncer) :
    Table m' used free where
  toLists := h.toLists.congr hlinks hused hfree hmax hsyncer
  in_use n hn := hvnode ▸ h.in_use n hn
  unused n hn := hvnode ▸ h.unused n hn
  inode := by
    unfold Mount.files
    rw [hvnode, hmax]
    exact h.inode

theorem mountLock (h : Table m used free) : Table (mountLock m) used free :=
  h.congr rfl rfl rfl rfl rfl rfl

theorem mountUnlock (h : Table m used free) : Table (mountUnlock m) used free :=
  h.congr rfl rfl rfl rfl rfl rfl

/-- One vnode is written, and the lists may change. -/
theorem set {used' free' : List Nat} {vp : Vnode} (h : Table m used free)
    (hlists : Lists m' used' free') (hmax : m'.mnt_maxfiles = m.mnt_maxfiles)
    (hvnode : m'.vnode = Function.update m.vnode n vp)
    (hused : ∀ k ∈ used', k = n ∧ 0 < vp.v_count ∨ k ≠ n ∧ k ∈ used)
    (hfree : ∀ k ∈ free', k = n ∧ vp.v_count = 0 ∨ k ≠ n ∧ k ∈ free)
    (hinode : vp.v_inode = (m.vnode n).v_inode ∨ vp.v_inode = 0 ∨
      ∀ k ∈ m.files, k ≠ n → (m.vnode k).v_inode ≠ vp.v_inode) : Table m' used' free' where
  toLists := hlists
  in_use k hk := by
    rw [hvnode]
    obtain ⟨rfl, hpos⟩ | ⟨hne, hmem⟩ := hused k hk
    · rw [Function.update_self]
      exact hpos
    · rw [Function.update_of_ne hne]
      exact h.in_use k hmem
  unused k hk := by
    rw [hvnode]
    obtain ⟨rfl, hzero⟩ | ⟨hne, hmem⟩ := hfree k hk
    · rw [Function.update_self]
      exact hzero
    · rw [Function.update_of_ne hne]
      exact h.unused k hmem
  inode := by
    unfold Mount.files
    rw [hvnode, hmax]
    -- the written vnode differs from every other one
    have hother : ∀ k ∈ m.files, n ∈ m.files → k ≠ n → vp.v_inode ≠ 0 →
        (m.vnode k).v_inode ≠ vp.v_inode := by
      intro k hk hn hne hnz heq
      rcases hinode with hsame | hzero | hnew
      · rw [hsame] at heq hnz
        exact hne (h.inode k hk n hn heq (heq ▸ hnz))
      · exact hnz hzero
      · exact hnew k hk hne heq
    intro a ha b hb heq hnz
    by_cases han : a = n
    · subst han
      rw [Function.update_self] at heq hnz
      by_cases hbn : b = a
      · exact hbn.symm
      · rw [Function.update_of_ne hbn] at heq
        exact absurd heq.symm (hother b hb ha hbn hnz)
    · rw [Function.update_of_ne han] at heq hnz
      by_cases hbn : b = n
      · subst hbn
        rw [Function.update_self] at heq
        exact absurd heq (hother a ha hb han (heq ▸ hnz))
      · rw [Function.update_of_ne hbn] at heq
        exact h.inode a ha b hb heq hnz

/-- A vnode in use is used once more. -/
theorem vnodeLock (h : Table m used free) (hn : n ∈ used) : Table (vnodeLock m n) used free := by
  refine h.set (h.toLists.congr rfl rfl rfl rfl rfl) rfl rfl (fun k hk => ?_) (fun k hk => ?_)
    (.inl rfl)
  · by_cases hkn : k = n
    · have hpos := h.in_use n hn
      exact .inl ⟨hkn, by
        dsimp only
        omega⟩
    · exact .inr ⟨hkn, hk⟩
  · have hkn : k ≠ n := fun heq => h.not_both hn (heq ▸ hk)
    exact .inr ⟨hkn, hk⟩

/-- The use count of a vnode that is used more than once, or is no vnode for a file. -/
theorem setCount (h : Table m used free) {c : Int} (hc : n ∈ used → 0 < c) (hn : n ∉ free) :
    Table (m.setVnode n { m.vnode n with v_count := c }) used free := by
  refine h.set (h.toLists.congr rfl rfl rfl rfl rfl) rfl rfl (fun k hk => ?_) (fun k hk => ?_)
    (.inl rfl)
  · by_cases hkn : k = n
    · exact .inl ⟨hkn, hc (hkn ▸ hk)⟩
    · exact .inr ⟨hkn, hk⟩
  · have hkn : k ≠ n := fun heq => hn (heq ▸ hk)
    exact .inr ⟨hkn, hk⟩

/-- A vnode of `mnt_vlist` is given another inode, that no vnode has. -/
theorem setInode {vp : Vnode} (h : Table m used free) (hn : n ∈ free) (hcount : vp.v_count = 0)
    (hinode : vp.v_inode = 0 ∨ ∀ k ∈ m.files, k ≠ n → (m.vnode k).v_inode ≠ vp.v_inode) :
    Table (m.setVnode n vp) used free := by
  refine h.set (h.toLists.congr rfl rfl rfl rfl rfl) rfl rfl (fun k hk => ?_) (fun k hk => ?_)
    (.inr hinode)
  · have hkn : k ≠ n := fun heq => h.not_both hk (heq ▸ hn)
    exact .inr ⟨hkn, hk⟩
  · by_cases hkn : k = n
    · exact .inl ⟨hkn, hcount⟩
    · exact .inr ⟨hkn, hk⟩

/-- A vnode of `mnt_vlist` is used. -/
theorem use (h : Table m used (pre ++ n :: post)) :
    Table (Vfs.vnodeLock (m.use n) n) (used ++ [n]) (pre ++ post) := by
  have hlists := lists_use h.toLists
  have hmem : n ∈ pre ++ n :: post := List.mem_append_right _ List.mem_cons_self
  have hzero := h.unused n hmem
  have hnot : n ∉ pre ++ post := hlists.not_both (List.mem_append_right _ (List.mem_singleton_self n))
  refine h.set (hlists.congr rfl rfl rfl rfl rfl) rfl rfl (fun k hk => ?_) (fun k hk => ?_)
    (.inl rfl)
  · by_cases hkn : k = n
    · refine .inl ⟨hkn, ?_⟩
      show 0 < (m.vnode n).v_count + 1
      omega
    · refine .inr ⟨hkn, ?_⟩
      obtain hk | hk := List.mem_append.1 hk
      · exact hk
      · exact absurd (List.mem_singleton.1 hk) hkn
  · have hkn : k ≠ n := fun heq => hnot (heq ▸ hk)
    exact .inr ⟨hkn, ((List.sublist_cons_self n post).append_left pre).subset hk⟩

/-- A vnode that is not used any more goes back to `mnt_vlist`. -/
theorem release (h : Table m (pre ++ n :: post) free) :
    Table ((m.setVnode n { m.vnode n with v_count := 0 }).release n) (pre ++ post)
      (free ++ [n]) := by
  have hset : Lists (m.setVnode n { m.vnode n with v_count := 0 }) (pre ++ n :: post) free :=
    h.toLists.congr rfl rfl rfl rfl rfl
  have hlists := lists_release hset
  have hnot : n ∉ pre ++ post := fun hk =>
    hlists.not_both hk (List.mem_append_right _ (List.mem_singleton_self n))
  refine h.set hlists rfl rfl (fun k hk => ?_) (fun k hk => ?_) (.inl rfl)
  · have hkn : k ≠ n := fun heq => hnot (heq ▸ hk)
    exact .inr ⟨hkn, ((List.sublist_cons_self n post).append_left pre).subset hk⟩
  · by_cases hkn : k = n
    · exact .inl ⟨hkn, rfl⟩
    · refine .inr ⟨hkn, ?_⟩
      obtain hk | hk := List.mem_append.1 hk
      · exact hk
      · exact absurd (List.mem_singleton.1 hk) hkn

end Table

/-! ## The calls -/

theorem vopActivate_frame (env : VopEnv) (v_ops : VnodeOps) (vp : Vnode) :
    (vopActivate env v_ops vp).2.v_count = vp.v_count ∧
      (vopActivate env v_ops vp).2.v_inode = vp.v_inode := by
  have hrt11 : (rt11VopActivate env vp).2.v_count = vp.v_count ∧
      (rt11VopActivate env vp).2.v_inode = vp.v_inode := by
    unfold rt11VopActivate
    dsimp only
    split
    · exact ⟨rfl, rfl⟩
    · split <;> exact ⟨rfl, rfl⟩
  have hext2 : (ext2fsVopActivate env vp).2.v_count = vp.v_count ∧
      (ext2fsVopActivate env vp).2.v_inode = vp.v_inode := by
    unfold ext2fsVopActivate
    split <;> exact ⟨rfl, rfl⟩
  unfold vopActivate
  split
  · exact ⟨rfl, rfl⟩
  · cases v_ops with
    | rawVops | ext2fsNoTypeOps | ext2fsSyncerOps => exact ⟨rfl, rfl⟩
    | rt11Vops | rt11VopsDir | rt11VopsSyncer => exact hrt11
    | _ => exact hext2

/-- What `vgetino` does. -/
theorem vgetino_cases (h : Lists m used free) {fuel : Nat} (hfuel : m.mnt_maxfiles ≤ fuel)
    (env : VopEnv) (inode : Nat) (pVnodeOps : VnodeOps) :
    (∃ n ∈ used, (m.vnode n).v_inode = inode ∧ vgetino fuel env m inode pVnodeOps =
      some (mountUnlock (vnodeLock (mountLock m) n), OK, some n)) ∨
    (∃ pre n post, free = pre ++ n :: post ∧ (m.vnode n).v_inode = inode ∧
      vgetino fuel env m inode pVnodeOps =
        some (mountUnlock (vnodeLock ((mountLock m).use n) n), OK, some n)) ∨
    (∀ n ∈ m.files, (m.vnode n).v_inode ≠ inode) ∧
      (free = [] ∧ vgetino fuel env m inode pVnodeOps =
        some (mountLock m, S_vfsLib_NOT_ENOUGH_VNODES, none) ∨
      ∃ n post, free = n :: post ∧ vgetino fuel env m inode pVnodeOps =
        some (recycle env (mountLock m) inode pVnodeOps n)) := by
  obtain ⟨hlenu, hlenf⟩ := h.length_le
  have hused : findLoop m.links.next (fun n => (m.vnode n).v_inode == inode) fuel
      m.mnt_vused.head = some (used.find? fun n => (m.vnode n).v_inode == inode) :=
    findLoop_spec h.vused.next (Nat.le_trans hlenu hfuel)
  have hfree : findLoop m.links.prev (fun n => (m.vnode n).v_inode == inode) fuel
      m.mnt_vlist.tail = some (free.reverse.find? fun n => (m.vnode n).v_inode == inode) :=
    findLoop_spec h.vlist.prev (by
      rw [List.length_reverse]
      exact Nat.le_trans hlenf hfuel)
  unfold vgetino mountLock
  dsimp only
  rw [hused]
  cases hfind : used.find? fun n => (m.vnode n).v_inode == inode with
  | some n =>
    have hfound := List.find?_some hfind
    exact .inl ⟨n, List.mem_of_find?_eq_some hfind, beq_iff_eq.1 hfound, rfl⟩
  | none =>
    dsimp only
    rw [hfree]
    cases hfind' : free.reverse.find? fun n => (m.vnode n).v_inode == inode with
    | some n =>
      have hmem := List.mem_reverse.1 (List.mem_of_find?_eq_some hfind')
      have hfound := List.find?_some hfind'
      obtain ⟨pre, post, rfl⟩ := List.append_of_mem hmem
      exact .inr (.inl ⟨pre, n, post, rfl, beq_iff_eq.1 hfound, rfl⟩)
    | none =>
      refine .inr (.inr ⟨fun n hn heq => ?_, ?_⟩)
      · obtain hu | hf := h.mem_files.1 hn
        · exact List.find?_eq_none.1 hfind n hu (beq_iff_eq.2 heq)
        · exact List.find?_eq_none.1 hfind' n (List.mem_reverse.2 hf) (beq_iff_eq.2 heq)
      · have hhead := h.vlist.next.head_eq
        dsimp only
        cases free with
        | nil =>
          rw [hhead]
          exact .inl ⟨rfl, rfl⟩
        | cons n post =>
          rw [hhead]
          exact .inr ⟨n, post, rfl, rfl⟩

/-- A vnode that is recycled has the inode, or none when its file system refuses it. -/
theorem table_recycle (h : Table m used (n :: post)) {inode : Nat}
    (hinode : ∀ k ∈ m.files, (m.vnode k).v_inode ≠ inode) (env : VopEnv) (pVnodeOps : VnodeOps) :
    let r := recycle env m inode pVnodeOps n
    Good r.1 ∧ r.1.mnt_lock = m.mnt_lock - 1 ∧
      (r.2.1 = OK ∧ r.2.2 = some n ∧ (r.1.vnode n).v_inode = inode ∧ 0 < (r.1.vnode n).v_count ∨
        r.2.1 = (vopActivate env pVnodeOps
          { m.vnode n with v_inode := inode, v_ops := some pVnodeOps }).1 ∧ r.2.1 ≠ OK ∧
          r.2.2 = none) := by
  have hzero := h.unused n List.mem_cons_self
  obtain ⟨hcount, hi⟩ := vopActivate_frame env pVnodeOps
    { m.vnode n with v_inode := inode, v_ops := some pVnodeOps }
  unfold recycle
  dsimp only
  split
  next herror =>
    have hset : Table (m.setVnode n { (vopActivate env pVnodeOps
        { m.vnode n with v_inode := inode, v_ops := some pVnodeOps }).2 with v_inode := 0 })
        used (n :: post) :=
      h.setInode List.mem_cons_self (hcount.trans hzero) (.inl rfl)
    exact ⟨⟨_, _, hset.mountUnlock⟩, rfl, .inr ⟨rfl, herror, rfl⟩⟩
  next =>
    have hset : Table (m.setVnode n (vopActivate env pVnodeOps
        { m.vnode n with v_inode := inode, v_ops := some pVnodeOps }).2) used ([] ++ n :: post) :=
      h.setInode List.mem_cons_self (hcount.trans hzero) (.inr fun k hk _ => hi ▸ hinode k hk)
    have huse := hset.use
    refine ⟨⟨_, _, huse.mountUnlock⟩, rfl, .inl ⟨rfl, rfl, ?_, ?_⟩⟩
    · unfold mountUnlock vnodeLock Mount.use Mount.setVnode
      dsimp only
      rw [Function.update_self, Function.update_self]
      exact hi
    · exact huse.in_use n (List.mem_append_right _ (List.mem_singleton_self n))

/-- What `vgetino` returns. -/
theorem vgetino_spec (h : Good m) {fuel : Nat} (hfuel : m.mnt_maxfiles ≤ fuel) (env : VopEnv)
    (inode : Nat) (pVnodeOps : VnodeOps) :
    ∃ m' error r, vgetino fuel env m inode pVnodeOps = some (m', error, r) ∧
      (error = OK → ∃ n, r = some n ∧ (m'.vnode n).v_inode = inode ∧ 0 < (m'.vnode n).v_count) ∧
      (error ≠ OK → r = none) ∧
      (error = S_vfsLib_NOT_ENOUGH_VNODES →
        (∀ vp, (vopActivate env pVnodeOps vp).1 ≠ S_vfsLib_NOT_ENOUGH_VNODES) →
        ∀ n ∈ m.files, 0 < (m.vnode n).v_count) ∧
      ((∃ n ∈ m.files, (m.vnode n).v_inode = inode ∨ (m.vnode n).v_count = 0) →
        Good m' ∧ m'.mnt_lock = m.mnt_lock) ∧
      ((∀ n ∈ m.files, (m.vnode n).v_inode ≠ inode ∧ (m.vnode n).v_count ≠ 0) →
        m'.mnt_lock ≠ m.mnt_lock) := by
  obtain ⟨used, free, ht⟩ := h
  have hok : OK ≠ S_vfsLib_NOT_ENOUGH_VNODES := by decide
  obtain ⟨n, hn, hi, hr⟩ | ⟨pre, n, post, rfl, hi, hr⟩ | ⟨hnone, ⟨rfl, hr⟩ | ⟨n, post, rfl, hr⟩⟩ :=
    vgetino_cases ht.toLists hfuel env inode pVnodeOps
  · -- the vnode is in use
    have hlock := ht.mountLock.vnodeLock hn
    have hself : (vnodeLock (mountLock m) n).vnode n =
        { m.vnode n with v_count := (m.vnode n).v_count + 1 } := Function.update_self ..
    refine ⟨_, _, _, hr, fun _ => ⟨n, rfl, ?_, hlock.in_use n hn⟩, fun hne => absurd rfl hne,
      fun heq => absurd heq hok, fun _ => ⟨⟨_, _, hlock.mountUnlock⟩, rfl⟩, fun hall => ?_⟩
    · show ((vnodeLock (mountLock m) n).vnode n).v_inode = inode
      rw [hself]
      exact hi
    · exact absurd hi (hall n (ht.mem_files.2 (.inl hn))).1
  · -- the vnode is on `mnt_vlist`
    have huse := ht.mountLock.use
    have hself : (vnodeLock ((mountLock m).use n) n).vnode n =
        { m.vnode n with v_count := (m.vnode n).v_count + 1 } := Function.update_self ..
    have hmem : n ∈ pre ++ n :: post := List.mem_append_right _ List.mem_cons_self
    refine ⟨_, _, _, hr, fun _ => ⟨n, rfl, ?_, huse.in_use n
      (List.mem_append_right _ (List.mem_singleton_self n))⟩, fun hne => absurd rfl hne,
      fun heq => absurd heq hok, fun _ => ⟨⟨_, _, huse.mountUnlock⟩, rfl⟩, fun hall => ?_⟩
    · show ((vnodeLock ((mountLock m).use n) n).vnode n).v_inode = inode
      rw [hself]
      exact hi
    · exact absurd hi (hall n (ht.mem_files.2 (.inr hmem))).1
  · -- every vnode is in use for another inode
    have hpos : ∀ n ∈ m.files, 0 < (m.vnode n).v_count := fun n hn =>
      ht.in_use n ((ht.mem_files.1 hn).resolve_right List.not_mem_nil)
    refine ⟨_, _, _, hr, fun heq => absurd heq.symm hok, fun _ => rfl, fun _ _ => hpos, ?_,
      fun _ => Nat.succ_ne_self _⟩
    intro ⟨n, hn, heq⟩
    have hcount := hpos n hn
    obtain heq | heq := heq
    · exact absurd heq (hnone n hn)
    · omega
  · -- the first vnode of `mnt_vlist` is recycled
    have hmem : n ∈ n :: post := List.mem_cons_self
    obtain ⟨hgood, hlock, hcase⟩ := table_recycle ht.mountLock hnone env pVnodeOps
    refine ⟨_, _, _, hr, fun heq => ?_, fun hne => ?_, fun heq hact => ?_,
      fun _ => ⟨hgood, hlock⟩, fun hall => ?_⟩
    · obtain ⟨_, hsome, hi, hpos⟩ | ⟨_, hne, _⟩ := hcase
      · exact ⟨n, hsome, hi, hpos⟩
      · exact absurd heq hne
    · obtain ⟨heq, _⟩ | ⟨_, _, hrnone⟩ := hcase
      · exact absurd heq hne
      · exact hrnone
    · obtain ⟨heq', _⟩ | ⟨heq', _⟩ := hcase
      · exact absurd (heq'.symm.trans heq) hok
      · exact absurd (heq'.symm.trans heq) (hact _)
    · exact absurd (ht.unused n hmem) (hall n (ht.mem_files.2 (.inr hmem))).2

/-- What `vnodeUnlock` does. -/
theorem vnodeUnlock_cases {env : VopEnv} {error : Int}
    (hr : vnodeUnlock env m n = some (m', error)) :
    ((m.vnode n).v_count ≠ 1 ∧
      m' = m.setVnode n { m.vnode n with v_count := (m.vnode n).v_count - 1 }) ∨
    ((m.vnode n).v_count = 1 ∧ ∃ v_ops, (m.vnode n).v_ops = some v_ops ∧
      (vopInactive env v_ops = OK ∧ m' = mountUnlock
        ((mountLock (m.setVnode n { m.vnode n with v_count := 0 })).release n) ∨
      vopInactive env v_ops ≠ OK ∧ m' = m.setVnode n { m.vnode n with v_count := 0 })) := by
  unfold vnodeUnlock at hr
  simp only [Mount.setVnode_self] at hr
  split at hr
  next hzero =>
    have hone : (m.vnode n).v_count = 1 := by omega
    obtain ⟨v_ops, hops, hr⟩ := Option.map_eq_some_iff.1 hr
    refine .inr ⟨hone, v_ops, hops, ?_⟩
    rw [hone] at hr
    split at hr
    next herror =>
      obtain ⟨rfl, _⟩ := Prod.mk.inj hr
      exact .inl ⟨herror, rfl⟩
    next herror =>
      obtain ⟨rfl, _⟩ := Prod.mk.inj hr
      exact .inr ⟨herror, rfl⟩
  next hzero =>
    cases hr
    exact .inl ⟨by omega, rfl⟩

/-- The one vnode that `vgetino` writes: none, one that is not used and loses its inode, or the
one that it returns. -/
theorem vgetino_frame (h : Good m) {fuel : Nat} (hfuel : m.mnt_maxfiles ≤ fuel) {env : VopEnv}
    {inode : Nat} {pVnodeOps : VnodeOps} {error : Int} {r : Option Nat}
    (hr : vgetino fuel env m inode pVnodeOps = some (m', error, r)) :
    Good m' ∧ m'.mnt_maxfiles = m.mnt_maxfiles ∧
      ((error ≠ OK ∧ r = none ∧ m'.vnode = m.vnode) ∨
      (error ≠ OK ∧ r = none ∧ ∃ n ∈ m.files, ∃ vp, (m.vnode n).v_count = 0 ∧
        m'.vnode = Function.update m.vnode n vp ∧ vp.v_count = 0 ∧ vp.v_inode = 0) ∨
      (error = OK ∧ ∃ n ∈ m.files, r = some n ∧ ∃ vp, m'.vnode = Function.update m.vnode n vp ∧
        vp.v_count = (m.vnode n).v_count + 1 ∧ vp.v_inode = inode ∧
        ((m.vnode n).v_inode = inode ∧ vp.v_ops = (m.vnode n).v_ops ∨
          (m.vnode n).v_count = 0 ∧ ∃ w, (vopActivate env pVnodeOps w).1 = OK ∧
            vp.v_ops = (vopActivate env pVnodeOps w).2.v_ops))) := by
  obtain ⟨used, free, ht⟩ := h
  have hlack : S_vfsLib_NOT_ENOUGH_VNODES ≠ OK := by decide
  obtain ⟨n, hn, hi, hr'⟩ | ⟨pre, n, post, rfl, hi, hr'⟩ |
    ⟨hnone, ⟨rfl, hr'⟩ | ⟨n, post, rfl, hr'⟩⟩ := vgetino_cases ht.toLists hfuel env inode pVnodeOps
  · obtain ⟨rfl, heq⟩ := Prod.mk.inj (Option.some.inj (hr.symm.trans hr'))
    obtain ⟨rfl, rfl⟩ := Prod.mk.inj heq
    exact ⟨⟨_, _, (ht.mountLock.vnodeLock hn).mountUnlock⟩, rfl, .inr (.inr ⟨rfl, n,
      ht.mem_files.2 (.inl hn), rfl, _, rfl, rfl, hi, .inl ⟨hi, rfl⟩⟩)⟩
  · obtain ⟨rfl, heq⟩ := Prod.mk.inj (Option.some.inj (hr.symm.trans hr'))
    obtain ⟨rfl, rfl⟩ := Prod.mk.inj heq
    have hmem : n ∈ pre ++ n :: post := List.mem_append_right _ List.mem_cons_self
    exact ⟨⟨_, _, ht.mountLock.use.mountUnlock⟩, rfl, .inr (.inr ⟨rfl, n,
      ht.mem_files.2 (.inr hmem), rfl, _, rfl, rfl, hi, .inl ⟨hi, rfl⟩⟩)⟩
  · obtain ⟨rfl, heq⟩ := Prod.mk.inj (Option.some.inj (hr.symm.trans hr'))
    obtain ⟨rfl, rfl⟩ := Prod.mk.inj heq
    exact ⟨⟨_, _, ht.mountLock⟩, rfl, .inl ⟨hlack, rfl, rfl⟩⟩
  · have hmem : n ∈ n :: post := List.mem_cons_self
    have hfiles := ht.mem_files.2 (.inr hmem)
    have hzero := ht.unused n hmem
    obtain ⟨hgood, _, _⟩ := table_recycle ht.mountLock hnone env pVnodeOps
    obtain ⟨w, hw⟩ : ∃ w, w = { m.vnode n with v_inode := inode, v_ops := some pVnodeOps } :=
      ⟨_, rfl⟩
    obtain ⟨hcount, hi⟩ := vopActivate_frame env pVnodeOps w
    have hrec := Option.some.inj (hr.symm.trans hr')
    rw [← hrec] at hgood
    refine ⟨hgood, ?_⟩
    unfold recycle at hrec
    dsimp only [mountLock] at hrec
    rw [← hw] at hrec
    split at hrec
    next herror =>
      obtain ⟨rfl, heq⟩ := Prod.mk.inj hrec
      obtain ⟨rfl, rfl⟩ := Prod.mk.inj heq
      refine ⟨rfl, .inr (.inl ⟨herror, rfl, n, hfiles, _, hzero, rfl, ?_, rfl⟩)⟩
      rw [hcount, hw]
      exact hzero
    next herror =>
      obtain ⟨rfl, heq⟩ := Prod.mk.inj hrec
      obtain ⟨rfl, rfl⟩ := Prod.mk.inj heq
      have hok := not_not.1 herror
      refine ⟨rfl, .inr (.inr ⟨rfl, n, hfiles, rfl, { (vopActivate env pVnodeOps w).2 with
        v_count := (m.vnode n).v_count + 1 }, ?_, rfl, ?_, .inr ⟨hzero, w, hok, rfl⟩⟩)⟩
      · unfold mountUnlock vnodeLock Mount.use Mount.setVnode
        dsimp only
        rw [Function.update_self, Function.update_idem, hcount, hw]
      · rw [hi, hw]

/-! ## Runs -/

/-- `vgetino` is called for an inode that a vnode has, or when a vnode can be had; and when the
last use of a vnode ends, its file system lets it go if and only if it is for files. -/
def Sound (m : Mount) : Op → Prop
  | .vgetino _ inode _ =>
    ∃ n ∈ m.files, (m.vnode n).v_inode = inode ∨ (m.vnode n).v_count = 0
  | .vnodeUnlock env pVnode =>
    (m.vnode pVnode).v_count = 1 → ∀ v_ops ∈ (m.vnode pVnode).v_ops,
      vopInactive env v_ops = OK ↔ pVnode ≠ m.mnt_syncer
  | _ => True

instance (m : Mount) : ∀ op, Decidable (Sound m op)
  | .vgetino _ inode _ => inferInstanceAs (Decidable
      (∃ n ∈ m.files, (m.vnode n).v_inode = inode ∨ (m.vnode n).v_count = 0))
  | .vnodeUnlock env pVnode => inferInstanceAs (Decidable
      ((m.vnode pVnode).v_count = 1 → ∀ v_ops ∈ (m.vnode pVnode).v_ops,
        vopInactive env v_ops = OK ↔ pVnode ≠ m.mnt_syncer))
  | .vnodeLock _ => inferInstanceAs (Decidable True)
  | .mountLock => inferInstanceAs (Decidable True)
  | .mountUnlock => inferInstanceAs (Decidable True)

/-- How often the lock is held after a call: only the callers' own locking changes it. -/
def lockAfter (m : Mount) : Op → Nat
  | .mountLock => m.mnt_lock + 1
  | .mountUnlock => m.mnt_lock - 1
  | _ => m.mnt_lock

theorem mnt_lock_unlock {env : VopEnv} {error : Int}
    (hr : vnodeUnlock env m n = some (m', error)) : m'.mnt_lock = m.mnt_lock := by
  obtain ⟨_, rfl⟩ | ⟨_, _, _, ⟨_, rfl⟩ | ⟨_, rfl⟩⟩ := vnodeUnlock_cases hr
  · rfl
  · exact Nat.add_sub_cancel m.mnt_lock 1
  · rfl

theorem good_vnodeLock (h : Good m) (hn : n ≤ m.mnt_maxfiles)
    (hpos : n = m.mnt_syncer ∨ 0 < (m.vnode n).v_count) : Good (vnodeLock m n) := by
  obtain ⟨used, free, ht⟩ := h
  rcases ht.syncer_or hn with rfl | hu | hf
  · have hu : 0 ∉ used := fun hm => ht.ne_syncer (.inl hm) rfl
    have hf : 0 ∉ free := fun hm => ht.ne_syncer (.inr hm) rfl
    exact ⟨_, _, ht.setCount (fun hm => absurd hm hu) hf⟩
  · exact ⟨_, _, ht.vnodeLock hu⟩
  · have hzero := ht.unused n hf
    have hne := ht.ne_syncer (.inr hf)
    rw [ht.syncer] at hpos
    omega

theorem good_vnodeUnlock {env : VopEnv} {error : Int} (h : Good m) (hn : n ≤ m.mnt_maxfiles)
    (hpos : 0 < (m.vnode n).v_count) (hsound : Sound m (.vnodeUnlock env n))
    (hr : vnodeUnlock env m n = some (m', error)) : Good m' := by
  obtain ⟨used, free, ht⟩ := h
  have hf : n ∉ free := by
    intro hf
    have hzero := ht.unused n hf
    omega
  obtain ⟨hne, rfl⟩ | ⟨hone, v_ops, hops, ⟨herror, rfl⟩ | ⟨herror, rfl⟩⟩ := vnodeUnlock_cases hr
  · refine ⟨_, _, ht.setCount (fun _ => ?_) hf⟩
    omega
  · -- a vnode for a file
    have hsyncer := (hsound hone v_ops hops).1 herror
    rw [ht.syncer] at hsyncer
    have hu : n ∈ used := by
      have hor := ht.syncer_or hn
      tauto
    obtain ⟨pre, post, rfl⟩ := List.append_of_mem hu
    exact ⟨_, _, (ht.mountLock.release).mountUnlock⟩
  · -- the syncer
    have hsyncer : n = m.mnt_syncer := by
      by_contra hne
      exact herror ((hsound hone v_ops hops).2 hne)
    rw [ht.syncer] at hsyncer
    have hu : n ∉ used := fun hu => ht.ne_syncer (.inl hu) hsyncer.symm
    exact ⟨_, _, ht.setCount (fun hm => absurd hm hu) hf⟩

/-- A vnode that its file system keeps, and the syncer, break the lists. -/
theorem not_good_vnodeUnlock {env : VopEnv} {error : Int} (h : Good m) (hn : n ≤ m.mnt_maxfiles)
    (hsound : ¬ Sound m (.vnodeUnlock env n))
    (hr : vnodeUnlock env m n = some (m', error)) : ¬ Good m' := by
  obtain ⟨used, free, ht⟩ := h
  intro ⟨used', free', ht'⟩
  rw [Sound] at hsound
  push Not at hsound
  obtain ⟨hone, v_ops, hops, hiff⟩ := hsound
  rw [ht.syncer] at hiff
  obtain ⟨hne, _⟩ | ⟨_, v_ops', hops', hcase⟩ := vnodeUnlock_cases hr
  · exact hne hone
  obtain rfl := Option.some.inj (hops'.symm.trans hops)
  have hf : n ∉ free := by
    intro hf
    have hzero := ht.unused n hf
    omega
  obtain ⟨herror, rfl⟩ | ⟨herror, rfl⟩ := hcase
  · -- the syncer is the last vnode of `mnt_vlist`
    have hsyncer : n = 0 := by tauto
    subst hsyncer
    have htail := ht'.vlist.tail_eq
    unfold mountUnlock mountLock Mount.release Mount.setVnode at htail
    dsimp only at htail
    rw [listRemove_alone ht.syncer_next ht.syncer_prev, listAdd_eq ht.vlist] at htail
    exact ht'.ne_syncer (.inr (List.mem_of_getLast? htail.symm)) rfl
  · -- the vnode is on `mnt_vused`, with no use
    have hu : n ∈ used := by
      have hor := ht.syncer_or hn
      tauto
    have heq : used' = used := ht'.vused.next.unique ht.vused.next
    have hpos := ht'.in_use n (heq ▸ hu)
    rw [Mount.setVnode_self] at hpos
    exact absurd hpos (Int.lt_irrefl 0)

/-- A call keeps the table and the lock if and only if it meets the condition. -/
theorem good_step {op : Op} (h : Good m) (hs : step m op = some m') :
    Good m' ∧ m'.mnt_lock = lockAfter m op ↔ Sound m op := by
  cases op with
  | vgetino env inode pVnodeOps =>
    obtain ⟨r, hr, rfl⟩ := Option.map_eq_some_iff.1 hs
    obtain ⟨m', error, found, hr', _, _, _, hkeep, hlose⟩ :=
      vgetino_spec h (Nat.le_succ _) env inode pVnodeOps
    obtain rfl := Option.some.inj (hr.symm.trans hr')
    constructor
    · intro ⟨_, hlock⟩
      by_contra hsound
      rw [Sound] at hsound
      push Not at hsound
      exact hlose hsound hlock
    · exact hkeep
  | vnodeLock pVnode =>
    obtain ⟨⟨hn, hpos⟩, rfl⟩ := guard_some.1 hs
    exact iff_of_true ⟨good_vnodeLock h hn hpos, rfl⟩ trivial
  | vnodeUnlock env pVnode =>
    rw [step, Option.ite_none_right_eq_some] at hs
    obtain ⟨⟨hn, hpos⟩, hm⟩ := hs
    obtain ⟨r, hr, rfl⟩ := Option.map_eq_some_iff.1 hm
    constructor
    · intro ⟨hgood, _⟩
      by_contra hsound
      exact not_good_vnodeUnlock h hn hsound hr hgood
    · exact fun hsound => ⟨good_vnodeUnlock h hn hpos hsound hr, mnt_lock_unlock hr⟩
  | mountLock =>
    cases hs
    obtain ⟨used, free, ht⟩ := h
    exact iff_of_true ⟨⟨_, _, ht.mountLock⟩, rfl⟩ trivial
  | mountUnlock =>
    obtain ⟨_, rfl⟩ := guard_some.1 hs
    obtain ⟨used, free, ht⟩ := h
    exact iff_of_true ⟨⟨_, _, ht.mountUnlock⟩, rfl⟩ trivial

theorem addFiles_spec (i : Nat) :
    IsList (addFiles i).1 (addFiles i).2 (List.range' 1 i) ∧ (addFiles i).1.next 0 = none ∧
      (addFiles i).1.prev 0 = none := by
  induction i with
  | zero => exact ⟨isList_init _, rfl, rfl⟩
  | succ i ih =>
    obtain ⟨hlist, hnext, hprev⟩ := ih
    have hn : i + 1 ∉ List.range' 1 i := by
      rw [List.mem_range'_1]
      omega
    have h0 : 0 ∉ List.range' 1 i := by
      rw [List.mem_range'_1]
      omega
    obtain ⟨hnext', hprev'⟩ := listAdd_links hlist (Nat.succ_ne_zero i).symm h0
    refine ⟨?_, hnext'.trans hnext, hprev'.trans hprev⟩
    rw [List.range'_concat, Nat.one_mul, Nat.add_comm 1 i]
    exact isList_add hlist hn

theorem good_mountCreate (maxFiles : Nat) (syncerOps : VnodeOps) :
    Good (mountCreate maxFiles syncerOps) := by
  obtain ⟨hlist, hnext, hprev⟩ := addFiles_spec maxFiles
  have hempty : ∀ n ∈ List.range' 1 maxFiles, (mountCreate maxFiles syncerOps).vnode n =
      emptyVnode := by
    intro n hn
    rw [List.mem_range'_1] at hn
    have hne : n ≠ 0 := by omega
    unfold mountCreate
    dsimp only
    rw [Function.update_of_ne hne]
  refine ⟨[], List.range' 1 maxFiles, ⟨⟨isList_init _, hlist, List.Perm.refl _, rfl, hnext, hprev⟩,
    fun n hn => absurd hn List.not_mem_nil, fun n hn => ?_, fun a ha b hb _ hnz => ?_⟩⟩
  · rw [hempty n hn]
    rfl
  · rw [hempty a ha] at hnz
    exact absurd rfl hnz

/-- The vnodes of a mount after a run whose calls all meet the condition: the table is good,
`vgetino` gives a vnode of the inode or an error, and lacks vnodes only when all are in use.
A call keeps the table and the lock if and only if it meets the condition. -/
theorem vnode_table {maxFiles : Nat} {syncerOps : VnodeOps} {ops : List Op}
    (hsound : AllSteps step Sound (mountCreate maxFiles syncerOps) ops)
    (hrun : exec step (mountCreate maxFiles syncerOps) ops = some m) :
    Good m ∧
      (∀ fuel env inode pVnodeOps, m.mnt_maxfiles ≤ fuel →
        ∃ m' error r, vgetino fuel env m inode pVnodeOps = some (m', error, r) ∧
          (error = OK →
            ∃ n, r = some n ∧ (m'.vnode n).v_inode = inode ∧ 0 < (m'.vnode n).v_count) ∧
          (error ≠ OK → r = none) ∧
          (error = S_vfsLib_NOT_ENOUGH_VNODES →
            (∀ vp, (vopActivate env pVnodeOps vp).1 ≠ S_vfsLib_NOT_ENOUGH_VNODES) →
            ∀ n ∈ m.files, 0 < (m.vnode n).v_count)) ∧
      ∀ op m', step m op = some m' →
        (Good m' ∧ m'.mnt_lock = lockAfter m op ↔ Sound m op) := by
  have hgood : Good m :=
    exec_invariant_of (fun _ _ _ h hs hstep => ((good_step h hstep).2 hs).1)
      (good_mountCreate maxFiles syncerOps) hsound hrun
  refine ⟨hgood, fun fuel env inode pVnodeOps hfuel => ?_, fun op m' hs => good_step hgood hs⟩
  obtain ⟨m', error, r, hr, hok, hnone, hlack, _⟩ :=
    vgetino_spec hgood hfuel env inode pVnodeOps
  exact ⟨m', error, r, hr, hok, hnone, hlack⟩

/-- What the operators meet when there is memory. -/
def exampleEnv : VopEnv := { fail := none, malloc := true, inodeGet := OK, i_mode := 0 }

/-- The root of an RT-11 volume is used and let go. -/
def exampleOps : List Op :=
  [.mountLock, .vgetino exampleEnv RT11FS_ROOT_INODE .rt11Vops, .vnodeUnlock exampleEnv 1,
    .mountUnlock]

theorem vnode_table_root :
    ∃ m, exec step (mountCreate 2 .rt11VopsSyncer) exampleOps = some m ∧ Good m ∧
      ∃ m' error r, vgetino 2 exampleEnv m RT11FS_ROOT_INODE .rt11Vops = some (m', error, r) ∧
        (error = OK → ∃ n, r = some n ∧ (m'.vnode n).v_inode = RT11FS_ROOT_INODE) := by
  have hsound : AllSteps step Sound (mountCreate 2 .rt11VopsSyncer) exampleOps := by
    decide
  have hmax : (exec step (mountCreate 2 .rt11VopsSyncer) exampleOps).map Mount.mnt_maxfiles =
      some 2 := by decide
  obtain ⟨m, hrun, hfiles⟩ := Option.map_eq_some_iff.1 hmax
  obtain ⟨hgood, hcall, _⟩ := vnode_table hsound hrun
  obtain ⟨m', error, r, hr, hok, _⟩ :=
    hcall 2 exampleEnv RT11FS_ROOT_INODE .rt11Vops (Nat.le_of_eq hfiles)
  refine ⟨m, hrun, hgood, m', error, r, hr, fun heq => ?_⟩
  obtain ⟨n, hn, hi, _⟩ := hok heq
  exact ⟨n, hn, hi⟩

/-- One vnode, and a second inode: `vgetino` returns with the lock held.  An inode of an ext2
volume that nobody uses any more stays on `mnt_vused`.  A request that takes and lets go the
syncer empties `mnt_vused`, where a vnode is in use. -/
theorem vnode_table_broken :
    ((exec step (mountCreate 1 .rt11VopsSyncer)
        [.vgetino exampleEnv RT11FS_ROOT_INODE .rt11Vops, .vgetino exampleEnv 3 .rt11Vops]).map
        fun m => m.mnt_lock) = some 1 ∧
    ((exec step (mountCreate 1 .ext2fsSyncerOps)
        [.vgetino exampleEnv 2 .ext2fsOps, .vnodeUnlock exampleEnv 1]).map
        fun m => (m.mnt_vused.head, (m.vnode 1).v_count)) = some (some 1, 0) ∧
    ((exec step (mountCreate 1 .rt11VopsSyncer)
        [.vgetino exampleEnv RT11FS_ROOT_INODE .rt11Vops, .vnodeLock 0,
          .vnodeUnlock exampleEnv 0]).map
        fun m => (m.mnt_vused.head, m.mnt_vlist.tail, (m.vnode 1).v_count)) =
      some (none, some 0, 1) := by
  refine ⟨?_, ?_, ?_⟩ <;> decide

end Vmx.Vfs
