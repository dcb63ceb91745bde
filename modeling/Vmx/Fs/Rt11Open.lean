import Vmx.Fs.Rt11Extents

/-!
# Open files of an RT-11 volume

A vnode stands for the entry whose number its inode is.  `Located` says where a file is: at
which entry, and at which block.  Files stay located when entries before them are replaced by
as many entries with as many blocks.  The close of a new file need not do that: the entry that
it inserts moves every entry behind it, so it may only run while no file behind is open, or
when as many entries are merged as are inserted.
-/

namespace Vmx.Rt11

open Lib Vfs

variable {l l' pre post X E rest : List DirEntry} {e f p : DirEntry} {start st : Int} {i : Nat}
  {name : Name}

/-! ## Where a file is -/

/-- Entry `i` is a file with the name, and starts at block `st`. -/
def Located (start : Int) (l : List DirEntry) (i : Nat) (name : Name) (st : Int) : Prop :=
  ∃ pre e post, l = pre ++ e :: post ∧ i = pre.length ∧
    (e.de_status = DES_PERMANENT ∨ e.de_status = DES_TENTATIVE) ∧ e.de_name = name ∧
    st = start + sumBlocks pre

/-- Two places of a list: the same one, or one behind the other. -/
theorem split_cases {pre' post' : List DirEntry} {e' : DirEntry}
    (h : pre ++ e :: post = pre' ++ e' :: post') :
    (pre' = pre ∧ e' = e ∧ post' = post) ∨
    (∃ mid, pre = pre' ++ e' :: mid ∧ post' = mid ++ e :: post) ∨
    ∃ mid, post = mid ++ e' :: post' ∧ pre' = pre ++ e :: mid := by
  induction pre generalizing pre' with
  | nil =>
    cases pre' with
    | nil =>
      obtain ⟨rfl, rfl⟩ := List.cons.inj h
      exact .inl ⟨rfl, rfl, rfl⟩
    | cons g pre' =>
      obtain ⟨rfl, rfl⟩ := List.cons.inj h
      exact .inr (.inr ⟨pre', rfl, rfl⟩)
  | cons g pre ih =>
    cases pre' with
    | nil =>
      obtain ⟨rfl, rfl⟩ := List.cons.inj h
      exact .inr (.inl ⟨pre, rfl, rfl⟩)
    | cons g' pre' =>
      obtain ⟨rfl, htail⟩ := List.cons.inj h
      obtain ⟨rfl, rfl, rfl⟩ | ⟨mid, rfl, rfl⟩ | ⟨mid, rfl, rfl⟩ := ih htail
      · exact .inl ⟨rfl, rfl, rfl⟩
      · exact .inr (.inl ⟨mid, rfl, rfl⟩)
      · exact .inr (.inr ⟨mid, rfl, rfl⟩)

namespace Located

/-- One entry is one file. -/
theorem unique {name' : Name} {st' : Int} (h : Located start l i name st)
    (h' : Located start l i name' st') : name = name' ∧ st = st' := by
  obtain ⟨pre, e, post, rfl, rfl, _, rfl, rfl⟩ := h
  obtain ⟨pre', e', post', heq, hi, _, rfl, rfl⟩ := h'
  obtain ⟨rfl, rfl, rfl⟩ | ⟨mid, rfl, rfl⟩ | ⟨mid, rfl, rfl⟩ := split_cases heq
  · exact ⟨rfl, rfl⟩
  · rw [List.length_append, List.length_cons] at hi
    omega
  · rw [List.length_append, List.length_cons] at hi
    omega

/-- A file is not at an empty entry. -/
theorem ne_of_empty (h : Located start (pre ++ e :: post) i name st)
    (he : e.de_status = DES_EMPTY) : i ≠ pre.length := by
  obtain ⟨pre', e', post', heq, rfl, hfile, _⟩ := h
  obtain ⟨rfl, rfl, rfl⟩ | ⟨mid, rfl, rfl⟩ | ⟨mid, rfl, rfl⟩ := split_cases heq
  · rw [he] at hfile
    obtain hfile | hfile := hfile
    · exact absurd hfile (by decide)
    · exact absurd hfile (by decide)
  · rw [List.length_append, List.length_cons]
    omega
  · rw [List.length_append, List.length_cons]
    omega

/-- What is behind a file does not matter. -/
theorem before (h : Located start (pre ++ e :: post) i name st) (hi : i < pre.length)
    (l' : List DirEntry) : Located start (pre ++ l') i name st := by
  obtain ⟨pre', e', post', heq, rfl, hfile, hname, hst⟩ := h
  obtain ⟨rfl, rfl, rfl⟩ | ⟨mid, rfl, rfl⟩ | ⟨mid, rfl, rfl⟩ := split_cases heq
  · omega
  · exact ⟨pre', e', mid ++ l', by simp, rfl, hfile, hname, hst⟩
  · rw [List.length_append, List.length_cons] at hi
    omega

/-- The entries up to the last one that changes are as many, with as many blocks. -/
theorem behind (h : Located start (pre ++ e :: (X ++ rest)) i name st) (hi : pre.length < i)
    (hX : ∀ f ∈ X, f.de_status = DES_EMPTY) (hlen : E.length = X.length)
    (hsum : p.blocks + sumBlocks E = e.blocks + sumBlocks X) :
    Located start (pre ++ p :: (E ++ rest)) i name st := by
  obtain ⟨pre', e', post', heq, rfl, hfile, hname, rfl⟩ := h
  obtain ⟨rfl, rfl, rfl⟩ | ⟨mid, rfl, rfl⟩ | ⟨mid, hmid, rfl⟩ := split_cases heq
  · omega
  · rw [List.length_append, List.length_cons] at hi
    omega
  · -- the file is behind the empty entries
    obtain ⟨back, rfl, rfl⟩ : ∃ back, mid = X ++ back ∧ rest = back ++ e' :: post' := by
      obtain ⟨a, rfl, hrest⟩ | ⟨c, hX', hrest⟩ := List.append_eq_append_iff.1 hmid
      · exact ⟨a, rfl, hrest⟩
      · cases c with
        | nil =>
          rw [List.append_nil] at hX'
          exact ⟨[], by rw [hX', List.append_nil], hrest.symm⟩
        | cons g c =>
          obtain ⟨rfl, _⟩ := List.cons.inj hrest
          have hempty := hX e' (by
            rw [hX']
            exact List.mem_append_right _ List.mem_cons_self)
          rw [hempty] at hfile
          obtain hfile | hfile := hfile
          · exact absurd hfile (by decide)
          · exact absurd hfile (by decide)
    refine ⟨pre ++ p :: (E ++ back), e', post', by simp, ?_, hfile, hname, ?_⟩
    · simp only [List.length_append, List.length_cons]
      omega
    · simp only [sumBlocks_append, sumBlocks_cons]
      omega

/-- An empty entry becomes a file. -/
theorem create (h : Located start (pre ++ e :: post) i name st) (he : e.de_status = DES_EMPTY)
    (hblocks : f.blocks = e.blocks) : Located start (pre ++ f :: post) i name st := by
  have hne := h.ne_of_empty he
  by_cases hi : i < pre.length
  · exact h.before hi _
  · have hX : ∀ f ∈ ([] : List DirEntry), f.de_status = DES_EMPTY := fun f hf =>
      absurd hf List.not_mem_nil
    exact behind (X := []) (E := []) h (by omega) hX rfl (by rw [hblocks])

end Located

/-! ## What the operators do to the open files -/

variable {s s' : Vol} {h : Handle}

/-- The entries from number `k` on. -/
def dirList (ds_entries : Nat → DirEntry) : Nat → Nat → List DirEntry
  | 0, _ => []
  | fuel + 1, k =>
    if (ds_entries k).de_status = DES_END then []
    else ds_entries k :: dirList ds_entries fuel (k + 1)

theorem dirList_eq {es : Nat → DirEntry} {k fuel : Nat} (hdir : DirAt es k l)
    (hlen : l.length < fuel) : dirList es fuel k = l := by
  induction l generalizing k fuel with
  | nil =>
    obtain ⟨fuel, rfl⟩ : ∃ m, fuel = m + 1 := ⟨fuel - 1, by omega⟩
    have hend : (es k).de_status = DES_END := hdir
    rw [dirList, if_pos hend]
  | cons e l ih =>
    obtain ⟨fuel, rfl⟩ : ∃ m, fuel = m + 1 := ⟨fuel - 1, by omega⟩
    obtain ⟨hk, he, htail⟩ := hdir
    rw [List.length_cons] at hlen
    rw [dirList, hk, if_neg he, ih htail (by omega)]

/-- A reference to a file has the inode of the file's entry, and the file's start block. -/
def Own (s : Vol) (l : List DirEntry) (h : Handle) : Prop :=
  ∀ name st, h.file = some (name, st) →
    ∃ i, (s.mount.vnode h.vnode).v_inode = i + RT11FS_FILE_INODE_BASE ∧
      Located s.vd_pDirSeg.ds_start l i name st ∧ (s.desc h.vnode).rfd_startBlock = st

/-- The directory, and every open file at its own entry. -/
def OpenInv (s : Vol) (l : List DirEntry) : Prop := VolInv s l ∧ ∀ h ∈ s.handles, Own s l h

/-- When a new file is closed, no file behind it is open, or its blocks fit into its entry and
the directory gets no longer and no shorter. -/
def SoundOpen (s : Vol) : Op → Prop
  | .close h =>
    (s.desc h.vnode).rfd_dirEntry.de_status = DES_TENTATIVE →
    ∀ h' ∈ s.handles, h'.file ≠ none →
      (s.mount.vnode h.vnode).v_inode < (s.mount.vnode h'.vnode).v_inode →
      fileBlocks (s.desc h.vnode) ≤ (s.desc h.vnode).rfd_dirEntry.blocks ∧
        (closedRest (s.desc h.vnode) (dirList s.vd_pDirSeg.ds_entries s.vd_maxEntries
          ((s.mount.vnode h.vnode).v_inode - RT11FS_FILE_INODE_BASE + 1))).length =
        (dirList s.vd_pDirSeg.ds_entries s.vd_maxEntries
          ((s.mount.vnode h.vnode).v_inode - RT11FS_FILE_INODE_BASE + 1)).length
  | _ => True

instance (s : Vol) : ∀ op, Decidable (SoundOpen s op)
  | .close h => inferInstanceAs (Decidable
      ((s.desc h.vnode).rfd_dirEntry.de_status = DES_TENTATIVE →
        ∀ h' ∈ s.handles, h'.file ≠ none →
          (s.mount.vnode h.vnode).v_inode < (s.mount.vnode h'.vnode).v_inode →
          fileBlocks (s.desc h.vnode) ≤ (s.desc h.vnode).rfd_dirEntry.blocks ∧
            (closedRest (s.desc h.vnode) (dirList s.vd_pDirSeg.ds_entries s.vd_maxEntries
              ((s.mount.vnode h.vnode).v_inode - RT11FS_FILE_INODE_BASE + 1))).length =
            (dirList s.vd_pDirSeg.ds_entries s.vd_maxEntries
              ((s.mount.vnode h.vnode).v_inode - RT11FS_FILE_INODE_BASE + 1)).length))
  | .root _ => inferInstanceAs (Decidable True)
  | .lookup _ _ => inferInstanceAs (Decidable True)
  | .create _ _ _ => inferInstanceAs (Decidable True)
  | .write _ _ _ _ => inferInstanceAs (Decidable True)
  | .unlock _ => inferInstanceAs (Decidable True)
  | .remove => inferInstanceAs (Decidable True)

/-- A reference is not touched when its inode and the start block of its vnode stay, and the
file stays located. -/
theorem Own.of_keep (hown : Own s l h)
    (hinode : (s'.mount.vnode h.vnode).v_inode = (s.mount.vnode h.vnode).v_inode)
    (hdesc : (s'.desc h.vnode).rfd_startBlock = (s.desc h.vnode).rfd_startBlock)
    (hloc : ∀ i name st, (s.mount.vnode h.vnode).v_inode = i + RT11FS_FILE_INODE_BASE →
      Located s.vd_pDirSeg.ds_start l i name st →
      Located s'.vd_pDirSeg.ds_start l' i name st) : Own s' l' h := by
  intro name st hfile
  obtain ⟨i, hi, hat, hst⟩ := hown name st hfile
  exact ⟨i, hinode.trans hi, hloc i name st hi hat, hdesc.trans hst⟩

/-- A lookup hands out the vnode of the file that it finds. -/
theorem OpenInv.lookup {malloc : Bool} {name : Name} (hinv : OpenInv s l)
    (hs : step s (.lookup malloc name) = some s') : OpenInv s' l := by
  obtain ⟨hvol, hown⟩ := hinv
  refine ⟨(hvol.lookup hs).1, ?_⟩
  obtain ⟨⟨s₁, error, r⟩, hr, rfl⟩ := Option.map_eq_some_iff.1 hs
  obtain ⟨m', hkeep, ⟨_, rfl, rfl, hm⟩ |
    ⟨_, n, pre, e, post, rfl, rfl, he, hname, hn, rfl, hm⟩⟩ :=
    lookup_cases hvol.dir hvol.len hvol.mount hr
  · intro h hh
    exact (hown h hh).of_keep (hkeep h hh) rfl fun _ _ _ _ hat => hat
  · have hfound : Located s.vd_pDirSeg.ds_start (pre ++ e :: post) pre.length name
        (s.vd_pDirSeg.ds_start + sumBlocks pre) :=
      ⟨pre, e, post, rfl, rfl, .inl he, hname, rfl⟩
    refine List.forall_mem_cons.2 ⟨?_, fun h hh => ?_⟩
    · intro name' st hfile
      dsimp only [handOut, Option.map] at hfile ⊢
      cases hfile
      rw [Function.update_self]
      exact ⟨pre.length, hn, hfound, rfl⟩
    · by_cases hv : h.vnode = n
      · -- the file was open already
        intro name' st hfile
        obtain ⟨i, hi, hat, hst⟩ := hown h hh name' st hfile
        have hindex : i = pre.length := by
          rw [← hkeep h hh, hv, hn] at hi
          omega
        subst hindex
        obtain ⟨rfl, rfl⟩ := hat.unique hfound
        refine ⟨pre.length, by rw [hv]; exact hn, hfound, ?_⟩
        dsimp only [handOut]
        rw [hv, Function.update_self]
      · refine (hown h hh).of_keep (hkeep h hh) ?_ fun _ _ _ _ hat => hat
        dsimp only [handOut]
        rw [Function.update_of_ne hv]

/-- A creation takes an empty entry, so no open file is at it. -/
theorem OpenInv.create {malloc : Bool} {name : Name} {currDate : Nat} (hinv : OpenInv s l)
    (hs : step s (.create malloc name currDate) = some s') : ∃ l', OpenInv s' l' := by
  obtain ⟨hvol, hown⟩ := hinv
  obtain ⟨l', hvol', _⟩ := hvol.create hs
  refine ⟨l', hvol', ?_⟩
  have hdir' := hvol'.dir
  obtain ⟨⟨s₁, error, r⟩, hr, rfl⟩ := Option.map_eq_some_iff.1 hs
  obtain ⟨m', hkeep, ⟨_, rfl, rfl, hm⟩ |
    ⟨_, n, pre, e, post, f, rfl, rfl, he, hnone, hroom, hf, hn, rfl, hm⟩⟩ :=
    create_cases hvol.dir hvol.len hvol.mount hr
  · obtain rfl := hdir'.unique hvol.dir
    intro h hh
    exact (hown h hh).of_keep (hkeep h hh) rfl fun _ _ _ _ hat => hat
  · have hstatus : f.de_status = DES_TENTATIVE := by rw [hf]
    have hblocks : f.blocks = e.blocks := by
      rw [hf]
      rfl
    have hend : f.de_status ≠ DES_END := by
      rw [hstatus]
      decide
    obtain rfl : l' = pre ++ f :: post := hdir'.unique (hvol.dir.put hend)
    have hfound : Located s.vd_pDirSeg.ds_start (pre ++ f :: post) pre.length name
        (s.vd_pDirSeg.ds_start + sumBlocks pre) :=
      ⟨pre, f, post, rfl, rfl, .inr hstatus, by rw [hf], rfl⟩
    refine List.forall_mem_cons.2 ⟨?_, fun h hh => ?_⟩
    · intro name' st hfile
      dsimp only [handOut, Option.map] at hfile ⊢
      cases hfile
      rw [Function.update_self]
      exact ⟨pre.length, hn, hfound, rfl⟩
    · intro name' st hfile
      obtain ⟨i, hi, hat, hst⟩ := hown h hh name' st hfile
      have hv : h.vnode ≠ n := by
        intro hv
        refine hat.ne_of_empty he ?_
        rw [← hkeep h hh, hv, hn] at hi
        omega
      refine ⟨i, (hkeep h hh).trans hi, hat.create he hblocks, ?_⟩
      dsimp only [handOut]
      rw [Function.update_of_ne hv]
      exact hst

/-- The close of a new file. -/
theorem OpenInv.vopClose (hinv : OpenInv s l) (hh : h ∈ s.handles) (hfile : h.file ≠ none)
    (hsound : SoundOpen s (.close h)) (hr : rt11VopClose s h.vnode = some s') :
    ∃ l', OpenInv s' l' := by
  obtain ⟨hvol, hown⟩ := hinv
  obtain ⟨l', hvol', _, _, _, hhandles⟩ := hvol.vopClose hh hfile hr
  refine ⟨l', hvol', ?_⟩
  rw [hhandles]
  have hdir' := hvol'.dir
  by_cases htent : (s.desc h.vnode).rfd_dirEntry.de_status = DES_TENTATIVE
  · obtain ⟨pre, post, rfl, hi, _⟩ := hvol.tent h hh hfile htent
    obtain ⟨seg, d, hclose, hstart, _, hdstart, hdir⟩ :=
      close_tentative hvol.dir hvol.len htent hi
    obtain rfl := Option.some.inj (hr.symm.trans hclose)
    obtain rfl := hdir'.unique hdir
    intro h' hh'
    have hkeep : (Function.update s.desc h.vnode d h'.vnode).rfd_startBlock =
        (s.desc h'.vnode).rfd_startBlock := by
      by_cases hv : h'.vnode = h.vnode
      · rw [hv, Function.update_self, hdstart]
      · rw [Function.update_of_ne hv]
    intro name st hfile'
    obtain ⟨i, hi', hat, hst⟩ := hown h' hh' name st hfile'
    refine ⟨i, hi', ?_, hkeep.trans hst⟩
    dsimp only
    rw [hstart]
    obtain hlt | rfl | hgt := Nat.lt_trichotomy i pre.length
    · exact hat.before hlt _
    · -- the new file itself
      obtain ⟨rfl, rfl⟩ := hat.unique ⟨pre, _, post, rfl, rfl, .inr htent, rfl, rfl⟩
      exact ⟨pre, _, _, rfl, rfl, .inl rfl, rfl, rfl⟩
    · have hlt : (s.mount.vnode h.vnode).v_inode < (s.mount.vnode h'.vnode).v_inode := by omega
      have hne : h'.file ≠ none := by
        rw [hfile']
        exact Option.some_ne_none _
      obtain ⟨hfit, hlength⟩ := hsound htent h' hh' hne hlt
      have hpost : dirList s.vd_pDirSeg.ds_entries s.vd_maxEntries
          ((s.mount.vnode h.vnode).v_inode - RT11FS_FILE_INODE_BASE + 1) = post := by
        have hdrop := hvol.dir.drop.2.2
        rw [Nat.zero_add] at hdrop
        have hlen := hvol.len
        rw [List.length_append, List.length_cons] at hlen
        rw [hi, Nat.add_sub_cancel]
        exact dirList_eq hdrop (by omega)
      rw [hpost] at hlength
      obtain ⟨X, E, rest, rfl, heq, hX, hE, hsum, _⟩ := closedRest_spec hfit post
      rw [heq, List.length_append, List.length_append] at hlength
      rw [heq]
      exact hat.behind hgt hX (by omega) hsum
  · rw [close_old htent] at hr
    cases hr
    obtain rfl := hdir'.unique hvol.dir
    intro h' hh'
    refine (hown h' hh').of_keep rfl ?_ fun _ _ _ _ hat => hat
    dsimp only
    by_cases hv : h'.vnode = h.vnode
    · rw [hv, Function.update_self]
    · rw [Function.update_of_ne hv]

/-- A reference that is given back changes no other one. -/
theorem OpenInv.giveBack (hinv : OpenInv s l) (hh : h ∈ s.handles)
    (hr : Rt11.giveBack s h = some s') : OpenInv s' l := by
  obtain ⟨hvol, hown⟩ := hinv
  refine ⟨(hvol.giveBack hh hr).1, ?_⟩
  obtain ⟨m', rfl, hinode, _⟩ := giveBack_spec hvol.mount hh hr
  intro h' hh'
  exact (hown h' (List.mem_of_mem_erase hh')).of_keep (hinode _) rfl fun _ _ _ _ hat => hat

/-- One call. -/
theorem OpenInv.step {op : Op} (hinv : OpenInv s l) (hsound : SoundOpen s op)
    (hs : Rt11.step s op = some s') : ∃ l', OpenInv s' l' := by
  cases op with
  | root malloc =>
    obtain ⟨hvol, hown⟩ := hinv
    obtain ⟨l', hvol', _⟩ := hvol.step hs
    have hdir' := hvol'.dir
    obtain ⟨⟨s₁, error, r⟩, hr, rfl⟩ := Option.map_eq_some_iff.1 hs
    have hroot : RT11FS_ROOT_INODE ≠ 0 := by decide
    obtain ⟨m', rfl, hkeep, ⟨_, rfl, hm⟩ | ⟨_, n, rfl, hn, hm⟩⟩ := vget_spec hvol.mount hroot hr
    · obtain rfl := hdir'.unique hvol.dir
      refine ⟨l', hvol', fun h hh => ?_⟩
      exact (hown h hh).of_keep (hkeep h hh) rfl fun _ _ _ _ hat => hat
    · obtain rfl := hdir'.unique hvol.dir
      refine ⟨l', hvol', List.forall_mem_cons.2 ⟨fun name st hfile => ?_, fun h hh => ?_⟩⟩
      · exact absurd hfile (Option.some_ne_none _).symm
      · exact (hown h hh).of_keep (hkeep h hh) rfl fun _ _ _ _ hat => hat
  | lookup malloc name => exact ⟨l, hinv.lookup hs⟩
  | create malloc name currDate => exact hinv.create hs
  | write h uio_offset uio_resid io =>
    rw [Rt11.step, Option.ite_none_right_eq_some] at hs
    obtain ⟨_, hm⟩ := hs
    obtain ⟨⟨s₁, error⟩, hr, rfl⟩ := Option.map_eq_some_iff.1 hm
    obtain ⟨n, rfl⟩ := write_cases hr
    refine ⟨l, hinv.1.of_desc rfl, fun h' hh' => ?_⟩
    refine (hinv.2 h' hh').of_keep rfl ?_ fun _ _ _ _ hat => hat
    dsimp only
    by_cases hv : h'.vnode = h.vnode
    · rw [hv, Function.update_self]
    · rw [Function.update_of_ne hv]
  | close h =>
    rw [Rt11.step, Option.ite_none_right_eq_some] at hs
    obtain ⟨⟨hh, hfile⟩, hm⟩ := hs
    obtain ⟨s₁, hclose, hback⟩ := Option.bind_eq_some_iff.1 hm
    obtain ⟨l', hinv₁⟩ := hinv.vopClose hh hfile hsound hclose
    obtain ⟨_, _, _, _, _, hhandles⟩ := hinv.1.vopClose hh hfile hclose
    exact ⟨l', hinv₁.giveBack (hhandles ▸ hh) hback⟩
  | unlock h =>
    rw [Rt11.step, Option.ite_none_right_eq_some] at hs
    obtain ⟨hh, hback⟩ := hs
    exact ⟨l, hinv.giveBack hh hback⟩
  | remove =>
    cases hs
    exact ⟨l, hinv⟩

/-! ## Runs -/

/-- There is a directory with every open file at its own entry. -/
def FilesKept (s : Vol) : Prop := ∃ l, OpenInv s l

/-- The open files of a volume in a run in which no close of a new file moves an open file:
every reference to a file has the inode of the file's own entry and the file's start block, and
two references to one vnode are to one file. -/
theorem open_files {maxFiles vd_blkSize2 vd_maxEntries : Nat} {seg : DirSeg}
    {desc : Nat → FileDesc} {ops : List Op} (hdir : DirAt seg.ds_entries 0 l)
    (hlen : l.length < vd_maxEntries)
    (hsound : AllSteps step SoundOpen (mounted maxFiles vd_blkSize2 vd_maxEntries seg desc) ops)
    (hrun : exec step (mounted maxFiles vd_blkSize2 vd_maxEntries seg desc) ops = some s) :
    ∃ l', DirAt s.vd_pDirSeg.ds_entries 0 l' ∧
      (∀ h ∈ s.handles, ∀ name st, h.file = some (name, st) →
        ∃ i, (s.mount.vnode h.vnode).v_inode = i + RT11FS_FILE_INODE_BASE ∧
          Located s.vd_pDirSeg.ds_start l' i name st ∧ (s.desc h.vnode).rfd_startBlock = st) ∧
      ∀ h ∈ s.handles, ∀ h' ∈ s.handles, ∀ file file', h.file = some file →
        h'.file = some file' → h.vnode = h'.vnode → file = file' := by
  have hinit : FilesKept (mounted maxFiles vd_blkSize2 vd_maxEntries seg desc) :=
    ⟨l, volInv_mounted hdir hlen, fun h hh => absurd hh List.not_mem_nil⟩
  obtain ⟨l', hvol, hown⟩ := exec_invariant_of
    (fun _ _ _ hkept hs hstep => hkept.elim fun _ hinv => hinv.step hs hstep) hinit hsound hrun
  refine ⟨l', hvol.dir, hown, ?_⟩
  intro h hh h' hh' file file' hfile hfile' hv
  obtain ⟨name, st⟩ := file
  obtain ⟨name', st'⟩ := file'
  obtain ⟨i, hi, hat, _⟩ := hown h hh name st hfile
  obtain ⟨i', hi', hat', _⟩ := hown h' hh' name' st' hfile'
  have hindex : i = i' := by
    rw [hv, hi'] at hi
    omega
  subst hindex
  obtain ⟨rfl, rfl⟩ := hat.unique hat'
  rfl

/-! ## Two files -/

def otherName (n : UInt16) : Name := { nm_name1 := n, nm_name2 := 0, nm_type := 0 }

/-- Ten empty blocks, more empty ones or none, and a file of five blocks. -/
def openSeg (more : Bool) : DirSeg where
  ds_start := 14
  ds_entries i :=
    if i = 0 then exampleEntry DES_EMPTY 10
    else if i = 1 ∧ more then exampleEntry DES_EMPTY 3
    else if i = 1 ∨ i = 2 ∧ more then
      { exampleEntry DES_PERMANENT 5 with de_name := otherName 2 }
    else exampleEntry DES_END 0

def openVol (more : Bool) : Vol :=
  mounted 2 9 72 (openSeg more)
    fun _ => { rfd_startBlock := 0, rfd_nBlks := 0, rfd_dirEntry := exampleEntry DES_END 0 }

def newHandle : Handle := { vnode := 2, file := some (exampleName, 14) }

/-- The file is opened, and before its entry another one is created, written and closed. -/
def openOps : List Op :=
  [.lookup true (otherName 2), .create true exampleName 0,
    .write newHandle 0 100 fun _ => (true, true), .close newHandle]

/-- The empty entry that the close inserts is merged with the one behind it. -/
theorem open_files_two :
    ∃ s l', exec step (openVol true) openOps = some s ∧
      s.handles = [{ vnode := 1, file := some (otherName 2, 27) }] ∧
      ∃ i, (s.mount.vnode 1).v_inode = i + RT11FS_FILE_INODE_BASE ∧
        Located s.vd_pDirSeg.ds_start l' i (otherName 2) 27 := by
  have hsound : AllSteps step SoundOpen (openVol true) openOps := by decide
  have hhandles : (exec step (openVol true) openOps).map Vol.handles =
      some [{ vnode := 1, file := some (otherName 2, 27) }] := by decide
  obtain ⟨s, hrun, hs⟩ := Option.map_eq_some_iff.1 hhandles
  have hdir : DirAt (openSeg true).ds_entries 0 [exampleEntry DES_EMPTY 10,
      exampleEntry DES_EMPTY 3, { exampleEntry DES_PERMANENT 5 with de_name := otherName 2 }] :=
    ⟨rfl, by decide, rfl, by decide, rfl, by decide, rfl⟩
  obtain ⟨l', _, hown, _⟩ := open_files hdir (by decide) hsound hrun
  have hmem : { vnode := 1, file := some (otherName 2, 27) } ∈ s.handles := by
    rw [hs]
    exact List.mem_cons_self
  obtain ⟨i, hi, hat, _⟩ := hown _ hmem _ _ rfl
  exact ⟨s, l', hrun, hs, i, hi, hat⟩

/-- The close moves the entry of the open file, and the next file that is created gets its
vnode: the vnode now starts at the block of the new file. -/
theorem open_files_shared :
    (exec step (openVol false) (openOps ++ [.create true (otherName 3) 0])).map (fun s =>
        (s.handles, (s.desc 1).rfd_startBlock, (s.vd_pDirSeg.ds_entries 1).de_name,
          (s.vd_pDirSeg.ds_entries 2).de_name)) =
      some ([{ vnode := 1, file := some (otherName 3, 15) },
        { vnode := 1, file := some (otherName 2, 24) }], 15, otherName 3, otherName 2) := by
  decide

end Vmx.Rt11
