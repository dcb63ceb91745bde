import Vmx.Fs.Rt11Lib
import Mathlib.Data.List.TakeDrop

/-!
# RT-11 directories as lists

`DirAt` says that the entries from an index on, up to `DES_END`, are those of a list.  What
the loops of `rt11fsLib` do to the array is said once, as an operation on that list:
`rt11fsInsertDirEntry` inserts (`dirAt_insert`) and `rt11fsDirMergeEmpty` replaces a run of
empty entries by a run of as many blocks (`dirAt_merge`).
-/

namespace Vmx.Rt11

/-- The entries from `k` on. -/
def DirAt (ds_entries : Nat → DirEntry) : Nat → List DirEntry → Prop
  | k, [] => (ds_entries k).de_status = DES_END
  | k, e :: l => ds_entries k = e ∧ e.de_status ≠ DES_END ∧ DirAt ds_entries (k + 1) l

variable {es es' : Nat → DirEntry} {seg seg' : DirSeg} {k : Nat} {e f : DirEntry}
  {l pre post : List DirEntry}

theorem DirAt.congr (h : DirAt es k l) (heq : ∀ j, k ≤ j → es' j = es j) : DirAt es' k l := by
  induction l generalizing k with
  | nil =>
    rw [DirAt, heq k (Nat.le_refl k)]
    exact h
  | cons e l ih =>
    refine ⟨(heq k (Nat.le_refl k)).trans h.1, h.2.1, ih h.2.2 fun j hj => heq j ?_⟩
    omega

/-- The entries from an index in the middle on. -/
theorem DirAt.drop (h : DirAt es k (pre ++ post)) : DirAt es (k + pre.length) post := by
  induction pre generalizing k with
  | nil => exact h
  | cons e pre ih =>
    have hdrop := ih h.2.2
    rw [List.length_cons]
    rwa [Nat.add_assoc, Nat.add_comm 1] at hdrop

/-- The last entries are replaced. -/
theorem DirAt.replace (h : DirAt es k (pre ++ post)) (hbefore : ∀ j, j < k + pre.length →
    es' j = es j) (hpost : DirAt es' (k + pre.length) l) : DirAt es' k (pre ++ l) := by
  induction pre generalizing k with
  | nil => exact hpost
  | cons e pre ih =>
    rw [List.length_cons] at hbefore hpost
    refine ⟨(hbefore k (by omega)).trans h.1, h.2.1, ih h.2.2 (fun j hj => hbefore j ?_) ?_⟩
    · omega
    · rwa [Nat.add_assoc, Nat.add_comm 1]

/-- There is one list. -/
theorem DirAt.unique {l' : List DirEntry} (h : DirAt es k l) (h' : DirAt es k l') : l = l' := by
  induction l generalizing k l' with
  | nil =>
    cases l' with
    | nil => rfl
    | cons e l' =>
      obtain ⟨rfl, hne, _⟩ := h'
      exact absurd h hne
  | cons e l ih =>
    cases l' with
    | nil =>
      obtain ⟨rfl, hne, _⟩ := h
      exact absurd h' hne
    | cons e' l' =>
      obtain ⟨rfl, _, h⟩ := h
      obtain ⟨rfl, _, h'⟩ := h'
      rw [ih h h']

theorem put_self (seg : DirSeg) (k : Nat) (e : DirEntry) :
    (rt11fsPutDirEntry seg k e).ds_entries k = e := Function.update_self ..

theorem put_of_ne {j : Nat} (seg : DirSeg) (e : DirEntry) (h : j ≠ k) :
    (rt11fsPutDirEntry seg k e).ds_entries j = seg.ds_entries j := Function.update_of_ne h _ _

/-- One entry is replaced. -/
theorem DirAt.put {seg : DirSeg} (h : DirAt seg.ds_entries 0 (pre ++ e :: post))
    (hf : f.de_status ≠ DES_END) :
    DirAt (rt11fsPutDirEntry seg pre.length f).ds_entries 0 (pre ++ f :: post) := by
  have hpost := h.drop.2.2
  rw [Nat.zero_add] at hpost
  refine h.replace (fun j hj => put_of_ne _ _ (by omega)) ⟨?_, hf, ?_⟩
  · rw [Nat.zero_add, put_self]
  · rw [Nat.zero_add]
    exact hpost.congr fun j hj => put_of_ne _ _ (by omega)

/-! ## Blocks -/

/-- The blocks of the entries. -/
def sumBlocks (l : List DirEntry) : Nat := (l.map DirEntry.blocks).sum

@[simp] theorem sumBlocks_nil : sumBlocks [] = 0 := rfl

@[simp] theorem sumBlocks_cons (e : DirEntry) (l : List DirEntry) :
    sumBlocks (e :: l) = e.blocks + sumBlocks l := by
  simp [sumBlocks]

@[simp] theorem sumBlocks_append (l l' : List DirEntry) :
    sumBlocks (l ++ l') = sumBlocks l + sumBlocks l' := by
  simp [sumBlocks]

/-! ## Insertion -/

theorem insertLoop_spec {fuel : Nat} (hpend : l = [] ∧ f.de_status = DES_END ∨
    ∃ l', l = f :: l' ∧ f.de_status ≠ DES_END ∧ DirAt seg.ds_entries (k + 1) l')
    (hfuel : l.length ≤ fuel) :
    ∃ seg', insertLoop fuel seg k f = some seg' ∧ seg'.ds_start = seg.ds_start ∧
      DirAt seg'.ds_entries (k + 1) l ∧ ∀ j, j ≤ k → seg'.ds_entries j = seg.ds_entries j := by
  induction l generalizing seg k f fuel with
  | nil =>
    obtain ⟨_, hend⟩ | ⟨_, hcons, _⟩ := hpend
    · have hput : insertLoop fuel seg k f = some (rt11fsPutDirEntry seg (k + 1) f) := by
        cases fuel <;> exact if_pos hend
      refine ⟨_, hput, rfl, ?_, fun j hj => put_of_ne seg f (by omega)⟩
      rw [DirAt, put_self]
      exact hend
    · cases hcons
  | cons e l ih =>
    obtain ⟨hnil, _⟩ | ⟨l', hcons, hne, hrest⟩ := hpend
    · cases hnil
    · obtain ⟨rfl, rfl⟩ := List.cons.inj hcons
      cases fuel with
      | zero =>
        rw [List.length_cons] at hfuel
        omega
      | succ fuel =>
        -- the entry is put, and the one that was there is pending now
        have hpend' : l = [] ∧ (seg.ds_entries (k + 1)).de_status = DES_END ∨
            ∃ l', l = seg.ds_entries (k + 1) :: l' ∧
              (seg.ds_entries (k + 1)).de_status ≠ DES_END ∧
              DirAt (rt11fsPutDirEntry seg (k + 1) e).ds_entries (k + 1 + 1) l' := by
          cases l with
          | nil => exact .inl ⟨rfl, hrest⟩
          | cons g l =>
            obtain ⟨rfl, hg, hl⟩ := hrest
            exact .inr ⟨l, rfl, hg, hl.congr fun j hj => put_of_ne seg e (by omega)⟩
        rw [List.length_cons] at hfuel
        obtain ⟨seg', hseg, hstart, hdir, hsame⟩ := ih hpend' (Nat.le_of_succ_le_succ hfuel)
        refine ⟨seg', ?_, hstart, ⟨?_, hne, hdir⟩, fun j hj => ?_⟩
        · rw [insertLoop, if_neg hne]
          exact hseg
        · rw [hsame (k + 1) (Nat.le_refl _), put_self]
        · rw [hsame j (Nat.le_succ_of_le hj), put_of_ne seg e (by omega)]

/-- `rt11fsInsertDirEntry` inserts the entry, and ends. -/
theorem dirAt_insert {fuel : Nat} (h : DirAt seg.ds_entries k l) (he : e.de_status ≠ DES_END)
    (hfuel : l.length ≤ fuel) :
    ∃ seg', rt11fsInsertDirEntry fuel seg k e = some seg' ∧ seg'.ds_start = seg.ds_start ∧
      DirAt seg'.ds_entries k (e :: l) ∧ ∀ j, j < k → seg'.ds_entries j = seg.ds_entries j := by
  have hpend : l = [] ∧ (seg.ds_entries k).de_status = DES_END ∨
      ∃ l', l = seg.ds_entries k :: l' ∧ (seg.ds_entries k).de_status ≠ DES_END ∧
        DirAt (rt11fsPutDirEntry seg k e).ds_entries (k + 1) l' := by
    cases l with
    | nil => exact .inl ⟨rfl, h⟩
    | cons g l =>
      obtain ⟨rfl, hg, hl⟩ := h
      exact .inr ⟨l, rfl, hg, hl.congr fun j hj => put_of_ne seg e (by omega)⟩
  obtain ⟨seg', hseg, hstart, hdir, hsame⟩ := insertLoop_spec hpend hfuel
  refine ⟨seg', hseg, hstart, ⟨?_, he, hdir⟩, fun j hj => ?_⟩
  · rw [hsame k (Nat.le_refl k), put_self]
  · rw [hsame j (Nat.le_of_lt hj), put_of_ne seg e (by omega)]

/-! ## Merging -/

/-- What `rt11fsDirMergeEmpty` makes of an empty entry and those behind it; `merged` says that
an entry has been merged into it. -/
def mergeList (merged : Bool) (currEntry : DirEntry) : List DirEntry → List DirEntry
  | [] => [currEntry]
  | nextEntry :: l =>
    if nextEntry.de_status = DES_EMPTY then
      if RT11FS_MAX_BLOCKS_PER_FILE < currEntry.blocks + nextEntry.blocks then
        if merged then currEntry :: nextEntry :: l
        else currEntry :: mergeList false nextEntry l
      else
        mergeList true
          { currEntry with de_nblocks := currEntry.de_nblocks + nextEntry.de_nblocks } l
    else currEntry :: nextEntry :: l

theorem blocks_add (e f : DirEntry)
    (h : ¬ RT11FS_MAX_BLOCKS_PER_FILE < e.blocks + f.blocks) :
    ({ e with de_nblocks := e.de_nblocks + f.de_nblocks } : DirEntry).blocks =
      e.blocks + f.blocks := by
  unfold DirEntry.blocks RT11FS_MAX_BLOCKS_PER_FILE at *
  rw [UInt16.toNat_add]
  exact Nat.mod_eq_of_lt (by omega)

/-- Only empty entries are merged, and their blocks are kept. -/
theorem mergeList_spec (merged : Bool) (he : e.de_status = DES_EMPTY) (l : List DirEntry) :
    ∃ X E rest, l = X ++ rest ∧ mergeList merged e l = E ++ rest ∧
      (∀ f ∈ X, f.de_status = DES_EMPTY) ∧ (∀ f ∈ E, f.de_status = DES_EMPTY) ∧
      sumBlocks E = e.blocks + sumBlocks X ∧ E.length ≤ X.length + 1 := by
  induction l generalizing merged e with
  | nil =>
    refine ⟨[], [e], [], rfl, rfl, fun f hf => absurd hf List.not_mem_nil, fun f hf => ?_, ?_, ?_⟩
    · rw [List.mem_singleton.1 hf]
      exact he
    · simp
    · simp
  | cons n l ih =>
    have hstop : ∃ X E rest, n :: l = X ++ rest ∧ e :: n :: l = E ++ rest ∧
        (∀ f ∈ X, f.de_status = DES_EMPTY) ∧ (∀ f ∈ E, f.de_status = DES_EMPTY) ∧
        sumBlocks E = e.blocks + sumBlocks X ∧ E.length ≤ X.length + 1 := by
      refine ⟨[], [e], n :: l, rfl, rfl, fun f hf => absurd hf List.not_mem_nil,
        fun f hf => ?_, ?_, ?_⟩
      · rw [List.mem_singleton.1 hf]
        exact he
      · simp
      · simp
    rw [mergeList]
    by_cases hn : n.de_status = DES_EMPTY
    · rw [if_pos hn]
      by_cases hmax : RT11FS_MAX_BLOCKS_PER_FILE < e.blocks + n.blocks
      · rw [if_pos hmax]
        cases merged with
        | true => exact hstop
        | false =>
          obtain ⟨X, E, rest, rfl, heq, hX, hE, hsum, hlen⟩ := ih false hn
          rw [if_neg Bool.false_ne_true, heq]
          refine ⟨n :: X, e :: E, rest, rfl, rfl, ?_, ?_, ?_, ?_⟩
          · exact List.forall_mem_cons.2 ⟨hn, hX⟩
          · exact List.forall_mem_cons.2 ⟨he, hE⟩
          · rw [sumBlocks_cons, sumBlocks_cons, hsum]
          · rw [List.length_cons, List.length_cons]
            omega
      · rw [if_neg hmax]
        have hadd : ({ e with de_nblocks := e.de_nblocks + n.de_nblocks } : DirEntry).de_status =
            DES_EMPTY := he
        obtain ⟨X, E, rest, rfl, heq, hX, hE, hsum, hlen⟩ := ih true hadd
        rw [heq]
        refine ⟨n :: X, E, rest, rfl, rfl, List.forall_mem_cons.2 ⟨hn, hX⟩, hE, ?_, ?_⟩
        · rw [hsum, blocks_add e n hmax, sumBlocks_cons]
          omega
        · rw [List.length_cons]
          omega
    · rw [if_neg hn]
      exact hstop

theorem compactLoop_spec {i fuel : Nat} (hi : 0 < i) (hk : seg.ds_entries k = f)
    (hpend : l = [] ∧ f.de_status = DES_END ∨
      ∃ l', l = f :: l' ∧ f.de_status ≠ DES_END ∧ DirAt seg.ds_entries (k + 1 + i) l')
    (hfuel : l.length ≤ fuel) :
    ∃ seg', compactLoop i fuel seg k f = some seg' ∧ seg'.ds_start = seg.ds_start ∧
      DirAt seg'.ds_entries k l ∧ ∀ j, j < k → seg'.ds_entries j = seg.ds_entries j := by
  induction l generalizing seg k f fuel with
  | nil =>
    obtain ⟨_, hend⟩ | ⟨_, hcons, _⟩ := hpend
    · have hstop : compactLoop i fuel seg k f = some seg := by
        cases fuel <;> exact if_pos hend
      refine ⟨seg, hstop, rfl, ?_, fun j _ => rfl⟩
      rw [DirAt, hk]
      exact hend
    · cases hcons
  | cons e l ih =>
    obtain ⟨hnil, _⟩ | ⟨l', hcons, hne, hrest⟩ := hpend
    · cases hnil
    · obtain ⟨rfl, rfl⟩ := List.cons.inj hcons
      cases fuel with
      | zero =>
        rw [List.length_cons] at hfuel
        omega
      | succ fuel =>
        -- the entry `i` places behind moves down
        obtain ⟨n, hn⟩ : ∃ n, n = seg.ds_entries (k + 1 + i) := ⟨_, rfl⟩
        have hpend' : l = [] ∧ n.de_status = DES_END ∨
            ∃ l', l = n :: l' ∧ n.de_status ≠ DES_END ∧
              DirAt (rt11fsPutDirEntry seg (k + 1) n).ds_entries (k + 1 + 1 + i) l' := by
          cases l with
          | nil =>
            refine .inl ⟨rfl, ?_⟩
            rw [hn]
            exact hrest
          | cons g l =>
            obtain ⟨hg, hgne, hl⟩ := hrest
            rw [hn, hg]
            refine .inr ⟨l, rfl, hgne, ?_⟩
            rw [Nat.add_right_comm (k + 1) 1 i]
            exact hl.congr fun j hj => put_of_ne seg g (by omega)
        rw [List.length_cons] at hfuel
        obtain ⟨seg', hseg, hstart, hdir, hsame⟩ :=
          ih (put_self seg (k + 1) n) hpend' (Nat.le_of_succ_le_succ hfuel)
        refine ⟨seg', ?_, hstart, ⟨?_, hne, hdir⟩, fun j hj => ?_⟩
        · rw [compactLoop, if_neg hne]
          dsimp only
          rw [← hn]
          exact hseg
        · rw [hsame k (Nat.lt_succ_self k), put_of_ne seg n (by omega)]
          exact hk
        · rw [hsame j (Nat.lt_succ_of_lt hj), put_of_ne seg n (by omega)]

/-- The entries behind the merged ones are kept. -/
theorem putMerged_spec {fuel : Nat} {s : Merge} (hnext : s.nextEntry =
      seg.ds_entries (s.entryNum + 1 + s.i)) (hcurr : s.currEntry.de_status = DES_EMPTY)
    (hfirst : s.i = 0 → seg.ds_entries s.entryNum = s.currEntry)
    (h : DirAt seg.ds_entries (s.entryNum + 1 + s.i) l) (hfuel : l.length ≤ fuel) :
    ∃ seg', putMerged fuel seg s = some seg' ∧ seg'.ds_start = seg.ds_start ∧
      DirAt seg'.ds_entries s.entryNum (s.currEntry :: l) ∧
      ∀ j, j < s.entryNum → seg'.ds_entries j = seg.ds_entries j := by
  have hne : s.currEntry.de_status ≠ DES_END := by
    rw [hcurr]
    decide
  unfold putMerged
  by_cases hi : 0 < s.i
  · rw [if_pos hi]
    obtain ⟨seg₁, hseg₁⟩ : ∃ seg₁, seg₁ = rt11fsPutDirEntry
      (rt11fsPutDirEntry seg s.entryNum s.currEntry) (s.entryNum + 1) s.nextEntry := ⟨_, rfl⟩
    have hself : seg₁.ds_entries (s.entryNum + 1) = s.nextEntry := by
      rw [hseg₁]
      exact put_self ..
    have hother : ∀ j, j ≠ s.entryNum + 1 → j ≠ s.entryNum →
        seg₁.ds_entries j = seg.ds_entries j := by
      intro j hj hj'
      rw [hseg₁, put_of_ne _ _ hj, put_of_ne _ _ hj']
    have hpend : l = [] ∧ s.nextEntry.de_status = DES_END ∨
        ∃ l', l = s.nextEntry :: l' ∧ s.nextEntry.de_status ≠ DES_END ∧
          DirAt seg₁.ds_entries (s.entryNum + 1 + 1 + s.i) l' := by
      cases l with
      | nil =>
        rw [hnext]
        exact .inl ⟨rfl, h⟩
      | cons g l =>
        obtain ⟨hg, hgne, hl⟩ := h
        rw [hnext, hg]
        refine .inr ⟨l, rfl, hgne, ?_⟩
        rw [Nat.add_right_comm (s.entryNum + 1) 1 s.i]
        exact hl.congr fun j hj => hother j (by omega) (by omega)
    obtain ⟨seg', hseg, hstart, hdir, hsame⟩ := compactLoop_spec hi hself hpend hfuel
    rw [← hseg₁]
    refine ⟨seg', hseg, ?_, ⟨?_, hne, hdir⟩, fun j hj => ?_⟩
    · rw [hstart, hseg₁]
      rfl
    · rw [hsame s.entryNum (Nat.lt_succ_self _), hseg₁, put_of_ne _ _ (by omega), put_self]
    · rw [hsame j (Nat.lt_succ_of_lt hj), hother j (by omega) (by omega)]
  · rw [if_neg hi]
    have hzero : s.i = 0 := by omega
    rw [hzero] at h
    exact ⟨seg, rfl, rfl, ⟨hfirst hzero, hne, h⟩, fun j _ => rfl⟩

theorem mergeLoop_spec {fuel fuel' : Nat} {s : Merge} (hnext : s.nextEntry =
      seg.ds_entries (s.entryNum + 1 + s.i)) (hcurr : s.currEntry.de_status = DES_EMPTY)
    (hfirst : s.i = 0 → seg.ds_entries s.entryNum = s.currEntry)
    (h : DirAt seg.ds_entries (s.entryNum + 1 + s.i) l) (hfuel : l.length ≤ fuel)
    (hfuel' : l.length ≤ fuel') :
    ∃ seg', (mergeLoop seg fuel s).bind (putMerged fuel' seg) = some seg' ∧
      seg'.ds_start = seg.ds_start ∧
      DirAt seg'.ds_entries s.entryNum (mergeList (decide (0 < s.i)) s.currEntry l) ∧
      ∀ j, j < s.entryNum → seg'.ds_entries j = seg.ds_entries j := by
  induction l generalizing s fuel with
  | nil =>
    have hne : s.nextEntry.de_status ≠ DES_EMPTY := by
      have hend : s.nextEntry.de_status = DES_END := by
        rw [hnext]
        exact h
      rw [hend]
      decide
    have hstop : mergeLoop seg fuel s = some s := by
      cases fuel <;> exact if_neg hne
    rw [hstop]
    exact putMerged_spec hnext hcurr hfirst h hfuel'
  | cons n l ih =>
    obtain ⟨hn, hnne, hl⟩ := h
    rw [List.length_cons] at hfuel hfuel'
    have hnextn : s.nextEntry = n := hnext.trans hn
    obtain ⟨fuel, rfl⟩ : ∃ m, fuel = m + 1 := ⟨fuel - 1, by omega⟩
    have hstop : mergeLoop seg (fuel + 1) s = some s →
        mergeList (decide (0 < s.i)) s.currEntry (n :: l) = s.currEntry :: n :: l →
        ∃ seg', (mergeLoop seg (fuel + 1) s).bind (putMerged fuel' seg) = some seg' ∧
          seg'.ds_start = seg.ds_start ∧
          DirAt seg'.ds_entries s.entryNum (mergeList (decide (0 < s.i)) s.currEntry (n :: l)) ∧
          ∀ j, j < s.entryNum → seg'.ds_entries j = seg.ds_entries j := by
      intro hloop hlist
      rw [hloop, hlist]
      exact putMerged_spec hnext hcurr hfirst ⟨hn, hnne, hl⟩ hfuel'
    by_cases hempty : n.de_status = DES_EMPTY
    · by_cases hmax : RT11FS_MAX_BLOCKS_PER_FILE < s.currEntry.blocks + n.blocks
      · by_cases hi : 0 < s.i
        · refine hstop ?_ ?_
          · rw [mergeLoop, hnextn, if_pos hempty, if_pos hmax, if_pos hi]
          · rw [mergeList, if_pos hempty, if_pos hmax, if_pos (decide_eq_true hi)]
        · -- the next entry takes the place of the current one
          have hzero : s.i = 0 := by omega
          rw [hzero] at hn hl
          have hloop : mergeLoop seg (fuel + 1) s = mergeLoop seg fuel
              { entryNum := s.entryNum + 1, i := 0, currEntry := n
                nextEntry := seg.ds_entries (s.entryNum + 1 + 1 + 0) } := by
            rw [mergeLoop, hnextn, if_pos hempty, if_pos hmax, if_neg hi, hzero]
          obtain ⟨seg', hseg, hstart, hdir, hsame⟩ :=
            ih (s := { entryNum := s.entryNum + 1, i := 0, currEntry := n
                       nextEntry := seg.ds_entries (s.entryNum + 1 + 1 + 0) })
              rfl hempty (fun _ => hn) hl (Nat.le_of_succ_le_succ hfuel) (Nat.le_of_succ_le hfuel')
          rw [hloop]
          refine ⟨seg', hseg, hstart, ?_, fun j hj => hsame j (Nat.lt_succ_of_lt hj)⟩
          rw [mergeList, if_pos hempty, if_pos hmax, if_neg (by simp [hi])]
          refine ⟨?_, ?_, hdir⟩
          · rw [hsame s.entryNum (Nat.lt_succ_self _)]
            exact hfirst hzero
          · rw [hcurr]
            decide
      · -- the next entry is merged into the current one
        have hloop : mergeLoop seg (fuel + 1) s = mergeLoop seg fuel
            { entryNum := s.entryNum, i := s.i + 1
              currEntry := { s.currEntry with
                de_nblocks := s.currEntry.de_nblocks + n.de_nblocks }
              nextEntry := seg.ds_entries (s.entryNum + 1 + (s.i + 1)) } := by
          rw [mergeLoop, hnextn, if_pos hempty, if_neg hmax]
        obtain ⟨seg', hseg, hstart, hdir, hsame⟩ :=
          ih (s := { entryNum := s.entryNum, i := s.i + 1
                     currEntry := { s.currEntry with
                       de_nblocks := s.currEntry.de_nblocks + n.de_nblocks }
                     nextEntry := seg.ds_entries (s.entryNum + 1 + (s.i + 1)) })
            rfl hcurr (fun heq => absurd heq (Nat.succ_ne_zero _)) hl
            (Nat.le_of_succ_le_succ hfuel) (Nat.le_of_succ_le hfuel')
        rw [hloop]
        refine ⟨seg', hseg, hstart, ?_, hsame⟩
        rw [mergeList, if_pos hempty, if_neg hmax]
        rw [decide_eq_true (Nat.succ_pos s.i)] at hdir
        exact hdir
    · refine hstop ?_ ?_
      · rw [mergeLoop, hnextn, if_neg hempty]
      · rw [mergeList, if_neg hempty]

/-- `rt11fsDirMergeEmpty` merges the entries behind an empty one, and ends. -/
theorem dirAt_merge {fuel : Nat} (h : DirAt seg.ds_entries k (e :: l))
    (he : e.de_status = DES_EMPTY)
    (hbefore : k = 0 ∨ (seg.ds_entries (k - 1)).de_status ≠ DES_EMPTY) (hfuel : l.length ≤ fuel) :
    ∃ seg', rt11fsDirMergeEmpty fuel seg k = some seg' ∧ seg'.ds_start = seg.ds_start ∧
      DirAt seg'.ds_entries k (mergeList false e l) ∧
      ∀ j, j < k → seg'.ds_entries j = seg.ds_entries j := by
  obtain ⟨hk, _, hl⟩ := h
  unfold rt11fsDirMergeEmpty
  rw [if_pos hbefore]
  dsimp only
  rw [hk]
  exact mergeLoop_spec (s := { entryNum := k, i := 0, currEntry := e
                               nextEntry := seg.ds_entries (k + 1) })
    rfl he (fun _ => hk) hl hfuel hfuel

/-! ## Allocation and lookup -/

theorem newMax_cases {best : Option MaxEntry} {i : Nat} {start : Int} {b : MaxEntry}
    (h : newMax best i e start = some b) :
    best = some b ∨ e.de_status = DES_EMPTY ∧ b = ⟨i, e, start⟩ := by
  unfold newMax at h
  split at h
  next he =>
    split at h
    · exact .inr ⟨he, (Option.some.inj h).symm⟩
    · split at h
      · exact .inr ⟨he, (Option.some.inj h).symm⟩
      · exact .inl h
  next => exact .inl h

theorem allocLoop_spec {left i : Nat} {start : Int} {best : Option MaxEntry} {n : Nat}
    {best' : Option MaxEntry} (h : DirAt es i l) (hleft : l.length < left)
    (hr : allocLoop es left i start best = some (n, best')) :
    n = i + l.length ∧ (∀ f ∈ l, f.de_status ≠ DES_TENTATIVE) ∧
      ∀ b, best' = some b → best = some b ∨ ∃ pre f post, l = pre ++ f :: post ∧
        f.de_status = DES_EMPTY ∧ b = ⟨i + pre.length, f, start + sumBlocks pre⟩ := by
  induction l generalizing left i start best with
  | nil =>
    obtain ⟨left, rfl⟩ : ∃ m, left = m + 1 := ⟨left - 1, by omega⟩
    have hend : (es i).de_status = DES_END := h
    rw [allocLoop, if_pos hend] at hr
    cases hr
    exact ⟨rfl, fun f hf => absurd hf List.not_mem_nil, fun b hb => .inl hb⟩
  | cons e l ih =>
    obtain ⟨rfl, hne, hl⟩ := h
    rw [List.length_cons] at hleft
    obtain ⟨left, rfl⟩ : ∃ m, left = m + 1 := ⟨left - 1, by omega⟩
    rw [allocLoop, if_neg hne] at hr
    split at hr
    next => cases hr
    next htent =>
      obtain ⟨rfl, hnone, hbest⟩ := ih hl (Nat.lt_of_succ_lt_succ hleft) hr
      refine ⟨?_, List.forall_mem_cons.2 ⟨htent, hnone⟩, fun b hb => ?_⟩
      · rw [List.length_cons]
        omega
      · obtain hnew | ⟨pre, f, post, rfl, hf, rfl⟩ := hbest b hb
        · obtain hold | ⟨he, rfl⟩ := newMax_cases hnew
          · exact .inl hold
          · refine .inr ⟨[], _, l, rfl, he, ?_⟩
            simp
        · refine .inr ⟨es i :: pre, f, post, rfl, hf, ?_⟩
          rw [List.length_cons, sumBlocks_cons]
          congr 1 <;> push_cast <;> omega

/-- A new file gets an empty entry, when no file is tentative and there is room for one more
entry. -/
theorem alloc_spec {maxEntries currDate : Nat} {name : Name} {start : Int}
    (h : DirAt seg.ds_entries 0 l) (hlen : l.length < maxEntries)
    (hr : rt11fsAllocNewDirEntry seg maxEntries currDate name = some (k, f, start)) :
    l.length + 1 < maxEntries ∧ (∀ f ∈ l, f.de_status ≠ DES_TENTATIVE) ∧
      ∃ pre e post, l = pre ++ e :: post ∧ e.de_status = DES_EMPTY ∧ k = pre.length ∧
        f = { e with de_status := DES_TENTATIVE, de_date := currDate, de_name := name } ∧
        start = seg.ds_start + sumBlocks pre := by
  unfold rt11fsAllocNewDirEntry at hr
  split at hr
  next => cases hr
  next n best hloop =>
    obtain ⟨rfl, hnone, hbest⟩ := allocLoop_spec h hlen hloop
    split at hr
    next => cases hr
    next hroom =>
      obtain ⟨b, hb, heq⟩ := Option.map_eq_some_iff.1 hr
      obtain hnil | ⟨pre, e, post, rfl, he, rfl⟩ := hbest b hb
      · cases hnil
      · obtain ⟨hk, heq⟩ := Prod.mk.inj heq
        obtain ⟨rfl, rfl⟩ := Prod.mk.inj heq
        refine ⟨by omega, hnone, pre, e, post, rfl, he, ?_, rfl, rfl⟩
        rw [← hk, Nat.zero_add]

theorem findDirLoop_spec {name : Name} {fuel i : Nat} {start : Int} (h : DirAt es i l)
    (hfuel : l.length < fuel) :
    ∃ r, findDirLoop es name fuel i start = some r ∧
      ∀ k e st, r = some (k, e, st) → ∃ pre post, l = pre ++ e :: post ∧ k = i + pre.length ∧
        st = start + sumBlocks pre ∧ e.de_name = name ∧
        (e.de_status = DES_PERMANENT ∨ e.de_status = DES_TENTATIVE) := by
  induction l generalizing fuel i start with
  | nil =>
    obtain ⟨fuel, rfl⟩ : ∃ m, fuel = m + 1 := ⟨fuel - 1, by omega⟩
    have hend : (es i).de_status = DES_END := h
    rw [findDirLoop, if_pos hend]
    exact ⟨none, rfl, fun _ _ _ hr => by cases hr⟩
  | cons e l ih =>
    obtain ⟨rfl, hne, hl⟩ := h
    rw [List.length_cons] at hfuel
    obtain ⟨fuel, rfl⟩ : ∃ m, fuel = m + 1 := ⟨fuel - 1, by omega⟩
    rw [findDirLoop, if_neg hne]
    split
    next hfound =>
      refine ⟨_, rfl, fun k e st hr => ?_⟩
      obtain ⟨rfl, hpair⟩ := Prod.mk.inj (Option.some.inj hr)
      obtain ⟨rfl, rfl⟩ := Prod.mk.inj hpair
      refine ⟨[], l, rfl, rfl, ?_, hfound.2, hfound.1⟩
      simp
    next =>
      obtain ⟨r, hr, hfound⟩ := ih hl (Nat.lt_of_succ_lt_succ hfuel)
      refine ⟨r, hr, fun k e st hk => ?_⟩
      obtain ⟨pre, post, rfl, rfl, rfl, hname, hstatus⟩ := hfound k e st hk
      refine ⟨es i :: pre, post, rfl, ?_, ?_, hname, hstatus⟩
      · rw [List.length_cons]
        omega
      · rw [sumBlocks_cons]
        push_cast
        omega

end Vmx.Rt11
