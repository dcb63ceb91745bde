import Vmx.Fs.FsBufLib

/-!
# Buffers after a failed operation

`bread` hands back a busy buffer even when it fails, and every caller returns without releasing
it.  So an operation leaves no buffer busy just when it could read all the blocks that it read.
-/

namespace Vmx.FsBuf

variable {s s' s1 : State} {b : Nat} {key : Nat × Nat} {e : Int}

/-! ## What an operation does to busy buffers -/

/-- The busy buffers are as before. -/
structure Same (s s' : State) : Prop where
  busy : ∀ b, (s'.buf b).busy = (s.buf b).busy
  held : ∀ b, (s.buf b).busy = true →
    (s'.buf b).key = (s.buf b).key ∧ (s'.buf b).inval = (s.buf b).inval
  bad : s'.bad = s.bad
  list : ∀ b, b ∈ s.list → b ∈ s'.list

/-- The buffers that were busy still are, after a block could not be read. -/
structure Failed (s s' : State) : Prop where
  keeps : ∀ b, (s.buf b).busy = true →
    (s'.buf b).busy = true ∧ (s'.buf b).inval = (s.buf b).inval
  fresh : ∀ b, (s.buf b).busy = false → (s'.buf b).busy = true → (s'.buf b).inval = true
  bad : s'.bad = true
  list : ∀ b, b ∈ s.list → b ∈ s'.list

/-- And one more is busy. -/
structure Leak (s s' : State) : Prop extends Failed s s' where
  leaked : ∃ b, (s.buf b).busy = false ∧ (s'.buf b).busy = true

/-- What an operation leaves: it releases its buffers, or it does not after a block could not be
read. -/
def Done (s s' : State) : Prop := Same s s' ∨ Leak s s'

/-- And an error tells of it. -/
def Ends (s s' : State) (e : Int) : Prop := Same s s' ∨ (e ≠ OK ∧ Leak s s')

/-- A buffer is busy for the block, and the others are as before. -/
structure Got (s s' : State) (b : Nat) (key : Nat × Nat) : Prop where
  free : (s.buf b).busy = false
  self : (s'.buf b).busy = true ∧ (s'.buf b).key = some key ∧ (s'.buf b).inval = false
  busy : ∀ b', b' ≠ b → (s'.buf b').busy = (s.buf b').busy
  held : ∀ b', (s.buf b').busy = true →
    (s'.buf b').key = (s.buf b').key ∧ (s'.buf b').inval = (s.buf b').inval
  bad : s'.bad = s.bad
  list : ∀ b, b ∈ s.list → b ∈ s'.list

/-- No buffer has changed, apart from data. -/
structure Quiet (s s' : State) : Prop where
  buf : ∀ b, (s'.buf b).busy = (s.buf b).busy ∧ (s'.buf b).key = (s.buf b).key ∧
    (s'.buf b).inval = (s.buf b).inval
  bad : s'.bad = s.bad
  list : ∀ b, b ∈ s.list → b ∈ s'.list

/-- At most one buffer has changed, apart from data. -/
structure Off (b : Nat) (s s' : State) : Prop where
  others : ∀ b', b' ≠ b → (s'.buf b').busy = (s.buf b').busy ∧ (s'.buf b').key = (s.buf b').key ∧
    (s'.buf b').inval = (s.buf b').inval
  bad : s'.bad = s.bad
  list : ∀ b, b ∈ s.list → b ∈ s'.list

/-- No busy buffer that is valid is for the block. -/
def Free (s : State) (key : Nat × Nat) : Prop :=
  ∀ b, (s.buf b).busy = true → (s.buf b).key = some key → (s.buf b).inval = true

/-- The buffers that are busy are those that failed operations have left. -/
def Stale (s : State) : Prop := ∀ b, (s.buf b).busy = true → (s.buf b).inval = true

theorem Same.refl (s : State) : Same s s := ⟨fun _ => rfl, fun _ _ => ⟨rfl, rfl⟩, rfl, fun _ hl => hl⟩

theorem Same.trans (h : Same s s1) (h' : Same s1 s') : Same s s' where
  busy b := (h'.busy b).trans (h.busy b)
  held b hb := by
    obtain ⟨hk, hi⟩ := h.held b hb
    obtain ⟨hk', hi'⟩ := h'.held b ((h.busy b).trans hb)
    exact ⟨hk'.trans hk, hi'.trans hi⟩
  bad := h'.bad.trans h.bad
  list b hl := h'.list b (h.list b hl)

theorem Same.free (h : Same s s') (hf : Free s key) : Free s' key := by
  intro b hb hk
  rw [h.busy] at hb
  obtain ⟨hkey, hinval⟩ := h.held b hb
  rw [hinval]
  exact hf b hb (hkey ▸ hk)

theorem Same.failed (h : Same s s1) (h' : Failed s1 s') : Failed s s' where
  keeps b hb := by
    obtain ⟨hbusy, hinval⟩ := h'.keeps b ((h.busy b).trans hb)
    exact ⟨hbusy, hinval.trans (h.held b hb).2⟩
  fresh b hb hb' := h'.fresh b ((h.busy b).trans hb) hb'
  bad := h'.bad
  list b hl := h'.list b (h.list b hl)

theorem Same.leak (h : Same s s1) (h' : Leak s1 s') : Leak s s' := by
  obtain ⟨b, hb, hb'⟩ := h'.leaked
  exact ⟨h.failed h'.toFailed, b, (h.busy b).symm.trans hb, hb'⟩

theorem Same.done (h : Same s s1) (h' : Done s1 s') : Done s s' := by
  obtain hsame | hleak := h'
  · exact Or.inl (h.trans hsame)
  · exact Or.inr (h.leak hleak)

theorem Ends.done (h : Ends s s' e) : Done s s' := by
  obtain hsame | ⟨-, hleak⟩ := h
  · exact Or.inl hsame
  · exact Or.inr hleak

theorem Same.ends (h : Same s s1) (h' : Ends s1 s' e) : Ends s s' e := by
  obtain hsame | ⟨hne, hleak⟩ := h'
  · exact Or.inl (h.trans hsame)
  · exact Or.inr ⟨hne, h.leak hleak⟩

/-- Without an error nothing is left. -/
theorem Ends.same (h : Ends s s' e) (he : ¬ e ≠ OK) : Same s s' := by
  obtain hsame | ⟨hne, -⟩ := h
  · exact hsame
  · exact absurd hne he

theorem Got.same (h : Got s s1 b key) (h' : Same s1 s') : Got s s' b key where
  free := h.free
  self := by
    obtain ⟨hbusy, hkey, hinval⟩ := h.self
    obtain ⟨hk', hi'⟩ := h'.held b hbusy
    exact ⟨(h'.busy b).trans hbusy, hk'.trans hkey, hi'.trans hinval⟩
  busy b' hne := (h'.busy b').trans (h.busy b' hne)
  held b' hb' := by
    have hne : b' ≠ b := by
      rintro rfl
      rw [h.free] at hb'
      simp at hb'
    obtain ⟨hk, hi⟩ := h.held b' hb'
    obtain ⟨hk', hi'⟩ := h'.held b' ((h.busy b' hne).trans hb')
    exact ⟨hk'.trans hk, hi'.trans hi⟩
  bad := h'.bad.trans h.bad
  list b hl := h'.list b (h.list b hl)

/-- A buffer for another vnode does not matter. -/
theorem Got.freeOther {key' : Nat × Nat} (h : Got s s1 b key) (hf : Free s key')
    (hne : key ≠ key') : Free s1 key' := by
  intro b' hb' hk
  by_cases heq : b' = b
  · subst heq
    rw [h.self.2.1] at hk
    exact absurd (Option.some.inj hk) hne
  · rw [h.busy b' heq] at hb'
    obtain ⟨hkey, hinval⟩ := h.held b' hb'
    rw [hinval]
    exact hf b' hb' (hkey ▸ hk)

theorem Off.trans (h : Off b s s1) (h' : Off b s1 s') : Off b s s' where
  others b' hne := by
    obtain ⟨h1, h2, h3⟩ := h.others b' hne
    obtain ⟨h1', h2', h3'⟩ := h'.others b' hne
    exact ⟨h1'.trans h1, h2'.trans h2, h3'.trans h3⟩
  bad := h'.bad.trans h.bad
  list b hl := h'.list b (h.list b hl)

/-- A buffer that was got and is no longer busy leaves all as before. -/
theorem Got.off (h : Got s s1 b key) (h' : Off b s1 s') (hfree : (s'.buf b).busy = false) :
    Same s s' where
  busy b' := by
    by_cases heq : b' = b
    · rw [heq, hfree, h.free]
    · rw [(h'.others b' heq).1, h.busy b' heq]
  held b' hb' := by
    have hne : b' ≠ b := by
      rintro rfl
      rw [h.free] at hb'
      simp at hb'
    obtain ⟨hk, hi⟩ := h.held b' hb'
    obtain ⟨-, hk', hi'⟩ := h'.others b' hne
    exact ⟨hk'.trans hk, hi'.trans hi⟩
  bad := h'.bad.trans h.bad
  list b hl := h'.list b (h.list b hl)

/-- A buffer that was got is still busy when the operation gives up. -/
theorem Got.leak {s2 : State} (h : Got s s1 b key) (h' : Failed s1 s2) (hoff : Off b s2 s')
    (hbusy : (s'.buf b).busy = (s2.buf b).busy) (hinval : (s'.buf b).inval = true) :
    Leak s s' where
  keeps b' hb' := by
    have hne : b' ≠ b := by
      rintro rfl
      rw [h.free] at hb'
      simp at hb'
    obtain ⟨hbusy2, hinval2⟩ := h'.keeps b' ((h.busy b' hne).trans hb')
    obtain ⟨hbusy3, -, hinval3⟩ := hoff.others b' hne
    exact ⟨hbusy3.trans hbusy2, hinval3.trans (hinval2.trans (h.held b' hb').2)⟩
  fresh b' hfree hb' := by
    by_cases heq : b' = b
    · rw [heq]
      exact hinval
    · obtain ⟨hbusy3, -, hinval3⟩ := hoff.others b' heq
      rw [hinval3]
      exact h'.fresh b' ((h.busy b' heq).trans hfree) (hbusy3 ▸ hb')
  bad := hoff.bad.trans h'.bad
  list b hl := hoff.list b (h'.list b (h.list b hl))
  leaked := ⟨b, h.free, hbusy.trans (h'.keeps b h.self.1).1⟩

/-! ## Changes of a buffer -/

theorem off_setBuf (s : State) (b : Nat) (f : Buf → Buf) : Off b s (s.setBuf b f) where
  others b' hne := by simp [State.setBuf, Function.update_of_ne hne]
  bad := rfl
  list := fun _ hl => hl

theorem quiet_setBuf (s : State) (b : Nat) (f : Buf → Buf)
    (hf : (f (s.buf b)).busy = (s.buf b).busy ∧ (f (s.buf b)).key = (s.buf b).key ∧
      (f (s.buf b)).inval = (s.buf b).inval) : Quiet s (s.setBuf b f) where
  buf b' := by
    by_cases heq : b' = b
    · subst heq
      simpa [State.setBuf] using hf
    · simp [State.setBuf, Function.update_of_ne heq]
  bad := rfl
  list := fun _ hl => hl

theorem Quiet.trans (h : Quiet s s1) (h' : Quiet s1 s') : Quiet s s' where
  buf b := by
    obtain ⟨h1, h2, h3⟩ := h.buf b
    obtain ⟨h1', h2', h3'⟩ := h'.buf b
    exact ⟨h1'.trans h1, h2'.trans h2, h3'.trans h3⟩
  bad := h'.bad.trans h.bad
  list b hl := h'.list b (h.list b hl)

theorem Quiet.same (h : Quiet s s') : Same s s' :=
  ⟨fun b => (h.buf b).1, fun b _ => (h.buf b).2, h.bad, h.list⟩

theorem Quiet.off (h : Quiet s s') (b : Nat) : Off b s s' := ⟨fun b' _ => h.buf b', h.bad, h.list⟩

/-! ## `bio` -/

/-- With a buffer that is not busy `buf_getblk` ends. -/
theorem bufGetblk_total (hf : Free s key) (hl : b ∈ s.list) (hfree : (s.buf b).busy = false) :
    ∃ b' s', bufGetblk key s = some (b', s') := by
  rw [bufGetblk]
  rcases hfound : bufIncore s key with _ | b'
  · have hnew : bufNew s ≠ none := by
      rw [bufNew, Ne, List.find?_eq_none]
      intro hall
      have := hall b (List.mem_reverse.mpr hl)
      simp [hfree] at this
    rcases hb : bufNew s with _ | b'
    · exact absurd hb hnew
    · exact ⟨_, _, rfl⟩
  · have hp := List.find?_some hfound
    simp only [Bool.and_eq_true, beq_iff_eq, Bool.not_eq_true'] at hp
    have hnot : (s.buf b').busy = false := by
      by_contra hbusy
      have := hf b' (by simpa using hbusy) hp.1
      rw [hp.2] at this
      simp at this
    simp only [hnot, Bool.false_and, Bool.false_eq_true, if_false]
    exact ⟨_, _, rfl⟩

theorem bufGetblk_got (hf : Free s key) (h : bufGetblk key s = some (b, s')) :
    Got s s' b key := by
  rw [bufGetblk] at h
  split at h
  · rename_i b0 hfound
    have hp := List.find?_some hfound
    simp only [Bool.and_eq_true, beq_iff_eq, Bool.not_eq_true'] at hp
    have hfree : (s.buf b0).busy = false := by
      by_contra hb
      have := hf b0 (by simpa using hb) hp.1
      rw [hp.2] at this
      simp at this
    rw [hfree] at h
    simp only [Bool.false_and, Bool.false_eq_true, if_false, Option.some.injEq,
      Prod.mk.injEq] at h
    obtain ⟨rfl, rfl⟩ := h
    refine ⟨hfree, ?_, fun b' hne => ?_, fun b' hb' => ?_, rfl, fun _ hl => hl⟩
    · simp [State.setBuf, hp]
    · simp [State.setBuf, Function.update_of_ne hne]
    · have hne : b' ≠ b0 := by
        rintro rfl
        rw [hfree] at hb'
        simp at hb'
      simp [State.setBuf, Function.update_of_ne hne]
  · split at h
    · simp at h
    · rename_i b0 hnew
      have hfree : (s.buf b0).busy = false := by simpa using List.find?_some hnew
      simp only [Option.some.injEq, Prod.mk.injEq] at h
      obtain ⟨rfl, rfl⟩ := h
      refine ⟨hfree, ?_, fun b' hne => ?_, fun b' hb' => ?_, rfl,
        fun _ hl => mem_toHead hl⟩
      · simp [State.toHead, State.setBuf]
      · simp [State.toHead, State.setBuf, Function.update_of_ne hne]
      · have hne : b' ≠ b0 := by
          rintro rfl
          rw [hfree] at hb'
          simp at hb'
        simp [State.toHead, State.setBuf, Function.update_of_ne hne]


theorem brelse_off (h : brelse b s = some ((), s')) :
    Off b s s' ∧ (s'.buf b).busy = false := by
  rw [brelse] at h
  split at h <;> simp only [Option.some.injEq, Prod.mk.injEq, true_and] at h <;> subst h
  · exact ⟨⟨(off_setBuf (s.toHead b) b _).others, rfl,
      fun _ hl => mem_toHead hl⟩,
      by simp [State.setBuf]⟩
  · rename_i hbusy
    exact ⟨⟨fun _ _ => ⟨rfl, rfl, rfl⟩, rfl, fun _ hl => hl⟩, by simpa using hbusy⟩

theorem bufWait_off (h : bufWait b e s = some ((), s')) :
    Off b s s' ∧ (s'.buf b).busy = (s.buf b).busy ∧ (e = OK → Quiet s s') ∧
      (e ≠ OK → (s'.buf b).inval = true) := by
  have hsem := quiet_setBuf s b (fun bp => { bp with sem := true }) ⟨rfl, rfl, rfl⟩
  unfold bufWait at h
  split at h <;> simp only [Option.some.injEq, Prod.mk.injEq, true_and] at h <;> subst h
  · rename_i herr
    have hinval := off_setBuf (s.setBuf b fun bp => { bp with sem := true }) b
      fun bp => { bp with inval := true }
    refine ⟨(hsem.off b).trans ⟨hinval.others, rfl, fun _ hl => mem_toHead hl⟩, ?_,
      fun hok => absurd hok herr.1, fun _ => ?_⟩
    · simp [State.toHead, State.setBuf]
    · simp [State.toHead, State.setBuf]
  · rename_i herr
    refine ⟨hsem.off b, by simp [State.setBuf], fun _ => hsem, fun hne => ?_⟩
    have hinval : (s.buf b).inval = true := by
      by_contra hinval
      exact herr ⟨hne, by simpa using hinval⟩
    simpa [State.setBuf] using hinval

theorem bufSwapdata_quiet {b1 b2 : Nat} (h : bufSwapdata b1 b2 s = some ((), s')) :
    Quiet s s' := by
  simp only [bufSwapdata, M.modify, Option.some.injEq, Prod.mk.injEq, true_and] at h
  subst h
  exact (quiet_setBuf s b1 _ ⟨rfl, rfl, rfl⟩).trans (quiet_setBuf _ b2 _ ⟨rfl, rfl, rfl⟩)

theorem bufInval_off (h : bufInval b s = some ((), s')) : Off b s s' := by
  simp only [bufInval, M.modify, Option.some.injEq, Prod.mk.injEq, true_and] at h
  subst h
  exact off_setBuf s b _

/-- A buffer that was got is released. -/
theorem Got.release (h : Got s s1 b key) (hrel : brelse b s1 = some ((), s')) : Same s s' :=
  h.off (brelse_off hrel).1 (brelse_off hrel).2

/-- A strategy routine in the states of `P`: it succeeds, or a block could not be read. -/
def Reads (P : State → Prop) (strategy : Nat → M Int) : Prop :=
  ∀ s b e s', P s → (s.buf b).busy = true → strategy b s = some (e, s') →
    (e = OK ∧ Same s s') ∨ (e ≠ OK ∧ Failed s s')

/-- A strategy routine in the states of `P`, whatever comes of it. -/
def Writes (P : State → Prop) (strategy : Nat → M Int) : Prop :=
  ∀ s b e s', P s → (s.buf b).busy = true → strategy b s = some (e, s') → Same s s'

/-- What comes of `bread`. -/
def BreadPost (s s' : State) (b : Nat) (key : Nat × Nat) (e : Int) : Prop :=
  (e = OK ∧ Got s s' b key) ∨ (e ≠ OK ∧ Leak s s')

theorem bread_post {P : State → Prop} {strategy : Nat → M Int} (hread : Reads P strategy)
    (hf : Free s key) (hP : ∀ s2 b, Got s s2 b key → P s2)
    (h : bread strategy key s = some ((b, e), s')) : BreadPost s s' b key e := by
  rw [bread, M.bind_some] at h
  obtain ⟨b0, s1, hget, h⟩ := h
  have hgot := bufGetblk_got hf hget
  rw [M.get_bind] at h
  split at h
  · obtain ⟨⟨⟩, rfl⟩ := M.pure_some.1 h
    exact .inl ⟨rfl, hgot⟩
  · obtain ⟨⟨⟩, s2, hmod, h⟩ := M.bind_some.1 h
    simp only [M.modify, Option.some.injEq, Prod.mk.injEq, true_and] at hmod
    -- `B_INVAL` is not set
    have hgot2 : Got s s2 b0 key := by
      rw [← hmod]
      exact hgot.same (quiet_setBuf s1 b0 _ ⟨rfl, rfl, hgot.self.2.2.symm⟩).same
    obtain ⟨error, s3, hstrat, h⟩ := M.bind_some.1 h
    obtain ⟨⟨⟩, s4, hwait, h⟩ := M.bind_some.1 h
    obtain ⟨⟨⟩, rfl⟩ := M.pure_some.1 h
    obtain ⟨hoff, hbusy, hquiet, hinval⟩ := bufWait_off hwait
    obtain ⟨rfl, hsame⟩ | ⟨hne, hfailed⟩ :=
      hread s2 b e s3 (hP s2 b hgot2) hgot2.self.1 hstrat
    · exact .inl ⟨rfl, (hgot2.same hsame).same (hquiet rfl).same⟩
    · exact .inr ⟨hne, hgot2.leak hfailed hoff hbusy (hinval hne)⟩

/-- `bwrite` releases the buffer, whatever comes of the transfer. -/
theorem Got.bwrite {P : State → Prop} {strategy : Nat → M Int} (hwrite : Writes P strategy)
    (hgot : Got s s1 b key) (hP : P s1) (h : FsBuf.bwrite strategy b s1 = some (e, s')) :
    Same s s' := by
  rw [FsBuf.bwrite, M.get_bind] at h
  split at h
  · obtain ⟨⟨⟩, s2, hrel, h⟩ := M.bind_some.1 h
    obtain ⟨rfl, rfl⟩ := M.pure_some.1 h
    exact hgot.release hrel
  · obtain ⟨error, s2, hstrat, h⟩ := M.bind_some.1 h
    obtain ⟨⟨⟩, s3, hwait, h⟩ := M.bind_some.1 h
    obtain ⟨⟨⟩, s4, hrel, h⟩ := M.bind_some.1 h
    obtain ⟨rfl, rfl⟩ := M.pure_some.1 h
    have hgot2 := hgot.same (hwrite s1 b error s2 hP hgot.self.1 hstrat)
    exact hgot2.off ((bufWait_off hwait).1.trans (brelse_off hrel).1) (brelse_off hrel).2

section Operations

variable {dev : Dev} {syncer : Nat}

theorem readTransfer_reads (dev : Dev) (blkno : Nat) :
    Reads (fun _ => True) (readTransfer dev blkno) := by
  intro s b e s' _ hb h
  rw [readTransfer, Option.map_eq_some_iff] at h
  obtain ⟨status, -, h⟩ := h
  simp only at h
  split at h <;> simp only [Prod.mk.injEq] at h <;> obtain ⟨rfl, rfl⟩ := h
  · exact .inr ⟨by decide, fun b' hb' => ⟨hb', rfl⟩,
      fun b' hfree hb' => absurd hb' (by simp [hfree]), rfl, fun _ hl => hl⟩
  · have hquiet := quiet_setBuf s b (fun bp =>
      { bp with data := if dev.moves s.xfers then s.disk blkno else bp.data }) ⟨rfl, rfl, rfl⟩
    exact .inl ⟨rfl, ⟨hquiet.same.busy, hquiet.same.held, rfl, fun _ hl => hl⟩⟩

theorem writeTransfer_quiet {blkno : Nat} (h : writeTransfer dev blkno b s = some (e, s')) :
    Quiet s s' := by
  rw [writeTransfer, Option.map_eq_some_iff] at h
  obtain ⟨status, -, h⟩ := h
  simp only at h
  split at h <;> simp only [Prod.mk.injEq] at h <;> obtain ⟨rfl, rfl⟩ := h
  · exact ⟨fun _ => ⟨rfl, rfl, rfl⟩, rfl, fun _ hl => hl⟩
  · exact ⟨fun _ => ⟨rfl, rfl, rfl⟩, rfl, fun _ hl => hl⟩

theorem writeTransfer_writes (dev : Dev) (blkno : Nat) :
    Writes (fun _ => True) (writeTransfer dev blkno) :=
  fun _ _ _ _ _ _ h => (writeTransfer_quiet h).same

theorem breadDev_post {vp blkno : Nat} (hf : Free s (vp, blkno))
    (h : breadDev dev vp blkno s = some ((b, e), s')) : BreadPost s s' b (vp, blkno) e :=
  bread_post (readTransfer_reads dev blkno) hf (fun _ _ _ => trivial) h

theorem bufStartwrite_off {blkno : Nat} (h : bufStartwrite dev blkno b s = some (e, s')) :
    Off b s s' ∧ (s'.buf b).busy = false := by
  rw [bufStartwrite, M.bind_some] at h
  obtain ⟨error, s1, hwrite, h⟩ := h
  obtain ⟨⟨⟩, s2, hrel, h⟩ := M.bind_some.1 h
  obtain ⟨⟨⟩, s3, hwait, h⟩ := M.bind_some.1 h
  obtain ⟨rfl, rfl⟩ := M.pure_some.1 h
  obtain ⟨hoff, hbusy, -, -⟩ := bufWait_off hwait
  obtain ⟨hoff1, hfree⟩ := brelse_off hrel
  exact ⟨(((writeTransfer_quiet hwrite).off b).trans hoff1).trans hoff, hbusy.trans hfree⟩

/-- Nothing of the syncer is busy and valid. -/
def FreeOf (syncer : Nat) (s : State) : Prop := ∀ blkno, Free s (syncer, blkno)

theorem Same.freeOf (h : Same s s') (hf : FreeOf syncer s) : FreeOf syncer s' :=
  fun blkno => h.free (hf blkno)

theorem Got.freeOf {vp lbn : Nat} (h : Got s s1 b (vp, lbn)) (hf : FreeOf syncer s)
    (hne : vp ≠ syncer) : FreeOf syncer s1 :=
  fun blkno => h.freeOther (hf blkno) fun heq => hne (congrArg Prod.fst heq)

/-- The data of a block of the device go into the buffer of a file, and the other buffer is
released. -/
theorem swap_same {tmp blkno : Nat} (hgot : Got s s1 tmp (syncer, blkno))
    (h : (do
      bufSwapdata tmp b
      bufInval tmp
      brelse tmp
      return OK : M Int) s1 = some (e, s')) : e = OK ∧ Same s s' := by
  obtain ⟨⟨⟩, s2, hswap, h⟩ := M.bind_some.1 h
  obtain ⟨⟨⟩, s3, hinval, h⟩ := M.bind_some.1 h
  obtain ⟨⟨⟩, s4, hrel, h⟩ := M.bind_some.1 h
  obtain ⟨rfl, rfl⟩ := M.pure_some.1 h
  have hoff := ((bufSwapdata_quiet hswap).off tmp).trans (bufInval_off hinval)
  exact ⟨rfl, hgot.off (hoff.trans (brelse_off hrel).1) (brelse_off hrel).2⟩

theorem rt11VopInternalReadStrategy_reads (f : Rt11File) (lbn : Nat) :
    Reads (FreeOf syncer) (rt11VopInternalReadStrategy dev syncer f lbn) := by
  intro s b e s' hP hb h
  rw [rt11VopInternalReadStrategy, M.bind_some] at h
  obtain ⟨⟨tmp, error⟩, s1, hread, h⟩ := h
  simp only at h
  obtain ⟨rfl, hgot⟩ | ⟨hne, hleak⟩ := breadDev_post (hP _) hread
  · exact .inl (swap_same hgot (by simpa using h))
  · rw [if_pos hne] at h
    obtain ⟨rfl, rfl⟩ := M.pure_some.1 h
    exact .inr ⟨hne, hleak.toFailed⟩

theorem rt11VopInternalWriteStrategy_writes (f : Rt11File) (lbn : Nat) :
    Writes (FreeOf syncer) (rt11VopInternalWriteStrategy dev syncer f lbn) := by
  intro s b e s' hP hb h
  rw [rt11VopInternalWriteStrategy, M.bind_some] at h
  obtain ⟨tmp, s1, hget, h⟩ := h
  obtain ⟨⟨⟩, s2, hswap, h⟩ := M.bind_some.1 h
  obtain ⟨error, s3, hwrite, h⟩ := M.bind_some.1 h
  obtain ⟨⟨⟩, s4, hswap2, h⟩ := M.bind_some.1 h
  obtain ⟨⟨⟩, s5, hinval, h⟩ := M.bind_some.1 h
  obtain ⟨⟨⟩, s6, hrel, h⟩ := M.bind_some.1 h
  obtain ⟨rfl, rfl⟩ := M.pure_some.1 h
  have hoff := ((bufSwapdata_quiet hswap).off tmp).trans (bufStartwrite_off hwrite).1
  have hoff2 := ((bufSwapdata_quiet hswap2).off tmp).trans (bufInval_off hinval)
  exact (bufGetblk_got (hP _) hget).off ((hoff.trans hoff2).trans (brelse_off hrel).1)
    (brelse_off hrel).2

/-- What comes of a read of a block of the file. -/
def Breads (vp : Nat) (breadFile : Nat → M (Nat × Int)) : Prop :=
  ∀ s lbn b e s', Stale s → breadFile lbn s = some ((b, e), s') →
    ∃ blkno, BreadPost s s' b (vp, blkno) e

theorem Stale.freeOf (h : Stale s) (vp : Nat) : FreeOf vp s := fun _ b hb _ => h b hb

theorem Same.stale (h : Same s s') (hstale : Stale s) : Stale s' := by
  intro b hb
  rw [h.busy] at hb
  rw [(h.held b hb).2]
  exact hstale b hb

theorem Failed.stale (h : Failed s s') (hstale : Stale s) : Stale s' := by
  intro b hb'
  by_cases hb : (s.buf b).busy = true
  · rw [(h.keeps b hb).2]
    exact hstale b hb
  · exact h.fresh b (by simpa using hb) hb'

theorem breadDev_breads (dev : Dev) (vp : Nat) : Breads vp (breadDev dev vp) :=
  fun _ lbn _ _ _ hstale h => ⟨lbn, breadDev_post (hstale.freeOf vp lbn) h⟩

theorem rt11Bread_breads (f : Rt11File) {vp : Nat} (hvp : vp ≠ syncer) :
    Breads vp (rt11Bread dev syncer f vp) :=
  fun _ lbn _ _ _ hstale h => ⟨lbn,
    bread_post (rt11VopInternalReadStrategy_reads f lbn) (hstale.freeOf vp lbn)
      (fun _ _ hgot => hgot.freeOf (hstale.freeOf syncer) hvp) h⟩

theorem readLoop_done {vp : Nat} {breadFile : Nat → M (Nat × Int)}
    (hbread : Breads vp breadFile) (blkSize : Nat) (trunc : Int → Int) (fuel : Nat) :
    ∀ (lbn : Nat) (off bytesToRead bytesToEOF uio_resid : Int) (moved : List UInt8) (s s' : State)
      (r : Int × List UInt8), Stale s →
      readLoop breadFile blkSize trunc fuel lbn off bytesToRead bytesToEOF uio_resid moved s =
        some (r, s') → Done s s' := by
  induction fuel with
  | zero =>
    intro lbn off bytesToRead bytesToEOF uio_resid moved s s' r _ h
    simp [readLoop, M.hang] at h
  | succ fuel ih =>
    intro lbn off bytesToRead bytesToEOF uio_resid moved s s' r hstale h
    rw [readLoop] at h
    split at h
    · obtain ⟨-, rfl⟩ := M.pure_some.1 h
      exact Or.inl (Same.refl s)
    obtain ⟨⟨b, error⟩, s1, hread, h⟩ := M.bind_some.1 h
    obtain ⟨blkno, ⟨rfl, hgot⟩ | ⟨hne, hleak⟩⟩ := hbread s lbn b error s1 hstale hread
    · simp only [ne_eq, not_true_eq_false, if_false] at h
      rw [M.get_bind] at h
      obtain ⟨⟨⟩, s2, hrel, h⟩ := M.bind_some.1 h
      have hsame := hgot.release hrel
      obtain ⟨-, h⟩ | ⟨-, h⟩ := M.ite_some.1 h
      · obtain ⟨-, rfl⟩ := M.pure_some.1 h
        exact .inl hsame
      · exact hsame.done (ih _ _ _ _ _ _ _ _ _ (hsame.stale hstale) h)
    · simp only [if_pos hne, M.pure_eq, Option.some.injEq, Prod.mk.injEq] at h
      obtain ⟨-, rfl⟩ := h
      exact Or.inr hleak

theorem blockToWrite_post {vp : Nat} {breadFile : Nat → M (Nat × Int)} {getFile : Nat → M Nat}
    (hbread : Breads vp breadFile)
    (hget : ∀ s lbn b s', Stale s → getFile lbn s = some (b, s') →
      ∃ blkno, Got s s' b (vp, blkno))
    {inPart : Bool} {lbn : Nat} (hstale : Stale s)
    (h : blockToWrite breadFile getFile inPart lbn s = some ((b, e), s')) :
    ∃ blkno, BreadPost s s' b (vp, blkno) e := by
  rw [blockToWrite] at h
  split at h
  · exact hbread s lbn b e s' hstale h
  · obtain ⟨b0, s1, hgot, h⟩ := M.bind_some.1 h
    obtain ⟨⟨⟩, rfl⟩ := M.pure_some.1 h
    obtain ⟨blkno, hgot⟩ := hget s lbn b s1 hstale hgot
    exact ⟨blkno, Or.inl ⟨rfl, hgot⟩⟩

theorem writeLoop_done {vp : Nat} {breadFile : Nat → M (Nat × Int)} {getFile : Nat → M Nat}
    {writeFile : Nat → Nat → M Int} (hbread : Breads vp breadFile)
    (hget : ∀ s lbn b s', Stale s → getFile lbn s = some (b, s') →
      ∃ blkno, Got s s' b (vp, blkno))
    (hwrite : ∀ s s1 s' lbn b blkno e, Stale s → Got s s1 b (vp, blkno) →
      writeFile lbn b s1 = some (e, s') → Same s s')
    {grow : Nat → M Unit} (hgrow : ∀ lbn s s', grow lbn s = some ((), s') → Same s s')
    (blkSize fuel : Nat) :
    ∀ (lbn : Nat) (off bytesToEOF : Int) (bytes : List UInt8) (s s' : State)
      (r : Int × List UInt8), Stale s →
      writeLoop breadFile getFile writeFile grow blkSize fuel lbn off bytesToEOF bytes s =
        some (r, s') → Done s s' := by
  induction fuel with
  | zero =>
    intro lbn off bytesToEOF bytes s s' r _ h
    simp [writeLoop, M.hang] at h
  | succ fuel ih =>
    intro lbn off bytesToEOF bytes s s' r hstale h
    rw [writeLoop] at h
    split at h
    · obtain ⟨-, rfl⟩ := M.pure_some.1 h
      exact Or.inl (Same.refl s)
    obtain ⟨-, h⟩ | ⟨-, h⟩ := M.ite_some.1 h
    · obtain ⟨-, rfl⟩ := M.pure_some.1 h
      exact Or.inl (Same.refl s)
    obtain ⟨⟨b, error⟩, s1, hread, h⟩ := M.bind_some.1 h
    obtain ⟨blkno, ⟨rfl, hgot⟩ | ⟨hne, hleak⟩⟩ := blockToWrite_post hbread hget hstale hread
    · simp only [ne_eq, not_true_eq_false, if_false] at h
      obtain ⟨⟨⟩, s2, hmove, h⟩ := M.bind_some.1 h
      simp only [moveIn, M.modify, Option.some.injEq, Prod.mk.injEq, true_and] at hmove
      have hgot2 : Got s s2 b (vp, blkno) := by
        rw [← hmove]
        exact hgot.same (quiet_setBuf s1 b _ ⟨rfl, rfl, rfl⟩).same
      obtain ⟨error, s3, hwr, h⟩ := M.bind_some.1 h
      have hsame := hwrite s s2 s3 lbn b blkno error hstale hgot2 hwr
      obtain ⟨-, h⟩ | ⟨-, h⟩ := M.ite_some.1 h
      · obtain ⟨-, rfl⟩ := M.pure_some.1 h
        exact .inl hsame
      · obtain ⟨⟨⟩, s4, hgrown, h⟩ := M.bind_some.1 h
        have hsame4 := hsame.trans (hgrow (lbn + 1) s3 s4 hgrown)
        exact hsame4.done (ih _ _ _ _ _ _ _ (hsame4.stale hstale) h)
    · simp only [if_pos hne, M.pure_eq, Option.some.injEq, Prod.mk.injEq] at h
      obtain ⟨-, rfl⟩ := h
      exact Or.inr hleak

theorem rawVopRead_done {v : RawVol} {vp uio_offset uio_resid : Nat} {r : Int × List UInt8}
    (hstale : Stale s) (h : rawVopRead dev v vp uio_offset uio_resid s = some (r, s')) :
    Done s s' := by
  rw [rawVopRead] at h
  split at h
  · obtain ⟨-, rfl⟩ := M.pure_some.1 h
    exact Or.inl (Same.refl s)
  · exact readLoop_done (breadDev_breads dev vp) _ _ _ _ _ _ _ _ _ _ _ _ hstale h

theorem rawVopWrite_done {v : RawVol} {vp uio_offset : Nat} {bytes : List UInt8}
    {r : Int × List UInt8} (hstale : Stale s)
    (h : rawVopWrite dev v vp uio_offset bytes s = some (r, s')) : Done s s' :=
  writeLoop_done (breadDev_breads dev vp)
    (fun _ lbn _ _ hstale h => ⟨lbn, bufGetblk_got (hstale.freeOf vp lbn) h⟩)
    (fun _ _ _ lbn _ _ _ _ hgot h => hgot.bwrite (writeTransfer_writes dev lbn) trivial h)
    (fun _ _ _ h => by
      simp only [M.pure_eq, Option.some.injEq, Prod.mk.injEq, true_and] at h
      exact h ▸ Same.refl _) _ _ _ _ _ _ _ _ _ hstale h

theorem rt11VopRead_done {f : Rt11File} {vp uio_offset uio_resid : Nat} {r : Int × List UInt8}
    (hvp : vp ≠ syncer) (hstale : Stale s)
    (h : rt11VopRead dev syncer f vp uio_offset uio_resid s = some (r, s')) : Done s s' := by
  rw [rt11VopRead] at h
  split at h
  · obtain ⟨-, rfl⟩ := M.pure_some.1 h
    exact Or.inl (Same.refl s)
  · rw [M.get_bind] at h
    exact readLoop_done (rt11Bread_breads f hvp) _ _ _ _ _ _ _ _ _ _ _ _ hstale h

theorem rt11Grow_same {vp lbn : Nat} (h : rt11Grow vp lbn s = some ((), s')) : Same s s' := by
  simp only [rt11Grow, M.modify, Option.some.injEq, Prod.mk.injEq, true_and] at h
  subst h
  split
  · exact ⟨fun _ => rfl, fun _ _ => ⟨rfl, rfl⟩, rfl, fun _ hl => hl⟩
  · exact Same.refl s

theorem rt11VopWrite_done {f : Rt11File} {vp uio_offset : Nat} {bytes : List UInt8}
    {r : Int × List UInt8} (hvp : vp ≠ syncer) (hstale : Stale s)
    (h : rt11VopWrite dev syncer f vp uio_offset bytes s = some (r, s')) : Done s s' :=
  writeLoop_done (rt11Bread_breads f hvp)
    (fun _ lbn _ _ hstale h => ⟨lbn, bufGetblk_got (hstale.freeOf vp lbn) h⟩)
    (fun _ _ _ lbn _ _ _ hstale hgot h => hgot.bwrite
      (rt11VopInternalWriteStrategy_writes f lbn) (hgot.freeOf (hstale.freeOf syncer) hvp) h)
    (fun _ _ _ h => rt11Grow_same h) _ _ _ _ _ _ _ _ _ hstale h

/-! ## ext2 -/

theorem modify_same {f : State → State} (h : M.modify f s = some ((), s'))
    (hbuf : ∀ s, (f s).buf = s.buf) (hbad : ∀ s, (f s).bad = s.bad)
    (hlist : ∀ s, (f s).list = s.list) : Same s s' := by
  simp only [M.modify, Option.some.injEq, Prod.mk.injEq, true_and] at h
  subst h
  refine ⟨fun b => by rw [hbuf], fun b _ => ?_, hbad s, fun b hl => by rwa [hlist]⟩
  rw [hbuf]
  exact ⟨rfl, rfl⟩

theorem physLoop_reads (level : Nat) :
    ∀ (trieMap : Ext2.TrieMap) (s s' : State) (r : Int × Ext2.TrieMap), FreeOf syncer s →
      physLoop dev syncer level trieMap s = some (r, s') →
      (r.1 = OK ∧ Same s s') ∨ (r.1 ≠ OK ∧ Leak s s') := by
  induction level with
  | zero =>
    intro trieMap s s' r _ h
    rw [physLoop] at h
    obtain ⟨rfl, rfl⟩ := M.pure_some.1 h
    exact .inl ⟨rfl, Same.refl s⟩
  | succ level ih =>
    intro trieMap s s' r hfree h
    rw [physLoop, M.ite_some] at h
    obtain ⟨-, h⟩ | ⟨-, h⟩ := h
    · obtain ⟨rfl, rfl⟩ := M.pure_some.1 h
      exact .inl ⟨rfl, Same.refl s⟩
    obtain ⟨⟨b, error⟩, s1, hread, h⟩ := M.bind_some.1 h
    obtain ⟨rfl, hgot⟩ | ⟨hne, hleak⟩ := breadDev_post (hfree _) hread
    · simp only [ne_eq, not_true_eq_false, if_false] at h
      rw [M.get_bind] at h
      obtain ⟨⟨⟩, s2, hrel, h⟩ := M.bind_some.1 h
      have hsame := hgot.release hrel
      obtain ⟨hok, hsame'⟩ | ⟨hne, hleak⟩ := ih _ _ _ _ (hsame.freeOf hfree) h
      · exact .inl ⟨hok, hsame.trans hsame'⟩
      · exact .inr ⟨hne, hsame.leak hleak⟩
    · simp only [if_pos hne, M.pure_eq, Option.some.injEq, Prod.mk.injEq] at h
      obtain ⟨rfl, rfl⟩ := h
      exact .inr ⟨hne, hleak⟩

theorem ext2fsPhysFind_ends {v : Ext2Vol} {vp blkNum : Nat} (hfree : FreeOf syncer s)
    (h : ext2fsPhysFind dev syncer v vp blkNum s = some (e, s')) : Ends s s' e := by
  rw [ext2fsPhysFind, M.get_bind] at h
  rcases hsearch : Ext2.ext2fsPhysFindCacheSearch v.vol (s.inodes vp).i_block
    (s.inodes vp).cachedTrieMap (Util.u32 blkNum) with _ | ⟨level, trieMap⟩
  · simp only [hsearch, M.pure_eq, Option.some.injEq, Prod.mk.injEq] at h
    obtain ⟨-, rfl⟩ := h
    exact Or.inl (Same.refl _)
  · simp only [hsearch] at h
    obtain ⟨⟨error, trieMap⟩, s2, hloop, h⟩ := M.bind_some.1 h
    obtain ⟨hok, hsame⟩ | ⟨hne, hleak⟩ := physLoop_reads _ _ _ _ _ hfree hloop
    · simp only at hok
      subst hok
      simp only [ne_eq, not_true_eq_false, if_false] at h
      obtain ⟨⟨⟩, s3, hmod, h⟩ := M.bind_some.1 h
      obtain ⟨-, rfl⟩ := M.pure_some.1 h
      exact Or.inl (hsame.trans (modify_same hmod (fun _ => rfl) (fun _ => rfl) fun _ => rfl))
    · simp only [if_pos hne, M.pure_eq, Option.some.injEq, Prod.mk.injEq] at h
      obtain ⟨rfl, rfl⟩ := h
      exact Or.inr ⟨hne, hleak⟩

theorem ext2fsVopInternalReadStrategy_reads (vp : Nat) :
    Reads (FreeOf syncer) (ext2fsVopInternalReadStrategy dev syncer vp) := by
  intro s b e s' hP hb h
  rw [ext2fsVopInternalReadStrategy, M.get_bind] at h
  obtain ⟨-, h⟩ | ⟨-, h⟩ := M.ite_some.1 h
  · obtain ⟨⟨⟩, s2, hmod, h⟩ := M.bind_some.1 h
    obtain ⟨rfl, rfl⟩ := M.pure_some.1 h
    simp only [M.modify, Option.some.injEq, Prod.mk.injEq, true_and] at hmod
    subst hmod
    exact .inl ⟨rfl, (quiet_setBuf s b _ ⟨rfl, rfl, rfl⟩).same⟩
  obtain ⟨⟨tmp, error⟩, s2, hread, h⟩ := M.bind_some.1 h
  simp only at h
  obtain ⟨rfl, hgot⟩ | ⟨hne, hleak⟩ := breadDev_post (hP _) hread
  · exact .inl (swap_same hgot (by simpa using h))
  · rw [if_pos hne] at h
    obtain ⟨rfl, rfl⟩ := M.pure_some.1 h
    exact .inr ⟨hne, hleak.toFailed⟩

theorem ext2fsVopStrategy_reads (v : Ext2Vol) (vp lbn : Nat) :
    Reads (FreeOf syncer) (ext2fsVopStrategy dev syncer v vp lbn) := by
  intro s b e s' hP hb h
  rw [ext2fsVopStrategy, M.bind_some] at h
  obtain ⟨error, s1, hfind, h⟩ := h
  have hdone := ext2fsPhysFind_ends hP hfind
  obtain ⟨hne, h⟩ | ⟨hok, h⟩ := M.ite_some.1 h
  · obtain ⟨⟨⟩, s2, hmod, h⟩ := M.bind_some.1 h
    obtain ⟨rfl, rfl⟩ := M.pure_some.1 h
    simp only [M.modify, Option.some.injEq, Prod.mk.injEq, true_and] at hmod
    subst hmod
    refine .inr ⟨hne, ?_⟩
    obtain hsame | ⟨-, hleak⟩ := hdone
    · exact ⟨fun b hb => ⟨(hsame.busy b).trans hb, (hsame.held b hb).2⟩,
        fun b hfree hb => absurd hb (by rw [hsame.busy, hfree]; simp), rfl, hsame.list⟩
    · exact ⟨hleak.keeps, hleak.fresh, rfl, hleak.list⟩
  · obtain hsame | ⟨hne, -⟩ := hdone
    · obtain ⟨hok, hsame'⟩ | ⟨hne, hfailed⟩ := ext2fsVopInternalReadStrategy_reads vp s1 b e s'
        (hsame.freeOf hP) ((hsame.busy b).trans hb) h
      · exact .inl ⟨hok, hsame.trans hsame'⟩
      · exact .inr ⟨hne, hsame.failed hfailed⟩
    · exact absurd hne hok

theorem ext2Bread_breads (v : Ext2Vol) {vp : Nat} (hvp : vp ≠ syncer) :
    Breads vp (ext2Bread dev syncer v vp) :=
  fun _ lbn _ _ _ hstale h => ⟨lbn,
    bread_post (ext2fsVopStrategy_reads v vp lbn) (hstale.freeOf vp lbn)
      (fun _ _ hgot => hgot.freeOf (hstale.freeOf syncer) hvp) h⟩

theorem ext2fsVopRead_done {v : Ext2Vol} {vp uio_offset uio_resid : Nat} {r : Int × List UInt8}
    (hvp : vp ≠ syncer) (hstale : Stale s)
    (h : ext2fsVopRead dev syncer v vp uio_offset uio_resid s = some (r, s')) : Done s s' := by
  rw [ext2fsVopRead, M.ite_some] at h
  obtain ⟨-, h⟩ | ⟨-, h⟩ := h
  · obtain ⟨-, rfl⟩ := M.pure_some.1 h
    exact Or.inl (Same.refl s)
  · rw [M.get_bind] at h
    exact readLoop_done (fun s lbn => ext2Bread_breads v hvp s (Util.u32 lbn)) _ _ _ _ _ _ _ _ _ _ _ _
      hstale h

theorem ext2fsGroupDescriptorRead_ends {v : Ext2Vol} {i gdNum : Nat} (hstale : Stale s)
    (h : ext2fsGroupDescriptorRead dev syncer v i gdNum s = some (e, s')) : Ends s s' e := by
  rw [ext2fsGroupDescriptorRead, M.bind_some] at h
  obtain ⟨⟨b, error⟩, s1, hread, h⟩ := h
  obtain ⟨rfl, hgot⟩ | ⟨hne, hleak⟩ := breadDev_post (hstale.freeOf syncer _) hread
  · simp only [ne_eq, not_true_eq_false, if_false] at h
    obtain ⟨⟨⟩, s2, hmod, h⟩ := M.bind_some.1 h
    obtain ⟨⟨⟩, s3, hrel, h⟩ := M.bind_some.1 h
    obtain ⟨-, rfl⟩ := M.pure_some.1 h
    have hgot2 := hgot.same (modify_same hmod (fun _ => rfl) (fun _ => rfl) fun _ => rfl)
    exact .inl (hgot2.release hrel)
  · simp only [if_pos hne, M.pure_eq, Option.some.injEq, Prod.mk.injEq] at h
    obtain ⟨rfl, rfl⟩ := h
    exact Or.inr ⟨hne, hleak⟩

theorem groupLoop_ends {v : Ext2Vol} {bgNum : Nat} (n : Nat) :
    ∀ (i : Nat) (s s' : State) (e : Int), Stale s →
      groupLoop dev syncer v bgNum i n s = some (e, s') → Ends s s' e := by
  induction n with
  | zero =>
    intro i s s' e _ h
    rw [groupLoop] at h
    obtain ⟨-, rfl⟩ := M.pure_some.1 h
    exact Or.inl (Same.refl s)
  | succ n ih =>
    intro i s s' e hstale h
    rw [groupLoop, M.bind_some] at h
    obtain ⟨error, s1, hread, h⟩ := h
    have hends := ext2fsGroupDescriptorRead_ends hstale hread
    obtain ⟨-, h⟩ | ⟨hok, h⟩ := M.ite_some.1 h
    · obtain ⟨rfl, rfl⟩ := M.pure_some.1 h
      exact hends
    · have hsame := hends.same hok
      exact hsame.ends (ih _ _ _ _ (hsame.stale hstale) h)

theorem ext2fsGroupDescriptorsRead_ends {v : Ext2Vol} {bgNum : Nat} (hstale : Stale s)
    (h : ext2fsGroupDescriptorsRead dev syncer v bgNum s = some (e, s')) : Ends s s' e := by
  rw [ext2fsGroupDescriptorsRead, M.bind_some] at h
  obtain ⟨⟨⟩, s1, hmod, h⟩ := h
  have hsame := modify_same hmod (fun _ => rfl) (fun _ => rfl) fun _ => rfl
  exact hsame.ends (groupLoop_ends _ _ _ _ _ (hsame.stale hstale) h)

theorem inodeRead_ends {v : Ext2Vol} {vp blkGroup : Nat} (hstale : Stale s)
    (h : inodeRead dev syncer v vp blkGroup s = some (e, s')) : Ends s s' e := by
  rw [inodeRead, M.get_bind] at h
  obtain ⟨⟨b, error⟩, s1, hread, h⟩ := M.bind_some.1 h
  obtain ⟨rfl, hgot⟩ | ⟨hne, hleak⟩ := breadDev_post (hstale.freeOf syncer _) hread
  · simp only [ne_eq, not_true_eq_false, if_false] at h
    obtain ⟨⟨⟩, s2, hmod, h⟩ := M.bind_some.1 h
    obtain ⟨⟨⟩, s3, hrel, h⟩ := M.bind_some.1 h
    obtain ⟨-, rfl⟩ := M.pure_some.1 h
    have hgot2 := hgot.same (modify_same hmod (fun _ => rfl) (fun _ => rfl) fun _ => rfl)
    exact .inl (hgot2.release hrel)
  · simp only [if_pos hne, M.pure_eq, Option.some.injEq, Prod.mk.injEq] at h
    obtain ⟨rfl, rfl⟩ := h
    exact Or.inr ⟨hne, hleak⟩

theorem ext2fsInodeGet_ends {v : Ext2Vol} {vp : Nat} (hstale : Stale s)
    (h : ext2fsInodeGet dev syncer v vp s = some (e, s')) : Ends s s' e := by
  rw [ext2fsInodeGet, M.get_bind] at h
  obtain ⟨-, h⟩ | ⟨-, h⟩ := M.ite_some.1 h
  · obtain ⟨-, rfl⟩ := M.pure_some.1 h
    exact Or.inl (Same.refl _)
  obtain ⟨-, h⟩ | ⟨-, h⟩ := M.ite_some.1 h
  · obtain ⟨error, s1, hread, h⟩ := M.bind_some.1 h
    have hends := ext2fsGroupDescriptorsRead_ends hstale hread
    obtain ⟨-, h⟩ | ⟨hok, h⟩ := M.ite_some.1 h
    · obtain ⟨rfl, rfl⟩ := M.pure_some.1 h
      exact hends
    · have hsame := hends.same hok
      exact hsame.ends (inodeRead_ends (hsame.stale hstale) h)
  · exact inodeRead_ends hstale h

theorem vgetino_ends {v : Ext2Vol} {vget : Nat → Vget} {inode : Nat} (hstale : Stale s)
    (h : vgetino dev syncer v vget inode s = some (e, s')) : Ends s s' e := by
  rw [vgetino] at h
  rcases hvget : vget inode with _ | e' | vp
  · simp only [hvget, M.pure_eq, Option.some.injEq, Prod.mk.injEq] at h
    obtain ⟨-, rfl⟩ := h
    exact Or.inl (Same.refl s)
  · simp only [hvget, M.pure_eq, Option.some.injEq, Prod.mk.injEq] at h
    obtain ⟨-, rfl⟩ := h
    exact Or.inl (Same.refl s)
  · simp only [hvget] at h
    obtain ⟨⟨⟩, s1, hmod, h⟩ := M.bind_some.1 h
    have hsame := modify_same hmod (fun _ => rfl) (fun _ => rfl) fun _ => rfl
    obtain ⟨error, s2, hget, h⟩ := M.bind_some.1 h
    have hends := hsame.ends (ext2fsInodeGet_ends (hsame.stale hstale) hget)
    obtain ⟨-, h⟩ | ⟨hok, h⟩ := M.ite_some.1 h
    · obtain ⟨rfl, rfl⟩ := M.pure_some.1 h
      exact hends
    · obtain ⟨⟨⟩, s3, hmod', h⟩ := M.bind_some.1 h
      obtain ⟨-, rfl⟩ := M.pure_some.1 h
      exact .inl ((hends.same hok).trans (modify_same hmod' (fun _ => rfl) (fun _ => rfl) fun _ => rfl))

theorem ext2fsDirEntryRead_ends {v : Ext2Vol} {vp offset : Nat} {r : Int × Option DirEntry}
    (hvp : vp ≠ syncer) (hstale : Stale s)
    (h : ext2fsDirEntryRead dev syncer v vp offset s = some (r, s')) : Ends s s' r.1 := by
  rw [ext2fsDirEntryRead, M.get_bind] at h
  obtain ⟨-, h⟩ | ⟨-, h⟩ := M.ite_some.1 h
  · obtain ⟨-, rfl⟩ := M.pure_some.1 h
    exact Or.inl (Same.refl _)
  obtain ⟨-, h⟩ | ⟨-, h⟩ := M.ite_some.1 h
  · obtain ⟨-, rfl⟩ := M.pure_some.1 h
    exact Or.inl (Same.refl _)
  obtain ⟨⟨b, error⟩, s1, hread, h⟩ := M.bind_some.1 h
  obtain ⟨blkno, ⟨rfl, hgot⟩ | ⟨hne, hleak⟩⟩ := ext2Bread_breads v hvp s _ b error s1 hstale hread
  · simp only [ne_eq, not_true_eq_false, if_false] at h
    rw [M.get_bind] at h
    obtain ⟨⟨⟩, s2, hrel, h⟩ := M.bind_some.1 h
    obtain ⟨-, rfl⟩ := M.pure_some.1 h
    exact Or.inl (hgot.release hrel)
  · simp only [if_pos hne, M.pure_eq, Option.some.injEq, Prod.mk.injEq] at h
    obtain ⟨rfl, rfl⟩ := h
    exact Or.inr ⟨hne, hleak⟩

theorem ext2fsVopReaddir_done {v : Ext2Vol} {vp : Nat} (hvp : vp ≠ syncer) (fuel : Nat) :
    ∀ (offset : Nat) (s s' : State) (r : Int × Option DirEntry), Stale s →
      ext2fsVopReaddir dev syncer v vp fuel offset s = some (r, s') → Done s s' := by
  induction fuel with
  | zero =>
    intro offset s s' r _ h
    simp [ext2fsVopReaddir, M.hang] at h
  | succ fuel ih =>
    intro offset s s' r hstale h
    rw [ext2fsVopReaddir, M.bind_some] at h
    obtain ⟨⟨error, entry⟩, s1, hread, h⟩ := h
    have hends := ext2fsDirEntryRead_ends hvp hstale hread
    simp only at h
    obtain ⟨-, h⟩ | ⟨hok, h⟩ := M.ite_some.1 h
    · obtain ⟨-, rfl⟩ := M.pure_some.1 h
      exact hends.done
    have hsame := hends.same hok
    rcases entry with _ | entry
    · obtain ⟨-, rfl⟩ := M.pure_some.1 h
      exact hends.done
    · simp only at h
      obtain ⟨-, h⟩ | ⟨-, h⟩ := M.ite_some.1 h
      · obtain ⟨-, rfl⟩ := M.pure_some.1 h
        exact hends.done
      · exact hsame.done (ih _ _ _ _ (hsame.stale hstale) h)

theorem lookupLoop_done {v : Ext2Vol} {vget : Nat → Vget} {vp : Nat} {name : List UInt8}
    (hvp : vp ≠ syncer) (fuel : Nat) :
    ∀ (offset : Nat) (s s' : State) (e : Int), Stale s →
      lookupLoop dev syncer v vget vp name fuel offset s = some (e, s') → Done s s' := by
  induction fuel with
  | zero =>
    intro offset s s' e _ h
    simp [lookupLoop, M.hang] at h
  | succ fuel ih =>
    intro offset s s' e hstale h
    rw [lookupLoop, M.bind_some] at h
    obtain ⟨⟨error, entry⟩, s1, hread, h⟩ := h
    have hends := ext2fsDirEntryRead_ends hvp hstale hread
    simp only at h
    obtain ⟨-, h⟩ | ⟨hok, h⟩ := M.ite_some.1 h
    · obtain ⟨-, rfl⟩ := M.pure_some.1 h
      exact hends.done
    have hsame := hends.same hok
    rcases entry with _ | entry
    · obtain ⟨-, rfl⟩ := M.pure_some.1 h
      exact hends.done
    · simp only at h
      rw [M.get_bind] at h
      obtain ⟨-, h⟩ | ⟨-, h⟩ := M.ite_some.1 h
      · obtain ⟨-, h⟩ | ⟨-, h⟩ := M.ite_some.1 h
        · obtain ⟨-, rfl⟩ := M.pure_some.1 h
          exact hends.done
        · exact hsame.done (vgetino_ends (hsame.stale hstale) h).done
      · exact hsame.done (ih _ _ _ _ (hsame.stale hstale) h)

theorem ext2fsVopLookup_done {v : Ext2Vol} {vget : Nat → Vget} {access : Int} {vp : Nat}
    {name : List UInt8} {fuel : Nat} (hvp : vp ≠ syncer) (hstale : Stale s)
    (h : ext2fsVopLookup dev syncer v vget access vp name fuel s = some (e, s')) :
    Done s s' := by
  rw [ext2fsVopLookup] at h
  split at h
  · obtain ⟨-, rfl⟩ := M.pure_some.1 h
    exact Or.inl (Same.refl s)
  split at h
  · obtain ⟨-, rfl⟩ := M.pure_some.1 h
    exact Or.inl (Same.refl s)
  · exact lookupLoop_done hvp _ _ _ _ _ hstale h

/-! ## Runs of operations -/

/-- The operations that a task does on the files of the mount with the vnode `syncer`, of which no
file is. -/
inductive Op (syncer : Nat)
  | rawRead (v : RawVol) (vp uio_offset uio_resid : Nat)
  | rawWrite (v : RawVol) (vp uio_offset : Nat) (bytes : List UInt8)
  | rt11Read (f : Rt11File) (vp : { vp // vp ≠ syncer }) (uio_offset uio_resid : Nat)
  | rt11Write (f : Rt11File) (vp : { vp // vp ≠ syncer }) (uio_offset : Nat) (bytes : List UInt8)
  | ext2Read (v : Ext2Vol) (vp : { vp // vp ≠ syncer }) (uio_offset uio_resid : Nat)
  | ext2Lookup (v : Ext2Vol) (vget : Nat → Vget) (access : Int) (vp : { vp // vp ≠ syncer })
      (name : List UInt8)
  | ext2Readdir (v : Ext2Vol) (vp : { vp // vp ≠ syncer }) (offset : Nat)
  | ext2PhysFind (v : Ext2Vol) (vp blkNum : Nat)
  | ext2InodeGet (v : Ext2Vol) (vp : Nat)
  | ext2GroupDescriptorsRead (v : Ext2Vol) (bgNum : Nat)

/-- The state after an operation that returns; its loop has some fuel. -/
def Op.run (dev : Dev) (fuel : Nat) : Op syncer → State → Option State
  | .rawRead v vp off n, s => (rawVopRead dev v vp off n s).map Prod.snd
  | .rawWrite v vp off bytes, s => (rawVopWrite dev v vp off bytes s).map Prod.snd
  | .rt11Read f vp off n, s => (rt11VopRead dev syncer f vp off n s).map Prod.snd
  | .rt11Write f vp off bytes, s => (rt11VopWrite dev syncer f vp off bytes s).map Prod.snd
  | .ext2Read v vp off n, s => (ext2fsVopRead dev syncer v vp off n s).map Prod.snd
  | .ext2Lookup v vget access vp name, s =>
    (ext2fsVopLookup dev syncer v vget access vp name fuel s).map Prod.snd
  | .ext2Readdir v vp off, s => (ext2fsVopReaddir dev syncer v vp fuel off s).map Prod.snd
  | .ext2PhysFind v vp blkNum, s => (ext2fsPhysFind dev syncer v vp blkNum s).map Prod.snd
  | .ext2InodeGet v vp, s => (ext2fsInodeGet dev syncer v vp s).map Prod.snd
  | .ext2GroupDescriptorsRead v bgNum, s =>
    (ext2fsGroupDescriptorsRead dev syncer v bgNum s).map Prod.snd

theorem Op.run_done {op : Op syncer} {fuel : Nat} (hstale : Stale s)
    (h : op.run dev fuel s = some s') : Done s s' := by
  rcases op with ⟨v, vp, off, n⟩ | ⟨v, vp, off, bytes⟩ | ⟨f, vp, off, n⟩ | ⟨f, vp, off, bytes⟩ |
    ⟨v, vp, off, n⟩ | ⟨v, vget, access, vp, name⟩ | ⟨v, vp, off⟩ | ⟨v, vp, blkNum⟩ | ⟨v, vp⟩ |
    ⟨v, bgNum⟩
  all_goals
    rw [Op.run, Option.map_eq_some_iff] at h
    obtain ⟨⟨r, s1⟩, h, hs⟩ := h
    simp only at hs
    subst hs
  · exact rawVopRead_done hstale h
  · exact rawVopWrite_done hstale h
  · exact rt11VopRead_done vp.2 hstale h
  · exact rt11VopWrite_done vp.2 hstale h
  · exact ext2fsVopRead_done vp.2 hstale h
  · exact ext2fsVopLookup_done vp.2 hstale h
  · exact ext2fsVopReaddir_done vp.2 _ _ _ _ _ hstale h
  · exact (ext2fsPhysFind_ends (hstale.freeOf syncer) h).done
  · exact (ext2fsInodeGet_ends hstale h).done
  · exact (ext2fsGroupDescriptorsRead_ends hstale h).done

/-- An operation by itself: `bad` tells of its own reads. -/
def Op.exec (dev : Dev) (fuel : Nat) (op : Op syncer) (s : State) : Option State :=
  op.run dev fuel { s with bad := false }

/-- A run of operations that return, and whether they could read all their blocks. -/
def execAll (dev : Dev) (fuel : Nat) : List (Op syncer) → State → Option (Bool × State)
  | [], s => some (true, s)
  | op :: ops, s => (op.exec dev fuel s).bind fun s1 =>
    (execAll dev fuel ops s1).map fun r => (!s1.bad && r.1, r.2)

theorem Op.exec_done {op : Op syncer} {fuel : Nat} (hstale : Stale s)
    (h : op.exec dev fuel s = some s') : Done { s with bad := false } s' :=
  Op.run_done (s := { s with bad := false }) hstale h

theorem Done.stale (h : Done s s') (hstale : Stale s) : Stale s' := by
  obtain hsame | hleak := h
  · exact hsame.stale hstale
  · exact hleak.toFailed.stale hstale

theorem Done.list (h : Done s s') (hl : b ∈ s.list) : b ∈ s'.list := by
  obtain hsame | hleak := h
  · exact hsame.list b hl
  · exact hleak.list b hl

/-- An operation leaves a buffer busy just when it could not read a block. -/
theorem Done.released_iff (h : Done { s with bad := false } s') :
    (∀ b, (s'.buf b).busy = true → (s.buf b).busy = true) ↔ s'.bad = false := by
  obtain hsame | hleak := h
  · refine ⟨fun _ => hsame.bad, fun _ b hb => ?_⟩
    rw [hsame.busy] at hb
    exact hb
  · constructor
    · intro hbusy
      obtain ⟨b, hfree, hb⟩ := hleak.leaked
      have := hbusy b hb
      simp only at hfree
      rw [hfree] at this
      simp at this
    · intro hbad
      rw [hleak.bad] at hbad
      simp at hbad

/-- What a run keeps: busy buffers are stale, there are buffers, and when all blocks could be read
none is busy. -/
theorem execAll_keeps {fuel : Nat} (ops : List (Op syncer)) :
    ∀ (s s' : State) (good : Bool), Stale s → b ∈ s.list →
      execAll dev fuel ops s = some (good, s') →
      Stale s' ∧ b ∈ s'.list ∧
        (good = true → ∀ b, (s'.buf b).busy = true → (s.buf b).busy = true) := by
  induction ops with
  | nil =>
    intro s s' good hstale hl h
    simp only [execAll, Option.some.injEq, Prod.mk.injEq] at h
    obtain ⟨-, rfl⟩ := h
    exact ⟨hstale, hl, fun _ _ hb => hb⟩
  | cons op ops ih =>
    intro s s' good hstale hl h
    rw [execAll, Option.bind_eq_some_iff] at h
    obtain ⟨s1, hop, h⟩ := h
    rw [Option.map_eq_some_iff] at h
    obtain ⟨⟨good1, s2⟩, hrest, h⟩ := h
    simp only [Prod.mk.injEq] at h
    obtain ⟨rfl, rfl⟩ := h
    have hdone := Op.exec_done hstale hop
    have hstale0 : Stale { s with bad := false } := hstale
    obtain ⟨hstale', hl', hgood⟩ := ih _ _ _ (hdone.stale hstale0) (hdone.list hl) hrest
    refine ⟨hstale', hl', fun hgood1 b hb => ?_⟩
    simp only [Bool.and_eq_true, Bool.not_eq_true'] at hgood1
    exact hdone.released_iff.mpr hgood1.1 b (hgood hgood1.2 b hb)


end Operations

/-- A mount with a buffer. -/
def oneBuf : State := { list := [0] }

/-- A read and a write of a raw device of four blocks. -/
def rawOps : List (Op 1) := [.rawRead ⟨1, 8⟩ 0 0 3, .rawWrite ⟨1, 8⟩ 0 1 [7, 8, 9]]

def allGood : Dev := ⟨fun _ => some OK, fun _ => true⟩

end Vmx.FsBuf
