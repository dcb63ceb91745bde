import Vmx.Os.IoLib
import Mathlib.Data.Finset.Card
import Mathlib.Data.Finset.Range

/-!
# Runs of calls with a path

`CallOk` is what a call should do to the table of descriptors, to the files that drivers have
open, and to its result.  `ioConnect_spec` has the four ways in which a call connects: with a
descriptor that is recorded, with one that is freed again, with a full table, and with an entry
that lies too close to the end of the table.
-/

namespace Vmx.Io

open Lib

/-! ## The table -/

/-- The number of used descriptors. -/
def usedCount (s : State) : Nat :=
  ((Finset.range s.iosMaxFd).filter fun f => (s.iosFdTable f).used = true).card

/-- Used descriptors have a device. -/
def Ok (s : State) : Prop :=
  ∀ f < s.iosMaxFd, (s.iosFdTable f).used = true →
    (s.iosFdTable f).pDevHeader.isSome ∧ (s.iosFdTable f).obsolete = false

/-- There is a descriptor that can be taken. -/
def Available (s : State) : Prop := firstFree s + 3 < s.iosMaxFd

/-- Every entry of the table is used. -/
def Full (s : State) : Prop := firstFree s = s.iosMaxFd

instance (s : State) : Decidable (Available s) := inferInstanceAs (Decidable (_ < _))

instance (s : State) : Decidable (Full s) := inferInstanceAs (Decidable (_ = _))

section Table

variable {s s' : State} {f : Nat} {entry : FdEntry}

theorem firstFree_spec (s : State) :
    firstFree s ≤ s.iosMaxFd ∧
      (firstFree s < s.iosMaxFd → (s.iosFdTable (firstFree s)).used = false) := by
  unfold firstFree
  cases hfind : (List.range s.iosMaxFd).find? fun fd => !(s.iosFdTable fd).used with
  | none => exact ⟨Nat.le_refl _, fun h => absurd h (Nat.lt_irrefl _)⟩
  | some f =>
    have hmem := List.mem_range.1 (List.mem_of_find?_eq_some hfind)
    have hfree := List.find?_some hfind
    exact ⟨Nat.le_of_lt hmem, fun _ => by simpa using hfree⟩

/-- The number of used descriptors after one entry has changed. -/
theorem usedCount_update (s' : State) (hf : f < s.iosMaxFd) (hmax : s'.iosMaxFd = s.iosMaxFd)
    (htable : s'.iosFdTable = Function.update s.iosFdTable f entry) :
    usedCount s' + (if (s.iosFdTable f).used = true then 1 else 0) =
      usedCount s + if entry.used = true then 1 else 0 := by
  have hcount (t : State) (ht : t.iosMaxFd = s.iosMaxFd)
      (hsame : ∀ g ≠ f, t.iosFdTable g = s.iosFdTable g) :
      usedCount t = (((Finset.range s.iosMaxFd).erase f).filter fun g =>
        (s.iosFdTable g).used = true).card + if (t.iosFdTable f).used = true then 1 else 0 := by
    have hfilter : ((Finset.range s.iosMaxFd).erase f).filter (fun g =>
        (s.iosFdTable g).used = true) =
        ((Finset.range s.iosMaxFd).erase f).filter fun g => (t.iosFdTable g).used = true := by
      refine Finset.filter_congr fun g hg => ?_
      rw [hsame g (Finset.mem_erase.1 hg).1]
    rw [usedCount, ht, hfilter]
    nth_rewrite 1 [← Finset.insert_erase (Finset.mem_range.2 hf)]
    rw [Finset.filter_insert]
    split
    · rw [Finset.card_insert_of_notMem (by simp)]
    · rfl
  rw [hcount s' hmax fun g hg => by rw [htable, Function.update_of_ne hg],
    hcount s rfl fun _ _ => rfl, htable, Function.update_self]
  omega

theorem Ok.update (h : Ok s) (hmax : s'.iosMaxFd = s.iosMaxFd)
    (htable : s'.iosFdTable = Function.update s.iosFdTable f entry)
    (hentry : entry.used = true → entry.pDevHeader.isSome ∧ entry.obsolete = false) : Ok s' := by
  intro g hg hused
  rw [htable] at hused ⊢
  rw [hmax] at hg
  by_cases hgf : g = f
  · subst hgf
    rw [Function.update_self] at hused ⊢
    exact hentry hused
  · rw [Function.update_of_ne hgf] at hused ⊢
    exact h g hg hused

theorem stdMap_of_le (s : State) (f : Nat) : stdMap s (stdFix f) = f := by
  unfold stdMap stdFix stdUnfix
  rw [if_neg (by omega)]
  omega

theorem fdCheck_of_used (hf : f < s.iosMaxFd) (hused : (s.iosFdTable f).used = true)
    (hobs : (s.iosFdTable f).obsolete = false) : fdCheck s f = some f := by
  unfold fdCheck
  rw [Int.toNat_natCast, if_pos ⟨by omega, by omega, hused, hobs⟩]

theorem iosFdFree_error (s : State) : iosFdFree s ERROR = s := by
  unfold iosFdFree
  rw [show fdCheck s (stdMap s ERROR) = none from if_neg (by
    rw [stdMap, if_neg (by rw [ERROR]; omega), stdUnfix, ERROR]
    omega)]

theorem iosFdFree_of_used (hf : f < s.iosMaxFd) (hused : (s.iosFdTable f).used = true)
    (hobs : (s.iosFdTable f).obsolete = false) :
    iosFdFree s (stdFix f) = s.setEntry f { s.iosFdTable f with used := false } := by
  unfold iosFdFree
  rw [stdMap_of_le, fdCheck_of_used hf hused hobs]

theorem iosFdSet_error (s : State) (dev : Option Nat) (recorded : Bool) (value : Int) :
    iosFdSet s ERROR dev recorded value = none := by
  unfold iosFdSet
  rw [if_pos (Or.inl (by rw [ERROR]; omega))]

theorem iosFdSet_of_used (hf : f + 3 < s.iosMaxFd) (hused : (s.iosFdTable f).used = true)
    (dev : Option Nat) (recorded : Bool) (value : Int) :
    iosFdSet s (stdFix f) dev recorded value =
      if recorded then
        some (s.setEntry f { s.iosFdTable f with pDevHeader := dev, value := value })
      else none := by
  have hunfix : (stdUnfix (stdFix f)).toNat = f := by
    unfold stdFix stdUnfix
    omega
  have hrange : ¬(stdFix f < 3 ∨ stdFix f ≥ s.iosMaxFd) := by
    unfold stdFix
    omega
  unfold iosFdSet
  rw [if_neg hrange]
  dsimp only
  rw [hunfix, if_neg (by rw [hused]; exact Bool.noConfusion)]

end Table

/-! ## Connecting -/

/-- The call gets as far as to take a descriptor. -/
def connects (s : State) (p : Path) : Prop :=
  p.filename ≠ none ∧ p.filename ≠ some [] ∧
    s.cwdLen + (p.filename.getD []).length ≤ PATH_MAX ∧ p.prepends = true

/-- What the driver has returned when it has done what it was asked. -/
def taken (p : Path) : Option (Nat × Int) :=
  match follow p.rounds with
  | some (some h) => if h.2 = ERROR then none else some h
  | _ => none

/-- What is held when the driver has been asked. -/
def holds (opens : Bool) (p : Path) (held : List (Nat × Int)) : List (Nat × Int) :=
  if opens then (taken p).toList ++ held else held

section Connect

variable {s s' : State} {p : Path} (opens : Bool)

theorem iosFdNew_available (h : Available s) :
    iosFdNew s = (s.setEntry (firstFree s) ⟨none, 0, true, false⟩, stdFix (firstFree s)) := by
  have hlt : firstFree s < s.iosMaxFd := by
    unfold Available at h
    omega
  unfold iosFdNew
  dsimp only
  rw [if_pos hlt]
  obtain ⟨s1, hs1⟩ : ∃ s1, s1 = s.setEntry (firstFree s)
    { s.iosFdTable (firstFree s) with used := true, obsolete := false } := ⟨_, rfl⟩
  have hmax : s1.iosMaxFd = s.iosMaxFd := by rw [hs1]; rfl
  have hentry : s1.iosFdTable (firstFree s) =
      { s.iosFdTable (firstFree s) with used := true, obsolete := false } := by
    rw [hs1]
    exact Function.update_self ..
  rw [← hs1, hmax, if_neg (by unfold Available stdFix at *; omega),
    iosFdSet_of_used (by rw [hmax]; exact h) (by rw [hentry]), if_pos rfl, hentry, hs1]
  dsimp only
  rw [State.setEntry, State.setEntry, Function.update_idem]
  rfl

theorem iosFdNew_full (h : Full s) :
    iosFdNew s = (s.errnoSet .S_iosLib_TO_MANY_OPEN_FILES, ERROR) := by
  unfold Full at h
  unfold iosFdNew
  dsimp only
  rw [h, if_neg (Nat.lt_irrefl _), if_pos (by unfold stdFix; omega)]

theorem iosFdNew_leak (h : ¬Available s) (h' : ¬Full s) :
    iosFdNew s = ((s.setEntry (firstFree s)
      { s.iosFdTable (firstFree s) with used := true, obsolete := false }).errnoSet
        .S_iosLib_TO_MANY_OPEN_FILES, ERROR) := by
  have hle := (firstFree_spec s).1
  have hlt : firstFree s < s.iosMaxFd := by
    unfold Full at h'
    omega
  have hhigh : stdFix (firstFree s) ≥ (s.iosMaxFd : Int) := by
    unfold Available at h
    unfold stdFix
    omega
  unfold iosFdNew
  dsimp only
  rw [if_pos hlt]
  exact if_pos hhigh

/-- Without a descriptor the driver is asked all the same. -/
theorem connectFd_error (hfollow : follow p.rounds ≠ none) :
    ∃ s', connectFd s ERROR opens p = some (s', ERROR) ∧ s'.iosMaxFd = s.iosMaxFd ∧
      s'.std = s.std ∧ s'.cwdLen = s.cwdLen ∧ s'.iosFdTable = s.iosFdTable ∧
      s'.held = holds opens p s.held := by
  unfold connectFd holds taken
  cases hrounds : follow p.rounds with
  | none => exact absurd hrounds hfollow
  | some answer =>
    obtain _ | ⟨dev, rv⟩ := answer
    · dsimp only
      rw [iosFdFree_error]
      exact ⟨_, rfl, rfl, rfl, rfl, rfl, by cases opens <;> rfl⟩
    · dsimp only
      by_cases hrv : rv = ERROR
      · rw [if_pos hrv, if_pos hrv, iosFdFree_error]
        exact ⟨_, rfl, rfl, rfl, rfl, rfl, by cases opens <;> rfl⟩
      · rw [if_neg hrv, if_neg hrv, iosFdSet_error]
        dsimp only
        rw [iosFdFree_error]
        cases opens
        · exact ⟨_, rfl, rfl, rfl, rfl, rfl, rfl⟩
        · exact ⟨_, rfl, rfl, rfl, rfl, rfl, rfl⟩

/-- With a descriptor: it is kept when the driver succeeds and it can be recorded. -/
theorem connectFd_of_used {f : Nat} (hf : f + 3 < s.iosMaxFd)
    (hentry : s.iosFdTable f = ⟨none, 0, true, false⟩) (hfollow : follow p.rounds ≠ none) :
    ∃ s' rv, connectFd s (stdFix f) opens p = some (s', rv) ∧ s'.iosMaxFd = s.iosMaxFd ∧
      s'.std = s.std ∧ s'.cwdLen = s.cwdLen ∧ s'.held = holds opens p s.held ∧
      ((∃ h, taken p = some h ∧ p.recorded = true ∧ rv = stdFix f ∧
          s'.iosFdTable = Function.update s.iosFdTable f ⟨some h.1, h.2, true, false⟩) ∨
        (taken p = none ∨ p.recorded = false) ∧ rv = ERROR ∧
          s'.iosFdTable = Function.update s.iosFdTable f ⟨none, 0, false, false⟩) := by
  have hfree (t : State) (hmax : t.iosMaxFd = s.iosMaxFd) (htable : t.iosFdTable = s.iosFdTable) :
      iosFdFree t (stdFix f) = t.setEntry f ⟨none, 0, false, false⟩ := by
    rw [← htable] at hentry
    rw [iosFdFree_of_used (by omega) (by rw [hentry]) (by rw [hentry]), hentry]
  unfold connectFd holds taken
  cases hrounds : follow p.rounds with
  | none => exact absurd hrounds hfollow
  | some answer =>
    obtain _ | ⟨dev, rv⟩ := answer
    · dsimp only
      rw [hfree (s.errnoSet .ENODEV) rfl rfl]
      exact ⟨_, _, rfl, rfl, rfl, rfl, by cases opens <;> rfl, Or.inr ⟨Or.inl rfl, rfl, rfl⟩⟩
    · dsimp only
      by_cases hrv : rv = ERROR
      · rw [if_pos hrv, if_pos hrv, hfree _ rfl rfl]
        exact ⟨_, _, rfl, rfl, rfl, rfl, by cases opens <;> rfl, Or.inr ⟨Or.inl rfl, rfl, rfl⟩⟩
      · rw [if_neg hrv, if_neg hrv]
        obtain ⟨t, ht⟩ : ∃ t : State,
          t = if opens = true then { s with held := (dev, rv) :: s.held } else s := ⟨_, rfl⟩
        have hmax : t.iosMaxFd = s.iosMaxFd := by rw [ht]; cases opens <;> rfl
        have hstd : t.std = s.std := by rw [ht]; cases opens <;> rfl
        have hcwd : t.cwdLen = s.cwdLen := by rw [ht]; cases opens <;> rfl
        have htable : t.iosFdTable = s.iosFdTable := by rw [ht]; cases opens <;> rfl
        have hheld : t.held = if opens = true then (dev, rv) :: s.held else s.held := by
          rw [ht]
          cases opens <;> rfl
        rw [← ht, iosFdSet_of_used (by omega) (by rw [htable, hentry])]
        cases hrec : p.recorded
        · dsimp only
          rw [if_neg Bool.false_ne_true, hfree t hmax htable]
          refine ⟨_, _, rfl, hmax, hstd, hcwd, hheld, Or.inr ⟨Or.inr rfl, rfl, ?_⟩⟩
          rw [← htable]
          rfl
        · rw [if_pos rfl]
          refine ⟨_, _, rfl, hmax, hstd, hcwd, hheld, Or.inl ⟨(dev, rv), rfl, rfl, rfl, ?_⟩⟩
          rw [htable, hentry, ← htable]
          rfl

/-- The four ways in which a call connects. -/
theorem ioConnect_spec (hc : connects s p) (hfollow : follow p.rounds ≠ none) :
    ∃ s' rv, ioConnect s opens p = some (s', rv) ∧ s'.iosMaxFd = s.iosMaxFd ∧ s'.std = s.std ∧
      s'.cwdLen = s.cwdLen ∧ s'.held = holds opens p s.held ∧
      (Available s ∧ (∃ h, taken p = some h ∧ p.recorded = true ∧ rv = stdFix (firstFree s) ∧
          s'.iosFdTable = Function.update s.iosFdTable (firstFree s) ⟨some h.1, h.2, true, false⟩) ∨
        Available s ∧ (taken p = none ∨ p.recorded = false) ∧ rv = ERROR ∧
          s'.iosFdTable = Function.update s.iosFdTable (firstFree s) ⟨none, 0, false, false⟩ ∨
        Full s ∧ rv = ERROR ∧ s'.iosFdTable = s.iosFdTable ∨
        ¬Available s ∧ ¬Full s ∧ rv = ERROR ∧
          s'.iosFdTable = Function.update s.iosFdTable (firstFree s)
            { s.iosFdTable (firstFree s) with used := true, obsolete := false }) := by
  obtain ⟨hnone, hempty, hlen, hprep⟩ := hc
  have hconnect : ioConnect s opens p = connectFd (iosFdNew s).1 (iosFdNew s).2 opens p := by
    unfold ioConnect
    cases hname : p.filename with
    | none => exact absurd hname hnone
    | some filename =>
      rw [hname] at hempty hlen
      rw [Option.getD_some] at hlen
      dsimp only
      rw [if_neg (fun h => hempty (congrArg some h)), if_neg (Nat.not_lt.2 hlen),
        if_neg (by rw [hprep]; exact Bool.noConfusion)]
  rw [hconnect]
  by_cases havail : Available s
  · rw [iosFdNew_available havail]
    obtain ⟨s', rv, heq, hmax, hstd, hcwd, hheld, hcase⟩ :=
      connectFd_of_used (s := s.setEntry (firstFree s) ⟨none, 0, true, false⟩) opens
        (f := firstFree s) havail (Function.update_self ..) hfollow
    refine ⟨s', rv, heq, hmax, hstd, hcwd, hheld, ?_⟩
    have hidem (entry : FdEntry) :
        Function.update (s.setEntry (firstFree s) ⟨none, 0, true, false⟩).iosFdTable (firstFree s)
          entry = Function.update s.iosFdTable (firstFree s) entry := Function.update_idem ..
    rcases hcase with ⟨h, htaken, hrec, hrv, htable⟩ | ⟨hfail, hrv, htable⟩
    · exact Or.inl ⟨havail, h, htaken, hrec, hrv, htable.trans (hidem _)⟩
    · exact Or.inr (Or.inl ⟨havail, hfail, hrv, htable.trans (hidem _)⟩)
  · by_cases hfull : Full s
    · rw [iosFdNew_full hfull]
      obtain ⟨s', heq, hmax, hstd, hcwd, htable, hheld⟩ :=
        connectFd_error (s := s.errnoSet .S_iosLib_TO_MANY_OPEN_FILES) opens hfollow
      exact ⟨s', _, heq, hmax, hstd, hcwd, hheld, Or.inr (Or.inr (Or.inl ⟨hfull, rfl, htable⟩))⟩
    · rw [iosFdNew_leak havail hfull]
      obtain ⟨s', heq, hmax, hstd, hcwd, htable, hheld⟩ :=
        connectFd_error (s := (s.setEntry (firstFree s)
          { s.iosFdTable (firstFree s) with used := true, obsolete := false }).errnoSet
            .S_iosLib_TO_MANY_OPEN_FILES) opens hfollow
      exact ⟨s', _, heq, hmax, hstd, hcwd, hheld,
        Or.inr (Or.inr (Or.inr ⟨havail, hfull, rfl, htable⟩))⟩

end Connect

/-! ## What a call should do -/

/-- The entry of the descriptor is used. -/
def usedFd (s : State) (fd : Int) : Prop :=
  0 ≤ stdMap s fd ∧ stdMap s fd < s.iosMaxFd ∧ (s.iosFdTable (stdMap s fd).toNat).used = true

instance (s : State) (fd : Int) : Decidable (usedFd s fd) := inferInstanceAs (Decidable (_ ∧ _ ∧ _))

/-- A call with a path: the number of used descriptors, and what drivers hold open. -/
def Unchanged (s s' : State) : Prop := usedCount s' = usedCount s ∧ s'.held = s.held

/-- The status says whether the drivers have done what they were asked. -/
def Reports (rv : Int) (succeeds : Prop) : Prop := (rv = OK ↔ succeeds) ∧ (rv = ERROR ↔ ¬succeeds)

/-- A call that returns a descriptor, or an error. -/
def Opens (s s' : State) (p : Path) (rv : Int) : Prop :=
  if rv = ERROR then Unchanged s s'
  else usedCount s' = usedCount s + 1 ∧ s'.held = (taken p).toList ++ s.held

/-- What a call should do. -/
def CallOk (s : State) (s' : State) (rv : Int) : Call → Prop
  | .open p _ _ => Opens s s' p rv
  | .creat p _ => Opens s s' p rv
  | .remove p => Unchanged s s' ∧ Reports rv (connects s p ∧ taken p ≠ none)
  | .rmdir p => Unchanged s s' ∧ Reports rv (connects s p ∧ taken p ≠ none)
  | .mkdir p mode =>
    Unchanged s s' ∧ Reports rv (badMode mode = false ∧ connects s p ∧ taken p ≠ none)
  | .symlink p mode =>
    Unchanged s s' ∧ Reports rv (badMode mode = false ∧ connects s p ∧ taken p ≠ none)
  | .readlink _ => Unchanged s s'
  | .stat p => Unchanged s s' ∧ Reports rv (connects s p ∧ taken p ≠ none ∧ p.ioctl = OK)
  | .lstat p => Unchanged s s' ∧ Reports rv (connects s p ∧ taken p ≠ none ∧ p.ioctl = OK)
  | .pathconf _ => Unchanged s s'
  | .close fd _ => usedCount s' + (if usedFd s fd then 1 else 0) = usedCount s

/-- There is a descriptor and it can be recorded, or the table is full and the driver fails as
well. -/
def Serves (s : State) (p : Path) : Prop :=
  Available s ∧ (taken p = none ∨ p.recorded = true) ∨ Full s ∧ taken p = none

/-- When a call does what it should. -/
def Sound (s : State) : Call → Prop
  | .open p oflags mode =>
    (oflags &&& O_CREAT ≠ 0 ∧ badMode mode = true) ∨ ¬connects s p ∨ Serves s p
  | .creat p _ => ¬connects s p ∨ Serves s p
  | .remove p => ¬connects s p ∨ (Available s ∨ Full s) ∧ taken p = none
  | .rmdir p => ¬connects s p ∨ (Available s ∨ Full s) ∧ taken p = none
  | .mkdir p mode => badMode mode = true ∨ ¬connects s p ∨ Serves s p
  | .symlink p mode => badMode mode = true ∨ ¬connects s p ∨ Serves s p
  | .readlink p => ¬connects s p ∨ Serves s p
  | .stat p => ¬connects s p ∨ Serves s p ∧ (taken p = none ∨ p.ioctl = OK ∨ p.ioctl = ERROR)
  | .lstat p => ¬connects s p ∨ Serves s p ∧ (taken p = none ∨ p.ioctl = OK ∨ p.ioctl = ERROR)
  | .pathconf p => ¬connects s p ∨ Serves s p
  | .close _ _ => True

/-- The path of a call. -/
def Call.path : Call → Option Path
  | .open p _ _ | .creat p _ | .remove p | .rmdir p | .mkdir p _ | .symlink p _ | .readlink p
  | .stat p | .lstat p | .pathconf p => some p
  | .close _ _ => none

/-- The drivers do not follow links for ever. -/
def Ends (c : Call) : Prop := ∀ p ∈ c.path, follow p.rounds ≠ none

section Calls

variable {s s' : State} {p : Path} {rv : Int}

theorem error_ne_ok : ERROR ≠ OK := by decide

theorem stdFix_ne_error (f : Nat) : stdFix f ≠ ERROR := by
  unfold stdFix ERROR
  omega

theorem stdFix_ne_ok (f : Nat) : stdFix f ≠ OK := by
  unfold stdFix OK
  omega

/-- A call that does not get as far as the table. -/
theorem ioConnect_of_not (hc : ¬connects s p) (opens : Bool) :
    ∃ e, ioConnect s opens p = some (s.errnoSet e, ERROR) := by
  unfold ioConnect
  cases hname : p.filename with
  | none => exact ⟨_, rfl⟩
  | some filename =>
    dsimp only
    split
    next => exact ⟨_, rfl⟩
    next hempty =>
      split
      next => exact ⟨_, rfl⟩
      next hlen =>
        split
        next => exact ⟨_, rfl⟩
        next hprep =>
          refine absurd ⟨?_, ?_, ?_, ?_⟩ hc
          · rw [hname]
            exact Option.some_ne_none _
          · rw [hname]
            exact fun heq => hempty (Option.some.inj heq)
          · rw [hname]
            exact Nat.not_lt.1 hlen
          · exact Bool.not_eq_false _ ▸ hprep

theorem firstFree_unused (h : Available s) :
    firstFree s < s.iosMaxFd ∧ (s.iosFdTable (firstFree s)).used = false := by
  have hlt : firstFree s < s.iosMaxFd := by
    unfold Available at h
    omega
  exact ⟨hlt, (firstFree_spec s).2 hlt⟩

theorem usedCount_same (hmax : s'.iosMaxFd = s.iosMaxFd) (htable : s'.iosFdTable = s.iosFdTable) :
    usedCount s' = usedCount s := by
  unfold usedCount
  rw [hmax, htable]

/-- The four ways in which a call connects, with what they do to the table. -/
theorem ioConnect_cases (h : Ok s) (hc : connects s p) (hfollow : follow p.rounds ≠ none)
    (opens : Bool) :
    ∃ s' rv, ioConnect s opens p = some (s', rv) ∧ s'.iosMaxFd = s.iosMaxFd ∧ s'.std = s.std ∧
      s'.held = holds opens p s.held ∧
      (Available s ∧ (∃ h, taken p = some h ∧ p.recorded = true ∧ rv = stdFix (firstFree s) ∧
          s'.iosFdTable (firstFree s) = ⟨some h.1, h.2, true, false⟩ ∧ Ok s' ∧
          usedCount s' = usedCount s + 1) ∨
        Available s ∧ (taken p = none ∨ p.recorded = false) ∧ rv = ERROR ∧ Ok s' ∧
          usedCount s' = usedCount s ∨
        Full s ∧ rv = ERROR ∧ Ok s' ∧ usedCount s' = usedCount s ∨
        ¬Available s ∧ ¬Full s ∧ rv = ERROR ∧ usedCount s' = usedCount s + 1) := by
  obtain ⟨s', rv, heq, hmax, hstd, _, hheld, hcase⟩ := ioConnect_spec opens hc hfollow
  refine ⟨s', rv, heq, hmax, hstd, hheld, ?_⟩
  rcases hcase with ⟨havail, t, htaken, hrec, hrv, htable⟩ | ⟨havail, hfail, hrv, htable⟩ |
    ⟨hfull, hrv, htable⟩ | ⟨havail, hfull, hrv, htable⟩
  · obtain ⟨hlt, hunused⟩ := firstFree_unused havail
    refine Or.inl ⟨havail, t, htaken, hrec, hrv, ?_, h.update hmax htable fun _ => ⟨rfl, rfl⟩, ?_⟩
    · rw [htable, Function.update_self]
    · have hcount := usedCount_update _ hlt hmax htable
      rw [hunused] at hcount
      exact hcount
  · obtain ⟨hlt, hunused⟩ := firstFree_unused havail
    refine Or.inr (Or.inl ⟨havail, hfail, hrv, h.update hmax htable ?_, ?_⟩)
    · exact fun hused => nomatch hused
    have hcount := usedCount_update _ hlt hmax htable
    rw [hunused] at hcount
    exact hcount
  · refine Or.inr (Or.inr (Or.inl ⟨hfull, hrv, ?_, usedCount_same hmax htable⟩))
    intro f hf hused
    rw [htable] at hused ⊢
    exact h f (hmax ▸ hf) hused
  · have hle := firstFree_spec s
    have hlt : firstFree s < s.iosMaxFd := by
      unfold Full at hfull
      omega
    have hunused := (firstFree_spec s).2 hlt
    have hcount := usedCount_update _ hlt hmax htable
    rw [hunused] at hcount
    exact Or.inr (Or.inr (Or.inr ⟨havail, hfull, hrv, hcount⟩))

/-- Closing a used descriptor. -/
theorem iosClose_spec (h : Ok s) (fd rv : Int) :
    ∃ s' rv', iosClose s fd rv = some (s', rv') ∧ Ok s' ∧
      usedCount s' + (if usedFd s fd then 1 else 0) = usedCount s ∧
      ∀ f, stdMap s fd = (f : Nat) → f < s.iosMaxFd → (s.iosFdTable f).used = true →
        ∃ dev, (s.iosFdTable f).pDevHeader = some dev ∧
          s'.held = s.held.erase (dev, (s.iosFdTable f).value) := by
  unfold iosClose
  dsimp only
  by_cases hused : usedFd s fd
  · obtain ⟨hpos, hlt, hentry⟩ := hused
    obtain ⟨f, hf⟩ : ∃ f : Nat, stdMap s fd = f := ⟨(stdMap s fd).toNat, by omega⟩
    rw [hf, Int.toNat_natCast] at hentry
    rw [hf] at hlt
    have hlt' : f < s.iosMaxFd := by omega
    obtain ⟨hdev, hobs⟩ := h f hlt' hentry
    obtain ⟨dev, hdev⟩ := Option.isSome_iff_exists.1 hdev
    rw [if_pos ⟨hpos, by rw [hf]; exact hlt, by rw [hf, Int.toNat_natCast]; exact hentry⟩, hf,
      fdCheck_of_used hlt' hentry hobs]
    dsimp only
    rw [hdev, Option.map_some]
    have hfree := iosFdFree_of_used (s := { s with
      held := s.held.erase (dev, (s.iosFdTable f).value) }) hlt' hentry hobs
    refine ⟨_, _, rfl, ?_, ?_, ?_⟩
    · rw [hfree]
      exact h.update rfl rfl fun hused => nomatch hused
    · rw [hfree]
      have hcount := usedCount_update (State.setEntry { s with
        held := s.held.erase (dev, (s.iosFdTable f).value) } f
          { s.iosFdTable f with used := false }) hlt' rfl rfl
      rw [hentry] at hcount
      exact hcount
    · intro g hg _ _
      obtain rfl : f = g := by omega
      refine ⟨dev, hdev, ?_⟩
      rw [hfree]
      rfl
  · have hcheck : fdCheck s (stdMap s fd) = none :=
      if_neg fun hc => hused ⟨hc.1, hc.2.1, hc.2.2.1⟩
    rw [hcheck, if_neg hused]
    refine ⟨s, _, rfl, h, rfl, fun f hf hlt hentry => absurd ⟨?_, ?_, ?_⟩ hused⟩
    · omega
    · omega
    · rw [hf, Int.toNat_natCast]
      exact hentry

/-- A call that returns a descriptor. -/
theorem opens_spec (h : Ok s) (hc : connects s p) (hfollow : follow p.rounds ≠ none) :
    ∃ s' rv, ioConnect s true p = some (s', rv) ∧ (Serves s p → Ok s') ∧
      (Opens s s' p rv ↔ Serves s p) := by
  obtain ⟨s', rv, heq, _, _, hheld, hcase⟩ := ioConnect_cases h hc hfollow true
  refine ⟨s', rv, heq, ?_⟩
  have hheld : s'.held = (taken p).toList ++ s.held := hheld
  unfold Opens Serves Unchanged
  rcases hcase with ⟨havail, t, htaken, hrec, hrv, _, hok, hcount⟩ |
    ⟨havail, hfail, hrv, hok, hcount⟩ | ⟨hfull, hrv, hok, hcount⟩ | ⟨havail, hfull, hrv, hcount⟩
  · rw [if_neg (hrv ▸ stdFix_ne_error _)]
    exact ⟨fun _ => hok, iff_of_true ⟨hcount, hheld⟩ (Or.inl ⟨havail, Or.inr hrec⟩)⟩
  · rw [if_pos hrv, hheld]
    have hnotFull : ¬Full s := fun hfull => by
      unfold Available at havail
      unfold Full at hfull
      omega
    cases htaken : taken p with
    | none => exact ⟨fun _ => hok, iff_of_true ⟨hcount, rfl⟩ (Or.inl ⟨havail, Or.inl rfl⟩)⟩
    | some t =>
      have hrec := hfail.resolve_left (by rw [htaken]; exact Option.some_ne_none _)
      refine ⟨fun _ => hok, iff_of_false (fun hsame => List.cons_ne_self _ _ hsame.2) ?_⟩
      rintro (⟨_, hnone | htrue⟩ | ⟨hfull, _⟩)
      · exact nomatch hnone
      · exact nomatch hrec.symm.trans htrue
      · exact hnotFull hfull
  · rw [if_pos hrv, hheld]
    have hnot : ¬Available s := fun havail => by
      unfold Available at havail
      unfold Full at hfull
      omega
    cases htaken : taken p with
    | none => exact ⟨fun _ => hok, iff_of_true ⟨hcount, rfl⟩ (Or.inr ⟨hfull, rfl⟩)⟩
    | some t =>
      refine ⟨fun _ => hok, iff_of_false (fun hsame => List.cons_ne_self _ _ hsame.2) ?_⟩
      rintro (⟨havail, _⟩ | ⟨_, hnone⟩)
      · exact hnot havail
      · exact nomatch hnone
  · rw [if_pos hrv]
    have hnot : ¬(Available s ∧ (taken p = none ∨ p.recorded = true) ∨ Full s ∧ taken p = none) :=
      fun hserves => hserves.elim (fun h => havail h.1) fun h => hfull h.1
    refine ⟨fun hserves => absurd hserves hnot, iff_of_false (fun hsame => ?_) hnot⟩
    have := hsame.1
    omega

/-- A call that closes its descriptor again. -/
theorem withFd_spec (h : Ok s) (hc : connects s p) (hfollow : follow p.rounds ≠ none)
    (result : State → Int → Option Int) {r : Int}
    (hresult : ∀ t fd, Ok t → usedFd t fd → result t fd = some r) :
    ∃ s' rv, withFd s p result = some (s', rv) ∧
      (Serves s p ∧ Ok s' ∧ Unchanged s s' ∧ (taken p = none ∧ rv = ERROR ∨ taken p ≠ none ∧ rv = r) ∨
        ¬Serves s p ∧ ¬Unchanged s s') := by
  obtain ⟨s1, fd, heq, hserves, hopens⟩ := opens_spec h hc hfollow
  have hcases := ioConnect_cases h hc hfollow true
  obtain ⟨s2, rv2, heq2, hmax, _, _, hcase⟩ := hcases
  rw [heq] at heq2
  cases heq2
  unfold withFd
  rw [heq]
  dsimp only
  by_cases herror : fd = ERROR
  · rw [if_pos (by rw [herror, ERROR]; omega)]
    refine ⟨s1, ERROR, rfl, ?_⟩
    rw [Opens, if_pos herror] at hopens
    by_cases hs : Serves s p
    · have hsame := hopens.2 hs
      refine Or.inl ⟨hs, hserves hs, hsame, Or.inl ⟨?_, rfl⟩⟩
      rcases hcase with ⟨_, _, _, _, hrv, _⟩ | ⟨havail, hfail, _⟩ | ⟨hfull, _⟩ | ⟨havail, hfull, _⟩
      · exact absurd (hrv.symm.trans herror) (stdFix_ne_error _)
      · rcases hs with ⟨_, hnone | hrec⟩ | ⟨_, hnone⟩
        · exact hnone
        · exact hfail.resolve_right fun hfalse => nomatch hrec.symm.trans hfalse
        · exact hnone
      · rcases hs with ⟨havail, _⟩ | ⟨_, hnone⟩
        · unfold Available at havail
          unfold Full at hfull
          omega
        · exact hnone
      · rcases hs with ⟨h, _⟩ | ⟨h, _⟩
        · exact absurd h havail
        · exact absurd h hfull
    · exact Or.inr ⟨hs, fun hsame => hs (hopens.1 hsame)⟩
  · rw [Opens, if_neg herror] at hopens
    rcases hcase with ⟨havail, t, htaken, hrec, hrv, hentry, hok, hcount⟩ | ⟨_, _, hrv, _⟩ |
      ⟨_, hrv, _⟩ | ⟨_, _, hrv, _⟩
    · have hs : Serves s p := Or.inl ⟨havail, Or.inr hrec⟩
      obtain ⟨hlt, _⟩ := firstFree_unused havail
      have hmap : stdMap s1 fd = firstFree s := by rw [hrv, stdMap_of_le]
      have hused : usedFd s1 fd := by
        refine ⟨by omega, by omega, ?_⟩
        rw [hmap, Int.toNat_natCast, hentry]
      obtain ⟨s', rv', hclose, hok', hcount', hheld'⟩ := iosClose_spec hok fd p.close
      obtain ⟨dev, hdev, herase⟩ := hheld' (firstFree s) hmap (by omega) (by rw [hentry])
      rw [if_neg (by rw [hrv, stdFix]; omega), hresult s1 fd hok hused]
      dsimp only
      rw [close, hclose, Option.map_some]
      refine ⟨s', r, rfl, Or.inl ⟨hs, hok', ⟨?_, ?_⟩, Or.inr ⟨?_, rfl⟩⟩⟩
      · rw [if_pos hused] at hcount'
        omega
      · rw [herase, (hopens.2 hs).2, htaken, hentry]
        rw [hentry] at hdev
        cases hdev
        exact List.erase_cons_head ..
      · rw [htaken]
        exact Option.some_ne_none _
    · exact absurd hrv herror
    · exact absurd hrv herror
    · exact absurd hrv herror

theorem iosIoctl_of_used (h : Ok s) {fd : Int} (hused : usedFd s fd) (rv : Int) :
    iosIoctl s fd rv = some rv := by
  obtain ⟨hpos, hlt, hentry⟩ := hused
  obtain ⟨hdev, hobs⟩ := h _ (by omega) hentry
  obtain ⟨dev, hdev⟩ := Option.isSome_iff_exists.1 hdev
  unfold iosIoctl
  rw [show fdCheck s (stdMap s fd) = some (stdMap s fd).toNat from
    if_pos ⟨hpos, hlt, hentry, hobs⟩]
  dsimp only
  rw [hdev, Option.map_some]

/-- A call that removes something. -/
theorem remove_spec (h : Ok s) (hfollow : follow p.rounds ≠ none) :
    ∃ s' rv, ioConnect s false p = some (s', rv) ∧
      ((¬connects s p ∨ (Available s ∨ Full s) ∧ taken p = none) → Ok s') ∧
      ((Unchanged s s' ∧ Reports rv (connects s p ∧ taken p ≠ none)) ↔
        (¬connects s p ∨ (Available s ∨ Full s) ∧ taken p = none)) := by
  by_cases hc : connects s p
  · obtain ⟨s', rv, heq, _, _, hheld, hcase⟩ := ioConnect_cases h hc hfollow false
    have hheld : s'.held = s.held := hheld
    refine ⟨s', rv, heq, ?_⟩
    unfold Unchanged Reports
    rw [hheld]
    rcases hcase with ⟨_, t, htaken, _, hrv, _, hok, hcount⟩ |
      ⟨havail, _, hrv, hok, hcount⟩ | ⟨hfull, hrv, hok, hcount⟩ | ⟨havail, hfull, hrv, hcount⟩
    · refine ⟨fun _ => hok, iff_of_false ?_ ?_⟩
      · rintro ⟨_, hreport, _⟩
        exact stdFix_ne_ok _ (hrv.symm.trans (hreport.2 ⟨hc, by rw [htaken]; exact Option.some_ne_none _⟩))
      · rintro (hnot | ⟨_, hnone⟩)
        · exact hnot hc
        · exact nomatch htaken.symm.trans hnone
    · have := error_ne_ok
      refine ⟨fun _ => hok, ?_⟩
      rw [hrv]
      tauto
    · have := error_ne_ok
      refine ⟨fun _ => hok, ?_⟩
      rw [hrv]
      tauto
    · have hnot : ¬(¬connects s p ∨ (Available s ∨ Full s) ∧ taken p = none) := by tauto
      refine ⟨fun hsound => absurd hsound hnot, iff_of_false (fun hsame => ?_) hnot⟩
      have := hsame.1.1
      omega
  · obtain ⟨e, heq⟩ := ioConnect_of_not hc false
    refine ⟨_, _, heq, fun _ => h, iff_of_true ⟨⟨rfl, rfl⟩, ?_, ?_⟩ (Or.inl hc)⟩
    · exact iff_of_false error_ne_ok fun hboth => hc hboth.1
    · exact iff_of_true rfl fun hboth => hc hboth.1

theorem Reports.of_ok {P : Prop} (hP : P) : Reports OK P :=
  ⟨iff_of_true rfl hP, iff_of_false (fun heq => error_ne_ok heq.symm) fun hnot => hnot hP⟩

theorem Reports.of_error {P : Prop} (hP : ¬P) : Reports ERROR P :=
  ⟨iff_of_false error_ne_ok hP, iff_of_true rfl hP⟩

/-- `mkdir` and `symlink`. -/
theorem mkdir_spec (h : Ok s) (hfollow : follow p.rounds ≠ none) (mode : Nat) :
    ∃ s' rv, mkdir s p mode = some (s', rv) ∧
      ((badMode mode = true ∨ ¬connects s p ∨ Serves s p) → Ok s') ∧
      ((Unchanged s s' ∧ Reports rv (badMode mode = false ∧ connects s p ∧ taken p ≠ none)) ↔
        (badMode mode = true ∨ ¬connects s p ∨ Serves s p)) := by
  unfold mkdir
  cases hmode : badMode mode
  · rw [if_neg Bool.false_ne_true]
    by_cases hc : connects s p
    · obtain ⟨s', rv, heq, hcase⟩ := withFd_spec h hc hfollow (fun _ _ => some OK)
        fun _ _ _ _ => rfl
      refine ⟨s', rv, heq, ?_⟩
      rcases hcase with ⟨hs, hok, hsame, hrv⟩ | ⟨hs, hsame⟩
      · refine ⟨fun _ => hok, iff_of_true ⟨hsame, ?_⟩ (Or.inr (Or.inr hs))⟩
        rcases hrv with ⟨hnone, hrv⟩ | ⟨hsome, hrv⟩
        · exact hrv ▸ Reports.of_error fun hall => hall.2.2 hnone
        · exact hrv ▸ Reports.of_ok ⟨rfl, hc, hsome⟩
      · have hnot : ¬(false = true ∨ ¬connects s p ∨ Serves s p) := by tauto
        exact ⟨fun hsound => absurd hsound hnot, iff_of_false (fun hall => hsame hall.1) hnot⟩
    · obtain ⟨e, heq⟩ := ioConnect_of_not hc true
      refine ⟨s.errnoSet e, ERROR, ?_, fun _ => h, iff_of_true ⟨⟨rfl, rfl⟩, ?_⟩ (Or.inr (Or.inl hc))⟩
      · rw [withFd, heq]
        rfl
      · exact Reports.of_error fun hall => hc hall.2.1
  · rw [if_pos rfl]
    exact ⟨_, _, rfl, fun _ => h, iff_of_true
      ⟨⟨rfl, rfl⟩, Reports.of_error fun hall => nomatch hall.1⟩ (Or.inl rfl)⟩

/-- A call that asks the driver with an `ioctl`. -/
theorem ioctl_spec (h : Ok s) (hfollow : follow p.rounds ≠ none) :
    ∃ s' rv, withFd s p (fun s fd => iosIoctl s fd p.ioctl) = some (s', rv) ∧
      ((¬connects s p ∨ Serves s p) → Ok s') ∧ (Unchanged s s' ↔ ¬connects s p ∨ Serves s p) ∧
      ((Unchanged s s' ∧ Reports rv (connects s p ∧ taken p ≠ none ∧ p.ioctl = OK)) ↔
        (¬connects s p ∨ Serves s p ∧ (taken p = none ∨ p.ioctl = OK ∨ p.ioctl = ERROR))) := by
  by_cases hc : connects s p
  · obtain ⟨s', rv, heq, hcase⟩ := withFd_spec h hc hfollow
      (fun s fd => iosIoctl s fd p.ioctl) fun t fd ht hused => iosIoctl_of_used ht hused _
    refine ⟨s', rv, heq, ?_⟩
    rcases hcase with ⟨hs, hok, hsame, hrv⟩ | ⟨hs, hsame⟩
    · refine ⟨fun _ => hok, iff_of_true hsame (Or.inr hs), ?_⟩
      rcases hrv with ⟨hnone, hrv⟩ | ⟨hsome, hrv⟩
      · exact iff_of_true ⟨hsame, hrv ▸ Reports.of_error fun hall => hall.2.1 hnone⟩
          (Or.inr ⟨hs, Or.inl hnone⟩)
      · unfold Reports
        rw [hrv]
        by_cases hioctl : p.ioctl = OK
        · have hne : p.ioctl ≠ ERROR := hioctl ▸ error_ne_ok.symm
          tauto
        · tauto
    · have hnot : ¬(¬connects s p ∨ Serves s p) := by tauto
      refine ⟨fun hsound => absurd hsound hnot, iff_of_false hsame hnot,
        iff_of_false (fun hall => hsame hall.1) ?_⟩
      tauto
  · obtain ⟨e, heq⟩ := ioConnect_of_not hc true
    refine ⟨s.errnoSet e, ERROR, ?_, fun _ => h, iff_of_true ⟨rfl, rfl⟩ (Or.inl hc),
      iff_of_true ⟨⟨rfl, rfl⟩, Reports.of_error fun hall => hc hall.1⟩ (Or.inl hc)⟩
    rw [withFd, heq]
    rfl

/-- `open` and `creat`, behind the check of the mode. -/
theorem open_spec (h : Ok s) (hfollow : follow p.rounds ≠ none) :
    ∃ s' rv, ioConnect s true p = some (s', rv) ∧ ((¬connects s p ∨ Serves s p) → Ok s') ∧
      (Opens s s' p rv ↔ ¬connects s p ∨ Serves s p) := by
  by_cases hc : connects s p
  · obtain ⟨s', rv, heq, hserves, hopens⟩ := opens_spec h hc hfollow
    refine ⟨s', rv, heq, fun hs => hserves (hs.resolve_left (not_not_intro hc)), ?_⟩
    rw [hopens]
    exact ⟨Or.inr, fun hs => hs.resolve_left (not_not_intro hc)⟩
  · obtain ⟨e, heq⟩ := ioConnect_of_not hc true
    refine ⟨_, _, heq, fun _ => h, iff_of_true ?_ (Or.inl hc)⟩
    rw [Opens, if_pos rfl]
    exact ⟨rfl, rfl⟩

/-- A call does what it should when, and only when, it meets the condition. -/
theorem call_spec {c : Call} (h : Ok s) (hends : Ends c) :
    ∃ s' rv, call s c = some (s', rv) ∧ (Sound s c → Ok s') ∧ (CallOk s s' rv c ↔ Sound s c) := by
  cases c with
  | «open» p oflags mode =>
    unfold call «open»
    by_cases hmode : oflags &&& O_CREAT ≠ 0 ∧ badMode mode = true
    · dsimp only
      rw [if_pos hmode]
      refine ⟨_, _, rfl, fun _ => h, iff_of_true ?_ (Or.inl hmode)⟩
      rw [CallOk, Opens, if_pos rfl]
      exact ⟨rfl, rfl⟩
    · dsimp only
      rw [if_neg hmode]
      obtain ⟨s', rv, heq, hok, hopens⟩ := open_spec h (hends p rfl)
      refine ⟨s', rv, heq, fun hs => hok (hs.resolve_left hmode), ?_⟩
      rw [CallOk, Sound, hopens]
      exact ⟨Or.inr, fun hs => hs.resolve_left hmode⟩
  | creat p mode =>
    have hs : Ok (if badMode mode = true then s.errnoSet .EINVAL else s) := by
      split
      · exact h
      · exact h
    obtain ⟨s', rv, heq, hok, hopens⟩ := open_spec hs (hends p rfl)
    refine ⟨s', rv, heq, ?_⟩
    rw [CallOk, Sound]
    cases hmode : badMode mode
    · rw [hmode, if_neg Bool.false_ne_true] at hok hopens
      exact ⟨hok, hopens⟩
    · rw [hmode, if_pos rfl] at hok hopens
      exact ⟨hok, hopens⟩
  | remove p => exact remove_spec h (hends p rfl)
  | rmdir p => exact remove_spec h (hends p rfl)
  | mkdir p mode => exact mkdir_spec h (hends p rfl) mode
  | symlink p mode => exact mkdir_spec h (hends p rfl) mode
  | readlink p =>
    obtain ⟨s', rv, heq, hok, hsame, _⟩ := ioctl_spec h (hends p rfl)
    exact ⟨s', rv, heq, hok, hsame⟩
  | stat p =>
    obtain ⟨s', rv, heq, hok, _, hreport⟩ := ioctl_spec h (hends p rfl)
    exact ⟨s', rv, heq, fun hs => hok (hs.imp_right And.left), hreport⟩
  | lstat p =>
    obtain ⟨s', rv, heq, hok, _, hreport⟩ := ioctl_spec h (hends p rfl)
    exact ⟨s', rv, heq, fun hs => hok (hs.imp_right And.left), hreport⟩
  | pathconf p =>
    obtain ⟨s', rv, heq, hok, hsame, _⟩ := ioctl_spec h (hends p rfl)
    exact ⟨s', rv, heq, hok, hsame⟩
  | close fd rv =>
    obtain ⟨s', rv', heq, hok, hcount, _⟩ := iosClose_spec h fd rv
    exact ⟨s', rv', heq, fun _ => hok, iff_of_true hcount trivial⟩

/-- From any table, in every run of calls that meet the condition, each call does what it should
when, and only when, it meets the condition. -/
theorem path_calls {s t : State} {calls : List Call} (h : Ok s)
    (hsound : AllSteps step (fun s c => Ends c ∧ Sound s c) s calls)
    (hrun : exec step s calls = some t) :
    ∀ c, Ends c → ∃ t' rv, call t c = some (t', rv) ∧ (CallOk t t' rv c ↔ Sound t c) := by
  have hok : Ok t := exec_invariant_of (I := Ok) (fun s c s' h hc hs => by
    obtain ⟨s1, rv, heq, hok, _⟩ := call_spec h hc.1
    rw [step, heq, Option.map_some] at hs
    obtain rfl := Option.some.inj hs
    exact hok hc.2) h hsound hrun
  intro c hends
  obtain ⟨t', rv, heq, _, hiff⟩ := call_spec hok hends
  exact ⟨t', rv, heq, hiff⟩

end Calls

instance (s : State) (p : Path) : Decidable (connects s p) :=
  inferInstanceAs (Decidable (_ ∧ _ ∧ _ ∧ _))

instance (s : State) (p : Path) : Decidable (Serves s p) :=
  inferInstanceAs (Decidable (_ ∧ _ ∨ _ ∧ _))

instance (s : State) : ∀ c, Decidable (Sound s c)
  | .open p oflags mode => inferInstanceAs (Decidable
      ((oflags &&& O_CREAT ≠ 0 ∧ badMode mode = true) ∨ ¬connects s p ∨ Serves s p))
  | .creat p _ => inferInstanceAs (Decidable (¬connects s p ∨ Serves s p))
  | .remove p => inferInstanceAs (Decidable
      (¬connects s p ∨ (Available s ∨ Full s) ∧ taken p = none))
  | .rmdir p => inferInstanceAs (Decidable
      (¬connects s p ∨ (Available s ∨ Full s) ∧ taken p = none))
  | .mkdir p mode => inferInstanceAs (Decidable
      (badMode mode = true ∨ ¬connects s p ∨ Serves s p))
  | .symlink p mode => inferInstanceAs (Decidable
      (badMode mode = true ∨ ¬connects s p ∨ Serves s p))
  | .readlink p => inferInstanceAs (Decidable (¬connects s p ∨ Serves s p))
  | .stat p => inferInstanceAs (Decidable
      (¬connects s p ∨ Serves s p ∧ (taken p = none ∨ p.ioctl = OK ∨ p.ioctl = ERROR)))
  | .lstat p => inferInstanceAs (Decidable
      (¬connects s p ∨ Serves s p ∧ (taken p = none ∨ p.ioctl = OK ∨ p.ioctl = ERROR)))
  | .pathconf p => inferInstanceAs (Decidable (¬connects s p ∨ Serves s p))
  | .close _ _ => inferInstanceAs (Decidable True)

instance (c : Call) : Decidable (Ends c) :=
  inferInstanceAs (Decidable (∀ p ∈ c.path, follow p.rounds ≠ none))

/-- A file behind a link is created and closed; then another one is opened. -/
theorem path_calls_open : ∃ t,
    exec step (iosLibInit 8 fun _ => -1)
      [.creat ⟨some [97], true, [some (0, -10), some (1, 70)], true, 0, 0⟩ 0o644,
        .mkdir ⟨some [98], true, [some (1, 71)], true, 0, 0⟩ 0o755, .close 3 0] = some t ∧
      ∃ t' rv, call t (.open ⟨some [97], true, [some (1, 72)], true, 0, 0⟩ 0 0) = some (t', rv) ∧
        CallOk t t' rv (.open ⟨some [97], true, [some (1, 72)], true, 0, 0⟩ 0 0) := by
  have hsound : AllSteps step (fun s c => Ends c ∧ Sound s c) (iosLibInit 8 fun _ => -1)
      [.creat ⟨some [97], true, [some (0, -10), some (1, 70)], true, 0, 0⟩ 0o644,
        .mkdir ⟨some [98], true, [some (1, 71)], true, 0, 0⟩ 0o755, .close 3 0] := by
    decide
  have hok : Ok (iosLibInit 8 fun _ => -1) := fun _ _ hused => nomatch hused
  refine ⟨_, rfl, ?_⟩
  obtain ⟨t', rv, heq, hiff⟩ := path_calls hok hsound rfl
    (.open ⟨some [97], true, [some (1, 72)], true, 0, 0⟩ 0 0) (by decide)
  exact ⟨t', rv, heq, hiff.2 (by decide)⟩

/-- A file that the driver removes: the call returns the descriptor that it has taken, and leaves
it used. -/
theorem path_calls_remove :
    ∃ t' rv, call (iosLibInit 8 fun _ => -1)
        (.remove ⟨some [97], true, [some (1, 0)], true, 0, 0⟩) = some (t', rv) ∧
      ¬CallOk (iosLibInit 8 fun _ => -1) t' rv
        (.remove ⟨some [97], true, [some (1, 0)], true, 0, 0⟩) := by
  refine ⟨_, _, rfl, fun hok => ?_⟩
  have hreport := hok.2.1.2 ⟨by decide, by decide⟩
  exact absurd hreport (by decide)

end Vmx.Io
