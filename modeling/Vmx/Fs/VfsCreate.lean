import Vmx.Fs.VfsNamei

/-!
# Creating an entry

The functions that create take `ENOENT` from the walk for a last component that does not exist.
The walk returns the same for a component before the last, with the directory and the component
it has stopped at, so that they create an entry with the name of that component.  The calls are
right for the paths without such a component (`creates_iff`).
-/

namespace Vmx.Vnio

universe u

variable {V : Type u}

/-- The directory and the component of an operation that creates. -/
def Op.entry : Op V → Option (V × Option ComponentName)
  | .mkdir dvp cn _ => some (dvp, cn)
  | .symlink dvp cn _ _ => some (dvp, cn)
  | .create dvp cn _ => some (dvp, cn)
  | .open _ _ => none
  | .truncate _ => none
  | .rmdir _ _ _ => none
  | .remove _ _ _ => none

/-- The entries that a call asks the file system to create. -/
def Result.created (r : Result V) : List (V × Option ComponentName) := r.ops.filterMap Op.entry

/-- A call that creates: `open` with `O_CREAT`, or `mkdir`, `symlink` or `creat`, which get to
`vncioCreate` with the type in the flags. -/
inductive Call where
  | open (oflags mode : Nat) (creat : oflags &&& O_CREAT ≠ 0)
  | create (flags : Nat) (symlink : List Char)

def Call.run (fs : FileSys V) (pFileDesc : Option Int) (root : V) (filename : List Char) :
    Call → Result V
  | .open oflags mode _ => vncioOpen fs pFileDesc root filename oflags mode
  | .create flags tgt => vncioCreate fs pFileDesc root filename flags tgt

variable (fs : FileSys V)

/-- A component before the last is missing in the directory that those before it lead to. -/
def Missing (root : V) (filename : List Char) : Prop :=
  ∃ before name behind dvp, names filename = before ++ name :: behind ∧ behind ≠ [] ∧
    resolve fs root before = .ok dvp ∧ enter fs dvp name = .error ⟨ENOENT, ENOENT_ne_OK⟩

/-- What callers rely on.  An entry is created only in the directory that the components before
the last lead to, with the name of the last, which has not existed in it; when one of those before
it is missing the call fails with `ENOENT` and creates nothing. -/
structure Creates (root : V) (filename : List Char) (r : Result V) : Prop where
  created : ∀ e ∈ r.created, ∃ before last, names filename = before ++ [last] ∧
    resolve fs root before = .ok e.1 ∧ fs.v_type e.1 = .VDIR ∧
    fs.lookup e.1 last = .error ⟨ENOENT, ENOENT_ne_OK⟩ ∧ e.2.map ComponentName.name = some last
  missing : Missing fs root filename →
    r.status = ERROR ∧ r.errno = some ENOENT ∧ r.created = []

variable {fs} {root : V} {filename : List Char}

/-! ## The functions that create -/

/-- A function that creates an entry when the walk has returned `ENOENT`, and only then. -/
structure Creator (func : NameiData V → Int → Int → Result V) : Prop where
  created : ∀ nid fdp error, ∀ e ∈ (func nid fdp error).created,
    error = ENOENT ∧ e = (nid.ni_dvp, nid.ni_cn)
  tries : ∀ nid fdp, (func nid fdp ENOENT).created ≠ []

/-- An entry that exists is an error, and for one that does not the operation is called. -/
theorem creator_of_op (op : NameiData V → Op V)
    (hop : ∀ nid, (op nid).entry = some (nid.ni_dvp, nid.ni_cn)) :
    Creator fun nid fdp error =>
      let error := if error = OK then EEXIST else error
      if error ≠ OK ∧ error ≠ ENOENT then errorReturn error []
      else
        let op := op nid
        if fs.vop op ≠ OK then errorReturn (fs.vop op) [op] else ⟨fdp, none, [op]⟩ where
  created nid fdp error e he := by
    by_cases herror : error = ENOENT
    · subst herror
      refine ⟨rfl, ?_⟩
      simp only [show ¬ENOENT = OK by decide, if_false, ne_eq, not_true_eq_false, and_false] at he
      split at he <;> simpa [Result.created, errorReturn, hop] using he
    · exfalso
      have hexists : (if error = OK then EEXIST else error) ≠ OK ∧
          (if error = OK then EEXIST else error) ≠ ENOENT := by
        by_cases hok : error = OK
        · rw [if_pos hok]
          decide
        · rw [if_neg hok]
          exact ⟨hok, herror⟩
      simp only at he
      rw [if_pos hexists] at he
      simp [Result.created, errorReturn] at he
  tries nid fdp := by
    simp only [show ¬ENOENT = OK by decide, if_false, ne_eq, not_true_eq_false, and_false]
    split <;> simp [Result.created, errorReturn, hop]

theorem vnioMkdir_creator (mode : Nat) : Creator (vnioMkdir fs mode) :=
  creator_of_op (fun nid => .mkdir nid.ni_dvp nid.ni_cn ⟨.VDIR, mode⟩) fun _ => rfl

theorem vnioSymlink_creator (tgt : List Char) (mode : Nat) :
    Creator (vnioSymlink fs tgt mode) :=
  creator_of_op (fun nid => .symlink nid.ni_dvp nid.ni_cn ⟨.VLNK, mode⟩ tgt) fun _ => rfl

/-- To truncate is not to create. -/
theorem truncates_created (oflags : Nat) (vp : V) (ops : List (Op V)) (fdp : Int) :
    (truncates fs oflags vp ops fdp).created = ops.filterMap Op.entry := by
  unfold truncates
  simp only
  split
  · split <;> simp [Result.created, errorReturn, Op.entry]
  · rfl

theorem vnioCreate_creator (mode oflags : Nat) : Creator (vnioCreate fs mode oflags) where
  created nid fdp error e he := by
    unfold vnioCreate at he
    simp only at he
    split at he
    · split at he
      · simp [Result.created, errorReturn] at he
      · rename_i herror
        refine ⟨not_not.1 herror, ?_⟩
        split at he
        · simpa [Result.created, errorReturn, Op.entry] using he
        · rw [truncates_created] at he
          simpa [Op.entry] using he
    · exfalso
      cases hvp : nid.ni_vp with
      | none => simp [hvp, Result.created, errorReturn] at he
      | some vp =>
        simp only [hvp] at he
        split at he
        · simp [Result.created, errorReturn] at he
        · split at he
          · simp [Result.created, errorReturn, Op.entry] at he
          · rw [truncates_created] at he
            simp [Op.entry] at he
  tries nid fdp := by
    unfold vnioCreate
    simp only
    rw [if_pos (by decide), if_neg (by simp)]
    split
    · simp [Result.created, errorReturn, Op.entry]
    · rw [truncates_created]
      simp [Op.entry]

/-- A call that creates fails before the walk, or walks and gives the result to one of the
functions. -/
theorem Call.run_cases (c : Call) (pFileDesc : Option Int) :
    (∃ error, error ≠ ENOENT ∧ c.run fs pFileDesc root filename = errorReturn error []) ∨
      ∃ func, Creator func ∧
        c.run fs pFileDesc root filename = vnioConnect fs pFileDesc root filename .CREATE func := by
  cases c with
  | «open» oflags mode creat =>
    simp only [Call.run, vncioOpen]
    split
    · exact Or.inl ⟨EINVAL, by decide, rfl⟩
    · split
      · exact Or.inl ⟨EPERM, by decide, rfl⟩
      · exact Or.inr ⟨_, vnioCreate_creator mode oflags, rfl⟩
  | create flags tgt =>
    simp only [Call.run, vncioCreate]
    split
    · exact Or.inr ⟨_, vnioCreate_creator _ _, rfl⟩
    · split
      · exact Or.inr ⟨_, vnioMkdir_creator _, rfl⟩
      · split
        · exact Or.inr ⟨_, vnioSymlink_creator _ _, rfl⟩
        · exact Or.inl ⟨EINVAL, by decide, rfl⟩

/-! ## The walk and a missing component -/

theorem resolve_append_cons {before ns : List (List Char)} {name : List Char} {dvp v : V}
    (h : resolve fs dvp (before ++ name :: ns) = .ok v) :
    ∃ d vp, resolve fs dvp before = .ok d ∧ enter fs d name = .ok vp := by
  induction before generalizing dvp with
  | nil =>
    rw [List.nil_append, resolve] at h
    cases henter : enter fs dvp name with
    | error e => simp [henter] at h
    | ok vp => exact ⟨dvp, vp, rfl, henter⟩
  | cons n before ih =>
    rw [List.cons_append, resolve] at h
    cases henter : enter fs dvp n with
    | error e => simp [henter] at h
    | ok vp =>
      simp only [henter] at h
      obtain ⟨d, v', hd, hv'⟩ := ih h
      refine ⟨d, v', ?_, hv'⟩
      rw [resolve_cons henter]
      exact hd

/-- The walk stops at a component that is missing. -/
theorem Missing.namei (h : Missing fs root filename) :
    (namei fs .CREATE (ndInit filename root)).1 = ENOENT := by
  obtain ⟨before, name, behind, dvp, hns, hbehind, hdvp, henter⟩ := h
  have hspec := @namei_spec V fs .CREATE filename root
  rcases hspec with ⟨hempty, _⟩ | ⟨before', name', behind', hr, hend⟩
  · rw [hempty] at hns
    simp at hns
  · generalize Vnio.namei fs .CREATE (ndInit filename root) = r at hr hend ⊢
    have hsame (hb : before' = before) (hcons : name :: behind = name' :: behind') :
        r.1 = ENOENT := by
      rw [List.cons.injEq] at hcons
      have hdir := hr.dir
      rw [hb, hdvp, Except.ok.injEq] at hdir
      have hlast : behind'.isEmpty = false := by
        rw [← hcons.2]
        simpa using hbehind
      rw [hlast, answer_not_last, ← hdir, ← hcons.1, henter] at hend
      exact hend
    have heq := hr.names
    rw [hns, List.append_eq_append_iff] at heq
    rcases heq with ⟨more, hb, hcons⟩ | ⟨more, hb, hcons⟩
    · cases more with
      | nil => exact hsame (by rw [hb, List.append_nil]) hcons
      | cons n more =>
        -- The walk has gone on behind the missing component.
        exfalso
        rw [List.cons_append, List.cons.injEq] at hcons
        have hdir := hr.dir
        rw [hb, ← hcons.1] at hdir
        obtain ⟨d, vp, hd, hvp⟩ := resolve_append_cons hdir
        rw [hdvp, Except.ok.injEq] at hd
        rw [← hd, henter] at hvp
        cases hvp
    · cases more with
      | nil => exact hsame (by rw [hb, List.append_nil]) hcons.symm
      | cons n more =>
        -- The walk has stopped before it.
        exfalso
        rw [List.cons_append, List.cons.injEq] at hcons
        rw [hb, ← hcons.1] at hdvp
        obtain ⟨d, vp, hd, hvp⟩ := resolve_append_cons hdvp
        have hdir := hr.dir
        rw [hd, Except.ok.injEq] at hdir
        have hlast : behind'.isEmpty = false := by
          rw [hcons.2]
          simp
        rw [hlast, answer_not_last, ← hdir, hvp] at hend
        rw [hend.2.1] at hlast
        cases hlast

/-- When the walk returns `ENOENT` and no component before the last is missing, it is the last
that does not exist. -/
theorem namei_last (hm : ¬Missing fs root filename)
    (h : (namei fs .CREATE (ndInit filename root)).1 = ENOENT) :
    ∃ before last, names filename = before ++ [last] ∧
      resolve fs root before = .ok (namei fs .CREATE (ndInit filename root)).2.ni_dvp ∧
      fs.lookup (namei fs .CREATE (ndInit filename root)).2.ni_dvp last =
        .error ⟨ENOENT, ENOENT_ne_OK⟩ ∧
      (namei fs .CREATE (ndInit filename root)).2.ni_cn.map ComponentName.name = some last := by
  have hspec := @namei_spec V fs .CREATE filename root
  rcases hspec with ⟨_, hok, _⟩ | ⟨before, name, behind, hr, hend⟩
  · rw [hok] at h
    cases h
  · generalize namei fs .CREATE (ndInit filename root) = r at *
    cases hans : answer fs .CREATE r.2.ni_dvp name behind.isEmpty with
    | ok vp =>
      rw [hans] at hend
      rw [hend.1] at h
      cases h
    | error e =>
      rw [hans] at hend
      simp only at hend
      have he : e = ⟨ENOENT, ENOENT_ne_OK⟩ := Subtype.ext (hend.symm.trans h)
      subst he
      have hlast : behind = [] := by
        by_contra hne
        apply hm
        have hempty : behind.isEmpty = false := by simpa using hne
        rw [hempty, answer_not_last] at hans
        exact ⟨before, name, behind, r.2.ni_dvp, hr.names, hne, hr.dir, hans⟩
      refine ⟨before, name, by rw [hr.names, hlast], hr.dir, ?_, hr.cn⟩
      unfold answer at hans
      split at hans
      · simp [EEXIST, ENOENT] at hans
      · split at hans
        · simp [EINVAL, ENOENT] at hans
        · unfold enter at hans
          split at hans
          · simp [FOLLOW_DOTDOT, ENOENT] at hans
          · exact hans

/-- A file system with an empty root directory. -/
def emptyFs : FileSys Unit := emptyDir OK

end Vmx.Vnio
