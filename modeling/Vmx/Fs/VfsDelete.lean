import Vmx.Fs.VfsLib

/-!
# Removing an entry

`vnioRmdir` and `vnioRemove` return what `errnoSet` returns when they fail, which is `OK`, and
`vncioDelete` gives to `errnoSet` what `vnioConnect` returns before the walk or for a link to
follow.  `vncioDelete` is right when the mode is not one it knows, and when nothing fails
(`deletes_iff`).
-/

namespace Vmx.Vnio

universe u

variable {V : Type u}

/-- The operation removes the entry that the walk has found. -/
def Op.Removes (nid : NameiData V) : Op V → Prop
  | .rmdir dvp vp cn => dvp = nid.ni_dvp ∧ nid.ni_vp = some vp ∧ cn = nid.ni_cn
  | .remove dvp vp cn => dvp = nid.ni_dvp ∧ nid.ni_vp = some vp ∧ cn = nid.ni_cn
  | .mkdir _ _ _ => False
  | .symlink _ _ _ _ => False
  | .create _ _ _ => False
  | .open _ _ => False
  | .truncate _ => False

/-- The mode is one that `vncioDelete` knows: that of a directory, or none. -/
def Known (mode : Nat) : Prop := mode &&& S_IFMT = S_IFDIR ∨ mode = 0

instance (mode : Nat) : Decidable (Known mode) := inferInstanceAs (Decidable (_ ∨ _))

/-- The operation for an entry of a type, or why there is none. -/
def removal (mode : Nat) (v_type : VType) (nid : NameiData V) (vp : V) : Except Int (Op V) :=
  match v_type with
  | .VDIR => .ok (.rmdir nid.ni_dvp vp nid.ni_cn)
  | .VREG | .VLNK =>
    if mode = 0 then .ok (.remove nid.ni_dvp vp nid.ni_cn) else .error ENOTDIR
  | .VNON | .VBLK | .VSOCK | .VFIFO | .VCHR =>
    if mode = 0 then .error EPERM else .error ENOTDIR

theorem removal_removes {mode : Nat} {v_type : VType} {nid : NameiData V} {vp : V} {op : Op V}
    (hvp : nid.ni_vp = some vp) (h : removal mode v_type nid vp = .ok op) : op.Removes nid := by
  unfold removal at h
  cases v_type <;> simp only [ite_eq_iff, reduceCtorEq, and_false, or_false,
    Except.ok.injEq] at h
  case VDIR => exact h ▸ ⟨rfl, hvp, rfl⟩
  case VREG => exact h.2 ▸ ⟨rfl, hvp, rfl⟩
  case VLNK => exact h.2 ▸ ⟨rfl, hvp, rfl⟩

variable (fs : FileSys V) (pFileDesc : Option Int) (root : V) (filename : List Char) (mode : Nat)

/-- What the walk returns for the path. -/
def walked : Int × NameiData V := namei fs .DELETE (ndInit filename root)

/-- `e` is why a call that fails does. -/
def Cause (e : Int) : Prop :=
  if ¬Known mode then e = EINVAL
  else if pFileDesc = none then e = S_vfsLib_FILEDESC_EXHAUSTED
  else if (walked fs root filename).1 = FOLLOW_LINK ∨
      (walked fs root filename).1 = FOLLOW_DOTDOT then
    e ≠ FOLLOW_LINK ∧ e ≠ FOLLOW_DOTDOT
  else if (walked fs root filename).1 ≠ OK then e = (walked fs root filename).1
  else
    ∃ vp, (walked fs root filename).2.ni_vp = some vp ∧
      match removal mode (fs.v_type vp) (walked fs root filename).2 vp with
      | .error error => e = error
      | .ok op => e = fs.vop op

/-- What callers rely on: the call returns `OK` when the operation that removes the entry has
been called and has returned `OK`, and otherwise fails with the cause and has removed nothing. -/
structure Deletes (r : Result V) : Prop where
  ok_iff : r.status = OK ↔
    ∃ op, r.ops = [op] ∧ op.Removes (walked fs root filename).2 ∧ fs.vop op = OK
  failed : r.status ≠ OK → r.status = ERROR ∧ (∀ op ∈ r.ops, fs.vop op ≠ OK) ∧
    ∃ e, r.errno = some e ∧ Cause fs pFileDesc root filename mode e

/-- Nothing fails: there is a file descriptor, the walk finds the entry, and the operation that
removes an entry of its type returns `OK`. -/
def Succeeds : Prop :=
  pFileDesc ≠ none ∧ (walked fs root filename).1 = OK ∧
    ∃ vp op, (walked fs root filename).2.ni_vp = some vp ∧
      removal mode (fs.v_type vp) (walked fs root filename).2 vp = .ok op ∧ fs.vop op = OK

variable {fs pFileDesc root filename mode}

/-- Whatever has failed, `vnioRmdir` and `vnioRemove` return `OK`. -/
theorem removed_status (error : Int) (ops : List (Op V)) : (removed error ops).status = OK := by
  unfold removed
  split <;> rfl

theorem removed_ops (error : Int) (ops : List (Op V)) : (removed error ops).ops = ops := by
  unfold removed
  split <;> rfl

/-- `vnioRmdir` and `vnioRemove` call the operation for an entry of its type. -/
theorem remover_spec (hk : Known mode) (nid : NameiData V) (fdp error : Int) :
    (if mode &&& S_IFMT = S_IFDIR then vnioRmdir fs nid fdp error
      else vnioRemove fs nid fdp error) =
    if error ≠ OK then removed error []
    else
      match nid.ni_vp with
      | none => removed error []
      | some vp =>
        match removal mode (fs.v_type vp) nid vp with
        | .error e => removed e []
        | .ok op => removed (fs.vop op) [op] := by
  by_cases hdir : mode &&& S_IFMT = S_IFDIR
  · have hmode : mode ≠ 0 := by
      rintro rfl
      simp [S_IFDIR] at hdir
    rw [if_pos hdir, vnioRmdir]
    cases nid.ni_vp with
    | none => rfl
    | some vp => cases hvp : fs.v_type vp <;> simp [removal, hvp, hmode]
  · have hmode : mode = 0 := hk.resolve_left hdir
    rw [if_neg hdir, vnioRemove]
    cases nid.ni_vp with
    | none => rfl
    | some vp => cases hvp : fs.v_type vp <;> simp [removal, hvp, hmode]

/-- With a mode that it knows, `vncioDelete` has the function of the mode called with what the walk
has found. -/
theorem vncioDelete_known (hk : Known mode) :
    vncioDelete fs pFileDesc root filename mode =
      let r := vnioConnect fs pFileDesc root filename .DELETE fun nid fdp error =>
        if mode &&& S_IFMT = S_IFDIR then vnioRmdir fs nid fdp error
        else vnioRemove fs nid fdp error
      if r.status ≠ OK then ⟨ERROR, some r.status, r.ops⟩ else r := by
  unfold vncioDelete
  by_cases hdir : mode &&& S_IFMT = S_IFDIR
  · simp only [hdir, if_true]
  · have hmode : mode = 0 := hk.resolve_left hdir
    simp only [hdir, if_false]
    rw [if_pos hmode]

/-- A call whose removal function has been called returns `OK`, and is right when the operation
has removed the entry. -/
theorem deletes_removed (error : Int) (ops : List (Op V)) :
    Deletes fs pFileDesc root filename mode (removed error ops) ↔
      ∃ op, ops = [op] ∧ op.Removes (walked fs root filename).2 ∧ fs.vop op = OK := by
  constructor
  · intro h
    have hop := h.ok_iff.1 (removed_status error ops)
    rw [removed_ops] at hop
    exact hop
  · intro h
    refine ⟨?_, fun hne => absurd (removed_status error ops) hne⟩
    rw [removed_ops]
    exact ⟨fun _ => h, fun _ => removed_status error ops⟩

/-- A call that fails with something else than the cause is not right. -/
theorem not_deletes {error : Int} {ops : List (Op V)}
    (hcause : ¬Cause fs pFileDesc root filename mode error) :
    ¬Deletes fs pFileDesc root filename mode ⟨ERROR, some error, ops⟩ := by
  intro h
  have hfailed : (⟨ERROR, some error, ops⟩ : Result V).status ≠ OK := by
    show ERROR ≠ OK
    decide
  obtain ⟨_, _, e, he, hc⟩ := h.failed hfailed
  rw [Option.some.injEq] at he
  rw [← he] at hc
  exact hcause hc

/-- Behind the walk the call is right when nothing fails. -/
theorem deletes_walked {fdp : Int} (hk : Known mode) :
    Deletes fs (some fdp) root filename mode
        (let r : Result V :=
          if mode &&& S_IFMT = S_IFDIR then
            vnioRmdir fs (walked fs root filename).2 fdp (walked fs root filename).1
          else vnioRemove fs (walked fs root filename).2 fdp (walked fs root filename).1
        if r.status ≠ OK then ⟨ERROR, some r.status, r.ops⟩ else r) ↔
      Succeeds fs (some fdp) root filename mode := by
  have hfinish (error : Int) (ops : List (Op V)) :
      (if (removed error ops).status ≠ OK then
          (⟨ERROR, some (removed error ops).status, (removed error ops).ops⟩ : Result V)
        else removed error ops) = removed error ops :=
    if_neg (by simp [removed_status])
  unfold Succeeds
  simp only [remover_spec hk]
  generalize hw : walked fs root filename = w
  by_cases herr : w.1 ≠ OK
  · rw [if_pos herr, hfinish, deletes_removed]
    constructor
    · rintro ⟨op, hops, _⟩
      simp at hops
    · intro h
      exact absurd h.2.1 herr
  · rw [if_neg herr]
    rw [not_not] at herr
    cases hvp : w.2.ni_vp with
    | none =>
      simp only [hfinish]
      rw [deletes_removed]
      constructor
      · rintro ⟨op, hops, _⟩
        simp at hops
      · rintro ⟨_, _, vp, op, h, _⟩
        cases h
    | some vp =>
      cases hrem : removal mode (fs.v_type vp) w.2 vp with
      | error e =>
        simp only [hrem, hfinish]
        rw [deletes_removed]
        constructor
        · rintro ⟨op, hops, _⟩
          simp at hops
        · rintro ⟨_, _, vp', op, h, hop, _⟩
          cases h
          rw [hrem] at hop
          cases hop
      | ok op =>
        simp only [hrem, hfinish]
        rw [deletes_removed, hw]
        constructor
        · rintro ⟨op', hops, _, hok⟩
          rw [List.cons.injEq] at hops
          rw [← hops.1] at hok
          exact ⟨by simp, herr, vp, op, rfl, hrem, hok⟩
        · rintro ⟨_, _, vp', op', h, hop, hok⟩
          cases h
          rw [hrem, Except.ok.injEq] at hop
          exact ⟨op, rfl, removal_removes hvp hrem, hop ▸ hok⟩

/-- `vncioDelete` is right for a mode that it does not know, and when nothing fails. -/
theorem deletes_iff : Deletes fs pFileDesc root filename mode
      (vncioDelete fs pFileDesc root filename mode) ↔
    ¬Known mode ∨ Succeeds fs pFileDesc root filename mode := by
  by_cases hk : Known mode
  · rw [vncioDelete_known hk]
    simp only [hk, not_true_eq_false, false_or]
    cases pFileDesc with
    | none =>
      have hcause : ¬Cause fs none root filename mode ERROR := by
        simp only [Cause, hk, not_true_eq_false, if_false, if_true]
        decide
      constructor
      · intro h
        exact absurd h (not_deletes hcause)
      · intro h
        exact absurd rfl h.1
    | some fdp =>
      by_cases hfollow : (walked fs root filename).1 = FOLLOW_LINK ∨
          (walked fs root filename).1 = FOLLOW_DOTDOT
      · have hne : (walked fs root filename).1 ≠ OK := by
          rcases hfollow with h | h <;> rw [h] <;> decide
        unfold vnioConnect
        simp only
        rw [show namei fs .DELETE (ndInit filename root) = walked fs root filename from rfl,
          if_pos hfollow, if_pos hne]
        have hcause : ¬Cause fs (some fdp) root filename mode (walked fs root filename).1 := by
          simp only [Cause, hk, not_true_eq_false, if_false, reduceCtorEq, hfollow, if_true]
          rintro ⟨h1, h2⟩
          exact hfollow.elim h1 h2
        constructor
        · intro h
          exact absurd h (not_deletes hcause)
        · intro h
          exact absurd h.2.1 hne
      · unfold vnioConnect
        simp only
        rw [show namei fs .DELETE (ndInit filename root) = walked fs root filename from rfl,
          if_neg hfollow]
        exact deletes_walked hk
  · have hdir : ¬mode &&& S_IFMT = S_IFDIR := fun h => hk (Or.inl h)
    have hmode : ¬mode = 0 := fun h => hk (Or.inr h)
    have hr : vncioDelete fs pFileDesc root filename mode = ⟨ERROR, some EINVAL, []⟩ := by
      unfold vncioDelete
      rw [if_neg hdir, if_neg hmode]
      exact if_pos (show EINVAL ≠ OK by decide)
    rw [hr]
    constructor
    · exact fun _ => Or.inl hk
    · intro _
      constructor
      · constructor
        · intro h
          exact absurd h (show ERROR ≠ OK by decide)
        · rintro ⟨op, hops, _⟩
          simp at hops
      · intro _
        refine ⟨rfl, by simp, EINVAL, rfl, ?_⟩
        simp [Cause, hk]

/-- A file system with an empty root directory, in which every operation returns `EINVAL`. -/
def emptyRoot : FileSys Unit := emptyDir EINVAL

/-- A file that does not exist is removed with `OK`. -/
theorem not_deletes_missing : ¬∀ (pFileDesc : Option Int) (filename : List Char) (mode : Nat),
    Deletes emptyRoot pFileDesc () filename mode
      (vncioDelete emptyRoot pFileDesc () filename mode) := by
  intro h
  obtain ⟨op, hops, _⟩ := (h (some 1) ['a'] 0).ok_iff.1 (by decide)
  have hnone : (vncioDelete emptyRoot (some 1) () ['a'] 0).ops = [] := by decide
  rw [hnone] at hops
  simp at hops

end Vmx.Vnio
