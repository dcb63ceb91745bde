import Vmx.Os.EnvMemory

/-!
# Runs of `envLib`

`Inv` is what the calls of `Meets` keep: each environment is a table that holds its strings, no
two environments share memory, and the variables have the values that they are to have.
`env_runs` is the result for the runs of such calls; `env_wrong_task` is a run that ends wrong.
-/

namespace Vmx.Os.Env

open Lib

/-! ## Environments of tasks -/

namespace State

/-- The environment that a task uses. -/
def user (s : State) (t : Nat) : Option Nat := if (s.tcb t).ppEnviron = none then none else some t

variable {s : State} {t : Nat}

theorem env_user (s : State) (t : Nat) : s.env (s.user t) = some (s.cur t) := by
  rw [user, cur]
  cases h : (s.tcb t).ppEnviron with
  | none =>
    rw [if_pos rfl, env, env, h]
    rfl
  | some p =>
    rw [if_neg (Option.some_ne_none p), env, h]
    rfl

theorem env_setPrivate (s : State) (me taskId : Nat) (b : Bool) :
    (s.setPrivate me taskId b).env = s.env := by
  rw [setPrivate]
  cases s.taskTcb me taskId with
  | none => rfl
  | some t =>
    funext e
    cases e with
    | none => rfl
    | some t' =>
      by_cases ht : t' = t
      · simp [env, ht]
      · simp [env, Function.update_of_ne ht]

theorem mem_setPrivate (s : State) (me taskId : Nat) (b : Bool) :
    (s.setPrivate me taskId b).mem = s.mem := by
  rw [setPrivate]
  cases s.taskTcb me taskId <;> rfl

/-- The private environment of one task is set. -/
theorem env_update {m : Memory} {c : Tcb} (e : Option Nat) (he : e ≠ some t) :
    ({ s with mem := m, tcb := Function.update s.tcb t c } : State).env e = s.env e := by
  cases e with
  | none => rfl
  | some t' =>
    have ht : t' ≠ t := fun heq => he (congrArg some heq)
    simp [env, Function.update_of_ne ht]

end State

/-! ## The invariant -/

/-- The strings give the values. -/
def Agrees (L : List Line) (f : Values) : Prop :=
  ∀ name, (∀ c ∈ name, separator c = false) → lookup L name = f name

structure Inv (w : World) (A : Option Nat → List Nat) (L : Option Nat → List Line) : Prop where
  holds : ∀ e r, w.s.env e = some r → Holds w.s.mem r (A e) (L e)
  apart : ∀ e e' r r', e ≠ e' → w.s.env e = some r → w.s.env e' = some r' →
    r.table ≠ r'.table ∧ (A e).Disjoint (A e')
  same : ∀ e, w.spec e = none ↔ w.s.env e = none
  agrees : ∀ e f, w.spec e = some f → Agrees (L e) f

variable {w : World} {A : Option Nat → List Nat} {L : Option Nat → List Line}

namespace Inv

theorem user_eq (h : Inv w A L) (t : Nat) : w.spec.user t = w.s.user t := by
  rw [Spec.user, State.user]
  have hsame := h.same (some t)
  rw [State.env, Option.map_eq_none_iff] at hsame
  by_cases hp : (w.s.tcb t).ppEnviron = none
  · rw [if_pos hp, hsame.2 hp]
    rfl
  · rw [if_neg hp, if_pos (Option.isSome_iff_ne_none.2 (mt hsame.1 hp))]

/-- The values of the environment that a task uses. -/
theorem spec_user (h : Inv w A L) (t : Nat) : w.spec (w.s.user t) = some (w.spec.of t) := by
  rw [Spec.of, h.user_eq]
  cases hs : w.spec (w.s.user t) with
  | none =>
    rw [h.same, State.env_user] at hs
    cases hs
  | some f => rfl

theorem holds_cur (h : Inv w A L) (t : Nat) :
    Holds w.s.mem (w.s.cur t) (A (w.s.user t)) (L (w.s.user t)) :=
  h.holds _ _ (w.s.env_user t)

theorem agrees_cur (h : Inv w A L) (t : Nat) : Agrees (L (w.s.user t)) (w.spec.of t) :=
  h.agrees _ _ (h.spec_user t)

/-- One environment is changed or made. -/
theorem change (h : Inv w A L) {s' : State} {e : Option Nat} {r' : Ref} {B : List Nat}
    {M : List Line} {f : Values} (henv : s'.env e = some r')
    (hother : ∀ e' ≠ e, s'.env e' = w.s.env e') (hholds : Holds s'.mem r' B M)
    (hframe : ∀ e' ≠ e, ∀ r, w.s.env e' = some r →
      Holds s'.mem r (A e') (L e') ∧ r.table ≠ r'.table ∧ (A e').Disjoint B)
    (hagrees : Agrees M f) :
    Inv ⟨s', Function.update w.spec e (some f)⟩ (Function.update A e B)
      (Function.update L e M) := by
  have hr : ∀ r, s'.env e = some r → r = r' := fun r hr => by
    rw [henv] at hr
    exact (Option.some.inj hr).symm
  refine ⟨fun d r hd => ?_, fun d d' r s hne hd hd' => ?_, fun d => ?_, fun d g hd => ?_⟩
  · by_cases hde : d = e
    · rw [hde] at hd ⊢
      rw [Function.update_self, Function.update_self, hr r hd]
      exact hholds
    · rw [Function.update_of_ne hde, Function.update_of_ne hde]
      exact (hframe d hde r ((hother d hde).symm.trans hd)).1
  · by_cases hde : d = e
    · rw [hde] at hd hne ⊢
      have hframe' := hframe d' (Ne.symm hne) s ((hother d' (Ne.symm hne)).symm.trans hd')
      rw [Function.update_self, Function.update_of_ne (Ne.symm hne), hr r hd]
      exact ⟨hframe'.2.1.symm, fun a ha ha' => hframe'.2.2 ha' ha⟩
    · have hframe' := hframe d hde r ((hother d hde).symm.trans hd)
      by_cases hde' : d' = e
      · rw [hde'] at hd' ⊢
        rw [Function.update_self, Function.update_of_ne hde, hr s hd']
        exact hframe'.2
      · rw [Function.update_of_ne hde, Function.update_of_ne hde']
        exact h.apart d d' r s hne ((hother d hde).symm.trans hd) ((hother d' hde').symm.trans hd')
  · dsimp only
    by_cases hde : d = e
    · rw [hde, Function.update_self, henv]
      exact iff_of_false (Option.some_ne_none _) (Option.some_ne_none _)
    · rw [Function.update_of_ne hde, hother d hde]
      exact h.same d
  · dsimp only at hd
    by_cases hde : d = e
    · rw [hde, Function.update_self] at hd
      rw [hde, Function.update_self, ← Option.some.inj hd]
      exact hagrees
    · rw [Function.update_of_ne hde] at hd ⊢
      exact h.agrees d g hd

/-- One environment is there no more. -/
theorem drop (h : Inv w A L) {s' : State} {e : Option Nat} (henv : s'.env e = none)
    (hother : ∀ e' ≠ e, s'.env e' = w.s.env e')
    (hframe : ∀ e' ≠ e, ∀ r, w.s.env e' = some r → Holds s'.mem r (A e') (L e')) :
    Inv ⟨s', Function.update w.spec e none⟩ A L := by
  have hne : ∀ d r, s'.env d = some r → d ≠ e := fun d r hd hde => by
    rw [hde, henv] at hd
    cases hd
  refine ⟨fun d r hd => ?_, fun d d' r s hdd' hd hd' => ?_, fun d => ?_, fun d g hd => ?_⟩
  · have hde := hne d r hd
    exact hframe d hde r ((hother d hde).symm.trans hd)
  · have hde := hne d r hd
    have hde' := hne d' s hd'
    exact h.apart d d' r s hdd' ((hother d hde).symm.trans hd) ((hother d' hde').symm.trans hd')
  · dsimp only
    by_cases hde : d = e
    · rw [hde, Function.update_self, henv]
      exact iff_of_true rfl rfl
    · rw [Function.update_of_ne hde, hother d hde]
      exact h.same d
  · dsimp only at hd
    by_cases hde : d = e
    · rw [hde, Function.update_self] at hd
      cases hd
    · rw [Function.update_of_ne hde] at hd
      exact h.agrees d g hd

end Inv

/-! ## Reading -/

/-- The entry that the search finds. -/
theorem Inv.envFind_eq (h : Inv w A L) (t : Nat) (name : Line) :
    envFind w.s t name = some ((L (w.s.user t)).findIdx? (isEntryOf name)) := by
  have hholds := h.holds_cur t
  rw [envFind, envFindLoop_eq hholds (by rw [Nat.zero_add, hholds.length_eq]), List.drop_zero]
  congr 1
  cases (L (w.s.user t)).findIdx? (isEntryOf name) with
  | none => rfl
  | some i => exact congrArg some (Nat.zero_add i)

/-- A list is split at the place that a search finds. -/
theorem findIdx?_split {α : Type} {p : α → Bool} {M : List α} {i : Nat}
    (h : M.findIdx? p = some i) :
    ∃ pre line post, M = pre ++ line :: post ∧ pre.length = i ∧ p line = true ∧
      ∀ x ∈ pre, p x = false := by
  obtain ⟨hi, hline, hpre⟩ := List.findIdx?_eq_some_iff_getElem.1 h
  refine ⟨M.take i, M[i], M.drop (i + 1), ?_, ?_, hline, fun x hx => ?_⟩
  · rw [← List.drop_eq_getElem_cons hi, List.take_append_drop]
  · rw [List.length_take, Nat.min_eq_left (Nat.le_of_lt hi)]
  · obtain ⟨j, hj, rfl⟩ := List.mem_iff_getElem.1 hx
    rw [List.length_take] at hj
    have hnot := hpre j (by omega)
    rw [List.getElem_take]
    exact Bool.eq_false_iff.2 hnot

/-- The values are right. -/
theorem Inv.right (h : Inv w A L) : Right w := by
  refine ⟨fun t name hname => ?_, fun t => ?_⟩
  · have hholds := h.holds_cur t
    rw [← h.agrees_cur t name hname, getenv, h.envFind_eq, Option.bind_some]
    cases hfind : (L (w.s.user t)).findIdx? (isEntryOf name) with
    | none =>
      have hnone : (L (w.s.user t)).find? (isEntryOf name) = none := by
        rw [List.findIdx?_eq_none_iff] at hfind
        rw [List.find?_eq_none]
        exact fun x hx => by rw [hfind x hx]; exact Bool.false_ne_true
      rw [Option.elim_none, lookup, hnone]
      rfl
    | some i =>
      obtain ⟨pre, line, post, hsplit, hlen, hline, hpre⟩ := findIdx?_split hfind
      have hat : (L (w.s.user t))[i]? = some line := by
        rw [hsplit, ← hlen, List.getElem?_append_right (Nat.le_refl _), Nat.sub_self]
        rfl
      have hnone : pre.find? (isEntryOf name) = none :=
        List.find?_eq_none.2 fun x hx => by rw [hpre x hx]; exact Bool.false_ne_true
      rw [Option.elim_some, hholds.line_eq hat, lookup, hsplit, List.find?_append, hnone,
        Option.none_or, List.find?_cons, hline]
      rfl
  · have hholds := h.holds_cur t
    obtain ⟨table, htable, hsize, -⟩ := hholds.table
    exact ⟨table, htable, by rw [hsize]; exact hholds.bound⟩

/-! ## Setting -/

namespace State

variable {s : State} {t : Nat} {m : Memory}

/-- The counter of the environment of the task goes up, and no other. -/
theorem env_countUp (s : State) (t : Nat) (m : Memory) :
    ({ s.countUp t with mem := m } : State).env (s.user t) =
        some ⟨(s.cur t).table, (s.cur t).size, (s.cur t).n + 1⟩ ∧
      ∀ e ≠ s.user t, ({ s.countUp t with mem := m } : State).env e = s.env e := by
  rw [countUp, user, cur]
  cases hp : (s.tcb t).ppEnviron with
  | none =>
    rw [if_pos rfl, if_pos rfl]
    refine ⟨by simp [env, hp], fun e he => ?_⟩
    cases e with
    | none => exact absurd rfl he
    | some t' => rfl
  | some p =>
    rw [if_neg (Option.some_ne_none p), if_neg (Option.some_ne_none p)]
    refine ⟨by simp [env, hp], fun e he => ?_⟩
    cases e with
    | none => rfl
    | some t' =>
      have ht : t' ≠ t := fun heq => he (congrArg some heq)
      simp [env, Function.update_of_ne ht]

theorem mem_countUp (s : State) (t : Nat) : (s.countUp t).mem = s.mem := by
  rw [countUp]
  split <;> rfl

end State

/-- A variable is set, in an entry of its own or in the one that it has. -/
theorem Inv.putenv (h : Inv w A L) {me : Nat} {string : Line} {ok : Nat → Bool}
    (hmeets : Meets w (.putenv me string ok)) :
    ∃ s' A' L', putenv w.s me string ok = some (s', OK) ∧
      Inv ⟨s', w.spec.call w.s (.putenv me string ok)⟩ A' L' := by
  obtain ⟨hroom, hok⟩ := hmeets
  have hholds := h.holds_cur me
  have hcur := w.s.env_user me
  rw [Env.putenv, h.envFind_eq, Option.bind_some, Spec.call, h.user_eq]
  rw [h.envFind_eq] at hroom
  cases hfind : (L (w.s.user me)).findIdx? (isEntryOf (nameOf string)) with
  | none =>
    -- a new entry
    rw [hfind] at hroom
    have hlt := hroom.resolve_left fun hne => hne rfl
    rw [List.findIdx?_eq_none_iff] at hfind
    obtain ⟨m', hput, hnew, -⟩ := hholds.put_end hlt string
    obtain ⟨henv, hother⟩ := w.s.env_countUp me m'
    dsimp only
    rw [if_neg (Nat.ne_of_gt hlt), store, if_pos hok, State.mem_countUp, hput]
    refine ⟨_, _, _, rfl, h.change henv hother hnew (fun e he r hr => ?_) fun name hname => ?_⟩
    · obtain ⟨hne, hdisjoint⟩ := h.apart e _ r _ he hr hcur
      have hr' := h.holds e r hr
      refine ⟨hr'.put_other hne hput, hne, fun a ha hb => ?_⟩
      rcases List.mem_append.1 hb with hb | hb
      · exact hdisjoint ha hb
      · rw [List.mem_singleton.1 hb] at ha
        exact Nat.lt_irrefl _ (hr'.lt _ ha)
    · rw [lookup_append hfind hname, Function.update_apply]
      split
      · rfl
      · exact h.agrees_cur me name hname
  | some i =>
    -- the entry of the variable
    obtain ⟨pre, line, post, hsplit, hlen, hline, hpre⟩ := findIdx?_split hfind
    have hlength := hholds.length_eq
    have hcount := hholds.count
    rw [hsplit] at hholds hlength
    rw [List.length_append, List.length_cons] at hlength
    obtain ⟨B, a, C, hA, hB⟩ : ∃ B a C, A (w.s.user me) = B ++ a :: C ∧ B.length = pre.length := by
      have hi : pre.length < (A (w.s.user me)).length := by omega
      refine ⟨(A (w.s.user me)).take pre.length, (A (w.s.user me))[pre.length],
        (A (w.s.user me)).drop (pre.length + 1), ?_, ?_⟩
      · rw [← List.drop_eq_getElem_cons hi, List.take_append_drop]
      · rw [List.length_take, Nat.min_eq_left (Nat.le_of_lt hi)]
    rw [hA] at hholds
    obtain ⟨m₁, m', hentry, hfree, hput, hnew⟩ := hholds.replace hB string
    dsimp only
    rw [← hlen, hentry, Option.bind_some, store, if_pos hok, hput]
    refine ⟨_, _, _, rfl, h.change hcur (fun _ _ => rfl) hnew (fun e he r hr => ?_)
      fun name hname => ?_⟩
    · obtain ⟨hne, hdisjoint⟩ := h.apart e _ r _ he hr hcur
      rw [hA] at hdisjoint
      have hr' := h.holds e r hr
      have haA : a ∉ A e := fun ha => hdisjoint ha (List.mem_append_right _ List.mem_cons_self)
      refine ⟨(hr'.freeString haA hfree).put_other hne hput, hne, fun b hb hb' => ?_⟩
      rcases List.mem_append.1 hb' with hb' | hb'
      · exact hdisjoint hb (List.mem_append_left _ hb')
      · rcases List.mem_cons.1 hb' with hb' | hb'
        · rw [hb'] at hb
          exact Nat.lt_irrefl _ (hr'.lt _ hb)
        · exact hdisjoint hb (List.mem_append_right _ (List.mem_cons_of_mem _ hb'))
    · rw [lookup_replace hpre hline hname, Function.update_apply, ← hsplit]
      split
      · rfl
      · exact h.agrees_cur me name hname

/-! ## Making and destroying -/

namespace Inv

/-- The environments are kept when memory is only added. -/
theorem congr {s s' : State} {a : Spec} (h : Inv ⟨s, a⟩ A L)
    (hmem : ∀ r C K, Holds s.mem r C K → Holds s'.mem r C K) (henv : s'.env = s.env) :
    Inv ⟨s', a⟩ A L := by
  refine ⟨fun e r hr => ?_, fun e e' r r' hne hr hr' => ?_, fun e => ?_, h.agrees⟩
  · rw [henv] at hr
    exact hmem r _ _ (h.holds e r hr)
  · rw [henv] at hr hr'
    exact h.apart e e' r r' hne hr hr'
  · rw [henv]
    exact h.same e

/-- A task gets a new private environment. -/
theorem make (h : Inv w A L) {m : Memory} {t size n : Nat} {B : List Nat} {M : List Line}
    {f : Values} (hholds : Holds m ⟨w.s.mem.next, size, n⟩ B M)
    (hnew : ∀ a ∈ B, w.s.mem.next ≤ a)
    (hframe : ∀ r C K, Holds w.s.mem r C K → Holds m r C K) (hagrees : Agrees M f) :
    Inv ⟨{ w.s with
        mem := m
        tcb := Function.update w.s.tcb t
          { w.s.tcb t with
            ppEnviron := some w.s.mem.next
            envTableSize := size
            nEnvVarEntries := n } }, Function.update w.spec (some t) (some f)⟩
      (Function.update A (some t) B) (Function.update L (some t) M) := by
  refine h.change (by simp [State.env]) (fun e he => State.env_update e he) hholds
    (fun e _ r hr => ?_) hagrees
  have hr' := h.holds e r hr
  exact ⟨hframe _ _ _ hr', Nat.ne_of_lt hr'.table_lt,
    fun a ha hb => Nat.not_lt.2 (hnew a hb) (hr'.lt a ha)⟩

end Inv

/-- A duplicate holds the same strings in memory of its own. -/
theorem envDuplicate_spec {s : State} {src : Ref} {B : List Nat} {M : List Line}
    {ok : Nat → Bool} (hsrc : Holds s.mem src B M) (hok : ∀ i ≤ src.n, ok i = true) (t : Nat) :
    ∃ m C, envDuplicate s (some src.table) src.size src.n t ok =
        some ({ s with
          mem := m
          tcb := Function.update s.tcb t
            { s.tcb t with
              ppEnviron := some s.mem.next
              envTableSize := src.size
              nEnvVarEntries := src.n } }, OK) ∧
      Holds m ⟨s.mem.next, src.size, src.n⟩ C M ∧ (∀ a ∈ C, s.mem.next ≤ a) ∧
      ∀ r D K, Holds s.mem r D K → Holds m r D K := by
  have hlength := hsrc.length_eq
  obtain ⟨m, C, hloop, hholds, hnew, hkeep⟩ := copyLoop_spec (n := src.n) (i := 0)
    (hsrc.newTable src.size) (holds_newTable s.mem src.size) (Nat.ne_of_lt hsrc.table_lt)
    (by rw [Nat.zero_add, hlength]) (by rw [hlength]; exact hsrc.bound)
    (by rw [hlength]; exact hok)
  rw [hlength] at hloop hholds
  refine ⟨m, C, ?_, hholds, fun a ha => ?_, fun r D K h =>
    hkeep r D K (h.newTable src.size) (Nat.ne_of_lt h.table_lt)⟩
  · rw [envDuplicate, if_pos (hok 0 (Nat.zero_le _)), hloop]
    rfl
  · rcases hnew a ha with ha | ha
    · exact absurd ha List.not_mem_nil
    · exact Nat.le_of_succ_le ha

/-- A private environment is made. -/
theorem Inv.envPrivateCreate (h : Inv w A L) {me taskId : Nat} {envSource : Int}
    {ok : Nat → Bool} (hmeets : Meets w (.envPrivateCreate me taskId envSource ok)) :
    ∃ s' A' L', envPrivateCreate w.s me taskId envSource ok = some (s', OK) ∧
      Inv ⟨s', w.spec.call w.s (.envPrivateCreate me taskId envSource ok)⟩ A' L' := by
  rw [Meets] at hmeets
  suffices hselect : ∃ s' A' L', envSourceSelect w.s me taskId envSource ok = some s' ∧
      Inv ⟨s', w.spec.call w.s (.envPrivateCreate me taskId envSource ok)⟩ A' L' by
    obtain ⟨s', A', L', hs', h'⟩ := hselect
    rw [Env.envPrivateCreate, hs']
    refine ⟨_, A', L', rfl, h'.congr (fun r C K hr => ?_) (State.env_setPrivate _ _ _ _)⟩
    rw [State.mem_setPrivate]
    exact hr
  rw [envSourceSelect, Spec.call]
  by_cases hnew : envSource = -1
  · -- an empty one
    rw [if_pos hnew] at hmeets
    rw [if_pos hnew, if_pos hmeets]
    have hframe : ∀ r C K, Holds w.s.mem r C K →
        Holds (w.s.mem.newTable ENV_MAX_ENTRIES) r C K := fun r C K h' => h'.newTable _
    have htcb : ∀ m : Memory, ({ w.s with mem := m } : State).taskTcb me taskId =
        w.s.taskTcb me taskId := fun m => rfl
    dsimp only
    rw [htcb]
    cases w.s.taskTcb me taskId with
    | none =>
      refine ⟨_, A, L, rfl, h.congr hframe ?_⟩
      funext e
      cases e <;> rfl
    | some t =>
      have hempty : Agrees [] (w.spec.source envSource) := fun name _ => by
        rw [Spec.source, if_pos hnew]
        rfl
      exact ⟨_, _, _, rfl, h.make (holds_newTable w.s.mem ENV_MAX_ENTRIES)
        (fun a ha => absurd ha List.not_mem_nil) hframe hempty⟩
  · rw [if_neg hnew] at hmeets ⊢
    by_cases hglobal : envSource = 0
    · -- a copy of the global one for the caller
      rw [if_pos hglobal] at hmeets ⊢
      obtain ⟨hself, hok⟩ := hmeets
      have hholds := h.holds none _ rfl
      obtain ⟨m, C, hdup, hcopy, hfresh, hframe⟩ := envDuplicate_spec hholds hok me
      dsimp only at hdup
      rw [hself, Option.elim_some, hdup]
      have hagrees : Agrees (L none) (w.spec.source envSource) := fun name hname => by
        rw [Spec.source, if_neg hnew, if_pos hglobal]
        cases hspec : w.spec none with
        | none =>
          rw [h.same] at hspec
          cases hspec
        | some f => exact h.agrees none f hspec name hname
      exact ⟨_, _, _, rfl, h.make hcopy hfresh hframe hagrees⟩
    · -- a copy of the private one of the caller
      rw [if_neg hglobal] at hmeets ⊢
      cases hself : w.s.taskTcb me taskId with
      | none => exact ⟨w.s, A, L, rfl, h⟩
      | some t =>
        obtain ⟨rfl, hsource, hprivate, hok⟩ := hmeets t hself
        obtain ⟨p, hp⟩ := Option.ne_none_iff_exists'.1 hprivate
        have huser : w.s.user t = some t := by
          rw [State.user, if_neg hprivate]
        have henv : w.s.env (some t) =
            some ⟨p, (w.s.tcb t).envTableSize, (w.s.tcb t).nEnvVarEntries⟩ := by
          rw [State.env, hp]
          rfl
        have hholds := h.holds _ _ henv
        obtain ⟨m, C, hdup, hcopy, hfresh, hframe⟩ := envDuplicate_spec hholds hok t
        dsimp only at hdup
        rw [Option.elim_some, Option.elim_some, hp, hdup]
        have hagrees : Agrees (L (some t)) (w.spec.source envSource) := fun name hname => by
          rw [Spec.source, if_neg hnew, if_neg hglobal, hsource, Int.toNat_natCast]
          have hcur := h.agrees_cur t name hname
          rwa [huser] at hcur
        exact ⟨_, _, _, rfl, h.make hcopy hfresh hframe hagrees⟩

/-- A private environment is destroyed. -/
theorem Inv.envPrivateDestroy (h : Inv w A L) {me taskId : Nat}
    (hmeets : Meets w (.envPrivateDestroy me taskId)) :
    ∃ s' A' L', envPrivateDestroy w.s me taskId = some (s', OK) ∧
      Inv ⟨s', w.spec.call w.s (.envPrivateDestroy me taskId)⟩ A' L' := by
  rw [Env.envPrivateDestroy, Spec.call]
  cases htask : w.s.taskTcb me taskId with
  | none => exact ⟨w.s, A, L, rfl, h⟩
  | some t =>
    rw [Option.elim_some, Option.elim_some]
    cases hp : (w.s.tcb t).ppEnviron with
    | none =>
      have hzero := (hmeets t htask).resolve_left fun hne => hne hp
      rw [envDestroy, if_pos hzero]
      exact ⟨_, A, L, rfl, h.drop (by simp [State.env]) (fun e he => State.env_update e he)
        fun e _ r hr => h.holds e r hr⟩
    | some p =>
      have henv : w.s.env (some t) =
          some ⟨p, (w.s.tcb t).envTableSize, (w.s.tcb t).nEnvVarEntries⟩ := by
        rw [State.env, hp]
        rfl
      obtain ⟨m, hdestroy, hframe⟩ := (h.holds _ _ henv).destroy
      dsimp only at hdestroy hframe
      rw [hdestroy]
      refine ⟨_, A, L, rfl, h.drop (by simp [State.env]) (fun e he => State.env_update e he)
        fun e he r hr => ?_⟩
      obtain ⟨hne, hdisjoint⟩ := h.apart e (some t) r _ he hr henv
      exact hframe r _ _ (h.holds e r hr) hne hdisjoint

/-! ## Runs -/

theorem Inv.step (h : Inv w A L) {op : Op} (hmeets : Meets w op) :
    ∃ w' A' L', Env.step w op = some w' ∧ Inv w' A' L' := by
  have hdone : ∀ {s' : State} {A' : Option Nat → List Nat} {L' : Option Nat → List Line},
      call w.s op = some (s', OK) → Inv ⟨s', w.spec.call w.s op⟩ A' L' →
      ∃ w' A' L', Env.step w op = some w' ∧ Inv w' A' L' := fun hcall h' => by
    rw [Env.step, hcall, Option.map_some, if_pos rfl]
    exact ⟨_, _, _, rfl, h'⟩
  cases op with
  | putenv me string ok =>
    obtain ⟨s', A', L', hcall, h'⟩ := h.putenv hmeets
    exact hdone hcall h'
  | getenv me name =>
    have hget := h.right.get me name hmeets
    refine @hdone w.s A L ?_ h
    rw [call, hget]
    rfl
  | envPrivateCreate me taskId envSource ok =>
    obtain ⟨s', A', L', hcall, h'⟩ := h.envPrivateCreate hmeets
    exact hdone hcall h'
  | envPrivateDestroy me taskId =>
    obtain ⟨s', A', L', hcall, h'⟩ := h.envPrivateDestroy hmeets
    exact hdone hcall h'

theorem inv_start (isTask : Nat → Bool) (envTableSize nEnvVarEntries : Nat → Nat) :
    Inv (start isTask envTableSize nEnvVarEntries) (fun _ => []) fun _ => [] := by
  refine ⟨fun e r hr => ?_, fun e e' r r' hne hr hr' => ?_, fun e => ?_, fun e f hf => ?_⟩
  · cases e with
    | none =>
      rw [← Option.some.inj hr]
      exact holds_newTable _ _
    | some t => cases hr
  · cases e with
    | none =>
      cases e' with
      | none => exact absurd rfl hne
      | some t => cases hr'
    | some t => cases hr
  · cases e with
    | none => exact iff_of_false (Option.some_ne_none _) (Option.some_ne_none _)
    | some t => exact iff_of_true rfl rfl
  · cases e with
    | none =>
      rw [← Option.some.inj hf]
      exact fun name _ => rfl
    | some t => cases hf

/-- In every run of calls of `Meets`, by any tasks, nothing undefined happens and every variable
has the value that it is to have in the environment of every task. -/
theorem env_runs (isTask : Nat → Bool) (envTableSize nEnvVarEntries : Nat → Nat) (ops : List Op)
    (hmeets : AllSteps step Meets (start isTask envTableSize nEnvVarEntries) ops) :
    ∃ w, exec step (start isTask envTableSize nEnvVarEntries) ops = some w ∧ Right w := by
  obtain ⟨w, hrun, A, L, h⟩ := exec_total_of (I := fun w => ∃ A L, Inv w A L)
    (fun w op h hop => by
      obtain ⟨A, L, h⟩ := h
      obtain ⟨w', A', L', hs, h'⟩ := h.step hop
      exact ⟨w', hs, A', L', h'⟩)
    ⟨_, _, inv_start isTask envTableSize nEnvVarEntries⟩ hmeets
  exact ⟨w, hrun, h.right⟩

/-- A global variable, a private environment with a variable of its own, and its end. -/
def privateRun : List Op :=
  [.putenv 1 [65, 61, 98] fun _ => true, .envPrivateCreate 1 1 0 fun _ => true,
    .putenv 1 [65, 61, 99] fun _ => true, .getenv 2 [65], .envPrivateDestroy 2 1]

theorem env_runs_private :
    ∃ w, exec step (start (fun _ => true) (fun _ => 0) fun _ => 0) privateRun = some w ∧ Right w :=
  env_runs (fun _ => true) (fun _ => 0) (fun _ => 0) privateRun (by decide)

/-- Task 1 makes a private environment for task 2, and gets it itself: a variable that task 2 sets
then is one of the global environment. -/
theorem env_wrong_task :
    ¬∀ (isTask : Nat → Bool) (envTableSize nEnvVarEntries : Nat → Nat) (ops : List Op),
      ∃ w, exec step (start isTask envTableSize nEnvVarEntries) ops = some w ∧ Right w := by
  intro h
  obtain ⟨w, hrun, hright⟩ := h (fun _ => true) (fun _ => 0) (fun _ => 0)
    [.envPrivateCreate 1 2 0 fun _ => true, .putenv 2 [65, 61, 98] fun _ => true]
  rw [← Option.some.inj hrun] at hright
  have hname : ∀ c ∈ ([65] : Line), separator c = false := fun c hc => by
    rw [List.mem_singleton.1 hc]
    rfl
  exact absurd (hright.get 3 [65] hname) (by decide)

end Vmx.Os.Env
