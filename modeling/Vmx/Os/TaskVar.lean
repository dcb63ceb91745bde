import Vmx.Os.TaskVarLib

/-!
# Task variables are private

`View` says what task variables are for: each task has values of its own for some addresses,
and all others read and write one shared value.  `viewStep` is what a step means there, and
`Shows` relates it to the memory and the lists.  The exchange of a task that leaves brings
memory to the shared values (`AtRest`), and the one of a task that comes brings in its own.

The relation is kept as long as no variable is added twice to a task, a variable that a task
adds to itself still has the value that `taskVarAdd` has read when it is put on the list, and
the running task is not deleted while it has variables (`Once`).
-/

namespace Vmx.TaskVar

open Lib

/-! ## What task variables mean -/

/-- The values: `own t p` is the value of the task `t` for the address `p`, when it has the
variable. -/
structure View where
  installed : Bool
  running : Nat
  live : Nat → Bool
  shared : Nat → Int
  own : Nat → Nat → Option Int
  adding : Nat → Option NewVar

namespace View

/-- What the task reads. -/
def reads (a : View) (t p : Nat) : Int := (a.own t p).getD (a.shared p)

def setOwn (a : View) (t p : Nat) (value : Option Int) : View :=
  { a with own := Function.update a.own t (Function.update (a.own t) p value) }

/-- The task that a task id names. -/
def task (a : View) (taskId : Nat) : Option Nat :=
  if taskId = 0 then some a.running
  else if a.live taskId then some taskId
  else none

end View

def viewStep (a : View) : Op → Option View
  | .libInit switchHookAdd deleteHookAdd =>
    some { a with installed := a.installed || switchHookAdd && deleteHookAdd }
  | .switch newTcbId => if a.live newTcbId then some { a with running := newTcbId } else none
  | .write pVar value =>
    if (a.own a.running pVar).isSome then some (a.setOwn a.running pVar (some value))
    else some { a with shared := Function.update a.shared pVar value }
  | .addRead taskId pVar malloc =>
    let new := (a.task taskId).bind fun t =>
      if a.installed && malloc then
        some { tcbId := t, var := { addr := pVar, value := a.reads a.running pVar } }
      else none
    some { a with adding := Function.update a.adding a.running new }
  | .addLink =>
    match a.adding a.running with
    | none => none
    | some new =>
      some { a.setOwn new.tcbId new.var.addr (some new.var.value) with
        adding := Function.update a.adding a.running none }
  | .set taskId pVar value ok =>
    match a.task taskId with
    | some t => if ok then some (a.setOwn t pVar (some value)) else some a
    | none => some a
  | .delete taskId pVar ok =>
    match a.task taskId with
    | some t => if ok then some (a.setOwn t pVar none) else some a
    | none => some a
  | .create tcbId =>
    some { a with
      live := Function.update a.live tcbId true
      own := Function.update a.own tcbId fun _ => none
      adding := Function.update a.adding tcbId none }
  | .destroy tcbId => some { a with live := Function.update a.live tcbId false }

/-- The addresses of a list of variables. -/
def addrs (vars : List Var) : List Nat := vars.map Var.addr

/-- When the insertion of `taskVarAdd` comes, its task still exists, does not have the
variable, and when the running task adds it to itself the variable has not changed since
`taskVarAdd` read it; and a task that is deleted while it runs has no variables. -/
def Once (s : State) : Op → Prop
  | .addLink =>
    ∀ new ∈ s.adding s.taskIdCurrent,
      s.verified new.tcbId = true ∧ new.var.addr ∉ addrs (s.pTaskVar new.tcbId) ∧
        (new.tcbId = s.taskIdCurrent → s.mem new.var.addr = new.var.value)
  | .destroy tcbId => tcbId = s.taskIdCurrent → s.pTaskVar tcbId = []
  | _ => True

instance (s : State) : ∀ op, Decidable (Once s op)
  | .addLink =>
    match h : s.adding s.taskIdCurrent with
    | none => .isTrue (by rw [Once, h]; exact fun _ hn => nomatch hn)
    | some new =>
      decidable_of_iff
        (s.verified new.tcbId = true ∧ new.var.addr ∉ addrs (s.pTaskVar new.tcbId) ∧
          (new.tcbId = s.taskIdCurrent → s.mem new.var.addr = new.var.value))
        (by rw [Once, h]; simp)
  | .destroy _ => inferInstanceAs (Decidable (_ → _))
  | .libInit _ _ | .switch _ | .write _ _ | .addRead _ _ _ | .set _ _ _ _ | .delete _ _ _
  | .create _ => inferInstanceAs (Decidable True)

/-! ## The exchange -/

section Swap

variable {vars : List Var} {mem : Nat → Int}

@[simp] theorem addrs_cons (v : Var) : addrs (v :: vars) = v.addr :: addrs vars := rfl

theorem addrs_swapVars : addrs (swapVars vars mem).1 = addrs vars := by
  induction vars generalizing mem with
  | nil => rfl
  | cons v vars ih => rw [swapVars, addrs_cons, addrs_cons, ih]

theorem mem_addrs {v : Var} (hv : v ∈ vars) : v.addr ∈ addrs vars := List.mem_map_of_mem hv

theorem nodup_addrs_cons {v : Var} :
    (addrs (v :: vars)).Nodup ↔ v.addr ∉ addrs vars ∧ (addrs vars).Nodup := List.nodup_cons

theorem swapVars_frame {p : Nat} (hp : p ∉ addrs vars) : (swapVars vars mem).2 p = mem p := by
  induction vars generalizing mem with
  | nil => rfl
  | cons v vars ih =>
    rw [addrs_cons, List.mem_cons, not_or] at hp
    show (swapVars vars _).2 p = mem p
    rw [ih hp.2, Function.update_of_ne hp.1]

/-- After the exchange each variable has what was in its cell. -/
theorem swapVars_value (hnodup : (addrs vars).Nodup) {v : Var} (hv : v ∈ (swapVars vars mem).1) :
    v.value = mem v.addr := by
  induction vars generalizing mem with
  | nil => exact nomatch hv
  | cons w vars ih =>
    obtain ⟨hw, hnodup⟩ := nodup_addrs_cons.1 hnodup
    rcases List.mem_cons.1 hv with rfl | hv
    · rfl
    · rw [ih hnodup hv, Function.update_of_ne]
      intro heq
      apply hw
      rw [← heq, ← addrs_swapVars]
      exact mem_addrs hv

/-- And each cell has the value of its variable. -/
theorem swapVars_mem (hnodup : (addrs vars).Nodup) {v : Var} (hv : v ∈ vars) :
    (swapVars vars mem).2 v.addr = v.value := by
  induction vars generalizing mem with
  | nil => exact nomatch hv
  | cons w vars ih =>
    obtain ⟨hw, hnodup⟩ := nodup_addrs_cons.1 hnodup
    rcases List.mem_cons.1 hv with rfl | hv
    · show (swapVars vars _).2 v.addr = v.value
      rw [swapVars_frame hw, Function.update_self]
    · exact ih hnodup hv

end Swap

/-! ## The values of a state -/

/-- `s` has the values of `a`. -/
structure Shows (s : State) (a : View) : Prop where
  installed : s.taskVarLibInstalled = a.installed
  running : s.taskIdCurrent = a.running
  live : s.verified = a.live
  adding : s.adding = a.adding
  nodup : ∀ t, s.verified t = true → (addrs (s.pTaskVar t)).Nodup
  has : ∀ t p, s.verified t = true → ((a.own t p).isSome ↔ p ∈ addrs (s.pTaskVar t))
  /-- The running task has its own values in memory. -/
  mem_reads : s.verified s.taskIdCurrent = true → ∀ p, s.mem p = a.reads s.taskIdCurrent p
  mem_shared : s.verified s.taskIdCurrent = false → ∀ p, s.mem p = a.shared p
  /-- The shared values wait in the list of the running task. -/
  waiting : s.verified s.taskIdCurrent = true →
    ∀ v ∈ s.pTaskVar s.taskIdCurrent, v.value = a.shared v.addr
  /-- The other tasks have their own values in their lists. -/
  stored : ∀ t, s.verified t = true → t ≠ s.taskIdCurrent →
    ∀ v ∈ s.pTaskVar t, a.own t v.addr = some v.value
  none_before : s.taskVarLibInstalled = false → ∀ t, s.verified t = true → s.pTaskVar t = []
  none_added : s.taskVarLibInstalled = false → ∀ t, s.adding t = none

/-- No task has its values in memory. -/
structure AtRest (s : State) (a : View) : Prop where
  live : s.verified = a.live
  nodup : ∀ t, s.verified t = true → (addrs (s.pTaskVar t)).Nodup
  has : ∀ t p, s.verified t = true → ((a.own t p).isSome ↔ p ∈ addrs (s.pTaskVar t))
  mem_shared : ∀ p, s.mem p = a.shared p
  stored : ∀ t, s.verified t = true → ∀ v ∈ s.pTaskVar t, a.own t v.addr = some v.value

section Switch

variable {s : State} {a : View} {t p : Nat}

theorem View.reads_of_none (h : a.own t p = none) : a.reads t p = a.shared p := by
  rw [View.reads, h, Option.getD_none]

theorem View.reads_of_some {value : Int} (h : a.own t p = some value) : a.reads t p = value := by
  rw [View.reads, h, Option.getD_some]

theorem addrs_swapTask (n : Nat) : addrs ((swapTask s t).pTaskVar n) = addrs (s.pTaskVar n) := by
  simp only [swapTask, Function.update_apply]
  split
  · rename_i heq
    rw [heq, addrs_swapVars]
  · rfl

/-- The exchange for the running task brings memory to the shared values. -/
theorem Shows.atRest (h : Shows s a) :
    AtRest (if s.verified s.taskIdCurrent then swapTask s s.taskIdCurrent else s) a := by
  cases hlive : s.verified s.taskIdCurrent with
  | false =>
    rw [if_neg Bool.false_ne_true]
    refine ⟨h.live, h.nodup, h.has, h.mem_shared hlive, fun t ht => h.stored t ht ?_⟩
    rintro rfl
    rw [hlive] at ht
    exact Bool.false_ne_true ht
  | true =>
    rw [if_pos rfl]
    have hnodup := h.nodup _ hlive
    constructor
    case live => exact h.live
    case nodup =>
      intro t ht
      rw [addrs_swapTask]
      exact h.nodup t ht
    case has =>
      intro t p ht
      rw [addrs_swapTask]
      exact h.has t p ht
    case mem_shared =>
      intro p
      show (swapVars (s.pTaskVar s.taskIdCurrent) s.mem).2 p = a.shared p
      by_cases hp : p ∈ addrs (s.pTaskVar s.taskIdCurrent)
      · obtain ⟨v, hv, rfl⟩ := List.mem_map.1 hp
        rw [swapVars_mem hnodup hv, h.waiting hlive v hv]
      · have hnone : a.own s.taskIdCurrent p = none := by
          rw [← Option.not_isSome_iff_eq_none, h.has _ _ hlive]
          exact hp
        rw [swapVars_frame hp, h.mem_reads hlive, View.reads_of_none hnone]
    case stored =>
      intro t ht v hv
      by_cases heq : t = s.taskIdCurrent
      · subst heq
        have hv' : v ∈ (swapVars (s.pTaskVar s.taskIdCurrent) s.mem).1 := by
          simpa [swapTask] using hv
        have hsome : (a.own s.taskIdCurrent v.addr).isSome := by
          rw [h.has _ _ hlive, ← addrs_swapVars]
          exact mem_addrs hv'
        obtain ⟨value, hvalue⟩ := Option.isSome_iff_exists.1 hsome
        rw [swapVars_value hnodup hv', h.mem_reads hlive, View.reads_of_some hvalue, hvalue]
      · have hv' : v ∈ s.pTaskVar t := by
          simpa [swapTask, Function.update_of_ne heq] using hv
        exact h.stored t ht heq v hv'

/-- The exchange for a task brings its own values in. -/
theorem AtRest.swapIn (h : AtRest s a) (ht : s.verified t = true) :
    (∀ p, (swapTask s t).mem p = a.reads t p) ∧
      (∀ v ∈ (swapTask s t).pTaskVar t, v.value = a.shared v.addr) ∧
      ∀ n, n ≠ t → (swapTask s t).pTaskVar n = s.pTaskVar n := by
  have hnodup := h.nodup t ht
  refine ⟨fun p => ?_, fun v hv => ?_, fun n hn => Function.update_of_ne hn _ _⟩
  · show (swapVars (s.pTaskVar t) s.mem).2 p = a.reads t p
    by_cases hp : p ∈ addrs (s.pTaskVar t)
    · obtain ⟨v, hv, rfl⟩ := List.mem_map.1 hp
      rw [swapVars_mem hnodup hv, View.reads_of_some (h.stored t ht v hv)]
    · have hnone : a.own t p = none := by
        rw [← Option.not_isSome_iff_eq_none, h.has _ _ ht]
        exact hp
      rw [swapVars_frame hp, h.mem_shared, View.reads_of_none hnone]
  · have hv' : v ∈ (swapVars (s.pTaskVar t) s.mem).1 := by
      simpa [swapTask] using hv
    rw [swapVars_value hnodup hv', h.mem_shared]

theorem Shows.switch (h : Shows s a) (ht : s.verified t = true) :
    Shows { taskVarSwitchHook s s.taskIdCurrent t with taskIdCurrent := t }
      { a with running := t } := by
  have hrest := h.atRest
  rw [taskVarSwitchHook]
  generalize hs1 : (if s.verified s.taskIdCurrent then swapTask s s.taskIdCurrent else s) = s1
    at hrest ⊢
  have hsame : s1.verified = s.verified ∧ s1.adding = s.adding ∧
      s1.taskVarLibInstalled = s.taskVarLibInstalled ∧
      ∀ n, addrs (s1.pTaskVar n) = addrs (s.pTaskVar n) := by
    rw [← hs1]
    split
    · exact ⟨rfl, rfl, rfl, fun n => addrs_swapTask n⟩
    · exact ⟨rfl, rfl, rfl, fun _ => rfl⟩
  obtain ⟨hverified, hadding, hinstalled, haddrs⟩ := hsame
  have ht1 : s1.verified t = true := by rw [hverified, ht]
  obtain ⟨hmem, hwait, hother⟩ := hrest.swapIn ht1
  constructor
  case installed => exact hinstalled.trans h.installed
  case running => rfl
  case live => exact hverified.trans h.live
  case adding => exact hadding.trans h.adding
  case nodup =>
    intro n hn
    show (addrs ((swapTask s1 t).pTaskVar n)).Nodup
    rw [addrs_swapTask]
    exact hrest.nodup n hn
  case has =>
    intro n p hn
    show _ ↔ p ∈ addrs ((swapTask s1 t).pTaskVar n)
    rw [addrs_swapTask]
    exact hrest.has n p hn
  case mem_reads => exact fun _ => hmem
  case mem_shared =>
    intro hdead
    have hlive : s1.verified t = false := hdead
    rw [ht1] at hlive
    exact nomatch hlive
  case waiting => exact fun _ => hwait
  case stored =>
    intro n hn hne v hv
    have hv' : v ∈ (swapTask s1 t).pTaskVar n := hv
    rw [hother n hne] at hv'
    exact hrest.stored n hn v hv'
  case none_before =>
    intro hoff n hn
    have hnil : addrs ((swapTask s1 t).pTaskVar n) = [] := by
      rw [addrs_swapTask, haddrs, h.none_before (hinstalled.symm.trans hoff) n (hverified ▸ hn)]
      rfl
    exact List.map_eq_nil_iff.1 hnil
  case none_added =>
    intro hoff n
    show s1.adding n = none
    rw [hadding]
    exact h.none_added (hinstalled.symm.trans hoff) n

/-- A task without the variable reads the shared value. -/
theorem Shows.own_none (h : Shows s a) (ht : s.verified t = true)
    (hp : p ∉ addrs (s.pTaskVar t)) : a.own t p = none := by
  rw [← Option.not_isSome_iff_eq_none, h.has _ _ ht]
  exact hp

/-- Before the library is installed, a switch has nothing to exchange. -/
theorem Shows.switch_before (h : Shows s a) (hoff : s.taskVarLibInstalled = false)
    (ht : s.verified t = true) : Shows { s with taskIdCurrent := t } { a with running := t } := by
  have hnil := h.none_before hoff
  have hown {n p : Nat} (hn : s.verified n = true) : a.own n p = none :=
    h.own_none hn (by rw [hnil n hn]; exact List.not_mem_nil)
  have hmem (p : Nat) : s.mem p = a.shared p := by
    cases hlive : s.verified s.taskIdCurrent with
    | false => exact h.mem_shared hlive p
    | true => rw [h.mem_reads hlive, View.reads_of_none (hown hlive)]
  constructor
  case running => rfl
  case mem_reads =>
    intro _ p
    show s.mem p = a.reads t p
    rw [hmem, View.reads_of_none (hown ht)]
  case mem_shared => exact fun _ => hmem
  case waiting =>
    intro _ v hv
    have hv' : v ∈ s.pTaskVar t := hv
    rw [hnil t ht] at hv'
    exact nomatch hv'
  case stored =>
    intro n hn _ v hv
    have hv' : v ∈ s.pTaskVar n := hv
    rw [hnil n hn] at hv'
    exact nomatch hv'
  all_goals first
    | exact h.installed | exact h.live | exact h.adding | exact h.nodup | exact h.has
    | exact h.none_before | exact h.none_added

end Switch

/-! ## Reading and writing -/

section Write

variable {s : State} {a : View} {t p : Nat} {value : Int}

theorem View.setOwn_own (v : Option Int) (t' p' : Nat) :
    (a.setOwn t p v).own t' p' = if t' = t ∧ p' = p then v else a.own t' p' := by
  simp only [View.setOwn, Function.update_apply]
  by_cases ht : t' = t
  · subst ht
    simp [Function.update_apply]
  · simp [ht]

theorem View.setOwn_reads {v : Int} (t' p' : Nat) :
    (a.setOwn t p (some v)).reads t' p' = if t' = t ∧ p' = p then v else a.reads t' p' := by
  rw [View.reads, View.setOwn_own]
  split <;> rfl

/-- A task that has the variable writes its own value. -/
theorem Shows.write_own (h : Shows s a) (hlive : s.verified s.taskIdCurrent = true)
    (hown : (a.own s.taskIdCurrent p).isSome) :
    Shows { s with mem := Function.update s.mem p value }
      (a.setOwn s.taskIdCurrent p (some value)) := by
  constructor
  case has =>
    intro n q hn
    rw [View.setOwn_own]
    split
    · rename_i heq
      rw [heq.1, heq.2]
      exact ⟨fun _ => (h.has _ _ hlive).1 hown, fun _ => rfl⟩
    · exact h.has n q hn
  case mem_reads =>
    intro _ q
    show Function.update s.mem p value q = _
    rw [View.setOwn_reads, Function.update_apply]
    by_cases hq : q = p
    · rw [if_pos hq, if_pos ⟨rfl, hq⟩]
    · rw [if_neg hq, if_neg (fun hand => hq hand.2)]
      exact h.mem_reads hlive q
  case mem_shared =>
    intro hdead
    exact nomatch hlive.symm.trans hdead
  case stored =>
    intro n hn hne v hv
    rw [View.setOwn_own, if_neg (fun hand => hne hand.1)]
    exact h.stored n hn hne v hv
  all_goals first
    | exact h.installed | exact h.running | exact h.live | exact h.adding | exact h.nodup
    | exact h.waiting | exact h.none_before | exact h.none_added

/-- A task that does not have it writes the shared value. -/
theorem Shows.write_shared (h : Shows s a) (hlive : s.verified s.taskIdCurrent = true)
    (hown : a.own s.taskIdCurrent p = none) :
    Shows { s with mem := Function.update s.mem p value }
      { a with shared := Function.update a.shared p value } := by
  constructor
  case mem_reads =>
    intro _ q
    show Function.update s.mem p value q =
      (a.own s.taskIdCurrent q).getD (Function.update a.shared p value q)
    by_cases hq : q = p
    · subst hq
      rw [hown, Function.update_self, Function.update_self]
      rfl
    · rw [Function.update_of_ne hq, Function.update_of_ne hq]
      exact h.mem_reads hlive q
  case mem_shared =>
    intro hdead
    exact nomatch hlive.symm.trans hdead
  case waiting =>
    intro _ v hv
    show v.value = Function.update a.shared p value v.addr
    rw [Function.update_of_ne]
    · exact h.waiting hlive v hv
    · intro heq
      have hsome := (h.has _ _ hlive).2 (mem_addrs hv)
      rw [heq, hown] at hsome
      exact nomatch hsome
  all_goals first
    | exact h.installed | exact h.running | exact h.live | exact h.adding | exact h.nodup
    | exact h.has | exact h.stored | exact h.none_before | exact h.none_added

end Write

/-! ## The calls on a list -/

section Lists

variable {s : State} {a : View} {t p taskId : Nat} {value : Int} {vars vars' : List Var}

theorem storeFirst_eq_none : storeFirst p value vars = none ↔ p ∉ addrs vars := by
  induction vars with
  | nil => exact ⟨fun _ => List.not_mem_nil, fun _ => rfl⟩
  | cons v vars ih =>
    rw [storeFirst, addrs_cons, List.mem_cons, not_or]
    split
    · rename_i heq
      simp [heq]
    · rename_i hne
      rw [Option.map_eq_none_iff, ih]
      exact ⟨fun h => ⟨fun heq => hne heq.symm, h⟩, fun h => h.2⟩

theorem storeFirst_addrs (h : storeFirst p value vars = some vars') : addrs vars' = addrs vars := by
  induction vars generalizing vars' with
  | nil => exact nomatch h
  | cons v vars ih =>
    rw [storeFirst] at h
    split at h
    · cases h
      rfl
    · obtain ⟨vars1, h1, rfl⟩ := Option.map_eq_some_iff.1 h
      rw [addrs_cons, addrs_cons, ih h1]

theorem storeFirst_mem (hnodup : (addrs vars).Nodup) (h : storeFirst p value vars = some vars')
    {v : Var} (hv : v ∈ vars') :
    v.addr = p ∧ v.value = value ∨ v.addr ≠ p ∧ v ∈ vars := by
  induction vars generalizing vars' with
  | nil => exact nomatch h
  | cons w vars ih =>
    obtain ⟨hw, hnodup⟩ := nodup_addrs_cons.1 hnodup
    rw [storeFirst] at h
    split at h
    · rename_i heq
      cases h
      rcases List.mem_cons.1 hv with rfl | hv
      · exact Or.inl ⟨heq, rfl⟩
      · refine Or.inr ⟨fun hp => hw ?_, List.mem_cons_of_mem _ hv⟩
        rw [heq, ← hp]
        exact mem_addrs hv
    · rename_i hne
      obtain ⟨vars1, h1, rfl⟩ := Option.map_eq_some_iff.1 h
      rcases List.mem_cons.1 hv with rfl | hv
      · exact Or.inr ⟨hne, List.mem_cons_self⟩
      · exact (ih hnodup h1 hv).imp_right fun hin => ⟨hin.1, List.mem_cons_of_mem _ hin.2⟩

theorem Shows.taskTcb_eq (h : Shows s a) : taskTcb s taskId = a.task taskId := by
  rw [taskTcb, View.task, h.running, h.live]

theorem taskTcb_verified (hlive : s.verified s.taskIdCurrent = true)
    (ht : taskTcb s taskId = some t) : s.verified t = true := by
  rw [taskTcb] at ht
  split at ht
  · cases ht
    exact hlive
  · split at ht
    · rename_i hv
      cases ht
      exact hv
    · exact nomatch ht

/-- `taskVarGet` of a task that exists gives its own value. -/
theorem Shows.taskVarGet_eq (h : Shows s a) (htcb : taskTcb s taskId = some t)
    (ht : s.verified t = true) : taskVarGet s taskId p = a.own t p := by
  rw [taskVarGet, htcb]
  dsimp only
  cases hfind : (s.pTaskVar t).find? (·.addr == p) with
  | none =>
    refine (h.own_none ht fun hp => ?_).symm
    obtain ⟨v, hv, hvp⟩ := List.mem_map.1 hp
    exact List.find?_eq_none.1 hfind v hv (beq_iff_eq.2 hvp)
  | some v =>
    have hv := List.mem_of_find?_eq_some hfind
    obtain rfl : v.addr = p := by simpa using List.find?_some hfind
    dsimp only
    by_cases heq : t = s.taskIdCurrent
    · subst heq
      obtain ⟨x, hx⟩ := Option.isSome_iff_exists.1 ((h.has _ _ ht).2 (mem_addrs hv))
      rw [if_pos rfl, h.mem_reads ht, View.reads_of_some hx, hx]
    · rw [if_neg heq, h.stored t ht heq v hv]

/-- `taskVarSet` finds the variables that the task has. -/
theorem Shows.taskVarSet_ok (h : Shows s a) (htcb : taskTcb s taskId = some t)
    (ht : s.verified t = true) : (taskVarSet s taskId p value).2 = (a.own t p).isSome := by
  rw [taskVarSet, htcb, Bool.eq_iff_iff, h.has t p ht]
  dsimp only
  cases hstore : storeFirst p value (s.pTaskVar t) with
  | none => simp [storeFirst_eq_none.1 hstore]
  | some vars =>
    have hp : p ∈ addrs (s.pTaskVar t) := by
      by_contra hp
      exact nomatch hstore.symm.trans (storeFirst_eq_none.2 hp)
    dsimp only
    split <;> simp [hp]

theorem Shows.set (h : Shows s a) (hlive : s.verified s.taskIdCurrent = true)
    (htcb : taskTcb s taskId = some t) :
    Shows (taskVarSet s taskId p value).1
      (if (taskVarSet s taskId p value).2 then a.setOwn t p (some value) else a) := by
  have ht := taskTcb_verified hlive htcb
  have hok : (taskVarSet s taskId p value).2 = _ := h.taskVarSet_ok htcb ht
  rw [hok]
  rw [taskVarSet, htcb]
  dsimp only
  cases hstore : storeFirst p value (s.pTaskVar t) with
  | none =>
    rw [h.own_none ht (storeFirst_eq_none.1 hstore)]
    exact h
  | some vars =>
    have hp : p ∈ addrs (s.pTaskVar t) := by
      by_contra hp
      exact nomatch hstore.symm.trans (storeFirst_eq_none.2 hp)
    have hown : (a.own t p).isSome := (h.has t p ht).2 hp
    have haddrs := storeFirst_addrs hstore
    rw [if_pos hown]
    dsimp only
    by_cases heq : t = s.taskIdCurrent
    · subst heq
      rw [if_pos rfl]
      exact h.write_own hlive hown
    · rw [if_neg heq]
      have hvars (n : Nat) :
          addrs (Function.update s.pTaskVar t vars n) = addrs (s.pTaskVar n) := by
        rw [Function.update_apply]
        split
        · rename_i hn
          rw [hn, haddrs]
        · rfl
      have hcurrent : Function.update s.pTaskVar t vars s.taskIdCurrent =
          s.pTaskVar s.taskIdCurrent := Function.update_of_ne (Ne.symm heq) _ _
      constructor
      case nodup =>
        intro n hn
        show (addrs (Function.update s.pTaskVar t vars n)).Nodup
        rw [hvars]
        exact h.nodup n hn
      case has =>
        intro n q hn
        show _ ↔ q ∈ addrs (Function.update s.pTaskVar t vars n)
        rw [hvars, View.setOwn_own]
        split
        · rename_i hand
          rw [hand.1, hand.2]
          exact ⟨fun _ => hp, fun _ => rfl⟩
        · exact h.has n q hn
      case mem_reads =>
        intro _ q
        rw [View.setOwn_reads, if_neg (fun hand => heq hand.1.symm)]
        exact h.mem_reads hlive q
      case waiting =>
        intro _ v hv
        have hv' : v ∈ Function.update s.pTaskVar t vars s.taskIdCurrent := hv
        rw [hcurrent] at hv'
        exact h.waiting hlive v hv'
      case stored =>
        intro n hn hne v hv
        have hv' : v ∈ Function.update s.pTaskVar t vars n := hv
        rw [View.setOwn_own]
        by_cases hnt : n = t
        · subst hnt
          rw [Function.update_self] at hv'
          rcases storeFirst_mem (h.nodup n hn) hstore hv' with ⟨hvp, hvalue⟩ | ⟨hvp, hin⟩
          · rw [if_pos ⟨rfl, hvp⟩, hvalue]
          · rw [if_neg (fun hand => hvp hand.2)]
            exact h.stored n hn hne v hin
        · rw [Function.update_of_ne hnt] at hv'
          rw [if_neg (fun hand => hnt hand.1)]
          exact h.stored n hn hne v hv'
      case none_before =>
        intro hoff
        have hnil := h.none_before hoff t ht
        rw [hnil] at hp
        exact nomatch hp
      all_goals first
        | exact h.installed | exact h.running | exact h.live | exact h.adding
        | exact h.mem_shared | exact h.none_added

/-- `taskVarDelete` returns `ERROR`: before the library is installed no task has a variable,
and afterwards the call gives up at once. -/
theorem Shows.taskVarDelete_eq (h : Shows s a) (hlive : s.verified s.taskIdCurrent = true) :
    taskVarDelete s taskId p = (s, false) := by
  rw [taskVarDelete]
  cases hinst : s.taskVarLibInstalled with
  | true => rfl
  | false =>
    rw [if_neg Bool.false_ne_true]
    cases htcb : taskTcb s taskId with
    | none => rfl
    | some t =>
      dsimp only
      rw [h.none_before hinst t (taskTcb_verified hlive htcb)]
      rfl

end Lists

/-! ## Variables and tasks that come and go -/

section Change

variable {s : State} {a : View} {t : Nat}

/-- `taskVarAdd` has read the variable. -/
theorem Shows.addRead (h : Shows s a) (hlive : s.verified s.taskIdCurrent = true)
    (taskId pVar : Nat) (malloc : Bool) :
    Shows { s with adding :=
        Function.update s.adding s.taskIdCurrent (taskVarAddRead s taskId pVar malloc) }
      { a with adding := Function.update a.adding a.running ((a.task taskId).bind fun t =>
          if a.installed && malloc then
            some { tcbId := t, var := { addr := pVar, value := a.reads a.running pVar } }
          else none) } := by
  constructor
  case adding =>
    show Function.update s.adding s.taskIdCurrent _ = Function.update a.adding a.running _
    rw [h.adding, ← h.running]
    congr 1
    rw [taskVarAddRead, h.taskTcb_eq, h.installed, h.mem_reads hlive]
    cases a.installed <;> cases a.task taskId <;> cases malloc <;> rfl
  case none_added =>
    intro hoff n
    show Function.update s.adding s.taskIdCurrent (taskVarAddRead s taskId pVar malloc) n = none
    have hnone : taskVarAddRead s taskId pVar malloc = none := by
      rw [taskVarAddRead, if_neg]
      intro hon
      exact nomatch hon.symm.trans hoff
    rw [hnone, Function.update_apply, h.none_added hoff]
    exact ite_self none
  all_goals first
    | exact h.installed | exact h.running | exact h.live | exact h.nodup | exact h.has
    | exact h.mem_reads | exact h.mem_shared | exact h.waiting | exact h.stored
    | exact h.none_before

/-- A variable that the task does not have comes on its list. -/
theorem Shows.addLink {new : NewVar} (h : Shows s a) (hlive : s.verified s.taskIdCurrent = true)
    (hnew : s.adding s.taskIdCurrent = some new) (honce : Once s .addLink) :
    Shows { taskVarAddLink s new with adding := Function.update s.adding s.taskIdCurrent none }
      { a.setOwn new.tcbId new.var.addr (some new.var.value) with
        adding := Function.update a.adding a.running none } := by
  obtain ⟨hverified, hout, hread⟩ := honce new hnew
  have hown : a.own new.tcbId new.var.addr = none := h.own_none hverified hout
  have hlist (n : Nat) : (taskVarAddLink s new).pTaskVar n =
      if n = new.tcbId then new.var :: s.pTaskVar new.tcbId else s.pTaskVar n :=
    Function.update_apply _ _ _ _
  have hset (n q : Nat) : (a.setOwn new.tcbId new.var.addr (some new.var.value)).own n q =
      if n = new.tcbId ∧ q = new.var.addr then some new.var.value else a.own n q :=
    View.setOwn_own _ n q
  constructor
  case adding =>
    show Function.update s.adding s.taskIdCurrent none = Function.update a.adding a.running none
    rw [h.adding, h.running]
  case nodup =>
    intro n hn
    show (addrs ((taskVarAddLink s new).pTaskVar n)).Nodup
    rw [hlist]
    split
    · exact nodup_addrs_cons.2 ⟨hout, h.nodup _ hverified⟩
    · exact h.nodup n hn
  case has =>
    intro n q hn
    show ((a.setOwn new.tcbId new.var.addr (some new.var.value)).own n q).isSome ↔
      q ∈ addrs ((taskVarAddLink s new).pTaskVar n)
    rw [hset, hlist]
    by_cases hnt : n = new.tcbId
    · subst hnt
      rw [if_pos rfl, addrs_cons, List.mem_cons]
      by_cases hq : q = new.var.addr
      · simp [hq]
      · simp only [hq, and_false, if_false, false_or]
        exact h.has _ q hverified
    · simp only [hnt, false_and, if_false]
      exact h.has n q hn
  case mem_reads =>
    intro _ q
    show s.mem q = (a.setOwn new.tcbId new.var.addr (some new.var.value)).reads s.taskIdCurrent q
    rw [View.setOwn_reads]
    split
    · rename_i hand
      rw [hand.2]
      exact hread hand.1.symm
    · exact h.mem_reads hlive q
  case waiting =>
    intro _ v hv
    have hv' : v ∈ (taskVarAddLink s new).pTaskVar s.taskIdCurrent := hv
    rw [hlist] at hv'
    show v.value = a.shared v.addr
    by_cases hcur : s.taskIdCurrent = new.tcbId
    · rw [if_pos hcur] at hv'
      rcases List.mem_cons.1 hv' with rfl | hv'
      · rw [← hread hcur.symm, h.mem_reads hlive]
        rw [← hcur] at hown
        exact View.reads_of_none hown
      · rw [← hcur] at hv'
        exact h.waiting hlive v hv'
    · rw [if_neg hcur] at hv'
      exact h.waiting hlive v hv'
  case stored =>
    intro n hn hne v hv
    have hv' : v ∈ (taskVarAddLink s new).pTaskVar n := hv
    rw [hlist] at hv'
    show (a.setOwn new.tcbId new.var.addr (some new.var.value)).own n v.addr = some v.value
    rw [hset]
    by_cases hnt : n = new.tcbId
    · rw [if_pos hnt] at hv'
      rcases List.mem_cons.1 hv' with rfl | hv'
      · rw [if_pos ⟨hnt, rfl⟩]
      · have hvp : v.addr ≠ new.var.addr := fun heq => hout (heq ▸ mem_addrs hv')
        rw [if_neg (fun hand => hvp hand.2)]
        rw [← hnt] at hv'
        exact h.stored n hn hne v hv'
    · rw [if_neg hnt] at hv'
      rw [if_neg (fun hand => hnt hand.1)]
      exact h.stored n hn hne v hv'
  case none_before =>
    intro hoff
    exact nomatch hnew.symm.trans (h.none_added hoff _)
  case none_added =>
    intro hoff
    exact nomatch hnew.symm.trans (h.none_added hoff _)
  all_goals first
    | exact h.installed | exact h.running | exact h.live | exact h.mem_shared

theorem Shows.create (h : Shows s a) (hne : t ≠ s.taskIdCurrent) :
    Shows (taskCreate s t)
      { a with
        live := Function.update a.live t true
        own := Function.update a.own t fun _ => none
        adding := Function.update a.adding t none } := by
  have hcur : Function.update s.verified t true s.taskIdCurrent = s.verified s.taskIdCurrent :=
    Function.update_of_ne hne.symm _ _
  have hold {n : Nat} (hn : Function.update s.verified t true n = true) (hnt : n ≠ t) :
      s.verified n = true := by rwa [Function.update_of_ne hnt] at hn
  have hlist (n : Nat) : (taskCreate s t).pTaskVar n = if n = t then [] else s.pTaskVar n :=
    Function.update_apply _ _ _ _
  have hown (n : Nat) : Function.update a.own t (fun _ => none) n =
      if n = t then fun _ => none else a.own n := Function.update_apply _ _ _ _
  constructor
  case live =>
    show Function.update s.verified t true = Function.update a.live t true
    rw [h.live]
  case adding =>
    show Function.update s.adding t none = Function.update a.adding t none
    rw [h.adding]
  case nodup =>
    intro n hn
    rw [hlist]
    split
    · exact List.nodup_nil
    · rename_i hnt
      exact h.nodup n (hold hn hnt)
  case has =>
    intro n q hn
    show ((Function.update a.own t fun _ => none) n q).isSome ↔ _
    rw [hlist, hown]
    by_cases hnt : n = t
    · simp [hnt, addrs]
    · rw [if_neg hnt, if_neg hnt]
      exact h.has n q (hold hn hnt)
  case mem_reads =>
    intro hlive q
    show s.mem q = ((Function.update a.own t fun _ => none) s.taskIdCurrent q).getD (a.shared q)
    rw [hown, if_neg hne.symm]
    exact h.mem_reads (hcur.symm.trans hlive) q
  case mem_shared => exact fun hlive => h.mem_shared (hcur.symm.trans hlive)
  case waiting =>
    intro hlive v hv
    have hv' : v ∈ (taskCreate s t).pTaskVar s.taskIdCurrent := hv
    rw [hlist, if_neg hne.symm] at hv'
    exact h.waiting (hcur.symm.trans hlive) v hv'
  case stored =>
    intro n hn hnc v hv
    rw [hlist] at hv
    show (Function.update a.own t fun _ => none) n v.addr = _
    rw [hown]
    by_cases hnt : n = t
    · rw [if_pos hnt] at hv
      exact nomatch hv
    · rw [if_neg hnt] at hv
      rw [if_neg hnt]
      exact h.stored n (hold hn hnt) hnc v hv
  case none_before =>
    intro hoff n hn
    rw [hlist]
    split
    · rfl
    · rename_i hnt
      exact h.none_before hoff n (hold hn hnt)
  case none_added =>
    intro hoff n
    show Function.update s.adding t none n = none
    rw [Function.update_apply, h.none_added hoff]
    exact ite_self none
  all_goals first
    | exact h.installed | exact h.running

theorem Shows.destroy (h : Shows s a) (honce : Once s (.destroy t)) :
    Shows (taskDestroy s t) { a with live := Function.update a.live t false } := by
  have hold {n : Nat} (hn : Function.update s.verified t false n = true) :
      s.verified n = true ∧ n ≠ t := by
    by_cases hnt : n = t
    · rw [hnt, Function.update_self] at hn
      exact nomatch hn
    · rw [Function.update_of_ne hnt] at hn
      exact ⟨hn, hnt⟩
  constructor
  case live =>
    show Function.update s.verified t false = Function.update a.live t false
    rw [h.live]
  case nodup => exact fun n hn => h.nodup n (hold hn).1
  case has => exact fun n q hn => h.has n q (hold hn).1
  case mem_reads => exact fun hlive => h.mem_reads (hold hlive).1
  case mem_shared =>
    intro _ p
    show s.mem p = a.shared p
    cases hlive : s.verified s.taskIdCurrent with
    | false => exact h.mem_shared hlive p
    | true =>
      by_cases heq : t = s.taskIdCurrent
      · -- the running task has no variables
        have hnil : s.pTaskVar s.taskIdCurrent = [] := heq ▸ honce heq
        rw [h.mem_reads hlive, View.reads_of_none (h.own_none hlive ?_)]
        rw [hnil]
        exact List.not_mem_nil
      · rename_i hdead
        have hdead' : Function.update s.verified t false s.taskIdCurrent = false := hdead
        rw [Function.update_of_ne (Ne.symm heq), hlive] at hdead'
        exact nomatch hdead'
  case waiting => exact fun hlive => h.waiting (hold hlive).1
  case stored => exact fun n hn => h.stored n (hold hn).1
  case none_before => exact fun hoff n hn => h.none_before hoff n (hold hn).1
  all_goals first
    | exact h.installed | exact h.running | exact h.adding | exact h.none_added

theorem taskVarLibInit_eq (s : State) (switchHookAdd deleteHookAdd : Bool) :
    (taskVarLibInit s switchHookAdd deleteHookAdd).1 =
      { s with taskVarLibInstalled :=
          s.taskVarLibInstalled || switchHookAdd && deleteHookAdd } := by
  cases s with
  | mk installed =>
    cases installed <;> cases switchHookAdd <;> cases deleteHookAdd <;> rfl

theorem Shows.libInit (h : Shows s a) (switchHookAdd deleteHookAdd : Bool) :
    Shows (taskVarLibInit s switchHookAdd deleteHookAdd).1
      { a with installed := a.installed || switchHookAdd && deleteHookAdd } := by
  have hoff (hnew : (s.taskVarLibInstalled || switchHookAdd && deleteHookAdd) = false) :
      s.taskVarLibInstalled = false := (Bool.or_eq_false_iff.1 hnew).1
  rw [taskVarLibInit_eq]
  constructor
  case installed =>
    show (s.taskVarLibInstalled || _) = (a.installed || _)
    rw [h.installed]
  case none_before => exact fun hnew => h.none_before (hoff hnew)
  case none_added => exact fun hnew => h.none_added (hoff hnew)
  all_goals first
    | exact h.running | exact h.live | exact h.adding | exact h.nodup | exact h.has
    | exact h.mem_reads | exact h.mem_shared | exact h.waiting | exact h.stored

end Change

/-! ## Runs -/

/-- Each step does to the values what it means. -/
theorem shows_step {s s' : State} {a : View} {op : Op} (h : Shows s a) (honce : Once s op)
    (hs : step s op = some s') : ∃ a', viewStep a op = some a' ∧ Shows s' a' := by
  cases op with
  | libInit switchHookAdd deleteHookAdd =>
    rw [step, Option.ite_none_right_eq_some] at hs
    obtain rfl := Option.some.inj hs.2
    exact ⟨_, rfl, h.libInit switchHookAdd deleteHookAdd⟩
  | switch newTcbId =>
    obtain ⟨ht, rfl⟩ := guard_some.1 hs
    refine ⟨{ a with running := newTcbId }, if_pos (h.live ▸ ht), ?_⟩
    cases hinst : s.taskVarLibInstalled with
    | true => exact h.switch ht
    | false => exact h.switch_before hinst ht
  | write pVar value =>
    obtain ⟨hruns, rfl⟩ := guard_some.1 hs
    cases hown : a.own s.taskIdCurrent pVar with
    | none =>
      have hnone : ¬ (a.own a.running pVar).isSome = true := by
        rw [← h.running, hown]
        exact Bool.false_ne_true
      exact ⟨_, if_neg hnone, h.write_shared hruns.1 hown⟩
    | some x =>
      have hsome : (a.own s.taskIdCurrent pVar).isSome = true := by rw [hown]; rfl
      refine ⟨_, if_pos (h.running ▸ hsome), ?_⟩
      rw [← h.running]
      exact h.write_own hruns.1 hsome
  | addRead taskId pVar malloc =>
    obtain ⟨hruns, rfl⟩ := guard_some.1 hs
    exact ⟨_, rfl, h.addRead hruns.1 taskId pVar malloc⟩
  | addLink =>
    rw [step, Option.ite_none_right_eq_some] at hs
    obtain ⟨hlive, hs⟩ := hs
    cases hnew : s.adding s.taskIdCurrent with
    | none =>
      rw [hnew] at hs
      exact nomatch hs
    | some new =>
      rw [hnew] at hs
      cases hs
      refine ⟨_, ?_, h.addLink hlive hnew honce⟩
      rw [viewStep, ← h.adding, ← h.running, hnew]
  | set taskId pVar value ok =>
    obtain ⟨⟨hruns, rfl⟩, rfl⟩ := guard_some.1 hs
    rw [viewStep, ← h.taskTcb_eq]
    cases htcb : taskTcb s taskId with
    | none =>
      refine ⟨a, rfl, ?_⟩
      rw [taskVarSet, htcb]
      exact h
    | some t =>
      have hset : Shows (taskVarSet s taskId pVar value).1 _ := h.set hruns.1 htcb
      dsimp only
      split <;> simp_all
  | delete taskId pVar ok =>
    obtain ⟨⟨hruns, rfl⟩, rfl⟩ := guard_some.1 hs
    rw [h.taskVarDelete_eq hruns.1]
    refine ⟨a, ?_, h⟩
    rw [viewStep]
    cases a.task taskId <;> rfl
  | create tcbId =>
    obtain ⟨hnew, rfl⟩ := guard_some.1 hs
    exact ⟨_, rfl, h.create hnew.2.2⟩
  | destroy tcbId =>
    rw [step, Option.ite_none_right_eq_some] at hs
    obtain rfl := Option.some.inj hs.2
    exact ⟨_, rfl, h.destroy honce⟩

/-- The system before the first call: some tasks exist, one of them runs, and the library has
not been installed. -/
structure Starts (s : State) : Prop where
  before : s.taskVarLibInstalled = false
  runs : s.verified s.taskIdCurrent = true
  noVars : ∀ t, s.pTaskVar t = []
  noAdd : ∀ t, s.adding t = none

/-- The values at the start: all are shared. -/
def startView (s : State) : View :=
  { installed := false, running := s.taskIdCurrent, live := s.verified, shared := s.mem
    own := fun _ _ => none, adding := fun _ => none }

theorem Starts.shows {s : State} (h : Starts s) : Shows s (startView s) := by
  constructor
  case installed => exact h.before
  case running => rfl
  case live => rfl
  case adding => exact funext h.noAdd
  case nodup =>
    intro t _
    rw [h.noVars]
    exact List.nodup_nil
  case has =>
    intro t p _
    rw [h.noVars]
    simp [startView, addrs]
  case mem_reads => exact fun _ _ => rfl
  case mem_shared => exact fun _ _ => rfl
  case waiting =>
    intro _ v hv
    rw [h.noVars] at hv
    exact nomatch hv
  case stored =>
    intro t _ _ v hv
    rw [h.noVars] at hv
    exact nomatch hv
  case none_before => exact fun _ t _ => h.noVars t
  case none_added => exact fun _ => h.noAdd

/-- In every run that meets `Once`, the running task reads its own value of each variable that
it has and the shared value of all others, `taskVarGet` returns the own value of any task, and
`taskVarSet` succeeds when the task has the variable. `taskVarDelete` always fails. -/
theorem task_vars_private {s s' : State} {ops : List Op} (hstart : Starts s)
    (honce : AllSteps step Once s ops) (hrun : exec step s ops = some s') :
    ∃ a, exec viewStep (startView s) ops = some a ∧
      a.running = s'.taskIdCurrent ∧ a.live = s'.verified ∧
      (s'.verified s'.taskIdCurrent = true → ∀ p, s'.mem p = a.reads s'.taskIdCurrent p) ∧
      (∀ taskId t p, taskTcb s' taskId = some t → s'.verified t = true →
        taskVarGet s' taskId p = a.own t p ∧
        ∀ value, (taskVarSet s' taskId p value).2 = (a.own t p).isSome) ∧
      (s'.verified s'.taskIdCurrent = true →
        ∀ taskId p, taskVarDelete s' taskId p = (s', false)) := by
  obtain ⟨a, hview, h⟩ := exec_simulation_of (fun _ _ _ _ => shows_step) hstart.shows honce hrun
  refine ⟨a, hview, h.running.symm, h.live.symm, h.mem_reads, fun taskId t p htcb ht => ?_,
    fun hlive taskId p => h.taskVarDelete_eq hlive⟩
  exact ⟨h.taskVarGet_eq htcb ht, fun value => h.taskVarSet_ok htcb ht⟩

/-- Two tasks, of which the first runs. -/
def twoTasks : State :=
  { taskVarLibInstalled := false, taskIdCurrent := 1, mem := fun _ => 0
    verified := fun t => t == 1 || t == 2, pTaskVar := fun _ => [], adding := fun _ => none }

theorem twoTasks_starts : Starts twoTasks := ⟨rfl, rfl, fun _ => rfl, fun _ => rfl⟩

/-- A variable of the first task keeps its value from the second one. -/
theorem task_vars_private_twoTasks :
    ∃ s', exec step twoTasks
        [.libInit true true, .addRead 1 8 true, .addLink, .write 8 5, .switch 2] = some s' ∧
      taskVarGet s' 1 8 = some 5 ∧ s'.mem 8 = 0 := by
  refine ⟨_, rfl, ?_⟩
  obtain ⟨a, hview, hrun, hlive, hmem, hget, _⟩ := @task_vars_private twoTasks _
    [.libInit true true, .addRead 1 8 true, .addLink, .write 8 5, .switch 2]
    twoTasks_starts (by decide) rfl
  obtain rfl := Option.some.inj hview
  exact ⟨(hget 1 1 8 rfl rfl).1, hmem rfl 8⟩

/-- The first task adds the variable twice: its value is the shared one after it has run
again. -/
theorem task_vars_twice :
    ∃ s' a, exec step twoTasks
        [.libInit true true, .addRead 1 8 true, .addLink, .write 8 5, .addRead 1 8 true, .addLink,
          .switch 2, .switch 1, .write 8 7, .switch 2] = some s' ∧
      exec viewStep (startView twoTasks)
        [.libInit true true, .addRead 1 8 true, .addLink, .write 8 5, .addRead 1 8 true, .addLink,
          .switch 2, .switch 1, .write 8 7, .switch 2] = some a ∧
      s'.taskIdCurrent = 2 ∧ a.own 2 8 = none ∧ a.shared 8 = 0 ∧ s'.mem 8 = 5 :=
  ⟨_, _, rfl, rfl, rfl, rfl, rfl, rfl⟩

end Vmx.TaskVar
