import Vmx.Os.ModuleLib
import Mathlib.Data.List.Nodup

/-!
# The registry of modules

`Registry` says that the list holds the modules that exist, by increasing group numbers in
their range.  While there is a number after that of the last module (`HasRoom`), `moduleInit`
puts the new module at the end of the list and keeps this.  Otherwise it has no result: the
scan of `moduleInsert` steps to the node behind the last one and never gets back.

A search that finds nothing gives the module that it has looked at last, the first of the
list.  So it is right when the list is empty or a module matches (`findModule_right`), and
`moduleInit` marks the first module as replaced when no module has the name of the new one.
-/

namespace Vmx.ModuleLib

open Lib

/-! ## Names -/

theorem pathSlashLastIndex_drop {str : List UInt8} {n : Nat}
    (h : pathSlashLastIndex str = some n) : pathSlashLastIndex (str.drop (n + 1)) = none := by
  induction str generalizing n with
  | nil => exact nomatch h
  | cons c str ih =>
    rw [pathSlashLastIndex] at h
    cases hstr : pathSlashLastIndex str with
    | some i =>
      rw [hstr] at h
      cases h
      exact ih hstr
    | none =>
      rw [hstr] at h
      dsimp only at h
      split at h
      · cases h
        exact hstr
      · exact nomatch h

/-- A file name has no directory. -/
theorem pathSplit_file (name : Option (List UInt8)) :
    pathSplit (some (pathSplit name).2) = ([], (pathSplit name).2) := by
  have hsplit {file : List UInt8} (h : pathSlashLastIndex file = none) :
      pathSplit (some file) = ([], file) := by
    rw [pathSplit, h]
  cases name with
  | none => exact hsplit rfl
  | some path =>
    cases hpath : pathSlashLastIndex path with
    | none =>
      have hfile : (pathSplit (some path)).2 = path := by rw [pathSplit, hpath]
      rw [hfile]
      exact hsplit hpath
    | some n =>
      have hfile : (pathSplit (some path)).2 = path.drop (n + 1) := by rw [pathSplit, hpath]
      rw [hfile]
      exact hsplit (pathSlashLastIndex_drop hpath)

/-- The parts of the name go into their buffers. -/
def NameFits (name : Option (List UInt8)) : Prop :=
  (pathSplit name).1.length < NAME_MAX ∧ (pathSplit name).2.length < NAME_MAX

instance (name : Option (List UInt8)) : Decidable (NameFits name) :=
  inferInstanceAs (Decidable (_ ∧ _))

/-! ## Searches -/

section Find

variable {isMatch : Nat → Bool} {list : List Nat} {modId : Option Nat} {id : Nat}

/-- What a search should give: a module of the list that matches, or nothing when there is
none. -/
def FindsRight (isMatch : Nat → Bool) (list : List Nat) : Option Nat → Prop
  | some modId => modId ∈ list ∧ isMatch modId = true
  | none => ∀ modId ∈ list, isMatch modId = false

theorem findModule_of_match (h : ∃ modId ∈ list, isMatch modId = true) :
    ∃ found, findModule isMatch list modId = some found ∧ found ∈ list ∧
      isMatch found = true := by
  induction list generalizing modId with
  | nil =>
    obtain ⟨_, hmem, _⟩ := h
    exact nomatch hmem
  | cons m list ih =>
    rw [findModule]
    by_cases hm : isMatch m = true
    · rw [if_pos hm]
      exact ⟨m, rfl, List.mem_cons_self, hm⟩
    · rw [if_neg hm]
      obtain ⟨found, hfound, hmem, hmatch⟩ := @ih (some m) (by
        obtain ⟨x, hx, hxm⟩ := h
        rcases List.mem_cons.1 hx with rfl | hx
        · exact absurd hxm hm
        · exact ⟨x, hx, hxm⟩)
      exact ⟨found, hfound, List.mem_cons_of_mem _ hmem, hmatch⟩

/-- A search without a match gives the module that it looks at last. -/
theorem findModule_of_no_match (h : ∀ modId ∈ list, isMatch modId = false) :
    findModule isMatch list modId = list.getLast?.or modId := by
  induction list generalizing modId with
  | nil => rfl
  | cons m list ih =>
    have hm : ¬ isMatch m = true := by rw [h m List.mem_cons_self]; exact Bool.false_ne_true
    rw [findModule, if_neg hm, ih fun x hx => h x (List.mem_cons_of_mem _ hx)]
    cases list with
    | nil => rfl
    | cons n list => rw [List.getLast?_cons_cons, List.getLast?_cons]; rfl

/-- A search is right when the list is empty or a module matches, and only then. -/
theorem findModule_right :
    FindsRight isMatch list (findModule isMatch list.reverse none) ↔
      list = [] ∨ ∃ modId ∈ list, isMatch modId = true := by
  by_cases hmatch : ∃ modId ∈ list, isMatch modId = true
  · obtain ⟨found, hfound, hmem, hm⟩ := @findModule_of_match isMatch
      list.reverse none (by simpa using hmatch)
    rw [hfound]
    exact ⟨fun _ => Or.inr hmatch, fun _ => ⟨List.mem_reverse.1 hmem, hm⟩⟩
  · have hno : ∀ modId ∈ list.reverse, isMatch modId = false := by
      intro modId hmem
      rw [← Bool.not_eq_true]
      exact fun hm => hmatch ⟨modId, List.mem_reverse.1 hmem, hm⟩
    rw [findModule_of_no_match hno, Option.or_none, List.getLast?_reverse]
    cases list with
    | nil => exact ⟨fun _ => Or.inl rfl, fun _ modId hmem => nomatch hmem⟩
    | cons m list =>
      constructor
      · intro hright
        exact Or.inr ⟨m, hright⟩
      · rintro (hnil | hm)
        · exact nomatch hnil
        · exact absurd hm hmatch

end Find

/-! ## The list of modules -/

/-- The list and the group numbers are in order. -/
structure Registry (s : State) : Prop where
  nodup : s.moduleList.Nodup
  mem_iff : ∀ modId, modId ∈ s.moduleList ↔ s.verified modId = true
  increasing : s.moduleList.Pairwise fun a b => (s.module a).group < (s.module b).group
  range : ∀ modId ∈ s.moduleList,
    1 ≤ (s.module modId).group ∧ (s.module modId).group ≤ MODULE_GROUP_MAX - 1
  next_pos : 1 ≤ s.moduleGroupNum

/-- There is a group number for a new module at the end of the list. -/
def HasRoom (s : State) : Prop := nextGroupNum s < MODULE_GROUP_MAX

instance (s : State) : Decidable (HasRoom s) := inferInstanceAs (Decidable (_ < _))

/-- The scan for a gap has no result. -/
theorem moduleInsert_eq_none (s : State) (hnodup : s.moduleList.Nodup) (modId : Nat) :
    moduleInsert s modId = none := by
  rw [moduleInsert]
  cases hlast : s.moduleList.getLast? with
  | none => rfl
  | some last =>
    have hnext : dllNext s.moduleList last = none := by
      obtain ⟨init, hinit⟩ := List.getLast?_eq_some_iff.1 hlast
      rw [hinit] at hnodup
      have hout : last ∉ init := fun hmem =>
        (List.nodup_append.1 hnodup).2.2 last hmem last List.mem_cons_self rfl
      rw [dllNext, hinit, List.idxOf_append, if_neg hout, List.getElem?_eq_none]
      simp
    rw [moduleInsertLoop, hnext]

/-! ## A new module -/

/-- The module that `moduleInit` takes for an old one of the same name. -/
def oldModule (s : State) (file : List UInt8) : Option Nat :=
  findModule (fun modId => (s.module modId).name == file) s.moduleList.reverse none

/-- The module as `moduleInit` leaves it. -/
def newModule (s : State) (name : Option (List UInt8)) (format : Int) (flags : UInt32) :
    Module :=
  { name := (pathSplit name).2, path := (pathSplit name).1, flags := flags, format := format
    group := nextGroupNum s }

/-- What `moduleInit` does when there is room: the new module comes at the end of the list,
and the old one is marked. -/
structure Added (s s' : State) (modId : Nat) (m : Module) : Prop where
  list : s'.moduleList = s.moduleList ++ [modId]
  next : s'.moduleGroupNum = nextGroupNum s + 1
  verified : s'.verified = Function.update s.verified modId true
  self : s'.module modId = m
  others : ∀ x, x ≠ modId → s'.module x =
    if oldModule s m.name = some x then
      { s.module x with flags := (s.module x).flags ||| MODULE_REPLACED }
    else s.module x

section Init

variable {s s' : State} {modId : Nat} {name : Option (List UInt8)} {format : Int} {flags : UInt32}

theorem findModule_congr {f g : Nat → Bool} {list : List Nat} {found : Option Nat}
    (h : ∀ x ∈ list, f x = g x) : findModule f list found = findModule g list found := by
  induction list generalizing found with
  | nil => rfl
  | cons m list ih =>
    rw [findModule, findModule, h m List.mem_cons_self,
      ih fun x hx => h x (List.mem_cons_of_mem _ hx)]

theorem findModule_mem {f : Nat → Bool} {list : List Nat} {x : Nat}
    (h : findModule f list none = some x) : x ∈ list := by
  by_cases hmatch : ∃ modId ∈ list, f modId = true
  · obtain ⟨found, hfound, hmem, _⟩ := @findModule_of_match f list none hmatch
    obtain rfl := Option.some.inj (hfound.symm.trans h)
    exact hmem
  · rw [findModule_of_no_match, Option.or_none] at h
    · exact List.mem_of_getLast? h
    · intro modId hmem
      rw [← Bool.not_eq_true]
      exact fun hm => hmatch ⟨modId, hmem, hm⟩

theorem oldModule_mem {file : List UInt8} {x : Nat} (h : oldModule s file = some x) :
    x ∈ s.moduleList := List.mem_reverse.1 (findModule_mem h)

theorem nextGroupNum_congr (hlist : s'.moduleList = s.moduleList)
    (hnum : s'.moduleGroupNum = s.moduleGroupNum)
    (hgroup : ∀ x ∈ s.moduleList, (s'.module x).group = (s.module x).group) :
    nextGroupNum s' = nextGroupNum s := by
  rw [nextGroupNum, nextGroupNum, hlist]
  cases hlast : s.moduleList.getLast? with
  | none => exact hnum
  | some last =>
    dsimp only
    rw [hgroup last (List.mem_of_getLast? hlast)]

/-- The state in which `moduleInit` looks for a group number. -/
def marked (s : State) (modId : Nat) (name : Option (List UInt8)) : State :=
  markReplaced
    (s.setModule modId
      { s.module modId with path := (pathSplit name).1, name := (pathSplit name).2 })
    (oldModule s (pathSplit name).2)

theorem marked_list : (marked s modId name).moduleList = s.moduleList ∧
    (marked s modId name).moduleGroupNum = s.moduleGroupNum ∧
    (marked s modId name).verified = s.verified := by
  rw [marked]
  cases oldModule s (pathSplit name).2 <;> exact ⟨rfl, rfl, rfl⟩

theorem marked_module (hout : modId ∉ s.moduleList) :
    (marked s modId name).module modId =
      { s.module modId with path := (pathSplit name).1, name := (pathSplit name).2 } ∧
    ∀ x, x ≠ modId → (marked s modId name).module x =
      if oldModule s (pathSplit name).2 = some x then
        { s.module x with flags := (s.module x).flags ||| MODULE_REPLACED }
      else s.module x := by
  rw [marked]
  cases hold : oldModule s (pathSplit name).2 with
  | none =>
    dsimp only [markReplaced, State.setModule]
    refine ⟨Function.update_self _ _ _, fun x hx => ?_⟩
    rw [Function.update_of_ne hx, if_neg (fun heq => nomatch heq)]
  | some old =>
    have hne : old ≠ modId := fun heq => hout (heq ▸ oldModule_mem hold)
    dsimp only [markReplaced, State.setModule]
    constructor
    · rw [Function.update_of_ne hne.symm, Function.update_self]
    · intro x hx
      by_cases heq : x = old
      · subst heq
        rw [Function.update_self, Function.update_of_ne hx, if_pos rfl]
      · rw [Function.update_of_ne heq, Function.update_of_ne hx, if_neg]
        exact fun hsome => heq (Option.some.inj hsome).symm

/-- `moduleInit` in terms of the state after the search for an old module. -/
theorem moduleInit_eq (hout : modId ∉ s.moduleList) (hfits : NameFits name) :
    moduleInit s modId name format flags =
      let s := { marked s modId name with moduleGroupNum := nextGroupNum s }
      if s.moduleGroupNum < MODULE_GROUP_MAX then
        some (setupModule
          { s.setModule modId { s.module modId with group := s.moduleGroupNum } with
            moduleGroupNum := s.moduleGroupNum + 1
            moduleList := s.moduleList ++ [modId] } modId format flags, true)
      else
        match moduleInsert s modId with
        | none => none
        | some (s, false) => some (s, false)
        | some (s, true) => some (setupModule s modId format flags, true) := by
  have hfind : moduleFindByName
      (s.setModule modId
        { s.module modId with path := (pathSplit name).1, name := (pathSplit name).2 })
      (some (pathSplit name).2) = some (oldModule s (pathSplit name).2) := by
    have hlong : (pathSplit name).2.length < PATH_MAX := by
      have := hfits.2
      simp only [NAME_MAX] at this
      simp only [PATH_MAX]
      omega
    simp only [moduleFindByName, pathSplit_file]
    rw [if_pos ⟨by simp [NAME_MAX], hlong⟩]
    congr 1
    refine findModule_congr fun x hx => ?_
    have hne : x ≠ modId := fun heq => hout (heq ▸ List.mem_reverse.1 hx)
    simp only [State.setModule, Function.update_of_ne hne]
  have hnext : nextGroupNum (marked s modId name) = nextGroupNum s := by
    refine nextGroupNum_congr marked_list.1 marked_list.2.1 fun x hx => ?_
    rw [(marked_module hout).2 x fun heq => hout (heq ▸ hx)]
    split <;> rfl
  have hfits' : (pathSplit name).1.length < NAME_MAX ∧ (pathSplit name).2.length < NAME_MAX :=
    hfits
  rw [moduleInit]
  dsimp only
  rw [if_pos hfits', hfind]
  dsimp only
  rw [show markReplaced _ (oldModule s (pathSplit name).2) = marked s modId name from rfl]
  generalize nextGroupNum (marked s modId name) = n at hnext ⊢
  subst hnext
  rfl

theorem moduleInit_added (hout : modId ∉ s.moduleList) (hfits : NameFits name)
    (hroom : HasRoom s) :
    ∃ s', moduleInit s modId name format flags = some (s', true) ∧
      Added s s' modId (newModule s name format flags) := by
  obtain ⟨hlist, hnum, hverified⟩ := @marked_list s modId name
  obtain ⟨hself, hothers⟩ := @marked_module s modId name hout
  have hroom' : nextGroupNum s < MODULE_GROUP_MAX := hroom
  rw [moduleInit_eq hout hfits]
  dsimp only
  rw [if_pos hroom']
  refine ⟨_, rfl, ?_, rfl, ?_, ?_, fun x hx => ?_⟩
  · show (marked s modId name).moduleList ++ [modId] = _
    rw [hlist]
  · show Function.update (marked s modId name).verified modId true = _
    rw [hverified]
  · simp only [setupModule, State.setModule, Function.update_self, hself]
    rfl
  · simp only [setupModule, State.setModule, Function.update_of_ne hx]
    exact hothers x hx

theorem moduleInit_eq_none (hreg : Registry s) (hout : modId ∉ s.moduleList)
    (hroom : ¬ HasRoom s) : moduleInit s modId name format flags = none := by
  have hroom' : ¬ nextGroupNum s < MODULE_GROUP_MAX := hroom
  by_cases hfits : NameFits name
  · rw [moduleInit_eq hout hfits]
    dsimp only
    rw [if_neg hroom', moduleInsert_eq_none _ (by rw [marked_list.1]; exact hreg.nodup)]
  · exact if_neg hfits

theorem Registry.add (hreg : Registry s) (hout : modId ∉ s.moduleList) (hroom : HasRoom s)
    (hadd : Added s s' modId (newModule s name format flags)) : Registry s' := by
  have hgroup {x : Nat} (hx : x ∈ s.moduleList) : (s'.module x).group = (s.module x).group := by
    rw [hadd.others x fun heq => hout (heq ▸ hx)]
    split <;> rfl
  have hnew : (s'.module modId).group = nextGroupNum s := by rw [hadd.self]; rfl
  have hlast {x : Nat} (hx : x ∈ s.moduleList) : (s.module x).group < nextGroupNum s := by
    rw [nextGroupNum]
    cases hl : s.moduleList.getLast? with
    | none =>
      rw [List.getLast?_eq_none_iff.1 hl] at hx
      exact nomatch hx
    | some last =>
      obtain ⟨init, hinit⟩ := List.getLast?_eq_some_iff.1 hl
      have hinc := hreg.increasing
      rw [hinit] at hx hinc
      rcases List.mem_append.1 hx with hx | hx
      · have := (List.pairwise_append.1 hinc).2.2 x hx last List.mem_cons_self
        dsimp only
        omega
      · obtain rfl := List.mem_singleton.1 hx
        exact Nat.lt_succ_self _
  have hpos : 1 ≤ nextGroupNum s := by
    rw [nextGroupNum]
    split
    · exact hreg.next_pos
    · omega
  constructor
  case nodup =>
    rw [hadd.list, List.nodup_append]
    refine ⟨hreg.nodup, List.nodup_singleton _, fun a ha b hb hab => ?_⟩
    rw [List.mem_singleton.1 hb] at hab
    exact hout (hab ▸ ha)
  case mem_iff =>
    intro x
    rw [hadd.list, hadd.verified, List.mem_append, List.mem_singleton, hreg.mem_iff,
      Function.update_apply]
    split <;> simp_all
  case increasing =>
    rw [hadd.list, List.pairwise_append]
    refine ⟨?_, List.pairwise_singleton _ _, fun a ha b hb => ?_⟩
    · refine hreg.increasing.imp_of_mem fun ha hb hab => ?_
      rwa [hgroup ha, hgroup hb]
    · rw [List.mem_singleton.1 hb, hgroup ha, hnew]
      exact hlast ha
  case range =>
    intro x hx
    rw [hadd.list, List.mem_append, List.mem_singleton] at hx
    rcases hx with hx | rfl
    · rw [hgroup hx]
      exact hreg.range x hx
    · rw [hnew]
      exact ⟨hpos, Nat.le_pred_of_lt hroom⟩
  case next_pos =>
    rw [hadd.next]
    omega

theorem Registry.destroy (hreg : Registry s) : Registry (moduleDestroy s modId).1 := by
  rw [moduleDestroy]
  by_cases hv : s.verified modId = true
  · rw [if_pos hv]
    constructor
    case nodup => exact hreg.nodup.erase _
    case mem_iff =>
      intro x
      show x ∈ s.moduleList.erase modId ↔ Function.update s.verified modId false x = true
      rw [hreg.nodup.mem_erase_iff, hreg.mem_iff, Function.update_apply]
      split <;> simp_all
    case increasing => exact hreg.increasing.sublist List.erase_sublist
    case range => exact fun x hx => hreg.range x (List.mem_of_mem_erase hx)
    case next_pos => exact hreg.next_pos
  · rw [if_neg hv]
    exact hreg

end Init

/-! ## Runs -/

/-- A call that a run may have: a new module that is not one of the list, with a name that goes
into its buffers, while there is room. -/
def Fine (s : State) : Op → Prop
  | .init modId name _ _ => s.verified modId = false ∧ NameFits name ∧ HasRoom s
  | .destroy _ => True

instance (s : State) : ∀ op, Decidable (Fine s op)
  | .init _ _ _ _ => inferInstanceAs (Decidable (_ ∧ _ ∧ _))
  | .destroy _ => inferInstanceAs (Decidable True)

/-- The modules that are initialised and not destroyed, in the order of their start. -/
def loaded (list : List Nat) : Op → List Nat
  | .init modId _ _ _ => list ++ [modId]
  | .destroy modId => list.erase modId

section Run

variable {s s' : State} {op : Op} {ops : List Op} {modId : Nat}

theorem Registry.not_mem (hreg : Registry s) (hnew : s.verified modId = false) :
    modId ∉ s.moduleList := by
  intro hmem
  exact nomatch hnew.symm.trans ((hreg.mem_iff modId).1 hmem)

theorem step_fine (hreg : Registry s) (hfine : Fine s op) :
    ∃ s', step s op = some s' ∧ Registry s' ∧ s'.moduleList = loaded s.moduleList op := by
  cases op with
  | init modId name format flags =>
    obtain ⟨hnew, hfits, hroom⟩ := hfine
    have hout := hreg.not_mem hnew
    obtain ⟨s', hinit, hadd⟩ := @moduleInit_added s modId name format flags hout hfits
      hroom
    refine ⟨s', ?_, hreg.add hout hroom hadd, hadd.list⟩
    rw [step, if_neg (by rw [hnew]; exact Bool.false_ne_true), hinit, Option.map_some]
  | destroy modId =>
    refine ⟨_, rfl, hreg.destroy, ?_⟩
    rw [moduleDestroy]
    by_cases hv : s.verified modId = true
    · rw [if_pos hv]
      rfl
    · rw [if_neg hv, loaded, List.erase_of_not_mem]
      exact fun hmem => hv ((hreg.mem_iff modId).1 hmem)

theorem run_fine (hreg : Registry s) (hfine : AllSteps step Fine s ops) :
    ∃ s', exec step s ops = some s' ∧ Registry s' ∧
      s'.moduleList = ops.foldl loaded s.moduleList := by
  induction ops generalizing s with
  | nil => exact ⟨s, rfl, hreg, rfl⟩
  | cons op ops ih =>
    obtain ⟨s1, hs1, hreg1, hlist1⟩ := step_fine hreg hfine.1
    obtain ⟨s', hrun, hreg', hlist'⟩ := ih hreg1 (allSteps_cons hfine hs1).2
    refine ⟨s', exec_cons.2 ⟨s1, hs1, hrun⟩, hreg', ?_⟩
    rw [hlist', hlist1, List.foldl_cons]

end Run

theorem start_registry (module : Nat → Module) : Registry (start module) :=
  ⟨List.nodup_nil, fun _ => by simp [start], List.Pairwise.nil, fun _ h => (nomatch h),
    Nat.le_refl 1⟩

/-- A module of another name is marked when the list has modules and none has the name of the
new one; then it is the first of the list. -/
theorem marks_right_iff {s s' : State} {modId : Nat} {m : Module} (hadd : Added s s' modId m)
    (hout : modId ∉ s.moduleList) :
    (∀ x ∈ s.moduleList, (s'.module x).flags ≠ (s.module x).flags →
        (s.module x).name = m.name) ↔
      s.moduleList = [] ∨ (∃ x ∈ s.moduleList, (s.module x).name = m.name) ∨
        ∃ x ∈ s.moduleList.head?,
          (s.module x).flags ||| MODULE_REPLACED = (s.module x).flags := by
  have hflags {x : Nat} (hx : x ∈ s.moduleList) : (s'.module x).flags =
      if oldModule s m.name = some x then (s.module x).flags ||| MODULE_REPLACED
      else (s.module x).flags := by
    rw [hadd.others x fun heq => hout (heq ▸ hx)]
    split <;> rfl
  by_cases hmatch : ∃ x ∈ s.moduleList, (s.module x).name = m.name
  · refine ⟨fun _ => Or.inr (Or.inl hmatch), fun _ x hx hne => ?_⟩
    have hexists : ∃ x ∈ s.moduleList.reverse, ((s.module x).name == m.name) = true := by
      obtain ⟨x, hx, hname⟩ := hmatch
      exact ⟨x, List.mem_reverse.2 hx, beq_iff_eq.2 hname⟩
    obtain ⟨found, hfound, _, hname⟩ := findModule_of_match hexists
    rw [hflags hx, oldModule, hfound] at hne
    by_cases heq : found = x
    · exact heq ▸ beq_iff_eq.1 hname
    · rw [if_neg fun h => heq (Option.some.inj h)] at hne
      exact absurd rfl hne
  · have hno : ∀ x ∈ s.moduleList.reverse, ((s.module x).name == m.name) = false := by
      intro x hx
      rw [beq_eq_false_iff_ne]
      exact fun hname => hmatch ⟨x, List.mem_reverse.1 hx, hname⟩
    have hold : oldModule s m.name = s.moduleList.head? := by
      rw [oldModule, findModule_of_no_match hno, Option.or_none, List.getLast?_reverse]
    cases hlist : s.moduleList with
    | nil => exact ⟨fun _ => Or.inl rfl, fun _ x hx => nomatch hx⟩
    | cons h list =>
      have hmem : h ∈ s.moduleList := by rw [hlist]; exact List.mem_cons_self
      have hname : (s.module h).name ≠ m.name := fun hname => hmatch ⟨h, hmem, hname⟩
      rw [hlist, List.head?_cons] at hold
      constructor
      · intro hright
        refine Or.inr (Or.inr ⟨h, rfl, ?_⟩)
        by_contra hne
        refine hname (hright h List.mem_cons_self ?_)
        rwa [hflags hmem, hold, if_pos rfl]
      · rintro (hnil | ⟨x, hx, hxname⟩ | ⟨x, hx, hsame⟩)
        · exact nomatch hnil
        · exact absurd ⟨x, hlist ▸ hx, hxname⟩ hmatch
        · cases hx
          intro y hy hne
          rw [← hlist] at hy
          rw [hflags hy, hold] at hne
          by_cases heq : h = y
          · subst heq
            rw [if_pos rfl] at hne
            exact absurd hsame hne
          · rw [if_neg fun h => heq (Option.some.inj h)] at hne
            exact absurd rfl hne

/-- In every run whose calls are all fine, each call ends and the list has the modules that are
initialised and not destroyed, by increasing group numbers in their range.  In every state
that such a run reaches, a further `moduleInit` of a new module has a result when there is
room, and then it succeeds; it marks only modules of the same name, and the searches are right,
when the list is empty or a module matches (or the first module has the mark already). -/
theorem module_registry {module : Nat → Module} {ops : List Op}
    (hfine : AllSteps step Fine (start module) ops) :
    ∃ s, exec step (start module) ops = some s ∧
      s.moduleList = ops.foldl loaded [] ∧
      s.moduleList.Pairwise (fun a b => (s.module a).group < (s.module b).group) ∧
      (∀ x ∈ s.moduleList,
        1 ≤ (s.module x).group ∧ (s.module x).group ≤ MODULE_GROUP_MAX - 1) ∧
      (∀ modId name format flags, s.verified modId = false → NameFits name →
        ((∃ s', moduleInit s modId name format flags = some (s', true)) ↔ HasRoom s) ∧
        (∀ s', moduleInit s modId name format flags ≠ some (s', false)) ∧
        ∀ s', moduleInit s modId name format flags = some (s', true) →
          ((∀ x ∈ s.moduleList, (s'.module x).flags ≠ (s.module x).flags →
              (s.module x).name = (pathSplit name).2) ↔
            s.moduleList = [] ∨ (∃ x ∈ s.moduleList, (s.module x).name = (pathSplit name).2) ∨
              ∃ x ∈ s.moduleList.head?,
                (s.module x).flags ||| MODULE_REPLACED = (s.module x).flags)) ∧
      (∀ name, NameFits name →
        ((∃ found, moduleFindByName s name = some found ∧
            FindsRight (fun x => (s.module x).name == (pathSplit name).2) s.moduleList found) ↔
          s.moduleList = [] ∨ ∃ x ∈ s.moduleList, (s.module x).name = (pathSplit name).2)) ∧
      (∀ name path,
        FindsRight (fun x => (s.module x).name == name && (s.module x).path == path) s.moduleList
            (moduleFindByNameAndPath s name path) ↔
          s.moduleList = [] ∨
            ∃ x ∈ s.moduleList, (s.module x).name = name ∧ (s.module x).path = path) ∧
      (∀ group : Int,
        FindsRight (fun x => group == ((s.module x).group : Int)) s.moduleList
            (moduleFindByGroup s group) ↔
          s.moduleList = [] ∨ ∃ x ∈ s.moduleList, group = (s.module x).group) := by
  obtain ⟨s, hrun, hreg, hlist⟩ := run_fine (start_registry module) hfine
  refine ⟨s, hrun, hlist, hreg.increasing, hreg.range, ?_, ?_, ?_, ?_⟩
  · intro modId name format flags hnew hfits
    have hout := hreg.not_mem hnew
    by_cases hroom : HasRoom s
    · obtain ⟨s1, hinit, hadd⟩ :=
        @moduleInit_added s modId name format flags hout hfits hroom
      rw [hinit]
      refine ⟨⟨fun _ => hroom, fun _ => ⟨s1, rfl⟩⟩, fun s' heq => (nomatch heq), fun s' heq => ?_⟩
      obtain rfl := (Prod.mk.inj (Option.some.inj heq)).1
      exact marks_right_iff hadd hout
    · rw [moduleInit_eq_none hreg hout hroom]
      exact ⟨⟨fun ⟨_, heq⟩ => (nomatch heq), fun h => absurd h hroom⟩, fun _ heq => (nomatch heq),
        fun _ heq => nomatch heq⟩
  · intro name hfits
    have hlong : (pathSplit name).2.length < PATH_MAX := by
      have := hfits.2
      simp only [NAME_MAX] at this
      simp only [PATH_MAX]
      omega
    have hfind : moduleFindByName s name =
        some (findModule (fun x => (s.module x).name == (pathSplit name).2)
          s.moduleList.reverse none) := if_pos ⟨hfits.1, hlong⟩
    rw [hfind]
    simpa using
      @findModule_right (fun x => (s.module x).name == (pathSplit name).2) s.moduleList
  · intro name path
    rw [moduleFindByNameAndPath, findModule_right]
    simp
  · intro group
    rw [moduleFindByGroup, findModule_right]
    simp

/-- No module has a name yet. -/
def unnamed : Nat → Module := fun _ => { name := [], path := [], flags := 0, format := 0, group := 0 }

/-- The modules `a` and `b`, of which `a` is destroyed. -/
theorem module_registry_two :
    ∃ s, exec step (start unnamed)
        [.init 1 (some [97]) 0 0, .init 2 (some [98]) 0 0, .destroy 1] = some s ∧
      s.moduleList = [2] ∧ 1 ≤ (s.module 2).group ∧
      (FindsRight (fun x => (2 : Int) == ((s.module x).group : Int)) s.moduleList
        (moduleFindByGroup s 2)) := by
  obtain ⟨s, hrun, hlist, _, hrange, _, _, _, hgroup⟩ := @module_registry unnamed
    [.init 1 (some [97]) 0 0, .init 2 (some [98]) 0 0, .destroy 1] (by decide)
  have hlist' : s.moduleList = [2] := hlist
  refine ⟨s, hrun, hlist', (hrange 2 (by rw [hlist']; decide)).1, (hgroup 2).2 (Or.inr ⟨2, ?_, ?_⟩)⟩
  · rw [hlist']
    decide
  · obtain rfl := Option.some.inj hrun
    rfl

/-- The start of module `b` marks module `a` as replaced, and a search for `c` gives `a`. -/
theorem module_registry_wrong :
    ∃ s, exec step (start unnamed) [.init 1 (some [97]) 0 0, .init 2 (some [98]) 0 0] = some s ∧
      (s.module 1).name = [97] ∧ (s.module 1).flags = MODULE_REPLACED ∧
      moduleFindByName s (some [99]) = some (some 1) :=
  ⟨_, rfl, rfl, rfl, rfl⟩

end Vmx.ModuleLib
