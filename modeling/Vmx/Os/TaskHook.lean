import Vmx.Lib.Transition
import Mathlib.Logic.Function.Basic
import Mathlib.Data.List.Basic
import Mathlib.Algebra.Order.Ring.Int

/-!
# `taskHookLib`: the hook tables

The create, switch and delete hooks are kept in three arrays of `max + 1` slots.  Both
`taskHookAdd` and `taskHookDelete` look for a slot among the first `max`; the last slot
stays NULL, so the kernel can walk a table up to its first NULL.

The loop of `taskHookDelete` that closes the gap gets a number of rounds, and `none` says
that it has not ended after them.

There are four groups.

* The functions of the source, over an array of slots.
* What the tables are for: three lists of hooks, `Lists`, and the call on them, `Lists.call`.
* One call.  `taskHookAdd_holds` and `taskHookDelete_holds` say which list a table holds after
  the call, and `moveUp_of_next` that the loop of a deletion goes on forever when a hook
  follows the deleted one.
* Runs.  `hook_tables_iff` says for which runs of calls the tables follow the lists.
-/

namespace Vmx.TaskHook

open Lib

/-- The error numbers of the library. -/
inductive Errno where
  | S_taskLib_TASK_HOOK_TABLE_FULL
  | S_taskLib_TASK_HOOK_NOT_FOUND
  | S_taskLib_TASK_SWAP_HOOK_REFERENCED
  | S_taskLib_TASK_SWAP_HOOK_SET
  | S_taskLib_TASK_SWAP_HOOK_CLEAR
  | S_objLib_INVALID_TASK_ID
  deriving DecidableEq

/-- `OK`, or `ERROR` with the error number. -/
abbrev Status := Except Errno Unit

/-- A hook table and the memory behind it; `none` is NULL. -/
abbrev Table (φ : Type) := Nat → Option φ

variable {φ : Type} [DecidableEq φ]

/-- The search of both functions: the first of `n` slots from `i` on that has the value. -/
def findSlot (table : Table φ) (hook : Option φ) (i : Nat) : Nat → Option Nat
  | 0 => none
  | n + 1 => if table i = hook then some i else findSlot table hook (i + 1) n

/-- `taskHookAdd`. -/
def taskHookAdd (hook : Option φ) (table : Table φ) (max : Nat) : Table φ × Status :=
  match findSlot table none 0 max with
  | some i => (Function.update table i hook, .ok ())
  | none => (table, .error .S_taskLib_TASK_HOOK_TABLE_FULL)

/-- The loop of `taskHookDelete` that moves up the other hooks; `i` is the same in every
round. -/
def moveUp (table : Table φ) (i : Nat) : Nat → Option (Table φ)
  | 0 => none
  | fuel + 1 =>
    let table := Function.update table i (table (i + 1))
    if table i ≠ none then moveUp table i fuel else some table

/-- `taskHookDelete`. -/
def taskHookDelete (fuel : Nat) (hook : Option φ) (table : Table φ) (max : Nat) :
    Option (Table φ × Status) :=
  match findSlot table hook 0 max with
  | some i => (moveUp table i fuel).map fun table => (table, .ok ())
  | none => some (table, .error .S_taskLib_TASK_HOOK_NOT_FOUND)

def MAX_TASK_CREATE_HOOKS : Nat := 16

def MAX_TASK_SWITCH_HOOKS : Nat := 16

def MAX_TASK_DELETE_HOOKS : Nat := 16

/-- The three tables. -/
structure Hooks (φ : Type) where
  taskCreateHooks : Table φ
  taskSwitchHooks : Table φ
  taskDeleteHooks : Table φ

def taskCreateHookAdd (s : Hooks φ) (hook : Option φ) : Hooks φ × Status :=
  let r := taskHookAdd hook s.taskCreateHooks MAX_TASK_CREATE_HOOKS
  ({ s with taskCreateHooks := r.1 }, r.2)

def taskCreateHookDelete (fuel : Nat) (s : Hooks φ) (hook : Option φ) :
    Option (Hooks φ × Status) :=
  (taskHookDelete fuel hook s.taskCreateHooks MAX_TASK_CREATE_HOOKS).map fun r =>
    ({ s with taskCreateHooks := r.1 }, r.2)

def taskSwitchHookAdd (s : Hooks φ) (hook : Option φ) : Hooks φ × Status :=
  let r := taskHookAdd hook s.taskSwitchHooks MAX_TASK_SWITCH_HOOKS
  ({ s with taskSwitchHooks := r.1 }, r.2)

def taskSwitchHookDelete (fuel : Nat) (s : Hooks φ) (hook : Option φ) :
    Option (Hooks φ × Status) :=
  (taskHookDelete fuel hook s.taskSwitchHooks MAX_TASK_SWITCH_HOOKS).map fun r =>
    ({ s with taskSwitchHooks := r.1 }, r.2)

def taskDeleteHookAdd (s : Hooks φ) (hook : Option φ) : Hooks φ × Status :=
  let r := taskHookAdd hook s.taskDeleteHooks MAX_TASK_DELETE_HOOKS
  ({ s with taskDeleteHooks := r.1 }, r.2)

def taskDeleteHookDelete (fuel : Nat) (s : Hooks φ) (hook : Option φ) :
    Option (Hooks φ × Status) :=
  (taskHookDelete fuel hook s.taskDeleteHooks MAX_TASK_DELETE_HOOKS).map fun r =>
    ({ s with taskDeleteHooks := r.1 }, r.2)

/-- The loops of `taskHookLibInit`: `n` slots from `i` on become NULL. -/
def clearSlots (table : Table φ) (i : Nat) : Nat → Table φ
  | 0 => table
  | n + 1 => clearSlots (Function.update table i none) (i + 1) n

/-- `taskHookLibInit`, on its first call. -/
def taskHookLibInit (s : Hooks φ) : Hooks φ where
  taskCreateHooks := clearSlots s.taskCreateHooks 0 MAX_TASK_CREATE_HOOKS
  taskSwitchHooks := clearSlots s.taskSwitchHooks 0 MAX_TASK_SWITCH_HOOKS
  taskDeleteHooks := clearSlots s.taskDeleteHooks 0 MAX_TASK_DELETE_HOOKS

/-- `switchLoop` of the kernel: the hooks from slot `i` on up to the first NULL.  `none` says
that there is no NULL among the first `fuel` slots. -/
def switchLoop (table : Table φ) (i : Nat) : Nat → Option (List φ)
  | 0 => none
  | fuel + 1 =>
    match table i with
    | none => some []
    | some hook => (switchLoop table (i + 1) fuel).map (hook :: ·)

/-- The loops over the create hooks and over the delete hooks: they look at every slot. -/
def runHooks (table : Table φ) (i : Nat) : Nat → List φ
  | 0 => []
  | n + 1 =>
    match table i with
    | none => runHooks table (i + 1) n
    | some hook => hook :: runHooks table (i + 1) n

/-! ## The lists of hooks -/

/-- Which of the tables. -/
inductive Which where
  | create
  | switch
  | delete
  deriving DecidableEq

/-- `MAX` of a table. -/
def Which.max : Which → Nat
  | create => MAX_TASK_CREATE_HOOKS
  | switch => MAX_TASK_SWITCH_HOOKS
  | delete => MAX_TASK_DELETE_HOOKS

/-- A call with a hook. -/
inductive Call (φ : Type) where
  | add (which : Which) (hook : φ)
  | delete (which : Which) (hook : φ)

/-- The table of a kind. -/
def Hooks.table (s : Hooks φ) : Which → Table φ
  | .create => s.taskCreateHooks
  | .switch => s.taskSwitchHooks
  | .delete => s.taskDeleteHooks

/-- The call on the tables. -/
def Hooks.call (fuel : Nat) (s : Hooks φ) : Call φ → Option (Hooks φ × Status)
  | .add .create hook => some (taskCreateHookAdd s (some hook))
  | .add .switch hook => some (taskSwitchHookAdd s (some hook))
  | .add .delete hook => some (taskDeleteHookAdd s (some hook))
  | .delete .create hook => taskCreateHookDelete fuel s (some hook)
  | .delete .switch hook => taskSwitchHookDelete fuel s (some hook)
  | .delete .delete hook => taskDeleteHookDelete fuel s (some hook)

/-- The installed hooks of each kind, in the order of adding. -/
abbrev Lists (φ : Type) := Which → List φ

/-- What a call does to the installed hooks, and its status: a hook is added behind the
others when there is room, and the first occurrence of a hook is deleted. -/
def Lists.call (lists : Lists φ) : Call φ → Lists φ × Status
  | .add which hook =>
    if (lists which).length < which.max then
      (Function.update lists which (lists which ++ [hook]), .ok ())
    else (lists, .error .S_taskLib_TASK_HOOK_TABLE_FULL)
  | .delete which hook =>
    if hook ∈ lists which then
      (Function.update lists which ((lists which).erase hook), .ok ())
    else (lists, .error .S_taskLib_TASK_HOOK_NOT_FOUND)

/-- The slots of a table are the hooks of a list, without a gap, and NULL after them up to
the last of its `max + 1` slots. -/
structure Holds (table : Table φ) (max : Nat) (hooks : List φ) : Prop where
  length_le : hooks.length ≤ max
  slot : ∀ i ≤ max, table i = hooks[i]?

/-- The tables hold the installed hooks, the memory behind them is `mem`, and the kernel's
walks call exactly the installed hooks. -/
structure Installed (mem : Which → Table φ) (s : Hooks φ) (lists : Lists φ) : Prop where
  holds : ∀ which, Holds (s.table which) which.max (lists which)
  behind : ∀ which i, which.max < i → s.table which i = mem which i
  create : runHooks s.taskCreateHooks 0 MAX_TASK_CREATE_HOOKS = lists .create
  switch : switchLoop s.taskSwitchHooks 0 (MAX_TASK_SWITCH_HOOKS + 1) = some (lists .switch)
  delete : runHooks s.taskDeleteHooks 0 MAX_TASK_DELETE_HOOKS = lists .delete

/-- Every call of the run ends with the status of the call on the lists, and the tables hold
the lists before it, between the calls and after them. -/
def RunsRight (mem : Which → Table φ) (s : Hooks φ) (lists : Lists φ) : List (Call φ) → Prop
  | [] => Installed mem s lists
  | call :: calls =>
    Installed mem s lists ∧
      ∃ fuel s', s.call fuel call = some (s', (lists.call call).2) ∧
        RunsRight mem s' (lists.call call).1 calls

/-- A deletion of an installed hook finds the first occurrence at the end of the list. -/
def DeletesLast (lists : Lists φ) : Call φ → Prop
  | .add _ _ => True
  | .delete which hook =>
    hook ∈ lists which → (lists which).idxOf hook + 1 = (lists which).length

instance (lists : Lists φ) : DecidablePred (DeletesLast lists)
  | .add _ _ => inferInstanceAs (Decidable True)
  | .delete _ _ => inferInstanceAs (Decidable (_ → _))

/-- The calls as steps of the lists. -/
def Lists.step (lists : Lists φ) (call : Call φ) : Option (Lists φ) :=
  some (lists.call call).1

/-- The tables before the library is installed: the slots are zero. -/
def bss (mem : Which → Table φ) : Hooks φ where
  taskCreateHooks := fun i => if i ≤ MAX_TASK_CREATE_HOOKS then none else mem .create i
  taskSwitchHooks := fun i => if i ≤ MAX_TASK_SWITCH_HOOKS then none else mem .switch i
  taskDeleteHooks := fun i => if i ≤ MAX_TASK_DELETE_HOOKS then none else mem .delete i

/-! ## One call -/

section Call

variable {table : Table φ} {max : Nat} {hooks : List φ}

/-- What the search finds: the first slot with the value, or none of the slots has it. -/
theorem findSlot_cases (table : Table φ) (hook : Option φ) (i n : Nat) :
    (∃ k, findSlot table hook i n = some k ∧ i ≤ k ∧ k < i + n ∧ table k = hook ∧
        ∀ j, i ≤ j → j < k → table j ≠ hook) ∨
      findSlot table hook i n = none ∧ ∀ j, i ≤ j → j < i + n → table j ≠ hook := by
  induction n generalizing i with
  | zero => exact Or.inr ⟨rfl, fun j hi hj => by omega⟩
  | succ n ih =>
    by_cases ht : table i = hook
    · refine Or.inl ⟨i, if_pos ht, le_rfl, by omega, ht, fun j hi hj => by omega⟩
    have hne : ∀ j, i ≤ j → (i + 1 ≤ j → table j ≠ hook) → table j ≠ hook := by
      intro j hj hlater
      by_cases hij : j = i
      · rwa [hij]
      · exact hlater (by omega)
    have hstep : findSlot table hook i (n + 1) = findSlot table hook (i + 1) n := if_neg ht
    rcases ih (i + 1) with ⟨k, hk, hik, hkn, hat, hbefore⟩ | ⟨hk, hno⟩
    · refine Or.inl ⟨k, hstep.trans hk, by omega, by omega, hat, ?_⟩
      intro j hj hjk
      exact hne j hj fun h => hbefore j h hjk
    · refine Or.inr ⟨hstep.trans hk, ?_⟩
      intro j hj hjn
      exact hne j hj fun h => hno j h (by omega)

omit [DecidableEq φ] in
theorem Holds.slot_lt (h : Holds table max hooks) {i : Nat} (hi : i < hooks.length) :
    table i = some hooks[i] := by
  rw [h.slot i (by have := h.length_le; omega), List.getElem?_eq_getElem hi]

omit [DecidableEq φ] in
theorem Holds.slot_ge (h : Holds table max hooks) {i : Nat} (hlen : hooks.length ≤ i)
    (hi : i ≤ max) : table i = none := by
  rw [h.slot i hi, List.getElem?_eq_none hlen]

/-- The first NULL is behind the last hook. -/
theorem Holds.findSlot_none (h : Holds table max hooks) :
    findSlot table none 0 max = if hooks.length < max then some hooks.length else none := by
  rcases findSlot_cases table none 0 max with ⟨k, hk, -, hlt, hat, hbefore⟩ | ⟨hk, hno⟩
  · have hle : hooks.length ≤ k := by
      by_contra hlt'
      rw [h.slot_lt (by omega)] at hat
      exact absurd hat (Option.some_ne_none _)
    have heq : k = hooks.length := by
      by_contra hne
      exact hbefore hooks.length (by omega) (by omega) (h.slot_ge le_rfl h.length_le)
    rw [hk, heq, if_pos (by omega)]
  · have hfull : ¬ hooks.length < max := fun hlt =>
      hno hooks.length (by omega) (by omega) (h.slot_ge le_rfl h.length_le)
    rw [hk, if_neg hfull]

/-- The slot of a hook is that of its first occurrence. -/
theorem Holds.findSlot_some (h : Holds table max hooks) (hook : φ) :
    findSlot table (some hook) 0 max =
      if hook ∈ hooks then some (hooks.idxOf hook) else none := by
  have hlen := h.length_le
  rcases findSlot_cases table (some hook) 0 max with ⟨k, hk, -, hlt, hat, hbefore⟩ | ⟨hk, hno⟩
  · have hkl : k < hooks.length := by
      by_contra hge
      rw [h.slot_ge (by omega) (by omega)] at hat
      exact absurd hat (Option.some_ne_none _).symm
    have hget : hooks[k] = hook := Option.some.inj ((h.slot_lt hkl).symm.trans hat)
    have hmem : hook ∈ hooks := hget ▸ List.getElem_mem hkl
    have hidx := List.idxOf_lt_length_of_mem hmem
    have hle : hooks.idxOf hook ≤ k := by
      by_contra hgt
      have hno := List.not_of_lt_findIdx (show k < hooks.findIdx (· == hook) by
        rw [List.idxOf] at hgt
        omega)
      rw [hget, beq_self_eq_true] at hno
      exact Bool.noConfusion hno
    have hge : k ≤ hooks.idxOf hook := by
      by_contra hlt'
      refine hbefore (hooks.idxOf hook) (by omega) (by omega) ?_
      rw [h.slot_lt hidx, List.getElem_idxOf]
    rw [hk, if_pos hmem, le_antisymm hle hge]
  · have hmem : hook ∉ hooks := by
      intro hmem
      have hidx := List.idxOf_lt_length_of_mem hmem
      refine hno (hooks.idxOf hook) (by omega) (by omega) ?_
      rw [h.slot_lt hidx, List.getElem_idxOf]
    rw [hk, if_neg hmem]

omit [DecidableEq φ] in
/-- A hook goes into the first NULL slot. -/
theorem Holds.append (h : Holds table max hooks) (hlt : hooks.length < max) (hook : φ) :
    Holds (Function.update table hooks.length (some hook)) max (hooks ++ [hook]) := by
  refine ⟨by rw [List.length_append, List.length_singleton]; omega, ?_⟩
  intro i hi
  by_cases heq : i = hooks.length
  · rw [heq, Function.update_self, List.getElem?_concat_length]
  · rw [Function.update_of_ne heq, h.slot i hi]
    by_cases hil : i < hooks.length
    · rw [List.getElem?_append_left hil]
    · rw [List.getElem?_eq_none (by omega), List.getElem?_eq_none (by simp; omega)]

omit [DecidableEq φ] in
/-- The last hook leaves its slot. -/
theorem Holds.dropLast {hook : φ} (h : Holds table max (hooks ++ [hook])) :
    Holds (Function.update table hooks.length none) max hooks := by
  have hlen := h.length_le
  rw [List.length_append, List.length_singleton] at hlen
  refine ⟨by omega, ?_⟩
  intro i hi
  by_cases heq : i = hooks.length
  · rw [heq, Function.update_self, List.getElem?_eq_none le_rfl]
  · rw [Function.update_of_ne heq, h.slot i hi]
    by_cases hil : i < hooks.length
    · rw [List.getElem?_append_left hil]
    · rw [List.getElem?_eq_none (by simp; omega), List.getElem?_eq_none (by omega)]

omit [DecidableEq φ] in
theorem moveUp_of_last {i : Nat} (hnext : table (i + 1) = none) (fuel : Nat) :
    moveUp table i (fuel + 1) = some (Function.update table i none) := by
  rw [moveUp, hnext, Function.update_self]
  exact if_neg (not_not_intro rfl)

omit [DecidableEq φ] in
/-- The same slot is copied again and again when a hook follows. -/
theorem moveUp_of_next {i : Nat} (hnext : table (i + 1) ≠ none) (fuel : Nat) :
    moveUp table i fuel = none := by
  induction fuel generalizing table with
  | zero => rfl
  | succ fuel ih =>
    rw [moveUp, Function.update_self, if_pos hnext]
    apply ih
    rwa [Function.update_of_ne (Nat.succ_ne_self i)]

/-- A list whose first occurrence of a hook is the last entry. -/
theorem eq_concat_of_idxOf {hook : φ} (hlast : hooks.idxOf hook + 1 = hooks.length) :
    hooks = hooks.erase hook ++ [hook] ∧ (hooks.erase hook).length = hooks.idxOf hook := by
  have hidx : hooks.idxOf hook < hooks.length := by omega
  have hmem := List.idxOf_lt_length_iff.mp hidx
  have hlen : (hooks.erase hook).length = hooks.idxOf hook := by
    rw [List.length_erase_of_mem hmem]
    omega
  refine ⟨?_, hlen⟩
  have herase : hooks.erase hook = hooks.take (hooks.idxOf hook) := by
    rw [List.erase_eq_eraseIdx_of_idxOf rfl, List.eraseIdx_eq_take_drop_succ, hlast,
      List.drop_length, List.append_nil]
  rw [herase]
  conv_lhs => rw [← List.take_length (l := hooks), ← hlast, List.take_add_one]
  rw [List.getElem?_eq_getElem hidx, List.getElem_idxOf]
  rfl

/-- `taskHookAdd`. -/
theorem taskHookAdd_holds (h : Holds table max hooks) (hook : φ) :
    ∃ table', taskHookAdd (some hook) table max =
        (table', if hooks.length < max then .ok () else
          .error .S_taskLib_TASK_HOOK_TABLE_FULL) ∧
      Holds table' max (if hooks.length < max then hooks ++ [hook] else hooks) ∧
      ∀ i, max < i → table' i = table i := by
  rw [taskHookAdd, h.findSlot_none]
  by_cases hlt : hooks.length < max
  · rw [if_pos hlt, if_pos hlt, if_pos hlt]
    refine ⟨_, rfl, h.append hlt hook, ?_⟩
    intro i hi
    exact Function.update_of_ne (by omega) _ _
  · rw [if_neg hlt, if_neg hlt, if_neg hlt]
    exact ⟨_, rfl, h, fun i _ => rfl⟩

/-- `taskHookDelete`, when the hook is the last one or not in the table. -/
theorem taskHookDelete_holds (h : Holds table max hooks) (hook : φ)
    (hlast : hook ∈ hooks → hooks.idxOf hook + 1 = hooks.length) :
    ∃ table', taskHookDelete 1 (some hook) table max =
        some (table', if hook ∈ hooks then .ok () else
          .error .S_taskLib_TASK_HOOK_NOT_FOUND) ∧
      Holds table' max (if hook ∈ hooks then hooks.erase hook else hooks) ∧
      ∀ i, max < i → table' i = table i := by
  rw [taskHookDelete, h.findSlot_some]
  by_cases hmem : hook ∈ hooks
  · rw [if_pos hmem, if_pos hmem, if_pos hmem]
    obtain ⟨hsplit, hlen⟩ := eq_concat_of_idxOf (hlast hmem)
    have hle := h.length_le
    have hnext : table (hooks.idxOf hook + 1) = none :=
      h.slot_ge (by rw [hlast hmem]) (by rw [hlast hmem]; exact hle)
    have hdrop := (hsplit ▸ h : Holds table max (hooks.erase hook ++ [hook])).dropLast
    rw [hlen] at hdrop
    dsimp only
    rw [moveUp_of_last hnext 0, Option.map_some]
    refine ⟨_, rfl, hdrop, ?_⟩
    intro i hi
    exact Function.update_of_ne (by have := hlast hmem; omega) _ _
  · rw [if_neg hmem, if_neg hmem, if_neg hmem]
    exact ⟨_, rfl, h, fun i _ => rfl⟩

/-- `taskHookDelete` does not end when another hook follows. -/
theorem taskHookDelete_of_next (h : Holds table max hooks) {hook : φ} (hmem : hook ∈ hooks)
    (hnext : hooks.idxOf hook + 1 ≠ hooks.length) (fuel : Nat) :
    taskHookDelete fuel (some hook) table max = none := by
  have hidx := List.idxOf_lt_length_of_mem hmem
  rw [taskHookDelete, h.findSlot_some, if_pos hmem]
  have hslot : table (hooks.idxOf hook + 1) ≠ none := by
    rw [h.slot_lt (by omega)]
    exact Option.some_ne_none _
  dsimp only
  rw [moveUp_of_next hslot, Option.map_none]

omit [DecidableEq φ] in
/-- The loops over a table's slots meet its hooks. -/
theorem Holds.runHooks_drop (h : Holds table max hooks) {i n : Nat} (hin : i + n = max) :
    runHooks table i n = hooks.drop i := by
  have hle := h.length_le
  induction n generalizing i with
  | zero => rw [runHooks, List.drop_eq_nil_of_le (by omega)]
  | succ n ih =>
    rw [runHooks, ih (by omega)]
    by_cases hi : i < hooks.length
    · rw [h.slot_lt hi, List.drop_eq_getElem_cons hi]
    · rw [h.slot_ge (by omega) (by omega), List.drop_eq_nil_of_le (by omega),
        List.drop_eq_nil_of_le (by omega)]

omit [DecidableEq φ] in
/-- The walk up to the first NULL meets them and ends. -/
theorem Holds.switchLoop_drop (h : Holds table max hooks) {i n : Nat} (hin : i + n = max) :
    switchLoop table i (n + 1) = some (hooks.drop i) := by
  have hle := h.length_le
  induction n generalizing i with
  | zero =>
    rw [switchLoop, h.slot_ge (by omega) (by omega), List.drop_eq_nil_of_le (by omega)]
  | succ n ih =>
    rw [switchLoop]
    by_cases hi : i < hooks.length
    · rw [h.slot_lt hi, List.drop_eq_getElem_cons hi]
      dsimp only
      rw [ih (by omega), Option.map_some]
    · rw [h.slot_ge (by omega) (by omega), List.drop_eq_nil_of_le (by omega)]

end Call

/-! ## Runs -/

section Runs

variable {mem : Which → Table φ} {s : Hooks φ} {lists : Lists φ}

omit [DecidableEq φ] in
/-- The walks of the kernel follow from what the tables hold. -/
theorem Installed.of_holds (hholds : ∀ which, Holds (s.table which) which.max (lists which))
    (hbehind : ∀ which i, which.max < i → s.table which i = mem which i) :
    Installed mem s lists where
  holds := hholds
  behind := hbehind
  create := (hholds .create).runHooks_drop (Nat.zero_add _)
  switch := (hholds .switch).switchLoop_drop (Nat.zero_add _)
  delete := (hholds .delete).runHooks_drop (Nat.zero_add _)

/-- A call of `taskHookAdd` changes the one table. -/
theorem call_add (fuel : Nat) (s : Hooks φ) (which : Which) (hook : φ) :
    ∃ s', s.call fuel (.add which hook) =
        some (s', (taskHookAdd (some hook) (s.table which) which.max).2) ∧
      s'.table = Function.update s.table which
        (taskHookAdd (some hook) (s.table which) which.max).1 := by
  cases which with
  | create => exact ⟨_, rfl, funext fun w => by cases w <;> rfl⟩
  | switch => exact ⟨_, rfl, funext fun w => by cases w <;> rfl⟩
  | delete => exact ⟨_, rfl, funext fun w => by cases w <;> rfl⟩

/-- A call of `taskHookDelete` changes the one table when it ends. -/
theorem call_delete (fuel : Nat) (s : Hooks φ) (which : Which) (hook : φ) :
    match taskHookDelete fuel (some hook) (s.table which) which.max with
    | none => s.call fuel (.delete which hook) = none
    | some (table, status) =>
      ∃ s', s.call fuel (.delete which hook) = some (s', status) ∧
        s'.table = Function.update s.table which table := by
  cases hdelete : taskHookDelete fuel (some hook) (s.table which) which.max with
  | none =>
    cases which with
    | create => exact congrArg (Option.map _) hdelete
    | switch => exact congrArg (Option.map _) hdelete
    | delete => exact congrArg (Option.map _) hdelete
  | some r =>
    cases which with
    | create =>
      exact ⟨_, congrArg (Option.map _) hdelete, funext fun w => by cases w <;> rfl⟩
    | switch =>
      exact ⟨_, congrArg (Option.map _) hdelete, funext fun w => by cases w <;> rfl⟩
    | delete =>
      exact ⟨_, congrArg (Option.map _) hdelete, funext fun w => by cases w <;> rfl⟩

omit [DecidableEq φ] in
/-- One table and its list change. -/
theorem Installed.update {s' : Hooks φ} (h : Installed mem s lists) {which : Which}
    {table : Table φ} {hooks : List φ} (htable : s'.table = Function.update s.table which table)
    (hholds : Holds table which.max hooks)
    (hbehind : ∀ i, which.max < i → table i = s.table which i) :
    Installed mem s' (Function.update lists which hooks) := by
  apply Installed.of_holds
  · intro w
    rw [htable]
    by_cases hw : w = which
    · rw [hw, Function.update_self, Function.update_self]
      exact hholds
    · rw [Function.update_of_ne hw, Function.update_of_ne hw]
      exact h.holds w
  · intro w i hi
    rw [htable]
    by_cases hw : w = which
    · rw [hw] at hi ⊢
      rw [Function.update_self, hbehind i hi, h.behind which i hi]
    · rw [Function.update_of_ne hw]
      exact h.behind w i hi

theorem Lists.call_add (lists : Lists φ) (which : Which) (hook : φ) :
    lists.call (.add which hook) =
      (Function.update lists which
        (if (lists which).length < which.max then lists which ++ [hook] else lists which),
        if (lists which).length < which.max then .ok ()
        else .error .S_taskLib_TASK_HOOK_TABLE_FULL) := by
  rw [Lists.call]
  split_ifs
  · rfl
  · rw [Function.update_eq_self]

theorem Lists.call_delete (lists : Lists φ) (which : Which) (hook : φ) :
    lists.call (.delete which hook) =
      (Function.update lists which
        (if hook ∈ lists which then (lists which).erase hook else lists which),
        if hook ∈ lists which then .ok () else .error .S_taskLib_TASK_HOOK_NOT_FOUND) := by
  rw [Lists.call]
  split_ifs
  · rfl
  · rw [Function.update_eq_self]

/-- A call that meets the condition ends, and the tables follow the lists. -/
theorem call_of_deletesLast (h : Installed mem s lists) {call : Call φ}
    (hlast : DeletesLast lists call) :
    ∃ s', s.call 1 call = some (s', (lists.call call).2) ∧
      Installed mem s' (lists.call call).1 := by
  cases call with
  | add which hook =>
    obtain ⟨s', hcall, htable⟩ := TaskHook.call_add 1 s which hook
    obtain ⟨table, hadd, hholds, hbehind⟩ := taskHookAdd_holds (h.holds which) hook
    rw [hadd] at hcall htable
    rw [Lists.call_add]
    exact ⟨s', hcall, h.update htable hholds hbehind⟩
  | delete which hook =>
    obtain ⟨table, hdelete, hholds, hbehind⟩ := taskHookDelete_holds (h.holds which) hook hlast
    have hcall := TaskHook.call_delete 1 s which hook
    rw [hdelete] at hcall
    obtain ⟨s', hcall, htable⟩ := hcall
    rw [Lists.call_delete]
    exact ⟨s', hcall, h.update htable hholds hbehind⟩

/-- A call that does not meet it never ends. -/
theorem call_of_not_deletesLast (h : Installed mem s lists) {call : Call φ}
    (hnext : ¬ DeletesLast lists call) (fuel : Nat) : s.call fuel call = none := by
  cases call with
  | add which hook => exact absurd trivial hnext
  | delete which hook =>
    have hmem : hook ∈ lists which := by
      by_contra hno
      exact hnext fun hmem => absurd hmem hno
    have hidx : (lists which).idxOf hook + 1 ≠ (lists which).length := fun heq =>
      hnext fun _ => heq
    have hcall := TaskHook.call_delete fuel s which hook
    rw [taskHookDelete_of_next (h.holds which) hmem hidx] at hcall
    exact hcall

theorem RunsRight.installed {calls : List (Call φ)} (h : RunsRight mem s lists calls) :
    Installed mem s lists := by
  cases calls with
  | nil => exact h
  | cons call calls => exact h.1

/-- From tables that hold the lists, a run is right exactly when each of its calls meets the
condition. -/
theorem runsRight_iff (h : Installed mem s lists) (calls : List (Call φ)) :
    RunsRight mem s lists calls ↔ AllSteps Lists.step DeletesLast lists calls := by
  induction calls generalizing s lists with
  | nil => exact ⟨fun _ => trivial, fun _ => h⟩
  | cons call calls ih =>
    constructor
    · rintro ⟨-, fuel, s', hcall, hrun⟩
      refine ⟨?_, (ih hrun.installed).mp hrun⟩
      by_contra hnext
      rw [call_of_not_deletesLast h hnext fuel] at hcall
      exact absurd hcall.symm (Option.some_ne_none _)
    · rintro ⟨hlast, hrest⟩
      obtain ⟨s', hcall, hinst⟩ := call_of_deletesLast h hlast
      exact ⟨h, 1, s', hcall, (ih hinst).mpr hrest⟩

omit [DecidableEq φ] in
theorem clearSlots_eq (table : Table φ) (i n : Nat) (j : Nat) :
    clearSlots table i n j = if i ≤ j ∧ j < i + n then none else table j := by
  induction n generalizing table i with
  | zero => rw [clearSlots, if_neg (by omega)]
  | succ n ih =>
    rw [clearSlots, ih]
    by_cases hj : i + 1 ≤ j ∧ j < i + 1 + n
    · rw [if_pos hj, if_pos (by omega)]
    · rw [if_neg hj]
      by_cases hij : j = i
      · rw [hij, Function.update_self, if_pos (by omega)]
      · rw [Function.update_of_ne hij, if_neg (by omega)]

omit [DecidableEq φ] in
/-- No hooks are installed at the start. -/
theorem installed_init (mem : Which → Table φ) :
    Installed mem (taskHookLibInit (bss mem)) fun _ => [] := by
  have hslot : ∀ which i, (taskHookLibInit (bss mem)).table which i =
      if i ≤ which.max then none else mem which i := by
    intro which i
    have hclear : ∀ (table : Table φ) (max : Nat),
        clearSlots (fun i => if i ≤ max then none else table i) 0 max i =
          if i ≤ max then none else table i := by
      intro table max
      rw [clearSlots_eq]
      split_ifs with h1 h2 h3
      · rfl
      · omega
      · rfl
      · rfl
    cases which with
    | create => exact hclear _ _
    | switch => exact hclear _ _
    | delete => exact hclear _ _
  apply Installed.of_holds
  · intro which
    refine ⟨Nat.zero_le _, ?_⟩
    intro i hi
    rw [hslot, if_pos hi, List.getElem?_nil]
  · intro which i hi
    rw [hslot, if_neg (by omega)]

/-- In a run of calls from the start every call ends, with the status and the tables that the
lists have, exactly when no hook is deleted in front of another one. -/
theorem hook_tables_iff (mem : Which → Table φ) (calls : List (Call φ)) :
    RunsRight mem (taskHookLibInit (bss mem)) (fun _ => []) calls ↔
      AllSteps Lists.step DeletesLast (fun _ => []) calls :=
  runsRight_iff (installed_init mem) calls

/-- The first of two hooks is deleted. -/
theorem hook_tables_stuck :
    ¬ RunsRight (fun _ _ => none) (taskHookLibInit (bss fun _ _ => none)) (fun _ => [])
      [.add .switch false, .add .switch true, .delete .switch false] := by
  intro h
  have hsteps := (runsRight_iff (installed_init _) _).mp h
  exact absurd hsteps (by decide)

end Runs

end Vmx.TaskHook
