import Vmx.Os.TaskHook
import Mathlib.Algebra.BigOperators.Group.Finset.Piecewise
import Mathlib.Algebra.Order.BigOperators.Group.Finset

/-!
# `taskHookLib`: the swap hooks

A swap hook is in a slot of `taskSwapHooks`, and a task that is attached to it has the bit of
that slot, counted from the left, in its `swapInMask` or `swapOutMask`.  `taskSwapReference`
counts these bits for each slot.  `vmxDelete` takes the bits of a deleted task off the counts.

The module has the functions of the source, the calls as steps of the system (`call`), and
what each call has to do (`CallRight`).  `Inv.callRight_iff` is the step lemma: a call
does it, and keeps the counts right, exactly when it is no `taskSwapHookDetach` whose result
depends on the test of the masks, which is the wrong way round.  `swap_hooks_iff` is about
runs.
-/

namespace Vmx.TaskSwap

open Lib
open TaskHook (Errno Status Table findSlot clearSlots)

/-- The masks of a TCB. -/
structure Tcb where
  swapInMask : BitVec 16
  swapOutMask : BitVec 16
  deriving DecidableEq

def MAX_TASK_SWAP_HOOKS : Nat := 16

/-- The tables, the live tasks and the running one; the ids of tasks are the addresses of
their TCBs, and not 0. -/
structure State (φ : Type) where
  taskSwapHooks : Table φ
  taskSwapReference : Nat → Int
  active : Finset Nat
  tcb : Nat → Tcb
  taskIdCurrent : Nat

variable {φ : Type} [DecidableEq φ]

/-- `taskTcb`. -/
def taskTcb (s : State φ) (taskId : Nat) : Option Nat :=
  if taskId = 0 then some s.taskIdCurrent
  else if taskId ∈ s.active then some taskId
  else none

/-- `indexBit`. -/
def indexBit (index : Nat) : BitVec 16 := 1#16 <<< (15 - index)

/-- The test that `taskSwapMaskSet` and `taskSwapMaskClear` share: a requested bit is set. -/
def testMasks (tcb : Tcb) (bit : BitVec 16) (swapIn swapOut : Bool) : Bool :=
  (swapIn && tcb.swapInMask &&& bit != 0) || (swapOut && tcb.swapOutMask &&& bit != 0)

/-- `taskSwapMaskSet`. -/
def taskSwapMaskSet (s : State φ) (taskId index : Nat) (swapIn swapOut : Bool) :
    State φ × Status :=
  match taskTcb s taskId with
  | none => (s, .error .S_objLib_INVALID_TASK_ID)
  | some tcbId =>
    let tcb := s.tcb tcbId
    let bit := indexBit index
    if testMasks tcb bit swapIn swapOut then (s, .error .S_taskLib_TASK_SWAP_HOOK_SET)
    else
      let tcb := if swapIn then { tcb with swapInMask := tcb.swapInMask ||| bit } else tcb
      let tcb := if swapOut then { tcb with swapOutMask := tcb.swapOutMask ||| bit } else tcb
      ({ s with tcb := Function.update s.tcb tcbId tcb }, .ok ())

/-- `taskSwapMaskClear`.  The test is that of `taskSwapMaskSet`. -/
def taskSwapMaskClear (s : State φ) (taskId index : Nat) (swapIn swapOut : Bool) :
    State φ × Status :=
  match taskTcb s taskId with
  | none => (s, .error .S_objLib_INVALID_TASK_ID)
  | some tcbId =>
    let tcb := s.tcb tcbId
    let bit := indexBit index
    if testMasks tcb bit swapIn swapOut then (s, .error .S_taskLib_TASK_SWAP_HOOK_CLEAR)
    else
      let tcb := if swapIn then { tcb with swapInMask := tcb.swapInMask &&& ~~~bit } else tcb
      let tcb := if swapOut then { tcb with swapOutMask := tcb.swapOutMask &&& ~~~bit } else tcb
      ({ s with tcb := Function.update s.tcb tcbId tcb }, .ok ())

/-- Add to the reference count of a slot. -/
def addReference (s : State φ) (i : Nat) (x : Int) : State φ :=
  { s with taskSwapReference := Function.update s.taskSwapReference i (s.taskSwapReference i + x) }

/-- `taskSwapHookAdd`. -/
def taskSwapHookAdd (s : State φ) (hook : Option φ) : State φ × Status :=
  match findSlot s.taskSwapHooks none 0 MAX_TASK_SWAP_HOOKS with
  | some i =>
    ({ s with
        taskSwapHooks := Function.update s.taskSwapHooks i hook
        taskSwapReference := Function.update s.taskSwapReference i 0 }, .ok ())
  | none => (s, .error .S_taskLib_TASK_HOOK_TABLE_FULL)

/-- `taskSwapHookAttach`. -/
def taskSwapHookAttach (s : State φ) (hook : Option φ) (taskId : Nat) (swapIn swapOut : Bool) :
    State φ × Status :=
  match findSlot s.taskSwapHooks hook 0 MAX_TASK_SWAP_HOOKS with
  | some i =>
    match taskSwapMaskSet s taskId i swapIn swapOut with
    | (s, .ok ()) =>
      let s := addReference s i (if swapIn then 1 else 0)
      let s := addReference s i (if swapOut then 1 else 0)
      (s, .ok ())
    | (s, .error errno) => (s, .error errno)
  | none => (s, .error .S_taskLib_TASK_HOOK_NOT_FOUND)

/-- `taskSwapHookDetach`. -/
def taskSwapHookDetach (s : State φ) (hook : Option φ) (taskId : Nat) (swapIn swapOut : Bool) :
    State φ × Status :=
  match findSlot s.taskSwapHooks hook 0 MAX_TASK_SWAP_HOOKS with
  | some i =>
    match taskSwapMaskClear s taskId i swapIn swapOut with
    | (s, .ok ()) =>
      let s := addReference s i (-(if swapIn then 1 else 0))
      let s := addReference s i (-(if swapOut then 1 else 0))
      (s, .ok ())
    | (s, .error errno) => (s, .error errno)
  | none => (s, .error .S_taskLib_TASK_HOOK_NOT_FOUND)

/-- `taskSwapHookDelete`. -/
def taskSwapHookDelete (s : State φ) (hook : Option φ) : State φ × Status :=
  match findSlot s.taskSwapHooks hook 0 MAX_TASK_SWAP_HOOKS with
  | some i =>
    if s.taskSwapReference i ≠ 0 then (s, .error .S_taskLib_TASK_SWAP_HOOK_REFERENCED)
    else ({ s with taskSwapHooks := Function.update s.taskSwapHooks i none }, .ok ())
  | none => (s, .error .S_taskLib_TASK_HOOK_NOT_FOUND)

/-- A loop of `vmxDelete` that disconnects a task from the swap hooks; `none` says that the
mask is not zero after `fuel` rounds. -/
def disconnect (reference : Nat → Int) (mask : BitVec 16) (i : Nat) :
    Nat → Option (Nat → Int)
  | 0 => if mask ≠ 0 then none else some reference
  | fuel + 1 =>
    if mask ≠ 0 then
      let reference :=
        if mask &&& 0x8000 ≠ 0 then Function.update reference i (reference i - 1) else reference
      disconnect reference (mask <<< 1) (i + 1) fuel
    else some reference

/-- `vmxDelete`, as far as the swap hooks are concerned. -/
def vmxDelete (s : State φ) (tcbId : Nat) : Option (State φ) :=
  match disconnect s.taskSwapReference (s.tcb tcbId).swapInMask 0 16 with
  | none => none
  | some reference =>
    match disconnect reference (s.tcb tcbId).swapOutMask 0 16 with
    | none => none
    | some reference =>
      some { s with taskSwapReference := reference, active := s.active.erase tcbId }

/-- `taskInit`, as far as the swap hooks are concerned: a new task. -/
def taskInit (s : State φ) (tcbId : Nat) : State φ :=
  { s with
    active := insert tcbId s.active
    tcb := Function.update s.tcb tcbId { swapInMask := 0, swapOutMask := 0 } }

/-- The loop of `taskHookLibInit` over the reference counts. -/
def clearReferences (reference : Nat → Int) (i : Nat) : Nat → Nat → Int
  | 0 => reference
  | n + 1 => clearReferences (Function.update reference i 0) (i + 1) n

/-- `taskHookLibInit`, as far as the swap hooks are concerned. -/
def taskHookLibInit (s : State φ) : State φ :=
  { s with
    taskSwapHooks := clearSlots s.taskSwapHooks 0 MAX_TASK_SWAP_HOOKS
    taskSwapReference := clearReferences s.taskSwapReference 0 MAX_TASK_SWAP_HOOKS }

/-! ## Calls -/

/-- What happens: the calls of the running task, and tasks that come, run and go. -/
inductive Call (φ : Type) where
  | add (hook : φ)
  | attach (hook : φ) (taskId : Nat) (swapIn swapOut : Bool)
  | detach (hook : φ) (taskId : Nat) (swapIn swapOut : Bool)
  | delete (hook : φ)
  | create (tcbId : Nat)
  | destroy (tcbId : Nat)
  | run (tcbId : Nat)

/-- A step with its status.  Calls need a running task, and it runs, ends and is no other
task only while it is live. -/
def call (s : State φ) : Call φ → Option (State φ × Status)
  | .add hook =>
    if s.taskIdCurrent ∈ s.active then some (taskSwapHookAdd s (some hook)) else none
  | .attach hook taskId swapIn swapOut =>
    if s.taskIdCurrent ∈ s.active then
      some (taskSwapHookAttach s (some hook) taskId swapIn swapOut)
    else none
  | .detach hook taskId swapIn swapOut =>
    if s.taskIdCurrent ∈ s.active then
      some (taskSwapHookDetach s (some hook) taskId swapIn swapOut)
    else none
  | .delete hook =>
    if s.taskIdCurrent ∈ s.active then some (taskSwapHookDelete s (some hook)) else none
  | .create tcbId =>
    if tcbId ∈ s.active ∨ tcbId = 0 then none else some (taskInit s tcbId, .ok ())
  | .destroy tcbId =>
    if tcbId ∈ s.active then (vmxDelete s tcbId).map fun s => (s, .ok ()) else none
  | .run tcbId =>
    if tcbId ∈ s.active then some ({ s with taskIdCurrent := tcbId }, .ok ()) else none

def step (s : State φ) (l : Call φ) : Option (State φ) := (call s l).map Prod.fst

/-! ## What the calls are for -/

/-- The swap-in bit of a slot. -/
def Tcb.isIn (tcb : Tcb) (i : Nat) : Bool := tcb.swapInMask.getMsbD i

/-- The swap-out bit of a slot. -/
def Tcb.isOut (tcb : Tcb) (i : Nat) : Bool := tcb.swapOutMask.getMsbD i

/-- How many bits of a slot a task has set. -/
def Tcb.bits (tcb : Tcb) (i : Nat) : Int := (tcb.isIn i).toInt + (tcb.isOut i).toInt

/-- The reference counts are the numbers of bits set over the live tasks. -/
def Counted (s : State φ) : Prop :=
  ∀ i < MAX_TASK_SWAP_HOOKS, s.taskSwapReference i = s.active.sum fun t => (s.tcb t).bits i

/-- The slot of a hook. -/
def slotOf (s : State φ) (hook : φ) : Option Nat :=
  findSlot s.taskSwapHooks (some hook) 0 MAX_TASK_SWAP_HOOKS

/-- Only the bits that are requested for slot `i` of task `t` change, to `value`. -/
structure Sets (s s' : State φ) (t i : Nat) (swapIn swapOut value : Bool) : Prop where
  hooks : s'.taskSwapHooks = s.taskSwapHooks
  active : s'.active = s.active
  current : s'.taskIdCurrent = s.taskIdCurrent
  isIn : ∀ u j, (s'.tcb u).isIn j =
    if u = t ∧ j = i ∧ swapIn then value else (s.tcb u).isIn j
  isOut : ∀ u j, (s'.tcb u).isOut j =
    if u = t ∧ j = i ∧ swapOut then value else (s.tcb u).isOut j

/-- All requested bits of a slot have the value. -/
def Tcb.All (tcb : Tcb) (i : Nat) (swapIn swapOut value : Bool) : Prop :=
  (swapIn = true → tcb.isIn i = value) ∧ (swapOut = true → tcb.isOut i = value)

instance (tcb : Tcb) (i : Nat) (swapIn swapOut value : Bool) :
    Decidable (tcb.All i swapIn swapOut value) :=
  inferInstanceAs (Decidable (_ ∧ _))

/-- An attachment, or a detachment, does what it is for: it succeeds exactly when the requested
bits of the task all have the other value, and then gives them this one. -/
def ChangeRight (s s' : State φ) (status : Status) (hook : φ) (taskId : Nat)
    (swapIn swapOut value : Bool) : Prop :=
  match slotOf s hook, taskTcb s taskId with
  | some i, some t =>
    (status = .ok () ↔ (s.tcb t).All i swapIn swapOut !value) ∧
      (status = .ok () → Sets s s' t i swapIn swapOut value)
  | _, _ => status ≠ .ok ()

/-- A call does what it is for, and a failing call changes nothing; a hook is deleted only while
no live task has a bit of its slot. -/
def CallRight (s s' : State φ) (status : Status) (l : Call φ) : Prop :=
  (status ≠ .ok () → s' = s) ∧
    match l with
    | .attach hook taskId swapIn swapOut =>
      ChangeRight s s' status hook taskId swapIn swapOut true
    | .detach hook taskId swapIn swapOut =>
      ChangeRight s s' status hook taskId swapIn swapOut false
    | .delete hook =>
      status = .ok () → ∃ i, slotOf s hook = some i ∧ ∀ t ∈ s.active, (s.tcb t).bits i = 0
    | _ => True

/-- The counts are right before and after each call of a run, and each call does what it is
for. -/
def RunsRight (s : State φ) : List (Call φ) → Prop
  | [] => Counted s
  | l :: ls =>
    Counted s ∧
      match call s l with
      | none => True
      | some (s', status) => CallRight s s' status l ∧ RunsRight s' ls

/-- The requested bits are none, or one that is set and one that is not. -/
def Tcb.Mixed (tcb : Tcb) (i : Nat) (swapIn swapOut : Bool) : Prop :=
  swapIn = swapOut ∧ (swapIn = true → tcb.isIn i ≠ tcb.isOut i)

instance (tcb : Tcb) (i : Nat) (swapIn swapOut : Bool) : Decidable (tcb.Mixed i swapIn swapOut) :=
  inferInstanceAs (Decidable (_ ∧ _))

/-- A `taskSwapHookDetach` of a hook that is there, from a task that is there, asks for no bit,
or for one that is set and one that is not. -/
def DetachesMixed (s : State φ) : Call φ → Prop
  | .detach hook taskId swapIn swapOut =>
    s.taskIdCurrent ∈ s.active → ∀ i ∈ slotOf s hook, ∀ t ∈ taskTcb s taskId,
      (s.tcb t).Mixed i swapIn swapOut
  | _ => True

instance (s : State φ) : DecidablePred (DetachesMixed s)
  | .detach hook taskId swapIn swapOut =>
    inferInstanceAs (Decidable (s.taskIdCurrent ∈ s.active → ∀ i ∈ slotOf s hook,
      ∀ t ∈ taskTcb s taskId, (s.tcb t).Mixed i swapIn swapOut))
  | .add _ => inferInstanceAs (Decidable True)
  | .attach _ _ _ _ => inferInstanceAs (Decidable True)
  | .delete _ => inferInstanceAs (Decidable True)
  | .create _ => inferInstanceAs (Decidable True)
  | .destroy _ => inferInstanceAs (Decidable True)
  | .run _ => inferInstanceAs (Decidable True)

/-! ## Bits of a mask -/

section Bits

variable {mask : BitVec 16} {i : Nat}

theorem getMsbD_indexBit (hi : i < 16) (j : Nat) : (indexBit i).getMsbD j = decide (j = i) := by
  rw [indexBit, BitVec.getMsbD_shiftLeft, BitVec.getMsbD_eq_getLsbD, BitVec.getLsbD_one]
  by_cases hj : j = i
  · rw [hj]
    simp
    omega
  · by_cases hlt : j < 16
    · simp [hj]
      omega
    · simp [hj]
      omega

theorem and_indexBit (hi : i < 16) : (mask &&& indexBit i != 0) = mask.getMsbD i := by
  cases hbit : mask.getMsbD i with
  | true =>
    rw [bne_iff_ne]
    intro hzero
    have hget : (mask &&& indexBit i).getMsbD i = true := by
      rw [BitVec.getMsbD_and, getMsbD_indexBit hi, hbit, decide_eq_true rfl]
      rfl
    rw [hzero] at hget
    exact absurd hget (by simp)
  | false =>
    rw [bne_eq_false_iff_eq]
    apply BitVec.eq_of_getMsbD_eq
    intro j hj
    rw [BitVec.getMsbD_and, getMsbD_indexBit hi]
    by_cases hij : j = i
    · rw [hij, hbit]
      simp
    · rw [decide_eq_false hij, Bool.and_false]
      simp

theorem or_indexBit (hi : i < 16) (j : Nat) :
    (mask ||| indexBit i).getMsbD j = if j = i then true else mask.getMsbD j := by
  rw [BitVec.getMsbD_or, getMsbD_indexBit hi]
  split_ifs with hij
  · rw [decide_eq_true hij, Bool.or_true]
  · rw [decide_eq_false hij, Bool.or_false]

theorem and_not_indexBit (hi : i < 16) (j : Nat) :
    (mask &&& ~~~indexBit i).getMsbD j = if j = i then false else mask.getMsbD j := by
  rw [BitVec.getMsbD_and, BitVec.getMsbD_not, getMsbD_indexBit hi]
  split_ifs with hij
  · rw [decide_eq_true hij, Bool.not_true, Bool.and_false, Bool.and_false]
  · rw [decide_eq_false hij, Bool.not_false, Bool.and_true]
    by_cases hj : j < 16
    · rw [decide_eq_true hj, Bool.and_true]
    · rw [BitVec.getMsbD_of_ge _ _ (by omega), Bool.false_and]

theorem and_0x8000 : mask &&& 0x8000 ≠ 0 ↔ mask.getMsbD 0 = true := by
  rw [← and_indexBit (by omega : 0 < 16), bne_iff_ne]
  exact Iff.rfl

theorem disconnect_zero (reference : Nat → Int) (i : Nat) :
    reference = fun j =>
      reference j - if i ≤ j then ((0 : BitVec 16).getMsbD (j - i)).toInt else 0 := by
  funext j
  simp

/-- One round: the first bit of the mask belongs to slot `i`. -/
theorem disconnect_round (reference : Nat → Int) (i j : Nat) :
    (if mask &&& 0x8000 ≠ 0 then Function.update reference i (reference i - 1)
      else reference) j = reference j - if j = i then (mask.getMsbD 0).toInt else 0 := by
  by_cases hbit : mask.getMsbD 0 = true
  · rw [if_pos (and_0x8000.mpr hbit), hbit]
    by_cases hj : j = i
    · rw [hj, Function.update_self, if_pos rfl]
      rfl
    · rw [Function.update_of_ne hj, if_neg hj, sub_zero]
  · rw [if_neg fun h => hbit (and_0x8000.mp h), eq_false_of_ne_true hbit]
    split_ifs
    · exact (sub_zero _).symm
    · exact (sub_zero _).symm

/-- The loop takes one off the count of each slot whose bit is set, and ends. -/
theorem disconnect_eq (reference : Nat → Int) (fuel : Nat)
    (hmask : ∀ k, fuel ≤ k → mask.getMsbD k = false) :
    disconnect reference mask i fuel =
      some fun j => reference j - if i ≤ j then (mask.getMsbD (j - i)).toInt else 0 := by
  induction fuel generalizing reference mask i with
  | zero =>
    have h0 : mask = 0 := by
      apply BitVec.eq_of_getMsbD_eq
      intro j hj
      rw [hmask j (Nat.zero_le j)]
      simp
    rw [disconnect, if_neg (not_not_intro h0), h0]
    exact congrArg some (disconnect_zero reference i)
  | succ fuel ih =>
    rw [disconnect]
    by_cases h0 : mask = 0
    · rw [if_neg (not_not_intro h0), h0]
      exact congrArg some (disconnect_zero reference i)
    have hshift : ∀ k, (mask <<< 1).getMsbD k = mask.getMsbD (k + 1) := by
      intro k
      rw [BitVec.getMsbD_shiftLeft, Nat.add_comm]
    rw [if_pos h0]
    dsimp only
    rw [ih]
    · congr 1
      funext j
      rw [disconnect_round, hshift]
      rcases Nat.lt_trichotomy i j with hlt | heq | hgt
      · rw [if_neg (by omega), if_pos (by omega), if_pos (by omega), sub_zero,
          show j - (i + 1) + 1 = j - i by omega]
      · rw [if_pos heq.symm, if_neg (by omega), if_pos (by omega), sub_zero, heq, Nat.sub_self]
      · rw [if_neg (by omega), if_neg (by omega), if_neg (by omega), sub_zero]
    · intro k hk
      rw [hshift]
      exact hmask (k + 1) (by omega)

end Bits

/-! ## The mask functions -/

section Masks

variable {s : State φ} {taskId t i : Nat} {swapIn swapOut : Bool}

/-- The shared test: not all requested bits are clear. -/
theorem testMasks_iff (hi : i < 16) (tcb : Tcb) :
    testMasks tcb (indexBit i) swapIn swapOut = true ↔ ¬ tcb.All i swapIn swapOut false := by
  rw [testMasks, and_indexBit hi, and_indexBit hi, Tcb.All, Tcb.isIn, Tcb.isOut]
  cases tcb.swapInMask.getMsbD i <;> cases tcb.swapOutMask.getMsbD i <;>
    cases swapIn <;> cases swapOut <;> simp

omit [DecidableEq φ] in
theorem addReference_two (s : State φ) (i : Nat) (x y : Int) (j : Nat) :
    (addReference (addReference s i x) i y).taskSwapReference j =
      s.taskSwapReference j + if j = i then x + y else 0 := by
  by_cases hj : j = i
  · rw [hj, if_pos rfl, ← Int.add_assoc]
    dsimp only [addReference]
    rw [Function.update_self, Function.update_self]
  · rw [if_neg hj, add_zero]
    dsimp only [addReference]
    rw [Function.update_of_ne hj, Function.update_of_ne hj]

omit [DecidableEq φ] in
/-- One TCB is replaced by one in which the requested bits have the value. -/
theorem Sets.of_update {tcb : Tcb} {value : Bool}
    (hin : ∀ j, tcb.isIn j = if j = i ∧ swapIn then value else (s.tcb t).isIn j)
    (hout : ∀ j, tcb.isOut j = if j = i ∧ swapOut then value else (s.tcb t).isOut j)
    (x y : Int) :
    Sets s (addReference (addReference { s with tcb := Function.update s.tcb t tcb } i x) i y)
      t i swapIn swapOut value where
  hooks := rfl
  active := rfl
  current := rfl
  isIn := by
    intro u j
    by_cases hu : u = t
    · simp only [addReference, hu, Function.update_self, hin, true_and]
    · simp only [addReference, Function.update_of_ne hu, hu, false_and, if_false]
  isOut := by
    intro u j
    by_cases hu : u = t
    · simp only [addReference, hu, Function.update_self, hout, true_and]
    · simp only [addReference, Function.update_of_ne hu, hu, false_and, if_false]

omit [DecidableEq φ] in
/-- `taskSwapMaskSet` for a task: the TCB that it stores. -/
theorem taskSwapMaskSet_some (swapIn swapOut : Bool) (hi : i < 16)
    (htask : taskTcb s taskId = some t) :
    if (s.tcb t).All i swapIn swapOut false then
      ∃ tcb, taskSwapMaskSet s taskId i swapIn swapOut =
          ({ s with tcb := Function.update s.tcb t tcb }, .ok ()) ∧
        (∀ j, tcb.isIn j = if j = i ∧ swapIn then true else (s.tcb t).isIn j) ∧
        ∀ j, tcb.isOut j = if j = i ∧ swapOut then true else (s.tcb t).isOut j
    else taskSwapMaskSet s taskId i swapIn swapOut =
      (s, .error .S_taskLib_TASK_SWAP_HOOK_SET) := by
  rw [taskSwapMaskSet, htask]
  dsimp only
  by_cases hall : (s.tcb t).All i swapIn swapOut false
  · rw [if_pos hall, if_neg fun htest => (testMasks_iff hi _).mp htest hall]
    refine ⟨_, rfl, ?_, ?_⟩
    · intro j
      cases swapIn <;> cases swapOut <;> simp [Tcb.isIn, or_indexBit hi]
    · intro j
      cases swapIn <;> cases swapOut <;> simp [Tcb.isOut, or_indexBit hi]
  · rw [if_neg hall, if_pos ((testMasks_iff hi _).mpr hall)]

omit [DecidableEq φ] in
/-- `taskSwapMaskClear` for a task: it clears bits that are not set. -/
theorem taskSwapMaskClear_some (swapIn swapOut : Bool) (hi : i < 16)
    (htask : taskTcb s taskId = some t) :
    if (s.tcb t).All i swapIn swapOut false then
      ∃ tcb, taskSwapMaskClear s taskId i swapIn swapOut =
          ({ s with tcb := Function.update s.tcb t tcb }, .ok ()) ∧
        (∀ j, tcb.isIn j = if j = i ∧ swapIn then false else (s.tcb t).isIn j) ∧
        ∀ j, tcb.isOut j = if j = i ∧ swapOut then false else (s.tcb t).isOut j
    else taskSwapMaskClear s taskId i swapIn swapOut =
      (s, .error .S_taskLib_TASK_SWAP_HOOK_CLEAR) := by
  rw [taskSwapMaskClear, htask]
  dsimp only
  by_cases hall : (s.tcb t).All i swapIn swapOut false
  · rw [if_pos hall, if_neg fun htest => (testMasks_iff hi _).mp htest hall]
    refine ⟨_, rfl, ?_, ?_⟩
    · intro j
      cases swapIn <;> cases swapOut <;> simp [Tcb.isIn, and_not_indexBit hi]
    · intro j
      cases swapIn <;> cases swapOut <;> simp [Tcb.isOut, and_not_indexBit hi]
  · rw [if_neg hall, if_pos ((testMasks_iff hi _).mpr hall)]

theorem slotOf_lt {hook : φ} (hslot : slotOf s hook = some i) :
    i < 16 ∧ s.taskSwapHooks i = some hook := by
  rcases TaskHook.findSlot_cases s.taskSwapHooks (some hook) 0 MAX_TASK_SWAP_HOOKS with
    ⟨k, hk, -, hlt, hat, -⟩ | ⟨hk, -⟩
  · have heq : k = i := Option.some.inj (hk.symm.trans hslot)
    rw [heq] at hlt hat
    exact ⟨by rw [MAX_TASK_SWAP_HOOKS] at hlt; omega, hat⟩
  · rw [slotOf, hk] at hslot
    exact absurd hslot.symm (Option.some_ne_none _)

/-- The result of an attachment to a hook in a slot. -/
theorem taskSwapHookAttach_some {hook : φ} (swapIn swapOut : Bool)
    (hslot : slotOf s hook = some i) (htask : taskTcb s taskId = some t) :
    if (s.tcb t).All i swapIn swapOut false then
      ∃ s', taskSwapHookAttach s (some hook) taskId swapIn swapOut = (s', .ok ()) ∧
        Sets s s' t i swapIn swapOut true ∧
        ∀ j, s'.taskSwapReference j =
          s.taskSwapReference j + if j = i then swapIn.toInt + swapOut.toInt else 0
    else taskSwapHookAttach s (some hook) taskId swapIn swapOut =
      (s, .error .S_taskLib_TASK_SWAP_HOOK_SET) := by
  have hset := taskSwapMaskSet_some swapIn swapOut (slotOf_lt hslot).1 htask
  rw [slotOf] at hslot
  rw [taskSwapHookAttach, hslot]
  dsimp only
  by_cases hall : (s.tcb t).All i swapIn swapOut false
  · rw [if_pos hall] at hset ⊢
    obtain ⟨tcb, hset, hin, hout⟩ := hset
    rw [hset]
    refine ⟨_, rfl, Sets.of_update hin hout _ _, ?_⟩
    intro j
    rw [addReference_two]
    cases swapIn <;> cases swapOut <;> rfl
  · rw [if_neg hall] at hset ⊢
    rw [hset]

/-- The result of a detachment from a hook in a slot. -/
theorem taskSwapHookDetach_some {hook : φ} (swapIn swapOut : Bool)
    (hslot : slotOf s hook = some i) (htask : taskTcb s taskId = some t) :
    if (s.tcb t).All i swapIn swapOut false then
      ∃ s', taskSwapHookDetach s (some hook) taskId swapIn swapOut = (s', .ok ()) ∧
        Sets s s' t i swapIn swapOut false ∧
        ∀ j, s'.taskSwapReference j =
          s.taskSwapReference j + if j = i then -swapIn.toInt + -swapOut.toInt else 0
    else taskSwapHookDetach s (some hook) taskId swapIn swapOut =
      (s, .error .S_taskLib_TASK_SWAP_HOOK_CLEAR) := by
  have hclear := taskSwapMaskClear_some swapIn swapOut (slotOf_lt hslot).1 htask
  rw [slotOf] at hslot
  rw [taskSwapHookDetach, hslot]
  dsimp only
  by_cases hall : (s.tcb t).All i swapIn swapOut false
  · rw [if_pos hall] at hclear ⊢
    obtain ⟨tcb, hclear, hin, hout⟩ := hclear
    rw [hclear]
    refine ⟨_, rfl, Sets.of_update hin hout _ _, ?_⟩
    intro j
    rw [addReference_two]
    cases swapIn <;> cases swapOut <;> rfl
  · rw [if_neg hall] at hclear ⊢
    rw [hclear]

theorem taskSwapHookAttach_none (hook : φ) (taskId : Nat) (swapIn swapOut : Bool)
    (hnone : slotOf s hook = none ∨ taskTcb s taskId = none) :
    ∃ errno, taskSwapHookAttach s (some hook) taskId swapIn swapOut = (s, .error errno) := by
  rw [taskSwapHookAttach]
  cases hslot : findSlot s.taskSwapHooks (some hook) 0 MAX_TASK_SWAP_HOOKS with
  | none => exact ⟨_, rfl⟩
  | some i =>
    have htask : taskTcb s taskId = none := by
      rcases hnone with hno | htask
      · rw [slotOf, hslot] at hno
        exact absurd hno (Option.some_ne_none _)
      · exact htask
    dsimp only
    rw [taskSwapMaskSet, htask]
    exact ⟨_, rfl⟩

theorem taskSwapHookDetach_none (hook : φ) (taskId : Nat) (swapIn swapOut : Bool)
    (hnone : slotOf s hook = none ∨ taskTcb s taskId = none) :
    ∃ errno, taskSwapHookDetach s (some hook) taskId swapIn swapOut = (s, .error errno) := by
  rw [taskSwapHookDetach]
  cases hslot : findSlot s.taskSwapHooks (some hook) 0 MAX_TASK_SWAP_HOOKS with
  | none => exact ⟨_, rfl⟩
  | some i =>
    have htask : taskTcb s taskId = none := by
      rcases hnone with hno | htask
      · rw [slotOf, hslot] at hno
        exact absurd hno (Option.some_ne_none _)
      · exact htask
    dsimp only
    rw [taskSwapMaskClear, htask]
    exact ⟨_, rfl⟩

end Masks

/-! ## Steps -/

section Steps

variable {s s' : State φ} {t i : Nat}

/-- The counts are right, and a slot without a hook is not referred to. -/
structure Inv (s : State φ) : Prop where
  counted : Counted s
  free : ∀ i < MAX_TASK_SWAP_HOOKS, s.taskSwapHooks i = none → s.taskSwapReference i = 0

theorem Tcb.bits_nonneg (tcb : Tcb) (i : Nat) : 0 ≤ tcb.bits i := by
  rw [Tcb.bits]
  cases tcb.isIn i <;> cases tcb.isOut i <;> decide

omit [DecidableEq φ] in
/-- A call that gives the requested bits the value they did not have changes the task's bits of
the slot by their number. -/
theorem Sets.bits {swapIn swapOut value : Bool} (h : Sets s s' t i swapIn swapOut value)
    (hall : (s.tcb t).All i swapIn swapOut !value) (u j : Nat) :
    (s'.tcb u).bits j = (s.tcb u).bits j +
      if u = t ∧ j = i then (if value then 1 else -1) * (swapIn.toInt + swapOut.toInt) else 0 := by
  rw [Tcb.bits, Tcb.bits, h.isIn, h.isOut]
  by_cases hut : u = t ∧ j = i
  · obtain ⟨hu, hj⟩ := hut
    have hin := hall.1
    have hout := hall.2
    simp only [hu, hj, and_self, true_and, if_true]
    cases swapIn with
    | false =>
      cases swapOut with
      | false => cases value <;> simp
      | true =>
        rw [hout rfl]
        cases value <;> simp
    | true =>
      rw [hin rfl]
      cases swapOut with
      | false => cases value <;> simp <;> omega
      | true =>
        rw [hout rfl]
        cases value <;> simp
  · rw [if_neg hut, if_neg fun h => hut ⟨h.1, h.2.1⟩, if_neg fun h => hut ⟨h.1, h.2.1⟩, add_zero]

omit [DecidableEq φ] in
/-- The counts stay right when a slot's count changes with the bits. -/
theorem Counted.of_bits (h : Counted s) (hactive : s'.active = s.active) (ht : t ∈ s.active)
    {d : Int}
    (hbits : ∀ u j, (s'.tcb u).bits j = (s.tcb u).bits j + if u = t ∧ j = i then d else 0)
    (href : ∀ j, s'.taskSwapReference j = s.taskSwapReference j + if j = i then d else 0) :
    Counted s' := by
  intro j hj
  have hsum : (s'.active.sum fun u => (s'.tcb u).bits j) =
      (s.active.sum fun u => (s.tcb u).bits j) + if j = i then d else 0 := by
    rw [hactive, Finset.sum_congr rfl fun u _ => hbits u j, Finset.sum_add_distrib]
    congr 1
    by_cases hji : j = i
    · simp only [hji, and_true, if_true]
      rw [Finset.sum_ite_eq', if_pos ht]
    · simp only [hji, and_false, if_false]
      exact Finset.sum_const_zero
  rw [hsum, href, h j hj]

omit [DecidableEq φ] in
theorem taskTcb_active {taskId : Nat} (hcurrent : s.taskIdCurrent ∈ s.active)
    (htask : taskTcb s taskId = some t) : t ∈ s.active := by
  rw [taskTcb] at htask
  split_ifs at htask with h0 hmem
  · rwa [← Option.some.inj htask]
  · rwa [← Option.some.inj htask]

omit [DecidableEq φ] in
/-- A slot's count changes only where there is a hook. -/
theorem Inv.of_reference (h : Inv s) (hcounted : Counted s')
    (hhooks : s'.taskSwapHooks = s.taskSwapHooks) (hi : s.taskSwapHooks i ≠ none)
    {d : Int}
    (href : ∀ j, s'.taskSwapReference j = s.taskSwapReference j + if j = i then d else 0) :
    Inv s' := by
  refine ⟨hcounted, ?_⟩
  intro j hj hnone
  rw [hhooks] at hnone
  have hji : j ≠ i := by
    intro hji
    exact hi (hji ▸ hnone)
  rw [href, if_neg hji, add_zero, h.free j hj hnone]

/-- `taskSwapHookAdd`. -/
theorem Inv.add (h : Inv s) (hook : φ) :
    Inv (taskSwapHookAdd s (some hook)).1 ∧
      ((taskSwapHookAdd s (some hook)).2 ≠ .ok () → (taskSwapHookAdd s (some hook)).1 = s) := by
  rw [taskSwapHookAdd]
  rcases TaskHook.findSlot_cases s.taskSwapHooks none 0 MAX_TASK_SWAP_HOOKS with
    ⟨k, hk, -, hlt, hat, -⟩ | ⟨hk, -⟩
  · rw [hk]
    have hzero : Function.update s.taskSwapReference k 0 = s.taskSwapReference := by
      rw [← h.free k (by omega) hat, Function.update_eq_self]
    dsimp only
    rw [hzero]
    refine ⟨⟨h.counted, ?_⟩, fun herr => absurd rfl herr⟩
    intro j hj hnone
    dsimp only at hnone
    by_cases hjk : j = k
    · rw [hjk, Function.update_self] at hnone
      exact absurd hnone (Option.some_ne_none _)
    · rw [Function.update_of_ne hjk] at hnone
      exact h.free j hj hnone
  · rw [hk]
    exact ⟨h, fun _ => rfl⟩

/-- A call without a slot or a task fails. -/
theorem changeRight_of_none {hook : φ} {taskId : Nat} {swapIn swapOut value : Bool}
    {status : Status} (hnone : slotOf s hook = none ∨ taskTcb s taskId = none)
    (hstatus : status ≠ .ok ()) :
    ChangeRight s s' status hook taskId swapIn swapOut value := by
  rw [ChangeRight]
  rcases hnone with hslot | htask
  · rw [hslot]
    exact hstatus
  · rw [htask]
    cases slotOf s hook <;> exact hstatus

theorem detachesMixed_of_none {hook : φ} {taskId : Nat} {swapIn swapOut : Bool}
    (hnone : slotOf s hook = none ∨ taskTcb s taskId = none) :
    DetachesMixed s (.detach hook taskId swapIn swapOut) := by
  intro _ i hi t ht
  rcases hnone with hslot | htask
  · rw [hslot] at hi
    exact absurd hi (by simp)
  · rw [htask] at ht
    exact absurd ht (by simp)

/-- `taskSwapHookAttach`. -/
theorem Inv.attach (h : Inv s) (hcurrent : s.taskIdCurrent ∈ s.active) (hook : φ)
    (taskId : Nat) (swapIn swapOut : Bool) :
    ∃ s' status, taskSwapHookAttach s (some hook) taskId swapIn swapOut = (s', status) ∧
      Inv s' ∧ (status ≠ .ok () → s' = s) ∧
      ChangeRight s s' status hook taskId swapIn swapOut true := by
  cases hslot : slotOf s hook with
  | none =>
    obtain ⟨errno, hattach⟩ := taskSwapHookAttach_none hook taskId swapIn swapOut (Or.inl hslot)
    exact ⟨s, _, hattach, h, fun _ => rfl, changeRight_of_none (Or.inl hslot) (by simp)⟩
  | some i =>
    cases htask : taskTcb s taskId with
    | none =>
      obtain ⟨errno, hattach⟩ := taskSwapHookAttach_none hook taskId swapIn swapOut (Or.inr htask)
      exact ⟨s, _, hattach, h, fun _ => rfl, changeRight_of_none (Or.inr htask) (by simp)⟩
    | some t =>
      have hattach := taskSwapHookAttach_some swapIn swapOut hslot htask
      by_cases hall : (s.tcb t).All i swapIn swapOut false
      · rw [if_pos hall] at hattach
        obtain ⟨s', hattach, hsets, href⟩ := hattach
        have hcounted : Counted s' :=
          h.counted.of_bits hsets.active (taskTcb_active hcurrent htask)
            (d := swapIn.toInt + swapOut.toInt)
            (fun u j => by rw [hsets.bits hall, if_pos rfl, Int.one_mul]) href
        have hi : s.taskSwapHooks i ≠ none := by
          rw [(slotOf_lt hslot).2]
          exact Option.some_ne_none _
        refine ⟨s', _, hattach, h.of_reference hcounted hsets.hooks hi href,
          fun herr => absurd rfl herr, ?_⟩
        rw [ChangeRight, hslot, htask]
        exact ⟨iff_of_true rfl hall, fun _ => hsets⟩
      · rw [if_neg hall] at hattach
        refine ⟨s, _, hattach, h, fun _ => rfl, ?_⟩
        rw [ChangeRight, hslot, htask]
        exact ⟨iff_of_false (by simp) hall, fun herr => absurd herr (by simp)⟩

/-- `taskSwapHookDetach`: it does what it is for exactly when it asks for no bit, or for one
that is set and one that is not, and it keeps the counts right then. -/
theorem Inv.detach (h : Inv s) (hcurrent : s.taskIdCurrent ∈ s.active) (hook : φ)
    (taskId : Nat) (swapIn swapOut : Bool) :
    ∃ s' status, taskSwapHookDetach s (some hook) taskId swapIn swapOut = (s', status) ∧
      (status ≠ .ok () → s' = s) ∧
      (DetachesMixed s (.detach hook taskId swapIn swapOut) →
        Inv s' ∧ ChangeRight s s' status hook taskId swapIn swapOut false) ∧
      (ChangeRight s s' status hook taskId swapIn swapOut false →
        DetachesMixed s (.detach hook taskId swapIn swapOut)) := by
  cases hslot : slotOf s hook with
  | none =>
    obtain ⟨errno, hdetach⟩ := taskSwapHookDetach_none hook taskId swapIn swapOut (Or.inl hslot)
    exact ⟨s, _, hdetach, fun _ => rfl,
      fun _ => ⟨h, changeRight_of_none (Or.inl hslot) (by simp)⟩,
      fun _ => detachesMixed_of_none (Or.inl hslot)⟩
  | some i =>
    cases htask : taskTcb s taskId with
    | none =>
      obtain ⟨errno, hdetach⟩ := taskSwapHookDetach_none hook taskId swapIn swapOut (Or.inr htask)
      exact ⟨s, _, hdetach, fun _ => rfl,
        fun _ => ⟨h, changeRight_of_none (Or.inr htask) (by simp)⟩,
        fun _ => detachesMixed_of_none (Or.inr htask)⟩
    | some t =>
      have hdetach := taskSwapHookDetach_some swapIn swapOut hslot htask
      have hmixed : DetachesMixed s (.detach hook taskId swapIn swapOut) ↔
          (s.tcb t).Mixed i swapIn swapOut := by
        rw [DetachesMixed, hslot, htask]
        exact ⟨fun hm => hm hcurrent i rfl t rfl, fun hm _ j hj u hu => by
          rwa [← Option.some.inj hj, ← Option.some.inj hu]⟩
      by_cases hall : (s.tcb t).All i swapIn swapOut false
      · rw [if_pos hall] at hdetach
        obtain ⟨s', hdetach, hsets, href⟩ := hdetach
        refine ⟨s', _, hdetach, fun herr => absurd rfl herr, ?_, ?_⟩
        · intro hcond
          obtain ⟨heq, hne⟩ := hmixed.mp hcond
          -- no bit is asked for: both would have to be clear, and they differ
          have hin : swapIn = false := by
            cases hin : swapIn with
            | false => rfl
            | true =>
              refine absurd ?_ (hne hin)
              rw [hall.1 hin, hall.2 (heq ▸ hin)]
          have hout : swapOut = false := heq ▸ hin
          have hset : (s.tcb t).All i swapIn swapOut true :=
            ⟨fun hasked => absurd hasked (by simp [hin]),
              fun hasked => absurd hasked (by simp [hout])⟩
          have hcounted : Counted s' :=
            h.counted.of_bits hsets.active (taskTcb_active hcurrent htask)
              (d := -swapIn.toInt + -swapOut.toInt)
              (fun u j => by
                rw [hsets.bits hset, hin, hout]
                rfl) href
          have hi : s.taskSwapHooks i ≠ none := by
            rw [(slotOf_lt hslot).2]
            exact Option.some_ne_none _
          refine ⟨h.of_reference hcounted hsets.hooks hi href, ?_⟩
          rw [ChangeRight, hslot, htask]
          exact ⟨iff_of_true rfl hset, fun _ => hsets⟩
        · intro hright
          rw [ChangeRight, hslot, htask] at hright
          have hset : (s.tcb t).All i swapIn swapOut true := hright.1.mp rfl
          have hin : swapIn = false := by
            cases hin : swapIn with
            | false => rfl
            | true => exact absurd ((hset.1 hin).symm.trans (hall.1 hin)) (by simp)
          have hout : swapOut = false := by
            cases hout : swapOut with
            | false => rfl
            | true => exact absurd ((hset.2 hout).symm.trans (hall.2 hout)) (by simp)
          exact hmixed.mpr ⟨hin.trans hout.symm, fun hasked => absurd hasked (by simp [hin])⟩
      · rw [if_neg hall] at hdetach
        refine ⟨s, _, hdetach, fun _ => rfl, ?_, ?_⟩
        · intro hcond
          obtain ⟨heq, hne⟩ := hmixed.mp hcond
          refine ⟨h, ?_⟩
          rw [ChangeRight, hslot, htask]
          refine ⟨iff_of_false (by simp) ?_, fun herr => absurd herr (by simp)⟩
          intro hset
          cases hin : swapIn with
          | false =>
            refine hall ⟨fun hasked => absurd hasked (by simp [hin]), ?_⟩
            intro hasked
            exact absurd hasked (by simp [← heq, hin])
          | true =>
            refine hne hin ?_
            have hset1 := hset.1 hin
            have hset2 := hset.2 (heq ▸ hin)
            rw [hset1, hset2]
        · intro hright
          rw [ChangeRight, hslot, htask] at hright
          have hnot : ¬ (s.tcb t).All i swapIn swapOut true := fun hset =>
            absurd (hright.1.mpr hset) (by simp)
          rw [hmixed]
          rw [Tcb.All] at hall hnot
          rw [Tcb.Mixed]
          revert hall hnot
          cases swapIn <;> cases swapOut <;> cases (s.tcb t).isIn i <;>
            cases (s.tcb t).isOut i <;> simp

/-- `taskSwapHookDelete`. -/
theorem Inv.delete (h : Inv s) (hook : φ) :
    ∃ s' status, taskSwapHookDelete s (some hook) = (s', status) ∧ Inv s' ∧
      (status ≠ .ok () → s' = s) ∧
      (status = .ok () →
        ∃ i, slotOf s hook = some i ∧ ∀ t ∈ s.active, (s.tcb t).bits i = 0) := by
  rw [taskSwapHookDelete]
  cases hslot : slotOf s hook with
  | none =>
    rw [slotOf] at hslot
    rw [hslot]
    exact ⟨s, _, rfl, h, fun _ => rfl, fun herr => absurd herr (by simp)⟩
  | some i =>
    have hi := (slotOf_lt hslot).1
    rw [slotOf] at hslot
    rw [hslot]
    dsimp only
    by_cases hzero : s.taskSwapReference i = 0
    · rw [if_neg (not_not_intro hzero)]
      refine ⟨_, _, rfl, ⟨h.counted, ?_⟩, fun herr => absurd rfl herr, fun _ => ⟨i, rfl, ?_⟩⟩
      · intro j hj hnone
        dsimp only at hnone ⊢
        by_cases hji : j = i
        · rw [hji, hzero]
        · rw [Function.update_of_ne hji] at hnone
          exact h.free j hj hnone
      · intro t ht
        rw [h.counted i hi] at hzero
        exact (Finset.sum_eq_zero_iff_of_nonneg fun u _ => Tcb.bits_nonneg _ i).mp hzero t ht
    · rw [if_pos hzero]
      exact ⟨s, _, rfl, h, fun _ => rfl, fun herr => absurd herr (by simp)⟩

omit [DecidableEq φ] in
/-- A new task has no bits. -/
theorem Inv.create (h : Inv s) {tcbId : Nat} (hnew : tcbId ∉ s.active) :
    Inv (taskInit s tcbId) := by
  refine ⟨?_, h.free⟩
  intro j hj
  dsimp only [taskInit]
  rw [Finset.sum_insert hnew, Function.update_self, h.counted j hj]
  have hzero : Tcb.bits { swapInMask := 0, swapOutMask := 0 } j = 0 := by
    simp [Tcb.bits, Tcb.isIn, Tcb.isOut]
  rw [hzero, zero_add]
  refine Finset.sum_congr rfl fun u hu => ?_
  rw [Function.update_of_ne (ne_of_mem_of_not_mem hu hnew)]

omit [DecidableEq φ] in
/-- `vmxDelete`: the bits of the task no longer count. -/
theorem Inv.destroy (h : Inv s) {tcbId : Nat} (hmem : tcbId ∈ s.active) :
    ∃ s', vmxDelete s tcbId = some s' ∧ Inv s' := by
  have hmask : ∀ (mask : BitVec 16) k, 16 ≤ k → mask.getMsbD k = false :=
    fun mask k hk => BitVec.getMsbD_of_ge mask k hk
  rw [vmxDelete, disconnect_eq _ 16 (hmask _)]
  dsimp only
  rw [disconnect_eq _ 16 (hmask _)]
  dsimp only
  refine ⟨_, rfl, ?_, ?_⟩
  · intro j hj
    have hsum := Finset.add_sum_erase s.active (fun u => (s.tcb u).bits j) hmem
    have hcount := h.counted j hj
    rw [← hsum, Tcb.bits, Tcb.isIn, Tcb.isOut] at hcount
    dsimp only
    rw [if_pos (Nat.zero_le j), if_pos (Nat.zero_le j), Nat.sub_zero, hcount]
    omega
  · intro j hj hnone
    have hzero := h.free j hj hnone
    have hbits : (s.tcb tcbId).bits j = 0 := by
      rw [h.counted j hj] at hzero
      exact (Finset.sum_eq_zero_iff_of_nonneg fun u _ => Tcb.bits_nonneg _ j).mp hzero _ hmem
    rw [Tcb.bits, Tcb.isIn, Tcb.isOut] at hbits
    dsimp only
    rw [if_pos (Nat.zero_le j), if_pos (Nat.zero_le j), Nat.sub_zero, hzero]
    omega

/-- A step from a state with right counts: the call does what it is for exactly when it meets
the condition, and then the counts stay right. -/
theorem Inv.callRight_iff (h : Inv s) {l : Call φ} {status : Status}
    (hcall : call s l = some (s', status)) :
    (DetachesMixed s l → Inv s' ∧ CallRight s s' status l) ∧
      (CallRight s s' status l → DetachesMixed s l) := by
  have hresult : ∀ {r : State φ × Status} {c : Prop} [Decidable c],
      (if c then some r else none) = some (s', status) → c ∧ r = (s', status) := by
    intro r c _ hr
    split_ifs at hr with hc
    exact ⟨hc, Option.some.inj hr⟩
  cases l with
  | add hook =>
    obtain ⟨hinv, hfailed⟩ := h.add hook
    rw [(hresult hcall).2] at hinv hfailed
    exact ⟨fun _ => ⟨hinv, hfailed, trivial⟩, fun _ => trivial⟩
  | attach hook taskId swapIn swapOut =>
    obtain ⟨hcurrent, hr⟩ := hresult hcall
    obtain ⟨s₁, status₁, hattach, hinv, hfailed, hright⟩ :=
      h.attach hcurrent hook taskId swapIn swapOut
    cases hattach.symm.trans hr
    exact ⟨fun _ => ⟨hinv, hfailed, hright⟩, fun _ => trivial⟩
  | detach hook taskId swapIn swapOut =>
    obtain ⟨hcurrent, hr⟩ := hresult hcall
    obtain ⟨s₁, status₁, hdetach, hfailed, hright, hmixed⟩ :=
      h.detach hcurrent hook taskId swapIn swapOut
    cases hdetach.symm.trans hr
    exact ⟨fun hcond => ⟨(hright hcond).1, hfailed, (hright hcond).2⟩,
      fun hcall => hmixed hcall.2⟩
  | delete hook =>
    obtain ⟨s₁, status₁, hdelete, hinv, hfailed, hunused⟩ := h.delete hook
    cases hdelete.symm.trans (hresult hcall).2
    exact ⟨fun _ => ⟨hinv, hfailed, hunused⟩, fun _ => trivial⟩
  | create tcbId =>
    rw [call] at hcall
    split_ifs at hcall with hno
    cases hcall
    exact ⟨fun _ => ⟨h.create fun hmem => hno (Or.inl hmem), fun herr => absurd rfl herr, trivial⟩,
      fun _ => trivial⟩
  | destroy tcbId =>
    rw [call] at hcall
    split_ifs at hcall with hmem
    obtain ⟨s₁, hdelete, hinv⟩ := h.destroy hmem
    rw [hdelete] at hcall
    cases hcall
    exact ⟨fun _ => ⟨hinv, fun herr => absurd rfl herr, trivial⟩, fun _ => trivial⟩
  | run tcbId =>
    obtain ⟨-, hr⟩ := hresult hcall
    cases hr
    exact ⟨fun _ => ⟨⟨h.counted, h.free⟩, fun herr => absurd rfl herr, trivial⟩, fun _ => trivial⟩

/-- What cannot happen meets the condition. -/
theorem detachesMixed_of_call {l : Call φ} (hcall : call s l = none) : DetachesMixed s l := by
  cases l with
  | detach hook taskId swapIn swapOut =>
    intro hcurrent
    rw [call, if_pos hcurrent] at hcall
    exact absurd hcall (Option.some_ne_none _)
  | add hook => trivial
  | attach hook taskId swapIn swapOut => trivial
  | delete hook => trivial
  | create tcbId => trivial
  | destroy tcbId => trivial
  | run tcbId => trivial

end Steps

/-! ## Runs -/

section Runs

variable {s : State φ}

/-- From right counts, a run is right exactly when its steps all meet the condition. -/
theorem Inv.runsRight_iff (h : Inv s) (ls : List (Call φ)) :
    RunsRight s ls ↔ AllSteps step DetachesMixed s ls := by
  induction ls generalizing s with
  | nil => exact ⟨fun _ => trivial, fun _ => h.counted⟩
  | cons l ls ih =>
    rw [RunsRight, AllSteps, step]
    cases hcall : call s l with
    | none =>
      exact ⟨fun _ => ⟨detachesMixed_of_call hcall, trivial⟩, fun _ => ⟨h.counted, trivial⟩⟩
    | some r =>
      obtain ⟨s', status⟩ := r
      have hstep := h.callRight_iff hcall
      constructor
      · rintro ⟨-, hright, hrun⟩
        have hcond := hstep.2 hright
        exact ⟨hcond, (ih (hstep.1 hcond).1).mp hrun⟩
      · rintro ⟨hcond, hrest⟩
        obtain ⟨hinv, hright⟩ := hstep.1 hcond
        exact ⟨h.counted, hright, (ih hinv).mpr hrest⟩

/-- The library is initialized while the tasks `tasks` are live, which have no bits set; the
rest of the memory is arbitrary. -/
def start (hooks : Table φ) (reference : Nat → Int) (memory : Nat → Tcb) (tasks : Finset Nat)
    (taskIdCurrent : Nat) : State φ :=
  taskHookLibInit
    { taskSwapHooks := hooks
      taskSwapReference := reference
      active := tasks
      tcb := fun t => if t ∈ tasks then { swapInMask := 0, swapOutMask := 0 } else memory t
      taskIdCurrent := taskIdCurrent }

theorem clearReferences_eq (reference : Nat → Int) (i n j : Nat) :
    clearReferences reference i n j = if i ≤ j ∧ j < i + n then 0 else reference j := by
  induction n generalizing reference i with
  | zero => rw [clearReferences, if_neg (by omega)]
  | succ n ih =>
    rw [clearReferences, ih]
    by_cases hj : i + 1 ≤ j ∧ j < i + 1 + n
    · rw [if_pos hj, if_pos (by omega)]
    · rw [if_neg hj]
      by_cases hij : j = i
      · rw [hij, Function.update_self, if_pos (by omega)]
      · rw [Function.update_of_ne hij, if_neg (by omega)]

omit [DecidableEq φ] in
theorem inv_start (hooks : Table φ) (reference : Nat → Int) (memory : Nat → Tcb)
    (tasks : Finset Nat) (taskIdCurrent : Nat) :
    Inv (start hooks reference memory tasks taskIdCurrent) := by
  have href : ∀ j < MAX_TASK_SWAP_HOOKS,
      clearReferences reference 0 MAX_TASK_SWAP_HOOKS j = 0 := by
    intro j hj
    rw [clearReferences_eq, if_pos (by omega)]
  refine ⟨?_, fun j hj _ => href j hj⟩
  intro j hj
  rw [start, taskHookLibInit]
  dsimp only
  rw [href j hj]
  refine (Finset.sum_eq_zero fun t ht => ?_).symm
  rw [if_pos ht]
  simp [Tcb.bits, Tcb.isIn, Tcb.isOut]

/-- In a run from the start the counts are right in every state and every call does what it is
for exactly when no `taskSwapHookDetach` of a hook from a task asks for bits that are all set,
or all clear. -/
theorem swap_hooks_iff (hooks : Table φ) (reference : Nat → Int) (memory : Nat → Tcb)
    (tasks : Finset Nat) (taskIdCurrent : Nat) (ls : List (Call φ)) :
    RunsRight (start hooks reference memory tasks taskIdCurrent) ls ↔
      AllSteps step DetachesMixed (start hooks reference memory tasks taskIdCurrent) ls :=
  (inv_start hooks reference memory tasks taskIdCurrent).runsRight_iff ls

/-- A task is attached to a hook and cannot be detached from it. -/
theorem swap_hooks_stuck :
    ¬ RunsRight (start (fun _ => none) (fun _ => 0) (fun _ => ⟨0, 0⟩) {1} 1)
      [.add (), .attach () 1 true false, .detach () 1 true false] := by
  intro h
  have hsteps := ((inv_start _ _ _ _ _).runsRight_iff _).mp h
  exact absurd hsteps (by decide)

end Runs

end Vmx.TaskSwap
