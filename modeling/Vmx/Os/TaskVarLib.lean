import Vmx.Lib.Transition
import Mathlib.Logic.Function.Basic

/-!
# `taskVarLib`: task variables

A task variable is a memory cell that has a value of its own in a task.  The TCB keeps a list
of such cells: for a task that does not run, each with the task's value, and for the running
task with the value of everybody else, which waits there while the cell has the task's own.
`taskVarSwitchHook` exchanges the two on the way out of a task and on the way into one.

`taskVarAdd` reads the variable before it locks interrupts, so other tasks may run between
the read and the insertion: the two are steps of their own, `taskVarAddRead` and
`taskVarAddLink`.  The other calls read or write the lists and the cell at one moment.
-/

namespace Vmx.TaskVar

open Lib

/-- `TASK_VAR`, without its link. -/
structure Var where
  addr : Nat
  value : Int
  deriving DecidableEq

/-- A variable that `taskVarAdd` has allocated for a task and not yet put on its list. -/
structure NewVar where
  tcbId : Nat
  var : Var
  deriving DecidableEq

/-- The memory, the tasks and the library.  `verified` says which task ids pass
`TASK_ID_VERIFY`, and `adding` what the `taskVarAdd` of a task stopped at. -/
structure State where
  taskVarLibInstalled : Bool
  taskIdCurrent : Nat
  mem : Nat → Int
  verified : Nat → Bool
  pTaskVar : Nat → List Var
  adding : Nat → Option NewVar

/-- `taskTcb`. -/
def taskTcb (s : State) (taskId : Nat) : Option Nat :=
  if taskId = 0 then some s.taskIdCurrent
  else if s.verified taskId then some taskId
  else none

/-- `taskVarLibInit`, with its status; the arguments say whether the hooks can be added. -/
def taskVarLibInit (s : State) (switchHookAdd deleteHookAdd : Bool) : State × Bool :=
  if s.taskVarLibInstalled then (s, true)
  else if !switchHookAdd then (s, false)
  else if !deleteHookAdd then (s, false)
  else ({ s with taskVarLibInstalled := true }, true)

/-- The part of `taskVarAdd` before `INT_LOCK`: the new variable, or nothing when the call
fails.  `malloc` says whether there is memory. -/
def taskVarAddRead (s : State) (taskId pVar : Nat) (malloc : Bool) : Option NewVar :=
  if s.taskVarLibInstalled then
    match taskTcb s taskId with
    | none => none
    | some tcbId =>
      if malloc then some { tcbId := tcbId, var := { addr := pVar, value := s.mem pVar } }
      else none
  else none

/-- The rest of `taskVarAdd`: the new variable comes in front of the list. -/
def taskVarAddLink (s : State) (new : NewVar) : State :=
  { s with pTaskVar := Function.update s.pTaskVar new.tcbId (new.var :: s.pTaskVar new.tcbId) }

/-- Store a value in the first variable of a list that is at the address. -/
def storeFirst (pVar : Nat) (value : Int) : List Var → Option (List Var)
  | [] => none
  | v :: vs =>
    if v.addr = pVar then some ({ v with value := value } :: vs)
    else (storeFirst pVar value vs).map (v :: ·)

/-- `taskVarSet`, with its status. -/
def taskVarSet (s : State) (taskId pVar : Nat) (value : Int) : State × Bool :=
  match taskTcb s taskId with
  | none => (s, false)
  | some tcbId =>
    match storeFirst pVar value (s.pTaskVar tcbId) with
    | none => (s, false)
    | some vars =>
      if tcbId = s.taskIdCurrent then ({ s with mem := Function.update s.mem pVar value }, true)
      else ({ s with pTaskVar := Function.update s.pTaskVar tcbId vars }, true)

/-- `taskVarGet`; `none` is `ERROR`. -/
def taskVarGet (s : State) (taskId pVar : Nat) : Option Int :=
  match taskTcb s taskId with
  | none => none
  | some tcbId =>
    match (s.pTaskVar tcbId).find? (·.addr == pVar) with
    | none => none
    | some var => if tcbId = s.taskIdCurrent then some (s.mem pVar) else some var.value

/-- Take the first variable at the address out of a list. -/
def removeFirst (pVar : Nat) : List Var → Option (Var × List Var)
  | [] => none
  | v :: vs =>
    if v.addr = pVar then some (v, vs)
    else (removeFirst pVar vs).map fun r => (r.1, v :: r.2)

/-- `taskVarDelete`, with its status. -/
def taskVarDelete (s : State) (taskId pVar : Nat) : State × Bool :=
  if s.taskVarLibInstalled then (s, false)
  else
    match taskTcb s taskId with
    | none => (s, false)
    | some tcbId =>
      match removeFirst pVar (s.pTaskVar tcbId) with
      | none => (s, false)
      | some (var, vars) =>
        let s := if tcbId = s.taskIdCurrent then
            { s with mem := Function.update s.mem pVar var.value }
          else s
        ({ s with pTaskVar := Function.update s.pTaskVar tcbId vars }, true)

/-- Exchange the values of a list with those in memory, one variable after the other. -/
def swapVars : List Var → (Nat → Int) → List Var × (Nat → Int)
  | [], mem => ([], mem)
  | v :: vs, mem =>
    let (vs', mem') := swapVars vs (Function.update mem v.addr v.value)
    ({ v with value := mem v.addr } :: vs', mem')

/-- The exchange for a task. -/
def swapTask (s : State) (tcbId : Nat) : State :=
  { s with
    mem := (swapVars (s.pTaskVar tcbId) s.mem).2
    pTaskVar := Function.update s.pTaskVar tcbId (swapVars (s.pTaskVar tcbId) s.mem).1 }

/-- `taskVarSwitchHook`. -/
def taskVarSwitchHook (s : State) (oldTcbId newTcbId : Nat) : State :=
  let s := if s.verified oldTcbId then swapTask s oldTcbId else s
  swapTask s newTcbId

/-! ## Steps -/

/-- What happens.  Calls are by the running task; `ok` is the status that a call returns. -/
inductive Op where
  | libInit (switchHookAdd deleteHookAdd : Bool)
  | switch (newTcbId : Nat)
  | write (pVar : Nat) (value : Int)
  | addRead (taskId pVar : Nat) (malloc : Bool)
  | addLink
  | set (taskId pVar : Nat) (value : Int) (ok : Bool)
  | delete (taskId pVar : Nat) (ok : Bool)
  | create (tcbId : Nat)
  | destroy (tcbId : Nat)
  deriving DecidableEq

/-- The running task exists and is not in the middle of `taskVarAdd`. -/
def State.Runs (s : State) : Prop :=
  s.verified s.taskIdCurrent = true ∧ s.adding s.taskIdCurrent = none

instance (s : State) : Decidable s.Runs := inferInstanceAs (Decidable (_ ∧ _))

/-- A new task has no variables. -/
def taskCreate (s : State) (tcbId : Nat) : State :=
  { s with
    verified := Function.update s.verified tcbId true
    pTaskVar := Function.update s.pTaskVar tcbId []
    adding := Function.update s.adding tcbId none }

/-- `taskVarDeleteHook` frees the variables of the task, and its id is not valid any more;
nothing is exchanged with memory. -/
def taskDestroy (s : State) (tcbId : Nat) : State :=
  { s with verified := Function.update s.verified tcbId false }

def step (s : State) : Op → Option State
  | .libInit switchHookAdd deleteHookAdd =>
    if s.Runs then some (taskVarLibInit s switchHookAdd deleteHookAdd).1 else none
  | .switch newTcbId =>
    if s.verified newTcbId then
      let s' := if s.taskVarLibInstalled then taskVarSwitchHook s s.taskIdCurrent newTcbId else s
      some { s' with taskIdCurrent := newTcbId }
    else none
  | .write pVar value =>
    if s.Runs then some { s with mem := Function.update s.mem pVar value } else none
  | .addRead taskId pVar malloc =>
    if s.Runs then
      some { s with adding :=
        Function.update s.adding s.taskIdCurrent (taskVarAddRead s taskId pVar malloc) }
    else none
  | .addLink =>
    if s.verified s.taskIdCurrent then
      match s.adding s.taskIdCurrent with
      | none => none
      | some new =>
        some { taskVarAddLink s new with
          adding := Function.update s.adding s.taskIdCurrent none }
    else none
  | .set taskId pVar value ok =>
    if s.Runs ∧ (taskVarSet s taskId pVar value).2 = ok then
      some (taskVarSet s taskId pVar value).1
    else none
  | .delete taskId pVar ok =>
    if s.Runs ∧ (taskVarDelete s taskId pVar).2 = ok then
      some (taskVarDelete s taskId pVar).1
    else none
  | .create tcbId =>
    if tcbId ≠ 0 ∧ s.verified tcbId = false ∧ tcbId ≠ s.taskIdCurrent then
      some (taskCreate s tcbId)
    else none
  | .destroy tcbId =>
    if s.verified tcbId then some (taskDestroy s tcbId) else none

end Vmx.TaskVar
