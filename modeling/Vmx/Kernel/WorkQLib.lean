import Vmx.Lib.Transition
import Mathlib.Logic.Function.Basic
import Mathlib.Tactic.Common

/-!
# `workQLib`: the kernel work queue

Jobs that come while `kernelState` is `TRUE` are put into a ring of 256 slots and
called before the kernel is left.  The code that runs is at the top of a stack of
contexts: an interrupt puts its handler on the code that it interrupts, wherever
the interrupts are not locked.  So a section with the interrupts locked is one
step, and each store that `workQAddN` makes after `INT_UNLOCK` is a step of its
own.

`added`, `taken` and `executed` are ghosts: the jobs in the order of adding, the
number of jobs whose slot `workQDoWork` has taken, and the calls that it has
made.  `workQDoWork` also keeps the error number of its caller, which is not
modelled.
-/

namespace Vmx.WorkQ

def MAX_WORK_Q_JOBS : Nat := 256

/-- `WORK_Q_JOB`. -/
structure Job where
  func : Nat
  numArgs : Nat
  arg1 : Nat
  arg2 : Nat
  deriving DecidableEq, Repr

/-- A function with its arguments. -/
structure Call where
  func : Nat
  args : List Nat
  deriving DecidableEq, Repr

/-- The call that the `switch` of `workQDoWork` makes for a slot. -/
def Job.call (j : Job) : Call :=
  match j.numArgs with
  | 1 => ⟨j.func, [j.arg1]⟩
  | 2 => ⟨j.func, [j.arg1, j.arg2]⟩
  | _ => ⟨j.func, []⟩

/-- A store that is made after `INT_UNLOCK`. -/
inductive Store where
  | workQIsEmpty
  | func (func : Nat)
  | numArgs (numArgs : Nat)
  | arg1 (arg1 : Nat)
  | arg2 (arg2 : Nat)
  deriving DecidableEq, Repr

/-- What the store does to the slot. -/
def Job.store (j : Job) : Store → Job
  | .workQIsEmpty => j
  | .func func => { j with func := func }
  | .numArgs numArgs => { j with numArgs := numArgs }
  | .arg1 arg1 => { j with arg1 := arg1 }
  | .arg2 arg2 => { j with arg2 := arg2 }

/-- A call of `workQAddN`. -/
inductive Add where
  | workQAdd0 (func : Nat)
  | workQAdd1 (func arg1 : Nat)
  | workQAdd2 (func arg1 arg2 : Nat)
  deriving DecidableEq, Repr

/-- The stores of the routine, in order. -/
def Add.stores : Add → List Store
  | .workQAdd0 func => [.workQIsEmpty, .func func, .numArgs 0]
  | .workQAdd1 func arg1 => [.workQIsEmpty, .func func, .arg1 arg1, .numArgs 1]
  | .workQAdd2 func arg1 arg2 =>
    [.workQIsEmpty, .func func, .arg1 arg1, .arg2 arg2, .numArgs 2]

/-- The job that is added. -/
def Add.call : Add → Call
  | .workQAdd0 func => ⟨func, []⟩
  | .workQAdd1 func arg1 => ⟨func, [arg1]⟩
  | .workQAdd2 func arg1 arg2 => ⟨func, [arg1, arg2]⟩

/-- Code that is running or interrupted. -/
inductive Ctx where
  /-- A kernel section, which has set `kernelState`. -/
  | kernel
  /-- An interrupt handler. -/
  | int
  /-- A job that `workQDoWork` has called. -/
  | job
  /-- `workQAddN` with a slot, and the stores that it has still to make. -/
  | add (slot : Nat) (stores : List Store)
  /-- `workQDoWork`, which may have taken a slot and not read it yet. -/
  | drain (slot : Option Nat)
  deriving DecidableEq, Repr

structure State where
  workQJobs : Nat → Job
  workQReadIndex : Nat
  workQWriteIndex : Nat
  workQIsEmpty : Bool
  kernelState : Bool
  stack : List Ctx
  panicked : Bool
  added : List Call
  taken : Nat
  executed : List Call

/-- `workQLibInit`; the slots hold anything. -/
def workQLibInit (workQJobs : Nat → Job) : State :=
  { workQJobs := workQJobs, workQReadIndex := 0, workQWriteIndex := 0, workQIsEmpty := true
    kernelState := false, stack := [], panicked := false
    added := [], taken := 0, executed := [] }

/-- A ring index advances. -/
def advance (index : Nat) : Nat := (index + 1) &&& (MAX_WORK_Q_JOBS - 1)

/-- The part of `workQAddN` with the interrupts locked. -/
def workQAdd (m : State) (a : Add) : State :=
  let writeIndex := advance m.workQWriteIndex
  if writeIndex = m.workQReadIndex then
    { m with workQWriteIndex := writeIndex, panicked := true }
  else
    { m with
      workQWriteIndex := writeIndex
      stack := .add m.workQWriteIndex a.stores :: m.stack
      added := m.added ++ [a.call] }

/-- One of the stores of `workQAddN`, the last of which ends the routine. -/
def addStore (m : State) (slot : Nat) (s : Store) (ss : List Store) (rest : List Ctx) : State :=
  { m with
    workQJobs := Function.update m.workQJobs slot ((m.workQJobs slot).store s)
    workQIsEmpty := if s = .workQIsEmpty then false else m.workQIsEmpty
    stack := if ss = [] then rest else .add slot ss :: rest }

/-- The part of `workQDoWork` with the interrupts locked: take the next slot, or
return. -/
def workQDoWorkFetch (m : State) (rest : List Ctx) : State :=
  if m.workQReadIndex ≠ m.workQWriteIndex then
    { m with
      workQReadIndex := advance m.workQReadIndex
      stack := .drain (some m.workQReadIndex) :: rest
      taken := m.taken + 1 }
  else { m with workQIsEmpty := true, stack := rest }

/-- `workQDoWork` reads its slot and calls the job. -/
def workQDoWorkCall (m : State) (slot : Nat) (rest : List Ctx) : State :=
  { m with
    stack := .job :: .drain none :: rest
    executed := m.executed ++ [(m.workQJobs slot).call] }

/-! ## The machine -/

inductive Op where
  | enter
  | leave
  | interrupt
  | intExit
  | add (a : Add)
  | store
  | doWork
  | fetch
  | call
  | jobExit
  deriving DecidableEq, Repr

/-- The context is code that can call the routines. -/
def Ctx.calls : Ctx → Bool
  | .kernel => true
  | .int => true
  | .job => true
  | .add _ _ => false
  | .drain _ => false

/-- One step of the code that runs.  Tasks and interrupts enter the kernel when
`kernelState` is `FALSE`, and jobs are added when it is `TRUE`.  `workQDoWork` is
called where the kernel is left, by `vmxTickAnnounce` as a job, and by
`vmxTickAnnounce` from the clock interrupt.  The kernel is left when
`workQIsEmpty` is `TRUE`. -/
def step (m : State) (op : Op) : Option State :=
  if m.panicked then none
  else
    match op, m.stack with
    | .enter, [] =>
      if m.kernelState then none else some { m with kernelState := true, stack := [.kernel] }
    | .enter, .int :: rest =>
      if m.kernelState then none
      else some { m with kernelState := true, stack := .kernel :: .int :: rest }
    | .leave, .kernel :: rest =>
      if m.workQIsEmpty then some { m with kernelState := false, stack := rest } else none
    | .interrupt, stack => some { m with stack := .int :: stack }
    | .intExit, .int :: rest => some { m with stack := rest }
    | .add a, c :: _ => if c.calls ∧ m.kernelState then some (workQAdd m a) else none
    | .store, .add slot (s :: ss) :: rest => some (addStore m slot s ss rest)
    | .doWork, c :: rest =>
      if c.calls then some { m with stack := .drain none :: c :: rest } else none
    | .fetch, .drain none :: rest => some (workQDoWorkFetch m rest)
    | .call, .drain (some slot) :: rest => some (workQDoWorkCall m slot rest)
    | .jobExit, .job :: rest => some { m with stack := rest }
    | _, _ => none

end Vmx.WorkQ
