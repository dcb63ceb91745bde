import Vmx.Kernel.Waiters
import Vmx.Os.ObjLib

/-!
# `semMLib`: mutual exclusion semaphores

The calls of a mutex and the machine of their interleavings.  A call runs with
the interrupts locked up to the point where it enters the kernel.  What it has
decided to do there is a `KernWork`, and the kernel section is a step of its own:
between the two only the clock interrupt runs, and it can expire the timeout of
any waiter.  It can also do so between the pending of a task and the saving of its
context.  Tasks run their calls with `intCnt` 0, so `INT_RESTRICT` lets them
pass.

`held` and `safes` are ghosts.  `held s t` counts the takes of mutex `s` that
returned `OK` to task `t` and have not been given back: a task that is woken from
its wait returns `OK`.  A forced give undoes the nested takes of the owner and
then its last one, and the end of a mutex undoes all takes of it.  `safes t`
counts the outstanding `taskSafe` calls that protect `t`: those of the task itself
and that of a `taskDestroy` for its victim.
-/

namespace Vmx.Mutex

open Lib Util

/-- `SEMAPHORE`, of type `SEM_TYPE_MUTEX`.  `verified` says that the object core
names the semaphore class, `deleteSafe` is the option `SEM_DELETE_SAFE`, and
`recurse` has 16 bits. -/
structure SemM where
  verified : Bool
  deleteSafe : Bool
  owner : Option TaskId
  recurse : Nat
  deriving DecidableEq, Repr

/-- A kernel section that a call has entered and not left. -/
inductive KernWork where
  /-- `semMKernGive` with the flags `SEM_M_Q_GET` and `SEM_M_SAFE_Q_FLUSH`. -/
  | give (semId : Nat) (qGet safeQFlush : Bool)
  | take (semId : Nat) (timeout : Nat)
  | giveForce (semId : Nat) (taskIsValid : Bool)
  | destroy (semId : Nat)
  /-- `vmxExit` of a task that has pended, which saves its context. -/
  | exit (semId : Nat)
  deriving DecidableEq, Repr

/-- Mutexes `0` to `nSem - 1` over a kernel.  `kernelState` is `TRUE` while
there is kernel work. -/
structure State where
  kern : Kernel
  nSem : Nat
  sem : Nat → SemM
  kernWork : Option KernWork
  held : Nat → TaskId → Nat
  safes : TaskId → Nat

namespace State

def setSem (m : State) (semId : Nat) (f : SemM → SemM) : State :=
  { m with sem := Function.update m.sem semId (f (m.sem semId)) }

def setHeld (m : State) (semId : Nat) (t : TaskId) (n : Nat) : State :=
  { m with held := Function.update m.held semId (Function.update (m.held semId) t n) }

def errnoSet (m : State) (e : Errno) : State :=
  { m with kern := m.kern.setTcb m.kern.taskIdCurrent fun c => { c with errno := e } }

end State

/-! ## The delete safety count -/

/-- `tcbId->safeCount++`. -/
def safeCountUp (k : Kernel) (t : TaskId) : Kernel :=
  k.setTcb t fun c => { c with safeCount := u32 (c.safeCount + 1) }

/-- `--tcbId->safeCount`, in 32 bits. -/
def safeCountDown (k : Kernel) (t : TaskId) : Kernel :=
  k.setTcb t fun c => { c with safeCount := u32 (c.safeCount + 4294967295) }

/-- A mutex with `SEM_DELETE_SAFE` protects the task. -/
def safeTake (k : Kernel) (deleteSafe : Bool) (t : TaskId) : Kernel :=
  if deleteSafe then safeCountUp k t else k

/-- A mutex with `SEM_DELETE_SAFE` does not protect the task any more.  The answer
says that the count is 0 and that tasks wait for it. -/
def safeGive (k : Kernel) (deleteSafe : Bool) (t : TaskId) : Kernel × Bool :=
  if deleteSafe then
    let k := safeCountDown k t
    (k, decide ((k.tcb t).safeCount = 0 ∧ k.pendQ (.safetyQ t) ≠ []))
  else (k, false)

def safeQFlush (k : Kernel) (flush : Bool) (t : TaskId) : Kernel :=
  if flush then vmxPendQFlush k (.safetyQ t) else k

/-! ## The calls -/

/-- `semMGive`, up to the kernel section.  The status is `none` when the call goes
on in the kernel. -/
def semMGive (m : State) (semId : Nat) : State × Option Int :=
  let t := m.kern.taskIdCurrent
  if (m.sem semId).verified = false then (m.errnoSet .S_objLib_ID_ERROR, some ERROR)
  else if (m.sem semId).owner ≠ some t then (m.errnoSet .S_semLib_NOT_OWNER, some ERROR)
  else if 0 < (m.sem semId).recurse then
    ((m.setSem semId fun s => { s with recurse := s.recurse - 1 }).setHeld semId t
      (m.held semId t - 1), some OK)
  else
    let pOwner := qFirst (m.kern.pendQ (.semQ semId))
    let given := safeGive m.kern (m.sem semId).deleteSafe t
    let m := (m.setSem semId fun s => { s with owner := pOwner }).setHeld semId t
      (m.held semId t - 1)
    let m := { m with kern := given.1 }
    if pOwner.isSome = false ∧ given.2 = false then (m, some OK)
    else ({ m with kernWork := some (.give semId pOwner.isSome given.2) }, none)

/-- `semMKernGive`. -/
def semMKernGive (m : State) (semId : Nat) (qGet flush : Bool) : State :=
  let m :=
    if qGet then
      let woken := qFirst (m.kern.pendQ (.semQ semId))
      let k := vmxPendQGet m.kern (.semQ semId)
      let k :=
        match (m.sem semId).owner with
        | none => { k with fault := true }
        | some pOwner => safeTake k (m.sem semId).deleteSafe pOwner
      let m := { m with kern := k }
      match woken with
      | none => m
      | some t => m.setHeld semId t (m.held semId t + 1)
    else m
  { m with kern := safeQFlush m.kern flush m.kern.taskIdCurrent, kernWork := none }

/-- `semMTake`, up to the kernel section.  With `WAIT_NONE` it returns without
unlocking the interrupts. -/
def semMTake (m : State) (semId : Nat) (timeout : Nat) : State × Option Int :=
  let t := m.kern.taskIdCurrent
  if (m.sem semId).verified = false then (m.errnoSet .S_objLib_ID_ERROR, some ERROR)
  else
    match (m.sem semId).owner with
    | none =>
      ({ (m.setSem semId fun s => { s with owner := some t }).setHeld semId t
          (m.held semId t + 1) with
        kern := safeTake m.kern (m.sem semId).deleteSafe t }, some OK)
    | some pOwner =>
      if pOwner = t then
        ((m.setSem semId fun s => { s with recurse := (s.recurse + 1) % 65536 }).setHeld semId t
          (m.held semId t + 1), some OK)
      else if timeout = WAIT_NONE then (m.errnoSet .S_objLib_UNAVAILABLE, some ERROR)
      else ({ m with kernWork := some (.take semId timeout) }, none)

/-- The kernel section of `semMTake`. -/
def semMKernTake (m : State) (semId : Nat) (timeout : Nat) : State :=
  { m with kern := vmxPendQPut m.kern (.semQ semId) timeout, kernWork := some (.exit semId) }

/-- `semMGiveForce`, up to the kernel section.  The owner goes on with a call of
`semMGive`, which is a step of its own. -/
def semMGiveForce (m : State) (semId : Nat) : State × Option Int :=
  if (m.sem semId).verified = false then (m.errnoSet .S_objLib_ID_ERROR, some ERROR)
  else
    match (m.sem semId).owner with
    | none =>
      ({ m.setSem semId fun s => { s with recurse := 0 } with
        kernWork := some (.giveForce semId false) }, none)
    | some pOwner =>
      let m := (m.setSem semId fun s => { s with recurse := 0 }).setHeld semId pOwner 1
      if pOwner = m.kern.taskIdCurrent then (m, none)
      else ({ m with kernWork := some (.giveForce semId (decide (live m.kern pOwner))) }, none)

/-- The first part of the kernel section of `semMGiveForce`: the old owner loses
the mutex.  The rest, for a new owner, is that of `semMKernGive`. -/
def semMKernGiveForce (m : State) (semId : Nat) (taskIsValid : Bool) : State :=
  let m :=
    match (m.sem semId).owner with
    | none => m
    | some pOwner =>
      let m := m.setHeld semId pOwner 0
      if taskIsValid then
        let given := safeGive m.kern (m.sem semId).deleteSafe pOwner
        { m with kern := safeQFlush given.1 given.2 pOwner }
      else m
  let pNewOwner := qFirst (m.kern.pendQ (.semQ semId))
  { m.setSem semId fun s => { s with owner := pNewOwner } with
    kernWork := if pNewOwner.isSome then some (.give semId true false) else none }

/-- `vmxSemDelete`. -/
def vmxSemDelete (m : State) (semId : Nat) : State :=
  let k := vmxPendQTerminate m.kern (.semQ semId)
  match (m.sem semId).owner with
  | none => { m with kern := k }
  | some pOwner =>
    if objVerifyEqOK (decide (live k pOwner)) then
      let given := safeGive k (m.sem semId).deleteSafe pOwner
      { m with kern := safeQFlush given.1 given.2 pOwner }
    else { m with kern := k }

/-- `semDestroy`, up to the kernel section. -/
def semDestroy (m : State) (semId : Nat) : State × Option Int :=
  if (m.sem semId).verified = false then (m.errnoSet .S_objLib_ID_ERROR, some ERROR)
  else
    ({ m.setSem semId fun s => { s with verified := false } with
      kernWork := some (.destroy semId) }, none)

/-- `taskSafe`, and the same count for the victim of a `taskDestroy`. -/
def taskSafe (m : State) (t : TaskId) : State :=
  { m with
    kern := safeCountUp m.kern t
    safes := Function.update m.safes t (m.safes t + 1) }

/-- `taskUnsafe`. -/
def taskUnsafe (m : State) : State :=
  let t := m.kern.taskIdCurrent
  let m := { m with safes := Function.update m.safes t (m.safes t - 1) }
  if 0 < (m.kern.tcb t).safeCount then
    let given := safeGive m.kern true t
    { m with kern := safeQFlush given.1 given.2 t }
  else m

/-- The kernel section of `semDestroy`.  The caller is safe until it has freed the
memory, and then calls `taskUnsafe`. -/
def semKernDestroy (m : State) (semId : Nat) : State :=
  let m := vmxSemDelete m semId
  let m := taskSafe m m.kern.taskIdCurrent
  { m with held := Function.update m.held semId fun _ => 0, kernWork := none }

/-! ## The machine -/

inductive Op where
  | take (semId : Nat) (timeout : Nat)
  | give (semId : Nat)
  | giveForce (semId : Nat)
  | destroy (semId : Nat)
  | taskSafe
  | taskUnsafe
  | protect (tcbId : TaskId)
  | kern
  | expire (tcbId : TaskId)
  | env (op : EnvOp)
  deriving DecidableEq, Repr

/-- A task calls: it runs, and no other task is in the kernel. -/
def State.calls (m : State) : Prop := m.kernWork = none ∧ running m.kern

instance (m : State) : Decidable m.calls := inferInstanceAs (Decidable (_ ∧ _))

/-- The kernel section in progress. -/
def KernWork.run (m : State) : KernWork → State
  | .give semId qGet flush => semMKernGive m semId qGet flush
  | .take semId timeout => semMKernTake m semId timeout
  | .giveForce semId taskIsValid => semMKernGiveForce m semId taskIsValid
  | .destroy semId => semKernDestroy m semId
  | .exit _ => { m with kern := saveTaskContext m.kern, kernWork := none }

/-- The timeout of `t` has expired.  A take returns the value that is in the saved
context, and `vmxExit` clears it there: when that is still to come, the take will
return `OK`. -/
def timedOut (m : State) (t : TaskId) : State :=
  match m.kernWork with
  | some (.exit semId) =>
    if t = m.kern.taskIdCurrent then m.setHeld semId t (m.held semId t + 1) else m
  | _ => m

/-- One step.  The timeout of a waiter can expire at any time, also in a kernel
section.  `taskUnsafe` matches a `taskSafe`. -/
def step (m : State) : Op → Option State
  | .take s timeout => if m.calls ∧ s < m.nSem then some (semMTake m s timeout).1 else none
  | .give s => if m.calls ∧ s < m.nSem then some (semMGive m s).1 else none
  | .giveForce s => if m.calls ∧ s < m.nSem then some (semMGiveForce m s).1 else none
  | .destroy s => if m.calls ∧ s < m.nSem then some (semDestroy m s).1 else none
  | .taskSafe => if m.calls then some (taskSafe m m.kern.taskIdCurrent) else none
  | .taskUnsafe =>
    if m.calls ∧ 0 < m.safes m.kern.taskIdCurrent then some (taskUnsafe m) else none
  | .protect t => if m.calls ∧ live m.kern t then some (taskSafe m t) else none
  | .kern => m.kernWork.map fun w => w.run m
  | .expire t =>
    if (m.kern.tcb t).status.delay then
      some { timedOut m t with kern := expireTask m.kern t }
    else none
  | .env op =>
    if m.kernWork = none then (envStep m.kern op).map fun k => { m with kern := k } else none

/-- New mutexes over a kernel. -/
def init (k : Kernel) (nSem : Nat) (deleteSafe : Nat → Bool) : State :=
  { kern := k
    nSem := nSem
    sem := fun s => { verified := true, deleteSafe := deleteSafe s, owner := none, recurse := 0 }
    kernWork := none
    held := fun _ _ => 0
    safes := fun _ => 0 }

end Vmx.Mutex
