import Vmx.Kernel.Waiters
import Vmx.Os.ObjLib

/-!
# `semLib`, `semBLib` and `semCLib`: binary and counting semaphores

A give or a flush with `kernelState` clear acts at once, from a task or from an
interrupt; with `kernelState` set it puts a job on the kernel work queue.  A call
that has to pend or to wake a task enters the kernel: what it has decided is a
`KernWork`, and its kernel section is a step of its own.  Behind it `vmxExit`
runs the jobs of the work queue, saves the context of a caller that has pended, and
leaves the kernel.  The clock interrupt calls `vmxTickAnnounce` whatever `kernelState` is, so the timeout
of a waiter can expire at any time, and with it jobs can run at any point of a
kernel section.

`gives s` counts the gives of `s` that returned `OK`, and `takes s` the takes that
returned `OK` without being flushed: the immediate ones, and those of the tasks
that a give has woken.
-/

namespace Vmx.SemBC

open Lib Util

/-- The union of `SEMAPHORE`: the owner of a binary semaphore, which is `NULL` when
the semaphore is full, or the count of a counting one. -/
inductive SemState where
  | owner (pOwner : Option TaskId)
  | count (n : Nat)
  deriving DecidableEq, Repr

structure Sem where
  verified : Bool
  state : SemState
  deriving DecidableEq, Repr

inductive KernWork where
  | give (semId : Nat)
  | take (semId : Nat) (timeout : Nat)
  | flush (semId : Nat)
  /-- `vmxExit`, which runs the jobs that have come and saves the context of the
  caller. -/
  | exit
  deriving DecidableEq, Repr

/-- A job of the kernel work queue, an entry of `semGiveDeferTable` or of
`semFlushDeferTable` with its argument. -/
inductive DeferJob where
  | give (semId : Nat)
  | flush (semId : Nat)
  deriving DecidableEq, Repr

structure State where
  kern : Kernel
  sem : Nat → Sem
  kernWork : Option KernWork
  workQ : List DeferJob
  gives : Nat → Nat
  takes : Nat → Nat

namespace State

def setSem (m : State) (semId : Nat) (st : SemState) : State :=
  { m with sem := Function.update m.sem semId { m.sem semId with state := st } }

def errnoSet (m : State) (e : Errno) : State :=
  { m with kern := m.kern.setTcb m.kern.taskIdCurrent fun c => { c with errno := e } }

/-- A give has returned `OK`. -/
def given (m : State) (semId : Nat) : State :=
  { m with gives := Function.update m.gives semId (m.gives semId + 1) }

/-- A take has returned, or will return, `OK`. -/
def taken (m : State) (semId : Nat) : State :=
  { m with takes := Function.update m.takes semId (m.takes semId + 1) }

/-- `workQAdd1`. -/
def defer (m : State) (j : DeferJob) : State := { m with workQ := m.workQ ++ [j] }

/-- `kernelState = TRUE`. -/
def enter (m : State) (w : KernWork) : State := { m with kernWork := some w }

end State

/-! ## Gives -/

/-- `semBGive`, up to the kernel section. -/
def semBGive (m : State) (semId : Nat) : State × Int :=
  if objVerifyNeOK (m.sem semId).verified then (m.errnoSet .S_objLib_ID_ERROR, ERROR)
  else
    let pOwner := qFirst (m.kern.pendQ (.semQ semId))
    let m := (m.setSem semId (.owner pOwner)).given semId
    if pOwner = none then (m, OK) else (m.enter (.give semId), OK)

/-- `semCGive`, up to the kernel section. -/
def semCGive (m : State) (semId : Nat) (n : Nat) : State × Int :=
  if objVerifyNeOK (m.sem semId).verified then (m.errnoSet .S_objLib_ID_ERROR, ERROR)
  else if qFirst (m.kern.pendQ (.semQ semId)) = none then
    ((m.setSem semId (.count (u32 (n + 1)))).given semId, OK)
  else ((m.given semId).enter (.give semId), OK)

/-- `semGiveDefer`. -/
def semGiveDefer (m : State) (semId : Nat) : State × Int :=
  if objVerifyNeOK (m.sem semId).verified then (m.errnoSet .S_objLib_ID_ERROR, ERROR)
  else ((m.defer (.give semId)).given semId, OK)

/-- `semGive`. -/
def semGive (m : State) (semId : Nat) : State × Int :=
  if m.kernWork.isSome then semGiveDefer m semId
  else
    match (m.sem semId).state with
    | .owner _ => semBGive m semId
    | .count n => semCGive m semId n

/-- The kernel section of both gives. -/
def semKernGive (m : State) (semId : Nat) : State :=
  let m := if m.kern.pendQ (.semQ semId) = [] then m else m.taken semId
  { m with kern := vmxPendQGet m.kern (.semQ semId), kernWork := some .exit }

/-- `semBGiveDefer`. -/
def semBGiveDefer (m : State) (semId : Nat) : State :=
  if objVerifyEqOK (m.sem semId).verified then
    let pOwner := qFirst (m.kern.pendQ (.semQ semId))
    let m := m.setSem semId (.owner pOwner)
    if pOwner = none then m
    else { m.taken semId with kern := vmxPendQGet m.kern (.semQ semId) }
  else m

/-- `semCGiveDefer`. -/
def semCGiveDefer (m : State) (semId : Nat) (n : Nat) : State :=
  if objVerifyEqOK (m.sem semId).verified then
    if qFirst (m.kern.pendQ (.semQ semId)) = none then m.setSem semId (.count (u32 (n + 1)))
    else { m.taken semId with kern := vmxPendQGet m.kern (.semQ semId) }
  else m

/-! ## Takes -/

/-- The text that `semBTake` and `semCTake` share, up to the kernel section, around
their tests and what they store.  The status is `none` when the call goes on in
the kernel. -/
def takeIf (m : State) (semId : Nat) (timeout : Nat) (available : Bool) (after : SemState) :
    State × Option Int :=
  if objVerifyNeOK (m.sem semId).verified then (m.errnoSet .S_objLib_ID_ERROR, some ERROR)
  else if available then ((m.setSem semId after).taken semId, some OK)
  else if timeout = WAIT_NONE then (m.errnoSet .S_objLib_UNAVAILABLE, some ERROR)
  else (m.enter (.take semId timeout), none)

/-- `semBTake`: the semaphore is full when it has no owner. -/
def semBTake (m : State) (semId : Nat) (timeout : Nat) (pOwner : Option TaskId) :
    State × Option Int :=
  takeIf m semId timeout pOwner.isNone (.owner (some m.kern.taskIdCurrent))

/-- `semCTake`. -/
def semCTake (m : State) (semId : Nat) (timeout : Nat) (n : Nat) : State × Option Int :=
  takeIf m semId timeout (decide (0 < n)) (.count (n - 1))

/-- `semTake`. -/
def semTake (m : State) (semId : Nat) (timeout : Nat) : State × Option Int :=
  match (m.sem semId).state with
  | .owner pOwner => semBTake m semId timeout pOwner
  | .count n => semCTake m semId timeout n

/-- The kernel section of both takes. -/
def semKernTake (m : State) (semId : Nat) (timeout : Nat) : State :=
  { m with kern := vmxPendQPut m.kern (.semQ semId) timeout, kernWork := some .exit }

/-! ## Flushes -/

/-- `semQFlush`, up to the kernel section. -/
def semQFlush (m : State) (semId : Nat) : State × Int :=
  if objVerifyNeOK (m.sem semId).verified then (m.errnoSet .S_objLib_ID_ERROR, ERROR)
  else if qFirst (m.kern.pendQ (.semQ semId)) = none then (m, OK)
  else (m.enter (.flush semId), OK)

/-- `semFlushDefer`. -/
def semFlushDefer (m : State) (semId : Nat) : State × Int :=
  if objVerifyNeOK (m.sem semId).verified then (m.errnoSet .S_objLib_ID_ERROR, ERROR)
  else (m.defer (.flush semId), OK)

/-- `semFlush`. -/
def semFlush (m : State) (semId : Nat) : State × Int :=
  if m.kernWork.isSome then semFlushDefer m semId else semQFlush m semId

/-- The kernel section of `semQFlush`. -/
def semKernFlush (m : State) (semId : Nat) : State :=
  { m with kern := vmxPendQFlush m.kern (.semQ semId), kernWork := some .exit }

/-- `semQFlushDefer`. -/
def semQFlushDefer (m : State) (semId : Nat) : State :=
  if qFirst (m.kern.pendQ (.semQ semId)) ≠ none then
    { m with kern := vmxPendQFlush m.kern (.semQ semId) }
  else m

/-! ## The machine -/

def DeferJob.run (m : State) : DeferJob → State
  | .give semId =>
    match (m.sem semId).state with
    | .owner _ => semBGiveDefer m semId
    | .count n => semCGiveDefer m semId n
  | .flush semId => semQFlushDefer m semId

/-- The timeout of `t` has expired.  A take returns the value that is in the saved
context, and `vmxExit` clears it there: when that is still to come, the take will
return `OK`. -/
def timedOut (m : State) (t : TaskId) : State :=
  match (m.kern.tcb t).pPendQ with
  | some (.semQ s) =>
    if m.kernWork.isSome ∧ t = m.kern.taskIdCurrent ∧ (m.kern.tcb t).status.pend then m.taken s
    else m
  | _ => m

/-- The kernel section in progress; `vmxExit` leaves the kernel when there are no
jobs. -/
def KernWork.run (m : State) : KernWork → Option State
  | .give semId => some (semKernGive m semId)
  | .take semId timeout => some (semKernTake m semId timeout)
  | .flush semId => some (semKernFlush m semId)
  | .exit =>
    if m.workQ = [] then some { m with kern := saveTaskContext m.kern, kernWork := none } else none

inductive Op where
  | give (semId : Nat)
  | take (semId : Nat) (timeout : Nat)
  | flush (semId : Nat)
  | kern
  | drain
  | expire (tcbId : TaskId)
  | env (op : EnvOp)
  deriving DecidableEq, Repr

/-- One step.  Gives and flushes come from tasks and from interrupts, takes from
the task that runs. -/
def step (m : State) : Op → Option State
  | .give s => some (semGive m s).1
  | .take s timeout =>
    if m.kernWork = none ∧ running m.kern then some (semTake m s timeout).1 else none
  | .flush s => some (semFlush m s).1
  | .kern => m.kernWork.bind fun w => w.run m
  | .drain =>
    match m.workQ with
    | [] => none
    | j :: rest => if m.kernWork.isSome then some (j.run { m with workQ := rest }) else none
  | .expire t =>
    if (m.kern.tcb t).status.delay then
      some { timedOut m t with kern := expireTask m.kern t }
    else none
  | .env op =>
    if m.kernWork = none then (envStep m.kern op).map fun k => { m with kern := k } else none

/-- New semaphores over a kernel. -/
def init (k : Kernel) (states : Nat → SemState) : State :=
  { kern := k
    sem := fun s => { verified := true, state := states s }
    kernWork := none
    workQ := []
    gives := fun _ => 0
    takes := fun _ => 0 }

end Vmx.SemBC
