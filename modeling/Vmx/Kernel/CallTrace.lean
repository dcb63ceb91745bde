import Vmx.Os.ObjLib

/-!
# What a blocking call does, in order

The calls of `semBLib`, `semCLib`, `semMLib` and `qMsgLib` as the list of their effects: the
interrupt lock, `kernelState`, the kernel routines, and every change of the object, of the caller
and of `errno`.  Between two sections with the interrupts locked any other task and any interrupt
can run.  A call therefore gets a list of *turns*, one for each time it takes the lock: what it
finds then, and what `vmxExit` returns if it waits.  A call whose turns end while it waits has not
returned, and its list of effects is `none`.
-/

namespace Vmx.CallTrace

open Lib Util

/-- The error numbers of `msgQLib`. -/
inductive MsgQErrno where
  | S_msgQLib_INVALID_TIMEOUT
  | S_msgQLib_INVALID_MSG_LENGTH
  deriving DecidableEq, Repr

/-- The two queues of a message queue. -/
inductive MsgQueue where
  | freeQ
  | msgQ
  deriving DecidableEq, Repr

/-- An effect of a call. -/
inductive Event where
  | intLock
  | intUnlock
  /-- `kernelState = TRUE`. -/
  | kernelState
  | vmxPendQPut (timeout : Nat)
  | vmxPendQGet
  | vmxPendQFlush
  | vmxExit
  /-- `workQAdd2` of `qMsgPendQGet`. -/
  | workQAdd2
  | taskLock
  | taskUnlock
  | errnoSet (e : Errno)
  | msgQErrnoSet (e : MsgQErrno)
  | ownerSet (owner : Option TaskId)
  | countSet (count : Nat)
  | recurseSet (recurse : Nat)
  /-- The `safeCount` of a task. -/
  | safeCountSet (tcbId : TaskId) (safeCount : Nat)
  /-- The node is taken from the head of the queue. -/
  | nodeGet (q : MsgQueue) (node : Nat)
  /-- The node is put at the head (`key` 1) or at the tail (`key` 0) of the queue. -/
  | nodePut (q : MsgQueue) (node : Nat) (key : Nat)
  /-- The length and the bytes of the message are stored in the node. -/
  | nodeFill (node : Nat) (nBytes : Nat)
  | sendTimeoutsUp
  deriving DecidableEq, Repr

/-- The task or the interrupt that makes the call.  `taskIdCurrent` is the task that runs or is
interrupted, and `intContext` says that `intCnt` is above 0. -/
structure Caller where
  taskIdCurrent : TaskId
  intContext : Bool
  deriving DecidableEq, Repr

/-- `INT_RESTRICT() != OK`. -/
def Caller.intRestrict (c : Caller) : Bool := c.intContext

/-! ## Semaphores -/

/-- What a call finds of the semaphore in one turn.  `first` is `Q_FIRST(&semId->qHead)`, the next
three fields belong to the mutex and to its calling task, and `exit` is what `vmxExit` returns. -/
structure SemTurn where
  verified : Bool
  owner : Option TaskId
  count : Nat
  recurse : Nat
  first : Option TaskId
  deleteSafe : Bool
  safeCount : TaskId → Nat
  safetyWaiter : Bool
  exit : Int

/-- What every call does to wait: it pends and leaves through the kernel. -/
def waitEvents (timeout : Nat) : List Event :=
  [.intLock, .kernelState, .intUnlock, .vmxPendQPut timeout, .vmxExit]

/-- The object is not a semaphore. -/
def badObject : List Event := [.intLock, .errnoSet .S_objLib_ID_ERROR, .intUnlock]

/-- The loop of the three take calls, for a call that takes the semaphore with the effects
`tryTake`, or leaves with the effects `unavailable` when it must not wait. -/
def takeLoop (tryTake : SemTurn → Option (List Event)) (unavailable : List Event)
    (timeout : Nat) : List SemTurn → Option (List Event × Int)
  | [] => none
  | t :: turns =>
    if objVerifyNeOK t.verified then some (badObject, ERROR)
    else
      match tryTake t with
      | some taken => some (.intLock :: (taken ++ [.intUnlock]), OK)
      | none =>
        if timeout = WAIT_NONE then some (.intLock :: unavailable, ERROR)
        else if t.exit = SIG_RESTART then
          (takeLoop tryTake unavailable timeout turns).map fun r =>
            (waitEvents timeout ++ r.1, r.2)
        else some (waitEvents timeout, t.exit)

/-- `INT_RESTRICT() != OK`: the call is refused. -/
def notIsrCallable : List Event × Int := ([.errnoSet .S_intLib_NOT_ISR_CALLABLE], ERROR)

/-- `semBTake`. -/
def semBTake (c : Caller) (timeout : Nat) (turns : List SemTurn) : Option (List Event × Int) :=
  if c.intRestrict then some notIsrCallable
  else
    takeLoop
      (fun t => if t.owner = none then some [.ownerSet (some c.taskIdCurrent)] else none)
      [.intUnlock, .errnoSet .S_objLib_UNAVAILABLE] timeout turns

/-- `semCTake`. -/
def semCTake (c : Caller) (timeout : Nat) (turns : List SemTurn) : Option (List Event × Int) :=
  if c.intRestrict then some notIsrCallable
  else
    takeLoop (fun t => if t.count > 0 then some [.countSet (t.count - 1)] else none)
      [.intUnlock, .errnoSet .S_objLib_UNAVAILABLE] timeout turns

/-- The take of a mutex that is free or owned by the caller. -/
def semMTryTake (c : Caller) (t : SemTurn) : Option (List Event) :=
  match t.owner with
  | none =>
    some (.ownerSet (some c.taskIdCurrent) ::
      if t.deleteSafe then
        [.safeCountSet c.taskIdCurrent (u32 (t.safeCount c.taskIdCurrent + 1))]
      else [])
  | some pOwner =>
    if pOwner = c.taskIdCurrent then some [.recurseSet ((t.recurse + 1) % 65536)] else none

/-- `semMTake`.  On `WAIT_NONE` it breaks out of the loop without `INT_UNLOCK`. -/
def semMTake (c : Caller) (timeout : Nat) (turns : List SemTurn) : Option (List Event × Int) :=
  if c.intRestrict then some notIsrCallable
  else takeLoop (semMTryTake c) [.errnoSet .S_objLib_UNAVAILABLE] timeout turns

/-- `semBGive`. -/
def semBGive (t : SemTurn) : List Event × Int :=
  if objVerifyNeOK t.verified then (badObject, ERROR)
  else if t.first = none then ([.intLock, .ownerSet t.first, .intUnlock], OK)
  else
    ([.intLock, .ownerSet t.first, .kernelState, .intUnlock, .vmxPendQGet, .vmxExit], OK)

/-- `semCGive`. -/
def semCGive (t : SemTurn) : List Event × Int :=
  if objVerifyNeOK t.verified then (badObject, ERROR)
  else if t.first = none then ([.intLock, .countSet (u32 (t.count + 1)), .intUnlock], OK)
  else ([.intLock, .kernelState, .intUnlock, .vmxPendQGet, .vmxExit], OK)

/-- `semMKernGive`, for the kernel work `qGet` (`SEM_M_Q_GET`, with the new owner) and
`safeQFlush` (`SEM_M_SAFE_Q_FLUSH`). -/
def semMKernGive (t : SemTurn) (qGet : Option TaskId) (safeQFlush : Bool) : List Event × Int :=
  ((match qGet with
    | none => []
    | some pOwner =>
      .vmxPendQGet ::
        if t.deleteSafe then [.safeCountSet pOwner (u32 (t.safeCount pOwner + 1))] else []) ++
    (if safeQFlush then [.vmxPendQFlush] else []) ++ [.vmxExit], t.exit)

/-- `--taskIdCurrent->safeCount`, for a semaphore with `SEM_DELETE_SAFE`. -/
def safeCountDown (c : Caller) (t : SemTurn) : List Event :=
  if t.deleteSafe then
    [.safeCountSet c.taskIdCurrent (u32 (t.safeCount c.taskIdCurrent + 4294967295))]
  else []

/-- The last give of a mutex flushes the safety queue of the caller. -/
def safeQFlush (c : Caller) (t : SemTurn) : Bool :=
  t.deleteSafe && u32 (t.safeCount c.taskIdCurrent + 4294967295) == 0 && t.safetyWaiter

/-- `semMGive`. -/
def semMGive (c : Caller) (t : SemTurn) : List Event × Int :=
  if c.intRestrict then notIsrCallable
  else if objVerifyNeOK t.verified then (badObject, ERROR)
  else if some c.taskIdCurrent ≠ t.owner then
    ([.intLock, .intUnlock, .errnoSet .S_semLib_NOT_OWNER], ERROR)
  else if t.recurse > 0 then ([.intLock, .recurseSet (t.recurse - 1), .intUnlock], OK)
  else if t.first = none ∧ safeQFlush c t = false then
    (.intLock :: .ownerSet t.first :: (safeCountDown c t ++ [.intUnlock]), OK)
  else
    (.intLock :: .ownerSet t.first :: (safeCountDown c t ++ [.kernelState, .intUnlock] ++
      (semMKernGive t t.first (safeQFlush c t)).1), (semMKernGive t t.first (safeQFlush c t)).2)

/-! ## Message queue nodes -/

/-- What a call finds of one queue of a message queue in one turn.  `node` is `pQHead->first`,
`waiter` says that a task is pended on the queue.  The last three fields are for the time after
a wait: what `vmxExit` returned, the check of the object, and whether `errno` is
`S_objLib_TIMEOUT`. -/
structure QTurn where
  node : Option Nat
  waiter : Bool
  kernelState : Bool
  exit : Int
  verifiedAfter : Bool
  timedOut : Bool
  deriving DecidableEq, Repr

/-- What `qMsgGet` returns: a node, `NONE` after a signal, or `NULL`.  With `NULL` come the
two things that its callers look at next: whether `errno` is `S_objLib_TIMEOUT` and the check of
the object. -/
inductive QMsgNode where
  | node (pNode : Nat)
  | NONE
  | NULL (timedOut verified : Bool)
  deriving DecidableEq, Repr

/-- `qMsgGet`. -/
def qMsgGet (q : MsgQueue) (timeout : Nat) : List QTurn → Option (List Event × QMsgNode)
  | [] => none
  | t :: turns =>
    match t.node with
    | some pNode => some ([.intLock, .nodeGet q pNode, .intUnlock], .node pNode)
    | none =>
      if timeout = WAIT_NONE then
        some ([.intLock, .msgQErrnoSet .S_msgQLib_INVALID_TIMEOUT, .intUnlock],
          .NULL false t.verifiedAfter)
      else if t.exit = SIG_RESTART then some (waitEvents timeout, .NONE)
      else if t.exit ≠ OK then some (waitEvents timeout, .NULL t.timedOut t.verifiedAfter)
      else if objVerifyNeOK t.verifiedAfter then
        some (waitEvents timeout ++
          [.errnoSet .S_objLib_ID_ERROR, .errnoSet .S_objLib_DELETED], .NULL false false)
      else (qMsgGet q timeout turns).map fun r => (waitEvents timeout ++ r.1, r.2)

/-- `qMsgPut` of a node.  When it finds `kernelState` set it returns its local variable `status`
without having stored anything in it: `uninit`. -/
def qMsgPut (q : MsgQueue) (pNode key : Nat) (uninit : Int) (t : QTurn) : List Event × Int :=
  if t.kernelState then ([.intLock, .nodePut q pNode key, .intUnlock, .workQAdd2], uninit)
  else if t.waiter = false then ([.intLock, .nodePut q pNode key, .intUnlock], OK)
  else
    ([.intLock, .nodePut q pNode key, .kernelState, .intUnlock, .vmxPendQGet, .vmxExit], OK)

/-! ## The discipline of a list of effects -/

/-- The interrupt lock is released as often as it is taken. -/
def LockBalanced (tr : List Event) : Prop := tr.count .intLock = tr.count .intUnlock

instance (tr : List Event) : Decidable (LockBalanced tr) :=
  inferInstanceAs (Decidable (tr.count .intLock = tr.count .intUnlock))

/-- `vmxExit` is only entered after `kernelState` has been set, once for each time. -/
def exitsInKernel : Bool → List Event → Bool
  | _, [] => true
  | _, .kernelState :: tr => exitsInKernel true tr
  | set, .vmxExit :: tr => set && exitsInKernel false tr
  | set, _ :: tr => exitsInKernel set tr

/-- The call has released what it took and has left the kernel only from within. -/
def WellBehaved (tr : List Event) : Prop := LockBalanced tr ∧ exitsInKernel false tr = true

instance (tr : List Event) : Decidable (WellBehaved tr) :=
  inferInstanceAs (Decidable (_ ∧ _))

theorem lockBalanced_waitEvents (timeout : Nat) : LockBalanced (waitEvents timeout) := by
  simp [LockBalanced, waitEvents]

/-- A wait sets `kernelState` and clears it again. -/
theorem exitsInKernel_wait (set : Bool) (timeout : Nat) (tr : List Event) :
    exitsInKernel set (waitEvents timeout ++ tr) = exitsInKernel false tr := by
  simp [waitEvents, exitsInKernel]

/-- A wait in front changes nothing. -/
theorem wellBehaved_wait_append {timeout : Nat} {tr : List Event} :
    WellBehaved (waitEvents timeout ++ tr) ↔ WellBehaved tr := by
  unfold WellBehaved
  rw [exitsInKernel_wait]
  have hwait : LockBalanced (waitEvents timeout) := lockBalanced_waitEvents timeout
  unfold LockBalanced at *
  rw [List.count_append, List.count_append]
  constructor
  · intro h
    exact ⟨by omega, h.2⟩
  · intro h
    exact ⟨by omega, h.2⟩

theorem wellBehaved_waitEvents (timeout : Nat) : WellBehaved (waitEvents timeout) := by
  have h : WellBehaved (waitEvents timeout ++ []) := by
    rw [wellBehaved_wait_append]
    decide
  rwa [List.append_nil] at h

theorem wellBehaved_badObject : WellBehaved badObject := by decide

end Vmx.CallTrace
