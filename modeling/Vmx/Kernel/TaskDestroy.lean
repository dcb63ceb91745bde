import Vmx.Kernel.CallTrace

/-!
# `taskLib`: delete safety

`taskDestroy` and `taskRestart` as the list of their effects, for a caller with its own protection
(`Safety`).  Between two locked sections anything can happen to another task, so a call gets a list
of *turns*: what it finds of the task each time it has the interrupts locked.  The caller's own
counters are changed by the caller alone.

A call on another task acts on it once, when its safe count is 0.  A call on the caller itself drops
the protection, and the waiters run, before the caller goes away.  A call that returns leaves the
counters of the caller as they were.  `call_right_iff` says when all this holds.
-/

namespace Vmx.TaskDestroy

open Lib Util

/-- What protects a task from being deleted, and the tasks that wait for that to end. -/
structure Safety where
  safeCount : UInt32
  lockCount : UInt32
  safetyQ : List TaskId
  deriving DecidableEq, Repr

/-- What `taskRestart` copies before the task is terminated. -/
structure TaskData where
  name : Option String
  priority : Nat
  options : Nat
  pStackBase : Nat
  stackSize : Nat
  entry : Nat
  args : List Nat
  deriving DecidableEq, Repr

/-- The error numbers that the two calls set themselves. -/
inductive TaskErrno where
  | S_intLib_NOT_ISR_CALLABLE
  | S_objLib_ID_ERROR
  | S_taskLib_INVALID_TIMEOUT
  deriving DecidableEq, Repr

/-- An effect of a call. -/
inductive Event where
  | errnoSet (e : TaskErrno)
  | taskSafe
  | taskUnsafe
  | taskLock
  | taskUnlock
  /-- `sigt_blocked = 0xffffffff`. -/
  | sigBlock (tcbId : TaskId)
  /-- `safeCount = 0` and `lockCount = 0`. -/
  | unprotect (tcbId : TaskId)
  /-- `vmxPendQFlush` of the safety queue of a task. -/
  | safetyQFlush (tcbId : TaskId)
  /-- `vmxPendQPut` of the safety queue of a task. -/
  | safetyQPut (tcbId : TaskId) (timeout : Nat)
  /-- The loop has ended with this safe count: the task is the candidate for deletion. -/
  | selected (tcbId : TaskId) (safeCount : UInt32)
  /-- `tcbId->safeCount++`. -/
  | safeCountUp (tcbId : TaskId)
  | vmxSuspend (tcbId : TaskId)
  | deleteHooks (tcbId : TaskId)
  | stackFree (tcbId : TaskId)
  | objCoreTerminate (tcbId : TaskId)
  | vmxDelete (tcbId : TaskId)
  /-- `excJobAdd` of a `taskDestroy` of the caller. -/
  | excJobAdd
  /-- `taskSpawn` of a task that restarts the caller. -/
  | taskSpawn
  /-- `taskSuspend(0)`. -/
  | taskSuspend
  | taskInit (tcbId : TaskId) (data : TaskData)
  | taskActivate (tcbId : TaskId)
  deriving DecidableEq, Repr

/-- How a call ends: it returns, still waits, or its caller has gone away in it. -/
inductive Out where
  | returns (status : Int)
  | waits
  | gone
  deriving DecidableEq, Repr

/-- What a call finds of the other task in one turn, whether `vmxPendQPut` puts the caller on the
safety queue, and what `vmxExit` returns after that. -/
structure Turn where
  verified : Bool
  signals : Bool
  safety : Safety
  ready : Bool
  putOk : Bool
  exit : Int
  deriving DecidableEq, Repr

/-- The condition of the loop: the task is safe, or runs locked. -/
def Turn.safeOrLocked (t : Turn) : Bool :=
  0 < t.safety.safeCount || (t.ready && 0 < t.safety.lockCount)

/-- What a deletion finds at its end. -/
structure Final where
  deallocStack : Bool
  safetyQ : List TaskId
  deriving DecidableEq, Repr

/-- The flush of a safety queue that is not empty. -/
def flushEvents (tcbId : TaskId) (safetyQ : List TaskId) : List Event :=
  if safetyQ = [] then [] else [.safetyQFlush tcbId]

/-- `while (safeCount > 0) taskUnsafe()`. -/
def taskUnsafeLoop (n : Nat) : List Event :=
  match n with
  | 0 => []
  | n + 1 => .taskUnsafe :: taskUnsafeLoop n

/-- `while (safeCount > 0) taskSafe()`. -/
def taskSafeLoop (safeCount : UInt32) : List Event :=
  if safeCount = 0 then [] else .taskSafe :: taskSafeLoop (safeCount + 1)
termination_by (4294967296 - safeCount.toNat) % 4294967296
decreasing_by
  have hne : safeCount.toNat ≠ 0 := fun h => by
    rename_i hzero
    exact hzero (UInt32.toNat_inj.mp h)
  have hlt := safeCount.toNat_lt
  have hadd : (safeCount + 1).toNat = (safeCount.toNat + 1) % 4294967296 :=
    UInt32.toNat_add safeCount 1
  omega

/-- The end of `taskDestroy` up to the kernel section of `vmxDelete`. -/
def deleteEvents (tcbId : TaskId) (self freeStack : Bool) (fin : Final) : List Event :=
  [.taskSafe, .safeCountUp tcbId] ++ (if self then [] else [.vmxSuspend tcbId]) ++
    [.deleteHooks tcbId, .taskLock] ++
    (if freeStack && fin.deallocStack then [.stackFree tcbId] else []) ++
    [.objCoreTerminate tcbId, .vmxDelete tcbId] ++ flushEvents tcbId fin.safetyQ

/-- `taskDestroy` of another task from `taskDestroyLoop` on.  `mask` is set when the loop starts
again, `sigTimeoutRecalc` is what a restarted call does to its timeout. -/
def destroyLoop (sigTimeoutRecalc : Nat → Nat) (tcbId : TaskId) (freeStack force : Bool)
    (fin : Final) (timeout : Nat) (mask : Bool) : List Turn → List Event × Out
  | [] => ([], .waits)
  | t :: turns =>
    if t.verified = false then ([.errnoSet .S_objLib_ID_ERROR], .returns ERROR)
    else
      let start := if mask && t.signals then [.sigBlock tcbId] else []
      if t.safeOrLocked then
        if force then
          let r := destroyLoop sigTimeoutRecalc tcbId freeStack force fin timeout false turns
          (start ++ .unprotect tcbId :: flushEvents tcbId t.safety.safetyQ ++ r.1, r.2)
        else if t.putOk = false then
          (start ++ [.safetyQPut tcbId timeout, .errnoSet .S_taskLib_INVALID_TIMEOUT],
            .returns ERROR)
        else if t.exit = SIG_RESTART then
          let r := destroyLoop sigTimeoutRecalc tcbId freeStack force fin
            (sigTimeoutRecalc timeout) true turns
          (start ++ .safetyQPut tcbId timeout :: r.1, r.2)
        else if t.exit = ERROR then (start ++ [.safetyQPut tcbId timeout], .returns ERROR)
        else
          let r := destroyLoop sigTimeoutRecalc tcbId freeStack force fin timeout false turns
          (start ++ .safetyQPut tcbId timeout :: r.1, r.2)
      else
        (start ++ .selected tcbId t.safety.safeCount ::
          deleteEvents tcbId false freeStack fin ++ [.taskUnlock, .taskUnsafe], .returns OK)

/-- `taskDestroy` of the caller.  It is a task and it runs, so nothing but its own lock count can
stop it in the loop when `excJobAdd` has failed. -/
def destroySelf (self : TaskId) (own : Safety) (signals excJobAddOk freeStack : Bool)
    (fin : Final) : List Event × Out :=
  let unsafeEvents := taskUnsafeLoop own.safeCount.toNat ++ [.excJobAdd]
  if excJobAddOk then (unsafeEvents ++ [.taskSuspend], .gone)
  else
    (unsafeEvents ++ (if signals then [.sigBlock self] else []) ++
      (if 0 < own.lockCount then
        .unprotect self :: flushEvents self (if own.safeCount = 0 then own.safetyQ else [])
      else []) ++
      .selected self 0 :: deleteEvents self true freeStack fin, .gone)

/-- `taskTcb`, with whether the id of another task is that of one; the caller is a task. -/
def taskTcb (self taskId : TaskId) (verified : Bool) : Option TaskId :=
  if taskId = 0 then some self
  else if taskId = self || verified then some taskId
  else none

/-- `INT_RESTRICT() != OK`: the call is refused. -/
def notIsrCallable : List Event × Out := ([.errnoSet .S_intLib_NOT_ISR_CALLABLE], .returns ERROR)

/-- What a `taskDestroy` is given and what it finds. -/
structure Destroy where
  freeStack : Bool
  timeout : Nat
  forceDestroy : Bool
  sigTimeoutRecalc : Nat → Nat
  verified : Bool
  signals : Bool
  excJobAddOk : Bool
  turns : List Turn
  fin : Final

/-- `taskDestroy`. -/
def taskDestroy (c : CallTrace.Caller) (own : Safety) (taskId : TaskId) (d : Destroy) :
    List Event × Out :=
  if c.intRestrict then notIsrCallable
  else
    match taskTcb c.taskIdCurrent taskId d.verified with
    | none => ([.errnoSet .S_objLib_ID_ERROR], .returns ERROR)
    | some tcbId =>
      if tcbId = c.taskIdCurrent then
        destroySelf tcbId own d.signals d.excJobAddOk d.freeStack d.fin
      else
        destroyLoop d.sigTimeoutRecalc tcbId d.freeStack d.forceDestroy d.fin d.timeout true d.turns

/-- What a `taskRestart` finds: the task is one, its data, and what `malloc`, `taskInit` and
`taskActivate` answer; and what its `taskTerminate` finds. -/
structure Restart where
  verified : Bool
  data : TaskData
  mallocOk : Bool
  terminate : Destroy
  taskInitOk : Bool
  taskActivateOk : Bool

/-- `taskTerminate` is `taskDestroy` with these arguments. -/
def Destroy.asTerminate (d : Destroy) : Destroy :=
  { d with freeStack := false, timeout := WAIT_FOREVER, forceDestroy := false }

/-- The name is a copy. -/
def Restart.copied (r : Restart) : TaskData :=
  { r.data with name := if r.mallocOk then r.data.name else none }

/-- `taskRestart`. -/
def taskRestart (c : CallTrace.Caller) (own : Safety) (taskId : TaskId) (r : Restart) :
    List Event × Out :=
  if c.intRestrict then notIsrCallable
  else if taskId = 0 ∨ taskId = c.taskIdCurrent then
    (taskSafeLoop own.safeCount ++ [.taskSpawn, .taskSuspend], .gone)
  else
    match taskTcb c.taskIdCurrent taskId r.verified with
    | none => ([.errnoSet .S_objLib_ID_ERROR], .returns ERROR)
    | some tcbId =>
      match taskDestroy c { own with safeCount := own.safeCount + 1 } tcbId
          r.terminate.asTerminate with
      | (tr, .returns status) =>
        if status ≠ OK then (.taskSafe :: tr ++ [.taskUnsafe], .returns ERROR)
        else if r.taskInitOk = false then
          (.taskSafe :: tr ++ [.taskInit tcbId r.copied], .returns ERROR)
        else if r.taskActivateOk = false then
          (.taskSafe :: tr ++ [.taskInit tcbId r.copied, .taskActivate tcbId], .returns ERROR)
        else
          (.taskSafe :: tr ++ [.taskInit tcbId r.copied, .taskActivate tcbId, .taskUnsafe],
            .returns OK)
      | (tr, out) => (.taskSafe :: tr, out)

/-! ## What a call does -/

/-- The effect on the protection of the caller. -/
def Safety.apply (self : TaskId) (s : Safety) : Event → Safety
  | .taskSafe => { s with safeCount := s.safeCount + 1 }
  | .taskUnsafe =>
    if 0 < s.safeCount then
      { s with
        safeCount := s.safeCount - 1
        safetyQ := if s.safeCount - 1 = 0 then [] else s.safetyQ }
    else s
  | .taskLock => { s with lockCount := s.lockCount + 1 }
  | .taskUnlock =>
    if 0 < s.lockCount then
      { s with
        lockCount := s.lockCount - 1
        safetyQ := if s.lockCount - 1 = 0 then [] else s.safetyQ }
    else s
  | .unprotect t => if t = self then { s with safeCount := 0, lockCount := 0 } else s
  | .safeCountUp t => if t = self then { s with safeCount := s.safeCount + 1 } else s
  | .safetyQFlush t => if t = self then { s with safetyQ := [] } else s
  | _ => s

def Safety.after (self : TaskId) (s : Safety) (tr : List Event) : Safety :=
  tr.foldl (Safety.apply self) s

/-- The effects by which a call acts on a task. -/
def Event.isAct : Event → Bool
  | .selected _ _ => true
  | .safeCountUp _ => true
  | .vmxSuspend _ => true
  | .objCoreTerminate _ => true
  | .vmxDelete _ => true
  | .taskInit _ _ => true
  | .taskActivate _ => true
  | _ => false

/-- One deletion of another task, which nothing protects. -/
def deletion (tcbId : TaskId) : List Event :=
  [.selected tcbId 0, .safeCountUp tcbId, .vmxSuspend tcbId, .objCoreTerminate tcbId,
    .vmxDelete tcbId]

/-- All that wait on the safety queue are woken with the deletion. -/
def WakesAll (tcbId : TaskId) (fin : Final) (tr : List Event) : Prop :=
  .vmxDelete tcbId ∈ tr → fin.safetyQ ≠ [] →
    [.vmxDelete tcbId, .safetyQFlush tcbId] <:+: tr

/-- The call deletes the other task once when it returns `OK`, and does not touch it else.  It takes
away a protection only by force. -/
structure DestroysOnce (tcbId : TaskId) (d : Destroy) (r : List Event × Out) : Prop where
  acts : r.1.filter Event.isAct = if r.2 = .returns OK then deletion tcbId else []
  waits : d.forceDestroy = false → .unprotect tcbId ∉ r.1
  wakes : WakesAll tcbId d.fin r.1

/-- The call deletes the other task and starts it again, each once when it returns `OK`. -/
structure RestartsOnce (tcbId : TaskId) (a : Restart) (r : List Event × Out) : Prop where
  acts : r.1.filter Event.isAct <+:
    deletion tcbId ++ [.taskInit tcbId a.copied, .taskActivate tcbId]
  all : r.2 = .returns OK → r.1.filter Event.isAct =
    deletion tcbId ++ [.taskInit tcbId a.copied, .taskActivate tcbId]
  waits : .unprotect tcbId ∉ r.1
  wakes : WakesAll tcbId a.terminate.fin r.1

/-- The caller leaves its end to another task. -/
def Event.leaves : Event → Bool
  | .excJobAdd => true
  | .taskSpawn => true
  | _ => false

/-- The protection of the caller is dropped, and what waited for that runs, before it goes away. -/
structure Drops (caller : TaskId) (own : Safety) (tr : List Event) : Prop where
  leaves : ∃ e ∈ tr, e.leaves = true
  safeCount : (own.after caller (tr.takeWhile fun e => !e.leaves)).safeCount = 0
  safetyQ : own.safeCount ≠ 0 → (own.after caller (tr.takeWhile fun e => !e.leaves)).safetyQ = []

/-- A call with all that it finds. -/
inductive Call where
  | taskDestroy (taskId : TaskId) (d : Destroy)
  | taskRestart (taskId : TaskId) (r : Restart)

namespace Call

variable (c : CallTrace.Caller) (own : Safety)

def run : Call → List Event × Out
  | .taskDestroy taskId d => TaskDestroy.taskDestroy c own taskId d
  | .taskRestart taskId r => TaskDestroy.taskRestart c own taskId r

def taskId : Call → TaskId
  | .taskDestroy taskId _ => taskId
  | .taskRestart taskId _ => taskId

/-- The call is on the caller itself. -/
def OnSelf (call : Call) : Prop := call.taskId = 0 ∨ call.taskId = c.taskIdCurrent

def ActsOnce : Call → List Event × Out → Prop
  | .taskDestroy taskId d => DestroysOnce taskId d
  | .taskRestart taskId r => RestartsOnce taskId r

/-- Delete safety of one call. -/
structure Right (call : Call) : Prop where
  other : ¬ call.OnSelf c → call.ActsOnce (call.run c own)
  onSelf : call.OnSelf c → c.intRestrict = false →
    (call.run c own).2 = .gone ∧ Drops c.taskIdCurrent own (call.run c own).1
  counts : ∀ status, (call.run c own).2 = .returns status →
    (own.after c.taskIdCurrent (call.run c own).1).safeCount = own.safeCount ∧
      (own.after c.taskIdCurrent (call.run c own).1).lockCount = own.lockCount

end Call

/-- How the turns of a call end for it: it still waits, gives up, or finds the task without
protection. -/
def verdict (force : Bool) : List Turn → Option Bool
  | [] => none
  | t :: turns =>
    if t.verified = false then some false
    else if t.safeOrLocked then
      if force ∨ t.putOk ∧ (t.exit = SIG_RESTART ∨ t.exit ≠ ERROR) then verdict force turns
      else some false
    else some true

/-- How the turns of a `taskTerminate` end. -/
def Destroy.terminateVerdict (d : Destroy) : Option Bool :=
  if d.verified then verdict false d.turns else some false

/-- The counters of the caller do not wrap.  A caller that restarts itself is not safe or nothing
waits for that, and after it has terminated another task that task can be started again. -/
def Call.Holds (c : CallTrace.Caller) (own : Safety) : Call → Prop
  | .taskDestroy taskId d =>
    c.intRestrict = false → taskId ≠ 0 → taskId ≠ c.taskIdCurrent → d.verified = true →
      verdict d.forceDestroy d.turns = some true →
      own.safeCount ≠ 4294967295 ∧ own.lockCount ≠ 4294967295
  | .taskRestart taskId r =>
    c.intRestrict = false →
      if taskId = 0 ∨ taskId = c.taskIdCurrent then own.safeCount = 0 ∨ own.safetyQ = []
      else
        r.verified = true →
          (r.terminate.terminateVerdict ≠ none → own.safeCount ≠ 4294967295) ∧
          (r.terminate.terminateVerdict = some true →
            own.safeCount ≠ 4294967294 ∧ own.lockCount ≠ 4294967295 ∧
              r.taskInitOk = true ∧ r.taskActivateOk = true)

end Vmx.TaskDestroy
