import Vmx.Kernel.State

/-!
# `vmxLib`: the routines of the kernel

The routines as the source has them, one definition each.  The tails that the
source repeats (cancel the timeout, put the task on the ready queue if it is
ready) are `cancelDelay` and `putIfReady`.

A watchdog function is code of its own.  It runs at interrupt level, and what it
can do to the kernel is a list of `Job`s, which either run at once or from the
work queue right after it.  `vmxTickAnnounce` takes the job lists of the
watchdogs that expire, in order.

The unpend handler is `NULL` in every task: `vmxPendQPut` is the only caller of
`vmxPendQWithHandlerPut`.  The swap hooks are not modelled.
-/

namespace Vmx

open Lib Util

/-! ## Tasks -/

/-- `vmxSpawn`. -/
def vmxSpawn (k : Kernel) (tcbId : TaskId) : Kernel := k.activeQPut tcbId

/-- The part of `taskInit` before `vmxSpawn`. -/
def tcbInit (priority : Nat) : Tcb :=
  { status := TASK_SUSPEND, priority := priority, timeSlice := 0, lockCount := 0, pPendQ := none,
    retValue := 0, errno := .none, errorStatus := OK, safeCount := 0,
    waitTimeout := 0 }

/-- Clear the delay flag and take the `tickNode` out of the tick queue, if the
task is delayed. -/
def cancelDelay (k : Kernel) (tcbId : TaskId) : Kernel :=
  if (k.tcb tcbId).status.delay then
    (k.setStatus tcbId fun s => { s with delay := false }).tickQRemove (.task tcbId)
  else k

/-- Put the task on the ready queue if no flag is set. -/
def putIfReady (k : Kernel) (tcbId : TaskId) : Kernel :=
  if (k.tcb tcbId).status = TASK_READY then k.readyQPut tcbId else k

/-- `vmxPendQRemove`. -/
def vmxPendQRemove (k : Kernel) (tcbId : TaskId) : Kernel :=
  let k := match (k.tcb tcbId).pPendQ with
    | none => { k with fault := true }
    | some pPendQ => k.pendQNodeRemove pPendQ tcbId
  let k := k.setStatus tcbId fun s => { s with pend := false }
  cancelDelay k tcbId

/-- `vmxDelete`. -/
def vmxDelete (k : Kernel) (tcbId : TaskId) : Kernel :=
  let k :=
    if (k.tcb tcbId).status = TASK_READY then k.readyQRemove tcbId
    else
      let k := if (k.tcb tcbId).status.pend then vmxPendQRemove k tcbId else k
      if (k.tcb tcbId).status.delay then k.tickQRemove (.task tcbId) else k
  let k := k.activeQRemove tcbId
  k.setStatus tcbId fun _ => TASK_DEAD

/-- `vmxSuspend`. -/
def vmxSuspend (k : Kernel) (tcbId : TaskId) : Kernel :=
  let k := if (k.tcb tcbId).status = TASK_READY then k.readyQRemove tcbId else k
  k.setStatus tcbId fun s => { s with suspend := true }

/-- `vmxResume`. -/
def vmxResume (k : Kernel) (tcbId : TaskId) : Kernel :=
  let k := if (k.tcb tcbId).status = TASK_SUSPEND then k.readyQPut tcbId else k
  k.setStatus tcbId fun s => { s with suspend := false }

/-- `vmxPrioritySet`. -/
def vmxPrioritySet (k : Kernel) (tcbId : TaskId) (priority : Nat) : Kernel :=
  let k := k.setTcb tcbId fun c => { c with priority := priority }
  if (k.tcb tcbId).status = TASK_READY then k.readyQMove tcbId priority
  else if (k.tcb tcbId).status.pend then
    match (k.tcb tcbId).pPendQ with
    | none => { k with fault := true }
    | some pPendQ => k.pendQNodeMove pPendQ tcbId priority
  else k

/-- `vmxDelay`. -/
def vmxDelay (k : Kernel) (timeout : Nat) : Kernel :=
  let tcbId := k.taskIdCurrent
  let k := k.readyQRemove tcbId
  let k := k.tickQOverflow timeout
  let k := k.tickQPut (.task tcbId) timeout
  k.setStatus tcbId fun s => { s with delay := true }

/-! ## Pend queues -/

/-- The body of the wake-up loops: the task leaves its wait with `OK`. -/
def vmxReadyQPut (k : Kernel) (tcbId : TaskId) : Kernel :=
  let k := k.setStatus tcbId fun s => { s with pend := false }
  let k := k.taskRetValueSet tcbId OK
  let k := cancelDelay k tcbId
  putIfReady k tcbId

/-- `vmxPendQGet`. -/
def vmxPendQGet (k : Kernel) (pQHead : QAddr) : Kernel :=
  match k.pendQ pQHead with
  | [] => { k with fault := true }
  | node :: rest =>
    vmxReadyQPut { k with pendQ := Function.update k.pendQ pQHead rest } node.1

/-- The loop of `vmxPendQFlush`, with `n` nodes left. -/
def vmxPendQFlushLoop (k : Kernel) (pQHead : QAddr) (n : Nat) : Kernel :=
  match n with
  | 0 => k
  | n + 1 => vmxPendQFlushLoop (vmxPendQGet k pQHead) pQHead n

/-- `vmxPendQFlush`. -/
def vmxPendQFlush (k : Kernel) (pQHead : QAddr) : Kernel :=
  vmxPendQFlushLoop k pQHead (k.pendQ pQHead).length

/-- The body of the loop of `vmxPendQTerminate`. -/
def pendQTerminateGet (k : Kernel) (pQHead : QAddr) : Kernel :=
  match k.pendQ pQHead with
  | [] => { k with fault := true }
  | node :: rest =>
    let tcbId := node.1
    let k := { k with pendQ := Function.update k.pendQ pQHead rest }
    let k := k.setStatus tcbId fun s => { s with pend := false }
    let k := k.setTcb tcbId fun c => { c with errorStatus := TASK_DELETED }
    let k := k.taskRetValueSet tcbId ERROR
    let k := cancelDelay k tcbId
    putIfReady k tcbId

def vmxPendQTerminateLoop (k : Kernel) (pQHead : QAddr) (n : Nat) : Kernel :=
  match n with
  | 0 => k
  | n + 1 => vmxPendQTerminateLoop (pendQTerminateGet k pQHead) pQHead n

/-- `vmxPendQTerminate`. -/
def vmxPendQTerminate (k : Kernel) (pQHead : QAddr) : Kernel :=
  vmxPendQTerminateLoop k pQHead (k.pendQ pQHead).length

/-- The part of the pend routines that starts the timeout. -/
def pendTimeout (k : Kernel) (tcbId : TaskId) (timeout : Nat) : Kernel :=
  if timeout ≠ WAIT_FOREVER then
    let k := k.tickQOverflow timeout
    let k := k.tickQPut (.task tcbId) timeout
    k.setStatus tcbId fun s => { s with delay := true }
  else k

/-- `vmxPendQPut`; its check of `WAIT_NONE` sets a status that is overwritten. -/
def vmxPendQPut (k : Kernel) (pQHead : QAddr) (timeout : Nat) : Kernel :=
  let tcbId := k.taskIdCurrent
  let k := k.readyQRemove tcbId
  let k := k.setStatus tcbId fun s => { s with pend := true }
  let k := k.setTcb tcbId fun c => { c with pPendQ := some pQHead, waitTimeout := timeout }
  let k := k.pendQNodePut pQHead tcbId
  pendTimeout k tcbId timeout

/-- `vmxReadyQRemove`: as `vmxPendQPut`, but the caller links the task in the
pend queue. -/
def vmxReadyQRemove (k : Kernel) (pQHead : QAddr) (timeout : Nat) : Kernel :=
  let tcbId := k.taskIdCurrent
  let k := k.readyQRemove tcbId
  let k := k.setStatus tcbId fun s => { s with pend := true }
  let k := k.setTcb tcbId fun c => { c with pPendQ := some pQHead, waitTimeout := timeout }
  pendTimeout k tcbId timeout

/-- `saveTaskContext` of `vmxExit`: the task that has called gives way to another one,
and its saved `eax`, the value that the call will return, is cleared. -/
def saveTaskContext (k : Kernel) : Kernel :=
  if qFirst k.readyQHead = some k.taskIdCurrent then k else k.taskRetValueSet k.taskIdCurrent OK

/-! ## Watchdogs -/

/-- The part of `wdStart` under the interrupt lock. -/
def wdStartDefer (k : Kernel) (wdId : WdogId) : Kernel :=
  k.setWdog wdId fun w => { w with dfrStartCount := w.dfrStartCount + 1 }

/-- `vmxWdStart`. -/
def vmxWdStart (k : Kernel) (wdId : WdogId) (timeout : Nat) : Kernel :=
  let k := k.setWdog wdId fun w => { w with dfrStartCount := w.dfrStartCount - 1 }
  if (k.wdog wdId).dfrStartCount = 0 then
    let k := k.tickQOverflow timeout
    let k :=
      if (k.wdog wdId).status = .WDOG_IN_Q then k.tickQMove (.wdog wdId) timeout
      else k.tickQPut (.wdog wdId) timeout
    k.setWdog wdId fun w => { w with status := .WDOG_IN_Q }
  else k

/-- `vmxWdCancel`. -/
def vmxWdCancel (k : Kernel) (wdId : WdogId) : Kernel :=
  if (k.wdog wdId).status = .WDOG_IN_Q then
    (k.tickQRemove (.wdog wdId)).setWdog wdId fun w => { w with status := .WDOG_OUT_OF_Q }
  else k

/-! ## Ticks -/

/-- A kernel routine that interrupt level code may call or defer. -/
inductive Job where
  | suspend (tcbId : TaskId)
  | resume (tcbId : TaskId)
  | prioritySet (tcbId : TaskId) (priority : Nat)
  | pendQGet (pQHead : QAddr)
  | pendQFlush (pQHead : QAddr)
  | wdStartDefer (wdId : WdogId)
  | wdStart (wdId : WdogId) (timeout : Nat)
  | wdCancel (wdId : WdogId)
  deriving DecidableEq, Repr

/-- The task exists. -/
def live (k : Kernel) (tcbId : TaskId) : Prop := (k.tcb tcbId).status.dead = false

instance (k : Kernel) (tcbId : TaskId) : Decidable (live k tcbId) :=
  inferInstanceAs (Decidable (_ = _))

/-- The bit mapped class has `NUM_TASK_PRIORITIES` lists. -/
def priorityOk (k : Kernel) (priority : Nat) : Prop :=
  k.readyClass = .priBmp → priority < NUM_TASK_PRIORITIES

instance (k : Kernel) (priority : Nat) : Decidable (priorityOk k priority) :=
  inferInstanceAs (Decidable (_ → _))

/-- What the layers above check before they call a routine. -/
def Job.guard (k : Kernel) : Job → Prop
  | .suspend t => live k t
  | .resume t => live k t
  | .prioritySet t priority => live k t ∧ priorityOk k priority
  | .pendQGet q => k.pendQ q ≠ []
  | .pendQFlush _ => True
  | .wdStartDefer _ => True
  | .wdStart w _ => 0 < (k.wdog w).dfrStartCount
  | .wdCancel _ => True

instance (k : Kernel) (j : Job) : Decidable (j.guard k) := by
  cases j <;> unfold Job.guard <;> infer_instance

/-- The routine of a job. -/
def Job.call (k : Kernel) : Job → Kernel
  | .suspend t => vmxSuspend k t
  | .resume t => vmxResume k t
  | .prioritySet t priority => vmxPrioritySet k t priority
  | .pendQGet q => vmxPendQGet k q
  | .pendQFlush q => vmxPendQFlush k q
  | .wdStartDefer w => Vmx.wdStartDefer k w
  | .wdStart w timeout => vmxWdStart k w timeout
  | .wdCancel w => vmxWdCancel k w

/-- A job whose guard fails does nothing. -/
def runJob (k : Kernel) (j : Job) : Kernel := if j.guard k then j.call k else k

def runJobs (k : Kernel) (js : List Job) : Kernel := js.foldl runJob k

/-- The timeout of a task whose delay flag has been cleared: a task that was only
delayed gets `OK`, a pended one leaves its queue with `ERROR`. -/
def taskTimeout (k : Kernel) (tcbId : TaskId) : Kernel :=
  if (k.tcb tcbId).status = TASK_READY then k.taskRetValueSet tcbId OK
  else if (k.tcb tcbId).status.pend then
    let k := vmxPendQRemove k tcbId
    let k := k.taskRetValueSet tcbId ERROR
    k.setTcb tcbId fun c => { c with errno := .S_objLib_TIMEOUT }
  else k

/-- What `vmxTickAnnounce` does with an expired task. -/
def taskExpired (k : Kernel) (tcbId : TaskId) : Kernel :=
  let k := k.setStatus tcbId fun s => { s with delay := false }
  let k := taskTimeout k tcbId
  putIfReady k tcbId

/-- The node leaves the queue through `Q_EXPIRED`. -/
def expireNode (k : Kernel) (n : TickNode) (rest : List (TickNode × Nat)) : Kernel :=
  { k with tickQHead := rest, hist := .expire n :: k.hist }

/-- The timeout of one task expires: the body of the loop of `vmxTickAnnounce`
for its node. -/
def expireTask (k : Kernel) (tcbId : TaskId) : Kernel :=
  taskExpired (expireNode k (.task tcbId) (qPrioRemove k.tickQHead (.task tcbId))) tcbId

/-- What `vmxTickAnnounce` does with an expired watchdog, up to the call of its
function. -/
def wdogExpired (k : Kernel) (wdId : WdogId) : Kernel :=
  k.setWdog wdId fun w => { w with status := .WDOG_OUT_OF_Q }

/-- The loop over the expired nodes, at most `n` of them.  The function of a
watchdog with a deferred start is not called. -/
def expireLoop (n : Nat) (scripts : List (List Job)) (k : Kernel) : Kernel :=
  match n with
  | 0 => k
  | n + 1 =>
    match qPrioExpired k.tickQHead k.tickGet with
    | (none, _) => k
    | (some (.task t), rest) =>
      expireLoop n scripts (taskExpired (expireNode k (.task t) rest) t)
    | (some (.wdog w), rest) =>
      let k := wdogExpired (expireNode k (.wdog w) rest) w
      if (k.wdog w).dfrStartCount = 0 then
        expireLoop n scripts.tail (runJobs k (scripts.headD []))
      else expireLoop n scripts k

/-- The number of timeouts that an announcement can expire: the nodes of the
tick queue, and one for each job of the watchdogs. -/
def expireBound (scripts : List (List Job)) (k : Kernel) : Nat :=
  k.tickQHead.length + (scripts.map List.length).sum

/-- The round robin part of `vmxTickAnnounce`. -/
def roundRobin (k : Kernel) : Kernel :=
  let tcbId := k.taskIdCurrent
  if k.roundRobinOn ∧ (k.tcb tcbId).lockCount = 0 ∧ (k.tcb tcbId).status = TASK_READY then
    let k := k.setTcb tcbId fun c => { c with timeSlice := u32 (c.timeSlice + 1) }
    if k.roundRobinSlice ≤ (k.tcb tcbId).timeSlice then
      let k := k.setTcb tcbId fun c => { c with timeSlice := 0 }
      let k := k.readyQRemove tcbId
      k.readyQPut tcbId
    else k
  else k

/-- The time counters advance. -/
def timeAdvance (k : Kernel) : Kernel :=
  { k with
    sysTicks := u32 (k.sysTicks + 1)
    sysAbsTicks := (k.sysAbsTicks + 1) % 18446744073709551616
    hist := .announce :: k.hist }

/-- `vmxTickAnnounce`; `Q_ADVANCE` is a null method of the tick queue's class. -/
def vmxTickAnnounce (scripts : List (List Job)) (k : Kernel) : Kernel :=
  let k := timeAdvance k
  roundRobin (expireLoop (expireBound scripts k) scripts k)

/-! ## The kernel as a machine -/

/-- A kernel operation, as the layers above apply it. -/
inductive KernelOp where
  | spawn (tcbId : TaskId) (priority : Nat)
  | delete (tcbId : TaskId)
  | delay (timeout : Nat)
  | pendQPut (pQHead : QAddr) (timeout : Nat)
  | pendQTerminate (pQHead : QAddr)
  | pendQRemove (tcbId : TaskId)
  | readyQPut (tcbId : TaskId)
  | readyQRemove (pQHead : QAddr) (timeout : Nat)
  | job (j : Job)
  | tickAnnounce (scripts : List (List Job))
  | tickSet (ticks : Nat)
  | tick64Set (ticks : Nat)
  | taskLock
  | taskUnlock
  | timeSlice (ticks : Nat)
  | dispatch
  deriving DecidableEq, Repr

/-- The current task runs: it is the one that calls. -/
def running (k : Kernel) : Prop := (k.tcb k.taskIdCurrent).status = TASK_READY

instance (k : Kernel) : Decidable (running k) := inferInstanceAs (Decidable (_ = _))

/-- One kernel operation.  The routines that act on the calling task need it to
run, and the others a live task.  `vmxPendQRemove` and the two `vmxReadyQ`
routines do one half of a move between two queues; the half of the caller is
part of the step. -/
def kernelStep (k : Kernel) : KernelOp → Option Kernel
  | .spawn t priority =>
    if ¬ live k t ∧ priorityOk k priority then
      some (vmxSpawn (k.setTcb t fun _ => tcbInit priority) t)
    else none
  | .delete t => if live k t then some (vmxDelete k t) else none
  | .delay timeout => if running k then some (vmxDelay k timeout) else none
  | .pendQPut q timeout => if running k then some (vmxPendQPut k q timeout) else none
  | .pendQTerminate q => some (vmxPendQTerminate k q)
  | .pendQRemove t =>
    if (k.tcb t).status.pend then some (putIfReady (vmxPendQRemove k t) t) else none
  | .readyQPut t =>
    match (k.tcb t).pPendQ with
    | none => none
    | some q =>
      if (k.tcb t).status.pend then some (vmxReadyQPut (k.pendQNodeRemove q t) t) else none
  | .readyQRemove q timeout =>
    if running k then
      some ((vmxReadyQRemove k q timeout).pendQNodePut q k.taskIdCurrent)
    else none
  | .job j => some (runJob k j)
  | .tickAnnounce scripts => some (vmxTickAnnounce scripts k)
  | .tickSet ticks => some (k.tickSet ticks)
  | .tick64Set ticks => some (k.tick64Set ticks)
  | .taskLock => some (k.setTcb k.taskIdCurrent fun c => { c with lockCount := c.lockCount + 1 })
  | .taskUnlock => some (k.setTcb k.taskIdCurrent fun c => { c with lockCount := c.lockCount - 1 })
  | .timeSlice ticks =>
    some (if ticks = 0 then { k with roundRobinOn := false }
      else { k with roundRobinOn := true, roundRobinSlice := ticks })
  | .dispatch =>
    match qFirst k.readyQHead with
    | none => none
    | some t => some { k with taskIdCurrent := t }

/-- The kernel after `kernelInit`, before the root task: no task exists, and
`taskIdCurrent` is a control block that is in no queue. -/
def kernelInit (readyClass : QClass) (pendClass : QAddr → QClass) : Kernel :=
  { tcb := fun _ => { tcbInit 0 with status := TASK_DEAD }
    wdog := fun _ => { status := .WDOG_OUT_OF_Q, dfrStartCount := 0 }
    readyQHead := [], activeQHead := [], tickQHead := [], pendQ := fun _ => []
    readyClass := readyClass, pendClass := pendClass
    sysTicks := 0, sysAbsTicks := 0, taskIdCurrent := 0
    roundRobinOn := false, roundRobinSlice := 0, fault := false, hist := [] }

end Vmx
