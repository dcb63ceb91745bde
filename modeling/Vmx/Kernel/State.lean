import Vmx.Util.QLib
import Vmx.Lib.Timers
import Mathlib.Logic.Function.Basic

/-!
# The kernel state

The four queues of the kernel, the task control blocks, the watchdogs and the
clock.  A pend queue is named by the object it belongs to (`QAddr`), and every
queue has a class, which decides how `Q_PUT` and `Q_MOVE` work.  The lists stand
for either ready queue class: `Util.BmpRep` is the representation of the bit
mapped one.

Taking a node out of a queue that does not link it, and getting from an empty
queue into a task pointer, have no meaning in the source.  They set `fault`, and
the invariants of the development say that it is never set.

`hist` is a ghost: the record of the timeouts that were started, cancelled and
expired, and of the announced ticks.
-/

namespace Vmx

open Lib Util

abbrev TaskId := Nat
abbrev WdogId := Nat

def OK : Int := 0
def ERROR : Int := -1
/-- What a pended call returns after a signal handler ran. -/
def SIG_RESTART : Int := 1

def WAIT_NONE : Nat := 0
def WAIT_FOREVER : Nat := 4294967295

def NUM_TASK_PRIORITIES : Nat := 256

/-- The error numbers that the modelled routines set. -/
inductive Errno where
  | none
  | S_intLib_NOT_ISR_CALLABLE
  | S_objLib_ID_ERROR
  | S_objLib_UNAVAILABLE
  | S_objLib_DELETED
  | S_objLib_TIMEOUT
  | S_semLib_NOT_OWNER
  deriving DecidableEq, Repr

/-- The status word, a set of flags. -/
structure Status where
  suspend : Bool
  pend : Bool
  delay : Bool
  dead : Bool
  deriving DecidableEq, Repr

def TASK_READY : Status := ⟨false, false, false, false⟩
def TASK_SUSPEND : Status := ⟨true, false, false, false⟩
def TASK_DEAD : Status := ⟨false, false, false, true⟩

/-- The values of `errorStatus`. -/
def TASK_UNDELAYED : Int := 2
def TASK_DELETED : Int := 3

/-- A queue that a task can be pended on, named by the object it is part of. -/
inductive QAddr where
  | safetyQ (tcbId : TaskId)
  | semQ (semId : Nat)
  | msgFreeQ (msgQId : Nat)
  | msgQ (msgQId : Nat)
  deriving DecidableEq, Repr

inductive QClass where
  | fifo
  | prio
  | priBmp
  deriving DecidableEq, Repr

/-- `TCB`, the part that the kernel and the semaphores use.  `retValue` is the
saved `eax`, the value that the interrupted call returns.  `waitTimeout` is a
ghost: the timeout argument of the last pend. -/
structure Tcb where
  status : Status
  priority : Nat
  timeSlice : Nat
  lockCount : Nat
  pPendQ : Option QAddr
  retValue : Int
  errno : Errno
  errorStatus : Int
  safeCount : Nat
  waitTimeout : Nat
  deriving DecidableEq, Repr

inductive WdogStatus where
  | WDOG_OUT_OF_Q
  | WDOG_IN_Q
  | WDOG_DEAD
  deriving DecidableEq, Repr

structure Wdog where
  status : WdogStatus
  dfrStartCount : Int
  deriving DecidableEq, Repr

/-- A node of the tick queue is the `tickNode` of a task or of a watchdog. -/
inductive TickNode where
  | task (tcbId : TaskId)
  | wdog (wdId : WdogId)
  deriving DecidableEq, Repr

/-- What the ghost history records. -/
abbrev ClockEvent := TimerEvent TickNode

structure Kernel where
  tcb : TaskId → Tcb
  wdog : WdogId → Wdog
  readyQHead : List (TaskId × Nat)
  activeQHead : List (TaskId × Nat)
  tickQHead : List (TickNode × Nat)
  pendQ : QAddr → List (TaskId × Nat)
  readyClass : QClass
  pendClass : QAddr → QClass
  sysTicks : Nat
  sysAbsTicks : Nat
  taskIdCurrent : TaskId
  roundRobinOn : Bool
  roundRobinSlice : Nat
  fault : Bool
  hist : List ClockEvent

/-! ## The queue methods -/

section

variable {α : Type} [DecidableEq α]

/-- `Q_PUT`. -/
def qPut (c : QClass) (q : List (α × Nat)) (x : α) (key : Nat) : List (α × Nat) :=
  match c with
  | .fifo => qFifoPut q x key
  | .prio => qPrioPut q x key
  | .priBmp => qPrioPut q x key

/-- `Q_MOVE` of a node of the queue; the method of the first in, first out class
is `qFifoNull`. -/
def qMove (c : QClass) (q : List (α × Nat)) (x : α) (newKey : Nat) : List (α × Nat) :=
  match c with
  | .fifo => q
  | .prio => qPrioMove q x newKey
  | .priBmp => qPrioPut (qPrioRemove q x) x newKey

omit [DecidableEq α] in
theorem ids_qPut_perm (c : QClass) (q : List (α × Nat)) (x : α) (key : Nat) :
    (ids (qPut c q x key)).Perm (x :: ids q) := by
  cases c with
  | fifo => exact ids_qFifoPut_perm q x key
  | prio =>
    show (ids (qPrioPut q x key)).Perm _
    rw [qPrioPut_eq_insertKeyed]
    exact ids_insertKeyed_perm q x key
  | priBmp =>
    show (ids (qPrioPut q x key)).Perm _
    rw [qPrioPut_eq_insertKeyed]
    exact ids_insertKeyed_perm q x key

theorem ids_qMove_perm (c : QClass) {q : List (α × Nat)} {x : α} (h : x ∈ ids q) (newKey : Nat) :
    (ids (qMove c q x newKey)).Perm (ids q) := by
  cases c with
  | fifo => exact List.Perm.refl _
  | prio => exact ids_qPrioMove_perm h newKey
  | priBmp =>
    show (ids (qPrioPut (qPrioRemove q x) x newKey)).Perm _
    rw [qPrioPut_eq_insertKeyed, qPrioRemove]
    refine (ids_insertKeyed_perm _ _ _).trans ?_
    rw [ids_eraseId]
    exact (List.perm_cons_erase h).symm

end

/-! ## Single updates of the kernel -/

namespace Kernel

/-- Update one control block. -/
def setTcb (k : Kernel) (t : TaskId) (f : Tcb → Tcb) : Kernel :=
  { k with tcb := Function.update k.tcb t (f (k.tcb t)) }

/-- Update the status word of a task. -/
def setStatus (k : Kernel) (t : TaskId) (f : Status → Status) : Kernel :=
  k.setTcb t fun c => { c with status := f c.status }

/-- `taskRetValueSet`. -/
def taskRetValueSet (k : Kernel) (t : TaskId) (val : Int) : Kernel :=
  k.setTcb t fun c => { c with retValue := val }

def setWdog (k : Kernel) (w : WdogId) (f : Wdog → Wdog) : Kernel :=
  { k with wdog := Function.update k.wdog w (f (k.wdog w)) }

/-- `Q_PUT(&readyQHead, tcbId, tcbId->priority)`. -/
def readyQPut (k : Kernel) (t : TaskId) : Kernel :=
  { k with readyQHead := qPut k.readyClass k.readyQHead t (k.tcb t).priority }

/-- `Q_REMOVE(&readyQHead, tcbId)`. -/
def readyQRemove (k : Kernel) (t : TaskId) : Kernel :=
  { k with
    readyQHead := eraseId k.readyQHead t
    fault := k.fault || decide (t ∉ ids k.readyQHead) }

/-- `Q_MOVE(&readyQHead, tcbId, priority)`. -/
def readyQMove (k : Kernel) (t : TaskId) (newKey : Nat) : Kernel :=
  { k with
    readyQHead := if t ∈ ids k.readyQHead then qMove k.readyClass k.readyQHead t newKey
      else k.readyQHead
    fault := k.fault || decide (t ∉ ids k.readyQHead) }

/-- `Q_PUT(pQHead, tcbId, tcbId->priority)` on a pend queue. -/
def pendQNodePut (k : Kernel) (q : QAddr) (t : TaskId) : Kernel :=
  { k with
    pendQ := Function.update k.pendQ q (qPut (k.pendClass q) (k.pendQ q) t (k.tcb t).priority) }

/-- `Q_REMOVE(pQHead, tcbId)` on a pend queue. -/
def pendQNodeRemove (k : Kernel) (q : QAddr) (t : TaskId) : Kernel :=
  { k with
    pendQ := Function.update k.pendQ q (eraseId (k.pendQ q) t)
    fault := k.fault || decide (t ∉ ids (k.pendQ q)) }

/-- `Q_MOVE(pQHead, tcbId, priority)` on a pend queue. -/
def pendQNodeMove (k : Kernel) (q : QAddr) (t : TaskId) (newKey : Nat) : Kernel :=
  { k with
    pendQ := Function.update k.pendQ q
      (if t ∈ ids (k.pendQ q) then qMove (k.pendClass q) (k.pendQ q) t newKey else k.pendQ q)
    fault := k.fault || decide (t ∉ ids (k.pendQ q)) }

/-- `Q_PUT(&activeQHead, &tcbId->activeNode, FIFO_KEY_TAIL)`. -/
def activeQPut (k : Kernel) (t : TaskId) : Kernel :=
  { k with activeQHead := qFifoPut k.activeQHead t FIFO_KEY_TAIL }

/-- `Q_REMOVE(&activeQHead, &tcbId->activeNode)`. -/
def activeQRemove (k : Kernel) (t : TaskId) : Kernel :=
  { k with
    activeQHead := eraseId k.activeQHead t
    fault := k.fault || decide (t ∉ ids k.activeQHead) }

/-- `Q_REMOVE(&tickQHead, pNode)`: the timeout is cancelled. -/
def tickQRemove (k : Kernel) (n : TickNode) : Kernel :=
  { k with
    tickQHead := qPrioRemove k.tickQHead n
    fault := k.fault || decide (n ∉ ids k.tickQHead)
    hist := .cancel n :: k.hist }

/-- The overflow check before a node is put on the tick queue: when the key
would wrap, the keys are based on 0 again. -/
def tickQOverflow (k : Kernel) (timeout : Nat) : Kernel :=
  if u32 (k.sysTicks + timeout) < k.sysTicks then
    { k with
      tickQHead := qPrioOffset k.tickQHead (u32 (4294967295 - k.sysTicks + 1))
      sysTicks := 0 }
  else k

/-- `Q_PUT(&tickQHead, pNode, timeout + sysTicks)`. -/
def tickQPut (k : Kernel) (n : TickNode) (timeout : Nat) : Kernel :=
  { k with
    tickQHead := qPrioPut k.tickQHead n (u32 (timeout + k.sysTicks))
    hist := .start n timeout :: k.hist }

/-- `Q_MOVE(&tickQHead, pNode, timeout + sysTicks)`. -/
def tickQMove (k : Kernel) (n : TickNode) (timeout : Nat) : Kernel :=
  { k with
    tickQHead := if n ∈ ids k.tickQHead then qPrioMove k.tickQHead n (u32 (timeout + k.sysTicks))
      else k.tickQHead
    fault := k.fault || decide (n ∉ ids k.tickQHead)
    hist := .start n timeout :: k.hist }

/-- `tickGet`: the low word of the absolute time. -/
def tickGet (k : Kernel) : Nat := k.sysAbsTicks % 4294967296

/-- `tickSet` and `tick64Set`. -/
def tick64Set (k : Kernel) (ticks : Nat) : Kernel :=
  { k with sysAbsTicks := ticks % 18446744073709551616 }

/-- `tickSet`: the argument is a 32 bit word. -/
def tickSet (k : Kernel) (ticks : Nat) : Kernel := k.tick64Set (u32 ticks)

end Kernel

end Vmx
