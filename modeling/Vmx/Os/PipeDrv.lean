import Vmx.Lib.Transition
import Mathlib.Data.List.Basic

/-!
# `pipeDrv` and `selectLib`: select on a pipe

Any number of reads, writes, flushes, selects and unselects of one pipe are in progress at the same
time.  Each takes its next step with a kernel call: the message queue does one send or receive at a
time, and the mutex of the wake-up list keeps its changes apart.  A write from an interrupt leaves
the wake-up to the exception task.

Of the messages only the number counts here.  `woken` is a ghost of a node: its task has been given
the wake-up since the node was added.
-/

namespace Vmx.Pipe

open Lib

inductive SelectType where
  | SELREAD
  | SELWRITE
  deriving DecidableEq, Repr

/-- `SEL_WAKEUP_NODE` in the wake-up list. -/
structure Node where
  id : Nat
  taskId : Nat
  type : SelectType
  woken : Bool
  deriving DecidableEq, Repr

/-- Where an operation is. -/
inductive Pc where
  /-- `pipeRead`, before `msgQReceive`. -/
  | read
  /-- `pipeWrite` of a task, before `msgQSend`. -/
  | write
  /-- `pipeWrite` of an interrupt. -/
  | intWrite
  /-- The loop of `FIOFLUSH`. -/
  | flush
  /-- `FIOSELECT` and `FIOUNSELECT`, before the list is changed. -/
  | select (taskId : Nat) (type : SelectType)
  | unselect (taskId : Nat) (type : SelectType)
  /-- `FIOSELECT`, before it looks at the message queue and before its `selWakeup`. -/
  | selTest (id : Nat) (type : SelectType)
  | selWake (id : Nat) (type : SelectType)
  /-- `pipeWrite` of a task before its `semTake` of the mutex, and with the mutex. -/
  | writeLock
  | writeLocked
  /-- `selWakeupAll`, before it looks at the length of the list. -/
  | wakeupAll (type : SelectType) (intContext : Bool)
  /-- `selWakeupAll` before its `semTake`, and with the nodes it has not yet come to. -/
  | wakeupLock (type : SelectType)
  | wakeup (type : SelectType) (rest : List Nat)
  deriving DecidableEq, Repr

/-- The operation has the mutex of the wake-up list. -/
def Pc.hasMutex : Pc → Bool
  | .writeLocked => true
  | .wakeup _ _ => true
  | _ => false

structure State where
  maxMsg : Nat
  numMsgs : Nat
  wakeupList : List Node
  nextId : Nat
  ops : List Pc
  deriving DecidableEq, Repr

namespace State

variable (s : State)

/-- The pipe is ready for a select of the type. -/
def Ready : SelectType → Prop
  | .SELREAD => 0 < s.numMsgs
  | .SELWRITE => s.numMsgs < s.maxMsg

instance (type : SelectType) : Decidable (s.Ready type) := by
  cases type <;> exact inferInstanceAs (Decidable (_ < _))

/-- `semTake` of the mutex returns. -/
def mutexFree : Bool := s.ops.all fun pc => !pc.hasMutex

/-- Operation `i` goes on. -/
def goOn (i : Nat) (pc : Pc) : State := { s with ops := s.ops.set i pc }

/-- Operation `i` returns. -/
def finish (i : Nat) : State := { s with ops := s.ops.eraseIdx i }

/-- `selWakeup`. -/
def selWakeup (id : Nat) (type : SelectType) : State :=
  { s with wakeupList := s.wakeupList.map fun n =>
      if n.id = id ∧ n.type = type then { n with woken := true } else n }

/-- `selNodeAdd`. -/
def selNodeAdd (taskId : Nat) (type : SelectType) : State :=
  { s with
    wakeupList := s.wakeupList ++ [⟨s.nextId, taskId, type, false⟩]
    nextId := s.nextId + 1 }

/-- `selNodeDelete`: the first node of the task and the type. -/
def selNodeDelete (taskId : Nat) (type : SelectType) : State :=
  { s with wakeupList := s.wakeupList.eraseP fun n => n.taskId = taskId ∧ n.type = type }

/-- The loop of `selWakeupAll` starts. -/
def wakeupNodes (type : SelectType) : Pc := .wakeup type (s.wakeupList.map Node.id)

/-- One step of operation `i`.  `ok` is the answer of the kernel call in it: that `msgQReceive` or
`msgQSend` does not fail for another reason than the number of messages, that `malloc` has memory,
and that `excJobAdd` takes the job. -/
def run (i : Nat) (ok : Bool) : Pc → Option State
  | .read =>
    if ok = false then some (s.finish i)
    else if 0 < s.numMsgs then
      some ({ s with numMsgs := s.numMsgs - 1 }.goOn i (.wakeupAll .SELWRITE false))
    else none
  | .write =>
    if ok = false then some (s.finish i)
    else if s.numMsgs < s.maxMsg then
      some ({ s with numMsgs := s.numMsgs + 1 }.goOn i .writeLock)
    else none
  | .intWrite =>
    if ok ∧ s.numMsgs < s.maxMsg then
      some ({ s with numMsgs := s.numMsgs + 1 }.goOn i (.wakeupAll .SELREAD true))
    else some (s.finish i)
  | .flush =>
    if ok ∧ 0 < s.numMsgs then some { s with numMsgs := s.numMsgs - 1 } else some (s.finish i)
  | .select taskId type =>
    if s.mutexFree then
      if ok ∨ s.wakeupList = [] then
        some ((s.selNodeAdd taskId type).goOn i (.selTest s.nextId type))
      else some ({ s with nextId := s.nextId + 1 }.goOn i (.selTest s.nextId type))
    else none
  | .unselect taskId type =>
    if s.mutexFree then some ((s.selNodeDelete taskId type).finish i) else none
  | .selTest id type =>
    if s.Ready type then some (s.goOn i (.selWake id type)) else some (s.finish i)
  | .selWake id type => some ((s.selWakeup id type).finish i)
  | .writeLock => if s.mutexFree then some (s.goOn i .writeLocked) else none
  | .writeLocked =>
    if s.wakeupList = [] then some (s.finish i) else some (s.goOn i (s.wakeupNodes .SELREAD))
  | .wakeupAll type intContext =>
    if s.wakeupList = [] then some (s.finish i)
    else if intContext then
      if ok then some (s.goOn i (.wakeupAll type false)) else some (s.finish i)
    else some (s.goOn i (.wakeupLock type))
  | .wakeupLock type => if s.mutexFree then some (s.goOn i (s.wakeupNodes type)) else none
  | .wakeup _ [] => some (s.finish i)
  | .wakeup type (id :: rest) => some ((s.selWakeup id type).goOn i (.wakeup type rest))

end State

/-- A call of the driver. -/
inductive Call where
  | pipeRead
  | pipeWrite (intContext : Bool)
  | FIOFLUSH
  | FIOSELECT (taskId : Nat) (type : SelectType)
  | FIOUNSELECT (taskId : Nat) (type : SelectType)
  deriving DecidableEq, Repr

/-- Where a call starts. -/
def Call.entry : Call → Pc
  | .pipeRead => .read
  | .pipeWrite intContext => if intContext then .intWrite else .write
  | .FIOFLUSH => .flush
  | .FIOSELECT taskId type => .select taskId type
  | .FIOUNSELECT taskId type => .unselect taskId type

inductive Label where
  | call (c : Call)
  | run (i : Nat) (ok : Bool)
  deriving DecidableEq, Repr

def step (s : State) : Label → Option State
  | .call c => some { s with ops := s.ops ++ [c.entry] }
  | .run i ok =>
    match s.ops[i]? with
    | none => none
    | some pc => s.run i ok pc

/-- A pipe that `pipeDevCreate` has made. -/
def pipeDevCreate (maxMsg : Nat) : State := ⟨maxMsg, 0, [], 0, []⟩

/-- With no operation in progress, the tasks of the nodes for which the pipe is ready have been
given their wake-up. -/
def NoLostWakeup (s : State) : Prop :=
  s.ops = [] → ∀ n ∈ s.wakeupList, s.Ready n.type → n.woken = true

end Vmx.Pipe
