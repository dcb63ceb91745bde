import Vmx.Kernel.VmxLib
import Vmx.Lib.Transition

/-!
# `wdLib`: watchdogs between tasks, interrupts and ticks

A call of `wdStart` or `wdCancel` with `kernelState` set is deferred: it leaves its section with
the interrupts locked and then adds a job to the work queue, so that another call can come in
between.  Without `kernelState` the caller enters the kernel and runs the routine itself.  A tick
is one or the other too.  While the loop of `vmxTickAnnounce` works on an expired watchdog, any
interrupt can call `wdStart` or `wdCancel`.

The ghosts record the last start of a watchdog, the delay with which it was put into the tick
queue, and how many ticks had been announced when it was cancelled after its last start.
-/

namespace Vmx.Watchdog

open Lib Util

/-- A routine that is waiting to run in the kernel. -/
inductive WdJob where
  | start (wdId : WdogId) (delay : Nat)
  | cancel (wdId : WdogId)
  | tick (id : Nat)
  deriving DecidableEq, Repr

/-- Where the loop of `vmxTickAnnounce` is: before `Q_EXPIRED`, with an expired watchdog out of
the queue, with its function read, with its argument read, or in `workQDoWork`. -/
inductive Phase where
  | loop
  | out (wdId : WdogId)
  | func (wdId : WdogId) (wdFunc : Nat)
  | arg (wdId : WdogId) (wdFunc wdArg : Nat)
  | doWork
  deriving DecidableEq, Repr

/-- A `vmxTickAnnounce` that runs, for the announcement with a number. -/
structure Frame where
  id : Nat
  phase : Phase
  deriving DecidableEq, Repr

/-- The arguments of a `wdStart`. -/
structure Start where
  delay : Nat
  func : Nat
  arg : Nat
  deriving DecidableEq, Repr

/-- A call of a watchdog's function, with the ghosts of the watchdog at that moment. -/
structure Fire where
  wdId : WdogId
  func : Nat
  arg : Nat
  tick : Nat
  delay : Nat
  last : Option Start
  cancelled : Option Nat
  deriving DecidableEq, Repr

/-- `direct` is the routine that the caller runs itself, `adds` are the calls that have left their
locked section and not yet added their job, and `ticks` the announcements that run, the innermost
first. -/
structure State where
  kern : Kernel
  wdFunc : WdogId → Nat
  wdArg : WdogId → Nat
  kernelState : Bool
  direct : Option WdJob
  workQ : List WdJob
  adds : List WdJob
  ticks : List Frame
  announced : Nat
  lastStart : WdogId → Option Start
  delayOf : WdogId → Nat
  cancelled : WdogId → Option Nat
  fired : List Fire

/-- The delay of a job that starts the watchdog. -/
def WdJob.startOf (w : WdogId) : WdJob → Option Nat
  | .start v delay => if v = w then some delay else none
  | _ => none

/-- The starts of a watchdog in a list of jobs. -/
def starts (w : WdogId) (js : List WdJob) : List Nat := js.filterMap (WdJob.startOf w)

namespace State

/-- The jobs in the order in which they will run. -/
def jobs (s : State) : List WdJob := s.direct.toList ++ s.workQ

/-- A cancel is complete; it is the first after the last start unless that is still going on. -/
def cancelDone (s : State) (w : WdogId) : State :=
  if starts w s.adds = [] then
    { s with
      cancelled := Function.update s.cancelled w (some ((s.cancelled w).getD s.announced)) }
  else s

/-- `wdStart` up to the point where it has left the locked section. -/
def wdStart (s : State) (wdId : WdogId) (delay func arg : Nat) : State :=
  let s := { s with
    kern := wdStartDefer s.kern wdId
    wdFunc := Function.update s.wdFunc wdId func
    wdArg := Function.update s.wdArg wdId arg
    lastStart := Function.update s.lastStart wdId (some ⟨delay, func, arg⟩)
    cancelled := Function.update s.cancelled wdId none }
  if s.kernelState then { s with adds := s.adds ++ [.start wdId delay] }
  else { s with kernelState := true, direct := some (.start wdId delay) }

/-- `wdCancel` up to the same point. -/
def wdCancel (s : State) (wdId : WdogId) : State :=
  if s.kernelState then { s with adds := s.adds ++ [.cancel wdId] }
  else cancelDone { s with kernelState := true, direct := some (.cancel wdId) } wdId

/-- `workQAdd1` or `workQAdd2` of the call with a number. -/
def workQAdd (s : State) (i : Nat) (j : WdJob) : State :=
  let s := { s with adds := s.adds.eraseIdx i, workQ := s.workQ ++ [j] }
  match j with
  | .cancel w => cancelDone s w
  | _ => s

/-- `tickAnnounce`. -/
def tickAnnounce (s : State) : State :=
  let s := { s with announced := s.announced + 1 }
  if s.kernelState then { s with workQ := s.workQ ++ [.tick s.announced] }
  else { s with kernelState := true, direct := some (.tick s.announced) }

/-- The routine of a job. -/
def runJob (s : State) : WdJob → State
  | .start w delay => { s with
      kern := vmxWdStart s.kern w delay
      delayOf := if (s.kern.wdog w).dfrStartCount - 1 = 0 then Function.update s.delayOf w delay
        else s.delayOf }
  | .cancel w => { s with kern := vmxWdCancel s.kern w }
  | .tick id => { s with kern := timeAdvance s.kern, ticks := ⟨id, .loop⟩ :: s.ticks }

/-- `Q_EXPIRED`, and what is done with a task or first with a watchdog. -/
def expire (s : State) (id : Nat) (outer : List Frame) : State :=
  match qPrioExpired s.kern.tickQHead s.kern.tickGet with
  | (none, _) => { s with kern := roundRobin s.kern, ticks := outer }
  | (some (.task t), rest) =>
    { s with kern := taskExpired (expireNode s.kern (.task t) rest) t }
  | (some (.wdog w), rest) => { s with
      kern := wdogExpired (expireNode s.kern (.wdog w) rest) w
      ticks := ⟨id, .out w⟩ :: outer }

/-- The test of the deferred starts and the call of the function. -/
def call (s : State) (id : Nat) (w : WdogId) (func arg : Nat) (outer : List Frame) : State :=
  if (s.kern.wdog w).dfrStartCount = 0 then
    { s with
      ticks := ⟨id, .doWork⟩ :: outer
      fired := ⟨w, func, arg, id, s.delayOf w, s.lastStart w, s.cancelled w⟩ :: s.fired }
  else { s with ticks := ⟨id, .doWork⟩ :: outer }

/-- A job of the work queue may run: in `workQDoWork` of the innermost announcement or of
`vmxExit`. -/
def working (s : State) : Bool :=
  match s.ticks with
  | [] => true
  | ⟨_, .doWork⟩ :: _ => true
  | _ => false

end State

/-- What happens next. -/
inductive Label where
  | wdStart (wdId : WdogId) (delay func arg : Nat)
  | wdCancel (wdId : WdogId)
  | workQAdd (i : Nat)
  | tickAnnounce
  /-- The caller that has entered the kernel runs its routine. -/
  | runDirect
  | workQDoWork
  | expire
  | readFunc
  | readArg
  | call
  /-- The work queue is empty and the loop goes on. -/
  | again
  | vmxExit
  deriving DecidableEq, Repr

def step (s : State) : Label → Option State
  | .wdStart w delay func arg => some (s.wdStart w delay func arg)
  | .wdCancel w => some (s.wdCancel w)
  | .workQAdd i =>
    match s.adds[i]? with
    | none => none
    | some j => some (s.workQAdd i j)
  | .tickAnnounce => some s.tickAnnounce
  | .runDirect =>
    match s.direct with
    | none => none
    | some j => some (State.runJob { s with direct := none } j)
  | .workQDoWork =>
    match s.workQ with
    | [] => none
    | j :: rest =>
      if s.direct = none ∧ s.working then some (State.runJob { s with workQ := rest } j) else none
  | .expire =>
    match s.ticks with
    | ⟨id, .loop⟩ :: outer => some (s.expire id outer)
    | _ => none
  | .readFunc =>
    match s.ticks with
    | ⟨id, .out w⟩ :: outer => some { s with ticks := ⟨id, .func w (s.wdFunc w)⟩ :: outer }
    | _ => none
  | .readArg =>
    match s.ticks with
    | ⟨id, .func w func⟩ :: outer => some { s with ticks := ⟨id, .arg w func (s.wdArg w)⟩ :: outer }
    | _ => none
  | .call =>
    match s.ticks with
    | ⟨id, .arg w func arg⟩ :: outer => some (s.call id w func arg outer)
    | _ => none
  | .again =>
    match s.ticks with
    | ⟨id, .doWork⟩ :: outer =>
      if s.workQ = [] then some { s with ticks := ⟨id, .loop⟩ :: outer } else none
    | _ => none
  | .vmxExit =>
    if s.direct = none ∧ s.ticks = [] ∧ s.workQ = [] ∧ s.adds = [] then
      some { s with kernelState := false }
    else none

/-- A kernel whose watchdogs have been initialized by `wdInit`. -/
def wdInit (kern : Kernel) (wdFunc wdArg : WdogId → Nat) : State where
  kern := { kern with wdog := fun _ => ⟨.WDOG_OUT_OF_Q, 0⟩ }
  wdFunc := wdFunc
  wdArg := wdArg
  kernelState := false
  direct := none
  workQ := []
  adds := []
  ticks := []
  announced := 0
  lastStart := fun _ => none
  delayOf := fun _ => 0
  cancelled := fun _ => none
  fired := []

end Vmx.Watchdog
