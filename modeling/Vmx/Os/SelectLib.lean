import Mathlib.Logic.Function.Basic
import Mathlib.Data.List.Basic

/-!
# `selectLib`: waiting for descriptors

A call of `select` asks the driver of each descriptor in the two sets to put a wake-up node in its
list, waits, and asks the drivers to take the nodes out again.  A driver has a list of its own or
shares it with others, or has none.  In a call of `ioctl` it may report the descriptor as ready
itself, and returns what it likes.

Others call `selWakeupAll` for a list before each `ioctl` and while the task waits.  The timeout
has no other effect than on what arrives while it waits.  `takes` and `gives` count what is done
to the mutex of a list; `reported` is a ghost, the descriptors that the task has been woken for.
-/

namespace Vmx.Select

def OK : Int := 0
def ERROR : Int := -1

def NFDBITS : Nat := 32
def FD_SETSIZE : Nat := 2048

inductive Errno where
  | S_selectLib_NO_SELECT_CONTEXT
  | S_selectLib_NO_SELECT_SUPPORT_IN_DRIVER
  | S_selectLib_WIDTH_OUT_OF_RANGE
  | S_ioLib_UNKNOWN_REQUEST
  | other (errno : Nat)
  deriving DecidableEq

/-- `SELECT_TYPE`. -/
inductive SelectType where
  | SELREAD
  | SELWRITE
  deriving DecidableEq

/-- `SEL_WAKEUP_NODE`. -/
structure WakeupNode where
  taskId : Nat
  fd : Nat
  type : SelectType
  deriving DecidableEq

/-- The bits of an `fd_set`, and of the memory behind it. -/
abbrev FdSet := Nat → Bool

/-- The requests of `ioctl`. -/
inductive Func where
  | FIOSELECT
  | FIOUNSELECT
  deriving DecidableEq

/-- What a driver does in a call of `ioctl`: whether there is memory for a node, whether it
reports the descriptor as ready, and what it returns and leaves in `errno`. -/
structure Reply where
  malloc : Bool
  ready : Bool
  rv : Int
  errno : Option Errno

/-- The drivers: the wake-up list of the one behind a descriptor, what it does, and for which
lists and types `selWakeupAll` is called before an `ioctl` and while the task waits. -/
structure Drivers where
  wakeupList : Nat → Option Nat
  reply : Func → SelectType → Nat → Reply
  before : Func → SelectType → Nat → List (Nat × SelectType)
  waiting : List (Nat × SelectType)

/-- The wake-up lists with their mutexes, and the sets that the task has given, if it has. -/
structure State where
  wakeupList : Nat → List WakeupNode
  takes : Nat → Nat
  gives : Nat → Nat
  fds : SelectType → Option FdSet
  exceptFds : Option FdSet
  errno : Option Errno
  reported : SelectType → Nat → Bool

namespace State

variable (s : State)

def take (l : Nat) : State := { s with takes := Function.update s.takes l (s.takes l + 1) }

def give (l : Nat) : State := { s with gives := Function.update s.gives l (s.gives l + 1) }

def setList (l : Nat) (nodes : List WakeupNode) : State :=
  { s with wakeupList := Function.update s.wakeupList l nodes }

def errnoSet (e : Errno) : State := { s with errno := some e }

/-- What a driver leaves in `errno`. -/
def errnoLeave (e : Option Errno) : State := { s with errno := e.or s.errno }

end State

/-! ## Wake-up lists -/

/-- `selNodeAdd`; the first node of a list needs no memory. -/
def selNodeAdd (s : State) (l : Nat) (node : WakeupNode) (malloc : Bool) : State :=
  let s := s.take l
  if s.wakeupList l = [] ∨ malloc = true then
    (s.setList l (s.wakeupList l ++ [node])).give l
  else s.give l

/-- The node is one of the task and the type. -/
def WakeupNode.matches (node : WakeupNode) (taskId : Nat) (type : SelectType) : Bool :=
  decide (node.taskId = taskId ∧ node.type = type)

/-- `selNodeDelete`, which gives the mutex when it has found the node, and at its end. -/
def selNodeDelete (s : State) (l : Nat) (node : WakeupNode) : State :=
  let s := s.take l
  let s :=
    if (s.wakeupList l).any fun pI => pI.matches node.taskId node.type then
      (s.setList l ((s.wakeupList l).eraseP fun pI => pI.matches node.taskId node.type)).give l
    else s
  s.give l

/-- `selWakeup`; a node of another task is for the sets of that task. -/
def selWakeup (me : Nat) (s : State) (node : WakeupNode) : State :=
  if node.taskId = me then
    { s with
      fds := Function.update s.fds node.type
        ((s.fds node.type).map fun set => Function.update set node.fd true)
      reported := Function.update s.reported node.type
        (Function.update (s.reported node.type) node.fd true) }
  else s

/-- `selWakeupAll`. -/
def selWakeupAll (me : Nat) (s : State) (wakeup : Nat × SelectType) : State :=
  if s.wakeupList wakeup.1 = [] then s
  else
    (((s.wakeupList wakeup.1).filter fun node => node.type = wakeup.2).foldl (selWakeup me)
      (s.take wakeup.1)).give wakeup.1

/-! ## Loops over a set -/

/-- The word of a set with the bit of a descriptor is zero. -/
def wordZero (set : FdSet) (fd : Nat) : Bool :=
  (List.range NFDBITS).all fun bit => !set (fd / NFDBITS * NFDBITS + bit)

/-- A loop over the descriptors of a set from `fd` on, that goes over a word which is zero; `body`
says whether to stop.  Each round goes on by one at least, so that `width` is enough for
`fuel`. -/
def fdLoop {σ : Type} (set : FdSet) (width : Nat) (body : σ → Nat → σ × Bool) :
    Nat → Nat → σ → σ
  | 0, _, s => s
  | fuel + 1, fd, s =>
    if fd < width then
      if wordZero set fd = true then fdLoop set width body fuel (fd + (NFDBITS - 1) + 1) s
      else if set fd = true then
        let r := body s fd
        if r.2 = true then r.1 else fdLoop set width body fuel (fd + 1) r.1
      else fdLoop set width body fuel (fd + 1) s
    else s

/-- What a driver that has a list does with it in a call of `ioctl`. -/
def nodeIoctl (d : Drivers) (me : Nat) (s : State) (fd : Nat) (func : Func) (type : SelectType) :
    State :=
  match d.wakeupList fd, func with
  | none, _ => s
  | some l, .FIOSELECT => selNodeAdd s l ⟨me, fd, type⟩ (d.reply .FIOSELECT type fd).malloc
  | some l, .FIOUNSELECT => selNodeDelete s l ⟨me, fd, type⟩

/-- `ioctl` on a descriptor, with what others do before it. -/
def ioctl (d : Drivers) (me : Nat) (s : State) (fd : Nat) (func : Func) (type : SelectType) :
    State × Int :=
  let r := d.reply func type fd
  let s := nodeIoctl d me ((d.before func type fd).foldl (selWakeupAll me) s) fd func type
  let s := if func = .FIOSELECT ∧ r.ready = true then selWakeup me s ⟨me, fd, type⟩ else s
  (s.errnoLeave r.errno, r.rv)

/-- `selDoIoctls`. -/
def selDoIoctls (d : Drivers) (me : Nat) (pFdSet : FdSet) (width : Nat) (func : Func)
    (type : SelectType) (stopOnError : Bool) (s : State) : State × Int :=
  fdLoop pFdSet width (fun (s, ret) fd =>
      let r := ioctl d me s fd func type
      if r.2 ≠ OK then ((r.1, ERROR), stopOnError) else ((r.1, ret), false))
    width 0 (s, OK)

/-- The descriptors in a set are counted. -/
def countFds (set : FdSet) (width : Nat) : Nat :=
  fdLoop set width (fun numFound _ => (numFound + 1, false)) width 0 0

/-! ## `select` -/

/-- The bits in the words up to a width. -/
def wordBits (width : Nat) : Nat := (width + (NFDBITS - 1)) / NFDBITS * NFDBITS

/-- `memset` of the words of a set up to a width. -/
def clear (width : Nat) (set : FdSet) : FdSet := fun fd => decide (wordBits width ≤ fd) && set fd

/-- The sets that have been given, before the drivers are asked. -/
def clearAll (width : Nat) (s : State) : State :=
  { s with fds := fun type => (s.fds type).map (clear width)
           exceptFds := s.exceptFds.map (clear width) }

/-- `selDoIoctls` for a set that has been given. -/
def doGiven (d : Drivers) (me : Nat) (orig : SelectType → Option FdSet) (width : Nat) (func : Func)
    (type : SelectType) (stopOnError : Bool) (s : State) : State × Int :=
  match orig type with
  | none => (s, OK)
  | some set => selDoIoctls d me set width func type stopOnError s

/-- The way out of `select` when a driver has failed: all descriptors are unselected. -/
def unselectAll (d : Drivers) (me : Nat) (orig : SelectType → Option FdSet) (width : Nat)
    (s : State) : State :=
  let errnoValue := s.errno
  let zero : FdSet := fun _ => false
  let s := (selDoIoctls d me ((orig .SELREAD).getD zero) width .FIOUNSELECT .SELREAD false s).1
  let s := (selDoIoctls d me ((orig .SELWRITE).getD zero) width .FIOUNSELECT .SELWRITE false s).1
  if errnoValue = some .S_ioLib_UNKNOWN_REQUEST then
    s.errnoSet .S_selectLib_NO_SELECT_SUPPORT_IN_DRIVER
  else s

/-- The part of `select` behind the first loops: the task waits, and its nodes are removed.  The
status, and not the number, is what the drivers have returned. -/
def waitAndUnselect (d : Drivers) (me : Nat) (orig : SelectType → Option FdSet) (width : Nat)
    (s : State) : State × Int :=
  let s := d.waiting.foldl (selWakeupAll me) s
  let r := doGiven d me orig width .FIOUNSELECT .SELREAD false s
  let w := doGiven d me orig width .FIOUNSELECT .SELWRITE false r.1
  (w.1, if r.2 ≠ OK ∨ w.2 ≠ OK then ERROR else OK)

/-- The descriptors in the two sets, which are those of `numFound`. -/
def found (width : Nat) (s : State) : Nat :=
  ((s.fds .SELREAD).map fun set => countFds set width).getD 0 +
    ((s.fds .SELWRITE).map fun set => countFds set width).getD 0

/-- `select` with a width that has been checked; it returns `numFound`. -/
def selectFds (d : Drivers) (me width : Nat) (s : State) : State × Int :=
  let orig := s.fds
  let s := clearAll width s
  let r := doGiven d me orig width .FIOSELECT .SELREAD true s
  let w := if r.2 ≠ ERROR then doGiven d me orig width .FIOSELECT .SELWRITE true r.1 else r
  if w.2 ≠ OK then (unselectAll d me orig width w.1, 0)
  else
    let u := waitAndUnselect d me orig width w.1
    (u.1, if u.2 = OK then found width u.1 else 0)

/-- `select`; `hasContext` says that the task has a select context. -/
def select (d : Drivers) (iosMaxFd me : Nat) (hasContext : Bool) (width : Int) (s : State) :
    State × Int :=
  if hasContext = false then (s.errnoSet .S_selectLib_NO_SELECT_CONTEXT, 0)
  else if width < 0 ∨ width > iosMaxFd ∧ width > FD_SETSIZE then
    (s.errnoSet .S_selectLib_WIDTH_OUT_OF_RANGE, 0)
  else selectFds d me (if width > iosMaxFd then iosMaxFd else width.toNat) s

end Vmx.Select
