import Vmx.Lib.Transition
import Mathlib.Logic.Function.Basic

/-!
# `ioLib`: calls with a path, and descriptors

A call with a path goes through `ioConnect`, which takes a descriptor, asks the drivers until
one of them does not follow a link to another, and keeps the descriptor or frees it.

What the rest of the system answers is part of a call: whether the working directory can be put
before the path, the device that is found in each round and what its driver returns, whether
there is memory for the name of the descriptor, and what the driver returns for an `ioctl` and a
`close`.  `held` is a ghost: the values that drivers have returned for files they have open.

`none` as the result of a call says that it does not end, or reads a device behind a null pointer.
The hooks of the table are not set.
-/

namespace Vmx.Io

open Lib

def ERROR : Int := -1

def OK : Int := 0

def FOLLOW_LINK : Int := -10

def FOLLOW_DOTDOT : Int := -11

def PATH_MAX : Nat := 1024

def O_CREAT : Nat := 0x0200

inductive Errno where
  | ENOENT
  | ENAMETOOLONG
  | EINVAL
  | ENODEV
  | S_iosLib_TO_MANY_OPEN_FILES
  deriving DecidableEq, Repr

/-- `FD_ENTRY`, without its name. -/
structure FdEntry where
  pDevHeader : Option Nat
  value : Int
  used : Bool
  obsolete : Bool
  deriving DecidableEq

/-- The table of descriptors; `std` is `ioTaskStdGet` for the calling task. -/
structure State where
  iosFdTable : Nat → FdEntry
  iosMaxFd : Nat
  std : Nat → Int
  cwdLen : Nat
  errno : Option Errno
  held : List (Nat × Int)

namespace State

variable (s : State)

def errnoSet (e : Errno) : State := { s with errno := some e }

def setEntry (f : Nat) (entry : FdEntry) : State :=
  { s with iosFdTable := Function.update s.iosFdTable f entry }

end State

/-- `STD_FIX`. -/
def stdFix (fd : Int) : Int := fd + 3

/-- `STD_UNFIX`. -/
def stdUnfix (fd : Int) : Int := fd - 3

/-- `STD_MAP`. -/
def stdMap (s : State) (fd : Int) : Int :=
  stdUnfix (if 0 ≤ fd ∧ fd < 3 then s.std fd.toNat else fd)

/-- `FD_CHECK`: the index of the entry. -/
def fdCheck (s : State) (fd : Int) : Option Nat :=
  if 0 ≤ fd ∧ fd < s.iosMaxFd ∧ (s.iosFdTable fd.toNat).used = true ∧
      (s.iosFdTable fd.toNat).obsolete = false then
    some fd.toNat
  else none

/-! ## Descriptors -/

/-- `iosFdFree`. -/
def iosFdFree (s : State) (fd : Int) : State :=
  match fdCheck s (stdMap s fd) with
  | none => s
  | some f => s.setEntry f { s.iosFdTable f with used := false }

/-- `iosFdSet`; nothing is set when it fails.  `recorded` says that there is memory for the name,
or that none is needed. -/
def iosFdSet (s : State) (fd : Int) (pDevHeader : Option Nat) (recorded : Bool) (value : Int) :
    Option State :=
  if fd < 3 ∨ fd ≥ s.iosMaxFd then none
  else
    let f := (stdUnfix fd).toNat
    if (s.iosFdTable f).used = false then none
    else if recorded then
      some (s.setEntry f { s.iosFdTable f with pDevHeader := pDevHeader, value := value })
    else none

/-- The loop of `iosFdNew`: the first entry that is not used, or the end of the table. -/
def firstFree (s : State) : Nat :=
  ((List.range s.iosMaxFd).find? fun fd => !(s.iosFdTable fd).used).getD s.iosMaxFd

/-- `iosFdNew` without a device, a name and a value. -/
def iosFdNew (s : State) : State × Int :=
  let f := firstFree s
  let s :=
    if f < s.iosMaxFd then
      s.setEntry f { s.iosFdTable f with used := true, obsolete := false }
    else s
  let fd := stdFix f
  if fd ≥ s.iosMaxFd then (s.errnoSet .S_iosLib_TO_MANY_OPEN_FILES, ERROR)
  else
    match iosFdSet s fd none true 0 with
    | none => (s, ERROR)
    | some s => (s, fd)

/-- `iosClose`; `rv` is what the driver returns. -/
def iosClose (s : State) (fd rv : Int) : Option (State × Int) :=
  let fDesc := stdMap s fd
  match fdCheck s fDesc with
  | none => some (s, ERROR)
  | some f =>
    (s.iosFdTable f).pDevHeader.map fun dev =>
      (iosFdFree { s with held := s.held.erase (dev, (s.iosFdTable f).value) } (stdFix fDesc), rv)

/-- `iosIoctl` of a function that is not `FIOGETNAME`; `rv` is what the driver returns. -/
def iosIoctl (s : State) (fd rv : Int) : Option Int :=
  match fdCheck s (stdMap s fd) with
  | none => some ERROR
  | some f => (s.iosFdTable f).pDevHeader.map fun _ => rv

/-- The table that `iosLibInit` makes; the working directory is empty. -/
def iosLibInit (max_fd : Nat) (std : Nat → Int) : State :=
  { iosFdTable := fun _ => ⟨none, 0, false, false⟩, iosMaxFd := max_fd, std := std, cwdLen := 0
    errno := none, held := [] }

/-! ## Paths -/

/-- A path, with what the rest of the system answers in a call with it.  A round without a device
is one in which none is found. -/
structure Path where
  filename : Option (List UInt8)
  prepends : Bool
  rounds : List (Option (Nat × Int))
  recorded : Bool
  ioctl : Int
  close : Int
  deriving DecidableEq

/-- The loop of `ioConnect`: the device that is asked last, and what its driver returns. -/
def follow : List (Option (Nat × Int)) → Option (Option (Nat × Int))
  | [] => none
  | none :: _ => some none
  | some (pDevHeader, rv) :: rounds =>
    if rv ≠ FOLLOW_LINK ∧ rv ≠ FOLLOW_DOTDOT then some (some (pDevHeader, rv)) else follow rounds

/-- The part of `ioConnect` behind `iosFdNew`, with what that has returned.  `opens` says that the
driver is asked to open or create a file, and not to remove one. -/
def connectFd (s : State) (fd : Int) (opens : Bool) (p : Path) : Option (State × Int) :=
  match follow p.rounds with
  | none => none
  | some none => some (iosFdFree (s.errnoSet .ENODEV) fd, ERROR)
  | some (some (pDevHeader, rv)) =>
    if rv = ERROR then some (iosFdFree s fd, ERROR)
    else
      let s := if opens then { s with held := (pDevHeader, rv) :: s.held } else s
      match iosFdSet s fd (some pDevHeader) p.recorded rv with
      | none => some (iosFdFree s fd, ERROR)
      | some s => some (s, fd)

/-- `ioConnect`. -/
def ioConnect (s : State) (opens : Bool) (p : Path) : Option (State × Int) :=
  match p.filename with
  | none => some (s.errnoSet .ENOENT, ERROR)
  | some filename =>
    if filename = [] then some (s.errnoSet .ENOENT, ERROR)
    else if s.cwdLen + filename.length > PATH_MAX then some (s.errnoSet .ENAMETOOLONG, ERROR)
    else if p.prepends = false then some (s.errnoSet .EINVAL, ERROR)
    else connectFd (iosFdNew s).1 (iosFdNew s).2 opens p

/-- The mode has other bits than those of permissions. -/
def badMode (mode : Nat) : Bool := decide (mode ≥ 0o1000)

/-- `open`. -/
def «open» (s : State) (p : Path) (oflags mode : Nat) : Option (State × Int) :=
  if oflags &&& O_CREAT ≠ 0 ∧ badMode mode then some (s.errnoSet .EINVAL, ERROR)
  else ioConnect s true p

/-- `creat`, which goes on with a bad mode. -/
def creat (s : State) (p : Path) (mode : Nat) : Option (State × Int) :=
  let s := if badMode mode then s.errnoSet .EINVAL else s
  ioConnect s true p

/-- `close`. -/
def close (s : State) (fd rv : Int) : Option (State × Int) := iosClose s fd rv

/-- `remove`. -/
def remove (s : State) (p : Path) : Option (State × Int) := ioConnect s false p

/-- `rmdir`. -/
def rmdir (s : State) (p : Path) : Option (State × Int) := ioConnect s false p

/-- A call that connects, and closes the descriptor when it has one. -/
def withFd (s : State) (p : Path) (result : State → Int → Option Int) : Option (State × Int) :=
  match ioConnect s true p with
  | none => none
  | some (s, fd) =>
    if fd < 0 then some (s, ERROR)
    else
      match result s fd with
      | none => none
      | some rv => (close s fd p.close).map fun r => (r.1, rv)

/-- `mkdir`. -/
def mkdir (s : State) (p : Path) (mode : Nat) : Option (State × Int) :=
  if badMode mode then some (s.errnoSet .EINVAL, ERROR)
  else withFd s p fun _ _ => some OK

/-- `symlink`. -/
def symlink (s : State) (p : Path) (mode : Nat) : Option (State × Int) :=
  if badMode mode then some (s.errnoSet .EINVAL, ERROR)
  else withFd s p fun _ _ => some OK

/-- `readlink`. -/
def readlink (s : State) (p : Path) : Option (State × Int) :=
  withFd s p fun s fd => iosIoctl s fd p.ioctl

/-- `stat`. -/
def stat (s : State) (p : Path) : Option (State × Int) :=
  withFd s p fun s fd => iosIoctl s fd p.ioctl

/-- `lstat`. -/
def lstat (s : State) (p : Path) : Option (State × Int) :=
  withFd s p fun s fd => iosIoctl s fd p.ioctl

/-- `pathconf`. -/
def pathconf (s : State) (p : Path) : Option (State × Int) :=
  withFd s p fun s fd => iosIoctl s fd p.ioctl

/-! ## The machine -/

inductive Call where
  | open (p : Path) (oflags mode : Nat)
  | creat (p : Path) (mode : Nat)
  | remove (p : Path)
  | rmdir (p : Path)
  | mkdir (p : Path) (mode : Nat)
  | symlink (p : Path) (mode : Nat)
  | readlink (p : Path)
  | stat (p : Path)
  | lstat (p : Path)
  | pathconf (p : Path)
  | close (fd rv : Int)
  deriving DecidableEq

/-- A call, with its result. -/
def call (s : State) : Call → Option (State × Int)
  | .open p oflags mode => «open» s p oflags mode
  | .creat p mode => creat s p mode
  | .remove p => remove s p
  | .rmdir p => rmdir s p
  | .mkdir p mode => mkdir s p mode
  | .symlink p mode => symlink s p mode
  | .readlink p => readlink s p
  | .stat p => stat s p
  | .lstat p => lstat s p
  | .pathconf p => pathconf s p
  | .close fd rv => close s fd rv

def step (s : State) (c : Call) : Option State := (call s c).map Prod.fst

end Vmx.Io
