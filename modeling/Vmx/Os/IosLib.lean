import Vmx.Lib.Transition
import Mathlib.Logic.Function.Basic

/-!
# `iosLib`: the table of descriptors

A descriptor is the index of its entry and 3, so that the last three entries of the table have
no descriptor.  The name of an entry points to memory of its own, or to the name of its device;
`heap` has the strings in memory, by their address.

A call gets the address that `malloc` returns, which is not in use, what `ioTaskStdGet` returns
for the calling task and what the driver returns.  `none` as the result of a call says that it
reads something behind a null pointer, or a name that is no longer in memory.  The hooks of the
table are not set.
-/

namespace Vmx.Ios

def OK : Int := 0
def ERROR : Int := -1

inductive Errno where
  | S_iosLib_TO_MANY_OPEN_FILES
  deriving DecidableEq

/-- `DEV_HEADER`, with the address of its name. -/
structure DevHeader where
  name : Nat
  drvNumber : Nat
  deriving DecidableEq

/-- `FD_ENTRY`. -/
structure FdEntry where
  pDevHeader : Option Nat
  value : Int
  name : Option Nat
  used : Bool
  obsolete : Bool
  deriving DecidableEq

structure State where
  iosFdTable : Nat → FdEntry
  iosMaxFd : Nat
  devHeader : Nat → DevHeader
  iosDevList : List Nat
  heap : Nat → Option (List UInt8)
  errno : Option Errno

namespace State

variable (s : State)

def setEntry (f : Nat) (entry : FdEntry) : State :=
  { s with iosFdTable := Function.update s.iosFdTable f entry }

def free (p : Nat) : State := { s with heap := Function.update s.heap p none }

/-- The string is copied to the address. -/
def copy (p : Nat) (str : List UInt8) : State :=
  { s with heap := Function.update s.heap p (some str) }

/-- The name of an entry, where it can be read. -/
def nameOf (f : Nat) : Option (Option (List UInt8)) :=
  match (s.iosFdTable f).name with
  | none => some none
  | some p => (s.heap p).map some

end State

/-- `STD_FIX`. -/
def stdFix (f : Nat) : Int := f + 3

/-- The descriptor that a descriptor stands for: one of the first three is one of the task. -/
def target (std : Nat → Int) (fd : Int) : Int := if 0 ≤ fd ∧ fd < 3 then std fd.toNat else fd

/-- `STD_MAP`. -/
def stdMap (std : Nat → Int) (fd : Int) : Int := target std fd - 3

/-- `FD_CHECK`: the index of the entry. -/
def fdCheck (s : State) (f : Int) : Option Nat :=
  if 0 ≤ f ∧ f < s.iosMaxFd ∧ (s.iosFdTable f.toNat).used = true ∧
      (s.iosFdTable f.toNat).obsolete = false then
    some f.toNat
  else none

/-- The name of an entry is freed when it is not the name of the device. -/
def freeName (s : State) (f : Nat) (pDevHeader : Option Nat) : Option State :=
  match (s.iosFdTable f).name with
  | none => some s
  | some p => pDevHeader.map fun dev => if p ≠ (s.devHeader dev).name then s.free p else s

/-- `iosFdFree`. -/
def iosFdFree (s : State) (std : Nat → Int) (fd : Int) : Option State :=
  match fdCheck s (stdMap std fd) with
  | none => some s
  | some f =>
    (freeName s f (s.iosFdTable f).pDevHeader).map fun t =>
      t.setEntry f { s.iosFdTable f with name := none, used := false }

/-- The part of `iosFdSet` behind the checks, when the old name has been freed. -/
def setName (s : State) (f : Nat) (malloc : Option Nat) (pDevHeader : Option Nat)
    (name : Option (List UInt8)) (value : Int) : Option (State × Int) :=
  let e := s.iosFdTable f
  match name with
  | none =>
    some (s.setEntry f { e with name := none, pDevHeader := pDevHeader, value := value }, OK)
  | some str =>
    match pDevHeader with
    | none => none
    | some dev =>
      match s.heap (s.devHeader dev).name with
      | none => none
      | some devName =>
        if str = devName then
          some (s.setEntry f { e with
            name := some (s.devHeader dev).name, pDevHeader := some dev, value := value }, OK)
        else
          match malloc with
          | none => some (s.setEntry f { e with name := none }, ERROR)
          | some p =>
            if s.heap p ≠ none then none
            else
              some ((s.copy p str).setEntry f { e with
                name := some p, pDevHeader := some dev, value := value }, OK)

/-- `iosFdSet`. -/
def iosFdSet (s : State) (malloc : Option Nat) (fd : Int) (pDevHeader : Option Nat)
    (name : Option (List UInt8)) (value : Int) : Option (State × Int) :=
  if fd < 3 ∨ fd ≥ s.iosMaxFd then some (s, ERROR)
  else
    let f := (fd - 3).toNat
    if (s.iosFdTable f).used = false then some (s, ERROR)
    else (freeName s f pDevHeader).bind fun s => setName s f malloc pDevHeader name value

/-- The loop of `iosFdNew`: the first entry that is not used, or the end of the table. -/
def firstFree (s : State) : Nat :=
  ((List.range s.iosMaxFd).find? fun fd => !(s.iosFdTable fd).used).getD s.iosMaxFd

/-- The entry that `iosFdNew` has found is taken. -/
def claim (s : State) : State :=
  let f := firstFree s
  if f < s.iosMaxFd then
    s.setEntry f { s.iosFdTable f with used := true, obsolete := false, name := none }
  else s

/-- `iosFdNew`. -/
def iosFdNew (s : State) (malloc : Option Nat) (pDevHeader : Option Nat)
    (name : Option (List UInt8)) (value : Int) : Option (State × Int) :=
  let fd := stdFix (firstFree s)
  if fd ≥ s.iosMaxFd then
    some ({ claim s with errno := some .S_iosLib_TO_MANY_OPEN_FILES }, ERROR)
  else
    (iosFdSet (claim s) malloc fd pDevHeader name value).map fun r =>
      (r.1, if r.2 ≠ OK then ERROR else fd)

/-- `iosClose`; `rv` is what the driver returns. -/
def iosClose (s : State) (std : Nat → Int) (fd rv : Int) : Option (State × Int) :=
  let fDesc := stdMap std fd
  match fdCheck s fDesc with
  | none => some (s, ERROR)
  | some f =>
    match (s.iosFdTable f).pDevHeader with
    | none => none
    | some _ => (iosFdFree s std (fDesc + 3)).map fun s => (s, rv)

/-- The first loop of `iosDrvRemove`, from an index on. -/
def closeLoop (std : Nat → Int) (drvNumber : Nat) (forceClose : Bool) :
    State → List Nat → Option (State × Int)
  | s, [] => some (s, OK)
  | s, f :: fs =>
    if (s.iosFdTable f).used = true then
      match (s.iosFdTable f).pDevHeader with
      | none => none
      | some dev =>
        if (s.devHeader dev).drvNumber = drvNumber then
          if forceClose = true then
            match iosFdFree s std (stdFix f) with
            | none => none
            | some s => closeLoop std drvNumber forceClose s fs
          else some (s, ERROR)
        else closeLoop std drvNumber forceClose s fs
    else closeLoop std drvNumber forceClose s fs

/-- The second loop of `iosDrvRemove`: the devices of the driver are removed, with their names. -/
def removeDevs (s : State) (drvNumber : Nat) : State :=
  let own := s.iosDevList.filter fun dev => (s.devHeader dev).drvNumber = drvNumber
  { own.foldl (fun s dev => s.free (s.devHeader dev).name) s with
    iosDevList := s.iosDevList.filter fun dev => (s.devHeader dev).drvNumber ≠ drvNumber }

/-- `iosDrvRemove`. -/
def iosDrvRemove (s : State) (std : Nat → Int) (drvNumber : Nat) (forceClose : Bool) :
    Option (State × Int) :=
  (closeLoop std drvNumber forceClose s (List.range s.iosMaxFd)).map fun r =>
    if r.2 = OK then (removeDevs r.1 drvNumber, OK) else r

/-! ## The machine -/

inductive Op where
  | fdNew (malloc pDevHeader : Option Nat) (name : Option (List UInt8)) (value : Int)
  | fdSet (malloc : Option Nat) (fd : Int) (pDevHeader : Option Nat) (name : Option (List UInt8))
      (value : Int)
  | fdFree (std : Nat → Int) (fd : Int)
  | close (std : Nat → Int) (fd rv : Int)
  | drvRemove (std : Nat → Int) (drvNumber : Nat) (forceClose : Bool)

/-- A call, with its result. -/
def call (s : State) : Op → Option (State × Int)
  | .fdNew malloc pDevHeader name value => iosFdNew s malloc pDevHeader name value
  | .fdSet malloc fd pDevHeader name value => iosFdSet s malloc fd pDevHeader name value
  | .fdFree std fd => (iosFdFree s std fd).map fun s => (s, OK)
  | .close std fd rv => iosClose s std fd rv
  | .drvRemove std drvNumber forceClose => iosDrvRemove s std drvNumber forceClose

/-- What a descriptor has been set to. -/
structure Setting where
  pDevHeader : Option Nat
  name : Option (List UInt8)
  value : Int
  deriving DecidableEq

/-- The table, with the descriptors that have been returned and not been freed, and what each has
been set to last. -/
structure Run where
  table : State
  out : List Int
  last : Int → Option Setting

/-- The descriptor was set to a device of the driver. -/
def Run.ofDriver (r : Run) (drvNumber : Nat) (fd : Int) : Bool :=
  match (r.last fd).bind Setting.pDevHeader with
  | none => false
  | some dev => (r.table.devHeader dev).drvNumber = drvNumber

/-- What a caller knows of the table after a call that has returned `rv`. -/
def Run.record (r : Run) (s : State) (rv : Int) : Op → Run
  | .fdNew _ pDevHeader name value =>
    if rv = ERROR then { r with table := s }
    else ⟨s, rv :: r.out, Function.update r.last rv (some ⟨pDevHeader, name, value⟩)⟩
  | .fdSet _ fd pDevHeader name value =>
    if rv = ERROR then { r with table := s }
    else ⟨s, r.out, Function.update r.last fd (some ⟨pDevHeader, name, value⟩)⟩
  | .fdFree std fd => ⟨s, r.out.erase (target std fd), r.last⟩
  | .close std fd _ => ⟨s, r.out.erase (target std fd), r.last⟩
  | .drvRemove _ drvNumber forceClose =>
    if forceClose = true then
      ⟨s, r.out.filter fun fd => !r.ofDriver drvNumber fd, r.last⟩
    else { r with table := s }

def step (r : Run) (op : Op) : Option Run := (call r.table op).map fun c => r.record c.1 c.2 op

/-- `iosLibInit`, with the devices that have been added then. -/
def iosLibInit (max_fd : Nat) (devHeader : Nat → DevHeader) (iosDevList : List Nat)
    (heap : Nat → Option (List UInt8)) : Run :=
  { table :=
      { iosFdTable := fun _ => ⟨none, 0, none, false, false⟩, iosMaxFd := max_fd
        devHeader := devHeader, iosDevList := iosDevList, heap := heap, errno := none }
    out := [], last := fun _ => none }

end Vmx.Ios
