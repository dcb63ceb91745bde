import Vmx.Lib.Transition
import Mathlib.Logic.Function.Basic
import Mathlib.Data.List.Pairwise

/-!
# `moduleLib`: the list of modules

A module gets the group number after that of the last module in the list, as long as there is
one below `MODULE_GROUP_MAX`; after that `moduleInsert` looks for a gap.  The list is the one
of `moduleList`, from its head to its tail, and the searches go from the tail to the head.

`none` as the result of a call says that the call has no result: it reads a variable without
a value or behind a null pointer, writes behind a buffer, or does not end.  The segments, the
create hooks and the other fields of a module are left out; nothing here reads them.
-/

namespace Vmx.ModuleLib

open Lib

def MODULE_GROUP_MAX : Nat := 65535

def MODULE_REPLACED : UInt32 := 0x00010000

def NAME_MAX : Nat := 32

def PATH_MAX : Nat := 1024

/-- `MODULE`; strings end before their `EOS`. -/
structure Module where
  name : List UInt8
  path : List UInt8
  flags : UInt32
  format : Int
  group : Nat
  deriving DecidableEq

/-- The library; `verified` says which modules have the class of modules. -/
structure State where
  moduleList : List Nat
  moduleGroupNum : Nat
  module : Nat → Module
  verified : Nat → Bool

def State.setModule (s : State) (modId : Nat) (m : Module) : State :=
  { s with module := Function.update s.module modId m }

/-! ## Names -/

/-- `pathSlashLastIndex`. -/
def pathSlashLastIndex : List UInt8 → Option Nat
  | [] => none
  | c :: str =>
    match pathSlashLastIndex str with
    | some i => some (i + 1)
    | none => if c = 47 ∨ c = 92 then some 0 else none

/-- `pathSplit`: the directory and the file name; `none` is a null pointer. -/
def pathSplit (path : Option (List UInt8)) : List UInt8 × List UInt8 :=
  match path with
  | none => ([], [])
  | some path =>
    match pathSlashLastIndex path with
    | none => ([], path)
    | some n => (path.take n, path.drop (n + 1))

/-! ## Finding modules -/

/-- The loop of the searches, over the modules that are left. -/
def findModule (isMatch : Nat → Bool) : List Nat → Option Nat → Option Nat
  | [], modId => modId
  | modId :: rest, _ => if isMatch modId then some modId else findModule isMatch rest (some modId)

/-- `moduleFindByName`. -/
def moduleFindByName (s : State) (name : Option (List UInt8)) : Option (Option Nat) :=
  let (mPath, mName) := pathSplit name
  if mPath.length < NAME_MAX ∧ mName.length < PATH_MAX then
    some (findModule (fun modId => (s.module modId).name == mName) s.moduleList.reverse none)
  else none

/-- `moduleFindByNameAndPath`. -/
def moduleFindByNameAndPath (s : State) (name path : List UInt8) : Option Nat :=
  findModule (fun modId => (s.module modId).name == name && (s.module modId).path == path)
    s.moduleList.reverse none

/-- `moduleFindByGroup`. -/
def moduleFindByGroup (s : State) (group : Int) : Option Nat :=
  findModule (fun modId => group == ((s.module modId).group : Int)) s.moduleList.reverse none

/-! ## Adding and removing modules -/

/-- `DLL_NEXT` of a node of the list. -/
def dllNext (list : List Nat) (modId : Nat) : Option Nat :=
  list[list.idxOf modId + 1]?

/-- `DLL_PREV` of a node of the list. -/
def dllPrev (list : List Nat) (modId : Nat) : Option Nat :=
  if list.idxOf modId = 0 then none else list[list.idxOf modId - 1]?

/-- `dllInsert` behind a node of the list. -/
def dllInsert (list : List Nat) (prev modId : Nat) : List Nat :=
  list.take (list.idxOf prev + 1) ++ modId :: list.drop (list.idxOf prev + 1)

/-- The loop of `moduleInsert`.  `nextMod` has no value before the first round. -/
def moduleInsertLoop (s : State) (modId : Nat) :
    Nat → Option Nat → Option Nat → Option (State × Bool)
  | _, none, nextMod => nextMod.map fun _ => (s, true)
  | 0, some _, _ => none
  | fuel + 1, some currMod, _ =>
    match dllNext s.moduleList currMod with
    | none => none -- `nextMod` lies before a null node: it is not `NULL`, and its group is read
    | some nextMod =>
      if (s.module nextMod).group > (s.module currMod).group + 1 then
        some ({ s.setModule modId
            { s.module modId with group := (s.module currMod).group + 1 } with
          moduleList := dllInsert s.moduleList currMod modId }, true)
      else moduleInsertLoop s modId fuel (dllPrev s.moduleList nextMod) (some nextMod)

/-- `moduleInsert`, with its status. -/
def moduleInsert (s : State) (modId : Nat) : Option (State × Bool) :=
  moduleInsertLoop s modId (s.moduleList.length + 1) s.moduleList.getLast? none

/-- The old module is replaced. -/
def markReplaced (s : State) (oldMod : Option Nat) : State :=
  match oldMod with
  | none => s
  | some oldMod =>
    s.setModule oldMod
      { s.module oldMod with flags := (s.module oldMod).flags ||| MODULE_REPLACED }

/-- The number after that of the last module; without a module the number stays. -/
def nextGroupNum (s : State) : Nat :=
  match s.moduleList.getLast? with
  | none => s.moduleGroupNum
  | some lastMod => (s.module lastMod).group + 1

/-- The end of a successful `moduleInit`. -/
def setupModule (s : State) (modId : Nat) (format : Int) (flags : UInt32) : State :=
  { s.setModule modId { s.module modId with flags := flags, format := format } with
    verified := Function.update s.verified modId true }

/-- `moduleInit`, with its status. -/
def moduleInit (s : State) (modId : Nat) (name : Option (List UInt8)) (format : Int)
    (flags : UInt32) : Option (State × Bool) :=
  let (path, file) := pathSplit name
  if path.length < NAME_MAX ∧ file.length < NAME_MAX then
    let s := s.setModule modId { s.module modId with path := path, name := file }
    match moduleFindByName s (some file) with
    | none => none
    | some oldMod =>
      let s := markReplaced s oldMod
      let s := { s with moduleGroupNum := nextGroupNum s }
      if s.moduleGroupNum < MODULE_GROUP_MAX then
        let s := { s.setModule modId { s.module modId with group := s.moduleGroupNum } with
          moduleGroupNum := s.moduleGroupNum + 1
          moduleList := s.moduleList ++ [modId] }
        some (setupModule s modId format flags, true)
      else
        match moduleInsert s modId with
        | none => none
        | some (s, false) => some (s, false)
        | some (s, true) => some (setupModule s modId format flags, true)
  else none

/-- `moduleDestroy`, with its status. -/
def moduleDestroy (s : State) (modId : Nat) : State × Bool :=
  if s.verified modId then
    ({ s with
      verified := Function.update s.verified modId false
      moduleList := s.moduleList.erase modId }, true)
  else (s, false)

/-! ## Calls -/

inductive Op where
  | init (modId : Nat) (name : Option (List UInt8)) (format : Int) (flags : UInt32)
  | destroy (modId : Nat)
  deriving DecidableEq

/-- A call; the memory of a new module is not that of a module that exists. -/
def step (s : State) : Op → Option State
  | .init modId name format flags =>
    if s.verified modId then none else (moduleInit s modId name format flags).map Prod.fst
  | .destroy modId => some (moduleDestroy s modId).1

/-- After `moduleLibInit`. -/
def start (module : Nat → Module) : State :=
  { moduleList := [], moduleGroupNum := 1, module := module, verified := fun _ => false }

end Vmx.ModuleLib
