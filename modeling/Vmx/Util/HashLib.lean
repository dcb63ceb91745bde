import Vmx.Lib.Chain
import Mathlib.Algebra.Order.Ring.Int

/-!
# `sllLib`, `hashLib`: hash tables

A table is an array of singly linked lists.  The key function of the table picks the list
of a node and the compare function decides whether a node matches.  Nodes are addresses;
`next` is the link in each node and `content` what the owner of the node keeps in it.

`sllPrevious` and `hashTableFind` follow links until they end, so they take fuel, and
`none` means that they are still running when it is used up.  The table is an object that
`hashTableCreate` has made, so `OBJ_VERIFY` passes.
-/

namespace Vmx.Hash

open Lib

universe u

/-- `SL_LIST`. -/
structure SlList where
  head : Option Nat
  tail : Option Nat
  deriving DecidableEq

/-! ## `sllLib` -/

/-- `sllPutAtHead`, with the links after the call. -/
def sllPutAtHead (next : Nat → Option Nat) (list : SlList) (node : Nat) :
    SlList × (Nat → Option Nat) :=
  let next := Function.update next node list.head
  if list.head = none then ({ head := some node, tail := some node }, next)
  else ({ list with head := some node }, next)

/-- The loop of `sllPrevious`. -/
def previousLoop (next : Nat → Option Nat) (node : Nat) : Nat → Nat → Option (Option Nat)
  | 0, _ => none
  | fuel + 1, pLocalNode =>
    match next pLocalNode with
    | none => some none
    | some pNext =>
      if pNext = node then some (some pLocalNode) else previousLoop next node fuel pNext

/-- `sllPrevious`. -/
def sllPrevious (fuel : Nat) (next : Nat → Option Nat) (list : SlList) (node : Nat) :
    Option (Option Nat) :=
  match list.head with
  | none => some none
  | some pLocalNode =>
    if pLocalNode = node then some none else previousLoop next node fuel pLocalNode

/-- `sllRemove`: its second argument is the node before the one that is removed. -/
def sllRemove (next : Nat → Option Nat) (list : SlList) (pPrev pNode : Option Nat) :
    SlList × (Nat → Option Nat) :=
  match pNode with
  | none => (list, next)
  | some pNode =>
    let pNext := next pNode
    let r :=
      match pPrev with
      | none => ({ list with head := pNext }, next)
      | some pPrev => (list, Function.update next pPrev pNext)
    if pNext = none then ({ r.1 with tail := pPrev }, r.2) else r

/-! ## `hashLib` -/

/-- `HASH_TABLE`, with the memory of the nodes.  `nodes` is a ghost: what was put and not
removed. -/
structure HashTable (κ : Type u) where
  numElements : Nat
  cmpFunc : (Nat → κ) → Nat → Nat → Nat → Bool
  keyFunc : Nat → κ → Int → Nat
  keyArg : Int
  pHashTable : Nat → SlList
  next : Nat → Option Nat
  content : Nat → κ
  nodes : List Nat

variable {κ : Type u}

/-- `hashTableInit`. -/
def hashTableInit (log2Size : Nat) (cmpFunc : (Nat → κ) → Nat → Nat → Nat → Bool)
    (keyFunc : Nat → κ → Int → Nat) (keyArg : Int) (next : Nat → Option Nat) (content : Nat → κ) :
    HashTable κ :=
  { numElements := 2 ^ log2Size, cmpFunc := cmpFunc, keyFunc := keyFunc, keyArg := keyArg
    pHashTable := fun _ => { head := none, tail := none }
    next := next, content := content, nodes := [] }

namespace HashTable

variable (t : HashTable κ)

/-- The list of a node. -/
def key (node : Nat) : Nat := t.keyFunc t.numElements (t.content node) t.keyArg

/-- A list and the links are replaced. -/
def setList (i : Nat) (r : SlList × (Nat → Option Nat)) : HashTable κ :=
  { t with pHashTable := Function.update t.pHashTable i r.1, next := r.2 }

end HashTable

/-- `hashTablePut`. -/
def hashTablePut (t : HashTable κ) (pHashNode : Nat) : HashTable κ :=
  let i := t.key pHashNode
  { t.setList i (sllPutAtHead t.next (t.pHashTable i) pHashNode) with
    nodes := pHashNode :: t.nodes }

/-- `hashTableFind`, whose loop is a search along the links. -/
def hashTableFind (fuel : Nat) (t : HashTable κ) (pMatchNode cmpArg : Nat) : Option (Option Nat) :=
  findLoop t.next (fun pHashNode => t.cmpFunc t.content pMatchNode pHashNode cmpArg) fuel
    (t.pHashTable (t.key pMatchNode)).head

/-- `hashTableRemove`: the node and the one before it are passed to `sllRemove` in this
order. -/
def hashTableRemove (fuel : Nat) (t : HashTable κ) (pHashNode : Nat) : Option (HashTable κ) :=
  let i := t.key pHashNode
  match sllPrevious fuel t.next (t.pHashTable i) pHashNode with
  | none => none
  | some pPrevNode =>
    some { t.setList i (sllRemove t.next (t.pHashTable i) (some pHashNode) pPrevNode) with
      nodes := t.nodes.erase pHashNode }

/-! ## The machine -/

inductive Op (κ : Type u) where
  /-- The owner of a node that is not in the table writes its content. -/
  | write (node : Nat) (content : κ)
  | put (node : Nat)
  | find (pMatchNode cmpArg : Nat)
  | remove (node : Nat)

/-- One call.  A node that is put is not in the table and one that is removed is.  No list
has more nodes than were ever put, `puts`, so a search that is longer never ends, and the
call does not return. -/
def step (s : HashTable κ × Nat) : Op κ → Option (HashTable κ × Nat)
  | .write node content =>
    if node ∈ s.1.nodes then none
    else some ({ s.1 with content := Function.update s.1.content node content }, s.2)
  | .put node => if node ∈ s.1.nodes then none else some (hashTablePut s.1 node, s.2 + 1)
  | .find pMatchNode cmpArg =>
    (hashTableFind (s.2 + 1) s.1 pMatchNode cmpArg).map fun _ => s
  | .remove node =>
    if node ∈ s.1.nodes then (hashTableRemove (s.2 + 1) s.1 node).map fun t => (t, s.2) else none

end Vmx.Hash
