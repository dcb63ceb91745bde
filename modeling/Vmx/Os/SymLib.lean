import Vmx.Util.HashLib
import Vmx.Os.FfsLib

/-!
# `symLib`: symbol tables

A symbol table is a hash table of symbols by name, with a count of the symbols and a
mutex.  `symMutex` is how often the calling task holds the mutex; `symTableAdd` keeps it
when the same name may not be added twice and the symbol is new.

A lookup puts its key in a symbol on the stack, `keySym`.  The text of a name ends before
its `EOS`.
-/

namespace Vmx.Sym

open Hash

def SYM_HASH_FUNC_SEED : Int := 1370364821

def SYM_MASK_ALL : Nat := 0xff

/-- Match symbol pointer exact. -/
def SYM_MASK_EXACT : Nat := 0x1ff

def SYM_MASK_EXACT_TYPE : Nat := SYM_MASK_ALL

/-- `SYMBOL`. -/
structure Symbol where
  name : List UInt8
  value : Nat
  group : Nat
  type : Nat
  deriving DecidableEq

/-- `symHashKeyCmpName`. -/
def symHashKeyCmpName (content : Nat → Symbol) (matchSymId symId mask : Nat) : Bool :=
  if mask = SYM_MASK_EXACT then matchSymId == symId
  else
    let symMask := mask % 256
    (content symId).type &&& symMask == (content matchSymId).type &&& symMask &&
      (content matchSymId).name == (content symId).name

/-- A `char`, converted to `unsigned int`. -/
def charBits (c : UInt8) : BitVec 32 := c.toBitVec.signExtend 32

/-- `symHashFuncName`. -/
def symHashFuncName (numElements : Nat) (sym : Symbol) (seed : Int) : Nat :=
  let key := (sym.name.map charBits).foldl (· + ·) 0
  let hash := key * BitVec.ofInt 32 seed
  let hash := hash.sshiftRight (33 - Os.ffsMsb numElements)
  (hash &&& BitVec.ofNat 32 (numElements - 1)).toNat

/-- `SYMTAB`; `nameHash` is the table behind `nameHashId`. -/
structure SymTab where
  nameHash : HashTable Symbol
  sameNameOk : Bool
  numSymbols : Int
  symMutex : Nat

/-- `symTableCreate`. -/
def symTableCreate (log2Size : Nat) (sameNameOk : Bool) (next : Nat → Option Nat)
    (content : Nat → Symbol) : SymTab :=
  { nameHash :=
      hashTableInit log2Size symHashKeyCmpName symHashFuncName SYM_HASH_FUNC_SEED next content
    sameNameOk := sameNameOk, numSymbols := 0, symMutex := 0 }

/-- A symbol is put on the table and counted. -/
def putSymbol (s : SymTab) (symId : Nat) : SymTab :=
  { s with nameHash := hashTablePut s.nameHash symId, numSymbols := s.numSymbols + 1 }

/-- `symTableAdd`, with its status; `none` when a search does not end. -/
def symTableAdd (fuel : Nat) (s : SymTab) (symId : Nat) : Option (SymTab × Bool) :=
  if s.sameNameOk = false then
    match hashTableFind fuel s.nameHash symId SYM_MASK_EXACT_TYPE with
    | none => none
    | some (some _) => some (s, false)
    | some none => some ({ putSymbol s symId with symMutex := s.symMutex + 1 }, true)
  else some (putSymbol s symId, true)

/-- `symFindSymbol` with a name, and the symbol that is found. -/
def symFindSymbol (fuel : Nat) (s : SymTab) (keySym : Nat) (name : List UInt8) (type mask : Nat) :
    Option (SymTab × Option Nat) :=
  let key := { s.nameHash.content keySym with name := name, type := type }
  let t := { s.nameHash with content := Function.update s.nameHash.content keySym key }
  (hashTableFind fuel t keySym mask).map fun found => ({ s with nameHash := t }, found)

/-- `symTableRemove`, with its status. -/
def symTableRemove (fuel : Nat) (s : SymTab) (symId : Nat) : Option (SymTab × Bool) :=
  match hashTableFind fuel s.nameHash symId SYM_MASK_EXACT with
  | none => none
  | some none => some (s, false)
  | some (some pHashNode) =>
    (hashTableRemove fuel s.nameHash pHashNode).map fun t =>
      ({ s with nameHash := t, numSymbols := s.numSymbols - 1 }, true)

/-- `symRemove`; `symDestroy` then gives the memory of the symbol back. -/
def symRemove (fuel : Nat) (s : SymTab) (keySym : Nat) (name : List UInt8) (type : Nat) :
    Option (SymTab × Bool) :=
  match symFindSymbol fuel s keySym name type SYM_MASK_EXACT_TYPE with
  | none => none
  | some (s, none) => some (s, false)
  | some (s, some symId) => symTableRemove fuel s symId

/-! ## Searching by value -/

/-- What a search by value has found so far, and what it has done with the mutex. -/
structure ValueSearch where
  pCloseSym : Option Nat
  closeValue : Nat
  /-- What is stored for the caller. -/
  pSymId : Option Nat
  symMutex : Nat
  /-- How often `semGive` was called. -/
  gives : Nat
  deriving DecidableEq

/-- `semGive`: it is refused when the task does not hold the mutex. -/
def ValueSearch.semGive (r : ValueSearch) : ValueSearch :=
  { r with symMutex := r.symMutex - 1, gives := r.gives + 1 }

/-- The loop over one list.  `break` leaves this loop only. -/
def valueLoop (t : HashTable Symbol) (value type mask : Nat) :
    Nat → Option Nat → ValueSearch → Option ValueSearch
  | _, none, r => some r
  | 0, some _, _ => none
  | fuel + 1, some pSym, r =>
    let sym := t.content pSym
    if sym.type &&& mask = type &&& mask ∧ sym.value = value then
      some { r with pSymId := some pSym }.semGive
    else if sym.type &&& mask = type &&& mask ∧ sym.value ≤ value ∧ sym.value > r.closeValue then
      valueLoop t value type mask fuel (t.next pSym)
        { r with pCloseSym := some pSym, closeValue := sym.value }
    else valueLoop t value type mask fuel (t.next pSym) r

/-- The loop over the lists, of which `n` are left from list `i` on. -/
def bucketsLoop (fuel : Nat) (t : HashTable Symbol) (value type mask : Nat) :
    Nat → Nat → ValueSearch → Option ValueSearch
  | 0, _, r => some r
  | n + 1, i, r =>
    match valueLoop t value type mask fuel (t.pHashTable i).head r with
    | none => none
    | some r => bucketsLoop fuel t value type mask n (i + 1) r

/-- The answer of a search by value. -/
structure ValueResult where
  symTab : SymTab
  status : Bool
  pSymId : Option Nat
  gives : Nat

/-- `symFindSymbol` without a name. -/
def symFindSymbolByValue (fuel : Nat) (s : SymTab) (value type mask : Nat) :
    Option ValueResult :=
  let r : ValueSearch :=
    { pCloseSym := none, closeValue := 0, pSymId := none, symMutex := s.symMutex + 1, gives := 0 }
  (bucketsLoop fuel s.nameHash value type mask s.nameHash.numElements 0 r).map fun r =>
    if r.closeValue = 0 ∨ r.pCloseSym = none then
      { symTab := { s with symMutex := r.semGive.symMutex }, status := false
        pSymId := r.pSymId, gives := r.semGive.gives }
    else
      { symTab := { s with symMutex := r.semGive.symMutex }, status := true
        pSymId := r.pCloseSym, gives := r.semGive.gives }

/-! ## Walking and deleting a table -/

/-- `hashTableEach`, with `n` lists left from list `i` on: `sllEach` stops at the first node for
which `func` returns FALSE. -/
def hashTableEach (fuel : Nat) (t : HashTable Symbol) (func : Symbol → Bool) :
    Nat → Nat → Option (Option Nat)
  | 0, _ => some none
  | n + 1, i =>
    match Lib.findLoop t.next (fun pSym => !func (t.content pSym)) fuel (t.pHashTable i).head with
    | none => none
    | some (some pSym) => some (some pSym)
    | some none => hashTableEach fuel t func n (i + 1)

/-- `symEach`, and the symbol where it stopped. -/
def symEach (fuel : Nat) (s : SymTab) (func : Symbol → Bool) : Option (SymTab × Option Nat) :=
  let s := { s with symMutex := s.symMutex + 1 }
  (hashTableEach fuel s.nameHash func s.nameHash.numElements 0).map fun pSym =>
    ({ s with symMutex := s.symMutex - 1 }, pSym)

/-- `symTableDestroy`, with its status: the table that is left, if it is. -/
def symTableDestroy (s : SymTab) : Option SymTab × Bool :=
  let s := { s with symMutex := s.symMutex + 1 }
  if s.numSymbols > 0 then (some { s with symMutex := s.symMutex - 1 }, false) else (none, true)

/-! ## The machine -/

inductive Op where
  /-- `symInit`, or any other use of memory that is in no symbol of the table. -/
  | write (symId : Nat) (symbol : Symbol)
  | tableAdd (symId : Nat)
  | findSymbol (keySym : Nat) (name : List UInt8) (type mask : Nat)
  | tableRemove (symId : Nat)
  | remove (keySym : Nat) (name : List UInt8) (type : Nat)

/-- One call.  A symbol that is added is not in the table, and neither is a key on the
stack.  The number of symbols that were ever added, `puts`, bounds the lists. -/
def step (s : SymTab × Nat) : Op → Option (SymTab × Nat)
  | .write symId symbol =>
    if symId ∈ s.1.nameHash.nodes then none
    else
      let t := s.1.nameHash
      some ({ s.1 with
        nameHash := { t with content := Function.update t.content symId symbol } }, s.2)
  | .tableAdd symId =>
    if symId ∈ s.1.nameHash.nodes then none
    else (symTableAdd (s.2 + 1) s.1 symId).map fun r => (r.1, s.2 + 1)
  | .findSymbol keySym name type mask =>
    if keySym ∈ s.1.nameHash.nodes then none
    else (symFindSymbol (s.2 + 1) s.1 keySym name type mask).map fun r => (r.1, s.2)
  | .tableRemove symId => (symTableRemove (s.2 + 1) s.1 symId).map fun r => (r.1, s.2)
  | .remove keySym name type =>
    if keySym ∈ s.1.nameHash.nodes then none
    else (symRemove (s.2 + 1) s.1 keySym name type).map fun r => (r.1, s.2)

end Vmx.Sym
