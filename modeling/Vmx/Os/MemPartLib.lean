import Vmx.Util.QLib
import Vmx.Lib.Transition
import Mathlib.Logic.Function.Basic

/-!
# `memPartLib`: memory partitions

A pool is cut into blocks.  A block starts with a header of 8 bytes, the link to the
block before it and its size in words of 2 bytes, and the next block is found through
the size.  A pool begins and ends with a block that is a header only.  The free blocks
are in a list, from any place of which the allocator takes them, splitting from their
end.

`header` is the memory, read as a header at each address, and `freeList` has the
addresses of the headers of the listed nodes.  Addresses and sizes are words of 32
bits, the size field of a header has 31, and the rounding macros convert to `int`.

`pools` and `live` are ghosts: the pools that were added, from the first header to the
end, and the outstanding allocations.  A failed call also calls an error routine that
the application may install, and can suspend its task; neither acts on the partition.
The partition is an object that `memPartInit` has made, so `OBJ_VERIFY` passes, and its
semaphore keeps the calls apart.
-/

namespace Vmx.MemPart

open Util

/-! ## Words -/

/-- The difference of two words. -/
def sub32 (x y : Nat) : Nat := u32 (x + 4294967296 - y)

/-- `ROUND_DOWN`: `~(align - 1)` clears the low bits. -/
def roundDown (x align : Nat) : Nat := x &&& (4294967296 - align)

/-- `ROUND_UP`. -/
def roundUp (x align : Nat) : Nat := roundDown (u32 (x + (align - 1))) align

/-- `ALIGNED`. -/
def aligned (x align : Nat) : Bool := x &&& (align - 1) == 0

/-- `x >> 1` of an `int`: the sign is kept. -/
def shiftInt (x : Nat) : Nat := if x < 2147483648 then x / 2 else 2147483648 + x / 2

/-- `x / 2` of an `int`, as it is stored in a word. -/
def halfInt (x : Nat) : Nat :=
  if x < 2147483648 then x / 2 else 4294967296 - (4294967296 - x) / 2

/-- A value is stored in a field of 31 bits. -/
def u31 (x : Nat) : Nat := x % 2147483648

/-! ## The partition -/

def ALLOC_ALIGN_SIZE : Nat := 4

/-- `sizeof(BLOCK_HEADER)`. -/
def headerSize : Nat := 8

/-- `sizeof(FREE_BLOCK)`. -/
def freeBlockSize : Nat := 16

inductive Errno where
  | ENOMEM
  | S_memPartLib_INVALID_NBYTES
  | S_memPartLib_BLOCK_ERROR
  deriving DecidableEq, Repr

/-- `BLOCK_HEADER`. -/
structure BlockHeader where
  pPrevHeader : Nat
  nWords : Nat
  free : Bool
  deriving DecidableEq, Repr

/-- An outstanding allocation. -/
structure Live where
  ptr : Nat
  nBytes : Nat
  alignment : Nat
  deriving DecidableEq, Repr

/-- `PARTITION`, with the memory of its pools. -/
structure Partition where
  header : Nat → BlockHeader
  freeList : List Nat
  totalWords : Nat
  minBlockWords : Nat
  blockCheck : Bool
  currBlocksAlloced : Nat
  currWordsAlloced : Nat
  cumBlocksAlloced : Nat
  cumWordsAlloced : Nat
  pools : List (Nat × Nat)
  live : List Live

/-- The part of `memPartInit` before it adds the first pool. -/
def memPartInit (memory : Nat → BlockHeader) (blockCheck : Bool) : Partition :=
  { header := memory, freeList := [], totalWords := 0, minBlockWords := freeBlockSize / 2
    blockCheck := blockCheck, currBlocksAlloced := 0, currWordsAlloced := 0
    cumBlocksAlloced := 0, cumWordsAlloced := 0, pools := [], live := [] }

namespace Partition

variable (m : Partition)

/-- `NEXT_HEADER`. -/
def nextHeader (pHeader : Nat) : Nat := u32 (pHeader + 2 * (m.header pHeader).nWords)

/-- `PREV_HEADER`. -/
def prevHeader (pHeader : Nat) : Nat := (m.header pHeader).pPrevHeader

def setHeader (pHeader : Nat) (f : BlockHeader → BlockHeader) : Partition :=
  { m with header := Function.update m.header pHeader (f (m.header pHeader)) }

end Partition

/-- `HEADER_TO_BLOCK`. -/
def headerToBlock (pHeader : Nat) : Nat := u32 (pHeader + headerSize)

/-- `BLOCK_TO_HEADER`. -/
def blockToHeader (pBlock : Nat) : Nat := sub32 pBlock headerSize

/-! ## Pools -/

/-- `memPartAddToPool`. -/
def memPartAddToPool (m : Partition) (pPool poolSize : Nat) : Except Errno Partition :=
  let tmp := roundUp pPool ALLOC_ALIGN_SIZE
  let reducePool := sub32 tmp pPool
  let poolSize := if reducePool ≤ poolSize then poolSize - reducePool else 0
  let pPool := tmp
  let poolSize := roundDown poolSize ALLOC_ALIGN_SIZE
  if poolSize < headerSize * 3 + m.minBlockWords * 2 then .error .S_memPartLib_INVALID_NBYTES
  else
    let pHeaderStart := pPool
    let m := m.setHeader pHeaderStart fun _ =>
      { pPrevHeader := 0, nWords := headerSize / 2, free := false }
    let pHeaderMiddle := m.nextHeader pHeaderStart
    let m := m.setHeader pHeaderMiddle fun _ =>
      { pPrevHeader := pHeaderStart, nWords := u31 (sub32 poolSize (2 * headerSize) / 2)
        free := true }
    let pHeaderEnd := m.nextHeader pHeaderMiddle
    let m := m.setHeader pHeaderEnd fun _ =>
      { pPrevHeader := pHeaderMiddle, nWords := headerSize / 2, free := false }
    .ok { m with
      freeList := pHeaderMiddle :: m.freeList
      totalWords := u32 (m.totalWords + poolSize / 2)
      pools := (pPool, pPool + poolSize) :: m.pools }

/-! ## Allocation -/

/-- `memAlignedBlockSplit`; a block that is too small for the split stays as it is. -/
def memAlignedBlockSplit (m : Partition) (pHeader nWords minWords alignment : Nat) :
    Partition × Option Nat :=
  let pEndOfBlock := u32 (pHeader + (m.header pHeader).nWords * 2)
  let pNewBlock := sub32 pEndOfBlock (u32 (sub32 nWords (headerSize / 2) * 2))
  let pNewBlock := roundDown pNewBlock alignment
  let pNewHeader := blockToHeader pNewBlock
  let blockSize := halfInt (sub32 pNewHeader pHeader)
  if blockSize < minWords ∧ pNewHeader ≠ pHeader then (m, none)
  else
    let m :=
      if blockSize < minWords then { m with freeList := m.freeList.erase pHeader }
      else
        let m := m.setHeader pNewHeader fun h => { h with pPrevHeader := pHeader }
        m.setHeader pHeader fun h => { h with nWords := u31 blockSize }
    if sub32 (sub32 pEndOfBlock pNewHeader) (u32 (nWords * 2)) < minWords * 2 then
      let m := m.setHeader pNewHeader fun h =>
        { h with nWords := u32 (sub32 pEndOfBlock pNewBlock + headerSize) / 2, free := true }
      (m.setHeader (m.nextHeader pNewHeader) fun h => { h with pPrevHeader := pNewHeader },
        some pNewHeader)
    else
      let m := m.setHeader pNewHeader fun h => { h with nWords := u31 nWords, free := true }
      let pNextHeader := m.nextHeader pNewHeader
      let m := m.setHeader pNextHeader fun _ =>
        { pPrevHeader := pNewHeader, nWords := sub32 pEndOfBlock pNextHeader / 2, free := true }
      let m := { m with freeList := m.freeList ++ [pNextHeader] }
      (m.setHeader (m.nextHeader pNextHeader) fun h => { h with pPrevHeader := pNextHeader },
        some pNewHeader)

/-- The inner loop of `memPartAlignedAlloc` stops: the block has room for the size and the
padding, or it is aligned and has the size. -/
def blockFits (m : Partition) (nWords nWordsPad alignment pHeader : Nat) : Bool :=
  decide (nWordsPad < (m.header pHeader).nWords) ||
    (m.header pHeader).nWords == nWords && aligned (headerToBlock pHeader) alignment

/-- The search of `memPartAlignedAlloc`, from a node of the free list on. -/
def allocLoop (m : Partition) (nWords nWordsPad alignment : Nat) :
    List Nat → Partition × Option Nat
  | [] => (m, none)
  | pHeader :: nodes =>
    if blockFits m nWords nWordsPad alignment pHeader then
      let r := memAlignedBlockSplit m pHeader nWords m.minBlockWords alignment
      if r.2.isSome then r else allocLoop r.1 nWords nWordsPad alignment nodes
    else allocLoop m nWords nWordsPad alignment nodes

/-- The size of a block in words, with its header. -/
def requestWords (nBytes : Nat) : Nat :=
  shiftInt (roundUp (u32 (nBytes + headerSize)) ALLOC_ALIGN_SIZE)

/-- `memPartAlignedAlloc`. -/
def memPartAlignedAlloc (m : Partition) (nBytes alignment : Nat) : Partition × Except Errno Nat :=
  let nWords := requestWords nBytes
  if u32 (nWords * 2) < nBytes then (m, .error .ENOMEM)
  else
    let nWords := if nWords < m.minBlockWords then m.minBlockWords else nWords
    let nWordsPad := u32 (nWords + alignment / 2)
    match allocLoop m nWords nWordsPad alignment m.freeList with
    | (m, none) => (m, .error .ENOMEM)
    | (m, some pHeader) =>
      let m := m.setHeader pHeader fun h => { h with free := false }
      let nWords := (m.header pHeader).nWords
      ({ m with
          currBlocksAlloced := u32 (m.currBlocksAlloced + 1)
          cumBlocksAlloced := u32 (m.cumBlocksAlloced + 1)
          currWordsAlloced := u32 (m.currWordsAlloced + nWords)
          cumWordsAlloced := u32 (m.cumWordsAlloced + nWords)
          live := ⟨headerToBlock pHeader, nBytes, alignment⟩ :: m.live },
        .ok (headerToBlock pHeader))

/-- `memPartAlloc`; `memDefaultAlignment` is `_ALLOC_ALIGN_SIZE`. -/
def memPartAlloc (m : Partition) (nBytes : Nat) : Partition × Except Errno Nat :=
  memPartAlignedAlloc m nBytes ALLOC_ALIGN_SIZE

/-! ## Freeing -/

/-- `memPartBlockValidate`. -/
def memPartBlockValidate (m : Partition) (pHeader : Nat) (isFree : Bool) : Bool :=
  aligned pHeader ALLOC_ALIGN_SIZE &&
  aligned (u32 (2 * (m.header pHeader).nWords)) ALLOC_ALIGN_SIZE &&
  decide ((m.header pHeader).nWords ≤ m.totalWords) &&
  (m.header pHeader).free == isFree &&
  pHeader == m.prevHeader (m.nextHeader pHeader) &&
  pHeader == m.nextHeader (m.prevHeader pHeader)

/-- The part of `memPartFree` that merges the block with the one before, or puts it on the
free list; with the block that is free now. -/
def mergePrev (m : Partition) (pHeader : Nat) : Partition × Nat :=
  let nWords := (m.header pHeader).nWords
  let pPrevHeader := m.prevHeader pHeader
  if (m.header pPrevHeader).free then
    let m := m.setHeader pHeader fun h => { h with free := false }
    (m.setHeader pPrevHeader fun h => { h with nWords := u31 (h.nWords + nWords) }, pPrevHeader)
  else
    let m := m.setHeader pHeader fun h => { h with free := true }
    ({ m with freeList := pHeader :: m.freeList }, pHeader)

/-- The part of `memPartFree` that takes the next block in, and links the one behind. -/
def mergeNext (m : Partition) (pHeader : Nat) : Partition :=
  let pNextHeader := m.nextHeader pHeader
  let m :=
    if (m.header pNextHeader).free then
      let m := m.setHeader pHeader fun h =>
        { h with nWords := u31 (h.nWords + (m.header pNextHeader).nWords) }
      { m with freeList := m.freeList.erase pNextHeader }
    else m
  m.setHeader (m.nextHeader pHeader) fun h => { h with pPrevHeader := pHeader }

/-- `memPartFree`. -/
def memPartFree (m : Partition) (ptr : Nat) : Except Errno Partition :=
  let pHeader := blockToHeader ptr
  if m.blockCheck ∧ memPartBlockValidate m pHeader false = false then
    .error .S_memPartLib_BLOCK_ERROR
  else
    let nWords := (m.header pHeader).nWords
    let r := mergePrev m pHeader
    let m := mergeNext r.1 r.2
    .ok { m with
      currBlocksAlloced := sub32 m.currBlocksAlloced 1
      currWordsAlloced := sub32 m.currWordsAlloced nWords
      live := m.live.filter fun l => l.ptr ≠ ptr }

/-! ## The machine -/

inductive Op where
  | addToPool (pPool poolSize : Nat)
  | alignedAlloc (nBytes alignment : Nat)
  | alloc (nBytes : Nat)
  | free (ptr : Nat)
  /-- The owner of a block writes 8 bytes into it. -/
  | write (l : Live) (addr : Nat) (bytes : BlockHeader)
  deriving DecidableEq, Repr

/-- One call, with what its caller promises: a pool is memory that is in no other
pool, an alignment is a power of two and not below the default, and a pointer that is
freed is that of an allocated block. -/
def step (m : Partition) : Op → Option Partition
  | .addToPool pPool poolSize =>
    if poolSize < 4294967296 ∧ pPool + poolSize ≤ 4294967296 ∧
        ∀ p ∈ m.pools, pPool + poolSize ≤ p.1 ∨ p.2 ≤ pPool then
      match memPartAddToPool m pPool poolSize with
      | .error _ => some m
      | .ok m => some m
    else none
  | .alignedAlloc nBytes alignment =>
    if nBytes < 4294967296 ∧ alignment = 2 ^ alignment.log2 ∧ ALLOC_ALIGN_SIZE ≤ alignment ∧
        alignment < 4294967296 then
      some (memPartAlignedAlloc m nBytes alignment).1
    else none
  | .alloc nBytes => if nBytes < 4294967296 then some (memPartAlloc m nBytes).1 else none
  | .free ptr =>
    if ptr ∈ m.live.map Live.ptr then
      match memPartFree m ptr with
      | .error _ => some m
      | .ok m => some m
    else none
  | .write l addr bytes =>
    if l ∈ m.live ∧ l.ptr ≤ addr ∧ addr + 8 ≤ l.ptr + l.nBytes then
      some (m.setHeader addr fun _ => bytes)
    else none

end Vmx.MemPart
