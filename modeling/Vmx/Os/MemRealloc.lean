import Vmx.Os.MemPartRuns

/-!
# `memPartRealloc`

`Memory` is a partition with the bytes of its memory.  A call of the allocator writes headers
and the links of the free list, which lie in the first bytes of a free block; `wrote` says at
which addresses, and `links` are the bytes that stand there afterwards.

`pNewBlock` gets a value when the block is freed, not valid, or copied.  When the block is
large enough, or grows into the next one, nothing is assigned to it.
-/

namespace Vmx.MemPart

open Lib Util

/-- The memory of a partition. -/
structure Memory where
  part : Partition
  bytes : Nat → UInt8

/-- A header or a link of the free list at the address is written between two states. -/
def wrote (m m' : Partition) (a : Nat) : Bool :=
  ((List.range headerSize).any fun i =>
    decide (i ≤ a) && decide (m'.header (a - i) ≠ m.header (a - i))) ||
  (m.freeList ++ m'.freeList).any fun h =>
    decide (h + headerSize ≤ a) && decide (a < h + freeBlockSize)

/-- The memory after a call of the allocator. -/
def Memory.after (s : Memory) (part : Partition) (links : Nat → UInt8) : Memory where
  part := part
  bytes a := if wrote s.part part a then links a else s.bytes a

/-- `memcpy`. -/
def Memory.copy (s : Memory) (dst src n : Nat) : Memory where
  part := s.part
  bytes a := if dst ≤ a ∧ a < dst + n then s.bytes (src + (a - dst)) else s.bytes a

/-- What `memPartRealloc` returns; `unset` is a variable without a value. -/
inductive Returned where
  | unset
  | null
  | block (pBlock : Nat)
  deriving DecidableEq

/-- The partition after `memPartFree`, which does nothing when the block is not valid. -/
def freed (m : Partition) (ptr : Nat) : Partition :=
  match memPartFree m ptr with
  | .error _ => m
  | .ok m => m

/-- The block has `nBytes` now. -/
def resize (m : Partition) (ptr nBytes : Nat) : Partition :=
  { m with live := m.live.map fun l => if l.ptr = ptr then { l with nBytes := nBytes } else l }

/-- The size that `memPartRealloc` looks for, in words. -/
def reallocWords (m : Partition) (nBytes : Nat) : Nat :=
  if requestWords nBytes < m.minBlockWords then m.minBlockWords else requestWords nBytes

/-- The part of `memPartRealloc` that gives back what is behind the block. -/
def giveBack (m : Partition) (pHeader nWords : Nat) : Partition :=
  match memAlignedBlockSplit m pHeader (sub32 (m.header pHeader).nWords nWords) m.minBlockWords
      ALLOC_ALIGN_SIZE with
  | (m, none) => m
  | (m, some pNextHeader) =>
    let m := freed m (headerToBlock pNextHeader)
    { m with currBlocksAlloced := u32 (m.currBlocksAlloced + 1) }

/-- The part of `memPartRealloc` that takes the next block in. -/
def takeNext (m : Partition) (pHeader : Nat) : Partition :=
  let pNextHeader := m.nextHeader pHeader
  let nWords := (m.header pNextHeader).nWords
  let m := { m with freeList := m.freeList.erase pNextHeader }
  let m := m.setHeader pHeader fun h => { h with nWords := u31 (h.nWords + nWords) }
  let m := { m with
    currWordsAlloced := u32 (m.currWordsAlloced + nWords)
    cumWordsAlloced := u32 (m.cumWordsAlloced + nWords) }
  m.setHeader (m.nextHeader pHeader) fun h => { h with pPrevHeader := pHeader }

/-- The block has to be larger, and the one behind it cannot be taken in. -/
def cannotExtend (m : Partition) (pHeader nWords : Nat) : Bool :=
  (m.header (m.nextHeader pHeader)).free == false ||
    decide (u32 ((m.header pHeader).nWords + (m.header (m.nextHeader pHeader)).nWords) < nWords)

/-- `memPartRealloc`; `links` and `links'` are what the calls write. -/
def memPartRealloc (s : Memory) (ptr nBytes : Nat) (links links' : Nat → UInt8) :
    Memory × Returned :=
  let m := s.part
  let pHeader := blockToHeader ptr
  if ptr = 0 then
    match memPartAlloc m nBytes with
    | (m, .error _) => (s.after m links, .null)
    | (m, .ok pNewBlock) => (s.after m links, .block pNewBlock)
  else if nBytes = 0 then (s.after (freed m ptr) links, .null)
  else
    let nWords := reallocWords m nBytes
    if m.blockCheck ∧ memPartBlockValidate m pHeader false = false then (s, .null)
    else if nWords > (m.header pHeader).nWords then
      if cannotExtend m pHeader nWords then
        match memPartAlloc m nBytes with
        | (m, .error _) => (s.after m links, .null)
        | (m, .ok pNewBlock) =>
          let s := (s.after m links).copy pNewBlock ptr
            (sub32 (u32 (2 * (m.header pHeader).nWords)) headerSize)
          (s.after (freed m ptr) links', .block pNewBlock)
      else (s.after (resize (giveBack (takeNext m pHeader) pHeader nWords) ptr nBytes) links, .unset)
    else (s.after (resize (giveBack m pHeader nWords) ptr nBytes) links, .unset)

end Vmx.MemPart
