import Vmx.Lib.Path
import Vmx.Lib.Transition
import Vmx.Util.QLib
import Mathlib.Logic.Function.Basic

/-!
# `ext2SyncerVopsLib`: the block map of a file

`ext2fsPhysFind` finds the physical block of a logical block of a file.  The
inode names the first 12 blocks, and the others are found through a single, a
double and a triple indirect block.  The path of the last lookup is kept in
`cachedTrieMap`, and the next lookup uses the part of it that its own indices
share.

The volume is mounted read only, so the inode and the indirect blocks do not
change.  A read of a block can fail at any time.
-/

namespace Vmx.Ext2

open Lib Util

def EXT2_N_DIRECT_BLKS : Nat := 12
def EXT2FS_SPARSE_BLK_NUM : Nat := 0
def OK : Int := 0
def EACCES : Int := 13

/-- `EXT2FS_VOLUME_DESC`: the block size is a power of two of 32 bits, with room for an
entry. -/
structure Volume where
  blkSize2 : Nat
  entry : 2 ≤ blkSize2
  word : blkSize2 < 32

namespace Volume

variable (v : Volume)

def blkSize : Nat := 2 ^ v.blkSize2

/-- The number of blocks that each entry of the inode refers to, in 64 bits. -/
def nRefBlks : Nat → Nat
  | 0 => EXT2_N_DIRECT_BLKS
  | 1 => v.blkSize >>> 2
  | 2 => (v.blkSize >>> 2) * (v.blkSize >>> 2) % 18446744073709551616
  | 3 => (v.blkSize >>> 2) * (v.blkSize >>> 2) % 18446744073709551616 * (v.blkSize >>> 2) %
      18446744073709551616
  | _ => 0

def shift : Nat := v.blkSize2 - 2

def mask : Nat := 1 <<< v.shift - 1

end Volume

/-- `EXT2FS_TRIE_MAP`, without the fields that no function uses. -/
structure TrieMap where
  index : Nat → Nat
  physBlk : Nat → Nat
  level : Int

/-- The map after `memset`. -/
def TrieMap.zero : TrieMap := { index := fun _ => 0, physBlk := fun _ => 0, level := 0 }

/-- The map that `ext2fsVopActivate` leaves. -/
def ext2fsVopActivate : TrieMap := { TrieMap.zero with level := -1 }

/-! ## The search in the cached map -/

/-- The loop that finds the level of a block and its number within the level. -/
def levelLoop (v : Volume) (level normalized : Nat) : Nat → Option (Nat × Nat)
  | 0 => none
  | n + 1 =>
    if normalized < v.nRefBlks level then some (level, normalized)
    else levelLoop v (level + 1) (u32 (normalized - v.nRefBlks level)) n

/-- The loop that stores the indices, with `n` of them left. -/
def indexLoop (v : Volume) (index : Nat → Nat) (i normalized : Nat) : Nat → Nat → Nat
  | 0 => index
  | n + 1 =>
    indexLoop v (Function.update index i (normalized &&& v.mask)) (i + 1)
      (normalized >>> v.shift) n

/-- The level of a block and its indices; those above the level are 0. -/
def trieIndex (v : Volume) (blkNum : Nat) : Option (Nat × (Nat → Nat)) :=
  match levelLoop v 0 blkNum 4 with
  | none => none
  | some (level, normalized) =>
    some (level, indexLoop v (Function.update TrieMap.zero.index 0 blkNum) 1 normalized level)

/-- The loop that takes physical blocks from the cached map. -/
def reuseLoop (cached : TrieMap) : Nat → TrieMap → Nat × TrieMap
  | 0, trieMap => (0, trieMap)
  | level + 1, trieMap =>
    if trieMap.index (level + 1) ≠ cached.index (level + 1) then (level + 1, trieMap)
    else reuseLoop cached level
      { trieMap with physBlk := Function.update trieMap.physBlk level (cached.physBlk level) }

/-- The entry of the inode from which a block of the level is found. -/
def rootBlk (iBlock : Nat → Nat) (level blkNum : Nat) : Nat :=
  if level = 0 then iBlock blkNum else iBlock (EXT2_N_DIRECT_BLKS + level - 1)

/-- `ext2fsPhysFindCacheSearch`.  The answer is the level from which the rest of the
path has to be read, `none` for `ERROR`. -/
def ext2fsPhysFindCacheSearch (v : Volume) (iBlock : Nat → Nat) (cached : TrieMap)
    (blkNum : Nat) : Option (Nat × TrieMap) :=
  if cached.index 0 = blkNum ∧ 0 ≤ cached.level then some (0, cached)
  else
    match trieIndex v blkNum with
    | none => none
    | some (level, index) =>
      let trieMap : TrieMap :=
        { index := index
          physBlk := Function.update TrieMap.zero.physBlk level (rootBlk iBlock level blkNum)
          level := level }
      some (reuseLoop cached level trieMap)

/-! ## The lookup -/

/-- A lookup: the logical block, and the answers of `bread` at that time. -/
structure Lookup where
  blkNum : Nat
  error : Nat → Int

/-- `bread` of an indirect block, as a list of entries. -/
def bread (disk : Nat → Nat → Nat) (l : Lookup) (blk : Nat) : Except Int (Nat → Nat) :=
  if l.error blk ≠ OK then .error (l.error blk) else .ok (disk blk)

/-- The loop of `ext2fsPhysFind`. -/
def readLoop (disk : Nat → Nat → Nat) (l : Lookup) : Nat → TrieMap → Except Int TrieMap
  | 0, trieMap => .ok trieMap
  | level + 1, trieMap =>
    if trieMap.physBlk (level + 1) = EXT2FS_SPARSE_BLK_NUM then .ok trieMap
    else
      match bread disk l (trieMap.physBlk (level + 1)) with
      | .error e => .error e
      | .ok pEntryList =>
        readLoop disk l level
          { trieMap with
            physBlk := Function.update trieMap.physBlk level
              (pEntryList (trieMap.index (level + 1))) }

/-- `ext2fsPhysFind`: the status and the new cached map.  The block number has 64
bits, and the search takes 32 of them. -/
def ext2fsPhysFind (v : Volume) (iBlock : Nat → Nat) (disk : Nat → Nat → Nat) (cached : TrieMap)
    (l : Lookup) : Int × TrieMap :=
  match ext2fsPhysFindCacheSearch v iBlock cached (u32 l.blkNum) with
  | none => (EACCES, cached)
  | some (level, trieMap) =>
    match readLoop disk l level trieMap with
    | .error e => (e, cached)
    | .ok trieMap => (OK, trieMap)

/-- `ext2fsVopStrategy` for a read, with the data that `ext2fsVopInternalReadStrategy`
leaves in the buffer. -/
def ext2fsVopStrategy (v : Volume) (iBlock : Nat → Nat) (disk : Nat → Nat → Nat)
    (cached : TrieMap) (l : Lookup) : Except Int (Nat → Nat) × TrieMap :=
  match ext2fsPhysFind v iBlock disk cached l with
  | (status, cached) =>
    if status ≠ OK then (.error status, cached)
    else if cached.physBlk 0 = EXT2FS_SPARSE_BLK_NUM then (.ok fun _ => 0, cached)
    else (bread disk l (cached.physBlk 0), cached)

/-- The machine of the lookups on one vnode. -/
def step (v : Volume) (iBlock : Nat → Nat) (disk : Nat → Nat → Nat) (cached : TrieMap)
    (l : Lookup) : Option TrieMap :=
  some (ext2fsPhysFind v iBlock disk cached l).2

/-! ## What a file is -/

/-- The entry of an indirect block; a hole has only holes below it. -/
def entryOf (disk : Nat → Nat → Nat) (blk i : Nat) : Nat :=
  if blk = EXT2FS_SPARSE_BLK_NUM then EXT2FS_SPARSE_BLK_NUM else disk blk i

/-- The physical block of a logical block of a file, 0 for a hole and `none` past the
triple indirect blocks; `n` is the number of entries of an indirect block. -/
def blockOf (n : Nat) (iBlock : Nat → Nat) (disk : Nat → Nat → Nat) (b : Nat) : Option Nat :=
  let entry := entryOf disk
  if b < 12 then some (iBlock b)
  else if b - 12 < n then some (entry (iBlock 12) (b - 12))
  else if b - 12 - n < n ^ 2 then
    let b := b - 12 - n
    some (entry (entry (iBlock 13) (b / n)) (b % n))
  else if b - 12 - n - n ^ 2 < n ^ 3 then
    let b := b - 12 - n - n ^ 2
    some (entry (entry (entry (iBlock 14) (b / n ^ 2)) (b / n % n)) (b % n))
  else none

end Vmx.Ext2
