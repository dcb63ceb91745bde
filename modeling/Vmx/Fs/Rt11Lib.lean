import Mathlib.Data.List.Basic
import Mathlib.Logic.Function.Basic
import Mathlib.Algebra.Order.Ring.Int

/-!
# `rt11fsLib`: the directory of an RT-11 volume

The directory is an array of entries up to one with the status `DES_END`.  An entry has a
number of blocks; where they start is not stored, it is the start of the data area and the
blocks of the entries before.  A file name is the radix-50 name that `rt11fsNameR50` makes of
it.

The loops that run to `DES_END` take fuel, and `none` means that they are still running when
it is used up.
-/

namespace Vmx.Rt11

def RT11FS_MAX_BLOCKS_PER_FILE : Nat := 0xffff

/-- Tentative file. -/
def DES_TENTATIVE : Nat := 0x0100

/-- Empty space. -/
def DES_EMPTY : Nat := 0x0200

/-- Permanent file. -/
def DES_PERMANENT : Nat := 0x0400

/-- End of directory. -/
def DES_END : Nat := 0x0800

/-- `RT11FS_NAME`. -/
structure Name where
  nm_name1 : UInt16
  nm_name2 : UInt16
  nm_type : UInt16
  deriving DecidableEq

/-- `RT11FS_DIR_ENTRY`. -/
structure DirEntry where
  de_status : Nat
  de_name : Name
  de_nblocks : UInt16
  de_date : Nat
  deriving DecidableEq

/-- The number of blocks, as an `int`. -/
def DirEntry.blocks (e : DirEntry) : Nat := e.de_nblocks.toNat

/-- `RT11FS_DIR_SEG`. -/
structure DirSeg where
  ds_start : Int
  ds_entries : Nat → DirEntry

/-- `rt11fsPutDirEntry`. -/
def rt11fsPutDirEntry (pDirSeg : DirSeg) (entryNum : Nat) (pDirEntry : DirEntry) : DirSeg :=
  { pDirSeg with ds_entries := Function.update pDirSeg.ds_entries entryNum pDirEntry }

/-! ## Allocation -/

/-- The biggest empty entry so far. -/
structure MaxEntry where
  iMax : Nat
  dirEntryMax : DirEntry
  startBlockMax : Int
  deriving DecidableEq

/-- One turn of the loop of `rt11fsAllocNewDirEntry`. -/
def newMax (best : Option MaxEntry) (i : Nat) (dirEntry : DirEntry) (startBlock : Int) :
    Option MaxEntry :=
  if dirEntry.de_status = DES_EMPTY then
    match best with
    | none => some ⟨i, dirEntry, startBlock⟩
    | some b =>
      if b.dirEntryMax.blocks < dirEntry.blocks then some ⟨i, dirEntry, startBlock⟩ else best
  else best

/-- The loop of `rt11fsAllocNewDirEntry`, with the number of entries that are left; `none` when
there is a tentative file. -/
def allocLoop (ds_entries : Nat → DirEntry) : Nat → Nat → Int → Option MaxEntry →
    Option (Nat × Option MaxEntry)
  | 0, i, _, best => some (i, best)
  | left + 1, i, startBlock, best =>
    let dirEntry := ds_entries i
    if dirEntry.de_status = DES_END then some (i, best)
    else if dirEntry.de_status = DES_TENTATIVE then none
    else
      allocLoop ds_entries left (i + 1) (startBlock + dirEntry.blocks)
        (newMax best i dirEntry startBlock)

/-- `rt11fsAllocNewDirEntry`: the number of the entry, the new entry and the start block. -/
def rt11fsAllocNewDirEntry (pDirSeg : DirSeg) (maxEntries : Nat) (currDate : Nat) (name : Name) :
    Option (Nat × DirEntry × Int) :=
  match allocLoop pDirSeg.ds_entries maxEntries 0 pDirSeg.ds_start none with
  | none => none
  | some (i, best) =>
    if maxEntries ≤ i + 1 then none
    else
      best.map fun b =>
        (b.iMax,
          { b.dirEntryMax with de_status := DES_TENTATIVE, de_date := currDate, de_name := name },
          b.startBlockMax)

/-! ## Insertion -/

/-- The loop of `rt11fsInsertDirEntry`; `currEntry` is yet to be put behind `entryNum`. -/
def insertLoop : Nat → DirSeg → Nat → DirEntry → Option DirSeg
  | 0, pDirSeg, entryNum, currEntry =>
    if currEntry.de_status = DES_END then
      some (rt11fsPutDirEntry pDirSeg (entryNum + 1) currEntry)
    else none
  | fuel + 1, pDirSeg, entryNum, currEntry =>
    if currEntry.de_status = DES_END then
      some (rt11fsPutDirEntry pDirSeg (entryNum + 1) currEntry)
    else
      insertLoop fuel (rt11fsPutDirEntry pDirSeg (entryNum + 1) currEntry) (entryNum + 1)
        (pDirSeg.ds_entries (entryNum + 1))

/-- `rt11fsInsertDirEntry`. -/
def rt11fsInsertDirEntry (fuel : Nat) (pDirSeg : DirSeg) (entryNum : Nat) (pDirEntry : DirEntry) :
    Option DirSeg :=
  insertLoop fuel (rt11fsPutDirEntry pDirSeg entryNum pDirEntry) entryNum
    (pDirSeg.ds_entries entryNum)

/-! ## Merging -/

/-- The local variables of `rt11fsDirMergeEmpty`. -/
structure Merge where
  entryNum : Nat
  i : Nat
  currEntry : DirEntry
  nextEntry : DirEntry

/-- The first loop of `rt11fsDirMergeEmpty`. -/
def mergeLoop (pDirSeg : DirSeg) : Nat → Merge → Option Merge
  | 0, s => if s.nextEntry.de_status = DES_EMPTY then none else some s
  | fuel + 1, s =>
    if s.nextEntry.de_status = DES_EMPTY then
      if RT11FS_MAX_BLOCKS_PER_FILE < s.currEntry.blocks + s.nextEntry.blocks then
        if 0 < s.i then some s
        else
          mergeLoop pDirSeg fuel
            { entryNum := s.entryNum + 1, i := s.i, currEntry := s.nextEntry
              nextEntry := pDirSeg.ds_entries (s.entryNum + 1 + 1 + s.i) }
      else
        mergeLoop pDirSeg fuel
          { entryNum := s.entryNum, i := s.i + 1
            currEntry := { s.currEntry with
              de_nblocks := s.currEntry.de_nblocks + s.nextEntry.de_nblocks }
            nextEntry := pDirSeg.ds_entries (s.entryNum + 1 + (s.i + 1)) }
    else some s

/-- The second loop of `rt11fsDirMergeEmpty`: the entries behind the merged ones move down. -/
def compactLoop (i : Nat) : Nat → DirSeg → Nat → DirEntry → Option DirSeg
  | 0, pDirSeg, _, nextEntry => if nextEntry.de_status = DES_END then some pDirSeg else none
  | fuel + 1, pDirSeg, entryNum, nextEntry =>
    if nextEntry.de_status = DES_END then some pDirSeg
    else
      let nextEntry := pDirSeg.ds_entries (entryNum + 1 + i)
      compactLoop i fuel (rt11fsPutDirEntry pDirSeg (entryNum + 1) nextEntry) (entryNum + 1)
        nextEntry

/-- The part of `rt11fsDirMergeEmpty` behind its first loop. -/
def putMerged (fuel : Nat) (pDirSeg : DirSeg) (s : Merge) : Option DirSeg :=
  if 0 < s.i then
    compactLoop s.i fuel
      (rt11fsPutDirEntry (rt11fsPutDirEntry pDirSeg s.entryNum s.currEntry) (s.entryNum + 1)
        s.nextEntry) (s.entryNum + 1) s.nextEntry
  else some pDirSeg

/-- `rt11fsDirMergeEmpty`. -/
def rt11fsDirMergeEmpty (fuel : Nat) (pDirSeg : DirSeg) (entryNum : Nat) : Option DirSeg :=
  let entryNum :=
    if entryNum = 0 ∨ (pDirSeg.ds_entries (entryNum - 1)).de_status ≠ DES_EMPTY then entryNum
    else entryNum - 1
  let s : Merge :=
    { entryNum := entryNum, i := 0, currEntry := pDirSeg.ds_entries entryNum
      nextEntry := pDirSeg.ds_entries (entryNum + 1) }
  (mergeLoop pDirSeg fuel s).bind (putMerged fuel pDirSeg)

/-! ## Lookup -/

/-- The loop of `rt11fsFindDirEntry`. -/
def findDirLoop (ds_entries : Nat → DirEntry) (name : Name) :
    Nat → Nat → Int → Option (Option (Nat × DirEntry × Int))
  | 0, _, _ => none
  | fuel + 1, i, startBlock =>
    let dirEntry := ds_entries i
    if dirEntry.de_status = DES_END then some none
    else if (dirEntry.de_status = DES_PERMANENT ∨ dirEntry.de_status = DES_TENTATIVE) ∧
        dirEntry.de_name = name then
      some (some (i, dirEntry, startBlock))
    else findDirLoop ds_entries name fuel (i + 1) (startBlock + dirEntry.blocks)

/-- `rt11fsFindDirEntry`: the number of the entry, the entry and the start block. -/
def rt11fsFindDirEntry (fuel : Nat) (pDirSeg : DirSeg) (name : Name) :
    Option (Option (Nat × DirEntry × Int)) :=
  findDirLoop pDirSeg.ds_entries name fuel 0 pDirSeg.ds_start

end Vmx.Rt11
