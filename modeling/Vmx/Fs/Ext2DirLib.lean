import Vmx.Fs.Ext2ConvLib

/-!
# `ext2VopsLib`: lookup and readdir

Both walk over the entries of a directory from an offset on, one entry after the other, with the
length of each entry taken from the disk.  A lookup stops at a live entry with its name, a
readdir at any live entry.  The walk gets fuel, for it need not end.
-/

namespace Vmx.Ext2Dir

open Ext2Conv

def OK : Int := 0
def EINVAL : Int := 22
def ENOENT : Int := 2
def ENAMETOOLONG : Int := 63

def EXT2_DIRENT_MINIMUM : Nat := 8

/-- `maxNameLen` of every volume. -/
def maxNameLen : UInt32 := 255

/-- A directory: its inode number, its size, and how its blocks are read, with the bytes from the
start of the buffer on. -/
structure Dir where
  inode : UInt32
  i_size : Nat
  blkSize2 : Nat
  bread : Nat → Int × (Nat → UInt8)

def Dir.blkSize (d : Dir) : Nat := 2 ^ d.blkSize2

/-! ## Strings -/

/-- `strncpy` of all the bytes of `src`: from the first `EOS` on the copy has zeros. -/
def strncpy (src : List UInt8) : List UInt8 :=
  let s := src.takeWhile (· != 0)
  s ++ List.replicate (src.length - s.length) 0

/-- `strncmp` is 0, for two strings in as many bytes as are compared. -/
def strncmpEq (a b : List UInt8) : Bool := a.takeWhile (· != 0) == b.takeWhile (· != 0)

/-! ## One entry -/

/-- The header of the entry at a byte of a block. -/
def diskEntry (data : Nat → UInt8) (off : Nat) : EXT2FS_DIR_ENTRY_DISK where
  inode := #v[data off, data (off + 1), data (off + 2), data (off + 3)]
  rec_len := #v[data (off + 4), data (off + 5)]
  name_len := data (off + 6)
  file_type := data (off + 7)
  name := []

/-- The bytes behind the header. -/
def nameAt (data : Nat → UInt8) (off n : Nat) : List UInt8 :=
  (List.range n).map fun i => data (off + 8 + i)

/-- The checks of `ext2fsDirEntryRead`. -/
def dirEntryCheck (d : Dir) (off : Nat) (pDirEntry : EXT2FS_DIR_ENTRY) : Int :=
  if off + pDirEntry.rec_len.toNat > d.blkSize then EINVAL
  else if pDirEntry.inode ≠ 0 then
    if pDirEntry.name_len = 0 then EINVAL
    else if pDirEntry.name_len > pDirEntry.rec_len - 8 then EINVAL
    else if pDirEntry.name_len > maxNameLen then ENAMETOOLONG
    else OK
  else OK

/-- What `ext2fsDirEntryRead` gives: an error, the end of the directory, or an entry with its
name. -/
inductive DirRead where
  | error (e : Int)
  | eof
  | entry (dirEntry : EXT2FS_DIR_ENTRY) (name : List UInt8)

/-- `ext2fsDirEntryRead`. -/
def ext2fsDirEntryRead (d : Dir) (offset : Nat) : DirRead :=
  if offset ≥ d.i_size then .eof
  else
    let lbn := offset / d.blkSize % 4294967296
    let off := offset % d.blkSize
    if d.blkSize - off < EXT2_DIRENT_MINIMUM then .error EINVAL
    else
      let r := d.bread lbn
      if r.1 ≠ OK then .error r.1
      else
        let dirEntry := ext2fsDirEntryDiskToHost (diskEntry r.2 off)
        let error := dirEntryCheck d off dirEntry
        if error ≠ OK then .error error
        else
          .entry dirEntry
            (if dirEntry.inode ≠ 0 then strncpy (nameAt r.2 off dirEntry.name_len.toNat) else [])

/-! ## The walk -/

/-- How a walk ends: with an error, at the end of the directory, or at the entry at an offset. -/
inductive WalkEnd where
  | error (e : Int)
  | eof
  | found (offset : Nat) (dirEntry : EXT2FS_DIR_ENTRY) (name : List UInt8)

/-- The loop of lookup and readdir. -/
def walk (d : Dir) (stop : EXT2FS_DIR_ENTRY → List UInt8 → Bool) : Nat → Nat → Option WalkEnd
  | 0, _ => none
  | fuel + 1, offset =>
    match ext2fsDirEntryRead d offset with
    | .error e => some (.error e)
    | .eof => some .eof
    | .entry dirEntry name =>
      if stop dirEntry name then some (.found offset dirEntry name)
      else walk d stop fuel (offset + dirEntry.rec_len.toNat)

/-- The entry that a lookup looks for. -/
def nameMatches (cn_name : List UInt8) (dirEntry : EXT2FS_DIR_ENTRY) (name : List UInt8) : Bool :=
  dirEntry.inode != 0 && dirEntry.name_len.toNat == cn_name.length && strncmpEq name cn_name

/-- The entry that a readdir returns. -/
def live (dirEntry : EXT2FS_DIR_ENTRY) (_ : List UInt8) : Bool := dirEntry.inode != 0

/-- How a lookup ends: an error, the directory itself, or `vgetino` of an inode. -/
inductive LookupEnd where
  | error (e : Int)
  | dir
  | vgetino (inode : UInt32)
  deriving DecidableEq, Repr

/-- `ext2fsVopLookup`, where `VOP_ACCESS` answers `access`. -/
def ext2fsVopLookup (d : Dir) (access : Int) (cn_name : List UInt8) (fuel : Nat) :
    Option LookupEnd :=
  if access ≠ OK then some (.error access)
  else if cn_name = [46] then some .dir
  else
    (walk d (nameMatches cn_name) fuel 0).map fun r =>
      match r with
      | .error e => .error e
      | .eof => .error ENOENT
      | .found _ dirEntry _ => if dirEntry.inode = d.inode then .dir else .vgetino dirEntry.inode

/-- What `ext2fsVopReaddir` returns: the status, the two results and the entry. -/
structure Readdir where
  error : Int
  isEof : Bool
  index : Int
  dirEnt : Option (UInt32 × List UInt8)
  deriving DecidableEq, Repr

/-- `ext2fsVopReaddir`.  The index is an `int`; a negative one is compared with the size as an
unsigned number. -/
def ext2fsVopReaddir (d : Dir) (index : Int) (fuel : Nat) : Option Readdir :=
  if index < 0 then some ⟨OK, true, 0, none⟩
  else
    (walk d live fuel index.toNat).map fun r =>
      match r with
      | .error e => ⟨e, true, 0, none⟩
      | .eof => ⟨OK, true, 0, none⟩
      | .found offset dirEntry name =>
        ⟨OK, false, ((offset + dirEntry.rec_len.toNat : Nat) : Int).bmod 4294967296,
          some (dirEntry.inode, strncpy name)⟩

/-- Calls of `ext2fsVopReaddir`, each from the index that the one before has left, up to the end of
the directory: the entries that they return. -/
def readAll (d : Dir) (fuel : Nat) : Nat → Int → Option (List (UInt32 × List UInt8))
  | 0, _ => none
  | calls + 1, index =>
    match ext2fsVopReaddir d index fuel with
    | none => none
    | some r =>
      match r.dirEnt with
      | none => if r.error = OK ∧ r.isEof then some [] else none
      | some dirEnt => (readAll d fuel calls r.index).map (dirEnt :: ·)

/-! ## Directories as they should be -/

/-- A record of a directory; a deleted one has the inode 0. -/
structure Rec where
  inode : UInt32
  rec_len : Nat
  name : List UInt8
  deriving DecidableEq, Repr

/-- A record has room for its header, and a live one has a name that fits. -/
structure Rec.WellFormed (r : Rec) : Prop where
  rec_len : 8 ≤ r.rec_len
  name : r.inode ≠ 0 → r.name ≠ [] ∧ r.name.length ≤ 255 ∧ r.name.length + 8 ≤ r.rec_len ∧
    0 ∉ r.name

/-- The record stands at a byte of a block. -/
structure RecAt (data : Nat → UInt8) (off : Nat) (r : Rec) : Prop where
  inode : (ext2fsDirEntryDiskToHost (diskEntry data off)).inode = r.inode
  rec_len : (ext2fsDirEntryDiskToHost (diskEntry data off)).rec_len.toNat = r.rec_len
  name : r.inode ≠ 0 →
    (ext2fsDirEntryDiskToHost (diskEntry data off)).name_len.toNat = r.name.length ∧
      nameAt data off r.name.length = r.name

/-- The records follow one another from a byte of the block to its end. -/
inductive Records (blkSize : Nat) (data : Nat → UInt8) : Nat → List Rec → Prop
  | nil : Records blkSize data blkSize []
  | cons {off r rs} (hrec : RecAt data off r) (hwf : r.WellFormed)
      (hrest : Records blkSize data (off + r.rec_len) rs) : Records blkSize data off (r :: rs)

/-- The records that readdir is to return, as it returns them. -/
def liveRecs (rs : List Rec) : List (UInt32 × List UInt8) :=
  (rs.filter fun r => r.inode != 0).map fun r => (r.inode, r.name)

/-- The first live record with a name. -/
def findRec (cn_name : List UInt8) (rs : List Rec) : Option Rec :=
  rs.find? fun r => r.inode != 0 && r.name == cn_name

/-- The directory consists of these blocks of records.  Its name for itself names its own inode,
and its size is an `int`. -/
structure WellFormed (d : Dir) (blocks : List (List Rec)) : Prop where
  size : d.i_size = blocks.length * d.blkSize
  size_lt : d.i_size < 2147483648
  block : ∀ lbn rs, blocks[lbn]? = some rs →
    (d.bread lbn).1 = OK ∧ Records d.blkSize (d.bread lbn).2 0 rs
  dot : (findRec [46] blocks.flatten).map Rec.inode = some d.inode

end Vmx.Ext2Dir
