import Vmx.Fs.Ext2Map
import Vmx.Fs.Rt11Vops

/-!
# File systems over `bio`, one operation at a time

The buffers of a mount, and the operations of the raw, RT-11 and ext2 file systems that read and
write through them, done one at a time under the lock of the mount.  A transfer ends as the device
`dev` says: by the completion of its bio with a status, or not at all.

An operation is a function of the state in `M`; it is `none` when it does not come back, because
it waits for a transfer that does not end, or for a buffer of its own, or goes round a loop for
ever.  A block of the disk has the size of a buffer.  Inputs of ext2 that decide where an operation
goes, but not what it does with buffers, are parameters: the vnode that `vgetino` recycles, and the
verdict of `VOP_ACCESS`.
-/

namespace Vmx.FsBuf

open Ext2 (Volume TrieMap ext2fsPhysFindCacheSearch EXT2FS_SPARSE_BLK_NUM)
open Rt11 (uiomove)
open Util (u32)

abbrev Block := Nat → UInt8

def OK : Int := 0
def EIO : Int := 5
def EACCES : Int := 13
def EINVAL : Int := 22
def EFBIG : Int := 27
def ENOENT : Int := 2
def ENAMETOOLONG : Int := 63
def EROFS : Int := 30

/-! ## Data -/

structure Buf where
  /-- `b_vp` and `b_lblkno`. -/
  key : Option (Nat × Nat) := none
  /-- `B_BUSY`, `B_INVAL` and `B_CACHE`. -/
  busy : Bool := false
  inval : Bool := false
  cache : Bool := false
  /-- `b_sem` is full. -/
  sem : Bool := false
  data : Block := fun _ => 0

/-- `EXT2FS_INODE`, as far as the operations use it. -/
structure Inode where
  inode : Nat := 0
  i_size : Nat := 0
  i_block : Nat → Nat := fun _ => 0
  cachedTrieMap : TrieMap := Ext2.ext2fsVopActivate

structure State where
  /-- `mnt_buflist` from its head. -/
  list : List Nat
  buf : Nat → Buf := fun _ => {}
  /-- The blocks of the device. -/
  disk : Nat → Block := fun _ _ => 0
  /-- The number of transfers so far. -/
  xfers : Nat := 0
  /-- Ghost: the operation could not read a block. -/
  bad : Bool := false
  /-- The inode behind each vnode of ext2. -/
  inodes : Nat → Inode := fun _ => {}
  /-- `rfd_nBlks` of the file behind each vnode of RT-11. -/
  rfd_nBlks : Nat → Nat := fun _ => 0
  /-- `bgCached` and `bg_inode_table` of the cached group descriptors. -/
  bgCached : Nat := 0
  bg_inode_table : Nat → Nat := fun _ => 0

/-- `EXT2FS_VOLUME_DESC` and the fields of its superblock. -/
structure Ext2Vol where
  vol : Volume
  s_inodes_per_group : Nat
  s_first_data_block : Nat
  s_rev_level : Nat
  nBlkGroups : Nat
  bgPerBlk : Nat
  inodesPerBlk2 : Nat
  maxNameLen : Nat

/-- The device: how the bio of the transfer with a number ends, and whether the data have been
moved when it reports no error. -/
structure Dev where
  bio : Nat → Option Int
  moves : Nat → Bool

/-! ## Operations as functions of the state -/

/-- An operation with a result. -/
def M (α : Type) := State → Option (α × State)

namespace M

variable {α γ : Type}

def run (m : M α) (s : State) : Option (α × State) := m s

instance : Monad M where
  pure a := fun s => some (a, s)
  bind m f := fun s => (m s).bind fun r => f r.1 r.2

@[simp] theorem pure_eq (a : α) (s : State) : (pure a : M α) s = some (a, s) := rfl

theorem bind_some {m : M α} {f : α → M γ} {s : State} {r : γ × State} :
    (m >>= f) s = some r ↔ ∃ a s1, m s = some (a, s1) ∧ f a s1 = some r := by
  show (m s).bind _ = _ ↔ _
  rw [Option.bind_eq_some_iff]
  constructor
  · rintro ⟨⟨a, s1⟩, h1, h2⟩
    exact ⟨a, s1, h1, h2⟩
  · rintro ⟨a, s1, h1, h2⟩
    exact ⟨(a, s1), h1, h2⟩

theorem ite_some {c : Prop} [Decidable c] {m m' : M α} {s : State} {r : α × State} :
    (if c then m else m') s = some r ↔ (c ∧ m s = some r) ∨ (¬ c ∧ m' s = some r) := by
  by_cases hc : c <;> simp [hc]

/-- The operation does not come back. -/
def hang : M α := fun _ => none

def get : M State := fun s => some (s, s)

def modify (f : State → State) : M Unit := fun s => some ((), f s)

theorem pure_some {a b : α} {s s' : State} :
    (pure a : M α) s = some (b, s') ↔ a = b ∧ s = s' := by
  rw [pure_eq, Option.some.injEq, Prod.mk.injEq]

theorem get_bind {f : State → M α} {s : State} {r : α × State} :
    (get >>= f) s = some r ↔ f s s = some r := Iff.rfl

end M

open M (hang get modify)

def State.setBuf (s : State) (b : Nat) (f : Buf → Buf) : State :=
  { s with buf := Function.update s.buf b (f (s.buf b)) }

def State.setInode (s : State) (vp : Nat) (f : Inode → Inode) : State :=
  { s with inodes := Function.update s.inodes vp (f (s.inodes vp)) }

/-- Put a buffer at the head of the list. -/
def State.toHead (s : State) (b : Nat) : State := { s with list := b :: s.list.erase b }

theorem mem_toHead {s : State} {b b' : Nat} (h : b' ∈ s.list) : b' ∈ (s.toHead b).list := by
  by_cases heq : b' = b
  · simp [State.toHead, heq]
  · simp [State.toHead, List.mem_erase_of_ne heq, h]

/-! ## `bio` -/

/-- `buf_incore`. -/
def bufIncore (s : State) (key : Nat × Nat) : Option Nat :=
  s.list.find? fun b => (s.buf b).key == some key && !(s.buf b).inval

/-- `buf_new`, the search. -/
def bufNew (s : State) : Option Nat := s.list.reverse.find? fun b => !(s.buf b).busy

/-- `buf_getblk`.  It waits for a busy buffer, of which the operation itself is the owner, unless
the semaphore is full; and goes round for ever when there is no buffer. -/
def bufGetblk (key : Nat × Nat) : M Nat := fun s =>
  match bufIncore s key with
  | some b =>
    if (s.buf b).busy && !(s.buf b).sem then none
    else
      some (b, s.setBuf b fun bp =>
        { bp with busy := true, cache := true, sem := bp.sem && !bp.busy })
  | none =>
    match bufNew s with
    | none => none
    | some b =>
      some (b, (s.setBuf b fun bp =>
        { bp with key := some key, busy := true, inval := false, cache := false }).toHead b)

/-- `brelse`. -/
def brelse (b : Nat) : M Unit := fun s =>
  if (s.buf b).busy then some ((), (s.toHead b).setBuf b fun bp => { bp with busy := false })
  else some ((), s)

/-- The end of `buf_wait`, with the error of the transfer. -/
def bufWait (b : Nat) (error : Int) : M Unit := fun s =>
  let s1 := s.setBuf b fun bp => { bp with sem := true }
  if error ≠ OK ∧ (s.buf b).inval = false then
    some ((), (s1.setBuf b fun bp => { bp with inval := true }).toHead b)
  else some ((), s1)

/-- `bread`, with the strategy routine of the vnode. -/
def bread (strategy : Nat → M Int) (key : Nat × Nat) : M (Nat × Int) := do
  let b ← bufGetblk key
  let s ← get
  if (s.buf b).cache then return (b, OK)
  modify fun s => s.setBuf b fun bp => { bp with inval := false }
  let error ← strategy b
  bufWait b error
  return (b, error)

/-- `bwrite` of a buffer that is busy, with the strategy routine of the vnode. -/
def bwrite (strategy : Nat → M Int) (b : Nat) : M Int := do
  let s ← get
  if (s.buf b).inval then
    brelse b
    return OK
  let error ← strategy b
  bufWait b error
  brelse b
  return error

/-- `buf_swapdata`. -/
def bufSwapdata (b1 b2 : Nat) : M Unit := modify fun s =>
  let data1 := (s.buf b1).data
  let data2 := (s.buf b2).data
  (s.setBuf b1 fun bp => { bp with data := data2 }).setBuf b2 fun bp => { bp with data := data1 }

/-- Set `B_INVAL`. -/
def bufInval (b : Nat) : M Unit := modify fun s => s.setBuf b fun bp => { bp with inval := true }

section Operations

variable (dev : Dev) (syncer : Nat)

/-- A read of a block into a buffer, through `xbdStrategy`; an error becomes `EIO`. -/
def readTransfer (blkno : Nat) (b : Nat) : M Int := fun s =>
  (dev.bio s.xfers).map fun status =>
    let s1 := { s with xfers := s.xfers + 1 }
    if status ≠ OK then ( EIO, { s1 with bad := true })
    else
      (OK, s1.setBuf b fun bp =>
        { bp with data := if dev.moves s.xfers then s.disk blkno else bp.data })

/-- A write of a buffer to a block. -/
def writeTransfer (blkno : Nat) (b : Nat) : M Int := fun s =>
  (dev.bio s.xfers).map fun status =>
    let s1 := { s with xfers := s.xfers + 1 }
    if status ≠ OK then ( EIO, s1)
    else
      (OK, { s1 with
        disk := if dev.moves s.xfers then Function.update s.disk blkno (s.buf b).data else s.disk })

/-- `bread` of a vnode whose blocks are those of the device: a syncer or a raw device. -/
def breadDev (vp blkno : Nat) : M (Nat × Int) := bread (readTransfer dev blkno) (vp, blkno)

/-- `buf_startwrite` and `buf_wait` for a block of the device; the buffer is released. -/
def bufStartwrite (blkno b : Nat) : M Int := do
  let error ← writeTransfer dev blkno b
  brelse b
  bufWait b error
  return error

/-! ## Reading and writing -/

/-- The loop of `rawVopRead`, `rt11VopRead` and `ext2fsVopRead`.  `trunc` is the type of
`bytesToRead`.  The result has the bytes that were moved. -/
def readLoop (breadFile : Nat → M (Nat × Int)) (blkSize : Nat) (trunc : Int → Int) :
    Nat → Nat → Int → Int → Int → Int → List UInt8 → M (Int × List UInt8)
  | 0, _, _, _, _, _, _ => hang
  | fuel + 1, lbn, off, bytesToRead, bytesToEOF, uio_resid, moved =>
    if uio_resid ≤ 0 then return (OK, moved)
    else do
      let (b, error) ← breadFile lbn
      if error ≠ OK then return (error, moved)
      let bytesToRead := if uio_resid < bytesToRead then uio_resid else bytesToRead
      let bytesToRead := trunc (if bytesToEOF < bytesToRead then bytesToEOF else bytesToRead)
      let n := uiomove bytesToRead uio_resid
      let s ← get
      let bytes := (List.range n.toNat).map fun i => (s.buf b).data (off.toNat + i)
      brelse b
      if bytesToRead = 0 then return (OK, moved ++ bytes)
      else
        readLoop breadFile blkSize trunc fuel (lbn + 1) 0 blkSize (bytesToEOF - bytesToRead)
          (uio_resid - n) (moved ++ bytes)

/-- Bytes that the caller writes, moved into a buffer. -/
def moveIn (b : Nat) (off : Int) (bytes : List UInt8) : M Unit := modify fun s =>
  s.setBuf b fun bp => { bp with data := fun i =>
    if off.toNat ≤ i then (bytes[i - off.toNat]?).getD (bp.data i) else bp.data i }

/-- A block that is written in part is read first. -/
def blockToWrite (breadFile : Nat → M (Nat × Int)) (getFile : Nat → M Nat) (inPart : Bool)
    (lbn : Nat) : M (Nat × Int) :=
  if inPart then breadFile lbn
  else do
    let b ← getFile lbn
    return (b, OK)

/-- The loop of `rawVopWrite` and `rt11VopWrite`.  `grow` is what the file does after a block. -/
def writeLoop (breadFile : Nat → M (Nat × Int)) (getFile : Nat → M Nat)
    (writeFile : Nat → Nat → M Int) (grow : Nat → M Unit) (blkSize : Nat) :
    Nat → Nat → Int → Int → List UInt8 → M (Int × List UInt8)
  | 0, _, _, _, _ => hang
  | fuel + 1, lbn, off, bytesToEOF, bytes =>
    if bytes = [] then return (OK, bytes)
    else do
      let bytesToWrite : Int := if (bytes.length : Int) < blkSize - off then bytes.length
        else blkSize - off
      let bytesToWrite := if bytesToEOF < bytesToWrite then bytesToEOF else bytesToWrite
      if bytesToWrite = 0 then return (EFBIG, bytes)
      let (b, error) ← blockToWrite breadFile getFile (bytesToWrite ≠ blkSize) lbn
      if error ≠ OK then return (error, bytes)
      let n := (uiomove bytesToWrite bytes.length).toNat
      moveIn b off (bytes.take n)
      let error ← writeFile lbn b
      if error ≠ OK then return (error, bytes.drop n)
      grow (lbn + 1)
      writeLoop breadFile getFile writeFile grow blkSize fuel (lbn + 1) 0
        (bytesToEOF - bytesToWrite) (bytes.drop n)

/-! ## `rawfs` -/

structure RawVol where
  blkSize2 : Nat
  diskSize : Nat

/-- `rawVopRead` with enough fuel for its loop. -/
def rawVopRead (v : RawVol) (vp uio_offset uio_resid : Nat) : M (Int × List UInt8) :=
  if uio_resid = 0 then pure (OK, [])
  else
    let off := uio_offset % 2 ^ v.blkSize2
    readLoop (breadDev dev vp) (2 ^ v.blkSize2) id (uio_resid + 3) (uio_offset / 2 ^ v.blkSize2) off
      ((2 ^ v.blkSize2 : Nat) - off) ((v.diskSize : Int) - uio_offset) uio_resid []

/-- `rawVopWrite`, with the bytes that are left. -/
def rawVopWrite (v : RawVol) (vp uio_offset : Nat) (bytes : List UInt8) : M (Int × List UInt8) :=
  writeLoop (breadDev dev vp) (fun lbn => bufGetblk (vp, lbn))
    (fun lbn b => bwrite (writeTransfer dev lbn) b) (fun _ => pure ()) (2 ^ v.blkSize2)
    (bytes.length + 3) (uio_offset / 2 ^ v.blkSize2) ((uio_offset % 2 ^ v.blkSize2 : Nat) : Int)
    ((v.diskSize : Int) - uio_offset) bytes

/-! ## RT-11 -/

/-- `RT11FS_VOLUME_DESC` and the file descriptor of the vnode. -/
structure Rt11File where
  vd_blkSize2 : Nat
  vd_secPerBlk2 : Nat
  rfd_startBlock : Nat
  de_nblocks : Nat

def Rt11File.physBlk (f : Rt11File) (lbn : Nat) : Nat :=
  lbn <<< f.vd_secPerBlk2 + f.rfd_startBlock

/-- `rt11VopInternalReadStrategy`. -/
def rt11VopInternalReadStrategy (f : Rt11File) (lbn b : Nat) : M Int := do
  let (tmp, error) ← breadDev dev syncer (f.physBlk lbn)
  if error ≠ OK then return error
  bufSwapdata tmp b
  bufInval tmp
  brelse tmp
  return OK

/-- `rt11VopInternalWriteStrategy`. -/
def rt11VopInternalWriteStrategy (f : Rt11File) (lbn b : Nat) : M Int := do
  let tmp ← bufGetblk (syncer, f.physBlk lbn)
  bufSwapdata b tmp
  let error ← bufStartwrite dev (f.physBlk lbn) tmp
  bufSwapdata b tmp
  bufInval tmp
  brelse tmp
  return error

def rt11Bread (f : Rt11File) (vp lbn : Nat) : M (Nat × Int) :=
  bread (rt11VopInternalReadStrategy dev syncer f lbn) (vp, lbn)

/-- `rt11VopRead`. -/
def rt11VopRead (f : Rt11File) (vp uio_offset uio_resid : Nat) : M (Int × List UInt8) :=
  if uio_resid = 0 then pure (OK, [])
  else do
    let s ← get
    let off := uio_offset % 2 ^ f.vd_blkSize2
    readLoop (rt11Bread dev syncer f vp) (2 ^ f.vd_blkSize2) id (uio_resid + 3)
      (uio_offset / 2 ^ f.vd_blkSize2) off ((2 ^ f.vd_blkSize2 : Nat) - off)
      (((s.rfd_nBlks vp * 2 ^ f.vd_blkSize2 : Nat) : Int) - uio_offset) uio_resid []

/-- A file grows by a block when a block behind its last has been written. -/
def rt11Grow (vp lbn : Nat) : M Unit := modify fun s =>
  if s.rfd_nBlks vp < lbn then
    { s with rfd_nBlks := Function.update s.rfd_nBlks vp (s.rfd_nBlks vp + 1) }
  else s

/-- `rt11VopWrite`. -/
def rt11VopWrite (f : Rt11File) (vp uio_offset : Nat) (bytes : List UInt8) :
    M (Int × List UInt8) :=
  writeLoop (rt11Bread dev syncer f vp) (fun lbn => bufGetblk (vp, lbn))
    (fun lbn b => bwrite (rt11VopInternalWriteStrategy dev syncer f lbn) b) (rt11Grow vp)
    (2 ^ f.vd_blkSize2) (bytes.length + 3) (uio_offset / 2 ^ f.vd_blkSize2)
    ((uio_offset % 2 ^ f.vd_blkSize2 : Nat) : Int)
    (((f.de_nblocks * 2 ^ f.vd_blkSize2 : Nat) : Int) - uio_offset) bytes

/-! ## ext2 -/

/-- Four and two bytes of a block, little endian. -/
def disk32 (data : Block) (i : Nat) : Nat :=
  (data i).toNat + (data (i + 1)).toNat * 2 ^ 8 + (data (i + 2)).toNat * 2 ^ 16 +
    (data (i + 3)).toNat * 2 ^ 24

def disk16 (data : Block) (i : Nat) : Nat := (data i).toNat + (data (i + 1)).toNat * 2 ^ 8

/-- The loop of `ext2fsPhysFind`: the status and the map. -/
def physLoop : Nat → TrieMap → M (Int × TrieMap)
  | 0, trieMap => return (OK, trieMap)
  | level + 1, trieMap =>
    if trieMap.physBlk (level + 1) = EXT2FS_SPARSE_BLK_NUM then return (OK, trieMap)
    else do
      let (b, error) ← breadDev dev syncer (trieMap.physBlk (level + 1))
      if error ≠ OK then return (error, trieMap)
      let s ← get
      let entry := disk32 (s.buf b).data (4 * trieMap.index (level + 1))
      brelse b
      physLoop level { trieMap with physBlk := Function.update trieMap.physBlk level entry }

/-- `ext2fsPhysFind`. -/
def ext2fsPhysFind (v : Ext2Vol) (vp blkNum : Nat) : M Int := do
  let s ← get
  let inode := s.inodes vp
  match ext2fsPhysFindCacheSearch v.vol inode.i_block inode.cachedTrieMap (u32 blkNum) with
  | none => return EACCES
  | some (level, trieMap) =>
    let (error, trieMap) ← physLoop dev syncer level trieMap
    if error ≠ OK then return error
    modify fun s => s.setInode vp fun inode => { inode with cachedTrieMap := trieMap }
    return OK

/-- `ext2fsVopInternalReadStrategy`. -/
def ext2fsVopInternalReadStrategy (vp b : Nat) : M Int := do
  let s ← get
  let physBlk := (s.inodes vp).cachedTrieMap.physBlk 0
  if physBlk = EXT2FS_SPARSE_BLK_NUM then
    modify fun s => s.setBuf b fun bp => { bp with data := fun _ => 0 }
    return OK
  let (tmp, error) ← breadDev dev syncer physBlk
  if error ≠ OK then return error
  bufSwapdata tmp b
  bufInval tmp
  brelse tmp
  return OK

/-- `ext2fsVopStrategy` for a read. -/
def ext2fsVopStrategy (v : Ext2Vol) (vp lbn b : Nat) : M Int := do
  let error ← ext2fsPhysFind dev syncer v vp lbn
  if error ≠ OK then
    modify fun s => { s with bad := true }
    return error
  ext2fsVopInternalReadStrategy dev syncer vp b

def ext2Bread (v : Ext2Vol) (vp lbn : Nat) : M (Nat × Int) :=
  bread (ext2fsVopStrategy dev syncer v vp lbn) (vp, lbn)

/-- `ext2fsVopRead`; `lbn` and `bytesToRead` have 32 bits. -/
def ext2fsVopRead (v : Ext2Vol) (vp uio_offset uio_resid : Nat) : M (Int × List UInt8) :=
  if uio_resid = 0 then pure (OK, [])
  else do
    let s ← get
    let off := uio_offset % v.vol.blkSize
    readLoop (fun lbn => ext2Bread dev syncer v vp (u32 lbn)) v.vol.blkSize (· % 2 ^ 32)
      (uio_resid + 3) (uio_offset / v.vol.blkSize) off (v.vol.blkSize - off)
      ((s.inodes vp).i_size - uio_offset) uio_resid []

/-- `ext2fsGroupDescriptorRead` into the entry `i` of the cached descriptors. -/
def ext2fsGroupDescriptorRead (v : Ext2Vol) (i gdNum : Nat) : M Int := do
  let (b, error) ← breadDev dev syncer (1 + gdNum / v.bgPerBlk + v.s_first_data_block)
  if error ≠ OK then return error
  modify fun s => { s with
    bg_inode_table := Function.update s.bg_inode_table i (disk32 (s.buf b).data (gdNum * 32 + 8)) }
  brelse b
  return OK

/-- The loop of `ext2fsGroupDescriptorsRead`, with `n` descriptors left. -/
def groupLoop (v : Ext2Vol) (bgNum : Nat) : Nat → Nat → M Int
  | _, 0 => return OK
  | i, n + 1 => do
    let error ← ext2fsGroupDescriptorRead dev syncer v i (bgNum + i)
    if error ≠ OK then return error
    groupLoop v bgNum (i + 1) n

/-- `ext2fsGroupDescriptorsRead`. -/
def ext2fsGroupDescriptorsRead (v : Ext2Vol) (bgNum : Nat) : M Int := do
  let nGroupDesc := if v.nBlkGroups < bgNum + v.bgPerBlk then v.nBlkGroups &&& (v.bgPerBlk - 1)
    else v.bgPerBlk
  modify fun s => { s with bgCached := bgNum }
  groupLoop dev syncer v bgNum 0 nGroupDesc

/-- The end of `ext2fsInodeGet`, once the group descriptor is there. -/
def inodeRead (v : Ext2Vol) (vp blkGroup : Nat) : M Int := do
  let s ← get
  let inode := (s.inodes vp).inode
  let blkNum := s.bg_inode_table blkGroup
  let inodeBlk := (inode - 1) >>> v.inodesPerBlk2
  let (b, error) ← breadDev dev syncer (u32 (blkNum + inodeBlk))
  if error ≠ OK then return error
  let off := ((inode - 1) % 2 ^ v.inodesPerBlk2) <<< (v.vol.blkSize2 - v.inodesPerBlk2)
  modify fun s =>
    let data := (s.buf b).data
    let i_size := disk32 data (off + 4) +
      (if v.s_rev_level = 1 then disk32 data (off + 108) * 2 ^ 32 else 0)
    s.setInode vp fun inode =>
      { inode with i_size := i_size, i_block := fun i => disk32 data (off + 40 + 4 * i) }
  brelse b
  return OK

/-- `ext2fsInodeGet`. -/
def ext2fsInodeGet (v : Ext2Vol) (vp : Nat) : M Int := do
  let s ← get
  let blkGroup := ((s.inodes vp).inode - 1) / v.s_inodes_per_group
  if v.nBlkGroups ≤ blkGroup then return EINVAL
  if blkGroup < s.bgCached ∨ s.bgCached + v.bgPerBlk ≤ blkGroup then
    let mask := v.bgPerBlk - 1
    let error ← ext2fsGroupDescriptorsRead dev syncer v (blkGroup - (blkGroup &&& mask))
    if error ≠ OK then return error
    inodeRead dev syncer v vp (blkGroup &&& mask)
  else inodeRead dev syncer v vp blkGroup

/-- `EXT2FS_DIR_ENTRY`, with the name. -/
structure DirEntry where
  inode : Nat
  rec_len : Nat
  name_len : Nat
  name : List UInt8

/-- The checks of `ext2fsDirEntryRead`. -/
def dirEntryCheck (v : Ext2Vol) (off : Nat) (entry : DirEntry) : Int :=
  if v.vol.blkSize < off + entry.rec_len then EINVAL
  else if entry.inode = 0 then OK
  else if entry.name_len = 0 then EINVAL
  else if u32 (entry.rec_len + (2 ^ 32 - 8)) < entry.name_len then EINVAL
  else if v.maxNameLen < entry.name_len then ENAMETOOLONG
  else OK

/-- `ext2fsDirEntryRead`: the status and the entry, `none` at the end of the directory. -/
def ext2fsDirEntryRead (v : Ext2Vol) (vp offset : Nat) : M (Int × Option DirEntry) := do
  let s ← get
  if (s.inodes vp).i_size ≤ offset then return (OK, none)
  let off := offset % v.vol.blkSize
  if v.vol.blkSize - off < 8 then return (EINVAL, none)
  let (b, error) ← ext2Bread dev syncer v vp (u32 (offset / v.vol.blkSize))
  if error ≠ OK then return (error, none)
  let s ← get
  let data := (s.buf b).data
  let name_len := (data (off + 6)).toNat + (data (off + 7)).toNat / 16 * 2 ^ 8
  let entry : DirEntry :=
    { inode := disk32 data off
      rec_len := disk16 data (off + 4)
      name_len := name_len
      name := (List.range name_len).map fun i => data (off + 8 + i) }
  brelse b
  return (dirEntryCheck v off entry, some entry)

/-- `ext2fsVopReaddir` from its loop on: the status and the entry that it hands out.  With entries
of length 0 the loop does not end. -/
def ext2fsVopReaddir (v : Ext2Vol) (vp : Nat) : Nat → Nat → M (Int × Option DirEntry)
  | 0, _ => hang
  | fuel + 1, offset => do
    let (error, entry) ← ext2fsDirEntryRead dev syncer v vp offset
    if error ≠ OK then return (error, none)
    match entry with
    | none => return (OK, none)
    | some entry =>
      if entry.inode ≠ 0 then return (OK, some entry)
      ext2fsVopReaddir v vp fuel (offset + entry.rec_len)

/-- What `vgetino` does for an inode: it finds its vnode, has none to recycle, or recycles one. -/
inductive Vget
  | found
  | error (e : Int)
  | recycle (vp : Nat)

/-- `vgetino`, whose `VOP_ACTIVATE` reads the inode of a recycled vnode. -/
def vgetino (v : Ext2Vol) (vget : Nat → Vget) (inode : Nat) : M Int :=
  match vget inode with
  | .found => pure OK
  | .error e => pure e
  | .recycle vp => do
    modify fun s => s.setInode vp fun old => { old with inode := inode }
    let error ← ext2fsInodeGet dev syncer v vp
    if error ≠ OK then return error
    modify fun s => s.setInode vp fun old =>
      { old with cachedTrieMap := Ext2.ext2fsVopActivate }
    return OK

/-- The loop of `ext2fsVopLookup`. -/
def lookupLoop (v : Ext2Vol) (vget : Nat → Vget) (vp : Nat) (name : List UInt8) :
    Nat → Nat → M Int
  | 0, _ => hang
  | fuel + 1, offset => do
    let (error, entry) ← ext2fsDirEntryRead dev syncer v vp offset
    if error ≠ OK then return error
    match entry with
    | none => return ENOENT
    | some entry =>
      let s ← get
      if entry.inode ≠ 0 ∧ entry.name = name then
        if entry.inode = (s.inodes vp).inode then return OK
        else vgetino dev syncer v vget entry.inode
      else lookupLoop v vget vp name fuel (offset + entry.rec_len)

/-- `ext2fsVopLookup`. -/
def ext2fsVopLookup (v : Ext2Vol) (vget : Nat → Vget) (access : Int) (vp : Nat)
    (name : List UInt8) (fuel : Nat) : M Int :=
  if access ≠ OK then pure access
  else if name = [46] then pure OK
  else lookupLoop dev syncer v vget vp name fuel 0

end Operations

end Vmx.FsBuf
