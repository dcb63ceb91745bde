import Vmx.Fs.Rt11Lib
import Vmx.Fs.VnodeLib

/-!
# `rt11VopsLib`: the vnode operators of RT-11

A volume is its mount, its directory and the file descriptor behind each vnode.  A file is
created as a tentative entry as big as the biggest empty one; its first close makes it
permanent and returns the blocks that it does not use.  The number of a file's inode is that
of its directory entry.

`handles` is a ghost: the references to vnodes that lookups and creations have handed out and
that have not been given back, each with the name and the start block of its file.
-/

namespace Vmx.Rt11

open Vfs

def ENOENT : Int := 2
def EIO : Int := 5
def EFBIG : Int := 27

def RT11FS_FILE_INODE_BASE : Nat := RT11FS_ROOT_INODE + 1

/-- `RT11FS_FILE_DESC`. -/
structure FileDesc where
  rfd_startBlock : Int
  rfd_nBlks : Nat
  rfd_dirEntry : DirEntry

/-- A reference to a vnode, of a file or of the root directory. -/
structure Handle where
  vnode : Nat
  file : Option (Name × Int)
  deriving DecidableEq

/-- `RT11FS_VOLUME_DESC`, with the descriptor of each vnode. -/
structure Vol where
  mount : Mount
  vd_blkSize2 : Nat
  vd_maxEntries : Nat
  vd_pDirSeg : DirSeg
  desc : Nat → FileDesc
  handles : List Handle

/-- What the operators of RT-11 meet. -/
def rt11Env (malloc : Bool) : VopEnv := { fail := none, malloc := malloc, inodeGet := OK, i_mode := 0 }

/-- `rt11VfsVget`, and the vnode that is found. -/
def rt11VfsVget (malloc : Bool) (s : Vol) (inode : Nat) : Option (Vol × Int × Option Nat) :=
  (vgetino (s.mount.mnt_maxfiles + 1) (rt11Env malloc) s.mount inode .rt11Vops).map fun r =>
    ({ s with mount := r.1 }, r.2)

/-- `rt11VopLookup`, with its status and the vnode. -/
def rt11VopLookup (malloc : Bool) (s : Vol) (name : Name) : Option (Vol × Int × Option Nat) :=
  match rt11fsFindDirEntry (s.vd_maxEntries + 1) s.vd_pDirSeg name with
  | none => none
  | some none => some (s, ENOENT, none)
  | some (some (entryNum, dirEntry, startBlock)) =>
    -- a file cannot be opened until it is permanent
    if dirEntry.de_status = DES_TENTATIVE then some (s, EINVAL, none)
    else
      (rt11VfsVget malloc s (entryNum + RT11FS_FILE_INODE_BASE)).bind fun r =>
        if r.2.1 ≠ OK then some (r.1, ENOENT, none)
        else r.2.2.map fun pFileVnode =>
          let desc : FileDesc :=
            { rfd_startBlock := startBlock, rfd_nBlks := dirEntry.blocks, rfd_dirEntry := dirEntry }
          ({ r.1 with desc := Function.update s.desc pFileVnode desc }, OK, some pFileVnode)

/-- `rt11VopCreate`, with its status and the vnode. -/
def rt11VopCreate (malloc : Bool) (s : Vol) (name : Name) (currDate : Nat) :
    Option (Vol × Int × Option Nat) :=
  match rt11fsAllocNewDirEntry s.vd_pDirSeg s.vd_maxEntries currDate name with
  | none => some (s, ENOENT, none)
  | some (entryNum, dirEntry, startBlock) =>
    (rt11VfsVget malloc s (entryNum + RT11FS_FILE_INODE_BASE)).bind fun r =>
      if r.2.1 ≠ OK then some (r.1, ENOENT, none)
      else r.2.2.map fun pFileVnode =>
        let desc : FileDesc :=
          { rfd_startBlock := startBlock, rfd_nBlks := 0, rfd_dirEntry := dirEntry }
        ({ r.1 with
            desc := Function.update s.desc pFileVnode desc
            vd_pDirSeg := rt11fsPutDirEntry s.vd_pDirSeg entryNum dirEntry },
          OK, some pFileVnode)

/-- `uiomove`: how many bytes are moved; its `nBytes` is an `int`. -/
def uiomove (nBytes uio_resid : Int) : Int :=
  let nBytes := nBytes.bmod (2 ^ 32)
  let nBytes := if uio_resid < nBytes then uio_resid else nBytes
  if 0 < nBytes then nBytes else 0

/-- The loop of `rt11VopWrite`, with its status and the blocks of the file.  `io` says for each
block whether it can be read and written. -/
def writeLoop (blkSize : Int) (io : Nat → Bool × Bool) :
    Nat → Nat → Int → Int → Int → Nat → Option (Int × Nat)
  | 0, _, _, _, _, _ => none
  | fuel + 1, lbn, off, bytesToEOF, uio_resid, rfd_nBlks =>
    if uio_resid ≤ 0 then some (OK, rfd_nBlks)
    else
      let bytesToWrite := blkSize - off
      let bytesToWrite := if uio_resid < bytesToWrite then uio_resid else bytesToWrite
      let bytesToWrite := if bytesToEOF < bytesToWrite then bytesToEOF else bytesToWrite
      if bytesToWrite = 0 then some (EFBIG, rfd_nBlks)
      else if bytesToWrite ≠ blkSize ∧ (io lbn).1 = false then some ( EIO, rfd_nBlks)
      else if (io lbn).2 = false then some ( EIO, rfd_nBlks)
      else
        -- the file grows by one block at most
        writeLoop blkSize io fuel (lbn + 1) 0 (bytesToEOF - bytesToWrite)
          (uio_resid - uiomove bytesToWrite uio_resid)
          (if rfd_nBlks < lbn + 1 then rfd_nBlks + 1 else rfd_nBlks)

/-- `rt11VopWrite`, with its status. -/
def rt11VopWrite (s : Vol) (vp uio_offset uio_resid : Nat) (io : Nat → Bool × Bool) :
    Option (Vol × Int) :=
  if uio_resid = 0 then some (s, OK)
  else
    let pFileDesc := s.desc vp
    let blkSize := 2 ^ s.vd_blkSize2
    let bytesToEOF : Int := (pFileDesc.rfd_dirEntry.blocks * blkSize : Nat) - uio_offset
    (writeLoop blkSize io (uio_resid + 3) (uio_offset / blkSize) (uio_offset % blkSize : Nat)
      bytesToEOF uio_resid pFileDesc.rfd_nBlks).map fun r =>
        ({ s with desc := Function.update s.desc vp { pFileDesc with rfd_nBlks := r.2 } }, r.1)

/-- `rt11VopClose`. -/
def rt11VopClose (s : Vol) (vp : Nat) : Option Vol :=
  let fuel := s.vd_maxEntries + 1
  let entryNum := (s.mount.vnode vp).v_inode - RT11FS_FILE_INODE_BASE
  -- a file has at least one block
  let pFileDesc : FileDesc :=
    { s.desc vp with rfd_nBlks := if (s.desc vp).rfd_nBlks < 1 then 1 else (s.desc vp).rfd_nBlks }
  let dirEntry := pFileDesc.rfd_dirEntry
  if dirEntry.de_status = DES_TENTATIVE then
    let blksLeft : Int := dirEntry.blocks - pFileDesc.rfd_nBlks
    let dirEntry : DirEntry :=
      { dirEntry with de_status := DES_PERMANENT, de_nblocks := UInt16.ofNat pFileDesc.rfd_nBlks }
    let seg := rt11fsPutDirEntry s.vd_pDirSeg entryNum dirEntry
    if blksLeft ≠ 0 then
      -- the blocks that are left go back
      let dirEntry : DirEntry :=
        { dirEntry with de_status := DES_EMPTY, de_nblocks := UInt16.ofInt blksLeft }
      (rt11fsInsertDirEntry fuel seg (entryNum + 1) dirEntry).bind fun seg =>
        (rt11fsDirMergeEmpty fuel seg (entryNum + 1)).map fun seg =>
          { s with
            vd_pDirSeg := seg
            desc := Function.update s.desc vp { pFileDesc with rfd_dirEntry := dirEntry } }
    else
      some { s with
        vd_pDirSeg := seg
        desc := Function.update s.desc vp { pFileDesc with rfd_dirEntry := dirEntry } }
  else some { s with desc := Function.update s.desc vp pFileDesc }

/-! ## The machine -/

inductive Op where
  /-- `rt11VfsRoot`. -/
  | root (malloc : Bool)
  | lookup (malloc : Bool) (name : Name)
  | create (malloc : Bool) (name : Name) (currDate : Nat)
  | write (h : Handle) (uio_offset uio_resid : Nat) (io : Nat → Bool × Bool)
  /-- `VOP_CLOSE` and `vnodeUnlock`, as `vncioClose` calls them. -/
  | close (h : Handle)
  /-- `vnodeUnlock` alone. -/
  | unlock (h : Handle)
  /-- `rt11VopRemove`, which returns `ENOSYS`. -/
  | remove

/-- A vnode that was found is handed out. -/
def handOut (r : Vol × Int × Option Nat) (name : Option Name) : Vol :=
  match r.2.2 with
  | none => r.1
  | some v =>
    let file := name.map fun name => (name, (r.1.desc v).rfd_startBlock)
    { r.1 with handles := { vnode := v, file := file } :: r.1.handles }

/-- A vnode is given back. -/
def giveBack (s : Vol) (h : Handle) : Option Vol :=
  (vnodeUnlock (rt11Env true) s.mount h.vnode).map fun r =>
    { s with mount := r.1, handles := s.handles.erase h }

/-- One call.  Files are written and closed through handles. -/
def step (s : Vol) : Op → Option Vol
  | .root malloc => (rt11VfsVget malloc s RT11FS_ROOT_INODE).map fun r => handOut r none
  | .lookup malloc name => (rt11VopLookup malloc s name).map fun r => handOut r (some name)
  | .create malloc name currDate =>
    (rt11VopCreate malloc s name currDate).map fun r => handOut r (some name)
  | .write h uio_offset uio_resid io =>
    if h ∈ s.handles ∧ h.file ≠ none then
      (rt11VopWrite s h.vnode uio_offset uio_resid io).map Prod.fst
    else none
  | .close h =>
    if h ∈ s.handles ∧ h.file ≠ none then
      (rt11VopClose s h.vnode).bind fun s => giveBack s h
    else none
  | .unlock h => if h ∈ s.handles then giveBack s h else none
  | .remove => some s

/-- A volume that has just been mounted. -/
def mounted (maxFiles vd_blkSize2 vd_maxEntries : Nat) (seg : DirSeg) (desc : Nat → FileDesc) :
    Vol where
  mount := mountCreate maxFiles .rt11VopsSyncer
  vd_blkSize2 := vd_blkSize2
  vd_maxEntries := vd_maxEntries
  vd_pDirSeg := seg
  desc := desc
  handles := []

end Vmx.Rt11
