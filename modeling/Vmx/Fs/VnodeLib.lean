import Vmx.Util.ListLib

/-!
# `vnode`: the vnodes of a mount

A mount has a fixed number of vnodes for files and one more, the syncer vnode, the first of
their array.  A vnode for a file is on the list of those in use, `mnt_vused`, or on the list
of those that can be had, `mnt_vlist`; the syncer is on neither.

The file systems are called through the operators of a vnode.  What they meet there (memory,
the disk) is in `VopEnv`, and so is an error that a call gives back instead.  A call through
operators that are `NULL` has no result.
-/

namespace Vmx.Vfs

open Lib

def OK : Int := 0
def EBADF : Int := 9
def ENOMEM : Int := 12
def EINVAL : Int := 22
def ENOSYS : Int := 71
def S_vfsLib_NOT_ENOUGH_VNODES : Int := 1048578

def RT11FS_ROOT_INODE : Nat := 2

def S_IFMT : Nat := 0xF000

/-- `enum vtype`. -/
inductive VType where
  | VNON | VREG | VDIR | VLNK | VBLK | VSOCK | VFIFO | VCHR
  deriving DecidableEq

/-- The tables of vnode operators. -/
inductive VnodeOps where
  | rawVops
  | rt11Vops | rt11VopsDir | rt11VopsSyncer
  | ext2fsOps | ext2fsNoTypeOps | ext2fsFifoOps | ext2fsCharOps | ext2fsBlockOps
  | ext2fsSymlinkOps | ext2fsSocketOps | ext2fsDirOps | ext2fsFileOps | ext2fsSyncerOps
  deriving DecidableEq

/-- `vnode_t`. -/
structure Vnode where
  v_ops : Option VnodeOps
  v_count : Int
  v_type : VType
  v_inode : Nat
  deriving DecidableEq

/-! ## The file systems -/

/-- What an operator meets. -/
structure VopEnv where
  /-- The error of an operator that fails. -/
  fail : Option Int
  /-- `malloc` has memory. -/
  malloc : Bool
  /-- What `ext2fsInodeGet` returns. -/
  inodeGet : Int
  i_mode : Nat

/-- `rawVopActivate`. -/
def rawVopActivate (vp : Vnode) : Int × Vnode :=
  (OK, { vp with v_type := .VREG, v_ops := some .rawVops })

/-- `rt11fsInodeGet`, with the type of the inode. -/
def rt11fsInodeGet (env : VopEnv) (pVnode : Vnode) : Int × VType :=
  if pVnode.v_inode = RT11FS_ROOT_INODE then
    if env.malloc then (OK, .VDIR) else (ENOMEM, .VNON)
  else if env.malloc then (OK, .VREG) else (ENOMEM, .VNON)

/-- `rt11VopActivate`. -/
def rt11VopActivate (env : VopEnv) (vp : Vnode) : Int × Vnode :=
  let inode := rt11fsInodeGet env vp
  if inode.1 ≠ OK then (inode.1, vp)
  else
    let vp := { vp with v_type := inode.2 }
    match inode.2 with
    | .VDIR => (OK, { vp with v_ops := some .rt11VopsDir })
    | .VREG => (OK, { vp with v_ops := some .rt11Vops })
    | _ => (EINVAL, vp)

/-- `vtypes`. -/
def vtypes : List VType :=
  [.VNON, .VFIFO, .VCHR, .VNON, .VDIR, .VNON, .VBLK, .VNON,
    .VREG, .VNON, .VLNK, .VNON, .VSOCK, .VNON, .VNON, .VNON]

/-- The operators that `ext2fsVopActivate` selects. -/
def ext2fsTypeOps : VType → VnodeOps
  | .VNON => .ext2fsNoTypeOps
  | .VFIFO => .ext2fsFifoOps
  | .VCHR => .ext2fsCharOps
  | .VDIR => .ext2fsDirOps
  | .VBLK => .ext2fsBlockOps
  | .VREG => .ext2fsFileOps
  | .VLNK => .ext2fsSymlinkOps
  | .VSOCK => .ext2fsSocketOps

/-- `ext2fsVopActivate`. -/
def ext2fsVopActivate (env : VopEnv) (pVnode : Vnode) : Int × Vnode :=
  if env.inodeGet ≠ OK then (env.inodeGet, pVnode)
  else
    let type := vtypes.getD ((env.i_mode &&& S_IFMT) >>> 12) .VNON
    (OK, { pVnode with v_type := type, v_ops := some (ext2fsTypeOps type) })

/-- `VOP_ACTIVATE`. -/
def vopActivate (env : VopEnv) (v_ops : VnodeOps) (vp : Vnode) : Int × Vnode :=
  match env.fail with
  | some error => (error, vp)
  | none =>
    match v_ops with
    | .rawVops => rawVopActivate vp
    | .rt11Vops | .rt11VopsDir | .rt11VopsSyncer => rt11VopActivate env vp
    | .ext2fsNoTypeOps => (ENOSYS, vp)
    | .ext2fsSyncerOps => (OK, vp)
    | _ => ext2fsVopActivate env vp

/-- `VOP_INACTIVE`: `rawVopInactive`, `rt11VopInactive` and `ext2fsSyncerVopInactive` return
`OK`, `ext2fsVopErrorInactive` returns `ENOSYS` and `ext2fsVopInactive` returns `EBADF`. -/
def vopInactive (env : VopEnv) (v_ops : VnodeOps) : Int :=
  match env.fail with
  | some error => error
  | none =>
    match v_ops with
    | .rawVops | .rt11Vops | .rt11VopsDir | .rt11VopsSyncer | .ext2fsSyncerOps => OK
    | .ext2fsNoTypeOps => ENOSYS
    | _ => EBADF

/-! ## Mounts -/

/-- `mount_t`, with its vnodes.  `mnt_lock` is how often the calling task holds the lock. -/
structure Mount where
  vnode : Nat → Vnode
  links : ListNodes
  mnt_vlist : LIST
  mnt_vused : LIST
  mnt_syncer : Nat
  mnt_maxfiles : Nat
  mnt_lock : Nat

/-- `mountLock`. -/
def mountLock (m : Mount) : Mount := { m with mnt_lock := m.mnt_lock + 1 }

/-- `mountUnlock`. -/
def mountUnlock (m : Mount) : Mount := { m with mnt_lock := m.mnt_lock - 1 }

namespace Mount

variable (m : Mount)

def setVnode (n : Nat) (vp : Vnode) : Mount := { m with vnode := Function.update m.vnode n vp }

/-- A vnode goes from `mnt_vlist` to `mnt_vused`. -/
def use (n : Nat) : Mount :=
  let r := listRemove m.links m.mnt_vlist n
  let s := listAdd r.1 m.mnt_vused n
  { m with links := s.1, mnt_vlist := r.2, mnt_vused := s.2 }

/-- A vnode goes from `mnt_vused` to `mnt_vlist`. -/
def release (n : Nat) : Mount :=
  let r := listRemove m.links m.mnt_vused n
  let s := listAdd r.1 m.mnt_vlist n
  { m with links := s.1, mnt_vused := r.2, mnt_vlist := s.2 }

end Mount

/-- What `vnodesCreate` makes. -/
def emptyVnode : Vnode := { v_ops := none, v_count := 0, v_type := .VNON, v_inode := 0 }

/-- The vnodes for files are put on `mnt_vlist`. -/
def addFiles : Nat → ListNodes × LIST
  | 0 => ({ next := fun _ => none, prev := fun _ => none }, listInit)
  | i + 1 => listAdd (addFiles i).1 (addFiles i).2 (i + 1)

/-- `mountCreate`; starting the file system gives the syncer its operators. -/
def mountCreate (maxFiles : Nat) (syncerOps : VnodeOps) : Mount where
  vnode := Function.update (fun _ => emptyVnode) 0 { emptyVnode with v_ops := some syncerOps }
  links := (addFiles maxFiles).1
  mnt_vlist := (addFiles maxFiles).2
  mnt_vused := listInit
  mnt_syncer := 0
  mnt_maxfiles := maxFiles
  mnt_lock := 0

/-! ## Vnodes -/

/-- `vnodeLock`. -/
def vnodeLock (m : Mount) (pVnode : Nat) : Mount :=
  m.setVnode pVnode { m.vnode pVnode with v_count := (m.vnode pVnode).v_count + 1 }

/-- `vnodeUnlock`, with its status. -/
def vnodeUnlock (env : VopEnv) (m : Mount) (pVnode : Nat) : Option (Mount × Int) :=
  let m := m.setVnode pVnode { m.vnode pVnode with v_count := (m.vnode pVnode).v_count - 1 }
  if (m.vnode pVnode).v_count = 0 then
    (m.vnode pVnode).v_ops.map fun v_ops =>
      let error := vopInactive env v_ops
      if error = OK then (mountUnlock ((mountLock m).release pVnode), error) else (m, error)
  else some (m, OK)

/-- The last part of `vgetino`: a vnode of `mnt_vlist` is used for another inode. -/
def recycle (env : VopEnv) (m : Mount) (inode : Nat) (pVnodeOps : VnodeOps) (pVnode : Nat) :
    Mount × Int × Option Nat :=
  let r := vopActivate env pVnodeOps
    { m.vnode pVnode with v_inode := inode, v_ops := some pVnodeOps }
  if r.1 ≠ OK then
    -- no file system has an inode with the number 0
    (mountUnlock (m.setVnode pVnode { r.2 with v_inode := 0 }), r.1, none)
  else
    (mountUnlock (vnodeLock ((m.setVnode pVnode r.2).use pVnode) pVnode), OK, some pVnode)

/-- `vgetino`, with its status and the vnode: the vnodes in use are searched from the first
one on, the others from the last one. -/
def vgetino (fuel : Nat) (env : VopEnv) (m : Mount) (inode : Nat) (pVnodeOps : VnodeOps) :
    Option (Mount × Int × Option Nat) :=
  let m := mountLock m
  let sameInode := fun n => (m.vnode n).v_inode == inode
  match findLoop m.links.next sameInode fuel m.mnt_vused.head with
  | none => none
  | some (some pVnode) => some (mountUnlock (vnodeLock m pVnode), OK, some pVnode)
  | some none =>
    match findLoop m.links.prev sameInode fuel m.mnt_vlist.tail with
    | none => none
    | some (some pVnode) => some (mountUnlock (vnodeLock (m.use pVnode) pVnode), OK, some pVnode)
    | some none =>
      match m.mnt_vlist.head with
      | none => some (m, S_vfsLib_NOT_ENOUGH_VNODES, none)
      | some pVnode => some (recycle env m inode pVnodeOps pVnode)

/-! ## The machine -/

inductive Op where
  | vgetino (env : VopEnv) (inode : Nat) (pVnodeOps : VnodeOps)
  | vnodeLock (pVnode : Nat)
  | vnodeUnlock (env : VopEnv) (pVnode : Nat)
  | mountLock
  | mountUnlock

/-- One call, for a vnode of the mount.  The callers are balanced: a lock that is released is
held, and a vnode that is locked is the syncer or has been handed out. -/
def step (m : Mount) : Op → Option Mount
  | .vgetino env inode pVnodeOps =>
    (Vfs.vgetino (m.mnt_maxfiles + 1) env m inode pVnodeOps).map Prod.fst
  | .vnodeLock pVnode =>
    if pVnode ≤ m.mnt_maxfiles ∧
        (pVnode = m.mnt_syncer ∨ 0 < (m.vnode pVnode).v_count) then
      some (Vfs.vnodeLock m pVnode)
    else none
  | .vnodeUnlock env pVnode =>
    if pVnode ≤ m.mnt_maxfiles ∧ 0 < (m.vnode pVnode).v_count then
      (Vfs.vnodeUnlock env m pVnode).map Prod.fst
    else none
  | .mountLock => some (Vfs.mountLock m)
  | .mountUnlock => if 0 < m.mnt_lock then some (Vfs.mountUnlock m) else none

end Vmx.Vfs
