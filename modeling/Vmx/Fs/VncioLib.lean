import Vmx.Fs.FsBufLib

/-!
# `vncioRead` and `vncioWrite` over block devices

A block device that `xbdBlkDevCreate` wraps, or a partition of one, as the device of a mount,
and the reads and writes of an open file down to the driver.
-/

namespace Vmx.FsBuf

def ERROR : Int := -1
def EBADF : Int := 9
def ENODEV : Int := 19
def ENOSYS : Int := 71

def O_RDONLY : Nat := 0
def O_WRONLY : Nat := 1
def O_ACCMODE : Nat := 3

/-! ## Devices -/

/-- `BLK_DEV`: what `bd_blkRd` or `bd_blkWrt` returns at the call with a number, and whether the
block has been moved, which it has after a call without an error. -/
structure BlkDev where
  rv : Nat → Int
  moved : Nat → Bool
  moved_of_ok : ∀ n, rv n = OK → moved n = true

/-- The `XBD` behind a device number; it is attached while `xbdDeviceList` has it.  The blocks of
a partition are counted from its first block. -/
inductive Xbd
  | blkDev (attached : Bool) (bd : BlkDev)
  | partition (attached : Bool) (subDevice : Xbd)

namespace Xbd

/-- The driver. -/
def bd : Xbd → BlkDev
  | blkDev _ bd => bd
  | partition _ subDevice => subDevice.bd

/-- The device, and that of the partition, are attached. -/
def attached : Xbd → Bool
  | blkDev attached _ => attached
  | partition attached subDevice => attached && subDevice.attached

end Xbd

/-- `xbdBlkDevStrategy` at the call of the driver with a number: what it returns, and the error
that it gives to `bio_done`.  What the driver returns is not used. -/
def xbdBlkDevStrategy (_bd : BlkDev) (_n : Nat) : Int × Option Int := (OK, some OK)

/-- `xbdStrategy`, with `xbdPartitionStrategy`.  Without the device there is no `bio_done`. -/
def xbdStrategy : Xbd → Nat → Int × Option Int
  | .blkDev attached bd, n => if attached then xbdBlkDevStrategy bd n else (ENODEV, none)
  | .partition attached subDevice, n =>
    if attached then xbdStrategy subDevice n else (ENODEV, none)

/-- The device as the strategy routines of the file systems use it: they drop what `xbdStrategy`
returns. -/
def Xbd.dev (xbd : Xbd) : Dev where
  bio n := (xbdStrategy xbd n).2
  moves n := xbd.bd.moved n

/-! ## Files -/

/-- The vnode of an open file, with what its operations use; `special` has neither `VOP_READ` nor
`VOP_WRITE`. -/
inductive File (syncer : Nat)
  | raw (v : RawVol) (vp : Nat)
  | rt11 (f : Rt11File) (vp : { vp // vp ≠ syncer })
  | ext2 (v : Ext2Vol) (vp : { vp // vp ≠ syncer })
  | special

/-- `filedesc_t`. -/
structure FileDesc (syncer : Nat) where
  fd_mode : Nat
  fd_off : Nat
  fd_vnode : File syncer

variable {syncer : Nat}

/-- `VOP_READ`: the status and the bytes that were moved. -/
def vopRead (dev : Dev) (file : File syncer) (uio_offset uio_resid : Nat) :
    M (Int × List UInt8) :=
  match file with
  | .raw v vp => rawVopRead dev v vp uio_offset uio_resid
  | .rt11 f vp => rt11VopRead dev syncer f vp uio_offset uio_resid
  | .ext2 v vp => ext2fsVopRead dev syncer v vp uio_offset uio_resid
  | .special => pure (ENOSYS, [])

/-- `VOP_WRITE`: the status and the bytes that are left. -/
def vopWrite (dev : Dev) (file : File syncer) (uio_offset : Nat) (bytes : List UInt8) :
    M (Int × List UInt8) :=
  match file with
  | .raw v vp => rawVopWrite dev v vp uio_offset bytes
  | .rt11 f vp => rt11VopWrite dev syncer f vp uio_offset bytes
  | .ext2 _ _ => pure (ENOSYS, bytes)
  | .special => pure (ENOSYS, bytes)

/-- `vncioRead`: what it returns and the file descriptor. -/
def vncioRead (dev : Dev) (fd : FileDesc syncer) (maxBytes : Nat) : M (Int × FileDesc syncer) :=
  if fd.fd_mode &&& O_ACCMODE = O_WRONLY then pure (ERROR, fd)
  else do
    let (error, moved) ← vopRead dev fd.fd_vnode fd.fd_off maxBytes
    if error ≠ OK then return (ERROR, fd)
    return (moved.length, { fd with fd_off := fd.fd_off + moved.length })

/-- `vncioWrite`. -/
def vncioWrite (dev : Dev) (fd : FileDesc syncer) (bytes : List UInt8) :
    M (Int × FileDesc syncer) :=
  if fd.fd_mode &&& O_ACCMODE = O_RDONLY then pure (ERROR, fd)
  else do
    let (error, left) ← vopWrite dev fd.fd_vnode fd.fd_off bytes
    if error ≠ OK then return (ERROR, fd)
    let count := bytes.length - left.length
    return (count, { fd with fd_off := fd.fd_off + count })

/-- A call on an open file; the number of bytes is an `int`. -/
inductive Call
  | read (maxBytes : Nat) (int : maxBytes < 2 ^ 31)
  | write (bytes : List UInt8) (int : bytes.length < 2 ^ 31)

def Call.run (dev : Dev) (fd : FileDesc syncer) : Call → M (Int × FileDesc syncer)
  | .read maxBytes _ => vncioRead dev fd maxBytes
  | .write bytes _ => vncioWrite dev fd bytes

end Vmx.FsBuf
