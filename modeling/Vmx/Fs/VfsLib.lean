import Vmx.Lib.Words
import Mathlib.Algebra.Order.Ring.Int

/-!
# `vfs`: calls with a path

`namei` walks a path from the root of a mount, component by component, and `vnioConnect` gives
what it has found, or the error it has stopped with, to the function that creates, opens or
removes.

A file system is what its vnodes are, what a lookup in one of them answers and what its
operations return.  The result of a call has the operations that were called, in their order.
The locks of the vnodes and of the mount are left out.
-/

namespace Vmx.Vnio

universe u

def OK : Int := 0
def ERROR : Int := -1

def FOLLOW_LINK : Int := -10
def FOLLOW_DOTDOT : Int := -11

def EPERM : Int := 1
def ENOENT : Int := 2
def EEXIST : Int := 17
def ENOTDIR : Int := 20
def EISDIR : Int := 21
def EINVAL : Int := 22
def S_vfsLib_FILEDESC_EXHAUSTED : Int := 16 * 2 ^ 16 + 3

theorem ENOENT_ne_OK : ENOENT ≠ OK := by decide

def O_RDONLY : Nat := 0
def O_ACCMODE : Nat := 3
def O_APPEND : Nat := 0x0008
def O_CREAT : Nat := 0x0200
def O_TRUNC : Nat := 0x0400
def O_EXCL : Nat := 0x0800

def S_IFMT : Nat := 0xF000
def S_IFDIR : Nat := 0x4000
def S_IFREG : Nat := 0x8000
def S_IFLNK : Nat := 0xA000

/-- `enum vtype`. -/
inductive VType where
  | VNON
  | VREG
  | VDIR
  | VLNK
  | VBLK
  | VSOCK
  | VFIFO
  | VCHR
  deriving DecidableEq

/-- `cn_op_t`. -/
inductive CnOp where
  | LOOKUP
  | DELETE
  | CREATE
  | RENAME
  deriving DecidableEq

/-- `componentname_t`, with its flags; `cn_nameptr` is the path from the component on. -/
structure ComponentName where
  cn_nameptr : List Char
  cn_namelen : Nat
  cnslash : Bool
  islastcn : Bool
  isdot : Bool
  isdotdot : Bool
  deriving DecidableEq

/-- The name of the component. -/
def ComponentName.name (cn : ComponentName) : List Char := cn.cn_nameptr.take cn.cn_namelen

/-- What is set of `vattr_t`. -/
structure VAttr where
  va_type : VType
  va_mode : Nat
  deriving DecidableEq

/-- A call of an operation of the file system; there is no component in an empty path. -/
inductive Op (V : Type u) where
  | mkdir (dvp : V) (cn : Option ComponentName) (vattr : VAttr)
  | symlink (dvp : V) (cn : Option ComponentName) (vattr : VAttr) (tgt : List Char)
  | create (dvp : V) (cn : Option ComponentName) (vattr : VAttr)
  | open (vp : V) (mode : Nat)
  | truncate (vp : V)
  | rmdir (dvp vp : V) (cn : Option ComponentName)
  | remove (dvp vp : V) (cn : Option ComponentName)
  deriving DecidableEq

/-- A file system: a tree of vnodes with what its operations answer.  `lookup` finds an entry of a
directory by its name, `vop` is what an operation returns and `fd_vnode` the vnode that it has
created.  A vnode that is no directory has no entries. -/
structure FileSys (V : Type u) where
  v_type : V → VType
  v_root : V → Bool
  lookup : V → List Char → Except { e : Int // e ≠ OK } V
  vop : Op V → Int
  fd_vnode : Op V → V
  lookup_not_dir : ∀ dvp name, v_type dvp ≠ .VDIR →
    lookup dvp name = .error ⟨ENOTDIR, by decide⟩

/-- A file system with an empty root directory, in which every operation returns `status`. -/
def emptyDir (status : Int) : FileSys Unit where
  v_type _ := .VDIR
  v_root _ := true
  lookup _ _ := .error ⟨ENOENT, ENOENT_ne_OK⟩
  vop _ := status
  fd_vnode _ := ()
  lookup_not_dir _ _ h := absurd rfl h

/-- `nameidata_t`. -/
structure NameiData (V : Type u) where
  ni_path : List Char
  ni_pathlen : Nat
  ni_dvp : V
  ni_vp : Option V
  ni_cn : Option ComponentName

/-- What a call returns, what it leaves in `errno` and the operations it has called. -/
structure Result (V : Type u) where
  status : Int
  errno : Option Int
  ops : List (Op V)

variable {V : Type u} (fs : FileSys V)

/-! ## The walk -/

/-- `lookup` of a component.  When `..` leaves the mount the rest of the path is moved to its
front, without the end of the string. -/
def lookup (op : CnOp) (nid : NameiData V) (cn : ComponentName) : Int × NameiData V :=
  if cn.isdot = true ∧ cn.islastcn = true ∧ op = .CREATE then (EEXIST, nid)
  else if cn.isdot = false ∧ cn.isdotdot = true ∧ cn.islastcn = true ∧ op ≠ .LOOKUP then
    (EINVAL, nid)
  else if cn.isdot = false ∧ cn.isdotdot = true ∧ fs.v_root nid.ni_dvp = true then
    let rest := cn.cn_nameptr.drop cn.cn_namelen
    (FOLLOW_DOTDOT,
      { nid with ni_path := rest ++ nid.ni_path.drop rest.length, ni_pathlen := rest.length })
  else
    match fs.lookup nid.ni_dvp cn.name with
    | .error error => (error, nid)
    | .ok vp => (OK, { nid with ni_vp := some vp })

/-- The component at the front of a path, with its flags. -/
def component (cp : List Char) : ComponentName :=
  let namelen := (cp.takeWhile (· ≠ '/')).length
  let rest := (cp.drop namelen).dropWhile (· = '/')
  { cn_nameptr := cp, cn_namelen := namelen
    cnslash := decide (cp.length - rest.length ≠ namelen)
    islastcn := rest.isEmpty
    isdot := decide (cp.head? = some '.' ∧ namelen = 1)
    isdotdot := decide (cp.head? = some '.' ∧ cp[1]? = some '.' ∧ namelen = 2) }

/-- The loop of `namei`, from the component at the front of `cp` on.  Each round takes a
component off the path, so that its length is enough for `fuel`. -/
def nameiLoop (op : CnOp) : Nat → NameiData V → List Char → Int × NameiData V
  | 0, nid, _ => (OK, nid)
  | fuel + 1, nid, cp =>
    let cn := component cp
    let r := lookup fs op { nid with ni_cn := some cn } cn
    if r.1 ≠ OK then r
    else if cn.islastcn = true then r
    else
      match r.2.ni_vp with
      | none => r
      | some vp =>
        nameiLoop op fuel { r.2 with ni_dvp := vp } ((cp.drop cn.cn_namelen).dropWhile (· = '/'))

/-- `namei`. -/
def namei (op : CnOp) (nid : NameiData V) : Int × NameiData V :=
  let cp := nid.ni_path.dropWhile (· = '/')
  if cp = [] then (OK, { nid with ni_vp := some nid.ni_dvp })
  else nameiLoop fs op cp.length nid cp

/-- `ND_INIT`. -/
def ndInit (filename : List Char) (dvp : V) : NameiData V :=
  { ni_path := filename, ni_pathlen := filename.length, ni_dvp := dvp, ni_vp := none
    ni_cn := none }

/-- `vnioConnect`; `pFileDesc` is what `vfsFileDescGet` returns. -/
def vnioConnect (pFileDesc : Option Int) (root : V) (filename : List Char) (nidOp : CnOp)
    (func : NameiData V → Int → Int → Result V) : Result V :=
  match pFileDesc with
  | none => ⟨ERROR, some S_vfsLib_FILEDESC_EXHAUSTED, []⟩
  | some fdp =>
    let r := namei fs nidOp (ndInit filename root)
    if r.1 = FOLLOW_LINK ∨ r.1 = FOLLOW_DOTDOT then ⟨r.1, none, []⟩ else func r.2 fdp r.1

/-! ## Creating and opening -/

/-- The way out of the functions that create or open. -/
def errorReturn (error : Int) (ops : List (Op V)) : Result V := ⟨ERROR, some error, ops⟩

/-- `vnioMkdir`. -/
def vnioMkdir (mode : Nat) (nid : NameiData V) (fdp error : Int) : Result V :=
  let error := if error = OK then EEXIST else error
  if error ≠ OK ∧ error ≠ ENOENT then errorReturn error []
  else
    let op := Op.mkdir nid.ni_dvp nid.ni_cn ⟨.VDIR, mode⟩
    if fs.vop op ≠ OK then errorReturn (fs.vop op) [op] else ⟨fdp, none, [op]⟩

/-- `vnioSymlink`. -/
def vnioSymlink (tgt : List Char) (mode : Nat) (nid : NameiData V) (fdp error : Int) :
    Result V :=
  let error := if error = OK then EEXIST else error
  if error ≠ OK ∧ error ≠ ENOENT then errorReturn error []
  else
    let op := Op.symlink nid.ni_dvp nid.ni_cn ⟨.VLNK, mode⟩ tgt
    if fs.vop op ≠ OK then errorReturn (fs.vop op) [op] else ⟨fdp, none, [op]⟩

/-- The part of `vnioCreate` behind the creation or the opening of `vp`: the file is truncated. -/
def truncates (oflags : Nat) (vp : V) (ops : List (Op V)) (fdp : Int) : Result V :=
  if oflags &&& O_TRUNC ≠ 0 then
    let op := Op.truncate vp
    if fs.vop op ≠ OK then errorReturn (fs.vop op) (ops ++ [op]) else ⟨fdp, none, ops ++ [op]⟩
  else ⟨fdp, none, ops⟩

/-- `vnioCreate`. -/
def vnioCreate (mode oflags : Nat) (nid : NameiData V) (fdp error : Int) : Result V :=
  if error ≠ OK then
    if error ≠ ENOENT then errorReturn error []
    else
      let op := Op.create nid.ni_dvp nid.ni_cn ⟨.VREG, mode &&& 0o777⟩
      if fs.vop op ≠ OK then errorReturn (fs.vop op) [op]
      else truncates fs oflags (fs.fd_vnode op) [op] fdp
  else
    match nid.ni_vp with
    | none => errorReturn error []
    | some vp =>
      if fs.v_type vp ≠ .VREG ∨ oflags &&& O_EXCL ≠ 0 then errorReturn EEXIST []
      else
        let op := Op.open vp mode
        if fs.vop op ≠ OK then errorReturn (fs.vop op) [op] else truncates fs oflags vp [op] fdp

/-- `vnioOpen`. -/
def vnioOpen (mode oflags : Nat) (nid : NameiData V) (fdp error : Int) : Result V :=
  if error ≠ OK then errorReturn error []
  else
    match nid.ni_vp with
    | none => errorReturn error []
    | some vp =>
      if mode &&& S_IFMT ≠ 0 ∧
          (mode &&& S_IFMT = S_IFREG ∧ fs.v_type vp ≠ .VREG ∨
            mode &&& S_IFMT = S_IFDIR ∧ fs.v_type vp ≠ .VDIR ∨
            mode &&& S_IFMT = S_IFLNK ∧ fs.v_type vp ≠ .VLNK) then
        errorReturn EPERM []
      else if mode &&& S_IFMT = 0 ∧ fs.v_type vp = .VDIR ∧ oflags &&& O_ACCMODE ≠ O_RDONLY then
        errorReturn EISDIR []
      else if mode &&& S_IFMT = 0 ∧ fs.v_type vp ≠ .VREG ∧ fs.v_type vp ≠ .VDIR ∧
          fs.v_type vp ≠ .VLNK then
        errorReturn EPERM []
      else
        let op := Op.open vp mode
        if fs.vop op ≠ OK then errorReturn (fs.vop op) [op] else ⟨fdp, none, [op]⟩

/-- `vncioOpen`. -/
def vncioOpen (pFileDesc : Option Int) (root : V) (filename : List Char) (oflags mode : Nat) :
    Result V :=
  if oflags &&& O_ACCMODE = O_RDONLY ∧ oflags &&& (O_TRUNC ||| O_APPEND) ≠ 0 then
    errorReturn EINVAL []
  else if oflags &&& O_CREAT ≠ 0 then
    if mode &&& S_IFMT ≠ S_IFREG then errorReturn EPERM []
    else vnioConnect fs pFileDesc root filename .CREATE (vnioCreate fs mode oflags)
  else if mode &&& S_IFMT ≠ 0 ∧ mode &&& S_IFMT ≠ S_IFREG ∧ mode &&& S_IFMT ≠ S_IFDIR ∧
      mode &&& S_IFMT ≠ S_IFLNK then
    errorReturn EPERM []
  else vnioConnect fs pFileDesc root filename .LOOKUP (vnioOpen fs mode oflags)

/-- `vncioCreate`. -/
def vncioCreate (pFileDesc : Option Int) (root : V) (filename : List Char) (flags : Nat)
    (tgt : List Char) : Result V :=
  let mode := flags ||| O_TRUNC ||| O_CREAT
  if mode &&& S_IFMT = S_IFREG then
    vnioConnect fs pFileDesc root filename .CREATE (vnioCreate fs (flags &&& S_IFMT) mode)
  else if mode &&& S_IFMT = S_IFDIR then
    vnioConnect fs pFileDesc root filename .CREATE (vnioMkdir fs (flags &&& S_IFMT))
  else if mode &&& S_IFMT = S_IFLNK then
    vnioConnect fs pFileDesc root filename .CREATE (vnioSymlink fs tgt (flags &&& S_IFMT))
  else errorReturn EINVAL []

/-! ## Removing -/

/-- `errnoSet`, which returns `OK`. -/
def errnoSet (r : Result V) (val : Int) : Result V := ⟨OK, some val, r.ops⟩

/-- What `vnioRmdir` and `vnioRemove` return: `(ERROR, errnoSet (error))` is what `errnoSet`
returns. -/
def removed (error : Int) (ops : List (Op V)) : Result V :=
  if error ≠ OK then errnoSet ⟨ERROR, none, ops⟩ error else ⟨OK, none, ops⟩

/-- `vnioRmdir`. -/
def vnioRmdir (nid : NameiData V) (_fdp error : Int) : Result V :=
  if error ≠ OK then removed error []
  else
    match nid.ni_vp with
    | none => removed error []
    | some vp =>
      if fs.v_type vp ≠ .VDIR then removed ENOTDIR []
      else
        let op := Op.rmdir nid.ni_dvp vp nid.ni_cn
        removed (fs.vop op) [op]

/-- `vnioRemove`. -/
def vnioRemove (nid : NameiData V) (_fdp error : Int) : Result V :=
  if error ≠ OK then removed error []
  else
    match nid.ni_vp with
    | none => removed error []
    | some vp =>
      match fs.v_type vp with
      | .VDIR =>
        let op := Op.rmdir nid.ni_dvp vp nid.ni_cn
        removed (fs.vop op) [op]
      | .VREG | .VLNK =>
        let op := Op.remove nid.ni_dvp vp nid.ni_cn
        removed (fs.vop op) [op]
      | .VNON | .VBLK | .VSOCK | .VFIFO | .VCHR => removed EPERM []

/-- `vncioDelete`. -/
def vncioDelete (pFileDesc : Option Int) (root : V) (filename : List Char) (mode : Nat) :
    Result V :=
  let r : Result V :=
    if mode &&& S_IFMT = S_IFDIR then
      vnioConnect fs pFileDesc root filename .DELETE (vnioRmdir fs)
    else if mode = 0 then vnioConnect fs pFileDesc root filename .DELETE (vnioRemove fs)
    else ⟨EINVAL, none, []⟩
  if r.status ≠ OK then ⟨ERROR, some r.status, r.ops⟩ else r

end Vmx.Vnio
