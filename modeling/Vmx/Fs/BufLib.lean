import Mathlib.Data.List.Basic
import Vmx.Lib.Transition

/-!
# `bio`: the buffers of a mount

Tasks get, read, write and release buffers.  Nothing in the code keeps two tasks from running it
at the same time, so a call is a frame on the stack of its task, and a step is what a task does
between two points where another task may come in: a search of the list, a test and the change of
the flags that follows it, the first and the second half of `brelse`.  The strategy routine of a
vnode may call for other buffers while it reads or writes one.

The semaphore of a buffer is the flag `sem`.
-/

namespace Vmx.Bio

/-! ## Data -/

structure Buf where
  vp : Option Nat := none
  lblkno : Nat := 0
  size : Nat := 0
  /-- `B_BUSY`, `B_INVAL`, `B_ASYNC`, `B_CACHE` and `B_WANTED`. -/
  busy : Bool := false
  inval : Bool := false
  async : Bool := false
  cache : Bool := false
  wanted : Bool := false
  /-- `b_sem` is full. -/
  sem : Bool := false

/-- The arguments of `buf_getblk`. -/
structure Req where
  vp : Nat
  blkno : Nat
  size : Nat

/-- What a task is doing. -/
inductive Frame
  /-- `buf_getblk` from its label `loop` on. -/
  | looking (r : Req)
  /-- `buf_incore` has found a buffer, or the wait for it is over. -/
  | found (b : Nat) (r : Req)
  /-- It has found none. -/
  | missing (r : Req)
  /-- In `semTake`. -/
  | waiting (b : Nat) (r : Req)
  /-- In `VOP_STRATEGY` or `buf_wait`, called by `bread`. -/
  | reading (b : Nat)
  /-- The same, called by `bwrite`. -/
  | writing (b : Nat)
  /-- In `brelse`.  `buf_getblk` looks again afterwards. -/
  | brelse (b : Nat) (again : Option Req)
  /-- In the second half of `brelse`. -/
  | released (b : Nat) (again : Option Req)

structure State where
  /-- `mnt_buflist` from its head. -/
  list : List Nat
  buf : Nat → Buf
  /-- The stack of a task, from the top. -/
  calls : Nat → List Frame := fun _ => []
  /-- Ghost: the task has got the buffer, for this block of this vnode, and not released it. -/
  holds : Nat → Nat → Option (Nat × Nat) := fun _ _ => none

def Buf.key (bp : Buf) : Option (Nat × Nat) := bp.vp.map fun vp => (vp, bp.lblkno)

def Req.key (r : Req) : Nat × Nat := (r.vp, r.blkno)

namespace State

def setBuf (s : State) (b : Nat) (f : Buf → Buf) : State :=
  { s with buf := Function.update s.buf b (f (s.buf b)) }

def setCalls (s : State) (t : Nat) (frames : List Frame) : State :=
  { s with calls := Function.update s.calls t frames }

def setHolds (s : State) (t b : Nat) (k : Option (Nat × Nat)) : State :=
  { s with holds := Function.update s.holds t (Function.update (s.holds t) b k) }

/-- Put a buffer at the head of the list. -/
def toHead (s : State) (b : Nat) : State := { s with list := b :: s.list.erase b }

end State

/-! ## The functions -/

/-- `buf_incore`. -/
def bufIncore (s : State) (r : Req) : Option Nat :=
  s.list.find? fun b =>
    (s.buf b).lblkno == r.blkno && (s.buf b).vp == some r.vp && !(s.buf b).inval

/-- `buf_new`: the least recently used buffer that is not busy. -/
def bufNew (s : State) : Option Nat := s.list.reverse.find? fun b => !(s.buf b).busy

/-- The buffer of `buf_new`, with its new block. -/
def fresh (r : Req) (bp : Buf) : Buf :=
  { bp with vp := some r.vp, lblkno := r.blkno, busy := true, inval := false, async := false,
            cache := false, wanted := false }

/-- The frames of `brelse`, after its test of `B_BUSY`. -/
def callBrelse (s : State) (t b : Nat) (again : Option Req) (frames : List Frame) : State :=
  (s.setHolds t b none).setCalls t (.brelse b again :: frames)

/-- `bwrite` from its start. -/
def callBwrite (s : State) (t b : Nat) (frames : List Frame) : State :=
  if (s.buf b).inval then
    if (s.buf b).busy then callBrelse s t b none frames else s
  else if !(s.buf b).busy then s
  else s.setCalls t (.writing b :: frames)

/-- `buf_done`, but for the release of a buffer that was written with `B_ASYNC`. -/
def bufDone (bp : Buf) : Buf :=
  if bp.async then bp else { bp with wanted := false, sem := true }

/-- The end of `buf_wait`. -/
def bufError (s : State) (b : Nat) (error : Bool) : State :=
  if error && !(s.buf b).inval then (s.setBuf b fun bp => { bp with inval := true }).toHead b
  else s

/-! ## The system -/

inductive Label
  /-- A task calls a function. -/
  | bufGetblk (t : Nat) (r : Req)
  | bread (t b : Nat)
  | bwrite (t b : Nat)
  | bufStartwrite (t b : Nat)
  | brelse (t b : Nat)
  /-- A task goes on in `buf_getblk`. -/
  | look (t : Nat)
  | wake (t : Nat)
  | take (t : Nat)
  | new (t : Nat)
  /-- The input or output ends. -/
  | done (t : Nat) (error : Bool)
  /-- A task goes on in `brelse`. -/
  | give (t : Nat)
  | unlock (t : Nat)

/-- A task may call a function when it runs nothing else here, or is in a strategy routine. -/
def canCall : List Frame → Bool
  | [] => true
  | .reading _ :: _ => true
  | .writing _ :: _ => true
  | _ => false

/-- One step.  The `bread` of a buffer that `buf_getblk` has returned starts here. -/
def step (s : State) : Label → Option State
  | .bufGetblk t r =>
    if canCall (s.calls t) then some (s.setCalls t (.looking r :: s.calls t)) else none
  | .bread t b =>
    if !canCall (s.calls t) then none
    else if (s.buf b).cache then some s
    else
      some ((s.setBuf b fun bp => { bp with inval := false }).setCalls t
        (.reading b :: s.calls t))
  | .bwrite t b => if canCall (s.calls t) then some (callBwrite s t b (s.calls t)) else none
  | .bufStartwrite t b =>
    if canCall (s.calls t) then
      some (callBwrite (s.setBuf b fun bp => { bp with async := true }) t b (s.calls t))
    else none
  | .brelse t b =>
    if !canCall (s.calls t) then none
    else if (s.buf b).busy then some (callBrelse s t b none (s.calls t)) else some s
  | .look t =>
    match s.calls t with
    | .looking r :: frames =>
      match bufIncore s r with
      | none => some (s.setCalls t (.missing r :: frames))
      | some b =>
        if (s.buf b).busy then
          some ((s.setBuf b fun bp => { bp with wanted := true }).setCalls t
            (.waiting b r :: frames))
        else some (s.setCalls t (.found b r :: frames))
    | _ => none
  | .wake t =>
    match s.calls t with
    | .waiting b r :: frames =>
      if (s.buf b).sem then
        some ((s.setBuf b fun bp => { bp with sem := false }).setCalls t (.found b r :: frames))
      else none
    | _ => none
  | .take t =>
    match s.calls t with
    | .found b r :: frames =>
      let s1 := s.setBuf b fun bp => { bp with busy := true, cache := true }
      if (s.buf b).size ≠ r.size then
        some ((s1.setBuf b fun bp => { bp with inval := true }).setCalls t
          (.brelse b (some r) :: frames))
      else some ((s1.setHolds t b (some r.key)).setCalls t frames)
    | _ => none
  | .new t =>
    match s.calls t with
    | .missing r :: frames =>
      match bufNew s with
      | none => some (s.setCalls t (.looking r :: frames))
      | some b =>
        some ((((s.setBuf b (fresh r)).toHead b).setHolds t b (some r.key)).setCalls t frames)
    | _ => none
  | .done t error =>
    match s.calls t with
    | .reading b :: frames =>
      let s1 := bufError (s.setBuf b bufDone) b error
      some (s1.setCalls t (if (s.buf b).async then .brelse b none :: frames else frames))
    | .writing b :: frames =>
      let s1 := bufError (s.setBuf b bufDone) b error
      some (callBrelse s1 t b none frames)
    | _ => none
  | .give t =>
    match s.calls t with
    | .brelse b again :: frames =>
      some ((s.setBuf b fun bp =>
        if bp.wanted then { bp with wanted := false, sem := true } else bp).setCalls t
          (.released b again :: frames))
    | _ => none
  | .unlock t =>
    match s.calls t with
    | .released b again :: frames =>
      let s1 := (s.toHead b).setBuf b fun bp =>
        { bp with wanted := false, busy := false, async := false }
      some (s1.setCalls t (match again with
        | none => frames
        | some r => .looking r :: frames))
    | _ => none

/-- The buffers of a mount after `mountBufAlloc`. -/
def init (nBufs bufSize : Nat) : State where
  list := List.range nBufs
  buf _ := { size := bufSize }

end Vmx.Bio
