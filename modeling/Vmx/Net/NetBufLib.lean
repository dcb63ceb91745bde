import Mathlib.Logic.Function.Basic
import Vmx.Lib.Transition
import Vmx.Os.FfsLib

/-!
# `netBufLib`: pools of network buffers

An mBlk may refer to a clBlk, and a clBlk to a cluster; several mBlks may share a clBlk, which
counts them.  Every block is known by a number.  The word in front of an mBlk or a cluster says
which pool it is of, and never changes.  A free list is the list of the blocks on it; a block that
is taken gets new links, and a free one is recognised by its type.

`malloc` does not fail.  `none` as the result of a call means that it follows a pointer that is `NULL`, reads outside a
table, uses a variable that was never set or walks round a ring of blocks.  No collect function is set, as none is when the
library starts, so a call that may wait ends like one that may not, but for the drop it counts.
-/

namespace Vmx.NetBuf

open Vmx.Os

def MT_FREE : Nat := 0
def M_COPYALL : Int := 1000000000

def M_BLK_SZ : Nat := 36
def CL_BLK_SZ : Nat := 32

def CL_LOG2_MIN : Nat := 6
def CL_LOG2_MAX : Nat := 16
def CL_SIZE_MIN : Nat := 64
def CL_SIZE_MAX : Nat := 65536

/-! ## Data -/

structure MBlk where
  /-- The word in front of the block. -/
  netPool : Nat := 0
  mNext : Option Nat := none
  mLen : Int := 0
  mType : Nat := MT_FREE
  /-- Flag `M_EXT`. -/
  ext : Bool := false
  /-- Flag `M_PKTHDR`. -/
  pktHdr : Bool := false
  pClBlk : Option Nat := none

structure ClBlk where
  pNetPool : Nat := 0
  pClBuf : Option Nat := none
  clSize : Nat := 0
  clRefCount : Int := 0

structure ClPool where
  clSize : Nat := 0
  clLg2 : Nat := 0
  clNum : Nat := 0
  clNumFree : Int := 0
  clUsage : Nat := 0
  pClHead : List Nat := []
  pNetPool : Nat := 0

structure Pool where
  pmBlkHead : List Nat := []
  pClBlkHead : List Nat := []
  mBlkCount : Nat := 0
  mBlkFree : Nat := 0
  clMask : Nat := 0
  clLg2Min : Nat := 0
  clSizeMin : Nat := 0
  clLg2Max : Nat := 0
  clSizeMax : Nat := 0
  clTable : Nat → Option Nat := fun _ => none
  /-- `pPoolStat->mTypes`, by type. -/
  mTypes : Nat → Nat := fun _ => 0
  mDrops : Nat := 0

/-- Ghost: who has a clBlk. -/
inductive ClBlkOwner
  | free
  | caller
  | mBlks
deriving DecidableEq

/-- Ghost: who has a cluster. -/
inductive ClOwner
  | free
  | caller
  | clBlk (b : Nat)
deriving DecidableEq

structure State where
  nPools : Nat := 0
  pools : Nat → Pool := fun _ => {}
  nClPools : Nat := 0
  clPools : Nat → ClPool := fun _ => {}
  nMblks : Nat := 0
  mBlks : Nat → MBlk := fun _ => {}
  nClBlks : Nat := 0
  clBlks : Nat → ClBlk := fun _ => {}
  /-- The pool of a clBlk when it was carved. -/
  clBlkPool : Nat → Nat := fun _ => 0
  nClusters : Nat := 0
  /-- The word in front of a cluster. -/
  clPoolOf : Nat → Nat := fun _ => 0
  /-- Ghost: the mBlk has been handed out. -/
  used : Nat → Bool := fun _ => false
  clBlkOwner : Nat → ClBlkOwner := fun _ => .free
  clOwner : Nat → ClOwner := fun _ => .free

namespace State

def setPool (s : State) (p : Nat) (f : Pool → Pool) : State :=
  { s with pools := Function.update s.pools p (f (s.pools p)) }

def setClPool (s : State) (q : Nat) (f : ClPool → ClPool) : State :=
  { s with clPools := Function.update s.clPools q (f (s.clPools q)) }

def setMblk (s : State) (m : Nat) (f : MBlk → MBlk) : State :=
  { s with mBlks := Function.update s.mBlks m (f (s.mBlks m)) }

def setClBlk (s : State) (b : Nat) (f : ClBlk → ClBlk) : State :=
  { s with clBlks := Function.update s.clBlks b (f (s.clBlks b)) }

def setUsed (s : State) (m : Nat) (u : Bool) : State :=
  { s with used := Function.update s.used m u }

def setClBlkOwner (s : State) (b : Nat) (o : ClBlkOwner) : State :=
  { s with clBlkOwner := Function.update s.clBlkOwner b o }

def setClOwner (s : State) (c : Nat) (o : ClOwner) : State :=
  { s with clOwner := Function.update s.clOwner c o }

end State

/-- A counter of 32 bits goes up. -/
def inc32 (n : Nat) : Nat := (n + 1) % 2 ^ 32

/-- A counter of 32 bits goes down. -/
def dec32 (n : Nat) : Nat := (n + (2 ^ 32 - 1)) % 2 ^ 32

/-- `mTypes[from]--; mTypes[to]++`. -/
def retype (mTypes : Nat → Nat) (old new : Nat) : Nat → Nat :=
  let counted := Function.update mTypes old (dec32 (mTypes old))
  Function.update counted new (inc32 (counted new))

/-- Clear bit `k` of an `int`. -/
def clearBit (mask k : Nat) : Nat := mask &&& ((2 ^ 32 - 1) ^^^ 2 ^ k)

/-! ## `netPoolInit` -/

structure MClConfig where
  mBlkNum : Nat
  clBlkNum : Nat
  memArea : Nat
  memSize : Nat
  mBlkNum_lt : mBlkNum < 2 ^ 31

structure ClDesc where
  clSize : Nat
  clNum : Nat
  memArea : Nat
  memSize : Nat

/-- `_memPoolInit`: the unit size and the area are aligned, and the area is not `NULL`. -/
def memPoolInit (unitSize memArea : Nat) : Bool :=
  unitSize % 4 = 0 && memArea ≠ 0 && memArea % 4 = 0

def SIZE_TO_LOG2 (size : Nat) : Nat := ffsMsb size - 1

/-- The loop over the smaller sizes without a pool of their own, from index `n - 1` down. -/
def fillTable (mask q : Nat) : Nat → (Nat → Option Nat) → Nat → Option Nat
  | 0, table => table
  | n + 1, table =>
    if mask.testBit (n + CL_LOG2_MIN) then table
    else fillTable mask q n (Function.update table n (some q))

/-- The part of `_poolInit` for the mBlks and clBlks of a new pool.  `stat` is what `malloc` left in
the statistics, which are not cleared. -/
def blkInit (s : State) (config : Option MClConfig) (stat : Nat → Nat) : Option State :=
  let p := s.nPools
  match config with
  | none => some { s with
      nPools := p + 1
      pools := Function.update s.pools p { mTypes := stat } }
  | some cfg =>
    if cfg.memSize < cfg.mBlkNum * (M_BLK_SZ + 4) + cfg.clBlkNum * CL_BLK_SZ then none
    else if !memPoolInit M_BLK_SZ cfg.memArea then none
    else
      some { s with
        nPools := p + 1
        pools := Function.update s.pools p
          { pmBlkHead := List.range' s.nMblks cfg.mBlkNum
            mBlkCount := cfg.mBlkNum
            mBlkFree := cfg.mBlkNum
            mTypes := Function.update stat MT_FREE cfg.mBlkNum
            pClBlkHead := List.range' s.nClBlks cfg.clBlkNum }
        nMblks := s.nMblks + cfg.mBlkNum
        mBlks := fun m =>
          if s.nMblks ≤ m ∧ m < s.nMblks + cfg.mBlkNum then { netPool := p } else s.mBlks m
        nClBlks := s.nClBlks + cfg.clBlkNum
        clBlkPool := fun b => if s.nClBlks ≤ b then p else s.clBlkPool b }

/-- One entry of the cluster table of `_poolInit`. -/
def clusterInit (p : Nat) (s : State) (desc : ClDesc) : Option State :=
  if desc.clSize < CL_SIZE_MIN ∨ CL_SIZE_MAX < desc.clSize then none
  else
    let sizeLog2 := SIZE_TO_LOG2 desc.clSize
    let q := s.nClPools
    let pool := s.pools p
    let clMask := pool.clMask ||| 2 ^ sizeLog2
    let first := pool.clLg2Min = 0 ∧ pool.clLg2Max = 0
    let clLg2Min := min sizeLog2 (if first then sizeLog2 else pool.clLg2Min)
    let clLg2Max := max sizeLog2 (if first then sizeLog2 else pool.clLg2Max)
    let index := sizeLog2 - CL_LOG2_MIN
    if desc.memSize < desc.clNum * (desc.clSize + 4) then none
    else if !memPoolInit desc.clSize desc.memArea then none
    else
      some { s with
        pools := Function.update s.pools p { pool with
          clMask := clMask
          clLg2Min := clLg2Min
          clLg2Max := clLg2Max
          clSizeMin := 2 ^ clLg2Min
          clSizeMax := 2 ^ clLg2Max
          clTable := fillTable clMask q index (Function.update pool.clTable index (some q)) }
        nClPools := q + 1
        clPools := Function.update s.clPools q
          { clSize := desc.clSize
            clLg2 := sizeLog2
            clNum := desc.clNum
            clNumFree := desc.clNum
            pClHead := List.range' s.nClusters desc.clNum
            pNetPool := p }
        nClusters := s.nClusters + desc.clNum
        clPoolOf := fun c => if s.nClusters ≤ c then q else s.clPoolOf c }

/-- `netPoolInit` with the default functions, of a cleared `NET_POOL`.  A pool that cannot be
built is deleted again. -/
def netPoolInit (s : State) (config : Option MClConfig) (descs : List ClDesc)
    (stat : Nat → Nat) : State :=
  let used := descs.takeWhile fun desc => 0 < desc.clNum
  (((blkInit s config stat).bind fun s' => used.foldlM (clusterInit s.nPools) s')).getD s

/-! ## Frees -/

/-- `_mBlkFree`. -/
def mBlkFree (s : State) (p m : Nat) : State :=
  let s1 := s.setPool p fun pool =>
    { pool with
      mTypes := retype pool.mTypes (s.mBlks m).mType MT_FREE
      pmBlkHead := m :: pool.pmBlkHead }
  (s1.setMblk m fun blk => { blk with mType := MT_FREE, mNext := none }).setUsed m false

/-- Return a cluster to the pool that it is of. -/
def clusterReturn (s : State) (c : Nat) : State :=
  let q := s.clPoolOf c
  let s1 := s.setClPool q fun pool =>
    { pool with pClHead := c :: pool.pClHead, clNumFree := pool.clNumFree + 1 }
  (s1.setPool (s.clPools q).pNetPool fun pool =>
    { pool with clMask := pool.clMask ||| 2 ^ (s.clPools q).clLg2 }).setClOwner c .free

/-- Put a clBlk back to its pool. -/
def clBlkReturn (s : State) (b : Nat) : State :=
  (s.setPool (s.clBlks b).pNetPool fun pool =>
    { pool with pClBlkHead := b :: pool.pClBlkHead }).setClBlkOwner b .free

/-- `_clBlkFree`.  No operation sets `clFreeFunc`. -/
def clBlkFree (s : State) (b : Nat) : State :=
  match (s.clBlks b).pClBuf with
  | none => clBlkReturn s b
  | some c =>
    let s1 := s.setClBlk b fun blk => { blk with clRefCount := blk.clRefCount - 1 }
    if (s1.clBlks b).clRefCount = 0 then clBlkReturn (clusterReturn s1 c) b else s1

/-- `_mBlkClFree`: the new state and the next block.  It is `NULL` for a block of type `MT_FREE`,
which is left where it is, though its holder has given it up. -/
def mBlkClFree (s : State) (m : Nat) : State × Option Nat :=
  let blk := s.mBlks m
  if blk.mType = MT_FREE then (s.setUsed m false, none)
  else
    let s1 := if blk.ext then (blk.pClBlk.map (clBlkFree s)).getD s else s
    (mBlkFree s1 blk.netPool m, blk.mNext)

/-- `netMblkClChainFree`.  A block that it frees is not met again, so the number of blocks bounds
the loop. -/
def netMblkClChainFree : Nat → State → Option Nat → State
  | _, s, none => s
  | 0, s, some _ => s
  | fuel + 1, s, some m =>
    let r := mBlkClFree s m
    netMblkClChainFree fuel r.1 r.2

/-! ## Gets -/

/-- `_mBlkGet`. -/
def mBlkGet (s : State) (p : Nat) (wait : Bool) (type : Nat) : State × Option Nat :=
  match (s.pools p).pmBlkHead with
  | m :: rest =>
    let s1 := s.setPool p fun pool =>
      { pool with pmBlkHead := rest, mTypes := retype pool.mTypes MT_FREE type }
    if (s.mBlks m).mType ≠ MT_FREE then (s1, none)
    else
      ((s1.setMblk m fun blk =>
        { blk with pClBlk := none, mType := type, mNext := none, ext := false,
                   pktHdr := false }).setUsed m true, some m)
  | [] =>
    if wait then (s, none)
    else (s.setPool p fun pool => { pool with mDrops := pool.mDrops + 1 }, none)

/-- `_clBlkGet`. -/
def clBlkGet (s : State) (p : Nat) : State × Option Nat :=
  match (s.pools p).pClBlkHead with
  | b :: rest =>
    let s1 := s.setPool p fun pool => { pool with pClBlkHead := rest }
    ((s1.setClBlk b fun blk =>
      { blk with pClBuf := none, clRefCount := 0, pNetPool := p }).setClBlkOwner b .caller, some b)
  | [] => (s, none)

/-- `_clusterGet`. -/
def clusterGet (s : State) (p q : Nat) : State × Option Nat :=
  match (s.clPools q).pClHead with
  | [] => (s, none)
  | c :: rest =>
    let s1 := s.setClPool q fun pool =>
      { pool with pClHead := rest, clNumFree := pool.clNumFree - 1, clUsage := pool.clUsage + 1 }
    let s2 := s1.setPool p fun pool =>
      { pool with clMask :=
          if rest = [] then clearBit pool.clMask (s.clPools q).clLg2 else pool.clMask }
    (s2.setClOwner c .caller, some c)

/-- `_clPoolIdGet`: the cluster pool for a size, or `none` inside for `NULL`.  In a pool without
clusters the index is negative. -/
def clPoolIdGet (s : State) (p : Nat) (size : Int) (bestFit : Bool) : Option (Option Nat) :=
  let pool := s.pools p
  let at? (sizeLog2 : Nat) : Option (Option Nat) :=
    if sizeLog2 < CL_LOG2_MIN then none else some (pool.clTable (sizeLog2 - CL_LOG2_MIN))
  if (pool.clSizeMax : Int) < size then
    if bestFit then some none else at? pool.clLg2Max
  else if size < pool.clSizeMin then at? pool.clLg2Min
  else
    let sizeLog2 := SIZE_TO_LOG2 size.toNat
    at? (if 2 ^ sizeLog2 < size.toNat then sizeLog2 + 1 else sizeLog2)

/-- The scan for a larger size in the mask, from `sizeLog2` on. -/
def scanMask (pool : Pool) : Nat → Nat → Option Nat
  | 0, _ => none
  | fuel + 1, sizeLog2 =>
    if pool.clMask.testBit sizeLog2 then pool.clTable (sizeLog2 - CL_LOG2_MIN)
    else scanMask pool fuel (sizeLog2 + 1)

/-- The cluster pool that `_mClGet` takes a cluster from, when the one for the size is `q`. -/
def pickPool (s : State) (p q : Nat) (bestFit : Bool) : Option Nat :=
  if (s.clPools q).pClHead = [] then
    let pool := s.pools p
    let lg2 := (s.clPools q).clLg2
    if 2 ^ lg2 ≤ pool.clMask then scanMask pool (CL_LOG2_MAX + 1 - lg2) lg2
    else if !bestFit && pool.clMask ≠ 0 then pool.clTable (ffsMsb pool.clMask - (1 + CL_LOG2_MIN))
    else some q
  else some q

/-- The end of `_mClGet`: the cluster goes to the clBlk and the clBlk to the mBlk. -/
def attachCl (s : State) (m b c clSize : Nat) : State :=
  let s1 := s.setMblk m fun blk => { blk with ext := true, pClBlk := some b }
  let s2 := s1.setClBlk b fun blk =>
    { blk with pClBuf := some c, clSize := clSize, clRefCount := 1 }
  (s2.setClBlkOwner b .mBlks).setClOwner c (.clBlk b)

/-- `_mClGet`.  The flag says whether it is `OK`. -/
def mClGet (s : State) (p : Nat) (m : Option Nat) (size : Int) (bestFit : Bool) :
    Option (State × Bool) :=
  match m with
  | none => some (s, false)
  | some m =>
    match clBlkGet s p with
    | (_, none) => none
    | (s1, some b) =>
      match clPoolIdGet s1 p size bestFit with
      | none => none
      | some none => some (clBlkFree s1 b, false)
      | some (some q) =>
        match pickPool s1 p q bestFit with
        | none => none
        | some q' =>
          match clusterGet s1 p q' with
          | (s2, some c) => some (attachCl s2 m b c (s2.clPools q').clSize, true)
          | (s2, none) =>
            some (clBlkFree (s2.setPool p fun pool =>
              { pool with mDrops := pool.mDrops + 1 }) b, false)

/-- `netTupleGet`.  A block that has just been got has no clBlk. -/
def netTupleGet (s : State) (p : Nat) (size : Int) (wait : Bool) (type : Nat) (bestFit : Bool) :
    Option State :=
  match mBlkGet s p wait type with
  | (s1, m) =>
    match mClGet s1 p m size bestFit with
    | none => none
    | some (s2, true) => some s2
    | some (s2, false) => some ((m.map (mBlkFree s2 p)).getD s2)

/-! ## `netMblkChainDup` -/

/-- The loop over the offset: the block where the copy starts and the offset in it, or `none`
inside when the chain is too short.  In a chain that runs into itself the loop may never end; the
model gives up after as many blocks as there are. -/
def skip (s : State) : Nat → Option Nat → Int → Option (Option (Option Nat × Int))
  | 0, _, _ => none
  | fuel + 1, m, offs =>
    if 0 < offs then
      match m with
      | none => some none
      | some m =>
        if offs < (s.mBlks m).mLen then some (some (some m, offs))
        else skip s fuel (s.mBlks m).mNext (offs - (s.mBlks m).mLen)
    else some (some (m, offs))

/-- The new block takes the fields and the clBlk of the old one. -/
def dupBlk (s : State) (new old b : Nat) (copyhdr : Bool) (len offs : Int) : State :=
  let s1 := s.setMblk new fun blk =>
    { blk with
      ext := (s.mBlks old).ext
      pktHdr := copyhdr && (s.mBlks old).pktHdr
      mLen := min len ((s.mBlks old).mLen - offs)
      pClBlk := some b }
  s1.setClBlk b fun blk => { blk with clRefCount := blk.clRefCount + 1 }

/-- The loop over the blocks to copy.  `top` is the first new block; `none` when `topBlkId` has not
been set.  `prev` is the last new block. -/
def dupLoop (p : Nat) (wait : Bool) : Nat → State → (top prev : Option Nat) → Option Nat →
    Int → Int → Bool → Option State
  | 0, s, _, _, _, _, _, _ => some s
  | fuel + 1, s, top, prev, m, offs, len, copyhdr =>
    if 0 < len then
      match m with
      | none =>
        if len ≠ M_COPYALL then
          match top with
          | none => none
          | some t => some (netMblkClChainFree s.nMblks s (some t))
        else some s
      | some m =>
        match mBlkGet s p wait (s.mBlks m).mType with
        | (s1, none) =>
          match top with
          | none => some s1
          | some t => some (netMblkClChainFree s1.nMblks s1 (some t))
        | (s1, some new) =>
          match (s1.mBlks m).pClBlk with
          | none => none
          | some b =>
            let s2 := (prev.map fun last =>
              s1.setMblk last fun blk => { blk with mNext := some new }).getD s1
            let s3 := dupBlk s2 new m b copyhdr len offs
            dupLoop p wait fuel s3 (some (top.getD new)) (some new) (s3.mBlks m).mNext 0
              (if len ≠ M_COPYALL then len - (s3.mBlks new).mLen else len) false
    else some s

/-- `netMblkChainDup`. -/
def netMblkChainDup (s : State) (p : Nat) (m : Nat) (offset len : Int) (wait : Bool) :
    Option State :=
  if offset < 0 ∨ len < 0 then some s
  else
    match skip s (s.nMblks + 1) (some m) offset with
    | none => none
    | some none => some s
    | some (some (start, offs)) =>
      dupLoop p wait (s.nMblks + 1) s none none start offs len (offset = 0 && (s.mBlks m).pktHdr)

/-! ## The system -/

inductive Label
  | netPoolInit (config : Option MClConfig) (descs : List ClDesc) (stat : Nat → Nat)
  | netMblkGet (p : Nat) (wait : Bool) (type : Nat)
  | netClBlkGet (p : Nat)
  | netClusterGet (p q : Nat)
  | netMblkClGet (p m : Nat) (size : Int) (bestFit : Bool)
  | netTupleGet (p : Nat) (size : Int) (wait : Bool) (type : Nat) (bestFit : Bool)
  | netMblkChainDup (p m : Nat) (offset len : Int) (wait : Bool)
  | netMblkFree (p m : Nat)
  | netClBlkFree (b : Nat)
  | netClFree (c : Nat)
  | netMblkClFree (m : Nat)
  | netMblkClChainFree (m : Nat)
  /-- A caller writes the header of a block that it has. -/
  | write (m : Nat) (mNext : Option Nat) (mLen : Int) (pktHdr : Bool)

def step (s : State) : Label → Option State
  | .netPoolInit config descs stat => some (netPoolInit s config descs stat)
  | .netMblkGet p wait type => some (mBlkGet s p wait type).1
  | .netClBlkGet p => some (clBlkGet s p).1
  | .netClusterGet p q => some (clusterGet s p q).1
  | .netMblkClGet p m size bestFit => (mClGet s p (some m) size bestFit).map (·.1)
  | .netTupleGet p size wait type bestFit => netTupleGet s p size wait type bestFit
  | .netMblkChainDup p m offset len wait => netMblkChainDup s p m offset len wait
  | .netMblkFree p m => some (mBlkFree s p m)
  | .netClBlkFree b => some (clBlkFree s b)
  | .netClFree c => some (clusterReturn s c)
  | .netMblkClFree m => some (mBlkClFree s m).1
  | .netMblkClChainFree m => some (netMblkClChainFree s.nMblks s (some m))
  | .write m mNext mLen pktHdr =>
    some (s.setMblk m fun blk => { blk with mNext := mNext, mLen := mLen, pktHdr := pktHdr })

end Vmx.NetBuf
