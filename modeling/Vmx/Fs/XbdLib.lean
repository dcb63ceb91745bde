import Mathlib.Logic.Function.Basic
import Vmx.Lib.Transition
import Mathlib.Algebra.Order.Ring.Int

/-!
# Extended block devices, their events, and partitions

The device list of `xbdLib`, the handler lists and the message queue of `erfLib`, and the
partition devices of `xbdPartition`.  A partition device lives in a record that all partitions
of one disk share, so the model keeps the records by number and marks a record that was freed
instead of forgetting it.

* `xbdPartInit` and `xbdCreatePartition` compute the table that is written to a disk.  Block
  numbers are `unsigned long long` and the fields of a table entry are `u_int`, so every
  operation is taken modulo its width.
* `xbdPartitionsDetect` reads a table back.  Everything that may fail in it (memory, the read of
  the sector) is in an `Env`; the free slots of the device list and of the message queue are part
  of the state.
* `step` is the system: requests, raised events, and the task that hands events to handlers.

A disk is an XBD device below all this.  What reaches it is written down in `transfers`.
-/

namespace Vmx.Xbd

/-! ## Numbers -/

/-- A `u_int`. -/
def u32 (n : Nat) : Nat := n % 2 ^ 32

theorem u32_lt (n : Nat) : u32 n < 2 ^ 32 := Nat.mod_lt _ (by decide)

/-- An `lblkno_t`. -/
def u64 (n : Nat) : Nat := n % 2 ^ 64

/-- The difference of two `lblkno_t`. -/
def sub64 (a b : Nat) : Nat := (a + 2 ^ 64 - b) % 2 ^ 64

/-- An `int` times an `lblkno_t`. -/
def mul64 (a : Int) (b : Nat) : Nat := ((a * b) % 2 ^ 64).toNat

/-! ## The partition table -/

structure Geometry where
  sectorsPerTrack : Nat
  numHeads : Nat
  numCylinders : Nat

structure PartitionEntry where
  bootIndicator : Nat
  headStart : Nat
  secStart : Nat
  cylStart : Nat
  systemIndicator : Nat
  headEnd : Nat
  secEnd : Nat
  cylEnd : Nat
  /-- Starting sector of partition. -/
  sector : Nat
  /-- Number of sectors in the partition. -/
  nSectors : Nat
  sector_lt : sector < 2 ^ 32
  nSectors_lt : nSectors < 2 ^ 32
deriving DecidableEq

abbrev PartTable := Fin 4 → PartitionEntry

/-- A device name, as its characters. -/
abbrev DevName := List Char

/-- `XBD_PART`.  A cleared structure is the default one, so its device is 0. -/
structure Part where
  name : DevName := []
  blkSize : Nat := 0
  nBlks : Nat := 0
  /-- `none` is `NULLDEV`. -/
  device : Option Nat := some 0
  isBootable : Bool := false
  head : Nat × Nat := (0, 0)
  sector : Nat × Nat := (0, 0)
  cylinder : Nat × Nat := (0, 0)
  startBlock : Nat := 0
  nBlocks : Nat := 0

/-- `xbdPartInit`.  It divides by the size of a cylinder, which may be 0. -/
def xbdPartInit (geometry : Geometry) (startBlock endBlock : Nat) : Option Part :=
  let perCylinder := u32 (geometry.numHeads * geometry.sectorsPerTrack)
  if perCylinder = 0 then none
  else
    let start := u64 startBlock
    let stop := u64 endBlock
    let temp0 := start % perCylinder
    let temp1 := stop % perCylinder
    some
      { cylinder := (u32 (start / perCylinder), u32 (stop / perCylinder))
        head := (temp0 / geometry.sectorsPerTrack, temp1 / geometry.sectorsPerTrack)
        sector := (temp0 % geometry.sectorsPerTrack + 1, temp1 % geometry.sectorsPerTrack + 1)
        startBlock := start
        nBlocks := sub64 stop start }

/-- The number of blocks for a percentage of the device. -/
def percent (size : Int) (nBlks : Nat) : Nat := mul64 size nBlks / 100

/-- The partitions that `xbdCreatePartition` sets up in its cleared array of four. -/
def createParts (geometry : Geometry) (nBlks : Nat) (nPartitions : Int)
    (size1 size2 size3 : Int) : Option (List Part) :=
  if nPartitions = 0 then
    (xbdPartInit geometry 1 (nBlks + 1)).map fun p => [p, {}, {}, {}]
  else if nPartitions = 1 then
    let nBlks1 := percent size1 nBlks
    (xbdPartInit geometry 1 (nBlks1 + 1)).map fun p => [p, {}, {}, {}]
  else
    let nBlks1 := percent size1 nBlks
    let nBlks2 := percent size2 nBlks
    let nBlks3 := percent size3 nBlks
    match xbdPartInit geometry 1 (nBlks1 + 1),
      xbdPartInit geometry (nBlks1 + 2) (nBlks1 + nBlks2 + 1),
      xbdPartInit geometry (nBlks1 + nBlks2 + 2) (nBlks1 + nBlks2 + nBlks3 + 1) with
    | some p1, some p2, some p3 => some [p1, p2, p3, {}]
    | _, _, _ => none

/-- The entry written for a partition.  `systemIndicator` is what the stack held there. -/
def entryOf (systemIndicator : Nat) (p : Part) : PartitionEntry where
  bootIndicator := if p.isBootable then 1 &&& 0x80 else 0
  headStart := p.head.1 % 256
  headEnd := p.head.2 % 256
  secStart := p.sector.1 % 256
  secEnd := p.sector.2 % 256
  cylStart := p.cylinder.1 % 256
  cylEnd := p.cylinder.2 % 256
  systemIndicator := systemIndicator
  sector := u32 p.startBlock
  nSectors := u32 p.nBlocks
  sector_lt := u32_lt _
  nSectors_lt := u32_lt _

/-- The table that `xbdCreatePartition` writes at the end of sector 0. -/
def xbdCreatePartition (geometry : Geometry) (nBlks : Nat) (nPartitions : Int)
    (size1 size2 size3 : Int) (stack : Fin 4 → Nat) : Option PartTable :=
  (createParts geometry nBlks nPartitions size1 size2 size3).map fun parts i =>
    entryOf (stack i) (parts.getD i {})

/-! ## Devices, records, handlers and messages -/

/-- What a pointer in the device list points to: a disk, or partition `i` of a record. -/
inductive XbdPtr
  | disk (b : Nat)
  | part (r i : Nat)
deriving DecidableEq

/-- The XBD device of a disk. -/
structure Disk where
  name : DevName
  blkSize : Nat
  nBlks : Nat
  blkSize_pos : 0 < blkSize

/-- `XBD_PARTITION`. -/
structure Partition where
  subDevice : Nat
  nPartitions : Nat := 0
  xbdParts : Nat → Part := fun _ => {}
  /-- The record was given back to the heap. -/
  freed : Bool := false

/-- The types of the category `xbdEventCategory`. -/
inductive EventType
  | remove
  | mediaChanged
  | primaryInsert
  | secondaryInsert
  | softInsert
  | instantiated
deriving DecidableEq

/-- A handler function.  `device` is a device number that was passed for one. -/
inductive Func
  | xbdPartitionHandler
  | xbdPartitionEject
  | device (d : Nat)
  | other (n : Nat)
deriving DecidableEq

/-- `ERF_TYPE`: a registered handler.  The user data of `xbdPartitionEject` is a partition. -/
structure Handler where
  func : Func
  pUserData : Option (Nat × Nat)
deriving DecidableEq

inductive Msg
  | event (type : EventType) (device : Nat)
  | unregister (type : EventType) (handler : Handler)
deriving DecidableEq

/-- Blocks that a disk was asked to transfer, and the partition the request came through. -/
structure Transfer where
  via : Option (Nat × Nat)
  device : Nat
  blkno : Nat
  count : Nat
deriving DecidableEq

structure State where
  xbdDeviceList : List (Option XbdPtr)
  disks : List Disk
  records : List Partition
  handlers : EventType → List Handler
  erfMsgQ : List Msg
  /-- Ghost: what has been transferred. -/
  transfers : List Transfer
  /-- Ghost: a handler has been called with a freed record. -/
  calledFreed : Bool

/-- The number of messages `erfMsgQ` is created for. -/
def maxMsgs : Nat := 32

/-- What may fail from outside while events are handled: the memory for the two blocks of
`xbdPartitionsDetect`, for the handlers of each table entry, and for the requests to unregister a
handler; and what the read of sector 0 brings. -/
structure Env where
  mallocData : Bool
  mallocRecord : Bool
  sector0 : Option PartTable
  mallocRemove : Nat → Bool
  mallocMediaChanged : Nat → Bool
  mallocUnregister : EventType → Nat × Nat → Bool

namespace State

def deviceAt (s : State) (device : Nat) : Option XbdPtr := s.xbdDeviceList[device]?.join

def partAt (s : State) (r i : Nat) : Option Part := s.records[r]?.map (·.xbdParts i)

/-- The name in an XBD. -/
def nameAt (s : State) : XbdPtr → DevName
  | .disk b => (s.disks[b]?.map (·.name)).getD []
  | .part r i => ((s.partAt r i).map (·.name)).getD []

def blkSizeAt (s : State) : XbdPtr → Nat
  | .disk b => (s.disks[b]?.map (·.blkSize)).getD 0
  | .part r i => ((s.partAt r i).map (·.blkSize)).getD 0

def setRecord (s : State) (r : Nat) (f : Partition → Partition) : State :=
  { s with records := s.records.modify r f }

def setPart (s : State) (r i : Nat) (f : Part → Part) : State :=
  s.setRecord r fun record =>
    { record with xbdParts := Function.update record.xbdParts i (f (record.xbdParts i)) }

end State

/-! ## `xbdLib` -/

/-- Whether `xbdDevFind` finds a device of the name. -/
def xbdDevFind (s : State) (name : DevName) : Bool :=
  s.xbdDeviceList.any fun slot => slot.any fun ptr => s.nameAt ptr = name

/-- `xbdAttach` of a partition.  It writes the XBD before it looks for a slot. -/
def xbdAttach (s : State) (r i : Nat) (name : DevName) (blkSize nBlks : Nat) :
    State × Option Nat :=
  if 32 ≤ name.length + 1 then (s, none)
  else if xbdDevFind s name then (s, none)
  else
    let s1 := s.setPart r i fun p =>
      { p with name := name, blkSize := blkSize, nBlks := nBlks }
    match s.xbdDeviceList.findIdx? (· = none) with
    | none => (s1, none)
    | some d => ({ s1 with xbdDeviceList := s.xbdDeviceList.set d (some (.part r i)) }, some d)

def xbdDetach (s : State) (ptr : XbdPtr) : State :=
  match s.xbdDeviceList.findIdx? (· = some ptr) with
  | none => s
  | some d => { s with xbdDeviceList := s.xbdDeviceList.set d none }

/-! ## `erfLib` -/

/-- `msgQSend` with `WAIT_NONE`. -/
def msgQSend (s : State) (m : Msg) : Option State :=
  if s.erfMsgQ.length < maxMsgs then some { s with erfMsgQ := s.erfMsgQ ++ [m] } else none

/-- `erfHandlerRegister` without flags. -/
def erfHandlerRegister (s : State) (malloc : Bool) (type : EventType) (h : Handler) :
    Option State :=
  if malloc then
    some { s with handlers := Function.update s.handlers type (h :: s.handlers type) }
  else none

/-- `erfHandlerUnregister` asks the event task to do it. -/
def erfHandlerUnregister (s : State) (malloc : Bool) (type : EventType) (h : Handler) : State :=
  if malloc then (msgQSend s (.unregister type h)).getD s else s

/-- `erfHandler` for a request to unregister: the first handler that matches goes. -/
def erfHandler (s : State) (type : EventType) (h : Handler) : State :=
  { s with handlers := Function.update s.handlers type ((s.handlers type).erase h) }

/-! ## Partitions -/

/-- The root of a name that ends with `:0`. -/
def rootName (name : DevName) : Option DevName :=
  if [':', '0'].isSuffixOf name then some (name.take (name.length - 2)) else none

/-- The name of the partition with a number. -/
def partName (root : DevName) (n : Nat) : DevName := root ++ ':' :: Nat.toDigits 10 n

/-- The fields of an `XBD_PART` that come from an entry. -/
def partOf (e : PartitionEntry) (p : Part) : Part :=
  { p with
    isBootable := e.bootIndicator &&& 0x80 ≠ 0
    head := (e.headStart, e.headEnd)
    sector := (e.secStart, e.secEnd)
    cylinder := (e.cylStart, e.cylEnd)
    startBlock := e.sector
    nBlocks := e.nSectors }

/-- The body of the loop of `xbdPartitionsDetect` for a non-empty entry `i`, which becomes
partition `k`.  The flag says whether the loop goes on. -/
def detectEntry (env : Env) (root : DevName) (blkSize r : Nat) (s : State) (i k : Nat)
    (e : PartitionEntry) : State × Bool :=
  let s1 := s.setPart r k (partOf e)
  match xbdAttach s1 r k (partName root (k + 1)) blkSize e.nSectors with
  | (s2, none) => (s2, false)
  | (s2, some d) =>
    let s3 := s2.setPart r k fun p => { p with device := some d }
    let h : Handler := ⟨.xbdPartitionEject, some (r, k)⟩
    match erfHandlerRegister s3 (env.mallocRemove i) .remove h with
    | none => (s3, false)
    | some s4 =>
      match erfHandlerRegister s4 (env.mallocMediaChanged i) .mediaChanged h with
      | none => (s4, false)
      | some s5 =>
        match msgQSend s5 (.event .secondaryInsert d) with
        | none => (s5, false)
        | some s6 => (s6.setRecord r fun record =>
            { record with nPartitions := record.nPartitions + 1 }, true)

/-- The loop of `xbdPartitionsDetect` over the entries from number `i` on, with `k` partitions
found so far. -/
def detectLoop (env : Env) (root : DevName) (blkSize r : Nat) :
    State → Nat → Nat → List PartitionEntry → State × Option Nat
  | s, _, k, [] => (s, some k)
  | s, i, k, e :: es =>
    if e.nSectors = 0 then
      detectLoop env root blkSize r (s.setPart r k fun p => { p with device := none })
        (i + 1) k es
    else
      match detectEntry env root blkSize r s i k e with
      | (s', false) => (s', none)
      | (s', true) => detectLoop env root blkSize r s' (i + 1) (k + 1) es

/-- `xbdPartitionsDetect`: the number of partitions, or `none` for `ERROR`. -/
def xbdPartitionsDetect (env : Env) (s : State) (device : Nat) : State × Option Nat :=
  match s.deviceAt device with
  | none => (s, none)
  | some ptr =>
    if env.mallocData && env.mallocRecord then
      let r := s.records.length
      match env.sector0 with
      | none =>
        ({ s with records := s.records ++ [{ subDevice := device, freed := true }] }, none)
      | some table =>
        let s1 := { s with records := s.records ++ [{ subDevice := device }] }
        match rootName (s.nameAt ptr) with
        | none => (s1, none)
        | some root =>
          match detectLoop env root (s.blkSizeAt ptr) r s1 0 0 (List.ofFn table) with
          | (s2, none) => (s2.setRecord r fun record => { record with freed := true }, none)
          | (s2, some k) => (s2, some k)
    else (s, none)

/-- `xbdPartitionHandler`.  When no partition was found the disk itself is announced. -/
def xbdPartitionHandler (env : Env) (s : State) (type : EventType) (device : Nat) : State :=
  if type = .primaryInsert then
    match s.deviceAt device with
    | none => s
    | some ptr =>
      if (rootName (s.nameAt ptr)).isSome then
        match xbdPartitionsDetect env s device with
        | (s', some (_ + 1)) => s'
        | (s', _) => (msgQSend s' (.event .secondaryInsert device)).getD s'
      else s
  else s

/-- `xbdPartitionEject`.  The device number stands where `erfHandlerUnregister` takes the
function. -/
def xbdPartitionEject (env : Env) (s : State) (device : Nat) (r i : Nat) : State :=
  match s.records[r]? with
  | none => s
  | some record =>
    let s0 := { s with calledFreed := s.calledFreed || record.freed }
    if (record.xbdParts i).device ≠ some device then s0
    else
      let s1 := xbdDetach s0 (.part r i)
      let s2 := s1.setPart r i fun p => { p with device := none }
      let dealloc := (List.range record.nPartitions).all fun j =>
        ((s2.partAt r j).bind (·.device)).isNone
      let h : Handler := ⟨.device device, some (r, i)⟩
      let s3 := erfHandlerUnregister s2 (env.mallocUnregister .remove (r, i)) .remove h
      let s4 := erfHandlerUnregister s3 (env.mallocUnregister .mediaChanged (r, i))
        .mediaChanged h
      if dealloc then s4.setRecord r fun record => { record with freed := true } else s4

/-! ## Requests -/

/-- A `bio` of a request: its block number and its number of bytes. -/
structure Bio where
  bio_blkno : Nat
  bio_bcount : Nat

/-- `xbdStrategy`: what the disk is asked to transfer, or `none` for `ENODEV`.  A partition hands
the chain to the device below it, so the recursion is bounded by the number of devices. -/
def xbdStrategy (s : State) : Nat → Nat → List Bio → Option (List (Nat × Nat × Nat))
  | 0, _, _ => none
  | fuel + 1, device, bios =>
    match s.deviceAt device with
    | none => none
    | some (.disk b) =>
      some (bios.map fun bio =>
        (device, bio.bio_blkno, bio.bio_bcount / s.blkSizeAt (.disk b)))
    | some (.part r i) =>
      match s.records[r]? with
      | none => none
      | some record =>
        -- xbdPartitionStrategy
        xbdStrategy s fuel record.subDevice (bios.map fun bio =>
          { bio with bio_blkno := u64 (bio.bio_blkno + (record.xbdParts i).startBlock) })

/-- `xbdDump`: the blocks that the disk is asked for, or `none` for an error. -/
def xbdDump (s : State) : Nat → Nat → Nat → Nat → Option (Nat × Nat × Nat)
  | 0, _, _, _ => none
  | fuel + 1, device, lblkno, nBytes =>
    match s.deviceAt device with
    | none => none
    | some (.disk b) => some (device, lblkno, nBytes / s.blkSizeAt (.disk b))
    | some (.part r i) =>
      match s.records[r]? with
      | none => none
      | some record =>
        -- xbdPartitionDump
        if (record.xbdParts i).nBlocks < lblkno then none
        else
          xbdDump s fuel record.subDevice (u64 (lblkno + (record.xbdParts i).startBlock)) nBytes

/-! ## The system -/

/-- Call one handler of an event. -/
def callHandler (env : Env) (type : EventType) (device : Nat) (s : State) (h : Handler) : State :=
  match h.func, h.pUserData with
  | .xbdPartitionHandler, _ => xbdPartitionHandler env s type device
  | .xbdPartitionEject, some (r, i) => xbdPartitionEject env s device r i
  | _, _ => s

/-- Hand an event to the handlers of its type.  Handlers that are registered meanwhile stand
before them in the list. -/
def erfProcess (env : Env) (type : EventType) (device : Nat) (s : State) : State :=
  (s.handlers type).foldl (callHandler env type device) s

inductive Label
  /-- A request through the XBD of a device. -/
  | strategy (device : Nat) (bios : List Bio)
  | dump (device lblkno nBytes : Nat)
  /-- `erfEventRaise` with `ERF_ASYNC_PROCESS`. -/
  | raise (type : EventType) (device : Nat)
  /-- `erfEventRaise` with any other kind of processing. -/
  | raiseSync (env : Env) (type : EventType) (device : Nat)
  /-- `erfTask` takes the next message. -/
  | erfTask (env : Env)

/-- The partition behind a device. -/
def State.viaOf (s : State) (device : Nat) : Option (Nat × Nat) :=
  match s.deviceAt device with
  | some (.part r i) => some (r, i)
  | _ => none

def logTransfers (s : State) (device : Nat) (ts : List (Nat × Nat × Nat)) : State :=
  { s with transfers := s.transfers ++ ts.map fun t => ⟨s.viaOf device, t.1, t.2.1, t.2.2⟩ }

def step (s : State) : Label → Option State
  | .strategy device bios =>
    some (logTransfers s device
      ((xbdStrategy s s.xbdDeviceList.length device bios).getD []))
  | .dump device lblkno nBytes =>
    some (logTransfers s device
      (xbdDump s s.xbdDeviceList.length device lblkno nBytes).toList)
  | .raise type device => some ((msgQSend s (.event type device)).getD s)
  | .raiseSync env type device => some (erfProcess env type device s)
  | .erfTask env =>
    match s.erfMsgQ with
    | [] => none
    | .event type device :: rest =>
      some (erfProcess env type device { s with erfMsgQ := rest })
    | .unregister type h :: rest => some (erfHandler { s with erfMsgQ := rest } type h)

/-- After `xbdPartitionLibInit`, with some disks attached and the handlers of file systems. -/
def init (maxXbds : Nat) (disks : List Disk) (others : EventType → List Nat) : State where
  xbdDeviceList := (List.range maxXbds).map fun d =>
    if d < disks.length then some (.disk d) else none
  disks := disks
  records := []
  handlers := fun type =>
    (if type = .primaryInsert then [⟨.xbdPartitionHandler, none⟩] else []) ++
      (others type).map fun n => ⟨.other n, none⟩
  erfMsgQ := []
  transfers := []
  calledFreed := false

end Vmx.Xbd
