import Vmx.Util.RngLib

/-!
# `tyLib`: typewriter devices

A device has a ring of bytes that were received and a ring of bytes to transmit.  In line mode
(`OPT_LINE`) the line that is edited is written ahead of the end of the read ring, behind a
byte for its length; when the line is complete the length is filled in and both become visible.

A call of `tyRead`, `tyWrite` or `tyIoctl` goes from one semaphore to the next, and interrupts
come in between: `tyIntRd` with a character, `tyIntTx` for one.  The operations of a ring are
one step.  A semaphore is full (`true`) or empty.  `txStartup` is the driver's; it makes the
transmitter call `tyIntTx`.
-/

namespace Vmx.Ty

open Rng hiding Ring

/-- `RING_ID`; a buffer for which there was no memory is `NULL`. -/
abbrev RingId := Option (Rng.Ring UInt8)

def OK : Int := 0
def ERROR : Int := -1

def OPT_ECHO : UInt16 := 0x01
def OPT_CRMOD : UInt16 := 0x02
def OPT_TANDEM : UInt16 := 0x04
def OPT_7_BIT : UInt16 := 0x08
def OPT_MON_TRAP : UInt16 := 0x10
def OPT_ABORT : UInt16 := 0x20
def OPT_LINE : UInt16 := 0x40

/-- `options & opt`. -/
def hasOpt (options opt : UInt16) : Bool := options &&& opt != 0

def XON : UInt8 := 0x11
def XOFF : UInt8 := 0x13

def tyXoffTreshold : Int := 80
def tyXonTreshold : Int := 100
def tyWriteTreshold : Int := 20

/-- The special characters. -/
structure Chars where
  tyAbortChar : UInt8 := 0x03
  tyBackSpaceChar : UInt8 := 0x08
  tyDeleteLineChar : UInt8 := 0x15
  tyEofChar : UInt8 := 0x04
  tyMonitorTrapChar : UInt8 := 0x18

structure ReadState where
  xoff : Bool := false
  pending : Bool := false
  canceled : Bool := false
  flushingReadBuffer : Bool := false

structure WriteState where
  busy : Bool := false
  xoff : Bool := false
  cr : Bool := false
  canceled : Bool := false
  flushingWriteBuffer : Bool := false
  writeBufferBusy : Bool := false

/-- `TY_DEV`. -/
structure TyDev where
  readBuffer : RingId
  readSync : Bool := false
  readState : ReadState := {}
  writeBuffer : RingId
  writeSync : Bool := false
  writeState : WriteState := {}
  lnNBytes : UInt8 := 0
  lnBytesLeft : UInt8 := 0
  options : UInt16 := 0

/-- `rngFreeBytes`, also of `NULL`. -/
def freeBytes (ringId : RingId) : Int :=
  match ringId with
  | none => 0
  | some ringId => rngFreeBytes ringId

/-- `rngIsEmpty`, also of `NULL`. -/
def isEmpty (ringId : RingId) : Bool :=
  match ringId with
  | none => true
  | some ringId => rngIsEmpty ringId

/-- `rngBufPut`, also to `NULL`. -/
def bufPut (ringId : RingId) (buffer : List UInt8) : RingId × Nat :=
  match ringId with
  | none => (none, 0)
  | some ringId => ((rngBufPut ringId buffer).1, (rngBufPut ringId buffer).2)

/-- `rngBufGet`, also of `NULL`. -/
def bufGet (ringId : RingId) (nBytes : Nat) : RingId × List UInt8 :=
  match ringId with
  | none => (none, [])
  | some ringId => ((rngBufGet ringId nBytes).1, (rngBufGet ringId nBytes).2)

/-- `RNG_ELEM_PUT` to a ring that exists. -/
def elemPut (ringId : RingId) (c : UInt8) : Option RingId :=
  ringId.map fun ringId => some (rngElemPut ringId c).1

/-- `rngCreate`, with the memory that it gets. -/
def ringCreate (memory : Option (Nat → UInt8)) (size : Nat) : RingId :=
  memory.map fun memory => rngCreate memory size

/-! ## Flow control -/

/-- `tyTxStartup`. -/
def tyTxStartup (tyId : TyDev) : TyDev := { tyId with writeState.busy := true }

/-- `tyReadXoff`. -/
def tyReadXoff (tyId : TyDev) (xoff : Bool) : TyDev :=
  if tyId.readState.xoff ≠ xoff then
    { tyId with readState.xoff := xoff, readState.pending := true, writeState.busy := true }
  else tyId

/-- `tyWriteXoff`. -/
def tyWriteXoff (tyId : TyDev) (xoff : Bool) : TyDev :=
  if tyId.writeState.xoff ≠ xoff then
    if xoff = false then { tyId with writeState.xoff := xoff, writeState.busy := true }
    else { tyId with writeState.xoff := xoff }
  else tyId

/-! ## Interrupts -/

/-- `tyIntTx`, with its status and the character. -/
def tyIntTx (tyId : TyDev) : Option (TyDev × Int × Option UInt8) :=
  let r : Option (TyDev × Option UInt8) :=
    if tyId.readState.pending then
      some ({ tyId with readState.pending := false },
        some (if tyId.readState.xoff then XOFF else XON))
    else if tyId.writeState.xoff ∨ tyId.writeState.flushingWriteBuffer then
      some ({ tyId with writeState.busy := false }, none)
    else if tyId.writeState.cr then some ({ tyId with writeState.cr := false }, some 10)
    else
      tyId.writeBuffer.map fun ringId =>
        match rngElemGet ringId with
        | (_, none) => ({ tyId with writeState.busy := false }, none)
        | (ringId, some c) =>
          let crmod := hasOpt tyId.options OPT_CRMOD ∧ c = 10
          let tyId :=
            { tyId with
              writeBuffer := some ringId
              writeState.busy := true
              writeState.cr := if crmod then true else tyId.writeState.cr }
          let tyId :=
            if rngFreeBytes ringId = tyWriteTreshold then { tyId with writeSync := true } else tyId
          (tyId, some (if crmod then 13 else c))
  r.map fun r => (r.1, if r.1.writeState.busy then OK else ERROR, r.2)

/-- The echo of `tyIntRd`; `char` is signed. -/
def tyEcho (chars : Chars) (tyId : TyDev) (c : UInt8) : Option TyDev :=
  let options := tyId.options
  if hasOpt options OPT_ECHO ∧ tyId.writeState.writeBufferBusy = false ∧
      tyId.writeState.flushingWriteBuffer = false then
    let ringId := tyId.writeBuffer
    let echo (r : Option RingId) : Option TyDev :=
      r.map fun ringId => tyTxStartup { tyId with writeBuffer := ringId }
    if hasOpt options OPT_LINE then
      if c = chars.tyDeleteLineChar then echo (elemPut ringId 10)
      else if c = chars.tyBackSpaceChar then
        if tyId.lnNBytes ≠ 0 then echo (some (bufPut ringId [8, 32, 8]).1) else some tyId
      else if (c < 0x20 ∨ 0x80 ≤ c) ∧ c ≠ 10 then
        echo ((elemPut ringId 94).bind fun ringId => elemPut ringId (c + 64))
      else echo (elemPut ringId c)
    else echo (elemPut ringId c)
  else some tyId

/-- A character of `tyIntRd` in line mode, with the status and `releaseTaskLevel`. -/
def tyLineChar (chars : Chars) (tyId : TyDev) (c : UInt8) : TyDev × Int × Bool :=
  let free := freeBytes tyId.readBuffer
  if c = chars.tyBackSpaceChar then
    if tyId.lnNBytes ≠ 0 then ({ tyId with lnNBytes := tyId.lnNBytes - 1 }, OK, false)
    else (tyId, OK, false)
  else if c = chars.tyDeleteLineChar then ({ tyId with lnNBytes := 0 }, OK, false)
  else if c = chars.tyEofChar then (tyId, OK, decide (0 < free))
  else if 2 ≤ free then
    let room := (tyId.lnNBytes.toNat : Int) + 2 ≤ free
    let lnNBytes := if room then tyId.lnNBytes + 1 else tyId.lnNBytes
    let status := if room then OK else ERROR
    ({ tyId with
        lnNBytes := lnNBytes
        readBuffer := tyId.readBuffer.map fun ringId => rngPutAhead ringId c lnNBytes.toNat },
      status, c = 10 || lnNBytes = 255)
  else (tyId, ERROR, false)

/-- The line that is edited becomes visible. -/
def tyLineRelease (tyId : TyDev) : TyDev :=
  { tyId with
    readBuffer := tyId.readBuffer.map fun ringId =>
      rngMoveAhead (rngPutAhead ringId tyId.lnNBytes 0) (tyId.lnNBytes.toNat + 1)
    lnNBytes := 0 }

/-- `tyIntRd` puts a character in the read buffer. -/
def tyPutChar (chars : Chars) (tyId : TyDev) (c : UInt8) : Option (TyDev × Int × Bool) :=
  if hasOpt tyId.options OPT_LINE then
    let r := tyLineChar chars tyId c
    some (if r.2.2 then tyLineRelease r.1 else r.1, r.2)
  else
    tyId.readBuffer.map fun ringId =>
      let put := rngElemPut ringId c
      ({ tyId with readBuffer := some put.1 }, if put.2 then OK else ERROR,
        decide (rngNBytes put.1 = 1))

/-- The room of the read buffer, less the line that is edited. -/
def readRoom (tyId : TyDev) : Int :=
  if hasOpt tyId.options OPT_LINE then freeBytes tyId.readBuffer - (tyId.lnNBytes.toNat + 1)
  else freeBytes tyId.readBuffer

/-- The check for xon and xoff of `tyIntRd`. -/
def tyTandem (tyId : TyDev) : TyDev :=
  if hasOpt tyId.options OPT_TANDEM then
    if tyId.readState.xoff = false then
      if readRoom tyId < tyXoffTreshold then tyReadXoff tyId true else tyId
    else if readRoom tyId > tyXonTreshold then tyReadXoff tyId false
    else tyId
  else tyId

/-- `tyIntRd`, with its status.  `hookRv` is what the protocol hook returns; the abort function
and the reboot are not part of the device. -/
def tyIntRd (chars : Chars) (hookRv : Bool) (tyId : TyDev) (c : UInt8) : Option (TyDev × Int) :=
  let options := tyId.options
  if tyId.readState.flushingReadBuffer then some (tyId, ERROR)
  else if hookRv then some (tyId, OK)
  else
    let c := if hasOpt options OPT_7_BIT then c &&& 0x7f else c
    if c = chars.tyAbortChar ∧ hasOpt options OPT_ABORT then some (tyId, OK)
    else if c = chars.tyMonitorTrapChar ∧ hasOpt options OPT_MON_TRAP then some (tyId, OK)
    else if c = XOFF ∧ hasOpt options OPT_TANDEM then some (tyWriteXoff tyId true, OK)
    else
      let c := if hasOpt options OPT_CRMOD ∧ c = 13 then 10 else c
      (tyEcho chars tyId c).bind fun tyId =>
        (tyPutChar chars tyId c).map fun r =>
          let tyId := tyTandem r.1
          (if r.2.2 then { tyId with readSync := true } else tyId, r.2.1)

/-! ## Flushing -/

/-- `tyFlushRead`, from `rngFlush` on. -/
def tyFlushRead (tyId : TyDev) : TyDev :=
  { tyReadXoff
      { tyId with
        readBuffer := tyId.readBuffer.map rngFlush
        readSync := false
        lnNBytes := 0
        lnBytesLeft := 0 } false with
    readState.flushingReadBuffer := false }

/-- `tyFlushWrite`, from `rngFlush` on. -/
def tyFlushWrite (tyId : TyDev) : TyDev :=
  { tyId with
    writeBuffer := tyId.writeBuffer.map rngFlush
    writeSync := true
    writeState.flushingWriteBuffer := false }

/-- `tyDevInit`, when there is memory. -/
def tyDevInit (readMemory writeMemory : Nat → UInt8) (readBufferSize writeBufferSize : Nat) :
    TyDev :=
  tyFlushWrite (tyFlushRead
    { readBuffer := some (rngCreate readMemory readBufferSize)
      writeBuffer := some (rngCreate writeMemory writeBufferSize) })

/-! ## Calls -/

/-- A call of a task, when it does not have the mutex. -/
inductive Call where
  | done
  /-- A write is over. -/
  | wrote (buffer : List UInt8)
  /-- The call has the mutex. -/
  | inside
  | read (nBytes : Nat)
  /-- A read has taken `readSync`. -/
  | readSynced (nBytes : Nat)
  /-- A write of a buffer of which `put` bytes are in the ring. -/
  | write (buffer : List UInt8) (put : Nat)
  /-- A write has taken `writeSync`. -/
  | writeSynced (buffer : List UInt8) (put : Nat)
  | setOptions (arg : UInt16)
  /-- `tyFlushRead`, when the options were `old` after they have changed. -/
  | flushRead (old : Option UInt16)
  /-- The end of `FIOSETOPTIONS`. -/
  | setTandem (old : UInt16)
  | flushWrite
  | rdBufSet (memory : Option (Nat → UInt8)) (size : Nat)
  | wrtBufSet (memory : Option (Nat → UInt8)) (size : Nat)

/-- A call, when it has the mutex. -/
inductive Section where
  | readBuf (nBytes : Nat)
  /-- `lnBytesLeft` is known. -/
  | readLine (nBytes : Nat)
  /-- `n` bytes of the record are read, but not yet counted. -/
  | readLeft (n : Nat)
  | readEnd
  | writeBuf (buffer : List UInt8) (put : Nat)
  /-- `writeBufferBusy` is set. -/
  | writeBusy (buffer : List UInt8) (put : Nat)
  | writeMore (buffer : List UInt8) (put : Nat)
  | flushRead (old : Option UInt16)
  | flushWrite
  | rdBufSet (memory : Option (Nat → UInt8)) (size : Nat)
  | wrtBufSet (memory : Option (Nat → UInt8)) (size : Nat)

/-- What a task asks for. -/
inductive Request where
  | read (nBytes : Nat)
  | write (buffer : List UInt8)
  | flushRead
  | flushWrite
  | setOptions (arg : UInt16)
  | rdBufSet (memory : Option (Nat → UInt8)) (size : Nat)
  | wrtBufSet (memory : Option (Nat → UInt8)) (size : Nat)

def Request.call : Request → Call
  | read nBytes => .read nBytes
  | write buffer => .write buffer 0
  | flushRead => .flushRead none
  | flushWrite => .flushWrite
  | setOptions arg => .setOptions arg
  | rdBufSet memory size => .rdBufSet memory size
  | wrtBufSet memory size => .wrtBufSet memory size

/-- A device, the call that has its mutex, and all calls.

The other fields are ghosts: the line that is edited, the lines that were completed and the
bytes of them that were delivered since the read buffer was last emptied, and every byte that
was put in the write buffer, with the number of its call. -/
structure State where
  dev : TyDev
  mutex : Option (Nat × Section) := none
  calls : List Call := []
  line : List UInt8 := []
  completed : List (List UInt8) := []
  delivered : List UInt8 := []
  puts : List (Nat × UInt8) := []

inductive Op where
  | start (request : Request)
  /-- A call that does not have the mutex goes on. -/
  | task (i : Nat)
  /-- The call that has the mutex goes on. -/
  | owner
  | intRd (hookRv : Bool) (c : UInt8)
  | intTx

/-- A call goes on without the mutex. -/
def State.goOn (s : State) (i : Nat) (dev : TyDev) (call : Call) : State :=
  { s with dev := dev, calls := s.calls.set i call }

/-- A call takes the mutex. -/
def State.enter (s : State) (i : Nat) (dev : TyDev) (sec : Section) : Option State :=
  if s.mutex = none then
    some { s with dev := dev, mutex := some (i, sec), calls := s.calls.set i .inside }
  else none

/-- A call gives the mutex back. -/
def State.leave (s : State) (i : Nat) (dev : TyDev) (call : Call) : State :=
  { s with dev := dev, mutex := none, calls := s.calls.set i call }

/-- The read buffer is empty, and no line is edited. -/
def State.emptied (s : State) : State := { s with line := [], completed := [], delivered := [] }

/-- A call starts. -/
def startStep (s : State) (request : Request) : State :=
  let dev : TyDev :=
    match request with
    | .read _ => { s.dev with readState.canceled := false }
    | .write _ => { s.dev with writeState.canceled := false }
    | _ => s.dev
  { s with dev := dev, calls := s.calls ++ [request.call] }

/-- The end of `FIOSETOPTIONS`. -/
def tySetTandem (tyId : TyDev) (old : UInt16) : TyDev :=
  if hasOpt old OPT_TANDEM ∧ hasOpt tyId.options OPT_TANDEM = false then
    tyWriteXoff (tyReadXoff tyId false) false
  else tyId

/-- A call goes on that does not have the mutex. -/
def taskStep (s : State) (i : Nat) : Option State :=
  match s.calls[i]? with
  | some (.read nBytes) =>
    if s.dev.readSync then
      some (s.goOn i { s.dev with readSync := false } (.readSynced nBytes))
    else none
  | some (.readSynced nBytes) =>
    if s.dev.readState.canceled ∨ isEmpty s.dev.readBuffer then
      if s.mutex = none then
        some (s.goOn i s.dev (if s.dev.readState.canceled then .done else .read nBytes))
      else none
    else s.enter i s.dev (.readBuf nBytes)
  | some (.write buffer put) =>
    if buffer.length ≤ put then some (s.goOn i s.dev (.wrote buffer))
    else if s.dev.writeSync then
      some (s.goOn i { s.dev with writeSync := false } (.writeSynced buffer put))
    else none
  | some (.writeSynced buffer put) =>
    if s.dev.writeState.canceled then
      if s.mutex = none then some (s.goOn i s.dev .done) else none
    else s.enter i s.dev (.writeBuf buffer put)
  | some (.setOptions arg) =>
    let old := s.dev.options
    some (s.goOn i { s.dev with options := arg }
      (if hasOpt old OPT_LINE ≠ hasOpt arg OPT_LINE then .flushRead (some old)
        else .setTandem old))
  | some (.flushRead old) =>
    s.enter i { s.dev with readState.flushingReadBuffer := true } (.flushRead old)
  | some (.setTandem old) => some (s.goOn i (tySetTandem s.dev old) .done)
  | some .flushWrite =>
    s.enter i { s.dev with writeState.flushingWriteBuffer := true } .flushWrite
  | some (.rdBufSet memory size) =>
    s.enter i { s.dev with readState.flushingReadBuffer := true } (.rdBufSet memory size)
  | some (.wrtBufSet memory size) =>
    s.enter i { s.dev with writeState.flushingWriteBuffer := true } (.wrtBufSet memory size)
  | _ => none

/-- The end of `tyRead`: the check for xon, and whether there is more to read. -/
def tyReadEnd (tyId : TyDev) : TyDev :=
  let tyId :=
    if hasOpt tyId.options OPT_TANDEM ∧ tyId.readState.xoff ∧ readRoom tyId > tyXonTreshold then
      tyReadXoff tyId false
    else tyId
  if isEmpty tyId.readBuffer = false then { tyId with readSync := true } else tyId

/-- The call that has the mutex goes on. -/
def ownerStep (s : State) : Option State :=
  match s.mutex with
  | none => none
  | some (i, sec) =>
    match sec with
    | .readBuf nBytes =>
      if hasOpt s.dev.options OPT_LINE then
        if s.dev.lnBytesLeft = 0 then
          s.dev.readBuffer.map fun ringId =>
            let r := rngElemGet ringId
            let dev :=
              { s.dev with readBuffer := some r.1, lnBytesLeft := r.2.getD s.dev.lnBytesLeft }
            { s with dev := dev, mutex := some (i, .readLine nBytes) }
        else some { s with mutex := some (i, .readLine nBytes) }
      else
        let r := bufGet s.dev.readBuffer nBytes
        some { s with dev := { s.dev with readBuffer := r.1 }, mutex := some (i, .readEnd) }
    | .readLine nBytes =>
      let n := min s.dev.lnBytesLeft.toNat nBytes
      let r := bufGet s.dev.readBuffer n
      some { s with
        dev := { s.dev with readBuffer := r.1 }
        mutex := some (i, .readLeft n)
        delivered := s.delivered ++ r.2 }
    | .readLeft n =>
      some { s with
        dev := { s.dev with lnBytesLeft := s.dev.lnBytesLeft - UInt8.ofNat n }
        mutex := some (i, .readEnd) }
    | .readEnd => some (s.leave i (tyReadEnd s.dev) .done)
    | .writeBuf buffer put =>
      some { s with
        dev := { s.dev with writeState.writeBufferBusy := true }
        mutex := some (i, .writeBusy buffer put) }
    | .writeBusy buffer put =>
      let r := bufPut s.dev.writeBuffer (buffer.drop put)
      let dev := tyTxStartup
        { s.dev with writeBuffer := r.1, writeState.writeBufferBusy := false }
      some { s with
        dev := dev
        mutex := some (i, .writeMore buffer (put + r.2))
        puts := s.puts ++ ((buffer.drop put).take r.2).map fun c => (i, c) }
    | .writeMore buffer put =>
      let dev :=
        if 0 < freeBytes s.dev.writeBuffer then { s.dev with writeSync := true } else s.dev
      some (s.leave i dev (.write buffer put))
    | .flushRead old =>
      some (s.emptied.leave i (tyFlushRead s.dev) ((old.map Call.setTandem).getD .done))
    | .flushWrite => some (s.leave i (tyFlushWrite s.dev) .done)
    | .rdBufSet memory size =>
      let dev :=
        { s.dev with
          readBuffer := ringCreate memory size, readState.flushingReadBuffer := false }
      some (s.emptied.leave i dev .done)
    | .wrtBufSet memory size =>
      let dev :=
        { s.dev with
          writeBuffer := ringCreate memory size, writeState.flushingWriteBuffer := false }
      some (s.leave i dev .done)

/-! ## The line discipline -/

/-- The character that `tyIntRd` puts in the read buffer, if it gets that far. -/
def tyReaches (chars : Chars) (hookRv : Bool) (tyId : TyDev) (c : UInt8) : Option UInt8 :=
  let c' := if hasOpt tyId.options OPT_7_BIT then c &&& 0x7f else c
  if tyId.readState.flushingReadBuffer ∨ hookRv then none
  else if c' = chars.tyAbortChar ∧ hasOpt tyId.options OPT_ABORT then none
  else if c' = chars.tyMonitorTrapChar ∧ hasOpt tyId.options OPT_MON_TRAP then none
  else if c' = XOFF ∧ hasOpt tyId.options OPT_TANDEM then none
  else some (if hasOpt tyId.options OPT_CRMOD ∧ c' = 13 then 10 else c')

/-- The line after a character, and whether it is complete.  Backspace deletes a character, and
the delete character the line.  A character for which there is no room takes the place of the
last one, or is dropped. -/
def editLine (chars : Chars) (free : Int) (line : List UInt8) (c : UInt8) : List UInt8 × Bool :=
  if c = chars.tyBackSpaceChar then (line.dropLast, false)
  else if c = chars.tyDeleteLineChar then ([], false)
  else if c = chars.tyEofChar then (line, decide (0 < free))
  else if 2 ≤ free then
    let line := if (line.length : Int) + 2 ≤ free then line ++ [c] else line.dropLast ++ [c]
    (line, c = 10 || line.length = 255)
  else (line, false)

/-- A character reaches the line. -/
def State.edit (s : State) (chars : Chars) (hookRv : Bool) (c : UInt8) : State :=
  match tyReaches chars hookRv s.dev c with
  | none => s
  | some c =>
    if hasOpt s.dev.options OPT_LINE then
      let r := editLine chars (freeBytes s.dev.readBuffer) s.line c
      if r.2 then { s with line := [], completed := s.completed ++ [r.1] }
      else { s with line := r.1 }
    else s

/-! ## The machine -/

/-- One step. -/
def step (chars : Chars) (s : State) : Op → Option State
  | .start request => some (startStep s request)
  | .task i => taskStep s i
  | .owner => ownerStep s
  | .intRd hookRv c =>
    (tyIntRd chars hookRv s.dev c).map fun r => { s.edit chars hookRv c with dev := r.1 }
  | .intTx => (tyIntTx s.dev).map fun r => { s with dev := r.1 }

/-- A device that has just been made. -/
def opened (readMemory writeMemory : Nat → UInt8) (readBufferSize writeBufferSize : Nat) : State :=
  { dev := tyDevInit readMemory writeMemory readBufferSize writeBufferSize }

end Vmx.Ty
