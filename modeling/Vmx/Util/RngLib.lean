import Vmx.Lib.Ring

/-!
# `rngLib`: ring buffers

A ring of `bufferSize` slots holds at most `bufferSize - 1` elements: it is empty when
the two offsets are equal, and one slot stays unused so that a full ring is not taken
for an empty one.  Elements can be written ahead of the end (`rngPutAhead`) and become
visible later, all at once (`rngMoveAhead`).

`buffer` is the memory of the ring as a function of the offset.  The operations are
those on a ring that exists; for `NULL` the C functions return at once.  A block comes
with its length, so `nBytes` of `rngBufPut` is the length of the list.
-/

namespace Vmx.Rng

open Lib

universe u

variable {α : Type u}

/-- `RING`. -/
structure Ring (α : Type u) where
  offsetToBuffer : Nat
  offsetFromBuffer : Nat
  bufferSize : Nat
  buffer : Nat → α

/-- `memcpy` into the ring. -/
def copyIn (buffer : Nat → α) : Nat → List α → Nat → α
  | _, [] => buffer
  | offset, c :: bytes => copyIn (Function.update buffer offset c) (offset + 1) bytes

/-- `memcpy` out of the ring. -/
def copyOut (buffer : Nat → α) : Nat → Nat → List α
  | _, 0 => []
  | offset, nBytes + 1 => buffer offset :: copyOut buffer (offset + 1) nBytes

/-- `rngCreate`, when there is memory for it. -/
def rngCreate (memory : Nat → α) (size : Nat) : Ring α :=
  { offsetToBuffer := 0, offsetFromBuffer := 0, bufferSize := size + 1, buffer := memory }

/-- `rngFlush`. -/
def rngFlush (r : Ring α) : Ring α := { r with offsetToBuffer := 0, offsetFromBuffer := 0 }

/-- `rngElemGet`; `none` is `FALSE`. -/
def rngElemGet (r : Ring α) : Ring α × Option α :=
  let offset := r.offsetFromBuffer
  if r.offsetToBuffer = offset then (r, none)
  else
    let c := r.buffer offset
    let offset := offset + 1
    if offset = r.bufferSize then ({ r with offsetFromBuffer := 0 }, some c)
    else ({ r with offsetFromBuffer := offset }, some c)

/-- `rngElemPut`. -/
def rngElemPut (r : Ring α) (c : α) : Ring α × Bool :=
  let offset := r.offsetToBuffer
  if (offset : Int) = r.offsetFromBuffer - 1 then (r, false)
  else if (offset : Int) = r.bufferSize - 1 then
    if r.offsetFromBuffer = 0 then (r, false)
    else ({ r with buffer := Function.update r.buffer offset c, offsetToBuffer := 0 }, true)
  else
    ({ r with
        buffer := Function.update r.buffer offset c
        offsetToBuffer := r.offsetToBuffer + 1 }, true)

/-- `rngBufGet`, with the bytes that were read. -/
def rngBufGet (r : Ring α) (nBytes : Nat) : Ring α × List α :=
  let offsetToBuffer := r.offsetToBuffer
  if r.offsetFromBuffer ≤ offsetToBuffer then
    let bread := min nBytes (offsetToBuffer - r.offsetFromBuffer)
    ({ r with offsetFromBuffer := r.offsetFromBuffer + bread },
      copyOut r.buffer r.offsetFromBuffer bread)
  else
    let bread := min nBytes (r.bufferSize - r.offsetFromBuffer)
    let offsetTmp := r.offsetFromBuffer + bread
    if offsetTmp = r.bufferSize then
      let bytes := min (nBytes - bread) offsetToBuffer
      ({ r with offsetFromBuffer := bytes },
        copyOut r.buffer r.offsetFromBuffer bread ++ copyOut r.buffer 0 bytes)
    else
      ({ r with offsetFromBuffer := offsetTmp }, copyOut r.buffer r.offsetFromBuffer bread)

/-- `rngBufPut`, with the number of bytes written. -/
def rngBufPut (r : Ring α) (buffer : List α) : Ring α × Nat :=
  let nBytes := buffer.length
  let offsetFromBuffer := r.offsetFromBuffer
  if offsetFromBuffer > r.offsetToBuffer then
    let bwrote := min nBytes (offsetFromBuffer - r.offsetToBuffer - 1)
    ({ r with
        buffer := copyIn r.buffer r.offsetToBuffer (buffer.take bwrote)
        offsetToBuffer := r.offsetToBuffer + bwrote }, bwrote)
  else if offsetFromBuffer = 0 then
    let bwrote := min nBytes (r.bufferSize - r.offsetToBuffer - 1)
    ({ r with
        buffer := copyIn r.buffer r.offsetToBuffer (buffer.take bwrote)
        offsetToBuffer := r.offsetToBuffer + bwrote }, bwrote)
  else
    let bwrote := min nBytes (r.bufferSize - r.offsetToBuffer)
    let offsetTmp := r.offsetToBuffer + bwrote
    let m := copyIn r.buffer r.offsetToBuffer (buffer.take bwrote)
    if offsetTmp = r.bufferSize then
      let bytes := min (nBytes - bwrote) (offsetFromBuffer - 1)
      ({ r with
          buffer := copyIn m 0 ((buffer.drop bwrote).take bytes)
          offsetToBuffer := bytes }, bwrote + bytes)
    else
      ({ r with buffer := m, offsetToBuffer := offsetTmp }, bwrote)

/-- `rngIsEmpty`. -/
def rngIsEmpty (r : Ring α) : Bool := r.offsetToBuffer == r.offsetFromBuffer

/-- `rngIsFull`. -/
def rngIsFull (r : Ring α) : Bool :=
  let n : Int := r.offsetToBuffer - r.offsetFromBuffer + 1
  n == 0 || n == r.bufferSize

/-- `rngFreeBytes`. -/
def rngFreeBytes (r : Ring α) : Int :=
  let n : Int := r.offsetFromBuffer - r.offsetToBuffer - 1
  if n < 0 then n + r.bufferSize else n

/-- `rngNBytes`. -/
def rngNBytes (r : Ring α) : Int :=
  let n : Int := r.offsetToBuffer - r.offsetFromBuffer
  if n < 0 then n + r.bufferSize else n

/-- `rngPutAhead`. -/
def rngPutAhead (r : Ring α) (c : α) (offset : Nat) : Ring α :=
  let n := r.offsetToBuffer + offset
  let n := if n ≥ r.bufferSize then n - r.bufferSize else n
  { r with buffer := Function.update r.buffer n c }

/-- `rngMoveAhead`. -/
def rngMoveAhead (r : Ring α) (offset : Nat) : Ring α :=
  let offset := offset + r.offsetToBuffer
  let offset := if offset ≥ r.bufferSize then offset - r.bufferSize else offset
  { r with offsetToBuffer := offset }

/-! ## One byte at a time -/

/-- Bytes are put one by one, until there is no room. -/
def putEach (r : Ring α) : List α → Ring α × Nat
  | [] => (r, 0)
  | c :: bytes =>
    let put := rngElemPut r c
    if put.2 then
      let rest := putEach put.1 bytes
      (rest.1, rest.2 + 1)
    else (r, 0)

/-- Bytes are read one by one, until there are no more. -/
def getEach (r : Ring α) : Nat → Ring α × List α
  | 0 => (r, [])
  | nBytes + 1 =>
    match rngElemGet r with
    | (r', some c) =>
      let rest := getEach r' nBytes
      (rest.1, c :: rest.2)
    | (_, none) => (r, [])

/-! ## The machine -/

inductive Op (α : Type u) where
  | elemPut (c : α)
  | elemGet
  | bufPut (buffer : List α)
  | bufGet (nBytes : Nat)
  | flush
  | putAhead (c : α) (offset : Nat)
  | moveAhead (offset : Nat)

/-- What a call returns: a number, and the bytes that were read. -/
structure Result (α : Type u) where
  count : Nat
  bytes : List α
  deriving DecidableEq

/-- One call.  The offsets of the calls that write ahead are in the free space. -/
def step (r : Ring α) : Op α → Option (Ring α × Result α)
  | .elemPut c => some ((rngElemPut r c).1, ⟨(rngElemPut r c).2.toNat, []⟩)
  | .elemGet => some ((rngElemGet r).1, ⟨(rngElemGet r).2.toList.length, (rngElemGet r).2.toList⟩)
  | .bufPut buffer => some ((rngBufPut r buffer).1, ⟨(rngBufPut r buffer).2, []⟩)
  | .bufGet nBytes =>
    some ((rngBufGet r nBytes).1, ⟨(rngBufGet r nBytes).2.length, (rngBufGet r nBytes).2⟩)
  | .flush => some (rngFlush r, ⟨0, []⟩)
  | .putAhead c offset =>
    if (offset : Int) ≤ rngFreeBytes r then some (rngPutAhead r c offset, ⟨0, []⟩) else none
  | .moveAhead offset =>
    if (offset : Int) ≤ rngFreeBytes r then some (rngMoveAhead r offset, ⟨0, []⟩) else none

end Vmx.Rng
