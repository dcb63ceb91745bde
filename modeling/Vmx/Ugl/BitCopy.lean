import Mathlib.Algebra.Order.Ring.Int
import Mathlib.Logic.Function.Basic

/-!
# `udcbcopy`: bytes and bits combined by a raster operation

The memory is one address space of bytes, in which the source and the destination may
overlap.  Bit 0 of a byte is its most significant bit.

`uglCommonBitCopy` has four paths: up or down through the memory, and with the same bit
offset in both ranges or not.  Each path has masked bits at its start and at its end and
whole bytes between them.  The switches over the raster operation are `RasterOp.put`, for the
bits of a mask, and `RasterOp.all` for whole bytes.  Arithmetic on a byte is cut to 8 bits
where the source casts or assigns it.
-/

namespace Vmx.Ugl

abbrev Memory := Int → BitVec 8

/-- `UGL_RASTER_OP`. -/
inductive RasterOp where
  | COPY
  | AND
  | OR
  | XOR
  deriving DecidableEq

namespace RasterOp

/-- The destination byte, with the bits of the mask combined with the value. -/
def put : RasterOp → BitVec 8 → BitVec 8 → BitVec 8 → BitVec 8
  | COPY, mask, dest, value => (dest &&& ~~~mask) ||| (value &&& mask)
  | AND, mask, dest, value => dest &&& (value ||| ~~~mask)
  | OR, mask, dest, value => dest ||| (value &&& mask)
  | XOR, mask, dest, value => dest ^^^ (value &&& mask)

/-- The destination byte, combined with the value. -/
def all : RasterOp → BitVec 8 → BitVec 8 → BitVec 8
  | COPY, _, value => value
  | AND, dest, value => dest &&& value
  | OR, dest, value => dest ||| value
  | XOR, dest, value => dest ^^^ value

/-- The operation on one bit. -/
def bit : RasterOp → Bool → Bool → Bool
  | COPY, _, value => value
  | AND, dest, value => dest && value
  | OR, dest, value => dest || value
  | XOR, dest, value => dest ^^ value

end RasterOp

/-! ## Bytes -/

/-- `memcpy`. -/
def memcpy : Nat → Memory → Int → Int → Memory
  | 0, mem, _, _ => mem
  | size + 1, mem, dest, src =>
    memcpy size (Function.update mem dest (mem src)) (dest + 1) (src + 1)

/-- The forward loops of `uglCommonByteCopy`. -/
def byteForward (op : RasterOp) : Nat → Memory → Int → Int → Memory
  | 0, mem, _, _ => mem
  | count + 1, mem, src, dest =>
    byteForward op count (Function.update mem dest (op.all (mem dest) (mem src)))
      (src + 1) (dest + 1)

/-- The backward loops of `uglCommonByteCopy`, from the ends of the ranges. -/
def byteBackward (op : RasterOp) : Nat → Memory → Int → Int → Memory
  | 0, mem, _, _ => mem
  | count + 1, mem, src, dest =>
    byteBackward op count
      (Function.update mem (dest - 1) (op.all (mem (dest - 1)) (mem (src - 1))))
      (src - 1) (dest - 1)

/-- `uglCommonByteCopy`. -/
def uglCommonByteCopy (mem : Memory) (pSrc pDest : Int) (nBytes : Nat) (rasterOp : RasterOp) :
    Memory :=
  if rasterOp = .COPY then memcpy nBytes mem pDest pSrc
  else
    let sz := Int.bmod (pDest - pSrc) 4294967296
    if sz ≤ 0 ∨ sz ≥ nBytes then byteForward rasterOp nBytes mem pSrc pDest
    else byteBackward rasterOp nBytes mem (pSrc + nBytes) (pDest + nBytes)

/-! ## Bits -/

/-- The variables of a path. -/
structure Cursor where
  mem : Memory
  src : Int
  dest : Int
  count : Nat
  value1 : BitVec 8

namespace Cursor

/-- The bits of the mask in the byte at `dest`. -/
def put (op : RasterOp) (mask value : BitVec 8) (c : Cursor) : Memory :=
  Function.update c.mem c.dest (op.put mask (c.mem c.dest) value)

end Cursor

/-- The mask of the start bits, and the bits left. -/
def startMask (off count : Nat) : BitVec 8 × Nat :=
  if count + off < 8 then ((0xff#8 >>> off) &&& (0xff#8 <<< (8 - off - count)), 0)
  else (0xff#8 >>> off, count - (8 - off))

/-- The mask of the end bits, and the bits left. -/
def endMask (endBits count : Nat) : BitVec 8 × Nat :=
  if endBits > count then
    ((0xff#8 <<< (8 - endBits)) &&& (0xff#8 >>> (endBits - count)), 0)
  else (0xff#8 <<< (8 - endBits), count - endBits)

/-- The number of bits in the last byte of a range. -/
def endBits (off count : Nat) : Nat :=
  if (off + count) % 8 = 0 then 8 else (off + count) % 8

/-- The start bits going up with one bit offset. -/
def alignedStart (op : RasterOp) (off : Nat) (c : Cursor) : Cursor :=
  if off > 0 then
    { c with
      mem := c.put op (startMask off c.count).1 (c.mem c.src)
      src := c.src + 1
      dest := c.dest + 1
      count := (startMask off c.count).2 }
  else c

/-- The whole bytes going up with one bit offset. -/
def alignedBytes (op : RasterOp) (c : Cursor) : Cursor :=
  if c.count ≥ 8 then
    { c with
      mem := uglCommonByteCopy c.mem c.src c.dest (c.count / 8) op
      src := c.src + (c.count / 8 : Nat)
      dest := c.dest + (c.count / 8 : Nat)
      count := c.count % 8 }
  else c

/-- The bits left over, at the top of a byte. -/
def alignedRest (op : RasterOp) (c : Cursor) : Memory :=
  if c.count > 0 then c.put op (0xff#8 <<< (8 - c.count)) (c.mem c.src) else c.mem

/-- The forward path for one bit offset. -/
def forwardAligned (op : RasterOp) (off : Nat) (c : Cursor) : Memory :=
  alignedRest op (alignedBytes op (alignedStart op off c))

/-- The end bits going down with one bit offset. -/
def alignedEnd (op : RasterOp) (off : Nat) (c : Cursor) : Cursor :=
  { c with
    mem := c.put op (endMask (endBits off c.count) c.count).1 (c.mem c.src)
    src := c.src - 1
    dest := c.dest - 1
    count := (endMask (endBits off c.count) c.count).2 }

/-- The whole bytes going down with one bit offset: the start is found from a count of
bits. -/
def alignedBytesDown (op : RasterOp) (c : Cursor) : Cursor :=
  if c.count ≥ 8 then
    { c with
      mem := uglCommonByteCopy c.mem (c.src - c.count + 1) (c.dest - c.count + 1)
        (c.count / 8) op
      src := c.src - (c.count / 8 : Nat)
      dest := c.dest - (c.count / 8 : Nat)
      count := c.count % 8 }
  else c

/-- The backward path for one bit offset.  The bits left over are masked as going up. -/
def backwardAligned (op : RasterOp) (off : Nat) (c : Cursor) : Memory :=
  alignedRest op (alignedBytesDown op (alignedEnd op off c))

/-- The start bits going up with two bit offsets. -/
def shiftedStart (op : RasterOp) (srcOff destOff : Nat) (c : Cursor) : Cursor :=
  let mask := startMask destOff c.count
  let value := if destOff > srcOff then c.mem c.src >>> (destOff - srcOff)
    else (c.mem c.src <<< (srcOff - destOff)) |||
      (c.mem (c.src + 1) >>> (8 - (srcOff - destOff)))
  let src := if destOff > srcOff then c.src else c.src + 1
  let mem := c.put op mask.1 value
  { mem := mem, src := src + 1, dest := c.dest + 1, count := mask.2, value1 := mem src }

/-- `leftShift` going up. -/
def leftShift (srcOff destOff : Nat) : Nat :=
  if destOff > srcOff then 8 - (destOff - srcOff) else srcOff - destOff

/-- The rounds of `while (count >= 8)` going up. -/
def shiftedBytes (op : RasterOp) (left : Nat) : Nat → Cursor → Cursor
  | 0, c => c
  | n + 1, c =>
    shiftedBytes op left n
      { mem := Function.update c.mem c.dest (op.all (c.mem c.dest)
          ((c.mem c.src >>> (8 - left)) ||| (c.value1 <<< left)))
        src := c.src + 1
        dest := c.dest + 1
        count := c.count - 8
        value1 := c.mem c.src }

/-- The end bits going up. -/
def shiftedRest (op : RasterOp) (left : Nat) (c : Cursor) : Memory :=
  if c.count > 0 then
    c.put op (0xff#8 <<< (8 - c.count))
      ((c.value1 <<< left) ||| (c.mem c.src >>> (8 - left)))
  else c.mem

/-- The forward path for two bit offsets. -/
def forwardShifted (op : RasterOp) (srcOff destOff : Nat) (c : Cursor) : Memory :=
  let left := leftShift srcOff destOff
  let c := shiftedStart op srcOff destOff c
  shiftedRest op left (shiftedBytes op left (c.count / 8) c)

/-- The end bits going down with two bit offsets. -/
def shiftedEnd (op : RasterOp) (srcEndBits destEndBits : Nat) (c : Cursor) : Cursor :=
  let mask := endMask destEndBits c.count
  let value := if destEndBits > srcEndBits then
      (c.mem c.src >>> (destEndBits - srcEndBits)) |||
        (c.mem (c.src - 1) <<< (8 - (destEndBits - srcEndBits)))
    else c.mem c.src <<< (srcEndBits - destEndBits)
  let src := if destEndBits > srcEndBits then c.src - 1 else c.src
  let mem := c.put op mask.1 value
  { mem := mem, src := src - 1, dest := c.dest - 1, count := mask.2, value1 := mem src }

/-- `rightShift` going down. -/
def rightShift (srcEndBits destEndBits : Nat) : Nat :=
  if destEndBits > srcEndBits then destEndBits - srcEndBits
  else 8 - (srcEndBits - destEndBits)

/-- The rounds of `while (count >= 8)` going down. -/
def shiftedBytesDown (op : RasterOp) (right : Nat) : Nat → Cursor → Cursor
  | 0, c => c
  | n + 1, c =>
    shiftedBytesDown op right n
      { mem := Function.update c.mem c.dest (op.all (c.mem c.dest)
          ((c.mem c.src <<< (8 - right)) ||| (c.value1 >>> right)))
        src := c.src - 1
        dest := c.dest - 1
        count := c.count - 8
        value1 := c.mem c.src }

/-- The start bits going down. -/
def shiftedRestDown (op : RasterOp) (right : Nat) (c : Cursor) : Memory :=
  if c.count > 0 then
    c.put op (0xff#8 >>> (8 - c.count))
      ((c.value1 >>> right) ||| (c.mem c.src <<< (8 - right)))
  else c.mem

/-- The backward path for two bit offsets. -/
def backwardShifted (op : RasterOp) (srcOff destOff : Nat) (c : Cursor) : Memory :=
  let srcEndBits := endBits srcOff c.count
  let destEndBits := endBits destOff c.count
  let right := rightShift srcEndBits destEndBits
  let c := shiftedEnd op srcEndBits destEndBits c
  shiftedRestDown op right (shiftedBytesDown op right (c.count / 8) c)

/-- The test for the forward copy. -/
def isForward (pSrc : Int) (srcOff : Nat) (pDest : Int) (destOff : Nat) (nBits : Int) : Prop :=
  pSrc > pDest ∨ (pSrc = pDest ∧ srcOff > destOff) ∨
    (pDest - pSrc) * 8 % 4294967296 > (nBits + 31) % 4294967296

instance (pSrc : Int) (srcOff : Nat) (pDest : Int) (destOff : Nat) (nBits : Int) :
    Decidable (isForward pSrc srcOff pDest destOff nBits) :=
  inferInstanceAs (Decidable (_ ∨ _))

/-- `uglCommonBitCopy`. -/
def uglCommonBitCopy (mem : Memory) (pSrc srcBitOffset pDest destBitOffset nBits : Int)
    (rasterOp : RasterOp) : Memory :=
  if nBits ≤ 0 then mem
  else
    let count := nBits.toNat
    let pSrcStart := pSrc + srcBitOffset / 8
    let srcOff := (srcBitOffset % 8).toNat
    let pDestStart := pDest + destBitOffset / 8
    let destOff := (destBitOffset % 8).toNat
    if isForward pSrc srcOff pDest destOff nBits then
      let c : Cursor := ⟨mem, pSrcStart, pDestStart, count, 0⟩
      if srcOff = destOff then forwardAligned rasterOp destOff c
      else forwardShifted rasterOp srcOff destOff c
    else
      let c : Cursor := ⟨mem, pSrcStart + ((srcOff + count - 1) / 8 : Nat),
        pDestStart + ((destOff + count - 1) / 8 : Nat), count, 0⟩
      if srcOff = destOff then backwardAligned rasterOp destOff c
      else backwardShifted rasterOp srcOff destOff c

end Vmx.Ugl
