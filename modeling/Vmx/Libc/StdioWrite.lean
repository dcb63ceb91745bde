import Mathlib.Data.List.Basic
import Vmx.Lib.Transition

/-!
# `stdioLib`, `fwrite`, `putc`, `fflush`: a stream that is written

A pointer into the buffer is an offset.  The stream is never read, so what its calls do for a
stream in read mode is left out.

The driver takes bytes from two places of the library: `__sflush` writes the buffer, and
`__sfvwrite` writes the bytes of its caller.  `flushes` and `directs` are the results of the two, in
order: how many bytes a write takes at the most, and `none` when it fails.  `none` as the result of
a call means that it reads or writes outside the buffer, or that a flush makes more than `patience`
writes.
-/

namespace Vmx.StdioOut

def BUFSIZ : Nat := 1024

/-- The `FILE` of a stream that is written, and the driver behind it. -/
structure File where
  p : Nat
  w : Int
  lbfsize : Int
  /-- Flag `__SWR`. -/
  swr : Bool
  /-- Flag `__SLBF`. -/
  slbf : Bool
  /-- Flag `__SNBF`. -/
  snbf : Bool
  /-- Flag `__SERR`. -/
  serr : Bool
  /-- The buffer, `none` for `NULL`. -/
  bf : Option (List UInt8)
  /-- The size of the buffer that `__smakebuf` makes, and whether there is memory for it. -/
  blksize : Nat
  memory : Bool
  tty : Bool
  /-- The bytes that the driver has taken. -/
  sent : List UInt8
  flushes : Nat → Option Nat
  directs : Nat → Option Nat
  nextFlush : Nat
  nextDirect : Nat
  /-- Ghost: how many writes a flush may make. -/
  patience : Nat
  /-- Ghost: the writes that have taken nothing. -/
  failures : Nat

namespace File

variable (s : File)

def size : Nat := (s.bf.getD []).length

/-! ## Buffers -/

/-- `__smakebuf`. -/
def smakebuf : File :=
  if s.snbf then { s with bf := some [0], p := 0 }
  else if s.memory then
    { s with bf := some (List.replicate s.blksize 0), p := 0, slbf := s.slbf || s.tty }
  else { s with snbf := true, bf := some [0], p := 0 }

/-- `__swsetup` of a stream without a buffer. -/
def swsetup : File :=
  let s := s.smakebuf
  if s.slbf then { s with w := 0, lbfsize := -s.size }
  else if s.snbf then { s with w := 0 }
  else { s with w := s.size }

/-- `CANTWRITE`: `none` when it is so, and else the stream with a buffer. -/
def canwrite : Option File :=
  if !s.swr then none else if s.bf = none then some s.swsetup else some s

/-- `memcpy` to `_p`, which goes on. -/
def copyIn (bytes : List UInt8) : Option File :=
  match s.bf with
  | none => none
  | some b =>
    if s.p + bytes.length ≤ b.length then
      some { s with
        bf := some (b.take s.p ++ bytes ++ b.drop (s.p + bytes.length))
        p := s.p + bytes.length }
    else none

inductive Mode
  | full
  | line
  | none

/-- `setvbuf` before the first output, with the bytes of the buffer that it is given. -/
def setvbuf (mode : Mode) (buf : Option (List UInt8)) (size : Nat) : File :=
  match mode with
  | .none => { s with slbf := false, snbf := true, lbfsize := 0, bf := some [0], p := 0, w := 0 }
  | .line => { s with slbf := true, snbf := false, lbfsize := -size, bf := buf, p := 0, w := 0 }
  | .full => { s with slbf := false, snbf := false, lbfsize := 0, bf := buf, p := 0, w := size }

/-! ## Flushing -/

/-- The loop of `__sflush`: `n` bytes from `p` on are to be written, and `rv` says whether every
write has taken something.  A write that fails is `-1`, by which the loop goes back. -/
def flushLoop : Nat → File → Nat → Nat → Bool → Option (Bool × File)
  | 0, _, _, _, _ => none
  | fuel + 1, s, p, n, rv =>
    if n = 0 then some (rv, s)
    else
      let s1 := { s with nextFlush := s.nextFlush + 1 }
      match s.flushes s.nextFlush with
      | none =>
        if p = 0 then none
        else
          flushLoop fuel { s1 with serr := true, failures := s.failures + 1 } (p - 1) (n + 1) false
      | some k =>
        let i := min k n
        if i = 0 then
          flushLoop fuel { s1 with serr := true, failures := s.failures + 1 } p n false
        else
          flushLoop fuel { s1 with sent := s.sent ++ (((s.bf.getD []).drop p).take i) } (p + i)
            (n - i) rv

/-- `__sflush`, and whether it returns 0. -/
def sflush : Option (Bool × File) :=
  if !s.swr then some (true, s)
  else
    match s.bf with
    | none => some (true, s)
    | some b =>
      flushLoop s.patience
        { s with p := 0, w := if s.slbf || s.snbf then 0 else b.length } 0 s.p true

/-- `fflush`. -/
def fflush : Option (Bool × File) :=
  if !s.swr then some (false, s) else s.sflush

/-! ## Characters -/

/-- The first part of `__swbuf`: there is room for a character.  The flag says whether there is. -/
def swbufRoom : Option (Bool × File) :=
  match ({ s with w := s.lbfsize } : File).canwrite with
  | none => some (false, { s with w := s.lbfsize })
  | some s => if s.size ≤ s.p then s.fflush else some (true, s)

/-- The end of `__swbuf`: the character is stored, and the buffer is flushed when it is full or at
the end of a line. -/
def swbufStore (c : Int) : Option (Int × File) :=
  match ({ s with w := s.w - 1 } : File).copyIn [UInt8.ofInt c] with
  | none => none
  | some t =>
    if t.p = t.size ∨ t.slbf = true ∧ c = 10 then
      t.fflush.map fun r => (if r.1 then c else -1, r.2)
    else some (c, t)

/-- `__swbuf`. -/
def swbuf (c : Int) : Option (Int × File) :=
  match s.swbufRoom with
  | none => none
  | some (false, s) => some (-1, s)
  | some (true, s) => s.swbufStore c

/-- `__sputc`. -/
def sputc (c : Int) : Option (Int × File) :=
  let s1 := { s with w := s.w - 1 }
  if 0 ≤ s.w - 1 ∨ s.lbfsize ≤ s.w - 1 ∧ UInt8.ofInt c ≠ 10 then
    (s1.copyIn [UInt8.ofInt c]).map fun t => (((UInt8.ofInt c).toNat : Int), t)
  else if s.lbfsize ≤ s.w - 1 then
    -- the newline is stored where `__swbuf` stores it again
    if s1.copyIn [10] = none then none else s1.swbuf 10
  else s1.swbuf c

/-! ## Blocks -/

/-- `__swrite` of bytes of the caller: how many it has taken, `none` when that is not above 0. -/
def direct (bytes : List UInt8) : Option Nat × File :=
  let s1 := { s with nextDirect := s.nextDirect + 1 }
  match s.directs s.nextDirect with
  | none => (none, { s1 with serr := true, failures := s.failures + 1 })
  | some k =>
    if min k bytes.length = 0 then (none, { s1 with serr := true, failures := s.failures + 1 })
    else (some (min k bytes.length), { s1 with sent := s.sent ++ bytes.take (min k bytes.length) })

/-- `memcpy` of the first `w` bytes, and a flush. -/
def fillFlush (data : List UInt8) (w : Int) : Option (Option Nat × File) :=
  if w < 0 then none
  else
    match s.copyIn (data.take w.toNat) with
    | none => none
    | some t =>
      t.fflush.map fun r =>
        if r.1 then (some w.toNat, r.2) else (none, { r.2 with serr := true })

/-- `memcpy` of the first `w` bytes. -/
def fill (data : List UInt8) (w : Nat) : Option (Option Nat × File) :=
  (({ s with w := s.w - w } : File).copyIn (data.take w)).map fun t => (some w, t)

/-- A round of the loops of `__sfvwrite`: how many bytes are done, `none` for `EOF`. -/
def unbufRound (data : List UInt8) : Option (Option Nat × File) :=
  some (s.direct (data.take (min data.length BUFSIZ)))

def fullRound (data : List UInt8) : Option (Option Nat × File) :=
  if 0 < s.p ∧ s.w < data.length then s.fillFlush data s.w
  else if s.size ≤ data.length then some (s.direct (data.take s.size))
  else s.fill data data.length

/-- The number of bytes up to a newline, or one more than there are. -/
def nlDist (data : List UInt8) : Nat :=
  match data.idxOf? 10 with
  | some i => i + 1
  | none => data.length + 1

def lineRound (data : List UInt8) : Option (Option Nat × File) :=
  let n := min data.length (nlDist data)
  let round :=
    if 0 < s.p ∧ s.w + s.size < n then s.fillFlush data (s.w + s.size)
    else if s.size ≤ n then some (s.direct (data.take s.size))
    else s.fill data n
  match round with
  | some (some w, t) =>
    if nlDist data = w then
      t.fflush.map fun r => if r.1 then (some w, r.2) else (none, { r.2 with serr := true })
    else some (some w, t)
  | r => r

def round (data : List UInt8) : Option (Option Nat × File) :=
  if s.snbf then s.unbufRound data
  else if !s.slbf then s.fullRound data
  else s.lineRound data

/-- The loops of `__sfvwrite`: whether it returns 0, and the bytes that are left. -/
def sfvLoop : Nat → File → List UInt8 → Option (Bool × List UInt8 × File)
  | 0, _, _ => none
  | fuel + 1, s, data =>
    match s.round data with
    | none => none
    | some (none, t) => some (false, data, t)
    | some (some w, t) =>
      if data.length = w then some (true, [], t) else sfvLoop fuel t (data.drop w)

/-- `__sfvwrite` of one block.  A round that takes no byte empties the buffer, which bounds the
loop. -/
def sfvwrite (data : List UInt8) : Option (Bool × List UInt8 × File) :=
  if data = [] then some (true, [], s)
  else
    match s.canwrite with
    | none => some (false, data, s)
    | some s => sfvLoop (2 * data.length + 2) s data

/-- The block that `fwrite` is called with. -/
def block (size count : Nat) (buf : Nat → UInt8) : List UInt8 := (List.range (count * size)).map buf

/-- `fwrite`. -/
def fwrite (size count : Nat) (buf : Nat → UInt8) : Option (Nat × File) :=
  (s.sfvwrite (block size count buf)).map fun r =>
    (if r.1 then count else (count * size - r.2.1.length) / size, r.2.2)

end File

/-! ## Calls and replies -/

inductive Op
  | fputc (c : Int)
  | fwrite (size count : Nat) (buf : Nat → UInt8)
  | fflush

inductive Reply
  /-- Whether the character is not `EOF`. -/
  | put (ok : Bool)
  | items (ret : Nat)
  | flushed (ok : Bool)
deriving DecidableEq

/-- A call, with what it replies. -/
def File.call (s : File) : Op → Option (Reply × File)
  | .fputc c => (s.sputc c).map fun r => (.put (decide (r.1 ≠ -1)), r.2)
  | .fwrite size count buf => (s.fwrite size count buf).map fun r => (.items r.1, r.2)
  | .fflush => s.fflush.map fun r => (.flushed r.1, r.2)

end Vmx.StdioOut
