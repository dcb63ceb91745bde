import Vmx.Lib.Transition

/-!
# `stdioLib`, `ungetc`, `fread`, `fgets`: a stream that is read

A pointer into a buffer is an offset; `p` is an offset into the push-back buffer while there is one,
and else into the buffer of the stream.  The count `r` drops below zero only inside `__sgetc`, which
resets it, so it is a `Nat`.  The stream is never written, so what its calls do for a stream in
write mode is left out.

The driver reads from `file`: `reads k` is how many bytes the `k`-th read gives at the most, and
`none` when it fails.  `none` as the result of a call means that it reads outside a buffer or does
not end.
-/

namespace Vmx.Stdio

def BUFSIZ : Nat := 1024

/-- The size of `_ubuf`. -/
def UBUF_SIZE : Nat := 3

/-- The `FILE` of a stream that is read, and the file behind it. -/
structure File where
  p : Nat
  r : Nat
  /-- Flag `__SRD`. -/
  srd : Bool
  /-- Flag `__SRW`. -/
  srw : Bool
  /-- Flag `__SEOF`. -/
  seof : Bool
  /-- Flag `__SERR`. -/
  serr : Bool
  /-- The buffer, `none` for `NULL`. -/
  bf : Option (List UInt8)
  /-- The push-back buffer, `none` for `NULL`.  The one in the record is the one of three bytes. -/
  ub : Option (List UInt8)
  up : Nat
  ur : Nat
  /-- The size of the buffer that `__smakebuf` makes. -/
  blksize : Nat
  /-- The bytes of the file that have not been read. -/
  file : List UInt8
  reads : Nat → Option Nat
  /-- The number of reads so far. -/
  next : Nat
  /-- Ghost: the reads that failed. -/
  errors : Nat
  /-- Ghost: the reads that gave nothing though the file had not ended. -/
  zeros : Nat

namespace File

variable (s : File)

/-- The buffer of the stream. -/
def buffer : List UInt8 := s.bf.getD []

/-- The buffer that `p` points into. -/
def current : List UInt8 := s.ub.getD s.buffer

/-- The next `n` bytes of the current buffer. -/
def copy (n : Nat) : Option (List UInt8) :=
  if s.p + n ≤ s.current.length then some ((s.current.drop s.p).take n) else none

/-- `fp->_p += n; fp->_r -= n`. -/
def advance (n : Nat) : File := { s with p := s.p + n, r := s.r - n }

/-! ## Refilling -/

/-- `__smakebuf`.  The bytes of a new buffer are never read before they are written. -/
def smakebuf : File := { s with bf := some (List.replicate s.blksize 0), p := 0 }

/-- `__sread` into the buffer, and what `__srefill` makes of it.  The flag says whether there is
something to read. -/
def sread : Bool × File :=
  match s.reads s.next with
  | none =>
    (false, { s with p := 0, r := 0, serr := true, next := s.next + 1, errors := s.errors + 1 })
  | some k =>
    let n := min k (min s.buffer.length s.file.length)
    if n = 0 then
      (false,
        { s with
          p := 0
          r := 0
          seof := true
          next := s.next + 1
          zeros := if s.file = [] then s.zeros else s.zeros + 1 })
    else
      (true,
        { s with
          p := 0
          r := n
          bf := some (s.file.take n ++ s.buffer.drop n)
          file := s.file.drop n
          next := s.next + 1 })

/-- The end of `__srefill`. -/
def fill : Bool × File := (if s.bf = none then s.smakebuf else s).sread

/-- `__srefill`.  The flag says whether there is something to read. -/
def srefill : Bool × File :=
  let s := { s with r := 0 }
  if s.seof then (false, s)
  else if !s.srd then
    if !s.srw then (false, s) else { s with srd := true }.fill
  else if s.ub ≠ none then
    let s := { s with ub := none, r := s.ur }
    if s.ur ≠ 0 then (true, { s with p := s.up }) else s.fill
  else s.fill

/-! ## The calls -/

/-- `*fp->_p++` with one character less in the buffer. -/
def take1 : Option (Option UInt8 × File) :=
  s.current[s.p]?.map fun c => (some c, s.advance 1)

/-- `getc`, `none` inside for `EOF`. -/
def fgetc : Option (Option UInt8 × File) :=
  if s.r = 0 then
    match s.srefill with
    | (true, s) => s.take1
    | (false, s) => some (none, { s with seof := true })
  else s.take1

/-- The loop of `fread`: the bytes copied to the caller. -/
def freadLoop : Nat → File → Nat → List UInt8 → Option (List UInt8 × File)
  | 0, _, _, _ => none
  | fuel + 1, s, len, out =>
    if s.r < len then
      match s.copy s.r with
      | none => none
      | some bytes =>
        match { s with p := s.p + s.r }.srefill with
        | (false, s') => some (out ++ bytes, s')
        | (true, s') => freadLoop fuel s' (len - s.r) (out ++ bytes)
    else (s.copy len).map fun bytes => (out ++ bytes, s.advance len)

/-- `fread`: what it returns, and what it has copied to the buffer of the caller, which holds all
items, so that their length does not wrap.  Every refill gives a character, which bounds the
loop. -/
def fread (size count : Nat) : Option ((Nat × List UInt8) × File) :=
  let len := count * size
  if len = 0 then some ((0, []), s)
  else (freadLoop (len + 2) s len []).map fun r =>
    ((if r.1.length = len then count else r.1.length / size, r.1), r.2)

/-- The loop of `fgets`: the characters of the line. -/
def fgetsLoop : Nat → File → Nat → List UInt8 → Option (List UInt8 × File)
  | 0, _, _, _ => none
  | fuel + 1, s, num, out =>
    match if s.r = 0 then s.srefill else (true, s) with
    | (false, s) => some (out, s)
    | (true, s) =>
      match s.copy (min s.r num) with
      | none => none
      | some bytes =>
        match bytes.idxOf? 10 with
        | some i => some (out ++ bytes.take (i + 1), s.advance (i + 1))
        | none =>
          if num = min s.r num then some (out ++ bytes, s.advance (min s.r num))
          else fgetsLoop fuel (s.advance (min s.r num)) (num - min s.r num) (out ++ bytes)

/-- `fgets`: what it has stored, `none` inside for `NULL`.  When nothing has been read it stores
nothing, not even the end of the string. -/
def fgets (num : Nat) : Option (Option (List UInt8) × File) :=
  if num < 2 then some (none, s)
  else (fgetsLoop num s (num - 1) []).map fun r =>
    (if r.1 = [] then none else some (r.1 ++ [0]), r.2)

/-- `__submore`, which is called when the push-back buffer is full. -/
def submore (b : List UInt8) : File :=
  if b.length = UBUF_SIZE then
    { s with ub := some (List.replicate (BUFSIZ - UBUF_SIZE) 0 ++ b), p := BUFSIZ - UBUF_SIZE }
  else { s with ub := some (b ++ b), p := b.length }

/-- `*--fp->_p = uc; fp->_r++` in the push-back buffer `b`. -/
def push (b : List UInt8) (uc : UInt8) : File :=
  { s with ub := some (b.set (s.p - 1) uc), p := s.p - 1, r := s.r + 1 }

/-- The cases of `ungetc`, with whether there is memory for a larger push-back buffer. -/
def pushBack (uc : UInt8) (memory : Bool) : Option (Bool × File) :=
  match s.ub with
  | some b =>
    if b.length ≤ s.r then
      if memory then
        let s := s.submore b
        if s.p = 0 then none else some (true, s.push (s.ub.getD []) uc)
      else some (false, s)
    else if s.p = 0 then none
    else some (true, s.push b uc)
  | none =>
    if s.bf ≠ none ∧ 0 < s.p ∧ s.buffer[s.p - 1]? = some uc then
      some (true, { s with p := s.p - 1, r := s.r + 1 })
    else
      some (true,
        { s with ur := s.r, up := s.p, ub := some [0, 0, uc], p := UBUF_SIZE - 1, r := 1 })

/-- `ungetc`, with whether it does not return `EOF`. -/
def ungetc (c : Int) (memory : Bool) : Option (Bool × File) :=
  if c = -1 then some (false, s)
  else if !s.srd then
    if !s.srw then some (false, s) else { s with srd := true }.pushBack (UInt8.ofInt c) memory
  else s.pushBack (UInt8.ofInt c) memory

end File

/-! ## Calls and replies -/

inductive Op
  | fgetc
  | fgets (num : Nat)
  | fread (size count : Nat)
  | ungetc (c : Int) (memory : Bool)
deriving DecidableEq

inductive Reply
  | char (c : Option UInt8)
  | line (buf : Option (List UInt8))
  | items (ret : Nat) (buf : List UInt8)
  | pushed (ok : Bool)
deriving DecidableEq

/-- A call, with what it replies. -/
def File.call (s : File) : Op → Option (Reply × File)
  | .fgetc => s.fgetc.map fun r => (.char r.1, r.2)
  | .fgets num => (s.fgets num).map fun r => (.line r.1, r.2)
  | .fread size count => (s.fread size count).map fun r => (.items r.1.1 r.1.2, r.2)
  | .ungetc c memory => (s.ungetc c memory).map fun r => (.pushed r.1, r.2)

end Vmx.Stdio
