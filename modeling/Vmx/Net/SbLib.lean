import Vmx.Lib.Transition
import Mathlib.Data.List.Basic
import Mathlib.Algebra.Order.Ring.Int

/-!
# `sbLib`: socket buffers

A socket buffer is a list of records, and a record a chain of mbufs.  `m_next` links the mbufs of
a record, and the `m_nextpkt` of its first mbuf the next record; a chain is the list of what is
reached by `m_next`, and `records` of what is reached from `sb_mb`.  `sb_cc` counts the bytes
and `sb_mbcnt` the storage.

An mbuf has its bytes and the cluster they lie in; the clusters of a chain are its own.  `none` as
the result of a call says that it panics or does not end.  The buffer is not locked.
-/

namespace Vmx.Sb

open Lib

def MSIZE : UInt32 := 36

def CL_SIZE_128 : Nat := 128

/-- `CL_SIZE_MIN`. -/
def CL_SIZE_MIN : Nat := 64

/-- `struct mbuf`; `lead` is `m_data - m_extBuf`, and `pkthdr` the length in the packet header, if
`M_PKTHDR` is set. -/
structure Mbuf where
  data : List UInt8
  lead : Nat
  type : Nat
  eor : Bool
  ext : Bool
  extSize : Nat
  pkthdr : Option Int32
  deriving DecidableEq

/-- `m_len`. -/
def Mbuf.len (m : Mbuf) : Nat := m.data.length

/-- `struct sockbuf`. -/
structure Sockbuf where
  cc : UInt32
  mbcnt : UInt32
  hiwat : UInt32
  mbmax : UInt32
  records : List (List Mbuf)
  deriving DecidableEq

/-- What `sballoc` adds to `sb_mbcnt`. -/
def storage (m : Mbuf) : UInt32 := MSIZE + if m.ext then UInt32.ofNat m.extSize else 0

def sballoc (sb : Sockbuf) (m : Mbuf) : Sockbuf :=
  { sb with cc := sb.cc + UInt32.ofNat m.len, mbcnt := sb.mbcnt + storage m }

def sbfree (sb : Sockbuf) (m : Mbuf) : Sockbuf :=
  { sb with cc := sb.cc - UInt32.ofNat m.len, mbcnt := sb.mbcnt - storage m }

/-- `(int)` of a word. -/
def toInt (x : UInt32) : Int := x.toInt32.toInt

/-- `sbspace`. -/
def sbspace (sb : Sockbuf) : Int32 :=
  let hi := (sb.hiwat - sb.cc).toInt32
  let mb := (sb.mbmax - sb.mbcnt).toInt32
  if hi < mb then hi else mb

namespace Sockbuf

variable (sb : Sockbuf)

/-- The last record, empty when there is none. -/
def lastRecord : List Mbuf := sb.records.getLast?.getD []

/-- The last record is the chain now. -/
def setLastRecord (chain : List Mbuf) : Sockbuf :=
  { sb with records := sb.records.dropLast ++ if chain = [] then [] else [chain] }

end Sockbuf

/-! ## Appending -/

/-- An empty mbuf is not needed: no record ends, or the end can be marked on the next mbuf, or
else on the last one. -/
def needless (eor : Bool) (m : Mbuf) (next : List Mbuf) (n : Option Mbuf) : Bool :=
  m.data.isEmpty && (!eor || (next.head?.or n).any fun o => o.type == m.type)

/-- The bytes of `m` have room behind those of `n`. -/
def copies (m : Mbuf) (n : Option Mbuf) : Bool :=
  n.any fun n => !n.eor && decide (m.len < CL_SIZE_MIN) &&
    decide (n.lead + n.len + m.len < n.extSize) && n.type == m.type

/-- The last mbuf of the chain takes the bytes. -/
def addBytes (chain : List Mbuf) (bytes : List UInt8) : List Mbuf :=
  match chain.getLast? with
  | none => chain
  | some n => chain.dropLast ++ [{ n with data := n.data ++ bytes }]

/-- The last mbuf of the chain ends the record. -/
def markEor (chain : List Mbuf) : List Mbuf :=
  match chain.getLast? with
  | none => chain
  | some n => chain.dropLast ++ [{ n with eor := true }]

/-- The loop of `sbcompress`; `n` is the last mbuf of `chain`. -/
def compressLoop (sb : Sockbuf) (chain : List Mbuf) (eor : Bool) :
    List Mbuf → Sockbuf × List Mbuf × Bool
  | [] => (sb, chain, eor)
  | m :: rest =>
    let eor := eor || m.eor
    let n := chain.getLast?
    if needless eor m rest n then compressLoop sb chain eor rest
    else if copies m n then
      compressLoop { sb with cc := sb.cc + UInt32.ofNat m.len } (addBytes chain m.data) eor rest
    else compressLoop (sballoc sb m) (chain ++ [{ m with eor := false }]) eor rest

/-- `sbcompress`, where `n` is the last mbuf of the last record. -/
def sbcompress (sb : Sockbuf) (m : List Mbuf) : Sockbuf :=
  match compressLoop sb sb.lastRecord false m with
  | (sb, chain, eor) => sb.setLastRecord (if eor then markEor chain else chain)

/-- `sbappendrecord`. -/
def sbappendrecord (sb : Sockbuf) : List Mbuf → Sockbuf
  | [] => sb
  | m0 :: rest =>
    let sb := sballoc sb m0
    match rest with
    | [] => { sb with records := sb.records ++ [[m0]] }
    | m :: rest =>
      if m0.eor then
        sbcompress { sb with records := sb.records ++ [[{ m0 with eor := false }]] }
          ({ m with eor := true } :: rest)
      else sbcompress { sb with records := sb.records ++ [[m0]] } (m :: rest)

/-- `sbappend`. -/
def sbappend (sb : Sockbuf) (m : List Mbuf) : Sockbuf :=
  if m = [] then sb
  else if sb.lastRecord.any Mbuf.eor then sbappendrecord sb m
  else sbcompress sb m

/-- The space that `sbappendaddr` wants. -/
def addrSpace (asa : List UInt8) (m0 ctrl : List Mbuf) : Int32 :=
  let space := Int32.ofNat asa.length
  let space := match m0.head? with
    | none => space
    | some m => space + m.pkthdr.getD 0
  ctrl.foldl (fun space n => space + Int32.ofNat n.len) space

/-- `sbappendaddr` takes the data; `got` is what `m_get` returns. -/
def accepts (sb : Sockbuf) (asa : List UInt8) (m0 ctrl : List Mbuf) (got : Option Mbuf) : Bool :=
  !decide (addrSpace asa m0 ctrl > sbspace sb) && decide (asa.length ≤ CL_SIZE_128) && got.isSome

/-- `sbappendaddr`, with its result. -/
def sbappendaddr (sb : Sockbuf) (asa : List UInt8) (m0 ctrl : List Mbuf) (got : Option Mbuf) :
    Option (Sockbuf × Bool) :=
  if m0.head?.any fun m => m.pkthdr.isNone then none
  else if accepts sb asa m0 ctrl got then
    got.map fun m =>
      let chain := { m with data := asa } :: (ctrl ++ m0)
      let sb := chain.foldl sballoc sb
      ({ sb with records := sb.records ++ [chain] }, true)
  else some (sb, false)

/-! ## Dropping -/

/-- The first loop of `sbdrop`, in one record; with what is left of the length and of the chain.
The loop is left when an mbuf has more bytes. -/
def dropRecord (sb : Sockbuf) (len : Int) : List Mbuf → Sockbuf × Int × List Mbuf
  | [] => (sb, len, [])
  | m :: rest =>
    if len ≤ 0 then (sb, len, m :: rest)
    else if (m.len : Int) > len then
      ({ sb with cc := sb.cc - UInt32.ofNat len.toNat }, 0,
        { m with data := m.data.drop len.toNat, lead := m.lead + len.toNat } :: rest)
    else dropRecord (sbfree sb m) (len - m.len) rest

/-- The first loop of `sbdrop`, with the records that are left. -/
def dropLoop (sb : Sockbuf) (len : Int) (m : List Mbuf) :
    List (List Mbuf) → Option (Sockbuf × List Mbuf × List (List Mbuf))
  | [] =>
    match dropRecord sb len m with
    | (sb, len, m) => if len ≤ 0 then some (sb, m, []) else none
  | next :: nexts =>
    match dropRecord sb len m with
    | (sb, len, m) => if len ≤ 0 then some (sb, m, next :: nexts) else dropLoop sb len next nexts

/-- `sbdrop`.  The second loop has `sbfree` for its body and does not end once it is entered; what
is indented under it comes after it, and frees one more mbuf if there is one. -/
def sbdrop (sb : Sockbuf) (len : Int) : Option Sockbuf :=
  match dropLoop sb len (sb.records.headD []) sb.records.tail with
  | none => none
  | some (sb, [], next) => some { sb with records := next }
  | some (sb, m :: rest, next) =>
    if m.len = 0 then none
    else some { sb with records := if rest = [] then next else rest :: next }

/-- `sbdroprecord`. -/
def sbdroprecord (sb : Sockbuf) : Sockbuf :=
  match sb.records with
  | [] => sb
  | m :: next => { m.foldl sbfree sb with records := next }

/-- The loop of `sbflush`.  Each round that ends frees an mbuf, as long as there is one. -/
def flushLoop : Nat → Sockbuf → Option Sockbuf
  | 0, _ => none
  | fuel + 1, sb =>
    if sb.mbcnt = 0 then some sb
    else
      match sbdrop sb (toInt sb.cc) with
      | none => none
      | some sb => flushLoop fuel sb

/-- `sbflush`. -/
def sbflush (sb : Sockbuf) : Option Sockbuf :=
  match flushLoop (sb.records.flatten.length + 2) sb with
  | none => none
  | some sb => if sb.cc ≠ 0 ∨ sb.records ≠ [] then none else some sb

/-! ## The machine -/

inductive Call where
  | append (m : List Mbuf)
  | appendrecord (m : List Mbuf)
  | appendaddr (asa : List UInt8) (m0 ctrl : List Mbuf) (got : Option Mbuf)
  | drop (len : Nat)
  | droprecord
  | flush
  deriving DecidableEq

def step (sb : Sockbuf) : Call → Option Sockbuf
  | .append m => some (sbappend sb m)
  | .appendrecord m => some (sbappendrecord sb m)
  | .appendaddr asa m0 ctrl got => (sbappendaddr sb asa m0 ctrl got).map Prod.fst
  | .drop len => sbdrop sb len
  | .droprecord => some (sbdroprecord sb)
  | .flush => sbflush sb

/-- A buffer after `sbreserve`. -/
def initial (hiwat mbmax : UInt32) : Sockbuf :=
  { cc := 0, mbcnt := 0, hiwat := hiwat, mbmax := mbmax, records := [] }

end Vmx.Sb
