import Mathlib.Algebra.Order.Ring.Int
import Mathlib.Logic.Function.Basic
import Vmx.Lib.Transition

/-!
# Chains that share clusters

An mbuf is a window on a cluster, and `netMblkChainDup` makes windows on the clusters of another
chain.  A call changes windows and copies bytes from one cluster to another; what it copies depends
on the windows alone, so that `plan` says which chains it leaves and which copies it makes, in
order.  There are `k` chains, `[]` being `NULL`.  Lengths in packet headers and counters of socket
buffers are left out.

`none` as the plan of a call says that it follows a pointer that is `NULL`, that an `int` overflows,
that a loop does not end, that a variable is used which was never set or that a chain runs into
itself.  The cluster that `m_get` returns is an argument, and a call does not happen with a cluster
that is in a chain.
-/

namespace Vmx.Share

open Lib

def CL_SIZE_MIN : Nat := 64
def M_COPYALL : Nat := 1000000000

/-- `struct mbuf`: the bytes of `cluster` from `lead` on. -/
structure Mbuf where
  cluster : Nat
  lead : Nat
  len : Nat
  extSize : Nat
  type : Nat
  eor : Bool
  pkthdr : Bool
  deriving DecidableEq

/-- `memcpy` between clusters. -/
structure Copy where
  dst : Nat
  dstOff : Nat
  src : Nat
  srcOff : Nat
  n : Nat

def Copy.run (mem : Nat → Nat → UInt8) (c : Copy) : Nat → Nat → UInt8 := fun cluster o =>
  if cluster = c.dst ∧ c.dstOff ≤ o ∧ o < c.dstOff + c.n then mem c.src (c.srcOff + (o - c.dstOff))
  else mem cluster o

/-- The bytes of `n` from its start go behind those of `m`. -/
def copyBehind (m n : Mbuf) (i : Nat) : Copy := ⟨m.cluster, m.lead + m.len, n.cluster, n.lead, i⟩

/-! ## `netMblkChainDup` -/

/-- The loop over the offset; `none` when the chain is too short. -/
def skip : List Mbuf → Nat → Option (List Mbuf × Nat)
  | chain, 0 => some (chain, 0)
  | [], _ + 1 => none
  | m :: ms, offs => if offs < m.len then some (m :: ms, offs) else skip ms (offs - m.len)

/-- The loop over the mbufs to copy, with those that have been copied.  `topBlkId` is not set before
there is one. -/
def dupLoop (top : List Mbuf) : List Mbuf → Nat → Nat → Bool → Option (List Mbuf)
  | [], _, len, _ =>
    if top = [] then none else if len = 0 ∨ len = M_COPYALL then some top else some []
  | m :: ms, offs, len, copyhdr =>
    if len = 0 then if top = [] then none else some top
    else
      let mLen := min len (m.len - offs)
      let new := { m with lead := m.lead + offs, len := mLen, pkthdr := copyhdr && m.pkthdr }
      dupLoop (top ++ [new]) ms 0 (if len = M_COPYALL then len else len - mLen) false

/-- `netMblkChainDup`; `short` when an mBlk is missing. -/
def netMblkChainDup (chain : List Mbuf) (offset len : Int) (short : Bool) : Option (List Mbuf) :=
  if offset < 0 ∨ len < 0 ∨ short then some []
  else
    match skip chain offset.toNat with
    | none => some []
    | some (rest, offs) =>
      dupLoop [] rest offs len.toNat (offset = 0 && chain.head?.any Mbuf.pkthdr)

/-! ## `mbufLib` -/

/-- The loop of `m_adj` for `len ≥ 0`. -/
def adjFront : List Mbuf → Nat → List Mbuf
  | [], _ => []
  | m :: ms, len =>
    if len = 0 then m :: ms
    else if m.len ≤ len then { m with len := 0 } :: adjFront ms (len - m.len)
    else { m with len := m.len - len, lead := m.lead + len } :: ms

/-- The cut that falls in the last mbuf, or `none`. -/
def adjLast : List Mbuf → Nat → Option (List Mbuf)
  | [], _ => none
  | [m], len => if len ≤ m.len then some [{ m with len := m.len - len }] else none
  | m :: ms, len => (adjLast ms len).map (m :: ·)

/-- The loops that leave `i` bytes. -/
def adjBack : List Mbuf → Nat → Option (List Mbuf)
  | [], _ => none
  | m :: ms, i =>
    if i ≤ m.len then some ({ m with len := i } :: ms.map fun m => { m with len := 0 })
    else (adjBack ms (i - m.len)).map (m :: ·)

/-- `m_adj`. -/
def m_adj (mp : List Mbuf) (req_len : Int) : Option (List Mbuf) :=
  let total := (mp.map Mbuf.len).sum
  if mp = [] then some []
  else if 0 ≤ req_len then some (adjFront mp req_len.toNat)
  else if req_len = -2 ^ 31 ∨ 2 ^ 31 ≤ total then none
  else (adjLast mp (-req_len).toNat).or (adjBack mp (total - (-req_len).toNat))

/-- The loop of `m_pullup`: what it copies, and `m`, `n` and `len` after it. -/
def pullupLoop (max_protohdr : Nat) : Mbuf → List Mbuf → Int →
    Option (List Copy × Mbuf × List Mbuf × Int)
  | _, [], _ => none
  | m, n :: ns, len =>
    let i := min (min (max len.toNat max_protohdr) (m.extSize - (m.lead + m.len))) n.len
    let m' := { m with len := m.len + i }
    if n.len - i = 0 then
      if 0 < len - i ∧ ns ≠ [] then
        (pullupLoop max_protohdr m' ns (len - i)).map fun r => (copyBehind m n i :: r.1, r.2)
      else some ([copyBehind m n i], m', ns, len - i)
    else if 0 < len - i then none
    else some ([copyBehind m n i], m',
      { n with len := n.len - i, lead := n.lead + i } :: ns, len - i)

/-- The chain that `m_pullup` returns after the loop. -/
def pulled (r : List Copy × Mbuf × List Mbuf × Int) : List Copy × List Mbuf :=
  (r.1, if 0 < r.2.2.2 then [] else r.2.1 :: r.2.2.1)

/-- An mbuf of the cluster that `m_get` returns, with the flags that go with a packet header. -/
def newMbuf (got : Nat × Nat) (lead len : Nat) (n : Mbuf) : Mbuf :=
  { cluster := got.1, lead := lead, len := len, extSize := got.2, type := n.type
    eor := n.pkthdr && n.eor, pkthdr := n.pkthdr }

/-- `m_pullup`.  `got` is the cluster that `m_get` returns and its size. -/
def m_pullup (max_protohdr : Nat) (chain : List Mbuf) (len : Int) (got : Option (Nat × Nat)) :
    Option (List Copy × List Mbuf) :=
  match chain with
  | [] => none
  | n :: ns =>
    if n.lead + len < n.extSize ∧ ns ≠ [] then
      if len ≤ n.len then some ([], n :: ns)
      else (pullupLoop max_protohdr n ns (len - n.len)).map pulled
    else
      match got with
      | none => some ([], [])
      | some got =>
        (pullupLoop max_protohdr (newMbuf got 0 0 n) ({ n with pkthdr := false } :: ns) len).map
          pulled

/-- `m_prepend`. -/
def m_prepend (chain : List Mbuf) (len : Nat) (got : Option (Nat × Nat)) : Option (List Mbuf) :=
  match chain with
  | [] => none
  | m :: ms =>
    match got with
    | none => some []
    | some got =>
      let lead := if len < got.2 then (got.2 - len) / 4 * 4 else 0
      some (newMbuf got lead len m :: { m with pkthdr := false } :: ms)

/-! ## `sbLib` -/

/-- An empty mbuf that `sbcompress` frees. -/
def needless (eor : Bool) (m : Mbuf) (next : List Mbuf) (n : Option Mbuf) : Bool :=
  m.len = 0 && (!eor || (next.head?.or n).any fun o => o.type == m.type)

/-- `sbcompress` copies the bytes of `m` behind those of `n`. -/
def copies (m n : Mbuf) : Bool :=
  !n.eor && decide (m.len < CL_SIZE_MIN) && decide (n.lead + n.len + m.len < n.extSize) &&
    n.type == m.type

/-- The loop of `sbcompress`, with the mbufs before `n`, and with `n`. -/
def compressLoop (before : List Mbuf) (n : Option Mbuf) (eor : Bool) :
    List Mbuf → List Copy × List Mbuf × Option Mbuf × Bool
  | [] => ([], before, n, eor)
  | m :: rest =>
    let eor := eor || m.eor
    if needless eor m rest n then compressLoop before n eor rest
    else
      match n with
      | some n =>
        if copies m n then
          let r := compressLoop before (some { n with len := n.len + m.len }) eor rest
          (copyBehind n m m.len :: r.1, r.2)
        else compressLoop (before ++ [n]) (some { m with eor := false }) eor rest
      | none => compressLoop before (some { m with eor := false }) eor rest

/-- `sbcompress` of the last record of a buffer. -/
def sbcompress (record m : List Mbuf) : List Copy × List Mbuf :=
  match compressLoop record.dropLast record.getLast? false m with
  | (cs, before, n, eor) =>
    (cs, before ++ (n.map fun n => { n with eor := n.eor || eor }).toList)

/-- `sbappend` to the last record of a buffer: the copies, the record, and the new record if there
is one. -/
def sbappend (record m : List Mbuf) : List Copy × List Mbuf × List Mbuf :=
  match m with
  | [] => ([], record, [])
  | m0 :: rest =>
    if record.any Mbuf.eor then
      let r :=
        match rest with
        | [] => sbcompress [m0] []
        | m :: ms =>
          if m0.eor then sbcompress [{ m0 with eor := false }] ({ m with eor := true } :: ms)
          else sbcompress [m0] (m :: ms)
      (r.1, record, r.2)
    else
      let r := sbcompress record (m0 :: rest)
      (r.1, r.2, [])

/-! ## The machine -/

structure State (k : Nat) where
  mem : Nat → Nat → UInt8
  chains : Fin k → List Mbuf

/-- A call.  The numbers are those of the chains it is for. -/
inductive Call (k : Nat) where
  | netMblkChainDup (old new : Fin k) (offset len : Int) (short : Bool)
  | m_pullup (n : Fin k) (max_protohdr : Nat) (len : Int) (got : Option (Nat × Nat))
  | m_prepend (m : Fin k) (len : Nat) (got : Option (Nat × Nat))
  | m_adj (mp : Fin k) (req_len : Int)
  | m_cat (m n : Fin k)
  | m_freem (m : Fin k)
  | sbappend (record m : Fin k)

variable {k : Nat}

def Call.operands : Call k → List (Fin k)
  | netMblkChainDup old new _ _ _ => [old, new]
  | m_pullup n _ _ _ => [n]
  | m_prepend m _ _ => [m]
  | m_adj mp _ => [mp]
  | m_cat m n => [m, n]
  | m_freem m => [m]
  | sbappend record m => [record, m]

/-- A cluster that is in no chain. -/
def Fresh (chains : Fin k → List Mbuf) (cluster : Nat) : Prop :=
  ∀ i, ∀ m ∈ chains i, m.cluster ≠ cluster

instance (chains : Fin k → List Mbuf) (cluster : Nat) : Decidable (Fresh chains cluster) :=
  inferInstanceAs (Decidable (∀ i, ∀ m ∈ chains i, m.cluster ≠ cluster))

/-- The copies that a call makes and the chains that it leaves. -/
def plan (chains : Fin k → List Mbuf) : Call k → Option (List Copy × (Fin k → List Mbuf))
  | .netMblkChainDup old new offset len short =>
    (netMblkChainDup (chains old) offset len short).map fun c =>
      ([], Function.update chains new c)
  | .m_pullup n max_protohdr len got =>
    if ∀ g ∈ got, Fresh chains g.1 then
      (m_pullup max_protohdr (chains n) len got).map fun r => (r.1, Function.update chains n r.2)
    else none
  | .m_prepend m len got =>
    if ∀ g ∈ got, Fresh chains g.1 then
      (m_prepend (chains m) len got).map fun c => ([], Function.update chains m c)
    else none
  | .m_adj mp req_len => (m_adj (chains mp) req_len).map fun c => ([], Function.update chains mp c)
  | .m_cat m n =>
    if chains m = [] ∨ m = n then none
    else some ([], Function.update (Function.update chains n []) m (chains m ++ chains n))
  | .m_freem m => some ([], Function.update chains m [])
  | .sbappend record m =>
    if record = m then none
    else
      let r := sbappend (chains record) (chains m)
      some (r.1, Function.update (Function.update chains m r.2.2) record r.2.1)

def step (s : State k) (c : Call k) : Option (State k) :=
  (plan s.chains c).map fun r => ⟨r.1.foldl Copy.run s.mem, r.2⟩

end Vmx.Share
