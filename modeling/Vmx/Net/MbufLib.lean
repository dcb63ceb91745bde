import Mathlib.Data.List.DropRight
import Mathlib.Algebra.Order.Ring.Int

/-!
# `mbufLib`: chains of mbufs

A chain is the list of the mbufs that are reached by `m_next`, and every mbuf has a cluster of its
own in which its bytes are a window.  `m_get` is an argument of the calls that need an mbuf; it is
`none` when there is no block or no cluster left that is large enough.

`none` as the result of a call says that it follows a pointer that is `NULL`, that an `int`
overflows, or that a loop does not end.
-/

namespace Vmx.MbufLib

/-- `struct mbuf`; `lead` is `m_data - m_extBuf`, and `pkthdr` the length in the packet header, if
`M_PKTHDR` is set. -/
structure Mbuf where
  addr : Nat
  data : List UInt8
  lead : Nat
  type : Nat
  eor : Bool
  extSize : Nat
  pkthdr : Option Int
  window : lead + data.length ≤ extSize

namespace Mbuf

/-- `m_len`. -/
def len (m : Mbuf) : Nat := m.data.length

/-- The bytes of the cluster behind the window. -/
def space (m : Mbuf) : Nat := m.extSize - (m.lead + m.len)

/-- `m_len` becomes smaller. -/
def keep (m : Mbuf) (n : Nat) : Mbuf :=
  { m with
    data := m.data.take n
    window := by
      have hwindow := m.window
      have hle := List.length_take_le' n m.data
      omega }

/-- `m_data` goes up and `m_len` down. -/
def skip (m : Mbuf) (n : Nat) (h : n ≤ m.len) : Mbuf :=
  { m with
    data := m.data.drop n
    lead := m.lead + n
    window := by
      have hwindow := m.window
      rw [len] at h
      rw [List.length_drop]
      omega }

/-- Bytes are copied behind the window, and `m_len` goes up. -/
def fill (m : Mbuf) (bytes : List UInt8) (h : bytes.length ≤ m.space) : Mbuf :=
  { m with
    data := m.data ++ bytes
    window := by
      have hwindow := m.window
      rw [space, len] at h
      rw [List.length_append]
      omega }

end Mbuf

/-- What `m_get` returns for `len` bytes: an mbuf that is not in the chain, with a cluster of at
least that size, whatever is in it. -/
structure Got (chain : List Mbuf) (len : Int) where
  addr : Nat
  fresh : addr ∉ chain.map Mbuf.addr
  buf : List UInt8
  fits : len ≤ buf.length

/-! ## `m_prepend` and `m_cat` -/

/-- What `M_ALIGN` adds to `m_data`. -/
def M_ALIGN (extSize len : Nat) : Nat := (extSize - len) / 4 * 4

/-- The mbuf that `m_prepend` puts in front. -/
def Got.front {chain : List Mbuf} {len : Nat} (got : Got chain len) (m : Mbuf) : Mbuf :=
  let lead := if len < got.buf.length then M_ALIGN got.buf.length len else 0
  { addr := got.addr
    data := (got.buf.drop lead).take len
    lead := lead
    type := m.type
    eor := m.pkthdr.isSome && m.eor
    extSize := got.buf.length
    pkthdr := m.pkthdr
    window := by
      have hfits := got.fits
      have hle := List.length_take_le len (got.buf.drop lead)
      have hlead : lead + len ≤ got.buf.length := by
        simp only [lead, M_ALIGN]
        split <;> omega
      omega }

/-- What a call leaves: the chain it returns, which is `none` for `NULL`, and the mbufs it has
freed. -/
structure Left where
  chain : Option (List Mbuf)
  freed : List Nat

/-- `m_prepend`. -/
def m_prepend (chain : List Mbuf) (len : Nat) (got : Option (Got chain len)) : Option Left :=
  match chain with
  | [] => none
  | m :: ms =>
    match got with
    | none => some ⟨none, (m :: ms).map Mbuf.addr⟩
    | some mn => some ⟨some (mn.front m :: { m with pkthdr := none } :: ms), []⟩

/-- `m_cat`. -/
def m_cat : List Mbuf → List Mbuf → Option (List Mbuf)
  | [], _ => none
  | [m], n => some (m :: n)
  | m :: ms, n => (m_cat ms n).map (m :: ·)

/-! ## `m_adj` -/

/-- The loop for `len ≥ 0`, with the bytes that are left to cut. -/
def adjFront : List Mbuf → Nat → List Mbuf × Nat
  | [], len => ([], len)
  | m :: ms, len =>
    if len = 0 then (m :: ms, 0)
    else if h : m.len ≤ len then (m.keep 0 :: (adjFront ms (len - m.len)).1,
      (adjFront ms (len - m.len)).2)
    else (m.skip len (Nat.le_of_not_le h) :: ms, 0)

/-- The sum of `m_len`. -/
def total (chain : List Mbuf) : Nat := (chain.map Mbuf.len).sum

/-- The cut that falls in the last mbuf, or `none`. -/
def adjLast : List Mbuf → Nat → Option (List Mbuf)
  | [], _ => none
  | [m], len => if len ≤ m.len then some [m.keep (m.len - len)] else none
  | m :: ms, len => (adjLast ms len).map (m :: ·)

/-- The loops that leave `i` bytes of the chain. -/
def adjBack : List Mbuf → Nat → Option (List Mbuf)
  | [], _ => none
  | m :: ms, i =>
    if i ≤ m.len then some (m.keep i :: ms.map fun m => m.keep 0)
    else (adjBack ms (i - m.len)).map (m :: ·)

/-- The length in the packet header is set. -/
def setHeader (f : Int → Int) : List Mbuf → List Mbuf
  | [] => []
  | m :: ms => { m with pkthdr := m.pkthdr.map f } :: ms

/-- `m_adj`. -/
def m_adj (mp : List Mbuf) (req_len : Int) : Option (List Mbuf) :=
  if mp = [] then some []
  else if 0 ≤ req_len then
    let r := adjFront mp req_len.toNat
    some (setHeader (fun len => len - (req_len - r.2)) r.1)
  else if req_len = -2 ^ 31 ∨ 2 ^ 31 ≤ total mp then none
  else
    let len := (-req_len).toNat
    match adjLast mp len with
    | some m => some (setHeader (fun l => l - len) m)
    | none =>
      let i := total mp - len
      (adjBack mp i).map (setHeader fun _ => i)

/-! ## `m_pullup` -/

/-- The bytes that one turn copies. -/
def copied (max_protohdr : Nat) (m n : Mbuf) (len : Int) : Nat :=
  min (min (max len.toNat max_protohdr) m.space) n.len

theorem length_take_copied (max_protohdr : Nat) (m n : Mbuf) (len : Int) :
    (n.data.take (copied max_protohdr m n len)).length ≤ m.space :=
  Nat.le_trans (List.length_take_le _ _)
    (Nat.le_trans (Nat.min_le_left _ _) (Nat.min_le_right _ _))

theorem copied_le_len (max_protohdr : Nat) (m n : Mbuf) (len : Int) :
    copied max_protohdr m n len ≤ n.len := Nat.min_le_right _ _

/-- `m`, `n` and `len` after the loop, and the mbufs that it has freed. -/
structure Pulled where
  m : Mbuf
  n : List Mbuf
  len : Int
  freed : List Nat

/-- The loop.  When bytes of the first mbuf are left though more are wanted there is no space for
them, and it does not end. -/
def pullupLoop (max_protohdr : Nat) : Mbuf → List Mbuf → Int → Option Pulled
  | _, [], _ => none
  | m, n :: ns, len =>
    let i := copied max_protohdr m n len
    let m' := m.fill (n.data.take i) (length_take_copied max_protohdr m n len)
    if n.len - i = 0 then
      if 0 < len - i ∧ ns ≠ [] then
        (pullupLoop max_protohdr m' ns (len - i)).map fun r =>
          { r with freed := n.addr :: r.freed }
      else some ⟨m', ns, len - i, [n.addr]⟩
    else if 0 < len - i then none
    else some ⟨m', n.skip i (copied_le_len max_protohdr m n len) :: ns, len - i, []⟩

/-- What follows the loop. -/
def Pulled.left (r : Pulled) : Left :=
  if 0 < r.len then ⟨none, r.freed ++ r.m.addr :: r.n.map Mbuf.addr⟩
  else ⟨some (r.m :: r.n), r.freed⟩

/-- The mbuf that `m_pullup` takes for the bytes, before the loop. -/
def Got.empty {chain : List Mbuf} {len : Int} (got : Got chain len) (n : Mbuf) : Mbuf :=
  { addr := got.addr
    data := []
    lead := 0
    type := n.type
    eor := n.pkthdr.isSome && n.eor
    extSize := got.buf.length
    pkthdr := n.pkthdr
    window := Nat.zero_le _ }

/-- `m_pullup`. -/
def m_pullup (max_protohdr : Nat) (chain : List Mbuf) (len : Int) (got : Option (Got chain len)) :
    Option Left :=
  match chain with
  | [] => none
  | n :: ns =>
    if n.lead + len < n.extSize ∧ ns ≠ [] then
      if len ≤ n.len then some ⟨some (n :: ns), []⟩
      else (pullupLoop max_protohdr n ns (len - n.len)).map Pulled.left
    else
      match got with
      | none => some ⟨none, (n :: ns).map Mbuf.addr⟩
      | some m =>
        (pullupLoop max_protohdr (m.empty n) ({ n with pkthdr := none } :: ns) len).map Pulled.left

end Vmx.MbufLib
