import Vmx.Lib.Chain
import Mathlib.Data.List.Nodup

/-!
# `listLib`: doubly linked lists

A node is an address; `next` and `prev` are the links in the nodes.  `IsList` says that a
list has the nodes of a Lean list, forwards and backwards, and that `count` is their number.

`listRemove` does not look whether the node is in the list that it is given.
-/

namespace Vmx

open Lib

/-- The links of every `LIST_NODE`. -/
structure ListNodes where
  next : Nat → Option Nat
  prev : Nat → Option Nat

/-- `LIST`. -/
structure LIST where
  head : Option Nat
  tail : Option Nat
  count : Int
  deriving DecidableEq

/-- `listInit`. -/
def listInit : LIST := { head := none, tail := none, count := 0 }

/-- `listInsert`. -/
def listInsert (m : ListNodes) (list : LIST) (pPrev : Option Nat) (pNode : Nat) :
    ListNodes × LIST :=
  let pNext := match pPrev with
    | none => list.head
    | some pPrev => m.next pPrev
  let next := link m.next list.head pPrev (some pNode)
  let prev := link m.prev list.tail pNext (some pNode)
  ({ next := Function.update next.1 pNode pNext, prev := Function.update prev.1 pNode pPrev },
    { head := next.2, tail := prev.2, count := list.count + 1 })

/-- `listAdd`. -/
def listAdd (m : ListNodes) (list : LIST) (pNode : Nat) : ListNodes × LIST :=
  listInsert m list list.tail pNode

/-- `listRemove`. -/
def listRemove (m : ListNodes) (list : LIST) (pNode : Nat) : ListNodes × LIST :=
  let next := link m.next list.head (m.prev pNode) (m.next pNode)
  let prev := link m.prev list.tail (next.1 pNode) (m.prev pNode)
  ({ next := next.1, prev := prev.1 }, { head := next.2, tail := prev.2, count := list.count - 1 })

/-! ## The nodes of a list -/

/-- The list has these nodes, in this order. -/
structure IsList (m : ListNodes) (list : LIST) (nodes : List Nat) : Prop where
  next : Chain m.next list.head nodes
  prev : Chain m.prev list.tail nodes.reverse
  count : list.count = nodes.length

variable {m : ListNodes} {list other : LIST} {nodes others pre post : List Nat} {n k : Nat}

theorem isList_init (m : ListNodes) : IsList m listInit [] := ⟨rfl, rfl, rfl⟩

theorem IsList.nodup (h : IsList m list nodes) : nodes.Nodup := h.next.nodup

theorem IsList.tail_eq (h : IsList m list nodes) : list.tail = nodes.getLast? := by
  rw [h.prev.head_eq, List.head?_reverse]

theorem IsList.next_eq (h : IsList m list (pre ++ n :: post)) : m.next n = post.head? :=
  h.next.next_eq

theorem IsList.prev_eq (h : IsList m list (pre ++ n :: post)) : m.prev n = pre.getLast? := by
  have hprev := h.prev
  rw [List.reverse_append, List.reverse_cons, List.append_assoc, List.singleton_append] at hprev
  rw [hprev.next_eq, List.head?_reverse]

/-- Only the links of the nodes matter. -/
theorem IsList.congr {m' : ListNodes} (h : IsList m list nodes)
    (hn : ∀ n ∈ nodes, m'.next n = m.next n ∧ m'.prev n = m.prev n) : IsList m' list nodes :=
  ⟨h.next.congr fun n hm => (hn n hm).1,
    h.prev.congr fun n hm => (hn n (List.mem_reverse.1 hm)).2, h.count⟩

/-! ## Adding a node -/

/-- The node behind the last one. -/
theorem listAdd_next (h : IsList m list nodes) :
    (match list.tail with
      | none => list.head
      | some pPrev => m.next pPrev) = none := by
  rw [h.tail_eq]
  rcases List.eq_nil_or_concat nodes with rfl | ⟨pre, p, rfl⟩
  · exact h.next
  · rw [List.concat_eq_append] at h ⊢
    rw [List.getLast?_append, List.getLast?_singleton, Option.some_or]
    exact h.next_eq

theorem listAdd_eq (h : IsList m list nodes) (n : Nat) :
    listAdd m list n =
      ({ next := Function.update (link m.next list.head nodes.getLast? (some n)).1 n none
         prev := Function.update m.prev n nodes.getLast? },
        { head := (link m.next list.head nodes.getLast? (some n)).2, tail := some n
          count := list.count + 1 }) := by
  unfold listAdd listInsert
  rw [listAdd_next h, h.tail_eq]
  rfl

theorem isList_add (h : IsList m list nodes) (hn : n ∉ nodes) :
    IsList (listAdd m list n).1 (listAdd m list n).2 (nodes ++ [n]) := by
  rw [listAdd_eq h]
  refine ⟨?_, ?_, ?_⟩
  · have hnext := h.next
    rw [← List.append_nil nodes] at hnext
    have hinsert := hnext.insert (n := n) (by rwa [List.append_nil])
    exact hinsert
  · rw [List.reverse_append, List.reverse_singleton, List.singleton_append]
    have hcons := h.prev.cons fun hm => hn (List.mem_reverse.1 hm)
    rw [h.tail_eq] at hcons
    exact hcons
  · rw [List.length_append, List.length_singleton]
    dsimp only
    rw [h.count]
    omega

theorem listAdd_links (h : IsList m list nodes) (hne : k ≠ n) (hk : k ∉ nodes) :
    (listAdd m list n).1.next k = m.next k ∧ (listAdd m list n).1.prev k = m.prev k := by
  have hlast : nodes.getLast? ≠ some k := fun heq => hk (List.mem_of_getLast? heq)
  rw [listAdd_eq h]
  dsimp only
  rw [Function.update_of_ne hne, Function.update_of_ne hne, link_of_ne hlast]
  exact ⟨rfl, rfl⟩

/-- Another list is not changed. -/
theorem isList_add_of_disjoint (h : IsList m list nodes) (ho : IsList m other others)
    (hn : n ∉ others) (hdisj : ∀ k ∈ others, k ∉ nodes) :
    IsList (listAdd m list n).1 other others :=
  ho.congr fun k hk => listAdd_links h (fun heq => hn (heq ▸ hk)) (hdisj k hk)

/-! ## Removing a node -/

theorem listRemove_eq (h : IsList m list (pre ++ n :: post)) :
    listRemove m list n =
      ({ next := (link m.next list.head pre.getLast? post.head?).1
         prev := (link m.prev list.tail post.head? pre.getLast?).1 },
        { head := (link m.next list.head pre.getLast? post.head?).2
          tail := (link m.prev list.tail post.head? pre.getLast?).2, count := list.count - 1 }) := by
  have hne : pre.getLast? ≠ some n := by
    intro heq
    have hdisj := (List.nodup_append.1 h.nodup).2.2
    exact hdisj n (List.mem_of_getLast? heq) n List.mem_cons_self rfl
  unfold listRemove
  dsimp only
  rw [h.prev_eq, link_of_ne hne, h.next_eq]

theorem isList_remove (h : IsList m list (pre ++ n :: post)) :
    IsList (listRemove m list n).1 (listRemove m list n).2 (pre ++ post) := by
  rw [listRemove_eq h]
  refine ⟨h.next.remove, ?_, ?_⟩
  · have hprev := h.prev
    rw [List.reverse_append, List.reverse_cons, List.append_assoc, List.singleton_append] at hprev
    have hremove := hprev.remove
    rw [List.getLast?_reverse, List.head?_reverse] at hremove
    rw [List.reverse_append]
    exact hremove
  · have hcount := h.count
    rw [List.length_append, List.length_cons] at hcount
    rw [List.length_append]
    dsimp only
    omega

theorem listRemove_links (h : IsList m list (pre ++ n :: post)) (hk : k ∉ pre ++ n :: post) :
    (listRemove m list n).1.next k = m.next k ∧ (listRemove m list n).1.prev k = m.prev k := by
  have hlast : pre.getLast? ≠ some k := fun heq =>
    hk (List.mem_append_left _ (List.mem_of_getLast? heq))
  have hhead : post.head? ≠ some k := fun heq =>
    hk (List.mem_append_right _ (List.mem_cons_of_mem _ (List.mem_of_head? heq)))
  rw [listRemove_eq h]
  exact ⟨link_of_ne hlast, link_of_ne hhead⟩

theorem isList_remove_of_disjoint (h : IsList m list (pre ++ n :: post))
    (ho : IsList m other others) (hdisj : ∀ k ∈ others, k ∉ pre ++ n :: post) :
    IsList (listRemove m list n).1 other others :=
  ho.congr fun k hk => listRemove_links h (hdisj k hk)

/-- A node without links takes all nodes of a list that it is not in with it. -/
theorem listRemove_alone (hnext : m.next n = none) (hprev : m.prev n = none) :
    listRemove m list n = (m, { head := none, tail := none, count := list.count - 1 }) := by
  unfold listRemove
  rw [hprev, hnext]
  dsimp only [link]
  rw [hnext]

end Vmx
