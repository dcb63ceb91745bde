import Vmx.Lib.Chain

/-!
# `dllLib`: doubly linked lists without a count

`DlNodes` are the links in the nodes, which the lists of the system share.  `IsDll` says that a
list has the nodes of a Lean list, forwards and backwards.  The functions are called with a list
and a node, so their tests for `NULL` are left out.
-/

namespace Vmx.Util

open Lib

/-- The links of every `DL_NODE`. -/
structure DlNodes (ν : Type) where
  prev : ν → Option ν
  next : ν → Option ν

/-- `DL_LIST`. -/
structure DL_LIST (ν : Type) where
  head : Option ν
  tail : Option ν

variable {ν : Type}

/-- `dllInit`. -/
def dllInit : DL_LIST ν := { head := none, tail := none }

section

variable [DecidableEq ν]

/-- `dllAdd`: a node behind the last one. -/
def dllAdd (m : DlNodes ν) (pList : DL_LIST ν) (pNode : ν) : DlNodes ν × DL_LIST ν :=
  let head := if pList.head = none then some pNode else pList.head
  let pTail := pList.tail
  let next := match pTail with
    | none => m.next
    | some pTail => Function.update m.next pTail (some pNode)
  ({ prev := Function.update m.prev pNode pTail, next := Function.update next pNode none },
    { head := head, tail := some pNode })

/-- `dllRemove`. -/
def dllRemove (m : DlNodes ν) (pList : DL_LIST ν) (pNode : ν) : DlNodes ν × DL_LIST ν :=
  let pPrev := m.prev pNode
  let pNext := m.next pNode
  let next := link m.next pList.head pPrev pNext
  let prev := link m.prev pList.tail pNext pPrev
  ({ prev := prev.1, next := next.1 }, { head := next.2, tail := prev.2 })

/-- `dllInsert`: a node behind `pPrev`, or in front of the list. -/
def dllInsert (m : DlNodes ν) (pList : DL_LIST ν) (pPrev : Option ν) (pNode : ν) :
    DlNodes ν × DL_LIST ν :=
  let pNext := match pPrev with
    | none => pList.head
    | some pPrev => m.next pPrev
  let next := link m.next pList.head pPrev (some pNode)
  -- at the end of the list the source sets the link back of the node twice
  let prev := link m.prev pList.tail pNext (some pNode)
  ({ prev := Function.update prev.1 pNode pPrev, next := Function.update next.1 pNode pNext },
    { head := next.2, tail := prev.2 })

/-- `dllGet`: the first node is taken out. -/
def dllGet (m : DlNodes ν) (pList : DL_LIST ν) : Option ν × DlNodes ν × DL_LIST ν :=
  match pList.head with
  | none => (none, m, pList)
  | some pNode =>
    match m.next pNode with
    | none => (some pNode, m, { head := none, tail := none })
    | some pNext =>
      (some pNode, { m with prev := Function.update m.prev pNext none },
        { pList with head := some pNext })

end

/-! ## The nodes of a list -/

/-- The list has these nodes, in this order. -/
structure IsDll (m : DlNodes ν) (pList : DL_LIST ν) (nodes : List ν) : Prop where
  next : Chain m.next pList.head nodes
  prev : Chain m.prev pList.tail nodes.reverse

variable {m m' : DlNodes ν} {pList : DL_LIST ν} {nodes pre post : List ν} {n k : ν}

theorem isDll_init (m : DlNodes ν) : IsDll m dllInit [] := ⟨rfl, rfl⟩

namespace IsDll

theorem nodup (h : IsDll m pList nodes) : nodes.Nodup := h.next.nodup

theorem head_eq (h : IsDll m pList nodes) : pList.head = nodes.head? := h.next.head_eq

theorem tail_eq (h : IsDll m pList nodes) : pList.tail = nodes.getLast? := by
  rw [h.prev.head_eq, List.head?_reverse]

theorem next_eq (h : IsDll m pList (pre ++ n :: post)) : m.next n = post.head? := h.next.next_eq

theorem prev_eq (h : IsDll m pList (pre ++ n :: post)) : m.prev n = pre.getLast? := by
  have hprev := h.prev
  rw [List.reverse_append, List.reverse_cons, List.append_assoc, List.singleton_append] at hprev
  rw [hprev.next_eq, List.head?_reverse]

/-- Only the links of the nodes matter. -/
theorem congr (h : IsDll m pList nodes)
    (hn : ∀ n ∈ nodes, m'.next n = m.next n ∧ m'.prev n = m.prev n) : IsDll m' pList nodes :=
  ⟨h.next.congr fun n hm => (hn n hm).1,
    h.prev.congr fun n hm => (hn n (List.mem_reverse.1 hm)).2⟩

end IsDll

/-! ## Inserting -/

section

variable [DecidableEq ν]

theorem dllInsert_eq (h : IsDll m pList (pre ++ post)) (n : ν) :
    dllInsert m pList pre.getLast? n =
      ({ prev := Function.update (link m.prev pList.tail post.head? (some n)).1 n pre.getLast?
         next := Function.update (link m.next pList.head pre.getLast? (some n)).1 n post.head? },
        { head := (link m.next pList.head pre.getLast? (some n)).2
          tail := (link m.prev pList.tail post.head? (some n)).2 }) := by
  have hnext : (match pre.getLast? with
      | none => pList.head
      | some pPrev => m.next pPrev) = post.head? := by
    rcases List.eq_nil_or_concat pre with hpre | ⟨pre', p, hpre⟩
    · rw [hpre] at h ⊢
      exact h.head_eq
    · rw [List.concat_eq_append] at hpre
      rw [hpre, List.append_assoc, List.singleton_append] at h
      rw [hpre, List.getLast?_append, List.getLast?_singleton, Option.some_or]
      exact h.next_eq
  unfold dllInsert
  rw [hnext]

theorem isDll_insert (h : IsDll m pList (pre ++ post)) (hn : n ∉ pre ++ post) :
    IsDll (dllInsert m pList pre.getLast? n).1 (dllInsert m pList pre.getLast? n).2
      (pre ++ n :: post) := by
  rw [dllInsert_eq h]
  refine ⟨h.next.insert hn, ?_⟩
  have hprev := h.prev
  rw [List.reverse_append] at hprev
  have hinsert := hprev.insert (n := n) (by
    rw [← List.reverse_append, List.mem_reverse]
    exact hn)
  rw [List.getLast?_reverse, List.head?_reverse] at hinsert
  rw [List.reverse_append, List.reverse_cons, List.append_assoc, List.singleton_append]
  exact hinsert

theorem dllInsert_links (h : IsDll m pList (pre ++ post)) (hne : k ≠ n) (hk : k ∉ pre ++ post) :
    (dllInsert m pList pre.getLast? n).1.next k = m.next k ∧
      (dllInsert m pList pre.getLast? n).1.prev k = m.prev k := by
  have hlast : pre.getLast? ≠ some k := fun heq =>
    hk (List.mem_append_left _ (List.mem_of_getLast? heq))
  have hhead : post.head? ≠ some k := fun heq =>
    hk (List.mem_append_right _ (List.mem_of_head? heq))
  rw [dllInsert_eq h]
  dsimp only
  rw [Function.update_of_ne hne, Function.update_of_ne hne, link_of_ne hlast, link_of_ne hhead]
  exact ⟨rfl, rfl⟩

/-! ## Adding -/

/-- Adding is inserting behind the last node. -/
theorem dllAdd_eq (h : IsDll m pList nodes) (n : ν) :
    dllAdd m pList n = dllInsert m pList nodes.getLast? n := by
  have h' := h
  rw [← List.append_nil nodes] at h'
  rw [dllInsert_eq h', dllAdd, h.tail_eq, h.head_eq]
  cases hlast : nodes.getLast? with
  | none =>
    rw [List.getLast?_eq_none_iff] at hlast
    rw [hlast]
    rfl
  | some p =>
    have hne : nodes.head? ≠ none := fun hnone => by
      rw [List.head?_eq_none_iff] at hnone
      rw [hnone] at hlast
      cases hlast
    rw [if_neg hne]
    rfl

theorem isDll_add (h : IsDll m pList nodes) (hn : n ∉ nodes) :
    IsDll (dllAdd m pList n).1 (dllAdd m pList n).2 (nodes ++ [n]) := by
  rw [dllAdd_eq h]
  have h' := h
  rw [← List.append_nil nodes] at h'
  exact isDll_insert h' (by rwa [List.append_nil])

theorem dllAdd_links (h : IsDll m pList nodes) (hne : k ≠ n) (hk : k ∉ nodes) :
    (dllAdd m pList n).1.next k = m.next k ∧ (dllAdd m pList n).1.prev k = m.prev k := by
  rw [dllAdd_eq h]
  have h' := h
  rw [← List.append_nil nodes] at h'
  exact dllInsert_links h' hne (by rwa [List.append_nil])

/-! ## Removing -/

theorem dllRemove_eq (h : IsDll m pList (pre ++ n :: post)) :
    dllRemove m pList n =
      ({ prev := (link m.prev pList.tail post.head? pre.getLast?).1
         next := (link m.next pList.head pre.getLast? post.head?).1 },
        { head := (link m.next pList.head pre.getLast? post.head?).2
          tail := (link m.prev pList.tail post.head? pre.getLast?).2 }) := by
  unfold dllRemove
  rw [h.prev_eq, h.next_eq]

theorem isDll_remove (h : IsDll m pList (pre ++ n :: post)) :
    IsDll (dllRemove m pList n).1 (dllRemove m pList n).2 (pre ++ post) := by
  rw [dllRemove_eq h]
  refine ⟨h.next.remove, ?_⟩
  have hprev := h.prev
  rw [List.reverse_append, List.reverse_cons, List.append_assoc, List.singleton_append] at hprev
  have hremove := hprev.remove
  rw [List.getLast?_reverse, List.head?_reverse] at hremove
  rw [List.reverse_append]
  exact hremove

theorem dllRemove_links (h : IsDll m pList (pre ++ n :: post)) (hk : k ∉ pre ++ n :: post) :
    (dllRemove m pList n).1.next k = m.next k ∧ (dllRemove m pList n).1.prev k = m.prev k := by
  have hlast : pre.getLast? ≠ some k := fun heq =>
    hk (List.mem_append_left _ (List.mem_of_getLast? heq))
  have hhead : post.head? ≠ some k := fun heq =>
    hk (List.mem_append_right _ (List.mem_cons_of_mem _ (List.mem_of_head? heq)))
  rw [dllRemove_eq h]
  exact ⟨link_of_ne hlast, link_of_ne hhead⟩

/-! ## Taking the first node -/

/-- Taking the first node is removing it. -/
theorem dllGet_cons (h : IsDll m pList (n :: post)) :
    dllGet m pList = (some n, dllRemove m pList n) := by
  have hsplit : IsDll m pList ([] ++ n :: post) := h
  have hremove := dllRemove_eq hsplit
  have hnext := hsplit.next_eq
  have hhead := h.head_eq
  have htail := h.tail_eq
  rw [hremove, dllGet, hhead, List.head?_cons]
  dsimp only
  rw [hnext]
  cases post with
  | nil =>
    dsimp only [link, List.head?_nil, List.getLast?_nil]
  | cons p post =>
    dsimp only [link, List.head?_cons, List.getLast?_nil]

end

end Vmx.Util
