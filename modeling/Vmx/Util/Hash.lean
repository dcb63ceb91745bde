import Vmx.Util.HashLib
import Mathlib.Data.List.Perm.Subperm
import Vmx.Lib.Transition

/-!
# What a hash table holds

`Good` says that every list of the table ends and that the lists have the nodes that were
put and not removed, each in the list of its key.  It is kept by every call but one:
`hashTableRemove` passes the node and the one before it to `sllRemove` in the wrong order,
so the head of a list is never removed and any other node becomes its own successor
(`not_good_remove`).
-/

namespace Vmx.Hash

open Lib

universe u

variable {κ : Type u} {t : HashTable κ} {n : Nat}

/-- The table holds the nodes that were put and not removed. -/
structure Good (t : HashTable κ) : Prop where
  nodup : t.nodes.Nodup
  lists : ∀ i, ∃ list, Chain t.next (t.pHashTable i).head list ∧
    (t.pHashTable i).tail = list.getLast? ∧ ∀ n, n ∈ list ↔ n ∈ t.nodes ∧ t.key n = i

/-- Nodes that match have the same key. -/
def Agree (t : HashTable κ) : Prop :=
  ∀ content a b cmpArg, t.cmpFunc content a b cmpArg = true →
    t.keyFunc t.numElements (content a) t.keyArg = t.keyFunc t.numElements (content b) t.keyArg

theorem good_init (log2Size : Nat) (cmpFunc : (Nat → κ) → Nat → Nat → Nat → Bool)
    (keyFunc : Nat → κ → Int → Nat) (keyArg : Int) (next : Nat → Option Nat) (content : Nat → κ) :
    Good (hashTableInit log2Size cmpFunc keyFunc keyArg next content) where
  nodup := List.nodup_nil
  lists i := ⟨[], rfl, rfl, by simp [hashTableInit]⟩

/-! ## The search -/

/-- The search ends, and finds a node that matches if one is held. -/
theorem hashTableFind_spec (h : Good t) (hagree : Agree t) (pMatchNode cmpArg : Nat) {fuel : Nat}
    (hfuel : t.nodes.length ≤ fuel) :
    ∃ r, hashTableFind fuel t pMatchNode cmpArg = some r ∧
      (∀ n, r = some n → n ∈ t.nodes ∧ t.cmpFunc t.content pMatchNode n cmpArg = true) ∧
      (r = none → ∀ n ∈ t.nodes, t.cmpFunc t.content pMatchNode n cmpArg = false) := by
  obtain ⟨list, hchain, _, hmem⟩ := h.lists (t.key pMatchNode)
  have hsub : list ⊆ t.nodes := fun n hn => ((hmem n).1 hn).1
  have hlen : list.length ≤ t.nodes.length := (List.subperm_of_subset hchain.nodup hsub).length_le
  refine ⟨_, findLoop_spec hchain (Nat.le_trans hlen hfuel), fun n hn => ?_, fun hnone n hn => ?_⟩
  · have hmatch := List.find?_some hn
    exact ⟨hsub (List.mem_of_find?_eq_some hn), hmatch⟩
  · by_contra hmatch
    rw [Bool.not_eq_false] at hmatch
    have hkey : t.key n = t.key pMatchNode := (hagree _ _ _ _ hmatch).symm
    exact List.find?_eq_none.1 hnone n ((hmem n).2 ⟨hn, hkey⟩) hmatch

/-! ## Put -/

theorem good_put (h : Good t) (hn : n ∉ t.nodes) : Good (hashTablePut t n) where
  nodup := List.nodup_cons.2 ⟨hn, h.nodup⟩
  lists i := by
    obtain ⟨list, hchain, htail, hmem⟩ := h.lists i
    have hnot : n ∉ list := fun hm => hn ((hmem n).1 hm).1
    have hkey : ∀ m, (hashTablePut t n).key m = t.key m := fun _ => rfl
    have hnodes : ∀ m, m ∈ (hashTablePut t n).nodes ↔ m = n ∨ m ∈ t.nodes := fun m => List.mem_cons
    have hlinks : (hashTablePut t n).next =
        Function.update t.next n (t.pHashTable (t.key n)).head := by
      unfold hashTablePut sllPutAtHead HashTable.setList
      dsimp only
      split <;> rfl
    by_cases hi : i = t.key n
    · subst hi
      have hlist : (hashTablePut t n).pHashTable (t.key n) =
          { head := some n, tail := (n :: list).getLast? } := by
        unfold hashTablePut sllPutAtHead HashTable.setList
        dsimp only
        rw [Function.update_self]
        have hhead := hchain.head_eq
        cases list with
        | nil => simp [hhead]
        | cons m list => simp [hhead, htail, List.getLast?_cons_cons]
      rw [hlist, hlinks]
      refine ⟨n :: list, hchain.cons hnot, rfl, fun m => ?_⟩
      rw [List.mem_cons, hmem, hnodes, hkey]
      constructor
      · rintro (rfl | ⟨hm, hk⟩)
        · exact ⟨.inl rfl, rfl⟩
        · exact ⟨.inr hm, hk⟩
      · rintro ⟨rfl | hm, hk⟩
        · exact .inl rfl
        · exact .inr ⟨hm, hk⟩
    · have hlist : (hashTablePut t n).pHashTable i = t.pHashTable i :=
        Function.update_of_ne hi _ _
      rw [hlist, hlinks]
      refine ⟨list, hchain.congr fun m hm => ?_, htail, fun m => ?_⟩
      · have hne : m ≠ n := fun heq => hnot (heq ▸ hm)
        exact Function.update_of_ne hne _ _
      · rw [hmem, hnodes, hkey]
        constructor
        · rintro ⟨hm, hk⟩
          exact ⟨.inr hm, hk⟩
        · rintro ⟨rfl | hm, hk⟩
          · exact absurd hk.symm hi
          · exact ⟨hm, hk⟩

/-- The owner of a node that is not in the table may write it. -/
theorem good_write (h : Good t) (hn : n ∉ t.nodes) (content : κ) :
    Good { t with content := Function.update t.content n content } where
  nodup := h.nodup
  lists i := by
    obtain ⟨list, hchain, htail, hmem⟩ := h.lists i
    refine ⟨list, hchain, htail, fun m => ?_⟩
    rw [hmem]
    refine and_congr_right fun hm => ?_
    have hne : m ≠ n := fun heq => hn (heq ▸ hm)
    unfold HashTable.key
    dsimp only
    rw [Function.update_of_ne hne]

/-! ## Remove -/

/-- `hashTableRemove` changes no head of a list, and no link but that of the node. -/
theorem hashTableRemove_frame {fuel : Nat} {t' : HashTable κ}
    (hr : hashTableRemove fuel t n = some t') :
    (∀ i, (t'.pHashTable i).head = (t.pHashTable i).head) ∧ (∀ m, m ≠ n → t'.next m = t.next m) ∧
      t'.nodes = t.nodes.erase n ∧ ∀ m, t'.key m = t.key m := by
  unfold hashTableRemove at hr
  dsimp only at hr
  split at hr
  next => cases hr
  next pPrevNode _ =>
    cases hr
    have hhead : (sllRemove t.next (t.pHashTable (t.key n)) (some n) pPrevNode).1.head =
        (t.pHashTable (t.key n)).head := by
      unfold sllRemove
      split
      · rfl
      · dsimp only
        split <;> rfl
    refine ⟨fun i => ?_, fun m hm => ?_, rfl, fun _ => rfl⟩
    · unfold HashTable.setList
      dsimp only
      by_cases hi : i = t.key n
      · rw [hi, Function.update_self, hhead]
      · rw [Function.update_of_ne hi]
    · unfold HashTable.setList sllRemove
      dsimp only
      split
      · rfl
      · split <;> exact Function.update_of_ne hm _ _

/-- A node that is removed is still in its list, or the list does not end any more. -/
theorem not_good_remove {fuel : Nat} {t' : HashTable κ} (h : Good t) (hn : n ∈ t.nodes)
    (hr : hashTableRemove fuel t n = some t') : ¬ Good t' := by
  intro h'
  obtain ⟨hhead, hnext, hnodes, _⟩ := hashTableRemove_frame hr
  obtain ⟨list, hchain, _, hmem⟩ := h.lists (t.key n)
  obtain ⟨list', hchain', _, hmem'⟩ := h'.lists (t.key n)
  obtain ⟨pre, post, rfl⟩ := List.append_of_mem ((hmem n).2 ⟨hn, rfl⟩)
  rw [hhead] at hchain'
  have hbefore : ∀ m ∈ pre, t'.next m = t.next m := by
    intro m hm
    refine hnext m fun heq => ?_
    have hdisj := (List.nodup_append.1 hchain.nodup).2.2
    exact hdisj m hm n List.mem_cons_self heq
  have hin := ((hmem' n).1 (Chain.mem_of_prefix hchain hbefore hchain')).1
  rw [hnodes] at hin
  exact (h.nodup.mem_erase_iff.1 hin).1 rfl

/-! ## Runs -/

/-- No node is removed. -/
def Sound (_ : HashTable κ × Nat) : Op κ → Prop
  | .remove _ => False
  | _ => True

/-- What a run keeps. -/
def Inv (s : HashTable κ × Nat) : Prop := Good s.1 ∧ Agree s.1 ∧ s.1.nodes.length ≤ s.2

theorem inv_step {s s' : HashTable κ × Nat} {op : Op κ} (h : Inv s) (hsound : Sound s op)
    (hs : step s op = some s') : Inv s' := by
  obtain ⟨hgood, hagree, hle⟩ := h
  cases op with
  | write node content =>
    rw [step, Option.ite_none_left_eq_some] at hs
    obtain ⟨hn, hm⟩ := hs
    cases hm
    exact ⟨good_write hgood hn content, hagree, hle⟩
  | put node =>
    rw [step, Option.ite_none_left_eq_some] at hs
    obtain ⟨hn, hm⟩ := hs
    cases hm
    exact ⟨good_put hgood hn, hagree, Nat.succ_le_succ hle⟩
  | find pMatchNode cmpArg =>
    obtain ⟨_, _, rfl⟩ := Option.map_eq_some_iff.1 hs
    exact ⟨hgood, hagree, hle⟩
  | remove node => exact absurd hsound id

/-- The table after a run in which no node is removed; and no table keeps its nodes when one
of them is removed. -/
theorem hashTable_run {log2Size : Nat} {cmpFunc : (Nat → κ) → Nat → Nat → Nat → Bool}
    {keyFunc : Nat → κ → Int → Nat} {keyArg : Int} {next : Nat → Option Nat} {content : Nat → κ}
    {ops : List (Op κ)} {t : HashTable κ} {puts : Nat}
    (hagree : Agree (hashTableInit log2Size cmpFunc keyFunc keyArg next content))
    (hsound : AllSteps step Sound
      (hashTableInit log2Size cmpFunc keyFunc keyArg next content, 0) ops)
    (hrun : exec step (hashTableInit log2Size cmpFunc keyFunc keyArg next content, 0) ops =
      some (t, puts)) :
    Good t ∧
      (∀ pMatchNode cmpArg fuel, t.nodes.length ≤ fuel →
        ∃ r, hashTableFind fuel t pMatchNode cmpArg = some r ∧
          (∀ n, r = some n → n ∈ t.nodes ∧ t.cmpFunc t.content pMatchNode n cmpArg = true) ∧
          (r = none → ∀ n ∈ t.nodes, t.cmpFunc t.content pMatchNode n cmpArg = false)) ∧
      ∀ n ∈ t.nodes, ∀ fuel t', hashTableRemove fuel t n = some t' → ¬ Good t' := by
  have hinit : Inv (hashTableInit log2Size cmpFunc keyFunc keyArg next content, 0) :=
    ⟨good_init .., hagree, Nat.le_refl 0⟩
  obtain ⟨hgood, hagree', _⟩ :=
    exec_invariant_of (fun _ _ _ h hs hstep => inv_step h hs hstep) hinit hsound hrun
  exact ⟨hgood, fun pMatchNode cmpArg fuel hfuel =>
    hashTableFind_spec hgood hagree' pMatchNode cmpArg hfuel,
    fun n hn fuel t' hr => not_good_remove hgood hn hr⟩

end Vmx.Hash
