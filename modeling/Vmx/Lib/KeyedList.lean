import Mathlib.Data.List.Basic
import Mathlib.Data.List.Perm.Basic
import Mathlib.Data.List.Nodup
import Mathlib.Order.Defs.LinearOrder
import Mathlib.Tactic.Linarith

/-!
# Lists of keyed nodes

A queue of nodes with keys is a list of pairs, the node first.  This module has
the list algebra of such queues over an arbitrary node type and an arbitrary
linear order of keys:

* `insertKeyed` puts a node behind every node whose key is not greater, which is
  the stable insertion of a priority queue;
* `eraseId` takes one node out;
* `bucket k` lists the nodes of key `k` in queue order.

A sorted list is determined by its buckets, and the lemmas say how the three
operations act on the node set (`ids`), on the order (`KeySorted`) and on the
buckets.
-/

namespace Vmx.Lib

universe u v

variable {α : Type u} {κ : Type v}

/-- The nodes of a keyed list, in order. -/
def ids (l : List (α × κ)) : List α := l.map Prod.fst

@[simp] theorem ids_nil : ids ([] : List (α × κ)) = [] := rfl

@[simp] theorem ids_cons (e : α × κ) (l : List (α × κ)) : ids (e :: l) = e.1 :: ids l := rfl

@[simp] theorem ids_append (l m : List (α × κ)) : ids (l ++ m) = ids l ++ ids m := by
  simp [ids]

theorem mem_ids {l : List (α × κ)} {x : α} : x ∈ ids l ↔ ∃ k, (x, k) ∈ l := by
  simp [ids]

theorem mem_ids_of_mem {l : List (α × κ)} {e : α × κ} (h : e ∈ l) : e.1 ∈ ids l :=
  List.mem_map_of_mem h

/-- With distinct nodes a node has one key. -/
theorem key_unique {l : List (α × κ)} (hn : (ids l).Nodup) {x : α} {j k : κ}
    (hj : (x, j) ∈ l) (hk : (x, k) ∈ l) : j = k := by
  induction l with
  | nil => simp at hj
  | cons e l ih =>
    rw [ids_cons, List.nodup_cons] at hn
    rcases List.mem_cons.1 hj with rfl | hj' <;> rcases List.mem_cons.1 hk with hk' | hk'
    · exact (Prod.mk.injEq .. ▸ hk').2.symm
    · exact absurd (mem_ids_of_mem hk') hn.1
    · subst hk'
      exact absurd (mem_ids_of_mem hj') hn.1
    · exact ih hn.2 hj' hk'

/-! ## Taking a node out -/

section Erase

variable [DecidableEq α]

/-- Take the node `x` out of the list. -/
def eraseId (l : List (α × κ)) (x : α) : List (α × κ) :=
  l.eraseP (fun e => decide (e.1 = x))

@[simp] theorem eraseId_nil (x : α) : eraseId ([] : List (α × κ)) x = [] := rfl

theorem eraseId_cons (e : α × κ) (l : List (α × κ)) (x : α) :
    eraseId (e :: l) x = if e.1 = x then l else e :: eraseId l x := by
  simp only [eraseId, List.eraseP_cons]
  split <;> simp_all

theorem eraseId_sublist (l : List (α × κ)) (x : α) : (eraseId l x).Sublist l :=
  List.eraseP_sublist

theorem ids_eraseId (l : List (α × κ)) (x : α) : ids (eraseId l x) = (ids l).erase x := by
  induction l with
  | nil => rfl
  | cons e l ih =>
    rw [eraseId_cons, ids_cons, List.erase_cons]
    by_cases h : e.1 = x
    · simp [h]
    · simp [h, ih]

theorem eraseId_of_not_mem {l : List (α × κ)} {x : α} (h : x ∉ ids l) : eraseId l x = l := by
  rw [eraseId, List.eraseP_of_forall_not]
  intro e he
  simp only [decide_eq_true_eq]
  rintro rfl
  exact h (mem_ids_of_mem he)

theorem mem_ids_eraseId {l : List (α × κ)} (hn : (ids l).Nodup) {x y : α} :
    y ∈ ids (eraseId l x) ↔ y ≠ x ∧ y ∈ ids l := by
  rw [ids_eraseId, hn.mem_erase_iff]

theorem nodup_eraseId {l : List (α × κ)} (hn : (ids l).Nodup) (x : α) :
    (ids (eraseId l x)).Nodup := by
  rw [ids_eraseId]
  exact hn.erase x

theorem mem_eraseId {l : List (α × κ)} (hn : (ids l).Nodup) {x : α} {e : α × κ} :
    e ∈ eraseId l x ↔ e.1 ≠ x ∧ e ∈ l := by
  induction l with
  | nil => simp
  | cons d l ih =>
    rw [ids_cons, List.nodup_cons] at hn
    rw [eraseId_cons]
    by_cases h : d.1 = x
    · subst h
      simp only [if_true, List.mem_cons]
      constructor
      · intro he
        refine ⟨?_, Or.inr he⟩
        intro hx
        exact hn.1 (hx ▸ mem_ids_of_mem he)
      · rintro ⟨hx, rfl | he⟩
        · exact absurd rfl hx
        · exact he
    · simp only [h, if_false, List.mem_cons, ih hn.2]
      constructor
      · rintro (rfl | ⟨hx, he⟩)
        · exact ⟨h, Or.inl rfl⟩
        · exact ⟨hx, Or.inr he⟩
      · rintro ⟨hx, rfl | he⟩
        · exact Or.inl rfl
        · exact Or.inr ⟨hx, he⟩

end Erase

/-! ## Stable insertion -/

section Insert

variable [LinearOrder κ]

/-- Insert a node behind every node whose key is not greater than its own. -/
def insertKeyed (l : List (α × κ)) (x : α) (k : κ) : List (α × κ) :=
  match l with
  | [] => [(x, k)]
  | e :: l => if k < e.2 then (x, k) :: e :: l else e :: insertKeyed l x k

theorem insertKeyed_perm (l : List (α × κ)) (x : α) (k : κ) :
    (insertKeyed l x k).Perm ((x, k) :: l) := by
  induction l with
  | nil => exact List.Perm.refl _
  | cons e l ih =>
    rw [insertKeyed]
    split
    · exact List.Perm.refl _
    · exact (ih.cons e).trans (List.Perm.swap _ _ _)

theorem mem_insertKeyed {l : List (α × κ)} {x : α} {k : κ} {e : α × κ} :
    e ∈ insertKeyed l x k ↔ e = (x, k) ∨ e ∈ l := by
  rw [(insertKeyed_perm l x k).mem_iff, List.mem_cons]

theorem ids_insertKeyed_perm (l : List (α × κ)) (x : α) (k : κ) :
    (ids (insertKeyed l x k)).Perm (x :: ids l) :=
  (insertKeyed_perm l x k).map Prod.fst

theorem nodup_insertKeyed {l : List (α × κ)} {x : α} {k : κ} (hx : x ∉ ids l)
    (hn : (ids l).Nodup) : (ids (insertKeyed l x k)).Nodup := by
  rw [(ids_insertKeyed_perm l x k).nodup_iff, List.nodup_cons]
  exact ⟨hx, hn⟩

/-- The keys do not decrease along the list. -/
def KeySorted (l : List (α × κ)) : Prop := l.Pairwise (fun d e => d.2 ≤ e.2)

theorem keySorted_insertKeyed {l : List (α × κ)} (h : KeySorted l) (x : α) (k : κ) :
    KeySorted (insertKeyed l x k) := by
  induction l with
  | nil => exact List.pairwise_singleton _ _
  | cons e l ih =>
    have hc := List.pairwise_cons.1 h
    rw [insertKeyed]
    split
    · rename_i hlt
      refine List.pairwise_cons.2 ⟨?_, h⟩
      intro d hd
      rcases List.mem_cons.1 hd with rfl | hd
      · exact le_of_lt hlt
      · exact le_trans (le_of_lt hlt) (hc.1 d hd)
    · rename_i hge
      refine List.pairwise_cons.2 ⟨?_, ih hc.2⟩
      intro d hd
      rcases mem_insertKeyed.1 hd with rfl | hd
      · exact not_lt.1 hge
      · exact hc.1 d hd

theorem keySorted_eraseId [DecidableEq α] {l : List (α × κ)} (h : KeySorted l) (x : α) :
    KeySorted (eraseId l x) :=
  h.sublist (eraseId_sublist l x)

theorem eraseId_insertKeyed [DecidableEq α] {l : List (α × κ)} {x : α} {k : κ} (hx : x ∉ ids l) :
    eraseId (insertKeyed l x k) x = l := by
  induction l with
  | nil => rw [insertKeyed, eraseId_cons, if_pos rfl]
  | cons e l ih =>
    obtain ⟨hne, hx⟩ := not_or.1 (mt List.mem_cons.2 hx)
    rw [insertKeyed]
    split
    · rw [eraseId_cons, if_pos rfl]
    · rw [eraseId_cons, if_neg (Ne.symm hne), ih hx]

end Insert

/-! ## Buckets -/

section Bucket

variable [DecidableEq κ]

/-- The nodes of key `k`, in list order. -/
def bucket (l : List (α × κ)) (k : κ) : List α :=
  (l.filter (fun e => decide (e.2 = k))).map Prod.fst

@[simp] theorem bucket_nil (k : κ) : bucket ([] : List (α × κ)) k = [] := rfl

theorem bucket_cons (e : α × κ) (l : List (α × κ)) (k : κ) :
    bucket (e :: l) k = if e.2 = k then e.1 :: bucket l k else bucket l k := by
  simp only [bucket, List.filter_cons]
  by_cases h : e.2 = k <;> simp [h]

@[simp] theorem bucket_append (l m : List (α × κ)) (k : κ) :
    bucket (l ++ m) k = bucket l k ++ bucket m k := by
  simp [bucket]

theorem mem_bucket {l : List (α × κ)} {k : κ} {x : α} : x ∈ bucket l k ↔ (x, k) ∈ l := by
  simp [bucket]

theorem bucket_eraseId [DecidableEq α] {l : List (α × κ)} (hn : (ids l).Nodup) (x : α) (k : κ) :
    bucket (eraseId l x) k = (bucket l k).erase x := by
  induction l with
  | nil => rfl
  | cons e l ih =>
    rw [ids_cons, List.nodup_cons] at hn
    rw [eraseId_cons, bucket_cons]
    by_cases h : e.1 = x
    · subst h
      have hnot : e.1 ∉ bucket l k := fun hm => hn.1 (mem_ids.2 ⟨k, mem_bucket.1 hm⟩)
      by_cases hk : e.2 = k
      · simp [hk]
      · simp only [if_true, hk, if_false]
        rw [List.erase_of_not_mem hnot]
    · by_cases hk : e.2 = k
      · simp [h, hk, bucket_cons, ih hn.2]
      · simp [h, hk, bucket_cons, ih hn.2]

end Bucket

section SortedBucket

variable [LinearOrder κ]

/-- A key below every key of the list has an empty bucket. -/
theorem bucket_eq_nil_of_lt {l : List (α × κ)} {k : κ} (h : ∀ e ∈ l, k < e.2) :
    bucket l k = [] := by
  induction l with
  | nil => rfl
  | cons e l ih =>
    have he := h e List.mem_cons_self
    rw [bucket_cons, if_neg he.ne', ih (fun d hd => h d (List.mem_cons_of_mem _ hd))]

/-- Stable insertion appends to one bucket of a sorted list. -/
theorem bucket_insertKeyed {l : List (α × κ)} (h : KeySorted l) (x : α) (k j : κ) :
    bucket (insertKeyed l x k) j = if k = j then bucket l j ++ [x] else bucket l j := by
  induction l with
  | nil =>
    rw [insertKeyed, bucket_cons]
    by_cases hj : k = j <;> simp [hj]
  | cons e l ih =>
    have hc := List.pairwise_cons.1 h
    rw [insertKeyed]
    split
    · rename_i hlt
      rw [bucket_cons]
      by_cases hj : k = j
      · subst hj
        have hnil : bucket (e :: l) k = [] := by
          refine bucket_eq_nil_of_lt fun d hd => ?_
          rcases List.mem_cons.1 hd with rfl | hd
          · exact hlt
          · exact lt_of_lt_of_le hlt (hc.1 d hd)
        simp [hnil]
      · simp [hj]
    · rw [bucket_cons, ih hc.2, bucket_cons]
      by_cases hj : k = j <;> by_cases he : e.2 = j <;> simp [hj, he]

/-- The first node of a sorted list is the first node of the lowest bucket that
is not empty. -/
theorem head?_eq_of_bucket {l : List (α × κ)} (h : KeySorted l) {k : κ} {x : α} {xs : List α}
    (hk : bucket l k = x :: xs) (hlow : ∀ j, j < k → bucket l j = []) :
    l.head? = some (x, k) := by
  cases l with
  | nil => simp at hk
  | cons e l =>
    have hc := List.pairwise_cons.1 h
    have hmem : (x, k) ∈ e :: l := mem_bucket.1 (by rw [hk]; exact List.mem_cons_self)
    have hle : e.2 ≤ k := by
      rcases List.mem_cons.1 hmem with heq | hin
      · rw [← heq]
      · exact hc.1 _ hin
    have heq : e.2 = k := by
      by_contra hne
      have := hlow e.2 (lt_of_le_of_ne hle hne)
      simp [bucket_cons] at this
    rw [bucket_cons, if_pos heq] at hk
    have hx := (List.cons_eq_cons.1 hk).1
    simp [← hx, ← heq]

end SortedBucket

end Vmx.Lib
