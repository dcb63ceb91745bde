import Vmx.Lib.KeyedList

/-!
# The queue classes of `util`

A queue is the list of its nodes, head first, each with the key stored in it.
`dllAdd`, `dllInsert`, `dllRemove` and `dllGet` are then the list operations
append, insert, erase and uncons.  The module has the methods of two of the
three classes of the kernel, with the loops of the source:

* `qFifoLib`: `qFifoPut`, whose key only says head or tail;
* `qPrioLib`: `qPrioPut`, `qPrioGet`, `qPrioRemove`, `qPrioMove`,
  `qPrioExpired` and `qPrioOffset`.

The bit mapped class is in `Vmx.Util.QPriBmp`.

`qPrioPut` is the stable insertion `Lib.insertKeyed`, and `qPrioMove_eq` says
when a move stays in place.
-/

namespace Vmx.Util

open Vmx.Lib

/-- Words are 32 bits wide on the i386. -/
def u32 (n : Nat) : Nat := n % 4294967296

theorem u32_of_lt {n : Nat} (h : n < 4294967296) : u32 n = n := Nat.mod_eq_of_lt h

theorem u32_lt (n : Nat) : u32 n < 4294967296 := Nat.mod_lt _ (by decide)

/-- `FIFO_KEY_HEAD`, the word `-1`. -/
def FIFO_KEY_HEAD : Nat := 4294967295

def FIFO_KEY_TAIL : Nat := 0

variable {α : Type}

/-- `Q_FIRST`: the node at the head. -/
def qFirst (q : List (α × Nat)) : Option α := q.head?.map Prod.fst

@[simp] theorem qFirst_nil : qFirst ([] : List (α × Nat)) = none := rfl

@[simp] theorem qFirst_cons (e : α × Nat) (q : List (α × Nat)) :
    qFirst (e :: q) = some e.1 := rfl

theorem qFirst_eq_head? (q : List (α × Nat)) : qFirst q = (ids q).head? := by
  cases q <;> rfl

theorem qFirst_eq_none {q : List (α × Nat)} : qFirst q = none ↔ q = [] := by
  cases q <;> simp [qFirst]

/-! ## `qFifoLib` -/

/-- The node goes to the head for the key `FIFO_KEY_HEAD`, else to the tail. -/
def qFifoPut (q : List (α × Nat)) (x : α) (key : Nat) : List (α × Nat) :=
  if key = FIFO_KEY_HEAD then (x, key) :: q else q ++ [(x, key)]

theorem ids_qFifoPut_perm (q : List (α × Nat)) (x : α) (key : Nat) :
    (ids (qFifoPut q x key)).Perm (x :: ids q) := by
  rw [qFifoPut]
  split
  · exact List.Perm.refl _
  · simp

/-! ## `qPrioLib` -/

/-- Walk the list up to the first node with a greater key and insert before it. -/
def qPrioPut (q : List (α × Nat)) (x : α) (key : Nat) : List (α × Nat) :=
  match q with
  | [] => [(x, key)]
  | pQNode :: rest =>
    if key < pQNode.2 then (x, key) :: pQNode :: rest else pQNode :: qPrioPut rest x key

/-- Take the node at the head, if there is one. -/
def qPrioGet (q : List (α × Nat)) : Option α × List (α × Nat) :=
  match q with
  | [] => (none, [])
  | pQNode :: rest => (some pQNode.1, rest)

/-- `Q_EXPIRED`: take the node at the head when its key is not above `ticks`,
the value of `tickGet`. -/
def qPrioExpired (q : List (α × Nat)) (ticks : Nat) : Option α × List (α × Nat) :=
  match q with
  | [] => (none, [])
  | pQPriNode :: rest =>
    if pQPriNode.2 ≤ ticks then (some pQPriNode.1, rest) else (none, pQPriNode :: rest)

/-- Add `delta` to every key. -/
def qPrioOffset (q : List (α × Nat)) (delta : Nat) : List (α × Nat) :=
  q.map fun e => (e.1, u32 (e.2 + delta))

section

variable [DecidableEq α]

/-- `dllRemove` of a node of the list. -/
def qPrioRemove (q : List (α × Nat)) (x : α) : List (α × Nat) := eraseId q x

/-- The nodes before and behind `x`: `DLL_PREV` and `DLL_NEXT`.  `pPrev` is the
node before the head of `q`. -/
def neighbours (pPrev : Option (α × Nat)) (q : List (α × Nat)) (x : α) :
    Option (α × Nat) × Option (α × Nat) :=
  match q with
  | [] => (none, none)
  | e :: rest => if e.1 = x then (pPrev, rest.head?) else neighbours (some e) rest x

/-- Overwrite the key of `x` where it stands. -/
def setKey (q : List (α × Nat)) (x : α) (newKey : Nat) : List (α × Nat) :=
  q.map fun e => if e.1 = x then (x, newKey) else e

/-- The condition under which `qPrioMove` leaves the node where it is. -/
def staysInPlace (q : List (α × Nat)) (x : α) (newKey : Nat) : Bool :=
  let (pPrev, pNext) := neighbours none q x
  (match pPrev with | none => true | some p => decide (p.2 ≤ newKey)) &&
    (match pNext with | none => true | some n => decide (newKey ≤ n.2))

/-- Write the key when the neighbours allow it, else remove and put. -/
def qPrioMove (q : List (α × Nat)) (x : α) (newKey : Nat) : List (α × Nat) :=
  if staysInPlace q x newKey then setKey q x newKey else qPrioPut (qPrioRemove q x) x newKey

end

/-! ## What the methods do to the list -/

theorem qPrioPut_eq_insertKeyed (q : List (α × Nat)) (x : α) (key : Nat) :
    qPrioPut q x key = insertKeyed q x key := by
  induction q with
  | nil => rfl
  | cons e q ih => rw [qPrioPut, insertKeyed, ih]

theorem ids_qPrioOffset (q : List (α × Nat)) (delta : Nat) :
    ids (qPrioOffset q delta) = ids q := by
  simp [ids, qPrioOffset]

/-- A node of the list splits it. -/
theorem exists_split {q : List (α × Nat)} {x : α} (h : x ∈ ids q) (hn : (ids q).Nodup) :
    ∃ l k r, q = l ++ (x, k) :: r ∧ x ∉ ids l ∧ x ∉ ids r := by
  obtain ⟨k, hk⟩ := mem_ids.1 h
  obtain ⟨l, r, rfl⟩ := List.append_of_mem hk
  rw [ids_append, ids_cons] at hn
  have hsplit := List.nodup_append.1 hn
  exact ⟨l, k, r, rfl, fun hm => hsplit.2.2 x hm x List.mem_cons_self rfl,
    (List.nodup_cons.1 hsplit.2.1).1⟩

section

variable [DecidableEq α]

theorem ids_setKey (q : List (α × Nat)) (x : α) (newKey : Nat) : ids (setKey q x newKey) = ids q := by
  simp only [ids, setKey, List.map_map]
  refine List.map_congr_left fun e _ => ?_
  by_cases h : e.1 = x <;> simp [h]

theorem setKey_of_not_mem {q : List (α × Nat)} {x : α} (h : x ∉ ids q) (newKey : Nat) :
    setKey q x newKey = q := by
  rw [setKey, List.map_congr_left (g := id)]
  · simp
  · intro e he
    have : e.1 ≠ x := fun hx => h (hx ▸ mem_ids_of_mem he)
    simp [this]

theorem setKey_split {l r : List (α × Nat)} {x : α} {k : Nat}
    (hn : (ids (l ++ (x, k) :: r)).Nodup) (newKey : Nat) :
    setKey (l ++ (x, k) :: r) x newKey = l ++ (x, newKey) :: r := by
  rw [ids_append, ids_cons] at hn
  have hsplit := List.nodup_append.1 hn
  have hl : x ∉ ids l := fun hm => hsplit.2.2 x hm x List.mem_cons_self rfl
  have hr : x ∉ ids r := (List.nodup_cons.1 hsplit.2.1).1
  have := setKey_of_not_mem hl newKey
  have := setKey_of_not_mem hr newKey
  simp_all [setKey]

/-- A node of the list splits it, and the neighbours are the ends of the parts. -/
theorem neighbours_split {l r : List (α × Nat)} {x : α} {k : Nat} (hl : x ∉ ids l)
    (pPrev : Option (α × Nat)) :
    neighbours pPrev (l ++ (x, k) :: r) x = ((l.getLast?).or pPrev, r.head?) := by
  induction l generalizing pPrev with
  | nil => simp [neighbours]
  | cons e l ih =>
    rw [ids_cons, List.mem_cons, not_or] at hl
    rw [List.cons_append, neighbours, if_neg (Ne.symm hl.1), ih hl.2]
    cases l with
    | nil => rfl
    | cons d l => simp [List.getLast?_eq_some_getLast]

theorem eraseId_split {l r : List (α × Nat)} {x : α} {k : Nat} (hl : x ∉ ids l) :
    eraseId (l ++ (x, k) :: r) x = l ++ r := by
  induction l with
  | nil => simp [eraseId_cons]
  | cons e l ih =>
    rw [ids_cons, List.mem_cons, not_or] at hl
    rw [List.cons_append, eraseId_cons, if_neg (Ne.symm hl.1), ih hl.2]
    rfl

theorem ids_qPrioMove_perm {q : List (α × Nat)} {x : α} (h : x ∈ ids q) (newKey : Nat) :
    (ids (qPrioMove q x newKey)).Perm (ids q) := by
  rw [qPrioMove]
  split
  · rw [ids_setKey]
  · rw [qPrioPut_eq_insertKeyed, qPrioRemove]
    refine (ids_insertKeyed_perm _ _ _).trans ?_
    rw [ids_eraseId]
    exact (List.perm_cons_erase h).symm

/-- The node stays in place exactly when the list is still sorted with the new
key written over the old one. -/
theorem staysInPlace_split {l r : List (α × Nat)} {x : α} {k newKey : Nat} (hl : x ∉ ids l) :
    staysInPlace (l ++ (x, k) :: r) x newKey = true ↔
      (∀ p, l.getLast? = some p → p.2 ≤ newKey) ∧ (∀ n, r.head? = some n → newKey ≤ n.2) := by
  rw [staysInPlace, neighbours_split hl]
  cases hp : l.getLast? <;> cases hn : r.head? <;> simp

end

/-- The keys along a sorted list: the last key bounds every key. -/
theorem le_getLast?_of_keySorted {l : List (α × Nat)} (h : KeySorted l) {p : α × Nat}
    (hp : l.getLast? = some p) : ∀ e ∈ l, e.2 ≤ p.2 := by
  obtain ⟨l', rfl⟩ := List.getLast?_eq_some_iff.1 hp
  intro e he
  rcases List.mem_append.1 he with hin | hin
  · exact (List.pairwise_append.1 h).2.2 e hin p List.mem_cons_self
  · obtain rfl : e = p := by simpa using hin
    exact Nat.le_refl _

/-- The keys along a sorted list: the first key bounds every key. -/
theorem head?_le_of_keySorted {r : List (α × Nat)} (h : KeySorted r) {n : α × Nat}
    (hn : r.head? = some n) : ∀ e ∈ r, n.2 ≤ e.2 := by
  cases r with
  | nil => simp at hn
  | cons d r =>
    obtain rfl : d = n := by simpa using hn
    intro e he
    rcases List.mem_cons.1 he with rfl | hin
    · exact Nat.le_refl _
    · exact (List.pairwise_cons.1 h).1 e hin

/-! ## A move keeps the order -/

section

variable [DecidableEq α]

/-- After a move the list has the node with its new key, and the other nodes as
before. -/
theorem mem_qPrioMove {q : List (α × Nat)} {x : α} (h : x ∈ ids q) (hn : (ids q).Nodup)
    {newKey : Nat} {e : α × Nat} :
    e ∈ qPrioMove q x newKey ↔ e = (x, newKey) ∨ (e.1 ≠ x ∧ e ∈ q) := by
  rw [qPrioMove]
  split
  · obtain ⟨l, k, r, rfl, hl, hr⟩ := exists_split h hn
    rw [setKey_split hn]
    have hout : e ∈ l ∨ e ∈ r → e.1 ≠ x := by
      rintro (he | he) rfl
      · exact hl (mem_ids_of_mem he)
      · exact hr (mem_ids_of_mem he)
    simp only [List.mem_append, List.mem_cons]
    constructor
    · rintro (he | rfl | he)
      · exact Or.inr ⟨hout (Or.inl he), Or.inl he⟩
      · exact Or.inl rfl
      · exact Or.inr ⟨hout (Or.inr he), Or.inr (Or.inr he)⟩
    · rintro (rfl | ⟨hne, he | rfl | he⟩)
      · exact Or.inr (Or.inl rfl)
      · exact Or.inl he
      · exact absurd rfl hne
      · exact Or.inr (Or.inr he)
  · rw [qPrioPut_eq_insertKeyed, mem_insertKeyed, qPrioRemove, mem_eraseId hn]

theorem keySorted_qPrioMove {q : List (α × Nat)} {x : α} (h : x ∈ ids q) (hn : (ids q).Nodup)
    (hs : KeySorted q) (newKey : Nat) : KeySorted (qPrioMove q x newKey) := by
  rw [qPrioMove]
  split
  · rename_i hstay
    obtain ⟨l, k, r, rfl, hl, -⟩ := exists_split h hn
    obtain ⟨hprev, hnext⟩ := (staysInPlace_split hl).1 hstay
    have happ := List.pairwise_append.1 hs
    have hsr : KeySorted r := (List.pairwise_cons.1 happ.2.1).2
    have hlow : ∀ e ∈ l, e.2 ≤ newKey := by
      intro e he
      cases hlast : l.getLast? with
      | none =>
        rw [List.getLast?_eq_none_iff] at hlast
        subst hlast
        simp at he
      | some p => exact Nat.le_trans (le_getLast?_of_keySorted happ.1 hlast e he) (hprev p hlast)
    have hhigh : ∀ e ∈ r, newKey ≤ e.2 := by
      intro e he
      cases hhead : r.head? with
      | none =>
        rw [List.head?_eq_none_iff] at hhead
        subst hhead
        simp at he
      | some n => exact Nat.le_trans (hnext n hhead) (head?_le_of_keySorted hsr hhead e he)
    rw [setKey_split hn]
    refine List.pairwise_append.2 ⟨happ.1, List.pairwise_cons.2 ⟨hhigh, hsr⟩, ?_⟩
    intro d hd e he
    rcases List.mem_cons.1 he with rfl | hin
    · exact hlow d hd
    · exact happ.2.2 d hd e (List.mem_cons_of_mem _ hin)
  · rw [qPrioPut_eq_insertKeyed, qPrioRemove]
    exact keySorted_insertKeyed (keySorted_eraseId hs x) x newKey

theorem length_qPrioMove {q : List (α × Nat)} {x : α} (h : x ∈ ids q) (newKey : Nat) :
    (qPrioMove q x newKey).length = q.length := by
  have := (ids_qPrioMove_perm h newKey).length_eq
  simpa [ids] using this

end

end Vmx.Util
