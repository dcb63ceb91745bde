import Vmx.Os.FfsLib
import Mathlib.Logic.Function.Basic

/-!
# `qPriBmpLib`: the bit mapped priority queue

One list for each of the 256 keys, a bit for each list that is not empty, and a
cached pointer to the first node.  The model keeps the four parts of the head
and the key word of the nodes.

`BmpRep q l` says that the head `q` represents the sorted list `l`: list `k` is
the bucket of `k`, bit `k` says whether it is empty, and the cached pointer is
the first node of `l`.  Every method keeps the representation, and on the list
it is the stable insertion, the removal of the first node, and the removal of a
given node; a move is the removal followed by the insertion.
-/

namespace Vmx.Util

open Vmx.Lib Vmx.Os

variable {α : Type}

/-- `Q_PRI_BMP_HEAD`, with the key word of each node. -/
structure QPriBmpHead (α : Type) where
  pFirst : Option α
  bmp : Nat → Nat
  head : Nat → List α
  key : α → Nat

/-- The loop of `qHeadFirstFind` from word `i` on, with `n` words left. -/
def qHeadFirstFindFrom (bmp : Nat → Nat) (i n : Nat) : Option Nat :=
  match n with
  | 0 => none
  | n + 1 =>
    let bit := ffsLsb (bmp i)
    if bit ≠ 0 then some ((i <<< 5) + bit - 1) else qHeadFirstFindFrom bmp (i + 1) n

/-- Index of the first list that is not empty; `none` is `ERROR`. -/
def qHeadFirstFind (q : QPriBmpHead α) : Option Nat := qHeadFirstFindFrom q.bmp 0 8

/-- `DLL_HEAD` of the first list, the value that `pFirst` is refreshed with. -/
def firstNode (q : QPriBmpHead α) : Option α :=
  match qHeadFirstFind q with
  | none => none
  | some first => (q.head first).head?

/-- `qPriBmpInit`: all lists empty. -/
def qPriBmpInit (key : α → Nat) : QPriBmpHead α :=
  { pFirst := none, bmp := fun _ => 0, head := fun _ => [], key := key }

/-- `bmp[key >> 5] |= (1 << (key & 0x1f))`. -/
def bmpSet (bmp : Nat → Nat) (key : Nat) : Nat → Nat :=
  Function.update bmp (key >>> 5) (bmp (key >>> 5) ||| (1 <<< (key % 32)))

/-- `bmp[key >> 5] &= ~(1 << (key & 0x1f))`. -/
def bmpClear (bmp : Nat → Nat) (key : Nat) : Nat → Nat :=
  Function.update bmp (key >>> 5)
    (bmp (key >>> 5) &&& (4294967295 ^^^ (1 <<< (key % 32))))

section

variable [DecidableEq α]

def qPriBmpPut (q : QPriBmpHead α) (x : α) (key : Nat) : QPriBmpHead α :=
  let q := { q with bmp := bmpSet q.bmp key }
  let q := { q with
    head := Function.update q.head key (q.head key ++ [x])
    key := Function.update q.key x key }
  -- the cached pointer is refreshed after every put
  { q with pFirst := firstNode q }

def qPriBmpGet (q : QPriBmpHead α) : Option α × QPriBmpHead α :=
  match q.pFirst with
  | none => (none, q)
  | some pQNode =>
    let i := q.key pQNode
    let q := { q with head := Function.update q.head i (q.head i).tail }
    let q := if q.head i = [] then { q with bmp := bmpClear q.bmp i } else q
    (some pQNode, { q with pFirst := firstNode q })

def qPriBmpRemove (q : QPriBmpHead α) (x : α) : QPriBmpHead α :=
  let key := q.key x
  let q := { q with head := Function.update q.head key ((q.head key).erase x) }
  let q := if q.head key = [] then { q with bmp := bmpClear q.bmp key } else q
  if q.pFirst = some x then { q with pFirst := firstNode q } else q

def qPriBmpMove (q : QPriBmpHead α) (x : α) (newKey : Nat) : QPriBmpHead α :=
  qPriBmpPut (qPriBmpRemove q x) x newKey

end

/-! ## The bit map -/

/-- The bit of list `k`. -/
def bmpBit (bmp : Nat → Nat) (k : Nat) : Bool := (bmp (k / 32)).testBit (k % 32)

/-- Every word of the map is a 32 bit word. -/
def BmpWords (bmp : Nat → Nat) : Prop := ∀ i, bmp i < 4294967296

theorem shiftRight_five (k : Nat) : k >>> 5 = k / 32 := by
  rw [Nat.shiftRight_eq_div_pow]

theorem testBit_one_shiftLeft (a j : Nat) : (1 <<< a).testBit j = decide (a = j) := by
  rw [Nat.one_shiftLeft, Nat.testBit_two_pow]

theorem bmpBit_set (bmp : Nat → Nat) (key k : Nat) :
    bmpBit (bmpSet bmp key) k = (decide (key = k) || bmpBit bmp k) := by
  rw [bmpBit, bmpBit, bmpSet, shiftRight_five]
  by_cases hw : k / 32 = key / 32
  · rw [hw, Function.update_self, Nat.testBit_or, testBit_one_shiftLeft, Bool.or_comm]
    congr 1
    exact decide_eq_decide.2 (by omega)
  · rw [Function.update_of_ne hw]
    simp [show key ≠ k by rintro rfl; exact hw rfl]

theorem bmpBit_clear (bmp : Nat → Nat) (key k : Nat) :
    bmpBit (bmpClear bmp key) k = (bmpBit bmp k && decide (key ≠ k)) := by
  rw [bmpBit, bmpBit, bmpClear, shiftRight_five]
  by_cases hw : k / 32 = key / 32
  · rw [hw, Function.update_self, Nat.testBit_and, Nat.testBit_xor, testBit_one_shiftLeft,
      show (4294967295 : Nat) = 2 ^ 32 - 1 from rfl, Nat.testBit_two_pow_sub_one]
    have hlt : k % 32 < 32 := Nat.mod_lt _ (by decide)
    by_cases hk : key = k
    · subst hk
      simp [hlt]
    · have : ¬ key % 32 = k % 32 := by omega
      simp [hlt, hk, this]
  · rw [Function.update_of_ne hw]
    simp [show key ≠ k by rintro rfl; exact hw rfl]

theorem bmpWords_set {bmp : Nat → Nat} (h : BmpWords bmp) (key : Nat) :
    BmpWords (bmpSet bmp key) := by
  intro i
  by_cases hi : i = key >>> 5
  · subst hi
    have hbit : key % 32 < 32 := Nat.mod_lt _ (by decide)
    rw [bmpSet, Function.update_self]
    refine Nat.or_lt_two_pow (n := 32) (h _) ?_
    rw [Nat.one_shiftLeft]
    exact Nat.pow_lt_pow_right (by decide) hbit
  · rw [bmpSet, Function.update_of_ne hi]
    exact h i

theorem bmpWords_clear {bmp : Nat → Nat} (h : BmpWords bmp) (key : Nat) :
    BmpWords (bmpClear bmp key) := by
  intro i
  by_cases hi : i = key >>> 5
  · subst hi
    rw [bmpClear, Function.update_self]
    exact Nat.lt_of_le_of_lt Nat.and_le_left (h _)
  · rw [bmpClear, Function.update_of_ne hi]
    exact h i

/-- The loop finds the lowest set bit of the words that are left, if there is
one. -/
theorem qHeadFirstFindFrom_spec {bmp : Nat → Nat} (hw : BmpWords bmp) (n : Nat) :
    ∀ i,
      match qHeadFirstFindFrom bmp i n with
      | none => ∀ k, 32 * i ≤ k → k < 32 * (i + n) → bmpBit bmp k = false
      | some first =>
        32 * i ≤ first ∧ first < 32 * (i + n) ∧ bmpBit bmp first = true ∧
          ∀ k, 32 * i ≤ k → k < first → bmpBit bmp k = false := by
  induction n with
  | zero =>
    intro i k h1 h2
    omega
  | succ n ih =>
    intro i
    rw [qHeadFirstFindFrom]
    by_cases hz : bmp i = 0
    · -- word `i` is empty: the loop goes on
      have hskip : ∀ k, 32 * i ≤ k → k < 32 * (i + 1) → bmpBit bmp k = false := by
        intro k h1 h2
        rw [bmpBit, show k / 32 = i by omega, hz, Nat.zero_testBit]
      have hrest := ih (i + 1)
      simp only [hz, ffsLsb_zero, ne_eq, not_true_eq_false, if_false]
      revert hrest
      cases qHeadFirstFindFrom bmp (i + 1) n with
      | none =>
        intro hrest k h1 h2
        by_cases hk : k < 32 * (i + 1)
        · exact hskip k h1 hk
        · exact hrest k (by omega) (by omega)
      | some first =>
        rintro ⟨h1, h2, h3, h4⟩
        refine ⟨by omega, by omega, h3, fun k hk1 hk2 => ?_⟩
        by_cases hk : k < 32 * (i + 1)
        · exact hskip k hk1 hk
        · exact h4 k (by omega) hk2
    · obtain ⟨b, hlow⟩ := exists_lowestBit (Nat.pos_of_ne_zero hz)
      have hb : b < 32 := lowestBit_lt hlow (hw i)
      have hffs : ffsLsb (bmp i) = b + 1 := ffsLsb_eq (hw i) hlow
      have hfirst : (i <<< 5) + (b + 1) - 1 = 32 * i + b := by
        rw [Nat.shiftLeft_eq]
        omega
      simp only [hffs, ne_eq, Nat.add_eq_zero_iff, one_ne_zero, and_false, not_false_iff, if_true,
        hfirst]
      refine ⟨by omega, by omega, ?_, fun k h1 h2 => ?_⟩
      · rw [bmpBit, show (32 * i + b) / 32 = i by omega, show (32 * i + b) % 32 = b by omega,
          testBit_of_lowestBit hlow b (Nat.le_refl b)]
        simp
      · rw [bmpBit, show k / 32 = i by omega, testBit_of_lowestBit hlow (k % 32) (by omega)]
        simp only [decide_eq_false_iff_not]
        omega

/-! ## The list that a head represents -/

/-- The head `q` represents the sorted list `l`. -/
structure BmpRep (q : QPriBmpHead α) (l : List (α × Nat)) : Prop where
  sorted : KeySorted l
  nodup : (ids l).Nodup
  bound : ∀ e ∈ l, e.2 < 256
  key : ∀ e ∈ l, q.key e.1 = e.2
  list : ∀ k, q.head k = bucket l k
  words : BmpWords q.bmp
  bit : ∀ k, k < 256 → bmpBit q.bmp k = decide (bucket l k ≠ [])
  first : q.pFirst = qFirst l

theorem bmpRep_init (key : α → Nat) : BmpRep (qPriBmpInit key) [] where
  sorted := List.Pairwise.nil
  nodup := List.nodup_nil
  bound := by simp
  key := by simp
  list := fun _ => rfl
  words := fun _ => Nat.two_pow_pos 32
  bit := fun k _ => by simp [qPriBmpInit, bmpBit]
  first := rfl

/-- With the lists and the bits right, the refreshed pointer is the first
node. -/
theorem firstNode_eq {q : QPriBmpHead α} {l : List (α × Nat)} (hs : KeySorted l)
    (hb : ∀ e ∈ l, e.2 < 256) (hl : ∀ k, q.head k = bucket l k) (hw : BmpWords q.bmp)
    (hbit : ∀ k, k < 256 → bmpBit q.bmp k = decide (bucket l k ≠ [])) :
    firstNode q = qFirst l := by
  have hspec := qHeadFirstFindFrom_spec hw 8 0
  rw [firstNode, qHeadFirstFind]
  revert hspec
  cases qHeadFirstFindFrom q.bmp 0 8 with
  | none =>
    intro hspec
    cases l with
    | nil => rfl
    | cons e l =>
      have he := hb e List.mem_cons_self
      have := hspec e.2 (by omega) (by omega)
      rw [hbit e.2 he] at this
      simp [bucket_cons] at this
  | some first =>
    rintro ⟨-, h2, h3, h4⟩
    have hne : bucket l first ≠ [] := by
      rw [hbit first (by omega)] at h3
      simpa using h3
    obtain ⟨x, xs, hx⟩ := List.exists_cons_of_ne_nil hne
    have hlow : ∀ j, j < first → bucket l j = [] := by
      intro j hj
      have := h4 j (by omega) hj
      rw [hbit j (by omega)] at this
      simpa using this
    have hhead := head?_eq_of_bucket hs hx hlow
    simp [hl, hx, qFirst, hhead]

section

variable [DecidableEq α]

theorem bmpRep_put {q : QPriBmpHead α} {l : List (α × Nat)} (h : BmpRep q l) {x : α} {key : Nat}
    (hx : x ∉ ids l) (hk : key < 256) : BmpRep (qPriBmpPut q x key) (insertKeyed l x key) := by
  have hs := keySorted_insertKeyed h.sorted x key
  have hbound : ∀ e ∈ insertKeyed l x key, e.2 < 256 := by
    intro e he
    rcases mem_insertKeyed.1 he with rfl | he
    · exact hk
    · exact h.bound e he
  have hlist : ∀ k, Function.update q.head key (q.head key ++ [x]) k
      = bucket (insertKeyed l x key) k := by
    intro k
    rw [bucket_insertKeyed h.sorted]
    by_cases hkk : key = k
    · subst hkk
      simp [h.list]
    · rw [Function.update_of_ne (Ne.symm hkk), if_neg hkk, h.list]
  have hbit : ∀ k, k < 256 →
      bmpBit (bmpSet q.bmp key) k = decide (bucket (insertKeyed l x key) k ≠ []) := by
    intro k hk256
    rw [bmpBit_set, bucket_insertKeyed h.sorted, h.bit k hk256]
    by_cases hkk : key = k <;> simp [hkk]
  refine ⟨hs, nodup_insertKeyed hx h.nodup, hbound, ?_, hlist, bmpWords_set h.words key, hbit, ?_⟩
  · intro e he
    show Function.update q.key x key e.1 = e.2
    rcases mem_insertKeyed.1 he with rfl | he
    · rw [Function.update_self]
    · have hne : e.1 ≠ x := fun heq => hx (heq ▸ mem_ids_of_mem he)
      rw [Function.update_of_ne hne, h.key e he]
  · exact firstNode_eq hs hbound hlist (bmpWords_set h.words key) hbit

/-- Unlinking `x` and clearing the bit of its list when that gets empty. -/
theorem unlink_bits {q : QPriBmpHead α} {l : List (α × Nat)} (h : BmpRep q l) {x : α} {key : Nat}
    (hx : (x, key) ∈ l) {head : Nat → List α} {bmp : Nat → Nat}
    (hhead : head = Function.update q.head key ((q.head key).erase x))
    (hbmp : bmp = if head key = [] then bmpClear q.bmp key else q.bmp) :
    (∀ k, head k = bucket (eraseId l x) k) ∧ BmpWords bmp ∧
      ∀ k, k < 256 → bmpBit bmp k = decide (bucket (eraseId l x) k ≠ []) := by
  have hlist : ∀ k, head k = bucket (eraseId l x) k := by
    intro k
    rw [hhead, bucket_eraseId h.nodup, ← h.list]
    by_cases hkk : k = key
    · subst hkk
      rw [Function.update_self]
    · rw [Function.update_of_ne hkk]
      have hnot : x ∉ q.head k := by
        rw [h.list]
        intro hm
        exact hkk (key_unique h.nodup (mem_bucket.1 hm) hx)
      rw [List.erase_of_not_mem hnot]
  have hother : ∀ k, k ≠ key → bucket (eraseId l x) k = bucket l k := by
    intro k hkk
    rw [← hlist k, hhead, Function.update_of_ne hkk, h.list]
  refine ⟨hlist, ?_, ?_⟩
  · rw [hbmp]
    split
    · exact bmpWords_clear h.words key
    · exact h.words
  · intro k hk256
    rw [hbmp]
    by_cases hkk : key = k
    · subst hkk
      split
      · rename_i hempty
        rw [bmpBit_clear, ← hlist]
        simp [hempty]
      · rename_i hne
        have hold : bucket l key ≠ [] := List.ne_nil_of_mem (mem_bucket.2 hx)
        rw [h.bit key hk256, ← hlist]
        simp [hne, hold]
    · have hsame : bmpBit bmp k = bmpBit q.bmp k := by
        rw [hbmp]
        split
        · rw [bmpBit_clear]
          simp [hkk]
        · rfl
      rw [hbmp] at hsame
      rw [hsame, h.bit k hk256, hother k (Ne.symm hkk)]

theorem bmpRep_remove {q : QPriBmpHead α} {l : List (α × Nat)} (h : BmpRep q l) {x : α}
    (hx : x ∈ ids l) : BmpRep (qPriBmpRemove q x) (eraseId l x) := by
  obtain ⟨key, hkey⟩ := mem_ids.1 hx
  have hqk : q.key x = key := h.key (x, key) hkey
  obtain ⟨hlist, hwords, hbit⟩ := unlink_bits h hkey rfl rfl
  have hs := keySorted_eraseId h.sorted x
  have hbound : ∀ e ∈ eraseId l x, e.2 < 256 :=
    fun e he => h.bound e ((eraseId_sublist l x).mem he)
  have hkeys : ∀ e ∈ eraseId l x, q.key e.1 = e.2 :=
    fun e he => h.key e ((eraseId_sublist l x).mem he)
  have hnodup := nodup_eraseId h.nodup x
  rw [qPriBmpRemove, hqk]
  by_cases hempty : Function.update q.head key ((q.head key).erase x) key = []
  all_goals
    simp only [hempty, if_true, if_false] at hwords hbit ⊢
    split
    · refine ⟨hs, hnodup, hbound, hkeys, hlist, hwords, hbit, ?_⟩
      exact firstNode_eq hs hbound hlist hwords hbit
    · rename_i hfirst
      refine ⟨hs, hnodup, hbound, hkeys, hlist, hwords, hbit, ?_⟩
      -- another node is first, and it stays first
      have hf : q.pFirst = qFirst l := h.first
      show q.pFirst = qFirst (eraseId l x)
      rw [hf]
      cases l with
      | nil => rfl
      | cons e l =>
        have hne : e.1 ≠ x := by
          rintro rfl
          exact hfirst (by rw [hf]; rfl)
        rw [eraseId_cons, if_neg hne]
        rfl

theorem bmpRep_get {q : QPriBmpHead α} {l : List (α × Nat)} (h : BmpRep q l) :
    (qPriBmpGet q).1 = (qPrioGet l).1 ∧ BmpRep (qPriBmpGet q).2 (qPrioGet l).2 := by
  rw [qPriBmpGet, h.first]
  cases l with
  | nil => exact ⟨rfl, h⟩
  | cons e l =>
    refine ⟨rfl, ?_⟩
    have hmem : (e.1, e.2) ∈ e :: l := List.mem_cons_self
    have hqk : q.key e.1 = e.2 := h.key e List.mem_cons_self
    have herase : eraseId (e :: l) e.1 = l := by rw [eraseId_cons, if_pos rfl]
    have htail : (q.head e.2).tail = (q.head e.2).erase e.1 := by
      rw [h.list, bucket_cons, if_pos rfl]
      simp
    have hs : KeySorted l := (List.pairwise_cons.1 h.sorted).2
    have hbound : ∀ d ∈ l, d.2 < 256 := fun d hd => h.bound d (List.mem_cons_of_mem _ hd)
    have hkeys : ∀ d ∈ l, q.key d.1 = d.2 := fun d hd => h.key d (List.mem_cons_of_mem _ hd)
    have hnodup : (ids l).Nodup := (List.nodup_cons.1 h.nodup).2
    obtain ⟨hlist, hwords, hbit⟩ := unlink_bits h hmem rfl rfl
    rw [herase] at hlist hbit
    simp only [qFirst_cons, hqk, htail]
    by_cases hempty : Function.update q.head e.2 ((q.head e.2).erase e.1) e.2 = []
    all_goals
      simp only [hempty, if_true, if_false] at hwords hbit ⊢
      refine ⟨hs, hnodup, hbound, hkeys, hlist, hwords, hbit, ?_⟩
      exact firstNode_eq hs hbound hlist hwords hbit

theorem bmpRep_move {q : QPriBmpHead α} {l : List (α × Nat)} (h : BmpRep q l) {x : α} {newKey : Nat}
    (hx : x ∈ ids l) (hk : newKey < 256) :
    BmpRep (qPriBmpMove q x newKey) (insertKeyed (eraseId l x) x newKey) := by
  refine bmpRep_put (bmpRep_remove h hx) ?_ hk
  rw [mem_ids_eraseId h.nodup]
  exact fun hm => hm.1 rfl

end

end Vmx.Util
