import Vmx.Ugl.UdcClr
import Mathlib.Tactic.Ring
import Mathlib.Data.Int.Interval

/-!
# The lists of a colour table

`ClutLists s free used` says that `free` and `used` are the two lists of the palette: every
index is on one of them, on the used list when its use count is positive, and the used list
is linked both ways.  `Tidy` adds what the calls rely on besides: the first free entry has
no entry before it.

An allocation that takes the first free entry keeps this (`Tidy.take`), and so does the
release of an entry (`Tidy.release`).  A free entry that the caller names is taken out of
the free list by its `prevIndex`, which `uglCommonClutFree` does not keep and which stays
behind when the entry goes to the used list.  `Takes` leaves those allocations out.
-/

namespace Vmx.Ugl

open Lib

/-! ## The links as pointers -/

/-- An index as a link; -1 ends a list. -/
def ptr (i : Int) : Option Int := if i = -1 then none else some i

theorem ptr_neg_one : ptr (-1) = none := rfl

theorem ptr_of_ne {i : Int} (h : i ≠ -1) : ptr i = some i := if_neg h

theorem ptr_eq_none {i : Int} : ptr i = none ↔ i = -1 := by
  rw [ptr]
  split <;> simp_all

theorem ptr_eq_some {i j : Int} : ptr i = some j ↔ i = j ∧ i ≠ -1 := by
  rw [ptr]
  split <;> simp_all

namespace Clut

def next (s : Clut) (i : Int) : Option Int := ptr (s.clut i).nextIndex

def prev (s : Clut) (i : Int) : Option Int := ptr (s.clut i).prevIndex

variable (s : Clut) (i j x : Int) (color : UInt32)

@[simp] theorem next_setNext : (s.setNext i x).next = Function.update s.next i (ptr x) := by
  funext j
  simp only [next, setNext, Function.update_apply]
  split <;> rfl

@[simp] theorem prev_setNext : (s.setNext i x).prev = s.prev := by
  funext j
  simp only [prev, setNext, Function.update_apply]
  split <;> simp_all

@[simp] theorem next_setPrev : (s.setPrev i x).next = s.next := by
  funext j
  simp only [next, setPrev, Function.update_apply]
  split <;> simp_all

@[simp] theorem prev_setPrev : (s.setPrev i x).prev = Function.update s.prev i (ptr x) := by
  funext j
  simp only [prev, setPrev, Function.update_apply]
  split <;> rfl

@[simp] theorem next_setCount : (s.setCount i x).next = s.next := by
  funext j
  simp only [next, setCount, Function.update_apply]
  split <;> simp_all

@[simp] theorem prev_setCount : (s.setCount i x).prev = s.prev := by
  funext j
  simp only [prev, setCount, Function.update_apply]
  split <;> simp_all

@[simp] theorem next_setColor : (s.setColor i color).next = s.next := by
  funext j
  simp only [next, setColor, Function.update_apply]
  split <;> simp_all

@[simp] theorem prev_setColor : (s.setColor i color).prev = s.prev := by
  funext j
  simp only [prev, setColor, Function.update_apply]
  split <;> simp_all

@[simp] theorem count_setNext : ((s.setNext i x).clut j).useCount = (s.clut j).useCount := by
  simp only [setNext, Function.update_apply]
  split <;> simp_all

@[simp] theorem count_setPrev : ((s.setPrev i x).clut j).useCount = (s.clut j).useCount := by
  simp only [setPrev, Function.update_apply]
  split <;> simp_all

@[simp] theorem count_setColor : ((s.setColor i color).clut j).useCount = (s.clut j).useCount := by
  simp only [setColor, Function.update_apply]
  split <;> simp_all

theorem count_setCount :
    ((s.setCount i x).clut j).useCount = if j = i then x else (s.clut j).useCount := by
  simp only [setCount, Function.update_apply]
  split <;> simp_all

@[simp] theorem color_setNext : ((s.setNext i x).clut j).color = (s.clut j).color := by
  simp only [setNext, Function.update_apply]
  split <;> simp_all

@[simp] theorem color_setPrev : ((s.setPrev i x).clut j).color = (s.clut j).color := by
  simp only [setPrev, Function.update_apply]
  split <;> simp_all

@[simp] theorem color_setCount : ((s.setCount i x).clut j).color = (s.clut j).color := by
  simp only [setCount, Function.update_apply]
  split <;> simp_all

theorem color_setColor :
    ((s.setColor i color).clut j).color = if j = i then color else (s.clut j).color := by
  simp only [setColor, Function.update_apply]
  split <;> simp_all

@[simp] theorem nextIndex_setPrev :
    ((s.setPrev i x).clut j).nextIndex = (s.clut j).nextIndex := by
  simp only [setPrev, Function.update_apply]
  split <;> simp_all

@[simp] theorem nextIndex_setCount :
    ((s.setCount i x).clut j).nextIndex = (s.clut j).nextIndex := by
  simp only [setCount, Function.update_apply]
  split <;> simp_all

@[simp] theorem prevIndex_setCount :
    ((s.setCount i x).clut j).prevIndex = (s.clut j).prevIndex := by
  simp only [setCount, Function.update_apply]
  split <;> simp_all

@[simp] theorem numColors_setNext : (s.setNext i x).numColors = s.numColors := rfl

@[simp] theorem numColors_setPrev : (s.setPrev i x).numColors = s.numColors := rfl

@[simp] theorem firstFree_setNext : (s.setNext i x).firstFreeIndex = s.firstFreeIndex := rfl

@[simp] theorem firstFree_setPrev : (s.setPrev i x).firstFreeIndex = s.firstFreeIndex := rfl

@[simp] theorem firstUsed_setNext : (s.setNext i x).firstUsedIndex = s.firstUsedIndex := rfl

@[simp] theorem firstUsed_setPrev : (s.setPrev i x).firstUsedIndex = s.firstUsedIndex := rfl

end Clut

/-! ## The two lists -/

/-- `free` and `used` are the free list and the used list of the palette. -/
structure ClutLists (s : Clut) (free used : List Int) : Prop where
  /-- Both lists end, with -1. -/
  free_chain : Chain s.next (ptr s.firstFreeIndex) free
  used_chain : Chain s.next (ptr s.firstUsedIndex) used
  /-- `prevIndex` leads back along the used list, and is -1 at its first entry. -/
  used_back : Back s.prev none used
  /-- Every index is on exactly one list, once. -/
  nodup : (free ++ used).Nodup
  mem_iff : ∀ i, s.Valid i ↔ i ∈ free ∨ i ∈ used
  /-- The used entries are those that have users. -/
  used_iff : ∀ i, s.Valid i → (i ∈ used ↔ 0 < (s.clut i).useCount)

/-- The lists of a palette, and what the calls rely on besides. -/
structure Tidy (s : Clut) (free used : List Int) : Prop extends ClutLists s free used where
  free_back : ∀ i ∈ free.head?, s.prev i = none
  count_free : ∀ i ∈ free, (s.clut i).useCount = 0
  count_lt : ∀ i ∈ used, (s.clut i).useCount < 2 ^ 31

section Links

variable {s : Clut} {free used : List Int} {i j : Int}

theorem ClutLists.valid_free (h : ClutLists s free used) (hi : i ∈ free) : s.Valid i :=
  (h.mem_iff i).2 (Or.inl hi)

theorem ClutLists.valid_used (h : ClutLists s free used) (hi : i ∈ used) : s.Valid i :=
  (h.mem_iff i).2 (Or.inr hi)

theorem ClutLists.disjoint (h : ClutLists s free used) (hi : i ∈ free) : i ∉ used :=
  fun hmem => (List.nodup_append.1 h.nodup).2.2 i hi i hmem rfl

theorem ptr_of_mem (hi : s.Valid i) : ptr i = some i := by
  apply ptr_of_ne
  have := hi.1
  omega

/-- A link that leads to a list of the palette is -1 or an index. -/
theorem link_cases {next : Int → Option Int} {nodes : List Int}
    (h : Chain next (ptr i) nodes) (hvalid : ∀ j ∈ nodes, s.Valid j) : i = -1 ∨ s.Valid i := by
  cases nodes with
  | nil => exact Or.inl (ptr_eq_none.1 h)
  | cons n nodes =>
    obtain ⟨rfl, _⟩ := ptr_eq_some.1 h.1
    exact Or.inr (hvalid _ List.mem_cons_self)

/-- The conditional writes of a back link. -/
theorem prev_setPrev_if {q p : Int} {c : Prop} [Decidable c] (hc : c ↔ q ≠ -1) :
    (if c then s.setPrev q p else s).prev = linkBack s.prev (ptr q) (ptr p) := by
  by_cases hq : q = -1
  · subst hq
    rw [if_neg (fun h => hc.1 h rfl), ptr_neg_one, linkBack]
  · rw [if_pos (hc.2 hq), ptr_of_ne hq, linkBack, Clut.prev_setPrev]

@[simp] theorem next_setPrev_if {q p : Int} {c : Prop} [Decidable c] :
    (if c then s.setPrev q p else s).next = s.next := by
  split <;> simp

@[simp] theorem firstFree_setPrev_if {q p : Int} {c : Prop} [Decidable c] :
    (if c then s.setPrev q p else s).firstFreeIndex = s.firstFreeIndex := by
  split <;> simp

@[simp] theorem firstUsed_setPrev_if {q p : Int} {c : Prop} [Decidable c] :
    (if c then s.setPrev q p else s).firstUsedIndex = s.firstUsedIndex := by
  split <;> simp

@[simp] theorem numColors_setPrev_if {q p : Int} {c : Prop} [Decidable c] :
    (if c then s.setPrev q p else s).numColors = s.numColors := by
  split <;> simp

@[simp] theorem count_setPrev_if {q p : Int} {c : Prop} [Decidable c] :
    ((if c then s.setPrev q p else s).clut j).useCount = (s.clut j).useCount := by
  split <;> simp

@[simp] theorem color_setPrev_if {q p : Int} {c : Prop} [Decidable c] :
    ((if c then s.setPrev q p else s).clut j).color = (s.clut j).color := by
  split <;> simp

end Links

/-! ## Taking the first free entry -/

section PushUsed

variable (s : Clut) (i j : Int)

@[simp] theorem next_pushUsed :
    (pushUsed s i).next = Function.update s.next i (ptr s.firstUsedIndex) := by
  simp only [pushUsed]
  show (if _ then Clut.setPrev _ _ _ else _ : Clut).next = _
  rw [next_setPrev_if, Clut.next_setNext]

theorem prev_pushUsed (hi : i ≠ -1) :
    (pushUsed s i).prev = linkBack s.prev (ptr s.firstUsedIndex) (some i) := by
  simp only [pushUsed]
  show (if _ then Clut.setPrev _ _ _ else _ : Clut).prev = _
  rw [prev_setPrev_if Iff.rfl, Clut.prev_setNext, ptr_of_ne hi, Clut.firstUsed_setNext]

@[simp] theorem numColors_pushUsed : (pushUsed s i).numColors = s.numColors := by
  simp only [pushUsed]
  rw [numColors_setPrev_if, Clut.numColors_setNext]

@[simp] theorem firstFree_pushUsed : (pushUsed s i).firstFreeIndex = s.firstFreeIndex := by
  simp only [pushUsed]
  rw [firstFree_setPrev_if, Clut.firstFree_setNext]

@[simp] theorem firstUsed_pushUsed : (pushUsed s i).firstUsedIndex = i := rfl

@[simp] theorem count_pushUsed :
    ((pushUsed s i).clut j).useCount = (s.clut j).useCount := by
  simp only [pushUsed]
  rw [count_setPrev_if, Clut.count_setNext]

@[simp] theorem color_pushUsed : ((pushUsed s i).clut j).color = (s.clut j).color := by
  simp only [pushUsed]
  rw [color_setPrev_if, Clut.color_setNext]

end PushUsed

/-- What taking the free entry `i` does to the palette. -/
structure Taken (s s' : Clut) (i : Int) : Prop where
  numColors : s'.numColors = s.numColors
  next : s'.next = Function.update s.next i (ptr s.firstUsedIndex)
  prev : s'.prev = linkBack (linkBack s.prev (s.next i) none) (ptr s.firstUsedIndex) (some i)
  firstFree : ptr s'.firstFreeIndex = s.next i
  firstUsed : s'.firstUsedIndex = i
  count : ∀ j, (s'.clut j).useCount = if j = i then 1 else (s.clut j).useCount
  color : ∀ j, j ≠ i → (s'.clut j).color = (s.clut j).color

theorem allocFirstFree_taken {s : Clut} (reqColor : UInt32) (hfree : s.firstFreeIndex ≠ -1) :
    Taken s (allocFirstFree s reqColor).1 s.firstFreeIndex := by
  have hnext : (popFree s).next = s.next := by
    simp only [popFree]
    rw [next_setPrev_if]
    rfl
  have hprev : (popFree s).prev = linkBack s.prev (s.next s.firstFreeIndex) none := by
    simp only [popFree]
    rw [prev_setPrev_if Iff.rfl]
    rfl
  have hused : (popFree s).firstUsedIndex = s.firstUsedIndex := by
    simp only [popFree]
    rw [firstUsed_setPrev_if]
  constructor
  case numColors =>
    show (pushUsed (popFree s) s.firstFreeIndex).numColors = _
    simp only [numColors_pushUsed, popFree]
    rw [numColors_setPrev_if]
  case next =>
    simp only [allocFirstFree, Clut.next_setColor, Clut.next_setCount, next_pushUsed]
    rw [hnext, hused]
  case prev =>
    simp only [allocFirstFree, Clut.prev_setColor, Clut.prev_setCount]
    rw [prev_pushUsed _ _ hfree, hprev, hused]
  case firstFree =>
    show ptr (pushUsed (popFree s) s.firstFreeIndex).firstFreeIndex = _
    simp only [firstFree_pushUsed, popFree]
    rw [firstFree_setPrev_if]
    rfl
  case firstUsed => rfl
  case count =>
    intro j
    simp only [allocFirstFree, Clut.count_setColor, Clut.count_setCount, count_pushUsed, popFree]
    rw [count_setPrev_if]
  case color =>
    intro j hj
    simp only [allocFirstFree, Clut.color_setColor, if_neg hj, Clut.color_setCount,
      color_pushUsed, popFree]
    rw [color_setPrev_if]

/-- The same for the first free entry when the caller names it: it has no entry before it. -/
theorem takeIndex_taken {s : Clut} {i : Int} (reqColor : UInt32) (hfirst : i = s.firstFreeIndex)
    (hi : i ≠ -1) (hprev : s.prev i = none) (hcount : (s.clut i).useCount = 0)
    (hnext : (s.clut i).nextIndex = -1 ∨ 0 ≤ (s.clut i).nextIndex) :
    Taken s (addUser ((pushUsed (unlinkFree s i) i).setColor i reqColor) i) i := by
  have hp : (s.clut i).prevIndex = -1 := ptr_eq_none.1 hprev
  have heq : unlinkFree s i =
      { (if (s.clut i).nextIndex ≥ 0 then s.setPrev (s.clut i).nextIndex (-1) else s) with
        firstFreeIndex := (s.clut i).nextIndex } := by
    have hneg : ¬ (-1 : Int) ≥ 0 := by omega
    simp only [unlinkFree, hp, if_neg hneg, firstFree_setPrev_if, if_pos hfirst]
  have hnext' : (unlinkFree s i).next = s.next := by
    rw [heq]
    show (if _ then Clut.setPrev _ _ _ else _ : Clut).next = _
    rw [next_setPrev_if]
  have hprev' : (unlinkFree s i).prev = linkBack s.prev (s.next i) none := by
    rw [heq]
    show (if _ then Clut.setPrev _ _ _ else _ : Clut).prev = _
    rw [prev_setPrev_if (by omega)]
    rfl
  have hused : (unlinkFree s i).firstUsedIndex = s.firstUsedIndex := by
    rw [heq]
    exact firstUsed_setPrev_if
  have hcount' (j : Int) : ((unlinkFree s i).clut j).useCount = (s.clut j).useCount := by
    rw [heq]
    exact count_setPrev_if
  constructor
  case numColors =>
    show (pushUsed (unlinkFree s i) i).numColors = _
    rw [numColors_pushUsed, heq]
    exact numColors_setPrev_if
  case next =>
    simp only [addUser, Clut.next_setColor, Clut.next_setCount, next_pushUsed]
    rw [hnext', hused]
  case prev =>
    simp only [addUser, Clut.prev_setColor, Clut.prev_setCount]
    rw [prev_pushUsed _ _ hi, hprev', hused]
  case firstFree =>
    show ptr (pushUsed (unlinkFree s i) i).firstFreeIndex = _
    rw [firstFree_pushUsed, heq]
    rfl
  case firstUsed => rfl
  case count =>
    intro j
    simp only [addUser, Clut.count_setCount, Clut.count_setColor, count_pushUsed, hcount', hcount]
    rfl
  case color =>
    intro j hj
    simp only [addUser, Clut.color_setCount, Clut.color_setColor, if_neg hj, color_pushUsed]
    rw [heq]
    exact color_setPrev_if

section Take

variable {s s' : Clut} {free used : List Int} {i : Int}

/-- A back link that is not set. -/
theorem linkBack_of_ne {prev : Int → Option Int} {q p : Option Int} {n : Int} (hn : q ≠ some n) :
    linkBack prev q p n = prev n := by
  cases q with
  | none => rfl
  | some q => exact Function.update_of_ne (fun heq => hn (congrArg some heq.symm)) _ _

/-- The first free entry is on the used list now. -/
theorem Tidy.take (h : Tidy s (i :: free) used) (ht : Taken s s' i) :
    Tidy s' free (i :: used) := by
  have hnodup := List.nodup_cons.1 h.nodup
  have hfree : i ∉ free := fun hmem => hnodup.1 (List.mem_append_left _ hmem)
  have hused : i ∉ used := h.disjoint List.mem_cons_self
  have hfirst : s.next i = free.head? := h.free_chain.2.head_eq
  have hhead : ptr s.firstUsedIndex = used.head? := h.used_chain.head_eq
  have hi : ptr i = some i := ptr_of_mem (h.valid_free List.mem_cons_self)
  have hprev : s.prev i = none := h.free_back i rfl
  have hvalid (j : Int) : s'.Valid j ↔ s.Valid j := by rw [Clut.Valid, Clut.Valid, ht.numColors]
  have hapart {k : Int} (hk : k ∈ free.head?) : k ∈ free ∧ k ∉ used ∧ k ≠ i := by
    have hmem := List.mem_of_mem_head? hk
    exact ⟨hmem, h.disjoint (List.mem_cons_of_mem _ hmem), fun heq => hfree (heq ▸ hmem)⟩
  constructor
  case toClutLists =>
    constructor
    case free_chain =>
      rw [ht.firstFree, ht.next]
      refine h.free_chain.2.congr fun n hn => Function.update_of_ne ?_ _ _
      exact fun heq => hfree (heq ▸ hn)
    case used_chain =>
      rw [ht.firstUsed, ht.next, hi]
      exact h.used_chain.cons hused
    case used_back =>
      rw [ht.prev, hhead]
      have hback : Back (linkBack s.prev (s.next i) none) none used := by
        apply h.used_back.linkBack_of_not_mem
        intro k hk
        rw [hfirst] at hk
        exact (hapart hk).2.1
      refine hback.cons (List.nodup_append.1 hnodup.2).2.1 hused ?_
      rw [linkBack_of_ne, hprev]
      intro heq
      exact (hapart (hfirst ▸ heq)).2.2 rfl
    case nodup =>
      rw [List.perm_middle.nodup_iff]
      exact h.nodup
    case mem_iff =>
      intro j
      rw [hvalid, h.mem_iff, List.mem_cons, List.mem_cons]
      tauto
    case used_iff =>
      intro j hj
      rw [ht.count, List.mem_cons]
      by_cases heq : j = i
      · simp [heq]
      · rw [if_neg heq, ← h.used_iff j ((hvalid j).1 hj)]
        simp [heq]
  case free_back =>
    intro k hk
    rw [ht.prev, linkBack_of_ne]
    · rw [hfirst, Option.mem_def.1 hk]
      exact Function.update_self _ _ _
    · rw [hhead]
      intro heq
      exact (hapart hk).2.1 (List.mem_of_mem_head? heq)
  case count_free =>
    intro j hj
    have hne : j ≠ i := fun heq => hfree (heq ▸ hj)
    rw [ht.count, if_neg hne]
    exact h.count_free j (List.mem_cons_of_mem _ hj)
  case count_lt =>
    intro j hj
    rw [ht.count]
    split
    · omega
    · rename_i hne
      exact h.count_lt j ((List.mem_cons.1 hj).resolve_left hne)

end Take

/-! ## Releasing an entry -/

/-- What releasing the used entry `i` does to the palette. -/
structure Released (s s' : Clut) (i : Int) : Prop where
  numColors : s'.numColors = s.numColors
  next : s'.next =
    Function.update (link s.next (ptr s.firstUsedIndex) (s.prev i) (s.next i)).1 i
      (ptr s.firstFreeIndex)
  prev : s'.prev = Function.update (linkBack s.prev (s.next i) (s.prev i)) i none
  firstUsed : ptr s'.firstUsedIndex =
    (link s.next (ptr s.firstUsedIndex) (s.prev i) (s.next i)).2
  firstFree : s'.firstFreeIndex = i
  count : ∀ j, (s'.clut j).useCount = (s.clut j).useCount
  color : ∀ j, (s'.clut j).color = (s.clut j).color

theorem releaseEntry_released {s : Clut} {i : Int}
    (hnext : (s.clut i).nextIndex = -1 ∨ 0 ≤ (s.clut i).nextIndex)
    (hprev : (s.clut i).prevIndex = -1 ∨ 0 ≤ (s.clut i).prevIndex)
    (hnext_ne : (s.clut i).nextIndex ≠ i)
    (hfirst : (s.clut i).prevIndex ≠ -1 → s.firstUsedIndex ≠ i) :
    Released s (releaseEntry s i) i := by
  -- the entry behind has its back link
  set s1 := if (s.clut i).nextIndex ≥ 0 then s.setPrev (s.clut i).nextIndex (s.clut i).prevIndex
    else s with hs1
  have hnext1 : s1.next = s.next := next_setPrev_if
  have hprev1 : s1.prev = linkBack s.prev (s.next i) (s.prev i) := prev_setPrev_if (by omega)
  have hused1 : s1.firstUsedIndex = s.firstUsedIndex := firstUsed_setPrev_if
  have hlink1 : (s1.clut i).nextIndex = (s.clut i).nextIndex := by
    rw [hs1]
    split <;> simp
  -- the entry in front has its link
  set s2 := if (s.clut i).prevIndex ≥ 0 then
      s1.setNext (s.clut i).prevIndex (s1.clut i).nextIndex
    else { s1 with firstUsedIndex := (s1.clut i).nextIndex } with hs2
  have hnext2 : s2.next = (link s.next (ptr s.firstUsedIndex) (s.prev i) (s.next i)).1 ∧
      ptr s2.firstUsedIndex = (link s.next (ptr s.firstUsedIndex) (s.prev i) (s.next i)).2 ∧
      s2.firstUsedIndex ≠ i := by
    rw [hs2, hlink1]
    by_cases hp : (s.clut i).prevIndex = -1
    · have hnone : s.prev i = none := ptr_eq_none.2 hp
      rw [if_neg (by omega), hnone]
      exact ⟨hnext1, rfl, hnext_ne⟩
    · have hsome : s.prev i = some (s.clut i).prevIndex := ptr_of_ne hp
      rw [if_pos (by omega), hsome, Clut.next_setNext, hnext1, Clut.firstUsed_setNext, hused1]
      exact ⟨rfl, rfl, hfirst hp⟩
  have hprev2 : s2.prev = s1.prev := by
    rw [hs2]
    split
    · exact Clut.prev_setNext _ _ _
    · rfl
  have hfree2 : s2.firstFreeIndex = s.firstFreeIndex := by
    rw [hs2]
    split <;> exact firstFree_setPrev_if
  have heq : releaseEntry s i =
      { (s2.setNext i s2.firstFreeIndex).setPrev i (-1) with firstFreeIndex := i } := by
    simp only [releaseEntry]
    rw [← hs1, ← hs2, if_neg hnext2.2.2]
  rw [heq]
  constructor
  case numColors =>
    show s2.numColors = s.numColors
    rw [hs2]
    split <;> exact numColors_setPrev_if
  case next =>
    show ((s2.setNext i s2.firstFreeIndex).setPrev i (-1)).next = _
    rw [Clut.next_setPrev, Clut.next_setNext, hnext2.1, hfree2]
  case prev =>
    show ((s2.setNext i s2.firstFreeIndex).setPrev i (-1)).prev = _
    rw [Clut.prev_setPrev, Clut.prev_setNext, hprev2, hprev1, ptr_neg_one]
  case firstUsed => exact hnext2.2.1
  case firstFree => rfl
  case count =>
    intro j
    show (((s2.setNext i s2.firstFreeIndex).setPrev i (-1)).clut j).useCount = _
    rw [Clut.count_setPrev, Clut.count_setNext, hs2]
    split
    · rw [Clut.count_setNext]
      exact count_setPrev_if
    · exact count_setPrev_if
  case color =>
    intro j
    show (((s2.setNext i s2.firstFreeIndex).setPrev i (-1)).clut j).color = _
    rw [Clut.color_setPrev, Clut.color_setNext, hs2]
    split
    · rw [Clut.color_setNext]
      exact color_setPrev_if
    · exact color_setPrev_if

section Release

variable {s s' : Clut} {free used pre post : List Int} {i : Int}

/-- A link that is not set. -/
theorem link_of_ne {next : Int → Option Int} {head q p : Option Int} {n : Int}
    (hn : p ≠ some n) : (link next head p q).1 n = next n := by
  cases p with
  | none => rfl
  | some p => exact Function.update_of_ne (fun heq => hn (congrArg some heq.symm)) _ _

theorem ClutLists.prev_eq (h : ClutLists s free (pre ++ i :: post)) :
    s.prev i = pre.getLast? := by
  rw [h.used_back.prev_eq, Option.or_none]

/-- A used entry without users is on the free list now. -/
theorem Tidy.release (h : Tidy s free (pre ++ i :: post))
    (hr : Released (s.setCount i 0) s' i) : Tidy s' (i :: free) (pre ++ post) := by
  have hmem : i ∈ pre ++ i :: post := List.mem_append_right _ List.mem_cons_self
  obtain ⟨hnodup_free, hnodup_used, _⟩ := List.nodup_append.1 h.nodup
  obtain ⟨hout, hnodup⟩ := List.nodup_cons.1 (List.nodup_middle.1 hnodup_used)
  have hfree : i ∉ free := fun hi => h.disjoint hi hmem
  have hi : ptr i = some i := ptr_of_mem (h.valid_used hmem)
  have hprev : s.prev i = pre.getLast? := h.prev_eq
  have hnext : s.next i = post.head? := h.used_chain.next_eq
  have hsub {n : Int} (hn : n ∈ pre ++ post) : n ∈ pre ++ i :: post :=
    (List.sublist_cons_self i post).append_left pre |>.subset hn
  have hsplit (n : Int) : n ∈ pre ++ i :: post ↔ n = i ∨ n ∈ pre ++ post := by
    rw [List.mem_append, List.mem_append, List.mem_cons]
    tauto
  have hvalid (j : Int) : s'.Valid j ↔ s.Valid j := by
    rw [Clut.Valid, Clut.Valid, hr.numColors]
    rfl
  have hcount (j : Int) : (s'.clut j).useCount = if j = i then 0 else (s.clut j).useCount := by
    rw [hr.count, Clut.count_setCount]
  have hnext' : s'.next =
      Function.update (link s.next (ptr s.firstUsedIndex) pre.getLast? post.head?).1 i
        (ptr s.firstFreeIndex) := by
    have := hr.next
    rwa [Clut.next_setCount, Clut.prev_setCount, hprev, hnext] at this
  have hprev' : s'.prev = Function.update (linkBack s.prev post.head? pre.getLast?) i none := by
    have := hr.prev
    rwa [Clut.next_setCount, Clut.prev_setCount, hprev, hnext] at this
  have hfirst' : ptr s'.firstUsedIndex =
      (link s.next (ptr s.firstUsedIndex) pre.getLast? post.head?).2 := by
    have := hr.firstUsed
    rwa [Clut.next_setCount, Clut.prev_setCount, hprev, hnext] at this
  constructor
  case toClutLists =>
    constructor
    case free_chain =>
      rw [hr.firstFree, hi, hnext']
      refine Chain.cons (h.free_chain.congr fun n hn => link_of_ne fun heq => ?_) hfree
      exact h.disjoint hn (List.mem_append_left _ (List.mem_of_mem_getLast? heq))
    case used_chain =>
      have hpost : Chain s.next post.head? post := hnext ▸ h.used_chain.suffix.2
      have hdisj : ∀ n ∈ post, n ∉ pre := fun n hn hn' =>
        (List.nodup_append.1 hnodup).2.2 n hn' n hn rfl
      rw [hfirst', hnext']
      refine (h.used_chain.link hpost hdisj).congr fun n hn => Function.update_of_ne ?_ _ _
      exact fun heq => hout (heq ▸ hn)
    case used_back =>
      rw [hprev']
      have hback := h.used_back.unlink hnodup_used
      rw [hprev] at hback
      refine hback.congr fun n hn => Function.update_of_ne ?_ _ _
      exact fun heq => hout (heq ▸ hn)
    case nodup =>
      refine List.nodup_append.2 ⟨List.nodup_cons.2 ⟨hfree, hnodup_free⟩, hnodup, ?_⟩
      intro a ha b hb hab
      subst hab
      rcases List.mem_cons.1 ha with rfl | ha
      · exact hout hb
      · exact h.disjoint ha (hsub hb)
    case mem_iff =>
      intro j
      rw [hvalid, h.mem_iff, hsplit, List.mem_cons]
      tauto
    case used_iff =>
      intro j hj
      rw [hcount]
      by_cases heq : j = i
      · simp only [heq, hout, if_pos, lt_irrefl]
      · rw [if_neg heq, ← h.used_iff j ((hvalid j).1 hj), hsplit]
        simp only [heq, false_or]
  case free_back =>
    intro k hk
    obtain rfl : i = k := Option.some.inj hk
    rw [hprev']
    exact Function.update_self _ _ _
  case count_free =>
    intro j hj
    rw [hcount]
    split
    · rfl
    · rename_i hne
      exact h.count_free j ((List.mem_cons.1 hj).resolve_left hne)
  case count_lt =>
    intro j hj
    have hne : j ≠ i := fun heq => hout (heq ▸ hj)
    rw [hcount, if_neg hne]
    exact h.count_lt j (hsub hj)

/-- The number of users of a used entry changes, and it still has some. -/
theorem Tidy.setCount {x : Int} (h : Tidy s free used) (hi : i ∈ used) (hx : 0 < x)
    (hlt : x < 2 ^ 31) : Tidy (s.setCount i x) free used := by
  constructor
  case toClutLists =>
    refine ⟨?_, ?_, ?_, h.nodup, h.mem_iff, ?_⟩
    · rw [Clut.next_setCount]
      exact h.free_chain
    · rw [Clut.next_setCount]
      exact h.used_chain
    · rw [Clut.prev_setCount]
      exact h.used_back
    · intro j hj
      rw [Clut.count_setCount]
      by_cases heq : j = i
      · simp only [heq, hi, hx, if_pos]
      · rw [if_neg heq]
        exact h.used_iff j hj
  case free_back =>
    rw [Clut.prev_setCount]
    exact h.free_back
  case count_free =>
    intro j hj
    have hne : j ≠ i := fun heq => h.disjoint hj (heq ▸ hi)
    rw [Clut.count_setCount, if_neg hne]
    exact h.count_free j hj
  case count_lt =>
    intro j hj
    rw [Clut.count_setCount]
    split
    · exact hlt
    · exact h.count_lt j hj

theorem Tidy.setColor {color : UInt32} (h : Tidy s free used) :
    Tidy (s.setColor i color) free used := by
  constructor
  case toClutLists =>
    refine ⟨?_, ?_, ?_, h.nodup, h.mem_iff, fun j hj => ?_⟩
    · rw [Clut.next_setColor]
      exact h.free_chain
    · rw [Clut.next_setColor]
      exact h.used_chain
    · rw [Clut.prev_setColor]
      exact h.used_back
    · rw [Clut.count_setColor]
      exact h.used_iff j hj
  case free_back =>
    rw [Clut.prev_setColor]
    exact h.free_back
  case count_free =>
    intro j hj
    rw [Clut.count_setColor]
    exact h.count_free j hj
  case count_lt =>
    intro j hj
    rw [Clut.count_setColor]
    exact h.count_lt j hj

/-- The last user of a used entry leaves. -/
theorem Tidy.releaseEntry (h : Tidy s free (pre ++ i :: post)) :
    Released (s.setCount i 0) (releaseEntry (s.setCount i 0) i) i := by
  have hused {n : Int} (hn : n ∈ pre ++ i :: post) : s.Valid n := h.valid_used hn
  have hnodup := (List.nodup_append.1 h.nodup).2.1
  obtain ⟨hout, _⟩ := List.nodup_cons.1 (List.nodup_middle.1 hnodup)
  have hprev : ptr (s.clut i).prevIndex = pre.getLast? := h.prev_eq
  have hnext : ptr (s.clut i).nextIndex = post.head? := h.used_chain.next_eq
  apply releaseEntry_released
  · rw [Clut.nextIndex_setCount]
    have hmem {n : Int} (hn : n ∈ post) : n ∈ pre ++ i :: post :=
      List.mem_append_right _ (List.mem_cons_of_mem _ hn)
    rcases link_cases h.used_chain.suffix.2 fun n hn => hused (hmem hn) with hlink | hlink
    · exact Or.inl hlink
    · exact Or.inr hlink.1
  · rw [Clut.prevIndex_setCount]
    cases hp : pre.getLast? with
    | none => exact Or.inl (ptr_eq_none.1 (hprev.trans hp))
    | some p =>
      obtain ⟨hpi, _⟩ := ptr_eq_some.1 (hprev.trans hp)
      have := (hused (List.mem_append_left _ (List.mem_of_mem_getLast? hp))).1
      omega
  · rw [Clut.nextIndex_setCount]
    intro heq
    have hi : ptr i = some i := ptr_of_mem (hused (by simp))
    rw [heq, hi] at hnext
    exact hout (List.mem_append_right _ (List.mem_of_mem_head? hnext.symm))
  · rw [Clut.prevIndex_setCount]
    intro hp heq
    have hi : ptr i = some i := ptr_of_mem (hused (by simp))
    have hhead : ptr s.firstUsedIndex = (pre ++ i :: post).head? := h.used_chain.head_eq
    cases pre with
    | nil => exact hp (ptr_eq_none.1 hprev)
    | cons n pre =>
      rw [show s.firstUsedIndex = i from heq, hi] at hhead
      obtain rfl : i = n := Option.some.inj hhead
      exact hout List.mem_cons_self

end Release

/-! ## Freeing colours -/

theorem int32_of_lt {x : Int} (hneg : -2 ^ 31 ≤ x) (hlt : x < 2 ^ 31) : int32 x = x := by
  rw [int32, Int.bmod]
  omega

section Free

variable {s s' : Clut} {free used : List Int} {i : Int}

theorem Tidy.count_nonneg (h : Tidy s free used) (hi : s.Valid i) : 0 ≤ (s.clut i).useCount := by
  rcases (h.mem_iff i).1 hi with hfree | hused
  · exact (h.count_free i hfree).ge
  · exact le_of_lt ((h.used_iff i hi).1 hused)

/-- What freeing colours does to the palette: every index loses a user each time that it
is named, and no colour changes. -/
structure Freed (s s' : Clut) (times : Int → Nat) : Prop where
  numColors : s'.numColors = s.numColors
  count : ∀ j, s.Valid j → (s'.clut j).useCount = max 0 ((s.clut j).useCount - times j)
  color : ∀ j, (s'.clut j).color = (s.clut j).color

theorem freeColor_tidy (h : Tidy s free used) (hi : s.Valid i) :
    (∃ free' used', Tidy (freeColor s i).1 free' used') ∧
      Freed s (freeColor s i).1 fun j => if j = i then 1 else 0 := by
  by_cases hzero : (s.clut i).useCount = 0
  · have heq : freeColor s i = (s, false) := if_pos hzero
    rw [heq]
    refine ⟨⟨free, used, h⟩, rfl, fun j hj => ?_, fun _ => rfl⟩
    have := h.count_nonneg hj
    by_cases hji : j = i
    · subst hji
      simp [hzero]
    · simp [hji, this]
  · have hpos := h.count_nonneg hi
    have hused : i ∈ used := (h.used_iff i hi).2 (by omega)
    have hlt := h.count_lt i hused
    have hint : int32 ((s.clut i).useCount - 1) = (s.clut i).useCount - 1 :=
      int32_of_lt (by omega) (by omega)
    have hafter (s' : Clut) (hcount : ∀ j, (s'.clut j).useCount =
        ((s.setCount i ((s.clut i).useCount - 1)).clut j).useCount)
        (hnum : s'.numColors = s.numColors) (hcolor : ∀ j, (s'.clut j).color = (s.clut j).color) :
        Freed s s' fun j => if j = i then 1 else 0 := by
      refine ⟨hnum, fun j hj => ?_, hcolor⟩
      have hj0 := h.count_nonneg hj
      rw [hcount, Clut.count_setCount]
      by_cases hji : j = i
      · subst hji
        simp only [if_pos]
        omega
      · simp only [if_neg hji]
        omega
    have hfree : freeColor s i =
        if (s.clut i).useCount - 1 = 0 then
          (releaseEntry (s.setCount i ((s.clut i).useCount - 1)) i, true)
        else (s.setCount i ((s.clut i).useCount - 1), true) := by
      simp only [freeColor, hint, if_neg hzero, Clut.count_setCount, if_pos]
    rw [hfree]
    split
    · rename_i hone
      rw [hone] at hafter ⊢
      obtain ⟨pre, post, rfl⟩ := List.append_of_mem hused
      have hrel := h.releaseEntry
      refine ⟨⟨i :: free, pre ++ post, h.release hrel⟩, hafter _ hrel.count hrel.numColors ?_⟩
      intro j
      rw [hrel.color, Clut.color_setCount]
    · exact ⟨⟨free, used, h.setCount hused (by omega) (by omega)⟩,
        hafter _ (fun _ => rfl) rfl fun j => Clut.color_setCount _ _ _ _⟩

theorem uglCommonClutFree_tidy {colors : List UInt32} {mask : UInt32} (h : Tidy s free used)
    (hvalid : ∀ color ∈ colors, s.Valid (colorIndex color mask)) :
    (∃ free' used', Tidy (uglCommonClutFree s colors mask).1 free' used') ∧
      Freed s (uglCommonClutFree s colors mask).1
        fun j => colors.countP (colorIndex · mask = j) := by
  induction colors generalizing s free used with
  | nil =>
    refine ⟨⟨free, used, h⟩, rfl, fun j hj => ?_, fun _ => rfl⟩
    have := h.count_nonneg hj
    simp [uglCommonClutFree, this]
  | cons color colors ih =>
    obtain ⟨⟨free1, used1, h1⟩, hfreed1⟩ := freeColor_tidy h (hvalid color List.mem_cons_self)
    have hvalid1 (j : Int) : (freeColor s (colorIndex color mask)).1.Valid j ↔ s.Valid j := by
      rw [Clut.Valid, Clut.Valid, hfreed1.numColors]
    obtain ⟨htidy, hfreed⟩ := ih h1 fun c hc =>
      (hvalid1 _).2 (hvalid c (List.mem_cons_of_mem _ hc))
    refine ⟨htidy, hfreed.numColors.trans hfreed1.numColors, fun j hj => ?_,
      fun j => (hfreed.color j).trans (hfreed1.color j)⟩
    have hcount := hfreed.count j ((hvalid1 j).2 hj)
    rw [hfreed1.count j hj] at hcount
    have hj0 := h.count_nonneg hj
    show ((uglCommonClutFree (freeColor s _).1 colors mask).1.clut j).useCount = _
    rw [hcount, List.countP_cons]
    by_cases heq : colorIndex color mask = j
    · simp only [heq, if_pos, decide_true]
      omega
    · simp only [heq, if_neg (Ne.symm heq), decide_false]
      simp only [Bool.false_eq_true, if_false]
      omega

end Free

/-! ## Looking through the used list -/

section Search

variable {s : Clut} {free used nodes : List Int} {i : Int} {reqColor : UInt32}

/-- The palette has room for the used list. -/
theorem ClutLists.length_used (h : ClutLists s free used) : used.length ≤ s.numColors.toNat := by
  have hnodup := (List.nodup_append.1 h.nodup).2.1
  have hsub : used.toFinset ⊆ Finset.Ico 0 s.numColors := by
    intro j hj
    exact Finset.mem_Ico.2 (h.valid_used (List.mem_toFinset.1 hj))
  have hcard := Finset.card_le_card hsub
  rwa [List.toFinset_card_of_nodup hnodup, Int.card_Ico, sub_zero] at hcard

theorem findColor_spec {fuel : Nat} (h : Chain s.next (ptr i) nodes)
    (hvalid : ∀ j ∈ nodes, s.Valid j) (hfuel : nodes.length ≤ fuel) :
    findColor s reqColor fuel i =
      some ((nodes.find? fun j => (s.clut j).color = reqColor).getD (-1)) := by
  induction nodes generalizing i fuel with
  | nil =>
    obtain rfl : i = -1 := ptr_eq_none.1 h
    unfold findColor
    rfl
  | cons n nodes ih =>
    obtain ⟨rfl, _⟩ := ptr_eq_some.1 h.1
    have hi := (hvalid i List.mem_cons_self).1
    rw [List.length_cons] at hfuel
    unfold findColor
    rw [if_neg (by omega)]
    cases fuel with
    | zero => omega
    | succ fuel =>
      dsimp only
      by_cases hc : (s.clut i).color = reqColor
      · rw [if_pos hc, List.find?_cons_of_pos (by simpa using hc)]
        rfl
      · rw [if_neg hc, List.find?_cons_of_neg (by simpa using hc)]
        exact ih h.2 (fun j hj => hvalid j (List.mem_cons_of_mem _ hj)) (by omega)

theorem toNat_and_255 (x : UInt32) : (x &&& 0xff).toNat ≤ 255 := by
  rw [UInt32.toNat_and]
  exact Nat.and_le_right

/-- The square of a difference of two components. -/
theorem toNat_sub_sq {x y : UInt32} (hx : x.toNat ≤ 255) (hy : y.toNat ≤ 255) :
    ((x - y) * (x - y)).toNat ≤ 65025 := by
  wlog hle : y ≤ x
  · have hsymm : (x - y) * (x - y) = (y - x) * (y - x) := by grind
    rw [hsymm]
    refine this hy hx ?_
    rw [UInt32.le_iff_toNat_le] at hle ⊢
    omega
  rw [UInt32.toNat_mul, UInt32.toNat_sub_of_le _ _ hle]
  have hdiff : x.toNat - y.toNat ≤ 255 := by omega
  exact (Nat.mod_le _ _).trans (Nat.mul_le_mul hdiff hdiff)

/-- The error of any colour is below the one that the search starts with. -/
theorem errorVal_lt (color : UInt32) : errorVal color reqColor < 0xffffffff := by
  have hr := toNat_sub_sq (toNat_and_255 (color >>> 16)) (toNat_and_255 (reqColor >>> 16))
  have hg := toNat_sub_sq (toNat_and_255 (color >>> 8)) (toNat_and_255 (reqColor >>> 8))
  have hb := toNat_sub_sq (toNat_and_255 color) (toNat_and_255 reqColor)
  have hmax : (0xffffffff : UInt32).toNat = 4294967295 := rfl
  simp only [errorVal, UGL_ARGB_RED, UGL_ARGB_GREEN, UGL_ARGB_BLUE]
  rw [UInt32.lt_iff_toNat_lt, UInt32.toNat_add, UInt32.toNat_add, hmax]
  omega

/-- The search ends at an entry of the list, or where it stood before. -/
theorem nearestLoop_spec {fuel : Nat} {minError : UInt32} {near : Option Int}
    (h : Chain s.next (ptr i) nodes) (hfuel : nodes.length ≤ fuel) :
    ∃ e near', nearestLoop s reqColor fuel i minError near = some (e, near') ∧
      (∀ j, near' = some j → j ∈ nodes ∨ near = some j) ∧
      (near' = none → near = none ∧ (minError = 0xffffffff → nodes = [])) := by
  induction nodes generalizing i fuel minError near with
  | nil =>
    obtain rfl : i = -1 := ptr_eq_none.1 h
    refine ⟨minError, near, ?_, fun j hj => Or.inr hj, fun hnone => ⟨hnone, fun _ => rfl⟩⟩
    unfold nearestLoop
    rfl
  | cons n nodes ih =>
    obtain ⟨rfl, hi⟩ := ptr_eq_some.1 h.1
    rw [List.length_cons] at hfuel
    unfold nearestLoop
    rw [if_neg hi]
    cases fuel with
    | zero => omega
    | succ fuel =>
      dsimp only
      by_cases hlt : errorVal (s.clut i).color reqColor < minError
      · rw [if_pos hlt]
        by_cases hzero : errorVal (s.clut i).color reqColor = 0
        · rw [if_pos hzero]
          refine ⟨minError, some i, rfl, ?_, fun hnone => nomatch hnone⟩
          intro j hj
          obtain rfl : i = j := Option.some.inj hj
          exact Or.inl List.mem_cons_self
        · rw [if_neg hzero]
          obtain ⟨e, near', hloop, hmem, hnone⟩ := ih h.2 (Nat.le_of_succ_le_succ hfuel)
          refine ⟨e, near', hloop, fun j hj => ?_, fun hn => nomatch (hnone hn).1⟩
          rcases hmem j hj with hj | hj
          · exact Or.inl (List.mem_cons_of_mem _ hj)
          · obtain rfl : i = j := Option.some.inj hj
            exact Or.inl List.mem_cons_self
      · rw [if_neg hlt]
        obtain ⟨e, near', hloop, hmem, hnone⟩ := ih h.2 (Nat.le_of_succ_le_succ hfuel)
        refine ⟨e, near', hloop, fun j hj => ?_, fun hn => ⟨(hnone hn).1, fun hmax => ?_⟩⟩
        · exact (hmem j hj).imp_left (List.mem_cons_of_mem _)
        · subst hmax
          exact absurd (errorVal_lt _) hlt

/-- A colour is mapped to a used entry. -/
theorem mapNearest_spec (h : ClutLists s free used) (hused : used ≠ []) :
    ∃ i ∈ used, uglCommonClutMapNearest s [reqColor] = some [((s.clut i).color, i)] := by
  obtain ⟨e, near, hloop, hmem, hnone⟩ : ∃ e near,
      nearestLoop s reqColor s.numColors.toNat s.firstUsedIndex 0xffffffff none =
        some (e, near) ∧ _ := nearestLoop_spec h.used_chain h.length_used
  cases near with
  | none => exact absurd ((hnone rfl).2 rfl) hused
  | some i =>
    refine ⟨i, (hmem i rfl).resolve_right (fun hi => nomatch hi), ?_⟩
    simp only [uglCommonClutMapNearest, mapNearestLoop, hloop, Option.map_some]

end Search

end Vmx.Ugl
