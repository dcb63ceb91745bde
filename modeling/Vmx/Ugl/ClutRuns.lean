import Vmx.Ugl.ClutLists

/-!
# Calls on a palette

Every call on a palette whose lists are in order returns and keeps them, when it
`TakesFirst`: an entry that the caller names and that is free is the first free one, and no
use count goes past the largest `UGL_INT32`.  A used entry loses its colour only by the calls
that free it or name it.
-/

namespace Vmx.Ugl

open Lib

/-- A named entry that is free is the first free one, and nobody is one user too many. -/
def TakesFirst (s : Clut) : ClutCall → Prop
  | .alloc index reqColor =>
    if index < 0 then
      ∀ i : Nat, i < s.numColors.toNat →
        (s.clut i).color = reqColor ||| 0xff000000 ∨ s.firstFreeIndex = -1 →
        (s.clut i).useCount < 2 ^ 31 - 1
    else
      ((s.clut index).useCount = 0 → index = s.firstFreeIndex) ∧
        (s.clut index).useCount < 2 ^ 31 - 1
  | .free _ _ => True

instance (s : Clut) : ∀ call, Decidable (TakesFirst s call)
  | .alloc index _ =>
    if h : index < 0 then decidable_of_iff _ (iff_of_eq (if_pos h)).symm
    else decidable_of_iff _ (iff_of_eq (if_neg h)).symm
  | .free _ _ => inferInstanceAs (Decidable True)

namespace ClutCall

/-- The call allocates the entry `i` by its index. -/
def allocs (i : Int) : ClutCall → Bool
  | alloc index _ => index == i
  | free _ _ => false

/-- How often the call frees the entry `i`. -/
def frees (i : Int) : ClutCall → Nat
  | alloc _ _ => 0
  | free colors mask => colors.countP (colorIndex · mask = i)

/-- The indices of the call are indices of the palette. -/
def Valid (s : Clut) : ClutCall → Prop
  | alloc index _ => index < 0 ∨ s.Valid index
  | free colors mask => ∀ color ∈ colors, s.Valid (colorIndex color mask)

end ClutCall

/-! ## Allocation -/

section Alloc

variable {s : Clut} {free used : List Int} {i index : Int} {reqColor : UInt32}

/-- A used entry has one more user. -/
theorem Tidy.addUser (h : Tidy s free used) (hi : i ∈ used)
    (hlt : (s.clut i).useCount < 2 ^ 31 - 1) :
    Tidy (addUser s i) free used ∧
      ∀ j, ((addUser s i).clut j).useCount =
        if j = i then (s.clut i).useCount + 1 else (s.clut j).useCount := by
  have hpos : 0 < (s.clut i).useCount := (h.used_iff i (h.valid_used hi)).1 hi
  have hint : int32 ((s.clut i).useCount + 1) = (s.clut i).useCount + 1 :=
    int32_of_lt (by omega) (by omega)
  constructor
  · rw [Ugl.addUser, hint]
    exact h.setCount hi (by omega) (by omega)
  · intro j
    rw [Ugl.addUser, hint, Clut.count_setCount]

/-- The first free entry is the one that `firstFreeIndex` says. -/
theorem ClutLists.first_free (h : ClutLists s free used) (hfree : s.firstFreeIndex ≠ -1) :
    ∃ free', free = s.firstFreeIndex :: free' := by
  have hhead : ptr s.firstFreeIndex = free.head? := h.free_chain.head_eq
  rw [ptr_of_ne hfree] at hhead
  cases free with
  | nil => exact nomatch hhead
  | cons n free =>
    cases hhead
    exact ⟨free, rfl⟩

/-- The three ways an automatic allocation goes: the colour is there, the first free entry
is taken for it, or, when no entry is free, a used one is shared. -/
theorem alloc_auto (h : Tidy s free used) (hpos : 0 < s.numColors) (hneg : index < 0) :
    (∃ i ∈ used, (s.clut i).color = reqColor ||| 0xff000000 ∧
      uglCommonClutAlloc s index reqColor =
        some (addUser s i,
          { index := i, actualColor := reqColor ||| 0xff000000, allocated := false })) ∨
    (∀ i ∈ used, (s.clut i).color ≠ reqColor ||| 0xff000000) ∧
      (s.firstFreeIndex ≠ -1 ∧
        uglCommonClutAlloc s index reqColor =
          some (allocFirstFree s (reqColor ||| 0xff000000)) ∨
      s.firstFreeIndex = -1 ∧ free = [] ∧ ∃ i ∈ used,
        uglCommonClutAlloc s index reqColor =
          some (addUser s i,
            { index := i, actualColor := (s.clut i).color, allocated := false })) := by
  have hfind : findColor s (reqColor ||| 0xff000000) s.numColors.toNat s.firstUsedIndex = _ :=
    findColor_spec h.used_chain (fun j hj => h.valid_used hj) h.length_used
  cases hf : used.find? fun j => (s.clut j).color = reqColor ||| 0xff000000 with
  | some i =>
    rw [hf] at hfind
    have hmem := List.mem_of_find?_eq_some hf
    have hi := (h.valid_used hmem).1
    refine Or.inl ⟨i, hmem, by simpa using List.find?_some hf, ?_⟩
    simp only [uglCommonClutAlloc, if_pos hneg, hfind, Option.getD_some, if_pos hi]
  | none =>
    rw [hf] at hfind
    have hminus : ¬ (0 : Int) ≤ -1 := by omega
    refine Or.inr ⟨fun i hi => by simpa using List.find?_eq_none.1 hf i hi, ?_⟩
    by_cases hfree : s.firstFreeIndex = -1
    · have hnil : free = [] := by
        have hchain := h.free_chain
        rw [hfree, ptr_neg_one] at hchain
        exact hchain.unique rfl
      have hused : used ≠ [] := by
        intro heq
        have hzero := (h.mem_iff 0).1 ⟨le_refl 0, hpos⟩
        simp [hnil, heq] at hzero
      obtain ⟨i, hi, hmap⟩ : ∃ i ∈ used, uglCommonClutMapNearest s [reqColor ||| 0xff000000] =
          some [((s.clut i).color, i)] := mapNearest_spec h.toClutLists hused
      refine Or.inr ⟨hfree, hnil, i, hi, ?_⟩
      simp only [uglCommonClutAlloc, if_pos hneg, hfind, Option.getD_none, if_neg hminus, hfree,
        ne_eq, not_true, if_false, hmap]
    · refine Or.inl ⟨hfree, ?_⟩
      simp only [uglCommonClutAlloc, if_pos hneg, hfind, Option.getD_none, if_neg hminus,
        ne_eq, hfree, not_false_eq_true, if_true]

/-- What an allocation leaves: the lists are in order, and only an entry without users or
the one that the caller names has another colour. -/
structure Allocates (s s' : Clut) (index : Int) : Prop where
  tidy : ∃ free' used', Tidy s' free' used'
  numColors : s'.numColors = s.numColors
  count : ∀ j, (s.clut j).useCount ≤ (s'.clut j).useCount
  color : ∀ j, 0 < (s.clut j).useCount → j ≠ index → (s'.clut j).color = (s.clut j).color

theorem Tidy.allocates_addUser (h : Tidy s free used) (hi : i ∈ used)
    (hlt : (s.clut i).useCount < 2 ^ 31 - 1) : Allocates s (Ugl.addUser s i) index := by
  obtain ⟨htidy, hcount⟩ := h.addUser hi hlt
  refine ⟨⟨free, used, htidy⟩, rfl, fun j => ?_, fun j _ _ => Clut.color_setCount _ _ _ _⟩
  rw [hcount]
  split
  · rename_i heq
    rw [heq]
    omega
  · exact le_refl _

theorem Tidy.allocates_take {s' : Clut} (h : Tidy s free used) (hfirst : i = s.firstFreeIndex)
    (hfree : i ≠ -1) (ht : Taken s s' i) : Allocates s s' index := by
  subst hfirst
  obtain ⟨free', rfl⟩ := h.first_free hfree
  have hzero := h.count_free _ List.mem_cons_self
  refine ⟨⟨free', _, h.take ht⟩, ht.numColors, fun j => ?_, fun j hj _ => ht.color j ?_⟩
  · rw [ht.count]
    split
    · rename_i heq
      rw [heq, hzero]
      omega
    · exact le_refl _
  · intro heq
    rw [heq, hzero] at hj
    omega

theorem uglCommonClutAlloc_spec (h : Tidy s free used) (hpos : 0 < s.numColors)
    (hindex : index < 0 ∨ s.Valid index) (htakes : TakesFirst s (.alloc index reqColor)) :
    ∃ s' a, uglCommonClutAlloc s index reqColor = some (s', a) ∧ Allocates s s' index := by
  rw [TakesFirst] at htakes
  by_cases hneg : index < 0
  · rw [if_pos hneg] at htakes
    have hlt {i : Int} (hi : i ∈ used)
        (hshared : (s.clut i).color = reqColor ||| 0xff000000 ∨ s.firstFreeIndex = -1) :
        (s.clut i).useCount < 2 ^ 31 - 1 := by
      have hvalid := h.valid_used hi
      have hnat : ((i.toNat : Nat) : Int) = i := Int.toNat_of_nonneg hvalid.1
      have hcount := htakes i.toNat (by have := hvalid.1; have := hvalid.2; omega)
      rw [hnat] at hcount
      exact hcount hshared
    rcases alloc_auto h hpos hneg with
      ⟨i, hi, hcolor, heq⟩ | ⟨_, ⟨hfree, heq⟩ | ⟨hfree, _, i, hi, heq⟩⟩
    · exact ⟨_, _, heq, h.allocates_addUser hi (hlt hi (Or.inl hcolor))⟩
    · exact ⟨_, _, heq, h.allocates_take rfl hfree (allocFirstFree_taken _ hfree)⟩
    · exact ⟨_, _, heq, h.allocates_addUser hi (hlt hi (Or.inr hfree))⟩
  · rw [if_neg hneg] at htakes
    have hvalid := hindex.resolve_left hneg
    refine ⟨_, _, if_neg hneg, ?_⟩
    by_cases hzero : (s.clut index).useCount = 0
    · have hfirst := htakes.1 hzero
      have hi : index ≠ -1 := by omega
      rw [if_pos hzero]
      refine h.allocates_take hfirst hi (takeIndex_taken _ hfirst hi ?_ hzero ?_)
      · obtain ⟨free', rfl⟩ := h.first_free (hfirst ▸ hi)
        exact h.free_back index (hfirst ▸ rfl)
      · obtain ⟨free', rfl⟩ := h.first_free (hfirst ▸ hi)
        rw [← hfirst] at h
        rcases link_cases h.free_chain.2 fun j hj => h.valid_free (List.mem_cons_of_mem _ hj)
          with hlink | hlink
        · exact Or.inl hlink
        · exact Or.inr hlink.1
    · have hnonneg := h.count_nonneg hvalid
      have hused : index ∈ used := (h.used_iff index hvalid).2 (by omega)
      have hcolor : Tidy (s.setColor index (reqColor ||| 0xff000000)) free used := h.setColor
      rw [if_neg hzero]
      have halloc : Allocates _ (addUser (s.setColor index (reqColor ||| 0xff000000)) index) index :=
        hcolor.allocates_addUser hused (by rw [Clut.count_setColor]; exact htakes.2)
      refine ⟨halloc.tidy, rfl, fun j => ?_, fun j hj hne => ?_⟩
      · have := halloc.count j
        rwa [Clut.count_setColor] at this
      · rw [halloc.color j (by rwa [Clut.count_setColor]) hne, Clut.color_setColor, if_neg hne]

end Alloc

/-! ## A new palette -/

theorem initEntries_eq (s : Clut) (i : Int) (n : Nat) :
    (initEntries s i n).numColors = s.numColors ∧
      (initEntries s i n).firstFreeIndex = s.firstFreeIndex ∧
      (initEntries s i n).firstUsedIndex = s.firstUsedIndex ∧
      ∀ j, (initEntries s i n).clut j =
        if i ≤ j ∧ j < i + n then { s.clut j with nextIndex := j + 1, prevIndex := j - 1 }
        else s.clut j := by
  induction n generalizing s i with
  | zero =>
    refine ⟨rfl, rfl, rfl, fun j => ?_⟩
    rw [if_neg (by omega), initEntries]
  | succ n ih =>
    obtain ⟨hnum, hfree, hused, hclut⟩ := ih ((s.setNext i (i + 1)).setPrev i (i - 1)) (i + 1)
    refine ⟨hnum, hfree, hused, fun j => ?_⟩
    rw [initEntries, hclut]
    by_cases heq : j = i
    · subst heq
      rw [if_neg (by omega), if_pos (by omega)]
      simp [Clut.setPrev, Clut.setNext]
    · have hsame : ((s.setNext i (i + 1)).setPrev i (i - 1)).clut j = s.clut j := by
        simp [Clut.setPrev, Clut.setNext, heq]
      rw [hsame]
      by_cases hj : i + 1 ≤ j ∧ j < i + 1 + n
      · rw [if_pos hj, if_pos (by omega)]
      · rw [if_neg hj, if_neg (by omega)]

section Create

variable {numColors : Int}

theorem create_next {j : Int} (hj : 0 ≤ j) (hlt : j < numColors) :
    (uglCommonClutCreate numColors).next j = if j = numColors - 1 then none else some (j + 1) := by
  obtain ⟨_, _, _, hclut⟩ := initEntries_eq
    { numColors := numColors, firstFreeIndex := 0, firstUsedIndex := -1,
      clut := fun _ => { color := 0, useCount := 0, nextIndex := 0, prevIndex := 0 } } 0
    numColors.toNat
  simp only [uglCommonClutCreate]
  rw [Clut.next_setNext, Clut.next_setPrev, Function.update_apply]
  split
  · rfl
  · rw [Clut.next, hclut, if_pos (by omega), ptr_of_ne (by dsimp only; omega)]

theorem create_entry (j : Int) :
    ((uglCommonClutCreate numColors).clut j).useCount = 0 ∧
      (uglCommonClutCreate numColors).numColors = numColors ∧
      (uglCommonClutCreate numColors).firstFreeIndex = 0 ∧
      (uglCommonClutCreate numColors).firstUsedIndex = -1 := by
  obtain ⟨hnum, hfree, hused, hclut⟩ := initEntries_eq
    { numColors := numColors, firstFreeIndex := 0, firstUsedIndex := -1,
      clut := fun _ => { color := 0, useCount := 0, nextIndex := 0, prevIndex := 0 } } 0
    numColors.toNat
  refine ⟨?_, hnum, hfree, hused⟩
  simp only [uglCommonClutCreate, Clut.count_setNext, Clut.count_setPrev]
  rw [hclut]
  split <;> rfl

/-- The entries from `k` on are linked in order. -/
theorem create_chain (k m : Nat) (hkm : (k : Int) + m = numColors) :
    Chain (uglCommonClutCreate numColors).next (if m = 0 then none else some (k : Int))
      ((List.range' k m).map Nat.cast) := by
  induction m generalizing k with
  | zero => exact rfl
  | succ m ih =>
    refine ⟨rfl, ?_⟩
    have htail := ih (k + 1) (by push_cast at hkm ⊢; omega)
    rw [create_next (by omega) (by push_cast at hkm ⊢; omega)]
    by_cases hm : m = 0
    · subst hm
      rw [if_pos (by push_cast at hkm; omega)]
      exact htail
    · rw [if_neg (by push_cast at hkm; omega)]
      rw [if_neg hm] at htail
      exact htail

/-- All entries of a new palette are free. -/
theorem create_tidy (hpos : 0 < numColors) :
    Tidy (uglCommonClutCreate numColors) ((List.range' 0 numColors.toNat).map Nat.cast) [] := by
  obtain ⟨_, hnum, hfirst, hfirstUsed⟩ : _ ∧ (uglCommonClutCreate numColors).numColors = _ ∧ _ :=
    create_entry 0
  have hcount (j : Int) : ((uglCommonClutCreate numColors).clut j).useCount = 0 :=
    (create_entry j).1
  have hmem (j : Int) : j ∈ (List.range' 0 numColors.toNat).map Nat.cast ↔
      0 ≤ j ∧ j < numColors := by
    rw [List.mem_map]
    constructor
    · rintro ⟨k, hk, rfl⟩
      rw [List.mem_range'_1] at hk
      omega
    · intro hj
      refine ⟨j.toNat, ?_, Int.toNat_of_nonneg hj.1⟩
      rw [List.mem_range'_1]
      omega
  constructor
  case toClutLists =>
    constructor
    case free_chain =>
      have hchain : Chain (uglCommonClutCreate numColors).next _ _ :=
        create_chain 0 numColors.toNat (by omega)
      rw [if_neg (by omega)] at hchain
      rw [hfirst]
      exact hchain
    case used_chain => exact ptr_eq_none.2 hfirstUsed
    case used_back => trivial
    case nodup =>
      rw [List.append_nil]
      exact List.Nodup.map Nat.cast_injective List.nodup_range'
    case mem_iff =>
      intro j
      rw [hmem, Clut.Valid, hnum]
      simp
    case used_iff =>
      intro j _
      simp [hcount]
  case free_back =>
    intro i hi
    obtain ⟨n, hn⟩ : ∃ n, numColors.toNat = n + 1 := ⟨numColors.toNat - 1, by omega⟩
    rw [hn, List.range'_succ] at hi
    obtain rfl : (0 : Int) = i := Option.some.inj hi
    simp only [uglCommonClutCreate]
    rw [Clut.prev_setNext, Clut.prev_setPrev]
    exact Function.update_self _ _ _
  case count_free => exact fun j _ => hcount j
  case count_lt => exact fun j hj => absurd hj List.not_mem_nil

end Create

/-! ## Runs -/

section Run

variable {s s' : Clut} {free used : List Int} {call : ClutCall} {calls : List ClutCall} {i : Int}

/-- What a run may rely on: the lists are in order, and the palette has an entry. -/
def Ordered (s : Clut) : Prop := 0 < s.numColors ∧ ∃ free used, Tidy s free used

/-- A call keeps the lists in order, and an entry that the call does not name keeps its
colour as long as it has users. -/
theorem clutStep_spec (h : Ordered s) (htakes : TakesFirst s call)
    (hs : clutStep s call = some s') :
    Ordered s' ∧ s'.numColors = s.numColors ∧
      (s.Valid i → call.allocs i = false → (call.frees i : Int) < (s.clut i).useCount →
        (s'.clut i).color = (s.clut i).color ∧
          (s.clut i).useCount - call.frees i ≤ (s'.clut i).useCount) := by
  obtain ⟨hpos, free, used, htidy⟩ := h
  cases call with
  | alloc index reqColor =>
    rw [clutStep, Option.ite_none_right_eq_some] at hs
    obtain ⟨hindex, hs⟩ := hs
    obtain ⟨s1, a, halloc, hspec⟩ := uglCommonClutAlloc_spec htidy hpos hindex htakes
    rw [halloc] at hs
    obtain rfl : s1 = s' := Option.some.inj hs
    refine ⟨⟨hspec.numColors ▸ hpos, hspec.tidy⟩, hspec.numColors, fun _ hne hcount => ?_⟩
    have hne' : i ≠ index := fun heq => by simp [ClutCall.allocs, heq] at hne
    rw [ClutCall.frees] at hcount ⊢
    refine ⟨hspec.color i hcount hne', ?_⟩
    have := hspec.count i
    omega
  | free colors mask =>
    rw [clutStep, Option.ite_none_right_eq_some] at hs
    obtain ⟨hvalid, hs⟩ := hs
    obtain ⟨htidy', hfreed⟩ := uglCommonClutFree_tidy htidy hvalid
    cases hs
    refine ⟨⟨hfreed.numColors ▸ hpos, htidy'⟩, hfreed.numColors, fun hi _ hcount => ?_⟩
    refine ⟨hfreed.color i, ?_⟩
    have := hfreed.count i hi
    rw [ClutCall.frees] at hcount ⊢
    omega

theorem clutStep_returns (h : Ordered s) (htakes : TakesFirst s call) (hvalid : call.Valid s) :
    ∃ s', clutStep s call = some s' := by
  obtain ⟨hpos, free, used, htidy⟩ := h
  cases call with
  | alloc index reqColor =>
    have hindex : index < 0 ∨ s.Valid index := hvalid
    obtain ⟨s1, a, halloc, _⟩ := uglCommonClutAlloc_spec htidy hpos hindex htakes
    refine ⟨s1, ?_⟩
    rw [clutStep, if_pos hindex, halloc, Option.map_some]
  | free colors mask =>
    rw [clutStep, if_pos (show ∀ color ∈ colors, s.Valid (colorIndex color mask) from hvalid)]
    exact ⟨_, rfl⟩

theorem ordered_of_run (h : Ordered s) (htakes : AllSteps clutStep TakesFirst s calls)
    (hrun : exec clutStep s calls = some s') : Ordered s' :=
  exec_invariant_of (fun _ _ _ hord htakes hs => (@clutStep_spec _ _ _ 0 hord htakes hs).1)
    h htakes hrun

/-- A used entry keeps its colour until it is freed as often as it has users, or named. -/
theorem color_kept (h : Ordered s) (htakes : AllSteps clutStep TakesFirst s calls)
    (hrun : exec clutStep s calls = some s') (hi : s.Valid i)
    (hallocs : ∀ call ∈ calls, call.allocs i = false)
    (hfrees : ((calls.map (ClutCall.frees i)).sum : Int) < (s.clut i).useCount) :
    (s'.clut i).color = (s.clut i).color := by
  induction calls generalizing s with
  | nil =>
    obtain rfl : s = s' := Option.some.inj hrun
    rfl
  | cons call calls ih =>
    obtain ⟨s1, hs1, hrest⟩ := exec_cons.1 hrun
    obtain ⟨htake, htakes1⟩ := allSteps_cons htakes hs1
    rw [List.map_cons, List.sum_cons] at hfrees
    rw [Nat.cast_add] at hfrees
    obtain ⟨hord1, hnum, hkept⟩ := clutStep_spec h htake hs1
    obtain ⟨hcolor, hcount⟩ := hkept hi (hallocs call List.mem_cons_self) (by omega)
    have hi1 : s1.Valid i := by rwa [Clut.Valid, hnum]
    rw [← hcolor]
    exact ih hord1 htakes1 hrest hi1
      (fun c hc => hallocs c (List.mem_cons_of_mem _ hc)) (by omega)

end Run

/-- In every run from a new palette whose calls all take the first free entry, the lists of
the palette are in order and every further call returns.  An automatic allocation of a colour
that no used entry has takes an index that was free, or, when none is free, allocates nothing
and shares a used entry; and a used entry keeps its colour until it is freed as often as it has
users or allocated by its index. -/
theorem clut_tables {numColors : Int} (hpos : 0 < numColors) {calls : List ClutCall} {s : Clut}
    (htakes : AllSteps clutStep TakesFirst (uglCommonClutCreate numColors) calls)
    (hrun : exec clutStep (uglCommonClutCreate numColors) calls = some s) :
    (∃ free used, ClutLists s free used) ∧
    (∀ call : ClutCall, TakesFirst s call → call.Valid s → ∃ s', clutStep s call = some s') ∧
    (∀ index reqColor s' a, index < 0 →
      (∀ i, s.Valid i → 0 < (s.clut i).useCount →
        (s.clut i).color ≠ reqColor ||| 0xff000000) →
      uglCommonClutAlloc s index reqColor = some (s', a) →
      if a.allocated then s.Valid a.index ∧ (s.clut a.index).useCount = 0
      else (∀ i, s.Valid i → 0 < (s.clut i).useCount) ∧ s.Valid a.index ∧
        a.actualColor = (s.clut a.index).color) ∧
    (∀ i calls' s', s.Valid i → AllSteps clutStep TakesFirst s calls' →
      exec clutStep s calls' = some s' → (∀ call ∈ calls', call.allocs i = false) →
      ((calls'.map (ClutCall.frees i)).sum : Int) < (s.clut i).useCount →
      (s'.clut i).color = (s.clut i).color) := by
  have hnew : Ordered (uglCommonClutCreate numColors) :=
    ⟨by rwa [(create_entry 0).2.1], _, _, create_tidy hpos⟩
  obtain ⟨hpos', free, used, htidy⟩ := ordered_of_run hnew htakes hrun
  refine ⟨⟨free, used, htidy.toClutLists⟩, fun call htake hvalid => ?_, ?_, ?_⟩
  · exact clutStep_returns ⟨hpos', free, used, htidy⟩ htake hvalid
  · intro index reqColor s' a hneg hcolor halloc
    have husers {i : Int} (hi : i ∈ used) : 0 < (s.clut i).useCount :=
      (htidy.used_iff i (htidy.valid_used hi)).1 hi
    rcases alloc_auto htidy hpos' hneg with
      ⟨i, hi, hsame, _⟩ | ⟨_, ⟨hfree, heq⟩ | ⟨_, hnil, i, hi, heq⟩⟩
    · exact absurd hsame (hcolor i (htidy.valid_used hi) (husers hi))
    · obtain ⟨free', rfl⟩ := htidy.first_free hfree
      obtain ⟨_, rfl⟩ := Prod.mk.inj (Option.some.inj (heq.symm.trans halloc))
      rw [if_pos rfl]
      exact ⟨htidy.valid_free List.mem_cons_self, htidy.count_free _ List.mem_cons_self⟩
    · obtain ⟨_, rfl⟩ := Prod.mk.inj (Option.some.inj (heq.symm.trans halloc))
      rw [if_neg Bool.false_ne_true]
      refine ⟨fun j hj => husers ?_, htidy.valid_used hi, rfl⟩
      exact ((htidy.mem_iff j).1 hj).resolve_left (by simp [hnil])
  · exact fun i calls' s' hi htakes' hrun' hallocs hfrees =>
      color_kept ⟨hpos', free, used, htidy⟩ htakes' hrun' hi hallocs hfrees

/-- Three colours: the first entry is taken by its index, the next one automatically, the
first is freed, and the second keeps its colour. -/
theorem clut_tables_three :
    ∃ s, exec clutStep (uglCommonClutCreate 3) [.alloc 0 0xff, .alloc (-1) 0xff00] = some s ∧
      (∃ free used, ClutLists s free used) ∧
      ∀ s', exec clutStep s [.free [0] 0xff] = some s' →
        (s'.clut 1).color = (s.clut 1).color := by
  refine ⟨_, rfl, ?_⟩
  have h := @clut_tables 3 (by decide) [.alloc 0 0xff, .alloc (-1) 0xff00] _
    (by decide) rfl
  have hfree (s : Clut) : AllSteps clutStep TakesFirst s [.free [0] 0xff] :=
    allSteps_singleton.2 trivial
  refine ⟨h.1, fun s' hrun => h.2.2.2 1 _ s' ?_ (hfree _) hrun ?_ ?_⟩ <;> decide

/-- An entry in the middle of the free list is taken by its index: it is the first used entry,
and its `prevIndex` leads to a free one. -/
theorem clut_tables_broken :
    ∃ s, exec clutStep (uglCommonClutCreate 3) [.alloc 1 0xff] = some s ∧
      ¬ ∃ free used, ClutLists s free used := by
  refine ⟨_, rfl, fun ⟨free, used, h⟩ => ?_⟩
  have hhead := h.used_chain.head_eq
  cases used with
  | nil => exact absurd hhead (by decide)
  | cons n used =>
    obtain rfl : (1 : Int) = n := Option.some.inj hhead
    exact absurd h.used_back.1 (by decide)

end Vmx.Ugl
