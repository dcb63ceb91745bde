import Vmx.Ugl.CubeLib

/-!
# Calls on a palette with a colour cube

`uglCubeMap` never stores the error of the colour that it gives a cell, and `uglCubeUnmap`
compares with the numbers of the cells, so the cube of a palette with two colours is wrong as
a rule.  `KeepsCube` says when the tests of the two functions are right all the same, and
`cube_consistent` that the cells are right in every state of a run of such calls.

The loops over the cells change each cell by itself: `mapCells_cell` and `replaceCells_cell`
say how, and `bestCell_eq` which cell the search stops at.  `alloc_effect` and
`freeColor_effect` say what a call does to the entries.
-/

namespace Vmx.Ugl

open Lib

/-! ## The loops over the cells -/

section Cells

/-- What a cube stores about a cell. -/
structure Cell where
  argb : UInt32
  col : UInt32
  actual : UInt32
  error : UInt32

def Cube.cell (cube : Cube) (k : Nat) : Cell where
  argb := cube.pArgbArray k
  col := cube.pUglColorArray k
  actual := cube.pActualArgbArray k
  error := cube.pCubeError k

variable {cube : Cube} {index : Int} {c color : UInt32} {best : Best} {i k n : Nat}

theorem Cube.of_cell {x : Cell} (h : cube.cell k = x) :
    cube.entry k = x.col.toNat ∧ cube.pActualArgbArray k = x.actual := by
  rw [← h]
  exact ⟨rfl, rfl⟩

theorem cell_setColor : (cube.setColor i color).cell k =
    if k = i then { cube.cell k with col := color } else cube.cell k := by
  by_cases hk : k = i
  · rw [if_pos hk, hk]
    simp only [Cube.cell, Cube.setColor, Function.update_self]
  · rw [if_neg hk]
    simp only [Cube.cell, Cube.setColor, Function.update_of_ne hk]

theorem cell_setActual : (cube.setActual i c).cell k =
    if k = i then { cube.cell k with actual := c } else cube.cell k := by
  by_cases hk : k = i
  · rw [if_pos hk, hk]
    simp only [Cube.cell, Cube.setActual, Function.update_self]
  · rw [if_neg hk]
    simp only [Cube.cell, Cube.setActual, Function.update_of_ne hk]

theorem cell_setError : (cube.setError i c).cell k =
    if k = i then { cube.cell k with error := c } else cube.cell k := by
  by_cases hk : k = i
  · rw [if_pos hk, hk]
    simp only [Cube.cell, Cube.setError, Function.update_self]
  · rw [if_neg hk]
    simp only [Cube.cell, Cube.setError, Function.update_of_ne hk]

/-- What `uglCubeMap` does to a cell. -/
def Cell.map (index : Int) (c : UInt32) (x : Cell) : Cell :=
  if x.argb ≠ x.actual then
    if errorVal x.argb c ≤ x.error then { x with actual := c, col := UInt32.ofInt index } else x
  else if x.error ≠ 0 then { x with error := 0, col := UInt32.ofInt index } else x

/-- What `uglCubeUnmap` does to a cell. -/
def Cell.replace (color : UInt32) (best : Best) (x : Cell) : Cell :=
  if x.col = color then
    { x with actual := best.argb, col := best.col, error := best.minError }
  else x

theorem mapCell_cell : (mapCell cube index c i).cell k =
    if k = i then (cube.cell k).map index c else cube.cell k := by
  by_cases hk : k = i
  · rw [if_pos hk, hk]
    show (mapCell cube index c i).cell i = Cell.map index c ⟨cube.pArgbArray i,
      cube.pUglColorArray i, cube.pActualArgbArray i, cube.pCubeError i⟩
    rw [mapCell, Cell.map]
    dsimp only
    split_ifs
    · rw [cell_setColor, if_pos rfl, cell_setActual, if_pos rfl]
      rfl
    · rfl
    · rw [cell_setColor, if_pos rfl, cell_setError, if_pos rfl]
      rfl
    · rfl
  · rw [if_neg hk, mapCell]
    dsimp only
    split_ifs
    · rw [cell_setColor, if_neg hk, cell_setActual, if_neg hk]
    · rfl
    · rw [cell_setColor, if_neg hk, cell_setError, if_neg hk]
    · rfl

theorem mapCell_size : (mapCell cube index c i).arraySize = cube.arraySize := by
  rw [mapCell]
  dsimp only
  split_ifs <;> rfl

/-- `uglCubeMap` changes each cell by itself. -/
theorem mapCells_cell : (mapCells cube index c i n).arraySize = cube.arraySize ∧
    ∀ k, (mapCells cube index c i n).cell k =
      if i ≤ k ∧ k < i + n then (cube.cell k).map index c else cube.cell k := by
  induction n generalizing cube i with
  | zero => exact ⟨rfl, fun k => (if_neg (by omega)).symm⟩
  | succ n ih =>
    rw [mapCells]
    obtain ⟨hsize, hcell⟩ := @ih (mapCell cube index c i) (i + 1)
    refine ⟨hsize.trans mapCell_size, ?_⟩
    intro k
    rw [hcell, mapCell_cell]
    by_cases hk : k = i
    · rw [if_neg (by omega), if_pos hk, if_pos (by omega)]
    · rw [if_neg hk]
      by_cases hlt : i + 1 ≤ k ∧ k < i + 1 + n
      · rw [if_pos hlt, if_pos (by omega)]
      · rw [if_neg hlt, if_neg (by omega)]

theorem uglCubeMap_cell (cube : Cube) (index : Int) (c : UInt32) :
    (uglCubeMap cube index c).arraySize = cube.arraySize ∧
      ∀ k < cube.arraySize, (uglCubeMap cube index c).cell k = (cube.cell k).map index c := by
  obtain ⟨hsize, hcell⟩ := @mapCells_cell cube index c 0 cube.arraySize
  refine ⟨hsize, ?_⟩
  intro k hk
  exact (hcell k).trans (if_pos (by omega))

/-- The third loop of `uglCubeUnmap` changes each cell by itself. -/
theorem replaceCells_cell : (replaceCells cube color best i n).arraySize = cube.arraySize ∧
    ∀ k, (replaceCells cube color best i n).cell k =
      if i ≤ k ∧ k < i + n then (cube.cell k).replace color best else cube.cell k := by
  induction n generalizing cube i with
  | zero => exact ⟨rfl, fun k => (if_neg (by omega)).symm⟩
  | succ n ih =>
    rw [replaceCells]
    have hone : ∀ k, (if cube.pUglColorArray i = color then
        ((cube.setActual i best.argb).setColor i best.col).setError i best.minError
        else cube).cell k = if k = i then (cube.cell k).replace color best else cube.cell k := by
      intro k
      by_cases hk : k = i
      · rw [if_pos hk, hk]
        show _ = Cell.replace color best ⟨cube.pArgbArray i, cube.pUglColorArray i,
          cube.pActualArgbArray i, cube.pCubeError i⟩
        rw [Cell.replace]
        dsimp only
        split_ifs
        · rw [cell_setError, if_pos rfl, cell_setColor, if_pos rfl, cell_setActual, if_pos rfl]
          rfl
        · rfl
      · rw [if_neg hk]
        split_ifs
        · rw [cell_setError, if_neg hk, cell_setColor, if_neg hk, cell_setActual, if_neg hk]
        · rfl
    obtain ⟨hsize, hcell⟩ := @ih (if cube.pUglColorArray i = color then
      ((cube.setActual i best.argb).setColor i best.col).setError i best.minError
      else cube) (i + 1)
    refine ⟨hsize.trans (by split_ifs <;> rfl), ?_⟩
    intro k
    rw [hcell, hone]
    by_cases hk : k = i
    · rw [if_neg (by omega), if_pos hk, if_pos (by omega)]
    · rw [if_neg hk]
      by_cases hlt : i + 1 ≤ k ∧ k < i + 1 + n
      · rw [if_pos hlt, if_pos (by omega)]
      · rw [if_neg hlt, if_neg (by omega)]

/-- The first cell of an entry, or none of the cells is its. -/
theorem findCell_cases (cube : Cube) (color : UInt32) (i n : Nat) :
    (∃ k, findCell cube color i n = some k) ∨
      findCell cube color i n = none ∧
        ∀ k, i ≤ k → k < i + n → cube.pUglColorArray k ≠ color := by
  induction n generalizing i with
  | zero => exact Or.inr ⟨rfl, fun k hi hk => by omega⟩
  | succ n ih =>
    by_cases hcol : cube.pUglColorArray i = color
    · exact Or.inl ⟨i, if_pos hcol⟩
    have hstep : findCell cube color i (n + 1) = findCell cube color (i + 1) n := if_neg hcol
    rw [hstep]
    rcases ih (i + 1) with hsome | ⟨hnone, hall⟩
    · exact Or.inl hsome
    · refine Or.inr ⟨hnone, ?_⟩
      intro k hi hk
      by_cases heq : k = i
      · rwa [heq]
      · exact hall k (by omega) (by omega)

/-- The variables of the search when it stands at a cell. -/
def bestOf (cube : Cube) (first : Nat) : Option Nat → Best
  | none => { minError := 0xffffffff, argb := 0, col := 0 }
  | some r =>
    { minError := errorVal (cube.pArgbArray first) (UInt32.ofNat r)
      argb := cube.pActualArgbArray r
      col := cube.pUglColorArray r }

/-- The search of `uglCubeUnmap` stops at the last nearest of the cells. -/
theorem bestCell_eq (cube : Cube) (color : UInt32) (first i n : Nat) :
    bestCell cube color first i
        (bestOf cube first (((List.range i).filter fun k =>
          cube.pUglColorArray k ≠ color).reverse.argmin fun k =>
            (errorVal (cube.pArgbArray first) (UInt32.ofNat k)).toNat)) n =
      bestOf cube first (((List.range (i + n)).filter fun k =>
        cube.pUglColorArray k ≠ color).reverse.argmin fun k =>
          (errorVal (cube.pArgbArray first) (UInt32.ofNat k)).toNat) := by
  induction n generalizing i with
  | zero => rfl
  | succ n ih =>
    rw [bestCell, show i + (n + 1) = i + 1 + n by omega, ← ih (i + 1), List.range_succ,
      List.filter_append, List.reverse_append]
    congr 1
    by_cases hcol : cube.pUglColorArray i ≠ color
    · rw [if_pos hcol, List.filter_cons_of_pos (by simpa using hcol), List.filter_nil,
        List.reverse_singleton, List.singleton_append, List.argmin_cons]
      cases ((List.range i).filter fun k => cube.pUglColorArray k ≠ color).reverse.argmin
          fun k => (errorVal (cube.pArgbArray first) (UInt32.ofNat k)).toNat with
      | none =>
        have hlt : errorVal (cube.pArgbArray first) (UInt32.ofNat i) < 0xffffffff :=
          errorVal_lt _
        dsimp only [bestOf]
        exact if_pos (UInt32.le_of_lt hlt)
      | some r =>
        dsimp only [bestOf]
        by_cases hle : errorVal (cube.pArgbArray first) (UInt32.ofNat i) ≤
            errorVal (cube.pArgbArray first) (UInt32.ofNat r)
        · rw [if_neg (Nat.not_lt.mpr (UInt32.le_iff_toNat_le.mp hle))]
          exact if_pos hle
        · rw [if_pos (Nat.lt_of_not_le fun h => hle (UInt32.le_iff_toNat_le.mpr h))]
          exact if_neg hle
    · rw [if_neg hcol, List.filter_cons_of_neg (by simpa using hcol), List.filter_nil,
        List.reverse_nil, List.nil_append]

/-- `uglCubeUnmap` of a palette with a free entry. -/
theorem uglCubeUnmap_cell {clut : Clut} (hfree : clut.firstFreeIndex ≠ -1) :
    (uglCubeUnmap clut cube color).arraySize = cube.arraySize ∧
      ∀ k < cube.arraySize, (uglCubeUnmap clut cube color).cell k =
        if cube.pUglColorArray k = color then
          (cube.cell k).replace color
            (bestOf cube ((findCell cube color 0 cube.arraySize).getD 0)
              (cube.replacement color))
        else cube.cell k := by
  rw [uglCubeUnmap, if_pos hfree]
  rcases findCell_cases cube color 0 cube.arraySize with ⟨first, hfirst⟩ | ⟨hnone, hall⟩
  · rw [Cube.replacement, hfirst]
    have hbest := bestCell_eq cube color first 0 cube.arraySize
    rw [Nat.zero_add] at hbest
    dsimp only [Option.bind_some, Option.getD_some]
    rw [show (⟨0xffffffff, 0, 0⟩ : Best) = bestOf cube first (((List.range 0).filter fun k =>
      cube.pUglColorArray k ≠ color).reverse.argmin fun k =>
        (errorVal (cube.pArgbArray first) (UInt32.ofNat k)).toNat) from rfl, hbest]
    obtain ⟨hsize, hcell⟩ := @replaceCells_cell cube color
      (bestOf cube first (((List.range cube.arraySize).filter fun k =>
        cube.pUglColorArray k ≠ color).reverse.argmin fun k =>
          (errorVal (cube.pArgbArray first) (UInt32.ofNat k)).toNat)) 0 cube.arraySize
    refine ⟨hsize, ?_⟩
    intro k hk
    rw [hcell, if_pos (by omega)]
    by_cases hcol : cube.pUglColorArray k = color
    · rw [if_pos hcol]
    · rw [if_neg hcol]
      exact if_neg hcol
  · rw [hnone]
    refine ⟨rfl, ?_⟩
    intro k hk
    rw [if_neg (hall k (Nat.zero_le k) (by omega))]

end Cells

/-! ## The entries -/

section Entries

variable {s s' : Clut} {free used : List Int} {i j index : Int} {reqColor c : UInt32}

/-- What a call that gives entry `i` a colour does to the entries. -/
structure Gives (s s' : Clut) (i : Int) (c : UInt32) : Prop where
  valid : s.Valid i
  count_self : 0 < (s'.clut i).useCount
  count : ∀ j, j ≠ i → (s'.clut j).useCount = (s.clut j).useCount
  color : ∀ j, (s'.clut j).color = if j = i then c else (s.clut j).color

/-- The same entries are used, with the same colours. -/
structure SameUse (s s' : Clut) : Prop where
  count : ∀ j, s.Valid j → (0 < (s'.clut j).useCount ↔ 0 < (s.clut j).useCount)
  color : ∀ j, (s'.clut j).color = (s.clut j).color

theorem ClutLists.inUse_iff (h : ClutLists s free used) : InUse s i ↔ i ∈ used :=
  ⟨fun hi => (h.used_iff i hi.1).2 hi.2,
    fun hi => ⟨h.valid_used hi, (h.used_iff i (h.valid_used hi)).1 hi⟩⟩

theorem Tidy.sameUse_addUser (h : Tidy s free used) (hi : i ∈ used)
    (hlt : (s.clut i).useCount < 2 ^ 31 - 1) : SameUse s (Ugl.addUser s i) := by
  have hpos := (h.used_iff i (h.valid_used hi)).1 hi
  refine ⟨?_, fun j => Clut.color_setCount _ _ _ _⟩
  intro j _
  rw [(h.addUser hi hlt).2]
  by_cases hj : j = i
  · rw [if_pos hj, hj]
    omega
  · rw [if_neg hj]

theorem Tidy.gives_of_taken (h : Tidy s free used) (hi : i ∈ free) (ht : Taken s s' i)
    (hcolor : (s'.clut i).color = c) : Gives s s' i c where
  valid := h.valid_free hi
  count_self := by
    rw [ht.count, if_pos rfl]
    omega
  count := by
    intro j hj
    rw [ht.count, if_neg hj]
  color := by
    intro j
    by_cases hj : j = i
    · rw [if_pos hj, hj, hcolor]
    · rw [if_neg hj, ht.color j hj]

/-- Which entry an automatic allocation gives the colour. -/
theorem mappedEntry_auto (h : Tidy s free used) (hneg : index < 0) :
    mappedEntry s index c =
      if (∃ i ∈ used, (s.clut i).color = c) ∨ s.firstFreeIndex = -1 then none
      else some s.firstFreeIndex := by
  have hiff : (∃ i : Nat, i < s.numColors.toNat ∧ InUse s i ∧ (s.clut i).color = c) ↔
      ∃ i ∈ used, (s.clut i).color = c := by
    constructor
    · rintro ⟨i, -, huse, hcolor⟩
      exact ⟨i, h.inUse_iff.mp huse, hcolor⟩
    · rintro ⟨i, hi, hcolor⟩
      have hvalid := h.valid_used hi
      have hnat : ((i.toNat : Nat) : Int) = i := Int.toNat_of_nonneg hvalid.1
      refine ⟨i.toNat, ?_, ?_, ?_⟩
      · have := hvalid.2
        omega
      · rw [hnat]
        exact h.inUse_iff.mpr hi
      · rw [hnat]
        exact hcolor
  rw [mappedEntry, if_pos hneg]
  simp only [hiff]

/-- What an allocation does to the entries. -/
theorem alloc_effect (h : Tidy s free used) (hpos : 0 < s.numColors)
    (hindex : index < 0 ∨ s.Valid index) (htakes : TakesFirst s (.alloc index reqColor)) :
    ∃ s' a, uglCommonClutAlloc s index reqColor = some (s', a) ∧ Allocates s s' index ∧
      (if a.allocated then
        mappedEntry s index (reqColor ||| 0xff000000) = some a.index ∧
          Gives s s' a.index (reqColor ||| 0xff000000)
      else SameUse s s') := by
  obtain ⟨s', a, halloc, hallocates⟩ := uglCommonClutAlloc_spec h hpos hindex htakes
  refine ⟨s', a, halloc, hallocates, ?_⟩
  rw [TakesFirst] at htakes
  by_cases hneg : index < 0
  · rw [if_pos hneg] at htakes
    have hlt {i : Int} (hi : i ∈ used)
        (hshared : (s.clut i).color = reqColor ||| 0xff000000 ∨ s.firstFreeIndex = -1) :
        (s.clut i).useCount < 2 ^ 31 - 1 := by
      have hvalid := h.valid_used hi
      have hnat : ((i.toNat : Nat) : Int) = i := Int.toNat_of_nonneg hvalid.1
      have hcount := htakes i.toNat (by have := hvalid.1; have := hvalid.2; omega)
      rw [hnat] at hcount
      exact hcount hshared
    rcases alloc_auto h hpos hneg with
      ⟨i, hi, hcolor, heq⟩ | ⟨hno, ⟨hfree, heq⟩ | ⟨hfree, -, i, hi, heq⟩⟩
    · cases halloc.symm.trans heq
      rw [if_neg Bool.false_ne_true]
      exact h.sameUse_addUser hi (hlt hi (Or.inl hcolor))
    · obtain ⟨rfl, rfl⟩ := Prod.mk.inj (Option.some.inj (halloc.symm.trans heq))
      have hnone : ¬ ((∃ i ∈ used, (s.clut i).color = reqColor ||| 0xff000000) ∨
          s.firstFreeIndex = -1) := by
        rintro (⟨i, hi, hcolor⟩ | hempty)
        · exact hno i hi hcolor
        · exact hfree hempty
      obtain ⟨free', hlist⟩ := h.first_free hfree
      rw [mappedEntry_auto h hneg, if_neg hnone]
      rw [if_pos rfl]
      refine ⟨rfl, h.gives_of_taken ?_ (allocFirstFree_taken _ hfree) ?_⟩
      · rw [hlist]
        exact List.mem_cons_self
      · exact (Clut.color_setColor _ _ _ _).trans (if_pos rfl)
    · cases halloc.symm.trans heq
      rw [if_neg Bool.false_ne_true]
      exact h.sameUse_addUser hi (hlt hi (Or.inr hfree))
  · rw [if_neg hneg] at htakes
    have hvalid := hindex.resolve_left hneg
    rw [uglCommonClutAlloc, if_neg hneg] at halloc
    cases halloc
    rw [if_pos rfl]
    refine ⟨if_neg hneg, ?_⟩
    by_cases hzero : (s.clut index).useCount = 0
    · have hfirst := htakes.1 hzero
      have hi : index ≠ -1 := by omega
      obtain ⟨free', hlist⟩ := h.first_free (hfirst ▸ hi)
      have hmem : index ∈ free := by
        rw [hlist, ← hfirst]
        exact List.mem_cons_self
      have hnext : (s.clut index).nextIndex = -1 ∨ 0 ≤ (s.clut index).nextIndex := by
        have hchain := h.free_chain
        rw [hlist, ← hfirst] at hchain
        rcases link_cases hchain.2 fun j hj =>
          h.valid_free (hlist ▸ List.mem_cons_of_mem _ hj) with hlink | hlink
        · exact Or.inl hlink
        · exact Or.inr hlink.1
      have hback : s.prev index = none := h.free_back index (by rw [hlist, ← hfirst]; rfl)
      simp only [if_pos hzero]
      refine h.gives_of_taken hmem (takeIndex_taken _ hfirst hi hback hzero hnext) ?_
      rw [addUser, Clut.color_setCount, Clut.color_setColor, if_pos rfl]
    · have hnonneg := h.count_nonneg hvalid
      have hused : index ∈ used := (h.used_iff index hvalid).2 (by omega)
      have hcolor : Tidy (s.setColor index (reqColor ||| 0xff000000)) free used := h.setColor
      have hcount := (hcolor.addUser hused (by rw [Clut.count_setColor]; exact htakes.2)).2
      simp only [if_neg hzero]
      refine ⟨hvalid, ?_, ?_, ?_⟩
      · rw [hcount, if_pos rfl, Clut.count_setColor]
        omega
      · intro j hj
        rw [hcount, if_neg hj, Clut.count_setColor]
      · intro j
        rw [addUser, Clut.color_setCount, Clut.color_setColor]

/-- What one round of `uglCommonClutFree` does to the entries. -/
theorem freeColor_effect (h : Tidy s free used) (hi : s.Valid i) :
    if (s.clut i).useCount = 1 then
      (freeColor s i).1.firstFreeIndex = i ∧ ((freeColor s i).1.clut i).useCount = 0 ∧
        (∀ j, s.Valid j → j ≠ i → ((freeColor s i).1.clut j).useCount = (s.clut j).useCount)
    else SameUse s (freeColor s i).1 := by
  obtain ⟨-, hfreed⟩ := freeColor_tidy h hi
  have hnonneg := h.count_nonneg hi
  split_ifs with hone
  · have hself := hfreed.count i hi
    rw [if_pos rfl, hone] at hself
    refine ⟨?_, by simpa using hself, ?_⟩
    · have hint : int32 (1 - 1) = 0 := rfl
      simp only [freeColor, hone, hint, Clut.count_setCount, if_pos, one_ne_zero, if_false]
      rfl
    · intro j hj hne
      have hcount := hfreed.count j hj
      have := h.count_nonneg hj
      rw [hcount, if_neg hne]
      simp [this]
  · refine ⟨?_, hfreed.color⟩
    intro j hj
    have hcount := hfreed.count j hj
    have := h.count_nonneg hj
    rw [hcount]
    by_cases hji : j = i
    · rw [if_pos hji, hji]
      push_cast
      omega
    · rw [if_neg hji]
      push_cast
      omega

theorem Gives.inUse_iff (h : Gives s s' i c) (hnum : s'.numColors = s.numColors) :
    InUse s' j ↔ j = i ∨ InUse s j := by
  have hvalid : s'.Valid j ↔ s.Valid j := by rw [Clut.Valid, Clut.Valid, hnum]
  rw [InUse, InUse, hvalid]
  by_cases hj : j = i
  · rw [hj]
    exact iff_of_true ⟨h.valid, h.count_self⟩ (Or.inl rfl)
  · rw [h.count j hj]
    exact ⟨Or.inr, fun h => h.resolve_left hj⟩

theorem SameUse.inUse_iff (h : SameUse s s') (hnum : s'.numColors = s.numColors) :
    InUse s' j ↔ InUse s j := by
  have hvalid : s'.Valid j ↔ s.Valid j := by rw [Clut.Valid, Clut.Valid, hnum]
  rw [InUse, InUse, hvalid]
  exact and_congr_right fun hj => h.count j hj

theorem toNat_ofInt (hi : s.Valid i) (hnum : s.numColors ≤ 256) :
    ((UInt32.ofInt i).toNat : Int) = i := by
  obtain ⟨hpos, hlt⟩ := hi
  rw [UInt32.ofInt, UInt32.toNat_ofNat']
  omega

end Entries

/-! ## One call -/

section Call

variable {s s' : CubeClut} {i : Int} {c : UInt32} {k : Nat}

/-- What holds between the calls. -/
structure CubeInv (s : CubeClut) : Prop where
  ordered : Ordered s.clut
  numColors_le : s.clut.numColors ≤ 256
  right : CubeRight s
  clear : (∀ i, ¬ InUse s.clut i) → ∀ k < s.cube.arraySize,
    s.cube.pActualArgbArray k = 0 ∧ s.cube.pCubeError k = 0xffffffff
  argb : ∀ k < s.cube.arraySize, s.cube.pArgbArray k ≠ 0

/-- Only the cell itself matters, and the entries. -/
theorem CellRight.of_sameUse {clut : Clut} (h : CellRight s.clut s.cube k)
    (huse : SameUse s.clut clut) (hnum : clut.numColors = s.clut.numColors) :
    CellRight clut s.cube k := by
  refine ⟨(huse.inUse_iff hnum).mpr h.inUse, ?_, ?_⟩
  · rw [h.actual, huse.color]
  · intro j hj
    rw [huse.color]
    exact h.nearest j ((huse.inUse_iff hnum).mp hj)

/-- A cell that `uglCubeMap` gives to the entry. -/
theorem cellRight_of_takes (hnum : s.clut.numColors ≤ 256) (hgives : Gives s.clut s'.clut i c)
    (hsame : s'.clut.numColors = s.clut.numColors)
    (hcell : s'.cube.cell k = (s.cube.cell k).map i c) (htakes : s.cube.Takes c k)
    (hnearest : ∀ j, InUse s.clut j → j ≠ i →
      sqDist (s.cube.pArgbArray k) c ≤ sqDist (s.cube.pArgbArray k) (s.clut.clut j).color) :
    CellRight s'.clut s'.cube k := by
  have hmap : (s.cube.cell k).map i c =
      { s.cube.cell k with actual := c, col := UInt32.ofInt i } := by
    rw [Cell.map]
    exact (if_pos htakes.1).trans (if_pos htakes.2)
  rw [hmap] at hcell
  have hargb : s'.cube.pArgbArray k = s.cube.pArgbArray k := congrArg Cell.argb hcell
  have hactual : s'.cube.pActualArgbArray k = c := congrArg Cell.actual hcell
  have hentry : s'.cube.entry k = i := by
    have hcol : s'.cube.pUglColorArray k = UInt32.ofInt i := congrArg Cell.col hcell
    rw [Cube.entry, hcol, toNat_ofInt hgives.valid hnum]
  refine ⟨?_, ?_, ?_⟩
  · rw [hentry]
    exact (hgives.inUse_iff hsame).mpr (Or.inl rfl)
  · rw [hactual, hentry, hgives.color, if_pos rfl]
  · intro j hj
    rw [hargb, hactual, hgives.color]
    split_ifs with hji
    · exact le_refl _
    · exact hnearest j (((hgives.inUse_iff hsame).mp hj).resolve_left hji) hji

/-- A cell that keeps its colour. -/
theorem cellRight_of_not_takes (hnum : s.clut.numColors ≤ 256)
    (hgives : Gives s.clut s'.clut i c) (hsame : s'.clut.numColors = s.clut.numColors)
    (hcell : s'.cube.cell k = (s.cube.cell k).map i c) (htakes : ¬ s.cube.Takes c k)
    (hright : CellRight s.clut s.cube k)
    (hkeeps : sqDist (s.cube.pArgbArray k) (s.cube.pActualArgbArray k) ≤
        sqDist (s.cube.pArgbArray k) c ∧
      (s.cube.entry k = i ∨
        s.cube.pArgbArray k = s.cube.pActualArgbArray k ∧ s.cube.pCubeError k ≠ 0 →
        s.cube.pActualArgbArray k = c)) :
    CellRight s'.clut s'.cube k := by
  have hfields : s'.cube.pArgbArray k = s.cube.pArgbArray k ∧
      s'.cube.pActualArgbArray k = s.cube.pActualArgbArray k ∧
      s'.cube.entry k =
        if s.cube.pArgbArray k = s.cube.pActualArgbArray k ∧ s.cube.pCubeError k ≠ 0 then i
        else s.cube.entry k := by
    rw [Cell.map] at hcell
    by_cases hexact : s.cube.pArgbArray k = s.cube.pActualArgbArray k
    · have hcell := hcell.trans (if_neg (not_not_intro hexact))
      by_cases herror : s.cube.pCubeError k = 0
      · have hcell := hcell.trans (if_neg (not_not_intro herror))
        refine ⟨congrArg Cell.argb hcell, congrArg Cell.actual hcell, ?_⟩
        rw [if_neg fun h => h.2 herror]
        exact congrArg (fun x : Cell => ((x.col.toNat : Nat) : Int)) hcell
      · have hcell := hcell.trans (if_pos herror)
        refine ⟨congrArg Cell.argb hcell, congrArg Cell.actual hcell, ?_⟩
        rw [if_pos ⟨hexact, herror⟩, ← toNat_ofInt hgives.valid hnum]
        exact congrArg (fun x : Cell => ((x.col.toNat : Nat) : Int)) hcell
    · have hlt : ¬ errorVal (s.cube.pArgbArray k) c ≤ s.cube.pCubeError k := fun hle =>
        htakes ⟨hexact, hle⟩
      have hcell : s'.cube.cell k = s.cube.cell k :=
        hcell.trans ((if_pos hexact).trans (if_neg hlt))
      refine ⟨congrArg Cell.argb hcell, congrArg Cell.actual hcell, ?_⟩
      rw [if_neg fun h => hexact h.1]
      exact congrArg (fun x : Cell => ((x.col.toNat : Nat) : Int)) hcell
  obtain ⟨hargb, hactual, hentry⟩ := hfields
  refine ⟨?_, ?_, ?_⟩
  · rw [hentry]
    split_ifs
    · exact (hgives.inUse_iff hsame).mpr (Or.inl rfl)
    · exact (hgives.inUse_iff hsame).mpr (Or.inr hright.inUse)
  · rw [hactual, hentry, hgives.color]
    split_ifs with hexact hi hi
    · exact hkeeps.2 (Or.inr hexact)
    · exact absurd rfl hi
    · exact hkeeps.2 (Or.inl hi)
    · exact hright.actual
  · intro j hj
    rw [hargb, hactual, hgives.color]
    split_ifs with hji
    · exact hkeeps.1
    · exact hright.nearest j (((hgives.inUse_iff hsame).mp hj).resolve_left hji)

/-- An allocation that keeps the cube. -/
theorem CubeInv.alloc (h : CubeInv s) {index : Int} {reqColor : UInt32}
    (hindex : index < 0 ∨ s.clut.Valid index) (hkeeps : KeepsCube s (.alloc index reqColor)) :
    ∃ s' a, cubeClutAlloc s index reqColor = some (s', a) ∧ CubeInv s' := by
  obtain ⟨htakes, hmaps⟩ := hkeeps
  obtain ⟨hpos, free, used, htidy⟩ := h.ordered
  obtain ⟨clut, a, halloc, hallocates, heffect⟩ := alloc_effect htidy hpos hindex htakes
  rw [cubeClutAlloc, halloc, Option.map_some]
  refine ⟨_, _, rfl, ?_⟩
  have hordered : Ordered clut := ⟨hallocates.numColors ▸ hpos, hallocates.tidy⟩
  have hnum : clut.numColors ≤ 256 := hallocates.numColors ▸ h.numColors_le
  dsimp only
  by_cases hallocated : a.allocated = true
  · rw [if_pos hallocated] at heffect ⊢
    obtain ⟨hentry, hgives⟩ := heffect
    obtain ⟨hsize, hcell⟩ := uglCubeMap_cell s.cube a.index (reqColor ||| 0xff000000)
    refine ⟨hordered, hnum, ?_, ?_, ?_⟩
    · intro _ k hk
      have hk : k < s.cube.arraySize := hsize ▸ hk
      have hmapk := hmaps a.index hentry k hk
      by_cases hin : ∃ j, InUse s.clut j
      · have hright := h.right hin k hk
        rw [MapsCell] at hmapk
        by_cases htk : s.cube.Takes (reqColor ||| 0xff000000) k
        · rw [if_pos htk] at hmapk
          exact cellRight_of_takes h.numColors_le
            hgives hallocates.numColors (hcell k hk) htk hmapk
        · rw [if_neg htk] at hmapk
          exact cellRight_of_not_takes h.numColors_le
            hgives hallocates.numColors (hcell k hk) htk hright hmapk
      · -- nobody uses the palette: the cells are clear, and any colour is taken
        have hno : ∀ j, ¬ InUse s.clut j := fun j hj => hin ⟨j, hj⟩
        obtain ⟨hactual, herror⟩ := h.clear hno k hk
        have htk : s.cube.Takes (reqColor ||| 0xff000000) k := by
          refine ⟨?_, ?_⟩
          · rw [hactual]
            exact h.argb k hk
          · rw [herror]
            exact UInt32.le_of_lt (errorVal_lt _)
        exact cellRight_of_takes h.numColors_le
          hgives hallocates.numColors (hcell k hk) htk fun j hj _ => absurd hj (hno j)
    · intro hno
      exact absurd ((hgives.inUse_iff hallocates.numColors).mpr (Or.inl rfl)) (hno a.index)
    · intro k hk
      have hk : k < s.cube.arraySize := hsize ▸ hk
      have hargb : (uglCubeMap s.cube a.index (reqColor ||| 0xff000000)).pArgbArray k =
          s.cube.pArgbArray k := by
        refine (congrArg Cell.argb (hcell k hk)).trans ?_
        rw [Cell.map]
        split_ifs <;> rfl
      rw [hargb]
      exact h.argb k hk
  · rw [if_neg hallocated] at heffect ⊢
    refine ⟨hordered, hnum, ?_, ?_, h.argb⟩
    · rintro ⟨j, hj⟩ k hk
      have hin := (heffect.inUse_iff hallocates.numColors).mp hj
      exact (h.right ⟨j, hin⟩ k hk).of_sameUse heffect hallocates.numColors
    · intro hno
      exact h.clear fun j hj => hno j ((heffect.inUse_iff hallocates.numColors).mpr hj)

theorem entry_eq_iff {cube : Cube} (hi : s.clut.Valid i) (hnum : s.clut.numColors ≤ 256) :
    cube.entry k = i ↔ cube.pUglColorArray k = UInt32.ofInt i := by
  have hnat := toNat_ofInt hi hnum
  rw [Cube.entry, ← UInt32.toNat_inj]
  omega

/-- A cell whose entry is freed and that gets the replacement. -/
theorem cellRight_of_replaced {cube : Cube} {clut : Clut} {r : Nat} (hne : s.cube.entry r ≠ i)
    (hright : CellRight s.clut s.cube r) (huse : ∀ j, InUse clut j ↔ InUse s.clut j ∧ j ≠ i)
    (hcolor : ∀ j, (clut.clut j).color = (s.clut.clut j).color)
    (hargb : cube.pArgbArray k = s.cube.pArgbArray k)
    (hactual : cube.pActualArgbArray k = s.cube.pActualArgbArray r)
    (hcol : cube.pUglColorArray k = s.cube.pUglColorArray r)
    (hnearest : ∀ j, InUse s.clut j → j ≠ i →
      sqDist (s.cube.pArgbArray k) (s.cube.pActualArgbArray r) ≤
        sqDist (s.cube.pArgbArray k) (s.clut.clut j).color) :
    CellRight clut cube k := by
  have hentry : cube.entry k = s.cube.entry r := by rw [Cube.entry, Cube.entry, hcol]
  refine ⟨?_, ?_, ?_⟩
  · rw [hentry]
    exact (huse _).mpr ⟨hright.inUse, hne⟩
  · rw [hactual, hentry, hcolor]
    exact hright.actual
  · intro j hj
    obtain ⟨hj, hji⟩ := (huse j).mp hj
    rw [hargb, hactual, hcolor]
    exact hnearest j hj hji

/-- The replacement is a cell of another entry. -/
theorem replacement_mem {cube : Cube} {color : UInt32} {r : Nat}
    (hr : r ∈ cube.replacement color) : r < cube.arraySize ∧ cube.pUglColorArray r ≠ color := by
  rw [Cube.replacement] at hr
  obtain ⟨first, -, hr⟩ := Option.mem_bind_iff.mp hr
  have hmem := List.mem_filter.mp (List.mem_reverse.mp (List.argmin_mem hr))
  exact ⟨List.mem_range.mp hmem.1, by simpa using hmem.2⟩

/-- There is none when all cells are of the entry. -/
theorem replacement_eq_none {cube : Cube} {color : UInt32}
    (hall : ∀ k < cube.arraySize, cube.pUglColorArray k = color) :
    cube.replacement color = none := by
  have hnil : (List.range cube.arraySize).filter
      (fun i => decide (cube.pUglColorArray i ≠ color)) = [] := by
    rw [List.filter_eq_nil_iff]
    intro k hk
    simpa using hall k (List.mem_range.mp hk)
  rw [Cube.replacement, hnil]
  cases findCell cube color 0 cube.arraySize <;> rfl

/-- A round of `uglCommonClutFree` that keeps the cube. -/
theorem CubeInv.freeColor (h : CubeInv s) (hi : s.clut.Valid i)
    (hkeeps : (s.clut.clut i).useCount = 1 → (∃ j, InUse s.clut j ∧ j ≠ i) →
      ∀ k < s.cube.arraySize, s.cube.entry k = i → ReplacesCell s i k) :
    CubeInv (cubeFreeColor s i).1 := by
  obtain ⟨hpos, free, used, htidy⟩ := h.ordered
  obtain ⟨htidy', hfreed⟩ := freeColor_tidy htidy hi
  have heffect := freeColor_effect htidy hi
  have hordered : Ordered (Ugl.freeColor s.clut i).1 := ⟨hfreed.numColors ▸ hpos, htidy'⟩
  have hnum : (Ugl.freeColor s.clut i).1.numColors ≤ 256 := hfreed.numColors ▸ h.numColors_le
  have hvalid : ∀ j, (Ugl.freeColor s.clut i).1.Valid j ↔ s.clut.Valid j := by
    intro j
    rw [Clut.Valid, Clut.Valid, hfreed.numColors]
  by_cases hone : (s.clut.clut i).useCount = 1
  · rw [if_pos hone] at heffect
    obtain ⟨hfirst, hself, hothers⟩ := heffect
    have huse : ∀ j, InUse (Ugl.freeColor s.clut i).1 j ↔ InUse s.clut j ∧ j ≠ i := by
      intro j
      rw [InUse, InUse, hvalid]
      by_cases hj : j = i
      · rw [hj, hself]
        simp
      · constructor
        · rintro ⟨hvalid, hcount⟩
          rw [hothers j hvalid hj] at hcount
          exact ⟨⟨hvalid, hcount⟩, hj⟩
        · rintro ⟨⟨hvalid, hcount⟩, -⟩
          refine ⟨hvalid, ?_⟩
          rwa [hothers j hvalid hj]
    have hin : InUse s.clut i := ⟨hi, by omega⟩
    have hcube : (cubeFreeColor s i).1.cube =
        uglCubeUnmap (Ugl.freeColor s.clut i).1 s.cube (UInt32.ofInt i) := by
      rw [cubeFreeColor]
      dsimp only
      rw [hone]
      exact if_pos ⟨one_ne_zero, rfl⟩
    have hfree : (Ugl.freeColor s.clut i).1.firstFreeIndex ≠ -1 := by
      rw [hfirst]
      have := hi.1
      omega
    obtain ⟨hsize, hcell⟩ := @uglCubeUnmap_cell s.cube (UInt32.ofInt i) _ hfree
    rw [← hcube] at hsize hcell
    have hrights := h.right ⟨i, hin⟩
    refine ⟨hordered, hnum, ?_, ?_, ?_⟩
    · rintro ⟨j, hj⟩ k hk
      have hk : k < s.cube.arraySize := hsize ▸ hk
      have hcellk := hcell k hk
      obtain ⟨hjin, hji⟩ := (huse j).mp hj
      by_cases hcol : s.cube.pUglColorArray k = UInt32.ofInt i
      · obtain ⟨r, hr, hnearest⟩ := hkeeps hone ⟨j, hjin, hji⟩ k hk
          ((entry_eq_iff hi h.numColors_le).mpr hcol)
        obtain ⟨hrlt, hrne⟩ := replacement_mem hr
        have hcellk := hcellk.trans ((if_pos hcol).trans (if_pos hcol))
        rw [show s.cube.replacement (UInt32.ofInt i) = some r from hr] at hcellk
        exact cellRight_of_replaced (fun heq => hrne ((entry_eq_iff hi h.numColors_le).mp heq))
          (hrights r hrlt) huse hfreed.color (congrArg Cell.argb hcellk)
          (congrArg Cell.actual hcellk) (congrArg Cell.col hcellk) hnearest
      · rw [if_neg hcol] at hcellk
        exact cellRight_of_replaced (fun heq => hcol ((entry_eq_iff hi h.numColors_le).mp heq))
          (hrights k hk) huse hfreed.color (congrArg Cell.argb hcellk)
          (congrArg Cell.actual hcellk) (congrArg Cell.col hcellk)
          fun j hj _ => (hrights k hk).nearest j hj
    · -- the last user of the palette: all cells are of its entry
      intro hno k hk
      have hk : k < s.cube.arraySize := hsize ▸ hk
      have hall : ∀ k < s.cube.arraySize, s.cube.pUglColorArray k = UInt32.ofInt i := by
        intro k hk
        rw [← entry_eq_iff hi h.numColors_le]
        by_contra hne
        exact hno _ ((huse _).mpr ⟨(hrights k hk).inUse, hne⟩)
      have hcellk := (hcell k hk).trans ((if_pos (hall k hk)).trans (if_pos (hall k hk)))
      rw [replacement_eq_none hall] at hcellk
      exact ⟨congrArg Cell.actual hcellk, congrArg Cell.error hcellk⟩
    · intro k hk
      have hk : k < s.cube.arraySize := hsize ▸ hk
      have hargb : (cubeFreeColor s i).1.cube.pArgbArray k = s.cube.pArgbArray k := by
        refine (congrArg Cell.argb (hcell k hk)).trans ?_
        rw [Cell.replace]
        split_ifs <;> rfl
      rw [hargb]
      exact h.argb k hk
  · rw [if_neg hone] at heffect
    have hcount := htidy.count_nonneg hi
    have hcube : (cubeFreeColor s i).1.cube = s.cube := by
      refine if_neg ?_
      rintro ⟨hzero, hlast⟩
      have hused : i ∈ used := (htidy.used_iff i hi).2 (by omega)
      have hlt := htidy.count_lt i hused
      rw [int32_of_lt (by omega) (by omega)] at hlast
      omega
    refine ⟨hordered, hnum, ?_, ?_, ?_⟩
    · rintro ⟨j, hj⟩ k hk
      rw [hcube] at hk ⊢
      have hin := (heffect.inUse_iff hfreed.numColors).mp hj
      exact (h.right ⟨j, hin⟩ k hk).of_sameUse heffect hfreed.numColors
    · rw [hcube]
      intro hno
      exact h.clear fun j hj => hno j ((heffect.inUse_iff hfreed.numColors).mpr hj)
    · rw [hcube]
      exact h.argb

/-- `uglCommonClutFree`, when it keeps the cube. -/
theorem CubeInv.free (h : CubeInv s) {colors : List UInt32} {mask : UInt32}
    (hvalid : ∀ color ∈ colors, s.clut.Valid (colorIndex color mask))
    (hkeeps : FreesKeep s mask colors) : CubeInv (cubeClutFree s colors mask).1 := by
  induction colors generalizing s with
  | nil => exact h
  | cons color colors ih =>
    obtain ⟨hfirst, hrest⟩ := hkeeps
    have hi := hvalid color List.mem_cons_self
    obtain ⟨-, free, used, htidy⟩ := h.ordered
    obtain ⟨-, hfreed⟩ := freeColor_tidy htidy hi
    refine ih (h.freeColor hi hfirst) ?_ hrest
    intro c hc
    have hvc := hvalid c (List.mem_cons_of_mem _ hc)
    rw [Clut.Valid] at hvc ⊢
    exact hfreed.numColors.symm ▸ hvc

end Call

/-! ## Runs -/

section Runs

variable {s s' : CubeClut} {call : ClutCall} {calls : List ClutCall}

/-- One call. -/
theorem CubeInv.step (h : CubeInv s) (hkeeps : KeepsCube s call) (hs : cubeStep s call = some s') :
    CubeInv s' := by
  cases call with
  | alloc index reqColor =>
    rw [cubeStep, Option.ite_none_right_eq_some] at hs
    obtain ⟨hindex, hs⟩ := hs
    obtain ⟨s₁, a, halloc, hinv⟩ := h.alloc hindex hkeeps
    rw [halloc] at hs
    obtain rfl : s₁ = s' := Option.some.inj hs
    exact hinv
  | free colors mask =>
    obtain ⟨hvalid, rfl⟩ := guard_some.1 hs
    exact h.free hvalid hkeeps.2

/-- The cells have colours of full opacity. -/
theorem cubeColors_ne_zero {nRed nGreen nBlue : Nat} {c : UInt32}
    (hc : c ∈ cubeColors nRed nGreen nBlue) : c ≠ 0 := by
  intro hzero
  simp only [cubeColors, List.mem_flatMap, List.mem_map] at hc
  obtain ⟨i, -, j, -, k, -, hc⟩ := hc
  rw [hzero, UGL_MAKE_RGB, UGL_MAKE_ARGB, UInt32.or_eq_zero_iff, UInt32.or_eq_zero_iff,
    UInt32.or_eq_zero_iff] at hc
  exact absurd hc.1.1.1 (by decide)

theorem length_cubeColors (nRed nGreen nBlue : Nat) :
    (cubeColors nRed nGreen nBlue).length = nRed * nGreen * nBlue := by
  simp [cubeColors, Nat.mul_assoc]

/-- Nobody uses a new palette. -/
theorem not_inUse_create {numColors : Int} (i : Int) :
    ¬ InUse (uglCommonClutCreate numColors) i := by
  rintro ⟨-, hcount⟩
  rw [(create_entry i).1] at hcount
  omega

theorem cubeInv_create {numColors : Int} (hlow : 216 ≤ numColors) (hhigh : numColors ≤ 256) :
    CubeInv (cubeClutCreate numColors) := by
  have hpos : 0 < numColors := by omega
  have hnum : (uglCommonClutCreate numColors).numColors = numColors := (create_entry 0).2.1
  refine ⟨⟨hnum.symm ▸ hpos, _, _, create_tidy hpos⟩, hnum.symm ▸ hhigh, ?_,
    fun _ k _ => ⟨rfl, rfl⟩, ?_⟩
  · rintro ⟨i, hi⟩
    exact absurd hi (not_inUse_create i)
  · intro k hk
    have hlen : k < (cubeColors 6 6 6).length := by
      rw [length_cubeColors]
      exact hk
    have hget : (cubeClutCreate numColors).cube.pArgbArray k = (cubeColors 6 6 6)[k] := by
      show (cubeColors 6 6 6).getD k 0 = _
      rw [List.getD_eq_getElem?_getD, List.getElem?_eq_getElem hlen, Option.getD_some]
    rw [hget]
    exact cubeColors_ne_zero (List.getElem_mem hlen)

theorem count_unlinkFree (s : Clut) (i j : Int) :
    ((unlinkFree s i).clut j).useCount = (s.clut j).useCount := by
  simp only [unlinkFree]
  split_ifs <;> simp only [Clut.count_setNext, Clut.count_setPrev]

theorem color_unlinkFree (s : Clut) (i j : Int) :
    ((unlinkFree s i).clut j).color = (s.clut j).color := by
  simp only [unlinkFree]
  split_ifs <;> simp only [Clut.color_setNext, Clut.color_setPrev]

theorem numColors_unlinkFree (s : Clut) (i : Int) :
    (unlinkFree s i).numColors = s.numColors := by
  simp only [unlinkFree]
  split_ifs <;> rfl

/-- An allocation of a named entry, whatever the lists are. -/
theorem alloc_named (s : Clut) {i : Int} (hi : 0 ≤ i) (reqColor : UInt32) :
    ∃ s', uglCommonClutAlloc s i reqColor =
        some (s', { index := i, actualColor := reqColor ||| 0xff000000, allocated := true }) ∧
      s'.numColors = s.numColors ∧
      (∀ j, (s'.clut j).useCount =
        if j = i then int32 ((s.clut i).useCount + 1) else (s.clut j).useCount) ∧
      ∀ j, (s'.clut j).color = if j = i then reqColor ||| 0xff000000 else (s.clut j).color := by
  refine ⟨_, if_neg (by omega), ?_, ?_, ?_⟩
  · show (if (s.clut i).useCount = 0 then pushUsed (unlinkFree s i) i else s).numColors = _
    split_ifs
    · rw [numColors_pushUsed, numColors_unlinkFree]
    · rfl
  · intro j
    rw [addUser, Clut.count_setCount, Clut.count_setColor, Clut.count_setColor]
    split_ifs <;> simp only [count_pushUsed, count_unlinkFree]
  · intro j
    rw [addUser, Clut.color_setCount, Clut.color_setColor]
    split_ifs <;> simp only [color_pushUsed, color_unlinkFree]

/-- The same with the cube. -/
theorem cubeStep_named (s : CubeClut) {i : Int} (hi : s.clut.Valid i) (reqColor : UInt32) :
    ∃ clut, cubeStep s (.alloc i reqColor) =
        some ⟨clut, uglCubeMap s.cube i (reqColor ||| 0xff000000)⟩ ∧
      clut.numColors = s.clut.numColors ∧
      (∀ j, (clut.clut j).useCount =
        if j = i then int32 ((s.clut.clut i).useCount + 1) else (s.clut.clut j).useCount) ∧
      ∀ j, (clut.clut j).color =
        if j = i then reqColor ||| 0xff000000 else (s.clut.clut j).color := by
  obtain ⟨clut, halloc, heffect⟩ := alloc_named s.clut hi.1 reqColor
  refine ⟨clut, ?_, heffect⟩
  rw [cubeStep, if_pos (Or.inr hi), cubeClutAlloc, halloc, Option.map_some, Option.map_some,
    if_pos rfl]

/-- A palette of 216 colours with a first colour. -/
theorem cube_first (reqColor : UInt32) :
    ∃ clut, cubeStep (cubeClutCreate 216) (.alloc 0 reqColor) =
        some ⟨clut, uglCubeMap (uglColorCubeCreate 6 6 6) 0 (reqColor ||| 0xff000000)⟩ ∧
      clut.numColors = 216 ∧ (clut.clut 0).useCount = 1 := by
  obtain ⟨hcount, hnum, -⟩ := @create_entry 216 0
  have hvalid : (cubeClutCreate 216).clut.Valid 0 := by
    refine ⟨le_refl 0, ?_⟩
    show (0 : Int) < (uglCommonClutCreate 216).numColors
    rw [hnum]
    omega
  obtain ⟨clut, hstep, hnum', hcount', -⟩ := cubeStep_named _ hvalid reqColor
  refine ⟨clut, hstep, hnum'.trans hnum, ?_⟩
  rw [hcount', if_pos rfl]
  show int32 (((uglCommonClutCreate 216).clut 0).useCount + 1) = 1
  rw [hcount]
  rfl

/-- The first cell is the one of black. -/
theorem pArgbArray_zero : (uglColorCubeCreate 6 6 6).pArgbArray 0 = 0xff000000 := by decide

end Runs

end Vmx.Ugl
