import Vmx.Ugl.ClutRuns
import Mathlib.Data.Int.ConditionallyCompleteOrder
import Mathlib.Data.List.MinMax
import Mathlib.Tactic.Positivity

/-!
# The nearest colour of a palette

`uglCommonClutMapNearest` maps several colours in one call.  The least error so far,
`minError`, is set once for the whole call, and `nearIndex` keeps its value when no entry is
below it, so what a colour is mapped to depends on the colours in front of it.

`sqDist` is the distance that the errors stand for, and `IsNearest` says that an entry is one
of those at the least distance.  `nearestLoop_eq` says what one search finds: the first
nearest entry when it is below the least error so far, and otherwise what was there before.
The variables before a search are functions of the colours in front (`passedError`,
`inForce`), and with them `map_nearest_iff` says exactly for which lists of colours each is
mapped to a nearest entry.
-/

namespace Vmx.Ugl

open Lib

/-- The squared distance of the components of two colours. -/
def sqDist (c d : UInt32) : Int :=
  ((UGL_ARGB_RED c).toNat - (UGL_ARGB_RED d).toNat : Int) ^ 2 +
    ((UGL_ARGB_GREEN c).toNat - (UGL_ARGB_GREEN d).toNat : Int) ^ 2 +
    ((UGL_ARGB_BLUE c).toNat - (UGL_ARGB_BLUE d).toNat : Int) ^ 2

/-- The distance of an entry from a colour. -/
def Clut.dist (s : Clut) (reqColor : UInt32) (i : Int) : Int := sqDist (s.clut i).color reqColor

/-- An entry of the used list at the least distance from a colour. -/
def IsNearest (s : Clut) (used : List Int) (reqColor : UInt32) (i : Int) : Prop :=
  i ∈ used ∧ ∀ j ∈ used, s.dist reqColor i ≤ s.dist reqColor j

/-- Each colour is mapped to a nearest entry, and the actual colour is the entry's. -/
def MapsRight (s : Clut) (used : List Int) (mapColors : List UInt32) : Prop :=
  ∃ results, uglCommonClutMapNearest s mapColors = some results ∧
    List.Forall₂ (fun reqColor r => r.1 = (s.clut r.2).color ∧ IsNearest s used reqColor r.2)
      mapColors results

/-- The entries that a search for a colour goes past: those in front of a perfect match. -/
def passed (s : Clut) (used : List Int) (reqColor : UInt32) : List Int :=
  used.takeWhile fun j => s.dist reqColor j ≠ 0

/-- The least distance of the entries that the searches for some colours go past. -/
def passedError (s : Clut) (used : List Int) (before : List UInt32) : Int :=
  before.foldl (fun m reqColor => ((passed s used reqColor).map (s.dist reqColor)).foldl min m)
    0xffffffff

/-- Some used entry is nearer to the colour than all entries gone past for the colours in
front. -/
def Improves (s : Clut) (used : List Int) (before : List UInt32) (reqColor : UInt32) : Prop :=
  ∃ j ∈ used, s.dist reqColor j < passedError s used before

instance (s : Clut) (used : List Int) (before : List UInt32) (reqColor : UInt32) :
    Decidable (Improves s used before reqColor) :=
  List.decidableBEx _ _

/-- The last of some colours that improves on those in front of it; `before` are the colours
in front of all of them. -/
def inForce (s : Clut) (used : List Int) (before : List UInt32) (last : Option UInt32) :
    List UInt32 → Option UInt32
  | [] => last
  | reqColor :: mapColors =>
    inForce s used (before ++ [reqColor])
      (if Improves s used before reqColor then some reqColor else last) mapColors

/-- For each colour of the list, the nearest entry to the last colour up to there that
improves is nearest to the colour itself. -/
def NearestInForce (s : Clut) (used : List Int) (mapColors : List UInt32) : Prop :=
  ∀ before reqColor after, mapColors = before ++ reqColor :: after →
    ∀ last ∈ inForce s used [] none (before ++ [reqColor]),
      ∀ i ∈ used.argmin (s.dist last), IsNearest s used reqColor i

/-! ## The errors -/

section Errors

variable {s : Clut} {reqColor : UInt32} {i : Int}

theorem toNat_sub_sq_eq {x y : UInt32} (hx : x.toNat ≤ 255) (hy : y.toNat ≤ 255) :
    (((x - y) * (x - y)).toNat : Int) = (x.toNat - y.toNat : Int) ^ 2 := by
  wlog hle : y ≤ x
  · have hsymm : (x - y) * (x - y) = (y - x) * (y - x) := by grind
    rw [hsymm, this hy hx (by rw [UInt32.le_iff_toNat_le] at hle ⊢; omega)]
    ring
  have hsq := toNat_sub_sq hx hy
  rw [UInt32.toNat_mul, UInt32.toNat_sub_of_le _ _ hle] at hsq ⊢
  rw [UInt32.le_iff_toNat_le] at hle
  have hdiff : x.toNat - y.toNat ≤ 255 := by omega
  have hlt := Nat.mul_le_mul hdiff hdiff
  rw [Nat.mod_eq_of_lt (by omega)]
  push_cast [hle]
  ring

/-- The error of a colour is its squared distance: nothing is lost in 32 bits. -/
theorem errorVal_eq (color reqColor : UInt32) :
    ((errorVal color reqColor).toNat : Int) = sqDist color reqColor := by
  have hr := toNat_sub_sq (toNat_and_255 (color >>> 16)) (toNat_and_255 (reqColor >>> 16))
  have hg := toNat_sub_sq (toNat_and_255 (color >>> 8)) (toNat_and_255 (reqColor >>> 8))
  have hb := toNat_sub_sq (toNat_and_255 color) (toNat_and_255 reqColor)
  simp only [sqDist, errorVal, UGL_ARGB_RED, UGL_ARGB_GREEN, UGL_ARGB_BLUE]
  rw [← toNat_sub_sq_eq (toNat_and_255 _) (toNat_and_255 _),
    ← toNat_sub_sq_eq (toNat_and_255 _) (toNat_and_255 _),
    ← toNat_sub_sq_eq (toNat_and_255 _) (toNat_and_255 _)]
  rw [UInt32.toNat_add, UInt32.toNat_add]
  omega

theorem errorVal_lt_iff {color : UInt32} {m : UInt32} :
    errorVal color reqColor < m ↔ sqDist color reqColor < m.toNat := by
  rw [UInt32.lt_iff_toNat_lt, ← errorVal_eq]
  exact Int.ofNat_lt.symm

theorem errorVal_eq_zero_iff {color : UInt32} :
    errorVal color reqColor = 0 ↔ sqDist color reqColor = 0 := by
  rw [← errorVal_eq, ← UInt32.toNat_inj]
  exact Int.natCast_eq_zero.symm

theorem or_and_of_zero {x y mask : UInt32} (hzero : y &&& mask = 0) :
    (x ||| y) &&& mask = x &&& mask := by
  apply UInt32.toNat_inj.mp
  rw [UInt32.toNat_and, UInt32.toNat_or, Nat.and_or_distrib_right, ← UInt32.toNat_and,
    ← UInt32.toNat_and, hzero]
  exact Nat.or_zero _

/-- The alpha component does not count. -/
theorem sqDist_opaque (color reqColor : UInt32) :
    sqDist color (reqColor ||| 0xff000000) = sqDist color reqColor := by
  have hred : UGL_ARGB_RED (reqColor ||| 0xff000000) = UGL_ARGB_RED reqColor := by
    rw [UGL_ARGB_RED, UInt32.shiftRight_or]
    exact or_and_of_zero rfl
  have hgreen : UGL_ARGB_GREEN (reqColor ||| 0xff000000) = UGL_ARGB_GREEN reqColor := by
    rw [UGL_ARGB_GREEN, UInt32.shiftRight_or]
    exact or_and_of_zero rfl
  have hblue : UGL_ARGB_BLUE (reqColor ||| 0xff000000) = UGL_ARGB_BLUE reqColor :=
    or_and_of_zero rfl
  rw [sqDist, sqDist, hred, hgreen, hblue]

theorem Clut.dist_nonneg (s : Clut) (reqColor : UInt32) (i : Int) : 0 ≤ s.dist reqColor i := by
  rw [Clut.dist, sqDist]
  positivity

end Errors

/-! ## One search -/

section Search

variable {s : Clut} {used : List Int} {reqColor : UInt32} {i : Int}

/-- The variables after a search along the used list. -/
theorem nearestLoop_eq (reqColor minError : UInt32) (near : Option Int) {fuel : Nat}
    (h : Chain s.next (ptr i) used) (hfuel : used.length ≤ fuel) (hpos : 0 < minError.toNat) :
    ∃ e, nearestLoop s reqColor fuel i minError near =
        some (e, if ∃ j ∈ used, s.dist reqColor j < minError.toNat then
          used.argmin (s.dist reqColor) else near) ∧
      (e.toNat : Int) =
        ((passed s used reqColor).map (s.dist reqColor)).foldl min (minError.toNat : Int) ∧
      0 < e.toNat := by
  induction used generalizing i fuel minError near with
  | nil =>
    obtain rfl : i = -1 := ptr_eq_none.1 h
    refine ⟨minError, ?_, rfl, hpos⟩
    unfold nearestLoop
    rw [if_pos rfl, if_neg (by simp)]
  | cons n used ih =>
    obtain ⟨rfl, hi⟩ := ptr_eq_some.1 h.1
    rw [List.length_cons] at hfuel
    unfold nearestLoop
    rw [if_neg hi]
    cases fuel with
    | zero => omega
    | succ fuel =>
      dsimp only
      have hnonneg := s.dist_nonneg reqColor i
      by_cases hlt : s.dist reqColor i < minError.toNat
      · have hex : ∃ j ∈ i :: used, s.dist reqColor j < minError.toNat :=
          ⟨i, List.mem_cons_self, hlt⟩
        rw [if_pos (errorVal_lt_iff.mpr hlt), if_pos hex]
        by_cases hzero : s.dist reqColor i = 0
        · -- a perfect match: the rest of the list is not looked at
          rw [if_pos (errorVal_eq_zero_iff.mpr hzero)]
          refine ⟨minError, ?_, ?_, hpos⟩
          · rw [List.argmin_cons]
            cases harg : used.argmin (s.dist reqColor) with
            | none => rfl
            | some j =>
              dsimp only
              have := s.dist_nonneg reqColor j
              rw [if_neg (by omega)]
          · rw [passed, List.takeWhile_cons_of_neg (by simp [hzero])]
            rfl
        · rw [if_neg fun herr => hzero (errorVal_eq_zero_iff.mp herr)]
          have herr : ((errorVal (s.clut i).color reqColor).toNat : Int) = s.dist reqColor i :=
            errorVal_eq _ _
          obtain ⟨e, hloop, he, hepos⟩ := ih (errorVal (s.clut i).color reqColor)
            (some i) h.2 (Nat.le_of_succ_le_succ hfuel) (by omega)
          refine ⟨e, ?_, ?_, hepos⟩
          · rw [hloop, herr, List.argmin_cons]
            congr 2
            cases harg : used.argmin (s.dist reqColor) with
            | none =>
              rw [List.argmin_eq_none] at harg
              rw [harg, if_neg (by simp)]
            | some j =>
              dsimp only
              by_cases hj : s.dist reqColor j < s.dist reqColor i
              · have hex' : ∃ k ∈ used, s.dist reqColor k < s.dist reqColor i :=
                  ⟨j, List.argmin_mem harg, hj⟩
                rw [if_pos hj, if_pos hex']
              · have hno : ¬ ∃ k ∈ used, s.dist reqColor k < s.dist reqColor i := by
                  rintro ⟨k, hk, hlt'⟩
                  have := List.le_of_mem_argmin hk harg
                  omega
                rw [if_neg hj, if_neg hno]
          · rw [he, herr, passed, passed, List.takeWhile_cons_of_pos (by simp [hzero]),
              List.map_cons, List.foldl_cons, min_eq_right (by omega)]
      · rw [if_neg fun herr => hlt (errorVal_lt_iff.mp herr)]
        obtain ⟨e, hloop, he, hepos⟩ := ih minError near h.2 (Nat.le_of_succ_le_succ hfuel) hpos
        refine ⟨e, ?_, ?_, hepos⟩
        · rw [hloop, List.argmin_cons]
          congr 2
          by_cases hex : ∃ j ∈ used, s.dist reqColor j < minError.toNat
          · obtain ⟨k, hk, hkm⟩ := hex
            have hex : ∃ j ∈ used, s.dist reqColor j < minError.toNat := ⟨k, hk, hkm⟩
            have hex' : ∃ j ∈ i :: used, s.dist reqColor j < minError.toNat :=
              ⟨k, List.mem_cons_of_mem _ hk, hkm⟩
            rw [if_pos hex, if_pos hex']
            cases harg : used.argmin (s.dist reqColor) with
            | none =>
              rw [List.argmin_eq_none] at harg
              rw [harg] at hk
              exact absurd hk List.not_mem_nil
            | some j =>
              dsimp only
              have := List.le_of_mem_argmin hk harg
              rw [if_pos (by omega)]
          · have hno : ¬ ∃ j ∈ i :: used, s.dist reqColor j < minError.toNat := by
              rintro ⟨k, hk, hkm⟩
              rcases List.mem_cons.mp hk with heq | hk
              · exact hlt (heq ▸ hkm)
              · exact hex ⟨k, hk, hkm⟩
            rw [if_neg hex, if_neg hno]
        · rw [he, passed, passed, List.takeWhile_cons_of_pos (by simp; omega), List.map_cons,
            List.foldl_cons, min_eq_left (by omega)]

/-- The nearest entry that the search finds when some entry is below `minError`. -/
theorem isNearest_of_argmin (h : i ∈ used.argmin (s.dist reqColor)) :
    IsNearest s used reqColor i :=
  ⟨List.argmin_mem h, fun _ hj => List.le_of_mem_argmin hj h⟩

end Search

/-! ## A call -/

section Calls

variable {s : Clut} {free used : List Int}

theorem dist_lt (s : Clut) (reqColor : UInt32) (i : Int) :
    s.dist reqColor i < 0xffffffff :=
  errorVal_lt_iff.mp (errorVal_lt (s.clut i).color)

/-- The first colour improves on nothing. -/
theorem improves_nil (hused : used ≠ []) (reqColor : UInt32) : Improves s used [] reqColor := by
  obtain ⟨i, hi⟩ := List.exists_mem_of_ne_nil used hused
  exact ⟨i, hi, dist_lt s reqColor i⟩

theorem passedError_concat (before : List UInt32) (reqColor : UInt32) :
    passedError s used (before ++ [reqColor]) =
      ((passed s used reqColor).map (s.dist reqColor)).foldl min (passedError s used before) := by
  rw [passedError, List.foldl_concat]
  rfl

/-- The outer loop behind some colours: `last` is the one of them in force. -/
theorem mapNearestLoop_iff (h : ClutLists s free used) (hused : used ≠ [])
    (before : List UInt32) (last : Option UInt32) (hlast : last = none → before = []) {minError : UInt32}
    (hmin : (minError.toNat : Int) = passedError s used before) (hpos : 0 < minError.toNat)
    (mapColors : List UInt32) :
    ∃ results, mapNearestLoop s mapColors minError
        (last.bind fun c => used.argmin (s.dist c)) = some results ∧
      (List.Forall₂ (fun reqColor r => r.1 = (s.clut r.2).color ∧
          IsNearest s used reqColor r.2) mapColors results ↔
        ∀ pre reqColor post, mapColors = pre ++ reqColor :: post →
          ∀ c ∈ inForce s used before last (pre ++ [reqColor]),
            ∀ i ∈ used.argmin (s.dist c), IsNearest s used reqColor i) := by
  induction mapColors generalizing before last minError with
  | nil =>
    refine ⟨[], rfl, iff_of_true List.Forall₂.nil ?_⟩
    intro pre reqColor post heq
    exact absurd heq (by simp)
  | cons reqColor mapColors ih =>
    obtain ⟨e, hloop, he, hepos⟩ := nearestLoop_eq reqColor minError
      (last.bind fun c => used.argmin (s.dist c)) h.used_chain h.length_used hpos
    have himproves : (∃ j ∈ used, s.dist reqColor j < minError.toNat) ↔
        Improves s used before reqColor := by rw [hmin, Improves]
    -- the colour in force after this one
    obtain ⟨c, hc⟩ : ∃ c, (if Improves s used before reqColor then some reqColor else last) =
        some c := by
      by_cases himp : Improves s used before reqColor
      · exact ⟨reqColor, if_pos himp⟩
      · rw [if_neg himp]
        cases last with
        | none => exact absurd (hlast rfl ▸ improves_nil hused reqColor) himp
        | some c => exact ⟨c, rfl⟩
    obtain ⟨i, hi⟩ : ∃ i, used.argmin (s.dist c) = some i := by
      cases harg : used.argmin (s.dist c) with
      | none => exact absurd (List.argmin_eq_none.mp harg) hused
      | some i => exact ⟨i, rfl⟩
    have hnear : (if ∃ j ∈ used, s.dist reqColor j < minError.toNat then
        used.argmin (s.dist reqColor) else last.bind fun c => used.argmin (s.dist c)) =
        (some c).bind fun c => used.argmin (s.dist c) := by
      rw [← hc]
      by_cases himp : Improves s used before reqColor
      · rw [if_pos (himproves.mpr himp), if_pos himp]
        rfl
      · rw [if_neg (himproves.not.mpr himp), if_neg himp]
    rw [hmin, ← passedError_concat] at he
    obtain ⟨results, hrest, hiff⟩ := ih (before ++ [reqColor]) (some c)
      (fun hnone => absurd hnone (Option.some_ne_none _)) he hepos
    rw [hnear] at hloop
    refine ⟨((s.clut i).color, i) :: results, ?_, ?_⟩
    · rw [mapNearestLoop, hloop]
      simp only [Option.bind_some, hi] at hrest ⊢
      rw [hrest, Option.map_some]
    · have hforce : ∀ cs, inForce s used before last (reqColor :: cs) =
          inForce s used (before ++ [reqColor]) (some c) cs := by
        intro cs
        rw [inForce, hc]
      rw [List.forall₂_cons, hiff]
      constructor
      · rintro ⟨⟨-, hfirst⟩, hrest⟩ pre reqColor' post heq c' hc' j hj
        cases pre with
        | nil =>
          obtain ⟨rfl, -⟩ := List.cons.inj heq
          rw [List.nil_append, hforce] at hc'
          obtain rfl : c = c' := Option.some.inj hc'
          obtain rfl : i = j := Option.some.inj (hi.symm.trans hj)
          exact hfirst
        | cons r pre =>
          obtain ⟨rfl, htail⟩ := List.cons.inj heq
          rw [List.cons_append, hforce] at hc'
          exact hrest pre reqColor' post htail c' hc' j hj
      · intro hall
        refine ⟨⟨rfl, ?_⟩, ?_⟩
        · exact hall [] reqColor mapColors rfl c (by rw [List.nil_append, hforce]; rfl) i hi
        · intro pre reqColor' post heq c' hc' j hj
          refine hall (reqColor :: pre) reqColor' post (by rw [heq, List.cons_append]) c' ?_ j hj
          rw [List.cons_append, hforce]
          exact hc'

theorem mapsRight_iff (h : ClutLists s free used) (hused : used ≠ []) (mapColors : List UInt32) :
    MapsRight s used mapColors ↔ NearestInForce s used mapColors := by
  obtain ⟨results, hloop, hiff⟩ := @mapNearestLoop_iff s free used h hused [] none
    (fun _ => rfl) 0xffffffff rfl (by decide) mapColors
  rw [NearestInForce, ← hiff]
  constructor
  · rintro ⟨results', hloop', hall⟩
    obtain rfl : results = results' := Option.some.inj (hloop.symm.trans hloop')
    exact hall
  · intro hall
    exact ⟨results, hloop, hall⟩

/-- One colour alone is mapped to a nearest entry. -/
theorem mapsRight_singleton (h : ClutLists s free used) (hused : used ≠ []) (reqColor : UInt32) :
    MapsRight s used [reqColor] := by
  rw [mapsRight_iff h hused]
  intro before c after heq last hlast i hi
  cases before with
  | nil =>
    obtain ⟨rfl, -⟩ := List.cons.inj heq
    rw [List.nil_append, inForce, if_pos (improves_nil hused reqColor)] at hlast
    obtain rfl : reqColor = last := Option.some.inj hlast
    exact isNearest_of_argmin hi
  | cons r before =>
    exact absurd (congrArg List.length heq) (by simp)

/-- An allocation of any entry when no entry is free. -/
theorem uglCommonClutAlloc_full (h : ClutLists s free used) (hused : used ≠ [])
    (hfull : s.firstFreeIndex = -1) {index : Int} (hneg : index < 0) (reqColor : UInt32) :
    ∃ s' r, uglCommonClutAlloc s index reqColor = some (s', r) ∧
      IsNearest s used reqColor r.index ∧ r.actualColor = (s.clut r.index).color := by
  have hdist : ∀ i, s.dist (reqColor ||| 0xff000000) i = s.dist reqColor i := fun i =>
    sqDist_opaque _ _
  rw [uglCommonClutAlloc, if_pos hneg,
    findColor_spec h.used_chain (fun j hj => h.valid_used hj) h.length_used]
  dsimp only
  cases hfind : used.find? fun j => (s.clut j).color = (reqColor ||| 0xff000000) with
  | some i =>
    have hi := List.mem_of_find?_eq_some hfind
    have hcolor : (s.clut i).color = reqColor ||| 0xff000000 := by
      simpa using List.find?_some hfind
    rw [Option.getD_some, if_pos (h.valid_used hi).1]
    refine ⟨_, _, rfl, ⟨hi, ?_⟩, hcolor.symm⟩
    intro j hj
    have hzero : s.dist reqColor i = 0 := by
      rw [← hdist, Clut.dist, hcolor, sqDist]
      ring
    rw [hzero]
    exact s.dist_nonneg reqColor j
  | none =>
    obtain ⟨results, hmap, hall⟩ := mapsRight_singleton h hused (reqColor ||| 0xff000000)
    rw [Option.getD_none, if_neg (by omega), if_neg (not_not_intro hfull), hmap]
    cases hall with
    | cons hright hnil =>
      rename_i r results
      cases hnil
      obtain ⟨hcolor, hmem, hle⟩ := hright
      refine ⟨_, _, rfl, ⟨hmem, ?_⟩, hcolor⟩
      intro j hj
      rw [← hdist, ← hdist]
      exact hle j hj

/-- A call maps each colour to a nearest entry exactly when the colours in force do; and an
allocation of any entry of a full palette gives a nearest one. -/
theorem map_nearest_iff (h : ClutLists s free used) (hused : used ≠ [])
    (mapColors : List UInt32) :
    (MapsRight s used mapColors ↔ NearestInForce s used mapColors) ∧
      (s.firstFreeIndex = -1 → ∀ index < 0, ∀ reqColor,
        ∃ s' r, uglCommonClutAlloc s index reqColor = some (s', r) ∧
          IsNearest s used reqColor r.index ∧ r.actualColor = (s.clut r.index).color) :=
  ⟨mapsRight_iff h hused mapColors, fun hfull _ hneg reqColor =>
    uglCommonClutAlloc_full h hused hfull hneg reqColor⟩

end Calls

/-- A full palette with black and white. -/
def blackWhite : Clut where
  numColors := 2
  firstFreeIndex := -1
  firstUsedIndex := 0
  clut := fun i =>
    if i = 0 then { color := 0xff000000, useCount := 1, nextIndex := 1, prevIndex := -1 }
    else { color := 0xffffffff, useCount := 1, nextIndex := -1, prevIndex := 0 }

theorem blackWhite_lists : ClutLists blackWhite [] [0, 1] where
  free_chain := rfl
  used_chain := ⟨rfl, rfl, rfl⟩
  used_back := ⟨rfl, rfl, trivial⟩
  nodup := by decide
  mem_iff := by
    intro i
    simp [Clut.Valid, blackWhite]
    omega
  used_iff := by
    intro i hi
    simp only [Clut.Valid, blackWhite] at hi
    have hcount : (blackWhite.clut i).useCount = 1 := by
      rw [blackWhite]
      dsimp only
      split_ifs
      · rfl
      · rfl
    simp [hcount]
    omega

/-- A nearly black colour, alone. -/
theorem map_nearest_one :
    (MapsRight blackWhite [0, 1] [0xff000001] ↔
      NearestInForce blackWhite [0, 1] [0xff000001]) ∧
      (blackWhite.firstFreeIndex = -1 → ∀ index < 0, ∀ reqColor,
        ∃ s' r, uglCommonClutAlloc blackWhite index reqColor = some (s', r) ∧
          IsNearest blackWhite [0, 1] reqColor r.index ∧
          r.actualColor = (blackWhite.clut r.index).color) :=
  map_nearest_iff blackWhite_lists (by decide) [0xff000001]

/-- Nearly black and nearly white: the second colour is no nearer to white than the first is
to black, and is mapped to black. -/
theorem map_nearest_stale :
    ClutLists blackWhite [] [0, 1] ∧
      ¬ MapsRight blackWhite [0, 1] [0xff000001, 0xfffffffe] := by
  refine ⟨blackWhite_lists, ?_⟩
  rintro ⟨results, hmap, hall⟩
  have hblack : uglCommonClutMapNearest blackWhite [0xff000001, 0xfffffffe] =
      some [(0xff000000, 0), (0xff000000, 0)] := by decide
  obtain rfl := Option.some.inj (hblack.symm.trans hmap)
  rw [List.forall₂_cons, List.forall₂_cons] at hall
  have hle := hall.2.1.2.2 1 (by decide)
  exact absurd hle (by decide)

end Vmx.Ugl
