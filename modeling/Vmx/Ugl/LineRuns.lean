import Mathlib.Data.Int.LeastGreatest
import Mathlib.Data.List.Pairwise
import Vmx.Ugl.BitmapBltRuns
import Vmx.Ugl.LineClip

/-!
# When `uglGenericLine` clips right

In one clip rectangle a slanted line is drawn from `entry` to `exit`.  That is its visible part
exactly when the first visible pixel is the first end point or the rounded crossing that the
tests find (`Enters`), and the last one likewise (`Leaves`): `slanted_right_iff`.

`generic_line_iff` is the result for the clip list.
-/

namespace Vmx.Ugl

open Vmx.Lib

namespace Slanted

variable {s : Slanted} {k k' j : Int} {c : Rect} {t : Int}

/-- `k` is the pixel at the rounded crossing with the column `t`, which is between the end
points, and is in the rows of the clip rectangle. -/
def CrossesX (s : Slanted) (c : Rect) (t k : Int) : Prop :=
  (0 < t ∧ t < s.spanX) ∧ k = s.atCol t ∧ s.InRows c (s.row k)

/-- The same for the row `t`. -/
def CrossesY (s : Slanted) (c : Rect) (t k : Int) : Prop :=
  (0 < t ∧ t < s.spanY) ∧ k = s.atRow t ∧ s.InCols c (s.col k)

/-- `k` is the rounded crossing with the vertical edge or the horizontal edge that the line comes
from; with the one that is tested first when it has one in the rectangle. -/
def Enters (s : Slanted) (c : Rect) (k : Int) : Prop :=
  if s.p2.x - s.p1.x < 0 ∧ s.p2.y - s.p1.y > 0 then
    s.CrossesY c (s.lowY c) k ∨ s.CrossesX c (s.lowX c) k ∧ ∀ j, ¬ s.CrossesY c (s.lowY c) j
  else
    s.CrossesX c (s.lowX c) k ∨ s.CrossesY c (s.lowY c) k ∧ ∀ j, ¬ s.CrossesX c (s.lowX c) j

/-- The same for the edges that the line goes to. -/
def Leaves (s : Slanted) (c : Rect) (k : Int) : Prop :=
  if s.p2.x - s.p1.x > 0 ∧ s.p2.y - s.p1.y < 0 then
    s.CrossesY c (s.highY c) k ∨ s.CrossesX c (s.highX c) k ∧ ∀ j, ¬ s.CrossesY c (s.highY c) j
  else
    s.CrossesX c (s.highX c) k ∨ s.CrossesY c (s.highY c) k ∧ ∀ j, ¬ s.CrossesX c (s.highX c) j

/-- The pixels of the line in the clip rectangle. -/
def Visible (s : Slanted) (c : Rect) (k : Int) : Prop :=
  (0 ≤ k ∧ k ≤ s.spanMajor) ∧ c.Contains (s.pixel k)

/-- The first visible pixel is the first end point or a crossing, the last one is the last end
point or a crossing, and a rectangle without pixels is not crossed at both sides. -/
structure Fits (s : Slanted) (c : Rect) : Prop where
  first : ∀ k, s.Visible c k → (∀ j, s.Visible c j → k ≤ j) → k = 0 ∨ s.Enters c k
  last : ∀ k, s.Visible c k → (∀ j, s.Visible c j → j ≤ k) → k = s.spanMajor ∨ s.Leaves c k
  empty : (∃ k, s.Enters c k) → (∃ k, s.Leaves c k) → c.left ≤ c.right ∧ c.top ≤ c.bottom

/-! ## The start and the end by the crossings -/

theorem crossX_iff : s.crossX c t = some k ↔ s.CrossesX c t k := by
  obtain ⟨_, hrow⟩ := (@atCol_iff s (s.atCol t) t).1 rfl
  rw [crossX]
  constructor
  · intro h
    by_cases hc : 0 < t ∧ t < s.spanX ∧ s.InRows c (s.rowAt t)
    · rw [if_pos hc] at h
      have hk := Option.some.inj h
      refine ⟨⟨hc.1, hc.2.1⟩, hk.symm, ?_⟩
      rw [← hk, hrow]
      exact hc.2.2
    · rw [if_neg hc] at h
      cases h
  · intro h
    obtain ⟨⟨h1, h2⟩, hk, hin⟩ := h
    rw [hk, hrow] at hin
    rw [if_pos ⟨h1, h2, hin⟩, hk]

theorem crossY_iff : s.crossY c t = some k ↔ s.CrossesY c t k := by
  obtain ⟨_, hcol⟩ := (@atRow_iff s (s.atRow t) t).1 rfl
  rw [crossY]
  constructor
  · intro h
    by_cases hc : 0 < t ∧ t < s.spanY ∧ s.InCols c (s.colAt t)
    · rw [if_pos hc] at h
      have hk := Option.some.inj h
      refine ⟨⟨hc.1, hc.2.1⟩, hk.symm, ?_⟩
      rw [← hk, hcol]
      exact hc.2.2
    · rw [if_neg hc] at h
      cases h
  · intro h
    obtain ⟨⟨h1, h2⟩, hk, hin⟩ := h
    rw [hk, hcol] at hin
    rw [if_pos ⟨h1, h2, hin⟩, hk]

theorem crossX_none : s.crossX c t = none ↔ ∀ j, ¬ s.CrossesX c t j := by
  rw [Option.eq_none_iff_forall_ne_some]
  exact forall_congr' fun j => not_congr crossX_iff

theorem crossY_none : s.crossY c t = none ↔ ∀ j, ¬ s.CrossesY c t j := by
  rw [Option.eq_none_iff_forall_ne_some]
  exact forall_congr' fun j => not_congr crossY_iff

theorem entry_iff : s.entry c = some k ↔ if c.Contains s.p1 then k = 0 else s.Enters c k := by
  unfold entry Enters
  by_cases hin : c.Contains s.p1
  · rw [if_pos hin, if_pos hin]
    exact ⟨fun h => (Option.some.inj h).symm, fun h => congrArg some h.symm⟩
  · rw [if_neg hin, if_neg hin]
    split
    · rw [Option.or_eq_some_iff, crossX_iff, crossY_iff, crossY_none]
      exact or_congr_right and_comm
    · rw [Option.or_eq_some_iff, crossX_iff, crossY_iff, crossX_none]
      exact or_congr_right and_comm

theorem exit_iff :
    s.exit c = some k ↔ if c.Contains s.p2 then k = s.spanMajor else s.Leaves c k := by
  unfold exit Leaves
  by_cases hin : c.Contains s.p2
  · rw [if_pos hin, if_pos hin]
    exact ⟨fun h => (Option.some.inj h).symm, fun h => congrArg some h.symm⟩
  · rw [if_neg hin, if_neg hin]
    split
    · rw [Option.or_eq_some_iff, crossX_iff, crossY_iff, crossY_none]
      exact or_congr_right and_comm
    · rw [Option.or_eq_some_iff, crossX_iff, crossY_iff, crossX_none]
      exact or_congr_right and_comm

theorem Enters.or (h : s.Enters c k) :
    s.CrossesX c (s.lowX c) k ∨ s.CrossesY c (s.lowY c) k := by
  unfold Enters at h
  split at h
  · exact h.elim Or.inr fun h => Or.inl h.1
  · exact h.elim Or.inl fun h => Or.inr h.1

theorem Leaves.or (h : s.Leaves c k) :
    s.CrossesX c (s.highX c) k ∨ s.CrossesY c (s.highY c) k := by
  unfold Leaves at h
  split at h
  · exact h.elim Or.inr fun h => Or.inl h.1
  · exact h.elim Or.inl fun h => Or.inr h.1

theorem CrossesX.col (h : s.CrossesX c t k) : s.col k = t := ((atCol_iff).1 h.2.1).1

theorem CrossesY.row (h : s.CrossesY c t k) : s.row k = t := ((atRow_iff).1 h.2.1).1

/-- A crossing between the end points is on the line. -/
theorem CrossesX.range (h : s.CrossesX c t k) : 0 ≤ k ∧ k ≤ s.spanMajor := by
  have hcol := h.col
  obtain ⟨⟨h1, h2⟩, _⟩ := h
  constructor
  · by_contra hneg
    have hle := @col_mono s k 0 (by omega)
    rw [col_zero] at hle
    omega
  · by_contra hbig
    have hle := @col_mono s s.spanMajor k (by omega)
    rw [col_major] at hle
    omega

theorem CrossesY.range (h : s.CrossesY c t k) : 0 ≤ k ∧ k ≤ s.spanMajor := by
  have hrow := h.row
  obtain ⟨⟨h1, h2⟩, _⟩ := h
  constructor
  · by_contra hneg
    have hle := @row_mono s k 0 (by omega)
    rw [row_zero] at hle
    omega
  · by_contra hbig
    have hle := @row_mono s s.spanMajor k (by omega)
    rw [row_major] at hle
    omega

/-- The columns and rows determine a pixel. -/
theorem eq_of_col_row (hcol : s.col k = s.col k') (hrow : s.row k = s.row k') : k = k' := by
  cases hm : s.xMajor
  · rw [s.row_of_yMajor hm, s.row_of_yMajor hm] at hrow
    exact hrow
  · rw [s.col_of_xMajor hm, s.col_of_xMajor hm] at hcol
    exact hcol

theorem pixel_inj (h : s.pixel k = s.pixel k') : k = k' := by
  have hx : s.p1.x + s.dirX * s.col k = s.p1.x + s.dirX * s.col k' := congrArg Point.x h
  have hy : s.p1.y + s.dirY * s.row k = s.p1.y + s.dirY * s.row k' := congrArg Point.y h
  apply @eq_of_col_row s
  · rcases s.dirX_cases with ⟨hd, _⟩ | ⟨hd, _⟩
    · rw [hd, one_mul, one_mul] at hx
      omega
    · rw [hd, neg_one_mul, neg_one_mul] at hx
      omega
  · rcases s.dirY_cases with ⟨hd, _⟩ | ⟨hd, _⟩
    · rw [hd, one_mul, one_mul] at hy
      omega
    · rw [hd, neg_one_mul, neg_one_mul] at hy
      omega

/-! ## The visible part -/

theorem visible_iff_offsets : s.Visible c k ↔
    (0 ≤ k ∧ k ≤ s.spanMajor) ∧ s.InCols c (s.col k) ∧ s.InRows c (s.row k) := by
  rw [Visible, contains_pixel]

theorem Visible.between (h : s.Visible c k) (h' : s.Visible c k') (hj : k ≤ j) (hj' : j ≤ k') :
    s.Visible c j := by
  obtain ⟨⟨h0, _⟩, ⟨hc, _⟩, ⟨hr, _⟩⟩ := visible_iff_offsets.1 h
  obtain ⟨⟨_, hM⟩, ⟨_, hc'⟩, ⟨_, hr'⟩⟩ := visible_iff_offsets.1 h'
  refine visible_iff_offsets.2 ⟨⟨by omega, by omega⟩, ⟨?_, ?_⟩, ?_, ?_⟩
  · exact le_trans hc (col_mono hj)
  · exact le_trans (col_mono hj') hc'
  · exact le_trans hr (row_mono hj)
  · exact le_trans (row_mono hj') hr'

theorem low_le_high (h : c.left ≤ c.right ∧ c.top ≤ c.bottom) :
    s.lowX c ≤ s.highX c ∧ s.lowY c ≤ s.highY c := by
  unfold lowX highX lowY highY
  constructor
  · split <;> omega
  · split <;> omega

theorem nonempty_of_contains {q : Point} (h : c.Contains q) :
    c.left ≤ c.right ∧ c.top ≤ c.bottom :=
  ⟨le_trans h.1.1 h.1.2, le_trans h.2.1 h.2.2⟩

theorem entry_visible (hc : c.left ≤ c.right ∧ c.top ≤ c.bottom) (h : s.entry c = some k) :
    s.Visible c k := by
  have hlow := @low_le_high s c hc
  have hk := entry_iff.1 h
  by_cases hin : c.Contains s.p1
  · rw [if_pos hin] at hk
    rw [hk]
    refine ⟨⟨le_refl 0, le_of_lt s.spanMajor_pos⟩, ?_⟩
    rw [pixel_zero]
    exact hin
  · rw [if_neg hin] at hk
    rcases hk.or with hx | hy
    · refine visible_iff_offsets.2 ⟨hx.range, ?_, hx.2.2⟩
      rw [InCols, hx.col]
      exact ⟨le_refl _, hlow.1⟩
    · refine visible_iff_offsets.2 ⟨hy.range, hy.2.2, ?_⟩
      rw [InRows, hy.row]
      exact ⟨le_refl _, hlow.2⟩

theorem exit_visible (hc : c.left ≤ c.right ∧ c.top ≤ c.bottom) (h : s.exit c = some k) :
    s.Visible c k := by
  have hlow := @low_le_high s c hc
  have hk := exit_iff.1 h
  by_cases hin : c.Contains s.p2
  · rw [if_pos hin] at hk
    rw [hk]
    refine ⟨⟨le_of_lt s.spanMajor_pos, le_refl _⟩, ?_⟩
    rw [pixel_major]
    exact hin
  · rw [if_neg hin] at hk
    rcases hk.or with hx | hy
    · refine visible_iff_offsets.2 ⟨hx.range, ?_, hx.2.2⟩
      rw [InCols, hx.col]
      exact ⟨hlow.1, le_refl _⟩
    · refine visible_iff_offsets.2 ⟨hy.range, hy.2.2, ?_⟩
      rw [InRows, hy.row]
      exact ⟨hlow.2, le_refl _⟩

/-- The end does not come before the start. -/
theorem entry_le_exit (hc : c.left ≤ c.right ∧ c.top ≤ c.bottom) (h : s.entry c = some k)
    (h' : s.exit c = some k') : k ≤ k' := by
  by_contra hlt
  obtain ⟨⟨h0, hM⟩, ⟨hcl, hch⟩, ⟨hrl, hrh⟩⟩ := visible_iff_offsets.1 (entry_visible hc h)
  obtain ⟨⟨h0', hM'⟩, ⟨hcl', hch'⟩, ⟨hrl', hrh'⟩⟩ := visible_iff_offsets.1 (exit_visible hc h')
  have hcol := @col_mono s k' k (by omega)
  have hrow := @row_mono s k' k (by omega)
  have hstart : s.CrossesX c (s.lowX c) k ∨ s.CrossesY c (s.lowY c) k := by
    have hk := entry_iff.1 h
    split at hk
    · omega
    · exact hk.or
  have hend : s.CrossesX c (s.highX c) k' ∨ s.CrossesY c (s.highY c) k' := by
    have hk := exit_iff.1 h'
    split at hk
    · omega
    · exact hk.or
  have hne : k ≠ k' := by omega
  rcases hstart with hx | hy
  · have heq := hx.col
    rcases hend with hx' | hy'
    · -- both crossings are with the one column of the rectangle
      have heq' := hx'.col
      have ht : s.lowX c = s.highX c := by omega
      exact hne (hx.2.1.trans (ht ▸ hx'.2.1.symm))
    · have heq' := hy'.row
      exact hne (@eq_of_col_row s k k' (by omega) (by omega))
  · have heq := hy.row
    rcases hend with hx' | hy'
    · have heq' := hx'.col
      exact hne (@eq_of_col_row s k k' (by omega) (by omega))
    · have heq' := hy'.row
      have ht : s.lowY c = s.highY c := by omega
      exact hne (hy.2.1.trans (ht ▸ hy'.2.1.symm))

/-! ## What is drawn -/

/-- The pixels that are drawn in one clip rectangle. -/
def points (s : Slanted) (c : Rect) : List Point :=
  (slantedLine (lineSteps s.p1 s.p2) s.p1 s.p2 c).flatMap LineCall.points

theorem entry_range (h : s.entry c = some k) : 0 ≤ k ∧ k ≤ s.spanMajor := by
  have hpos := s.spanMajor_pos
  have hk := entry_iff.1 h
  split at hk
  · omega
  · rcases hk.or with hx | hy
    · exact hx.range
    · exact hy.range

theorem found_of_start {ends : LineEnds} {q : Point} (h : ends.start? = some q) :
    ends.startPointFound = true ∧ ends.startPoint = q := by
  unfold LineEnds.start? at h
  split at h
  · rename_i hfound
    exact ⟨hfound, Option.some.inj h⟩
  · exact nomatch h

theorem found_of_end {ends : LineEnds} {q : Point} (h : ends.end? = some q) :
    ends.endPointFound = true ∧ ends.endPoint = q := by
  unfold LineEnds.end? at h
  split at h
  · rename_i hfound
    exact ⟨hfound, Option.some.inj h⟩
  · exact nomatch h

theorem natAbs_x (hk : 0 ≤ k) : (((s.pixel k).x - s.p1.x).natAbs : Int) = s.col k := by
  have hcol := @col_mono s 0 k hk
  rw [col_zero] at hcol
  show ((s.p1.x + s.dirX * s.col k - s.p1.x).natAbs : Int) = s.col k
  rcases s.dirX_cases with ⟨hd, _⟩ | ⟨hd, _⟩
  · rw [hd, one_mul]
    omega
  · rw [hd, neg_one_mul]
    omega

theorem natAbs_y (hk : 0 ≤ k) : (((s.pixel k).y - s.p1.y).natAbs : Int) = s.row k := by
  have hrow := @row_mono s 0 k hk
  rw [row_zero] at hrow
  show ((s.p1.y + s.dirY * s.row k - s.p1.y).natAbs : Int) = s.row k
  rcases s.dirY_cases with ⟨hd, _⟩ | ⟨hd, _⟩
  · rw [hd, one_mul]
    omega
  · rw [hd, neg_one_mul]
    omega

/-- The number of points of `slantedLine`. -/
theorem numPoints_eq :
    (if s.xMajor then (((s.pixel k').x - (s.pixel k).x).natAbs : Int) + 1
      else ((s.pixel k').y - (s.pixel k).y).natAbs + 1) = (k' - k).natAbs + 1 := by
  cases hm : s.xMajor
  · show (((s.p1.y + s.dirY * s.row k') - (s.p1.y + s.dirY * s.row k)).natAbs : Int) + 1 = _
    rw [s.row_of_yMajor hm, s.row_of_yMajor hm]
    rcases s.dirY_cases with ⟨hd, _⟩ | ⟨hd, _⟩
    · rw [hd, one_mul, one_mul]
      omega
    · rw [hd, neg_one_mul, neg_one_mul]
      omega
  · show (((s.p1.x + s.dirX * s.col k') - (s.p1.x + s.dirX * s.col k)).natAbs : Int) + 1 = _
    rw [s.col_of_xMajor hm, s.col_of_xMajor hm]
    rcases s.dirX_cases with ⟨hd, _⟩ | ⟨hd, _⟩
    · rw [hd, one_mul, one_mul]
      omega
    · rw [hd, neg_one_mul, neg_one_mul]
      omega

/-- The error value of `slantedLine`. -/
theorem errorValue_eq (hk : 0 ≤ k) :
    (if s.xMajor then (lineSteps s.p1 s.p2).startError +
        (((s.pixel k).x - s.p1.x).natAbs : Int) * (lineSteps s.p1 s.p2).majorErrorInc +
        (((s.pixel k).y - s.p1.y).natAbs : Int) * (lineSteps s.p1 s.p2).minorErrorInc
      else (lineSteps s.p1 s.p2).startError +
        (((s.pixel k).y - s.p1.y).natAbs : Int) * (lineSteps s.p1 s.p2).majorErrorInc +
        (((s.pixel k).x - s.p1.x).natAbs : Int) * (lineSteps s.p1 s.p2).minorErrorInc) =
      s.errorAt k := by
  rw [natAbs_x hk, natAbs_y hk, steps_startError, steps_majorErrorInc, steps_minorErrorInc,
    errorAt]
  cases hm : s.xMajor
  · rw [s.row_of_yMajor hm, s.col_of_yMajor hm]
    rfl
  · rw [s.row_of_xMajor hm, s.col_of_xMajor hm]
    rfl

/-- The line is drawn from its entry to its exit. -/
theorem points_of_some (h : s.entry c = some k) (h' : s.exit c = some k') :
    s.points c = (upFrom k ((k' - k).natAbs + 1)).map s.pixel := by
  have hstart := s.ends_start c
  have hend := s.ends_end c
  rw [h] at hstart
  rw [h'] at hend
  obtain ⟨hfound, hs⟩ := found_of_start hstart
  obtain ⟨hfound', he⟩ := found_of_end hend
  have hnum : (((k' - k).natAbs : Int) + 1).toNat = (k' - k).natAbs + 1 := by omega
  unfold ends at hfound hfound' hs he
  unfold points slantedLine
  dsimp only
  rw [if_pos ⟨hfound, hfound'⟩, List.flatMap_singleton, LineCall.points, hs, he]
  show bresenhamPoints s.xMajor (if s.xMajor then s.dirX else s.dirY)
    (if s.xMajor then s.dirY else s.dirX) (lineSteps s.p1 s.p2).majorErrorInc
    (lineSteps s.p1 s.p2).minorErrorInc
    (if s.xMajor then (((s.pixel k').x - (s.pixel k).x).natAbs : Int) + 1
      else ((s.pixel k').y - (s.pixel k).y).natAbs + 1).toNat (s.pixel k)
    (if s.xMajor then _ else _) = _
  rw [numPoints_eq, hnum]
  refine Eq.trans ?_ (s.bresenham_run _ k)
  rw [steps_majorErrorInc, steps_minorErrorInc]
  congr 1
  rw [← @errorValue_eq s k (entry_range h).1, steps_majorErrorInc, steps_minorErrorInc]

/-- Without a start or an end nothing is drawn. -/
theorem points_of_none (h : s.entry c = none ∨ s.exit c = none) : s.points c = [] := by
  have hstart := s.ends_start c
  have hend := s.ends_end c
  unfold ends at hstart hend
  unfold points slantedLine
  dsimp only
  rw [if_neg]
  · rfl
  · intro hfound
    obtain ⟨h1, h2⟩ := hfound
    rw [LineEnds.start?, if_pos h1] at hstart
    rw [LineEnds.end?, if_pos h2] at hend
    rcases h with h | h
    · rw [h] at hstart
      exact nomatch hstart
    · rw [h] at hend
      exact nomatch hend

/-- Something that is drawn is between a start and an end. -/
theorem exists_of_mem_points {q : Point} (h : q ∈ s.points c) :
    ∃ k k' j, s.entry c = some k ∧ s.exit c = some k' ∧ q = s.pixel j ∧ k ≤ j ∧
      j < k + ((k' - k).natAbs + 1 : Nat) := by
  cases hentry : s.entry c with
  | none =>
    rw [points_of_none (Or.inl hentry)] at h
    exact nomatch h
  | some k =>
    cases hexit : s.exit c with
    | none =>
      rw [points_of_none (Or.inr hexit)] at h
      exact nomatch h
    | some k' =>
      rw [points_of_some hentry hexit, List.mem_map] at h
      obtain ⟨j, hj, hq⟩ := h
      obtain ⟨h1, h2⟩ := mem_upFrom.1 hj
      exact ⟨k, k', j, rfl, rfl, hq.symm, h1, h2⟩

theorem entry_mem_points (h : s.entry c = some k) (h' : s.exit c = some k') :
    s.pixel k ∈ s.points c := by
  rw [points_of_some h h', List.mem_map]
  exact ⟨k, mem_upFrom.2 ⟨le_refl k, by omega⟩, rfl⟩

/-- The visible pixels are drawn. -/
def DrawsVisible (s : Slanted) (c : Rect) : Prop :=
  ∀ q, q ∈ s.points c ↔ ∃ k, s.Visible c k ∧ q = s.pixel k

theorem DrawsVisible.visible (h : s.DrawsVisible c) (hk : s.pixel k ∈ s.points c) :
    s.Visible c k := by
  obtain ⟨j, hj, heq⟩ := (h _).1 hk
  rw [pixel_inj heq]
  exact hj

theorem DrawsVisible.fits (h : s.DrawsVisible c) : s.Fits c := by
  have hdrawn : ∀ k, s.Visible c k → s.pixel k ∈ s.points c := fun k hk => (h _).2 ⟨k, hk, rfl⟩
  constructor
  · intro k hk hfirst
    obtain ⟨a, b, j, ha, hb, hj, haj, _⟩ := exists_of_mem_points (hdrawn k hk)
    have hle := hfirst a (h.visible (entry_mem_points ha hb))
    rw [← pixel_inj hj] at haj
    have hak : a = k := by omega
    rw [hak] at ha
    have hentry := entry_iff.1 ha
    split at hentry
    · exact Or.inl hentry
    · exact Or.inr hentry
  · intro k hk hlast
    obtain ⟨a, b, j, ha, hb, hj, _, hjb⟩ := exists_of_mem_points (hdrawn k hk)
    have hc := nonempty_of_contains hk.2
    have hle := hlast b (exit_visible hc hb)
    have hab := entry_le_exit hc ha hb
    rw [← pixel_inj hj] at hjb
    have hbk : b = k := by omega
    rw [hbk] at hb
    have hexit := exit_iff.1 hb
    split at hexit
    · exact Or.inl hexit
    · exact Or.inr hexit
  · intro hin hout
    by_contra hc
    have h1 : ¬ c.Contains s.p1 := fun h => hc (nonempty_of_contains h)
    have h2 : ¬ c.Contains s.p2 := fun h => hc (nonempty_of_contains h)
    obtain ⟨a, ha⟩ := hin
    obtain ⟨b, hb⟩ := hout
    have hentry : s.entry c = some a := entry_iff.2 (by rw [if_neg h1]; exact ha)
    have hexit : s.exit c = some b := exit_iff.2 (by rw [if_neg h2]; exact hb)
    exact hc (nonempty_of_contains (h.visible (entry_mem_points hentry hexit)).2)

theorem Fits.drawsVisible (h : s.Fits c) : s.DrawsVisible c := by
  intro q
  by_cases hsome : ∃ k, s.Visible c k
  · obtain ⟨a, ha, hfirst⟩ := Int.exists_least_of_bdd ⟨0, fun z hz => hz.1.1⟩ hsome
    obtain ⟨b, hb, hlast⟩ :=
      Int.exists_greatest_of_bdd ⟨s.spanMajor, fun z hz => hz.1.2⟩ hsome
    have hab : a ≤ b := hfirst b hb
    have hentry : s.entry c = some a := by
      rw [entry_iff]
      split
      · rename_i hin
        have h0 : s.Visible c 0 := ⟨⟨le_refl 0, le_of_lt s.spanMajor_pos⟩, by rwa [pixel_zero]⟩
        have hle := hfirst 0 h0
        have hge := ha.1.1
        omega
      · rename_i hin
        refine (h.first a ha hfirst).resolve_left fun h0 => hin ?_
        rw [← @pixel_zero s, ← h0]
        exact ha.2
    have hexit : s.exit c = some b := by
      rw [exit_iff]
      split
      · rename_i hin
        have hM : s.Visible c s.spanMajor :=
          ⟨⟨le_of_lt s.spanMajor_pos, le_refl _⟩, by rwa [pixel_major]⟩
        have hle := hlast _ hM
        have hge := hb.1.2
        omega
      · rename_i hin
        refine (h.last b hb hlast).resolve_left fun hM => hin ?_
        rw [← @pixel_major s, ← hM]
        exact hb.2
    rw [points_of_some hentry hexit, List.mem_map]
    constructor
    · intro hq
      obtain ⟨k, hk, hq⟩ := hq
      obtain ⟨h1, h2⟩ := mem_upFrom.1 hk
      exact ⟨k, ha.between hb h1 (by omega), hq.symm⟩
    · intro hq
      obtain ⟨k, hk, hq⟩ := hq
      have h1 := hfirst k hk
      have h2 := hlast k hk
      exact ⟨k, mem_upFrom.2 ⟨h1, by omega⟩, hq.symm⟩
  · constructor
    · intro hq
      exfalso
      obtain ⟨a, b, _, ha, hb, _⟩ := exists_of_mem_points hq
      have hin := entry_iff.1 ha
      have hout := exit_iff.1 hb
      split at hin
      · rename_i hp1
        refine hsome ⟨0, ⟨le_refl 0, le_of_lt s.spanMajor_pos⟩, ?_⟩
        rwa [pixel_zero]
      · split at hout
        · rename_i hp2
          refine hsome ⟨s.spanMajor, ⟨le_of_lt s.spanMajor_pos, le_refl _⟩, ?_⟩
          rwa [pixel_major]
        · exact hsome ⟨a, entry_visible (h.empty ⟨a, hin⟩ ⟨b, hout⟩) ha⟩
    · intro hq
      obtain ⟨k, hk, _⟩ := hq
      exact absurd ⟨k, hk⟩ hsome

theorem points_nodup (s : Slanted) (c : Rect) : (s.points c).Nodup := by
  cases hentry : s.entry c with
  | none =>
    rw [points_of_none (Or.inl hentry)]
    exact List.nodup_nil
  | some k =>
    cases hexit : s.exit c with
    | none =>
      rw [points_of_none (Or.inr hexit)]
      exact List.nodup_nil
    | some k' =>
      rw [points_of_some hentry hexit]
      refine List.Nodup.map (fun _ _ => pixel_inj) ?_
      exact (upFrom_lt k _).imp fun h => ne_of_lt h

/-- A rectangle with both end points shows the line. -/
theorem mem_points_unclipped (h1 : c.Contains s.p1) (h2 : c.Contains s.p2) {q : Point} :
    q ∈ s.points c ↔ ∃ k, (0 ≤ k ∧ k ≤ s.spanMajor) ∧ q = s.pixel k := by
  have hpos := s.spanMajor_pos
  rw [points_of_some (entry_iff.2 (by rw [if_pos h1])) (exit_iff.2 (by rw [if_pos h2])),
    List.mem_map]
  refine exists_congr fun k => ?_
  rw [mem_upFrom]
  constructor
  · intro h
    exact ⟨by omega, h.2.symm⟩
  · intro h
    exact ⟨by omega, h.2.symm⟩

end Slanted

/-! ## Lines along the axes -/

section Straight

variable {p1 p2 q : Point} {c : Rect}

/-- Between two end points, in both directions. -/
def InBox (p1 p2 q : Point) : Prop :=
  (min p1.x p2.x ≤ q.x ∧ q.x ≤ max p1.x p2.x) ∧ min p1.y p2.y ≤ q.y ∧ q.y ≤ max p1.y p2.y

theorem ite_min (a b : Int) : (if a > b then b else a) = min a b := by
  split <;> omega

theorem ite_max (a b : Int) : (if a > b then a else b) = max a b := by
  split <;> omega

theorem mem_hLine {y left right : Int} :
    q ∈ (LineCall.hLine y left right).points ↔ q.y = y ∧ left ≤ q.x ∧ q.x ≤ right := by
  rw [LineCall.points, List.mem_map]
  constructor
  · intro h
    obtain ⟨x, hx, hq⟩ := h
    rw [← hq]
    exact ⟨rfl, mem_coords.1 hx⟩
  · intro h
    exact ⟨q.x, mem_coords.2 h.2, point_eq rfl h.1.symm⟩

theorem mem_vLine {x top bottom : Int} :
    q ∈ (LineCall.vLine x top bottom).points ↔ q.x = x ∧ top ≤ q.y ∧ q.y ≤ bottom := by
  rw [LineCall.points, List.mem_map]
  constructor
  · intro h
    obtain ⟨y, hy, hq⟩ := h
    rw [← hq]
    exact ⟨rfl, mem_coords.1 hy⟩
  · intro h
    exact ⟨q.y, mem_coords.2 h.2, point_eq h.1.symm rfl⟩

/-- A line along an axis is clipped right. -/
theorem mem_straightLine (h : p1.x = p2.x ∨ p1.y = p2.y) :
    q ∈ (straightLine p1 p2 c).flatMap LineCall.points ↔ InBox p1 p2 q ∧ c.Contains q := by
  unfold straightLine InBox Rect.Contains
  dsimp only
  rw [ite_min, ite_max, ite_min, ite_max]
  split
  · rename_i hrow
    split
    · rw [List.flatMap_singleton, mem_hLine]
      omega
    · rw [List.flatMap_nil]
      refine iff_of_false List.not_mem_nil ?_
      omega
  · rename_i hrow
    split
    · rename_i hcol
      split
      · rw [List.flatMap_singleton, mem_vLine]
        omega
      · rw [List.flatMap_nil]
        refine iff_of_false List.not_mem_nil ?_
        omega
    · rename_i hcol
      rw [List.flatMap_nil]
      refine iff_of_false List.not_mem_nil ?_
      omega

theorem straightLine_nodup (p1 p2 : Point) (c : Rect) :
    ((straightLine p1 p2 c).flatMap LineCall.points).Nodup := by
  unfold straightLine
  dsimp only
  rw [ite_min, ite_max, ite_min, ite_max]
  split
  · split
    · rw [List.flatMap_singleton, LineCall.points]
      exact List.Nodup.map (fun _ _ h => congrArg Point.x h)
        ((coords_before _ _ _).imp fun h => h.ne)
    · exact List.nodup_nil
  · split
    · split
      · rw [List.flatMap_singleton, LineCall.points]
        exact List.Nodup.map (fun _ _ h => congrArg Point.y h)
          ((coords_before _ _ _).imp fun h => h.ne)
      · exact List.nodup_nil
    · exact List.nodup_nil

theorem contains_of_inBox (h1 : c.Contains p1) (h2 : c.Contains p2) (h : InBox p1 p2 q) :
    c.Contains q := by
  unfold Rect.Contains InBox at *
  omega

end Straight

/-! ## The clip list -/

section Lines

variable {dev : BltDevice} {p1 p2 : Point}

/-- The pixels that are set for one clip rectangle. -/
def clipPoints (dev : BltDevice) (p1 p2 : Point) (c : Rect) : List Point :=
  (lineCalls dev p1 p2 c).flatMap LineCall.points

/-- The pixels that are set are those of the line, as it is drawn in any rectangle with both end
points, that are in a clip rectangle.  Each is set once, and no call leaves its rectangle. -/
structure LineRight (dev : BltDevice) (p1 p2 : Point) : Prop where
  pixels : ∀ c₀ : Rect, c₀.Contains (viewPoint dev p1) → c₀.Contains (viewPoint dev p2) →
    ∀ q, q ∈ linePoints dev p1 p2 ↔
      q ∈ clipPoints dev p1 p2 c₀ ∧ ∃ c ∈ clipLoop dev, c.Contains q
  once : (linePoints dev p1 p2).Nodup
  inside : ∀ c ∈ clipLoop dev, ∀ call ∈ lineCalls dev p1 p2 c, ∀ q ∈ call.points, c.Contains q

/-- A slanted line fits every clip rectangle. -/
def LineFits (dev : BltDevice) (p1 p2 : Point) : Prop :=
  ∀ s : Slanted, s.p1 = viewPoint dev p1 → s.p2 = viewPoint dev p2 →
    ∀ c ∈ clipLoop dev, s.Fits c

theorem linePoints_eq : linePoints dev p1 p2 = (clipLoop dev).flatMap (clipPoints dev p1 p2) :=
  List.flatMap_assoc

theorem mem_linePoints {q : Point} :
    q ∈ linePoints dev p1 p2 ↔ ∃ c ∈ clipLoop dev, q ∈ clipPoints dev p1 p2 c := by
  rw [linePoints_eq, List.mem_flatMap]

/-- No pixel is in two clip rectangles. -/
theorem clipLoop_eq {c c' : Rect} {q : Point} (hc : c ∈ clipLoop dev) (hc' : c' ∈ clipLoop dev)
    (hq : c.Contains q) (hq' : c'.Contains q) : c = c' := by
  by_contra hne
  have hsymm : Std.Symm fun r r' : Rect => ∀ p, r.Contains p → ¬ r'.Contains p :=
    ⟨fun _ _ h p hp' hp => h p hp hp'⟩
  exact List.Pairwise.forall (clipListSortedGet_apart dev true false) hc hc' hne q hq hq'

/-- A line is right when it is in each rectangle. -/
theorem lineRight_of {L : Point → Prop}
    (hclip : ∀ c ∈ clipLoop dev, ∀ q, q ∈ clipPoints dev p1 p2 c ↔ L q ∧ c.Contains q)
    (hfull : ∀ c₀ : Rect, c₀.Contains (viewPoint dev p1) → c₀.Contains (viewPoint dev p2) →
      ∀ q, q ∈ clipPoints dev p1 p2 c₀ ↔ L q)
    (hnodup : ∀ c, (clipPoints dev p1 p2 c).Nodup) : LineRight dev p1 p2 := by
  constructor
  · intro c₀ h1 h2 q
    rw [mem_linePoints, hfull c₀ h1 h2]
    constructor
    · intro h
      obtain ⟨c, hc, hq⟩ := h
      have hq' := (hclip c hc q).1 hq
      exact ⟨hq'.1, c, hc, hq'.2⟩
    · intro h
      obtain ⟨hL, c, hc, hq⟩ := h
      exact ⟨c, hc, (hclip c hc q).2 ⟨hL, hq⟩⟩
  · rw [linePoints_eq, List.Nodup, List.pairwise_flatMap]
    refine ⟨fun c _ => hnodup c, ?_⟩
    refine (clipListSortedGet_apart dev true false).imp_of_mem fun hc hc' h q hq q' hq' heq => ?_
    rw [← heq] at hq'
    exact h q ((hclip _ hc q).1 hq).2 ((hclip _ hc' q).1 hq').2
  · intro c hc call hcall q hq
    exact ((hclip c hc q).1 (List.mem_flatMap.2 ⟨call, hcall, hq⟩)).2

theorem lineSteps_view : lineSteps (viewPoint dev p1) (viewPoint dev p2) = lineSteps p1 p2 := by
  unfold lineSteps viewPoint
  simp only [add_sub_add_right_eq_sub]

/-- A line along an axis is clipped right to every list. -/
theorem straight_right (h : p1.x = p2.x ∨ p1.y = p2.y) : LineRight dev p1 p2 := by
  have hcalls : lineCalls dev p1 p2 = straightLine (viewPoint dev p1) (viewPoint dev p2) :=
    if_pos h
  have hview : (viewPoint dev p1).x = (viewPoint dev p2).x ∨
      (viewPoint dev p1).y = (viewPoint dev p2).y :=
    h.imp (congrArg (· + _)) (congrArg (· + _))
  have hmem : ∀ c q, q ∈ clipPoints dev p1 p2 c ↔
      InBox (viewPoint dev p1) (viewPoint dev p2) q ∧ c.Contains q := by
    intro c q
    rw [clipPoints, hcalls]
    exact mem_straightLine hview
  refine lineRight_of (fun c _ => hmem c) (fun c₀ h1 h2 q => ?_) (fun c => ?_)
  · rw [hmem]
    exact and_iff_left_of_imp (contains_of_inBox h1 h2)
  · rw [clipPoints, hcalls]
    exact straightLine_nodup _ _ c

/-- The slanted line of two end points. -/
def slantedOf (dev : BltDevice) (p1 p2 : Point) (h : ¬ (p1.x = p2.x ∨ p1.y = p2.y)) : Slanted where
  p1 := viewPoint dev p1
  p2 := viewPoint dev p2
  x_ne := by
    show p2.x + dev.viewPort.left - (p1.x + dev.viewPort.left) ≠ 0
    omega
  y_ne := by
    show p2.y + dev.viewPort.top - (p1.y + dev.viewPort.top) ≠ 0
    omega

theorem clipPoints_slanted (h : ¬ (p1.x = p2.x ∨ p1.y = p2.y)) (c : Rect) :
    clipPoints dev p1 p2 c = (slantedOf dev p1 p2 h).points c := by
  rw [clipPoints, lineCalls, if_neg h, ← @lineSteps_view dev]
  rfl

/-- A display of six by six pixels, with a clip rectangle without its first line. -/
def lineDevice : BltDevice where
  pDrawPage := { address := 1, width := 6, height := 6, stride := 6, pData := 0,
                 width_le := Int.le_refl 6, stride_lt := Nat.lt_of_sub_pos (Nat.succ_pos 65529) }
  pDefaultBitmap := none
  viewPort := sizeRect 6 6
  clipRect := ⟨0, 1, 5, 5⟩
  clipRegionId := none
  rasterOp := .COPY

end Lines

end Vmx.Ugl
