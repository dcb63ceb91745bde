import Vmx.Lib.DigitalLine
import Vmx.Ugl.GenLine

/-!
# A slanted line in one clip rectangle

The pixels of a slanted line are known by how far they are along the major axis: `Slanted.pixel`.
`bresenham_run` says that `bresenhamLine` follows them from any pixel on, and `crossing_eq` that
the crossings of the clip loop are among them.

`slantedLine_points` is the result: what is drawn in a rectangle goes from the pixel that
`StartsAt` to the one that `EndsAt`.
-/

namespace Vmx.Ugl

open Vmx.Lib

/-- A line with end points in different columns and rows. -/
structure Slanted where
  p1 : Point
  p2 : Point
  x_ne : p2.x - p1.x ≠ 0
  y_ne : p2.y - p1.y ≠ 0

namespace Slanted

variable (s : Slanted)

def dirX : Int := if s.p2.x - s.p1.x > 0 then 1 else -1

def dirY : Int := if s.p2.y - s.p1.y > 0 then 1 else -1

def spanX : Int := (s.p2.x - s.p1.x).natAbs

def spanY : Int := (s.p2.y - s.p1.y).natAbs

/-- The columns are at least as many as the rows. -/
def xMajor : Bool := (s.p2.x - s.p1.x).natAbs ≥ (s.p2.y - s.p1.y).natAbs

def spanMajor : Int := if s.xMajor then s.spanX else s.spanY

def spanMinor : Int := if s.xMajor then s.spanY else s.spanX

/-- How far a pixel is along the minor axis. -/
def minor (k : Int) : Int := roundMul s.spanMajor s.spanMinor k

/-- How many columns a pixel is away from the first end point. -/
def col (k : Int) : Int := if s.xMajor then k else s.minor k

/-- How many rows a pixel is away from the first end point. -/
def row (k : Int) : Int := if s.xMajor then s.minor k else k

/-- The pixels of the line. -/
def pixel (k : Int) : Point where
  x := s.p1.x + s.dirX * s.col k
  y := s.p1.y + s.dirY * s.row k

/-- The row where the line crosses a column, rounded. -/
def rowAt (t : Int) : Int := roundMul s.spanX s.spanY t

/-- The column where the line crosses a row, rounded. -/
def colAt (t : Int) : Int := roundMul s.spanY s.spanX t

/-- The pixel at the rounded crossing with a column. -/
def atCol (t : Int) : Int := if s.xMajor then t else s.rowAt t

/-- The pixel at the rounded crossing with a row. -/
def atRow (t : Int) : Int := if s.xMajor then s.colAt t else t

theorem dirX_cases : s.dirX = 1 ∧ 0 < s.p2.x - s.p1.x ∧ s.spanX = s.p2.x - s.p1.x ∨
    s.dirX = -1 ∧ s.p2.x - s.p1.x < 0 ∧ s.spanX = s.p1.x - s.p2.x := by
  have h := s.x_ne
  unfold dirX spanX
  split <;> omega

theorem dirY_cases : s.dirY = 1 ∧ 0 < s.p2.y - s.p1.y ∧ s.spanY = s.p2.y - s.p1.y ∨
    s.dirY = -1 ∧ s.p2.y - s.p1.y < 0 ∧ s.spanY = s.p1.y - s.p2.y := by
  have h := s.y_ne
  unfold dirY spanY
  split <;> omega

theorem spanX_pos : 0 < s.spanX := by
  have h := s.dirX_cases
  omega

theorem spanY_pos : 0 < s.spanY := by
  have h := s.dirY_cases
  omega

/-- The two cases of the major axis. -/
theorem major_cases :
    s.xMajor = true ∧ s.spanMajor = s.spanX ∧ s.spanMinor = s.spanY ∧ s.spanY ≤ s.spanX ∨
    s.xMajor = false ∧ s.spanMajor = s.spanY ∧ s.spanMinor = s.spanX ∧ s.spanX < s.spanY := by
  unfold spanMajor spanMinor
  cases h : s.xMajor with
  | true =>
    rw [xMajor, decide_eq_true_eq] at h
    refine Or.inl ⟨rfl, if_pos rfl, if_pos rfl, ?_⟩
    unfold spanX spanY
    omega
  | false =>
    rw [xMajor, decide_eq_false_iff_not] at h
    refine Or.inr ⟨rfl, if_neg Bool.false_ne_true, if_neg Bool.false_ne_true, ?_⟩
    unfold spanX spanY
    omega

theorem spanMinor_pos : 0 < s.spanMinor := by
  have hx := s.spanX_pos
  have hy := s.spanY_pos
  rcases s.major_cases with h | h <;> omega

theorem minor_le_major : s.spanMinor ≤ s.spanMajor := by
  rcases s.major_cases with h | h <;> omega

theorem spanMajor_pos : 0 < s.spanMajor := by
  have h1 := s.spanMinor_pos
  have h2 := s.minor_le_major
  omega

theorem col_of_xMajor (h : s.xMajor = true) (k : Int) : s.col k = k := if_pos h

theorem row_of_xMajor (h : s.xMajor = true) (k : Int) : s.row k = s.minor k := if_pos h

theorem col_of_yMajor (h : s.xMajor = false) (k : Int) : s.col k = s.minor k :=
  if_neg (Bool.eq_false_iff.1 h)

theorem row_of_yMajor (h : s.xMajor = false) (k : Int) : s.row k = k :=
  if_neg (Bool.eq_false_iff.1 h)

variable {s} {k k' : Int}

theorem minor_mono (h : k ≤ k') : s.minor k ≤ s.minor k' :=
  roundMul_mono s.spanMajor_pos (le_of_lt s.spanMinor_pos) h

theorem col_mono (h : k ≤ k') : s.col k ≤ s.col k' := by
  cases hm : s.xMajor
  · rw [s.col_of_yMajor hm, s.col_of_yMajor hm]
    exact minor_mono h
  · rw [s.col_of_xMajor hm, s.col_of_xMajor hm]
    exact h

theorem row_mono (h : k ≤ k') : s.row k ≤ s.row k' := by
  cases hm : s.xMajor
  · rw [s.row_of_yMajor hm, s.row_of_yMajor hm]
    exact h
  · rw [s.row_of_xMajor hm, s.row_of_xMajor hm]
    exact minor_mono h

theorem minor_zero : s.minor 0 = 0 := roundMul_zero s.spanMajor_pos

theorem col_zero : s.col 0 = 0 := by
  cases hm : s.xMajor
  · rw [s.col_of_yMajor hm, minor_zero]
  · rw [s.col_of_xMajor hm]

theorem row_zero : s.row 0 = 0 := by
  cases hm : s.xMajor
  · rw [s.row_of_yMajor hm]
  · rw [s.row_of_xMajor hm, minor_zero]

theorem minor_major : s.minor s.spanMajor = s.spanMinor := roundMul_self s.spanMajor_pos

theorem col_major : s.col s.spanMajor = s.spanX := by
  rcases s.major_cases with ⟨hm, h1, h2, _⟩ | ⟨hm, h1, h2, _⟩
  · rw [s.col_of_xMajor hm, h1]
  · rw [s.col_of_yMajor hm, minor_major, h2]

theorem row_major : s.row s.spanMajor = s.spanY := by
  rcases s.major_cases with ⟨hm, h1, h2, _⟩ | ⟨hm, h1, h2, _⟩
  · rw [s.row_of_xMajor hm, minor_major, h2]
  · rw [s.row_of_yMajor hm, h1]

theorem pixel_zero : s.pixel 0 = s.p1 := by
  rw [pixel, col_zero, row_zero, mul_zero, mul_zero, add_zero, add_zero]

theorem pixel_major : s.pixel s.spanMajor = s.p2 := by
  have hx := s.dirX_cases
  have hy := s.dirY_cases
  apply point_eq
  · show s.p1.x + s.dirX * s.col s.spanMajor = s.p2.x
    rw [col_major]
    rcases hx with ⟨h, _⟩ | ⟨h, _⟩
    · rw [h, one_mul]
      omega
    · rw [h, neg_one_mul]
      omega
  · show s.p1.y + s.dirY * s.row s.spanMajor = s.p2.y
    rw [row_major]
    rcases hy with ⟨h, _⟩ | ⟨h, _⟩
    · rw [h, one_mul]
      omega
    · rw [h, neg_one_mul]
      omega

/-! ## The crossings -/

theorem atCol_iff {t : Int} : k = s.atCol t ↔ s.col k = t ∧ s.row k = s.rowAt t := by
  unfold atCol rowAt
  rcases s.major_cases with ⟨hm, h1, h2, _⟩ | ⟨hm, h1, h2, hlt⟩
  · rw [if_pos hm, s.col_of_xMajor hm, s.row_of_xMajor hm, minor, h1, h2]
    constructor
    · rintro rfl
      exact ⟨rfl, rfl⟩
    · exact And.left
  · rw [if_neg (Bool.eq_false_iff.1 hm), s.col_of_yMajor hm, s.row_of_yMajor hm, minor, h1, h2]
    constructor
    · rintro rfl
      exact ⟨roundMul_inverse s.spanX_pos (le_of_lt hlt), rfl⟩
    · exact And.right

theorem atRow_iff {t : Int} : k = s.atRow t ↔ s.row k = t ∧ s.col k = s.colAt t := by
  unfold atRow colAt
  rcases s.major_cases with ⟨hm, h1, h2, hle⟩ | ⟨hm, h1, h2, _⟩
  · rw [if_pos hm, s.col_of_xMajor hm, s.row_of_xMajor hm, minor, h1, h2]
    constructor
    · rintro rfl
      exact ⟨roundMul_inverse s.spanY_pos hle, rfl⟩
    · exact And.right
  · rw [if_neg (Bool.eq_false_iff.1 hm), s.col_of_yMajor hm, s.row_of_yMajor hm, minor, h1, h2]
    constructor
    · rintro rfl
      exact ⟨rfl, rfl⟩
    · exact And.left

end Slanted

/-- The rounded crossing of the clip loop. -/
theorem crossing_eq {u1 v1 du dv edge t : Int} (hu : du ≠ 0) (hv : dv ≠ 0) (ht : 0 ≤ t)
    (hedge : edge = u1 + (if du > 0 then 1 else -1) * t) :
    crossing u1 v1 du (2 * du) (2 * dv) edge =
      v1 + (if dv > 0 then 1 else -1) * roundMul du.natAbs dv.natAbs t := by
  have hnum : (0 : Int) ≤ 2 * dv.natAbs * t + du.natAbs :=
    add_nonneg (mul_nonneg (by omega) ht) (by omega)
  have hdiv : (2 * dv.natAbs * t + du.natAbs : Int).tdiv (2 * du.natAbs) =
      roundMul du.natAbs dv.natAbs t := Int.tdiv_eq_ediv_of_nonneg hnum
  unfold crossing
  dsimp only
  have hback : (-(2 * dv.natAbs * t + du.natAbs) : Int).tdiv (2 * du.natAbs) =
      -roundMul du.natAbs dv.natAbs t := by rw [Int.neg_tdiv, hdiv]
  obtain ⟨n, hn⟩ : ∃ n : Int, n = 2 * dv.natAbs * t + du.natAbs := ⟨_, rfl⟩
  rw [← hn] at hdiv hback
  rcases lt_or_gt_of_ne hu with hneg | hpos
  · have hu' : edge - u1 = -t := by
      rw [if_neg (by omega)] at hedge
      omega
    have hden : 2 * du = -(2 * du.natAbs : Int) := by omega
    rcases lt_or_gt_of_ne hv with hneg' | hpos'
    · have hnum' : 2 * dv * (edge - u1) - du = n := by
        have hmul : 2 * dv * -t = 2 * -dv * t := by rw [mul_neg, mul_neg, neg_mul]
        rw [hn, hu', hmul, show -dv = (dv.natAbs : Int) by omega]
        omega
      rw [if_neg (by omega), if_neg (by omega), hnum', hden, Int.tdiv_neg, hdiv, neg_one_mul]
    · have hnum' : 2 * dv * (edge - u1) + du = -n := by
        rw [hn, hu', mul_neg, show (dv.natAbs : Int) = dv by omega]
        omega
      rw [if_pos (by omega), if_pos (by omega), hnum', hden, Int.tdiv_neg, hback, neg_neg,
        one_mul]
  · have hu' : edge - u1 = t := by
      rw [if_pos hpos, one_mul] at hedge
      omega
    have hden : 2 * du = (2 * du.natAbs : Int) := by omega
    rcases lt_or_gt_of_ne hv with hneg' | hpos'
    · have hnum' : 2 * dv * (edge - u1) - du = -n := by
        have hmul : 2 * dv * t = -(2 * -dv * t) := by rw [mul_neg, neg_mul, neg_neg]
        rw [hn, hu', hmul, show -dv = (dv.natAbs : Int) by omega]
        omega
      rw [if_neg (by omega), if_neg (by omega), hnum', hden, hback, neg_one_mul]
    · have hnum' : 2 * dv * (edge - u1) + du = n := by
        rw [hn, hu', show (dv.natAbs : Int) = dv by omega]
        omega
      rw [if_pos (by omega), if_pos (by omega), hnum', hden, hdiv, one_mul]

namespace Slanted

variable {s : Slanted} {k k' : Int} {c : Rect}

/-! ## `bresenhamLine` -/

/-- The error term at a pixel. -/
def errorAt (s : Slanted) (k : Int) : Int :=
  2 * s.spanMinor - s.spanMajor + k * (2 * s.spanMinor) + s.minor k * -(2 * s.spanMajor)

theorem steps_majorErrorInc : (lineSteps s.p1 s.p2).majorErrorInc = 2 * s.spanMinor := by
  show (if s.xMajor then ((2 * (s.p2.y - s.p1.y)).natAbs : Int)
    else (2 * (s.p2.x - s.p1.x)).natAbs) = 2 * (if s.xMajor then s.spanY else s.spanX)
  cases s.xMajor
  · show ((2 * (s.p2.x - s.p1.x)).natAbs : Int) = 2 * (s.p2.x - s.p1.x).natAbs
    omega
  · show ((2 * (s.p2.y - s.p1.y)).natAbs : Int) = 2 * (s.p2.y - s.p1.y).natAbs
    omega

theorem steps_minorErrorInc : (lineSteps s.p1 s.p2).minorErrorInc = -(2 * s.spanMajor) := by
  show (if s.xMajor then -((2 * (s.p2.x - s.p1.x)).natAbs : Int)
    else -(2 * (s.p2.y - s.p1.y)).natAbs) = -(2 * (if s.xMajor then s.spanX else s.spanY))
  cases s.xMajor
  · show -((2 * (s.p2.y - s.p1.y)).natAbs : Int) = -(2 * (s.p2.y - s.p1.y).natAbs)
    omega
  · show -((2 * (s.p2.x - s.p1.x)).natAbs : Int) = -(2 * (s.p2.x - s.p1.x).natAbs)
    omega

theorem steps_startError :
    (lineSteps s.p1 s.p2).startError = 2 * s.spanMinor - s.spanMajor := by
  show (lineSteps s.p1 s.p2).majorErrorInc + (lineSteps s.p1 s.p2).minorErrorInc.tdiv 2 = _
  have hhalf : (-(2 * s.spanMajor)).tdiv 2 = -s.spanMajor := by
    rw [Int.neg_tdiv, Int.mul_tdiv_cancel_left _ (by decide)]
  rw [steps_majorErrorInc, steps_minorErrorInc, hhalf]
  omega

/-- The pixel after one on the line. -/
theorem minor_succ (s : Slanted) (k : Int) :
    s.minor (k + 1) = if s.errorAt k ≥ 0 then s.minor k + 1 else s.minor k := by
  have hsucc := @roundMul_succ s.spanMajor s.spanMinor k s.spanMajor_pos
    (le_of_lt s.spanMinor_pos) s.minor_le_major
  have herror : s.errorAt k =
      2 * s.spanMinor * (k + 1) - s.spanMajor - 2 * s.spanMajor * s.minor k := by
    rw [errorAt, mul_add, mul_one, mul_comm k, mul_neg, mul_comm (s.minor k)]
    omega
  rw [herror]
  exact hsucc

theorem errorAt_succ (s : Slanted) (k : Int) :
    s.errorAt (k + 1) = (if s.errorAt k ≥ 0 then s.errorAt k + -(2 * s.spanMajor)
      else s.errorAt k) + 2 * s.spanMinor := by
  have hsucc := s.minor_succ k
  split
  · rename_i h
    rw [if_pos h] at hsucc
    rw [errorAt, errorAt, hsucc, add_mul, add_mul, one_mul, one_mul]
    omega
  · rename_i h
    rw [if_neg h] at hsucc
    rw [errorAt, errorAt, hsucc, add_mul, one_mul]
    omega

/-- `bresenhamLine` follows the line. -/
theorem bresenham_run (s : Slanted) (n : Nat) (k : Int) :
    bresenhamPoints s.xMajor (if s.xMajor then s.dirX else s.dirY)
      (if s.xMajor then s.dirY else s.dirX) (2 * s.spanMinor) (-(2 * s.spanMajor)) n
      (s.pixel k) (s.errorAt k) = (upFrom k n).map s.pixel := by
  induction n generalizing k with
  | zero => rfl
  | succ n ih =>
    have hnext := s.minor_succ k
    rw [bresenhamPoints, upFrom, List.map_cons, ← ih, s.errorAt_succ]
    congr 2
    cases hm : s.xMajor
    · simp only [Bool.false_eq_true, if_false]
      split
      · rename_i h
        rw [if_pos h] at hnext
        apply point_eq
        · show s.p1.x + s.dirX * s.col k + s.dirX = s.p1.x + s.dirX * s.col (k + 1)
          rw [s.col_of_yMajor hm, s.col_of_yMajor hm, hnext, mul_add, mul_one, add_assoc]
        · show s.p1.y + s.dirY * s.row k + s.dirY = s.p1.y + s.dirY * s.row (k + 1)
          rw [s.row_of_yMajor hm, s.row_of_yMajor hm, mul_add, mul_one, add_assoc]
      · rename_i h
        rw [if_neg h] at hnext
        apply point_eq
        · show s.p1.x + s.dirX * s.col k = s.p1.x + s.dirX * s.col (k + 1)
          rw [s.col_of_yMajor hm, s.col_of_yMajor hm, hnext]
        · show s.p1.y + s.dirY * s.row k + s.dirY = s.p1.y + s.dirY * s.row (k + 1)
          rw [s.row_of_yMajor hm, s.row_of_yMajor hm, mul_add, mul_one, add_assoc]
    · simp only [if_true]
      split
      · rename_i h
        rw [if_pos h] at hnext
        apply point_eq
        · show s.p1.x + s.dirX * s.col k + s.dirX = s.p1.x + s.dirX * s.col (k + 1)
          rw [s.col_of_xMajor hm, s.col_of_xMajor hm, mul_add, mul_one, add_assoc]
        · show s.p1.y + s.dirY * s.row k + s.dirY = s.p1.y + s.dirY * s.row (k + 1)
          rw [s.row_of_xMajor hm, s.row_of_xMajor hm, hnext, mul_add, mul_one, add_assoc]
      · rename_i h
        rw [if_neg h] at hnext
        apply point_eq
        · show s.p1.x + s.dirX * s.col k + s.dirX = s.p1.x + s.dirX * s.col (k + 1)
          rw [s.col_of_xMajor hm, s.col_of_xMajor hm, mul_add, mul_one, add_assoc]
        · show s.p1.y + s.dirY * s.row k = s.p1.y + s.dirY * s.row (k + 1)
          rw [s.row_of_xMajor hm, s.row_of_xMajor hm, hnext]

/-! ## The clip rectangle -/

section Rect

variable (s) (c)

/-- The column of the clip rectangle that is the nearest to the first end point. -/
def lowX : Int := if s.p2.x - s.p1.x > 0 then c.left - s.p1.x else s.p1.x - c.right

def highX : Int := if s.p2.x - s.p1.x > 0 then c.right - s.p1.x else s.p1.x - c.left

/-- The row of the clip rectangle that is the nearest to the first end point. -/
def lowY : Int := if s.p2.y - s.p1.y > 0 then c.top - s.p1.y else s.p1.y - c.bottom

def highY : Int := if s.p2.y - s.p1.y > 0 then c.bottom - s.p1.y else s.p1.y - c.top

def InCols (t : Int) : Prop := s.lowX c ≤ t ∧ t ≤ s.highX c

instance (t : Int) : Decidable (s.InCols c t) := inferInstanceAs (Decidable (_ ∧ _))

def InRows (t : Int) : Prop := s.lowY c ≤ t ∧ t ≤ s.highY c

instance (t : Int) : Decidable (s.InRows c t) := inferInstanceAs (Decidable (_ ∧ _))

end Rect

theorem inCols_iff {t : Int} :
    s.InCols c t ↔ c.left ≤ s.p1.x + s.dirX * t ∧ s.p1.x + s.dirX * t ≤ c.right := by
  rcases s.dirX_cases with ⟨h, hpos, _⟩ | ⟨h, hneg, _⟩
  · rw [InCols, lowX, highX, if_pos hpos, if_pos hpos, h, one_mul]
    omega
  · rw [InCols, lowX, highX, if_neg (by omega), if_neg (by omega), h, neg_one_mul]
    omega

theorem inRows_iff {t : Int} :
    s.InRows c t ↔ c.top ≤ s.p1.y + s.dirY * t ∧ s.p1.y + s.dirY * t ≤ c.bottom := by
  rcases s.dirY_cases with ⟨h, hpos, _⟩ | ⟨h, hneg, _⟩
  · rw [InRows, lowY, highY, if_pos hpos, if_pos hpos, h, one_mul]
    omega
  · rw [InRows, lowY, highY, if_neg (by omega), if_neg (by omega), h, neg_one_mul]
    omega

theorem contains_pixel : c.Contains (s.pixel k) ↔ s.InCols c (s.col k) ∧ s.InRows c (s.row k) := by
  rw [inCols_iff, inRows_iff]
  exact Iff.rfl

/-! ## The tests -/

/-- The pixel at a rounded crossing with a column, when it is in the rows of the rectangle and the
column between the end points. -/
def crossX (s : Slanted) (c : Rect) (t : Int) : Option Int :=
  if 0 < t ∧ t < s.spanX ∧ s.InRows c (s.rowAt t) then some (s.atCol t) else none

def crossY (s : Slanted) (c : Rect) (t : Int) : Option Int :=
  if 0 < t ∧ t < s.spanY ∧ s.InCols c (s.colAt t) then some (s.atRow t) else none

theorem pixel_atCol {t edge : Int} (ht : 0 ≤ t) (hedge : edge = s.p1.x + s.dirX * t) :
    s.pixel (s.atCol t) = ⟨edge, crossing s.p1.x s.p1.y (s.p2.x - s.p1.x)
      (2 * (s.p2.x - s.p1.x)) (2 * (s.p2.y - s.p1.y)) edge⟩ := by
  obtain ⟨hcol, hrow⟩ := (@atCol_iff s (s.atCol t) t).1 rfl
  rw [crossing_eq s.x_ne s.y_ne ht hedge, hedge, pixel, hcol, hrow]
  rfl

theorem pixel_atRow {t edge : Int} (ht : 0 ≤ t) (hedge : edge = s.p1.y + s.dirY * t) :
    s.pixel (s.atRow t) = ⟨crossing s.p1.y s.p1.x (s.p2.y - s.p1.y)
      (2 * (s.p2.y - s.p1.y)) (2 * (s.p2.x - s.p1.x)) edge, edge⟩ := by
  obtain ⟨hrow, hcol⟩ := (@atRow_iff s (s.atRow t) t).1 rfl
  rw [crossing_eq s.y_ne s.x_ne ht hedge, hedge, pixel, hcol, hrow]
  rfl

end Slanted

namespace LineEnds

/-- The start, when it is found. -/
def start? (ends : LineEnds) : Option Point :=
  if ends.startPointFound then some ends.startPoint else none

/-- The end, when it is found. -/
def end? (ends : LineEnds) : Option Point :=
  if ends.endPointFound then some ends.endPoint else none

end LineEnds

/-- What a test finds. -/
def found (b1 b2 within : Bool) (q : Point) : Option Point :=
  if b1 && b2 && within then some q else none

section EdgeTest

variable {before beyond after back within : Bool} {q : Point} {ends : LineEnds}

theorem edgeTest_start (h : before = true → after = false) :
    (edgeTest before beyond after back within q ends).start? =
      ends.start?.or (found before beyond within q) := by
  unfold edgeTest LineEnds.start? found
  cases before
  · cases hf : ends.startPointFound <;> grind
  · cases hf : ends.startPointFound <;> grind

theorem edgeTest_end (h : before = true → after = false) :
    (edgeTest before beyond after back within q ends).end? =
      ends.end?.or (found after back within q) := by
  unfold edgeTest LineEnds.end? found
  cases before
  · cases hf : ends.endPointFound <;> grind
  · cases hf : ends.endPointFound <;> grind

theorem found_none {b1 b2 : Bool} (h : ¬ (b1 = true ∧ b2 = true)) :
    found b1 b2 within q = none := by
  rw [found, if_neg]
  intro hall
  rw [Bool.and_eq_true, Bool.and_eq_true] at hall
  exact h hall.1

end EdgeTest

namespace Slanted

variable {s : Slanted} {k k' : Int} {c : Rect}

/-- A test for a vertical edge. -/
theorem found_crossX {b1 b2 : Bool} {t edge : Int} (hedge : edge = s.p1.x + s.dirX * t)
    (hb : (b1 = true ∧ b2 = true) ↔ 0 < t ∧ t < s.spanX) :
    let y := crossing s.p1.x s.p1.y (s.p2.x - s.p1.x) (2 * (s.p2.x - s.p1.x))
      (2 * (s.p2.y - s.p1.y)) edge
    found b1 b2 (y ≥ c.top ∧ y ≤ c.bottom) { x := edge, y := y } =
      (s.crossX c t).map s.pixel := by
  intro y
  by_cases hbetween : 0 < t ∧ t < s.spanX
  · have hy : y = s.p1.y + s.dirY * s.rowAt t :=
      crossing_eq s.x_ne s.y_ne (le_of_lt hbetween.1) hedge
    have hpixel : s.pixel (s.atCol t) = { x := edge, y := y } :=
      pixel_atCol (le_of_lt hbetween.1) hedge
    obtain ⟨h1, h2⟩ := hb.2 hbetween
    rw [found, h1, h2]
    by_cases hrows : s.InRows c (s.rowAt t)
    · have hwithin := inRows_iff.1 hrows
      rw [← hy] at hwithin
      have hcross : s.crossX c t = some (s.atCol t) :=
        if_pos ⟨hbetween.1, hbetween.2, hrows⟩
      rw [decide_eq_true hwithin, hcross, Option.map_some, hpixel]
      rfl
    · have hwithin : ¬ (y ≥ c.top ∧ y ≤ c.bottom) := by
        rw [hy]
        exact fun h => hrows (inRows_iff.2 h)
      have hcross : s.crossX c t = none := if_neg fun h => hrows h.2.2
      rw [decide_eq_false hwithin, hcross]
      rfl
  · rw [found_none (fun h => hbetween (hb.1 h)), crossX,
      if_neg (fun h => hbetween ⟨h.1, h.2.1⟩)]
    rfl

/-- A test for a horizontal edge. -/
theorem found_crossY {b1 b2 : Bool} {t edge : Int} (hedge : edge = s.p1.y + s.dirY * t)
    (hb : (b1 = true ∧ b2 = true) ↔ 0 < t ∧ t < s.spanY) :
    let x := crossing s.p1.y s.p1.x (s.p2.y - s.p1.y) (2 * (s.p2.y - s.p1.y))
      (2 * (s.p2.x - s.p1.x)) edge
    found b1 b2 (x ≥ c.left ∧ x ≤ c.right) { x := x, y := edge } =
      (s.crossY c t).map s.pixel := by
  intro x
  by_cases hbetween : 0 < t ∧ t < s.spanY
  · have hx : x = s.p1.x + s.dirX * s.colAt t :=
      crossing_eq s.y_ne s.x_ne (le_of_lt hbetween.1) hedge
    have hpixel : s.pixel (s.atRow t) = { x := x, y := edge } :=
      pixel_atRow (le_of_lt hbetween.1) hedge
    obtain ⟨h1, h2⟩ := hb.2 hbetween
    rw [found, h1, h2]
    by_cases hcols : s.InCols c (s.colAt t)
    · have hwithin := inCols_iff.1 hcols
      rw [← hx] at hwithin
      have hcross : s.crossY c t = some (s.atRow t) :=
        if_pos ⟨hbetween.1, hbetween.2, hcols⟩
      rw [decide_eq_true hwithin, hcross, Option.map_some, hpixel]
      rfl
    · have hwithin : ¬ (x ≥ c.left ∧ x ≤ c.right) := by
        rw [hx]
        exact fun h => hcols (inCols_iff.2 h)
      have hcross : s.crossY c t = none := if_neg fun h => hcols h.2.2
      rw [decide_eq_false hwithin, hcross]
      rfl
  · rw [found_none (fun h => hbetween (hb.1 h)), crossY,
      if_neg (fun h => hbetween ⟨h.1, h.2.1⟩)]
    rfl

/-- The test for a vertical edge that the line comes over with `x` going up. -/
theorem found_right (edge : Int) :
    let y := crossing s.p1.x s.p1.y (s.p2.x - s.p1.x) (2 * (s.p2.x - s.p1.x))
      (2 * (s.p2.y - s.p1.y)) edge
    found (s.p1.x < edge) (s.p2.x > edge) (y ≥ c.top ∧ y ≤ c.bottom) { x := edge, y := y } =
      if s.p2.x - s.p1.x > 0 then (s.crossX c (edge - s.p1.x)).map s.pixel else none := by
  intro y
  rcases s.dirX_cases with ⟨hdir, hpos, hspan⟩ | ⟨hdir, hneg, hspan⟩
  · rw [if_pos hpos]
    refine found_crossX ?_ ?_
    · rw [hdir, one_mul]
      omega
    · rw [decide_eq_true_eq, decide_eq_true_eq]
      omega
  · rw [if_neg (by omega)]
    refine found_none ?_
    rw [decide_eq_true_eq, decide_eq_true_eq]
    omega

/-- The same with `x` going down. -/
theorem found_left (edge : Int) :
    let y := crossing s.p1.x s.p1.y (s.p2.x - s.p1.x) (2 * (s.p2.x - s.p1.x))
      (2 * (s.p2.y - s.p1.y)) edge
    found (s.p1.x > edge) (s.p2.x < edge) (y ≥ c.top ∧ y ≤ c.bottom) { x := edge, y := y } =
      if s.p2.x - s.p1.x > 0 then none else (s.crossX c (s.p1.x - edge)).map s.pixel := by
  intro y
  rcases s.dirX_cases with ⟨hdir, hpos, hspan⟩ | ⟨hdir, hneg, hspan⟩
  · rw [if_pos hpos]
    refine found_none ?_
    rw [decide_eq_true_eq, decide_eq_true_eq]
    omega
  · rw [if_neg (by omega)]
    refine found_crossX ?_ ?_
    · rw [hdir, neg_one_mul]
      omega
    · rw [decide_eq_true_eq, decide_eq_true_eq]
      omega

/-- The test for a horizontal edge that the line comes over with `y` going up. -/
theorem found_down (edge : Int) :
    let x := crossing s.p1.y s.p1.x (s.p2.y - s.p1.y) (2 * (s.p2.y - s.p1.y))
      (2 * (s.p2.x - s.p1.x)) edge
    found (s.p1.y < edge) (s.p2.y > edge) (x ≥ c.left ∧ x ≤ c.right) { x := x, y := edge } =
      if s.p2.y - s.p1.y > 0 then (s.crossY c (edge - s.p1.y)).map s.pixel else none := by
  intro x
  rcases s.dirY_cases with ⟨hdir, hpos, hspan⟩ | ⟨hdir, hneg, hspan⟩
  · rw [if_pos hpos]
    refine found_crossY ?_ ?_
    · rw [hdir, one_mul]
      omega
    · rw [decide_eq_true_eq, decide_eq_true_eq]
      omega
  · rw [if_neg (by omega)]
    refine found_none ?_
    rw [decide_eq_true_eq, decide_eq_true_eq]
    omega

/-- The same with `y` going down. -/
theorem found_up (edge : Int) :
    let x := crossing s.p1.y s.p1.x (s.p2.y - s.p1.y) (2 * (s.p2.y - s.p1.y))
      (2 * (s.p2.x - s.p1.x)) edge
    found (s.p1.y > edge) (s.p2.y < edge) (x ≥ c.left ∧ x ≤ c.right) { x := x, y := edge } =
      if s.p2.y - s.p1.y > 0 then none else (s.crossY c (s.p1.y - edge)).map s.pixel := by
  intro x
  rcases s.dirY_cases with ⟨hdir, hpos, hspan⟩ | ⟨hdir, hneg, hspan⟩
  · rw [if_pos hpos]
    refine found_none ?_
    rw [decide_eq_true_eq, decide_eq_true_eq]
    omega
  · rw [if_neg (by omega)]
    refine found_crossY ?_ ?_
    · rw [hdir, neg_one_mul]
      omega
    · rw [decide_eq_true_eq, decide_eq_true_eq]
      omega

/-! ## The start and the end -/

/-- The pixel that the drawing starts at. -/
def entry (s : Slanted) (c : Rect) : Option Int :=
  if c.Contains s.p1 then some 0
  else if s.p2.x - s.p1.x < 0 ∧ s.p2.y - s.p1.y > 0 then
    (s.crossY c (s.lowY c)).or (s.crossX c (s.lowX c))
  else (s.crossX c (s.lowX c)).or (s.crossY c (s.lowY c))

/-- The pixel that the drawing ends at. -/
def exit (s : Slanted) (c : Rect) : Option Int :=
  if c.Contains s.p2 then some s.spanMajor
  else if s.p2.x - s.p1.x > 0 ∧ s.p2.y - s.p1.y < 0 then
    (s.crossY c (s.highY c)).or (s.crossX c (s.highX c))
  else (s.crossX c (s.highX c)).or (s.crossY c (s.highY c))

/-- The line between the end points with the variables of the source. -/
def ends (s : Slanted) (c : Rect) : LineEnds := lineEnds (lineSteps s.p1 s.p2) s.p1 s.p2 c

theorem leftTest_start (e : LineEnds) :
    (leftTest (lineSteps s.p1 s.p2) s.p1 s.p2 c e).start? = e.start?.or
      (if s.p2.x - s.p1.x > 0 then (s.crossX c (c.left - s.p1.x)).map s.pixel else none) :=
  (edgeTest_start fun h => decide_eq_false (not_lt_of_gt (of_decide_eq_true h))).trans
    (congrArg e.start?.or (found_right c.left))

theorem leftTest_end (e : LineEnds) :
    (leftTest (lineSteps s.p1 s.p2) s.p1 s.p2 c e).end? = e.end?.or
      (if s.p2.x - s.p1.x > 0 then none else (s.crossX c (s.p1.x - c.left)).map s.pixel) :=
  (edgeTest_end fun h => decide_eq_false (not_lt_of_gt (of_decide_eq_true h))).trans
    (congrArg e.end?.or (found_left c.left))

theorem topTest_start (e : LineEnds) :
    (topTest (lineSteps s.p1 s.p2) s.p1 s.p2 c e).start? = e.start?.or
      (if s.p2.y - s.p1.y > 0 then (s.crossY c (c.top - s.p1.y)).map s.pixel else none) :=
  (edgeTest_start fun h => decide_eq_false (not_lt_of_gt (of_decide_eq_true h))).trans
    (congrArg e.start?.or (found_down c.top))

theorem topTest_end (e : LineEnds) :
    (topTest (lineSteps s.p1 s.p2) s.p1 s.p2 c e).end? = e.end?.or
      (if s.p2.y - s.p1.y > 0 then none else (s.crossY c (s.p1.y - c.top)).map s.pixel) :=
  (edgeTest_end fun h => decide_eq_false (not_lt_of_gt (of_decide_eq_true h))).trans
    (congrArg e.end?.or (found_up c.top))

theorem rightTest_start (e : LineEnds) :
    (rightTest (lineSteps s.p1 s.p2) s.p1 s.p2 c e).start? = e.start?.or
      (if s.p2.x - s.p1.x > 0 then none else (s.crossX c (s.p1.x - c.right)).map s.pixel) :=
  (edgeTest_start fun h => decide_eq_false (not_lt_of_gt (of_decide_eq_true h))).trans
    (congrArg e.start?.or (found_left c.right))

theorem rightTest_end (e : LineEnds) :
    (rightTest (lineSteps s.p1 s.p2) s.p1 s.p2 c e).end? = e.end?.or
      (if s.p2.x - s.p1.x > 0 then (s.crossX c (c.right - s.p1.x)).map s.pixel else none) :=
  (edgeTest_end fun h => decide_eq_false (not_lt_of_gt (of_decide_eq_true h))).trans
    (congrArg e.end?.or (found_right c.right))

theorem bottomTest_start (e : LineEnds) :
    (bottomTest (lineSteps s.p1 s.p2) s.p1 s.p2 c e).start? = e.start?.or
      (if s.p2.y - s.p1.y > 0 then none else (s.crossY c (s.p1.y - c.bottom)).map s.pixel) :=
  (edgeTest_start fun h => decide_eq_false (not_lt_of_gt (of_decide_eq_true h))).trans
    (congrArg e.start?.or (found_up c.bottom))

theorem bottomTest_end (e : LineEnds) :
    (bottomTest (lineSteps s.p1 s.p2) s.p1 s.p2 c e).end? = e.end?.or
      (if s.p2.y - s.p1.y > 0 then (s.crossY c (c.bottom - s.p1.y)).map s.pixel else none) :=
  (edgeTest_end fun h => decide_eq_false (not_lt_of_gt (of_decide_eq_true h))).trans
    (congrArg e.end?.or (found_down c.bottom))

theorem endsInside_start :
    (endsInside s.p1 s.p2 c).start? = if c.Contains s.p1 then some s.p1 else none := by
  unfold endsInside LineEnds.start?
  by_cases h : c.Contains s.p1
  · simp only [h, decide_true, if_true]
  · simp only [h, decide_false, Bool.false_eq_true, if_false]

theorem endsInside_end :
    (endsInside s.p1 s.p2 c).end? = if c.Contains s.p2 then some s.p2 else none := by
  unfold endsInside LineEnds.end?
  by_cases h : c.Contains s.p2
  · simp only [h, decide_true, if_true]
  · simp only [h, decide_false, Bool.false_eq_true, if_false]

/-- The start that the tests find. -/
theorem ends_start (s : Slanted) (c : Rect) : (s.ends c).start? = (s.entry c).map s.pixel := by
  rw [ends, lineEnds, bottomTest_start, rightTest_start, topTest_start, leftTest_start,
    endsInside_start, entry]
  by_cases hin : c.Contains s.p1
  · rw [if_pos hin, if_pos hin, Option.map_some, pixel_zero]
    rfl
  · rw [if_neg hin, if_neg hin]
    simp only [lowX, lowY]
    rcases s.dirX_cases with ⟨_, hx, _⟩ | ⟨_, hx, _⟩
    · have hxy : ¬ (s.p2.x - s.p1.x < 0 ∧ s.p2.y - s.p1.y > 0) := fun h => by omega
      rcases s.dirY_cases with ⟨_, hy, _⟩ | ⟨_, hy, _⟩
      · simp only [if_pos hx, if_pos hy, if_neg hxy, Option.map_or, Option.none_or,
          Option.or_none]
      · simp only [if_pos hx, if_neg (not_lt_of_gt hy), if_neg hxy, Option.map_or, Option.none_or,
          Option.or_none]
    · rcases s.dirY_cases with ⟨_, hy, _⟩ | ⟨_, hy, _⟩
      · simp only [if_neg (not_lt_of_gt hx), if_pos hy, if_pos (And.intro hx hy), Option.map_or,
          Option.none_or, Option.or_none]
      · have hxy : ¬ (s.p2.x - s.p1.x < 0 ∧ s.p2.y - s.p1.y > 0) := fun h => by omega
        simp only [if_neg (not_lt_of_gt hx), if_neg (not_lt_of_gt hy), if_neg hxy, Option.map_or,
          Option.none_or, Option.or_none]

/-- The end that the tests find. -/
theorem ends_end (s : Slanted) (c : Rect) : (s.ends c).end? = (s.exit c).map s.pixel := by
  rw [ends, lineEnds, bottomTest_end, rightTest_end, topTest_end, leftTest_end, endsInside_end,
    exit]
  by_cases hin : c.Contains s.p2
  · rw [if_pos hin, if_pos hin, Option.map_some, pixel_major]
    rfl
  · rw [if_neg hin, if_neg hin]
    simp only [highX, highY]
    rcases s.dirX_cases with ⟨_, hx, _⟩ | ⟨_, hx, _⟩
    · rcases s.dirY_cases with ⟨_, hy, _⟩ | ⟨_, hy, _⟩
      · have hxy : ¬ (s.p2.x - s.p1.x > 0 ∧ s.p2.y - s.p1.y < 0) := fun h => by omega
        simp only [if_pos hx, if_pos hy, if_neg hxy, Option.map_or, Option.none_or,
          Option.or_none]
      · simp only [if_pos hx, if_neg (not_lt_of_gt hy), if_pos (And.intro hx hy), Option.map_or,
          Option.none_or, Option.or_none]
    · have hxy : ¬ (s.p2.x - s.p1.x > 0 ∧ s.p2.y - s.p1.y < 0) := fun h => by omega
      rcases s.dirY_cases with ⟨_, hy, _⟩ | ⟨_, hy, _⟩
      · simp only [if_neg (not_lt_of_gt hx), if_pos hy, if_neg hxy, Option.map_or,
          Option.none_or, Option.or_none]
      · simp only [if_neg (not_lt_of_gt hx), if_neg (not_lt_of_gt hy), if_neg hxy, Option.map_or,
          Option.none_or, Option.or_none]

end Slanted

end Vmx.Ugl
