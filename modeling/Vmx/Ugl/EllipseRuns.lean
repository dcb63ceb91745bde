import Mathlib.Tactic.IntervalCases
import Mathlib.Tactic.Linarith
import Mathlib.Tactic.Ring
import Vmx.Ugl.EllipseGet

/-!
# The inner ellipse of `uglEllipseGet`

Both loops keep the error term equal to a quadratic form at the current point (`firstError`,
`secondError`).  While the first loop goes on its point is `Inside` the ellipse, so `x`
stays below the radius.  `FirstInv` and `SecondInv` say which rows are written, with which
half widths `f`: the first loop mirrors a row with `yRefl`, and the second with `xRefl`.

`inner_fill_iff` is the result: the segments fill an ellipse exactly when the two reflections
are the same.
-/

namespace Vmx.Ugl

/-! ## `UGL_INT32` -/

def Fits (z : Int) : Prop := -2147483648 ≤ z ∧ z ≤ 2147483647

theorem wrap32_of_fits {z : Int} (h : Fits z) : wrap32 z = z := by
  apply Int.bmod_eq_of_le
  · exact h.1
  · have := h.2
    omega

/-- The squared terms of the walk fit `UGL_INT32`, at every point of the quarter. -/
def SquaredTermsFit (a b : Int) : Prop :=
  ∀ x y, 0 ≤ x → x ≤ a → 0 ≤ y → y ≤ b →
    Fits (a * a * (2 * y - 1)) ∧ Fits (2 * b * b * (x + 1)) ∧
    Fits (b * b * (8 * x + 12)) ∧ Fits (a * a * (-8 * y + 8)) ∧
    Fits (b * b * (2 * x + 1) * (2 * x + 1)) ∧ Fits (4 * a * a * (y - 1) * (y - 1)) ∧
    Fits (4 * a * a * b * b) ∧ Fits (a * a * (-8 * y + 12))

/-! ## The error terms -/

section Errors

variable {a b x y : Int}

/-- Four times the ellipse's form at `(x + 1, y - 1/2)`. -/
def firstError (a b x y : Int) : Int :=
  4 * b * b * (x + 1) * (x + 1) + a * a * (2 * y - 1) * (2 * y - 1) - 4 * a * a * b * b

/-- Four times the ellipse's form at `(x + 1/2, y - 1)`. -/
def secondError (a b x y : Int) : Int :=
  b * b * (2 * x + 1) * (2 * x + 1) + 4 * a * a * (y - 1) * (y - 1) - 4 * a * a * b * b

/-- The point `(x, y - 1/2)` is inside the ellipse. -/
def Inside (a b x y : Int) : Prop :=
  4 * b * b * x * x + a * a * (2 * y - 1) * (2 * y - 1) < 4 * a * a * b * b

/-- The test of the first loop, without overflow. -/
def Flat (a b x y : Int) : Prop := 2 * b * b * (x + 1) < a * a * (2 * y - 1)

theorem Flat.y_pos (h : Flat a b x y) (hx : 0 ≤ x) : 1 ≤ y := by
  have h' : 2 * b * b * (x + 1) < a * a * (2 * y - 1) := h
  have h1 : 0 ≤ b * b * x := mul_nonneg (mul_self_nonneg b) hx
  have h2 := mul_self_nonneg b
  have h3 := mul_self_nonneg a
  by_contra hy
  have h4 : 0 ≤ a * a * (1 - 2 * y) := mul_nonneg h3 (by omega)
  nlinarith

theorem inside_start (h : Flat a b 0 b) : Inside a b 0 b := by
  have h' : 2 * b * b * (0 + 1) < a * a * (2 * b - 1) := h
  have h2 := mul_self_nonneg b
  have h3 := mul_self_nonneg a
  show 4 * b * b * 0 * 0 + a * a * (2 * b - 1) * (2 * b - 1) < 4 * a * a * b * b
  nlinarith

theorem inside_right (h : firstError a b x y < 0) : Inside a b (x + 1) y := by
  have h' : 4 * b * b * (x + 1) * (x + 1) + a * a * (2 * y - 1) * (2 * y - 1) -
    4 * a * a * b * b < 0 := h
  show 4 * b * b * (x + 1) * (x + 1) + a * a * (2 * y - 1) * (2 * y - 1) < 4 * a * a * b * b
  linarith

/-- A diagonal step stays inside when the curve is still flat after it. -/
theorem inside_down (h : Inside a b x y) (hf : Flat a b (x + 1) (y - 1)) :
    Inside a b (x + 1) (y - 1) := by
  have h' : 4 * b * b * x * x + a * a * (2 * y - 1) * (2 * y - 1) < 4 * a * a * b * b := h
  have hf' : 2 * b * b * (x + 1 + 1) < a * a * (2 * (y - 1) - 1) := hf
  have h2 := mul_self_nonneg b
  have h3 := mul_self_nonneg a
  show 4 * b * b * (x + 1) * (x + 1) + a * a * (2 * (y - 1) - 1) * (2 * (y - 1) - 1) <
    4 * a * a * b * b
  nlinarith

theorem lt_of_inside (h : Inside a b x y) (ha : 0 ≤ a) : x < a := by
  have h' : 4 * b * b * x * x + a * a * (2 * y - 1) * (2 * y - 1) < 4 * a * a * b * b := h
  by_contra hx
  have h1 : a * a ≤ x * x := mul_self_le_mul_self ha (by omega)
  have h2 : b * b * (a * a) ≤ b * b * (x * x) := mul_le_mul_of_nonneg_left h1 (mul_self_nonneg b)
  have h3 : 0 ≤ a * a * ((2 * y - 1) * (2 * y - 1)) :=
    mul_nonneg (mul_self_nonneg a) (mul_self_nonneg _)
  nlinarith

/-- A step to the right of the second loop stays within the radius. -/
theorem lt_of_secondError (h : secondError a b x y < 0) (ha : 0 ≤ a) : x < a := by
  have h' : b * b * (2 * x + 1) * (2 * x + 1) + 4 * a * a * (y - 1) * (y - 1) -
    4 * a * a * b * b < 0 := h
  by_contra hx
  have h1 : (2 * a) * (2 * a) ≤ (2 * x + 1) * (2 * x + 1) :=
    mul_self_le_mul_self (by omega) (by omega)
  have h2 : b * b * ((2 * a) * (2 * a)) ≤ b * b * ((2 * x + 1) * (2 * x + 1)) :=
    mul_le_mul_of_nonneg_left h1 (mul_self_nonneg b)
  have h3 : 0 ≤ a * a * ((y - 1) * (y - 1)) :=
    mul_nonneg (mul_self_nonneg a) (mul_self_nonneg _)
  nlinarith

theorem firstError_right (a b x y : Int) :
    firstError a b x y + b * b * (8 * x + 12) = firstError a b (x + 1) y := by
  unfold firstError
  ring

theorem firstError_down (a b x y : Int) :
    firstError a b x y + (b * b * (8 * x + 12) + a * a * (-8 * y + 8)) =
      firstError a b (x + 1) (y - 1) := by
  unfold firstError
  ring

theorem firstError_start (a b : Int) : a * a - 4 * b * (a * a - b) = firstError a b 0 b := by
  unfold firstError
  ring

theorem secondError_right (a b x y : Int) :
    secondError a b x y + (8 * b * b * (x + 1) + a * a * (-8 * y + 12)) =
      secondError a b (x + 1) (y - 1) := by
  unfold secondError
  ring

theorem secondError_down (a b x y : Int) :
    secondError a b x y + a * a * (-8 * y + 12) = secondError a b x (y - 1) := by
  unfold secondError
  ring

theorem firstError_fits (hf : SquaredTermsFit a b) (hx : 0 ≤ x) (hxa : x ≤ a) (hy : 0 ≤ y)
    (hyb : y ≤ b) (h : Inside a b x y) : Fits (firstError a b x y) := by
  have h' : 4 * b * b * x * x + a * a * (2 * y - 1) * (2 * y - 1) < 4 * a * a * b * b := h
  have ⟨_, _, ⟨_, h3⟩, _, _, _, ⟨_, h7⟩, _⟩ := hf x y hx hxa hy hyb
  have hb := mul_self_nonneg b
  have hs : 0 ≤ b * b * ((x + 1) * (x + 1)) := mul_nonneg hb (mul_self_nonneg _)
  have ht : 0 ≤ a * a * ((2 * y - 1) * (2 * y - 1)) :=
    mul_nonneg (mul_self_nonneg a) (mul_self_nonneg _)
  show -2147483648 ≤ 4 * b * b * (x + 1) * (x + 1) + a * a * (2 * y - 1) * (2 * y - 1) -
    4 * a * a * b * b ∧ 4 * b * b * (x + 1) * (x + 1) + a * a * (2 * y - 1) * (2 * y - 1) -
    4 * a * a * b * b ≤ 2147483647
  constructor
  · nlinarith
  · nlinarith

theorem secondError_fits (hf : SquaredTermsFit a b) (hx : 0 ≤ x) (hxa : x ≤ a) (hy : 0 ≤ y)
    (hyb : y ≤ b) : Fits (secondError a b x y) := by
  have ⟨_, _, _, _, ⟨_, h5⟩, ⟨_, h6⟩, ⟨_, h7⟩, _⟩ := hf x y hx hxa hy hyb
  have hs : 0 ≤ b * b * ((2 * x + 1) * (2 * x + 1)) :=
    mul_nonneg (mul_self_nonneg b) (mul_self_nonneg _)
  have ha := mul_self_nonneg a
  have ht : 0 ≤ a * a * ((y - 1) * (y - 1)) := mul_nonneg ha (mul_self_nonneg _)
  show -2147483648 ≤ b * b * (2 * x + 1) * (2 * x + 1) + 4 * a * a * (y - 1) * (y - 1) -
    4 * a * a * b * b ∧ b * b * (2 * x + 1) * (2 * x + 1) + 4 * a * a * (y - 1) * (y - 1) -
    4 * a * a * b * b ≤ 2147483647
  refine ⟨by nlinarith, ?_⟩
  cases Int.le_iff_lt_or_eq.1 (Int.le_trans hy hyb) with
  | inl hb =>
    have h1 : (y - 1) * (y - 1) ≤ b * b := by nlinarith
    have h2 : a * a * ((y - 1) * (y - 1)) ≤ a * a * (b * b) := mul_le_mul_of_nonneg_left h1 ha
    nlinarith
  | inr hb =>
    rw [← hb] at h7 ⊢
    linarith

end Errors

/-! ## The rows -/

namespace EllipseData

/-- The row of the middle of the ellipse. -/
def centre (e : EllipseData) : Int :=
  (e.boundRect.bottom - e.boundRect.top) / 2 + e.lineWidth / 2

/-- What the walk reads of the data is as it was. -/
structure SameShape (e₀ e : EllipseData) : Prop where
  boundRect : e.boundRect = e₀.boundRect
  lineWidth : e.lineWidth = e₀.lineWidth
  x : e.x = e₀.x

section Shape

variable {e₀ e : EllipseData}

theorem SameShape.segment (h : SameShape e₀ e) (x : Int) : e.segment x = e₀.segment x := by
  simp only [EllipseData.segment, MATH_TO_SCRX, EllipseData.xRefl, h.boundRect, h.x]

theorem SameShape.xRefl (h : SameShape e₀ e) : e.xRefl = e₀.xRefl := by
  simp only [EllipseData.xRefl, h.boundRect]

theorem SameShape.yRefl (h : SameShape e₀ e) : e.yRefl = e₀.yRefl := by
  simp only [EllipseData.yRefl, h.boundRect]

theorem SameShape.rowCount (h : SameShape e₀ e) : e.rowCount = e₀.rowCount := by
  simp only [EllipseData.rowCount, h.boundRect, h.lineWidth]

theorem SameShape.arrayY (h : SameShape e₀ e) (y : Int) :
    e.MATH_TO_ARRAYY y + e.lineWidth / 2 = e₀.centre - y := by
  simp only [MATH_TO_ARRAYY, centre, h.boundRect, h.lineWidth]
  omega

/-- Two writes of a segment, in rows that are there. -/
theorem SameShape.rowsSet (h : SameShape e₀ e) {y refl x : Int}
    (h1 : 0 ≤ e₀.centre - y) (h2 : e₀.centre - y < e₀.rowCount)
    (h3 : 0 ≤ e₀.centre + y + refl) (h4 : e₀.centre + y + refl < e₀.rowCount) :
    ∃ e', EllipseData.rowsSet true e y refl x = some e' ∧ SameShape e₀ e' ∧
      e'.ppFillData = Function.update
        (Function.update e.ppFillData (e₀.centre - y) (e₀.segment x))
        (e₀.centre + y + refl) (e₀.segment x) := by
  have hneg : e₀.centre - -(y + refl) = e₀.centre + y + refl := by omega
  let e₁ : EllipseData :=
    { e with ppFillData := Function.update e.ppFillData (e₀.centre - y) (e₀.segment x) }
  have hs : SameShape e₀ e₁ := ⟨h.boundRect, h.lineWidth, h.x⟩
  have hw : rowSet true e (e₀.centre - y) (e₀.segment x) = some e₁ := by
    rw [rowSet, h.rowCount]
    exact if_pos ⟨h1, h2⟩
  refine ⟨{ e₁ with
    ppFillData := Function.update e₁.ppFillData (e₀.centre + y + refl) (e₀.segment x) },
    ?_, ⟨h.boundRect, h.lineWidth, h.x⟩, rfl⟩
  rw [EllipseData.rowsSet, h.arrayY, h.segment, hw]
  show rowSet true e₁ (e₁.MATH_TO_ARRAYY (-(y + refl)) + e₁.lineWidth / 2) (e₁.segment x) = _
  rw [hs.arrayY, hs.segment, hneg, rowSet, hs.rowCount]
  exact if_pos ⟨h3, h4⟩

theorem SameShape.intersect (h : SameShape e₀ e) (x y m : Int) (inner : Bool) :
    SameShape e₀ (e.intersect x y m inner).1 := by
  have ⟨h1, h2, h3⟩ := h
  unfold EllipseData.intersect uglEllipseIntersectStart
  dsimp only
  split_ifs
  all_goals exact ⟨h1, h2, h3⟩

theorem intersect_ppFillData (e : EllipseData) (x y m : Int) (inner : Bool) :
    (e.intersect x y m inner).1.ppFillData = e.ppFillData := by
  unfold EllipseData.intersect uglEllipseIntersectStart
  dsimp only
  split_ifs
  all_goals rfl

end Shape

/-- The rows after the lines down to `y` with half widths `f`, mirrored with `q`. -/
def firstRows (e : EllipseData) (b q : Int) (f : Int → Int) (y i : Int) : FillRow :=
  if e.centre - b ≤ i ∧ i < e.centre - y then e.segment (f (e.centre - i))
  else if e.centre + y + q < i ∧ i ≤ e.centre + b + q then e.segment (f (i - e.centre - q))
  else emptyRow

/-- The rows after the lines down to `y`, those from `y₁` on mirrored with `p`. -/
def secondRows (e : EllipseData) (b p q y₁ : Int) (f : Int → Int) (y i : Int) : FillRow :=
  if e.centre + y + p < i ∧ i ≤ e.centre + y₁ + p then e.segment (f (i - e.centre - p))
  else if e.centre - b ≤ i ∧ i < e.centre - y then e.segment (f (e.centre - i))
  else if e.centre + y₁ + q < i ∧ i ≤ e.centre + b + q then e.segment (f (i - e.centre - q))
  else emptyRow

section Rows

variable {e : EllipseData} {b p q y y₁ x : Int} {f : Int → Int}

theorem secondRows_start : e.secondRows b p q y₁ f y₁ = e.firstRows b q f y₁ := by
  funext i
  rw [secondRows, if_neg (by omega), firstRows]

theorem firstRows_start : e.firstRows b q f b = fun _ => emptyRow := by
  funext i
  rw [firstRows, if_neg (by omega), if_neg (by omega)]

theorem firstRows_step (hy : 0 ≤ y) (hyb : y ≤ b) (hq : 0 ≤ q) :
    Function.update (Function.update (e.firstRows b q f y) (e.centre - y) (e.segment x))
      (e.centre + y + q) (e.segment x) = e.firstRows b q (Function.update f y x) (y - 1) := by
  funext i
  rw [Function.update_apply, Function.update_apply, firstRows, firstRows]
  by_cases h1 : i = e.centre + y + q
  · rw [if_pos h1]
    by_cases h2 : e.centre - b ≤ i ∧ i < e.centre - (y - 1)
    · have hi : e.centre - i = y := by omega
      rw [if_pos h2, hi, Function.update_self]
    · have hi : i - e.centre - q = y := by omega
      rw [if_neg h2, if_pos (by omega), hi, Function.update_self]
  · rw [if_neg h1]
    by_cases h2 : i = e.centre - y
    · have hi : e.centre - i = y := by omega
      rw [if_pos h2, if_pos (by omega), hi, Function.update_self]
    · rw [if_neg h2]
      by_cases h3 : e.centre - b ≤ i ∧ i < e.centre - y
      · rw [if_pos h3, if_pos (by omega), Function.update_of_ne (by omega)]
      · rw [if_neg h3, if_neg (by omega : ¬(e.centre - b ≤ i ∧ i < e.centre - (y - 1)))]
        by_cases h4 : e.centre + y + q < i ∧ i ≤ e.centre + b + q
        · rw [if_pos h4, if_pos (by omega), Function.update_of_ne (by omega)]
        · rw [if_neg h4, if_neg (by omega)]

theorem secondRows_step (hy : 0 ≤ y) (hy₁ : y ≤ y₁) (hyb : y₁ ≤ b) (hp : 0 ≤ p) :
    Function.update (Function.update (e.secondRows b p q y₁ f y) (e.centre - y) (e.segment x))
      (e.centre + y + p) (e.segment x) =
        e.secondRows b p q y₁ (Function.update f y x) (y - 1) := by
  funext i
  rw [Function.update_apply, Function.update_apply, secondRows, secondRows]
  by_cases h1 : i = e.centre + y + p
  · have hi : i - e.centre - p = y := by omega
    rw [if_pos h1, if_pos (by omega), hi, Function.update_self]
  · rw [if_neg h1]
    by_cases h2 : i = e.centre - y
    · have hi : e.centre - i = y := by omega
      rw [if_pos h2, if_neg (by omega), if_pos (by omega), hi, Function.update_self]
    · rw [if_neg h2]
      by_cases h3 : e.centre + y + p < i ∧ i ≤ e.centre + y₁ + p
      · rw [if_pos h3, if_pos (by omega), Function.update_of_ne (by omega)]
      · rw [if_neg h3, if_neg (by omega : ¬(e.centre + (y - 1) + p < i ∧ _))]
        by_cases h4 : e.centre - b ≤ i ∧ i < e.centre - y
        · rw [if_pos h4, if_pos (by omega), Function.update_of_ne (by omega)]
        · rw [if_neg h4, if_neg (by omega : ¬(e.centre - b ≤ i ∧ i < e.centre - (y - 1)))]
          by_cases h5 : e.centre + y₁ + q < i ∧ i ≤ e.centre + b + q
          · rw [if_pos h5, if_pos h5, Function.update_of_ne (by omega)]
          · rw [if_neg h5, if_neg h5]

end Rows

end EllipseData

/-! ## The loops -/

open EllipseData

namespace Walk

theorem intersects_ppFillData (inner : Bool) (w : Walk) :
    (w.intersects inner).e.ppFillData = w.e.ppFillData :=
  (intersect_ppFillData _ _ _ _ _).trans (intersect_ppFillData _ _ _ _ _)

theorem intersects_shape {e₀ : EllipseData} {w : Walk} (h : SameShape e₀ w.e) (inner : Bool) :
    SameShape e₀ (w.intersects inner).e :=
  (h.intersect _ _ _ _).intersect _ _ _ _

/-- The half widths `f` of the lines above `y` grow towards `y`, and stay below `m`. -/
structure Widths (b y m : Int) (f : Int → Int) : Prop where
  nonneg : ∀ r, y < r → r ≤ b → 0 ≤ f r
  below : ∀ r, y < r → r ≤ b → f r ≤ m
  mono : ∀ r s, y < r → r ≤ s → s ≤ b → f s ≤ f r

theorem Widths.step {b y m x : Int} {f : Int → Int} (h : Widths b y m f) (hm : m ≤ x)
    (hx : 0 ≤ x) : Widths b (y - 1) x (Function.update f y x) := by
  constructor
  · intro r h1 h2
    by_cases hr : r = y
    · rw [hr, Function.update_self]
      exact hx
    · rw [Function.update_of_ne hr]
      exact h.nonneg r (by omega) h2
  · intro r h1 h2
    by_cases hr : r = y
    · rw [hr, Function.update_self]
    · rw [Function.update_of_ne hr]
      exact Int.le_trans (h.below r (by omega) h2) hm
  · intro r s h1 h2 h3
    by_cases hs : s = y
    · have hr : r = y := by omega
      rw [hs, hr]
    · rw [Function.update_of_ne hs]
      by_cases hr : r = y
      · rw [hr, Function.update_self]
        exact Int.le_trans (h.below s (by omega) h3) hm
      · rw [Function.update_of_ne hr]
        exact h.mono r s (by omega) h2 h3

theorem Widths.mono_right {b y m n : Int} {f : Int → Int} (h : Widths b y m f) (hmn : m ≤ n) :
    Widths b y n f :=
  ⟨h.nonneg, fun r h1 h2 => Int.le_trans (h.below r h1 h2) hmn, h.mono⟩

/-- The state of the first loop. -/
structure FirstInv (e₀ : EllipseData) (a b : Int) (f : Int → Int) (w : Walk) : Prop where
  shape : SameShape e₀ w.e
  y_nonneg : 0 ≤ w.y
  y_le : w.y ≤ b
  x_nonneg : 0 ≤ w.x
  x_le : w.x ≤ a
  xMax : w.xMax < w.x
  error : w.d = wrap32 (firstError a b w.x w.y)
  inside : Flat a b w.x w.y → Inside a b w.x w.y
  widths : Widths b w.y (w.x - 1) f
  rows : w.e.ppFillData = e₀.firstRows b e₀.yRefl f w.y

/-- The state of the second loop, which starts at the line `y₁`. -/
structure SecondInv (e₀ : EllipseData) (a b y₁ : Int) (f : Int → Int) (w : Walk) : Prop where
  shape : SameShape e₀ w.e
  y_ge : -1 ≤ w.y
  y_le : w.y ≤ y₁
  x_nonneg : 0 ≤ w.x
  x_le : w.x ≤ a
  error : w.d = wrap32 (secondError a b w.x w.y)
  widths : Widths b w.y w.x f
  start : w.y = y₁ → y₁ < b → f (y₁ + 1) < w.x
  wider : w.y < y₁ → y₁ < b → f (y₁ + 1) < f y₁
  rows : w.e.ppFillData = e₀.secondRows b e₀.xRefl e₀.yRefl y₁ f w.y

section Loops

variable {e₀ : EllipseData} {a b y₁ : Int} {f : Int → Int} {w : Walk}

theorem flat_iff (hf : SquaredTermsFit a b) (h : FirstInv e₀ a b f w) :
    w.flat a b = true ↔ Flat a b w.x w.y := by
  have ⟨h1, h2, _⟩ := hf w.x w.y h.x_nonneg h.x_le h.y_nonneg h.y_le
  rw [Walk.flat, wrap32_of_fits h1, wrap32_of_fits h2]
  exact decide_eq_true_iff

/-- The rows of the inner ellipse are rows of the array. -/
structure Room (e₀ : EllipseData) (b : Int) : Prop where
  top : 0 ≤ e₀.centre - b
  bottom : e₀.centre + b + 1 < e₀.rowCount

theorem refl_range (z : Int) : 0 ≤ z % 2 ∧ z % 2 ≤ 1 := by omega

theorem FirstInv.step (hf : SquaredTermsFit a b) (hr : Room e₀ b) (h : FirstInv e₀ a b f w)
    (hflat : Flat a b w.x w.y) :
    ∃ w' f', w.firstBody true a b = some w' ∧ FirstInv e₀ a b f' w' ∧ w'.x = w.x + 1 := by
  have hin := h.inside hflat
  have hy := hflat.y_pos h.x_nonneg
  have hyb := h.y_le
  have hx := h.x_nonneg
  have hxa : w.x < a := lt_of_inside hin (Int.le_trans h.x_nonneg h.x_le)
  have hq : 0 ≤ e₀.yRefl ∧ e₀.yRefl ≤ 1 := refl_range _
  have htop := hr.top
  have hbottom := hr.bottom
  have herror : w.d = firstError a b w.x w.y :=
    h.error.trans (wrap32_of_fits (firstError_fits hf hx h.x_le h.y_nonneg hyb hin))
  have hmax : ∀ v : Walk, v.x = w.x → v.xMax = w.xMax →
      (if v.x > v.xMax then { v with xMax := v.x } else v) = { v with xMax := w.x } := by
    intro v h1 h2
    rw [if_pos (by rw [h1, h2]; exact h.xMax), h1]
  have hshape := intersects_shape h.shape true
  have hrows := intersects_ppFillData true w
  unfold firstBody
  dsimp only
  rw [hmax (w.intersects true) rfl rfl]
  by_cases hd : w.d < 0
  · refine ⟨_, f, if_pos hd, ?_, rfl⟩
    have hnext : Inside a b (w.x + 1) w.y := inside_right (herror ▸ hd)
    constructor
    case shape => exact hshape
    case y_nonneg => exact h.y_nonneg
    case y_le => exact hyb
    case x_nonneg =>
      show 0 ≤ w.x + 1
      omega
    case x_le => exact hxa
    case xMax =>
      show w.x < w.x + 1
      omega
    case error =>
      show wrap32 (w.d + b * b * (8 * w.x + 12)) = wrap32 (firstError a b (w.x + 1) w.y)
      rw [herror, firstError_right]
    case inside => exact fun _ => hnext
    case widths => exact h.widths.mono_right (by show w.x - 1 ≤ w.x + 1 - 1; omega)
    case rows => exact hrows.trans h.rows
  · have ⟨e', hset, hshape', hfill⟩ := @SameShape.rowsSet e₀ _ hshape w.y e₀.yRefl w.x
      (by omega) (by omega) (by omega) (by omega)
    refine ⟨{ w.intersects true with
      e := e'
      xMax := INT_MIN
      d := wrap32 (w.d + (b * b * (8 * w.x + 12) + a * a * (-8 * w.y + 8)))
      y := w.y - 1
      x := w.x + 1 }, Function.update f w.y w.x, ?_, ?_, rfl⟩
    · refine (if_neg hd).trans ?_
      have hset' : EllipseData.rowsSet true (w.intersects true).e (w.intersects true).y
          (w.intersects true).e.yRefl w.x = some e' := by
        rw [hshape.yRefl]
        exact hset
      dsimp only
      rw [hset']
      rfl
    · constructor
      case shape => exact hshape'
      case y_nonneg =>
        show 0 ≤ w.y - 1
        omega
      case y_le =>
        show w.y - 1 ≤ b
        omega
      case x_nonneg =>
        show 0 ≤ w.x + 1
        omega
      case x_le => exact hxa
      case xMax =>
        show (-2147483648 : Int) < w.x + 1
        omega
      case error =>
        show wrap32 (w.d + (b * b * (8 * w.x + 12) + a * a * (-8 * w.y + 8))) =
          wrap32 (firstError a b (w.x + 1) (w.y - 1))
        rw [herror, firstError_down]
      case inside => exact inside_down hin
      case widths =>
        have hw := h.widths.step (x := w.x) (by omega) hx
        exact hw.mono_right (by show w.x ≤ w.x + 1 - 1; omega)
      case rows =>
        rw [← firstRows_step h.y_nonneg hyb hq.1, ← h.rows, ← hrows]
        exact hfill

theorem FirstInv.loop (hf : SquaredTermsFit a b) (hr : Room e₀ b) (fuel : Nat) :
    ∀ (w : Walk) (f : Int → Int), FirstInv e₀ a b f w →
      (∀ w', firstLoop true a b fuel w = some w' → ∃ f', FirstInv e₀ a b f' w') ∧
      (a - w.x < fuel → ∃ w', firstLoop true a b fuel w = some w') := by
  induction fuel with
  | zero =>
    intro w f h
    refine ⟨fun w' hw => (nomatch hw), fun hlt => ?_⟩
    have := h.x_le
    omega
  | succ fuel ih =>
    intro w f h
    rw [firstLoop]
    by_cases hflat : w.flat a b = true
    · have ⟨w₁, f₁, hbody, h₁, hx⟩ := h.step hf hr ((flat_iff hf h).1 hflat)
      rw [if_pos hflat, hbody]
      have ⟨hrun, hends⟩ := ih w₁ f₁ h₁
      exact ⟨hrun, fun hlt => hends (by omega)⟩
    · rw [if_neg hflat]
      exact ⟨fun w' hw => ⟨f, (Option.some.inj hw) ▸ h⟩, fun _ => ⟨w, rfl⟩⟩

theorem FirstInv.turn (h : FirstInv e₀ a b f w) : SecondInv e₀ a b w.y f (w.turn a b) where
  shape := h.shape
  y_ge := by
    have := h.y_nonneg
    show -1 ≤ w.y
    omega
  y_le := Int.le_refl _
  x_nonneg := h.x_nonneg
  x_le := h.x_le
  error := rfl
  widths := h.widths.mono_right (by show w.x - 1 ≤ w.x; omega)
  start := by
    intro _ hb
    have hlt := h.widths.below (w.y + 1) (by omega) (by omega)
    show f (w.y + 1) < w.x
    omega
  wider := fun hlt => absurd hlt (Int.lt_irrefl _)
  rows := h.rows.trans secondRows_start.symm

theorem SecondInv.step (hf : SquaredTermsFit a b) (hr : Room e₀ b) (hyb : y₁ ≤ b)
    (h : SecondInv e₀ a b y₁ f w) (hy : 0 ≤ w.y) :
    ∃ w' f', w.secondBody true a b = some w' ∧ SecondInv e₀ a b y₁ f' w' ∧
      w'.y = w.y - 1 := by
  have hx := h.x_nonneg
  have hy₁ := h.y_le
  have hp : 0 ≤ e₀.xRefl ∧ e₀.xRefl ≤ 1 := refl_range _
  have htop := hr.top
  have hbottom := hr.bottom
  have herror : w.d = secondError a b w.x w.y :=
    h.error.trans (wrap32_of_fits (secondError_fits hf hx h.x_le hy (by omega)))
  have hshape := intersects_shape h.shape true
  have hrows := intersects_ppFillData true w
  have ⟨e', hset, hshape', hfill⟩ := @SameShape.rowsSet e₀ _ hshape w.y e₀.xRefl w.x
    (by omega) (by omega) (by omega) (by omega)
  have hset' : EllipseData.rowsSet true (w.intersects true).e (w.intersects true).y
      (w.intersects true).e.xRefl (w.intersects true).x = some e' := by
    rw [hshape.xRefl]
    exact hset
  have hfill' : e'.ppFillData =
      e₀.secondRows b e₀.xRefl e₀.yRefl y₁ (Function.update f w.y w.x) (w.y - 1) := by
    rw [← secondRows_step hy hy₁ hyb hp.1, ← h.rows, ← hrows]
    exact hfill
  have hwidths := h.widths.step (Int.le_refl w.x) hx
  have hwider : y₁ < b → Function.update f w.y w.x (y₁ + 1) < Function.update f w.y w.x y₁ := by
    intro hb
    rw [Function.update_of_ne (by omega : y₁ + 1 ≠ w.y)]
    by_cases hs : w.y = y₁
    · rw [hs, Function.update_self]
      exact h.start hs hb
    · rw [Function.update_of_ne (by omega : y₁ ≠ w.y)]
      exact h.wider (by omega) hb
  -- the step to the right is taken below the error zero only
  have hnext : ∀ (v : Walk), v.e = e' → v.y = w.y - 1 → w.x ≤ v.x → v.x ≤ a →
      v.d = wrap32 (secondError a b v.x v.y) →
      SecondInv e₀ a b y₁ (Function.update f w.y w.x) v := by
    intro v he hvy hvx hva hvd
    constructor
    case shape => rw [he]; exact hshape'
    case y_ge => omega
    case y_le => omega
    case x_nonneg => omega
    case x_le => exact hva
    case error => exact hvd
    case widths => rw [hvy]; exact hwidths.mono_right hvx
    case start => intro hs; omega
    case wider => exact fun _ hb => hwider hb
    case rows => rw [he, hvy]; exact hfill'
  unfold secondBody
  dsimp only
  rw [hset']
  by_cases hd : w.d < 0
  · refine ⟨_, _, if_pos hd, hnext _ rfl rfl ?_ ?_ ?_, rfl⟩
    · show w.x ≤ w.x + 1
      omega
    · exact lt_of_secondError (herror ▸ hd) (Int.le_trans hx h.x_le)
    · show wrap32 (w.d + (8 * b * b * (w.x + 1) + a * a * (-8 * w.y + 12))) =
        wrap32 (secondError a b (w.x + 1) (w.y - 1))
      rw [herror, secondError_right]
  · refine ⟨_, _, if_neg hd, hnext _ rfl rfl (Int.le_refl w.x) h.x_le ?_, rfl⟩
    show wrap32 (w.d + a * a * (-8 * w.y + 12)) = wrap32 (secondError a b w.x (w.y - 1))
    rw [herror, secondError_down]

theorem SecondInv.loop (hf : SquaredTermsFit a b) (hr : Room e₀ b) (hyb : y₁ ≤ b) (fuel : Nat) :
    ∀ (w : Walk) (f : Int → Int), SecondInv e₀ a b y₁ f w →
      (∀ w', secondLoop true a b fuel w = some w' →
        ∃ f', SecondInv e₀ a b y₁ f' w' ∧ w'.y = -1) ∧
      (w.y + 1 < fuel → ∃ w', secondLoop true a b fuel w = some w') := by
  induction fuel with
  | zero =>
    intro w f h
    refine ⟨fun w' hw => (nomatch hw), fun hlt => ?_⟩
    have := h.y_ge
    omega
  | succ fuel ih =>
    intro w f h
    rw [secondLoop]
    by_cases hy : w.y ≥ 0
    · have ⟨w₁, f₁, hbody, h₁, hy'⟩ := h.step hf hr hyb hy
      rw [if_pos hy, hbody]
      have ⟨hrun, hends⟩ := ih w₁ f₁ h₁
      exact ⟨hrun, fun hlt => hends (by omega)⟩
    · rw [if_neg hy]
      have hge := h.y_ge
      exact ⟨fun w' hw => ⟨f, (Option.some.inj hw) ▸ ⟨h, by omega⟩⟩, fun _ => ⟨w, rfl⟩⟩

end Loops

end Walk

/-! ## The fill data -/

namespace EllipseData

/-- The scan line that the call of `fill` gives the row `i`. -/
def scanLine (e : EllipseData) (i : Int) : Int := e.boundRect.top - e.lineWidth / 2 + i

/-- The segments fill an ellipse of the bounding rectangle. -/
structure Filled (e : EllipseData) : Prop where
  segments : ∃ lo hi, 0 ≤ lo ∧ lo ≤ hi ∧ hi < e.rowCount ∧
    ∀ i, (e.ppFillData i).count = if lo ≤ i ∧ i ≤ hi then 2 else 0
  mirrorRows : ∀ i j, e.scanLine i + e.scanLine j = e.boundRect.top + e.boundRect.bottom →
    e.ppFillData i = e.ppFillData j
  mirrorColumns : ∀ i, (e.ppFillData i).count = 2 →
    (e.ppFillData i).first + (e.ppFillData i).last = e.boundRect.left + e.boundRect.right
  inside : ∀ i, (e.ppFillData i).count = 2 →
    e.boundRect.left ≤ (e.ppFillData i).first ∧
    (e.ppFillData i).first ≤ (e.ppFillData i).last ∧
    (e.ppFillData i).last ≤ e.boundRect.right ∧
    e.boundRect.top ≤ e.scanLine i ∧ e.scanLine i ≤ e.boundRect.bottom
  widens : ∀ i j, (e.ppFillData i).count = 2 → (e.ppFillData j).count = 2 →
    |2 * e.scanLine j - (e.boundRect.top + e.boundRect.bottom)| ≤
      |2 * e.scanLine i - (e.boundRect.top + e.boundRect.bottom)| →
    (e.ppFillData i).last - (e.ppFillData i).first ≤
      (e.ppFillData j).last - (e.ppFillData j).first

/-- The walk ends within the rows of the array, and its segments fill an ellipse. -/
def FillsInner (e : EllipseData) : Prop :=
  ∃ fuel e', e.uglEllipseGet fuel true = some e' ∧ e'.Filled

/-- The line width is less than the width and the height. -/
structure Wide (e : EllipseData) : Prop where
  lineWidth : 0 ≤ e.lineWidth
  width : e.lineWidth < e.boundRect.right - e.boundRect.left
  height : e.lineWidth < e.boundRect.bottom - e.boundRect.top

/-- The data as `uglGenericEllipse` passes them. -/
structure Fresh (e : EllipseData) : Prop extends Wide e where
  x : e.x = (e.boundRect.left + e.boundRect.right) / 2
  ppFillData : e.ppFillData = fun _ => emptyRow

theorem Fresh.setup {boundRect : Rect} {lineWidth : Int} (startArc endArc : Point)
    (h1 : 0 ≤ lineWidth) (h2 : lineWidth < boundRect.right - boundRect.left)
    (h3 : lineWidth < boundRect.bottom - boundRect.top) :
    Fresh (setup boundRect startArc endArc lineWidth) :=
  ⟨⟨h1, h2, h3⟩, rfl, rfl⟩

section Final

variable {e₀ e : EllipseData} {b y₁ : Int} {f : Int → Int}

/-- What the walk leaves: the rows of all lines, with their half widths. -/
structure Walked (e₀ e : EllipseData) (y₁ : Int) (f : Int → Int) : Prop where
  shape : SameShape e₀ e
  y_nonneg : 0 ≤ y₁
  y_le : y₁ ≤ e₀.b true
  widths : Walk.Widths (e₀.b true) (-1) (e₀.a true) f
  wider : y₁ < e₀.b true → f (y₁ + 1) < f y₁
  rows : e.ppFillData = e₀.secondRows (e₀.b true) e₀.xRefl e₀.yRefl y₁ f (-1)

theorem centered_shape (e : EllipseData) (inner : Bool) : SameShape e (e.centered inner) := by
  unfold centered
  split_ifs
  all_goals exact ⟨rfl, rfl, rfl⟩

theorem centered_ppFillData (e : EllipseData) (inner : Bool) :
    (e.centered inner).ppFillData = e.ppFillData := by
  unfold centered
  split_ifs
  all_goals rfl

theorem Wide.a_nonneg (h : Wide e₀) : 0 ≤ e₀.a true := by
  have := h.lineWidth
  have := h.width
  show 0 ≤ (e₀.boundRect.right - e₀.boundRect.left) / 2 - e₀.lineWidth / 2 - e₀.lineWidth % 2
  omega

theorem Wide.b_nonneg (h : Wide e₀) : 0 ≤ e₀.b true := by
  have := h.lineWidth
  have := h.height
  show 0 ≤ (e₀.boundRect.bottom - e₀.boundRect.top) / 2 - e₀.lineWidth / 2 - e₀.lineWidth % 2
  omega

theorem Wide.room (h : Wide e₀) : Walk.Room e₀ (e₀.b true) := by
  have := h.lineWidth
  have := h.height
  constructor
  · show 0 ≤ (e₀.boundRect.bottom - e₀.boundRect.top) / 2 + e₀.lineWidth / 2 -
      ((e₀.boundRect.bottom - e₀.boundRect.top) / 2 - e₀.lineWidth / 2 - e₀.lineWidth % 2)
    omega
  · show (e₀.boundRect.bottom - e₀.boundRect.top) / 2 + e₀.lineWidth / 2 +
      ((e₀.boundRect.bottom - e₀.boundRect.top) / 2 - e₀.lineWidth / 2 - e₀.lineWidth % 2) + 1 <
      e₀.boundRect.bottom - e₀.boundRect.top + 1 + e₀.lineWidth + 2
    omega

/-- The start of the walk. -/
theorem Fresh.start (h : Fresh e₀) (minError : Int) :
    Walk.FirstInv e₀ (e₀.a true) (e₀.b true) (fun _ => 0)
      (Walk.start (e₀.a true) (e₀.b true) minError (e₀.centered true)) where
  shape := centered_shape e₀ true
  y_nonneg := h.b_nonneg
  y_le := Int.le_refl _
  x_nonneg := Int.le_refl _
  x_le := h.a_nonneg
  xMax := by
    show (-2147483648 : Int) < 0
    omega
  error := congrArg wrap32 (firstError_start _ _)
  inside := inside_start
  widths := ⟨fun r h1 h2 => absurd h1 (by show ¬e₀.b true < r; omega),
    fun r h1 h2 => absurd h1 (by show ¬e₀.b true < r; omega),
    fun r s h1 h2 h3 => absurd h1 (by show ¬e₀.b true < r; omega)⟩
  rows := (centered_ppFillData e₀ true).trans (h.ppFillData.trans firstRows_start.symm)

/-- The result of `uglEllipseGet` is that of the two loops. -/
theorem uglEllipseGet_walks {inner : Bool} (ha : 0 ≤ e₀.a inner) (hb : 0 ≤ e₀.b inner) :
    ∃ minError, ∀ fuel e, e₀.uglEllipseGet fuel inner = some e ↔ ∃ w₁ w₂,
      (Walk.start (e₀.a inner) (e₀.b inner) minError (e₀.centered inner)).firstLoop inner
        (e₀.a inner) (e₀.b inner) fuel = some w₁ ∧
      (w₁.turn (e₀.a inner) (e₀.b inner)).secondLoop inner (e₀.a inner) (e₀.b inner) fuel =
        some w₂ ∧ w₂.e = e := by
  refine ⟨if (e₀.centered inner).startArc.x = (e₀.centered inner).endArc.x ∧
    (e₀.centered inner).startArc.y = (e₀.centered inner).endArc.y then 0 else INT_MAX,
    fun fuel e => ?_⟩
  unfold uglEllipseGet
  dsimp only
  rw [if_pos ⟨ha, hb⟩]
  generalize (Walk.start (e₀.a inner) (e₀.b inner) _ (e₀.centered inner)).firstLoop inner
    (e₀.a inner) (e₀.b inner) fuel = first
  cases first with
  | none => exact ⟨fun h => (nomatch h), fun ⟨_, _, h, _⟩ => (nomatch h)⟩
  | some w₁ =>
    dsimp only
    constructor
    · intro h
      cases h2 : (w₁.turn (e₀.a inner) (e₀.b inner)).secondLoop inner (e₀.a inner) (e₀.b inner)
          fuel with
      | none => rw [h2] at h; cases h
      | some w₂ =>
        rw [h2] at h
        exact ⟨w₁, w₂, rfl, h2, Option.some.inj h⟩
    · intro ⟨w, w₂, hw, h2, he⟩
      rw [Option.some.inj hw, h2, ← he]

theorem uglEllipseGet_spec (h : Fresh e₀) (hf : SquaredTermsFit (e₀.a true) (e₀.b true)) :
    (∀ fuel e, e₀.uglEllipseGet fuel true = some e → ∃ y₁ f, Walked e₀ e y₁ f) ∧
    ∃ fuel e, e₀.uglEllipseGet fuel true = some e := by
  have ha := h.a_nonneg
  have hb := h.b_nonneg
  have ⟨minError, hget⟩ := @uglEllipseGet_walks e₀ true ha hb
  have hstart := h.start minError
  constructor
  · intro fuel e he
    have ⟨w₁, w₂, h1, h2, hw₂⟩ := (hget fuel e).1 he
    have ⟨f₁, hfirst⟩ := (Walk.FirstInv.loop hf h.room fuel _ _ hstart).1 w₁ h1
    have ⟨f₂, hsecond, hy⟩ :=
      (Walk.SecondInv.loop hf h.room hfirst.y_le fuel _ _ hfirst.turn).1 w₂ h2
    have hy₁ := hfirst.y_nonneg
    subst hw₂
    refine ⟨w₁.y, f₂, hsecond.shape, hy₁, hfirst.y_le, ?_, hsecond.wider (by omega), ?_⟩
    · rw [← hy]
      exact hsecond.widths.mono_right hsecond.x_le
    · rw [← hy]
      exact hsecond.rows
  · let fuel := (e₀.a true).toNat + (e₀.b true).toNat + 2
    have ⟨w₁, h1⟩ := (Walk.FirstInv.loop hf h.room fuel _ _ hstart).2
      (by show e₀.a true - 0 < ((e₀.a true).toNat + (e₀.b true).toNat + 2 : Nat); omega)
    have ⟨f₁, hfirst⟩ := (Walk.FirstInv.loop hf h.room fuel _ _ hstart).1 w₁ h1
    have hy₁ := hfirst.y_le
    have ⟨w₂, h2⟩ :=
      (Walk.SecondInv.loop hf h.room hfirst.y_le fuel _ _ hfirst.turn).2
        (by show w₁.y + 1 < ((e₀.a true).toNat + (e₀.b true).toNat + 2 : Nat); omega)
    exact ⟨fuel, w₂.e, (hget fuel _).2 ⟨w₁, w₂, h1, h2, rfl⟩⟩

/-- How far the row `i` is from the middle rows. -/
def half (e : EllipseData) (i : Int) : Int :=
  if i ≤ e.centre then e.centre - i else i - e.centre - e.yRefl

theorem secondRows_same (hb : 0 ≤ b) (hy₁ : 0 ≤ y₁) (hyb : y₁ ≤ b) (i : Int) :
    e₀.secondRows b e₀.yRefl e₀.yRefl y₁ f (-1) i =
      if e₀.centre - b ≤ i ∧ i ≤ e₀.centre + b + e₀.yRefl then e₀.segment (f (e₀.half i))
      else emptyRow := by
  have hq : 0 ≤ e₀.yRefl ∧ e₀.yRefl ≤ 1 := Walk.refl_range _
  rw [secondRows, half]
  by_cases hi : i ≤ e₀.centre
  · rw [if_pos hi]
    by_cases h1 : e₀.centre + -1 + e₀.yRefl < i ∧ i ≤ e₀.centre + y₁ + e₀.yRefl
    · have heq : i - e₀.centre - e₀.yRefl = e₀.centre - i := by omega
      rw [if_pos h1, if_pos (by omega), heq]
    · rw [if_neg h1]
      by_cases h2 : e₀.centre - b ≤ i
      · rw [if_pos (by omega), if_pos (by omega)]
      · rw [if_neg (by omega), if_neg (by omega), if_neg (by omega)]
  · rw [if_neg hi]
    by_cases h1 : i ≤ e₀.centre + y₁ + e₀.yRefl
    · rw [if_pos (by omega), if_pos (by omega)]
    · rw [if_neg (by omega), if_neg (by omega)]
      by_cases h2 : i ≤ e₀.centre + b + e₀.yRefl
      · rw [if_pos (by omega), if_pos (by omega)]
      · rw [if_neg (by omega), if_neg (by omega)]

theorem segment_width (e : EllipseData) (x : Int) :
    (e.segment x).last - (e.segment x).first = 2 * x + e.xRefl := by
  simp only [segment, MATH_TO_SCRX]
  omega

theorem scanLine_centre (e : EllipseData) (i : Int) :
    2 * e.scanLine i - (e.boundRect.top + e.boundRect.bottom) =
      2 * (i - e.centre) - e.yRefl := by
  simp only [scanLine, centre, yRefl]
  omega

theorem mirror_iff (e : EllipseData) (i j : Int) :
    e.scanLine i + e.scanLine j = e.boundRect.top + e.boundRect.bottom ↔
      i + j = 2 * e.centre + e.yRefl := by
  have h1 := e.scanLine_centre i
  have h2 := e.scanLine_centre j
  omega

theorem SameShape.mirror (h : SameShape e₀ e) (i j : Int) :
    e.scanLine i + e.scanLine j = e.boundRect.top + e.boundRect.bottom ↔
      i + j = 2 * e₀.centre + e₀.yRefl := by
  have hc : e.centre = e₀.centre := by
    simp only [centre, h.boundRect, h.lineWidth]
  rw [mirror_iff, hc, h.yRefl]

theorem Walked.filled (hfresh : Fresh e₀) (h : Walked e₀ e y₁ f) (hrefl : e₀.xRefl = e₀.yRefl) :
    e.Filled := by
  have hw := hfresh.toWide
  have hb := hw.b_nonneg
  have hq : 0 ≤ e₀.yRefl ∧ e₀.yRefl ≤ 1 := Walk.refl_range _
  have hroom := hw.room
  have htop := hroom.top
  have hbottom := hroom.bottom
  have hrow : ∀ i, e.ppFillData i =
      if e₀.centre - e₀.b true ≤ i ∧ i ≤ e₀.centre + e₀.b true + e₀.yRefl
      then e₀.segment (f (e₀.half i)) else emptyRow := by
    intro i
    rw [h.rows, hrefl]
    exact secondRows_same hb h.y_nonneg h.y_le i
  have hcount : ∀ i, (e.ppFillData i).count =
      if e₀.centre - e₀.b true ≤ i ∧ i ≤ e₀.centre + e₀.b true + e₀.yRefl then 2 else 0 := by
    intro i
    rw [hrow]
    split
    · rfl
    · rfl
  -- a row that is filled, and its distance from the middle
  have hfilled : ∀ i, (e.ppFillData i).count = 2 →
      e₀.centre - e₀.b true ≤ i ∧ i ≤ e₀.centre + e₀.b true + e₀.yRefl ∧
      e.ppFillData i = e₀.segment (f (e₀.half i)) ∧ 0 ≤ e₀.half i ∧ e₀.half i ≤ e₀.b true := by
    intro i hi
    rw [hcount] at hi
    by_cases hin : e₀.centre - e₀.b true ≤ i ∧ i ≤ e₀.centre + e₀.b true + e₀.yRefl
    · refine ⟨hin.1, hin.2, (hrow i).trans (if_pos hin), ?_⟩
      unfold half
      split
      · omega
      · omega
    · rw [if_neg hin] at hi
      omega
  have hrect := h.shape.boundRect
  constructor
  case segments =>
    refine ⟨e₀.centre - e₀.b true, e₀.centre + e₀.b true + e₀.yRefl, htop, by omega, ?_, hcount⟩
    rw [h.shape.rowCount]
    omega
  case mirrorRows =>
    intro i j hij
    have hsum := (h.shape.mirror i j).1 hij
    rw [hrow, hrow]
    by_cases hin : e₀.centre - e₀.b true ≤ i ∧ i ≤ e₀.centre + e₀.b true + e₀.yRefl
    · have hhalf : e₀.half i = e₀.half j := by
        unfold half
        split
        · split
          · omega
          · omega
        · split
          · omega
          · omega
      rw [if_pos hin, if_pos (by omega), hhalf]
    · rw [if_neg hin, if_neg (by omega)]
  case mirrorColumns =>
    intro i hi
    have ⟨_, _, hseg, _⟩ := hfilled i hi
    rw [hseg, hrect]
    simp only [segment, MATH_TO_SCRX, xRefl, hfresh.x]
    omega
  case inside =>
    intro i hi
    have ⟨h1, h2, hseg, h3, h4⟩ := hfilled i hi
    have hx := h.widths.nonneg (e₀.half i) (by omega) h4
    have hxa := h.widths.below (e₀.half i) (by omega) h4
    have ha : e₀.a true =
      (e₀.boundRect.right - e₀.boundRect.left) / 2 - e₀.lineWidth / 2 - e₀.lineWidth % 2 := rfl
    have hbd : e₀.b true =
      (e₀.boundRect.bottom - e₀.boundRect.top) / 2 - e₀.lineWidth / 2 - e₀.lineWidth % 2 := rfl
    have hlw := hw.lineWidth
    rw [hseg, hrect]
    simp only [segment, MATH_TO_SCRX, xRefl, hfresh.x, scanLine, hrect, h.shape.lineWidth]
    simp only [centre, yRefl] at h1 h2
    omega
  case widens =>
    intro i j hi hj hij
    have ⟨h1, h2, hseg, h3, h4⟩ := hfilled i hi
    have ⟨h5, h6, hseg', h7, h8⟩ := hfilled j hj
    rw [scanLine_centre, scanLine_centre, h.shape.yRefl] at hij
    have hc : e.centre = e₀.centre := by
      simp only [centre, h.shape.boundRect, h.shape.lineWidth]
    have hle : e₀.half j ≤ e₀.half i := by
      rw [hc, abs_le] at hij
      have ⟨_, _⟩ := hij
      have := abs_cases (2 * (i - e₀.centre) - e₀.yRefl)
      unfold half
      split
      · split
        · omega
        · omega
      · split
        · omega
        · omega
    rw [hseg, hseg', segment_width, segment_width]
    have := h.widths.mono (e₀.half j) (e₀.half i) (by omega) hle h4
    omega

/-- Other reflections leave a row without its mirror image. -/
theorem Walked.not_filled (h : Walked e₀ e y₁ f) (hrefl : e₀.xRefl ≠ e₀.yRefl) : ¬e.Filled := by
  intro hfill
  have hp : 0 ≤ e₀.xRefl ∧ e₀.xRefl ≤ 1 := Walk.refl_range _
  have hq : 0 ≤ e₀.yRefl ∧ e₀.yRefl ≤ 1 := Walk.refl_range _
  have hy₁ := h.y_nonneg
  by_cases hx : e₀.xRefl = 1
  · have hy : e₀.yRefl = 0 := by omega
    have heq := hfill.mirrorRows (e₀.centre + y₁ + 1) (e₀.centre - y₁ - 1)
      ((h.shape.mirror _ _).2 (by omega))
    have h1 : e.ppFillData (e₀.centre + y₁ + 1) = e₀.segment (f y₁) := by
      have hi : e₀.centre + y₁ + 1 - e₀.centre - 1 = y₁ := by omega
      rw [h.rows, secondRows, hx, if_pos (by omega), hi]
    by_cases hyb : y₁ < e₀.b true
    · have h2 : e.ppFillData (e₀.centre - y₁ - 1) = e₀.segment (f (y₁ + 1)) := by
        have hi : e₀.centre - (e₀.centre - y₁ - 1) = y₁ + 1 := by omega
        rw [h.rows, secondRows, if_neg (by omega), if_pos (by omega), hi]
      rw [h1, h2] at heq
      have hwidth := segment_width e₀ (f y₁)
      rw [heq, segment_width] at hwidth
      have := h.wider hyb
      omega
    · have h2 : e.ppFillData (e₀.centre - y₁ - 1) = emptyRow := by
        rw [h.rows, secondRows, if_neg (by omega), if_neg (by omega), if_neg (by omega)]
      rw [h1, h2] at heq
      have hcount := congrArg FillRow.count heq
      cases hcount
  · have hx0 : e₀.xRefl = 0 := by omega
    have hy : e₀.yRefl = 1 := by omega
    have heq := hfill.mirrorRows (e₀.centre - y₁) (e₀.centre + y₁ + 1)
      ((h.shape.mirror _ _).2 (by omega))
    have h1 : (e.ppFillData (e₀.centre - y₁)).count = 2 := by
      rw [h.rows, secondRows]
      by_cases h0 : y₁ = 0
      · rw [if_pos (by omega)]
        rfl
      · have hyb := h.y_le
        rw [if_neg (by omega), if_pos (by omega)]
        rfl
    have h2 : e.ppFillData (e₀.centre + y₁ + 1) = emptyRow := by
      rw [h.rows, secondRows, if_neg (by omega), if_neg (by omega), if_neg (by omega)]
    rw [heq, h2] at h1
    cases h1

theorem fillsInner_iff (h : Fresh e₀) (hf : SquaredTermsFit (e₀.a true) (e₀.b true)) :
    e₀.FillsInner ↔ e₀.xRefl = e₀.yRefl := by
  have ⟨hspec, fuel, e', hrun⟩ := uglEllipseGet_spec h hf
  constructor
  · intro ⟨fuel', e, he, hfill⟩
    have ⟨_, _, hwalked⟩ := hspec fuel' e he
    by_contra hrefl
    exact hwalked.not_filled hrefl hfill
  · intro hrefl
    have ⟨_, _, hwalked⟩ := hspec fuel e' hrun
    exact ⟨fuel, e', hrun, hwalked.filled h hrefl⟩

end Final

end EllipseData

/-- The inner ellipse is filled right exactly when the width and the height of the bounding
rectangle are both odd or both even. -/
theorem inner_fill_iff (boundRect : Rect) (startArc endArc : Point) (lineWidth : Int)
    (h0 : 0 ≤ lineWidth) (h1 : lineWidth < boundRect.right - boundRect.left)
    (h2 : lineWidth < boundRect.bottom - boundRect.top)
    (hf : SquaredTermsFit ((setup boundRect startArc endArc lineWidth).a true)
      ((setup boundRect startArc endArc lineWidth).b true)) :
    (setup boundRect startArc endArc lineWidth).FillsInner ↔
      (boundRect.right - boundRect.left) % 2 = (boundRect.bottom - boundRect.top) % 2 :=
  fillsInner_iff (Fresh.setup startArc endArc h0 h1 h2) hf

theorem squaredTermsFit_one : SquaredTermsFit 1 1 := by
  intro x y hx hxa hy hyb
  interval_cases x
  all_goals
    interval_cases y
    all_goals
      unfold Fits
      omega

theorem inner_fill_square :
    (setup ⟨0, 0, 2, 2⟩ ⟨0, 0⟩ ⟨0, 0⟩ 0).FillsInner ↔ (2 - 0 : Int) % 2 = (2 - 0) % 2 :=
  inner_fill_iff ⟨0, 0, 2, 2⟩ ⟨0, 0⟩ ⟨0, 0⟩ 0 (by decide) (by decide) (by decide)
    squaredTermsFit_one

/-- A rectangle of odd width and even height. -/
theorem inner_not_filled :
    ¬∀ (boundRect : Rect) (startArc endArc : Point) (lineWidth : Int), 0 ≤ lineWidth →
      lineWidth < boundRect.right - boundRect.left →
      lineWidth < boundRect.bottom - boundRect.top →
      SquaredTermsFit ((setup boundRect startArc endArc lineWidth).a true)
        ((setup boundRect startArc endArc lineWidth).b true) →
      (setup boundRect startArc endArc lineWidth).FillsInner := by
  intro h
  have hfill := h ⟨0, 0, 3, 2⟩ ⟨0, 0⟩ ⟨0, 0⟩ 0 (by decide) (by decide) (by decide)
    squaredTermsFit_one
  have hfresh := @Fresh.setup ⟨0, 0, 3, 2⟩ 0 ⟨0, 0⟩ ⟨0, 0⟩ (by decide) (by decide) (by decide)
  have hrefl := (fillsInner_iff hfresh squaredTermsFit_one).1 hfill
  exact absurd hrefl (by decide)
end Vmx.Ugl
