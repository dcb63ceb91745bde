import Mathlib.Algebra.Order.Ring.Int
import Mathlib.Logic.Function.Basic
import Vmx.Ugl.GenClip

/-!
# `udgenelp`: the rows of an ellipse

`uglEllipseGet` walks a quarter of the ellipse from its top to its right end, in a loop for
the flat part and a loop for the steep part.  For each scan line it leaves it writes a segment
to the row of that line and to the row of its mirror image.

The rows are `ppFillData` for the inner ellipse and `ppExtData` for the outer one, both of
the length `uglEllipseAlloc` gives them: a write to another row fails.  The products of
the error term are taken in `UGL_INT32`, by `wrap32`.  The positions are `int`s of the source
that do not overflow.  The loops have fuel, and return `none` without it.
-/

namespace Vmx.Ugl

/-- A value of `UGL_INT32`, wrapped to 32 bits. -/
def wrap32 (z : Int) : Int := Int.bmod z 4294967296

/-- A row of the fill data: the number of `x` values, and the two that `uglEllipseGet`
writes. -/
structure FillRow where
  count : Int
  first : Int
  last : Int
  deriving DecidableEq

/-- The fields of `UGL_ELLIPSE_DATA` that `uglEllipseGet` uses. -/
structure EllipseData where
  lineWidth : Int
  ppFillData : Int → FillRow
  ppExtData : Int → FillRow
  boundRect : Rect
  startArc : Point
  endArc : Point
  x : Int
  y : Int
  innerStartX : Int
  innerEndX : Int
  innerStartY : Int
  innerEndY : Int
  outerStartX : Int
  outerEndX : Int
  outerStartY : Int
  outerEndY : Int

def INT_MIN : Int := -2147483648

def INT_MAX : Int := 2147483647

def SIGN (a : Int) : Int := if a < 0 then -1 else 1

namespace EllipseData

def MATH_TO_SCRX (e : EllipseData) (x : Int) : Int := x + e.x

def MATH_TO_SCRY (e : EllipseData) (y : Int) : Int := e.y - y

def SCR_TO_MATHX (e : EllipseData) (x : Int) : Int := x - e.x

def SCR_TO_MATHY (e : EllipseData) (y : Int) : Int := e.y - y

def MATH_TO_ARRAYY (e : EllipseData) (y : Int) : Int :=
  (e.boundRect.bottom - e.boundRect.top) / 2 - y

/-- The number of rows of `uglEllipseAlloc`. -/
def rowCount (e : EllipseData) : Int :=
  e.boundRect.bottom - e.boundRect.top + 1 + e.lineWidth + 2

def xRefl (e : EllipseData) : Int := (e.boundRect.right - e.boundRect.left) % 2

def yRefl (e : EllipseData) : Int := (e.boundRect.bottom - e.boundRect.top) % 2

/-- The horizontal radius. -/
def a (e : EllipseData) (inner : Bool) : Int :=
  if inner then (e.boundRect.right - e.boundRect.left) / 2 - e.lineWidth / 2 - e.lineWidth % 2
  else (e.boundRect.right - e.boundRect.left) / 2 + e.lineWidth / 2

/-- The vertical radius. -/
def b (e : EllipseData) (inner : Bool) : Int :=
  if inner then (e.boundRect.bottom - e.boundRect.top) / 2 - e.lineWidth / 2 - e.lineWidth % 2
  else (e.boundRect.bottom - e.boundRect.top) / 2 + e.lineWidth / 2

/-- `pData = ppData[i]`, and the values of a row. -/
def rowSet (inner : Bool) (e : EllipseData) (i : Int) (row : FillRow) : Option EllipseData :=
  if 0 ≤ i ∧ i < e.rowCount then
    if inner then some { e with ppFillData := Function.update e.ppFillData i row }
    else some { e with ppExtData := Function.update e.ppExtData i row }
  else none

/-- The segment from `-x` to `x`, with the reflection of an odd width. -/
def segment (e : EllipseData) (x : Int) : FillRow where
  count := 2
  first := e.MATH_TO_SCRX (-x)
  last := e.MATH_TO_SCRX (x + e.xRefl)

/-- The segment of `x` in the row of `y`, and in the row of `-(y + refl)`. -/
def rowsSet (inner : Bool) (e : EllipseData) (y refl x : Int) : Option EllipseData :=
  match rowSet inner e (e.MATH_TO_ARRAYY y + e.lineWidth / 2) (e.segment x) with
  | none => none
  | some e => rowSet inner e (e.MATH_TO_ARRAYY (-(y + refl)) + e.lineWidth / 2) (e.segment x)

/-- `uglEllipseIntersectStart`: the point of the ellipse closest to the ray of the arc's
start, and the new minimum error. -/
def uglEllipseIntersectStart (e : EllipseData) (x y minError : Int) (inner : Bool) :
    EllipseData × Int :=
  let x := if SIGN (e.SCR_TO_MATHX e.startArc.x) = -1 then -x else x + e.xRefl
  let y := if SIGN (e.SCR_TO_MATHY e.startArc.y) = -1 then -y - e.yRefl else y
  let errorValue :=
    |wrap32 (e.SCR_TO_MATHX e.startArc.x * y - e.SCR_TO_MATHY e.startArc.y * x)|
  if errorValue < minError then
    if inner then
      ({ e with innerStartX := e.MATH_TO_SCRX x, innerStartY := e.MATH_TO_SCRY y }, errorValue)
    else
      ({ e with outerStartX := e.MATH_TO_SCRX x, outerStartY := e.MATH_TO_SCRY y }, errorValue)
  else (e, minError)

/-- The call of `uglEllipseIntersectStart` while the error is positive. -/
def intersect (e : EllipseData) (x y minError : Int) (inner : Bool) : EllipseData × Int :=
  if minError > 0 then e.uglEllipseIntersectStart x y minError inner else (e, minError)

end EllipseData

/-- The variables that the loops of `uglEllipseGet` change. -/
structure Walk where
  x : Int
  y : Int
  d : Int
  xMax : Int
  minStartError : Int
  minEndError : Int
  e : EllipseData

namespace Walk

/-- The two calls at the start of each round. -/
def intersects (inner : Bool) (w : Walk) : Walk :=
  let start := w.e.intersect w.x w.y w.minStartError inner
  let last := start.1.intersect w.x w.y w.minEndError inner
  { w with minStartError := start.2, minEndError := last.2, e := last.1 }

/-- The test of the first loop. -/
def flat (a b : Int) (w : Walk) : Bool :=
  wrap32 (a * a * (2 * w.y - 1)) > wrap32 (2 * b * b * (w.x + 1))

/-- The body of the first loop. -/
def firstBody (inner : Bool) (a b : Int) (w : Walk) : Option Walk :=
  let w := w.intersects inner
  let w := if w.x > w.xMax then { w with xMax := w.x } else w
  if w.d < 0 then
    some { w with d := wrap32 (w.d + b * b * (8 * w.x + 12)), x := w.x + 1 }
  else
    match w.e.rowsSet inner w.y w.e.yRefl w.xMax with
    | none => none
    | some e =>
      some { w with
        e := e
        xMax := INT_MIN
        d := wrap32 (w.d + (b * b * (8 * w.x + 12) + a * a * (-8 * w.y + 8)))
        y := w.y - 1
        x := w.x + 1 }

def firstLoop (inner : Bool) (a b : Int) : Nat → Walk → Option Walk
  | 0, _ => none
  | fuel + 1, w =>
    if w.flat a b then
      match w.firstBody inner a b with
      | none => none
      | some w => firstLoop inner a b fuel w
    else some w

/-- The body of the second loop, which mirrors a row with `xRefl`. -/
def secondBody (inner : Bool) (a b : Int) (w : Walk) : Option Walk :=
  let w := w.intersects inner
  match w.e.rowsSet inner w.y w.e.xRefl w.x with
  | none => none
  | some e =>
    if w.d < 0 then
      some { w with
        e := e
        d := wrap32 (w.d + (8 * b * b * (w.x + 1) + a * a * (-8 * w.y + 12)))
        x := w.x + 1
        y := w.y - 1 }
    else
      some { w with e := e, d := wrap32 (w.d + a * a * (-8 * w.y + 12)), y := w.y - 1 }

def secondLoop (inner : Bool) (a b : Int) : Nat → Walk → Option Walk
  | 0, _ => none
  | fuel + 1, w =>
    if w.y ≥ 0 then
      match w.secondBody inner a b with
      | none => none
      | some w => secondLoop inner a b fuel w
    else some w

/-- The assignments before the first loop. -/
def start (a b minError : Int) (e : EllipseData) : Walk where
  x := 0
  y := b
  d := wrap32 (a * a - 4 * b * (a * a - b))
  xMax := INT_MIN
  minStartError := minError
  minEndError := minError
  e := e

/-- The assignments between the loops. -/
def turn (a b : Int) (w : Walk) : Walk :=
  { w with
    xMax := INT_MIN
    d := wrap32 (b * b * (2 * w.x + 1) * (2 * w.x + 1) +
      4 * a * a * (w.y - 1) * (w.y - 1) - 4 * a * a * b * b) }

end Walk

namespace EllipseData

/-- The intersection points before the walk. -/
def centered (e : EllipseData) (inner : Bool) : EllipseData :=
  if inner then
    { e with
      innerStartX := e.MATH_TO_SCRX 0
      innerStartY := e.MATH_TO_SCRY 0
      innerEndX := e.MATH_TO_SCRX 0
      innerEndY := e.MATH_TO_SCRY 0 }
  else
    { e with
      outerStartX := e.MATH_TO_SCRX 0
      outerStartY := e.MATH_TO_SCRY 0
      outerEndX := e.MATH_TO_SCRX 0
      outerEndY := e.MATH_TO_SCRY 0 }

/-- `uglEllipseGet`. -/
def uglEllipseGet (fuel : Nat) (e : EllipseData) (inner : Bool) : Option EllipseData :=
  let a := e.a inner
  let b := e.b inner
  let e := e.centered inner
  if a ≥ 0 ∧ b ≥ 0 then
    let minError := if e.startArc.x = e.endArc.x ∧ e.startArc.y = e.endArc.y then 0 else INT_MAX
    match (Walk.start a b minError e).firstLoop inner a b fuel with
    | none => none
    | some w =>
      match (w.turn a b).secondLoop inner a b fuel with
      | none => none
      | some w => some w.e
  else some e

/-- A row after the `memset` of `uglEllipseAlloc`. -/
def emptyRow : FillRow := ⟨0, 0, 0⟩

/-- The data that `uglGenericEllipse` sets up, with the memory of `uglEllipseAlloc`.  What
`uglEllipseGet` sets before it reads is left at zero. -/
def setup (boundRect : Rect) (startArc endArc : Point) (lineWidth : Int) : EllipseData where
  lineWidth := lineWidth
  ppFillData := fun _ => emptyRow
  ppExtData := fun _ => emptyRow
  boundRect := boundRect
  startArc := startArc
  endArc := endArc
  x := (boundRect.left + boundRect.right) / 2
  y := (boundRect.bottom + boundRect.top) / 2
  innerStartX := 0
  innerEndX := 0
  innerStartY := 0
  innerEndY := 0
  outerStartX := 0
  outerEndX := 0
  outerStartY := 0
  outerEndY := 0

end EllipseData

end Vmx.Ugl
