import Vmx.Lib.InPlace
import Vmx.Ugl.BitmapBlt

/-!
# `udgenlin`: thin solid lines

`uglGenericLine` clips a line of one pixel to each rectangle of the clip list and passes what is
left to `hLine`, `vLine` or `bresenhamLine`.  For a slanted line it looks for a start and an end
in the rectangle: the end points, or rounded crossings with the edges, to the left, above, to the
right and below in this order.  The positions are `int`s of the source that do not overflow.

The calls of the driver are a list, and `LineCall.points` are the pixels that one sets.
-/

namespace Vmx.Ugl

open Vmx.Lib

/-! ## The calls of the driver -/

/-- A call of the driver, for a run of pixels. -/
inductive LineCall where
  | hLine (y left right : Int)
  | vLine (x top bottom : Int)
  | bresenhamLine (startPoint : Point) (numPoints : Int) (xMajor : Bool)
      (majorInc minorInc errorValue majorErrorInc minorErrorInc : Int)

/-- The pixels of `uglGeneric8BitBresenhamLine`.  The source moves a pointer by the stride of the
bitmap instead of the row. -/
def bresenhamPoints (xMajor : Bool) (majorInc minorInc majorErrorInc minorErrorInc : Int) :
    Nat → Point → Int → List Point
  | 0, _, _ => []
  | numPoints + 1, p, errorValue =>
    let moved : Point :=
      if errorValue ≥ 0 then
        if xMajor then { p with y := p.y + minorInc } else { p with x := p.x + minorInc }
      else p
    p :: bresenhamPoints xMajor majorInc minorInc majorErrorInc minorErrorInc numPoints
      (if xMajor then { moved with x := moved.x + majorInc }
        else { moved with y := moved.y + majorInc })
      ((if errorValue ≥ 0 then errorValue + minorErrorInc else errorValue) + majorErrorInc)

/-- The pixels of a call. -/
def LineCall.points : LineCall → List Point
  | hLine y left right => (coords false left right).map fun x => { x := x, y := y }
  | vLine x top bottom => (coords false top bottom).map fun y => { x := x, y := y }
  | bresenhamLine startPoint numPoints xMajor majorInc minorInc errorValue majorErrorInc
      minorErrorInc =>
    bresenhamPoints xMajor majorInc minorInc majorErrorInc minorErrorInc numPoints.toNat
      startPoint errorValue

/-! ## Lines along the axes -/

/-- The body of the clip loop for a horizontal or vertical line. -/
def straightLine (pt1 pt2 : Point) (clipRect : Rect) : List LineCall :=
  if pt1.y = pt2.y ∧ pt1.y ≥ clipRect.top ∧ pt1.y ≤ clipRect.bottom then
    let x1 := max (if pt1.x > pt2.x then pt2.x else pt1.x) clipRect.left
    let x2 := min (if pt1.x > pt2.x then pt1.x else pt2.x) clipRect.right
    if x2 ≥ x1 then [.hLine pt1.y x1 x2] else []
  else if pt1.x = pt2.x ∧ pt1.x ≥ clipRect.left ∧ pt1.x ≤ clipRect.right then
    let y1 := max (if pt1.y > pt2.y then pt2.y else pt1.y) clipRect.top
    let y2 := min (if pt1.y > pt2.y then pt1.y else pt2.y) clipRect.bottom
    if y2 ≥ y1 then [.vLine pt1.x y1 y2] else []
  else []

/-! ## Slanted lines -/

/-- The variables that are set before the clip loop. -/
structure LineSteps where
  dx : Int
  ex : Int
  dy : Int
  ey : Int
  xMajor : Bool
  majorInc : Int
  minorInc : Int
  majorErrorInc : Int
  minorErrorInc : Int
  startError : Int

def lineSteps (p1 p2 : Point) : LineSteps :=
  let dx := p2.x - p1.x
  let ex := 2 * dx
  let dy := p2.y - p1.y
  let ey := 2 * dy
  let xMajor := decide (dx.natAbs ≥ dy.natAbs)
  let majorErrorInc : Int := if xMajor then ey.natAbs else ex.natAbs
  let minorErrorInc : Int := if xMajor then -ex.natAbs else -ey.natAbs
  { dx := dx
    ex := ex
    dy := dy
    ey := ey
    xMajor := xMajor
    majorInc := if xMajor then (if dx > 0 then 1 else -1) else if dy > 0 then 1 else -1
    minorInc := if xMajor then (if dy > 0 then 1 else -1) else if dx > 0 then 1 else -1
    majorErrorInc := majorErrorInc
    minorErrorInc := minorErrorInc
    startError := majorErrorInc + minorErrorInc.tdiv 2 }

/-- The start and the end of the visible part, as far as they are found. -/
structure LineEnds where
  startPoint : Point
  startPointFound : Bool
  endPoint : Point
  endPointFound : Bool

/-- Where a line crosses the place `edge` of one axis, on the other axis. -/
def crossing (u1 v1 du eu ev edge : Int) : Int :=
  let u := edge - u1
  if ev ≥ 0 then v1 + (ev * u + du).tdiv eu else v1 + (ev * u - du).tdiv eu

/-- The test for one edge: the line comes over it (`before` and `beyond`) or leaves over it
(`after` and `back`), and crosses it in the rectangle at `q`. -/
def edgeTest (before beyond after back within : Bool) (q : Point) (ends : LineEnds) : LineEnds :=
  if (ends.startPointFound = false ∧ before ∧ beyond) ∨
      (ends.endPointFound = false ∧ after ∧ back) then
    if within then
      if before then { ends with startPoint := q, startPointFound := true }
      else { ends with endPoint := q, endPointFound := true }
    else ends
  else ends

section Tests

variable (st : LineSteps) (pt1 pt2 : Point) (clipRect : Rect)

/-- The end points in the clip rectangle. -/
def endsInside : LineEnds where
  startPoint := if clipRect.Contains pt1 then pt1 else { x := 0, y := 0 }
  startPointFound := clipRect.Contains pt1
  endPoint := if clipRect.Contains pt2 then pt2 else { x := 0, y := 0 }
  endPointFound := clipRect.Contains pt2

def leftTest : LineEnds → LineEnds :=
  let y := crossing pt1.x pt1.y st.dx st.ex st.ey clipRect.left
  edgeTest (pt1.x < clipRect.left) (pt2.x > clipRect.left) (pt1.x > clipRect.left)
    (pt2.x < clipRect.left) (y ≥ clipRect.top ∧ y ≤ clipRect.bottom) { x := clipRect.left, y := y }

def topTest : LineEnds → LineEnds :=
  let x := crossing pt1.y pt1.x st.dy st.ey st.ex clipRect.top
  edgeTest (pt1.y < clipRect.top) (pt2.y > clipRect.top) (pt1.y > clipRect.top)
    (pt2.y < clipRect.top) (x ≥ clipRect.left ∧ x ≤ clipRect.right) { x := x, y := clipRect.top }

def rightTest : LineEnds → LineEnds :=
  let y := crossing pt1.x pt1.y st.dx st.ex st.ey clipRect.right
  edgeTest (pt1.x > clipRect.right) (pt2.x < clipRect.right) (pt1.x < clipRect.right)
    (pt2.x > clipRect.right) (y ≥ clipRect.top ∧ y ≤ clipRect.bottom)
    { x := clipRect.right, y := y }

def bottomTest : LineEnds → LineEnds :=
  let x := crossing pt1.y pt1.x st.dy st.ey st.ex clipRect.bottom
  edgeTest (pt1.y > clipRect.bottom) (pt2.y < clipRect.bottom) (pt1.y < clipRect.bottom)
    (pt2.y > clipRect.bottom) (x ≥ clipRect.left ∧ x ≤ clipRect.right)
    { x := x, y := clipRect.bottom }

/-- The start and the end in one clip rectangle. -/
def lineEnds : LineEnds :=
  bottomTest st pt1 pt2 clipRect (rightTest st pt1 pt2 clipRect
    (topTest st pt1 pt2 clipRect (leftTest st pt1 pt2 clipRect (endsInside pt1 pt2 clipRect))))

/-- The body of the clip loop for a slanted line. -/
def slantedLine : List LineCall :=
  let ends := lineEnds st pt1 pt2 clipRect
  if ends.startPointFound ∧ ends.endPointFound then
    let fromX : Int := (ends.startPoint.x - pt1.x).natAbs
    let fromY : Int := (ends.startPoint.y - pt1.y).natAbs
    let numPoints : Int :=
      if st.xMajor then (ends.endPoint.x - ends.startPoint.x).natAbs + 1
      else (ends.endPoint.y - ends.startPoint.y).natAbs + 1
    let errorValue :=
      if st.xMajor then st.startError + fromX * st.majorErrorInc + fromY * st.minorErrorInc
      else st.startError + fromY * st.majorErrorInc + fromX * st.minorErrorInc
    [.bresenhamLine ends.startPoint numPoints st.xMajor st.majorInc st.minorInc errorValue
      st.majorErrorInc st.minorErrorInc]
  else []

end Tests

/-- A point of the view port. -/
def viewPoint (dev : BltDevice) (p : Point) : Point where
  x := p.x + dev.viewPort.left
  y := p.y + dev.viewPort.top

/-- The clip rectangles of `UGL_CLIP_LOOP_START`. -/
def clipLoop (dev : BltDevice) : List Rect := uglClipListSortedGet dev true false

/-- The calls for one clip rectangle. -/
def lineCalls (dev : BltDevice) (p1 p2 : Point) : Rect → List LineCall :=
  if p1.x = p2.x ∨ p1.y = p2.y then straightLine (viewPoint dev p1) (viewPoint dev p2)
  else slantedLine (lineSteps p1 p2) (viewPoint dev p1) (viewPoint dev p2)

/-- `uglGenericLine` for a solid line of width 1 in a colour: the calls of the driver. -/
def uglGenericLine (dev : BltDevice) (p1 p2 : Point) : List LineCall :=
  (clipLoop dev).flatMap (lineCalls dev p1 p2)

/-- The pixels that are set, in order. -/
def linePoints (dev : BltDevice) (p1 p2 : Point) : List Point :=
  (uglGenericLine dev p1 p2).flatMap LineCall.points

end Vmx.Ugl
