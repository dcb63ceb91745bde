import Mathlib.Data.List.Sort
import Mathlib.Data.Int.Order.Basic
import Vmx.Ugl.GenClip

/-!
# `udgenply`: the fill data of polygons

`uglGenericPolygon` collects for each visible scan line the sorted x values at which the outline
crosses it.  Each edge that is not horizontal gives one point on each of its rows; its first one is
left out when the outline goes on in the direction of the edge before.  Afterwards a horizontal
edge between two edges of one direction moves the value on its scan line to its other end, when
that is further out.

The scratch buffer is not cleared: `Scratch` is what it holds before the call.
-/

namespace Vmx.Ugl

/-! ## The points of an edge -/

/-- The loop of `uglLineDataGetBoundary`, for the number of rows to the second end. -/
def boundaryRows (kx sx sy majorError minorError : Int) : Nat → Point → Int → List Point
  | 0, _, _ => []
  | rows + 1, p, errorValue =>
    let errorValue := errorValue + majorError
    let q : Point :=
      { x := if errorValue ≥ 0 then p.x + kx + sx else p.x + kx
        y := p.y + sy }
    q :: boundaryRows kx sx sy majorError minorError rows q
      (if errorValue ≥ 0 then errorValue - minorError else errorValue)

/-- `uglLineDataGetBoundary`: a point for each row of an edge, when the buffer has room for them
or is allocated here (-1). -/
def uglLineDataGetBoundary (p1 p2 : Point) (bufSize : Int) : Option (List Point) :=
  if p1.y = p2.y then some []
  else if bufSize = -1 ∨ bufSize ≥ (p2.y - p1.y).natAbs + 1 then
    let dx := p2.x - p1.x
    let ex := 2 * dx
    let sx : Int := if dx > 0 then 1 else -1
    let dy := p2.y - p1.y
    let ey := 2 * dy
    let sy : Int := if dy > 0 then 1 else -1
    let kx := dx.tdiv dy * sy
    some (p1 :: boundaryRows kx sx sy ((ex - kx * ey * sy) * sx) (ey * sy)
      (p2.y - p1.y).natAbs p1 (-dy * sy))
  else none

/-! ## Scan lines -/

/-- The data of a scan line: the values `pScanData[1]` to `pScanData[pScanData[0]]`, the entries
behind them and the last entry that has been written. -/
structure ScanLine where
  points : List Int
  rest : Nat → Int
  written : Nat

namespace ScanLine

/-- A value is put in front of the first one that is greater. -/
def insert (line : ScanLine) (x : Int) : ScanLine where
  points := line.points.orderedInsert (· < ·) x
  rest := fun k => line.rest (k + 1)
  written := max line.written (line.points.length + 1)

/-- The change for a horizontal edge, where `v` is the entry `k`: the last of the entries equal to
`xMin` becomes `xMax` when its number is even, and the first of those equal to another `v` becomes
`xMin` when its number is odd.  The new value then moves to its place. -/
def adjusted (xMin xMax : Int) (before : List Int) (v : Int) (after : List Int) : List Int :=
  if v = xMin then
    let same := after.takeWhile (· = v)
    if (before.length + 1 + same.length) % 2 = 0 then
      before ++ same ++ (after.dropWhile (· = v)).orderedInsert (· ≤ ·) xMax
    else before ++ v :: after
  else
    let same := before.reverse.takeWhile (· = v)
    if (before.length + 1 - same.length) % 2 ≠ 0 then
      ((before.reverse.dropWhile (· = v)).orderedInsert (· ≥ ·) xMin).reverse ++ same ++ after
    else before ++ v :: after

/-- The entries before the first one that is `xMin` or `xMax`. -/
def unlike (xMin xMax x : Int) : Bool := x ≠ xMin ∧ x ≠ xMax

/-- The change for a horizontal edge.  Without a value that is `xMin` or `xMax` the source goes on
with the entry behind the last one. -/
def adjust (line : ScanLine) (xMin xMax : Int) : ScanLine :=
  let before := line.points.takeWhile (unlike xMin xMax)
  match line.points.dropWhile (unlike xMin xMax) with
  | v :: after => { line with points := adjusted xMin xMax before v after }
  | [] =>
    let cells := adjusted xMin xMax before (line.rest 0) []
    { points := cells.dropLast
      rest := fun k => if k = 0 then cells.getLastD 0 else line.rest k
      written := max line.written (line.points.length + 1) }

end ScanLine

/-! ## Polygons -/

/-- A closed polygon. -/
structure Polygon where
  pointArray : List Point
  three : 3 ≤ pointArray.length
  closed : pointArray.head? = pointArray.getLast?
  isInt : ∀ p ∈ pointArray, -2147483648 ≤ p.y ∧ p.y ≤ 2147483647

/-- The rectangles of the graphics context. -/
structure PolyGc where
  clipRect : Rect
  viewPort : Rect

/-- A point of the view port. -/
def PolyGc.move (gc : PolyGc) (p : Point) : Point where
  x := p.x + gc.viewPort.left
  y := p.y + gc.viewPort.top

/-- What the scratch buffer holds before the call: the entries of the scan lines, and what the
unset number of points makes of the line buffer. -/
structure Scratch where
  rest : Int → Nat → Int
  line : List Point

abbrev PolyEdge := Point × Point

def edges (pointArray : List Point) : List PolyEdge := pointArray.zip pointArray.tail

/-- The sign of a difference. -/
def slopeSign (d : Int) : Int := if d > 0 then 1 else if d < 0 then -1 else 0

/-- The first `prevSlope`: the direction of the last edge that is not horizontal. -/
def lastSlope (pointArray : List Point) : Int :=
  (((edges pointArray).reverse.find? fun e => e.2.y - e.1.y ≠ 0).map
    fun e => slopeSign (e.2.y - e.1.y)).getD 0

section Lines

variable (gc : PolyGc) (pointArray : List Point)

/-- The first visible scan line. -/
def yMin : Int :=
  let y := pointArray.foldl (fun y p => if p.y < y then p.y else y) 2147483647 + gc.viewPort.top
  if y < gc.clipRect.top + gc.viewPort.top then gc.clipRect.top + gc.viewPort.top else y

/-- The last visible scan line. -/
def yMax : Int :=
  let y := pointArray.foldl (fun y p => if p.y > y then p.y else y) (-2147483648) + gc.viewPort.top
  if y > gc.clipRect.bottom + gc.viewPort.top then gc.clipRect.bottom + gc.viewPort.top else y

def numLines : Int := yMax gc pointArray - yMin gc pointArray + 1

end Lines

/-! ## The edges -/

/-- The state of the loop over the edges: `ppFillData[y - yMin]` is `rows y`, and `line` the
`numLinePoints` points of `pLineData`. -/
structure FillState where
  rows : Int → ScanLine
  line : List Point
  prevSlope : Int

def fillPoint (yMin yMax : Int) (rows : Int → ScanLine) (p : Point) : Int → ScanLine :=
  if p.y ≥ yMin ∧ p.y ≤ yMax then Function.update rows p.y ((rows p.y).insert p.x) else rows

/-- One round of the loop over the edges.  When the line buffer is too small for an edge, its
points are still those of the edge before. -/
def fillEdge (gc : PolyGc) (yMin yMax : Int) (st : FillState) (e : PolyEdge) : FillState :=
  if e.1.y = e.2.y then st
  else
    let currSlope : Int := if e.2.y - e.1.y > 0 then 1 else -1
    let line :=
      (uglLineDataGetBoundary (gc.move e.1) (gc.move e.2) (yMax - yMin + 1)).getD st.line
    let lineIndex := if currSlope = st.prevSlope then 1 else 0
    { rows := (line.drop lineIndex).foldl (fillPoint yMin yMax) st.rows
      line := line
      prevSlope := currSlope }

/-! ## The horizontal edges -/

/-- The loop for the next edge that is not horizontal.  It ends at `i` after one turn. -/
def nextSlope (pointArray : Nat → Point) (numPoints i : Nat) : Nat → Nat → Int × Nat
  | 0, j => (0, j)
  | rounds + 1, j =>
    let next :=
      if j = numPoints - 2 then (pointArray 1).y - (pointArray 0).y
      else (pointArray (j + 2)).y - (pointArray (j + 1)).y
    let j := if j + 1 ≥ numPoints - 1 then 0 else j + 1
    if next ≠ 0 ∨ j = i then (next, j) else nextSlope pointArray numPoints i rounds j

/-- `xMin` and `xMax` for the horizontal edge `i`, when the outline comes to it and goes on in one
direction. -/
def stepAt (points : List Point) (i : Nat) : Option (Int × Int) :=
  let numPoints := points.length
  let pointArray := fun k => points.getD k { x := 0, y := 0 }
  if (pointArray i).y = (pointArray (i + 1)).y then
    let prevSlope :=
      if i = 0 then (pointArray (numPoints - 1)).y - (pointArray (numPoints - 2)).y
      else (pointArray i).y - (pointArray (i - 1)).y
    -- the source stores another `prevSlope` after other edges, which nothing reads
    let next := nextSlope pointArray numPoints i (numPoints - 1) i
    if prevSlope ≠ 0 ∧ slopeSign next.1 = slopeSign prevSlope then
      let x := (pointArray i).x
      let x' := (pointArray next.2).x
      some (if x ≤ x' then (x, x') else (x', x))
    else none
  else none

/-- The scan line of the edge `i`. -/
def edgeLine (gc : PolyGc) (points : List Point) (i : Nat) : Int :=
  (points.getD i { x := 0, y := 0 }).y + gc.viewPort.top

/-- The change of a scan line for the edge `i`. -/
def stepLine (gc : PolyGc) (points : List Point) (i : Nat) (line : ScanLine) : ScanLine :=
  match stepAt points i with
  | some x => line.adjust (x.1 + gc.viewPort.left) (x.2 + gc.viewPort.left)
  | none => line

/-- One round of the loop for the horizontal edges. -/
def fillStep (gc : PolyGc) (points : List Point) (yMin yMax : Int) (rows : Int → ScanLine)
    (i : Nat) : Int → ScanLine :=
  let y := edgeLine gc points i
  if y ≥ yMin ∧ y < yMax then Function.update rows y (stepLine gc points i (rows y)) else rows

/-! ## The fill data -/

/-- The scan lines after the loop over the edges. -/
def edgeRows (gc : PolyGc) (points : List Point) (scratch : Scratch) : Int → ScanLine :=
  ((edges points).foldl (fillEdge gc (yMin gc points) (yMax gc points))
    { rows := fun y => { points := [], rest := scratch.rest y, written := 0 }
      line := scratch.line
      prevSlope := lastSlope points }).rows

/-- `ppFillData` of `uglGenericPolygon`, when it calls the driver. -/
def fillData (gc : PolyGc) (points : List Point) (scratch : Scratch) : Int → ScanLine :=
  (List.range (points.length - 1)).foldl
    (fillStep gc points (yMin gc points) (yMax gc points)) (edgeRows gc points scratch)

end Vmx.Ugl
