import Mathlib.Algebra.Order.Ring.Int
import Mathlib.Data.Set.Basic

/-!
# `udgenclp`: clipping of bitmap transfers

A transfer takes the pixels of a source rectangle to the same places relative to a
destination point.  The three functions clip it to the source bitmap and to the destination,
and move the point and the rectangle along.  The positions are `int`s of the source that do
not overflow.

`pairs` is the set of pixel pairs of a transfer, and `Clips` says what clipping has to do to
it.  `clipDdbToDdb_clips` is the result for the function that moves the destination after the
first clip, and `clipDib_clips_iff` for the two that do not.
-/

namespace Vmx.Ugl

/-- `UGL_RECT`. -/
structure Rect where
  left : Int
  top : Int
  right : Int
  bottom : Int
  deriving DecidableEq

/-- `UGL_POINT`. -/
structure Point where
  x : Int
  y : Int
  deriving DecidableEq

theorem point_eq {p q : Point} (hx : p.x = q.x) (hy : p.y = q.y) : p = q := by
  cases p
  cases q
  exact congrArg₂ Point.mk hx hy

def UGL_RECT_WIDTH (r : Rect) : Int := r.right - r.left + 1

def UGL_RECT_HEIGHT (r : Rect) : Int := r.bottom - r.top + 1

def UGL_RECT_MOVE (r : Rect) (dx dy : Int) : Rect where
  left := r.left + dx
  right := r.right + dx
  top := r.top + dy
  bottom := r.bottom + dy

def UGL_RECT_SIZE_TO (r : Rect) (w h : Int) : Rect :=
  { r with right := r.left + w - 1, bottom := r.top + h - 1 }

def UGL_RECT_INTERSECT (r1 r2 : Rect) : Rect where
  top := max r1.top r2.top
  bottom := min r1.bottom r2.bottom
  left := max r1.left r2.left
  right := min r1.right r2.right

/-- A bitmap id: `UGL_DISPLAY_ID`, or a bitmap with its dimensions. -/
inductive DdbId where
  | UGL_DISPLAY_ID
  | bitmap (width height : Int)
  deriving DecidableEq

/-- A bitmap id that may be `UGL_DEFAULT_ID`. -/
inductive BmapId where
  | UGL_DEFAULT_ID
  | ddb (id : DdbId)
  deriving DecidableEq

/-- What the functions read of the device: the size of the display mode, and of the graphics
context the default bitmap and its bounding rectangle. -/
structure Device where
  width : Int
  height : Int
  boundRect : Rect
  pDefaultBitmap : DdbId

/-- The rectangle of a bitmap of some size. -/
def sizeRect (width height : Int) : Rect where
  top := 0
  bottom := height - 1
  left := 0
  right := width - 1

/-- The rectangle of a bitmap. -/
def ddbRect (dev : Device) : DdbId → Rect
  | .UGL_DISPLAY_ID => sizeRect dev.width dev.height
  | .bitmap width height => sizeRect width height

/-- What a clip function stores for its caller, and whether something is left to transfer. -/
structure Clipped where
  srcRect : Rect
  destPoint : Point
  visible : Bool
  deriving DecidableEq

/-- The destination rectangle at the start, at the point and as large as the source. -/
def startRect (srcRect : Rect) (destPoint : Point) : Rect :=
  UGL_RECT_SIZE_TO { left := destPoint.x, top := destPoint.y, right := 0, bottom := 0 }
    (UGL_RECT_WIDTH srcRect) (UGL_RECT_HEIGHT srcRect)

/-- The end of the three functions: clip to the destination, move the source along, and
store the result. -/
def clipDest (srcRect destRect destClip : Rect) : Clipped :=
  let x := destRect.left
  let y := destRect.top
  let destRect := UGL_RECT_INTERSECT destRect destClip
  let srcRect := UGL_RECT_SIZE_TO srcRect (UGL_RECT_WIDTH destRect) (UGL_RECT_HEIGHT destRect)
  let srcRect := UGL_RECT_MOVE srcRect (destRect.left - x) (destRect.top - y)
  { srcRect := srcRect
    destPoint := { x := destRect.left, y := destRect.top }
    visible := ¬ (UGL_RECT_WIDTH destRect ≤ 0 ∨ UGL_RECT_HEIGHT destRect ≤ 0) }

/-- The source clip rectangle of `uglGenericClipDdbToDdb`. -/
def srcClipRect (dev : Device) : BmapId → Rect
  | .UGL_DEFAULT_ID => dev.boundRect
  | .ddb id => ddbRect dev id

/-- The destination clip rectangle of `uglGenericClipDdbToDdb`. -/
def destClipRect (dev : Device) (clipRect : Rect) : BmapId → Rect
  | .UGL_DEFAULT_ID => clipRect
  | .ddb id => ddbRect dev id

/-- The bitmap that takes the place of `UGL_DEFAULT_ID`. -/
def resolveId (dev : Device) : BmapId → DdbId
  | .UGL_DEFAULT_ID => dev.pDefaultBitmap
  | .ddb id => id

/-- `uglGenericClipDdbToDdb`, with the two bitmap ids that it stores. -/
def uglGenericClipDdbToDdb (dev : Device) (clipRect : Rect) (srcBmpId : BmapId) (srcRect : Rect)
    (destBmpId : BmapId) (destPoint : Point) : Clipped × DdbId × DdbId :=
  let destRect := startRect srcRect destPoint
  let srcClip := srcClipRect dev srcBmpId
  let destClip := destClipRect dev clipRect destBmpId
  let x := srcRect.left
  let y := srcRect.top
  let srcRect := UGL_RECT_INTERSECT srcRect srcClip
  let destRect := UGL_RECT_SIZE_TO destRect (UGL_RECT_WIDTH srcRect) (UGL_RECT_HEIGHT srcRect)
  let destRect := UGL_RECT_MOVE destRect (srcRect.left - x) (srcRect.top - y)
  (clipDest srcRect destRect destClip, resolveId dev srcBmpId, resolveId dev destBmpId)

/-- The body of the two functions with a device independent bitmap: after the clip to the
source, the destination rectangle gets its size and stays where it is. -/
def clipDib (srcClip destClip srcRect : Rect) (destPoint : Point) : Clipped :=
  let destRect := startRect srcRect destPoint
  let srcRect := UGL_RECT_INTERSECT srcRect srcClip
  let destRect := UGL_RECT_SIZE_TO destRect (UGL_RECT_WIDTH srcRect) (UGL_RECT_HEIGHT srcRect)
  clipDest srcRect destRect destClip

/-- A device independent bitmap's size. -/
structure Dib where
  width : Int
  height : Int

/-- `uglGenericClipDibToDdb`. -/
def uglGenericClipDibToDdb (dev : Device) (dib : Dib) (srcRect : Rect) (bmpId : DdbId)
    (destPoint : Point) : Clipped :=
  clipDib (sizeRect dib.width dib.height) (ddbRect dev bmpId) srcRect destPoint

/-- `uglGenericClipDdbToDib`. -/
def uglGenericClipDdbToDib (dev : Device) (bmpId : DdbId) (srcRect : Rect) (dib : Dib)
    (destPoint : Point) : Clipped :=
  clipDib (ddbRect dev bmpId) (sizeRect dib.width dib.height) srcRect destPoint

/-! ## Pixels -/

/-- The pixels of a rectangle. -/
def Rect.Contains (r : Rect) (p : Point) : Prop :=
  (r.left ≤ p.x ∧ p.x ≤ r.right) ∧ r.top ≤ p.y ∧ p.y ≤ r.bottom

instance (r : Rect) (p : Point) : Decidable (r.Contains p) := inferInstanceAs (Decidable (_ ∧ _))

/-- The pixel pairs of a transfer: a pixel of the source and where it goes. -/
def pairs (srcRect : Rect) (destPoint : Point) : Set (Point × Point) :=
  { pq | srcRect.Contains pq.1 ∧ pq.2.x = pq.1.x + (destPoint.x - srcRect.left) ∧
    pq.2.y = pq.1.y + (destPoint.y - srcRect.top) }

/-- The pairs with the source in the one bitmap and the destination in the other area. -/
def visiblePairs (srcClip destClip srcRect : Rect) (destPoint : Point) : Set (Point × Point) :=
  { pq ∈ pairs srcRect destPoint | srcClip.Contains pq.1 ∧ destClip.Contains pq.2 }

/-- What a clip function has to do: it finds nothing to transfer exactly when there are no
visible pairs, and otherwise the transfer that it stores has exactly these pairs. -/
structure Clips (srcClip destClip srcRect : Rect) (destPoint : Point) (c : Clipped) : Prop where
  none_iff : c.visible = false ↔ visiblePairs srcClip destClip srcRect destPoint = ∅
  pairs_eq : c.visible = true →
    pairs c.srcRect c.destPoint = visiblePairs srcClip destClip srcRect destPoint

/-- The corner of a rectangle that is clipped to another one. -/
def clippedCorner (srcClip srcRect : Rect) : Point where
  x := max srcRect.left srcClip.left
  y := max srcRect.top srcClip.top

/-- The point that takes the corner of the source rectangle to where the transfer takes the
clipped corner when that goes to the destination point. -/
def slippedPoint (srcClip srcRect : Rect) (destPoint : Point) : Point where
  x := destPoint.x - ((clippedCorner srcClip srcRect).x - srcRect.left)
  y := destPoint.y - ((clippedCorner srcClip srcRect).y - srcRect.top)

/-- The left and top sides of the source rectangle are inside the source, or there are no
visible pairs, neither those of the request nor those of the slipped one. -/
def StartsInside (srcClip destClip srcRect : Rect) (destPoint : Point) : Prop :=
  (srcClip.left ≤ srcRect.left ∧ srcClip.top ≤ srcRect.top) ∨
    visiblePairs srcClip destClip srcRect destPoint = ∅ ∧
      visiblePairs srcClip destClip srcRect (slippedPoint srcClip srcRect destPoint) = ∅

section Clips

variable {srcClip destClip srcRect : Rect} {destPoint : Point}

theorem mem_pairs {p q : Point} :
    (p, q) ∈ pairs srcRect destPoint ↔ srcRect.Contains p ∧
      q.x = p.x + (destPoint.x - srcRect.left) ∧ q.y = p.y + (destPoint.y - srcRect.top) :=
  Iff.rfl

theorem mem_visiblePairs {p q : Point} :
    (p, q) ∈ visiblePairs srcClip destClip srcRect destPoint ↔
      (p, q) ∈ pairs srcRect destPoint ∧ srcClip.Contains p ∧ destClip.Contains q :=
  Iff.rfl

/-- A rectangle with pixels. -/
theorem visible_iff {srcRect destRect : Rect} :
    (clipDest srcRect destRect destClip).visible = true ↔
      0 < UGL_RECT_WIDTH (UGL_RECT_INTERSECT destRect destClip) ∧
        0 < UGL_RECT_HEIGHT (UGL_RECT_INTERSECT destRect destClip) := by
  simp only [clipDest, decide_eq_true_eq, not_or, not_le]

/-- `clipDest` for rectangles of one size: the pairs that it leaves are those whose destination
is inside. -/
theorem mem_pairs_clipDest {destRect : Rect}
    (hwidth : UGL_RECT_WIDTH destRect = UGL_RECT_WIDTH srcRect)
    (hheight : UGL_RECT_HEIGHT destRect = UGL_RECT_HEIGHT srcRect) {p q : Point} :
    (p, q) ∈ pairs (clipDest srcRect destRect destClip).srcRect
        (clipDest srcRect destRect destClip).destPoint ↔
      (p, q) ∈ pairs srcRect { x := destRect.left, y := destRect.top } ∧
        destClip.Contains q := by
  simp only [mem_pairs, clipDest, Rect.Contains, UGL_RECT_MOVE, UGL_RECT_SIZE_TO,
    UGL_RECT_INTERSECT, UGL_RECT_WIDTH, UGL_RECT_HEIGHT] at *
  omega

/-- And there is one when the rectangle has pixels. -/
theorem visible_iff_exists {destRect : Rect} :
    (clipDest srcRect destRect destClip).visible = true ↔
      ∃ p q, (p, q) ∈ pairs (clipDest srcRect destRect destClip).srcRect
        (clipDest srcRect destRect destClip).destPoint := by
  rw [visible_iff]
  constructor
  · intro hpos
    refine ⟨⟨(clipDest srcRect destRect destClip).srcRect.left,
      (clipDest srcRect destRect destClip).srcRect.top⟩,
      (clipDest srcRect destRect destClip).destPoint, ?_⟩
    simp only [mem_pairs, clipDest, Rect.Contains, UGL_RECT_MOVE, UGL_RECT_SIZE_TO,
      UGL_RECT_INTERSECT, UGL_RECT_WIDTH, UGL_RECT_HEIGHT] at *
    omega
  · rintro ⟨p, q, hpq⟩
    simp only [mem_pairs, clipDest, Rect.Contains, UGL_RECT_MOVE, UGL_RECT_SIZE_TO,
      UGL_RECT_INTERSECT, UGL_RECT_WIDTH, UGL_RECT_HEIGHT] at *
    omega

/-- The clip to the source, when the destination's corner moves along with the source's. -/
theorem mem_pairs_intersect {point : Point}
    (hx : point.x = destPoint.x + (max srcRect.left srcClip.left - srcRect.left))
    (hy : point.y = destPoint.y + (max srcRect.top srcClip.top - srcRect.top)) {p q : Point} :
    (p, q) ∈ pairs (UGL_RECT_INTERSECT srcRect srcClip) point ↔
      (p, q) ∈ pairs srcRect destPoint ∧ srcClip.Contains p := by
  simp only [mem_pairs, Rect.Contains, UGL_RECT_INTERSECT, hx, hy]
  omega

/-- The two clips together. -/
theorem clipDest_clips {destRect : Rect}
    (hwidth : UGL_RECT_WIDTH destRect = UGL_RECT_WIDTH (UGL_RECT_INTERSECT srcRect srcClip))
    (hheight : UGL_RECT_HEIGHT destRect = UGL_RECT_HEIGHT (UGL_RECT_INTERSECT srcRect srcClip))
    (hx : destRect.left = destPoint.x + (max srcRect.left srcClip.left - srcRect.left))
    (hy : destRect.top = destPoint.y + (max srcRect.top srcClip.top - srcRect.top)) :
    Clips srcClip destClip srcRect destPoint
      (clipDest (UGL_RECT_INTERSECT srcRect srcClip) destRect destClip) := by
  have hmem : ∀ p q, (p, q) ∈ pairs
      (clipDest (UGL_RECT_INTERSECT srcRect srcClip) destRect destClip).srcRect
      (clipDest (UGL_RECT_INTERSECT srcRect srcClip) destRect destClip).destPoint ↔
        (p, q) ∈ visiblePairs srcClip destClip srcRect destPoint := by
    intro p q
    rw [mem_pairs_clipDest hwidth hheight, mem_visiblePairs, mem_pairs_intersect hx hy, and_assoc]
  refine ⟨?_, fun _ => Set.ext fun pq => hmem pq.1 pq.2⟩
  rw [← Bool.not_eq_true, visible_iff_exists, Set.eq_empty_iff_forall_notMem]
  constructor
  · intro hno pq hpq
    exact hno ⟨pq.1, pq.2, (hmem _ _).mpr hpq⟩
  · rintro hno ⟨p, q, hpq⟩
    exact hno (p, q) ((hmem p q).mp hpq)

/-- `uglGenericClipDdbToDdb` clips. -/
theorem clipDdbToDdb_clips (dev : Device) (clipRect : Rect) (srcBmpId : BmapId) (srcRect : Rect)
    (destBmpId : BmapId) (destPoint : Point) :
    Clips (srcClipRect dev srcBmpId) (destClipRect dev clipRect destBmpId) srcRect destPoint
      (uglGenericClipDdbToDdb dev clipRect srcBmpId srcRect destBmpId destPoint).1 := by
  apply clipDest_clips
  · simp only [UGL_RECT_WIDTH, UGL_RECT_MOVE, UGL_RECT_SIZE_TO]
    omega
  · simp only [UGL_RECT_HEIGHT, UGL_RECT_MOVE, UGL_RECT_SIZE_TO]
    omega
  · rfl
  · rfl

/-- Without the move, the transfer that is clipped is the slipped one. -/
theorem clipDib_slipped (srcClip destClip srcRect : Rect) (destPoint : Point) :
    Clips srcClip destClip srcRect (slippedPoint srcClip srcRect destPoint)
      (clipDib srcClip destClip srcRect destPoint) := by
  apply clipDest_clips
  · simp only [UGL_RECT_WIDTH, UGL_RECT_SIZE_TO]
    omega
  · simp only [UGL_RECT_HEIGHT, UGL_RECT_SIZE_TO]
    omega
  · simp only [startRect, UGL_RECT_SIZE_TO, slippedPoint, clippedCorner]
    omega
  · simp only [startRect, UGL_RECT_SIZE_TO, slippedPoint, clippedCorner]
    omega

/-- A visible pair of both the request and the slipped transfer: they are the same. -/
theorem startsInside_of_mem {p q : Point}
    (hpq : (p, q) ∈ visiblePairs srcClip destClip srcRect destPoint)
    (hslip : (p, q) ∈ visiblePairs srcClip destClip srcRect
      (slippedPoint srcClip srcRect destPoint)) :
    srcClip.left ≤ srcRect.left ∧ srcClip.top ≤ srcRect.top := by
  simp only [mem_visiblePairs, mem_pairs, slippedPoint, clippedCorner] at hpq hslip
  omega

/-- The two functions with a device independent bitmap clip exactly when the source rectangle
starts inside the source, or there is nothing to transfer either way. -/
theorem clipDib_clips_iff (srcClip destClip srcRect : Rect) (destPoint : Point) :
    Clips srcClip destClip srcRect destPoint (clipDib srcClip destClip srcRect destPoint) ↔
      StartsInside srcClip destClip srcRect destPoint := by
  have hslip := clipDib_slipped srcClip destClip srcRect destPoint
  constructor
  · intro hclips
    cases hvisible : (clipDib srcClip destClip srcRect destPoint).visible with
    | false => exact Or.inr ⟨hclips.none_iff.mp hvisible, hslip.none_iff.mp hvisible⟩
    | true =>
      have hne : visiblePairs srcClip destClip srcRect destPoint ≠ ∅ := by
        intro hempty
        rw [hclips.none_iff.mpr hempty] at hvisible
        exact Bool.noConfusion hvisible
      obtain ⟨⟨p, q⟩, hpq⟩ := Set.nonempty_iff_ne_empty.mpr hne
      refine Or.inl (startsInside_of_mem hpq ?_)
      rwa [← hslip.pairs_eq hvisible, hclips.pairs_eq hvisible]
  · rintro (⟨hleft, htop⟩ | ⟨hempty, hslipped⟩)
    · have hpoint : slippedPoint srcClip srcRect destPoint = destPoint := by
        rw [slippedPoint, clippedCorner, max_eq_left hleft, max_eq_left htop, sub_self, sub_self,
          sub_zero, sub_zero]
      rwa [hpoint] at hslip
    · have hfalse := hslip.none_iff.mpr hslipped
      refine ⟨iff_of_true hfalse hempty, ?_⟩
      intro hvisible
      rw [hfalse] at hvisible
      exact Bool.noConfusion hvisible

end Clips

/-- The first function clips every transfer; the two others do exactly when the source
rectangle starts inside the source bitmap, or nothing is to be transferred either way. -/
theorem clip_functions (dev : Device) (clipRect srcRect : Rect) (destPoint : Point) :
    (∀ srcBmpId destBmpId,
      Clips (srcClipRect dev srcBmpId) (destClipRect dev clipRect destBmpId) srcRect destPoint
        (uglGenericClipDdbToDdb dev clipRect srcBmpId srcRect destBmpId destPoint).1) ∧
    (∀ dib bmpId,
      Clips (sizeRect dib.width dib.height) (ddbRect dev bmpId) srcRect destPoint
          (uglGenericClipDibToDdb dev dib srcRect bmpId destPoint) ↔
        StartsInside (sizeRect dib.width dib.height) (ddbRect dev bmpId) srcRect destPoint) ∧
    (∀ bmpId dib,
      Clips (ddbRect dev bmpId) (sizeRect dib.width dib.height) srcRect destPoint
          (uglGenericClipDdbToDib dev bmpId srcRect dib destPoint) ↔
        StartsInside (ddbRect dev bmpId) (sizeRect dib.width dib.height) srcRect destPoint) :=
  ⟨fun srcBmpId destBmpId => clipDdbToDdb_clips dev clipRect srcBmpId srcRect destBmpId destPoint,
    fun _ _ => clipDib_clips_iff _ _ srcRect destPoint,
    fun _ _ => clipDib_clips_iff _ _ srcRect destPoint⟩

/-- Two pixels, the first outside the bitmap: the second one goes to the place of the first. -/
theorem clip_dib_slips :
    ¬ Clips (sizeRect 8 8) (sizeRect 8 8) ⟨-1, 0, 0, 0⟩ ⟨3, 3⟩
      (uglGenericClipDibToDdb ⟨8, 8, sizeRect 8 8, .UGL_DISPLAY_ID⟩ ⟨8, 8⟩ ⟨-1, 0, 0, 0⟩
        .UGL_DISPLAY_ID ⟨3, 3⟩) := by
  intro hclips
  have hpair : ((⟨0, 0⟩, ⟨3, 3⟩) : Point × Point) ∈
      visiblePairs (sizeRect 8 8) (sizeRect 8 8) ⟨-1, 0, 0, 0⟩ ⟨3, 3⟩ := by
    rw [← hclips.pairs_eq (by decide), mem_pairs]
    decide
  rw [mem_visiblePairs, mem_pairs] at hpair
  exact absurd hpair.1.2.1 (by decide)

end Vmx.Ugl
