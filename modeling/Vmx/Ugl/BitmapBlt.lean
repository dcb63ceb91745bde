import Vmx.Ugl.BitCopy
import Vmx.Ugl.GenClip

/-!
# `udg8bmp`: transfers between bitmaps of 8 bits a pixel

`uglGeneric8BitBitmapBlt` goes through the rectangles of the clip list, clips the transfer to
each of them and combines the lines that are left with `uglCommonByteCopy`.  The order of the
rectangles and of the lines depends on where the destination is.

Nothing sets `gpBusy`, so the wait for the graphics processor is left out.

`BltRight` says what the transfer has to do to the memory, and `BltFits` which order of the
clip list and which transfers along the lines are needed for it.
-/

namespace Vmx.Ugl

/-- A `UGL_GEN_DDB` at some address: lines of `stride` bytes, and as wide as that at most. -/
structure GenDdb where
  address : Nat
  width : Int
  height : Int
  stride : Nat
  pData : Int
  width_le : width ≤ stride
  stride_lt : stride < 65536

/-- Where a pixel is in memory. -/
def GenDdb.place (ddb : GenDdb) (p : Point) : Int := ddb.pData + p.y * ddb.stride + p.x

def GenDdb.rect (ddb : GenDdb) : Rect := sizeRect ddb.width ddb.height

/-- A `UGL_DDB_ID`. -/
inductive BltId where
  | UGL_DEFAULT_ID
  | UGL_DISPLAY_ID
  | bitmap (ddb : GenDdb)

/-- The id for the clip function. -/
def BltId.bmapId : BltId → BmapId
  | UGL_DEFAULT_ID => .UGL_DEFAULT_ID
  | UGL_DISPLAY_ID => .ddb .UGL_DISPLAY_ID
  | bitmap ddb => .ddb (.bitmap ddb.width ddb.height)

/-- A region: its rectangles from the top left and from the top right.
`uglRegionRectAdd` puts a rectangle in both lists, and `uglRegionRectInclude` leaves out what
is in the region already. -/
structure Region where
  tl2br : List Rect
  tr2bl : List Rect
  perm : tl2br.Perm tr2bl
  disjoint : tl2br.Pairwise fun r r' => ∀ p, r.Contains p → ¬ r'.Contains p

/-- `uglRegionRectSortedGet`, called until it finishes: the rectangles for a direction. -/
def uglRegionRectSortedGet (region : Region) (right down : Bool) : List Rect :=
  match right, down with
  | false, false => region.tl2br
  | true, true => region.tl2br.reverse
  | true, false => region.tr2bl
  | false, true => region.tr2bl.reverse

/-- What the transfer reads of the device and its graphics context.  The default bitmap is the
display when it is `none`, and the display is the page that is drawn to. -/
structure BltDevice where
  pDrawPage : GenDdb
  pDefaultBitmap : Option GenDdb
  viewPort : Rect
  clipRect : Rect
  clipRegionId : Option Region
  rasterOp : RasterOp

namespace BltDevice

/-- The bitmap that an id stands for. -/
def ddb (dev : BltDevice) : BltId → GenDdb
  | .UGL_DEFAULT_ID => dev.pDefaultBitmap.getD dev.pDrawPage
  | .UGL_DISPLAY_ID => dev.pDrawPage
  | .bitmap ddb => ddb

/-- The device for the clip function.  The bounding rectangle is the one that
`uglDefaultBitmapSet` stores. -/
def device (dev : BltDevice) : Device where
  width := dev.pDrawPage.width
  height := dev.pDrawPage.height
  boundRect := (dev.ddb .UGL_DEFAULT_ID).rect
  pDefaultBitmap := match dev.pDefaultBitmap with
    | none => .UGL_DISPLAY_ID
    | some ddb => .bitmap ddb.width ddb.height

end BltDevice

/-- `uglClipListSortedGet`, called until it finishes. -/
def uglClipListSortedGet (dev : BltDevice) (right down : Bool) : List Rect :=
  match dev.clipRegionId with
  | none => [UGL_RECT_MOVE dev.clipRect dev.viewPort.left dev.viewPort.top]
  | some region =>
    (((uglRegionRectSortedGet region right down).map
      fun r => UGL_RECT_INTERSECT r dev.clipRect).filter
        fun r => ¬ (UGL_RECT_WIDTH r ≤ 0 ∨ UGL_RECT_HEIGHT r ≤ 0)).map
          fun r => UGL_RECT_MOVE r dev.viewPort.left dev.viewPort.top

/-- The loop over the lines. -/
def bltLines (op : RasterOp) (width : Nat) (srcStride destStride : Int) :
    Nat → Memory → Int → Int → Memory
  | 0, mem, _, _ => mem
  | height + 1, mem, pSrc, pDest =>
    bltLines op width srcStride destStride height (uglCommonByteCopy mem pSrc pDest width op)
      (pSrc + srcStride) (pDest + destStride)

/-- The body of the loop over the clip list: the part of the transfer in one rectangle. -/
def bltRect (dev : BltDevice) (srcBmpId : BltId) (srcRect : Rect) (destBmpId : BltId)
    (destPoint : Point) (mem : Memory) (clipRect : Rect) : Memory :=
  let clipped := (uglGenericClipDdbToDdb dev.device clipRect srcBmpId.bmapId srcRect
    destBmpId.bmapId destPoint).1
  let srcRect := clipped.srcRect
  let destPoint := clipped.destPoint
  let width := UGL_RECT_WIDTH srcRect
  let height := UGL_RECT_HEIGHT srcRect
  let srcBmp := dev.ddb srcBmpId
  let destBmp := dev.ddb destBmpId
  if clipped.visible then
    if srcBmp.address = destBmp.address ∧ srcRect.top < destPoint.y then
      -- from the last line up
      let destRect := UGL_RECT_SIZE_TO
        { left := destPoint.x, top := destPoint.y, right := 0, bottom := 0 } width height
      bltLines dev.rasterOp width.toNat (-srcBmp.stride) (-destBmp.stride) height.toNat mem
        (srcBmp.place { x := srcRect.left, y := srcRect.bottom })
        (destBmp.place { x := destRect.left, y := destRect.bottom })
    else
      bltLines dev.rasterOp width.toNat srcBmp.stride destBmp.stride height.toNat mem
        (srcBmp.place { x := srcRect.left, y := srcRect.top }) (destBmp.place destPoint)
  else mem

/-- The source rectangle, moved to the view port when it is in the default bitmap. -/
def bltSrcRect (dev : BltDevice) : BltId → Rect → Rect
  | .UGL_DEFAULT_ID, srcRect => UGL_RECT_MOVE srcRect dev.viewPort.left dev.viewPort.top
  | _, srcRect => srcRect

/-- The destination point, moved to the view port when it is in the default bitmap. -/
def bltDestPoint (dev : BltDevice) : BltId → Point → Point
  | .UGL_DEFAULT_ID, destPoint =>
    { x := destPoint.x + dev.viewPort.left, y := destPoint.y + dev.viewPort.top }
  | _, destPoint => destPoint

/-- The clip rectangles in the order of the loop.  For another bitmap than the default one
there is one round, which does not read the clip rectangle. -/
def bltClips (dev : BltDevice) (srcRect : Rect) (destPoint : Point) : BltId → List Rect
  | .UGL_DEFAULT_ID =>
    uglClipListSortedGet dev (destPoint.x > srcRect.left) (destPoint.y > srcRect.top)
  | _ => [dev.clipRect]

/-- `uglGeneric8BitBitmapBlt`: the memory, and the rectangle and the point of the caller, which
are moved. -/
def uglGeneric8BitBitmapBlt (dev : BltDevice) (mem : Memory) (srcBmpId : BltId)
    (srcRect : Rect) (destBmpId : BltId) (destPoint : Point) : Memory × Rect × Point :=
  let srcRect := bltSrcRect dev srcBmpId srcRect
  let destPoint := bltDestPoint dev destBmpId destPoint
  ((bltClips dev srcRect destPoint destBmpId).foldl
    (bltRect dev srcBmpId srcRect destBmpId destPoint) mem, srcRect, destPoint)

/-! ## What the transfer is to do -/

section Spec

variable (dev : BltDevice) (srcBmpId : BltId) (srcRect : Rect) (destBmpId : BltId)
  (destPoint : Point)

/-- The pixels that a transfer to a bitmap may change: in the default bitmap those of the clip
rectangle and the clip region, at the view port. -/
def InClipArea : BltId → Point → Prop
  | .UGL_DEFAULT_ID, q =>
    dev.clipRect.Contains { x := q.x - dev.viewPort.left, y := q.y - dev.viewPort.top } ∧
      ∀ region, dev.clipRegionId = some region → ∃ r ∈ region.tl2br,
        r.Contains { x := q.x - dev.viewPort.left, y := q.y - dev.viewPort.top }
  | .UGL_DISPLAY_ID, q => dev.pDrawPage.rect.Contains q
  | .bitmap ddb, q => ddb.rect.Contains q

/-- The pixel `p` of the source is transferred to `q`. -/
def BltPair (p q : Point) : Prop :=
  (p, q) ∈ pairs (bltSrcRect dev srcBmpId srcRect) (bltDestPoint dev destBmpId destPoint) ∧
    (dev.ddb srcBmpId).rect.Contains p ∧ InClipArea dev destBmpId q

/-- Each destination pixel is combined with the value that its source pixel had, and nothing
else changes. -/
structure BltRight (mem mem' : Memory) : Prop where
  drawn : ∀ p q, BltPair dev srcBmpId srcRect destBmpId destPoint p q →
    mem' ((dev.ddb destBmpId).place q) = dev.rasterOp.all (mem ((dev.ddb destBmpId).place q))
      (mem ((dev.ddb srcBmpId).place p))
  others : ∀ i, (∀ p q, BltPair dev srcBmpId srcRect destBmpId destPoint p q →
    i ≠ (dev.ddb destBmpId).place q) → mem' i = mem i

/-- In one clip rectangle `p` is transferred before `p'`: on an earlier line, where the lines
go up when the destination is below the source, or further left on the same line of a
`memcpy`. -/
def LineBefore (p p' : Point) : Prop :=
  if p.y = p'.y then dev.rasterOp = .COPY ∧ p.x < p'.x
  else if (bltSrcRect dev srcBmpId srcRect).top < (bltDestPoint dev destBmpId destPoint).y then
    p'.y < p.y
  else p.y < p'.y

/-- No pixel is the source of one that is transferred after it: neither between the clip
rectangles, nor in one of them. -/
structure BltFits : Prop where
  rects : (bltClips dev (bltSrcRect dev srcBmpId srcRect) (bltDestPoint dev destBmpId destPoint)
    destBmpId).Pairwise fun c c' => ∀ p q p' q',
      BltPair dev srcBmpId srcRect destBmpId destPoint p q →
      BltPair dev srcBmpId srcRect destBmpId destPoint p' q' →
      (destClipRect dev.device c destBmpId.bmapId).Contains q →
      (destClipRect dev.device c' destBmpId.bmapId).Contains q' →
      (dev.ddb srcBmpId).place p' ≠ (dev.ddb destBmpId).place q
  lines : ∀ c ∈ bltClips dev (bltSrcRect dev srcBmpId srcRect)
    (bltDestPoint dev destBmpId destPoint) destBmpId, ∀ p q p' q',
      BltPair dev srcBmpId srcRect destBmpId destPoint p q →
      BltPair dev srcBmpId srcRect destBmpId destPoint p' q' →
      (destClipRect dev.device c destBmpId.bmapId).Contains q →
      (destClipRect dev.device c destBmpId.bmapId).Contains q' →
      LineBefore dev srcBmpId srcRect destBmpId destPoint p p' →
      (dev.ddb srcBmpId).place p' ≠ (dev.ddb destBmpId).place q

end Spec

end Vmx.Ugl
