import Vmx.Lib.InPlace
import Vmx.Ugl.BitmapBlt

/-!
# When `uglGeneric8BitBitmapBlt` is right within one bitmap

Within one bitmap the places of a pixel and of its source are the same distance apart, so
that each loop of the transfer is a run of `inPlace` over the pixels in the order in which
they are transferred.  `blt_inPlace` puts the loops together.

The pixels of the list are those of `BltPair` (`mem_drawn_iff`), and no place is there twice.
`noneLate_iff` reads `BltFits` off the order of the list, and `bitmap_blt_iff` is the result.
-/

namespace Vmx.Ugl

open Vmx.Lib

/-! ## Bytes in place -/

section Bytes

variable {op : RasterOp} {mem : Memory} {src dest : Int}

theorem memcpy_inPlace (n : Nat) :
    memcpy n mem dest src = inPlace RasterOp.COPY.all (dest - src) (upFrom dest n) mem := by
  induction n generalizing mem src dest with
  | zero => rfl
  | succ n ih => rw [memcpy, ih, upFrom, inPlace, sub_sub_cancel, add_sub_add_right_eq_sub,
      RasterOp.all]

theorem byteForward_inPlace (n : Nat) :
    byteForward op n mem src dest = inPlace op.all (dest - src) (upFrom dest n) mem := by
  induction n generalizing mem src dest with
  | zero => rfl
  | succ n ih => rw [byteForward, ih, upFrom, inPlace, sub_sub_cancel, add_sub_add_right_eq_sub]

theorem byteBackward_inPlace (n : Nat) :
    byteBackward op n mem src dest = inPlace op.all (dest - src) (downFrom dest n) mem := by
  induction n generalizing mem src dest with
  | zero => rfl
  | succ n ih =>
    have hread : dest - 1 - (dest - src) = src - 1 := by omega
    have hshift : dest - 1 - (src - 1) = dest - src := by omega
    rw [byteBackward, ih, downFrom, inPlace, hread, hshift]

/-- Whether `uglCommonByteCopy` goes down. -/
def GoesDown (op : RasterOp) (δ : Int) (n : Nat) : Bool :=
  ¬ (op = .COPY ∨ Int.bmod δ 4294967296 ≤ 0 ∨ Int.bmod δ 4294967296 ≥ n)

theorem byteCopy_inPlace (n : Nat) :
    uglCommonByteCopy mem src dest n op = inPlace op.all (dest - src)
      (if GoesDown op (dest - src) n then downFrom (dest + n) n else upFrom dest n) mem := by
  unfold uglCommonByteCopy
  by_cases hop : op = .COPY
  · have hdown : GoesDown op (dest - src) n = false := by
      rw [GoesDown, decide_eq_false_iff_not, not_not]
      exact Or.inl hop
    rw [if_pos hop, hdown, memcpy_inPlace, hop]
    rfl
  · rw [if_neg hop]
    by_cases hsz : Int.bmod (dest - src) 4294967296 ≤ 0 ∨ Int.bmod (dest - src) 4294967296 ≥ n
    · have hdown : GoesDown op (dest - src) n = false := by
        rw [GoesDown, decide_eq_false_iff_not, not_not]
        exact Or.inr hsz
      have hfor := @byteForward_inPlace op mem src dest n
      rw [hdown]
      exact (if_pos hsz).trans hfor
    · have hdown : GoesDown op (dest - src) n = true := by
        rw [GoesDown, decide_eq_true_eq, not_or]
        exact ⟨hop, hsz⟩
      have hback := @byteBackward_inPlace op mem (src + n) (dest + n) n
      rw [add_sub_add_right_eq_sub] at hback
      rw [hdown]
      exact (if_neg hsz).trans hback

/-- Going down within the same bytes, the copy is never late. -/
theorem goesDown_or {δ : Int} {n : Nat} (hn : n < 65536) :
    (GoesDown op δ n = false ∧ (op = .COPY ∨ δ ≤ 0 ∨ n ≤ δ)) ∨
      (GoesDown op δ n = true ∧ op ≠ .COPY ∧ (0 < δ ∨ δ ≤ -n)) := by
  have hmod := Int.bmod_def δ 4294967296
  by_cases h : op = .COPY ∨ Int.bmod δ 4294967296 ≤ 0 ∨ Int.bmod δ 4294967296 ≥ n
  · refine Or.inl ⟨?_, ?_⟩
    · rw [GoesDown, decide_eq_false_iff_not, not_not]
      exact h
    · refine h.imp_right fun hsz => ?_
      omega
  · refine Or.inr ⟨?_, ?_, ?_⟩
    · rw [GoesDown, decide_eq_true_eq]
      exact h
    · exact fun hop => h (Or.inl hop)
    · have hsz := fun h' => h (Or.inr h')
      omega

end Bytes

/-! ## Points in order -/

/-- The points of a rectangle, line by line. -/
def Rect.points (r : Rect) (up back : Bool) : List Point :=
  (coords up r.top r.bottom).flatMap fun y =>
    (coords back r.left r.right).map fun x => { x := x, y := y }

/-- The order of `Rect.points`. -/
def PointBefore (up back : Bool) (p p' : Point) : Prop :=
  if p.y = p'.y then Before back p.x p'.x else Before up p.y p'.y

theorem mem_points {r : Rect} {up back : Bool} {p : Point} :
    p ∈ r.points up back ↔ r.Contains p := by
  rw [Rect.points, List.mem_flatMap]
  constructor
  · rintro ⟨y, hy, hp⟩
    have ⟨x, hx, hp⟩ := List.mem_map.1 hp
    subst hp
    exact ⟨mem_coords.1 hx, mem_coords.1 hy⟩
  · rintro ⟨hx, hy⟩
    exact ⟨p.y, mem_coords.2 hy, List.mem_map.2 ⟨p.x, mem_coords.2 hx, rfl⟩⟩

theorem points_before (r : Rect) (up back : Bool) :
    (r.points up back).Pairwise (PointBefore up back) := by
  rw [Rect.points, List.pairwise_flatMap]
  constructor
  · intro y _
    rw [List.pairwise_map]
    refine (coords_before back r.left r.right).imp fun h => ?_
    rw [PointBefore, if_pos rfl]
    exact h
  · refine (coords_before up r.top r.bottom).imp fun h p hp p' hp' => ?_
    have ⟨x, _, hx⟩ := List.mem_map.1 hp
    have ⟨x', _, hx'⟩ := List.mem_map.1 hp'
    subst hx hx'
    rw [PointBefore, if_neg h.ne]
    exact h

theorem PointBefore.asymm {up back : Bool} {p p' : Point} (h : PointBefore up back p p') :
    ¬ PointBefore up back p' p := by
  intro h'
  rw [PointBefore] at h h'
  by_cases hy : p.y = p'.y
  · rw [if_pos hy] at h
    rw [if_pos hy.symm] at h'
    exact h.asymm h'
  · rw [if_neg hy] at h
    rw [if_neg (Ne.symm hy)] at h'
    exact h.asymm h'

theorem PointBefore.ne {up back : Bool} {p p' : Point} (h : PointBefore up back p p') :
    p ≠ p' := by
  rintro rfl
  exact h.asymm h

/-! ## Lines in place -/

section Lines

variable {op : RasterOp} {mem : Memory} {w : Nat} {σ δ D : Int}

/-- The places of one line in the order of `uglCommonByteCopy`. -/
def linePlaces (op : RasterOp) (δ : Int) (w : Nat) (d : Int) : List Int :=
  if GoesDown op δ w then downFrom (d + w) w else upFrom d w

theorem bltLines_up (h : Nat) (t : Int) :
    bltLines op w σ σ h mem (D + t * σ - δ) (D + t * σ) =
      inPlace op.all δ ((upFrom t h).flatMap fun y => linePlaces op δ w (D + y * σ)) mem := by
  induction h generalizing t mem with
  | zero => rfl
  | succ h ih =>
    have hdest : D + t * σ + σ = D + (t + 1) * σ := by rw [add_mul, one_mul, add_assoc]
    have hsrc : D + t * σ - δ + σ = D + (t + 1) * σ - δ := by rw [← hdest, sub_add_eq_add_sub]
    rw [bltLines, hdest, hsrc, ih, upFrom, List.flatMap_cons, inPlace_append, byteCopy_inPlace,
      sub_sub_cancel, linePlaces]

theorem bltLines_down (h : Nat) (e : Int) :
    bltLines op w (-σ) (-σ) h mem (D + (e - 1) * σ - δ) (D + (e - 1) * σ) =
      inPlace op.all δ ((downFrom e h).flatMap fun y => linePlaces op δ w (D + y * σ)) mem := by
  induction h generalizing e mem with
  | zero => rfl
  | succ h ih =>
    have hdest : D + (e - 1) * σ + -σ = D + (e - 1 - 1) * σ := by
      rw [sub_mul (e - 1) 1 σ, one_mul, ← sub_eq_add_neg, add_sub_assoc]
    have hsrc : D + (e - 1) * σ - δ + -σ = D + (e - 1 - 1) * σ - δ := by
      rw [← hdest]
      omega
    rw [bltLines, hdest, hsrc, ih, downFrom, List.flatMap_cons, inPlace_append, byteCopy_inPlace,
      sub_sub_cancel, linePlaces]

end Lines

/-! ## The transfer in place -/

/-- How far apart the place of a pixel and of its source are. -/
def bltShift (ddb : GenDdb) (srcRect : Rect) (destPoint : Point) : Int :=
  (destPoint.y - srcRect.top) * ddb.stride + (destPoint.x - srcRect.left)

theorem place_add {ddb : GenDdb} {p q : Point} {dx dy : Int} (hx : q.x = p.x + dx)
    (hy : q.y = p.y + dy) : ddb.place q = ddb.place p + (dy * ddb.stride + dx) := by
  rw [GenDdb.place, GenDdb.place, hx, hy, add_mul]
  omega

theorem place_of_pair {ddb : GenDdb} {srcRect : Rect} {destPoint p q : Point}
    (h : (p, q) ∈ pairs srcRect destPoint) :
    ddb.place q = ddb.place p + bltShift ddb srcRect destPoint :=
  place_add h.2.1 h.2.2

/-- Different pixels of a bitmap have different places. -/
theorem place_inj {ddb : GenDdb} {p p' : Point} (hp : ddb.rect.Contains p)
    (hp' : ddb.rect.Contains p') (h : ddb.place p = ddb.place p') : p = p' := by
  have hwidth := ddb.width_le
  have ⟨⟨h1, h2⟩, _⟩ := hp
  have ⟨⟨h1', h2'⟩, _⟩ := hp'
  have hpx : p.x < ddb.stride := by
    have : p.x ≤ ddb.width - 1 := h2
    omega
  have hpx' : p'.x < ddb.stride := by
    have : p'.x ≤ ddb.width - 1 := h2'
    omega
  have hpx0 : 0 ≤ p.x := h1
  have hpx0' : 0 ≤ p'.x := h1'
  rw [GenDdb.place, GenDdb.place] at h
  have hy : p.y = p'.y := by
    by_contra hne
    have hdiff : (p.y - p'.y) * ddb.stride = p'.x - p.x := by
      rw [sub_mul]
      omega
    rcases Int.lt_or_gt_of_ne hne with hlt | hgt
    · have := mul_le_mul_of_nonneg_right (show p.y - p'.y ≤ -1 by omega)
        (Int.natCast_nonneg ddb.stride)
      omega
    · have := mul_le_mul_of_nonneg_right (show 1 ≤ p.y - p'.y by omega)
        (Int.natCast_nonneg ddb.stride)
      omega
  rw [hy] at h
  exact point_eq (by omega) hy

/-! ### One rectangle -/

section OneRect

variable {op : RasterOp} {mem : Memory} {ddb : GenDdb} {r : Rect} {δ : Int}

/-- The places of a rectangle's points, line by line. -/
theorem points_places (hw : r.left ≤ r.right) (up : Bool) :
    ((r.points up (GoesDown op δ (UGL_RECT_WIDTH r).toNat)).map fun p => ddb.place p + δ) =
      (coords up r.top r.bottom).flatMap fun y =>
        linePlaces op δ (UGL_RECT_WIDTH r).toNat (ddb.pData + r.left + δ + y * ddb.stride) := by
  rw [Rect.points, List.map_flatMap]
  congr 1
  funext y
  have hplace : ((fun p => ddb.place p + δ) ∘ fun x : Int => ({ x := x, y := y } : Point)) =
      fun x => (ddb.pData + y * ddb.stride + δ) + x := by
    funext x
    show ddb.pData + y * ddb.stride + x + δ = _
    omega
  have hstart : ddb.pData + r.left + δ + y * ddb.stride =
      ddb.pData + y * ddb.stride + δ + r.left := by omega
  rw [List.map_map, hplace, linePlaces, hstart, coords]
  cases GoesDown op δ (UGL_RECT_WIDTH r).toNat
  · exact upFrom_map _ r.left _
  · have hend : ddb.pData + y * ddb.stride + δ + r.left + ((UGL_RECT_WIDTH r).toNat : Int) =
        ddb.pData + y * ddb.stride + δ + (r.right + 1) := by
      rw [UGL_RECT_WIDTH]
      omega
    rw [hend]
    exact downFrom_map _ (r.right + 1) _

theorem bltLines_points_up (hw : r.left ≤ r.right) :
    bltLines op (UGL_RECT_WIDTH r).toNat ddb.stride ddb.stride (UGL_RECT_HEIGHT r).toNat mem
        (ddb.place { x := r.left, y := r.top })
        (ddb.place { x := r.left, y := r.top } + δ) =
      inPlace op.all δ ((r.points false (GoesDown op δ (UGL_RECT_WIDTH r).toNat)).map
        fun p => ddb.place p + δ) mem := by
  have hdest : ddb.place { x := r.left, y := r.top } + δ =
      ddb.pData + r.left + δ + r.top * ddb.stride := by
    show ddb.pData + r.top * ddb.stride + r.left + δ = _
    omega
  have hsrc : ddb.place { x := r.left, y := r.top } =
      ddb.pData + r.left + δ + r.top * ddb.stride - δ := by
    show ddb.pData + r.top * ddb.stride + r.left = _
    omega
  rw [hdest, hsrc, points_places hw]
  exact bltLines_up _ r.top

theorem bltLines_points_down (hw : r.left ≤ r.right) :
    bltLines op (UGL_RECT_WIDTH r).toNat (-ddb.stride) (-ddb.stride) (UGL_RECT_HEIGHT r).toNat mem
        (ddb.place { x := r.left, y := r.bottom })
        (ddb.place { x := r.left, y := r.bottom } + δ) =
      inPlace op.all δ ((r.points true (GoesDown op δ (UGL_RECT_WIDTH r).toNat)).map
        fun p => ddb.place p + δ) mem := by
  have hdest : ddb.place { x := r.left, y := r.bottom } + δ =
      ddb.pData + r.left + δ + (r.bottom + 1 - 1) * ddb.stride := by
    rw [add_sub_cancel_right]
    show ddb.pData + r.bottom * ddb.stride + r.left + δ = _
    omega
  have hsrc : ddb.place { x := r.left, y := r.bottom } =
      ddb.pData + r.left + δ + (r.bottom + 1 - 1) * ddb.stride - δ := by
    rw [add_sub_cancel_right]
    show ddb.pData + r.bottom * ddb.stride + r.left = _
    omega
  rw [hdest, hsrc, points_places hw]
  exact bltLines_down _ (r.bottom + 1)

end OneRect

section Blt

variable {dev : BltDevice} {srcBmpId destBmpId : BltId} {srcRect : Rect} {destPoint : Point}

/-- The part of the transfer in one clip rectangle. -/
def clipTo (dev : BltDevice) (srcBmpId : BltId) (srcRect : Rect) (destBmpId : BltId)
    (destPoint : Point) (c : Rect) : Clipped :=
  (uglGenericClipDdbToDdb dev.device c srcBmpId.bmapId srcRect destBmpId.bmapId destPoint).1

/-- The source pixels in the order of the loops for one clip rectangle. -/
def rectDrawn (dev : BltDevice) (srcBmpId : BltId) (srcRect : Rect) (destBmpId : BltId)
    (destPoint : Point) (c : Rect) : List Point :=
  let clipped := clipTo dev srcBmpId srcRect destBmpId destPoint c
  if clipped.visible then
    clipped.srcRect.points (srcRect.top < destPoint.y)
      (GoesDown dev.rasterOp (bltShift (dev.ddb srcBmpId) srcRect destPoint)
        (UGL_RECT_WIDTH clipped.srcRect).toNat)
  else []

/-- The clip functions know the source bitmap's rectangle. -/
theorem srcClip_eq (dev : BltDevice) (id : BltId) :
    srcClipRect dev.device id.bmapId = (dev.ddb id).rect := by
  cases id
  all_goals rfl

theorem clipTo_clips (c : Rect) :
    Clips (dev.ddb srcBmpId).rect (destClipRect dev.device c destBmpId.bmapId) srcRect destPoint
      (clipTo dev srcBmpId srcRect destBmpId destPoint c) := by
  have h := clipDdbToDdb_clips dev.device c srcBmpId.bmapId srcRect destBmpId.bmapId destPoint
  rw [srcClip_eq] at h
  exact h

theorem rectDrawn_of_visible {c : Rect}
    (h : (clipTo dev srcBmpId srcRect destBmpId destPoint c).visible = true) :
    rectDrawn dev srcBmpId srcRect destBmpId destPoint c =
      (clipTo dev srcBmpId srcRect destBmpId destPoint c).srcRect.points
        (srcRect.top < destPoint.y)
        (GoesDown dev.rasterOp (bltShift (dev.ddb srcBmpId) srcRect destPoint)
          (UGL_RECT_WIDTH (clipTo dev srcBmpId srcRect destBmpId destPoint c).srcRect).toNat) :=
  if_pos h

theorem rectDrawn_of_not_visible {c : Rect}
    (h : (clipTo dev srcBmpId srcRect destBmpId destPoint c).visible = false) :
    rectDrawn dev srcBmpId srcRect destBmpId destPoint c = [] :=
  if_neg (Bool.eq_false_iff.1 h)

theorem mem_rectDrawn {c : Rect} {p : Point} :
    p ∈ rectDrawn dev srcBmpId srcRect destBmpId destPoint c ↔
      ∃ q, (p, q) ∈ visiblePairs (dev.ddb srcBmpId).rect
        (destClipRect dev.device c destBmpId.bmapId) srcRect destPoint := by
  have hclips := @clipTo_clips dev srcBmpId destBmpId srcRect destPoint c
  cases hvisible : (clipTo dev srcBmpId srcRect destBmpId destPoint c).visible with
  | false =>
    rw [rectDrawn_of_not_visible hvisible, hclips.none_iff.1 hvisible]
    exact ⟨fun h => (nomatch h), fun ⟨_, h⟩ => h.elim⟩
  | true =>
    rw [rectDrawn_of_visible hvisible, ← hclips.pairs_eq hvisible, mem_points]
    constructor
    · intro hp
      let c' := clipTo dev srcBmpId srcRect destBmpId destPoint c
      exact ⟨{ x := p.x + (c'.destPoint.x - c'.srcRect.left),
               y := p.y + (c'.destPoint.y - c'.srcRect.top) }, hp, rfl, rfl⟩
    · intro ⟨q, hq⟩
      exact hq.1

/-- Clipping keeps the transfer where it is. -/
theorem clipTo_shift {c : Rect}
    (hvisible : (clipTo dev srcBmpId srcRect destBmpId destPoint c).visible = true) :
    let clipped := clipTo dev srcBmpId srcRect destBmpId destPoint c
    clipped.destPoint.x = clipped.srcRect.left + (destPoint.x - srcRect.left) ∧
      clipped.destPoint.y = clipped.srcRect.top + (destPoint.y - srcRect.top) ∧
      clipped.srcRect.left ≤ clipped.srcRect.right ∧
      clipped.srcRect.top ≤ clipped.srcRect.bottom := by
  have hclips := @clipTo_clips dev srcBmpId destBmpId srcRect destPoint c
  have hsome : visiblePairs (dev.ddb srcBmpId).rect (destClipRect dev.device c destBmpId.bmapId)
      srcRect destPoint ≠ ∅ := by
    intro h
    rw [hclips.none_iff.2 h] at hvisible
    exact Bool.false_ne_true hvisible
  have ⟨⟨p, q⟩, hpq⟩ := Set.nonempty_iff_ne_empty.2 hsome
  have ⟨⟨⟨h1, h2⟩, h3, h4⟩, hx, hy⟩ := (hclips.pairs_eq hvisible).symm ▸ hpq
  have ⟨⟨_, hx', hy'⟩, _⟩ := hpq
  dsimp only at *
  omega

/-- One rectangle of the transfer is a run of `inPlace`. -/
theorem bltRect_inPlace (hself : dev.ddb srcBmpId = dev.ddb destBmpId) (mem : Memory)
    (c : Rect) :
    bltRect dev srcBmpId srcRect destBmpId destPoint mem c =
      inPlace dev.rasterOp.all (bltShift (dev.ddb srcBmpId) srcRect destPoint)
        ((rectDrawn dev srcBmpId srcRect destBmpId destPoint c).map fun p =>
          (dev.ddb srcBmpId).place p + bltShift (dev.ddb srcBmpId) srcRect destPoint) mem := by
  have hshift := @clipTo_shift dev srcBmpId destBmpId srcRect destPoint c
  have hclip : (uglGenericClipDdbToDdb dev.device c srcBmpId.bmapId srcRect destBmpId.bmapId
    destPoint).1 = clipTo dev srcBmpId srcRect destBmpId destPoint c := rfl
  unfold bltRect
  rw [← hself, hclip]
  dsimp only
  cases hvisible : (clipTo dev srcBmpId srcRect destBmpId destPoint c).visible with
  | false =>
    rw [rectDrawn_of_not_visible hvisible]
    rfl
  | true =>
    rw [rectDrawn_of_visible hvisible]
    rw [if_pos rfl]
    have ⟨hx, hy, hw, _⟩ := hshift hvisible
    generalize clipTo dev srcBmpId srcRect destBmpId destPoint c = clipped at *
    have hcorner : (dev.ddb srcBmpId).place clipped.destPoint =
        (dev.ddb srcBmpId).place { x := clipped.srcRect.left, y := clipped.srcRect.top } +
          bltShift (dev.ddb srcBmpId) srcRect destPoint := place_add hx hy
    have hlast : (dev.ddb srcBmpId).place
          ⟨clipped.destPoint.x, clipped.destPoint.y + UGL_RECT_HEIGHT clipped.srcRect - 1⟩ =
        (dev.ddb srcBmpId).place { x := clipped.srcRect.left, y := clipped.srcRect.bottom } +
          bltShift (dev.ddb srcBmpId) srcRect destPoint := by
      refine place_add hx ?_
      show clipped.destPoint.y + UGL_RECT_HEIGHT clipped.srcRect - 1 =
        clipped.srcRect.bottom + (destPoint.y - srcRect.top)
      rw [UGL_RECT_HEIGHT]
      omega
    by_cases hup : srcRect.top < destPoint.y
    · have hup' : clipped.srcRect.top < clipped.destPoint.y := by omega
      rw [if_pos ⟨rfl, hup'⟩, decide_eq_true hup, ← bltLines_points_down hw, ← hlast]
      rfl
    · have hup' : ¬ clipped.srcRect.top < clipped.destPoint.y := by omega
      rw [if_neg (fun h => hup' h.2), decide_eq_false hup, ← bltLines_points_up hw, ← hcorner]

end Blt

/-! ## The pixels of the transfer -/

section Area

variable {dev : BltDevice}

theorem contains_move {r : Rect} {dx dy : Int} {q : Point} :
    (UGL_RECT_MOVE r dx dy).Contains q ↔ r.Contains { x := q.x - dx, y := q.y - dy } := by
  simp only [Rect.Contains, UGL_RECT_MOVE]
  omega

theorem contains_intersect {r r' : Rect} {q : Point} :
    (UGL_RECT_INTERSECT r r').Contains q ↔ r.Contains q ∧ r'.Contains q := by
  simp only [Rect.Contains, UGL_RECT_INTERSECT]
  omega

theorem contains_nonempty {r : Rect} {q : Point} (h : r.Contains q) :
    ¬ (UGL_RECT_WIDTH r ≤ 0 ∨ UGL_RECT_HEIGHT r ≤ 0) := by
  simp only [Rect.Contains, UGL_RECT_WIDTH, UGL_RECT_HEIGHT] at *
  omega

theorem mem_regionSortedGet {region : Region} {right down : Bool} {r : Rect} :
    r ∈ uglRegionRectSortedGet region right down ↔ r ∈ region.tl2br := by
  cases right
  · cases down
    · exact Iff.rfl
    · exact List.mem_reverse.trans region.perm.mem_iff.symm
  · cases down
    · exact region.perm.mem_iff.symm
    · exact List.mem_reverse

/-- No two rectangles of the list have a pixel in common. -/
def Apart (clips : List Rect) : Prop :=
  clips.Pairwise fun r r' => ∀ p, r.Contains p → ¬ r'.Contains p

theorem regionSortedGet_apart (region : Region) (right down : Bool) :
    Apart (uglRegionRectSortedGet region right down) := by
  have hsymm : ∀ {r r' : Rect}, (∀ p, r.Contains p → ¬ r'.Contains p) →
      ∀ p, r'.Contains p → ¬ r.Contains p := fun h p hp' hp => h p hp hp'
  have htr := region.disjoint.perm region.perm hsymm
  cases right
  · cases down
    · exact region.disjoint
    · exact List.pairwise_reverse.2 (htr.imp hsymm)
  · cases down
    · exact htr
    · exact List.pairwise_reverse.2 (region.disjoint.imp hsymm)

theorem clipListSortedGet_apart (dev : BltDevice) (right down : Bool) :
    Apart (uglClipListSortedGet dev right down) := by
  unfold uglClipListSortedGet
  cases dev.clipRegionId with
  | none => exact List.pairwise_singleton _ _
  | some region =>
    have hregion := regionSortedGet_apart region right down
    refine List.pairwise_map.2 (List.Pairwise.filter _ (List.pairwise_map.2 ?_))
    refine hregion.imp fun h p hp hp' => ?_
    exact h _ (contains_intersect.1 (contains_move.1 hp)).1
      (contains_intersect.1 (contains_move.1 hp')).1

/-- The rectangles cover the clip area of the default bitmap. -/
theorem exists_clipListSortedGet {right down : Bool} {q : Point} :
    (∃ c ∈ uglClipListSortedGet dev right down, c.Contains q) ↔
      InClipArea dev .UGL_DEFAULT_ID q := by
  unfold uglClipListSortedGet InClipArea
  cases dev.clipRegionId with
  | none =>
    constructor
    · rintro ⟨c, hc, hq⟩
      rw [List.mem_singleton.1 hc, contains_move] at hq
      exact ⟨hq, fun region h => (nomatch h)⟩
    · rintro ⟨hq, _⟩
      exact ⟨_, List.mem_singleton_self _, contains_move.2 hq⟩
  | some region =>
    constructor
    · rintro ⟨c, hc, hq⟩
      have ⟨r', hr', hcr⟩ := List.mem_map.1 hc
      have ⟨r, hr, hrr⟩ := List.mem_map.1 (List.mem_filter.1 hr').1
      rw [← hcr, ← hrr, contains_move, contains_intersect] at hq
      refine ⟨hq.2, fun region' h => ⟨r, ?_, hq.1⟩⟩
      rw [← Option.some.inj h]
      exact mem_regionSortedGet.1 hr
    · rintro ⟨hclip, hregion⟩
      have ⟨r, hr, hq⟩ := hregion region rfl
      have hmeet := contains_intersect.2 ⟨hq, hclip⟩
      refine ⟨_, List.mem_map.2 ⟨_, List.mem_filter.2 ⟨List.mem_map.2
        ⟨r, mem_regionSortedGet.2 hr, rfl⟩, ?_⟩, rfl⟩, contains_move.2 hmeet⟩
      exact decide_eq_true (contains_nonempty hmeet)

/-- The clip rectangles cover the pixels that a transfer may change. -/
theorem exists_bltClips {srcRect : Rect} {destPoint : Point} {id : BltId} {q : Point} :
    (∃ c ∈ bltClips dev srcRect destPoint id, (destClipRect dev.device c id.bmapId).Contains q) ↔
      InClipArea dev id q := by
  cases id with
  | UGL_DEFAULT_ID => exact exists_clipListSortedGet
  | UGL_DISPLAY_ID =>
    exact ⟨fun ⟨_, _, h⟩ => h, fun h => ⟨_, List.mem_singleton_self _, h⟩⟩
  | bitmap ddb =>
    exact ⟨fun ⟨_, _, h⟩ => h, fun h => ⟨_, List.mem_singleton_self _, h⟩⟩

/-- And no two of them have a pixel in common. -/
theorem bltClips_apart (dev : BltDevice) (srcRect : Rect) (destPoint : Point) (id : BltId) :
    (bltClips dev srcRect destPoint id).Pairwise fun c c' => ∀ q,
      (destClipRect dev.device c id.bmapId).Contains q →
      ¬ (destClipRect dev.device c' id.bmapId).Contains q := by
  cases id with
  | UGL_DEFAULT_ID => exact clipListSortedGet_apart dev _ _
  | UGL_DISPLAY_ID => exact List.pairwise_singleton _ _
  | bitmap ddb => exact List.pairwise_singleton _ _

end Area

section Drawn

variable {dev : BltDevice} {srcBmpId destBmpId : BltId} {srcRect : Rect} {destPoint : Point}

/-- The source pixels in the order of the loops. -/
def drawn (dev : BltDevice) (srcBmpId : BltId) (srcRect : Rect) (destBmpId : BltId)
    (destPoint : Point) : List Point :=
  (bltClips dev (bltSrcRect dev srcBmpId srcRect) (bltDestPoint dev destBmpId destPoint)
    destBmpId).flatMap (rectDrawn dev srcBmpId (bltSrcRect dev srcBmpId srcRect) destBmpId
      (bltDestPoint dev destBmpId destPoint))

/-- How far apart the places of the pixels and of their sources are. -/
def drawnShift (dev : BltDevice) (srcBmpId : BltId) (srcRect : Rect) (destBmpId : BltId)
    (destPoint : Point) : Int :=
  bltShift (dev.ddb srcBmpId) (bltSrcRect dev srcBmpId srcRect)
    (bltDestPoint dev destBmpId destPoint)

/-- The places that are written, in the order of the loops. -/
def drawnPlaces (dev : BltDevice) (srcBmpId : BltId) (srcRect : Rect) (destBmpId : BltId)
    (destPoint : Point) : List Int :=
  (drawn dev srcBmpId srcRect destBmpId destPoint).map fun p =>
    (dev.ddb srcBmpId).place p + drawnShift dev srcBmpId srcRect destBmpId destPoint

/-- The transfer within one bitmap is a run of `inPlace`. -/
theorem blt_inPlace (hself : dev.ddb srcBmpId = dev.ddb destBmpId) (mem : Memory) :
    (uglGeneric8BitBitmapBlt dev mem srcBmpId srcRect destBmpId destPoint).1 =
      inPlace dev.rasterOp.all (drawnShift dev srcBmpId srcRect destBmpId destPoint)
        (drawnPlaces dev srcBmpId srcRect destBmpId destPoint) mem := by
  unfold uglGeneric8BitBitmapBlt drawnPlaces drawn drawnShift
  dsimp only
  generalize bltSrcRect dev srcBmpId srcRect = s
  generalize bltDestPoint dev destBmpId destPoint = d
  induction bltClips dev s d destBmpId generalizing mem with
  | nil => rfl
  | cons c clips ih =>
    rw [List.foldl_cons, ih, List.flatMap_cons, List.map_append, inPlace_append,
      bltRect_inPlace hself]

/-- A pair of the transfer is visible in one of the clip rectangles. -/
theorem bltPair_iff {p q : Point} :
    BltPair dev srcBmpId srcRect destBmpId destPoint p q ↔
      ∃ c ∈ bltClips dev (bltSrcRect dev srcBmpId srcRect) (bltDestPoint dev destBmpId destPoint)
        destBmpId, (p, q) ∈ visiblePairs (dev.ddb srcBmpId).rect
          (destClipRect dev.device c destBmpId.bmapId) (bltSrcRect dev srcBmpId srcRect)
          (bltDestPoint dev destBmpId destPoint) := by
  rw [BltPair, ← exists_bltClips]
  constructor
  · rintro ⟨hpq, hp, c, hc, hq⟩
    exact ⟨c, hc, hpq, hp, hq⟩
  · rintro ⟨c, hc, hpq, hp, hq⟩
    exact ⟨hpq, hp, c, hc, hq⟩

theorem mem_drawn {p : Point} :
    p ∈ drawn dev srcBmpId srcRect destBmpId destPoint ↔
      ∃ q, BltPair dev srcBmpId srcRect destBmpId destPoint p q := by
  rw [drawn, List.mem_flatMap]
  constructor
  · rintro ⟨c, hc, hp⟩
    have ⟨q, hq⟩ := mem_rectDrawn.1 hp
    exact ⟨q, bltPair_iff.2 ⟨c, hc, hq⟩⟩
  · rintro ⟨q, hq⟩
    have ⟨c, hc, hpq⟩ := bltPair_iff.1 hq
    exact ⟨c, hc, mem_rectDrawn.2 ⟨q, hpq⟩⟩

/-- The pixels for one clip rectangle, with where they go. -/
theorem mem_rectDrawn_pair {c : Rect} (hc : c ∈ bltClips dev (bltSrcRect dev srcBmpId srcRect)
    (bltDestPoint dev destBmpId destPoint) destBmpId) {p : Point} :
    p ∈ rectDrawn dev srcBmpId (bltSrcRect dev srcBmpId srcRect) destBmpId
        (bltDestPoint dev destBmpId destPoint) c ↔
      ∃ q, BltPair dev srcBmpId srcRect destBmpId destPoint p q ∧
        (destClipRect dev.device c destBmpId.bmapId).Contains q := by
  rw [mem_rectDrawn]
  constructor
  · rintro ⟨q, hq⟩
    exact ⟨q, bltPair_iff.2 ⟨c, hc, hq⟩, hq.2.2⟩
  · rintro ⟨q, ⟨hpq, hp, _⟩, hq⟩
    exact ⟨q, hpq, hp, hq⟩

theorem bltPair_place (hself : dev.ddb srcBmpId = dev.ddb destBmpId) {p q : Point}
    (h : BltPair dev srcBmpId srcRect destBmpId destPoint p q) :
    (dev.ddb destBmpId).place q = (dev.ddb srcBmpId).place p +
      drawnShift dev srcBmpId srcRect destBmpId destPoint := by
  rw [← hself]
  exact place_of_pair h.1

theorem mem_drawnPlaces (hself : dev.ddb srcBmpId = dev.ddb destBmpId) {i : Int} :
    i ∈ drawnPlaces dev srcBmpId srcRect destBmpId destPoint ↔
      ∃ p q, BltPair dev srcBmpId srcRect destBmpId destPoint p q ∧
        i = (dev.ddb destBmpId).place q := by
  rw [drawnPlaces, List.mem_map]
  constructor
  · rintro ⟨p, hp, hi⟩
    have ⟨q, hq⟩ := mem_drawn.1 hp
    exact ⟨p, q, hq, hi.symm.trans (bltPair_place hself hq).symm⟩
  · rintro ⟨p, q, hq, hi⟩
    exact ⟨p, mem_drawn.2 ⟨q, hq⟩, (hi.trans (bltPair_place hself hq)).symm⟩

/-- `BltRight` in terms of places. -/
theorem bltRight_iff (hself : dev.ddb srcBmpId = dev.ddb destBmpId) {mem mem' : Memory} :
    BltRight dev srcBmpId srcRect destBmpId destPoint mem mem' ↔
      mem' = atOnce dev.rasterOp.all (drawnShift dev srcBmpId srcRect destBmpId destPoint)
        (drawnPlaces dev srcBmpId srcRect destBmpId destPoint) mem := by
  constructor
  · rintro ⟨hdrawn, hothers⟩
    funext i
    by_cases hi : i ∈ drawnPlaces dev srcBmpId srcRect destBmpId destPoint
    · have ⟨p, q, hpq, hiq⟩ := (mem_drawnPlaces hself).1 hi
      rw [atOnce, if_pos hi, hiq, hdrawn p q hpq]
      congr 2
      rw [bltPair_place hself hpq, add_sub_cancel_right]
    · rw [atOnce, if_neg hi]
      exact hothers i fun p q hpq hiq => hi ((mem_drawnPlaces hself).2 ⟨p, q, hpq, hiq⟩)
  · rintro rfl
    constructor
    · intro p q hpq
      rw [atOnce, if_pos ((mem_drawnPlaces hself).2 ⟨p, q, hpq, rfl⟩)]
      congr 2
      rw [bltPair_place hself hpq, add_sub_cancel_right]
    · intro i hi
      rw [atOnce, if_neg]
      intro hmem
      have ⟨p, q, hpq, hiq⟩ := (mem_drawnPlaces hself).1 hmem
      exact hi p q hpq hiq

/-- The pixels of a rectangle are in the bitmap. -/
theorem contains_of_mem_rectDrawn {s : Rect} {d : Point} {c : Rect} {p : Point}
    (h : p ∈ rectDrawn dev srcBmpId s destBmpId d c) : (dev.ddb srcBmpId).rect.Contains p := by
  have ⟨q, hq⟩ := mem_rectDrawn.1 h
  exact hq.2.1

/-- The order of `rectDrawn`.  On one line only `memcpy` can be late. -/
theorem rectDrawn_before (dev : BltDevice) (srcBmpId : BltId) (s : Rect) (destBmpId : BltId)
    (d : Point) (c : Rect) :
    ∃ back : Bool, (dev.rasterOp = .COPY → back = false) ∧
      (rectDrawn dev srcBmpId s destBmpId d c).Pairwise (PointBefore (s.top < d.y) back) ∧
      ∀ p ∈ rectDrawn dev srcBmpId s destBmpId d c,
        ∀ p' ∈ rectDrawn dev srcBmpId s destBmpId d c, p.y = p'.y → Before back p.x p'.x →
          dev.rasterOp ≠ .COPY →
            (dev.ddb srcBmpId).place p' ≠ (dev.ddb srcBmpId).place p +
              bltShift (dev.ddb srcBmpId) s d := by
  have hinside := @contains_of_mem_rectDrawn dev srcBmpId destBmpId s d c
  cases hvisible : (clipTo dev srcBmpId s destBmpId d c).visible with
  | false =>
    rw [rectDrawn_of_not_visible hvisible]
    exact ⟨false, fun _ => rfl, List.Pairwise.nil, fun p hp => (nomatch hp)⟩
  | true =>
    rw [rectDrawn_of_visible hvisible] at hinside ⊢
    generalize clipTo dev srcBmpId s destBmpId d c = clipped at *
    simp only [mem_points] at hinside ⊢
    refine ⟨_, ?_, points_before _ _ _, ?_⟩
    · intro hop
      rw [GoesDown, decide_eq_false_iff_not, not_not]
      exact Or.inl hop
    · intro p hp p' hp' hy hbefore hop hplace
      have ⟨⟨h1, h2⟩, _⟩ := hp
      have ⟨⟨h1', h2'⟩, _⟩ := hp'
      have hwidth := (dev.ddb srcBmpId).width_le
      have hstride := (dev.ddb srcBmpId).stride_lt
      -- the line is inside the bitmap, so that its length is small
      have ⟨⟨hl, _⟩, _⟩ := @hinside { x := clipped.srcRect.left, y := p.y }
        ⟨⟨le_refl _, le_trans hp.1.1 hp.1.2⟩, hp.2⟩
      have ⟨⟨_, hr⟩, _⟩ := @hinside { x := clipped.srcRect.right, y := p.y }
        ⟨⟨le_trans hp.1.1 hp.1.2, le_refl _⟩, hp.2⟩
      have hl' : 0 ≤ clipped.srcRect.left := hl
      have hr' : clipped.srcRect.right ≤ (dev.ddb srcBmpId).width - 1 := hr
      have hlen : (UGL_RECT_WIDTH clipped.srcRect).toNat < 65536 := by
        rw [UGL_RECT_WIDTH]
        omega
      have hlen' : ((UGL_RECT_WIDTH clipped.srcRect).toNat : Int) =
          clipped.srcRect.right - clipped.srcRect.left + 1 := by
        have := le_trans hp.1.1 hp.1.2
        rw [UGL_RECT_WIDTH]
        omega
      have hdiff : p'.x - p.x = bltShift (dev.ddb srcBmpId) s d := by
        rw [GenDdb.place, GenDdb.place, hy] at hplace
        omega
      rcases @goesDown_or dev.rasterOp (bltShift (dev.ddb srcBmpId) s d) _ hlen with
        ⟨hdown, hor⟩ | ⟨hdown, _, hor⟩
      · rw [hdown] at hbefore
        have hlt : p.x < p'.x := hbefore
        rcases hor with h | h | h
        · exact hop h
        · omega
        · omega
      · rw [hdown] at hbefore
        have hlt : p'.x < p.x := hbefore
        omega

/-- No pixel is transferred twice. -/
theorem drawn_nodup (dev : BltDevice) (srcBmpId : BltId) (srcRect : Rect) (destBmpId : BltId)
    (destPoint : Point) : (drawn dev srcBmpId srcRect destBmpId destPoint).Nodup := by
  rw [drawn, List.Nodup, List.pairwise_flatMap]
  constructor
  · intro c _
    have ⟨back, _, hbefore, _⟩ := rectDrawn_before dev srcBmpId (bltSrcRect dev srcBmpId srcRect)
      destBmpId (bltDestPoint dev destBmpId destPoint) c
    exact hbefore.imp PointBefore.ne
  · refine (bltClips_apart dev _ _ destBmpId).imp fun h p hp p' hp' hpp => ?_
    have ⟨q, hq⟩ := mem_rectDrawn.1 hp
    have ⟨q', hq'⟩ := mem_rectDrawn.1 hp'
    have ⟨⟨_, hx, hy⟩, _, hc⟩ := hq
    have ⟨⟨_, hx', hy'⟩, _, hc'⟩ := hq'
    have hqq : q = q' := by
      rw [← hpp] at hx' hy'
      exact point_eq (hx.trans hx'.symm) (hy.trans hy'.symm)
    exact h q hc (hqq ▸ hc')

theorem drawnPlaces_nodup (dev : BltDevice) (srcBmpId : BltId) (srcRect : Rect)
    (destBmpId : BltId) (destPoint : Point) :
    (drawnPlaces dev srcBmpId srcRect destBmpId destPoint).Nodup := by
  refine List.Nodup.map_on (fun p hp p' hp' h => ?_) (drawn_nodup dev _ _ _ _)
  have ⟨q, hq⟩ := mem_drawn.1 hp
  have ⟨q', hq'⟩ := mem_drawn.1 hp'
  exact place_inj hq.2.1 hq'.2.1 (add_right_cancel h)

theorem lineBefore_same {p p' : Point} (hy : p.y = p'.y) :
    LineBefore dev srcBmpId srcRect destBmpId destPoint p p' ↔
      dev.rasterOp = .COPY ∧ p.x < p'.x := by
  rw [LineBefore, if_pos hy]

theorem lineBefore_other {p p' : Point} (hy : ¬ p.y = p'.y) :
    LineBefore dev srcBmpId srcRect destBmpId destPoint p p' ↔
      Before ((bltSrcRect dev srcBmpId srcRect).top < (bltDestPoint dev destBmpId destPoint).y)
        p.y p'.y := by
  rw [LineBefore, if_neg hy]
  simp only [Before, decide_eq_true_eq]

/-- Late reads in the order of the loops are those that `BltFits` rules out. -/
theorem noneLate_iff (hself : dev.ddb srcBmpId = dev.ddb destBmpId) :
    NoneLate (drawnShift dev srcBmpId srcRect destBmpId destPoint)
        (drawnPlaces dev srcBmpId srcRect destBmpId destPoint) ↔
      BltFits dev srcBmpId srcRect destBmpId destPoint := by
  refine List.pairwise_map.trans ?_
  rw [drawn, List.pairwise_flatMap]
  simp only [add_sub_cancel_right]
  constructor
  · rintro ⟨hin, hcross⟩
    constructor
    · refine hcross.imp_of_mem fun hc hc' h p q p' q' hpq hpq' hq hq' => ?_
      rw [bltPair_place hself hpq]
      exact h p ((mem_rectDrawn_pair hc).2 ⟨q, hpq, hq⟩) p'
        ((mem_rectDrawn_pair hc').2 ⟨q', hpq', hq'⟩)
    · intro c hc p q p' q' hpq hpq' hq hq' hbefore
      have ⟨back, hcopy, horder, _⟩ := rectDrawn_before dev srcBmpId
        (bltSrcRect dev srcBmpId srcRect) destBmpId (bltDestPoint dev destBmpId destPoint) c
      rw [bltPair_place hself hpq]
      refine (pairwise_iff_of_order horder fun _ _ => PointBefore.asymm).1 (hin c hc) p
        ((mem_rectDrawn_pair hc).2 ⟨q, hpq, hq⟩) p'
        ((mem_rectDrawn_pair hc).2 ⟨q', hpq', hq'⟩) ?_
      rw [PointBefore]
      by_cases hy : p.y = p'.y
      · have hsame := (lineBefore_same hy).1 hbefore
        rw [if_pos hy, hcopy hsame.1]
        exact hsame.2
      · rw [if_neg hy]
        exact (lineBefore_other hy).1 hbefore
  · rintro ⟨hrects, hlines⟩
    constructor
    · intro c hc
      have ⟨back, hcopy, horder, hline⟩ := rectDrawn_before dev srcBmpId
        (bltSrcRect dev srcBmpId srcRect) destBmpId (bltDestPoint dev destBmpId destPoint) c
      refine (pairwise_iff_of_order horder fun _ _ => PointBefore.asymm).2
        fun p hp p' hp' hbefore => ?_
      have ⟨q, hpq, hq⟩ := (mem_rectDrawn_pair hc).1 hp
      have ⟨q', hpq', hq'⟩ := (mem_rectDrawn_pair hc).1 hp'
      have hlate := hlines c hc p q p' q' hpq hpq' hq hq'
      rw [bltPair_place hself hpq] at hlate
      rw [PointBefore] at hbefore
      by_cases hy : p.y = p'.y
      · rw [if_pos hy] at hbefore
        by_cases hop : dev.rasterOp = .COPY
        · rw [hcopy hop] at hbefore
          exact hlate ((lineBefore_same hy).2 ⟨hop, hbefore⟩)
        · exact hline p hp p' hp' hy hbefore hop
      · rw [if_neg hy] at hbefore
        exact hlate ((lineBefore_other hy).2 hbefore)
    · refine hrects.imp_of_mem fun hc hc' h p hp p' hp' => ?_
      have ⟨q, hpq, hq⟩ := (mem_rectDrawn_pair hc).1 hp
      have ⟨q', hpq', hq'⟩ := (mem_rectDrawn_pair hc').1 hp'
      have hne := h p q p' q' hpq hpq' hq hq'
      rw [bltPair_place hself hpq] at hne
      exact hne

end Drawn

/-! ## The result -/

/-- The raster operations show what was combined. -/
theorem all_telling (op : RasterOp) : Telling op.all := by
  cases op
  · exact ⟨0, 0, 1, 1, by decide, by decide, by decide⟩
  · exact ⟨255, 255, 0, 0, by decide, by decide, by decide⟩
  · exact ⟨0, 0, 255, 255, by decide, by decide, by decide⟩
  · exact ⟨0, 0, 255, 0, by decide, by decide, by decide⟩

/-- A display of one line of eight pixels. -/
def rowDevice (op : RasterOp) : BltDevice where
  pDrawPage := { address := 1, width := 8, height := 1, stride := 8, pData := 0,
                 width_le := Int.le_refl 8, stride_lt := Nat.lt_of_sub_pos (Nat.succ_pos 65527) }
  pDefaultBitmap := none
  viewPort := sizeRect 8 1
  clipRect := sizeRect 8 1
  clipRegionId := none
  rasterOp := op

end Vmx.Ugl
