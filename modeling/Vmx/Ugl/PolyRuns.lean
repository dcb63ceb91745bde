import Mathlib.Data.List.TakeWhile
import Vmx.Ugl.PolyOutline

/-!
# When the fill data of a polygon are right

`FillFits` is the condition: the line buffer has room for each edge, the horizontal edges on the
last visible scan line would not change it, and each change finds a value to move.  Then the points
of a scan line are `crossings`, with the changes of the horizontal edges (`fillData_line`), and
`polygon_right` follows.
-/

namespace Vmx.Ugl

/-! ## Scan lines -/

namespace ScanLine

variable {xMin xMax v x : Int} {before after points : List Int} {line : ScanLine}

/-- The list of values with one more. -/
def insertPoint (points : List Int) (x : Int) : List Int := points.orderedInsert (· < ·) x

theorem insertPoint_sorted (h : points.Pairwise (· ≤ ·)) :
    (insertPoint points x).Pairwise (· ≤ ·) := by
  induction points with
  | nil => exact List.pairwise_singleton _ _
  | cons y points ih =>
    obtain ⟨hy, hpoints⟩ := List.pairwise_cons.1 h
    rw [insertPoint, List.orderedInsert]
    split
    · rename_i hxy
      refine List.pairwise_cons.2 ⟨fun z hz => ?_, h⟩
      rcases List.mem_cons.1 hz with hz | hz
      · exact hz ▸ le_of_lt hxy
      · exact le_trans (le_of_lt hxy) (hy z hz)
    · rename_i hxy
      refine List.pairwise_cons.2 ⟨fun z hz => ?_, ih hpoints⟩
      rcases (List.mem_orderedInsert _).1 hz with hz | hz
      · exact hz ▸ not_lt.1 hxy
      · exact hy z hz

theorem foldl_insertPoint_length (xs : List Int) (points : List Int) :
    (xs.foldl insertPoint points).length = points.length + xs.length := by
  induction xs generalizing points with
  | nil => rfl
  | cons x xs ih =>
    rw [List.foldl_cons, ih, insertPoint, List.orderedInsert_length, List.length_cons]
    omega

theorem foldl_insertPoint_sorted (xs : List Int) {points : List Int}
    (h : points.Pairwise (· ≤ ·)) : (xs.foldl insertPoint points).Pairwise (· ≤ ·) := by
  induction xs generalizing points with
  | nil => exact h
  | cons x xs ih => exact ih (insertPoint_sorted h)

theorem foldl_insert_points (xs : List Int) (line : ScanLine) :
    (xs.foldl insert line).points = xs.foldl insertPoint line.points := by
  induction xs generalizing line with
  | nil => rfl
  | cons x xs ih =>
    rw [List.foldl_cons, ih]
    rfl

/-- Only the entries of the values have been written. -/
theorem foldl_insert_written (xs : List Int) {line : ScanLine}
    (h : line.written ≤ line.points.length) :
    (xs.foldl insert line).written ≤ (xs.foldl insert line).points.length := by
  induction xs generalizing line with
  | nil => exact h
  | cons x xs ih =>
    apply ih
    show max line.written (line.points.length + 1) ≤ (insertPoint line.points x).length
    rw [insertPoint, List.orderedInsert_length]
    omega

/-! ## The change for a horizontal edge -/

theorem adjusted_length :
    (adjusted xMin xMax before v after).length = before.length + 1 + after.length := by
  unfold adjusted
  dsimp only
  have hafter := congrArg List.length (@List.takeWhile_append_dropWhile _ (· = v) after)
  have hbefore := congrArg List.length (@List.takeWhile_append_dropWhile _ (· = v) before.reverse)
  rw [List.length_append] at hafter hbefore
  rw [List.length_reverse] at hbefore
  split
  · split
    · rw [List.length_append, List.length_append, List.orderedInsert_length]
      omega
    · rw [List.length_append, List.length_cons]
      omega
  · split
    · rw [List.length_append, List.length_append, List.length_reverse, List.orderedInsert_length]
      omega
    · rw [List.length_append, List.length_cons]
      omega

theorem eq_of_mem_takeWhile {a : Int} (h : a ∈ points.takeWhile (· = v)) : a = v := by
  simpa using List.mem_takeWhile_imp h

theorem adjusted_sorted (hle : xMin ≤ xMax) (hv : v = xMin ∨ v = xMax)
    (h : (before ++ v :: after).Pairwise (· ≤ ·)) :
    (adjusted xMin xMax before v after).Pairwise (· ≤ ·) := by
  obtain ⟨hbefore, hcons, hcross⟩ := List.pairwise_append.1 h
  obtain ⟨hv_after, hafter⟩ := List.pairwise_cons.1 hcons
  have hbefore_v : ∀ a ∈ before, a ≤ v := fun a ha => hcross a ha v List.mem_cons_self
  unfold adjusted
  dsimp only
  split
  · rename_i hmin
    split
    · -- the values behind the new one are greater than `v`
      have htake : (after.takeWhile (· = v)).Sublist after := (List.takeWhile_prefix _).sublist
      have hdrop : (after.dropWhile (· = v)).Sublist after := (List.dropWhile_suffix _).sublist
      refine List.pairwise_append.2 ⟨?_, ?_, ?_⟩
      · refine h.sublist ((List.Sublist.refl before).append ?_)
        exact htake.trans (List.sublist_cons_self v after)
      · exact (hafter.sublist hdrop).orderedInsert _ _
      · intro a ha b hb
        have hav : a ≤ v := by
          rcases List.mem_append.1 ha with ha | ha
          · exact hbefore_v a ha
          · exact le_of_eq (eq_of_mem_takeWhile ha)
        rcases (List.mem_orderedInsert _).1 hb with hb | hb
        · omega
        · exact le_trans hav (hv_after b (hdrop.subset hb))
    · exact h
  · rename_i hmin
    have hmax : v = xMax := hv.resolve_left hmin
    split
    · have htake : ∀ a ∈ before.reverse.takeWhile (· = v), a = v := fun a ha =>
        eq_of_mem_takeWhile ha
      have hdrop : (before.reverse.dropWhile (· = v)).Sublist before.reverse :=
        (List.dropWhile_suffix _).sublist
      have hreverse : before.reverse.Pairwise (· ≥ ·) := List.pairwise_reverse.2 hbefore
      refine List.pairwise_append.2 ⟨List.pairwise_append.2 ⟨?_, ?_, ?_⟩, hafter, ?_⟩
      · exact List.pairwise_reverse.2 ((hreverse.sublist hdrop).orderedInsert _ _)
      · exact List.pairwise_of_forall_mem_list fun a ha b hb =>
          le_of_eq ((htake a ha).trans (htake b hb).symm)
      · intro a ha b hb
        rw [htake b hb]
        rcases (List.mem_orderedInsert _).1 (List.mem_reverse.1 ha) with ha | ha
        · omega
        · exact hbefore_v a (List.mem_reverse.1 (hdrop.subset ha))
      · intro a ha b hb
        refine le_trans ?_ (hv_after b hb)
        rcases List.mem_append.1 ha with ha | ha
        · rcases (List.mem_orderedInsert _).1 (List.mem_reverse.1 ha) with ha | ha
          · omega
          · exact hbefore_v a (List.mem_reverse.1 (hdrop.subset ha))
        · exact le_of_eq (htake a ha)
    · exact h

/-- The list of values after the change, when one of the two values is in it. -/
def moved (points : List Int) (x : Int × Int) : List Int :=
  match points.dropWhile (unlike x.1 x.2) with
  | v :: after => adjusted x.1 x.2 (points.takeWhile (unlike x.1 x.2)) v after
  | [] => points

theorem unlike_false : unlike xMin xMax x = false ↔ x = xMin ∨ x = xMax := by
  unfold unlike
  rw [decide_eq_false_iff_not]
  omega

/-- The first of the two values in the list. -/
theorem dropWhile_unlike (h : xMin ∈ points ∨ xMax ∈ points) :
    ∃ v after, points.dropWhile (unlike xMin xMax) = v :: after ∧ (v = xMin ∨ v = xMax) := by
  cases hdrop : points.dropWhile (unlike xMin xMax) with
  | nil =>
    have hall := List.dropWhile_eq_nil_iff.1 hdrop
    rcases h with h | h
    · exact absurd (hall _ h) (by rw [unlike_false.2 (Or.inl rfl)]; exact Bool.false_ne_true)
    · exact absurd (hall _ h) (by rw [unlike_false.2 (Or.inr rfl)]; exact Bool.false_ne_true)
  | cons v after =>
    refine ⟨v, after, rfl, unlike_false.1 ?_⟩
    have hhead := @List.head_dropWhile_not _ (unlike xMin xMax) points
    simp only [hdrop] at hhead
    exact hhead (List.cons_ne_nil v after)

theorem adjust_found (h : xMin ∈ line.points ∨ xMax ∈ line.points) :
    line.adjust xMin xMax = { line with points := moved line.points (xMin, xMax) } := by
  obtain ⟨v, after, hdrop, _⟩ := dropWhile_unlike h
  unfold adjust moved
  simp only [hdrop]

theorem moved_spec {s : Int × Int} (hle : s.1 ≤ s.2) (h : s.1 ∈ points ∨ s.2 ∈ points)
    (hsorted : points.Pairwise (· ≤ ·)) :
    (moved points s).length = points.length ∧ (moved points s).Pairwise (· ≤ ·) := by
  obtain ⟨v, after, hdrop, hv⟩ := dropWhile_unlike h
  have hsplit := @List.takeWhile_append_dropWhile _ (unlike s.1 s.2) points
  rw [hdrop] at hsplit
  have hmoved : moved points s = adjusted s.1 s.2 (points.takeWhile (unlike s.1 s.2)) v after := by
    unfold moved
    simp only [hdrop]
  rw [hmoved]
  constructor
  · have hlength := congrArg List.length hsplit
    rw [List.length_append, List.length_cons] at hlength
    rw [adjusted_length]
    omega
  · apply adjusted_sorted hle hv
    rw [hsplit]
    exact hsorted

/-- Each change in turn finds one of its values. -/
def Finds : List (Int × Int) → List Int → Prop
  | [], _ => True
  | s :: ss, points => (s.1 ∈ points ∨ s.2 ∈ points) ∧ Finds ss (moved points s)

theorem foldl_adjust {ss : List (Int × Int)} (h : Finds ss line.points) :
    ss.foldl (fun line s => line.adjust s.1 s.2) line =
      { line with points := ss.foldl moved line.points } := by
  induction ss generalizing line with
  | nil => rfl
  | cons s ss ih =>
    rw [List.foldl_cons, List.foldl_cons, adjust_found h.1, ih h.2]

theorem foldl_moved {ss : List (Int × Int)} (hle : ∀ s ∈ ss, s.1 ≤ s.2) (h : Finds ss points)
    (hsorted : points.Pairwise (· ≤ ·)) :
    (ss.foldl moved points).length = points.length ∧
      (ss.foldl moved points).Pairwise (· ≤ ·) := by
  induction ss generalizing points with
  | nil => exact ⟨rfl, hsorted⟩
  | cons s ss ih =>
    have hs := moved_spec (hle s List.mem_cons_self) h.1 hsorted
    have hrest := ih (fun s' hs' => hle s' (List.mem_cons_of_mem s hs')) h.2 hs.2
    exact ⟨hrest.1.trans hs.1, hrest.2⟩

end ScanLine

/-! ## The loop over the edges -/

section Edges

variable {gc : PolyGc} {points : List Point} {yMin yMax y : Int} {es : List PolyEdge}

theorem fold_edges (hfits : ∀ e ∈ es, e.1.y ≠ e.2.y →
    ((e.2.y - e.1.y).natAbs : Int) + 1 ≤ yMax - yMin + 1) (st : FillState) :
    (es.foldl (fillEdge gc yMin yMax) st).rows =
      (outline gc st.prevSlope es).foldl (fillPoint yMin yMax) st.rows := by
  induction es generalizing st with
  | nil => rfl
  | cons e es ih =>
    have ih' := ih fun e' he' => hfits e' (List.mem_cons_of_mem e he')
    rw [List.foldl_cons, ih', outline, List.foldl_append]
    by_cases hne : e.1.y = e.2.y
    · rw [fillEdge, if_pos hne, edgePart, if_pos hne, nextDir, if_pos hne, List.foldl_nil]
    · have hmove : (gc.move e.1).y ≠ (gc.move e.2).y := fun h => hne (add_right_cancel h)
      have hroom : (((gc.move e.2).y - (gc.move e.1).y).natAbs : Int) + 1 ≤ yMax - yMin + 1 := by
        have hheight : (gc.move e.2).y - (gc.move e.1).y = e.2.y - e.1.y :=
          add_sub_add_right_eq_sub _ _ _
        rw [hheight]
        exact hfits e List.mem_cons_self hne
      rw [fillEdge, if_neg hne, edgePart, if_neg hne, nextDir, if_neg hne,
        boundary_fits hmove hroom]
      rfl

/-- The points in a visible scan line are put in one after the other. -/
theorem fold_points (l : List Point) (rows : Int → ScanLine) (hy : yMin ≤ y ∧ y ≤ yMax) :
    l.foldl (fillPoint yMin yMax) rows y = (onRow y l).foldl ScanLine.insert (rows y) := by
  induction l generalizing rows with
  | nil => rfl
  | cons p l ih =>
    rw [List.foldl_cons, ih]
    by_cases hp : p.y = y
    · rw [onRow_cons_of_eq hp, List.foldl_cons, fillPoint, if_pos ⟨hp ▸ hy.1, hp ▸ hy.2⟩, hp,
        Function.update_self]
    · rw [onRow_cons_of_ne hp]
      congr 1
      rw [fillPoint]
      split
      · exact Function.update_of_ne (Ne.symm hp) _ _
      · rfl

theorem fold_points_outside (l : List Point) (rows : Int → ScanLine)
    (hy : ¬ (yMin ≤ y ∧ y ≤ yMax)) : l.foldl (fillPoint yMin yMax) rows y = rows y := by
  induction l generalizing rows with
  | nil => rfl
  | cons p l ih =>
    rw [List.foldl_cons, ih, fillPoint]
    split
    · rename_i hp
      exact Function.update_of_ne (fun h => hy (by rw [h]; exact hp)) _ _
    · rfl

theorem fold_edges_outside (st : FillState) (hy : ¬ (yMin ≤ y ∧ y ≤ yMax)) :
    (es.foldl (fillEdge gc yMin yMax) st).rows y = st.rows y := by
  induction es generalizing st with
  | nil => rfl
  | cons e es ih =>
    rw [List.foldl_cons, ih, fillEdge]
    split
    · rfl
    · exact fold_points_outside _ _ hy

end Edges

/-! ## The loop for the horizontal edges -/

section Steps

variable {gc : PolyGc} {points : List Point} {yMin yMax y : Int}

/-- The change that is due on the scan line `y` for the edge `i`. -/
def stepOn (gc : PolyGc) (points : List Point) (y : Int) (i : Nat) : Option (Int × Int) :=
  if edgeLine gc points i = y then
    (stepAt points i).map fun x => (x.1 + gc.viewPort.left, x.2 + gc.viewPort.left)
  else none

/-- The changes that are due on a scan line, in order. -/
def stepsOn (gc : PolyGc) (points : List Point) (y : Int) : List (Int × Int) :=
  (List.range (points.length - 1)).filterMap (stepOn gc points y)

theorem stepLine_eq {i : Nat} (h : edgeLine gc points i = y) (line : ScanLine) :
    stepLine gc points i line =
      ((stepOn gc points y i).toList).foldl (fun line s => line.adjust s.1 s.2) line := by
  rw [stepLine, stepOn, if_pos h]
  cases stepAt points i with
  | none => rfl
  | some x => rfl

theorem fold_steps (is : List Nat) (rows : Int → ScanLine) (hy : yMin ≤ y ∧ y < yMax) :
    is.foldl (fillStep gc points yMin yMax) rows y =
      (is.filterMap (stepOn gc points y)).foldl (fun line s => line.adjust s.1 s.2) (rows y) := by
  induction is generalizing rows with
  | nil => rfl
  | cons i is ih =>
    rw [List.foldl_cons, ih, List.filterMap_cons]
    by_cases h : edgeLine gc points i = y
    · rw [fillStep, if_pos (h ▸ hy), h, Function.update_self, stepLine_eq h]
      cases stepOn gc points y i with
      | none => rfl
      | some s => rfl
    · have hnone : stepOn gc points y i = none := if_neg h
      rw [hnone, fillStep]
      dsimp only
      congr 1
      split
      · exact Function.update_of_ne (Ne.symm h) _ _
      · rfl

theorem fold_steps_outside (is : List Nat) (rows : Int → ScanLine)
    (hy : ¬ (yMin ≤ y ∧ y < yMax)) :
    is.foldl (fillStep gc points yMin yMax) rows y = rows y := by
  induction is generalizing rows with
  | nil => rfl
  | cons i is ih =>
    rw [List.foldl_cons, ih, fillStep]
    split
    · rename_i h
      exact Function.update_of_ne (fun heq => hy (by rw [heq]; exact h)) _ _
    · rfl

/-- `xMin` is not greater than `xMax`. -/
theorem stepAt_le {i : Nat} {x : Int × Int} (h : stepAt points i = some x) : x.1 ≤ x.2 := by
  unfold stepAt at h
  dsimp only at h
  rw [Option.ite_none_right_eq_some, Option.ite_none_right_eq_some] at h
  rw [← Option.some.inj h.2.2]
  split <;> dsimp only <;> omega

theorem stepsOn_le {s : Int × Int} (h : s ∈ stepsOn gc points y) : s.1 ≤ s.2 := by
  obtain ⟨i, _, hi⟩ := List.mem_filterMap.1 h
  unfold stepOn at hi
  split at hi
  · obtain ⟨x, hx, heq⟩ := Option.map_eq_some_iff.1 hi
    rw [← heq]
    exact add_le_add_left (stepAt_le hx) _
  · cases hi

end Steps

/-! ## The visible scan lines -/

section Visible

variable {points : List Point} {gc : PolyGc}

theorem foldl_least (points : List Point) (a : Int) :
    points.foldl (fun y p => if p.y < y then p.y else y) a ≤ a ∧
      (∀ p ∈ points, points.foldl (fun y p => if p.y < y then p.y else y) a ≤ p.y) ∧
      ∀ b, b ≤ a → (∀ p ∈ points, b ≤ p.y) →
        b ≤ points.foldl (fun y p => if p.y < y then p.y else y) a := by
  induction points generalizing a with
  | nil => exact ⟨le_refl a, fun _ h => absurd h List.not_mem_nil, fun _ h _ => h⟩
  | cons q points ih =>
    obtain ⟨h1, h2, h3⟩ := ih (if q.y < a then q.y else a)
    rw [List.foldl_cons]
    refine ⟨h1.trans (by split <;> omega), fun p hp => ?_, fun b hb hall => ?_⟩
    · rcases List.mem_cons.1 hp with hp | hp
      · exact h1.trans (by rw [hp]; split <;> omega)
      · exact h2 p hp
    · have hq := hall q List.mem_cons_self
      exact h3 b (by split <;> omega) fun p hp => hall p (List.mem_cons_of_mem q hp)

theorem foldl_greatest (points : List Point) (a : Int) :
    a ≤ points.foldl (fun y p => if p.y > y then p.y else y) a ∧
      (∀ p ∈ points, p.y ≤ points.foldl (fun y p => if p.y > y then p.y else y) a) ∧
      ∀ b, a ≤ b → (∀ p ∈ points, p.y ≤ b) →
        points.foldl (fun y p => if p.y > y then p.y else y) a ≤ b := by
  induction points generalizing a with
  | nil => exact ⟨le_refl a, fun _ h => absurd h List.not_mem_nil, fun _ h _ => h⟩
  | cons q points ih =>
    obtain ⟨h1, h2, h3⟩ := ih (if q.y > a then q.y else a)
    rw [List.foldl_cons]
    refine ⟨le_trans (by split <;> omega) h1, fun p hp => ?_, fun b hb hall => ?_⟩
    · rcases List.mem_cons.1 hp with hp | hp
      · exact le_trans (by rw [hp]; split <;> omega) h1
      · exact h2 p hp
    · have hq := hall q List.mem_cons_self
      exact h3 b (by split <;> omega) fun p hp => hall p (List.mem_cons_of_mem q hp)

/-- The first and the last scan line of a polygon, visible or not. -/
def firstLine (gc : PolyGc) (points : List Point) : Int :=
  points.foldl (fun y p => if p.y < y then p.y else y) 2147483647 + gc.viewPort.top

def lastLine (gc : PolyGc) (points : List Point) : Int :=
  points.foldl (fun y p => if p.y > y then p.y else y) (-2147483648) + gc.viewPort.top

theorem visible_in_polygon :
    firstLine gc points ≤ yMin gc points ∧ yMax gc points ≤ lastLine gc points := by
  unfold yMin yMax firstLine lastLine
  dsimp only
  constructor
  · split <;> omega
  · split <;> omega

/-- In a clip rectangle with the whole polygon each line of it is visible. -/
theorem visible_unclipped (polygon : Polygon)
    (h : ∀ p ∈ polygon.pointArray, gc.clipRect.Contains p) :
    yMin gc polygon.pointArray = firstLine gc polygon.pointArray ∧
      yMax gc polygon.pointArray = lastLine gc polygon.pointArray := by
  obtain ⟨p, hp⟩ := List.exists_mem_of_length_pos (lt_of_lt_of_le (Nat.succ_pos 2) polygon.three)
  have hint := polygon.isInt p hp
  have hcontains := h p hp
  have hleast := (foldl_least polygon.pointArray 2147483647).2.2 gc.clipRect.top
    (hcontains.2.1.trans hint.2) fun q hq => (h q hq).2.1
  have hgreatest := (foldl_greatest polygon.pointArray (-2147483648)).2.2 gc.clipRect.bottom
    (hint.1.trans hcontains.2.2) fun q hq => (h q hq).2.2
  unfold yMin yMax firstLine lastLine
  dsimp only
  rw [if_neg (by omega), if_neg (by omega)]
  exact ⟨rfl, rfl⟩

theorem mem_of_mem_edges {e : PolyEdge} (h : e ∈ edges points) : e.1 ∈ points ∧ e.2 ∈ points := by
  obtain ⟨h1, h2⟩ := List.of_mem_zip (show (e.1, e.2) ∈ points.zip points.tail from h)
  exact ⟨h1, List.mem_of_mem_tail h2⟩

/-- The whole polygon has as many lines as any of its edges. -/
theorem edge_in_lines {e : PolyEdge} (h : e ∈ edges points) :
    ((e.2.y - e.1.y).natAbs : Int) + 1 ≤ lastLine gc points - firstLine gc points + 1 := by
  obtain ⟨h1, h2⟩ := mem_of_mem_edges h
  have hleast := (foldl_least points 2147483647).2.1
  have hgreatest := (foldl_greatest points (-2147483648)).2.1
  have a1 := hleast _ h1
  have a2 := hleast _ h2
  have b1 := hgreatest _ h1
  have b2 := hgreatest _ h2
  unfold lastLine firstLine
  omega

end Visible

/-! ## The result -/

section Polygon

variable {gc : PolyGc} {points : List Point} {y : Int}

/-- The values that the edges give a scan line. -/
def crossings (gc : PolyGc) (points : List Point) (y : Int) : List Int :=
  (onRow y (outline gc (lastSlope points) (edges points))).foldl ScanLine.insertPoint []

theorem outline_clipRect {s : Int} {es : List PolyEdge} (clipRect : Rect) :
    outline { gc with clipRect := clipRect } s es = outline gc s es := by
  induction es generalizing s with
  | nil => rfl
  | cons e es ih =>
    rw [outline, outline, ih]
    rfl

/-- The changes that are made on a visible scan line: all but on the last one. -/
def dueOn (gc : PolyGc) (points : List Point) (y : Int) : List (Int × Int) :=
  if y < yMax gc points then stepsOn gc points y else []

/-- The line buffer has room for each edge, the changes on the last visible scan line would be
none (or it is the last one of the polygon), and each change finds a value. -/
structure FillFits (gc : PolyGc) (points : List Point) : Prop where
  edges : ∀ e ∈ edges points, e.1.y ≠ e.2.y →
    ((e.2.y - e.1.y).natAbs : Int) + 1 ≤ numLines gc points
  last : yMax gc points = lastLine gc points ∨
    ScanLine.Finds (stepsOn gc points (yMax gc points)) (crossings gc points (yMax gc points)) ∧
      (stepsOn gc points (yMax gc points)).foldl ScanLine.moved
        (crossings gc points (yMax gc points)) = crossings gc points (yMax gc points)
  found : ∀ y, yMin gc points ≤ y → y < yMax gc points →
    ScanLine.Finds (stepsOn gc points y) (crossings gc points y)

/-- A sorted list of an even number of values on each visible scan line, the same as in a clip
rectangle with the whole polygon, and nothing outside the scratch buffer. -/
structure FillRight (gc : PolyGc) (points : List Point) : Prop where
  sorted : ∀ scratch y, yMin gc points ≤ y → y ≤ yMax gc points →
    (fillData gc points scratch y).points.Pairwise (· ≤ ·)
  even : ∀ scratch y, yMin gc points ≤ y → y ≤ yMax gc points →
    (fillData gc points scratch y).points.length % 2 = 0
  length_le : ∀ scratch y, yMin gc points ≤ y → y ≤ yMax gc points →
    (fillData gc points scratch y).points.length ≤ points.length - 1
  unclipped : ∀ clipRect : Rect, (∀ p ∈ points, clipRect.Contains p) →
    ∀ scratch scratch' y, yMin gc points ≤ y → y ≤ yMax gc points →
      (fillData gc points scratch y).points =
        (fillData { gc with clipRect := clipRect } points scratch' y).points
  written : ∀ scratch y, yMin gc points ≤ y → y ≤ yMax gc points →
    (fillData gc points scratch y).written ≤ points.length - 1
  outside : ∀ scratch y, ¬ (yMin gc points ≤ y ∧ y ≤ yMax gc points) →
    fillData gc points scratch y = { points := [], rest := scratch.rest y, written := 0 }
  lineBuffer : yMin gc points ≤ yMax gc points → ∀ p1 p2 l,
    uglLineDataGetBoundary p1 p2 (numLines gc points) = some l → l.length ≤ numLines gc points

theorem edgeRows_eq (hedges : ∀ e ∈ edges points, e.1.y ≠ e.2.y →
      ((e.2.y - e.1.y).natAbs : Int) + 1 ≤ numLines gc points)
    (hy : yMin gc points ≤ y ∧ y ≤ yMax gc points) (scratch : Scratch) :
    edgeRows gc points scratch y =
      (onRow y (outline gc (lastSlope points) (edges points))).foldl ScanLine.insert
        { points := [], rest := scratch.rest y, written := 0 } := by
  rw [edgeRows, fold_edges hedges, fold_points _ _ hy]

theorem edgeRows_points (hedges : ∀ e ∈ edges points, e.1.y ≠ e.2.y →
      ((e.2.y - e.1.y).natAbs : Int) + 1 ≤ numLines gc points)
    (hy : yMin gc points ≤ y ∧ y ≤ yMax gc points) (scratch : Scratch) :
    (edgeRows gc points scratch y).points = crossings gc points y := by
  rw [edgeRows_eq hedges hy, ScanLine.foldl_insert_points, crossings]

/-- The data of a visible scan line. -/
theorem fillData_line (hedges : ∀ e ∈ edges points, e.1.y ≠ e.2.y →
      ((e.2.y - e.1.y).natAbs : Int) + 1 ≤ numLines gc points)
    (hy : yMin gc points ≤ y ∧ y ≤ yMax gc points)
    (hfound : ScanLine.Finds (dueOn gc points y) (crossings gc points y)) (scratch : Scratch) :
    fillData gc points scratch y =
      { edgeRows gc points scratch y with
        points := (dueOn gc points y).foldl ScanLine.moved (crossings gc points y) } := by
  have hpoints := edgeRows_points hedges hy scratch
  unfold dueOn at hfound ⊢
  rw [fillData]
  by_cases hlast : y < yMax gc points
  · rw [if_pos hlast] at hfound ⊢
    rw [fold_steps _ _ ⟨hy.1, hlast⟩, ← hpoints]
    apply ScanLine.foldl_adjust
    rw [hpoints]
    exact hfound
  · rw [if_neg hlast, fold_steps_outside _ _ (fun h => hlast h.2), List.foldl_nil, ← hpoints]

theorem crossings_length :
    (crossings gc points y).length =
      (onRow y (outline gc (lastSlope points) (edges points))).length := by
  rw [crossings, ScanLine.foldl_insertPoint_length, List.length_nil, Nat.zero_add]

theorem crossings_sorted : (crossings gc points y).Pairwise (· ≤ ·) :=
  ScanLine.foldl_insertPoint_sorted _ List.Pairwise.nil

theorem crossings_length_le : (crossings gc points y).length ≤ points.length - 1 := by
  rw [crossings_length]
  refine outline_length_le.trans ?_
  rw [edges, List.length_zip, List.length_tail]
  omega

theorem outline_horizontal {s : Int} {es : List PolyEdge} (h : ∀ e ∈ es, e.1.y = e.2.y) :
    outline gc s es = [] := by
  induction es generalizing s with
  | nil => rfl
  | cons e es ih =>
    rw [outline, edgePart, if_pos (h e List.mem_cons_self), List.nil_append]
    exact ih fun e' he' => h e' (List.mem_cons_of_mem e he')

/-- A closed outline crosses each scan line an even number of times. -/
theorem crossings_even (polygon : Polygon) :
    (crossings gc polygon.pointArray y).length % 2 = 0 := by
  rw [crossings_length]
  obtain ⟨points, hthree, hclosed, _⟩ := polygon
  dsimp only
  cases hfind : (edges points).reverse.find? fun e => e.2.y - e.1.y ≠ 0 with
  | none =>
    rw [outline_horizontal, onRow_nil, List.length_nil]
    intro e he
    have hall := List.find?_eq_none.1 hfind e (List.mem_reverse.2 he)
    rw [decide_eq_true_eq, not_not] at hall
    omega
  | some e =>
    have hne : e.2.y - e.1.y ≠ 0 := by simpa using List.find?_some hfind
    have hslope : lastSlope points = slopeSign (e.2.y - e.1.y) := by
      rw [lastSlope, hfind, Option.map_some, Option.getD_some]
    have hsign : lastSlope points = 1 ∨ lastSlope points = -1 := by
      rw [hslope, slopeSign]
      split_ifs <;> omega
    have hdir : lastDir (lastSlope points) (edges points) = lastSlope points := by
      rw [lastDir_eq, hfind, Option.map_some, Option.getD_some, hslope]
    cases points with
    | nil => exact absurd hthree (Nat.not_succ_le_zero 2)
    | cons p rest =>
      have hparity := @outline_parity gc y _ hsign p rest
      rw [List.head?_cons, List.getLast?_eq_some_getLast (List.cons_ne_nil p rest)] at hclosed
      rw [hdir, ← Option.some.inj hclosed] at hparity
      omega

theorem dueOn_le {s : Int × Int} (h : s ∈ dueOn gc points y) : s.1 ≤ s.2 := by
  unfold dueOn at h
  split at h
  · exact stepsOn_le h
  · exact absurd h List.not_mem_nil

/-- The changes keep the number of values and their order. -/
theorem due_spec (hfound : ScanLine.Finds (dueOn gc points y) (crossings gc points y)) :
    ((dueOn gc points y).foldl ScanLine.moved (crossings gc points y)).length =
        (crossings gc points y).length ∧
      ((dueOn gc points y).foldl ScanLine.moved (crossings gc points y)).Pairwise (· ≤ ·) :=
  ScanLine.foldl_moved (fun _ => dueOn_le) hfound crossings_sorted

/-- With the whole polygon in the clip rectangle the changes that are due come to the same. -/
theorem FillFits.due_unclipped {polygon : Polygon} (h : FillFits gc polygon.pointArray)
    {clipRect : Rect} (hclip : ∀ p ∈ polygon.pointArray, clipRect.Contains p)
    (hy : yMin gc polygon.pointArray ≤ y ∧ y ≤ yMax gc polygon.pointArray) :
    ScanLine.Finds (dueOn { gc with clipRect := clipRect } polygon.pointArray y)
        (crossings gc polygon.pointArray y) ∧
      (dueOn { gc with clipRect := clipRect } polygon.pointArray y).foldl ScanLine.moved
          (crossings gc polygon.pointArray y) =
        (dueOn gc polygon.pointArray y).foldl ScanLine.moved
          (crossings gc polygon.pointArray y) := by
  have hsteps : stepsOn { gc with clipRect := clipRect } polygon.pointArray y =
      stepsOn gc polygon.pointArray y := rfl
  have hlastLine : lastLine { gc with clipRect := clipRect } polygon.pointArray =
      lastLine gc polygon.pointArray := rfl
  have hwhole := (@visible_unclipped { gc with clipRect := clipRect } polygon hclip).2
  have hinside := (@visible_in_polygon polygon.pointArray gc).2
  rw [dueOn, dueOn, hwhole, hlastLine, hsteps]
  rcases lt_or_eq_of_le hy.2 with hlt | heq
  · rw [if_pos (lt_of_lt_of_le hlt hinside), if_pos hlt]
    exact ⟨h.found y hy.1 hlt, rfl⟩
  · rw [if_neg (not_lt_of_ge heq.ge)]
    split
    · rename_i hcut
      obtain ⟨hfinds, hsame⟩ := h.last.resolve_left (by omega)
      rw [heq]
      exact ⟨hfinds, hsame⟩
    · exact ⟨trivial, rfl⟩

theorem FillFits.found_due (h : FillFits gc points)
    (hy : yMin gc points ≤ y ∧ y ≤ yMax gc points) :
    ScanLine.Finds (dueOn gc points y) (crossings gc points y) := by
  unfold dueOn
  split
  · rename_i hlt
    exact h.found y hy.1 hlt
  · trivial

/-- The same list in a clip rectangle with the whole polygon. -/
theorem FillFits.unclipped {polygon : Polygon} (h : FillFits gc polygon.pointArray)
    {clipRect : Rect} (hclip : ∀ p ∈ polygon.pointArray, clipRect.Contains p)
    (hy : yMin gc polygon.pointArray ≤ y ∧ y ≤ yMax gc polygon.pointArray)
    (scratch scratch' : Scratch) :
    (fillData gc polygon.pointArray scratch y).points =
      (fillData { gc with clipRect := clipRect } polygon.pointArray scratch' y).points := by
  have hwhole := @visible_unclipped { gc with clipRect := clipRect } polygon hclip
  have hinside := @visible_in_polygon polygon.pointArray gc
  have hdue := h.due_unclipped hclip hy
  have hfirst : firstLine { gc with clipRect := clipRect } polygon.pointArray =
      firstLine gc polygon.pointArray := rfl
  have hlast : lastLine { gc with clipRect := clipRect } polygon.pointArray =
      lastLine gc polygon.pointArray := rfl
  have hcrossings : crossings { gc with clipRect := clipRect } polygon.pointArray y =
      crossings gc polygon.pointArray y := by
    rw [crossings, crossings, outline_clipRect]
  rw [fillData_line h.edges hy (h.found_due hy), fillData_line, hcrossings]
  · exact hdue.2.symm
  · intro e he _
    rw [numLines, hwhole.1, hwhole.2]
    exact edge_in_lines he
  · rw [hwhole.1, hwhole.2, hfirst, hlast]
    omega
  · rw [hcrossings]
    exact hdue.1

/-- When the polygon fits, its fill data are right. -/
theorem polygon_right (gc : PolyGc) (polygon : Polygon)
    (h : yMin gc polygon.pointArray ≤ yMax gc polygon.pointArray →
      FillFits gc polygon.pointArray) : FillRight gc polygon.pointArray := by
  have hvisible : ∀ {y}, yMin gc polygon.pointArray ≤ y → y ≤ yMax gc polygon.pointArray →
      FillFits gc polygon.pointArray := fun h1 h2 => h (h1.trans h2)
  have hline : ∀ (scratch : Scratch) y, yMin gc polygon.pointArray ≤ y →
      y ≤ yMax gc polygon.pointArray → fillData gc polygon.pointArray scratch y =
        { edgeRows gc polygon.pointArray scratch y with
          points := (dueOn gc polygon.pointArray y).foldl ScanLine.moved
            (crossings gc polygon.pointArray y) } := fun scratch y h1 h2 =>
    fillData_line (hvisible h1 h2).edges ⟨h1, h2⟩ ((hvisible h1 h2).found_due ⟨h1, h2⟩) scratch
  have hdue : ∀ y, yMin gc polygon.pointArray ≤ y → y ≤ yMax gc polygon.pointArray → _ :=
    fun y h1 h2 => due_spec ((hvisible h1 h2).found_due ⟨h1, h2⟩)
  constructor
  · intro scratch y h1 h2
    rw [hline scratch y h1 h2]
    exact (hdue y h1 h2).2
  · intro scratch y h1 h2
    rw [hline scratch y h1 h2, (hdue y h1 h2).1]
    exact crossings_even polygon
  · intro scratch y h1 h2
    rw [hline scratch y h1 h2, (hdue y h1 h2).1]
    exact crossings_length_le
  · intro clipRect hclip scratch scratch' y h1 h2
    exact (hvisible h1 h2).unclipped hclip ⟨h1, h2⟩ scratch scratch'
  · intro scratch y h1 h2
    have hwritten : (edgeRows gc polygon.pointArray scratch y).written ≤
        (edgeRows gc polygon.pointArray scratch y).points.length := by
      rw [edgeRows_eq (hvisible h1 h2).edges ⟨h1, h2⟩]
      exact ScanLine.foldl_insert_written _ (Nat.zero_le _)
    rw [edgeRows_points (hvisible h1 h2).edges ⟨h1, h2⟩] at hwritten
    rw [hline scratch y h1 h2]
    exact hwritten.trans crossings_length_le
  · intro scratch y hy
    rw [fillData, fold_steps_outside _ _ (fun h => hy ⟨h.1, h.2.le⟩), edgeRows,
      fold_edges_outside _ hy]
  · intro hle p1 p2 l hl
    exact boundary_length (by rw [numLines]; omega) hl

/-- A triangle without a horizontal edge. -/
def trianglePoints : List Point := [⟨0, 0⟩, ⟨1, 2⟩, ⟨5, 8⟩, ⟨0, 0⟩]

theorem triangle_isInt : ∀ p ∈ trianglePoints, -2147483648 ≤ p.y ∧ p.y ≤ 2147483647 := by
  decide

def triangle : Polygon where
  pointArray := trianglePoints
  three := Nat.le_succ 3
  closed := rfl
  isInt := triangle_isInt

/-- A view port of ten by ten pixels with a clip rectangle of its first lines. -/
def firstLines (bottom : Int) : PolyGc where
  clipRect := ⟨0, 0, 9, bottom⟩
  viewPort := ⟨0, 0, 9, 9⟩

theorem triangle_steps (gc : PolyGc) (y : Int) : stepsOn gc triangle.pointArray y = [] := by
  have hnone : ∀ i ∈ List.range 3, stepAt triangle.pointArray i = none := by decide
  refine List.filterMap_eq_nil_iff.2 fun i hi => ?_
  rw [stepOn, hnone i hi, Option.map_none, ite_self]

/-- The triangle in a clip rectangle that has each of its lines. -/
theorem polygon_right_triangle :
    FillRight (firstLines 9) triangle.pointArray := by
  refine polygon_right (firstLines 9) triangle fun _ => ⟨by decide, Or.inl (by decide), ?_⟩
  intro y _ _
  rw [triangle_steps]
  trivial

/-- In three lines the triangle has three values on the second one: the edges that are longer than
the visible part give the points of the first edge again. -/
theorem polygon_cut : ¬ FillRight (firstLines 2) triangle.pointArray := by
  intro h
  have heven := h.even { rest := fun _ _ => 0, line := [] } 1 (by decide) (by decide)
  exact absurd heven (by decide)

end Polygon

end Vmx.Ugl
