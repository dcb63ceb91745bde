import Mathlib.Tactic.Linarith
import Vmx.Ugl.GenPoly

/-!
# The outline of a polygon

`outline` are the points that the edges add when the line buffer has room for each of them.  A
closed outline has an even number of them on each scan line: `beyond` says on which side of the
scan line the outline is, and each point is a change of the side (`outline_parity`).
-/

namespace Vmx.Ugl

/-! ## The rows of an edge -/

section Rows

variable {y : Int} {p q p1 p2 : Point} {l l' : List Point}

/-- The x values of the points on a scan line, in order. -/
def onRow (y : Int) (points : List Point) : List Int :=
  (points.filter fun p => p.y = y).map Point.x

theorem onRow_nil : onRow y [] = [] := rfl

theorem onRow_cons_of_eq (h : p.y = y) : onRow y (p :: l) = p.x :: onRow y l := by
  rw [onRow, List.filter_cons, if_pos (decide_eq_true h), List.map_cons, onRow]

theorem onRow_cons_of_ne (h : p.y ≠ y) : onRow y (p :: l) = onRow y l := by
  rw [onRow, List.filter_cons, if_neg (fun h' => h (of_decide_eq_true h')), onRow]

theorem onRow_append : onRow y (l ++ l') = onRow y l ++ onRow y l' := by
  rw [onRow, List.filter_append, List.map_append, onRow, onRow]

/-- The loop adds one point on each of the rows after its start. -/
theorem onRow_boundaryRows {kx sx sy a b : Int} (hsy : sy = 1 ∨ sy = -1) (n : Nat) (err : Int) :
    (onRow y (boundaryRows kx sx sy a b n p err)).length =
      if 1 ≤ (y - p.y) * sy ∧ (y - p.y) * sy ≤ n then 1 else 0 := by
  induction n generalizing p err with
  | zero =>
    rw [boundaryRows, onRow_nil, if_neg (by omega)]
    rfl
  | succ n ih =>
    rw [boundaryRows]
    by_cases h : p.y + sy = y
    · rw [onRow_cons_of_eq h, List.length_cons, ih, if_neg, if_pos]
      · rw [← h]
        rcases hsy with hsy | hsy <;> rw [hsy] <;> omega
      · rw [← h]
        dsimp only
        omega
    · rw [onRow_cons_of_ne h, ih]
      dsimp only
      refine if_congr ?_ rfl rfl
      rcases hsy with hsy | hsy <;> rw [hsy] at h ⊢ <;> omega

/-- The points of an edge, in a buffer that is large enough. -/
def boundaryPoints (p1 p2 : Point) : List Point := (uglLineDataGetBoundary p1 p2 (-1)).getD []

theorem boundary_fits {bufSize : Int} (hne : p1.y ≠ p2.y)
    (h : ((p2.y - p1.y).natAbs : Int) + 1 ≤ bufSize) :
    uglLineDataGetBoundary p1 p2 bufSize = some (boundaryPoints p1 p2) := by
  unfold boundaryPoints uglLineDataGetBoundary
  rw [if_neg hne, if_neg hne, if_pos (Or.inr h), if_pos (Or.inl rfl), Option.getD_some]

theorem boundaryRows_length {kx sx sy a b : Int} (n : Nat) (err : Int) :
    (boundaryRows kx sx sy a b n p err).length = n := by
  induction n generalizing p err with
  | zero => rfl
  | succ n ih => rw [boundaryRows, List.length_cons, ih]

/-- No more points are written than the buffer has room for. -/
theorem boundary_length {bufSize : Int} (hbuf : 0 ≤ bufSize)
    (h : uglLineDataGetBoundary p1 p2 bufSize = some l) : l.length ≤ bufSize := by
  unfold uglLineDataGetBoundary at h
  split at h
  · rw [← Option.some.inj h]
    exact hbuf
  · split at h
    · rename_i hroom
      rw [← Option.some.inj h, List.length_cons, boundaryRows_length]
      omega
    · exact nomatch h

/-- The direction of an edge that is not horizontal. -/
def dirOf (d : Int) : Int := if d > 0 then 1 else -1

theorem dirOf_cases (d : Int) : d > 0 ∧ dirOf d = 1 ∨ d ≤ 0 ∧ dirOf d = -1 := by
  unfold dirOf
  split
  · exact Or.inl ⟨by assumption, rfl⟩
  · exact Or.inr ⟨by omega, rfl⟩

theorem boundaryPoints_eq (hne : p1.y ≠ p2.y) :
    ∃ kx sx a b err, boundaryPoints p1 p2 =
      p1 :: boundaryRows kx sx (dirOf (p2.y - p1.y)) a b (p2.y - p1.y).natAbs p1 err := by
  unfold boundaryPoints uglLineDataGetBoundary
  rw [if_neg hne, if_pos (Or.inl rfl), Option.getD_some]
  exact ⟨_, _, _, _, _, rfl⟩

/-- An edge has one point on each of its rows; `n` is how many are left out. -/
theorem onRow_boundaryPoints (hne : p1.y ≠ p2.y) {n : Nat} (hn : n ≤ 1) :
    (onRow y ((boundaryPoints p1 p2).drop n)).length =
      if (p1.y ≤ y ∧ y ≤ p2.y ∨ p2.y ≤ y ∧ y ≤ p1.y) ∧ (p1.y ≠ y ∨ n = 0) then 1 else 0 := by
  obtain ⟨kx, sx, a, b, err, heq⟩ := boundaryPoints_eq hne
  have hdir : dirOf (p2.y - p1.y) = 1 ∨ dirOf (p2.y - p1.y) = -1 :=
    (dirOf_cases _).imp And.right And.right
  have hrows := @onRow_boundaryRows y p1 kx sx _ a b hdir (p2.y - p1.y).natAbs err
  have htail : (onRow y (boundaryRows kx sx (dirOf (p2.y - p1.y)) a b (p2.y - p1.y).natAbs p1
      err)).length = if (p1.y ≤ y ∧ y ≤ p2.y ∨ p2.y ≤ y ∧ y ≤ p1.y) ∧ p1.y ≠ y then 1 else 0 := by
    rw [hrows]
    refine if_congr ?_ rfl rfl
    rcases dirOf_cases (p2.y - p1.y) with ⟨hd, h⟩ | ⟨hd, h⟩ <;> rw [h] <;> omega
  rw [heq]
  rcases Nat.le_one_iff_eq_zero_or_eq_one.1 hn with hn | hn
  · rw [hn, List.drop_zero]
    by_cases hy : p1.y = y
    · rw [onRow_cons_of_eq hy, List.length_cons, htail, if_neg (fun h => h.2 hy),
        if_pos ⟨by omega, Or.inr rfl⟩]
    · rw [onRow_cons_of_ne hy, htail]
      exact if_congr (and_congr_right fun _ => iff_of_true hy (Or.inl hy)) rfl rfl
  · rw [hn, List.drop_one, List.tail_cons, htail]
    exact if_congr (and_congr_right fun _ => by omega) rfl rfl

end Rows

/-! ## The outline -/

section Outline

variable {gc : PolyGc} {y s : Int} {p q : Point} {e : PolyEdge} {es : List PolyEdge}

/-- The points that an edge adds after one of direction `s`. -/
def edgePart (gc : PolyGc) (s : Int) (e : PolyEdge) : List Point :=
  if e.1.y = e.2.y then []
  else
    (boundaryPoints (gc.move e.1) (gc.move e.2)).drop
      (if dirOf (e.2.y - e.1.y) = s then 1 else 0)

/-- The direction after an edge. -/
def nextDir (s : Int) (e : PolyEdge) : Int :=
  if e.1.y = e.2.y then s else dirOf (e.2.y - e.1.y)

/-- The points that the edges add. -/
def outline (gc : PolyGc) : Int → List PolyEdge → List Point
  | _, [] => []
  | s, e :: es => edgePart gc s e ++ outline gc (nextDir s e) es

theorem edgePart_length (hne : e.1.y ≠ e.2.y) :
    (onRow y (edgePart gc s e)).length =
      if ((gc.move e.1).y ≤ y ∧ y ≤ (gc.move e.2).y ∨ (gc.move e.2).y ≤ y ∧ y ≤ (gc.move e.1).y) ∧
        ((gc.move e.1).y ≠ y ∨ dirOf (e.2.y - e.1.y) ≠ s) then 1 else 0 := by
  have hmove : (gc.move e.1).y ≠ (gc.move e.2).y := fun h => hne (add_right_cancel h)
  rw [edgePart, if_neg hne, onRow_boundaryPoints hmove (by split <;> omega)]
  refine if_congr (and_congr_right fun _ => or_congr_right ?_) rfl rfl
  split <;> omega

theorem edgePart_length_le : (onRow y (edgePart gc s e)).length ≤ 1 := by
  by_cases hne : e.1.y = e.2.y
  · rw [edgePart, if_pos hne]
    exact Nat.zero_le 1
  · rw [edgePart_length hne]
    split <;> omega

/-- Each edge adds one point on a scan line at most. -/
theorem outline_length_le : (onRow y (outline gc s es)).length ≤ es.length := by
  induction es generalizing s with
  | nil => exact Nat.le_refl 0
  | cons e es ih =>
    have h1 := @edgePart_length_le gc y s e
    have h2 := @ih (nextDir s e)
    rw [outline, onRow_append, List.length_append, List.length_cons]
    omega

/-- Whether the outline is below the scan line `y`, at the height `h` with the direction `s`. -/
def beyond (y h s : Int) : Nat := if h = y ∧ s = 1 ∨ h > y then 1 else 0

/-- The direction and the height after the edges. -/
def lastDir (s : Int) (es : List PolyEdge) : Int := es.foldl nextDir s

theorem edge_parity (hs : s = 1 ∨ s = -1) :
    ((onRow y (edgePart gc s e)).length + beyond y (gc.move e.1).y s +
      beyond y (gc.move e.2).y (nextDir s e)) % 2 = 0 := by
  by_cases hne : e.1.y = e.2.y
  · have hheight : (gc.move e.1).y = (gc.move e.2).y := congrArg (· + _) hne
    rw [edgePart, nextDir, if_pos hne, if_pos hne, hheight, onRow_nil, List.length_nil]
    omega
  · rw [edgePart_length hne, nextDir, if_neg hne]
    unfold beyond PolyGc.move
    dsimp only
    have hdir := dirOf_cases (e.2.y - e.1.y)
    generalize dirOf (e.2.y - e.1.y) = t at hdir ⊢
    split_ifs <;> omega

theorem nextDir_cases (hs : s = 1 ∨ s = -1) : nextDir s e = 1 ∨ nextDir s e = -1 := by
  unfold nextDir
  split
  · exact hs
  · exact (dirOf_cases _).imp And.right And.right

/-- The points on a scan line are as many as the changes of the side, up to an even number. -/
theorem outline_parity (hs : s = 1 ∨ s = -1) (p : Point) (rest : List Point) :
    ((onRow y (outline gc s (edges (p :: rest)))).length + beyond y (gc.move p).y s +
      beyond y (gc.move ((p :: rest).getLast (List.cons_ne_nil p rest))).y
        (lastDir s (edges (p :: rest)))) % 2 = 0 := by
  induction rest generalizing p s with
  | nil =>
    have hnil : (onRow y (outline gc s (edges [p]))).length = 0 := rfl
    have hlast : lastDir s (edges [p]) = s := rfl
    rw [hnil, hlast, List.getLast_singleton]
    omega
  | cons q rest ih =>
    have hedges : edges (p :: q :: rest) = (p, q) :: edges (q :: rest) := rfl
    have hedge := @edge_parity gc y s (p, q) hs
    have hrest := ih (nextDir_cases hs (e := (p, q))) q
    rw [List.getLast_cons (List.cons_ne_nil q rest), hedges, outline, onRow_append,
      List.length_append]
    have hlast : lastDir s ((p, q) :: edges (q :: rest)) =
        lastDir (nextDir s (p, q)) (edges (q :: rest)) := rfl
    rw [hlast]
    dsimp only at hedge
    omega

/-- The last direction is that of the last edge that is not horizontal. -/
theorem lastDir_eq (s : Int) (es : List PolyEdge) :
    lastDir s es = ((es.reverse.find? fun e => e.2.y - e.1.y ≠ 0).map
      fun e => slopeSign (e.2.y - e.1.y)).getD s := by
  induction es generalizing s with
  | nil => rfl
  | cons e es ih =>
    have hcons : lastDir s (e :: es) = lastDir (nextDir s e) es := rfl
    rw [hcons, ih, List.reverse_cons, List.find?_append]
    cases es.reverse.find? fun e => e.2.y - e.1.y ≠ 0 with
    | some e' => rfl
    | none =>
      by_cases hne : e.2.y - e.1.y = 0
      · rw [Option.none_or, List.find?_singleton, if_neg (by simpa using hne), nextDir,
          if_pos (by omega)]
      · rw [Option.none_or, List.find?_singleton, if_pos (by simpa using hne), nextDir,
          if_neg (by omega)]
        show dirOf (e.2.y - e.1.y) = slopeSign (e.2.y - e.1.y)
        unfold slopeSign dirOf
        split_ifs <;> omega

end Outline

end Vmx.Ugl
