import Mathlib.Tactic.Common

/-!
# Paths in a tree of tables

A tree of height `height` is walked from its root, the node of level `height`,
down to level 0: the child of a node is found with the key of the node's level.
`pathNode` is the node of the path at a level.  What two walks have in common is
the part of the path above the first level at which their keys differ
(`pathNode_congr`), and a path that has reached a hole stays in it
(`pathNode_hole`).
-/

namespace Vmx.Lib

universe u

variable {ν : Type u} (child : ν → Nat → ν) (root : ν) (key : Nat → Nat) (height : Nat)

/-- The node that the path reaches after `depth` steps. -/
def pathStep : Nat → ν
  | 0 => root
  | depth + 1 => child (pathStep depth) (key (height - depth))

/-- The node of the path at a level. -/
def pathNode (level : Nat) : ν := pathStep child root key height (height - level)

theorem pathNode_height : pathNode child root key height height = root := by
  rw [pathNode, Nat.sub_self]
  rfl

theorem pathNode_of_lt {level : Nat} (h : level < height) :
    pathNode child root key height level =
      child (pathNode child root key height (level + 1)) (key (level + 1)) := by
  unfold pathNode
  have hdepth : height - level = height - (level + 1) + 1 := by omega
  have hkey : height - (height - (level + 1)) = level + 1 := by omega
  rw [hdepth, pathStep, hkey]

variable {child root key height}

/-- Keys that agree above a level lead to the same node of that level. -/
theorem pathNode_congr {key' : Nat → Nat} {level : Nat}
    (h : ∀ l, level < l → l ≤ height → key l = key' l) :
    pathNode child root key height level = pathNode child root key' height level := by
  unfold pathNode
  have hsteps : ∀ depth, depth ≤ height - level →
      pathStep child root key height depth = pathStep child root key' height depth := by
    intro depth
    induction depth with
    | zero =>
      intro _
      rfl
    | succ depth ih =>
      intro hle
      rw [pathStep, pathStep, ih (by omega), h (height - depth) (by omega) (by omega)]
  exact hsteps _ (Nat.le_refl _)

/-- Below a hole there are only holes. -/
theorem pathNode_hole {hole : ν} (hchild : ∀ i, child hole i = hole) {level : Nat}
    (hlevel : level ≤ height) (h : pathNode child root key height level = hole) {l : Nat}
    (hl : l ≤ level) : pathNode child root key height l = hole := by
  induction hd : level - l generalizing l with
  | zero =>
    have : l = level := by omega
    rw [this, h]
  | succ d ih =>
    rw [pathNode_of_lt child root key height (by omega), ih (by omega) (by omega), hchild]

end Vmx.Lib
