import Mathlib.Algebra.BigOperators.Group.Finset.Basic
import Mathlib.Algebra.BigOperators.Group.Finset.Piecewise
import Mathlib.Order.Interval.Finset.Nat

/-!
# Counting the members of a finite set with a property

An update of one member changes the count by what it changes at that member.
-/

namespace Vmx.Lib

universe u

variable {α : Type u} [DecidableEq α] {S : Finset α} {p p' : α → Prop} [DecidablePred p]
  [DecidablePred p']

/-- The count before and after a change at `a` alone. -/
theorem card_filter_change {a : α} (ha : a ∈ S) (h : ∀ b, b ≠ a → (p' b ↔ p b)) :
    (S.filter p').card + (if p a then 1 else 0) = (S.filter p).card + if p' a then 1 else 0 := by
  have hbefore := Finset.add_sum_erase S (fun b => if p b then 1 else 0) ha
  have hafter := Finset.add_sum_erase S (fun b => if p' b then 1 else 0) ha
  have hrest : ∑ b ∈ S.erase a, (if p' b then 1 else 0) =
      ∑ b ∈ S.erase a, if p b then 1 else 0 := by
    apply Finset.sum_congr rfl
    intro b hb
    simp only [h b (Finset.ne_of_mem_erase hb)]
  rw [Finset.card_filter, Finset.card_filter]
  omega

/-- The members of a longer range: those of the shorter one and the others. -/
theorem card_filter_range_add (p : Nat → Prop) [DecidablePred p] (n k : Nat) :
    ((Finset.range (n + k)).filter p).card =
      ((Finset.range n).filter p).card + ((Finset.range k).filter fun i => p (n + i)).card := by
  simp only [Finset.card_filter, Finset.sum_range_add]

end Vmx.Lib
