import Mathlib.Logic.Function.Basic

/-!
# Moving and copying in a memory

`moveAll` moves a run of places at once, as if through a buffer of its own.  `copies` copies place
by place in the order of a list, and each copy reads what the ones before have left.  Where the
two runs have no place in common they are the same.
-/

namespace Vmx.Lib

variable {β : Type}

/-- The memory after `n` places from `src` have been moved to `dst` at once. -/
def moveAll (mem : Nat → β) (dst src n : Nat) : Nat → β :=
  fun a => if dst ≤ a ∧ a < dst + n then mem (src + (a - dst)) else mem a

theorem moveAll_inside {mem : Nat → β} {dst src n a : Nat} (h1 : dst ≤ a) (h2 : a < dst + n) :
    moveAll mem dst src n a = mem (src + (a - dst)) := if_pos ⟨h1, h2⟩

theorem moveAll_outside {mem : Nat → β} {dst src n a : Nat} (h : a < dst ∨ dst + n ≤ a) :
    moveAll mem dst src n a = mem a := if_neg (by omega)

theorem moveAll_zero (mem : Nat → β) (dst src : Nat) : moveAll mem dst src 0 = mem :=
  funext fun _ => moveAll_outside (by omega)

/-- The copies of a list of places and the places that they are read from. -/
def copies : List (Nat × Nat) → (Nat → β) → Nat → β
  | [], mem => mem
  | p :: ps, mem => copies ps (Function.update mem p.1 (mem p.2))

theorem copies_append (ps qs : List (Nat × Nat)) (mem : Nat → β) :
    copies (ps ++ qs) mem = copies qs (copies ps mem) := by
  induction ps generalizing mem with
  | nil => rfl
  | cons p ps ih => exact ih _

/-- A move is the copies one by one when no place is read after it has been written. -/
theorem moveAll_eq_copies {mem : Nat → β} {dst src n : Nat}
    (h : ∀ i < n, ∀ j < n, dst + i ≠ src + j) :
    moveAll mem dst src n = copies ((List.range' dst n).zip (List.range' src n)) mem := by
  induction n generalizing mem dst src with
  | zero => exact moveAll_zero mem dst src
  | succ n ih =>
    rw [List.range'_succ, List.range'_succ, List.zip_cons_cons, copies, ← ih fun i hi j hj => by
      have := h (i + 1) (by omega) (j + 1) (by omega)
      omega]
    funext a
    by_cases hin : dst ≤ a ∧ a < dst + (n + 1)
    · rw [moveAll_inside hin.1 hin.2]
      by_cases ha : a = dst
      · rw [ha, moveAll_outside (Or.inl (Nat.lt_succ_self dst)), Function.update_self, Nat.sub_self,
          Nat.add_zero]
      · have hne := h 0 (by omega) (a - dst) (by omega)
        rw [moveAll_inside (by omega) (by omega), Function.update_of_ne (by omega)]
        congr 1
        omega
    · rw [moveAll_outside (by omega), moveAll_outside (by omega), Function.update_of_ne (by omega)]

end Vmx.Lib
