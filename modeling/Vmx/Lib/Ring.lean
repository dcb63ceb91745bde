import Mathlib.Data.Nat.ModEq
import Mathlib.Logic.Function.Basic

/-!
# Windows of a ring

Things that are numbered in order share the slots of a ring: number `i` is in slot
`i % n`.  A window of at most `n` consecutive numbers uses every slot at most once.

`window b n a len` is what the slots of `len` numbers hold, from number `a` on.
-/

namespace Vmx.Lib

universe u

variable {α : Type u} {n : Nat}

theorem eq_of_slot {a i j : Nat} (h : i % n = j % n) (hi : a ≤ i ∧ i < a + n)
    (hj : a ≤ j ∧ j < a + n) : i = j := by
  wlog hij : i ≤ j generalizing i j
  · exact (this h.symm hj hi (by omega)).symm
  obtain ⟨d, rfl⟩ := Nat.exists_eq_add_of_le hij
  have hd : d % n = 0 := by
    have hmod : (i + d) % n = (i + 0) % n := by rw [← h, Nat.add_zero]
    exact Nat.ModEq.add_left_cancel' i hmod
  rw [Nat.mod_eq_of_lt (by omega)] at hd
  omega

/-- The slot after the last of `len` numbers is that of the first one when the ring
is full. -/
theorem succ_slot_eq_iff (first : Nat) {len : Nat} (hlen : len < n) :
    (first + len + 1) % n = first % n ↔ len + 1 = n := by
  constructor
  · intro h
    by_contra hne
    have := eq_of_slot (a := first) h (by omega) (by omega)
    omega
  · intro h
    rw [Nat.add_assoc, h, Nat.add_mod_right]

/-! ## The contents of a window -/

/-- What the slots of the numbers from `a` on hold. -/
def window (b : Nat → α) (n a len : Nat) : List α := (List.range len).map fun i => b ((a + i) % n)

variable {b : Nat → α} {a len : Nat}

@[simp] theorem length_window : (window b n a len).length = len := by
  rw [window, List.length_map, List.length_range]

@[simp] theorem window_zero : window b n a 0 = [] := rfl

theorem window_add (k : Nat) :
    window b n a (len + k) = window b n a len ++ window b n (a + len) k := by
  simp only [window, List.range_add, List.map_append, List.map_map, Nat.add_assoc]
  rfl

theorem window_one : window b n a 1 = [b (a % n)] := rfl

theorem window_succ : window b n a (len + 1) = b (a % n) :: window b n (a + 1) len := by
  rw [Nat.add_comm len 1, window_add, window_one]
  rfl

/-- The number of a slot may be replaced by the slot. -/
theorem window_mod : window b n (a % n) len = window b n a len := by
  simp only [window, Nat.mod_add_mod]

theorem take_window {k : Nat} (hk : k ≤ len) : (window b n a len).take k = window b n a k := by
  obtain ⟨d, rfl⟩ := Nat.exists_eq_add_of_le hk
  rw [window_add, List.take_left' length_window]

theorem drop_window {k : Nat} (hk : k ≤ len) :
    (window b n a len).drop k = window b n (a + k) (len - k) := by
  obtain ⟨d, rfl⟩ := Nat.exists_eq_add_of_le hk
  rw [window_add, List.drop_left' length_window, Nat.add_sub_cancel_left]

/-- One slot of the ring is written. -/
theorem window_update (hlen : len ≤ n) {o : Nat} (ho : o < n) (c : α) :
    window (Function.update b ((a + o) % n) c) n a len = (window b n a len).set o c := by
  apply List.ext_getElem
  · simp
  · intro i hi hi'
    rw [length_window] at hi
    simp only [window, List.getElem_map, List.getElem_range, List.getElem_set, Function.update_apply]
    by_cases hio : o = i
    · rw [if_pos hio, if_pos (by rw [hio])]
    · rw [if_neg hio, if_neg]
      intro h
      have := eq_of_slot (a := a) h (by omega) (by omega)
      omega

end Vmx.Lib
