import Mathlib.Algebra.Order.Ring.Int
import Mathlib.Data.List.Nodup
import Mathlib.Logic.Function.Basic

/-!
# Combining places of a memory one after the other

`inPlace op δ l s` goes through the places of a list and combines each place `i` with what
is at `i - δ` by then.  The result is the one with the values before (`atOnce`) when no place
is read after it was written (`inPlace_eq`).

For an operation that is `Telling`, some memory shows the difference otherwise, so that
condition is exact: `inPlace_iff`.

The lists of places come from loops.  `coords` is a range gone through up or down, and
`coords_pairwise` says which of two places comes first.
-/

namespace Vmx.Lib

universe u

variable {α : Type u}

/-- Combine the places of a list in order. -/
def inPlace (op : α → α → α) (δ : Int) : List Int → (Int → α) → Int → α
  | [], s => s
  | i :: l, s => inPlace op δ l (Function.update s i (op (s i) (s (i - δ))))

/-- Combine the places of a list with the values before. -/
def atOnce (op : α → α → α) (δ : Int) (l : List Int) (s : Int → α) (i : Int) : α :=
  if i ∈ l then op (s i) (s (i - δ)) else s i

/-- No place is read after it was written. -/
def NoneLate (δ : Int) (l : List Int) : Prop := l.Pairwise fun i j => j - δ ≠ i

/-- Some values show whether a place was combined before it is read, whatever is done to the
places it is combined with. -/
def Telling (op : α → α → α) : Prop :=
  ∃ x y c d, op c d = c ∧ op d d = d ∧ op y (op x c) ≠ op y x

variable {op : α → α → α} {δ : Int} {l : List Int} {s : Int → α}

theorem inPlace_append (l₁ l₂ : List Int) (s : Int → α) :
    inPlace op δ (l₁ ++ l₂) s = inPlace op δ l₂ (inPlace op δ l₁ s) := by
  induction l₁ generalizing s with
  | nil => rfl
  | cons i l₁ ih => exact ih _

theorem inPlace_of_not_mem {i : Int} (h : i ∉ l) : inPlace op δ l s i = s i := by
  induction l generalizing s with
  | nil => rfl
  | cons j l ih =>
    have hne : i ≠ j := fun h' => h (h' ▸ List.mem_cons_self)
    rw [inPlace, ih (fun h' => h (List.mem_cons_of_mem j h')), Function.update_of_ne hne]

/-- When nothing is read late, the values before are combined. -/
theorem inPlace_eq (hl : l.Nodup) (h : NoneLate δ l) : inPlace op δ l s = atOnce op δ l s := by
  induction l generalizing s with
  | nil =>
    funext i
    exact (if_neg List.not_mem_nil).symm
  | cons j l ih =>
    have ⟨hj, hl'⟩ := List.nodup_cons.1 hl
    have ⟨hread, h'⟩ := List.pairwise_cons.1 h
    rw [inPlace, ih hl' h']
    funext i
    rw [atOnce, atOnce]
    by_cases hi : i = j
    · subst hi
      rw [if_neg hj, if_pos List.mem_cons_self, Function.update_self]
    · rw [Function.update_of_ne hi]
      by_cases hil : i ∈ l
      · rw [if_pos hil, if_pos (List.mem_cons_of_mem j hil),
          Function.update_of_ne (hread i hil)]
      · rw [if_neg hil, if_neg (List.not_mem_cons_of_ne_of_not_mem hi hil)]

/-- The places below `i`, a step of `δ` at a time, have values that combining them keeps. -/
def Steady (δ i : Int) (c d : α) (s : Int → α) : Prop :=
  s (i - δ) = c ∧ ∀ m : Nat, s (i - (m + 2) * δ) = d

theorem Steady.inPlace {i : Int} {c d : α} (hc : op c d = c) (hd : op d d = d)
    (h : Steady δ i c d s) : Steady δ i c d (inPlace op δ l s) := by
  induction l generalizing s with
  | nil => exact h
  | cons j l ih =>
    have ⟨h1, h2⟩ := h
    apply ih
    constructor
    · by_cases hj : i - δ = j
      · have hp : i - δ - δ = i - ((0 : Nat) + 2) * δ := by
          rw [Nat.cast_zero, zero_add, two_mul, sub_sub]
        rw [← hj, Function.update_self, hp, h1, h2, hc]
      · rw [Function.update_of_ne hj, h1]
    · intro m
      by_cases hj : i - (m + 2) * δ = j
      · have hp : i - (m + 2) * δ - δ = i - ((m + 1 : Nat) + 2) * δ := by
          rw [Nat.cast_succ, sub_sub]
          congr 1
          rw [add_right_comm, add_mul ((m : Int) + 2) 1 δ, one_mul]
        rw [← hj, Function.update_self, hp, h2, h2, hd]
      · rw [Function.update_of_ne hj, h2]

/-- A memory that shows that the place `i` was written before it is read for `j`. -/
theorem exists_late_read (hop : Telling op) (hl : l.Nodup) {i j : Int} (hsub : [i, j].Sublist l)
    (hij : j - δ = i) : ∃ s, inPlace op δ l s j ≠ atOnce op δ l s j := by
  have ⟨x, y, c, d, hc, hd, hne⟩ := hop
  have ⟨r₁, r₂, hr, hi, hsub'⟩ := List.cons_sublist_iff.1 hsub
  have hj : j ∈ r₂ := List.singleton_sublist.1 hsub'
  have ⟨l₁, l₂, hl₁⟩ := List.append_of_mem hi
  have ⟨l₃, l₄, hl₃⟩ := List.append_of_mem hj
  have hlist : l = l₁ ++ i :: (l₂ ++ l₃ ++ j :: l₄) := by
    rw [hr, hl₁, hl₃]
    simp only [List.append_assoc, List.cons_append]
  have hnodup := hl
  rw [hlist, List.nodup_append, List.nodup_cons, List.nodup_append, List.nodup_cons] at hnodup
  have ⟨_, ⟨hirest, _, ⟨hj₄, _⟩, hj₂₃⟩, hdisj⟩ := hnodup
  have hi₁ : i ∉ l₁ := fun h => hdisj i h i List.mem_cons_self rfl
  have hi₂₃ : i ∉ l₂ ++ l₃ := fun h => hirest (List.mem_append_left _ h)
  have hj₁ : j ∉ l₁ := fun h => hdisj j h j
    (List.mem_cons_of_mem i (List.mem_append_right _ List.mem_cons_self)) rfl
  have hj₂₃' : j ∉ l₂ ++ l₃ := fun h => hj₂₃ j h j List.mem_cons_self rfl
  have hjne : j ≠ i := fun h => hirest (List.mem_append_right _ (h ▸ List.mem_cons_self))
  have hδ : δ ≠ 0 := by
    intro h
    exact hjne (by omega)
  -- `i` and `j` have their own values, and the places below `i` the steady ones
  let s : Int → α := fun k => if k = j then y else if k = i then x else
    if k = i - δ then c else d
  have hsi : s i = x := by
    show (if i = j then y else if i = i then x else _) = x
    rw [if_neg hjne.symm, if_pos rfl]
  have hsj : s j = y := if_pos rfl
  have hsteady : Steady δ i c d s := by
    constructor
    · show (if i - δ = j then y else if i - δ = i then x else if i - δ = i - δ then c else d) = c
      rw [if_neg (by omega), if_neg (by omega), if_pos rfl]
    · intro m
      have hm : ((m : Int) + 2) * δ ≠ 0 := mul_ne_zero (by omega) hδ
      have hm1 : ((m : Int) + 1) * δ ≠ 0 := mul_ne_zero (by omega) hδ
      have hm3 : ((m : Int) + 3) * δ ≠ 0 := mul_ne_zero (by omega) hδ
      rw [add_mul] at hm hm1 hm3
      show (if i - (m + 2) * δ = j then y else if i - (m + 2) * δ = i then x else
        if i - (m + 2) * δ = i - δ then c else d) = d
      rw [add_mul, if_neg (by omega), if_neg (by omega), if_neg (by omega)]
  refine ⟨s, ?_⟩
  have hmem : j ∈ l := hsub.subset (List.mem_cons_of_mem i List.mem_cons_self)
  obtain ⟨s₁, hs₁⟩ : ∃ s₁, s₁ = inPlace op δ l₁ s := ⟨_, rfl⟩
  have hsteady₁ : Steady δ i c d s₁ := hs₁ ▸ hsteady.inPlace hc hd
  have hi₁ : s₁ i = x := by
    rw [hs₁, inPlace_of_not_mem hi₁, hsi]
  have hj₁ : s₁ j = y := by
    rw [hs₁, inPlace_of_not_mem hj₁, hsj]
  rw [atOnce, if_pos hmem, hij, hsi, hsj, hlist, inPlace_append, ← hs₁, inPlace, inPlace_append,
    inPlace, inPlace_of_not_mem hj₄, Function.update_self, hij, inPlace_of_not_mem hj₂₃',
    inPlace_of_not_mem hi₂₃, Function.update_self, Function.update_of_ne hjne, hi₁, hj₁,
    hsteady₁.1]
  exact hne

/-- The values before are combined for every memory exactly when nothing is read late. -/
theorem inPlace_iff (hop : Telling op) (hl : l.Nodup) :
    (∀ s, inPlace op δ l s = atOnce op δ l s) ↔ NoneLate δ l := by
  constructor
  · intro h
    rw [NoneLate, List.pairwise_iff_forall_sublist]
    intro i j hsub hij
    have ⟨s, hs⟩ := exists_late_read hop hl hsub hij
    exact hs (congrFun (h s) j)
  · exact fun h s => inPlace_eq hl h

/-! ## Ranges -/

/-- `n` integers up from `d`. -/
def upFrom : Int → Nat → List Int
  | _, 0 => []
  | d, n + 1 => d :: upFrom (d + 1) n

/-- `n` integers down from the one below `e`. -/
def downFrom : Int → Nat → List Int
  | _, 0 => []
  | e, n + 1 => (e - 1) :: downFrom (e - 1) n

theorem mem_upFrom {d i : Int} {n : Nat} : i ∈ upFrom d n ↔ d ≤ i ∧ i < d + n := by
  induction n generalizing d with
  | zero =>
    rw [upFrom]
    simp only [List.not_mem_nil, false_iff]
    omega
  | succ n ih =>
    rw [upFrom, List.mem_cons, ih]
    omega

theorem mem_downFrom {e i : Int} {n : Nat} : i ∈ downFrom e n ↔ e - n ≤ i ∧ i < e := by
  induction n generalizing e with
  | zero =>
    rw [downFrom]
    simp only [List.not_mem_nil, false_iff]
    omega
  | succ n ih =>
    rw [downFrom, List.mem_cons, ih]
    omega

theorem upFrom_lt (d : Int) (n : Nat) : (upFrom d n).Pairwise (· < ·) := by
  induction n generalizing d with
  | zero => exact List.Pairwise.nil
  | succ n ih =>
    refine List.Pairwise.cons (fun i hi => ?_) (ih _)
    have hi' := mem_upFrom.1 hi
    omega

theorem downFrom_gt (e : Int) (n : Nat) : (downFrom e n).Pairwise (· > ·) := by
  induction n generalizing e with
  | zero => exact List.Pairwise.nil
  | succ n ih =>
    refine List.Pairwise.cons (fun i hi => ?_) (ih _)
    have hi' := mem_downFrom.1 hi
    show i < e - 1
    omega

theorem upFrom_map (k d : Int) (n : Nat) :
    (upFrom d n).map (fun i => k + i) = upFrom (k + d) n := by
  induction n generalizing d with
  | zero => rfl
  | succ n ih => rw [upFrom, upFrom, List.map_cons, ih, add_assoc]

theorem downFrom_map (k e : Int) (n : Nat) :
    (downFrom e n).map (fun i => k + i) = downFrom (k + e) n := by
  induction n generalizing e with
  | zero => rfl
  | succ n ih => rw [downFrom, downFrom, List.map_cons, ih, add_sub_assoc]

/-- The integers from `lo` to `hi`, going up or down. -/
def coords (down : Bool) (lo hi : Int) : List Int :=
  if down then downFrom (hi + 1) (hi - lo + 1).toNat else upFrom lo (hi - lo + 1).toNat

/-- The order of `coords`. -/
def Before (down : Bool) (i j : Int) : Prop := if down then j < i else i < j

theorem mem_coords {down : Bool} {lo hi i : Int} : i ∈ coords down lo hi ↔ lo ≤ i ∧ i ≤ hi := by
  cases down
  · show i ∈ upFrom lo _ ↔ _
    rw [mem_upFrom]
    omega
  · show i ∈ downFrom (hi + 1) _ ↔ _
    rw [mem_downFrom]
    omega

theorem coords_before (down : Bool) (lo hi : Int) : (coords down lo hi).Pairwise (Before down) := by
  cases down
  · exact upFrom_lt lo _
  · exact downFrom_gt (hi + 1) _

theorem Before.asymm {down : Bool} {i j : Int} (h : Before down i j) : ¬ Before down j i := by
  cases down
  all_goals
    simp only [Before, Bool.false_eq_true, if_true, if_false] at *
    omega

theorem Before.ne {down : Bool} {i j : Int} (h : Before down i j) : i ≠ j := by
  rintro rfl
  exact h.asymm h

/-- A list in a strict order: what holds of its elements in order holds of all that are in
that order. -/
theorem pairwise_iff_of_order {β : Type u} {l : List β} {r R : β → β → Prop}
    (hr : l.Pairwise r) (hasymm : ∀ x y, r x y → ¬ r y x) :
    l.Pairwise R ↔ ∀ x ∈ l, ∀ y ∈ l, r x y → R x y := by
  induction l with
  | nil => exact ⟨fun _ x hx => (nomatch hx), fun _ => List.Pairwise.nil⟩
  | cons z l ih =>
    have ⟨hz, hr'⟩ := List.pairwise_cons.1 hr
    rw [List.pairwise_cons, ih hr']
    constructor
    · rintro ⟨hhead, htail⟩ x hx y hy hxy
      rcases List.mem_cons.1 hx with hxz | hx
      · rcases List.mem_cons.1 hy with hyz | hy
        · rw [hxz, hyz] at hxy
          exact absurd hxy (hasymm z z hxy)
        · rw [hxz]
          exact hhead y hy
      · rcases List.mem_cons.1 hy with hyz | hy
        · rw [hyz] at hxy
          exact absurd (hz x hx) (hasymm x z hxy)
        · exact htail x hx y hy hxy
    · intro h
      exact ⟨fun y hy => h z List.mem_cons_self y (List.mem_cons_of_mem z hy) (hz y hy),
        fun x hx y hy => h x (List.mem_cons_of_mem z hx) y (List.mem_cons_of_mem z hy)⟩

end Vmx.Lib
