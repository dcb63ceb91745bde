import Mathlib.Algebra.Order.Ring.Int

/-!
# `ext2SyncerVopsLib`: the block groups with a copy of the super block

`ext2fsIsSparseBlockGroup` looks a group up in a table that ascends.  Its search goes on while the
group is less than the entry it has come to, so that it ends at the first one, which is zero.
-/

namespace Vmx.Ext2Sparse

/-- `sparseSuperBlockList`. -/
def sparseSuperBlockList : List UInt32 :=
  [0, 1, 3, 5, 7, 9, 25, 27, 49, 81, 125, 243, 343, 625, 729,
    2187, 2401, 3025, 6561, 15125, 16807, 19683, 59049, 75625, 117649,
    177147, 390625, 531441, 823543, 1594323, 1953125, 4782969, 5764801,
    9765625, 14348907, 40353607, 43046721, 48828125, 129140163,
    244140625, 282475249, 387420489, 1162261467, 1220703125, 1977326743,
    3486784401]

/-- The linear search, with the entries from `i` on.  `none` means that it leaves the table. -/
def searchLoop (bgNum : UInt32) : List UInt32 → Option UInt32
  | [] => none
  | entry :: entries => if bgNum < entry then searchLoop bgNum entries else some entry

/-- `ext2fsIsSparseBlockGroup`. -/
def ext2fsIsSparseBlockGroup (bgNum : UInt32) : Option Bool :=
  (searchLoop bgNum sparseSuperBlockList).map fun entry => bgNum != entry

/-- `n` is a power of 3, of 5 or of 7. -/
def SparsePower (n : Nat) : Prop := ∃ p ∈ [3, 5, 7], ∃ k, n = p ^ k

/-- The groups that hold a copy. -/
def HoldsCopy (bgNum : UInt32) : Prop :=
  bgNum = 0 ∨ bgNum = 1 ∨ SparsePower bgNum.toNat

theorem SparsePower.one : SparsePower 1 := ⟨3, by decide, 0, rfl⟩

theorem SparsePower.ne_zero {n : Nat} (h : SparsePower n) : n ≠ 0 := by
  obtain ⟨p, hp, k, rfl⟩ := h
  have hpos : 0 < p := by
    simp only [List.mem_cons, List.not_mem_nil, or_false] at hp
    omega
  exact Nat.pos_iff_ne_zero.1 (Nat.pow_pos hpos)

/-- The group one is a power as well. -/
theorem holdsCopy_iff (bgNum : UInt32) :
    HoldsCopy bgNum ↔ bgNum = 0 ∨ SparsePower bgNum.toNat := by
  constructor
  · intro h
    rcases h with hzero | hone | hpower
    · exact Or.inl hzero
    · rw [hone]
      exact Or.inr SparsePower.one
    · exact Or.inr hpower
  · intro h
    rcases h with hzero | hpower
    · exact Or.inl hzero
    · exact Or.inr (Or.inr hpower)

/-- The search ends at an entry that is not greater. -/
theorem searchLoop_of_le {bgNum entry : UInt32} {entries : List UInt32} (h : entry ≤ bgNum) :
    searchLoop bgNum (entry :: entries) = some entry := by
  have hnot : ¬ bgNum < entry := UInt32.not_lt.2 h
  rw [searchLoop, if_neg hnot]

/-- Every group but zero is taken for one without a copy. -/
theorem ext2fsIsSparseBlockGroup_eq (bgNum : UInt32) :
    ext2fsIsSparseBlockGroup bgNum = some (bgNum != 0) := by
  have hzero : (0 : UInt32) ≤ bgNum := UInt32.le_iff_toNat_le.2 (Nat.zero_le _)
  rw [ext2fsIsSparseBlockGroup, sparseSuperBlockList, searchLoop_of_le hzero]
  rfl

theorem classified_iff (bgNum : UInt32) :
    ext2fsIsSparseBlockGroup bgNum = some false ↔ bgNum = 0 := by
  rw [ext2fsIsSparseBlockGroup_eq, Option.some.injEq, bne_eq_false_iff_eq]

/-- The classification is the rule for the groups that are no powers. -/
theorem sparse_group_iff (bgNum : UInt32) :
    (ext2fsIsSparseBlockGroup bgNum = some false ↔ HoldsCopy bgNum) ↔
      ¬ SparsePower bgNum.toNat := by
  rw [classified_iff, holdsCopy_iff]
  constructor
  · intro hright hpower
    have hzero : bgNum = 0 := hright.2 (Or.inr hpower)
    rw [hzero] at hpower
    exact hpower.ne_zero rfl
  · intro hnot
    constructor
    · exact Or.inl
    · intro h
      exact h.resolve_right hnot

/-- The group 3 holds a copy. -/
theorem not_sparse_group :
    ¬ ∀ bgNum, ext2fsIsSparseBlockGroup bgNum = some false ↔ HoldsCopy bgNum := by
  intro h
  have hpower : SparsePower 3 := ⟨3, by decide, 1, rfl⟩
  exact absurd ((h 3).2 (Or.inr (Or.inr hpower))) (by decide)

end Vmx.Ext2Sparse
