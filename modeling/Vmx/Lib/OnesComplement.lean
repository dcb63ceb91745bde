import Mathlib.Algebra.BigOperators.Group.List.Basic
import Mathlib.Algebra.GroupWithZero.Nat

/-!
# One's complement sums

Numbers up to `m`, added with the carry brought back in at the low end: `0` and `m` are the two
zeros.  A sum depends only on the ordinary total (`onesSum_eq`), of which it is the residue in
`1, …, m`, or `0` for a total of `0`.
-/

namespace Vmx.Lib

/-- Addition with the carry brought back in. -/
def onesAdd (m a b : Nat) : Nat := if a + b ≤ m then a + b else a + b - m

/-- The one's complement sum of a list. -/
def onesSum (m : Nat) (words : List Nat) : Nat := words.foldl (onesAdd m) 0

/-- The residue in `1, …, m`, and `0` for `0`. -/
def onesResidue (m n : Nat) : Nat := if n = 0 then 0 else (n - 1) % m + 1

variable {m a b n q r : Nat}

theorem onesResidue_le (hm : 0 < m) : onesResidue m n ≤ m := by
  unfold onesResidue
  split
  · omega
  · have hlt := Nat.mod_lt (n - 1) hm
    omega

/-- A total is some times `m` and its residue. -/
theorem onesResidue_spec (m n : Nat) : ∃ q, n = m * q + onesResidue m n := by
  unfold onesResidue
  split
  · rename_i h
    exact ⟨0, by omega⟩
  · have hdiv := Nat.div_add_mod (n - 1) m
    exact ⟨(n - 1) / m, by omega⟩

/-- The residue is the only such number. -/
theorem onesResidue_unique (hpos : 0 < r) (hr : r ≤ m) : onesResidue m (m * q + r) = r := by
  have hsub : m * q + r - 1 = m * q + (r - 1) := by omega
  rw [onesResidue, if_neg (by omega), hsub, Nat.mul_add_mod, Nat.mod_eq_of_lt (by omega)]
  omega

theorem onesResidue_eq_zero : onesResidue m n = 0 ↔ n = 0 := by
  unfold onesResidue
  split
  · exact iff_of_true rfl (by assumption)
  · exact iff_of_false (Nat.succ_ne_zero _) (by assumption)

/-- The numbers that are a positive multiple of `m` have the residue `m`. -/
theorem onesResidue_mul (hm : 0 < m) (hq : 0 < q) : onesResidue m (m * q) = m := by
  obtain ⟨q', rfl⟩ := Nat.exists_eq_add_of_le' hq
  rw [Nat.mul_add, Nat.mul_one]
  exact onesResidue_unique hm (Nat.le_refl m)

/-- Addition with the carry takes residues to the residue of the sum. -/
theorem onesAdd_residue (ha : a ≤ m) : onesAdd m (onesResidue m n) a = onesResidue m (n + a) := by
  obtain ⟨q, hq⟩ := onesResidue_spec m n
  by_cases hm : m = 0
  · have hzero : a = 0 := by omega
    subst hm hzero
    rw [Nat.zero_mul, Nat.zero_add] at hq
    rw [onesAdd, ← hq]
    split
    · omega
    · omega
  have hr := @onesResidue_le m n (by omega)
  unfold onesAdd
  split
  · rename_i hle
    by_cases hsum : onesResidue m n + a = 0
    · have hn : n = 0 := (@onesResidue_eq_zero m n).1 (by omega)
      rw [hsum, hn]
      have ha : a = 0 := by omega
      rw [ha]
      rfl
    · have hunique := @onesResidue_unique m q (onesResidue m n + a) (by omega) hle
      rw [← Nat.add_assoc, ← hq] at hunique
      exact hunique.symm
  · rename_i hgt
    have hunique := @onesResidue_unique m (q + 1) (onesResidue m n + a - m) (by omega) (by omega)
    have htotal : m * (q + 1) + (onesResidue m n + a - m) = n + a := by
      rw [Nat.mul_add, Nat.mul_one]
      omega
    rw [htotal] at hunique
    exact hunique.symm

theorem foldl_onesAdd (words : List Nat) (n : Nat) (h : ∀ w ∈ words, w ≤ m) :
    words.foldl (onesAdd m) (onesResidue m n) = onesResidue m (n + words.sum) := by
  induction words generalizing n with
  | nil => rfl
  | cons w words ih =>
    rw [List.foldl_cons, onesAdd_residue (h w List.mem_cons_self),
      ih _ fun v hv => h v (List.mem_cons_of_mem w hv), List.sum_cons, Nat.add_assoc]

/-- The sum is the residue of the total. -/
theorem onesSum_eq {words : List Nat} (h : ∀ w ∈ words, w ≤ m) :
    onesSum m words = onesResidue m words.sum := by
  have hfold := foldl_onesAdd words 0 h
  rwa [Nat.zero_add] at hfold

/-- The order of the words does not matter. -/
theorem onesSum_perm {words words' : List Nat} (hperm : words.Perm words')
    (h : ∀ w ∈ words, w ≤ m) : onesSum m words = onesSum m words' := by
  rw [onesSum_eq h, onesSum_eq fun w hw => h w (hperm.mem_iff.2 hw), hperm.sum_eq]

/-- The sum and the complement of another one add up to `m`. -/
theorem onesResidue_complement (hm : 0 < m) (n : Nat) :
    onesResidue m (n + (m - onesResidue m n)) = m := by
  obtain ⟨q, hq⟩ := onesResidue_spec m n
  have hr := @onesResidue_le m n hm
  have htotal : n + (m - onesResidue m n) = m * (q + 1) := by
    rw [Nat.mul_add, Nat.mul_one]
    omega
  rw [htotal]
  exact onesResidue_mul hm (Nat.succ_pos q)

end Vmx.Lib
