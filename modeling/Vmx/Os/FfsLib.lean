import Vmx.Util.QLib
import Mathlib.Data.Nat.Bitwise
import Mathlib.Tactic.Ring

/-!
# `ffsLib`: find first set

`ffsMsb` looks the position of the most significant bit up in a table of 256
entries, and `ffsLsb` isolates the least significant bit and hands it to
`ffsMsb`.  Positions count from 1, and 0 stands for a word without bits.

`ffsLsb_eq` is the specification: the answer is one more than the number of the
lowest set bit.
-/

namespace Vmx.Os

open Vmx.Util

/-- The table of the source, one row of equal entries after the other. -/
def msbTable : List Nat :=
  [0, 1] ++ List.replicate 2 2 ++ List.replicate 4 3 ++ List.replicate 8 4 ++
    List.replicate 16 5 ++ List.replicate 32 6 ++ List.replicate 64 7 ++ List.replicate 128 8

/-- Position of the most significant bit, 0 if no bit is set.  `upper` is an
`unsigned short` and `high` an `unsigned char`. -/
def ffsMsb (value : Nat) : Nat :=
  let upper := (value >>> 16) % 65536
  if upper = 0 then
    let high := (value >>> 8) % 256
    if high = 0 then msbTable.getD value 0 else msbTable.getD high 0 + 8
  else
    let high := (upper >>> 8) % 256
    if high = 0 then msbTable.getD upper 0 + 16 else msbTable.getD high 0 + 24

/-- Position of the least significant bit, 0 if no bit is set. -/
def ffsLsb (value : Nat) : Nat :=
  ffsMsb ((value ^^^ u32 (value + 4294967295)) &&& value)

/-! ## The lowest set bit -/

/-- Bit `i` is the lowest set bit of `n`: the rest of `n` is a multiple of the
next power of two. -/
def LowestBit (n i : Nat) : Prop := ∃ m, n = 2 ^ (i + 1) * m + 2 ^ i

/-- A word that is not zero has a lowest bit: halve it while it is even. -/
theorem exists_lowestBit {n : Nat} (hn : 0 < n) : ∃ i, LowestBit n i := by
  induction n using Nat.strongRecOn with
  | ind n ih =>
    rcases Nat.mod_two_eq_zero_or_one n with heven | hodd
    · obtain ⟨i, m, hm⟩ := ih (n / 2) (by omega) (by omega)
      refine ⟨i + 1, m, ?_⟩
      have hdouble : n = 2 * (n / 2) := by omega
      rw [hdouble, hm, pow_succ 2 (i + 1), pow_succ 2 i]
      ring
    · exact ⟨0, n / 2, by omega⟩

theorem two_pow_lt_succ (i : Nat) : 2 ^ i < 2 ^ (i + 1) :=
  Nat.pow_lt_pow_right (by decide) (Nat.lt_succ_self i)

theorem testBit_of_lowestBit {n i : Nat} (h : LowestBit n i) (j : Nat) (hj : j ≤ i) :
    n.testBit j = decide (j = i) := by
  obtain ⟨m, rfl⟩ := h
  rw [Nat.testBit_two_pow_mul_add _ (two_pow_lt_succ i), if_pos (by omega), Nat.testBit_two_pow]
  simp [eq_comm]

theorem lowestBit_lt {n i : Nat} (h : LowestBit n i) (hn : n < 2 ^ 32) : i < 32 := by
  obtain ⟨m, rfl⟩ := h
  by_contra hge
  have : 2 ^ 32 ≤ 2 ^ i := Nat.pow_le_pow_right (by decide) (by omega)
  omega

/-- `value ^ (value - 1)` and the word itself share the lowest bit only: above
that bit the two words of the exclusive or agree. -/
theorem isolate_lowestBit {n i : Nat} (hn : n < 4294967296) (h : LowestBit n i) :
    (n ^^^ u32 (n + 4294967295)) &&& n = 2 ^ i := by
  obtain ⟨m, rfl⟩ := h
  have hpos : 0 < 2 ^ i := Nat.two_pow_pos i
  have hpred : u32 (2 ^ (i + 1) * m + 2 ^ i + 4294967295) = 2 ^ (i + 1) * m + (2 ^ i - 1) := by
    rw [u32]
    omega
  have hlt : 2 ^ i - 1 < 2 ^ (i + 1) := Nat.lt_of_le_of_lt (Nat.sub_le _ _) (two_pow_lt_succ i)
  rw [hpred]
  apply Nat.eq_of_testBit_eq
  intro j
  simp only [Nat.testBit_and, Nat.testBit_xor, Nat.testBit_two_pow_mul_add _ (two_pow_lt_succ i),
    Nat.testBit_two_pow_mul_add _ hlt, Nat.testBit_two_pow, Nat.testBit_two_pow_sub_one]
  split
  · rcases Nat.lt_trichotomy j i with hj | rfl | hj
    · simp [hj, Nat.ne_of_gt hj]
    · simp
    · simp [Nat.ne_of_lt hj]
  · rename_i hj
    simp [show i ≠ j by omega]

/-! ## The specification -/

/-- An entry of the table is one more than the logarithm. -/
theorem msbTable_eq {v : Nat} (hv : v < 256) (h0 : v ≠ 0) :
    2 ^ (msbTable.getD v 0 - 1) ≤ v ∧ v < 2 ^ msbTable.getD v 0 ∧ 0 < msbTable.getD v 0 := by
  have hall : (msbTable.zipIdx.all fun e =>
      decide (e.2 = 0 ∨ 2 ^ (e.1 - 1) ≤ e.2 ∧ e.2 < 2 ^ e.1 ∧ 0 < e.1)) = true := by decide +kernel
  have hlt : v < msbTable.length := by
    rw [show msbTable.length = 256 by decide +kernel]
    exact hv
  have hmem : (msbTable.getD v 0, v) ∈ msbTable.zipIdx := by
    rw [List.getD_eq_getElem _ _ hlt]
    exact List.mk_mem_zipIdx_iff_getElem?.2 (List.getElem?_eq_getElem hlt)
  exact (of_decide_eq_true (List.all_eq_true.1 hall _ hmem)).resolve_left h0

/-- The table, for a word that is not zero after a shift. -/
theorem msbTable_shift {n k : Nat} (hlt : n >>> k < 256) (h0 : n >>> k ≠ 0) :
    msbTable.getD (n >>> k) 0 + k = n.log2 + 1 := by
  obtain ⟨hle, hup, hpos⟩ := msbTable_eq hlt h0
  generalize msbTable.getD (n >>> k) 0 = t at hle hup hpos ⊢
  rw [Nat.shiftRight_eq_div_pow] at hle hup h0
  have hn : n ≠ 0 := by
    rintro rfl
    simp at h0
  have hlog : n.log2 = t - 1 + k := by
    rw [Nat.log2_eq_iff hn]
    constructor
    · rw [Nat.pow_add]
      exact (Nat.le_div_iff_mul_le (Nat.two_pow_pos k)).1 hle
    · rw [show t - 1 + k + 1 = t + k by omega, Nat.pow_add]
      exact (Nat.div_lt_iff_lt_mul (Nat.two_pow_pos k)).1 hup
  omega

/-- The position of the most significant bit, counted from 1. -/
theorem ffsMsb_eq {n : Nat} (hn : n < 4294967296) (h0 : n ≠ 0) : ffsMsb n = n.log2 + 1 := by
  have h16 : n >>> 16 = n / 65536 := Nat.shiftRight_eq_div_pow n 16
  have h8 : n >>> 8 = n / 256 := Nat.shiftRight_eq_div_pow n 8
  have h24 : n >>> 24 = n / 16777216 := Nat.shiftRight_eq_div_pow n 24
  have hup : (n >>> 16) % 65536 = n >>> 16 := by omega
  have hup8 : (n >>> 16) >>> 8 = n >>> 24 := (Nat.shiftRight_add n 16 8).symm
  rw [ffsMsb]
  simp only [hup, hup8]
  split
  · split
    · exact msbTable_shift (n := n) (k := 0) (by simp; omega) (by simpa using h0)
    · have hhigh : (n >>> 8) % 256 = n >>> 8 := by omega
      rw [hhigh]
      exact msbTable_shift (by omega) (by omega)
  · have hhigh : (n >>> 24) % 256 = n >>> 24 := by omega
    rw [hhigh]
    split
    · exact msbTable_shift (by omega) (by omega)
    · exact msbTable_shift (by omega) (by omega)

theorem ffsMsb_two_pow : ∀ i : Fin 32, ffsMsb (2 ^ i.val) = i.val + 1 := by decide

@[simp] theorem ffsLsb_zero : ffsLsb 0 = 0 := by decide

/-- The position of the lowest set bit, counted from 1. -/
theorem ffsLsb_eq {n i : Nat} (hn : n < 4294967296) (h : LowestBit n i) : ffsLsb n = i + 1 := by
  rw [ffsLsb, isolate_lowestBit hn h]
  exact ffsMsb_two_pow ⟨i, lowestBit_lt h hn⟩

end Vmx.Os
