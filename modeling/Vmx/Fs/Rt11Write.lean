import Vmx.Fs.Rt11Vops
import Mathlib.Tactic.Linarith
import Mathlib.Tactic.Ring

/-!
# Writes to a file of an RT-11 volume

A write ends.  When it starts within the entry of its file the blocks of the file stay within
the entry (`write_within`); a write that starts behind the end adds a block all the same.
-/

namespace Vmx.Rt11

open Vfs

variable {blkSize lbn fuel rfd_nBlks n : Nat} {io : Nat → Bool × Bool}
  {off bytesToEOF uio_resid w error : Int}

theorem uiomove_eq (hpos : 0 < w) (hle : w ≤ uio_resid) (hint : uio_resid < 2 ^ 31) :
    uiomove w uio_resid = w := by
  have hmod : w.bmod (2 ^ 32) = w := by
    apply Int.bmod_eq_of_le
    · norm_num
      omega
    · norm_num
      omega
  unfold uiomove
  rw [hmod]
  have hnot : ¬ uio_resid < w := by omega
  dsimp only
  rw [if_neg hnot, if_pos hpos]

theorem uiomove_nonneg (w uio_resid : Int) : 0 ≤ uiomove w uio_resid := by
  unfold uiomove
  dsimp only
  split <;> omega

/-- The bytes of one turn. -/
def turnBytes (blkSize : Nat) (off bytesToEOF uio_resid : Int) : Int :=
  let bytesToWrite := blkSize - off
  let bytesToWrite := if uio_resid < bytesToWrite then uio_resid else bytesToWrite
  if bytesToEOF < bytesToWrite then bytesToEOF else bytesToWrite

/-- One turn of the loop ends the write, or writes `turnBytes` bytes. -/
theorem writeLoop_succ :
    writeLoop blkSize io (fuel + 1) lbn off bytesToEOF uio_resid rfd_nBlks =
      if uio_resid ≤ 0 then some (OK, rfd_nBlks)
      else
        let bytesToWrite := turnBytes blkSize off bytesToEOF uio_resid
        if bytesToWrite = 0 then some (EFBIG, rfd_nBlks)
        else if bytesToWrite ≠ blkSize ∧ (io lbn).1 = false then some ( EIO, rfd_nBlks)
        else if (io lbn).2 = false then some ( EIO, rfd_nBlks)
        else
          writeLoop blkSize io fuel (lbn + 1) 0 (bytesToEOF - bytesToWrite)
            (uio_resid - uiomove bytesToWrite uio_resid)
            (if rfd_nBlks < lbn + 1 then rfd_nBlks + 1 else rfd_nBlks) := rfl

theorem turnBytes_le (bytesToEOF : Int) (hoff : off < blkSize) (hresid : 0 < uio_resid) :
    turnBytes blkSize off bytesToEOF uio_resid ≤ uio_resid ∧
      (turnBytes blkSize off bytesToEOF uio_resid < 0 →
        turnBytes blkSize off bytesToEOF uio_resid = bytesToEOF) := by
  unfold turnBytes
  dsimp only
  split <;> split <;> omega

/-- At the end of the entry nothing is written. -/
theorem writeLoop_eof (hblk : 0 < blkSize) :
    ∃ r, writeLoop blkSize io (fuel + 1) lbn 0 0 uio_resid rfd_nBlks = some r := by
  rw [writeLoop_succ]
  by_cases hresid : uio_resid ≤ 0
  · exact ⟨_, if_pos hresid⟩
  · have hzero : turnBytes blkSize 0 0 uio_resid = 0 := by
      unfold turnBytes
      dsimp only
      split <;> split <;> omega
    rw [if_neg hresid, hzero]
    exact ⟨_, if_pos rfl⟩

/-- A write ends. -/
theorem writeLoop_ends (hblk : 0 < blkSize) (hoff : off < blkSize)
    (hint : uio_resid < 2 ^ 31) (hfuel : uio_resid.toNat + 3 ≤ fuel) :
    ∃ r, writeLoop blkSize io fuel lbn off bytesToEOF uio_resid rfd_nBlks = some r := by
  induction fuel generalizing lbn off bytesToEOF uio_resid rfd_nBlks with
  | zero => omega
  | succ fuel ih =>
    rw [writeLoop_succ]
    by_cases hresid : uio_resid ≤ 0
    · exact ⟨_, if_pos hresid⟩
    rw [if_neg hresid]
    obtain ⟨w, hw⟩ : ∃ w, w = turnBytes blkSize off bytesToEOF uio_resid := ⟨_, rfl⟩
    obtain ⟨hle, hneg⟩ := turnBytes_le bytesToEOF hoff (Int.not_le.1 hresid)
    rw [← hw] at hle hneg ⊢
    dsimp only
    split
    · exact ⟨_, rfl⟩
    next hzero =>
      split
      · exact ⟨_, rfl⟩
      · split
        · exact ⟨_, rfl⟩
        · by_cases hpos : 0 < w
          · have hmove := uiomove_eq hpos hle hint
            rw [hmove]
            exact ih (by omega) (by omega) (by omega)
          · -- the write starts behind the end
            rw [hneg (by omega), Int.sub_self]
            obtain ⟨fuel, rfl⟩ : ∃ m, fuel = m + 1 := ⟨fuel - 1, by omega⟩
            exact writeLoop_eof hblk

/-- The blocks of the file stay within its entry. -/
theorem writeLoop_within {de_nblocks : Nat} (hblk : 0 < blkSize) (hoff : 0 ≤ off)
    (hlt : off < blkSize) (hint : uio_resid < 2 ^ 31)
    (heof : uio_resid ≤ 0 ∨
      bytesToEOF = ((de_nblocks : Int) - lbn) * blkSize - off ∧ 0 ≤ bytesToEOF)
    (hn : rfd_nBlks ≤ de_nblocks)
    (hr : writeLoop blkSize io fuel lbn off bytesToEOF uio_resid rfd_nBlks = some (error, n)) :
    n ≤ de_nblocks := by
  induction fuel generalizing lbn off bytesToEOF uio_resid rfd_nBlks with
  | zero => cases hr
  | succ fuel ih =>
    have hend : ∀ e, some (e, rfd_nBlks) = some (error, n) → n ≤ de_nblocks := by
      intro e he
      obtain ⟨_, rfl⟩ := Prod.mk.inj (Option.some.inj he)
      exact hn
    rw [writeLoop_succ] at hr
    by_cases hresid : uio_resid ≤ 0
    · rw [if_pos hresid] at hr
      exact hend _ hr
    rw [if_neg hresid] at hr
    dsimp only at hr
    split at hr
    · exact hend _ hr
    next hzero =>
      split at hr
      · exact hend _ hr
      · split at hr
        · exact hend _ hr
        · obtain ⟨heof, hge⟩ := heof.resolve_left hresid
          -- at least one block is left
          have hmin : turnBytes blkSize off bytesToEOF uio_resid ≤ bytesToEOF := by
            unfold turnBytes
            dsimp only
            split <;> split <;> omega
          have hnonneg : 0 ≤ turnBytes blkSize off bytesToEOF uio_resid := by
            unfold turnBytes
            dsimp only
            split <;> split <;> omega
          have hleft : 1 ≤ (de_nblocks : Int) - lbn := by
            by_contra hno
            have hneg : ((de_nblocks : Int) - lbn) * blkSize ≤ 0 :=
              mul_nonpos_of_nonpos_of_nonneg (by omega) (by omega)
            omega
          have hroom : (blkSize : Int) ≤ ((de_nblocks : Int) - lbn) * blkSize := by
            have hmul := mul_le_mul_of_nonneg_right hleft (Int.natCast_nonneg blkSize)
            rwa [one_mul] at hmul
          obtain ⟨hle, _⟩ := turnBytes_le bytesToEOF hlt (Int.not_le.1 hresid)
          have hpos : 0 < turnBytes blkSize off bytesToEOF uio_resid := by omega
          rw [uiomove_eq hpos hle hint] at hr
          have hcase : turnBytes blkSize off bytesToEOF uio_resid = uio_resid ∨
              turnBytes blkSize off bytesToEOF uio_resid = blkSize - off := by
            unfold turnBytes
            dsimp only
            split <;> split <;> omega
          have hnext : ((de_nblocks : Int) - (lbn + 1 : Nat)) * blkSize =
              ((de_nblocks : Int) - lbn) * blkSize - blkSize := by
            push_cast
            ring
          refine ih (Int.le_refl 0) (by omega) (by omega) ?_ ?_ hr
          · obtain hall | hblock := hcase
            · exact .inl (by omega)
            · exact .inr ⟨by omega, by omega⟩
          · split <;> omega

theorem rt11VopWrite_ends (s : Vol) (vp uio_offset uio_resid : Nat) (io : Nat → Bool × Bool)
    (hint : uio_resid < 2 ^ 31) : ∃ r, rt11VopWrite s vp uio_offset uio_resid io = some r := by
  unfold rt11VopWrite
  split
  · exact ⟨_, rfl⟩
  · have hblk : 0 < 2 ^ s.vd_blkSize2 := Nat.two_pow_pos _
    have hoff : ((uio_offset % 2 ^ s.vd_blkSize2 : Nat) : Int) < (2 ^ s.vd_blkSize2 : Nat) :=
      Int.ofNat_lt.2 (Nat.mod_lt _ hblk)
    have hresid : ((uio_resid : Nat) : Int) < 2 ^ 31 := by omega
    have hends : ∀ bytesToEOF : Int, ∃ r, writeLoop (2 ^ s.vd_blkSize2 : Nat) io (uio_resid + 3)
        (uio_offset / 2 ^ s.vd_blkSize2) (uio_offset % 2 ^ s.vd_blkSize2 : Nat) bytesToEOF uio_resid
        (s.desc vp).rfd_nBlks = some r :=
      fun bytesToEOF => writeLoop_ends hblk hoff hresid (Nat.le_refl _)
    obtain ⟨r, hr⟩ := hends
      (((s.desc vp).rfd_dirEntry.blocks * 2 ^ s.vd_blkSize2 : Nat) - uio_offset)
    exact ⟨_, Option.map_eq_some_iff.2 ⟨r, hr, rfl⟩⟩

/-- A write that starts within the entry of the file keeps its blocks within the entry. -/
theorem write_within {s s' : Vol} {vp uio_offset uio_resid : Nat} {io : Nat → Bool × Bool}
    (hint : uio_resid < 2 ^ 31)
    (hoffset : uio_offset ≤ (s.desc vp).rfd_dirEntry.blocks * 2 ^ s.vd_blkSize2)
    (hn : (s.desc vp).rfd_nBlks ≤ (s.desc vp).rfd_dirEntry.blocks)
    (hr : rt11VopWrite s vp uio_offset uio_resid io = some (s', error)) :
    (s'.desc vp).rfd_nBlks ≤ (s'.desc vp).rfd_dirEntry.blocks := by
  unfold rt11VopWrite at hr
  split at hr
  next =>
    cases hr
    exact hn
  next =>
    obtain ⟨⟨e, n⟩, hloop, heq⟩ := Option.map_eq_some_iff.1 hr
    obtain ⟨rfl, _⟩ := Prod.mk.inj heq
    dsimp only at hloop ⊢
    rw [Function.update_self]
    have hblk : 0 < 2 ^ s.vd_blkSize2 := Nat.two_pow_pos _
    have hoff : ((uio_offset % 2 ^ s.vd_blkSize2 : Nat) : Int) < (2 ^ s.vd_blkSize2 : Nat) :=
      Int.ofNat_lt.2 (Nat.mod_lt _ hblk)
    have hdiv := Nat.div_add_mod uio_offset (2 ^ s.vd_blkSize2)
    refine writeLoop_within hblk (Int.natCast_nonneg _) hoff (by omega) (.inr ⟨?_, by omega⟩) hn
      hloop
    rw [Int.sub_mul]
    push_cast
    have hint' : (uio_offset : Int) = 2 ^ s.vd_blkSize2 * (uio_offset / 2 ^ s.vd_blkSize2 : Nat) +
        (uio_offset % 2 ^ s.vd_blkSize2 : Nat) := by exact_mod_cast hdiv.symm
    push_cast at hint'
    linarith

end Vmx.Rt11
