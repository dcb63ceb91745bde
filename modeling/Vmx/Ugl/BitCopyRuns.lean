import Vmx.Ugl.BitPieces

/-!
# What `uglCommonBitCopy` copies

`Lib.transfer` on the bits is the definition the copy is compared with.  A path has done the
bits up to `k`, or from `k` on going down, and what it has still to read is untouched when the
direction fits the overlap.  `UpShifted` and `DownShifted` carry the byte that the shifted
paths hold between two rounds.

`bitsRight_of_fit` is the result for bits and `bytesRight_iff` the one for whole bytes.
-/

namespace Vmx.Ugl

open Vmx.Lib

/-! ## Going up -/

section Up

variable {op : RasterOp} {s : Int → Bool} {a b n k : Int} {c : Cursor}

/-- The bits up to `k` are done, and both pointers are at the next whole byte. -/
structure UpAligned (op : RasterOp) (s : Int → Bool) (a b n k : Int) (c : Cursor) : Prop where
  mem : bits c.mem = transfer op.bit s a b 0 k
  nonneg : 0 ≤ k
  count : k + c.count = n
  dest : 0 < c.count → b + k = 8 * c.dest
  src : 0 < c.count → a + k = 8 * c.src

theorem startMask_snd (off count : Nat) (hoff : off < 8) :
    (startMask off count).2 ≤ count ∧
      (0 < (startMask off count).2 → count = (startMask off count).2 + (8 - off)) ∧
      (count ≤ 8 - off → (startMask off count).2 = 0) ∧
      count ≤ (startMask off count).2 + (8 - off) := by
  unfold startMask
  split
  · exact ⟨Nat.zero_le _, fun h => absurd h (Nat.lt_irrefl 0), fun _ => rfl,
      by show count ≤ 0 + (8 - off); omega⟩
  · show count - (8 - off) ≤ count ∧
      (0 < count - (8 - off) → count = count - (8 - off) + (8 - off)) ∧
      (count ≤ 8 - off → count - (8 - off) = 0) ∧ count ≤ count - (8 - off) + (8 - off)
    exact ⟨by omega, fun _ => by omega, fun _ => by omega, by omega⟩

theorem UpAligned.start {mem : Memory} {src dest : Int} {off count : Nat} (v : BitVec 8)
    (hoff : off < 8) :
    UpAligned op (bits mem) (8 * src + off) (8 * dest + off) count
      (count - (alignedStart op off ⟨mem, src, dest, count, v⟩).count)
      (alignedStart op off ⟨mem, src, dest, count, v⟩) := by
  unfold alignedStart
  by_cases h : off > 0
  · have ⟨hle, hpos, _, hge⟩ := startMask_snd off count hoff
    rw [if_pos h]
    constructor
    case mem =>
      apply put_up (transfer_empty (Int.le_refl 0)).symm (Int.le_refl 0)
      · show 0 ≤ (count - (startMask off count).2 : Int)
        omega
      · show Covers _ dest (8 * dest + off + 0)
          (8 * dest + off + (count - (startMask off count).2 : Int))
        exact (startMask_covers hoff).congr (by omega) rfl
      · show 8 * dest ≤ 8 * dest + off + 0
        omega
      · show 8 * dest + off + (count - (startMask off count).2 : Int) ≤ 8 * dest + 8
        omega
      · intro j hj _ _
        have hp : 8 * src + off + (8 * dest + j - (8 * dest + off)) = 8 * src + j := by omega
        rw [hp, bits_byte mem src hj]
    case nonneg =>
      show 0 ≤ (count - (startMask off count).2 : Int)
      omega
    case count =>
      show (count - (startMask off count).2 : Int) + (startMask off count).2 = count
      omega
    case dest =>
      intro hc
      have := hpos hc
      show 8 * dest + off + (count - (startMask off count).2 : Int) = 8 * (dest + 1)
      omega
    case src =>
      intro hc
      have := hpos hc
      show 8 * src + off + (count - (startMask off count).2 : Int) = 8 * (src + 1)
      omega
  · rw [if_neg h]
    constructor
    case mem => exact (transfer_empty (by show (count - count : Int) ≤ 0; omega)).symm
    case nonneg =>
      show 0 ≤ (count - count : Int)
      omega
    case count =>
      show (count - count : Int) + count = count
      omega
    case dest =>
      intro _
      show 8 * dest + off + (count - count : Int) = 8 * dest
      omega
    case src =>
      intro _
      show 8 * src + off + (count - count : Int) = 8 * src
      omega

/-- The whole bytes, when `uglCommonByteCopy` copies them right and the bits done are not
read again. -/
theorem UpAligned.bytes (h : UpAligned op s a b n k c) (hn : n < 2147483648)
    (hcopy : op ≠ .COPY ∨ b ≤ a ∨ a + n ≤ b) (hread : k = 0 ∨ b ≤ a ∨ a + n ≤ b) :
    UpAligned op s a b n (n - (alignedBytes op c).count) (alignedBytes op c) := by
  have hk := h.nonneg
  have hcount := h.count
  unfold alignedBytes
  by_cases hc : c.count ≥ 8
  · have hdest := h.dest (by omega)
    have hsrc := h.src (by omega)
    rw [if_pos hc]
    have hbytes : bits (uglCommonByteCopy c.mem c.src c.dest (c.count / 8) op) =
        transfer op.bit s a b 0 (k + 8 * (c.count / 8 : Nat)) := by
      rw [uglCommonByteCopy_spec (by omega) (hcopy.imp_right (by omega)), bits_transfer, h.mem,
        ← hsrc, ← hdest]
      have hshift := @transfer_shift Bool op.bit (transfer op.bit s a b 0 k) a b k
        (k + 8 * (c.count / 8 : Nat)) k
      have h1 : k - k = 0 := by omega
      have h2 : k + 8 * ((c.count / 8 : Nat) : Int) - k = 8 * (c.count / 8 : Nat) := by omega
      rw [h1, h2] at hshift
      exact hshift.trans (transfer_after hk (by omega) (by omega))
    have hmod : (n - (c.count % 8 : Nat) : Int) = k + 8 * (c.count / 8 : Nat) := by omega
    constructor
    case mem =>
      show bits (uglCommonByteCopy c.mem c.src c.dest (c.count / 8) op) =
        transfer op.bit s a b 0 (n - (c.count % 8 : Nat))
      rw [hmod]
      exact hbytes
    case nonneg =>
      show 0 ≤ (n - (c.count % 8 : Nat) : Int)
      omega
    case count =>
      show (n - (c.count % 8 : Nat) : Int) + (c.count % 8 : Nat) = n
      omega
    case dest =>
      intro _
      show b + (n - (c.count % 8 : Nat) : Int) = 8 * (c.dest + (c.count / 8 : Nat))
      omega
    case src =>
      intro _
      show a + (n - (c.count % 8 : Nat) : Int) = 8 * (c.src + (c.count / 8 : Nat))
      omega
  · have hkn : n - c.count = k := by omega
    rw [if_neg hc, hkn]
    exact h

theorem UpAligned.rest (h : UpAligned op s a b n k c) (hc8 : c.count < 8)
    (hread : k = 0 ∨ b ≤ a ∨ a + n ≤ b ∨ c.count = 0) :
    bits (alignedRest op c) = transfer op.bit s a b 0 n := by
  have hk := h.nonneg
  have hcount := h.count
  unfold alignedRest
  by_cases hc : c.count > 0
  · have hdest := h.dest hc
    have hsrc := h.src hc
    rw [if_pos hc]
    apply put_up h.mem hk (by omega)
    · exact (covers_top (by omega)).congr (by omega) (by omega)
    · omega
    · omega
    · intro j hj h1 h2
      have hp : a + (8 * c.dest + j - b) = 8 * c.src + j := by omega
      rw [hp]
      exact read_old h.mem hj (by omega)
  · rw [if_neg hc, h.mem]
    have hkn : k = n := by omega
    rw [hkn]

/-- The forward path for one bit offset. -/
theorem forwardAligned_bits {mem : Memory} {src dest : Int} {off count : Nat} (v : BitVec 8)
    (hoff : off < 8) (hn : count < 2147483648)
    (h : dest ≤ src ∨ 8 * src + count ≤ 8 * dest ∨ (op ≠ .COPY ∧ off = 0 ∧ count % 8 = 0)) :
    bits (forwardAligned op off ⟨mem, src, dest, count, v⟩) =
      transfer op.bit (bits mem) (8 * src + off) (8 * dest + off) 0 count := by
  have h1 := @UpAligned.start op mem src dest off count v hoff
  have hstart : off = 0 → (alignedStart op off ⟨mem, src, dest, count, v⟩).count = count := by
    intro h0
    rw [alignedStart, if_neg (by omega)]
  have h2 := h1.bytes (by omega)
    (by
      cases h with
      | inl h => exact Or.inr (Or.inl (by omega))
      | inr h =>
        cases h with
        | inl h => exact Or.inr (Or.inr (by omega))
        | inr h => exact Or.inl h.1)
    (by
      cases h with
      | inl h => exact Or.inr (Or.inl (by omega))
      | inr h =>
        cases h with
        | inl h => exact Or.inr (Or.inr (by omega))
        | inr h =>
          have := hstart h.2.1
          exact Or.inl (by omega))
  have hrest : (alignedBytes op (alignedStart op off ⟨mem, src, dest, count, v⟩)).count =
      (alignedStart op off ⟨mem, src, dest, count, v⟩).count % 8 := by
    unfold alignedBytes
    split
    · rfl
    · omega
  apply h2.rest (by omega)
  cases h with
  | inl h => exact Or.inr (Or.inl (by omega))
  | inr h =>
    cases h with
    | inl h => exact Or.inr (Or.inr (Or.inl (by omega)))
    | inr h =>
      have := hstart h.2.1
      exact Or.inr (Or.inr (Or.inr (by omega)))

/-- The bits up to `k` are done, and `value1` is the byte that holds the next source bits,
at `left`. -/
structure UpShifted (op : RasterOp) (s : Int → Bool) (a b n : Int) (left : Nat) (c : Cursor) :
    Prop where
  mem : bits c.mem = transfer op.bit s a b 0 (n - c.count)
  nonneg : 0 ≤ n - c.count
  dest : 0 < c.count → b + (n - c.count) = 8 * c.dest
  src : 0 < c.count → a + (n - c.count) = 8 * (c.src - 1) + left
  value : 0 < c.count → ∀ j : Nat, left ≤ j → j < 8 → 8 * (c.src - 1) + j < a + n →
    c.value1.getMsbD j = s (8 * (c.src - 1) + j)

/-- The source bits of the byte at `dest`. -/
theorem UpShifted.next {left : Nat} (h : UpShifted op s a b n left c) (hc : 0 < c.count)
    (hleft : left < 8) (hsafe : b ≤ a ∨ a + n ≤ b) {j : Nat} (hj : j < 8)
    (hjn : 8 * c.dest + j < b + n) :
    ((c.mem c.src >>> (8 - left)) ||| (c.value1 <<< left)).getMsbD j =
      s (a + (8 * c.dest + j - b)) := by
  have hk := h.nonneg
  have hdest := h.dest hc
  have hsrc := h.src hc
  rw [shift_left_bit (by omega) hj]
  by_cases hjl : j + left < 8
  · have hp : a + (8 * c.dest + j - b) = 8 * (c.src - 1) + (j + left : Nat) := by omega
    rw [if_pos hjl, hp]
    exact h.value hc (j + left) (by omega) hjl (by omega)
  · have hp : a + (8 * c.dest + j - b) = 8 * c.src + (j + left - 8 : Nat) := by omega
    rw [if_neg hjl, hp]
    exact read_old h.mem (by omega) (by omega)

theorem UpShifted.round {left : Nat} (h : UpShifted op s a b n left c) (hc : 8 ≤ c.count)
    (hleft : left < 8) (hsafe : b ≤ a ∨ a + n ≤ b) :
    UpShifted op s a b n left
      { mem := Function.update c.mem c.dest (op.all (c.mem c.dest)
          ((c.mem c.src >>> (8 - left)) ||| (c.value1 <<< left)))
        src := c.src + 1
        dest := c.dest + 1
        count := c.count - 8
        value1 := c.mem c.src } := by
  have hk := h.nonneg
  have hdest := h.dest (by omega)
  have hsrc := h.src (by omega)
  have hcount : (n - (c.count - 8 : Nat) : Int) = n - c.count + 8 := by omega
  have hmem : bits (Function.update c.mem c.dest (op.all (c.mem c.dest)
      ((c.mem c.src >>> (8 - left)) ||| (c.value1 <<< left)))) =
      transfer op.bit s a b 0 (n - (c.count - 8 : Nat)) := by
    rw [← put_full]
    apply put_up h.mem hk (by omega)
    · exact covers_all.congr (by omega) (by omega)
    · omega
    · omega
    · intro j hj _ h2
      exact h.next (by omega) hleft hsafe hj (by omega)
  constructor
  case mem => exact hmem
  case nonneg =>
    show 0 ≤ (n - (c.count - 8 : Nat) : Int)
    omega
  case dest =>
    intro _
    show b + (n - (c.count - 8 : Nat) : Int) = 8 * (c.dest + 1)
    omega
  case src =>
    intro _
    show a + (n - (c.count - 8 : Nat) : Int) = 8 * (c.src + 1 - 1) + left
    omega
  case value =>
    intro _ j hj1 hj2 hjn
    have hs : c.src + 1 - 1 = c.src := by omega
    rw [hs] at hjn ⊢
    exact read_old h.mem hj2 (by omega)

/-- What one whole byte keeps, all of them keep. -/
theorem shiftedBytes_keeps {P : Cursor → Prop} {left : Nat}
    (hround : ∀ c, P c → 8 ≤ c.count → P (shiftedBytes op left 1 c)) (m : Nat) :
    ∀ c, P c → 8 * m ≤ c.count →
      P (shiftedBytes op left m c) ∧ (shiftedBytes op left m c).count = c.count - 8 * m := by
  induction m with
  | zero => exact fun c h _ => ⟨h, rfl⟩
  | succ m ih =>
    intro c h hm
    have ⟨h1, h2⟩ := ih _ (hround c h (by omega)) (by show 8 * m ≤ c.count - 8; omega)
    refine ⟨h1, h2.trans ?_⟩
    show c.count - 8 - 8 * m = c.count - 8 * (m + 1)
    omega

theorem UpShifted.rounds {left : Nat} (hleft : left < 8) (hsafe : b ≤ a ∨ a + n ≤ b) (m : Nat) :
    ∀ c, UpShifted op s a b n left c → 8 * m ≤ c.count →
      UpShifted op s a b n left (shiftedBytes op left m c) ∧
      (shiftedBytes op left m c).count = c.count - 8 * m :=
  shiftedBytes_keeps (fun _ h hc => h.round hc hleft hsafe) m

theorem UpShifted.rest {left : Nat} (h : UpShifted op s a b n left c) (hc8 : c.count < 8)
    (hleft : left < 8) (hsafe : c.count = 0 ∨ b ≤ a ∨ a + n ≤ b) :
    bits (shiftedRest op left c) = transfer op.bit s a b 0 n := by
  have hk := h.nonneg
  unfold shiftedRest
  by_cases hc : c.count > 0
  · have hdest := h.dest hc
    rw [if_pos hc, BitVec.or_comm]
    apply put_up h.mem hk (by omega)
    · exact (covers_top (by omega)).congr (by omega) (by omega)
    · omega
    · omega
    · intro j hj _ h2
      exact h.next hc hleft (hsafe.resolve_left (by omega)) hj h2
  · have h0 : n - c.count = n := by omega
    rw [if_neg hc, h.mem, h0]

theorem shiftedStart_mem {mem : Memory} {src dest : Int} {srcOff destOff count : Nat}
    (v : BitVec 8) (hs : srcOff < 8) (hd : destOff < 8) :
    bits (shiftedStart op srcOff destOff ⟨mem, src, dest, count, v⟩).mem =
        transfer op.bit (bits mem) (8 * src + srcOff) (8 * dest + destOff) 0
          (count - (startMask destOff count).2) := by
  have ⟨hle, hpos, hsmall, hge⟩ := startMask_snd destOff count hd
  apply put_up (transfer_empty (Int.le_refl 0)).symm (Int.le_refl 0) (by omega)
  · show Covers _ dest (8 * dest + destOff + 0)
      (8 * dest + destOff + (count - (startMask destOff count).2 : Int))
    exact (startMask_covers hd).congr (by omega) rfl
  · show 8 * dest ≤ 8 * dest + destOff + 0
    omega
  · show 8 * dest + destOff + (count - (startMask destOff count).2 : Int) ≤ 8 * dest + 8
    omega
  · intro j hj h1 _
    have h1' : 8 * dest + destOff + 0 ≤ 8 * dest + j := h1
    by_cases hgt : destOff > srcOff
    · have hp : 8 * src + srcOff + (8 * dest + j - (8 * dest + destOff)) =
          8 * src + (j - (destOff - srcOff) : Nat) := by omega
      rw [if_pos hgt, hp, bits_byte mem src (by omega), BitVec.getMsbD_ushiftRight]
      have hjlt : ¬j < destOff - srcOff := by omega
      simp [hj, hjlt]
    · rw [if_neg hgt, BitVec.or_comm, shift_left_bit (by omega) hj]
      by_cases hjl : j + (srcOff - destOff) < 8
      · have hp : 8 * src + srcOff + (8 * dest + j - (8 * dest + destOff)) =
            8 * src + (j + (srcOff - destOff) : Nat) := by omega
        rw [if_pos hjl, hp, bits_byte mem src hjl]
      · have hp : 8 * src + srcOff + (8 * dest + j - (8 * dest + destOff)) =
            8 * (src + 1) + (j + (srcOff - destOff) - 8 : Nat) := by omega
        rw [if_neg hjl, hp, bits_byte mem (src + 1) (by omega)]

theorem shiftedStart_src {src : Int} {srcOff destOff count : Nat} (hs : srcOff < 8)
    (hd : destOff < 8) :
    0 < (startMask destOff count).2 →
        8 * src + srcOff + (count - (startMask destOff count).2 : Int) =
          8 * (if destOff > srcOff then src else src + 1) + leftShift srcOff destOff := by
  have ⟨hle, hpos, hsmall, hge⟩ := startMask_snd destOff count hd
  intro hc
  have := hpos hc
  unfold leftShift
  split
  · omega
  · omega

theorem UpShifted.start {mem : Memory} {src dest : Int} {srcOff destOff count : Nat}
    (v : BitVec 8) (hs : srcOff < 8) (hd : destOff < 8)
    (hsafe : count ≤ 8 - destOff ∨ 8 * dest + destOff ≤ 8 * src + srcOff ∨
      8 * src + srcOff + count ≤ 8 * dest + destOff) :
    UpShifted op (bits mem) (8 * src + srcOff) (8 * dest + destOff) count
      (leftShift srcOff destOff)
      (shiftedStart op srcOff destOff ⟨mem, src, dest, count, v⟩) := by
  have ⟨hle, hpos, hsmall, hge⟩ := startMask_snd destOff count hd
  have hmem := @shiftedStart_mem op mem src dest srcOff destOff count v hs hd
  have hsrc := @shiftedStart_src src srcOff destOff count hs hd
  have hone : ∀ x : Int, x + 1 - 1 = x := fun x => by omega
  constructor
  case mem => exact hmem
  case nonneg =>
    show 0 ≤ (count - (startMask destOff count).2 : Int)
    omega
  case dest =>
    intro hc
    have := hpos hc
    show 8 * dest + destOff + (count - (startMask destOff count).2 : Int) = 8 * (dest + 1)
    omega
  case src =>
    intro hc
    show _ = 8 * ((if destOff > srcOff then src else src + 1) + 1 - 1) + _
    rw [hone]
    exact hsrc hc
  case value =>
    intro hc j hj1 hj2
    have hp := hsrc hc
    have hc' : 0 < (startMask destOff count).2 := hc
    show 8 * ((if destOff > srcOff then src else src + 1) + 1 - 1) + (j : Int) < _ →
      ((shiftedStart op srcOff destOff ⟨mem, src, dest, count, v⟩).mem
        (if destOff > srcOff then src else src + 1)).getMsbD j =
      bits mem (8 * ((if destOff > srcOff then src else src + 1) + 1 - 1) + j)
    rw [hone]
    intro hjn
    exact read_old hmem hj2 (by omega)

/-- The forward path for two bit offsets. -/
theorem forwardShifted_bits {mem : Memory} {src dest : Int} {srcOff destOff count : Nat}
    (v : BitVec 8) (hs : srcOff < 8) (hd : destOff < 8)
    (hsafe : count ≤ 8 - destOff ∨ 8 * dest + destOff ≤ 8 * src + srcOff ∨
      8 * src + srcOff + count ≤ 8 * dest + destOff) :
    bits (forwardShifted op srcOff destOff ⟨mem, src, dest, count, v⟩) =
      transfer op.bit (bits mem) (8 * src + srcOff) (8 * dest + destOff) 0 count := by
  have hleft : leftShift srcOff destOff < 8 := by
    unfold leftShift
    split
    · omega
    · omega
  have ⟨_, _, hsmall, _⟩ := startMask_snd destOff count hd
  have h1 := @UpShifted.start op mem src dest srcOff destOff count v hs hd hsafe
  have hcount : (shiftedStart op srcOff destOff ⟨mem, src, dest, count, v⟩).count =
    (startMask destOff count).2 := rfl
  rw [forwardShifted]
  by_cases hbig : count ≤ 8 - destOff
  · have h0 : (shiftedStart op srcOff destOff ⟨mem, src, dest, count, v⟩).count / 8 = 0 := by
      rw [hcount, hsmall hbig]
    rw [h0]
    exact h1.rest (by rw [hcount, hsmall hbig]; omega) hleft
      (Or.inl (hcount.trans (hsmall hbig)))
  · have hsafe' := hsafe.resolve_left hbig
    have ⟨h2, h3⟩ := UpShifted.rounds hleft hsafe'
      ((shiftedStart op srcOff destOff ⟨mem, src, dest, count, v⟩).count / 8) _ h1 (by omega)
    exact h2.rest (by omega) hleft (Or.inr hsafe')

end Up

/-! ## Going down -/

section Down

variable {op : RasterOp} {s : Int → Bool} {a b n : Int} {c : Cursor}

/-- The bits from `count` on are done, and `value1` is the byte that holds the next source
bits, `right` from its end. -/
structure DownShifted (op : RasterOp) (s : Int → Bool) (a b n : Int) (right : Nat)
    (c : Cursor) : Prop where
  mem : bits c.mem = transfer op.bit s a b c.count n
  le : c.count ≤ n
  dest : 0 < c.count → b + c.count = 8 * (c.dest + 1)
  src : 0 < c.count → a + c.count = 8 * (c.src + 2) - right
  value : 0 < c.count → ∀ j : Nat, j + right < 8 → a ≤ 8 * (c.src + 1) + j →
    c.value1.getMsbD j = s (8 * (c.src + 1) + j)

/-- The source bits of the byte at `dest`. -/
theorem DownShifted.next {right : Nat} (h : DownShifted op s a b n right c) (hc : 0 < c.count)
    (hright : right ≤ 8) (hsafe : a ≤ b ∨ b + n ≤ a) {j : Nat} (hj : j < 8)
    (hjb : b ≤ 8 * c.dest + j) :
    ((c.mem c.src <<< (8 - right)) ||| (c.value1 >>> right)).getMsbD j =
      s (a + (8 * c.dest + j - b)) := by
  have hle := h.le
  have hdest := h.dest hc
  have hsrc := h.src hc
  rw [shift_right_bit hright hj]
  by_cases hjr : j < right
  · have hp : a + (8 * c.dest + j - b) = 8 * c.src + (j + 8 - right : Nat) := by omega
    rw [if_pos hjr, hp]
    exact read_old h.mem (by omega) (by omega)
  · have hp : a + (8 * c.dest + j - b) = 8 * (c.src + 1) + (j - right : Nat) := by omega
    rw [if_neg hjr, hp]
    exact h.value hc (j - right) (by omega) (by omega)

theorem DownShifted.round {right : Nat} (h : DownShifted op s a b n right c)
    (hc : 8 ≤ c.count) (hright : right ≤ 8) (hsafe : a ≤ b ∨ b + n ≤ a) :
    DownShifted op s a b n right
      { mem := Function.update c.mem c.dest (op.all (c.mem c.dest)
          ((c.mem c.src <<< (8 - right)) ||| (c.value1 >>> right)))
        src := c.src - 1
        dest := c.dest - 1
        count := c.count - 8
        value1 := c.mem c.src } := by
  have hle := h.le
  have hdest := h.dest (by omega)
  have hsrc := h.src (by omega)
  have hcount : ((c.count - 8 : Nat) : Int) = c.count - 8 := by omega
  have hmem : bits (Function.update c.mem c.dest (op.all (c.mem c.dest)
      ((c.mem c.src <<< (8 - right)) ||| (c.value1 >>> right)))) =
      transfer op.bit s a b (c.count - 8 : Nat) n := by
    rw [← put_full]
    apply put_down h.mem hle (by omega)
    · exact covers_all.congr (by omega) (by omega)
    · omega
    · omega
    · intro j hj h1 _
      exact h.next (by omega) hright hsafe hj (by omega)
  constructor
  case mem => exact hmem
  case le =>
    show ((c.count - 8 : Nat) : Int) ≤ n
    omega
  case dest =>
    intro _
    show b + ((c.count - 8 : Nat) : Int) = 8 * (c.dest - 1 + 1)
    omega
  case src =>
    intro _
    show a + ((c.count - 8 : Nat) : Int) = 8 * (c.src - 1 + 2) - right
    omega
  case value =>
    intro _ j hj
    show a ≤ 8 * (c.src - 1 + 1) + (j : Int) →
      (c.mem c.src).getMsbD j = s (8 * (c.src - 1 + 1) + j)
    have hs : c.src - 1 + 1 = c.src := by omega
    rw [hs]
    intro hja
    exact read_old h.mem (by omega) (by omega)

theorem shiftedBytesDown_keeps {P : Cursor → Prop} {right : Nat}
    (hround : ∀ c, P c → 8 ≤ c.count → P (shiftedBytesDown op right 1 c)) (m : Nat) :
    ∀ c, P c → 8 * m ≤ c.count →
      P (shiftedBytesDown op right m c) ∧
      (shiftedBytesDown op right m c).count = c.count - 8 * m := by
  induction m with
  | zero => exact fun c h _ => ⟨h, rfl⟩
  | succ m ih =>
    intro c h hm
    have ⟨h1, h2⟩ := ih _ (hround c h (by omega)) (by show 8 * m ≤ c.count - 8; omega)
    refine ⟨h1, h2.trans ?_⟩
    show c.count - 8 - 8 * m = c.count - 8 * (m + 1)
    omega

theorem DownShifted.rounds {right : Nat} (hright : right ≤ 8) (hsafe : a ≤ b ∨ b + n ≤ a)
    (m : Nat) :
    ∀ c, DownShifted op s a b n right c → 8 * m ≤ c.count →
      DownShifted op s a b n right (shiftedBytesDown op right m c) ∧
      (shiftedBytesDown op right m c).count = c.count - 8 * m :=
  shiftedBytesDown_keeps (fun _ h hc => h.round hc hright hsafe) m

theorem DownShifted.rest {right : Nat} (h : DownShifted op s a b n right c)
    (hc8 : c.count < 8) (hright : right ≤ 8) (hsafe : c.count = 0 ∨ a ≤ b ∨ b + n ≤ a) :
    bits (shiftedRestDown op right c) = transfer op.bit s a b 0 n := by
  have hle := h.le
  unfold shiftedRestDown
  by_cases hc : c.count > 0
  · have hdest := h.dest hc
    rw [if_pos hc, BitVec.or_comm]
    apply put_down h.mem hle (by omega)
    · exact (covers_bottom (by omega)).congr (by omega) (by omega)
    · omega
    · omega
    · intro j hj h1 _
      exact h.next hc hright (hsafe.resolve_left (by omega)) hj (by omega)
  · have h0 : (c.count : Int) = 0 := by omega
    rw [if_neg hc, h.mem, h0]

theorem endMask_snd (last count : Nat) :
    (endMask last count).2 ≤ count ∧
      (0 < (endMask last count).2 → count = (endMask last count).2 + last) ∧
      (count ≤ last → (endMask last count).2 = 0) ∧
      count ≤ (endMask last count).2 + last := by
  unfold endMask
  split
  · exact ⟨Nat.zero_le _, fun h => absurd h (Nat.lt_irrefl 0), fun _ => rfl,
      by show count ≤ 0 + last; omega⟩
  · show count - last ≤ count ∧ (0 < count - last → count = count - last + last) ∧
      (count ≤ last → count - last = 0) ∧ count ≤ count - last + last
    exact ⟨by omega, fun _ => by omega, fun _ => by omega, by omega⟩

/-- The last byte of a range, and its bits there. -/
theorem endBits_spec {off count : Nat} (hcount : 0 < count) :
    1 ≤ endBits off count ∧ endBits off count ≤ 8 ∧
      off + count = 8 * ((off + count - 1) / 8) + endBits off count := by
  unfold endBits
  split
  · omega
  · omega

theorem shiftedEnd_mem {mem : Memory} {src dest : Int} {srcEnd destEnd count : Nat}
    (v : BitVec 8) (hs : srcEnd ≤ 8) (hd : destEnd ≤ 8) :
    bits (shiftedEnd op srcEnd destEnd ⟨mem, src, dest, count, v⟩).mem =
        transfer op.bit (bits mem) (8 * src + srcEnd - count) (8 * dest + destEnd - count)
          (endMask destEnd count).2 count := by
  have ⟨hle, hpos, hsmall, hge⟩ := endMask_snd destEnd count
  apply put_down (transfer_empty (Int.le_refl (count : Int))).symm (Int.le_refl _)
    (Int.ofNat_le.2 hle)
  · show Covers _ dest (8 * dest + destEnd - count + (endMask destEnd count).2)
      (8 * dest + destEnd - count + count)
    exact (@endMask_covers dest destEnd count hd).congr (by omega) (by omega)
  · show 8 * dest ≤ 8 * dest + destEnd - count + ((endMask destEnd count).2 : Int)
    omega
  · show 8 * dest + destEnd - count + (count : Int) ≤ 8 * dest + 8
    omega
  · intro j hj _ h2
    have h2' : 8 * dest + (j : Int) < 8 * dest + destEnd - count + count := h2
    show _ = bits mem (8 * src + srcEnd - count + (8 * dest + j - (8 * dest + destEnd - count)))
    by_cases hgt : destEnd > srcEnd
    · rw [if_pos hgt, BitVec.or_comm, shift_right_bit (by omega) hj]
      by_cases hjl : j < destEnd - srcEnd
      · have hp : 8 * src + srcEnd - count + (8 * dest + j - (8 * dest + destEnd - count)) =
            8 * (src - 1) + (j + 8 - (destEnd - srcEnd) : Nat) := by omega
        rw [if_pos hjl, hp, bits_byte mem (src - 1) (by omega)]
      · have hp : 8 * src + srcEnd - count + (8 * dest + j - (8 * dest + destEnd - count)) =
            8 * src + (j - (destEnd - srcEnd) : Nat) := by omega
        rw [if_neg hjl, hp, bits_byte mem src (by omega)]
    · have hp : 8 * src + srcEnd - count + (8 * dest + j - (8 * dest + destEnd - count)) =
          8 * src + (j + (srcEnd - destEnd) : Nat) := by omega
      rw [if_neg hgt, hp, bits_byte mem src (by omega), BitVec.getMsbD_shiftLeft]

theorem shiftedEnd_src {src : Int} {srcEnd destEnd count : Nat} (hs : srcEnd ≤ 8)
    (hd : destEnd ≤ 8) :
    0 < (endMask destEnd count).2 →
        8 * src + srcEnd - count + ((endMask destEnd count).2 : Int) =
          8 * ((if destEnd > srcEnd then src - 1 else src) + 1) - rightShift srcEnd destEnd := by
  have ⟨hle, hpos, hsmall, hge⟩ := endMask_snd destEnd count
  intro hc
  have := hpos hc
  unfold rightShift
  split
  · omega
  · omega

theorem DownShifted.start {mem : Memory} {src dest : Int} {srcEnd destEnd count : Nat}
    (v : BitVec 8) (hs : srcEnd ≤ 8) (hd : destEnd ≤ 8)
    (hsafe : count ≤ destEnd ∨ 8 * src + srcEnd ≤ 8 * dest + destEnd ∨
      8 * dest + destEnd ≤ 8 * src + srcEnd - count) :
    DownShifted op (bits mem) (8 * src + srcEnd - count) (8 * dest + destEnd - count) count
      (rightShift srcEnd destEnd)
      (shiftedEnd op srcEnd destEnd ⟨mem, src, dest, count, v⟩) := by
  have ⟨hle, hpos, hsmall, hge⟩ := endMask_snd destEnd count
  have hmem := @shiftedEnd_mem op mem src dest srcEnd destEnd count v hs hd
  have hsrc := @shiftedEnd_src src srcEnd destEnd count hs hd
  have hone : ∀ x : Int, x - 1 + 1 = x := fun x => by omega
  have htwo : ∀ x : Int, x - 1 + 2 = x + 1 := fun x => by omega
  constructor
  case mem => exact hmem
  case le =>
    show ((endMask destEnd count).2 : Int) ≤ count
    omega
  case dest =>
    intro hc
    have := hpos hc
    show 8 * dest + destEnd - count + ((endMask destEnd count).2 : Int) = 8 * (dest - 1 + 1)
    omega
  case src =>
    intro hc
    show _ = 8 * ((if destEnd > srcEnd then src - 1 else src) - 1 + 2) - _
    rw [htwo]
    exact hsrc hc
  case value =>
    intro hc j hj
    have hp := hsrc hc
    have hc' : 0 < (endMask destEnd count).2 := hc
    show 8 * src + srcEnd - count ≤
        8 * ((if destEnd > srcEnd then src - 1 else src) - 1 + 1) + (j : Int) →
      ((shiftedEnd op srcEnd destEnd ⟨mem, src, dest, count, v⟩).mem
        (if destEnd > srcEnd then src - 1 else src)).getMsbD j =
      bits mem (8 * ((if destEnd > srcEnd then src - 1 else src) - 1 + 1) + j)
    rw [hone]
    intro hja
    exact read_old hmem (by omega) (by omega)

/-- The backward path for two bit offsets. -/
theorem backwardShifted_bits {mem : Memory} {src dest : Int} {srcOff destOff count : Nat}
    (v : BitVec 8) (hcount : 0 < count)
    (hsafe : count ≤ endBits destOff count ∨ 8 * src + srcOff ≤ 8 * dest + destOff ∨
      8 * dest + destOff + count ≤ 8 * src + srcOff) :
    bits (backwardShifted op srcOff destOff ⟨mem, src + ((srcOff + count - 1) / 8 : Nat),
        dest + ((destOff + count - 1) / 8 : Nat), count, v⟩) =
      transfer op.bit (bits mem) (8 * src + srcOff) (8 * dest + destOff) 0 count := by
  have ⟨hs1, hs8, hs⟩ := @endBits_spec srcOff count hcount
  have ⟨hd1, hd8, hd⟩ := @endBits_spec destOff count hcount
  have hright : rightShift (endBits srcOff count) (endBits destOff count) ≤ 8 := by
    unfold rightShift
    split
    · omega
    · omega
  have ⟨_, _, hsmall, _⟩ := endMask_snd (endBits destOff count) count
  have ha : 8 * (src + ((srcOff + count - 1) / 8 : Nat)) + (endBits srcOff count : Int) - count =
      8 * src + srcOff := by omega
  have hb : 8 * (dest + ((destOff + count - 1) / 8 : Nat)) + (endBits destOff count : Int) -
      count = 8 * dest + destOff := by omega
  have h1 := @DownShifted.start op mem (src + ((srcOff + count - 1) / 8 : Nat))
    (dest + ((destOff + count - 1) / 8 : Nat)) (endBits srcOff count) (endBits destOff count)
    count v hs8 hd8 (by omega)
  rw [ha, hb] at h1
  rw [backwardShifted]
  by_cases hbig : count ≤ endBits destOff count
  · have h0 := hsmall hbig
    have h0' : (shiftedEnd op (endBits srcOff count) (endBits destOff count)
        ⟨mem, src + ((srcOff + count - 1) / 8 : Nat), dest + ((destOff + count - 1) / 8 : Nat),
          count, v⟩).count = 0 := h0
    show bits (shiftedRestDown op _ (shiftedBytesDown op _ ((shiftedEnd op (endBits srcOff count)
      (endBits destOff count) ⟨mem, src + ((srcOff + count - 1) / 8 : Nat),
        dest + ((destOff + count - 1) / 8 : Nat), count, v⟩).count / 8) _)) = _
    rw [h0']
    exact h1.rest (by omega) hright (Or.inl h0')
  · have hsafe' := hsafe.resolve_left hbig
    have ⟨h2, h3⟩ := DownShifted.rounds hright hsafe'
      ((shiftedEnd op (endBits srcOff count) (endBits destOff count)
        ⟨mem, src + ((srcOff + count - 1) / 8 : Nat), dest + ((destOff + count - 1) / 8 : Nat),
          count, v⟩).count / 8) _ h1 (by omega)
    exact h2.rest (by omega) hright (Or.inr hsafe')

end Down

/-! ## The calls -/

section Calls

variable {op : RasterOp}

/-- A memory combined with itself, but for `XOR`. -/
theorem put_self (hop : op ≠ .XOR) (mask x : BitVec 8) : op.put mask x x = x := by
  apply BitVec.eq_of_getMsbD_eq
  intro j hj
  rw [put_bit hj]
  cases op
  case XOR => exact absurd rfl hop
  all_goals simp [RasterOp.bit]

theorem all_self (hop : op ≠ .XOR) (x : BitVec 8) : op.all x x = x := by
  rw [← put_full]
  exact put_self hop _ x

theorem transfer_self (hop : op ≠ .XOR) (s : Int → Bool) (a lo hi : Int) :
    transfer op.bit s a a lo hi = s := by
  funext i
  have hi' : a + (i - a) = i := by omega
  rw [transfer, hi']
  split
  · cases op
    case XOR => exact absurd rfl hop
    all_goals simp [RasterOp.bit]
  · rfl

theorem update_self_eq {mem : Memory} {d : Int} {x : BitVec 8} (h : x = mem d) :
    Function.update mem d x = mem := by
  rw [h]
  exact Function.update_eq_self d mem

theorem byteCopy_self (hop : op ≠ .XOR) {n : Nat} (hn : n < 2147483648) (mem : Memory)
    (p : Int) : uglCommonByteCopy mem p p n op = mem := by
  rw [uglCommonByteCopy_spec hn (Or.inr (Or.inl (Int.le_refl p)))]
  funext i
  have hi' : p + (i - p) = i := by omega
  rw [transfer, hi']
  split
  · exact all_self hop _
  · rfl

/-- The backward path for one bit offset does nothing to a range copied to itself. -/
theorem backwardAligned_self (hop : op ≠ .XOR) {mem : Memory} {p : Int} {off count : Nat}
    (v : BitVec 8) (hn : count < 2147483648) :
    backwardAligned op off ⟨mem, p, p, count, v⟩ = mem := by
  have hend : (alignedEnd op off ⟨mem, p, p, count, v⟩).mem = mem :=
    update_self_eq (put_self hop _ _)
  have hle : (alignedEnd op off ⟨mem, p, p, count, v⟩).count ≤ count :=
    (endMask_snd (endBits off count) count).1
  have hbytes : (alignedBytesDown op (alignedEnd op off ⟨mem, p, p, count, v⟩)).mem = mem ∧
      (alignedBytesDown op (alignedEnd op off ⟨mem, p, p, count, v⟩)).src =
        (alignedBytesDown op (alignedEnd op off ⟨mem, p, p, count, v⟩)).dest := by
    unfold alignedBytesDown
    split
    · exact ⟨(byteCopy_self hop (by omega) _ _).trans hend, rfl⟩
    · exact ⟨hend, rfl⟩
  rw [backwardAligned, alignedRest]
  split
  · refine (update_self_eq ?_).trans hbytes.1
    rw [hbytes.2]
    exact put_self hop _ _
  · exact hbytes.1

/-- The backward path for one bit offset, in one byte. -/
theorem backwardAligned_bits {mem : Memory} {src dest : Int} {off count : Nat} (v : BitVec 8)
    (hcount : 0 < count) (hone : off + count ≤ 8) :
    bits (backwardAligned op off ⟨mem, src, dest, count, v⟩) =
      transfer op.bit (bits mem) (8 * src + off) (8 * dest + off) 0 count := by
  have ⟨h1, h8, hend⟩ := @endBits_spec off count hcount
  have hlast : endBits off count = off + count := by omega
  have ⟨_, _, hsmall, _⟩ := endMask_snd (endBits off count) count
  have h0 : (endMask (endBits off count) count).2 = 0 := hsmall (by omega)
  have hskip : backwardAligned op off ⟨mem, src, dest, count, v⟩ =
      (alignedEnd op off ⟨mem, src, dest, count, v⟩).mem := by
    have hc : (alignedEnd op off ⟨mem, src, dest, count, v⟩).count = 0 := h0
    rw [backwardAligned, alignedBytesDown, if_neg (by omega), alignedRest, if_neg (by omega)]
  rw [hskip]
  apply put_up (transfer_empty (Int.le_refl 0)).symm (Int.le_refl 0) (Int.natCast_nonneg count)
  · show Covers _ dest (8 * dest + off + 0) (8 * dest + off + count)
    exact (@endMask_covers dest (endBits off count) count h8).congr (by omega) (by omega)
  · show 8 * dest ≤ 8 * dest + off + 0
    omega
  · show 8 * dest + off + (count : Int) ≤ 8 * dest + 8
    omega
  · intro j hj _ _
    have hp : 8 * src + off + (8 * dest + j - (8 * dest + off)) = 8 * src + j := by omega
    rw [hp, bits_byte mem src hj]

end Calls

/-- The copy of the bits is the one defined bit by bit. -/
def BitsRight (pSrc srcBitOffset pDest destBitOffset nBits : Int) (rasterOp : RasterOp) : Prop :=
  ∀ mem, bits (uglCommonBitCopy mem pSrc srcBitOffset pDest destBitOffset nBits rasterOp) =
    transfer rasterOp.bit (bits mem) (8 * pSrc + srcBitOffset) (8 * pDest + destBitOffset)
      0 nBits

/-- The copy of the bytes is the copy of their bits. -/
def BytesRight (pSrc pDest : Int) (nBytes : Nat) (rasterOp : RasterOp) : Prop :=
  ∀ mem, bits (uglCommonByteCopy mem pSrc pDest nBytes rasterOp) =
    transfer rasterOp.bit (bits mem) (8 * pSrc) (8 * pDest) 0 (8 * nBytes)

/-- When the copy of bits is right: in the first case nothing is to be copied; the forward
path needs a destination that does not start in its source, or a single masked byte, or
whole bytes that are not moved by `memcpy`; the backward path needs a source that does not
start in its destination, or a single masked byte, and with one bit offset for both ranges
it is right in a single byte only. -/
def BitsFit (pSrc srcBitOffset pDest destBitOffset nBits : Int) (rasterOp : RasterOp) : Prop :=
  let a := 8 * pSrc + srcBitOffset
  let b := 8 * pDest + destBitOffset
  let srcOff := (srcBitOffset % 8).toNat
  let destOff := (destBitOffset % 8).toNat
  nBits ≤ 0 ∨
  if isForward pSrc srcOff pDest destOff nBits then
    b ≤ a ∨ a + nBits ≤ b ∨
      if srcOff = destOff then rasterOp ≠ .COPY ∧ destOff = 0 ∧ nBits % 8 = 0
      else nBits ≤ 8 - destOff
  else if srcOff = destOff then destOff + nBits ≤ 8 ∨ (a = b ∧ rasterOp ≠ .XOR)
  else a ≤ b ∨ b + nBits ≤ a ∨ nBits ≤ endBits destOff nBits.toNat

theorem bytesRight_iff {pSrc pDest : Int} {nBytes : Nat} {rasterOp : RasterOp}
    (hn : nBytes < 2147483648) :
    BytesRight pSrc pDest nBytes rasterOp ↔
      rasterOp ≠ .COPY ∨ pDest ≤ pSrc ∨ pSrc + nBytes ≤ pDest := by
  constructor
  · intro h
    by_contra hno
    have hcopy : rasterOp = .COPY := by
      by_contra hc
      exact hno (Or.inl hc)
    subst hcopy
    have hover : pSrc < pDest ∧ pDest < pSrc + nBytes := by
      constructor
      · by_contra hc
        exact hno (Or.inr (Or.inl (by omega)))
      · by_contra hc
        exact hno (Or.inr (Or.inr (by omega)))
    -- a memory with one byte set, at the start of the source
    let mem : Memory := fun i => if i = pSrc then 0xff#8 else 0#8
    have hbit := congrFun (h mem) (8 * (pDest + (pDest - pSrc)) + (0 : Nat))
    rw [bits_byte _ _ (by omega), transfer_inside (by omega) (by omega)] at hbit
    have hsrc : 8 * pSrc + (8 * (pDest + (pDest - pSrc)) + ((0 : Nat) : Int) - 8 * pDest) =
        8 * pDest + (0 : Nat) := by omega
    have hcopied : uglCommonByteCopy mem pSrc pDest nBytes .COPY (pDest + (pDest - pSrc)) =
        mem pSrc := (congrFun (if_pos rfl) _).trans (memcpy_overlap hover.1 hover.2)
    rw [hsrc, hcopied] at hbit
    have hset : mem pSrc = 0xff#8 := if_pos rfl
    have hclear : mem pDest = 0#8 := if_neg (by omega)
    have hread : RasterOp.COPY.bit (bits mem (8 * (pDest + (pDest - pSrc)) + (0 : Nat)))
        (bits mem (8 * pDest + (0 : Nat))) = (mem pDest).getMsbD 0 := bits_byte mem pDest (by omega)
    rw [hread, hset, hclear] at hbit
    cases hbit
  · intro h mem
    rw [uglCommonByteCopy_spec hn h, bits_transfer]

theorem bitsRight_of_fit {pSrc srcBitOffset pDest destBitOffset nBits : Int}
    {rasterOp : RasterOp} (hn : nBits < 2147483648)
    (h : BitsFit pSrc srcBitOffset pDest destBitOffset nBits rasterOp) :
    BitsRight pSrc srcBitOffset pDest destBitOffset nBits rasterOp := by
  intro mem
  unfold uglCommonBitCopy
  by_cases hpos : nBits ≤ 0
  · rw [if_pos hpos]
    exact (transfer_empty hpos).symm
  · have hfit := h.resolve_left hpos
    have hcount : (nBits.toNat : Int) = nBits := by omega
    have ha : 8 * pSrc + srcBitOffset =
        8 * (pSrc + srcBitOffset / 8) + ((srcBitOffset % 8).toNat : Int) := by omega
    have hb : 8 * pDest + destBitOffset =
        8 * (pDest + destBitOffset / 8) + ((destBitOffset % 8).toNat : Int) := by omega
    have hs : (srcBitOffset % 8).toNat < 8 := by omega
    have hd : (destBitOffset % 8).toNat < 8 := by omega
    rw [if_neg hpos]
    dsimp only
    rw [ha, hb] at hfit ⊢
    rw [← hcount] at hfit
    by_cases hf : isForward pSrc (srcBitOffset % 8).toNat pDest (destBitOffset % 8).toNat nBits
    · rw [← hcount] at hf
      rw [if_pos hf] at hfit
      rw [hcount] at hf
      rw [if_pos hf]
      by_cases hoff : (srcBitOffset % 8).toNat = (destBitOffset % 8).toNat
      · rw [if_pos hoff] at hfit ⊢
        rw [hoff] at hfit ⊢
        have hbits := @forwardAligned_bits rasterOp mem (pSrc + srcBitOffset / 8)
          (pDest + destBitOffset / 8) (destBitOffset % 8).toNat nBits.toNat 0 hd (by omega)
          (hfit.imp (fun h => by omega) (Or.imp (fun h => by omega)
            fun h => ⟨h.1, h.2.1, by omega⟩))
        rw [hcount] at hbits
        exact hbits
      · rw [if_neg hoff] at hfit ⊢
        have hbits := @forwardShifted_bits rasterOp mem (pSrc + srcBitOffset / 8)
          (pDest + destBitOffset / 8) (srcBitOffset % 8).toNat (destBitOffset % 8).toNat
          nBits.toNat 0 hs hd (by omega)
        rw [hcount] at hbits
        exact hbits
    · rw [← hcount] at hf
      rw [if_neg hf] at hfit
      rw [hcount] at hf
      rw [if_neg hf]
      by_cases hoff : (srcBitOffset % 8).toNat = (destBitOffset % 8).toNat
      · rw [if_pos hoff] at hfit ⊢
        rw [hoff] at hfit ⊢
        cases hfit with
        | inl hone =>
          have hbits := @backwardAligned_bits rasterOp mem
            (pSrc + srcBitOffset / 8 + (((destBitOffset % 8).toNat + nBits.toNat - 1) / 8 : Nat))
            (pDest + destBitOffset / 8 +
              (((destBitOffset % 8).toNat + nBits.toNat - 1) / 8 : Nat))
            (destBitOffset % 8).toNat nBits.toNat 0 (by omega) (by omega)
          have h0 : ((destBitOffset % 8).toNat + nBits.toNat - 1) / 8 = 0 := by omega
          rw [h0] at hbits ⊢
          have hz : ∀ x : Int, x + ((0 : Nat) : Int) = x := Int.add_zero
          rw [hz, hz, hcount] at hbits
          rw [hz, hz]
          exact hbits
        | inr hsame =>
          have hp : pSrc + srcBitOffset / 8 = pDest + destBitOffset / 8 := by omega
          rw [hp, backwardAligned_self hsame.2 0 (by omega), transfer_self hsame.2]
      · rw [if_neg hoff, Int.toNat_natCast] at hfit
        rw [if_neg hoff]
        have hbits := @backwardShifted_bits rasterOp mem (pSrc + srcBitOffset / 8)
          (pDest + destBitOffset / 8) (srcBitOffset % 8).toNat (destBitOffset % 8).toNat
          nBits.toNat 0 (by omega) (by omega)
        rw [hcount] at hbits
        exact hbits

end Vmx.Ugl
