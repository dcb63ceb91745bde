import Vmx.Ugl.BitCopyRuns

/-!
# When `uglCommonBitCopy` is right

A path that runs over an overlap in the wrong direction reads bits that it has written
before.  `UpLate` and `DownLate` say what such a path leaves: a bit whose source is in the
first byte written gets the new value of it.  The backward path for one bit offset writes
bits below the destination (`backwardAligned_low`).

With these, `BitsFit` is necessary as well: `bit_copy_iff` is the result.
-/

namespace Vmx.Ugl

open Vmx.Lib

/-! ## Contents that tell -/

/-- The memory of a sequence of bits. -/
def ofBits (f : Int → Bool) : Memory := fun d =>
  BitVec.ofBoolListBE [f (8 * d + 0), f (8 * d + 1), f (8 * d + 2), f (8 * d + 3),
    f (8 * d + 4), f (8 * d + 5), f (8 * d + 6), f (8 * d + 7)]

theorem bits_ofBits (f : Int → Bool) : bits (ofBits f) = f := by
  funext i
  obtain ⟨d, j, hj, hi⟩ : ∃ (d : Int) (j : Nat), j < 8 ∧ i = 8 * d + j :=
    ⟨i / 8, (i % 8).toNat, by omega, by omega⟩
  rw [hi, bits_byte _ _ hj, ofBits, BitVec.getMsbD_ofBoolListBE]
  interval_cases j
  all_goals rfl

theorem exists_mem (f : Int → Bool) : ∃ mem, bits mem = f := ⟨ofBits f, bits_ofBits f⟩

/-- Contents for which a bit read late is not the bit as it was. -/
theorem exists_late (op : RasterOp) {i p z : Int} (hi : i ≠ z) (hp : p ≠ z) :
    ∃ s : Int → Bool,
      op.bit (s i) (op.bit (s p) (s z)) ≠ op.bit (s i) (s p) := by
  cases op
  case AND =>
    refine ⟨fun x => decide (x ≠ z), ?_⟩
    simp [RasterOp.bit, hi, hp]
  all_goals
    refine ⟨fun x => decide (x = z), ?_⟩
    simp [RasterOp.bit, hi, hp]

/-! ## Going up into the source -/

section Up

variable {op : RasterOp} {s t : Int → Bool} {a b n q : Int} {left : Nat} {c : Cursor}

/-- Going up from the byte `q`, with the bits `t` below it. -/
structure UpLate (op : RasterOp) (s t : Int → Bool) (a b n q : Int) (left : Nat) (c : Cursor) :
    Prop where
  above : ∀ i, 8 * c.dest ≤ i → bits c.mem i = s i
  below : ∀ i, i < 8 * q → bits c.mem i = t i
  done : ∀ i, 8 * q ≤ i → i < 8 * c.dest → a + (i - b) < 8 * q →
    bits c.mem i = op.bit (s i) (t (a + (i - b)))
  le : q ≤ c.dest
  dest : b + (n - c.count) = 8 * c.dest
  src : a + (n - c.count) = 8 * (c.src - 1) + left
  value : ∀ j : Nat, left ≤ j → j < 8 → 8 * (c.src - 1) + j < 8 * q →
    c.value1.getMsbD j = t (8 * (c.src - 1) + j)

theorem UpLate.next (h : UpLate op s t a b n q left c) (hleft : left < 8) {j : Nat} (hj : j < 8)
    (hq : a + (8 * c.dest + j - b) < 8 * q) :
    ((c.mem c.src >>> (8 - left)) ||| (c.value1 <<< left)).getMsbD j =
      t (a + (8 * c.dest + j - b)) := by
  have hdest := h.dest
  have hsrc := h.src
  rw [shift_left_bit (by omega) hj]
  by_cases hjl : j + left < 8
  · have hp : a + (8 * c.dest + j - b) = 8 * (c.src - 1) + (j + left : Nat) := by omega
    rw [hp] at hq ⊢
    rw [if_pos hjl]
    exact h.value (j + left) (by omega) hjl hq
  · have hp : a + (8 * c.dest + j - b) = 8 * c.src + (j + left - 8 : Nat) := by omega
    rw [hp] at hq ⊢
    rw [if_neg hjl, ← bits_byte c.mem c.src (by omega)]
    exact h.below _ hq

theorem UpLate.round (h : UpLate op s t a b n q left c) (hc : 8 ≤ c.count) (hleft : left < 8) :
    UpLate op s t a b n q left
      { mem := Function.update c.mem c.dest (op.all (c.mem c.dest)
          ((c.mem c.src >>> (8 - left)) ||| (c.value1 <<< left)))
        src := c.src + 1
        dest := c.dest + 1
        count := c.count - 8
        value1 := c.mem c.src } := by
  have hdest := h.dest
  have hsrc := h.src
  have hle := h.le
  have hbits : ∀ i, bits (Function.update c.mem c.dest (op.all (c.mem c.dest)
      ((c.mem c.src >>> (8 - left)) ||| (c.value1 <<< left)))) i =
      if 8 * c.dest ≤ i ∧ i < 8 * c.dest + 8 then
        op.bit (bits c.mem i) (((c.mem c.src >>> (8 - left)) |||
          (c.value1 <<< left)).getMsbD (i - 8 * c.dest).toNat)
      else bits c.mem i := by
    intro i
    rw [← put_full]
    exact bits_put covers_all (Int.le_refl _) (Int.le_refl _) i
  constructor
  case above =>
    intro i
    show 8 * (c.dest + 1) ≤ i → _
    intro hi
    rw [hbits, if_neg (by omega)]
    exact h.above i (by omega)
  case below =>
    intro i hi
    rw [hbits, if_neg (by omega)]
    exact h.below i hi
  case done =>
    intro i hi1
    show i < 8 * (c.dest + 1) → _
    intro hi2 hi3
    rw [hbits]
    by_cases hd : 8 * c.dest ≤ i ∧ i < 8 * c.dest + 8
    · have hj : 8 * c.dest + ((i - 8 * c.dest).toNat : Int) = i := by omega
      have hnext := @UpLate.next op s t a b n q left c h hleft (i - 8 * c.dest).toNat (by omega)
        (by rw [hj]; exact hi3)
      rw [hj] at hnext
      rw [if_pos hd, h.above i hd.1, hnext]
    · rw [if_neg hd]
      exact h.done i hi1 (by omega) hi3
  case le =>
    show q ≤ c.dest + 1
    omega
  case dest =>
    show b + (n - (c.count - 8 : Nat) : Int) = 8 * (c.dest + 1)
    omega
  case src =>
    show a + (n - (c.count - 8 : Nat) : Int) = 8 * (c.src + 1 - 1) + left
    omega
  case value =>
    intro j _ hj
    show 8 * (c.src + 1 - 1) + (j : Int) < 8 * q →
      (c.mem c.src).getMsbD j = t (8 * (c.src + 1 - 1) + j)
    have hs : c.src + 1 - 1 = c.src := by omega
    rw [hs, ← bits_byte c.mem c.src hj]
    exact h.below _

theorem UpLate.rounds (hleft : left < 8) (m : Nat) :
    ∀ c, UpLate op s t a b n q left c → 8 * m ≤ c.count →
      UpLate op s t a b n q left (shiftedBytes op left m c) ∧
      (shiftedBytes op left m c).count = c.count - 8 * m :=
  shiftedBytes_keeps (fun _ h hc => h.round hc hleft) m

theorem UpLate.rest (h : UpLate op s t a b n q left c) (hc8 : c.count < 8) (hleft : left < 8)
    {i : Int} (hi1 : 8 * q ≤ i) (hi2 : i < b + n) (hi3 : a + (i - b) < 8 * q) :
    bits (shiftedRest op left c) i = op.bit (s i) (t (a + (i - b))) := by
  have hdest := h.dest
  unfold shiftedRest
  by_cases hc : c.count > 0
  · rw [if_pos hc, BitVec.or_comm, Cursor.put,
      bits_put (covers_top (by omega)) (Int.le_refl _) (by omega)]
    by_cases hd : 8 * c.dest ≤ i ∧ i < 8 * c.dest + c.count
    · have hj : 8 * c.dest + ((i - 8 * c.dest).toNat : Int) = i := by omega
      have hnext := @UpLate.next op s t a b n q left c h hleft (i - 8 * c.dest).toNat (by omega)
        (by rw [hj]; exact hi3)
      rw [hj] at hnext
      rw [if_pos hd, h.above i hd.1, hnext]
    · rw [if_neg hd]
      exact h.done i hi1 (by omega) hi3
  · rw [if_neg hc]
    exact h.done i hi1 (by omega) hi3

/-- A bit whose source is in the first byte written. -/
theorem forwardShifted_late {mem : Memory} {src dest : Int} {srcOff destOff count : Nat}
    (v : BitVec 8) (hs : srcOff < 8) (hd : destOff < 8) (hbig : 8 - destOff < count) {i : Int}
    (hi1 : 8 * (dest + 1) ≤ i) (hi2 : i < 8 * dest + destOff + count)
    (hi3 : 8 * src + srcOff + (i - (8 * dest + destOff)) < 8 * (dest + 1)) :
    bits (forwardShifted op srcOff destOff ⟨mem, src, dest, count, v⟩) i =
      op.bit (bits mem i) (transfer op.bit (bits mem) (8 * src + srcOff) (8 * dest + destOff) 0
        (8 - destOff) (8 * src + srcOff + (i - (8 * dest + destOff)))) := by
  have ⟨hle, hpos, hsmall, hge⟩ := startMask_snd destOff count hd
  have hleft : leftShift srcOff destOff < 8 := by
    unfold leftShift
    split
    · omega
    · omega
  have hc : 0 < (startMask destOff count).2 := by omega
  have hcount := hpos hc
  have hmem := @shiftedStart_mem op mem src dest srcOff destOff count v hs hd
  have hsrc := @shiftedStart_src src srcOff destOff count hs hd hc
  have hk : (count - (startMask destOff count).2 : Int) = 8 - destOff := by omega
  rw [hk] at hmem hsrc
  have hone : ∀ x : Int, x + 1 - 1 = x := fun x => by omega
  have h1 : UpLate op (bits mem) (transfer op.bit (bits mem) (8 * src + srcOff)
      (8 * dest + destOff) 0 (8 - destOff)) (8 * src + srcOff) (8 * dest + destOff) count
      (dest + 1) (leftShift srcOff destOff)
      (shiftedStart op srcOff destOff ⟨mem, src, dest, count, v⟩) := by
    constructor
    case above =>
      intro i
      show 8 * (dest + 1) ≤ i → _
      intro hi
      rw [hmem, transfer_outside (by omega)]
    case below => exact fun i _ => congrFun hmem i
    case done =>
      intro i hi1
      show i < 8 * (dest + 1) → _
      intro hi2
      omega
    case le => exact Int.le_refl (dest + 1)
    case dest =>
      show 8 * dest + destOff + (count - (startMask destOff count).2 : Int) = 8 * (dest + 1)
      omega
    case src =>
      show 8 * src + srcOff + (count - (startMask destOff count).2 : Int) =
        8 * ((if destOff > srcOff then src else src + 1) + 1 - 1) + leftShift srcOff destOff
      rw [hone, hk]
      exact hsrc
    case value =>
      intro j _ hj _
      show ((shiftedStart op srcOff destOff ⟨mem, src, dest, count, v⟩).mem
          (if destOff > srcOff then src else src + 1)).getMsbD j =
        transfer op.bit (bits mem) (8 * src + srcOff) (8 * dest + destOff) 0 (8 - destOff)
          (8 * ((if destOff > srcOff then src else src + 1) + 1 - 1) + j)
      rw [hone, ← bits_byte _ _ hj, hmem]
  have ⟨h2, h3⟩ := UpLate.rounds hleft
    ((shiftedStart op srcOff destOff ⟨mem, src, dest, count, v⟩).count / 8) _ h1 (by omega)
  exact h2.rest (by omega) hleft hi1 hi2 hi3

/-- The forward path is wrong in more than one byte, when the destination starts in the
source. -/
theorem forwardShifted_wrong {src dest : Int} {srcOff destOff count : Nat}
    (v : BitVec 8) (hs : srcOff < 8) (hd : destOff < 8) (hbig : 8 - destOff < count)
    (h1 : 8 * src + srcOff < 8 * dest + destOff)
    (h2 : 8 * dest + destOff < 8 * src + srcOff + count) :
    ∃ mem, bits (forwardShifted op srcOff destOff ⟨mem, src, dest, count, v⟩) ≠
      transfer op.bit (bits mem) (8 * src + srcOff) (8 * dest + destOff) 0 count := by
  -- the first bit after the first byte whose source is in the destination
  obtain ⟨i, hi⟩ : ∃ i : Int, i = max (8 * (dest + 1))
    (8 * dest + destOff + (8 * dest + destOff - (8 * src + srcOff))) := ⟨_, rfl⟩
  obtain ⟨p, hp⟩ : ∃ p : Int, p = 8 * src + srcOff + (i - (8 * dest + destOff)) := ⟨_, rfl⟩
  have hpz : p ≠ 8 * src + srcOff + (p - (8 * dest + destOff)) := by omega
  have hiz : i ≠ 8 * src + srcOff + (p - (8 * dest + destOff)) := by omega
  have ⟨s, hs'⟩ := exists_late op hiz hpz
  have ⟨mem, hmem⟩ := exists_mem s
  refine ⟨mem, fun heq => hs' ?_⟩
  have hlate := @forwardShifted_late op mem src dest srcOff destOff count v hs hd hbig i
    (by omega) (by omega) (by omega)
  have hi' := @transfer_inside Bool op.bit (bits mem) (8 * src + srcOff) (8 * dest + destOff) 0
    count i (by omega) (by omega)
  have hp' := @transfer_inside Bool op.bit (bits mem) (8 * src + srcOff) (8 * dest + destOff) 0
    (8 - destOff) p (by omega) (by omega)
  rw [heq, hi', ← hp, hp', hmem] at hlate
  exact hlate.symm

end Up

/-! ## Going down into the source -/

section Down

variable {op : RasterOp} {s t : Int → Bool} {a b n q : Int} {right : Nat} {c : Cursor}

/-- Going down from the byte `q`, with the bits `t` from it on. -/
structure DownLate (op : RasterOp) (s t : Int → Bool) (a b q : Int) (right : Nat) (c : Cursor) :
    Prop where
  below : ∀ i, i < 8 * (c.dest + 1) → bits c.mem i = s i
  above : ∀ i, 8 * q ≤ i → bits c.mem i = t i
  done : ∀ i, 8 * (c.dest + 1) ≤ i → i < 8 * q → 8 * q ≤ a + (i - b) →
    bits c.mem i = op.bit (s i) (t (a + (i - b)))
  le : c.dest < q
  dest : b + c.count = 8 * (c.dest + 1)
  src : a + c.count = 8 * (c.src + 2) - right
  value : ∀ j : Nat, j + right < 8 → 8 * q ≤ 8 * (c.src + 1) + j →
    c.value1.getMsbD j = t (8 * (c.src + 1) + j)

theorem DownLate.next (h : DownLate op s t a b q right c) (hright : right ≤ 8) {j : Nat}
    (hj : j < 8) (hq : 8 * q ≤ a + (8 * c.dest + j - b)) :
    ((c.mem c.src <<< (8 - right)) ||| (c.value1 >>> right)).getMsbD j =
      t (a + (8 * c.dest + j - b)) := by
  have hdest := h.dest
  have hsrc := h.src
  rw [shift_right_bit hright hj]
  by_cases hjr : j < right
  · have hp : a + (8 * c.dest + j - b) = 8 * c.src + (j + 8 - right : Nat) := by omega
    rw [hp] at hq ⊢
    rw [if_pos hjr, ← bits_byte c.mem c.src (by omega)]
    exact h.above _ hq
  · have hp : a + (8 * c.dest + j - b) = 8 * (c.src + 1) + (j - right : Nat) := by omega
    rw [hp] at hq ⊢
    rw [if_neg hjr]
    exact h.value (j - right) (by omega) hq

theorem DownLate.round (h : DownLate op s t a b q right c) (hc : 8 ≤ c.count)
    (hright : right ≤ 8) :
    DownLate op s t a b q right
      { mem := Function.update c.mem c.dest (op.all (c.mem c.dest)
          ((c.mem c.src <<< (8 - right)) ||| (c.value1 >>> right)))
        src := c.src - 1
        dest := c.dest - 1
        count := c.count - 8
        value1 := c.mem c.src } := by
  have hdest := h.dest
  have hsrc := h.src
  have hle := h.le
  have hbits : ∀ i, bits (Function.update c.mem c.dest (op.all (c.mem c.dest)
      ((c.mem c.src <<< (8 - right)) ||| (c.value1 >>> right)))) i =
      if 8 * c.dest ≤ i ∧ i < 8 * c.dest + 8 then
        op.bit (bits c.mem i) (((c.mem c.src <<< (8 - right)) |||
          (c.value1 >>> right)).getMsbD (i - 8 * c.dest).toNat)
      else bits c.mem i := by
    intro i
    rw [← put_full]
    exact bits_put covers_all (Int.le_refl _) (Int.le_refl _) i
  constructor
  case below =>
    intro i
    show i < 8 * (c.dest - 1 + 1) → _
    intro hi
    rw [hbits, if_neg (by omega)]
    exact h.below i (by omega)
  case above =>
    intro i hi
    rw [hbits, if_neg (by omega)]
    exact h.above i hi
  case done =>
    intro i
    show 8 * (c.dest - 1 + 1) ≤ i → _
    intro hi1 hi2 hi3
    rw [hbits]
    by_cases hd : 8 * c.dest ≤ i ∧ i < 8 * c.dest + 8
    · have hj : 8 * c.dest + ((i - 8 * c.dest).toNat : Int) = i := by omega
      have hnext := @DownLate.next op s t a b q right c h hright (i - 8 * c.dest).toNat (by omega)
        (by rw [hj]; exact hi3)
      rw [hj] at hnext
      rw [if_pos hd, h.below i (by omega), hnext]
    · rw [if_neg hd]
      exact h.done i (by omega) hi2 hi3
  case le =>
    show c.dest - 1 < q
    omega
  case dest =>
    show b + ((c.count - 8 : Nat) : Int) = 8 * (c.dest - 1 + 1)
    omega
  case src =>
    show a + ((c.count - 8 : Nat) : Int) = 8 * (c.src - 1 + 2) - right
    omega
  case value =>
    intro j hj
    show 8 * q ≤ 8 * (c.src - 1 + 1) + (j : Int) →
      (c.mem c.src).getMsbD j = t (8 * (c.src - 1 + 1) + j)
    have hs : c.src - 1 + 1 = c.src := by omega
    rw [hs, ← bits_byte c.mem c.src (by omega)]
    exact h.above _

theorem DownLate.rounds (hright : right ≤ 8) (m : Nat) :
    ∀ c, DownLate op s t a b q right c → 8 * m ≤ c.count →
      DownLate op s t a b q right (shiftedBytesDown op right m c) ∧
      (shiftedBytesDown op right m c).count = c.count - 8 * m :=
  shiftedBytesDown_keeps (fun _ h hc => h.round hc hright) m

theorem DownLate.rest (h : DownLate op s t a b q right c) (hc8 : c.count < 8)
    (hright : right ≤ 8) {i : Int} (hi1 : b ≤ i) (hi2 : i < 8 * q)
    (hi3 : 8 * q ≤ a + (i - b)) :
    bits (shiftedRestDown op right c) i = op.bit (s i) (t (a + (i - b))) := by
  have hdest := h.dest
  unfold shiftedRestDown
  by_cases hc : c.count > 0
  · rw [if_pos hc, BitVec.or_comm, Cursor.put,
      bits_put (covers_bottom (by omega)) (by omega) (Int.le_refl _)]
    by_cases hd : 8 * c.dest + 8 - c.count ≤ i ∧ i < 8 * c.dest + 8
    · have hj : 8 * c.dest + ((i - 8 * c.dest).toNat : Int) = i := by omega
      have hnext := @DownLate.next op s t a b q right c h hright (i - 8 * c.dest).toNat (by omega)
        (by rw [hj]; exact hi3)
      rw [hj] at hnext
      rw [if_pos hd, h.below i (by omega), hnext]
    · rw [if_neg hd]
      exact h.done i (by omega) hi2 hi3
  · rw [if_neg hc]
    exact h.done i (by omega) hi2 hi3

/-- A bit whose source is in the last byte, which is written first. -/
theorem backwardShifted_late {mem : Memory} {src dest : Int} {srcEnd destEnd count : Nat}
    (v : BitVec 8) (hs : srcEnd ≤ 8) (hd : destEnd ≤ 8) (hbig : destEnd < count) {i : Int}
    (hi1 : 8 * dest + destEnd - count ≤ i) (hi2 : i < 8 * dest)
    (hi3 : 8 * dest ≤ 8 * src + srcEnd - count + (i - (8 * dest + destEnd - count))) :
    bits (shiftedRestDown op (rightShift srcEnd destEnd)
        (shiftedBytesDown op (rightShift srcEnd destEnd)
          ((shiftedEnd op srcEnd destEnd ⟨mem, src, dest, count, v⟩).count / 8)
          (shiftedEnd op srcEnd destEnd ⟨mem, src, dest, count, v⟩))) i =
      op.bit (bits mem i) (transfer op.bit (bits mem) (8 * src + srcEnd - count)
        (8 * dest + destEnd - count) (count - destEnd) count
        (8 * src + srcEnd - count + (i - (8 * dest + destEnd - count)))) := by
  have ⟨hle, hpos, hsmall, hge⟩ := endMask_snd destEnd count
  have hright : rightShift srcEnd destEnd ≤ 8 := by
    unfold rightShift
    split
    · omega
    · omega
  have hc : 0 < (endMask destEnd count).2 := by omega
  have hcount := hpos hc
  have hmem := @shiftedEnd_mem op mem src dest srcEnd destEnd count v hs hd
  have hsrc := @shiftedEnd_src src srcEnd destEnd count hs hd hc
  have hk : ((endMask destEnd count).2 : Int) = count - destEnd := by omega
  rw [hk] at hmem hsrc
  have hone : ∀ x : Int, x - 1 + 1 = x := fun x => by omega
  have htwo : ∀ x : Int, x - 1 + 2 = x + 1 := fun x => by omega
  have h1 : DownLate op (bits mem) (transfer op.bit (bits mem) (8 * src + srcEnd - count)
      (8 * dest + destEnd - count) (count - destEnd) count) (8 * src + srcEnd - count)
      (8 * dest + destEnd - count) dest (rightShift srcEnd destEnd)
      (shiftedEnd op srcEnd destEnd ⟨mem, src, dest, count, v⟩) := by
    constructor
    case below =>
      intro i
      show i < 8 * (dest - 1 + 1) → _
      intro hi
      rw [hmem, transfer_outside (by omega)]
    case above => exact fun i _ => congrFun hmem i
    case done =>
      intro i
      show 8 * (dest - 1 + 1) ≤ i → _
      intro hi1 hi2
      omega
    case le =>
      show dest - 1 < dest
      omega
    case dest =>
      show 8 * dest + destEnd - count + ((endMask destEnd count).2 : Int) = 8 * (dest - 1 + 1)
      omega
    case src =>
      show 8 * src + srcEnd - count + ((endMask destEnd count).2 : Int) =
        8 * ((if destEnd > srcEnd then src - 1 else src) - 1 + 2) - rightShift srcEnd destEnd
      rw [htwo, hk]
      exact hsrc
    case value =>
      intro j hj _
      show ((shiftedEnd op srcEnd destEnd ⟨mem, src, dest, count, v⟩).mem
          (if destEnd > srcEnd then src - 1 else src)).getMsbD j =
        transfer op.bit (bits mem) (8 * src + srcEnd - count) (8 * dest + destEnd - count)
          (count - destEnd) count
          (8 * ((if destEnd > srcEnd then src - 1 else src) - 1 + 1) + j)
      rw [hone, ← bits_byte _ _ (by omega), hmem]
  have ⟨h2, h3⟩ := DownLate.rounds hright
    ((shiftedEnd op srcEnd destEnd ⟨mem, src, dest, count, v⟩).count / 8) _ h1 (by omega)
  exact h2.rest (by omega) hright hi1 hi2 hi3

/-- The backward path is wrong in more than one byte, when the source starts in the
destination. -/
theorem backwardShifted_wrong {src dest : Int} {srcOff destOff count : Nat}
    (v : BitVec 8) (hcount : 0 < count) (hbig : endBits destOff count < count)
    (h1 : 8 * dest + destOff < 8 * src + srcOff)
    (h2 : 8 * src + srcOff < 8 * dest + destOff + count) :
    ∃ mem, bits (backwardShifted op srcOff destOff
        ⟨mem, src + ((srcOff + count - 1) / 8 : Nat), dest + ((destOff + count - 1) / 8 : Nat),
          count, v⟩) ≠
      transfer op.bit (bits mem) (8 * src + srcOff) (8 * dest + destOff) 0 count := by
  have ⟨hs1, hs8, hs⟩ := @endBits_spec srcOff count hcount
  have ⟨hd1, hd8, hd⟩ := @endBits_spec destOff count hcount
  have ha : 8 * (src + ((srcOff + count - 1) / 8 : Nat)) + (endBits srcOff count : Int) - count =
      8 * src + srcOff := by omega
  have hb : 8 * (dest + ((destOff + count - 1) / 8 : Nat)) + (endBits destOff count : Int) -
      count = 8 * dest + destOff := by omega
  -- the last bit before the last byte whose source is in the destination
  obtain ⟨i, hi⟩ : ∃ i : Int, i = min (8 * (dest + ((destOff + count - 1) / 8 : Nat)) - 1)
    (8 * dest + destOff + (count - 1) - (8 * src + srcOff - (8 * dest + destOff))) := ⟨_, rfl⟩
  obtain ⟨p, hp⟩ : ∃ p : Int, p = 8 * src + srcOff + (i - (8 * dest + destOff)) := ⟨_, rfl⟩
  have hpz : p ≠ 8 * src + srcOff + (p - (8 * dest + destOff)) := by omega
  have hiz : i ≠ 8 * src + srcOff + (p - (8 * dest + destOff)) := by omega
  have ⟨s, hs'⟩ := exists_late op hiz hpz
  have ⟨mem, hmem⟩ := exists_mem s
  refine ⟨mem, fun heq => hs' ?_⟩
  have hlate := @backwardShifted_late op mem (src + ((srcOff + count - 1) / 8 : Nat))
    (dest + ((destOff + count - 1) / 8 : Nat)) (endBits srcOff count) (endBits destOff count)
    count v hs8 hd8 hbig i (by omega) (by omega) (by omega)
  rw [ha, hb] at hlate
  have hi' := @transfer_inside Bool op.bit (bits mem) (8 * src + srcOff) (8 * dest + destOff) 0
    count i (by omega) (by omega)
  have hp' := @transfer_inside Bool op.bit (bits mem) (8 * src + srcOff) (8 * dest + destOff)
    (count - endBits destOff count) count p (by omega) (by omega)
  have heq' := congrFun heq i
  rw [hi', ← hp, backwardShifted] at heq'
  rw [← hp, hp', hmem] at hlate
  rw [hmem] at heq'
  exact hlate.symm.trans heq'

end Down

/-! ## One bit offset -/

section Aligned

variable {op : RasterOp} {mem : Memory} {src dest : Int} {off count : Nat}

theorem byteForward_low (n : Nat) {i : Int} (h1 : dest ≤ i) (h2 : i < dest + n)
    (hlow : src + (i - dest) < dest) :
    byteForward op n mem src dest i = op.all (mem i) (mem (src + (i - dest))) := by
  induction n generalizing mem src dest with
  | zero => omega
  | succ n ih =>
    rw [byteForward]
    by_cases hi : i = dest
    · have hs : src + (dest - dest) = src := by omega
      rw [hi, byteForward_below n (by omega), Function.update_self, hs]
    · have hs : src + 1 + (i - (dest + 1)) = src + (i - dest) := by omega
      rw [ih (by omega) (by omega) (by omega), Function.update_of_ne hi, hs,
        Function.update_of_ne (by omega)]

/-- A byte whose source is below the destination is copied right. -/
theorem byteCopy_low {n : Nat} (hn : n < 2147483648) {i : Int} (h1 : dest ≤ i)
    (h2 : i < dest + n) (hlow : src + (i - dest) < dest) :
    uglCommonByteCopy mem src dest n op i = op.all (mem i) (mem (src + (i - dest))) := by
  by_cases hop : op = .COPY
  · rw [uglCommonByteCopy, if_pos hop, memcpy_eq, hop]
    exact byteForward_low n h1 h2 hlow
  · rw [uglCommonByteCopy_spec hn (Or.inl hop), transfer_inside (by omega) h2]

/-- The first byte is copied right. -/
theorem byteCopy_first {n : Nat} (hn : n < 2147483648) (hpos : 0 < n) :
    uglCommonByteCopy mem src dest n op dest = op.all (mem dest) (mem src) := by
  have hs : src + (dest - dest) = src := by omega
  by_cases hop : op = .COPY
  · obtain ⟨m, rfl⟩ : ∃ m, n = m + 1 := ⟨n - 1, by omega⟩
    rw [uglCommonByteCopy, if_pos hop, memcpy_eq, hop, byteForward,
      byteForward_below m (by omega), Function.update_self]
  · rw [uglCommonByteCopy_spec hn (Or.inl hop), transfer_inside (by omega) (by omega), hs]

theorem byteForward_above (n : Nat) {i : Int} (hi : dest + n ≤ i) :
    byteForward op n mem src dest i = mem i := by
  induction n generalizing mem src dest with
  | zero => rfl
  | succ n ih =>
    rw [byteForward, ih (by omega), Function.update_of_ne (by omega)]

theorem byteCopy_outside {n : Nat} (hn : n < 2147483648) {i : Int}
    (hi : i < dest ∨ dest + n ≤ i) : uglCommonByteCopy mem src dest n op i = mem i := by
  by_cases hop : op = .COPY
  · rw [uglCommonByteCopy, if_pos hop, memcpy_eq]
    cases hi with
    | inl hi => exact byteForward_below n hi
    | inr hi => exact byteForward_above n hi
  · rw [uglCommonByteCopy_spec hn (Or.inl hop), transfer_outside (by omega)]

/-- The whole bytes going up, in terms of the bytes of the memory. -/
theorem alignedBytes_mem (c : Cursor) (hn : c.count < 2147483648) :
    (alignedBytes op c).dest = c.dest + (c.count / 8 : Nat) ∧
    (alignedBytes op c).src = c.src + (c.count / 8 : Nat) ∧
    (alignedBytes op c).count = c.count % 8 ∧
    (alignedBytes op c).mem = uglCommonByteCopy c.mem c.src c.dest (c.count / 8) op := by
  unfold alignedBytes
  split
  · exact ⟨rfl, rfl, rfl, rfl⟩
  · have h0 : c.count / 8 = 0 := by omega
    have hmem : uglCommonByteCopy c.mem c.src c.dest 0 op = c.mem := by
      funext i
      exact byteCopy_outside (by omega) (by omega)
    rw [h0, hmem]
    exact ⟨(Int.add_zero _).symm, (Int.add_zero _).symm, by omega, rfl⟩

/-- The bits left over going up. -/
theorem alignedRest_bits (c : Cursor) (hc : c.count < 8) (i : Int) :
    bits (alignedRest op c) i =
      if 8 * c.dest ≤ i ∧ i < 8 * c.dest + c.count then
        op.bit (bits c.mem i) ((c.mem c.src).getMsbD (i - 8 * c.dest).toNat)
      else bits c.mem i := by
  unfold alignedRest
  split
  · rw [Cursor.put, bits_put (covers_top (by omega)) (Int.le_refl _) (by omega)]
  · rw [if_neg (by omega)]

/-- Contents for which a bit below the destination is changed. -/
theorem exists_low (op : RasterOp) {D S d r : Int} (hd : D ≠ d) (hr : r ≠ S)
    (hrD : S = d → r ≠ D) (hself : op = .XOR ∨ S ≠ D) :
    ∃ s : Int → Bool,
      op.bit (s D) (if S = d then op.bit (s d) (s r) else s S) ≠ s D := by
  cases op
  case XOR =>
    refine ⟨fun x => decide (x = S), ?_⟩
    by_cases hS : S = d
    · subst hS
      simp [RasterOp.bit, hr]
    · simp [RasterOp.bit, hS]
  case AND =>
    have hne : S ≠ D := hself.resolve_left (by decide)
    refine ⟨fun x => decide (x = D), ?_⟩
    by_cases hS : S = d
    · simp [RasterOp.bit, hS, hd.symm]
    · simp [RasterOp.bit, hS, hne]
  all_goals
    have hne : S ≠ D := hself.resolve_left (by decide)
    refine ⟨fun x => decide (x ≠ D), ?_⟩
    by_cases hS : S = d
    · have hrD' := hrD hS
      subst hS
      simp [RasterOp.bit, hrD', hne]
    · simp [RasterOp.bit, hS, hne]

theorem alignedEnd_mem (v : BitVec 8) (hcount : 0 < count) :
    bits (alignedEnd op off ⟨mem, src, dest, count, v⟩).mem =
      transfer op.bit (bits mem) (8 * src + endBits off count - count)
        (8 * dest + endBits off count - count) (endMask (endBits off count) count).2 count := by
  have ⟨h1, h8, _⟩ := @endBits_spec off count hcount
  have ⟨hle, _, _, hge⟩ := endMask_snd (endBits off count) count
  apply put_down (transfer_empty (Int.le_refl (count : Int))).symm (Int.le_refl _)
    (Int.ofNat_le.2 hle)
  · show Covers _ dest
      (8 * dest + endBits off count - count + (endMask (endBits off count) count).2)
      (8 * dest + endBits off count - count + count)
    exact (@endMask_covers dest (endBits off count) count h8).congr (by omega) (by omega)
  · show 8 * dest ≤
      8 * dest + endBits off count - count + ((endMask (endBits off count) count).2 : Int)
    omega
  · show 8 * dest + endBits off count - count + (count : Int) ≤ 8 * dest + 8
    omega
  · intro j hj _ _
    have hp : 8 * src + endBits off count - count +
        (8 * dest + (j : Int) - (8 * dest + endBits off count - count)) = 8 * src + j := by omega
    show _ = bits mem (8 * src + endBits off count - count +
      (8 * dest + (j : Int) - (8 * dest + endBits off count - count)))
    rw [hp, bits_byte mem src hj]

/-- The backward path for one bit offset combines a bit below the destination. -/
theorem backwardAligned_low (v : BitVec 8) (hn : count < 2147483648) (hcount : 0 < count)
    (hbig : 8 < off + count) (hoff : off < 8) :
    ∃ k : Int, 0 < k ∧ 8 * (dest - k) < 8 * dest + endBits off count - count ∧ ∀ mem,
      bits (backwardAligned op off ⟨mem, src, dest, count, v⟩) (8 * (dest - k)) =
        op.bit (bits mem (8 * (dest - k)))
          (if 8 * (src - k) = 8 * dest then
            op.bit (bits mem (8 * dest)) (bits mem (8 * src)) else bits mem (8 * (src - k))) := by
  have ⟨h1, h8, hlast⟩ := @endBits_spec off count hcount
  have ⟨hle, hpos, _, hge⟩ := endMask_snd (endBits off count) count
  have hc : 0 < (endMask (endBits off count) count).2 := by omega
  have hcnt := hpos hc
  -- the bits after the end bits
  have hend : ∀ mem q, bits (alignedEnd op off ⟨mem, src, dest, count, v⟩).mem (8 * q) =
      if 8 * q = 8 * dest then op.bit (bits mem (8 * dest)) (bits mem (8 * (src + (q - dest))))
      else bits mem (8 * q) := by
    intro mem q
    have hp : 8 * src + endBits off count - count +
        (8 * q - (8 * dest + endBits off count - count)) = 8 * (src + (q - dest)) := by omega
    rw [alignedEnd_mem v hcount, transfer, hp]
    by_cases hq : 8 * q = 8 * dest
    · rw [if_pos hq, if_pos (by omega), hq]
    · rw [if_neg hq, if_neg (by omega)]
  have hzero : ∀ (m : Memory) (q : Int), bits m (8 * q) = (m q).getMsbD 0 := by
    intro m q
    have h := bits_byte m q (j := 0) (by omega)
    rw [← h]
    exact congrArg (bits m) (Int.add_zero (8 * q)).symm
  have hsrc : ∀ mem k, 0 < k →
      bits (alignedEnd op off ⟨mem, src, dest, count, v⟩).mem (8 * (src - k)) =
        if 8 * (src - k) = 8 * dest then op.bit (bits mem (8 * dest)) (bits mem (8 * src))
        else bits mem (8 * (src - k)) := by
    intro mem k _
    rw [hend]
    by_cases hk : 8 * (src - k) = 8 * dest
    · have hs : src + (src - k - dest) = src := by omega
      rw [if_pos hk, if_pos hk, hs]
    · rw [if_neg hk, if_neg hk]
  have hdest : ∀ mem k, 0 < k →
      bits (alignedEnd op off ⟨mem, src, dest, count, v⟩).mem (8 * (dest - k)) =
        bits mem (8 * (dest - k)) := by
    intro mem k hk
    rw [hend, if_neg (by omega)]
  by_cases hbytes : 8 ≤ (endMask (endBits off count) count).2
  · refine ⟨(endMask (endBits off count) count).2, by omega, by omega, fun mem => ?_⟩
    obtain ⟨k, hk⟩ : ∃ k, k = (endMask (endBits off count) count).2 := ⟨_, rfl⟩
    have hcopy : (alignedBytesDown op (alignedEnd op off ⟨mem, src, dest, count, v⟩)).mem
        (dest - k) = op.all ((alignedEnd op off ⟨mem, src, dest, count, v⟩).mem (dest - k))
          ((alignedEnd op off ⟨mem, src, dest, count, v⟩).mem (src - k)) := by
      have hd : dest - 1 - (k : Int) + 1 = dest - k := by omega
      have hs : src - 1 - (k : Int) + 1 = src - k := by omega
      have hck : (alignedEnd op off ⟨mem, src, dest, count, v⟩).count = k := hk.symm
      unfold alignedBytesDown
      rw [if_pos (by omega), hck]
      show uglCommonByteCopy (alignedEnd op off ⟨mem, src, dest, count, v⟩).mem
        (src - 1 - (k : Int) + 1) (dest - 1 - (k : Int) + 1) (k / 8) op (dest - k) = _
      rw [hd, hs]
      exact byteCopy_first (by omega) (by omega)
    have hrest : bits (backwardAligned op off ⟨mem, src, dest, count, v⟩) (8 * (dest - k)) =
        bits (alignedBytesDown op (alignedEnd op off ⟨mem, src, dest, count, v⟩)).mem
          (8 * (dest - k)) := by
      have hck : (alignedEnd op off ⟨mem, src, dest, count, v⟩).count = k := hk.symm
      rw [backwardAligned, alignedRest]
      split
      · have hd : (alignedBytesDown op (alignedEnd op off ⟨mem, src, dest, count, v⟩)).dest =
            dest - 1 - (k / 8 : Nat) := by
          unfold alignedBytesDown
          rw [if_pos (by omega), hck]
          rfl
        rw [Cursor.put, hd, hzero, hzero, Function.update_of_ne (by omega)]
      · rfl
    rw [← hk]
    rw [hrest, hzero, hcopy, all_bit, ← hzero, ← hzero, hdest mem k (by omega),
      hsrc mem k (by omega)]
  · refine ⟨1, by omega, by omega, fun mem => ?_⟩
    have hskip : alignedBytesDown op (alignedEnd op off ⟨mem, src, dest, count, v⟩) =
        alignedEnd op off ⟨mem, src, dest, count, v⟩ := if_neg hbytes
    have hposc : (alignedEnd op off ⟨mem, src, dest, count, v⟩).count > 0 := hc
    rw [backwardAligned, hskip, alignedRest, if_pos hposc, Cursor.put,
      bits_put (covers_top (by show (endMask (endBits off count) count).2 ≤ 8; omega))
        (Int.le_refl _) (by
          show 8 * (dest - 1) + ((endMask (endBits off count) count).2 : Int) ≤ 8 * (dest - 1) + 8
          omega)]
    have hin : 8 * (alignedEnd op off ⟨mem, src, dest, count, v⟩).dest ≤ 8 * (dest - 1) ∧
        8 * (dest - 1) < 8 * (alignedEnd op off ⟨mem, src, dest, count, v⟩).dest +
          (alignedEnd op off ⟨mem, src, dest, count, v⟩).count := by
      show 8 * (dest - 1) ≤ 8 * (dest - 1) ∧
        8 * (dest - 1) < 8 * (dest - 1) + ((endMask (endBits off count) count).2 : Int)
      omega
    have hj : (8 * (dest - 1) -
        8 * (alignedEnd op off ⟨mem, src, dest, count, v⟩).dest).toNat = 0 := by
      show (8 * (dest - 1) - 8 * (dest - 1)).toNat = 0
      omega
    rw [if_pos hin, hj, hdest mem 1 (by omega), ← hsrc mem 1 (by omega), hzero, hzero]
    rfl

theorem backwardAligned_wrong (v : BitVec 8) (hn : count < 2147483648) (hcount : 0 < count)
    (hbig : 8 < off + count) (hoff : off < 8) (hself : op = .XOR ∨ src ≠ dest) :
    ∃ mem, bits (backwardAligned op off ⟨mem, src + ((off + count - 1) / 8 : Nat),
        dest + ((off + count - 1) / 8 : Nat), count, v⟩) ≠
      transfer op.bit (bits mem) (8 * src + off) (8 * dest + off) 0 count := by
  have ⟨h1, h8, hlast⟩ := @endBits_spec off count hcount
  have ⟨k, hk, hlow, hbits⟩ := @backwardAligned_low op (src + ((off + count - 1) / 8 : Nat))
    (dest + ((off + count - 1) / 8 : Nat)) off count v hn hcount hbig hoff
  have ⟨s, hs⟩ := @exists_low op (8 * (dest + ((off + count - 1) / 8 : Nat) - k))
    (8 * (src + ((off + count - 1) / 8 : Nat) - k)) (8 * (dest + ((off + count - 1) / 8 : Nat)))
    (8 * (src + ((off + count - 1) / 8 : Nat))) (by omega) (by omega)
    (by omega) (hself.imp_right fun h => by omega)
  have ⟨mem, hmem⟩ := exists_mem s
  refine ⟨mem, fun heq => hs ?_⟩
  have hbit := hbits mem
  rw [heq, transfer_outside (by omega), hmem] at hbit
  exact hbit.symm

/-- Going up with one bit offset into the source, from a whole byte: some bit is read late. -/
theorem forwardBytes_late (v : BitVec 8) (hn : count < 2147483648) (h1 : src < dest)
    (h2 : 8 * dest < 8 * src + count) (hbad : op = .COPY ∨ count % 8 ≠ 0) :
    ∃ i : Int, 8 * dest ≤ i - 8 * (dest - src) ∧ i < 8 * dest + count ∧ ∀ mem,
      bits (forwardAligned op 0 ⟨mem, src, dest, count, v⟩) i =
        op.bit (bits mem i) (op.bit (bits mem (i - 8 * (dest - src)))
          (bits mem (i - 8 * (dest - src) - 8 * (dest - src)))) := by
  have hzero : ∀ (m : Memory) (q : Int), bits m (8 * q) = (m q).getMsbD 0 := by
    intro m q
    rw [← bits_byte m q (by omega : 0 < 8)]
    exact congrArg (bits m) (Int.add_zero (8 * q)).symm
  have hdef : ∀ mem, forwardAligned op 0 ⟨mem, src, dest, count, v⟩ =
      alignedRest op (alignedBytes op ⟨mem, src, dest, count, v⟩) := fun _ => rfl
  have hbytes := fun mem => @alignedBytes_mem op ⟨mem, src, dest, count, v⟩ hn
  by_cases hcopy : op = .COPY ∧ dest - src < (count / 8 : Nat)
  · refine ⟨8 * (dest + (dest - src)), by omega, by omega, fun mem => ?_⟩
    have ⟨hd, hs, hc, hm⟩ := hbytes mem
    dsimp only at hd hs hc hm
    have hz : 8 * (dest + (dest - src)) - 8 * (dest - src) - 8 * (dest - src) = 8 * src := by
      omega
    rw [hdef, alignedRest_bits _ (by omega), if_neg (by omega), hm, hzero, hz, hcopy.1,
      uglCommonByteCopy, if_pos rfl, memcpy_overlap h1 (by omega)]
    exact (hzero mem src).symm
  · have hrest : count % 8 ≠ 0 := by
      cases hbad with
      | inl hop =>
        have hno : ¬dest - src < (count / 8 : Nat) := fun h => hcopy ⟨hop, h⟩
        omega
      | inr h => exact h
    have hright : op ≠ .COPY ∨ dest ≤ src ∨ src + (count / 8 : Nat) ≤ dest := by
      by_cases hop : op = .COPY
      · have hno : ¬dest - src < (count / 8 : Nat) := fun h => hcopy ⟨hop, h⟩
        exact Or.inr (Or.inr (by omega))
      · exact Or.inl hop
    refine ⟨8 * (dest + (count / 8 : Nat)), by omega, by omega, fun mem => ?_⟩
    have ⟨hd, hs, hc, hm⟩ := hbytes mem
    dsimp only at hd hs hc hm
    have hj : (8 * (dest + ((count / 8 : Nat) : Int)) -
        8 * (dest + ((count / 8 : Nat) : Int))).toNat = 0 := by omega
    have hp : 8 * (dest + ((count / 8 : Nat) : Int)) - 8 * (dest - src) =
        8 * (src + (count / 8 : Nat)) := by omega
    have hz : 8 * (src + ((count / 8 : Nat) : Int)) - 8 * (dest - src) =
        8 * (src + (src + (count / 8 : Nat) - dest)) := by omega
    rw [hdef, alignedRest_bits _ (by omega), hd, hs, hm, hj, if_pos (by omega),
      uglCommonByteCopy_spec (by omega) hright, hp, hz, hzero, hzero, hzero, hzero,
      transfer_outside (by omega), transfer_inside (by omega) (by omega), all_bit]

/-- Going up with one bit offset into the source, from the middle of a byte: the bit that is
copied from the first bit written is read late. -/
theorem forwardMiddle_late (v : BitVec 8) (hn : count < 2147483648) (h1 : src < dest)
    (h2 : 8 * dest < 8 * src + count) (hoff : off < 8) (hpos : 0 < off) :
    ∃ i : Int, 8 * dest + off ≤ i - 8 * (dest - src) ∧ i < 8 * dest + off + count ∧ ∀ mem,
      bits (forwardAligned op off ⟨mem, src, dest, count, v⟩) i =
        op.bit (bits mem i) (op.bit (bits mem (i - 8 * (dest - src)))
          (bits mem (i - 8 * (dest - src) - 8 * (dest - src)))) := by
  refine ⟨8 * (dest + (dest - src)) + off, by omega, by omega, fun mem => ?_⟩
  have ⟨hle, hcpos, _, hge⟩ := startMask_snd off count hoff
  have hcount := hcpos (by omega)
  obtain ⟨left, hleft⟩ : ∃ left, left = (startMask off count).2 := ⟨_, rfl⟩
  rw [← hleft] at hle hcpos hge hcount
  have hstart : (alignedStart op off ⟨mem, src, dest, count, v⟩).src = src + 1 ∧
      (alignedStart op off ⟨mem, src, dest, count, v⟩).dest = dest + 1 ∧
      (alignedStart op off ⟨mem, src, dest, count, v⟩).count = left := by
    unfold alignedStart
    rw [if_pos hpos, hleft]
    exact ⟨rfl, rfl, rfl⟩
  obtain ⟨c, hc⟩ : ∃ c, c = alignedStart op off ⟨mem, src, dest, count, v⟩ := ⟨_, rfl⟩
  have hmem := (@UpAligned.start op mem src dest off count v hoff).mem
  rw [← hc] at hstart hmem
  have ⟨hs, hd, hcnt⟩ := hstart
  have ⟨hd', hs', hcnt', hm'⟩ := @alignedBytes_mem op c (by omega)
  have hkeep : bits c.mem (8 * (dest + (dest - src)) + off) =
      bits mem (8 * (dest + (dest - src)) + off) := by
    rw [hmem, transfer_outside (by omega)]
  have hz : 8 * (dest + (dest - src)) + off - 8 * (dest - src) - 8 * (dest - src) =
      8 * src + off := by omega
  have hp : 8 * (dest + (dest - src)) + off - 8 * (dest - src) = 8 * dest + off := by omega
  have hfirst : (c.mem dest).getMsbD off =
      op.bit (bits mem (8 * dest + off)) (bits mem (8 * src + off)) := by
    have ha : 8 * src + (off : Int) + (8 * dest + off - (8 * dest + off)) = 8 * src + off := by
      omega
    rw [← bits_byte c.mem dest hoff, hmem, transfer_inside (by omega) (by omega), ha]
  rw [forwardAligned, ← hc, alignedRest_bits _ (by omega), hd', hs', hcnt', hm', hd, hs, hcnt, hz,
    hp]
  by_cases hin : dest + (dest - src) < dest + 1 + (left / 8 : Nat)
  · have hq : src + 1 + (dest + (dest - src) - (dest + 1)) = dest := by omega
    rw [if_neg (by omega), bits_byte _ _ hoff, byteCopy_low (by omega) (by omega) hin (by omega),
      all_bit, hq, hfirst, ← bits_byte c.mem _ hoff, hkeep]
  · have hlast : dest - src = 1 + (left / 8 : Nat) := by omega
    have hj : (8 * (dest + (dest - src)) + (off : Int) -
        8 * (dest + 1 + ((left / 8 : Nat) : Int))).toNat = off := by omega
    have hq : src + 1 + ((left / 8 : Nat) : Int) = dest := by omega
    rw [if_pos (by omega), hj, hq, byteCopy_outside (by omega) (Or.inl (by omega)), hfirst,
      bits_byte _ _ hoff, byteCopy_outside (by omega) (Or.inr (by omega)),
      ← bits_byte c.mem _ hoff, hkeep]

theorem forwardAligned_wrong (v : BitVec 8) (hn : count < 2147483648) (h1 : src < dest)
    (h2 : 8 * dest < 8 * src + count) (hoff : off < 8)
    (hbad : op = .COPY ∨ off ≠ 0 ∨ count % 8 ≠ 0) :
    ∃ mem, bits (forwardAligned op off ⟨mem, src, dest, count, v⟩) ≠
      transfer op.bit (bits mem) (8 * src + off) (8 * dest + off) 0 count := by
  have hlate : ∃ i : Int, 8 * dest + off ≤ i - 8 * (dest - src) ∧ i < 8 * dest + off + count ∧
      ∀ mem, bits (forwardAligned op off ⟨mem, src, dest, count, v⟩) i =
        op.bit (bits mem i) (op.bit (bits mem (i - 8 * (dest - src)))
          (bits mem (i - 8 * (dest - src) - 8 * (dest - src)))) := by
    by_cases hpos : 0 < off
    · exact forwardMiddle_late v hn h1 h2 hoff hpos
    · have h0 : off = 0 := by omega
      subst h0
      have ⟨i, hi1, hi2, hi3⟩ := @forwardBytes_late op src dest count v hn h1 h2
        (hbad.imp_right fun h => h.resolve_left fun hne => hne rfl)
      exact ⟨i, by omega, by omega, hi3⟩
  have ⟨i, hi1, hi2, hi3⟩ := hlate
  have ⟨s, hs⟩ := @exists_late op i (i - 8 * (dest - src))
    (i - 8 * (dest - src) - 8 * (dest - src)) (by omega) (by omega)
  have ⟨mem, hmem⟩ := exists_mem s
  refine ⟨mem, fun heq => hs ?_⟩
  have hbit := hi3 mem
  have hp : 8 * src + (off : Int) + (i - (8 * dest + off)) = i - 8 * (dest - src) := by omega
  rw [heq, transfer_inside (by omega) (by omega), hp, hmem] at hbit
  exact hbit.symm

end Aligned

/-! ## The condition is exact -/

theorem bitsFit_of_right {pSrc srcBitOffset pDest destBitOffset nBits : Int}
    {rasterOp : RasterOp} (hn : nBits < 2147483648)
    (h : BitsRight pSrc srcBitOffset pDest destBitOffset nBits rasterOp) :
    BitsFit pSrc srcBitOffset pDest destBitOffset nBits rasterOp := by
  by_cases hpos : nBits ≤ 0
  · exact Or.inl hpos
  · obtain ⟨n, hcount⟩ : ∃ n : Nat, (n : Int) = nBits := ⟨nBits.toNat, by omega⟩
    subst hcount
    have ha : 8 * pSrc + srcBitOffset =
        8 * (pSrc + srcBitOffset / 8) + ((srcBitOffset % 8).toNat : Int) := by omega
    have hb : 8 * pDest + destBitOffset =
        8 * (pDest + destBitOffset / 8) + ((destBitOffset % 8).toNat : Int) := by omega
    have hs : (srcBitOffset % 8).toNat < 8 := by omega
    have hd : (destBitOffset % 8).toNat < 8 := by omega
    unfold BitsRight uglCommonBitCopy at h
    simp only [if_neg hpos, Int.toNat_natCast] at h
    right
    rw [ha, hb, Int.toNat_natCast]
    rw [ha, hb] at h
    by_cases hf : isForward pSrc (srcBitOffset % 8).toNat pDest (destBitOffset % 8).toNat n
    · simp only [if_pos hf] at h
      rw [if_pos hf]
      by_contra hno
      by_cases hoff : (srcBitOffset % 8).toNat = (destBitOffset % 8).toNat
      · simp only [hoff, if_true] at h
        rw [if_pos hoff, hoff] at hno
        have hbad : rasterOp = .COPY ∨ (destBitOffset % 8).toNat ≠ 0 ∨ n % 8 ≠ 0 := by
          by_contra hgood
          refine hno (Or.inr (Or.inr ⟨fun hc => hgood (Or.inl hc), ?_, ?_⟩))
          · by_contra h0
            exact hgood (Or.inr (Or.inl h0))
          · by_contra h0
            exact hgood (Or.inr (Or.inr (by omega)))
        have h1 : pSrc + srcBitOffset / 8 < pDest + destBitOffset / 8 := by
          by_contra hle
          exact hno (Or.inl (by omega))
        have h2 : 8 * (pDest + destBitOffset / 8) < 8 * (pSrc + srcBitOffset / 8) + n := by
          by_contra hle
          exact hno (Or.inr (Or.inl (by omega)))
        have ⟨mem, hmem⟩ := @forwardAligned_wrong rasterOp _ _ _ n 0 (by omega) h1 h2 hd hbad
        exact hmem (h mem)
      · simp only [if_neg hoff] at h
        rw [if_neg hoff] at hno
        have ⟨mem, hmem⟩ := @forwardShifted_wrong rasterOp (pSrc + srcBitOffset / 8)
          (pDest + destBitOffset / 8) (srcBitOffset % 8).toNat (destBitOffset % 8).toNat n 0 hs hd
          (by omega) (by omega) (by omega)
        exact hmem (h mem)
    · simp only [if_neg hf] at h
      rw [if_neg hf]
      by_contra hno
      by_cases hoff : (srcBitOffset % 8).toNat = (destBitOffset % 8).toNat
      · simp only [hoff, if_true] at h
        rw [if_pos hoff, hoff] at hno
        have hself : rasterOp = .XOR ∨ pSrc + srcBitOffset / 8 ≠ pDest + destBitOffset / 8 := by
          by_contra hgood
          refine hno (Or.inr ⟨?_, fun hx => hgood (Or.inl hx)⟩)
          by_contra hne
          exact hgood (Or.inr (by omega))
        have hbig : 8 < (destBitOffset % 8).toNat + n := by
          by_contra hle
          exact hno (Or.inl (by omega))
        have ⟨mem, hmem⟩ := @backwardAligned_wrong rasterOp _ _ (destBitOffset % 8).toNat n 0
          (by omega) (by omega) hbig hd hself
        exact hmem (h mem)
      · simp only [if_neg hoff] at h
        rw [if_neg hoff] at hno
        have ⟨mem, hmem⟩ := @backwardShifted_wrong rasterOp (pSrc + srcBitOffset / 8)
          (pDest + destBitOffset / 8) (srcBitOffset % 8).toNat (destBitOffset % 8).toNat n 0
          (by omega) (by omega) (by omega) (by omega)
        exact hmem (h mem)

theorem bitsRight_iff {pSrc srcBitOffset pDest destBitOffset nBits : Int}
    {rasterOp : RasterOp} (hn : nBits < 2147483648) :
    BitsRight pSrc srcBitOffset pDest destBitOffset nBits rasterOp ↔
      BitsFit pSrc srcBitOffset pDest destBitOffset nBits rasterOp :=
  ⟨bitsFit_of_right hn, bitsRight_of_fit hn⟩

/-- Exactly when `uglCommonBitCopy` is the copy bit by bit, and `uglCommonByteCopy` the same
copy on whole bytes. -/
theorem bit_copy_iff (pSrc srcBitOffset pDest destBitOffset nBits : Int) (rasterOp : RasterOp)
    (hn : nBits < 2147483648) (pSrc' pDest' : Int) (nBytes : Nat) (hb : nBytes < 2147483648) :
    (BitsRight pSrc srcBitOffset pDest destBitOffset nBits rasterOp ↔
      BitsFit pSrc srcBitOffset pDest destBitOffset nBits rasterOp) ∧
    (BytesRight pSrc' pDest' nBytes rasterOp ↔
      rasterOp ≠ .COPY ∨ pDest' ≤ pSrc' ∨ pSrc' + nBytes ≤ pDest') :=
  ⟨bitsRight_iff hn, bytesRight_iff hb⟩

theorem bit_copy_iff_up :
    (BitsRight 0 3 0 8 21 .XOR ↔ BitsFit 0 3 0 8 21 .XOR) ∧
    (BytesRight 8 0 21 .XOR ↔
      RasterOp.XOR ≠ .COPY ∨ (0 : Int) ≤ 8 ∨ 8 + ((21 : Nat) : Int) ≤ 0) :=
  bit_copy_iff 0 3 0 8 21 .XOR (by decide) 8 0 21 (by decide)

/-- Two bytes copied one byte up in one buffer. -/
theorem bit_copy_overlap :
    ¬∀ (pSrc srcBitOffset pDest destBitOffset nBits : Int) (rasterOp : RasterOp),
      nBits < 2147483648 →
      BitsRight pSrc srcBitOffset pDest destBitOffset nBits rasterOp := by
  intro h
  have hfit := (bitsRight_iff (by decide)).1 (h 0 0 0 8 16 .COPY (by decide))
  simp [BitsFit, isForward] at hfit

end Vmx.Ugl
