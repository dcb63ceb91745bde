import Mathlib.Tactic.IntervalCases
import Vmx.Lib.Transfer
import Vmx.Ugl.BitCopy

/-!
# The bits that a piece of a copy writes

The bits of the memory are numbered through.  A mask `Covers` a stretch of the bits of one
byte, and a masked write (`put_up`, `put_down`) extends a transfer of bits at one of its ends.
`uglCommonByteCopy_spec` is the copy of whole bytes, and `memcpy_overlap` what `memcpy` does
when it runs into its own output.
-/

namespace Vmx.Ugl

open Vmx.Lib

/-! ## The bits of a memory -/

/-- The bit `i`, counted from the most significant bit of byte 0. -/
def bits (mem : Memory) (i : Int) : Bool := (mem (i / 8)).getMsbD (i % 8).toNat

section Bits

variable {mem : Memory} {op : RasterOp} {mask value dest : BitVec 8} {d u v : Int}

theorem bits_byte (mem : Memory) (d : Int) {j : Nat} (hj : j < 8) :
    bits mem (8 * d + j) = (mem d).getMsbD j := by
  have h1 : (8 * d + j) / 8 = d := by omega
  have h2 : ((8 * d + j) % 8).toNat = j := by omega
  rw [bits, h1, h2]

theorem put_bit {j : Nat} (hj : j < 8) :
    (op.put mask dest value).getMsbD j =
      if mask.getMsbD j then op.bit (dest.getMsbD j) (value.getMsbD j)
      else dest.getMsbD j := by
  cases op
  all_goals
    simp only [RasterOp.put, RasterOp.bit, BitVec.getMsbD_and, BitVec.getMsbD_or,
      BitVec.getMsbD_xor, BitVec.getMsbD_not, hj, decide_true, Bool.true_and]
    cases mask.getMsbD j
    all_goals simp

theorem all_bit {j : Nat} :
    (op.all dest value).getMsbD j = op.bit (dest.getMsbD j) (value.getMsbD j) := by
  cases op
  case COPY => rfl
  case AND => exact BitVec.getMsbD_and
  case OR => exact BitVec.getMsbD_or
  case XOR => exact BitVec.getMsbD_xor

/-- The mask has the bits from `u` to `v` of the byte `d`. -/
def Covers (mask : BitVec 8) (d u v : Int) : Prop :=
  ∀ j : Nat, j < 8 → (mask.getMsbD j = true ↔ u ≤ 8 * d + j ∧ 8 * d + j < v)

theorem bits_put (hmask : Covers mask d u v) (hu : 8 * d ≤ u) (hv : v ≤ 8 * d + 8) (i : Int) :
    bits (Function.update mem d (op.put mask (mem d) value)) i =
      if u ≤ i ∧ i < v then op.bit (bits mem i) (value.getMsbD (i - 8 * d).toNat)
      else bits mem i := by
  by_cases hd : i / 8 = d
  · have hj : (i % 8).toNat < 8 := by omega
    have hoff : (i - 8 * d).toNat = (i % 8).toNat := by omega
    have hbit := hmask (i % 8).toNat hj
    have hi : 8 * d + ((i % 8).toNat : Int) = i := by omega
    rw [hi] at hbit
    rw [bits, hd, Function.update_self, put_bit hj, hoff]
    have hold : bits mem i = (mem d).getMsbD (i % 8).toNat := by
      rw [bits, hd]
    by_cases h : u ≤ i ∧ i < v
    · rw [if_pos (hbit.2 h), if_pos h, hold]
    · rw [if_neg (fun hb => h (hbit.1 hb)), if_neg h, hold]
  · rw [bits, Function.update_of_ne hd, if_neg (by omega)]
    rfl

theorem full_bit {j : Nat} (hj : j < 8) : (0xff#8).getMsbD j = true := by
  interval_cases j
  all_goals rfl

theorem full_bit_of_le {j : Nat} (hj : 8 ≤ j) : (0xff#8).getMsbD j = false :=
  BitVec.getMsbD_of_ge _ _ hj

theorem top_bit {n j : Nat} (hn : n ≤ 8) :
    (0xff#8 <<< (8 - n)).getMsbD j = true ↔ j < n := by
  rw [BitVec.getMsbD_shiftLeft]
  by_cases h : j < n
  · rw [full_bit (by omega)]
    exact iff_of_true rfl h
  · rw [full_bit_of_le (by omega)]
    exact iff_of_false Bool.false_ne_true h

theorem bottom_bit {n j : Nat} (hj : j < 8) : (0xff#8 >>> n).getMsbD j = true ↔ n ≤ j := by
  rw [BitVec.getMsbD_ushiftRight]
  by_cases h : j < n
  · simp [hj, h]
  · rw [full_bit (by omega)]
    simp [hj, h]
    omega

theorem covers_all : Covers 0xff#8 d (8 * d) (8 * d + 8) := by
  intro j hj
  exact iff_of_true (full_bit hj) (by omega)

theorem covers_top {n : Nat} (hn : n ≤ 8) : Covers (0xff#8 <<< (8 - n)) d (8 * d) (8 * d + n) := by
  intro j _
  rw [top_bit hn]
  omega

theorem covers_bottom {n : Nat} (hn : n ≤ 8) :
    Covers (0xff#8 >>> (8 - n)) d (8 * d + 8 - n) (8 * d + 8) := by
  intro j hj
  rw [bottom_bit hj]
  omega

theorem covers_and {mask' : BitVec 8} {u' v' : Int} (h : Covers mask d u v)
    (h' : Covers mask' d u' v') : Covers (mask &&& mask') d (max u u') (min v v') := by
  intro j hj
  rw [BitVec.getMsbD_and, Bool.and_eq_true, h j hj, h' j hj]
  omega

theorem Covers.congr {u' v' : Int} (h : Covers mask d u v) (hu : u = u') (hv : v = v') :
    Covers mask d u' v' := by
  subst hu hv
  exact h

theorem startMask_covers {off count : Nat} (hoff : off < 8) :
    Covers (startMask off count).1 d (8 * d + off)
      (8 * d + off + (count - (startMask off count).2 : Int)) := by
  have hbottom : Covers (0xff#8 >>> off) d (8 * d + off) (8 * d + 8) := by
    have h := @covers_bottom d (8 - off) (by omega)
    have h8 : 8 - (8 - off) = off := by omega
    rw [h8] at h
    exact h.congr (by omega) rfl
  rw [startMask]
  by_cases h : count + off < 8
  · have htop : Covers (0xff#8 <<< (8 - off - count)) d (8 * d) (8 * d + (off + count : Nat)) := by
      have h' := @covers_top d (off + count) (by omega)
      have h8 : 8 - (off + count) = 8 - off - count := by omega
      rw [h8] at h'
      exact h'
    rw [if_pos h]
    exact (covers_and hbottom htop).congr (by omega) (by simp only; omega)
  · rw [if_neg h]
    exact hbottom.congr rfl (by simp only; omega)

theorem endMask_covers {last count : Nat} (hlast : last ≤ 8) :
    Covers (endMask last count).1 d (8 * d + last - (count - (endMask last count).2 : Int))
      (8 * d + last) := by
  have htop : Covers (0xff#8 <<< (8 - last)) d (8 * d) (8 * d + last) := covers_top hlast
  rw [endMask]
  by_cases h : last > count
  · have hbottom : Covers (0xff#8 >>> (last - count)) d (8 * d + last - count) (8 * d + 8) := by
      have h' := @covers_bottom d (8 - (last - count)) (by omega)
      have h8 : 8 - (8 - (last - count)) = last - count := by omega
      rw [h8] at h'
      exact h'.congr (by omega) rfl
    rw [if_pos h]
    exact (covers_and htop hbottom).congr (by simp only; omega) (by omega)
  · rw [if_neg h]
    exact htop.congr (by simp only; omega) rfl

/-- The bits of two bytes after a shift to the left. -/
theorem shift_left_bit {r j : Nat} (hr : r ≤ 8) (hj : j < 8) (x y : BitVec 8) :
    ((y >>> (8 - r)) ||| (x <<< r)).getMsbD j =
      if j + r < 8 then x.getMsbD (j + r) else y.getMsbD (j + r - 8) := by
  rw [BitVec.getMsbD_or, BitVec.getMsbD_ushiftRight, BitVec.getMsbD_shiftLeft]
  by_cases h : j + r < 8
  · have h1 : j < 8 - r := by omega
    simp [h, h1]
  · have h1 : ¬j < 8 - r := by omega
    have h2 : j - (8 - r) = j + r - 8 := by omega
    rw [BitVec.getMsbD_of_ge x (j + r) (by omega), h2]
    simp [h, h1, hj]

/-- The bits of two bytes after a shift to the right. -/
theorem shift_right_bit {r j : Nat} (hr : r ≤ 8) (hj : j < 8) (x y : BitVec 8) :
    ((x <<< (8 - r)) ||| (y >>> r)).getMsbD j =
      if j < r then x.getMsbD (j + 8 - r) else y.getMsbD (j - r) := by
  rw [BitVec.getMsbD_or, BitVec.getMsbD_ushiftRight, BitVec.getMsbD_shiftLeft]
  by_cases h : j < r
  · have h2 : j + (8 - r) = j + 8 - r := by omega
    rw [h2]
    simp [h]
  · rw [BitVec.getMsbD_of_ge x (j + (8 - r)) (by omega)]
    simp [h, hj]

end Bits

/-! ## One piece -/

section Pieces

variable {mem : Memory} {op : RasterOp} {mask value : BitVec 8} {d : Int}
  {s : Int → Bool} {a b lo hi m : Int}

/-- The masked bits above the part done. -/
theorem put_up (h : bits mem = transfer op.bit s a b lo hi) (hlo : lo ≤ hi) (hm : hi ≤ m)
    (hmask : Covers mask d (b + hi) (b + m)) (hu : 8 * d ≤ b + hi) (hv : b + m ≤ 8 * d + 8)
    (hvalue : ∀ j : Nat, j < 8 → b + hi ≤ 8 * d + j → 8 * d + j < b + m →
      value.getMsbD j = s (a + (8 * d + j - b))) :
    bits (Function.update mem d (op.put mask (mem d) value)) = transfer op.bit s a b lo m := by
  apply transfer_up hlo hm
  intro i
  rw [bits_put hmask hu hv, h]
  by_cases hi' : b + hi ≤ i ∧ i < b + m
  · have hj : 8 * d + ((i - 8 * d).toNat : Int) = i := by omega
    have hval := hvalue (i - 8 * d).toNat (by omega) (by omega) (by omega)
    rw [hj] at hval
    rw [if_pos hi', if_pos hi', transfer_outside (by omega), hval]
  · rw [if_neg hi', if_neg hi']

/-- The masked bits below the part done. -/
theorem put_down (h : bits mem = transfer op.bit s a b lo hi) (hlo : lo ≤ hi) (hm : m ≤ lo)
    (hmask : Covers mask d (b + m) (b + lo)) (hu : 8 * d ≤ b + m) (hv : b + lo ≤ 8 * d + 8)
    (hvalue : ∀ j : Nat, j < 8 → b + m ≤ 8 * d + j → 8 * d + j < b + lo →
      value.getMsbD j = s (a + (8 * d + j - b))) :
    bits (Function.update mem d (op.put mask (mem d) value)) = transfer op.bit s a b m hi := by
  apply transfer_down hlo hm
  intro i
  rw [bits_put hmask hu hv, h]
  by_cases hi' : b + m ≤ i ∧ i < b + lo
  · have hj : 8 * d + ((i - 8 * d).toNat : Int) = i := by omega
    have hval := hvalue (i - 8 * d).toNat (by omega) (by omega) (by omega)
    rw [hj] at hval
    rw [if_pos hi', if_pos hi', transfer_outside (by omega), hval]
  · rw [if_neg hi', if_neg hi']

/-- A byte is combined as with the mask of all its bits. -/
theorem put_full (op : RasterOp) (dest value : BitVec 8) :
    op.put 0xff#8 dest value = op.all dest value := by
  apply BitVec.eq_of_getMsbD_eq
  intro j hj
  rw [put_bit hj, if_pos (full_bit hj), all_bit]

/-- What a byte still has of the bits before the transfer. -/
theorem read_old (h : bits mem = transfer op.bit s a b lo hi) {q : Int} {j : Nat} (hj : j < 8)
    (hread : ¬(b + lo ≤ 8 * q + j ∧ 8 * q + j < b + hi)) :
    (mem q).getMsbD j = s (8 * q + j) := by
  rw [← bits_byte mem q hj, h, transfer_outside hread]

end Pieces

/-! ## Whole bytes -/

section Bytes

variable {op : RasterOp} {mem : Memory} {src dest : Int}

theorem memcpy_eq (size : Nat) (mem : Memory) (dest src : Int) :
    memcpy size mem dest src = byteForward .COPY size mem src dest := by
  induction size generalizing mem dest src with
  | zero => rfl
  | succ size ih => exact ih _ _ _

/-- Going up is right when no byte is written before it is read. -/
theorem byteForward_spec {n : Nat} (h : dest ≤ src ∨ src + n ≤ dest) :
    byteForward op n mem src dest = transfer op.all mem src dest 0 n := by
  induction n generalizing mem src dest with
  | zero => exact (transfer_empty (Int.le_refl 0)).symm
  | succ n ih =>
    rw [byteForward, ih (by omega)]
    funext i
    rw [transfer, transfer]
    by_cases hd : i = dest
    · have hs : src + (dest - dest) = src := by omega
      rw [if_neg (by omega), if_pos (by omega), hd, Function.update_self, hs]
    · rw [Function.update_of_ne hd]
      by_cases hi : dest + 1 + 0 ≤ i ∧ i < dest + 1 + n
      · have hs : src + 1 + (i - (dest + 1)) = src + (i - dest) := by omega
        rw [if_pos hi, if_pos (by omega), hs, Function.update_of_ne (by omega)]
      · rw [if_neg hi, if_neg (by omega)]

/-- Going down is right when no byte is written before it is read. -/
theorem byteBackward_spec {n : Nat} (h : src ≤ dest ∨ dest + n ≤ src) :
    byteBackward op n mem (src + n) (dest + n) = transfer op.all mem src dest 0 n := by
  induction n generalizing mem with
  | zero => exact (transfer_empty (Int.le_refl 0)).symm
  | succ n ih =>
    have hs : src + (n + 1 : Nat) - 1 = src + n := by omega
    have hd : dest + (n + 1 : Nat) - 1 = dest + n := by omega
    rw [byteBackward, hs, hd, ih (by omega)]
    funext i
    rw [transfer, transfer]
    by_cases hi : i = dest + n
    · have hs : src + (dest + n - dest) = src + n := by omega
      rw [if_neg (by omega), if_pos (by omega), hi, Function.update_self, hs]
    · rw [Function.update_of_ne hi]
      by_cases hin : dest + 0 ≤ i ∧ i < dest + n
      · rw [if_pos hin, if_pos (by omega), Function.update_of_ne (by omega)]
      · rw [if_neg hin, if_neg (by omega)]

/-- The copy of bytes, unless `memcpy` runs into its own output. -/
theorem uglCommonByteCopy_spec {n : Nat} (hn : n < 2147483648)
    (h : op ≠ .COPY ∨ dest ≤ src ∨ src + n ≤ dest) :
    uglCommonByteCopy mem src dest n op = transfer op.all mem src dest 0 n := by
  rw [uglCommonByteCopy]
  by_cases hc : op = .COPY
  · rw [if_pos hc, memcpy_eq, hc]
    exact byteForward_spec (h.resolve_left (fun hne => hne hc))
  · rw [if_neg hc]
    dsimp only
    have hdef := Int.bmod_def (dest - src) 4294967296
    by_cases hsz : Int.bmod (dest - src) 4294967296 ≤ 0 ∨
        Int.bmod (dest - src) 4294967296 ≥ n
    · rw [if_pos hsz]
      apply byteForward_spec
      by_contra hover
      have hmod : (dest - src) % (4294967296 : Nat) = dest - src := by omega
      rw [hmod, if_pos (by omega)] at hdef
      omega
    · rw [if_neg hsz]
      apply byteBackward_spec
      by_contra hover
      have hmod : (dest - src) % (4294967296 : Nat) = dest - src + 4294967296 := by omega
      rw [hmod, if_neg (by omega)] at hdef
      omega

/-- A transfer of bytes is a transfer of their bits. -/
theorem bits_transfer (n : Nat) :
    bits (transfer op.all mem src dest 0 n) =
      transfer op.bit (bits mem) (8 * src) (8 * dest) 0 (8 * n) := by
  funext i
  rw [bits, transfer, transfer]
  by_cases h : dest + 0 ≤ i / 8 ∧ i / 8 < dest + n
  · have h1 : (8 * src + (i - 8 * dest)) / 8 = src + (i / 8 - dest) := by omega
    have h2 : (8 * src + (i - 8 * dest)) % 8 = i % 8 := by omega
    rw [if_pos h, if_pos (by omega), all_bit, bits, bits, h1, h2]
  · rw [if_neg h, if_neg (by omega)]
    rfl

theorem byteForward_add (n k : Nat) :
    byteForward op (n + k) mem src dest =
      byteForward op k (byteForward op n mem src dest) (src + n) (dest + n) := by
  induction n generalizing mem src dest with
  | zero =>
    have hs : src + (0 : Nat) = src := by omega
    have hd : dest + (0 : Nat) = dest := by omega
    rw [Nat.zero_add, hs, hd]
    rfl
  | succ n ih =>
    have hs : src + 1 + n = src + (n + 1 : Nat) := by omega
    have hd : dest + 1 + n = dest + (n + 1 : Nat) := by omega
    rw [Nat.succ_add, byteForward, ih, hs, hd]
    rfl

theorem byteForward_below (n : Nat) {i : Int} (hi : i < dest) :
    byteForward op n mem src dest i = mem i := by
  induction n generalizing mem src dest with
  | zero => rfl
  | succ n ih =>
    rw [byteForward, ih (by omega), Function.update_of_ne (by omega)]

/-- A `memcpy` into the rest of its source copies the first byte twice. -/
theorem memcpy_overlap {n : Nat} (h1 : src < dest) (h2 : dest < src + n) :
    memcpy n mem dest src (dest + (dest - src)) = mem src := by
  obtain ⟨k, hk⟩ : ∃ k : Nat, (k : Int) = dest - src := ⟨(dest - src).toNat, by omega⟩
  obtain ⟨l, hl⟩ : ∃ l, n = k + (l + 1) := ⟨n - k - 1, by omega⟩
  have hs : src + k = dest := by omega
  have hd : dest + (dest - src) = dest + k := by omega
  rw [memcpy_eq, hl, byteForward_add, hd, hs, byteForward, byteForward_below l (by omega),
    Function.update_self]
  show byteForward .COPY k mem src dest dest = mem src
  rw [byteForward_spec (by omega), transfer_inside (by omega) (by omega)]
  show mem (src + (dest - dest)) = mem src
  rw [Int.sub_self, Int.add_zero]

end Bytes

end Vmx.Ugl
