import Vmx.Fs.Rt11Vops

/-!
# A read as a slice of the file

`ext2fsVopRead` and `rt11VopRead` copy a file block by block.  Here `bread` is a function that
has the content of the file for every block with a byte of it, and that answers anything behind
the end.  A read that stays inside the file copies its slice.  One that does not goes on to the
next block before it sees the end, so it needs blocks behind the end, and far behind the end the
count of bytes wraps (`vncioRead_slice_iff`).
-/

namespace Vmx.FileRead

open Rt11 (uiomove)

def OK : Int := 0
def ERROR : Int := -1

def O_WRONLY : Nat := 1
def O_ACCMODE : Nat := 3

/-! ## Files and their blocks -/

/-- A file as its blocks are read: `bread` answers with a status and with the bytes from the
start of the buffer on. -/
structure BlockFile where
  content : List UInt8
  blkSize2 : Nat
  bread : Nat → Int × (Nat → UInt8)
  blkSize2_le : blkSize2 ≤ 30
  blocks_le : content.length ≤ 4294967296 * 2 ^ blkSize2
  inside : ∀ lbn, lbn * 2 ^ blkSize2 < content.length → (bread lbn).1 = OK ∧
    ∀ i < 2 ^ blkSize2, lbn * 2 ^ blkSize2 + i < content.length →
      content[lbn * 2 ^ blkSize2 + i]? = some ((bread lbn).2 i)

def BlockFile.blkSize (f : BlockFile) : Nat := 2 ^ f.blkSize2

/-- The two filesystems; they differ in the types of two variables. -/
inductive Fs where
  | ext2
  | rt11
  deriving DecidableEq, Repr

/-- The type of `bytesToRead`: 32 bits without a sign, or 64 bits. -/
def Fs.trunc : Fs → Int → Int
  | .ext2, n => n % 4294967296
  | .rt11, n => n

/-- The type of `lbn`: 32 or 64 bits. -/
def Fs.lbn : Fs → Nat → Nat
  | .ext2, lbn => lbn % 4294967296
  | .rt11, lbn => lbn

/-- The loop of both reads: the status and the bytes that were moved. -/
def readLoop (fs : Fs) (f : BlockFile) :
    Nat → Nat → Nat → Int → Int → Int → List UInt8 → Option (Int × List UInt8)
  | 0, _, _, _, _, _, _ => none
  | fuel + 1, lbn, off, bytesToRead, bytesToEOF, uio_resid, moved =>
    if uio_resid ≤ 0 then some (OK, moved)
    else
      let r := f.bread (fs.lbn lbn)
      if r.1 ≠ OK then some (r.1, moved)
      else
        let bytesToRead := if uio_resid < bytesToRead then uio_resid else bytesToRead
        let bytesToRead := fs.trunc (if bytesToEOF < bytesToRead then bytesToEOF else bytesToRead)
        let n := uiomove bytesToRead uio_resid
        let moved := moved ++ (List.range n.toNat).map fun i => r.2 (off + i)
        if bytesToRead = 0 then some (OK, moved)
        else
          readLoop fs f fuel (lbn + 1) 0 f.blkSize (bytesToEOF - bytesToRead) (uio_resid - n) moved

/-- What both reads do with the size of the file, with enough fuel for the loop. -/
def vopRead (fs : Fs) (f : BlockFile) (size uio_offset uio_resid : Nat) :
    Option (Int × List UInt8) :=
  if uio_resid = 0 then some (OK, [])
  else
    let off := uio_offset % f.blkSize
    readLoop fs f (uio_resid + 3) (uio_offset / f.blkSize) off ((f.blkSize : Int) - off)
      ((size : Int) - uio_offset) uio_resid []

/-- `ext2fsVopRead`. -/
def ext2fsVopRead (f : BlockFile) (i_size uio_offset uio_resid : Nat) :
    Option (Int × List UInt8) :=
  vopRead .ext2 f i_size uio_offset uio_resid

/-- `rt11VopRead`. -/
def rt11VopRead (f : BlockFile) (rfd_nBlks uio_offset uio_resid : Nat) :
    Option (Int × List UInt8) :=
  vopRead .rt11 f (rfd_nBlks <<< f.blkSize2) uio_offset uio_resid

/-- An open file with the size that its filesystem keeps. -/
inductive File where
  | ext2 (f : BlockFile) (i_size : Nat) (size : i_size = f.content.length)
  | rt11 (f : BlockFile) (rfd_nBlks : Nat) (size : rfd_nBlks * 2 ^ f.blkSize2 = f.content.length)

def File.blocks : File → BlockFile
  | .ext2 f _ _ => f
  | .rt11 f _ _ => f

def File.fs : File → Fs
  | .ext2 .. => .ext2
  | .rt11 .. => .rt11

def File.content (file : File) : List UInt8 := file.blocks.content

/-- `VOP_READ`. -/
def File.vopRead : File → Nat → Nat → Option (Int × List UInt8)
  | .ext2 f i_size _ => ext2fsVopRead f i_size
  | .rt11 f rfd_nBlks _ => rt11VopRead f rfd_nBlks

/-- `filedesc_t`. -/
structure FileDesc where
  fd_mode : Nat
  fd_off : Nat
  deriving DecidableEq, Repr

/-- `vncioRead`: what it returns, the bytes moved to the caller and the descriptor. -/
def vncioRead (file : File) (fd : FileDesc) (maxBytes : Nat) :
    Option (Int × List UInt8 × FileDesc) :=
  if fd.fd_mode &&& O_ACCMODE = O_WRONLY then some (ERROR, [], fd)
  else
    (file.vopRead fd.fd_off maxBytes).map fun r =>
      if r.1 ≠ OK then (ERROR, r.2, fd)
      else ((r.2.length : Nat), r.2, { fd with fd_off := fd.fd_off + r.2.length })

/-- `FIOSEEK` of `vncioIoctl`.  The argument has 32 bits and becomes the low half of the offset,
so the test for a negative offset never holds. -/
def fioSeek (fd : FileDesc) (arg : UInt32) : FileDesc := { fd with fd_off := arg.toNat }

/-! ## Inside the file -/

variable {fs : Fs} {f : BlockFile}

theorem blkSize_pos (f : BlockFile) : 0 < f.blkSize := Nat.pow_pos (by omega)

theorem blkSize_le (f : BlockFile) : f.blkSize ≤ 1073741824 :=
  Nat.pow_le_pow_right (by omega) f.blkSize2_le

/-- A value as an `int`. -/
theorem bmod_int (n : Int) : n.bmod (2 ^ 32) =
    if n % 4294967296 < 2147483648 then n % 4294967296 else n % 4294967296 - 4294967296 := by
  rw [Int.bmod_def]
  rfl

/-- A count below 2^31 is moved as it is. -/
theorem uiomove_small {n r : Nat} (hn : n ≤ 1073741824) (hr : n ≤ r) :
    uiomove (n : Int) (r : Int) = n := by
  have hmod : (n : Int).bmod (2 ^ 32) = n := by
    rw [bmod_int, if_pos (by omega)]
    omega
  unfold uiomove
  rw [hmod]
  dsimp only
  rw [if_neg (show ¬ (r : Int) < n by omega)]
  split <;> omega

theorem trunc_small (fs : Fs) {n : Nat} (hn : n ≤ 1073741824) : fs.trunc (n : Int) = n := by
  cases fs
  · show (n : Int) % 4294967296 = n
    omega
  · rfl

theorem lbn_inside (fs : Fs) {lbn : Nat} (h : lbn * f.blkSize < f.content.length) :
    fs.lbn lbn = lbn := by
  cases fs
  · have hlt : lbn * 2 ^ f.blkSize2 < 4294967296 * 2 ^ f.blkSize2 :=
      lt_of_lt_of_le h f.blocks_le
    exact Nat.mod_eq_of_lt (Nat.lt_of_mul_lt_mul_right hlt)
  · rfl

/-- The bytes of a block are those of the file. -/
theorem block_slice {lbn o c : Nat} (hin : lbn * f.blkSize < f.content.length)
    (hblk : o + c ≤ f.blkSize) (hend : lbn * f.blkSize + o + c ≤ f.content.length) :
    ((List.range c).map fun i => (f.bread lbn).2 (o + i)) =
      (f.content.drop (lbn * f.blkSize + o)).take c := by
  apply List.ext_getElem?
  intro i
  by_cases hi : i < c
  · have hbyte := (f.inside lbn hin).2 (o + i) (show o + i < f.blkSize by omega)
      (show lbn * f.blkSize + (o + i) < f.content.length by omega)
    rw [List.getElem?_map, List.getElem?_range hi, List.getElem?_take_of_lt hi,
      List.getElem?_drop, Nat.add_assoc]
    exact hbyte.symm
  · rw [List.getElem?_eq_none (by simp; omega), List.getElem?_eq_none (by simp; omega)]

/-- One round of the loop that starts inside the file. -/
theorem readLoop_inside {fuel lbn o r : Nat} {moved : List UInt8} (ho : o < f.blkSize)
    (hin : lbn * f.blkSize + o < f.content.length) (hr : 0 < r) :
    ∃ c, 0 < c ∧ c ≤ r ∧ c ≤ f.blkSize - o ∧ c ≤ f.content.length - (lbn * f.blkSize + o) ∧
      (c = r ∨ c = f.blkSize - o ∨ c = f.content.length - (lbn * f.blkSize + o)) ∧
      readLoop fs f (fuel + 1) lbn o ((f.blkSize : Int) - o)
          ((f.content.length : Int) - (lbn * f.blkSize + o : Nat)) r moved =
        readLoop fs f fuel (lbn + 1) 0 f.blkSize
          ((f.content.length : Int) - (lbn * f.blkSize + o : Nat) - c) ((r - c : Nat) : Int)
          (moved ++ (f.content.drop (lbn * f.blkSize + o)).take c) := by
  obtain ⟨c, hc⟩ : ∃ c, c = min (min r (f.blkSize - o))
      (f.content.length - (lbn * f.blkSize + o)) := ⟨_, rfl⟩
  have hlbn : lbn * f.blkSize < f.content.length := by omega
  have hle := blkSize_le f
  have hbread := (f.inside lbn hlbn).1
  refine ⟨c, by omega, by omega, by omega, by omega, by omega, ?_⟩
  have hcount : (if (f.content.length : Int) - (lbn * f.blkSize + o : Nat) <
      (if (r : Int) < (f.blkSize : Int) - o then (r : Int) else (f.blkSize : Int) - o) then
      (f.content.length : Int) - (lbn * f.blkSize + o : Nat)
      else if (r : Int) < (f.blkSize : Int) - o then (r : Int) else (f.blkSize : Int) - o) =
      (c : Int) := by
    split <;> split <;> omega
  rw [readLoop, if_neg (by omega)]
  dsimp only
  rw [lbn_inside fs hlbn, if_neg (by simp [hbread]), hcount, trunc_small fs (by omega),
    uiomove_small (by omega) (by omega), if_neg (by omega), Int.toNat_natCast,
    block_slice hlbn (by omega) (by omega)]
  congr 1
  omega

/-- Behind the end of the file the loop reads one more block. -/
theorem readLoop_end {fuel lbn : Nat} {r : Int} {moved : List UInt8} (hr : 0 < r) :
    readLoop fs f (fuel + 1) lbn 0 f.blkSize 0 r moved =
      some ((f.bread (fs.lbn lbn)).1, moved) := by
  have hpos := blkSize_pos f
  rw [readLoop, if_neg (by omega)]
  dsimp only
  by_cases hok : (f.bread (fs.lbn lbn)).1 = OK
  · have hzero : (if (0 : Int) < (if r < (f.blkSize : Int) then r else (f.blkSize : Int))
        then (0 : Int) else if r < (f.blkSize : Int) then r else (f.blkSize : Int)) = ((0 : Nat) : Int) := by
      rw [if_pos]
      · rfl
      · split <;> omega
    have hmove : uiomove ((0 : Nat) : Int) r = 0 := by
      have h := uiomove_small (n := 0) (r := r.toNat) (by omega) (by omega)
      rw [Int.toNat_of_nonneg (by omega)] at h
      exact h
    rw [if_neg (by simp [hok]), hzero, trunc_small fs (by omega), hmove, hok]
    simp
  · rw [if_pos hok]

/-- The block behind the last block of the file. -/
def BlockFile.behind (f : BlockFile) : Nat := (f.content.length - 1) / f.blkSize + 1

/-- The loop from a place inside the file on. -/
theorem readLoop_run {fuel lbn o r : Nat} {moved : List UInt8} (ho : o < f.blkSize)
    (hin : lbn * f.blkSize + o < f.content.length) (hr : 0 < r) (hfuel : r + 1 ≤ fuel) :
    readLoop fs f fuel lbn o ((f.blkSize : Int) - o)
        ((f.content.length : Int) - (lbn * f.blkSize + o : Nat)) r moved =
      some (if lbn * f.blkSize + o + r ≤ f.content.length then OK
          else (f.bread (fs.lbn f.behind)).1,
        moved ++ (f.content.drop (lbn * f.blkSize + o)).take r) := by
  induction fuel generalizing lbn o r moved with
  | zero => omega
  | succ fuel ih =>
    obtain ⟨c, hc, hcr, hcblk, hcend, hcases, hround⟩ :=
      @readLoop_inside fs f fuel lbn o r moved ho hin hr
    rw [hround]
    obtain ⟨fuel, rfl⟩ : ∃ n, fuel = n + 1 := ⟨fuel - 1, by omega⟩
    by_cases hdone : r = c
    · -- the caller's buffer is full
      rw [hdone, Nat.sub_self, if_pos (by omega), readLoop, if_pos (by omega)]
    have hpos := blkSize_pos f
    have hnext : (lbn + 1) * f.blkSize = lbn * f.blkSize + f.blkSize := Nat.succ_mul _ _
    by_cases hlast : c = f.content.length - (lbn * f.blkSize + o)
    · -- the file ends in this block
      have hbehind : lbn + 1 = f.behind := by
        unfold BlockFile.behind
        have hdiv : (f.content.length - 1) / f.blkSize = lbn := by
          apply Nat.div_eq_of_lt_le
          · omega
          · omega
        omega
      have hzero : (f.content.length : Int) - (lbn * f.blkSize + o : Nat) - c = 0 := by omega
      rw [hzero, readLoop_end (by omega), if_neg (by omega), hbehind]
      have htake : (f.content.drop (lbn * f.blkSize + o)).take c =
          (f.content.drop (lbn * f.blkSize + o)).take r := by
        rw [List.take_of_length_le (by rw [List.length_drop]; omega),
          List.take_of_length_le (by rw [List.length_drop]; omega)]
      rw [htake]
    · -- the next block starts where this one ends
      have hblk : c = f.blkSize - o := by omega
      have hplace : lbn * f.blkSize + o + c = (lbn + 1) * f.blkSize + 0 := by omega
      have hrest := @ih (lbn + 1) 0 (r - c)
        (moved ++ (f.content.drop (lbn * f.blkSize + o)).take c) hpos (by omega) (by omega)
        (by omega)
      have heof : (f.content.length : Int) - (lbn * f.blkSize + o : Nat) - c =
          (f.content.length : Int) - ((lbn + 1) * f.blkSize + 0 : Nat) := by omega
      have hbytes : (f.content.drop (lbn * f.blkSize + o)).take c ++
          (f.content.drop ((lbn + 1) * f.blkSize + 0)).take (r - c) =
          (f.content.drop (lbn * f.blkSize + o)).take r := by
        have htail : f.content.drop ((lbn + 1) * f.blkSize + 0) =
            (f.content.drop (lbn * f.blkSize + o)).drop c := by
          rw [List.drop_drop, hplace]
        rw [htail, ← List.take_add]
        congr 1
        omega
      rw [heof]
      rw [Int.natCast_zero, Int.sub_zero] at hrest
      have hiff : (lbn + 1) * f.blkSize + 0 + (r - c) ≤ f.content.length ↔
          lbn * f.blkSize + o + r ≤ f.content.length := by omega
      rw [hrest, List.append_assoc, hbytes]
      simp only [hiff]

/-! ## At and behind the end -/

/-- The count of bytes that `uiomove` gets depends on the low half only. -/
theorem bmod_trunc (fs : Fs) (n : Int) : (fs.trunc n).bmod (2 ^ 32) = n.bmod (2 ^ 32) := by
  cases fs
  · show (n % 4294967296).bmod (2 ^ 32) = _
    rw [bmod_int, bmod_int, Int.emod_emod_of_dvd _ (Int.dvd_refl _)]
  · rfl

/-- What is left of a negative count is no count. -/
theorem trunc_rest (fs : Fs) {e : Int} (he : e ≤ 0) :
    e - fs.trunc e ≤ 0 ∧ fs.trunc (e - fs.trunc e) = 0 := by
  cases fs
  · simp only [Fs.trunc]
    omega
  · simp only [Fs.trunc]
    omega

/-- The bytes that the loop moves from an offset at or behind the end. -/
def strayBytes (fs : Fs) (f : BlockFile) (lbn o : Nat) (e : Int) (r : Nat) : List UInt8 :=
  (List.range (uiomove (fs.trunc e) r).toNat).map fun i => (f.bread (fs.lbn lbn)).2 (o + i)

/-- The loop from a place at or behind the end on. -/
theorem readLoop_past {fuel lbn o r : Nat} {e : Int} (he : e ≤ 0) (ho : o < f.blkSize)
    (hr : 0 < r) :
    readLoop fs f (fuel + 2) lbn o ((f.blkSize : Int) - o) e r [] =
      if (f.bread (fs.lbn lbn)).1 ≠ OK then some ((f.bread (fs.lbn lbn)).1, [])
      else if fs.trunc e = 0 ∨ (r : Int) ≤ uiomove (fs.trunc e) r then
        some (OK, strayBytes fs f lbn o e r)
      else some ((f.bread (fs.lbn (lbn + 1))).1, strayBytes fs f lbn o e r) := by
  have hpos := blkSize_pos f
  have hfirst : (if e < (if (r : Int) < (f.blkSize : Int) - o then (r : Int)
      else (f.blkSize : Int) - o) then e
      else if (r : Int) < (f.blkSize : Int) - o then (r : Int) else (f.blkSize : Int) - o) = e := by
    rw [if_pos]
    split <;> omega
  rw [readLoop, if_neg (by omega)]
  dsimp only
  by_cases hok : (f.bread (fs.lbn lbn)).1 ≠ OK
  · rw [if_pos hok, if_pos hok]
  rw [if_neg hok, if_neg hok, hfirst, List.nil_append]
  by_cases hzero : fs.trunc e = 0
  · rw [if_pos hzero, if_pos (.inl hzero)]
    rfl
  rw [if_neg hzero]
  by_cases hfull : (r : Int) ≤ uiomove (fs.trunc e) r
  · rw [if_pos (.inr hfull), readLoop, if_pos (by omega)]
    rfl
  · rw [if_neg (by rintro (h | h) <;> contradiction)]
    obtain ⟨hrest, htrunc⟩ := trunc_rest fs he
    have hresid : 0 < (r : Int) - uiomove (fs.trunc e) r := by omega
    have hsecond : (if e - fs.trunc e < (if (r : Int) - uiomove (fs.trunc e) r < (f.blkSize : Int)
        then (r : Int) - uiomove (fs.trunc e) r else (f.blkSize : Int)) then e - fs.trunc e
        else if (r : Int) - uiomove (fs.trunc e) r < (f.blkSize : Int)
          then (r : Int) - uiomove (fs.trunc e) r else (f.blkSize : Int)) = e - fs.trunc e := by
      rw [if_pos]
      split <;> omega
    have hmove : uiomove 0 ((r : Int) - uiomove (fs.trunc e) r) = 0 := by
      have h := uiomove_small (n := 0) (r := ((r : Int) - uiomove (fs.trunc e) r).toNat)
        (by omega) (by omega)
      rw [Int.toNat_of_nonneg (by omega)] at h
      exact h
    rw [readLoop, if_neg (by omega)]
    dsimp only
    by_cases hok' : (f.bread (fs.lbn (lbn + 1))).1 ≠ OK
    · rw [if_pos hok']
      rfl
    · rw [if_neg hok', hsecond, htrunc, hmove, not_ne_iff.mp hok']
      simp [strayBytes]

/-- No byte is moved exactly when the count is not positive as an `int`. -/
theorem strayBytes_eq_nil {lbn o r : Nat} {e : Int} (hr : 0 < r) :
    strayBytes fs f lbn o e r = [] ↔ e.bmod (2 ^ 32) ≤ 0 := by
  have hlen : strayBytes fs f lbn o e r = [] ↔ (uiomove (fs.trunc e) r).toNat = 0 := by
    unfold strayBytes
    simp
  rw [hlen]
  unfold uiomove
  rw [bmod_trunc]
  dsimp only
  constructor
  · intro h
    by_contra hpos
    split at h <;> split at h <;> omega
  · intro h
    rw [if_neg (show ¬ (r : Int) < e.bmod (2 ^ 32) by omega), if_neg (by omega)]
    rfl

/-! ## The read of a file -/

theorem File.vopRead_eq (file : File) (uio_offset uio_resid : Nat) :
    file.vopRead uio_offset uio_resid =
      FileRead.vopRead file.fs file.blocks file.content.length uio_offset uio_resid := by
  cases file with
  | ext2 f i_size size =>
    show FileRead.vopRead .ext2 f i_size uio_offset uio_resid =
      FileRead.vopRead .ext2 f f.content.length uio_offset uio_resid
    rw [size]
  | rt11 f rfd_nBlks size =>
    show FileRead.vopRead .rt11 f (rfd_nBlks <<< f.blkSize2) uio_offset uio_resid =
      FileRead.vopRead .rt11 f f.content.length uio_offset uio_resid
    rw [Nat.shiftLeft_eq, size]

/-- The block can be read. -/
def File.Readable (file : File) (lbn : Nat) : Prop :=
  (file.blocks.bread (file.fs.lbn lbn)).1 = OK

/-- What a read needs that goes on past the end of the file.  From inside the file it is the block
behind the last one.  From an offset at or behind the end it is the block of the offset, the next
one unless no bytes are left, and that the distance to the end is not taken for a count. -/
def File.ReadsPast (file : File) (off : Nat) : Prop :=
  if off < file.content.length then file.Readable file.blocks.behind
  else
    file.Readable (off / file.blocks.blkSize) ∧
      (file.fs.trunc ((file.content.length : Int) - off) = 0 ∨
        file.Readable (off / file.blocks.blkSize + 1)) ∧
      ((file.content.length : Int) - off).bmod (2 ^ 32) ≤ 0

/-- The slice of the file that a read is to copy. -/
def File.slice (file : File) (off n : Nat) : List UInt8 := (file.content.drop off).take n

theorem vopRead_slice_iff (file : File) (off n : Nat) :
    file.vopRead off n = some (OK, file.slice off n) ↔
      n = 0 ∨ off + n ≤ file.content.length ∨ file.ReadsPast off := by
  rw [File.vopRead_eq, FileRead.vopRead]
  by_cases hn : n = 0
  · rw [if_pos hn]
    simp [File.slice, hn]
  rw [if_neg hn]
  dsimp only
  have hpos := blkSize_pos file.blocks
  have hoff : off / file.blocks.blkSize * file.blocks.blkSize + off % file.blocks.blkSize = off :=
    Nat.div_add_mod' off _
  have hmod := Nat.mod_lt off hpos
  rw [or_iff_right hn]
  by_cases hin : off < file.content.length
  · have hrun := @readLoop_run file.fs file.blocks (n + 3) (off / file.blocks.blkSize)
      (off % file.blocks.blkSize) n [] hmod (show _ < file.content.length by omega) (by omega)
      (by omega)
    rw [hoff, List.nil_append] at hrun
    have hslice : (file.blocks.content.drop off).take n = file.slice off n := rfl
    rw [show (file.content.length : Int) = file.blocks.content.length from rfl, hrun,
      Option.some.injEq, Prod.mk.injEq, and_iff_left hslice,
      show file.blocks.content.length = file.content.length from rfl]
    unfold File.ReadsPast
    rw [if_pos hin]
    by_cases hend : off + n ≤ file.content.length
    · rw [if_pos hend]
      exact iff_of_true rfl (.inl hend)
    · rw [if_neg hend, or_iff_right hend]
      exact Iff.rfl
  · have hnil : file.slice off n = [] := by
      unfold File.slice
      rw [List.drop_of_length_le (by omega), List.take_nil]
    rw [@readLoop_past file.fs file.blocks (n + 1) _ _ _ _ (by omega) hmod (by omega), hnil,
      or_iff_right (show ¬ off + n ≤ file.content.length by omega)]
    unfold File.ReadsPast File.Readable
    rw [if_neg hin]
    by_cases hok : (file.blocks.bread (file.fs.lbn (off / file.blocks.blkSize))).1 ≠ OK
    · rw [if_pos hok, Option.some.injEq, Prod.mk.injEq]
      constructor
      · intro h
        exact absurd h.1 hok
      · intro h
        exact absurd h.1 hok
    rw [if_neg hok, and_iff_right (not_ne_iff.mp hok)]
    have hstray := @strayBytes_eq_nil file.fs file.blocks (off / file.blocks.blkSize)
      (off % file.blocks.blkSize) n ((file.content.length : Int) - off) (by omega)
    by_cases hfull : file.fs.trunc ((file.content.length : Int) - off) = 0 ∨
        (n : Int) ≤ uiomove (file.fs.trunc ((file.content.length : Int) - off)) n
    · rw [if_pos hfull, Option.some.injEq, Prod.mk.injEq, and_iff_right rfl, hstray]
      constructor
      · intro hle
        refine ⟨?_, hle⟩
        rcases hfull with hzero | hmoved
        · exact .inl hzero
        · -- all bytes moved and none moved: there was no count
          have hnone := hstray.mpr hle
          unfold strayBytes at hnone
          simp at hnone
          omega
      · exact And.right
    · rw [if_neg hfull, Option.some.injEq, Prod.mk.injEq, hstray]
      have hzero : ¬ file.fs.trunc ((file.content.length : Int) - off) = 0 := fun h =>
        hfull (.inl h)
      rw [or_iff_right hzero]

/-- What a read is to return: the slice of the file, its length, and a descriptor that has
moved by it. -/
def File.sliceRead (file : File) (fd : FileDesc) (n : Nat) : Int × List UInt8 × FileDesc :=
  (((file.slice fd.fd_off n).length : Nat), file.slice fd.fd_off n,
    { fd with fd_off := fd.fd_off + (file.slice fd.fd_off n).length })

/-- A read returns the slice of the file exactly when the descriptor may read and the read ends
inside the file or can go on behind its end. -/
theorem vncioRead_slice_iff (file : File) (fd : FileDesc) (maxBytes : Nat) :
    vncioRead file fd maxBytes = some (file.sliceRead fd maxBytes) ↔
      fd.fd_mode &&& O_ACCMODE ≠ O_WRONLY ∧
        (maxBytes = 0 ∨ fd.fd_off + maxBytes ≤ file.content.length ∨
          file.ReadsPast fd.fd_off) := by
  have hnonneg : ((file.slice fd.fd_off maxBytes).length : Int) ≠ ERROR := by
    show _ ≠ (-1 : Int)
    omega
  unfold vncioRead
  by_cases hmode : fd.fd_mode &&& O_ACCMODE = O_WRONLY
  · rw [if_pos hmode, Option.some.injEq]
    constructor
    · intro h
      exact absurd (congrArg Prod.fst h).symm hnonneg
    · intro h
      exact absurd hmode h.1
  rw [if_neg hmode, and_iff_right hmode, ← vopRead_slice_iff]
  constructor
  · intro h
    rw [Option.map_eq_some_iff] at h
    rcases h with ⟨⟨status, bytes⟩, hread, hres⟩
    by_cases hok : status ≠ OK
    · rw [if_pos hok] at hres
      exact absurd (congrArg Prod.fst hres).symm hnonneg
    · rw [if_neg hok] at hres
      rw [hread, not_ne_iff.mp hok]
      have hbytes : bytes = file.slice fd.fd_off maxBytes :=
        congrArg (fun r : Int × List UInt8 × FileDesc => r.2.1) hres
      rw [hbytes]
  · intro h
    rw [h]
    rfl

/-! ## A read behind the end -/

/-- A file of one byte on a volume with blocks of 1024 bytes, all of which can be read. -/
def oneByte : BlockFile where
  content := [7]
  blkSize2 := 10
  bread := fun _ => (OK, fun _ => 7)
  blkSize2_le := by decide
  blocks_le := by decide
  inside := by
    intro lbn hlbn
    refine ⟨rfl, ?_⟩
    intro i _ hi
    have hzero : lbn * 2 ^ 10 + i = 0 := by
      have hlt : lbn * 2 ^ 10 + i < 1 := hi
      omega
    rw [hzero]
    rfl

/-- A descriptor for reading after `FIOSEEK` to the highest offset. -/
def farOff : FileDesc := fioSeek ⟨0, 0⟩ 4294967295

/-- A read far behind the end of a file returns what follows the buffer of a block. -/
theorem vncioRead_not_slice :
    ¬ ∀ (file : File) (fd : FileDesc) (maxBytes : Nat),
      fd.fd_mode &&& O_ACCMODE ≠ O_WRONLY →
      vncioRead file fd maxBytes = some (file.sliceRead fd maxBytes) := by
  intro h
  have hread := h (.ext2 oneByte 1 rfl) farOff 2 (by decide)
  exact absurd hread (by decide)

end Vmx.FileRead
