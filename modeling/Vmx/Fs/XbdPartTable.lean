import Mathlib.Data.Fin.VecNotation
import Mathlib.Data.Fintype.Basic
import Mathlib.Tactic.FinCases
import Vmx.Fs.XbdCalls

/-!
# The partition table that is written, and what is found in it

`xbdCreatePartition` starts the first partition at block 1 and gives it its whole share of the
blocks; the second and the third start two blocks behind the share before them and lose one block
of their own share.  So shares that add up to the whole device run past its end, an empty second or
third share has a length of -1 blocks, and a table entry holds only 32 bits of each number.

`Fits` is what a device and its percentages must be like for none of this to happen.
-/

namespace Vmx.Xbd

variable {geometry : Geometry} {nBlks : Nat} {nPartitions size1 size2 size3 : Int}
  {stack : Fin 4 → Nat}

/-! ## What is asked for -/

/-- The percentages that a call uses.  With two partitions it uses the third one too. -/
def percentages (nPartitions size1 size2 size3 : Int) : List Int :=
  if nPartitions = 0 then [] else if nPartitions = 1 then [size1] else [size1, size2, size3]

/-- A choice of 0 to 3 partitions, with percentages whose sum is at most 100. -/
structure Choice (nPartitions size1 size2 size3 : Int) : Prop where
  count : 0 ≤ nPartitions ∧ nPartitions ≤ 3
  nonneg : ∀ size ∈ percentages nPartitions size1 size2 size3, 0 ≤ size
  sum : (percentages nPartitions size1 size2 size3).sum ≤ 100

/-- No product of a percentage and the size of the device overflows. -/
def NoOverflow (nBlks : Nat) (nPartitions size1 size2 size3 : Int) : Prop :=
  ∀ size ∈ percentages nPartitions size1 size2 size3, size * nBlks < 2 ^ 64

/-- The blocks of two entries have nothing in common. -/
def Disjoint (e f : PartitionEntry) : Prop :=
  e.sector + e.nSectors ≤ f.sector ∨ f.sector + f.nSectors ≤ e.sector

/-- A table describes the partitions that were set up: they are disjoint, without block 0, inside
the device, and they are what a detection finds. -/
structure Agree (nBlks : Nat) (parts : List Part) (table : PartTable) : Prop where
  describes : ∀ i : Fin 4, (parts.getD i {}).nBlocks ≠ 0 →
    (table i).sector = (parts.getD i {}).startBlock ∧
      (table i).nSectors = (parts.getD i {}).nBlocks
  disjoint : ∀ i j, i ≠ j → (table i).nSectors ≠ 0 → (table j).nSectors ≠ 0 →
    Disjoint (table i) (table j)
  notZero : ∀ i, (table i).nSectors ≠ 0 → 1 ≤ (table i).sector
  inside : ∀ i, (table i).nSectors ≠ 0 → (table i).sector + (table i).nSectors ≤ nBlks
  detected : ∀ env s device s' n, env.sector0 = some table →
    xbdPartitionsDetect env s device = (s', some n) →
    n = (nonempty (List.ofFn table)).length ∧
      ∀ j e, (nonempty (List.ofFn table))[j]? = some e →
        IsDevice s' s.records.length j e.sector e.nSectors

/-- The share of a percentage, in whole blocks. -/
def share (size : Int) (nBlks : Nat) : Nat := (size * nBlks / 100).toNat

/-- The devices and percentages for which creation and detection agree. -/
def Fits (geometry : Geometry) (nBlks : Nat) (nPartitions size1 size2 size3 : Int) : Prop :=
  u32 (geometry.numHeads * geometry.sectorsPerTrack) ≠ 0 ∧
  NoOverflow nBlks nPartitions size1 size2 size3 ∧
  if nPartitions = 0 then nBlks = 0
  else if nPartitions = 1 then
    share size1 nBlks = 0 ∨ (size1 < 100 ∧ share size1 nBlks < 2 ^ 32)
  else
    share size1 nBlks < 2 ^ 32 ∧
    (share size2 nBlks = 1 ∨
      (1 < share size2 nBlks ∧ share size1 nBlks + 2 < 2 ^ 32 ∧ share size2 nBlks ≤ 2 ^ 32)) ∧
    (share size3 nBlks = 1 ∨
      (1 < share size3 nBlks ∧ share size1 nBlks + share size2 nBlks + 2 < 2 ^ 32 ∧
        share size3 nBlks ≤ 2 ^ 32 ∧
        share size1 nBlks + share size2 nBlks + share size3 nBlks < nBlks))

instance : Decidable (NoOverflow nBlks nPartitions size1 size2 size3) :=
  inferInstanceAs (Decidable (∀ size ∈ percentages nPartitions size1 size2 size3, _))

instance : Decidable (Fits geometry nBlks nPartitions size1 size2 size3) :=
  inferInstanceAs (Decidable (_ ∧ _ ∧ ite _ _ _))

/-! ## The blocks of the partitions -/

/-- Starts and lengths of four partitions that can be written down as they are, and that are
disjoint, without block 0 and inside the device. -/
structure Good (nBlks : Nat) (b : Fin 4 → Nat × Nat) : Prop where
  fits : ∀ i, (b i).2 ≠ 0 → (b i).1 < 2 ^ 32 ∧ (b i).2 < 2 ^ 32
  notZero : ∀ i, (b i).2 ≠ 0 → 1 ≤ (b i).1
  inside : ∀ i, (b i).2 ≠ 0 → (b i).1 + (b i).2 ≤ nBlks
  disjoint : ∀ i j, i ≠ j → (b i).2 ≠ 0 → (b j).2 ≠ 0 →
    (b i).1 + (b i).2 ≤ (b j).1 ∨ (b j).1 + (b j).2 ≤ (b i).1

theorem u32_eq_self {n : Nat} : u32 n = n ↔ n < 2 ^ 32 := by
  simp only [u32]
  omega

/-- The table agrees with the partitions when their blocks are good. -/
theorem agree_iff {parts : List Part} {table : PartTable}
    (htable : ∀ i : Fin 4, table i = entryOf (stack i) (parts.getD i {})) :
    Agree nBlks parts table ↔
      Good nBlks fun i => ((parts.getD i {}).startBlock, (parts.getD i {}).nBlocks) := by
  have hzero : ∀ i : Fin 4, (parts.getD i {}).nBlocks = 0 → (table i).nSectors = 0 := by
    intro i hi
    rw [htable]
    exact (congrArg u32 hi).trans (by decide)
  constructor
  · intro h
    refine ⟨fun i hi => ?_, fun i hi => ?_, fun i hi => ?_, fun i j hij hi hj => ?_⟩
    · obtain ⟨hs, hn⟩ := h.describes i hi
      rw [htable] at hs hn
      exact ⟨u32_eq_self.1 hs, u32_eq_self.1 hn⟩
    · obtain ⟨hs, hn⟩ := h.describes i hi
      rw [← hs]
      exact h.notZero i (by rwa [hn])
    · obtain ⟨hs, hn⟩ := h.describes i hi
      rw [← hs, ← hn]
      exact h.inside i (by rwa [hn])
    · obtain ⟨hs, hn⟩ := h.describes i hi
      obtain ⟨hs', hn'⟩ := h.describes j hj
      have := h.disjoint i j hij (by rwa [hn]) (by rwa [hn'])
      rwa [Disjoint, hs, hn, hs', hn'] at this
  · intro h
    have hdesc : ∀ i : Fin 4, (parts.getD i {}).nBlocks ≠ 0 →
        (table i).sector = (parts.getD i {}).startBlock ∧
          (table i).nSectors = (parts.getD i {}).nBlocks := by
      intro i hi
      obtain ⟨hs, hn⟩ := h.fits i hi
      rw [htable]
      exact ⟨u32_eq_self.2 hs, u32_eq_self.2 hn⟩
    have hne : ∀ i : Fin 4, (table i).nSectors ≠ 0 → (parts.getD i {}).nBlocks ≠ 0 :=
      fun i hi h0 => hi (hzero i h0)
    refine ⟨hdesc, fun i j hij hi hj => ?_, fun i hi => ?_, fun i hi => ?_,
      fun env s device s' n => xbdPartitionsDetect_some⟩
    · obtain ⟨hs, hn⟩ := hdesc i (hne i hi)
      obtain ⟨hs', hn'⟩ := hdesc j (hne j hj)
      rw [Disjoint, hs, hn, hs', hn']
      exact h.disjoint i j hij (hne i hi) (hne j hj)
    · rw [(hdesc i (hne i hi)).1]
      exact h.notZero i (hne i hi)
    · rw [(hdesc i (hne i hi)).1, (hdesc i (hne i hi)).2]
      exact h.inside i (hne i hi)

theorem xbdPartInit_some (hgeo : u32 (geometry.numHeads * geometry.sectorsPerTrack) ≠ 0)
    (startBlock endBlock : Nat) :
    ∃ p, xbdPartInit geometry startBlock endBlock = some p ∧ p.startBlock = u64 startBlock ∧
      p.nBlocks = sub64 (u64 endBlock) (u64 startBlock) := by
  simp [xbdPartInit, hgeo]

/-- The starts and lengths that are set up. -/
def blocks (nBlks : Nat) (nPartitions : Int) (n1 n2 n3 : Nat) : Fin 4 → Nat × Nat :=
  if nPartitions = 0 then ![(1, sub64 (u64 (nBlks + 1)) 1), (0, 0), (0, 0), (0, 0)]
  else if nPartitions = 1 then ![(1, sub64 (u64 (n1 + 1)) 1), (0, 0), (0, 0), (0, 0)]
  else
    ![(1, sub64 (u64 (n1 + 1)) 1),
      (u64 (n1 + 2), sub64 (u64 (n1 + n2 + 1)) (u64 (n1 + 2))),
      (u64 (n1 + n2 + 2), sub64 (u64 (n1 + n2 + n3 + 1)) (u64 (n1 + n2 + 2))), (0, 0)]

theorem createParts_some (hgeo : u32 (geometry.numHeads * geometry.sectorsPerTrack) ≠ 0) :
    ∃ parts, createParts geometry nBlks nPartitions size1 size2 size3 = some parts ∧
      (fun i : Fin 4 => ((parts.getD i {}).startBlock, (parts.getD i {}).nBlocks)) =
        blocks nBlks nPartitions (percent size1 nBlks) (percent size2 nBlks)
          (percent size3 nBlks) := by
  have h1 : u64 1 = 1 := by decide
  rw [createParts, blocks]
  dsimp only
  split
  · obtain ⟨p, hp, hstart, hn⟩ := xbdPartInit_some hgeo 1 (nBlks + 1)
    refine ⟨_, by rw [hp]; rfl, ?_⟩
    funext i
    fin_cases i <;> simp [hstart, hn, h1]
  · split
    · obtain ⟨p, hp, hstart, hn⟩ := xbdPartInit_some hgeo 1 (percent size1 nBlks + 1)
      refine ⟨_, by rw [hp]; rfl, ?_⟩
      funext i
      fin_cases i <;> simp [hstart, hn, h1]
    · obtain ⟨p, hp, hstart, hn⟩ := xbdPartInit_some hgeo 1 (percent size1 nBlks + 1)
      obtain ⟨p2, hp2, hstart2, hn2⟩ := xbdPartInit_some hgeo (percent size1 nBlks + 2)
        (percent size1 nBlks + percent size2 nBlks + 1)
      obtain ⟨p3, hp3, hstart3, hn3⟩ := xbdPartInit_some hgeo
        (percent size1 nBlks + percent size2 nBlks + 2)
        (percent size1 nBlks + percent size2 nBlks + percent size3 nBlks + 1)
      refine ⟨_, by rw [hp, hp2, hp3], ?_⟩
      funext i
      fin_cases i <;> simp [hstart, hn, h1, hstart2, hn2, hstart3, hn3]

/-- With a cylinder of no blocks nothing is written. -/
theorem createParts_none (hgeo : u32 (geometry.numHeads * geometry.sectorsPerTrack) = 0) :
    createParts geometry nBlks nPartitions size1 size2 size3 = none := by
  have h : ∀ a b, xbdPartInit geometry a b = none := fun a b => by simp [xbdPartInit, hgeo]
  rw [createParts]
  split
  · simp [h]
  · split
    · simp [h]
    · simp [h]

/-! ## The percentages -/

/-- Without an overflow the blocks of a percentage are its share. -/
theorem percent_eq {size : Int} (h0 : 0 ≤ size) (h : size * nBlks < 2 ^ 64) :
    percent size nBlks = share size nBlks ∧ (100 * share size nBlks : Int) ≤ size * nBlks ∧
      size * nBlks < (100 * share size nBlks + 100 : Int) ∧ share size nBlks ≤ 2 ^ 58 := by
  have hpos : 0 ≤ size * nBlks := Int.mul_nonneg h0 (Int.natCast_nonneg _)
  rw [percent, mul64, share]
  generalize size * nBlks = p at h hpos
  omega

/-- One partition from block 1 on. -/
theorem good_one {len : Nat} :
    Good nBlks ![(1, len), (0, 0), (0, 0), (0, 0)] ↔
      len = 0 ∨ (len < 2 ^ 32 ∧ 1 + len ≤ nBlks) := by
  constructor
  · intro h
    have hfits := h.fits 0
    have hinside := h.inside 0
    simp only [Matrix.cons_val_zero] at hfits hinside
    omega
  · intro h
    refine ⟨fun i => ?_, fun i => ?_, fun i => ?_, fun i j => ?_⟩
    · fin_cases i
      · simp only [Fin.zero_eta, Matrix.cons_val_zero]
        omega
      all_goals simp
    · fin_cases i <;> simp
    · fin_cases i
      · simp only [Fin.zero_eta, Matrix.cons_val_zero]
        omega
      all_goals simp
    · fin_cases i <;> fin_cases j <;> simp

/-- What a partition by itself must be like. -/
def GoodBlocks (nBlks start len : Nat) : Prop :=
  len ≠ 0 → start < 2 ^ 32 ∧ len < 2 ^ 32 ∧ 1 ≤ start ∧ start + len ≤ nBlks

/-- What two partitions must be like together. -/
def Apart (s a t b : Nat) : Prop := a ≠ 0 → b ≠ 0 → s + a ≤ t ∨ t + b ≤ s

theorem good_three {s1 s2 s3 a b c : Nat} :
    Good nBlks ![(s1, a), (s2, b), (s3, c), (0, 0)] ↔
      (GoodBlocks nBlks s1 a ∧ GoodBlocks nBlks s2 b ∧ GoodBlocks nBlks s3 c) ∧
        Apart s1 a s2 b ∧ Apart s1 a s3 c ∧ Apart s2 b s3 c := by
  constructor
  · intro h
    have hblocks : ∀ i, GoodBlocks nBlks
        ((![(s1, a), (s2, b), (s3, c), (0, 0)] : Fin 4 → Nat × Nat) i).1
        ((![(s1, a), (s2, b), (s3, c), (0, 0)] : Fin 4 → Nat × Nat) i).2 := fun i hi =>
      ⟨(h.fits i hi).1, (h.fits i hi).2, h.notZero i hi, h.inside i hi⟩
    exact ⟨⟨hblocks 0, hblocks 1, hblocks 2⟩, h.disjoint 0 1 (by decide),
      h.disjoint 0 2 (by decide), h.disjoint 1 2 (by decide)⟩
  · rintro ⟨⟨h1, h2, h3⟩, h12, h13, h23⟩
    have hblocks : ∀ i, GoodBlocks nBlks
        ((![(s1, a), (s2, b), (s3, c), (0, 0)] : Fin 4 → Nat × Nat) i).1
        ((![(s1, a), (s2, b), (s3, c), (0, 0)] : Fin 4 → Nat × Nat) i).2 := by
      intro i
      fin_cases i
      · exact h1
      · exact h2
      · exact h3
      · simp [GoodBlocks]
    refine ⟨fun i hi => ⟨(hblocks i hi).1, (hblocks i hi).2.1⟩,
      fun i hi => (hblocks i hi).2.2.1, fun i hi => (hblocks i hi).2.2.2, ?_⟩
    rw [Apart] at h12 h13 h23
    intro i j
    fin_cases i <;> fin_cases j <;> simp <;> omega

theorem u64_eq_self {n : Nat} (h : n < 2 ^ 64) : u64 n = n := by
  simp only [u64]
  omega

/-- A share that starts two blocks behind the one before it loses one block, and an empty one has
-1 blocks. -/
theorem sub64_share {m n : Nat} (h : m + n < 2 ^ 63) :
    sub64 (u64 (m + n + 1)) (m + 2) = if n = 0 then 2 ^ 64 - 1 else n - 1 := by
  rw [u64_eq_self (by omega), sub64]
  split
  · omega
  · omega

theorem three_iff {n1 n2 n3 : Nat} (hall : n1 + n2 + n3 ≤ nBlks) :
    (GoodBlocks nBlks 1 n1 ∧ GoodBlocks nBlks (n1 + 2) (if n2 = 0 then 2 ^ 64 - 1 else n2 - 1) ∧
        GoodBlocks nBlks (n1 + n2 + 2) (if n3 = 0 then 2 ^ 64 - 1 else n3 - 1)) ∧
      Apart 1 n1 (n1 + 2) (if n2 = 0 then 2 ^ 64 - 1 else n2 - 1) ∧
      Apart 1 n1 (n1 + n2 + 2) (if n3 = 0 then 2 ^ 64 - 1 else n3 - 1) ∧
      Apart (n1 + 2) (if n2 = 0 then 2 ^ 64 - 1 else n2 - 1) (n1 + n2 + 2)
        (if n3 = 0 then 2 ^ 64 - 1 else n3 - 1) ↔
    n1 < 2 ^ 32 ∧
      (n2 = 1 ∨ (1 < n2 ∧ n1 + 2 < 2 ^ 32 ∧ n2 ≤ 2 ^ 32)) ∧
      (n3 = 1 ∨ (1 < n3 ∧ n1 + n2 + 2 < 2 ^ 32 ∧ n3 ≤ 2 ^ 32 ∧ n1 + n2 + n3 < nBlks)) := by
  have hbad : ∀ start, ¬ GoodBlocks nBlks start (2 ^ 64 - 1) := by
    intro start h
    have := h (by omega)
    omega
  by_cases h2 : n2 = 0
  · simp only [if_pos h2, hbad, false_and, and_false, false_iff]
    omega
  · by_cases h3 : n3 = 0
    · simp only [if_pos h3, hbad, and_false, false_and, false_iff]
      omega
    · simp only [if_neg h2, if_neg h3]
      have h12 : Apart 1 n1 (n1 + 2) (n2 - 1) := fun _ _ => .inl (by omega)
      have h13 : Apart 1 n1 (n1 + n2 + 2) (n3 - 1) := fun _ _ => .inl (by omega)
      have h23 : Apart (n1 + 2) (n2 - 1) (n1 + n2 + 2) (n3 - 1) := fun _ _ => .inl (by omega)
      have hfirst : GoodBlocks nBlks 1 n1 ↔ n1 < 2 ^ 32 := by
        rw [GoodBlocks]
        omega
      have hsecond : GoodBlocks nBlks (n1 + 2) (n2 - 1) ↔
          n2 = 1 ∨ (1 < n2 ∧ n1 + 2 < 2 ^ 32 ∧ n2 ≤ 2 ^ 32) := by
        rw [GoodBlocks]
        omega
      have hthird : GoodBlocks nBlks (n1 + n2 + 2) (n3 - 1) ↔
          n3 = 1 ∨ (1 < n3 ∧ n1 + n2 + 2 < 2 ^ 32 ∧ n3 ≤ 2 ^ 32 ∧ n1 + n2 + n3 < nBlks) := by
        rw [GoodBlocks]
        omega
      rw [hfirst, hsecond, hthird]
      simp only [h12, h13, h23, and_true]

/-- The blocks are good in the devices that fit. -/
theorem good_blocks_iff (hn : nBlks < 2 ^ 64)
    (hchoice : Choice nPartitions size1 size2 size3)
    (hover : NoOverflow nBlks nPartitions size1 size2 size3)
    (hgeo : u32 (geometry.numHeads * geometry.sectorsPerTrack) ≠ 0) :
    Good nBlks (blocks nBlks nPartitions (percent size1 nBlks) (percent size2 nBlks)
        (percent size3 nBlks)) ↔
      Fits geometry nBlks nPartitions size1 size2 size3 := by
  have hnonneg := hchoice.nonneg
  have hsum := hchoice.sum
  rw [Fits, and_iff_right hgeo, and_iff_right hover, blocks]
  rw [NoOverflow] at hover
  rw [percentages] at hnonneg hsum hover
  split
  · have hlen : sub64 (u64 (nBlks + 1)) 1 = nBlks := by
      simp only [sub64, u64]
      omega
    rw [hlen, good_one]
    omega
  · rename_i h0
    rw [if_neg h0] at hnonneg hsum hover
    split
    · rename_i h1
      simp only [if_pos h1, List.mem_singleton, forall_eq, List.sum_singleton] at hnonneg hsum hover
      obtain ⟨hp, hle, hlt, hb⟩ := percent_eq hnonneg hover
      have hlen : sub64 (u64 (share size1 nBlks + 1)) 1 = share size1 nBlks := by
        simp only [sub64, u64]
        omega
      -- a whole share is the whole device
      have hwhole : share size1 nBlks ≠ 0 → (share size1 nBlks < nBlks ↔ size1 < 100) := by
        intro hne
        by_cases hsize : size1 < 100
        · have : size1 * nBlks ≤ 99 * nBlks :=
            Int.mul_le_mul_of_nonneg_right (by omega) (by omega)
          omega
        · obtain rfl : size1 = 100 := by omega
          omega
      rw [hp, hlen, good_one]
      omega
    · rename_i h1
      simp only [if_neg h1, List.mem_cons, List.not_mem_nil, or_false, forall_eq_or_imp,
        forall_eq, List.sum_cons, List.sum_nil] at hnonneg hsum hover
      obtain ⟨hp1, hle1, _, hb1⟩ := percent_eq hnonneg.1 hover.1
      obtain ⟨hp2, hle2, _, hb2⟩ := percent_eq hnonneg.2.1 hover.2.1
      obtain ⟨hp3, hle3, _, hb3⟩ := percent_eq hnonneg.2.2 hover.2.2
      have hall : share size1 nBlks + share size2 nBlks + share size3 nBlks ≤ nBlks := by
        have hmul : (size1 + size2 + size3) * nBlks ≤ 100 * nBlks :=
          Int.mul_le_mul_of_nonneg_right (by omega) (by omega)
        rw [Int.add_mul, Int.add_mul] at hmul
        omega
      rw [hp1, hp2, hp3, good_three]
      generalize share size1 nBlks = n1 at *
      generalize share size2 nBlks = n2 at *
      generalize share size3 nBlks = n3 at *
      have ha : sub64 (u64 (n1 + 1)) 1 = n1 := by
        simp only [sub64, u64]
        omega
      rw [ha, u64_eq_self (by omega : n1 + 2 < 2 ^ 64),
        u64_eq_self (by omega : n1 + n2 + 2 < 2 ^ 64), sub64_share (by omega : n1 + n2 < 2 ^ 63),
        sub64_share (by omega : n1 + n2 + n3 < 2 ^ 63)]
      exact three_iff hall

/-! ## Creation and detection -/

end Vmx.Xbd
