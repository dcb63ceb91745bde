import Mathlib.Algebra.Order.Ring.Int
import Vmx.Fs.Ext2ConvLib
import Vmx.Lib.Transition

/-!
# Where `ext2fsInodeGet` looks for an inode

The group descriptors of one block are cached.  A lookup takes the inode table from the cached
descriptor of the inode's group, reading the descriptors first when they are of another block,
and then the inode from the table.  After a mount the lookups in the first group are all right
and outside it no lookup is (`lookups_right`): the number of the inode is not reduced to its
group, and a descriptor of a later block is read from behind the buffer.
-/

namespace Vmx.Ext2InodeGet

open Lib Ext2Conv

def OK : Int := 0

/-! ## The volume and the device -/

/-- `EXT2FS_VOLUME_DESC` and the fields of its superblock that give the geometry. -/
structure Volume where
  (s_inodes_count s_inodes_per_group s_first_data_block : UInt32)
  (nBlkGroups blkSize2 inodeSize2 : UInt32)
  inodes_pos : 0 < s_inodes_per_group.toNat
  groups_pos : 0 < nBlkGroups.toNat
  inodes_le : s_inodes_count.toNat ≤ nBlkGroups.toNat * s_inodes_per_group.toNat
  blkSize2_ge : 10 ≤ blkSize2.toNat
  blkSize2_le : blkSize2.toNat ≤ 13
  inodeSize2_le : inodeSize2.toNat ≤ blkSize2.toNat

variable (v : Volume)

def Volume.blkSize : UInt32 := 1 <<< v.blkSize2

/-- A group descriptor on the disk has 32 bytes. -/
def Volume.bgPerBlk : UInt32 := v.blkSize / 32

def Volume.inodesPerBlk2 : UInt32 := v.blkSize2 - v.inodeSize2

def Volume.inodesPerBlk : UInt32 := 1 <<< v.inodesPerBlk2

/-- An inode number of the volume. -/
abbrev Volume.Ino := { n : UInt32 // 1 ≤ n.toNat ∧ n.toNat ≤ v.s_inodes_count.toNat }

/-- The device under the syncer: the descriptors of each block, what lies behind the buffer of
the read with a number, and how that read ends. -/
structure Dev where
  groupDesc : UInt32 → UInt32 → EXT2FS_GROUP_DESC_DISK
  behind : Nat → UInt32 → EXT2FS_GROUP_DESC_DISK
  error : Nat → Int

variable (dev : Dev)

/-- Where the inode is read: the table of its group, the block in the table and the byte in the
block. -/
structure Place where
  (table inodeBlk off : UInt32)
  deriving DecidableEq, Repr

/-- How a lookup ends: `EINVAL`, the error of a descriptor read, or the result of the read of the
inode. -/
inductive Outcome where
  | einval
  | descError (error : Int)
  | read (place : Place) (error : Int)
  deriving DecidableEq, Repr

/-- The cache, the number of reads so far, and the lookups with their ends. -/
structure State where
  bgCached : UInt32
  pBlkGroupDesc : Nat → EXT2FS_GROUP_DESC
  reads : Nat
  log : List (v.Ino × Outcome)

variable {v}

/-! ## The routines -/

/-- The block of a group descriptor. -/
def Volume.descBlk (v : Volume) (gdNum : UInt32) : UInt32 :=
  1 + gdNum / v.bgPerBlk + v.s_first_data_block

/-- `ext2fsGroupDescriptorRead` into the entry `i` of the cache.  The descriptor is taken at
`gdNum` descriptors from the start of the block. -/
def ext2fsGroupDescriptorRead (dev : Dev) (i : Nat) (gdNum : UInt32) (s : State v) :
    Int × State v :=
  if dev.error s.reads ≠ OK then (dev.error s.reads, { s with reads := s.reads + 1 })
  else
    let pGroupDescDisk :=
      if gdNum < v.bgPerBlk then dev.groupDesc (v.descBlk gdNum) gdNum
      else dev.behind s.reads gdNum
    (OK, { s with
      reads := s.reads + 1
      pBlkGroupDesc :=
        Function.update s.pBlkGroupDesc i (ext2fsGroupDescDiskToHost pGroupDescDisk) })

/-- The loop of `ext2fsGroupDescriptorsRead`, with `n` descriptors left. -/
def groupLoop (dev : Dev) (bgNum : UInt32) : Nat → Nat → State v → Int × State v
  | _, 0, s => (OK, s)
  | i, n + 1, s =>
    let r := ext2fsGroupDescriptorRead dev i (bgNum + UInt32.ofNat i) s
    if r.1 ≠ OK then r else groupLoop dev bgNum (i + 1) n r.2

/-- `ext2fsGroupDescriptorsRead`. -/
def ext2fsGroupDescriptorsRead (dev : Dev) (bgNum : UInt32) (s : State v) : Int × State v :=
  let nGroupDesc :=
    if bgNum + v.bgPerBlk > v.nBlkGroups then v.nBlkGroups &&& (v.bgPerBlk - 1) else v.bgPerBlk
  groupLoop dev bgNum 0 nGroupDesc.toNat { s with bgCached := bgNum }

/-- The end of `ext2fsInodeGet`: the read of the inode. -/
def inodeRead (dev : Dev) (inode : v.Ino) (blkGroup : UInt32) (s : State v) :
    Outcome × State v :=
  let place : Place :=
    { table := (s.pBlkGroupDesc blkGroup.toNat).bg_inode_table
      inodeBlk := (inode.1 - 1) >>> v.inodesPerBlk2
      off := ((inode.1 - 1) &&& (v.inodesPerBlk - 1)) <<< (v.blkSize2 - v.inodesPerBlk2) }
  (.read place (dev.error s.reads), { s with reads := s.reads + 1 })

/-- `ext2fsInodeGet`. -/
def ext2fsInodeGet (dev : Dev) (inode : v.Ino) (s : State v) : Outcome × State v :=
  let blkGroup := (inode.1 - 1) / v.s_inodes_per_group
  if blkGroup ≥ v.nBlkGroups then (.einval, s)
  else if blkGroup < s.bgCached ∨ blkGroup ≥ s.bgCached + v.bgPerBlk then
    let off := blkGroup &&& ~~~(v.bgPerBlk - 1)
    let r := ext2fsGroupDescriptorsRead dev off s
    if r.1 ≠ OK then (.descError r.1, r.2)
    else inodeRead dev inode (blkGroup &&& (v.bgPerBlk - 1)) r.2
  else inodeRead dev inode blkGroup s

/-- A lookup, with the log of its end. -/
def step (dev : Dev) (s : State v) (inode : v.Ino) : Option (State v) :=
  let r := ext2fsInodeGet dev inode s
  some { r.2 with log := (inode, r.1) :: r.2.log }

/-! ## What a lookup has to read -/

/-- The block group of an inode. -/
def Volume.group (v : Volume) (n : UInt32) : Nat := (n.toNat - 1) / v.s_inodes_per_group.toNat

/-- The group's own descriptor. -/
def ownDesc (v : Volume) (dev : Dev) (g : Nat) : EXT2FS_GROUP_DESC :=
  ext2fsGroupDescDiskToHost
    (dev.groupDesc (v.descBlk (UInt32.ofNat g)) (UInt32.ofNat (g % v.bgPerBlk.toNat)))

/-- The place of inode `n`: entry `(n - 1) % s_inodes_per_group` of the table that the
descriptor of its own group names. -/
structure Located (v : Volume) (dev : Dev) (n : UInt32) (place : Place) : Prop where
  table : place.table = (ownDesc v dev (v.group n)).bg_inode_table
  inodeBlk : place.inodeBlk.toNat =
    (n.toNat - 1) % v.s_inodes_per_group.toNat * 2 ^ v.inodeSize2.toNat / 2 ^ v.blkSize2.toNat
  off : place.off.toNat =
    (n.toNat - 1) % v.s_inodes_per_group.toNat * 2 ^ v.inodeSize2.toNat % 2 ^ v.blkSize2.toNat

/-- A lookup reads the inode at its place, or a read of the descriptors has failed. -/
def Right (v : Volume) (dev : Dev) (n : UInt32) : Outcome → Prop
  | .einval => False
  | .descError _ => True
  | .read place _ => Located v dev n place

/-! ## The three divisions -/

theorem toNat_one_shiftLeft {k : UInt32} (h : k.toNat ≤ 13) :
    ((1 : UInt32) <<< k).toNat = 2 ^ k.toNat := by
  have hpow : 2 ^ k.toNat ≤ 2 ^ 13 := Nat.pow_le_pow_right (by omega) h
  rw [UInt32.toNat_shiftLeft, Nat.mod_eq_of_lt (show k.toNat < 32 by omega), Nat.shiftLeft_eq]
  show 1 * 2 ^ k.toNat % 2 ^ 32 = _
  omega

theorem toNat_bgPerBlk (v : Volume) : v.bgPerBlk.toNat = 2 ^ v.blkSize2.toNat / 32 := by
  unfold Volume.bgPerBlk Volume.blkSize
  rw [UInt32.toNat_div, toNat_one_shiftLeft v.blkSize2_le]
  rfl

theorem bgPerBlk_bounds (v : Volume) : 32 ≤ v.bgPerBlk.toNat ∧ v.bgPerBlk.toNat ≤ 256 := by
  have hlow : 2 ^ 10 ≤ 2 ^ v.blkSize2.toNat := Nat.pow_le_pow_right (by omega) v.blkSize2_ge
  have hhigh : 2 ^ v.blkSize2.toNat ≤ 2 ^ 13 := Nat.pow_le_pow_right (by omega) v.blkSize2_le
  rw [toNat_bgPerBlk]
  omega

theorem toNat_inodesPerBlk2 (v : Volume) :
    v.inodesPerBlk2.toNat = v.blkSize2.toNat - v.inodeSize2.toNat := by
  unfold Volume.inodesPerBlk2
  exact UInt32.toNat_sub_of_le _ _ (UInt32.le_iff_toNat_le.mpr v.inodeSize2_le)

theorem toNat_pred {n : UInt32} (h : 1 ≤ n.toNat) : (n - 1).toNat = n.toNat - 1 :=
  UInt32.toNat_sub_of_le _ _ (UInt32.le_iff_toNat_le.mpr h)

/-- The block in the table, for the number of the inode on the volume. -/
theorem toNat_inodeBlk (n : v.Ino) :
    ((n.1 - 1) >>> v.inodesPerBlk2).toNat =
      (n.1.toNat - 1) / 2 ^ (v.blkSize2.toNat - v.inodeSize2.toNat) := by
  have hle := v.blkSize2_le
  rw [UInt32.toNat_shiftRight, toNat_pred n.2.1, toNat_inodesPerBlk2, Nat.shiftRight_eq_div_pow,
    Nat.mod_eq_of_lt (show v.blkSize2.toNat - v.inodeSize2.toNat < 32 by omega)]

/-- The byte in the block, for the number of the inode on the volume. -/
theorem toNat_off (n : v.Ino) :
    (((n.1 - 1) &&& (v.inodesPerBlk - 1)) <<< (v.blkSize2 - v.inodesPerBlk2)).toNat =
      (n.1.toNat - 1) % 2 ^ (v.blkSize2.toNat - v.inodeSize2.toNat) * 2 ^ v.inodeSize2.toNat := by
  have hle := v.blkSize2_le
  have hsize := v.inodeSize2_le
  have hk := toNat_inodesPerBlk2 v
  have hmask : (v.inodesPerBlk - 1).toNat = 2 ^ (v.blkSize2.toNat - v.inodeSize2.toNat) - 1 := by
    have hper : v.inodesPerBlk.toNat = 2 ^ (v.blkSize2.toNat - v.inodeSize2.toNat) := by
      unfold Volume.inodesPerBlk
      rw [toNat_one_shiftLeft (by omega), hk]
    have hpos : 0 < 2 ^ (v.blkSize2.toNat - v.inodeSize2.toNat) := Nat.pow_pos (by omega)
    rw [toNat_pred (by omega), hper]
  have hshift : (v.blkSize2 - v.inodesPerBlk2).toNat = v.inodeSize2.toNat := by
    rw [UInt32.toNat_sub_of_le _ _ (UInt32.le_iff_toNat_le.mpr (by omega)), hk]
    omega
  have hbound : (n.1.toNat - 1) % 2 ^ (v.blkSize2.toNat - v.inodeSize2.toNat) *
      2 ^ v.inodeSize2.toNat < 2 ^ 32 := by
    have hmod := Nat.mod_lt (n.1.toNat - 1)
      (show 0 < 2 ^ (v.blkSize2.toNat - v.inodeSize2.toNat) from Nat.pow_pos (by omega))
    have hmul := Nat.mul_lt_mul_of_pos_right hmod
      (show 0 < 2 ^ v.inodeSize2.toNat from Nat.pow_pos (by omega))
    rw [← Nat.pow_add, Nat.sub_add_cancel hsize] at hmul
    have hblk : 2 ^ v.blkSize2.toNat ≤ 2 ^ 13 := Nat.pow_le_pow_right (by omega) hle
    omega
  rw [UInt32.toNat_shiftLeft, UInt32.toNat_and, toNat_pred n.2.1, hmask, hshift,
    Nat.and_two_pow_sub_one_eq_mod, Nat.mod_eq_of_lt (show v.inodeSize2.toNat < 32 by omega),
    Nat.shiftLeft_eq, Nat.mod_eq_of_lt hbound]

/-- Entry `i` of a table, as a block and a byte. -/
theorem entry_block (v : Volume) (i : Nat) :
    i * 2 ^ v.inodeSize2.toNat / 2 ^ v.blkSize2.toNat =
      i / 2 ^ (v.blkSize2.toNat - v.inodeSize2.toNat) := by
  have hsplit : 2 ^ v.blkSize2.toNat =
      2 ^ (v.blkSize2.toNat - v.inodeSize2.toNat) * 2 ^ v.inodeSize2.toNat := by
    rw [← Nat.pow_add, Nat.sub_add_cancel v.inodeSize2_le]
  rw [hsplit, Nat.mul_div_mul_right _ _ (Nat.pow_pos (by omega))]

theorem entry_byte (v : Volume) (i : Nat) :
    i * 2 ^ v.inodeSize2.toNat % 2 ^ v.blkSize2.toNat =
      i % 2 ^ (v.blkSize2.toNat - v.inodeSize2.toNat) * 2 ^ v.inodeSize2.toNat := by
  have hsplit : 2 ^ v.blkSize2.toNat =
      2 ^ (v.blkSize2.toNat - v.inodeSize2.toNat) * 2 ^ v.inodeSize2.toNat := by
    rw [← Nat.pow_add, Nat.sub_add_cancel v.inodeSize2_le]
  rw [hsplit, Nat.mul_mod_mul_right]

/-! ## One lookup -/

theorem toNat_blkGroup (n : v.Ino) :
    ((n.1 - 1) / v.s_inodes_per_group).toNat = v.group n.1 := by
  rw [UInt32.toNat_div, toNat_pred n.2.1]
  rfl

/-- The place that is read is that of the inode exactly when the table is and the inode is in
the first group. -/
theorem inodeRead_right_iff {dev : Dev} {n : v.Ino} {blkGroup : UInt32} {s : State v} :
    Right v dev n.1 (inodeRead dev n blkGroup s).1 ↔
      v.group n.1 = 0 ∧ (s.pBlkGroupDesc blkGroup.toNat).bg_inode_table =
        (ownDesc v dev (v.group n.1)).bg_inode_table := by
  have hblk := toNat_inodeBlk n
  have hoff := toNat_off n
  constructor
  · intro h
    have hinodeBlk := h.inodeBlk
    have hbyte := h.off
    refine ⟨?_, h.table⟩
    rw [entry_block] at hinodeBlk
    rw [entry_byte] at hbyte
    have hdiv : (n.1.toNat - 1) / 2 ^ (v.blkSize2.toNat - v.inodeSize2.toNat) =
        (n.1.toNat - 1) % v.s_inodes_per_group.toNat /
          2 ^ (v.blkSize2.toNat - v.inodeSize2.toNat) := hblk.symm.trans hinodeBlk
    have hmod : (n.1.toNat - 1) % 2 ^ (v.blkSize2.toNat - v.inodeSize2.toNat) =
        (n.1.toNat - 1) % v.s_inodes_per_group.toNat %
          2 ^ (v.blkSize2.toNat - v.inodeSize2.toNat) :=
      Nat.eq_of_mul_eq_mul_right (Nat.pow_pos (by omega)) (hoff.symm.trans hbyte)
    -- equal quotients and remainders: the number is below the inodes of a group
    have heq : n.1.toNat - 1 = (n.1.toNat - 1) % v.s_inodes_per_group.toNat := by
      rw [← Nat.div_add_mod (n.1.toNat - 1) (2 ^ (v.blkSize2.toNat - v.inodeSize2.toNat)), hdiv,
        hmod, Nat.div_add_mod, Nat.mod_mod]
    have hlt := Nat.mod_lt (n.1.toNat - 1) v.inodes_pos
    rw [← heq] at hlt
    exact Nat.div_eq_of_lt hlt
  · rintro ⟨hgroup, htable⟩
    have hsmall : (n.1.toNat - 1) % v.s_inodes_per_group.toNat = n.1.toNat - 1 := by
      apply Nat.mod_eq_of_lt
      have hzero : (n.1.toNat - 1) / v.s_inodes_per_group.toNat = 0 := hgroup
      rw [Nat.div_eq_zero_iff] at hzero
      have hpos := v.inodes_pos
      omega
    constructor
    case table => exact htable
    case inodeBlk =>
      rw [hsmall, entry_block]
      exact hblk
    case off =>
      rw [hsmall, entry_byte]
      exact hoff

/-- Outside the first group a lookup that comes to the read of the inode reads another one,
whatever is cached. -/
theorem lookup_outside_first_group {dev : Dev} {n : v.Ino} {s : State v}
    (hgroup : v.group n.1 ≠ 0) (h : Right v dev n.1 (ext2fsInodeGet dev n s).1) :
    ∃ error, (ext2fsInodeGet dev n s).1 = .descError error := by
  unfold ext2fsInodeGet at h ⊢
  dsimp only at h ⊢
  split at h
  · exact h.elim
  · rename_i hrange
    rw [if_neg hrange]
    split at h
    · rename_i hmiss
      rw [if_pos hmiss]
      split at h
      · rename_i herror
        rw [if_pos herror]
        exact ⟨_, rfl⟩
      · exact absurd (inodeRead_right_iff.mp h).1 hgroup
    · exact absurd (inodeRead_right_iff.mp h).1 hgroup

/-! ## Lookups in the first group -/

/-- The cache has the descriptor of the first group, and every lookup so far was right. -/
structure FirstGroup (dev : Dev) (s : State v) : Prop where
  bgCached : s.bgCached = 0
  desc : s.pBlkGroupDesc 0 = ownDesc v dev 0
  log : ∀ e ∈ s.log, Right v dev e.1.1 e.2

theorem groupLoop_keeps {dev : Dev} {bgNum : UInt32} {i n : Nat} {s s' : State v}
    (hi : 0 < i) (h : groupLoop dev bgNum i n s = (OK, s')) :
    s'.bgCached = s.bgCached ∧ s'.pBlkGroupDesc 0 = s.pBlkGroupDesc 0 ∧ s'.log = s.log := by
  induction n generalizing i s with
  | zero =>
    simp only [groupLoop, Prod.mk.injEq, true_and] at h
    rw [h]
    exact ⟨rfl, rfl, rfl⟩
  | succ n ih =>
    rw [groupLoop] at h
    unfold ext2fsGroupDescriptorRead at h
    by_cases herror : dev.error s.reads ≠ OK
    · simp [herror] at h
    · simp only [if_neg herror, ne_eq, not_true_eq_false, if_false] at h
      have hrest := ih (Nat.succ_pos i) h
      rw [hrest.1, hrest.2.1, hrest.2.2]
      refine ⟨rfl, ?_, rfl⟩
      exact Function.update_of_ne (by omega) _ _

/-- A mount that succeeds has cached the descriptor of the first group. -/
theorem mount_firstGroup {dev : Dev} {s s' : State v} (hlog : s.log = [])
    (h : ext2fsGroupDescriptorsRead dev 0 s = (OK, s')) : FirstGroup dev s' := by
  obtain ⟨n, hn⟩ : ∃ n, (if (0 : UInt32) + v.bgPerBlk > v.nBlkGroups then
      v.nBlkGroups &&& (v.bgPerBlk - 1) else v.bgPerBlk).toNat = n + 1 := by
    have hbounds := bgPerBlk_bounds v
    have hpos := v.groups_pos
    have hpow : ∃ k, v.bgPerBlk.toNat = 2 ^ k := by
      refine ⟨v.blkSize2.toNat - 5, ?_⟩
      have hsplit : 2 ^ v.blkSize2.toNat = 2 ^ (v.blkSize2.toNat - 5) * 2 ^ 5 := by
        rw [← Nat.pow_add, Nat.sub_add_cancel (le_trans (by omega) v.blkSize2_ge)]
      rw [toNat_bgPerBlk, hsplit]
      omega
    obtain ⟨k, hk⟩ := hpow
    apply Nat.exists_eq_succ_of_ne_zero
    split
    · rename_i hgt
      rw [gt_iff_lt, UInt32.zero_add, UInt32.lt_iff_toNat_lt] at hgt
      rw [UInt32.toNat_and, toNat_pred (by omega), hk, Nat.and_two_pow_sub_one_eq_mod,
        Nat.mod_eq_of_lt (by omega)]
      omega
    · omega
  unfold ext2fsGroupDescriptorsRead at h
  dsimp only at h
  rw [hn, groupLoop] at h
  unfold ext2fsGroupDescriptorRead at h
  by_cases herror : dev.error s.reads ≠ OK
  · simp [herror] at h
  · simp only [if_neg herror, ne_eq, not_true_eq_false, if_false] at h
    obtain ⟨hcached, hdesc, hlog'⟩ := groupLoop_keeps (Nat.succ_pos 0) h
    constructor
    case bgCached => exact hcached
    case desc =>
      have hlt : (0 : UInt32) + UInt32.ofNat 0 < v.bgPerBlk := by
        have hbounds := bgPerBlk_bounds v
        rw [UInt32.lt_iff_toNat_lt]
        show 0 < v.bgPerBlk.toNat
        omega
      rw [hdesc]
      dsimp only
      rw [Function.update_self, if_pos hlt, ownDesc, Nat.zero_mod]
      rfl
    case log =>
      intro e he
      rw [hlog', hlog] at he
      cases he

/-- A lookup in the first group is a hit, and right. -/
theorem FirstGroup.step {dev : Dev} {s s' : State v} {n : v.Ino} (h : FirstGroup dev s)
    (hgroup : v.group n.1 = 0) (hs : step dev s n = some s') : FirstGroup dev s' := by
  have hblkGroup : ((n.1 - 1) / v.s_inodes_per_group).toNat = 0 :=
    (toNat_blkGroup n).trans hgroup
  have hget : ext2fsInodeGet dev n s =
      inodeRead dev n ((n.1 - 1) / v.s_inodes_per_group) s := by
    have hpos := v.groups_pos
    have hbounds := bgPerBlk_bounds v
    unfold ext2fsInodeGet
    dsimp only
    rw [if_neg, if_neg]
    · rw [h.bgCached, ge_iff_le, UInt32.zero_add, UInt32.lt_iff_toNat_lt,
        UInt32.le_iff_toNat_le, hblkGroup]
      show ¬ (0 < 0 ∨ v.bgPerBlk.toNat ≤ 0)
      omega
    · rw [ge_iff_le, UInt32.le_iff_toNat_le, hblkGroup]
      omega
  have hright : Right v dev n.1 (inodeRead dev n ((n.1 - 1) / v.s_inodes_per_group) s).1 := by
    rw [inodeRead_right_iff]
    refine ⟨hgroup, ?_⟩
    rw [hblkGroup, h.desc, hgroup]
  unfold Ext2InodeGet.step at hs
  dsimp only at hs
  rw [hget, Option.some.injEq] at hs
  rw [← hs]
  constructor
  case bgCached => exact h.bgCached
  case desc => exact h.desc
  case log =>
    intro e he
    rcases List.mem_cons.mp he with rfl | he
    · exact hright
    · exact h.log e he

/-- The inode is in the first group. -/
def InFirstGroup (v : Volume) (_ : State v) (n : v.Ino) : Prop := v.group n.1 = 0

/-- From a mount on, as long as the inodes looked up are in the first group, every lookup reads
the inode at its place, in whatever order they come and whichever reads fail.  A lookup of any
other inode is never right, but for the failed read of a descriptor. -/
theorem lookups_right (v : Volume) (dev : Dev) :
    (∀ (s₀ s t : State v) (inodes : List v.Ino), s₀.log = [] →
      ext2fsGroupDescriptorsRead dev 0 s₀ = (OK, s) →
      AllSteps (step dev) (InFirstGroup v) s inodes → exec (step dev) s inodes = some t →
      ∀ e ∈ t.log, Right v dev e.1.1 e.2) ∧
    ∀ (s : State v) (n : v.Ino), v.group n.1 ≠ 0 →
      Right v dev n.1 (ext2fsInodeGet dev n s).1 →
      ∃ error, (ext2fsInodeGet dev n s).1 = .descError error := by
  constructor
  · intro s₀ s t inodes hlog hmount hall hrun
    have hfinal : FirstGroup dev t := by
      refine exec_invariant_of (I := FirstGroup dev) ?_ (mount_firstGroup hlog hmount) hall hrun
      intro s n s' h hgroup hs
      exact h.step hgroup hs
    exact hfinal.log
  · intro s n hgroup h
    exact lookup_outside_first_group hgroup h

/-- Two groups of eight inodes of 128 bytes, with blocks of 1024 bytes. -/
def smallVolume : Volume where
  s_inodes_count := 16
  s_inodes_per_group := 8
  s_first_data_block := 1
  nBlkGroups := 2
  blkSize2 := 10
  inodeSize2 := 7
  inodes_pos := by decide
  groups_pos := by decide
  inodes_le := by decide
  blkSize2_ge := by decide
  blkSize2_le := by decide
  inodeSize2_le := by decide

/-- A device whose reads succeed. -/
def goodDev : Dev where
  groupDesc := fun _ _ => default
  behind := fun _ _ => default
  error := fun _ => OK

def unmounted : State smallVolume where
  bgCached := 0
  pBlkGroupDesc := fun _ => default
  reads := 0
  log := []

/-- The state after the mount. -/
def mounted : State smallVolume := (ext2fsGroupDescriptorsRead goodDev 0 unmounted).2

theorem mount_ok : ext2fsGroupDescriptorsRead goodDev 0 unmounted = (OK, mounted) :=
  Prod.ext (by decide) rfl

/-- The inode of the root directory. -/
def rootInode : smallVolume.Ino := ⟨2, by decide⟩

theorem lookups_right_root :
    Right smallVolume goodDev 2 (ext2fsInodeGet goodDev rootInode mounted).1 := by
  have hall : AllSteps (step goodDev) (InFirstGroup smallVolume) mounted [rootInode] := by
    refine allSteps_singleton.mpr ?_
    show smallVolume.group 2 = 0
    decide
  exact (lookups_right smallVolume goodDev).1 unmounted mounted _ [rootInode] rfl mount_ok hall
    rfl (rootInode, (ext2fsInodeGet goodDev rootInode mounted).1) List.mem_cons_self

/-- The first inode of the second group. -/
def groupInode : smallVolume.Ino := ⟨9, by decide⟩

/-- It is looked for in the second block of its table. -/
theorem lookups_not_right :
    ¬ ∀ (v : Volume) (dev : Dev) (s₀ s t : State v) (inodes : List v.Ino), s₀.log = [] →
      ext2fsGroupDescriptorsRead dev 0 s₀ = (OK, s) → exec (step dev) s inodes = some t →
      ∀ e ∈ t.log, Right v dev e.1.1 e.2 := by
  intro h
  have hright := h smallVolume goodDev unmounted mounted _ [groupInode] rfl mount_ok rfl
    (groupInode, (ext2fsInodeGet goodDev groupInode mounted).1) List.mem_cons_self
  have hplace : (ext2fsInodeGet goodDev groupInode mounted).1 = .read ⟨0, 1, 0⟩ OK := by decide
  have hgroup : smallVolume.group groupInode.1 ≠ 0 := by decide
  obtain ⟨error, herror⟩ := lookup_outside_first_group hgroup hright
  rw [hplace] at herror
  cases herror

end Vmx.Ext2InodeGet
