import Vmx.Fs.Ext2ConvLib

/-!
# The conversions of the ext2 filesystem are inverse to each other

The integers first: the bytes of an integer give it back, and so does the integer its bytes.
A structure is then converted field by field.  `Fits` says which structures in memory have a
place on the disk for what they hold.
-/

namespace Vmx.Ext2Conv

/-! ## Integers -/

theorem toNat_diskToHost16 (d : Vector UInt8 2) (i0 : 0 < 2) (i1 : 1 < 2) :
    (ext2fsDiskToHost16 d).toNat = d[0].toNat + 256 * d[1].toNat := by
  have h0 := d[0].toNat_lt
  have h1 := d[1].toNat_lt
  simp only [ext2fsDiskToHost16, UInt32.toNat_add, UInt32.toNat_shiftLeft, UInt8.toNat_toUInt32,
    Nat.shiftLeft_eq, UInt32.toNat_ofNat, Nat.reducePow, Nat.reduceMod]
  omega

theorem toNat_diskToHost32 (d : Vector UInt8 4) (i0 : 0 < 4) (i1 : 1 < 4) (i2 : 2 < 4)
    (i3 : 3 < 4) :
    (ext2fsDiskToHost32 d).toNat =
      d[0].toNat + 256 * d[1].toNat + 65536 * d[2].toNat + 16777216 * d[3].toNat := by
  have h0 := d[0].toNat_lt
  have h1 := d[1].toNat_lt
  have h2 := d[2].toNat_lt
  have h3 := d[3].toNat_lt
  simp only [ext2fsDiskToHost32, UInt32.toNat_add, UInt32.toNat_shiftLeft, UInt8.toNat_toUInt32,
    Nat.shiftLeft_eq, UInt32.toNat_ofNat, Nat.reducePow, Nat.reduceMod]
  omega

/-- A byte of an integer. -/
theorem toNat_byte (x : UInt32) {n : UInt32} (k : Nat) (hn : n.toNat = k) (hk : k < 32) :
    (x >>> n).toUInt8.toNat = x.toNat / 2 ^ k % 256 := by
  rw [UInt32.toNat_toUInt8, UInt32.toNat_shiftRight, hn, Nat.mod_eq_of_lt hk,
    Nat.shiftRight_eq_div_pow]

theorem toNat_diskToHost16_hostToDisk16 (x : UInt32) :
    (ext2fsDiskToHost16 (ext2fsHostToDisk16 x)).toNat = x.toNat % 65536 := by
  rw [toNat_diskToHost16 _ (by decide) (by decide)]
  show x.toUInt8.toNat + 256 * (x >>> 8).toUInt8.toNat = _
  rw [UInt32.toNat_toUInt8, toNat_byte x 8 rfl (by decide)]
  omega

@[simp] theorem diskToHost32_hostToDisk32 (x : UInt32) :
    ext2fsDiskToHost32 (ext2fsHostToDisk32 x) = x := by
  apply UInt32.toNat_inj.1
  have hlt := x.toNat_lt
  rw [toNat_diskToHost32 _ (by decide) (by decide) (by decide) (by decide)]
  show x.toUInt8.toNat + 256 * (x >>> 8).toUInt8.toNat + 65536 * (x >>> 16).toUInt8.toNat +
    16777216 * (x >>> 24).toUInt8.toNat = _
  rw [UInt32.toNat_toUInt8, toNat_byte x 8 rfl (by decide), toNat_byte x 16 rfl (by decide),
    toNat_byte x 24 rfl (by decide)]
  omega

@[simp] theorem diskToHost16_hostToDisk16 (x : UInt16) :
    (ext2fsDiskToHost16 (ext2fsHostToDisk16 x.toUInt32)).toUInt16 = x := by
  apply UInt16.toNat_inj.1
  have hlt := x.toNat_lt
  rw [UInt32.toNat_toUInt16, toNat_diskToHost16_hostToDisk16, UInt16.toNat_toUInt32]
  omega

theorem hostToDisk16_diskToHost16 (d : Vector UInt8 2) :
    ext2fsHostToDisk16 (ext2fsDiskToHost16 d) = d := by
  have h0 := d[0].toNat_lt
  have h1 := d[1].toNat_lt
  have hword := toNat_diskToHost16 d (by decide) (by decide)
  apply Vector.ext
  intro i hi
  apply UInt8.toNat_inj.1
  obtain rfl | rfl : i = 0 ∨ i = 1 := by omega
  · show (ext2fsDiskToHost16 d).toUInt8.toNat = _
    rw [UInt32.toNat_toUInt8]
    omega
  · show (ext2fsDiskToHost16 d >>> 8).toUInt8.toNat = _
    rw [toNat_byte _ 8 rfl (by decide)]
    omega

@[simp] theorem hostToDisk16_toUInt16 (d : Vector UInt8 2) :
    ext2fsHostToDisk16 (ext2fsDiskToHost16 d).toUInt16.toUInt32 = d := by
  have hword : (ext2fsDiskToHost16 d).toUInt16.toUInt32 = ext2fsDiskToHost16 d := by
    apply UInt32.toNat_inj.1
    have h0 := d[0].toNat_lt
    have h1 := d[1].toNat_lt
    rw [UInt16.toNat_toUInt32, UInt32.toNat_toUInt16,
      toNat_diskToHost16 _ (by decide) (by decide)]
    omega
  rw [hword, hostToDisk16_diskToHost16]

@[simp] theorem hostToDisk32_diskToHost32 (d : Vector UInt8 4) :
    ext2fsHostToDisk32 (ext2fsDiskToHost32 d) = d := by
  have h0 := d[0].toNat_lt
  have h1 := d[1].toNat_lt
  have h2 := d[2].toNat_lt
  have h3 := d[3].toNat_lt
  have hword := toNat_diskToHost32 d (by decide) (by decide) (by decide) (by decide)
  apply Vector.ext
  intro i hi
  apply UInt8.toNat_inj.1
  obtain rfl | rfl | rfl | rfl : i = 0 ∨ i = 1 ∨ i = 2 ∨ i = 3 := by omega
  · show (ext2fsDiskToHost32 d).toUInt8.toNat = _
    rw [UInt32.toNat_toUInt8]
    omega
  · show (ext2fsDiskToHost32 d >>> 8).toUInt8.toNat = _
    rw [toNat_byte _ 8 rfl (by decide)]
    omega
  · show (ext2fsDiskToHost32 d >>> 16).toUInt8.toNat = _
    rw [toNat_byte _ 16 rfl (by decide)]
    omega
  · show (ext2fsDiskToHost32 d >>> 24).toUInt8.toNat = _
    rw [toNat_byte _ 24 rfl (by decide)]
    omega

@[simp] theorem map_diskToHost32 {n : Nat} (v : Vector UInt32 n) :
    (v.map ext2fsHostToDisk32).map ext2fsDiskToHost32 = v := by
  apply Vector.ext
  intro i hi
  rw [Vector.getElem_map, Vector.getElem_map, diskToHost32_hostToDisk32]

@[simp] theorem map_hostToDisk32 {n : Nat} (v : Vector (Vector UInt8 4) n) :
    (v.map ext2fsDiskToHost32).map ext2fsHostToDisk32 = v := by
  apply Vector.ext
  intro i hi
  rw [Vector.getElem_map, Vector.getElem_map, hostToDisk32_diskToHost32]

/-! ## Directory entries -/

/-- The fields fit 16, 12 and 4 bits. -/
def EXT2FS_DIR_ENTRY.Fits (e : EXT2FS_DIR_ENTRY) : Prop :=
  e.rec_len < 65536 ∧ e.name_len < 4096 ∧ e.file_type < 16

instance (e : EXT2FS_DIR_ENTRY) : Decidable e.Fits := inferInstanceAs (Decidable (_ ∧ _ ∧ _))

/-- Bits 4 to 7 of a byte. -/
theorem and_240 (a b : Nat) (ha : a < 16) (hb : b < 16) : (16 * a + b) &&& 240 = 16 * a := by
  have h : ∀ a b : Fin 16, (16 * a.val + b.val) &&& 240 = 16 * a.val := by decide
  exact h ⟨a, ha⟩ ⟨b, hb⟩

theorem or_high (a b : Nat) (hb : b < 16) : b ||| 16 * a = 16 * a + b := by
  rw [Nat.or_comm]
  exact (Nat.two_pow_add_eq_or_of_lt (i := 4) hb a).symm

theorem and_15 (a : Nat) : a &&& 15 = a % 16 := Nat.and_two_pow_sub_one_eq_mod a 4

/-- The low half of `file_type` is the type, and the high half is bits 8 to 11 of the length. -/
theorem toNat_file_type (e : EXT2FS_DIR_ENTRY) (d : EXT2FS_DIR_ENTRY_DISK)
    (hlen : e.name_len.toNat < 4096) (htype : e.file_type.toNat < 16) :
    (ext2fsDirEntryHostToDisk e d).file_type.toNat =
      16 * (e.name_len.toNat / 256) + e.file_type.toNat := by
  have hhigh : (e.name_len.toNat / 16) &&& 240 = 16 * (e.name_len.toNat / 256) := by
    rw [← and_240 (e.name_len.toNat / 256) (e.name_len.toNat / 16 % 16) (by omega) (by omega)]
    congr 1
    omega
  show (((e.file_type &&& (0x0f : UInt32)) |||
    ((e.name_len >>> 4) &&& (0xf0 : UInt32))).toUInt8).toNat = _
  rw [UInt32.toNat_toUInt8, UInt32.toNat_or, UInt32.toNat_and, UInt32.toNat_and,
    UInt32.toNat_shiftRight, Nat.shiftRight_eq_div_pow]
  show ((e.file_type.toNat &&& 15) ||| (e.name_len.toNat / 16 &&& 240)) % 256 = _
  rw [hhigh, and_15, Nat.mod_eq_of_lt htype, or_high _ _ htype]
  omega

theorem dirEntry_host (e : EXT2FS_DIR_ENTRY) (d : EXT2FS_DIR_ENTRY_DISK) (he : e.Fits) :
    ext2fsDirEntryDiskToHost (ext2fsDirEntryHostToDisk e d) = e := by
  obtain ⟨hrec, hlen, htype⟩ := he
  have hrec' : e.rec_len.toNat < 65536 := hrec
  have hlen' : e.name_len.toNat < 4096 := hlen
  have htype' : e.file_type.toNat < 16 := htype
  have hft := toNat_file_type e d hlen' htype'
  obtain ⟨ft, hft_eq⟩ : ∃ ft, ft = (ext2fsDirEntryHostToDisk e d).file_type := ⟨_, rfl⟩
  rw [← hft_eq] at hft
  have hrecEq : ext2fsDiskToHost16 (ext2fsHostToDisk16 e.rec_len) = e.rec_len := by
    apply UInt32.toNat_inj.1
    rw [toNat_diskToHost16_hostToDisk16]
    omega
  have hlenEq : e.name_len.toUInt8.toUInt32 + ((ft.toUInt32 &&& 0xf0) <<< 4) = e.name_len := by
    apply UInt32.toNat_inj.1
    have hand : ft.toNat &&& 240 = 16 * (e.name_len.toNat / 256) := by
      rw [hft]
      exact and_240 _ _ (by omega) htype'
    rw [UInt32.toNat_add, UInt32.toNat_shiftLeft, UInt32.toNat_and, UInt8.toNat_toUInt32,
      UInt8.toNat_toUInt32, UInt32.toNat_toUInt8, Nat.shiftLeft_eq]
    show (e.name_len.toNat % 256 + (ft.toNat &&& 240) * 16 % 4294967296) % 4294967296 = _
    rw [hand]
    omega
  have htypeEq : ft.toUInt32 &&& 0x0f = e.file_type := by
    apply UInt32.toNat_inj.1
    rw [UInt32.toNat_and, UInt8.toNat_toUInt32]
    show ft.toNat &&& 15 = _
    rw [and_15, hft]
    omega
  show EXT2FS_DIR_ENTRY.mk (ext2fsDiskToHost32 (ext2fsHostToDisk32 e.inode))
    (ext2fsDiskToHost16 (ext2fsHostToDisk16 e.rec_len))
    (e.name_len.toUInt8.toUInt32 +
      (((ext2fsDirEntryHostToDisk e d).file_type.toUInt32 &&& 0xf0) <<< 4))
    ((ext2fsDirEntryHostToDisk e d).file_type.toUInt32 &&& 0x0f) = e
  rw [← hft_eq, diskToHost32_hostToDisk32, hrecEq, hlenEq, htypeEq]

/-- The name is not converted: it stays that of the entry that is written. -/
theorem dirEntry_disk (d d' : EXT2FS_DIR_ENTRY_DISK) :
    ext2fsDirEntryHostToDisk (ext2fsDirEntryDiskToHost d) d' = { d with name := d'.name } := by
  obtain ⟨e, he⟩ : ∃ e, e = ext2fsDirEntryDiskToHost d := ⟨_, rfl⟩
  have hlow := d.name_len.toNat_lt
  have hhigh := d.file_type.toNat_lt
  have hand : d.file_type.toNat &&& 240 = 16 * (d.file_type.toNat / 16) := by
    rw [← and_240 (d.file_type.toNat / 16) (d.file_type.toNat % 16) (by omega) (by omega)]
    congr 1
    omega
  have hlen : e.name_len.toNat = d.name_len.toNat + 256 * (d.file_type.toNat / 16) := by
    rw [he, ext2fsDirEntryDiskToHost, UInt32.toNat_add, UInt32.toNat_shiftLeft, UInt32.toNat_and,
      UInt8.toNat_toUInt32, UInt8.toNat_toUInt32, Nat.shiftLeft_eq]
    show (d.name_len.toNat + (d.file_type.toNat &&& 240) * 16 % 4294967296) % 4294967296 = _
    rw [hand]
    omega
  have htype : e.file_type.toNat = d.file_type.toNat % 16 := by
    rw [he, ext2fsDirEntryDiskToHost, UInt32.toNat_and, UInt8.toNat_toUInt32]
    exact and_15 _
  have hft : (ext2fsDirEntryHostToDisk e d').file_type = d.file_type := by
    apply UInt8.toNat_inj.1
    rw [toNat_file_type e d' (by omega) (by omega)]
    omega
  have hnl : e.name_len.toUInt8 = d.name_len := by
    apply UInt8.toNat_inj.1
    rw [UInt32.toNat_toUInt8]
    omega
  show EXT2FS_DIR_ENTRY_DISK.mk (ext2fsHostToDisk32 (ext2fsDiskToHost32 d.inode))
    (ext2fsHostToDisk16 (ext2fsDiskToHost16 d.rec_len))
    (ext2fsDirEntryDiskToHost d).name_len.toUInt8
    (ext2fsDirEntryHostToDisk (ext2fsDirEntryDiskToHost d) d').file_type d'.name = _
  rw [← he, hostToDisk32_diskToHost32, hostToDisk16_diskToHost16, hnl, hft]

/-! ## Inodes -/

/-- In the dynamic revision the place of `i_dir_acl` has the high half of the size.  In any other
revision the size has 32 bits. -/
def EXT2FS_INODE_HOST.Fits (s_rev_level : UInt32) (i : EXT2FS_INODE_HOST) : Prop :=
  if s_rev_level = EXT2FS_DYNAMIC_REV then i.i_dir_acl = 0 else i.i_size < 4294967296

instance (s_rev_level : UInt32) (i : EXT2FS_INODE_HOST) : Decidable (i.Fits s_rev_level) := by
  unfold EXT2FS_INODE_HOST.Fits
  infer_instance

/-- A size that its low 32 bits and the rest make up. -/
theorem size_halves (x : UInt64) :
    ((x >>> 32).toUInt32.toUInt64 <<< 32) + x.toUInt32.toUInt64 = x := by
  apply UInt64.toNat_inj.1
  have hlt := x.toNat_lt
  rw [UInt64.toNat_add, UInt64.toNat_shiftLeft, UInt32.toNat_toUInt64, UInt32.toNat_toUInt64,
    UInt64.toNat_toUInt32, UInt64.toNat_toUInt32, UInt64.toNat_shiftRight, Nat.shiftLeft_eq,
    Nat.shiftRight_eq_div_pow]
  show (x.toNat / 4294967296 % 4294967296 * 4294967296 % 18446744073709551616 +
    x.toNat % 4294967296) % 18446744073709551616 = _
  omega

theorem size_low (hi lo : UInt32) : ((hi.toUInt64 <<< 32) + lo.toUInt64).toUInt32 = lo := by
  apply UInt32.toNat_inj.1
  have h1 := hi.toNat_lt
  have h2 := lo.toNat_lt
  rw [UInt64.toNat_toUInt32, UInt64.toNat_add, UInt64.toNat_shiftLeft, UInt32.toNat_toUInt64,
    UInt32.toNat_toUInt64, Nat.shiftLeft_eq]
  show (hi.toNat * 4294967296 % 18446744073709551616 + lo.toNat) % 18446744073709551616 %
    4294967296 = _
  omega

theorem size_high (hi lo : UInt32) :
    (((hi.toUInt64 <<< 32) + lo.toUInt64) >>> 32).toUInt32 = hi := by
  apply UInt32.toNat_inj.1
  have h1 := hi.toNat_lt
  have h2 := lo.toNat_lt
  rw [UInt64.toNat_toUInt32, UInt64.toNat_shiftRight, UInt64.toNat_add, UInt64.toNat_shiftLeft,
    UInt32.toNat_toUInt64, UInt32.toNat_toUInt64, Nat.shiftLeft_eq, Nat.shiftRight_eq_div_pow]
  show (hi.toNat * 4294967296 % 18446744073709551616 + lo.toNat) % 18446744073709551616 /
    4294967296 % 4294967296 = _
  omega

theorem size_narrow (x : UInt64) (hx : x < 4294967296) : x.toUInt32.toUInt64 = x := by
  apply UInt64.toNat_inj.1
  have hlt : x.toNat < 4294967296 := hx
  rw [UInt32.toNat_toUInt64, UInt64.toNat_toUInt32]
  omega

theorem inode_host (s_rev_level : UInt32) (i : EXT2FS_INODE_HOST) (hi : i.Fits s_rev_level) :
    ext2fsInodeDiskToHost s_rev_level (ext2fsInodeHostToDisk s_rev_level i) = i := by
  unfold EXT2FS_INODE_HOST.Fits at hi
  by_cases hrev : s_rev_level = EXT2FS_DYNAMIC_REV
  · rw [if_pos hrev] at hi
    simp only [ext2fsInodeDiskToHost, ext2fsInodeHostToDisk, if_pos hrev, size_halves,
      diskToHost32_hostToDisk32, diskToHost16_hostToDisk16, map_diskToHost32]
    rw [← hi]
  · rw [if_neg hrev] at hi
    simp only [ext2fsInodeDiskToHost, ext2fsInodeHostToDisk, if_neg hrev, size_narrow _ hi,
      diskToHost32_hostToDisk32, diskToHost16_hostToDisk16, map_diskToHost32]

theorem inode_disk (s_rev_level : UInt32) (d : EXT2FS_INODE_DISK) :
    ext2fsInodeHostToDisk s_rev_level (ext2fsInodeDiskToHost s_rev_level d) = d := by
  by_cases hrev : s_rev_level = EXT2FS_DYNAMIC_REV
  · simp only [ext2fsInodeDiskToHost, ext2fsInodeHostToDisk, if_pos hrev, size_low, size_high,
      hostToDisk32_diskToHost32, hostToDisk16_toUInt16, map_hostToDisk32]
  · simp only [ext2fsInodeDiskToHost, ext2fsInodeHostToDisk, if_neg hrev, UInt32.toUInt32_toUInt64,
      hostToDisk32_diskToHost32, hostToDisk16_toUInt16, map_hostToDisk32]

/-! ## Group descriptors and the superblock -/

theorem groupDesc_host (g : EXT2FS_GROUP_DESC) :
    ext2fsGroupDescDiskToHost (ext2fsGroupDescHostToDisk g) = g := by
  simp only [ext2fsGroupDescDiskToHost, ext2fsGroupDescHostToDisk, diskToHost32_hostToDisk32,
    diskToHost16_hostToDisk16, map_diskToHost32]

theorem groupDesc_disk (d : EXT2FS_GROUP_DESC_DISK) :
    ext2fsGroupDescHostToDisk (ext2fsGroupDescDiskToHost d) = d := by
  simp only [ext2fsGroupDescDiskToHost, ext2fsGroupDescHostToDisk, hostToDisk32_diskToHost32,
    hostToDisk16_toUInt16, map_hostToDisk32]

theorem superBlock_host (s : EXT2FS_SUPERBLOCK) :
    ext2fsSuperBlockDiskToHost (ext2fsSuperBlockHostToDisk s) = s := by
  simp only [ext2fsSuperBlockDiskToHost, ext2fsSuperBlockHostToDisk, diskToHost32_hostToDisk32,
    diskToHost16_hostToDisk16]

theorem superBlock_disk (d : EXT2FS_SUPERBLOCK_DISK) :
    ext2fsSuperBlockHostToDisk (ext2fsSuperBlockDiskToHost d) = d := by
  simp only [ext2fsSuperBlockDiskToHost, ext2fsSuperBlockHostToDisk, hostToDisk32_diskToHost32,
    hostToDisk16_toUInt16]

/-! ## All structures -/

/-- What is in memory, and fits, comes back from the disk, and what is on the disk comes back from
memory.  The name of a directory entry is not converted, and stays that of the entry that is
written. -/
theorem conversions_round_trip (s_rev_level : UInt32) (entry : EXT2FS_DIR_ENTRY)
    (hentry : entry.Fits) (inode : EXT2FS_INODE_HOST) (hinode : inode.Fits s_rev_level)
    (group : EXT2FS_GROUP_DESC) (super : EXT2FS_SUPERBLOCK) (entryDisk into : EXT2FS_DIR_ENTRY_DISK)
    (inodeDisk : EXT2FS_INODE_DISK) (groupDisk : EXT2FS_GROUP_DESC_DISK)
    (superDisk : EXT2FS_SUPERBLOCK_DISK) :
    (ext2fsDirEntryDiskToHost (ext2fsDirEntryHostToDisk entry into) = entry ∧
      ext2fsInodeDiskToHost s_rev_level (ext2fsInodeHostToDisk s_rev_level inode) = inode ∧
      ext2fsGroupDescDiskToHost (ext2fsGroupDescHostToDisk group) = group ∧
      ext2fsSuperBlockDiskToHost (ext2fsSuperBlockHostToDisk super) = super) ∧
    ext2fsDirEntryHostToDisk (ext2fsDirEntryDiskToHost entryDisk) into =
      { entryDisk with name := into.name } ∧
    ext2fsInodeHostToDisk s_rev_level (ext2fsInodeDiskToHost s_rev_level inodeDisk) = inodeDisk ∧
    ext2fsGroupDescHostToDisk (ext2fsGroupDescDiskToHost groupDisk) = groupDisk ∧
    ext2fsSuperBlockHostToDisk (ext2fsSuperBlockDiskToHost superDisk) = superDisk :=
  ⟨⟨dirEntry_host entry into hentry, inode_host s_rev_level inode hinode, groupDesc_host group,
      superBlock_host super⟩,
    dirEntry_disk entryDisk into, inode_disk s_rev_level inodeDisk, groupDesc_disk groupDisk,
    superBlock_disk superDisk⟩

/-- An entry with a name of 300 bytes and a file of 5 GB on a volume of the dynamic revision. -/
theorem conversions_round_trip_large :
    ext2fsDirEntryDiskToHost (ext2fsDirEntryHostToDisk ⟨12, 308, 300, 1⟩ default) =
        ⟨12, 308, 300, 1⟩ ∧
      ext2fsInodeDiskToHost 1 (ext2fsInodeHostToDisk 1 { (default : EXT2FS_INODE_HOST) with
        i_mode := 0x81a4, i_size := 5368709120 }) =
          { (default : EXT2FS_INODE_HOST) with i_mode := 0x81a4, i_size := 5368709120 } := by
  have h := conversions_round_trip 1 ⟨12, 308, 300, 1⟩ (by decide)
    { (default : EXT2FS_INODE_HOST) with i_mode := 0x81a4, i_size := 5368709120 } (by decide)
    default default default default default default default
  exact ⟨h.1.1, h.1.2.1⟩

end Vmx.Ext2Conv
