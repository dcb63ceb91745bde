import Mathlib.Data.Nat.Bitwise

/-!
# `ext2ConvLib`: the structures of the ext2 filesystem on the disk and in memory

A structure on the disk has its integers as bytes, the low one first.  The routines convert one
structure each.  What converts to the disk writes every byte of the structure, but for the name
of a directory entry, which is not part of the structure in memory.
-/

namespace Vmx.Ext2Conv

def EXT2_N_BLKS : Nat := 15

/-- The revision with 64-bit file sizes. -/
def EXT2FS_DYNAMIC_REV : UInt32 := 1

/-! ## Integers -/

/-- `ext2fsDiskToHost16`. -/
def ext2fsDiskToHost16 (pDisk : Vector UInt8 2) : UInt32 :=
  pDisk[0].toUInt32 + (pDisk[1].toUInt32 <<< 8)

/-- `ext2fsDiskToHost32`. -/
def ext2fsDiskToHost32 (pDisk : Vector UInt8 4) : UInt32 :=
  pDisk[0].toUInt32 + (pDisk[1].toUInt32 <<< 8) + (pDisk[2].toUInt32 <<< 16) +
    (pDisk[3].toUInt32 <<< 24)

/-- `ext2fsHostToDisk16`. -/
def ext2fsHostToDisk16 (host : UInt32) : Vector UInt8 2 :=
  #v[host.toUInt8, (host >>> 8).toUInt8]

/-- `ext2fsHostToDisk32`. -/
def ext2fsHostToDisk32 (host : UInt32) : Vector UInt8 4 :=
  #v[host.toUInt8, (host >>> 8).toUInt8, (host >>> 16).toUInt8, (host >>> 24).toUInt8]

/-! ## Directory entries -/

/-- A directory entry on the disk, with the bytes of its name. -/
structure EXT2FS_DIR_ENTRY_DISK where
  inode : Vector UInt8 4
  rec_len : Vector UInt8 2
  (name_len file_type : UInt8)
  name : List UInt8
  deriving DecidableEq, Repr, Inhabited

/-- A directory entry in memory. -/
structure EXT2FS_DIR_ENTRY where
  (inode rec_len name_len file_type : UInt32)
  deriving DecidableEq, Repr, Inhabited

/-- `ext2fsDirEntryDiskToHost`.  The high half of `file_type` has bits 8 to 11 of the length. -/
def ext2fsDirEntryDiskToHost (pDisk : EXT2FS_DIR_ENTRY_DISK) : EXT2FS_DIR_ENTRY where
  inode := ext2fsDiskToHost32 pDisk.inode
  rec_len := ext2fsDiskToHost16 pDisk.rec_len
  name_len := pDisk.name_len.toUInt32 + ((pDisk.file_type.toUInt32 &&& 0xf0) <<< 4)
  file_type := pDisk.file_type.toUInt32 &&& 0x0f

/-- `ext2fsDirEntryHostToDisk`, into the entry `pDisk`. -/
def ext2fsDirEntryHostToDisk (pHost : EXT2FS_DIR_ENTRY) (pDisk : EXT2FS_DIR_ENTRY_DISK) :
    EXT2FS_DIR_ENTRY_DISK :=
  { pDisk with
    inode := ext2fsHostToDisk32 pHost.inode
    rec_len := ext2fsHostToDisk16 pHost.rec_len
    name_len := pHost.name_len.toUInt8
    file_type := ((pHost.file_type &&& (0x0f : UInt32)) |||
      ((pHost.name_len >>> 4) &&& (0xf0 : UInt32))).toUInt8 }

/-! ## Inodes -/

/-- An inode on the disk. -/
structure EXT2FS_INODE_DISK where
  (i_mode i_uid : Vector UInt8 2)
  (i_size i_atime i_ctime i_mtime i_dtime : Vector UInt8 4)
  (i_gid i_links_count : Vector UInt8 2)
  (i_blocks i_flags i_osd1 : Vector UInt8 4)
  i_block : Vector (Vector UInt8 4) EXT2_N_BLKS
  (i_version i_file_acl i_dir_acl i_faddr : Vector UInt8 4)
  i_osd2 : Vector UInt8 12
  deriving DecidableEq, Repr, Inhabited

/-- An inode in memory. -/
structure EXT2FS_INODE_HOST where
  (i_mode i_uid : UInt16)
  i_size : UInt64
  (i_atime i_ctime i_mtime i_dtime : UInt32)
  (i_gid i_links_count : UInt16)
  (i_blocks i_flags : UInt32)
  i_osd1 : Vector UInt8 4
  i_block : Vector UInt32 EXT2_N_BLKS
  (i_version i_file_acl i_dir_acl i_faddr : UInt32)
  i_osd2 : Vector UInt8 12
  deriving DecidableEq, Repr, Inhabited

/-- `ext2fsInodeDiskToHost`, on a volume of revision `s_rev_level`. -/
def ext2fsInodeDiskToHost (s_rev_level : UInt32) (pDisk : EXT2FS_INODE_DISK) :
    EXT2FS_INODE_HOST where
  i_mode := (ext2fsDiskToHost16 pDisk.i_mode).toUInt16
  i_uid := (ext2fsDiskToHost16 pDisk.i_uid).toUInt16
  i_size :=
    if s_rev_level = EXT2FS_DYNAMIC_REV then
      ((ext2fsDiskToHost32 pDisk.i_dir_acl).toUInt64 <<< 32) +
        (ext2fsDiskToHost32 pDisk.i_size).toUInt64
    else (ext2fsDiskToHost32 pDisk.i_size).toUInt64
  i_atime := ext2fsDiskToHost32 pDisk.i_atime
  i_ctime := ext2fsDiskToHost32 pDisk.i_ctime
  i_mtime := ext2fsDiskToHost32 pDisk.i_mtime
  i_dtime := ext2fsDiskToHost32 pDisk.i_dtime
  i_gid := (ext2fsDiskToHost16 pDisk.i_gid).toUInt16
  i_links_count := (ext2fsDiskToHost16 pDisk.i_links_count).toUInt16
  i_blocks := ext2fsDiskToHost32 pDisk.i_blocks
  i_flags := ext2fsDiskToHost32 pDisk.i_flags
  i_osd1 := pDisk.i_osd1
  i_block := pDisk.i_block.map ext2fsDiskToHost32
  i_version := ext2fsDiskToHost32 pDisk.i_version
  i_file_acl := ext2fsDiskToHost32 pDisk.i_file_acl
  i_dir_acl :=
    if s_rev_level = EXT2FS_DYNAMIC_REV then 0 else ext2fsDiskToHost32 pDisk.i_dir_acl
  i_faddr := ext2fsDiskToHost32 pDisk.i_faddr
  i_osd2 := pDisk.i_osd2

/-- `ext2fsInodeHostToDisk`. -/
def ext2fsInodeHostToDisk (s_rev_level : UInt32) (pHost : EXT2FS_INODE_HOST) :
    EXT2FS_INODE_DISK where
  i_mode := ext2fsHostToDisk16 pHost.i_mode.toUInt32
  i_uid := ext2fsHostToDisk16 pHost.i_uid.toUInt32
  i_size := ext2fsHostToDisk32 pHost.i_size.toUInt32
  i_atime := ext2fsHostToDisk32 pHost.i_atime
  i_ctime := ext2fsHostToDisk32 pHost.i_ctime
  i_mtime := ext2fsHostToDisk32 pHost.i_mtime
  i_dtime := ext2fsHostToDisk32 pHost.i_dtime
  i_gid := ext2fsHostToDisk16 pHost.i_gid.toUInt32
  i_links_count := ext2fsHostToDisk16 pHost.i_links_count.toUInt32
  i_blocks := ext2fsHostToDisk32 pHost.i_blocks
  i_flags := ext2fsHostToDisk32 pHost.i_flags
  i_osd1 := pHost.i_osd1
  i_block := pHost.i_block.map ext2fsHostToDisk32
  i_version := ext2fsHostToDisk32 pHost.i_version
  i_file_acl := ext2fsHostToDisk32 pHost.i_file_acl
  i_dir_acl :=
    if s_rev_level = EXT2FS_DYNAMIC_REV then ext2fsHostToDisk32 (pHost.i_size >>> 32).toUInt32
    else ext2fsHostToDisk32 pHost.i_dir_acl
  i_faddr := ext2fsHostToDisk32 pHost.i_faddr
  i_osd2 := pHost.i_osd2

/-! ## Group descriptors -/

/-- A group descriptor on the disk. -/
structure EXT2FS_GROUP_DESC_DISK where
  (bg_block_bitmap bg_inode_bitmap bg_inode_table : Vector UInt8 4)
  (bg_free_blocks_count bg_free_inodes_count bg_used_dirs_count bg_pad : Vector UInt8 2)
  bg_reserved : Vector (Vector UInt8 4) 3
  deriving DecidableEq, Repr, Inhabited

/-- A group descriptor in memory. -/
structure EXT2FS_GROUP_DESC where
  (bg_block_bitmap bg_inode_bitmap bg_inode_table : UInt32)
  (bg_free_blocks_count bg_free_inodes_count bg_used_dirs_count bg_pad : UInt16)
  bg_reserved : Vector UInt32 3
  deriving DecidableEq, Repr, Inhabited

/-- `ext2fsGroupDescDiskToHost`. -/
def ext2fsGroupDescDiskToHost (pDisk : EXT2FS_GROUP_DESC_DISK) : EXT2FS_GROUP_DESC where
  bg_block_bitmap := ext2fsDiskToHost32 pDisk.bg_block_bitmap
  bg_inode_bitmap := ext2fsDiskToHost32 pDisk.bg_inode_bitmap
  bg_inode_table := ext2fsDiskToHost32 pDisk.bg_inode_table
  bg_free_blocks_count := (ext2fsDiskToHost16 pDisk.bg_free_blocks_count).toUInt16
  bg_free_inodes_count := (ext2fsDiskToHost16 pDisk.bg_free_inodes_count).toUInt16
  bg_used_dirs_count := (ext2fsDiskToHost16 pDisk.bg_used_dirs_count).toUInt16
  bg_pad := (ext2fsDiskToHost16 pDisk.bg_pad).toUInt16
  bg_reserved := pDisk.bg_reserved.map ext2fsDiskToHost32

/-- `ext2fsGroupDescHostToDisk`. -/
def ext2fsGroupDescHostToDisk (pHost : EXT2FS_GROUP_DESC) : EXT2FS_GROUP_DESC_DISK where
  bg_block_bitmap := ext2fsHostToDisk32 pHost.bg_block_bitmap
  bg_inode_bitmap := ext2fsHostToDisk32 pHost.bg_inode_bitmap
  bg_inode_table := ext2fsHostToDisk32 pHost.bg_inode_table
  bg_free_blocks_count := ext2fsHostToDisk16 pHost.bg_free_blocks_count.toUInt32
  bg_free_inodes_count := ext2fsHostToDisk16 pHost.bg_free_inodes_count.toUInt32
  bg_used_dirs_count := ext2fsHostToDisk16 pHost.bg_used_dirs_count.toUInt32
  bg_pad := ext2fsHostToDisk16 pHost.bg_pad.toUInt32
  bg_reserved := pHost.bg_reserved.map ext2fsHostToDisk32

/-! ## The superblock -/

/-- The superblock on the disk. -/
structure EXT2FS_SUPERBLOCK_DISK where
  (s_inodes_count s_blocks_count s_r_blocks_count s_free_blocks_count : Vector UInt8 4)
  (s_free_inodes_count s_first_data_block s_log_block_size : Vector UInt8 4)
  (s_log_frag_size s_blocks_per_group s_frags_per_group : Vector UInt8 4)
  (s_inodes_per_group s_mtime s_wtime : Vector UInt8 4)
  (s_mnt_count s_max_mnt_count s_magic s_state s_errors : Vector UInt8 2)
  s_minor_rev_level : Vector UInt8 2
  (s_lastcheck s_checkinterval s_creator_os s_rev_level : Vector UInt8 4)
  (s_def_resuid s_def_resgid : Vector UInt8 2)
  s_first_ino : Vector UInt8 4
  (s_inode_size s_block_group_nr : Vector UInt8 2)
  (s_feature_compat s_feature_incompat s_feature_ro_compat : Vector UInt8 4)
  (s_uuid s_volume_name : Vector UInt8 16)
  s_last_mounted : Vector UInt8 64
  s_algo_bitmap : Vector UInt8 4
  (s_prealloc_blocks s_prealloc_dir_blocks : UInt8)
  s_pad2 : Vector UInt8 2
  s_journal_uuid : Vector UInt8 16
  (s_journal_inum s_journal_dev s_last_orphan : Vector UInt8 4)
  s_reserved : Vector UInt8 788
  deriving DecidableEq, Repr, Inhabited

/-- The superblock in memory. -/
structure EXT2FS_SUPERBLOCK where
  (s_inodes_count s_blocks_count s_r_blocks_count s_free_blocks_count : UInt32)
  (s_free_inodes_count s_first_data_block s_log_block_size : UInt32)
  (s_log_frag_size s_blocks_per_group s_frags_per_group : UInt32)
  (s_inodes_per_group s_mtime s_wtime : UInt32)
  (s_mnt_count s_max_mnt_count s_magic s_state s_errors : UInt16)
  s_minor_rev_level : UInt16
  (s_lastcheck s_checkinterval s_creator_os s_rev_level : UInt32)
  (s_def_resuid s_def_resgid : UInt16)
  s_first_ino : UInt32
  (s_inode_size s_block_group_nr : UInt16)
  (s_feature_compat s_feature_incompat s_feature_ro_compat : UInt32)
  (s_uuid s_volume_name : Vector UInt8 16)
  s_last_mounted : Vector UInt8 64
  s_algo_bitmap : UInt32
  (s_prealloc_blocks s_prealloc_dir_blocks : UInt8)
  s_pad2 : UInt16
  s_journal_uuid : Vector UInt8 16
  (s_journal_inum s_journal_dev s_last_orphan : UInt32)
  s_reserved : Vector UInt8 788
  deriving DecidableEq, Repr, Inhabited

/-- `ext2fsSuperBlockDiskToHost`. -/
def ext2fsSuperBlockDiskToHost (pDisk : EXT2FS_SUPERBLOCK_DISK) : EXT2FS_SUPERBLOCK where
  s_inodes_count := ext2fsDiskToHost32 pDisk.s_inodes_count
  s_blocks_count := ext2fsDiskToHost32 pDisk.s_blocks_count
  s_r_blocks_count := ext2fsDiskToHost32 pDisk.s_r_blocks_count
  s_free_blocks_count := ext2fsDiskToHost32 pDisk.s_free_blocks_count
  s_free_inodes_count := ext2fsDiskToHost32 pDisk.s_free_inodes_count
  s_first_data_block := ext2fsDiskToHost32 pDisk.s_first_data_block
  s_log_block_size := ext2fsDiskToHost32 pDisk.s_log_block_size
  s_log_frag_size := ext2fsDiskToHost32 pDisk.s_log_frag_size
  s_blocks_per_group := ext2fsDiskToHost32 pDisk.s_blocks_per_group
  s_frags_per_group := ext2fsDiskToHost32 pDisk.s_frags_per_group
  s_inodes_per_group := ext2fsDiskToHost32 pDisk.s_inodes_per_group
  s_mtime := ext2fsDiskToHost32 pDisk.s_mtime
  s_wtime := ext2fsDiskToHost32 pDisk.s_wtime
  s_mnt_count := (ext2fsDiskToHost16 pDisk.s_mnt_count).toUInt16
  s_max_mnt_count := (ext2fsDiskToHost16 pDisk.s_max_mnt_count).toUInt16
  s_magic := (ext2fsDiskToHost16 pDisk.s_magic).toUInt16
  s_state := (ext2fsDiskToHost16 pDisk.s_state).toUInt16
  s_errors := (ext2fsDiskToHost16 pDisk.s_errors).toUInt16
  s_minor_rev_level := (ext2fsDiskToHost16 pDisk.s_minor_rev_level).toUInt16
  s_lastcheck := ext2fsDiskToHost32 pDisk.s_lastcheck
  s_checkinterval := ext2fsDiskToHost32 pDisk.s_checkinterval
  s_creator_os := ext2fsDiskToHost32 pDisk.s_creator_os
  s_rev_level := ext2fsDiskToHost32 pDisk.s_rev_level
  s_def_resuid := (ext2fsDiskToHost16 pDisk.s_def_resuid).toUInt16
  s_def_resgid := (ext2fsDiskToHost16 pDisk.s_def_resgid).toUInt16
  s_first_ino := ext2fsDiskToHost32 pDisk.s_first_ino
  s_inode_size := (ext2fsDiskToHost16 pDisk.s_inode_size).toUInt16
  s_block_group_nr := (ext2fsDiskToHost16 pDisk.s_block_group_nr).toUInt16
  s_feature_compat := ext2fsDiskToHost32 pDisk.s_feature_compat
  s_feature_incompat := ext2fsDiskToHost32 pDisk.s_feature_incompat
  s_feature_ro_compat := ext2fsDiskToHost32 pDisk.s_feature_ro_compat
  s_uuid := pDisk.s_uuid
  s_volume_name := pDisk.s_volume_name
  s_last_mounted := pDisk.s_last_mounted
  s_algo_bitmap := ext2fsDiskToHost32 pDisk.s_algo_bitmap
  s_prealloc_blocks := pDisk.s_prealloc_blocks
  s_prealloc_dir_blocks := pDisk.s_prealloc_dir_blocks
  s_pad2 := (ext2fsDiskToHost16 pDisk.s_pad2).toUInt16
  s_journal_uuid := pDisk.s_journal_uuid
  s_journal_inum := ext2fsDiskToHost32 pDisk.s_journal_inum
  s_journal_dev := ext2fsDiskToHost32 pDisk.s_journal_dev
  s_last_orphan := ext2fsDiskToHost32 pDisk.s_last_orphan
  s_reserved := pDisk.s_reserved

/-- `ext2fsSuperBlockHostToDisk`. -/
def ext2fsSuperBlockHostToDisk (pHost : EXT2FS_SUPERBLOCK) : EXT2FS_SUPERBLOCK_DISK where
  s_inodes_count := ext2fsHostToDisk32 pHost.s_inodes_count
  s_blocks_count := ext2fsHostToDisk32 pHost.s_blocks_count
  s_r_blocks_count := ext2fsHostToDisk32 pHost.s_r_blocks_count
  s_free_blocks_count := ext2fsHostToDisk32 pHost.s_free_blocks_count
  s_free_inodes_count := ext2fsHostToDisk32 pHost.s_free_inodes_count
  s_first_data_block := ext2fsHostToDisk32 pHost.s_first_data_block
  s_log_block_size := ext2fsHostToDisk32 pHost.s_log_block_size
  s_log_frag_size := ext2fsHostToDisk32 pHost.s_log_frag_size
  s_blocks_per_group := ext2fsHostToDisk32 pHost.s_blocks_per_group
  s_frags_per_group := ext2fsHostToDisk32 pHost.s_frags_per_group
  s_inodes_per_group := ext2fsHostToDisk32 pHost.s_inodes_per_group
  s_mtime := ext2fsHostToDisk32 pHost.s_mtime
  s_wtime := ext2fsHostToDisk32 pHost.s_wtime
  s_mnt_count := ext2fsHostToDisk16 pHost.s_mnt_count.toUInt32
  s_max_mnt_count := ext2fsHostToDisk16 pHost.s_max_mnt_count.toUInt32
  s_magic := ext2fsHostToDisk16 pHost.s_magic.toUInt32
  s_state := ext2fsHostToDisk16 pHost.s_state.toUInt32
  s_errors := ext2fsHostToDisk16 pHost.s_errors.toUInt32
  s_minor_rev_level := ext2fsHostToDisk16 pHost.s_minor_rev_level.toUInt32
  s_lastcheck := ext2fsHostToDisk32 pHost.s_lastcheck
  s_checkinterval := ext2fsHostToDisk32 pHost.s_checkinterval
  s_creator_os := ext2fsHostToDisk32 pHost.s_creator_os
  s_rev_level := ext2fsHostToDisk32 pHost.s_rev_level
  s_def_resuid := ext2fsHostToDisk16 pHost.s_def_resuid.toUInt32
  s_def_resgid := ext2fsHostToDisk16 pHost.s_def_resgid.toUInt32
  s_first_ino := ext2fsHostToDisk32 pHost.s_first_ino
  s_inode_size := ext2fsHostToDisk16 pHost.s_inode_size.toUInt32
  s_block_group_nr := ext2fsHostToDisk16 pHost.s_block_group_nr.toUInt32
  s_feature_compat := ext2fsHostToDisk32 pHost.s_feature_compat
  s_feature_incompat := ext2fsHostToDisk32 pHost.s_feature_incompat
  s_feature_ro_compat := ext2fsHostToDisk32 pHost.s_feature_ro_compat
  s_uuid := pHost.s_uuid
  s_volume_name := pHost.s_volume_name
  s_last_mounted := pHost.s_last_mounted
  s_algo_bitmap := ext2fsHostToDisk32 pHost.s_algo_bitmap
  s_prealloc_blocks := pHost.s_prealloc_blocks
  s_prealloc_dir_blocks := pHost.s_prealloc_dir_blocks
  s_pad2 := ext2fsHostToDisk16 pHost.s_pad2.toUInt32
  s_journal_uuid := pHost.s_journal_uuid
  s_journal_inum := ext2fsHostToDisk32 pHost.s_journal_inum
  s_journal_dev := ext2fsHostToDisk32 pHost.s_journal_dev
  s_last_orphan := ext2fsHostToDisk32 pHost.s_last_orphan
  s_reserved := pHost.s_reserved

end Vmx.Ext2Conv
