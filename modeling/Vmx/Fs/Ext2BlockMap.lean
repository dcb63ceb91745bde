import Vmx.Fs.Ext2Map

/-!
# The cached path and the walk afresh

A lookup that starts from the cached path of a block of the same level, or from no
cached path, finds the block that a walk from the inode finds.  A lookup of an
indirect block whose highest index is that of a cached map of another level takes
the physical blocks of that map for its own.  The map of a new vnode is one of
these: its level is -1 and its indices are 0.
-/

namespace Vmx.Ext2

open Lib Util

/-! ## Levels and indices -/

section Index

variable (v : Volume)

/-- The number of entries of an indirect block. -/
def Volume.entries : Nat := 2 ^ v.shift

theorem shift_le : v.shift ≤ 29 := by
  have hword := v.word
  unfold Volume.shift
  omega

theorem entries_pos : 0 < v.entries := Nat.two_pow_pos v.shift

theorem nRefBlks_one : v.nRefBlks 1 = v.entries := by
  have hentry := v.entry
  show 2 ^ v.blkSize2 >>> 2 = 2 ^ (v.blkSize2 - 2)
  rw [Nat.shiftRight_eq_div_pow, Nat.pow_div hentry (by omega)]

theorem nRefBlks_two : v.nRefBlks 2 = v.entries ^ 2 := by
  have hone : v.blkSize >>> 2 = v.entries := nRefBlks_one v
  show v.blkSize >>> 2 * (v.blkSize >>> 2) % 18446744073709551616 = _
  rw [hone, ← Nat.pow_two]
  apply Nat.mod_eq_of_lt
  have hshift := shift_le v
  rw [Volume.entries, ← Nat.pow_mul]
  calc 2 ^ (v.shift * 2) ≤ 2 ^ 58 := Nat.pow_le_pow_right (by omega) (by omega)
    _ < 18446744073709551616 := by decide

/-- The 64 bits are enough where a 32 bit block number can get to level 3. -/
theorem nRefBlks_three (h : v.entries ^ 2 < 4294967296) : v.nRefBlks 3 = v.entries ^ 3 := by
  have htwo : v.blkSize >>> 2 * (v.blkSize >>> 2) % 18446744073709551616 = v.entries ^ 2 :=
    nRefBlks_two v
  have hone : v.blkSize >>> 2 = v.entries := nRefBlks_one v
  show v.blkSize >>> 2 * (v.blkSize >>> 2) % 18446744073709551616 * (v.blkSize >>> 2) %
    18446744073709551616 = _
  rw [htwo, hone, ← Nat.pow_succ]
  apply Nat.mod_eq_of_lt
  have hle : v.entries ≤ v.entries ^ 2 := Nat.le_self_pow (by omega) _
  calc v.entries ^ 3 = v.entries ^ 2 * v.entries := Nat.pow_succ ..
    _ < 4294967296 * 4294967296 := Nat.mul_lt_mul_of_lt_of_lt h (by omega)
    _ = 18446744073709551616 := by decide

/-- The level of a block, and its number within the level. -/
theorem levelLoop_eq {b : Nat} (hb : b < 4294967296) :
    levelLoop v 0 b 4 =
      if b < 12 then some (0, b)
      else if b - 12 < v.entries then some (1, b - 12)
      else if b - 12 - v.entries < v.entries ^ 2 then some (2, b - 12 - v.entries)
      else if b - 12 - v.entries - v.entries ^ 2 < v.entries ^ 3 then
        some (3, b - 12 - v.entries - v.entries ^ 2)
      else none := by
  have hzero : v.nRefBlks 0 = 12 := rfl
  simp only [levelLoop, hzero, Nat.zero_add, Nat.reduceAdd, nRefBlks_one, nRefBlks_two]
  rw [u32_of_lt (by omega), u32_of_lt (by omega), u32_of_lt (by omega)]
  by_cases hlast : b - 12 - v.entries < v.entries ^ 2
  · rw [if_pos hlast, if_pos hlast]
  · rw [if_neg hlast, if_neg hlast, nRefBlks_three v (by omega)]

/-- The digits of a block number are its indices. -/
theorem indexLoop_eq (index : Nat → Nat) (i normalized n j : Nat) :
    indexLoop v index i normalized n j =
      if i ≤ j ∧ j < i + n then normalized / v.entries ^ (j - i) % v.entries else index j := by
  induction n generalizing index i normalized with
  | zero =>
    rw [if_neg (by omega)]
    rfl
  | succ n ih =>
    have hmask : normalized &&& v.mask = normalized % v.entries := by
      rw [Volume.mask, Nat.one_shiftLeft, Nat.and_two_pow_sub_one_eq_mod]
      rfl
    rw [indexLoop, ih]
    by_cases hj : j = i
    · subst hj
      rw [if_neg (by omega), if_pos (by omega), Function.update_self, hmask, Nat.sub_self,
        Nat.pow_zero, Nat.div_one]
    · by_cases hin : i ≤ j ∧ j < i + (n + 1)
      · have hpow : v.entries ^ (j - i) = v.entries * v.entries ^ (j - (i + 1)) := by
          have : j - i = j - (i + 1) + 1 := by omega
          rw [this, Nat.pow_succ, Nat.mul_comm]
        rw [if_pos (by omega), if_pos hin, Nat.shiftRight_eq_div_pow, hpow,
          ← Nat.div_div_eq_div_mul]
        rfl
      · rw [if_neg (by omega), if_neg hin, Function.update_of_ne hj]

variable {v} {b level : Nat} {index : Nat → Nat}

theorem trieIndex_zero (h : trieIndex v b = some (level, index)) : index 0 = b := by
  unfold trieIndex at h
  split at h
  · cases h
  · simp only [Option.some.injEq, Prod.mk.injEq] at h
    rw [← h.2, indexLoop_eq, if_neg (by omega), Function.update_self]

/-- The indices lead to the block. -/
theorem blockOf_eq (iBlock : Nat → Nat) (disk : Nat → Nat → Nat) (hb : b < 4294967296) :
    blockOf v.entries iBlock disk b = (trieIndex v b).map fun i =>
      pathNode (entryOf disk) (rootBlk iBlock i.1 b) i.2 i.1 0 := by
  unfold blockOf trieIndex
  rw [levelLoop_eq v hb]
  dsimp only
  have hpos := entries_pos v
  split_ifs with h0 h1 h2 h3
  · simp [pathNode_height, rootBlk]
  · rw [Option.map_some]
    dsimp only
    rw [pathNode_of_lt _ _ _ _ (by omega), pathNode_height, indexLoop_eq, if_pos (by omega), Nat.pow_zero, Nat.div_one, Nat.mod_eq_of_lt h1]
    rfl
  · have htop : (b - 12 - v.entries) / v.entries < v.entries :=
      Nat.div_lt_of_lt_mul (by rwa [← Nat.pow_two])
    rw [Option.map_some]
    dsimp only
    rw [pathNode_of_lt _ _ _ _ (by omega), pathNode_of_lt _ _ _ _ (by omega), pathNode_height,
      indexLoop_eq, indexLoop_eq, if_pos (by omega), if_pos (by omega),
      Nat.pow_zero, Nat.div_one, Nat.pow_one, Nat.mod_eq_of_lt htop]
    rfl
  · have htop : (b - 12 - v.entries - v.entries ^ 2) / v.entries ^ 2 < v.entries :=
      Nat.div_lt_of_lt_mul (by rwa [← Nat.pow_succ])
    rw [Option.map_some]
    dsimp only
    rw [pathNode_of_lt _ _ _ _ (by omega), pathNode_of_lt _ _ _ _ (by omega),
      pathNode_of_lt _ _ _ _ (by omega), pathNode_height, indexLoop_eq, indexLoop_eq, indexLoop_eq,
      if_pos (by omega), if_pos (by omega), if_pos (by omega), Nat.pow_zero, Nat.div_one,
      Nat.pow_one, Nat.mod_eq_of_lt htop]
    rfl
  · rfl

end Index

/-! ## The cached path -/

section Path

variable (v : Volume) (iBlock : Nat → Nat) (disk : Nat → Nat → Nat)

/-- The physical block of a level on the path of a block with these indices. -/
def node (index : Nat → Nat) (height level : Nat) : Nat :=
  pathNode (entryOf disk) (rootBlk iBlock height (index 0)) index height level

/-- The map is the path of a block. -/
structure IsPath (m : TrieMap) (height : Nat) : Prop where
  index : trieIndex v (m.index 0) = some (height, m.index)
  level : m.level = height
  physBlk : ∀ l ≤ height, m.physBlk l = node iBlock disk m.index height l

/-- The cached map is that of a new vnode, or the path of a block. -/
def Inv (m : TrieMap) : Prop := m.level = -1 ∨ ∃ height, IsPath v iBlock disk m height

/-- The path is complete from a level up, and the map is 0 below. -/
structure Partial (m : TrieMap) (height level : Nat) : Prop where
  physBlk : ∀ l, level ≤ l → l ≤ height → m.physBlk l = node iBlock disk m.index height l
  below : ∀ l < level, m.physBlk l = 0

variable {v iBlock disk} {m : TrieMap} {height level : Nat}

theorem entryOf_hole (i : Nat) : entryOf disk EXT2FS_SPARSE_BLK_NUM i = EXT2FS_SPARSE_BLK_NUM :=
  if_pos rfl

/-- One more level. -/
theorem Partial.next (h : Partial iBlock disk m height (level + 1))
    {blk : Nat} (hblk : blk = node iBlock disk m.index height level) :
    Partial iBlock disk { m with physBlk := Function.update m.physBlk level blk } height level where
  physBlk l hl hlh := by
    by_cases hll : l = level
    · rw [hll, hblk]
      exact Function.update_self ..
    · dsimp only
      rw [Function.update_of_ne hll]
      exact h.physBlk l (by omega) hlh
  below l hl := by
    dsimp only
    rw [Function.update_of_ne (by omega)]
    exact h.below l (by omega)

/-- Reading completes a path that starts right. -/
theorem readLoop_path {l : Lookup} (h : Partial iBlock disk m height level) (hle : level ≤ height)
    {m' : TrieMap} (hread : readLoop disk l level m = .ok m') :
    m'.index = m.index ∧ m'.level = m.level ∧ Partial iBlock disk m' height 0 := by
  induction level generalizing m with
  | zero =>
    obtain rfl := Except.ok.inj hread
    exact ⟨rfl, rfl, h⟩
  | succ level ih =>
    have hnode := h.physBlk (level + 1) (Nat.le_refl _) hle
    rw [readLoop] at hread
    split at hread
    · rename_i hsparse
      obtain rfl := Except.ok.inj hread
      refine ⟨rfl, rfl, fun l _ hlh => ?_, fun l hl => absurd hl (by omega)⟩
      by_cases hl : level + 1 ≤ l
      · exact h.physBlk l hl hlh
      · rw [h.below l (by omega)]
        exact (pathNode_hole entryOf_hole hle (hnode.symm.trans hsparse) (by omega)).symm
    · rename_i hsparse
      unfold bread at hread
      split at hread
      · cases hread
      · rename_i pEntryList hblk
        split at hblk
        · cases hblk
        · obtain rfl := Except.ok.inj hblk
          apply ih _ (by omega) hread
          apply h.next
          rw [hnode] at hsparse ⊢
          have hbelow : node iBlock disk m.index height level =
              entryOf disk (node iBlock disk m.index height (level + 1)) (m.index (level + 1)) :=
            pathNode_of_lt _ _ _ _ (by omega)
          rw [hbelow, entryOf, if_neg hsparse]

theorem readLoop_error {l : Lookup} {e : Int} (hread : readLoop disk l level m = .error e) :
    e ≠ OK := by
  induction level generalizing m with
  | zero => cases hread
  | succ level ih =>
    rw [readLoop] at hread
    split at hread
    · cases hread
    · unfold bread at hread
      split at hread
      · rename_i e' hblk
        split at hblk
        · rename_i herror
          obtain rfl := Except.error.inj hblk
          obtain rfl := Except.error.inj hread
          exact herror
        · cases hblk
      · exact ih hread

/-- Without errors there is a path. -/
theorem readLoop_ok {l : Lookup} (hl : ∀ blk, l.error blk = OK) (level : Nat) (m : TrieMap) :
    ∃ m', readLoop disk l level m = .ok m' := by
  induction level generalizing m with
  | zero => exact ⟨m, rfl⟩
  | succ level ih =>
    rw [readLoop]
    split
    · exact ⟨m, rfl⟩
    · have hread : bread disk l (m.physBlk (level + 1)) = .ok (disk (m.physBlk (level + 1))) :=
        if_neg (not_not.2 (hl _))
      rw [hread]
      exact ih _

/-- What is taken from the path of another block of the level is right: the two paths
are the same above the first index that differs. -/
theorem reuseLoop_path {cached : TrieMap} (hcached : IsPath v iBlock disk cached height)
    (hroot : 0 < height) (hle : level ≤ height)
    (heq : ∀ l, level < l → l ≤ height → m.index l = cached.index l)
    (h : Partial iBlock disk m height level) :
    ∃ r m', reuseLoop cached level m = (r, m') ∧ r ≤ height ∧ m'.index = m.index ∧
      m'.level = m.level ∧ Partial iBlock disk m' height r := by
  induction level generalizing m with
  | zero => exact ⟨0, m, rfl, by omega, rfl, rfl, h⟩
  | succ level ih =>
    rw [reuseLoop]
    split
    · exact ⟨level + 1, m, rfl, hle, rfl, rfl, h⟩
    · rename_i hindex
      rw [not_not] at hindex
      have habove : ∀ l, level < l → l ≤ height → m.index l = cached.index l := by
        intro l hl hlh
        by_cases hll : l = level + 1
        · rw [hll, hindex]
        · exact heq l (by omega) hlh
      have hblk : cached.physBlk level = node iBlock disk m.index height level := by
        rw [hcached.physBlk level (by omega), node, node]
        have hrootBlk : ∀ b, rootBlk iBlock height b =
            iBlock (EXT2_N_DIRECT_BLKS + height - 1) := fun b => if_neg (by omega)
        rw [hrootBlk, hrootBlk]
        exact pathNode_congr fun l hl hlh => (habove l hl hlh).symm
      exact ih (by omega) habove (h.next hblk)

end Path

/-! ## The lookups of a run -/

/-- The condition on a lookup: the map that it starts from is not that of another level
with the same highest index. -/
def Sound (v : Volume) (cached : TrieMap) (l : Lookup) : Prop :=
  l.blkNum < 4294967296 ∧
    (cached.index 0 = l.blkNum ∧ 0 ≤ cached.level ∨
      match trieIndex v l.blkNum with
      | none => True
      | some (level, index) =>
        0 < level → index level = cached.index level → cached.level = level)

instance (v : Volume) (cached : TrieMap) (l : Lookup) : Decidable (Sound v cached l) := by
  unfold Sound
  cases trieIndex v l.blkNum <;> infer_instance

section Runs

variable {v : Volume} {iBlock : Nat → Nat} {disk : Nat → Nat → Nat} {cached : TrieMap}
  {l : Lookup}

theorem inv_activate : Inv v iBlock disk ext2fsVopActivate := Or.inl rfl

theorem IsPath.of_part {m : TrieMap} {b height : Nat} {index : Nat → Nat}
    (hb : trieIndex v b = some (height, index)) (hindex : m.index = index)
    (hlevel : m.level = height) (h : Partial iBlock disk m height 0) :
    IsPath v iBlock disk m height where
  index := by
    rw [hindex, trieIndex_zero hb]
    exact hb
  level := hlevel
  physBlk l hl := h.physBlk l (by omega) hl

/-- The search leaves a path that is right from its level up. -/
theorem ext2fsPhysFindCacheSearch_path (h : Inv v iBlock disk cached) (hs : Sound v cached l)
    {level : Nat} {m : TrieMap}
    (hm : ext2fsPhysFindCacheSearch v iBlock cached l.blkNum = some (level, m)) :
    ∃ height, trieIndex v l.blkNum = some (height, m.index) ∧ m.level = height ∧
      level ≤ height ∧ Partial iBlock disk m height level := by
  unfold ext2fsPhysFindCacheSearch at hm
  split at hm
  · rename_i hhit
    simp only [Option.some.injEq, Prod.mk.injEq] at hm
    obtain ⟨rfl, rfl⟩ := hm
    rcases h with hnew | ⟨height, hpath⟩
    · omega
    · rw [← hhit.1]
      exact ⟨height, hpath.index, hpath.level, by omega,
        fun l _ hlh => hpath.physBlk l hlh, fun l hl => absurd hl (by omega)⟩
  · rename_i hmiss
    have hsound := hs.2.resolve_left hmiss
    cases hb : trieIndex v l.blkNum with
    | none =>
      rw [hb] at hm
      cases hm
    | some i =>
      obtain ⟨height, index⟩ := i
      rw [hb] at hm hsound
      dsimp only at hm hsound
      rw [Option.some.injEq] at hm
      set start : TrieMap :=
        { index := index
          physBlk := Function.update TrieMap.zero.physBlk height (rootBlk iBlock height l.blkNum)
          level := height } with hstart
      have hpart : Partial iBlock disk start height height := by
        refine ⟨fun l' hl hlh => ?_, fun l' hl => Function.update_of_ne (by omega) _ _⟩
        have hl' : l' = height := by omega
        rw [hl', node, pathNode_height]
        show Function.update TrieMap.zero.physBlk height _ height = rootBlk iBlock height (index 0)
        rw [Function.update_self, trieIndex_zero hb]
      by_cases htop : 0 < height ∧ index height = cached.index height
      · have hlevel := hsound htop.1 htop.2
        rcases h with hnew | ⟨height', hpath⟩
        · omega
        · have hheight : height' = height := by
            have := hpath.level
            omega
          rw [hheight] at hpath
          obtain ⟨r, m', hr, hrle, hindex, hlev, hpart'⟩ :=
            reuseLoop_path hpath htop.1 (Nat.le_refl _) (fun l hl hlh => absurd hl (by omega)) hpart
          rw [hm] at hr
          obtain ⟨rfl, rfl⟩ := Prod.mk.inj hr
          exact ⟨height, by rw [hindex], hlev, hrle, hpart'⟩
      · have hreuse : reuseLoop cached height start = (height, start) := by
          cases height with
          | zero => rfl
          | succ height =>
            rw [reuseLoop, if_pos fun heq => htop ⟨by omega, heq⟩]
        rw [hreuse] at hm
        obtain ⟨rfl, rfl⟩ := Prod.mk.inj hm
        exact ⟨height, rfl, rfl, Nat.le_refl _, hpart⟩

/-- A lookup that returns `OK` leaves the path of its block. -/
theorem ext2fsPhysFind_path (h : Inv v iBlock disk cached) (hs : Sound v cached l)
    (hok : (ext2fsPhysFind v iBlock disk cached l).1 = OK) :
    ∃ height, IsPath v iBlock disk (ext2fsPhysFind v iBlock disk cached l).2 height ∧
      (ext2fsPhysFind v iBlock disk cached l).2.index 0 = l.blkNum := by
  unfold ext2fsPhysFind at hok ⊢
  rw [u32_of_lt hs.1] at hok ⊢
  cases hsearch : ext2fsPhysFindCacheSearch v iBlock cached l.blkNum with
  | none =>
    rw [hsearch] at hok
    cases hok
  | some i =>
    obtain ⟨level, m⟩ := i
    obtain ⟨height, hb, hlevel, hle, hpart⟩ := ext2fsPhysFindCacheSearch_path h hs hsearch
    rw [hsearch] at hok
    dsimp only at hok ⊢
    cases hread : readLoop disk l level m with
    | error e =>
      rw [hread] at hok
      exact absurd hok (readLoop_error hread)
    | ok m' =>
      obtain ⟨hindex, hlevel', hpart'⟩ := readLoop_path hpart hle hread
      refine ⟨height, .of_part hb hindex (hlevel'.trans hlevel) hpart', ?_⟩
      rw [hindex]
      exact trieIndex_zero hb

theorem inv_step {cached' : TrieMap} (h : Inv v iBlock disk cached) (hs : Sound v cached l)
    (hstep : step v iBlock disk cached l = some cached') : Inv v iBlock disk cached' := by
  cases hstep
  by_cases hok : (ext2fsPhysFind v iBlock disk cached l).1 = OK
  · obtain ⟨height, hpath, _⟩ := ext2fsPhysFind_path h hs hok
    exact Or.inr ⟨height, hpath⟩
  · have hsame : (ext2fsPhysFind v iBlock disk cached l).2 = cached := by
      unfold ext2fsPhysFind at hok ⊢
      split
      · rfl
      · split
        · rfl
        · rename_i hsearch _ _ hread
          rw [hsearch] at hok
          dsimp only at hok
          rw [hread] at hok
          exact absurd rfl hok
    rw [hsame]
    exact h

/-- The path of a block ends at the block. -/
theorem IsPath.blockOf {m : TrieMap} {height : Nat} (h : IsPath v iBlock disk m height)
    (hb : m.index 0 < 4294967296) :
    blockOf v.entries iBlock disk (m.index 0) = some (m.physBlk 0) := by
  rw [blockOf_eq iBlock disk hb, h.index, h.physBlk 0 (by omega)]
  rfl

/-- Without read errors the lookup finds every block that the inode can refer to. -/
theorem ext2fsPhysFind_ok (h : Inv v iBlock disk cached) (hs : Sound v cached l)
    (hl : ∀ blk, l.error blk = OK) :
    (ext2fsPhysFind v iBlock disk cached l).1 = OK ↔
      (blockOf v.entries iBlock disk l.blkNum).isSome := by
  constructor
  · intro hok
    obtain ⟨height, hpath, hindex⟩ := ext2fsPhysFind_path h hs hok
    have hblock := hpath.blockOf (by rw [hindex]; exact hs.1)
    rw [hindex] at hblock
    rw [hblock]
    rfl
  · intro hblock
    rw [blockOf_eq iBlock disk hs.1, Option.isSome_map] at hblock
    unfold ext2fsPhysFind
    rw [u32_of_lt hs.1]
    cases hsearch : ext2fsPhysFindCacheSearch v iBlock cached l.blkNum with
    | none =>
      unfold ext2fsPhysFindCacheSearch at hsearch
      split at hsearch
      · cases hsearch
      · split at hsearch
        · rename_i hnone
          rw [hnone] at hblock
          cases hblock
        · cases hsearch
    | some i =>
      obtain ⟨m', hread⟩ := readLoop_ok hl i.1 i.2
      dsimp only
      rw [hread]

/-- The data of a read is that of the block, or zeros for a hole. -/
theorem ext2fsVopStrategy_data (h : Inv v iBlock disk cached) (hs : Sound v cached l)
    {data : Nat → Nat} (hread : (ext2fsVopStrategy v iBlock disk cached l).1 = .ok data) :
    ∃ blk, blockOf v.entries iBlock disk l.blkNum = some blk ∧
      data = if blk = EXT2FS_SPARSE_BLK_NUM then fun _ => 0 else disk blk := by
  unfold ext2fsVopStrategy at hread
  dsimp only at hread
  by_cases hok : (ext2fsPhysFind v iBlock disk cached l).1 = OK
  · obtain ⟨height, hpath, hindex⟩ := ext2fsPhysFind_path h hs hok
    have hblock := hpath.blockOf (by rw [hindex]; exact hs.1)
    rw [hindex] at hblock
    refine ⟨_, hblock, ?_⟩
    rw [if_neg (not_not.2 hok)] at hread
    split at hread
    · rename_i hsparse
      rw [if_pos hsparse]
      exact (Except.ok.inj hread).symm
    · rename_i hsparse
      rw [if_neg hsparse]
      unfold bread at hread
      dsimp only at hread
      split at hread
      · cases hread
      · exact (Except.ok.inj hread).symm
  · rw [if_pos hok] at hread
    cases hread

/-- In a run of sound lookups each lookup that returns `OK` leaves at level 0 the
block that a walk from the inode finds, and only a read error or a block number
past the triple indirect blocks makes it fail. -/
theorem ext2fsPhysFind_agrees (v : Volume) (iBlock : Nat → Nat) (disk : Nat → Nat → Nat)
    (ls : List Lookup) {cached : TrieMap}
    (hsound : AllSteps (step v iBlock disk) (Sound v) ext2fsVopActivate ls)
    (hrun : exec (step v iBlock disk) ext2fsVopActivate ls = some cached) (l : Lookup)
    (hs : Sound v cached l) :
    ((ext2fsPhysFind v iBlock disk cached l).1 = OK →
      blockOf v.entries iBlock disk l.blkNum =
        some ((ext2fsPhysFind v iBlock disk cached l).2.physBlk 0)) ∧
      ((∀ blk, l.error blk = OK) → ((ext2fsPhysFind v iBlock disk cached l).1 = OK ↔
        (blockOf v.entries iBlock disk l.blkNum).isSome)) := by
  have hinv : Inv v iBlock disk cached :=
    exec_invariant_of (fun _ _ _ h hP hstep => inv_step h hP hstep) inv_activate hsound hrun
  refine ⟨fun hok => ?_, ext2fsPhysFind_ok hinv hs⟩
  obtain ⟨height, hpath, hindex⟩ := ext2fsPhysFind_path hinv hs hok
  rw [← hindex]
  exact hpath.blockOf (by rw [hindex]; exact hs.1)

end Runs

/-! ## A volume with blocks of 1024 bytes -/

/-- The smallest block size. -/
def smallVolume : Volume := { blkSize2 := 10, entry := by decide, word := by decide }

/-- A lookup without read errors. -/
def lookup (blkNum : Nat) : Lookup := { blkNum := blkNum, error := fun _ => OK }

/-- Block 13 is looked up first, then a direct block and block 14. -/
theorem ext2fsPhysFind_agrees_single :
    ∃ cached, exec (step smallVolume (· + 100) (· * 1000 + ·)) ext2fsVopActivate
        [lookup 13, lookup 3] = some cached ∧
      (ext2fsPhysFind smallVolume (· + 100) (· * 1000 + ·) cached (lookup 14)).1 = OK ∧
      blockOf smallVolume.entries (· + 100) (· * 1000 + ·) 14 =
        some ((ext2fsPhysFind smallVolume (· + 100) (· * 1000 + ·) cached (lookup 14)).2.physBlk
          0) :=
  ⟨_, rfl, rfl, (ext2fsPhysFind_agrees smallVolume (· + 100) (· * 1000 + ·)
    [lookup 13, lookup 3] (by decide) rfl (lookup 14) (by decide)).1 rfl⟩

/-- On a new vnode block 12 is taken for a hole, and after block 11 it is taken for
block 11. -/
theorem ext2fsPhysFind_other_level :
    ((ext2fsPhysFind smallVolume (· + 100) (· * 1000 + ·) ext2fsVopActivate (lookup 12)).1 = OK ∧
      (ext2fsPhysFind smallVolume (· + 100) (· * 1000 + ·) ext2fsVopActivate
        (lookup 12)).2.physBlk 0 = 0) ∧
    (∃ cached, exec (step smallVolume (· + 100) (· * 1000 + ·)) ext2fsVopActivate
        [lookup 11] = some cached ∧
      (ext2fsPhysFind smallVolume (· + 100) (· * 1000 + ·) cached (lookup 12)).1 = OK ∧
      (ext2fsPhysFind smallVolume (· + 100) (· * 1000 + ·) cached (lookup 12)).2.physBlk 0 =
        111) ∧
    blockOf smallVolume.entries (· + 100) (· * 1000 + ·) 12 = some 112000 :=
  ⟨⟨rfl, rfl⟩, ⟨_, rfl, rfl, rfl⟩, by decide⟩

end Vmx.Ext2
