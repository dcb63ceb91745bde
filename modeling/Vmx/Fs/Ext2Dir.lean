import Vmx.Fs.Ext2DirLib

/-!
# The walk over a directory

A walk ends unless it comes to an entry of length 0 that it passes over (`walk_ends_iff`).  In a
well-formed directory a lookup finds the first live record with its name, and the calls of
readdir return the live records in order (`dir_walk`).
-/

namespace Vmx.Ext2Dir

open Ext2Conv

variable {d : Dir} {stop : EXT2FS_DIR_ENTRY → List UInt8 → Bool}

/-! ## Termination -/

/-- From one offset the walk passes over entries to another. -/
inductive Passes (d : Dir) (stop : EXT2FS_DIR_ENTRY → List UInt8 → Bool) : Nat → Nat → Prop
  | refl (offset) : Passes d stop offset offset
  | step {offset offset' dirEntry name} (hread : ext2fsDirEntryRead d offset = .entry dirEntry name)
      (hpass : stop dirEntry name = false)
      (hrest : Passes d stop (offset + dirEntry.rec_len.toNat) offset') :
      Passes d stop offset offset'

/-- The walk comes to an entry of length 0 that it does not stop at. -/
def Stuck (d : Dir) (stop : EXT2FS_DIR_ENTRY → List UInt8 → Bool) (offset : Nat) : Prop :=
  ∃ offset' dirEntry name, Passes d stop offset offset' ∧
    ext2fsDirEntryRead d offset' = .entry dirEntry name ∧ stop dirEntry name = false ∧
    dirEntry.rec_len.toNat = 0

theorem walk_pass {fuel offset : Nat} {dirEntry : EXT2FS_DIR_ENTRY} {name : List UInt8}
    (hread : ext2fsDirEntryRead d offset = .entry dirEntry name)
    (hpass : stop dirEntry name = false) :
    walk d stop (fuel + 1) offset = walk d stop fuel (offset + dirEntry.rec_len.toNat) := by
  rw [walk, hread]
  simp [hpass]

/-- An entry lies before the end of the directory. -/
theorem lt_size_of_entry {offset : Nat} {dirEntry : EXT2FS_DIR_ENTRY} {name : List UInt8}
    (hread : ext2fsDirEntryRead d offset = .entry dirEntry name) : offset < d.i_size := by
  by_contra hge
  unfold ext2fsDirEntryRead at hread
  rw [if_pos (by omega)] at hread
  cases hread

theorem walk_eq_none_of_stuck {offset : Nat} (h : Stuck d stop offset) (fuel : Nat) :
    walk d stop fuel offset = none := by
  obtain ⟨offset', dirEntry, name, hpasses, hread, hpass, hzero⟩ := h
  induction hpasses generalizing fuel with
  | refl offset =>
    induction fuel with
    | zero => rfl
    | succ fuel ih =>
      rw [walk_pass hread hpass, hzero]
      exact ih
  | step hread' hpass' _ ih =>
    cases fuel with
    | zero => rfl
    | succ fuel =>
      rw [walk_pass hread' hpass']
      exact ih fuel hread

theorem walk_ends_of_not_stuck (n : Nat) : ∀ offset, d.i_size - offset ≤ n →
    ¬ Stuck d stop offset → ∃ r, walk d stop (n + 1) offset = some r := by
  induction n with
  | zero =>
    intro offset hle _
    refine ⟨.eof, ?_⟩
    rw [walk, ext2fsDirEntryRead, if_pos (by omega)]
  | succ n ih =>
    intro offset hle hstuck
    cases hread : ext2fsDirEntryRead d offset with
    | error e => exact ⟨.error e, by rw [walk, hread]⟩
    | eof => exact ⟨.eof, by rw [walk, hread]⟩
    | entry dirEntry name =>
      cases hstop : stop dirEntry name with
      | true => exact ⟨.found offset dirEntry name, by rw [walk, hread]; simp [hstop]⟩
      | false =>
        have hlt := lt_size_of_entry hread
        have hpos : dirEntry.rec_len.toNat ≠ 0 := by
          intro hzero
          exact hstuck ⟨offset, dirEntry, name, .refl offset, hread, hstop, hzero⟩
        have hnext : ¬ Stuck d stop (offset + dirEntry.rec_len.toNat) := by
          rintro ⟨offset', dirEntry', name', hpasses, hrest⟩
          exact hstuck ⟨offset', dirEntry', name', .step hread hstop hpasses, hrest⟩
        rw [walk_pass hread hstop]
        exact ih _ (by omega) hnext

theorem walk_ends_iff {offset : Nat} :
    (∃ fuel r, walk d stop fuel offset = some r) ↔ ¬ Stuck d stop offset := by
  constructor
  · rintro ⟨fuel, r, hwalk⟩ hstuck
    rw [walk_eq_none_of_stuck hstuck] at hwalk
    cases hwalk
  · intro hstuck
    exact ⟨_, walk_ends_of_not_stuck (d.i_size - offset) offset (Nat.le_refl _) hstuck⟩

/-! ## Strings without `EOS` -/

theorem takeWhile_of_no_eos {s : List UInt8} (h : 0 ∉ s) : s.takeWhile (· != 0) = s := by
  induction s with
  | nil => rfl
  | cons x s ih =>
    rw [List.mem_cons, not_or] at h
    have hne : (x != 0) = true := by simpa using Ne.symm h.1
    rw [List.takeWhile_cons]
    simp only [hne, if_true]
    rw [ih h.2]

theorem strncpy_of_no_eos {s : List UInt8} (h : 0 ∉ s) : strncpy s = s := by
  unfold strncpy
  dsimp only
  rw [takeWhile_of_no_eos h]
  simp

theorem strncmpEq_iff {a b : List UInt8} (ha : 0 ∉ a) (hb : 0 ∉ b) :
    strncmpEq a b = true ↔ a = b := by
  unfold strncmpEq
  rw [takeWhile_of_no_eos ha, takeWhile_of_no_eos hb, beq_iff_eq]

/-! ## The records of a well-formed directory -/

/-- What the walk reads of a record. -/
structure ReadsRec (d : Dir) (offset : Nat) (r : Rec) (dirEntry : EXT2FS_DIR_ENTRY)
    (name : List UInt8) : Prop where
  read : ext2fsDirEntryRead d offset = .entry dirEntry name
  inode : dirEntry.inode = r.inode
  rec_len : dirEntry.rec_len.toNat = r.rec_len
  name : r.inode ≠ 0 → dirEntry.name_len.toNat = r.name.length ∧ name = r.name

/-- The walk reads the records one after the other, and then the end. -/
inductive Holds (d : Dir) : Nat → List Rec → Prop
  | nil {offset} (hend : offset = d.i_size) : Holds d offset []
  | cons {offset r rs dirEntry name} (hwf : r.WellFormed)
      (hread : ReadsRec d offset r dirEntry name)
      (hrest : Holds d (offset + r.rec_len) rs) : Holds d offset (r :: rs)

theorem Records.le {blkSize off : Nat} {data : Nat → UInt8} {rs : List Rec}
    (h : Records blkSize data off rs) : off ≤ blkSize := by
  induction h with
  | nil => exact Nat.le_refl _
  | cons _ _ _ ih => omega

/-- A record of a block passes the checks and is read. -/
theorem reads_record {lbn off : Nat} {r : Rec} (hlbn : lbn < 4294967296)
    (hsize : lbn * d.blkSize + off < d.i_size) (hbread : (d.bread lbn).1 = OK)
    (hrec : RecAt (d.bread lbn).2 off r) (hwf : r.WellFormed)
    (hfits : off + r.rec_len ≤ d.blkSize) :
    ∃ dirEntry name, ReadsRec d (lbn * d.blkSize + off) r dirEntry name := by
  have hlen := hwf.rec_len
  have hoff : off < d.blkSize := by omega
  have hdiv : (lbn * d.blkSize + off) / d.blkSize % 4294967296 = lbn := by
    rw [Nat.mul_comm, Nat.mul_add_div (by omega), Nat.div_eq_of_lt hoff, Nat.add_zero,
      Nat.mod_eq_of_lt hlbn]
  have hmod : (lbn * d.blkSize + off) % d.blkSize = off := by
    rw [Nat.mul_comm, Nat.mul_add_mod, Nat.mod_eq_of_lt hoff]
  obtain ⟨dirEntry, hentry⟩ : ∃ e, e = ext2fsDirEntryDiskToHost (diskEntry (d.bread lbn).2 off) :=
    ⟨_, rfl⟩
  have hinode := hrec.inode
  have hrecLen := hrec.rec_len
  have hname := hrec.name
  rw [← hentry] at hinode hrecLen hname
  have hcheck : dirEntryCheck d off dirEntry = OK := by
    unfold dirEntryCheck
    rw [if_neg (by omega)]
    by_cases hlive : dirEntry.inode ≠ 0
    · rw [if_pos hlive]
      rw [hinode] at hlive
      obtain ⟨hnonempty, hle, hroom, -⟩ := hwf.name hlive
      have hnameLen := (hname hlive).1
      have hpos : 0 < r.name.length := List.length_pos_iff.mpr hnonempty
      have hsub : (dirEntry.rec_len - 8).toNat = dirEntry.rec_len.toNat - 8 := by
        apply UInt32.toNat_sub_of_le
        rw [UInt32.le_iff_toNat_le]
        show 8 ≤ dirEntry.rec_len.toNat
        omega
      rw [if_neg, if_neg, if_neg]
      · rw [gt_iff_lt, UInt32.lt_iff_toNat_lt]
        show ¬ 255 < dirEntry.name_len.toNat
        omega
      · rw [gt_iff_lt, UInt32.lt_iff_toNat_lt, hsub]
        omega
      · intro hzero
        rw [hzero] at hnameLen
        have hnil : (0 : UInt32).toNat = 0 := rfl
        omega
    · rw [if_neg hlive]
  refine ⟨dirEntry,
    if dirEntry.inode ≠ 0 then strncpy (nameAt (d.bread lbn).2 off dirEntry.name_len.toNat) else [],
    ?_, hinode, hrecLen, ?_⟩
  · unfold ext2fsDirEntryRead
    rw [if_neg (by omega)]
    dsimp only
    rw [hdiv, hmod, if_neg (by unfold EXT2_DIRENT_MINIMUM; omega), if_neg (by simp [hbread]),
      ← hentry, if_neg (by simp [hcheck])]
  · intro hlive
    obtain ⟨hnameLen, hbytes⟩ := hname hlive
    refine ⟨hnameLen, ?_⟩
    rw [if_pos (by rwa [hinode]), hnameLen, hbytes, strncpy_of_no_eos (hwf.name hlive).2.2.2]

/-- The rest of a block and then the blocks behind it. -/
theorem Records.holds {lbn off : Nat} {rs rest : List Rec} (hlbn : lbn < 4294967296)
    (hbread : (d.bread lbn).1 = OK) (h : Records d.blkSize (d.bread lbn).2 off rs)
    (hsize : (lbn + 1) * d.blkSize ≤ d.i_size) (hrest : Holds d ((lbn + 1) * d.blkSize) rest) :
    Holds d (lbn * d.blkSize + off) (rs ++ rest) := by
  have hnext : (lbn + 1) * d.blkSize = lbn * d.blkSize + d.blkSize := Nat.succ_mul _ _
  induction h with
  | nil =>
    rw [List.nil_append, ← hnext]
    exact hrest
  | @cons off r rs hrec hwf hrecs ih =>
    have hle := hrecs.le
    have hlen := hwf.rec_len
    obtain ⟨dirEntry, name, hread⟩ := reads_record hlbn (by omega) hbread hrec hwf hle
    refine Holds.cons hwf hread ?_
    rw [Nat.add_assoc]
    exact ih

theorem WellFormed.holds_drop {blocks : List (List Rec)} (h : WellFormed d blocks) (n : Nat) :
    ∀ lbn, lbn + n = blocks.length → Holds d (lbn * d.blkSize) (blocks.drop lbn).flatten := by
  have hpos : 0 < d.blkSize := Nat.pow_pos (by omega)
  have hblocks : blocks.length ≤ d.i_size := by
    rw [h.size]
    exact Nat.le_mul_of_pos_right _ hpos
  have hlt := h.size_lt
  induction n with
  | zero =>
    intro lbn hlbn
    rw [List.drop_of_length_le (by omega), List.flatten_nil]
    apply Holds.nil
    rw [h.size, ← hlbn, Nat.add_zero]
  | succ n ih =>
    intro lbn hlbn
    have hin : lbn < blocks.length := by omega
    have hsize : (lbn + 1) * d.blkSize ≤ d.i_size := by
      rw [h.size]
      exact Nat.mul_le_mul_right _ hin
    obtain ⟨hbread, hrecs⟩ := h.block lbn blocks[lbn] (List.getElem?_eq_getElem hin)
    rw [List.drop_eq_getElem_cons hin, List.flatten_cons]
    exact hrecs.holds (by omega) hbread hsize (ih (lbn + 1) (by omega))

/-- The walk from the start of a well-formed directory reads its records. -/
theorem WellFormed.holds {blocks : List (List Rec)} (h : WellFormed d blocks) :
    Holds d 0 blocks.flatten := by
  have hdrop := h.holds_drop blocks.length 0 (Nat.zero_add _)
  rwa [Nat.zero_mul, List.drop_zero] at hdrop

theorem Holds.length_le {offset : Nat} {rs : List Rec} (h : Holds d offset rs) :
    offset + rs.length ≤ d.i_size := by
  induction h with
  | nil hend => simp [hend]
  | @cons offset r rs dirEntry name hwf hread _ ih =>
    have hlen := hwf.rec_len
    rw [List.length_cons]
    omega

/-! ## The walk over records -/

/-- The walk stops at a record or passes over it as a test of records says. -/
def StopsAs (stop : EXT2FS_DIR_ENTRY → List UInt8 → Bool) (p : Rec → Bool) : Prop :=
  ∀ d offset r dirEntry name, r.WellFormed → ReadsRec d offset r dirEntry name →
    stop dirEntry name = p r

/-- A walk that stops at no record comes to the end. -/
theorem Holds.walk_eof {p : Rec → Bool} {offset fuel : Nat} {rs : List Rec}
    (hstop : StopsAs stop p) (h : Holds d offset rs) (hnone : ∀ r ∈ rs, p r = false)
    (hfuel : rs.length < fuel) : walk d stop fuel offset = some .eof := by
  induction h generalizing fuel with
  | nil hend =>
    obtain ⟨fuel, rfl⟩ : ∃ n, fuel = n + 1 := ⟨fuel - 1, by omega⟩
    rw [walk, ext2fsDirEntryRead, if_pos (by omega)]
  | @cons offset r rs dirEntry name hwf hread _ ih =>
    rw [List.length_cons] at hfuel
    obtain ⟨fuel, rfl⟩ : ∃ n, fuel = n + 1 := ⟨fuel - 1, by omega⟩
    have hpass : stop dirEntry name = false := by
      rw [hstop d offset r dirEntry name hwf hread]
      exact hnone r List.mem_cons_self
    rw [walk_pass hread.read hpass, hread.rec_len]
    exact ih (fun r' hr' => hnone r' (List.mem_cons_of_mem _ hr')) (by omega)

/-- A walk stops at the first record that it is to stop at. -/
theorem Holds.walk_found {p : Rec → Bool} {offset fuel : Nat} {pre rest : List Rec} {r : Rec}
    (hstop : StopsAs stop p) (h : Holds d offset (pre ++ r :: rest))
    (hpre : ∀ r' ∈ pre, p r' = false) (hr : p r = true) (hfuel : pre.length < fuel) :
    ∃ offset' dirEntry name, walk d stop fuel offset = some (.found offset' dirEntry name) ∧
      r.WellFormed ∧ ReadsRec d offset' r dirEntry name ∧ Holds d (offset' + r.rec_len) rest := by
  induction pre generalizing offset fuel with
  | nil =>
    obtain ⟨fuel, rfl⟩ : ∃ n, fuel = n + 1 := ⟨fuel - 1, by omega⟩
    rw [List.nil_append] at h
    cases h with
    | @cons _ _ _ dirEntry name hwf hread hrest =>
      refine ⟨offset, dirEntry, name, ?_, hwf, hread, hrest⟩
      rw [walk, hread.read]
      simp [hstop d offset r dirEntry name hwf hread, hr]
  | cons r' pre ih =>
    rw [List.length_cons] at hfuel
    obtain ⟨fuel, rfl⟩ : ∃ n, fuel = n + 1 := ⟨fuel - 1, by omega⟩
    rw [List.cons_append] at h
    cases h with
    | @cons _ _ _ dirEntry name hwf hread hrest =>
      have hpass : stop dirEntry name = false := by
        rw [hstop d offset r' dirEntry name hwf hread]
        exact hpre r' List.mem_cons_self
      rw [walk_pass hread.read hpass, hread.rec_len]
      exact ih hrest (fun r'' hr'' => hpre r'' (List.mem_cons_of_mem _ hr'')) (by omega)

theorem stopsAs_live : StopsAs live fun r => r.inode != 0 := by
  intro d offset r dirEntry name _ hread
  unfold live
  rw [hread.inode]

theorem stopsAs_nameMatches {cn_name : List UInt8} (hname : 0 ∉ cn_name) :
    StopsAs (nameMatches cn_name) fun r => r.inode != 0 && r.name == cn_name := by
  intro d offset r dirEntry name hwf hread
  unfold nameMatches
  rw [hread.inode]
  by_cases hlive : r.inode = 0
  · simp [hlive]
  · obtain ⟨hlen, hbytes⟩ := hread.name hlive
    have hiff := strncmpEq_iff (hwf.name hlive).2.2.2 hname
    rw [hlen, hbytes]
    by_cases heq : r.name = cn_name
    · simp [heq, strncmpEq]
    · have hcmp : strncmpEq r.name cn_name = false := by
        rw [Bool.eq_false_iff]
        intro h
        exact heq (hiff.mp h)
      simp [heq, hcmp]

/-! ## Lookup and readdir -/

/-- The inode that a lookup has found. -/
def LookupEnd.inode (d : Dir) : LookupEnd → Option UInt32
  | .error _ => none
  | .dir => some d.inode
  | .vgetino inode => some inode

/-- A lookup comes to an entry of length 0 that is not the one it looks for. -/
def LookupStuck (d : Dir) (access : Int) (cn_name : List UInt8) : Prop :=
  access = OK ∧ cn_name ≠ [46] ∧ Stuck d (nameMatches cn_name) 0

/-- A readdir comes to a deleted entry of length 0. -/
def ReaddirStuck (d : Dir) (index : Int) : Prop := 0 ≤ index ∧ Stuck d live index.toNat

theorem lookup_ends_iff (d : Dir) (access : Int) (cn_name : List UInt8) :
    (∃ fuel r, ext2fsVopLookup d access cn_name fuel = some r) ↔
      ¬ LookupStuck d access cn_name := by
  unfold ext2fsVopLookup LookupStuck
  by_cases haccess : access ≠ OK
  · simp only [if_pos haccess]
    exact iff_of_true ⟨0, _, rfl⟩ fun h => haccess h.1
  simp only [if_neg haccess]
  by_cases hdot : cn_name = [46]
  · simp only [if_pos hdot]
    exact iff_of_true ⟨0, _, rfl⟩ fun h => h.2.1 hdot
  rw [and_iff_right (not_ne_iff.mp haccess), and_iff_right hdot, ← walk_ends_iff]
  simp only [if_neg hdot, Option.map_eq_some_iff]
  constructor
  · rintro ⟨fuel, r, w, hw, -⟩
    exact ⟨fuel, w, hw⟩
  · rintro ⟨fuel, w, hw⟩
    exact ⟨fuel, _, w, hw, rfl⟩

theorem readdir_ends_iff (d : Dir) (index : Int) :
    (∃ fuel r, ext2fsVopReaddir d index fuel = some r) ↔ ¬ ReaddirStuck d index := by
  unfold ext2fsVopReaddir ReaddirStuck
  by_cases hneg : index < 0
  · simp only [if_pos hneg]
    exact iff_of_true ⟨0, _, rfl⟩ fun h => by omega
  rw [and_iff_right (show 0 ≤ index by omega), ← walk_ends_iff]
  simp only [if_neg hneg, Option.map_eq_some_iff]
  constructor
  · rintro ⟨fuel, r, w, hw, -⟩
    exact ⟨fuel, w, hw⟩
  · rintro ⟨fuel, w, hw⟩
    exact ⟨fuel, _, w, hw, rfl⟩

/-- A lookup in a well-formed directory finds the inode of the first live record with its name. -/
theorem WellFormed.lookup {blocks : List (List Rec)} (h : WellFormed d blocks)
    {cn_name : List UInt8} (hname : 0 ∉ cn_name) :
    ∃ r, ext2fsVopLookup d OK cn_name (d.i_size + 1) = some r ∧
      r.inode d = (findRec cn_name blocks.flatten).map Rec.inode := by
  unfold ext2fsVopLookup
  rw [if_neg (by simp)]
  by_cases hdot : cn_name = [46]
  · rw [if_pos hdot, hdot, h.dot]
    exact ⟨.dir, rfl, rfl⟩
  rw [if_neg hdot]
  have hholds := h.holds
  have hlen := hholds.length_le
  have hstop := stopsAs_nameMatches hname
  cases hfind : findRec cn_name blocks.flatten with
  | none =>
    have hnone : ∀ r ∈ blocks.flatten, (r.inode != 0 && r.name == cn_name) = false := by
      intro r hr
      have hnot := List.find?_eq_none.mp hfind r hr
      simpa using hnot
    rw [hholds.walk_eof hstop hnone (by omega)]
    exact ⟨_, rfl, rfl⟩
  | some r =>
    obtain ⟨hr, pre, rest, hsplit, hpre⟩ := List.find?_eq_some_iff_append.mp hfind
    rw [hsplit] at hholds hlen
    rw [List.length_append] at hlen
    have hpass : ∀ r' ∈ pre, (r'.inode != 0 && r'.name == cn_name) = false := by
      intro r' hr'
      have hnot := hpre r' hr'
      rwa [Bool.not_eq_true'] at hnot
    obtain ⟨offset', dirEntry, name, hwalk, -, hread, -⟩ :=
      hholds.walk_found hstop hpass hr (show _ < d.i_size + 1 by omega)
    rw [hwalk]
    refine ⟨_, rfl, ?_⟩
    dsimp only
    by_cases hself : dirEntry.inode = d.inode
    · rw [if_pos hself]
      show some d.inode = some r.inode
      rw [← hself, hread.inode]
    · rw [if_neg hself]
      show some dirEntry.inode = some r.inode
      rw [hread.inode]

/-- Calls of readdir from a record on return the live records in order and then the end. -/
theorem Holds.readAll (hsize : d.i_size < 2147483648) (n : Nat) :
    ∀ (rs : List Rec) (offset : Nat), rs.length ≤ n → Holds d offset rs →
      readAll d (d.i_size + 1) (n + 1) offset = some (liveRecs rs) := by
  induction n with
  | zero =>
    intro rs offset hlen h
    obtain rfl : rs = [] := List.eq_nil_of_length_eq_zero (by omega)
    have hwalk := h.walk_eof stopsAs_live (by simp) (show _ < d.i_size + 1 by simp)
    rw [Ext2Dir.readAll, ext2fsVopReaddir, if_neg (by omega), Int.toNat_natCast, hwalk]
    rfl
  | succ n ih =>
    intro rs offset hlen h
    have hle := h.length_le
    rw [Ext2Dir.readAll, ext2fsVopReaddir, if_neg (by omega), Int.toNat_natCast]
    cases hfind : rs.find? fun r => r.inode != 0 with
    | none =>
      have hnone : ∀ r ∈ rs, (r.inode != 0) = false := by
        intro r hr
        simpa using List.find?_eq_none.mp hfind r hr
      rw [h.walk_eof stopsAs_live hnone (by omega)]
      have hempty : liveRecs rs = [] := by
        unfold liveRecs
        rw [List.filter_eq_nil_iff.mpr (by simpa using hnone), List.map_nil]
      rw [hempty]
      rfl
    | some r =>
      obtain ⟨hr, pre, rest, hsplit, hpre⟩ := List.find?_eq_some_iff_append.mp hfind
      rw [hsplit] at h hle hlen
      rw [List.length_append, List.length_cons] at hle hlen
      have hpass : ∀ r' ∈ pre, (r'.inode != 0) = false := by
        intro r' hr'
        simpa using hpre r' hr'
      obtain ⟨offset', dirEntry, name, hwalk, hwf, hread, hrest⟩ :=
        h.walk_found stopsAs_live hpass hr (show _ < d.i_size + 1 by omega)
      have hlive : r.inode ≠ 0 := by simpa using hr
      have hend := hrest.length_le
      have hindex : ((offset' + dirEntry.rec_len.toNat : Nat) : Int).bmod 4294967296 =
          ((offset' + r.rec_len : Nat) : Int) := by
        rw [hread.rec_len]
        apply Int.bmod_eq_of_le <;> omega
      have hrecs : liveRecs rs = (r.inode, r.name) :: liveRecs rest := by
        unfold liveRecs
        rw [hsplit, List.filter_append, List.filter_eq_nil_iff.mpr (by simpa using hpass),
          List.nil_append, List.filter_cons, if_pos hr, List.map_cons]
      rw [hwalk]
      rw [Option.map_some]
      dsimp only
      rw [hindex, ih rest (offset' + r.rec_len) (by omega) hrest, hrecs, hread.inode,
        (hread.name hlive).2, strncpy_of_no_eos (hwf.name hlive).2.2.2]
      rfl

/-- A block of 32 bytes with two records: the directory itself and a file of one letter. -/
def twoRecords : Dir where
  inode := 2
  i_size := 32
  blkSize2 := 5
  bread := fun _ => (OK, fun i =>
    [2, 0, 0, 0, 12, 0, 1, 2, 46, 0, 0, 0, 5, 0, 0, 0, 20, 0, 1, 1, 97].getD i 0)

def twoRecordsBlocks : List (List Rec) := [[⟨2, 12, [46]⟩, ⟨5, 20, [97]⟩]]

theorem twoRecords_wellFormed : WellFormed twoRecords twoRecordsBlocks := by
  constructor
  case size => rfl
  case size_lt => decide
  case block =>
    intro lbn rs hrs
    cases lbn with
    | succ lbn => cases hrs
    | zero =>
      obtain rfl : [⟨2, 12, [46]⟩, ⟨5, 20, [97]⟩] = rs := Option.some.inj hrs
      refine ⟨rfl, ?_⟩
      refine .cons ⟨by decide, by decide, by decide⟩ ⟨by decide, by decide⟩ ?_
      refine .cons ⟨by decide, by decide, by decide⟩ ⟨by decide, by decide⟩ ?_
      exact .nil
  case dot => decide

/-- A directory of one block of zeros. -/
def zeroDir : Dir where
  inode := 2
  i_size := 1024
  blkSize2 := 10
  bread := fun _ => (OK, fun _ => 0)

end Vmx.Ext2Dir
