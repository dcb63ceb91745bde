import Vmx.Os.TyRing
import Vmx.Lib.Transition

/-!
# Line mode

In line mode the read buffer holds records: a byte for the length of a line, and the line.
What is left of a record that is partly read comes first; behind the records the line that is
edited is written ahead.  `Framed` says so, and each of the operations keeps it.

Three things break the framing.  A read buffer that is replaced while a line is edited or a
record is partly read leaves the two counters behind; `tyFlushRead` resets them.  The options
change before the buffer is flushed, so a read in between takes the bytes of one mode for those
of the other.  And a read that is not over meets bytes of the wrong mode when the options change
back before the flush.
-/

namespace Vmx.Ty

open Lib
open Rng hiding Ring

variable {chars : Chars} {tyId tyId' : TyDev} {c : UInt8} {line rest : List UInt8}
  {lines : List (List UInt8)} {left : Nat}

/-! ## Records -/

/-- A line behind the byte for its length. -/
def record (line : List UInt8) : List UInt8 := UInt8.ofNat line.length :: line

/-- The lines as the read buffer holds them. -/
def records (lines : List (List UInt8)) : List UInt8 := lines.flatMap record

@[simp] theorem records_nil : records [] = [] := rfl

theorem records_cons (line : List UInt8) (lines : List (List UInt8)) :
    records (line :: lines) = UInt8.ofNat line.length :: (line ++ records lines) := rfl

theorem records_concat (lines : List (List UInt8)) (line : List UInt8) :
    records (lines ++ [line]) = records lines ++ record line := by
  simp [records]

theorem toNat_length (h : line.length ≤ 255) : (UInt8.ofNat line.length).toNat = line.length := by
  rw [UInt8.toNat_ofNat']
  omega

/-- The read buffer of a device in line mode: `left` bytes of a record, whole records, and the
line that is edited ahead of them. -/
structure Framed (tyId : TyDev) (left : Nat) (line rest : List UInt8)
    (lines : List (List UInt8)) : Prop where
  valid : Valid tyId.readBuffer
  held : held tyId.readBuffer = rest ++ records lines
  left : rest.length = left
  short : ∀ l ∈ lines, l.length ≤ 255
  count : tyId.lnNBytes.toNat = line.length
  fits : line ≠ [] → line.length + 1 ≤ (ahead tyId.readBuffer).length
  ahead : ((ahead tyId.readBuffer).drop 1).take line.length = line

/-- The read side of a device is not touched. -/
structure SameRead (tyId tyId' : TyDev) : Prop where
  readBuffer : tyId'.readBuffer = tyId.readBuffer
  lnNBytes : tyId'.lnNBytes = tyId.lnNBytes
  lnBytesLeft : tyId'.lnBytesLeft = tyId.lnBytesLeft
  options : tyId'.options = tyId.options

theorem SameRead.refl (tyId : TyDev) : SameRead tyId tyId := ⟨rfl, rfl, rfl, rfl⟩

theorem SameRead.trans {tyId'' : TyDev} (h : SameRead tyId tyId') (h' : SameRead tyId' tyId'') :
    SameRead tyId tyId'' :=
  ⟨h'.readBuffer.trans h.readBuffer, h'.lnNBytes.trans h.lnNBytes,
    h'.lnBytesLeft.trans h.lnBytesLeft, h'.options.trans h.options⟩

/-- Neither side is touched, but for the flow control. -/
structure SameBuffers (tyId tyId' : TyDev) : Prop extends SameRead tyId tyId' where
  writeBuffer : tyId'.writeBuffer = tyId.writeBuffer
  writeSync : tyId'.writeSync = tyId.writeSync
  canceled : tyId'.writeState.canceled = tyId.writeState.canceled

theorem SameBuffers.refl (tyId : TyDev) : SameBuffers tyId tyId := ⟨.refl tyId, rfl, rfl, rfl⟩

theorem SameBuffers.trans {tyId'' : TyDev} (h : SameBuffers tyId tyId')
    (h' : SameBuffers tyId' tyId'') : SameBuffers tyId tyId'' :=
  ⟨h.toSameRead.trans h'.toSameRead, h'.writeBuffer.trans h.writeBuffer,
    h'.writeSync.trans h.writeSync, h'.canceled.trans h.canceled⟩

theorem Framed.of_eq (h : Framed tyId left line rest lines)
    (hring : tyId'.readBuffer = tyId.readBuffer) (hn : tyId'.lnNBytes = tyId.lnNBytes) :
    Framed tyId' left line rest lines := by
  constructor
  · rw [hring]
    exact h.valid
  · rw [hring]
    exact h.held
  · exact h.left
  · exact h.short
  · rw [hn]
    exact h.count
  · rw [hring]
    exact h.fits
  · rw [hring]
    exact h.ahead

/-- Without bytes, nothing is to be framed. -/
theorem framed_empty (hvalid : Valid tyId.readBuffer) (hheld : Ty.held tyId.readBuffer = [])
    (hn : tyId.lnNBytes = 0) : Framed tyId 0 [] [] [] where
  valid := hvalid
  held := hheld
  left := rfl
  short l hl := absurd hl List.not_mem_nil
  count := by
    rw [hn]
    rfl
  fits h := absurd rfl h
  ahead := rfl

/-! ## A character -/

/-- A byte behind the first `n` ones, after the one for the length. -/
theorem take_set {a : List UInt8} {n : Nat} (h : n + 1 < a.length) (c : UInt8) :
    ((a.set (n + 1) c).drop 1).take (n + 1) = (a.drop 1).take n ++ [c] := by
  cases a with
  | nil => simp at h
  | cons x a =>
    rw [List.length_cons] at h
    have hn : n < (a.set n c).length := by
      rw [List.length_set]
      omega
    rw [List.set_cons_succ, List.drop_one, List.tail_cons, List.drop_one, List.tail_cons,
      ← List.take_append_getElem hn, List.take_set_of_le (Nat.le_refl n), List.getElem_set_self]

/-- The line is not longer than the room for it. -/
theorem Framed.room (h : Framed tyId left line rest lines) (hpos : 0 < (Ty.ahead tyId.readBuffer).length) :
    line.length + 1 ≤ (Ty.ahead tyId.readBuffer).length := by
  by_cases hline : line = []
  · rw [hline, List.length_nil]
    omega
  · exact h.fits hline

/-- Another line is written ahead, of which the device knows the length. -/
theorem Framed.edit {line' a : List UInt8} (h : Framed tyId left line rest lines)
    (hring : After tyId.readBuffer tyId'.readBuffer (Ty.held tyId.readBuffer) a)
    (hcount : tyId'.lnNBytes.toNat = line'.length) (hfits : line' ≠ [] → line'.length + 1 ≤ a.length)
    (hahead : (a.drop 1).take line'.length = line') :
    Framed tyId' left line' rest lines where
  valid := hring.valid
  held := hring.held.trans h.held
  left := h.left
  short := h.short
  count := hcount
  fits := by
    rw [hring.ahead]
    exact hfits
  ahead := by
    rw [hring.ahead]
    exact hahead

/-- The first bytes of the line are a line. -/
theorem Framed.take {n : Nat} (h : Framed tyId left line rest lines) (hn : n ≤ line.length)
    (hring : tyId'.readBuffer = tyId.readBuffer) (hcount : tyId'.lnNBytes.toNat = n) :
    Framed tyId' left (line.take n) rest lines := by
  have hlen : (line.take n).length = n := List.length_take_of_le hn
  refine h.edit ⟨?_, ?_, rfl⟩ (hcount.trans hlen.symm) (fun hne => ?_) ?_
  · rw [hring]
    exact h.valid
  · rw [hring]
  · have hline : line ≠ [] := by
      rintro rfl
      exact hne List.take_nil
    have hfits := h.fits hline
    rw [hring]
    omega
  · rw [hring, hlen]
    conv_rhs => rw [← h.ahead]
    rw [List.take_take, Nat.min_eq_left hn]

/-- A character is written behind the first `n` bytes of the line. -/
theorem Framed.put {n : Nat} (h : Framed tyId left line rest lines) (hn : n ≤ line.length)
    (hroom : n + 1 < (Ty.ahead tyId.readBuffer).length) (hcount : tyId'.lnNBytes.toNat = n + 1)
    (hring : tyId'.readBuffer =
      tyId.readBuffer.map fun ringId => rngPutAhead ringId c tyId'.lnNBytes.toNat) :
    Framed tyId' left (line.take n ++ [c]) rest lines := by
  have hlen : (line.take n ++ [c]).length = n + 1 := by
    rw [List.length_append, List.length_take_of_le hn]
    rfl
  have hafter := putAhead_spec h.valid c (Nat.le_of_lt hroom)
  rw [hcount] at hring
  refine h.edit (hring ▸ hafter) (hcount.trans hlen.symm) (fun _ => ?_) ?_
  · rw [hlen, List.length_set]
    omega
  · rw [hlen, take_set hroom]
    congr 1
    conv_rhs => rw [← h.ahead]
    rw [List.take_take, Nat.min_eq_left hn]

/-- The line becomes a record. -/
theorem Framed.release (h : Framed tyId left line rest lines)
    (hroom : line.length + 1 ≤ (Ty.ahead tyId.readBuffer).length) :
    Framed (tyLineRelease tyId) left [] rest (lines ++ [line]) := by
  have hput := putAhead_spec h.valid tyId.lnNBytes (Nat.zero_le _)
  have hlen : line.length + 1 ≤
      (Ty.ahead (tyId.readBuffer.map fun r => rngPutAhead r tyId.lnNBytes 0)).length := by
    rw [hput.ahead, List.length_set]
    exact hroom
  have hmove := moveAhead_spec hput.valid hlen
  rw [Option.map_map, hput.held, hput.ahead, ← h.count] at hmove
  -- the byte for the length, and the line behind it
  have hrecord : ((Ty.ahead tyId.readBuffer).set 0 tyId.lnNBytes).take (line.length + 1) =
      record line := by
    obtain ⟨x, a, ha⟩ := List.exists_cons_of_ne_nil (l := Ty.ahead tyId.readBuffer) (by
      intro hnil
      rw [hnil, List.length_nil] at hroom
      omega)
    have hahead := h.ahead
    rw [ha, List.drop_one, List.tail_cons] at hahead
    rw [ha, List.set_cons_zero, List.take_succ_cons, hahead, record, ← h.count,
      UInt8.ofNat_toNat]
  rw [h.count, hrecord] at hmove
  refine ⟨?_, ?_, h.left, ?_, rfl, fun hne => absurd rfl hne, rfl⟩
  · rw [← h.count] at hmove
    exact hmove.valid
  · rw [← h.count] at hmove
    rw [records_concat, ← List.append_assoc, ← h.held]
    exact hmove.held
  · intro l hl
    obtain hl | hl := List.mem_append.1 hl
    · exact h.short l hl
    · rw [List.mem_singleton.1 hl, ← h.count]
      exact Nat.le_of_lt_succ tyId.lnNBytes.toNat_lt

/-- A character of a line: the device and the list are edited in the same way. -/
theorem Framed.lineChar (h : Framed tyId left line rest lines) (hlt : line.length < 255)
    (chars : Chars) (c : UInt8) :
    (tyLineChar chars tyId c).2.2 = (editLine chars (freeBytes tyId.readBuffer) line c).2 ∧
      Framed (tyLineChar chars tyId c).1 left (editLine chars (freeBytes tyId.readBuffer) line c).1
        rest lines ∧
      ((editLine chars (freeBytes tyId.readBuffer) line c).2 = false →
        (editLine chars (freeBytes tyId.readBuffer) line c).1.length < 255) ∧
      ((editLine chars (freeBytes tyId.readBuffer) line c).2 = true →
        (editLine chars (freeBytes tyId.readBuffer) line c).1.length + 1 ≤
          (Ty.ahead (tyLineChar chars tyId c).1.readBuffer).length) := by
  have hfree := freeBytes_eq h.valid
  have hcount := h.count
  unfold editLine tyLineChar
  dsimp only
  split
  next =>
    -- backspace
    have hdrop : line.dropLast = line.take (line.length - 1) := List.dropLast_eq_take
    have hle : line.dropLast.length < 255 := by
      rw [List.length_dropLast]
      omega
    by_cases hzero : tyId.lnNBytes = 0
    · have hnil : line = [] := by
        rw [hzero] at hcount
        exact List.length_eq_zero_iff.1 hcount.symm
      rw [if_neg (not_not.2 hzero)]
      subst hnil
      exact ⟨rfl, h, fun _ => hle, fun hdone => absurd hdone Bool.false_ne_true⟩
    · rw [if_pos hzero]
      refine ⟨rfl, ?_, fun _ => hle, fun hdone => absurd hdone Bool.false_ne_true⟩
      rw [hdrop]
      refine h.take (Nat.sub_le _ _) rfl ?_
      have hne : tyId.lnNBytes.toNat ≠ 0 := fun heq => hzero (UInt8.toNat_inj.1 heq)
      have hone : (1 : UInt8) ≤ tyId.lnNBytes := by
        rw [UInt8.le_iff_toNat_le]
        exact Nat.one_le_iff_ne_zero.2 hne
      show (tyId.lnNBytes - 1).toNat = _
      rw [UInt8.toNat_sub_of_le _ _ hone, hcount]
      rfl
  next =>
    split
    next =>
      -- the line is deleted
      have hdel : ([] : List UInt8) = line.take 0 := rfl
      refine ⟨rfl, ?_, fun _ => by decide, fun hdone => absurd hdone Bool.false_ne_true⟩
      rw [hdel]
      exact h.take (Nat.zero_le _) rfl rfl
    next =>
      split
      next =>
        -- the end of the file
        refine ⟨rfl, h, fun _ => hlt, fun hdone => h.room ?_⟩
        rw [hfree] at hdone
        simpa using hdone
      next =>
        split
        next htwo =>
          obtain ⟨n, hn, hline, hput, hnroom⟩ : ∃ n, n ≤ line.length ∧
              (if (line.length : Int) + 2 ≤ freeBytes tyId.readBuffer then line ++ [c]
                else line.dropLast ++ [c]) = line.take n ++ [c] ∧
              (if (tyId.lnNBytes.toNat : Int) + 2 ≤ freeBytes tyId.readBuffer
                then tyId.lnNBytes + 1 else tyId.lnNBytes).toNat = n + 1 ∧
              n + 1 < (Ty.ahead tyId.readBuffer).length := by
            rw [hcount]
            split
            next hroom =>
              -- the character is added
              refine ⟨line.length, Nat.le_refl _, by rw [List.take_length], ?_, by omega⟩
              rw [UInt8.toNat_add, hcount]
              show (line.length + 1) % 256 = _
              omega
            next hroom =>
              -- it takes the place of the last one
              have hfits := h.room (by omega)
              refine ⟨line.length - 1, Nat.sub_le _ _, by rw [List.dropLast_eq_take], ?_, ?_⟩
              · rw [hcount]
                omega
              · omega
          have hlen : (line.take n ++ [c]).length = n + 1 := by
            rw [List.length_append, List.length_take_of_le hn]
            rfl
          rw [hline]
          refine ⟨?_, h.put hn hnroom hput rfl, fun hdone => ?_, fun _ => ?_⟩
          · refine congrArg (decide (c = 10) || ·) ?_
            rw [hlen, decide_eq_decide, ← UInt8.toNat_inj, hput]
            rfl
          · dsimp only at hdone ⊢
            have hne := of_decide_eq_false (Bool.or_eq_false_iff.1 hdone).2
            omega
          · have hafter := putAhead_spec h.valid c (Nat.le_of_lt hnroom)
            rw [hlen, hput, hafter.ahead, List.length_set]
            omega
        next => exact ⟨rfl, h, fun _ => hlt, fun hdone => absurd hdone Bool.false_ne_true⟩

/-- What a character in the read buffer does not change. -/
structure SameElse (tyId tyId' : TyDev) : Prop where
  lnBytesLeft : tyId'.lnBytesLeft = tyId.lnBytesLeft
  options : tyId'.options = tyId.options
  writeBuffer : tyId'.writeBuffer = tyId.writeBuffer
  writeSync : tyId'.writeSync = tyId.writeSync
  canceled : tyId'.writeState.canceled = tyId.writeState.canceled

theorem tyLineChar_else (chars : Chars) (tyId : TyDev) (c : UInt8) :
    SameElse tyId (tyLineChar chars tyId c).1 := by
  unfold tyLineChar
  dsimp only
  split_ifs <;> exact ⟨rfl, rfl, rfl, rfl, rfl⟩

theorem tyPutChar_else {r : TyDev × Int × Bool} (h : tyPutChar chars tyId c = some r) :
    SameElse tyId r.1 := by
  unfold tyPutChar at h
  split at h
  · cases h
    obtain ⟨hleft, hoptions, hbuffer, hsync, hcanceled⟩ := tyLineChar_else chars tyId c
    dsimp only
    split
    · exact ⟨hleft, hoptions, hbuffer, hsync, hcanceled⟩
    · exact ⟨hleft, hoptions, hbuffer, hsync, hcanceled⟩
  · obtain ⟨ringId, _, rfl⟩ := Option.map_eq_some_iff.1 h
    exact ⟨rfl, rfl, rfl, rfl, rfl⟩

/-- A character in line mode. -/
theorem Framed.putChar {r : TyDev × Int × Bool} (h : Framed tyId left line rest lines)
    (hlt : line.length < 255) (hline : hasOpt tyId.options OPT_LINE = true)
    (hput : tyPutChar chars tyId c = some r) :
    ((editLine chars (freeBytes tyId.readBuffer) line c).2 = true →
      Framed r.1 left [] rest
        (lines ++ [(editLine chars (freeBytes tyId.readBuffer) line c).1])) ∧
    ((editLine chars (freeBytes tyId.readBuffer) line c).2 = false →
      Framed r.1 left (editLine chars (freeBytes tyId.readBuffer) line c).1 rest lines ∧
        (editLine chars (freeBytes tyId.readBuffer) line c).1.length < 255) := by
  obtain ⟨hdone, hchar, hshort, hroom⟩ := h.lineChar hlt chars c
  rw [tyPutChar, if_pos hline] at hput
  cases hput
  dsimp only
  rw [hdone]
  constructor
  · intro htrue
    rw [if_pos htrue]
    exact hchar.release (hroom htrue)
  · intro hfalse
    rw [if_neg (Bool.eq_false_iff.1 hfalse)]
    exact ⟨hchar, hshort hfalse⟩

/-- A character in raw mode. -/
theorem putChar_raw {r : TyDev × Int × Bool} (hvalid : Valid tyId.readBuffer)
    (hraw : hasOpt tyId.options OPT_LINE = false) (hput : tyPutChar chars tyId c = some r) :
    ∃ more, held r.1.readBuffer = held tyId.readBuffer ++ more := by
  rw [tyPutChar, if_neg (Bool.eq_false_iff.1 hraw)] at hput
  obtain ⟨ringId, hring, rfl⟩ := Option.map_eq_some_iff.1 hput
  rw [hring] at hvalid ⊢
  have hafter := elemPut_spec (valid_some.1 hvalid) c
  exact ⟨_, hafter.held⟩

/-- The read buffer is a ring, and the line that is edited is shorter than it. -/
structure Small (tyId : TyDev) : Prop where
  valid : Valid tyId.readBuffer
  small : ∀ r, tyId.readBuffer = some r →
    tyId.lnNBytes = 0 ∨ tyId.lnNBytes.toNat + 1 < r.bufferSize

theorem Small.of_same (h : Small tyId) (hsame : SameRead tyId tyId') : Small tyId' := by
  obtain ⟨hring, hn, _, _⟩ := hsame
  constructor
  · rw [hring]
    exact h.valid
  · rw [hring, hn]
    exact h.small

theorem Small.lineChar (h : Small tyId) (chars : Chars) (c : UInt8) :
    Small (tyLineChar chars tyId c).1 := by
  unfold tyLineChar
  dsimp only
  split
  · -- backspace
    split
    next hne =>
      refine ⟨h.valid, fun r hr => ?_⟩
      have hone : (1 : UInt8) ≤ tyId.lnNBytes := by
        rw [UInt8.le_iff_toNat_le]
        exact Nat.one_le_iff_ne_zero.2 fun heq => hne (UInt8.toNat_inj.1 heq)
      have hsub : (tyId.lnNBytes - 1).toNat = tyId.lnNBytes.toNat - 1 :=
        UInt8.toNat_sub_of_le _ _ hone
      have hlt := (h.small r hr).resolve_left hne
      right
      dsimp only
      omega
    next => exact h
  split
  · exact ⟨h.valid, fun _ _ => .inl rfl⟩
  split
  · exact h
  split
  · -- a character that is written ahead
    refine ⟨fun r hr => ?_, fun r hr => ?_⟩
    · obtain ⟨r₀, hr₀, rfl⟩ := Option.map_eq_some_iff.1 hr
      have hvalid := h.valid r₀ hr₀
      exact ⟨hvalid.to_lt, hvalid.from_lt⟩
    · obtain ⟨r₀, hr₀, rfl⟩ := Option.map_eq_some_iff.1 hr
      have hvalid := h.valid r₀ hr₀
      have hcount := hvalid.count_lt
      dsimp only
      split
      next hroom =>
        rw [hr₀, freeBytes, rngFreeBytes_eq hvalid] at hroom
        right
        show (tyId.lnNBytes + 1).toNat + 1 < r₀.bufferSize
        rw [UInt8.toNat_add]
        show (tyId.lnNBytes.toNat + 1) % 256 + 1 < _
        omega
      next => exact h.small r₀ hr₀
  · exact h

theorem Small.release (h : Small tyId) : Small (tyLineRelease tyId) := by
  refine ⟨fun r hr => ?_, fun _ _ => .inl rfl⟩
  obtain ⟨r₀, hr₀, rfl⟩ := Option.map_eq_some_iff.1 hr
  have hto := (h.valid r₀ hr₀).to_lt
  have hlt : tyId.lnNBytes.toNat + 1 ≤ r₀.bufferSize := by
    obtain hzero | hlt := h.small r₀ hr₀
    · rw [hzero]
      exact Nat.succ_le_of_lt (Nat.zero_lt_of_lt hto)
    · exact Nat.le_of_lt hlt
  refine ⟨?_, (h.valid r₀ hr₀).from_lt⟩
  show (if tyId.lnNBytes.toNat + 1 + r₀.offsetToBuffer ≥ r₀.bufferSize
    then tyId.lnNBytes.toNat + 1 + r₀.offsetToBuffer - r₀.bufferSize
    else tyId.lnNBytes.toNat + 1 + r₀.offsetToBuffer) < r₀.bufferSize
  split <;> omega

theorem Small.putChar {r : TyDev × Int × Bool} (h : Small tyId)
    (hput : tyPutChar chars tyId c = some r) : Small r.1 := by
  unfold tyPutChar at hput
  split at hput
  · cases hput
    have hchar := h.lineChar chars c
    dsimp only
    split
    · exact hchar.release
    · exact hchar
  · obtain ⟨ringId, hring, rfl⟩ := Option.map_eq_some_iff.1 hput
    have hvalid := h.valid ringId hring
    obtain ⟨h', hsize, _⟩ := step_refines (.elemPut c) hvalid rfl
    refine ⟨valid_some.2 h', fun r hr => ?_⟩
    cases hr
    rw [hsize]
    exact h.small ringId hring

/-! ## What else the interrupts do -/

theorem tyReadXoff_same (tyId : TyDev) (xoff : Bool) : SameBuffers tyId (tyReadXoff tyId xoff) := by
  unfold tyReadXoff
  split
  · exact ⟨⟨rfl, rfl, rfl, rfl⟩, rfl, rfl, rfl⟩
  · exact .refl tyId

theorem tyWriteXoff_same (tyId : TyDev) (xoff : Bool) : SameBuffers tyId (tyWriteXoff tyId xoff) := by
  unfold tyWriteXoff
  split_ifs
  · exact ⟨⟨rfl, rfl, rfl, rfl⟩, rfl, rfl, rfl⟩
  · exact ⟨⟨rfl, rfl, rfl, rfl⟩, rfl, rfl, rfl⟩
  · exact .refl tyId

theorem tyTandem_same (tyId : TyDev) : SameBuffers tyId (tyTandem tyId) := by
  unfold tyTandem
  split_ifs
  · exact tyReadXoff_same tyId true
  · exact .refl tyId
  · exact tyReadXoff_same tyId false
  · exact .refl tyId
  · exact .refl tyId

theorem tyReadEnd_same (tyId : TyDev) : SameBuffers tyId (tyReadEnd tyId) := by
  obtain ⟨dev, hdev⟩ : ∃ dev, dev = (if hasOpt tyId.options OPT_TANDEM ∧ tyId.readState.xoff ∧
    readRoom tyId > tyXonTreshold then tyReadXoff tyId false else tyId) := ⟨_, rfl⟩
  have hsame : SameBuffers tyId dev := by
    rw [hdev]
    split
    · exact tyReadXoff_same tyId false
    · exact .refl tyId
  unfold tyReadEnd
  dsimp only
  rw [← hdev]
  split
  · exact hsame.trans ⟨⟨rfl, rfl, rfl, rfl⟩, rfl, rfl, rfl⟩
  · exact hsame

theorem tySetTandem_same (tyId : TyDev) (old : UInt16) : SameBuffers tyId (tySetTandem tyId old) := by
  unfold tySetTandem
  split
  · exact (tyReadXoff_same tyId false).trans (tyWriteXoff_same _ false)
  · exact .refl tyId

theorem tyEcho_same (h : tyEcho chars tyId c = some tyId') : SameRead tyId tyId' := by
  have hecho : ∀ r : Option RingId,
      (r.map fun ringId => tyTxStartup { tyId with writeBuffer := ringId }) = some tyId' →
        SameRead tyId tyId' := by
    intro r hr
    obtain ⟨ringId, _, rfl⟩ := Option.map_eq_some_iff.1 hr
    exact ⟨rfl, rfl, rfl, rfl⟩
  unfold tyEcho at h
  dsimp only at h
  split_ifs at h
  · exact hecho _ h
  · exact hecho _ h
  · cases h
    exact .refl tyId
  · exact hecho _ h
  · exact hecho _ h
  · exact hecho _ h
  · cases h
    exact .refl tyId

theorem tyIntTx_same {r : Int × Option UInt8} (h : tyIntTx tyId = some (tyId', r)) :
    SameRead tyId tyId' := by
  obtain ⟨⟨tyId₁, pc⟩, hr, heq⟩ := Option.map_eq_some_iff.1 h
  obtain ⟨rfl, _⟩ := Prod.mk.inj heq
  split at hr
  · cases hr
    exact ⟨rfl, rfl, rfl, rfl⟩
  split at hr
  · cases hr
    exact ⟨rfl, rfl, rfl, rfl⟩
  split at hr
  · cases hr
    exact ⟨rfl, rfl, rfl, rfl⟩
  obtain ⟨ringId, _, hget⟩ := Option.map_eq_some_iff.1 hr
  split at hget
  · obtain ⟨rfl, _⟩ := Prod.mk.inj hget
    exact ⟨rfl, rfl, rfl, rfl⟩
  · obtain ⟨rfl, _⟩ := Prod.mk.inj hget
    dsimp only
    split
    · exact ⟨rfl, rfl, rfl, rfl⟩
    · exact ⟨rfl, rfl, rfl, rfl⟩

/-- A character does not reach the read buffer, or it is put there. -/
theorem intRd_cases {hookRv : Bool} {status : Int}
    (h : tyIntRd chars hookRv tyId c = some (tyId', status)) :
    tyReaches chars hookRv tyId c = none ∧ SameBuffers tyId tyId' ∨
      ∃ c' dev r, tyReaches chars hookRv tyId c = some c' ∧ tyEcho chars tyId c' = some dev ∧
        tyPutChar chars dev c' = some r ∧ SameBuffers r.1 tyId' := by
  unfold tyIntRd at h
  unfold tyReaches
  dsimp only at h ⊢
  generalize (if hasOpt tyId.options OPT_7_BIT then c &&& 0x7f else c) = c₁ at h ⊢
  by_cases hflush : tyId.readState.flushingReadBuffer = true
  · rw [if_pos hflush] at h
    cases h
    rw [if_pos (.inl hflush)]
    exact .inl ⟨rfl, .refl tyId⟩
  rw [if_neg hflush] at h
  by_cases hhook : hookRv = true
  · rw [if_pos hhook] at h
    cases h
    rw [if_pos (.inr hhook)]
    exact .inl ⟨rfl, .refl tyId⟩
  rw [if_neg hhook] at h
  rw [if_neg (not_or.2 ⟨hflush, hhook⟩)]
  split at h
  next habort =>
    cases h
    rw [if_pos habort]
    exact .inl ⟨rfl, .refl tyId⟩
  next habort =>
    rw [if_neg habort]
    split at h
    next htrap =>
      cases h
      rw [if_pos htrap]
      exact .inl ⟨rfl, .refl tyId⟩
    next htrap =>
      rw [if_neg htrap]
      split at h
      next hxoff =>
        cases h
        rw [if_pos hxoff]
        exact .inl ⟨rfl, tyWriteXoff_same tyId true⟩
      next hxoff =>
        rw [if_neg hxoff]
        obtain ⟨dev, hecho, hput⟩ := Option.bind_eq_some_iff.1 h
        obtain ⟨r, hr, heq⟩ := Option.map_eq_some_iff.1 hput
        obtain ⟨rfl, _⟩ := Prod.mk.inj heq
        refine .inr ⟨_, dev, r, rfl, hecho, hr, ?_⟩
        split
        · exact (tyTandem_same r.1).trans ⟨⟨rfl, rfl, rfl, rfl⟩, rfl, rfl, rfl⟩
        · exact tyTandem_same r.1

/-! ## The calls -/

variable {s s' : State} {op : Op} {i : Nat}

/-- The call that has the mutex is known to have it. -/
def Owned (s : State) : Prop := ∀ i sec, s.mutex = some (i, sec) → s.calls[i]? = some .inside

/-- A call that neither has the mutex or `writeSync`, nor changes the mode. -/
def Call.quiet : Call → Bool
  | .inside | .writeSynced _ _ | .setOptions _ | .flushRead (some _) => false
  | _ => true

/-- The call that takes the mutex for a section. -/
def Section.entry : Section → Call
  | .readBuf nBytes => .readSynced nBytes
  | .writeBuf buffer put => .writeSynced buffer put
  | .flushRead old => .flushRead old
  | .flushWrite => .flushWrite
  | .rdBufSet memory size => .rdBufSet memory size
  | .wrtBufSet memory size => .wrtBufSet memory size
  | _ => .inside

/-- What a call without the mutex does. -/
inductive TaskCase (s : State) (i : Nat) : State → Prop where
  | quiet {old call : Call} {dev : TyDev} (hold : s.calls[i]? = some old) (hq : old.quiet = true)
      (hq' : call.quiet = true) (hdev : SameBuffers s.dev dev)
      (hwrite : ∀ buffer put, call ≠ .write buffer put)
      (hwrote : ∀ buffer, call = .wrote buffer →
        ∃ put, old = .write buffer put ∧ buffer.length ≤ put) :
      TaskCase s i (s.goOn i dev call)
  | canceled {buffer : List UInt8} {put : Nat} (hold : s.calls[i]? = some (.writeSynced buffer put))
      (hcanceled : s.dev.writeState.canceled = true) : TaskCase s i (s.goOn i s.dev .done)
  | setOptions {arg : UInt16} (hold : s.calls[i]? = some (.setOptions arg)) :
      TaskCase s i (s.goOn i { s.dev with options := arg }
        (if hasOpt s.dev.options OPT_LINE ≠ hasOpt arg OPT_LINE then
          .flushRead (some s.dev.options) else .setTandem s.dev.options))
  | takeSync {buffer : List UInt8} {put : Nat} (hold : s.calls[i]? = some (.write buffer put))
      (hput : put < buffer.length) (hsync : s.dev.writeSync = true) :
      TaskCase s i (s.goOn i { s.dev with writeSync := false } (.writeSynced buffer put))
  | enter {dev : TyDev} {sec : Section} (hold : s.calls[i]? = some sec.entry)
      (hentry : sec.entry ≠ .inside) (hfree : s.mutex = none) (hdev : SameBuffers s.dev dev) :
      TaskCase s i
        { s with dev := dev, mutex := some (i, sec), calls := s.calls.set i .inside }

theorem State.enter_cases {dev : TyDev} {sec : Section} (h : s.enter i dev sec = some s') :
    s.mutex = none ∧
      s' = { s with dev := dev, mutex := some (i, sec), calls := s.calls.set i .inside } := by
  rw [State.enter, Option.ite_none_right_eq_some] at h
  exact ⟨h.1, (Option.some.inj h.2).symm⟩

theorem taskStep_cases (h : taskStep s i = some s') : TaskCase s i s' := by
  unfold taskStep at h
  split at h
  next nBytes hold =>
    rw [Option.ite_none_right_eq_some] at h
    obtain rfl := Option.some.inj h.2
    exact .quiet hold rfl rfl ⟨⟨rfl, rfl, rfl, rfl⟩, rfl, rfl, rfl⟩ (by simp) (by simp)
  next nBytes hold =>
    split at h
    · rw [Option.ite_none_right_eq_some] at h
      obtain rfl := Option.some.inj h.2
      refine .quiet hold rfl ?_ (.refl _) ?_ ?_
      · split <;> rfl
      · split <;> simp
      · split <;> simp
    · obtain ⟨hfree, rfl⟩ := State.enter_cases h
      exact .enter hold (by simp [Section.entry]) hfree (.refl _)
  next buffer put hold =>
    split at h
    next hdone =>
      cases h
      refine .quiet hold rfl rfl (.refl _) (by simp) ?_
      rintro buffer' heq
      obtain rfl := Call.wrote.inj heq
      exact ⟨put, rfl, hdone⟩
    next hmore =>
      rw [Option.ite_none_right_eq_some] at h
      obtain rfl := Option.some.inj h.2
      exact .takeSync hold (Nat.lt_of_not_le hmore) h.1
  next buffer put hold =>
    split at h
    next hcanceled =>
      rw [Option.ite_none_right_eq_some] at h
      obtain rfl := Option.some.inj h.2
      exact .canceled hold hcanceled
    next =>
      obtain ⟨hfree, rfl⟩ := State.enter_cases h
      exact .enter hold (by simp [Section.entry]) hfree (.refl _)
  next arg hold =>
    cases h
    exact .setOptions hold
  next old hold =>
    obtain ⟨hfree, rfl⟩ := State.enter_cases h
    exact .enter hold (by simp [Section.entry]) hfree ⟨⟨rfl, rfl, rfl, rfl⟩, rfl, rfl, rfl⟩
  next old hold =>
    cases h
    exact .quiet hold rfl rfl (tySetTandem_same _ _) (by simp) (by simp)
  next hold =>
    obtain ⟨hfree, rfl⟩ := State.enter_cases h
    exact .enter hold (by simp [Section.entry]) hfree ⟨⟨rfl, rfl, rfl, rfl⟩, rfl, rfl, rfl⟩
  next memory size hold =>
    obtain ⟨hfree, rfl⟩ := State.enter_cases h
    exact .enter hold (by simp [Section.entry]) hfree ⟨⟨rfl, rfl, rfl, rfl⟩, rfl, rfl, rfl⟩
  next memory size hold =>
    obtain ⟨hfree, rfl⟩ := State.enter_cases h
    exact .enter hold (by simp [Section.entry]) hfree ⟨⟨rfl, rfl, rfl, rfl⟩, rfl, rfl, rfl⟩
  next => exact absurd h (Option.some_ne_none _).symm

theorem set_other {l : List Call} {j : Nat} {a b : Call} (hi : l[i]? = some a) (hj : l[j]? = some b)
    (hne : a ≠ b) (call : Call) : (l.set i call)[j]? = some b := by
  have hij : i ≠ j := by
    rintro rfl
    exact hne (Option.some.inj (hi.symm.trans hj))
  rw [List.getElem?_set_ne hij, hj]

theorem Owned.goOn {old call : Call} {dev : TyDev} (h : Owned s) (hold : s.calls[i]? = some old)
    (hne : old ≠ .inside) : Owned (s.goOn i dev call) :=
  fun j sec hj => set_other hold (h j sec hj) hne call

theorem owned_task (h : Owned s) (hs : taskStep s i = some s') : Owned s' := by
  cases taskStep_cases hs with
  | quiet hold hq =>
    refine h.goOn hold ?_
    rintro rfl
    exact absurd hq Bool.false_ne_true
  | canceled hold => exact h.goOn hold (by simp)
  | setOptions hold => exact h.goOn hold (by simp)
  | takeSync hold => exact h.goOn hold (by simp)
  | enter hold =>
    intro j sec' hj
    cases hj
    exact List.getElem?_set_self (List.getElem?_eq_some_iff.1 hold).1

/-- The call that has the mutex keeps it, or gives it back. -/
theorem owned_owner (h : Owned s) (hs : ownerStep s = some s') : Owned s' := by
  unfold ownerStep at hs
  split at hs
  next => exact absurd hs (Option.some_ne_none _).symm
  next i sec hmutex =>
    have hinside := h i sec hmutex
    have hkeep : s'.calls = s.calls → (∃ sec', s'.mutex = some (i, sec')) → Owned s' := by
      rintro hcalls ⟨sec', hm⟩ j sec'' hj
      rw [hm] at hj
      cases hj
      rw [hcalls]
      exact hinside
    have hleave : s'.mutex = none → Owned s' := by
      intro hm j sec'' hj
      rw [hm] at hj
      exact absurd hj (Option.some_ne_none _).symm
    cases sec with
    | readBuf nBytes =>
      dsimp only at hs
      split at hs
      · split at hs
        · obtain ⟨ringId, _, rfl⟩ := Option.map_eq_some_iff.1 hs
          exact hkeep rfl ⟨_, rfl⟩
        · cases hs
          exact hkeep rfl ⟨_, rfl⟩
      · cases hs
        exact hkeep rfl ⟨_, rfl⟩
    | readLine | readLeft | writeBuf | writeBusy =>
      cases hs
      exact hkeep rfl ⟨_, rfl⟩
    | readEnd | writeMore | flushRead | flushWrite | rdBufSet | wrtBufSet =>
      cases hs
      exact hleave rfl

theorem State.edit_calls (s : State) (chars : Chars) (hookRv : Bool) (c : UInt8) :
    (s.edit chars hookRv c).calls = s.calls ∧ (s.edit chars hookRv c).mutex = s.mutex ∧
      (s.edit chars hookRv c).delivered = s.delivered ∧ (s.edit chars hookRv c).puts = s.puts := by
  unfold State.edit
  split
  · exact ⟨rfl, rfl, rfl, rfl⟩
  · dsimp only
    split_ifs
    · exact ⟨rfl, rfl, rfl, rfl⟩
    · exact ⟨rfl, rfl, rfl, rfl⟩
    · exact ⟨rfl, rfl, rfl, rfl⟩

theorem owned_step (h : Owned s) (hs : step chars s op = some s') : Owned s' := by
  cases op with
  | start request =>
    cases hs
    intro j sec hj
    have hinside := h j sec hj
    exact (List.getElem?_append_left (List.getElem?_eq_some_iff.1 hinside).1).trans hinside
  | task i => exact owned_task h hs
  | owner => exact owned_owner h hs
  | intRd hookRv c =>
    obtain ⟨r, _, rfl⟩ := Option.map_eq_some_iff.1 hs
    obtain ⟨hcalls, hmutex, _⟩ := s.edit_calls chars hookRv c
    intro j sec hj
    dsimp only at hj ⊢
    rw [hcalls]
    exact h j sec (hmutex ▸ hj)
  | intTx =>
    obtain ⟨r, _, rfl⟩ := Option.map_eq_some_iff.1 hs
    exact h

/-! ## The framing of a run -/

def Call.unflushed : Call → Bool
  | .flushRead (some _) => true
  | _ => false

def Section.unflushed : Section → Bool
  | .flushRead (some _) => true
  | _ => false

/-- The mode has changed, and the read buffer is not yet flushed. -/
def unflushed (s : State) : Bool :=
  s.calls.any Call.unflushed || (s.mutex.map fun m => m.2.unflushed).getD false

/-- A read in line mode that knows `lnBytesLeft` is not over. -/
def Section.inLine : Section → Bool
  | .readLine _ | .readLeft _ => true
  | _ => false

def inLine (s : State) : Bool := (s.mutex.map fun m => m.2.inLine).getD false

/-- The bytes that a read has taken, but not yet counted. -/
def Section.taken : Section → Nat
  | .readLeft n => n
  | _ => 0

def taken (s : State) : Nat := (s.mutex.map fun m => m.2.taken).getD 0

/-- What is left of the record that is partly read. -/
def bytesLeft (s : State) : Nat := s.dev.lnBytesLeft.toNat - taken s

/-- The framing, in line mode and when the buffer is flushed; a read that goes on when the mode
changes still finds the bytes of its record first. -/
structure LineInv (s : State) : Prop where
  owned : Owned s
  small : Small s.dev
  taken : taken s ≤ s.dev.lnBytesLeft.toNat
  framed : unflushed s = false → hasOpt s.dev.options OPT_LINE = true → s.line.length < 255 ∧
    ∃ rest lines, Framed s.dev (bytesLeft s) s.line rest lines ∧
      s.completed.flatten = s.delivered ++ rest ++ lines.flatten
  mode : inLine s = true → unflushed s = false → hasOpt s.dev.options OPT_LINE = true
  reading : inLine s = true → unflushed s = true → hasOpt s.dev.options OPT_LINE = false ∧
    ∃ rest tail more, held s.dev.readBuffer = rest ++ tail ∧ rest.length = bytesLeft s ∧
      s.completed.flatten = s.delivered ++ rest ++ more
  delivered : s.delivered <+: s.completed.flatten

/-- No read decides about the mode, and no mode changes back during a read, before the buffer is
flushed; and the read buffer is replaced only when no line is edited and no record partly read. -/
def lineSound (s : State) : Op → Bool
  | .task i =>
    match s.calls[i]? with
    | some (.setOptions arg) =>
      hasOpt s.dev.options OPT_LINE == hasOpt arg OPT_LINE || !(unflushed s && inLine s)
    | _ => true
  | .owner =>
    match s.mutex with
    | some (_, .readBuf _) => !unflushed s
    | some (_, .rdBufSet _ _) => s.dev.lnNBytes == 0 && s.dev.lnBytesLeft == 0
    | _ => true
  | _ => true

/-- Two states with the same read side. -/
structure SameLine (s s' : State) : Prop where
  readBuffer : s'.dev.readBuffer = s.dev.readBuffer
  lnNBytes : s'.dev.lnNBytes = s.dev.lnNBytes
  lnBytesLeft : s'.dev.lnBytesLeft = s.dev.lnBytesLeft
  mode : hasOpt s'.dev.options OPT_LINE = hasOpt s.dev.options OPT_LINE
  line : s'.line = s.line
  completed : s'.completed = s.completed
  delivered : s'.delivered = s.delivered
  unflushed : unflushed s' = unflushed s
  inLine : inLine s' = inLine s
  taken : taken s' = taken s

theorem LineInv.of_same (h : LineInv s) (howned : Owned s') (hs : SameLine s s') : LineInv s' := by
  obtain ⟨hring, hn, hleft, hmode, hline, hcompleted, hdelivered, hunflushed, hinLine, htaken⟩ := hs
  have hbytes : bytesLeft s' = bytesLeft s := by rw [bytesLeft, bytesLeft, hleft, htaken]
  refine ⟨howned, ⟨?_, ?_⟩, ?_, ?_, ?_, ?_, ?_⟩
  · rw [hring]
    exact h.small.valid
  · rw [hring, hn]
    exact h.small.small
  · rw [htaken, hleft]
    exact h.taken
  · rw [hunflushed, hmode, hline, hcompleted, hdelivered, hbytes]
    intro hu hl
    obtain ⟨hlt, rest, lines, hframed, hflat⟩ := h.framed hu hl
    exact ⟨hlt, rest, lines, hframed.of_eq hring hn, hflat⟩
  · rw [hinLine, hunflushed, hmode]
    exact h.mode
  · rw [hinLine, hunflushed, hmode, hring, hcompleted, hdelivered, hbytes]
    exact h.reading
  · rw [hcompleted, hdelivered]
    exact h.delivered

theorem any_set {α : Type*} {f : α → Bool} {l : List α} {a b : α} (hi : l[i]? = some a)
    (hf : f b = f a) : (l.set i b).any f = l.any f := by
  induction l generalizing i with
  | nil => rfl
  | cons x l ih =>
    cases i with
    | zero =>
      cases hi
      rw [List.set_cons_zero, List.any_cons, List.any_cons, hf]
    | succ i => rw [List.set_cons_succ, List.any_cons, List.any_cons, ih hi]

theorem quiet_unflushed {call : Call} (h : call.quiet = true) : call.unflushed = false := by
  unfold Call.quiet at h
  split at h <;> simp_all [Call.unflushed]

/-- A call that goes on without the mutex, and does not change the mode. -/
theorem sameLine_goOn {old call : Call} {dev : TyDev} (hold : s.calls[i]? = some old)
    (hu : old.unflushed = false) (hu' : call.unflushed = false) (hdev : SameRead s.dev dev) :
    SameLine s (s.goOn i dev call) where
  readBuffer := hdev.readBuffer
  lnNBytes := hdev.lnNBytes
  lnBytesLeft := hdev.lnBytesLeft
  mode := congrArg (hasOpt · OPT_LINE) hdev.options
  line := rfl
  completed := rfl
  delivered := rfl
  unflushed := congrArg (· || _) (any_set hold (hu'.trans hu.symm))
  inLine := rfl
  taken := rfl

theorem LineInv.task (h : LineInv s) (hsound : lineSound s (.task i) = true)
    (hs : taskStep s i = some s') : LineInv s' := by
  have howned := owned_task h.owned hs
  cases taskStep_cases hs with
  | quiet hold hq hq' hdev =>
    exact h.of_same howned
      (sameLine_goOn hold (quiet_unflushed hq) (quiet_unflushed hq') hdev.toSameRead)
  | canceled hold => exact h.of_same howned (sameLine_goOn hold rfl rfl (.refl _))
  | takeSync hold => exact h.of_same howned (sameLine_goOn hold rfl rfl ⟨rfl, rfl, rfl, rfl⟩)
  | @setOptions arg hold =>
    by_cases hmode : hasOpt s.dev.options OPT_LINE = hasOpt arg OPT_LINE
    · rw [if_neg (not_not.2 hmode)] at howned ⊢
      exact h.of_same howned ⟨rfl, rfl, rfl, hmode.symm, rfl, rfl, rfl,
        congrArg (· || _) (any_set hold rfl), rfl, rfl⟩
    · -- the mode changes
      rw [if_pos hmode] at howned ⊢
      have hu : unflushed (s.goOn i { s.dev with options := arg }
          (.flushRead (some s.dev.options))) = true := by
        have hany : (s.calls.set i (.flushRead (some s.dev.options))).any Call.unflushed = true :=
          List.any_eq_true.2
            ⟨_, List.mem_set (List.getElem?_eq_some_iff.1 hold).1 _, rfl⟩
        exact congrArg (· || _) hany
      refine ⟨howned, ⟨h.small.valid, h.small.small⟩, h.taken, fun hf => ?_, fun _ hf => ?_,
        fun hin _ => ?_, h.delivered⟩
      · rw [hu] at hf
        exact absurd hf.symm Bool.false_ne_true
      · rw [hu] at hf
        exact absurd hf.symm Bool.false_ne_true
      · have hin' : inLine s = true := hin
        have hflushed : unflushed s = false := by
          rw [lineSound, hold] at hsound
          simpa [hmode, hin'] using hsound
        have hline := h.mode hin' hflushed
        obtain ⟨_, rest, lines, hframed, hflat⟩ := h.framed hflushed hline
        refine ⟨?_, rest, records lines, lines.flatten, hframed.held, hframed.left, hflat⟩
        rw [hline] at hmode
        exact Bool.eq_false_iff.2 fun heq => hmode heq.symm
  | @enter dev sec hold hentry hfree hdev =>
    have hin : inLine s = false := by rw [inLine, hfree]; rfl
    have htaken : Ty.taken s = 0 := by rw [Ty.taken, hfree]; rfl
    refine h.of_same howned ⟨hdev.readBuffer, hdev.lnNBytes, hdev.lnBytesLeft,
      congrArg (hasOpt · OPT_LINE) hdev.options, rfl, rfl, rfl, ?_, ?_, ?_⟩
    · have hsec : sec.entry.unflushed = sec.unflushed := by
        cases sec with
        | flushRead old => cases old <;> rfl
        | _ => rfl
      show ((s.calls.set i .inside).any Call.unflushed || sec.unflushed) = unflushed s
      rw [unflushed, hfree]
      show _ = (s.calls.any Call.unflushed || false)
      rw [Bool.or_false]
      cases hu : sec.unflushed with
      | false => rw [Bool.or_false, any_set hold (hsec.trans hu).symm]
      | true =>
        rw [Bool.or_true]
        exact (List.any_eq_true.2
          ⟨_, List.mem_of_getElem? hold, hsec.trans hu⟩).symm
    · rw [hin]
      cases sec <;> first | rfl | exact absurd rfl hentry
    · rw [htaken]
      cases sec <;> first | rfl | exact absurd rfl hentry

/-- A character. -/
theorem LineInv.intRd {hookRv : Bool} (h : LineInv s)
    (hs : step chars s (.intRd hookRv c) = some s') : LineInv s' := by
  have howned := owned_step h.owned hs
  obtain ⟨⟨dev, status⟩, hrd, rfl⟩ := Option.map_eq_some_iff.1 hs
  obtain ⟨hnone, hsame⟩ | ⟨c', echoed, r, hsome, hecho, hput, hsame⟩ := intRd_cases hrd
  · have hedit : s.edit chars hookRv c = s := by rw [State.edit, hnone]
    rw [hedit] at howned ⊢
    exact h.of_same howned ⟨hsame.readBuffer, hsame.lnNBytes, hsame.lnBytesLeft,
      congrArg (hasOpt · OPT_LINE) hsame.options, rfl, rfl, rfl, rfl, rfl, rfl⟩
  · have hsame₁ := tyEcho_same hecho
    have helse := tyPutChar_else hput
    have hsmall : Small dev := ((h.small.of_same hsame₁).putChar hput).of_same hsame.toSameRead
    have hleft : dev.lnBytesLeft = s.dev.lnBytesLeft := by
      rw [hsame.lnBytesLeft, helse.lnBytesLeft, hsame₁.lnBytesLeft]
    have hmode : hasOpt dev.options OPT_LINE = hasOpt s.dev.options OPT_LINE := by
      rw [hsame.options, helse.options, hsame₁.options]
    obtain ⟨hcalls, hmutex, hdelivered, _⟩ := s.edit_calls chars hookRv c
    have hu : unflushed { s.edit chars hookRv c with dev := dev } = unflushed s := by
      rw [unflushed, unflushed, hcalls, hmutex]
    have hin : inLine { s.edit chars hookRv c with dev := dev } = inLine s := by
      rw [inLine, inLine, hmutex]
    have htaken : Ty.taken { s.edit chars hookRv c with dev := dev } = Ty.taken s := by
      rw [Ty.taken, Ty.taken, hmutex]
    have hbytes : bytesLeft { s.edit chars hookRv c with dev := dev } = bytesLeft s := by
      rw [bytesLeft, bytesLeft, htaken, hleft]
    by_cases hline : hasOpt s.dev.options OPT_LINE = true
    · -- the line is edited
      have hedit : s.edit chars hookRv c =
          if (editLine chars (freeBytes s.dev.readBuffer) s.line c').2 then
            { s with
              line := []
              completed := s.completed ++
                [(editLine chars (freeBytes s.dev.readBuffer) s.line c').1] }
          else { s with line := (editLine chars (freeBytes s.dev.readBuffer) s.line c').1 } := by
        rw [State.edit, hsome]
        exact if_pos hline
      have hlonger : ∃ more, (s.edit chars hookRv c).completed.flatten =
          s.completed.flatten ++ more := by
        rw [hedit]
        split
        · exact ⟨_, by rw [List.flatten_append]⟩
        · exact ⟨[], (List.append_nil _).symm⟩
      obtain ⟨more, hmore⟩ := hlonger
      refine ⟨howned, hsmall, ?_, ?_, ?_, ?_, ?_⟩
      · rw [htaken]
        exact hleft ▸ h.taken
      · rw [hu, hbytes]
        intro hflushed _
        obtain ⟨hlt, rest, lines, hframed, hflat⟩ := h.framed hflushed hline
        have hframed₁ := hframed.of_eq hsame₁.readBuffer hsame₁.lnNBytes
        have hline₁ : hasOpt echoed.options OPT_LINE = true := by rw [hsame₁.options, hline]
        obtain ⟨hdone, hmore⟩ := hframed₁.putChar hlt hline₁ hput
        rw [hsame₁.readBuffer] at hdone hmore
        dsimp only
        rw [hdelivered, hedit]
        split
        next htrue =>
          refine ⟨Nat.zero_lt_succ _, rest, _, (hdone htrue).of_eq hsame.readBuffer hsame.lnNBytes, ?_⟩
          dsimp only
          rw [List.flatten_append, hflat, List.flatten_append, List.append_assoc]
        next hfalse =>
          obtain ⟨hframed', hlt'⟩ := hmore (Bool.eq_false_iff.2 hfalse)
          exact ⟨hlt', rest, lines, hframed'.of_eq hsame.readBuffer hsame.lnNBytes, hflat⟩
      · intro _ _
        exact hmode.trans hline
      · rw [hin, hu]
        intro hin' hu'
        rw [(h.reading hin' hu').1] at hline
        exact absurd hline Bool.false_ne_true
      · dsimp only
        rw [hdelivered, hmore]
        exact h.delivered.trans (List.prefix_append _ _)
    · -- raw mode
      have hraw := Bool.eq_false_iff.2 hline
      have hedit : s.edit chars hookRv c = s := by
        rw [State.edit, hsome]
        exact if_neg hline
      rw [hedit] at hu hin hbytes howned ⊢
      refine ⟨howned, hsmall, hleft ▸ h.taken, fun _ hl => ?_, fun hi hf => ?_, fun hi hf => ?_,
        h.delivered⟩
      · exact absurd (hmode.symm.trans hl) hline
      · exact absurd (h.mode hi hf) hline
      · obtain ⟨_, rest, tail, more, hheld, hlen, hflat⟩ := h.reading hi hf
        have hvalid : Valid echoed.readBuffer := by
          rw [hsame₁.readBuffer]
          exact h.small.valid
        obtain ⟨more', hmore⟩ := putChar_raw hvalid (by rw [hsame₁.options, hraw]) hput
        refine ⟨hmode.trans hraw, rest, tail ++ more', more, ?_, hlen.trans hbytes.symm, hflat⟩
        dsimp only
        rw [hsame.readBuffer, hmore, hsame₁.readBuffer, hheld, List.append_assoc]

/-- A read in line mode takes the byte for the length of the next record. -/
theorem Framed.count_byte (tyId' : TyDev) {r : Rng.Ring UInt8}
    (h : Framed tyId 0 line rest lines)
    (hring : tyId.readBuffer = some r) (hn : tyId'.lnNBytes = tyId.lnNBytes)
    (hring' : tyId'.readBuffer = some (rngElemGet r).1) :
    ∃ rest' lines', Framed tyId' ((rngElemGet r).2.getD 0).toNat line rest' lines' ∧
      rest' ++ lines'.flatten = rest ++ lines.flatten := by
  have hvalid := h.valid
  have hheld := h.held
  have hrest : rest = [] := List.length_eq_zero_iff.1 h.left
  rw [hring] at hvalid hheld
  subst hrest
  obtain ⟨hhead, junk, hafter⟩ := elemGet_spec (valid_some.1 hvalid)
  rw [held_some, List.nil_append] at hheld
  have hfits : ∀ a, Ty.ahead tyId.readBuffer = a → line ≠ [] → line.length + 1 ≤ (a ++ junk).length := by
    intro a ha hne
    have := h.fits hne
    rw [ha] at this
    rw [List.length_append]
    omega
  have hahead : ((r.ahead ++ junk).drop 1).take line.length = line := by
    by_cases hne : line = []
    · rw [hne]
      rfl
    · have := h.fits hne
      have hline := h.ahead
      rw [hring, ahead_some] at this hline
      rw [List.drop_append_of_le_length (by omega), List.take_append_of_le_length, hline]
      rw [List.length_drop]
      omega
  have hafits := hfits r.ahead (by rw [hring, ahead_some])
  cases lines with
  | nil =>
    -- there is no record
    rw [hheld] at hhead hafter
    refine ⟨[], [], ⟨?_, ?_, ?_, h.short, ?_, ?_, ?_⟩, rfl⟩
    · rw [hring']
      exact hafter.valid
    · rw [hring']
      exact hafter.held
    · rw [hhead]
      rfl
    · rw [hn]
      exact h.count
    · rw [hring', hafter.ahead]
      exact hafits
    · rw [hring', hafter.ahead]
      exact hahead
  | cons first lines =>
    rw [records_cons] at hheld
    rw [hheld] at hhead hafter
    refine ⟨first, lines, ⟨?_, ?_, ?_, ?_, ?_, ?_, ?_⟩, rfl⟩
    · rw [hring']
      exact hafter.valid
    · rw [hring']
      exact hafter.held
    · rw [hhead]
      exact (toNat_length (h.short first List.mem_cons_self)).symm
    · exact fun l hl => h.short l (List.mem_cons_of_mem _ hl)
    · rw [hn]
      exact h.count
    · rw [hring', hafter.ahead]
      exact hafits
    · rw [hring', hafter.ahead]
      exact hahead

/-- A read in line mode takes bytes of the record that is partly read. -/
theorem Framed.bytes {n : Nat} (h : Framed tyId left line rest lines) (hle : n ≤ left)
    (hn : tyId'.lnNBytes = tyId.lnNBytes)
    (hring : tyId'.readBuffer = (bufGet tyId.readBuffer n).1) :
    Framed tyId' (left - n) line (rest.drop n) lines := by
  obtain ⟨_, junk, hafter⟩ := bufGet_spec h.valid n
  have hlen := h.left
  refine ⟨?_, ?_, ?_, h.short, ?_, ?_, ?_⟩
  · rw [hring]
    exact hafter.valid
  · rw [hring, hafter.held, h.held, List.drop_append_of_le_length (by omega)]
  · rw [List.length_drop, hlen]
  · rw [hn]
    exact h.count
  · intro hne
    have := h.fits hne
    rw [hring, hafter.ahead, List.length_append]
    omega
  · rw [hring, hafter.ahead]
    by_cases hne : line = []
    · rw [hne]
      rfl
    · have := h.fits hne
      have hline := h.ahead
      rw [List.drop_append_of_le_length (by omega), List.take_append_of_le_length, hline]
      rw [List.length_drop]
      omega

theorem Small.bufGet {n : Nat} (h : Small tyId) (hn : tyId'.lnNBytes = tyId.lnNBytes)
    (hring : tyId'.readBuffer = (bufGet tyId.readBuffer n).1) : Small tyId' := by
  obtain ⟨_, junk, hafter⟩ := bufGet_spec h.valid n
  refine ⟨hring ▸ hafter.valid, fun r hr => ?_⟩
  rw [hring] at hr
  cases hold : tyId.readBuffer with
  | none =>
    rw [hold] at hr
    exact absurd hr (Option.some_ne_none _).symm
  | some r₀ =>
    rw [hold] at hr
    cases hr
    obtain ⟨_, hsize, _⟩ := step_refines (.bufGet n) (h.valid r₀ hold) rfl
    rw [hn, hsize]
    exact h.small r₀ hold

/-- A call that gives the mutex back, and has not touched the read side. -/
theorem LineInv.leave {sec : Section} {dev : TyDev} {call : Call} (h : LineInv s)
    (hmutex : s.mutex = some (i, sec)) (hsec : sec.unflushed = false) (hin : sec.inLine = false)
    (htaken : sec.taken = 0) (hcall : call.unflushed = false) (hdev : SameRead s.dev dev) :
    LineInv (s.leave i dev call) := by
  have hinside := h.owned i sec hmutex
  refine h.of_same (fun j sec' hj => absurd hj (Option.some_ne_none _).symm)
    ⟨hdev.readBuffer, hdev.lnNBytes, hdev.lnBytesLeft, congrArg (hasOpt · OPT_LINE) hdev.options,
      rfl, rfl, rfl, ?_, ?_, ?_⟩
  · have hany := any_set (f := Call.unflushed) hinside hcall
    rw [unflushed, unflushed, hmutex]
    show ((s.calls.set i call).any Call.unflushed || false) =
      (s.calls.any Call.unflushed || sec.unflushed)
    rw [hany, hsec]
  · rw [Ty.inLine, Ty.inLine, hmutex]
    exact hin.symm
  · rw [Ty.taken, Ty.taken, hmutex]
    exact htaken.symm

/-- The read buffer is empty, and nothing is edited or partly read. -/
theorem LineInv.emptied {dev : TyDev} {call : Call} (hvalid : Valid dev.readBuffer)
    (hheld : held dev.readBuffer = []) (hn : dev.lnNBytes = 0) (hleft : dev.lnBytesLeft = 0) :
    LineInv (s.emptied.leave i dev call) := by
  have hframed : Framed dev 0 [] [] [] := framed_empty hvalid hheld hn
  refine ⟨fun j sec hj => absurd hj (Option.some_ne_none _).symm, ⟨hvalid, fun _ _ => .inl hn⟩,
    Nat.zero_le _, fun _ _ => ⟨Nat.zero_lt_succ _, [], [], ?_, rfl⟩, fun hin => ?_, fun hin => ?_,
    List.prefix_rfl⟩
  · have hbytes : bytesLeft (s.emptied.leave i dev call) = 0 := by
      show dev.lnBytesLeft.toNat - 0 = 0
      rw [hleft]
      rfl
    rw [hbytes]
    exact hframed
  · exact absurd hin Bool.false_ne_true
  · exact absurd hin Bool.false_ne_true

theorem tyReadXoff_flags (tyId : TyDev) (xoff : Bool) :
    (tyReadXoff tyId xoff).lnNBytes = tyId.lnNBytes ∧
      (tyReadXoff tyId xoff).lnBytesLeft = tyId.lnBytesLeft ∧
      (tyReadXoff tyId xoff).readBuffer = tyId.readBuffer :=
  ⟨(tyReadXoff_same tyId xoff).lnNBytes, (tyReadXoff_same tyId xoff).lnBytesLeft,
    (tyReadXoff_same tyId xoff).readBuffer⟩

theorem LineInv.owner (h : LineInv s) (hsound : lineSound s .owner = true)
    (hs : ownerStep s = some s') : LineInv s' := by
  have howned := owned_owner h.owned hs
  unfold ownerStep at hs
  split at hs
  next => exact absurd hs (Option.some_ne_none _).symm
  next i sec hmutex =>
    have hunflushed : unflushed s = (s.calls.any Call.unflushed || sec.unflushed) := by
      rw [unflushed, hmutex]
      rfl
    have hinLine : inLine s = sec.inLine := by
      rw [Ty.inLine, hmutex]
      rfl
    have htaken : Ty.taken s = sec.taken := by
      rw [Ty.taken, hmutex]
      rfl
    have hbytes : bytesLeft s = s.dev.lnBytesLeft.toNat - sec.taken := by
      rw [bytesLeft, htaken]
    rw [lineSound, hmutex] at hsound
    cases sec with
    | readBuf nBytes =>
      have hflushed : unflushed s = false := by simpa using hsound
      have hnew : ∀ (s' : State) {sec' : Section}, s'.calls = s.calls →
          s'.mutex = some (i, sec') → sec'.unflushed = false → unflushed s' = false := by
        intro s' sec' hcalls hm hsec'
        have hany := (Bool.or_eq_false_iff.1 (hunflushed.symm.trans hflushed)).1
        rw [unflushed, hcalls, hm, hany]
        exact hsec'
      dsimp only at hs
      split at hs
      next hline =>
        obtain ⟨hlt, rest, lines, hframed, hflat⟩ := h.framed hflushed hline
        split at hs
        next hzero =>
          obtain ⟨ringId, hring, rfl⟩ := Option.map_eq_some_iff.1 hs
          have hu := hnew { s with
            dev := { s.dev with
              readBuffer := some (rngElemGet ringId).1
              lnBytesLeft := (rngElemGet ringId).2.getD s.dev.lnBytesLeft }
            mutex := some (i, .readLine nBytes) } rfl rfl rfl
          have hleft : bytesLeft s = 0 := by
            rw [hbytes, hzero]
            rfl
          rw [hleft] at hframed
          obtain ⟨rest', lines', hframed', hsame⟩ := hframed.count_byte { s.dev with
              readBuffer := some (rngElemGet ringId).1
              lnBytesLeft := (rngElemGet ringId).2.getD s.dev.lnBytesLeft } hring rfl rfl
          have hvalid := h.small.valid ringId hring
          obtain ⟨h', hsize, _⟩ := step_refines .elemGet hvalid rfl
          refine ⟨howned, ⟨valid_some.2 h', fun r hr => ?_⟩, Nat.zero_le _,
            fun _ _ => ⟨hlt, rest', lines', ?_, ?_⟩, fun _ _ => hline, fun _ hf => ?_,
            h.delivered⟩
          · cases hr
            rw [hsize]
            exact h.small.small ringId hring
          · rw [hzero] at hframed' ⊢
            exact hframed'
          · rw [List.append_assoc, hsame, ← List.append_assoc]
            exact hflat
          · rw [hu] at hf
            exact absurd hf Bool.false_ne_true
        next hne =>
          cases hs
          have hu := hnew { s with mutex := some (i, .readLine nBytes) } rfl rfl rfl
          refine ⟨howned, h.small, Nat.zero_le _, fun _ _ => ⟨hlt, rest, lines, ?_, hflat⟩,
            fun _ _ => hline, fun _ hf => ?_, h.delivered⟩
          · rw [hbytes] at hframed
            exact hframed
          · rw [hu] at hf
            exact absurd hf Bool.false_ne_true
      next hraw =>
        cases hs
        refine ⟨howned, h.small.bufGet rfl rfl, Nat.zero_le _, fun _ hl => absurd hl hraw,
          fun hin => ?_, fun hin => ?_, h.delivered⟩
        · exact absurd hin Bool.false_ne_true
        · exact absurd hin Bool.false_ne_true
    | readLine nBytes =>
      cases hs
      obtain ⟨hbuf, _⟩ :=
        bufGet_spec h.small.valid (min s.dev.lnBytesLeft.toNat nBytes)
      have hle : min s.dev.lnBytesLeft.toNat nBytes ≤ s.dev.lnBytesLeft.toNat := Nat.min_le_left ..
      have hleft : bytesLeft s = s.dev.lnBytesLeft.toNat := hbytes
      -- the bytes are those of the record that comes first
      have hread : ∀ rest tail more, held s.dev.readBuffer = rest ++ tail →
          rest.length = bytesLeft s → s.completed.flatten = s.delivered ++ rest ++ more →
          s.completed.flatten = s.delivered ++
            (bufGet s.dev.readBuffer (min s.dev.lnBytesLeft.toNat nBytes)).2 ++
            rest.drop (min s.dev.lnBytesLeft.toNat nBytes) ++ more := by
        intro rest tail more hheld hlen hflat
        rw [hbuf, hheld, List.take_append_of_le_length (by omega), List.append_assoc s.delivered,
          List.take_append_drop]
        exact hflat
      have hprefix : ∃ rest tail more, held s.dev.readBuffer = rest ++ tail ∧
          rest.length = bytesLeft s ∧ s.completed.flatten = s.delivered ++ rest ++ more := by
        cases hf : unflushed s with
        | false =>
          obtain ⟨_, rest, lines, hframed, hflat⟩ := h.framed hf (h.mode hinLine hf)
          exact ⟨rest, _, _, hframed.held, hframed.left, hflat⟩
        | true => exact (h.reading hinLine hf).2
      refine ⟨howned, h.small.bufGet rfl rfl, hle, fun hf hl => ?_, fun _ hf => ?_,
        fun _ hf => ?_, ?_⟩
      · have hf' : unflushed s = false := hunflushed.trans hf
        obtain ⟨hlt, rest, lines, hframed, hflat⟩ := h.framed hf' hl
        rw [hleft] at hframed
        exact ⟨hlt, _, lines, hframed.bytes hle rfl rfl,
          hread rest _ _ hframed.held (hframed.left.trans hleft.symm) hflat⟩
      · exact h.mode hinLine (hunflushed.trans hf)
      · obtain ⟨hraw, rest, tail, more, hheld, hlen, hflat⟩ :=
          h.reading hinLine (hunflushed.trans hf)
        obtain ⟨_, junk, hafter⟩ :=
          bufGet_spec h.small.valid (min s.dev.lnBytesLeft.toNat nBytes)
        refine ⟨hraw, _, tail, more, ?_, ?_, hread rest tail more hheld hlen hflat⟩
        · dsimp only
          rw [hafter.held, hheld, List.drop_append_of_le_length (by omega)]
        · rw [List.length_drop, hlen, hleft]
          rfl
      · obtain ⟨rest, tail, more, hheld, hlen, hflat⟩ := hprefix
        refine ⟨rest.drop (min s.dev.lnBytesLeft.toNat nBytes) ++ more, ?_⟩
        dsimp only
        rw [← List.append_assoc]
        exact (hread rest tail more hheld hlen hflat).symm
    | readLeft n =>
      cases hs
      have hn : n ≤ s.dev.lnBytesLeft.toNat := by
        have hle := h.taken
        rw [htaken] at hle
        exact hle
      have hsub : (s.dev.lnBytesLeft - UInt8.ofNat n).toNat = s.dev.lnBytesLeft.toNat - n := by
        have hlt := s.dev.lnBytesLeft.toNat_lt
        have hto : (UInt8.ofNat n).toNat = n := by
          rw [UInt8.toNat_ofNat']
          omega
        have hle : UInt8.ofNat n ≤ s.dev.lnBytesLeft := by
          rw [UInt8.le_iff_toNat_le, hto]
          exact hn
        rw [UInt8.toNat_sub_of_le _ _ hle, hto]
      refine ⟨howned, ⟨h.small.valid, h.small.small⟩, Nat.zero_le _, fun hf hl => ?_,
        fun hin => ?_, fun hin => ?_, h.delivered⟩
      · obtain ⟨hlt, rest, lines, hframed, hflat⟩ := h.framed (hunflushed.trans hf) hl
        refine ⟨hlt, rest, lines, ?_, hflat⟩
        have hsame : bytesLeft s = (s.dev.lnBytesLeft - UInt8.ofNat n).toNat := by
          rw [hbytes, hsub]
          rfl
        rw [hsame] at hframed
        exact hframed.of_eq rfl rfl
      · exact absurd hin Bool.false_ne_true
      · exact absurd hin Bool.false_ne_true
    | readEnd =>
      cases hs
      exact h.leave hmutex rfl rfl rfl rfl (tyReadEnd_same s.dev).toSameRead
    | writeBuf buffer put =>
      cases hs
      exact h.of_same howned ⟨rfl, rfl, rfl, rfl, rfl, rfl, rfl, hunflushed.symm, hinLine.symm,
        htaken.symm⟩
    | writeBusy buffer put =>
      cases hs
      exact h.of_same howned ⟨rfl, rfl, rfl, rfl, rfl, rfl, rfl, hunflushed.symm, hinLine.symm,
        htaken.symm⟩
    | writeMore buffer put =>
      cases hs
      refine h.leave hmutex rfl rfl rfl rfl ?_
      split
      · exact ⟨rfl, rfl, rfl, rfl⟩
      · exact .refl _
    | flushRead old =>
      cases hs
      obtain ⟨hvalid, hheld, _⟩ := flush_spec h.small.valid
      obtain ⟨hn, hleft, hring⟩ := tyReadXoff_flags { s.dev with
        readBuffer := s.dev.readBuffer.map rngFlush
        readSync := false
        lnNBytes := 0
        lnBytesLeft := 0 } false
      refine .emptied ?_ ?_ hn hleft
      · show Valid (tyReadXoff _ false).readBuffer
        rw [hring]
        exact hvalid
      · show held (tyReadXoff _ false).readBuffer = []
        rw [hring]
        exact hheld
    | flushWrite =>
      cases hs
      exact h.leave hmutex rfl rfl rfl rfl ⟨rfl, rfl, rfl, rfl⟩
    | rdBufSet memory size =>
      cases hs
      obtain ⟨hvalid, hheld, _⟩ := ringCreate_spec memory size
      have hcounters : s.dev.lnNBytes = 0 ∧ s.dev.lnBytesLeft = 0 := by simpa using hsound
      exact .emptied hvalid hheld hcounters.1 hcounters.2
    | wrtBufSet memory size =>
      cases hs
      exact h.leave hmutex rfl rfl rfl rfl ⟨rfl, rfl, rfl, rfl⟩

theorem LineInv.step (h : LineInv s) (hsound : lineSound s op = true)
    (hs : step chars s op = some s') : LineInv s' := by
  cases op with
  | start request =>
    have howned := owned_step h.owned hs
    cases hs
    have hcall : request.call.unflushed = false := by cases request <;> rfl
    have hdev : SameRead s.dev (startStep s request).dev := by
      cases request <;> exact ⟨rfl, rfl, rfl, rfl⟩
    refine h.of_same howned ⟨hdev.readBuffer, hdev.lnNBytes, hdev.lnBytesLeft,
      congrArg (hasOpt · OPT_LINE) hdev.options, rfl, rfl, rfl, ?_, rfl, rfl⟩
    show ((s.calls ++ [request.call]).any Call.unflushed || _) = unflushed s
    rw [List.any_append, List.any_cons, hcall, List.any_nil, Bool.or_self, Bool.or_false]
    rfl
  | task i => exact h.task hsound hs
  | owner => exact h.owner hsound hs
  | intRd hookRv c => exact h.intRd hs
  | intTx =>
    obtain ⟨⟨dev, r⟩, htx, rfl⟩ := Option.map_eq_some_iff.1 hs
    have hdev := tyIntTx_same htx
    exact h.of_same h.owned ⟨hdev.readBuffer, hdev.lnNBytes, hdev.lnBytesLeft,
      congrArg (hasOpt · OPT_LINE) hdev.options, rfl, rfl, rfl, rfl, rfl, rfl⟩

theorem lineInv_opened (readMemory writeMemory : Nat → UInt8) (readBufferSize writeBufferSize : Nat) :
    LineInv (opened readMemory writeMemory readBufferSize writeBufferSize) := by
  have h : (rngCreate readMemory readBufferSize).Valid :=
    ⟨Nat.succ_pos readBufferSize, Nat.succ_pos readBufferSize⟩
  have hdev : held (opened readMemory writeMemory readBufferSize writeBufferSize).dev.readBuffer =
      [] := (flush_spec (valid_some.2 h)).2.1
  have hvalid : Valid (opened readMemory writeMemory readBufferSize writeBufferSize).dev.readBuffer :=
    (flush_spec (valid_some.2 h)).1
  refine ⟨fun j sec hj => absurd hj (Option.some_ne_none _).symm, ⟨hvalid, fun _ _ => .inl rfl⟩,
    Nat.zero_le _, fun _ hl => ?_, fun hin => ?_, fun hin => ?_, List.prefix_rfl⟩
  · have hraw : hasOpt 0 OPT_LINE = true := hl
    exact absurd hraw (by decide)
  · exact absurd hin Bool.false_ne_true
  · exact absurd hin Bool.false_ne_true

/-- The condition of `line_framing` on a step. -/
def LineSound (s : State) (op : Op) : Prop := lineSound s op = true

instance (s : State) (op : Op) : Decidable (LineSound s op) :=
  inferInstanceAs (Decidable (lineSound s op = true))

/-- A device in a run whose steps are sound.  In line mode, when the buffer is flushed after the
last change of the mode, the read buffer holds the rest of a record and whole records, the line
that is edited is written ahead of them within the free space, and its length fits in a byte.
What `tyRead` has delivered and what is left of the lines in the buffer are the completed lines,
as `editLine` edits them; so the bytes delivered are always the first ones of those. -/
theorem line_framing {readMemory writeMemory : Nat → UInt8} {readBufferSize writeBufferSize : Nat}
    {ops : List Op}
    (hsound : AllSteps (step chars) LineSound
      (opened readMemory writeMemory readBufferSize writeBufferSize) ops)
    (hrun : exec (step chars)
      (opened readMemory writeMemory readBufferSize writeBufferSize) ops = some s) :
    (unflushed s = false → hasOpt s.dev.options OPT_LINE = true →
      ∃ rest lines, held s.dev.readBuffer = rest ++ records lines ∧ rest.length = bytesLeft s ∧
        (∀ l ∈ lines, l.length ≤ 255) ∧
        s.completed.flatten = s.delivered ++ rest ++ lines.flatten ∧
        s.dev.lnNBytes.toNat = s.line.length ∧ s.line.length < 255 ∧
        (s.line ≠ [] → (s.line.length : Int) + 1 ≤ freeBytes s.dev.readBuffer) ∧
        ((ahead s.dev.readBuffer).drop 1).take s.line.length = s.line) ∧
      s.delivered <+: s.completed.flatten := by
  have h : LineInv s := exec_invariant_of (fun _ _ _ hinv hok hstep => hinv.step hok hstep)
    (lineInv_opened readMemory writeMemory readBufferSize writeBufferSize) hsound hrun
  refine ⟨fun hf hl => ?_, h.delivered⟩
  obtain ⟨hlt, rest, lines, hframed, hflat⟩ := h.framed hf hl
  refine ⟨rest, lines, hframed.held, hframed.left, hframed.short, hflat, hframed.count, hlt, ?_,
    hframed.ahead⟩
  intro hne
  have hfits := hframed.fits hne
  rw [freeBytes_eq hframed.valid]
  omega

/-! ## One device -/

def exampleMemory : Nat → UInt8 := fun _ => 0

def exampleDev : State := opened exampleMemory exampleMemory 10 30

/-- Line mode is set, characters arrive, and the buffer is replaced or not; then a line is
completed and read. -/
def exampleLine (replaced : Bool) : List Op :=
  [.start (.setOptions OPT_LINE), .task 0, .task 0, .owner, .task 0,
    .intRd false 65, .intRd false 66, .intRd false 8,
    .start (.rdBufSet (some exampleMemory) 10)] ++
  (if replaced then [.task 1, .owner] else []) ++
  [.intRd false 67, .intRd false 10,
    .start (.read 9), .task 2, .task 2, .owner, .owner, .owner, .owner]

theorem line_framing_read :
    ∃ s, exec (step {}) exampleDev (exampleLine false) = some s ∧ s.delivered = [65, 67, 10] ∧
      s.delivered <+: s.completed.flatten := by
  have hsound : AllSteps (step {}) LineSound exampleDev (exampleLine false) := by decide
  have hdelivered : (exec (step {}) exampleDev (exampleLine false)).map State.delivered =
      some [65, 67, 10] := by decide
  obtain ⟨s, hrun, hs⟩ := Option.map_eq_some_iff.1 hdelivered
  exact ⟨s, hrun, hs, (line_framing hsound hrun).2⟩

/-- The buffer is replaced while a line is edited: the bytes of the new buffer that were never
written are delivered as a part of the line. -/
theorem line_framing_broken :
    (exec (step {}) exampleDev (exampleLine true)).map (fun s => (s.delivered, s.completed)) =
      some ([0, 67, 10], [[67, 10]]) := by
  decide

end Vmx.Ty
