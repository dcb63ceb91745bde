import Vmx.Libc.StdioWrite

/-!
# A stream that is written

While no write of a flush fails, the bytes that the driver has taken and those in the buffer are the
bytes that the stream was given, in order, each once.
-/

namespace Vmx.StdioOut

open Lib

namespace File

variable {s t : File} {b : List UInt8}

/-! ## The invariant -/

/-- The bytes in the buffer. -/
def buffered (s : File) : List UInt8 := (s.bf.getD []).take s.p

/-- All bytes that the stream has. -/
def all (s : File) : List UInt8 := s.sent ++ s.buffered

/-- The space counter. -/
def space (s : File) : Int :=
  if s.slbf = true then -(s.p : Int) else if s.snbf = true then 0 else s.size - (s.p : Int)

/-- The buffer that a stream has. -/
structure Sized (s : File) : Prop where
  pos : 0 < s.size
  patience : s.size < s.patience
  le : s.p ≤ s.size
  unbuf : s.snbf = true → s.size = 1
  lbfsize : s.lbfsize = if s.slbf = true then -(s.size : Int) else 0

/-- What holds of a stream at any time. -/
structure Base (s : File) : Prop where
  swr : s.swr = true
  flags : s.snbf = true → s.slbf = false
  patience : 1 < s.patience ∧ s.blksize < s.patience
  blksize : 0 < s.blksize
  flushes : ∀ k, ∃ n, s.flushes k = some (n + 1)
  unset : s.bf = none →
    s.p = 0 ∧ (s.slbf = false → s.lbfsize = 0) ∧ (s.slbf = true → s.memory = true)
  sized : s.bf ≠ none → Sized s

/-- What holds between calls. -/
structure Inv (s : File) : Prop where
  base : Base s
  w : s.bf ≠ none → s.w = s.space
  unbuf : s.snbf = true → s.p = 0

/-! ## Flushing -/

theorem flushLoop_spec (hflushes : ∀ k, ∃ n, s.flushes k = some (n + 1)) (fuel : Nat) :
    ∀ (sent : List UInt8) (next p n : Nat), n < fuel → p + n ≤ (s.bf.getD []).length →
      ∃ k, flushLoop fuel { s with sent := sent, nextFlush := next } p n true =
        some (true, { s with
          sent := sent ++ ((s.bf.getD []).drop p).take n, nextFlush := k }) := by
  induction fuel with
  | zero => exact fun _ _ _ _ h => absurd h (Nat.not_lt_zero _)
  | succ fuel ih =>
    intro sent next p n hn hp
    rw [flushLoop]
    by_cases hzero : n = 0
    · rw [if_pos hzero, hzero, List.take_zero, List.append_nil]
      exact ⟨next, rfl⟩
    · rw [if_neg hzero]
      obtain ⟨m, hm⟩ := hflushes next
      simp only [hm]
      rw [if_neg (by omega)]
      obtain ⟨k, hk⟩ := ih (sent ++ ((s.bf.getD []).drop p).take (min (m + 1) n)) (next + 1)
        (p + min (m + 1) n) (n - min (m + 1) n) (by omega) (by omega)
      refine ⟨k, hk.trans ?_⟩
      have hsplit : n = min (m + 1) n + (n - min (m + 1) n) := by omega
      rw [List.append_assoc, ← List.drop_drop, ← List.take_add, ← hsplit]

/-- A flush sends what is in the buffer. -/
structure Flushed (s t : File) : Prop where
  inv : Inv t
  sent : t.sent = s.all
  p : t.p = 0
  bf : t.bf = s.bf
  slbf : t.slbf = s.slbf
  failures : t.failures = s.failures

theorem Base.fflush (h : Base s) : ∃ t, s.fflush = some (true, t) ∧ Flushed s t := by
  rw [File.fflush, if_neg (by simp [h.swr]), sflush, if_neg (by simp [h.swr])]
  cases hbf : s.bf with
  | none =>
    have hall : s.sent = s.all := by rw [all, buffered, hbf]; simp
    have hp := (h.unset hbf).1
    exact ⟨s, rfl, ⟨h, fun hb => absurd hbf hb, fun _ => hp⟩, hall, hp, rfl, rfl, rfl⟩
  | some b =>
    have hne : s.bf ≠ none := by simp [hbf]
    have hsized := h.sized hne
    have hsize : s.size = b.length := by rw [size, hbf, Option.getD_some]
    have hle := hsized.le
    dsimp only
    rw [← hbf, ← hsize]
    obtain ⟨k, hk⟩ := @flushLoop_spec
      { s with p := 0, w := if s.slbf || s.snbf then 0 else s.size } h.flushes s.patience s.sent
      s.nextFlush 0 s.p (Nat.lt_of_le_of_lt hle hsized.patience) (by
        show 0 + s.p ≤ s.size
        omega)
    refine ⟨_, hk, ⟨⟨h.swr, h.flags, h.patience, h.blksize, h.flushes, fun hn => absurd hn hne,
      fun _ => ⟨hsized.pos, hsized.patience, Nat.zero_le _, hsized.unbuf, hsized.lbfsize⟩⟩,
      fun _ => ?_, fun _ => rfl⟩, rfl, rfl, rfl, rfl, rfl⟩
    show (if (s.slbf || s.snbf) = true then 0 else (s.size : Int)) =
      if s.slbf = true then -((0 : Nat) : Int) else if s.snbf = true then 0
        else (s.size : Int) - ((0 : Nat) : Int)
    cases s.slbf <;> cases s.snbf <;> simp

/-! ## Buffers -/

/-- A new buffer. -/
structure Made (s m : File) : Prop where
  bf : m.bf ≠ none
  p : m.p = 0
  size : 0 < m.size ∧ m.size < m.patience
  unbuf : m.snbf = true → m.size = 1 ∧ m.slbf = false
  lbfsize : m.slbf = false → m.lbfsize = 0
  swr : m.swr = s.swr
  patience : m.patience = s.patience
  blksize : m.blksize = s.blksize
  flushes : m.flushes = s.flushes
  sent : m.sent = s.sent
  failures : m.failures = s.failures

theorem Base.smakebuf (h : Base s) (hbf : s.bf = none) : Made s s.smakebuf := by
  obtain ⟨hp, hlbf, hmem⟩ := h.unset hbf
  obtain ⟨hone, hblk⟩ := h.patience
  rw [File.smakebuf]
  by_cases hsnbf : s.snbf = true
  · rw [if_pos hsnbf]
    have hslbf := h.flags hsnbf
    exact ⟨by simp, rfl, ⟨Nat.one_pos, hone⟩, fun _ => ⟨rfl, hslbf⟩, hlbf, rfl, rfl, rfl, rfl, rfl,
      rfl⟩
  · rw [if_neg hsnbf]
    by_cases hmemory : s.memory = true
    · rw [if_pos hmemory]
      have hsize : (List.replicate s.blksize (0 : UInt8)).length = s.blksize :=
        List.length_replicate
      refine ⟨by simp, rfl, ⟨Nat.lt_of_lt_of_eq h.blksize hsize.symm,
        Nat.lt_of_le_of_lt (Nat.le_of_eq hsize) hblk⟩, fun hs => absurd hs hsnbf, fun hs => ?_, rfl,
        rfl, rfl, rfl, rfl, rfl⟩
      exact hlbf (Bool.or_eq_false_iff.1 hs).1
    · rw [if_neg hmemory]
      have hslbf : s.slbf = false := by
        by_contra hs
        exact hmemory (hmem (by simpa using hs))
      exact ⟨by simp, rfl, ⟨Nat.one_pos, hone⟩, fun _ => ⟨rfl, hslbf⟩, hlbf, rfl, rfl, rfl, rfl,
        rfl, rfl⟩

/-- A stream with a buffer, made where there was none. -/
structure Ready (s t : File) : Prop where
  base : Base t
  bf : t.bf ≠ none
  sent : t.sent = s.sent
  all : t.all = s.all
  failures : t.failures = s.failures
  w : s.bf = none → t.w = t.space ∧ t.p = 0
  same : s.bf ≠ none → t = s

theorem Base.canwrite (h : Base s) : ∃ t, s.canwrite = some t ∧ Ready s t := by
  rw [File.canwrite, if_neg (by simp [h.swr])]
  by_cases hbf : s.bf = none
  · rw [if_pos hbf]
    refine ⟨s.swsetup, rfl, ?_⟩
    have hall : s.all = s.sent := by rw [File.all, buffered, hbf]; simp
    have hmade := h.smakebuf hbf
    rw [swsetup]
    generalize s.smakebuf = m at hmade ⊢
    -- the space counter and the size of lines are set to those of an empty buffer
    have key : ∀ w lbfsize : Int,
        w = (if m.slbf = true then 0 else if m.snbf = true then 0 else (m.size : Int)) →
        lbfsize = (if m.slbf = true then -(m.size : Int) else 0) →
        Ready s { m with w := w, lbfsize := lbfsize } := by
      intro w lbfsize hw hlbfsize
      refine ⟨⟨hmade.swr.trans h.swr, fun hs => (hmade.unbuf hs).2, ?_, ?_, ?_,
        fun hn => absurd hn hmade.bf, fun _ => ⟨hmade.size.1, hmade.size.2, ?_,
        fun hs => (hmade.unbuf hs).1, hlbfsize⟩⟩, hmade.bf, hmade.sent, ?_, hmade.failures,
        fun _ => ⟨?_, hmade.p⟩, fun hn => absurd hbf hn⟩
      · show 1 < m.patience ∧ m.blksize < m.patience
        rw [hmade.patience, hmade.blksize]
        exact h.patience
      · exact Nat.lt_of_lt_of_eq h.blksize hmade.blksize.symm
      · show ∀ k, ∃ n, m.flushes k = some (n + 1)
        rw [hmade.flushes]
        exact h.flushes
      · exact Nat.le_trans (Nat.le_of_eq hmade.p) (Nat.zero_le _)
      · show m.sent ++ (m.bf.getD []).take m.p = s.all
        rw [hmade.p, List.take_zero, List.append_nil, hmade.sent, hall]
      · show w = if m.slbf = true then -(m.p : Int) else if m.snbf = true then 0
          else m.size - (m.p : Int)
        rw [hw, hmade.p]
        simp
    split
    · rename_i hs
      exact key 0 _ (by rw [if_pos hs]) (by rw [if_pos hs])
    · rename_i hs
      have hlbf := hmade.lbfsize (by simpa using hs)
      split
      · rename_i hn
        exact key 0 m.lbfsize (by rw [if_neg hs, if_pos hn]) (by rw [if_neg hs, hlbf])
      · rename_i hn
        exact key m.size m.lbfsize (by rw [if_neg hs, if_neg hn]) (by rw [if_neg hs, hlbf])
  · rw [if_neg hbf]
    exact ⟨s, rfl, h, hbf, rfl, rfl, rfl, fun hn => absurd hn hbf, fun _ => rfl⟩

/-- Bytes copied into the buffer. -/
structure Copied (s t : File) (bytes : List UInt8) : Prop where
  base : Base t
  bf : t.bf ≠ none
  all : t.all = s.all ++ bytes
  sent : t.sent = s.sent
  p : t.p = s.p + bytes.length
  size : t.size = s.size
  w : t.w = s.w
  slbf : t.slbf = s.slbf
  snbf : t.snbf = s.snbf
  failures : t.failures = s.failures

theorem Base.copyIn (h : Base s) (hbf : s.bf ≠ none) (bytes : List UInt8)
    (hfit : s.p + bytes.length ≤ s.size) : ∃ t, s.copyIn bytes = some t ∧ Copied s t bytes := by
  obtain ⟨b, hb⟩ := Option.ne_none_iff_exists'.1 hbf
  have hsized := h.sized hbf
  have hsize : s.size = b.length := by rw [size, hb, Option.getD_some]
  rw [hsize] at hfit
  have hlen : (b.take s.p ++ bytes ++ b.drop (s.p + bytes.length)).length = s.size := by
    simp only [List.length_append, List.length_take, List.length_drop]
    omega
  rw [File.copyIn, hb]
  dsimp only
  rw [if_pos hfit]
  refine ⟨_, rfl, ⟨h.swr, h.flags, h.patience, h.blksize, h.flushes, fun hn => absurd hn (by simp),
    fun _ => ⟨?_, ?_, ?_, fun hs => ?_, ?_⟩⟩, by simp, ?_, rfl, rfl, hlen, rfl, rfl, rfl, rfl⟩
  · exact Nat.lt_of_lt_of_eq hsized.pos hlen.symm
  · exact Nat.lt_of_le_of_lt (Nat.le_of_eq hlen) hsized.patience
  · show s.p + bytes.length ≤ (b.take s.p ++ bytes ++ b.drop (s.p + bytes.length)).length
    omega
  · exact hlen.trans (hsized.unbuf hs)
  · exact hsized.lbfsize.trans (by rw [← hlen]; rfl)
  · have htake : (b.take s.p ++ bytes ++ b.drop (s.p + bytes.length)).take
        (s.p + bytes.length) = b.take s.p ++ bytes := by
      apply List.take_left'
      rw [List.length_append, List.length_take]
      omega
    have hbuffered : s.buffered = b.take s.p := by rw [buffered, hb, Option.getD_some]
    show s.sent ++ (b.take s.p ++ bytes ++ b.drop (s.p + bytes.length)).take
      (s.p + bytes.length) = s.sent ++ s.buffered ++ bytes
    rw [htake, hbuffered, List.append_assoc]

/-! ## Characters -/

/-- The space counter does not matter to the rest. -/
theorem Base.withW (h : Base s) (w : Int) : Base { s with w := w } :=
  ⟨h.swr, h.flags, h.patience, h.blksize, h.flushes, h.unset, fun hb =>
    have hsized := h.sized hb
    ⟨hsized.pos, hsized.patience, hsized.le, hsized.unbuf, hsized.lbfsize⟩⟩

/-- The stream has taken `bytes`, without a write that failed. -/
structure Took (s t : File) (bytes : List UInt8) : Prop where
  inv : Inv t
  all : t.all = s.all ++ bytes
  sent : s.sent <+: t.sent
  failures : t.failures = s.failures

theorem Flushed.all (h : Flushed s t) : t.all = s.all := by
  rw [File.all, buffered, h.p, List.take_zero, List.append_nil, h.sent]

theorem Flushed.sent_prefix (h : Flushed s t) : s.sent <+: t.sent := by
  rw [h.sent]
  exact List.prefix_append _ _

theorem swbufRoom_spec (h : Base s) : ∃ t, s.swbufRoom = some (true, t) ∧ Base t ∧
    t.bf ≠ none ∧ t.p < t.size ∧ t.all = s.all ∧ s.sent <+: t.sent ∧ t.failures = s.failures ∧
    (t.w = t.space ∨ s.bf ≠ none ∧ t = { s with w := s.lbfsize }) := by
  obtain ⟨r, hcan, hready⟩ := (h.withW s.lbfsize).canwrite
  have hsized := hready.base.sized hready.bf
  have hall : r.all = s.all := hready.all
  have hfailures : r.failures = s.failures := hready.failures
  have hsent : r.sent = s.sent := hready.sent
  rw [swbufRoom, hcan]
  dsimp only
  by_cases hfull : r.size ≤ r.p
  · rw [if_pos hfull]
    obtain ⟨t, hflush, hflushed⟩ := hready.base.fflush
    have hbf : t.bf ≠ none := by rw [hflushed.bf]; exact hready.bf
    have hpos := (hflushed.inv.base.sized hbf).pos
    exact ⟨t, hflush, hflushed.inv.base, hbf, Nat.lt_of_le_of_lt (Nat.le_of_eq hflushed.p) hpos,
      hflushed.all.trans hall, by rw [← hsent]; exact hflushed.sent_prefix,
      hflushed.failures.trans hfailures, .inl (hflushed.inv.w hbf)⟩
  · rw [if_neg hfull]
    refine ⟨r, rfl, hready.base, hready.bf, Nat.lt_of_not_le hfull, hall,
      ⟨[], by rw [List.append_nil, hsent]⟩, hfailures, ?_⟩
    by_cases hbf : s.bf = none
    · exact .inl (hready.w hbf).1
    · exact .inr ⟨hbf, hready.same hbf⟩

theorem swbufStore_spec (h : Base s) (hbf : s.bf ≠ none) (hp : s.p < s.size) (c : Int)
    (hw : s.w = s.space ∨ s.p + 1 = s.size ∨ s.slbf = true ∧ c = 10) :
    ∃ t, s.swbufStore c = some (c, t) ∧ Took s t [UInt8.ofInt c] := by
  obtain ⟨r, hcopy, hcopied⟩ := (h.withW (s.w - 1)).copyIn hbf [UInt8.ofInt c] hp
  have hrp : r.p = s.p + 1 := hcopied.p
  have hrsize : r.size = s.size := hcopied.size
  have hrslbf : r.slbf = s.slbf := hcopied.slbf
  have hrw : r.w = s.w - 1 := hcopied.w
  have hall : r.all = s.all ++ [UInt8.ofInt c] := hcopied.all
  have hfailures : r.failures = s.failures := hcopied.failures
  have hsent : r.sent = s.sent := hcopied.sent
  rw [swbufStore, hcopy]
  dsimp only
  by_cases hflush : r.p = r.size ∨ r.slbf = true ∧ c = 10
  · rw [if_pos hflush]
    obtain ⟨t, hf, hflushed⟩ := hcopied.base.fflush
    rw [hf]
    exact ⟨t, rfl, hflushed.inv, hflushed.all.trans hall,
      by rw [← hsent]; exact hflushed.sent_prefix, hflushed.failures.trans hfailures⟩
  · rw [if_neg hflush]
    rw [hrp, hrsize, hrslbf] at hflush
    have hunbuf : r.snbf = true → r.p = 0 := fun hs => by
      have hone := (hcopied.base.sized hcopied.bf).unbuf hs
      omega
    refine ⟨r, rfl, ⟨hcopied.base, fun _ => ?_, hunbuf⟩, hall,
      ⟨[], by rw [List.append_nil, hsent]⟩, hfailures⟩
    have hspace := hw.resolve_right hflush
    have hrsnbf : r.snbf = s.snbf := hcopied.snbf
    rw [hrw, hspace, space, space, hrslbf, hrsnbf, hrp, hrsize]
    split
    · omega
    · split
      · rename_i hs
        have hzero := hunbuf (hrsnbf.trans hs)
        omega
      · omega

theorem swbuf_spec (h : Base s) (c : Int)
    (hroom : s.bf ≠ none → s.p < s.size → s.snbf = true ∨ s.slbf = true ∧ c = 10) :
    ∃ t, s.swbuf c = some (c, t) ∧ Took s t [UInt8.ofInt c] := by
  obtain ⟨r, hr, hbase, hbf, hp, hall, hsent, hfailures, hw⟩ := swbufRoom_spec h
  have hstore : r.w = r.space ∨ r.p + 1 = r.size ∨ r.slbf = true ∧ c = 10 := by
    obtain hw | ⟨hset, rfl⟩ := hw
    · exact .inl hw
    · obtain hs | hline := hroom hset hp
      · have hone : s.size = 1 := (h.sized hset).unbuf hs
        have hp' : s.p < s.size := hp
        exact .inr (.inl (by show s.p + 1 = s.size; omega))
      · exact .inr (.inr hline)
  obtain ⟨t, ht, htook⟩ := swbufStore_spec hbase hbf hp c hstore
  rw [swbuf, hr]
  exact ⟨t, ht, htook.inv, by rw [htook.all, hall], hsent.trans htook.sent,
    htook.failures.trans hfailures⟩

/-- `__sputc` finds room, or a buffer of lines. -/
def Stores (s : File) : Prop := 0 ≤ s.w - 1 ∨ s.lbfsize ≤ s.w - 1

theorem sputc_spec (h : Inv s) (c : Int) (hset : s.bf = none → ¬Stores s)
    (heof : c = -1 → Stores s) :
    ∃ v t, s.sputc c = some (v, t) ∧ v ≠ -1 ∧ Took s t [UInt8.ofInt c] := by
  -- where the counter allows it, there is room in the buffer
  have hfit : Stores s → s.bf ≠ none ∧ s.snbf = false ∧ s.p < s.size := by
    intro hstores
    have hbf : s.bf ≠ none := fun hn => hset hn hstores
    have hsized := h.base.sized hbf
    have hw := h.w hbf
    have hlbf := hsized.lbfsize
    rw [space] at hw
    rw [Stores] at hstores
    refine ⟨hbf, ?_, ?_⟩
    · by_contra hs
      have hs' : s.snbf = true := by simpa using hs
      have hl := h.base.flags hs'
      simp only [hl, hs', Bool.false_eq_true, if_false, if_true] at hw hlbf
      omega
    · by_cases hl : s.slbf = true
      · simp only [hl, if_true] at hw hlbf
        omega
      · rw [if_neg hl] at hw hlbf
        split at hw <;> omega
  rw [sputc]
  by_cases hstore : 0 ≤ s.w - 1 ∨ s.lbfsize ≤ s.w - 1 ∧ UInt8.ofInt c ≠ 10
  · rw [if_pos hstore]
    obtain ⟨hbf, hs, hp⟩ := hfit (hstore.imp_right And.left)
    obtain ⟨t, hcopy, hcopied⟩ :=
      (h.base.withW (s.w - 1)).copyIn hbf [UInt8.ofInt c] hp
    rw [hcopy]
    refine ⟨_, t, rfl, by omega, ⟨hcopied.base, fun _ => ?_, fun hn => ?_⟩, hcopied.all,
      ⟨[], by rw [List.append_nil, hcopied.sent]⟩, hcopied.failures⟩
    · have hw := h.w hbf
      have htp : t.p = s.p + 1 := hcopied.p
      have htsize : t.size = s.size := hcopied.size
      have htslbf : t.slbf = s.slbf := hcopied.slbf
      have htsnbf : t.snbf = s.snbf := hcopied.snbf
      have htw : t.w = s.w - 1 := hcopied.w
      rw [htw, hw, space, space, htslbf, htsnbf, hs, htp, htsize]
      simp only [Bool.false_eq_true, if_false]
      split <;> omega
    · exact absurd (hcopied.snbf.symm.trans hn) (by simp [hs])
  · rw [if_neg hstore]
    by_cases hline : s.lbfsize ≤ s.w - 1
    · rw [if_pos hline]
      obtain ⟨hbf, hs, hp⟩ := hfit (.inr hline)
      have hbyte : UInt8.ofInt c = 10 := by
        by_contra hne
        exact hstore (.inr ⟨hline, hne⟩)
      obtain ⟨r, hcopy, -⟩ := (h.base.withW (s.w - 1)).copyIn hbf [10] hp
      have hslbf : s.slbf = true := by
        by_contra hl
        have hw := h.w hbf
        have hlbf := (h.base.sized hbf).lbfsize
        rw [space, if_neg hl, hs] at hw
        rw [if_neg hl] at hlbf
        exact hstore (.inl (by omega))
      obtain ⟨t, ht, htook⟩ := swbuf_spec (h.base.withW (s.w - 1)) 10 fun _ _ => .inr ⟨hslbf, rfl⟩
      rw [if_neg (by rw [hcopy]; simp), hbyte]
      exact ⟨10, t, ht, by omega, htook.inv, htook.all, htook.sent, htook.failures⟩
    · rw [if_neg hline]
      have hnot : ¬Stores s := fun hs => hs.elim (fun hw => hstore (.inl hw)) hline
      obtain ⟨t, ht, htook⟩ := swbuf_spec (h.base.withW (s.w - 1)) c fun hbf hp => by
        left
        by_contra hs
        have hw := h.w hbf
        have hlbf := (h.base.sized hbf).lbfsize
        have hp' : s.p < s.size := hp
        rw [space] at hw
        rw [Stores] at hnot
        by_cases hl : s.slbf = true
        · rw [if_pos hl] at hw hlbf
          omega
        · rw [if_neg hl, if_neg hs] at hw
          omega
      exact ⟨c, t, ht, fun hc => hnot (heof hc), htook.inv, htook.all, htook.sent, htook.failures⟩

/-! ## Rounds of a block -/

/-- A write that has taken nothing. -/
structure Stopped (s t : File) : Prop where
  inv : Inv t
  all : t.all = s.all
  sent : t.sent = s.sent
  failures : t.failures = s.failures + 1

/-- What is left of a block, and whether a round without a byte may come. -/
def left (s : File) (len : Nat) : Nat := 2 * len + if 0 < s.p then 1 else 0

/-- A round that has done `w` bytes. -/
structure Advanced (s t : File) (data : List UInt8) (w : Nat) : Prop where
  took : Took s t (data.take w)
  bf : t.bf ≠ none
  le : w ≤ data.length
  left : t.left (data.length - w) < s.left data.length

variable {data : List UInt8}

/-- Bytes of the caller go to the driver when the buffer is empty. -/
theorem direct_spec (h : Inv s) (hbf : s.bf ≠ none) (hp : s.p = 0) {n : Nat} (hpos : 0 < n)
    (hn : n ≤ data.length) :
    (∃ t, s.direct (data.take n) = (none, t) ∧ Stopped s t) ∨
      ∃ w t, s.direct (data.take n) = (some w, t) ∧ Advanced s t data w := by
  have hlen : (data.take n).length = n := by rw [List.length_take]; omega
  have hbase : ∀ sent next failures serr, Inv { s with
      sent := sent, nextDirect := next, failures := failures, serr := serr } := fun _ _ _ _ =>
    ⟨⟨h.base.swr, h.base.flags, h.base.patience, h.base.blksize, h.base.flushes, h.base.unset,
      fun hb =>
        have hsized := h.base.sized hb
        ⟨hsized.pos, hsized.patience, hsized.le, hsized.unbuf, hsized.lbfsize⟩⟩, h.w, h.unbuf⟩
  rw [direct, hlen]
  cases s.directs s.nextDirect with
  | none => exact .inl ⟨_, rfl, hbase _ _ _ _, rfl, rfl, rfl⟩
  | some k =>
    dsimp only
    split
    · exact .inl ⟨_, rfl, hbase _ _ _ _, rfl, rfl, rfl⟩
    · right
      refine ⟨min k n, _, rfl, ⟨hbase _ _ _ _, ?_, List.prefix_append _ _, rfl⟩, hbf, by omega, ?_⟩
      · have htake : (data.take n).take (min k n) = data.take (min k n) := by
          rw [List.take_take, Nat.min_eq_left (Nat.min_le_right k n)]
        have hempty : s.buffered = [] := by rw [buffered, hp, List.take_zero]
        show s.sent ++ (data.take n).take (min k n) ++ s.buffered =
          s.sent ++ s.buffered ++ data.take (min k n)
        rw [htake, hempty, List.append_nil, List.append_nil]
      · show 2 * (data.length - min k n) + (if 0 < s.p then 1 else 0) < _
        rw [left]
        omega

/-- A buffer is filled up and flushed. -/
theorem fillFlush_spec (h : Inv s) (hbf : s.bf ≠ none) (hp : 0 < s.p) {w : Int}
    (hw : w = s.size - s.p) (hlt : w ≤ data.length) :
    ∃ n t, s.fillFlush data w = some (some n, t) ∧ Advanced s t data n := by
  have hle := (h.base.sized hbf).le
  have hlen : (data.take w.toNat).length = w.toNat := by rw [List.length_take]; omega
  obtain ⟨r, hcopy, hcopied⟩ := h.base.copyIn hbf (data.take w.toNat)
    (by rw [hlen]; omega)
  obtain ⟨t, hflush, hflushed⟩ := hcopied.base.fflush
  rw [fillFlush, if_neg (by omega), hcopy]
  dsimp only
  rw [hflush]
  refine ⟨w.toNat, t, rfl, ⟨hflushed.inv, hflushed.all.trans hcopied.all,
    by rw [← hcopied.sent]; exact hflushed.sent_prefix,
    hflushed.failures.trans hcopied.failures⟩, by rw [hflushed.bf]; exact hcopied.bf, by omega, ?_⟩
  rw [left, left, if_neg (by rw [hflushed.p]; omega), if_pos hp]
  omega

/-- Bytes stay in the buffer. -/
theorem fill_spec (h : Inv s) (hbf : s.bf ≠ none) (hs : s.snbf = false) {n : Nat} (hpos : 0 < n)
    (hn : n ≤ data.length) (hfit : s.p + n ≤ s.size) :
    ∃ w t, s.fill data n = some (some w, t) ∧ Advanced s t data w := by
  have hlen : (data.take n).length = n := by rw [List.length_take]; omega
  obtain ⟨t, hcopy, hcopied⟩ := (h.base.withW (s.w - n)).copyIn hbf (data.take n)
    (by rw [hlen]; exact hfit)
  have htp : t.p = s.p + n := by rw [hcopied.p, hlen]
  rw [fill, hcopy]
  refine ⟨n, t, rfl, ⟨⟨hcopied.base, fun _ => ?_, fun hn => ?_⟩, hcopied.all,
    ⟨[], by rw [List.append_nil, hcopied.sent]⟩, hcopied.failures⟩, hcopied.bf, hn, ?_⟩
  · have hw := h.w hbf
    have htsize : t.size = s.size := hcopied.size
    have htslbf : t.slbf = s.slbf := hcopied.slbf
    have htsnbf : t.snbf = s.snbf := hcopied.snbf
    have htw : t.w = s.w - n := hcopied.w
    rw [htw, hw, space, space, htslbf, htsnbf, hs, htp, htsize]
    simp only [Bool.false_eq_true, if_false]
    split <;> omega
  · exact absurd (hcopied.snbf.symm.trans hn) (by simp [hs])
  · rw [left, left]
    split <;> split <;> omega

theorem unbufRound_spec (h : Inv s) (hbf : s.bf ≠ none) (hs : s.snbf = true) (hdata : data ≠ []) :
    (∃ t, s.unbufRound data = some (none, t) ∧ Stopped s t) ∨
      ∃ w t, s.unbufRound data = some (some w, t) ∧ Advanced s t data w := by
  have hpos := List.length_pos_of_ne_nil hdata
  have hbufsiz : 0 < BUFSIZ := by decide
  obtain ⟨t, hd, hstop⟩ | ⟨w, t, hd, hadv⟩ := @direct_spec s data h hbf (h.unbuf hs)
    (min data.length BUFSIZ) (by omega) (Nat.min_le_left _ _)
  · exact .inl ⟨t, by rw [unbufRound, hd], hstop⟩
  · exact .inr ⟨w, t, by rw [unbufRound, hd], hadv⟩

/-- The round of a buffer of `n` bytes of the block, when `room` bytes are free. -/
theorem bufRound_spec (h : Inv s) (hbf : s.bf ≠ none) (hs : s.snbf = false) {n : Nat} {room : Int}
    (hroom : room = s.size - s.p) (hpos : 0 < n) (hn : n ≤ data.length) :
    (∃ t, (if 0 < s.p ∧ room < n then s.fillFlush data room
        else if s.size ≤ n then some (s.direct (data.take s.size))
        else s.fill data n) = some (none, t) ∧ Stopped s t) ∨
      ∃ w t, (if 0 < s.p ∧ room < n then s.fillFlush data room
        else if s.size ≤ n then some (s.direct (data.take s.size))
        else s.fill data n) = some (some w, t) ∧ Advanced s t data w := by
  have hsized := h.base.sized hbf
  have hle := hsized.le
  have hsize := hsized.pos
  split
  · rename_i hfull
    exact .inr (fillFlush_spec h hbf hfull.1 hroom (by omega))
  · rename_i hfull
    split
    · rename_i hbig
      obtain ⟨t, hd, hstop⟩ | ⟨w, t, hd, hadv⟩ :=
        @direct_spec s data h hbf (by omega) s.size hsize (by omega)
      · exact .inl ⟨t, by rw [hd], hstop⟩
      · exact .inr ⟨w, t, by rw [hd], hadv⟩
    · exact .inr (fill_spec h hbf hs hpos hn (by omega))

theorem fullRound_spec (h : Inv s) (hbf : s.bf ≠ none) (hs : s.snbf = false) (hl : s.slbf = false)
    (hdata : data ≠ []) :
    (∃ t, s.fullRound data = some (none, t) ∧ Stopped s t) ∨
      ∃ w t, s.fullRound data = some (some w, t) ∧ Advanced s t data w := by
  have hw : s.w = s.size - s.p := by
    rw [h.w hbf, space, if_neg (by simp [hl]), if_neg (by simp [hs])]
  exact bufRound_spec h hbf hs hw (List.length_pos_of_ne_nil hdata) (Nat.le_refl _)

theorem nlDist_pos (data : List UInt8) : 0 < nlDist data := by
  rw [nlDist]
  split <;> omega

theorem lineRound_spec (h : Inv s) (hbf : s.bf ≠ none) (hs : s.snbf = false) (hl : s.slbf = true)
    (hdata : data ≠ []) :
    (∃ t, s.lineRound data = some (none, t) ∧ Stopped s t) ∨
      ∃ w t, s.lineRound data = some (some w, t) ∧ Advanced s t data w := by
  have hw : s.w + s.size = s.size - s.p := by
    rw [h.w hbf, space, if_pos hl]
    omega
  have hpos := nlDist_pos data
  have hlen := List.length_pos_of_ne_nil hdata
  rw [lineRound]
  obtain ⟨t, hround, hstop⟩ | ⟨w, t, hround, hadv⟩ := @bufRound_spec s data h hbf hs
    (min data.length (nlDist data)) (s.w + s.size) hw (by omega) (Nat.min_le_left _ _)
  · simp only [hround]
    exact .inl ⟨t, rfl, hstop⟩
  · simp only [hround]
    right
    split
    · obtain ⟨t', hflush, hflushed⟩ := hadv.took.inv.base.fflush
      rw [hflush]
      refine ⟨w, t', rfl, ⟨hflushed.inv, hflushed.all.trans hadv.took.all,
        hadv.took.sent.trans hflushed.sent_prefix,
        hflushed.failures.trans hadv.took.failures⟩, by rw [hflushed.bf]; exact hadv.bf,
        hadv.le, ?_⟩
      refine Nat.lt_of_le_of_lt ?_ hadv.left
      rw [left, left, hflushed.p]
      split <;> omega
    · exact ⟨w, t, rfl, hadv⟩

theorem round_spec (h : Inv s) (hbf : s.bf ≠ none) (hdata : data ≠ []) :
    (∃ t, s.round data = some (none, t) ∧ Stopped s t) ∨
      ∃ w t, s.round data = some (some w, t) ∧ Advanced s t data w := by
  rw [round]
  by_cases hs : s.snbf = true
  · rw [if_pos hs]
    exact unbufRound_spec h hbf hs hdata
  · rw [if_neg hs]
    have hs' : s.snbf = false := by simpa using hs
    by_cases hl : s.slbf = true
    · rw [if_neg (by simp [hl])]
      exact lineRound_spec h hbf hs' hl hdata
    · rw [if_pos (by simpa using hl)]
      exact fullRound_spec h hbf hs' (by simpa using hl) hdata

/-! ## Blocks -/

/-- A block of which `rest` is left: all of it is done, or a write has failed. -/
structure Wrote (s t : File) (data : List UInt8) (ok : Bool) (rest : List UInt8) : Prop where
  inv : Inv t
  split : ∃ took, data = took ++ rest ∧ t.all = s.all ++ took
  sent : s.sent <+: t.sent
  done : ok = true → rest = [] ∧ t.failures = s.failures
  stopped : ok = false → rest ≠ [] ∧ s.failures < t.failures

theorem sfvLoop_spec (fuel : Nat) : ∀ s data, Inv s → s.bf ≠ none → data ≠ [] →
    s.left data.length < fuel →
    ∃ ok rest t, sfvLoop fuel s data = some (ok, rest, t) ∧ Wrote s t data ok rest := by
  induction fuel with
  | zero => exact fun _ _ _ _ _ h => absurd h (Nat.not_lt_zero _)
  | succ fuel ih =>
    intro s data h hbf hdata hfuel
    rw [sfvLoop]
    obtain ⟨t, hround, hstop⟩ | ⟨w, t, hround, hadv⟩ := round_spec h hbf hdata
    · rw [hround]
      exact ⟨false, data, t, rfl, hstop.inv, ⟨[], rfl, by rw [hstop.all, List.append_nil]⟩,
        ⟨[], by rw [List.append_nil, hstop.sent]⟩, fun hf => absurd hf (by simp),
        fun _ => ⟨hdata, by rw [hstop.failures]; omega⟩⟩
    · rw [hround]
      dsimp only
      have hle := hadv.le
      by_cases hall : data.length = w
      · rw [if_pos hall]
        refine ⟨true, [], t, rfl, hadv.took.inv, ⟨data, by rw [List.append_nil], ?_⟩,
          hadv.took.sent, fun _ => ⟨rfl, hadv.took.failures⟩, fun hf => absurd hf (by simp)⟩
        rw [hadv.took.all, ← hall, List.take_length]
      · rw [if_neg hall]
        have hleft := hadv.left
        have hdrop : (data.drop w).length = data.length - w := List.length_drop
        obtain ⟨ok, rest, t', hloop, hwrote⟩ := ih t (data.drop w) hadv.took.inv hadv.bf
          (List.ne_nil_of_length_pos (by omega)) (by rw [hdrop]; omega)
        obtain ⟨took, hsplit, htook⟩ := hwrote.split
        refine ⟨ok, rest, t', hloop, hwrote.inv, ⟨data.take w ++ took, ?_, ?_⟩,
          hadv.took.sent.trans hwrote.sent, fun hok => ?_, fun hok => ?_⟩
        · rw [List.append_assoc, ← hsplit, List.take_append_drop]
        · rw [htook, hadv.took.all, List.append_assoc]
        · exact ⟨(hwrote.done hok).1, (hwrote.done hok).2.trans hadv.took.failures⟩
        · have hfail := (hwrote.stopped hok).2
          rw [hadv.took.failures] at hfail
          exact ⟨(hwrote.stopped hok).1, hfail⟩

theorem sfvwrite_spec (h : Inv s) (data : List UInt8) :
    ∃ ok rest t, s.sfvwrite data = some (ok, rest, t) ∧ Wrote s t data ok rest := by
  rw [sfvwrite]
  by_cases hdata : data = []
  · rw [if_pos hdata]
    exact ⟨true, [], s, rfl, h, ⟨[], hdata, by rw [List.append_nil]⟩, List.prefix_rfl,
      fun _ => ⟨rfl, rfl⟩, fun hf => absurd hf (by simp)⟩
  · rw [if_neg hdata]
    obtain ⟨r, hcan, hready⟩ := h.base.canwrite
    rw [hcan]
    have hinv : Inv r := by
      by_cases hbf : s.bf = none
      · obtain ⟨hw, hp⟩ := hready.w hbf
        exact ⟨hready.base, fun _ => hw, fun _ => hp⟩
      · rw [hready.same hbf]
        exact h
    obtain ⟨ok, rest, t, hloop, hwrote⟩ := sfvLoop_spec (2 * data.length + 2) r data hinv hready.bf
      hdata (by rw [left]; split <;> omega)
    obtain ⟨took, hsplit, htook⟩ := hwrote.split
    exact ⟨ok, rest, t, hloop, hwrote.inv, ⟨took, hsplit, by rw [htook, hready.all]⟩,
      by rw [← hready.sent]; exact hwrote.sent,
      fun hok => ⟨(hwrote.done hok).1, (hwrote.done hok).2.trans hready.failures⟩,
      fun hok => ⟨(hwrote.stopped hok).1, by rw [← hready.failures]; exact (hwrote.stopped hok).2⟩⟩

end File

end Vmx.StdioOut
