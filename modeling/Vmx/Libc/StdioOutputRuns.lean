import Vmx.Libc.StdioOutput

/-!
# Runs of calls on a stream that is written

`Out` is the stream as its writer should see it: the bytes that it was given, and those of them that
the driver has taken.  An event is a call with what it took and what it passed on; the stream and
`Out` take the same events.
-/

namespace Vmx.StdioOut

open Lib File

structure Out where
  handed : List UInt8
  sent : List UInt8

structure Event where
  op : Op
  /-- The bytes that the stream has taken from its caller. -/
  took : List UInt8
  /-- The bytes that the driver has taken from the stream. -/
  passed : List UInt8
  /-- Whether a write has failed in the call. -/
  failed : Bool

/-- The bytes that a call hands to the stream. -/
def Op.given : Op → List UInt8
  | .fputc c => [UInt8.ofInt c]
  | .fwrite size count buf => block size count buf
  | .fflush => []

def Op.flushes : Op → Bool
  | .fflush => true
  | _ => false

/-- What a call should reply: `EOF` or a short count when a write has failed. -/
def Event.reply (e : Event) : Reply :=
  match e.op with
  | .fputc _ => .put (!e.failed)
  | .fwrite size count _ => .items (if e.failed then e.took.length / size else count)
  | .fflush => .flushed (!e.failed)

/-- What is taken is all that was given unless a write has failed; what has been sent is a prefix of
what was handed over, and after a flush all of it. -/
def Out.step (a : Out) (e : Event) : Option Out :=
  if e.took <+: e.op.given ∧ (e.took = e.op.given ↔ e.failed = false) ∧
      a.sent ++ e.passed <+: a.handed ++ e.took ∧
      (e.op.flushes = true → a.sent ++ e.passed = a.handed ++ e.took) then
    some ⟨a.handed ++ e.took, a.sent ++ e.passed⟩
  else none

def File.step (s : File) (e : Event) : Option File :=
  match s.call e.op with
  | none => none
  | some (reply, t) =>
    if reply = e.reply ∧ t.sent = s.sent ++ e.passed ∧
        e.failed = decide (s.failures < t.failures) then some t
    else none

/-- A call, whatever it replies. -/
def File.go (s : File) (op : Op) : Option File := (s.call op).map Prod.snd

/-- A stream that has just been opened for writing alone. -/
structure Fresh (s : File) : Prop where
  swr : s.swr = true
  slbf : s.slbf = false
  lbfsize : s.lbfsize = 0
  p : s.p = 0
  w : s.w = 0
  bf : s.bf = none
  sent : s.sent = []
  blksize : 0 < s.blksize ∧ s.blksize < s.patience
  patience : 1 < s.patience

/-- The stream before its first output: `setvbuf` may have been called, with a buffer that is not
empty, or without one, which for lines must then be found later. -/
inductive Opened : File → Prop
  | fopen {s : File} (h : Fresh s) : Opened s
  | setvbuf {s : File} (h : Fresh s) (mode : Mode) (buf : Option (List UInt8)) (size : Nat)
      (hbuf : ∀ b, buf = some b → b.length = size ∧ 0 < size ∧ size < s.patience)
      (hline : mode = .line → buf = none → s.memory = true) : Opened (s.setvbuf mode buf size)

/-- A character is not stored without a buffer, and `EOF` is stored without `__swbuf`. -/
def Fine (s : File) : Op → Prop
  | .fputc c => (s.bf = none → ¬Stores s) ∧ (c = -1 → Stores s)
  | _ => True

/-! ## Steps -/

variable {s t : File}

theorem fwrite_spec (h : Inv s) (size count : Nat) (buf : Nat → UInt8) :
    ∃ took rest t, s.fwrite size count buf =
        some (if s.failures < t.failures then took.length / size else count, t) ∧ Inv t ∧
      block size count buf = took ++ rest ∧ t.all = s.all ++ took ∧ s.sent <+: t.sent ∧
      (rest = [] ↔ ¬s.failures < t.failures) := by
  obtain ⟨ok, rest, t, hwrite, hwrote⟩ := sfvwrite_spec h (block size count buf)
  obtain ⟨took, hsplit, hall⟩ := hwrote.split
  have hlen : took.length + rest.length = count * size := by
    rw [← List.length_append, ← hsplit, block, List.length_map, List.length_range]
  have hret : (if ok = true then count else (count * size - rest.length) / size) =
      if s.failures < t.failures then took.length / size else count := by
    cases ok with
    | true => rw [if_pos rfl, if_neg (by rw [(hwrote.done rfl).2]; omega)]
    | false =>
      have htook : count * size - rest.length = took.length := by omega
      rw [if_neg (by simp), if_pos (hwrote.stopped rfl).2, htook]
  refine ⟨took, rest, t, ?_, hwrote.inv, hsplit, hall, hwrote.sent, ?_⟩
  · rw [fwrite, hwrite, ← hret]
    rfl
  · cases ok with
    | true =>
      obtain ⟨hrest, heq⟩ := hwrote.done rfl
      exact ⟨fun _ => by omega, fun _ => hrest⟩
    | false =>
      obtain ⟨hrest, hlt⟩ := hwrote.stopped rfl
      exact ⟨fun hr => absurd hr hrest, fun hn => absurd hlt hn⟩

/-- `Out` takes an event that the stream takes. -/
theorem out_step {op : Op} {took passed : List UInt8} {failed : Bool}
    (htaken : took <+: op.given) (hfailed : took = op.given ↔ failed = false)
    (hall : t.all = s.all ++ took) (hsent : t.sent = s.sent ++ passed)
    (hflush : op.flushes = true → t.buffered = []) :
    Out.step ⟨s.all, s.sent⟩ ⟨op, took, passed, failed⟩ = some ⟨t.all, t.sent⟩ := by
  have hpre : s.sent ++ passed <+: s.all ++ took := by
    rw [← hsent, ← hall]
    exact List.prefix_append _ _
  have hempty : op.flushes = true → s.sent ++ passed = s.all ++ took := fun hop => by
    rw [← hsent, ← hall, all, hflush hop, List.append_nil]
  rw [hall, hsent]
  exact if_pos ⟨htaken, hfailed, hpre, hempty⟩

/-- Each call of the stream is a step of `Out`. -/
theorem call_step (h : Inv s) (op : Op) (hfine : Fine s op) :
    ∃ e t, e.op = op ∧ s.step e = some t ∧ s.go op = some t ∧
      Out.step ⟨s.all, s.sent⟩ e = some ⟨t.all, t.sent⟩ ∧ Inv t := by
  cases op with
  | fputc c =>
    obtain ⟨v, t, hput, hv, htook⟩ := sputc_spec h c hfine.1 hfine.2
    obtain ⟨passed, hsent⟩ := htook.sent
    have hcall : s.call (.fputc c) = some (.put true, t) := by
      rw [call, hput, Option.map_some, decide_eq_true hv]
    refine ⟨⟨.fputc c, [UInt8.ofInt c], passed, false⟩, t, rfl, ?_, by rw [go, hcall]; rfl,
      out_step List.prefix_rfl ⟨fun _ => rfl, fun _ => rfl⟩ htook.all hsent.symm
        fun hop => absurd hop (by simp [Op.flushes]), htook.inv⟩
    rw [File.step, hcall]
    exact if_pos ⟨rfl, hsent.symm, (decide_eq_false (by rw [htook.failures]; omega)).symm⟩
  | fwrite size count buf =>
    obtain ⟨took, rest, t, hwrite, hinv, hsplit, hall, ⟨passed, hsent⟩, hrest⟩ :=
      fwrite_spec h size count buf
    have hcall : s.call (.fwrite size count buf) =
        some (.items (if s.failures < t.failures then took.length / size else count), t) := by
      rw [call, hwrite, Option.map_some]
    have hgiven : took = block size count buf ↔ decide (s.failures < t.failures) = false := by
      rw [decide_eq_false_iff_not, ← hrest, hsplit]
      exact ⟨fun heq => List.self_eq_append_right.1 heq, fun hr => by rw [hr, List.append_nil]⟩
    refine ⟨⟨.fwrite size count buf, took, passed, decide (s.failures < t.failures)⟩, t, rfl, ?_,
      by rw [go, hcall]; rfl, out_step ⟨rest, hsplit.symm⟩ hgiven hall hsent.symm
        fun hop => absurd hop (by simp [Op.flushes]), hinv⟩
    rw [File.step, hcall]
    refine if_pos ⟨?_, hsent.symm, rfl⟩
    simp only [Event.reply, decide_eq_true_eq]
  | fflush =>
    obtain ⟨t, hflush, hflushed⟩ := h.base.fflush
    obtain ⟨passed, hsent⟩ := hflushed.sent_prefix
    have hcall : s.call .fflush = some (.flushed true, t) := by rw [call, hflush]; rfl
    refine ⟨⟨.fflush, [], passed, false⟩, t, rfl, ?_, by rw [go, hcall]; rfl,
      out_step List.prefix_rfl ⟨fun _ => rfl, fun _ => rfl⟩
        (by rw [hflushed.all, List.append_nil]) hsent.symm
        fun _ => by rw [buffered, hflushed.p, List.take_zero], hflushed.inv⟩
    rw [File.step, hcall]
    exact if_pos ⟨rfl, hsent.symm, (decide_eq_false (by rw [hflushed.failures]; omega)).symm⟩

/-! ## Runs -/

theorem Opened.inv (h : Opened s) (hflushes : ∀ k, ∃ n, s.flushes k = some (n + 1)) :
    File.Inv s ∧ s.all = [] ∧ s.sent = [] := by
  have hempty : ∀ t : File, t.sent = [] → t.p = 0 → t.all = [] := fun t hs hp => by
    rw [all, buffered, hs, hp, List.take_zero, List.append_nil]
  cases h with
  | fopen h =>
    refine ⟨⟨⟨h.swr, fun _ => h.slbf, ⟨h.patience, h.blksize.2⟩, h.blksize.1, hflushes,
      fun _ => ⟨h.p, fun _ => h.lbfsize, fun hl => absurd (h.slbf.symm.trans hl) (by simp)⟩,
      fun hb => absurd h.bf hb⟩, fun hb => absurd h.bf hb, fun _ => h.p⟩,
      hempty _ h.sent h.p, h.sent⟩
  | @setvbuf r h mode buf size hbuf hline =>
    cases mode with
    | none =>
      refine ⟨⟨⟨h.swr, fun _ => rfl, ⟨h.patience, h.blksize.2⟩, h.blksize.1, hflushes,
        fun hn => absurd hn (by simp [File.setvbuf]), fun _ => ⟨Nat.one_pos, h.patience,
        Nat.zero_le _, fun _ => rfl, rfl⟩⟩, fun _ => rfl, fun _ => rfl⟩,
        hempty _ h.sent rfl, h.sent⟩
    | line =>
      refine ⟨⟨⟨h.swr, fun hs => absurd hs (by simp [File.setvbuf]), ⟨h.patience, h.blksize.2⟩,
        h.blksize.1, hflushes, fun hn => ⟨rfl, fun hl => absurd hl (by simp [File.setvbuf]),
        fun _ => hline rfl hn⟩, fun hb => ?_⟩, fun _ => rfl, fun _ => rfl⟩,
        hempty _ h.sent rfl, h.sent⟩
      obtain ⟨b, rfl⟩ := Option.ne_none_iff_exists'.1 hb
      obtain ⟨rfl, hpos, hlt⟩ := hbuf b rfl
      exact ⟨hpos, hlt, Nat.zero_le _, fun hs => absurd hs (by simp [File.setvbuf]), rfl⟩
    | full =>
      refine ⟨⟨⟨h.swr, fun _ => rfl, ⟨h.patience, h.blksize.2⟩, h.blksize.1, hflushes,
        fun hn => ⟨rfl, fun _ => rfl, fun hl => absurd hl (by simp [File.setvbuf])⟩,
        fun hb => ?_⟩, fun hb => ?_, fun _ => rfl⟩, hempty _ h.sent rfl, h.sent⟩
      · obtain ⟨b, rfl⟩ := Option.ne_none_iff_exists'.1 hb
        obtain ⟨rfl, hpos, hlt⟩ := hbuf b rfl
        exact ⟨hpos, hlt, Nat.zero_le _, fun hs => absurd hs (by simp [File.setvbuf]), rfl⟩
      · obtain ⟨b, rfl⟩ := Option.ne_none_iff_exists'.1 hb
        obtain ⟨rfl, -, -⟩ := hbuf b rfl
        show (b.length : Int) = (b.length : Int) - ((0 : Nat) : Int)
        omega

/-- A stream with a file of blocks of four bytes, whose writes in flushes take at most `flushes`. -/
def blocks (flushes : Nat → Option Nat) : File where
  p := 0
  w := 0
  lbfsize := 0
  swr := true
  slbf := false
  snbf := false
  serr := false
  bf := none
  blksize := 4
  memory := true
  tty := false
  sent := []
  flushes := flushes
  directs := fun _ => some 2
  nextFlush := 0
  nextDirect := 0
  patience := 8
  failures := 0

theorem blocks_opened (flushes : Nat → Option Nat) : Opened (blocks flushes) :=
  .fopen ⟨rfl, rfl, rfl, rfl, rfl, rfl, rfl, by simp [blocks], by simp [blocks]⟩

end Vmx.StdioOut
