import Vmx.Libc.StdioInput

/-!
# Runs of calls on a stream that is read

`Unread` is the stream as its reader should see it.  An event is a call with what it got; the
stream and the list take the same events.

A call stops short when a read that it makes fails.  `getc` sets the flag of the end of the file
then, and so does every call after a read that gives nothing before the end; from then on calls may
stop short without reading (`dead`).
-/

namespace Vmx.Stdio

open Lib File

/-- The characters to come, and whether a call may stop short without reading. -/
structure Unread where
  chars : List UInt8
  dead : Bool

structure Event where
  op : Op
  /-- The characters that the call has taken. -/
  got : List UInt8
  /-- Whether `ungetc` has pushed its character. -/
  pushed : Bool
  /-- Whether a read has failed in the call. -/
  failed : Bool
  /-- Whether a read has given nothing before the end of the file. -/
  ended : Bool

/-- The characters that a call should take from the front of the list. -/
def Op.want : Op → List UInt8 → List UInt8
  | .fgetc, cs => cs.take 1
  | .fgets num, cs => File.lineOf (num - 1) cs
  | .fread size count, cs => cs.take (count * size)
  | .ungetc _ _, _ => []

/-- What a call that has got `got` should reply. -/
def Op.reply (op : Op) (got : List UInt8) (pushed : Bool) : Reply :=
  match op with
  | .fgetc => .char got.head?
  | .fgets _ => .line (if got = [] then none else some (got ++ [0]))
  | .fread size _ => .items (got.length / size) got
  | .ungetc _ _ => .pushed pushed

/-- Whether calls after the event may stop short without reading. -/
def Event.kills (e : Event) : Bool := e.ended || e.failed && decide (e.op = .fgetc)

/-- A call takes the characters that it wants, or less when it may stop short. -/
def Unread.take (a : Unread) (e : Event) : Option Unread :=
  if e.got = e.op.want a.chars ∨
      e.got <+: e.op.want a.chars ∧ (e.failed || e.ended || a.dead) = true then
    some ⟨a.chars.drop e.got.length, a.dead || e.kills⟩
  else none

/-- A character is put in front, but for `EOF`, and for want of memory. -/
def Unread.put (a : Unread) (e : Event) (c : Int) (memory : Bool) : Option Unread :=
  if e.pushed then
    if c = -1 then none else some ⟨UInt8.ofInt c :: a.chars, a.dead || e.kills⟩
  else if c = -1 ∨ memory = false then some ⟨a.chars, a.dead || e.kills⟩
  else none

def Unread.step (a : Unread) (e : Event) : Option Unread :=
  match e.op with
  | .ungetc c memory => a.put e c memory
  | _ => a.take e

/-- The event of a call that leads from `s` to `t`. -/
def event (s t : File) (op : Op) (got : List UInt8) (pushed : Bool) : Event :=
  ⟨op, got, pushed, decide (s.errors < t.errors), decide (s.zeros < t.zeros)⟩

def File.step (s : File) (e : Event) : Option File :=
  match s.call e.op with
  | none => none
  | some (reply, t) =>
    if reply = e.op.reply e.got e.pushed ∧ e.failed = decide (s.errors < t.errors) ∧
        e.ended = decide (s.zeros < t.zeros) then some t
    else none

/-- The list of a stream. -/
structure Shows (s : File) (a : Unread) : Prop where
  inv : s.Inv
  chars : s.chars = a.chars
  seof : s.seof = true → a.dead = true ∨ s.file = []

variable {s s' : File} {a : Unread}

theorem Op.want_prefix (op : Op) (cs : List UInt8) : op.want cs <+: cs := by
  cases op with
  | fgetc => exact List.take_prefix _ _
  | fgets num => exact lineOf_prefix _ _
  | fread size count => exact List.take_prefix _ _
  | ungetc c memory => exact List.nil_prefix

/-- What has been delivered is wanted, or the call may stop short. -/
theorem File.Delivered.accepted {op : Op} {got : List UInt8} (h : Shows s a)
    (hgot : Delivered s (op.want s.chars) got s') :
    got = op.want a.chars ∨ got <+: op.want a.chars ∧
      (decide (s.errors < s'.errors) || decide (s.zeros < s'.zeros) || a.dead) = true := by
  rw [← h.chars]
  have hnil : s'.file = [] → s'.chars = s'.file → got <+: op.want s.chars →
      got = op.want s.chars := by
    intro hfile hchars hpre
    have hall : s.chars = got := by rw [hgot.chars, hchars, hfile, List.append_nil]
    have hback := Op.want_prefix op s.chars
    refine hpre.eq_of_length_le ?_
    rw [hall] at hback ⊢
    exact hback.length_le
  obtain heq | ⟨hpre, hchars, hstop⟩ := hgot.want
  · exact .inl heq
  · obtain hseof | herr | hz | hfile := hstop
    · obtain hdead | hfile := h.seof hseof
      · exact .inr ⟨hpre, by rw [hdead, Bool.or_true]⟩
      · exact .inl (hnil (hgot.later.file hfile) hchars hpre)
    · exact .inr ⟨hpre, by simp [herr]⟩
    · exact .inr ⟨hpre, by simp [hz]⟩
    · exact .inl (hnil hfile hchars hpre)

theorem Shows.later (h : Shows s a) (hinv : Inv s') (hlater : Later s s') {e : Event}
    (hended : e.ended = decide (s.zeros < s'.zeros)) :
    Shows s' ⟨s'.chars, a.dead || e.kills⟩ where
  inv := hinv
  chars := rfl
  seof hseof := by
    obtain hs | hz | hfile := hlater.seof hseof
    · obtain hd | hfile := h.seof hs
      · exact .inl (by simp [hd])
      · exact .inr (hlater.file hfile)
    · exact .inl (by simp [Event.kills, hended, hz])
    · exact .inr hfile

theorem step_event {op : Op} {got : List UInt8} {pushed : Bool} {t : File}
    (hcall : s.call op = some (op.reply got pushed, t)) :
    s.step (event s t op got pushed) = some t := by
  have hop : (event s t op got pushed).op = op := rfl
  rw [File.step, hop, hcall]
  exact if_pos ⟨rfl, rfl, rfl⟩

/-- The list takes the event of a call that has delivered characters. -/
theorem take_event (op : Op) {got : List UInt8} {pushed : Bool} {t : File} (h : Shows s a)
    (hgot : Delivered s (op.want s.chars) got s') (herrors : t.errors = s'.errors)
    (hzeros : t.zeros = s'.zeros) :
    a.take (event s t op got pushed) =
      some ⟨s'.chars, a.dead || (event s t op got pushed).kills⟩ := by
  have hdrop : a.chars.drop got.length = s'.chars := by
    rw [← h.chars, hgot.chars, List.drop_left]
  have haccept := hgot.accepted h
  rw [← herrors, ← hzeros] at haccept
  refine (if_pos haccept).trans ?_
  exact congrArg some (congrArg (Unread.mk · _) hdrop)

/-- Each call of the stream is a step of the list. -/
theorem call_shows (h : Shows s a) (op : Op) : ∃ e t a', e.op = op ∧ s.step e = some t ∧
    a.step e = some a' ∧ Shows t a' := by
  cases op with
  | fgetc =>
    obtain ⟨c, s', hcall, hgot⟩ | ⟨s', hcall, hgot, hfile, hstop, hinv⟩ := fgetc_spec h.inv
    · refine ⟨event s s' .fgetc [c] false, s', _, rfl, step_event ?_,
        take_event .fgetc h hgot rfl rfl, h.later hgot.inv hgot.later rfl⟩
      rw [call, hcall]
      rfl
    · refine ⟨event s { s' with seof := true } .fgetc [] false, { s' with seof := true }, _, rfl,
        step_event ?_, take_event .fgetc h hgot rfl rfl, hinv, rfl, fun _ => ?_⟩
      · rw [call, hcall]
        rfl
      · obtain hseof | herr | hz | hnil := hstop
        · obtain hd | hnil := h.seof hseof
          · exact .inl (by simp [hd])
          · exact .inr (hgot.later.file hnil)
        · exact .inl (by simp [Event.kills, event, herr])
        · exact .inl (by simp [Event.kills, event, hz])
        · exact .inr hnil
  | fgets num =>
    by_cases hnum : num < 2
    · have hwant : Op.want (.fgets num) s.chars = [] := by
        have hzero : num - 1 = 0 := by omega
        rw [Op.want, hzero, lineOf]
      have hgot : Delivered s (Op.want (.fgets num) s.chars) [] s :=
        ⟨h.inv, Later.refl s, rfl, .inl hwant.symm⟩
      refine ⟨event s s (.fgets num) [] false, s, _, rfl, step_event ?_,
        take_event _ h hgot rfl rfl, h.later h.inv (Later.refl s) rfl⟩
      rw [call, fgets, if_pos hnum]
      rfl
    · obtain ⟨got, s', hloop, hgot⟩ :=
        fgetsLoop_spec num s (num - 1) [] h.inv (by omega) (by omega)
      refine ⟨event s s' (.fgets num) got false, s', _, rfl, step_event ?_,
        take_event (.fgets num) h hgot rfl rfl, h.later hgot.inv hgot.later rfl⟩
      rw [call, fgets, if_neg hnum, hloop]
      rfl
  | fread size count =>
    by_cases hlen : count * size = 0
    · have hwant : Op.want (.fread size count) s.chars = [] := by
        rw [Op.want, hlen, List.take_zero]
      have hgot : Delivered s (Op.want (.fread size count) s.chars) [] s :=
        ⟨h.inv, Later.refl s, rfl, .inl hwant.symm⟩
      refine ⟨event s s (.fread size count) [] false, s, _, rfl, step_event ?_,
        take_event _ h hgot rfl rfl, h.later h.inv (Later.refl s) rfl⟩
      rw [call, fread, if_pos hlen, Op.reply, List.length_nil, Nat.zero_div]
      rfl
    · obtain ⟨got, s', hloop, hgot⟩ := freadLoop_spec (count * size + 2) s (count * size) [] h.inv
        (by split <;> omega)
      refine ⟨event s s' (.fread size count) got false, s', _, rfl, step_event ?_,
        take_event (.fread size count) h hgot rfl rfl, h.later hgot.inv hgot.later rfl⟩
      rw [call, fread, if_neg hlen, hloop]
      have hret : (if got.length = count * size then count else got.length / size) =
          got.length / size := by
        split
        · rename_i hall
          rw [hall, Nat.mul_div_cancel _ (Nat.pos_of_mul_pos_left (Nat.pos_of_ne_zero hlen))]
        · rfl
      exact congrArg (fun ret => some (Reply.items ret got, s')) hret
  | ungetc c memory =>
    obtain ⟨s', hcall, hc, hspec⟩ | ⟨s', hcall, hfail, hinv, hlater, hchars⟩ :=
      ungetc_spec h.inv c memory
    · refine ⟨event s s' (.ungetc c memory) [] true, s', _, rfl, step_event ?_, ?_,
        h.later (e := event s s' (.ungetc c memory) [] true) hspec.inv hspec.later rfl⟩
      · rw [call, hcall]
        rfl
      · rw [hspec.chars, h.chars]
        exact if_neg hc
    · refine ⟨event s s' (.ungetc c memory) [] false, s', _, rfl, step_event ?_, ?_,
        h.later (e := event s s' (.ungetc c memory) [] false) hinv hlater rfl⟩
      · rw [call, hcall]
        rfl
      · rw [hchars, h.chars]
        exact if_pos hfail

/-! ## Runs -/

/-- A stream that has been opened for reading, with any buffer or none. -/
structure Opened (s : File) (content : List UInt8) : Prop where
  p : s.p = 0
  r : s.r = 0
  mode : s.srd = true ∨ s.srw = true
  seof : s.seof = false
  ub : s.ub = none
  file : s.file = content

theorem Opened.shows {content : List UInt8} (h : Opened s content) :
    Shows s ⟨content, false⟩ where
  inv := by
    refine ⟨h.mode.imp_right fun hsrw => ⟨hsrw, h.r, h.ub⟩, fun _ => ?_, fun b hb => ?_,
      fun hs => ?_⟩
    · rw [h.p, h.r]
      exact Nat.zero_le _
    · exact absurd (h.ub.symm.trans hb) (by simp)
    · exact absurd (h.seof.symm.trans hs) (by simp)
  chars := by rw [chars_of_empty h.ub h.r, h.file]
  seof hs := absurd (h.seof.symm.trans hs) (by simp)

/-- A file of three characters, read two at a time. -/
def threeChars : File where
  p := 0
  r := 0
  srd := true
  srw := false
  seof := false
  serr := false
  bf := none
  ub := none
  up := 0
  ur := 0
  blksize := 2
  file := [97, 10, 98]
  reads := fun _ => some 2
  next := 0
  errors := 0
  zeros := 0

theorem threeChars_opened : Opened threeChars [97, 10, 98] :=
  ⟨rfl, rfl, .inl rfl, rfl, rfl, rfl⟩

end Vmx.Stdio
