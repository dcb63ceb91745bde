import Vmx.Libc.StdioRead

/-!
# A stream that is read is a list

`chars` is the list of the characters that a stream has still to deliver: those in the buffer that
`p` points into, those that were saved when the push-back buffer was made, and those of the file.
Every call takes characters from its front or puts one there.
-/

namespace Vmx.Stdio

open Lib

namespace File

variable {s s' s'' : File} {n : Nat}

/-! ## The characters to come -/

/-- The characters that were left in the buffer when the push-back buffer was made. -/
def saved (s : File) : List UInt8 :=
  if s.ub = none then [] else (s.buffer.drop s.up).take s.ur

def chars (s : File) : List UInt8 :=
  (s.current.drop s.p).take s.r ++ (s.saved ++ s.file)

/-- The counts fit the buffers, and nothing waits in a buffer behind the end of the file. -/
structure Inv (s : File) : Prop where
  mode : s.srd = true ∨ s.srw = true ∧ s.r = 0 ∧ s.ub = none
  normal : s.ub = none → s.p + s.r ≤ s.buffer.length
  pushed : ∀ b, s.ub = some b →
    0 < b.length ∧ s.p + s.r = b.length ∧ s.up + s.ur ≤ s.buffer.length
  ended : s.seof = true → (s.ub = none → s.p = 0 ∧ s.r = 0) ∧ (s.ub ≠ none → s.ur = 0)

theorem Inv.le_current (h : Inv s) : s.p + s.r ≤ s.current.length := by
  cases hub : s.ub with
  | none =>
    rw [current, hub]
    exact h.normal hub
  | some b =>
    rw [current, hub]
    exact Nat.le_of_eq (h.pushed b hub).2.1

theorem Inv.advance (h : Inv s) (hn : n ≤ s.r) : Inv (s.advance n) where
  mode := by
    obtain hsrd | ⟨hsrw, hr, hub⟩ := h.mode
    · exact .inl hsrd
    · exact .inr ⟨hsrw, by show s.r - n = 0; omega, hub⟩
  normal hub := by
    have hle := h.normal hub
    show s.p + n + (s.r - n) ≤ s.buffer.length
    omega
  pushed b hub := by
    obtain ⟨hpos, heq, hle⟩ := h.pushed b hub
    exact ⟨hpos, by show s.p + n + (s.r - n) = b.length; omega, hle⟩
  ended hseof := by
    obtain ⟨hnormal, hpushed⟩ := h.ended hseof
    refine ⟨fun hub => ?_, hpushed⟩
    obtain ⟨hp, hr⟩ := hnormal hub
    exact ⟨by show s.p + n = 0; omega, by show s.r - n = 0; omega⟩

/-- Bytes that are copied are the front of what is to come. -/
theorem Inv.copy (h : Inv s) (hn : n ≤ s.r) :
    ∃ bytes, s.copy n = some bytes ∧ bytes.length = n ∧
      s.chars = bytes ++ (s.advance n).chars := by
  have hle := h.le_current
  refine ⟨(s.current.drop s.p).take n, if_pos (by omega), ?_, ?_⟩
  · rw [List.length_take, List.length_drop]
    omega
  · show _ = _ ++ ((s.current.drop (s.p + n)).take (s.r - n) ++ (s.saved ++ s.file))
    rw [← List.append_assoc, ← List.drop_drop, ← List.take_add, Nat.add_sub_cancel' hn]
    rfl

/-! ## What a call may do -/

/-- What only grows, and when a stream is at its end. -/
structure Later (s s' : File) : Prop where
  errors : s.errors ≤ s'.errors
  zeros : s.zeros ≤ s'.zeros
  file : s.file = [] → s'.file = []
  seof : s'.seof = true → s.seof = true ∨ s.zeros < s'.zeros ∨ s'.file = []

theorem Later.refl (s : File) : Later s s := ⟨Nat.le_refl _, Nat.le_refl _, id, .inl⟩

theorem Later.trans (h : Later s s') (h' : Later s' s'') : Later s s'' where
  errors := Nat.le_trans h.errors h'.errors
  zeros := Nat.le_trans h.zeros h'.zeros
  file hf := h'.file (h.file hf)
  seof hseof := by
    obtain hs' | hz | hf := h'.seof hseof
    · obtain hs | hz | hf := h.seof hs'
      · exact .inl hs
      · exact .inr (.inl (Nat.lt_of_lt_of_le hz h'.zeros))
      · exact .inr (.inr (h'.file hf))
    · exact .inr (.inl (Nat.lt_of_le_of_lt h.zeros hz))
    · exact .inr (.inr hf)

/-- Why a call may stop short. -/
def Stop (s s' : File) : Prop :=
  s.seof = true ∨ s.errors < s'.errors ∨ s.zeros < s'.zeros ∨ s'.file = []

theorem Stop.of_later (hstop : Stop s' s'') (h : Later s s') (h' : Later s' s'') : Stop s s'' := by
  obtain hseof | herr | hz | hf := hstop
  · obtain hs | hz | hf := h.seof hseof
    · exact .inl hs
    · exact .inr (.inr (.inl (Nat.lt_of_lt_of_le hz h'.zeros)))
    · exact .inr (.inr (.inr (h'.file hf)))
  · exact .inr (.inl (Nat.lt_of_le_of_lt h.errors herr))
  · exact .inr (.inr (.inl (Nat.lt_of_le_of_lt h.zeros hz)))
  · exact .inr (.inr (.inr hf))

/-- A call that wants the characters `want` from the front has got `got`. -/
structure Delivered (s : File) (want got : List UInt8) (s' : File) : Prop where
  inv : Inv s'
  later : Later s s'
  chars : s.chars = got ++ s'.chars
  want : got = want ∨ got <+: want ∧ s'.chars = s'.file ∧ Stop s s'

/-! ## Refilling -/

/-- What refilling does, for a stream whose current buffer is used up. -/
structure Refilled (s : File) (ok : Bool) (s' : File) : Prop where
  inv : Inv s'
  later : Later s s'
  chars : s'.chars = s.chars
  more : ok = true → 0 < s'.r
  stop : ok = false → s'.chars = s'.file ∧ Stop s s' ∧ Inv { s' with seof := true }

theorem chars_of_empty (hub : s.ub = none) (hr : s.r = 0) : s.chars = s.file := by
  rw [chars, saved, if_pos hub, hr, List.take_zero, List.nil_append, List.nil_append]

/-- A buffer that is used up may be that of a stream at its end. -/
theorem Inv.at_end (hsrd : s.srd = true) (hub : s.ub = none) (hp : s.p = 0) (hr : s.r = 0) :
    Inv { s with seof := true } where
  mode := .inl hsrd
  normal _ := by
    show s.p + s.r ≤ s.buffer.length
    omega
  pushed b hb := absurd (hub.symm.trans hb) (by simp)
  ended _ := ⟨fun _ => ⟨hp, hr⟩, fun h => absurd hub h⟩

theorem chars_congr (hub : s.ub = none) (hr : s.r = 0) (hub' : s'.ub = none) (hr' : s'.r = 0)
    (hfile : s'.file = s.file) : s'.chars = s.chars := by
  rw [chars_of_empty hub hr, chars_of_empty hub' hr', hfile]

theorem sread_spec (hub : s.ub = none) (hr : s.r = 0) (hsrd : s.srd = true)
    (hseof : s.seof = false) : Refilled s s.sread.1 s.sread.2 := by
  rw [sread]
  cases hread : s.reads s.next with
  | none =>
    refine ⟨⟨.inl hsrd, fun _ => ?_, fun b hb => ?_, fun hs => ?_⟩,
      ⟨Nat.le_succ _, Nat.le_refl _, id, .inl⟩, ?_, fun h => absurd h (by simp), fun _ => ?_⟩
    · exact Nat.zero_le _
    · exact absurd (hub.symm.trans hb) (by simp)
    · exact absurd (hseof.symm.trans hs) (by simp)
    · exact chars_congr hub hr hub rfl rfl
    · refine ⟨chars_of_empty hub rfl, .inr (.inl (Nat.lt_succ_self _)), .at_end hsrd hub rfl rfl⟩
  | some k =>
    dsimp only
    split
    · rename_i hzero
      have hle : s.zeros ≤ if s.file = [] then s.zeros else s.zeros + 1 := by split <;> omega
      have hend : s.zeros < (if s.file = [] then s.zeros else s.zeros + 1) ∨ s.file = [] := by
        by_cases hf : s.file = []
        · exact .inr hf
        · rw [if_neg hf]
          exact .inl (Nat.lt_succ_self _)
      refine ⟨⟨.inl hsrd, fun _ => Nat.zero_le _, fun b hb => ?_,
          fun _ => ⟨fun _ => ⟨rfl, rfl⟩, ?_⟩⟩,
        ⟨Nat.le_refl _, hle, id, fun _ => .inr hend⟩, ?_, fun h => absurd h (by simp), fun _ => ?_⟩
      · exact absurd (hub.symm.trans hb) (by simp)
      · exact fun h => absurd hub h
      · exact chars_congr hub hr hub rfl rfl
      · exact ⟨chars_of_empty hub rfl, .inr (.inr hend), .at_end hsrd hub rfl rfl⟩
    · rename_i hpos
      generalize hn : min k (min s.buffer.length s.file.length) = n at hpos
      have hlen : (s.file.take n ++ s.buffer.drop n).length = s.buffer.length := by
        rw [List.length_append, List.length_take, List.length_drop]
        omega
      refine ⟨⟨.inl hsrd, fun _ => ?_, fun b hb => ?_, fun hs => ?_⟩,
        ⟨Nat.le_refl _, Nat.le_refl _, fun hf => ?_, .inl⟩, ?_, fun _ => ?_,
        fun h => absurd h (by simp)⟩
      · show 0 + n ≤ (s.file.take n ++ s.buffer.drop n).length
        omega
      · exact absurd (hub.symm.trans hb) (by simp)
      · exact absurd (hseof.symm.trans hs) (by simp)
      · show s.file.drop n = []
        rw [hf, List.drop_nil]
      · rw [chars_of_empty hub hr]
        rw [chars, saved, if_pos hub, current]
        simp only [hub, Option.getD_none]
        show ((s.file.take n ++ s.buffer.drop n).drop 0).take n ++ ([] ++ s.file.drop n) = s.file
        have hlt : (s.file.take n).length = n := by
          rw [List.length_take]
          omega
        rw [List.drop_zero, List.take_left' hlt, List.nil_append, List.take_append_drop]
      · exact Nat.pos_of_ne_zero hpos

theorem fill_spec (hub : s.ub = none) (hr : s.r = 0) (hsrd : s.srd = true)
    (hseof : s.seof = false) : Refilled s s.fill.1 s.fill.2 := by
  rw [fill]
  split
  · have h := @sread_spec s.smakebuf hub hr hsrd hseof
    refine ⟨h.inv, ⟨h.later.errors, h.later.zeros, h.later.file, h.later.seof⟩, ?_, h.more, h.stop⟩
    exact h.chars.trans (chars_congr hub hr hub hr rfl)
  · exact sread_spec hub hr hsrd hseof

/-- Refilling a stream whose current buffer is used up. -/
theorem srefill_spec (h : Inv s) (hr : s.r = 0) : Refilled s s.srefill.1 s.srefill.2 := by
  have hreset : { s with r := 0 } = s := by rw [← hr]
  rw [srefill, hreset]
  dsimp only
  by_cases hseof : s.seof = true
  · rw [if_pos hseof]
    refine ⟨h, Later.refl s, rfl, fun hf => absurd hf (by simp),
      fun _ => ⟨?_, .inl hseof, by rw [← hseof]; exact h⟩⟩
    obtain ⟨-, hpushed⟩ := h.ended hseof
    rw [chars, hr, List.take_zero, List.nil_append, saved]
    split
    · rfl
    · rename_i hub
      rw [hpushed hub, List.take_zero, List.nil_append]
  · rw [if_neg hseof]
    have hfalse : s.seof = false := by simpa using hseof
    by_cases hsrd : s.srd = true
    · rw [if_neg (by simp [hsrd])]
      by_cases hub : s.ub = none
      · rw [if_neg (by simpa using hub)]
        exact fill_spec hub hr hsrd hfalse
      · rw [if_pos hub]
        obtain ⟨b, hb⟩ := Option.ne_none_iff_exists'.1 hub
        obtain ⟨-, -, hle⟩ := h.pushed b hb
        have hchars : s.chars = (s.buffer.drop s.up).take s.ur ++ s.file := by
          rw [chars, hr, List.take_zero, List.nil_append, saved, if_neg hub]
        by_cases hur : s.ur = 0
        · rw [if_neg (by simpa using hur)]
          have hfill := @fill_spec { s with ub := none, r := s.ur } rfl hur hsrd hfalse
          refine ⟨hfill.inv, ⟨hfill.later.errors, hfill.later.zeros, hfill.later.file,
            hfill.later.seof⟩, ?_, hfill.more, hfill.stop⟩
          rw [hfill.chars, chars_of_empty rfl hur, hchars, hur, List.take_zero, List.nil_append]
        · rw [if_pos hur]
          refine ⟨⟨.inl hsrd, fun _ => hle, fun b hb => absurd hb (by simp), fun hs => ?_⟩,
            ⟨Nat.le_refl _, Nat.le_refl _, id, .inl⟩, ?_, fun _ => Nat.pos_of_ne_zero hur,
            fun hf => absurd hf (by simp)⟩
          · exact absurd hs hseof
          · rw [hchars]
            rfl
    · obtain hsrd' | ⟨hsrw, -, hub⟩ := h.mode
      · exact absurd hsrd' hsrd
      · have hsrd' : s.srd = false := by simpa using hsrd
        rw [if_pos (by simp [hsrd']), if_neg (by simp [hsrw])]
        have hfill := @fill_spec { s with srd := true } hub hr rfl hfalse
        exact ⟨hfill.inv, ⟨hfill.later.errors, hfill.later.zeros, hfill.later.file,
          hfill.later.seof⟩, hfill.chars, hfill.more, hfill.stop⟩

/-! ## Characters and items -/

theorem Inv.take1 (h : Inv s) (hr : 0 < s.r) :
    ∃ c, s.take1 = some (some c, s.advance 1) ∧ s.chars = c :: (s.advance 1).chars := by
  obtain ⟨bytes, hcopy, hlen, hchars⟩ := h.copy (n := 1) hr
  obtain ⟨c, rfl⟩ := List.length_eq_one_iff.1 hlen
  refine ⟨c, ?_, hchars⟩
  have hle := h.le_current
  rw [File.copy, if_pos (by omega), Option.some.injEq] at hcopy
  rw [File.take1, List.getElem?_eq_getElem (by omega), Option.map_some]
  rw [List.drop_eq_getElem_cons (by omega), List.take_succ_cons, List.take_zero,
    List.cons.injEq] at hcopy
  rw [hcopy.1]

theorem Delivered.append {want got bytes : List UInt8} (h : Delivered s' want got s'')
    (hlater : Later s s') (hchars : s.chars = bytes ++ s'.chars) :
    Delivered s (bytes ++ want) (bytes ++ got) s'' where
  inv := h.inv
  later := hlater.trans h.later
  chars := by rw [hchars, h.chars, List.append_assoc]
  want := by
    obtain rfl | ⟨hpre, hfile, hstop⟩ := h.want
    · exact .inl rfl
    · exact .inr ⟨(List.prefix_append_right_inj _).2 hpre, hfile,
        hstop.of_later hlater h.later⟩

theorem Later.advance (s : File) (n : Nat) : Later s (s.advance n) :=
  ⟨Nat.le_refl _, Nat.le_refl _, id, .inl⟩

/-- `getc`; at `EOF` the flag is set on the stream `s'`. -/
theorem fgetc_spec (h : Inv s) :
    (∃ c s', s.fgetc = some (some c, s') ∧ Delivered s (s.chars.take 1) [c] s') ∨
    ∃ s', s.fgetc = some (none, { s' with seof := true }) ∧
      Delivered s (s.chars.take 1) [] s' ∧ s'.chars = s'.file ∧ Stop s s' ∧
      Inv { s' with seof := true } := by
  rw [fgetc]
  by_cases hr : s.r = 0
  · rw [if_pos hr]
    have hfill := srefill_spec h hr
    cases hs : s.srefill with
    | mk ok s₁ =>
      rw [hs] at hfill
      cases ok with
      | true =>
        left
        obtain ⟨c, htake, hchars⟩ := hfill.inv.take1 (hfill.more rfl)
        rw [← hfill.chars, hchars]
        exact ⟨c, s₁.advance 1, htake, hfill.inv.advance (hfill.more rfl),
          hfill.later.trans (Later.advance _ _), by rw [← hfill.chars, hchars]; rfl, .inl rfl⟩
      | false =>
        right
        obtain ⟨hfile, hstop, hend⟩ := hfill.stop rfl
        exact ⟨s₁, rfl, ⟨hfill.inv, hfill.later, hfill.chars.symm,
          .inr ⟨List.nil_prefix, hfile, hstop⟩⟩, hfile, hstop, hend⟩
  · left
    rw [if_neg hr]
    obtain ⟨c, htake, hchars⟩ := h.take1 (Nat.pos_of_ne_zero hr)
    rw [hchars]
    exact ⟨c, s.advance 1, htake, h.advance (Nat.pos_of_ne_zero hr), Later.advance _ _, hchars,
      .inl rfl⟩

theorem freadLoop_spec (fuel : Nat) : ∀ s len out, Inv s →
    len + (if s.r = 0 then 1 else 0) < fuel →
    ∃ got s', freadLoop fuel s len out = some (out ++ got, s') ∧
      Delivered s (s.chars.take len) got s' := by
  induction fuel with
  | zero => exact fun _ _ _ _ h => absurd h (Nat.not_lt_zero _)
  | succ fuel ih =>
    intro s len out h hfuel
    rw [freadLoop]
    by_cases hlt : s.r < len
    · obtain ⟨bytes, hcopy, hlen, hchars⟩ := h.copy (Nat.le_refl s.r)
      have hreset : { s with p := s.p + s.r }.srefill = (s.advance s.r).srefill := rfl
      have hfill := srefill_spec (h.advance (Nat.le_refl s.r)) (Nat.sub_self s.r)
      have htake : s.chars.take len = bytes ++ (s.advance s.r).chars.take (len - s.r) := by
        rw [hchars, List.take_append, List.take_of_length_le (by omega), hlen]
      rw [if_pos hlt, hcopy, hreset, htake]
      dsimp only
      cases hs : (s.advance s.r).srefill with
      | mk ok s₁ =>
        rw [hs] at hfill
        have hlater := (Later.advance s s.r).trans hfill.later
        have hchars₁ : s.chars = bytes ++ s₁.chars := by rw [hchars, hfill.chars]
        cases ok with
        | false =>
          obtain ⟨hfile, hstop, -⟩ := hfill.stop rfl
          exact ⟨bytes, s₁, rfl, hfill.inv, hlater, hchars₁,
            .inr ⟨List.prefix_append _ _, hfile, hstop⟩⟩
        | true =>
          have hpos : 0 < s₁.r := hfill.more rfl
          obtain ⟨got, s', hloop, hgot⟩ := ih s₁ (len - s.r) (out ++ bytes) hfill.inv (by
            rw [if_neg (by omega)]
            split at hfuel <;> omega)
          refine ⟨bytes ++ got, s', by rw [← List.append_assoc]; exact hloop, ?_⟩
          rw [← hfill.chars]
          exact hgot.append hlater hchars₁
    · obtain ⟨bytes, hcopy, hlen, hchars⟩ := h.copy (n := len) (by omega)
      rw [if_neg hlt, hcopy]
      refine ⟨bytes, s.advance len, rfl, h.advance (by omega), Later.advance _ _, hchars, .inl ?_⟩
      rw [hchars, List.take_left' hlen]

/-! ## Lines -/

/-- The first `n` characters, but none behind a newline. -/
def lineOf : Nat → List UInt8 → List UInt8
  | 0, _ => []
  | _, [] => []
  | n + 1, c :: cs => if c = 10 then [c] else c :: lineOf n cs

theorem lineOf_append {bytes : List UInt8} (hno : bytes.idxOf? 10 = none) (rest : List UInt8) :
    ∀ n, bytes.length ≤ n →
      lineOf n (bytes ++ rest) = bytes ++ lineOf (n - bytes.length) rest := by
  induction bytes with
  | nil => exact fun n _ => rfl
  | cons c cs ih =>
    intro n hn
    rw [List.idxOf?_cons] at hno
    split at hno
    · exact absurd hno (by simp)
    · rename_i hc
      obtain ⟨n, rfl⟩ := Nat.exists_eq_succ_of_ne_zero (Nat.ne_of_gt (Nat.lt_of_lt_of_le
        (Nat.succ_pos _) hn))
      rw [List.cons_append, lineOf, if_neg (by simpa using hc),
        ih (by simpa using hno) n (Nat.le_of_succ_le_succ hn), List.length_cons,
        Nat.succ_sub_succ, List.cons_append]

theorem lineOf_newline {bytes : List UInt8} (rest : List UInt8) :
    ∀ n i, bytes.idxOf? 10 = some i → bytes.length ≤ n →
      lineOf n (bytes ++ rest) = bytes.take (i + 1) := by
  induction bytes with
  | nil => exact fun _ _ h => absurd h (by simp)
  | cons c cs ih =>
    intro n i hi hn
    obtain ⟨n, rfl⟩ := Nat.exists_eq_succ_of_ne_zero (Nat.ne_of_gt (Nat.lt_of_lt_of_le
      (Nat.succ_pos _) hn))
    rw [List.idxOf?_cons] at hi
    rw [List.cons_append, lineOf]
    split at hi
    · rename_i hc
      obtain rfl : 0 = i := by simpa using hi
      rw [if_pos (by simpa using hc), List.take_succ_cons, List.take_zero]
    · rename_i hc
      obtain ⟨j, hj, rfl⟩ := Option.map_eq_some_iff.1 hi
      rw [if_neg (by simpa using hc), ih n j hj (Nat.le_of_succ_le_succ hn), List.take_succ_cons]

theorem lineOf_prefix (n : Nat) : ∀ cs, lineOf n cs <+: cs := by
  induction n with
  | zero => exact fun cs => List.nil_prefix
  | succ n ih =>
    intro cs
    cases cs with
    | nil => exact List.nil_prefix
    | cons c cs =>
      rw [lineOf]
      split
      · exact List.prefix_append [c] cs
      · exact (List.prefix_cons_inj c).2 (ih cs)

/-- A stream with something in its current buffer, after a refill when there was nothing. -/
theorem ready_spec (h : Inv s) :
    Refilled s (if s.r = 0 then s.srefill else (true, s)).1
      (if s.r = 0 then s.srefill else (true, s)).2 := by
  by_cases hr : s.r = 0
  · rw [if_pos hr]
    exact srefill_spec h hr
  · rw [if_neg hr]
    exact ⟨h, Later.refl s, rfl, fun _ => Nat.pos_of_ne_zero hr, fun hf => absurd hf (by simp)⟩

theorem fgetsLoop_spec (fuel : Nat) : ∀ s num out, Inv s → 0 < num → num ≤ fuel →
    ∃ got s', fgetsLoop fuel s num out = some (out ++ got, s') ∧
      Delivered s (lineOf num s.chars) got s' := by
  induction fuel with
  | zero => exact fun _ num _ _ hpos hle => absurd (Nat.lt_of_lt_of_le hpos hle) (by simp)
  | succ fuel ih =>
    intro s num out h hnum hfuel
    rw [fgetsLoop]
    have hready := ready_spec h
    cases hs : (if s.r = 0 then s.srefill else (true, s)) with
    | mk ok s₁ =>
      rw [hs] at hready
      cases ok with
      | false =>
        obtain ⟨hfile, hstop, -⟩ := hready.stop rfl
        exact ⟨[], s₁, by rw [List.append_nil], hready.inv, hready.later, hready.chars.symm,
          .inr ⟨List.nil_prefix, hfile, hstop⟩⟩
      | true =>
        have hr : 0 < s₁.r := hready.more rfl
        have hchars₀ : s₁.chars = s.chars := hready.chars
        have hinv : Inv s₁ := hready.inv
        obtain ⟨bytes, hcopy, hlen, hchars⟩ := hinv.copy (n := min s₁.r num) (Nat.min_le_left _ _)
        dsimp only at hcopy hchars ⊢
        rw [hcopy, ← hchars₀]
        dsimp only
        cases hidx : bytes.idxOf? 10 with
        | some i =>
          have hi : i < bytes.length := List.findIdx?_eq_some_iff_findIdx_eq.1 hidx |>.1
          obtain ⟨got, -, hgot, hfront⟩ := hinv.copy (n := i + 1) (by omega)
          have heq : got = bytes.take (i + 1) := by
            have htake := congrArg (List.take (i + 1)) (hchars.symm.trans hfront)
            rw [List.take_append_of_le_length (by omega), List.take_left' hgot] at htake
            exact htake.symm
          rw [heq] at hfront
          refine ⟨bytes.take (i + 1), s₁.advance (i + 1), rfl, hinv.advance (by omega),
            Later.trans hready.later (Later.advance _ _), hchars₀.symm.trans hfront, .inl ?_⟩
          rw [hchars, lineOf_newline _ _ _ hidx (by omega)]
        | none =>
          have hline := lineOf_append hidx (s₁.advance (min s₁.r num)).chars num (by omega)
          rw [hchars, hline]
          dsimp only
          have hadv := hinv.advance (n := min s₁.r num) (Nat.min_le_left _ _)
          have hlater : Later s (s₁.advance (min s₁.r num)) :=
            Later.trans hready.later (Later.advance _ _)
          have hfront := hchars₀.symm.trans hchars
          by_cases hlast : num = min s₁.r num
          · have hzero : num - bytes.length = 0 := by omega
            rw [if_pos hlast, hzero, lineOf, List.append_nil]
            exact ⟨bytes, _, rfl, hadv, hlater, hfront, .inl rfl⟩
          · rw [if_neg hlast]
            obtain ⟨got, s', hloop, hgot⟩ := ih (s₁.advance (min s₁.r num)) (num - min s₁.r num)
              (out ++ bytes) hadv (by omega) (by omega)
            rw [hlen]
            exact ⟨bytes ++ got, s', by rw [← List.append_assoc]; exact hloop,
              hgot.append hlater hfront⟩

/-! ## Pushing back -/

/-- A push puts the character in front. -/
structure Pushed (s : File) (uc : UInt8) (s' : File) : Prop where
  inv : Inv s'
  later : Later s s'
  chars : s'.chars = uc :: s.chars

theorem push_spec {b : List UInt8} (h : Inv s) (hub : s.ub = some b) (hp : 0 < s.p) (uc : UInt8) :
    Pushed s uc (s.push b uc) := by
  obtain ⟨hpos, hlen, hle⟩ := h.pushed b hub
  refine ⟨⟨?_, fun hn => absurd hn (by simp [push]), fun b' hb' => ?_, fun hs => ?_⟩,
    ⟨Nat.le_refl _, Nat.le_refl _, id, .inl⟩, ?_⟩
  · obtain hsrd | ⟨-, -, hnone⟩ := h.mode
    · exact .inl hsrd
    · exact absurd (hub.symm.trans hnone) (by simp)
  · obtain rfl : b.set (s.p - 1) uc = b' := by simpa [push] using hb'
    rw [List.length_set]
    exact ⟨hpos, by show s.p - 1 + (s.r + 1) = b.length; omega, hle⟩
  · exact ⟨fun hn => absurd hn (by simp [push]), fun _ => (h.ended hs).2 (by simp [hub])⟩
  · have hdrop : (b.set (s.p - 1) uc).drop (s.p - 1) = uc :: b.drop s.p := by
      rw [List.drop_eq_getElem_cons (by rw [List.length_set]; omega), List.getElem_set_self,
        List.drop_set_of_lt (by omega)]
      congr 2
      omega
    have hsaved : (s.push b uc).saved = s.saved := by
      rw [saved, saved, if_neg (by simp [push]), if_neg (by simp [hub])]
      rfl
    have hcur : (s.push b uc).current = b.set (s.p - 1) uc := rfl
    have hcur' : s.current = b := by rw [current, hub]; rfl
    rw [chars, chars, hsaved, hcur, hcur']
    show ((b.set (s.p - 1) uc).drop (s.p - 1)).take (s.r + 1) ++ (s.saved ++ s.file) = _
    rw [hdrop, List.take_succ_cons, List.cons_append]

/-- A larger push-back buffer has room in front. -/
theorem submore_spec {b : List UInt8} (h : Inv s) (hub : s.ub = some b) (hfull : b.length ≤ s.r) :
    Inv (s.submore b) ∧ (s.submore b).chars = s.chars ∧ 0 < (s.submore b).p ∧
      ∃ b', (s.submore b).ub = some b' := by
  obtain ⟨hpos, hlen, hle⟩ := h.pushed b hub
  have hsrd : s.srd = true := by
    obtain hsrd | ⟨-, -, hnone⟩ := h.mode
    · exact hsrd
    · exact absurd (hub.symm.trans hnone) (by simp)
  have hchars : s.chars = b ++ (s.saved ++ s.file) := by
    have hp : s.p = 0 := by omega
    rw [chars, current, hub, Option.getD_some, hp, List.drop_zero, List.take_of_length_le hfull]
  -- the bytes that are pushed back stand at the end of the new buffer
  have key : ∀ front : List UInt8, 0 < front.length →
      Inv { s with ub := some (front ++ b), p := front.length } ∧
        chars { s with ub := some (front ++ b), p := front.length } = s.chars := by
    intro front hfront
    refine ⟨⟨.inl hsrd, fun hn => absurd hn (by simp), fun b' hb' => ?_, fun hs => ?_⟩, ?_⟩
    · obtain rfl : front ++ b = b' := by simpa using hb'
      rw [List.length_append]
      exact ⟨by omega, by show front.length + s.r = _; omega, hle⟩
    · exact ⟨fun hn => absurd hn (by simp), fun _ => (h.ended hs).2 (by simp [hub])⟩
    · rw [hchars]
      show ((front ++ b).drop front.length).take s.r ++ ((if some (front ++ b) = none then [] else
        (s.buffer.drop s.up).take s.ur) ++ s.file) = _
      rw [List.drop_left, List.take_of_length_le hfull, saved, if_neg (by simp),
        if_neg (by simp [hub])]
  rw [submore]
  split
  · have hroom : 0 < BUFSIZ - UBUF_SIZE := by decide
    have hfront := key (List.replicate (BUFSIZ - UBUF_SIZE) 0)
      (by rw [List.length_replicate]; exact hroom)
    rw [List.length_replicate] at hfront
    exact ⟨hfront.1, hfront.2, hroom, _, rfl⟩
  · exact ⟨(key b hpos).1, (key b hpos).2, hpos, _, rfl⟩

theorem pushBack_spec (h : Inv s) (hsrd : s.srd = true) (uc : UInt8) (memory : Bool) :
    (∃ s', s.pushBack uc memory = some (true, s') ∧ Pushed s uc s') ∨
      (s.pushBack uc memory = some (false, s) ∧ memory = false) := by
  rw [pushBack]
  cases hub : s.ub with
  | some b =>
    obtain ⟨hpos, hlen, -⟩ := h.pushed b hub
    dsimp only
    by_cases hfull : b.length ≤ s.r
    · rw [if_pos hfull]
      cases memory with
      | false => exact .inr ⟨rfl, rfl⟩
      | true =>
        left
        obtain ⟨hinv, hchars, hp, b', hb'⟩ := submore_spec h hub hfull
        have hpush := push_spec hinv hb' hp uc
        have hgrown : Later s (s.submore b) := by
          rw [submore]
          split <;> exact ⟨Nat.le_refl _, Nat.le_refl _, id, .inl⟩
        rw [if_pos rfl, if_neg (by omega), hb']
        exact ⟨_, rfl, hpush.inv, hgrown.trans hpush.later, hpush.chars.trans (by rw [hchars])⟩
    · rw [if_neg hfull, if_neg (by omega)]
      exact .inl ⟨_, rfl, push_spec h hub (by omega) uc⟩
  | none =>
    left
    dsimp only
    have hle := h.normal hub
    have hchars : s.chars = (s.buffer.drop s.p).take s.r ++ s.file := by
      rw [chars, saved, if_pos hub, current, hub, Option.getD_none, List.nil_append]
    split
    · rename_i hback
      obtain ⟨-, hp, hbyte⟩ := hback
      refine ⟨_, rfl, ⟨.inl hsrd, fun _ => ?_, fun b hb => ?_, fun hs => ?_⟩,
        ⟨Nat.le_refl _, Nat.le_refl _, id, .inl⟩, ?_⟩
      · show s.p - 1 + (s.r + 1) ≤ s.buffer.length
        omega
      · exact absurd hb (by simp)
      · obtain ⟨hzero, -⟩ := (h.ended hs).1 hub
        omega
      · have hdrop : s.buffer.drop (s.p - 1) = uc :: s.buffer.drop s.p := by
          obtain ⟨hlt, hget⟩ := List.getElem?_eq_some_iff.1 hbyte
          rw [List.drop_eq_getElem_cons hlt, hget, Nat.sub_add_cancel hp]
        show (s.buffer.drop (s.p - 1)).take (s.r + 1) ++ ([] ++ s.file) = _
        rw [hdrop, List.take_succ_cons, hchars, List.nil_append, List.cons_append]
    · refine ⟨_, rfl, ⟨.inl hsrd, fun hn => absurd hn (by simp), fun b hb => ?_, fun hs => ?_⟩,
        ⟨Nat.le_refl _, Nat.le_refl _, id, .inl⟩, ?_⟩
      · obtain rfl : [0, 0, uc] = b := by simpa using hb
        exact ⟨by simp, rfl, hle⟩
      · exact ⟨fun hn => absurd hn (by simp), fun _ => ((h.ended hs).1 hub).2⟩
      · rw [hchars]
        rfl

theorem ungetc_spec (h : Inv s) (c : Int) (memory : Bool) :
    (∃ s', s.ungetc c memory = some (true, s') ∧ c ≠ -1 ∧ Pushed s (UInt8.ofInt c) s') ∨
      ∃ s', s.ungetc c memory = some (false, s') ∧ (c = -1 ∨ memory = false) ∧ Inv s' ∧
        Later s s' ∧ s'.chars = s.chars := by
  rw [ungetc]
  by_cases hc : c = -1
  · rw [if_pos hc]
    exact .inr ⟨s, rfl, .inl hc, h, Later.refl s, rfl⟩
  · rw [if_neg hc]
    by_cases hsrd : s.srd = true
    · rw [if_neg (by simp [hsrd])]
      obtain ⟨s', hpush, hspec⟩ | ⟨hfail, hmem⟩ := pushBack_spec h hsrd (UInt8.ofInt c) memory
      · exact .inl ⟨s', hpush, hc, hspec⟩
      · exact .inr ⟨s, hfail, .inr hmem, h, Later.refl s, rfl⟩
    · obtain hsrd' | ⟨hsrw, hr, hub⟩ := h.mode
      · exact absurd hsrd' hsrd
      · rw [if_pos (by simpa using hsrd), if_neg (by simp [hsrw])]
        have hinv : Inv { s with srd := true } := ⟨.inl rfl, h.normal, h.pushed, h.ended⟩
        obtain ⟨s', hpush, hspec⟩ | ⟨hfail, hmem⟩ :=
          pushBack_spec hinv rfl (UInt8.ofInt c) memory
        · exact .inl ⟨s', hpush, hc, hspec.inv, ⟨hspec.later.errors, hspec.later.zeros,
            hspec.later.file, hspec.later.seof⟩, hspec.chars⟩
        · exact .inr ⟨_, hfail, .inr hmem, hinv, ⟨Nat.le_refl _, Nat.le_refl _, id, .inl⟩, rfl⟩

end File

end Vmx.Stdio
