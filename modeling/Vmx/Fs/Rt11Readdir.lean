import Vmx.Fs.Rt11Name
import Vmx.Fs.Rt11Dir

/-!
# The name that `rt11VopReaddir` returns finds its entry

The text of the three words of an entry is looked up again: `nameR50_readdir_iff` says for
which words it is turned to the same words.  `readdir_found_iff` says when the entry itself is
found.
-/

namespace Vmx.Rt11

/-! ## Digits -/

/-- The three digits of a word. -/
def wordDigits (w : UInt16) : List Nat := [w.toNat / 50 / 50 % 50, w.toNat / 50 % 50, w.toNat % 50]

/-- The digits of a name are all in the table of characters; those of the name before the dot
are neither blanks nor dots up to one from which on all are blanks, and the type does not end
in a dot. -/
structure Name.Readable (name : Name) : Prop where
  defined : ∀ d ∈ wordDigits name.nm_name1 ++ wordDigits name.nm_name2 ++ wordDigits name.nm_type,
    d < 40
  base : ∃ k, (∀ d ∈ (wordDigits name.nm_name1 ++ wordDigits name.nm_name2).take k,
      d ≠ 0 ∧ d ≠ 28) ∧
    ∀ d ∈ (wordDigits name.nm_name1 ++ wordDigits name.nm_name2).drop k, d = 0
  type : (wordDigits name.nm_type).getLast? ≠ some 28

/-- A character of the array `rad50`, `EOS` included. -/
def InTable (c : Char) : Prop := c ∈ rad50 ∨ c = EOS

instance : DecidablePred InTable := fun c => inferInstanceAs (Decidable (c ∈ rad50 ∨ c = EOS))

theorem digit_of_table : ∀ i : Fin 41, ∀ c, rad50At i = some c → InTable c ∧ digit c = i := by
  intro i c hc
  have hall : ∀ i : Fin 41, (rad50At i).all fun c => InTable c ∧ digit c = i := by
    decide
  exact of_decide_eq_true ((Option.all_eq_true _ _).1 (hall i) c hc)

theorem rad50At_spec {i : Nat} {c : Char} (h : rad50At i = some c) : InTable c ∧ digit c = i := by
  have hlt : i < 41 := by
    obtain ⟨hlt, -⟩ := List.getElem?_eq_some_iff.1 h
    exact hlt
  exact digit_of_table ⟨i, hlt⟩ c h

theorem InTable.digit_inj {c d : Char} (hc : InTable c) (hd : InTable d)
    (h : digit c = digit d) : c = d := by
  have hread : ∀ c, InTable c → rad50At (digit c) = some c := by
    intro c hc
    rcases hc with hc | rfl
    · exact rad50At_digit hc
    · decide
  have heq := hread c hc
  rw [h, hread d hd] at heq
  exact (Option.some.inj heq).symm

theorem InTable.digit_eq_zero {c : Char} (hc : InTable c) : digit c = 0 ↔ c = ' ' := by
  constructor
  · intro h
    exact hc.digit_inj (Or.inl (by decide)) (h.trans digit_blank.symm)
  · rintro rfl
    exact digit_blank

theorem InTable.digit_eq_dot {c : Char} (hc : InTable c) : digit c = 28 ↔ c = '.' := by
  constructor
  · intro h
    exact hc.digit_inj (Or.inl (by decide)) (h.trans (by decide))
  · rintro rfl
    decide

theorem InTable.digit_lt_iff {c : Char} (hc : InTable c) : digit c < 40 ↔ c ≠ EOS := by
  constructor
  · rintro h rfl
    exact absurd h (by decide)
  · intro hne
    rcases hc with hc | rfl
    · exact digit_lt hc
    · exact absurd rfl hne

/-- The characters of a word are those of its digits. -/
theorem rt11fsR50in_spec {w : UInt16} {q : List Char} (h : rt11fsR50in w.toNat = some q) :
    ∃ a b c, q = [a, b, c] ∧ InTable a ∧ InTable b ∧ InTable c ∧
      wordDigits w = [digit a, digit b, digit c] ∧ w.toNat = r50Value a b c := by
  unfold rt11fsR50in at h
  split at h
  · next a b c ha hb hc =>
    have hw := w.toNat_lt
    obtain ⟨hta, hda⟩ := rad50At_spec ha
    obtain ⟨htb, hdb⟩ := rad50At_spec hb
    obtain ⟨htc, hdc⟩ := rad50At_spec hc
    refine ⟨a, b, c, (Option.some.inj h).symm, hta, htb, htc, ?_, ?_⟩
    · rw [wordDigits, hda, hdb, hdc]
    · rw [r50Value, hda, hdb, hdc]
      omega
  · cases h

/-- Digits below 40 have characters. -/
theorem rt11fsR50in_of_digits {w : UInt16} (h : ∀ d ∈ wordDigits w, d < 40) :
    ∃ q, rt11fsR50in w.toNat = some q := by
  unfold wordDigits at h
  obtain ⟨a, -, ha, -⟩ := digit_of_rad50At ⟨_, h _ (List.mem_cons_self)⟩
  obtain ⟨b, -, hb, -⟩ := digit_of_rad50At ⟨w.toNat / 50 % 50, h _ (by simp)⟩
  obtain ⟨c, -, hc, -⟩ := digit_of_rad50At ⟨w.toNat % 50, h _ (by simp)⟩
  dsimp only at ha hb hc
  exact ⟨[a, b, c], by rw [rt11fsR50in, ha, hb, hc]⟩

/-- A group whose digits are none above those of a word has that word if and only if it is the
group of the word. -/
theorem r50Word_eq_iff {w : UInt16} {a b c x y z : Char} (hw : w.toNat = r50Value a b c)
    (ha : InTable a) (hb : InTable b) (hc : InTable c) (hx : x ∈ rad50) (hy : y ∈ rad50)
    (hz : z ∈ rad50)
    (hle : List.Forall₂ (fun x c => digit x ≤ digit c) [x, y, z] [a, b, c]) :
    r50Word x y z = w ↔ [x, y, z] = [a, b, c] := by
  simp only [List.forall₂_cons, List.Forall₂.nil, and_true] at hle
  have hlt := w.toNat_lt
  have hval : (r50Word x y z).toNat = r50Value x y z := by
    rw [toNat_r50Word, Nat.mod_eq_of_lt]
    unfold r50Value at hw ⊢
    omega
  constructor
  · intro heq
    rw [heq, hw] at hval
    unfold r50Value at hval
    have hax : a = x := ha.digit_inj (Or.inl hx) (by omega)
    have hby : b = y := hb.digit_inj (Or.inl hy) (by omega)
    have hcz : c = z := hc.digit_inj (Or.inl hz) (by omega)
    rw [hax, hby, hcz]
  · intro heq
    simp only [List.cons.injEq, and_true] at heq
    obtain ⟨rfl, rfl, rfl⟩ := heq
    exact UInt16.toNat_inj.1 (hval.trans hw.symm)

/-! ## Padding -/

/-- A part of a string is padded to its length: no digit is greater. -/
theorem forall₂_rightpad {v t : List Char} {k : Nat} (h : v <+: t) (hk : t.length = k) :
    List.Forall₂ (fun x c => digit x ≤ digit c) (v.rightpad k ' ') t := by
  obtain ⟨r, rfl⟩ := h
  have hr : r.length = k - v.length := by
    rw [List.length_append] at hk
    omega
  unfold List.rightpad
  rw [← hr]
  clear hr hk
  induction v with
  | nil =>
    induction r with
    | nil => exact List.Forall₂.nil
    | cons c r ih =>
      exact List.Forall₂.cons (by rw [digit_blank]; exact Nat.zero_le _) ih
  | cons c v ih => exact List.Forall₂.cons (Nat.le_refl _) ih

/-- A part of a string is padded to the string when blanks follow it there. -/
theorem rightpad_eq_iff {v r : List Char} {k : Nat} (hk : (v ++ r).length = k) :
    v.rightpad k ' ' = v ++ r ↔ ∀ c ∈ r, c = ' ' := by
  have hr : r.length = k - v.length := by
    rw [List.length_append] at hk
    omega
  unfold List.rightpad
  rw [List.append_cancel_left_eq, ← hr, eq_comm, List.eq_replicate_iff]
  exact and_iff_right rfl

/-! ## The end of the name -/

/-- Only the last character is looked at. -/
theorem cancelSpaces_concat {pre : List Char} {c : Char} (h : EOS ∉ pre ++ [c]) :
    cancelSpaces (pre ++ [c]) = if c = ' ' ∨ c = '.' then pre else pre ++ [c] := by
  have hpre : EOS ∉ pre := fun hm => h (List.mem_append_left _ hm)
  have hc : c ≠ EOS := by
    rintro rfl
    exact h (by simp)
  have hlen : (pre ++ [c]).length - 1 = pre.length := by simp
  have hpos : (pre ++ [c]).length > 0 := by simp
  unfold cancelSpaces
  dsimp only
  rw [if_pos hpos, hlen, List.append_assoc, List.take_left, List.drop_left]
  by_cases hcancel : c = ' ' ∨ c = '.'
  · rw [if_pos hcancel]
    show cString (pre ++ cancelLoop (c :: [EOS])) = pre
    rw [cancelLoop, if_pos hcancel, cString_append hpre]
    simp [cString]
  · rw [if_neg hcancel]
    show cString (pre ++ cancelLoop (c :: [EOS])) = pre ++ [c]
    rw [cancelLoop, if_neg hcancel, cString_append hpre, cString_cons hc]
    simp [cString]

theorem cancelSpaces_isPrefix {cs : List Char} (h : EOS ∉ cs) : cancelSpaces cs <+: cs := by
  rcases List.eq_nil_or_concat cs with rfl | ⟨pre, c, rfl⟩
  · exact List.prefix_refl []
  · rw [List.concat_eq_append] at h ⊢
    rw [cancelSpaces_concat h]
    split
    · exact List.prefix_append pre [c]
    · exact List.prefix_refl _

/-- A character that neither ends a name nor is cancelled. -/
def Plain (c : Char) : Prop := c ≠ ' ' ∧ c ≠ '.' ∧ c ≠ EOS

instance (c : Char) : Decidable (Plain c) := inferInstanceAs (Decidable (_ ∧ _ ∧ _))

/-- The part before a dot is kept, and the rest loses its last character or not. -/
theorem cancelSpaces_append {u y : List Char} (hu : ∀ c ∈ u, Plain c)
    (hy : y = [] ∨ ∃ ext, y = '.' :: ext) (heos : EOS ∉ y) :
    ∃ rest, cancelSpaces (u ++ y) = u ++ rest ∧ (rest = [] ∨ ∃ ext, rest = '.' :: ext) ∧
      rest.drop 1 = cancelSpaces (y.drop 1) := by
  have hueos : EOS ∉ u := fun hm => (hu _ hm).2.2 rfl
  rcases hy with rfl | ⟨ext, rfl⟩
  · refine ⟨[], ?_, .inl rfl, rfl⟩
    rw [List.append_nil]
    rcases List.eq_nil_or_concat u with rfl | ⟨pre, c, rfl⟩
    · rfl
    · rw [List.concat_eq_append] at hueos hu ⊢
      have hc : Plain c := hu c (by simp)
      rw [cancelSpaces_concat hueos, if_neg (not_or.2 ⟨hc.1, hc.2.1⟩)]
  · have hall : EOS ∉ u ++ '.' :: ext := by
      rw [List.mem_append, not_or]
      exact ⟨hueos, heos⟩
    rcases List.eq_nil_or_concat ext with rfl | ⟨pre, c, rfl⟩
    · refine ⟨[], ?_, .inl rfl, rfl⟩
      rw [cancelSpaces_concat hall, if_pos (.inr rfl), List.append_nil]
    · rw [List.concat_eq_append] at hall heos ⊢
      have hext : EOS ∉ pre ++ [c] := fun hm => heos (List.mem_cons_of_mem _ hm)
      rw [← List.cons_append, ← List.append_assoc] at hall ⊢
      rw [cancelSpaces_concat hall, List.cons_append, List.drop_one, List.tail_cons,
        cancelSpaces_concat hext]
      by_cases hcancel : c = ' ' ∨ c = '.'
      · rw [if_pos hcancel, if_pos hcancel]
        exact ⟨'.' :: pre, rfl, .inr ⟨pre, rfl⟩, rfl⟩
      · rw [if_neg hcancel, if_neg hcancel, List.append_assoc]
        exact ⟨'.' :: (pre ++ [c]), rfl, .inr ⟨_, rfl⟩, rfl⟩

theorem cString_concat_eos (cs : List Char) : cString (cs ++ [EOS]) = cString cs := by
  induction cs with
  | nil => simp [cString]
  | cons c cs ih =>
    by_cases hc : c = EOS
    · simp [cString, hc]
    · rw [List.cons_append, cString_cons hc, cString_cons hc, ih]

theorem eos_not_mem_cString (cs : List Char) : EOS ∉ cString cs := by
  intro hm
  have hne := List.mem_takeWhile_imp hm
  simp at hne

theorem takeWhile_plain_pos {c : Char} (h : Plain c) (cs : List Char) :
    (c :: cs).takeWhile (fun c => Plain c) = c :: cs.takeWhile (fun c => Plain c) :=
  List.takeWhile_cons_of_pos (by simpa using h)

theorem takeWhile_plain_neg {c : Char} (h : ¬ Plain c) (cs : List Char) :
    (c :: cs).takeWhile (fun c => Plain c) = [] :=
  List.takeWhile_cons_of_neg (by simpa using h)

/-- The text of two lists of characters, up to the first one that ends the name. -/
theorem cString_split (l t : List Char) :
    ∃ y, cString (l.takeWhile (· ≠ ' ') ++ '.' :: t) = l.takeWhile (fun c => Plain c) ++ y ∧
      (y = [] ∨ ∃ ext, y = '.' :: ext) ∧
      ((∀ c ∈ l.dropWhile (fun c => Plain c), c = ' ') → y.drop 1 = cString t) := by
  induction l with
  | nil =>
    refine ⟨'.' :: cString t, ?_, .inr ⟨_, rfl⟩, fun _ => rfl⟩
    exact cString_cons (by decide)
  | cons c l ih =>
    by_cases hplain : Plain c
    · obtain ⟨y, hy, hdot, hrest⟩ := ih
      refine ⟨y, ?_, hdot, ?_⟩
      · rw [takeWhile_plain_pos hplain, List.takeWhile_cons_of_pos (by simpa using hplain.1),
          List.cons_append, cString_cons hplain.2.2, hy]
        rfl
      · rw [List.dropWhile_cons_of_pos (by simpa using hplain)]
        exact hrest
    · rw [takeWhile_plain_neg hplain, List.dropWhile_cons_of_neg (by simp [hplain])]
      simp only [List.nil_append]
      by_cases hblank : c = ' '
      · subst hblank
        exact ⟨'.' :: cString t, takeWhile_blank_cString, .inr ⟨_, rfl⟩, fun _ => rfl⟩
      · rw [List.takeWhile_cons_of_pos (by simpa using hblank), List.cons_append]
        by_cases hdot : c = '.'
        · subst hdot
          refine ⟨_, cString_cons (by decide), .inr ⟨_, rfl⟩, fun hall => ?_⟩
          exact absurd (hall '.' (by simp)) (by decide)
        · have heos : c = EOS := by
            by_contra hne
            exact hplain ⟨hblank, hdot, hne⟩
          subst heos
          refine ⟨[], by simp [cString], .inl rfl, fun hall => ?_⟩
          exact absurd (hall EOS (by simp)) (by decide)

/-! ## The words of the name -/

theorem toLower_rad50 : ∀ c ∈ rad50, c.toLower = c :=
  List.all_iff_forall_prop.1 (by decide)

theorem slash_not_mem_rad50 : ∀ c ∈ rad50, ¬ (c = '/' ∨ c = '\\') :=
  List.all_iff_forall_prop.1 (by decide)

/-- The type, without its last character when that is a blank or a dot, is padded to itself. -/
theorem rightpad_cancelSpaces_iff {t : List Char} (ht : t.length = 3) :
    (cancelSpaces (cString t)).rightpad 3 ' ' = t ↔ EOS ∉ t ∧ t.getLast? ≠ some '.' := by
  have hcut : cString t <+: t := List.takeWhile_prefix _
  have hpre := (cancelSpaces_isPrefix (eos_not_mem_cString t)).trans hcut
  by_cases heos : EOS ∈ t
  · have hne : (cancelSpaces (cString t)).rightpad 3 ' ' ≠ t := by
      intro heq
      rw [← heq] at heos
      rcases List.mem_append.1 heos with hm | hm
      · exact eos_not_mem_cString t ((cancelSpaces_isPrefix (eos_not_mem_cString t)).subset hm)
      · exact absurd (List.eq_of_mem_replicate hm) (by decide)
    exact iff_of_false hne fun h => h.1 heos
  · have hwhole : cString t = t := by
      have happ := cString_append (r := []) heos
      simpa [cString] using happ
    rw [hwhole]
    rcases List.eq_nil_or_concat t with rfl | ⟨pre, c, rfl⟩
    · cases ht
    rw [List.concat_eq_append] at heos ht ⊢
    rw [cancelSpaces_concat heos, List.getLast?_append_of_ne_nil _ (by simp)]
    by_cases hcancel : c = ' ' ∨ c = '.'
    · rw [if_pos hcancel, rightpad_eq_iff ht]
      have hdot : c ≠ '.' ↔ c = ' ' := by
        constructor
        · exact fun hne => hcancel.resolve_right hne
        · rintro rfl
          decide
      simp [heos, ← hdot]
    · rw [if_neg hcancel]
      have hpad : (pre ++ [c]).rightpad 3 ' ' = pre ++ [c] := by simp [List.rightpad, ht]
      have hdot : c ≠ '.' := fun heq => hcancel (.inr heq)
      exact iff_of_true hpad ⟨heos, by simpa using hdot⟩

/-- The part before a dot is padded to the six characters of the name. -/
theorem rightpad_takeWhile_iff {l : List Char} (hl : l.length = 6) :
    (l.takeWhile (fun c => Plain c)).rightpad 6 ' ' = l ↔
      ∀ c ∈ l.dropWhile (fun c => Plain c), c = ' ' := by
  have hsplit := List.takeWhile_append_dropWhile (p := fun c => decide (Plain c)) (l := l)
  have hiff := rightpad_eq_iff (v := l.takeWhile fun c => Plain c)
    (r := l.dropWhile fun c => Plain c) (k := 6) (by rw [hsplit, hl])
  rwa [hsplit] at hiff

/-- Blanks follow the characters before the first blank or dot. -/
theorem dropWhile_blank_iff {l : List Char} (heos : EOS ∉ l) :
    (∀ c ∈ l.dropWhile (fun c => Plain c), c = ' ') ↔
      ∃ k, (∀ c ∈ l.take k, c ≠ ' ' ∧ c ≠ '.') ∧ ∀ c ∈ l.drop k, c = ' ' := by
  constructor
  · intro h
    have hsplit := List.takeWhile_append_dropWhile (p := fun c => decide (Plain c)) (l := l)
    have hplain : ∀ c ∈ l.takeWhile (fun c => Plain c), Plain c := by
      intro c hc
      simpa using List.mem_takeWhile_imp hc
    generalize l.takeWhile (fun c => Plain c) = u at hsplit hplain
    generalize l.dropWhile (fun c => Plain c) = v at hsplit h
    subst hsplit
    refine ⟨u.length, ?_, ?_⟩
    · rw [List.take_left]
      exact fun c hc => ⟨(hplain c hc).1, (hplain c hc).2.1⟩
    · rwa [List.drop_left]
  · rintro ⟨k, hplain, hblank⟩
    have hpos : ∀ c ∈ l.take k, decide (Plain c) = true := by
      intro c hc
      have hne : c ≠ EOS := fun heq => heos (heq ▸ List.mem_of_mem_take hc)
      exact decide_eq_true ⟨(hplain c hc).1, (hplain c hc).2, hne⟩
    intro c hc
    apply hblank
    rw [← List.take_append_drop k l, List.dropWhile_append_of_pos hpos] at hc
    exact (List.dropWhile_suffix _).subset hc

/-- The string that `rt11VopReaddir` makes of six characters and three, looked up. -/
def lookedUp (l t : List Char) : List Char :=
  (cancelSpaces (cString (l.takeWhile (· ≠ ' ') ++ '.' :: t ++ [EOS]))).dropWhile
    fun c => c = '/' ∨ c = '\\'

/-- The string in two parts. -/
theorem lookedUp_split {l t : List Char} (hlt : ∀ c ∈ l ++ t, InTable c) :
    ∃ rest, lookedUp l t = l.takeWhile (fun c => Plain c) ++ rest ∧
      (rest = [] ∨ ∃ ext, rest = '.' :: ext) ∧
      (∀ c ∈ l.takeWhile (fun c => Plain c) ++ rest, c ∈ rad50) ∧
      (lookedUp l t).length ≤ l.length + t.length + 1 ∧
      ((∀ c ∈ l.dropWhile (fun c => Plain c), c = ' ') →
        rest.drop 1 = cancelSpaces (cString t)) := by
  obtain ⟨y, hy, hdot, hrest⟩ := cString_split l t
  have hplain : ∀ c ∈ l.takeWhile (fun c => Plain c), Plain c := by
    intro c hc
    simpa using List.mem_takeWhile_imp hc
  have heos : EOS ∉ l.takeWhile (fun c => Plain c) ++ y := hy ▸ eos_not_mem_cString _
  obtain ⟨rest, hcancel, hdot', hdrop⟩ := cancelSpaces_append hplain hdot
    fun hm => heos (List.mem_append_right _ hm)
  have hpre : l.takeWhile (fun c => Plain c) ++ rest <+: l.takeWhile (· ≠ ' ') ++ '.' :: t := by
    rw [← hcancel, ← hy]
    exact (cancelSpaces_isPrefix (eos_not_mem_cString _)).trans (List.takeWhile_prefix _)
  have hmem : ∀ c ∈ l.takeWhile (fun c => Plain c) ++ rest, c ∈ rad50 := by
    intro c hc
    have hne : c ≠ EOS := by
      rintro rfl
      rw [← hcancel] at hc
      exact heos ((cancelSpaces_isPrefix heos).subset hc)
    have htable : InTable c := by
      rcases List.mem_append.1 (hpre.subset hc) with hc | hc
      · exact hlt c (List.mem_append_left _ ((List.takeWhile_prefix _).subset hc))
      · rcases List.mem_cons.1 hc with rfl | hc
        · exact Or.inl (by decide)
        · exact hlt c (List.mem_append_right _ hc)
    exact htable.resolve_right hne
  have hlooked : lookedUp l t = l.takeWhile (fun c => Plain c) ++ rest := by
    rw [lookedUp, cString_concat_eos, hy, hcancel]
    cases hstring : l.takeWhile (fun c => Plain c) ++ rest with
    | nil => rfl
    | cons c cs =>
      have hc : c ∈ rad50 := hmem c (by rw [hstring]; exact List.mem_cons_self)
      exact List.dropWhile_cons_of_neg (by simpa using slash_not_mem_rad50 c hc)
  refine ⟨rest, hlooked, hdot', hmem, ?_, fun hblank => hdrop.trans (by rw [hrest hblank])⟩
  have hlen := hpre.length_le
  have hle := (List.takeWhile_prefix (fun c => decide (c ≠ ' ')) (l := l)).length_le
  rw [hlooked]
  simp only [List.length_append, List.length_cons] at hlen ⊢
  omega

/-- The words of the string are those of the entry if its name can be read. -/
theorem nameR50_lookedUp_iff {w1 w2 w3 : UInt16} {a b c d e f g h i : Char}
    (hlt : ∀ x ∈ [a, b, c, d, e, f] ++ [g, h, i], InTable x) (h1 : w1.toNat = r50Value a b c)
    (h2 : w2.toNat = r50Value d e f) (h3 : w3.toNat = r50Value g h i) :
    rt11fsNameR50 (lookedUp [a, b, c, d, e, f] [g, h, i]) =
        some { nm_name1 := w1, nm_name2 := w2, nm_type := w3 } ↔
      (∀ x ∈ [a, b, c, d, e, f].dropWhile (fun x => Plain x), x = ' ') ∧
        EOS ∉ [g, h, i] ∧ [g, h, i].getLast? ≠ some '.' := by
  obtain ⟨rest, hlooked, hdot, hmem, hlen, hrest⟩ := lookedUp_split hlt
  have hpre := List.takeWhile_prefix (fun x => decide (Plain x)) (l := [a, b, c, d, e, f])
  have hpad := forall₂_rightpad (k := 6) hpre rfl
  have hpad6 := rightpad_takeWhile_iff (l := [a, b, c, d, e, f]) rfl
  have hplain : '.' ∉ [a, b, c, d, e, f].takeWhile (fun x => Plain x) := by
    intro hm
    have hp := List.mem_takeWhile_imp hm
    simp [Plain] at hp
  have hle := hpre.length_le
  generalize [a, b, c, d, e, f].takeWhile (fun x => Plain x) = u at *
  have hlow : ∀ cs : List Char, (∀ x ∈ cs, x ∈ u ++ rest) → cs.map Char.toLower = cs := by
    intro cs hcs
    conv_rhs => rw [← List.map_id cs]
    exact List.map_congr_left fun x hx => toLower_rad50 x (hmem x (hcs x hx))
  rw [hlooked] at hlen ⊢
  obtain ⟨x0, x1, x2, x3, x4, x5, e0, e1, e2, hx, he, hmx, hme, hr⟩ :=
    nameR50_groups (fun x hx => by rw [toLower_rad50 x (hmem x hx)]; exact hmem x hx) hplain hle
      hdot hlen
  rw [hlow u fun x hx => List.mem_append_left _ hx] at hx
  rw [hlow _ fun x hx => List.mem_append_right _ (List.mem_of_mem_drop (List.mem_of_mem_take hx))]
    at he
  rw [hx] at hpad hpad6
  have hwords : r50Word x0 x1 x2 = w1 ∧ r50Word x3 x4 x5 = w2 ↔
      [x0, x1, x2, x3, x4, x5] = [a, b, c, d, e, f] := by
    simp only [List.forall₂_cons, List.Forall₂.nil, and_true] at hpad
    obtain ⟨g0, g1, g2, g3, g4, g5⟩ := hpad
    rw [r50Word_eq_iff h1 (hlt a (by simp)) (hlt b (by simp)) (hlt c (by simp)) (hmx x0 (by simp))
        (hmx x1 (by simp)) (hmx x2 (by simp)) (by simp [g0, g1, g2]),
      r50Word_eq_iff h2 (hlt d (by simp)) (hlt e (by simp)) (hlt f (by simp)) (hmx x3 (by simp))
        (hmx x4 (by simp)) (hmx x5 (by simp)) (by simp [g3, g4, g5])]
    simp [and_assoc]
  rw [hr, Option.some.injEq, Name.mk.injEq, ← and_assoc, hwords, hpad6]
  apply and_congr_right
  intro hblank
  have hcut : cancelSpaces (cString [g, h, i]) <+: [g, h, i] :=
    (cancelSpaces_isPrefix (eos_not_mem_cString _)).trans (List.takeWhile_prefix _)
  have hlen3 : (cancelSpaces (cString [g, h, i])).length ≤ 3 := hcut.length_le
  rw [hrest hblank, List.take_of_length_le hlen3] at he
  have hpad3 := forall₂_rightpad (k := 3) hcut rfl
  rw [he] at hpad3
  rw [r50Word_eq_iff h3 (hlt g (by simp)) (hlt h (by simp)) (hlt i (by simp)) (hme e0 (by simp))
    (hme e1 (by simp)) (hme e2 (by simp)) hpad3, ← he]
  exact rightpad_cancelSpaces_iff rfl

/-- The digits of a name and its characters. -/
theorem Name.readable_iff {name : Name} {a b c d e f g h i : Char}
    (hlt : ∀ x ∈ [a, b, c, d, e, f] ++ [g, h, i], InTable x)
    (h1 : wordDigits name.nm_name1 = [a, b, c].map digit)
    (h2 : wordDigits name.nm_name2 = [d, e, f].map digit)
    (h3 : wordDigits name.nm_type = [g, h, i].map digit) :
    name.Readable ↔ (∀ x ∈ [a, b, c, d, e, f].dropWhile (fun x => Plain x), x = ' ') ∧
      EOS ∉ [g, h, i] ∧ [g, h, i].getLast? ≠ some '.' := by
  have hdefined : (∀ n ∈ wordDigits name.nm_name1 ++ wordDigits name.nm_name2 ++
      wordDigits name.nm_type, n < 40) ↔ EOS ∉ [a, b, c, d, e, f] ++ [g, h, i] := by
    rw [h1, h2, h3, ← List.map_append, ← List.map_append, List.forall_mem_map]
    constructor
    · exact fun hall hm => absurd (hall _ hm) (by decide)
    · exact fun hnot x hx => (hlt x hx).digit_lt_iff.2 fun heq => hnot (heq ▸ hx)
  have hbase : (∃ k, (∀ n ∈ (wordDigits name.nm_name1 ++ wordDigits name.nm_name2).take k,
        n ≠ 0 ∧ n ≠ 28) ∧
      ∀ n ∈ (wordDigits name.nm_name1 ++ wordDigits name.nm_name2).drop k, n = 0) ↔
      ∃ k, (∀ x ∈ [a, b, c, d, e, f].take k, x ≠ ' ' ∧ x ≠ '.') ∧
        ∀ x ∈ [a, b, c, d, e, f].drop k, x = ' ' := by
    rw [h1, h2, ← List.map_append]
    apply exists_congr
    intro k
    rw [← List.map_take, ← List.map_drop, List.forall_mem_map, List.forall_mem_map]
    have htable : ∀ x ∈ [a, b, c, d, e, f], InTable x := fun x hx =>
      hlt x (List.mem_append_left _ hx)
    apply and_congr
    · apply forall₂_congr
      intro x hx
      have hx := htable x (List.mem_of_mem_take hx)
      rw [Ne, Ne, hx.digit_eq_zero, hx.digit_eq_dot]
    · apply forall₂_congr
      intro x hx
      exact (htable x (List.mem_of_mem_drop hx)).digit_eq_zero
  have htype : (wordDigits name.nm_type).getLast? ≠ some 28 ↔
      [g, h, i].getLast? ≠ some '.' := by
    have hi : InTable i := hlt i (by simp)
    rw [h3]
    simp [hi.digit_eq_dot]
  have hiff : name.Readable ↔ _ ∧ _ ∧ _ := ⟨fun r => ⟨r.1, r.2, r.3⟩, fun r => ⟨r.1, r.2.1, r.2.2⟩⟩
  rw [hiff, hdefined, hbase, htype, List.mem_append, not_or]
  constructor
  · rintro ⟨⟨hl, ht⟩, hk, hlast⟩
    exact ⟨(dropWhile_blank_iff hl).2 hk, ht, hlast⟩
  · rintro ⟨hblank, ht, hlast⟩
    have hl : EOS ∉ [a, b, c, d, e, f] := by
      intro hm
      have hsplit := List.takeWhile_append_dropWhile (p := fun x => decide (Plain x))
        (l := [a, b, c, d, e, f])
      rw [← hsplit, List.mem_append] at hm
      rcases hm with hm | hm
      · have hp := List.mem_takeWhile_imp hm
        simp [Plain] at hp
      · exact absurd (hblank _ hm) (by decide)
    exact ⟨⟨hl, ht⟩, (dropWhile_blank_iff hl).1 hblank, hlast⟩

/-- The name that `rt11VopReaddir` returns for a name on the disk is turned to its words. -/
theorem nameR50_readdir_iff (name : Name) :
    (∃ d_name, (rt11fsNameString name).map cancelSpaces = some d_name ∧
      rt11fsNameR50 (d_name.dropWhile fun c => c = '/' ∨ c = '\\') = some name) ↔
      name.Readable := by
  cases hstring : rt11fsNameString name with
  | none =>
    refine iff_of_false (by simp) fun hread => ?_
    obtain ⟨q1, h1⟩ := rt11fsR50in_of_digits (w := name.nm_name1) fun d hd =>
      hread.defined d (by simp [hd])
    obtain ⟨q2, h2⟩ := rt11fsR50in_of_digits (w := name.nm_name2) fun d hd =>
      hread.defined d (by simp [hd])
    obtain ⟨q3, h3⟩ := rt11fsR50in_of_digits (w := name.nm_type) fun d hd =>
      hread.defined d (by simp [hd])
    rw [rt11fsNameString, h1, h2, h3] at hstring
    cases hstring
  | some string =>
    obtain ⟨q1, q2, q3, h1, h2, h3, rfl⟩ := nameString_eq hstring
    obtain ⟨a, b, c, rfl, ha, hb, hc, hw1, hv1⟩ := rt11fsR50in_spec h1
    obtain ⟨d, e, f, rfl, hd, he, hf, hw2, hv2⟩ := rt11fsR50in_spec h2
    obtain ⟨g, h, i, rfl, hg, hh, hi, hw3, hv3⟩ := rt11fsR50in_spec h3
    have hlt : ∀ x ∈ [a, b, c, d, e, f] ++ [g, h, i], InTable x := by
      simp [ha, hb, hc, hd, he, hf, hg, hh, hi]
    rw [Name.readable_iff hlt hw1 hw2 hw3, ← nameR50_lookedUp_iff hlt hv1 hv2 hv3]
    simp [lookedUp]

/-! ## Lookup -/

variable {es : Nat → DirEntry} {seg : DirSeg} {l : List DirEntry}

/-- `rt11fsFindDirEntry` meets an entry with the name. -/
def Meets (name : Name) (e : DirEntry) : Prop :=
  (e.de_status = DES_PERMANENT ∨ e.de_status = DES_TENTATIVE) ∧ e.de_name = name

/-- The entry that is found is the one at its number. -/
theorem findDirLoop_entry {name : Name} {fuel i k : Nat} {start st : Int} {e : DirEntry}
    (h : findDirLoop es name fuel i start = some (some (k, e, st))) : e = es k := by
  induction fuel generalizing i start with
  | zero => cases h
  | succ fuel ih =>
    rw [findDirLoop] at h
    split at h
    · cases h
    split at h
    · obtain ⟨rfl, hpair⟩ := Prod.mk.inj (Option.some.inj (Option.some.inj h))
      exact (Prod.mk.inj hpair).1.symm
    · exact ih h

/-- The first entry with the name is found. -/
theorem findDirLoop_iff {name : Name} {fuel i k : Nat} {start : Int} (h : DirAt es i l)
    (hfuel : l.length < fuel) (hik : i ≤ k) (hk : k < i + l.length) :
    (∃ e st, findDirLoop es name fuel i start = some (some (k, e, st))) ↔
      Meets name (es k) ∧ ∀ j, i ≤ j → j < k → ¬ Meets name (es j) := by
  induction l generalizing fuel i start with
  | nil =>
    rw [List.length_nil] at hk
    omega
  | cons e l ih =>
    obtain ⟨rfl, hne, hl⟩ := h
    rw [List.length_cons] at hfuel hk
    obtain ⟨fuel, rfl⟩ : ∃ m, fuel = m + 1 := ⟨fuel - 1, by omega⟩
    rw [findDirLoop, if_neg hne]
    by_cases hmeets : Meets name (es i)
    · have hpos : ((es i).de_status = DES_PERMANENT ∨ (es i).de_status = DES_TENTATIVE) ∧
          (es i).de_name = name := hmeets
      rw [if_pos hpos]
      constructor
      · rintro ⟨e, st, heq⟩
        obtain ⟨rfl, -⟩ := Prod.mk.inj (Option.some.inj (Option.some.inj heq))
        exact ⟨hmeets, fun j hij hji => by omega⟩
      · rintro ⟨-, hfirst⟩
        have hki : i = k := by
          by_contra hne
          exact hfirst i (Nat.le_refl i) (by omega) hmeets
        subst hki
        exact ⟨_, _, rfl⟩
    · have hneg : ¬ (((es i).de_status = DES_PERMANENT ∨ (es i).de_status = DES_TENTATIVE) ∧
          (es i).de_name = name) := hmeets
      rw [if_neg hneg]
      by_cases hki : k = i
      · subst hki
        refine iff_of_false ?_ fun hspec => hmeets hspec.1
        rintro ⟨e, st, hfound⟩
        obtain ⟨r, hr, hspec⟩ := @findDirLoop_spec es l name fuel (k + 1) (start + (es k).blocks) hl
          (Nat.lt_of_succ_lt_succ hfuel)
        rw [hr] at hfound
        obtain ⟨pre, post, -, hpos, -⟩ := hspec k e st (Option.some.inj hfound)
        omega
      · rw [ih hl (Nat.lt_of_succ_lt_succ hfuel) (by omega) (by omega)]
        apply and_congr_right
        intro _
        constructor
        · intro hall j hij hjk
          by_cases hji : j = i
          · exact hji ▸ hmeets
          · exact hall j (by omega) hjk
        · exact fun hall j hij hjk => hall j (by omega) hjk

/-- The places in a directory at which a listing can go on. -/
inductive DirPos (seg : DirSeg) (rdd_maxEntries : Nat) : Nat → Prop
  | start : DirPos seg rdd_maxEntries 0
  | next {entryNum k : Nat} {d : Option (List Char)} (h : DirPos seg rdd_maxEntries entryNum)
      (hread : rt11VopReaddir seg rdd_maxEntries entryNum = some (k, d)) :
      DirPos seg rdd_maxEntries (k + 1)

theorem readdirLoop_lt {left i k : Nat} (h : DirAt es i l)
    (hr : readdirLoop es left i = some k) : i ≤ k ∧ k < i + l.length := by
  induction left generalizing i l with
  | zero => cases hr
  | succ left ih =>
    rw [readdirLoop] at hr
    cases l with
    | nil =>
      have hend : (es i).de_status = DES_END := h
      rw [if_pos hend] at hr
      cases hr
    | cons e l =>
      obtain ⟨rfl, hne, hl⟩ := h
      rw [if_neg hne] at hr
      rw [List.length_cons]
      split at hr
      · have hlt := ih hl hr
        omega
      · cases hr
        omega

theorem DirAt.drop_of_le {n : Nat} (h : DirAt es 0 l) (hle : n ≤ l.length) :
    DirAt es n (l.drop n) := by
  rw [← List.take_append_drop n l] at h
  have hdrop := h.drop
  rwa [List.length_take_of_le hle, Nat.zero_add] at hdrop

/-- The next entry that is listed is one of the directory. -/
theorem rt11VopReaddir_lt {rdd_maxEntries entryNum k : Nat} {d : Option (List Char)}
    (hdir : DirAt seg.ds_entries 0 l) (hle : entryNum ≤ l.length)
    (hread : rt11VopReaddir seg rdd_maxEntries entryNum = some (k, d)) : k < l.length := by
  obtain ⟨k', hk, heq⟩ := Option.map_eq_some_iff.1 hread
  obtain ⟨rfl, -⟩ := Prod.mk.inj heq
  have hlt := readdirLoop_lt (hdir.drop_of_le hle) hk
  rw [List.length_drop] at hlt
  omega

theorem DirPos.le {rdd_maxEntries entryNum : Nat} (h : DirPos seg rdd_maxEntries entryNum)
    (hdir : DirAt seg.ds_entries 0 l) : entryNum ≤ l.length := by
  induction h with
  | start => exact Nat.zero_le _
  | next _ hread ih => exact rt11VopReaddir_lt hdir ih hread

/-- `rt11VopLookup` opens an entry by its name as a string: it refuses a tentative one. -/
def LookupFinds (fuel : Nat) (seg : DirSeg) (name : List Char) (k : Nat) : Prop :=
  ∃ e st, findDirEntryByString fuel seg name = some (some (k, e, st)) ∧
    e.de_status ≠ DES_TENTATIVE

/-- The entry whose name is listed is found by that name if it can be read, the entry is permanent
and no entry before it has the name. -/
theorem readdir_found_iff {rdd_maxEntries fuel entryNum k : Nat} {d : Option (List Char)}
    (hdir : DirAt seg.ds_entries 0 l) (hfuel : l.length < fuel)
    (hpos : DirPos seg rdd_maxEntries entryNum)
    (hread : rt11VopReaddir seg rdd_maxEntries entryNum = some (k, d)) :
    (∃ d_name, d = some d_name ∧ LookupFinds fuel seg d_name k) ↔
      (seg.ds_entries k).de_name.Readable ∧ (seg.ds_entries k).de_status = DES_PERMANENT ∧
        ∀ j < k, ¬ Meets (seg.ds_entries k).de_name (seg.ds_entries j) := by
  have hlt := rt11VopReaddir_lt hdir (hpos.le hdir) hread
  obtain ⟨k', -, heq⟩ := Option.map_eq_some_iff.1 hread
  obtain ⟨rfl, rfl⟩ := Prod.mk.inj heq
  have hfound := fun name => @findDirLoop_iff seg.ds_entries l name fuel 0 k' seg.ds_start hdir
    hfuel (Nat.zero_le k') (by omega)
  rw [← nameR50_readdir_iff]
  constructor
  · rintro ⟨d_name, hd, e, st, hlookup, hstatus⟩
    unfold findDirEntryByString at hlookup
    split at hlookup
    · cases hlookup
    next rname hname =>
      obtain ⟨hmeets, hfirst⟩ := (hfound rname).1 ⟨e, st, hlookup⟩
      obtain rfl := findDirLoop_entry hlookup
      obtain rfl := hmeets.2
      exact ⟨⟨d_name, hd, hname⟩, hmeets.1.resolve_right hstatus,
        fun j hj => hfirst j (Nat.zero_le j) hj⟩
  · rintro ⟨⟨d_name, hd, hname⟩, hstatus, hfirst⟩
    obtain ⟨e, st, hlookup⟩ := (hfound _).2 ⟨⟨.inl hstatus, rfl⟩, fun j _ hj => hfirst j hj⟩
    refine ⟨d_name, hd, e, st, ?_, ?_⟩
    · rw [findDirEntryByString, hname]
      exact hlookup
    · rw [findDirLoop_entry hlookup, hstatus]
      decide

/-! ## Names on the disk and as strings -/

/-- When a name is read back, when two names are told apart, and when a name that is listed
finds its entry. -/
theorem names_right_iff (n m : FileName) {rdd_maxEntries fuel entryNum k : Nat}
    {d : Option (List Char)} (hdir : DirAt seg.ds_entries 0 l) (hfuel : l.length < fuel)
    (hpos : DirPos seg rdd_maxEntries entryNum)
    (hread : rt11VopReaddir seg rdd_maxEntries entryNum = some (k, d)) :
    (n.RoundTrip ↔ n.Fits ∧ n.NoInnerBlank) ∧
    ((rt11fsNameR50 n.text = rt11fsNameR50 m.text →
      n.paddedBase = m.paddedBase ∧ n.paddedExt = m.paddedExt) ↔ ¬ n.Overlap m) ∧
    ((∃ d_name, d = some d_name ∧ LookupFinds fuel seg d_name k) ↔
      (seg.ds_entries k).de_name.Readable ∧ (seg.ds_entries k).de_status = DES_PERMANENT ∧
        ∀ j < k, ¬ Meets (seg.ds_entries k).de_name (seg.ds_entries j)) :=
  ⟨n.roundTrip_iff, n.nameR50_eq_iff m, readdir_found_iff hdir hfuel hpos hread⟩

/-- A name without a dot. -/
def plainName (base : List Char) (hlen : base.length ≤ 6) (hmem : ∀ c ∈ base, c ∈ alphabet)
    (hdot : '.' ∉ base) : FileName :=
  { base := base, ext := none, base_length := hlen, base_mem := hmem, base_dot := hdot
    ext_length := by simp, ext_mem := by simp }

def nameAb : FileName :=
  plainName ['A', 'b'] (by decide) (List.all_iff_forall_prop.1 (by decide)) (by decide)

def nameZoo : FileName :=
  plainName ['z', 'o', 'o'] (by decide) (List.all_iff_forall_prop.1 (by decide)) (by decide)

def nameOne : FileName :=
  plainName ['1'] (by decide) (List.all_iff_forall_prop.1 (by decide)) (by decide)

def nameD9n : FileName :=
  plainName ['d', '9', 'n'] (by decide) (List.all_iff_forall_prop.1 (by decide)) (by decide)

/-- A directory with one file. -/
def oneEntry (nm_name1 : UInt16) : DirSeg :=
  { ds_start := 8
    ds_entries := fun k =>
      { de_status := if k = 0 then DES_PERMANENT else DES_END
        de_name := { nm_name1 := nm_name1, nm_name2 := 0, nm_type := 0 }, de_nblocks := 4
        de_date := 0 } }

theorem oneEntry_dirAt (nm_name1 : UInt16) :
    DirAt (oneEntry nm_name1).ds_entries 0 [(oneEntry nm_name1).ds_entries 0] :=
  ⟨rfl, show DES_PERMANENT ≠ DES_END by decide, rfl⟩

theorem names_right_ab :
    nameAb.RoundTrip ∧ ¬ nameAb.Overlap nameOne ∧
      LookupFinds 2 (oneEntry 2600) ['a', 'b', '.', ' ', ' '] 0 := by
  have hfuel : [(oneEntry 2600).ds_entries 0].length < 2 := by decide
  have h := names_right_iff nameAb nameOne (oneEntry_dirAt 2600) hfuel
    (.start : DirPos (oneEntry 2600) 72 0) (k := 0) (d := some ['a', 'b', '.', ' ', ' '])
    (by decide)
  refine ⟨h.1.2 (by decide), h.2.1.1 fun heq => ?_, ?_⟩
  · exact absurd heq (by decide)
  · obtain ⟨d_name, hd, hfinds⟩ := h.2.2.2 ⟨⟨by decide, ⟨2, by decide⟩,
      by decide⟩, rfl, fun j hj => absurd hj (Nat.not_lt_zero j)⟩
    rwa [Option.some.inj hd]

/-- The number of `zoo` does not fit its word, and `1` and `d9n` have one word. -/
theorem not_names_right :
    ¬ nameZoo.RoundTrip ∧
    (rt11fsNameR50 nameOne.text = rt11fsNameR50 nameD9n.text ∧
      nameOne.paddedBase ≠ nameD9n.paddedBase) ∧
    (∃ nm_name1, rt11fsNameR50 nameZoo.text =
        some { nm_name1 := nm_name1, nm_name2 := 0, nm_type := 0 } ∧
      rt11VopReaddir (oneEntry nm_name1) 72 0 = some (0, some ['.', ' ', ' ']) ∧
      findDirEntryByString 2 (oneEntry nm_name1) ['.', ' ', ' '] = some none) := by
  refine ⟨fun h => ?_, ⟨by decide, by decide⟩, 229, by decide,
    by decide, by decide⟩
  obtain ⟨name, hname, hstring⟩ := h
  have hwords : rt11fsNameR50 nameZoo.text =
      some { nm_name1 := 229, nm_name2 := 0, nm_type := 0 } := by decide
  obtain rfl := Option.some.inj (hwords.symm.trans hname)
  exact absurd hstring (by decide)

end Vmx.Rt11
