import Vmx.Fs.Rt11NameLib
import Mathlib.Data.List.Nodup
import Mathlib.Data.Bool.AllAny

/-!
# Radix-50 names are read back, if they fit

A group of three characters has a number in base 50, and the word it is stored in has 16 bits:
`rt11fsR50in` gives the group back when the number fits and begins with another character when
it does not.  `roundTrip_iff` is about a whole name, which must also have no blank inside, and
`nameR50_eq_iff` about two names.
-/

namespace Vmx.Rt11

/-! ## Characters -/

/-- The characters of a file name. -/
def alphabet : List Char :=
  rad50.erase '\xff' ++ ['A', 'B', 'C', 'D', 'E', 'F', 'G', 'H', 'I', 'J', 'K', 'L', 'M', 'N', 'O',
    'P', 'Q', 'R', 'S', 'T', 'U', 'V', 'W', 'X', 'Y', 'Z']

/-- The digit of a character. -/
def digit (c : Char) : Nat := rad50.idxOf c

theorem toLower_mem_rad50 : ∀ c ∈ alphabet, c.toLower ∈ rad50 :=
  List.all_iff_forall_prop.1 (by decide)

theorem toLower_ne_dot : ∀ c ∈ alphabet, c ≠ '.' → c.toLower ≠ '.' :=
  List.all_iff_forall_prop.1 (by decide)

theorem digit_lt {c : Char} (h : c ∈ rad50) : digit c < 40 := List.idxOf_lt_length_of_mem h

theorem idxOf?_rad50 {c : Char} (h : c ∈ rad50) : rad50.idxOf? c = some (digit c) := by
  rw [List.idxOf?_eq_some_iff]
  have hlt : rad50.idxOf c < rad50.length := List.idxOf_lt_length_of_mem h
  refine ⟨hlt, List.getElem_idxOf hlt, fun j hj => ?_⟩
  have hne := List.not_of_lt_findIdx (p := (· == c)) hj
  simpa using hne

theorem rad50At_digit {c : Char} (h : c ∈ rad50) : rad50At (digit c) = some c := by
  have hlt : rad50.idxOf c < rad50.length := List.idxOf_lt_length_of_mem h
  rw [rad50At, digit, List.getElem?_append_left hlt, List.getElem?_eq_getElem hlt,
    List.getElem_idxOf hlt]

/-- An element of the table is at its digit only. -/
theorem digit_of_rad50At : ∀ i : Fin 40, ∃ c ∈ rad50, rad50At i = some c ∧ digit c = i := by
  have hall : ∀ i : Fin 40, rad50.any fun c => rad50At i = some c ∧ digit c = i := by
    decide
  exact fun i => List.any_iff_exists_prop.1 (hall i)

theorem digit_blank : digit ' ' = 0 := by decide

/-! ## Groups of three characters -/

/-- The number of a group. -/
def r50Value (a b c : Char) : Nat := 50 * (50 * digit a + digit b) + digit c

/-- The word of a group. -/
def r50Word (a b c : Char) : UInt16 := .ofNat (r50Value a b c)

theorem toNat_r50Word (a b c : Char) : (r50Word a b c).toNat = r50Value a b c % 65536 :=
  UInt16.toNat_ofNat'

variable {a b c : Char}

/-- A group that fits is read back. -/
theorem rt11fsR50in_of_lt (ha : a ∈ rad50) (hb : b ∈ rad50) (hc : c ∈ rad50)
    (h : r50Value a b c < 65536) : rt11fsR50in (r50Word a b c).toNat = some [a, b, c] := by
  have hla := digit_lt ha
  have hlb := digit_lt hb
  have hlc := digit_lt hc
  rw [toNat_r50Word, Nat.mod_eq_of_lt h]
  unfold r50Value
  have h1 : (50 * (50 * digit a + digit b) + digit c) / 50 / 50 % 50 = digit a := by omega
  have h2 : (50 * (50 * digit a + digit b) + digit c) / 50 % 50 = digit b := by omega
  have h3 : (50 * (50 * digit a + digit b) + digit c) % 50 = digit c := by omega
  rw [rt11fsR50in, h1, h2, h3, rad50At_digit ha, rad50At_digit hb, rad50At_digit hc]

/-- A group that does not fit begins with another character when it is read. -/
theorem rt11fsR50in_of_le (ha : a ∈ rad50) (hb : b ∈ rad50) (hc : c ∈ rad50)
    (h : 65536 ≤ r50Value a b c) {q : List Char}
    (hq : rt11fsR50in (r50Word a b c).toNat = some q) :
    ∃ a' b' c', q = [a', b', c'] ∧ a' ∈ rad50 ∧ a' ≠ a ∧ a ≠ ' ' := by
  have hla := digit_lt ha
  have hlb := digit_lt hb
  have hlc := digit_lt hc
  unfold r50Value at h
  have hword : (r50Word a b c).toNat = 50 * (50 * digit a + digit b) + digit c - 65536 := by
    rw [toNat_r50Word, r50Value]
    omega
  rw [hword, rt11fsR50in] at hq
  have hfirst : (50 * (50 * digit a + digit b) + digit c - 65536) / 50 / 50 % 50 < 40 := by omega
  obtain ⟨a', hmem, ha', hdigit⟩ := digit_of_rad50At ⟨_, hfirst⟩
  dsimp only at ha' hdigit
  rw [ha'] at hq
  split at hq
  · next b' c' h1 h2 h3 =>
    cases h1
    refine ⟨a', b', c', (Option.some.inj hq).symm, hmem, ?_, ?_⟩
    · rintro rfl
      omega
    · rintro rfl
      rw [digit_blank] at h
      omega
  · cases hq

/-- The first three characters of a string are converted. -/
theorem rt11fsR50out_eq {cs : List Char} (hlow : ∀ c ∈ cs, c.toLower ∈ rad50) :
    ∃ a b c, ((cs.take 3).map Char.toLower).rightpad 3 ' ' = [a, b, c] ∧ a ∈ rad50 ∧ b ∈ rad50 ∧
      c ∈ rad50 ∧ rt11fsR50out cs = some (r50Value a b c) := by
  have hblank : (' ' : Char) ∈ rad50 := by decide
  rcases cs with _ | ⟨a, _ | ⟨b, _ | ⟨c, cs⟩⟩⟩
  · refine ⟨' ', ' ', ' ', rfl, hblank, hblank, hblank, ?_⟩
    simp [rt11fsR50out, r50outLoop, r50Value, digit_blank]
  · have ha : a.toLower ∈ rad50 := hlow a (by simp)
    refine ⟨a.toLower, ' ', ' ', rfl, ha, hblank, hblank, ?_⟩
    simp [rt11fsR50out, r50outLoop, idxOf?_rad50 ha, r50Value, digit_blank]
  · have ha : a.toLower ∈ rad50 := hlow a (by simp)
    have hb : b.toLower ∈ rad50 := hlow b (by simp)
    refine ⟨a.toLower, b.toLower, ' ', rfl, ha, hb, hblank, ?_⟩
    simp [rt11fsR50out, r50outLoop, idxOf?_rad50 ha, idxOf?_rad50 hb, r50Value, digit_blank]
  · have ha : a.toLower ∈ rad50 := hlow a (by simp)
    have hb : b.toLower ∈ rad50 := hlow b (by simp)
    have hc : c.toLower ∈ rad50 := hlow c (by simp)
    refine ⟨a.toLower, b.toLower, c.toLower, rfl, ha, hb, hc, ?_⟩
    simp [rt11fsR50out, r50outLoop, idxOf?_rad50 ha, idxOf?_rad50 hb, idxOf?_rad50 hc, r50Value]

/-! ## Names -/

/-- A valid name: up to six characters, and up to three behind a dot. -/
structure FileName where
  base : List Char
  ext : Option (List Char)
  base_length : base.length ≤ 6
  base_mem : ∀ c ∈ base, c ∈ alphabet
  base_dot : '.' ∉ base
  ext_length : ∀ e ∈ ext, e.length ≤ 3
  ext_mem : ∀ e ∈ ext, ∀ c ∈ e, c ∈ alphabet

namespace FileName

variable (n : FileName)

def text : List Char :=
  match n.ext with
  | none => n.base
  | some e => n.base ++ '.' :: e

/-- The part before the dot, in lower case and padded with blanks. -/
def paddedBase : List Char := (n.base.map Char.toLower).rightpad 6 ' '

/-- The part behind the dot, in lower case and padded with blanks. -/
def paddedExt : List Char := ((n.ext.getD []).map Char.toLower).rightpad 3 ' '

/-- The same name in the form that `rt11fsNameString` writes. -/
def canonical : List Char := n.paddedBase.rdropWhile (· = ' ') ++ '.' :: n.paddedExt

end FileName

theorem rightpad_split {cs : List Char} (h : cs.length ≤ 6) :
    cs.rightpad 6 ' ' = (cs.take 3).rightpad 3 ' ' ++ (cs.drop 3).rightpad 3 ' ' := by
  unfold List.rightpad
  by_cases hle : cs.length ≤ 3
  · rw [List.take_of_length_le hle, List.drop_of_length_le hle, List.nil_append, List.append_assoc,
      List.replicate_append_replicate, List.length_nil]
    congr 2
    omega
  · rw [List.length_take, List.length_drop, show 3 - min 3 cs.length = 0 by omega,
      show 3 - (cs.length - 3) = 6 - cs.length by omega, List.replicate_zero, List.append_nil,
      ← List.append_assoc, List.take_append_drop]

theorem not_dot_mem_paddedBase (n : FileName) : '.' ∉ n.paddedBase := by
  intro hmem
  rcases List.mem_append.1 hmem with hmem | hmem
  · obtain ⟨c, hc, heq⟩ := List.mem_map.1 hmem
    have hne : c ≠ '.' := fun hdot => n.base_dot (hdot ▸ hc)
    exact toLower_ne_dot c (n.base_mem c hc) hne heq
  · exact absurd (List.eq_of_mem_replicate hmem) (by decide)

/-- A string is converted in its parts before and behind the first dot. -/
theorem nameR50_split {base rest : List Char} (hdot : '.' ∉ base)
    (hrest : rest = [] ∨ ∃ ext, rest = '.' :: ext) (hlen : (base ++ rest).length ≤ 10) :
    rt11fsNameR50 (base ++ rest) =
      storeName (rt11fsR50out base)
        (if base.length ≤ 3 then some 0 else rt11fsR50out (base.drop 3))
        (rt11fsR50out (rest.drop 1)) := by
  have hnodot : ∀ c ∈ base, decide (c ≠ '.') = true := by
    intro c hc
    exact decide_eq_true fun heq => hdot (heq ▸ hc)
  have hlen' : (base ++ rest).length ≤ RT11FS_NAME_LEN - 1 := hlen
  unfold rt11fsNameR50
  rw [List.take_of_length_le hlen']
  dsimp only
  rw [List.takeWhile_append_of_pos hnodot, List.dropWhile_append_of_pos hnodot]
  rcases hrest with rfl | ⟨ext, rfl⟩
  · simp [rt11fsR50out, r50outLoop]
  · simp

/-- The second word of a short name is that of a group of blanks. -/
theorem name2_eq {base : List Char} {v : Nat} (h : rt11fsR50out (base.drop 3) = some v) :
    (if base.length ≤ 3 then some 0 else rt11fsR50out (base.drop 3)) = some v := by
  by_cases hle : base.length ≤ 3
  · rw [List.drop_of_length_le hle] at h
    rw [if_pos hle, ← h]
    rfl
  · rw [if_neg hle, h]

/-- The words of a string are those of its three groups. -/
theorem nameR50_groups {base rest : List Char} (hlow : ∀ c ∈ base ++ rest, c.toLower ∈ rad50)
    (hdot : '.' ∉ base) (hbase : base.length ≤ 6)
    (hrest : rest = [] ∨ ∃ ext, rest = '.' :: ext) (hlen : (base ++ rest).length ≤ 10) :
    ∃ x0 x1 x2 x3 x4 x5 e0 e1 e2,
      (base.map Char.toLower).rightpad 6 ' ' = [x0, x1, x2, x3, x4, x5] ∧
      (((rest.drop 1).take 3).map Char.toLower).rightpad 3 ' ' = [e0, e1, e2] ∧
      (∀ c ∈ [x0, x1, x2, x3, x4, x5], c ∈ rad50) ∧ (∀ c ∈ [e0, e1, e2], c ∈ rad50) ∧
      rt11fsNameR50 (base ++ rest) = some
        { nm_name1 := r50Word x0 x1 x2, nm_name2 := r50Word x3 x4 x5
          nm_type := r50Word e0 e1 e2 } := by
  have hlowb : ∀ c ∈ base, c.toLower ∈ rad50 := fun c hc => hlow c (List.mem_append_left _ hc)
  obtain ⟨x0, x1, x2, hp1, h0, h1, h2, hr1⟩ := rt11fsR50out_eq hlowb
  obtain ⟨x3, x4, x5, hp2, h3, h4, h5, hr2⟩ :=
    rt11fsR50out_eq fun c hc => hlowb c (List.mem_of_mem_drop hc)
  have hlowe : ∀ c ∈ rest.drop 1, c.toLower ∈ rad50 := fun c hc =>
    hlow c (List.mem_append_right _ (List.mem_of_mem_drop hc))
  obtain ⟨e0, e1, e2, hpe, g0, g1, g2, hre⟩ := rt11fsR50out_eq hlowe
  have hdrop : (base.drop 3).take 3 = base.drop 3 := by
    apply List.take_of_length_le
    rw [List.length_drop]
    omega
  refine ⟨x0, x1, x2, x3, x4, x5, e0, e1, e2, ?_, hpe, ?_, ?_, ?_⟩
  · rw [hdrop, List.map_drop] at hp2
    rw [List.map_take] at hp1
    rw [rightpad_split (by rwa [List.length_map]), hp1, hp2]
    rfl
  · simp [h0, h1, h2, h3, h4, h5]
  · simp [g0, g1, g2]
  · rw [nameR50_split hdot hrest hlen, hr1, name2_eq hr2, hre]
    rfl

/-- The words of a valid name are those of its three groups. -/
theorem FileName.nameR50 (n : FileName) :
    ∃ x0 x1 x2 x3 x4 x5 e0 e1 e2, n.paddedBase = [x0, x1, x2, x3, x4, x5] ∧
      n.paddedExt = [e0, e1, e2] ∧ (∀ c ∈ n.paddedBase, c ∈ rad50) ∧
      (∀ c ∈ n.paddedExt, c ∈ rad50) ∧
      rt11fsNameR50 n.text = some
        { nm_name1 := r50Word x0 x1 x2, nm_name2 := r50Word x3 x4 x5
          nm_type := r50Word e0 e1 e2 } := by
  have hbase := n.base_length
  obtain ⟨rest, htext, hrest, hext, hlen, hmem⟩ : ∃ rest, n.text = n.base ++ rest ∧
      (rest = [] ∨ ∃ ext, rest = '.' :: ext) ∧ (rest.drop 1).take 3 = n.ext.getD [] ∧
      rest.length ≤ 4 ∧ ∀ c ∈ rest, c ∈ alphabet := by
    unfold FileName.text
    cases hext : n.ext with
    | none => exact ⟨[], (List.append_nil _).symm, .inl rfl, rfl, by simp, by simp⟩
    | some e =>
      have hlen := n.ext_length e hext
      refine ⟨'.' :: e, rfl, .inr ⟨e, rfl⟩, List.take_of_length_le hlen, Nat.succ_le_succ hlen, ?_⟩
      intro c hc
      rcases List.mem_cons.1 hc with rfl | hc
      · decide
      · exact n.ext_mem e hext c hc
  have hlow : ∀ c ∈ n.base ++ rest, c.toLower ∈ rad50 := by
    intro c hc
    apply toLower_mem_rad50
    rcases List.mem_append.1 hc with hc | hc
    · exact n.base_mem c hc
    · exact hmem c hc
  obtain ⟨x0, x1, x2, x3, x4, x5, e0, e1, e2, hx, he, hmx, hme, hr⟩ :=
    nameR50_groups hlow n.base_dot hbase hrest (by rw [List.length_append]; omega)
  rw [hext] at he
  rw [← htext] at hr
  refine ⟨x0, x1, x2, x3, x4, x5, e0, e1, e2, hx, he, ?_, ?_, hr⟩
  · intro c hc
    apply hmx
    rwa [FileName.paddedBase, hx] at hc
  · intro c hc
    apply hme
    rwa [FileName.paddedExt, he] at hc

/-! ## Reading a name back -/

theorem eos_not_mem_rad50 : EOS ∉ rad50 := by decide

theorem cString_append {l r : List Char} (h : EOS ∉ l) : cString (l ++ r) = l ++ cString r :=
  List.takeWhile_append_of_pos fun _ hc => decide_eq_true fun heq => h (heq ▸ hc)

theorem rdropWhile_append_cons {p : Char → Bool} {c : Char} (h : ¬ p c) (pre post : List Char) :
    (pre ++ c :: post).rdropWhile p = pre ++ c :: post.rdropWhile p := by
  induction post using List.reverseRecOn with
  | nil => rw [List.rdropWhile_concat_neg _ _ _ h, List.rdropWhile_nil]
  | append_singleton post x ih =>
    rw [← List.cons_append, ← List.append_assoc]
    by_cases hx : p x
    · rw [List.rdropWhile_concat_pos _ _ _ hx, List.rdropWhile_concat_pos _ _ _ hx, ih]
    · rw [List.rdropWhile_concat_neg _ _ _ hx, List.rdropWhile_concat_neg _ _ _ hx,
        List.append_assoc]
      rfl

/-- A padded name without its padding, and the blanks behind it. -/
theorem exists_blanks (cs : List Char) :
    ∃ blanks, cs = cs.rdropWhile (· = ' ') ++ blanks ∧ ∀ c ∈ blanks, c = ' ' := by
  refine ⟨cs.rtakeWhile (· = ' '), List.rdropWhile_append_rtakeWhile.symm, fun c hc => ?_⟩
  simpa using List.mem_rtakeWhile_imp hc

/-- The name ends at its first blank. -/
theorem takeWhile_ne_blank {cs : List Char} (h : ' ' ∉ cs.rdropWhile (· = ' ')) :
    cs.takeWhile (· ≠ ' ') = cs.rdropWhile (· = ' ') := by
  obtain ⟨blanks, hcs, hblanks⟩ := exists_blanks cs
  generalize cs.rdropWhile (· = ' ') = trimmed at h hcs
  have hne : ∀ c ∈ trimmed, decide (c ≠ ' ') = true := by
    intro c hc
    exact decide_eq_true fun heq => h (heq ▸ hc)
  rw [hcs, List.takeWhile_append_of_pos hne]
  cases blanks with
  | nil => simp
  | cons c blanks =>
    have hc : c = ' ' := hblanks c (by simp)
    simp [hc]

/-- The number of the characters of a group. -/
def groupValue (cs : List Char) : Nat := cs.foldl (fun v c => 50 * v + digit c) 0

theorem groupValue_eq (a b c : Char) : groupValue [a, b, c] = r50Value a b c := by
  simp [groupValue, r50Value]

namespace FileName

variable (n : FileName)

/-- The three groups fit their words. -/
def Fits : Prop :=
  groupValue (n.paddedBase.take 3) < 65536 ∧ groupValue (n.paddedBase.drop 3) < 65536 ∧
    groupValue n.paddedExt < 65536

instance : Decidable n.Fits := inferInstanceAs (Decidable (_ ∧ _ ∧ _))

/-- No blank is in the middle of the part before the dot. -/
def NoInnerBlank : Prop := ' ' ∉ n.paddedBase.rdropWhile (· = ' ')

instance : Decidable n.NoInnerBlank := inferInstanceAs (Decidable (_ ∉ _))

/-- The name is the same after it was turned to its words and back. -/
def RoundTrip : Prop :=
  ∃ name, rt11fsNameR50 n.text = some name ∧ rt11fsNameString name = some n.canonical

end FileName

variable {n : FileName}

/-- The text of the words of a name that fits. -/
theorem nameString_of_fits (hfits : n.Fits) {name : Name}
    (hname : rt11fsNameR50 n.text = some name) :
    rt11fsNameString name =
      some (cString (n.paddedBase.takeWhile (· ≠ ' ') ++ '.' :: n.paddedExt ++ [EOS])) := by
  obtain ⟨x0, x1, x2, x3, x4, x5, e0, e1, e2, hbase, hext, hmem, hmem', hr⟩ := n.nameR50
  obtain ⟨h1, h2, h3⟩ := hfits
  rw [hbase] at h1 h2 hmem
  rw [hext] at h3 hmem'
  simp only [List.take_succ_cons, List.take_zero, List.drop_succ_cons, List.drop_zero,
    groupValue_eq] at h1 h2 h3
  obtain rfl := Option.some.inj (hr.symm.trans hname)
  rw [rt11fsNameString]
  dsimp only
  rw [rt11fsR50in_of_lt (hmem x0 (by simp)) (hmem x1 (by simp)) (hmem x2 (by simp)) h1,
    rt11fsR50in_of_lt (hmem x3 (by simp)) (hmem x4 (by simp)) (hmem x5 (by simp)) h2,
    rt11fsR50in_of_lt (hmem' e0 (by simp)) (hmem' e1 (by simp)) (hmem' e2 (by simp)) h3, hbase, hext]
  rfl

theorem FileName.roundTrip (hfits : n.Fits) (hblank : n.NoInnerBlank) : n.RoundTrip := by
  obtain ⟨x0, x1, x2, x3, x4, x5, e0, e1, e2, _, _, hmem, hmem', hr⟩ := n.nameR50
  refine ⟨_, hr, ?_⟩
  rw [nameString_of_fits hfits hr, takeWhile_ne_blank hblank]
  have heos : EOS ∉ n.canonical := by
    intro heos
    rcases List.mem_append.1 heos with heos | heos
    · exact eos_not_mem_rad50 (hmem _ ((List.rdropWhile_prefix _ _).subset heos))
    · rcases List.mem_cons.1 heos with heos | heos
      · exact absurd heos (by decide)
      · exact eos_not_mem_rad50 (hmem' _ heos)
  show some (cString (n.canonical ++ [EOS])) = _
  rw [cString_append heos]
  simp [cString]

/-- The string that `rt11fsNameString` makes of three groups. -/
theorem nameString_eq {name : Name} {string : List Char} (h : rt11fsNameString name = some string) :
    ∃ q1 q2 q3, rt11fsR50in name.nm_name1.toNat = some q1 ∧
      rt11fsR50in name.nm_name2.toNat = some q2 ∧ rt11fsR50in name.nm_type.toNat = some q3 ∧
      string = cString ((q1 ++ q2).takeWhile (· ≠ ' ') ++ '.' :: q3 ++ [EOS]) := by
  unfold rt11fsNameString at h
  split at h
  · next q1 q2 q3 h1 h2 h3 => exact ⟨q1, q2, q3, h1, h2, h3, (Option.some.inj h).symm⟩
  · cases h

theorem cString_cons {c : Char} {cs : List Char} (h : c ≠ EOS) :
    cString (c :: cs) = c :: cString cs := List.takeWhile_cons_of_pos (decide_eq_true h)

theorem ne_eos {c : Char} (h : c ∈ rad50) : c ≠ EOS := fun heq => eos_not_mem_rad50 (heq ▸ h)

/-- A string that begins with another character than the name is not the name. -/
theorem head_ne {x0 a' : Char} {r r' rest : List Char} (ha : a' ∈ rad50) (hne : a' ≠ x0)
    (hdot : x0 ≠ '.') :
    cString ((a' :: r).takeWhile (· ≠ ' ') ++ '.' :: r') ≠ x0 :: rest := by
  by_cases hblank : a' = ' '
  · rw [hblank]
    intro heq
    rw [List.takeWhile_cons_of_neg (by simp), List.nil_append, cString_cons (by decide)] at heq
    exact hdot (List.cons.inj heq).1.symm
  · rw [List.takeWhile_cons_of_pos (by simpa using hblank), List.cons_append,
      cString_cons (ne_eos ha)]
    exact fun heq => hne (List.cons.inj heq).1

/-- The characters of the first group that are not blank come first. -/
theorem takeWhile_cons_cString {x : Char} {r r' : List Char} (hx : x ∈ rad50) (hblank : x ≠ ' ') :
    cString ((x :: r).takeWhile (· ≠ ' ') ++ '.' :: r') =
      x :: cString (r.takeWhile (· ≠ ' ') ++ '.' :: r') := by
  rw [List.takeWhile_cons_of_pos (by simpa using hblank), List.cons_append,
    cString_cons (ne_eos hx)]

theorem takeWhile_blank_cString {r r' : List Char} :
    cString ((' ' :: r).takeWhile (· ≠ ' ') ++ '.' :: r') = '.' :: cString r' := by
  rw [List.takeWhile_cons_of_neg (by simp), List.nil_append, cString_cons (by decide)]

/-- A name that is read back fits, and has no blank inside. -/
theorem FileName.RoundTrip.good (h : n.RoundTrip) : n.Fits ∧ n.NoInnerBlank := by
  obtain ⟨x0, x1, x2, x3, x4, x5, e0, e1, e2, hbase, hext, hmem, hmem', hr⟩ := n.nameR50
  obtain ⟨name, hname, hstring⟩ := h
  obtain rfl := Option.some.inj (hr.symm.trans hname)
  obtain ⟨q1, q2, q3, h1, h2, h3, heq⟩ := nameString_eq hstring
  dsimp only at h1 h2 h3
  have hdot := not_dot_mem_paddedBase n
  rw [hbase] at hmem hdot
  rw [hext] at hmem'
  simp only [List.mem_cons, not_or, List.not_mem_nil] at hdot
  have m0 : x0 ∈ rad50 := hmem x0 (by simp)
  have m1 : x1 ∈ rad50 := hmem x1 (by simp)
  have m2 : x2 ∈ rad50 := hmem x2 (by simp)
  have m3 : x3 ∈ rad50 := hmem x3 (by simp)
  have m4 : x4 ∈ rad50 := hmem x4 (by simp)
  have m5 : x5 ∈ rad50 := hmem x5 (by simp)
  rw [FileName.canonical, hbase, hext, List.append_assoc, List.cons_append] at heq
  -- the first group fits
  have hfits1 : r50Value x0 x1 x2 < 65536 := by
    by_contra hle
    obtain ⟨a', b', c', rfl, ha', hne, hx0⟩ := rt11fsR50in_of_le m0 m1 m2 (by omega) h1
    have htrim := rdropWhile_append_cons (p := (· = ' ')) (by simpa using hx0) [] [x1, x2, x3, x4, x5]
    rw [List.nil_append] at htrim
    rw [htrim, List.nil_append, List.cons_append] at heq
    exact head_ne ha' hne (Ne.symm hdot.1) heq.symm
  rw [rt11fsR50in_of_lt m0 m1 m2 hfits1, Option.some.injEq] at h1
  rw [← h1] at heq
  -- the second group fits: its first character is no blank when it does not
  have hfits2 : r50Value x3 x4 x5 < 65536 := by
    by_contra hle
    obtain ⟨a', b', c', rfl, ha', hne, hx3⟩ := rt11fsR50in_of_le m3 m4 m5 (by omega) h2
    have htrim := rdropWhile_append_cons (p := (· = ' ')) (by simpa using hx3) [x0, x1, x2] [x4, x5]
    rw [show [x0, x1, x2] ++ x3 :: [x4, x5] = [x0, x1, x2, x3, x4, x5] from rfl] at htrim
    rw [htrim] at heq
    simp only [List.cons_append, List.nil_append] at heq
    by_cases hx0 : x0 = ' '
    · rw [hx0, takeWhile_blank_cString] at heq
      exact absurd (List.cons.inj heq).1 (by decide)
    rw [takeWhile_cons_cString m0 hx0] at heq
    replace heq := (List.cons.inj heq).2
    by_cases hx1 : x1 = ' '
    · rw [hx1, takeWhile_blank_cString] at heq
      exact absurd (List.cons.inj heq).1 (by decide)
    rw [takeWhile_cons_cString m1 hx1] at heq
    replace heq := (List.cons.inj heq).2
    by_cases hx2 : x2 = ' '
    · rw [hx2, takeWhile_blank_cString] at heq
      exact absurd (List.cons.inj heq).1 (by decide)
    rw [takeWhile_cons_cString m2 hx2] at heq
    replace heq := (List.cons.inj heq).2
    exact head_ne ha' hne (Ne.symm hdot.2.2.2.1) heq.symm
  rw [rt11fsR50in_of_lt m3 m4 m5 hfits2, Option.some.injEq] at h2
  rw [← h2] at heq
  simp only [List.cons_append, List.nil_append] at heq
  -- a blank inside would be where the dot is written
  have hblank : n.NoInnerBlank := by
    intro hin
    rw [hbase] at hin
    obtain ⟨pre, post, hsplit, hpre⟩ := List.eq_append_cons_of_mem hin
    obtain ⟨blanks, hcs, -⟩ := exists_blanks [x0, x1, x2, x3, x4, x5]
    rw [hsplit, List.append_assoc, List.cons_append] at hcs
    have hne : ∀ c ∈ pre, decide (c ≠ ' ') = true := by
      intro c hc
      exact decide_eq_true fun hc' => hpre (hc' ▸ hc)
    have heos : EOS ∉ pre := by
      intro hc
      apply eos_not_mem_rad50
      apply hmem
      rw [hcs]
      exact List.mem_append_left _ hc
    rw [hsplit] at heq
    rw [hcs, List.takeWhile_append_of_pos hne, List.takeWhile_cons_of_neg (by simp),
      List.append_nil, cString_append heos, cString_cons (by decide), List.append_assoc] at heq
    have htail := List.append_cancel_left heq
    exact absurd (List.cons.inj htail).1 (by decide)
  -- the name is read back, and so is the type
  have hfits3 : r50Value e0 e1 e2 < 65536 := by
    by_contra hle
    obtain ⟨a', b', c', rfl, ha', hne, -⟩ := rt11fsR50in_of_le (hmem' e0 (by simp))
      (hmem' e1 (by simp)) (hmem' e2 (by simp)) (by omega) h3
    have hblank' := hblank
    unfold FileName.NoInnerBlank at hblank'
    rw [hbase] at hblank'
    rw [takeWhile_ne_blank hblank'] at heq
    have heos : EOS ∉ [x0, x1, x2, x3, x4, x5].rdropWhile (· = ' ') := by
      intro hc
      exact eos_not_mem_rad50 (hmem _ ((List.rdropWhile_prefix _ _).subset hc))
    rw [cString_append heos, cString_cons (by decide)] at heq
    have htail := List.append_cancel_left heq
    have hcons := (List.cons.inj htail).2
    rw [List.cons_append, cString_cons (ne_eos ha')] at hcons
    exact hne (List.cons.inj hcons).1.symm
  refine ⟨⟨?_, ?_, ?_⟩, hblank⟩
  · rw [hbase]
    exact (groupValue_eq x0 x1 x2).trans_lt hfits1
  · rw [hbase]
    exact (groupValue_eq x3 x4 x5).trans_lt hfits2
  · rw [hext]
    exact (groupValue_eq e0 e1 e2).trans_lt hfits3

theorem FileName.roundTrip_iff (n : FileName) : n.RoundTrip ↔ n.Fits ∧ n.NoInnerBlank :=
  ⟨fun h => h.good, fun h => FileName.roundTrip h.1 h.2⟩

/-! ## Distinct names -/

/-- The three groups have numbers that differ by multiples of 65536, and some differ. -/
def FileName.Overlap (n m : FileName) : Prop :=
  (groupValue (n.paddedBase.take 3) % 65536 = groupValue (m.paddedBase.take 3) % 65536 ∧
    groupValue (n.paddedBase.drop 3) % 65536 = groupValue (m.paddedBase.drop 3) % 65536 ∧
    groupValue n.paddedExt % 65536 = groupValue m.paddedExt % 65536) ∧
  (groupValue (n.paddedBase.take 3), groupValue (n.paddedBase.drop 3), groupValue n.paddedExt) ≠
    (groupValue (m.paddedBase.take 3), groupValue (m.paddedBase.drop 3), groupValue m.paddedExt)

theorem digit_inj {d : Char} (h : c ∈ rad50) (heq : digit c = digit d) : c = d :=
  (List.idxOf_inj h).1 heq

/-- A group is told by its number. -/
theorem r50Value_inj {a' b' c' : Char} (ha : a ∈ rad50) (hb : b ∈ rad50) (hc : c ∈ rad50)
    (hb' : b' ∈ rad50) (hc' : c' ∈ rad50) :
    r50Value a b c = r50Value a' b' c' ↔ [a, b, c] = [a', b', c'] := by
  have hlb := digit_lt hb
  have hlc := digit_lt hc
  have hlb' := digit_lt hb'
  have hlc' := digit_lt hc'
  constructor
  · intro heq
    unfold r50Value at heq
    have h1 : a = a' := digit_inj ha (by omega)
    have h2 : b = b' := digit_inj hb (by omega)
    have h3 : c = c' := digit_inj hc (by omega)
    rw [h1, h2, h3]
  · intro heq
    simp only [List.cons.injEq, and_true] at heq
    rw [heq.1, heq.2.1, heq.2.2]

theorem r50Word_congr {a' b' c' : Char} :
    r50Word a b c = r50Word a' b' c' ↔ r50Value a b c % 65536 = r50Value a' b' c' % 65536 := by
  rw [← UInt16.toNat_inj, toNat_r50Word, toNat_r50Word]

/-- Distinct names have distinct words unless they overlap. -/
theorem FileName.nameR50_eq_iff (n m : FileName) :
    (rt11fsNameR50 n.text = rt11fsNameR50 m.text →
      n.paddedBase = m.paddedBase ∧ n.paddedExt = m.paddedExt) ↔ ¬ n.Overlap m := by
  obtain ⟨x0, x1, x2, x3, x4, x5, e0, e1, e2, hbase, hext, hmem, hmem', hr⟩ := n.nameR50
  obtain ⟨y0, y1, y2, y3, y4, y5, f0, f1, f2, hbase', hext', hmemy, hmemy', hr'⟩ := m.nameR50
  have hwords : rt11fsNameR50 n.text = rt11fsNameR50 m.text ↔
      r50Value x0 x1 x2 % 65536 = r50Value y0 y1 y2 % 65536 ∧
      r50Value x3 x4 x5 % 65536 = r50Value y3 y4 y5 % 65536 ∧
      r50Value e0 e1 e2 % 65536 = r50Value f0 f1 f2 % 65536 := by
    rw [hr, hr', Option.some.injEq, Name.mk.injEq, r50Word_congr, r50Word_congr, r50Word_congr]
  have hsame : n.paddedBase = m.paddedBase ∧ n.paddedExt = m.paddedExt ↔
      r50Value x0 x1 x2 = r50Value y0 y1 y2 ∧ r50Value x3 x4 x5 = r50Value y3 y4 y5 ∧
      r50Value e0 e1 e2 = r50Value f0 f1 f2 := by
    rw [hbase] at hmem
    rw [hext] at hmem'
    rw [hbase'] at hmemy
    rw [hext'] at hmemy'
    rw [r50Value_inj (hmem x0 (by simp)) (hmem x1 (by simp)) (hmem x2 (by simp))
        (hmemy y1 (by simp)) (hmemy y2 (by simp)),
      r50Value_inj (hmem x3 (by simp)) (hmem x4 (by simp)) (hmem x5 (by simp))
        (hmemy y4 (by simp)) (hmemy y5 (by simp)),
      r50Value_inj (hmem' e0 (by simp)) (hmem' e1 (by simp)) (hmem' e2 (by simp))
        (hmemy' f1 (by simp)) (hmemy' f2 (by simp)), hbase, hbase', hext,
      hext']
    simp [and_assoc]
  rw [hwords, hsame, FileName.Overlap, hbase, hbase', hext, hext']
  simp only [List.take_succ_cons, List.take_zero, List.drop_succ_cons, List.drop_zero,
    groupValue_eq, ne_eq, Prod.mk.injEq]
  rw [not_and_not_right]

end Vmx.Rt11
