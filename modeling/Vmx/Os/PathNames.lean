import Vmx.Os.PathLib
import Vmx.Lib.Words
import Mathlib.Data.List.Infix

/-!
# Paths as lists of names

`names` are the components of a path that are not empty, and `place` is what they lead to: each
name goes down, `.` stays, and `..` goes up, which at the root stays as well.  A `Clean` path has
only names that go down, and is the text of them (`names_text`); a part at its end is clean unless
it begins inside a name and what is left of the name is `.` or `..` (`Clean.suffix_iff`).
-/

namespace Vmx.Path

open Lib (words_nil words_sep words_singleton words_append)

variable {t s name : List Char} {ns : List (List Char)} {c : Char}

/-! ## Names -/

/-- The components of a path that are not empty. -/
def names (t : List Char) : List (List Char) := (t.splitOnP isSep).filter (· ≠ [])

/-- A name has characters, and no separators. -/
def IsName (name : List Char) : Prop := name ≠ [] ∧ ∀ c ∈ name, isSep c = false

@[simp] theorem names_nil : names [] = [] := words_nil

theorem names_sep (h : isSep c = true) (t : List Char) : names (c :: t) = names t := words_sep h t

theorem names_singleton (h : IsName name) : names name = [name] := words_singleton h.1 h.2

theorem names_append (h : IsName name) (hc : isSep c = true) (t : List Char) :
    names (name ++ c :: t) = name :: names t := words_append h.1 h.2 hc t

/-- A character before a path that begins with no separator makes its first name longer. -/
theorem names_cons (h : isSep c = false) (t : List Char) :
    ∃ first rest, (names t = rest ∨ names t = first :: rest) ∧
      names (c :: t) = (c :: first) :: rest ∧
      (names t = rest → first = []) := by
  rw [names, names, List.splitOnP_cons_eq_if_modifyHead, if_neg (by simp [h])]
  cases hsplit : t.splitOnP isSep with
  | nil => exact absurd hsplit (List.splitOnP_ne_nil isSep t)
  | cons first rest =>
    refine ⟨first, rest.filter (· ≠ []), ?_, ?_, ?_⟩
    · by_cases hfirst : first = []
      · exact .inl (List.filter_cons_of_neg (by simp [hfirst]))
      · exact .inr (List.filter_cons_of_pos (by simp [hfirst]))
    · rw [List.modifyHead_cons, List.filter_cons_of_pos (by simp)]
    · intro heq
      by_contra hfirst
      rw [List.filter_cons_of_pos (by simp [hfirst])] at heq
      exact List.cons_ne_self _ _ heq

/-- The bytes of names, with a separator or an `EOS` behind each. -/
def size (ns : List (List Char)) : Nat := (ns.map fun name => name.length + 1).sum

@[simp] theorem size_nil : size [] = 0 := rfl

@[simp] theorem size_cons (name : List Char) (ns : List (List Char)) :
    size (name :: ns) = name.length + 1 + size ns := by
  simp [size]

/-- The end of a path has no more names, and no longer ones. -/
theorem names_suffix (h : s <:+ t) :
    (names s).length ≤ (names t).length ∧ size (names s) ≤ size (names t) := by
  obtain ⟨pre, rfl⟩ := h
  induction pre with
  | nil => exact ⟨Nat.le_refl _, Nat.le_refl _⟩
  | cons c pre ih =>
    rw [List.cons_append]
    cases hc : isSep c with
    | true => rwa [names_sep hc]
    | false =>
      obtain ⟨first, rest, ht, hct, -⟩ := names_cons hc (pre ++ s)
      rw [hct]
      rcases ht with ht | ht
      · rw [ht] at ih
        simp only [List.length_cons, size_cons]
        omega
      · rw [ht] at ih
        simp only [List.length_cons, size_cons] at ih ⊢
        omega

theorem isName_of_mem_names (h : name ∈ names t) : IsName name := by
  induction t generalizing name with
  | nil => simp at h
  | cons c t ih =>
    cases hc : isSep c with
    | true =>
      rw [names_sep hc] at h
      exact ih h
    | false =>
      obtain ⟨first, rest, ht, hct, hempty⟩ := names_cons hc t
      rw [hct] at h
      rcases List.mem_cons.1 h with rfl | h
      · refine ⟨by simp, fun x hx => ?_⟩
        rcases List.mem_cons.1 hx with rfl | hx
        · exact hc
        · rcases ht with ht | ht
          · rw [hempty ht] at hx
            cases hx
          · have hfirst : IsName first := ih (by rw [ht]; exact List.mem_cons_self)
            exact hfirst.2 x hx
      · apply ih
        rcases ht with ht | ht
        · rwa [ht]
        · rw [ht]
          exact List.mem_cons_of_mem _ h

/-! ## Places -/

/-- A name that is not read as a step that stays or goes up. -/
def GoesDown (name : List Char) : Prop := IsName name ∧ name ≠ ['.'] ∧ name ≠ ['.', '.']

/-- One name of a path, from a number of steps up and the names below, the last one first. -/
def walk (place : Nat × List (List Char)) (name : List Char) : Nat × List (List Char) :=
  if name = ['.'] then place
  else if name = ['.', '.'] then
    match place.2 with
    | [] => (place.1 + 1, [])
    | _ :: up => (place.1, up)
  else (place.1, name :: place.2)

/-- Where a path leads to: from the root, or from the directory that the path starts in, after
some steps up. -/
structure Place where
  rooted : Bool
  up : Nat
  down : List (List Char)
  deriving DecidableEq

/-- The place of a path behind a device, or of one without. -/
def place (device : Bool) (t : List Char) : Place :=
  let rooted := device || lead t ≠ []
  let walked := (names t).foldl walk (0, [])
  { rooted := rooted, up := if rooted then 0 else walked.1, down := walked.2.reverse }

/-! ## The text of names -/

/-- The names behind a separator, or not. -/
def text (l : List Char) (ns : List (List Char)) : List Char := l ++ ['/'].intercalate ns

@[simp] theorem text_nil (l : List Char) : text l [] = l := List.append_nil l

theorem text_cons (l name : List Char) (ns : List (List Char)) :
    text l (name :: ns) = l ++ (name ++ if ns = [] then [] else text ['/'] ns) := by
  cases ns with
  | nil => simp [text]
  | cons m ns => simp [text, List.intercalate_cons_cons]

theorem length_text {l : List Char} (h : ns ≠ []) :
    (text l ns).length + 1 = l.length + size ns := by
  induction ns generalizing l with
  | nil => exact absurd rfl h
  | cons name ns ih =>
    rw [text_cons, List.length_append, List.length_append, size_cons]
    by_cases hns : ns = []
    · rw [if_pos hns, hns]
      simp
      omega
    · have hrest := ih (l := ['/']) hns
      rw [List.length_singleton] at hrest
      rw [if_neg hns]
      omega

/-- A separator, or nothing. -/
def IsLead (l : List Char) : Prop := l = [] ∨ ∃ c, l = [c] ∧ isSep c = true

theorem isLead_lead (t : List Char) : IsLead (lead t) := by
  cases t with
  | nil => exact .inl rfl
  | cons c t =>
    rw [lead]
    split
    next hc => exact .inr ⟨c, rfl, hc⟩
    next => exact .inl rfl

theorem isLead_slash : IsLead ['/'] := .inr ⟨'/', rfl, rfl⟩

theorem names_text {l : List Char} (hl : IsLead l) (h : ∀ n ∈ ns, IsName n) :
    names (text l ns) = ns := by
  have hnames : ∀ ns : List (List Char), (∀ n ∈ ns, IsName n) → names (text [] ns) = ns := by
    intro ns hns
    induction ns with
    | nil => exact names_nil
    | cons name ns ih =>
      have hname : IsName name := hns name List.mem_cons_self
      have hrest := ih fun n hn => hns n (List.mem_cons_of_mem _ hn)
      rw [text_cons, List.nil_append]
      split
      next hnil => rw [List.append_nil, names_singleton hname, hnil]
      next =>
        rw [text, List.singleton_append, names_append hname rfl]
        rw [text, List.nil_append] at hrest
        rw [hrest]
  rcases hl with rfl | ⟨c, rfl, hc⟩
  · exact hnames ns h
  · have hrest := hnames ns h
    rw [text, List.nil_append] at hrest
    rw [text, List.singleton_append, names_sep hc, hrest]

theorem lead_text {l : List Char} (hl : IsLead l) (h : ∀ n ∈ ns, IsName n) :
    lead (text l ns) = l := by
  rcases hl with rfl | ⟨c, rfl, hc⟩
  · cases ns with
    | nil => rfl
    | cons name ns =>
      have hname : IsName name := h name List.mem_cons_self
      obtain ⟨c, name, rfl⟩ := List.exists_cons_of_ne_nil hname.1
      have hc : isSep c = false := hname.2 c List.mem_cons_self
      rw [text_cons, List.nil_append, List.cons_append, lead, if_neg (by simp [hc])]
  · rw [text, List.singleton_append, lead, if_pos hc]

theorem walk_goesDown (h : ∀ n ∈ ns, GoesDown n) (p : Nat × List (List Char)) :
    ns.foldl walk p = (p.1, ns.reverse ++ p.2) := by
  induction ns generalizing p with
  | nil => rfl
  | cons name ns ih =>
    obtain ⟨-, hdot, hdots⟩ := h name List.mem_cons_self
    rw [List.foldl_cons, walk, if_neg hdot, if_neg hdots,
      ih fun n hn => h n (List.mem_cons_of_mem _ hn)]
    simp

/-- Names that go down lead to themselves. -/
theorem place_text {device : Bool} {l : List Char} (hl : IsLead l) (h : ∀ n ∈ ns, GoesDown n) :
    place device (text l ns) = { rooted := device || l ≠ [], up := 0, down := ns } := by
  have hnames : ∀ n ∈ ns, IsName n := fun n hn => (h n hn).1
  rw [place, names_text hl hnames, lead_text hl hnames, walk_goesDown h]
  simp

/-- The names of a place go down, and are some of those of the path. -/
theorem walk_spec (h : ∀ n ∈ ns, IsName n) (p : Nat × List (List Char))
    (hp : ∀ n ∈ p.2, GoesDown n) :
    (∀ n ∈ (ns.foldl walk p).2, GoesDown n) ∧
      (ns.foldl walk p).2.length ≤ ns.length + p.2.length := by
  induction ns generalizing p with
  | nil =>
    refine ⟨hp, ?_⟩
    simp
  | cons name ns ih =>
    have hname : IsName name := h name List.mem_cons_self
    have hwalk : (∀ n ∈ (walk p name).2, GoesDown n) ∧ (walk p name).2.length ≤ p.2.length + 1 := by
      unfold walk
      split
      next => exact ⟨hp, Nat.le_succ _⟩
      next hdot =>
        split
        next =>
          split
          next => exact ⟨fun n hn => (by cases hn), Nat.zero_le _⟩
          next x up hup =>
            rw [hup] at hp
            refine ⟨fun n hn => hp n (List.mem_cons_of_mem _ hn), ?_⟩
            rw [hup, List.length_cons]
            dsimp only
            omega
        next hdots =>
          refine ⟨fun n hn => ?_, Nat.le_refl _⟩
          rcases List.mem_cons.1 hn with rfl | hn
          · exact ⟨hname, hdot, hdots⟩
          · exact hp n hn
    obtain ⟨hdown, hlen⟩ := ih (fun n hn => h n (List.mem_cons_of_mem _ hn)) _ hwalk.1
    rw [List.foldl_cons, List.length_cons]
    exact ⟨hdown, by omega⟩

theorem place_down (device : Bool) (t : List Char) :
    (∀ n ∈ (place device t).down, GoesDown n) ∧
      (place device t).down.length ≤ (names t).length := by
  have hnames : ∀ n ∈ names t, IsName n := fun n hn => isName_of_mem_names hn
  obtain ⟨hdown, hlen⟩ := walk_spec hnames (0, []) (fun n hn => by cases hn)
  refine ⟨fun n hn => hdown n (List.mem_reverse.1 hn), ?_⟩
  rw [place, List.length_reverse]
  exact hlen

/-! ## Clean paths -/

/-- A path whose names all go down, behind one separator at most. -/
def Clean (t : List Char) : Prop :=
  ∃ l ns, IsLead l ∧ t = text l ns ∧ ∀ n ∈ ns, GoesDown n

/-- The text of a place. -/
def resolved (t : List Char) : List Char := text (lead t) (place false t).down

theorem clean_resolved (t : List Char) : Clean (resolved t) :=
  ⟨lead t, _, isLead_lead t, rfl, (place_down false t).1⟩

theorem Clean.resolved_eq (h : Clean t) : resolved t = t := by
  obtain ⟨l, ns, hl, rfl, hns⟩ := h
  rw [resolved, place_text hl hns, lead_text hl fun n hn => (hns n hn).1]

/-- The first name of a path that begins with no separator. -/
def firstName (t : List Char) : List Char := t.takeWhile fun c => !isSep c

/-- A name, of which a part may be missing at its beginning, and names that go down. -/
def Cut (t : List Char) : Prop :=
  ∃ name ns, t = text [] (name :: ns) ∧ IsName name ∧ ∀ n ∈ ns, GoesDown n

theorem clean_or_cut_tail (h : Clean (c :: t) ∨ Cut (c :: t)) : Clean t ∨ Cut t := by
  have hcut : ∀ name ns, c :: t = text [] (name :: ns) → IsName name → (∀ n ∈ ns, GoesDown n) →
      Clean t ∨ Cut t := by
    intro name ns heq hname hns
    obtain ⟨x, name, rfl⟩ := List.exists_cons_of_ne_nil hname.1
    rw [text_cons, List.nil_append, List.cons_append] at heq
    obtain ⟨rfl, rfl⟩ := List.cons.inj heq
    by_cases hnil : name = []
    · left
      rw [hnil, List.nil_append]
      split
      next => exact ⟨[], [], .inl rfl, rfl, fun n hn => by cases hn⟩
      next => exact ⟨['/'], ns, isLead_slash, rfl, hns⟩
    · right
      refine ⟨name, ns, ?_, ⟨hnil, fun x hx => hname.2 x (List.mem_cons_of_mem _ hx)⟩, hns⟩
      rw [text_cons, List.nil_append]
  rcases h with ⟨l, ns, hl, heq, hns⟩ | ⟨name, ns, heq, hname, hns⟩
  · rcases hl with rfl | ⟨x, rfl, hx⟩
    · cases ns with
      | nil => cases heq
      | cons name ns =>
        exact hcut name ns heq (hns name List.mem_cons_self).1
          fun n hn => hns n (List.mem_cons_of_mem _ hn)
    · left
      rw [text, List.singleton_append] at heq
      exact ⟨[], ns, .inl rfl, (List.cons.inj heq).2, hns⟩
  · exact hcut name ns heq hname hns

theorem firstName_cut {name : List Char} (hname : IsName name) (ns : List (List Char)) :
    firstName (text [] (name :: ns)) = name := by
  have hall : ∀ x ∈ name, (!isSep x) = true := by
    intro x hx
    rw [hname.2 x hx]
    rfl
  rw [firstName, text_cons, List.nil_append, List.takeWhile_append_of_pos hall]
  split
  · simp
  · rw [text, List.singleton_append, List.takeWhile_cons_of_neg (by decide), List.append_nil]

/-- The end of a clean path leads to itself, unless what it begins with stays or goes up. -/
theorem Clean.suffix_iff (h : Clean t) (hs : s <:+ t) :
    resolved s = s ↔ firstName s ≠ ['.'] ∧ firstName s ≠ ['.', '.'] := by
  have hcases : Clean s ∨ Cut s := by
    obtain ⟨pre, rfl⟩ := hs
    have hor : Clean (pre ++ s) ∨ Cut (pre ++ s) := .inl h
    clear h
    induction pre with
    | nil => exact hor
    | cons c pre ih => exact ih (clean_or_cut_tail hor)
  rcases hcases with ⟨l, ns, hl, rfl, hns⟩ | ⟨name, ns, rfl, hname, hns⟩
  · refine iff_of_true (Clean.resolved_eq ⟨l, ns, hl, rfl, hns⟩) ?_
    rcases hl with rfl | ⟨c, rfl, hc⟩
    · cases ns with
      | nil => decide
      | cons name ns =>
        have hname := hns name List.mem_cons_self
        rw [firstName_cut hname.1]
        exact hname.2
    · rw [text, List.singleton_append, firstName, List.takeWhile_cons_of_neg (by simp [hc])]
      decide
  · rw [firstName_cut hname]
    by_cases hdots : name ≠ ['.'] ∧ name ≠ ['.', '.']
    · refine iff_of_true (Clean.resolved_eq ⟨[], name :: ns, .inl rfl, rfl, ?_⟩) hdots
      intro n hn
      rcases List.mem_cons.1 hn with rfl | hn
      · exact ⟨hname, hdots⟩
      · exact hns n hn
    · refine iff_of_false (fun heq => ?_) hdots
      have hall : ∀ n ∈ name :: ns, IsName n := by
        intro n hn
        rcases List.mem_cons.1 hn with rfl | hn
        · exact hname
        · exact (hns n hn).1
      have hdown : (place false (text [] (name :: ns))).down = ns := by
        have hwalk : (walk (0, []) name).2 = [] := by
          unfold walk
          split
          next => rfl
          next hdot =>
            rw [if_pos (by tauto)]
        rw [place, names_text (.inl rfl) hall, List.foldl_cons, walk_goesDown hns, hwalk]
        simp
      rw [resolved, hdown, lead_text (.inl rfl) hall] at heq
      have hlen := congrArg List.length heq
      have hpos : 0 < name.length := List.length_pos_iff.2 hname.1
      have hcons := length_text (l := []) (List.cons_ne_nil name ns)
      rw [size_cons, List.length_nil] at hcons
      by_cases hnil : ns = []
      · rw [hnil] at hlen hcons
        simp only [text_nil, List.length_nil, size_nil] at hlen hcons
        omega
      · have hrest := length_text (l := []) hnil
        rw [List.length_nil] at hrest
        omega

end Vmx.Path
