import Mathlib.Data.List.TakeWhile
import Mathlib.Tactic.Common

/-!
# The words of a text

A text is cut at its separators; the words are the parts that are not empty.
-/

namespace Vmx.Lib

universe u

variable {α : Type u} {isSep : α → Bool} {word t : List α} {c : α}

/-- The parts of a text between separators that are not empty. -/
def words (isSep : α → Bool) (t : List α) : List (List α) :=
  (t.splitOnP isSep).filter (· ≠ [])

@[simp] theorem words_nil : words isSep [] = [] := by simp [words]

theorem words_sep (h : isSep c = true) (t : List α) : words isSep (c :: t) = words isSep t := by
  rw [words, List.splitOnP_cons_eq_if_modifyHead, if_pos h, List.filter_cons_of_neg (by simp)]
  rfl

theorem words_singleton (hne : word ≠ []) (h : ∀ c ∈ word, isSep c = false) :
    words isSep word = [word] := by
  rw [words, List.splitOnP_eq_singleton h, List.filter_cons_of_pos (by simpa using hne),
    List.filter_nil]

theorem words_append (hne : word ≠ []) (h : ∀ c ∈ word, isSep c = false) (hc : isSep c = true)
    (t : List α) : words isSep (word ++ c :: t) = word :: words isSep t := by
  rw [words, List.splitOnP_append_cons_of_forall_mem h c hc,
    List.filter_cons_of_pos (by simpa using hne)]
  rfl

/-- Separators at the front do not count. -/
theorem words_dropWhile (t : List α) : words isSep (t.dropWhile isSep) = words isSep t := by
  induction t with
  | nil => rfl
  | cons c t ih =>
    cases hc : isSep c with
    | true => rw [List.dropWhile_cons_of_pos hc, ih, words_sep hc]
    | false => rw [List.dropWhile_cons_of_neg (by simp [hc])]

/-- The first word of a text that begins with no separator, and the others. -/
theorem words_takeWhile (hc : isSep c = false) (t : List α) :
    words isSep (c :: t) = (c :: t).takeWhile (fun x => !isSep x) ::
      words isSep ((c :: t).dropWhile fun x => !isSep x) := by
  have hne : (c :: t).takeWhile (fun x => !isSep x) ≠ [] := by simp [hc]
  have hname : ∀ x ∈ (c :: t).takeWhile (fun x => !isSep x), isSep x = false := by
    intro x hx
    simpa using List.mem_takeWhile_imp hx
  conv_lhs => rw [← List.takeWhile_append_dropWhile (p := fun x => !isSep x) (l := c :: t)]
  cases hrest : (c :: t).dropWhile fun x => !isSep x with
  | nil => rw [List.append_nil, words_singleton hne hname, words_nil]
  | cons d rest =>
    have hd : isSep d = true := by
      have hhead := List.head?_dropWhile_not (fun x => !isSep x) (c :: t)
      rw [hrest] at hhead
      simpa using hhead
    rw [words_append hne hname hd, words_sep hd]

end Vmx.Lib
