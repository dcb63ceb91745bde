import Mathlib.Data.List.Nodup
import Mathlib.Logic.Function.Basic

/-!
# Free lists

Several lists keep the free members of a set.  Every member has a home, and a free one is on the
list of its home, once.  A list gives its first member away, and takes a member that is not free.
-/

namespace Vmx.Lib

universe u v

variable {ι : Type u} {α : Type v}

/-- Each free member is on the list of its home, once, and nothing else is on a list. -/
structure FreeLists (lists : ι → List α) (home : α → ι) (dom free : α → Prop) : Prop where
  nodup : ∀ i, (lists i).Nodup
  mem : ∀ i a, a ∈ lists i ↔ dom a ∧ home a = i ∧ free a

namespace FreeLists

variable {lists lists' : ι → List α} {home : α → ι} {dom free free' : α → Prop} {i : ι} {a : α}
  {rest : List α}

/-- A list that is not empty gives its first member away. -/
theorem pop (h : FreeLists lists home dom free) (hi : lists i = a :: rest)
    (hhead : lists' i = rest) (hothers : ∀ j, j ≠ i → lists' j = lists j)
    (hfree : ∀ b, free' b ↔ free b ∧ b ≠ a) : FreeLists lists' home dom free' := by
  have hnodup := h.nodup i
  rw [hi, List.nodup_cons] at hnodup
  have ha := (h.mem i a).1 (by simp [hi])
  refine ⟨fun j => ?_, fun j b => ?_⟩
  · by_cases hj : j = i
    · subst hj
      rw [hhead]
      exact hnodup.2
    · rw [hothers j hj]
      exact h.nodup j
  · have hmem := h.mem j b
    by_cases hj : j = i
    · subst hj
      rw [hi, List.mem_cons] at hmem
      rw [hhead, hfree]
      constructor
      · intro hb
        obtain ⟨hdom, hhome, hfr⟩ := hmem.1 (.inr hb)
        exact ⟨hdom, hhome, hfr, fun heq => hnodup.1 (heq ▸ hb)⟩
      · rintro ⟨hdom, hhome, hfr, hne⟩
        exact (hmem.2 ⟨hdom, hhome, hfr⟩).resolve_left hne
    · rw [hothers j hj, hmem, hfree]
      constructor
      · rintro ⟨hdom, hhome, hfr⟩
        refine ⟨hdom, hhome, hfr, fun heq => hj ?_⟩
        rw [← hhome, heq, ha.2.1]
      · rintro ⟨hdom, hhome, hfr, _⟩
        exact ⟨hdom, hhome, hfr⟩

/-- A list takes a member back. -/
theorem push (h : FreeLists lists home dom free) (hdom : dom a) (hhome : home a = i)
    (hnot : ¬ free a) (hhead : lists' i = a :: lists i)
    (hothers : ∀ j, j ≠ i → lists' j = lists j) (hfree : ∀ b, free' b ↔ free b ∨ b = a) :
    FreeLists lists' home dom free' := by
  have hnotmem : a ∉ lists i := fun ha => hnot ((h.mem i a).1 ha).2.2
  refine ⟨fun j => ?_, fun j b => ?_⟩
  · by_cases hj : j = i
    · subst hj
      rw [hhead]
      exact List.nodup_cons.2 ⟨hnotmem, h.nodup j⟩
    · rw [hothers j hj]
      exact h.nodup j
  · by_cases hj : j = i
    · subst hj
      rw [hhead, List.mem_cons, h.mem, hfree]
      constructor
      · rintro (rfl | ⟨hd, hh, hf⟩)
        · exact ⟨hdom, hhome, .inr rfl⟩
        · exact ⟨hd, hh, .inl hf⟩
      · rintro ⟨hd, hh, hf | hf⟩
        · exact .inr ⟨hd, hh, hf⟩
        · exact .inl hf
    · rw [hothers j hj, h.mem, hfree]
      constructor
      · rintro ⟨hd, hh, hf⟩
        exact ⟨hd, hh, .inl hf⟩
      · rintro ⟨hd, hh, hf | rfl⟩
        · exact ⟨hd, hh, hf⟩
        · exact absurd (hh.symm.trans hhome) hj

/-- Only what the lists hold, where members live and which are free matters. -/
theorem congr {home' : α → ι} {dom' : α → Prop} (h : FreeLists lists home dom free)
    (hlists : ∀ i, lists' i = lists i)
    (hmem : ∀ a, dom' a ∧ free' a ↔ dom a ∧ free a) (hhome : ∀ a, dom a → home' a = home a) :
    FreeLists lists' home' dom' free' := by
  refine ⟨fun i => by rw [hlists]; exact h.nodup i, fun i a => ?_⟩
  rw [hlists, h.mem]
  constructor
  · rintro ⟨hd, hh, hf⟩
    obtain ⟨hd', hf'⟩ := (hmem a).2 ⟨hd, hf⟩
    exact ⟨hd', (hhome a hd).trans hh, hf'⟩
  · rintro ⟨hd', hh, hf'⟩
    obtain ⟨hd, hf⟩ := (hmem a).1 ⟨hd', hf'⟩
    exact ⟨hd, (hhome a hd).symm.trans hh, hf⟩

/-- A new list comes with its own new members. -/
theorem grow {dom' : α → Prop} {home' : α → ι} (h : FreeLists lists home dom free)
    (i : ι) (rest : List α) (hrest : rest.Nodup) (hempty : ∀ b, dom b → home b ≠ i)
    (hhead : lists' i = rest)
    (hothers : ∀ j, j ≠ i → lists' j = lists j) (hdom : ∀ b, dom' b ↔ dom b ∨ b ∈ rest)
    (hhome : ∀ b, dom b → home' b = home b)
    (hnew : ∀ b ∈ rest, home' b = i ∧ free b) : FreeLists lists' home' dom' free := by
  refine ⟨fun j => ?_, fun j b => ?_⟩
  · by_cases hj : j = i
    · subst hj
      rw [hhead]
      exact hrest
    · rw [hothers j hj]
      exact h.nodup j
  · by_cases hj : j = i
    · subst hj
      rw [hhead, hdom]
      constructor
      · intro hb
        exact ⟨.inr hb, (hnew b hb).1, (hnew b hb).2⟩
      · rintro ⟨hd | hb, hh, -⟩
        · exact absurd ((hhome b hd).symm.trans hh) (hempty b hd)
        · exact hb
    · rw [hothers j hj, h.mem, hdom]
      constructor
      · rintro ⟨hd, hh, hf⟩
        exact ⟨.inl hd, (hhome b hd).trans hh, hf⟩
      · rintro ⟨hd | hb, hh, hf⟩
        · exact ⟨hd, (hhome b hd).symm.trans hh, hf⟩
        · exact absurd (hh.symm.trans (hnew b hb).1) hj

end FreeLists

end Vmx.Lib
