import Mathlib.Algebra.BigOperators.Group.Finset.Basic
import Mathlib.Algebra.Order.BigOperators.Group.Finset
import Mathlib.Data.Finset.Max
import Mathlib.Order.Interval.Finset.Nat
import Mathlib.Logic.Function.Basic

/-!
# Tilings with links

Regions of memory are cut into tiles.  A tile is known by its address, has a size and
a link to the tile before it, and the tile after it is found through the size.  The
first tiles of the regions have no tile before them and the last ones none after
them.

A tile can be split in two (`Tiling.split`), two neighbours can be merged
(`Tiling.merge`), and tilings of different memory can be put together
(`Tiling.union`).  The tiles cover a region without gaps (`Tiling.cover`), and they
are not larger together than the memory (`sum_length_le`).
-/

namespace Vmx.Lib

/-- Tiles at the addresses of `tiles`, each linked with its neighbours. -/
structure Tiling (first last : Nat → Prop) (tiles : Finset Nat) (size prev : Nat → Nat) :
    Prop where
  pos : ∀ a ∈ tiles, 0 < size a
  apart : ∀ a ∈ tiles, ∀ b ∈ tiles, a < b → a + size a ≤ b
  next : ∀ a ∈ tiles, ¬ last a → a + size a ∈ tiles ∧ prev (a + size a) = a
  prev : ∀ a ∈ tiles, ¬ first a → prev a ∈ tiles ∧ prev a + size (prev a) = a

namespace Tiling

variable {first last : Nat → Prop} {tiles : Finset Nat} {size prev : Nat → Nat} {a b : Nat}

theorem empty : Tiling first last ∅ size prev := by
  constructor <;> simp

/-- Only the sizes and the links of the tiles matter. -/
theorem congr {size' prev' : Nat → Nat} (h : Tiling first last tiles size prev)
    (hs : ∀ a ∈ tiles, size' a = size a) (hp : ∀ a ∈ tiles, prev' a = prev a) :
    Tiling first last tiles size' prev' where
  pos a ha := by
    rw [hs a ha]
    exact h.pos a ha
  apart a ha b hb hab := by
    rw [hs a ha]
    exact h.apart a ha b hb hab
  next a ha hl := by
    obtain ⟨hn, hback⟩ := h.next a ha hl
    rw [hs a ha, hp _ hn]
    exact ⟨hn, hback⟩
  prev a ha hf := by
    obtain ⟨hm, hforth⟩ := h.prev a ha hf
    rw [hp a ha, hs _ hm]
    exact ⟨hm, hforth⟩

/-- More regions may begin and end. -/
theorem mono {first' last' : Nat → Prop} (h : Tiling first last tiles size prev)
    (hf : ∀ a, first a → first' a) (hl : ∀ a, last a → last' a) :
    Tiling first' last' tiles size prev :=
  ⟨h.pos, h.apart, fun a ha hn => h.next a ha fun hla => hn (hl a hla),
    fun a ha hn => h.prev a ha fun hfa => hn (hf a hfa)⟩

/-- Tilings of different memory. -/
theorem union {tiles' : Finset Nat} (h : Tiling first last tiles size prev)
    (h' : Tiling first last tiles' size prev)
    (hd : ∀ a ∈ tiles, ∀ b ∈ tiles', a + size a ≤ b ∨ b + size b ≤ a) :
    Tiling first last (tiles ∪ tiles') size prev where
  pos a ha := by
    rcases Finset.mem_union.1 ha with ha | ha
    · exact h.pos a ha
    · exact h'.pos a ha
  apart a ha b hb hab := by
    rcases Finset.mem_union.1 ha with ha | ha <;> rcases Finset.mem_union.1 hb with hb | hb
    · exact h.apart a ha b hb hab
    · have := hd a ha b hb
      omega
    · have := hd b hb a ha
      omega
    · exact h'.apart a ha b hb hab
  next a ha hl := by
    rcases Finset.mem_union.1 ha with ha | ha
    · exact ⟨Finset.mem_union_left _ (h.next a ha hl).1, (h.next a ha hl).2⟩
    · exact ⟨Finset.mem_union_right _ (h'.next a ha hl).1, (h'.next a ha hl).2⟩
  prev a ha hf := by
    rcases Finset.mem_union.1 ha with ha | ha
    · exact ⟨Finset.mem_union_left _ (h.prev a ha hf).1, (h.prev a ha hf).2⟩
    · exact ⟨Finset.mem_union_right _ (h'.prev a ha hf).1, (h'.prev a ha hf).2⟩

/-- No tile begins inside another one. -/
theorem not_mem_inside (h : Tiling first last tiles size prev) (ha : a ∈ tiles) (hlt : a < b)
    (hb : b < a + size a) : b ∉ tiles := fun hmem => by
  have := h.apart a ha b hmem hlt
  omega

/-- A tile is the only one before the next one. -/
theorem eq_of_next (h : Tiling first last tiles size prev) (ha : a ∈ tiles) (hb : b ∈ tiles)
    (heq : a + size a = b + size b) : a = b := by
  have hpa := h.pos a ha
  have hpb := h.pos b hb
  rcases Nat.lt_trichotomy a b with hlt | heq' | hlt
  · have := h.apart a ha b hb hlt
    omega
  · exact heq'
  · have := h.apart b hb a ha hlt
    omega

/-- The first `k` units of a tile become a tile of their own. -/
theorem split (h : Tiling first last tiles size prev) (ha : a ∈ tiles) (hla : ¬ last a) {k : Nat}
    (hk : 0 < k) (hlt : k < size a) :
    Tiling first last (insert (a + k) tiles)
      (Function.update (Function.update size a k) (a + k) (size a - k))
      (Function.update (Function.update prev (a + k) a) (a + size a) (a + k)) := by
  have hne : a + k ≠ a := by omega
  have hend : a + size a ≠ a + k := by omega
  have hnew : a + k ∉ tiles := h.not_mem_inside ha (by omega) (by omega)
  obtain ⟨hnext, hback⟩ := h.next a ha hla
  have hsize_a : Function.update (Function.update size a k) (a + k) (size a - k) a = k := by
    rw [Function.update_of_ne hne.symm, Function.update_self]
  have hsize : ∀ b ∈ tiles, b ≠ a →
      Function.update (Function.update size a k) (a + k) (size a - k) b = size b := by
    intro b hb hba
    have hbk : b ≠ a + k := fun heq => hnew (heq ▸ hb)
    rw [Function.update_of_ne hbk, Function.update_of_ne hba]
  have hprev : ∀ b ∈ tiles, b ≠ a + size a →
      Function.update (Function.update prev (a + k) a) (a + size a) (a + k) b = prev b := by
    intro b hb hba
    have hbk : b ≠ a + k := fun heq => hnew (heq ▸ hb)
    rw [Function.update_of_ne hba, Function.update_of_ne hbk]
  constructor
  · intro b hb
    rcases Finset.mem_insert.1 hb with rfl | hb
    · rw [Function.update_self]
      omega
    · by_cases hba : b = a
      · rw [hba, hsize_a]
        exact hk
      · rw [hsize b hb hba]
        exact h.pos b hb
  · intro b hb c hc hbc
    rcases Finset.mem_insert.1 hb with rfl | hb
    · rw [Function.update_self]
      rcases Finset.mem_insert.1 hc with rfl | hc
      · omega
      · have := h.apart a ha c hc (by omega)
        omega
    · by_cases hba : b = a
      · subst hba
        rw [hsize_a]
        rcases Finset.mem_insert.1 hc with rfl | hc
        · omega
        · have := h.apart b ha c hc hbc
          omega
      · rw [hsize b hb hba]
        rcases Finset.mem_insert.1 hc with rfl | hc
        · rcases Nat.lt_or_gt_of_ne hba with hlt' | hgt
          · have := h.apart b hb a ha hlt'
            omega
          · have := h.apart a ha b hb hgt
            omega
        · exact h.apart b hb c hc hbc
  · intro b hb hlb
    rcases Finset.mem_insert.1 hb with rfl | hb
    · have hsum : a + k + (size a - k) = a + size a := by omega
      rw [Function.update_self, hsum, Function.update_self]
      exact ⟨Finset.mem_insert_of_mem hnext, rfl⟩
    · by_cases hba : b = a
      · subst hba
        rw [hsize_a, Function.update_of_ne hend.symm, Function.update_self]
        exact ⟨Finset.mem_insert_self _ _, rfl⟩
      · obtain ⟨hbn, hbb⟩ := h.next b hb hlb
        rw [hsize b hb hba, hprev _ hbn fun heq => hba (h.eq_of_next hb ha heq)]
        exact ⟨Finset.mem_insert_of_mem hbn, hbb⟩
  · intro b hb hfb
    rcases Finset.mem_insert.1 hb with rfl | hb
    · rw [Function.update_of_ne hend.symm, Function.update_self, hsize_a]
      exact ⟨Finset.mem_insert_of_mem ha, rfl⟩
    · by_cases hbe : b = a + size a
      · rw [hbe, Function.update_self, Function.update_self]
        exact ⟨Finset.mem_insert_self _ _, by omega⟩
      · obtain ⟨hpm, hpe⟩ := h.prev b hb hfb
        have hpa : prev b ≠ a := by
          intro heq
          rw [heq] at hpe
          exact hbe hpe.symm
        rw [hprev b hb hbe, hsize _ hpm hpa]
        exact ⟨Finset.mem_insert_of_mem hpm, hpe⟩

/-- A tile takes the next one in. -/
theorem merge (h : Tiling first last tiles size prev) (ha : a ∈ tiles) (hla : ¬ last a)
    (hlb : ¬ last (a + size a)) :
    Tiling first last (tiles.erase (a + size a))
      (Function.update size a (size a + size (a + size a)))
      (Function.update prev (a + size a + size (a + size a)) a) := by
  obtain ⟨hb, hback⟩ := h.next a ha hla
  set b := a + size a with hbdef
  obtain ⟨hc, hcback⟩ := h.next b hb hlb
  have hpa := h.pos a ha
  have hpb := h.pos b hb
  have hsize : ∀ d, d ≠ a → Function.update size a (size a + size b) d = size d :=
    fun d hd => Function.update_of_ne hd _ _
  constructor
  · intro d hd
    rw [Finset.mem_erase] at hd
    by_cases hda : d = a
    · rw [hda, Function.update_self]
      omega
    · rw [hsize d hda]
      exact h.pos d hd.2
  · intro d hd e he hde
    rw [Finset.mem_erase] at hd he
    by_cases hda : d = a
    · subst hda
      rw [Function.update_self]
      have h1 := h.apart d hd.2 e he.2 hde
      have h2 := h.apart b hb e he.2 (by omega)
      omega
    · rw [hsize d hda]
      exact h.apart d hd.2 e he.2 hde
  · intro d hd hld
    rw [Finset.mem_erase] at hd
    by_cases hda : d = a
    · have hsum : a + (size a + size b) = b + size b := by omega
      rw [hda, Function.update_self, hsum, Function.update_self]
      exact ⟨Finset.mem_erase.2 ⟨by omega, hc⟩, rfl⟩
    · obtain ⟨hdn, hdb⟩ := h.next d hd.2 hld
      have hdnb : d + size d ≠ b := fun heq => hda (h.eq_of_next hd.2 ha heq)
      have hdnc : d + size d ≠ b + size b := fun heq => hd.1 (h.eq_of_next hd.2 hb heq)
      rw [hsize d hda, Function.update_of_ne hdnc]
      exact ⟨Finset.mem_erase.2 ⟨hdnb, hdn⟩, hdb⟩
  · intro d hd hfd
    rw [Finset.mem_erase] at hd
    by_cases hdc : d = b + size b
    · rw [hdc, Function.update_self, Function.update_self]
      exact ⟨Finset.mem_erase.2 ⟨by omega, ha⟩, by omega⟩
    · obtain ⟨hpm, hpe⟩ := h.prev d hd.2 hfd
      have hpb' : prev d ≠ b := by
        intro heq
        rw [heq] at hpe
        exact hdc hpe.symm
      have hpa' : prev d ≠ a := by
        intro heq
        rw [heq] at hpe
        exact hd.1 hpe.symm
      rw [Function.update_of_ne hdc, hsize _ hpa']
      exact ⟨Finset.mem_erase.2 ⟨hpb', hpm⟩, hpe⟩

/-- From a tile up to the end of its region there is no gap. -/
theorem cover (h : Tiling first last tiles size prev) (ha : a ∈ tiles) {x : Nat} (hx : a ≤ x)
    (hend : ∀ b ∈ tiles, a ≤ b → last b → x < b + size b) :
    ∃ b ∈ tiles, b ≤ x ∧ x < b + size b := by
  have hne : (tiles.filter (· ≤ x)).Nonempty := ⟨a, Finset.mem_filter.2 ⟨ha, hx⟩⟩
  obtain ⟨b, hb, hmax⟩ := Finset.exists_max_image _ id hne
  rw [Finset.mem_filter] at hb
  have hab : a ≤ b := hmax a (Finset.mem_filter.2 ⟨ha, hx⟩)
  refine ⟨b, hb.1, hb.2, ?_⟩
  by_contra hge
  by_cases hlast : last b
  · exact hge (hend b hb.1 hab hlast)
  · have hnext := (h.next b hb.1 hlast).1
    have hpos := h.pos b hb.1
    have hle : b + size b ≤ b := hmax _ (Finset.mem_filter.2 ⟨hnext, by omega⟩)
    omega

/-- The tile of an address is unique. -/
theorem unique (h : Tiling first last tiles size prev) {x : Nat} (ha : a ∈ tiles)
    (hax : a ≤ x ∧ x < a + size a) (hb : b ∈ tiles) (hbx : b ≤ x ∧ x < b + size b) : a = b := by
  rcases Nat.lt_trichotomy a b with hlt | heq | hlt
  · have := h.apart a ha b hb hlt
    omega
  · exact heq
  · have := h.apart b hb a ha hlt
    omega

end Tiling

/-- Intervals below `n` that do not overlap have at most the length `n` together. -/
theorem sum_length_le {ι : Type*} (s : Finset ι) (start length : ι → Nat)
    (hapart : ∀ i ∈ s, ∀ j ∈ s, i ≠ j →
      start i + length i ≤ start j ∨ start j + length j ≤ start i) {n : Nat}
    (hn : ∀ i ∈ s, start i + length i ≤ n) : ∑ i ∈ s, length i ≤ n := by
  have hdisj : (s : Set ι).PairwiseDisjoint fun i => Finset.Ico (start i) (start i + length i) := by
    intro i hi j hj hij
    show Disjoint _ _
    rw [Finset.disjoint_left]
    intro x hx hy
    rw [Finset.mem_Ico] at hx hy
    have := hapart i hi j hj hij
    omega
  have hunion : ∑ i ∈ s, length i = (s.disjiUnion _ hdisj).card := by
    rw [Finset.card_disjiUnion]
    simp
  rw [hunion]
  calc _ ≤ (Finset.range n).card := by
        apply Finset.card_le_card
        intro x hx
        rw [Finset.mem_disjiUnion] at hx
        obtain ⟨i, hi, hx⟩ := hx
        rw [Finset.mem_Ico] at hx
        have := hn i hi
        rw [Finset.mem_range]
        omega
    _ = n := Finset.card_range n

end Vmx.Lib
