import Vmx.Os.EnvLib
import Mathlib.Data.List.Nodup
import Mathlib.Data.List.TakeWhile

/-!
# The memory of the environments

`Holds m r A L` says that the table `r` is in memory, that its entries have the addresses `A`, and
that the strings there are `L`.  Each operation on the memory is described by what the table holds
behind it and by the tables that it leaves as they are.
-/

namespace Vmx.Os.Env

/-! ## Names -/

variable {name line string : Line} {L pre post : List Line}

theorem isEntryOf_iff (h : ∀ c ∈ name, separator c = false) :
    isEntryOf name line = true ↔ nameOf line = name := by
  induction name generalizing line with
  | nil =>
    cases line with
    | nil => exact iff_of_true rfl rfl
    | cons d line =>
      have hentry : isEntryOf [] (d :: line) = separator d := rfl
      rw [hentry, nameOf, List.takeWhile_cons]
      cases separator d <;> simp
  | cons c name ih =>
    have hc : separator c = false := h c List.mem_cons_self
    cases line with
    | nil => exact iff_of_false Bool.false_ne_true (List.cons_ne_nil c name).symm
    | cons d line =>
      have hentry : isEntryOf (c :: name) (d :: line) = (c == d && isEntryOf name line) := by
        rw [isEntryOf, isEntryOf, List.isPrefixOf, Bool.and_assoc]
        rfl
      rw [hentry, Bool.and_eq_true, beq_iff_eq, ih fun c hc => h c (List.mem_cons_of_mem _ hc),
        nameOf, nameOf, List.takeWhile_cons]
      by_cases hd : separator d = true
      · have hne : c ≠ d := fun heq => by
          rw [heq, hd] at hc
          cases hc
        simp [hd, hne]
      · have hd' : separator d = false := by simpa using hd
        simp [hd', eq_comm]

theorem nameOf_separator (string : Line) : ∀ c ∈ nameOf string, separator c = false := by
  intro c hc
  have hc' := List.mem_takeWhile_imp hc
  simpa using hc'

/-- The value of a variable in a table of strings: that of its first entry. -/
def lookup (L : List Line) (name : Line) : Option Line :=
  (L.find? (isEntryOf name)).map (valueBehind name)

theorem isEntryOf_ne {name' : Line} (hname : ∀ c ∈ name, separator c = false)
    (hname' : ∀ c ∈ name', separator c = false) (hne : name' ≠ name)
    (h : isEntryOf name line = true) : isEntryOf name' line = false := by
  rw [isEntryOf_iff hname] at h
  rw [← Bool.not_eq_true, isEntryOf_iff hname', h]
  exact hne.symm

theorem isEntryOf_self (string : Line) : isEntryOf (nameOf string) string = true :=
  (isEntryOf_iff (nameOf_separator string)).2 rfl

/-- A new entry is found under its name, and the others as before. -/
theorem lookup_append (h : ∀ line ∈ L, isEntryOf (nameOf string) line = false)
    (hname : ∀ c ∈ name, separator c = false) :
    lookup (L ++ [string]) name =
      if name = nameOf string then some (valueBehind (nameOf string) string)
      else lookup L name := by
  rw [lookup, List.find?_append]
  by_cases hn : name = nameOf string
  · have hnone : L.find? (isEntryOf (nameOf string)) = none :=
      List.find?_eq_none.2 fun line hl => by rw [h line hl]; exact Bool.false_ne_true
    rw [if_pos hn, hn, hnone, Option.none_or, List.find?_singleton, if_pos (isEntryOf_self string)]
    rfl
  · have hother := isEntryOf_ne (nameOf_separator string) hname hn (isEntryOf_self string)
    rw [if_neg hn, List.find?_singleton, hother, if_neg Bool.false_ne_true, Option.or_none, lookup]

/-- An entry that is replaced is found with the new value, and the others as before. -/
theorem lookup_replace (hpre : ∀ line ∈ pre, isEntryOf (nameOf string) line = false)
    (hline : isEntryOf (nameOf string) line = true)
    (hname : ∀ c ∈ name, separator c = false) :
    lookup (pre ++ string :: post) name =
      if name = nameOf string then some (valueBehind (nameOf string) string)
      else lookup (pre ++ line :: post) name := by
  rw [lookup, lookup, List.find?_append, List.find?_append, List.find?_cons, List.find?_cons]
  by_cases hn : name = nameOf string
  · have hnone : pre.find? (isEntryOf (nameOf string)) = none :=
      List.find?_eq_none.2 fun line hl => by rw [hpre line hl]; exact Bool.false_ne_true
    rw [if_pos hn, hn, hnone, Option.none_or, isEntryOf_self]
    rfl
  · rw [if_neg hn, isEntryOf_ne (nameOf_separator string) hname hn (isEntryOf_self string),
      isEntryOf_ne (nameOf_separator string) hname hn hline]

/-! ## Tables in memory -/

/-- The table has these addresses in its entries and these strings there. -/
structure Holds (m : Memory) (r : Ref) (A : List Nat) (L : List Line) : Prop where
  table : ∃ t, m.table r.table = some t ∧ t.size = r.size ∧ ∀ i a, A[i]? = some a → t.entries i = a
  count : A.length = r.n
  bound : r.n ≤ r.size
  strings : A.map m.str = L.map some
  nodup : A.Nodup
  table_lt : r.table < m.next
  lt : ∀ a ∈ A, a < m.next

variable {m m' : Memory} {r r' : Ref} {A A' B : List Nat} {L' : List Line} {i a : Nat}

namespace Holds

theorem length_eq (h : Holds m r A L) : L.length = r.n := by
  have hlength := congrArg List.length h.strings
  rw [List.length_map, List.length_map] at hlength
  rw [← hlength, h.count]

theorem entry_eq (h : Holds m r A L) (ha : A[i]? = some a) : m.entry r.table i = some a := by
  obtain ⟨t, ht, hsize, hentries⟩ := h.table
  obtain ⟨hi, -⟩ := List.getElem?_eq_some_iff.1 ha
  have hbound := h.bound
  have hcount := h.count
  rw [Memory.entry, ht, Option.bind_some, if_pos (by omega), hentries i a ha]

theorem str_eq (h : Holds m r A L) (ha : A[i]? = some a) : m.str a = L[i]? := by
  have hstr : (A.map m.str)[i]? = (L.map some)[i]? := by rw [h.strings]
  rw [List.getElem?_map, List.getElem?_map, ha, Option.map_some] at hstr
  cases hl : L[i]? with
  | none =>
    rw [hl] at hstr
    cases hstr
  | some line =>
    rw [hl] at hstr
    exact Option.some.inj hstr

theorem line_eq (h : Holds m r A L) (hl : L[i]? = some line) : m.line r.table i = some line := by
  obtain ⟨hi, -⟩ := List.getElem?_eq_some_iff.1 hl
  have hi' : i < A.length := by
    rw [h.count, ← h.length_eq]
    exact hi
  have ha := List.getElem?_eq_getElem hi'
  rw [Memory.line, h.entry_eq ha, Option.bind_some, h.str_eq ha, hl]

/-- A table holds the same as long as it and its strings are not touched. -/
theorem frame (h : Holds m r A L) (htable : m'.table r.table = m.table r.table)
    (hstr : ∀ a ∈ A, m'.str a = m.str a) (hnext : m.next ≤ m'.next) : Holds m' r A L where
  table := by
    rw [htable]
    exact h.table
  count := h.count
  bound := h.bound
  strings := by
    rw [← h.strings]
    exact List.map_congr_left hstr
  nodup := h.nodup
  table_lt := Nat.lt_of_lt_of_le h.table_lt hnext
  lt a ha := Nat.lt_of_lt_of_le (h.lt a ha) hnext

end Holds

/-- A new table holds nothing. -/
theorem holds_newTable (m : Memory) (size : Nat) :
    Holds (m.newTable size) ⟨m.next, size, 0⟩ [] [] where
  table := ⟨_, Function.update_self _ _ _, rfl, fun i a h => by cases h⟩
  count := rfl
  bound := Nat.zero_le _
  strings := rfl
  nodup := List.nodup_nil
  table_lt := Nat.lt_succ_self _
  lt _ ha := absurd ha List.not_mem_nil

theorem Holds.newTable (h : Holds m r A L) (size : Nat) : Holds (m.newTable size) r A L :=
  h.frame (Function.update_of_ne (Nat.ne_of_lt h.table_lt) _ _) (fun _ _ => rfl) (Nat.le_succ _)

/-- What a string put into the table `p` leaves as it is. -/
theorem Holds.put_other {p : Nat} (h : Holds m r A L) (hne : r.table ≠ p)
    (hput : m.put p i string = some m') : Holds m' r A L := by
  rw [Memory.put] at hput
  obtain ⟨t, -, hput⟩ := Option.bind_eq_some_iff.1 hput
  rw [Option.ite_none_right_eq_some] at hput
  rw [← Option.some.inj hput.2]
  exact h.frame (Function.update_of_ne hne _ _)
    (fun a ha => Function.update_of_ne (Nat.ne_of_lt (h.lt a ha)) _ _) (Nat.le_succ _)

/-- A string put behind the last entry. -/
theorem Holds.put_end (h : Holds m r A L) (hroom : r.n < r.size) (string : Line) :
    ∃ m', m.put r.table r.n string = some m' ∧
      Holds m' ⟨r.table, r.size, r.n + 1⟩ (A ++ [m.next]) (L ++ [string]) ∧
      m'.next = m.next + 1 := by
  obtain ⟨t, ht, hsize, hentries⟩ := h.table
  have hcount := h.count
  refine ⟨_, by rw [Memory.put, ht, Option.bind_some, if_pos (by omega)], ?_, rfl⟩
  refine ⟨⟨_, Function.update_self _ _ _, hsize, fun i a ha => ?_⟩, ?_, hroom, ?_, ?_, ?_, ?_⟩
  · rw [List.getElem?_append] at ha
    split at ha
    · exact (Function.update_of_ne (by omega) _ _).trans (hentries i a ha)
    · obtain ⟨hi, hlast⟩ := List.getElem?_eq_some_iff.1 ha
      have hi' : i = r.n := by
        rw [List.length_singleton] at hi
        omega
      rw [List.getElem_singleton] at hlast
      rw [hi', ← hlast]
      exact Function.update_self _ _ _
  · rw [List.length_append, List.length_singleton, hcount]
  · rw [List.map_append, List.map_append, ← h.strings]
    congr 1
    · exact List.map_congr_left fun a ha => Function.update_of_ne (Nat.ne_of_lt (h.lt a ha)) _ _
    · exact congrArg (fun s => [s]) (Function.update_self _ _ _)
  · rw [← List.concat_eq_append, List.nodup_concat]
    exact ⟨fun hm => Nat.lt_irrefl _ (h.lt _ hm), h.nodup⟩
  · exact Nat.lt_succ_of_lt h.table_lt
  · intro a ha
    rcases List.mem_append.1 ha with ha | ha
    · exact Nat.lt_succ_of_lt (h.lt a ha)
    · rw [List.mem_singleton.1 ha]
      exact Nat.lt_succ_self _

/-! ## Replacing a string -/

theorem Holds.freeString (h : Holds m r A L) (ha : a ∉ A) (hfree : m.freeString a = some m') :
    Holds m' r A L := by
  rw [Memory.freeString] at hfree
  obtain ⟨-, -, rfl⟩ := Option.map_eq_some_iff.1 hfree
  refine h.frame rfl (fun b hb => Function.update_of_ne ?_ _ _) (Nat.le_refl _)
  exact fun heq => ha (heq ▸ hb)

/-- The string of an entry is freed and another one put in its place. -/
theorem Holds.replace (h : Holds m r (A ++ a :: B) (pre ++ line :: post))
    (hlen : A.length = pre.length) (string : Line) :
    ∃ m₁ m', (m.entry r.table pre.length).bind m.freeString = some m₁ ∧
      m.freeString a = some m₁ ∧ m₁.put r.table pre.length string = some m' ∧
      Holds m' r (A ++ m.next :: B) (pre ++ string :: post) := by
  have hentry : (A ++ a :: B)[pre.length]? = some a := by
    rw [← hlen, List.getElem?_append_right (Nat.le_refl _), Nat.sub_self]
    rfl
  have hstr : m.str a = some line := by
    rw [h.str_eq hentry, List.getElem?_append_right (Nat.le_refl _), Nat.sub_self]
    rfl
  obtain ⟨t, ht, hsize, hentries⟩ := h.table
  have hcount := h.count
  have hbound := h.bound
  rw [List.length_append, List.length_cons] at hcount
  have hnodup := h.nodup
  obtain ⟨hA, haB, hdisjoint⟩ := List.nodup_append.1 hnodup
  have haA : ∀ b ∈ A, b ≠ a := fun b hb heq => hdisjoint b hb a List.mem_cons_self heq
  have haB' : a ∉ B := (List.nodup_cons.1 haB).1
  have hfree : m.freeString a = some { m with str := Function.update m.str a none } := by
    rw [Memory.freeString, hstr]
    rfl
  have hlt : ∀ b ∈ A ++ a :: B, b ≠ m.next := fun b hb => Nat.ne_of_lt (h.lt b hb)
  have hstrings := h.strings
  rw [List.map_append, List.map_append, List.map_cons, List.map_cons] at hstrings
  obtain ⟨hpre, hrest⟩ := List.append_inj hstrings (by simp [hlen])
  have hpost := (List.cons_eq_cons.1 hrest).2
  have hkeep : ∀ b ∈ A ++ a :: B, b ≠ a →
      Function.update (Function.update m.str a none) m.next (some string) b = m.str b :=
    fun b hb hne => (Function.update_of_ne (hlt b hb) _ _).trans (Function.update_of_ne hne _ _)
  refine ⟨_, _, by rw [h.entry_eq hentry, Option.bind_some, hfree], hfree,
    by rw [Memory.put, ht, Option.bind_some, if_pos (by omega)], ?_⟩
  refine ⟨⟨_, Function.update_self _ _ _, hsize, fun i b hb => ?_⟩, ?_, hbound, ?_, ?_,
    Nat.lt_succ_of_lt h.table_lt, ?_⟩
  · by_cases hi : i = pre.length
    · rw [hi, ← hlen, List.getElem?_append_right (Nat.le_refl _), Nat.sub_self] at hb
      rw [hi, ← Option.some.inj hb]
      exact Function.update_self _ _ _
    · refine (Function.update_of_ne hi _ _).trans (hentries i b ?_)
      rw [List.getElem?_append] at hb ⊢
      by_cases hlt : i < A.length
      · rw [if_pos hlt] at hb ⊢
        exact hb
      · obtain ⟨k, hk⟩ : ∃ k, i - A.length = k + 1 := ⟨i - A.length - 1, by omega⟩
        rw [if_neg hlt, hk] at hb ⊢
        exact hb
  · rw [List.length_append, List.length_cons]
    exact hcount
  · rw [List.map_append, List.map_append, List.map_cons, List.map_cons, ← hpre, ← hpost]
    congr 1
    · exact List.map_congr_left fun b hb => hkeep b (List.mem_append_left _ hb) (haA b hb)
    · congr 1
      · exact Function.update_self _ _ _
      · exact List.map_congr_left fun b hb => hkeep b
          (List.mem_append_right _ (List.mem_cons_of_mem _ hb)) fun heq => haB' (heq ▸ hb)
  · have hnext : m.next ∉ A ++ B := fun hm => by
      rcases List.mem_append.1 hm with hm | hm
      · exact hlt _ (List.mem_append_left _ hm) rfl
      · exact hlt _ (List.mem_append_right _ (List.mem_cons_of_mem _ hm)) rfl
    rw [List.nodup_middle, List.nodup_cons]
    rw [List.nodup_middle, List.nodup_cons] at hnodup
    exact ⟨hnext, hnodup.2⟩
  · intro b hb
    rcases List.mem_append.1 hb with hb | hb
    · exact Nat.lt_succ_of_lt (h.lt b (List.mem_append_left _ hb))
    · rcases List.mem_cons.1 hb with hb | hb
      · rw [hb]
        exact Nat.lt_succ_self _
      · exact Nat.lt_succ_of_lt (h.lt b (List.mem_append_right _ (List.mem_cons_of_mem _ hb)))

/-! ## Destroying a table -/

theorem Holds.freeTable {p : Nat} (h : Holds m r A L) (hne : r.table ≠ p)
    (hfree : m.freeTable p = some m') : Holds m' r A L := by
  rw [Memory.freeTable] at hfree
  obtain ⟨-, -, rfl⟩ := Option.map_eq_some_iff.1 hfree
  exact h.frame (Function.update_of_ne hne _ _) (fun _ _ => rfl) (Nat.le_refl _)

/-- The loop frees the strings of the entries from `i` on. -/
theorem freeEntries_spec {p n : Nat} (hentries : ∀ k a, A[k]? = some a → m.entry p (i + k) = some a)
    (hstr : ∀ a ∈ A, m.str a ≠ none) (hnodup : A.Nodup) (hn : A.length = n) :
    ∃ m', freeEntries p n i m = some m' ∧ m'.table = m.table ∧
      ∀ r B L, Holds m r B L → B.Disjoint A → Holds m' r B L := by
  induction A generalizing m i n with
  | nil =>
    rw [← hn]
    exact ⟨m, rfl, rfl, fun r B L h _ => h⟩
  | cons a A ih =>
    obtain ⟨ha, hA⟩ := List.nodup_cons.1 hnodup
    obtain ⟨line, hline⟩ := Option.ne_none_iff_exists'.1 (hstr a List.mem_cons_self)
    have hfree : m.freeString a = some { m with str := Function.update m.str a none } := by
      rw [Memory.freeString, hline]
      rfl
    have hfirst : m.entry p i = some a := hentries 0 a rfl
    rw [← hn, List.length_cons, freeEntries, hfirst, Option.bind_some, hfree, Option.bind_some]
    obtain ⟨m', hm', htable, hkeep⟩ := @ih { m with str := Function.update m.str a none } (i + 1)
      A.length (fun k b hb => by
        rw [Nat.add_assoc, Nat.add_comm 1 k]
        exact hentries (k + 1) b hb)
      (fun b hb => by
        have hne : b ≠ a := fun heq => ha (heq ▸ hb)
        dsimp only
        rw [Function.update_of_ne hne]
        exact hstr b (List.mem_cons_of_mem _ hb)) hA rfl
    refine ⟨m', hm', htable, fun r B L h hdisjoint => hkeep r B L ?_ fun b hb hbA => ?_⟩
    · exact h.freeString (fun hm => hdisjoint hm List.mem_cons_self) hfree
    · exact hdisjoint hb (List.mem_cons_of_mem _ hbA)

/-- A table is destroyed, and the others are left as they are. -/
theorem Holds.destroy (h : Holds m r A L) :
    ∃ m', envDestroy m (some r.table) r.n = some m' ∧
      ∀ r' B L', Holds m r' B L' → r'.table ≠ r.table → B.Disjoint A → Holds m' r' B L' := by
  have hstr : ∀ a ∈ A, m.str a ≠ none := fun a ha => by
    obtain ⟨i, hi⟩ := List.mem_iff_getElem?.1 ha
    have hlt := (List.getElem?_eq_some_iff.1 hi).1
    rw [h.str_eq hi, List.getElem?_eq_getElem (by rw [h.length_eq, ← h.count]; exact hlt)]
    exact Option.some_ne_none _
  obtain ⟨m₁, hfree, htable, hkeep⟩ := freeEntries_spec (p := r.table) (i := 0)
    (fun k a hk => by
      rw [Nat.zero_add]
      exact h.entry_eq hk) hstr h.nodup h.count
  obtain ⟨t, ht, -⟩ := h.table
  have hfreed : m₁.freeTable r.table =
      some { m₁ with table := Function.update m₁.table r.table none } := by
    rw [Memory.freeTable, htable, ht]
    rfl
  refine ⟨_, by rw [envDestroy, hfree, Option.bind_some, hfreed],
    fun r' B L' h' hne hdisjoint => ?_⟩
  exact (hkeep r' B L' h' hdisjoint).freeTable hne hfreed

/-! ## Finding an entry -/

/-- The loop finds the first entry of the name. -/
theorem envFindLoop_eq (h : Holds m r A L) {n : Nat} (hn : i + n = L.length) :
    envFindLoop m r.table name n i =
      some (((L.drop i).findIdx? (isEntryOf name)).map (i + ·)) := by
  induction n generalizing i with
  | zero =>
    rw [envFindLoop, List.drop_eq_nil_of_le (by omega)]
    rfl
  | succ n ih =>
    have hi : i < L.length := by omega
    have hline := h.line_eq (List.getElem?_eq_getElem hi)
    rw [envFindLoop, hline, Option.bind_some, List.drop_eq_getElem_cons hi, List.findIdx?_cons]
    by_cases hentry : isEntryOf name L[i] = true
    · rw [if_pos hentry, if_pos hentry]
      rfl
    · rw [if_neg hentry, if_neg hentry, ih (by omega), Option.map_map]
      congr 2
      funext k
      exact Nat.add_right_comm i 1 k

/-! ## Copying a table -/

/-- The loop copies the strings from entry `i` on. -/
theorem copyLoop_spec {src : Ref} {size p n : Nat} {ok : Nat → Bool} (hsrc : Holds m src B L)
    (h : Holds m ⟨p, size, i⟩ A (L.take i)) (hne : src.table ≠ p) (hn : i + n = L.length)
    (hsize : L.length ≤ size) (hok : ∀ k ≤ L.length, ok k = true) :
    ∃ m' A', copyLoop (some src.table) p ok n i m = some (m', L.length, OK) ∧
      Holds m' ⟨p, size, L.length⟩ A' L ∧ (∀ a ∈ A', a ∈ A ∨ m.next ≤ a) ∧
      ∀ r C L', Holds m r C L' → r.table ≠ p → Holds m' r C L' := by
  induction n generalizing i m A with
  | zero =>
    have hi : i = L.length := by omega
    rw [hi, List.take_length] at h
    rw [hi]
    exact ⟨m, A, rfl, h, fun a ha => Or.inl ha, fun r C L' h' _ => h'⟩
  | succ n ih =>
    have hi : i < L.length := by omega
    have hline := hsrc.line_eq (List.getElem?_eq_getElem hi)
    obtain ⟨m₁, hput, hnew, hnext⟩ := h.put_end (Nat.lt_of_lt_of_le hi hsize) L[i]
    have hother : ∀ r C L', Holds m r C L' → r.table ≠ p → Holds m₁ r C L' :=
      fun r C L' h' hne' => h'.put_other hne' hput
    rw [← List.take_succ_eq_append_getElem hi] at hnew
    have hnew' : Holds m₁ ⟨p, size, i + 1⟩ (A ++ [m.next]) (L.take (i + 1)) := hnew
    obtain ⟨m', A', hloop, hholds, hA', hkeep⟩ :=
      ih (hother _ _ _ hsrc hne) hnew' (by omega)
    refine ⟨m', A', ?_, hholds, fun a ha => ?_, fun r C L' h' hne' =>
      hkeep r C L' (hother r C L' h' hne') hne'⟩
    · rw [copyLoop, Option.bind_some, hline, Option.bind_some, if_pos (hok (i + 1) hi), hput,
        Option.bind_some, hloop]
    · rcases hA' a ha with ha | ha
      · rcases List.mem_append.1 ha with ha | ha
        · exact Or.inl ha
        · rw [List.mem_singleton.1 ha]
          exact Or.inr (Nat.le_refl _)
      · rw [hnext] at ha
        exact Or.inr (Nat.le_of_succ_le ha)

end Vmx.Os.Env
