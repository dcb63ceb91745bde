import Vmx.Os.SymTable

/-!
# Searching a symbol table by value

The search walks all lists and keeps the symbol with the greatest value that is not above the
one wanted.  `Scanned` says what it knows after the nodes of a set.  A symbol with the very
value ends the walk of its own list only: the mutex is given once for each list with such a
symbol and once more at the end, and the symbol itself is forgotten there.
`symFindSymbolByValue_right_iff` says when the answer is right all the same.
-/

namespace Vmx.Sym

open Lib Hash

variable {s : SymTab} {t : HashTable Symbol} {r : ValueSearch} {value type mask n : Nat}

/-- The type of the symbol agrees with `type` in the bits of the mask. -/
def TypeMatch (t : HashTable Symbol) (type mask n : Nat) : Prop :=
  (t.content n).type &&& mask = type &&& mask

instance (t : HashTable Symbol) (type mask n : Nat) : Decidable (TypeMatch t type mask n) :=
  inferInstanceAs (Decidable (_ = _))

/-- What the search knows after the nodes of `P`. -/
structure Scanned (t : HashTable Symbol) (value type mask depth : Nat) (P : Nat → Prop)
    (r : ValueSearch) : Prop where
  close : ∀ n, r.pCloseSym = some n → P n ∧ TypeMatch t type mask n ∧
    (t.content n).value = r.closeValue ∧ r.closeValue ≤ value ∧ 0 < r.closeValue
  noClose : r.pCloseSym = none → r.closeValue = 0
  gives : r.gives = 0 ↔ ∀ n, P n → TypeMatch t type mask n → (t.content n).value ≠ value
  best : r.gives = 0 → ∀ n, P n → TypeMatch t type mask n → (t.content n).value ≤ value →
    (t.content n).value ≤ r.closeValue
  symMutex : r.symMutex = depth + 1 - r.gives

namespace Scanned

variable {P Q : Nat → Prop} {depth : Nat}

theorem congr (h : Scanned t value type mask depth P r) (hPQ : ∀ n, P n ↔ Q n) :
    Scanned t value type mask depth Q r := by
  have heq : P = Q := funext fun n => propext (hPQ n)
  exact heq ▸ h

/-- More nodes without the very value change nothing when they are not better. -/
theorem skip (h : Scanned t value type mask depth P r)
    (hne : ¬ (TypeMatch t type mask n ∧ (t.content n).value = value))
    (hworse : ¬ (TypeMatch t type mask n ∧ (t.content n).value ≤ value ∧
      (t.content n).value > r.closeValue)) :
    Scanned t value type mask depth (fun m => P m ∨ m = n) r where
  close m hm := by
    obtain ⟨hP, hrest⟩ := h.close m hm
    exact ⟨.inl hP, hrest⟩
  noClose := h.noClose
  gives := by
    rw [h.gives]
    constructor
    · intro hall m hm hmatch
      rcases hm with hm | rfl
      · exact hall m hm hmatch
      · exact fun heq => hne ⟨hmatch, heq⟩
    · intro hall m hm
      exact hall m (.inl hm)
  best hzero m hm hmatch hle := by
    rcases hm with hm | rfl
    · exact h.best hzero m hm hmatch hle
    · by_contra hlt
      exact hworse ⟨hmatch, hle, by omega⟩
  symMutex := h.symMutex

/-- A better symbol is remembered. -/
theorem closer (h : Scanned t value type mask depth P r)
    (hne : ¬ (TypeMatch t type mask n ∧ (t.content n).value = value))
    (hbetter : TypeMatch t type mask n ∧ (t.content n).value ≤ value ∧
      (t.content n).value > r.closeValue) :
    Scanned t value type mask depth (fun m => P m ∨ m = n)
      { r with pCloseSym := some n, closeValue := (t.content n).value } where
  close m hm := by
    cases hm
    exact ⟨.inr rfl, hbetter.1, rfl, hbetter.2.1, by have := hbetter.2.2; dsimp only; omega⟩
  noClose hm := by cases hm
  gives := by
    show r.gives = 0 ↔ _
    rw [h.gives]
    constructor
    · intro hall m hm hmatch
      rcases hm with hm | rfl
      · exact hall m hm hmatch
      · exact fun heq => hne ⟨hmatch, heq⟩
    · intro hall m hm
      exact hall m (.inl hm)
  best hzero m hm hmatch hle := by
    show _ ≤ (t.content n).value
    rcases hm with hm | rfl
    · have hbest := h.best hzero m hm hmatch hle
      have hgt := hbetter.2.2
      omega
    · exact Nat.le_refl _
  symMutex := h.symMutex

/-- A symbol with the very value: the mutex is given, and the rest of the list is not seen. -/
theorem exact' (h : Scanned t value type mask depth P r)
    (hexact : TypeMatch t type mask n ∧ (t.content n).value = value) (hn : Q n)
    (hPQ : ∀ m, P m → Q m) :
    Scanned t value type mask depth Q { r with pSymId := some n }.semGive where
  close m hm := by
    obtain ⟨hP, hrest⟩ := h.close m hm
    exact ⟨hPQ m hP, hrest⟩
  noClose := h.noClose
  gives := by
    constructor
    · intro hzero
      exact absurd hzero (Nat.succ_ne_zero _)
    · intro hall
      exact absurd hexact.2 (hall n hn hexact.1)
  best hzero := absurd hzero (Nat.succ_ne_zero _)
  symMutex := by
    show r.symMutex - 1 = depth + 1 - (r.gives + 1)
    have := h.symMutex
    omega

end Scanned

/-- The loop over one list ends, and knows the nodes of the list as well. -/
theorem valueLoop_spec {list : List Nat} {head : Option Nat} {fuel depth : Nat} {P : Nat → Prop}
    (hchain : Chain t.next head list) (hfuel : list.length ≤ fuel)
    (h : Scanned t value type mask depth P r) :
    ∃ r', valueLoop t value type mask fuel head r = some r' ∧
      Scanned t value type mask depth (fun n => P n ∨ n ∈ list) r' := by
  induction list generalizing head fuel P r with
  | nil =>
    obtain rfl : head = none := hchain
    refine ⟨r, by cases fuel <;> rfl, h.congr fun n => ?_⟩
    simp
  | cons n list ih =>
    obtain ⟨rfl, htail⟩ := hchain
    cases fuel with
    | zero =>
      rw [List.length_cons] at hfuel
      omega
    | succ fuel =>
      have hlen : list.length ≤ fuel := by
        rw [List.length_cons] at hfuel
        omega
      have hset : ∀ m, ((P m ∨ m = n) ∨ m ∈ list) ↔ (P m ∨ m ∈ n :: list) := by
        intro m
        rw [List.mem_cons, or_assoc]
      rw [valueLoop]
      by_cases hexact : (t.content n).type &&& mask = type &&& mask ∧ (t.content n).value = value
      · refine ⟨_, if_pos hexact, ?_⟩
        exact h.exact' hexact (.inr List.mem_cons_self) fun m hm => .inl hm
      · rw [if_neg hexact]
        by_cases hbetter : (t.content n).type &&& mask = type &&& mask ∧
            (t.content n).value ≤ value ∧ (t.content n).value > r.closeValue
        · rw [if_pos hbetter]
          obtain ⟨r', hr', hscan⟩ := ih htail hlen (h.closer hexact hbetter)
          exact ⟨r', hr', hscan.congr hset⟩
        · rw [if_neg hbetter]
          obtain ⟨r', hr', hscan⟩ := ih htail hlen (h.skip hexact hbetter)
          exact ⟨r', hr', hscan.congr hset⟩

/-- The nodes of the lists before list `i`. -/
def InLists (t : HashTable Symbol) (i n : Nat) : Prop := n ∈ t.nodes ∧ t.key n < i

theorem bucketsLoop_spec {fuel depth : Nat} (hgood : Good t) (hfuel : t.nodes.length ≤ fuel)
    (k i : Nat) (h : Scanned t value type mask depth (InLists t i) r) :
    ∃ r', bucketsLoop fuel t value type mask k i r = some r' ∧
      Scanned t value type mask depth (InLists t (i + k)) r' := by
  induction k generalizing i r with
  | zero => exact ⟨r, rfl, h⟩
  | succ k ih =>
    rw [bucketsLoop]
    obtain ⟨list, hchain, _, hmem⟩ := hgood.lists i
    have hsub : list ⊆ t.nodes := fun n hn => ((hmem n).1 hn).1
    have hlen : list.length ≤ t.nodes.length :=
      (List.subperm_of_subset hchain.nodup hsub).length_le
    obtain ⟨r', hr', hscan⟩ := valueLoop_spec hchain (Nat.le_trans hlen hfuel) h
    rw [hr', show i + (k + 1) = i + 1 + k by omega]
    apply ih (i + 1)
    refine hscan.congr fun n => ?_
    rw [InLists, InLists, hmem]
    constructor
    · rintro (⟨hn, hlt⟩ | ⟨hn, heq⟩)
      · exact ⟨hn, by omega⟩
      · exact ⟨hn, by omega⟩
    · rintro ⟨hn, hlt⟩
      by_cases heq : t.key n = i
      · exact .inr ⟨hn, heq⟩
      · exact .inl ⟨hn, by omega⟩

/-- Every symbol is in one of the lists. -/
theorem key_lt (hnamed : Named s) (hpos : 0 < s.nameHash.numElements) (n : Nat) :
    s.nameHash.key n < s.nameHash.numElements := by
  unfold HashTable.key
  rw [hnamed.2, symHashFuncName]
  rw [BitVec.toNat_and, BitVec.toNat_ofNat]
  have hle := Nat.and_le_right
    (n := (((((s.nameHash.content n).name.map charBits).foldl (· + ·) 0 *
      BitVec.ofInt 32 s.nameHash.keyArg).sshiftRight
        (33 - Os.ffsMsb s.nameHash.numElements))).toNat)
    (m := (s.nameHash.numElements - 1) % 2 ^ 32)
  have hmod := Nat.mod_le (s.nameHash.numElements - 1) (2 ^ 32)
  omega

/-! ## The answer -/

/-- A symbol of the table whose type matches. -/
def Matching (s : SymTab) (type mask n : Nat) : Prop :=
  n ∈ s.nameHash.nodes ∧ TypeMatch s.nameHash type mask n

/-- The value of a symbol. -/
abbrev SymTab.valueOf (s : SymTab) (n : Nat) : Nat := (s.nameHash.content n).value

/-- The answer is the symbol with the value, or else one with the greatest value below it, or
else that there is none, and the mutex was given once. -/
structure ByValueRight (s : SymTab) (value type mask : Nat) (r : ValueResult) : Prop where
  exact : (∃ n, Matching s type mask n ∧ s.valueOf n = value) →
    r.status = true ∧ ∃ n, r.pSymId = some n ∧ Matching s type mask n ∧ s.valueOf n = value
  closest : (∀ n, Matching s type mask n → s.valueOf n ≠ value) →
    (∃ n, Matching s type mask n ∧ s.valueOf n ≤ value) →
    r.status = true ∧ ∃ n, r.pSymId = some n ∧ Matching s type mask n ∧ s.valueOf n ≤ value ∧
      ∀ m, Matching s type mask m → s.valueOf m ≤ value → s.valueOf m ≤ s.valueOf n
  error : r.status = false ↔ ∀ n, Matching s type mask n → value < s.valueOf n
  released : r.gives = 1

/-- The whole walk ends, and knows every symbol of the table. -/
theorem bucketsLoop_total (hgood : SymGood s) (hnamed : Named s)
    (hpos : 0 < s.nameHash.numElements) {fuel : Nat} (hfuel : s.nameHash.nodes.length ≤ fuel)
    (value type mask : Nat) :
    ∃ r, bucketsLoop fuel s.nameHash value type mask s.nameHash.numElements 0
        { pCloseSym := none, closeValue := 0, pSymId := none, symMutex := s.symMutex + 1
          gives := 0 } = some r ∧
      Scanned s.nameHash value type mask s.symMutex (fun n => n ∈ s.nameHash.nodes) r := by
  have hstart : Scanned s.nameHash value type mask s.symMutex (InLists s.nameHash 0)
      { pCloseSym := none, closeValue := 0, pSymId := none, symMutex := s.symMutex + 1
        gives := 0 } := by
    refine ⟨fun n hn => (nomatch hn), fun _ => rfl, ?_, ?_, rfl⟩
    · simp [InLists]
    · simp [InLists]
  obtain ⟨r, hr, hscan⟩ := bucketsLoop_spec hgood.1 hfuel s.nameHash.numElements 0 hstart
  refine ⟨r, hr, hscan.congr fun n => ?_⟩
  rw [InLists, Nat.zero_add]
  exact and_iff_left (key_lt hnamed hpos n)

/-- A search by value ends.  Its answer is right and the mutex given once if and only if no
symbol that matches has the very value and, when one is at or below the value, one of these is
not at 0. -/
theorem symFindSymbolByValue_right_iff (hgood : SymGood s) (hnamed : Named s)
    (hpos : 0 < s.nameHash.numElements) {fuel : Nat} (hfuel : s.nameHash.nodes.length ≤ fuel)
    (value type mask : Nat) :
    ∃ r, symFindSymbolByValue fuel s value type mask = some r ∧
      (ByValueRight s value type mask r ↔
        (∀ n, Matching s type mask n → s.valueOf n ≠ value) ∧
          ((∃ n, Matching s type mask n ∧ s.valueOf n ≤ value) →
            ∃ n, Matching s type mask n ∧ 0 < s.valueOf n ∧ s.valueOf n ≤ value)) := by
  obtain ⟨r, hr, hscan⟩ := bucketsLoop_total hgood hnamed hpos hfuel value type mask
  refine ⟨_, Option.map_eq_some_iff.2 ⟨r, hr, rfl⟩, ?_⟩
  have hgives : r.gives = 0 ↔ ∀ n, Matching s type mask n → s.valueOf n ≠ value := by
    rw [hscan.gives]
    constructor
    · intro hall n hn
      exact hall n hn.1 hn.2
    · intro hall n hn hmatch
      exact hall n ⟨hn, hmatch⟩
  have hsemGive : r.semGive.gives = r.gives + 1 := rfl
  by_cases hnone : r.closeValue = 0 ∨ r.pCloseSym = none
  · -- nothing above 0 was found
    have hzero : r.closeValue = 0 := by
      rcases hnone with hzero | hclose
      · exact hzero
      · exact hscan.noClose hclose
    rw [if_pos hnone]
    constructor
    · intro hright
      have hno := hgives.1 (by
        have := hright.released
        dsimp only at this
        omega)
      refine ⟨hno, fun hex => ?_⟩
      exact absurd (hright.closest hno hex).1 Bool.false_ne_true
    · intro ⟨hno, hbelow⟩
      have hg := hgives.2 hno
      have hfar : ∀ n, Matching s type mask n → value < s.valueOf n := by
        intro n hn
        by_contra hle
        obtain ⟨m, hm, hmpos, hmle⟩ := hbelow ⟨n, hn, by omega⟩
        have hbest : s.valueOf m ≤ r.closeValue := hscan.best hg m hm.1 hm.2 hmle
        omega
      refine ⟨?_, ?_, iff_of_true rfl hfar, ?_⟩
      · intro ⟨n, hn, heq⟩
        exact absurd heq (hno n hn)
      · intro _ ⟨n, hn, hle⟩
        have := hfar n hn
        omega
      · dsimp only
        omega
  · rw [if_neg hnone]
    rw [not_or] at hnone
    obtain ⟨n, hclose⟩ := Option.ne_none_iff_exists'.1 hnone.2
    obtain ⟨hn, hmatch, hval, hle, hpos'⟩ := hscan.close n hclose
    have hbelow : ∃ n, Matching s type mask n ∧ 0 < s.valueOf n ∧ s.valueOf n ≤ value :=
      ⟨n, ⟨hn, hmatch⟩, by rw [SymTab.valueOf, hval]; exact hpos', by
        rw [SymTab.valueOf, hval]; exact hle⟩
    constructor
    · intro hright
      have hno := hgives.1 (by
        have := hright.released
        dsimp only at this
        omega)
      exact ⟨hno, fun _ => hbelow⟩
    · intro ⟨hno, _⟩
      have hg := hgives.2 hno
      refine ⟨?_, ?_, ?_, ?_⟩
      · intro ⟨m, hm, heq⟩
        exact absurd heq (hno m hm)
      · intro _ _
        refine ⟨rfl, n, hclose, ⟨hn, hmatch⟩, by rw [SymTab.valueOf, hval]; exact hle, ?_⟩
        intro m hm hmle
        rw [SymTab.valueOf, SymTab.valueOf, hval]
        exact hscan.best hg m hm.1 hm.2 hmle
      · refine iff_of_false (by simp) fun hfar => ?_
        have := hfar n ⟨hn, hmatch⟩
        rw [SymTab.valueOf, hval] at this
        omega
      · dsimp only
        omega

/-! ## One symbol -/

/-- The table with the one symbol of `exampleOps`. -/
def oneSymbol : SymTab := putSymbol
  { exampleTable with
    nameHash := { exampleTable.nameHash with
      content := Function.update exampleTable.nameHash.content 1 exampleSymbol } } 1

theorem symGood_oneSymbol : SymGood oneSymbol := by
  have hinit : SymGood exampleTable := (inv_init _ _ _ _).1
  have hwrite : SymGood { exampleTable with
      nameHash := { exampleTable.nameHash with
        content := Function.update exampleTable.nameHash.content 1 exampleSymbol } } :=
    ⟨good_write hinit.1 (by decide) exampleSymbol, hinit.2⟩
  exact symGood_put hwrite (by decide) _

/-- A value above that of the symbol. -/
theorem symFindSymbolByValue_right_above :
    ∃ r, symFindSymbolByValue 1 oneSymbol 5000 5 255 = some r ∧
      ByValueRight oneSymbol 5000 5 255 r := by
  obtain ⟨r, hr, hright⟩ := symFindSymbolByValue_right_iff symGood_oneSymbol ⟨rfl, rfl⟩
    (by decide) (Nat.le_refl 1) 5000 5 255
  refine ⟨r, hr, hright.2 ⟨?_, fun _ => ⟨1, ⟨by decide, by decide⟩, by decide, by decide⟩⟩⟩
  intro n hn
  have hmem : n ∈ [1] := hn.1
  obtain rfl : n = 1 := by simpa using hmem
  decide

/-- The very value of the symbol: it is not found, and the mutex is given twice. -/
theorem not_symFindSymbolByValue_right :
    SymGood oneSymbol ∧ Named oneSymbol ∧ Matching oneSymbol 5 255 1 ∧ oneSymbol.valueOf 1 = 4096 ∧
      ∃ r, symFindSymbolByValue 1 oneSymbol 4096 5 255 = some r ∧ r.status = false ∧
        r.gives = 2 ∧ ¬ ByValueRight oneSymbol 4096 5 255 r := by
  have hanswer : (symFindSymbolByValue 1 oneSymbol 4096 5 255).map
      (fun r => (r.status, r.gives)) = some (false, 2) := by decide
  obtain ⟨r, hr, heq⟩ := Option.map_eq_some_iff.1 hanswer
  obtain ⟨hstatus, hgives⟩ := Prod.mk.inj heq
  refine ⟨symGood_oneSymbol, ⟨rfl, rfl⟩, ⟨by decide, by decide⟩, by decide, r, hr, hstatus,
    hgives, fun hright => ?_⟩
  have hone := hright.released
  omega

end Vmx.Sym
