import Vmx.Os.SymByValue

/-!
# The mutex of a symbol table, and the names in it

`call` is one call on a table, which is gone after `symTableDestroy`.  Two calls do not leave
the mutex as they found it: `symTableAdd` keeps it when the same name may not be added twice
and the symbol is new, and a search by value gives it more than once when a symbol has the
very value, which is noticed when the caller holds the mutex (`Unbalanced`).

In a table whose names may not be added twice no two symbols have the same name and type, as
long as nothing that is held is removed (`Sound`).
-/

namespace Vmx.Sym

open Lib Hash

/-- A table, the number of symbols that were ever added, and whether the table still exists. -/
structure Table where
  tab : SymTab
  puts : Nat
  alive : Bool

inductive Call where
  | op (op : Op)
  /-- `symAdd`, which puts the symbol at `symId`. -/
  | add (symId : Nat) (symbol : Symbol)
  | findByValue (value type mask : Nat)
  | each (func : Symbol → Bool)
  | destroy

/-- A call on a table that exists. -/
def call (s : Table) : Call → Option Table
  | .op op => (step (s.tab, s.puts) op).map fun r => { s with tab := r.1, puts := r.2 }
  | .add symId symbol =>
    ((step (s.tab, s.puts) (.write symId symbol)).bind fun r => step r (.tableAdd symId)).map
      fun r => { s with tab := r.1, puts := r.2 }
  | .findByValue value type mask =>
    (symFindSymbolByValue s.puts s.tab value type mask).map fun r => { s with tab := r.symTab }
  | .each func => (symEach s.puts s.tab func).map fun r => { s with tab := r.1 }
  | .destroy =>
    match (symTableDestroy s.tab).1 with
    | none => some { s with alive := false }
    | some tab => some { s with tab := tab }

/-- A call; once the table is gone `OBJ_VERIFY` fails and nothing is done. -/
def callStep (s : Table) (c : Call) : Option Table := if s.alive then call s c else some s

/-- Two symbols have the same name and the same type. -/
def SameNameType (a b : Symbol) : Prop :=
  a.name = b.name ∧ a.type &&& SYM_MASK_ALL = b.type &&& SYM_MASK_ALL

instance (a b : Symbol) : Decidable (SameNameType a b) := inferInstanceAs (Decidable (_ ∧ _))

/-- No two symbols of the table have the same name and type, if that is not wanted. -/
def UniqueNames (s : SymTab) : Prop :=
  s.sameNameOk = false → ∀ a ∈ s.nameHash.nodes, ∀ b ∈ s.nameHash.nodes,
    SameNameType (s.nameHash.content a) (s.nameHash.content b) → a = b

/-- The symbol is new to a table in which no name may be added twice. -/
def NewName (s : SymTab) (symbol : Symbol) : Prop :=
  s.sameNameOk = false ∧
    ∀ n ∈ s.nameHash.nodes, ¬ SameNameType (s.nameHash.content n) symbol

instance (s : SymTab) (symbol : Symbol) : Decidable (NewName s symbol) :=
  inferInstanceAs (Decidable (_ ∧ _))

/-- The calls that change how often the mutex is held. -/
def Unbalanced (s : Table) : Call → Prop
  | .op (.tableAdd symId) => NewName s.tab (s.tab.nameHash.content symId)
  | .add _ symbol => NewName s.tab symbol
  | .findByValue value type mask =>
    0 < s.tab.symMutex ∧ ∃ n ∈ s.tab.nameHash.nodes,
      TypeMatch s.tab.nameHash type mask n ∧ s.tab.valueOf n = value
  | _ => False

/-- Nothing that is held is removed. -/
def SoundCall (s : Table) : Call → Prop
  | .op op => Sound (s.tab, s.puts) op
  | _ => True

variable {s s' : Table} {c : Call}

/-! ## Names -/

/-- An add that is refused leaves the table as it was, and one that is not adds a symbol that
is new to it. -/
theorem symTableAdd_cases {tab tab' : SymTab} {symId fuel : Nat} {ok : Bool}
    (hgood : SymGood tab) (hnamed : Named tab) (hfuel : tab.nameHash.nodes.length ≤ fuel)
    (h : symTableAdd fuel tab symId = some (tab', ok)) :
    (ok = false ∧ tab' = tab ∧ ¬ NewName tab (tab.nameHash.content symId)) ∨
    (ok = true ∧ NewName tab (tab.nameHash.content symId) ∧
      tab' = { putSymbol tab symId with symMutex := tab.symMutex + 1 }) ∨
    (ok = true ∧ tab.sameNameOk = true ∧ tab' = putSymbol tab symId) := by
  unfold symTableAdd at h
  by_cases hsame : tab.sameNameOk = false
  · rw [if_pos hsame] at h
    obtain ⟨r, hr, hsome, hnone⟩ :=
      hashTableFind_spec hgood.1 hnamed.agree symId SYM_MASK_EXACT_TYPE hfuel
    have hmatch : ∀ n, tab.nameHash.cmpFunc tab.nameHash.content symId n SYM_MASK_EXACT_TYPE = true
        ↔ SameNameType (tab.nameHash.content n) (tab.nameHash.content symId) := by
      intro n
      rw [hnamed.1, symHashKeyCmpName, if_neg (by decide), Bool.and_eq_true, beq_iff_eq, beq_iff_eq,
        SameNameType, and_comm, eq_comm (a := (tab.nameHash.content symId).name)]
      rfl
    rw [hr] at h
    cases r with
    | some n =>
      cases h
      refine .inl ⟨rfl, rfl, fun hnew => ?_⟩
      exact hnew.2 n (hsome n rfl).1 ((hmatch n).1 (hsome n rfl).2)
    | none =>
      cases h
      refine .inr (.inl ⟨rfl, ⟨hsame, fun n hn hname => ?_⟩, rfl⟩)
      have hfalse := hnone rfl n hn
      rw [(hmatch n).2 hname] at hfalse
      cases hfalse
  · rw [if_neg hsame] at h
    cases h
    exact .inr (.inr ⟨rfl, by simpa using hsame, rfl⟩)

/-- A symbol that is new to the table is put on it. -/
theorem UniqueNames.put {tab : SymTab} {symId depth : Nat} (h : UniqueNames tab)
    (hnew : NewName tab (tab.nameHash.content symId)) :
    UniqueNames { putSymbol tab symId with symMutex := depth } := by
  intro hsame a ha b hb hab
  rcases List.mem_cons.1 ha with hsym | hmem
  · rcases List.mem_cons.1 hb with hsym' | hmem'
    · rw [hsym, hsym']
    · rw [hsym] at hab
      exact absurd ⟨hab.1.symm, hab.2.symm⟩ (hnew.2 b hmem')
  · rcases List.mem_cons.1 hb with hsym' | hmem'
    · rw [hsym'] at hab
      exact absurd hab (hnew.2 a hmem)
    · exact h hsame a hmem b hmem' hab

/-- Memory that is in no symbol of the table is written. -/
theorem UniqueNames.write {tab : SymTab} {n : Nat} (h : UniqueNames tab)
    (hn : n ∉ tab.nameHash.nodes) (symbol : Symbol) : UniqueNames (tab.write n symbol) := by
  intro hsame a ha b hb hab
  have hane : a ≠ n := fun heq => hn (heq ▸ ha)
  have hbne : b ≠ n := fun heq => hn (heq ▸ hb)
  unfold SymTab.write at hab
  dsimp only at hab
  rw [Function.update_of_ne hane, Function.update_of_ne hbne] at hab
  exact h hsame a ha b hb hab

/-! ## One call -/

/-- What the calls keep. -/
structure Kept (s : Table) : Prop where
  inv : Inv (s.tab, s.puts)
  lists : 0 < s.tab.nameHash.numElements
  unique : UniqueNames s.tab

/-- A step on a table that exists, and the mutex after it. -/
theorem Kept.step {op : Op} {r : SymTab × Nat} (h : Kept s) (hsound : Sound (s.tab, s.puts) op)
    (hs : step (s.tab, s.puts) op = some r) :
    Kept { s with tab := r.1, puts := r.2 } ∧
      (r.1.symMutex = s.tab.symMutex ↔ ¬ Unbalanced s (.op op)) := by
  have hinv := inv_step h.inv hsound hs
  rcases step_cases h.inv hsound hs with ⟨n, symbol, hn, rfl, hop⟩ | ⟨rfl, hop⟩ |
    ⟨symId, ok, rfl, hn, hputs, hr⟩
  · refine ⟨⟨hinv, h.lists, h.unique.write hn symbol⟩, iff_of_true rfl fun hbad => ?_⟩
    cases op with
    | tableAdd symId => exact hop symId rfl
    | _ => exact hbad
  · refine ⟨h, iff_of_true rfl fun hbad => ?_⟩
    cases op with
    | tableAdd symId => exact hop symId rfl
    | _ => exact hbad
  · have hadd := symTableAdd_cases h.inv.1 h.inv.2.1 (Nat.le_succ_of_le h.inv.2.2) hr
    rcases hadd with ⟨-, htab, hnot⟩ | ⟨-, hnew, htab⟩ | ⟨-, hsame, htab⟩
    · refine ⟨⟨hinv, by rw [htab]; exact h.lists, by rw [htab]; exact h.unique⟩, ?_⟩
      exact iff_of_true (by rw [htab]) hnot
    · refine ⟨⟨hinv, by rw [htab]; exact h.lists, by rw [htab]; exact h.unique.put hnew⟩, ?_⟩
      refine iff_of_false (fun heq => ?_) (fun hbal => hbal hnew)
      rw [htab] at heq
      exact Nat.succ_ne_self _ heq
    · refine ⟨⟨hinv, by rw [htab]; exact h.lists, fun hfalse => ?_⟩, ?_⟩
      · rw [htab] at hfalse
        exact absurd (hsame.symm.trans hfalse) (by simp)
      · refine iff_of_true (by rw [htab]; rfl) fun hbad => ?_
        exact absurd (hsame.symm.trans hbad.1) (by simp)

/-- A search by value leaves the mutex as it was, unless the caller holds it and a symbol has
the very value. -/
theorem Kept.findByValue {value type mask : Nat} {r : ValueResult} (h : Kept s)
    (hr : symFindSymbolByValue s.puts s.tab value type mask = some r) :
    r.symTab = { s.tab with symMutex := r.symTab.symMutex } ∧
      (r.symTab.symMutex = s.tab.symMutex ↔ ¬ Unbalanced s (.findByValue value type mask)) := by
  obtain ⟨found, hfound, hscan⟩ :=
    bucketsLoop_total (s := s.tab) h.inv.1 h.inv.2.1 h.lists h.inv.2.2 value type mask
  rw [symFindSymbolByValue, hfound, Option.map_some, Option.some.injEq] at hr
  have htab : r.symTab = { s.tab with symMutex := found.symMutex - 1 } := by
    rw [← hr]
    split <;> rfl
  have hmutex := hscan.symMutex
  have hgives := hscan.gives
  refine ⟨by rw [htab], ?_⟩
  rw [htab, Unbalanced]
  dsimp only
  constructor
  · intro heq ⟨hpos, n, hn, hmatch, hval⟩
    have hzero : found.gives = 0 := by omega
    exact hgives.1 hzero n hn hmatch hval
  · intro hbal
    by_cases hpos : 0 < s.tab.symMutex
    · have hzero := hgives.2 fun n hn hmatch hval => hbal ⟨hpos, n, hn, hmatch, hval⟩
      omega
    · omega

/-- A call keeps the invariant, and leaves the mutex of a table that is left as it was if and
only if it is none of the two. -/
theorem Kept.call (h : Kept s) (hsound : SoundCall s c) (hs : call s c = some s') :
    Kept s' ∧ (s'.alive = true → (s'.tab.symMutex = s.tab.symMutex ↔ ¬ Unbalanced s c)) := by
  cases c with
  | op op =>
    obtain ⟨r, hr, rfl⟩ := Option.map_eq_some_iff.1 hs
    obtain ⟨hkept, hbal⟩ := h.step hsound hr
    exact ⟨hkept, fun _ => hbal⟩
  | add symId symbol =>
    obtain ⟨r, hr, rfl⟩ := Option.map_eq_some_iff.1 hs
    obtain ⟨r', hwrite, hadd⟩ := Option.bind_eq_some_iff.1 hr
    have hsound : Sound (s.tab, s.puts) (.write symId symbol) := trivial
    have hkept := (h.step hsound hwrite).1
    rw [Sym.step, Option.ite_none_left_eq_some, Option.some.injEq] at hwrite
    obtain ⟨hn, rfl⟩ := hwrite
    obtain ⟨hkept', hbal⟩ := hkept.step (show Sound (_, _) (.tableAdd symId) from trivial) hadd
    refine ⟨hkept', fun _ => hbal.trans (not_congr ?_)⟩
    -- the symbols of the table are as they were before the write
    have hsame : ∀ n ∈ s.tab.nameHash.nodes,
        Function.update s.tab.nameHash.content symId symbol n = s.tab.nameHash.content n := by
      intro n hmem
      apply Function.update_of_ne
      intro heq
      rw [heq] at hmem
      exact hn hmem
    rw [Unbalanced, Unbalanced, NewName, NewName]
    dsimp only
    rw [Function.update_self]
    refine and_congr_right fun _ => forall₂_congr fun n hmem => ?_
    rw [hsame n hmem]
  | findByValue value type mask =>
    obtain ⟨r, hr, rfl⟩ := Option.map_eq_some_iff.1 hs
    obtain ⟨htab, hbal⟩ := h.findByValue hr
    refine ⟨?_, fun _ => hbal⟩
    rw [htab]
    exact ⟨⟨h.inv.1, h.inv.2⟩, h.lists, h.unique⟩
  | each func =>
    obtain ⟨r, hr, rfl⟩ := Option.map_eq_some_iff.1 hs
    obtain ⟨pSym, -, rfl⟩ := Option.map_eq_some_iff.1 hr
    refine ⟨h, fun _ => iff_of_true rfl id⟩
  | destroy =>
    rw [Sym.call, symTableDestroy] at hs
    by_cases hnum : s.tab.numSymbols > 0
    · simp only [if_pos hnum, Option.some.injEq] at hs
      obtain rfl := hs
      exact ⟨h, fun _ => iff_of_true rfl id⟩
    · simp only [if_neg hnum, Option.some.injEq] at hs
      obtain rfl := hs
      exact ⟨⟨h.inv, h.lists, h.unique⟩, fun halive => absurd halive Bool.false_ne_true⟩

/-! ## Runs -/

/-- A new table. -/
def newTable (log2Size : Nat) (sameNameOk : Bool) (next : Nat → Option Nat)
    (content : Nat → Symbol) : Table :=
  { tab := symTableCreate log2Size sameNameOk next content, puts := 0, alive := true }

theorem kept_newTable (log2Size : Nat) (sameNameOk : Bool) (next : Nat → Option Nat)
    (content : Nat → Symbol) : Kept (newTable log2Size sameNameOk next content) where
  inv := inv_init log2Size sameNameOk next content
  lists := Nat.two_pow_pos log2Size
  unique _ _ ha := nomatch ha

theorem Kept.callStep (h : Kept s) (hsound : SoundCall s c) (hs : callStep s c = some s') :
    Kept s' := by
  unfold Sym.callStep at hs
  split at hs
  · exact (h.call hsound hs).1
  · cases hs
    exact h

/-- The calls that are neither of the two, and do not remove what is held. -/
def GoodCall (s : Table) (c : Call) : Prop := SoundCall s c ∧ ¬ Unbalanced s c

/-- As long as nothing that is held is removed no two symbols have a name and type that may not
be added twice, an add that is refused changes nothing, and a call leaves the mutex held as
often as before if and only if it is no add of a new name to a table with unique names and no
search for the very value of a symbol by a task that holds the mutex. -/
theorem calls_balanced (log2Size : Nat) (sameNameOk : Bool) (next : Nat → Option Nat)
    (content : Nat → Symbol) {cs : List Call} {s : Table}
    (hsound : AllSteps callStep SoundCall (newTable log2Size sameNameOk next content) cs)
    (hrun : exec callStep (newTable log2Size sameNameOk next content) cs = some s) :
    UniqueNames s.tab ∧
      (∀ symId tab, symTableAdd (s.puts + 1) s.tab symId = some (tab, false) → tab = s.tab) ∧
      (∀ c s', SoundCall s c → call s c = some s' → s'.alive = true →
        (s'.tab.symMutex = s.tab.symMutex ↔ ¬ Unbalanced s c)) ∧
      (AllSteps callStep GoodCall (newTable log2Size sameNameOk next content) cs →
        s.alive = true → s.tab.symMutex = 0) := by
  have hkept : Kept s :=
    exec_invariant_of (fun _ _ _ h hsound hs => h.callStep hsound hs)
      (kept_newTable log2Size sameNameOk next content) hsound hrun
  refine ⟨hkept.unique, ?_, fun c s' hsound hs => (hkept.call hsound hs).2, ?_⟩
  · intro symId tab hadd
    rcases symTableAdd_cases hkept.inv.1 hkept.inv.2.1 (Nat.le_succ_of_le hkept.inv.2.2) hadd with
      ⟨-, htab, -⟩ | ⟨hok, -⟩ | ⟨hok, -⟩
    · exact htab
    · exact absurd hok (by simp)
    · exact absurd hok (by simp)
  · intro hgood
    have hinv : Kept s ∧ (s.alive = true → s.tab.symMutex = 0) := by
      refine exec_invariant_of (I := fun s => Kept s ∧ (s.alive = true → s.tab.symMutex = 0))
        ?_ ⟨kept_newTable log2Size sameNameOk next content, fun _ => rfl⟩ hgood hrun
      intro s c s' ⟨hkept, hzero⟩ ⟨hsound, hbal⟩ hs
      refine ⟨hkept.callStep hsound hs, fun halive' => ?_⟩
      unfold callStep at hs
      split at hs
      · next halive =>
        rw [((hkept.call hsound hs).2 halive').2 hbal]
        exact hzero halive
      · obtain rfl := Option.some.inj hs
        exact hzero halive'
    exact hinv.2

/-! ## One symbol -/

/-- A symbol is added to a table in which names may be added twice, and searched by a value above
its own. -/
theorem calls_balanced_example :
    ∃ s, exec callStep (newTable 2 true (fun _ => none) exampleContent)
        [.add 1 exampleSymbol, .findByValue 5000 5 255, .each fun _ => true] = some s ∧
      s.alive = true ∧ s.tab.numSymbols = 1 ∧ UniqueNames s.tab ∧ s.tab.symMutex = 0 := by
  have hrun : (exec callStep (newTable 2 true (fun _ => none) exampleContent)
      [.add 1 exampleSymbol, .findByValue 5000 5 255, .each fun _ => true]).map
        (fun s => (s.alive, s.tab.numSymbols)) = some (true, 1) := by decide
  obtain ⟨s, hs, heq⟩ := Option.map_eq_some_iff.1 hrun
  obtain ⟨halive, hnum⟩ := Prod.mk.inj heq
  have hsound : AllSteps callStep SoundCall (newTable 2 true (fun _ => none) exampleContent)
      [.add 1 exampleSymbol, .findByValue 5000 5 255, .each fun _ => true] :=
    ⟨trivial, trivial, trivial, trivial⟩
  have hgood : AllSteps callStep GoodCall (newTable 2 true (fun _ => none) exampleContent)
      [.add 1 exampleSymbol, .findByValue 5000 5 255, .each fun _ => true] := by
    refine ⟨⟨trivial, fun h => absurd h.1 (by decide)⟩,
      ⟨trivial, fun h => absurd h.1 (by decide)⟩, ⟨trivial, id⟩, trivial⟩
  obtain ⟨hunique, -, -, hzero⟩ :=
    calls_balanced 2 true (fun _ => none) exampleContent hsound hs
  exact ⟨s, hs, halive, hnum, hunique, hzero hgood halive⟩

/-- The first symbol of a table in which no name may be added twice: the mutex is kept. -/
theorem not_calls_balanced :
    ∃ s, callStep (newTable 2 false (fun _ => none) exampleContent) (.add 1 exampleSymbol) =
        some s ∧
      s.alive = true ∧ s.tab.numSymbols = 1 ∧
      (newTable 2 false (fun _ => none) exampleContent).tab.symMutex = 0 ∧
      s.tab.symMutex = 1 := by
  have hrun : (callStep (newTable 2 false (fun _ => none) exampleContent)
      (.add 1 exampleSymbol)).map
        (fun s => (s.alive, s.tab.numSymbols, s.tab.symMutex)) = some (true, 1, 1) := by
    decide
  obtain ⟨s, hs, heq⟩ := Option.map_eq_some_iff.1 hrun
  simp only [Prod.mk.injEq] at heq
  exact ⟨s, hs, heq.1, heq.2.1, rfl, heq.2.2⟩

end Vmx.Sym
