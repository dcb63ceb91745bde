import Vmx.Os.SymLib
import Vmx.Util.Hash

/-!
# The symbols of a table

A symbol table counts the symbols it holds, and a lookup returns a symbol that is held.
`tables_hold` says so for hash tables and for symbol tables, for the runs in which nothing
that is held is removed, and that a removal always breaks the table.
-/

namespace Vmx.Sym

open Lib Hash

variable {s s' : SymTab} {n : Nat}

/-- The table holds its symbols and counts them. -/
def SymGood (s : SymTab) : Prop := Good s.nameHash ∧ s.numSymbols = s.nameHash.nodes.length

/-- The functions are those of `symTableCreate`. -/
def Named (s : SymTab) : Prop :=
  s.nameHash.cmpFunc = symHashKeyCmpName ∧ s.nameHash.keyFunc = symHashFuncName

theorem symHashKeyCmpName_name {content : Nat → Symbol} {a b mask : Nat}
    (h : symHashKeyCmpName content a b mask = true) : (content a).name = (content b).name := by
  unfold symHashKeyCmpName at h
  split at h
  · rw [beq_iff_eq.1 h]
  · rw [Bool.and_eq_true, beq_iff_eq, beq_iff_eq] at h
    exact h.2

/-- Only the name of a symbol decides on its list. -/
theorem symHashFuncName_congr {numElements : Nat} {a b : Symbol} {seed : Int}
    (h : a.name = b.name) :
    symHashFuncName numElements a seed = symHashFuncName numElements b seed := by
  unfold symHashFuncName
  rw [h]

theorem Named.agree (h : Named s) : Agree s.nameHash := by
  intro content a b cmpArg hmatch
  rw [h.1] at hmatch
  rw [h.2]
  exact symHashFuncName_congr (symHashKeyCmpName_name hmatch)

/-- The table with a key on the stack. -/
theorem good_key (h : Good s.nameHash) (hn : n ∉ s.nameHash.nodes) (key : Symbol) :
    Good { s.nameHash with content := Function.update s.nameHash.content n key } :=
  good_write h hn key

/-- A lookup ends, and the symbol that it returns is held and has the name. -/
theorem symFindSymbol_spec (h : SymGood s) (hnamed : Named s) {keySym : Nat}
    (hkey : keySym ∉ s.nameHash.nodes) (name : List UInt8) (type mask : Nat) {fuel : Nat}
    (hmask : mask ≠ SYM_MASK_EXACT) (hfuel : s.nameHash.nodes.length ≤ fuel) :
    ∃ s' r, symFindSymbol fuel s keySym name type mask = some (s', r) ∧ SymGood s' ∧ Named s' ∧
      s'.nameHash.nodes = s.nameHash.nodes ∧
      ∀ n, r = some n → n ∈ s.nameHash.nodes ∧ (s.nameHash.content n).name = name ∧
        (s.nameHash.content n).type &&& (mask % 256) = type &&& (mask % 256) := by
  have hgood := good_key h.1 hkey
    { s.nameHash.content keySym with name := name, type := type }
  obtain ⟨r, hr, hsome, _⟩ := hashTableFind_spec hgood hnamed.agree keySym mask hfuel
  refine ⟨_, r, Option.map_eq_some_iff.2 ⟨r, hr, rfl⟩, ⟨hgood, h.2⟩, hnamed, rfl, fun n hn => ?_⟩
  obtain ⟨hmem, hmatch⟩ := hsome n hn
  have hne : n ≠ keySym := fun heq => hkey (heq ▸ hmem)
  dsimp only at hmatch
  rw [hnamed.1, symHashKeyCmpName, if_neg hmask, Function.update_of_ne hne, Function.update_self,
    Bool.and_eq_true, beq_iff_eq, beq_iff_eq] at hmatch
  exact ⟨hmem, hmatch.2.symm, hmatch.1⟩

/-- The symbols of a run are not removed while they are held. -/
def Sound (s : SymTab × Nat) : Op → Prop
  | .tableRemove symId => symId ∉ s.1.nameHash.nodes
  | .remove _ name type => ∀ n ∈ s.1.nameHash.nodes, (s.1.nameHash.content n).name = name →
      (s.1.nameHash.content n).type &&& 255 ≠ type &&& 255
  | _ => True

instance (s : SymTab × Nat) : ∀ op, Decidable (Sound s op)
  | .tableRemove symId => inferInstanceAs (Decidable (symId ∉ s.1.nameHash.nodes))
  | .remove _ name type => inferInstanceAs (Decidable (∀ n ∈ s.1.nameHash.nodes,
      (s.1.nameHash.content n).name = name →
        (s.1.nameHash.content n).type &&& 255 ≠ type &&& 255))
  | .write _ _ => inferInstanceAs (Decidable True)
  | .tableAdd _ => inferInstanceAs (Decidable True)
  | .findSymbol _ _ _ _ => inferInstanceAs (Decidable True)

/-- What a run keeps. -/
def Inv (s : SymTab × Nat) : Prop :=
  SymGood s.1 ∧ Named s.1 ∧ s.1.nameHash.nodes.length ≤ s.2

theorem symGood_put (h : SymGood s) (hn : n ∉ s.nameHash.nodes) (depth : Nat) :
    SymGood { putSymbol s n with symMutex := depth } := by
  refine ⟨good_put h.1 hn, ?_⟩
  have hlen : (hashTablePut s.nameHash n).nodes.length = s.nameHash.nodes.length + 1 :=
    List.length_cons
  show s.numSymbols + 1 = ((hashTablePut s.nameHash n).nodes.length : Int)
  rw [hlen, h.2]
  rfl

/-- Memory that is in no symbol of the table is written. -/
def SymTab.write (s : SymTab) (n : Nat) (symbol : Symbol) : SymTab :=
  { s with nameHash := { s.nameHash with
      content := Function.update s.nameHash.content n symbol } }

/-- What a sound step does: it writes memory outside of the table, or nothing, or it adds. -/
theorem step_cases {s s' : SymTab × Nat} {op : Op} (h : Inv s) (hsound : Sound s op)
    (hs : step s op = some s') :
    (∃ n symbol, n ∉ s.1.nameHash.nodes ∧ s' = (s.1.write n symbol, s.2) ∧
      ∀ symId, op ≠ .tableAdd symId) ∨
    (s' = s ∧ ∀ symId, op ≠ .tableAdd symId) ∨
    ∃ symId ok, op = .tableAdd symId ∧ symId ∉ s.1.nameHash.nodes ∧ s'.2 = s.2 + 1 ∧
      symTableAdd (s.2 + 1) s.1 symId = some (s'.1, ok) := by
  obtain ⟨hgood, hnamed, hle⟩ := h
  cases op with
  | write symId symbol =>
    rw [step, Option.ite_none_left_eq_some] at hs
    obtain ⟨hn, hm⟩ := hs
    exact .inl ⟨symId, symbol, hn, (Option.some.inj hm).symm, by simp⟩
  | tableAdd symId =>
    rw [step, Option.ite_none_left_eq_some] at hs
    obtain ⟨hn, hm⟩ := hs
    obtain ⟨⟨tab, ok⟩, hr, rfl⟩ := Option.map_eq_some_iff.1 hm
    exact .inr (.inr ⟨symId, ok, rfl, hn, rfl, hr⟩)
  | findSymbol keySym name type mask =>
    rw [step, Option.ite_none_left_eq_some] at hs
    obtain ⟨hn, hm⟩ := hs
    obtain ⟨r, hr, rfl⟩ := Option.map_eq_some_iff.1 hm
    obtain ⟨_, _, rfl⟩ := Option.map_eq_some_iff.1 hr
    exact .inl ⟨keySym, _, hn, rfl, by simp⟩
  | tableRemove symId =>
    obtain ⟨r, hr, rfl⟩ := Option.map_eq_some_iff.1 hs
    -- the symbol is not found
    obtain ⟨found, hfind, hsome, _⟩ := hashTableFind_spec hgood.1 hnamed.agree symId SYM_MASK_EXACT
      (Nat.le_succ_of_le hle)
    have hnone : found = none := by
      cases found with
      | none => rfl
      | some m =>
        obtain ⟨hm, hmatch⟩ := hsome m rfl
        rw [hnamed.1, symHashKeyCmpName, if_pos rfl, beq_iff_eq] at hmatch
        exact absurd (hmatch ▸ hm) hsound
    rw [symTableRemove, hfind, hnone] at hr
    cases hr
    exact .inr (.inl ⟨rfl, by simp⟩)
  | remove keySym name type =>
    rw [step, Option.ite_none_left_eq_some] at hs
    obtain ⟨hn, hm⟩ := hs
    obtain ⟨r, hr, rfl⟩ := Option.map_eq_some_iff.1 hm
    obtain ⟨t, found, hfind, _, _, _, hsome⟩ := symFindSymbol_spec hgood hnamed hn
      name type SYM_MASK_EXACT_TYPE (by decide) (Nat.le_succ_of_le hle)
    have hnone : found = none := by
      cases found with
      | none => rfl
      | some m =>
        obtain ⟨hm, hname, htype⟩ := hsome m rfl
        exact absurd htype (hsound m hm hname)
    rw [symRemove, hfind, hnone] at hr
    cases hr
    obtain ⟨_, _, heq⟩ := Option.map_eq_some_iff.1 hfind
    obtain ⟨rfl, -⟩ := Prod.mk.inj heq
    exact .inl ⟨keySym, _, hn, rfl, by simp⟩

theorem inv_step {s s' : SymTab × Nat} {op : Op} (h : Inv s) (hsound : Sound s op)
    (hs : step s op = some s') : Inv s' := by
  have hgood := h.1
  have hnamed := h.2.1
  have hle := h.2.2
  rcases step_cases h hsound hs with ⟨n, symbol, hn, rfl, -⟩ | ⟨rfl, -⟩ |
    ⟨symId, ok, -, hn, hputs, hr⟩
  · exact ⟨⟨good_write hgood.1 hn symbol, hgood.2⟩, hnamed, hle⟩
  · exact h
  · unfold symTableAdd at hr
    split at hr
    · split at hr
      · cases hr
      · obtain ⟨htab, -⟩ := Prod.mk.inj (Option.some.inj hr)
        rw [Inv, ← htab, hputs]
        exact ⟨hgood, hnamed, Nat.le_succ_of_le hle⟩
      · obtain ⟨htab, -⟩ := Prod.mk.inj (Option.some.inj hr)
        rw [Inv, ← htab, hputs]
        exact ⟨symGood_put hgood hn _, hnamed, Nat.succ_le_succ hle⟩
    · obtain ⟨htab, -⟩ := Prod.mk.inj (Option.some.inj hr)
      rw [Inv, ← htab, hputs]
      exact ⟨symGood_put hgood hn _, hnamed, Nat.succ_le_succ hle⟩

/-- A symbol that is held is never removed properly. -/
theorem not_symGood_remove {fuel : Nat} {ok : Bool} (h : SymGood s) (hnamed : Named s)
    (hn : n ∈ s.nameHash.nodes) (hfuel : s.nameHash.nodes.length ≤ fuel)
    (hr : symTableRemove fuel s n = some (s', ok)) : ¬ SymGood s' := by
  obtain ⟨found, hfind, hsome, hnone⟩ :=
    hashTableFind_spec h.1 hnamed.agree n SYM_MASK_EXACT hfuel
  cases found with
  | none =>
    have hmatch := hnone rfl n hn
    rw [hnamed.1, symHashKeyCmpName, if_pos rfl, beq_self_eq_true] at hmatch
    cases hmatch
  | some m =>
    obtain ⟨hm, hmatch⟩ := hsome m rfl
    rw [hnamed.1, symHashKeyCmpName, if_pos rfl, beq_iff_eq] at hmatch
    subst hmatch
    rw [symTableRemove, hfind] at hr
    obtain ⟨t, ht, heq⟩ := Option.map_eq_some_iff.1 hr
    obtain ⟨rfl, _⟩ := Prod.mk.inj heq
    exact fun hgood => not_good_remove h.1 hn ht hgood.1

theorem inv_init (log2Size : Nat) (sameNameOk : Bool) (next : Nat → Option Nat)
    (content : Nat → Symbol) : Inv (symTableCreate log2Size sameNameOk next content, 0) := by
  refine ⟨⟨good_init .., ?_⟩, ⟨rfl, rfl⟩, Nat.le_refl 0⟩
  simp [symTableCreate, hashTableInit]

/-- A hash table from which nothing is removed has what was put, and finds it; a symbol table
also counts its symbols, and a lookup by name returns one that is held.  No removal of what
is held leaves such a table. -/
theorem tables_hold (log2Size : Nat) (next : Nat → Option Nat) :
    (∀ {κ : Type} {cmpFunc : (Nat → κ) → Nat → Nat → Nat → Bool}
      {keyFunc : Nat → κ → Int → Nat} {keyArg : Int} {content : Nat → κ}
      {ops : List (Hash.Op κ)} {t : HashTable κ} {puts : Nat},
      Agree (hashTableInit log2Size cmpFunc keyFunc keyArg next content) →
      AllSteps Hash.step Hash.Sound
        (hashTableInit log2Size cmpFunc keyFunc keyArg next content, 0) ops →
      exec Hash.step (hashTableInit log2Size cmpFunc keyFunc keyArg next content, 0) ops =
        some (t, puts) →
      Good t ∧
        (∀ pMatchNode cmpArg fuel, t.nodes.length ≤ fuel →
          ∃ r, hashTableFind fuel t pMatchNode cmpArg = some r ∧
            (∀ n, r = some n → n ∈ t.nodes ∧ t.cmpFunc t.content pMatchNode n cmpArg = true) ∧
            (r = none → ∀ n ∈ t.nodes, t.cmpFunc t.content pMatchNode n cmpArg = false)) ∧
        ∀ n ∈ t.nodes, ∀ fuel t', hashTableRemove fuel t n = some t' → ¬ Good t') ∧
    ∀ {sameNameOk : Bool} {content : Nat → Symbol}
      {ops : List Op} {s : SymTab} {puts : Nat},
      AllSteps step Sound (symTableCreate log2Size sameNameOk next content, 0) ops →
      exec step (symTableCreate log2Size sameNameOk next content, 0) ops = some (s, puts) →
      SymGood s ∧
        (∀ keySym, keySym ∉ s.nameHash.nodes → ∀ name type mask fuel, mask ≠ SYM_MASK_EXACT →
          s.nameHash.nodes.length ≤ fuel →
          ∃ s' r, symFindSymbol fuel s keySym name type mask = some (s', r) ∧
            ∀ n, r = some n → n ∈ s.nameHash.nodes ∧ (s.nameHash.content n).name = name) ∧
        ∀ n ∈ s.nameHash.nodes, ∀ fuel s' ok, s.nameHash.nodes.length ≤ fuel →
          symTableRemove fuel s n = some (s', ok) → ¬ SymGood s' := by
  refine ⟨hashTable_run, fun hsound hrun => ?_⟩
  obtain ⟨hgood, hnamed, _⟩ :=
    exec_invariant_of (fun _ _ _ h hs hstep => inv_step h hs hstep) (inv_init ..) hsound hrun
  refine ⟨hgood, ?_, fun n hn fuel s' ok hfuel hr => not_symGood_remove hgood hnamed hn hfuel hr⟩
  intro keySym hkey name type mask fuel hmask hfuel
  obtain ⟨s', r, hfind, _, _, _, hsome⟩ :=
    symFindSymbol_spec hgood hnamed hkey name type mask hmask hfuel
  exact ⟨s', r, hfind, fun n hn => ⟨(hsome n hn).1, (hsome n hn).2.1⟩⟩

/-! ## One symbol -/

def exampleContent (_ : Nat) : Symbol := { name := [], value := 0, group := 0, type := 0 }

def exampleTable : SymTab := symTableCreate 2 true (fun _ => none) exampleContent

def exampleSymbol : Symbol := { name := [116, 116, 121], value := 4096, group := 0, type := 5 }

/-- One symbol is written, added and looked up. -/
def exampleOps : List Op :=
  [.write 1 exampleSymbol, .tableAdd 1, .findSymbol 2 exampleSymbol.name 5 SYM_MASK_EXACT_TYPE]

theorem tables_hold_example :
    ∃ s puts, exec step (exampleTable, 0) exampleOps = some (s, puts) ∧ s.numSymbols = 1 ∧
      SymGood s ∧ (∃ s' r, symFindSymbol 1 s 2 exampleSymbol.name 5 SYM_MASK_EXACT_TYPE =
        some (s', r) ∧ ∀ n, r = some n → n ∈ s.nameHash.nodes) := by
  have hsound : AllSteps step Sound (exampleTable, 0) exampleOps := by decide
  have hnum : (exec step (exampleTable, 0) exampleOps).map
      (fun s => (s.1.numSymbols, s.1.nameHash.nodes)) = some (1, [1]) := by decide
  obtain ⟨⟨s, puts⟩, hrun, hs⟩ := Option.map_eq_some_iff.1 hnum
  obtain ⟨hone, hnodes⟩ := Prod.mk.inj hs
  dsimp only at hone hnodes
  obtain ⟨hgood, hfind, _⟩ := (tables_hold _ _).2 hsound hrun
  obtain ⟨s', r, hr, hsome⟩ := hfind 2 (by rw [hnodes]; decide) exampleSymbol.name 5
    SYM_MASK_EXACT_TYPE 1 (by decide) (by rw [hnodes]; decide)
  exact ⟨s, puts, hrun, hone, hgood, s', r, hr, fun n hn => (hsome n hn).1⟩

/-- The symbol is removed: it is still found, and the table counts no symbol. -/
theorem tables_hold_removed :
    ∃ s puts, exec step (exampleTable, 0) [.write 1 exampleSymbol, .tableAdd 1, .tableRemove 1] =
        some (s, puts) ∧
      ¬ SymGood s ∧ s.numSymbols = 0 ∧
      (symFindSymbol 1 s 2 exampleSymbol.name 5 SYM_MASK_EXACT_TYPE).map Prod.snd =
        some (some 1) := by
  have hstate : (exec step (exampleTable, 0) [.write 1 exampleSymbol, .tableAdd 1]).map
      (fun s => (s.1.nameHash.nodes, s.2)) = some ([1], 1) := by decide
  have hremove : (exec step (exampleTable, 0)
      [.write 1 exampleSymbol, .tableAdd 1, .tableRemove 1]).map (fun s => (s.1.numSymbols,
        (symFindSymbol 1 s.1 2 exampleSymbol.name 5 SYM_MASK_EXACT_TYPE).map Prod.snd)) =
      some (0, some (some 1)) := by decide
  obtain ⟨⟨t, puts⟩, hrun, hs⟩ := Option.map_eq_some_iff.1 hremove
  obtain ⟨hzero, hfound⟩ := Prod.mk.inj hs
  refine ⟨t, puts, hrun, fun hgood => ?_, hzero, hfound⟩
  -- the symbol is not among those that are held
  have hsound : AllSteps step Sound (exampleTable, 0) [.write 1 exampleSymbol, .tableAdd 1] := by
    decide
  obtain ⟨⟨s, _⟩, hbefore, hs'⟩ := Option.map_eq_some_iff.1 hstate
  obtain ⟨hnodes, hputs⟩ := Prod.mk.inj hs'
  dsimp only at hnodes hputs
  subst hputs
  obtain ⟨hgood', hnamed, _⟩ :=
    exec_invariant_of (fun _ _ _ h hs hstep => inv_step h hs hstep) (inv_init ..) hsound hbefore
  obtain ⟨s', hfirst, hlast⟩ := exec_append.1
    (show exec step (exampleTable, 0) ([.write 1 exampleSymbol, .tableAdd 1] ++ [.tableRemove 1]) =
      some (t, puts) from hrun)
  obtain rfl := Option.some.inj (hbefore.symm.trans hfirst)
  obtain ⟨_, hstep, hnil⟩ := exec_cons.1 hlast
  obtain rfl := Option.some.inj hnil
  obtain ⟨⟨s', ok⟩, hr, heq⟩ := Option.map_eq_some_iff.1 hstep
  obtain ⟨rfl, _⟩ := Prod.mk.inj heq
  have hn : 1 ∈ s.nameHash.nodes := by
    rw [hnodes]
    decide
  exact not_symGood_remove hgood' hnamed hn (by rw [hnodes]; exact Nat.le_succ 1) hr hgood

end Vmx.Sym
