import Vmx.Util.QPriBmp
import Vmx.Lib.Transition

/-!
# The two ready queue classes side by side

`usrKernelInit` may give the ready queue either class.  `qStep` runs the same
operations on a bit mapped queue, on a linked priority queue and on a reference
queue that only remembers the arrivals: its first node is the earliest arrival
among the nodes of the lowest key.

The classes part at a move among ties.  `qPriBmpMove` always puts the node
behind the nodes of its new key; `qPrioMove` keeps a node where it stands when
the keys of its neighbours allow it, which may be directly before a node of the
new key (`staysBeforeTie`).  As long as no move does that the three queues have
the same first node after every step and answer the same nodes
(`qClasses_agree`).
-/

namespace Vmx.Util

open Vmx.Lib

variable {α : Type}

/-- An operation on a ready queue. -/
inductive QOp (α : Type) where
  | put (x : α) (key : Nat)
  | get
  | remove (x : α)
  | move (x : α) (newKey : Nat)

/-- The three queues, with the answers of the gets so far, newest first. -/
structure QPair (α : Type) where
  bmp : QPriBmpHead α
  prio : List (α × Nat)
  arrivals : List (α × Nat)
  bmpGot : List (Option α)
  prioGot : List (Option α)
  arrivalsGot : List (Option α)

def qPairInit (key : α → Nat) : QPair α :=
  { bmp := qPriBmpInit key, prio := [], arrivals := [], bmpGot := [], prioGot := [],
    arrivalsGot := [] }

/-- The earliest arrival among the nodes of the lowest key. -/
def arrivalFirst (a : List (α × Nat)) : Option α :=
  (a.find? fun e => a.all fun d => decide (e.2 ≤ d.2)).map Prod.fst

section

variable [DecidableEq α]

/-- Take the first node out of the arrivals. -/
def arrivalGet (a : List (α × Nat)) : Option α × List (α × Nat) :=
  match arrivalFirst a with
  | none => (none, a)
  | some x => (some x, eraseId a x)

/-- The node is linked in both queues. -/
def QPair.linked (s : QPair α) (x : α) : Bool :=
  decide (x ∈ s.bmp.head (s.bmp.key x)) && decide (x ∈ ids s.prio)

/-- The node is linked in neither queue. -/
def QPair.unlinked (s : QPair α) (x : α) : Bool :=
  decide (x ∉ s.bmp.head (s.bmp.key x)) && decide (x ∉ ids s.prio)

/-- One operation on the three queues.  A put takes an unlinked node and a
remove or a move a linked one; keys are below 256. -/
def qStep (s : QPair α) : QOp α → Option (QPair α)
  | .put x key =>
    if s.unlinked x = true ∧ key < 256 then
      some { s with
        bmp := qPriBmpPut s.bmp x key
        prio := qPrioPut s.prio x key
        arrivals := s.arrivals ++ [(x, key)] }
    else none
  | .get =>
    some { s with
      bmp := (qPriBmpGet s.bmp).2
      prio := (qPrioGet s.prio).2
      arrivals := (arrivalGet s.arrivals).2
      bmpGot := (qPriBmpGet s.bmp).1 :: s.bmpGot
      prioGot := (qPrioGet s.prio).1 :: s.prioGot
      arrivalsGot := (arrivalGet s.arrivals).1 :: s.arrivalsGot }
  | .remove x =>
    if s.linked x = true then
      some { s with
        bmp := qPriBmpRemove s.bmp x
        prio := qPrioRemove s.prio x
        arrivals := eraseId s.arrivals x }
    else none
  | .move x newKey =>
    if s.linked x = true ∧ newKey < 256 then
      some { s with
        bmp := qPriBmpMove s.bmp x newKey
        prio := qPrioMove s.prio x newKey
        arrivals := eraseId s.arrivals x ++ [(x, newKey)] }
    else none

/-- `qPrioMove` leaves `x` where it stands, directly before a node of the new
key. -/
def staysBeforeTie (q : List (α × Nat)) (x : α) (newKey : Nat) : Bool :=
  staysInPlace q x newKey &&
    match (neighbours none q x).2 with
    | none => false
    | some pNext => decide (pNext.2 = newKey)

/-- The step is no move that stays before a tie. -/
def NoTieMove (s : QPair α) : QOp α → Prop
  | .move x newKey => staysBeforeTie s.prio x newKey = false
  | _ => True

instance (s : QPair α) (op : QOp α) : Decidable (NoTieMove s op) :=
  match op with
  | .put _ _ => inferInstanceAs (Decidable True)
  | .get => inferInstanceAs (Decidable True)
  | .remove _ => inferInstanceAs (Decidable True)
  | .move x newKey => inferInstanceAs (Decidable (staysBeforeTie s.prio x newKey = false))

end

/-! ## A move of the linked queue -/

/-- Insertion into a sorted list goes between the keys not above and the keys
above. -/
theorem insertKeyed_between {l r : List (α × Nat)} {x : α} {key : Nat}
    (hl : ∀ e ∈ l, e.2 ≤ key) (hr : ∀ n, r.head? = some n → key < n.2) :
    insertKeyed (l ++ r) x key = l ++ (x, key) :: r := by
  induction l with
  | nil =>
    cases r with
    | nil => rfl
    | cons n r =>
      rw [List.nil_append, insertKeyed, if_pos (hr n rfl)]
      rfl
  | cons e l ih =>
    have he := hl e List.mem_cons_self
    rw [List.cons_append, insertKeyed, if_neg (by omega)]
    rw [ih (fun d hd => hl d (List.mem_cons_of_mem _ hd))]
    rfl

/-- A move that does not stay before a tie is a removal and a stable
insertion. -/
theorem qPrioMove_eq [DecidableEq α] {q : List (α × Nat)} {x : α} {newKey : Nat} (hs : KeySorted q)
    (hn : (ids q).Nodup) (hx : x ∈ ids q) (htie : staysBeforeTie q x newKey = false) :
    qPrioMove q x newKey = insertKeyed (eraseId q x) x newKey := by
  rw [qPrioMove]
  split
  · rename_i hstay
    obtain ⟨l, k, r, rfl, hl, -⟩ := exists_split hx hn
    have hends := (staysInPlace_split hl).1 hstay
    rw [staysBeforeTie, hstay, neighbours_split hl] at htie
    have hsl : KeySorted l := (List.pairwise_append.1 hs).1
    rw [setKey_split hn, eraseId_split hl, insertKeyed_between]
    · intro e he
      cases hlast : l.getLast? with
      | none =>
        rw [List.getLast?_eq_none_iff] at hlast
        subst hlast
        simp at he
      | some p =>
        have h1 := le_getLast?_of_keySorted hsl hlast e he
        have h2 := hends.1 p hlast
        omega
    · intro n hhead
      have h1 := hends.2 n hhead
      simp only [hhead, Bool.true_and, decide_eq_false_iff_not] at htie
      omega
  · rw [qPrioPut_eq_insertKeyed, qPrioRemove]

/-! ## The reference queue -/

/-- The linked queue is the stable sort of the arrivals. -/
structure SortOf (l a : List (α × Nat)) : Prop where
  nodup : (ids a).Nodup
  buckets : ∀ k, bucket l k = bucket a k

theorem SortOf.mem {l a : List (α × Nat)} (h : SortOf l a) (e : α × Nat) : e ∈ l ↔ e ∈ a := by
  rw [← mem_bucket (x := e.1) (k := e.2), h.buckets, mem_bucket]

theorem SortOf.mem_ids {l a : List (α × Nat)} (h : SortOf l a) (x : α) : x ∈ ids l ↔ x ∈ ids a := by
  rw [Lib.mem_ids, Lib.mem_ids]
  exact exists_congr fun k => h.mem (x, k)

/-- The first node of the sorted list is the earliest arrival of the lowest
key. -/
theorem SortOf.first {l a : List (α × Nat)} (h : SortOf l a) (hs : KeySorted l) :
    qFirst l = arrivalFirst a := by
  cases l with
  | nil =>
    have ha : a = [] := List.eq_nil_iff_forall_not_mem.2 fun e he => by simpa using (h.mem e).2 he
    rw [ha]
    rfl
  | cons e l =>
    have hlow : ∀ d ∈ a, e.2 ≤ d.2 := by
      intro d hd
      rcases List.mem_cons.1 ((h.mem d).2 hd) with rfl | hin
      · exact Nat.le_refl _
      · exact (List.pairwise_cons.1 hs).1 d hin
    have hmem : e ∈ a := (h.mem e).1 List.mem_cons_self
    -- the lowest key is the key of the head, so the search runs through one bucket
    have hfilter : a.filter (fun d => a.all fun c => decide (d.2 ≤ c.2))
        = a.filter (fun d => decide (d.2 = e.2)) := by
      refine List.filter_congr fun d hd => ?_
      rw [Bool.eq_iff_iff, List.all_eq_true]
      simp only [decide_eq_true_eq]
      constructor
      · intro hall
        have h1 := hall e hmem
        have h2 := hlow d hd
        omega
      · intro heq c hc
        have := hlow c hc
        omega
    have hbucket := h.buckets e.2
    rw [bucket_cons, if_pos rfl] at hbucket
    rw [arrivalFirst, ← List.head?_filter, hfilter, ← List.head?_map]
    show some e.1 = (bucket a e.2).head?
    rw [← hbucket]
    rfl

theorem SortOf.put {l a : List (α × Nat)} (h : SortOf l a) (hs : KeySorted l) {x : α}
    (hx : x ∉ ids l) (key : Nat) : SortOf (insertKeyed l x key) (a ++ [(x, key)]) where
  nodup := by
    rw [ids_append, ids_cons, ids_nil, ← List.concat_eq_append, List.nodup_concat]
    exact ⟨fun hm => hx ((h.mem_ids x).2 hm), h.nodup⟩
  buckets k := by
    rw [bucket_insertKeyed hs, bucket_append, bucket_cons, h.buckets]
    by_cases hk : key = k <;> simp [hk]

theorem SortOf.erase [DecidableEq α] {l a : List (α × Nat)} (h : SortOf l a) (hn : (ids l).Nodup) (x : α) :
    SortOf (eraseId l x) (eraseId a x) where
  nodup := nodup_eraseId h.nodup x
  buckets k := by rw [bucket_eraseId hn, bucket_eraseId h.nodup, h.buckets]

/-! ## The simulation -/

/-- The relation that the steps keep: the bit mapped head represents the linked
queue, the linked queue is the stable sort of the arrivals, and the answers
agree. -/
structure Agree (s : QPair α) : Prop where
  rep : BmpRep s.bmp s.prio
  sort : SortOf s.prio s.arrivals
  got : s.bmpGot = s.prioGot
  fifo : s.prioGot = s.arrivalsGot

theorem agree_init (key : α → Nat) : Agree (qPairInit key) where
  rep := bmpRep_init key
  sort := ⟨List.nodup_nil, fun _ => rfl⟩
  got := rfl
  fifo := rfl

section

variable [DecidableEq α]

theorem agree_get {s : QPair α} (h : Agree s) {s' : QPair α} (hs : qStep s .get = some s') :
    Agree s' := by
  cases hs
  obtain ⟨hout, hrep⟩ := bmpRep_get h.rep
  have hfirst := h.sort.first h.rep.sorted
  have hsort := h.sort
  have hnodup := h.rep.nodup
  cases hp : s.prio with
  | nil =>
    rw [hp] at hfirst hout hrep hsort
    have harr : arrivalGet s.arrivals = (none, s.arrivals) := by
      rw [arrivalGet, ← hfirst]
      rfl
    refine ⟨by simpa [hp] using hrep, by simpa [hp, harr, qPrioGet] using hsort, ?_, ?_⟩
    · simp [hout, h.got]
    · simp [harr, qPrioGet, h.fifo]
  | cons e l =>
    rw [hp] at hfirst hout hrep hsort hnodup
    have harr : arrivalGet s.arrivals = (some e.1, eraseId s.arrivals e.1) := by
      rw [arrivalGet, ← hfirst]
      rfl
    have herase := hsort.erase hnodup e.1
    rw [eraseId_cons, if_pos rfl] at herase
    refine ⟨by simpa [hp] using hrep, by simpa [hp, harr, qPrioGet] using herase, ?_, ?_⟩
    · simp [hout, h.got]
    · simp [harr, qPrioGet, h.fifo]

/-- One step keeps the relation, unless it is a move that stays before a tie. -/
theorem agree_step {s : QPair α} {op : QOp α} {s' : QPair α} (h : Agree s)
    (hno : NoTieMove s op) (hs : qStep s op = some s') : Agree s' := by
  have hlinked : ∀ {x : α}, s.linked x = true → x ∈ ids s.prio := by
    intro x hx
    simp only [QPair.linked, Bool.and_eq_true, decide_eq_true_eq] at hx
    exact hx.2
  cases op with
  | put x key =>
    obtain ⟨⟨hx, hk⟩, rfl⟩ := guard_some.1 hs
    simp only [QPair.unlinked, Bool.and_eq_true, decide_eq_true_eq] at hx
    refine ⟨?_, ?_, h.got, h.fifo⟩
    · rw [qPrioPut_eq_insertKeyed]
      exact bmpRep_put h.rep hx.2 hk
    · rw [qPrioPut_eq_insertKeyed]
      exact h.sort.put h.rep.sorted hx.2 key
  | get => exact agree_get h hs
  | remove x =>
    obtain ⟨hx, rfl⟩ := guard_some.1 hs
    exact ⟨bmpRep_remove h.rep (hlinked hx), h.sort.erase h.rep.nodup x, h.got, h.fifo⟩
  | move x newKey =>
    obtain ⟨⟨hx, hk⟩, rfl⟩ := guard_some.1 hs
    have hmove := qPrioMove_eq h.rep.sorted h.rep.nodup (hlinked hx) hno
    refine ⟨?_, ?_, h.got, h.fifo⟩
    · rw [hmove]
      exact bmpRep_move h.rep (hlinked hx) hk
    · rw [hmove]
      refine (h.sort.erase h.rep.nodup x).put (keySorted_eraseId h.rep.sorted x) ?_ newKey
      rw [mem_ids_eraseId h.rep.nodup]
      exact fun hm => hm.1 rfl

/-- As long as no move stays before a tie, the two classes have the same first
node after every run and their gets answered the same nodes: the earliest
arrivals among the nodes of the lowest key. -/
theorem qClasses_agree (key : α → Nat) (ops : List (QOp α)) (s : QPair α)
    (hmoves : AllSteps qStep NoTieMove (qPairInit key) ops)
    (hrun : exec qStep (qPairInit key) ops = some s) :
    s.bmp.pFirst = qFirst s.prio ∧ s.bmpGot = s.prioGot ∧
      qFirst s.prio = arrivalFirst s.arrivals ∧ s.prioGot = s.arrivalsGot := by
  have h : Agree s :=
    exec_invariant_of (fun _ _ _ hi hno hs => agree_step hi hno hs)
      (agree_init key) hmoves hrun
  exact ⟨h.rep.first, h.got, h.sort.first h.rep.sorted, h.fifo⟩

end

/-- Two nodes of keys 5 and 6; the first moves to key 7, behind the other. -/
theorem qClasses_agree_moved :
    ∃ s, exec qStep (qPairInit fun _ : Fin 2 => 0)
        [.put 0 5, .put 1 6, .move 0 7, .get] = some s ∧
      s.bmp.pFirst = qFirst s.prio ∧ s.bmpGot = s.prioGot ∧
        qFirst s.prio = arrivalFirst s.arrivals ∧ s.prioGot = s.arrivalsGot :=
  ⟨_, rfl, qClasses_agree (fun _ => 0) [.put 0 5, .put 1 6, .move 0 7, .get] _
    (by decide) rfl⟩

/-- A node of key 5 moves to the key 6 of its next node.  The linked queue keeps
it first, the bit mapped queue puts it behind, and the gets differ. -/
theorem qClasses_part_at_tie :
    ¬ ∀ (key : Fin 2 → Nat) (ops : List (QOp (Fin 2))) (s : QPair (Fin 2)),
      exec qStep (qPairInit key) ops = some s →
        s.bmp.pFirst = qFirst s.prio ∧ s.bmpGot = s.prioGot := by
  intro h
  have hpart : ∃ s, exec qStep (qPairInit fun _ : Fin 2 => 0)
      [.put 0 5, .put 1 6, .move 0 6, .get] = some s ∧
        s.bmpGot = [some 1] ∧ s.prioGot = [some 0] :=
    ⟨_, rfl, by decide, by decide⟩
  obtain ⟨s, hrun, hb, hp⟩ := hpart
  have hgot := (h _ _ s hrun).2
  rw [hb, hp] at hgot
  exact absurd hgot (by decide)

end Vmx.Util
