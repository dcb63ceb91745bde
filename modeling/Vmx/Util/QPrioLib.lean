import Vmx.Lib.Transition
import Vmx.Util.DllLib
import Vmx.Util.QClasses

/-!
# `qPrioLib` on its links

The linked priority queue with the links and the key words of its nodes in memory.  A key is an
`int` that the queue stores and compares as an `unsigned`.  The loops along the list take as many
rounds as there are nodes in the queue; `none` would be a loop that goes on.

`Queue s l` says that the queue of the state is a well formed list of the sorted list `l`, which
has the nodes that have been put and not taken out.  `linked_queue` is the result for all runs.
-/

namespace Vmx.Util.QPrio

open Lib

/-- An `int` as an `unsigned`. -/
def unsigned (n : Int) : Nat := (n % 4294967296).toNat

/-- `Q_PRIO_HEAD` with the memory of the nodes. -/
structure Head (ν : Type) where
  nodes : DlNodes ν
  key : ν → Nat
  head : DL_LIST ν

variable {ν : Type} [DecidableEq ν]

namespace Head

/-- `dllInsert` into the queue. -/
def insert (q : Head ν) (pPrev : Option ν) (pNode : ν) : Head ν :=
  let r := dllInsert q.nodes q.head pPrev pNode
  { q with nodes := r.1, head := r.2 }

/-- A key is stored in a node. -/
def setKey (q : Head ν) (pNode : ν) (key : Nat) : Head ν :=
  { q with key := Function.update q.key pNode key }

end Head

/-- The loop of `qPrioPut`. -/
def putLoop (q : Head ν) (pQPriNode : ν) (key : Nat) : Nat → Option ν → Option (Head ν)
  | _, none => some (q.insert q.head.tail pQPriNode)
  | 0, some _ => none
  | rounds + 1, some pQNode =>
    if key < q.key pQNode then some (q.insert (q.nodes.prev pQNode) pQPriNode)
    else putLoop q pQPriNode key rounds (q.nodes.next pQNode)

def qPrioPut (rounds : Nat) (q : Head ν) (pQPriNode : ν) (key : Int) : Option (Head ν) :=
  putLoop (q.setKey pQPriNode (unsigned key)) pQPriNode (unsigned key) rounds q.head.head

def qPrioGet (q : Head ν) : Option ν × Head ν :=
  if q.head.head = none then (none, q)
  else
    let r := dllGet q.nodes q.head
    (r.1, { q with nodes := r.2.1, head := r.2.2 })

def qPrioRemove (q : Head ν) (pQPriNode : ν) : Head ν :=
  let r := dllRemove q.nodes q.head pQPriNode
  { q with nodes := r.1, head := r.2 }

def qPrioMove (rounds : Nat) (q : Head ν) (pQPriNode : ν) (newKey : Int) : Option (Head ν) :=
  if (∀ pPrev ∈ q.nodes.prev pQPriNode, unsigned newKey ≥ q.key pPrev) ∧
      ∀ pNext ∈ q.nodes.next pQPriNode, unsigned newKey ≤ q.key pNext then
    some (q.setKey pQPriNode (unsigned newKey))
  else qPrioPut rounds (qPrioRemove q pQPriNode) pQPriNode newKey

/-- The loop of `qPrioOffset`. -/
def offsetLoop (next : ν → Option ν) (delta : Int) : Nat → (ν → Nat) → Option ν → Option (ν → Nat)
  | _, key, none => some key
  | 0, _, some _ => none
  | rounds + 1, key, some pQPriNode =>
    offsetLoop next delta rounds
      (Function.update key pQPriNode (u32 (key pQPriNode + unsigned delta))) (next pQPriNode)

def qPrioOffset (rounds : Nat) (q : Head ν) (delta : Int) : Option (Head ν) :=
  (offsetLoop q.nodes.next delta rounds q.key q.head.head).map fun key => { q with key := key }

/-! ## Runs -/

/-- The operations on the queue. -/
inductive Op (ν : Type) where
  | put (pQPriNode : ν) (key : Int)
  | get
  | remove (pQPriNode : ν)
  | move (pQPriNode : ν) (newKey : Int)
  | offset (delta : Int)

/-- The queue, the answer of the last `qPrioGet`, and as a ghost the nodes that have been put and
not taken out. -/
structure State (ν : Type) where
  q : Head ν
  got : Option ν
  held : List ν

/-- An empty queue, with anything in the memory of the nodes. -/
def init (nodes : DlNodes ν) (key : ν → Nat) : State ν :=
  { q := { nodes := nodes, key := key, head := dllInit }, got := none, held := [] }

/-- A put is of a node that is not in the queue, a removal or a move of one that is, and no key
overflows under an offset. -/
def Allowed (s : State ν) : Op ν → Prop
  | .put x _ => x ∉ s.held
  | .get => True
  | .remove x => x ∈ s.held
  | .move x _ => x ∈ s.held
  | .offset delta =>
    ∀ x ∈ s.held, 0 ≤ (s.q.key x : Int) + delta ∧ (s.q.key x : Int) + delta < 4294967296

instance (s : State ν) : (op : Op ν) → Decidable (Allowed s op)
  | .put x _ => inferInstanceAs (Decidable (x ∉ s.held))
  | .get => inferInstanceAs (Decidable True)
  | .remove x => inferInstanceAs (Decidable (x ∈ s.held))
  | .move x _ => inferInstanceAs (Decidable (x ∈ s.held))
  | .offset delta => inferInstanceAs (Decidable (∀ x ∈ s.held,
      0 ≤ (s.q.key x : Int) + delta ∧ (s.q.key x : Int) + delta < 4294967296))

/-- One operation. -/
def perform (s : State ν) : Op ν → Option (State ν)
  | .put x key =>
    (qPrioPut s.held.length s.q x key).map fun q => { s with q := q, held := s.held ++ [x] }
  | .get =>
    let r := qPrioGet s.q
    some { q := r.2, got := r.1, held := r.1.elim s.held s.held.erase }
  | .remove x => some { s with q := qPrioRemove s.q x, held := s.held.erase x }
  | .move x newKey => (qPrioMove s.held.length s.q x newKey).map fun q => { s with q := q }
  | .offset delta => (qPrioOffset s.held.length s.q delta).map fun q => { s with q := q }

def step (s : State ν) (op : Op ν) : Option (State ν) :=
  if Allowed s op then perform s op else none

/-! ## The list of a queue -/

/-- The queue is a well formed list of these nodes with these keys, in order, and they are the
nodes that it is to have. -/
structure Queue (s : State ν) (l : List (ν × Nat)) : Prop where
  links : IsDll s.q.nodes s.q.head (ids l)
  key : ∀ e ∈ l, s.q.key e.1 = e.2
  word : ∀ e ∈ l, e.2 < 4294967296
  sorted : KeySorted l
  held : (ids l).Perm s.held

/-- What an operation does to the list. -/
def OpRight (s : State ν) (l : List (ν × Nat)) (s' : State ν) (l' : List (ν × Nat)) : Op ν → Prop
  -- the new node comes behind all nodes of its key
  | .put x key => ∃ before behind, l = before ++ behind ∧
      l' = before ++ (x, unsigned key) :: behind ∧
      (∀ e ∈ before, e.2 ≤ unsigned key) ∧ ∀ e ∈ behind, unsigned key < e.2
  | .get => s'.got = qFirst l ∧ l' = l.tail
  | .remove x => l' = eraseId l x
  -- the other nodes stay in their order
  | .move x newKey => (x, unsigned newKey) ∈ l' ∧ eraseId l' x = eraseId l x
  | .offset delta => s'.q.nodes = s.q.nodes ∧ s'.q.head = s.q.head ∧ ids l' = ids l ∧
      ∀ x ∈ ids l, (s'.q.key x : Int) = s.q.key x + delta

/-! ## Putting a node -/

section

variable {q : Head ν} {l pre rest : List (ν × Nat)} {x : ν} {key : Nat} {s s' : State ν}

theorem unsigned_lt (n : Int) : unsigned n < 4294967296 := by
  unfold unsigned
  omega

/-- The loop finds the place in front of the first greater key. -/
theorem putLoop_spec {rounds : Nat} (h : IsDll q.nodes q.head (ids (pre ++ rest)))
    (hkey : ∀ e ∈ pre ++ rest, q.key e.1 = e.2) (hpre : ∀ e ∈ pre, e.2 ≤ key)
    (hrounds : rest.length ≤ rounds) :
    ∃ before behind, pre ++ rest = before ++ behind ∧ (∀ e ∈ before, e.2 ≤ key) ∧
      (∀ n, behind.head? = some n → key < n.2) ∧
      putLoop q x key rounds (ids rest).head? = some (q.insert (ids before).getLast? x) := by
  induction rest generalizing pre rounds with
  | nil =>
    have htail := h.tail_eq
    rw [List.append_nil] at htail
    refine ⟨pre, [], rfl, hpre, fun n hn => absurd hn (Option.some_ne_none n).symm, ?_⟩
    rw [← htail]
    cases rounds <;> rfl
  | cons e rest ih =>
    cases rounds with
    | zero => exact absurd hrounds (Nat.not_succ_le_zero _)
    | succ rounds =>
      have hlinks := h
      rw [ids_append, ids_cons] at hlinks
      have hkey' := hkey e (List.mem_append_right pre List.mem_cons_self)
      rw [ids_cons, List.head?_cons, putLoop, hkey']
      by_cases hlt : key < e.2
      · rw [if_pos hlt, hlinks.prev_eq]
        refine ⟨pre, e :: rest, rfl, hpre, fun n hn => ?_, rfl⟩
        rw [← Option.some.inj hn]
        exact hlt
      · rw [if_neg hlt, hlinks.next_eq]
        have happend : pre ++ e :: rest = (pre ++ [e]) ++ rest := by
          rw [List.append_assoc, List.singleton_append]
        rw [happend] at h hkey ⊢
        refine ih h hkey (fun d hd => ?_) (Nat.le_of_succ_le_succ hrounds)
        rcases List.mem_append.1 hd with hd | hd
        · exact hpre d hd
        · rw [List.mem_singleton.1 hd]
          exact Nat.le_of_not_lt hlt

/-- A put is the stable insertion. -/
theorem qPrioPut_spec {rounds : Nat} (newKey : Int) (h : IsDll q.nodes q.head (ids l))
    (hkey : ∀ e ∈ l, q.key e.1 = e.2) (hs : KeySorted l) (hx : x ∉ ids l)
    (hrounds : l.length ≤ rounds) :
    ∃ q' before behind, qPrioPut rounds q x newKey = some q' ∧ l = before ++ behind ∧
      (∀ e ∈ before, e.2 ≤ unsigned newKey) ∧ (∀ e ∈ behind, unsigned newKey < e.2) ∧
      insertKeyed l x (unsigned newKey) = before ++ (x, unsigned newKey) :: behind ∧
      IsDll q'.nodes q'.head (ids (insertKeyed l x (unsigned newKey))) ∧
      ∀ e ∈ insertKeyed l x (unsigned newKey), q'.key e.1 = e.2 := by
  have hkey' : ∀ e ∈ [] ++ l, (q.setKey x (unsigned newKey)).key e.1 = e.2 := fun e he => by
    have hne : e.1 ≠ x := fun heq => hx (heq ▸ mem_ids_of_mem he)
    exact (Function.update_of_ne hne _ _).trans (hkey e he)
  obtain ⟨before, behind, hsplit, hbefore, hbehind, hloop⟩ :=
    @putLoop_spec ν _ (q.setKey x (unsigned newKey)) [] l x (unsigned newKey) rounds h hkey'
      (fun e he => absurd he List.not_mem_nil) hrounds
  rw [List.nil_append] at hsplit
  have hinsert : insertKeyed l x (unsigned newKey) =
      before ++ (x, unsigned newKey) :: behind := by
    rw [hsplit]
    exact insertKeyed_between hbefore hbehind
  have hhead := h.head_eq
  rw [← hhead] at hloop
  refine ⟨_, before, behind, hloop, hsplit, hbefore, fun e he => ?_, hinsert, ?_, fun e he => ?_⟩
  · -- the keys behind the first greater one are greater
    have hsorted : KeySorted behind := by
      rw [hsplit] at hs
      exact (List.pairwise_append.1 hs).2.1
    cases hfirst : behind.head? with
    | none =>
      rw [List.head?_eq_none_iff] at hfirst
      rw [hfirst] at he
      exact absurd he List.not_mem_nil
    | some n =>
      exact Nat.lt_of_lt_of_le (hbehind n hfirst) (head?_le_of_keySorted hsorted hfirst e he)
  · rw [hinsert, ids_append, ids_cons]
    rw [hsplit, ids_append] at h hx
    exact isDll_insert h hx
  · rcases mem_insertKeyed.1 he with he | he
    · rw [he]
      exact Function.update_self _ _ _
    · exact hkey' e he

/-! ## Taking a node out -/

/-- A removal leaves the list without the node. -/
theorem qPrioRemove_spec (h : IsDll q.nodes q.head (ids l)) (hx : x ∈ ids l) :
    IsDll (qPrioRemove q x).nodes (qPrioRemove q x).head (ids (eraseId l x)) := by
  obtain ⟨before, k, behind, hl, hbefore, -⟩ := exists_split hx h.nodup
  rw [hl, eraseId_split hbefore, ids_append]
  rw [hl, ids_append, ids_cons] at h
  exact isDll_remove h

/-- A get takes out the first node. -/
theorem qPrioGet_spec (h : IsDll q.nodes q.head (ids l)) :
    qPrioGet q = (qFirst l, (qFirst l).elim q (qPrioRemove q)) := by
  cases l with
  | nil =>
    have hnone : q.head.head = none := h.head_eq
    rw [qPrioGet, if_pos hnone]
    rfl
  | cons e l =>
    have hne : q.head.head ≠ none := by
      rw [h.head_eq]
      exact Option.some_ne_none _
    rw [qPrioGet, if_neg hne]
    dsimp only
    rw [dllGet_cons h]
    rfl

/-! ## Moving a node -/

omit [DecidableEq ν] in
/-- The comparison with the two neighbours. -/
theorem neighbours_iff {l r : List (ν × Nat)} {k : Nat}
    (h : IsDll q.nodes q.head (ids (l ++ (x, k) :: r)))
    (hkey : ∀ e ∈ l ++ (x, k) :: r, q.key e.1 = e.2) :
    ((∀ pPrev ∈ q.nodes.prev x, key ≥ q.key pPrev) ∧ ∀ pNext ∈ q.nodes.next x, key ≤ q.key pNext) ↔
      (∀ p, l.getLast? = some p → p.2 ≤ key) ∧ ∀ n, r.head? = some n → key ≤ n.2 := by
  rw [ids_append, ids_cons] at h
  rw [h.prev_eq, h.next_eq, ids, ids, List.getLast?_map, List.head?_map]
  refine and_congr ⟨fun hp p hlast => ?_, fun hp n hn => ?_⟩
    ⟨fun hp p hfirst => ?_, fun hp n hn => ?_⟩
  · have hmem := List.mem_append_left ((x, k) :: r) (List.mem_of_getLast? hlast)
    have hle := hp p.1 (by rw [hlast]; rfl)
    rwa [hkey p hmem] at hle
  · obtain ⟨p, hlast, rfl⟩ := Option.map_eq_some_iff.1 (Option.mem_def.1 hn)
    rw [hkey p (List.mem_append_left _ (List.mem_of_getLast? hlast))]
    exact hp p hlast
  · have hmem := List.mem_append_right l (List.mem_cons_of_mem (x, k) (List.mem_of_head? hfirst))
    have hle := hp p.1 (by rw [hfirst]; rfl)
    rwa [hkey p hmem] at hle
  · obtain ⟨p, hfirst, rfl⟩ := Option.map_eq_some_iff.1 (Option.mem_def.1 hn)
    rw [hkey p (List.mem_append_right _ (List.mem_cons_of_mem _ (List.mem_of_head? hfirst)))]
    exact hp p hfirst

/-- A move is the move of the list, in place or not. -/
theorem qPrioMove_spec {rounds : Nat} (newKey : Int) (h : IsDll q.nodes q.head (ids l))
    (hkey : ∀ e ∈ l, q.key e.1 = e.2) (hs : KeySorted l) (hx : x ∈ ids l)
    (hrounds : l.length ≤ rounds) :
    ∃ q', qPrioMove rounds q x newKey = some q' ∧
      IsDll q'.nodes q'.head (ids (Util.qPrioMove l x (unsigned newKey))) ∧
      ∀ e ∈ Util.qPrioMove l x (unsigned newKey), q'.key e.1 = e.2 := by
  have hnodup := h.nodup
  obtain ⟨before, k, behind, hl, hbefore, -⟩ := exists_split hx hnodup
  have hplace : (∀ pPrev ∈ q.nodes.prev x, unsigned newKey ≥ q.key pPrev) ∧
      (∀ pNext ∈ q.nodes.next x, unsigned newKey ≤ q.key pNext) ↔
      staysInPlace l x (unsigned newKey) = true := by
    rw [hl] at h hkey ⊢
    exact (neighbours_iff h hkey).trans (staysInPlace_split hbefore).symm
  rw [qPrioMove]
  by_cases hstay : staysInPlace l x (unsigned newKey) = true
  · rw [if_pos (hplace.2 hstay)]
    refine ⟨_, rfl, ?_, fun e he => ?_⟩
    · rw [Util.qPrioMove, if_pos hstay, ids_setKey]
      exact h
    · rcases (mem_qPrioMove hx hnodup).1 he with rfl | ⟨hne, he⟩
      · exact Function.update_self _ _ _
      · exact (Function.update_of_ne hne _ _).trans (hkey e he)
  · rw [if_neg fun hc => hstay (hplace.1 hc), Util.qPrioMove, if_neg hstay,
      qPrioPut_eq_insertKeyed]
    have hlength := (eraseId_sublist l x).length_le
    obtain ⟨q', -, -, hput, -, -, -, -, hlinks, hkeys⟩ :=
      qPrioPut_spec newKey (qPrioRemove_spec h hx)
        (fun e he => hkey e ((eraseId_sublist l x).subset he)) (keySorted_eraseId hs x)
        (fun hm => ((mem_ids_eraseId hnodup).1 hm).1 rfl) (Nat.le_trans hlength hrounds)
    exact ⟨q', hput, hlinks, hkeys⟩

/-- A move leaves the other nodes in their order. -/
theorem eraseId_qPrioMove {newKey : Nat} (hx : x ∈ ids l) (hn : (ids l).Nodup) :
    eraseId (Util.qPrioMove l x newKey) x = eraseId l x := by
  obtain ⟨before, k, behind, rfl, hbefore, hbehind⟩ := exists_split hx hn
  rw [Util.qPrioMove]
  split
  · rw [setKey_split hn, eraseId_split hbefore, eraseId_split hbefore]
  · rw [qPrioPut_eq_insertKeyed, Util.qPrioRemove, eraseId_split hbefore]
    refine eraseId_insertKeyed fun hm => ?_
    rw [ids_append] at hm
    exact (List.mem_append.1 hm).elim hbefore hbehind

/-! ## Offsetting the keys -/

/-- The loop along the nodes changes their keys, and no others. -/
theorem offsetLoop_spec {next : ν → Option ν} (delta : Int) {p : Option ν} {nodes : List ν}
    (h : Chain next p nodes) {rounds : Nat} (hrounds : nodes.length ≤ rounds) (key : ν → Nat) :
    offsetLoop next delta rounds key p =
      some fun x => if x ∈ nodes then u32 (key x + unsigned delta) else key x := by
  induction nodes generalizing p rounds key with
  | nil =>
    rw [Chain] at h
    rw [h]
    cases rounds <;> rfl
  | cons n nodes ih =>
    have hnodup := List.nodup_cons.1 h.nodup
    obtain ⟨hp, hnext⟩ := h
    cases rounds with
    | zero => exact absurd hrounds (Nat.not_succ_le_zero _)
    | succ rounds =>
      rw [hp, offsetLoop, ih hnext (Nat.le_of_succ_le_succ hrounds)]
      congr 1
      funext x
      by_cases hx : x = n
      · rw [hx, if_neg hnodup.1, Function.update_self, if_pos List.mem_cons_self]
      · rw [Function.update_of_ne hx]
        by_cases hm : x ∈ nodes
        · rw [if_pos hm, if_pos (List.mem_cons_of_mem n hm)]
        · rw [if_neg hm, if_neg fun hc => (List.mem_cons.1 hc).elim hx hm]

/-! ## The runs -/

omit [DecidableEq ν] in
theorem queue_init (nodes : DlNodes ν) (key : ν → Nat) : Queue (init nodes key) [] where
  links := isDll_init nodes
  key _ he := absurd he List.not_mem_nil
  word _ he := absurd he List.not_mem_nil
  sorted := List.Pairwise.nil
  held := List.Perm.nil

namespace Queue

variable {newKey delta : Int}

omit [DecidableEq ν] in
theorem length_eq (h : Queue s l) : l.length = s.held.length := by
  rw [← h.held.length_eq, ids, List.length_map]

theorem put (h : Queue s l) (hx : x ∉ s.held) :
    ∃ s' l', perform s (.put x newKey) = some s' ∧ Queue s' l' ∧
      OpRight s l s' l' (.put x newKey) := by
  have hout : x ∉ ids l := fun hm => hx (h.held.mem_iff.1 hm)
  obtain ⟨q', before, behind, hput, hl, hbefore, hbehind, hinsert, hlinks, hkey⟩ :=
    qPrioPut_spec newKey h.links h.key h.sorted hout (Nat.le_of_eq h.length_eq)
  refine ⟨{ s with q := q', held := s.held ++ [x] }, insertKeyed l x (unsigned newKey), ?_,
    ⟨hlinks, hkey, fun e he => ?_, ?_, ?_⟩, before, behind, hl, hinsert, hbefore, hbehind⟩
  · rw [perform, hput]
    rfl
  · rcases mem_insertKeyed.1 he with rfl | he
    · exact unsigned_lt newKey
    · exact h.word e he
  · exact keySorted_insertKeyed h.sorted x _
  · exact (ids_insertKeyed_perm l x _).trans
      ((List.Perm.cons x h.held).trans (List.perm_append_singleton x s.held).symm)

theorem remove (h : Queue s l) (hx : x ∈ s.held) {got : Option ν} :
    Queue { q := qPrioRemove s.q x, got := got, held := s.held.erase x } (eraseId l x) where
  links := qPrioRemove_spec h.links (h.held.mem_iff.2 hx)
  key e he := h.key e ((eraseId_sublist l x).subset he)
  word e he := h.word e ((eraseId_sublist l x).subset he)
  sorted := keySorted_eraseId h.sorted x
  held := by
    rw [ids_eraseId]
    exact h.held.erase x

theorem get (h : Queue s l) :
    ∃ s' l', perform s .get = some s' ∧ Queue s' l' ∧ OpRight s l s' l' .get := by
  refine ⟨_, l.tail, rfl, ?_, ?_, rfl⟩
  · rw [qPrioGet_spec h.links]
    cases l with
    | nil => exact ⟨h.links, h.key, h.word, h.sorted, h.held⟩
    | cons e l =>
      have hremove := @remove ν _ (e :: l) e.1 s h (h.held.mem_iff.1 List.mem_cons_self) (some e.1)
      rw [eraseId_cons, if_pos rfl] at hremove
      exact hremove
  · rw [qPrioGet_spec h.links]

theorem move (h : Queue s l) (hx : x ∈ s.held) :
    ∃ s' l', perform s (.move x newKey) = some s' ∧ Queue s' l' ∧
      OpRight s l s' l' (.move x newKey) := by
  have hin := h.held.mem_iff.2 hx
  have hnodup := h.links.nodup
  obtain ⟨q', hmove, hlinks, hkey⟩ := qPrioMove_spec newKey h.links h.key h.sorted hin
    (Nat.le_of_eq h.length_eq)
  refine ⟨{ s with q := q' }, Util.qPrioMove l x (unsigned newKey), ?_,
    ⟨hlinks, hkey, fun e he => ?_, ?_, ?_⟩, (mem_qPrioMove hin hnodup).2 (Or.inl rfl), ?_⟩
  · rw [perform, hmove]
    rfl
  · rcases (mem_qPrioMove hin hnodup).1 he with rfl | ⟨-, he⟩
    · exact unsigned_lt newKey
    · exact h.word e he
  · exact keySorted_qPrioMove hin hnodup h.sorted _
  · exact (ids_qPrioMove_perm hin _).trans h.held
  · exact eraseId_qPrioMove hin hnodup

theorem offset (h : Queue s l) (ha : Allowed s (.offset delta)) :
    ∃ s' l', perform s (.offset delta) = some s' ∧ Queue s' l' ∧
      OpRight s l s' l' (.offset delta) := by
  have hlength : (ids l).length ≤ s.held.length := Nat.le_of_eq h.held.length_eq
  have hloop := offsetLoop_spec delta h.links.next hlength s.q.key
  have hoffset : ∀ x ∈ ids l, (u32 (s.q.key x + unsigned delta) : Int) = s.q.key x + delta := by
    intro x hx
    obtain ⟨hlow, hhigh⟩ := ha x (h.held.mem_iff.1 hx)
    unfold u32 unsigned
    omega
  have hids : ids (l.map fun e => (e.1, u32 (s.q.key e.1 + unsigned delta))) = ids l := by
    rw [ids, ids, List.map_map]
    rfl
  refine ⟨⟨⟨s.q.nodes, fun x => if x ∈ ids l then u32 (s.q.key x + unsigned delta) else s.q.key x,
    s.q.head⟩, s.got, s.held⟩,
    l.map fun e => (e.1, u32 (s.q.key e.1 + unsigned delta)), ?_, ⟨?_, ?_, ?_, ?_, ?_⟩,
    rfl, rfl, hids, fun x hx => ?_⟩
  · rw [perform, qPrioOffset, hloop]
    rfl
  · rw [hids]
    exact h.links
  · intro e he
    obtain ⟨d, hd, rfl⟩ := List.mem_map.1 he
    exact if_pos (mem_ids_of_mem hd)
  · intro e he
    obtain ⟨d, -, rfl⟩ := List.mem_map.1 he
    exact u32_lt _
  · refine List.pairwise_map.2 (h.sorted.imp_of_mem fun {a b} ha hb hle => ?_)
    have hlow := hoffset a.1 (mem_ids_of_mem ha)
    have hhigh := hoffset b.1 (mem_ids_of_mem hb)
    rw [h.key a ha] at hlow ⊢
    rw [h.key b hb] at hhigh ⊢
    omega
  · rw [hids]
    exact h.held
  · dsimp only
    rw [if_pos hx, hoffset x hx]

/-- What an operation does. -/
theorem step {op : Op ν} (h : Queue s l) (ha : Allowed s op) :
    ∃ s' l', QPrio.step s op = some s' ∧ Queue s' l' ∧ OpRight s l s' l' op := by
  rw [QPrio.step, if_pos ha]
  cases op with
  | put x newKey => exact h.put ha
  | get => exact h.get
  | remove x => exact ⟨_, _, rfl, h.remove ha, rfl⟩
  | move x newKey => exact h.move ha
  | offset delta => exact h.offset ha

end Queue

omit [DecidableEq ν] in
theorem allowed_of_step [DecidableEq ν] {op : Op ν} (h : step s op = some s') : Allowed s op := by
  rw [step] at h
  split at h
  · assumption
  · cases h

end

/-- In every run on any nodes the queue is a well formed list of the nodes put and not taken out,
in the order of their keys as words, and every operation that may come next does its part. -/
theorem linked_queue (nodes : DlNodes ν) (key : ν → Nat) (ops : List (Op ν)) (s : State ν)
    (hrun : exec step (init nodes key) ops = some s) :
    ∃ l, Queue s l ∧ ∀ op, Allowed s op →
      ∃ s' l', step s op = some s' ∧ Queue s' l' ∧ OpRight s l s' l' op := by
  have hqueue : ∃ l, Queue s l := by
    refine exec_invariant (I := fun s => ∃ l, Queue s l) (fun s op s' h hs => ?_)
      ⟨[], queue_init nodes key⟩ hrun
    obtain ⟨l, h⟩ := h
    obtain ⟨t, l', ht, h', -⟩ := h.step (allowed_of_step hs)
    rw [hs] at ht
    rw [Option.some.inj ht]
    exact ⟨l', h'⟩
  obtain ⟨l, h⟩ := hqueue
  exact ⟨l, h, fun op ha => h.step ha⟩

/-- Three puts, a move that goes by removal and put, an offset and a get. -/
theorem linked_queue_six :
    ∃ s : State Nat, exec step (init ⟨fun _ => none, fun _ => none⟩ fun _ => 0)
        [.put 1 5, .put 2 3, .put 3 5, .move 2 6, .offset (-4), .get] = some s ∧
      s.got = some 1 ∧ ∃ l, Queue s l ∧ ∀ op, Allowed s op →
        ∃ s' l', step s op = some s' ∧ Queue s' l' ∧ OpRight s l s' l' op :=
  ⟨_, rfl, rfl, linked_queue ⟨fun _ => none, fun _ => none⟩ (fun _ => 0)
    [.put 1 5, .put 2 3, .put 3 5, .move 2 6, .offset (-4), .get] _ rfl⟩

/-- A stored key as an `int`. -/
def signed (key : Nat) : Int := if key < 2147483648 then key else (key : Int) - 4294967296

/-- The list is not in the order of the `int` keys: a node of key -1 comes behind one of key 1. -/
theorem signed_order :
    ¬ ∀ (ops : List (Op Nat)) (s : State Nat),
      exec step (init ⟨fun _ => none, fun _ => none⟩ fun _ => 0) ops = some s →
      ∃ l, IsDll s.q.nodes s.q.head l ∧
        l.Pairwise fun x y => signed (s.q.key x) ≤ signed (s.q.key y) := by
  intro h
  obtain ⟨l, hl, hsorted⟩ := h [.put 1 1, .put 2 (-1)] _ rfl
  have hlist : l = [1, 2] := hl.next.unique ⟨rfl, rfl, rfl⟩
  rw [hlist] at hsorted
  exact absurd hsorted (by decide)

end Vmx.Util.QPrio
