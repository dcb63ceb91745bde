import Vmx.Lib.Transition
import Vmx.Util.DllLib
import Vmx.Util.QClasses

/-!
# `qPriBmpLib` on its links

The bit mapped queue with the links and the key words of its nodes in memory.  `Links q rep` says
that the 256 lists of `q` have the nodes of the lists of `rep`, the head of `Util.QPriBmp` that
represents a sorted list; `bitmapped_queue` is the result for all runs.

The queue is one that `qPriBmpInit` has made with 256 lists or more: `qHeadFirstFind` looks at
eight words, whatever the size.
-/

namespace Vmx.Util.QPriBmp

open Lib

/-- `Q_PRI_BMP_HEAD` with the memory of the nodes. -/
structure Head (ν : Type) where
  nodes : DlNodes ν
  key : ν → Nat
  head : Nat → DL_LIST ν
  bmp : Nat → Nat
  pFirst : Option ν

variable {ν : Type}

/-- `qHeadFirstFind`. -/
def qHeadFirstFind (q : Head ν) : Option Nat := qHeadFirstFindFrom q.bmp 0 8

/-- `DLL_HEAD` of the first list, and `NULL` for `ERROR`.  `qPriBmpPut` does not ask for `ERROR`,
which it cannot get when it has just set a bit. -/
def Head.firstHead (q : Head ν) : Option ν :=
  (qHeadFirstFind q).elim none fun first => (q.head first).head

/-- `qPriBmpInit`, with anything in the memory of the nodes. -/
def qPriBmpInit (nodes : DlNodes ν) (key : ν → Nat) : Head ν :=
  { nodes := nodes, key := key, head := fun _ => dllInit, bmp := fun _ => 0, pFirst := none }

/-- List `i` after a call of `dllLib`. -/
def Head.setList (q : Head ν) (i : Nat) (r : DlNodes ν × DL_LIST ν) : Head ν :=
  { q with nodes := r.1, head := Function.update q.head i r.2 }

/-- `if (DLL_EMPTY(pHead)) bmp[i >> 5] &= ~(1 << (i & 0x1f))`. -/
def Head.clearEmpty (q : Head ν) (i : Nat) : Head ν :=
  if (q.head i).head = none then { q with bmp := bmpClear q.bmp i } else q

section

variable [DecidableEq ν]

def qPriBmpPut (q : Head ν) (pQNode : ν) (key : Nat) : Head ν :=
  let q := { q with bmp := bmpSet q.bmp key }
  let q := q.setList key (dllAdd q.nodes (q.head key) pQNode)
  let q := { q with key := Function.update q.key pQNode key }
  { q with pFirst := q.firstHead }

def qPriBmpGet (q : Head ν) : Option ν × Head ν :=
  match q.pFirst with
  | none => (none, q)
  | some pQNode =>
    let i := q.key pQNode
    -- the node that `dllGet` takes out is not looked at
    let q := q.setList i (dllGet q.nodes (q.head i)).2
    let q := q.clearEmpty i
    (some pQNode, { q with pFirst := q.firstHead })

def qPriBmpRemove (q : Head ν) (pQNode : ν) : Head ν :=
  let key := q.key pQNode
  let q := q.setList key (dllRemove q.nodes (q.head key) pQNode)
  let q := q.clearEmpty key
  if q.pFirst = some pQNode then { q with pFirst := q.firstHead } else q

def qPriBmpMove (q : Head ν) (pQNode : ν) (newKey : Nat) : Head ν :=
  qPriBmpPut (qPriBmpRemove q pQNode) pQNode newKey

end

/-! ## Runs -/

/-- The queue, the answer of the last `qPriBmpGet`, and as a ghost the nodes that have been put
and not taken out with their priorities, in the order in which they came. -/
structure State (ν : Type) where
  q : Head ν
  got : Option ν
  arrivals : List (ν × Nat)

/-- An empty queue. -/
def init (nodes : DlNodes ν) (key : ν → Nat) : State ν :=
  { q := qPriBmpInit nodes key, got := none, arrivals := [] }

section

variable [DecidableEq ν]

/-- A put is of a node that is not in the queue, a removal or a move of one that is, and the
priorities are below 256.  A moved node comes anew. -/
def step (s : State ν) : QOp ν → Option (State ν)
  | .put x key =>
    if x ∉ ids s.arrivals ∧ key < 256 then
      some { s with q := qPriBmpPut s.q x key, arrivals := s.arrivals ++ [(x, key)] }
    else none
  | .get =>
    let r := qPriBmpGet s.q
    some { q := r.2, got := r.1, arrivals := r.1.elim s.arrivals (eraseId s.arrivals) }
  | .remove x =>
    if x ∈ ids s.arrivals then
      some { s with q := qPriBmpRemove s.q x, arrivals := eraseId s.arrivals x }
    else none
  | .move x newKey =>
    if x ∈ ids s.arrivals ∧ newKey < 256 then
      some { s with
        q := qPriBmpMove s.q x newKey, arrivals := eraseId s.arrivals x ++ [(x, newKey)] }
    else none

end

/-- The lists, the bits and the cached pointer of a queue agree. -/
structure Agrees (s : State ν) : Prop where
  -- each list has the nodes of its priority in the order in which they came
  list : ∀ k, IsDll s.q.nodes (s.q.head k) (bucket s.arrivals k)
  bound : ∀ e ∈ s.arrivals, e.2 < 256
  words : BmpWords s.q.bmp
  bit : ∀ k < 256, bmpBit s.q.bmp k = true ↔ (s.q.head k).head ≠ none
  empty : s.q.pFirst = none ↔ ∀ k < 256, (s.q.head k).head = none
  lowest : ∀ k < 256, (s.q.head k).head ≠ none → (∀ j < k, (s.q.head j).head = none) →
    s.q.pFirst = (s.q.head k).head

/-! ## The queue of lists -/

/-- The lists are linked as they are to be. -/
structure Links (q : Head ν) (rep : QPriBmpHead ν) : Prop where
  list : ∀ k, IsDll q.nodes (q.head k) (rep.head k)
  key : q.key = rep.key
  bmp : q.bmp = rep.bmp
  first : q.pFirst = rep.pFirst

variable {q : Head ν} {rep : QPriBmpHead ν} {l : List (ν × Nat)} {x : ν} {key : Nat}

theorem links_init (nodes : DlNodes ν) (key : ν → Nat) :
    Links (qPriBmpInit nodes key) (Util.qPriBmpInit key) :=
  ⟨fun _ => isDll_init nodes, rfl, rfl, rfl⟩

theorem Links.firstHead_eq (h : Links q rep) : q.firstHead = firstNode rep := by
  rw [Head.firstHead, QPriBmp.qHeadFirstFind, firstNode, Util.qHeadFirstFind, h.bmp]
  cases qHeadFirstFindFrom rep.bmp 0 8 with
  | none => rfl
  | some first => exact (h.list first).head_eq

/-- The other lists stay as they are when the nodes of one list and a node outside change. -/
theorem Links.setList {r : DlNodes ν × DL_LIST ν} {nodes : List ν} (h : Links q rep) (key : Nat)
    (hr : IsDll r.1 r.2 nodes)
    (hout : ∀ k ≠ key, ∀ n ∈ rep.head k,
      r.1.next n = q.nodes.next n ∧ r.1.prev n = q.nodes.prev n) :
    Links (q.setList key r) { rep with head := Function.update rep.head key nodes } := by
  refine ⟨fun k => ?_, h.key, h.bmp, h.first⟩
  by_cases hk : k = key
  · rw [hk]
    show IsDll r.1 (Function.update q.head key r.2 key) (Function.update rep.head key nodes key)
    rw [Function.update_self, Function.update_self]
    exact hr
  · show IsDll r.1 (Function.update q.head key r.2 k) (Function.update rep.head key nodes k)
    rw [Function.update_of_ne hk, Function.update_of_ne hk]
    exact (h.list k).congr (hout k hk)

theorem Links.clearEmpty (h : Links q rep) :
    Links (q.clearEmpty key)
      (if rep.head key = [] then { rep with bmp := bmpClear rep.bmp key } else rep) := by
  have hempty : (q.head key).head = none ↔ rep.head key = [] := by
    rw [(h.list key).head_eq, List.head?_eq_none_iff]
  rw [Head.clearEmpty]
  by_cases hnil : rep.head key = []
  · rw [if_pos (hempty.2 hnil), if_pos hnil]
    exact ⟨h.list, h.key, congrArg (bmpClear · key) h.bmp, h.first⟩
  · rw [if_neg (mt hempty.1 hnil), if_neg hnil]
    exact h

theorem Links.refresh (h : Links q rep) :
    Links { q with pFirst := q.firstHead } { rep with pFirst := firstNode rep } := by
  rw [h.firstHead_eq]
  exact ⟨h.list, h.key, h.bmp, rfl⟩

theorem Links.refresh_of [DecidableEq ν] (h : Links q rep) :
    Links (if q.pFirst = some x then { q with pFirst := q.firstHead } else q)
      (if rep.pFirst = some x then { rep with pFirst := firstNode rep } else rep) := by
  rw [h.first]
  by_cases hx : rep.pFirst = some x
  · rw [if_pos hx, if_pos hx]
    exact h.refresh
  · rw [if_neg hx, if_neg hx]
    exact h

/-! ## The operations -/

/-- Nodes of two lists are different. -/
theorem ne_of_mem_lists (hrep : BmpRep rep l) {j k : Nat} (hne : k ≠ j) {n : ν}
    (hk : n ∈ rep.head k) : n ∉ rep.head j := by
  intro hj
  rw [hrep.list] at hj hk
  exact hne (key_unique hrep.nodup (mem_bucket.1 hk) (mem_bucket.1 hj))

section

variable [DecidableEq ν]

theorem links_put (h : Links q rep) (hrep : BmpRep rep l) (hx : x ∉ ids l) :
    Links (qPriBmpPut q x key) (Util.qPriBmpPut rep x key) := by
  have hout : ∀ k, x ∉ rep.head k := fun k hm => by
    rw [hrep.list] at hm
    exact hx (mem_ids_of_mem (mem_bucket.1 hm))
  have hset : Links { q with bmp := bmpSet q.bmp key } { rep with bmp := bmpSet rep.bmp key } :=
    ⟨h.list, h.key, congrArg (bmpSet · key) h.bmp, h.first⟩
  have hadd := hset.setList key (isDll_add (h.list key) (hout key)) fun k hk n hn =>
    dllAdd_links (h.list key) (fun heq => hout k (heq ▸ hn)) (ne_of_mem_lists hrep hk hn)
  have hkey : ∀ {q : Head ν} {rep : QPriBmpHead ν}, Links q rep →
      Links { q with key := Function.update q.key x key }
        { rep with key := Function.update rep.key x key } := fun h =>
    ⟨h.list, congrArg (Function.update · x key) h.key, h.bmp, h.first⟩
  exact (hkey hadd).refresh

/-- A node is taken out of its list. -/
theorem links_unlink (h : Links q rep) (hrep : BmpRep rep l) (hx : (x, key) ∈ l) :
    Links (q.setList key (dllRemove q.nodes (q.head key) x))
      { rep with head := Function.update rep.head key ((rep.head key).erase x) } := by
  have hmem : x ∈ rep.head key := by
    rw [hrep.list]
    exact mem_bucket.2 hx
  have hlist := h.list key
  have hnodup := hlist.nodup
  obtain ⟨pre, post, hsplit⟩ := List.append_of_mem hmem
  have herase : (rep.head key).erase x = pre ++ post := by
    rw [hsplit] at hnodup ⊢
    have hpre : x ∉ pre := fun hm =>
      (List.nodup_append.1 hnodup).2.2 x hm x List.mem_cons_self rfl
    rw [List.erase_append_right _ hpre, List.erase_cons_head]
  rw [herase]
  refine h.setList key ?_ fun k hk n hn => ?_
  · rw [hsplit] at hlist
    exact isDll_remove hlist
  · have hnot := ne_of_mem_lists hrep hk hn
    rw [hsplit] at hlist hnot
    exact dllRemove_links hlist hnot

theorem links_remove (h : Links q rep) (hrep : BmpRep rep l) (hx : x ∈ ids l) :
    Links (qPriBmpRemove q x) (Util.qPriBmpRemove rep x) := by
  obtain ⟨key, hmem⟩ := mem_ids.1 hx
  have hkey : rep.key x = key := hrep.key (x, key) hmem
  rw [qPriBmpRemove, Util.qPriBmpRemove, h.key, hkey]
  exact (links_unlink h hrep hmem).clearEmpty.refresh_of

theorem links_move {newKey : Nat} (h : Links q rep) (hrep : BmpRep rep l) (hx : x ∈ ids l) :
    Links (qPriBmpMove q x newKey) (Util.qPriBmpMove rep x newKey) := by
  refine links_put (links_remove h hrep hx) (bmpRep_remove hrep hx) fun hm => ?_
  rw [mem_ids_eraseId hrep.nodup] at hm
  exact hm.1 rfl

theorem links_get (h : Links q rep) (hrep : BmpRep rep l) :
    (qPriBmpGet q).1 = (Util.qPriBmpGet rep).1 ∧
      Links (qPriBmpGet q).2 (Util.qPriBmpGet rep).2 := by
  rw [qPriBmpGet, Util.qPriBmpGet, h.first, h.key]
  cases l with
  | nil =>
    rw [hrep.first]
    exact ⟨rfl, h⟩
  | cons e l =>
    have hkey : rep.key e.1 = e.2 := hrep.key e List.mem_cons_self
    have hlist : rep.head e.2 = e.1 :: bucket l e.2 := by
      rw [hrep.list, bucket_cons, if_pos rfl]
    have hdll := h.list e.2
    rw [hlist] at hdll
    -- the first node of the list is the one that the pointer has
    have hmem : (e.1, e.2) ∈ e :: l := List.mem_cons_self
    have hunlink := links_unlink h hrep hmem
    have htail : (rep.head e.2).erase e.1 = (rep.head e.2).tail := by
      rw [hlist, List.erase_cons_head, List.tail_cons]
    rw [htail, hrep.first, qFirst_cons] at hunlink
    rw [hrep.first, qFirst_cons]
    dsimp only
    rw [hkey, dllGet_cons hdll]
    exact ⟨rfl, hunlink.clearEmpty.refresh⟩

/-! ## The runs -/

/-- What every run keeps: the queue represents a sorted list of the arrivals. -/
def Inv (s : State ν) : Prop := ∃ rep l, Links s.q rep ∧ BmpRep rep l ∧ SortOf l s.arrivals

variable {s s' : State ν} {op : QOp ν}

/-- A get answers the first of the arrivals. -/
theorem inv_get {rep : QPriBmpHead ν} (h : Links s.q rep) (hrep : BmpRep rep l)
    (hsort : SortOf l s.arrivals) (hs : step s .get = some s') :
    Inv s' ∧ s'.got = arrivalFirst s.arrivals := by
  obtain ⟨hgot, hlinks⟩ := links_get h hrep
  obtain ⟨hanswer, hrep'⟩ := bmpRep_get hrep
  have hfirst := hsort.first hrep.sorted
  rw [step] at hs
  rw [← Option.some.inj hs, hgot, hanswer]
  cases l with
  | nil => exact ⟨⟨_, _, hlinks, hrep', hsort⟩, hfirst⟩
  | cons e l =>
    have herase := hsort.erase hrep.nodup e.1
    rw [eraseId_cons, if_pos rfl] at herase
    exact ⟨⟨_, _, hlinks, hrep', herase⟩, hfirst⟩

theorem inv_step (h : Inv s) (hs : step s op = some s') : Inv s' := by
  obtain ⟨rep, l, hlinks, hrep, hsort⟩ := h
  cases op with
  | put x key =>
    rw [step, Option.ite_none_right_eq_some] at hs
    obtain ⟨⟨hx, hkey⟩, hs⟩ := hs
    have hout : x ∉ ids l := fun hm => hx ((hsort.mem_ids x).1 hm)
    rw [← Option.some.inj hs]
    exact ⟨_, _, links_put hlinks hrep hout, bmpRep_put hrep hout hkey,
      hsort.put hrep.sorted hout key⟩
  | get => exact (inv_get hlinks hrep hsort hs).1
  | remove x =>
    rw [step, Option.ite_none_right_eq_some] at hs
    obtain ⟨hx, hs⟩ := hs
    have hin := (hsort.mem_ids x).2 hx
    rw [← Option.some.inj hs]
    exact ⟨_, _, links_remove hlinks hrep hin, bmpRep_remove hrep hin, hsort.erase hrep.nodup x⟩
  | move x newKey =>
    rw [step, Option.ite_none_right_eq_some] at hs
    obtain ⟨⟨hx, hkey⟩, hs⟩ := hs
    have hin := (hsort.mem_ids x).2 hx
    have hout : x ∉ ids (eraseId l x) := fun hm => by
      rw [mem_ids_eraseId hrep.nodup] at hm
      exact hm.1 rfl
    rw [← Option.some.inj hs]
    exact ⟨_, _, links_move hlinks hrep hin, bmpRep_move hrep hin hkey,
      (hsort.erase hrep.nodup x).put (keySorted_eraseId hrep.sorted x) hout newKey⟩

end

theorem inv_init (nodes : DlNodes ν) (key : ν → Nat) : Inv (init nodes key) :=
  ⟨_, _, links_init nodes key, bmpRep_init key, List.nodup_nil, fun _ => rfl⟩

/-- The invariant gives the agreement of the three parts of the head. -/
theorem Inv.agrees {s : State ν} (h : Inv s) : Agrees s := by
  obtain ⟨rep, l, hlinks, hrep, hsort⟩ := h
  have hhead : ∀ k, (s.q.head k).head = (bucket l k).head? := fun k => by
    rw [(hlinks.list k).head_eq, hrep.list]
  have hnone : ∀ k, (s.q.head k).head = none ↔ bucket l k = [] := fun k => by
    rw [hhead, List.head?_eq_none_iff]
  have hfirst : s.q.pFirst = qFirst l := hlinks.first.trans hrep.first
  refine ⟨fun k => ?_, fun e he => hrep.bound e ((hsort.mem e).2 he), ?_, fun k hk => ?_, ?_,
    fun k hk hne hlow => ?_⟩
  · rw [← hsort.buckets, ← hrep.list]
    exact hlinks.list k
  · rw [hlinks.bmp]
    exact hrep.words
  · rw [hlinks.bmp, hrep.bit k hk, decide_eq_true_iff, Ne, Ne, hnone]
  · rw [hfirst, qFirst_eq_none]
    constructor
    · intro hl k _
      rw [hnone, hl, bucket_nil]
    · intro hall
      refine List.eq_nil_iff_forall_not_mem.2 fun e he => ?_
      have hempty := (hnone e.2).1 (hall e.2 (hrep.bound e he))
      exact List.ne_nil_of_mem (mem_bucket.2 he) hempty
  · obtain ⟨x, xs, hx⟩ := List.exists_cons_of_ne_nil (mt (hnone k).2 hne)
    rw [hfirst, hhead, hx, List.head?_cons]
    exact congrArg (Option.map Prod.fst)
      (head?_eq_of_bucket hrep.sorted hx fun j hj => (hnone j).1 (hlow j hj))

/-- In every run of puts, gets, removals and moves of distinct nodes the lists, the bits and the
cached pointer agree, and a get takes the earliest node of the smallest priority. -/
theorem bitmapped_queue [DecidableEq ν] (nodes : DlNodes ν) (key : ν → Nat) (ops : List (QOp ν))
    (s : State ν) (hrun : exec step (init nodes key) ops = some s) :
    Agrees s ∧ ∀ s', step s .get = some s' → s'.got = arrivalFirst s.arrivals := by
  have h : Inv s := exec_invariant (fun _ _ _ h hs => inv_step h hs) (inv_init nodes key) hrun
  refine ⟨h.agrees, fun s' hs => ?_⟩
  obtain ⟨rep, l, hlinks, hrep, hsort⟩ := h
  exact (inv_get hlinks hrep hsort hs).2

/-- The last node of a priority goes while it is first. -/
theorem bitmapped_queue_four :
    ∃ s : State Nat, exec step (init ⟨fun _ => none, fun _ => none⟩ fun _ => 0)
        [.put 1 37, .put 2 200, .remove 1, .move 2 36] = some s ∧
      s.q.pFirst = some 2 ∧
      Agrees s ∧ ∀ s', step s .get = some s' → s'.got = arrivalFirst s.arrivals :=
  ⟨_, rfl, rfl, bitmapped_queue ⟨fun _ => none, fun _ => none⟩ (fun _ => 0)
    [.put 1 37, .put 2 200, .remove 1, .move 2 36] _ rfl⟩

end Vmx.Util.QPriBmp
