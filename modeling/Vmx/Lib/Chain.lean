import Mathlib.Data.List.Nodup
import Mathlib.Logic.Function.Basic

/-!
# Linked lists in memory

`next` gives each node the node behind it.  `Chain next head nodes` says that the nodes
from `head` on are those of the list `nodes`, in order, and that the list ends.  There is
at most one such list (`Chain.unique`).  `link` is how a node is put into a list and taken out
of it, `Back` says the same of the links back, which `linkBack` sets, and `findLoop` is a
search along the links.
-/

namespace Vmx.Lib

universe u

variable {ν : Type u}

/-- The nodes from a pointer on. -/
def Chain (next : ν → Option ν) : Option ν → List ν → Prop
  | head, [] => head = none
  | head, n :: nodes => head = some n ∧ Chain next (next n) nodes

namespace Chain

variable {next next' : ν → Option ν} {head : Option ν} {nodes nodes' : List ν} {n : ν}

theorem head_eq (h : Chain next head nodes) : head = nodes.head? := by
  cases nodes with
  | nil => exact h
  | cons n nodes => exact h.1

theorem unique (h : Chain next head nodes) (h' : Chain next head nodes') : nodes = nodes' := by
  induction nodes generalizing head nodes' with
  | nil =>
    cases nodes' with
    | nil => rfl
    | cons n nodes' =>
      have heq := h.symm.trans h'.1
      cases heq
  | cons n nodes ih =>
    cases nodes' with
    | nil =>
      have heq := h'.symm.trans h.1
      cases heq
    | cons n' nodes' =>
      obtain rfl : n = n' := Option.some.inj (h.1.symm.trans h'.1)
      rw [ih h.2 h'.2]

/-- Only the links of the nodes matter. -/
theorem congr (h : Chain next head nodes) (hn : ∀ n ∈ nodes, next' n = next n) :
    Chain next' head nodes := by
  induction nodes generalizing head with
  | nil => exact h
  | cons n nodes ih =>
    refine ⟨h.1, ?_⟩
    rw [hn n List.mem_cons_self]
    exact ih h.2 fun n hm => hn n (List.mem_cons_of_mem _ hm)

/-- The part of a list from a node on. -/
theorem suffix {pre post : List ν} (h : Chain next head (pre ++ n :: post)) :
    Chain next (some n) (n :: post) := by
  induction pre generalizing head with
  | nil => exact ⟨rfl, h.2⟩
  | cons m pre ih => exact ih h.2

/-- No node is in the list twice. -/
theorem nodup (h : Chain next head nodes) : nodes.Nodup := by
  induction nodes generalizing head with
  | nil => exact List.nodup_nil
  | cons n nodes ih =>
    refine List.nodup_cons.2 ⟨fun hmem => ?_, ih h.2⟩
    obtain ⟨pre, post, rfl⟩ := List.append_of_mem hmem
    have heq := congrArg List.length
      (unique (show Chain next (some n) (n :: (pre ++ n :: post)) from ⟨rfl, h.2⟩) (suffix h.2))
    simp only [List.length_cons, List.length_append] at heq
    omega

/-- A node is still found when the links before it are the same. -/
theorem mem_of_prefix {pre post : List ν} (h : Chain next head (pre ++ n :: post))
    (hn : ∀ m ∈ pre, next' m = next m) (h' : Chain next' head nodes') : n ∈ nodes' := by
  induction pre generalizing head nodes' with
  | nil =>
    cases nodes' with
    | nil =>
      have heq := h'.symm.trans h.1
      cases heq
    | cons m nodes' =>
      obtain rfl : n = m := Option.some.inj (h.1.symm.trans h'.1)
      exact List.mem_cons_self
  | cons m pre ih =>
    cases nodes' with
    | nil =>
      have heq := h'.symm.trans h.1
      cases heq
    | cons m' nodes' =>
      obtain rfl : m = m' := Option.some.inj (h.1.symm.trans h'.1)
      have hnext := h'.2
      rw [hn m List.mem_cons_self] at hnext
      exact List.mem_cons_of_mem _ (ih h.2 (fun k hk => hn k (List.mem_cons_of_mem _ hk)) hnext)

/-- A new node in front of the list. -/
theorem cons [DecidableEq ν] (h : Chain next head nodes) (hn : n ∉ nodes) :
    Chain (Function.update next n head) (some n) (n :: nodes) := by
  refine ⟨rfl, ?_⟩
  rw [Function.update_self]
  refine h.congr fun m hm => ?_
  have hne : m ≠ n := fun heq => hn (heq ▸ hm)
  exact Function.update_of_ne hne _ _

/-- The link behind a node of the list. -/
theorem next_eq {pre post : List ν} (h : Chain next head (pre ++ n :: post)) :
    next n = post.head? := h.suffix.2.head_eq

end Chain

/-! ## Linking -/

/-- What is behind the node `p`, or in front of the list when there is no such node, is `q`
now. -/
def link [DecidableEq ν] (next : ν → Option ν) (head p q : Option ν) :
    (ν → Option ν) × Option ν :=
  match p with
  | none => (next, q)
  | some p => (Function.update next p q, head)

/-- A list goes on with another one behind its first nodes. -/
theorem Chain.link [DecidableEq ν] {next : ν → Option ν} {head q : Option ν}
    {pre rest rest' : List ν} (h : Chain next head (pre ++ rest)) (hrest : Chain next q rest')
    (hdisj : ∀ n ∈ rest', n ∉ pre) :
    Chain (Lib.link next head pre.getLast? q).1 (Lib.link next head pre.getLast? q).2
      (pre ++ rest') := by
  induction pre generalizing head with
  | nil => exact hrest
  | cons m pre ih =>
    have hm : ∀ n ∈ rest', n ≠ m := fun n hn heq => hdisj n hn (heq ▸ List.mem_cons_self)
    cases pre with
    | nil =>
      refine ⟨h.1, ?_⟩
      dsimp only [Lib.link, List.getLast?_singleton]
      rw [Function.update_self]
      exact hrest.congr fun n hn => Function.update_of_ne (hm n hn) _ _
    | cons k pre =>
      have hlast : (m :: k :: pre).getLast? = some ((k :: pre).getLast (List.cons_ne_nil k pre)) := by
        rw [List.getLast?_cons_cons, List.getLast?_eq_some_getLast (List.cons_ne_nil k pre)]
      have hne : m ≠ (k :: pre).getLast (List.cons_ne_nil k pre) := by
        intro heq
        have hnodup := (List.nodup_cons.1 h.nodup).1
        exact hnodup (List.mem_append_left rest (heq ▸ List.getLast_mem _))
      have hih := ih h.2 fun n hn hmem => hdisj n hn (List.mem_cons_of_mem _ hmem)
      rw [← List.getLast?_cons_cons (a := m), hlast] at hih
      rw [hlast]
      refine ⟨h.1, ?_⟩
      dsimp only [Lib.link] at hih ⊢
      rw [Function.update_of_ne hne]
      exact hih

/-- Linking changes one node. -/
theorem link_of_ne [DecidableEq ν] {next : ν → Option ν} {head p q : Option ν} {n : ν}
    (h : p ≠ some n) : (link next head p q).1 n = next n := by
  cases p with
  | none => rfl
  | some p =>
    have hne : n ≠ p := fun heq => h (heq ▸ rfl)
    exact Function.update_of_ne hne _ _

/-- A link of another node may be changed first. -/
theorem link_update [DecidableEq ν] {next : ν → Option ν} {head p q r : Option ν} {n : ν}
    (h : p ≠ some n) :
    link (Function.update next n r) head p q =
      (Function.update (link next head p q).1 n r, (link next head p q).2) := by
  cases p with
  | none => rfl
  | some p =>
    have hne : p ≠ n := fun heq => h (heq ▸ rfl)
    dsimp only [link]
    rw [Function.update_comm hne]

/-- The rest of a list. -/
theorem Chain.rest {next : ν → Option ν} {head : Option ν} {pre post : List ν}
    (h : Chain next head (pre ++ post)) : Chain next post.head? post := by
  cases post with
  | nil => rfl
  | cons n post => exact h.suffix

/-- A new node is put between two parts of a list. -/
theorem Chain.insert [DecidableEq ν] {next : ν → Option ν} {head : Option ν} {pre post : List ν}
    {n : ν} (h : Chain next head (pre ++ post)) (hn : n ∉ pre ++ post) :
    Chain (Function.update (Lib.link next head pre.getLast? (some n)).1 n post.head?)
      (Lib.link next head pre.getLast? (some n)).2 (pre ++ n :: post) := by
  have hne : ∀ m ∈ pre ++ post, m ≠ n := fun m hm heq => hn (heq ▸ hm)
  have hlast : pre.getLast? ≠ some n := fun heq =>
    hn (List.mem_append_left post (List.mem_of_getLast? heq))
  have hdisj := (List.nodup_append.1 h.nodup).2.2
  -- the link of the new node may be set first
  have hupdate : Chain (Function.update next n post.head?) head (pre ++ post) :=
    h.congr fun m hm => Function.update_of_ne (hne m hm) _ _
  have hnew : Chain (Function.update next n post.head?) (some n) (n :: post) := by
    refine ⟨rfl, ?_⟩
    rw [Function.update_self]
    exact hupdate.rest
  have hlink := hupdate.link hnew fun m hm hpre => by
    rcases List.mem_cons.1 hm with hm | hm
    · exact hne m (List.mem_append_left post hpre) hm
    · exact hdisj m hpre m hm rfl
  rw [link_update hlast] at hlink
  exact hlink

/-- A node is taken out of a list. -/
theorem Chain.remove [DecidableEq ν] {next : ν → Option ν} {head : Option ν} {pre post : List ν}
    {n : ν} (h : Chain next head (pre ++ n :: post)) :
    Chain (Lib.link next head pre.getLast? post.head?).1
      (Lib.link next head pre.getLast? post.head?).2 (pre ++ post) := by
  have hdisj := (List.nodup_append.1 h.nodup).2.2
  have hlink := h.link h.suffix.2 fun k hk hmem => hdisj k hmem k (List.mem_cons_of_mem _ hk) rfl
  rw [h.next_eq] at hlink
  exact hlink

/-! ## Links back -/

/-- `prev` leads back along the nodes, and `before` is what the first one has there. -/
def Back (prev : ν → Option ν) : Option ν → List ν → Prop
  | _, [] => True
  | before, n :: nodes => prev n = before ∧ Back prev (some n) nodes

/-- What is in front of the node `q`, when there is one, is `p` now. -/
def linkBack [DecidableEq ν] (prev : ν → Option ν) (q p : Option ν) : ν → Option ν :=
  match q with
  | none => prev
  | some q => Function.update prev q p

namespace Back

variable {prev prev' : ν → Option ν} {before before' : Option ν} {nodes pre post : List ν} {n : ν}

theorem congr (h : Back prev before nodes) (hn : ∀ n ∈ nodes, prev' n = prev n) :
    Back prev' before nodes := by
  induction nodes generalizing before with
  | nil => trivial
  | cons n nodes ih =>
    refine ⟨(hn n List.mem_cons_self).trans h.1, ?_⟩
    exact ih h.2 fun m hm => hn m (List.mem_cons_of_mem _ hm)

theorem append_iff :
    Back prev before (pre ++ post) ↔
      Back prev before pre ∧ Back prev (pre.getLast?.or before) post := by
  induction pre generalizing before with
  | nil => simp [Back]
  | cons n pre ih =>
    have hlast : (n :: pre).getLast?.or before = pre.getLast?.or (some n) := by
      cases pre with
      | nil => rfl
      | cons m pre => rw [List.getLast?_cons_cons, List.getLast?_cons]; rfl
    rw [List.cons_append, Back, Back, ih, hlast, and_assoc]

/-- The link back from a node of the list. -/
theorem prev_eq (h : Back prev before (pre ++ n :: post)) : prev n = pre.getLast?.or before :=
  (append_iff.1 h).2.1

/-- Only the first link back changes. -/
theorem linkBack_head [DecidableEq ν] {p : Option ν} (h : Back prev before nodes)
    (hnodup : nodes.Nodup) : Back (linkBack prev nodes.head? p) p nodes := by
  cases nodes with
  | nil => trivial
  | cons n nodes =>
    dsimp only [linkBack, List.head?_cons]
    refine ⟨Function.update_self _ _ _, h.2.congr fun m hm => ?_⟩
    have hne : m ≠ n := fun heq => (List.nodup_cons.1 hnodup).1 (heq ▸ hm)
    exact Function.update_of_ne hne _ _

theorem linkBack_of_not_mem [DecidableEq ν] {p q : Option ν} (h : Back prev before nodes)
    (hq : ∀ n ∈ q, n ∉ nodes) : Back (linkBack prev q p) before nodes := by
  cases q with
  | none => exact h
  | some q =>
    refine h.congr fun m hm => ?_
    have hne : m ≠ q := fun heq => hq q rfl (heq ▸ hm)
    exact Function.update_of_ne hne _ _

/-- A node is taken out: the one behind it leads back to the one in front of it. -/
theorem unlink [DecidableEq ν] (h : Back prev before (pre ++ n :: post))
    (hnodup : (pre ++ n :: post).Nodup) :
    Back (linkBack prev post.head? (prev n)) before (pre ++ post) := by
  obtain ⟨hpre, hn, hpost⟩ := append_iff.1 h
  obtain ⟨_, hnodup', hdisj⟩ := List.nodup_append.1 hnodup
  refine append_iff.2 ⟨hpre.linkBack_of_not_mem fun m hm hmem => ?_, ?_⟩
  · exact hdisj m hmem m (List.mem_cons_of_mem _ (List.mem_of_mem_head? hm)) rfl
  · rw [hn]
    exact hpost.linkBack_head (List.nodup_cons.1 hnodup').2

/-- A node whose own link is right comes in front. -/
theorem cons [DecidableEq ν] (h : Back prev before' nodes) (hnodup : nodes.Nodup)
    (hmem : n ∉ nodes) (hn : prev n = before) :
    Back (linkBack prev nodes.head? (some n)) before (n :: nodes) := by
  refine ⟨?_, h.linkBack_head hnodup⟩
  cases nodes with
  | nil => exact hn
  | cons m nodes =>
    dsimp only [linkBack, List.head?_cons]
    have hne : n ≠ m := fun heq => hmem (heq ▸ List.mem_cons_self)
    rw [Function.update_of_ne hne, hn]

end Back

/-! ## Searching -/

/-- Follow the links from a node until one matches.  The search takes fuel, and `none` means
that it is still running when the fuel is used up. -/
def findLoop (next : ν → Option ν) (matches' : ν → Bool) : Nat → Option ν → Option (Option ν)
  | _, none => some none
  | 0, some _ => none
  | fuel + 1, some n => if matches' n then some (some n) else findLoop next matches' fuel (next n)

theorem findLoop_spec {next : ν → Option ν} {head : Option ν} {list : List ν} {matches' : ν → Bool}
    {fuel : Nat} (h : Chain next head list) (hfuel : list.length ≤ fuel) :
    findLoop next matches' fuel head = some (list.find? matches') := by
  induction list generalizing head fuel with
  | nil =>
    obtain rfl : head = none := h
    cases fuel <;> rfl
  | cons n list ih =>
    obtain ⟨rfl, htail⟩ := h
    cases fuel with
    | zero =>
      rw [List.length_cons] at hfuel
      omega
    | succ fuel =>
      rw [findLoop, List.find?_cons]
      cases hm : matches' n with
      | true => rfl
      | false =>
        rw [if_neg Bool.false_ne_true]
        exact ih htail (by
          rw [List.length_cons] at hfuel
          omega)

end Vmx.Lib
