import Vmx.Os.SelectLib
import Mathlib.Tactic.Common

/-!
# What a call of `select` leaves

`select` returns the number of descriptors that it has counted, also when it has failed, and
`selNodeDelete` gives the mutex of a list twice when it has found a node.  A call is right when
nothing fails and no driver has taken a node of it into a list (`select_iff`).

A call in which no driver fails is six loops over lists of descriptors (`selectFds_eq`).  When no
node is taken into a list the lists stay as they are and the sets get what the drivers report
(`Marks`); otherwise the mutex of the list is given once more than it is taken (`Heavier`).
-/

namespace Vmx.Select

/-! ## Loops -/

/-- The descriptors of a set below a width. -/
def chosen (set : FdSet) (width : Nat) : List Nat := (List.range width).filter set

/-- A loop over a list of descriptors; `body` says whether to stop. -/
def foldStop {σ : Type} (body : σ → Nat → σ × Bool) : List Nat → σ → σ
  | [], s => s
  | fd :: fds, s => if (body s fd).2 = true then (body s fd).1 else foldStop body fds (body s fd).1

theorem wordZero_succ {set : FdSet} {fd : Nat} (h : wordZero set fd = false) :
    (fd + 1) % NFDBITS = 0 ∨ wordZero set (fd + 1) = false := by
  by_cases hmod : (fd + 1) % NFDBITS = 0
  · exact Or.inl hmod
  · right
    have hword : (fd + 1) / NFDBITS = fd / NFDBITS := by
      unfold NFDBITS at *
      omega
    rw [wordZero, hword]
    exact h

theorem wordZero_bit {set : FdSet} {fd x : Nat} (h : wordZero set fd = true)
    (hlo : fd / NFDBITS * NFDBITS ≤ x) (hhi : x < fd / NFDBITS * NFDBITS + NFDBITS) :
    set x = false := by
  rw [wordZero, List.all_eq_true] at h
  have hbit := h (x - fd / NFDBITS * NFDBITS) (List.mem_range.2 (by omega))
  rw [Nat.add_sub_cancel' hlo] at hbit
  simpa using hbit

/-- A word that is zero has no descriptors, so that nothing is left out: the loop comes to a word
at its first bit. -/
theorem fdLoop_from {σ : Type} {set : FdSet} {width : Nat} {body : σ → Nat → σ × Bool}
    {fuel fd : Nat} {s : σ} (hfuel : width ≤ fd + fuel)
    (hword : fd % NFDBITS = 0 ∨ wordZero set fd = false) :
    fdLoop set width body fuel fd s =
      foldStop body ((List.range' fd (width - fd)).filter set) s := by
  induction fuel generalizing fd s with
  | zero =>
    have hempty : width - fd = 0 := by omega
    rw [hempty]
    rfl
  | succ fuel ih =>
    rw [fdLoop]
    split
    · rename_i hlt
      have hcons : List.range' fd (width - fd) = fd :: List.range' (fd + 1) (width - (fd + 1)) := by
        have hlen : width - fd = width - (fd + 1) + 1 := by omega
        rw [hlen, List.range'_succ]
      split
      · rename_i hzero
        have haligned : fd % NFDBITS = 0 := by
          rcases hword with h | h
          · exact h
          · rw [hzero] at h
            cases h
        have hskip : (List.range' fd (width - fd)).filter set =
            (List.range' (fd + NFDBITS) (width - (fd + NFDBITS))).filter set := by
          have hsplit : List.range' fd (width - fd) =
              List.range' fd (min NFDBITS (width - fd)) ++
                List.range' (fd + min NFDBITS (width - fd))
                  (width - fd - min NFDBITS (width - fd)) := by
            rw [List.range'_append_1]
            congr 1
            omega
          have hnone : (List.range' fd (min NFDBITS (width - fd))).filter set = [] := by
            rw [List.filter_eq_nil_iff]
            intro x hx
            rw [List.mem_range'_1] at hx
            have hx' := wordZero_bit (x := x) hzero (by unfold NFDBITS at *; omega)
              (by unfold NFDBITS at *; omega)
            rw [hx']
            simp
          rw [hsplit, List.filter_append, hnone, List.nil_append]
          by_cases hmin : NFDBITS ≤ width - fd
          · rw [Nat.min_eq_left hmin, Nat.sub_sub]
          · have hend : width - fd - min NFDBITS (width - fd) = 0 := by omega
            have hend' : width - (fd + NFDBITS) = 0 := by omega
            rw [hend, hend']
            rfl
        rw [hskip, ih (by omega) (Or.inl (by unfold NFDBITS at *; omega))]
        rfl
      · rename_i hzero
        have hzero' : wordZero set fd = false := by simpa using hzero
        split
        · rename_i hset
          rw [hcons, List.filter_cons_of_pos hset, foldStop]
          simp only
          split
          · rfl
          · exact ih (by omega) (wordZero_succ hzero')
        · rename_i hset
          rw [hcons, List.filter_cons_of_neg hset]
          exact ih (by omega) (wordZero_succ hzero')
    · rename_i hge
      have hempty : width - fd = 0 := by omega
      rw [hempty]
      rfl

theorem fdLoop_eq {σ : Type} (set : FdSet) (width : Nat) (body : σ → Nat → σ × Bool) (s : σ) :
    fdLoop set width body width 0 s = foldStop body (chosen set width) s := by
  rw [fdLoop_from (by omega) (Or.inl rfl), chosen, List.range_eq_range', Nat.sub_zero]

theorem countFds_eq (set : FdSet) (width : Nat) :
    countFds set width = (chosen set width).length := by
  have hfold (fds : List Nat) (n : Nat) :
      foldStop (fun numFound _ => (numFound + 1, false)) fds n = n + fds.length := by
    induction fds generalizing n with
    | nil => rfl
    | cons fd fds ih =>
      rw [foldStop, if_neg (by simp), ih, List.length_cons]
      omega
  rw [countFds, fdLoop_eq, hfold, Nat.zero_add]

/-- The drivers of a list of descriptors are called. -/
def calls (d : Drivers) (me : Nat) (func : Func) (type : SelectType) (fds : List Nat) (s : State) :
    State := fds.foldl (fun s fd => (ioctl d me s fd func type).1) s

/-- When no driver fails `selDoIoctls` calls them all. -/
theorem selDoIoctls_eq {d : Drivers} {me : Nat} {set : FdSet} {width : Nat} {func : Func}
    {type : SelectType} {stopOnError : Bool} {s : State}
    (hok : ∀ fd ∈ chosen set width, (d.reply func type fd).rv = OK) :
    selDoIoctls d me set width func type stopOnError s =
      (calls d me func type (chosen set width) s, OK) := by
  rw [selDoIoctls, fdLoop_eq, calls]
  generalize chosen set width = fds at hok
  induction fds generalizing s with
  | nil => rfl
  | cons fd fds ih =>
    have hrv : (ioctl d me s fd func type).2 = OK := hok fd List.mem_cons_self
    rw [foldStop, List.foldl_cons]
    simp only [hrv, ne_eq, not_true_eq_false, if_false, Bool.false_eq_true]
    exact ih fun x hx => hok x (List.mem_cons_of_mem _ hx)

/-! ## Without a node of the task -/

/-- No list has a node of the task. -/
def Clean (me : Nat) (s : State) : Prop := ∀ l, ∀ node ∈ s.wakeupList l, node.taskId ≠ me

/-- The lists are as they were, their mutexes have been given as often as taken, and the sets
have got the descriptors of `P`, which have been reported. -/
structure Marks (s t : State) (P : SelectType → Nat → Bool) : Prop where
  lists : t.wakeupList = s.wakeupList
  balance : ∀ l, t.gives l + s.takes l = t.takes l + s.gives l
  fds : ∀ type, t.fds type = (s.fds type).map fun set fd => set fd || P type fd
  exceptFds : t.exceptFds = s.exceptFds
  reported : ∀ type fd, t.reported type fd = (s.reported type fd || P type fd)

def noFds : SelectType → Nat → Bool := fun _ _ => false

variable {d : Drivers} {me : Nat} {s t u : State} {l fd : Nat} {type : SelectType}
  {P Q : SelectType → Nat → Bool}

theorem Marks.refl (s : State) : Marks s s noFds where
  lists := rfl
  balance l := Nat.add_comm _ _
  fds type := by simp [noFds]
  exceptFds := rfl
  reported type fd := by simp [noFds]

theorem Marks.trans (h : Marks s t P) (h' : Marks t u Q) :
    Marks s u fun type fd => P type fd || Q type fd where
  lists := h'.lists.trans h.lists
  balance l := by
    have h1 := h.balance l
    have h2 := h'.balance l
    omega
  fds type := by
    rw [h'.fds, h.fds, Option.map_map]
    congr 1
    funext set fd
    simp [Bool.or_assoc]
  exceptFds := h'.exceptFds.trans h.exceptFds
  reported type fd := by rw [h'.reported, h.reported, Bool.or_assoc]

theorem Marks.congr (h : Marks s t P) (hP : ∀ type fd, P type fd = Q type fd) : Marks s t Q := by
  have hPQ : P = Q := by
    funext type fd
    exact hP type fd
  rw [← hPQ]
  exact h

theorem Marks.clean (h : Marks s t P) (hs : Clean me s) : Clean me t := by
  unfold Clean
  rw [h.lists]
  exact hs

/-- `selWakeupAll` wakes other tasks only. -/
theorem selWakeupAll_marks (hs : Clean me s) (wakeup : Nat × SelectType) :
    Marks s (selWakeupAll me s wakeup) noFds := by
  have hfold (nodes : List WakeupNode) (v : State)
      (hnodes : ∀ node ∈ nodes, node.taskId ≠ me) : nodes.foldl (selWakeup me) v = v := by
    induction nodes with
    | nil => rfl
    | cons node nodes ih =>
      rw [List.foldl_cons, selWakeup, if_neg (hnodes node List.mem_cons_self)]
      exact ih fun n hn => hnodes n (List.mem_cons_of_mem _ hn)
  unfold selWakeupAll
  split
  · exact Marks.refl s
  · rw [hfold _ _ fun node hn => hs wakeup.1 node (List.mem_filter.1 hn).1]
    refine { Marks.refl s with balance := ?_ }
    intro l
    simp only [State.give, State.take]
    by_cases hl : l = wakeup.1
    · rw [hl]
      simp only [Function.update_self]
      omega
    · simp only [Function.update_of_ne hl]
      omega

theorem wakeups_marks (hs : Clean me s) (wakeups : List (Nat × SelectType)) :
    Marks s (wakeups.foldl (selWakeupAll me) s) noFds := by
  induction wakeups generalizing s with
  | nil => exact Marks.refl s
  | cons wakeup wakeups ih =>
    have hfirst := selWakeupAll_marks hs wakeup
    exact (hfirst.trans (ih (hfirst.clean hs))).congr fun _ _ => rfl

/-- Without memory a list that has nodes stays as it is. -/
theorem selNodeAdd_marks (hne : s.wakeupList l ≠ []) (node : WakeupNode) :
    Marks s (selNodeAdd s l node false) noFds := by
  have hno : ¬((s.take l).wakeupList l = [] ∨ false = true) := by
    rintro (h | h)
    · exact hne h
    · cases h
  unfold selNodeAdd
  simp only
  rw [if_neg hno]
  refine { Marks.refl s with balance := ?_ }
  intro k
  simp only [State.give, State.take]
  by_cases hk : k = l
  · rw [hk]
    simp only [Function.update_self]
    omega
  · simp only [Function.update_of_ne hk]
    omega

/-- Without a node of the task nothing is deleted, and the mutex is given once. -/
theorem selNodeDelete_marks (hs : Clean me s) (l fd : Nat) (type : SelectType) :
    Marks s (selNodeDelete s l ⟨me, fd, type⟩) noFds := by
  have hno : ((s.take l).wakeupList l).any (fun pI => pI.matches me type) = false := by
    rw [List.any_eq_false]
    intro node hnode
    simp [WakeupNode.matches, hs l node hnode]
  unfold selNodeDelete
  simp only [hno, Bool.false_eq_true, if_false]
  refine { Marks.refl s with balance := ?_ }
  intro k
  simp only [State.give, State.take]
  by_cases hk : k = l
  · rw [hk]
    simp only [Function.update_self]
    omega
  · simp only [Function.update_of_ne hk]
    omega

/-- A descriptor is reported by its own driver. -/
theorem selWakeup_marks (s : State) (fd : Nat) (type : SelectType) :
    Marks s (selWakeup me s ⟨me, fd, type⟩) fun t x => decide (t = type ∧ x = fd) := by
  unfold selWakeup
  rw [if_pos rfl]
  refine ⟨rfl, fun _ => Nat.add_comm _ _, ?_, rfl, ?_⟩
  · intro t
    by_cases ht : t = type
    · subst ht
      simp only [Function.update_self, true_and]
      congr 1
      funext set x
      by_cases hx : x = fd
      · simp [hx]
      · simp [hx]
    · simp [ht]
  · intro t x
    by_cases ht : t = type
    · subst ht
      by_cases hx : x = fd
      · simp [hx]
      · simp [hx]
    · simp [ht]

theorem errnoLeave_marks (s : State) (e : Option Errno) : Marks s (s.errnoLeave e) noFds where
  lists := rfl
  balance _ := Nat.add_comm _ _
  fds := (Marks.refl s).fds
  exceptFds := rfl
  reported := (Marks.refl s).reported

/-- The driver takes no node into its list: it has none, or the list has nodes of other tasks and
there is no memory for another. -/
def TakesNone (d : Drivers) (s : State) (type : SelectType) (fd : Nat) : Prop :=
  ∀ l, d.wakeupList fd = some l →
    s.wakeupList l ≠ [] ∧ (d.reply .FIOSELECT type fd).malloc = false

theorem nodeIoctl_select_marks (hnone : TakesNone d s type fd) :
    Marks s (nodeIoctl d me s fd .FIOSELECT type) noFds := by
  unfold nodeIoctl
  cases hl : d.wakeupList fd with
  | none => exact Marks.refl s
  | some l =>
    obtain ⟨hne, hmalloc⟩ := hnone l hl
    simp only [hmalloc]
    exact selNodeAdd_marks hne _

theorem nodeIoctl_unselect_marks (hs : Clean me s) (fd : Nat) (type : SelectType) :
    Marks s (nodeIoctl d me s fd .FIOUNSELECT type) noFds := by
  unfold nodeIoctl
  cases hl : d.wakeupList fd with
  | none => exact Marks.refl s
  | some l => exact selNodeDelete_marks hs l fd type

theorem ioctl_select_marks (hs : Clean me s) (hnone : TakesNone d s type fd) :
    Marks s (ioctl d me s fd .FIOSELECT type).1
      fun t x => decide (t = type ∧ x = fd) && (d.reply .FIOSELECT type fd).ready := by
  unfold ioctl
  simp only [true_and]
  have hwake := wakeups_marks hs (d.before .FIOSELECT type fd)
  generalize (d.before .FIOSELECT type fd).foldl (selWakeupAll me) s = s1 at hwake ⊢
  have hnone1 : TakesNone d s1 type fd := by
    unfold TakesNone
    rw [hwake.lists]
    exact hnone
  have hadd := hwake.trans (@nodeIoctl_select_marks d me s1 fd type hnone1)
  generalize nodeIoctl d me s1 fd .FIOSELECT type = s2 at hadd ⊢
  cases hready : (d.reply .FIOSELECT type fd).ready with
  | true =>
    rw [if_pos rfl]
    apply Marks.congr (hadd.trans ((selWakeup_marks s2 fd type).trans (errnoLeave_marks _ _)))
    intro t x
    simp [noFds]
  | false =>
    rw [if_neg (by simp)]
    apply Marks.congr (hadd.trans (errnoLeave_marks _ _))
    intro t x
    simp [noFds]

theorem ioctl_unselect_marks (hs : Clean me s) (fd : Nat) (type : SelectType) :
    Marks s (ioctl d me s fd .FIOUNSELECT type).1 noFds := by
  unfold ioctl
  simp only
  have hwake := wakeups_marks hs (d.before .FIOUNSELECT type fd)
  generalize (d.before .FIOUNSELECT type fd).foldl (selWakeupAll me) s = s1 at hwake ⊢
  rw [if_neg (by simp)]
  have hdelete := hwake.trans (nodeIoctl_unselect_marks (d := d) (hwake.clean hs) fd type)
  exact (hdelete.trans (errnoLeave_marks _ _)).congr fun _ _ => rfl

theorem calls_select_marks (hs : Clean me s) {fds : List Nat}
    (hnone : ∀ fd ∈ fds, TakesNone d s type fd) :
    Marks s (calls d me .FIOSELECT type fds s)
      fun t x => decide (t = type ∧ x ∈ fds) && (d.reply .FIOSELECT type x).ready := by
  induction fds generalizing s with
  | nil =>
    apply (Marks.refl s).congr
    intro t x
    simp [noFds]
  | cons fd fds ih =>
    have hfirst := ioctl_select_marks hs (hnone fd List.mem_cons_self)
    have hrest := ih (hfirst.clean hs) fun x hx => by
      unfold TakesNone
      rw [hfirst.lists]
      exact hnone x (List.mem_cons_of_mem _ hx)
    apply (hfirst.trans hrest).congr
    intro t x
    rw [Bool.eq_iff_iff]
    simp only [Bool.or_eq_true, Bool.and_eq_true, decide_eq_true_eq, List.mem_cons]
    constructor
    · rintro (⟨⟨ht, hx⟩, hr⟩ | ⟨⟨ht, hx⟩, hr⟩)
      · exact ⟨⟨ht, Or.inl hx⟩, hx ▸ hr⟩
      · exact ⟨⟨ht, Or.inr hx⟩, hr⟩
    · rintro ⟨⟨ht, hx | hx⟩, hr⟩
      · exact Or.inl ⟨⟨ht, hx⟩, hx ▸ hr⟩
      · exact Or.inr ⟨⟨ht, hx⟩, hr⟩

theorem calls_unselect_marks (hs : Clean me s) (fds : List Nat) :
    Marks s (calls d me .FIOUNSELECT type fds s) noFds := by
  induction fds generalizing s with
  | nil => exact Marks.refl s
  | cons fd fds ih =>
    have hfirst := ioctl_unselect_marks (d := d) hs fd type
    exact (hfirst.trans (ih (hfirst.clean hs))).congr fun _ _ => rfl

/-! ## With a node of the task -/

/-- The mutexes have been given at least as often as taken. -/
def Gives (s t : State) : Prop := ∀ l, t.takes l + s.gives l ≤ t.gives l + s.takes l

/-- A mutex has been given more often than taken. -/
def Heavier (s t : State) : Prop :=
  Gives s t ∧ ∃ l, t.takes l + s.gives l < t.gives l + s.takes l

theorem Gives.refl (s : State) : Gives s s := fun _ => Nat.le_of_eq (Nat.add_comm _ _)

theorem Gives.trans (h : Gives s t) (h' : Gives t u) : Gives s u := by
  intro l
  have h1 := h l
  have h2 := h' l
  omega

theorem Heavier.trans (h : Heavier s t) (h' : Gives t u) : Heavier s u := by
  obtain ⟨hg, l, hl⟩ := h
  have hl' := h' l
  exact ⟨hg.trans h', l, by omega⟩

theorem Gives.heavier (h : Gives s t) (h' : Heavier t u) : Heavier s u := by
  obtain ⟨hg, l, hl⟩ := h'
  have hl' := h l
  exact ⟨h.trans hg, l, by omega⟩

/-- The mutex of one list is taken and given once. -/
theorem gives_once (htakes : t.takes = Function.update s.takes l (s.takes l + 1))
    (hgives : t.gives = Function.update s.gives l (s.gives l + 1)) : Gives s t := by
  intro k
  rw [htakes, hgives]
  by_cases hk : k = l
  · rw [hk]
    simp only [Function.update_self]
    omega
  · simp only [Function.update_of_ne hk]
    omega

theorem selWakeup_same (node : WakeupNode) : (selWakeup me s node).wakeupList = s.wakeupList ∧
    (selWakeup me s node).takes = s.takes ∧ (selWakeup me s node).gives = s.gives := by
  unfold selWakeup
  split <;> exact ⟨rfl, rfl, rfl⟩

theorem selWakeupAll_gives (wakeup : Nat × SelectType) :
    Gives s (selWakeupAll me s wakeup) ∧ (selWakeupAll me s wakeup).wakeupList = s.wakeupList := by
  have hfold (nodes : List WakeupNode) (v : State) :
      (nodes.foldl (selWakeup me) v).wakeupList = v.wakeupList ∧
        (nodes.foldl (selWakeup me) v).takes = v.takes ∧
        (nodes.foldl (selWakeup me) v).gives = v.gives := by
    induction nodes generalizing v with
    | nil => exact ⟨rfl, rfl, rfl⟩
    | cons node nodes ih =>
      obtain ⟨h1, h2, h3⟩ := @selWakeup_same me v node
      obtain ⟨h4, h5, h6⟩ := ih (selWakeup me v node)
      exact ⟨h4.trans h1, h5.trans h2, h6.trans h3⟩
  unfold selWakeupAll
  split
  · exact ⟨Gives.refl s, rfl⟩
  · obtain ⟨h1, h2, h3⟩ := hfold
      ((s.wakeupList wakeup.1).filter fun node => node.type = wakeup.2) (s.take wakeup.1)
    constructor
    · apply gives_once (l := wakeup.1)
      · exact h2
      · simp only [State.give, h3]
        rfl
    · exact h1

theorem wakeups_gives (wakeups : List (Nat × SelectType)) :
    Gives s (wakeups.foldl (selWakeupAll me) s) ∧
      (wakeups.foldl (selWakeupAll me) s).wakeupList = s.wakeupList := by
  induction wakeups generalizing s with
  | nil => exact ⟨Gives.refl s, rfl⟩
  | cons wakeup wakeups ih =>
    obtain ⟨h1, h2⟩ := @selWakeupAll_gives me s wakeup
    obtain ⟨h3, h4⟩ := @ih (selWakeupAll me s wakeup)
    exact ⟨h1.trans h3, h4.trans h2⟩

/-- A node of the task and the type is in the list. -/
def Has (me : Nat) (s : State) (type : SelectType) (l : Nat) : Prop :=
  ∃ node ∈ s.wakeupList l, node.matches me type = true

theorem Has.congr (h : Has me s type l) (hlists : t.wakeupList = s.wakeupList) :
    Has me t type l := by
  unfold Has
  rw [hlists]
  exact h

/-- `selNodeAdd` keeps the nodes, and adds one to an empty list or with memory. -/
theorem selNodeAdd_gives (s : State) (l fd : Nat) (type : SelectType) (malloc : Bool) :
    Gives s (selNodeAdd s l ⟨me, fd, type⟩ malloc) ∧
      (∀ k type', Has me s type' k → Has me (selNodeAdd s l ⟨me, fd, type⟩ malloc) type' k) ∧
      ((selNodeAdd s l ⟨me, fd, type⟩ malloc).wakeupList = s.wakeupList ∧ s.wakeupList l ≠ [] ∧
          malloc = false ∨
        Has me (selNodeAdd s l ⟨me, fd, type⟩ malloc) type l) := by
  unfold selNodeAdd
  simp only
  split
  · rename_i hadd
    refine ⟨gives_once (l := l) rfl rfl, ?_, Or.inr ?_⟩
    · rintro k type' ⟨node, hnode, hm⟩
      refine ⟨node, ?_, hm⟩
      show node ∈ Function.update s.wakeupList l (s.wakeupList l ++ _) k
      by_cases hk : k = l
      · subst hk
        rw [Function.update_self]
        exact List.mem_append_left _ hnode
      · rw [Function.update_of_ne hk]
        exact hnode
    · refine ⟨⟨me, fd, type⟩, ?_, by simp [WakeupNode.matches]⟩
      show _ ∈ Function.update s.wakeupList l (s.wakeupList l ++ _) l
      rw [Function.update_self]
      exact List.mem_append_right _ (List.mem_singleton.2 rfl)
  · rename_i hadd
    refine ⟨gives_once (l := l) rfl rfl, fun k type' h => h, Or.inl ⟨rfl, ?_, ?_⟩⟩
    · exact fun h => hadd (Or.inl h)
    · cases malloc with
      | false => rfl
      | true => exact absurd (Or.inr rfl) hadd

/-- `selNodeDelete` keeps the lists, or gives the mutex twice. -/
theorem selNodeDelete_gives (s : State) (l fd : Nat) (type : SelectType) :
    Gives s (selNodeDelete s l ⟨me, fd, type⟩) ∧
      ((selNodeDelete s l ⟨me, fd, type⟩).wakeupList = s.wakeupList ∧ ¬Has me s type l ∨
        Heavier s (selNodeDelete s l ⟨me, fd, type⟩)) := by
  unfold selNodeDelete
  simp only
  split
  · have htwice : Heavier s (((s.take l).setList l (((s.take l).wakeupList l).eraseP
        fun pI => pI.matches me type)).give l |>.give l) := by
      constructor
      · intro k
        simp only [State.give, State.setList, State.take]
        by_cases hk : k = l
        · rw [hk]
          simp only [Function.update_self]
          omega
        · simp only [Function.update_of_ne hk]
          omega
      · refine ⟨l, ?_⟩
        simp only [State.give, State.setList, State.take, Function.update_self]
        omega
    exact ⟨htwice.1, Or.inr htwice⟩
  · rename_i hno
    refine ⟨gives_once (l := l) rfl rfl, Or.inl ⟨rfl, ?_⟩⟩
    rintro ⟨node, hnode, hm⟩
    apply hno
    rw [List.any_eq_true]
    exact ⟨node, hnode, hm⟩

/-- What is done in `ioctl` apart from the list changes neither the lists nor the mutexes. -/
theorem ioctl_same (d : Drivers) (me : Nat) (s : State) (fd : Nat) (func : Func)
    (type : SelectType) :
    let v := nodeIoctl d me ((d.before func type fd).foldl (selWakeupAll me) s) fd func type
    (ioctl d me s fd func type).1.wakeupList = v.wakeupList ∧
      (ioctl d me s fd func type).1.takes = v.takes ∧
      (ioctl d me s fd func type).1.gives = v.gives := by
  unfold ioctl
  simp only
  split
  · exact selWakeup_same _
  · exact ⟨rfl, rfl, rfl⟩

theorem Gives.of_same {v : State} (h : Gives s v) (htakes : t.takes = v.takes)
    (hgives : t.gives = v.gives) : Gives s t := by
  unfold Gives
  rw [htakes, hgives]
  exact h

theorem Heavier.of_same {v : State} (h : Heavier s v) (htakes : t.takes = v.takes)
    (hgives : t.gives = v.gives) : Heavier s t := by
  unfold Heavier Gives
  rw [htakes, hgives]
  exact h

/-- `FIOSELECT` keeps the nodes of the task, and a driver that takes a node has it in its list. -/
theorem ioctl_select_gives (s : State) (fd : Nat) (type : SelectType) :
    Gives s (ioctl d me s fd .FIOSELECT type).1 ∧
      (∀ k type', Has me s type' k → Has me (ioctl d me s fd .FIOSELECT type).1 type' k) ∧
      ((ioctl d me s fd .FIOSELECT type).1.wakeupList = s.wakeupList ∧ TakesNone d s type fd ∨
        ∃ l, d.wakeupList fd = some l ∧ Has me (ioctl d me s fd .FIOSELECT type).1 type l) := by
  obtain ⟨hlists, htakes, hgives⟩ := ioctl_same d me s fd .FIOSELECT type
  generalize (ioctl d me s fd .FIOSELECT type).1 = t at hlists htakes hgives ⊢
  obtain ⟨hwake, hwakelists⟩ := @wakeups_gives me s (d.before .FIOSELECT type fd)
  generalize (d.before .FIOSELECT type fd).foldl (selWakeupAll me) s = s1 at *
  unfold nodeIoctl at hlists htakes hgives
  cases hl : d.wakeupList fd with
  | none =>
    simp only [hl] at hlists htakes hgives
    have hsame : t.wakeupList = s.wakeupList := hlists.trans hwakelists
    refine ⟨hwake.of_same htakes hgives, fun k type' h => h.congr hsame, Or.inl ⟨hsame, ?_⟩⟩
    intro l hl'
    rw [hl] at hl'
    cases hl'
  | some l =>
    simp only [hl] at hlists htakes hgives
    obtain ⟨hg, hkeep, hadd⟩ :=
      @selNodeAdd_gives me s1 l fd type (d.reply .FIOSELECT type fd).malloc
    refine ⟨(hwake.trans hg).of_same htakes hgives, ?_, ?_⟩
    · intro k type' h
      exact (hkeep k type' (h.congr hwakelists)).congr hlists
    · rcases hadd with ⟨hsame, hne, hmalloc⟩ | hhas
      · left
        refine ⟨hlists.trans (hsame.trans hwakelists), ?_⟩
        intro l' hl'
        rw [hl, Option.some.injEq] at hl'
        rw [← hl', ← hwakelists]
        exact ⟨hne, hmalloc⟩
      · exact Or.inr ⟨l, rfl, hhas.congr hlists⟩

/-- `FIOUNSELECT` keeps the lists, or gives a mutex twice. -/
theorem ioctl_unselect_gives (s : State) (fd : Nat) (type : SelectType) :
    Gives s (ioctl d me s fd .FIOUNSELECT type).1 ∧
      ((ioctl d me s fd .FIOUNSELECT type).1.wakeupList = s.wakeupList ∧
          (∀ l, d.wakeupList fd = some l → ¬Has me s type l) ∨
        Heavier s (ioctl d me s fd .FIOUNSELECT type).1) := by
  obtain ⟨hlists, htakes, hgives⟩ := ioctl_same d me s fd .FIOUNSELECT type
  generalize (ioctl d me s fd .FIOUNSELECT type).1 = t at hlists htakes hgives ⊢
  obtain ⟨hwake, hwakelists⟩ := @wakeups_gives me s (d.before .FIOUNSELECT type fd)
  generalize (d.before .FIOUNSELECT type fd).foldl (selWakeupAll me) s = s1 at *
  unfold nodeIoctl at hlists htakes hgives
  cases hl : d.wakeupList fd with
  | none =>
    simp only [hl] at hlists htakes hgives
    refine ⟨hwake.of_same htakes hgives, Or.inl ⟨hlists.trans hwakelists, ?_⟩⟩
    intro l hl'
    cases hl'
  | some l =>
    simp only [hl] at hlists htakes hgives
    obtain ⟨hg, hdelete⟩ := @selNodeDelete_gives me s1 l fd type
    refine ⟨(hwake.trans hg).of_same htakes hgives, ?_⟩
    rcases hdelete with ⟨hsame, hno⟩ | hheavy
    · left
      refine ⟨hlists.trans (hsame.trans hwakelists), ?_⟩
      intro l' hl'
      rw [Option.some.injEq] at hl'
      rw [← hl']
      exact fun h => hno (h.congr hwakelists)
    · exact Or.inr ((hwake.heavier hheavy).of_same htakes hgives)

/-- A driver of one of the descriptors has a node of the task. -/
def Registered (d : Drivers) (me : Nat) (s : State) (type : SelectType) (fds : List Nat) : Prop :=
  ∃ fd ∈ fds, ∃ l, d.wakeupList fd = some l ∧ Has me s type l

theorem calls_select_gives (s : State) (type : SelectType) (fds : List Nat) :
    Gives s (calls d me .FIOSELECT type fds s) ∧
      (∀ k type', Has me s type' k → Has me (calls d me .FIOSELECT type fds s) type' k) ∧
      ((calls d me .FIOSELECT type fds s).wakeupList = s.wakeupList ∧
          (∀ fd ∈ fds, TakesNone d s type fd) ∨
        Registered d me (calls d me .FIOSELECT type fds s) type fds) := by
  induction fds generalizing s with
  | nil =>
    refine ⟨Gives.refl s, fun _ _ h => h, Or.inl ⟨rfl, ?_⟩⟩
    intro fd hfd
    cases hfd
  | cons fd fds ih =>
    obtain ⟨hg, hkeep, hfirst⟩ := @ioctl_select_gives d me s fd type
    obtain ⟨hg', hkeep', hrest⟩ := ih (ioctl d me s fd .FIOSELECT type).1
    show Gives s (calls d me .FIOSELECT type fds (ioctl d me s fd .FIOSELECT type).1) ∧ _
    refine ⟨hg.trans hg', fun k type' h => hkeep' k type' (hkeep k type' h), ?_⟩
    show (calls d me .FIOSELECT type fds (ioctl d me s fd .FIOSELECT type).1).wakeupList = _ ∧ _ ∨
      Registered d me (calls d me .FIOSELECT type fds (ioctl d me s fd .FIOSELECT type).1) type _
    rcases hfirst with ⟨hsame, hnone⟩ | ⟨l, hl, hhas⟩
    · rcases hrest with ⟨hsame', hnone'⟩ | ⟨x, hx, l, hl, hhas⟩
      · left
        refine ⟨hsame'.trans hsame, ?_⟩
        intro x hx
        rcases List.mem_cons.1 hx with rfl | hx
        · exact hnone
        · have hx' := hnone' x hx
          unfold TakesNone at hx' ⊢
          rw [hsame] at hx'
          exact hx'
      · exact Or.inr ⟨x, List.mem_cons_of_mem _ hx, l, hl, hhas⟩
    · exact Or.inr ⟨fd, List.mem_cons_self, l, hl, hkeep' l type hhas⟩

/-- When a driver of the descriptors has a node of the task, a mutex is given twice. -/
theorem calls_unselect_gives (s : State) (type : SelectType) (fds : List Nat) :
    Gives s (calls d me .FIOUNSELECT type fds s) ∧
      ((calls d me .FIOUNSELECT type fds s).wakeupList = s.wakeupList ∧
          ¬Registered d me s type fds ∨
        Heavier s (calls d me .FIOUNSELECT type fds s)) := by
  induction fds generalizing s with
  | nil =>
    refine ⟨Gives.refl s, Or.inl ⟨rfl, ?_⟩⟩
    rintro ⟨fd, hfd, _⟩
    cases hfd
  | cons fd fds ih =>
    obtain ⟨hg, hfirst⟩ := @ioctl_unselect_gives d me s fd type
    obtain ⟨hg', hrest⟩ := ih (ioctl d me s fd .FIOUNSELECT type).1
    refine ⟨hg.trans hg', ?_⟩
    rcases hfirst with ⟨hsame, hno⟩ | hheavy
    · rcases hrest with ⟨hsame', hno'⟩ | hheavy
      · left
        refine ⟨hsame'.trans hsame, ?_⟩
        rintro ⟨x, hx, l, hl, hhas⟩
        rcases List.mem_cons.1 hx with rfl | hx
        · exact hno l hl hhas
        · exact hno' ⟨x, hx, l, hl, hhas.congr hsame⟩
      · exact Or.inr (hg.heavier hheavy)
    · exact Or.inr (hheavy.trans hg')

end Vmx.Select
