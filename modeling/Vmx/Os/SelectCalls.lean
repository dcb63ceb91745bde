import Vmx.Os.SelectRuns

/-!
# When `select` is right

The descriptors that count are those of the sets below the width, which is that of the table when
it is larger.
-/

namespace Vmx.Select

/-- A state in which the task has no nodes in the lists; the counts begin. -/
structure Start (me : Nat) extends State where
  clean : Clean me toState
  noTakes : ∀ l, toState.takes l = 0
  noGives : ∀ l, toState.gives l = 0
  noReports : ∀ type fd, toState.reported type fd = false

/-- The width that `select` goes on with. -/
def checkedWidth (iosMaxFd : Nat) (width : Int) : Nat :=
  if width > iosMaxFd then iosMaxFd else width.toNat

/-- The descriptors of a set that is given. -/
def selected (s : State) (type : SelectType) (width : Nat) : List Nat :=
  match s.fds type with
  | none => []
  | some set => chosen set width

/-- The bits in a set that is given. -/
def bitsOf (width : Nat) (set : Option FdSet) : Nat :=
  (set.map fun set => (chosen set width).length).getD 0

/-- The task has no select context, or the width is not one of the sets. -/
def Invalid (hasContext : Bool) (width : Int) : Prop :=
  hasContext = false ∨ width < 0 ∨ width > FD_SETSIZE

/-- The driver of a descriptor in one of the sets fails. -/
def Fails (d : Drivers) (s : State) (width : Nat) : Prop :=
  ∃ type, ∃ fd ∈ selected s type width,
    (d.reply .FIOSELECT type fd).rv ≠ OK ∨ (d.reply .FIOUNSELECT type fd).rv ≠ OK

/-- No set has a bit below `width` that is not cleared with those below `checked`. -/
def NoneBehind (s : State) (checked width : Nat) : Prop :=
  ∀ fd, wordBits checked ≤ fd → fd < width →
    (∀ type set, s.fds type = some set → set fd = false) ∧
      ∀ set, s.exceptFds = some set → set fd = false

/-- What callers rely on.  `r` is what `select` has left and returned. -/
structure Right (d : Drivers) (iosMaxFd me : Nat) (hasContext : Bool) (width : Int) (s : State)
    (r : State × Int) : Prop where
  failed : Invalid hasContext width ∨ Fails d s (checkedWidth iosMaxFd width) → r.2 = ERROR
  removed : Clean me r.1
  count : ¬(Invalid hasContext width ∨ Fails d s (checkedWidth iosMaxFd width)) →
    r.2 = bitsOf width.toNat (r.1.fds .SELREAD) + bitsOf width.toNat (r.1.fds .SELWRITE) +
      bitsOf width.toNat r.1.exceptFds
  ready : ¬(Invalid hasContext width ∨ Fails d s (checkedWidth iosMaxFd width)) →
    ∀ type set, r.1.fds type = some set → ∀ fd, fd < width.toNat → set fd = true →
      (∃ given, s.fds type = some given ∧ given fd = true) ∧ r.1.reported type fd = true
  except : ¬(Invalid hasContext width ∨ Fails d s (checkedWidth iosMaxFd width)) →
    ∀ set, r.1.exceptFds = some set → ∀ fd, fd < width.toNat → set fd = false
  mutex : ∀ l, r.1.gives l = r.1.takes l

variable {d : Drivers} {iosMaxFd me w : Nat} {hasContext : Bool} {width : Int} {s t : State}

theorem selectFds_nonneg : 0 ≤ (selectFds d me w s).2 := by
  have hend (r : State × Int) : (0 : Int) ≤
      (if r.2 ≠ OK then (unselectAll d me s.fds w r.1, (0 : Int))
      else ((waitAndUnselect d me s.fds w r.1).1,
        if (waitAndUnselect d me s.fds w r.1).2 = OK then
          ((found w (waitAndUnselect d me s.fds w r.1).1 : Nat) : Int)
        else 0)).2 := by
    split
    · exact Int.le_refl 0
    · simp only
      split
      · exact Int.natCast_nonneg _
      · exact Int.le_refl 0
  exact hend _

/-- Whatever happens, the number that is returned is not that of an error. -/
theorem select_nonneg : 0 ≤ (select d iosMaxFd me hasContext width s).2 := by
  unfold select
  split
  · exact Int.le_refl 0
  · split
    · exact Int.le_refl 0
    · exact selectFds_nonneg

theorem mem_chosen {set : FdSet} {fd : Nat} : fd ∈ chosen set w ↔ fd < w ∧ set fd = true := by
  rw [chosen, List.mem_filter, List.mem_range]

theorem doGiven_eq {func : Func} {type : SelectType} {stopOnError : Bool}
    (hok : ∀ fd ∈ selected s type w, (d.reply func type fd).rv = OK) :
    doGiven d me s.fds w func type stopOnError t =
      (calls d me func type (selected s type w) t, OK) := by
  unfold doGiven selected at *
  cases hset : s.fds type with
  | none => rfl
  | some set =>
    rw [hset] at hok
    exact selDoIoctls_eq hok

/-- The loops that ask the drivers. -/
def asked (d : Drivers) (me w : Nat) (s : State) : State :=
  calls d me .FIOSELECT .SELWRITE (selected s .SELWRITE w)
    (calls d me .FIOSELECT .SELREAD (selected s .SELREAD w) (clearAll w s))

/-- The loops that ask the drivers to take the nodes out again. -/
def unasked (d : Drivers) (me w : Nat) (s t : State) : State :=
  calls d me .FIOUNSELECT .SELWRITE (selected s .SELWRITE w)
    (calls d me .FIOUNSELECT .SELREAD (selected s .SELREAD w)
      (d.waiting.foldl (selWakeupAll me) t))

theorem found_eq (w : Nat) (s : State) :
    found w s = bitsOf w (s.fds .SELREAD) + bitsOf w (s.fds .SELWRITE) := by
  simp only [found, bitsOf, countFds_eq]

/-- When no driver fails, all descriptors are selected and unselected. -/
theorem selectFds_eq (h : ¬Fails d s w) :
    selectFds d me w s = (unasked d me w s (asked d me w s),
      ((bitsOf w ((unasked d me w s (asked d me w s)).fds .SELREAD) +
        bitsOf w ((unasked d me w s (asked d me w s)).fds .SELWRITE) : Nat) : Int)) := by
  have hok (func : Func) (type : SelectType) :
      ∀ fd ∈ selected s type w, (d.reply func type fd).rv = OK := by
    intro fd hfd
    by_contra hne
    apply h
    refine ⟨type, fd, hfd, ?_⟩
    cases func with
    | FIOSELECT => exact Or.inl hne
    | FIOUNSELECT => exact Or.inr hne
  unfold selectFds waitAndUnselect
  simp only [doGiven_eq (hok .FIOSELECT .SELREAD), doGiven_eq (hok .FIOSELECT .SELWRITE),
    doGiven_eq (hok .FIOUNSELECT .SELREAD), doGiven_eq (hok .FIOUNSELECT .SELWRITE),
    found_eq]
  rfl

/-- With a width of the sets, `select` goes on to the drivers. -/
theorem select_valid (h : ¬Invalid hasContext width) :
    select d iosMaxFd me hasContext width s = selectFds d me (checkedWidth iosMaxFd width) s := by
  unfold Invalid at h
  unfold select
  rw [if_neg fun hc => h (Or.inl hc), if_neg]
  · rfl
  · rintro (hneg | ⟨_, hbig⟩)
    · exact h (Or.inr (Or.inl hneg))
    · exact h (Or.inr (Or.inr hbig))

/-- The descriptors that the drivers report when they are asked. -/
def readyFds (d : Drivers) (s : State) (w : Nat) (type : SelectType) (fd : Nat) : Bool :=
  decide (fd ∈ selected s type w) && (d.reply .FIOSELECT type fd).ready

/-- When no driver takes a node, the sets get what the drivers report. -/
theorem unasked_marks (hs : Clean me s)
    (hnone : ∀ type, ∀ fd ∈ selected s type w, TakesNone d s type fd) :
    Marks (clearAll w s) (unasked d me w s (asked d me w s)) (readyFds d s w) := by
  have hs0 : Clean me (clearAll w s) := hs
  have hnone0 (type : SelectType) :
      ∀ fd ∈ selected s type w, TakesNone d (clearAll w s) type fd := hnone type
  have h1 := calls_select_marks hs0 (hnone0 .SELREAD)
  have hnone1 : ∀ fd ∈ selected s .SELWRITE w, TakesNone d
      (calls d me .FIOSELECT .SELREAD (selected s .SELREAD w) (clearAll w s)) .SELWRITE fd := by
    intro fd hfd
    unfold TakesNone
    rw [h1.lists]
    exact hnone0 .SELWRITE fd hfd
  have h2 := h1.trans (calls_select_marks (h1.clean hs0) hnone1)
  have h3 := h2.trans (wakeups_marks (h2.clean hs0) d.waiting)
  have h4 := h3.trans (@calls_unselect_marks d me _ .SELREAD (h3.clean hs0)
    (selected s .SELREAD w))
  have h5 := h4.trans (@calls_unselect_marks d me _ .SELWRITE (h4.clean hs0)
    (selected s .SELWRITE w))
  apply h5.congr
  intro type fd
  cases type with
  | SELREAD => simp [noFds, readyFds]
  | SELWRITE => simp [noFds, readyFds]

/-- When a driver takes a node, its mutex is given twice. -/
theorem unasked_heavier (hs : ¬∀ type, ∀ fd ∈ selected s type w, TakesNone d s type fd) :
    Heavier (clearAll w s) (unasked d me w s (asked d me w s)) := by
  obtain ⟨hg1, hkeep1, h1⟩ := @calls_select_gives d me (clearAll w s) .SELREAD
    (selected s .SELREAD w)
  unfold asked unasked
  generalize calls d me .FIOSELECT .SELREAD (selected s .SELREAD w) (clearAll w s) = s1 at *
  obtain ⟨hg2, hkeep2, h2⟩ := @calls_select_gives d me s1 .SELWRITE (selected s .SELWRITE w)
  generalize calls d me .FIOSELECT .SELWRITE (selected s .SELWRITE w) s1 = s2 at *
  obtain ⟨hg3, hlists3⟩ := @wakeups_gives me s2 d.waiting
  generalize d.waiting.foldl (selWakeupAll me) s2 = s3 at *
  obtain ⟨hg4, h4⟩ := @calls_unselect_gives d me s3 .SELREAD (selected s .SELREAD w)
  generalize calls d me .FIOUNSELECT .SELREAD (selected s .SELREAD w) s3 = s4 at *
  obtain ⟨hg5, h5⟩ := @calls_unselect_gives d me s4 .SELWRITE (selected s .SELWRITE w)
  -- The node of one of the two loops is there when the task has waited.
  have hreg : Registered d me s3 .SELREAD (selected s .SELREAD w) ∨
      Registered d me s3 .SELWRITE (selected s .SELWRITE w) := by
    rcases h1 with ⟨hsame1, hnone1⟩ | ⟨fd, hfd, l, hl, hhas⟩
    · rcases h2 with ⟨_, hnone2⟩ | ⟨fd, hfd, l, hl, hhas⟩
      · exfalso
        apply hs
        intro type fd hfd
        cases type with
        | SELREAD => exact hnone1 fd hfd
        | SELWRITE =>
          have h := hnone2 fd hfd
          unfold TakesNone at h
          rw [hsame1] at h
          exact h
      · exact Or.inr ⟨fd, hfd, l, hl, hhas.congr hlists3⟩
    · exact Or.inl ⟨fd, hfd, l, hl, (hkeep2 l .SELREAD hhas).congr hlists3⟩
  have hg : Gives (clearAll w s) s3 := (hg1.trans hg2).trans hg3
  rcases h4 with ⟨hsame4, hno4⟩ | hheavy
  · rcases h5 with ⟨_, hno5⟩ | hheavy
    · exfalso
      rcases hreg with hreg | ⟨fd, hfd, l, hl, hhas⟩
      · exact hno4 hreg
      · exact hno5 ⟨fd, hfd, l, hl, hhas.congr hsame4⟩
    · exact (hg.trans hg4).heavier hheavy
  · exact (hg.heavier hheavy).trans hg5

/-! ## The sets -/

theorem le_wordBits (w : Nat) : w ≤ wordBits w := by
  unfold wordBits NFDBITS
  omega

theorem checkedWidth_le (iosMaxFd : Nat) (width : Int) :
    checkedWidth iosMaxFd width ≤ width.toNat := by
  unfold checkedWidth
  split <;> omega

theorem mem_selected {type : SelectType} {fd : Nat} (h : fd ∈ selected s type w) :
    fd < w ∧ ∃ given, s.fds type = some given ∧ given fd = true := by
  unfold selected at h
  cases hset : s.fds type with
  | none =>
    rw [hset] at h
    cases h
  | some given =>
    rw [hset] at h
    obtain ⟨hlt, hgiven⟩ := mem_chosen.1 h
    exact ⟨hlt, given, rfl, hgiven⟩

/-- Bits that are not set do not count. -/
theorem bitsOf_extend {n : Nat} {o : Option FdSet} (hle : w ≤ n)
    (h : ∀ set, o = some set → ∀ fd, w ≤ fd → fd < n → set fd = false) :
    bitsOf n o = bitsOf w o := by
  cases o with
  | none => rfl
  | some set =>
    obtain ⟨k, rfl⟩ := Nat.exists_eq_add_of_le hle
    have hnone : ((List.range k).map (w + ·)).filter set = [] := by
      rw [List.filter_eq_nil_iff]
      intro fd hfd
      obtain ⟨x, hx, rfl⟩ := List.mem_map.1 hfd
      have hlt := List.mem_range.1 hx
      rw [h set rfl (w + x) (by omega) (by omega)]
      simp
    simp only [bitsOf, Option.map_some, Option.getD_some, chosen, List.range_add,
      List.filter_append, hnone, List.append_nil]

variable {n : Nat}

/-- A bit of a set afterwards: one that is not cleared, or one that a driver has reported. -/
theorem marks_fds (h : Marks (clearAll w s) t (readyFds d s w)) {type : SelectType} {set : FdSet}
    (hset : t.fds type = some set) : ∃ given, s.fds type = some given ∧
      ∀ fd, set fd = (decide (wordBits w ≤ fd) && given fd || readyFds d s w type fd) := by
  rw [h.fds type] at hset
  simp only [clearAll, Option.map_map, Option.map_eq_some_iff] at hset
  obtain ⟨given, hgiven, rfl⟩ := hset
  exact ⟨given, hgiven, fun fd => rfl⟩

theorem marks_except (h : Marks (clearAll w s) t (readyFds d s w)) {set : FdSet}
    (hset : t.exceptFds = some set) : ∃ given, s.exceptFds = some given ∧
      ∀ fd, set fd = (decide (wordBits w ≤ fd) && given fd) := by
  rw [h.exceptFds] at hset
  simp only [clearAll, Option.map_eq_some_iff] at hset
  obtain ⟨given, hgiven, rfl⟩ := hset
  exact ⟨given, hgiven, fun fd => rfl⟩

/-- Without bits behind those that are cleared, a bit is one that a driver has reported. -/
theorem marks_ready (h : Marks (clearAll w s) t (readyFds d s w)) (hb : NoneBehind s w n)
    {type : SelectType} {set : FdSet} (hset : t.fds type = some set) {fd : Nat} (hfd : fd < n)
    (hbit : set fd = true) : readyFds d s w type fd = true := by
  obtain ⟨given, hgiven, hbits⟩ := marks_fds h hset
  rw [hbits, Bool.or_eq_true] at hbit
  rcases hbit with hbit | hbit
  · simp only [Bool.and_eq_true, decide_eq_true_eq] at hbit
    rw [(hb fd hbit.1 hfd).1 type given hgiven] at hbit
    cases hbit.2
  · exact hbit

theorem marks_no_except (h : Marks (clearAll w s) t (readyFds d s w)) (hb : NoneBehind s w n)
    {set : FdSet} (hset : t.exceptFds = some set) {fd : Nat} (hfd : fd < n) : set fd = false := by
  obtain ⟨given, hgiven, hbits⟩ := marks_except h hset
  rw [hbits]
  by_cases hword : wordBits w ≤ fd
  · rw [(hb fd hword hfd).2 given hgiven, Bool.and_false]
  · simp [hword]

/-- The bits of a set afterwards are those below the width that `select` has gone on with. -/
theorem marks_bits (h : Marks (clearAll w s) t (readyFds d s w)) (hb : NoneBehind s w n)
    (hle : w ≤ n) (type : SelectType) : bitsOf n (t.fds type) = bitsOf w (t.fds type) := by
  apply bitsOf_extend hle
  intro set hset fd hlo hhi
  by_contra hbit
  have hready := marks_ready h hb hset hhi (by simpa using hbit)
  simp only [readyFds, Bool.and_eq_true, decide_eq_true_eq] at hready
  have hlt := (mem_selected hready.1).1
  omega

theorem marks_except_bits (h : Marks (clearAll w s) t (readyFds d s w)) (hb : NoneBehind s w n) :
    bitsOf n t.exceptFds = 0 := by
  have hzero := @bitsOf_extend 0 n t.exceptFds (Nat.zero_le n) fun set hset fd _ hhi =>
    marks_no_except h hb hset hhi
  rw [hzero]
  cases t.exceptFds <;> rfl

/-! ## The calls -/

/-- `select` is right when its width is one of the sets and no driver fails, no driver takes a
node of the task into its list, and the sets have no bits behind those that are cleared. -/
theorem select_iff (s : Start me) :
    Right d iosMaxFd me hasContext width s.toState
        (select d iosMaxFd me hasContext width s.toState) ↔
      ¬Invalid hasContext width ∧ ¬Fails d s.toState (checkedWidth iosMaxFd width) ∧
        (∀ type, ∀ fd ∈ selected s.toState type (checkedWidth iosMaxFd width),
          TakesNone d s.toState type fd) ∧
        NoneBehind s.toState (checkedWidth iosMaxFd width) width.toNat := by
  have hle := checkedWidth_le iosMaxFd width
  generalize hw : checkedWidth iosMaxFd width = w at *
  constructor
  · intro h
    have hgood : ¬(Invalid hasContext width ∨ Fails d s.toState w) := by
      intro hbad
      have herror := h.failed (hw ▸ hbad)
      have hnonneg := @select_nonneg d iosMaxFd me hasContext width s.toState
      rw [herror, ERROR] at hnonneg
      omega
    have hvalid : ¬Invalid hasContext width := fun hi => hgood (Or.inl hi)
    have hfails : ¬Fails d s.toState w := fun hf => hgood (Or.inr hf)
    rw [select_valid hvalid, hw, selectFds_eq hfails] at h
    have hnone : ∀ type, ∀ fd ∈ selected s.toState type w, TakesNone d s.toState type fd := by
      by_contra hno
      obtain ⟨_, l, hl⟩ := @unasked_heavier d me w s.toState hno
      have hmutex := h.mutex l
      have htakes : (clearAll w s.toState).takes l = 0 := s.noTakes l
      have hgives : (clearAll w s.toState).gives l = 0 := s.noGives l
      simp only at hmutex
      omega
    have hm := unasked_marks s.clean hnone
    have hgood' : ¬(Invalid hasContext width ∨
        Fails d s.toState (checkedWidth iosMaxFd width)) := hw ▸ hgood
    refine ⟨hvalid, hfails, hnone, ?_⟩
    intro fd hword hfd
    constructor
    · intro type given hgiven
      by_contra hbit
      -- The bit is still there, and nobody has reported it.
      have hset : (unasked d me w s.toState (asked d me w s.toState)).fds type =
          some fun x => decide (wordBits w ≤ x) && given x || readyFds d s.toState w type x := by
        rw [hm.fds type]
        simp only [clearAll, hgiven, Option.map_some]
        rfl
      have hrep := (h.ready hgood' type _ hset fd hfd (by simp [hword, hbit])).2
      have hreported := hm.reported type fd
      simp only at hrep
      rw [hrep] at hreported
      have hnoreport : (clearAll w s.toState).reported type fd = false := s.noReports type fd
      rw [hnoreport, Bool.false_or] at hreported
      have hsel := hreported.symm
      simp only [readyFds, Bool.and_eq_true, decide_eq_true_eq] at hsel
      have hlt := (mem_selected hsel.1).1
      have hwords := le_wordBits w
      omega
    · intro given hgiven
      have hset : (unasked d me w s.toState (asked d me w s.toState)).exceptFds =
          some fun x => decide (wordBits w ≤ x) && given x := by
        rw [hm.exceptFds]
        simp only [clearAll, hgiven, Option.map_some]
        rfl
      have hclear := h.except hgood' _ hset fd hfd
      simpa [hword] using hclear
  · rintro ⟨hvalid, hfails, hnone, hb⟩
    have hm := @unasked_marks d me w s.toState s.clean hnone
    rw [select_valid hvalid, hw, selectFds_eq hfails]
    generalize unasked d me w s.toState (asked d me w s.toState) = t at hm ⊢
    refine ⟨?_, hm.clean s.clean, ?_, ?_, ?_, ?_⟩
    · rintro (hi | hf)
      · exact absurd hi hvalid
      · exact absurd (hw ▸ hf) hfails
    · intro _
      simp only [marks_bits hm hb hle, marks_except_bits hm hb]
      omega
    · intro _ type set hset fd hfd hbit
      have hready := marks_ready hm hb hset hfd hbit
      have hsel := hready
      simp only [readyFds, Bool.and_eq_true, decide_eq_true_eq] at hsel
      refine ⟨(mem_selected hsel.1).2, ?_⟩
      show t.reported type fd = true
      rw [hm.reported, hready, Bool.or_true]
    · intro _ set hset fd hfd
      exact marks_no_except hm hb hset hfd
    · intro l
      have hbal := hm.balance l
      have htakes : (clearAll w s.toState).takes l = 0 := s.noTakes l
      have hgives : (clearAll w s.toState).gives l = 0 := s.noGives l
      show t.gives l = t.takes l
      omega

/-- Lists without nodes, and a set for reading with one descriptor. -/
def oneFd : Start 0 where
  wakeupList _ := []
  takes _ := 0
  gives _ := 0
  fds type := if type = .SELREAD then some fun fd => decide (fd = 0) else none
  exceptFds := none
  errno := none
  reported _ _ := false
  clean _ _ h := absurd h (List.not_mem_nil)
  noTakes _ := rfl
  noGives _ := rfl
  noReports _ _ := rfl

/-- A driver without `FIOSELECT`. -/
def noSelect : Drivers where
  wakeupList _ := none
  reply _ _ _ := ⟨true, false, ERROR, some .S_ioLib_UNKNOWN_REQUEST⟩
  before _ _ _ := []
  waiting := []

/-- When a driver fails `select` returns 0. -/
theorem not_select : ¬∀ (d : Drivers) (width : Int),
    Right d 8 0 true width oneFd.toState (select d 8 0 true width oneFd.toState) := by
  intro h
  have hfails : Fails noSelect oneFd.toState (checkedWidth 8 1) :=
    ⟨.SELREAD, 0, by decide, Or.inl (by decide)⟩
  have herror := (h noSelect 1).failed (Or.inr hfails)
  revert herror
  decide

end Vmx.Select
