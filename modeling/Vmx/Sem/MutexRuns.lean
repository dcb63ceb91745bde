import Vmx.Sem.Mutex

/-!
# Runs of the mutex machine

The invariant holds in every state of the runs whose steps are all `Sound`.  The
steps that are not are the ways in which the routines go wrong, and the
overflow of a delete safety count:

* the timeout of the first waiter expires while the mutex is being handed to it,
  and `semMKernGive` then wakes the next waiter;
* the timeout of a task expires after it has pended and before its context has been
  saved, and its take returns `OK`;
* the 16 bits of `recurse` are full at a nested take;
* a mutex with `SEM_DELETE_SAFE` ends while a task owns it, and the owner stays
  protected from deletion.
-/

namespace Vmx.Mutex

open Lib Util

/-- The delete safety count of the task can be counted up. -/
def Room (m : State) (t : TaskId) : Prop := (m.kern.tcb t).safeCount < 4294967295

instance (m : State) (t : TaskId) : Decidable (Room m t) := inferInstanceAs (Decidable (_ < _))

/-- The condition on a kernel section. -/
def SoundWork (m : State) : KernWork → Prop
  | .give s qGet _ => qGet = true → (m.sem s).deleteSafe = true → ∀ t ∈ (m.sem s).owner, Room m t
  | .destroy s => ((m.sem s).deleteSafe = true → ∀ t ∈ (m.sem s).owner, ¬ live m.kern t) ∧
      Room m m.kern.taskIdCurrent
  | .take _ _ => True
  | .giveForce _ _ => True
  | .exit _ => True

instance (m : State) (w : KernWork) : Decidable (SoundWork m w) := by
  cases w <;> unfold SoundWork <;> infer_instance

/-- The condition on an expiring timeout. -/
def SoundExpire (m : State) (t : TaskId) : KernWork → Prop
  | .give s qGet _ => qGet = true → (m.sem s).owner ≠ some t
  | .exit _ => t ≠ m.kern.taskIdCurrent
  | .take _ _ => True
  | .giveForce _ _ => True
  | .destroy _ => True

instance (m : State) (t : TaskId) (w : KernWork) : Decidable (SoundExpire m t w) := by
  cases w <;> unfold SoundExpire <;> infer_instance

/-- The condition on a step. -/
def Sound (m : State) : Op → Prop
  | .take s _ => (m.sem s).verified = true →
      ((m.sem s).owner = some m.kern.taskIdCurrent → (m.sem s).recurse < 65535) ∧
      ((m.sem s).owner = none → (m.sem s).deleteSafe = true → Room m m.kern.taskIdCurrent)
  | .taskSafe => Room m m.kern.taskIdCurrent
  | .protect t => Room m t
  | .kern => ∀ w ∈ m.kernWork, SoundWork m w
  | .expire t => ∀ w ∈ m.kernWork, SoundExpire m t w
  | .give _ => True
  | .giveForce _ => True
  | .destroy _ => True
  | .taskUnsafe => True
  | .env _ => True

instance (m : State) (op : Op) : Decidable (Sound m op) := by
  cases op <;> unfold Sound <;> infer_instance

/-- The context of the task has been saved. -/
theorem timedOut_eq {m : State} {t : TaskId} (hsound : Sound m (.expire t)) :
    timedOut m t = m := by
  unfold timedOut
  split
  · rename_i s hw
    exact if_neg (hsound _ hw)
  · rfl

theorem inv_step {m m' : State} {op : Op} (h : Inv m) (hsound : Sound m op)
    (hs : step m op = some m') : Inv m' := by
  cases op with
  | take s timeout =>
    obtain ⟨⟨hc, hlt⟩, rfl⟩ := guard_some.1 hs
    exact inv_semMTake h hc hlt timeout (fun hv => (hsound hv).1) fun hv => (hsound hv).2
  | give s =>
    obtain ⟨⟨hc, hlt⟩, rfl⟩ := guard_some.1 hs
    exact inv_semMGive h hc hlt
  | giveForce s =>
    obtain ⟨⟨hc, hlt⟩, rfl⟩ := guard_some.1 hs
    exact inv_semMGiveForce h hc hlt
  | destroy s =>
    obtain ⟨⟨hc, hlt⟩, rfl⟩ := guard_some.1 hs
    exact inv_semDestroy h hc hlt
  | taskSafe =>
    obtain ⟨hc, rfl⟩ := guard_some.1 hs
    exact inv_taskSafe h hc.1 hsound
  | taskUnsafe =>
    obtain ⟨⟨hc, hout⟩, rfl⟩ := guard_some.1 hs
    exact inv_taskUnsafe h hc hout
  | protect t =>
    obtain ⟨⟨hc, _⟩, rfl⟩ := guard_some.1 hs
    exact inv_taskSafe h hc.1 hsound
  | kern =>
    obtain ⟨w, hw, hm⟩ := Option.map_eq_some_iff.1 hs
    subst hm
    have hsw := hsound w hw
    cases w with
    | give s qGet flush => exact inv_semMKernGive h hw fun hq hd t ht => hsw hq hd t ht
    | take s timeout => exact inv_semMKernTake h hw
    | giveForce s taskIsValid => exact inv_semMKernGiveForce h hw
    | destroy s => exact inv_semKernDestroy h hw (fun hd t ht => hsw.1 hd t ht) hsw.2
    | exit s => exact inv_exit h hw
  | expire t =>
    obtain ⟨hd, rfl⟩ := guard_some.1 hs
    rw [timedOut_eq hsound]
    apply inv_expire h hd
    intro s hh
    unfold State.handing at hh
    split at hh
    · rename_i s' qGet flush hw
      obtain ⟨rfl, hs'⟩ := Bool.and_eq_true_iff.1 hh
      rw [← eq_of_beq hs']
      exact hsound _ hw rfl
    · cases hh
  | env op =>
    rw [step, Option.ite_none_right_eq_some] at hs
    obtain ⟨hk, hm⟩ := hs
    obtain ⟨k', hk', rfl⟩ := Option.map_eq_some_iff.1 hm
    exact inv_env h hk (envStep_effect h.coherent hk')

theorem inv_init {k : Kernel} (hc : Coherent k) (hnew : ∀ s, k.pendQ (.semQ s) = [])
    (hsafe : ∀ t, (k.tcb t).safeCount = 0) (nSem : Nat) (deleteSafe : Nat → Bool) :
    Inv (init k nSem deleteSafe) where
  coherent := hc
  sem s := by
    have hempty : ((init k nSem deleteSafe).view s).queue = [] := by
      show ids (k.pendQ (.semQ s)) = []
      rw [hnew]
      rfl
    exact ⟨fun _ => ⟨hempty, rfl⟩, fun t ht => (by cases ht), fun hh => (by cases hh),
      fun _ _ => hempty, fun t => rfl⟩
  safe t _ := by
    have hnone : (init k nSem deleteSafe).owned t = 0 := by
      unfold State.owned
      rw [Finset.card_eq_zero, Finset.filter_eq_empty_iff]
      rintro s _ ⟨_, hh⟩
      cases hh
    rw [hnone]
    exact hsafe t
  word t := by
    show (k.tcb t).safeCount < _
    rw [hsafe]
    decide
  work := trivial

/-! ## The protocol -/

/-- What the mutexes promise in a state.  `held s t` is the number of gives that
`t` still owes for its takes of `s`. -/
structure Protocol (m : State) : Prop where
  oneOwner : ∀ s t u, 0 < m.held s t → 0 < m.held s u → t = u
  ownerHolds : ∀ s t, m.kernWork = none → (m.sem s).verified = true →
    ((m.sem s).owner = some t ↔ 0 < m.held s t)
  notPended : ∀ s t, m.handing s = false → (m.sem s).owner = some t →
    t ∉ ids (m.kern.pendQ (.semQ s))
  noOwner : ∀ s, (m.sem s).owner = none → m.kern.pendQ (.semQ s) = []
  handing : ∀ s, m.handing s = true →
    (∀ t, m.held s t = 0) ∧ ∃ t, (m.sem s).owner = some t ∧
      qFirst (m.kern.pendQ (.semQ s)) = some t
  safeCount : ∀ t, live m.kern t → (m.kern.tcb t).safeCount = m.safes t + m.owned t

theorem Inv.protocol {m : State} (h : Inv m) : Protocol m where
  oneOwner s t u ht hu := by
    have hheldt : m.held s t = _ := (h.sem s).held t
    have hheldu : m.held s u = _ := (h.sem s).held u
    rw [hheldt] at ht
    rw [hheldu] at hu
    split at ht
    · rename_i h1
      split at hu
      · rename_i h2
        exact Option.some.inj (h1.symm.trans h2)
      · omega
    · omega
  ownerHolds s t hk hv := by
    have hheld : m.held s t = _ := (h.sem s).held t
    rw [hheld, holder_of_idle hk hv]
    split <;> simp_all
  notPended s t hh ho hm := by
    by_cases hend : (m.sem s).verified = true ∨ m.ending s = true
    · exact (h.sem s).notPended t ((if_pos ⟨hh, hend⟩).trans ho) hm
    · rw [not_or, Bool.not_eq_true, Bool.not_eq_true] at hend
      have hempty := (h.sem s).gone hend.1 hend.2
      change ids (m.kern.pendQ (.semQ s)) = [] at hempty
      rw [hempty] at hm
      cases hm
  noOwner s ho := List.map_eq_nil_iff.1 ((h.sem s).noOwner ho).1
  handing s hh := by
    obtain ⟨_, t, ho, hhead⟩ := (h.sem s).handing hh
    refine ⟨fun u => ?_, t, ho, (qFirst_eq_head? _).trans hhead⟩
    have hheld : m.held s u = _ := (h.sem s).held u
    have hholder : (m.view s).holder = none :=
      if_neg fun hc => Bool.false_ne_true (hc.1.symm.trans hh)
    rw [hheld, hholder]
    rfl
  safeCount := h.safe

/-- How a step changes the takes: all that a step can do to them. -/
inductive HeldStep (m : State) : Op → (Nat → TaskId → Nat) → Prop
  | same (op : Op) : HeldStep m op m.held
  | take (s timeout : Nat) (hk : m.kernWork = none) (hv : (m.sem s).verified = true)
      (ho : (m.sem s).owner = none ∨ (m.sem s).owner = some m.kern.taskIdCurrent) :
      HeldStep m (.take s timeout) (m.setHeld s m.kern.taskIdCurrent
        (m.held s m.kern.taskIdCurrent + 1)).held
  | give (s : Nat) (hk : m.kernWork = none)
      (ho : (m.sem s).owner = some m.kern.taskIdCurrent) :
      HeldStep m (.give s) (m.setHeld s m.kern.taskIdCurrent
        (m.held s m.kern.taskIdCurrent - 1)).held
  | undo (s : Nat) (t : TaskId) (hk : m.kernWork = none) (hv : (m.sem s).verified = true)
      (ho : (m.sem s).owner = some t) : HeldStep m (.giveForce s) (m.setHeld s t 1).held
  | force (s : Nat) (t : TaskId) (taskIsValid : Bool)
      (hw : m.kernWork = some (.giveForce s taskIsValid)) :
      HeldStep m .kern (m.setHeld s t 0).held
  | grant (s : Nat) (t : TaskId) (flush : Bool) (hw : m.kernWork = some (.give s true flush))
      (hq : qFirst (m.kern.pendQ (.semQ s)) = some t) :
      HeldStep m .kern (m.setHeld s t (m.held s t + 1)).held
  | destroy (s : Nat) (hw : m.kernWork = some (.destroy s)) :
      HeldStep m .kern (Function.update m.held s fun _ => 0)

theorem heldStep_work {m : State} {w : KernWork} (hw : m.kernWork = some w) :
    HeldStep m .kern (w.run m).held := by
  cases w with
  | give s qGet flush =>
    cases qGet with
    | false => exact .same _
    | true =>
      cases hq : qFirst (m.kern.pendQ (.semQ s)) with
      | none =>
        have hheld : (semMKernGive m s true flush).held = m.held := by
          simp [semMKernGive, hq]
        show HeldStep m .kern (semMKernGive m s true flush).held
        rw [hheld]
        exact .same _
      | some t =>
        have hheld : (semMKernGive m s true flush).held =
            (m.setHeld s t (m.held s t + 1)).held := by
          simp [semMKernGive, hq, State.setHeld]
        show HeldStep m .kern (semMKernGive m s true flush).held
        rw [hheld]
        exact .grant s t flush hw hq
  | take s timeout => exact .same _
  | giveForce s taskIsValid =>
    cases ho : (m.sem s).owner with
    | none =>
      have hheld : (semMKernGiveForce m s taskIsValid).held = m.held := by
        simp [semMKernGiveForce, ho, State.setSem]
      show HeldStep m .kern (semMKernGiveForce m s taskIsValid).held
      rw [hheld]
      exact .same _
    | some t =>
      have hheld : (semMKernGiveForce m s taskIsValid).held = (m.setHeld s t 0).held := by
        cases taskIsValid <;> simp [semMKernGiveForce, ho, State.setSem, State.setHeld]
      show HeldStep m .kern (semMKernGiveForce m s taskIsValid).held
      rw [hheld]
      exact .force s t taskIsValid hw
  | exit s => exact .same _
  | destroy s =>
    have hheld : (semKernDestroy m s).held = Function.update m.held s fun _ => 0 := by
      unfold semKernDestroy
      rw [vmxSemDelete_eq]
      rfl
    show HeldStep m .kern (semKernDestroy m s).held
    rw [hheld]
    exact .destroy s hw

theorem heldStep {m m' : State} {op : Op} (hsound : Sound m op) (hs : step m op = some m') :
    HeldStep m op m'.held := by
  cases op with
  | take s timeout =>
    obtain ⟨⟨hc, _⟩, rfl⟩ := guard_some.1 hs
    unfold semMTake
    dsimp only
    split
    · exact .same _
    · rename_i hv
      rw [Bool.not_eq_false] at hv
      split
      · rename_i ho
        exact .take s timeout hc.1 hv (Or.inl ho)
      · rename_i pOwner ho
        split
        · rename_i hme
          rw [hme] at ho
          exact .take s timeout hc.1 hv (Or.inr ho)
        · split <;> exact .same _
  | give s =>
    obtain ⟨⟨hc, _⟩, rfl⟩ := guard_some.1 hs
    unfold semMGive
    dsimp only
    split
    · exact .same _
    · split
      · exact .same _
      · rename_i ho
        rw [not_not] at ho
        split
        · exact .give s hc.1 ho
        · split <;> exact .give s hc.1 ho
  | giveForce s =>
    obtain ⟨⟨hc, _⟩, rfl⟩ := guard_some.1 hs
    unfold semMGiveForce
    split
    · exact .same _
    · rename_i hv
      rw [Bool.not_eq_false] at hv
      split
      · exact .same _
      · rename_i pOwner ho
        dsimp only
        split <;> exact .undo s pOwner hc.1 hv ho
  | destroy s =>
    rw [step, Option.ite_none_right_eq_some] at hs
    obtain rfl := Option.some.inj hs.2
    unfold semDestroy
    split <;> exact .same _
  | taskSafe =>
    rw [step, Option.ite_none_right_eq_some] at hs
    obtain rfl := Option.some.inj hs.2
    exact .same _
  | taskUnsafe =>
    rw [step, Option.ite_none_right_eq_some] at hs
    obtain rfl := Option.some.inj hs.2
    unfold taskUnsafe
    dsimp only
    split <;> exact .same _
  | protect t =>
    rw [step, Option.ite_none_right_eq_some] at hs
    obtain rfl := Option.some.inj hs.2
    exact .same _
  | kern =>
    obtain ⟨w, hw, rfl⟩ := Option.map_eq_some_iff.1 hs
    exact heldStep_work hw
  | expire t =>
    rw [step, Option.ite_none_right_eq_some, timedOut_eq hsound] at hs
    obtain rfl := Option.some.inj hs.2
    exact .same _
  | env op =>
    rw [step, Option.ite_none_right_eq_some] at hs
    obtain ⟨k', _, rfl⟩ := Option.map_eq_some_iff.1 hs.2
    exact .same _

/-- What the mutexes promise of a step: only a give by the owner, one take at a
time, a forced give or the end of the mutex takes it away, and the next owner
finds it free, or is the first waiter. -/
structure StepOk (m : State) (op : Op) (m' : State) : Prop where
  give : ∀ s n, op = .give s → (m.sem s).verified = true →
    (m.sem s).owner = some m.kern.taskIdCurrent →
    m.held s m.kern.taskIdCurrent = n + 1 → m'.held s m.kern.taskIdCurrent = n ∧
      (m'.sem s).owner = if n = 0 then qFirst (m.kern.pendQ (.semQ s))
        else some m.kern.taskIdCurrent
  lower : ∀ s t, m'.held s t < m.held s t →
    (op = .give s ∧ t = m.kern.taskIdCurrent ∧ m'.held s t + 1 = m.held s t) ∨
    op = .giveForce s ∨ (op = .kern ∧ ∃ v, m.kernWork = some (.giveForce s v)) ∨
    (op = .kern ∧ m.kernWork = some (.destroy s))
  acquire : ∀ s t, m.held s t = 0 → 0 < m'.held s t →
    (∀ u, m.held s u = 0) ∧
      if m.handing s then qFirst (m.kern.pendQ (.semQ s)) = some t
      else m.kern.pendQ (.semQ s) = []

theorem held_setHeld (m : State) (s s' : Nat) (t t' : TaskId) (n : Nat) :
    (m.setHeld s t n).held s' t' = if s' = s ∧ t' = t then n else m.held s' t' := by
  unfold State.setHeld
  by_cases hs : s' = s
  · subst hs
    by_cases ht : t' = t
    · subst ht
      simp
    · simp [ht]
  · simp [hs]

theorem Inv.give {m : State} (h : Inv m) (hk : m.kernWork = none) {s n : Nat}
    (hv : (m.sem s).verified = true) (ho : (m.sem s).owner = some m.kern.taskIdCurrent)
    (hn : m.held s m.kern.taskIdCurrent = n + 1) :
    (semMGive m s).1.held s m.kern.taskIdCurrent = n ∧
      ((semMGive m s).1.sem s).owner = if n = 0 then qFirst (m.kern.pendQ (.semQ s))
        else some m.kern.taskIdCurrent := by
  have hheld : m.held s m.kern.taskIdCurrent = _ := (h.sem s).held m.kern.taskIdCurrent
  rw [(holder_of_idle hk hv).trans ho, if_pos rfl, hn] at hheld
  have hrec : n = (m.sem s).recurse := Nat.succ.inj hheld
  unfold semMGive
  dsimp only
  rw [if_neg (by simp [hv]), if_neg (by simp [ho]), ← hrec, hn]
  split
  · rename_i hpos
    rw [if_neg (by omega)]
    simp [State.setHeld, State.setSem, ho]
  · rename_i hpos
    have hzero : n = 0 := by omega
    subst hzero
    split <;> simp [State.setHeld, State.setSem]

theorem Inv.stepOk {m m' : State} {op : Op} (h : Inv m) (hsound : Sound m op)
    (hs : step m op = some m') : StepOk m op m' where
  give s n hop hv ho hn := by
    subst hop
    obtain ⟨⟨hc, _⟩, rfl⟩ := guard_some.1 hs
    exact h.give hc.1 hv ho hn
  lower s t hlt := by
    have hstep := heldStep hsound hs
    generalize m'.held = held' at hstep hlt
    cases hstep with
    | same => omega
    | take s1 timeout =>
      rw [held_setHeld] at hlt
      split at hlt
      · rename_i hst
        rw [hst.1, hst.2] at hlt
        omega
      · omega
    | give s1 =>
      rw [held_setHeld] at hlt ⊢
      split at hlt
      · rename_i hst
        obtain ⟨rfl, rfl⟩ := hst
        exact Or.inl ⟨rfl, rfl, by rw [if_pos ⟨rfl, rfl⟩]; omega⟩
      · omega
    | undo s1 u =>
      rw [held_setHeld] at hlt
      split at hlt
      · rename_i hst
        rw [hst.1]
        exact Or.inr (Or.inl rfl)
      · omega
    | force s1 u taskIsValid hw =>
      rw [held_setHeld] at hlt
      split at hlt
      · rename_i hst
        rw [hst.1]
        exact Or.inr (Or.inr (Or.inl ⟨rfl, taskIsValid, hw⟩))
      · omega
    | grant s1 u flush hw hq =>
      rw [held_setHeld] at hlt
      split at hlt
      · rename_i hst
        rw [hst.1, hst.2] at hlt
        omega
      · omega
    | destroy s1 hw =>
      by_cases hs1 : s = s1
      · rw [hs1]
        exact Or.inr (Or.inr (Or.inr ⟨rfl, hw⟩))
      · rw [Function.update_of_ne hs1] at hlt
        omega
  acquire s t hzero hpos := by
    have hstep := heldStep hsound hs
    have hheld := fun u => (h.sem s).held u
    change ∀ u, m.held s u = _ at hheld
    generalize m'.held = held' at hstep hpos
    cases hstep with
    | same => omega
    | take s1 timeout hk hv ho =>
      rw [held_setHeld] at hpos
      split at hpos
      · rename_i hst
        obtain ⟨rfl, rfl⟩ := hst
        rcases ho with ho | ho
        · rw [if_neg (by simp [(view_of_idle hk s).1])]
          refine ⟨fun u => ?_, List.map_eq_nil_iff.1 ((h.sem s).noOwner ho).1⟩
          rw [hheld, (holder_of_idle hk hv).trans ho]
          rfl
        · rw [hheld, (holder_of_idle hk hv).trans ho, if_pos rfl] at hzero
          omega
      · omega
    | give s1 =>
      rw [held_setHeld] at hpos
      split at hpos
      · rename_i hst
        rw [hst.1, hst.2] at hzero
        omega
      · omega
    | undo s1 u hk hv ho =>
      rw [held_setHeld] at hpos
      split at hpos
      · rename_i hst
        obtain ⟨rfl, rfl⟩ := hst
        rw [hheld, (holder_of_idle hk hv).trans ho, if_pos rfl] at hzero
        omega
      · omega
    | force s1 u taskIsValid hw =>
      rw [held_setHeld] at hpos
      split at hpos
      · omega
      · omega
    | grant s1 u flush hw hq =>
      rw [held_setHeld] at hpos
      split at hpos
      · rename_i hst
        obtain ⟨rfl, rfl⟩ := hst
        have hh : m.handing s = true := by simp [State.handing, hw]
        rw [if_pos hh]
        exact ⟨(h.protocol.handing s hh).1, hq⟩
      · omega
    | destroy s1 hw =>
      by_cases hs1 : s = s1
      · rw [hs1, Function.update_self] at hpos
        omega
      · rw [Function.update_of_ne hs1] at hpos
        omega

/-- **The mutex protocol.**  In every run of sound steps from new mutexes, the
protocol holds in every state, and every further sound step obeys it. -/
theorem mutex_protocol (readyClass : QClass) (pendClass : QAddr → QClass) (ops : List KernelOp)
    {k : Kernel} (hkern : exec kernelStep (kernelInit readyClass pendClass) ops = some k)
    (hnew : ∀ s, k.pendQ (.semQ s) = []) (hsafe : ∀ t, (k.tcb t).safeCount = 0) (nSem : Nat)
    (deleteSafe : Nat → Bool) (ls : List Op) {m : State}
    (hsound : AllSteps step Sound (init k nSem deleteSafe) ls)
    (hrun : exec step (init k nSem deleteSafe) ls = some m) :
    Protocol m ∧ ∀ op m', Sound m op → step m op = some m' → StepOk m op m' := by
  have hc : Coherent k := exec_invariant (fun _ _ _ h hs => coherent_kernelStep h hs)
    (coherent_kernelInit readyClass pendClass) hkern
  have hinv : Inv m := exec_invariant_of (fun _ _ _ h hP hs => inv_step h hP hs)
    (inv_init hc hnew hsafe nSem deleteSafe) hsound hrun
  exact ⟨hinv.protocol, fun op m' hP hs => hinv.stepOk hP hs⟩

/-- A task takes a mutex twice, another one waits for it, and the second give hands
it over. -/
theorem mutex_protocol_handover :
    ∃ k m, exec kernelStep (kernelInit .prio fun _ => .prio)
        [.spawn 0 10, .spawn 1 20, .job (.resume 0), .job (.resume 1), .dispatch] = some k ∧
      exec step (init k 1 fun _ => true)
        [.take 0 WAIT_FOREVER, .take 0 WAIT_FOREVER, .env (.delay 3), .env .dispatch,
          .take 0 5, .kern, .kern, .expire 0, .env .dispatch, .give 0, .give 0, .kern] = some m ∧
      m.held 0 1 = 1 ∧
      (Protocol m ∧ ∀ op m', Sound m op → step m op = some m' → StepOk m op m') := by
  refine ⟨_, _, rfl, rfl, rfl, mutex_protocol .prio (fun _ => .prio) [.spawn 0 10, .spawn 1 20,
    .job (.resume 0), .job (.resume 1), .dispatch] rfl (fun s => rfl) (fun t => ?_) 1
    (fun _ => true) [.take 0 WAIT_FOREVER, .take 0 WAIT_FOREVER, .env (.delay 3), .env .dispatch,
      .take 0 5, .kern, .kern, .expire 0, .env .dispatch, .give 0, .give 0, .kern] (by decide) rfl⟩
  rcases t with _ | _ | t <;> rfl

/-- Three runs with a step that is not sound.  In the first a task destroys a mutex
with `SEM_DELETE_SAFE` that it owns, and stays protected from deletion for ever.
In the second the timeout of the first of two waiters expires during the last
give: it becomes the owner, and the other task returns from its take.  In the third
the timeout of a task expires before its context is saved, and its take returns
`OK` though another task owns the mutex. -/
theorem mutex_protocol_broken :
    (∃ k m, exec kernelStep (kernelInit .prio fun _ => .prio)
        [.spawn 0 10, .job (.resume 0), .dispatch] = some k ∧
      exec step (init k 1 fun _ => true)
        [.take 0 WAIT_FOREVER, .destroy 0, .kern, .taskUnsafe] = some m ∧ ¬ Protocol m) ∧
    (∃ k m, exec kernelStep (kernelInit .prio fun _ => .prio)
        [.spawn 0 10, .spawn 1 20, .spawn 2 30, .job (.resume 0), .job (.resume 1),
          .job (.resume 2), .dispatch] = some k ∧
      exec step (init k 1 fun _ => false)
        [.take 0 WAIT_FOREVER, .env (.delay 3), .env .dispatch, .take 0 5, .kern, .kern,
          .env .dispatch, .take 0 WAIT_FOREVER, .kern, .kern, .expire 0, .env .dispatch, .give 0,
          .expire 1, .kern] = some m ∧ ¬ Protocol m) ∧
    ∃ k m, exec kernelStep (kernelInit .prio fun _ => .prio)
        [.spawn 0 10, .spawn 1 20, .job (.resume 0), .job (.resume 1), .dispatch] = some k ∧
      exec step (init k 1 fun _ => false)
        [.take 0 WAIT_FOREVER, .env (.delay 3), .env .dispatch, .take 0 1, .kern, .expire 1,
          .kern] = some m ∧ ¬ Protocol m := by
  refine ⟨⟨_, _, rfl, rfl, fun h => ?_⟩, ⟨_, _, rfl, rfl, fun h => ?_⟩,
    ⟨_, _, rfl, rfl, fun h => ?_⟩⟩
  · have hsafe := h.safeCount 0 rfl
    revert hsafe
    decide
  · have howner := (h.ownerHolds 0 1 rfl rfl).1 rfl
    revert howner
    decide
  · have hone := h.oneOwner 0 0 1 (by decide) (by decide)
    cases hone

end Vmx.Mutex
