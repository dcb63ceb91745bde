import Vmx.Sem.SemLib

/-!
# Conservation of gives

The invariant of the binary and counting semaphores, and the runs that keep it.
A counting semaphore balances its account: what it holds, what it has handed out
and the give whose waiter is being woken are the initial count and the gives.  No
semaphore has waiters while it can be taken.

The steps that break it are a give with `kernelState` set, whose job does nothing
(`objVerifyEqOK_eq`), a give whose waiters have all left when its kernel section
gets the first one, a give that overflows the count, and a timeout that expires
before the context of its task has been saved.
-/

namespace Vmx.SemBC

open Lib Util

/-- The semaphore cannot be taken. -/
def SemState.Unavailable : SemState → Prop
  | .owner pOwner => pOwner ≠ none
  | .count n => n = 0

/-- 1 in the kernel section of a give of `s`. -/
def State.waking (m : State) (s : Nat) : Nat := if m.kernWork = some (.give s) then 1 else 0

/-- The account of a semaphore with the initial state `initial`. -/
def Balanced (m : State) (s : Nat) (initial : SemState) : Prop :=
  match (m.sem s).state, initial with
  | .owner _, .owner _ => True
  | .count n, .count c => n + m.takes s + m.waking s = c + m.gives s ∧ n < 4294967296
  | _, _ => False

/-- What holds of one semaphore. -/
structure SemOk (m : State) (s : Nat) (initial : SemState) : Prop where
  verified : (m.sem s).verified = true
  pended : m.kern.pendQ (.semQ s) ≠ [] → (m.sem s).state.Unavailable
  giving : m.kernWork = some (.give s) → (m.sem s).state.Unavailable
  taking : ∀ timeout, m.kernWork = some (.take s timeout) → (m.sem s).state.Unavailable
  balanced : Balanced m s initial

structure Inv (states : Nat → SemState) (m : State) : Prop where
  coherent : Coherent m.kern
  sem : ∀ s, SemOk m s (states s)
  jobs : ∀ s, .give s ∉ m.workQ
  taking : ∀ s timeout, m.kernWork = some (.take s timeout) → running m.kern

/-- The condition on a step: the interrupts give outside the kernel, the kernel
section of a give finds a waiter, no count overflows, and no timeout of a task
expires before `vmxExit` has saved its context. -/
def Sound (m : State) : Op → Prop
  | .give s => m.kernWork = none ∧
      (m.kern.pendQ (.semQ s) = [] → (m.sem s).state ≠ .count 4294967295)
  | .kern => ∀ w ∈ m.kernWork, ∀ s, w = .give s → m.kern.pendQ (.semQ s) ≠ []
  | .take _ _ => True
  | .flush _ => True
  | .drain => True
  | .expire t => m.kernWork = none ∨ t ≠ m.kern.taskIdCurrent
  | .env _ => True

instance (m : State) (op : Op) : Decidable (Sound m op) := by
  cases op with
  | kern =>
    match h : m.kernWork with
    | some (.give s) =>
      refine decidable_of_iff (m.kern.pendQ (.semQ s) ≠ []) ?_
      simp [Sound, h]
    | none => exact isTrue (by simp [Sound, h])
    | some (.take _ _) => exact isTrue (by simp [Sound, h])
    | some (.flush _) => exact isTrue (by simp [Sound, h])
    | some .exit => exact isTrue (by simp [Sound, h])
  | _ => unfold Sound; infer_instance

section Steps

variable {m m' : State} {states : Nat → SemState} {s : Nat}

/-- A semaphore whose record and account a step leaves alone, and that gets no new
waiters. -/
theorem SemOk.frame (h : SemOk m s (states s)) (hsem : m'.sem s = m.sem s)
    (hgives : m'.gives s = m.gives s) (htakes : m'.takes s = m.takes s)
    (hwaking : m'.waking s = m.waking s)
    (hpend : m'.kern.pendQ (.semQ s) ≠ [] → (m.sem s).state.Unavailable)
    (htaking : ∀ timeout, m'.kernWork = some (.take s timeout) → (m.sem s).state.Unavailable) :
    SemOk m' s (states s) where
  verified := by
    rw [hsem]
    exact h.verified
  pended hq := by
    rw [hsem]
    exact hpend hq
  giving hw := by
    rw [hsem]
    apply h.giving
    by_contra hno
    unfold State.waking at hwaking
    rw [if_pos hw, if_neg hno] at hwaking
    cases hwaking
  taking timeout hw := by
    rw [hsem]
    exact htaking timeout hw
  balanced := by
    have hb := h.balanced
    unfold Balanced at hb ⊢
    rw [hsem, hgives, htakes, hwaking]
    exact hb

/-- The count is a 32 bit word. -/
theorem SemOk.count_lt {initial : SemState} (h : SemOk m s initial) {n : Nat}
    (hst : (m.sem s).state = .count n) : n < 4294967296 := by
  have hb := h.balanced
  unfold Balanced at hb
  rw [hst] at hb
  cases initial with
  | owner pOwner => exact hb.elim
  | count c => exact hb.2

theorem waking_of_ne {s' : Nat} (hw : m.kernWork = none ∨ m.kernWork = some (.give s'))
    (hs : s ≠ s') : m.waking s = 0 := by
  unfold State.waking
  rw [if_neg]
  intro he
  rcases hw with hw | hw
  · rw [hw] at he
    cases he
  · rw [hw] at he
    cases he
    exact hs rfl

theorem waking_of_idle (hw : m.kernWork = none) (s : Nat) : m.waking s = 0 := by
  unfold State.waking
  rw [hw]
  rfl

/-- A give with nobody waiting. -/
theorem inv_give_free (h : Inv states m) (hk : m.kernWork = none)
    (hq : m.kern.pendQ (.semQ s) = []) {st : SemState}
    (hst : match (m.sem s).state, st with
      | .owner _, .owner _ => True
      | .count n, .count n' => n' = n + 1 ∧ n' < 4294967296
      | _, _ => False) : Inv states ((m.setSem s st).given s) where
  coherent := h.coherent
  sem s' := by
    by_cases hs : s' = s
    · subst hs
      have hsem : ((m.setSem s' st).given s').sem s' = { m.sem s' with state := st } :=
        Function.update_self ..
      have hb := (h.sem s').balanced
      refine ⟨?_, fun hne => absurd hq hne, fun hw => ?_, fun timeout hw => ?_, ?_⟩
      · rw [hsem]
        exact (h.sem s').verified
      · exact absurd (hk.symm.trans hw) (by simp)
      · exact absurd (hk.symm.trans hw) (by simp)
      · have hgives : ((m.setSem s' st).given s').gives s' = m.gives s' + 1 :=
          Function.update_self ..
        have htakes : ((m.setSem s' st).given s').takes s' = m.takes s' := rfl
        have hwake : m.waking s' = 0 := waking_of_idle hk s'
        have hwake' : ((m.setSem s' st).given s').waking s' = 0 := hwake
        unfold Balanced at hb ⊢
        rw [hsem, hgives, htakes, hwake']
        rw [hwake] at hb
        cases hm : (m.sem s').state <;> cases hi : states s' <;> cases st <;>
          simp only [hm, hi] at hb hst ⊢
        omega
    · apply (h.sem s').frame
      · exact Function.update_of_ne hs ..
      · exact Function.update_of_ne hs ..
      · rfl
      · rfl
      · exact (h.sem s').pended
      · exact (h.sem s').taking
  jobs := h.jobs
  taking := h.taking

/-- A give that has to wake a waiter: the state of a binary semaphore names it. -/
theorem inv_give_wake (h : Inv states m) (hk : m.kernWork = none)
    (hq : m.kern.pendQ (.semQ s) ≠ []) {st : SemState}
    (hst : match (m.sem s).state, st with
      | .owner _, .owner pOwner => pOwner ≠ none
      | .count n, .count n' => n' = n
      | _, _ => False) : Inv states (((m.setSem s st).given s).enter (.give s)) where
  coherent := h.coherent
  sem s' := by
    set m' := ((m.setSem s st).given s).enter (.give s) with hm'
    by_cases hs : s' = s
    · subst hs
      have hsem : m'.sem s' = { m.sem s' with state := st } := Function.update_self ..
      have hun := (h.sem s').pended hq
      have hun' : (m'.sem s').state.Unavailable := by
        rw [hsem]
        cases hm : (m.sem s').state <;> cases st <;> simp only [hm] at hst hun ⊢
        · exact hst
        · rw [hst]
          exact hun
      have hb := (h.sem s').balanced
      refine ⟨?_, fun _ => hun', fun _ => hun', fun _ _ => hun', ?_⟩
      · rw [hsem]
        exact (h.sem s').verified
      · have hgives : m'.gives s' = m.gives s' + 1 := Function.update_self ..
        have htakes : m'.takes s' = m.takes s' := rfl
        have hwake : m.waking s' = 0 := waking_of_idle hk s'
        have hwake' : m'.waking s' = 1 := if_pos rfl
        unfold Balanced at hb ⊢
        rw [hsem, hgives, htakes, hwake']
        rw [hwake] at hb
        cases hm : (m.sem s').state <;> cases hi : states s' <;> cases st <;>
          simp only [hm, hi] at hb hst ⊢
        omega
    · apply (h.sem s').frame
      · exact Function.update_of_ne hs ..
      · exact Function.update_of_ne hs ..
      · rfl
      · rw [waking_of_ne (Or.inr rfl) hs, waking_of_ne (Or.inl hk) hs]
      · exact (h.sem s').pended
      · intro timeout hw
        cases hw
  jobs := h.jobs
  taking s' timeout hw := by cases hw

theorem setSem_self (m : State) (s : Nat) : m.setSem s (m.sem s).state = m := by
  unfold State.setSem
  rw [Function.update_eq_self]

theorem inv_semGive (h : Inv states m) (hsound : Sound m (.give s)) :
    Inv states (semGive m s).1 := by
  obtain ⟨hk, hroom⟩ := hsound
  have hv := (h.sem s).verified
  unfold semGive
  rw [hk, if_neg (by simp)]
  split
  · rename_i pOwner hst
    unfold semBGive
    rw [if_neg (by simp [hv])]
    dsimp only
    split
    · rename_i hq
      apply inv_give_free h hk (qFirst_eq_none.1 hq)
      rw [hst]
      trivial
    · rename_i hq
      apply inv_give_wake h hk (fun he => hq (qFirst_eq_none.2 he))
      rw [hst]
      exact hq
  · rename_i n hst
    unfold semCGive
    rw [if_neg (by simp [hv])]
    split
    · rename_i hq
      have hne := hroom (qFirst_eq_none.1 hq)
      have hlt : n < 4294967296 := (h.sem s).count_lt hst
      have hn : n ≠ 4294967295 := by
        rintro rfl
        exact hne hst
      apply inv_give_free h hk (qFirst_eq_none.1 hq)
      rw [hst]
      show u32 (n + 1) = n + 1 ∧ _
      rw [u32_of_lt (by omega)]
      exact ⟨rfl, by omega⟩
    · rename_i hq
      have hinv : Inv states (((m.setSem s (m.sem s).state).given s).enter (.give s)) :=
        inv_give_wake h hk (fun he => hq (qFirst_eq_none.2 he)) (by rw [hst])
      rw [setSem_self] at hinv
      exact hinv

theorem inv_errnoSet (h : Inv states m) (e : Errno) : Inv states (m.errnoSet e) where
  coherent := coherent_setTcb h.coherent (f := fun c => { c with errno := e }) (fun _ => rfl)
    (fun _ => rfl) fun _ => rfl
  sem s := (h.sem s).frame rfl rfl rfl rfl (h.sem s).pended (h.sem s).taking
  jobs := h.jobs
  taking s timeout hw := by
    have hr := h.taking s timeout hw
    have hsame : (m.errnoSet e).kern.taskIdCurrent = m.kern.taskIdCurrent := rfl
    unfold running at hr ⊢
    rw [hsame]
    simpa [State.errnoSet, Kernel.setTcb] using hr

theorem inv_takeIf (h : Inv states m) (hk : m.kernWork = none) (hr : running m.kern)
    {timeout : Nat} {available : Bool} {after : SemState}
    (hfree : available = true → ¬ (m.sem s).state.Unavailable ∧
      match (m.sem s).state, after with
      | .owner _, .owner _ => True
      | .count n, .count n' => n = n' + 1
      | _, _ => False)
    (hempty : available = false → (m.sem s).state.Unavailable) :
    Inv states (takeIf m s timeout available after).1 := by
  have hv := (h.sem s).verified
  unfold takeIf
  rw [if_neg (by simp [hv])]
  split
  · rename_i ha
    obtain ⟨havail, hafter⟩ := hfree ha
    have hq : m.kern.pendQ (.semQ s) = [] := by
      by_contra hne
      exact havail ((h.sem s).pended hne)
    refine ⟨h.coherent, fun s' => ?_, h.jobs, h.taking⟩
    set m' := (m.setSem s after).taken s with hm'
    by_cases hs : s' = s
    · subst hs
      have hsem : m'.sem s' = { m.sem s' with state := after } := Function.update_self ..
      have hb := (h.sem s').balanced
      refine ⟨?_, fun hne => absurd hq hne, fun hw => ?_, fun _ hw => ?_, ?_⟩
      · rw [hsem]
        exact hv
      · exact absurd (hk.symm.trans hw) (by simp)
      · exact absurd (hk.symm.trans hw) (by simp)
      · have hgives : m'.gives s' = m.gives s' := rfl
        have htakes : m'.takes s' = m.takes s' + 1 := Function.update_self ..
        have hwake : m'.waking s' = m.waking s' := rfl
        unfold Balanced at hb ⊢
        rw [hsem, hgives, htakes, hwake]
        cases hm : (m.sem s').state <;> cases hi : states s' <;> cases after <;>
          simp only [hm, hi] at hb hafter ⊢
        omega
    · apply (h.sem s').frame
      · exact Function.update_of_ne hs ..
      · rfl
      · exact Function.update_of_ne hs ..
      · rfl
      · exact (h.sem s').pended
      · exact (h.sem s').taking
  · rename_i ha
    have hun := hempty (Bool.not_eq_true _ ▸ ha)
    split
    · exact inv_errnoSet h _
    · refine ⟨h.coherent, fun s' => ?_, h.jobs, fun _ _ _ => hr⟩
      show SemOk (m.enter (.take s timeout)) s' (states s')
      apply (h.sem s').frame
      · rfl
      · rfl
      · rfl
      · rw [waking_of_idle hk]
        exact if_neg (by simp [State.enter])
      · exact (h.sem s').pended
      · intro timeout' hw
        cases hw
        exact hun

theorem inv_semTake (h : Inv states m) (hk : m.kernWork = none) (hr : running m.kern)
    (timeout : Nat) : Inv states (semTake m s timeout).1 := by
  unfold semTake
  split
  · rename_i pOwner hst
    apply inv_takeIf h hk hr
    · intro ha
      rw [hst]
      refine ⟨fun hun => hun (by simpa using ha), trivial⟩
    · intro ha
      rw [hst]
      intro he
      rw [he] at ha
      cases ha
  · rename_i n hst
    apply inv_takeIf h hk hr
    · intro ha
      have hpos : 0 < n := of_decide_eq_true ha
      rw [hst]
      refine ⟨fun hun => ?_, ?_⟩
      · change n = 0 at hun
        omega
      · show n = n - 1 + 1
        omega
    · intro ha
      rw [hst]
      have hpos : ¬ 0 < n := of_decide_eq_false ha
      show n = 0
      omega

theorem inv_semKernGive (h : Inv states m) (hw : m.kernWork = some (.give s))
    (hq : m.kern.pendQ (.semQ s) ≠ []) : Inv states (semKernGive m s) := by
  unfold semKernGive
  rw [if_neg hq]
  dsimp only
  set m' : State := { m.taken s with
    kern := vmxPendQGet (m.taken s).kern (.semQ s), kernWork := some .exit } with hm'
  refine ⟨coherent_vmxPendQGet h.coherent hq, fun s' => ?_, h.jobs, fun s' timeout hw' => ?_⟩
  · by_cases hs : s' = s
    · subst hs
      have hun := (h.sem s').giving hw
      have hb := (h.sem s').balanced
      refine ⟨(h.sem s').verified, fun _ => hun, fun _ => hun, fun _ _ => hun, ?_⟩
      have hsem : m'.sem s' = m.sem s' := rfl
      have hgives : m'.gives s' = m.gives s' := rfl
      have htakes : m'.takes s' = m.takes s' + 1 := Function.update_self ..
      have hwake : m.waking s' = 1 := if_pos hw
      have hwake' : m'.waking s' = 0 := if_neg (fun he => by cases he)
      unfold Balanced at hb ⊢
      rw [hsem, hgives, htakes, hwake']
      rw [hwake] at hb
      cases hm : (m.sem s').state <;> cases hi : states s' <;> simp only [hm, hi] at hb ⊢
      omega
    · apply (h.sem s').frame
      · rfl
      · rfl
      · exact Function.update_of_ne hs ..
      · rw [waking_of_ne (Or.inr hw) hs]
        exact if_neg (fun he => by cases he)
      · intro hne
        apply (h.sem s').pended
        change (vmxPendQGet m.kern (.semQ s)).pendQ (.semQ s') ≠ [] at hne
        rwa [pendQ_vmxPendQGet, Function.update_of_ne (by simpa using hs)] at hne
      · intro timeout hw'
        cases hw'
  · cases hw'

theorem inv_semKernTake (h : Inv states m) {timeout : Nat}
    (hw : m.kernWork = some (.take s timeout)) : Inv states (semKernTake m s timeout) := by
  have hr := h.taking s timeout hw
  have hun := (h.sem s).taking timeout hw
  refine ⟨coherent_vmxPendQPut h.coherent hr _ timeout, fun s' => ?_, h.jobs,
    fun s' timeout' hw' => ?_⟩
  · apply (h.sem s').frame
    · rfl
    · rfl
    · rfl
    · unfold State.waking
      rw [hw]
      rfl
    · intro hne
      by_cases hs : s' = s
      · rw [hs]
        exact hun
      · apply (h.sem s').pended
        change (vmxPendQPut m.kern (.semQ s) timeout).pendQ (.semQ s') ≠ [] at hne
        rwa [pendQ_vmxPendQPut, Function.update_of_ne (by simpa using hs)] at hne
    · intro timeout' hw'
      cases hw'
  · cases hw'

/-- A flush empties one queue and leaves the semaphores alone. -/
theorem inv_flush (h : Inv states m) {w : Option KernWork}
    (hw : w = m.kernWork ∨ w = some .exit ∧ ∀ s, m.kernWork ≠ some (.give s)) :
    Inv states { m with kern := vmxPendQFlush m.kern (.semQ s), kernWork := w } where
  coherent := coherent_vmxPendQFlush h.coherent _
  sem s' := by
    apply (h.sem s').frame
    · rfl
    · rfl
    · rfl
    · unfold State.waking
      rcases hw with hw | ⟨hw, hno⟩
      · rw [hw]
      · rw [hw, if_neg (hno s')]
        rfl
    · intro hne
      apply (h.sem s').pended
      change (vmxPendQFlush m.kern (.semQ s)).pendQ (.semQ s') ≠ [] at hne
      rw [pendQ_vmxPendQFlush] at hne
      by_cases hs : s' = s
      · rw [hs, Function.update_self] at hne
        exact absurd rfl hne
      · rwa [Function.update_of_ne (by simpa using hs)] at hne
    · intro timeout hw'
      change w = some (.take s' timeout) at hw'
      rcases hw with hw | ⟨hw, _⟩
      · exact (h.sem s').taking timeout (hw.symm.trans hw')
      · rw [hw] at hw'
        cases hw'
  jobs := h.jobs
  taking s' timeout hw' := by
    change w = some (.take s' timeout) at hw'
    rcases hw with hw | ⟨hw, _⟩
    · have hr := h.taking s' timeout (hw.symm.trans hw')
      exact running_vmxPendQFlush h.coherent hr _
    · rw [hw] at hw'
      cases hw'

theorem inv_semFlush (h : Inv states m) : Inv states (semFlush m s).1 := by
  have hv := (h.sem s).verified
  unfold semFlush
  split
  · unfold semFlushDefer
    rw [if_neg (by simp [hv])]
    refine ⟨h.coherent, fun s' => (h.sem s').frame rfl rfl rfl rfl (h.sem s').pended
      (h.sem s').taking, fun s' hj => ?_, h.taking⟩
    rcases List.mem_append.1 hj with hj | hj
    · exact h.jobs s' hj
    · simp at hj
  · rename_i hk
    have hk' : m.kernWork = none := by simpa using hk
    unfold semQFlush
    rw [if_neg (by simp [hv])]
    split
    · exact h
    · refine ⟨h.coherent, fun s' => ?_, h.jobs, fun s' timeout hw => ?_⟩
      · apply (h.sem s').frame
        · rfl
        · rfl
        · rfl
        · rw [waking_of_idle hk']
          exact if_neg (by simp [State.enter])
        · exact (h.sem s').pended
        · intro timeout hw
          cases hw
      · cases hw

theorem inv_drain (h : Inv states m) {j : DeferJob} {rest : List DeferJob}
    (hq : m.workQ = j :: rest) : Inv states (j.run { m with workQ := rest }) := by
  have hrest : Inv states { m with workQ := rest } :=
    ⟨h.coherent, fun s' => (h.sem s').frame rfl rfl rfl rfl (h.sem s').pended (h.sem s').taking,
      fun s' hj => h.jobs s' (by rw [hq]; exact List.mem_cons_of_mem _ hj), h.taking⟩
  cases j with
  | give s =>
    exact absurd (by rw [hq]; exact List.mem_cons_self) (h.jobs s)
  | flush s =>
    show Inv states (semQFlushDefer { m with workQ := rest } s)
    unfold semQFlushDefer
    split
    · exact inv_flush hrest (Or.inl rfl)
    · exact hrest

/-- The context of the task has been saved. -/
theorem timedOut_eq {t : TaskId} (hsound : Sound m (.expire t)) : timedOut m t = m := by
  unfold timedOut
  split
  · apply if_neg
    rintro ⟨hk, hcur, _⟩
    rcases hsound with hnone | hne
    · rw [hnone] at hk
      cases hk
    · exact hne hcur
  · rfl

theorem inv_expire (h : Inv states m) {t : TaskId} (hd : (m.kern.tcb t).status.delay = true) :
    Inv states { m with kern := expireTask m.kern t } where
  coherent := coherent_expireTask h.coherent hd
  sem s' := by
    refine (h.sem s').frame rfl rfl rfl rfl (fun hne => ?_) (h.sem s').taking
    apply (h.sem s').pended
    intro he
    change (expireTask m.kern t).pendQ (.semQ s') ≠ [] at hne
    rw [pendQ_expireTask h.coherent, he] at hne
    exact hne rfl
  jobs := h.jobs
  taking s' timeout hw := running_expireTask (h.taking s' timeout hw) hd

theorem inv_env (h : Inv states m) (hk : m.kernWork = none) {k' : Kernel}
    (he : EnvEffect m.kern k') : Inv states { m with kern := k' } where
  coherent := he.coherent
  sem s' := by
    refine (h.sem s').frame rfl rfl rfl rfl (fun hne => ?_) (h.sem s').taking
    apply (h.sem s').pended
    intro hempty
    apply hne
    have hlen := (he.pendQ _ (QAddr.ofLayer_semQ s')).length_le
    rw [hempty] at hlen
    have hids : ids (k'.pendQ (.semQ s')) = [] := by simpa using hlen
    exact List.map_eq_nil_iff.1 hids
  jobs := h.jobs
  taking s' timeout hw := absurd (hk.symm.trans hw) (by simp)

theorem inv_step {op : Op} (h : Inv states m) (hsound : Sound m op) (hs : step m op = some m') :
    Inv states m' := by
  cases op with
  | give s =>
    cases hs
    exact inv_semGive h hsound
  | take s timeout =>
    obtain ⟨⟨hk, hr⟩, rfl⟩ := guard_some.1 hs
    exact inv_semTake h hk hr timeout
  | flush s =>
    cases hs
    exact inv_semFlush h
  | kern =>
    obtain ⟨w, hw, hm⟩ := Option.bind_eq_some_iff.1 hs
    cases w with
    | give s =>
      cases hm
      exact inv_semKernGive h hw (hsound _ hw s rfl)
    | take s timeout =>
      cases hm
      exact inv_semKernTake h hw
    | flush s =>
      cases hm
      exact inv_flush h (Or.inr ⟨rfl, fun s' he => by rw [hw] at he; cases he⟩)
    | exit =>
      rw [KernWork.run, Option.ite_none_right_eq_some] at hm
      obtain rfl := Option.some.inj hm.2
      refine ⟨coherent_saveTaskContext h.coherent, fun s' => ?_, h.jobs, fun s' timeout hw' => ?_⟩
      · apply (h.sem s').frame
        · rfl
        · rfl
        · rfl
        · unfold State.waking
          rw [hw]
          rfl
        · intro hne
          apply (h.sem s').pended
          rwa [pendQ_saveTaskContext] at hne
        · intro timeout hw'
          cases hw'
      · cases hw'
  | drain =>
    rw [step] at hs
    split at hs
    · cases hs
    · rename_i j rest hq
      rw [Option.ite_none_right_eq_some] at hs
      obtain rfl := Option.some.inj hs.2
      exact inv_drain h hq
  | expire t =>
    rw [step, Option.ite_none_right_eq_some] at hs
    obtain ⟨hd, hm⟩ := hs
    rw [timedOut_eq hsound] at hm
    cases hm
    exact inv_expire h hd
  | env op =>
    rw [step, Option.ite_none_right_eq_some] at hs
    obtain ⟨hk, hm⟩ := hs
    obtain ⟨k', hk', rfl⟩ := Option.map_eq_some_iff.1 hm
    exact inv_env h hk (envStep_effect h.coherent hk')

end Steps

/-! ## What the runs promise -/

/-- What the semaphores promise in a state. -/
structure Conserved (states : Nat → SemState) (m : State) : Prop where
  counting : ∀ s n c, (m.sem s).state = .count n → states s = .count c →
    n + m.takes s + m.waking s = c + m.gives s
  pended : ∀ s, m.kern.pendQ (.semQ s) ≠ [] → (m.sem s).state.Unavailable

theorem Inv.conserved {states : Nat → SemState} {m : State} (h : Inv states m) :
    Conserved states m where
  counting s n c hn hc := by
    have hb := (h.sem s).balanced
    unfold Balanced at hb
    rw [hn, hc] at hb
    exact hb.1
  pended s := (h.sem s).pended

/-- What the semaphores promise of a step.  A give makes the semaphore available, or
it enters the kernel, where it takes the first waiter out of the queue, whose call
returns `OK`.  A timeout takes its waiter out of the queue with `ERROR` and leaves
the semaphores alone. -/
structure StepOk (m : State) (op : Op) (m' : State) : Prop where
  give : ∀ s, op = .give s → m'.kern = m.kern ∧
    (m.kern.pendQ (.semQ s) = [] → ¬ (m'.sem s).state.Unavailable) ∧
    (m.kern.pendQ (.semQ s) ≠ [] → m'.kernWork = some (.give s))
  wake : ∀ s, op = .kern → m.kernWork = some (.give s) →
    ∃ t, ids (m.kern.pendQ (.semQ s)) = t :: ids (m'.kern.pendQ (.semQ s)) ∧
      (m'.kern.tcb t).retValue = OK ∧ m'.takes s = m.takes s + 1
  timeout : ∀ s t, op = .expire t → t ∈ ids (m.kern.pendQ (.semQ s)) →
    t ∉ ids (m'.kern.pendQ (.semQ s)) ∧ (m'.kern.tcb t).retValue = ERROR ∧
      m'.sem = m.sem ∧ m'.takes = m.takes ∧ m'.gives = m.gives
  taken : ∀ s, m'.takes s ≠ m.takes s → m'.takes s = m.takes s + 1 ∧
    ((∃ timeout, op = .take s timeout ∧ ¬ (m.sem s).state.Unavailable) ∨
      (op = .kern ∧ m.kernWork = some (.give s)))

section

variable {m m' : State} {states : Nat → SemState}

theorem Inv.give (h : Inv states m) {s : Nat} (hsound : Sound m (.give s)) :
    (semGive m s).1.kern = m.kern ∧
      (m.kern.pendQ (.semQ s) = [] → ¬ ((semGive m s).1.sem s).state.Unavailable) ∧
      (m.kern.pendQ (.semQ s) ≠ [] → (semGive m s).1.kernWork = some (.give s)) := by
  obtain ⟨hk, hroom⟩ := hsound
  have hv := (h.sem s).verified
  unfold semGive
  rw [hk, if_neg (by simp)]
  split
  · unfold semBGive
    rw [if_neg (by simp [hv])]
    dsimp only
    split
    · rename_i hq
      refine ⟨rfl, fun _ => ?_, fun hne => absurd (qFirst_eq_none.1 hq) hne⟩
      simp [State.given, State.setSem, SemState.Unavailable, hq]
    · rename_i hq
      exact ⟨rfl, fun he => absurd (qFirst_eq_none.2 he) hq, fun _ => rfl⟩
  · rename_i n hst
    unfold semCGive
    rw [if_neg (by simp [hv])]
    split
    · rename_i hq
      refine ⟨rfl, fun hempty hun => ?_, fun hne => absurd (qFirst_eq_none.1 hq) hne⟩
      have hzero : u32 (n + 1) = 0 := by
        simpa [State.given, State.setSem, SemState.Unavailable] using hun
      have hlt : n < 4294967296 := (h.sem s).count_lt hst
      have hn : n ≠ 4294967295 := by
        rintro rfl
        exact hroom hempty hst
      rw [u32_of_lt (by omega)] at hzero
      omega
    · rename_i hq
      exact ⟨rfl, fun he => absurd (qFirst_eq_none.2 he) hq, fun _ => rfl⟩

theorem semKernGive_wakes {s : Nat} (hne : m.kern.pendQ (.semQ s) ≠ []) :
    ∃ t, ids (m.kern.pendQ (.semQ s)) = t :: ids ((semKernGive m s).kern.pendQ (.semQ s)) ∧
      ((semKernGive m s).kern.tcb t).retValue = OK ∧
      (semKernGive m s).takes s = m.takes s + 1 := by
  have hkern : (semKernGive m s).kern = vmxPendQGet m.kern (.semQ s) := by
    unfold semKernGive
    rw [if_neg hne]
    rfl
  have htakes : (semKernGive m s).takes s = m.takes s + 1 := by
    unfold semKernGive
    rw [if_neg hne]
    exact Function.update_self ..
  cases hq : m.kern.pendQ (.semQ s) with
  | nil => exact absurd hq hne
  | cons node rest =>
    refine ⟨node.1, ?_, ?_, htakes⟩
    · rw [hkern, pendQ_vmxPendQGet, Function.update_self, hq]
      rfl
    · rw [hkern]
      apply retValue_vmxPendQGet
      rw [hq]
      rfl

theorem takes_semTake (m : State) (s timeout s' : Nat)
    (hne : (semTake m s timeout).1.takes s' ≠ m.takes s') (hv : (m.sem s).verified = true) :
    s' = s ∧ (semTake m s timeout).1.takes s' = m.takes s' + 1 ∧
      ¬ (m.sem s).state.Unavailable := by
  have hif : ∀ (available : Bool) (after : SemState),
      (takeIf m s timeout available after).1.takes s' ≠ m.takes s' → available = true ∧ s' = s ∧
        (takeIf m s timeout available after).1.takes s' = m.takes s' + 1 := by
    intro available after hne
    unfold takeIf at hne ⊢
    rw [if_neg (by simp [hv])] at hne ⊢
    cases available with
    | true =>
      by_cases hs : s' = s
      · subst hs
        exact ⟨rfl, rfl, Function.update_self ..⟩
      · exact absurd (Function.update_of_ne hs ..) hne
    | false =>
      rw [if_neg Bool.false_ne_true] at hne
      split at hne <;> exact absurd rfl hne
  unfold semTake at hne ⊢
  split at hne
  · rename_i pOwner hst
    obtain ⟨ha, hs, htakes⟩ := hif _ _ hne
    rw [hst]
    exact ⟨hs, htakes, fun hun => hun (by simpa using ha)⟩
  · rename_i n hst
    obtain ⟨ha, hs, htakes⟩ := hif _ _ hne
    have hpos : 0 < n := of_decide_eq_true ha
    rw [hst]
    refine ⟨hs, htakes, fun hun => ?_⟩
    change n = 0 at hun
    omega

theorem takes_semFlush (m : State) (s : Nat) : (semFlush m s).1.takes = m.takes := by
  unfold semFlush semFlushDefer semQFlush
  split
  · split <;> rfl
  · split
    · rfl
    · split <;> rfl

theorem takes_semGive (m : State) (s : Nat) : (semGive m s).1.takes = m.takes := by
  unfold semGive semGiveDefer semBGive semCGive
  split
  · split <;> rfl
  · split
    · dsimp only
      split
      · rfl
      · split <;> rfl
    · split
      · rfl
      · split <;> rfl

theorem Inv.taken (h : Inv states m) {op : Op} (hsound : Sound m op)
    (hs : step m op = some m') (s : Nat) (hne : m'.takes s ≠ m.takes s) :
    m'.takes s = m.takes s + 1 ∧
      ((∃ timeout, op = .take s timeout ∧ ¬ (m.sem s).state.Unavailable) ∨
        (op = .kern ∧ m.kernWork = some (.give s))) := by
  cases op with
  | give s1 =>
    cases hs
    rw [takes_semGive] at hne
    exact absurd rfl hne
  | take s1 timeout =>
    rw [step, Option.ite_none_right_eq_some] at hs
    obtain rfl := Option.some.inj hs.2
    obtain ⟨rfl, htakes, havail⟩ := takes_semTake m s1 timeout s hne (h.sem s1).verified
    exact ⟨htakes, Or.inl ⟨timeout, rfl, havail⟩⟩
  | flush s1 =>
    cases hs
    rw [takes_semFlush] at hne
    exact absurd rfl hne
  | kern =>
    obtain ⟨w, hw, hm⟩ := Option.bind_eq_some_iff.1 hs
    cases w with
    | give s1 =>
      cases hm
      have hq := hsound _ hw s1 rfl
      by_cases hs1 : s = s1
      · subst hs1
        obtain ⟨_, _, _, htakes⟩ := semKernGive_wakes hq
        exact ⟨htakes, Or.inr ⟨rfl, hw⟩⟩
      · unfold semKernGive at hne
        rw [if_neg hq] at hne
        exact absurd (Function.update_of_ne hs1 ..) hne
    | take s1 timeout =>
      cases hm
      exact absurd rfl hne
    | flush s1 =>
      cases hm
      exact absurd rfl hne
    | exit =>
      rw [KernWork.run, Option.ite_none_right_eq_some] at hm
      obtain rfl := Option.some.inj hm.2
      exact absurd rfl hne
  | drain =>
    rw [step] at hs
    split at hs
    · cases hs
    · rename_i j rest hq
      rw [Option.ite_none_right_eq_some] at hs
      obtain rfl := Option.some.inj hs.2
      cases j with
      | give s1 => exact absurd (by rw [hq]; exact List.mem_cons_self) (h.jobs s1)
      | flush s1 =>
        exfalso
        apply hne
        show (semQFlushDefer _ s1).takes s = m.takes s
        unfold semQFlushDefer
        split <;> rfl
  | expire t =>
    rw [step, Option.ite_none_right_eq_some, timedOut_eq hsound] at hs
    obtain rfl := Option.some.inj hs.2
    exact absurd rfl hne
  | env op =>
    rw [step, Option.ite_none_right_eq_some] at hs
    obtain ⟨k', _, rfl⟩ := Option.map_eq_some_iff.1 hs.2
    exact absurd rfl hne

theorem Inv.stepOk (h : Inv states m) {op : Op} (hsound : Sound m op)
    (hs : step m op = some m') : StepOk m op m' where
  give s hop := by
    subst hop
    cases hs
    exact h.give hsound
  wake s hop hw := by
    subst hop
    obtain ⟨w, hw', hm⟩ := Option.bind_eq_some_iff.1 hs
    obtain rfl : w = .give s := Option.some.inj (hw'.symm.trans hw)
    cases hm
    exact semKernGive_wakes (hsound _ hw s rfl)
  timeout s t hop ht := by
    subst hop
    rw [step, Option.ite_none_right_eq_some, timedOut_eq hsound] at hs
    obtain rfl := Option.some.inj hs.2
    refine ⟨?_, retValue_expireTask _ _ (h.coherent.of_mem_pendQ ht).1, rfl, rfl, rfl⟩
    show t ∉ ids ((expireTask m.kern t).pendQ (.semQ s))
    rw [pendQ_expireTask h.coherent, mem_ids_eraseId (h.coherent.nodup_pendQ _)]
    exact fun hc => hc.1 rfl
  taken s := h.taken hsound hs s

end

theorem inv_init {k : Kernel} (hc : Coherent k) (hnew : ∀ s, k.pendQ (.semQ s) = [])
    {states : Nat → SemState} (hcount : ∀ s n, states s = .count n → n < 4294967296) :
    Inv states (init k states) where
  coherent := hc
  sem s := by
    refine ⟨rfl, fun hne => absurd (hnew s) hne, fun hw => ?_, fun _ hw => ?_, ?_⟩
    · cases hw
    · cases hw
    · unfold Balanced
      show match states s, states s with
        | .owner _, .owner _ => True
        | .count n, .count c => n + 0 + 0 = c + 0 ∧ n < 4294967296
        | _, _ => False
      cases hst : states s with
      | owner pOwner => trivial
      | count n => exact ⟨rfl, hcount s n hst⟩
  jobs s hj := by cases hj
  taking s timeout hw := by cases hw

/-- **Conservation.**  In every run of sound steps from new semaphores, gives are
conserved in every state, and every further sound step deals with them one by
one. -/
theorem semaphores_conserve (readyClass : QClass) (pendClass : QAddr → QClass)
    (ops : List KernelOp) {k : Kernel}
    (hkern : exec kernelStep (kernelInit readyClass pendClass) ops = some k)
    (hnew : ∀ s, k.pendQ (.semQ s) = []) (states : Nat → SemState)
    (hcount : ∀ s n, states s = .count n → n < 4294967296) (ls : List Op) {m : State}
    (hsound : AllSteps step Sound (init k states) ls)
    (hrun : exec step (init k states) ls = some m) :
    Conserved states m ∧ ∀ op m', Sound m op → step m op = some m' → StepOk m op m' := by
  have hc : Coherent k := exec_invariant (fun _ _ _ h hs => coherent_kernelStep h hs)
    (coherent_kernelInit readyClass pendClass) hkern
  have hinv : Inv states m := exec_invariant_of (fun _ _ _ h hP hs => inv_step h hP hs)
    (inv_init hc hnew hcount) hsound hrun
  exact ⟨hinv.conserved, fun op m' hP hs => hinv.stepOk hP hs⟩

/-- A task waits for a counting semaphore and gets a give, the next give is kept for
the next take. -/
theorem semaphores_conserve_woken :
    ∃ k m, exec kernelStep (kernelInit .prio fun _ => .prio)
        [.spawn 0 10, .spawn 1 20, .job (.resume 0), .job (.resume 1), .dispatch] = some k ∧
      exec step (init k fun _ => .count 0)
        [.take 0 WAIT_FOREVER, .kern, .kern, .env .dispatch, .give 0, .kern, .kern, .give 0,
          .take 0 WAIT_NONE] = some m ∧ m.takes 0 = 2 ∧
      (Conserved (fun _ => .count 0) m ∧
        ∀ op m', Sound m op → step m op = some m' → StepOk m op m') := by
  refine ⟨_, _, rfl, rfl, rfl, semaphores_conserve .prio (fun _ => .prio) [.spawn 0 10,
    .spawn 1 20, .job (.resume 0), .job (.resume 1), .dispatch] rfl (fun s => rfl)
    (fun _ => .count 0) (fun s n hn => ?_) [.take 0 WAIT_FOREVER, .kern, .kern, .env .dispatch,
      .give 0, .kern, .kern, .give 0, .take 0 WAIT_NONE] (by decide) rfl⟩
  cases hn
  decide

/-- Four runs with a step that is not sound.  In the first an interrupt gives a
counting semaphore while a task is in the kernel to pend on it: the deferred give
does nothing, and the task waits for ever.  In the second the timeout of the only
waiter expires after the give has chosen to wake it.  In the third the
timeout of a task expires before `vmxExit` saves its context, and the take returns
`OK` without a give.  In the fourth the only waiter of a binary semaphore leaves
like that of the second, and nobody is woken. -/
theorem semaphores_conserve_broken :
    (∃ k m, exec kernelStep (kernelInit .prio fun _ => .prio)
        [.spawn 0 10, .job (.resume 0), .dispatch] = some k ∧
      exec step (init k fun _ => .count 0)
        [.take 0 WAIT_FOREVER, .give 0, .kern, .drain, .kern] = some m ∧
      ¬ Conserved (fun _ => .count 0) m) ∧
    (∃ k m, exec kernelStep (kernelInit .prio fun _ => .prio)
        [.spawn 0 10, .spawn 1 20, .job (.resume 0), .job (.resume 1), .dispatch] = some k ∧
      exec step (init k fun _ => .count 0)
        [.take 0 5, .kern, .kern, .env .dispatch, .give 0, .expire 0, .kern, .kern] = some m ∧
      ¬ Conserved (fun _ => .count 0) m) ∧
    (∃ k m, exec kernelStep (kernelInit .prio fun _ => .prio)
        [.spawn 0 10, .spawn 1 20, .job (.resume 0), .job (.resume 1), .dispatch] = some k ∧
      exec step (init k fun _ => .count 0) [.take 0 1, .kern, .expire 0, .kern] = some m ∧
      ¬ Conserved (fun _ => .count 0) m) ∧
    ∃ k m m', exec kernelStep (kernelInit .prio fun _ => .prio)
        [.spawn 0 10, .spawn 1 20, .job (.resume 0), .job (.resume 1), .dispatch] = some k ∧
      exec step (init k fun _ => .owner (some 0))
        [.take 0 5, .kern, .kern, .env .dispatch, .give 0, .expire 0] = some m ∧
      step m .kern = some m' ∧ ¬ StepOk m .kern m' := by
  refine ⟨⟨_, _, rfl, rfl, fun h => ?_⟩, ⟨_, _, rfl, rfl, fun h => ?_⟩,
    ⟨_, _, rfl, rfl, fun h => ?_⟩, ⟨_, _, _, rfl, rfl, rfl, fun h => ?_⟩⟩
  · have hbalance := h.counting 0 0 0 rfl rfl
    revert hbalance
    decide
  · have hbalance := h.counting 0 0 0 rfl rfl
    revert hbalance
    decide
  · have hbalance := h.counting 0 0 0 rfl rfl
    revert hbalance
    decide
  · obtain ⟨t, hqueue, _⟩ := h.wake 0 rfl rfl
    cases hqueue

end Vmx.SemBC
