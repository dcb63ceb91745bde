import Vmx.Sem.SemMLib
import Vmx.Lib.Counting

/-!
# The mutual exclusion protocol

What holds of the mutexes in every state of a run.  The invariant is said for
each mutex on its own, over what the calls of it can see (`View`), and a step
that acts on one mutex leaves the views of the others as they are, up to waiters
that leave.

Between the two parts of a last give the mutex is being handed over: the owner
field already names the first waiter, who is still in the queue.  Nobody holds
the mutex then (`View.holder`).
-/

namespace Vmx.Mutex

open Lib Util

/-! ## What is seen of one mutex -/

def KernWork.semId : KernWork → Nat
  | .give s _ _ => s
  | .take s _ => s
  | .giveForce s _ => s
  | .destroy s => s
  | .exit s => s

/-- The owner field names a waiter that has not left the queue yet. -/
def State.handing (m : State) (s : Nat) : Bool :=
  match m.kernWork with
  | some (.give s' qGet _) => qGet && s' == s
  | _ => false

/-- The mutex is being destroyed. -/
def State.ending (m : State) (s : Nat) : Bool :=
  match m.kernWork with
  | some (.destroy s') => s' == s
  | _ => false

structure View where
  sem : SemM
  queue : List TaskId
  held : TaskId → Nat
  handing : Bool
  ending : Bool

def State.view (m : State) (s : Nat) : View :=
  { sem := m.sem s
    queue := ids (m.kern.pendQ (.semQ s))
    held := m.held s
    handing := m.handing s
    ending := m.ending s }

/-- The task that holds the mutex. -/
def View.holder (v : View) : Option TaskId :=
  if v.handing = false ∧ (v.sem.verified = true ∨ v.ending = true) then v.sem.owner else none

structure View.Ok (v : View) : Prop where
  noOwner : v.sem.owner = none → v.queue = [] ∧ v.sem.recurse = 0
  notPended : ∀ t, v.holder = some t → t ∉ v.queue
  handing : v.handing = true → v.sem.recurse = 0 ∧
    ∃ t, v.sem.owner = some t ∧ v.queue.head? = some t
  gone : v.sem.verified = false → v.ending = false → v.queue = []
  held : ∀ t, v.held t = if v.holder = some t then v.sem.recurse + 1 else 0

/-- Waiters have left, and nothing else has changed. -/
structure View.Le (v' v : View) : Prop where
  sem : v'.sem = v.sem
  held : v'.held = v.held
  phase : v'.handing = v.handing ∧ v'.ending = v.ending
  queue : v'.queue.Subperm v.queue
  head : v.handing = true → v'.queue.head? = v.queue.head?

theorem View.Le.refl (v : View) : v.Le v := ⟨rfl, rfl, ⟨rfl, rfl⟩, List.Subperm.refl _, fun _ => rfl⟩

theorem View.Le.holder {v v' : View} (h : v'.Le v) : v'.holder = v.holder := by
  unfold View.holder
  rw [h.sem, h.phase.1, h.phase.2]

theorem View.Le.nil {v v' : View} (h : v'.Le v) (hq : v.queue = []) : v'.queue = [] := by
  have hlen := h.queue.length_le
  rw [hq, List.length_nil] at hlen
  exact List.length_eq_zero_iff.1 (by omega)

theorem View.Ok.of_le {v v' : View} (hv : v.Ok) (h : v'.Le v) : v'.Ok where
  noOwner ho := by
    rw [h.sem] at ho ⊢
    exact ⟨h.nil (hv.noOwner ho).1, (hv.noOwner ho).2⟩
  notPended t ht hm := by
    rw [h.holder] at ht
    exact hv.notPended t ht (h.queue.subset hm)
  handing hh := by
    rw [h.phase.1] at hh
    rw [h.sem, h.head hh]
    exact hv.handing hh
  gone hg he := by
    rw [h.sem] at hg
    rw [h.phase.2] at he
    exact h.nil (hv.gone hg he)
  held t := by
    rw [h.held, h.sem, h.holder]
    exact hv.held t

/-! ## The invariant -/

/-- 1 when the mutex protects the task from deletion. -/
def State.protects (m : State) (s : Nat) (t : TaskId) : Nat :=
  if (m.sem s).deleteSafe = true ∧ (m.view s).holder = some t then 1 else 0

/-- The number of mutexes with `SEM_DELETE_SAFE` that the task holds. -/
def State.owned (m : State) (t : TaskId) : Nat :=
  ((Finset.range m.nSem).filter fun s =>
    (m.sem s).deleteSafe = true ∧ (m.view s).holder = some t).card

/-- What a kernel section finds. -/
def State.WorkOk (m : State) : Prop :=
  match m.kernWork with
  | none => True
  | some (.give s _ _) => s < m.nSem ∧ (m.sem s).verified = true
  | some (.take s _) => s < m.nSem ∧ (m.sem s).verified = true ∧ running m.kern ∧
      ∃ t, (m.sem s).owner = some t ∧ t ≠ m.kern.taskIdCurrent
  | some (.giveForce s taskIsValid) => s < m.nSem ∧ (m.sem s).verified = true ∧
      (m.sem s).recurse = 0 ∧
      ∀ t, (m.sem s).owner = some t → (taskIsValid = true ↔ live m.kern t)
  | some (.destroy s) => s < m.nSem ∧ (m.sem s).verified = false
  | some (.exit _) => True

structure Inv (m : State) : Prop where
  coherent : Coherent m.kern
  sem : ∀ s, (m.view s).Ok
  safe : ∀ t, live m.kern t → (m.kern.tcb t).safeCount = m.safes t + m.owned t
  word : ∀ t, (m.kern.tcb t).safeCount < 4294967296
  work : m.WorkOk

theorem owned_change {m m' : State} {s : Nat} (hn : m'.nSem = m.nSem) (hs : s < m.nSem)
    (hothers : ∀ s', s' ≠ s → (m'.view s').Le (m.view s')) (t : TaskId) :
    m'.owned t + m.protects s t = m.owned t + m'.protects s t := by
  unfold State.owned State.protects
  rw [hn]
  apply card_filter_change (Finset.mem_range.2 hs)
  intro s' hs'
  have hle := hothers s' hs'
  have hsem : m'.sem s' = m.sem s' := hle.sem
  rw [hle.holder, hsem]

/-- A step that acts on one mutex. -/
theorem Inv.of_change {m m' : State} {s : Nat} (h : Inv m) (hn : m'.nSem = m.nSem)
    (hs : s < m.nSem) (hc : Coherent m'.kern)
    (hothers : ∀ s', s' ≠ s → (m'.view s').Le (m.view s')) (hok : (m'.view s).Ok)
    (hlive : ∀ t, live m'.kern t → live m.kern t)
    (hsafe : ∀ t, live m.kern t → (m'.kern.tcb t).safeCount + m.safes t + m.protects s t =
      (m.kern.tcb t).safeCount + m'.safes t + m'.protects s t)
    (hword : ∀ t, (m'.kern.tcb t).safeCount < 4294967296) (hwork : m'.WorkOk) : Inv m' where
  coherent := hc
  sem s' := by
    by_cases hs' : s' = s
    · rw [hs']
      exact hok
    · exact (h.sem s').of_le (hothers s' hs')
  safe t ht := by
    have hbefore := h.safe t (hlive t ht)
    have hstep := hsafe t (hlive t ht)
    have hcount := owned_change hn hs hothers t
    omega
  word := hword
  work := hwork

/-- A step that acts on no mutex. -/
theorem Inv.of_le {m m' : State} (h : Inv m) (hn : m'.nSem = m.nSem) (hc : Coherent m'.kern)
    (hle : ∀ s, (m'.view s).Le (m.view s)) (hlive : ∀ t, live m'.kern t → live m.kern t)
    (hsafe : ∀ t, live m.kern t → (m'.kern.tcb t).safeCount + m.safes t =
      (m.kern.tcb t).safeCount + m'.safes t)
    (hword : ∀ t, (m'.kern.tcb t).safeCount < 4294967296) (hwork : m'.WorkOk) : Inv m' where
  coherent := hc
  sem s := (h.sem s).of_le (hle s)
  safe t ht := by
    have howned : m'.owned t = m.owned t := by
      unfold State.owned
      rw [hn]
      congr 1
      apply Finset.filter_congr
      intro s _
      have hsem : m'.sem s = m.sem s := (hle s).sem
      rw [(hle s).holder, hsem]
    have hbefore := h.safe t (hlive t ht)
    have hstep := hsafe t (hlive t ht)
    omega
  word := hword
  work := hwork

/-! ## The delete safety counts -/

/-- The kernel after a routine that changes the delete safety counts to `count`. -/
structure SafeChange (k k' : Kernel) (count : TaskId → Nat) : Prop where
  coherent : Coherent k'
  pendQ : ∀ q, q.OfLayer → k'.pendQ q = k.pendQ q
  safeCount : ∀ u, (k'.tcb u).safeCount = count u
  dead : ∀ u, (k'.tcb u).status.dead = (k.tcb u).status.dead
  current : k'.taskIdCurrent = k.taskIdCurrent

theorem SafeChange.refl {k : Kernel} (h : Coherent k) :
    SafeChange k k fun u => (k.tcb u).safeCount :=
  ⟨h, fun _ _ => rfl, fun _ => rfl, fun _ => rfl, rfl⟩

theorem SafeChange.live {k k' : Kernel} {count : TaskId → Nat} (h : SafeChange k k' count)
    {t : TaskId} : live k' t ↔ live k t := by
  unfold Vmx.live
  rw [h.dead]

theorem safeChange_setCount {k : Kernel} (h : Coherent k) (t : TaskId) (g : Nat → Nat) :
    SafeChange k (k.setTcb t fun c => { c with safeCount := g c.safeCount })
      fun u => if u = t then g (k.tcb u).safeCount else (k.tcb u).safeCount := by
  refine ⟨coherent_setTcb h (fun _ => rfl) (fun _ => rfl) fun _ => rfl, fun _ _ => rfl,
    fun u => ?_, fun u => ?_, rfl⟩ <;> by_cases hu : u = t
  · subst hu
    simp [Kernel.setTcb]
  · simp [Kernel.setTcb, hu]
  · subst hu
    simp [Kernel.setTcb]
  · simp [Kernel.setTcb, hu]

theorem SafeChange.congr {k k' : Kernel} {count count' : TaskId → Nat}
    (h : SafeChange k k' count) (hc : ∀ u, count u = count' u) : SafeChange k k' count' :=
  ⟨h.coherent, h.pendQ, fun u => (h.safeCount u).trans (hc u), h.dead, h.current⟩

theorem safeChange_safeTake {k : Kernel} (h : Coherent k) (deleteSafe : Bool) (t : TaskId)
    (hroom : deleteSafe = true → (k.tcb t).safeCount < 4294967295) :
    SafeChange k (safeTake k deleteSafe t)
      fun u => (k.tcb u).safeCount + if deleteSafe = true ∧ u = t then 1 else 0 := by
  unfold safeTake
  split
  · rename_i hd
    apply (safeChange_setCount h t fun n => u32 (n + 1)).congr
    intro u
    by_cases hu : u = t
    · subst hu
      have := hroom hd
      rw [if_pos rfl, if_pos ⟨hd, rfl⟩, u32_of_lt (by omega)]
    · simp [hu]
  · rename_i hd
    exact (SafeChange.refl h).congr fun u => by simp [hd]

theorem safeChange_safeGive {k : Kernel} (h : Coherent k) (deleteSafe : Bool) (t : TaskId)
    (hpos : deleteSafe = true → 0 < (k.tcb t).safeCount)
    (hword : (k.tcb t).safeCount < 4294967296) :
    SafeChange k (safeGive k deleteSafe t).1
      fun u => (k.tcb u).safeCount - if deleteSafe = true ∧ u = t then 1 else 0 := by
  unfold safeGive
  split
  · rename_i hd
    apply (safeChange_setCount h t fun n => u32 (n + 4294967295)).congr
    intro u
    by_cases hu : u = t
    · subst hu
      have := hpos hd
      rw [if_pos rfl, if_pos ⟨hd, rfl⟩, u32]
      omega
    · simp [hu]
  · rename_i hd
    exact (SafeChange.refl h).congr fun u => by simp [hd]

/-- A flush of a safety queue changes no count. -/
theorem SafeChange.flush {k k' : Kernel} {count : TaskId → Nat} (h : SafeChange k k' count)
    (flush : Bool) (t : TaskId) : SafeChange k (safeQFlush k' flush t) count := by
  unfold safeQFlush
  split
  · have hkeeps := keeps_vmxPendQFlush k' (.safetyQ t)
    refine ⟨coherent_vmxPendQFlush h.coherent _, fun q hq => ?_, fun u => ?_, fun u => ?_, ?_⟩
    · rw [pendQ_vmxPendQFlush, Function.update_of_ne (hq t), h.pendQ q hq]
    · rw [hkeeps.safeCount, h.safeCount]
    · rw [hkeeps.dead, h.dead]
    · rw [hkeeps.current, h.current]
  · exact h

/-! ## Steps that act on one mutex -/

/-- A step from `m` to `m'` that acts on the mutex `s` alone. -/
structure Local (m m' : State) (s : Nat) : Prop where
  nSem : m'.nSem = m.nSem
  sem : ∀ s', s' ≠ s → m'.sem s' = m.sem s'
  held : ∀ s', s' ≠ s → m'.held s' = m.held s'
  queue : ∀ s', s' ≠ s → m'.kern.pendQ (.semQ s') = m.kern.pendQ (.semQ s')
  work : ∀ w, m.kernWork = some w → w.semId = s
  work' : ∀ w, m'.kernWork = some w → w.semId = s

theorem handing_of_ne {m : State} {s s' : Nat} (hw : ∀ w, m.kernWork = some w → w.semId = s)
    (hs : s' ≠ s) : m.handing s' = false := by
  unfold State.handing
  split
  · rename_i s1 qGet _ hk
    have hs1 : s1 = s := hw _ hk
    have hne : (s1 == s') = false := beq_eq_false_iff_ne.2 (by omega)
    rw [hne, Bool.and_false]
  · rfl

theorem ending_of_ne {m : State} {s s' : Nat} (hw : ∀ w, m.kernWork = some w → w.semId = s)
    (hs : s' ≠ s) : m.ending s' = false := by
  unfold State.ending
  split
  · rename_i s1 hk
    have hs1 : s1 = s := hw _ hk
    exact beq_eq_false_iff_ne.2 (by omega)
  · rfl

theorem Local.le {m m' : State} {s : Nat} (h : Local m m' s) {s' : Nat} (hs : s' ≠ s) :
    (m'.view s').Le (m.view s') where
  sem := h.sem s' hs
  held := h.held s' hs
  phase := by
    show m'.handing s' = m.handing s' ∧ m'.ending s' = m.ending s'
    rw [handing_of_ne h.work hs, handing_of_ne h.work' hs, ending_of_ne h.work hs,
      ending_of_ne h.work' hs]
    exact ⟨rfl, rfl⟩
  queue := by
    show (ids (m'.kern.pendQ (.semQ s'))).Subperm (ids (m.kern.pendQ (.semQ s')))
    rw [h.queue s' hs]
  head _ := by
    show (ids (m'.kern.pendQ (.semQ s'))).head? = (ids (m.kern.pendQ (.semQ s'))).head?
    rw [h.queue s' hs]

/-- No call is in the kernel. -/
theorem view_of_idle {m : State} (hk : m.kernWork = none) (s : Nat) :
    m.handing s = false ∧ m.ending s = false := by
  unfold State.handing State.ending
  rw [hk]
  exact ⟨rfl, rfl⟩

theorem holder_of_idle {m : State} (hk : m.kernWork = none) {s : Nat}
    (hv : (m.sem s).verified = true) : (m.view s).holder = (m.sem s).owner :=
  if_pos ⟨(view_of_idle hk s).1, Or.inl hv⟩

theorem holder_of_gone {m : State} (hk : m.kernWork = none) {s : Nat}
    (hv : (m.sem s).verified = false) : (m.view s).holder = none := by
  apply if_neg
  rintro ⟨_, hor⟩
  rcases hor with hver | hend
  · exact Bool.false_ne_true (hv.symm.trans hver)
  · exact Bool.false_ne_true ((view_of_idle hk s).2.symm.trans hend)

theorem protects_le_owned {m : State} {s : Nat} (hs : s < m.nSem) (t : TaskId) :
    m.protects s t ≤ m.owned t := by
  unfold State.protects State.owned
  split
  · rename_i hp
    apply Finset.card_pos.2
    exact ⟨s, Finset.mem_filter.2 ⟨Finset.mem_range.2 hs, hp⟩⟩
  · exact Nat.zero_le _

/-- A task that holds a mutex with `SEM_DELETE_SAFE` is counted. -/
theorem Inv.safeCount_pos {m : State} (h : Inv m) {s : Nat} (hs : s < m.nSem) {t : TaskId}
    (hl : live m.kern t) (ho : (m.view s).holder = some t) (hd : (m.sem s).deleteSafe = true) :
    0 < (m.kern.tcb t).safeCount := by
  have hle := protects_le_owned hs t
  have hone : m.protects s t = 1 := if_pos ⟨hd, ho⟩
  have hsafe := h.safe t hl
  omega

/-- The takes of a mutex after the count of `t`, the only task that may hold it,
has changed. -/
theorem View.Ok.held_update {v v' : View} (hv : v.Ok) {t : TaskId} {n : Nat}
    (hheld : v'.held = Function.update v.held t n) (hone : ∀ u, u ≠ t → v.holder ≠ some u)
    (hnew : v'.holder = some t ∧ n = v'.sem.recurse + 1 ∨ v'.holder = none ∧ n = 0) (u : TaskId) :
    v'.held u = if v'.holder = some u then v'.sem.recurse + 1 else 0 := by
  rw [hheld]
  by_cases hu : u = t
  · subst hu
    rw [Function.update_self]
    rcases hnew with ⟨hh, hn⟩ | ⟨hh, hn⟩
    · rw [hh, if_pos rfl, hn]
    · simp [hh, hn]
  · rw [Function.update_of_ne hu, hv.held, if_neg (hone u hu), if_neg]
    rcases hnew with ⟨hh, _⟩ | ⟨hh, _⟩
    · rw [hh]
      intro he
      exact hu (Option.some.inj he).symm
    · simp [hh]

theorem live_of_running {k : Kernel} (hr : running k) : live k k.taskIdCurrent := by
  rw [running, status_eq_ready] at hr
  exact hr.2.2.2

/-- A step that acts on one mutex and on the delete safety counts. -/
theorem Inv.of_local {m m' : State} {s : Nat} {count : TaskId → Nat} (h : Inv m)
    (hs : s < m.nSem) (hlocal : Local m m' s) (hkern : SafeChange m.kern m'.kern count)
    (hok : (m'.view s).Ok)
    (hcount : ∀ t, live m.kern t → count t + m.safes t + m.protects s t =
      (m.kern.tcb t).safeCount + m'.safes t + m'.protects s t)
    (hword : ∀ t, count t < 4294967296) (hwork : m'.WorkOk) : Inv m' := by
  apply h.of_change hlocal.nSem hs hkern.coherent (fun s' hs' => hlocal.le hs') hok
  · intro t ht
    exact hkern.live.1 ht
  · intro t ht
    rw [hkern.safeCount]
    exact hcount t ht
  · intro t
    rw [hkern.safeCount]
    exact hword t
  · exact hwork

/-! ## The calls -/

section Calls

variable {m : State} {s : Nat}

theorem workOk_of_idle (hk : m.kernWork = none) : m.WorkOk := by
  unfold State.WorkOk
  rw [hk]
  trivial

theorem inv_errnoSet (h : Inv m) (hk : m.kernWork = none) (e : Errno) : Inv (m.errnoSet e) := by
  have hkeeps : Keeps m.kern (m.errnoSet e).kern :=
    keeps_setTcb m.kern m.kern.taskIdCurrent (f := fun c => { c with errno := e })
      (fun _ => rfl) fun _ => rfl
  have hc : Coherent (m.errnoSet e).kern :=
    coherent_setTcb h.coherent (f := fun c => { c with errno := e }) (fun _ => rfl)
      (fun _ => rfl) fun _ => rfl
  refine h.of_le rfl hc (fun s => View.Le.refl _) (fun t ht => ?_) (fun t _ => ?_) (fun t => ?_)
    (workOk_of_idle hk)
  · unfold live at ht ⊢
    rwa [hkeeps.dead] at ht
  · rw [hkeeps.safeCount]
    rfl
  · rw [hkeeps.safeCount]
    exact h.word t

/-- The updates of one mutex, from and to states whose kernel work is about it. -/
theorem Local.of_update {m' : State} {x : SemM} {g : TaskId → Nat} (hn : m'.nSem = m.nSem)
    (hsem : m'.sem = Function.update m.sem s x) (hheld : m'.held = Function.update m.held s g)
    (hq : ∀ s', s' ≠ s → m'.kern.pendQ (.semQ s') = m.kern.pendQ (.semQ s'))
    (hw : ∀ w, m.kernWork = some w → w.semId = s)
    (hw' : ∀ w, m'.kernWork = some w → w.semId = s) : Local m m' s :=
  ⟨hn, fun s' hs' => by rw [hsem, Function.update_of_ne hs'],
    fun s' hs' => by rw [hheld, Function.update_of_ne hs'], hq, hw, hw'⟩

theorem no_work (hk : m.kernWork = none) (w : KernWork) (hw : m.kernWork = some w) :
    w.semId = s := by
  rw [hk] at hw
  cases hw

/-- The nested takes and gives of the holder change the count of the mutex alone. -/
theorem inv_recurse (h : Inv m) (hk : m.kernWork = none) (hs : s < m.nSem)
    (hv : (m.sem s).verified = true) {t : TaskId} (ho : (m.sem s).owner = some t) (n : Nat) :
    Inv ((m.setSem s fun x => { x with recurse := n }).setHeld s t (n + 1)) := by
  set m' := (m.setSem s fun x => { x with recurse := n }).setHeld s t (n + 1) with hm'
  have hsem : m'.sem s = { m.sem s with recurse := n } := Function.update_self ..
  have hheld : m'.held s = Function.update (m.held s) t (n + 1) := Function.update_self ..
  have hk' : m'.kernWork = none := hk
  have hholder : (m.view s).holder = some t := (holder_of_idle hk hv).trans ho
  have hholder' : (m'.view s).holder = some t := by
    rw [holder_of_idle hk' (by rw [hsem]; exact hv), hsem]
    exact ho
  have hlocal : Local m m' s :=
    .of_update rfl rfl rfl (fun _ _ => rfl) (no_work hk) (no_work hk')
  have hok : (m'.view s).Ok := by
    refine ⟨fun hno => ?_, fun u hu => ?_, fun hh => ?_, fun hg => ?_, ?_⟩
    · change (m'.sem s).owner = none at hno
      rw [hsem, ho] at hno
      cases hno
    · rw [hholder'] at hu
      exact (h.sem s).notPended u (hholder.trans hu)
    · exact absurd ((view_of_idle hk' s).1.symm.trans hh) Bool.false_ne_true
    · change (m'.sem s).verified = false at hg
      rw [hsem, hv] at hg
      cases hg
    · apply (h.sem s).held_update hheld
      · intro u hu he
        exact hu (Option.some.inj (he.symm.trans hholder))
      · left
        refine ⟨hholder', ?_⟩
        show n + 1 = (m'.sem s).recurse + 1
        rw [hsem]
  apply h.of_local hs hlocal (SafeChange.refl h.coherent) hok
  · intro u _
    unfold State.protects
    rw [hholder, hholder', hsem]
    rfl
  · exact h.word
  · exact workOk_of_idle hk'

/-- The first take of a free mutex. -/
theorem inv_take_free (h : Inv m) (hk : m.kernWork = none) (hs : s < m.nSem)
    (hv : (m.sem s).verified = true) (ho : (m.sem s).owner = none) {t : TaskId} {k' : Kernel}
    (hkern : SafeChange m.kern k' fun u =>
      (m.kern.tcb u).safeCount + if (m.sem s).deleteSafe = true ∧ u = t then 1 else 0)
    (hword : ∀ u, (k'.tcb u).safeCount < 4294967296) :
    Inv { (m.setSem s fun x => { x with owner := some t }).setHeld s t 1 with kern := k' } := by
  set m' := { (m.setSem s fun x => { x with owner := some t }).setHeld s t 1 with kern := k' }
    with hm'
  have hsem : m'.sem s = { m.sem s with owner := some t } := Function.update_self ..
  have hheld : m'.held s = Function.update (m.held s) t 1 := Function.update_self ..
  have hk' : m'.kernWork = none := hk
  have hq : m'.kern.pendQ (.semQ s) = m.kern.pendQ (.semQ s) :=
    hkern.pendQ _ (QAddr.ofLayer_semQ s)
  have hholder : (m.view s).holder = none := (holder_of_idle hk hv).trans ho
  have hholder' : (m'.view s).holder = some t := by
    rw [holder_of_idle hk' (by rw [hsem]; exact hv), hsem]
  obtain ⟨hempty, hrec⟩ := (h.sem s).noOwner ho
  have hempty' : (m'.view s).queue = [] := by
    show ids (m'.kern.pendQ (.semQ s)) = []
    rw [hq]
    exact hempty
  have hlocal : Local m m' s :=
    .of_update rfl rfl rfl (fun s' _ => hkern.pendQ _ (QAddr.ofLayer_semQ s')) (no_work hk)
      (no_work hk')
  have hok : (m'.view s).Ok := by
    refine ⟨fun hno => ?_, fun u _ => ?_, fun hh => ?_, fun _ _ => hempty', ?_⟩
    · change (m'.sem s).owner = none at hno
      rw [hsem] at hno
      cases hno
    · rw [hempty']
      exact List.not_mem_nil
    · exact absurd ((view_of_idle hk' s).1.symm.trans hh) Bool.false_ne_true
    · apply (h.sem s).held_update hheld
      · intro u _ he
        rw [hholder] at he
        cases he
      · left
        refine ⟨hholder', ?_⟩
        show 1 = (m'.sem s).recurse + 1
        rw [hsem]
        exact (congrArg Nat.succ hrec).symm
  apply h.of_local hs hlocal hkern hok
  · intro u _
    unfold State.protects
    rw [hholder, hholder', hsem]
    show _ + _ + m.safes u + _ = _ + m.safes u + _
    simp only [reduceCtorEq, and_false, if_false, Option.some.injEq, eq_comm (a := t)]
    omega
  · intro u
    rw [← hkern.safeCount]
    exact hword u
  · exact workOk_of_idle hk'

/-- The holder loses the mutex to the first waiter, who is still in the queue. -/
theorem inv_release (h : Inv m) (hs : s < m.nSem) (hv : (m.sem s).verified = true)
    (hw : ∀ w, m.kernWork = some w → w.semId = s) {t : TaskId}
    (hholder : (m.view s).holder = some t) (hrec : (m.sem s).recurse = 0) {k' : Kernel}
    {count : TaskId → Nat} (hkern : SafeChange m.kern k' count)
    (hcount : ∀ u, live m.kern u →
      count u + (if (m.sem s).deleteSafe = true ∧ u = t then 1 else 0) = (m.kern.tcb u).safeCount)
    (hword : ∀ u, count u < 4294967296) {w : Option KernWork}
    (hnew : w = none ∧ qFirst (m.kern.pendQ (.semQ s)) = none ∨
      ∃ flush, w = some (.give s (qFirst (m.kern.pendQ (.semQ s))).isSome flush)) :
    Inv { (m.setSem s fun x => { x with owner := qFirst (m.kern.pendQ (.semQ s)) }).setHeld s t 0
      with kern := k', kernWork := w } := by
  set m' := { (m.setSem s fun x => { x with owner := qFirst (m.kern.pendQ (.semQ s)) }).setHeld
    s t 0 with kern := k', kernWork := w } with hm'
  have hsem : m'.sem s = { m.sem s with owner := qFirst (m.kern.pendQ (.semQ s)) } :=
    Function.update_self ..
  have hheld : m'.held s = Function.update (m.held s) t 0 := Function.update_self ..
  have hqueue : (m'.view s).queue = (m.view s).queue :=
    congrArg ids (hkern.pendQ _ (QAddr.ofLayer_semQ s))
  have hhanding : m'.handing s = (qFirst (m.kern.pendQ (.semQ s))).isSome := by
    rcases hnew with ⟨hn, hq⟩ | ⟨flush, hn⟩
    · simp [State.handing, hm', hn, hq]
    · simp [State.handing, hm', hn]
  have hholder' : (m'.view s).holder = none := by
    unfold View.holder
    split
    · rename_i hc
      have hf : (qFirst (m.kern.pendQ (.semQ s))).isSome = false := hhanding.symm.trans hc.1
      show (m'.sem s).owner = none
      rw [hsem]
      simpa using hf
    · rfl
  have hlocal : Local m m' s := by
    refine .of_update rfl rfl rfl (fun s' _ => hkern.pendQ _ (QAddr.ofLayer_semQ s')) hw ?_
    intro w' hw'
    rcases hnew with ⟨hn, _⟩ | ⟨flush, hn⟩ <;> simp only [hm', hn] at hw'
    · cases hw'
    · cases hw'
      rfl
  have hok : (m'.view s).Ok := by
    refine ⟨fun hno => ?_, fun u hu => ?_, fun hh => ?_, fun hg => ?_, ?_⟩
    · change (m'.sem s).owner = none at hno
      rw [hsem] at hno
      show (m'.view s).queue = [] ∧ (m'.sem s).recurse = 0
      rw [hqueue, hsem]
      refine ⟨?_, hrec⟩
      show ids _ = []
      rw [qFirst_eq_none.1 hno]
      rfl
    · rw [hholder'] at hu
      cases hu
    · rw [hqueue]
      change m'.handing s = true at hh
      rw [hhanding] at hh
      obtain ⟨t', ht'⟩ := Option.isSome_iff_exists.1 hh
      show (m'.sem s).recurse = 0 ∧ ∃ t, (m'.sem s).owner = some t ∧ _
      rw [hsem]
      exact ⟨hrec, t', ht', by rw [← ht']; exact (qFirst_eq_head? _).symm⟩
    · change (m'.sem s).verified = false at hg
      rw [hsem, hv] at hg
      cases hg
    · apply (h.sem s).held_update hheld
      · intro u hu he
        exact hu (Option.some.inj (he.symm.trans hholder))
      · exact Or.inr ⟨hholder', rfl⟩
  apply h.of_local hs hlocal hkern hok
  · intro u hu
    have hcu := hcount u hu
    unfold State.protects
    rw [hholder, hholder', hsem]
    show _ + m.safes u + _ = _ + m.safes u + _
    simp only [reduceCtorEq, and_false, if_false, Option.some.injEq, eq_comm (a := t)]
    omega
  · exact hword
  · rcases hnew with ⟨hn, _⟩ | ⟨flush, hn⟩
    · exact workOk_of_idle hn
    · unfold State.WorkOk
      simp only [hm', hn]
      refine ⟨hs, ?_⟩
      show (m'.sem s).verified = true
      rw [hsem]
      exact hv

/-- The first waiter leaves the queue and holds the mutex. -/
theorem inv_grant (h : Inv m) (hs : s < m.nSem) (hv : (m.sem s).verified = true)
    {flush : Bool} (hw : m.kernWork = some (.give s true flush)) {t : TaskId}
    (ho : (m.sem s).owner = some t) {k' : Kernel}
    (hkern : SafeChange (vmxPendQGet m.kern (.semQ s)) k' fun u =>
      (m.kern.tcb u).safeCount + if (m.sem s).deleteSafe = true ∧ u = t then 1 else 0)
    (hword : ∀ u, (k'.tcb u).safeCount < 4294967296) :
    Inv { m.setHeld s t (m.held s t + 1) with kern := k', kernWork := none } := by
  set m' := { m.setHeld s t (m.held s t + 1) with kern := k', kernWork := none } with hm'
  have hheld : m'.held s = Function.update (m.held s) t (m.held s t + 1) := Function.update_self ..
  have hk' : m'.kernWork = none := rfl
  have hhanding : m.handing s = true := by simp [State.handing, hw]
  have hholder : (m.view s).holder = none := by
    apply if_neg
    rintro ⟨hno, _⟩
    exact Bool.false_ne_true (hno.symm.trans hhanding)
  have hholder' : (m'.view s).holder = some t := (holder_of_idle hk' hv).trans ho
  obtain ⟨hrec, t', ho', hhead⟩ := (h.sem s).handing hhanding
  obtain rfl : t' = t := Option.some.inj (ho'.symm.trans ho)
  have hnodup : (ids (m.kern.pendQ (.semQ s))).Nodup := h.coherent.nodup_pendQ _
  have hpend : ∀ q : QAddr, q.OfLayer → k'.pendQ q =
      Function.update m.kern.pendQ (.semQ s) (m.kern.pendQ (.semQ s)).tail q := by
    intro q hq
    rw [hkern.pendQ q hq, pendQ_vmxPendQGet]
  have hqueue : (m'.view s).queue = (m.view s).queue.tail := by
    show ids (k'.pendQ (.semQ s)) = (ids (m.kern.pendQ (.semQ s))).tail
    rw [hpend _ (QAddr.ofLayer_semQ s), Function.update_self]
    exact List.map_tail
  have hlocal : Local m m' s := by
    refine .of_update rfl (Function.update_eq_self s m.sem).symm rfl (fun s' hs' => ?_)
      (fun w hw' => ?_) (no_work hk')
    · rw [hpend _ (QAddr.ofLayer_semQ s'), Function.update_of_ne (by simpa using hs')]
    · rw [hw] at hw'
      cases hw'
      rfl
  have hok : (m'.view s).Ok := by
    refine ⟨fun hno => ?_, fun u hu => ?_, fun hh => ?_, fun hg => ?_, ?_⟩
    · change (m.sem s).owner = none at hno
      rw [ho] at hno
      cases hno
    · obtain rfl : t' = u := Option.some.inj (hholder'.symm.trans hu)
      rw [hqueue]
      change (ids (m.kern.pendQ (.semQ s))).head? = some t' at hhead
      show t' ∉ (ids (m.kern.pendQ (.semQ s))).tail
      cases hl : ids (m.kern.pendQ (.semQ s)) with
      | nil => simp
      | cons a l =>
        rw [hl] at hhead hnodup
        obtain rfl : a = t' := Option.some.inj hhead
        exact (List.nodup_cons.1 hnodup).1
    · exact absurd ((view_of_idle hk' s).1.symm.trans hh) Bool.false_ne_true
    · change (m.sem s).verified = false at hg
      rw [hv] at hg
      cases hg
    · apply (h.sem s).held_update hheld
      · intro u _ he
        rw [hholder] at he
        cases he
      · left
        have hzero : m.held s t' = 0 := by
          have hheld := (h.sem s).held t'
          rw [hholder] at hheld
          exact hheld
        refine ⟨hholder', ?_⟩
        show m.held s t' + 1 = (m.sem s).recurse + 1
        rw [hzero]
        exact (congrArg Nat.succ hrec).symm
  have hlive : ∀ u, live k' u → live m.kern u := by
    intro u hu
    rw [hkern.live] at hu
    unfold live at hu ⊢
    rwa [(keeps_vmxPendQGet m.kern (.semQ s)).dead] at hu
  apply h.of_change hlocal.nSem hs hkern.coherent (fun s' hs' => hlocal.le hs') hok hlive
  · intro u _
    rw [hkern.safeCount]
    unfold State.protects
    rw [hholder, hholder']
    show _ + _ + m.safes u + _ = _ + m.safes u + (if (m.sem s).deleteSafe = true ∧ _ then 1 else 0)
    simp only [reduceCtorEq, and_false, if_false, Option.some.injEq, eq_comm (a := t')]
    omega
  · exact hword
  · exact workOk_of_idle hk'

/-- A call enters the kernel without having changed anything. -/
theorem inv_enter (h : Inv m) (hk : m.kernWork = none) {w : KernWork}
    (hquiet : ∀ s', { m with kernWork := some w }.handing s' = false ∧
      { m with kernWork := some w }.ending s' = false)
    (hwork : { m with kernWork := some w }.WorkOk) : Inv { m with kernWork := some w } := by
  refine h.of_le rfl h.coherent (fun s' => ?_) (fun _ ht => ht) (fun _ _ => rfl) h.word hwork
  refine ⟨rfl, rfl, ?_, List.Subperm.refl _, fun _ => rfl⟩
  have hbefore := view_of_idle hk s'
  have hafter := hquiet s'
  exact ⟨hafter.1.trans hbefore.1.symm, hafter.2.trans hbefore.2.symm⟩

theorem inv_semMTake (h : Inv m) (hc : m.calls) (hs : s < m.nSem) (timeout : Nat)
    (hdeep : (m.sem s).verified = true → (m.sem s).owner = some m.kern.taskIdCurrent →
      (m.sem s).recurse < 65535)
    (hroom : (m.sem s).verified = true → (m.sem s).owner = none → (m.sem s).deleteSafe = true →
      (m.kern.tcb m.kern.taskIdCurrent).safeCount < 4294967295) :
    Inv (semMTake m s timeout).1 := by
  unfold semMTake
  dsimp only
  split
  · exact inv_errnoSet h hc.1 _
  · rename_i hv
    rw [Bool.not_eq_false] at hv
    have hholder := holder_of_idle hc.1 hv
    split
    · rename_i ho
      have hzero : m.held s m.kern.taskIdCurrent = 0 := by
        have hheld := (h.sem s).held m.kern.taskIdCurrent
        rw [hholder.trans ho] at hheld
        exact hheld
      have hroom' := hroom hv ho
      have hkern := safeChange_safeTake h.coherent _ m.kern.taskIdCurrent hroom'
      rw [hzero]
      refine inv_take_free h hc.1 hs hv ho hkern fun u => ?_
      rw [hkern.safeCount]
      have hword := h.word u
      split
      · rename_i hu
        have := hroom' hu.1
        rw [hu.2]
        omega
      · omega
    · rename_i pOwner ho
      split
      · rename_i hme
        subst hme
        have hlt := hdeep hv ho
        have hheld := (h.sem s).held m.kern.taskIdCurrent
        rw [hholder.trans ho, if_pos rfl] at hheld
        change m.held s m.kern.taskIdCurrent = (m.sem s).recurse + 1 at hheld
        rw [hheld]
        have hmod : ((m.sem s).recurse + 1) % 65536 = (m.sem s).recurse + 1 :=
          Nat.mod_eq_of_lt (by omega)
        have hinv := inv_recurse h hc.1 hs hv ho ((m.sem s).recurse + 1)
        have heq : (m.setSem s fun x => { x with recurse := (x.recurse + 1) % 65536 }) =
            m.setSem s fun x => { x with recurse := (m.sem s).recurse + 1 } := by
          unfold State.setSem
          dsimp only
          rw [hmod]
        rw [heq]
        exact hinv
      · rename_i hne
        split
        · exact inv_errnoSet h hc.1 _
        · apply inv_enter h hc.1 (fun _ => ⟨rfl, rfl⟩)
          exact ⟨hs, hv, hc.2, pOwner, ho, hne⟩

theorem inv_semMGive (h : Inv m) (hc : m.calls) (hs : s < m.nSem) : Inv (semMGive m s).1 := by
  unfold semMGive
  dsimp only
  split
  · exact inv_errnoSet h hc.1 _
  · rename_i hv
    rw [Bool.not_eq_false] at hv
    split
    · exact inv_errnoSet h hc.1 _
    · rename_i ho
      rw [not_not] at ho
      have hholder := (holder_of_idle hc.1 hv).trans ho
      have hheld := (h.sem s).held m.kern.taskIdCurrent
      rw [hholder, if_pos rfl] at hheld
      change m.held s m.kern.taskIdCurrent = (m.sem s).recurse + 1 at hheld
      rw [hheld, Nat.add_sub_cancel]
      split
      · rename_i hrec
        have hinv := inv_recurse h hc.1 hs hv ho ((m.sem s).recurse - 1)
        rw [Nat.sub_add_cancel hrec] at hinv
        exact hinv
      · rename_i hrec
        have hzero : (m.sem s).recurse = 0 := by omega
        have hlive := live_of_running hc.2
        have hpos := h.safeCount_pos hs hlive hholder
        have hkern := safeChange_safeGive h.coherent _ _ hpos (h.word _)
        have hrelease := fun w hw =>
          inv_release (w := w) h hs hv (no_work hc.1) hholder hzero hkern
            (fun u _ => by
              split
              · rename_i hu
                have := hpos hu.1
                rw [hu.2]
                omega
              · omega)
            (fun u => by have := h.word u; omega) hw
        rw [hzero]
        split
        · rename_i hnone
          exact hrelease m.kernWork (Or.inl ⟨hc.1, by simpa using hnone.1⟩)
        · exact hrelease _ (Or.inr ⟨_, rfl⟩)

theorem inv_semMGiveForce (h : Inv m) (hc : m.calls) (hs : s < m.nSem) :
    Inv (semMGiveForce m s).1 := by
  unfold semMGiveForce
  split
  · exact inv_errnoSet h hc.1 _
  · rename_i hv
    rw [Bool.not_eq_false] at hv
    split
    · rename_i ho
      have hrec := ((h.sem s).noOwner ho).2
      change (m.sem s).recurse = 0 at hrec
      have hsame : (m.setSem s fun x => { x with recurse := 0 }) = m := by
        have hx : (⟨(m.sem s).verified, (m.sem s).deleteSafe, (m.sem s).owner, 0⟩ : SemM) =
            m.sem s := by rw [← hrec]
        unfold State.setSem
        dsimp only
        rw [hx, Function.update_eq_self]
      rw [hsame]
      apply inv_enter h hc.1 (fun _ => ⟨rfl, rfl⟩)
      refine ⟨hs, hv, hrec, fun t ht => ?_⟩
      rw [ho] at ht
      cases ht
    · rename_i pOwner ho
      have hundone := inv_recurse h hc.1 hs hv ho 0
      dsimp only
      split
      · exact hundone
      · apply inv_enter hundone hc.1 (fun _ => ⟨rfl, rfl⟩)
        refine ⟨hs, ?_, ?_, fun t ht => ?_⟩
        · simp [State.setSem, State.setHeld, hv]
        · simp [State.setSem, State.setHeld]
        · have ht' : (m.sem s).owner = some t := by
            simpa [State.setSem, State.setHeld] using ht
          obtain rfl : pOwner = t := Option.some.inj (ho.symm.trans ht')
          exact decide_eq_true_iff

theorem inv_semDestroy (h : Inv m) (hc : m.calls) (hs : s < m.nSem) :
    Inv (semDestroy m s).1 := by
  unfold semDestroy
  split
  · exact inv_errnoSet h hc.1 _
  · rename_i hv
    rw [Bool.not_eq_false] at hv
    set m' := { m.setSem s fun x => { x with verified := false } with
      kernWork := some (.destroy s) } with hm'
    have hsem : m'.sem s = { m.sem s with verified := false } := Function.update_self ..
    have hending : m'.ending s = true := by simp [State.ending, hm']
    have hholder : (m'.view s).holder = (m.view s).holder := by
      rw [holder_of_idle hc.1 hv]
      have hh : (m'.view s).holder = (m'.sem s).owner := if_pos ⟨rfl, Or.inr hending⟩
      rw [hh, hsem]
    have hlocal : Local m m' s := by
      refine .of_update rfl rfl (Function.update_eq_self s m.held).symm (fun _ _ => rfl)
        (no_work hc.1) fun w hw => ?_
      cases hw
      rfl
    have hok : (m'.view s).Ok := by
      refine ⟨fun hno => ?_, fun u hu => ?_, fun hh => ?_, fun _ he => ?_, fun u => ?_⟩
      · change (m'.sem s).owner = none at hno
        show (m.view s).queue = [] ∧ (m'.sem s).recurse = 0
        rw [hsem] at hno ⊢
        exact (h.sem s).noOwner hno
      · rw [hholder] at hu
        exact (h.sem s).notPended u hu
      · cases hh
      · exact absurd (he.symm.trans hending) Bool.false_ne_true
      · rw [hholder]
        show m.held s u = if _ then (m'.sem s).recurse + 1 else 0
        rw [hsem]
        exact (h.sem s).held u
    apply h.of_local hs hlocal (SafeChange.refl h.coherent) hok
    · intro t _
      unfold State.protects
      rw [hholder, hsem]
      rfl
    · exact h.word
    · exact ⟨hs, by rw [hsem]⟩

/-! ## The kernel sections -/

theorem inv_semMKernGive (h : Inv m) {qGet flush : Bool}
    (hw : m.kernWork = some (.give s qGet flush))
    (hroom : qGet = true → (m.sem s).deleteSafe = true →
      ∀ t, (m.sem s).owner = some t → (m.kern.tcb t).safeCount < 4294967295) :
    Inv (semMKernGive m s qGet flush) := by
  have hwork := h.work
  unfold State.WorkOk at hwork
  rw [hw] at hwork
  obtain ⟨hs, hv⟩ := hwork
  unfold semMKernGive
  cases qGet with
  | false =>
    simp only [Bool.false_eq_true, if_false]
    have hkern := (SafeChange.refl h.coherent).flush flush m.kern.taskIdCurrent
    refine h.of_le rfl hkern.coherent (fun s' => ?_) (fun t ht => hkern.live.1 ht)
      (fun t _ => ?_) (fun t => ?_) trivial
    · refine ⟨rfl, rfl, ?_, ?_, fun hh => ?_⟩
      · show false = m.handing s' ∧ false = m.ending s'
        simp [State.handing, State.ending, hw]
      · show (ids ((safeQFlush _ _ _).pendQ _)).Subperm _
        rw [hkern.pendQ _ (QAddr.ofLayer_semQ s')]
        exact List.Subperm.refl _
      · have hno : m.handing s' = false := by simp [State.handing, hw]
        exact absurd (hno.symm.trans hh) Bool.false_ne_true
    · show ((safeQFlush _ _ _).tcb t).safeCount + _ = _
      rw [hkern.safeCount]
    · show ((safeQFlush _ _ _).tcb t).safeCount < _
      rw [hkern.safeCount]
      exact h.word t
  | true =>
    have hhanding : (m.view s).handing = true := by simp [State.view, State.handing, hw]
    obtain ⟨_, t, ho, hhead⟩ := (h.sem s).handing hhanding
    change (m.sem s).owner = some t at ho
    have hfirst : qFirst (m.kern.pendQ (.semQ s)) = some t := (qFirst_eq_head? _).trans hhead
    have hne : m.kern.pendQ (.semQ s) ≠ [] := by
      intro he
      rw [he] at hfirst
      cases hfirst
    have hget := coherent_vmxPendQGet h.coherent hne
    have hkeeps := keeps_vmxPendQGet m.kern (.semQ s)
    have hroom' := fun hd => hroom rfl hd t ho
    have htake := safeChange_safeTake hget (m.sem s).deleteSafe t fun hd => by
      rw [hkeeps.safeCount]
      exact hroom' hd
    have hkern := htake.flush flush m.kern.taskIdCurrent
    have hcur : (safeTake (vmxPendQGet m.kern (.semQ s)) (m.sem s).deleteSafe t).taskIdCurrent =
        m.kern.taskIdCurrent := htake.current.trans hkeeps.current
    simp only [if_true, hfirst, ho, State.setHeld]
    rw [hcur]
    apply inv_grant h hs hv hw ho
    · apply hkern.congr
      intro u
      rw [hkeeps.safeCount]
    · intro u
      rw [hkern.safeCount, hkeeps.safeCount]
      have hword := h.word u
      split
      · rename_i hu
        have := hroom' hu.1
        rw [hu.2]
        omega
      · omega

theorem inv_semMKernTake (h : Inv m) {timeout : Nat} (hw : m.kernWork = some (.take s timeout)) :
    Inv (semMKernTake m s timeout) := by
  have hwork := h.work
  unfold State.WorkOk at hwork
  rw [hw] at hwork
  obtain ⟨hs, hv, hr, t, ho, hne⟩ := hwork
  unfold semMKernTake
  set m' : State := { m with
    kern := vmxPendQPut m.kern (.semQ s) timeout, kernWork := some (.exit s) } with hm'
  have hkeeps := keeps_vmxPendQPut m.kern (.semQ s) timeout
  have hholder : (m.view s).holder = some t := by
    rw [← ho]
    apply if_pos
    refine ⟨?_, Or.inl hv⟩
    simp [State.view, State.handing, hw]
  have hholder' : (m'.view s).holder = some t := by
    rw [← ho]
    exact if_pos ⟨rfl, Or.inl hv⟩
  have hqueue : (m'.view s).queue.Perm (m.kern.taskIdCurrent :: (m.view s).queue) := by
    show (ids ((vmxPendQPut m.kern (.semQ s) timeout).pendQ (.semQ s))).Perm _
    rw [pendQ_vmxPendQPut, Function.update_self]
    exact ids_qPut_perm _ _ _ _
  have hlocal : Local m m' s := by
    refine ⟨rfl, fun _ _ => rfl, fun _ _ => rfl, fun s' hs' => ?_, fun w hw' => ?_,
      fun w hw' => ?_⟩
    · show (vmxPendQPut m.kern (.semQ s) timeout).pendQ (.semQ s') = _
      rw [pendQ_vmxPendQPut, Function.update_of_ne (by simpa using hs')]
    · rw [hw] at hw'
      cases hw'
      rfl
    · cases hw'
      rfl
  have hok : (m'.view s).Ok := by
    refine ⟨fun hno => ?_, fun u hu hm => ?_, fun hh => ?_, fun hg => ?_, fun u => ?_⟩
    · change (m.sem s).owner = none at hno
      rw [ho] at hno
      cases hno
    · obtain rfl : t = u := Option.some.inj (hholder'.symm.trans hu)
      rcases List.mem_cons.1 (hqueue.mem_iff.1 hm) with he | hm'
      · exact hne he
      · exact (h.sem s).notPended t hholder hm'
    · cases hh
    · change (m.sem s).verified = false at hg
      rw [hv] at hg
      cases hg
    · rw [hholder', ← hholder]
      exact (h.sem s).held u
  refine h.of_change rfl hs (coherent_vmxPendQPut h.coherent hr _ timeout)
    (fun s' hs' => hlocal.le hs') hok (fun u hu => ?_) (fun u _ => ?_) (fun u => ?_)
    trivial
  · unfold live at hu ⊢
    rwa [← hkeeps.dead]
  · unfold State.protects
    rw [hholder, hholder']
    show ((vmxPendQPut m.kern (.semQ s) timeout).tcb u).safeCount + m.safes u + _ =
      _ + m.safes u + _
    rw [hkeeps.safeCount]
  · show ((vmxPendQPut m.kern (.semQ s) timeout).tcb u).safeCount < _
    rw [hkeeps.safeCount]
    exact h.word u

theorem inv_semMKernGiveForce (h : Inv m) {taskIsValid : Bool}
    (hw : m.kernWork = some (.giveForce s taskIsValid)) :
    Inv (semMKernGiveForce m s taskIsValid) := by
  have hwork := h.work
  unfold State.WorkOk at hwork
  rw [hw] at hwork
  obtain ⟨hs, hv, hrec, hvalid⟩ := hwork
  have hown : (m.view s).holder = (m.sem s).owner := by
    apply if_pos
    refine ⟨?_, Or.inl hv⟩
    simp [State.view, State.handing, hw]
  have hsame : ∀ w, m.kernWork = some w → w.semId = s := by
    intro w hw'
    rw [hw] at hw'
    cases hw'
    rfl
  unfold semMKernGiveForce
  cases ho : (m.sem s).owner with
  | none =>
    have hempty : m.kern.pendQ (.semQ s) = [] := List.map_eq_nil_iff.1 ((h.sem s).noOwner ho).1
    have hx : (⟨(m.sem s).verified, (m.sem s).deleteSafe, none, (m.sem s).recurse⟩ : SemM) =
        m.sem s := by rw [← ho]
    simp only [hempty, qFirst_nil, Option.isSome_none, Bool.false_eq_true, if_false, State.setSem,
      hx, Function.update_eq_self]
    refine h.of_le rfl h.coherent (fun s' => ?_) (fun _ ht => ht) (fun _ _ => rfl) h.word trivial
    refine ⟨rfl, rfl, ?_, List.Subperm.refl _, fun _ => rfl⟩
    show false = m.handing s' ∧ false = m.ending s'
    simp [State.handing, State.ending, hw]
  | some pOwner =>
    rw [ho] at hown
    have hnew : ∀ q : Option TaskId,
        (if q.isSome = true then some (KernWork.give s true false) else none) = none ∧ q = none ∨
          ∃ flush, (if q.isSome = true then some (KernWork.give s true false) else none) =
            some (.give s q.isSome flush) := by
      intro q
      cases q with
      | none => exact Or.inl ⟨rfl, rfl⟩
      | some t => exact Or.inr ⟨false, rfl⟩
    cases taskIsValid with
    | false =>
      have hdead : ¬ live m.kern pOwner := fun hl =>
        Bool.false_ne_true ((hvalid pOwner ho).2 hl)
      apply inv_release h hs hv hsame hown hrec (SafeChange.refl h.coherent) _ h.word (hnew _)
      intro u hu
      rw [if_neg]
      · omega
      · rintro ⟨_, rfl⟩
        exact hdead hu
    | true =>
      have hpos := h.safeCount_pos hs ((hvalid pOwner ho).1 rfl) hown
      have hkern := (safeChange_safeGive h.coherent _ _ hpos (h.word _)).flush
        (safeGive m.kern (m.sem s).deleteSafe pOwner).2 pOwner
      have hqueue := hkern.pendQ _ (QAddr.ofLayer_semQ s)
      simp only [if_true, State.setHeld]
      rw [hqueue]
      apply inv_release h hs hv hsame hown hrec hkern _ _ (hnew _)
      · intro u _
        split
        · rename_i hu
          have := hpos hu.1
          rw [hu.2]
          omega
        · omega
      · intro u
        have := h.word u
        omega

/-- The condition that the end of a mutex never meets is what would take the delete
safety of the owner back. -/
theorem vmxSemDelete_eq (m : State) (s : Nat) :
    vmxSemDelete m s = { m with kern := vmxPendQTerminate m.kern (.semQ s) } := by
  unfold vmxSemDelete
  split
  · rfl
  · simp only [objVerifyEqOK_eq, Bool.false_eq_true, if_false]

theorem inv_semKernDestroy (h : Inv m) (hw : m.kernWork = some (.destroy s))
    (hfree : (m.sem s).deleteSafe = true → ∀ t, (m.sem s).owner = some t → ¬ live m.kern t)
    (hroom : (m.kern.tcb m.kern.taskIdCurrent).safeCount < 4294967295) :
    Inv (semKernDestroy m s) := by
  have hwork := h.work
  unfold State.WorkOk at hwork
  rw [hw] at hwork
  obtain ⟨hs, hv⟩ := hwork
  have hkeeps := keeps_vmxPendQTerminate m.kern (.semQ s)
  have hterm := coherent_vmxPendQTerminate h.coherent (.semQ s)
  unfold semKernDestroy
  rw [vmxSemDelete_eq]
  simp only [taskSafe]
  set t := (vmxPendQTerminate m.kern (.semQ s)).taskIdCurrent with ht
  have hcur : t = m.kern.taskIdCurrent := hkeeps.current
  have hkern := safeChange_safeTake hterm true t fun _ => by
    rw [hkeeps.safeCount, hcur]
    exact hroom
  set m' : State := { m with
    kern := safeCountUp (vmxPendQTerminate m.kern (.semQ s)) t
    safes := Function.update m.safes t (m.safes t + 1)
    held := Function.update m.held s fun _ => 0
    kernWork := none } with hm'
  have hk' : m'.kernWork = none := rfl
  have hholder' : (m'.view s).holder = none := holder_of_gone hk' hv
  have hpend : ∀ q : QAddr, q.OfLayer → m'.kern.pendQ q =
      Function.update m.kern.pendQ (.semQ s) [] q := by
    intro q hq
    rw [← pendQ_vmxPendQTerminate]
    exact hkern.pendQ q hq
  have hempty : (m'.view s).queue = [] := by
    show ids (m'.kern.pendQ (.semQ s)) = []
    rw [hpend _ (QAddr.ofLayer_semQ s), Function.update_self]
    rfl
  have hlocal : Local m m' s := by
    refine .of_update rfl (Function.update_eq_self s m.sem).symm rfl (fun s' hs' => ?_)
      (fun w hw' => ?_) (no_work hk')
    · rw [hpend _ (QAddr.ofLayer_semQ s'), Function.update_of_ne (by simpa using hs')]
    · rw [hw] at hw'
      cases hw'
      rfl
  have hok : (m'.view s).Ok := by
    refine ⟨fun hno => ⟨hempty, ((h.sem s).noOwner hno).2⟩, fun u hu => ?_, fun hh => ?_,
      fun _ _ => hempty, fun u => ?_⟩
    · rw [hholder'] at hu
      cases hu
    · exact absurd ((view_of_idle hk' s).1.symm.trans hh) Bool.false_ne_true
    · rw [hholder']
      show Function.update m.held s (fun _ => 0) s u = 0
      rw [Function.update_self]
  refine h.of_change rfl hs hkern.coherent (fun s' hs' => hlocal.le hs') hok (fun u hu => ?_)
    (fun u hu => ?_) (fun u => ?_) (workOk_of_idle hk')
  · have hu' := hkern.live.1 hu
    unfold live at hu' ⊢
    rwa [← hkeeps.dead]
  · have hcount := hkern.safeCount u
    rw [hkeeps.safeCount] at hcount
    change (m'.kern.tcb u).safeCount = _ at hcount
    have hbefore : m.protects s u = 0 := by
      apply if_neg
      rintro ⟨hd, hh⟩
      have hown : (m.view s).holder = (m.sem s).owner := by
        apply if_pos
        refine ⟨?_, Or.inr ?_⟩ <;> simp [State.view, State.handing, State.ending, hw]
      exact hfree hd u (hown.symm.trans hh) hu
    have hafter : m'.protects s u = 0 := by
      apply if_neg
      rw [hholder']
      rintro ⟨_, hh⟩
      cases hh
    rw [hcount, hbefore, hafter]
    show _ + m.safes u + 0 = _ + Function.update m.safes t (m.safes t + 1) u + 0
    by_cases hut : u = t
    · subst hut
      rw [if_pos ⟨rfl, rfl⟩, Function.update_self]
      omega
    · rw [if_neg (fun hc => hut hc.2), Function.update_of_ne hut]
      omega
  · have hcount := hkern.safeCount u
    rw [hkeeps.safeCount] at hcount
    change (m'.kern.tcb u).safeCount = _ at hcount
    rw [hcount]
    have hword := h.word u
    split
    · rename_i hu
      rw [hu.2, hcur]
      omega
    · omega

/-! ## The steps that act on no mutex -/

theorem inv_taskSafe (h : Inv m) (hk : m.kernWork = none) {t : TaskId}
    (hroom : (m.kern.tcb t).safeCount < 4294967295) : Inv (taskSafe m t) := by
  have hkern := safeChange_safeTake h.coherent true t fun _ => hroom
  have hcount : ∀ u, ((taskSafe m t).kern.tcb u).safeCount = _ := hkern.safeCount
  refine h.of_le rfl hkern.coherent (fun s' => View.Le.refl _) (fun u hu => hkern.live.1 hu)
    (fun u _ => ?_) (fun u => ?_) (workOk_of_idle hk)
  · rw [hcount]
    show _ + _ + m.safes u = _ + Function.update m.safes t (m.safes t + 1) u
    by_cases hu : u = t
    · subst hu
      rw [if_pos ⟨rfl, rfl⟩, Function.update_self]
      omega
    · rw [if_neg (fun hc => hu hc.2), Function.update_of_ne hu]
      omega
  · rw [hcount]
    have hword := h.word u
    split
    · rename_i hu
      rw [hu.2]
      omega
    · omega

theorem inv_taskUnsafe (h : Inv m) (hc : m.calls) (hout : 0 < m.safes m.kern.taskIdCurrent) :
    Inv (taskUnsafe m) := by
  have hlive := live_of_running hc.2
  have hpos : 0 < (m.kern.tcb m.kern.taskIdCurrent).safeCount := by
    have := h.safe _ hlive
    omega
  unfold taskUnsafe
  dsimp only
  rw [if_pos hpos]
  have hkern := (safeChange_safeGive h.coherent true _ (fun _ => hpos)
    (h.word _)).flush (safeGive m.kern true m.kern.taskIdCurrent).2 m.kern.taskIdCurrent
  refine h.of_le rfl hkern.coherent (fun s' => ⟨rfl, rfl, ⟨rfl, rfl⟩, ?_, fun _ => ?_⟩)
    (fun u hu => hkern.live.1 hu) (fun u _ => ?_) (fun u => ?_) (workOk_of_idle hc.1)
  · show (ids ((safeQFlush _ _ _).pendQ _)).Subperm _
    rw [hkern.pendQ _ (QAddr.ofLayer_semQ s')]
    exact List.Subperm.refl _
  · show (ids ((safeQFlush _ _ _).pendQ _)).head? = _
    rw [hkern.pendQ _ (QAddr.ofLayer_semQ s')]
    rfl
  · show ((safeQFlush _ _ _).tcb u).safeCount + _ = _ + Function.update m.safes _ _ u
    rw [hkern.safeCount]
    by_cases hu : u = m.kern.taskIdCurrent
    · rw [hu, if_pos ⟨rfl, rfl⟩, Function.update_self]
      omega
    · rw [if_neg (fun hc => hu hc.2), Function.update_of_ne hu]
      omega
  · show ((safeQFlush _ _ _).tcb u).safeCount < _
    rw [hkern.safeCount]
    have := h.word u
    omega

theorem inv_exit (h : Inv m) (hw : m.kernWork = some (.exit s)) :
    Inv { m with kern := saveTaskContext m.kern, kernWork := none } := by
  have hkeeps := keeps_saveTaskContext m.kern
  refine h.of_le rfl (coherent_saveTaskContext h.coherent) (fun s' => ?_) (fun u hu => ?_)
    (fun u _ => ?_) (fun u => ?_) trivial
  · refine ⟨rfl, rfl, ?_, ?_, fun _ => ?_⟩
    · show false = m.handing s' ∧ false = m.ending s'
      simp [State.handing, State.ending, hw]
    · show (ids ((saveTaskContext m.kern).pendQ _)).Subperm _
      rw [pendQ_saveTaskContext]
      exact List.Subperm.refl _
    · show (ids ((saveTaskContext m.kern).pendQ _)).head? = _
      rw [pendQ_saveTaskContext]
      rfl
  · unfold live at hu ⊢
    rwa [← hkeeps.dead]
  · show ((saveTaskContext m.kern).tcb u).safeCount + _ = _ + m.safes u
    rw [hkeeps.safeCount]
  · show ((saveTaskContext m.kern).tcb u).safeCount < _
    rw [hkeeps.safeCount]
    exact h.word u

/-- The timeout of a waiter other than one that is being made the owner. -/
theorem inv_expire (h : Inv m) {t : TaskId} (hd : (m.kern.tcb t).status.delay = true)
    (hnot : ∀ s, m.handing s = true → (m.sem s).owner ≠ some t) :
    Inv { m with kern := expireTask m.kern t } := by
  have hkeeps := keeps_expireTask m.kern t
  have hlive : ∀ u, live (expireTask m.kern t) u ↔ live m.kern u := by
    intro u
    unfold live
    rw [hkeeps.dead]
  refine h.of_le rfl (coherent_expireTask h.coherent hd) (fun s' => ⟨rfl, rfl, ⟨rfl, rfl⟩, ?_, ?_⟩)
    (fun u hu => (hlive u).1 hu) (fun u _ => ?_) (fun u => ?_) ?_
  · show (ids ((expireTask m.kern t).pendQ (.semQ s'))).Subperm _
    rw [pendQ_expireTask h.coherent]
    exact ((eraseId_sublist _ t).map Prod.fst).subperm
  · intro hh
    obtain ⟨_, u, ho, hhead⟩ := (h.sem s').handing hh
    show (ids ((expireTask m.kern t).pendQ (.semQ s'))).head? = _
    rw [pendQ_expireTask h.coherent, hhead]
    change (ids (m.kern.pendQ (.semQ s'))).head? = some u at hhead
    have hne : u ≠ t := by
      rintro rfl
      exact hnot s' hh ho
    cases hq : m.kern.pendQ (.semQ s') with
    | nil =>
      rw [hq] at hhead
      cases hhead
    | cons node rest =>
      rw [hq] at hhead
      obtain rfl : node.1 = u := Option.some.inj hhead
      rw [eraseId_cons, if_neg hne]
      rfl
  · show ((expireTask m.kern t).tcb u).safeCount + _ = _ + m.safes u
    rw [hkeeps.safeCount]
  · show ((expireTask m.kern t).tcb u).safeCount < _
    rw [hkeeps.safeCount]
    exact h.word u
  · have hwork := h.work
    unfold State.WorkOk at hwork ⊢
    dsimp only
    split
    · trivial
    · rename_i hw
      rw [hw] at hwork
      exact hwork
    · rename_i hw
      rw [hw] at hwork
      obtain ⟨hs, hv, hr, u, ho, hne⟩ := hwork
      refine ⟨hs, hv, running_expireTask hr hd, u, ho, ?_⟩
      rw [hkeeps.current]
      exact hne
    · rename_i hw
      rw [hw] at hwork
      obtain ⟨hs, hv, hrec, hvalid⟩ := hwork
      refine ⟨hs, hv, hrec, fun u ho => ?_⟩
      rw [hlive]
      exact hvalid u ho
    · rename_i hw
      rw [hw] at hwork
      exact hwork
    · trivial

theorem inv_env (h : Inv m) (hk : m.kernWork = none) {k' : Kernel}
    (he : EnvEffect m.kern k') : Inv { m with kern := k' } := by
  refine h.of_le rfl he.coherent (fun s' => ⟨rfl, rfl, ⟨rfl, rfl⟩, ?_, fun hh => ?_⟩)
    (fun u hu => ?_) (fun u _ => ?_) (fun u => ?_) (workOk_of_idle hk)
  · exact he.pendQ _ (QAddr.ofLayer_semQ s')
  · exact absurd ((view_of_idle hk s').1.symm.trans hh) Bool.false_ne_true
  · unfold live at hu ⊢
    by_contra hdead
    rw [Bool.not_eq_false] at hdead
    exact Bool.false_ne_true (hu.symm.trans (he.dead u hdead))
  · show (k'.tcb u).safeCount + _ = _ + m.safes u
    rw [he.safeCount]
  · show (k'.tcb u).safeCount < _
    rw [he.safeCount]
    exact h.word u

end Calls

end Vmx.Mutex
