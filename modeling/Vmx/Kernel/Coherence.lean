import Vmx.Kernel.Frame
import Vmx.Lib.Transition

/-!
# Queues and status agree

A task sees the kernel through its status word, its `pPendQ` and the number of
times its nodes are linked in the four queues: its `View`.  A view is `Ok` when
the links are those that the status word says, and the kernel is `Coherent` when
every view is, every watchdog is linked as its status says, and no routine has
unlinked a node that was not linked.

A kernel routine that works for a task changes the view of that task only.  Each
routine therefore has one lemma, about one view, and the run lemma puts them
together.
-/

namespace Vmx

open Lib Util

/-- What a task sees of the queues. -/
structure View where
  status : Status
  pPendQ : Option QAddr
  waitTimeout : Nat
  ready : Nat
  tick : Nat
  pend : QAddr → Nat
  active : Nat

def view (k : Kernel) (t : TaskId) : View :=
  { status := (k.tcb t).status
    pPendQ := (k.tcb t).pPendQ
    waitTimeout := (k.tcb t).waitTimeout
    ready := (ids k.readyQHead).count t
    tick := (ids k.tickQHead).count (.task t)
    pend := fun q => (ids (k.pendQ q)).count t
    active := (ids k.activeQHead).count t }

/-- The links of a task are those of its status word. -/
structure View.Ok (v : View) : Prop where
  ready : v.ready = if v.status = TASK_READY then 1 else 0
  tick : v.tick = if v.status.delay then 1 else 0
  pend : ∀ q, v.pend q = if v.status.pend ∧ v.pPendQ = some q then 1 else 0
  active : v.active = if v.status.dead then 0 else 1
  dead : v.status.dead → v.status = TASK_DEAD
  queue : v.status.pend → v.pPendQ ≠ none
  timed : v.status.pend → (v.status.delay = true ↔ v.waitTimeout ≠ WAIT_FOREVER)

/-- A watchdog is linked in the tick queue as its status says. -/
def WdOk (k : Kernel) (w : WdogId) : Prop :=
  (ids k.tickQHead).count (.wdog w) = if (k.wdog w).status = .WDOG_IN_Q then 1 else 0

structure Coherent (k : Kernel) : Prop where
  noFault : k.fault = false
  task : ∀ t, (view k t).Ok
  wdog : ∀ w, WdOk k w

/-! ## Status words -/

theorem status_eq_ready (s : Status) :
    s = TASK_READY ↔ s.suspend = false ∧ s.pend = false ∧ s.delay = false ∧ s.dead = false := by
  cases s
  simp [TASK_READY]

theorem status_eq_suspend (s : Status) :
    s = TASK_SUSPEND ↔ s.suspend = true ∧ s.pend = false ∧ s.delay = false ∧ s.dead = false := by
  cases s
  simp [TASK_SUSPEND]

theorem status_eq_dead (s : Status) :
    s = TASK_DEAD ↔ s.suspend = false ∧ s.pend = false ∧ s.delay = false ∧ s.dead = true := by
  cases s
  simp [TASK_DEAD]

/-! ## What the single updates do to a view -/

section Count

variable {α : Type} [DecidableEq α]

theorem count_qPut (c : QClass) (q : List (α × Nat)) (x y : α) (key : Nat) :
    (ids (qPut c q x key)).count y = (ids q).count y + if y = x then 1 else 0 := by
  rw [(ids_qPut_perm c q x key).count_eq, List.count_cons]
  by_cases h : y = x
  · simp [h]
  · simp [h, Ne.symm h]

theorem count_qPrioPut (q : List (α × Nat)) (x y : α) (key : Nat) :
    (ids (qPrioPut q x key)).count y = (ids q).count y + if y = x then 1 else 0 :=
  count_qPut .prio q x y key

theorem count_qFifoPut (q : List (α × Nat)) (x y : α) (key : Nat) :
    (ids (qFifoPut q x key)).count y = (ids q).count y + if y = x then 1 else 0 :=
  count_qPut .fifo q x y key

theorem count_qMove (c : QClass) (q : List (α × Nat)) (x y : α) (key : Nat) :
    (ids (if x ∈ ids q then qMove c q x key else q)).count y = (ids q).count y := by
  split
  · rename_i h
    rw [(ids_qMove_perm c h key).count_eq]
  · rfl

theorem count_eraseId (q : List (α × Nat)) (x y : α) :
    (ids (eraseId q x)).count y = (ids q).count y - if y = x then 1 else 0 := by
  rw [ids_eraseId, List.count_erase]
  by_cases h : y = x
  · simp [h]
  · simp [h, Ne.symm h]

theorem mem_ids_iff_count (q : List (α × Nat)) (x : α) : x ∈ ids q ↔ 0 < (ids q).count x :=
  List.count_pos_iff.symm

end Count

theorem count_tickQOverflow (k : Kernel) (timeout : Nat) (n : TickNode) :
    (ids (k.tickQOverflow timeout).tickQHead).count n = (ids k.tickQHead).count n := by
  unfold Kernel.tickQOverflow
  split
  · show (ids (qPrioOffset k.tickQHead _)).count n = _
    rw [ids_qPrioOffset]
  · rfl

theorem view_tickQOverflow (k : Kernel) (timeout : Nat) (t : TaskId) :
    view (k.tickQOverflow timeout) t = view k t := by
  have hcount := count_tickQOverflow k timeout (.task t)
  unfold Kernel.tickQOverflow at hcount ⊢
  split
  · rename_i h
    rw [if_pos h] at hcount
    simp only [view] at hcount ⊢
    rw [hcount]
  · rfl

section Updates

variable (k : Kernel) (t u : TaskId)

theorem view_setStatus (f : Status → Status) :
    view (k.setStatus t f) u =
      if u = t then { view k t with status := f (view k t).status } else view k u := by
  by_cases h : u = t
  · subst h
    simp [view, Kernel.setStatus, Kernel.setTcb]
  · simp [view, Kernel.setStatus, Kernel.setTcb, h]

/-- An update of a control block that keeps the fields of the view. -/
theorem view_setTcb {f : Tcb → Tcb} (hs : ∀ c, (f c).status = c.status)
    (hq : ∀ c, (f c).pPendQ = c.pPendQ) (hw : ∀ c, (f c).waitTimeout = c.waitTimeout) :
    view (k.setTcb t f) u = view k u := by
  by_cases h : u = t
  · subst h
    simp [view, Kernel.setTcb, hs, hq, hw]
  · simp [view, Kernel.setTcb, h]

theorem view_taskRetValueSet (val : Int) : view (k.taskRetValueSet t val) u = view k u :=
  view_setTcb k t u (fun _ => rfl) (fun _ => rfl) (fun _ => rfl)

theorem view_setPendQ (q : QAddr) (timeout : Nat) :
    view (k.setTcb t fun c => { c with pPendQ := some q, waitTimeout := timeout }) u =
      if u = t then { view k t with pPendQ := some q, waitTimeout := timeout } else view k u := by
  by_cases h : u = t
  · subst h
    simp [view, Kernel.setTcb]
  · simp [view, Kernel.setTcb, h]

theorem view_readyQPut :
    view (k.readyQPut t) u =
      if u = t then { view k t with ready := (view k t).ready + 1 } else view k u := by
  simp only [view, Kernel.readyQPut, count_qPut]
  by_cases h : u = t
  · subst h
    simp
  · simp [h]

theorem view_readyQRemove :
    view (k.readyQRemove t) u =
      if u = t then { view k t with ready := (view k t).ready - 1 } else view k u := by
  simp only [view, Kernel.readyQRemove, count_eraseId]
  by_cases h : u = t
  · subst h
    simp
  · simp [h]

theorem view_readyQMove (newKey : Nat) : view (k.readyQMove t newKey) u = view k u := by
  simp only [view, Kernel.readyQMove, count_qMove]

theorem view_activeQPut :
    view (k.activeQPut t) u =
      if u = t then { view k t with active := (view k t).active + 1 } else view k u := by
  simp only [view, Kernel.activeQPut, count_qFifoPut]
  by_cases h : u = t
  · subst h
    simp
  · simp [h]

theorem view_activeQRemove :
    view (k.activeQRemove t) u =
      if u = t then { view k t with active := (view k t).active - 1 } else view k u := by
  simp only [view, Kernel.activeQRemove, count_eraseId]
  by_cases h : u = t
  · subst h
    simp
  · simp [h]

theorem view_tickQPut (timeout : Nat) :
    view (k.tickQPut (.task t) timeout) u =
      if u = t then { view k t with tick := (view k t).tick + 1 } else view k u := by
  simp only [view, Kernel.tickQPut, count_qPrioPut]
  by_cases h : u = t
  · subst h
    simp
  · simp [h]

theorem view_tickQRemove :
    view (k.tickQRemove (.task t)) u =
      if u = t then { view k t with tick := (view k t).tick - 1 } else view k u := by
  simp only [view, Kernel.tickQRemove, qPrioRemove, count_eraseId]
  by_cases h : u = t
  · subst h
    simp
  · simp [h]

theorem view_pendQNodePut (q : QAddr) :
    view (k.pendQNodePut q t) u =
      if u = t then
        { view k t with pend := fun p => (view k t).pend p + if p = q then 1 else 0 }
      else view k u := by
  by_cases h : u = t
  · subst h
    simp only [view, Kernel.pendQNodePut, if_true]
    congr 1
    funext p
    by_cases hp : p = q
    · subst hp
      simp [count_qPut]
    · simp [hp]
  · simp only [view, Kernel.pendQNodePut, h, if_false]
    congr 1
    funext p
    by_cases hp : p = q
    · subst hp
      simp [count_qPut, h]
    · simp [hp]

theorem view_pendQNodeRemove (q : QAddr) :
    view (k.pendQNodeRemove q t) u =
      if u = t then
        { view k t with pend := fun p => (view k t).pend p - if p = q then 1 else 0 }
      else view k u := by
  by_cases h : u = t
  · subst h
    simp only [view, Kernel.pendQNodeRemove, if_true]
    congr 1
    funext p
    by_cases hp : p = q
    · subst hp
      simp [count_eraseId]
    · simp [hp]
  · simp only [view, Kernel.pendQNodeRemove, h, if_false]
    congr 1
    funext p
    by_cases hp : p = q
    · subst hp
      simp [count_eraseId, h]
    · simp [hp]

theorem view_pendQNodeMove (q : QAddr) (newKey : Nat) :
    view (k.pendQNodeMove q t newKey) u = view k u := by
  simp only [view, Kernel.pendQNodeMove]
  congr 1
  funext p
  by_cases hp : p = q
  · subst hp
    simp [count_qMove]
  · simp [hp]

end Updates

/-! ## Routines that work for one task -/

/-- From `k` to `k'` only the view of `t` changes. -/
structure ActsOn (k k' : Kernel) (t : TaskId) : Prop where
  others : ∀ u, u ≠ t → view k' u = view k u
  links : ∀ w, (ids k'.tickQHead).count (.wdog w) = (ids k.tickQHead).count (.wdog w)
  wdog : k'.wdog = k.wdog

theorem ActsOn.refl (k : Kernel) (t : TaskId) : ActsOn k k t :=
  ⟨fun _ _ => rfl, fun _ => rfl, rfl⟩

theorem ActsOn.trans {k k' k'' : Kernel} {t : TaskId} (h : ActsOn k k' t) (h' : ActsOn k' k'' t) :
    ActsOn k k'' t where
  others u hu := (h'.others u hu).trans (h.others u hu)
  links w := (h'.links w).trans (h.links w)
  wdog := h'.wdog.trans h.wdog

theorem ActsOn.ite {c : Prop} [Decidable c] {k a b : Kernel} {t : TaskId} (ha : ActsOn k a t)
    (hb : ActsOn k b t) : ActsOn k (if c then a else b) t := by
  split
  · exact ha
  · exact hb

/-- A routine that changes one view keeps the kernel coherent when the new view
is right and no node was missing. -/
theorem Coherent.of_actsOn {k k' : Kernel} {t : TaskId} (h : Coherent k) (ha : ActsOn k k' t)
    (hf : k'.fault = false) (hv : (view k' t).Ok) : Coherent k' where
  noFault := hf
  task u := by
    by_cases hu : u = t
    · rw [hu]
      exact hv
    · rw [ha.others u hu]
      exact h.task u
  wdog w := by
    unfold WdOk
    rw [ha.links w, ha.wdog]
    exact h.wdog w

section Acts

variable (k : Kernel) (t : TaskId)

theorem actsOn_setStatus (f : Status → Status) : ActsOn k (k.setStatus t f) t where
  others u hu := by rw [view_setStatus, if_neg hu]
  links _ := rfl
  wdog := rfl

theorem actsOn_setTcb {f : Tcb → Tcb} (hs : ∀ c, (f c).status = c.status)
    (hq : ∀ c, (f c).pPendQ = c.pPendQ) (hw : ∀ c, (f c).waitTimeout = c.waitTimeout) :
    ActsOn k (k.setTcb t f) t where
  others u _ := view_setTcb k t u hs hq hw
  links _ := rfl
  wdog := rfl

/-- The fields of a control block that no queue depends on. -/
theorem coherent_setTcb {k : Kernel} {t : TaskId} (h : Coherent k) {f : Tcb → Tcb}
    (hs : ∀ c, (f c).status = c.status) (hq : ∀ c, (f c).pPendQ = c.pPendQ)
    (hw : ∀ c, (f c).waitTimeout = c.waitTimeout) : Coherent (k.setTcb t f) := by
  apply h.of_actsOn (actsOn_setTcb k t hs hq hw) h.noFault
  rw [view_setTcb k t t hs hq hw]
  exact h.task t

theorem actsOn_taskRetValueSet (val : Int) : ActsOn k (k.taskRetValueSet t val) t :=
  actsOn_setTcb k t (fun _ => rfl) (fun _ => rfl) (fun _ => rfl)

theorem actsOn_setPendQ (q : QAddr) (timeout : Nat) :
    ActsOn k (k.setTcb t fun c => { c with pPendQ := some q, waitTimeout := timeout }) t where
  others u hu := by rw [view_setPendQ, if_neg hu]
  links _ := rfl
  wdog := rfl

theorem actsOn_readyQPut : ActsOn k (k.readyQPut t) t where
  others u hu := by rw [view_readyQPut, if_neg hu]
  links _ := rfl
  wdog := rfl

theorem actsOn_readyQRemove : ActsOn k (k.readyQRemove t) t where
  others u hu := by rw [view_readyQRemove, if_neg hu]
  links _ := rfl
  wdog := rfl

theorem actsOn_readyQMove (newKey : Nat) : ActsOn k (k.readyQMove t newKey) t where
  others u _ := view_readyQMove k t u newKey
  links _ := rfl
  wdog := rfl

theorem actsOn_activeQPut : ActsOn k (k.activeQPut t) t where
  others u hu := by rw [view_activeQPut, if_neg hu]
  links _ := rfl
  wdog := rfl

theorem actsOn_activeQRemove : ActsOn k (k.activeQRemove t) t where
  others u hu := by rw [view_activeQRemove, if_neg hu]
  links _ := rfl
  wdog := rfl

theorem actsOn_pendQNodePut (q : QAddr) : ActsOn k (k.pendQNodePut q t) t where
  others u hu := by rw [view_pendQNodePut, if_neg hu]
  links _ := rfl
  wdog := rfl

theorem actsOn_pendQNodeRemove (q : QAddr) : ActsOn k (k.pendQNodeRemove q t) t where
  others u hu := by rw [view_pendQNodeRemove, if_neg hu]
  links _ := rfl
  wdog := rfl

theorem actsOn_pendQNodeMove (q : QAddr) (newKey : Nat) :
    ActsOn k (k.pendQNodeMove q t newKey) t where
  others u _ := view_pendQNodeMove k t u q newKey
  links _ := rfl
  wdog := rfl

theorem actsOn_tickQOverflow (timeout : Nat) : ActsOn k (k.tickQOverflow timeout) t where
  others u _ := view_tickQOverflow k timeout u
  links w := count_tickQOverflow k timeout (.wdog w)
  wdog := by
    unfold Kernel.tickQOverflow
    split <;> rfl

theorem actsOn_tickQPut (timeout : Nat) : ActsOn k (k.tickQPut (.task t) timeout) t where
  others u hu := by rw [view_tickQPut, if_neg hu]
  links w := by simp [Kernel.tickQPut, count_qPrioPut]
  wdog := rfl

theorem actsOn_tickQRemove : ActsOn k (k.tickQRemove (.task t)) t where
  others u hu := by rw [view_tickQRemove, if_neg hu]
  links w := by simp [Kernel.tickQRemove, qPrioRemove, count_eraseId]
  wdog := rfl

theorem actsOn_fault : ActsOn k { k with fault := true } t := ⟨fun _ _ => rfl, fun _ => rfl, rfl⟩

theorem actsOn_cancelDelay : ActsOn k (cancelDelay k t) t :=
  ActsOn.ite ((actsOn_setStatus k t _).trans (actsOn_tickQRemove _ t)) (ActsOn.refl k t)

theorem actsOn_putIfReady : ActsOn k (putIfReady k t) t :=
  ActsOn.ite (actsOn_readyQPut k t) (ActsOn.refl k t)

theorem actsOn_vmxPendQRemove : ActsOn k (vmxPendQRemove k t) t := by
  refine ActsOn.trans (ActsOn.trans ?_ (actsOn_setStatus _ t _)) (actsOn_cancelDelay _ t)
  split
  · exact actsOn_fault k t
  · exact actsOn_pendQNodeRemove k t _

theorem actsOn_vmxReadyQPut : ActsOn k (vmxReadyQPut k t) t :=
  (((actsOn_setStatus k t _).trans (actsOn_taskRetValueSet _ t _)).trans
    (actsOn_cancelDelay _ t)).trans (actsOn_putIfReady _ t)

theorem actsOn_pendTimeout (timeout : Nat) : ActsOn k (pendTimeout k t timeout) t :=
  ActsOn.ite (((actsOn_tickQOverflow k t timeout).trans (actsOn_tickQPut _ t timeout)).trans
    (actsOn_setStatus _ t _)) (ActsOn.refl k t)

theorem actsOn_taskTimeout : ActsOn k (taskTimeout k t) t := by
  refine ActsOn.ite (actsOn_taskRetValueSet _ t _) (ActsOn.ite ?_ (ActsOn.refl _ t))
  exact ((actsOn_vmxPendQRemove _ t).trans (actsOn_taskRetValueSet _ t _)).trans
    (actsOn_setTcb _ t (fun _ => rfl) (fun _ => rfl) (fun _ => rfl))

theorem actsOn_taskExpired : ActsOn k (taskExpired k t) t :=
  ((actsOn_setStatus k t fun s => { s with delay := false }).trans (actsOn_taskTimeout _ t)).trans
    (actsOn_putIfReady _ t)

end Acts

/-! ## No node is missing -/

section Fault

variable {k : Kernel} {t : TaskId}

theorem fault_readyQRemove (h : 0 < (view k t).ready) : (k.readyQRemove t).fault = k.fault := by
  have hmem : t ∈ ids k.readyQHead := (mem_ids_iff_count _ _).2 h
  simp [Kernel.readyQRemove, hmem]

theorem fault_readyQMove (h : 0 < (view k t).ready) (newKey : Nat) :
    (k.readyQMove t newKey).fault = k.fault := by
  have hmem : t ∈ ids k.readyQHead := (mem_ids_iff_count _ _).2 h
  simp [Kernel.readyQMove, hmem]

theorem fault_activeQRemove (h : 0 < (view k t).active) : (k.activeQRemove t).fault = k.fault := by
  have hmem : t ∈ ids k.activeQHead := (mem_ids_iff_count _ _).2 h
  simp [Kernel.activeQRemove, hmem]

theorem fault_tickQRemove (h : 0 < (view k t).tick) :
    (k.tickQRemove (.task t)).fault = k.fault := by
  have hmem : TickNode.task t ∈ ids k.tickQHead := (mem_ids_iff_count _ _).2 h
  simp [Kernel.tickQRemove, hmem]

theorem fault_pendQNodeRemove {q : QAddr} (h : 0 < (view k t).pend q) :
    (k.pendQNodeRemove q t).fault = k.fault := by
  have hmem : t ∈ ids (k.pendQ q) := (mem_ids_iff_count _ _).2 h
  simp [Kernel.pendQNodeRemove, hmem]

theorem fault_pendQNodeMove {q : QAddr} (h : 0 < (view k t).pend q) (newKey : Nat) :
    (k.pendQNodeMove q t newKey).fault = k.fault := by
  have hmem : t ∈ ids (k.pendQ q) := (mem_ids_iff_count _ _).2 h
  simp [Kernel.pendQNodeMove, hmem]

theorem fault_tickQOverflow (timeout : Nat) : (k.tickQOverflow timeout).fault = k.fault := by
  unfold Kernel.tickQOverflow
  split <;> rfl

theorem fault_putIfReady : (putIfReady k t).fault = k.fault := by
  unfold putIfReady
  split <;> rfl

theorem fault_cancelDelay (h : (view k t).status.delay → 0 < (view k t).tick) :
    (cancelDelay k t).fault = k.fault := by
  unfold cancelDelay
  split
  · rename_i hd
    rw [fault_tickQRemove]
    · rfl
    · rw [view_setStatus, if_pos rfl]
      exact h hd
  · rfl

theorem fault_pendTimeout (timeout : Nat) : (pendTimeout k t timeout).fault = k.fault := by
  unfold pendTimeout
  split
  · exact fault_tickQOverflow timeout
  · rfl

end Fault

/-! ## The tails of the wake-up routines on a view -/

def View.cancelDelay (v : View) : View :=
  if v.status.delay then { v with tick := v.tick - 1, status := { v.status with delay := false } }
  else v

def View.putIfReady (v : View) : View :=
  if v.status = TASK_READY then { v with ready := v.ready + 1 } else v

theorem view_cancelDelay (k : Kernel) (t : TaskId) :
    view (cancelDelay k t) t = (view k t).cancelDelay := by
  unfold cancelDelay View.cancelDelay
  split
  · rename_i hd
    rw [view_tickQRemove, if_pos rfl, view_setStatus, if_pos rfl]
    rw [if_pos (show (view k t).status.delay = true from hd)]
  · rename_i hd
    rw [if_neg (show ¬ (view k t).status.delay = true from hd)]

theorem view_putIfReady (k : Kernel) (t : TaskId) :
    view (putIfReady k t) t = (view k t).putIfReady := by
  unfold putIfReady View.putIfReady
  split
  · rename_i hr
    rw [view_readyQPut, if_pos rfl, if_pos (show (view k t).status = TASK_READY from hr)]
  · rename_i hr
    rw [if_neg (show ¬ (view k t).status = TASK_READY from hr)]

/-- A task that leaves a queue it was linked in once: with the flags that are
left it is linked as it should be. -/
theorem View.ok_wake {v : View} (hready : v.ready = 0)
    (htick : v.tick = if v.status.delay then 1 else 0) (hpend : ∀ q, v.pend q = 0)
    (hflag : v.status.pend = false) (hactive : v.active = 1) (hdead : v.status.dead = false) :
    v.cancelDelay.putIfReady.Ok := by
  unfold View.cancelDelay View.putIfReady
  by_cases hd : v.status.delay = true <;> by_cases hs : v.status.suspend = true
  all_goals
    refine ⟨?_, ?_, ?_, ?_, ?_, ?_, ?_⟩ <;> simp_all [status_eq_ready]

/-! ## The routines keep the kernel coherent -/

section Routines

variable {k : Kernel} {t : TaskId}

theorem coherent_vmxSpawn (h : Coherent k) (hl : ¬ live k t) (priority : Nat) :
    Coherent (vmxSpawn (k.setTcb t fun _ => tcbInit priority) t) := by
  have hv := h.task t
  have hdead : (view k t).status.dead = true := by
    unfold live at hl
    simpa [view] using hl
  have hst := hv.dead hdead
  have hinit : ∀ u, view (k.setTcb t fun _ => tcbInit priority) u =
      if u = t then { view k t with status := TASK_SUSPEND, pPendQ := none, waitTimeout := 0 }
      else view k u := by
    intro u
    by_cases hu : u = t
    · subst hu
      simp [view, Kernel.setTcb, tcbInit]
    · simp [view, Kernel.setTcb, hu]
  have hacts : ActsOn k (k.setTcb t fun _ => tcbInit priority) t :=
    ⟨fun u hu => by rw [hinit, if_neg hu], fun _ => rfl, rfl⟩
  refine h.of_actsOn (hacts.trans (actsOn_activeQPut _ t)) h.noFault ?_
  show (view (Kernel.activeQPut _ t) t).Ok
  rw [view_activeQPut, if_pos rfl, hinit, if_pos rfl]
  obtain ⟨h1, h2, h3, h4, -, -, -⟩ := hv
  rw [hst] at h1 h2 h3 h4
  refine ⟨?_, ?_, ?_, ?_, ?_, ?_, ?_⟩ <;>
    simp_all [TASK_DEAD, TASK_READY, TASK_SUSPEND]

theorem coherent_vmxSuspend (h : Coherent k) (hl : live k t) : Coherent (vmxSuspend k t) := by
  obtain ⟨h1, h2, h3, h4, h5, h6, h7⟩ := h.task t
  have hlive : (view k t).status.dead = false := hl
  unfold vmxSuspend
  split
  · rename_i hr
    replace hr := (status_eq_ready (view k t).status).1 hr
    refine h.of_actsOn ((actsOn_readyQRemove k t).trans (actsOn_setStatus _ t _)) ?_ ?_
    · exact (fault_readyQRemove (by simp [h1, status_eq_ready, hr])).trans h.noFault
    · rw [view_setStatus, if_pos rfl, view_readyQRemove, if_pos rfl]
      refine ⟨?_, ?_, ?_, ?_, ?_, ?_, ?_⟩ <;> simp_all [status_eq_ready]
  · rename_i hr
    replace hr := mt (status_eq_ready (view k t).status).2 hr
    refine h.of_actsOn (actsOn_setStatus k t _) h.noFault ?_
    rw [view_setStatus, if_pos rfl]
    refine ⟨?_, ?_, ?_, ?_, ?_, ?_, ?_⟩ <;> simp_all [status_eq_ready]

theorem coherent_vmxResume (h : Coherent k) (hl : live k t) : Coherent (vmxResume k t) := by
  obtain ⟨h1, h2, h3, h4, h5, h6, h7⟩ := h.task t
  have hlive : (view k t).status.dead = false := hl
  unfold vmxResume
  split
  · rename_i hr
    replace hr := (status_eq_suspend (view k t).status).1 hr
    refine h.of_actsOn ((actsOn_readyQPut k t).trans (actsOn_setStatus _ t _)) h.noFault ?_
    rw [view_setStatus, if_pos rfl, view_readyQPut, if_pos rfl]
    refine ⟨?_, ?_, ?_, ?_, ?_, ?_, ?_⟩ <;> simp_all [status_eq_ready]
  · rename_i hr
    replace hr := mt (status_eq_suspend (view k t).status).2 hr
    refine h.of_actsOn (actsOn_setStatus k t _) h.noFault ?_
    rw [view_setStatus, if_pos rfl]
    refine ⟨?_, ?_, ?_, ?_, ?_, ?_, ?_⟩ <;> simp_all [status_eq_ready]
    -- the task is ready and stays ready, or another flag than suspend is set
    grind

theorem coherent_vmxPrioritySet (h : Coherent k) (priority : Nat) :
    Coherent (vmxPrioritySet k t priority) := by
  have hset : ActsOn k (k.setTcb t fun c => { c with priority := priority }) t :=
    actsOn_setTcb k t (fun _ => rfl) (fun _ => rfl) (fun _ => rfl)
  have hview : view (k.setTcb t fun c => { c with priority := priority }) t = view k t :=
    view_setTcb k t t (fun _ => rfl) (fun _ => rfl) (fun _ => rfl)
  have hf : (k.setTcb t fun c => { c with priority := priority }).fault = false := h.noFault
  have hv := h.task t
  unfold vmxPrioritySet
  generalize k.setTcb t (fun c => { c with priority := priority }) = k1 at hset hview hf ⊢
  rw [← hview] at hv
  dsimp only
  split
  · rename_i hr
    refine h.of_actsOn (hset.trans (actsOn_readyQMove k1 t priority)) ?_ ?_
    · rw [fault_readyQMove, hf]
      rw [hv.ready, if_pos (show (view k1 t).status = TASK_READY from hr)]
      exact Nat.one_pos
    · rw [view_readyQMove]
      exact hv
  · split
    · rename_i hp
      split
      · rename_i hnone
        exact absurd hnone (hv.queue hp)
      · rename_i q hq
        refine h.of_actsOn (hset.trans (actsOn_pendQNodeMove k1 t q priority)) ?_ ?_
        · rw [fault_pendQNodeMove, hf]
          rw [hv.pend, if_pos ⟨hp, hq⟩]
          exact Nat.one_pos
        · rw [view_pendQNodeMove]
          exact hv
    · exact h.of_actsOn hset hf hv

/-- A task with another flag than dead set is not dead. -/
theorem View.Ok.live_of_flag {v : View} (hv : v.Ok)
    (h : v.status.pend = true ∨ v.status.delay = true ∨ v.status.suspend = true) :
    v.status.dead = false := by
  by_contra hd
  have hst := (status_eq_dead _).1 (hv.dead (by simpa using hd))
  rcases h with h | h | h <;> simp_all

/-- A pended task leaves its queue: the node is there, and it was linked in no
other pend queue. -/
theorem leave_pendQ {v : View} (hv : v.Ok) (hk : (view k t).pend = v.pend)
    (hp : v.status.pend = true) {q : QAddr} (hq : v.pPendQ = some q) :
    (k.pendQNodeRemove q t).fault = k.fault ∧
      view (k.pendQNodeRemove q t) t = { view k t with pend := fun _ => 0 } := by
  have hpend : (fun p => (view k t).pend p - if p = q then 1 else 0) = fun _ => 0 := by
    funext p
    rw [hk, hv.pend, hq]
    by_cases hpq : p = q
    · simp [hpq, hp]
    · simp [hpq, Ne.symm hpq]
  refine ⟨fault_pendQNodeRemove ?_, ?_⟩
  · rw [hk, hv.pend, if_pos ⟨hp, hq⟩]
    exact Nat.one_pos
  · rw [view_pendQNodeRemove, if_pos rfl, hpend]

/-- The wake-up of a pended task: it leaves its queue, the pend flag is cleared
(by some updates of its control block that lead to `k2`), the timeout is
cancelled and the task is put on the ready queue if no flag is left. -/
theorem Coherent.wake (h : Coherent k) (hp : (view k t).status.pend = true) {q : QAddr}
    (hq : (view k t).pPendQ = some q) {k2 : Kernel} (ha : ActsOn (k.pendQNodeRemove q t) k2 t)
    (hf : k2.fault = (k.pendQNodeRemove q t).fault)
    (hview : view k2 t = { view (k.pendQNodeRemove q t) t with
      status := { (view (k.pendQNodeRemove q t) t).status with pend := false } }) :
    Coherent (putIfReady (cancelDelay k2 t) t) := by
  have hv := h.task t
  obtain ⟨hf1, hv1⟩ := leave_pendQ hv rfl hp hq
  rw [hv1] at hview
  have hdead := hv.live_of_flag (Or.inl hp)
  have hacts := (((actsOn_pendQNodeRemove k t q).trans ha).trans
    (actsOn_cancelDelay k2 t)).trans (actsOn_putIfReady _ t)
  refine h.of_actsOn hacts ?_ ?_
  · rw [fault_putIfReady, fault_cancelDelay, hf, hf1, h.noFault]
    rw [hview]
    intro hd
    show 0 < (view k t).tick
    rw [hv.tick, if_pos hd]
    exact Nat.one_pos
  · rw [view_putIfReady, view_cancelDelay, hview]
    have hnot : ¬ (view k t).status = TASK_READY := by
      rw [status_eq_ready]
      simp [hp]
    refine View.ok_wake ?_ hv.tick (fun _ => rfl) rfl ?_ hdead
    · exact hv.ready.trans (if_neg hnot)
    · exact hv.active.trans (if_neg (by simp [hdead]))

theorem coherent_vmxReadyQPut (h : Coherent k) (hp : (view k t).status.pend = true) {q : QAddr}
    (hq : (view k t).pPendQ = some q) : Coherent (vmxReadyQPut (k.pendQNodeRemove q t) t) := by
  refine h.wake hp hq ((actsOn_setStatus _ t _).trans (actsOn_taskRetValueSet _ t _)) rfl ?_
  rw [view_taskRetValueSet, view_setStatus, if_pos rfl]

/-- `Q_GET` of the first node is `Q_REMOVE` of that node. -/
theorem pendQGet_eq_remove {q : QAddr} {node : TaskId × Nat} {rest : List (TaskId × Nat)}
    (hq : k.pendQ q = node :: rest) :
    { k with pendQ := Function.update k.pendQ q rest } = k.pendQNodeRemove q node.1 := by
  have herase : eraseId (node :: rest) node.1 = rest := by rw [eraseId_cons, if_pos rfl]
  simp [Kernel.pendQNodeRemove, hq, herase]

/-- The tasks of a pend queue are pended on it. -/
theorem Coherent.of_mem_pendQ (h : Coherent k) {q : QAddr} (ht : t ∈ ids (k.pendQ q)) :
    (view k t).status.pend = true ∧ (view k t).pPendQ = some q := by
  have hpos : 0 < (view k t).pend q := (mem_ids_iff_count _ _).1 ht
  rw [(h.task t).pend] at hpos
  by_contra hne
  rw [if_neg hne] at hpos
  exact Nat.lt_irrefl 0 hpos

theorem coherent_vmxPendQGet (h : Coherent k) {q : QAddr} (hq : k.pendQ q ≠ []) :
    Coherent (vmxPendQGet k q) := by
  obtain ⟨node, rest, hcons⟩ := List.exists_cons_of_ne_nil hq
  have hmem : node.1 ∈ ids (k.pendQ q) := by
    rw [hcons]
    exact List.mem_cons_self
  obtain ⟨hp, hpq⟩ := h.of_mem_pendQ hmem
  unfold vmxPendQGet
  rw [hcons]
  show Coherent (vmxReadyQPut { k with pendQ := Function.update k.pendQ q rest } node.1)
  rw [pendQGet_eq_remove hcons]
  exact coherent_vmxReadyQPut h hp hpq

theorem coherent_pendQTerminateGet (h : Coherent k) {q : QAddr} (hq : k.pendQ q ≠ []) :
    Coherent (pendQTerminateGet k q) := by
  obtain ⟨node, rest, hcons⟩ := List.exists_cons_of_ne_nil hq
  have hmem : node.1 ∈ ids (k.pendQ q) := by
    rw [hcons]
    exact List.mem_cons_self
  obtain ⟨hp, hpq⟩ := h.of_mem_pendQ hmem
  unfold pendQTerminateGet
  rw [hcons]
  dsimp only
  rw [pendQGet_eq_remove hcons]
  refine h.wake hp hpq (((actsOn_setStatus _ _ _).trans
    (actsOn_setTcb _ _ (f := fun c => { c with errorStatus := TASK_DELETED }) (fun _ => rfl) (fun _ => rfl) (fun _ => rfl))).trans (actsOn_taskRetValueSet _ _ _)) rfl ?_
  rw [view_taskRetValueSet, view_setTcb _ _ _ (f := fun c => { c with errorStatus := TASK_DELETED })
    (fun _ => rfl) (fun _ => rfl) (fun _ => rfl), view_setStatus, if_pos rfl]

/-- The caller's half of `vmxPendQRemove`: the task is put on the ready queue if
no flag is left. -/
theorem coherent_vmxPendQRemove (h : Coherent k) (hp : (view k t).status.pend = true) :
    Coherent (putIfReady (vmxPendQRemove k t) t) := by
  obtain ⟨q, hq⟩ := Option.ne_none_iff_exists'.1 ((h.task t).queue hp)
  have hq' : (k.tcb t).pPendQ = some q := hq
  unfold vmxPendQRemove
  rw [hq']
  refine h.wake hp hq (actsOn_setStatus _ t _) rfl ?_
  rw [view_setStatus, if_pos rfl]

/-- `vmxPendQRemove` of a task that may already have left the tick queue: the
view is right but for the delay flag and the tick queue. -/
theorem vmxPendQRemove_view {v : View} (hv : v.Ok) (hp : v.status.pend = true)
    (hpend : (view k t).pend = v.pend) (hpq : (view k t).pPendQ = v.pPendQ)
    (htick : (view k t).tick = if (view k t).status.delay then 1 else 0) :
    (vmxPendQRemove k t).fault = k.fault ∧
      view (vmxPendQRemove k t) t =
        View.cancelDelay { view k t with
          status := { (view k t).status with pend := false }
          pend := fun _ => 0 } := by
  obtain ⟨q, hq⟩ := Option.ne_none_iff_exists'.1 (hv.queue hp)
  have hq' : (k.tcb t).pPendQ = some q := hpq.trans hq
  obtain ⟨hf1, hv1⟩ := leave_pendQ hv hpend hp hq
  unfold vmxPendQRemove
  rw [hq']
  dsimp only
  rw [view_cancelDelay, fault_cancelDelay]
  · refine ⟨hf1, ?_⟩
    rw [view_setStatus, if_pos rfl, hv1]
  · rw [view_setStatus, if_pos rfl, hv1]
    intro hd
    show 0 < (view k t).tick
    rw [htick, if_pos hd]
    exact Nat.one_pos

/-- The last two steps of `vmxDelete`, for a task that is only linked as active. -/
theorem Coherent.bury (h : Coherent k) {k2 : Kernel} (ha : ActsOn k k2 t) (hf : k2.fault = false)
    (hready : (view k2 t).ready = 0) (htick : (view k2 t).tick = 0)
    (hpend : ∀ q, (view k2 t).pend q = 0) (hactive : (view k2 t).active = 1) :
    Coherent ((k2.activeQRemove t).setStatus t fun _ => TASK_DEAD) := by
  refine h.of_actsOn ((ha.trans (actsOn_activeQRemove k2 t)).trans (actsOn_setStatus _ t _)) ?_ ?_
  · refine (fault_activeQRemove ?_).trans hf
    rw [hactive]
    exact Nat.one_pos
  · rw [view_setStatus, if_pos rfl, view_activeQRemove, if_pos rfl]
    refine ⟨?_, ?_, ?_, ?_, ?_, ?_, ?_⟩ <;> simp_all [TASK_DEAD, TASK_READY]

theorem coherent_vmxDelete (h : Coherent k) (hl : live k t) : Coherent (vmxDelete k t) := by
  have hv := h.task t
  have hlive : (view k t).status.dead = false := hl
  have hactive : (view k t).active = 1 := hv.active.trans (if_neg (by simp [hlive]))
  unfold vmxDelete
  split
  · -- the task is ready
    rename_i hr
    have hr' : (view k t).status = TASK_READY := hr
    have hready : (view k t).ready = 1 := hv.ready.trans (if_pos hr')
    have hview : view (k.readyQRemove t) t = { view k t with ready := 0 } := by
      rw [view_readyQRemove, if_pos rfl, hready]
    refine h.bury (actsOn_readyQRemove k t) ?_ ?_ ?_ ?_ ?_
    · rw [fault_readyQRemove, h.noFault]
      rw [hready]
      exact Nat.one_pos
    · rw [hview]
    · rw [hview]
      show (view k t).tick = 0
      rw [hv.tick, hr']
      rfl
    · intro q
      rw [hview]
      show (view k t).pend q = 0
      rw [hv.pend, hr']
      simp [TASK_READY]
    · rw [hview]
      exact hactive
  · rename_i hr
    have hr' : ¬ (view k t).status = TASK_READY := hr
    have hready : (view k t).ready = 0 := hv.ready.trans (if_neg hr')
    by_cases hp : (view k t).status.pend = true
    · -- it is pended: `vmxPendQRemove` also cancels the timeout
      obtain ⟨hf1, hv1⟩ := vmxPendQRemove_view hv hp rfl rfl hv.tick
      have hnodelay : ((vmxPendQRemove k t).tcb t).status.delay = false := by
        show (view (vmxPendQRemove k t) t).status.delay = false
        rw [hv1, View.cancelDelay]
        split
        · rfl
        · rename_i hd
          simpa using hd
      have hp' : (k.tcb t).status.pend = true := hp
      dsimp only
      rw [if_pos hp', hnodelay, if_neg (by simp)]
      have htick := hv.tick
      refine h.bury (actsOn_vmxPendQRemove k t) (hf1.trans h.noFault) ?_ ?_ ?_ ?_
      all_goals rw [hv1, View.cancelDelay]
      all_goals by_cases hd : (view k t).status.delay = true <;> simp_all
    · have hp' : ¬ (k.tcb t).status.pend = true := hp
      dsimp only
      rw [if_neg hp']
      have hpend : ∀ q, (view k t).pend q = 0 := fun q => by
        rw [hv.pend, if_neg (fun hh => hp hh.1)]
      split
      · rename_i hd
        have htick : (view k t).tick = 1 := hv.tick.trans (if_pos hd)
        refine h.bury (actsOn_tickQRemove k t) ?_ ?_ ?_ ?_ ?_
        · rw [fault_tickQRemove, h.noFault]
          rw [htick]
          exact Nat.one_pos
        all_goals rw [view_tickQRemove, if_pos rfl]
        · exact hready
        · show (view k t).tick - 1 = 0
          rw [htick]
        · exact hpend
        · exact hactive
      · rename_i hd
        exact h.bury (ActsOn.refl k t) h.noFault hready (hv.tick.trans (if_neg hd)) hpend hactive

theorem coherent_vmxPendQFlush (h : Coherent k) (q : QAddr) : Coherent (vmxPendQFlush k q) := by
  have hloop : ∀ (n : Nat) (k : Kernel), Coherent k → (k.pendQ q).length = n →
      Coherent (vmxPendQFlushLoop k q n) := by
    intro n
    induction n with
    | zero =>
      intro k h _
      exact h
    | succ n ih =>
      intro k h hn
      refine ih _ (coherent_vmxPendQGet h ?_) ?_
      · intro hnil
        rw [hnil] at hn
        simp at hn
      · rw [pendQ_vmxPendQGet, Function.update_self, List.length_tail, hn]
        rfl
  exact hloop _ k h rfl

theorem coherent_vmxPendQTerminate (h : Coherent k) (q : QAddr) :
    Coherent (vmxPendQTerminate k q) := by
  have hloop : ∀ (n : Nat) (k : Kernel), Coherent k → (k.pendQ q).length = n →
      Coherent (vmxPendQTerminateLoop k q n) := by
    intro n
    induction n with
    | zero =>
      intro k h _
      exact h
    | succ n ih =>
      intro k h hn
      refine ih _ (coherent_pendQTerminateGet h ?_) ?_
      · intro hnil
        rw [hnil] at hn
        simp at hn
      · rw [pendQ_pendQTerminateGet, Function.update_self, List.length_tail, hn]
        rfl
  exact hloop _ k h rfl

/-- The running task is linked in the ready queue and as active, and nowhere
else. -/
theorem view_of_ready (hv : (view k t).Ok) (hr : (view k t).status = TASK_READY) :
    (view k t).ready = 1 ∧ (view k t).tick = 0 ∧ (∀ q, (view k t).pend q = 0) ∧
      (view k t).active = 1 := by
  refine ⟨hv.ready.trans (if_pos hr), ?_, ?_, ?_⟩
  · rw [hv.tick, hr]
    rfl
  · intro q
    rw [hv.pend, hr]
    simp [TASK_READY]
  · rw [hv.active, hr]
    rfl

theorem coherent_vmxDelay (h : Coherent k) (hr : running k) (timeout : Nat) :
    Coherent (vmxDelay k timeout) := by
  have hst : (view k k.taskIdCurrent).status = TASK_READY := hr
  obtain ⟨h1, h2, h3, h4⟩ := view_of_ready (h.task _) hst
  unfold vmxDelay
  refine h.of_actsOn (t := k.taskIdCurrent) ?_ ?_ ?_
  · exact (((actsOn_readyQRemove k _).trans (actsOn_tickQOverflow _ _ timeout)).trans
      (actsOn_tickQPut _ _ timeout)).trans
        (actsOn_setStatus _ _ fun s => { s with delay := true })
  · refine (fault_tickQOverflow timeout).trans ((fault_readyQRemove ?_).trans h.noFault)
    rw [h1]
    exact Nat.one_pos
  · dsimp only
    rw [view_setStatus, if_pos rfl, view_tickQPut, if_pos rfl, view_tickQOverflow,
      view_readyQRemove, if_pos rfl]
    refine ⟨?_, ?_, ?_, ?_, ?_, ?_, ?_⟩ <;> simp_all [TASK_READY]

theorem view_pendTimeout (k : Kernel) (t : TaskId) (timeout : Nat) :
    view (pendTimeout k t timeout) t =
      if timeout ≠ WAIT_FOREVER then
        { view k t with
          tick := (view k t).tick + 1
          status := { (view k t).status with delay := true } }
      else view k t := by
  unfold pendTimeout
  split
  · rw [view_setStatus, if_pos rfl, view_tickQPut, if_pos rfl, view_tickQOverflow]
  · rfl

theorem coherent_vmxPendQPut (h : Coherent k) (hr : running k) (q : QAddr) (timeout : Nat) :
    Coherent (vmxPendQPut k q timeout) := by
  have hst : (view k k.taskIdCurrent).status = TASK_READY := hr
  obtain ⟨h1, h2, h3, h4⟩ := view_of_ready (h.task _) hst
  refine h.of_actsOn (t := k.taskIdCurrent) ?_ ?_ ?_
  · exact ((((actsOn_readyQRemove k _).trans (actsOn_setStatus _ _ _)).trans
      (actsOn_setPendQ _ _ q timeout)).trans (actsOn_pendQNodePut _ _ q)).trans
        (actsOn_pendTimeout _ _ timeout)
  · refine (fault_pendTimeout timeout).trans ((fault_readyQRemove ?_).trans h.noFault)
    rw [h1]
    exact Nat.one_pos
  · show (view (pendTimeout _ k.taskIdCurrent timeout) k.taskIdCurrent).Ok
    rw [view_pendTimeout, view_pendQNodePut, if_pos rfl, view_setPendQ, if_pos rfl,
      view_setStatus, if_pos rfl, view_readyQRemove, if_pos rfl]
    have hpend : ∀ p, (view k k.taskIdCurrent).pend p + (if p = q then 1 else 0) =
        if some q = some p then 1 else 0 := by
      intro p
      by_cases hp : p = q
      · simp [hp, h3]
      · simp [hp, h3, Ne.symm hp]
    split <;> refine ⟨?_, ?_, ?_, ?_, ?_, ?_, ?_⟩ <;> simp_all [TASK_READY]

/-- `vmxReadyQRemove` with the caller's half: the task links itself. -/
theorem coherent_vmxReadyQRemove (h : Coherent k) (hr : running k) (q : QAddr) (timeout : Nat) :
    Coherent ((vmxReadyQRemove k q timeout).pendQNodePut q k.taskIdCurrent) := by
  have hst : (view k k.taskIdCurrent).status = TASK_READY := hr
  obtain ⟨h1, h2, h3, h4⟩ := view_of_ready (h.task _) hst
  refine h.of_actsOn (t := k.taskIdCurrent) ?_ ?_ ?_
  · exact ((((actsOn_readyQRemove k _).trans (actsOn_setStatus _ _ _)).trans
      (actsOn_setPendQ _ _ q timeout)).trans (actsOn_pendTimeout _ _ timeout)).trans
        (actsOn_pendQNodePut _ _ q)
  · refine (fault_pendTimeout timeout).trans ((fault_readyQRemove ?_).trans h.noFault)
    rw [h1]
    exact Nat.one_pos
  · show (view (Kernel.pendQNodePut (pendTimeout _ k.taskIdCurrent timeout) q k.taskIdCurrent)
      k.taskIdCurrent).Ok
    rw [view_pendQNodePut, if_pos rfl, view_pendTimeout, view_setPendQ, if_pos rfl,
      view_setStatus, if_pos rfl, view_readyQRemove, if_pos rfl]
    have hpend : ∀ p, (view k k.taskIdCurrent).pend p + (if p = q then 1 else 0) =
        if some q = some p then 1 else 0 := by
      intro p
      by_cases hp : p = q
      · simp [hp, h3]
      · simp [hp, h3, Ne.symm hp]
    split <;> refine ⟨?_, ?_, ?_, ?_, ?_, ?_, ?_⟩ <;> simp_all [TASK_READY]

end Routines

/-! ## Watchdogs -/

/-- From `k` to `k'` only the watchdog `w` changes. -/
structure ActsOnWd (k k' : Kernel) (w : WdogId) : Prop where
  task : ∀ t, view k' t = view k t
  others : ∀ v, v ≠ w → (ids k'.tickQHead).count (.wdog v) = (ids k.tickQHead).count (.wdog v) ∧
    k'.wdog v = k.wdog v

theorem ActsOnWd.trans {k k' k'' : Kernel} {w : WdogId} (h : ActsOnWd k k' w)
    (h' : ActsOnWd k' k'' w) : ActsOnWd k k'' w where
  task t := (h'.task t).trans (h.task t)
  others v hv :=
    ⟨(h'.others v hv).1.trans (h.others v hv).1, (h'.others v hv).2.trans (h.others v hv).2⟩

theorem Coherent.of_actsOnWd {k k' : Kernel} {w : WdogId} (h : Coherent k) (ha : ActsOnWd k k' w)
    (hf : k'.fault = false) (hw : WdOk k' w) : Coherent k' where
  noFault := hf
  task t := by
    rw [ha.task t]
    exact h.task t
  wdog v := by
    by_cases hv : v = w
    · rw [hv]
      exact hw
    · unfold WdOk
      rw [(ha.others v hv).1, (ha.others v hv).2]
      exact h.wdog v

section Watchdogs

variable (k : Kernel) (w : WdogId)

theorem actsOnWd_setWdog (f : Wdog → Wdog) : ActsOnWd k (k.setWdog w f) w where
  task _ := rfl
  others v hv := by
    refine ⟨rfl, ?_⟩
    simp [Kernel.setWdog, hv]

theorem actsOnWd_tickQOverflow (timeout : Nat) : ActsOnWd k (k.tickQOverflow timeout) w where
  task t := view_tickQOverflow k timeout t
  others v _ := by
    refine ⟨count_tickQOverflow k timeout (.wdog v), ?_⟩
    unfold Kernel.tickQOverflow
    split <;> rfl

theorem actsOnWd_tickQPut (timeout : Nat) : ActsOnWd k (k.tickQPut (.wdog w) timeout) w where
  task t := by simp [view, Kernel.tickQPut, count_qPrioPut]
  others v hv := by simp [Kernel.tickQPut, count_qPrioPut, hv]

theorem count_tickQMove (timeout : Nat) (n m : TickNode) :
    (ids (k.tickQMove n timeout).tickQHead).count m = (ids k.tickQHead).count m :=
  count_qMove .prio k.tickQHead n m _

theorem actsOnWd_tickQMove (timeout : Nat) : ActsOnWd k (k.tickQMove (.wdog w) timeout) w where
  task t := by
    unfold view
    rw [count_tickQMove]
    rfl
  others v _ := ⟨count_tickQMove k timeout _ _, rfl⟩

theorem actsOnWd_tickQRemove : ActsOnWd k (k.tickQRemove (.wdog w)) w where
  task t := by simp [view, Kernel.tickQRemove, qPrioRemove, count_eraseId]
  others v hv := by simp [Kernel.tickQRemove, qPrioRemove, count_eraseId, hv]

variable {k w}

theorem wdog_mem_tickQ (h : Coherent k) :
    TickNode.wdog w ∈ ids k.tickQHead ↔ (k.wdog w).status = .WDOG_IN_Q := by
  rw [mem_ids_iff_count, h.wdog w]
  split <;> simp_all

theorem coherent_wdStartDefer (h : Coherent k) : Coherent (wdStartDefer k w) := by
  refine h.of_actsOnWd (actsOnWd_setWdog k w _) h.noFault ?_
  have hw := h.wdog w
  simpa [WdOk, wdStartDefer, Kernel.setWdog] using hw

theorem coherent_vmxWdStart (h : Coherent k) (timeout : Nat) :
    Coherent (vmxWdStart k w timeout) := by
  have hdec : Coherent (k.setWdog w fun d => { d with dfrStartCount := d.dfrStartCount - 1 }) := by
    refine h.of_actsOnWd (actsOnWd_setWdog k w _) h.noFault ?_
    have hw := h.wdog w
    simpa [WdOk, Kernel.setWdog] using hw
  unfold vmxWdStart
  generalize k.setWdog w (fun d => { d with dfrStartCount := d.dfrStartCount - 1 }) = k1 at hdec ⊢
  dsimp only
  split
  · have hwdog : (k1.tickQOverflow timeout).wdog = k1.wdog := by
      unfold Kernel.tickQOverflow
      split <;> rfl
    have hcount := count_tickQOverflow k1 timeout (.wdog w)
    have hover := actsOnWd_tickQOverflow k1 w timeout
    have hf := (fault_tickQOverflow (k := k1) timeout).trans hdec.noFault
    have hw := hdec.wdog w
    unfold WdOk at hw
    rw [← hcount, ← hwdog] at hw
    generalize k1.tickQOverflow timeout = k2 at hwdog hcount hover hf hw ⊢
    split
    · rename_i hin
      rw [if_pos hin] at hw
      refine hdec.of_actsOnWd ((hover.trans (actsOnWd_tickQMove k2 w timeout)).trans
        (actsOnWd_setWdog _ w _)) ?_ ?_
      · have hmem : TickNode.wdog w ∈ ids k2.tickQHead := by
          rw [mem_ids_iff_count, hw]
          exact Nat.one_pos
        simp [Kernel.setWdog, Kernel.tickQMove, hf, hmem]
      · have := count_tickQMove k2 timeout (.wdog w) (.wdog w)
        simp only [WdOk, Kernel.setWdog, Function.update_self, if_true]
        rw [this, hw]
    · rename_i hout
      rw [if_neg hout] at hw
      refine hdec.of_actsOnWd ((hover.trans (actsOnWd_tickQPut k2 w timeout)).trans
        (actsOnWd_setWdog _ w _)) hf ?_
      simp [WdOk, Kernel.setWdog, Kernel.tickQPut, count_qPrioPut, hw]
  · exact hdec

theorem coherent_vmxWdCancel (h : Coherent k) : Coherent (vmxWdCancel k w) := by
  unfold vmxWdCancel
  split
  · rename_i hin
    have hmem := (wdog_mem_tickQ h).2 hin
    have hw := h.wdog w
    unfold WdOk at hw
    rw [if_pos hin] at hw
    refine h.of_actsOnWd ((actsOnWd_tickQRemove k w).trans (actsOnWd_setWdog _ w _)) ?_ ?_
    · simp [Kernel.setWdog, Kernel.tickQRemove, h.noFault, hmem]
    · simp [WdOk, Kernel.setWdog, Kernel.tickQRemove, qPrioRemove, count_eraseId, hw]
  · exact h

end Watchdogs

/-! ## Ticks -/

section Ticks

variable {k : Kernel}

theorem coherent_runJob (h : Coherent k) (j : Job) : Coherent (runJob k j) := by
  unfold runJob
  split
  · rename_i hg
    cases j with
    | suspend t => exact coherent_vmxSuspend h hg
    | resume t => exact coherent_vmxResume h hg
    | prioritySet t priority => exact coherent_vmxPrioritySet h priority
    | pendQGet q => exact coherent_vmxPendQGet h hg
    | pendQFlush q => exact coherent_vmxPendQFlush h q
    | wdStartDefer w => exact coherent_wdStartDefer h
    | wdStart w timeout => exact coherent_vmxWdStart h timeout
    | wdCancel w => exact coherent_vmxWdCancel h
  · exact h

theorem coherent_runJobs (h : Coherent k) (js : List Job) : Coherent (runJobs k js) := by
  unfold runJobs
  induction js generalizing k with
  | nil => exact h
  | cons j js ih => exact ih (coherent_runJob h j)

/-- The expired node is the head of the tick queue. -/
theorem qPrioExpired_some {q rest : List (TickNode × Nat)} {n : TickNode} {ticks : Nat}
    (h : qPrioExpired q ticks = (some n, rest)) :
    ∃ key, q = (n, key) :: rest ∧ key ≤ ticks := by
  cases q with
  | nil => simp [qPrioExpired] at h
  | cons e q =>
    rw [qPrioExpired] at h
    split at h
    · rename_i hle
      simp only [Prod.mk.injEq, Option.some.injEq] at h
      obtain ⟨rfl, rfl⟩ := h
      exact ⟨e.2, rfl, hle⟩
    · simp at h

theorem View.cancelDelay_of_not {v : View} (h : v.status.delay = false) : v.cancelDelay = v := by
  rw [View.cancelDelay, if_neg (by simp [h])]

/-- A task whose timeout has expired, after the delay flag is cleared: it leaves
its pend queue, if it is pended, and then it is put on the ready queue if no flag
is left. -/
theorem taskTimeout_view {t : TaskId} {v : View} (hv : v.Ok) (hdelay : v.status.delay = true)
    (hk : view k t = { v with tick := 0, status := { v.status with delay := false } }) :
    (taskTimeout k t).fault = k.fault ∧ (view (taskTimeout k t) t).putIfReady.Ok := by
  have hready : v.ready = 0 := hv.ready.trans (if_neg (by rw [status_eq_ready]; simp [hdelay]))
  have hdead := hv.live_of_flag (Or.inr (Or.inl hdelay))
  have hactive : v.active = 1 := hv.active.trans (if_neg (by simp [hdead]))
  by_cases hp : v.status.pend = true
  · -- pended: it leaves the queue
    have hp1 : (view k t).status.pend = true := by
      rw [hk]
      exact hp
    obtain ⟨hf, hview⟩ := vmxPendQRemove_view (k := k) (t := t) hv hp (by rw [hk]) (by rw [hk])
      (by rw [hk]; rfl)
    have hnot : ¬ (k.tcb t).status = TASK_READY := by
      show ¬ (view k t).status = TASK_READY
      rw [status_eq_ready]
      simp [hp1]
    unfold taskTimeout
    rw [if_neg hnot, if_pos (show (k.tcb t).status.pend = true from hp1)]
    refine ⟨hf, ?_⟩
    dsimp only
    rw [view_setTcb _ _ _ (f := fun c => { c with errno := .S_objLib_TIMEOUT }) (fun _ => rfl) (fun _ => rfl) (fun _ => rfl), view_taskRetValueSet, hview, hk]
    rw [View.cancelDelay_of_not rfl,
      ← View.cancelDelay_of_not (v := { v with
        tick := 0, pend := fun _ => 0
        status := { v.status with delay := false, pend := false } }) rfl]
    exact View.ok_wake hready rfl (fun _ => rfl) rfl hactive hdead
  · -- only delayed, or suspended
    have hview : (taskTimeout k t).fault = k.fault ∧ view (taskTimeout k t) t = view k t := by
      have hp1 : ¬ (k.tcb t).status.pend = true := by
        show ¬ (view k t).status.pend = true
        rw [hk]
        exact hp
      unfold taskTimeout
      rw [if_neg hp1]
      split
      · exact ⟨rfl, view_taskRetValueSet k t t _⟩
      · exact ⟨rfl, rfl⟩
    refine ⟨hview.1, ?_⟩
    rw [hview.2, hk, ← View.cancelDelay_of_not (v := { v with
      tick := 0, status := { v.status with delay := false } }) rfl]
    refine View.ok_wake hready rfl (fun q => ?_) (by simpa using hp) hactive hdead
    show v.pend q = 0
    rw [hv.pend, if_neg (fun hh => hp hh.1)]

/-- Taking the head off the tick queue. -/
theorem count_expireNode {n m : TickNode} {key : Nat} {rest : List (TickNode × Nat)}
    (hq : k.tickQHead = (n, key) :: rest) :
    (ids (expireNode k n rest).tickQHead).count m =
      (ids k.tickQHead).count m - if m = n then 1 else 0 := by
  show (ids rest).count m = _
  rw [hq, ids_cons, List.count_cons]
  by_cases hm : m = n
  · simp [hm]
  · simp [hm, Ne.symm hm]

theorem actsOn_expireNode {t : TaskId} {rest : List (TickNode × Nat)}
    (hrest : ∀ m, (ids rest).count m = (ids k.tickQHead).count m - if m = .task t then 1 else 0) :
    ActsOn k (expireNode k (.task t) rest) t := by
  have hcount : ∀ m, (ids (expireNode k (.task t) rest).tickQHead).count m =
      (ids k.tickQHead).count m - if m = .task t then 1 else 0 := hrest
  refine ⟨fun u hu => ?_, fun w => ?_, rfl⟩
  · unfold view
    rw [hcount, if_neg (by simpa using hu)]
    rfl
  · rw [hcount, if_neg (by simp)]
    rfl

/-- The node of an expired task is taken out, wherever it is in the queue. -/
theorem coherent_taskExpired_of_count {t : TaskId} {rest : List (TickNode × Nat)}
    (h : Coherent k) (hdelay : (view k t).status.delay = true)
    (hrest : ∀ m, (ids rest).count m = (ids k.tickQHead).count m - if m = .task t then 1 else 0) :
    Coherent (taskExpired (expireNode k (.task t) rest) t) := by
  have hv := h.task t
  have htick : (ids k.tickQHead).count (.task t) = 1 := hv.tick.trans (if_pos hdelay)
  have hcount : ∀ m, (ids (expireNode k (.task t) rest).tickQHead).count m =
      (ids k.tickQHead).count m - if m = .task t then 1 else 0 := hrest
  have hview : view (expireNode k (.task t) rest) t = { view k t with tick := 0 } := by
    unfold view
    rw [hcount, if_pos rfl, htick]
    rfl
  obtain ⟨hf, hok⟩ := taskTimeout_view (t := t)
    (k := (expireNode k (.task t) rest).setStatus t fun s => { s with delay := false }) hv hdelay
    (by rw [view_setStatus, if_pos rfl, hview])
  refine h.of_actsOn ((actsOn_expireNode hrest).trans (actsOn_taskExpired _ t)) ?_ ?_
  · unfold taskExpired
    rw [fault_putIfReady, hf]
    exact h.noFault
  · unfold taskExpired
    rw [view_putIfReady]
    exact hok

/-- An expired task. -/
theorem coherent_taskExpired {t : TaskId} {key : Nat} {rest : List (TickNode × Nat)}
    (h : Coherent k) (hq : k.tickQHead = (.task t, key) :: rest) :
    Coherent (taskExpired (expireNode k (.task t) rest) t) := by
  refine coherent_taskExpired_of_count h ?_ (fun _ => count_expireNode hq)
  by_contra hd
  have h0 : (ids k.tickQHead).count (.task t) = 0 := (h.task t).tick.trans (if_neg hd)
  rw [hq, ids_cons, List.count_cons] at h0
  simp at h0

theorem actsOn_expireTask (k : Kernel) (t : TaskId) : ActsOn k (expireTask k t) t :=
  (actsOn_expireNode fun m => count_eraseId k.tickQHead (.task t) m).trans (actsOn_taskExpired _ t)

theorem coherent_expireTask {t : TaskId} (h : Coherent k) (hdelay : (k.tcb t).status.delay = true) :
    Coherent (expireTask k t) :=
  coherent_taskExpired_of_count h hdelay fun m => count_eraseId k.tickQHead (.task t) m

/-- An expired watchdog, before its function is called. -/
theorem coherent_wdogExpired {w : WdogId} {key : Nat} {rest : List (TickNode × Nat)}
    (h : Coherent k) (hq : k.tickQHead = (.wdog w, key) :: rest) :
    Coherent (wdogExpired (expireNode k (.wdog w) rest) w) := by
  have hin : (k.wdog w).status = .WDOG_IN_Q := by
    rw [← wdog_mem_tickQ h, hq]
    exact List.mem_cons_self
  have hw : (ids k.tickQHead).count (.wdog w) = 1 := (h.wdog w).trans (if_pos hin)
  have hexp : ActsOnWd k (expireNode k (.wdog w) rest) w := by
    refine ⟨fun u => ?_, fun v hv => ?_⟩
    · unfold view
      rw [count_expireNode hq, if_neg (by simp)]
      rfl
    · rw [count_expireNode hq, if_neg (by simpa using hv)]
      exact ⟨rfl, rfl⟩
  refine h.of_actsOnWd (hexp.trans (actsOnWd_setWdog _ w _)) h.noFault ?_
  have hcount := count_expireNode (m := .wdog w) hq
  rw [if_pos rfl, hw] at hcount
  unfold WdOk wdogExpired
  show (ids (expireNode k (.wdog w) rest).tickQHead).count _ = _
  rw [hcount]
  simp [Kernel.setWdog]

theorem coherent_expireLoop (n : Nat) :
    ∀ (scripts : List (List Job)) (k : Kernel), Coherent k → Coherent (expireLoop n scripts k) := by
  induction n with
  | zero =>
    intro scripts k h
    exact h
  | succ n ih =>
    intro scripts k h
    rw [expireLoop]
    split
    · exact h
    · rename_i t rest hexp
      obtain ⟨key, hq, -⟩ := qPrioExpired_some hexp
      exact ih _ _ (coherent_taskExpired h hq)
    · rename_i w rest hexp
      obtain ⟨key, hq, -⟩ := qPrioExpired_some hexp
      have hw := coherent_wdogExpired h hq
      dsimp only
      split
      · exact ih _ _ (coherent_runJobs hw _)
      · exact ih _ _ hw

theorem coherent_timeAdvance (h : Coherent k) : Coherent (timeAdvance k) :=
  ⟨h.noFault, h.task, h.wdog⟩

/-- The round robin part takes the running task out of the ready queue and puts
it back. -/
theorem coherent_roundRobin (h : Coherent k) : Coherent (roundRobin k) := by
  have hslice : ∀ (k : Kernel) (t : TaskId) (f : Nat → Nat), Coherent k →
      ActsOn k (k.setTcb t fun c => { c with timeSlice := f c.timeSlice }) t ∧
        Coherent (k.setTcb t fun c => { c with timeSlice := f c.timeSlice }) := by
    intro k t f h
    have hacts := actsOn_setTcb k t (f := fun c => { c with timeSlice := f c.timeSlice })
      (fun _ => rfl) (fun _ => rfl) (fun _ => rfl)
    refine ⟨hacts, h.of_actsOn hacts h.noFault ?_⟩
    rw [view_setTcb k t t (f := fun c => { c with timeSlice := f c.timeSlice }) (fun _ => rfl) (fun _ => rfl) (fun _ => rfl)]
    exact h.task t
  unfold roundRobin
  dsimp only
  split
  · rename_i hcond
    have hcur := (hslice k k.taskIdCurrent (fun n => u32 (n + 1)) h).2
    split
    · have hzero := (hslice _ k.taskIdCurrent (fun _ => 0) hcur).2
      have hready : (view ((k.setTcb k.taskIdCurrent fun c => { c with
          timeSlice := u32 (c.timeSlice + 1) }).setTcb k.taskIdCurrent fun c => { c with
          timeSlice := 0 }) k.taskIdCurrent).ready = 1 := by
        refine (hzero.task k.taskIdCurrent).ready.trans (if_pos ?_)
        rw [view_setTcb _ _ _ (f := fun c => { c with timeSlice := 0 }) (fun _ => rfl) (fun _ => rfl) (fun _ => rfl), view_setTcb _ _ _ (f := fun c => { c with
          timeSlice := u32 (c.timeSlice + 1) }) (fun _ => rfl) (fun _ => rfl) (fun _ => rfl)]
        exact hcond.2.2
      generalize (k.setTcb k.taskIdCurrent fun c => { c with
          timeSlice := u32 (c.timeSlice + 1) }).setTcb k.taskIdCurrent (fun c => { c with
          timeSlice := 0 }) = k2 at hzero hready ⊢
      refine hzero.of_actsOn ((actsOn_readyQRemove k2 k.taskIdCurrent).trans
        (actsOn_readyQPut _ _)) ?_ ?_
      · refine (fault_readyQRemove ?_).trans hzero.noFault
        rw [hready]
        exact Nat.one_pos
      · rw [view_readyQPut, if_pos rfl, view_readyQRemove, if_pos rfl]
        dsimp only
        rw [Nat.sub_add_cancel (le_of_eq hready.symm)]
        exact hzero.task k.taskIdCurrent
    · exact hcur
  · exact h

theorem coherent_vmxTickAnnounce (h : Coherent k) (scripts : List (List Job)) :
    Coherent (vmxTickAnnounce scripts k) :=
  coherent_roundRobin (coherent_expireLoop _ scripts _ (coherent_timeAdvance h))

end Ticks

/-! ## Every run -/

theorem coherent_kernelInit (readyClass : QClass) (pendClass : QAddr → QClass) :
    Coherent (kernelInit readyClass pendClass) where
  noFault := rfl
  task t := by
    refine ⟨?_, ?_, ?_, ?_, ?_, ?_, ?_⟩ <;> simp [view, kernelInit, TASK_DEAD, TASK_READY]
  wdog w := by simp [WdOk, kernelInit]

/-- One operation keeps the kernel coherent. -/
theorem coherent_kernelStep {k k' : Kernel} {op : KernelOp} (h : Coherent k)
    (hs : kernelStep k op = some k') : Coherent k' := by
  cases op with
  | spawn t priority =>
    obtain ⟨⟨hl, -⟩, rfl⟩ := guard_some.1 hs
    exact coherent_vmxSpawn h hl priority
  | delete t =>
    obtain ⟨hl, rfl⟩ := guard_some.1 hs
    exact coherent_vmxDelete h hl
  | delay timeout =>
    obtain ⟨hr, rfl⟩ := guard_some.1 hs
    exact coherent_vmxDelay h hr timeout
  | pendQPut q timeout =>
    obtain ⟨hr, rfl⟩ := guard_some.1 hs
    exact coherent_vmxPendQPut h hr q timeout
  | pendQTerminate q =>
    cases hs
    exact coherent_vmxPendQTerminate h q
  | pendQRemove t =>
    obtain ⟨hp, rfl⟩ := guard_some.1 hs
    exact coherent_vmxPendQRemove h hp
  | readyQPut t =>
    rw [kernelStep] at hs
    split at hs
    · simp at hs
    · rename_i q hq
      obtain ⟨hp, rfl⟩ := guard_some.1 hs
      exact coherent_vmxReadyQPut h hp hq
  | readyQRemove q timeout =>
    obtain ⟨hr, rfl⟩ := guard_some.1 hs
    exact coherent_vmxReadyQRemove h hr q timeout
  | job j =>
    cases hs
    exact coherent_runJob h j
  | tickAnnounce scripts =>
    cases hs
    exact coherent_vmxTickAnnounce h scripts
  | tickSet ticks =>
    cases hs
    exact ⟨h.noFault, h.task, h.wdog⟩
  | tick64Set ticks =>
    cases hs
    exact ⟨h.noFault, h.task, h.wdog⟩
  | taskLock =>
    cases hs
    refine h.of_actsOn (actsOn_setTcb k k.taskIdCurrent (fun _ => rfl) (fun _ => rfl) (fun _ => rfl)) h.noFault ?_
    rw [view_setTcb _ _ _ (f := fun c => { c with lockCount := c.lockCount + 1 }) (fun _ => rfl) (fun _ => rfl) (fun _ => rfl)]
    exact h.task _
  | taskUnlock =>
    cases hs
    refine h.of_actsOn (actsOn_setTcb k k.taskIdCurrent (fun _ => rfl) (fun _ => rfl) (fun _ => rfl)) h.noFault ?_
    rw [view_setTcb _ _ _ (f := fun c => { c with lockCount := c.lockCount - 1 }) (fun _ => rfl) (fun _ => rfl) (fun _ => rfl)]
    exact h.task _
  | timeSlice ticks =>
    cases hs
    split
    · exact ⟨h.noFault, h.task, h.wdog⟩
    · exact ⟨h.noFault, h.task, h.wdog⟩
  | dispatch =>
    rw [kernelStep] at hs
    split at hs
    · simp at hs
    · cases hs
      exact ⟨h.noFault, h.task, h.wdog⟩

end Vmx
