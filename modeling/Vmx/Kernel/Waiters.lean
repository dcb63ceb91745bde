import Vmx.Kernel.Coherence

/-!
# Waiters

What the layers above need of the kernel: how each routine changes the pend
queues, and that it leaves the delete safety counts alone.

`EnvOp` is everything that can happen to tasks besides the calls of a layer: they
are suspended, resumed, delayed, given another priority, deleted and dispatched,
and they wait for the victim of a deletion to become unsafe.  Such a step only
takes waiters out of the queues of a layer or reorders them (`envStep_effect`).
The timeout of a waiter is a step of its own (`pendQ_expireTask`), because the
clock interrupt does not wait for the end of a kernel section.
-/

namespace Vmx

open Lib Util

/-! ## The delete safety counts -/

/-- The routine changes no delete safety count, lets no task live or die, and does
not dispatch. -/
structure Keeps (k k' : Kernel) : Prop where
  safeCount : ∀ u, (k'.tcb u).safeCount = (k.tcb u).safeCount
  dead : ∀ u, (k'.tcb u).status.dead = (k.tcb u).status.dead
  current : k'.taskIdCurrent = k.taskIdCurrent

theorem Keeps.of_tcb {k k' : Kernel} (h : k'.tcb = k.tcb)
    (hc : k'.taskIdCurrent = k.taskIdCurrent) : Keeps k k' :=
  ⟨fun u => by rw [h], fun u => by rw [h], hc⟩

theorem Keeps.refl (k : Kernel) : Keeps k k := .of_tcb rfl rfl

theorem Keeps.trans {k k' k'' : Kernel} (h : Keeps k k') (h' : Keeps k' k'') : Keeps k k'' :=
  ⟨fun u => (h'.safeCount u).trans (h.safeCount u), fun u => (h'.dead u).trans (h.dead u),
    h'.current.trans h.current⟩

/-- The routine was applied to a kernel with the same tasks. -/
theorem Keeps.after {k k1 k' : Kernel} (h : Keeps k1 k') (ht : k1.tcb = k.tcb)
    (hc : k1.taskIdCurrent = k.taskIdCurrent) : Keeps k k' := (Keeps.of_tcb ht hc).trans h

section Keeps

variable (k : Kernel) (t : TaskId) (q : QAddr)

theorem keeps_setTcb {f : Tcb → Tcb} (hs : ∀ c, (f c).safeCount = c.safeCount)
    (hd : ∀ c, (f c).status.dead = c.status.dead) : Keeps k (k.setTcb t f) := by
  refine ⟨fun u => ?_, fun u => ?_, rfl⟩ <;> by_cases hu : u = t
  · subst hu
    simp [Kernel.setTcb, hs]
  · simp [Kernel.setTcb, hu]
  · subst hu
    simp [Kernel.setTcb, hd]
  · simp [Kernel.setTcb, hu]

theorem keeps_setStatus {f : Status → Status} (hd : ∀ s, (f s).dead = s.dead) :
    Keeps k (k.setStatus t f) :=
  keeps_setTcb k t (fun _ => rfl) fun c => hd c.status

theorem keeps_taskRetValueSet (val : Int) : Keeps k (k.taskRetValueSet t val) :=
  keeps_setTcb k t (fun _ => rfl) fun _ => rfl

theorem keeps_saveTaskContext : Keeps k (saveTaskContext k) := by
  unfold saveTaskContext
  split
  · exact .refl k
  · exact keeps_taskRetValueSet k _ OK

theorem keeps_cancelDelay : Keeps k (cancelDelay k t) := by
  unfold cancelDelay
  split
  · exact (keeps_setStatus k t (f := fun s => { s with delay := false }) fun _ => rfl).trans
      (.of_tcb rfl rfl)
  · exact .refl k

theorem keeps_putIfReady : Keeps k (putIfReady k t) := by
  unfold putIfReady
  split
  · exact .of_tcb rfl rfl
  · exact .refl k

theorem keeps_vmxPendQRemove : Keeps k (vmxPendQRemove k t) := by
  have hrest : ∀ k1 : Kernel, Keeps k1 (cancelDelay (k1.setStatus t fun s =>
      { s with pend := false }) t) := fun k1 =>
    (keeps_setStatus k1 t (f := fun s => { s with pend := false }) fun _ => rfl).trans
      (keeps_cancelDelay _ t)
  unfold vmxPendQRemove
  dsimp only
  split
  · exact (hrest _).after rfl rfl
  · exact (hrest _).after rfl rfl

theorem keeps_vmxReadyQPut : Keeps k (vmxReadyQPut k t) := by
  unfold vmxReadyQPut
  exact (((keeps_setStatus k t (f := fun s => { s with pend := false }) fun _ => rfl).trans
    (keeps_taskRetValueSet _ t OK)).trans (keeps_cancelDelay _ t)).trans (keeps_putIfReady _ t)

theorem keeps_vmxPendQGet : Keeps k (vmxPendQGet k q) := by
  unfold vmxPendQGet
  split
  · exact .of_tcb rfl rfl
  · exact (keeps_vmxReadyQPut _ _).after rfl rfl

theorem keeps_pendQTerminateGet : Keeps k (pendQTerminateGet k q) := by
  unfold pendQTerminateGet
  split
  · exact .of_tcb rfl rfl
  · rename_i node rest _
    have h1 := keeps_setStatus { k with pendQ := Function.update k.pendQ q rest } node.1
      (f := fun s => { s with pend := false }) fun _ => rfl
    have h2 := keeps_setTcb ({ k with pendQ := Function.update k.pendQ q rest }.setStatus node.1
      fun s => { s with pend := false }) node.1 (f := fun c => { c with errorStatus := TASK_DELETED })
      (fun _ => rfl) (fun _ => rfl)
    have h0 : Keeps k { k with pendQ := Function.update k.pendQ q rest } := .of_tcb rfl rfl
    exact ((((h0.trans h1).trans h2).trans (keeps_taskRetValueSet _ _ ERROR)).trans
      (keeps_cancelDelay _ _)).trans (keeps_putIfReady _ _)

theorem keeps_vmxPendQFlush : Keeps k (vmxPendQFlush k q) := by
  have hloop : ∀ (n : Nat) (k : Kernel), Keeps k (vmxPendQFlushLoop k q n) := by
    intro n
    induction n with
    | zero => exact .refl
    | succ n ih =>
      intro k
      exact (keeps_vmxPendQGet k q).trans (ih _)
  exact hloop _ k

theorem keeps_vmxPendQTerminate : Keeps k (vmxPendQTerminate k q) := by
  have hloop : ∀ (n : Nat) (k : Kernel), Keeps k (vmxPendQTerminateLoop k q n) := by
    intro n
    induction n with
    | zero => exact .refl
    | succ n ih =>
      intro k
      exact (keeps_pendQTerminateGet k q).trans (ih _)
  exact hloop _ k

theorem keeps_tickQOverflow (timeout : Nat) : Keeps k (k.tickQOverflow timeout) := by
  unfold Kernel.tickQOverflow
  split
  · exact .of_tcb rfl rfl
  · exact .refl k

theorem keeps_pendTimeout (timeout : Nat) : Keeps k (pendTimeout k t timeout) := by
  unfold pendTimeout
  split
  · have h1 : Keeps k ((k.tickQOverflow timeout).tickQPut (.task t) timeout) :=
      (keeps_tickQOverflow k timeout).trans (.of_tcb rfl rfl)
    exact h1.trans (keeps_setStatus _ t fun _ => rfl)
  · exact .refl k

theorem keeps_pend (timeout : Nat) :
    Keeps k ((((k.readyQRemove t).setStatus t fun s => { s with pend := true }).setTcb t
      fun c => { c with pPendQ := some q, waitTimeout := timeout }).pendQNodePut q t) := by
  have hstatus := keeps_setStatus (k.readyQRemove t) t (f := fun s => { s with pend := true })
    fun _ => rfl
  have hset := keeps_setTcb ((k.readyQRemove t).setStatus t fun s => { s with pend := true }) t
    (f := fun c => { c with pPendQ := some q, waitTimeout := timeout })
    (fun _ => rfl) fun _ => rfl
  have hready : Keeps k (k.readyQRemove t) := .of_tcb rfl rfl
  have hput : ∀ k1 : Kernel, Keeps k1 (k1.pendQNodePut q t) := fun _ => .of_tcb rfl rfl
  exact ((hready.trans hstatus).trans hset).trans (hput _)

theorem keeps_vmxPendQPut (timeout : Nat) : Keeps k (vmxPendQPut k q timeout) :=
  (keeps_pend k k.taskIdCurrent q timeout).trans (keeps_pendTimeout _ _ timeout)

theorem keeps_taskExpired : Keeps k (taskExpired k t) := by
  unfold taskExpired
  refine Keeps.trans (Keeps.trans (keeps_setStatus k t (f := fun s => { s with delay := false })
    fun _ => rfl) ?_) (keeps_putIfReady _ t)
  unfold taskTimeout
  split
  · exact keeps_taskRetValueSet _ t OK
  · split
    · exact ((keeps_vmxPendQRemove _ t).trans (keeps_taskRetValueSet _ t ERROR)).trans
        (keeps_setTcb _ t (fun _ => rfl) fun _ => rfl)
    · exact .refl _

theorem keeps_expireTask : Keeps k (expireTask k t) := (keeps_taskExpired _ t).after rfl rfl

end Keeps

/-! ## The pend queues -/

section Pend

variable {k : Kernel} {t : TaskId}

/-- A task is only in the queue of its `pPendQ`. -/
theorem Coherent.not_mem_pendQ (h : Coherent k) {q : QAddr}
    (hq : ¬ ((k.tcb t).status.pend = true ∧ (k.tcb t).pPendQ = some q)) :
    t ∉ ids (k.pendQ q) := fun hm => hq (h.of_mem_pendQ hm)

/-- No task is twice in a queue. -/
theorem Coherent.nodup_pendQ (h : Coherent k) (q : QAddr) : (ids (k.pendQ q)).Nodup := by
  rw [List.nodup_iff_count_le_one]
  intro u
  have hcount : (ids (k.pendQ q)).count u = _ := (h.task u).pend q
  rw [hcount]
  split <;> omega

/-- Taking a task out of a queue that it is not in changes nothing. -/
theorem Coherent.erase_of_not_pend (h : Coherent k) (hp : (k.tcb t).status.pend = false)
    (q : QAddr) : eraseId (k.pendQ q) t = k.pendQ q := by
  apply eraseId_of_not_mem
  apply h.not_mem_pendQ
  simp [hp]

/-- A task that leaves its wait is in no queue any more. -/
theorem pendQ_vmxPendQRemove
    (hon : ∀ q, t ∈ ids (k.pendQ q) → (k.tcb t).pPendQ = some q) (q : QAddr) :
    (vmxPendQRemove k t).pendQ q = eraseId (k.pendQ q) t := by
  unfold vmxPendQRemove
  rw [pendQ_cancelDelay]
  cases hp : (k.tcb t).pPendQ with
  | none =>
    rw [eraseId_of_not_mem]
    · rfl
    · intro hm
      have hq := hon q hm
      simp [hp] at hq
  | some p =>
    show Function.update k.pendQ p (eraseId (k.pendQ p) t) q = _
    by_cases hqp : q = p
    · subst hqp
      simp
    · rw [Function.update_of_ne hqp, eraseId_of_not_mem]
      intro hm
      have hq := hon q hm
      rw [hp] at hq
      exact hqp (Option.some.inj hq).symm

@[simp] theorem pendQ_saveTaskContext (k : Kernel) : (saveTaskContext k).pendQ = k.pendQ := by
  unfold saveTaskContext
  split <;> rfl

theorem coherent_saveTaskContext (h : Coherent k) : Coherent (saveTaskContext k) := by
  unfold saveTaskContext
  split
  · exact h
  · exact coherent_setTcb h (f := fun c => { c with retValue := OK }) (fun _ => rfl) (fun _ => rfl)
      fun _ => rfl

/-- A task whose timeout expires leaves its pend queue. -/
theorem pendQ_expireTask (h : Coherent k) (q : QAddr) :
    (expireTask k t).pendQ q = eraseId (k.pendQ q) t := by
  unfold expireTask taskExpired
  dsimp only
  rw [pendQ_putIfReady]
  set k1 := (expireNode k (.task t) (qPrioRemove k.tickQHead (.task t))).setStatus t
    fun s => { s with delay := false } with hk1
  have hq : (k1.tcb t).pPendQ = (k.tcb t).pPendQ := by
    simp [hk1, Kernel.setStatus, Kernel.setTcb, expireNode]
  have hp : (k1.tcb t).status.pend = (k.tcb t).status.pend := by
    simp [hk1, Kernel.setStatus, Kernel.setTcb, expireNode]
  unfold taskTimeout
  split
  · rename_i hr
    have hnot : (k.tcb t).status.pend = false := by
      rw [← hp, hr]
      rfl
    exact (h.erase_of_not_pend hnot q).symm
  · split
    · apply pendQ_vmxPendQRemove
      intro p hm
      rw [hq]
      exact (h.of_mem_pendQ hm).2
    · rename_i hpend
      rw [hp, Bool.not_eq_true] at hpend
      exact (h.erase_of_not_pend hpend q).symm

/-- The timeout of a waiter does not stop the task that runs. -/
theorem running_expireTask (hr : running k) (hd : (k.tcb t).status.delay = true) :
    running (expireTask k t) := by
  have hne : k.taskIdCurrent ≠ t := by
    rintro rfl
    rw [running, status_eq_ready] at hr
    rw [hr.2.2.1] at hd
    exact Bool.false_ne_true hd
  have hview := (actsOn_expireTask k t).others k.taskIdCurrent hne
  have hcur := (keeps_expireTask k t).current
  rw [running, hcur]
  exact (congrArg View.status hview).trans hr

/-- Waking the waiters of a queue does not stop the task that runs: it is not one of
them. -/
theorem running_vmxPendQGet (h : Coherent k) (hr : running k) (q : QAddr) :
    running (vmxPendQGet k q) := by
  unfold vmxPendQGet
  cases hq : k.pendQ q with
  | nil => exact hr
  | cons node rest =>
    have hm : node.1 ∈ ids (k.pendQ q) := by
      rw [hq]
      exact List.mem_cons_self
    have hne : k.taskIdCurrent ≠ node.1 := by
      intro he
      have hpend := (h.of_mem_pendQ hm).1
      rw [running, he, status_eq_ready] at hr
      change (k.tcb node.1).status.pend = true at hpend
      rw [hr.2.1] at hpend
      cases hpend
    set k1 := { k with pendQ := Function.update k.pendQ q rest } with hk1
    have hview := (actsOn_vmxReadyQPut k1 node.1).others k.taskIdCurrent hne
    have hcur := (keeps_vmxReadyQPut k1 node.1).current
    rw [running, hcur]
    exact (congrArg View.status hview).trans hr

theorem running_vmxPendQFlush (h : Coherent k) (hr : running k) (q : QAddr) :
    running (vmxPendQFlush k q) := by
  have hloop : ∀ (n : Nat) (k : Kernel), Coherent k → running k → (k.pendQ q).length = n →
      running (vmxPendQFlushLoop k q n) := by
    intro n
    induction n with
    | zero =>
      intro k _ hr _
      exact hr
    | succ n ih =>
      intro k h hr hn
      have hne : k.pendQ q ≠ [] := by
        intro he
        rw [he] at hn
        cases hn
      apply ih _ (coherent_vmxPendQGet h hne) (running_vmxPendQGet h hr q)
      rw [pendQ_vmxPendQGet, Function.update_self, List.length_tail, hn]
      rfl
  exact hloop _ k h hr rfl

theorem pendQ_vmxDelete (h : Coherent k) (q : QAddr) :
    (vmxDelete k t).pendQ q = eraseId (k.pendQ q) t := by
  unfold vmxDelete
  dsimp only
  split
  · rename_i hr
    have hnot : (k.tcb t).status.pend = false := by
      rw [hr]
      rfl
    exact (h.erase_of_not_pend hnot q).symm
  · have hremove : ∀ k1 : Kernel, (if (k1.tcb t).status.delay then k1.tickQRemove (.task t)
        else k1).pendQ = k1.pendQ := by
      intro k1
      split <;> rfl
    show (if _ then _ else _ : Kernel).pendQ q = _
    rw [hremove]
    split
    · apply pendQ_vmxPendQRemove
      intro p hm
      exact (h.of_mem_pendQ hm).2
    · rename_i hpend
      rw [Bool.not_eq_true] at hpend
      exact (h.erase_of_not_pend hpend q).symm

theorem pendQ_vmxPendQPut (k : Kernel) (q : QAddr) (timeout : Nat) :
    (vmxPendQPut k q timeout).pendQ = Function.update k.pendQ q
      (qPut (k.pendClass q) (k.pendQ q) k.taskIdCurrent (k.tcb k.taskIdCurrent).priority) := by
  unfold vmxPendQPut
  rw [pendQ_pendTimeout]
  simp [Kernel.pendQNodePut, Kernel.setTcb, Kernel.setStatus, Kernel.readyQRemove]

end Pend

/-! ## What a woken call returns -/

section Results

variable (k : Kernel) (t : TaskId)

theorem tcb_putIfReady : (putIfReady k t).tcb = k.tcb := by
  unfold putIfReady
  split <;> rfl

theorem retValue_cancelDelay (u : TaskId) :
    ((cancelDelay k t).tcb u).retValue = (k.tcb u).retValue := by
  unfold cancelDelay
  split
  · by_cases hu : u = t
    · subst hu
      simp [Kernel.tickQRemove, Kernel.setStatus, Kernel.setTcb]
    · simp [Kernel.tickQRemove, Kernel.setStatus, Kernel.setTcb, hu]
  · rfl

theorem retValue_vmxReadyQPut : ((vmxReadyQPut k t).tcb t).retValue = OK := by
  unfold vmxReadyQPut
  rw [tcb_putIfReady, retValue_cancelDelay]
  simp [Kernel.taskRetValueSet, Kernel.setTcb]

/-- The call of the task that is woken returns `OK`. -/
theorem retValue_vmxPendQGet {q : QAddr} {u : TaskId} (hq : qFirst (k.pendQ q) = some u) :
    ((vmxPendQGet k q).tcb u).retValue = OK := by
  unfold vmxPendQGet
  cases h : k.pendQ q with
  | nil =>
    rw [h] at hq
    cases hq
  | cons node rest =>
    rw [h] at hq
    obtain rfl : node.1 = u := Option.some.inj hq
    exact retValue_vmxReadyQPut _ _

/-- The call of a waiter whose timeout expires returns `ERROR`. -/
theorem retValue_expireTask (hp : (k.tcb t).status.pend = true) :
    ((expireTask k t).tcb t).retValue = ERROR := by
  unfold expireTask taskExpired
  dsimp only
  rw [tcb_putIfReady]
  set k1 := (expireNode k (.task t) (qPrioRemove k.tickQHead (.task t))).setStatus t
    fun s => { s with delay := false } with hk1
  have hp1 : (k1.tcb t).status.pend = true := by
    simpa [hk1, Kernel.setStatus, Kernel.setTcb, expireNode] using hp
  unfold taskTimeout
  have hnot : ¬ (k1.tcb t).status = TASK_READY := by
    intro hr
    rw [hr] at hp1
    cases hp1
  rw [if_neg hnot, if_pos hp1]
  simp [Kernel.taskRetValueSet, Kernel.setTcb]

end Results

/-! ## The environment of a layer -/

/-- What happens to tasks besides the calls of a layer. -/
inductive EnvOp where
  | suspend (tcbId : TaskId)
  | resume (tcbId : TaskId)
  | prioritySet (tcbId : TaskId) (priority : Nat)
  | delay (timeout : Nat)
  | delete (tcbId : TaskId)
  | safetyWait (tcbId : TaskId) (timeout : Nat)
  | safetyFlush (tcbId : TaskId)
  | dispatch
  deriving DecidableEq, Repr

def EnvOp.kernelOp : EnvOp → KernelOp
  | .suspend t => .job (.suspend t)
  | .resume t => .job (.resume t)
  | .prioritySet t priority => .job (.prioritySet t priority)
  | .delay timeout => .delay timeout
  | .delete t => .delete t
  | .safetyWait t timeout => .pendQPut (.safetyQ t) timeout
  | .safetyFlush t => .job (.pendQFlush (.safetyQ t))
  | .dispatch => .dispatch

def envStep (k : Kernel) (op : EnvOp) : Option Kernel := kernelStep k op.kernelOp

/-- The queue belongs to an object of a layer, not to a task. -/
def QAddr.OfLayer (q : QAddr) : Prop := ∀ t, q ≠ .safetyQ t

theorem QAddr.ofLayer_semQ (s : Nat) : (QAddr.semQ s).OfLayer := fun _ => by simp

/-- What a step of the environment does, seen from a layer. -/
structure EnvEffect (k k' : Kernel) : Prop where
  coherent : Coherent k'
  pendQ : ∀ q, q.OfLayer → (ids (k'.pendQ q)).Subperm (ids (k.pendQ q))
  safeCount : ∀ u, (k'.tcb u).safeCount = (k.tcb u).safeCount
  dead : ∀ u, (k.tcb u).status.dead = true → (k'.tcb u).status.dead = true

theorem EnvEffect.of_keeps {k k' : Kernel} (hc : Coherent k')
    (hq : ∀ q, q.OfLayer → (ids (k'.pendQ q)).Subperm (ids (k.pendQ q))) (hk : Keeps k k') :
    EnvEffect k k' :=
  ⟨hc, hq, hk.safeCount, fun u hu => by rw [hk.dead]; exact hu⟩

theorem ids_vmxPrioritySet_perm (k : Kernel) (t : TaskId) (priority : Nat) (q : QAddr) :
    (ids ((vmxPrioritySet k t priority).pendQ q)).Perm (ids (k.pendQ q)) := by
  unfold vmxPrioritySet
  dsimp only
  split
  · exact List.Perm.refl _
  · split
    · split
      · exact List.Perm.refl _
      · rename_i p hp
        by_cases hpq : q = p
        · subst hpq
          simp only [Kernel.pendQNodeMove, Function.update_self]
          split
          · rename_i hmem
            exact ids_qMove_perm _ hmem priority
          · exact List.Perm.refl _
        · simp only [Kernel.pendQNodeMove, Function.update_of_ne hpq]
          exact List.Perm.refl _
    · exact List.Perm.refl _

theorem keeps_vmxPrioritySet (k : Kernel) (t : TaskId) (priority : Nat) :
    Keeps k (vmxPrioritySet k t priority) := by
  have hset : Keeps k (k.setTcb t fun c => { c with priority := priority }) :=
    keeps_setTcb k t (fun _ => rfl) fun _ => rfl
  unfold vmxPrioritySet
  dsimp only
  split
  · exact hset.trans (.of_tcb rfl rfl)
  · split
    · split
      · exact hset.trans (.of_tcb rfl rfl)
      · exact hset.trans (.of_tcb rfl rfl)
    · exact hset

theorem deletes_vmxDelete (k : Kernel) (t : TaskId) :
    (∀ u, ((vmxDelete k t).tcb u).safeCount = (k.tcb u).safeCount) ∧
      ∀ u, (k.tcb u).status.dead = true → ((vmxDelete k t).tcb u).status.dead = true := by
  have hlast : ∀ k1 : Kernel, Keeps k k1 →
      (∀ u, (((k1.activeQRemove t).setStatus t fun _ => TASK_DEAD).tcb u).safeCount =
          (k.tcb u).safeCount) ∧
        ∀ u, (k.tcb u).status.dead = true →
          (((k1.activeQRemove t).setStatus t fun _ => TASK_DEAD).tcb u).status.dead = true := by
    intro k1 hk
    refine ⟨fun u => ?_, fun u hu => ?_⟩
    · rw [← hk.safeCount u]
      by_cases hut : u = t
      · subst hut
        simp [Kernel.setStatus, Kernel.setTcb, Kernel.activeQRemove]
      · simp [Kernel.setStatus, Kernel.setTcb, Kernel.activeQRemove, hut]
    · rw [← hk.dead u] at hu
      by_cases hut : u = t
      · subst hut
        simp [Kernel.setStatus, Kernel.setTcb, TASK_DEAD]
      · simpa [Kernel.setStatus, Kernel.setTcb, Kernel.activeQRemove, hut] using hu
  unfold vmxDelete
  dsimp only
  apply hlast
  split
  · exact .of_tcb rfl rfl
  · have hpend : Keeps k (if (k.tcb t).status.pend then vmxPendQRemove k t else k) := by
      split
      · exact keeps_vmxPendQRemove k t
      · exact .refl k
    have hdelay : ∀ k1 : Kernel, Keeps k1 (if (k1.tcb t).status.delay then
        k1.tickQRemove (.task t) else k1) := by
      intro k1
      split
      · exact .of_tcb rfl rfl
      · exact .refl k1
    exact hpend.trans (hdelay _)

/-- A step of the environment only takes waiters out of the queues, or reorders
them. -/
theorem envStep_effect {k k' : Kernel} {op : EnvOp} (h : Coherent k)
    (hs : envStep k op = some k') : EnvEffect k k' := by
  have hc : Coherent k' := coherent_kernelStep h hs
  cases op with
  | suspend t =>
    cases hs
    unfold runJob
    split
    · rename_i hg
      have hcall : Coherent (vmxSuspend k t) := coherent_vmxSuspend h hg
      refine .of_keeps hcall (fun q _ => ?_) ?_
      · show (ids ((vmxSuspend k t).pendQ q)).Subperm _
        unfold vmxSuspend
        split <;> exact List.Subperm.refl _
      · show Keeps k (vmxSuspend k t)
        unfold vmxSuspend
        refine Keeps.trans ?_ (keeps_setStatus _ t fun _ => rfl)
        split
        · exact .of_tcb rfl rfl
        · exact .refl k
    · exact .of_keeps h (fun q _ => List.Subperm.refl _) (.refl k)
  | resume t =>
    cases hs
    unfold runJob
    split
    · rename_i hg
      have hcall : Coherent (vmxResume k t) := coherent_vmxResume h hg
      refine .of_keeps hcall (fun q _ => ?_) ?_
      · show (ids ((vmxResume k t).pendQ q)).Subperm _
        unfold vmxResume
        split <;> exact List.Subperm.refl _
      · show Keeps k (vmxResume k t)
        unfold vmxResume
        refine Keeps.trans ?_ (keeps_setStatus _ t fun _ => rfl)
        split
        · exact .of_tcb rfl rfl
        · exact .refl k
    · exact .of_keeps h (fun q _ => List.Subperm.refl _) (.refl k)
  | prioritySet t priority =>
    cases hs
    unfold runJob
    split
    · exact .of_keeps (coherent_vmxPrioritySet h priority)
        (fun q _ => (ids_vmxPrioritySet_perm k t priority q).subperm)
        (keeps_vmxPrioritySet k t priority)
    · exact .of_keeps h (fun q _ => List.Subperm.refl _) (.refl k)
  | delay timeout =>
    rw [envStep, EnvOp.kernelOp, kernelStep, Option.ite_none_right_eq_some] at hs
    obtain rfl := Option.some.inj hs.2
    have hq : (vmxDelay k timeout).pendQ = k.pendQ :=
      pendQ_tickQOverflow (k.readyQRemove k.taskIdCurrent) timeout
    have hready : Keeps k (k.readyQRemove k.taskIdCurrent) := .of_tcb rfl rfl
    have hput : Keeps k (((k.readyQRemove k.taskIdCurrent).tickQOverflow timeout).tickQPut
        (.task k.taskIdCurrent) timeout) :=
      hready.trans ((keeps_tickQOverflow _ timeout).trans (.of_tcb rfl rfl))
    refine .of_keeps hc (fun q _ => by rw [hq]) ?_
    exact hput.trans (keeps_setStatus _ k.taskIdCurrent (f := fun s => { s with delay := true })
      fun _ => rfl)
  | delete t =>
    rw [envStep, EnvOp.kernelOp, kernelStep, Option.ite_none_right_eq_some] at hs
    obtain rfl := Option.some.inj hs.2
    refine ⟨hc, fun q _ => ?_, fun u => ?_, fun u hu => ?_⟩
    · rw [pendQ_vmxDelete h q]
      exact ((eraseId_sublist (k.pendQ q) t).map Prod.fst).subperm
    · exact (deletes_vmxDelete k t).1 u
    · exact (deletes_vmxDelete k t).2 u hu
  | safetyWait t timeout =>
    rw [envStep, EnvOp.kernelOp, kernelStep, Option.ite_none_right_eq_some] at hs
    obtain rfl := Option.some.inj hs.2
    refine .of_keeps hc (fun q hq => ?_) (keeps_vmxPendQPut k _ timeout)
    rw [pendQ_vmxPendQPut, Function.update_of_ne (hq t)]
  | safetyFlush t =>
    have hflush : runJob k (.pendQFlush (.safetyQ t)) = vmxPendQFlush k (.safetyQ t) :=
      if_pos trivial
    obtain rfl : runJob k (.pendQFlush (.safetyQ t)) = k' := Option.some.inj hs
    rw [hflush] at hc ⊢
    refine .of_keeps hc (fun q hq => ?_) (keeps_vmxPendQFlush k _)
    show (ids ((vmxPendQFlush k (.safetyQ t)).pendQ q)).Subperm _
    rw [pendQ_vmxPendQFlush, Function.update_of_ne (hq t)]
  | dispatch =>
    rw [envStep, EnvOp.kernelOp, kernelStep] at hs
    split at hs
    · simp at hs
    · cases hs
      exact ⟨hc, fun q _ => List.Subperm.refl _, fun _ => rfl, fun _ hu => hu⟩

end Vmx
