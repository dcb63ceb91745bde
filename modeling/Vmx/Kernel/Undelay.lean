import Vmx.Kernel.Coherence

/-!
# `vmxUndelay`

The routine ends the delay of a task.  It clears the flag, reports the end of the delay in
`errorStatus` and makes the task ready when no other flag is left.  The node it takes out of the
tick queue is not that of the task: it names the field `priority` instead of `tickNode`.
-/

namespace Vmx

open Lib Util

variable {k : Kernel} {t : TaskId} {options : Nat}

/-- `Q_REMOVE(&tickQHead, &tcbId->priority)`.  `dllRemove` reads the link to the node before from
`priority`, and the link to the node behind from `options`, the next field of the block.  With two
`NULL` links the head and the tail of the queue become `NULL`.  Any other value is written
through. -/
def tickQRemovePriority (k : Kernel) (tcbId : TaskId) (options : Nat) : Kernel :=
  if (k.tcb tcbId).priority = 0 ∧ options = 0 then { k with tickQHead := [] }
  else { k with fault := true }

/-- `vmxUndelay`, of a task with the field `options`. -/
def vmxUndelay (k : Kernel) (tcbId : TaskId) (options : Nat) : Kernel :=
  if (k.tcb tcbId).status.delay = false then k
  else
    let k := k.setStatus tcbId fun s => { s with delay := false }
    let k := tickQRemovePriority k tcbId options
    let k := k.setTcb tcbId fun c => { c with errorStatus := TASK_UNDELAYED }
    putIfReady k tcbId

/-- The control block after the delay. -/
def undelayedTcb (c : Tcb) : Tcb :=
  { c with status := { c.status with delay := false }, errorStatus := TASK_UNDELAYED }

/-- The delay of a task has ended: what becomes of everything but the tick queue. -/
structure Undelayed (k : Kernel) (t : TaskId) (k' : Kernel) : Prop where
  tcb : k'.tcb = Function.update k.tcb t (undelayedTcb (k.tcb t))
  ready : k'.readyQHead =
    if (k'.tcb t).status = TASK_READY then
      qPut k.readyClass k.readyQHead t (k.tcb t).priority
    else k.readyQHead
  linked : (ids k'.readyQHead).count t = if (k'.tcb t).status = TASK_READY then 1 else 0
  active : k'.activeQHead = k.activeQHead
  pend : k'.pendQ = k.pendQ
  wdog : k'.wdog = k.wdog
  current : k'.taskIdCurrent = k.taskIdCurrent
  time : k'.sysTicks = k.sysTicks ∧ k'.sysAbsTicks = k.sysAbsTicks

/-- The removal and the two updates of the control block. -/
theorem vmxUndelay_of_delay (hdelay : (k.tcb t).status.delay = true) :
    vmxUndelay k t options = putIfReady { tickQRemovePriority k t options with
      tcb := Function.update k.tcb t (undelayedTcb (k.tcb t)) } t := by
  have hpriority : ((k.setStatus t fun s => { s with delay := false }).tcb t).priority =
      (k.tcb t).priority := by
    simp [Kernel.setStatus, Kernel.setTcb]
  unfold vmxUndelay
  rw [if_neg (by simp [hdelay])]
  dsimp only
  congr 1
  unfold tickQRemovePriority
  rw [hpriority]
  by_cases hzero : (k.tcb t).priority = 0 ∧ options = 0
  · rw [if_pos hzero, if_pos hzero]
    simp only [Kernel.setStatus, Kernel.setTcb, Function.update_self, Function.update_idem]
    rfl
  · rw [if_neg hzero, if_neg hzero]
    simp only [Kernel.setStatus, Kernel.setTcb, Function.update_self, Function.update_idem]
    rfl

theorem vmxUndelay_spec (h : Coherent k) (hdelay : (k.tcb t).status.delay = true) :
    Undelayed k t (vmxUndelay k t options) := by
  obtain ⟨r, hr⟩ : ∃ r, r = { tickQRemovePriority k t options with
    tcb := Function.update k.tcb t (undelayedTcb (k.tcb t)) } := ⟨_, rfl⟩
  have hsame : r.readyQHead = k.readyQHead ∧ r.readyClass = k.readyClass ∧
      r.activeQHead = k.activeQHead ∧ r.pendQ = k.pendQ ∧ r.wdog = k.wdog ∧
      r.taskIdCurrent = k.taskIdCurrent ∧ r.sysTicks = k.sysTicks ∧
      r.sysAbsTicks = k.sysAbsTicks := by
    rw [hr, tickQRemovePriority]
    split <;> exact ⟨rfl, rfl, rfl, rfl, rfl, rfl, rfl, rfl⟩
  obtain ⟨hready, hclass, hactive, hpend, hwdog, hcurrent, hticks, habs⟩ := hsame
  have htcb : r.tcb = Function.update k.tcb t (undelayedTcb (k.tcb t)) := by rw [hr]
  have hself : r.tcb t = undelayedTcb (k.tcb t) := by
    rw [htcb]
    exact Function.update_self _ _ _
  have hnone : (ids k.readyQHead).count t = 0 := by
    have hcount := (h.task t).ready
    have hbusy : (view k t).status ≠ TASK_READY := by
      intro heq
      have hstatus : (k.tcb t).status = TASK_READY := heq
      rw [hstatus] at hdelay
      exact Bool.false_ne_true hdelay
    rw [if_neg hbusy] at hcount
    exact hcount
  rw [vmxUndelay_of_delay hdelay, ← hr]
  unfold putIfReady
  by_cases hflags : (r.tcb t).status = TASK_READY
  · rw [if_pos hflags]
    have hput : (r.readyQPut t).readyQHead =
        qPut k.readyClass k.readyQHead t (k.tcb t).priority := by
      rw [Kernel.readyQPut, hready, hclass, hself]
      rfl
    have hstatus : ((r.readyQPut t).tcb t).status = TASK_READY := hflags
    constructor
    case tcb => exact htcb
    case ready => rw [if_pos hstatus, hput]
    case linked => rw [if_pos hstatus, hput, count_qPut, hnone, if_pos rfl]
    case active => exact hactive
    case pend => exact hpend
    case wdog => exact hwdog
    case current => exact hcurrent
    case time => exact ⟨hticks, habs⟩
  · rw [if_neg hflags]
    constructor
    case tcb => exact htcb
    case ready => rw [if_neg hflags, hready]
    case linked => rw [if_neg hflags, hready, hnone]
    case active => exact hactive
    case pend => exact hpend
    case wdog => exact hwdog
    case current => exact hcurrent
    case time => exact ⟨hticks, habs⟩

/-- Only the node of the task leaves the tick queue in one case: the task has the priority 0 and
no options, and no other node is in the queue. -/
theorem vmxUndelay_unlinks_iff (h : Coherent k) (hdelay : (k.tcb t).status.delay = true) :
    ((vmxUndelay k t options).fault = false ∧
      (vmxUndelay k t options).tickQHead = qPrioRemove k.tickQHead (.task t)) ↔
    ((k.tcb t).priority = 0 ∧ options = 0) ∧ ids k.tickQHead = [.task t] := by
  have htick : (ids k.tickQHead).count (.task t) = 1 := by
    have hcount := (h.task t).tick
    rw [if_pos (show (view k t).status.delay = true from hdelay)] at hcount
    exact hcount
  have hfields : (vmxUndelay k t options).fault = (tickQRemovePriority k t options).fault ∧
      (vmxUndelay k t options).tickQHead = (tickQRemovePriority k t options).tickQHead := by
    rw [vmxUndelay_of_delay hdelay, putIfReady]
    split <;> exact ⟨rfl, rfl⟩
  rw [hfields.1, hfields.2, tickQRemovePriority]
  by_cases hzero : (k.tcb t).priority = 0 ∧ options = 0
  · rw [if_pos hzero]
    dsimp only
    have hids : ids (qPrioRemove k.tickQHead (.task t)) = (ids k.tickQHead).erase (.task t) :=
      ids_eraseId _ _
    constructor
    · intro hempty
      refine ⟨hzero, ?_⟩
      rw [← hempty.2] at hids
      have hmem : TickNode.task t ∈ ids k.tickQHead := List.count_pos_iff.1 (by omega)
      have hperm := List.perm_cons_erase hmem
      rw [← hids] at hperm
      exact List.perm_singleton.1 hperm
    · intro hall
      refine ⟨h.noFault, ?_⟩
      rw [hall.2, List.erase_cons_head] at hids
      exact (List.map_eq_nil_iff.1 hids).symm
  · rw [if_neg hzero]
    exact iff_of_false (fun hall => Bool.false_ne_true hall.1.symm) fun hall => hzero hall.1

/-- What an exact end of a delay would be. -/
def UndelayExact (k : Kernel) (t : TaskId) (k' : Kernel) : Prop :=
  if (k.tcb t).status.delay = true then
    k'.tickQHead = qPrioRemove k.tickQHead (.task t) ∧
      k'.tcb t = { k.tcb t with status := { (k.tcb t).status with delay := false } } ∧
      (t ∈ ids k'.readyQHead ↔ (k'.tcb t).status = TASK_READY)
  else k' = k

end Vmx
