import Vmx.Kernel.VmxLib

/-!
# What the routines do to the pend queues

The wake-up routines take tasks out of one pend queue, from its head, and leave
the other pend queues as they are.
-/

namespace Vmx

open Lib Util

variable (k : Kernel) (t : TaskId) (q : QAddr)

@[simp] theorem pendQ_cancelDelay : (cancelDelay k t).pendQ = k.pendQ := by
  unfold cancelDelay
  split <;> rfl

@[simp] theorem pendQ_putIfReady : (putIfReady k t).pendQ = k.pendQ := by
  unfold putIfReady
  split <;> rfl

@[simp] theorem pendQ_tickQOverflow (timeout : Nat) :
    (k.tickQOverflow timeout).pendQ = k.pendQ := by
  unfold Kernel.tickQOverflow
  split <;> rfl

@[simp] theorem pendQ_pendTimeout (timeout : Nat) :
    (pendTimeout k t timeout).pendQ = k.pendQ := by
  unfold pendTimeout
  split
  · exact pendQ_tickQOverflow k timeout
  · rfl

@[simp] theorem pendQ_vmxReadyQPut : (vmxReadyQPut k t).pendQ = k.pendQ := by
  unfold vmxReadyQPut
  rw [pendQ_putIfReady, pendQ_cancelDelay]
  rfl

variable {q} in
theorem update_of_empty {pendQ : QAddr → List (TaskId × Nat)} (h : pendQ q = []) :
    pendQ = Function.update pendQ q [] := by
  have := Function.update_eq_self q pendQ
  rw [h] at this
  exact this.symm

/-- `vmxPendQGet` takes the first node out. -/
theorem pendQ_vmxPendQGet :
    (vmxPendQGet k q).pendQ = Function.update k.pendQ q (k.pendQ q).tail := by
  unfold vmxPendQGet
  cases hq : k.pendQ q with
  | nil => exact update_of_empty hq
  | cons node rest => rw [pendQ_vmxReadyQPut, List.tail_cons]

theorem pendQ_pendQTerminateGet :
    (pendQTerminateGet k q).pendQ = Function.update k.pendQ q (k.pendQ q).tail := by
  unfold pendQTerminateGet
  cases hq : k.pendQ q with
  | nil => exact update_of_empty hq
  | cons node rest =>
    rw [pendQ_putIfReady, pendQ_cancelDelay]
    rfl

/-- The flush loops run until the queue is empty, and touch no other queue. -/
theorem pendQ_vmxPendQFlush : (vmxPendQFlush k q).pendQ = Function.update k.pendQ q [] := by
  have hloop : ∀ (n : Nat) (k : Kernel), (k.pendQ q).length = n →
      (vmxPendQFlushLoop k q n).pendQ = Function.update k.pendQ q [] := by
    intro n
    induction n with
    | zero =>
      intro k hn
      exact update_of_empty (List.length_eq_zero_iff.1 hn)
    | succ n ih =>
      intro k hn
      rw [vmxPendQFlushLoop, ih, pendQ_vmxPendQGet, Function.update_idem]
      rw [pendQ_vmxPendQGet, Function.update_self, List.length_tail, hn]
      rfl
  exact hloop _ k rfl

theorem pendQ_vmxPendQTerminate :
    (vmxPendQTerminate k q).pendQ = Function.update k.pendQ q [] := by
  have hloop : ∀ (n : Nat) (k : Kernel), (k.pendQ q).length = n →
      (vmxPendQTerminateLoop k q n).pendQ = Function.update k.pendQ q [] := by
    intro n
    induction n with
    | zero =>
      intro k hn
      exact update_of_empty (List.length_eq_zero_iff.1 hn)
    | succ n ih =>
      intro k hn
      rw [vmxPendQTerminateLoop, ih, pendQ_pendQTerminateGet, Function.update_idem]
      rw [pendQ_pendQTerminateGet, Function.update_self, List.length_tail, hn]
      rfl
  exact hloop _ k rfl

end Vmx
