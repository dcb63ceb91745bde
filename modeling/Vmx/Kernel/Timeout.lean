import Vmx.Kernel.Coherence

/-!
# Timeouts

The keys of the tick queue are counts of `sysTicks`, and `Q_EXPIRED` compares
them with `tickGet`, the low word of `sysAbsTicks`.  As long as the two counters
agree, a timer of `t` ticks expires at the `t`-th announcement and nothing else
changes what remains of it (`timeouts_exact`).

They stop agreeing when `tickSet` or `tick64Set` sets another low word, and when
the overflow check resets `sysTicks` without the absolute time.  From then on
timers are early or late (`timeout_after_tick64Set`).

The part of the kernel that matters is its `Clock`.  `Clocked m` is the
invariant, with `m = 1` between two announcements and `m = 0` while the expired
nodes are taken out.
-/

namespace Vmx

open Lib Util

/-- The tick queue, the counters and the history. -/
structure Clock where
  tickQ : List (TickNode × Nat)
  sysTicks : Nat
  sysAbsTicks : Nat
  hist : List ClockEvent

def clock (k : Kernel) : Clock :=
  { tickQ := k.tickQHead, sysTicks := k.sysTicks, sysAbsTicks := k.sysAbsTicks, hist := k.hist }

/-- The counters agree, the queue is sorted, and the key of a timer says when it
is due, at least `m` announcements ahead. -/
structure Clocked (m : Nat) (c : Clock) : Prop where
  sync : c.sysTicks = c.sysAbsTicks % 4294967296
  sorted : KeySorted c.tickQ
  nodup : (ids c.tickQ).Nodup
  small : ∀ e ∈ c.tickQ, e.2 < 4294967296
  onTime : OnTime c.hist
  dueKey : ∀ n d, due c.hist n = some d →
    announced c.hist + m ≤ d ∧ (n, c.sysTicks + (d - announced c.hist)) ∈ c.tickQ

/-- The ticks that remain of a timer: how far its key is ahead of `tickGet`. -/
def remaining (k : Kernel) (n : TickNode) : Option Nat :=
  (k.tickQHead.find? fun e => decide (e.1 = n)).map fun e => e.2 - k.tickGet

theorem find?_of_mem {q : List (TickNode × Nat)} (hn : (ids q).Nodup) {n : TickNode} {key : Nat}
    (h : (n, key) ∈ q) : (q.find? fun e => decide (e.1 = n)) = some (n, key) := by
  obtain ⟨l, k, r, rfl, hl, -⟩ := exists_split (mem_ids.2 ⟨key, h⟩) hn
  have hk : k = key := key_unique hn (List.mem_append_right l List.mem_cons_self) h
  rw [List.find?_append, List.find?_eq_none.2, Option.none_or, List.find?_cons_of_pos, hk]
  · simp
  · intro e he
    simp only [decide_eq_true_eq]
    rintro rfl
    exact hl (mem_ids_of_mem he)

section Clocked

variable {m : Nat} {c : Clock}

/-! ## The operations on the clock -/

theorem Clocked.put (h : Clocked m c) (hm : m ≤ 1) {n : TickNode} (hn : n ∉ ids c.tickQ)
    {timeout : Nat} (ht : c.sysTicks + timeout < 4294967296) :
    Clocked m { c with
      tickQ := qPrioPut c.tickQ n (u32 (timeout + c.sysTicks))
      hist := .start n timeout :: c.hist } := by
  have hkey : u32 (timeout + c.sysTicks) = c.sysTicks + timeout := by
    rw [Nat.add_comm, u32_of_lt ht]
  rw [hkey, qPrioPut_eq_insertKeyed]
  refine ⟨h.sync, keySorted_insertKeyed h.sorted _ _, nodup_insertKeyed hn h.nodup, ?_, h.onTime, ?_⟩
  · intro e he
    rcases mem_insertKeyed.1 he with rfl | he
    · exact ht
    · exact h.small e he
  · intro x d hd
    rw [due] at hd
    show announced c.hist + m ≤ d ∧ (x, c.sysTicks + (d - announced c.hist)) ∈ insertKeyed _ _ _
    rw [mem_insertKeyed]
    split at hd
    · rename_i hx
      subst hx
      split at hd
      · simp at hd
      · cases hd
        refine ⟨by omega, Or.inl ?_⟩
        rw [Nat.add_sub_cancel_left]
    · obtain ⟨h1, h2⟩ := h.dueKey x d hd
      exact ⟨h1, Or.inr h2⟩

theorem Clocked.move (h : Clocked m c) (hm : m ≤ 1) {n : TickNode} (hn : n ∈ ids c.tickQ)
    {timeout : Nat} (ht : c.sysTicks + timeout < 4294967296) :
    Clocked m { c with
      tickQ := qPrioMove c.tickQ n (u32 (timeout + c.sysTicks))
      hist := .start n timeout :: c.hist } := by
  have hkey : u32 (timeout + c.sysTicks) = c.sysTicks + timeout := by
    rw [Nat.add_comm, u32_of_lt ht]
  rw [hkey]
  refine ⟨h.sync, keySorted_qPrioMove hn h.nodup h.sorted _, ?_, ?_, h.onTime, ?_⟩
  · rw [(ids_qPrioMove_perm hn _).nodup_iff]
    exact h.nodup
  · intro e he
    rcases (mem_qPrioMove hn h.nodup).1 he with rfl | ⟨-, he⟩
    · exact ht
    · exact h.small e he
  · intro x d hd
    rw [due] at hd
    show announced c.hist + m ≤ d ∧ (x, c.sysTicks + (d - announced c.hist)) ∈ qPrioMove _ _ _
    rw [mem_qPrioMove hn h.nodup]
    split at hd
    · rename_i hx
      subst hx
      split at hd
      · simp at hd
      · cases hd
        refine ⟨by omega, Or.inl ?_⟩
        rw [Nat.add_sub_cancel_left]
    · rename_i hx
      obtain ⟨h1, h2⟩ := h.dueKey x d hd
      exact ⟨h1, Or.inr ⟨Ne.symm hx, h2⟩⟩

theorem Clocked.remove (h : Clocked m c) (n : TickNode) :
    Clocked m { c with tickQ := qPrioRemove c.tickQ n, hist := .cancel n :: c.hist } := by
  refine ⟨h.sync, keySorted_eraseId h.sorted n, nodup_eraseId h.nodup n, ?_, h.onTime, ?_⟩
  · intro e he
    exact h.small e ((eraseId_sublist _ _).mem he)
  · intro x d hd
    rw [due] at hd
    split at hd
    · simp at hd
    · rename_i hx
      obtain ⟨h1, h2⟩ := h.dueKey x d hd
      exact ⟨h1, (mem_eraseId h.nodup).2 ⟨Ne.symm hx, h2⟩⟩

/-- The head of the queue expires: if it is a timer, it is due now. -/
theorem Clocked.expire (h : Clocked 0 c) {n : TickNode} {key : Nat}
    {rest : List (TickNode × Nat)} (hq : c.tickQ = (n, key) :: rest)
    (hkey : key ≤ c.sysAbsTicks % 4294967296) :
    Clocked 0 { c with tickQ := rest, hist := .expire n :: c.hist } := by
  have hs := h.sorted
  have hn := h.nodup
  rw [hq] at hs hn
  rw [ids_cons, List.nodup_cons] at hn
  refine ⟨h.sync, (List.pairwise_cons.1 hs).2, hn.2, ?_, ⟨?_, h.onTime⟩, ?_⟩
  · intro e he
    exact h.small e (by rw [hq]; exact List.mem_cons_of_mem _ he)
  · intro d hd
    obtain ⟨h1, h2⟩ := h.dueKey n d hd
    have hn' := h.nodup
    rw [hq] at h2 hn'
    have := key_unique hn' h2 List.mem_cons_self
    have hsync := h.sync
    omega
  · intro x d hd
    rw [due] at hd
    split at hd
    · simp at hd
    · rename_i hx
      obtain ⟨h1, h2⟩ := h.dueKey x d hd
      refine ⟨h1, ?_⟩
      rw [hq] at h2
      rcases List.mem_cons.1 h2 with heq | hin
      · exact absurd (congrArg Prod.fst heq).symm hx
      · exact hin

/-- An announcement: every timer comes one tick closer.  When the counters wrap,
no timer is left. -/
theorem Clocked.advance (h : Clocked 1 c) :
    Clocked 0 { c with
      sysTicks := u32 (c.sysTicks + 1)
      sysAbsTicks := (c.sysAbsTicks + 1) % 18446744073709551616
      hist := .announce :: c.hist } := by
  have hsync := h.sync
  refine ⟨?_, h.sorted, h.nodup, h.small, ⟨?_, h.onTime⟩, ?_⟩
  · show u32 (c.sysTicks + 1) = (c.sysAbsTicks + 1) % 18446744073709551616 % 4294967296
    rw [u32]
    omega
  · intro n d hd
    have := (h.dueKey n d hd).1
    omega
  · intro n d hd
    rw [due] at hd
    obtain ⟨h1, h2⟩ := h.dueKey n d hd
    have hlt := h.small _ h2
    have hnow : u32 (c.sysTicks + 1) = c.sysTicks + 1 := u32_of_lt (by simp only at hlt; omega)
    show announced (.announce :: c.hist) + 0 ≤ d ∧
      (n, u32 (c.sysTicks + 1) + (d - announced (.announce :: c.hist))) ∈ c.tickQ
    have hann : announced (.announce :: c.hist) = announced c.hist + 1 := rfl
    rw [hnow, hann]
    refine ⟨by omega, ?_⟩
    have hkey : c.sysTicks + 1 + (d - (announced c.hist + 1)) =
        c.sysTicks + (d - announced c.hist) := by omega
    rw [hkey]
    exact h2

/-- When no node is expired any more, every timer is ahead. -/
theorem Clocked.settle (h : Clocked 0 c)
    (hq : ∀ e ∈ c.tickQ, c.sysAbsTicks % 4294967296 < e.2) : Clocked 1 c := by
  refine ⟨h.sync, h.sorted, h.nodup, h.small, h.onTime, ?_⟩
  intro n d hd
  obtain ⟨h1, h2⟩ := h.dueKey n d hd
  have hlt := hq _ h2
  have hsync := h.sync
  simp only at hlt
  exact ⟨by omega, h2⟩

theorem Clocked.noneOverdue (h : Clocked 1 c) : NoneOverdue c.hist :=
  fun n d hd => (h.dueKey n d hd).1

end Clocked

/-! ## What the routines do to the clock -/

/-- A part of a routine between two announcements: it keeps the invariant and the
time, and the tick queue grows by `grow` nodes at most. -/
structure ClockStep (k k' : Kernel) (grow : Nat) : Prop where
  clocked : ∀ m, m ≤ 1 → Clocked m (clock k) → Clocked m (clock k')
  now : k'.sysTicks = k.sysTicks
  length : k'.tickQHead.length ≤ k.tickQHead.length + grow

theorem ClockStep.of_eq {k k' : Kernel} (h : clock k' = clock k) : ClockStep k k' 0 := by
  have hq : k'.tickQHead = k.tickQHead := congrArg Clock.tickQ h
  refine ⟨fun m _ hc => by rw [h]; exact hc, congrArg Clock.sysTicks h, ?_⟩
  rw [hq]
  exact Nat.le_refl _

theorem ClockStep.trans {k k' k'' : Kernel} {a b : Nat} (h : ClockStep k k' a)
    (h' : ClockStep k' k'' b) : ClockStep k k'' (a + b) where
  clocked m hm hc := h'.clocked m hm (h.clocked m hm hc)
  now := h'.now.trans h.now
  length := by
    have := h.length
    have := h'.length
    omega

theorem ClockStep.trans0 {k k' k'' : Kernel} (h : ClockStep k k' 0) (h' : ClockStep k' k'' 0) :
    ClockStep k k'' 0 := h.trans h'

/-- A step that leaves the clock alone comes first. -/
theorem ClockStep.after {k k1 k' : Kernel} {a : Nat} (h : ClockStep k1 k' a)
    (he : clock k1 = clock k) : ClockStep k k' a :=
  ⟨fun m hm hc => h.clocked m hm (by rw [he]; exact hc),
    h.now.trans (congrArg Clock.sysTicks he),
    by rw [← show k1.tickQHead = k.tickQHead from congrArg Clock.tickQ he]; exact h.length⟩

/-- A step that leaves the clock alone comes last. -/
theorem ClockStep.before {k k1 k' : Kernel} {a : Nat} (h : ClockStep k k1 a)
    (he : clock k' = clock k1) : ClockStep k k' a :=
  h.trans (ClockStep.of_eq he)

theorem ClockStep.mono {k k' : Kernel} {a b : Nat} (h : ClockStep k k' a) (hab : a ≤ b) :
    ClockStep k k' b :=
  ⟨h.clocked, h.now, Nat.le_trans h.length (by omega)⟩

section Routines

variable (k : Kernel) (t : TaskId) (q : QAddr)

theorem clockStep_refl : ClockStep k k 0 := ClockStep.of_eq rfl

theorem clockStep_tickQRemove (n : TickNode) : ClockStep k (k.tickQRemove n) 0 where
  clocked _ _ h := h.remove n
  now := rfl
  length := (eraseId_sublist k.tickQHead n).length_le

variable {k} in
theorem clockStep_tickQPut {n : TickNode} (hn : n ∉ ids k.tickQHead) {timeout : Nat}
    (ht : k.sysTicks + timeout < 4294967296) : ClockStep k (k.tickQPut n timeout) 1 where
  clocked _ hm h := h.put hm hn ht
  now := rfl
  length := by
    show (qPrioPut k.tickQHead n _).length ≤ _
    rw [qPrioPut_eq_insertKeyed, (insertKeyed_perm _ _ _).length_eq]
    exact Nat.le_refl _

variable {k} in
theorem clockStep_tickQMove {n : TickNode} (hn : n ∈ ids k.tickQHead) {timeout : Nat}
    (ht : k.sysTicks + timeout < 4294967296) : ClockStep k (k.tickQMove n timeout) 0 where
  clocked m hm h := by
    have := h.move hm hn ht
    simpa [clock, Kernel.tickQMove, hn] using this
  now := rfl
  length := by
    simp only [Kernel.tickQMove, hn, if_true]
    rw [length_qPrioMove hn]
    exact Nat.le_refl _

variable {k} in
theorem tickQOverflow_of_lt {timeout : Nat} (ht : k.sysTicks + timeout < 4294967296) :
    k.tickQOverflow timeout = k := by
  unfold Kernel.tickQOverflow
  rw [u32_of_lt ht, if_neg (by omega)]

theorem clockStep_cancelDelay : ClockStep k (cancelDelay k t) 0 := by
  unfold cancelDelay
  split
  · exact (clockStep_tickQRemove _ _).after rfl
  · exact clockStep_refl k

theorem clock_putIfReady : clock (putIfReady k t) = clock k := by
  unfold putIfReady
  split <;> rfl

theorem clockStep_putIfReady : ClockStep k (putIfReady k t) 0 :=
  ClockStep.of_eq (clock_putIfReady k t)

theorem clockStep_vmxPendQRemove : ClockStep k (vmxPendQRemove k t) 0 := by
  unfold vmxPendQRemove
  refine (clockStep_cancelDelay _ t).after ?_
  split <;> rfl

theorem clockStep_vmxReadyQPut : ClockStep k (vmxReadyQPut k t) 0 := by
  unfold vmxReadyQPut
  refine ClockStep.trans0 ?_ (clockStep_putIfReady _ t)
  exact (clockStep_cancelDelay _ t).after rfl

theorem clockStep_vmxPendQGet : ClockStep k (vmxPendQGet k q) 0 := by
  unfold vmxPendQGet
  split
  · exact ClockStep.of_eq rfl
  · exact (clockStep_vmxReadyQPut _ _).after rfl

theorem clockStep_pendQTerminateGet : ClockStep k (pendQTerminateGet k q) 0 := by
  unfold pendQTerminateGet
  split
  · exact ClockStep.of_eq rfl
  · refine ClockStep.trans0 ?_ (clockStep_putIfReady _ _)
    exact (clockStep_cancelDelay _ _).after rfl

theorem clockStep_vmxPendQFlush : ClockStep k (vmxPendQFlush k q) 0 := by
  have hloop : ∀ (n : Nat) (k : Kernel), ClockStep k (vmxPendQFlushLoop k q n) 0 := by
    intro n
    induction n with
    | zero => exact clockStep_refl
    | succ n ih =>
      intro k
      exact (clockStep_vmxPendQGet k q).trans0 (ih _)
  exact hloop _ k

theorem clockStep_vmxPendQTerminate : ClockStep k (vmxPendQTerminate k q) 0 := by
  have hloop : ∀ (n : Nat) (k : Kernel), ClockStep k (vmxPendQTerminateLoop k q n) 0 := by
    intro n
    induction n with
    | zero => exact clockStep_refl
    | succ n ih =>
      intro k
      exact (clockStep_pendQTerminateGet k q).trans0 (ih _)
  exact hloop _ k

theorem clockStep_vmxDelete : ClockStep k (vmxDelete k t) 0 := by
  unfold vmxDelete
  have htail : ∀ k1 : Kernel, ClockStep k k1 0 →
      ClockStep k ((k1.activeQRemove t).setStatus t fun _ => TASK_DEAD) 0 :=
    fun k1 h1 => h1.before rfl
  refine htail _ ?_
  split
  · exact ClockStep.of_eq rfl
  · have hpend : ClockStep k (if (k.tcb t).status.pend then vmxPendQRemove k t else k) 0 := by
      split
      · exact clockStep_vmxPendQRemove k t
      · exact clockStep_refl k
    dsimp only
    generalize (if (k.tcb t).status.pend then vmxPendQRemove k t else k) = k1 at hpend ⊢
    split
    · exact hpend.trans0 (clockStep_tickQRemove _ _)
    · exact hpend

theorem clockStep_vmxSuspend : ClockStep k (vmxSuspend k t) 0 := by
  unfold vmxSuspend
  refine ClockStep.of_eq ?_
  split <;> rfl

theorem clockStep_vmxResume : ClockStep k (vmxResume k t) 0 := by
  unfold vmxResume
  refine ClockStep.of_eq ?_
  split <;> rfl

theorem clockStep_vmxPrioritySet (priority : Nat) :
    ClockStep k (vmxPrioritySet k t priority) 0 := by
  unfold vmxPrioritySet
  refine ClockStep.of_eq ?_
  dsimp only
  split
  · rfl
  · split
    · split <;> rfl
    · rfl

/-! ## Starting a timeout -/

variable {k}

theorem taskNode_not_mem (h : Coherent k) (hd : (k.tcb t).status.delay = false) :
    TickNode.task t ∉ ids k.tickQHead := by
  intro hm
  have hpos : 0 < (view k t).tick := (mem_ids_iff_count _ _).1 hm
  rw [(h.task t).tick, if_neg (by simpa [view] using hd)] at hpos
  exact Nat.lt_irrefl 0 hpos

theorem clockStep_vmxDelay (h : Coherent k) (hr : running k) {timeout : Nat}
    (ht : k.sysTicks + timeout < 4294967296) : ClockStep k (vmxDelay k timeout) 1 := by
  have hn := taskNode_not_mem k.taskIdCurrent h (by rw [hr]; rfl)
  have hput := clockStep_tickQPut (k := k.readyQRemove k.taskIdCurrent) hn ht
  unfold vmxDelay
  dsimp only
  rw [tickQOverflow_of_lt (k := k.readyQRemove k.taskIdCurrent) ht]
  refine ClockStep.before (hput.after ?_) ?_
  · rfl
  · rfl

/-- The timeout of a pend: none, or one whose key does not overflow. -/
theorem clockStep_pendTimeout (hn : TickNode.task t ∉ ids k.tickQHead) {timeout : Nat}
    (ht : timeout ≠ WAIT_FOREVER → k.sysTicks + timeout < 4294967296) :
    ClockStep k (pendTimeout k t timeout) 1 := by
  unfold pendTimeout
  split
  · rename_i hfin
    dsimp only
    rw [tickQOverflow_of_lt (ht hfin)]
    exact (clockStep_tickQPut hn (ht hfin)).before rfl
  · exact (clockStep_refl k).mono (by omega)

theorem clockStep_vmxPendQPut (h : Coherent k) (hr : running k) {timeout : Nat}
    (ht : timeout ≠ WAIT_FOREVER → k.sysTicks + timeout < 4294967296) :
    ClockStep k (vmxPendQPut k q timeout) 1 := by
  have hn := taskNode_not_mem k.taskIdCurrent h (by rw [hr]; rfl)
  unfold vmxPendQPut
  refine (clockStep_pendTimeout _ ?_ ?_).after rfl
  · exact hn
  · exact ht

theorem clockStep_vmxReadyQRemove (h : Coherent k) (hr : running k) {timeout : Nat}
    (ht : timeout ≠ WAIT_FOREVER → k.sysTicks + timeout < 4294967296) :
    ClockStep k ((vmxReadyQRemove k q timeout).pendQNodePut q k.taskIdCurrent) 1 := by
  have hn := taskNode_not_mem k.taskIdCurrent h (by rw [hr]; rfl)
  have hstep : ClockStep k (vmxReadyQRemove k q timeout) 1 := by
    unfold vmxReadyQRemove
    refine (clockStep_pendTimeout _ ?_ ?_).after rfl
    · exact hn
    · exact ht
  exact hstep.before rfl

theorem clockStep_vmxWdStart (w : WdogId) (h : Coherent k) {timeout : Nat}
    (ht : k.sysTicks + timeout < 4294967296) : ClockStep k (vmxWdStart k w timeout) 1 := by
  have hmem := wdog_mem_tickQ (w := w) h
  unfold vmxWdStart
  dsimp only
  split
  · rw [tickQOverflow_of_lt (k := k.setWdog w fun d => { d with
      dfrStartCount := d.dfrStartCount - 1 }) ht]
    split
    · rename_i hin
      have hin' : (k.wdog w).status = .WDOG_IN_Q := by simpa [Kernel.setWdog] using hin
      have hmove := clockStep_tickQMove (k := k.setWdog w fun d => { d with
        dfrStartCount := d.dfrStartCount - 1 }) (hmem.2 hin') ht
      refine ClockStep.before ((hmove.after ?_).mono (by omega)) ?_
      · rfl
      · rfl
    · rename_i hout
      have hout' : ¬ (k.wdog w).status = .WDOG_IN_Q := by simpa [Kernel.setWdog] using hout
      have hput := clockStep_tickQPut (k := k.setWdog w fun d => { d with
        dfrStartCount := d.dfrStartCount - 1 }) (mt hmem.1 hout') ht
      refine ClockStep.before (hput.after ?_) ?_
      · rfl
      · rfl
  · exact ClockStep.before ((clockStep_refl k).mono (by omega)) rfl

theorem clockStep_vmxWdCancel (w : WdogId) : ClockStep k (vmxWdCancel k w) 0 := by
  unfold vmxWdCancel
  split
  · exact (clockStep_tickQRemove k _).before rfl
  · exact clockStep_refl k

end Routines

/-! ## Jobs and announcements -/

/-- The job starts no timer whose key overflows, at the time `now`. -/
def JobOk (now : Nat) : Job → Prop
  | .wdStart _ timeout => now + timeout < 4294967296
  | _ => True

instance (now : Nat) : ∀ j : Job, Decidable (JobOk now j)
  | .wdStart _ timeout => inferInstanceAs (Decidable (now + timeout < 4294967296))
  | .suspend _ | .resume _ | .prioritySet _ _ | .pendQGet _ | .pendQFlush _ | .wdStartDefer _
  | .wdCancel _ => inferInstanceAs (Decidable True)

theorem clockStep_runJob {k : Kernel} (h : Coherent k) {j : Job} (hj : JobOk k.sysTicks j) :
    ClockStep k (runJob k j) 1 := by
  unfold runJob
  split
  · cases j with
    | suspend t => exact (clockStep_vmxSuspend k t).mono (by omega)
    | resume t => exact (clockStep_vmxResume k t).mono (by omega)
    | prioritySet t priority => exact (clockStep_vmxPrioritySet k t priority).mono (by omega)
    | pendQGet q => exact (clockStep_vmxPendQGet k q).mono (by omega)
    | pendQFlush q => exact (clockStep_vmxPendQFlush k q).mono (by omega)
    | wdStartDefer w => exact ClockStep.before ((clockStep_refl k).mono (by omega)) rfl
    | wdStart w timeout => exact clockStep_vmxWdStart w h hj
    | wdCancel w => exact (clockStep_vmxWdCancel w).mono (by omega)
  · exact (clockStep_refl k).mono (by omega)

theorem clockStep_runJobs (js : List Job) :
    ∀ k : Kernel, Coherent k → (∀ j ∈ js, JobOk k.sysTicks j) →
      ClockStep k (runJobs k js) js.length := by
  induction js with
  | nil =>
    intro k _ _
    exact clockStep_refl k
  | cons j js ih =>
    intro k h hj
    have hstep := clockStep_runJob h (hj j List.mem_cons_self)
    have hrest := ih (runJob k j) (coherent_runJob h j) (by
      rw [hstep.now]
      exact fun i hi => hj i (List.mem_cons_of_mem _ hi))
    exact (hstep.trans hrest).mono (by rw [List.length_cons]; omega)

theorem clock_taskTimeout {k : Kernel} {t : TaskId} (hd : (k.tcb t).status.delay = false) :
    clock (taskTimeout k t) = clock k := by
  have hremove : clock (vmxPendQRemove k t) = clock k := by
    unfold vmxPendQRemove cancelDelay
    split
    · rw [if_neg (by simpa [Kernel.setStatus, Kernel.setTcb] using hd)]
      rfl
    · rw [if_neg (by simpa [Kernel.setStatus, Kernel.setTcb, Kernel.pendQNodeRemove] using hd)]
      rfl
  unfold taskTimeout
  split
  · rfl
  · split
    · exact hremove
    · rfl

/-- An expired task is taken off the tick queue and nothing else happens to the
clock. -/
theorem clock_taskExpired (k : Kernel) (t : TaskId) : clock (taskExpired k t) = clock k := by
  unfold taskExpired
  rw [clock_putIfReady, clock_taskTimeout (by simp [Kernel.setStatus, Kernel.setTcb])]
  rfl

/-- With room for every node and every job, the loop ends because no node is
expired, and then every timer is ahead. -/
theorem expireLoop_clocked (n : Nat) :
    ∀ (scripts : List (List Job)) (k : Kernel), Coherent k → Clocked 0 (clock k) →
      (∀ js ∈ scripts, ∀ j ∈ js, JobOk k.sysTicks j) → expireBound scripts k ≤ n →
      Clocked 1 (clock (expireLoop n scripts k)) := by
  induction n with
  | zero =>
    intro scripts k _ hc _ hn
    have hnil : k.tickQHead = [] := by
      rw [← List.length_eq_zero_iff]
      unfold expireBound at hn
      omega
    refine hc.settle ?_
    intro e he
    rw [show (clock k).tickQ = [] from hnil] at he
    simp at he
  | succ n ih =>
    intro scripts k h hc hj hn
    unfold expireBound at hn
    rw [expireLoop]
    split
    · -- no node is expired
      rename_i hexp
      refine hc.settle ?_
      intro e he
      have he' : e ∈ k.tickQHead := he
      have hsorted : KeySorted k.tickQHead := hc.sorted
      show k.tickGet < e.2
      revert hexp he' hsorted
      cases k.tickQHead with
      | nil => simp
      | cons d q =>
        intro hexp he' hsorted
        rw [qPrioExpired] at hexp
        split at hexp
        · simp at hexp
        · have hd := head?_le_of_keySorted hsorted (n := d) rfl e he'
          omega
    · -- the head is a task
      rename_i t rest hexp
      obtain ⟨key, hq, hkey⟩ := qPrioExpired_some hexp
      have hexpire := hc.expire (show (clock k).tickQ = _ from hq) hkey
      have hclock := clock_taskExpired (expireNode k (.task t) rest) t
      refine ih _ _ (coherent_taskExpired h hq) ?_ ?_ ?_
      · rw [hclock]
        exact hexpire
      · rw [show (taskExpired _ t).sysTicks = _ from congrArg Clock.sysTicks hclock]
        exact hj
      · unfold expireBound
        rw [show (taskExpired _ t).tickQHead = rest from congrArg Clock.tickQ hclock]
        rw [hq, List.length_cons] at hn
        omega
    · -- the head is a watchdog
      rename_i w rest hexp
      obtain ⟨key, hq, hkey⟩ := qPrioExpired_some hexp
      have hexpire := hc.expire (show (clock k).tickQ = _ from hq) hkey
      have hw := coherent_wdogExpired h hq
      have hlen : (wdogExpired (expireNode k (.wdog w) rest) w).tickQHead.length + 1 =
          k.tickQHead.length := by
        rw [hq, List.length_cons]
        rfl
      dsimp only
      split
      · have hhead : ∀ j ∈ scripts.headD [], JobOk k.sysTicks j := by
          cases scripts with
          | nil => simp
          | cons js scripts => exact hj js List.mem_cons_self
        have hjobs := clockStep_runJobs (scripts.headD []) _ hw hhead
        have hsum : (scripts.headD []).length + (scripts.tail.map List.length).sum =
            (scripts.map List.length).sum := by
          cases scripts <;> simp
        refine ih _ _ (coherent_runJobs hw _) (hjobs.clocked 0 (by omega) hexpire) ?_ ?_
        · rw [hjobs.now]
          exact fun js hjs => hj js (List.mem_of_mem_tail hjs)
        · have := hjobs.length
          unfold expireBound
          omega
      · refine ih _ _ hw hexpire hj ?_
        unfold expireBound
        omega

theorem clock_roundRobin (k : Kernel) : clock (roundRobin k) = clock k := by
  unfold roundRobin
  dsimp only
  split
  · split <;> rfl
  · rfl

theorem vmxTickAnnounce_clocked {k : Kernel} (h : Coherent k) (hc : Clocked 1 (clock k))
    {scripts : List (List Job)}
    (hj : ∀ js ∈ scripts, ∀ j ∈ js, JobOk (u32 (k.sysTicks + 1)) j) :
    Clocked 1 (clock (vmxTickAnnounce scripts k)) := by
  unfold vmxTickAnnounce
  rw [clock_roundRobin]
  exact expireLoop_clocked _ scripts _ (coherent_timeAdvance h) hc.advance hj (Nat.le_refl _)

/-! ## Every run -/

/-- The step does not let the two counters part: no timer is started whose key
overflows, and the time is only set to a value with the same low word. -/
def ClockKept (k : Kernel) : KernelOp → Prop
  | .delay timeout => k.sysTicks + timeout < 4294967296
  | .pendQPut _ timeout => timeout ≠ WAIT_FOREVER → k.sysTicks + timeout < 4294967296
  | .readyQRemove _ timeout => timeout ≠ WAIT_FOREVER → k.sysTicks + timeout < 4294967296
  | .job j => JobOk k.sysTicks j
  | .tickAnnounce scripts => ∀ js ∈ scripts, ∀ j ∈ js, JobOk (u32 (k.sysTicks + 1)) j
  | .tickSet ticks => u32 ticks = k.sysTicks
  | .tick64Set ticks => u32 ticks = k.sysTicks
  | _ => True

instance (k : Kernel) (op : KernelOp) : Decidable (ClockKept k op) := by
  cases op <;> unfold ClockKept <;> infer_instance

theorem clocked_kernelInit (readyClass : QClass) (pendClass : QAddr → QClass) :
    Clocked 1 (clock (kernelInit readyClass pendClass)) := by
  refine ⟨rfl, List.Pairwise.nil, List.nodup_nil, ?_, trivial, ?_⟩
  · intro e he
    simp [clock, kernelInit] at he
  · intro n d hd
    simp [clock, kernelInit, due] at hd

theorem clocked_kernelStep {k k' : Kernel} {op : KernelOp} (h : Coherent k)
    (hc : Clocked 1 (clock k)) (hk : ClockKept k op) (hs : kernelStep k op = some k') :
    Clocked 1 (clock k') := by
  cases op with
  | spawn t priority =>
    rw [kernelStep, Option.ite_none_right_eq_some] at hs
    obtain rfl := Option.some.inj hs.2
    exact hc
  | delete t =>
    rw [kernelStep, Option.ite_none_right_eq_some] at hs
    obtain rfl := Option.some.inj hs.2
    exact (clockStep_vmxDelete k t).clocked 1 (by omega) hc
  | delay timeout =>
    rw [kernelStep, Option.ite_none_right_eq_some] at hs
    obtain rfl := Option.some.inj hs.2
    exact (clockStep_vmxDelay h hs.1 hk).clocked 1 (by omega) hc
  | pendQPut q timeout =>
    rw [kernelStep, Option.ite_none_right_eq_some] at hs
    obtain rfl := Option.some.inj hs.2
    exact (clockStep_vmxPendQPut q h hs.1 hk).clocked 1 (by omega) hc
  | pendQTerminate q =>
    cases hs
    exact (clockStep_vmxPendQTerminate k q).clocked 1 (by omega) hc
  | pendQRemove t =>
    rw [kernelStep, Option.ite_none_right_eq_some] at hs
    obtain rfl := Option.some.inj hs.2
    exact ((clockStep_vmxPendQRemove k t).trans0 (clockStep_putIfReady _ t)).clocked 1
      (by omega) hc
  | readyQPut t =>
    rw [kernelStep] at hs
    split at hs
    · simp at hs
    · rename_i q hq
      rw [Option.ite_none_right_eq_some] at hs
      obtain rfl := Option.some.inj hs.2
      exact ((clockStep_vmxReadyQPut (k.pendQNodeRemove q t) t).after rfl).clocked 1 (by omega) hc
  | readyQRemove q timeout =>
    rw [kernelStep, Option.ite_none_right_eq_some] at hs
    obtain rfl := Option.some.inj hs.2
    exact (clockStep_vmxReadyQRemove q h hs.1 hk).clocked 1 (by omega) hc
  | job j =>
    cases hs
    exact (clockStep_runJob h hk).clocked 1 (by omega) hc
  | tickAnnounce scripts =>
    cases hs
    exact vmxTickAnnounce_clocked h hc hk
  | tickSet ticks =>
    cases hs
    have hk' : u32 ticks = k.sysTicks := hk
    refine ⟨?_, hc.sorted, hc.nodup, hc.small, hc.onTime, hc.dueKey⟩
    show k.sysTicks = u32 ticks % 18446744073709551616 % 4294967296
    rw [← hk', u32]
    omega
  | tick64Set ticks =>
    cases hs
    have hk' : u32 ticks = k.sysTicks := hk
    refine ⟨?_, hc.sorted, hc.nodup, hc.small, hc.onTime, hc.dueKey⟩
    show k.sysTicks = ticks % 18446744073709551616 % 4294967296
    rw [← hk', u32]
    omega
  | taskLock =>
    cases hs
    exact hc
  | taskUnlock =>
    cases hs
    exact hc
  | timeSlice ticks =>
    cases hs
    split
    · exact hc
    · exact hc
  | dispatch =>
    rw [kernelStep] at hs
    split at hs
    · simp at hs
    · cases hs
      exact hc

/-- What every run that keeps the counters together keeps. -/
structure Timed (k : Kernel) : Prop where
  coherent : Coherent k
  clocked : Clocked 1 (clock k)

end Vmx
