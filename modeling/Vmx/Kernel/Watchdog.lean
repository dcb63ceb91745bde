import Vmx.Kernel.Coherence
import Vmx.Kernel.WatchdogLib

/-!
# What a watchdog does in every run

A watchdog is in the tick queue once or not at all, as its status says.  When its function is
called, the arguments and the delay are those of its last start, as long as no two starts of it
overlap (`NoOverlap`), and no tick that was announced after a cancel calls it (`fired_right`).
-/

namespace Vmx.Watchdog

open Lib Util

variable {s s' : State} {w : WdogId}

/-! ## The kernel routines on one watchdog -/

theorem wdog_vmxWdStart (k : Kernel) (v : WdogId) (delay : Nat) :
    (vmxWdStart k v delay).wdog = Function.update k.wdog v
      { status := if (k.wdog v).dfrStartCount - 1 = 0 then .WDOG_IN_Q else (k.wdog v).status
        dfrStartCount := (k.wdog v).dfrStartCount - 1 } := by
  have hover : ∀ k : Kernel, (k.tickQOverflow delay).wdog = k.wdog := by
    intro k
    unfold Kernel.tickQOverflow
    split <;> rfl
  have hput : ∀ k : Kernel, (if (k.wdog v).status = .WDOG_IN_Q then k.tickQMove (.wdog v) delay
      else k.tickQPut (.wdog v) delay).wdog = k.wdog := by
    intro k
    split <;> rfl
  obtain ⟨k1, hk1⟩ : ∃ k1, k1 = k.setWdog v fun d => { d with
    dfrStartCount := d.dfrStartCount - 1 } := ⟨_, rfl⟩
  have hwdog : k1.wdog = Function.update k.wdog v
      { (k.wdog v) with dfrStartCount := (k.wdog v).dfrStartCount - 1 } := by rw [hk1]; rfl
  have hcount : (k1.wdog v).dfrStartCount = (k.wdog v).dfrStartCount - 1 := by
    rw [hwdog, Function.update_self]
  unfold vmxWdStart
  rw [← hk1]
  dsimp only
  rw [hcount]
  by_cases hzero : (k.wdog v).dfrStartCount - 1 = 0
  · rw [if_pos hzero, if_pos hzero]
    show Function.update (ite _ _ _ : Kernel).wdog v _ = _
    rw [hput, hover, hwdog, Function.update_self, Function.update_idem]
  · rw [if_neg hzero, if_neg hzero, hwdog]

theorem wdog_vmxWdCancel (k : Kernel) (v : WdogId) :
    (vmxWdCancel k v).wdog = Function.update k.wdog v
      { (k.wdog v) with
        status := if (k.wdog v).status = .WDOG_IN_Q then .WDOG_OUT_OF_Q
          else (k.wdog v).status } := by
  unfold vmxWdCancel
  by_cases hin : (k.wdog v).status = .WDOG_IN_Q
  · rw [if_pos hin, if_pos hin]
    rfl
  · rw [if_neg hin, if_neg hin]
    exact (Function.update_eq_self v k.wdog).symm

theorem wdog_taskExpired (k : Kernel) (t : TaskId) (rest : List (TickNode × Nat)) :
    (taskExpired (expireNode k (.task t) rest) t).wdog = k.wdog :=
  (actsOn_taskExpired (expireNode k (.task t) rest) t).wdog

theorem wdog_roundRobin (k : Kernel) : (roundRobin k).wdog = k.wdog := by
  unfold roundRobin
  dsimp only
  split
  · split <;> rfl
  · rfl

/-- The watchdog is in the tick queue by its status. -/
def InQ (s : State) (w : WdogId) : Prop := (s.kern.wdog w).status = .WDOG_IN_Q

/-! ## Lists of jobs -/

theorem starts_append (w : WdogId) (js js' : List WdJob) :
    starts w (js ++ js') = starts w js ++ starts w js' := List.filterMap_append

theorem starts_cons (w : WdogId) (j : WdJob) (js : List WdJob) :
    starts w (j :: js) = (j.startOf w).toList ++ starts w js := by
  unfold starts
  rw [List.filterMap_cons]
  cases j.startOf w <;> rfl

theorem starts_eraseIdx {js : List WdJob} {i : Nat} {j : WdJob} (hj : js[i]? = some j)
    (hnone : j.startOf w = none) : starts w (js.eraseIdx i) = starts w js := by
  induction js generalizing i with
  | nil => simp at hj
  | cons a js ih =>
    cases i with
    | zero =>
      obtain rfl : a = j := by simpa using hj
      rw [List.eraseIdx_cons_zero, starts_cons, hnone]
      rfl
    | succ i =>
      rw [List.eraseIdx_cons_succ, starts_cons, starts_cons, ih (by simpa using hj)]

/-- The only start in a list is taken out of it. -/
theorem starts_eraseIdx_start {js : List WdJob} {i : Nat} {j : WdJob} {delay : Nat}
    (hj : js[i]? = some j) (hstart : j.startOf w = some delay)
    (hone : (starts w js).length ≤ 1) : starts w js = [delay] ∧ starts w (js.eraseIdx i) = [] := by
  induction js generalizing i with
  | nil => simp at hj
  | cons a js ih =>
    rw [starts_cons, List.length_append] at hone
    cases i with
    | zero =>
      obtain rfl : a = j := by simpa using hj
      rw [hstart] at hone
      have hnil : starts w js = [] := by
        apply List.eq_nil_of_length_eq_zero
        have hlen : (some delay).toList.length = 1 := rfl
        omega
      rw [List.eraseIdx_cons_zero, starts_cons, hstart, hnil]
      exact ⟨rfl, rfl⟩
    | succ i =>
      obtain ⟨hjs, herase⟩ := ih (by simpa using hj) (by omega)
      rw [hjs] at hone
      have hnone : (a.startOf w).toList = [] := by
        apply List.eq_nil_of_length_eq_zero
        have hlen : [delay].length = 1 := rfl
        omega
      rw [List.eraseIdx_cons_succ, starts_cons, starts_cons, hjs, herase, hnone]
      exact ⟨rfl, rfl⟩

/-- The starts of a watchdog that have not run yet, in the order in which they will. -/
def pending (s : State) (w : WdogId) : List Nat := starts w s.jobs ++ starts w s.adds

/-! ## The starts of a watchdog -/

/-- The watchdog was put into the tick queue by its last start. -/
def Armed (s : State) (w : WdogId) : Prop :=
  ∃ st, s.lastStart w = some st ∧ st.delay = s.delayOf w

/-- What the loop of `vmxTickAnnounce` has of a watchdog is right when no start is pending. -/
def PhaseOk (s : State) (w : WdogId) : Phase → Prop
  | .out v => v = w → Armed s w
  | .func v func => v = w → Armed s w ∧ s.wdFunc w = func
  | .arg v func arg => v = w → Armed s w ∧ s.wdFunc w = func ∧ s.wdArg w = arg
  | _ => True

structure Starts (s : State) (w : WdogId) : Prop where
  count : (s.kern.wdog w).dfrStartCount = (pending s w).length
  one : (starts w s.adds).length ≤ 1
  args : ∀ st, s.lastStart w = some st → s.wdFunc w = st.func ∧ s.wdArg w = st.arg
  last : ∀ delay, (pending s w).getLast? = some delay →
    ∃ st, s.lastStart w = some st ∧ st.delay = delay
  armed : pending s w = [] → InQ s w → Armed s w
  frames : pending s w = [] → ∀ fr ∈ s.ticks, PhaseOk s w fr.phase

/-- The watchdog that the loop works on. -/
def Phase.wdId : Phase → Option WdogId
  | .out w => some w
  | .func w _ => some w
  | .arg w _ _ => some w
  | _ => none

theorem phaseOk_of_ne {phase : Phase} (h : phase.wdId ≠ some w) : PhaseOk s w phase := by
  cases phase with
  | loop => trivial
  | doWork => trivial
  | out v => exact fun hv => absurd (congrArg some hv) h
  | func v func => exact fun hv => absurd (congrArg some hv) h
  | arg v func arg => exact fun hv => absurd (congrArg some hv) h

/-- A step that has nothing to do with the starts of the watchdog. -/
theorem Starts.congr (h : Starts s w)
    (hcount : (s'.kern.wdog w).dfrStartCount = (s.kern.wdog w).dfrStartCount)
    (hinQ : InQ s' w → InQ s w) (hpending : pending s' w = pending s w)
    (hone : (starts w s'.adds).length ≤ 1) (hlast : s'.lastStart w = s.lastStart w)
    (hfunc : s'.wdFunc w = s.wdFunc w) (harg : s'.wdArg w = s.wdArg w)
    (hdelay : s'.delayOf w = s.delayOf w)
    (hticks : pending s w = [] → ∀ fr ∈ s'.ticks, PhaseOk s w fr.phase) : Starts s' w := by
  have harmed : Armed s w → Armed s' w := by
    rintro ⟨st, hst, hd⟩
    exact ⟨st, hlast.trans hst, hd.trans hdelay.symm⟩
  constructor
  case count => rw [hcount, hpending, h.count]
  case one => exact hone
  case args =>
    intro st hst
    rw [hlast] at hst
    rw [hfunc, harg]
    exact h.args st hst
  case last =>
    intro delay hd
    rw [hpending] at hd
    rw [hlast]
    exact h.last delay hd
  case armed =>
    intro hnil hin
    rw [hpending] at hnil
    exact harmed (h.armed hnil (hinQ hin))
  case frames =>
    intro hnil fr hfr
    rw [hpending] at hnil
    have hok := hticks hnil fr hfr
    cases hphase : fr.phase with
    | loop => trivial
    | doWork => trivial
    | out v =>
      rw [hphase] at hok
      exact fun hv => harmed (hok hv)
    | func v func =>
      rw [hphase] at hok
      intro hv
      obtain ⟨ha, hf⟩ := hok hv
      exact ⟨harmed ha, hfunc.trans hf⟩
    | arg v func arg =>
      rw [hphase] at hok
      intro hv
      obtain ⟨ha, hf, hg⟩ := hok hv
      exact ⟨harmed ha, hfunc.trans hf, harg.trans hg⟩

/-- A start is pending behind all others. -/
theorem Starts.start {delay func arg : Nat} (h : Starts s w)
    (hcount : (s'.kern.wdog w).dfrStartCount = (s.kern.wdog w).dfrStartCount + 1)
    (hpending : pending s' w = pending s w ++ [delay]) (hone : (starts w s'.adds).length ≤ 1)
    (hlast : s'.lastStart w = some ⟨delay, func, arg⟩) (hfunc : s'.wdFunc w = func)
    (harg : s'.wdArg w = arg) : Starts s' w := by
  have hne : pending s' w ≠ [] := by simp [hpending]
  constructor
  case count =>
    rw [hcount, hpending, h.count, List.length_append]
    rfl
  case one => exact hone
  case args =>
    intro st hst
    rw [hlast, Option.some.injEq] at hst
    rw [← hst]
    exact ⟨hfunc, harg⟩
  case last =>
    intro d hd
    rw [hpending, List.getLast?_append_of_ne_nil _ (by simp)] at hd
    obtain rfl : delay = d := by simpa using hd
    exact ⟨_, hlast, rfl⟩
  case armed => exact fun hnil => absurd hnil hne
  case frames => exact fun hnil => absurd hnil hne

/-- The first pending start runs.  It takes effect when it is the only one. -/
theorem Starts.run {delay : Nat} (h : Starts s w)
    (hcount : (s'.kern.wdog w).dfrStartCount = (s.kern.wdog w).dfrStartCount - 1)
    (hpending : pending s w = delay :: pending s' w) (hone : (starts w s'.adds).length ≤ 1)
    (hlast : s'.lastStart w = s.lastStart w) (hfunc : s'.wdFunc w = s.wdFunc w)
    (harg : s'.wdArg w = s.wdArg w)
    (hdelay : (s.kern.wdog w).dfrStartCount - 1 = 0 → s'.delayOf w = delay)
    (hticks : ∀ fr ∈ s'.ticks, fr.phase.wdId = none) : Starts s' w := by
  have hlen := h.count
  rw [hpending, List.length_cons] at hlen
  constructor
  case count => omega
  case one => exact hone
  case args =>
    intro st hst
    rw [hlast] at hst
    rw [hfunc, harg]
    exact h.args st hst
  case last =>
    intro d hd
    rw [hlast]
    apply h.last d
    rw [hpending, List.getLast?_cons, hd]
    rfl
  case armed =>
    intro hnil _
    rw [hnil] at hpending hlen
    obtain ⟨st, hst, hd⟩ := h.last delay (by rw [hpending]; rfl)
    have hzero : (s.kern.wdog w).dfrStartCount - 1 = 0 := by
      rw [hlen]
      rfl
    exact ⟨st, hlast.trans hst, hd.trans (hdelay hzero).symm⟩
  case frames =>
    intro _ fr hfr
    apply phaseOk_of_ne
    rw [hticks fr hfr]
    intro hsome
    cases hsome

/-! ## The cancels of a watchdog -/

/-- Where the cancel of a watchdog stands that was complete when `n` ticks had been announced.
Either the watchdog is out of the queue and no start of it waits, or the cancel waits behind the
last start and before all later ticks. -/
def Settled (s : State) (w : WdogId) : Prop := ¬ InQ s w ∧ starts w s.jobs = []

def Waiting (s : State) (w : WdogId) (n : Nat) : Prop :=
  ∃ pre post, s.jobs = pre ++ .cancel w :: post ∧ starts w post = [] ∧
    (∀ id, WdJob.tick id ∈ pre → id ≤ n) ∧ ∀ fr ∈ s.ticks, fr.id ≤ n

structure Cancelled (s : State) (w : WdogId) (n : Nat) : Prop where
  adds : starts w s.adds = []
  jobs : Settled s w ∨ Waiting s w n
  frames : ∀ fr ∈ s.ticks, fr.phase.wdId = some w → fr.id ≤ n

def Cancels (s : State) (w : WdogId) : Prop := ∀ n, s.cancelled w = some n → Cancelled s w n

/-- A step that adds jobs at the end, none of them a start of the watchdog. -/
theorem Cancelled.congr {n : Nat} {js : List WdJob} (h : Cancelled s w n)
    (hinQ : InQ s' w → InQ s w) (hjobs : s'.jobs = s.jobs ++ js) (hjs : starts w js = [])
    (hadds : starts w s'.adds = []) (hids : ∀ fr ∈ s'.ticks, ∃ fr' ∈ s.ticks, fr'.id = fr.id)
    (hframes : ∀ fr ∈ s'.ticks, fr.phase.wdId = some w → fr.id ≤ n) : Cancelled s' w n where
  adds := hadds
  frames := hframes
  jobs := by
    rcases h.jobs with ⟨hout, hnone⟩ | ⟨pre, post, hq, hpost, hpre, hticks⟩
    · refine .inl ⟨fun hin => hout (hinQ hin), ?_⟩
      rw [hjobs, starts_append, hnone, hjs, List.nil_append]
    · refine .inr ⟨pre, post ++ js, ?_, ?_, hpre, ?_⟩
      · rw [hjobs, hq, List.append_assoc, List.cons_append]
      · rw [starts_append, hpost, hjs, List.nil_append]
      · intro fr hfr
        obtain ⟨fr', hfr', hid⟩ := hids fr hfr
        rw [← hid]
        exact hticks fr' hfr'

/-- The next job runs. -/
theorem Cancelled.run {n : Nat} {j : WdJob} (h : Cancelled s w n) (hjobs : s.jobs = j :: s'.jobs)
    (hadds : s'.adds = s.adds) (hinQ : j.startOf w = none → InQ s' w → InQ s w)
    (hcancel : j = .cancel w → ¬ InQ s' w)
    (hticks : ∀ fr ∈ s'.ticks, fr ∈ s.ticks ∨ j = .tick fr.id)
    (hphase : ∀ fr ∈ s'.ticks, fr.phase.wdId = none) : Cancelled s' w n where
  adds := by
    rw [hadds]
    exact h.adds
  frames fr hfr hsome := by
    rw [hphase fr hfr] at hsome
    cases hsome
  jobs := by
    rcases h.jobs with ⟨hout, hnone⟩ | ⟨pre, post, hq, hpost, hpre, hids⟩
    · rw [hjobs, starts_cons, List.append_eq_nil_iff] at hnone
      have hstart : j.startOf w = none := by simpa using hnone.1
      exact .inl ⟨fun hin => hout (hinQ hstart hin), hnone.2⟩
    · rw [hjobs] at hq
      cases pre with
      | nil =>
        rw [List.nil_append, List.cons.injEq] at hq
        rw [← hq.2] at hpost
        exact .inl ⟨hcancel hq.1, hpost⟩
      | cons a pre =>
        rw [List.cons_append, List.cons.injEq] at hq
        refine .inr ⟨pre, post, hq.2, hpost, fun id hid => hpre id (List.mem_cons_of_mem _ hid), ?_⟩
        intro fr hfr
        rcases hticks fr hfr with hold | hnew
        · exact hids fr hold
        · apply hpre
          rw [← hnew, hq.1]
          exact List.mem_cons_self

/-- A cancel that has just been completed waits behind every job. -/
theorem Cancelled.new {n : Nat} {js : List WdJob} (hjobs : s.jobs = js ++ [.cancel w])
    (hadds : starts w s.adds = []) (hids : ∀ id, WdJob.tick id ∈ s.jobs → id ≤ n)
    (hticks : ∀ fr ∈ s.ticks, fr.id ≤ n) : Cancelled s w n where
  adds := hadds
  frames fr hfr _ := hticks fr hfr
  jobs := by
    refine .inr ⟨js, [], hjobs, rfl, ?_, hticks⟩
    intro id hid
    apply hids
    rw [hjobs]
    exact List.mem_append_left _ hid

/-- What `cancelDone` does to the cancels. -/
theorem cancels_cancelDone {v : WdogId} (h : Cancels s w)
    (hnew : starts v s.adds = [] → Cancelled s v s.announced) : Cancels (s.cancelDone v) w := by
  have hmove : ∀ {f : WdogId → Option Nat} {n : Nat}, Cancelled s w n →
      Cancelled { s with cancelled := f } w n := fun hc => ⟨hc.adds, hc.jobs, hc.frames⟩
  unfold State.cancelDone
  split
  · rename_i hadds
    intro n hn
    by_cases hv : w = v
    · subst hv
      have hvalue : (s.cancelled w).getD s.announced = n := by
        simpa [Function.update_self] using hn
      cases hold : s.cancelled w with
      | none =>
        rw [hold] at hvalue
        rw [← hvalue]
        exact hmove (hnew hadds)
      | some m =>
        rw [hold] at hvalue
        rw [← hvalue]
        exact hmove (h m hold)
    · have hsame : s.cancelled w = some n := by simpa [Function.update_of_ne hv] using hn
      exact hmove (h n hsame)
  · exact h

/-! ## The invariant -/

/-- The function was called as the last start says, and by no tick after a cancel. -/
def Fire.Right (e : Fire) : Prop :=
  e.last = some ⟨e.delay, e.func, e.arg⟩ ∧ ∀ n, e.cancelled = some n → e.tick ≤ n

structure Base (s : State) : Prop where
  coherent : Coherent s.kern
  idle : s.kernelState = false → s.direct = none ∧ s.workQ = [] ∧ s.adds = [] ∧ s.ticks = []
  direct : s.direct ≠ none → s.ticks = []
  nested : ∀ fr ∈ s.ticks.tail, fr.phase = .doWork
  noTick : ∀ id, WdJob.tick id ∉ s.adds
  ticksId : ∀ fr ∈ s.ticks, fr.id ≤ s.announced
  jobsId : ∀ id, WdJob.tick id ∈ s.jobs → id ≤ s.announced
  starts : ∀ w, Starts s w
  fired : ∀ e ∈ s.fired, e.Right

structure Inv (s : State) : Prop extends Base s where
  cancels : ∀ w, Cancels s w

theorem Base.setCancelled {f : WdogId → Option Nat} (h : Base s) :
    Base { s with cancelled := f } where
  coherent := h.coherent
  idle := h.idle
  direct := h.direct
  nested := h.nested
  noTick := h.noTick
  ticksId := h.ticksId
  jobsId := h.jobsId
  starts w := (h.starts w).congr rfl id rfl (h.starts w).one rfl rfl rfl rfl (h.starts w).frames
  fired := h.fired

theorem Base.cancelDone {v : WdogId} (h : Base s) : Base (s.cancelDone v) := by
  unfold State.cancelDone
  split
  · exact h.setCancelled
  · exact h

/-- Without `kernelState` nothing waits and nothing runs. -/
theorem Base.jobs_idle (h : Base s) (hk : ¬ s.kernelState = true) : s.jobs = [] := by
  obtain ⟨hdirect, hwork, -, -⟩ := h.idle (by simpa using hk)
  unfold State.jobs
  rw [hdirect, hwork]
  rfl

/-! ## One step -/

/-- No start of the same watchdog is between its locked section and its `workQAdd2`. -/
def NoOverlap (s : State) : Label → Prop
  | .wdStart w _ _ _ => Watchdog.starts w s.adds = []
  | _ => True

theorem startOf_start_self (v : WdogId) (delay : Nat) :
    (WdJob.start v delay).startOf v = some delay := if_pos rfl

theorem startOf_start_ne {v : WdogId} (h : w ≠ v) (delay : Nat) :
    (WdJob.start v delay).startOf w = none := if_neg (Ne.symm h)

theorem starts_singleton {j : WdJob} (h : j.startOf w = none) : starts w [j] = [] := by
  rw [starts_cons, h]
  rfl

/-- A call of `wdStart` adds its start behind all that wait. -/
theorem starts_wdStart {v : WdogId} {delay func arg : Nat} (h : ∀ w, Starts s w)
    (hkern : s'.kern = wdStartDefer s.kern v)
    (hfunc : s'.wdFunc = Function.update s.wdFunc v func)
    (harg : s'.wdArg = Function.update s.wdArg v arg)
    (hlast : s'.lastStart = Function.update s.lastStart v (some ⟨delay, func, arg⟩))
    (hdelay : s'.delayOf = s.delayOf) (hticks : s'.ticks = s.ticks)
    (hpending : ∀ w, pending s' w = pending s w ++ starts w [.start v delay])
    (hone : ∀ w, (starts w s'.adds).length ≤ 1) (w : WdogId) : Starts s' w := by
  by_cases hv : w = v
  · subst hv
    refine @Starts.start s s' w delay func arg (h w) ?_ ?_ (hone w) ?_ ?_ ?_
    · rw [hkern]
      simp [wdStartDefer, Kernel.setWdog]
    · rw [hpending, starts_cons, startOf_start_self]
      rfl
    · rw [hlast, Function.update_self]
    · rw [hfunc, Function.update_self]
    · rw [harg, Function.update_self]
  · have hwdog : s'.kern.wdog w = s.kern.wdog w := by
      rw [hkern]
      simp [wdStartDefer, Kernel.setWdog, hv]
    refine (h w).congr (congrArg _ hwdog) ?_ ?_ (hone w) ?_ ?_ ?_ (congrFun hdelay w) ?_
    · exact fun hin => (congrArg Wdog.status hwdog).symm.trans hin
    · rw [hpending, starts_singleton (startOf_start_ne hv delay), List.append_nil]
    · rw [hlast, Function.update_of_ne hv]
    · rw [hfunc, Function.update_of_ne hv]
    · rw [harg, Function.update_of_ne hv]
    · rw [hticks]
      exact (h w).frames

/-- It is a start after the cancels of the watchdog, and leaves those of the others. -/
theorem cancels_wdStart {v : WdogId} {js : List WdJob} (h : ∀ w, Cancels s w)
    (hkern : s'.kern = wdStartDefer s.kern v)
    (hcancelled : s'.cancelled = Function.update s.cancelled v none)
    (hticks : s'.ticks = s.ticks) (hjobs : s'.jobs = s.jobs ++ js)
    (hjs : ∀ w, w ≠ v → starts w js = [])
    (hadds : ∀ w, w ≠ v → starts w s'.adds = starts w s.adds) (w : WdogId) : Cancels s' w := by
  intro n hn
  rw [hcancelled] at hn
  by_cases hv : w = v
  · rw [hv, Function.update_self] at hn
    cases hn
  · rw [Function.update_of_ne hv] at hn
    have hwdog : s'.kern.wdog w = s.kern.wdog w := by
      rw [hkern]
      simp [wdStartDefer, Kernel.setWdog, hv]
    have hc := h w n hn
    refine hc.congr ?_ hjobs (hjs w hv) ((hadds w hv).trans hc.adds) ?_ ?_
    · exact fun hin => (congrArg Wdog.status hwdog).symm.trans hin
    · rw [hticks]
      exact fun fr hfr => ⟨fr, hfr, rfl⟩
    · rw [hticks]
      exact hc.frames

theorem inv_wdStart {v : WdogId} {delay func arg : Nat} (h : Inv s)
    (hno : starts v s.adds = []) : Inv (s.wdStart v delay func arg) := by
  have hcoherent : Coherent (wdStartDefer s.kern v) := coherent_wdStartDefer h.coherent
  unfold State.wdStart
  dsimp only
  by_cases hk : s.kernelState = true
  · rw [if_pos hk]
    refine ⟨⟨hcoherent, ?_, h.direct, h.nested, ?_, h.ticksId, h.jobsId, ?_, h.fired⟩, ?_⟩
    · intro hfalse
      have hfalse' : s.kernelState = false := hfalse
      rw [hk] at hfalse'
      cases hfalse'
    · intro id hid
      rcases List.mem_append.mp hid with hold | hnew
      · exact h.noTick id hold
      · simp at hnew
    · refine starts_wdStart h.starts rfl rfl rfl rfl rfl rfl ?_ ?_
      · intro w
        show starts w s.jobs ++ starts w (s.adds ++ [.start v delay]) = _
        rw [starts_append, ← List.append_assoc]
        rfl
      · intro w
        show (starts w (s.adds ++ [.start v delay])).length ≤ 1
        rw [starts_append]
        by_cases hv : w = v
        · rw [hv, hno, starts_cons, startOf_start_self]
          exact Nat.le_refl _
        · rw [starts_singleton (startOf_start_ne hv delay), List.append_nil]
          exact (h.starts w).one
    · refine @cancels_wdStart s _ v [] h.cancels rfl rfl rfl (List.append_nil _).symm ?_ ?_
      · exact fun w hv => rfl
      · intro w hv
        show starts w (s.adds ++ [.start v delay]) = _
        rw [starts_append, starts_singleton (startOf_start_ne hv delay), List.append_nil]
  · have hjobs := h.jobs_idle hk
    obtain ⟨-, hwork, hadds, hticks⟩ := h.idle (by simpa using hk)
    have hjobs' : ([.start v delay] ++ s.workQ : List WdJob) = s.jobs ++ [.start v delay] := by
      rw [hjobs, hwork]
      rfl
    rw [if_neg hk]
    refine ⟨⟨hcoherent, ?_, fun _ => hticks, h.nested, h.noTick, h.ticksId, ?_, ?_, h.fired⟩, ?_⟩
    · intro hfalse
      cases hfalse
    · intro id hid
      have hmem : WdJob.tick id ∈ ([.start v delay] ++ s.workQ : List WdJob) := hid
      rw [hjobs', hjobs] at hmem
      simp at hmem
    · refine starts_wdStart h.starts rfl rfl rfl rfl rfl rfl ?_ ?_
      · intro w
        show starts w ([.start v delay] ++ s.workQ) ++ starts w s.adds =
          starts w s.jobs ++ starts w s.adds ++ _
        rw [hjobs', starts_append, hadds]
        simp [starts]
      · exact fun w => (h.starts w).one
    · refine @cancels_wdStart s _ v [.start v delay] h.cancels rfl rfl rfl ?_ ?_ ?_
      · show [.start v delay] ++ s.workQ = _
        exact hjobs'
      · exact fun w hv => starts_singleton (startOf_start_ne hv delay)
      · exact fun w hv => rfl

/-- A job comes to the end of the queue, and the calls that have not added theirs are `adds`. -/
theorem Base.queue {adds workQ : List WdJob} {js : List WdJob} (h : Base s)
    (hk : s.kernelState = true) (hwork : workQ = s.workQ ++ js)
    (hpending : ∀ w, Watchdog.starts w (s.jobs ++ js) ++ Watchdog.starts w adds = pending s w)
    (hone : ∀ w, (Watchdog.starts w adds).length ≤ 1)
    (hnoTick : ∀ id, WdJob.tick id ∉ adds) (hids : ∀ id, WdJob.tick id ∈ js → id ≤ s.announced) :
    Base { s with adds := adds, workQ := workQ } where
  coherent := h.coherent
  idle hfalse := by
    have hfalse' : s.kernelState = false := hfalse
    rw [hk] at hfalse'
    cases hfalse'
  direct := h.direct
  nested := h.nested
  noTick := hnoTick
  ticksId := h.ticksId
  jobsId id hid := by
    have hmem : WdJob.tick id ∈ s.direct.toList ++ workQ := hid
    rw [hwork, ← List.append_assoc] at hmem
    rcases List.mem_append.mp hmem with hold | hnew
    · exact h.jobsId id hold
    · exact hids id hnew
  starts w := by
    refine (h.starts w).congr rfl id ?_ (hone w) rfl rfl rfl rfl (h.starts w).frames
    show Watchdog.starts w (s.direct.toList ++ workQ) ++ Watchdog.starts w adds = _
    rw [hwork, ← List.append_assoc]
    exact hpending w
  fired := h.fired

theorem jobs_append {adds workQ js : List WdJob} (hwork : workQ = s.workQ ++ js) :
    ({ s with adds := adds, workQ := workQ } : State).jobs = s.jobs ++ js := by
  show s.direct.toList ++ workQ = _
  rw [hwork, ← List.append_assoc]
  rfl

theorem inv_wdCancel {v : WdogId} (h : Inv s) : Inv (s.wdCancel v) := by
  have hnone : ∀ w, starts w [.cancel v] = [] := fun w => rfl
  unfold State.wdCancel
  by_cases hk : s.kernelState = true
  · have hadds : ∀ w, starts w (s.adds ++ [.cancel v]) = starts w s.adds := by
      intro w
      rw [starts_append, hnone, List.append_nil]
    rw [if_pos hk]
    refine ⟨@Base.queue s (s.adds ++ [.cancel v]) s.workQ [] h.toBase hk (List.append_nil _).symm
      ?_ ?_ ?_ ?_, ?_⟩
    · intro w
      rw [List.append_nil, hadds]
      rfl
    · intro w
      rw [hadds]
      exact (h.starts w).one
    · intro id hid
      rcases List.mem_append.mp hid with hold | hnew
      · exact h.noTick id hold
      · simp at hnew
    · intro id hid
      cases hid
    · intro w n hn
      have hc := h.cancels w n hn
      exact @Cancelled.congr s _ w n [] hc id (List.append_nil _).symm rfl
        ((hadds w).trans hc.adds) (fun fr hfr => ⟨fr, hfr, rfl⟩) hc.frames
  · have hjobs := h.jobs_idle hk
    obtain ⟨-, hwork, hadds, hticks⟩ := h.idle (by simpa using hk)
    rw [if_neg hk]
    have hnew : ([.cancel v] ++ s.workQ : List WdJob) = s.jobs ++ [.cancel v] := by
      rw [hjobs, hwork]
      rfl
    have hbase : Base { s with kernelState := true, direct := some (.cancel v) } := by
      refine ⟨h.coherent, ?_, fun _ => hticks, h.nested, h.noTick, h.ticksId, ?_, ?_, h.fired⟩
      · intro hfalse
        cases hfalse
      · intro id hid
        have hmem : WdJob.tick id ∈ ([.cancel v] ++ s.workQ : List WdJob) := hid
        rw [hnew, hjobs] at hmem
        simp at hmem
      · intro w
        refine (h.starts w).congr rfl id ?_ (h.starts w).one rfl rfl rfl rfl (h.starts w).frames
        show starts w ([.cancel v] ++ s.workQ) ++ starts w s.adds = _
        rw [hnew, starts_append, hnone, List.append_nil]
        rfl
    refine ⟨hbase.cancelDone, fun w => cancels_cancelDone ?_ ?_⟩
    · intro n hn
      have hc := h.cancels w n hn
      exact @Cancelled.congr s _ w n [.cancel v] hc id hnew rfl hc.adds
        (fun fr hfr => ⟨fr, hfr, rfl⟩) hc.frames
    · intro hnil
      exact @Cancelled.new _ v _ s.jobs hnew hnil hbase.jobsId hbase.ticksId

theorem inv_workQAdd {i : Nat} {j : WdJob} (h : Inv s) (hj : s.adds[i]? = some j) :
    Inv (s.workQAdd i j) := by
  have hmem : j ∈ s.adds := List.mem_of_getElem? hj
  have hk : s.kernelState = true := by
    by_contra hk
    obtain ⟨-, -, hadds, -⟩ := h.idle (by simpa using hk)
    rw [hadds] at hmem
    cases hmem
  have hnoTick : ∀ id, WdJob.tick id ∉ s.adds.eraseIdx i := fun id hid =>
    h.noTick id (List.mem_of_mem_eraseIdx hid)
  cases j with
  | tick id => exact absurd hmem (h.noTick id)
  | cancel v =>
    have hadds : ∀ w, starts w (s.adds.eraseIdx i) = starts w s.adds := fun w =>
      starts_eraseIdx hj rfl
    have hbase : Base { s with adds := s.adds.eraseIdx i, workQ := s.workQ ++ [.cancel v] } := by
      refine h.toBase.queue hk rfl ?_ ?_ hnoTick ?_
      · intro w
        rw [starts_append, hadds]
        show (starts w s.jobs ++ []) ++ starts w s.adds = _
        rw [List.append_nil]
        rfl
      · intro w
        rw [hadds]
        exact (h.starts w).one
      · intro id hid
        simp at hid
    refine ⟨hbase.cancelDone, fun w => cancels_cancelDone ?_ ?_⟩
    · intro n hn
      have hc := h.cancels w n hn
      exact hc.congr id (jobs_append rfl) rfl ((hadds w).trans hc.adds)
        (fun fr hfr => ⟨fr, hfr, rfl⟩) hc.frames
    · intro hnil
      exact Cancelled.new (jobs_append rfl) hnil hbase.jobsId hbase.ticksId
  | start v delay =>
    have hself := starts_eraseIdx_start hj (startOf_start_self v delay) (h.starts v).one
    have hother : ∀ w, w ≠ v → starts w (s.adds.eraseIdx i) = starts w s.adds := fun w hv =>
      starts_eraseIdx hj (startOf_start_ne hv delay)
    refine ⟨h.toBase.queue hk rfl ?_ ?_ hnoTick ?_, ?_⟩
    · intro w
      rw [starts_append]
      by_cases hv : w = v
      · subst hv
        unfold pending
        rw [hself.1, hself.2, starts_cons, startOf_start_self, List.append_nil]
        rfl
      · rw [hother w hv, starts_singleton (startOf_start_ne hv delay), List.append_nil]
        rfl
    · intro w
      by_cases hv : w = v
      · rw [hv, hself.2]
        exact Nat.zero_le _
      · rw [hother w hv]
        exact (h.starts w).one
    · intro id hid
      simp at hid
    · intro w n hn
      have hc := h.cancels w n hn
      have hv : w ≠ v := by
        intro hv
        have hnil := hc.adds
        rw [hv, hself.1] at hnil
        cases hnil
      exact hc.congr id (jobs_append rfl) (starts_singleton (startOf_start_ne hv delay))
        ((hother w hv).trans hc.adds) (fun fr hfr => ⟨fr, hfr, rfl⟩) hc.frames

theorem inv_tickAnnounce (h : Inv s) : Inv s.tickAnnounce := by
  have hnone : ∀ w, starts w [.tick (s.announced + 1)] = [] := fun w => rfl
  have hids : ∀ id, WdJob.tick id ∈ s.jobs ++ [.tick (s.announced + 1)] → id ≤ s.announced + 1 := by
    intro id hid
    rcases List.mem_append.mp hid with hold | hnew
    · exact Nat.le_succ_of_le (h.jobsId id hold)
    · have hid : id = s.announced + 1 := by simpa using hnew
      omega
  -- wherever the job goes, it is the last one
  have hinv : ∀ (direct : Option WdJob) (workQ : List WdJob),
      direct.toList ++ workQ = s.jobs ++ [.tick (s.announced + 1)] →
      (direct ≠ none → s.ticks = []) →
      Inv { s with kernelState := true, direct := direct, workQ := workQ,
                   announced := s.announced + 1 } := by
    intro direct workQ hjobs hdirect
    refine ⟨⟨h.coherent, ?_, hdirect, h.nested, h.noTick, ?_, ?_, ?_, h.fired⟩, ?_⟩
    · intro hfalse
      cases hfalse
    · exact fun fr hfr => Nat.le_succ_of_le (h.ticksId fr hfr)
    · intro id hid
      have hmem : WdJob.tick id ∈ direct.toList ++ workQ := hid
      rw [hjobs] at hmem
      exact hids id hmem
    · intro w
      refine (h.starts w).congr rfl id ?_ (h.starts w).one rfl rfl rfl rfl (h.starts w).frames
      show starts w (direct.toList ++ workQ) ++ starts w s.adds = _
      rw [hjobs, starts_append, hnone, List.append_nil]
      rfl
    · intro w n hn
      have hc := h.cancels w n hn
      exact hc.congr id hjobs (hnone w) hc.adds (fun fr hfr => ⟨fr, hfr, rfl⟩) hc.frames
  unfold State.tickAnnounce
  dsimp only
  by_cases hk : s.kernelState = true
  · rw [if_pos hk, hk]
    exact hinv s.direct _ (List.append_assoc _ _ _).symm h.direct
  · obtain ⟨-, hwork, -, hticks⟩ := h.idle (by simpa using hk)
    rw [if_neg hk]
    refine hinv _ s.workQ ?_ fun _ => hticks
    rw [h.jobs_idle hk, hwork]
    rfl

/-- The next job runs, outside the loop of every announcement. -/
theorem inv_runJob {j : WdJob} {q : List WdJob} (h : Inv s) (hjobs : s.jobs = j :: q)
    (hticks : ∀ fr ∈ s.ticks, fr.phase = .doWork) :
    Inv (State.runJob { s with direct := none, workQ := q } j) := by
  have hidle : ¬ s.kernelState = false := by
    intro hfalse
    rw [h.jobs_idle (by rw [hfalse]; exact Bool.false_ne_true)] at hjobs
    cases hjobs
  have hids : ∀ id, WdJob.tick id ∈ q → id ≤ s.announced := fun id hid =>
    h.jobsId id (by rw [hjobs]; exact List.mem_cons_of_mem _ hid)
  have hphase : ∀ fr ∈ s.ticks, fr.phase.wdId = none := by
    intro fr hfr
    rw [hticks fr hfr]
    rfl
  have hpending : ∀ w, j.startOf w = none → starts w q ++ starts w s.adds = pending s w := by
    intro w hnone
    unfold pending
    rw [hjobs, starts_cons, hnone]
    rfl
  cases j with
  | start v delay =>
    have hwdog := wdog_vmxWdStart s.kern v delay
    have hself : ((vmxWdStart s.kern v delay).wdog v).dfrStartCount =
        (s.kern.wdog v).dfrStartCount - 1 := by
      rw [hwdog, Function.update_self]
    have hother : ∀ w, w ≠ v → (vmxWdStart s.kern v delay).wdog w = s.kern.wdog w := by
      intro w hv
      rw [hwdog, Function.update_of_ne hv]
    refine ⟨⟨coherent_vmxWdStart h.coherent delay, fun hfalse => absurd hfalse hidle,
      fun hne => absurd rfl hne, h.nested, h.noTick, h.ticksId, hids, ?_, h.fired⟩, ?_⟩
    · intro w
      by_cases hv : w = v
      · subst hv
        refine @Starts.run s _ w delay (h.starts w) hself ?_ (h.starts w).one rfl rfl rfl ?_ hphase
        · unfold pending
          rw [hjobs, starts_cons, startOf_start_self]
          rfl
        · intro hzero
          show (if (s.kern.wdog w).dfrStartCount - 1 = 0 then Function.update s.delayOf w delay
            else s.delayOf) w = delay
          rw [if_pos hzero, Function.update_self]
      · refine (h.starts w).congr ?_ ?_ (hpending w (startOf_start_ne hv delay)) (h.starts w).one
          rfl rfl rfl ?_ (h.starts w).frames
        · exact congrArg Wdog.dfrStartCount (hother w hv)
        · exact fun hin => (congrArg Wdog.status (hother w hv)).symm.trans hin
        · show (if (s.kern.wdog v).dfrStartCount - 1 = 0 then Function.update s.delayOf v delay
            else s.delayOf) w = s.delayOf w
          split
          · exact Function.update_of_ne hv _ _
          · rfl
    · intro w n hn
      refine (h.cancels w n hn).run hjobs rfl ?_ ?_ (fun fr hfr => .inl hfr) hphase
      · intro hnone hin
        have hv : w ≠ v := by
          intro hv
          rw [hv, startOf_start_self] at hnone
          cases hnone
        exact (congrArg Wdog.status (hother w hv)).symm.trans hin
      · intro heq
        cases heq
  | cancel v =>
    have hwdog := wdog_vmxWdCancel s.kern v
    have hcount : ∀ w, ((vmxWdCancel s.kern v).wdog w).dfrStartCount =
        (s.kern.wdog w).dfrStartCount := by
      intro w
      rw [hwdog]
      by_cases hv : w = v
      · subst hv
        rw [Function.update_self]
      · rw [Function.update_of_ne hv]
    have hself : ((vmxWdCancel s.kern v).wdog v).status ≠ .WDOG_IN_Q := by
      rw [hwdog, Function.update_self]
      by_cases hin : (s.kern.wdog v).status = .WDOG_IN_Q
      · simp [hin]
      · simp [hin]
    have hinQ : ∀ w, ((vmxWdCancel s.kern v).wdog w).status = .WDOG_IN_Q → InQ s w := by
      intro w hin
      by_cases hv : w = v
      · subst hv
        exact absurd hin hself
      · rw [hwdog, Function.update_of_ne hv] at hin
        exact hin
    refine ⟨⟨coherent_vmxWdCancel h.coherent, fun hfalse => absurd hfalse hidle,
      fun hne => absurd rfl hne, h.nested, h.noTick, h.ticksId, hids, ?_, h.fired⟩, ?_⟩
    · intro w
      exact (h.starts w).congr (hcount w) (hinQ w) (hpending w rfl) (h.starts w).one rfl rfl rfl rfl
        (h.starts w).frames
    · intro w n hn
      refine (h.cancels w n hn).run hjobs rfl (fun _ => hinQ w) ?_ (fun fr hfr => .inl hfr) hphase
      intro heq
      rw [WdJob.cancel.injEq] at heq
      rw [← heq]
      exact hself
  | tick id =>
    have hid : id ≤ s.announced := h.jobsId id (by rw [hjobs]; exact List.mem_cons_self)
    refine ⟨⟨coherent_timeAdvance h.coherent, fun hfalse => absurd hfalse hidle,
      fun hne => absurd rfl hne, hticks, h.noTick, ?_, hids, ?_, h.fired⟩, ?_⟩
    · intro fr hfr
      rcases List.mem_cons.mp hfr with hnew | hold
      · rw [hnew]
        exact hid
      · exact h.ticksId fr hold
    · intro w
      refine (h.starts w).congr rfl (fun hin => hin) (hpending w rfl) (h.starts w).one rfl rfl rfl
        rfl ?_
      intro hnil fr hfr
      rcases List.mem_cons.mp hfr with hnew | hold
      · rw [hnew]
        trivial
      · exact (h.starts w).frames hnil fr hold
    · intro w n hn
      refine (h.cancels w n hn).run hjobs rfl (fun _ hin => hin) ?_ ?_ ?_
      · intro heq
        cases heq
      · intro fr hfr
        rcases List.mem_cons.mp hfr with hnew | hold
        · rw [hnew]
          exact .inr rfl
        · exact .inl hold
      · intro fr hfr
        rcases List.mem_cons.mp hfr with hnew | hold
        · rw [hnew]
          rfl
        · exact hphase fr hold

/-- The innermost announcement goes from one phase to the next. -/
theorem inv_phase {id : Nat} {phase phase' : Phase} {outer : List Frame} {fired : List Fire}
    (h : Inv s) (hticks : s.ticks = ⟨id, phase⟩ :: outer)
    (hok : ∀ w, pending s w = [] → PhaseOk s w phase → PhaseOk s w phase')
    (hid : ∀ w n, Cancelled s w n → phase'.wdId = some w → id ≤ n)
    (hfired : ∀ e ∈ fired, e.Right) :
    Inv { s with ticks := ⟨id, phase'⟩ :: outer, fired := fired } := by
  have hmem : (⟨id, phase⟩ : Frame) ∈ s.ticks := by
    rw [hticks]
    exact List.mem_cons_self
  have hold : ∀ fr ∈ outer, fr ∈ s.ticks := by
    intro fr hfr
    rw [hticks]
    exact List.mem_cons_of_mem _ hfr
  refine ⟨⟨h.coherent, ?_, ?_, ?_, h.noTick, ?_, h.jobsId, ?_, hfired⟩, ?_⟩
  · intro hfalse
    have hnil := (h.idle hfalse).2.2.2
    rw [hticks] at hnil
    cases hnil
  · intro hne
    have hnil := h.direct hne
    rw [hticks] at hnil
    cases hnil
  · intro fr hfr
    apply h.nested
    rw [hticks]
    exact hfr
  · intro fr hfr
    rcases List.mem_cons.mp hfr with hnew | hin
    · rw [hnew]
      exact h.ticksId ⟨id, phase⟩ hmem
    · exact h.ticksId fr (hold fr hin)
  · intro w
    refine (h.starts w).congr rfl (fun hin => hin) rfl (h.starts w).one rfl rfl rfl rfl ?_
    intro hnil fr hfr
    have hframes := (h.starts w).frames hnil
    rcases List.mem_cons.mp hfr with hnew | hin
    · rw [hnew]
      exact hok w hnil (hframes _ hmem)
    · exact hframes fr (hold fr hin)
  · intro w n hn
    have hc := h.cancels w n hn
    refine @Cancelled.congr s _ w n [] hc (fun hin => hin) (List.append_nil _).symm rfl hc.adds ?_ ?_
    · intro fr hfr
      rcases List.mem_cons.mp hfr with hnew | hin
      · rw [hnew]
        exact ⟨_, hmem, rfl⟩
      · exact ⟨fr, hold fr hin, rfl⟩
    · intro fr hfr hsome
      rcases List.mem_cons.mp hfr with hnew | hin
      · rw [hnew] at hsome ⊢
        exact hid w n hc hsome
      · exact hc.frames fr (hold fr hin) hsome

/-- The kernel changes, but no watchdog comes into the tick queue, and some announcements end. -/
theorem inv_kern {k : Kernel} {ticks : List Frame} (h : Inv s) (hk : Coherent k)
    (hcount : ∀ w, (k.wdog w).dfrStartCount = (s.kern.wdog w).dfrStartCount)
    (hinQ : ∀ w, (k.wdog w).status = .WDOG_IN_Q → InQ s w) (hticks : ticks <:+ s.ticks)
    (hkernel : s.kernelState = true) : Inv { s with kern := k, ticks := ticks } := by
  have hmem : ∀ fr ∈ ticks, fr ∈ s.ticks := fun fr hfr => hticks.subset hfr
  refine ⟨⟨hk, ?_, ?_, ?_, h.noTick, ?_, h.jobsId, ?_, h.fired⟩, ?_⟩
  · intro hfalse
    have hfalse' : s.kernelState = false := hfalse
    rw [hkernel] at hfalse'
    cases hfalse'
  · intro hdirect
    apply List.eq_nil_of_suffix_nil
    rw [← h.direct hdirect]
    exact hticks
  · intro fr hfr
    apply h.nested
    rcases hticks with ⟨pre, hpre⟩
    rw [← hpre]
    cases pre with
    | nil => exact hfr
    | cons a pre => exact List.mem_append_right _ (List.mem_of_mem_tail hfr)
  · exact fun fr hfr => h.ticksId fr (hmem fr hfr)
  · intro w
    exact (h.starts w).congr (hcount w) (hinQ w) rfl (h.starts w).one rfl rfl rfl rfl
      fun hnil fr hfr => (h.starts w).frames hnil fr (hmem fr hfr)
  · intro w n hn
    have hc := h.cancels w n hn
    exact @Cancelled.congr s _ w n [] hc (hinQ w) (List.append_nil _).symm rfl hc.adds
      (fun fr hfr => ⟨fr, hmem fr hfr, rfl⟩) fun fr hfr => hc.frames fr (hmem fr hfr)

theorem kernelState_of_ticks {fr : Frame} {outer : List Frame} (h : Inv s)
    (hticks : s.ticks = fr :: outer) : s.kernelState = true := by
  by_contra hk
  have hnil := (h.idle (by simpa using hk)).2.2.2
  rw [hticks] at hnil
  cases hnil

theorem inv_expire {id : Nat} {outer : List Frame} (h : Inv s)
    (hticks : s.ticks = ⟨id, .loop⟩ :: outer) : Inv (s.expire id outer) := by
  have hk := kernelState_of_ticks h hticks
  have hsame : ∀ {k : Kernel}, k.wdog = s.kern.wdog →
      (∀ w, (k.wdog w).dfrStartCount = (s.kern.wdog w).dfrStartCount) ∧
        ∀ w, (k.wdog w).status = .WDOG_IN_Q → InQ s w := by
    intro k hwdog
    rw [hwdog]
    exact ⟨fun _ => rfl, fun _ hin => hin⟩
  unfold State.expire
  split
  · obtain ⟨hcount, hinQ⟩ := hsame (wdog_roundRobin s.kern)
    refine inv_kern h (coherent_roundRobin h.coherent) hcount hinQ ?_ hk
    rw [hticks]
    exact List.suffix_cons _ _
  · rename_i t rest hexp
    obtain ⟨key, hq, -⟩ := qPrioExpired_some hexp
    obtain ⟨hcount, hinQ⟩ := hsame (wdog_taskExpired s.kern t rest)
    exact inv_kern h (coherent_taskExpired h.coherent hq) hcount hinQ (List.suffix_refl _) hk
  · rename_i v rest hexp
    obtain ⟨key, hq, -⟩ := qPrioExpired_some hexp
    have hin : InQ s v := by
      apply (wdog_mem_tickQ h.coherent).mp
      rw [hq]
      exact List.mem_cons_self
    have hout : Inv { s with ticks := ⟨id, .out v⟩ :: outer, fired := s.fired } := by
      refine inv_phase h hticks ?_ ?_ h.fired
      · intro w hnil _ hv
        rw [← hv]
        rw [← hv] at hnil
        exact (h.starts v).armed hnil hin
      · intro w n hc hv
        have hv : v = w := Option.some.inj hv
        subst hv
        rcases hc.jobs with ⟨hnot, -⟩ | ⟨_, _, _, _, _, hids⟩
        · exact absurd hin hnot
        · apply hids ⟨id, .loop⟩
          rw [hticks]
          exact List.mem_cons_self
    have hwdog : (wdogExpired (expireNode s.kern (.wdog v) rest) v).wdog =
        Function.update s.kern.wdog v { (s.kern.wdog v) with status := .WDOG_OUT_OF_Q } := rfl
    refine @inv_kern { s with ticks := ⟨id, .out v⟩ :: outer } _ (⟨id, .out v⟩ :: outer) hout
      (coherent_wdogExpired h.coherent hq) ?_ ?_ (List.suffix_refl _) hk
    · intro w
      rw [hwdog]
      by_cases hv : w = v
      · subst hv
        rw [Function.update_self]
      · rw [Function.update_of_ne hv]
    · intro w hstatus
      rw [hwdog] at hstatus
      by_cases hv : w = v
      · rw [hv]
        exact hin
      · rw [Function.update_of_ne hv] at hstatus
        exact hstatus

/-- No start is pending when the function of a watchdog is called, so that what the loop has read
is what the last start wrote. -/
theorem right_call {id : Nat} {v : WdogId} {func arg : Nat} {outer : List Frame} (h : Inv s)
    (hticks : s.ticks = ⟨id, .arg v func arg⟩ :: outer)
    (hzero : (s.kern.wdog v).dfrStartCount = 0) :
    (⟨v, func, arg, id, s.delayOf v, s.lastStart v, s.cancelled v⟩ : Fire).Right := by
  have hmem : (⟨id, .arg v func arg⟩ : Frame) ∈ s.ticks := by
    rw [hticks]
    exact List.mem_cons_self
  have hnil : pending s v = [] := by
    apply List.eq_nil_of_length_eq_zero
    have hcount := (h.starts v).count
    omega
  obtain ⟨⟨st, hst, hdelay⟩, hfunc, harg⟩ := (h.starts v).frames hnil _ hmem rfl
  obtain ⟨hfunc', harg'⟩ := (h.starts v).args st hst
  refine ⟨?_, fun n hn => (h.cancels v n hn).frames _ hmem rfl⟩
  show s.lastStart v = some ⟨s.delayOf v, func, arg⟩
  rw [hst, ← hdelay, ← hfunc, ← harg, hfunc', harg']

theorem inv_call {id : Nat} {v : WdogId} {func arg : Nat} {outer : List Frame} (h : Inv s)
    (hticks : s.ticks = ⟨id, .arg v func arg⟩ :: outer) : Inv (s.call id v func arg outer) := by
  have hphase : ∀ fired : List Fire, (∀ e ∈ fired, e.Right) →
      Inv { s with ticks := ⟨id, .doWork⟩ :: outer, fired := fired } := by
    intro fired hfired
    refine inv_phase h hticks (fun _ _ _ => trivial) ?_ hfired
    intro w n _ hsome
    cases hsome
  unfold State.call
  split
  · rename_i hzero
    apply hphase
    intro e he
    rcases List.mem_cons.mp he with hnew | hold
    · rw [hnew]
      exact right_call h hticks hzero
    · exact h.fired e hold
  · exact hphase s.fired h.fired

theorem inv_vmxExit (h : Inv s) (hdirect : s.direct = none) (hticks : s.ticks = [])
    (hwork : s.workQ = []) (hadds : s.adds = []) : Inv { s with kernelState := false } :=
  ⟨⟨h.coherent, fun _ => ⟨hdirect, hwork, hadds, hticks⟩, h.direct, h.nested, h.noTick, h.ticksId,
    h.jobsId, fun w => (h.starts w).congr rfl (fun hin => hin) rfl (h.starts w).one rfl rfl rfl rfl
      (h.starts w).frames, h.fired⟩,
    fun w n hn => ⟨(h.cancels w n hn).adds, (h.cancels w n hn).jobs, (h.cancels w n hn).frames⟩⟩

/-- One step of a run in which no two starts of a watchdog overlap. -/
theorem inv_step {l : Label} (h : Inv s) (hno : NoOverlap s l) (hs : step s l = some s') :
    Inv s' := by
  cases l with
  | wdStart v delay func arg =>
    rw [step, Option.some.injEq] at hs
    rw [← hs]
    exact inv_wdStart h hno
  | wdCancel v =>
    rw [step, Option.some.injEq] at hs
    rw [← hs]
    exact inv_wdCancel h
  | workQAdd i =>
    rw [step] at hs
    cases hj : s.adds[i]? with
    | none => simp [hj] at hs
    | some j =>
      simp only [hj, Option.some.injEq] at hs
      rw [← hs]
      exact inv_workQAdd h hj
  | tickAnnounce =>
    rw [step, Option.some.injEq] at hs
    rw [← hs]
    exact inv_tickAnnounce h
  | runDirect =>
    rw [step] at hs
    cases hj : s.direct with
    | none => simp [hj] at hs
    | some j =>
      simp only [hj, Option.some.injEq] at hs
      rw [← hs]
      have hticks := h.direct (by rw [hj]; exact Option.some_ne_none j)
      refine inv_runJob h ?_ ?_
      · rw [State.jobs, hj]
        rfl
      · rw [hticks]
        exact fun fr hfr => absurd hfr List.not_mem_nil
  | workQDoWork =>
    rw [step] at hs
    cases hq : s.workQ with
    | nil => simp [hq] at hs
    | cons j rest =>
      simp only [hq, Option.ite_none_right_eq_some, Option.some.injEq] at hs
      obtain ⟨⟨hdirect, hworking⟩, hs⟩ := hs
      have hrun := inv_runJob (j := j) (q := rest) h (by rw [State.jobs, hdirect, hq]; rfl) ?_
      · have hsame : { s with workQ := rest } = { s with direct := none, workQ := rest } := by
          rw [← hdirect]
        rw [← hs, hsame]
        exact hrun
      · intro fr hfr
        have hnested := h.nested
        unfold State.working at hworking
        cases hticks : s.ticks with
        | nil =>
          rw [hticks] at hfr
          cases hfr
        | cons top outer =>
          rw [hticks] at hfr hnested hworking
          rcases List.mem_cons.mp hfr with htop | houter
          · obtain ⟨id, phase⟩ := top
            rw [htop]
            cases phase with
            | doWork => rfl
            | _ => simp at hworking
          · exact hnested fr houter
  | expire =>
    rw [step] at hs
    split at hs
    · rename_i id outer hticks
      rw [Option.some.injEq] at hs
      rw [← hs]
      exact inv_expire h hticks
    · cases hs
  | readFunc =>
    rw [step] at hs
    split at hs
    · rename_i id v outer hticks
      rw [Option.some.injEq] at hs
      rw [← hs]
      refine inv_phase h hticks ?_ ?_ h.fired
      · intro w _ harmed hv
        refine ⟨harmed hv, ?_⟩
        rw [hv]
      · intro w n hc hsome
        apply hc.frames ⟨id, .out v⟩ _ hsome
        rw [hticks]
        exact List.mem_cons_self
    · cases hs
  | readArg =>
    rw [step] at hs
    split at hs
    · rename_i id v func outer hticks
      rw [Option.some.injEq] at hs
      rw [← hs]
      refine inv_phase h hticks ?_ ?_ h.fired
      · intro w _ harmed hv
        obtain ⟨ha, hf⟩ := harmed hv
        refine ⟨ha, hf, ?_⟩
        rw [hv]
      · intro w n hc hsome
        apply hc.frames ⟨id, .func v func⟩ _ hsome
        rw [hticks]
        exact List.mem_cons_self
    · cases hs
  | call =>
    rw [step] at hs
    split at hs
    · rename_i id v func arg outer hticks
      rw [Option.some.injEq] at hs
      rw [← hs]
      exact inv_call h hticks
    · cases hs
  | again =>
    rw [step] at hs
    split at hs
    · rename_i id outer hticks
      rw [Option.ite_none_right_eq_some, Option.some.injEq] at hs
      rw [← hs.2]
      refine inv_phase h hticks (fun _ _ _ => trivial) ?_ h.fired
      intro w n _ hsome
      cases hsome
    · cases hs
  | vmxExit =>
    rw [step, Option.ite_none_right_eq_some, Option.some.injEq] at hs
    obtain ⟨⟨hdirect, hticks, hwork, hadds⟩, hs⟩ := hs
    rw [← hs]
    exact inv_vmxExit h hdirect hticks hwork hadds

/-! ## Runs -/

theorem inv_wdInit {kern : Kernel} {f a : WdogId → Nat} (h : Coherent (wdInit kern f a).kern) :
    Inv (wdInit kern f a) where
  coherent := h
  idle _ := ⟨rfl, rfl, rfl, rfl⟩
  direct _ := rfl
  nested fr hfr := absurd hfr List.not_mem_nil
  noTick id := List.not_mem_nil
  ticksId fr hfr := absurd hfr List.not_mem_nil
  jobsId id hid := absurd hid List.not_mem_nil
  starts w := by
    refine ⟨rfl, Nat.zero_le _, ?_, ?_, ?_, ?_⟩
    · intro st hst
      cases hst
    · intro delay hd
      cases hd
    · intro _ hin
      cases hin
    · exact fun _ fr hfr => absurd hfr List.not_mem_nil
  fired e he := absurd he List.not_mem_nil
  cancels w n hn := by cases hn

theorem inv_run {ls : List Label} (h : Inv s) (hno : AllSteps step NoOverlap s ls)
    (hrun : exec step s ls = some s') : Inv s' :=
  exec_invariant_of (I := Inv) (fun _ _ _ hi hp hs => inv_step hi hp hs) h hno hrun

/-- Two deferred starts, of one tick and of five: the second adds its job first, so that the
watchdog expires after one tick, with the function of the second. -/
def overlapRun : List Label :=
  [.tickAnnounce, .runDirect, .wdStart 0 1 10 20, .wdStart 0 5 11 21, .workQAdd 1, .workQAdd 0,
    .expire, .workQDoWork, .workQDoWork, .vmxExit,
    .tickAnnounce, .runDirect, .expire, .readFunc, .readArg, .call]

end Vmx.Watchdog
