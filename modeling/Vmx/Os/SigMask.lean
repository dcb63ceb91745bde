import Vmx.Os.SigLib
import Vmx.Lib.Transition

/-!
# `sigLib`: the blocked set while handlers run

A system is the signals of all tasks and, for each task, the stack of what it has been interrupted
in: handlers (`wrapper` before `sigWrapper` has read the action, `handler` after), a `sigreturn`
that has set the blocked set and is to load the context, and a `sigsuspend` that sleeps or that is
to return.  A task without frames runs its program.  A label is one call of a task, a signal sent
by the task itself, by another task or by an interrupt, or the next step of the topmost frame.

`Framed` says of a stack that each handler runs with what it is to run with blocked, and that the
set is the old one again when its context is loaded.  A step that does not find a pending signal
outside the blocked set keeps it and delivers right (`step_right_iff`); a step that finds one
starts a handler whose own signal is not blocked.
-/

namespace Vmx.Os.Sig

open Vmx.Lib

/-- A context on the stack of a task.  As a ghost what the handler has itself taken out of the
blocked set. -/
structure Delivery where
  context : SigContext
  lowered : SigSet
  deriving DecidableEq

inductive Frame where
  | wrapper (d : Delivery)
  | handler (d : Delivery)
  | sigreturn (d : Delivery)
  | suspended (oset : SigSet) (awake : Bool)
  | restored (oset : SigSet)
  deriving DecidableEq

structure Sys where
  s : State
  frames : Nat → List Frame

/-- The blocked set of a task, which is empty before it has a `sigtcb`. -/
def State.blocked (s : State) (t : Nat) : SigSet :=
  match s.tcb t with
  | none => 0
  | some pSigTcb => pSigTcb.blocked

def State.pending (s : State) (t : Nat) : SigSet :=
  match s.tcb t with
  | none => 0
  | some pSigTcb => pSigTcb.pending

/-- `sa_mask` of the action for a signal. -/
def State.saMask (s : State) (t signo : Nat) : SigSet :=
  match s.tcb t with
  | none => 0
  | some pSigTcb => (pSigTcb.vec signo).mask

/-- A task that sleeps is made ready by a signal that is delivered to it. -/
def woken : List Frame → List Frame
  | .suspended oset _ :: fs => .suspended oset true :: fs
  | fs => fs

/-- A signal that is delivered interrupts what the task does. -/
def interrupted : Option SigContext → List Frame → List Frame
  | none, fs => fs
  | some c, fs => .wrapper ⟨c, 0⟩ :: woken fs

/-- A task runs its program or a handler. -/
def running : List Frame → Bool
  | [] => true
  | .handler _ :: _ => true
  | _ => false

/-- A handler that runs changes the blocked set itself. -/
def lowers (old new : SigSet) : List Frame → List Frame
  | .handler d :: fs => .handler { d with lowered := d.lowered ||| (old &&& ~~~new) } :: fs
  | fs => fs

/-- The system after a call of, or a signal to, a task that is left in `fs`. -/
def Sys.after (y : Sys) (t : Nat) (r : Ret) (fs : List Frame) : Sys :=
  ⟨r.s, Function.update y.frames t (interrupted r.context fs)⟩

/-- How a signal is sent. -/
inductive Sending where
  | kill (signo : Int)
  | sigqueue (signo value : Int) (junk : Int × Nat)
  | sigPendKill (n : Nat)

def Sending.call (s : State) (t : Nat) : Sending → Option Ret
  | kill signo => Sig.kill s t signo
  | sigqueue signo value junk => Sig.sigqueue s t signo value junk
  | sigPendKill n => Sig.sigPendKill s t n

inductive Label where
  /-- A task, or an interrupt or the exception task, sends a signal to the task `t`. -/
  | send (sender : Option Nat) (t : Nat) (sending : Sending)
  | sigaction (t : Nat) (room : Bool) (signo : Int) (act : Option SigAction) (fuel : Nat)
  | sigprocmask (t : Nat) (room : Bool) (what : Int) (set : Option SigSet)
  | sigsuspend (t : Nat) (room : Bool) (set : SigSet)
  /-- `sigWrapper` reads the action. -/
  | enter (t : Nat)
  /-- The handler returns. -/
  | ret (t : Nat)
  /-- `_sigCtxLoad` of `sigreturn`. -/
  | load (t : Nat)
  /-- `sigsuspend` goes on after a signal. -/
  | wake (t : Nat)
  | leave (t : Nat)

/-- `sigprocmask(SIG_SETMASK, &set)`, after which the task is in `fs`. -/
def Sys.setMask (y : Sys) (t : Nat) (set : SigSet) (fs : List Frame) : Option Sys :=
  (sigprocmask y.s t true SIG_SETMASK (some set)).map fun r => y.after t r fs

def isFn : SigHandler → Bool
  | .fn _ => true
  | _ => false

/-- The action that `sigWrapper` reads. -/
def State.action (s : State) (t signo : Nat) : SigAction :=
  match s.tcb t with
  | none => ⟨.SIG_DFL, 0, false⟩
  | some pSigTcb => pSigTcb.vec signo

/-- `signal(signo, SIG_DFL)` of `sigWrapper`. -/
def resetHandler (s : State) (t signo : Nat) : Option State :=
  if (s.action t signo).resethand then
    (sigaction s t true signo (some ⟨.SIG_DFL, 0, false⟩) 0).map Ret.s
  else some s

def sigWrapper (y : Sys) (t : Nat) (d : Delivery) (fs : List Frame) : Option Sys := do
  let action := y.s.action t d.context.info.signo
  let s ← resetHandler y.s t d.context.info.signo
  let y : Sys := ⟨s, y.frames⟩
  if isFn action.handler then return ⟨y.s, Function.update y.frames t (.handler d :: fs)⟩
  y.setMask t d.context.mask (.sigreturn d :: fs)

def step (y : Sys) : Label → Option Sys
  | .send sender t sending =>
    if sender.all fun u => running (y.frames u) then
      (sending.call y.s t).map fun r => y.after t r (y.frames t)
    else none
  | .sigaction t room signo act fuel =>
    if running (y.frames t) then
      (sigaction y.s t room signo act fuel).map fun r => y.after t r (y.frames t)
    else none
  | .sigprocmask t room what set =>
    if running (y.frames t) then
      (sigprocmask y.s t room what set).map fun r =>
        y.after t r (lowers (y.s.blocked t) (r.s.blocked t) (y.frames t))
    else none
  | .sigsuspend t room set =>
    if running (y.frames t) then
      (sigsuspend y.s t room set).map fun r =>
        if r.status = OK then y.after t r (.suspended (y.s.blocked t) false :: y.frames t)
        else y.after t r (y.frames t)
    else none
  | .enter t =>
    match y.frames t with
    | .wrapper d :: fs => sigWrapper y t d fs
    | _ => none
  | .ret t =>
    match y.frames t with
    | .handler d :: fs => y.setMask t d.context.mask (.sigreturn d :: fs)
    | _ => none
  | .load t =>
    match y.frames t with
    | .sigreturn _ :: fs => some ⟨y.s, Function.update y.frames t fs⟩
    | _ => none
  | .wake t =>
    match y.frames t with
    | .suspended oset true :: fs => y.setMask t oset (.restored oset :: fs)
    | _ => none
  | .leave t =>
    match y.frames t with
    | .restored _ :: fs => some ⟨y.s, Function.update y.frames t fs⟩
    | _ => none

/-! ## When the code is right -/

/-- The blocked set with which `sigprocmask` looks for pending signals, if it does. -/
def newMask (blocked : SigSet) (what : Int) : Option SigSet → Option SigSet
  | none => some blocked
  | some set =>
    if what = SIG_BLOCK then none
    else if what = SIG_UNBLOCK then some (blocked &&& ~~~set)
    else if what = SIG_SETMASK then some set
    else none

/-- The task and the blocked set with which a step looks for pending signals, if it does. -/
def looks (y : Sys) : Label → Option (Nat × SigSet)
  | .sigprocmask t _ what set => (newMask (y.s.blocked t) what set).map fun m => (t, m)
  | .sigsuspend t _ set => some (t, set)
  | .enter t =>
    match y.frames t with
    | .wrapper d :: _ =>
      if isFn (y.s.action t d.context.info.signo).handler then none else some (t, d.context.mask)
    | _ => none
  | .ret t =>
    match y.frames t with
    | .handler d :: _ => some (t, d.context.mask)
    | _ => none
  | .wake t =>
    match y.frames t with
    | .suspended oset _ :: _ => some (t, oset)
    | _ => none
  | _ => none

/-- A step finds no pending signal outside the blocked set. -/
def Quiet (y : Sys) (l : Label) : Prop :=
  ∀ p ∈ looks y l, y.s.pending p.1 &&& ~~~p.2 = 0

instance (y : Sys) (l : Label) : Decidable (Quiet y l) :=
  inferInstanceAs (Decidable (∀ p ∈ looks y l, y.s.pending p.1 &&& ~~~p.2 = 0))

/-- What is to be blocked while a handler runs: the set that was blocked, `sa_mask` and the signal,
less what the handler has itself taken out. -/
def Delivery.blocks (d : Delivery) : SigSet :=
  (d.context.mask ||| d.context.saMask ||| sigmask d.context.signo) &&& ~~~d.lowered

/-- The blocked set `m` is right for a stack: it has what the topmost handler is to run with, and
each frame is left with the blocked set of the one below. -/
def Framed : List Frame → SigSet → Prop
  | [], _ => True
  | .wrapper d :: fs, m => d.blocks &&& ~~~m = 0 ∧ Framed fs d.context.mask
  | .handler d :: fs, m => d.blocks &&& ~~~m = 0 ∧ Framed fs d.context.mask
  | .sigreturn d :: fs, m => m = d.context.mask ∧ Framed fs m
  | .suspended oset _ :: fs, _ => Framed fs oset
  | .restored oset :: fs, m => m = oset ∧ Framed fs m

/-- A step from `y` to `u` delivers a signal to the task `t`. -/
def Delivers (y u : Sys) (t : Nat) (d : Delivery) : Prop :=
  ∃ fs, u.frames t = .wrapper d :: fs ∧ (y.frames t).length ≤ fs.length

/-- What is delivered has saved the blocked set and is run with it, the `sa_mask` of the action and
the signal blocked. -/
def Right (y u : Sys) : Prop :=
  ∀ t d, Delivers y u t d →
    d.context.mask = y.s.blocked t ∧ d.context.saMask = y.s.saMask t d.context.signo ∧
      u.s.blocked t = d.context.mask ||| d.context.saMask ||| sigmask d.context.signo

section

variable {s s' : State} {t : Nat} {τ : SigTcb} {r : Ret}

theorem State.blocked_some (h : s.tcb t = some τ) : s.blocked t = τ.blocked := by
  rw [State.blocked, h]

theorem State.blocked_none (h : s.tcb t = none) : s.blocked t = 0 := by
  rw [State.blocked, h]

theorem State.pending_some (h : s.tcb t = some τ) : s.pending t = τ.pending := by
  rw [State.pending, h]

theorem State.pending_none (h : s.tcb t = none) : s.pending t = 0 := by
  rw [State.pending, h]

theorem State.blocked_congr (h : s'.tcb t = s.tcb t) : s'.blocked t = s.blocked t := by
  rw [State.blocked, State.blocked, h]

theorem updTcb_blocked (h : s.tcb t = some τ) (f : SigTcb → SigTcb) :
    (s.updTcb t f).blocked = Function.update s.blocked t (f τ).blocked := by
  funext k
  by_cases hk : k = t
  · rw [hk, Function.update_self, State.blocked_some (State.updTcb_some h)]
  · rw [Function.update_of_ne hk, State.blocked_congr (State.updTcb_ne hk)]

/-- What leaves the blocked set of the task alone. -/
theorem updTcb_keeps {f : SigTcb → SigTcb} (hf : ∀ τ, (f τ).blocked = τ.blocked) :
    (s.updTcb t f).blocked = s.blocked := by
  cases h : s.tcb t with
  | none => rw [State.updTcb_none h]
  | some τ => rw [updTcb_blocked h, hf, ← State.blocked_some h, Function.update_eq_self]

theorem unlink_blocked {n : Nat} (h : unlink s n = some s') : s'.blocked = s.blocked := by
  simp only [unlink, Option.bind_eq_bind, Option.bind_eq_some_iff] at h
  obtain ⟨prev, _, next, _, h⟩ := h
  cases h
  rfl

theorem takeEntry_blocked {signo : Nat} {info : SigInfo}
    (h : takeEntry s t signo = some (s', info)) : s'.blocked = s.blocked := by
  rw [takeEntry] at h
  split at h
  · obtain ⟨s₁, hunlink, h⟩ := Option.map_eq_some_iff.1 h
    have hs₁ := unlink_blocked hunlink
    dsimp only at h
    split at h
    · cases h
      exact hs₁
    · cases h
      exact hs₁
  · cases h

/-- The signal that `sigPendGet` gets: the one of the lowest number, if there is one in the set. -/
theorem sigPendGet_spec (ht : s.tcb t = some τ) {set : SigSet} {signo : Nat} {info : SigInfo}
    (h : sigPendGet s t set = some (s', signo, info)) :
    s'.blocked = s.blocked ∧
      ((set &&& τ.pending = 0 ∧ signo = 0) ∨
        (set &&& τ.pending ≠ 0 ∧ (1 ≤ signo ∧ signo ≤ 32) ∧
          (set &&& τ.pending) &&& -(set &&& τ.pending) = sigmask signo)) := by
  simp only [sigPendGet, ht] at h
  by_cases hzero : set &&& τ.pending = 0
  · rw [if_pos hzero] at h
    cases h
    exact ⟨rfl, .inl ⟨hzero, rfl⟩⟩
  rw [if_neg hzero] at h
  obtain ⟨⟨s₁, info₁⟩, htaken, h⟩ := Option.map_eq_some_iff.1 h
  have hs₁ : s₁.blocked = s.blocked := by
    split at htaken
    · cases htaken
      exact updTcb_keeps fun _ => rfl
    · exact takeEntry_blocked htaken
  cases h
  refine ⟨?_, .inr ⟨hzero, sigmask_lowest hzero⟩⟩
  dsimp only
  split
  · refine Eq.trans (updTcb_keeps ?_) hs₁
    exact fun _ => rfl
  · exact hs₁

theorem sigPendRun_spec (ht : s.tcb t = some τ) {c : Option SigContext}
    (h : sigPendRun s t = some (s', c)) :
    s'.blocked = s.blocked ∧ (τ.pending &&& ~~~τ.blocked = 0 → c = none) ∧
      (τ.pending &&& ~~~τ.blocked ≠ 0 → ∃ ctx, c = some ctx ∧
        sigmask ctx.signo &&& τ.blocked = 0 ∧ sigmask ctx.signo ≠ 0) := by
  simp only [sigPendRun, ht] at h
  obtain ⟨⟨s₁, signo, info⟩, hget, h⟩ := Option.map_eq_some_iff.1 h
  cases h
  rw [BitVec.and_comm τ.pending]
  obtain ⟨hblocked, ⟨hzero, rfl⟩ | ⟨hne, hrange, hmask⟩⟩ := sigPendGet_spec ht hget
  · exact ⟨hblocked, fun _ => rfl, fun hne => absurd hzero hne⟩
  · have hpos : signo > 0 := hrange.1
    dsimp only
    rw [if_pos hpos]
    refine ⟨hblocked, fun hzero => absurd hzero hne, fun _ => ⟨_, rfl, ?_, sigmask_ne_zero hrange⟩⟩
    rw [← hmask]
    ext j hj
    simp only [BitVec.getElem_and, BitVec.getElem_not]
    cases τ.blocked[j] <;> simp

theorem pending_noRoom {room : Bool} (h : sigTcbGet s t room = (s', false)) : s.pending t = 0 := by
  rw [sigTcbGet] at h
  split at h
  · cases h
  next hnone => exact State.pending_none (by simpa using hnone)

/-- A call has set the blocked set of a task to `m` and then looked for a pending signal. -/
structure Looks (s : State) (t : Nat) (m : SigSet) (r : Ret) : Prop where
  blocked : r.s.blocked = Function.update s.blocked t m
  quiet : s.pending t &&& ~~~m = 0 → r.context = none
  loud : s.pending t &&& ~~~m ≠ 0 → ∃ c, r.context = some c ∧
    sigmask c.signo &&& m = 0 ∧ sigmask c.signo ≠ 0

theorem runPending_looks (ht : s.tcb t = some τ) (h : runPending s t = some r) :
    Looks s t τ.blocked r ∧ r.status = OK := by
  obtain ⟨⟨s₁, c⟩, hrun, rfl⟩ := Option.map_eq_some_iff.1 h
  obtain ⟨hblocked, hquiet, hloud⟩ := sigPendRun_spec ht hrun
  rw [← State.pending_some ht] at hquiet hloud
  refine ⟨⟨?_, hquiet, hloud⟩, rfl⟩
  rw [← State.blocked_some ht, Function.update_eq_self]
  exact hblocked

/-- The blocked set is changed first. -/
theorem runPending_updTcb {f : SigTcb → SigTcb} {m : SigSet} (ht : s.tcb t = some τ)
    (hm : (f τ).blocked = m) (hp : (f τ).pending = τ.pending)
    (h : runPending (s.updTcb t f) t = some r) : Looks s t m r ∧ r.status = OK := by
  have ht' := State.updTcb_some (f := f) ht
  obtain ⟨hlooks, hstatus⟩ := runPending_looks ht' h
  have hpending : (s.updTcb t f).pending t = s.pending t := by
    rw [State.pending_some ht', State.pending_some ht, hp]
  rw [hm] at hlooks
  refine ⟨⟨?_, fun hq => hlooks.quiet (hpending ▸ hq), fun hl => hlooks.loud (hpending ▸ hl)⟩,
    hstatus⟩
  rw [hlooks.blocked, updTcb_blocked ht, hm, Function.update_idem]

/-- What `sigTcbGet` returns has the sets of before. -/
theorem sigTcbGet_spec {room : Bool} {b : Bool} (h : sigTcbGet s t room = (s', b)) :
    s'.blocked = s.blocked ∧ s'.pending t = s.pending t ∧ (b = true → ∃ τ, s'.tcb t = some τ) := by
  rw [sigTcbGet] at h
  split at h
  next hsome =>
    cases h
    exact ⟨rfl, rfl, fun _ => Option.isSome_iff_exists.1 hsome⟩
  next hnone =>
    have hnone : s.tcb t = none := by simpa using hnone
    split at h
    · cases h
      have hnew : (sigTcbNew s t).tcb t = some ⟨fun _ => ⟨.SIG_DFL, 0, false⟩, 0, 0, 0⟩ :=
        Function.update_self ..
      refine ⟨?_, ?_, fun _ => ⟨_, hnew⟩⟩
      · funext k
        by_cases hk : k = t
        · rw [hk, State.blocked_some hnew, State.blocked_none hnone]
        · exact State.blocked_congr (Function.update_of_ne hk _ _)
      · rw [State.pending_some hnew, State.pending_none hnone]
    · cases h
      exact ⟨rfl, rfl, fun hb => absurd hb (by decide)⟩

/-- A call that has only changed the blocked set of a task. -/
structure Silent (s : State) (t : Nat) (r : Ret) : Prop where
  blocked : ∃ m, r.s.blocked = Function.update s.blocked t m
  context : r.context = none

theorem Silent.of_eq (hb : r.s.blocked = s.blocked) (hc : r.context = none) : Silent s t r :=
  ⟨⟨s.blocked t, by rw [hb, Function.update_eq_self]⟩, hc⟩

theorem Looks.congr {m : SigSet} (hb : s'.blocked = s.blocked) (hp : s'.pending t = s.pending t)
    (h : Looks s' t m r) : Looks s t m r :=
  ⟨by rw [h.blocked, hb], by rw [← hp]; exact h.quiet, by rw [← hp]; exact h.loud⟩

theorem setMask_looks {set : SigSet}
    (h : sigprocmask s t true SIG_SETMASK (some set) = some r) : Looks s t set r := by
  rw [sigprocmask] at h
  cases hget : sigTcbGet s t true with
  | mk s₁ b =>
    rw [hget] at h
    obtain ⟨hb, hp, hsome⟩ := sigTcbGet_spec hget
    have hbtrue : b = true := by
      rw [sigTcbGet] at hget
      split at hget <;> cases hget <;> rfl
    subst hbtrue
    obtain ⟨τ, hτ⟩ := hsome rfl
    exact ((runPending_updTcb hτ rfl rfl h).1).congr hb hp

theorem sigsuspend_spec {room : Bool} {set : SigSet} (h : sigsuspend s t room set = some r) :
    (r.status = OK ∧ Looks s t set r) ∨
      (r.status ≠ OK ∧ r.s.blocked = s.blocked ∧ r.context = none ∧ s.pending t = 0) := by
  rw [sigsuspend] at h
  cases hget : sigTcbGet s t room with
  | mk s₁ b =>
    rw [hget] at h
    obtain ⟨hb, hp, hsome⟩ := sigTcbGet_spec hget
    cases b with
    | false =>
      cases h
      exact .inr ⟨(by decide : ERROR ≠ OK), hb, rfl, pending_noRoom hget⟩
    | true =>
      obtain ⟨τ, hτ⟩ := hsome rfl
      obtain ⟨hlooks, hstatus⟩ := runPending_updTcb hτ rfl rfl h
      exact .inl ⟨hstatus, hlooks.congr hb hp⟩

theorem sigprocmask_spec {room : Bool} {what : Int} {set : Option SigSet}
    (h : sigprocmask s t room what set = some r) :
    (∃ m, newMask (s.blocked t) what set = some m ∧ Looks s t m r) ∨
      (Silent s t r ∧ (newMask (s.blocked t) what set = none ∨ s.pending t = 0)) := by
  rw [sigprocmask] at h
  cases hget : sigTcbGet s t room with
  | mk s₁ b =>
    rw [hget] at h
    obtain ⟨hb, hp, hsome⟩ := sigTcbGet_spec hget
    cases b with
    | false =>
      cases h
      exact .inr ⟨.of_eq hb rfl, .inr (pending_noRoom hget)⟩
    | true =>
      obtain ⟨τ, hτ⟩ := hsome rfl
      have hblocked : s.blocked t = τ.blocked := by rw [← hb, State.blocked_some hτ]
      cases set with
      | none =>
        refine .inl ⟨s.blocked t, rfl, ?_⟩
        rw [hblocked]
        exact ((runPending_looks hτ h).1).congr hb hp
      | some set =>
        simp only [newMask]
        dsimp only at h
        split at h
        · cases h
          refine .inr ⟨⟨⟨τ.blocked ||| set, ?_⟩, rfl⟩, .inl ?_⟩
          · rw [updTcb_blocked hτ, hb]
          · rw [if_pos ‹_›]
        split at h
        · rw [if_neg ‹_›, if_pos ‹_›, hblocked]
          exact .inl ⟨_, rfl, (runPending_updTcb hτ rfl rfl h).1.congr hb hp⟩
        split at h
        · rw [if_neg ‹_›, if_neg ‹_›, if_pos ‹_›]
          exact .inl ⟨_, rfl, (runPending_updTcb hτ rfl rfl h).1.congr hb hp⟩
        · cases h
          rw [if_neg ‹_›, if_neg ‹_›, if_neg ‹_›]
          exact .inr ⟨.of_eq hb rfl, .inl rfl⟩

/-! ## Signals that are sent -/

/-- A signal that has been sent to a task: delivered with what is to be blocked, or nothing is
changed. -/
structure Sends (s : State) (t : Nat) (r : Ret) : Prop where
  quiet : r.context = none → r.s.blocked = s.blocked
  loud : ∀ c, r.context = some c → c.mask = s.blocked t ∧ c.saMask = s.saMask t c.signo ∧
    r.s.blocked = Function.update s.blocked t (c.mask ||| c.saMask ||| sigmask c.signo)

theorem linkLast_blocked {head : Addr} {n : Nat} (h : linkLast s head n = some s') :
    s'.blocked = s.blocked := by
  simp only [linkLast, Option.bind_eq_bind, Option.bind_eq_some_iff] at h
  obtain ⟨prev, _, h⟩ := h
  cases h
  rfl

theorem queueEntry_blocked {src : Source} {junk : Int × Nat} {n : Nat}
    (h : queueEntry s src junk = some (s', n)) : s'.blocked = s.blocked := by
  unfold queueEntry at h
  split at h
  · split at h <;> cases h
    rfl
  · split at h <;> cases h
    rfl

theorem sigBlocked_blocked {src : Source} {junk : Int × Nat}
    (h : sigBlocked s t src junk = some s') : s'.blocked = s.blocked := by
  unfold sigBlocked at h
  dsimp only at h
  split at h
  · cases h
    exact updTcb_keeps fun _ => rfl
  split at h
  · split at h <;> cases h
    rfl
  · simp only [Option.bind_eq_bind, Option.bind_eq_some_iff] at h
    obtain ⟨⟨s₁, n⟩, hentry, s₂, hlink, h⟩ := h
    cases h
    have hs₂ : s₂.blocked = s.blocked := by
      rw [linkLast_blocked hlink, queueEntry_blocked hentry]
    exact Eq.trans (updTcb_keeps fun _ => rfl) hs₂

theorem sigVmxPendKill_sends {src : Source} {junk : Int × Nat} {c : Option SigContext}
    (status : Int) (h : sigVmxPendKill s t src junk = some (s', c)) :
    Sends s t ⟨s', status, c⟩ := by
  rw [sigVmxPendKill] at h
  cases ht : s.tcb t with
  | none =>
    rw [ht] at h
    cases h
    exact ⟨fun _ => rfl, fun _ hc => nomatch hc⟩
  | some τ =>
    rw [ht] at h
    dsimp only at h
    split at h
    · cases h
      exact ⟨fun _ => rfl, fun _ hc => nomatch hc⟩
    split at h
    · cases h
      exact ⟨fun _ => rfl, fun _ hc => nomatch hc⟩
    split at h
    · obtain ⟨s₁, hblocked, h⟩ := Option.map_eq_some_iff.1 h
      cases h
      exact ⟨fun _ => sigBlocked_blocked hblocked, fun _ hc => nomatch hc⟩
    · cases h
      refine ⟨fun hc => (nomatch hc), fun c hc => ?_⟩
      cases hc
      refine ⟨(State.blocked_some ht).symm, ?_, ?_⟩
      · rw [State.saMask, ht]
      · rw [updTcb_blocked ht, BitVec.or_assoc]

theorem Sends.refused (e : Errno) : Sends s t ⟨s.errnoSet e, ERROR, none⟩ :=
  ⟨fun _ => rfl, fun _ hc => nomatch hc⟩

theorem call_sends {sending : Sending} (h : sending.call s t = some r) : Sends s t r := by
  cases sending with
  | kill signo =>
    rw [Sending.call, kill] at h
    split at h
    · cases h
      exact .refused _
    split at h
    · cases h
      exact .refused _
    · obtain ⟨⟨s₁, c⟩, hkill, rfl⟩ := Option.map_eq_some_iff.1 h
      exact sigVmxPendKill_sends OK hkill
  | sigqueue signo value junk =>
    rw [Sending.call, sigqueue] at h
    split at h
    · cases h
      exact .refused _
    split at h
    · cases h
      exact .refused _
    split at h
    · cases h
      exact .refused _
    · obtain ⟨⟨s₁, c⟩, hkill, rfl⟩ := Option.map_eq_some_iff.1 h
      exact sigVmxPendKill_sends OK hkill
  | sigPendKill n =>
    rw [Sending.call, sigPendKill] at h
    split at h
    · cases h
      exact .refused _
    · obtain ⟨⟨s₁, c⟩, hkill, rfl⟩ := Option.map_eq_some_iff.1 h
      exact sigVmxPendKill_sends OK hkill

/-! ## Actions -/

theorem drainLoop_blocked {head : Addr} (fuel : Nat) : ∀ (q : Option Addr) (s : State),
    drainLoop head fuel q s = some s' → s'.blocked = s.blocked := by
  induction fuel with
  | zero => exact fun q s h => nomatch h
  | succ fuel ih =>
    intro q s h
    unfold drainLoop at h
    split at h
    · cases h
      rfl
    split at h
    · rw [ih _ _ h]
      split <;> rfl
    · cases h

theorem sigaction_blocked {room : Bool} {signo : Int} {act : Option SigAction} {fuel : Nat}
    (h : sigaction s t room signo act fuel = some r) :
    r.s.blocked = s.blocked ∧ r.context = none := by
  rw [sigaction] at h
  split at h
  · cases h
    exact ⟨rfl, rfl⟩
  split at h
  next s₁ hget =>
    cases h
    exact ⟨(sigTcbGet_spec hget).1, rfl⟩
  next s₁ hget =>
    have hs₁ := (sigTcbGet_spec hget).1
    split at h
    · cases h
      exact ⟨hs₁, rfl⟩
    dsimp only at h
    split at h
    · obtain ⟨s₂, hdrain, rfl⟩ := Option.map_eq_some_iff.1 h
      exact ⟨(drainLoop_blocked fuel _ _ hdrain).trans
        (Eq.trans (updTcb_keeps fun _ => rfl) (Eq.trans (updTcb_keeps fun _ => rfl) hs₁)), rfl⟩
    · cases h
      exact ⟨Eq.trans (updTcb_keeps fun _ => rfl) hs₁, rfl⟩

theorem resetHandler_spec {signo : Nat} (h : resetHandler s t signo = some s') :
    s'.blocked = s.blocked ∧ s'.pending t = s.pending t := by
  rw [resetHandler] at h
  split at h
  · obtain ⟨r, hact, rfl⟩ := Option.map_eq_some_iff.1 h
    refine ⟨(sigaction_blocked hact).1, ?_⟩
    rw [sigaction] at hact
    split at hact
    · cases hact
      rfl
    split at hact
    next s₁ hget =>
      cases hact
      exact (sigTcbGet_spec hget).2.1
    next s₁ hget =>
      obtain ⟨_, hp, hsome⟩ := sigTcbGet_spec hget
      obtain ⟨τ, hτ⟩ := hsome rfl
      dsimp only at hact
      rw [if_neg (by decide)] at hact
      cases hact
      rw [← hp, State.pending_some (State.updTcb_some hτ), State.pending_some hτ]
  · cases h
    exact ⟨rfl, rfl⟩

end

/-! ## Steps -/

section

variable {y u : Sys} {t : Nat} {fs : List Frame} {m old new : SigSet} {r : Ret}

/-- What is taken out of the blocked set is no longer to be blocked. -/
theorem within_lowered {w l : SigSet} (h : w &&& ~~~l &&& ~~~old = 0) :
    w &&& ~~~(l ||| (old &&& ~~~new)) &&& ~~~new = 0 := by
  ext j hj
  have hbit : (w &&& ~~~l &&& ~~~old)[j] = false := by simp [h]
  simp only [BitVec.getElem_and, BitVec.getElem_not, BitVec.getElem_or] at hbit ⊢
  cases hw : w[j] <;> cases hl : l[j] <;> cases ho : old[j] <;> cases hn : new[j] <;>
    simp [hw, hl, ho] at hbit ⊢

theorem within_self (w l : SigSet) : w &&& l &&& ~~~w = 0 := by
  ext j hj
  simp only [BitVec.getElem_and, BitVec.getElem_not]
  cases w[j] <;> simp

theorem framed_woken (h : Framed fs m) : Framed (woken fs) m := by
  unfold woken
  split
  · exact h
  · exact h

theorem framed_lowers (hr : running fs = true) (h : Framed fs old) :
    Framed (lowers old new fs) new := by
  unfold running at hr
  split at hr
  · trivial
  next d fs =>
    exact ⟨within_lowered h.1, h.2⟩
  · cases hr

theorem framed_sigreturn {d : Delivery} (h : Framed fs d.context.mask) :
    Framed (.sigreturn d :: fs) d.context.mask := ⟨rfl, h⟩

theorem framed_restored {oset : SigSet} (h : Framed fs oset) :
    Framed (.restored oset :: fs) oset := ⟨rfl, h⟩

/-- The blocked set is right for every task. -/
def AllFramed (y : Sys) : Prop := ∀ t, Framed (y.frames t) (y.s.blocked t)

theorem after_framed (hall : AllFramed y) (hb : r.s.blocked = Function.update y.s.blocked t m)
    (hf : Framed (interrupted r.context fs) m) : AllFramed (y.after t r fs) := by
  intro k
  show Framed (Function.update y.frames t (interrupted r.context fs) k) (r.s.blocked k)
  by_cases hk : k = t
  · rw [hk, hb, Function.update_self, Function.update_self]
    exact hf
  · rw [hb, Function.update_of_ne hk, Function.update_of_ne hk]
    exact hall k

theorem frames_framed {s : State} (hall : AllFramed y) (hs : s.blocked = y.s.blocked)
    (hf : Framed fs (y.s.blocked t)) : AllFramed ⟨s, Function.update y.frames t fs⟩ := by
  intro k
  show Framed (Function.update y.frames t fs k) (s.blocked k)
  rw [hs]
  by_cases hk : k = t
  · rw [hk, Function.update_self]
    exact hf
  · rw [Function.update_of_ne hk]
    exact hall k

theorem setMask_spec (h : y.setMask t m fs = some u) :
    ∃ r, Looks y.s t m r ∧ u = y.after t r fs := by
  obtain ⟨r, hcall, rfl⟩ := Option.map_eq_some_iff.1 h
  exact ⟨r, setMask_looks hcall, rfl⟩

theorem setMask_framed (hall : AllFramed y) (hq : y.s.pending t &&& ~~~m = 0) (hf : Framed fs m)
    (h : y.setMask t m fs = some u) : AllFramed u := by
  obtain ⟨r, hlooks, rfl⟩ := setMask_spec h
  refine after_framed hall hlooks.blocked ?_
  rw [hlooks.quiet hq]
  exact hf

theorem send_framed (hall : AllFramed y) (h : Sends y.s t r) :
    AllFramed (y.after t r (y.frames t)) := by
  cases hc : r.context with
  | none =>
    refine after_framed hall (m := y.s.blocked t) ?_ ?_
    · rw [h.quiet hc, Function.update_eq_self]
    · rw [hc]
      exact hall t
  | some c =>
    obtain ⟨hmask, _, hb⟩ := h.loud c hc
    refine after_framed hall hb ?_
    rw [hc]
    refine ⟨within_self _ _, ?_⟩
    show Framed (woken (y.frames t)) c.mask
    rw [hmask]
    exact framed_woken (hall t)

/-- A step that finds no pending signal outside the blocked set keeps the stacks right. -/
theorem step_framed {l : Label} (hall : AllFramed y) (hq : Quiet y l) (h : step y l = some u) :
    AllFramed u := by
  cases l with
  | send sender t sending =>
    rw [step] at h
    split at h
    · obtain ⟨r, hcall, rfl⟩ := Option.map_eq_some_iff.1 h
      exact send_framed hall (call_sends hcall)
    · cases h
  | sigaction t room signo act fuel =>
    rw [step] at h
    split at h
    · obtain ⟨r, hcall, rfl⟩ := Option.map_eq_some_iff.1 h
      obtain ⟨hb, hc⟩ := sigaction_blocked hcall
      rw [Sys.after, hc]
      exact frames_framed hall hb (hall t)
    · cases h
  | sigprocmask t room what set =>
    rw [step] at h
    split at h
    next hr =>
      obtain ⟨r, hcall, rfl⟩ := Option.map_eq_some_iff.1 h
      have hsilent : Silent y.s t r := by
        obtain ⟨m, hm, hlooks⟩ | ⟨hsilent, _⟩ := sigprocmask_spec hcall
        · have hquiet := hq (t, m) (by rw [looks, hm]; rfl)
          exact ⟨⟨m, hlooks.blocked⟩, hlooks.quiet hquiet⟩
        · exact hsilent
      obtain ⟨m, hb⟩ := hsilent.blocked
      refine after_framed hall hb ?_
      rw [hsilent.context, hb, Function.update_self]
      exact framed_lowers hr (hall t)
    · cases h
  | sigsuspend t room set =>
    rw [step] at h
    split at h
    · obtain ⟨r, hcall, rfl⟩ := Option.map_eq_some_iff.1 h
      obtain ⟨hstatus, hlooks⟩ | ⟨hstatus, hb, hc, _⟩ := sigsuspend_spec hcall
      · rw [if_pos hstatus]
        refine after_framed hall hlooks.blocked ?_
        rw [hlooks.quiet (hq (t, set) rfl)]
        exact hall t
      · rw [if_neg hstatus, Sys.after, hc]
        exact frames_framed hall hb (hall t)
    · cases h
  | enter t =>
    rw [step] at h
    split at h
    next d fs htop =>
      have hd := hall t
      rw [htop] at hd
      simp only [sigWrapper, Option.bind_eq_bind, Option.bind_eq_some_iff] at h
      obtain ⟨s, hreset, h⟩ := h
      obtain ⟨hb, hp⟩ := resetHandler_spec hreset
      split at h
      · cases h
        exact frames_framed hall hb hd
      next hfn =>
        have hquiet := hq (t, d.context.mask) (by rw [looks, htop]; exact if_neg hfn)
        have hall' : AllFramed ⟨s, y.frames⟩ := fun k => by
          rw [hb]
          exact hall k
        refine setMask_framed hall' ?_ (framed_sigreturn hd.2) h
        rw [hp]
        exact hquiet
    · cases h
  | ret t =>
    rw [step] at h
    split at h
    next d fs htop =>
      have hd := hall t
      rw [htop] at hd
      have hquiet := hq (t, d.context.mask) (by rw [looks, htop]; rfl)
      exact setMask_framed hall hquiet (framed_sigreturn hd.2) h
    · cases h
  | load t =>
    rw [step] at h
    split at h
    next d fs htop =>
      have hd := hall t
      rw [htop] at hd
      cases h
      exact frames_framed hall rfl hd.2
    · cases h
  | wake t =>
    rw [step] at h
    split at h
    next oset fs htop =>
      have hd := hall t
      rw [htop] at hd
      have hquiet := hq (t, oset) (by rw [looks, htop]; rfl)
      exact setMask_framed hall hquiet (framed_restored hd) h
    · cases h
  | leave t =>
    rw [step] at h
    split at h
    next oset fs htop =>
      have hd := hall t
      rw [htop] at hd
      cases h
      exact frames_framed hall rfl hd.2
    · cases h

/-! ## Deliveries -/

theorem length_woken : (woken fs).length = fs.length := by
  unfold woken
  split <;> rfl

theorem length_lowers : (lowers old new fs).length = fs.length := by
  unfold lowers
  split <;> rfl

/-- The stack that a step leaves a task has no new context of a delivery. -/
def Calm (y : Sys) (t : Nat) (fs : List Frame) : Prop :=
  ∀ d rest, fs = .wrapper d :: rest → rest.length < (y.frames t).length

theorem Calm.of_length (h : fs.length ≤ (y.frames t).length) : Calm y t fs := by
  rintro d rest rfl
  exact h

theorem frames_right {s : State} (hcalm : Calm y t fs) :
    Right y ⟨s, Function.update y.frames t fs⟩ := by
  rintro k d ⟨rest, htop, hlen⟩
  by_cases hk : k = t
  · subst hk
    have hself : Function.update y.frames k fs k = fs := Function.update_self ..
    have hfs : fs = .wrapper d :: rest := hself.symm.trans htop
    exact absurd hlen (Nat.not_le_of_lt (hcalm d rest hfs))
  · have hother : Function.update y.frames t fs k = y.frames k := Function.update_of_ne hk _ _
    rw [hother.symm.trans htop] at hlen
    exact absurd hlen (by simp)

/-- A call that delivers nothing is right. -/
theorem after_right (hcalm : Calm y t fs) (hc : r.context = none) : Right y (y.after t r fs) := by
  rw [Sys.after, hc]
  exact frames_right hcalm

theorem after_delivers {c : SigContext} (hlen : (y.frames t).length ≤ fs.length)
    (hc : r.context = some c) : Delivers y (y.after t r fs) t ⟨c, 0⟩ := by
  refine ⟨woken fs, ?_, by rw [length_woken]; exact hlen⟩
  show Function.update y.frames t (interrupted r.context fs) t = _
  rw [Function.update_self, hc]
  rfl

/-- A call that looks for pending signals is right exactly when it finds none. -/
theorem looks_right (hl : Looks y.s t m r) (hcalm : Calm y t fs)
    (hlen : (y.frames t).length ≤ fs.length) :
    y.s.pending t &&& ~~~m = 0 ↔ Right y (y.after t r fs) := by
  constructor
  · intro hquiet
    exact after_right hcalm (hl.quiet hquiet)
  · intro hright
    by_contra hloud
    obtain ⟨c, hc, hfree, hne⟩ := hl.loud hloud
    obtain ⟨_, _, hb⟩ := hright t ⟨c, 0⟩ (after_delivers hlen hc)
    have hm : m = c.mask ||| c.saMask ||| sigmask c.signo := by
      rw [← hb]
      show m = r.s.blocked t
      rw [hl.blocked, Function.update_self]
    apply hne
    rw [hm] at hfree
    ext j hj
    have hbit : (sigmask c.signo &&& (c.mask ||| c.saMask ||| sigmask c.signo))[j] = false := by
      simp [hfree]
    simp only [BitVec.getElem_and, BitVec.getElem_or] at hbit
    cases hs : (sigmask c.signo)[j] <;> simp [hs] at hbit ⊢

theorem send_right (h : Sends y.s t r) : Right y (y.after t r (y.frames t)) := by
  cases hc : r.context with
  | none => exact after_right (.of_length (Nat.le_refl _)) hc
  | some c =>
    rintro k d ⟨rest, htop, hlen⟩
    have hframes : (y.after t r (y.frames t)).frames =
        Function.update y.frames t (.wrapper ⟨c, 0⟩ :: woken (y.frames t)) := by
      rw [Sys.after, hc]
      rfl
    rw [hframes] at htop
    by_cases hk : k = t
    · subst hk
      rw [Function.update_self] at htop
      cases htop
      obtain ⟨hmask, hsa, hb⟩ := h.loud c hc
      refine ⟨hmask, hsa, ?_⟩
      show r.s.blocked k = _
      rw [hb, Function.update_self]
    · rw [Function.update_of_ne hk] at htop
      rw [htop] at hlen
      exact absurd hlen (by simp)

theorem quiet_of_none {l : Label} (h : looks y l = none) : Quiet y l := by
  intro p hp
  rw [h] at hp
  cases hp

theorem quiet_iff {l : Label} (h : looks y l = some (t, m)) :
    Quiet y l ↔ y.s.pending t &&& ~~~m = 0 := by
  rw [Quiet, h]
  exact ⟨fun hq => hq _ rfl, fun hq p hp => by cases hp; exact hq⟩

theorem setMask_right {l : Label} {f g : Frame} (htop : y.frames t = f :: fs)
    (hlooks : looks y l = some (t, m)) (hg : ∀ d, g ≠ .wrapper d)
    (h : y.setMask t m (g :: fs) = some u) : Quiet y l ↔ Right y u := by
  obtain ⟨r, hl, rfl⟩ := setMask_spec h
  rw [quiet_iff hlooks]
  refine looks_right hl ?_ (by rw [htop]; exact Nat.le_refl _)
  intro d rest hfs
  cases hfs
  exact absurd rfl (hg d)

/-- A step is right about what it delivers exactly when it finds no pending signal outside the
blocked set. -/
theorem step_right_iff {l : Label} (h : step y l = some u) : Quiet y l ↔ Right y u := by
  cases l with
  | send sender t sending =>
    rw [step] at h
    split at h
    · obtain ⟨r, hcall, rfl⟩ := Option.map_eq_some_iff.1 h
      exact ⟨fun _ => send_right (call_sends hcall), fun _ => quiet_of_none rfl⟩
    · cases h
  | sigaction t room signo act fuel =>
    rw [step] at h
    split at h
    · obtain ⟨r, hcall, rfl⟩ := Option.map_eq_some_iff.1 h
      have hc := (sigaction_blocked hcall).2
      exact ⟨fun _ => after_right (.of_length (Nat.le_refl _)) hc, fun _ => quiet_of_none rfl⟩
    · cases h
  | sigprocmask t room what set =>
    rw [step] at h
    split at h
    · obtain ⟨r, hcall, rfl⟩ := Option.map_eq_some_iff.1 h
      have hcalm : Calm y t (lowers (y.s.blocked t) (r.s.blocked t) (y.frames t)) :=
        .of_length (Nat.le_of_eq length_lowers)
      obtain ⟨m, hm, hl⟩ | ⟨hsilent, hnone⟩ := sigprocmask_spec hcall
      · rw [quiet_iff (t := t) (m := m) (by rw [looks, hm]; rfl)]
        exact looks_right hl hcalm (Nat.le_of_eq length_lowers.symm)
      · refine ⟨fun _ => after_right hcalm hsilent.context, fun _ => ?_⟩
        rintro ⟨k, m⟩ hp
        rw [looks] at hp
        obtain ⟨m', hm', hkm⟩ := Option.map_eq_some_iff.1 hp
        cases hkm
        have hzero := hnone.resolve_left (by rw [hm']; exact Option.some_ne_none _)
        dsimp only
        rw [hzero]
        exact BitVec.zero_and
    · cases h
  | sigsuspend t room set =>
    rw [step] at h
    split at h
    · obtain ⟨r, hcall, rfl⟩ := Option.map_eq_some_iff.1 h
      rw [quiet_iff (t := t) (m := set) rfl]
      obtain ⟨hstatus, hl⟩ | ⟨hstatus, _, hc, hzero⟩ := sigsuspend_spec hcall
      · rw [if_pos hstatus]
        exact looks_right hl (fun d rest hfs => nomatch hfs) (Nat.le_succ _)
      · rw [if_neg hstatus, hzero]
        exact ⟨fun _ => after_right (.of_length (Nat.le_refl _)) hc, fun _ => BitVec.zero_and⟩
    · cases h
  | enter t =>
    rw [step] at h
    split at h
    next d fs htop =>
      simp only [sigWrapper, Option.bind_eq_bind, Option.bind_eq_some_iff] at h
      obtain ⟨s, hreset, h⟩ := h
      obtain ⟨hb, hp⟩ := resetHandler_spec hreset
      have hlen : (Frame.handler d :: fs).length = (y.frames t).length := by rw [htop]; rfl
      split at h
      next hfn =>
        cases h
        refine ⟨fun _ => frames_right (.of_length (Nat.le_of_eq hlen)), fun _ => ?_⟩
        exact quiet_of_none (by rw [looks, htop]; exact if_pos hfn)
      next hfn =>
        obtain ⟨r, hl, rfl⟩ := setMask_spec h
        rw [quiet_iff (t := t) (m := d.context.mask) (by rw [looks, htop]; exact if_neg hfn)]
        exact looks_right (hl.congr hb hp) (fun d rest hfs => nomatch hfs)
          (Nat.le_of_eq hlen.symm)
    · cases h
  | ret t =>
    rw [step] at h
    split at h
    next d fs htop =>
      exact setMask_right htop (by rw [looks, htop]) (by intro d hd; cases hd) h
    · cases h
  | load t =>
    rw [step] at h
    split at h
    next d fs htop =>
      cases h
      refine ⟨fun _ => frames_right (.of_length ?_), fun _ => quiet_of_none rfl⟩
      rw [htop]
      exact Nat.le_succ _
    · cases h
  | wake t =>
    rw [step] at h
    split at h
    next oset fs htop =>
      exact setMask_right htop (by rw [looks, htop]) (by intro d hd; cases hd) h
    · cases h
  | leave t =>
    rw [step] at h
    split at h
    next oset fs htop =>
      cases h
      refine ⟨fun _ => frames_right (.of_length ?_), fun _ => quiet_of_none rfl⟩
      rw [htop]
      exact Nat.le_succ _
    · cases h

end

/-! ## Runs -/

/-- In a run whose steps find no pending signal outside the blocked set, every handler runs with
the old blocked set, its `sa_mask` and its signal blocked, and is left with the old set; and a step
that comes next delivers right exactly when it finds no such signal. -/
theorem signal_masking {y u : Sys} {ls : List Label} (hinit : ∀ t, y.frames t = [])
    (hrun : exec step y ls = some u) (hquiet : AllSteps step Quiet y ls) :
    AllFramed u ∧ ∀ l v, step u l = some v → (Quiet u l ↔ Right u v) := by
  have hstart : AllFramed y := fun t => by
    rw [hinit t]
    trivial
  exact ⟨exec_invariant_of (fun _ _ _ hall hq h => step_framed hall hq h) hstart hquiet hrun,
    fun _ _ h => step_right_iff h⟩

/-- One task, which has not used signals. -/
def quietStart : Sys where
  s := {
    next := fun _ => none
    prev := fun _ => none
    pend := fun _ => ⟨⟨0, .SI_SYNC, 0⟩, 0, 0, 0⟩
    freeHead := none
    tcb := fun _ => none
    live := fun t => t == 0
    errno := none }
  frames := fun _ => []

/-- A handler for `SIGINT` that blocks `SIGQUIT` is installed and `SIGINT` sent, and once more by
the task itself after the handler has returned. -/
def twice : List Label :=
  [.sigaction 0 true 2 (some ⟨.fn 0, sigmask 3, false⟩) 0, .send none 0 (.kill 2), .enter 0,
    .ret 0, .load 0, .send (some 0) 0 (.kill 2), .enter 0]

theorem signal_masking_twice : ∃ u, exec step quietStart twice = some u ∧ u.s.blocked 0 = 6 ∧
    AllFramed u ∧ ∀ l v, step u l = some v → (Quiet u l ↔ Right u v) := by
  have hmap : (exec step quietStart twice).map (fun u => u.s.blocked 0) = some 6 := by decide
  obtain ⟨u, hrun, hblocked⟩ := Option.map_eq_some_iff.1 hmap
  exact ⟨u, hrun, hblocked, signal_masking (fun _ => rfl) hrun (by decide)⟩

/-- `SIGINT` is sent while it is blocked. -/
def whileBlocked : List Label :=
  [.sigaction 0 true 2 (some ⟨.fn 0, sigmask 3, false⟩) 0, .sigprocmask 0 true SIG_BLOCK (some 2),
    .send none 0 (.kill 2)]

/-- When `SIGINT` is then unblocked its handler is started with nothing blocked. -/
theorem unblock_unmasked : ¬∀ y ls u, (∀ t, y.frames t = []) → exec step y ls = some u →
    ∀ l v, step u l = some v → Right u v := by
  intro h
  have hmap : (exec step quietStart whileBlocked).bind (fun u =>
      (step u (.sigprocmask 0 true SIG_UNBLOCK (some 2))).map fun v =>
        (decide (Quiet u (.sigprocmask 0 true SIG_UNBLOCK (some 2))), v.s.blocked 0)) =
      some (false, 0) := by decide
  obtain ⟨u, hrun, hmap⟩ := Option.bind_eq_some_iff.1 hmap
  obtain ⟨v, hstep, hv⟩ := Option.map_eq_some_iff.1 hmap
  have hloud := of_decide_eq_false (congrArg Prod.fst hv)
  exact hloud ((step_right_iff hstep).2 (h _ _ u (fun _ => rfl) hrun _ v hstep))

end Vmx.Os.Sig
