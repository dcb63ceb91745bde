import Vmx.Os.FfsLib
import Mathlib.Logic.Function.Basic

/-!
# `sigLib`: signals

A task that has used signals has a `sigtcb` with its actions, its blocked set, and its pending
signals: plain ones are a bit of `sigt_kilsigs` each, and queued ones are entries of a circular
list whose head is in `sigt_qhead`.  Buffers for entries come from one free list for all tasks,
which is linked through the first word of a buffer, the `sigq_next` of its links.

A handler runs on a context that has been put on the stack of the task, either by the task
itself or by who sends the signal; a function that delivers a signal returns this context, and
what runs then is the matter of `SigMask`.

`none` is a pointer that is `NULL` or not to an entry and is followed, or a loop that has not
ended after the rounds that it is given.  No code sets `sigt_wait`, so that the model leaves it out.
-/

namespace Vmx.Os.Sig

open Vmx.Util

def OK : Int := 0

def ERROR : Int := -1

inductive Errno where
  | EINVAL
  | EAGAIN
  | ENOMEM
  deriving DecidableEq

/-- `sigset_t`, an `unsigned long`. -/
abbrev SigSet := BitVec 32

def NSIGS : Nat := 31

def sigmask (m : Nat) : SigSet := 1#32 <<< (m - 1)

def issig (m : Int) : Bool := decide (1 ≤ m ∧ m ≤ NSIGS)

def SIG_BLOCK : Int := 1

def SIG_UNBLOCK : Int := 2

def SIG_SETMASK : Int := 3

inductive SigHandler where
  | SIG_DFL
  | SIG_IGN
  | SIG_ERR
  | fn (f : Nat)
  deriving DecidableEq

structure SigAction where
  handler : SigHandler
  mask : SigSet
  /-- `SA_RESETHAND` of the flags. -/
  resethand : Bool
  deriving DecidableEq

inductive SigCode where
  | SI_SYNC
  | SI_KILL
  | SI_QUEUE
  | SI_TIMER
  | SI_ASYNCIO
  | SI_MESGQ
  deriving DecidableEq

structure SigInfo where
  signo : Nat
  code : SigCode
  value : Int
  deriving DecidableEq

/-- The `sigq` of a list of a task, or the one in an entry. -/
inductive Addr where
  | head (task signo : Nat)
  | pend (n : Nat)
  deriving DecidableEq

/-- An entry, without its links. -/
structure SigPend where
  info : SigInfo
  overruns : Int
  activeOverruns : Int
  /-- The task whose list the entry is in. -/
  tcb : Nat
  deriving DecidableEq

structure SigTcb where
  vec : Nat → SigAction
  kilsigs : SigSet
  blocked : SigSet
  pending : SigSet

structure State where
  next : Addr → Option Addr
  prev : Addr → Option Addr
  pend : Nat → SigPend
  freeHead : Option Addr
  /-- `pSignalInfo` of each task. -/
  tcb : Nat → Option SigTcb
  /-- The tasks that `TASK_ID_VERIFY` accepts. -/
  live : Nat → Bool
  errno : Option Errno

/-- What is saved of a task when a signal is delivered to it.  As ghosts the number of the signal
and the `sa_mask` that is in force for it. -/
structure SigContext where
  mask : SigSet
  info : SigInfo
  signo : Nat
  saMask : SigSet
  deriving DecidableEq

namespace State

def setNext (s : State) (a : Addr) (v : Option Addr) : State :=
  { s with next := Function.update s.next a v }

def setPrev (s : State) (a : Addr) (v : Option Addr) : State :=
  { s with prev := Function.update s.prev a v }

def setPend (s : State) (n : Nat) (p : SigPend) : State :=
  { s with pend := Function.update s.pend n p }

def updTcb (s : State) (t : Nat) (f : SigTcb → SigTcb) : State :=
  { s with tcb := Function.update s.tcb t ((s.tcb t).map f) }

def errnoSet (s : State) (e : Errno) : State := { s with errno := some e }

/-- A buffer is put on the free list. -/
def free (s : State) (n : Nat) : State :=
  { s.setNext (.pend n) s.freeHead with freeHead := some (.pend n) }

/-- The links of an entry are set to `NULL`. -/
def unqueue (s : State) (n : Nat) : State := (s.setPrev (.pend n) none).setNext (.pend n) none

variable {s : State} {t k : Nat} {f : SigTcb → SigTcb} {τ : SigTcb}

theorem updTcb_some (h : s.tcb t = some τ) : (s.updTcb t f).tcb t = some (f τ) := by
  show Function.update s.tcb t ((s.tcb t).map f) t = some (f τ)
  rw [Function.update_self, h]
  rfl

theorem updTcb_none (h : s.tcb t = none) : s.updTcb t f = s := by
  rw [updTcb, h, Option.map_none, ← h, Function.update_eq_self]

theorem updTcb_ne (h : k ≠ t) : (s.updTcb t f).tcb k = s.tcb k := Function.update_of_ne h _ _

end State

/-! ## The lists -/

/-- `while (nQueues--)` of `sigqueueInit`, from the buffer `n` on. -/
def sigqueueInitLoop : Nat → Nat → State → State
  | 0, _, s => s
  | nQueues + 1, n, s => sigqueueInitLoop nQueues (n + 1) (s.free n)

/-- The entry is taken out of its list, the link of the one before it first. -/
def unlink (s : State) (n : Nat) : Option State := do
  let prev ← s.prev (.pend n)
  let s := s.setNext prev (s.next (.pend n))
  let next ← s.next (.pend n)
  let s := s.setPrev next (s.prev (.pend n))
  return s.unqueue n

/-- The entry is taken out of its list, the link of the one behind it first. -/
def unlinkDestroyed (s : State) (n : Nat) : Option State := do
  let next ← s.next (.pend n)
  let s := s.setPrev next (s.prev (.pend n))
  let prev ← s.prev (.pend n)
  let s := s.setNext prev (s.next (.pend n))
  return s.unqueue n

/-- The entry is put at the end of the list of the head. -/
def linkLast (s : State) (head : Addr) (n : Nat) : Option State := do
  let s := s.setPrev (.pend n) (s.prev head)
  let s := s.setNext (.pend n) (some head)
  let prev ← s.prev (.pend n)
  let s := s.setNext prev (some (.pend n))
  return s.setPrev head (some (.pend n))

/-- The loop of `sigaction` and of `sigDeleteHook` over the entries of a list.  The links of the
head are left as they are. -/
def drainLoop (head : Addr) : Nat → Option Addr → State → Option State
  | 0, _, _ => none
  | fuel + 1, pSigQueue, s =>
    if pSigQueue = some head then some s
    else
      match pSigQueue with
      | some (.pend n) =>
        let next := s.next (.pend n)
        let s := s.unqueue n
        drainLoop head fuel next (if (s.pend n).info.code = .SI_QUEUE then s.free n else s)
      | _ => none

def drain (s : State) (fuel t signo : Nat) : Option State :=
  drainLoop (.head t signo) fuel (s.next (.head t signo)) s

/-! ## Pending signals -/

/-- The first entry of a list is taken out of it. -/
def takeEntry (s : State) (t signo : Nat) : Option (State × SigInfo) :=
  match s.next (.head t signo) with
  | some (.pend n) =>
    (unlink s n).map fun s =>
      let pSigPend := s.pend n
      let s := s.setPend n
        { pSigPend with overruns := pSigPend.activeOverruns, activeOverruns := 0 }
      (if pSigPend.info.code = .SI_QUEUE then s.free n else s, pSigPend.info)
  | _ => none

/-- The pending signal of the lowest number in the set is taken.  The number is 0 if there is
none. -/
def sigPendGet (s : State) (t : Nat) (sigset : SigSet) : Option (State × Nat × SigInfo) :=
  match s.tcb t with
  | none => none
  | some pSigTcb =>
    let sigmsk := sigset &&& pSigTcb.pending
    if sigmsk = 0 then some (s, 0, ⟨0, .SI_KILL, 0⟩)
    else
      let sigmsk := sigmsk &&& -sigmsk
      let signo := ffsMsb sigmsk.toNat
      let taken :=
        if sigmsk &&& pSigTcb.kilsigs ≠ 0 then
          some (s.updTcb t fun τ => { τ with kilsigs := τ.kilsigs &&& ~~~sigmsk },
            ⟨signo, .SI_KILL, 0⟩)
        else takeEntry s t signo
      taken.map fun r =>
        (if r.1.next (.head t signo) = some (.head t signo)
          then r.1.updTcb t fun τ => { τ with pending := τ.pending &&& ~~~sigmsk } else r.1,
          signo, r.2)

/-- A pending signal that is not blocked is delivered.  The code compares the blocked set with
the signals that it is to add (`!=` in place of `|=`), so that the set stays as it is. -/
def sigPendRun (s : State) (t : Nat) : Option (State × Option SigContext) :=
  match s.tcb t with
  | none => none
  | some pSigTcb =>
    (sigPendGet s t (~~~pSigTcb.blocked)).map fun r =>
      (r.1, if r.2.1 > 0 then some ⟨pSigTcb.blocked, r.2.2, r.2.1, (pSigTcb.vec r.2.1).mask⟩
        else none)

/-- What a signal is sent with: a record on the stack of the sender, or an entry of its own. -/
inductive Source where
  | stack (info : SigInfo)
  | entry (n : Nat)
  deriving DecidableEq

namespace Source

def info (s : State) : Source → SigInfo
  | stack info => info
  | entry n => (s.pend n).info

/-- The links, which `sigPendInit` has set to `NULL` in a record on the stack. -/
def next (s : State) : Source → Option Addr
  | stack _ => none
  | entry n => s.next (.pend n)

def prev (s : State) : Source → Option Addr
  | stack _ => none
  | entry n => s.prev (.pend n)

end Source

/-- The entry that a blocked signal is queued with: a buffer with a copy of the source, or the
source itself.  `junk` is what the copy has in `sigp_active_overruns` and `sigp_tcb` when the
source is on a stack, where they are not set. -/
def queueEntry (s : State) (src : Source) (junk : Int × Nat) : Option (State × Nat) :=
  if (src.info s).code = .SI_QUEUE then
    match s.freeHead with
    | some (.pend n) =>
      let copy : SigPend := match src with
        | .stack info => ⟨info, 0, junk.1, junk.2⟩
        | .entry m => s.pend m
      let s₁ := { s with freeHead := s.next (.pend n) }
      some (((s₁.setNext (.pend n) (src.next s)).setPrev (.pend n) (src.prev s)).setPend n copy, n)
    | _ => none
  else
    match src with
    | .stack _ => none
    | .entry n => some (s, n)

/-- A signal that is blocked is put among the pending ones. -/
def sigBlocked (s : State) (t : Nat) (src : Source) (junk : Int × Nat) : Option State :=
  let signo := (src.info s).signo
  let sigmsk := sigmask signo
  if (src.info s).code = .SI_KILL then
    some (s.updTcb t fun τ =>
      { τ with kilsigs := τ.kilsigs ||| sigmsk, pending := τ.pending ||| sigmsk })
  else if src.next s ≠ none then
    match src with
    | .stack _ => none
    | .entry n =>
      some (s.setPend n { s.pend n with activeOverruns := (s.pend n).activeOverruns + 1 })
  else do
    let (s, n) ← queueEntry s src junk
    let s ← linkLast s (.head t signo) n
    let s := s.updTcb t fun τ => { τ with pending := τ.pending ||| sigmsk }
    return s.setPend n { s.pend n with tcb := t }

/-- The signal is sent to a task, in the kernel. -/
def sigVmxPendKill (s : State) (t : Nat) (src : Source) (junk : Int × Nat) :
    Option (State × Option SigContext) :=
  match s.tcb t with
  | none => some (s, none)
  | some pSigTcb =>
    let info := src.info s
    let action := pSigTcb.vec info.signo
    let sigmsk := sigmask info.signo
    if action.handler = .SIG_IGN then some (s, none)
    else if action.handler = .SIG_DFL then some (s, none)
    else if pSigTcb.blocked &&& sigmsk ≠ 0 then (sigBlocked s t src junk).map fun s => (s, none)
    else
      -- The context of the current task is in the frame of this call, that of another task on top
      -- of its stack; the two paths write the same into it.
      some (s.updTcb t fun τ => { τ with blocked := τ.blocked ||| (action.mask ||| sigmsk) },
        some ⟨pSigTcb.blocked, info, info.signo, action.mask⟩)

def sigVmxKill (s : State) (t : Nat) (signo : Nat) :
    Option (State × Option SigContext) :=
  sigVmxPendKill s t (.stack ⟨signo, .SI_KILL, 0⟩) (0, 0)

/-! ## The calls

Each returns its status and the context of the signal that it delivers.  A call that comes in an
interrupt of the task itself or in the kernel is handed to the exception task, which makes it
again. -/

structure Ret where
  s : State
  status : Int
  context : Option SigContext

def kill (s : State) (t : Nat) (signo : Int) : Option Ret :=
  if !issig signo then some ⟨s.errnoSet .EINVAL, ERROR, none⟩
  else if !s.live t then some ⟨s.errnoSet .EINVAL, ERROR, none⟩
  else (sigVmxKill s t signo.toNat).map fun r => ⟨r.1, OK, r.2⟩

def sigqueue (s : State) (t : Nat) (signo value : Int) (junk : Int × Nat) :
    Option Ret :=
  if !issig signo then some ⟨s.errnoSet .EINVAL, ERROR, none⟩
  else if !s.live t then some ⟨s.errnoSet .EINVAL, ERROR, none⟩
  else if s.freeHead = none then some ⟨s.errnoSet .EAGAIN, ERROR, none⟩
  else
    (sigVmxPendKill s t (.stack ⟨signo.toNat, .SI_QUEUE, value⟩) junk).map fun r =>
      ⟨r.1, OK, r.2⟩

def sigPendKill (s : State) (t : Nat) (n : Nat) : Option Ret :=
  if !s.live t then some ⟨s.errnoSet .EINVAL, ERROR, none⟩
  else (sigVmxPendKill s t (.entry n) (0, 0)).map fun r => ⟨r.1, OK, r.2⟩

def sigPendInit (s : State) (n : Nat) : State :=
  (s.unqueue n).setPend n { s.pend n with overruns := 0 }

def sigPendDestroy (s : State) (n : Nat) : Option State := do
  let s := s.setPend n { s.pend n with overruns := 0 }
  if s.next (.pend n) = none then return s
  let pSigPend := s.pend n
  let s := if s.next (.pend n) = s.prev (.pend n)
    then s.updTcb pSigPend.tcb fun τ =>
      { τ with pending := τ.pending &&& (τ.kilsigs ||| ~~~sigmask pSigPend.info.signo) }
    else s
  unlinkDestroyed s n

/-- The `sigtcb` that a task gets on its stack when it has none. -/
def sigTcbNew (s : State) (t : Nat) : State :=
  let empty (a : Addr) (link : Addr → Option Addr) : Option Addr :=
    match a with
    | .head task signo => if task = t ∧ signo ≤ NSIGS then some a else link a
    | .pend _ => link a
  { s with
    tcb := Function.update s.tcb t
      (some ⟨fun _ => ⟨.SIG_DFL, 0, false⟩, 0, 0, 0⟩)
    next := fun a => empty a s.next
    prev := fun a => empty a s.prev }

/-- `NULL` when there is no room on the stack.  A task calls it for itself. -/
def sigTcbGet (s : State) (t : Nat) (room : Bool) : State × Bool :=
  if (s.tcb t).isSome then (s, true)
  else if room then (sigTcbNew s t, true)
  else (s.errnoSet .ENOMEM, false)

def sigaction (s : State) (t : Nat) (room : Bool) (signo : Int) (act : Option SigAction)
    (fuel : Nat) : Option Ret :=
  if !issig signo then some ⟨s.errnoSet .EINVAL, ERROR, none⟩
  else
    match sigTcbGet s t room with
    | (s, false) => some ⟨s, ERROR, none⟩
    | (s, true) =>
      match act with
      | none => some ⟨s, OK, none⟩
      | some act =>
        let signo := signo.toNat
        let s := s.updTcb t fun τ => { τ with vec := Function.update τ.vec signo act }
        if act.handler = .SIG_IGN then
          let s := s.updTcb t fun τ => { τ with
            pending := τ.pending &&& ~~~sigmask signo, kilsigs := τ.kilsigs &&& ~~~sigmask signo }
          (drain s fuel t signo).map fun s => ⟨s, OK, none⟩
        else some ⟨s, OK, none⟩

/-- `sigPendRun` and the return when it delivers nothing. -/
def runPending (s : State) (t : Nat) : Option Ret :=
  (sigPendRun s t).map fun r => ⟨r.1, OK, r.2⟩

def sigprocmask (s : State) (t : Nat) (room : Bool) (what : Int) (set : Option SigSet) :
    Option Ret :=
  match sigTcbGet s t room with
  | (s, false) => some ⟨s, ERROR, none⟩
  | (s, true) =>
    match set with
    | none => runPending s t
    | some set =>
      if what = SIG_BLOCK then
        some ⟨s.updTcb t fun τ => { τ with blocked := τ.blocked ||| set }, OK, none⟩
      else if what = SIG_UNBLOCK then
        runPending (s.updTcb t fun τ => { τ with blocked := τ.blocked &&& ~~~set }) t
      else if what = SIG_SETMASK then
        runPending (s.updTcb t fun τ => { τ with blocked := set }) t
      else some ⟨s.errnoSet .EINVAL, ERROR, none⟩

/-- `sigsuspend` up to where it has run a pending signal or sleeps. -/
def sigsuspend (s : State) (t : Nat) (room : Bool) (set : SigSet) : Option Ret :=
  match sigTcbGet s t room with
  | (s, false) => some ⟨s, ERROR, none⟩
  | (s, true) => runPending (s.updTcb t fun τ => { τ with blocked := set }) t

/-- The lists of a task that is deleted are drained. -/
def sigDeleteHook (s : State) (t fuel : Nat) : Option State :=
  if (s.tcb t).isNone then some s
  else (List.range (NSIGS + 1)).foldlM (fun s i => drain s fuel t i) s

/-! ## Bits of signals -/

theorem getLsbD_sigmask {m : Nat} (h : 1 ≤ m ∧ m ≤ 32) (j : Nat) :
    (sigmask m).getLsbD j = decide (j = m - 1) := by
  rw [sigmask, BitVec.getLsbD_shiftLeft, BitVec.getLsbD_one]
  by_cases hj : j = m - 1
  · rw [hj]
    have hlt : m - 1 < 32 := by omega
    simp [hlt]
  · have hne : ¬j < m - 1 → j - (m - 1) ≠ 0 := by omega
    by_cases hlt : j < m - 1
    · simp [hlt, hj]
    · simp [hne hlt, hj]

theorem sigmask_ne_zero {m : Nat} (h : 1 ≤ m ∧ m ≤ 32) : sigmask m ≠ 0 := by
  intro hz
  have hbit := getLsbD_sigmask h (m - 1)
  rw [hz, decide_eq_true rfl] at hbit
  exact absurd hbit (by simp)

/-- `sigmsk &= -sigmsk` leaves one bit, that of the signal whose number is computed from it. -/
theorem sigmask_lowest {x : SigSet} (h : x ≠ 0) :
    (1 ≤ ffsMsb (x &&& -x).toNat ∧ ffsMsb (x &&& -x).toNat ≤ 32) ∧
      x &&& -x = sigmask (ffsMsb (x &&& -x).toNat) := by
  have hpos : 0 < x.toNat := Nat.pos_of_ne_zero fun hx => h (BitVec.eq_of_toNat_eq hx)
  obtain ⟨i, hlow⟩ := exists_lowestBit hpos
  have hi : i < 32 := lowestBit_lt hlow x.isLt
  have hpow : 2 ^ i < 2 ^ 32 := Nat.pow_lt_pow_right (by decide) hi
  have hand : x &&& -x = (x ^^^ (x - 1#32)) &&& x := by
    rw [BitVec.neg_eq_not_add, ← BitVec.not_sub_one_eq_not_add_one]
    ext j hj
    simp only [BitVec.getElem_and, BitVec.getElem_not, BitVec.getElem_xor]
    cases x[j] <;> cases (x - 1#32)[j] <;> rfl
  have hsub : (x - 1#32).toNat = u32 (x.toNat + 4294967295) := by
    rw [BitVec.toNat_sub, BitVec.toNat_ofNat, u32]
    omega
  have hval : (x &&& -x).toNat = 2 ^ i := by
    rw [hand, BitVec.toNat_and, BitVec.toNat_xor, hsub]
    exact isolate_lowestBit x.isLt hlow
  have hffs : ffsMsb (x &&& -x).toNat = i + 1 := by
    rw [hval, ffsMsb_eq (Nat.lt_of_lt_of_eq hpow (by decide)) (Nat.ne_of_gt (Nat.two_pow_pos i)),
      Nat.log2_two_pow]
  rw [hffs]
  refine ⟨⟨Nat.succ_pos i, hi⟩, ?_⟩
  apply BitVec.eq_of_toNat_eq
  rw [hval, sigmask, Nat.add_sub_cancel, BitVec.toNat_shiftLeft, BitVec.toNat_ofNat,
    Nat.shiftLeft_eq, Nat.mod_eq_of_lt (by decide : 1 < 2 ^ 32), Nat.one_mul,
    Nat.mod_eq_of_lt hpow]

end Vmx.Os.Sig
