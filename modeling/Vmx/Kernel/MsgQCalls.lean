import Vmx.Kernel.CallTrace

/-!
# `msgQSend` and `msgQReceive` from end to end

Both calls get a node in a loop that starts again after a signal, then move it to the other queue
and return.  What they return is compared with what they have done to the two queues and to the
caller's task lock (`MsgQCall.truthful_iff`).  A send that finds `kernelState` set returns the
variable `status` of `qMsgPut`, in which nothing has been stored, and a receive in an interrupt
keeps the task lock.
-/

namespace Vmx.CallTrace

variable {c : Caller} {q : MsgQueue} {timeout : Nat} {tr : List Event} {result : Int}

/-! ## The two calls -/

/-- One round of the loop: what `OBJ_VERIFY` finds, and the turns of `qMsgGet`. -/
structure Round where
  verified : Bool
  turns : List QTurn
  deriving DecidableEq, Repr

def taskUnlocks (locks : Bool) : List Event := if locks then [.taskUnlock] else []

/-- What follows a `NULL` from `qMsgGet`.  The comparison of `OBJ_VERIFY` with `OK` never holds. -/
def timeoutEvents (timedOut verified : Bool) : List Event :=
  if timedOut then
    (if verified then [] else [.errnoSet .S_objLib_ID_ERROR]) ++
      if objVerifyEqOK verified then [.sendTimeoutsUp] else [.errnoSet .S_objLib_DELETED]
  else []

/-- The loop of both calls: a node of the queue `q`, or `none` for an error.  `tooLong` is the
check of the length that only `msgQSend` makes, and `locks` says that an error path gives the task
lock back. -/
def nodeLoop (q : MsgQueue) (tooLong locks : Bool) (timeout : Nat) :
    List Round → Option (List Event × Option Nat)
  | [] => none
  | r :: rounds =>
    if objVerifyNeOK r.verified then
      some (.errnoSet .S_objLib_ID_ERROR :: taskUnlocks locks, none)
    else if tooLong then
      some (.msgQErrnoSet .S_msgQLib_INVALID_MSG_LENGTH :: taskUnlocks locks, none)
    else
      match qMsgGet q timeout r.turns with
      | none => none
      | some (get, .node pMsg) => some (get, some pMsg)
      | some (get, .NULL timedOut verified) =>
        some (get ++ timeoutEvents timedOut verified ++ taskUnlocks locks, none)
      | some (get, .NONE) =>
        (nodeLoop q tooLong locks timeout rounds).map fun next => (get ++ next.1, next.2)

/-- `msgQSend`.  `put` is what `qMsgPut` finds and `uninit` is what its variable `status` holds
when it is entered. -/
def msgQSend (c : Caller) (maxMsgLength nBytes timeout priority : Nat) (rounds : List Round)
    (put : QTurn) (uninit : Int) : Option (List Event × Int) :=
  if c.intContext ∧ timeout ≠ WAIT_NONE then
    some ([.msgQErrnoSet .S_msgQLib_INVALID_TIMEOUT], ERROR)
  else
    let lock : List Event := if c.intContext then [] else [.taskLock]
    match nodeLoop .freeQ (decide (nBytes > maxMsgLength)) (!c.intContext) timeout rounds with
    | none => none
    | some (get, none) => some (lock ++ get, ERROR)
    | some (get, some pMsg) =>
      let stored := qMsgPut .msgQ pMsg priority uninit put
      some (lock ++ get ++ [.nodeFill pMsg nBytes] ++ stored.1 ++ taskUnlocks (!c.intContext),
        if stored.2 ≠ OK then ERROR else OK)

/-- The `msgLength` of a node: an `int` that `msgQSend` has checked against the maximum. -/
abbrev MsgLength := { n : Nat // n < 2147483648 }

/-- `msgQReceive`.  It takes the task lock whether or not it has been refused. -/
def msgQReceive (c : Caller) (msgLength : Nat → MsgLength) (maxBytes timeout : Nat)
    (rounds : List Round) (put : QTurn) (uninit : Int) : Option (List Event × Int) :=
  if c.intRestrict then some ([.errnoSet .S_intLib_NOT_ISR_CALLABLE, .taskLock], ERROR)
  else
    match nodeLoop .msgQ false true timeout rounds with
    | none => none
    | some (get, none) => some (.taskLock :: get, ERROR)
    | some (get, some pMsg) =>
      some (.taskLock :: (get ++ (qMsgPut .freeQ pMsg 1 uninit put).1 ++ [.taskUnlock]),
        ((min (msgLength pMsg).1 maxBytes : Nat) : Int))

/-! ## What has been done to the queues and to the task lock -/

/-- The event changes a queue or a node. -/
def Event.changesQueue : Event → Bool
  | .nodeGet .. => true
  | .nodePut .. => true
  | .nodeFill .. => true
  | _ => false

def queueChanges (tr : List Event) : List Event := tr.filter Event.changesQueue

@[simp] theorem queueChanges_append (tr tr' : List Event) :
    queueChanges (tr ++ tr') = queueChanges tr ++ queueChanges tr' := by
  simp [queueChanges]

@[simp] theorem queueChanges_nil : queueChanges [] = [] := rfl

@[simp] theorem queueChanges_cons (e : Event) (tr : List Event) :
    queueChanges (e :: tr) = if e.changesQueue then e :: queueChanges tr else queueChanges tr := by
  simp [queueChanges, List.filter_cons]

@[simp] theorem queueChanges_waitEvents (timeout : Nat) :
    queueChanges (waitEvents timeout) = [] := by
  simp [waitEvents, Event.changesQueue]

@[simp] theorem queueChanges_taskUnlocks (locks : Bool) :
    queueChanges (taskUnlocks locks) = [] := by
  cases locks <;> simp [taskUnlocks, Event.changesQueue]

@[simp] theorem queueChanges_timeoutEvents (timedOut verified : Bool) :
    queueChanges (timeoutEvents timedOut verified) = [] := by
  cases timedOut <;> cases verified <;> simp [timeoutEvents, Event.changesQueue]

/-- The task lock is taken `locks` times and given back `unlocks` times. -/
def TaskLocks (tr : List Event) (locks unlocks : Nat) : Prop :=
  tr.count .taskLock = locks ∧ tr.count .taskUnlock = unlocks

/-- The task lock count is what it was. -/
def TaskLockBalanced (tr : List Event) : Prop := tr.count .taskLock = tr.count .taskUnlock

instance (tr : List Event) (locks unlocks : Nat) : Decidable (TaskLocks tr locks unlocks) :=
  inferInstanceAs (Decidable (tr.count .taskLock = locks ∧ tr.count .taskUnlock = unlocks))

instance (tr : List Event) : Decidable (TaskLockBalanced tr) :=
  inferInstanceAs (Decidable (tr.count .taskLock = tr.count .taskUnlock))

theorem TaskLocks.append {tr tr' : List Event} {m n m' n' : Nat} (h : TaskLocks tr m n)
    (h' : TaskLocks tr' m' n') : TaskLocks (tr ++ tr') (m + m') (n + n') := by
  unfold TaskLocks at *
  rw [List.count_append, List.count_append]
  omega

theorem taskLocks_waitEvents (timeout : Nat) : TaskLocks (waitEvents timeout) 0 0 := by
  simp [TaskLocks, waitEvents]

theorem taskLocks_taskUnlocks (locks : Bool) :
    TaskLocks (taskUnlocks locks) 0 (if locks then 1 else 0) := by
  cases locks <;> decide

theorem taskLocks_timeoutEvents (timedOut verified : Bool) :
    TaskLocks (timeoutEvents timedOut verified) 0 0 := by
  cases timedOut <;> cases verified <;> simp [TaskLocks, timeoutEvents]

theorem TaskLocks.balanced {n : Nat} (h : TaskLocks tr n n) : TaskLockBalanced tr := by
  unfold TaskLocks at h
  unfold TaskLockBalanced
  omega

/-! ## What the loop comes to -/

/-- The turns lead `qMsgGet` to a node. -/
def offers (timeout : Nat) : List QTurn → Bool
  | [] => false
  | t :: turns =>
    t.node.isSome || (timeout != WAIT_NONE && t.exit == OK && t.verifiedAfter &&
      offers timeout turns)

/-- The turns lead `qMsgGet` to a signal. -/
def restarts (timeout : Nat) : List QTurn → Bool
  | [] => false
  | t :: turns =>
    t.node.isNone && timeout != WAIT_NONE && (t.exit == SIG_RESTART ||
      (t.exit == OK && t.verifiedAfter && restarts timeout turns))

/-- The rounds lead the loop to a node: the object is good and no message is too long. -/
def nodeFound (tooLong : Bool) (timeout : Nat) : List Round → Bool
  | [] => false
  | r :: rounds =>
    r.verified && !tooLong &&
      (offers timeout r.turns || (restarts timeout r.turns && nodeFound tooLong timeout rounds))

def QMsgNode.isNode : QMsgNode → Bool
  | .node _ => true
  | _ => false

def QMsgNode.isNONE : QMsgNode → Bool
  | .NONE => true
  | _ => false

/-- The change of the queue that comes with a result. -/
def QMsgNode.changes (q : MsgQueue) : QMsgNode → List Event
  | .node pNode => [.nodeGet q pNode]
  | _ => []

/-- What `qMsgGet` does and returns. -/
structure QMsgGot (q : MsgQueue) (timeout : Nat) (turns : List QTurn) (tr : List Event)
    (r : QMsgNode) : Prop where
  locks : TaskLocks tr 0 0
  changes : queueChanges tr = r.changes q
  offers : offers timeout turns = r.isNode
  restarts : restarts timeout turns = r.isNONE

theorem qMsgGet_spec {turns : List QTurn} {r : QMsgNode}
    (hrun : qMsgGet q timeout turns = some (tr, r)) : QMsgGot q timeout turns tr r := by
  induction turns generalizing tr with
  | nil => simp [qMsgGet] at hrun
  | cons t turns ih =>
    rw [qMsgGet] at hrun
    cases hnode : t.node with
    | some pNode =>
      simp only [hnode, Option.some.injEq, Prod.mk.injEq] at hrun
      rw [← hrun.1, ← hrun.2]
      constructor <;>
        simp [TaskLocks, Event.changesQueue, offers, restarts, hnode, QMsgNode.isNode,
          QMsgNode.isNONE, QMsgNode.changes]
    | none =>
      simp only [hnode] at hrun
      by_cases hwait : timeout = WAIT_NONE
      · rw [if_pos hwait] at hrun
        simp only [Option.some.injEq, Prod.mk.injEq] at hrun
        rw [← hrun.1, ← hrun.2]
        constructor <;>
          simp [TaskLocks, Event.changesQueue, offers, restarts, hnode, hwait, QMsgNode.isNode,
            QMsgNode.isNONE, QMsgNode.changes]
      rw [if_neg hwait] at hrun
      have hbne : (timeout != WAIT_NONE) = true := by simpa using hwait
      by_cases hrestart : t.exit = SIG_RESTART
      · rw [if_pos hrestart] at hrun
        simp only [Option.some.injEq, Prod.mk.injEq] at hrun
        have hok : t.exit ≠ OK := by
          rw [hrestart]
          decide
        rw [← hrun.1, ← hrun.2]
        constructor
        case locks => exact taskLocks_waitEvents timeout
        case changes => exact queueChanges_waitEvents timeout
        case offers => simp [offers, hnode, hok, QMsgNode.isNode]
        case restarts => simp [restarts, hnode, hbne, hrestart, QMsgNode.isNONE]
      rw [if_neg hrestart] at hrun
      by_cases hok : t.exit ≠ OK
      · rw [if_pos hok] at hrun
        simp only [Option.some.injEq, Prod.mk.injEq] at hrun
        rw [← hrun.1, ← hrun.2]
        constructor
        case locks => exact taskLocks_waitEvents timeout
        case changes => exact queueChanges_waitEvents timeout
        case offers => simp [offers, hnode, hok, QMsgNode.isNode]
        case restarts => simp [restarts, hnode, hrestart, hok, QMsgNode.isNONE]
      rw [if_neg hok] at hrun
      rw [not_not] at hok
      by_cases hbad : objVerifyNeOK t.verifiedAfter = true
      · rw [if_pos hbad] at hrun
        have hver : t.verifiedAfter = false := by simpa using hbad
        simp only [Option.some.injEq, Prod.mk.injEq] at hrun
        rw [← hrun.1, ← hrun.2]
        constructor
        case locks =>
          have hset :
              TaskLocks [.errnoSet .S_objLib_ID_ERROR, .errnoSet .S_objLib_DELETED] 0 0 := by
            decide
          exact (taskLocks_waitEvents timeout).append hset
        case changes => simp [Event.changesQueue, QMsgNode.changes]
        case offers => simp [offers, hnode, hver, QMsgNode.isNode]
        case restarts => simp [restarts, hnode, hrestart, hver, QMsgNode.isNONE]
      · rw [if_neg hbad] at hrun
        have hver : t.verifiedAfter = true := by simpa using hbad
        simp only [Option.map_eq_some_iff, Prod.mk.injEq] at hrun
        rcases hrun with ⟨⟨tr', r'⟩, hrest, rfl, rfl⟩
        have hgot := ih hrest
        constructor
        case locks => exact (taskLocks_waitEvents timeout).append hgot.locks
        case changes => rw [queueChanges_append, queueChanges_waitEvents, hgot.changes]; rfl
        case offers => simp [offers, hnode, hbne, hok, hver, hgot.offers]
        case restarts =>
          rw [hok] at hrestart
          simp [restarts, hnode, hbne, hrestart, hok, hver, hgot.restarts]

/-- What the loop does and returns. -/
structure NodeGot (q : MsgQueue) (tooLong locks : Bool) (timeout : Nat) (rounds : List Round)
    (tr : List Event) (r : Option Nat) : Prop where
  locks : TaskLocks tr 0 (if r.isNone && locks then 1 else 0)
  changes : queueChanges tr = r.elim [] fun pMsg => [.nodeGet q pMsg]
  found : nodeFound tooLong timeout rounds = r.isSome

theorem nodeLoop_spec {tooLong locks : Bool} {rounds : List Round} {r : Option Nat}
    (hrun : nodeLoop q tooLong locks timeout rounds = some (tr, r)) :
    NodeGot q tooLong locks timeout rounds tr r := by
  induction rounds generalizing tr with
  | nil => simp [nodeLoop] at hrun
  | cons round rounds ih =>
    rw [nodeLoop] at hrun
    by_cases hbad : objVerifyNeOK round.verified = true
    · rw [if_pos hbad] at hrun
      have hver : round.verified = false := by simpa using hbad
      simp only [Option.some.injEq, Prod.mk.injEq] at hrun
      rw [← hrun.1, ← hrun.2]
      constructor
      case locks => cases locks <;> decide
      case changes => simp [Event.changesQueue]
      case found => simp [nodeFound, hver]
    rw [if_neg hbad] at hrun
    have hver : round.verified = true := by simpa using hbad
    by_cases hlong : tooLong = true
    · rw [if_pos hlong] at hrun
      simp only [Option.some.injEq, Prod.mk.injEq] at hrun
      rw [← hrun.1, ← hrun.2]
      constructor
      case locks => cases locks <;> decide
      case changes => simp [Event.changesQueue]
      case found => simp [nodeFound, hlong]
    rw [if_neg hlong] at hrun
    cases hget : qMsgGet q timeout round.turns with
    | none => simp [hget] at hrun
    | some res =>
      rcases res with ⟨get, node⟩
      have hgot := qMsgGet_spec hget
      cases node with
      | node pMsg =>
        simp only [hget, Option.some.injEq, Prod.mk.injEq] at hrun
        rw [← hrun.1, ← hrun.2]
        constructor
        case locks => exact hgot.locks
        case changes => exact hgot.changes
        case found => simp [nodeFound, hver, hlong, hgot.offers, QMsgNode.isNode]
      | NULL timedOut verified =>
        simp only [hget, Option.some.injEq, Prod.mk.injEq] at hrun
        rw [← hrun.1, ← hrun.2]
        have hlocks := (hgot.locks.append (taskLocks_timeoutEvents timedOut verified)).append
          (taskLocks_taskUnlocks locks)
        constructor
        case locks => simpa using hlocks
        case changes => simp [hgot.changes, QMsgNode.changes]
        case found => simp [nodeFound, hgot.offers, hgot.restarts, QMsgNode.isNode, QMsgNode.isNONE]
      | NONE =>
        simp only [hget, Option.map_eq_some_iff, Prod.mk.injEq] at hrun
        rcases hrun with ⟨⟨tr', r'⟩, hrest, rfl, rfl⟩
        have hnext := ih hrest
        constructor
        case locks => simpa using hgot.locks.append hnext.locks
        case changes => simp [hgot.changes, hnext.changes, QMsgNode.changes]
        case found =>
          have hshort : tooLong = false := by simpa using hlong
          have hfound := hnext.found
          rw [hshort] at hfound
          simp [nodeFound, hver, hshort, hgot.offers, hgot.restarts, hfound, QMsgNode.isNode,
            QMsgNode.isNONE]

/-! ## Truthful returns -/

/-- `OK` for a message that has been stored in a free node and queued, `ERROR` for queues that
are as before. -/
structure SendTruthful (nBytes priority : Nat) (tr : List Event) (status : Int) : Prop where
  ok : status = OK ↔ ∃ pMsg, queueChanges tr =
    [.nodeGet .freeQ pMsg, .nodeFill pMsg nBytes, .nodePut .msgQ pMsg priority]
  error : status = ERROR ↔ queueChanges tr = []
  taskLock : TaskLockBalanced tr

/-- A length for one message whose node is on the free queue again, `ERROR` for queues that are
as before. -/
structure ReceiveTruthful (msgLength : Nat → MsgLength) (maxBytes : Nat) (tr : List Event)
    (result : Int) : Prop where
  length : (∃ n : Nat, result = n) ↔ ∃ pMsg, queueChanges tr =
    [.nodeGet .msgQ pMsg, .nodePut .freeQ pMsg 1] ∧
      result = ((min (msgLength pMsg).1 maxBytes : Nat) : Int)
  error : result = ERROR ↔ queueChanges tr = []
  taskLock : TaskLockBalanced tr

theorem qMsgPut_spec (q : MsgQueue) (pNode key : Nat) (uninit : Int) (put : QTurn) :
    queueChanges (qMsgPut q pNode key uninit put).1 = [.nodePut q pNode key] ∧
      TaskLocks (qMsgPut q pNode key uninit put).1 0 0 ∧
      (qMsgPut q pNode key uninit put).2 = if put.kernelState then uninit else OK := by
  unfold qMsgPut
  by_cases hstate : put.kernelState = true
  · rw [if_pos hstate, if_pos hstate]
    exact ⟨by simp [Event.changesQueue], by simp [TaskLocks], rfl⟩
  · rw [if_neg hstate, if_neg hstate]
    split <;> exact ⟨by simp [Event.changesQueue], by simp [TaskLocks], rfl⟩

/-- The send puts its message on the queue in a turn that finds `kernelState` set, and what the
uninitialised `status` holds is not `OK`. -/
def SendDefers (c : Caller) (maxMsgLength nBytes timeout : Nat) (rounds : List Round)
    (put : QTurn) (uninit : Int) : Prop :=
  (c.intContext = true → timeout = WAIT_NONE) ∧
    nodeFound (decide (nBytes > maxMsgLength)) timeout rounds = true ∧
    put.kernelState = true ∧ uninit ≠ OK

theorem msgQSend_truthful_iff {maxMsgLength nBytes priority : Nat} {rounds : List Round}
    {put : QTurn} {uninit : Int}
    (hrun : msgQSend c maxMsgLength nBytes timeout priority rounds put uninit =
      some (tr, result)) :
    SendTruthful nBytes priority tr result ↔
      ¬ SendDefers c maxMsgLength nBytes timeout rounds put uninit := by
  unfold msgQSend at hrun
  by_cases hint : c.intContext ∧ timeout ≠ WAIT_NONE
  · rw [if_pos hint] at hrun
    simp only [Option.some.injEq, Prod.mk.injEq] at hrun
    rw [← hrun.1, ← hrun.2]
    refine iff_of_true ⟨?_, ?_, by decide⟩ ?_
    · simp [Event.changesQueue, OK, ERROR]
    · simp [Event.changesQueue]
    · intro h
      exact hint.2 (h.1 hint.1)
  rw [if_neg hint] at hrun
  dsimp only at hrun
  have hallowed : c.intContext = true → timeout = WAIT_NONE := by
    intro hctx
    by_contra hne
    exact hint ⟨hctx, hne⟩
  have hlock : TaskLocks (if c.intContext then [] else [.taskLock])
      (if c.intContext then 0 else 1) 0 ∧
      queueChanges (if c.intContext then [] else [.taskLock]) = [] := by
    cases c.intContext <;> simp [TaskLocks, Event.changesQueue]
  cases hloop : nodeLoop .freeQ (decide (nBytes > maxMsgLength)) (!c.intContext) timeout rounds with
  | none => simp [hloop] at hrun
  | some res =>
    rcases res with ⟨get, node⟩
    have hgot := nodeLoop_spec hloop
    cases node with
    | none =>
      simp only [hloop, Option.some.injEq, Prod.mk.injEq] at hrun
      rw [← hrun.1, ← hrun.2]
      have hlocks := hlock.1.append hgot.locks
      have hchanges := hgot.changes
      refine iff_of_true ⟨?_, ?_, ?_⟩ ?_
      · simp [hlock.2, hchanges, OK, ERROR]
      · simp [hlock.2, hchanges]
      · apply TaskLocks.balanced (n := if c.intContext then 0 else 1)
        cases hctx : c.intContext <;> simpa [hctx] using hlocks
      · intro h
        have hfound := hgot.found
        rw [h.2.1] at hfound
        exact Bool.false_ne_true hfound.symm
    | some pMsg =>
      simp only [hloop, Option.some.injEq, Prod.mk.injEq] at hrun
      obtain ⟨hput, hputLocks, hstatus⟩ := qMsgPut_spec .msgQ pMsg priority uninit put
      have hchanges : queueChanges tr =
          [.nodeGet .freeQ pMsg, .nodeFill pMsg nBytes, .nodePut .msgQ pMsg priority] := by
        rw [← hrun.1]
        simp [hlock.2, hgot.changes, hput, Event.changesQueue]
      have hbalanced : TaskLockBalanced tr := by
        apply TaskLocks.balanced (n := if c.intContext then 0 else 1)
        have hlocks := (((hlock.1.append hgot.locks).append
          (show TaskLocks [.nodeFill pMsg nBytes] 0 0 by simp [TaskLocks])).append
          hputLocks).append (taskLocks_taskUnlocks (!c.intContext))
        rw [← hrun.1]
        cases hctx : c.intContext <;> simpa [hctx] using hlocks
      have hfound := hgot.found
      rw [Option.isSome_some] at hfound
      have hresult : result = OK ↔ ¬ (put.kernelState = true ∧ uninit ≠ OK) := by
        rw [← hrun.2, hstatus]
        cases put.kernelState <;> by_cases hok : uninit = OK <;> simp [hok, OK, ERROR]
      constructor
      · intro htrue hdefers
        exact (hresult.mp (htrue.ok.mpr ⟨pMsg, hchanges⟩)) hdefers.2.2
      · intro hdefers
        have hok : result = OK := by
          apply hresult.mpr
          intro hgarbage
          exact hdefers ⟨hallowed, hfound, hgarbage⟩
        refine ⟨iff_of_true hok ⟨pMsg, hchanges⟩, ?_, hbalanced⟩
        rw [hok, hchanges]
        simp [OK, ERROR]

theorem msgQReceive_truthful_iff {msgLength : Nat → MsgLength} {maxBytes : Nat}
    {rounds : List Round} {put : QTurn} {uninit : Int}
    (hrun : msgQReceive c msgLength maxBytes timeout rounds put uninit = some (tr, result)) :
    ReceiveTruthful msgLength maxBytes tr result ↔ ¬ c.intContext = true := by
  unfold msgQReceive at hrun
  by_cases hint : c.intRestrict = true
  · rw [if_pos hint] at hrun
    simp only [Option.some.injEq, Prod.mk.injEq] at hrun
    rw [← hrun.1]
    constructor
    · intro h
      exact absurd h.taskLock (by decide)
    · intro h
      exact absurd hint h
  rw [if_neg hint] at hrun
  have hcontext : ¬ c.intContext = true := hint
  cases hloop : nodeLoop .msgQ false true timeout rounds with
  | none => simp [hloop] at hrun
  | some res =>
    rcases res with ⟨get, node⟩
    have hgot := nodeLoop_spec hloop
    have hlock : TaskLocks [.taskLock] 1 0 := by decide
    cases node with
    | none =>
      simp only [hloop, Option.some.injEq, Prod.mk.injEq] at hrun
      rw [← hrun.1, ← hrun.2]
      have hchanges := hgot.changes
      refine iff_of_true ⟨?_, ?_, ?_⟩ hcontext
      · constructor
        · rintro ⟨n, hn⟩
          simp only [ERROR] at hn
          omega
        · rintro ⟨pMsg, hsome, -⟩
          simp [hchanges, Event.changesQueue] at hsome
      · simp [hchanges, Event.changesQueue]
      · exact TaskLocks.balanced (n := 1) (by simpa using hlock.append hgot.locks)
    | some pMsg =>
      simp only [hloop, Option.some.injEq, Prod.mk.injEq] at hrun
      obtain ⟨hput, hputLocks, -⟩ := qMsgPut_spec .freeQ pMsg 1 uninit put
      have hchanges : queueChanges tr = [.nodeGet .msgQ pMsg, .nodePut .freeQ pMsg 1] := by
        rw [← hrun.1]
        simp [hgot.changes, hput, Event.changesQueue]
      have hbalanced : TaskLockBalanced tr := by
        apply TaskLocks.balanced (n := 1)
        have hlocks := ((hlock.append hgot.locks).append hputLocks).append
          (show TaskLocks [.taskUnlock] 0 1 by decide)
        rw [← hrun.1]
        simpa using hlocks
      refine iff_of_true ⟨?_, ?_, hbalanced⟩ hcontext
      · exact iff_of_true ⟨_, hrun.2.symm⟩ ⟨pMsg, hchanges, hrun.2.symm⟩
      · rw [hchanges, ← hrun.2]
        simp only [ERROR, List.cons_ne_nil, iff_false]
        omega

/-! ## Both calls together -/

/-- A call, with its arguments and what it finds. -/
inductive MsgQCall where
  | send (maxMsgLength nBytes timeout priority : Nat) (rounds : List Round) (put : QTurn)
    (uninit : Int)
  | receive (msgLength : Nat → MsgLength) (maxBytes timeout : Nat) (rounds : List Round)
    (put : QTurn) (uninit : Int)

def MsgQCall.run (c : Caller) : MsgQCall → Option (List Event × Int)
  | .send maxMsgLength nBytes timeout priority rounds put uninit =>
    msgQSend c maxMsgLength nBytes timeout priority rounds put uninit
  | .receive msgLength maxBytes timeout rounds put uninit =>
    msgQReceive c msgLength maxBytes timeout rounds put uninit

def MsgQCall.Truthful : MsgQCall → List Event → Int → Prop
  | .send _ nBytes _ priority _ _ _ => SendTruthful nBytes priority
  | .receive msgLength maxBytes _ _ _ _ => ReceiveTruthful msgLength maxBytes

/-- A receive in an interrupt, or a send that finds `kernelState` set and returns what happens to
be in `status`. -/
def MsgQCall.Fails (c : Caller) : MsgQCall → Prop
  | .send maxMsgLength nBytes timeout _ rounds put uninit =>
    SendDefers c maxMsgLength nBytes timeout rounds put uninit
  | .receive _ _ _ _ _ _ => c.intContext = true

theorem MsgQCall.truthful_iff (c : Caller) (call : MsgQCall) (tr : List Event) (result : Int)
    (hrun : call.run c = some (tr, result)) : call.Truthful tr result ↔ ¬ call.Fails c := by
  cases call with
  | send => exact msgQSend_truthful_iff hrun
  | receive => exact msgQReceive_truthful_iff hrun

/-- A queue whose first free node is node 7, seen from an interrupt of the kernel. -/
def freeTurn : QTurn := ⟨some 7, false, true, OK, true, false⟩

theorem MsgQCall.truthful_iff_interrupt :
    (MsgQCall.send 16 4 WAIT_NONE 0 [⟨true, [freeTurn]⟩] freeTurn OK).Truthful
        [.intLock, .nodeGet .freeQ 7, .intUnlock, .nodeFill 7 4, .intLock, .nodePut .msgQ 7 0,
          .intUnlock, .workQAdd2] OK ↔
      ¬ (MsgQCall.send 16 4 WAIT_NONE 0 [⟨true, [freeTurn]⟩] freeTurn OK).Fails ⟨1, true⟩ :=
  MsgQCall.truthful_iff ⟨1, true⟩ (.send 16 4 WAIT_NONE 0 [⟨true, [freeTurn]⟩] freeTurn OK) _ _ rfl

/-- An interrupt of the kernel sends a message: it is queued, and the call may return `ERROR`. -/
theorem MsgQCall.not_truthful :
    ¬ ∀ (c : Caller) (call : MsgQCall) (tr : List Event) (result : Int),
      call.run c = some (tr, result) → call.Truthful tr result := by
  intro h
  have htrue := h ⟨1, true⟩ (.send 16 4 WAIT_NONE 0 [⟨true, [freeTurn]⟩] freeTurn 5) _ _ rfl
  exact absurd (htrue.error.mp rfl) (by decide)

end Vmx.CallTrace
