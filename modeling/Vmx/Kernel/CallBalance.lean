import Vmx.Kernel.CallTrace

/-!
# The interrupt lock over a blocking call

Every path of the eight calls releases the interrupt lock as often as it takes it and enters
`vmxExit` only with `kernelState` set, except one: a `semMTake` that must not wait for a mutex
that another task owns (`Call.wellBehaved_iff`).
-/

namespace Vmx.CallTrace

variable {c : Caller} {timeout : Nat} {tr : List Event} {result : Int}

/-! ## The take calls -/

/-- A call that does not wait has left the lock before it returns. -/
structure Releases (tryTake : SemTurn → Option (List Event)) (unavailable : List Event) :
    Prop where
  taken : ∀ t taken, tryTake t = some taken → WellBehaved (.intLock :: (taken ++ [.intUnlock]))
  unavailable : WellBehaved (.intLock :: unavailable)

theorem takeLoop_wellBehaved {tryTake : SemTurn → Option (List Event)}
    {unavailable : List Event} (h : Releases tryTake unavailable) {turns : List SemTurn}
    (hrun : takeLoop tryTake unavailable timeout turns = some (tr, result)) :
    WellBehaved tr := by
  induction turns generalizing tr result with
  | nil => simp [takeLoop] at hrun
  | cons t turns ih =>
    rw [takeLoop] at hrun
    by_cases hbad : objVerifyNeOK t.verified = true
    · rw [if_pos hbad] at hrun
      simp only [Option.some.injEq, Prod.mk.injEq] at hrun
      rw [← hrun.1]
      exact wellBehaved_badObject
    · rw [if_neg hbad] at hrun
      cases htake : tryTake t with
      | some taken =>
        simp only [htake, Option.some.injEq, Prod.mk.injEq] at hrun
        rw [← hrun.1]
        exact h.taken t taken htake
      | none =>
        simp only [htake] at hrun
        by_cases hnone : timeout = WAIT_NONE
        · rw [if_pos hnone] at hrun
          simp only [Option.some.injEq, Prod.mk.injEq] at hrun
          rw [← hrun.1]
          exact h.unavailable
        · rw [if_neg hnone] at hrun
          by_cases hrestart : t.exit = SIG_RESTART
          · rw [if_pos hrestart] at hrun
            simp only [Option.map_eq_some_iff, Prod.mk.injEq] at hrun
            rcases hrun with ⟨⟨tr', result'⟩, hrest, rfl, -⟩
            rw [wellBehaved_wait_append]
            exact ih hrest
          · rw [if_neg hrestart] at hrun
            simp only [Option.some.injEq, Prod.mk.injEq] at hrun
            rw [← hrun.1]
            exact wellBehaved_waitEvents timeout

/-- A loop that may wait does not come to `unavailable`. -/
theorem takeLoop_congr_unavailable {tryTake : SemTurn → Option (List Event)}
    {unavailable unavailable' : List Event} (hwait : timeout ≠ WAIT_NONE)
    (turns : List SemTurn) :
    takeLoop tryTake unavailable timeout turns = takeLoop tryTake unavailable' timeout turns := by
  induction turns with
  | nil => rfl
  | cons t turns ih =>
    rw [takeLoop, takeLoop, ih]
    simp only [if_neg hwait]

theorem wellBehaved_notIsrCallable : WellBehaved notIsrCallable.1 := by decide

/-- A take call that is refused in an interrupt, or else runs a loop that leaves balanced. -/
theorem guarded_takeLoop_wellBehaved {tryTake : SemTurn → Option (List Event)}
    {unavailable : List Event} (h : Releases tryTake unavailable) {turns : List SemTurn}
    (hrun : (if c.intRestrict then some notIsrCallable
      else takeLoop tryTake unavailable timeout turns) = some (tr, result)) :
    WellBehaved tr := by
  by_cases hint : c.intRestrict = true
  · rw [if_pos hint] at hrun
    simp only [Option.some.injEq] at hrun
    have htr : tr = notIsrCallable.1 := by rw [hrun]
    rw [htr]
    exact wellBehaved_notIsrCallable
  · rw [if_neg hint] at hrun
    exact takeLoop_wellBehaved h hrun

theorem semBTake_wellBehaved {turns : List SemTurn}
    (hrun : semBTake c timeout turns = some (tr, result)) : WellBehaved tr := by
  unfold semBTake at hrun
  refine guarded_takeLoop_wellBehaved ⟨?_, by decide⟩ hrun
  intro t taken htake
  simp only [Option.ite_none_right_eq_some, Option.some.injEq] at htake
  rw [← htake.2]
  simp [WellBehaved, LockBalanced, exitsInKernel]

theorem semCTake_wellBehaved {turns : List SemTurn}
    (hrun : semCTake c timeout turns = some (tr, result)) : WellBehaved tr := by
  unfold semCTake at hrun
  refine guarded_takeLoop_wellBehaved ⟨?_, by decide⟩ hrun
  intro t taken htake
  simp only [Option.ite_none_right_eq_some, Option.some.injEq] at htake
  rw [← htake.2]
  simp [WellBehaved, LockBalanced, exitsInKernel]

theorem semMTryTake_wellBehaved {t : SemTurn} {taken : List Event}
    (htake : semMTryTake c t = some taken) :
    WellBehaved (.intLock :: (taken ++ [.intUnlock])) := by
  unfold semMTryTake at htake
  cases howner : t.owner with
  | none =>
    simp only [howner, Option.some.injEq] at htake
    rw [← htake]
    cases t.deleteSafe <;> simp [WellBehaved, LockBalanced, exitsInKernel]
  | some pOwner =>
    simp only [howner, Option.ite_none_right_eq_some, Option.some.injEq] at htake
    rw [← htake.2]
    simp [WellBehaved, LockBalanced, exitsInKernel]

/-- The mutex is owned by another task when the caller, which must not wait, looks at it. -/
def SemTurn.Unavailable (c : Caller) (t : SemTurn) : Prop :=
  t.verified = true ∧ t.owner ≠ none ∧ t.owner ≠ some c.taskIdCurrent

instance (c : Caller) (t : SemTurn) : Decidable (t.Unavailable c) :=
  inferInstanceAs (Decidable (_ ∧ _ ∧ _))

/-- `semMTake` keeps the interrupts locked when it does not wait for the owner. -/
def MTakeUnavailable (c : Caller) (timeout : Nat) (turns : List SemTurn) : Prop :=
  c.intContext = false ∧ timeout = WAIT_NONE ∧ ∃ t ∈ turns.head?, t.Unavailable c

theorem semMTryTake_eq_none {t : SemTurn} :
    semMTryTake c t = none ↔ t.owner ≠ none ∧ t.owner ≠ some c.taskIdCurrent := by
  unfold semMTryTake
  cases t.owner with
  | none => simp
  | some pOwner => simp [eq_comm]

theorem semMTake_wellBehaved_iff {turns : List SemTurn}
    (hrun : semMTake c timeout turns = some (tr, result)) :
    WellBehaved tr ↔ ¬ MTakeUnavailable c timeout turns := by
  unfold semMTake at hrun
  by_cases hint : c.intRestrict = true
  · rw [if_pos hint] at hrun
    simp only [Option.some.injEq] at hrun
    have htr : tr = notIsrCallable.1 := by rw [hrun]
    rw [htr]
    constructor
    · intro _ h
      have hfalse : c.intContext = true := hint
      rw [h.1] at hfalse
      exact Bool.false_ne_true hfalse
    · intro _
      exact wellBehaved_notIsrCallable
  · rw [if_neg hint] at hrun
    by_cases hnone : timeout = WAIT_NONE
    · cases turns with
      | nil => simp [takeLoop] at hrun
      | cons t turns =>
        rw [takeLoop] at hrun
        have hcontext : c.intContext = false := by
          simpa [Caller.intRestrict] using hint
        have hiff : MTakeUnavailable c timeout (t :: turns) ↔ t.Unavailable c := by
          simp [MTakeUnavailable, hcontext, hnone]
        rw [hiff]
        unfold SemTurn.Unavailable
        by_cases hbad : objVerifyNeOK t.verified = true
        · rw [if_pos hbad] at hrun
          simp only [Option.some.injEq, Prod.mk.injEq] at hrun
          have hver : t.verified = false := by simpa using hbad
          rw [← hrun.1, hver]
          simp [wellBehaved_badObject]
        · rw [if_neg hbad] at hrun
          have hver : t.verified = true := by simpa using hbad
          cases htake : semMTryTake c t with
          | some taken =>
            simp only [htake, Option.some.injEq, Prod.mk.injEq] at hrun
            rw [← hrun.1]
            constructor
            · intro _ h
              rw [semMTryTake_eq_none.mpr h.2] at htake
              cases htake
            · intro _
              exact semMTryTake_wellBehaved htake
          | none =>
            simp only [htake, if_pos hnone, Option.some.injEq, Prod.mk.injEq] at hrun
            rw [← hrun.1]
            constructor
            · intro h
              exact absurd h (by decide)
            · intro h
              exact absurd ⟨hver, semMTryTake_eq_none.mp htake⟩ h
    · -- with a timeout the loop never comes to the missing `INT_UNLOCK`
      rw [@takeLoop_congr_unavailable timeout _ _ [.intUnlock, .errnoSet .S_objLib_UNAVAILABLE]
        hnone] at hrun
      constructor
      · intro _ h
        exact hnone h.2.1
      · intro _
        refine takeLoop_wellBehaved ⟨?_, by decide⟩ hrun
        intro t taken htake
        exact semMTryTake_wellBehaved htake

/-! ## The give calls -/

theorem semBGive_wellBehaved (t : SemTurn) : WellBehaved (semBGive t).1 := by
  unfold semBGive
  split
  · exact wellBehaved_badObject
  · split <;> simp [WellBehaved, LockBalanced, exitsInKernel]

theorem semCGive_wellBehaved (t : SemTurn) : WellBehaved (semCGive t).1 := by
  unfold semCGive
  split
  · exact wellBehaved_badObject
  · split <;> simp [WellBehaved, LockBalanced, exitsInKernel]

theorem semMGive_wellBehaved (c : Caller) (t : SemTurn) : WellBehaved (semMGive c t).1 := by
  unfold semMGive
  split
  · exact wellBehaved_notIsrCallable
  split
  · exact wellBehaved_badObject
  split
  · exact by decide
  split
  · simp [WellBehaved, LockBalanced, exitsInKernel]
  split
  · cases hsafe : t.deleteSafe <;>
      simp [WellBehaved, LockBalanced, exitsInKernel, safeCountDown, hsafe]
  · unfold semMKernGive
    cases hsafe : t.deleteSafe <;> cases hfirst : t.first <;> cases hflush : safeQFlush c t <;>
      simp [WellBehaved, LockBalanced, exitsInKernel, safeCountDown, hsafe]

/-! ## The queue calls -/

theorem qMsgGet_wellBehaved {q : MsgQueue} {turns : List QTurn} {r : QMsgNode}
    (hrun : qMsgGet q timeout turns = some (tr, r)) : WellBehaved tr := by
  induction turns generalizing tr with
  | nil => simp [qMsgGet] at hrun
  | cons t turns ih =>
    rw [qMsgGet] at hrun
    cases hnode : t.node with
    | some pNode =>
      simp only [hnode, Option.some.injEq, Prod.mk.injEq] at hrun
      rw [← hrun.1]
      simp [WellBehaved, LockBalanced, exitsInKernel]
    | none =>
      simp only [hnode] at hrun
      split at hrun
      · simp only [Option.some.injEq, Prod.mk.injEq] at hrun
        rw [← hrun.1]
        decide
      split at hrun
      · simp only [Option.some.injEq, Prod.mk.injEq] at hrun
        rw [← hrun.1]
        exact wellBehaved_waitEvents timeout
      split at hrun
      · simp only [Option.some.injEq, Prod.mk.injEq] at hrun
        rw [← hrun.1]
        exact wellBehaved_waitEvents timeout
      split at hrun
      · simp only [Option.some.injEq, Prod.mk.injEq] at hrun
        rw [← hrun.1, wellBehaved_wait_append]
        decide
      · simp only [Option.map_eq_some_iff, Prod.mk.injEq] at hrun
        rcases hrun with ⟨⟨tr', r'⟩, hrest, rfl, rfl⟩
        rw [wellBehaved_wait_append]
        exact ih hrest

theorem qMsgPut_wellBehaved (q : MsgQueue) (pNode key : Nat) (uninit : Int) (t : QTurn) :
    WellBehaved (qMsgPut q pNode key uninit t).1 := by
  unfold qMsgPut
  split
  · simp [WellBehaved, LockBalanced, exitsInKernel]
  · split <;> simp [WellBehaved, LockBalanced, exitsInKernel]

/-! ## The eight calls together -/

/-- A call, with its arguments and what it finds. -/
inductive Call where
  | semBTake (timeout : Nat) (turns : List SemTurn)
  | semMTake (timeout : Nat) (turns : List SemTurn)
  | semCTake (timeout : Nat) (turns : List SemTurn)
  | semBGive (t : SemTurn)
  | semMGive (t : SemTurn)
  | semCGive (t : SemTurn)
  | qMsgGet (q : MsgQueue) (timeout : Nat) (turns : List QTurn)
  | qMsgPut (q : MsgQueue) (pNode key : Nat) (uninit : Int) (t : QTurn)

/-- The effects of a call that returns. -/
def Call.effects (c : Caller) : Call → Option (List Event)
  | .semBTake timeout turns => (CallTrace.semBTake c timeout turns).map Prod.fst
  | .semMTake timeout turns => (CallTrace.semMTake c timeout turns).map Prod.fst
  | .semCTake timeout turns => (CallTrace.semCTake c timeout turns).map Prod.fst
  | .semBGive t => some (CallTrace.semBGive t).1
  | .semMGive t => some (CallTrace.semMGive c t).1
  | .semCGive t => some (CallTrace.semCGive t).1
  | .qMsgGet q timeout turns => (CallTrace.qMsgGet q timeout turns).map Prod.fst
  | .qMsgPut q pNode key uninit t => some (CallTrace.qMsgPut q pNode key uninit t).1

/-- The call is a `semMTake` of a task that must not wait for the owner of the mutex. -/
def Call.TakesOwned (c : Caller) : Call → Prop
  | .semMTake timeout turns => MTakeUnavailable c timeout turns
  | _ => False

theorem Call.wellBehaved_iff (c : Caller) (call : Call) (tr : List Event)
    (hrun : call.effects c = some tr) : WellBehaved tr ↔ ¬ call.TakesOwned c := by
  cases call with
  | semMTake timeout turns =>
    simp only [Call.effects, Option.map_eq_some_iff] at hrun
    rcases hrun with ⟨⟨tr', result⟩, hrun, rfl⟩
    exact semMTake_wellBehaved_iff hrun
  | semBTake timeout turns =>
    simp only [Call.effects, Option.map_eq_some_iff] at hrun
    rcases hrun with ⟨⟨tr', result⟩, hrun, rfl⟩
    exact iff_of_true (semBTake_wellBehaved hrun) not_false
  | semCTake timeout turns =>
    simp only [Call.effects, Option.map_eq_some_iff] at hrun
    rcases hrun with ⟨⟨tr', result⟩, hrun, rfl⟩
    exact iff_of_true (semCTake_wellBehaved hrun) not_false
  | qMsgGet q timeout turns =>
    simp only [Call.effects, Option.map_eq_some_iff] at hrun
    rcases hrun with ⟨⟨tr', result⟩, hrun, rfl⟩
    exact iff_of_true (qMsgGet_wellBehaved hrun) not_false
  | semBGive t =>
    simp only [Call.effects, Option.some.injEq] at hrun
    rw [← hrun]
    exact iff_of_true (semBGive_wellBehaved t) not_false
  | semMGive t =>
    simp only [Call.effects, Option.some.injEq] at hrun
    rw [← hrun]
    exact iff_of_true (semMGive_wellBehaved c t) not_false
  | semCGive t =>
    simp only [Call.effects, Option.some.injEq] at hrun
    rw [← hrun]
    exact iff_of_true (semCGive_wellBehaved t) not_false
  | qMsgPut q pNode key uninit t =>
    simp only [Call.effects, Option.some.injEq] at hrun
    rw [← hrun]
    exact iff_of_true (qMsgPut_wellBehaved q pNode key uninit t) not_false

/-- A mutex that task 2 owns, in a turn of task 1. -/
def ownedTurn : SemTurn where
  verified := true
  owner := some 2
  count := 0
  recurse := 0
  first := none
  deleteSafe := false
  safeCount := fun _ => 0
  safetyWaiter := false
  exit := OK

theorem Call.wellBehaved_iff_wait :
    WellBehaved (waitEvents 5 ++ [.intLock, .ownerSet (some 1), .intUnlock]) ↔
      ¬ (Call.semMTake 5 [{ ownedTurn with exit := SIG_RESTART },
        { ownedTurn with owner := none }]).TakesOwned ⟨1, false⟩ :=
  Call.wellBehaved_iff ⟨1, false⟩
    (.semMTake 5 [{ ownedTurn with exit := SIG_RESTART }, { ownedTurn with owner := none }]) _ rfl

/-- Task 1 asks for a mutex of task 2 without waiting and returns with the interrupts locked. -/
theorem Call.not_wellBehaved :
    ¬ ∀ (c : Caller) (call : Call) (tr : List Event), call.effects c = some tr →
      WellBehaved tr := by
  intro h
  have hrun := h ⟨1, false⟩ (.semMTake WAIT_NONE [ownedTurn]) _ rfl
  exact absurd hrun (by decide)

end Vmx.CallTrace
