import Vmx.Kernel.TaskDestroy

/-!
# Delete safety of every call

A call on another task waits with effects that neither act on the task nor touch its caller, until
its turns decide (`destroyLoop_eq`).  What follows after that is a fixed list of effects.
-/

namespace Vmx.TaskDestroy

open Lib Util

variable {self tcbId : TaskId} {own : Safety} {tr : List Event}

attribute [local grind =] flushEvents deleteEvents taskDestroy taskRestart destroySelf taskTcb

/-! ## The loop -/

/-- An effect of a call before it has selected the task. -/
def Event.waiting (tcbId : TaskId) (force : Bool) : Event → Bool
  | .errnoSet _ => true
  | .sigBlock _ => true
  | .safetyQPut _ _ => true
  | .unprotect t => force && t = tcbId
  | .safetyQFlush t => force && t = tcbId
  | _ => false

/-- The call waits, and then does what its turns have decided. -/
theorem destroyLoop_eq (sigTimeoutRecalc : Nat → Nat) (tcbId : TaskId) (freeStack force : Bool)
    (fin : Final) (turns : List Turn) : ∀ (timeout : Nat) (mask : Bool), ∃ pre : List Event,
    (∀ e ∈ pre, e.waiting tcbId force = true) ∧
      destroyLoop sigTimeoutRecalc tcbId freeStack force fin timeout mask turns =
        match verdict force turns with
        | none => (pre, .waits)
        | some false => (pre, .returns ERROR)
        | some true => (pre ++ .selected tcbId 0 :: deleteEvents tcbId false freeStack fin ++
            [.taskUnlock, .taskUnsafe], .returns OK) := by
  induction turns with
  | nil =>
    intro timeout mask
    refine ⟨[], ?_, rfl⟩
    intro e he
    cases he
  | cons t turns ih =>
    intro timeout mask
    rw [destroyLoop, verdict]
    have hstart : ∀ e ∈ (if mask && t.signals then [Event.sigBlock tcbId] else []),
        e.waiting tcbId force = true := by
      intro e he
      split at he
      · obtain rfl : e = .sigBlock tcbId := by simpa using he
        rfl
      · cases he
    generalize (if mask && t.signals then [Event.sigBlock tcbId] else []) = start at hstart ⊢
    by_cases hver : t.verified = false
    · rw [if_pos hver, if_pos hver]
      refine ⟨[.errnoSet .S_objLib_ID_ERROR], ?_, rfl⟩
      intro e he
      obtain rfl : e = .errnoSet .S_objLib_ID_ERROR := by simpa using he
      rfl
    rw [if_neg hver, if_neg hver]
    by_cases hsafe : t.safeOrLocked = true
    swap
    · -- nothing protects the task, so that its safe count is 0
      have hzero : t.safety.safeCount = 0 := by
        unfold Turn.safeOrLocked at hsafe
        simp only [Bool.or_eq_true, not_or, decide_eq_true_eq] at hsafe
        have hle := UInt32.not_lt.mp hsafe.1
        exact UInt32.le_zero_iff.mp hle
      simp only [if_neg hsafe, hzero]
      exact ⟨start, hstart, rfl⟩
    have hmore : ∀ (more : List Event) (timeout : Nat) (mask : Bool),
        (∀ e ∈ more, e.waiting tcbId force = true) → ∃ pre : List Event,
        (∀ e ∈ pre, e.waiting tcbId force = true) ∧
        (start ++ more ++ (destroyLoop sigTimeoutRecalc tcbId freeStack force fin timeout mask
            turns).1,
          (destroyLoop sigTimeoutRecalc tcbId freeStack force fin timeout mask turns).2) =
        match verdict force turns with
        | none => (pre, .waits)
        | some false => (pre, .returns ERROR)
        | some true => (pre ++ .selected tcbId 0 :: deleteEvents tcbId false freeStack fin ++
            [.taskUnlock, .taskUnsafe], .returns OK) := by
      intro more timeout mask hmore
      obtain ⟨pre, hpre, heq⟩ := ih timeout mask
      refine ⟨start ++ more ++ pre, ?_, ?_⟩
      · intro e he
        rcases List.mem_append.mp he with he | he
        · rcases List.mem_append.mp he with he | he
          · exact hstart e he
          · exact hmore e he
        · exact hpre e he
      · rw [heq]
        cases hv : verdict force turns with
        | none => rfl
        | some b => cases b <;> simp
    have hput : ∀ e ∈ [Event.safetyQPut tcbId timeout], e.waiting tcbId force = true := by
      intro e he
      obtain rfl : e = .safetyQPut tcbId timeout := by simpa using he
      rfl
    rw [if_pos hsafe]
    dsimp only
    rw [if_pos hsafe]
    by_cases hforce : force = true
    · rw [if_pos hforce, if_pos (Or.inl hforce)]
      apply hmore
      intro e he
      rcases List.mem_cons.mp he with he | he
      · rw [he, hforce]
        simp [Event.waiting]
      · unfold flushEvents at he
        split at he
        · cases he
        · obtain rfl : e = .safetyQFlush tcbId := by simpa using he
          simp [Event.waiting, hforce]
    rw [if_neg hforce]
    by_cases hok : t.putOk = false
    · rw [if_pos hok, if_neg (by simp [hforce, hok])]
      refine ⟨_, ?_, rfl⟩
      intro e he
      rcases List.mem_append.mp he with he | he
      · exact hstart e he
      rcases List.mem_cons.mp he with he | he
      · exact hput e (by rw [he]; exact List.mem_cons_self)
      · obtain rfl : e = .errnoSet .S_taskLib_INVALID_TIMEOUT := by simpa using he
        rfl
    rw [if_neg hok]
    have hok' : t.putOk = true := by simpa using hok
    by_cases hrestart : t.exit = SIG_RESTART
    · rw [if_pos hrestart, if_pos (Or.inr ⟨hok', Or.inl hrestart⟩)]
      have hnext := hmore [.safetyQPut tcbId timeout] (sigTimeoutRecalc timeout) true hput
      rwa [List.append_assoc] at hnext
    rw [if_neg hrestart]
    by_cases herror : t.exit = ERROR
    · have hno : ¬ (force = true ∨ t.putOk = true ∧ (t.exit = SIG_RESTART ∨ t.exit ≠ ERROR)) := by
        rintro (h | ⟨-, h | h⟩)
        · exact hforce h
        · exact hrestart h
        · exact h herror
      rw [if_pos herror, if_neg hno]
      refine ⟨_, ?_, rfl⟩
      intro e he
      rcases List.mem_append.mp he with he | he
      · exact hstart e he
      · exact hput e he
    · rw [if_neg herror, if_pos (Or.inr ⟨hok', Or.inr herror⟩)]
      have hnext := hmore [.safetyQPut tcbId timeout] timeout false hput
      rwa [List.append_assoc] at hnext

/-! ## The caller -/

theorem after_append (tr' : List Event) :
    own.after self (tr ++ tr') = (own.after self tr).after self tr' := List.foldl_append

theorem safeCount_taskUnsafe (s : Safety) : (s.apply self .taskUnsafe).safeCount =
    if 0 < s.safeCount then s.safeCount - 1 else s.safeCount :=
  apply_ite Safety.safeCount _ _ _

theorem safeCount_taskUnlock (s : Safety) :
    (s.apply self .taskUnlock).safeCount = s.safeCount :=
  (apply_ite Safety.safeCount _ _ _).trans (ite_self _)

theorem lockCount_taskUnsafe (s : Safety) :
    (s.apply self .taskUnsafe).lockCount = s.lockCount :=
  (apply_ite Safety.lockCount _ _ _).trans (ite_self _)

theorem lockCount_taskUnlock (s : Safety) : (s.apply self .taskUnlock).lockCount =
    if 0 < s.lockCount then s.lockCount - 1 else s.lockCount :=
  apply_ite Safety.lockCount _ _ _

/-- Waiting does not touch the caller. -/
theorem after_waiting {force : Bool} (hne : tcbId ≠ self)
    (h : ∀ e ∈ tr, e.waiting tcbId force = true) : own.after self tr = own := by
  induction tr with
  | nil => rfl
  | cons e tr ih =>
    have he : own.apply self e = own := by
      have hwait := h e List.mem_cons_self
      cases e with
      | unprotect t =>
        simp only [Event.waiting, Bool.and_eq_true, decide_eq_true_eq] at hwait
        rw [hwait.2]
        exact if_neg hne
      | safetyQFlush t =>
        simp only [Event.waiting, Bool.and_eq_true, decide_eq_true_eq] at hwait
        rw [hwait.2]
        exact if_neg hne
      | errnoSet e => rfl
      | sigBlock t => rfl
      | safetyQPut t timeout => rfl
      | _ => simp [Event.waiting] at hwait
    show (own.apply self e).after self tr = own
    rw [he]
    exact ih fun e he => h e (List.mem_cons_of_mem _ he)

/-- The caller of a deletion is safe and locked in it. -/
def Safety.inDestroy (self : TaskId) (own : Safety) : Safety :=
  (((own.apply self .taskSafe).apply self .taskLock).apply self .taskUnlock).apply self .taskUnsafe

theorem after_delete (hne : tcbId ≠ self) (freeStack : Bool) (fin : Final) :
    own.after self (.selected tcbId 0 :: deleteEvents tcbId false freeStack fin ++
      [.taskUnlock, .taskUnsafe]) = own.inDestroy self := by
  have hup : ∀ s : Safety, s.apply self (.safeCountUp tcbId) = s := fun s => if_neg hne
  have hflush : ∀ s : Safety, s.after self (flushEvents tcbId fin.safetyQ) = s := by
    intro s
    unfold flushEvents
    split
    · rfl
    · exact if_neg hne
  have hfree : ∀ s : Safety, s.after self
      (if freeStack && fin.deallocStack then [.stackFree tcbId] else []) = s := by
    intro s
    split <;> rfl
  unfold deleteEvents
  rw [after_append, ← List.cons_append, after_append, hflush, ← List.cons_append, after_append,
    ← List.cons_append, after_append, hfree]
  show ((((((own.apply self .taskSafe).apply self (.safeCountUp tcbId)).apply self
    .taskLock).apply self .taskUnlock).apply self .taskUnsafe)) = _
  rw [hup]
  rfl

/-- A counter that goes up and down again is as before, unless it wraps. -/
theorem up_down (n : UInt32) :
    (if 0 < n + 1 then n + 1 - 1 else n + 1) = if n = 4294967295 then 0 else n := by
  by_cases hmax : n = 4294967295
  · rw [hmax]
    decide
  · have hlt := n.toNat_lt
    have hne : n.toNat ≠ 4294967295 := fun h => hmax (UInt32.toNat_inj.mp h)
    have hadd : (n + 1).toNat = (n.toNat + 1) % 4294967296 := UInt32.toNat_add n 1
    have hpos : 0 < n + 1 := by
      rw [UInt32.lt_iff_toNat_lt, hadd]
      show 0 < (n.toNat + 1) % 4294967296
      omega
    rw [if_pos hpos, if_neg hmax, UInt32.add_sub_cancel]

theorem safeCount_inDestroy (own : Safety) :
    (own.inDestroy self).safeCount = if own.safeCount = 4294967295 then 0 else own.safeCount := by
  rw [← up_down]
  unfold Safety.inDestroy
  rw [safeCount_taskUnsafe, safeCount_taskUnlock]
  rfl

theorem lockCount_inDestroy (own : Safety) :
    (own.inDestroy self).lockCount = if own.lockCount = 4294967295 then 0 else own.lockCount := by
  rw [← up_down]
  unfold Safety.inDestroy
  rw [lockCount_taskUnsafe, lockCount_taskUnlock]
  rfl

/-! ## The other task -/

theorem waiting_isAct {force : Bool} {e : Event} (h : e.waiting tcbId force = true) :
    e.isAct = false := by
  cases e <;> first | rfl | simp [Event.waiting] at h

theorem filter_waiting {force : Bool} (h : ∀ e ∈ tr, e.waiting tcbId force = true) :
    tr.filter Event.isAct = [] := by
  rw [List.filter_eq_nil_iff]
  intro e he
  simp [waiting_isAct (h e he)]

theorem filter_delete (freeStack : Bool) (fin : Final) :
    List.filter Event.isAct (.selected tcbId 0 :: deleteEvents tcbId false freeStack fin ++
      [.taskUnlock, .taskUnsafe]) = deletion tcbId := by
  unfold deleteEvents flushEvents
  cases freeStack && fin.deallocStack <;> by_cases hq : fin.safetyQ = [] <;>
    simp only [hq, if_true, if_false, Bool.false_eq_true] <;> rfl

theorem unprotect_not_mem_delete (freeStack : Bool) (fin : Final) :
    Event.unprotect tcbId ∉ .selected tcbId 0 :: deleteEvents tcbId false freeStack fin ++
      [.taskUnlock, .taskUnsafe] := by
  unfold deleteEvents flushEvents
  cases freeStack && fin.deallocStack <;> by_cases hq : fin.safetyQ = [] <;> simp [hq]

/-- The flush comes with the deletion, whatever is done before and after it. -/
theorem wakesAll_delete (pre post : List Event) (isSelf freeStack : Bool) (fin : Final) :
    WakesAll tcbId fin (pre ++ deleteEvents tcbId isSelf freeStack fin ++ post) := by
  intro _ hq
  have hflush : flushEvents tcbId fin.safetyQ = [.safetyQFlush tcbId] := if_neg hq
  unfold deleteEvents
  rw [hflush]
  refine ⟨pre ++ ([.taskSafe, .safeCountUp tcbId] ++
    (if isSelf then [] else [.vmxSuspend tcbId]) ++ [.deleteHooks tcbId, .taskLock] ++
    (if freeStack && fin.deallocStack then [.stackFree tcbId] else []) ++
    [.objCoreTerminate tcbId]), post, ?_⟩
  simp [List.append_assoc]

theorem wakesAll_of_not_mem {fin : Final} (h : .vmxDelete tcbId ∉ tr) : WakesAll tcbId fin tr :=
  fun hmem => absurd hmem h

theorem not_mem_of_waiting {force : Bool} {e : Event} (he : e.isAct = true)
    (h : ∀ x ∈ tr, x.waiting tcbId force = true) : e ∉ tr := by
  intro hmem
  rw [waiting_isAct (h e hmem)] at he
  cases he

theorem wakesAll_wrap {fin : Final} {more : List Event} (h : WakesAll tcbId fin tr)
    (hmore : .vmxDelete tcbId ∉ more) : WakesAll tcbId fin (.taskSafe :: tr ++ more) := by
  intro hmem hq
  have hin : .vmxDelete tcbId ∈ tr := by
    rcases List.mem_append.mp hmem with hin | hin
    · rcases List.mem_cons.mp hin with hsafe | hin
      · cases hsafe
      · exact hin
    · exact absurd hin hmore
  exact (h hin hq).trans ⟨[.taskSafe], more, rfl⟩

/-- What a call on another task does to it. -/
theorem destroysOnce_destroyLoop (tcbId : TaskId) (d : Destroy) :
    DestroysOnce tcbId d (destroyLoop d.sigTimeoutRecalc tcbId d.freeStack d.forceDestroy d.fin
      d.timeout true d.turns) := by
  obtain ⟨pre, hpre, heq⟩ := destroyLoop_eq d.sigTimeoutRecalc tcbId d.freeStack d.forceDestroy
    d.fin d.turns d.timeout true
  have hunprotect : d.forceDestroy = false → .unprotect tcbId ∉ pre := by
    intro hforce hmem
    have hwait := hpre _ hmem
    simp [Event.waiting, hforce] at hwait
  have hwaits : ∀ out : Out, out ≠ .returns OK → DestroysOnce tcbId d (pre, out) := by
    intro out hout
    refine ⟨?_, hunprotect, wakesAll_of_not_mem (not_mem_of_waiting rfl hpre)⟩
    rw [if_neg hout]
    exact filter_waiting hpre
  rw [heq]
  cases verdict d.forceDestroy d.turns with
  | none => exact hwaits _ (by decide)
  | some b =>
    cases b with
    | false => exact hwaits _ (by decide)
    | true =>
      refine ⟨?_, ?_, ?_⟩
      · rw [if_pos rfl, List.append_assoc, List.filter_append, filter_waiting hpre, filter_delete]
        rfl
      · intro hforce hmem
        rw [List.append_assoc] at hmem
        rcases List.mem_append.mp hmem with hin | hin
        · exact hunprotect hforce hin
        · exact unprotect_not_mem_delete d.freeStack d.fin hin
      · have hwakes := @wakesAll_delete tcbId (pre ++ [.selected tcbId 0])
          [.taskUnlock, .taskUnsafe] false d.freeStack d.fin
        simpa using hwakes

/-! ## The caller itself -/

/-- What comes before the caller leaves its end to another task decides. -/
theorem drops_append {pre post : List Event} {e : Event} (hpre : ∀ x ∈ pre, x.leaves = false)
    (he : e.leaves = true) (hsafe : (own.after self pre).safeCount = 0)
    (hq : own.safeCount ≠ 0 → (own.after self pre).safetyQ = []) :
    Drops self own (pre ++ e :: post) := by
  have htake : (pre ++ e :: post).takeWhile (fun x => !x.leaves) = pre := by
    rw [List.takeWhile_append_of_pos]
    · rw [List.takeWhile_cons, he]
      exact List.append_nil _
    · intro x hx
      rw [hpre x hx]
      rfl
  refine ⟨⟨e, List.mem_append_right _ List.mem_cons_self, he⟩, ?_, ?_⟩
  · rw [htake]
    exact hsafe
  · rw [htake]
    exact hq

theorem leaves_taskUnsafeLoop (n : Nat) : ∀ e ∈ taskUnsafeLoop n, e.leaves = false := by
  induction n with
  | zero =>
    intro e he
    cases he
  | succ n ih =>
    intro e he
    rcases List.mem_cons.mp he with he | he
    · rw [he]
      rfl
    · exact ih e he

/-- The last `taskUnsafe` wakes what waits. -/
theorem after_taskUnsafeLoop (n : Nat) : ∀ own : Safety, own.safeCount.toNat = n →
    own.after self (taskUnsafeLoop n) =
      { own with safeCount := 0, safetyQ := if n = 0 then own.safetyQ else [] } := by
  induction n with
  | zero =>
    intro own hn
    have hzero : own.safeCount = 0 := UInt32.toNat_inj.mp hn
    show own = _
    rw [if_pos rfl, ← hzero]
  | succ n ih =>
    intro own hn
    have hpos : 0 < own.safeCount := by
      rw [UInt32.lt_iff_toNat_lt]
      show 0 < own.safeCount.toNat
      omega
    have hone : (1 : UInt32) ≤ own.safeCount := by
      rw [UInt32.le_iff_toNat_le]
      show 1 ≤ own.safeCount.toNat
      omega
    have hsub : (own.safeCount - 1).toNat = n := by
      rw [UInt32.toNat_sub_of_le _ _ hone]
      show own.safeCount.toNat - 1 = n
      omega
    show (own.apply self .taskUnsafe).after self (taskUnsafeLoop n) = _
    have happly : own.apply self .taskUnsafe = { own with
        safeCount := own.safeCount - 1
        safetyQ := if own.safeCount - 1 = 0 then [] else own.safetyQ } := if_pos hpos
    rw [happly, ih _ hsub, if_neg (Nat.succ_ne_zero n)]
    by_cases hn0 : n = 0
    · have hzero : own.safeCount - 1 = 0 := UInt32.toNat_inj.mp (hsub.trans hn0)
      simp [hn0, hzero]
    · simp [hn0]

theorem drops_destroySelf (signals excJobAddOk freeStack : Bool) (fin : Final) :
    Drops self own (destroySelf self own signals excJobAddOk freeStack fin).1 := by
  have hdrop : ∀ post, Drops self own (taskUnsafeLoop own.safeCount.toNat ++ .excJobAdd :: post) := by
    intro post
    apply drops_append (leaves_taskUnsafeLoop _) rfl
    · rw [after_taskUnsafeLoop _ own rfl]
    · intro hne
      have hnat : own.safeCount.toNat ≠ 0 := fun h => hne (UInt32.toNat_inj.mp h)
      rw [after_taskUnsafeLoop _ own rfl, if_neg hnat]
  unfold destroySelf
  dsimp only
  split
  · rw [List.append_assoc]
    exact hdrop _
  · rw [List.append_assoc, List.append_assoc, List.append_assoc]
    exact hdrop _

theorem destroySelf_gone (signals excJobAddOk freeStack : Bool) (fin : Final) :
    (destroySelf self own signals excJobAddOk freeStack fin).2 = .gone := by
  unfold destroySelf
  dsimp only
  split <;> rfl

theorem leaves_taskSafeLoop (n : UInt32) : ∀ e ∈ taskSafeLoop n, e.leaves = false := by
  induction n using taskSafeLoop.induct with
  | case1 =>
    intro e he
    rw [taskSafeLoop, if_pos rfl] at he
    cases he
  | case2 n hne ih =>
    intro e he
    rw [taskSafeLoop, if_neg hne] at he
    rcases List.mem_cons.mp he with he | he
    · rw [he]
      rfl
    · exact ih e he

/-- The loop counts up, until the counter wraps.  Nothing is woken. -/
theorem after_taskSafeLoop (n : UInt32) : ∀ own : Safety, own.safeCount = n →
    own.after self (taskSafeLoop n) = { own with safeCount := 0 } := by
  induction n using taskSafeLoop.induct with
  | case1 =>
    intro own hn
    rw [taskSafeLoop, if_pos rfl]
    show own = _
    rw [← hn]
  | case2 n hne ih =>
    intro own hn
    rw [taskSafeLoop, if_neg hne]
    show ({ own with safeCount := own.safeCount + 1 } : Safety).after self _ = _
    rw [ih _ (by rw [hn])]

theorem drops_restartSelf_iff (post : List Event) :
    Drops self own (taskSafeLoop own.safeCount ++ .taskSpawn :: post) ↔
      own.safeCount = 0 ∨ own.safetyQ = [] := by
  have hafter := @after_taskSafeLoop self own.safeCount own rfl
  have htake : (taskSafeLoop own.safeCount ++ .taskSpawn :: post).takeWhile
      (fun x => !x.leaves) = taskSafeLoop own.safeCount := by
    rw [List.takeWhile_append_of_pos]
    · exact List.append_nil _
    · intro x hx
      rw [leaves_taskSafeLoop _ x hx]
      rfl
  constructor
  · intro h
    by_cases hzero : own.safeCount = 0
    · exact .inl hzero
    · have hq := h.safetyQ hzero
      rw [htake, hafter] at hq
      exact .inr hq
  · intro h
    apply drops_append (leaves_taskSafeLoop _) rfl
    · rw [hafter]
    · intro hne
      rw [hafter]
      exact h.resolve_left hne

/-! ## The calls -/

variable {c : CallTrace.Caller} {taskId : TaskId}

/-- The counters of the caller are as before the effects. -/
def Restored (self : TaskId) (own : Safety) (tr : List Event) : Prop :=
  (own.after self tr).safeCount = own.safeCount ∧ (own.after self tr).lockCount = own.lockCount

theorem taskDestroy_other (d : Destroy) (hint : c.intRestrict = false) (hzero : taskId ≠ 0)
    (hself : taskId ≠ c.taskIdCurrent) : taskDestroy c own taskId d =
      if d.verified then destroyLoop d.sigTimeoutRecalc taskId d.freeStack d.forceDestroy d.fin
        d.timeout true d.turns
      else ([.errnoSet .S_objLib_ID_ERROR], .returns ERROR) := by
  unfold taskDestroy taskTcb
  rw [if_neg (by rw [hint]; exact Bool.false_ne_true), if_neg hzero]
  cases d.verified with
  | false =>
    have hno : ¬ (decide (taskId = c.taskIdCurrent) || false) = true := by simp [hself]
    rw [if_neg hno]
    rfl
  | true =>
    have hyes : (decide (taskId = c.taskIdCurrent) || true) = true := by simp
    rw [if_pos hyes]
    exact if_neg hself

/-- A call that is refused or finds no task sets an error number and returns. -/
theorem destroysOnce_error (d : Destroy) (e : TaskErrno) :
    DestroysOnce tcbId d ([.errnoSet e], .returns ERROR) where
  acts := rfl
  waits _ hmem := by simp at hmem
  wakes := wakesAll_of_not_mem (by simp)

theorem restartsOnce_error (a : Restart) (e : TaskErrno) :
    RestartsOnce tcbId a ([.errnoSet e], .returns ERROR) where
  acts := List.nil_prefix
  all h := absurd (show Out.returns ERROR = .returns OK from h) (by decide)
  waits hmem := by simp at hmem
  wakes := wakesAll_of_not_mem (by simp)

theorem destroysOnce_taskDestroy (d : Destroy) (hself : ¬ (taskId = 0 ∨ taskId = c.taskIdCurrent)) :
    DestroysOnce taskId d (taskDestroy c own taskId d) := by
  rw [not_or] at hself
  cases hint : c.intRestrict with
  | true =>
    unfold taskDestroy
    rw [if_pos hint]
    exact destroysOnce_error d _
  | false =>
    rw [taskDestroy_other d hint hself.1 hself.2]
    split
    · exact destroysOnce_destroyLoop taskId d
    · exact destroysOnce_error d _

/-- What a deletion of another task leaves of the counters of its caller, and how it ends. -/
theorem taskDestroy_counts (d : Destroy) (hint : c.intRestrict = false) (hzero : taskId ≠ 0)
    (hself : taskId ≠ c.taskIdCurrent) (s : Safety) :
    match if d.verified then verdict d.forceDestroy d.turns else some false with
    | none => (taskDestroy c own taskId d).2 = .waits
    | some false => (taskDestroy c own taskId d).2 = .returns ERROR ∧
        s.after c.taskIdCurrent (taskDestroy c own taskId d).1 = s
    | some true => (taskDestroy c own taskId d).2 = .returns OK ∧
        s.after c.taskIdCurrent (taskDestroy c own taskId d).1 = s.inDestroy c.taskIdCurrent := by
  rw [taskDestroy_other d hint hzero hself]
  cases d.verified with
  | false => exact ⟨rfl, rfl⟩
  | true =>
    obtain ⟨pre, hpre, heq⟩ := destroyLoop_eq d.sigTimeoutRecalc taskId d.freeStack d.forceDestroy
      d.fin d.turns d.timeout true
    simp only [if_true]
    rw [heq]
    cases verdict d.forceDestroy d.turns with
    | none => rfl
    | some b =>
      cases b with
      | false => exact ⟨rfl, after_waiting hself hpre⟩
      | true =>
        refine ⟨rfl, ?_⟩
        show s.after c.taskIdCurrent (pre ++ _ ++ _) = _
        rw [List.append_assoc, after_append, after_waiting hself hpre]
        exact after_delete hself d.freeStack d.fin

theorem restored_inDestroy (tr : List Event)
    (h : own.after self tr = own.inDestroy self) :
    Restored self own tr ↔ own.safeCount ≠ 4294967295 ∧ own.lockCount ≠ 4294967295 := by
  unfold Restored
  rw [h, safeCount_inDestroy, lockCount_inDestroy]
  have hcount : ∀ n : UInt32, (if n = 4294967295 then 0 else n) = n ↔ n ≠ 4294967295 := by
    intro n
    by_cases hn : n = 4294967295
    · rw [if_pos hn, hn]
      decide
    · rw [if_neg hn]
      exact ⟨fun _ => hn, fun _ => rfl⟩
  rw [hcount, hcount]

theorem taskDestroy_self (d : Destroy) (hint : c.intRestrict = false)
    (hself : taskId = 0 ∨ taskId = c.taskIdCurrent) :
    taskDestroy c own taskId d =
      destroySelf c.taskIdCurrent own d.signals d.excJobAddOk d.freeStack d.fin := by
  unfold taskDestroy taskTcb
  rw [if_neg (by rw [hint]; exact Bool.false_ne_true)]
  by_cases hzero : taskId = 0
  · rw [if_pos hzero]
    exact if_pos rfl
  · have hcur := hself.resolve_left hzero
    have hyes : (decide (taskId = c.taskIdCurrent) || d.verified) = true := by simp [hcur]
    rw [if_neg hzero, if_pos hyes, hcur]
    exact if_pos rfl

theorem taskDestroy_refused (d : Destroy) (hint : c.intRestrict = true) :
    taskDestroy c own taskId d = notIsrCallable := if_pos hint

/-- When the caller destroys itself it drops its protection and does not come back. -/
theorem right_taskDestroy_self (d : Destroy) (hself : taskId = 0 ∨ taskId = c.taskIdCurrent) :
    (Call.taskDestroy taskId d).Right c own := by
  cases hint : c.intRestrict with
  | true =>
    refine ⟨fun hother => absurd hself hother, fun _ hfalse => ?_, ?_⟩
    · rw [hint] at hfalse
      cases hfalse
    · intro status _
      show Restored c.taskIdCurrent own (taskDestroy c own taskId d).1
      rw [taskDestroy_refused d hint]
      exact ⟨rfl, rfl⟩
  | false =>
    have hrun : (Call.taskDestroy taskId d).run c own =
        destroySelf c.taskIdCurrent own d.signals d.excJobAddOk d.freeStack d.fin :=
      taskDestroy_self d hint hself
    refine ⟨fun hother => absurd hself hother, fun _ _ => ?_, ?_⟩
    · rw [hrun]
      exact ⟨destroySelf_gone _ _ _ _, drops_destroySelf _ _ _ _⟩
    · intro status hreturns
      rw [hrun, destroySelf_gone] at hreturns
      cases hreturns

theorem right_taskDestroy_iff (d : Destroy) :
    (Call.taskDestroy taskId d).Right c own ↔ (Call.taskDestroy taskId d).Holds c own := by
  by_cases hself : taskId = 0 ∨ taskId = c.taskIdCurrent
  · refine iff_of_true (right_taskDestroy_self d hself) ?_
    intro _ hzero hne
    exact absurd hself (not_or.mpr ⟨hzero, hne⟩)
  have hacts : (Call.taskDestroy taskId d).ActsOnce ((Call.taskDestroy taskId d).run c own) :=
    destroysOnce_taskDestroy d hself
  have hright : (Call.taskDestroy taskId d).Right c own ↔ ∀ status,
      (taskDestroy c own taskId d).2 = .returns status →
        Restored c.taskIdCurrent own (taskDestroy c own taskId d).1 :=
    ⟨fun h => h.counts, fun h => ⟨fun _ => hacts, fun hon => absurd hon hself, h⟩⟩
  rw [hright]
  cases hint : c.intRestrict with
  | true =>
    rw [taskDestroy_refused d hint]
    refine iff_of_true (fun _ _ => ⟨rfl, rfl⟩) ?_
    intro hfalse
    rw [hint] at hfalse
    cases hfalse
  | false =>
    obtain ⟨hzero, hne⟩ := not_or.mp hself
    have hcounts := @taskDestroy_counts own c taskId d hint hzero hne own
    unfold Call.Holds
    cases hver : d.verified with
    | false =>
      rw [hver] at hcounts
      refine iff_of_true (fun _ _ => ?_) (fun _ _ _ h => ?_)
      · unfold Restored
        rw [hcounts.2]
        exact ⟨rfl, rfl⟩
      · rw [hver] at h
        cases h
    | true =>
      rw [hver, if_pos rfl] at hcounts
      cases hv : verdict d.forceDestroy d.turns with
      | none =>
        rw [hv] at hcounts
        refine iff_of_true (fun status hreturns => ?_) (fun _ _ _ _ h => ?_)
        · rw [hcounts] at hreturns
          cases hreturns
        · rw [hv] at h
          cases h
      | some b =>
        rw [hv] at hcounts
        cases b with
        | false =>
          refine iff_of_true (fun _ _ => ?_) (fun _ _ _ _ h => ?_)
          · unfold Restored
            rw [hcounts.2]
            exact ⟨rfl, rfl⟩
          · rw [hv] at h
            cases h
        | true =>
          constructor
          · intro h _ _ _ _ _
            exact (restored_inDestroy _ hcounts.2).mp (h OK hcounts.1)
          · intro h _ _
            exact (restored_inDestroy _ hcounts.2).mpr (h hint hzero hne hver hv)

/-! ## Restarts -/

theorem taskRestart_refused (a : Restart) (hint : c.intRestrict = true) :
    taskRestart c own taskId a = notIsrCallable := if_pos hint

theorem taskRestart_self (a : Restart) (hint : c.intRestrict = false)
    (hself : taskId = 0 ∨ taskId = c.taskIdCurrent) : taskRestart c own taskId a =
      (taskSafeLoop own.safeCount ++ [.taskSpawn, .taskSuspend], .gone) := by
  unfold taskRestart
  rw [if_neg (by rw [hint]; exact Bool.false_ne_true), if_pos hself]

/-- What a restart of another task does after its `taskTerminate`. -/
def Restart.finish (a : Restart) (tcbId : TaskId) : List Event × Out → List Event × Out
  | (tr, .returns status) =>
    if status ≠ OK then (.taskSafe :: tr ++ [.taskUnsafe], .returns ERROR)
    else if a.taskInitOk = false then
      (.taskSafe :: tr ++ [.taskInit tcbId a.copied], .returns ERROR)
    else if a.taskActivateOk = false then
      (.taskSafe :: tr ++ [.taskInit tcbId a.copied, .taskActivate tcbId], .returns ERROR)
    else
      (.taskSafe :: tr ++ [.taskInit tcbId a.copied, .taskActivate tcbId, .taskUnsafe],
        .returns OK)
  | (tr, out) => (.taskSafe :: tr, out)

theorem taskRestart_other (a : Restart) (hint : c.intRestrict = false)
    (hself : ¬ (taskId = 0 ∨ taskId = c.taskIdCurrent)) : taskRestart c own taskId a =
      if a.verified then a.finish taskId
        (taskDestroy c { own with safeCount := own.safeCount + 1 } taskId a.terminate.asTerminate)
      else ([.errnoSet .S_objLib_ID_ERROR], .returns ERROR) := by
  unfold taskRestart taskTcb
  rw [if_neg (by rw [hint]; exact Bool.false_ne_true), if_neg hself]
  obtain ⟨hzero, hne⟩ := not_or.mp hself
  rw [if_neg hzero]
  cases a.verified with
  | false =>
    have hno : ¬ (decide (taskId = c.taskIdCurrent) || false) = true := by simp [hne]
    rw [if_neg hno]
    rfl
  | true =>
    have hyes : (decide (taskId = c.taskIdCurrent) || true) = true := by simp
    rw [if_pos hyes]
    rfl

/-- The acts of a restart are those of its `taskTerminate`, and then the start. -/
theorem restartsOnce_finish (a : Restart) {d : Destroy} {r : List Event × Out}
    (hfin : d.fin = a.terminate.fin) (hforce : d.forceDestroy = false)
    (h : DestroysOnce tcbId d r) : RestartsOnce tcbId a (a.finish tcbId r) := by
  obtain ⟨tr, out⟩ := r
  have hwrap : ∀ (more : List Event) (out' : Out), .unprotect tcbId ∉ more →
      .vmxDelete tcbId ∉ more →
      tr.filter Event.isAct ++ more.filter Event.isAct <+:
        deletion tcbId ++ [.taskInit tcbId a.copied, .taskActivate tcbId] →
      (out' = .returns OK → tr.filter Event.isAct ++ more.filter Event.isAct =
        deletion tcbId ++ [.taskInit tcbId a.copied, .taskActivate tcbId]) →
      RestartsOnce tcbId a (.taskSafe :: tr ++ more, out') := by
    intro more out' hunprotect hdelete hprefix hall
    have hacts : (.taskSafe :: tr ++ more).filter Event.isAct =
        tr.filter Event.isAct ++ more.filter Event.isAct := List.filter_append (.taskSafe :: tr) more
    refine ⟨?_, ?_, ?_, ?_⟩
    · rw [hacts]
      exact hprefix
    · intro hout
      rw [hacts]
      exact hall hout
    · intro hmem
      rcases List.mem_append.mp hmem with hin | hin
      · rcases List.mem_cons.mp hin with hsafe | hin
        · cases hsafe
        · exact h.waits hforce hin
      · exact hunprotect hin
    · rw [← hfin]
      exact wakesAll_wrap h.wakes hdelete
  have hacts : tr.filter Event.isAct = if out = .returns OK then deletion tcbId else [] := h.acts
  have hstill : out ≠ .returns OK → ∀ more : List Event, more.filter Event.isAct = [] →
      tr.filter Event.isAct ++ more.filter Event.isAct = [] := by
    intro hout more hmore
    rw [hacts, if_neg hout, hmore]
    rfl
  cases out with
  | waits =>
    have hnil := hstill (by simp) [] rfl
    have hresult := hwrap [] .waits (by simp) (by simp) (by rw [hnil]; exact List.nil_prefix)
      (by simp)
    rwa [List.append_nil] at hresult
  | gone =>
    have hnil := hstill (by simp) [] rfl
    have hresult := hwrap [] .gone (by simp) (by simp) (by rw [hnil]; exact List.nil_prefix)
      (by simp)
    rwa [List.append_nil] at hresult
  | returns status =>
    unfold Restart.finish
    dsimp only
    by_cases hok : status = OK
    · subst hok
      rw [if_pos rfl] at hacts
      rw [if_neg (not_not.mpr rfl)]
      by_cases hinit : a.taskInitOk = false
      · rw [if_pos hinit]
        apply hwrap _ _ (by simp) (by simp)
        · rw [hacts]
          exact ⟨[.taskActivate tcbId], rfl⟩
        · intro herror
          exact absurd herror (by decide)
      rw [if_neg hinit]
      by_cases hactivate : a.taskActivateOk = false
      · rw [if_pos hactivate]
        apply hwrap _ _ (by simp) (by simp)
        · rw [hacts]
          exact List.prefix_rfl
        · intro herror
          exact absurd herror (by decide)
      · rw [if_neg hactivate]
        apply hwrap _ _ (by simp) (by simp)
        · rw [hacts]
          exact List.prefix_rfl
        · intro _
          rw [hacts]
          rfl
    · have hnil := hstill (by simpa using hok) [.taskUnsafe] rfl
      rw [if_pos hok]
      apply hwrap _ _ (by simp) (by simp)
      · rw [hnil]
        exact List.nil_prefix
      · intro herror
        exact absurd herror (by decide)

theorem restartsOnce_taskRestart (a : Restart)
    (hself : ¬ (taskId = 0 ∨ taskId = c.taskIdCurrent)) :
    RestartsOnce taskId a (taskRestart c own taskId a) := by
  cases hint : c.intRestrict with
  | true =>
    rw [taskRestart_refused a hint]
    exact restartsOnce_error a _
  | false =>
    rw [taskRestart_other a hint hself]
    split
    · exact @restartsOnce_finish taskId a a.terminate.asTerminate _ rfl rfl
        (destroysOnce_taskDestroy a.terminate.asTerminate hself)
    · exact restartsOnce_error a _

/-- The counters of the caller after a restart that has not gone through, and after one that has. -/
theorem succ_ne_max {n : UInt32} (h : n ≠ 4294967294) : n + 1 ≠ 4294967295 := by
  intro hmax
  apply h
  have hadd : (n + 1).toNat = (n.toNat + 1) % 4294967296 := UInt32.toNat_add n 1
  rw [hmax] at hadd
  have hlt := n.toNat_lt
  apply UInt32.toNat_inj.mp
  show n.toNat = 4294967294
  have hvalue : (4294967295 : UInt32).toNat = 4294967295 := rfl
  omega

theorem leak_ne (n : UInt32) : (if n + 1 = 4294967295 then 0 else n + 1) ≠ n := by
  by_cases hn : n = 4294967294
  · rw [hn]
    decide
  · rw [if_neg (succ_ne_max hn)]
    intro h
    have hadd : (n + 1).toNat = (n.toNat + 1) % 4294967296 := UInt32.toNat_add n 1
    have hlt := n.toNat_lt
    rw [h] at hadd
    omega

theorem unsafe_eq_iff (n m : UInt32) (hm : m = if n + 1 = 4294967295 then 0 else n + 1) :
    (if 0 < m then m - 1 else m) = n ↔ n ≠ 4294967295 ∧ n ≠ 4294967294 := by
  by_cases hn : n = 4294967294
  · rw [hm, hn]
    decide
  · rw [if_neg (succ_ne_max hn)] at hm
    rw [hm, up_down]
    by_cases hmax : n = 4294967295
    · rw [hmax]
      decide
    · rw [if_neg hmax]
      exact ⟨fun _ => ⟨hmax, hn⟩, fun _ => rfl⟩

/-- The caller of a restart is safe from before `taskTerminate` on. -/
theorem restored_finish {more : List Event} {s : Safety}
    (h : ({ own with safeCount := own.safeCount + 1 } : Safety).after self tr = s) :
    own.after self (.taskSafe :: tr ++ more) = s.after self more := by
  rw [← h]
  exact after_append more

/-- When the `taskTerminate` of a restart has ended, the counters depend on how it goes on. -/
theorem restored_finish_iff (a : Restart) {out : Out}
    (h : match a.terminate.terminateVerdict with
      | none => out = .waits
      | some false => out = .returns ERROR ∧
          ({ own with safeCount := own.safeCount + 1 } : Safety).after self tr =
            { own with safeCount := own.safeCount + 1 }
      | some true => out = .returns OK ∧
          ({ own with safeCount := own.safeCount + 1 } : Safety).after self tr =
            ({ own with safeCount := own.safeCount + 1 } : Safety).inDestroy self) :
    (∀ status, (a.finish tcbId (tr, out)).2 = .returns status →
        Restored self own (a.finish tcbId (tr, out)).1) ↔ (true = true →
      (a.terminate.terminateVerdict ≠ none → own.safeCount ≠ 4294967295) ∧
      (a.terminate.terminateVerdict = some true →
        own.safeCount ≠ 4294967294 ∧ own.lockCount ≠ 4294967295 ∧
          a.taskInitOk = true ∧ a.taskActivateOk = true)) := by
  cases hv : a.terminate.terminateVerdict with
  | none =>
    rw [hv] at h
    rw [h]
    refine iff_of_true (fun status hreturns => ?_) fun _ => ⟨fun hne => absurd rfl hne, ?_⟩
    · cases hreturns
    · intro hsome
      cases hsome
  | some b =>
    rw [hv] at h
    cases b with
    | false =>
      obtain ⟨hout, hafter⟩ := h
      have hfinish : a.finish tcbId (tr, out) =
          (.taskSafe :: tr ++ [.taskUnsafe], .returns ERROR) := by
        rw [hout]
        unfold Restart.finish
        dsimp only
        rw [if_pos (show ERROR ≠ OK by decide)]
      have hcount : Restored self own (.taskSafe :: tr ++ [.taskUnsafe]) ↔
          own.safeCount ≠ 4294967295 := by
        unfold Restored
        rw [restored_finish hafter]
        show (Safety.apply self _ .taskUnsafe).safeCount = _ ∧
          (Safety.apply self _ .taskUnsafe).lockCount = _ ↔ _
        rw [safeCount_taskUnsafe, lockCount_taskUnsafe]
        dsimp only
        rw [up_down]
        by_cases hmax : own.safeCount = 4294967295
        · rw [if_pos hmax, hmax]
          exact iff_of_false (fun h => absurd h.1 (by decide)) fun h => h rfl
        · rw [if_neg hmax]
          exact iff_of_true ⟨rfl, rfl⟩ hmax
      rw [hfinish]
      constructor
      · intro h _
        refine ⟨fun _ => hcount.mp (h ERROR rfl), fun hsome => ?_⟩
        cases hsome
      · intro h _ _
        exact hcount.mpr ((h rfl).1 (by simp))
    | true =>
      obtain ⟨hout, hafter⟩ := h
      have hsafe := @safeCount_inDestroy self { own with safeCount := own.safeCount + 1 }
      have hlock := @lockCount_inDestroy self { own with safeCount := own.safeCount + 1 }
      generalize ({ own with safeCount := own.safeCount + 1 } : Safety).inDestroy self = s
        at hafter hsafe hlock
      dsimp only at hsafe hlock
      have hfinish : a.finish tcbId (tr, out) =
          if a.taskInitOk = false then
            (.taskSafe :: tr ++ [.taskInit tcbId a.copied], .returns ERROR)
          else if a.taskActivateOk = false then
            (.taskSafe :: tr ++ [.taskInit tcbId a.copied, .taskActivate tcbId], .returns ERROR)
          else
            (.taskSafe :: tr ++ [.taskInit tcbId a.copied, .taskActivate tcbId, .taskUnsafe],
              .returns OK) := by
        rw [hout]
        unfold Restart.finish
        dsimp only
        rw [if_neg (not_not.mpr rfl)]
      -- the two error paths leave the caller safe
      have hleak : ∀ more : List Event, s.after self more = s →
          ¬ Restored self own (.taskSafe :: tr ++ more) := by
        intro more hmore hrestored
        have hcount := hrestored.1
        rw [restored_finish hafter, hmore, hsafe] at hcount
        exact leak_ne own.safeCount hcount
      rw [hfinish]
      by_cases hinit : a.taskInitOk = false
      · rw [if_pos hinit]
        refine iff_of_false (fun h => hleak [_] rfl (h ERROR rfl)) fun h => ?_
        have hok := ((h rfl).2 rfl).2.2.1
        rw [hinit] at hok
        cases hok
      rw [if_neg hinit]
      by_cases hactivate : a.taskActivateOk = false
      · rw [if_pos hactivate]
        refine iff_of_false (fun h => hleak [_, _] rfl (h ERROR rfl)) fun h => ?_
        have hok := ((h rfl).2 rfl).2.2.2
        rw [hactivate] at hok
        cases hok
      rw [if_neg hactivate]
      have hcount : Restored self own (.taskSafe :: tr ++
          [.taskInit tcbId a.copied, .taskActivate tcbId, .taskUnsafe]) ↔
          (own.safeCount ≠ 4294967295 ∧ own.safeCount ≠ 4294967294) ∧
            own.lockCount ≠ 4294967295 := by
        unfold Restored
        rw [restored_finish hafter]
        show (Safety.apply self s .taskUnsafe).safeCount = _ ∧
          (Safety.apply self s .taskUnsafe).lockCount = _ ↔ _
        rw [safeCount_taskUnsafe, lockCount_taskUnsafe, unsafe_eq_iff _ _ hsafe, hlock]
        by_cases hmax : own.lockCount = 4294967295
        · rw [if_pos hmax, hmax]
          exact iff_of_false (fun h => absurd h.2 (by decide)) fun h => h.2 rfl
        · rw [if_neg hmax]
          exact ⟨fun h => ⟨h.1, hmax⟩, fun h => ⟨h.1, rfl⟩⟩
      constructor
      · intro h _
        obtain ⟨⟨hmax, hmax'⟩, hmaxLock⟩ := hcount.mp (h OK rfl)
        refine ⟨fun _ => hmax, fun _ => ⟨hmax', hmaxLock, ?_, ?_⟩⟩
        · simpa using hinit
        · simpa using hactivate
      · intro h _ _
        obtain ⟨hmax, hmore⟩ := h rfl
        obtain ⟨hmax', hmaxLock, -, -⟩ := hmore rfl
        exact hcount.mpr ⟨⟨hmax (by simp), hmax'⟩, hmaxLock⟩

theorem right_taskRestart_iff (a : Restart) :
    (Call.taskRestart taskId a).Right c own ↔ (Call.taskRestart taskId a).Holds c own := by
  by_cases hself : taskId = 0 ∨ taskId = c.taskIdCurrent
  · cases hint : c.intRestrict with
    | true =>
      have hrefused : (Call.taskRestart taskId a).run c own = notIsrCallable :=
        taskRestart_refused a hint
      refine iff_of_true ⟨fun hother => absurd hself hother, fun _ hfalse => ?_, ?_⟩ ?_
      · rw [hint] at hfalse
        cases hfalse
      · intro status _
        rw [hrefused]
        exact ⟨rfl, rfl⟩
      · intro hfalse
        rw [hint] at hfalse
        cases hfalse
    | false =>
      have hrun : (Call.taskRestart taskId a).run c own =
          (taskSafeLoop own.safeCount ++ [.taskSpawn, .taskSuspend], .gone) :=
        taskRestart_self a hint hself
      constructor
      · intro h _
        rw [if_pos hself]
        have hdrops := (h.onSelf hself hint).2
        rw [hrun] at hdrops
        exact (drops_restartSelf_iff _).mp hdrops
      · intro h
        have hcond := h hint
        rw [if_pos hself] at hcond
        refine ⟨fun hother => absurd hself hother, fun _ _ => ?_, ?_⟩
        · rw [hrun]
          exact ⟨rfl, (drops_restartSelf_iff _).mpr hcond⟩
        · intro status hreturns
          rw [hrun] at hreturns
          cases hreturns
  have hacts : (Call.taskRestart taskId a).ActsOnce ((Call.taskRestart taskId a).run c own) :=
    restartsOnce_taskRestart a hself
  have hright : (Call.taskRestart taskId a).Right c own ↔ ∀ status,
      (taskRestart c own taskId a).2 = .returns status →
        Restored c.taskIdCurrent own (taskRestart c own taskId a).1 :=
    ⟨fun h => h.counts, fun h => ⟨fun _ => hacts, fun hon => absurd hon hself, h⟩⟩
  rw [hright]
  cases hint : c.intRestrict with
  | true =>
    rw [taskRestart_refused a hint]
    refine iff_of_true (fun _ _ => ⟨rfl, rfl⟩) ?_
    intro hfalse
    rw [hint] at hfalse
    cases hfalse
  | false =>
    rw [taskRestart_other a hint hself]
    have hholds : (Call.taskRestart taskId a).Holds c own ↔ (a.verified = true →
        (a.terminate.terminateVerdict ≠ none → own.safeCount ≠ 4294967295) ∧
        (a.terminate.terminateVerdict = some true →
          own.safeCount ≠ 4294967294 ∧ own.lockCount ≠ 4294967295 ∧
            a.taskInitOk = true ∧ a.taskActivateOk = true)) := by
      simp only [Call.Holds, if_neg hself]
      exact ⟨fun h => h hint, fun h _ => h⟩
    rw [hholds]
    cases a.verified with
    | false => exact iff_of_true (fun _ _ => ⟨rfl, rfl⟩) fun h => by cases h
    | true =>
      obtain ⟨hzero, hne⟩ := not_or.mp hself
      have hcounts := @taskDestroy_counts { own with safeCount := own.safeCount + 1 } c taskId
        a.terminate.asTerminate hint hzero hne { own with safeCount := own.safeCount + 1 }
      have hverdict : (if a.terminate.asTerminate.verified then
          verdict a.terminate.asTerminate.forceDestroy a.terminate.asTerminate.turns
        else some false) = a.terminate.terminateVerdict := rfl
      rw [hverdict] at hcounts
      generalize taskDestroy c { own with safeCount := own.safeCount + 1 } taskId
        a.terminate.asTerminate = r at hcounts ⊢
      obtain ⟨tr, out⟩ := r
      rw [if_pos rfl]
      exact restored_finish_iff a hcounts

/-- Delete safety of `taskDestroy` and `taskRestart`, for every caller, every protection of it and
all that the call finds. -/
theorem call_right_iff (c : CallTrace.Caller) (own : Safety) (call : Call) :
    call.Right c own ↔ call.Holds c own := by
  cases call with
  | taskDestroy taskId d => exact right_taskDestroy_iff d
  | taskRestart taskId a => exact right_taskRestart_iff a

/-- The task is deleted by a third one between its `taskInit` and its `taskActivate`. -/
def activateFails : Restart where
  verified := true
  data := ⟨none, 100, 0, 65536, 4096, 4660, []⟩
  mallocOk := true
  terminate := {
    freeStack := false
    timeout := 0
    forceDestroy := false
    sigTimeoutRecalc := id
    verified := true
    signals := false
    excJobAddOk := true
    turns := [⟨true, false, ⟨0, 0, []⟩, true, true, 0⟩]
    fin := ⟨false, []⟩ }
  taskInitOk := true
  taskActivateOk := false

theorem not_call_right : ¬ ∀ (c : CallTrace.Caller) (own : Safety) (call : Call),
    call.Right c own := by
  intro hall
  have hcounts := (hall ⟨1, false⟩ ⟨0, 0, []⟩ (.taskRestart 2 activateFails)).counts ERROR
    (by decide)
  exact absurd hcounts.1 (by decide)

end Vmx.TaskDestroy
