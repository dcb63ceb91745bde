import Vmx.Os.TyLine

/-!
# Flow control of the output

`XOFF` stops the output and `XON` is to let it go on, while `OPT_TANDEM` is set.  `Flow` is a
device with what was received and sent so far, and `FlowInv` says that the flag is the one of the
last flow-control character.  `tyIntRd` compares with `XOFF` twice: a run in which an `XON` is
received is not covered, nor one in which an `XOFF` comes while the read buffer is flushed.
-/

namespace Vmx.Ty

open Lib
open Rng hiding Ring

variable {chars : Chars} {tyId tyId' : TyDev} {c : UInt8}

/-! ## The output goes on -/

/-- Bytes wait in the write buffer, nothing stops them, and the transmitter sends. -/
def Running (tyId : TyDev) : Prop :=
  tyId.writeState.xoff = false → tyId.writeState.flushingWriteBuffer = false →
    isEmpty tyId.writeBuffer = false → tyId.writeState.busy = true

/-- The output is stopped as before, and the transmitter is started, or goes on. -/
structure Keeps (tyId tyId' : TyDev) : Prop where
  xoff : tyId'.writeState.xoff = tyId.writeState.xoff
  flushing : tyId'.writeState.flushingWriteBuffer = tyId.writeState.flushingWriteBuffer
  started : tyId'.writeState.busy = true ∨
    tyId'.writeBuffer = tyId.writeBuffer ∧ tyId'.writeState.busy = tyId.writeState.busy

theorem Keeps.refl (tyId : TyDev) : Keeps tyId tyId := ⟨rfl, rfl, .inr ⟨rfl, rfl⟩⟩

theorem Keeps.trans {tyId'' : TyDev} (h : Keeps tyId tyId') (h' : Keeps tyId' tyId'') :
    Keeps tyId tyId'' := by
  refine ⟨h'.xoff.trans h.xoff, h'.flushing.trans h.flushing, ?_⟩
  rcases h'.started with hbusy | ⟨hbuffer, hbusy⟩
  · exact .inl hbusy
  · rcases h.started with hbusy' | ⟨hbuffer', hbusy'⟩
    · exact .inl (hbusy.trans hbusy')
    · exact .inr ⟨hbuffer.trans hbuffer', hbusy.trans hbusy'⟩

theorem Keeps.running (h : Keeps tyId tyId') (hrun : Running tyId) : Running tyId' := by
  intro hxoff hflush hempty
  rcases h.started with hbusy | ⟨hbuffer, hbusy⟩
  · exact hbusy
  · rw [h.xoff] at hxoff
    rw [h.flushing] at hflush
    rw [hbuffer] at hempty
    exact hbusy.trans (hrun hxoff hflush hempty)

theorem tyReadXoff_keeps (tyId : TyDev) (xoff : Bool) : Keeps tyId (tyReadXoff tyId xoff) := by
  unfold tyReadXoff
  split
  · exact ⟨rfl, rfl, .inl rfl⟩
  · exact .refl tyId

theorem tyTandem_keeps (tyId : TyDev) : Keeps tyId (tyTandem tyId) := by
  unfold tyTandem
  split_ifs
  · exact tyReadXoff_keeps tyId true
  · exact .refl tyId
  · exact tyReadXoff_keeps tyId false
  · exact .refl tyId
  · exact .refl tyId

theorem tyReadEnd_keeps (tyId : TyDev) : Keeps tyId (tyReadEnd tyId) := by
  unfold tyReadEnd
  dsimp only
  split_ifs
  · exact (tyReadXoff_keeps tyId false).trans ⟨rfl, rfl, .inr ⟨rfl, rfl⟩⟩
  · exact tyReadXoff_keeps tyId false
  · exact ⟨rfl, rfl, .inr ⟨rfl, rfl⟩⟩
  · exact .refl tyId

/-- What is echoed is sent. -/
theorem tyEcho_keeps (h : tyEcho chars tyId c = some tyId') : Keeps tyId tyId' := by
  have hecho : ∀ r : Option RingId,
      (r.map fun ringId => tyTxStartup { tyId with writeBuffer := ringId }) = some tyId' →
        Keeps tyId tyId' := by
    intro r hr
    obtain ⟨ringId, _, rfl⟩ := Option.map_eq_some_iff.1 hr
    exact ⟨rfl, rfl, .inl rfl⟩
  unfold tyEcho at h
  dsimp only at h
  split_ifs at h
  · exact hecho _ h
  · exact hecho _ h
  · cases h
    exact .refl tyId
  · exact hecho _ h
  · exact hecho _ h
  · exact hecho _ h
  · cases h
    exact .refl tyId

theorem tyLineChar_keeps (chars : Chars) (tyId : TyDev) (c : UInt8) :
    Keeps tyId (tyLineChar chars tyId c).1 := by
  unfold tyLineChar
  dsimp only
  split_ifs <;> exact ⟨rfl, rfl, .inr ⟨rfl, rfl⟩⟩

theorem tyPutChar_keeps {r : TyDev × Int × Bool} (h : tyPutChar chars tyId c = some r) :
    Keeps tyId r.1 := by
  unfold tyPutChar at h
  split at h
  · cases h
    have hline := tyLineChar_keeps chars tyId c
    dsimp only
    split
    · exact hline.trans ⟨rfl, rfl, .inr ⟨rfl, rfl⟩⟩
    · exact hline
  · obtain ⟨ringId, _, rfl⟩ := Option.map_eq_some_iff.1 h
    exact ⟨rfl, rfl, .inr ⟨rfl, rfl⟩⟩

/-- A flag that is cleared starts the transmitter. -/
theorem tyWriteXoff_spec (tyId : TyDev) (xoff : Bool) :
    (tyWriteXoff tyId xoff).writeState.xoff = xoff ∧
      (Running tyId → Running (tyWriteXoff tyId xoff)) := by
  unfold tyWriteXoff
  split_ifs with hne hfalse
  · exact ⟨rfl, fun _ _ _ _ => rfl⟩
  · refine ⟨rfl, fun _ hxoff => ?_⟩
    exact absurd hxoff hfalse
  · exact ⟨not_ne_iff.1 hne, id⟩

/-! ## What was received and sent -/

/-- The flow-control character that is received, if it is one. -/
def flowChar (chars : Chars) (hookRv : Bool) (tyId : TyDev) (c : UInt8) : Option UInt8 :=
  let c := if hasOpt tyId.options OPT_7_BIT then c &&& 0x7f else c
  if hookRv then none
  else if c = chars.tyAbortChar ∧ hasOpt tyId.options OPT_ABORT then none
  else if c = chars.tyMonitorTrapChar ∧ hasOpt tyId.options OPT_MON_TRAP then none
  else if (c = XON ∨ c = XOFF) ∧ hasOpt tyId.options OPT_TANDEM then some c
  else none

/-- A device, the last flow-control character that was received since flow control was switched
off, the characters that were received as data while it was on, and those that were sent, with
the flag. -/
structure Flow where
  st : State
  lastFlow : Option UInt8 := none
  data : List UInt8 := []
  sent : List (Bool × UInt8) := []

/-- A call of `FIOSETOPTIONS` switches flow control off. -/
def State.switchesOff (s : State) (i : Nat) : Bool :=
  match s.calls[i]? with
  | some (.setTandem old) => hasOpt old OPT_TANDEM && !hasOpt s.dev.options OPT_TANDEM
  | _ => false

/-- What a step adds to what was received and sent. -/
def Flow.record (chars : Chars) (f : Flow) (st : State) : Op → Flow
  | .task i =>
    { f with st := st, lastFlow := if f.st.switchesOff i then none else f.lastFlow }
  | .intRd hookRv c =>
    { f with
      st := st
      lastFlow := (flowChar chars hookRv f.st.dev c).or f.lastFlow
      data :=
        if hasOpt f.st.dev.options OPT_TANDEM then
          f.data ++ (tyReaches chars hookRv f.st.dev c).toList
        else f.data }
  | .intTx =>
    { f with
      st := st
      sent := f.sent ++ ((tyIntTx f.st.dev).bind fun r => r.2.2).toList.map fun c =>
        (f.st.dev.writeState.xoff, c) }
  | _ => { f with st := st }

def flowStep (chars : Chars) (f : Flow) (op : Op) : Option Flow :=
  (step chars f.st op).map fun st => f.record chars st op

/-- No `XON` is received, and no `XOFF` while the read buffer is flushed. -/
def flowSound (chars : Chars) (f : Flow) : Op → Bool
  | .intRd hookRv c =>
    match flowChar chars hookRv f.st.dev c with
    | some c => c == XOFF && !f.st.dev.readState.flushingReadBuffer
    | none => true
  | _ => true

/-- The flag is that of the last flow-control character, none of them is data, the output goes on
when it is not stopped, and only they are sent while it is. -/
structure FlowInv (f : Flow) : Prop where
  stopped : f.st.dev.writeState.xoff = true ↔ f.lastFlow = some XOFF
  data : ∀ c ∈ f.data, c ≠ XON ∧ c ≠ XOFF
  running : Running f.st.dev
  sent : ∀ p ∈ f.sent, p.1 = true → p.2 = XON ∨ p.2 = XOFF

/-- A character is an `XOFF`, or no flow-control character. -/
theorem intRd_flow {hookRv : Bool} {status : Int}
    (h : tyIntRd chars hookRv tyId c = some (tyId', status))
    (hsound : ∀ x, flowChar chars hookRv tyId c = some x →
      x = XOFF ∧ tyId.readState.flushingReadBuffer = false) :
    flowChar chars hookRv tyId c = some XOFF ∧ tyReaches chars hookRv tyId c = none ∧
        tyId' = tyWriteXoff tyId true ∨
      flowChar chars hookRv tyId c = none ∧ Keeps tyId tyId' ∧
        ∀ x, tyReaches chars hookRv tyId c = some x → hasOpt tyId.options OPT_TANDEM = true →
          x ≠ XON ∧ x ≠ XOFF := by
  unfold tyIntRd at h
  unfold flowChar at hsound ⊢
  unfold tyReaches
  dsimp only at h hsound ⊢
  generalize (if hasOpt tyId.options OPT_7_BIT then c &&& 0x7f else c) = c₁ at h hsound ⊢
  by_cases hflush : tyId.readState.flushingReadBuffer = true
  · rw [if_pos hflush] at h
    cases h
    rw [if_pos (c := tyId.readState.flushingReadBuffer = true ∨ hookRv = true) (.inl hflush)]
    refine .inr ⟨?_, .refl tyId, fun x hx => by cases hx⟩
    apply Option.eq_none_iff_forall_ne_some.2
    intro x hx
    rw [(hsound x hx).2] at hflush
    cases hflush
  rw [if_neg hflush] at h
  by_cases hhook : hookRv = true
  · rw [if_pos hhook] at h ⊢
    cases h
    rw [if_pos (.inr hhook)]
    exact .inr ⟨rfl, .refl tyId, fun x hx => by cases hx⟩
  rw [if_neg hhook] at h hsound ⊢
  rw [if_neg (not_or.2 ⟨hflush, hhook⟩)]
  by_cases habort : c₁ = chars.tyAbortChar ∧ hasOpt tyId.options OPT_ABORT
  · rw [if_pos habort] at h ⊢
    cases h
    rw [if_pos habort]
    exact .inr ⟨rfl, .refl tyId, fun x hx => by cases hx⟩
  rw [if_neg habort] at h hsound ⊢
  by_cases htrap : c₁ = chars.tyMonitorTrapChar ∧ hasOpt tyId.options OPT_MON_TRAP
  · rw [if_pos htrap] at h ⊢
    cases h
    rw [if_neg habort, if_pos htrap]
    exact .inr ⟨rfl, .refl tyId, fun x hx => by cases hx⟩
  rw [if_neg htrap] at h hsound ⊢
  rw [if_neg habort, if_neg htrap]
  by_cases hxoff : c₁ = XOFF ∧ hasOpt tyId.options OPT_TANDEM
  · rw [if_pos hxoff] at h ⊢
    cases h
    rw [if_pos ⟨.inr hxoff.1, hxoff.2⟩, hxoff.1]
    exact .inl ⟨rfl, rfl, rfl⟩
  rw [if_neg hxoff] at h ⊢
  -- it is not an `XON`, or flow control is off
  have hnone : ¬ ((c₁ = XON ∨ c₁ = XOFF) ∧ hasOpt tyId.options OPT_TANDEM) := by
    intro hflow
    obtain ⟨hx, _⟩ := hsound c₁ (if_pos hflow)
    exact hxoff ⟨hx, hflow.2⟩
  rw [if_neg hnone]
  obtain ⟨dev, hecho, hput⟩ := Option.bind_eq_some_iff.1 h
  obtain ⟨r, hr, heq⟩ := Option.map_eq_some_iff.1 hput
  obtain ⟨rfl, _⟩ := Prod.mk.inj heq
  refine .inr ⟨rfl, ?_, fun x hx htandem => ?_⟩
  · have hkeeps := (tyEcho_keeps hecho).trans ((tyPutChar_keeps hr).trans (tyTandem_keeps r.1))
    split
    · exact hkeeps.trans ⟨rfl, rfl, .inr ⟨rfl, rfl⟩⟩
    · exact hkeeps
  · have hdata : c₁ ≠ XON ∧ c₁ ≠ XOFF :=
      not_or.1 fun hx => hnone ⟨hx, htandem⟩
    cases hx
    split
    · decide
    · exact hdata

/-! ## The transmitter -/

theorem rngElemGet_none {r : Rng.Ring UInt8} (h : (rngElemGet r).2 = none) :
    rngIsEmpty r = true := by
  unfold rngElemGet at h
  dsimp only at h
  split at h
  next heq =>
    rw [rngIsEmpty, heq]
    exact beq_self_eq_true _
  next => split at h <;> cases h

theorem intTx_flow {r : Int × Option UInt8} (h : tyIntTx tyId = some (tyId', r)) :
    tyId'.writeState.xoff = tyId.writeState.xoff ∧ (Running tyId → Running tyId') ∧
      ∀ x, r.2 = some x → tyId.writeState.xoff = true → x = XON ∨ x = XOFF := by
  obtain ⟨⟨tyId₁, pc⟩, hr, heq⟩ := Option.map_eq_some_iff.1 h
  obtain ⟨rfl, rfl⟩ := Prod.mk.inj heq
  split at hr
  · cases hr
    refine ⟨rfl, id, fun x hx _ => ?_⟩
    cases hx
    split
    · exact .inr rfl
    · exact .inl rfl
  split at hr
  next hstop =>
    cases hr
    refine ⟨rfl, fun _ hxoff hflush => ?_, fun x hx => by cases hx⟩
    rcases hstop with hstop | hstop
    · exact absurd hstop (by rw [hxoff]; decide)
    · exact absurd hstop (by rw [hflush]; decide)
  next hstop =>
    have hxoff : tyId.writeState.xoff ≠ true := fun hx => hstop (.inl hx)
    split at hr
    · cases hr
      exact ⟨rfl, id, fun x _ hx => absurd hx hxoff⟩
    obtain ⟨ringId, hring, hget⟩ := Option.map_eq_some_iff.1 hr
    split at hget
    next r' hnone =>
      obtain ⟨rfl, rfl⟩ := Prod.mk.inj hget
      refine ⟨rfl, fun _ _ _ hempty => ?_, fun x hx => by cases hx⟩
      have hall := rngElemGet_none (congrArg Prod.snd hnone)
      simp only [isEmpty, hring] at hempty
      rw [hempty] at hall
      cases hall
    next r' c hsome =>
      obtain ⟨rfl, rfl⟩ := Prod.mk.inj hget
      refine ⟨?_, ?_, fun x _ hx => absurd hx hxoff⟩
      · dsimp only
        split <;> rfl
      · intro _ _ _ _
        dsimp only
        split <;> rfl

/-! ## Steps -/

variable {s s' : State} {i : Nat}

theorem Running.of_flushing (h : tyId.writeState.flushingWriteBuffer = true) : Running tyId := by
  intro _ hflush
  rw [h] at hflush
  cases hflush

theorem Running.of_empty (h : isEmpty tyId.writeBuffer = true) : Running tyId := by
  intro _ _ hempty
  rw [h] at hempty
  cases hempty

/-- The end of `FIOSETOPTIONS` clears the flag, if it switches flow control off. -/
theorem tySetTandem_flow (tyId : TyDev) (old : UInt16) :
    (tySetTandem tyId old).writeState.xoff =
        (if hasOpt old OPT_TANDEM && !hasOpt tyId.options OPT_TANDEM then false
          else tyId.writeState.xoff) ∧
      (Running tyId → Running (tySetTandem tyId old)) := by
  unfold tySetTandem
  by_cases hoff : hasOpt old OPT_TANDEM ∧ hasOpt tyId.options OPT_TANDEM = false
  · obtain ⟨hxoff, hrun⟩ := tyWriteXoff_spec (tyReadXoff tyId false) false
    rw [if_pos hoff, if_pos (by simp [hoff.1, hoff.2])]
    exact ⟨hxoff, fun h => hrun ((tyReadXoff_keeps tyId false).running h)⟩
  · rw [if_neg hoff, if_neg (by simpa using hoff)]
    exact ⟨rfl, id⟩

theorem task_flow (h : taskStep s i = some s') :
    s'.dev.writeState.xoff = (if s.switchesOff i then false else s.dev.writeState.xoff) ∧
      (Running s.dev → Running s'.dev) := by
  unfold taskStep at h
  unfold State.switchesOff
  split at h
  next nBytes hold =>
    rw [Option.ite_none_right_eq_some] at h
    obtain rfl := Option.some.inj h.2
    rw [hold]
    exact ⟨rfl, id⟩
  next nBytes hold =>
    rw [hold]
    split at h
    · rw [Option.ite_none_right_eq_some] at h
      obtain rfl := Option.some.inj h.2
      exact ⟨rfl, id⟩
    · obtain ⟨_, rfl⟩ := State.enter_cases h
      exact ⟨rfl, id⟩
  next buffer put hold =>
    rw [hold]
    split at h
    · cases h
      exact ⟨rfl, id⟩
    · rw [Option.ite_none_right_eq_some] at h
      obtain rfl := Option.some.inj h.2
      exact ⟨rfl, id⟩
  next buffer put hold =>
    rw [hold]
    split at h
    · rw [Option.ite_none_right_eq_some] at h
      obtain rfl := Option.some.inj h.2
      exact ⟨rfl, id⟩
    · obtain ⟨_, rfl⟩ := State.enter_cases h
      exact ⟨rfl, id⟩
  next arg hold =>
    cases h
    rw [hold]
    exact ⟨rfl, id⟩
  next old hold =>
    obtain ⟨_, rfl⟩ := State.enter_cases h
    rw [hold]
    exact ⟨rfl, id⟩
  next old hold =>
    cases h
    rw [hold]
    exact tySetTandem_flow s.dev old
  next hold =>
    obtain ⟨_, rfl⟩ := State.enter_cases h
    rw [hold]
    exact ⟨rfl, fun _ => .of_flushing rfl⟩
  next memory size hold =>
    obtain ⟨_, rfl⟩ := State.enter_cases h
    rw [hold]
    exact ⟨rfl, id⟩
  next memory size hold =>
    obtain ⟨_, rfl⟩ := State.enter_cases h
    rw [hold]
    exact ⟨rfl, fun _ => .of_flushing rfl⟩
  next => cases h

theorem ringCreate_empty (memory : Option (Nat → UInt8)) (size : Nat) :
    isEmpty (ringCreate memory size) = true := by
  cases memory with
  | none => rfl
  | some memory => rfl

theorem rngFlush_empty (ringId : RingId) : isEmpty (ringId.map rngFlush) = true := by
  cases ringId with
  | none => rfl
  | some ringId => exact beq_self_eq_true _

theorem owner_flow (h : ownerStep s = some s') :
    s'.dev.writeState.xoff = s.dev.writeState.xoff ∧ (Running s.dev → Running s'.dev) := by
  have hkeeps : ∀ {dev : TyDev}, s'.dev = dev → Keeps s.dev dev →
      s'.dev.writeState.xoff = s.dev.writeState.xoff ∧ (Running s.dev → Running s'.dev) := by
    rintro dev rfl hkeeps
    exact ⟨hkeeps.xoff, hkeeps.running⟩
  unfold ownerStep at h
  split at h
  next => cases h
  next i sec hmutex =>
    cases sec with
    | readBuf nBytes =>
      dsimp only at h
      split at h
      · split at h
        · obtain ⟨ringId, _, rfl⟩ := Option.map_eq_some_iff.1 h
          exact ⟨rfl, id⟩
        · cases h
          exact ⟨rfl, id⟩
      · cases h
        exact ⟨rfl, id⟩
    | readLine | readLeft | writeBuf =>
      cases h
      exact ⟨rfl, id⟩
    | readEnd =>
      cases h
      exact hkeeps rfl (tyReadEnd_keeps s.dev)
    | writeBusy =>
      cases h
      exact hkeeps rfl ⟨rfl, rfl, .inl rfl⟩
    | writeMore =>
      cases h
      refine hkeeps rfl ?_
      split
      · exact ⟨rfl, rfl, .inr ⟨rfl, rfl⟩⟩
      · exact .refl s.dev
    | flushRead old =>
      cases h
      have hread := tyReadXoff_keeps
        { s.dev with
          readBuffer := s.dev.readBuffer.map rngFlush
          readSync := false
          lnNBytes := 0
          lnBytesLeft := 0 } false
      exact hkeeps rfl ⟨hread.xoff, hread.flushing, hread.started⟩
    | flushWrite =>
      cases h
      exact ⟨rfl, fun _ => .of_empty (rngFlush_empty _)⟩
    | rdBufSet memory size =>
      cases h
      exact ⟨rfl, id⟩
    | wrtBufSet memory size =>
      cases h
      exact ⟨rfl, fun _ => .of_empty (ringCreate_empty memory size)⟩

/-! ## Runs -/

theorem FlowInv.step {f f' : Flow} {op : Op} (h : FlowInv f) (hsound : flowSound chars f op = true)
    (hs : flowStep chars f op = some f') : FlowInv f' := by
  obtain ⟨st, hstep, rfl⟩ := Option.map_eq_some_iff.1 hs
  cases op with
  | start request =>
    cases hstep
    cases request <;> exact ⟨h.stopped, h.data, h.running, h.sent⟩
  | task i =>
    obtain ⟨hxoff, hrun⟩ := task_flow hstep
    refine ⟨?_, h.data, hrun h.running, h.sent⟩
    show st.dev.writeState.xoff = true ↔
      (if f.st.switchesOff i then none else f.lastFlow) = some XOFF
    rw [hxoff]
    split
    · simp
    · exact h.stopped
  | owner =>
    obtain ⟨hxoff, hrun⟩ := owner_flow hstep
    refine ⟨?_, h.data, hrun h.running, h.sent⟩
    show st.dev.writeState.xoff = true ↔ f.lastFlow = some XOFF
    rw [hxoff]
    exact h.stopped
  | intRd hookRv c =>
    obtain ⟨⟨dev, status⟩, hrd, rfl⟩ := Option.map_eq_some_iff.1 hstep
    have hsound' : ∀ x, flowChar chars hookRv f.st.dev c = some x →
        x = XOFF ∧ f.st.dev.readState.flushingReadBuffer = false := by
      intro x hx
      rw [flowSound, hx] at hsound
      simpa using hsound
    rcases intRd_flow hrd hsound' with ⟨hflow, hreach, rfl⟩ | ⟨hflow, hkeeps, hreach⟩
    · obtain ⟨hxoff, hrun⟩ := tyWriteXoff_spec f.st.dev true
      refine ⟨?_, ?_, hrun h.running, h.sent⟩
      · show (tyWriteXoff f.st.dev true).writeState.xoff = true ↔
          (flowChar chars hookRv f.st.dev c).or f.lastFlow = some XOFF
        rw [hxoff, hflow]
        simp
      · intro x hx
        simp only [Flow.record, hreach, Option.toList_none, List.append_nil, ite_self] at hx
        exact h.data x hx
    · refine ⟨?_, ?_, hkeeps.running h.running, h.sent⟩
      · show dev.writeState.xoff = true ↔
          (flowChar chars hookRv f.st.dev c).or f.lastFlow = some XOFF
        rw [hkeeps.xoff, hflow]
        exact h.stopped
      · intro x hx
        simp only [Flow.record] at hx
        split at hx
        next htandem =>
          rcases List.mem_append.1 hx with hx | hx
          · exact h.data x hx
          · exact hreach x (Option.mem_toList.1 hx) htandem
        next => exact h.data x hx
  | intTx =>
    obtain ⟨⟨dev, r⟩, htx, rfl⟩ := Option.map_eq_some_iff.1 hstep
    obtain ⟨hxoff, hrun, hsent⟩ := intTx_flow htx
    refine ⟨?_, h.data, hrun h.running, ?_⟩
    · show dev.writeState.xoff = true ↔ f.lastFlow = some XOFF
      rw [hxoff]
      exact h.stopped
    · intro p hp hstop
      simp only [Flow.record] at hp
      rcases List.mem_append.1 hp with hp | hp
      · exact h.sent p hp hstop
      · obtain ⟨x, hx, rfl⟩ := List.mem_map.1 hp
        rw [htx] at hx
        exact hsent x (Option.mem_toList.1 hx) hstop

/-- A device that has just been made. -/
def flowOpened (readMemory writeMemory : Nat → UInt8) (readBufferSize writeBufferSize : Nat) :
    Flow :=
  { st := opened readMemory writeMemory readBufferSize writeBufferSize }

def FlowSound (chars : Chars) (f : Flow) (op : Op) : Prop := flowSound chars f op = true

instance (f : Flow) (op : Op) : Decidable (FlowSound chars f op) :=
  inferInstanceAs (Decidable (_ = true))

/-- A run in which no `XON` is received, and no `XOFF` while the read buffer is flushed. -/
theorem flow_run {readMemory writeMemory : Nat → UInt8} {readBufferSize writeBufferSize : Nat}
    {ops : List Op} {f : Flow}
    (hall : AllSteps (flowStep chars) (FlowSound chars)
      (flowOpened readMemory writeMemory readBufferSize writeBufferSize) ops)
    (hrun : exec (flowStep chars)
      (flowOpened readMemory writeMemory readBufferSize writeBufferSize) ops = some f) :
    FlowInv f := by
  refine exec_invariant_of (I := FlowInv) (fun f op f' h hsound hs => h.step hsound hs) ?_ hall hrun
  exact ⟨iff_of_false Bool.false_ne_true (Option.some_ne_none _).symm,
    fun c hc => absurd hc List.not_mem_nil, .of_empty rfl, fun p hp => absurd hp List.not_mem_nil⟩

/-! ## One device -/

def exampleFlow : Flow := flowOpened exampleMemory exampleMemory 200 30

/-- Flow control is switched on, a byte is written, and characters arrive before each of two
interrupts of the transmitter. -/
def exampleTandem (cs : List UInt8) : List Op :=
  [.start (.setOptions OPT_TANDEM), .task 0, .task 0,
    .start (.write [65]), .task 1, .task 1, .owner, .owner, .owner] ++
  cs.flatMap fun c => [.intRd false c, .intTx]

theorem flow_run_stopped :
    ∃ f, exec (flowStep {}) exampleFlow (exampleTandem [XOFF, 66]) = some f ∧
      f.lastFlow = some XOFF ∧ f.data = [66] ∧ f.sent = [] ∧ FlowInv f := by
  have hall : AllSteps (flowStep {}) (FlowSound {}) exampleFlow (exampleTandem [XOFF, 66]) := by
    decide
  have hfacts : (exec (flowStep {}) exampleFlow (exampleTandem [XOFF, 66])).map (fun f =>
      (f.lastFlow, f.data, f.sent)) = some (some XOFF, [66], []) := by
    decide
  obtain ⟨f, hrun, hf⟩ := Option.map_eq_some_iff.1 hfacts
  obtain ⟨hlast, hf⟩ := Prod.mk.inj hf
  obtain ⟨hdata, hsent⟩ := Prod.mk.inj hf
  exact ⟨f, hrun, hlast, hdata, hsent, flow_run hall hrun⟩

/-- After an `XON` the output is still stopped, the transmitter does not send the byte that waits,
and the `XON` is in the read buffer. -/
theorem not_flow_run :
    ∃ f, exec (flowStep {}) exampleFlow (exampleTandem [XOFF, XON]) = some f ∧
      f.lastFlow = some XON ∧ f.st.dev.writeState.xoff = true ∧
      f.st.dev.writeState.busy = false ∧ held f.st.dev.writeBuffer = [65] ∧
      held f.st.dev.readBuffer = [XON] ∧ ¬ FlowInv f := by
  have hflags : (exec (flowStep {}) exampleFlow (exampleTandem [XOFF, XON])).map (fun f =>
      (f.lastFlow, f.st.dev.writeState.xoff, f.st.dev.writeState.busy)) =
        some (some XON, true, false) := by
    decide
  have hheld : (exec (flowStep {}) exampleFlow (exampleTandem [XOFF, XON])).map (fun f =>
      (held f.st.dev.writeBuffer, held f.st.dev.readBuffer)) = some ([65], [XON]) := by
    decide
  obtain ⟨f, hrun, hf⟩ := Option.map_eq_some_iff.1 hflags
  obtain ⟨hlast, hf⟩ := Prod.mk.inj hf
  obtain ⟨hxoff, hbusy⟩ := Prod.mk.inj hf
  rw [hrun] at hheld
  obtain ⟨hwrite, hread⟩ := Prod.mk.inj (Option.some.inj hheld)
  refine ⟨f, hrun, hlast, hxoff, hbusy, hwrite, hread, fun h => ?_⟩
  have hstop := h.stopped.1 hxoff
  rw [hlast] at hstop
  exact absurd hstop (by decide)

end Vmx.Ty
