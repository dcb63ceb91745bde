import Vmx.Os.TyLine

/-!
# Writers

A writer waits for `writeSync`.  The writer that has it gives it back when it leaves room in the
write buffer; otherwise `tyIntTx` gives it, in the one step that makes the room equal to the
threshold.  So when the semaphore is empty and no writer has taken it, the room is below the
threshold, and the buffer must be as big as that for the step to come.

`FIOWBUFSET` makes room without that step, and does not give the semaphore; `tyFlushWrite` does.
-/

namespace Vmx.Ty

open Lib
open Rng hiding Ring

variable {chars : Chars} {tyId tyId' : TyDev} {c : UInt8} {s s' : State} {op : Op} {i : Nat}

/-! ## The write buffer -/

/-- Bytes are put in the write buffer, or none. -/
structure Filled (tyId tyId' : TyDev) : Prop where
  valid : Valid tyId'.writeBuffer
  capacity : capacity tyId'.writeBuffer = capacity tyId.writeBuffer
  free : freeBytes tyId'.writeBuffer ≤ freeBytes tyId.writeBuffer
  writeSync : tyId'.writeSync = tyId.writeSync
  canceled : tyId'.writeState.canceled = tyId.writeState.canceled

theorem filled_of_after {ringId ringId' : RingId} {bytes : List UInt8} {n k : Nat}
    (h : After ringId ringId' (held ringId ++ bytes) ((ahead ringId).drop n))
    (hvalid : Valid ringId) (hk : bytes.length = k) (hn : min n (ahead ringId).length = k) :
    capacity ringId' = capacity ringId ∧ freeBytes ringId' = freeBytes ringId - k := by
  have hcap := h.capacity_eq
  have hfree := freeBytes_eq h.valid
  rw [h.ahead, List.length_drop] at hfree
  rw [List.length_append, List.length_drop, hk] at hcap
  rw [hcap, hfree, capacity, freeBytes_eq hvalid]
  omega

theorem elemPut_filled {ringId ringId' : RingId} (hvalid : Valid ringId)
    (h : elemPut ringId c = some ringId') :
    Valid ringId' ∧ capacity ringId' = capacity ringId ∧ freeBytes ringId' ≤ freeBytes ringId := by
  obtain ⟨r, rfl, rfl⟩ := Option.map_eq_some_iff.1 h
  have hafter := elemPut_spec (valid_some.1 hvalid) c
  have hlen : ([c].take r.ahead.length).length = min 1 r.ahead.length := by
    rw [List.length_take, Nat.min_comm]
    rfl
  obtain ⟨hcap, hfree⟩ := filled_of_after (n := 1) hafter hvalid hlen rfl
  refine ⟨hafter.valid, hcap, ?_⟩
  rw [hfree]
  omega

theorem bufPut_filled {ringId : RingId} (hvalid : Valid ringId) (bytes : List UInt8) :
    Valid (bufPut ringId bytes).1 ∧ capacity (bufPut ringId bytes).1 = capacity ringId ∧
      freeBytes (bufPut ringId bytes).1 = freeBytes ringId - (bufPut ringId bytes).2 := by
  obtain ⟨hnum, hafter⟩ := bufPut_spec hvalid bytes
  have hlen : (bytes.take (ahead ringId).length).length = (bufPut ringId bytes).2 := by
    rw [List.length_take, hnum, Nat.min_comm]
  obtain ⟨hcap, hfree⟩ := filled_of_after hafter hvalid hlen hnum.symm
  exact ⟨hafter.valid, hcap, hfree⟩

/-- The echo puts bytes in the write buffer. -/
theorem tyEcho_filled (hvalid : Valid tyId.writeBuffer) (h : tyEcho chars tyId c = some tyId') :
    Filled tyId tyId' := by
  have hnone : Filled tyId tyId := ⟨hvalid, rfl, Int.le_refl _, rfl, rfl⟩
  have hecho : ∀ r : Option RingId, (∀ ringId, r = some ringId → Valid ringId ∧
      capacity ringId = capacity tyId.writeBuffer ∧
        freeBytes ringId ≤ freeBytes tyId.writeBuffer) →
      (r.map fun ringId => tyTxStartup { tyId with writeBuffer := ringId }) = some tyId' →
        Filled tyId tyId' := by
    intro r hr hmap
    obtain ⟨ringId, hsome, rfl⟩ := Option.map_eq_some_iff.1 hmap
    obtain ⟨hv, hcap, hfree⟩ := hr ringId hsome
    exact ⟨hv, hcap, hfree, rfl, rfl⟩
  unfold tyEcho at h
  dsimp only at h
  split_ifs at h
  · exact hecho _ (fun ringId hr => elemPut_filled hvalid hr) h
  · refine hecho _ (fun ringId hr => ?_) h
    cases hr
    obtain ⟨hv, hcap, hfree⟩ := bufPut_filled hvalid [8, 32, 8]
    refine ⟨hv, hcap, ?_⟩
    rw [hfree]
    omega
  · cases h
    exact hnone
  · refine hecho _ (fun ringId hr => ?_) h
    obtain ⟨ringId₁, hput₁, hput₂⟩ := Option.bind_eq_some_iff.1 hr
    obtain ⟨hv₁, hcap₁, hfree₁⟩ := elemPut_filled hvalid hput₁
    obtain ⟨hv₂, hcap₂, hfree₂⟩ := elemPut_filled hv₁ hput₂
    exact ⟨hv₂, hcap₂.trans hcap₁, hfree₂.trans hfree₁⟩
  · exact hecho _ (fun ringId hr => elemPut_filled hvalid hr) h
  · exact hecho _ (fun ringId hr => elemPut_filled hvalid hr) h
  · cases h
    exact hnone

/-- A character that arrives. -/
theorem intRd_filled {hookRv : Bool} {status : Int} (hvalid : Valid tyId.writeBuffer)
    (h : tyIntRd chars hookRv tyId c = some (tyId', status)) : Filled tyId tyId' := by
  obtain ⟨_, hsame⟩ | ⟨c', dev, r, _, hecho, hput, hsame⟩ := intRd_cases h
  · refine ⟨?_, ?_, ?_, hsame.writeSync, hsame.canceled⟩
    · rw [hsame.writeBuffer]
      exact hvalid
    · rw [hsame.writeBuffer]
    · rw [hsame.writeBuffer]
  · have hfilled := tyEcho_filled hvalid hecho
    have helse := tyPutChar_else hput
    have hbuffer : tyId'.writeBuffer = dev.writeBuffer :=
      hsame.writeBuffer.trans helse.writeBuffer
    refine ⟨?_, ?_, ?_, (hsame.writeSync.trans helse.writeSync).trans hfilled.writeSync,
      (hsame.canceled.trans helse.canceled).trans hfilled.canceled⟩
    · rw [hbuffer]
      exact hfilled.valid
    · rw [hbuffer]
      exact hfilled.capacity
    · rw [hbuffer]
      exact hfilled.free

/-- The transmitter takes no byte, or takes one and gives `writeSync` at the threshold. -/
theorem intTx_cases {r : Int × Option UInt8} (hvalid : Valid tyId.writeBuffer)
    (h : tyIntTx tyId = some (tyId', r)) :
    tyId'.writeState.canceled = tyId.writeState.canceled ∧
    tyId'.writeState.xoff = tyId.writeState.xoff ∧
    tyId'.writeState.flushingWriteBuffer = tyId.writeState.flushingWriteBuffer ∧
    (tyId'.writeBuffer = tyId.writeBuffer ∧ tyId'.writeSync = tyId.writeSync ∨
      Valid tyId'.writeBuffer ∧ capacity tyId'.writeBuffer = capacity tyId.writeBuffer ∧
        freeBytes tyId'.writeBuffer = freeBytes tyId.writeBuffer + 1 ∧
        tyId'.writeSync =
          (tyId.writeSync || decide (freeBytes tyId'.writeBuffer = tyWriteTreshold))) := by
  obtain ⟨⟨tyId₁, pc⟩, hr, heq⟩ := Option.map_eq_some_iff.1 h
  obtain ⟨rfl, _⟩ := Prod.mk.inj heq
  split at hr
  · cases hr
    exact ⟨rfl, rfl, rfl, .inl ⟨rfl, rfl⟩⟩
  split at hr
  · cases hr
    exact ⟨rfl, rfl, rfl, .inl ⟨rfl, rfl⟩⟩
  split at hr
  · cases hr
    exact ⟨rfl, rfl, rfl, .inl ⟨rfl, rfl⟩⟩
  obtain ⟨ringId, hring, hget⟩ := Option.map_eq_some_iff.1 hr
  split at hget
  · obtain ⟨rfl, _⟩ := Prod.mk.inj hget
    exact ⟨rfl, rfl, rfl, .inl ⟨rfl, rfl⟩⟩
  next ringId' b hsome =>
    obtain ⟨rfl, _⟩ := Prod.mk.inj hget
    rw [hring] at hvalid
    have hv := valid_some.1 hvalid
    obtain ⟨hhead, junk, hafter⟩ := elemGet_spec hv
    rw [hsome] at hhead hafter
    -- a byte was held, and the room grows by one
    have hheld : ringId.held.length = ringId.held.tail.length + 1 := by
      cases hl : ringId.held with
      | nil =>
        rw [hl] at hhead
        exact absurd hhead (Option.some_ne_none _)
      | cons a l => rfl
    obtain ⟨h', hsize, _⟩ := step_refines .elemGet hv rfl
    rw [hsome] at h' hsize
    have hcap : capacity (some ringId') = capacity (some ringId) := by
      rw [capacity_some h', capacity_some hv, hsize]
    have hfree : freeBytes (some ringId') = freeBytes (some ringId) + 1 := by
      have hfree' : freeBytes (some ringId') = (ahead (some ringId')).length :=
        freeBytes_eq hafter.valid
      have hheld' : held (some ringId') = ringId.held.tail := hafter.held
      rw [capacity, capacity, hheld', held_some] at hcap
      rw [hfree', freeBytes_eq hvalid]
      omega
    dsimp only
    rw [hring]
    split
    next hat =>
      refine ⟨rfl, rfl, rfl, .inr ⟨hafter.valid, hcap, hfree, ?_⟩⟩
      have hat' : freeBytes (some ringId') = tyWriteTreshold := hat
      rw [decide_eq_true hat', Bool.or_true]
    next hat =>
      refine ⟨rfl, rfl, rfl, .inr ⟨hafter.valid, hcap, hfree, ?_⟩⟩
      have hat' : ¬ freeBytes (some ringId') = tyWriteTreshold := hat
      rw [decide_eq_false hat', Bool.or_false]

/-! ## The semaphore -/

def Call.synced : Call → Bool
  | .writeSynced _ _ => true
  | _ => false

def Section.writer : Section → Bool
  | .writeBuf _ _ | .writeBusy _ _ | .writeMore _ _ => true
  | _ => false

/-- A writer has taken `writeSync`. -/
def taking (s : State) : Bool :=
  s.calls.any Call.synced || (s.mutex.map fun m => m.2.writer).getD false

/-- When `writeSync` is empty and no writer has taken it, the room is below the threshold. -/
structure WriteInv (s : State) : Prop where
  owned : Owned s
  valid : Valid s.dev.writeBuffer
  canceled : s.dev.writeState.canceled = false
  token : s.dev.writeSync = false → taking s = false →
    freeBytes s.dev.writeBuffer < tyWriteTreshold ∧ tyWriteTreshold ≤ capacity s.dev.writeBuffer

/-- A writer that fills the buffer has one that is at least as big as the threshold, and the
buffer is replaced only when `writeSync` is full or a writer has taken it. -/
def writeSound (s : State) : Op → Bool
  | .owner =>
    match s.mutex with
    | some (_, .writeMore _ _) =>
      decide (0 < freeBytes s.dev.writeBuffer) || s.dev.writeSync || s.calls.any Call.synced ||
        decide (tyWriteTreshold ≤ capacity s.dev.writeBuffer)
    | some (_, .wrtBufSet _ _) => s.dev.writeSync || s.calls.any Call.synced
    | _ => true
  | _ => true

theorem quiet_synced {call : Call} (h : call.quiet = true) : call.synced = false := by
  unfold Call.quiet at h
  split at h <;> simp_all [Call.synced]

/-- Nothing changes for the writers. -/
theorem WriteInv.of_same (h : WriteInv s) (howned : Owned s')
    (hbuffer : s'.dev.writeBuffer = s.dev.writeBuffer) (hsync : s'.dev.writeSync = s.dev.writeSync)
    (hcanceled : s'.dev.writeState.canceled = s.dev.writeState.canceled)
    (htaking : taking s' = taking s) : WriteInv s' := by
  refine ⟨howned, ?_, hcanceled.trans h.canceled, ?_⟩
  · rw [hbuffer]
    exact h.valid
  · rw [hsync, hbuffer, htaking]
    exact h.token

theorem WriteInv.task (h : WriteInv s) (hs : taskStep s i = some s') : WriteInv s' := by
  have howned := owned_task h.owned hs
  cases taskStep_cases hs with
  | quiet hold hq hq' hdev =>
    exact h.of_same howned hdev.writeBuffer hdev.writeSync hdev.canceled
      (congrArg (· || _) (any_set hold ((quiet_synced hq').trans (quiet_synced hq).symm)))
  | canceled hold hcanceled =>
    rw [h.canceled] at hcanceled
    exact absurd hcanceled Bool.false_ne_true
  | setOptions hold =>
    refine h.of_same howned rfl rfl rfl (congrArg (· || _) (any_set hold ?_))
    split <;> rfl
  | takeSync hold =>
    refine ⟨howned, h.valid, h.canceled, fun _ htaking => ?_⟩
    have hany := (Bool.or_eq_false_iff.1 htaking).1
    exact absurd (List.any_eq_true.2
      ⟨_, List.mem_set (List.getElem?_eq_some_iff.1 hold).1 _, rfl⟩) (Bool.eq_false_iff.1 hany)
  | @enter dev sec hold hentry hfree hdev =>
    refine h.of_same howned hdev.writeBuffer hdev.writeSync hdev.canceled ?_
    show ((s.calls.set i .inside).any Call.synced || sec.writer) = taking s
    rw [taking, hfree]
    show _ = (s.calls.any Call.synced || false)
    have hsec : sec.entry.synced = sec.writer := by
      cases sec <;> first | rfl | exact absurd rfl hentry
    rw [Bool.or_false]
    cases hw : sec.writer with
    | false => rw [Bool.or_false, any_set hold (hsec.trans hw).symm]
    | true =>
      rw [Bool.or_true]
      exact (List.any_eq_true.2 ⟨_, List.mem_of_getElem? hold, hsec.trans hw⟩).symm

/-- A call that gives the mutex back, and was no writer. -/
theorem WriteInv.leave {sec : Section} {dev : TyDev} {call : Call} (h : WriteInv s)
    (hmutex : s.mutex = some (i, sec)) (hsec : sec.writer = false) (hcall : call.synced = false)
    (hbuffer : dev.writeBuffer = s.dev.writeBuffer) (hsync : dev.writeSync = s.dev.writeSync)
    (hcanceled : dev.writeState.canceled = s.dev.writeState.canceled) :
    WriteInv (s.leave i dev call) := by
  refine h.of_same (fun j sec' hj => absurd hj (Option.some_ne_none _).symm) hbuffer hsync
    hcanceled ?_
  have hany := any_set (f := Call.synced) (h.owned i sec hmutex) hcall
  rw [taking, taking, hmutex]
  show ((s.calls.set i call).any Call.synced || false) = (s.calls.any Call.synced || sec.writer)
  rw [hany, hsec]

/-- The read buffer is emptied; that is nothing to the writers. -/
theorem WriteInv.emptied (h : WriteInv s) : WriteInv s.emptied :=
  ⟨h.owned, h.valid, h.canceled, h.token⟩

theorem WriteInv.owner (h : WriteInv s) (hsound : writeSound s .owner = true)
    (hs : ownerStep s = some s') : WriteInv s' := by
  have howned := owned_owner h.owned hs
  unfold ownerStep at hs
  split at hs
  next => exact absurd hs (Option.some_ne_none _).symm
  next i sec hmutex =>
    have htaking : taking s = (s.calls.any Call.synced || sec.writer) := by
      rw [taking, hmutex]
      rfl
    rw [writeSound, hmutex] at hsound
    -- the call that gives the mutex back is not one that waits for it
    have hany : ∀ call : Call, call.synced = false →
        (s.calls.set i call).any Call.synced = s.calls.any Call.synced :=
      fun call hcall => any_set (h.owned i sec hmutex) hcall
    cases sec with
    | readBuf nBytes =>
      dsimp only at hs
      split at hs
      · split at hs
        · obtain ⟨ringId, _, rfl⟩ := Option.map_eq_some_iff.1 hs
          exact h.of_same howned rfl rfl rfl htaking.symm
        · cases hs
          exact h.of_same howned rfl rfl rfl htaking.symm
      · cases hs
        exact h.of_same howned rfl rfl rfl htaking.symm
    | readLine nBytes =>
      cases hs
      exact h.of_same howned rfl rfl rfl htaking.symm
    | readLeft n =>
      cases hs
      exact h.of_same howned rfl rfl rfl htaking.symm
    | readEnd =>
      cases hs
      have hdev := tyReadEnd_same s.dev
      exact h.leave hmutex rfl rfl hdev.writeBuffer hdev.writeSync hdev.canceled
    | writeBuf buffer put =>
      cases hs
      exact h.of_same howned rfl rfl rfl htaking.symm
    | writeBusy buffer put =>
      cases hs
      obtain ⟨hvalid, _⟩ := bufPut_filled h.valid (buffer.drop put)
      refine ⟨howned, hvalid, h.canceled, fun _ hf => ?_⟩
      exact absurd (Bool.or_eq_false_iff.1 hf).2.symm Bool.false_ne_true
    | writeMore buffer put =>
      cases hs
      by_cases hfree : 0 < freeBytes s.dev.writeBuffer
      · -- the writer leaves room, and gives the semaphore
        rw [if_pos hfree] at howned ⊢
        exact ⟨howned, h.valid, h.canceled, fun hf => absurd hf.symm Bool.false_ne_true⟩
      · rw [if_neg hfree] at howned ⊢
        refine ⟨howned, h.valid, h.canceled, fun hf hnone => ?_⟩
        have hsynced : s.calls.any Call.synced = false :=
          (hany (.write buffer put) rfl).symm.trans (Bool.or_eq_false_iff.1 hnone).1
        have hsync : s.dev.writeSync = false := hf
        dsimp only at hsound
        rw [hsync, hsynced, decide_eq_false hfree] at hsound
        refine ⟨?_, of_decide_eq_true hsound⟩
        show freeBytes s.dev.writeBuffer < 20
        omega
    | flushRead old =>
      cases hs
      have hdev := tyReadXoff_same { s.dev with
        readBuffer := s.dev.readBuffer.map rngFlush
        readSync := false
        lnNBytes := 0
        lnBytesLeft := 0 } false
      refine h.emptied.leave hmutex rfl ?_ hdev.writeBuffer hdev.writeSync hdev.canceled
      cases old <;> rfl
    | flushWrite =>
      cases hs
      exact ⟨howned, (flush_spec h.valid).1, h.canceled,
        fun hf => absurd hf.symm Bool.false_ne_true⟩
    | rdBufSet memory size =>
      cases hs
      exact h.emptied.leave hmutex rfl rfl rfl rfl rfl
    | wrtBufSet memory size =>
      cases hs
      refine ⟨howned, (ringCreate_spec memory size).1, h.canceled, fun hf hnone => ?_⟩
      have hsynced : s.calls.any Call.synced = false :=
        (hany .done rfl).symm.trans (Bool.or_eq_false_iff.1 hnone).1
      have hsync : s.dev.writeSync = false := hf
      dsimp only at hsound
      rw [hsync, hsynced] at hsound
      exact absurd hsound Bool.false_ne_true

theorem WriteInv.step (h : WriteInv s) (hsound : writeSound s op = true)
    (hs : step chars s op = some s') : WriteInv s' := by
  have howned := owned_step h.owned hs
  cases op with
  | start request =>
    cases hs
    have hcall : request.call.synced = false := by cases request <;> rfl
    have hcanceled : (startStep s request).dev.writeState.canceled = s.dev.writeState.canceled := by
      cases request <;> first | rfl | exact h.canceled.symm
    refine h.of_same howned ?_ ?_ hcanceled ?_
    · cases request <;> rfl
    · cases request <;> rfl
    · show ((s.calls ++ [request.call]).any Call.synced || _) = taking s
      rw [List.any_append, List.any_cons, hcall, List.any_nil, Bool.or_self, Bool.or_false]
      rfl
  | task i => exact h.task hs
  | owner => exact h.owner hsound hs
  | intRd hookRv c =>
    obtain ⟨⟨dev, status⟩, hrd, rfl⟩ := Option.map_eq_some_iff.1 hs
    obtain ⟨hcalls, hmutex, _⟩ := s.edit_calls chars hookRv c
    have hfilled := intRd_filled h.valid hrd
    refine ⟨howned, hfilled.valid, hfilled.canceled.trans h.canceled, fun hf hnone => ?_⟩
    have hnone' : taking s = false := by
      rw [taking, hcalls, hmutex] at hnone
      exact hnone
    obtain ⟨hlt, hcap⟩ := h.token (hfilled.writeSync.symm.trans hf) hnone'
    have hle := hfilled.free
    dsimp only
    rw [hfilled.capacity]
    exact ⟨lt_of_le_of_lt hle hlt, hcap⟩
  | intTx =>
    obtain ⟨⟨dev, r⟩, htx, rfl⟩ := Option.map_eq_some_iff.1 hs
    obtain ⟨hcanceled, _, _, ⟨hbuffer, hsync⟩ | ⟨hvalid, hcap, hfree, hsync⟩⟩ :=
      intTx_cases h.valid htx
    · exact h.of_same howned hbuffer hsync hcanceled rfl
    · refine ⟨howned, hvalid, hcanceled.trans h.canceled, fun hf hnone => ?_⟩
      -- the room has grown by one, and not to the threshold
      have hempty := Bool.or_eq_false_iff.1 (hsync.symm.trans hf)
      obtain ⟨hlt, hbig⟩ := h.token hempty.1 hnone
      have hne := of_decide_eq_false hempty.2
      dsimp only
      rw [hcap]
      exact ⟨by omega, hbig⟩

/-! ## The bytes that were put -/

/-- The bytes that a call has put in the write buffer. -/
def bytesOf (puts : List (Nat × UInt8)) (i : Nat) : List UInt8 :=
  (puts.filter fun p => p.1 = i).map Prod.snd

theorem bytesOf_append (puts puts' : List (Nat × UInt8)) (i : Nat) :
    bytesOf (puts ++ puts') i = bytesOf puts i ++ bytesOf puts' i := by
  simp [bytesOf]

theorem bytesOf_self (bytes : List UInt8) (i : Nat) :
    bytesOf (bytes.map fun c => (i, c)) i = bytes := by
  simp [bytesOf, List.filter_map, Function.comp_def]

theorem bytesOf_ne {i j : Nat} (bytes : List UInt8) (h : i ≠ j) :
    bytesOf (bytes.map fun c => (i, c)) j = [] := by
  simp [bytesOf, List.filter_map, Function.comp_def, h]

/-- The buffer of a write, and how many bytes of it are in the write buffer. -/
def Call.progress : Call → Option (List UInt8 × Nat)
  | .write buffer put | .writeSynced buffer put => some (buffer, put)
  | .wrote buffer => some (buffer, buffer.length)
  | _ => none

def Section.progress : Section → Option (List UInt8 × Nat)
  | .writeBuf buffer put | .writeBusy buffer put | .writeMore buffer put => some (buffer, put)
  | _ => none

/-- The first `put` bytes of a buffer are those that call `i` has put, in order. -/
def Progress (s : State) (i : Nat) (buffer : List UInt8) (put : Nat) : Prop :=
  put ≤ buffer.length ∧ bytesOf s.puts i = buffer.take put

structure PutsInv (s : State) : Prop where
  calls : ∀ i call buffer put, s.calls[i]? = some call → call.progress = some (buffer, put) →
    Progress s i buffer put
  owner : ∀ i sec buffer put, s.mutex = some (i, sec) → sec.progress = some (buffer, put) →
    Progress s i buffer put
  unused : ∀ i, s.calls.length ≤ i → bytesOf s.puts i = []

theorem set_cases {l : List Call} {j : Nat} {call x : Call} (h : (l.set i call)[j]? = some x) :
    j = i ∧ x = call ∨ j ≠ i ∧ l[j]? = some x := by
  by_cases hij : i = j
  · subst hij
    obtain ⟨hlt, heq⟩ := List.getElem?_eq_some_iff.1 h
    rw [List.getElem_set_self] at heq
    exact .inl ⟨rfl, heq.symm⟩
  · rw [List.getElem?_set_ne hij] at h
    exact .inr ⟨fun heq => hij heq.symm, h⟩

/-- One call and the owner of the mutex change, and nothing is put. -/
theorem PutsInv.of_set {call : Call} (h : PutsInv s) (hputs : s'.puts = s.puts)
    (hcalls : s'.calls = s.calls.set i call)
    (hcall : ∀ buffer put, call.progress = some (buffer, put) → Progress s i buffer put)
    (howner : ∀ j sec buffer put, s'.mutex = some (j, sec) → sec.progress = some (buffer, put) →
      Progress s j buffer put) : PutsInv s' := by
  refine ⟨fun j x buffer put hj hx => ?_, fun j sec buffer put hj hx => ?_, fun j hj => ?_⟩
  · unfold Progress
    rw [hcalls] at hj
    rw [hputs]
    obtain ⟨rfl, rfl⟩ | ⟨_, hold⟩ := set_cases hj
    · exact hcall buffer put hx
    · exact h.calls j x buffer put hold hx
  · unfold Progress
    rw [hputs]
    exact howner j sec buffer put hj hx
  · rw [hcalls, List.length_set] at hj
    rw [hputs]
    exact h.unused j hj

theorem PutsInv.task (h : PutsInv s) (hs : taskStep s i = some s') : PutsInv s' := by
  cases taskStep_cases hs with
  | @quiet old call dev hold hq hq' hdev hwrite hwrote =>
    refine h.of_set rfl rfl (fun buffer put hp => ?_) h.owner
    cases call with
    | write buffer' put' => exact absurd rfl (hwrite buffer' put')
    | wrote buffer' =>
      obtain ⟨put', rfl, hle⟩ := hwrote buffer' rfl
      obtain ⟨hle', hbytes⟩ := h.calls i _ buffer' put' hold rfl
      obtain ⟨rfl, rfl⟩ := Prod.mk.inj (Option.some.inj hp)
      obtain rfl : put' = buffer'.length := by omega
      exact ⟨Nat.le_refl _, hbytes⟩
    | writeSynced buffer' put' => exact absurd hq' Bool.false_ne_true
    | _ => exact absurd hp (Option.some_ne_none _).symm
  | canceled hold =>
    exact h.of_set rfl rfl (fun _ _ hp => absurd hp (Option.some_ne_none _).symm) h.owner
  | setOptions hold =>
    refine h.of_set rfl rfl (fun _ _ hp => ?_) h.owner
    split at hp
    · exact absurd hp (Option.some_ne_none _).symm
    · exact absurd hp (Option.some_ne_none _).symm
  | takeSync hold =>
    refine h.of_set rfl rfl (fun buffer' put' hp => ?_) h.owner
    exact h.calls i _ buffer' put' hold hp
  | @enter dev sec hold hentry hfree hdev =>
    show PutsInv { s with
      dev := dev, mutex := some (i, sec), calls := s.calls.set i .inside }
    refine h.of_set rfl rfl
      (fun _ _ hp => absurd hp (Option.some_ne_none _).symm) (fun j sec' buffer put hj hp => ?_)
    cases hj
    refine h.calls i _ buffer put hold ?_
    cases sec <;> first | exact hp | exact absurd rfl hentry

/-- The mutex stays with a call, and nothing is put. -/
theorem PutsInv.of_owner {sec : Section} (h : PutsInv s) (hputs : s'.puts = s.puts)
    (hcalls : s'.calls = s.calls) (hmutex : s'.mutex = some (i, sec))
    (hsec : ∀ buffer put, sec.progress = some (buffer, put) → Progress s i buffer put) :
    PutsInv s' := by
  refine ⟨fun j x buffer put hj hx => ?_, fun j sec' buffer put hj hx => ?_, fun j hj => ?_⟩
  · unfold Progress
    rw [hcalls] at hj
    rw [hputs]
    exact h.calls j x buffer put hj hx
  · unfold Progress
    rw [hmutex] at hj
    cases hj
    rw [hputs]
    exact hsec buffer put hx
  · rw [hcalls] at hj
    rw [hputs]
    exact h.unused j hj

/-- The call that has the mutex puts the bytes for which there is room. -/
theorem PutsInv.put {buffer : List UInt8} {put n : Nat} {dev : TyDev} (h : PutsInv s)
    (howned : Owned s) (hmutex : s.mutex = some (i, .writeBusy buffer put))
    (hn : n ≤ (buffer.drop put).length) :
    PutsInv { s with
      dev := dev
      mutex := some (i, .writeMore buffer (put + n))
      puts := s.puts ++ ((buffer.drop put).take n).map fun c => (i, c) } := by
  have hinside := howned i _ hmutex
  obtain ⟨hle, hbytes⟩ := h.owner i _ buffer put hmutex rfl
  have hother : ∀ j, j ≠ i →
      bytesOf (s.puts ++ ((buffer.drop put).take n).map fun c => (i, c)) j = bytesOf s.puts j := by
    intro j hj
    rw [bytesOf_append, bytesOf_ne _ hj.symm, List.append_nil]
  refine ⟨fun j x buffer' put' hj hx => ?_, fun j sec buffer' put' hj hx => ?_, fun j hj => ?_⟩
  · have hne : j ≠ i := by
      rintro rfl
      obtain rfl := Option.some.inj (hinside.symm.trans hj)
      exact absurd hx (Option.some_ne_none _).symm
    unfold Progress
    dsimp only
    rw [hother j hne]
    exact h.calls j x buffer' put' hj hx
  · cases hj
    cases hx
    rw [List.length_drop] at hn
    refine ⟨by omega, ?_⟩
    dsimp only
    rw [bytesOf_append, bytesOf_self, hbytes, List.take_add]
  · have hne : j ≠ i := by
      rintro rfl
      have hlt := (List.getElem?_eq_some_iff.1 hinside).1
      exact absurd hj (by
        dsimp only
        omega)
    dsimp only
    rw [hother j hne]
    exact h.unused j hj

theorem PutsInv.owner_step (h : PutsInv s) (howned : Owned s) (hvalid : Valid s.dev.writeBuffer)
    (hs : ownerStep s = some s') : PutsInv s' := by
  unfold ownerStep at hs
  split at hs
  next => exact absurd hs (Option.some_ne_none _).symm
  next i sec hmutex =>
    have hnone : ∀ {α : Type} {x : α}, (none : Option α) = some x → False :=
      fun hx => absurd hx (Option.some_ne_none _).symm
    -- a call that is over gives the mutex back
    have hleave : ∀ (call : Call), call.progress = none → s'.puts = s.puts →
        s'.calls = s.calls.set i call → s'.mutex = none → PutsInv s' := by
      intro call hcall hputs hcalls hfree
      refine h.of_set hputs hcalls (fun _ _ hp => ?_) (fun j sec' _ _ hj => ?_)
      · rw [hcall] at hp
        exact (hnone hp).elim
      · rw [hfree] at hj
        exact (hnone hj).elim
    cases sec with
    | readBuf nBytes =>
      dsimp only at hs
      split at hs
      · split at hs
        · obtain ⟨ringId, _, rfl⟩ := Option.map_eq_some_iff.1 hs
          exact h.of_owner rfl rfl rfl fun _ _ hp => (hnone hp).elim
        · cases hs
          exact h.of_owner rfl rfl rfl fun _ _ hp => (hnone hp).elim
      · cases hs
        exact h.of_owner rfl rfl rfl fun _ _ hp => (hnone hp).elim
    | readLine nBytes =>
      cases hs
      exact h.of_owner rfl rfl rfl fun _ _ hp => (hnone hp).elim
    | readLeft n =>
      cases hs
      exact h.of_owner rfl rfl rfl fun _ _ hp => (hnone hp).elim
    | readEnd =>
      cases hs
      exact hleave _ rfl rfl rfl rfl
    | writeBuf buffer put =>
      cases hs
      exact h.of_owner rfl rfl rfl fun buffer' put' hp => h.owner i _ buffer' put' hmutex hp
    | writeBusy buffer put =>
      cases hs
      refine h.put howned hmutex ?_
      rw [(bufPut_spec hvalid _).1]
      exact Nat.min_le_left ..
    | writeMore buffer put =>
      cases hs
      exact h.of_set rfl rfl (fun buffer' put' hp => h.owner i _ buffer' put' hmutex hp)
        (fun j sec' _ _ hj => (hnone hj).elim)
    | flushRead old =>
      cases hs
      have hcall : ((old.map Call.setTandem).getD .done).progress = none := by cases old <;> rfl
      exact hleave _ hcall rfl rfl rfl
    | flushWrite =>
      cases hs
      exact hleave _ rfl rfl rfl rfl
    | rdBufSet memory size =>
      cases hs
      exact hleave _ rfl rfl rfl rfl
    | wrtBufSet memory size =>
      cases hs
      exact hleave _ rfl rfl rfl rfl

theorem PutsInv.step (h : PutsInv s) (howned : Owned s) (hvalid : Valid s.dev.writeBuffer)
    (hs : step chars s op = some s') : PutsInv s' := by
  cases op with
  | start request =>
    cases hs
    refine ⟨fun j x buffer put hj hx => ?_, h.owner, fun j hj => ?_⟩
    · by_cases hlt : j < s.calls.length
      · have hold : s.calls[j]? = some x := (List.getElem?_append_left hlt).symm.trans hj
        exact h.calls j x buffer put hold hx
      · obtain rfl : x = request.call := by
          have hmem := (List.getElem?_append_right (Nat.le_of_not_lt hlt)).symm.trans hj
          obtain ⟨hzero, heq⟩ := List.getElem?_eq_some_iff.1 hmem
          rw [List.length_singleton] at hzero
          rw [List.getElem_singleton] at heq
          exact heq.symm
        have hempty : bytesOf s.puts j = [] := h.unused j (Nat.le_of_not_lt hlt)
        cases request with
        | write buffer' =>
          cases hx
          exact ⟨Nat.zero_le _, hempty⟩
        | _ => exact absurd hx (Option.some_ne_none _).symm
    · have hlen : (s.calls ++ [request.call]).length ≤ j := hj
      rw [List.length_append] at hlen
      exact h.unused j (by omega)
  | task i => exact h.task hs
  | owner => exact h.owner_step howned hvalid hs
  | intRd hookRv c =>
    obtain ⟨r, _, rfl⟩ := Option.map_eq_some_iff.1 hs
    obtain ⟨hcalls, hmutex, _, hputs⟩ := s.edit_calls chars hookRv c
    refine ⟨fun j x buffer put hj hx => ?_, fun j sec buffer put hj hx => ?_, fun j hj => ?_⟩
    · unfold Progress
      dsimp only at hj ⊢
      rw [hcalls] at hj
      rw [hputs]
      exact h.calls j x buffer put hj hx
    · unfold Progress
      dsimp only at hj ⊢
      rw [hmutex] at hj
      rw [hputs]
      exact h.owner j sec buffer put hj hx
    · dsimp only at hj ⊢
      rw [hcalls] at hj
      rw [hputs]
      exact h.unused j hj
  | intTx =>
    obtain ⟨r, _, rfl⟩ := Option.map_eq_some_iff.1 hs
    exact ⟨h.calls, h.owner, h.unused⟩

/-! ## A writer goes on -/

/-- The condition of `writers_go_on` on a step. -/
def WriteSound (s : State) (op : Op) : Prop := writeSound s op = true

instance (s : State) (op : Op) : Decidable (WriteSound s op) :=
  inferInstanceAs (Decidable (writeSound s op = true))

/-- Sound steps of the transmitter, of call `i` and of the owner of the mutex. -/
def Goes (chars : Chars) (i : Nat) (s s' : State) : Prop :=
  ∃ ops, (∀ op ∈ ops, op = .intTx ∨ op = .task i ∨ op = .owner) ∧
    AllSteps (step chars) WriteSound s ops ∧ exec (step chars) s ops = some s'

theorem Goes.refl (s : State) : Goes chars i s s :=
  ⟨[], fun _ h => absurd h List.not_mem_nil, trivial, rfl⟩

theorem Goes.cons {s'' : State} (hop : op = .intTx ∨ op = .task i ∨ op = .owner)
    (hsound : writeSound s op = true) (hs : step chars s op = some s') (h : Goes chars i s' s'') :
    Goes chars i s s'' := by
  obtain ⟨ops, hops, hall, hexec⟩ := h
  refine ⟨op :: ops, List.forall_mem_cons.2 ⟨hop, hops⟩, ⟨hsound, ?_⟩, exec_cons.2 ⟨s', hs, hexec⟩⟩
  rw [hs]
  exact hall

theorem Goes.trans {s'' : State} (h : Goes chars i s s') (h' : Goes chars i s' s'') :
    Goes chars i s s'' := by
  obtain ⟨ops, hops, hall, hexec⟩ := h
  induction ops generalizing s with
  | nil =>
    cases hexec
    exact h'
  | cons op ops ih =>
    obtain ⟨s₁, hs, hexec⟩ := exec_cons.1 hexec
    obtain ⟨hop, hops⟩ := List.forall_mem_cons.1 hops
    obtain ⟨hsound, hall⟩ := allSteps_cons hall hs
    exact .cons hop hsound hs (ih hops hall hexec)

/-- The transmitter runs, no call has the mutex, and no writer has taken the semaphore. -/
structure Ready (s : State) : Prop where
  inv : WriteInv s
  free : s.mutex = none
  synced : s.calls.any Call.synced = false
  xoff : s.dev.writeState.xoff = false
  flushing : s.dev.writeState.flushingWriteBuffer = false
  big : tyWriteTreshold ≤ capacity s.dev.writeBuffer

/-- A step of the transmitter that leaves the write buffer as it is. -/
theorem Ready.of_tx {dev : TyDev} {r : Int × Option UInt8} (h : Ready s)
    (htx : tyIntTx s.dev = some (dev, r)) : Ready { s with dev := dev } := by
  have hstep : step {} s .intTx = some { s with dev := dev } := by
    rw [step, htx]
    rfl
  obtain ⟨_, hxoff, hflushing, ⟨hbuffer, _⟩ | ⟨_, hcap, _⟩⟩ := intTx_cases h.inv.valid htx
  · refine ⟨h.inv.step rfl hstep, h.free, h.synced, hxoff.trans h.xoff,
      hflushing.trans h.flushing, ?_⟩
    dsimp only
    rw [hbuffer]
    exact h.big
  · refine ⟨h.inv.step rfl hstep, h.free, h.synced, hxoff.trans h.xoff,
      hflushing.trans h.flushing, ?_⟩
    dsimp only
    rw [hcap]
    exact h.big

/-- The state after a byte was taken. -/
def Taken (chars : Chars) (i : Nat) (s s' : State) : Prop :=
  Goes chars i s s' ∧ Ready s' ∧ s'.calls = s.calls ∧
    freeBytes s'.dev.writeBuffer = freeBytes s.dev.writeBuffer + 1 ∧
    s'.dev.writeSync =
      (s.dev.writeSync || decide (freeBytes s'.dev.writeBuffer = tyWriteTreshold))

/-- A step of the transmitter that takes no byte comes before one that does. -/
theorem Taken.after {dev : TyDev} {r : Int × Option UInt8}
    (htx : tyIntTx s.dev = some (dev, r)) (hbuffer : dev.writeBuffer = s.dev.writeBuffer)
    (hsync : dev.writeSync = s.dev.writeSync) (h : Taken chars i { s with dev := dev } s') :
    Taken chars i s s' := by
  have hstep : step chars s .intTx = some { s with dev := dev } := by
    rw [step, htx]
    rfl
  obtain ⟨hgoes, hready, hcalls, hfree, hsync'⟩ := h
  refine ⟨.cons (.inl rfl) rfl hstep hgoes, hready, hcalls, ?_, ?_⟩
  · rw [hfree]
    dsimp only
    rw [hbuffer]
  · rw [hsync']
    dsimp only
    rw [hsync]

/-- The transmitter takes a byte of the write buffer. -/
theorem Ready.take_next (chars : Chars) (i : Nat) (h : Ready s) (hheld : held s.dev.writeBuffer ≠ [])
    (hpending : s.dev.readState.pending = false) (hcr : s.dev.writeState.cr = false) :
    ∃ s', Taken chars i s s' := by
  obtain ⟨ringId, hring⟩ : ∃ ringId, s.dev.writeBuffer = some ringId := by
    cases hb : s.dev.writeBuffer with
    | none =>
      rw [hb] at hheld
      exact absurd held_none hheld
    | some ringId => exact ⟨ringId, rfl⟩
  have hvalid := h.inv.valid
  rw [hring] at hvalid hheld
  obtain ⟨hhead, _⟩ := elemGet_spec (valid_some.1 hvalid)
  obtain ⟨b, hb⟩ : ∃ b, (rngElemGet ringId).2 = some b := by
    cases hl : ringId.held with
    | nil => exact absurd hl hheld
    | cons b l =>
      rw [hl] at hhead
      exact ⟨b, hhead⟩
  obtain ⟨dev, r, htx, hchanged⟩ : ∃ dev r, tyIntTx s.dev = some (dev, r) ∧
      dev.writeBuffer = some (rngElemGet ringId).1 := by
    unfold tyIntTx
    rw [if_neg (by rw [hpending]; exact Bool.false_ne_true),
      if_neg (by rw [h.xoff, h.flushing]; simp), if_neg (by rw [hcr]; exact Bool.false_ne_true),
      hring, Option.map_some]
    split
    next hnone =>
      rw [hnone] at hb
      exact absurd hb (Option.some_ne_none _).symm
    next ringId' c hsome =>
      refine ⟨_, _, rfl, ?_⟩
      rw [hsome]
      dsimp only
      split
      · rfl
      · rfl
  have hstep : step chars s .intTx = some { s with dev := dev } := by
    rw [step, htx]
    rfl
  refine ⟨{ s with dev := dev }, .cons (.inl rfl) rfl hstep (.refl _), h.of_tx htx, rfl, ?_⟩
  obtain ⟨_, _, _, ⟨hbuffer, _⟩ | ⟨_, _, hfree, hsync⟩⟩ := intTx_cases h.inv.valid htx
  · -- the buffer is not the same
    obtain ⟨_, junk, hafter⟩ := elemGet_spec (valid_some.1 hvalid)
    rw [hchanged, hring] at hbuffer
    have hsame := congrArg held hbuffer
    rw [hafter.held, held_some] at hsame
    cases hl : ringId.held with
    | nil => exact absurd hl hheld
    | cons b l =>
      rw [hl, List.tail_cons] at hsame
      exact absurd (congrArg List.length hsame) (by simp)
  · exact ⟨hfree, hsync⟩

/-- The transmitter takes a byte, after the xon or xoff and the newline that wait. -/
theorem Ready.take_byte (chars : Chars) (i : Nat) (h : Ready s) (hheld : held s.dev.writeBuffer ≠ []) :
    ∃ s', Taken chars i s s' := by
  have hcr : ∀ {s : State}, Ready s → held s.dev.writeBuffer ≠ [] →
      s.dev.readState.pending = false → ∃ s', Taken chars i s s' := by
    intro s h hheld hpending
    cases hcr : s.dev.writeState.cr with
    | false => exact h.take_next chars i hheld hpending hcr
    | true =>
      obtain ⟨r, htx⟩ : ∃ r, tyIntTx s.dev =
          some ({ s.dev with writeState.cr := false }, r) := by
        unfold tyIntTx
        rw [if_neg (by rw [hpending]; exact Bool.false_ne_true),
          if_neg (by rw [h.xoff, h.flushing]; simp), if_pos hcr]
        exact ⟨_, rfl⟩
      obtain ⟨s', htaken⟩ := (h.of_tx htx).take_next chars i hheld hpending rfl
      exact ⟨s', htaken.after htx rfl rfl⟩
  cases hpending : s.dev.readState.pending with
  | false => exact hcr h hheld hpending
  | true =>
    obtain ⟨r, htx⟩ : ∃ r, tyIntTx s.dev =
        some ({ s.dev with readState.pending := false }, r) := by
      unfold tyIntTx
      rw [if_pos hpending]
      exact ⟨_, rfl⟩
    obtain ⟨s', htaken⟩ := hcr (h.of_tx htx) hheld rfl
    exact ⟨s', htaken.after htx rfl rfl⟩

/-- Either the semaphore is full, or it will be once the room is at the threshold. -/
def Wakes (s : State) : Prop :=
  s.dev.writeSync = true ∨ freeBytes s.dev.writeBuffer < tyWriteTreshold

/-- The transmitter makes room, and the semaphore is full. -/
theorem Ready.wake (chars : Chars) (i : Nat) (h : Ready s) (hwakes : Wakes s) :
    ∃ s', Goes chars i s s' ∧ Ready s' ∧ s'.calls = s.calls ∧ s'.dev.writeSync = true ∧
      0 < freeBytes s'.dev.writeBuffer := by
  obtain ⟨k, hk⟩ : ∃ k, k = (tyWriteTreshold - freeBytes s.dev.writeBuffer).toNat := ⟨_, rfl⟩
  unfold tyWriteTreshold at hk
  induction k generalizing s with
  | zero =>
    have hge : 20 ≤ freeBytes s.dev.writeBuffer := by omega
    refine ⟨s, .refl s, h, rfl, hwakes.resolve_right ?_, by omega⟩
    exact not_lt.2 hge
  | succ k ih =>
    have hheld : held s.dev.writeBuffer ≠ [] := by
      intro hempty
      have hbig := h.big
      rw [capacity, hempty, List.length_nil, Nat.zero_add] at hbig
      have hfree := freeBytes_eq h.inv.valid
      unfold tyWriteTreshold at hbig
      omega
    obtain ⟨s₁, hgoes, hready, hcalls, hfree, hsync⟩ := h.take_byte chars i hheld
    have hwakes₁ : Wakes s₁ := by
      unfold Wakes tyWriteTreshold
      rw [hsync]
      by_cases hat : freeBytes s₁.dev.writeBuffer = tyWriteTreshold
      · left
        rw [decide_eq_true hat, Bool.or_true]
      · unfold tyWriteTreshold at hat
        right
        omega
    obtain ⟨s₂, hgoes₂, hready₂, hcalls₂, hsync₂, hfree₂⟩ := ih hready hwakes₁ (by omega)
    exact ⟨s₂, hgoes.trans hgoes₂, hready₂, hcalls₂.trans hcalls, hsync₂, hfree₂⟩

/-- A writer that finds the semaphore full and room in the buffer puts bytes. -/
theorem Ready.turn (chars : Chars) {buffer : List UInt8} {put : Nat} (h : Ready s)
    (hcall : s.calls[i]? = some (.write buffer put)) (hput : put < buffer.length)
    (hsync : s.dev.writeSync = true) (hfree : 0 < freeBytes s.dev.writeBuffer) :
    ∃ s' put', Goes chars i s s' ∧ Ready s' ∧ s'.calls[i]? = some (.write buffer put') ∧
      put < put' ∧ Wakes s' := by
  have hlt := (List.getElem?_eq_some_iff.1 hcall).1
  -- the writer takes the semaphore, then the mutex
  obtain ⟨s₁, hs₁⟩ : ∃ s₁, s₁ = s.goOn i { s.dev with writeSync := false }
    (.writeSynced buffer put) := ⟨_, rfl⟩
  have hstep₁ : step chars s (.task i) = some s₁ := by
    show taskStep s i = some s₁
    unfold taskStep
    rw [hcall]
    dsimp only
    rw [if_neg (Nat.not_le_of_lt hput), if_pos hsync, hs₁]
  have hcall₁ : s₁.calls[i]? = some (.writeSynced buffer put) := by
    rw [hs₁]
    exact List.getElem?_set_self hlt
  have hinv₁ := h.inv.step rfl hstep₁
  obtain ⟨s₂, hs₂⟩ : ∃ s₂, s₂ = ({ s₁ with
    mutex := some (i, .writeBuf buffer put), calls := s₁.calls.set i .inside } : State) := ⟨_, rfl⟩
  have hstep₂ : step chars s₁ (.task i) = some s₂ := by
    show taskStep s₁ i = some s₂
    unfold taskStep
    rw [hcall₁]
    dsimp only
    have hfree₁ : s₁.mutex = none := by
      rw [hs₁]
      exact h.free
    rw [if_neg (by rw [hinv₁.canceled]; exact Bool.false_ne_true), State.enter, if_pos hfree₁, hs₂]
  have hinv₂ := hinv₁.step rfl hstep₂
  -- it puts bytes, and then looks at the room
  obtain ⟨s₃, hs₃⟩ : ∃ s₃, s₃ = ({ s₂ with
    dev := { s₂.dev with writeState.writeBufferBusy := true }
    mutex := some (i, .writeBusy buffer put) } : State) := ⟨_, rfl⟩
  have hstep₃ : step chars s₂ .owner = some s₃ := by
    show ownerStep s₂ = some s₃
    rw [hs₃, hs₂]
    rfl
  have hsound₃ : writeSound s₂ .owner = true := by
    rw [hs₂]
    rfl
  have hinv₃ := hinv₂.step hsound₃ hstep₃
  obtain ⟨n, hn⟩ : ∃ n, n = (bufPut s.dev.writeBuffer (buffer.drop put)).2 := ⟨_, rfl⟩
  obtain ⟨s₄, hs₄⟩ : ∃ s₄, s₄ = ({ s₃ with
    dev := tyTxStartup { s₃.dev with
      writeBuffer := (bufPut s.dev.writeBuffer (buffer.drop put)).1
      writeState.writeBufferBusy := false }
    mutex := some (i, .writeMore buffer (put + n))
    puts := s₃.puts ++ ((buffer.drop put).take n).map fun c => (i, c) } : State) := ⟨_, rfl⟩
  have hstep₄ : step chars s₃ .owner = some s₄ := by
    show ownerStep s₃ = some s₄
    rw [hs₄, hs₃, hs₂, hs₁, hn]
    rfl
  have hsound₄ : writeSound s₃ .owner = true := by
    rw [hs₃]
    rfl
  have hinv₄ := hinv₃.step hsound₄ hstep₄
  obtain ⟨_, hcap, hroom⟩ := bufPut_filled h.inv.valid (buffer.drop put)
  have hbuffer : s₄.dev.writeBuffer = (bufPut s.dev.writeBuffer (buffer.drop put)).1 := by
    rw [hs₄]
    rfl
  have hbig : tyWriteTreshold ≤ capacity s₄.dev.writeBuffer := by
    rw [hbuffer, hcap]
    exact h.big
  have hmutex₄ : s₄.mutex = some (i, .writeMore buffer (put + n)) := by rw [hs₄]
  have hsound₅ : writeSound s₄ .owner = true := by
    unfold writeSound
    rw [hmutex₄]
    dsimp only
    rw [decide_eq_true hbig, Bool.or_true]
  obtain ⟨s₅, hs₅⟩ : ∃ s₅, s₅ = s₄.leave i
    (if 0 < freeBytes s₄.dev.writeBuffer then { s₄.dev with writeSync := true } else s₄.dev)
    (.write buffer (put + n)) := ⟨_, rfl⟩
  have hstep₅ : step chars s₄ .owner = some s₅ := by
    show ownerStep s₄ = some s₅
    unfold ownerStep
    rw [hmutex₄, hs₅]
  have hinv₅ := hinv₄.step hsound₅ hstep₅
  have hpos : 0 < n := by
    rw [hn, (bufPut_spec h.inv.valid _).1, List.length_drop]
    have hfree' := freeBytes_eq h.inv.valid
    omega
  have hbuffer₅ : s₅.dev.writeBuffer = s₄.dev.writeBuffer := by
    rw [hs₅]
    show (if _ then _ else _ : TyDev).writeBuffer = _
    split
    · rfl
    · rfl
  have hcalls₅ : s₅.calls = (((s.calls.set i (.writeSynced buffer put)).set i .inside).set i
      (.write buffer (put + n))) := by
    rw [hs₅, hs₄, hs₃, hs₂, hs₁]
    rfl
  refine ⟨s₅, put + n, ?_, ⟨hinv₅, ?_, ?_, ?_, ?_, ?_⟩, ?_, by omega, ?_⟩
  · exact .cons (.inr (.inl rfl)) rfl hstep₁ (.cons (.inr (.inl rfl)) rfl hstep₂
      (.cons (.inr (.inr rfl)) hsound₃ hstep₃ (.cons (.inr (.inr rfl)) hsound₄ hstep₄
        (.cons (.inr (.inr rfl)) hsound₅ hstep₅ (.refl _)))))
  · rw [hs₅]
    rfl
  · have hany : (s.calls.set i (.write buffer (put + n))).any Call.synced =
        s.calls.any Call.synced := any_set hcall rfl
    rw [hcalls₅, List.set_set, List.set_set, hany]
    exact h.synced
  · rw [hs₅]
    show (if _ then _ else _ : TyDev).writeState.xoff = false
    have hxoff : s₄.dev.writeState.xoff = false := by
      rw [hs₄, hs₃, hs₂, hs₁]
      exact h.xoff
    split
    · exact hxoff
    · exact hxoff
  · rw [hs₅]
    show (if _ then _ else _ : TyDev).writeState.flushingWriteBuffer = false
    have hflushing : s₄.dev.writeState.flushingWriteBuffer = false := by
      rw [hs₄, hs₃, hs₂, hs₁]
      exact h.flushing
    split
    · exact hflushing
    · exact hflushing
  · rw [hbuffer₅]
    exact hbig
  · rw [hcalls₅, List.getElem?_set_self]
    rw [List.length_set, List.length_set]
    exact hlt
  · unfold Wakes
    rw [hbuffer₅]
    by_cases hleft : 0 < freeBytes s₄.dev.writeBuffer
    · left
      rw [hs₅, if_pos hleft]
      rfl
    · right
      unfold tyWriteTreshold
      omega

/-- A writer is done in the end. -/
theorem Ready.finish (chars : Chars) {buffer : List UInt8} {put : Nat} (h : Ready s)
    (hcall : s.calls[i]? = some (.write buffer put)) (hwakes : Wakes s) :
    ∃ s', Goes chars i s s' ∧ s'.calls[i]? = some (.wrote buffer) := by
  obtain ⟨k, hk⟩ : ∃ k, k = buffer.length - put := ⟨_, rfl⟩
  induction k using Nat.strong_induction_on generalizing s put with
  | h k ih =>
    have hlt := (List.getElem?_eq_some_iff.1 hcall).1
    by_cases hdone : buffer.length ≤ put
    · have hstep : step chars s (.task i) = some (s.goOn i s.dev (.wrote buffer)) := by
        show taskStep s i = _
        unfold taskStep
        rw [hcall]
        dsimp only
        rw [if_pos hdone]
      exact ⟨_, .cons (.inr (.inl rfl)) rfl hstep (.refl _), List.getElem?_set_self hlt⟩
    · obtain ⟨s₁, hgoes₁, hready₁, hcalls₁, hsync₁, hfree₁⟩ :=
        h.wake chars i hwakes
      obtain ⟨s₂, put', hgoes₂, hready₂, hcall₂, hmore, hwakes₂⟩ :=
        hready₁.turn chars (hcalls₁ ▸ hcall) (Nat.lt_of_not_le hdone) hsync₁ hfree₁
      obtain ⟨s₃, hgoes₃, hcall₃⟩ := ih (buffer.length - put') (by omega) hready₂ hcall₂ hwakes₂ rfl
      exact ⟨s₃, hgoes₁.trans (hgoes₂.trans hgoes₃), hcall₃⟩

theorem writeInv_opened (readMemory writeMemory : Nat → UInt8)
    (readBufferSize writeBufferSize : Nat) :
    WriteInv (opened readMemory writeMemory readBufferSize writeBufferSize) ∧
      PutsInv (opened readMemory writeMemory readBufferSize writeBufferSize) := by
  have h : (rngCreate writeMemory writeBufferSize).Valid :=
    ⟨Nat.succ_pos writeBufferSize, Nat.succ_pos writeBufferSize⟩
  have hvalid : Valid (opened readMemory writeMemory readBufferSize
      writeBufferSize).dev.writeBuffer := (flush_spec (valid_some.2 h)).1
  refine ⟨⟨fun j sec hj => absurd hj (Option.some_ne_none _).symm, hvalid, rfl,
    fun hf => absurd hf.symm Bool.false_ne_true⟩, fun j x _ _ hj => ?_,
    fun j sec _ _ hj => absurd hj (Option.some_ne_none _).symm, fun _ _ => rfl⟩
  have hnone : (none : Option Call) = some x := hj
  exact absurd hnone (Option.some_ne_none _).symm

theorem writeInv_run {ops : List Op} (h : WriteInv s ∧ PutsInv s)
    (hsound : AllSteps (step chars) WriteSound s ops)
    (hrun : exec (step chars) s ops = some s') : WriteInv s' ∧ PutsInv s' := by
  have hstep : ∀ s op s', WriteInv s ∧ PutsInv s → WriteSound s op → step chars s op = some s' →
      WriteInv s' ∧ PutsInv s' := fun s op s' hinv hok hstep =>
    ⟨hinv.1.step hok hstep, hinv.2.step hinv.1.owned hinv.1.valid hstep⟩
  exact exec_invariant_of (I := fun s => WriteInv s ∧ PutsInv s) hstep h hsound hrun

def exampleBytes (n : Nat) : List UInt8 := List.replicate n 65

/-- A write, as far as it gets without the transmitter. -/
def exampleWrite (n : Nat) : List Op :=
  [.start (.write (exampleBytes n)), .task 0, .task 0, .owner, .owner, .owner]

def exampleTty (size : Nat) : State := opened exampleMemory exampleMemory 10 size

/-- The buffer and the position of the first call, when it waits for the semaphore. -/
def waits (s : State) : Option (List UInt8 × Nat) :=
  match s.calls[(0 : Nat)]? with
  | some (.write buffer put) => some (buffer, put)
  | _ => none

end Vmx.Ty
