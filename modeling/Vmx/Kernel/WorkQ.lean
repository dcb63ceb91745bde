import Vmx.Kernel.WorkQLib
import Vmx.Lib.Ring

/-!
# The kernel work queue keeps its jobs

Jobs are numbered in the order of adding, and job `i` is in slot `i % 256` until it
has been called.  What can go wrong is seen from the part of the stack that is at
work on slots (`work`): adders that have stores to make, and a drain that has not
read its slot.  The invariant holds as long as no drain starts on top of these.
-/

namespace Vmx.WorkQ

open Lib

/-! ## The work in progress -/

/-- The context is at work on a slot. -/
def Ctx.busy : Ctx → Bool
  | .add _ _ => true
  | .drain (some _) => true
  | .drain none => false
  | .kernel => false
  | .int => false
  | .job => false

/-- The contexts that are at work on slots. -/
def work (stack : List Ctx) : List Ctx := stack.filter Ctx.busy

/-- The stores that a slot still waits for. -/
def pending : List Ctx → Nat → List Store
  | [], _ => []
  | .add s ss :: rest, slot => if s = slot then ss else pending rest slot
  | _ :: rest, slot => pending rest slot

/-- The number of slots that have been taken and not read. -/
def unread : List Ctx → Nat
  | [] => 0
  | .drain (some _) :: rest => unread rest + 1
  | _ :: rest => unread rest

/-- A drain is going on in the kernel section of the running code. -/
def draining : List Ctx → Bool
  | [] => false
  | .kernel :: _ => false
  | .drain _ :: _ => true
  | _ :: rest => draining rest

/-- Nothing below a kernel section, a job or a drain is at work on a slot. -/
def StackOk : List Ctx → Prop
  | [] => True
  | .int :: rest => StackOk rest
  | .add _ _ :: rest => StackOk rest
  | _ :: rest => work rest = [] ∧ StackOk rest

theorem unread_le_one {stack : List Ctx} (h : StackOk stack) : unread (work stack) ≤ 1 := by
  induction stack with
  | nil => decide
  | cons c rest ih =>
    match c with
    | .int => exact ih h
    | .add _ _ => exact ih h
    | .kernel => exact ih h.2
    | .job => exact ih h.2
    | .drain none => exact ih h.2
    | .drain (some slot) =>
      have hwork : work (.drain (some slot) :: rest) = [.drain (some slot)] := by
        show Ctx.drain (some slot) :: work rest = _
        rw [h.1]
      rw [hwork]
      exact Nat.le_refl 1

theorem pending_ne {ws : List Ctx} {slot s : Nat} {ss : List Store} (h : s ≠ slot) :
    pending (.add s ss :: ws) slot = pending ws slot := if_neg h

theorem pending_of_not_mem {ws : List Ctx} {slot : Nat}
    (h : ∀ ss, Ctx.add slot ss ∉ ws) : pending ws slot = [] := by
  induction ws with
  | nil => rfl
  | cons c rest ih =>
    have hrest : ∀ ss, Ctx.add slot ss ∉ rest := fun ss hm => h ss (List.mem_cons_of_mem _ hm)
    match c with
    | .add s ss =>
      rw [pending, if_neg]
      · exact ih hrest
      · rintro rfl
        exact h ss List.mem_cons_self
    | .kernel => exact ih hrest
    | .int => exact ih hrest
    | .job => exact ih hrest
    | .drain _ => exact ih hrest

/-- The stores of a call of `workQAddN` make its job, whatever the slot held. -/
theorem foldl_stores (a : Add) (j : Job) : (a.stores.foldl Job.store j).call = a.call := by
  cases a <;> rfl

/-! ## The invariant -/

/-- What the slots hold: the job, once the adder has made its stores. -/
def Filled (m : State) (i : Nat) : Prop :=
  m.added[i]? = some (((pending (work m.stack) (i % 256)).foldl Job.store
    (m.workQJobs (i % 256))).call)

/-- The slots of the adders. -/
def addSlots : List Ctx → List Nat
  | [] => []
  | .add slot _ :: rest => slot :: addSlots rest
  | _ :: rest => addSlots rest

theorem mem_addSlots {ws : List Ctx} {slot : Nat} {ss : List Store} (h : .add slot ss ∈ ws) :
    slot ∈ addSlots ws := by
  induction ws with
  | nil => cases h
  | cons c rest ih =>
    rcases List.mem_cons.1 h with rfl | hrest
    · exact List.mem_cons_self
    · match c with
      | .add _ _ => exact List.mem_cons_of_mem _ (ih hrest)
      | .kernel => exact ih hrest
      | .int => exact ih hrest
      | .job => exact ih hrest
      | .drain _ => exact ih hrest

theorem add_of_mem_addSlots {ws : List Ctx} {slot : Nat} (h : slot ∈ addSlots ws) :
    ∃ ss, .add slot ss ∈ ws := by
  induction ws with
  | nil => cases h
  | cons c rest ih =>
    match c with
    | .add s ss =>
      rcases List.mem_cons.1 h with rfl | hrest
      · exact ⟨ss, List.mem_cons_self⟩
      · obtain ⟨ss', hmem⟩ := ih hrest
        exact ⟨ss', List.mem_cons_of_mem _ hmem⟩
    | .kernel => exact (ih h).imp fun _ => List.mem_cons_of_mem _
    | .int => exact (ih h).imp fun _ => List.mem_cons_of_mem _
    | .job => exact (ih h).imp fun _ => List.mem_cons_of_mem _
    | .drain _ => exact (ih h).imp fun _ => List.mem_cons_of_mem _

structure Inv (m : State) : Prop where
  read : m.workQReadIndex = m.taken % 256
  write : m.panicked = false → m.workQWriteIndex = m.added.length % 256
  room : m.taken ≤ m.added.length ∧ m.added.length ≤ m.taken + 255
  panic : m.panicked = true → m.added.length = m.taken + 255
  order : m.executed <+: m.added
  taken : m.taken = m.executed.length + unread (work m.stack)
  drains : ∀ slot, .drain (some slot) ∈ work m.stack → slot = m.executed.length % 256
  adds : ∀ slot ss, .add slot ss ∈ work m.stack →
    ss ≠ [] ∧ ∃ i, m.taken ≤ i ∧ i < m.added.length ∧ slot = i % 256
  apart : (addSlots (work m.stack)).Nodup
  filled : ∀ i, m.executed.length ≤ i → i < m.added.length → Filled m i
  stackOk : StackOk m.stack
  idle : m.kernelState = false → work m.stack = [] ∧ m.taken = m.added.length ∧
    m.workQIsEmpty = true
  flagged : m.taken ≠ m.added.length → m.workQIsEmpty = true →
    ∃ slot ss, .add slot ss ∈ work m.stack ∧ .workQIsEmpty ∈ ss
  empty : m.workQIsEmpty = false → m.taken ≠ m.added.length ∨ draining m.stack = true

theorem inv_init (jobs : Nat → Job) : Inv (workQLibInit jobs) where
  read := rfl
  write _ := rfl
  room := ⟨Nat.le_refl _, Nat.zero_le _⟩
  panic h := by cases h
  order := List.prefix_rfl
  taken := rfl
  drains _ h := by cases h
  adds _ _ h := by cases h
  apart := List.nodup_nil
  filled i _ h := absurd h (Nat.not_lt_zero i)
  stackOk := trivial
  idle _ := ⟨rfl, rfl, rfl⟩
  flagged h := absurd rfl h
  empty h := by cases h

section Steps

variable {m : State}

/-- A context comes or goes that is at work on no slot. -/
theorem Inv.of_stack (h : Inv m) {stack : List Ctx} {kernelState : Bool}
    (hwork : work stack = work m.stack) (hok : StackOk stack)
    (hidle : kernelState = false → work m.stack = [] ∧ m.taken = m.added.length ∧
      m.workQIsEmpty = true)
    (hempty : m.workQIsEmpty = false → m.taken ≠ m.added.length ∨ draining stack = true) :
    Inv { m with stack := stack, kernelState := kernelState } where
  read := h.read
  write := h.write
  room := h.room
  panic := h.panic
  order := h.order
  taken := by
    dsimp only
    rw [hwork]
    exact h.taken
  drains slot hs := by
    dsimp only at hs
    rw [hwork] at hs
    exact h.drains slot hs
  adds slot ss hs := by
    dsimp only at hs
    rw [hwork] at hs
    exact h.adds slot ss hs
  apart := by
    dsimp only
    rw [hwork]
    exact h.apart
  filled i hi hlt := by
    have hfill := h.filled i hi hlt
    unfold Filled at hfill ⊢
    dsimp only
    rw [hwork]
    exact hfill
  stackOk := hok
  idle hk := by
    dsimp only
    rw [hwork]
    exact hidle hk
  flagged hne he := by
    dsimp only
    rw [hwork]
    exact h.flagged hne he
  empty := hempty

/-- The slot of the next job is free. -/
theorem Inv.slot_ne (h : Inv m) (hroom : m.added.length < m.taken + 255) {i : Nat}
    (hi : m.executed.length ≤ i) (hlt : i < m.added.length) :
    m.added.length % 256 ≠ i % 256 := by
  intro heq
  have htaken := h.taken
  have hunread := unread_le_one h.stackOk
  have := eq_of_slot (a := m.executed.length) heq (by omega) (by omega)
  omega

theorem advance_eq (n : Nat) : advance (n % 256) = (n + 1) % 256 := by
  show (n % 256 + 1) &&& (2 ^ 8 - 1) = _
  rw [Nat.and_two_pow_sub_one_eq_mod]
  omega

/-- The ring is found full when 255 of its 256 slots hold jobs. -/
theorem Inv.full_iff (h : Inv m) (hp : m.panicked = false) :
    advance m.workQWriteIndex = m.workQReadIndex ↔ m.added.length = m.taken + 255 := by
  rw [h.write hp, h.read, advance_eq]
  obtain ⟨hle, hlt⟩ := h.room
  have hfull := succ_slot_eq_iff m.taken (show m.added.length - m.taken < 256 by omega)
  have hsum : m.taken + (m.added.length - m.taken) + 1 = m.added.length + 1 := by omega
  rw [hsum] at hfull
  rw [hfull]
  omega

theorem inv_workQAdd (h : Inv m) (hp : m.panicked = false) (hk : m.kernelState = true)
    (a : Add) : Inv (workQAdd m a) := by
  unfold workQAdd
  dsimp only
  split
  · rename_i hfull
    rw [h.full_iff hp] at hfull
    exact { h with
      write := fun h' => by cases h'
      panic := fun _ => hfull }
  · rename_i hfull
    rw [h.full_iff hp] at hfull
    have hlen : (m.added ++ [a.call]).length = m.added.length + 1 := by simp
    obtain ⟨hle, hlt⟩ := h.room
    have hexec : m.executed.length ≤ m.taken := by
      have := h.taken
      omega
    have hwork : work (.add m.workQWriteIndex a.stores :: m.stack) =
        .add m.workQWriteIndex a.stores :: work m.stack := rfl
    refine
      { read := h.read
        write := fun _ => ?_
        room := ?_
        panic := fun h' => absurd (hp.symm.trans h') Bool.false_ne_true
        order := h.order.trans (List.prefix_append _ _)
        taken := h.taken
        drains := fun slot hs => ?_
        adds := fun slot ss hs => ?_
        apart := ?_
        filled := fun i hi hlt => ?_
        stackOk := h.stackOk
        idle := fun h' => Bool.noConfusion (hk.symm.trans h')
        flagged := fun _ _ => ⟨m.workQWriteIndex, a.stores, List.mem_cons_self, ?_⟩
        empty := fun _ => .inl ?_ }
    · dsimp only
      rw [h.write hp, advance_eq, hlen]
    · dsimp only
      rw [hlen]
      omega
    · rcases List.mem_cons.1 hs with hs | hs
      · cases hs
      · exact h.drains slot hs
    · dsimp only
      rw [hlen]
      rcases List.mem_cons.1 hs with hs | hs
      · obtain ⟨rfl, rfl⟩ := Ctx.add.inj hs
        refine ⟨by cases a <;> simp [Add.stores], m.added.length, hle, by omega, h.write hp⟩
      · obtain ⟨hne, i, hi, hlt, hslot⟩ := h.adds slot ss hs
        exact ⟨hne, i, hi, by omega, hslot⟩
    · show (m.workQWriteIndex :: addSlots (work m.stack)).Nodup
      rw [List.nodup_cons]
      refine ⟨fun hmem => ?_, h.apart⟩
      obtain ⟨ss, hss⟩ := add_of_mem_addSlots hmem
      obtain ⟨_, i, hi, hlt, hslot⟩ := h.adds _ ss hss
      rw [h.write hp] at hslot
      exact h.slot_ne (by omega) (by omega) hlt hslot
    · dsimp only at hlt hi
      rw [hlen] at hlt
      unfold Filled
      dsimp only
      rw [hwork]
      by_cases hnew : i = m.added.length
      · have hslot : m.workQWriteIndex = i % 256 := by rw [h.write hp, hnew]
        rw [pending, if_pos hslot, foldl_stores, hnew]
        simp
      · have hslot : m.workQWriteIndex ≠ i % 256 := by
          rw [h.write hp]
          exact h.slot_ne (by omega) hi (by omega)
        rw [pending_ne hslot, List.getElem?_append_left (by omega)]
        exact h.filled i hi (by omega)
    · cases a <;> simp [Add.stores]
    · dsimp only
      rw [hlen]
      omega

theorem work_store (m : State) (slot : Nat) (s : Store) (ss : List Store) (rest : List Ctx) :
    work (addStore m slot s ss rest).stack =
      if ss = [] then work rest else .add slot ss :: work rest := by
  unfold addStore
  dsimp only
  split <;> rfl

theorem inv_addStore (h : Inv m) {slot : Nat} {s : Store} {ss : List Store} {rest : List Ctx}
    (hs : m.stack = .add slot (s :: ss) :: rest) : Inv (addStore m slot s ss rest) := by
  have hw : work m.stack = .add slot (s :: ss) :: work rest := by
    rw [hs]
    rfl
  have hw' := work_store m slot s ss rest
  have hapart := h.apart
  rw [hw] at hapart
  obtain ⟨hother, hnodup⟩ : slot ∉ addSlots (work rest) ∧ (addSlots (work rest)).Nodup :=
    List.nodup_cons.1 hapart
  obtain ⟨_, i₀, hi₀, hlt₀, hslot₀⟩ := h.adds slot (s :: ss) (by rw [hw]; exact List.mem_cons_self)
  have hold : ∀ c, c ∈ work rest → c ∈ work m.stack := fun c hc => by
    rw [hw]
    exact List.mem_cons_of_mem _ hc
  have hmem : ∀ c, c ∈ work (addStore m slot s ss rest).stack →
      c = .add slot ss ∧ ss ≠ [] ∨ c ∈ work rest := by
    intro c hc
    rw [hw'] at hc
    split at hc
    · exact .inr hc
    · rename_i hss
      rcases List.mem_cons.1 hc with rfl | hc
      · exact .inl ⟨rfl, hss⟩
      · exact .inr hc
  refine
    { read := h.read
      write := h.write
      room := h.room
      panic := h.panic
      order := h.order
      taken := ?_
      drains := fun slot' hd => ?_
      adds := fun slot' ss' ha => ?_
      apart := ?_
      filled := fun i hi hlt => ?_
      stackOk := ?_
      idle := fun hk => ?_
      flagged := fun hne he => ?_
      empty := fun _ => .inl (by show m.taken ≠ m.added.length; omega) }
  · have htaken := h.taken
    rw [hw] at htaken
    rw [hw']
    split <;> exact htaken
  · rcases hmem _ hd with ⟨hc, _⟩ | hc
    · cases hc
    · exact h.drains slot' (hold _ hc)
  · rcases hmem _ ha with ⟨hc, hss⟩ | hc
    · obtain ⟨rfl, rfl⟩ := Ctx.add.inj hc
      exact ⟨hss, i₀, hi₀, hlt₀, hslot₀⟩
    · exact h.adds slot' ss' (hold _ hc)
  · rw [hw']
    split
    · exact hnodup
    · exact hapart
  · -- the store is the first of those that the slot has waited for
    have hfill := h.filled i hi hlt
    unfold Filled at hfill ⊢
    rw [hw']
    rw [hw] at hfill
    show m.added[i]? = some ((List.foldl _ (Function.update m.workQJobs slot _ (i % 256)) _).call)
    by_cases hi' : slot = i % 256
    · rw [pending, if_pos hi'] at hfill
      rw [hfill, ← hi', Function.update_self]
      split
      · rename_i hss
        rw [pending_of_not_mem fun ss' hm => hother (mem_addSlots hm), hss]
        rfl
      · rw [pending, if_pos rfl]
        rfl
    · rw [pending_ne hi'] at hfill
      rw [hfill, Function.update_of_ne (Ne.symm hi')]
      split
      · rfl
      · rw [pending_ne hi']
  · have hok := h.stackOk
    rw [hs] at hok
    show StackOk (if _ then _ else _)
    split <;> exact hok
  · have := (h.idle hk).1
    rw [hw] at this
    cases this
  · by_cases hflag : s = .workQIsEmpty
    · rw [addStore, if_pos hflag] at he
      cases he
    · rw [addStore, if_neg hflag] at he
      obtain ⟨slot', ss', ha, hin⟩ := h.flagged hne he
      rw [hw] at ha
      rcases List.mem_cons.1 ha with ha | ha
      · obtain ⟨rfl, rfl⟩ := Ctx.add.inj ha
        have hss : .workQIsEmpty ∈ ss := (List.mem_cons.1 hin).resolve_left (Ne.symm hflag)
        refine ⟨slot', ss, ?_, hss⟩
        rw [hw', if_neg (List.ne_nil_of_mem hss)]
        exact List.mem_cons_self
      · refine ⟨slot', ss', ?_, hin⟩
        rw [hw']
        split
        · exact ha
        · exact List.mem_cons_of_mem _ ha

theorem inv_workQDoWorkFetch (h : Inv m) (hp : m.panicked = false) {rest : List Ctx}
    (hs : m.stack = .drain none :: rest) : Inv (workQDoWorkFetch m rest) := by
  have hok := h.stackOk
  rw [hs] at hok
  obtain ⟨hrest, hok⟩ : work rest = [] ∧ StackOk rest := hok
  have hw : work m.stack = [] := by
    rw [hs]
    exact hrest
  have htaken := h.taken
  rw [hw] at htaken
  have htaken : m.taken = m.executed.length := htaken
  obtain ⟨hle, hlt⟩ := h.room
  have hempty : m.workQReadIndex = m.workQWriteIndex ↔ m.taken = m.added.length := by
    rw [h.read, h.write hp]
    constructor
    · intro heq
      exact eq_of_slot (a := m.taken) heq (by omega) (by omega)
    · intro heq
      rw [heq]
  unfold workQDoWorkFetch
  split
  · rename_i hne
    rw [Ne, hempty] at hne
    have hw' : work (.drain (some m.workQReadIndex) :: rest) =
        [.drain (some m.workQReadIndex)] := by
      show Ctx.drain (some m.workQReadIndex) :: work rest = _
      rw [hrest]
    refine
      { read := ?_
        write := h.write
        room := ?_
        panic := fun h' => absurd (hp.symm.trans h') Bool.false_ne_true
        order := h.order
        taken := ?_
        drains := fun slot hd => ?_
        adds := fun slot ss ha => ?_
        apart := ?_
        filled := fun i hi hlt => ?_
        stackOk := ⟨hrest, hok⟩
        idle := fun hk => absurd (h.idle hk).2.1 hne
        flagged := fun _ he => ?_
        empty := fun _ => .inr rfl }
    · dsimp only
      rw [h.read, advance_eq]
    · dsimp only
      omega
    · dsimp only
      rw [hw', htaken]
      rfl
    · dsimp only at hd
      rw [hw', List.mem_singleton, Ctx.drain.injEq, Option.some.injEq] at hd
      rw [hd, h.read, htaken]
    · dsimp only at ha
      rw [hw', List.mem_singleton] at ha
      cases ha
    · dsimp only
      rw [hw']
      exact List.nodup_nil
    · have hfill := h.filled i hi hlt
      unfold Filled at hfill ⊢
      dsimp only
      rw [hw] at hfill
      rw [hw']
      exact hfill
    · obtain ⟨slot, ss, ha, _⟩ := h.flagged hne he
      rw [hw] at ha
      cases ha
  · rename_i heq
    rw [not_not, hempty] at heq
    refine
      { read := h.read
        write := h.write
        room := h.room
        panic := h.panic
        order := h.order
        taken := by rw [hrest]; exact htaken
        drains := fun slot hd => by rw [hrest] at hd; cases hd
        adds := fun slot ss ha => by rw [hrest] at ha; cases ha
        apart := by rw [hrest]; exact List.nodup_nil
        filled := fun i hi hlt => ?_
        stackOk := hok
        idle := fun _ => ⟨hrest, heq, rfl⟩
        flagged := fun hne => absurd heq hne
        empty := fun he => by cases he }
    dsimp only at hi hlt
    omega

/-- The slot that a drain has taken holds the first job that has not been called. -/
theorem Inv.next_call (h : Inv m) {slot : Nat} {rest : List Ctx}
    (hs : m.stack = .drain (some slot) :: rest) :
    m.added[m.executed.length]? = some (m.workQJobs slot).call := by
  have hok := h.stackOk
  rw [hs] at hok
  have hw : work m.stack = [.drain (some slot)] := by
    rw [hs]
    show Ctx.drain (some slot) :: work rest = _
    rw [hok.1]
  have htaken := h.taken
  rw [hw] at htaken
  have htaken : m.taken = m.executed.length + 1 := htaken
  have hslot : slot = m.executed.length % 256 := h.drains slot (by rw [hw]; exact List.mem_cons_self)
  obtain ⟨hle, _⟩ := h.room
  have hfill := h.filled m.executed.length (Nat.le_refl _) (by omega)
  unfold Filled at hfill
  rw [hw, ← hslot] at hfill
  exact hfill

theorem inv_workQDoWorkCall (h : Inv m) {slot : Nat} {rest : List Ctx}
    (hs : m.stack = .drain (some slot) :: rest) : Inv (workQDoWorkCall m slot rest) := by
  have hok := h.stackOk
  rw [hs] at hok
  obtain ⟨hrest, hok⟩ : work rest = [] ∧ StackOk rest := hok
  have hw : work m.stack = [.drain (some slot)] := by
    rw [hs]
    show Ctx.drain (some slot) :: work rest = _
    rw [hrest]
  have hw' : work (workQDoWorkCall m slot rest).stack = [] := hrest
  have htaken := h.taken
  rw [hw] at htaken
  have htaken : m.taken = m.executed.length + 1 := htaken
  have hcall := h.next_call hs
  have hlen : (m.executed ++ [(m.workQJobs slot).call]).length = m.executed.length + 1 := by simp
  refine
    { read := h.read
      write := h.write
      room := h.room
      panic := h.panic
      order := ?_
      taken := ?_
      drains := fun slot' hd => ?_
      adds := fun slot' ss ha => ?_
      apart := ?_
      filled := fun i hi hlt => ?_
      stackOk := ⟨hrest, hrest, hok⟩
      idle := fun hk => ?_
      flagged := fun hne he => ?_
      empty := fun _ => .inr rfl }
  · obtain ⟨t, ht⟩ := h.order
    show m.executed ++ [(m.workQJobs slot).call] <+: m.added
    rw [← ht] at hcall ⊢
    rw [List.getElem?_append_right (Nat.le_refl _), Nat.sub_self] at hcall
    cases t with
    | nil => cases hcall
    | cons c t =>
      obtain rfl : c = (m.workQJobs slot).call := Option.some.inj hcall
      exact ⟨t, by simp⟩
  · rw [hw']
    show m.taken = (m.executed ++ [(m.workQJobs slot).call]).length + 0
    rw [hlen, htaken]
  · rw [hw'] at hd
    cases hd
  · rw [hw'] at ha
    cases ha
  · rw [hw']
    exact List.nodup_nil
  · have hi' : (m.executed ++ [(m.workQJobs slot).call]).length ≤ i := hi
    rw [hlen] at hi'
    have hfill := h.filled i (by omega) hlt
    unfold Filled at hfill
    rw [hw] at hfill
    unfold Filled
    rw [hw']
    exact hfill
  · have := (h.idle hk).1
    rw [hw] at this
    cases this
  · obtain ⟨slot', ss, ha, _⟩ := h.flagged hne he
    rw [hw, List.mem_singleton] at ha
    cases ha

end Steps

/-! ## Runs -/

/-- The condition on a step: the clock interrupt does not call `workQDoWork` on top of
an adder that has stores to make, or of a drain that has not read its slot. -/
def Sound (m : State) : Op → Prop
  | .doWork => m.stack.head? = some .int → work m.stack = []
  | .enter => True
  | .leave => True
  | .interrupt => True
  | .intExit => True
  | .add _ => True
  | .store => True
  | .fetch => True
  | .call => True
  | .jobExit => True

instance (m : State) (op : Op) : Decidable (Sound m op) := by
  cases op <;> unfold Sound <;> infer_instance

theorem inv_step {m m' : State} {op : Op} (h : Inv m) (hsound : Sound m op)
    (hs : step m op = some m') : Inv m' := by
  unfold step at hs
  split at hs
  · cases hs
  rename_i hp
  rw [Bool.not_eq_true] at hp
  split at hs
  · -- enter, from a task
    rename_i hstack
    split at hs
    · cases hs
    rename_i hk
    rw [Bool.not_eq_true] at hk
    cases hs
    have hidle := h.idle hk
    apply h.of_stack
    · rw [hidle.1]
      rfl
    · exact ⟨rfl, trivial⟩
    · intro hk'
      cases hk'
    · intro he
      rw [hidle.2.2] at he
      cases he
  · -- enter, from an interrupt
    rename_i rest hstack
    split at hs
    · cases hs
    rename_i hk
    rw [Bool.not_eq_true] at hk
    cases hs
    have hidle := h.idle hk
    have hok := h.stackOk
    rw [hstack] at hok
    have hrest : work (.int :: rest) = [] := by
      rw [← hstack]
      exact hidle.1
    apply h.of_stack
    · rw [hidle.1]
      exact hrest
    · exact ⟨hrest, hok⟩
    · intro hk'
      cases hk'
    · intro he
      rw [hidle.2.2] at he
      cases he
  · -- leave
    rename_i rest hstack
    split at hs
    · rename_i he
      cases hs
      have hok := h.stackOk
      rw [hstack] at hok
      have hw : work m.stack = [] := by
        rw [hstack]
        exact hok.1
      apply h.of_stack
      · rw [hw]
        exact hok.1
      · exact hok.2
      · intro _
        refine ⟨hw, ?_, he⟩
        by_contra hne
        obtain ⟨slot, ss, ha, _⟩ := h.flagged hne he
        rw [hw] at ha
        cases ha
      · intro he'
        rw [he] at he'
        cases he'
    · cases hs
  · -- interrupt
    cases hs
    exact h.of_stack rfl h.stackOk h.idle h.empty
  · -- intExit
    rename_i rest hstack
    cases hs
    have hok := h.stackOk
    have hempty := h.empty
    rw [hstack] at hok hempty
    apply h.of_stack
    · rw [hstack]
      rfl
    · exact hok
    · exact h.idle
    · exact hempty
  · -- add
    rename_i a c rest hstack
    split at hs
    · rename_i hc
      cases hs
      exact inv_workQAdd h hp hc.2 a
    · cases hs
  · -- store
    rename_i slot s ss rest hstack
    cases hs
    exact inv_addStore h hstack
  · -- doWork
    rename_i c rest hstack
    split at hs
    · rename_i hc
      cases hs
      have hok := h.stackOk
      have hw : work m.stack = [] := by
        rw [hstack] at hok ⊢
        match c with
        | .int =>
          have hint := hsound (by rw [hstack]; rfl)
          rw [hstack] at hint
          exact hint
        | .kernel => exact hok.1
        | .job => exact hok.1
      apply h.of_stack
      · rw [hstack]
        rfl
      · rw [hstack] at hok hw
        exact ⟨hw, hok⟩
      · exact h.idle
      · intro _
        exact .inr rfl
    · cases hs
  · -- fetch
    rename_i rest hstack
    cases hs
    exact inv_workQDoWorkFetch h hp hstack
  · -- call
    rename_i slot rest hstack
    cases hs
    exact inv_workQDoWorkCall h hstack
  · -- jobExit
    rename_i rest hstack
    cases hs
    have hok := h.stackOk
    have hempty := h.empty
    rw [hstack] at hok hempty
    apply h.of_stack
    · rw [hstack]
      rfl
    · exact hok.2
    · exact h.idle
    · exact hempty
  · cases hs

/-- What holds of the work queue in a state of a run. -/
structure Served (m : State) : Prop where
  /-- The calls that have been made are those of the jobs, each once, in the order
  of adding. -/
  order : m.executed <+: m.added
  /-- Where the kernel is left `workQIsEmpty` tells whether jobs are outstanding. -/
  left : ∀ rest, m.stack = .kernel :: rest → (m.workQIsEmpty = true ↔ m.executed = m.added)
  /-- No job is outstanding when no code is in the kernel. -/
  idle : m.kernelState = false → m.executed = m.added
  /-- A panic has found 255 jobs in the 256 slots. -/
  panic : m.panicked = true → m.added.length - m.taken = 255

/-- What a step does to the jobs. -/
def StepOk (m : State) (op : Op) (m' : State) : Prop :=
  match op with
  | .add a => if m.added.length - m.taken = 255 then m'.panicked = true
      else m'.panicked = false ∧ m'.added = m.added ++ [a.call] ∧ m'.executed = m.executed
  | .call => ∃ c, m.added[m.executed.length]? = some c ∧ m'.executed = m.executed ++ [c] ∧
      m'.added = m.added
  | _ => m'.executed = m.executed ∧ m'.added = m.added ∧ m'.panicked = false

theorem Inv.executed_eq_iff {m : State} (h : Inv m) (hw : work m.stack = []) :
    m.executed = m.added ↔ m.taken = m.added.length := by
  have htaken := h.taken
  rw [hw] at htaken
  have htaken : m.taken = m.executed.length := htaken
  rw [htaken]
  constructor
  · intro heq
    rw [heq]
  · intro heq
    exact h.order.eq_of_length heq

theorem Inv.served {m : State} (h : Inv m) : Served m where
  order := h.order
  left rest hstack := by
    have hok := h.stackOk
    rw [hstack] at hok
    have hw : work m.stack = [] := by
      rw [hstack]
      exact hok.1
    rw [h.executed_eq_iff hw]
    constructor
    · intro he
      by_contra hne
      obtain ⟨slot, ss, ha, _⟩ := h.flagged hne he
      rw [hw] at ha
      cases ha
    · intro heq
      by_contra he
      rw [Bool.not_eq_true] at he
      rcases h.empty he with hne | hdrain
      · exact hne heq
      · rw [hstack] at hdrain
        cases hdrain
  idle hk := by
    obtain ⟨hw, htaken, _⟩ := h.idle hk
    exact (h.executed_eq_iff hw).2 htaken
  panic hp := by
    have := h.panic hp
    omega

theorem Inv.stepOk {m m' : State} {op : Op} (h : Inv m) (hs : step m op = some m') :
    StepOk m op m' := by
  unfold step at hs
  split at hs
  · cases hs
  rename_i hp
  rw [Bool.not_eq_true] at hp
  split at hs
  · split at hs
    · cases hs
    · cases hs
      exact ⟨rfl, rfl, hp⟩
  · split at hs
    · cases hs
    · cases hs
      exact ⟨rfl, rfl, hp⟩
  · split at hs
    · cases hs
      exact ⟨rfl, rfl, hp⟩
    · cases hs
  · cases hs
    exact ⟨rfl, rfl, hp⟩
  · cases hs
    exact ⟨rfl, rfl, hp⟩
  · split at hs
    · cases hs
      have hfull := h.full_iff hp
      obtain ⟨hle, hlt⟩ := h.room
      unfold StepOk workQAdd
      dsimp only
      split
      · rename_i h255
        rw [if_pos (hfull.2 (by omega))]
      · rename_i h255
        rw [if_neg fun he => h255 (by have := hfull.1 he; omega)]
        exact ⟨hp, rfl, rfl⟩
    · cases hs
  · cases hs
    exact ⟨rfl, rfl, hp⟩
  · split at hs
    · cases hs
      exact ⟨rfl, rfl, hp⟩
    · cases hs
  · cases hs
    unfold workQDoWorkFetch
    split <;> exact ⟨rfl, rfl, hp⟩
  · rename_i slot rest hstack
    cases hs
    exact ⟨_, h.next_call hstack, rfl, rfl⟩
  · cases hs
    exact ⟨rfl, rfl, hp⟩
  · cases hs

/-- In a run of sound steps the work queue calls each job once, in the order of
adding and with its own arguments, and it panics when it is full and only then. -/
theorem workQDoWork_serves (jobs : Nat → Job) (ls : List Op) {m : State}
    (hsound : AllSteps step Sound (workQLibInit jobs) ls)
    (hrun : exec step (workQLibInit jobs) ls = some m) :
    Served m ∧ ∀ op m', step m op = some m' → StepOk m op m' := by
  have hinv : Inv m :=
    exec_invariant_of (fun _ _ _ h hP hs => inv_step h hP hs) (inv_init jobs) hsound hrun
  exact ⟨hinv.served, fun _ _ hs => hinv.stepOk hs⟩

/-- An interrupt adds a job in the middle of an `workQAdd1`, and the first of the two
jobs calls `workQDoWork` again. -/
theorem workQDoWork_serves_nested :
    ∃ m, exec step (workQLibInit fun _ => ⟨0, 0, 0, 0⟩)
        [.enter, .add (.workQAdd1 7 1), .store, .interrupt, .add (.workQAdd0 8), .store, .store,
          .store, .intExit, .store, .store, .store, .doWork, .fetch, .call, .doWork, .fetch, .call,
          .jobExit, .fetch, .jobExit, .fetch] = some m ∧
      m.executed = [⟨7, [1]⟩, ⟨8, []⟩] ∧
      (Served m ∧ ∀ op m', step m op = some m' → StepOk m op m') :=
  ⟨_, rfl, rfl, workQDoWork_serves (fun _ => ⟨0, 0, 0, 0⟩)
    [.enter, .add (.workQAdd1 7 1), .store, .interrupt, .add (.workQAdd0 8), .store, .store,
      .store, .intExit, .store, .store, .store, .doWork, .fetch, .call, .doWork, .fetch, .call,
      .jobExit, .fetch, .jobExit, .fetch] (by decide) rfl⟩

/-- The clock interrupt drains the queue while a job has no function yet, or between
the taking of a job and its call: a stale slot is called, or the second job before
the first one. -/
theorem workQDoWork_serves_broken :
    (∃ m, exec step (workQLibInit fun _ => ⟨0, 0, 0, 0⟩)
      [.enter, .add (.workQAdd0 7), .interrupt, .doWork, .fetch, .call] = some m ∧
      ¬ Served m) ∧
    ∃ m, exec step (workQLibInit fun _ => ⟨0, 0, 0, 0⟩)
      [.enter, .add (.workQAdd0 7), .store, .store, .store, .add (.workQAdd0 8), .store, .store,
        .store, .doWork, .fetch, .interrupt, .doWork, .fetch, .call] = some m ∧ ¬ Served m := by
  refine ⟨⟨_, rfl, fun h => ?_⟩, ⟨_, rfl, fun h => ?_⟩⟩
  · have horder := h.order
    revert horder
    decide
  · have horder := h.order
    revert horder
    decide

end Vmx.WorkQ
