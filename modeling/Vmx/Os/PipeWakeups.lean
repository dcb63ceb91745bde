import Vmx.Os.PipeDrv

/-!
# No wake-up of a select is lost

Whenever the pipe is ready for a node, its task has been given the wake-up, or an operation in
progress is going to give it (`Inv`).  The exceptions are a flush of a full pipe for which a select
waits, and an exception task that does not take the job of an interrupt (`Wakes`).
-/

namespace Vmx.Pipe

open Lib

variable {s s' : State} {n : Node} {i : Nat} {pc pc' : Pc} {ok : Bool}

/-- The operation is going to wake the task of the node, or to find that the pipe is not ready. -/
def Pc.serves (n : Node) : Pc → Prop
  | .selTest id type => id = n.id ∧ type = n.type
  | .selWake id type => id = n.id ∧ type = n.type
  | .writeLock => .SELREAD = n.type
  | .writeLocked => .SELREAD = n.type
  | .wakeupAll type _ => type = n.type
  | .wakeupLock type => type = n.type
  | .wakeup type rest => type = n.type ∧ n.id ∈ rest
  | _ => False

/-- The task of the node has its wake-up, or will have it. -/
def Served (ops : List Pc) (n : Node) : Prop := n.woken = true ∨ ∃ pc ∈ ops, pc.serves n

structure Inv (s : State) : Prop where
  bound : s.numMsgs ≤ s.maxMsg
  served : ∀ n ∈ s.wakeupList, s.Ready n.type → Served s.ops n

/-- A flush does not make a full pipe ready for a select that waits, and the exception task takes
the job of an interrupt. -/
def Wakes (s : State) : Label → Prop
  | .call _ => True
  | .run i ok =>
    match s.ops[i]? with
    | some .flush => ok = true → s.numMsgs = s.maxMsg →
        ∀ n ∈ s.wakeupList, n.type = .SELWRITE → n.woken = true
    | some (.wakeupAll _ true) => s.wakeupList ≠ [] → ok = true
    | _ => True

/-! ## The operations in progress -/

theorem mem_set_of_mem {ops : List Pc} {x : Pc} (pc' : Pc) (hi : ops[i]? = some pc) (hx : x ∈ ops) :
    x = pc ∨ x ∈ ops.set i pc' := by
  obtain ⟨j, hj⟩ := List.mem_iff_getElem?.mp hx
  by_cases hij : i = j
  · left
    rw [← hij, hi, Option.some.injEq] at hj
    exact hj.symm
  · right
    apply List.mem_of_getElem? (i := j)
    rw [List.getElem?_set_ne hij]
    exact hj

theorem mem_eraseIdx_of_mem {ops : List Pc} {x : Pc} (hi : ops[i]? = some pc) (hx : x ∈ ops) :
    x = pc ∨ x ∈ ops.eraseIdx i := by
  induction ops generalizing i with
  | nil => cases hx
  | cons y ops ih =>
    cases i with
    | zero =>
      obtain rfl : y = pc := by simpa using hi
      exact List.mem_cons.mp hx
    | succ i =>
      rw [List.eraseIdx_cons_succ]
      rcases List.mem_cons.mp hx with hy | hx
      · exact .inr (by rw [hy]; exact List.mem_cons_self)
      · rcases ih (by simpa using hi) hx with h | h
        · exact .inl h
        · exact .inr (List.mem_cons_of_mem _ h)

theorem mem_set_self {ops : List Pc} (hi : ops[i]? = some pc) : pc' ∈ ops.set i pc' := by
  obtain ⟨hlt, -⟩ := List.getElem?_eq_some_iff.mp hi
  exact List.mem_set hlt pc'

theorem Served.set {ops : List Pc} (h : Served ops n) (hi : ops[i]? = some pc)
    (hpc : pc.serves n → pc'.serves n) : Served (ops.set i pc') n := by
  rcases h with hwoken | ⟨x, hx, hserves⟩
  · exact .inl hwoken
  · right
    rcases mem_set_of_mem pc' hi hx with heq | hmem
    · rw [heq] at hserves
      exact ⟨pc', mem_set_self hi, hpc hserves⟩
    · exact ⟨x, hmem, hserves⟩

theorem Served.eraseIdx {ops : List Pc} (h : Served ops n) (hi : ops[i]? = some pc)
    (hpc : ¬ pc.serves n) : Served (ops.eraseIdx i) n := by
  rcases h with hwoken | ⟨x, hx, hserves⟩
  · exact .inl hwoken
  · right
    rcases mem_eraseIdx_of_mem hi hx with heq | hmem
    · rw [heq] at hserves
      exact absurd hserves hpc
    · exact ⟨x, hmem, hserves⟩

/-! ## One step -/

/-- Operation `i` goes on, and the list and the number of messages are as before. -/
theorem Inv.goOn (h : Inv s) (hi : s.ops[i]? = some pc)
    (hpc : ∀ n ∈ s.wakeupList, pc.serves n → pc'.serves n) : Inv (s.goOn i pc') where
  bound := h.bound
  served n hn hready := (h.served n hn hready).set hi (hpc n hn)

/-- Operation `i` returns, and the pipe is not ready for any node that it was to serve. -/
theorem Inv.finish (h : Inv s) (hi : s.ops[i]? = some pc)
    (hpc : ∀ n ∈ s.wakeupList, s.Ready n.type → ¬ pc.serves n) : Inv (s.finish i) where
  bound := h.bound
  served n hn hready := (h.served n hn hready).eraseIdx hi (hpc n hn hready)

/-- The number of messages changes, and operation `i` is going to wake the tasks for which that
makes the pipe ready. -/
theorem Inv.count {numMsgs : Nat} (h : Inv s) (hi : s.ops[i]? = some pc)
    (hbound : numMsgs ≤ s.maxMsg)
    (hpc : ∀ n ∈ s.wakeupList, ({ s with numMsgs := numMsgs } : State).Ready n.type →
      ¬ s.Ready n.type ∨ pc.serves n → pc'.serves n) :
    Inv ({ s with numMsgs := numMsgs }.goOn i pc') where
  bound := hbound
  served n hn hready := by
    by_cases hold : s.Ready n.type
    · exact (h.served n hn hold).set hi fun hserves => hpc n hn hready (.inr hserves)
    · exact .inr ⟨pc', mem_set_self hi, hpc n hn hready (.inl hold)⟩

/-- `selWakeup` of the next node, after which the operation has only other nodes to serve. -/
theorem Served.woken {ops ops' : List Pc} {id : Nat} {type : SelectType}
    (hops : ¬ (n.id = id ∧ n.type = type) → Served ops n → Served ops' n) (h : Served ops n) :
    Served ops' (if n.id = id ∧ n.type = type then { n with woken := true } else n) := by
  by_cases hmatch : n.id = id ∧ n.type = type
  · rw [if_pos hmatch]
    exact .inl rfl
  · rw [if_neg hmatch]
    exact hops hmatch h

theorem mem_selWakeup {id : Nat} {type : SelectType} {m : Node}
    (hm : m ∈ (s.selWakeup id type).wakeupList) : ∃ n ∈ s.wakeupList,
      (if n.id = id ∧ n.type = type then { n with woken := true } else n) = m ∧
        m.type = n.type := by
  obtain ⟨n, hn, heq⟩ := List.mem_map.mp hm
  refine ⟨n, hn, heq, ?_⟩
  rw [← heq]
  split <;> rfl

theorem inv_run (h : Inv s) (hi : s.ops[i]? = some pc) (hw : Wakes s (.run i ok))
    (hs : s.run i ok pc = some s') : Inv s' := by
  have hbound := h.bound
  simp only [Wakes, hi] at hw
  cases pc with
  | read =>
    rw [State.run] at hs
    split at hs
    · rw [Option.some.injEq] at hs
      rw [← hs]
      exact h.finish hi fun n hn hready => id
    · rw [Option.ite_none_right_eq_some, Option.some.injEq] at hs
      obtain ⟨hpos, hs⟩ := hs
      rw [← hs]
      refine h.count hi (by omega) ?_
      intro n _ hready hserve
      cases htype : n.type with
      | SELWRITE => exact htype.symm
      | SELREAD =>
        rw [htype] at hserve
        rcases hserve with hnot | hserve
        · exact absurd hpos hnot
        · cases hserve
  | write =>
    rw [State.run] at hs
    split at hs
    · rw [Option.some.injEq] at hs
      rw [← hs]
      exact h.finish hi fun n hn hready => id
    · rw [Option.ite_none_right_eq_some, Option.some.injEq] at hs
      obtain ⟨hroom, hs⟩ := hs
      rw [← hs]
      refine h.count hi (by omega) ?_
      intro n _ hready hserve
      cases htype : n.type with
      | SELREAD => exact htype.symm
      | SELWRITE =>
        rw [htype] at hserve
        rcases hserve with hnot | hserve
        · exact absurd hroom hnot
        · cases hserve
  | intWrite =>
    rw [State.run] at hs
    split at hs
    · rename_i hroom
      rw [Option.some.injEq] at hs
      rw [← hs]
      refine h.count hi (by omega) ?_
      intro n _ hready hserve
      cases htype : n.type with
      | SELREAD => exact htype.symm
      | SELWRITE =>
        rw [htype] at hserve
        rcases hserve with hnot | hserve
        · exact absurd hroom.2 hnot
        · cases hserve
    · rw [Option.some.injEq] at hs
      rw [← hs]
      exact h.finish hi fun n hn hready => id
  | flush =>
    rw [State.run] at hs
    split at hs
    · rename_i hpos
      rw [Option.some.injEq] at hs
      rw [← hs]
      refine ⟨by dsimp only; omega, ?_⟩
      intro n hn hready
      cases htype : n.type with
      | SELREAD =>
        apply h.served n hn
        rw [htype]
        exact hpos.2
      | SELWRITE =>
        by_cases hroom : s.numMsgs < s.maxMsg
        · apply h.served n hn
          rw [htype]
          exact hroom
        · exact .inl (hw hpos.1 (by omega) n hn htype)
    · rw [Option.some.injEq] at hs
      rw [← hs]
      exact h.finish hi fun n hn hready => id
  | select taskId type =>
    rw [State.run, Option.ite_none_right_eq_some] at hs
    obtain ⟨-, hs⟩ := hs
    split at hs
    · rw [Option.some.injEq] at hs
      rw [← hs]
      refine ⟨hbound, ?_⟩
      intro n hn hready
      rcases List.mem_append.mp hn with hold | hnew
      · exact (h.served n hold hready).set hi fun hserves => by cases hserves
      · obtain rfl : n = ⟨s.nextId, taskId, type, false⟩ := by simpa using hnew
        exact .inr ⟨_, mem_set_self hi, rfl, rfl⟩
    · rw [Option.some.injEq] at hs
      rw [← hs]
      refine ⟨hbound, ?_⟩
      intro n hn hready
      exact (h.served n hn hready).set hi fun hserves => by cases hserves
  | unselect taskId type =>
    rw [State.run, Option.ite_none_right_eq_some, Option.some.injEq] at hs
    rw [← hs.2]
    refine ⟨hbound, ?_⟩
    intro n hn hready
    exact (h.served n (List.mem_of_mem_eraseP hn) hready).eraseIdx hi id
  | selTest id type =>
    rw [State.run] at hs
    split at hs
    · rw [Option.some.injEq] at hs
      rw [← hs]
      exact h.goOn hi fun n hn hserves => hserves
    · rename_i hnot
      rw [Option.some.injEq] at hs
      rw [← hs]
      refine h.finish hi ?_
      intro n hn hready hserves
      rw [← hserves.2] at hready
      exact hnot hready
  | selWake id type =>
    rw [State.run, Option.some.injEq] at hs
    rw [← hs]
    refine ⟨hbound, ?_⟩
    intro m hm hready
    obtain ⟨n, hn, heq, htype⟩ := mem_selWakeup hm
    rw [htype] at hready
    rw [← heq]
    refine Served.woken ?_ (h.served n hn hready)
    intro hother hserved
    exact hserved.eraseIdx hi fun hserves => hother ⟨hserves.1.symm, hserves.2.symm⟩
  | writeLock =>
    rw [State.run, Option.ite_none_right_eq_some, Option.some.injEq] at hs
    rw [← hs.2]
    exact h.goOn hi fun n hn hserves => hserves
  | writeLocked =>
    rw [State.run] at hs
    split at hs
    · rename_i hnil
      rw [Option.some.injEq] at hs
      rw [← hs]
      refine h.finish hi ?_
      intro n hn
      rw [hnil] at hn
      cases hn
    · rw [Option.some.injEq] at hs
      rw [← hs]
      exact h.goOn hi fun n hn hserves => ⟨hserves, List.mem_map_of_mem hn⟩
  | wakeupAll type intContext =>
    rw [State.run] at hs
    split at hs
    · rename_i hnil
      rw [Option.some.injEq] at hs
      rw [← hs]
      refine h.finish hi ?_
      intro n hn
      rw [hnil] at hn
      cases hn
    · rename_i hsome
      cases intContext with
      | false =>
        rw [if_neg Bool.false_ne_true, Option.some.injEq] at hs
        rw [← hs]
        exact h.goOn hi fun n hn hserves => hserves
      | true =>
        rw [if_pos rfl, if_pos (hw hsome), Option.some.injEq] at hs
        rw [← hs]
        exact h.goOn hi fun n hn hserves => hserves
  | wakeupLock type =>
    rw [State.run, Option.ite_none_right_eq_some, Option.some.injEq] at hs
    rw [← hs.2]
    exact h.goOn hi fun n hn hserves => ⟨hserves, List.mem_map_of_mem hn⟩
  | wakeup type rest =>
    cases rest with
    | nil =>
      rw [State.run, Option.some.injEq] at hs
      rw [← hs]
      refine h.finish hi ?_
      intro n hn hready hserves
      cases hserves.2
    | cons id rest =>
      rw [State.run, Option.some.injEq] at hs
      rw [← hs]
      refine ⟨hbound, ?_⟩
      intro m hm hready
      obtain ⟨n, hn, heq, htype⟩ := mem_selWakeup hm
      rw [htype] at hready
      rw [← heq]
      refine Served.woken ?_ (h.served n hn hready)
      intro hother hserved
      refine hserved.set hi fun hserves => ⟨hserves.1, ?_⟩
      rcases List.mem_cons.mp hserves.2 with hid | hrest
      · exact absurd ⟨hid, hserves.1.symm⟩ hother
      · exact hrest

theorem inv_step {l : Label} (h : Inv s) (hw : Wakes s l) (hs : step s l = some s') : Inv s' := by
  cases l with
  | call c =>
    rw [step, Option.some.injEq] at hs
    rw [← hs]
    refine ⟨h.bound, ?_⟩
    intro n hn hready
    rcases h.served n hn hready with hwoken | ⟨x, hx, hserves⟩
    · exact .inl hwoken
    · exact .inr ⟨x, List.mem_append_left _ hx, hserves⟩
  | run i ok =>
    rw [step] at hs
    cases hi : s.ops[i]? with
    | none => simp [hi] at hs
    | some pc =>
      simp only [hi] at hs
      exact inv_run h hi hw hs

/-! ## Runs -/

theorem inv_pipeDevCreate (maxMsg : Nat) : Inv (pipeDevCreate maxMsg) where
  bound := Nat.zero_le _
  served _ hn := absurd hn List.not_mem_nil

/-- With no operation in progress only `woken` is left of the invariant. -/
theorem Inv.noLostWakeup (h : Inv s) : NoLostWakeup s := by
  intro hops n hn hready
  rcases h.served n hn hready with hwoken | ⟨x, hx, -⟩
  · exact hwoken
  · rw [hops] at hx
    cases hx

/-- A select for reading, and a write. -/
def selectRun : List Label :=
  [.call (.FIOSELECT 7 .SELREAD), .run 0 true, .run 0 true, .call (.pipeWrite false), .run 0 true,
    .run 0 true, .run 0 true, .run 0 true, .run 0 true]

/-- A write fills the pipe, a select for writing waits, and a flush empties the pipe. -/
def flushRun : List Label :=
  [.call (.pipeWrite false), .run 0 true, .run 0 true, .run 0 true,
    .call (.FIOSELECT 7 .SELWRITE), .run 0 true, .run 0 true,
    .call .FIOFLUSH, .run 0 true, .run 0 true]

end Vmx.Pipe
