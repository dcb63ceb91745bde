import Vmx.Os.TyLib
import Vmx.Util.RngFifo

/-!
# The buffers of a typewriter device

What the operations do to the bytes that a buffer holds and to those that are written ahead,
as the bounded queue of `rng_fifo` says it, also for a buffer that does not exist.
-/

namespace Vmx.Ty

open Rng hiding Ring

variable {ringId : RingId} {r : Rng.Ring UInt8}

/-- The bytes that are held. -/
def held (ringId : RingId) : List UInt8 := (ringId.map Ring.held).getD []

/-- The bytes behind them. -/
def ahead (ringId : RingId) : List UInt8 := (ringId.map Ring.ahead).getD []

def Valid (ringId : RingId) : Prop := ∀ r, ringId = some r → r.Valid

/-- How many bytes there is room for in the whole buffer. -/
def capacity (ringId : RingId) : Nat := (held ringId).length + (ahead ringId).length

@[simp] theorem held_some (r : Rng.Ring UInt8) : held (some r) = r.held := rfl

@[simp] theorem ahead_some (r : Rng.Ring UInt8) : ahead (some r) = r.ahead := rfl

@[simp] theorem held_none : held none = [] := rfl

@[simp] theorem ahead_none : ahead none = [] := rfl

@[simp] theorem valid_none : Valid none := fun _ h => absurd h (Option.some_ne_none _).symm

@[simp] theorem valid_some : Valid (some r) ↔ r.Valid := by simp [Valid]

theorem capacity_some (h : r.Valid) : capacity (some r) = r.bufferSize - 1 := by
  have hlt := h.count_lt
  rw [capacity, held_some, ahead_some, length_held, length_ahead]
  omega

theorem freeBytes_eq (h : Valid ringId) : freeBytes ringId = (ahead ringId).length := by
  cases ringId with
  | none => rfl
  | some r =>
    have hr : r.Valid := h r rfl
    have hlt := hr.count_lt
    rw [freeBytes, rngFreeBytes_eq hr, ahead_some, length_ahead]
    omega

/-- The buffer after the operation, as a queue. -/
structure After (ringId ringId' : RingId) (held' ahead' : List UInt8) : Prop where
  valid : Valid ringId'
  held : held ringId' = held'
  ahead : ahead ringId' = ahead'

/-- A ring whose step is a step of the queue. -/
theorem after_of_becomes {r' : Rng.Ring UInt8} {held' ahead' : List UInt8} (h : r.Valid)
    (h' : r'.Valid) (hb : Fifo.Becomes (r.fifo h) (r'.fifo h') held' ahead') :
    After (some r) (some r') held' ahead' :=
  ⟨valid_some.2 h', hb.2.1, hb.2.2⟩

theorem bufGet_spec (h : Valid ringId) (n : Nat) :
    (bufGet ringId n).2 = (held ringId).take n ∧
      ∃ junk, After ringId (bufGet ringId n).1 ((held ringId).drop n) (ahead ringId ++ junk) := by
  cases ringId with
  | none => exact ⟨List.take_nil.symm, [], valid_none, List.drop_nil.symm, rfl⟩
  | some r =>
    have hr : r.Valid := h r rfl
    obtain ⟨h', _, hres, junk, hb⟩ := step_refines (.bufGet n) hr rfl
    exact ⟨congrArg Result.bytes hres, junk, after_of_becomes hr h' hb⟩

theorem bufPut_spec (h : Valid ringId) (bytes : List UInt8) :
    (bufPut ringId bytes).2 = min bytes.length (ahead ringId).length ∧
      After ringId (bufPut ringId bytes).1 (held ringId ++ bytes.take (ahead ringId).length)
        ((ahead ringId).drop bytes.length) := by
  cases ringId with
  | none => exact ⟨(Nat.min_zero _).symm, valid_none, rfl, List.drop_nil.symm⟩
  | some r =>
    have hr : r.Valid := h r rfl
    obtain ⟨h', _, hres, hb⟩ := step_refines (.bufPut bytes) hr rfl
    have hroom : (r.fifo hr).capacity - (r.fifo hr).held.length = r.ahead.length := by
      have := (r.fifo hr).room
      have hahead : (r.fifo hr).ahead = r.ahead := rfl
      rw [hahead] at this
      omega
    rw [hroom] at hres hb
    exact ⟨congrArg Result.count hres, after_of_becomes hr h' hb⟩

/-- A byte is taken from a ring. -/
theorem elemGet_spec (h : r.Valid) :
    (rngElemGet r).2 = r.held.head? ∧
      ∃ junk, After (some r) (some (rngElemGet r).1) r.held.tail (r.ahead ++ junk) := by
  obtain ⟨h', _, hres, junk, hb⟩ := step_refines .elemGet h rfl
  have hbytes : (rngElemGet r).2.toList = r.held.take 1 := congrArg Result.bytes hres
  refine ⟨?_, junk, ?_⟩
  · cases hheld : r.held with
    | nil =>
      rw [hheld] at hbytes
      simpa using hbytes
    | cons c l =>
      rw [hheld] at hbytes
      simpa using hbytes
  · rw [← List.drop_one]
    exact after_of_becomes h h' hb

/-- A byte is put in a ring, if there is room. -/
theorem elemPut_spec (h : r.Valid) (c : UInt8) :
    After (some r) (some (rngElemPut r c).1) (r.held ++ [c].take r.ahead.length)
      (r.ahead.drop 1) := by
  obtain ⟨h', _, hres, hb⟩ := step_refines (.elemPut c) h rfl
  have hroom : (r.fifo h).capacity - (r.fifo h).held.length = r.ahead.length := by
    have := (r.fifo h).room
    have hahead : (r.fifo h).ahead = r.ahead := rfl
    rw [hahead] at this
    omega
  rw [hroom] at hb
  exact after_of_becomes h h' hb

/-- A byte is written ahead, into the room that there is. -/
theorem putAhead_spec (h : Valid ringId) (c : UInt8) {offset : Nat}
    (hoff : offset ≤ (ahead ringId).length) :
    After ringId (ringId.map fun r => rngPutAhead r c offset) (held ringId)
      ((ahead ringId).set offset c) := by
  cases ringId with
  | none => exact ⟨valid_none, rfl, rfl⟩
  | some r =>
    have hr : r.Valid := h r rfl
    rw [ahead_some, length_ahead] at hoff
    obtain ⟨h', _, _, hb⟩ := refines_putAhead hr c hoff
    exact after_of_becomes hr h' hb

/-- The bytes that are written ahead become visible. -/
theorem moveAhead_spec (h : Valid ringId) {offset : Nat} (hoff : offset ≤ (ahead ringId).length) :
    After ringId (ringId.map fun r => rngMoveAhead r offset)
      (held ringId ++ (ahead ringId).take offset) ((ahead ringId).drop offset) := by
  cases ringId with
  | none => exact ⟨valid_none, by simp, by simp⟩
  | some r =>
    have hr : r.Valid := h r rfl
    rw [ahead_some, length_ahead] at hoff
    obtain ⟨h', _, _, hb⟩ := refines_moveAhead hr hoff
    exact after_of_becomes hr h' hb

theorem flush_spec (h : Valid ringId) :
    Valid (ringId.map rngFlush) ∧ held (ringId.map rngFlush) = [] ∧
      (ahead (ringId.map rngFlush)).length = capacity ringId := by
  cases ringId with
  | none => exact ⟨valid_none, rfl, rfl⟩
  | some r =>
    have hr : r.Valid := h r rfl
    obtain ⟨h', hsize, _, junk, hb⟩ := step_refines .flush hr rfl
    have hafter := after_of_becomes hr h' hb
    refine ⟨hafter.valid, hafter.held, ?_⟩
    have hcap := capacity_some h'
    have hcap' := capacity_some hr
    have hheld : (rngFlush r).held = [] := hafter.held
    rw [capacity, held_some, hheld, List.length_nil, Nat.zero_add] at hcap
    rw [hcap', ← hsize]
    exact hcap

theorem ringCreate_spec (memory : Option (Nat → UInt8)) (size : Nat) :
    Valid (ringCreate memory size) ∧ held (ringCreate memory size) = [] ∧
      capacity (ringCreate memory size) = if memory.isSome then size else 0 := by
  cases memory with
  | none => exact ⟨valid_none, rfl, rfl⟩
  | some memory =>
    have h : (rngCreate memory size).Valid := ⟨Nat.succ_pos size, Nat.succ_pos size⟩
    exact ⟨valid_some.2 h, rfl, capacity_some h⟩

/-- The capacity stays when bytes only move. -/
theorem After.capacity_eq {ringId' : RingId} {held' ahead' : List UInt8}
    (h : After ringId ringId' held' ahead') :
    capacity ringId' = held'.length + ahead'.length := by
  rw [capacity, h.held, h.ahead]

end Vmx.Ty
