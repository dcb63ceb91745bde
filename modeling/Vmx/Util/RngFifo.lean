import Vmx.Util.RngLib
import Vmx.Lib.Transition

/-!
# A ring is a bounded queue

`Fifo` is what a ring is for: a queue with a capacity, and a tail of slots that can be
written before they are part of the queue.  `rng_fifo` is the refinement: every call on a
ring does to the bytes it holds what the call does to the queue, and returns the same.

The block calls split a block at the end of the memory.  They are first shown to leave
the very state that the element calls leave when they are made one after another
(`rngBufPut_eq`, `rngBufGet_eq`), so only the element calls meet the queue.
-/

namespace Vmx.Rng

open Lib

universe u

variable {α : Type u}

/-! ## The bytes of a ring -/

namespace Ring

variable (r : Ring α)

/-- The offsets are inside the memory. -/
structure Valid : Prop where
  to_lt : r.offsetToBuffer < r.bufferSize
  from_lt : r.offsetFromBuffer < r.bufferSize

/-- The number of bytes that are held. -/
def count : Nat :=
  if r.offsetFromBuffer ≤ r.offsetToBuffer then r.offsetToBuffer - r.offsetFromBuffer
  else r.offsetToBuffer + r.bufferSize - r.offsetFromBuffer

/-- The bytes that are held. -/
def held : List α := window r.buffer r.bufferSize r.offsetFromBuffer r.count

/-- What is written behind them. -/
def ahead : List α :=
  window r.buffer r.bufferSize (r.offsetFromBuffer + r.count) (r.bufferSize - 1 - r.count)

end Ring

namespace Ring.Valid

variable {r r' : Ring α}

theorem count_lt (h : r.Valid) : r.count < r.bufferSize := by
  obtain ⟨hto, hfrom⟩ := h
  unfold count
  split <;> omega

theorem to_eq (h : r.Valid) : (r.offsetFromBuffer + r.count) % r.bufferSize = r.offsetToBuffer := by
  obtain ⟨hto, hfrom⟩ := h
  unfold count
  split
  next hle =>
    rw [Nat.add_sub_cancel' hle, Nat.mod_eq_of_lt hto]
  next hlt =>
    have hsum : r.offsetFromBuffer + (r.offsetToBuffer + r.bufferSize - r.offsetFromBuffer) =
        r.offsetToBuffer + r.bufferSize := by omega
    rw [hsum, Nat.add_mod_right, Nat.mod_eq_of_lt hto]

/-- The number of bytes is known from the offsets. -/
theorem count_eq (h : r.Valid) {k : Nat} (hk : k < r.bufferSize)
    (hto : r.offsetToBuffer = (r.offsetFromBuffer + k) % r.bufferSize) : r.count = k := by
  have hlt := h.count_lt
  have heq := eq_of_slot (a := r.offsetFromBuffer) (h.to_eq.trans hto) (by omega) (by omega)
  omega

end Ring.Valid

variable {r : Ring α}

theorem length_held : r.held.length = r.count := length_window

theorem length_ahead : r.ahead.length = r.bufferSize - 1 - r.count := length_window

/-! ## The counts -/

theorem rngNBytes_eq (h : r.Valid) : rngNBytes r = r.count := by
  obtain ⟨hto, hfrom⟩ := h
  unfold rngNBytes Ring.count
  dsimp only
  split <;> split <;> omega

theorem rngFreeBytes_eq (h : r.Valid) : rngFreeBytes r = r.bufferSize - 1 - r.count := by
  obtain ⟨hto, hfrom⟩ := h
  unfold rngFreeBytes Ring.count
  dsimp only
  split <;> split <;> omega

theorem rngIsEmpty_iff (h : r.Valid) : rngIsEmpty r = true ↔ r.count = 0 := by
  obtain ⟨hto, hfrom⟩ := h
  unfold rngIsEmpty Ring.count
  rw [beq_iff_eq]
  split <;> omega

theorem rngIsFull_iff (h : r.Valid) : rngIsFull r = true ↔ r.count + 1 = r.bufferSize := by
  obtain ⟨hto, hfrom⟩ := h
  unfold rngIsFull Ring.count
  dsimp only
  rw [Bool.or_eq_true, beq_iff_eq, beq_iff_eq]
  split <;> omega

/-! ## Elements -/

/-- The offset that follows, at the end of the memory the first one. -/
theorem succ_mod {n i : Nat} (hi : i < n) : (i + 1) % n = if i + 1 = n then 0 else i + 1 := by
  split
  next h => rw [h, Nat.mod_self]
  next h => rw [Nat.mod_eq_of_lt (by omega)]

theorem rngElemPut_full (h : r.Valid) (hfull : r.count + 1 = r.bufferSize) (c : α) :
    rngElemPut r c = (r, false) := by
  obtain ⟨hto, hfrom⟩ := h
  unfold Ring.count at hfull
  unfold rngElemPut
  dsimp only
  split
  · rfl
  · split
    · split
      · rfl
      · split at hfull <;> omega
    · split at hfull <;> omega

/-- A byte that is put goes to the slot at the end. -/
theorem rngElemPut_room (h : r.Valid) (hroom : r.count + 1 < r.bufferSize) (c : α) :
    rngElemPut r c =
      ({ r with
          buffer := Function.update r.buffer r.offsetToBuffer c
          offsetToBuffer := (r.offsetToBuffer + 1) % r.bufferSize }, true) := by
  obtain ⟨hto, hfrom⟩ := h
  unfold Ring.count at hroom
  unfold rngElemPut
  rw [succ_mod hto]
  dsimp only
  split
  · split at hroom <;> omega
  · split
    · split
      · split at hroom <;> omega
      · rw [if_pos (by omega)]
    · rw [if_neg (by omega)]

theorem rngElemGet_empty (hempty : r.count = 0) (h : r.Valid) : rngElemGet r = (r, none) := by
  have heq : r.offsetToBuffer = r.offsetFromBuffer := by
    have := (rngIsEmpty_iff h).2 hempty
    rwa [rngIsEmpty, beq_iff_eq] at this
  unfold rngElemGet
  rw [if_pos heq]

/-- A byte that is read is the one of the first slot. -/
theorem rngElemGet_held (h : r.Valid) (hpos : 0 < r.count) :
    rngElemGet r =
      ({ r with offsetFromBuffer := (r.offsetFromBuffer + 1) % r.bufferSize },
        some (r.buffer r.offsetFromBuffer)) := by
  have hne : r.offsetToBuffer ≠ r.offsetFromBuffer := fun heq => by
    have := (rngIsEmpty_iff h).1 (by rw [rngIsEmpty, beq_iff_eq, heq])
    omega
  unfold rngElemGet
  rw [succ_mod h.from_lt]
  dsimp only
  rw [if_neg hne]
  split <;> rfl

/-! ## The offsets after a call -/

namespace Ring

/-- The end moves on. -/
def put (r : Ring α) (buffer : Nat → α) (w : Nat) : Ring α :=
  { r with buffer := buffer, offsetToBuffer := (r.offsetToBuffer + w) % r.bufferSize }

/-- The beginning moves on. -/
def get (r : Ring α) (w : Nat) : Ring α :=
  { r with offsetFromBuffer := (r.offsetFromBuffer + w) % r.bufferSize }

namespace Valid

variable {w : Nat}

theorem put (h : r.Valid) (buffer : Nat → α) : (r.put buffer w).Valid :=
  ⟨Nat.mod_lt _ (Nat.zero_lt_of_lt h.to_lt), h.from_lt⟩

theorem get (h : r.Valid) : (r.get w).Valid :=
  ⟨h.to_lt, Nat.mod_lt _ (Nat.zero_lt_of_lt h.from_lt)⟩

theorem count_put (h : r.Valid) (buffer : Nat → α) (hw : r.count + w < r.bufferSize) :
    (r.put buffer w).count = r.count + w := by
  refine (h.put buffer).count_eq hw ?_
  show (r.offsetToBuffer + w) % r.bufferSize = _
  rw [← h.to_eq, Nat.mod_add_mod, Nat.add_assoc]
  rfl

theorem count_get (h : r.Valid) (hw : w ≤ r.count) : (r.get w).count = r.count - w := by
  have hlt := h.count_lt
  refine h.get.count_eq (by show r.count - w < r.bufferSize; omega) ?_
  show r.offsetToBuffer = ((r.offsetFromBuffer + w) % r.bufferSize + (r.count - w)) % r.bufferSize
  have hsum : r.offsetFromBuffer + w + (r.count - w) = r.offsetFromBuffer + r.count := by omega
  rw [Nat.mod_add_mod, hsum, h.to_eq]

end Valid

end Ring

/-! ## Blocks -/

theorem putEach_stop {bytes : List α} (h : r.Valid)
    (hstop : bytes = [] ∨ r.count + 1 = r.bufferSize) : putEach r bytes = (r, 0) := by
  cases bytes with
  | nil => rfl
  | cons c bytes =>
    have hfull := hstop.resolve_left (List.cons_ne_nil c bytes)
    simp [putEach, rngElemPut_full h hfull]

/-- Up to the end of the memory, bytes that are put one by one are a block. -/
theorem putEach_append (h : r.Valid) (bytes rest : List α)
    (hroom : r.count + bytes.length < r.bufferSize)
    (hfit : r.offsetToBuffer + bytes.length ≤ r.bufferSize) :
    putEach r (bytes ++ rest) =
      ((putEach (r.put (copyIn r.buffer r.offsetToBuffer bytes) bytes.length) rest).1,
        (putEach (r.put (copyIn r.buffer r.offsetToBuffer bytes) bytes.length) rest).2 +
          bytes.length) := by
  induction bytes generalizing r with
  | nil =>
    have hsame : r.put (copyIn r.buffer r.offsetToBuffer []) 0 = r := by
      rw [Ring.put, Nat.add_zero, Nat.mod_eq_of_lt h.to_lt]
      rfl
    rw [List.length_nil, hsame]
    rfl
  | cons c bytes ih =>
    rw [List.length_cons] at hroom hfit
    have hput : rngElemPut r c =
        (r.put (Function.update r.buffer r.offsetToBuffer c) 1, true) :=
      rngElemPut_room h (by omega) c
    have hcount := h.count_put (w := 1) (Function.update r.buffer r.offsetToBuffer c) (by omega)
    have hstep : (r.put (Function.update r.buffer r.offsetToBuffer c) 1).put
        (copyIn (Function.update r.buffer r.offsetToBuffer c)
          ((r.offsetToBuffer + 1) % r.bufferSize) bytes) bytes.length =
        r.put (copyIn r.buffer r.offsetToBuffer (c :: bytes)) (bytes.length + 1) := by
      have hto : (r.offsetToBuffer + (bytes.length + 1)) % r.bufferSize =
          ((r.offsetToBuffer + 1) % r.bufferSize + bytes.length) % r.bufferSize := by
        rw [Nat.mod_add_mod]
        congr 1
        omega
      rw [Ring.put, Ring.put, Ring.put, hto]
      congr 1
      cases bytes with
      | nil => rfl
      | cons c' bytes =>
        rw [List.length_cons] at hfit
        rw [Nat.mod_eq_of_lt (by omega)]
        rfl
    have hrest := ih (h.put _) (by
      rw [hcount]
      show r.count + 1 + bytes.length < r.bufferSize
      omega) (by
      show (r.offsetToBuffer + 1) % r.bufferSize + bytes.length ≤ r.bufferSize
      have := Nat.mod_le (r.offsetToBuffer + 1) r.bufferSize
      omega)
    rw [List.cons_append, putEach, hput]
    dsimp only
    rw [if_pos rfl, hrest, List.length_cons, ← hstep]
    rfl

/-- The same, for the first bytes of a block. -/
theorem putEach_take (h : r.Valid) {bytes : List α} {w : Nat} (hw : w ≤ bytes.length)
    (hroom : r.count + w < r.bufferSize) (hfit : r.offsetToBuffer + w ≤ r.bufferSize) :
    putEach r bytes =
      ((putEach (r.put (copyIn r.buffer r.offsetToBuffer (bytes.take w)) w) (bytes.drop w)).1,
        (putEach (r.put (copyIn r.buffer r.offsetToBuffer (bytes.take w)) w) (bytes.drop w)).2 +
          w) := by
  have hlen : (bytes.take w).length = w := List.length_take_of_le hw
  have happ := putEach_append h (bytes.take w) (bytes.drop w) (by rw [hlen]; exact hroom)
    (by rw [hlen]; exact hfit)
  rw [List.take_append_drop, hlen] at happ
  exact happ

/-- A block that does not reach the end of the memory, and takes all there is to put or all
the room. -/
theorem putEach_straight (h : r.Valid) (bytes : List α) {w : Nat} (hw : w ≤ bytes.length)
    (hroom : r.count + w < r.bufferSize) (hfit : r.offsetToBuffer + w < r.bufferSize)
    (hstop : w = bytes.length ∨ r.count + w + 1 = r.bufferSize) :
    putEach r bytes =
      ({ r with
          buffer := copyIn r.buffer r.offsetToBuffer (bytes.take w)
          offsetToBuffer := r.offsetToBuffer + w }, w) := by
  have hend : bytes.drop w = [] ∨
      (r.put (copyIn r.buffer r.offsetToBuffer (bytes.take w)) w).count + 1 = r.bufferSize := by
    rw [h.count_put _ hroom, List.drop_eq_nil_iff]
    omega
  rw [putEach_take h hw hroom (Nat.le_of_lt hfit), putEach_stop (h.put _) hend, Ring.put,
    Nat.mod_eq_of_lt hfit, Nat.zero_add]

theorem rngBufPut_eq (h : r.Valid) (bytes : List α) : rngBufPut r bytes = putEach r bytes := by
  have hto := h.to_lt
  have hfrom := h.from_lt
  have hcount : r.count = if r.offsetFromBuffer ≤ r.offsetToBuffer
      then r.offsetToBuffer - r.offsetFromBuffer
      else r.offsetToBuffer + r.bufferSize - r.offsetFromBuffer := rfl
  unfold rngBufPut
  dsimp only
  split
  next hgt =>
    -- the room is between the offsets
    rw [if_neg (by omega)] at hcount
    exact (putEach_straight h bytes (by omega) (by omega) (by omega) (by omega)).symm
  next hle =>
    rw [if_pos (by omega)] at hcount
    split
    next hzero => exact (putEach_straight h bytes (by omega) (by omega) (by omega) (by omega)).symm
    next hpos =>
      split
      next hwrap =>
        -- the block goes on at the first slot
        obtain ⟨w, hw⟩ : ∃ w, w = min bytes.length (r.bufferSize - r.offsetToBuffer) := ⟨_, rfl⟩
        rw [← hw] at hwrap ⊢
        have hroom : r.count + w < r.bufferSize := by omega
        have hcount' := h.count_put (copyIn r.buffer r.offsetToBuffer (bytes.take w)) hroom
        have hzero : (r.offsetToBuffer + w) % r.bufferSize = 0 := by rw [hwrap, Nat.mod_self]
        have hlen : (bytes.drop w).length = bytes.length - w := List.length_drop
        have hrest := putEach_straight (h.put (copyIn r.buffer r.offsetToBuffer (bytes.take w)))
          (bytes.drop w) (w := min (bytes.length - w) (r.offsetFromBuffer - 1)) (by omega)
          (by
            rw [hcount']
            show _ < r.bufferSize
            omega)
          (by
            show (r.offsetToBuffer + w) % r.bufferSize + _ < r.bufferSize
            omega)
          (by
            rw [hcount']
            show _ ∨ _ = r.bufferSize
            omega)
        rw [putEach_take h (by omega) hroom (by omega), hrest]
        simp only [Ring.put, hzero, Nat.zero_add, Nat.add_comm w]
      next hstraight =>
        exact (putEach_straight h bytes (by omega) (by omega) (by omega) (by omega)).symm

theorem getEach_stop {n : Nat} (h : r.Valid) (hstop : n = 0 ∨ r.count = 0) :
    getEach r n = (r, []) := by
  cases n with
  | zero => rfl
  | succ n =>
    have hempty := hstop.resolve_left (Nat.succ_ne_zero n)
    simp [getEach, rngElemGet_empty hempty h]

/-- Up to the end of the memory, bytes that are read one by one are a block. -/
theorem getEach_add (h : r.Valid) (k n : Nat) (hk : k ≤ r.count)
    (hfit : r.offsetFromBuffer + k ≤ r.bufferSize) :
    getEach r (k + n) =
      ((getEach (r.get k) n).1, copyOut r.buffer r.offsetFromBuffer k ++ (getEach (r.get k) n).2) := by
  induction k generalizing r with
  | zero =>
    have hsame : r.get 0 = r := by
      rw [Ring.get, Nat.add_zero, Nat.mod_eq_of_lt h.from_lt]
    rw [hsame, Nat.zero_add]
    rfl
  | succ k ih =>
    have hget : rngElemGet r = (r.get 1, some (r.buffer r.offsetFromBuffer)) :=
      rngElemGet_held h (by omega)
    have hcount := h.count_get (w := 1) (by omega)
    have hstep : (r.get 1).get k = r.get (k + 1) := by
      simp only [Ring.get, Nat.mod_add_mod, Nat.add_assoc, Nat.add_comm 1 k]
    have hcopy : copyOut r.buffer r.offsetFromBuffer (k + 1) =
        r.buffer r.offsetFromBuffer ::
          copyOut r.buffer ((r.offsetFromBuffer + 1) % r.bufferSize) k := by
      cases k with
      | zero => rfl
      | succ k =>
        rw [Nat.mod_eq_of_lt (by omega)]
        rfl
    have hrest := ih h.get (by rw [hcount]; omega) (by
      show (r.offsetFromBuffer + 1) % r.bufferSize + k ≤ r.bufferSize
      have := Nat.mod_le (r.offsetFromBuffer + 1) r.bufferSize
      omega)
    have hsum : k + 1 + n = k + n + 1 := by omega
    rw [hsum, getEach, hget]
    dsimp only
    rw [hrest, hstep, hcopy]
    rfl

/-- A block that does not reach the end of the memory, and takes all that is asked for or all
that is held. -/
theorem getEach_straight (h : r.Valid) {k n : Nat} (hk : k ≤ r.count) (hkn : k ≤ n)
    (hfit : r.offsetFromBuffer + k < r.bufferSize) (hstop : k = n ∨ k = r.count) :
    getEach r n =
      ({ r with offsetFromBuffer := r.offsetFromBuffer + k },
        copyOut r.buffer r.offsetFromBuffer k) := by
  obtain ⟨d, rfl⟩ := Nat.exists_eq_add_of_le hkn
  have hend : d = 0 ∨ (r.get k).count = 0 := by
    rw [h.count_get hk]
    omega
  rw [getEach_add h k d hk (Nat.le_of_lt hfit), getEach_stop h.get hend, List.append_nil, Ring.get,
    Nat.mod_eq_of_lt hfit]

theorem rngBufGet_eq (h : r.Valid) (n : Nat) : rngBufGet r n = getEach r n := by
  have hto := h.to_lt
  have hfrom := h.from_lt
  have hcount : r.count = if r.offsetFromBuffer ≤ r.offsetToBuffer
      then r.offsetToBuffer - r.offsetFromBuffer
      else r.offsetToBuffer + r.bufferSize - r.offsetFromBuffer := rfl
  unfold rngBufGet
  dsimp only
  split
  next hle =>
    rw [if_pos hle] at hcount
    exact (getEach_straight h (by omega) (by omega) (by omega) (by omega)).symm
  next hlt =>
    rw [if_neg hlt] at hcount
    split
    next hwrap =>
      -- the block goes on at the first slot
      obtain ⟨k, hk⟩ : ∃ k, k = min n (r.bufferSize - r.offsetFromBuffer) := ⟨_, rfl⟩
      rw [← hk] at hwrap ⊢
      obtain ⟨d, hd⟩ : ∃ d, n = k + d := ⟨n - k, by omega⟩
      have hzero : (r.offsetFromBuffer + k) % r.bufferSize = 0 := by rw [hwrap, Nat.mod_self]
      have hcount' := h.count_get (w := k) (by omega)
      have hrest := getEach_straight h.get (k := min d r.offsetToBuffer) (n := d)
        (by rw [hcount']; omega) (by omega)
        (by
          show (r.offsetFromBuffer + k) % r.bufferSize + _ < r.bufferSize
          omega)
        (by rw [hcount']; omega)
      have hdk : k + d - k = d := by omega
      rw [hd, getEach_add h k d (by omega) (by omega), hrest, hdk]
      simp only [Ring.get, hzero, Nat.zero_add]
    next hstraight =>
      exact (getEach_straight h (by omega) (by omega) (by omega) (by omega)).symm

/-! ## The queue -/

/-- A bounded queue, with the bytes that are written behind it. -/
structure Fifo (α : Type u) where
  capacity : Nat
  held : List α
  ahead : List α
  room : held.length + ahead.length = capacity

namespace Fifo

variable (f f' : Fifo α)

/-- The queue and the bytes behind it have changed to these. -/
def Becomes (held ahead : List α) : Prop :=
  f'.capacity = f.capacity ∧ f'.held = held ∧ f'.ahead = ahead

/-- A put accepts the bytes for which there is room. -/
def Put (bytes : List α) (res : Result α) : Prop :=
  res = ⟨min bytes.length (f.capacity - f.held.length), []⟩ ∧
    Becomes f f' (f.held ++ bytes.take (f.capacity - f.held.length)) (f.ahead.drop bytes.length)

/-- A get returns the first bytes; what leaves the queue is junk behind its end. -/
def Get (nBytes : Nat) (res : Result α) : Prop :=
  res = ⟨min nBytes f.held.length, f.held.take nBytes⟩ ∧
    ∃ junk, Becomes f f' (f.held.drop nBytes) (f.ahead ++ junk)

/-- What a call does to a queue. -/
def Step : Op α → Result α → Prop
  | .elemPut c, res => Put f f' [c] res
  | .elemGet, res => Get f f' 1 res
  | .bufPut bytes, res => Put f f' bytes res
  | .bufGet nBytes, res => Get f f' nBytes res
  | .flush, res => res = ⟨0, []⟩ ∧ ∃ junk, Becomes f f' [] junk
  | .putAhead c offset, res => res = ⟨0, []⟩ ∧ Becomes f f' f.held (f.ahead.set offset c)
  | .moveAhead offset, res =>
    res = ⟨0, []⟩ ∧ Becomes f f' (f.held ++ f.ahead.take offset) (f.ahead.drop offset)

/-- A run of a queue, with what the calls return. -/
inductive Run : Fifo α → List (Op α × Result α) → Fifo α → Prop where
  | nil (f : Fifo α) : Run f [] f
  | snoc {f f' f'' : Fifo α} {log : List (Op α × Result α)} {op : Op α} {res : Result α} :
      Run f log f' → Step f' f'' op res → Run f (log ++ [(op, res)]) f''

end Fifo

/-- The queue that a ring is. -/
def Ring.fifo (r : Ring α) (h : r.Valid) : Fifo α where
  capacity := r.bufferSize - 1
  held := r.held
  ahead := r.ahead
  room := by
    have := h.count_lt
    rw [length_held, length_ahead]
    omega

/-! ## The bytes after a call -/

theorem held_put_one (h : r.Valid) (hroom : r.count + 1 < r.bufferSize) (c : α) :
    (r.put (Function.update r.buffer r.offsetToBuffer c) 1).held = r.held ++ [c] ∧
      (r.put (Function.update r.buffer r.offsetToBuffer c) 1).ahead = r.ahead.drop 1 := by
  have hcount := h.count_put (Function.update r.buffer r.offsetToBuffer c) hroom
  constructor
  · show window _ r.bufferSize r.offsetFromBuffer _ = _
    rw [hcount]
    show window (Function.update r.buffer r.offsetToBuffer c) r.bufferSize _ _ = _
    rw [← h.to_eq, window_update (by omega) (by omega), window_add, window_one,
      List.set_append_right _ _ (by rw [length_window]), length_window, Nat.sub_self]
    rfl
  · show window (Function.update r.buffer r.offsetToBuffer c) r.bufferSize
      (r.offsetFromBuffer + _) (r.bufferSize - 1 - _) = _
    have hslot : r.offsetToBuffer =
        (r.offsetFromBuffer + (r.count + 1) + (r.bufferSize - 1)) % r.bufferSize := by
      have hsum : r.offsetFromBuffer + (r.count + 1) + (r.bufferSize - 1) =
          r.offsetFromBuffer + r.count + r.bufferSize := by omega
      rw [hsum, Nat.add_mod_right, h.to_eq]
    rw [hcount, hslot, window_update (by omega) (by omega),
      List.set_eq_of_length_le (by rw [length_window]; omega), Ring.ahead,
      drop_window (by omega)]
    congr 1

theorem held_get (h : r.Valid) {w : Nat} (hw : w ≤ r.count) :
    (r.get w).held = r.held.drop w ∧ ∃ junk, (r.get w).ahead = r.ahead ++ junk := by
  have hcount := h.count_get hw
  have hlt := h.count_lt
  constructor
  · show window r.buffer r.bufferSize ((r.offsetFromBuffer + w) % r.bufferSize) _ = _
    rw [hcount, window_mod, Ring.held, drop_window hw]
  · refine ⟨window r.buffer r.bufferSize
      (r.offsetFromBuffer + r.count + (r.bufferSize - 1 - r.count)) w, ?_⟩
    show window r.buffer r.bufferSize ((r.offsetFromBuffer + w) % r.bufferSize + _) _ = _
    have hstart : ((r.offsetFromBuffer + w) % r.bufferSize + (r.count - w)) % r.bufferSize =
        (r.offsetFromBuffer + r.count) % r.bufferSize := by
      have hsum : r.offsetFromBuffer + w + (r.count - w) = r.offsetFromBuffer + r.count := by omega
      rw [Nat.mod_add_mod, hsum]
    have hlen : r.bufferSize - 1 - (r.count - w) = r.bufferSize - 1 - r.count + w := by omega
    rw [hcount, ← window_mod, hstart, window_mod]
    show window r.buffer r.bufferSize _ (r.bufferSize - 1 - (r.count - w)) = _
    rw [hlen, window_add]
    rfl

theorem putEach_fifo (h : r.Valid) (bytes : List α) :
    (putEach r bytes).1.Valid ∧ (putEach r bytes).1.bufferSize = r.bufferSize ∧
      (putEach r bytes).2 = min bytes.length (r.bufferSize - 1 - r.count) ∧
      (putEach r bytes).1.held = r.held ++ bytes.take (r.bufferSize - 1 - r.count) ∧
      (putEach r bytes).1.ahead = r.ahead.drop bytes.length := by
  induction bytes generalizing r with
  | nil => simp [putEach, h]
  | cons c bytes ih =>
    by_cases hfull : r.count + 1 = r.bufferSize
    · have hzero : r.bufferSize - 1 - r.count = 0 := by omega
      have hdone : r.ahead.drop (c :: bytes).length = r.ahead := by
        have hnil : r.ahead = [] := List.length_eq_zero_iff.1 (by rw [length_ahead, hzero])
        rw [hnil, List.drop_nil]
      rw [putEach_stop h (.inr hfull), hzero, hdone]
      simp [h]
    · have hlt := h.count_lt
      have hroom : r.count + 1 < r.bufferSize := by omega
      have hput : rngElemPut r c =
          (r.put (Function.update r.buffer r.offsetToBuffer c) 1, true) :=
        rngElemPut_room h hroom c
      have hcount := h.count_put (Function.update r.buffer r.offsetToBuffer c) hroom
      obtain ⟨hheld, hahead⟩ := held_put_one h hroom c
      obtain ⟨hvalid, hsize, hnum, hheld', hahead'⟩ :=
        ih (h.put (Function.update r.buffer r.offsetToBuffer c))
      have hsize' : (r.put (Function.update r.buffer r.offsetToBuffer c) 1).bufferSize =
          r.bufferSize := rfl
      rw [hcount, hsize'] at hnum hheld'
      have hleft : r.bufferSize - 1 - r.count = r.bufferSize - 1 - (r.count + 1) + 1 := by omega
      rw [putEach, hput]
      dsimp only
      rw [if_pos rfl]
      refine ⟨hvalid, hsize, ?_, ?_, ?_⟩
      · rw [hnum, List.length_cons]
        omega
      · rw [hheld', hheld, hleft, List.take_succ_cons, List.append_assoc, List.singleton_append]
      · rw [hahead', hahead, List.drop_drop, List.length_cons, Nat.add_comm]

theorem getEach_fifo (h : r.Valid) (n : Nat) :
    (getEach r n).1.Valid ∧ (getEach r n).1.bufferSize = r.bufferSize ∧
      (getEach r n).2 = r.held.take n ∧ (getEach r n).1.held = r.held.drop n ∧
      ∃ junk, (getEach r n).1.ahead = r.ahead ++ junk := by
  induction n generalizing r with
  | zero => exact ⟨h, rfl, rfl, rfl, [], (List.append_nil _).symm⟩
  | succ n ih =>
    by_cases hempty : r.count = 0
    · have hnil : r.held = [] := List.length_eq_zero_iff.1 (by rw [length_held, hempty])
      rw [getEach_stop h (.inr hempty), hnil]
      exact ⟨h, rfl, rfl, List.drop_nil.symm, [], (List.append_nil _).symm⟩
    · have hget : rngElemGet r = (r.get 1, some (r.buffer r.offsetFromBuffer)) :=
        rngElemGet_held h (by omega)
      obtain ⟨hheld, junk, hahead⟩ := held_get h (w := 1) (by omega)
      obtain ⟨hvalid, hsize, hbytes, hheld', junk', hahead'⟩ := ih h.get
      obtain ⟨k, hk⟩ : ∃ k, r.count = k + 1 := ⟨r.count - 1, by omega⟩
      have hfirst : r.held = r.buffer r.offsetFromBuffer :: r.held.drop 1 := by
        rw [Ring.held, hk, window_succ, Nat.mod_eq_of_lt h.from_lt]
        rfl
      rw [getEach, hget]
      dsimp only
      refine ⟨hvalid, hsize, ?_, ?_, junk ++ junk', ?_⟩
      · rw [hbytes, hheld]
        conv_rhs => rw [hfirst, List.take_succ_cons]
      · rw [hheld', hheld, List.drop_drop, Nat.add_comm]
      · rw [hahead', hahead, List.append_assoc]

theorem putEach_one (c : α) :
    putEach r [c] = ((rngElemPut r c).1, (rngElemPut r c).2.toNat) := by
  rw [putEach]
  by_cases hput : (rngElemPut r c).2 = true
  · rw [if_pos hput, hput]
    rfl
  · rw [if_neg hput]
    unfold rngElemPut at hput ⊢
    dsimp only at hput ⊢
    split_ifs at hput ⊢ <;> first | rfl | exact absurd rfl hput

theorem getEach_one : getEach r 1 = ((rngElemGet r).1, (rngElemGet r).2.toList) := by
  unfold getEach rngElemGet
  dsimp only
  split_ifs <;> rfl

/-! ## Refinement -/

/-- A ring after a call is the queue after the call. -/
def Refines (r : Ring α) (h : r.Valid) (r' : Ring α) (op : Op α) (res : Result α) : Prop :=
  ∃ h' : r'.Valid, r'.bufferSize = r.bufferSize ∧ Fifo.Step (r.fifo h) (r'.fifo h') op res

theorem put_fifo (h : r.Valid) (bytes : List α) :
    ∃ h' : (putEach r bytes).1.Valid, (putEach r bytes).1.bufferSize = r.bufferSize ∧
      Fifo.Put (r.fifo h) ((putEach r bytes).1.fifo h') bytes ⟨(putEach r bytes).2, []⟩ := by
  obtain ⟨hvalid, hsize, hnum, hheld, hahead⟩ := putEach_fifo h bytes
  have hlen : (r.fifo h).capacity - (r.fifo h).held.length = r.bufferSize - 1 - r.count :=
    congrArg (r.bufferSize - 1 - ·) length_held
  refine ⟨hvalid, hsize, ?_, ?_, ?_, hahead⟩
  · rw [hlen, hnum]
  · exact congrArg (· - 1) hsize
  · rw [hlen]
    exact hheld

theorem get_fifo (h : r.Valid) (n : Nat) :
    ∃ h' : (getEach r n).1.Valid, (getEach r n).1.bufferSize = r.bufferSize ∧
      Fifo.Get (r.fifo h) ((getEach r n).1.fifo h') n
        ⟨(getEach r n).2.length, (getEach r n).2⟩ := by
  obtain ⟨hvalid, hsize, hbytes, hheld, junk, hahead⟩ := getEach_fifo h n
  refine ⟨hvalid, hsize, ?_, junk, congrArg (· - 1) hsize, hheld, hahead⟩
  rw [hbytes, List.length_take]
  rfl

/-- The slot of an offset behind the end. -/
theorem wrap_eq {n i : Nat} (hi : i < 2 * n) : (if i ≥ n then i - n else i) = i % n := by
  split
  next hge => rw [Nat.mod_eq_sub_mod hge, Nat.mod_eq_of_lt (by omega)]
  next hlt => rw [Nat.mod_eq_of_lt (by omega)]

theorem refines_putAhead (h : r.Valid) (c : α) {offset : Nat}
    (hoff : offset ≤ r.bufferSize - 1 - r.count) :
    Refines r h (rngPutAhead r c offset) (.putAhead c offset) ⟨0, []⟩ := by
  have hlt := h.count_lt
  have hto := h.to_lt
  have hslot : (if r.offsetToBuffer + offset ≥ r.bufferSize
      then r.offsetToBuffer + offset - r.bufferSize else r.offsetToBuffer + offset) =
      (r.offsetFromBuffer + (r.count + offset)) % r.bufferSize := by
    rw [wrap_eq (by omega), ← h.to_eq, Nat.mod_add_mod, Nat.add_assoc]
  have hsame : rngPutAhead r c offset =
      { r with
          buffer :=
            Function.update r.buffer ((r.offsetFromBuffer + (r.count + offset)) % r.bufferSize) c } := by
    rw [rngPutAhead, hslot]
  rw [hsame]
  refine ⟨⟨h.to_lt, h.from_lt⟩, rfl, rfl, rfl, ?_, ?_⟩
  · show window (Function.update r.buffer _ c) r.bufferSize r.offsetFromBuffer r.count = _
    rw [window_update (by omega) (by omega),
      List.set_eq_of_length_le (by rw [length_window]; omega)]
    rfl
  · show window (Function.update r.buffer _ c) r.bufferSize (r.offsetFromBuffer + r.count)
      (r.bufferSize - 1 - r.count) = _
    rw [← Nat.add_assoc, window_update (by omega) (by omega)]
    rfl

theorem refines_moveAhead (h : r.Valid) {offset : Nat}
    (hoff : offset ≤ r.bufferSize - 1 - r.count) :
    Refines r h (rngMoveAhead r offset) (.moveAhead offset) ⟨0, []⟩ := by
  have hlt := h.count_lt
  have hto := h.to_lt
  have hsame : rngMoveAhead r offset = r.put r.buffer offset := by
    rw [rngMoveAhead, Ring.put, ← wrap_eq (by omega), Nat.add_comm]
  have hcount := h.count_put (w := offset) r.buffer (by omega)
  rw [hsame]
  refine ⟨h.put _, rfl, rfl, rfl, ?_, ?_⟩
  · show window r.buffer r.bufferSize r.offsetFromBuffer _ = _
    rw [hcount, window_add]
    show _ = r.held ++ r.ahead.take offset
    rw [Ring.ahead, take_window hoff]
    rfl
  · show window r.buffer r.bufferSize (r.offsetFromBuffer + _) (r.bufferSize - 1 - _) = _
    show _ = r.ahead.drop offset
    rw [hcount, Ring.ahead, drop_window hoff, ← Nat.add_assoc, ← Nat.sub_sub]

/-- Every call does to the bytes of a ring what it does to the queue. -/
theorem step_refines {r' : Ring α} (op : Op α) {res : Result α} (h : r.Valid)
    (hs : step r op = some (r', res)) : Refines r h r' op res := by
  have hfree := rngFreeBytes_eq h
  have hlt := h.count_lt
  cases op with
  | elemPut c =>
    cases hs
    have hput := put_fifo h [c]
    simp only [putEach_one] at hput
    exact hput
  | elemGet =>
    cases hs
    have hget := get_fifo h 1
    simp only [getEach_one] at hget
    exact hget
  | bufPut bytes =>
    cases hs
    have hput := put_fifo h bytes
    simp only [← rngBufPut_eq h] at hput
    exact hput
  | bufGet n =>
    cases hs
    have hget := get_fifo h n
    simp only [← rngBufGet_eq h] at hget
    exact hget
  | flush =>
    cases hs
    have hvalid : (rngFlush r).Valid := ⟨Nat.zero_lt_of_lt h.to_lt, Nat.zero_lt_of_lt h.to_lt⟩
    exact ⟨hvalid, rfl, rfl, _, rfl, rfl, rfl⟩
  | putAhead c offset =>
    rw [step, Option.ite_none_right_eq_some] at hs
    obtain ⟨hoff, hm⟩ := hs
    cases hm
    exact refines_putAhead h c (by omega)
  | moveAhead offset =>
    rw [step, Option.ite_none_right_eq_some] at hs
    obtain ⟨hoff, hm⟩ := hs
    cases hm
    exact refines_moveAhead h (by omega)

/-! ## Runs -/

/-- A call, with its result added to the log. -/
def logStep (s : Ring α × List (Op α × Result α)) (op : Op α) :
    Option (Ring α × List (Op α × Result α)) :=
  (step s.1 op).map fun p => (p.1, s.2 ++ [(op, p.2)])

/-- What a run keeps: the ring is what the calls have made of the queue. -/
def Follows (f : Fifo α) (s : Ring α × List (Op α × Result α)) : Prop :=
  ∃ h : s.1.Valid, s.1.bufferSize = f.capacity + 1 ∧ Fifo.Run f s.2 (s.1.fifo h)

theorem follows_step {f : Fifo α} {s s' : Ring α × List (Op α × Result α)} {op : Op α}
    (hf : Follows f s) (hs : logStep s op = some s') : Follows f s' := by
  obtain ⟨h, hsize, hrun⟩ := hf
  obtain ⟨⟨r', res⟩, hstep, rfl⟩ := Option.map_eq_some_iff.1 hs
  obtain ⟨h', hsize', hfifo⟩ := step_refines op h hstep
  exact ⟨h', hsize'.trans hsize, hrun.snoc hfifo⟩

/-- Every run of a ring is a run of a bounded queue that has the bytes of the ring. -/
theorem rng_fifo {memory : Nat → α} {size : Nat} {ops : List (Op α)} {r : Ring α}
    {log : List (Op α × Result α)} (hrun : exec logStep (rngCreate memory size, []) ops = some (r, log)) :
    ∃ f f' : Fifo α, f.capacity = size ∧ f.held = [] ∧ Fifo.Run f log f' ∧
      f'.capacity = size ∧ f'.held = r.held ∧
      rngNBytes r = f'.held.length ∧ rngNBytes r + rngFreeBytes r = size ∧
      (rngIsEmpty r = true ↔ f'.held.length = 0) ∧ (rngIsFull r = true ↔ f'.held.length = size) ∧
      (∀ bytes, rngBufPut r bytes = putEach r bytes) ∧
      ∀ nBytes, rngBufGet r nBytes = getEach r nBytes := by
  have hvalid : (rngCreate memory size).Valid := ⟨Nat.succ_pos size, Nat.succ_pos size⟩
  have hinit : Follows ((rngCreate memory size).fifo hvalid) (rngCreate memory size, []) :=
    ⟨hvalid, rfl, .nil _⟩
  obtain ⟨h, hsize, hfifo⟩ := exec_invariant (fun _ _ _ => follows_step) hinit hrun
  have hsize' : r.bufferSize = size + 1 := hsize
  have hlt : r.count < r.bufferSize := h.count_lt
  have hlen : (r.fifo h).held.length = r.count := length_held
  have hnum : rngNBytes r = r.count := rngNBytes_eq h
  have hfree : rngFreeBytes r = r.bufferSize - 1 - r.count := rngFreeBytes_eq h
  refine ⟨_, r.fifo h, rfl, rfl, hfifo, congrArg (· - 1) hsize', rfl, ?_, ?_, ?_, ?_,
    rngBufPut_eq h, rngBufGet_eq h⟩
  · rw [hlen, hnum]
  · omega
  · rw [hlen, rngIsEmpty_iff h]
  · have hfull : rngIsFull r = true ↔ r.count + 1 = r.bufferSize := rngIsFull_iff h
    rw [hlen, hfull]
    omega

theorem rng_fifo_wraps : ∃ r log,
    exec logStep (rngCreate (fun _ => (0 : Nat)) 3, [])
      [.bufPut [1, 2, 3, 4], .elemGet, .bufPut [5, 6], .putAhead 7 0, .bufGet 2, .putAhead 8 0,
        .moveAhead 1, .bufGet 5] = some (r, log) ∧
      log.map (·.2) = [⟨3, []⟩, ⟨1, [1]⟩, ⟨1, []⟩, ⟨0, []⟩, ⟨2, [2, 3]⟩, ⟨0, []⟩, ⟨0, []⟩,
        ⟨2, [5, 8]⟩] ∧
      ∃ f f' : Fifo Nat, f.capacity = 3 ∧ f.held = [] ∧ Fifo.Run f log f' ∧
        f'.capacity = 3 ∧ f'.held = r.held ∧
        rngNBytes r = f'.held.length ∧ rngNBytes r + rngFreeBytes r = (3 : Nat) ∧
        (rngIsEmpty r = true ↔ f'.held.length = 0) ∧ (rngIsFull r = true ↔ f'.held.length = 3) ∧
        (∀ bytes, rngBufPut r bytes = putEach r bytes) ∧
        ∀ nBytes, rngBufGet r nBytes = getEach r nBytes := by
  have hrun : (exec logStep (rngCreate (fun _ => (0 : Nat)) 3, [])
      [.bufPut [1, 2, 3, 4], .elemGet, .bufPut [5, 6], .putAhead 7 0, .bufGet 2, .putAhead 8 0,
        .moveAhead 1, .bufGet 5]).map (fun s => s.2.map (·.2)) =
      some [⟨3, []⟩, ⟨1, [1]⟩, ⟨1, []⟩, ⟨0, []⟩, ⟨2, [2, 3]⟩, ⟨0, []⟩, ⟨0, []⟩, ⟨2, [5, 8]⟩] := by
    decide
  obtain ⟨⟨r, log⟩, hr, hlog⟩ := Option.map_eq_some_iff.1 hrun
  exact ⟨r, log, hr, hlog, rng_fifo hr⟩

end Vmx.Rng
