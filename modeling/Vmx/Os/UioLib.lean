import Vmx.Lib.Copies
import Vmx.Lib.Transition
import Mathlib.Algebra.GroupWithZero.Nat

/-!
# `uioLib`: scatter-gather moves

The bytes of the memory, the `iovec`s and the `uio` structure.  The vectors are the ones from
`uio_iov` on, as many as `uio_iovcnt` says; they and the `uio` are not among the bytes that are
moved.  `uio_offset` is a `long long`, and it is counted without an end here.

`Effect s s' buffer n` is what a move of `n` bytes does to the vectors, the `uio` and the memory.
`scatter_gather` is the result for all calls.
-/

namespace Vmx.Os.UioMove

open Lib

structure Iovec where
  iov_base : Nat
  iov_len : Nat

inductive UioRw where
  | UIO_READ
  | UIO_WRITE
  deriving DecidableEq

open UioRw

structure Uio where
  uio_iov : Nat
  uio_iovcnt : Int
  uio_offset : Int
  uio_resid : Int
  uio_rw : UioRw

/-- The memory: the bytes, the `iovec`s by their places, and the structure that a call gets. -/
structure State where
  mem : Nat → UInt8
  iovec : Nat → Iovec
  uio : Uio

def OK : Int := 0

def EINVAL : Int := 22

/-- A `size_t` as an `int`. -/
def toInt (n : Nat) : Int :=
  if n % 4294967296 < 2147483648 then (n % 4294967296 : Nat)
  else ((n % 4294967296 : Nat) : Int) - 4294967296

/-- An `int` as a `size_t`. -/
def toSize (n : Int) : Nat := (n % 4294967296).toNat

namespace State

/-- An empty vector is left behind. -/
def next (s : State) : State :=
  { s with uio := { s.uio with
      uio_iov := s.uio.uio_iov + 1
      uio_iovcnt := s.uio.uio_iovcnt - 1 } }

/-- `count` bytes are moved between the buffer and the first vector. -/
def move (s : State) (buffer : Nat) (count : Int) : State :=
  let pIov := s.iovec s.uio.uio_iov
  { mem :=
      if s.uio.uio_rw = UIO_READ then moveAll s.mem pIov.iov_base buffer (toSize count)
      else moveAll s.mem buffer pIov.iov_base (toSize count)
    iovec := Function.update s.iovec s.uio.uio_iov
      ⟨(pIov.iov_base + count).toNat, toSize (pIov.iov_len - count)⟩
    uio := { s.uio with
      uio_offset := s.uio.uio_offset + count
      uio_resid := s.uio.uio_resid - count } }

end State

/-- The loop of `uiomove`; `none` when it has not ended after so many rounds. -/
def moveLoop : Nat → State → Nat → Int → Option State
  | rounds, s, buffer, nBytes =>
    if nBytes > 0 ∧ s.uio.uio_iovcnt > 0 then
      match rounds with
      | 0 => none
      | rounds + 1 =>
        let count := toInt (s.iovec s.uio.uio_iov).iov_len
        if count = 0 then moveLoop rounds s.next buffer nBytes
        else
          let count := if count > nBytes then nBytes else count
          let count := if count > s.uio.uio_resid then s.uio.uio_resid else count
          moveLoop rounds (s.move buffer count) (buffer + count).toNat (nBytes - count)
    else some s

/-- Each round leaves a vector behind or moves a byte. -/
def uiomove (s : State) (buffer : Nat) (nBytes : Int) : Option (Int × State) :=
  if s.uio.uio_rw ≠ UIO_READ ∧ s.uio.uio_rw ≠ UIO_WRITE then some (EINVAL, s)
  else
    let nBytes := if nBytes > s.uio.uio_resid then s.uio.uio_resid else nBytes
    (moveLoop (nBytes.toNat + s.uio.uio_iovcnt.toNat) s buffer nBytes).map fun s => (OK, s)

/-- A call in a sequence of calls. -/
def step (s : State) (call : Nat × Int) : Option State :=
  (uiomove s call.1 call.2).map Prod.snd

/-! ## What the vectors describe -/

/-- The places of the bytes of a vector. -/
def Iovec.places (v : Iovec) : List Nat := List.range' v.iov_base v.iov_len

/-- `n` vectors from place `p` on. -/
def vectorsFrom (iovec : Nat → Iovec) (p : Nat) : Nat → List Iovec
  | 0 => []
  | n + 1 => iovec p :: vectorsFrom iovec (p + 1) n

namespace State

/-- The remaining vectors. -/
def vectors (s : State) : List Iovec := vectorsFrom s.iovec s.uio.uio_iov s.uio.uio_iovcnt.toNat

/-- The places of the bytes of the remaining vectors, one vector after the other. -/
def places (s : State) : List Nat := s.vectors.flatMap Iovec.places

end State

/-- The number of bytes that a call is to move. -/
def amount (s : State) (nBytes : Int) : Nat :=
  (min (max nBytes 0) (min s.uio.uio_resid s.places.length)).toNat

/-- The bytes that are written, each with the one that it is read from, in order. -/
def pairs (rw : UioRw) (buffer : Nat) (places : List Nat) : List (Nat × Nat) :=
  if rw = UIO_READ then places.zip (List.range' buffer places.length)
  else (List.range' buffer places.length).zip places

/-- Runs of bytes are moved in turn, the buffer from `buffer` on with the pieces. -/
def movePieces (rw : UioRw) : Nat → List Iovec → (Nat → UInt8) → Nat → UInt8
  | _, [], mem => mem
  | buffer, v :: vs, mem =>
    movePieces rw (buffer + v.iov_len) vs
      (if rw = UIO_READ then moveAll mem v.iov_base buffer v.iov_len
      else moveAll mem buffer v.iov_base v.iov_len)

/-- The buffer has no byte in common with these. -/
def Apart (buffer : Nat) (places : List Nat) : Prop :=
  ∀ a ∈ places, a < buffer ∨ buffer + places.length ≤ a

/-- What a move of `n` bytes does. -/
structure Effect (s s' : State) (buffer n : Nat) : Prop where
  places : s'.places = s.places.drop n
  resid : s'.uio.uio_resid = s.uio.uio_resid - n
  offset : s'.uio.uio_offset = s.uio.uio_offset + n
  rw : s'.uio.uio_rw = s.uio.uio_rw
  -- the first bytes of the vectors are moved, one piece after the other
  moved : ∃ pieces : List Iovec, pieces.flatMap Iovec.places = s.places.take n ∧
    s'.mem = movePieces s.uio.uio_rw buffer pieces s.mem
  -- and away from the buffer that is byte by byte
  copied : Apart buffer (s.places.take n) →
    s'.mem = copies (pairs s.uio.uio_rw buffer (s.places.take n)) s.mem

/-- The structure of a call: the residual count is not negative and the lengths fit an `int`. -/
structure Fits (s : State) : Prop where
  resid : 0 ≤ s.uio.uio_resid
  lens : ∀ v ∈ s.vectors, v.iov_len < 2147483648

/-! ## Moves in pieces -/

variable {s s' t : State} {buffer m n : Nat} {rw : UioRw} {mem : Nat → UInt8}

theorem movePieces_append (vs ws : List Iovec) :
    movePieces rw buffer (vs ++ ws) mem =
      movePieces rw (buffer + (vs.flatMap Iovec.places).length) ws
        (movePieces rw buffer vs mem) := by
  induction vs generalizing buffer mem with
  | nil => rfl
  | cons v vs ih =>
    rw [List.cons_append, movePieces, ih, movePieces, List.flatMap_cons, List.length_append,
      Iovec.places, List.length_range', Nat.add_assoc]

/-- Pieces without a byte move nothing. -/
theorem movePieces_nil {vs : List Iovec} (h : vs.flatMap Iovec.places = []) :
    movePieces rw buffer vs mem = mem := by
  induction vs generalizing buffer mem with
  | nil => rfl
  | cons v vs ih =>
    rw [List.flatMap_cons, List.append_eq_nil_iff] at h
    have hlen : v.iov_len = 0 := by
      have hlength := congrArg List.length h.1
      rwa [Iovec.places, List.length_range'] at hlength
    rw [movePieces, hlen, moveAll_zero, moveAll_zero, ite_self]
    exact ih h.2

theorem pairs_append (as bs : List Nat) :
    pairs rw buffer (as ++ bs) = pairs rw buffer as ++ pairs rw (buffer + as.length) bs := by
  unfold pairs
  rw [List.length_append, ← List.range'_append_1]
  split
  · rw [List.zip_append (by rw [List.length_range'])]
  · rw [List.zip_append (by rw [List.length_range'])]

/-- Pieces away from the buffer are moved byte by byte. -/
theorem movePieces_eq_copies {vs : List Iovec} (h : Apart buffer (vs.flatMap Iovec.places)) :
    movePieces rw buffer vs mem = copies (pairs rw buffer (vs.flatMap Iovec.places)) mem := by
  induction vs generalizing buffer mem with
  | nil =>
    rw [List.flatMap_nil, pairs]
    split <;> rfl
  | cons v vs ih =>
    rw [List.flatMap_cons] at h ⊢
    have hlen : v.places.length = v.iov_len := by rw [Iovec.places, List.length_range']
    unfold Apart at h
    rw [List.length_append, hlen] at h
    have hfirst : ∀ i < v.iov_len, ∀ j < v.iov_len, v.iov_base + i ≠ buffer + j := by
      intro i hi j hj
      have hmem : v.iov_base + i ∈ v.places := List.mem_range'_1.2 ⟨by omega, by omega⟩
      have hapart := h _ (List.mem_append_left _ hmem)
      omega
    have hrest : Apart (buffer + v.iov_len) (vs.flatMap Iovec.places) := fun a ha => by
      have hapart := h a (List.mem_append_right _ ha)
      omega
    rw [movePieces, pairs_append, copies_append, hlen, ih hrest]
    congr 1
    unfold pairs
    rw [hlen]
    split
    · exact moveAll_eq_copies hfirst
    · exact moveAll_eq_copies fun i hi j hj => (hfirst j hj i hi).symm

/-! ## Effects -/

namespace Effect

/-- The bytes follow from the pieces. -/
theorem of_moved {pieces : List Iovec} (hplaces : s'.places = s.places.drop n)
    (hresid : s'.uio.uio_resid = s.uio.uio_resid - n)
    (hoffset : s'.uio.uio_offset = s.uio.uio_offset + n) (hrw : s'.uio.uio_rw = s.uio.uio_rw)
    (hpieces : pieces.flatMap Iovec.places = s.places.take n)
    (hmem : s'.mem = movePieces s.uio.uio_rw buffer pieces s.mem) : Effect s s' buffer n where
  places := hplaces
  resid := hresid
  offset := hoffset
  rw := hrw
  moved := ⟨pieces, hpieces, hmem⟩
  copied hapart := by
    rw [← hpieces] at hapart ⊢
    rw [hmem, movePieces_eq_copies hapart]

theorem refl (s : State) (buffer : Nat) : Effect s s buffer 0 :=
  @of_moved _ _ _ _ [] rfl (Int.sub_zero _).symm (Int.add_zero _).symm rfl rfl rfl

/-- Where nothing moves the buffer does not matter. -/
theorem of_zero (h : Effect s s' buffer 0) (buffer' : Nat) : Effect s s' buffer' 0 := by
  obtain ⟨pieces, hpieces, hmem⟩ := h.moved
  refine of_moved h.places h.resid h.offset h.rw hpieces ?_
  rw [hmem, movePieces_nil hpieces, movePieces_nil hpieces]

/-- Two moves that follow each other are one. -/
theorem trans (h : Effect s s' buffer m) (h' : Effect s' t (buffer + m) n)
    (hm : m ≤ s.places.length) : Effect s t buffer (m + n) := by
  obtain ⟨pieces, hpieces, hmem⟩ := h.moved
  obtain ⟨pieces', hpieces', hmem'⟩ := h'.moved
  have hresid := h.resid
  have hresid' := h'.resid
  have hoffset := h.offset
  have hoffset' := h'.offset
  refine @of_moved _ _ _ _ (pieces ++ pieces') ?_ (by omega) (by omega) (h'.rw.trans h.rw) ?_ ?_
  · rw [h'.places, h.places, List.drop_drop]
  · rw [List.flatMap_append, hpieces, hpieces', h.places, List.take_add]
  · rw [movePieces_append, hpieces, List.length_take, Nat.min_eq_left hm, hmem', hmem, h.rw]

end Effect

/-! ## The loop -/

theorem toInt_of_fits {n : Nat} (h : n < 2147483648) : toInt n = n := by
  have hmod : n % 4294967296 = n := Nat.mod_eq_of_lt (by omega)
  rw [toInt, hmod, if_pos h]

theorem vectorsFrom_update {iovec : Nat → Iovec} {p q : Nat} (hq : q < p) (v : Iovec) (n : Nat) :
    vectorsFrom (Function.update iovec q v) p n = vectorsFrom iovec p n := by
  induction n generalizing p with
  | zero => rfl
  | succ n ih =>
    rw [vectorsFrom, vectorsFrom, ih (Nat.lt_succ_of_lt hq),
      Function.update_of_ne (Nat.ne_of_gt hq)]

/-- The first vector and the others. -/
theorem vectors_eq (h : s.uio.uio_iovcnt > 0) :
    s.vectors = s.iovec s.uio.uio_iov :: s.next.vectors := by
  have hcount : s.uio.uio_iovcnt.toNat = (s.uio.uio_iovcnt - 1).toNat + 1 := by omega
  rw [State.vectors, hcount]
  rfl

theorem vectors_move (h : s.uio.uio_iovcnt > 0) (count : Int) :
    (s.move buffer count).vectors =
      ⟨((s.iovec s.uio.uio_iov).iov_base + count).toNat,
        toSize ((s.iovec s.uio.uio_iov).iov_len - count)⟩ :: s.next.vectors := by
  have hcount : (s.move buffer count).uio.uio_iovcnt > 0 := h
  rw [vectors_eq hcount]
  congr 1
  · exact Function.update_self _ _ _
  · exact vectorsFrom_update (Nat.lt_succ_self _) _ _

theorem places_next (h : s.uio.uio_iovcnt > 0)
    (hempty : (s.iovec s.uio.uio_iov).iov_len = 0) : s.next.places = s.places := by
  rw [State.places, State.places, vectors_eq h, List.flatMap_cons, Iovec.places, hempty]
  rfl

theorem effect_next (h : s.uio.uio_iovcnt > 0) (hempty : (s.iovec s.uio.uio_iov).iov_len = 0) :
    Effect s s.next buffer 0 :=
  @Effect.of_moved _ _ _ _ [] (places_next h hempty) (Int.sub_zero _).symm (Int.add_zero _).symm
    rfl rfl rfl

/-- A move of bytes of the first vector. -/
theorem effect_move (buffer : Nat) (h : s.uio.uio_iovcnt > 0) {count : Nat}
    (hle : count ≤ (s.iovec s.uio.uio_iov).iov_len)
    (hfit : (s.iovec s.uio.uio_iov).iov_len < 2147483648) :
    Effect s (s.move buffer count) buffer count := by
  have hsize : toSize count = count := by
    unfold toSize
    omega
  have hrest : toSize ((s.iovec s.uio.uio_iov).iov_len - (count : Int)) =
      (s.iovec s.uio.uio_iov).iov_len - count := by
    unfold toSize
    omega
  have hbase : (((s.iovec s.uio.uio_iov).iov_base : Int) + count).toNat =
      (s.iovec s.uio.uio_iov).iov_base + count := by omega
  have hplaces : (s.iovec s.uio.uio_iov).places =
      List.range' (s.iovec s.uio.uio_iov).iov_base count ++
        List.range' ((s.iovec s.uio.uio_iov).iov_base + count)
          ((s.iovec s.uio.uio_iov).iov_len - count) := by
    rw [List.range'_append_1, Nat.add_sub_cancel' hle, Iovec.places]
  refine @Effect.of_moved _ _ _ _ [⟨(s.iovec s.uio.uio_iov).iov_base, count⟩] ?_ rfl rfl rfl ?_ ?_
  · rw [State.places, State.places, vectors_move h, vectors_eq h, List.flatMap_cons,
      List.flatMap_cons, hplaces, hrest, hbase, List.append_assoc, List.drop_left' (by simp),
      Iovec.places]
  · rw [List.flatMap_singleton, State.places, vectors_eq h, List.flatMap_cons, hplaces,
      List.append_assoc, List.take_left' (by simp), Iovec.places]
  · dsimp only [State.move, movePieces]
    rw [hsize]

theorem fits_next (h : Fits s) (hcnt : s.uio.uio_iovcnt > 0) : Fits s.next where
  resid := h.resid
  lens v hv := h.lens v (by
    rw [vectors_eq hcnt]
    exact List.mem_cons_of_mem _ hv)

theorem fits_move (h : Fits s) (hcnt : s.uio.uio_iovcnt > 0) {count : Nat}
    (hle : count ≤ (s.iovec s.uio.uio_iov).iov_len) (hresid : count ≤ s.uio.uio_resid) :
    Fits (s.move buffer count) where
  resid := Int.sub_nonneg_of_le hresid
  lens v hv := by
    rw [vectors_move hcnt] at hv
    have hvectors := vectors_eq hcnt
    rcases List.mem_cons.1 hv with rfl | hv
    · have hlen := h.lens (s.iovec s.uio.uio_iov) (by
        rw [hvectors]
        exact List.mem_cons_self)
      dsimp only
      unfold toSize
      omega
    · refine h.lens v ?_
      rw [hvectors]
      exact List.mem_cons_of_mem _ hv

theorem moveLoop_stop (rounds : Nat) {nBytes : Int} (h : nBytes ≤ 0) :
    moveLoop rounds s buffer nBytes = some s := by
  have hstop : ¬(nBytes > 0 ∧ s.uio.uio_iovcnt > 0) := fun hgo => Int.not_lt.2 h hgo.1
  cases rounds <;> rw [moveLoop, if_neg hstop]

/-- The loop ends, and moves the bytes that there are. -/
theorem moveLoop_spec (rounds buffer : Nat) (h : Fits s) (hn : n ≤ s.uio.uio_resid)
    (hrounds : n + s.uio.uio_iovcnt.toNat ≤ rounds) :
    ∃ t, moveLoop rounds s buffer n = some t ∧ Effect s t buffer (min n s.places.length) ∧
      Fits t := by
  induction rounds generalizing s buffer n with
  | zero =>
    have hstop : ¬((n : Int) > 0 ∧ s.uio.uio_iovcnt > 0) := by omega
    have hn : n = 0 := by omega
    rw [moveLoop, if_neg hstop, hn, Nat.zero_min]
    exact ⟨s, rfl, Effect.refl s buffer, h⟩
  | succ rounds ih =>
    rw [moveLoop]
    by_cases hgo : (n : Int) > 0 ∧ s.uio.uio_iovcnt > 0
    · rw [if_pos hgo]
      have hlen := h.lens (s.iovec s.uio.uio_iov) (by
        rw [vectors_eq hgo.2]
        exact List.mem_cons_self)
      dsimp only
      rw [toInt_of_fits hlen]
      have hcount : s.next.uio.uio_iovcnt = s.uio.uio_iovcnt - 1 := rfl
      by_cases hempty : (s.iovec s.uio.uio_iov).iov_len = 0
      · -- an empty vector
        rw [if_pos (by omega)]
        have hplaces := places_next hgo.2 hempty
        obtain ⟨t, ht, heffect, hfits⟩ :=
          ih (s := s.next) (n := n) buffer (fits_next h hgo.2) hn (by omega)
        have hfirst : Effect s s.next (buffer + 0) 0 := effect_next hgo.2 hempty
        have htrans := hfirst.trans heffect (Nat.zero_le _)
        rw [hplaces, Nat.zero_add] at htrans
        exact ⟨t, ht, htrans, hfits⟩
      · -- bytes of the first vector, as many as it has or as are wanted
        rw [if_neg (by omega)]
        obtain ⟨c, hc⟩ : ∃ c, c = min (s.iovec s.uio.uio_iov).iov_len n := ⟨_, rfl⟩
        have hlow : (if ((s.iovec s.uio.uio_iov).iov_len : Int) > n then (n : Int)
            else (s.iovec s.uio.uio_iov).iov_len) = c := by
          split <;> omega
        have hbuffer : ((buffer : Int) + c).toNat = buffer + c := by omega
        have hrest : (n : Int) - c = (n - c : Nat) := by omega
        have hresid : (c : Int) ≤ s.uio.uio_resid := by omega
        have hle : c ≤ (s.iovec s.uio.uio_iov).iov_len := by omega
        have hmove := effect_move buffer hgo.2 hle hlen
        have hcount' : (s.move buffer c).uio.uio_iovcnt = s.uio.uio_iovcnt := rfl
        have hresid' := hmove.resid
        rw [hlow, if_neg (by omega), hbuffer, hrest]
        obtain ⟨t, ht, heffect, hfits⟩ := ih (s := s.move buffer c) (n := n - c) (buffer + c)
          (fits_move h hgo.2 hle hresid) (by omega) (by omega)
        have hplaces : c ≤ s.places.length := by
          rw [State.places, vectors_eq hgo.2, List.flatMap_cons, List.length_append, Iovec.places,
            List.length_range']
          omega
        have htrans := hmove.trans heffect hplaces
        have hsum : c + min (n - c) (s.move buffer c).places.length = min n s.places.length := by
          rw [hmove.places, List.length_drop]
          omega
        rw [hsum] at htrans
        exact ⟨t, ht, htrans, hfits⟩
    · -- nothing more is wanted, or there is no vector
      have hzero : min n s.places.length = 0 := by
        by_cases hn : n = 0
        · rw [hn, Nat.zero_min]
        · have hcount : s.uio.uio_iovcnt.toNat = 0 := by omega
          rw [State.places, State.vectors, hcount]
          exact Nat.min_zero n
      rw [if_neg hgo, hzero]
      exact ⟨s, rfl, Effect.refl s buffer, h⟩

/-! ## The calls -/

/-- A call ends, and moves what it is to move. -/
theorem uiomove_spec (h : Fits s) (buffer : Nat) (nBytes : Int) :
    ∃ t, uiomove s buffer nBytes = some (OK, t) ∧ Effect s t buffer (amount s nBytes) ∧ Fits t := by
  have hrw : ¬(s.uio.uio_rw ≠ UIO_READ ∧ s.uio.uio_rw ≠ UIO_WRITE) := by
    cases s.uio.uio_rw <;> simp
  have hresid := h.resid
  obtain ⟨n, hn⟩ : ∃ n : Nat, n = (min nBytes s.uio.uio_resid).toNat := ⟨_, rfl⟩
  have hlimit : (if nBytes > s.uio.uio_resid then s.uio.uio_resid else nBytes) =
      min nBytes s.uio.uio_resid := by
    split <;> omega
  have hamount : amount s nBytes = min n s.places.length := by
    unfold amount
    omega
  rw [uiomove, if_neg hrw, hlimit, hamount]
  dsimp only
  by_cases hneg : min nBytes s.uio.uio_resid < 0
  · have hzero : n = 0 := by omega
    rw [moveLoop_stop _ (Int.le_of_lt hneg), hzero, Nat.zero_min]
    exact ⟨s, rfl, Effect.refl s buffer, h⟩
  · have hcast : min nBytes s.uio.uio_resid = n := by omega
    obtain ⟨t, ht, heffect, hfits⟩ :=
      moveLoop_spec (n + s.uio.uio_iovcnt.toNat) buffer h (by omega) (Nat.le_refl _)
    rw [hcast, Int.toNat_natCast, ht]
    exact ⟨t, rfl, heffect, hfits⟩

theorem step_spec (h : Fits s) (buffer : Nat) (nBytes : Int) :
    ∃ t, step s (buffer, nBytes) = some t ∧ Effect s t buffer (amount s nBytes) ∧ Fits t := by
  obtain ⟨t, ht, hspec⟩ := uiomove_spec h buffer nBytes
  refine ⟨t, ?_, hspec⟩
  rw [step, ht]
  rfl

/-- The calls of a transfer in parts. -/
def parts : Nat → List Nat → List (Nat × Int)
  | _, [] => []
  | buffer, n :: ns => (buffer, n) :: parts (buffer + n) ns

theorem amount_nat (h : 0 ≤ s.uio.uio_resid) (n : Nat) :
    amount s n = min n (min s.uio.uio_resid.toNat s.places.length) := by
  unfold amount
  omega

/-- A transfer in parts does what the single one is to do. -/
theorem parts_spec (h : Fits s) (buffer : Nat) (ns : List Nat) :
    ∃ t, exec step s (parts buffer ns) = some t ∧ Effect s t buffer (amount s ns.sum) ∧ Fits t := by
  induction ns generalizing s buffer with
  | nil =>
    have hzero : amount s (([] : List Nat).sum : Nat) = 0 := by
      rw [List.sum_nil]
      unfold amount
      omega
    rw [hzero]
    exact ⟨s, rfl, Effect.refl s buffer, h⟩
  | cons n ns ih =>
    obtain ⟨s', hs, hfirst, hfits⟩ := step_spec h buffer n
    obtain ⟨t, ht, hrest, hfits'⟩ := ih hfits (buffer + n)
    have hresid := h.resid
    have hresid' := hfirst.resid
    have hlength : s'.places.length = s.places.length - amount s n := by
      rw [hfirst.places, List.length_drop]
    have hn := amount_nat h.resid n
    have hrest' : amount s' ns.sum = min ns.sum
        (min (s.uio.uio_resid.toNat - amount s n) (s.places.length - amount s n)) := by
      rw [amount_nat hfits.resid, hlength, hresid', Int.toNat_sub']
    have hsum : amount s n + amount s' ns.sum = amount s (n :: ns).sum := by
      rw [List.sum_cons, amount_nat h.resid (n + ns.sum)]
      omega
    have hle : amount s n ≤ s.places.length := by omega
    refine ⟨t, exec_cons.2 ⟨s', hs, ht⟩, ?_, hfits'⟩
    rw [← hsum]
    by_cases hall : amount s n = n
    · rw [← hall] at hrest
      exact hfirst.trans hrest hle
    · -- the first call has already reached an end
      have hzero : amount s' ns.sum = 0 := by omega
      rw [hzero] at hrest ⊢
      exact hfirst.trans (hrest.of_zero _) hle

theorem calls_spec (h : Fits s) (calls : List (Nat × Int)) :
    ∃ t, exec step s calls = some t ∧ Fits t := by
  induction calls generalizing s with
  | nil => exact ⟨s, rfl, h⟩
  | cons call calls ih =>
    obtain ⟨s', hs, -, hfits⟩ := step_spec h call.1 call.2
    obtain ⟨t, ht, h'⟩ := ih hfits
    exact ⟨t, exec_cons.2 ⟨s', hs, ht⟩, h'⟩

/-- In every sequence of calls each one ends and moves the bytes that it is to move, and a
transfer in parts has the effect of a single one. -/
theorem scatter_gather (s : State) (hfits : Fits s) (calls : List (Nat × Int)) :
    ∃ t, exec step s calls = some t ∧
      (∀ buffer nBytes, ∃ t', uiomove t buffer nBytes = some (OK, t') ∧
        Effect t t' buffer (amount t nBytes)) ∧
      ∀ buffer (ns : List Nat), ∃ one many, uiomove t buffer ns.sum = some (OK, one) ∧
        exec step t (parts buffer ns) = some many ∧ many.places = one.places ∧
        many.uio.uio_resid = one.uio.uio_resid ∧ many.uio.uio_offset = one.uio.uio_offset ∧
        (Apart buffer (t.places.take (amount t ns.sum)) → many.mem = one.mem) := by
  obtain ⟨t, ht, h⟩ := calls_spec hfits calls
  refine ⟨t, ht, fun buffer nBytes => ?_, fun buffer ns => ?_⟩
  · obtain ⟨t', ht', heffect, -⟩ := uiomove_spec h buffer nBytes
    exact ⟨t', ht', heffect⟩
  · obtain ⟨one, hone, heffect, -⟩ := uiomove_spec h buffer ns.sum
    obtain ⟨many, hmany, heffect', -⟩ := parts_spec h buffer ns
    refine ⟨one, many, hone, hmany, heffect'.places.trans heffect.places.symm,
      heffect'.resid.trans heffect.resid.symm, heffect'.offset.trans heffect.offset.symm,
      fun hapart => ?_⟩
    rw [heffect'.copied hapart, heffect.copied hapart]

/-- Two vectors with an empty one between them. -/
def threeVectors : State where
  mem a := UInt8.ofNat a
  iovec i := if i = 0 then ⟨10, 2⟩ else if i = 1 then ⟨30, 0⟩ else ⟨20, 3⟩
  uio := ⟨0, 3, 0, 4, UIO_WRITE⟩

theorem scatter_gather_three :
    ∃ t, exec step threeVectors [(0, 3)] = some t ∧
      (∀ buffer nBytes, ∃ t', uiomove t buffer nBytes = some (OK, t') ∧
        Effect t t' buffer (amount t nBytes)) ∧
      ∀ buffer (ns : List Nat), ∃ one many, uiomove t buffer ns.sum = some (OK, one) ∧
        exec step t (parts buffer ns) = some many ∧ many.places = one.places ∧
        many.uio.uio_resid = one.uio.uio_resid ∧ many.uio.uio_offset = one.uio.uio_offset ∧
        (Apart buffer (t.places.take (amount t ns.sum)) → many.mem = one.mem) :=
  scatter_gather threeVectors ⟨by decide, by decide⟩ [(0, 3)]

/-- A vector of two bytes one byte behind the buffer. -/
def overlapping : State where
  mem a := UInt8.ofNat a
  iovec _ := ⟨1, 2⟩
  uio := ⟨0, 1, 0, 2, UIO_READ⟩

/-- Where the buffer overlaps a vector the parts do not have the effect of a single transfer: the
first part writes over a byte that the second one reads. -/
theorem parts_overlap :
    ¬ ∀ (s : State) (buffer : Nat) (ns : List Nat), Fits s → ∀ one many,
      uiomove s buffer ns.sum = some (OK, one) → exec step s (parts buffer ns) = some many →
      many.mem = one.mem := by
  intro h
  have hmem := h overlapping 0 [1, 1] ⟨by decide, by decide⟩ _ _ rfl rfl
  exact absurd (congrFun hmem 2) (by decide)

end Vmx.Os.UioMove
