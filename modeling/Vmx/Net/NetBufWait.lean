import Vmx.Net.ClusterFit
import Vmx.Net.NetPoolRuns

/-!
# Waiting for network buffers

A get that may wait calls the collect function when a list is empty and tries once more.  Interrupts
are locked around a list, and `locked` says whether they are.  The collect function of the library
is `mbufCollect`, which ends only when there is no domain.

`none` as the result of a call means that it follows a pointer that is `NULL`, reads outside a
table, uses a variable that was never set or does not end.
-/

namespace Vmx.NetWait

open Lib NetBuf

/-! ## The calls -/

/-- A domain, with the drain functions of its protocols; `none` is that of a protocol without. -/
structure Domain where
  dom_protosw : List (Option Nat)

/-- `mbufCollect`, with the drain functions that it calls.  The loop over the domains does not
advance, and the one over the protocols does not set the variable that it counts with. -/
def mbufCollect : List Domain → Option (List Nat)
  | [] => some []
  | _ :: _ => none

/-- Whether the call of the collect function ends, if there is one. -/
def ends : Option (List Domain) → Bool
  | none => true
  | some domains => (mbufCollect domains).isSome

/-- The end of a get from an empty list, by a caller that waits.  Without a collect function the
interrupts stay locked. -/
def waited {α : Type} (collect : Option (List Domain)) (locked : Bool) (first retry : State × α) :
    Option (State × Bool × α) :=
  match collect with
  | none => some (first.1, true, first.2)
  | some domains => (mbufCollect domains).map fun _ => (retry.1, locked, retry.2)

/-- `_mBlkGet`. -/
def netMblkGet (collect : Option (List Domain)) (locked : Bool) (s : State) (p : Nat) (wait : Bool)
    (type : Nat) : Option (State × Bool × Option Nat) :=
  if (s.pools p).pmBlkHead = [] ∧ wait = true then
    waited collect locked (mBlkGet s p true type) (mBlkGet s p false type)
  else some ((mBlkGet s p wait type).1, locked, (mBlkGet s p wait type).2)

/-- `_clBlkGet`. -/
def netClBlkGet (collect : Option (List Domain)) (locked : Bool) (s : State) (p : Nat)
    (wait : Bool) : Option (State × Bool × Option Nat) :=
  if (s.pools p).pClBlkHead = [] ∧ wait = true then
    waited collect locked (clBlkGet s p) (clBlkGet s p)
  else some ((clBlkGet s p).1, locked, (clBlkGet s p).2)

/-- `_mClGet` finds no cluster to take. -/
def noCluster (s : State) (p : Nat) (size : Int) (bestFit : Bool) : Bool :=
  match clPoolIdGet s p size bestFit with
  | some (some q) =>
    (s.clPools q).pClHead = [] && decide ((s.pools p).clMask < 2 ^ (s.clPools q).clLg2) &&
      (bestFit || (s.pools p).clMask = 0)
  | _ => false

/-- `_mClGet`, with whether it is `OK`.  Without a clBlk it frees `NULL`.  When it finds no cluster
it unlocks the interrupts, whether it has called the collect function or not. -/
def netMblkClGet (collect : Option (List Domain)) (locked : Bool) (s : State) (p : Nat)
    (m : Option Nat) (size : Int) (wait bestFit : Bool) : Option (State × Bool × Bool) :=
  match m with
  | none => some (s, locked, false)
  | some m =>
    match netClBlkGet collect locked s p wait with
    | some (_, locked, some _) =>
      if wait && noCluster s p size bestFit && !ends collect then none
      else (mClGet s p (some m) size bestFit).map fun r => (r.1, locked, r.2)
    | _ => none

/-- `netTupleGet`. -/
def netTupleGet (collect : Option (List Domain)) (locked : Bool) (s : State) (p : Nat) (size : Int)
    (wait : Bool) (type : Nat) (bestFit : Bool) : Option (State × Bool × Bool) :=
  match netMblkGet collect locked s p wait type with
  | none => none
  | some (s1, locked, m) =>
    match netMblkClGet collect locked s1 p m size wait bestFit with
    | none => none
    | some (s2, locked, true) => some (s2, locked, true)
    | some (s2, locked, false) => some ((m.map (mBlkFree s2 p)).getD s2, locked, false)

inductive Request where
  | netMblkGet (wait : Bool) (type : Nat)
  | netClBlkGet (wait : Bool)
  | netMblkClGet (m : Option Nat) (size : Int) (wait bestFit : Bool)
  | netTupleGet (size : Int) (wait : Bool) (type : Nat) (bestFit : Bool)

/-- The state after a request, whether interrupts are locked, and whether it has been met. -/
def Request.run (collect : Option (List Domain)) (locked : Bool) (s : State) (p : Nat) :
    Request → Option (State × Bool × Bool)
  | netMblkGet wait type =>
    (NetWait.netMblkGet collect locked s p wait type).map fun r => (r.1, r.2.1, r.2.2.isSome)
  | netClBlkGet wait =>
    (NetWait.netClBlkGet collect locked s p wait).map fun r => (r.1, r.2.1, r.2.2.isSome)
  | netMblkClGet m size wait bestFit =>
    NetWait.netMblkClGet collect locked s p m size wait bestFit
  | netTupleGet size wait type bestFit =>
    NetWait.netTupleGet collect locked s p size wait type bestFit

/-! ## When they are right -/

/-- The blocks and clusters on the free lists are the same. -/
structure SameFree (s s' : State) : Prop where
  mBlks : ∀ p, (s'.pools p).pmBlkHead = (s.pools p).pmBlkHead
  clBlks : ∀ p, (s'.pools p).pClBlkHead = (s.pools p).pClBlkHead
  clusters : ∀ q, (s'.clPools q).pClHead = (s.clPools q).pClHead

/-- How a request should end: the interrupts are as they were, and when it has failed every block
and cluster is on its list. -/
def Fine (locked : Bool) (s : State) (r : Option (State × Bool × Bool)) : Prop :=
  ∃ s' locked' ok, r = some (s', locked', ok) ∧ locked' = locked ∧ (ok = false → SameFree s s')

def Right (collect : Option (List Domain)) (locked : Bool) (s : State) (p : Nat) (r : Request) :
    Prop :=
  Fine locked s (r.run collect locked s p)

/-- The drain functions of all protocols. -/
def drains (domains : List Domain) : List Nat :=
  domains.flatMap fun domain => domain.dom_protosw.filterMap id

/-- Free mBlks are of the type `MT_FREE`, and the tables of the cluster pools are set up. -/
structure WellFormed (s : State) : Prop where
  free : ∀ p, ∀ m ∈ (s.pools p).pmBlkHead, (s.mBlks m).mType = MT_FREE
  tables : TInv s

/-- A caller may wait for an empty list: there is a collect function and no domain, or no collect
function and the interrupts are locked anyway. -/
def Waits (collect : Option (List Domain)) (locked : Bool) : Prop :=
  match collect with
  | none => locked = true
  | some domains => domains = []

/-- There is a clBlk, the table is not empty or not looked at, and no collect function that does not
end is called for a cluster. -/
def HasClBlk (collect : Option (List Domain)) (s : State) (p : Nat) (size : Int)
    (wait bestFit : Bool) : Prop :=
  getOk s p size bestFit = true ∧
    (wait = true → noCluster s p size bestFit = true → ∀ domains ∈ collect, domains = [])

/-- What a request needs. -/
def Served (collect : Option (List Domain)) (locked : Bool) (s : State) (p : Nat) : Request → Prop
  | .netMblkGet wait _ => wait = true → (s.pools p).pmBlkHead = [] → Waits collect locked
  | .netClBlkGet wait => wait = true → (s.pools p).pClBlkHead = [] → Waits collect locked
  | .netMblkClGet m size wait bestFit => m = none ∨ HasClBlk collect s p size wait bestFit
  | .netTupleGet size wait _ bestFit =>
    if (s.pools p).pmBlkHead = [] then wait = true → Waits collect locked
    else HasClBlk collect s p size wait bestFit

variable {s s' : State} {p m : Nat} {collect : Option (List Domain)} {locked wait bestFit : Bool}
  {size : Int} {type : Nat}

/-! ## Lists that stay -/

theorem SameFree.refl (s : State) : SameFree s s := ⟨fun _ => rfl, fun _ => rfl, fun _ => rfl⟩

/-- The lists are those of the pools. -/
theorem SameFree.of_pools (h : ∀ p, (s'.pools p).pmBlkHead = (s.pools p).pmBlkHead ∧
      (s'.pools p).pClBlkHead = (s.pools p).pClBlkHead) (hclusters : s'.clPools = s.clPools) :
    SameFree s s' :=
  ⟨fun p => (h p).1, fun p => (h p).2, fun q => by rw [hclusters]⟩

theorem sameFree_drops (s : State) (p drops : Nat) :
    SameFree s (s.setPool p fun pool => { pool with mDrops := drops }) := by
  refine .of_pools (fun p' => ?_) rfl
  by_cases hp : p' = p
  · subst hp
    simp [State.setPool]
  · simp [State.setPool, hp]

/-- A clBlk that is freed again is back on its list. -/
theorem sameFree_clBlkFree {b : Nat} {rest : List Nat}
    (hhead : (s.pools p).pClBlkHead = b :: rest) {f : Pool → Pool}
    (hf : ∀ pool, (f pool).pmBlkHead = pool.pmBlkHead ∧ (f pool).pClBlkHead = pool.pClBlkHead) :
    SameFree s (clBlkFree ((takenB s p b rest).setPool p f) b) := by
  have hfree : clBlkFree ((takenB s p b rest).setPool p f) b =
      clBlkReturn ((takenB s p b rest).setPool p f) b := by
    simp [clBlkFree, takenB, State.setPool, State.setClBlkOwner, State.setClBlk]
  rw [hfree]
  refine .of_pools (fun p' => ?_) rfl
  by_cases hp : p' = p
  · subst hp
    simp [clBlkReturn, takenB, State.setPool, State.setClBlkOwner, State.setClBlk, hf, hhead]
  · simp [clBlkReturn, takenB, State.setPool, State.setClBlkOwner, State.setClBlk, hp]

/-- A get of a cluster that fails gives back the clBlk. -/
theorem sameFree_mClGet (hget : mClGet s p (some m) size bestFit = some (s', false)) :
    SameFree s s' := by
  rw [mClGet] at hget
  cases hhead : (s.pools p).pClBlkHead with
  | nil =>
    rw [clBlkGet_nil hhead] at hget
    exact absurd hget (by simp)
  | cons b rest =>
    rw [clBlkGet_cons hhead] at hget
    dsimp only at hget
    cases hfound : clPoolIdGet (takenB s p b rest) p size bestFit with
    | none => simp [hfound] at hget
    | some found =>
      rw [hfound] at hget
      cases found with
      | none =>
        have hsame := sameFree_clBlkFree hhead (f := fun pool => pool) fun _ => ⟨rfl, rfl⟩
        simp only [State.setPool, Function.update_eq_self] at hsame
        simp only [Option.some.injEq, Prod.mk.injEq, and_true] at hget
        rw [← hget]
        exact hsame
      | some q =>
        dsimp only at hget
        cases hpick : pickPool (takenB s p b rest) p q bestFit with
        | none => simp [hpick] at hget
        | some q' =>
          rw [hpick] at hget
          dsimp only at hget
          cases hclusters : ((takenB s p b rest).clPools q').pClHead with
          | cons c rest' =>
            rw [clusterGet_cons hclusters] at hget
            simp at hget
          | nil =>
            rw [clusterGet_nil hclusters] at hget
            simp only [Option.some.injEq, Prod.mk.injEq, and_true] at hget
            rw [← hget]
            exact sameFree_clBlkFree hhead fun _ => ⟨rfl, rfl⟩

/-- An mBlk that is freed again is back on its list. -/
theorem sameFree_mBlkFree {rest : List Nat} (hhead : (s.pools p).pmBlkHead = m :: rest)
    (h : SameFree (takenM s p m rest type) s') : SameFree s (mBlkFree s' p m) where
  mBlks p' := by
    have hp' := h.mBlks p'
    by_cases hp : p' = p
    · subst hp
      simp_all [mBlkFree, takenM, State.setUsed, State.setMblk, State.setPool]
    · simp_all [mBlkFree, takenM, State.setUsed, State.setMblk, State.setPool]
  clBlks p' := by
    have hp' := h.clBlks p'
    by_cases hp : p' = p
    · subst hp
      simp_all [mBlkFree, takenM, State.setUsed, State.setMblk, State.setPool]
    · simp_all [mBlkFree, takenM, State.setUsed, State.setMblk, State.setPool]
  clusters q := h.clusters q

/-! ## Gets that go wrong -/

/-- A pool without clusters is asked for the index of no size, or of one that is too large. -/
theorem clPoolIdGet_none (h : TInv s) (hmax : (s.pools p).clLg2Max = 0)
    (hsize : ¬(bestFit = true ∧ 0 < size)) : clPoolIdGet s p size bestFit = none := by
  obtain ⟨hmin, -, hsmin, hsmax⟩ | ⟨-, hlg2, -⟩ := h.sizes p
  · rw [clPoolIdGet]
    simp only [hsmin, hsmax, hmin, hmax]
    split
    · rename_i hpos
      rw [if_neg fun hbest => hsize ⟨hbest, hpos⟩]
      rfl
    · split
      · rfl
      · have hzero : size = 0 := by omega
        subst hzero
        rfl
  · rw [CL_LOG2_MIN] at hlg2
    omega

/-- Without a clBlk, or with a negative index into the table, a get of a cluster goes wrong. -/
theorem mClGet_isSome_iff (h : TInv s) (m : Nat) :
    (mClGet s p (some m) size bestFit).isSome = true ↔ getOk s p size bestFit = true := by
  constructor
  · intro hsome
    by_contra hok
    cases hhead : (s.pools p).pClBlkHead with
    | nil =>
      rw [mClGet, clBlkGet_nil hhead] at hsome
      exact absurd hsome (by simp)
    | cons b rest =>
      simp only [getOk, hhead, ne_eq, reduceCtorEq, not_false_eq_true, decide_true,
        Bool.true_and, Bool.or_eq_true, decide_eq_true_eq, Bool.and_eq_true, not_or,
        not_not] at hok
      have hmax : ((takenB s p b rest).pools p).clLg2Max = (s.pools p).clLg2Max := by
        simp [takenB, State.setClBlkOwner, State.setClBlk, State.setPool]
      have hnone := clPoolIdGet_none (@TInv.takenB s p b h rest) (hmax.trans hok.1) hok.2
      rw [mClGet, clBlkGet_cons hhead] at hsome
      simp only [hnone] at hsome
      exact absurd hsome (by simp)
  · intro hok
    obtain ⟨r, hr⟩ := mClGet_some h hok m
    rw [hr]
    rfl

theorem sameFree_mBlkGet (wait : Bool) (type : Nat) (hhead : (s.pools p).pmBlkHead = []) :
    SameFree s (mBlkGet s p wait type).1 := by
  obtain ⟨drops, hget⟩ := mBlkGet_nil wait type hhead
  rw [hget]
  exact sameFree_drops s p drops

/-! ## Waiting -/

@[simp] theorem fine_none : ¬Fine locked s none := by
  rintro ⟨s', locked', ok, h, -⟩
  exact absurd h (by simp)

@[simp] theorem fine_some {locked' ok : Bool} :
    Fine locked s (some (s', locked', ok)) ↔ locked' = locked ∧ (ok = false → SameFree s s') := by
  constructor
  · rintro ⟨s₁, locked₁, ok₁, h, hlocked, hsame⟩
    obtain ⟨rfl, rfl, rfl⟩ := by simpa using h
    exact ⟨hlocked, hsame⟩
  · exact fun h => ⟨s', locked', ok, rfl, h.1, h.2⟩

/-- A wait is right when the caller may wait. -/
theorem fine_waited {α : Type} {first retry : State × α} {met : α → Bool}
    (hfirst : SameFree s first.1) (hretry : SameFree s retry.1) :
    Fine locked s ((waited collect locked first retry).map fun r => (r.1, r.2.1, met r.2.2)) ↔
      Waits collect locked := by
  cases collect with
  | none =>
    rw [waited, Option.map_some, fine_some, Waits]
    exact ⟨fun h => h.1.symm, fun h => ⟨h.symm, fun _ => hfirst⟩⟩
  | some domains =>
    cases domains with
    | nil =>
      rw [waited, mbufCollect, Option.map_some, Option.map_some, fine_some, Waits]
      exact ⟨fun _ => rfl, fun _ => ⟨rfl, fun _ => hretry⟩⟩
    | cons domain rest =>
      rw [waited, mbufCollect, Option.map_none, Option.map_none, Waits]
      simp

theorem ends_iff : ends collect = true ↔ ∀ domains ∈ collect, domains = [] := by
  cases collect with
  | none => simp [ends]
  | some domains =>
    cases domains with
    | nil => simp [ends, mbufCollect]
    | cons domain rest => simp [ends, mbufCollect]

/-! ## The requests -/

theorem netMblkGet_fine
    (hfree : ∀ m ∈ (s.pools p).pmBlkHead, (s.mBlks m).mType = MT_FREE) :
    Fine locked s ((netMblkGet collect locked s p wait type).map
        fun r => (r.1, r.2.1, r.2.2.isSome)) ↔
      (wait = true → (s.pools p).pmBlkHead = [] → Waits collect locked) := by
  rw [netMblkGet]
  cases hhead : (s.pools p).pmBlkHead with
  | nil =>
    cases wait with
    | true =>
      rw [if_pos ⟨rfl, rfl⟩,
        fine_waited (sameFree_mBlkGet true type hhead) (sameFree_mBlkGet false type hhead)]
      exact ⟨fun h _ _ => h, fun h => h rfl rfl⟩
    | false =>
      rw [if_neg (by simp), Option.map_some, fine_some]
      exact ⟨fun _ h => absurd h (by simp),
        fun _ => ⟨rfl, fun _ => sameFree_mBlkGet false type hhead⟩⟩
  | cons m rest =>
    have hget : mBlkGet s p wait type = (takenM s p m rest type, some m) :=
      mBlkGet_free wait type hhead (hfree m (by simp [hhead]))
    rw [if_neg (by simp), hget, Option.map_some, fine_some]
    exact ⟨fun _ _ h => absurd h (by simp), fun _ => ⟨rfl, fun h => absurd h (by simp)⟩⟩

theorem netClBlkGet_fine :
    Fine locked s ((netClBlkGet collect locked s p wait).map
        fun r => (r.1, r.2.1, r.2.2.isSome)) ↔
      (wait = true → (s.pools p).pClBlkHead = [] → Waits collect locked) := by
  rw [netClBlkGet]
  cases hhead : (s.pools p).pClBlkHead with
  | nil =>
    rw [clBlkGet_nil hhead]
    cases wait with
    | true =>
      rw [if_pos ⟨rfl, rfl⟩, fine_waited (SameFree.refl s) (SameFree.refl s)]
      exact ⟨fun h _ _ => h, fun h => h rfl rfl⟩
    | false =>
      rw [if_neg (by simp), Option.map_some, fine_some]
      exact ⟨fun _ h => absurd h (by simp), fun _ => ⟨rfl, fun _ => SameFree.refl s⟩⟩
  | cons b rest =>
    rw [if_neg (by simp), clBlkGet_cons hhead, Option.map_some, fine_some]
    exact ⟨fun _ _ h => absurd h (by simp), fun _ => ⟨rfl, fun h => absurd h (by simp)⟩⟩

/-- Whether a get of a cluster is right, and that one which fails gives everything back. -/
theorem netMblkClGet_spec (h : TInv s) (m : Nat) :
    (netMblkClGet collect locked s p (some m) size wait bestFit = none ∧
      ¬HasClBlk collect s p size wait bestFit) ∨
    ∃ s' ok, netMblkClGet collect locked s p (some m) size wait bestFit = some (s', locked, ok) ∧
      (ok = false → SameFree s s') ∧ HasClBlk collect s p size wait bestFit := by
  have hiff := @mClGet_isSome_iff s p bestFit size h m
  rw [netMblkClGet, netClBlkGet, HasClBlk, ← ends_iff]
  cases hhead : (s.pools p).pClBlkHead with
  | nil =>
    left
    have hok : getOk s p size bestFit = false := by simp [getOk, hhead]
    refine ⟨?_, fun hhas => by simp [hok] at hhas⟩
    rw [clBlkGet_nil hhead]
    cases wait with
    | false => rfl
    | true =>
      rw [if_pos ⟨rfl, rfl⟩]
      cases collect with
      | none => rfl
      | some domains => cases domains <;> rfl
  | cons b rest =>
    rw [if_neg (by simp), clBlkGet_cons hhead]
    dsimp only
    by_cases hends : wait = true → noCluster s p size bestFit = true → ends collect = true
    · have hgo : (wait && noCluster s p size bestFit && !ends collect) = false := by
        simpa [Bool.and_eq_false_iff] using hends
      rw [hgo]
      cases hget : mClGet s p (some m) size bestFit with
      | none =>
        left
        refine ⟨rfl, fun hhas => ?_⟩
        have hsome := hiff.2 hhas.1
        rw [hget] at hsome
        exact absurd hsome (by simp)
      | some r =>
        right
        refine ⟨r.1, r.2, rfl, fun hfalse => ?_, hiff.1 (by rw [hget]; rfl), hends⟩
        exact @sameFree_mClGet s r.1 p m bestFit size (by rw [hget, ← hfalse])
    · left
      have hgo : (wait && noCluster s p size bestFit && !ends collect) = true := by
        simpa [and_assoc] using hends
      rw [hgo]
      exact ⟨rfl, fun hhas => hends hhas.2⟩

theorem netMblkGet_nil (hhead : (s.pools p).pmBlkHead = []) {r : State × Bool × Option Nat}
    (hget : netMblkGet collect locked s p wait type = some r) : r.2.2 = none := by
  have hnone : ∀ wait, (mBlkGet s p wait type).2 = none := fun wait => by
    obtain ⟨drops, hget⟩ := mBlkGet_nil wait type hhead
    rw [hget]
  rw [netMblkGet] at hget
  cases wait with
  | false =>
    rw [if_neg (by simp), Option.some.injEq] at hget
    rw [← hget]
    exact hnone false
  | true =>
    rw [if_pos ⟨hhead, rfl⟩] at hget
    cases collect with
    | none =>
      rw [waited, Option.some.injEq] at hget
      rw [← hget]
      exact hnone true
    | some domains =>
      cases domains with
      | nil =>
        rw [waited, mbufCollect, Option.map_some, Option.some.injEq] at hget
        rw [← hget]
        exact hnone false
      | cons domain rest =>
        rw [waited, mbufCollect, Option.map_none] at hget
        exact absurd hget (by simp)

theorem hasClBlk_takenM {rest : List Nat} :
    HasClBlk collect (takenM s p m rest type) p size wait bestFit ↔
      HasClBlk collect s p size wait bestFit := by
  have hok : getOk (takenM s p m rest type) p size bestFit = getOk s p size bestFit := by
    simp [getOk, takenM, State.setUsed, State.setMblk, State.setPool]
  have hfound : clPoolIdGet (takenM s p m rest type) p size bestFit =
      clPoolIdGet s p size bestFit := by
    simp [clPoolIdGet, takenM, State.setUsed, State.setMblk, State.setPool]
  have hmask : ((takenM s p m rest type).pools p).clMask = (s.pools p).clMask := by
    simp [takenM, State.setUsed, State.setMblk, State.setPool]
  have hno : noCluster (takenM s p m rest type) p size bestFit = noCluster s p size bestFit := by
    rw [noCluster, noCluster, hfound, hmask]
    rfl
  rw [HasClBlk, HasClBlk, hok, hno]

/-- A get of a whole tuple from a list that is not empty is a get of a cluster for its first mBlk,
which goes back when there is none. -/
theorem netTupleGet_fine (h : WellFormed s) :
    Fine locked s (netTupleGet collect locked s p size wait type bestFit) ↔
      if (s.pools p).pmBlkHead = [] then wait = true → Waits collect locked
      else HasClBlk collect s p size wait bestFit := by
  cases hhead : (s.pools p).pmBlkHead with
  | nil =>
    have hmblk := @netMblkGet_fine s p collect locked wait type (h.free p)
    have htuple : netTupleGet collect locked s p size wait type bestFit =
        (netMblkGet collect locked s p wait type).map fun r => (r.1, r.2.1, r.2.2.isSome) := by
      rw [netTupleGet]
      cases hget : netMblkGet collect locked s p wait type with
      | none => rfl
      | some r =>
        obtain ⟨s₁, locked₁, found⟩ := r
        obtain rfl : found = none := netMblkGet_nil hhead hget
        rfl
    rw [if_pos rfl, htuple, hmblk]
    exact ⟨fun hw hwait => hw hwait hhead, fun hw hwait _ => hw hwait⟩
  | cons m rest =>
    have hget : netMblkGet collect locked s p wait type =
        some (takenM s p m rest type, locked, some m) := by
      rw [netMblkGet, if_neg (by simp [hhead]),
        mBlkGet_free wait type hhead (h.free p m (by simp [hhead]))]
    rw [if_neg (by simp), netTupleGet, hget]
    dsimp only
    obtain ⟨hnone, hhas⟩ | ⟨s₂, ok, hsome, hsame, hhas⟩ :=
      @netMblkClGet_spec (takenM s p m rest type) p collect locked wait bestFit size
        h.tables.takenM m
    · rw [hnone]
      exact ⟨fun hfine => absurd hfine fine_none,
        fun hhas' => absurd (hasClBlk_takenM.2 hhas') hhas⟩
    · rw [hsome]
      refine ⟨fun _ => hasClBlk_takenM.1 hhas, fun _ => ?_⟩
      cases ok with
      | true => exact fine_some.2 ⟨rfl, fun hfalse => absurd hfalse (by simp)⟩
      | false => exact fine_some.2 ⟨rfl, fun _ => sameFree_mBlkFree hhead (hsame rfl)⟩

/-! ## Exhaustion -/

theorem wellFormed_of_inv (h : PoolInv s) : WellFormed s where
  free p m hm := (h.mBlks.type m).2 ((h.mBlks.lists.mem p m).1 hm).2.2
  tables := h.tables

theorem right_iff (h : WellFormed s) (r : Request) :
    Right collect locked s p r ↔ Served collect locked s p r := by
  cases r with
  | netMblkGet wait type => exact netMblkGet_fine (h.free p)
  | netClBlkGet wait => exact netClBlkGet_fine
  | netMblkClGet m size wait bestFit =>
    rw [Right, Request.run, Served]
    cases m with
    | none =>
      rw [NetWait.netMblkClGet, fine_some]
      exact ⟨fun _ => .inl rfl, fun _ => ⟨rfl, fun _ => SameFree.refl s⟩⟩
    | some m =>
      rw [or_iff_right (by simp)]
      obtain ⟨hnone, hhas⟩ | ⟨s', ok, hsome, hsame, hhas⟩ :=
        @netMblkClGet_spec s p collect locked wait bestFit size h.tables m
      · rw [hnone]
        exact ⟨fun hfine => absurd hfine fine_none, fun hhas' => absurd hhas' hhas⟩
      · rw [hsome, fine_some]
        exact ⟨fun _ => hhas, fun _ => ⟨rfl, hsame⟩⟩
  | netTupleGet size wait type bestFit => exact netTupleGet_fine h

/-- Each request is right when it is served, and only then, and the collect function is when there
is no domain. -/
theorem exhaustion (h : WellFormed s) :
    (∀ collect locked p r, Right collect locked s p r ↔ Served collect locked s p r) ∧
      ∀ domains, mbufCollect domains = some (drains domains) ↔ domains = [] := by
  refine ⟨fun _ _ _ r => right_iff h r, fun domains => ?_⟩
  cases domains with
  | nil => exact ⟨fun _ => rfl, fun _ => rfl⟩
  | cons domain rest =>
    exact ⟨fun hends => absurd hends (by simp [mbufCollect]), fun hnil => absurd hnil (by simp)⟩

/-- A pool with an mBlk and no clBlk. -/
def oneBlock : State :=
  State.setPool {} 0 fun pool => { pool with pmBlkHead := [0] }

theorem oneBlock_wellFormed : WellFormed oneBlock where
  free _ _ _ := rfl
  tables := PoolInv.init.tables.setPool fun _ => ⟨⟨rfl, rfl, rfl, rfl, rfl⟩, rfl⟩

theorem exhaustion_oneBlock :
    Right none false oneBlock 0 (.netMblkGet true 1) ∧
      ¬Right none false oneBlock 0 (.netTupleGet 100 true 1 true) := by
  constructor
  · refine ((exhaustion oneBlock_wellFormed).1 none false 0 _).2 fun _ hnil => ?_
    exact absurd hnil (by simp [oneBlock, State.setPool])
  · rw [(exhaustion oneBlock_wellFormed).1]
    simp [Served, HasClBlk, getOk, oneBlock, State.setPool]

/-- A caller that waits for an mBlk without a collect function comes back with the interrupts
locked. -/
theorem wait_locks : ¬∀ collect locked s p r, WellFormed s → Right collect locked s p r := by
  intro h
  have hright := h none false {} 0 (.netMblkGet true 1) (wellFormed_of_inv PoolInv.init)
  rw [Right, Request.run, NetWait.netMblkGet, if_pos ⟨rfl, rfl⟩, waited, Option.map_some,
    fine_some] at hright
  exact absurd hright.1 (by simp)

end Vmx.NetWait
