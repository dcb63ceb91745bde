import Vmx.Util.ListLib

/-!
# `pipeDrv`: deletion of a pipe

`pipeDevDelete` with the search of `iosLib` for the device and the removal of nodes of `selectLib`
from a wake-up list.  The memory is one for all devices and nodes: what `numOpens` and the wake-up
list of a device that is no pipe are is what is read behind its header.

`status` has no value in `pipeDevDelete` before it is assigned; `junk` is what it has.  The loops
take a number of rounds, and `none` is a loop that has not ended after them.

`Right` says what a deletion is to do and `Meets` when the code does it, which
`pipeDevDelete_iff` is about.
-/

namespace Vmx.Os.PipeDelete

def OK : Int := 0

def ERROR : Int := -1

def FALSE : Int := 0

def TRUE : Int := 1

inductive Errno where
  | EMFILE
  | EBUSY
  | S_iosLib_DEVICE_NOT_FOUND
  deriving DecidableEq

/-- A device: its header, and the pipe behind it. -/
structure Dev where
  name : List UInt8
  drvNumber : Int
  numOpens : Nat
  wakeupList : LIST
  /-- The first word of the mutex in front of the list. -/
  mutexWord : Nat
  msgQ : Bool
  mutex : Bool

/-- The fields of a `SEL_WAKEUP_NODE` behind its links. -/
structure WakeupNode where
  dontFree : Bool
  taskId : Nat
  type : Nat

structure State where
  devs : Nat → Dev
  iosDevList : List Nat
  iosDefaultPath : List UInt8
  pipeDrvNum : Int
  intContext : Bool
  links : ListNodes
  nodes : Nat → WakeupNode
  freed : Nat → Bool
  errno : Option Errno
  takes : Nat
  gives : Nat
  /-- As ghosts how often a node has been removed, and whether a freed one has been read. -/
  removals : Nat → Nat
  readFreed : Bool

namespace State

variable (s : State)

def errnoSet (e : Errno) : State := { s with errno := some e }

def free (p : Nat) : State := { s with freed := Function.update s.freed p true }

/-- A node is read. -/
def read (p : Nat) : State := { s with readFreed := s.readFreed || s.freed p }

/-- `semTake` and `semGive` of the mutex of a wake-up list. -/
def take : State := { s with takes := s.takes + 1 }

def give : State := { s with gives := s.gives + 1 }

/-- `listRemove` from the wake-up list of `d`. -/
def remove (d p : Nat) : State :=
  let r := listRemove s.links (s.devs d).wakeupList p
  { s with
    links := r.1
    devs := Function.update s.devs d { s.devs d with wakeupList := r.2 }
    removals := Function.update s.removals p (s.removals p + 1) }

end State

/-! ## Finding the device -/

/-- `iosDevMatch`: the device of the longest name that the given one starts with. -/
def iosDevMatch (s : State) (name : List UInt8) : Option Nat :=
  (s.iosDevList.foldl (fun (best : Option Nat × Nat) d =>
    if (s.devs d).name.isPrefixOf name ∧ (s.devs d).name.length > best.2 then
      (some d, (s.devs d).name.length)
    else best) (none, 0)).1

/-- `iosDevFind`, without the tail of the name, which `pipeDevDelete` does not look at. -/
def iosDevFind (s : State) (name : List UInt8) : Option Nat :=
  (iosDevMatch s name).or (iosDevMatch s s.iosDefaultPath)

/-- `iosDevDelete`; the memory of the name goes with the device. -/
def iosDevDelete (s : State) (d : Nat) : State := { s with iosDevList := s.iosDevList.erase d }

/-! ## The wake-up list -/

/-- The loop of `selNodeDelete`, from the node `pI` on. -/
def nodeLoop (d pNode : Nat) : Nat → State → Option Nat → Option State
  | _, s, none => some s
  | 0, _, some _ => none
  | rounds + 1, s, some pI =>
    let s := (s.read pI).read pNode
    if (s.nodes pI).taskId = (s.nodes pNode).taskId ∧
        (s.nodes pI).type = (s.nodes pNode).type then
      let s := s.remove d pI
      let s := if (s.nodes pI).dontFree = false then s.free pI else s
      some s.give
    else nodeLoop d pNode rounds s (s.links.next pI)

/-- `selNodeDelete`, which gives the mutex once more when it has found a node. -/
def selNodeDelete (rounds : Nat) (s : State) (d pNode : Nat) : Option State :=
  (nodeLoop d pNode rounds s.take (s.devs d).wakeupList.head).map State.give

/-- The loop of `pipeDevDelete` along the nodes. -/
def forceLoop (limit d : Nat) : Nat → State → Nat → Option State
  | 0, _, _ => none
  | rounds + 1, s, wNode =>
    (selNodeDelete limit s d wNode).bind fun s =>
      let s := s.read wNode
      (s.links.next wNode).elim (some s) fun wNode => forceLoop limit d rounds s wNode

/-- `selWakeupListTerminate`. -/
def selWakeupListTerminate (s : State) (d : Nat) : State :=
  { s with devs := Function.update s.devs d { s.devs d with mutex := false } }

/-- `msgQTerminate` of the queue of the device. -/
def msgQTerminate (s : State) (d : Nat) : State :=
  { s with devs := Function.update s.devs d { s.devs d with msgQ := false } }

/-! ## The deletion -/

/-- The branch of `pipeDevDelete` that deletes the device. -/
def deletePipe (rounds : Nat) (s : State) (d : Nat) (force : Int) : Option State :=
  let s := iosDevDelete s d
  let s :=
    if force = TRUE ∧ (s.devs d).wakeupList.count ≠ 0 then
      -- the head is read from the front of the `SEL_WAKEUP_LIST`, where the mutex is
      (forceLoop rounds d rounds s (s.devs d).mutexWord).map fun s => selWakeupListTerminate s d
    else some s
  s.map fun s => (msgQTerminate s d).free d

def pipeDevDelete (rounds : Nat) (junk : Int) (s : State) (name : List UInt8) (force : Int) :
    Option (Int × State) :=
  if s.intContext then some (ERROR, s)
  else if s.pipeDrvNum = ERROR then some (ERROR, s)
  else
    match iosDevFind s name with
    | none => some (ERROR, s.errnoSet .S_iosLib_DEVICE_NOT_FOUND)
    | some pPipeDev =>
      let r : Int × State :=
        if force = FALSE then
          if (s.devs pPipeDev).numOpens ≠ 0 then (ERROR, s.errnoSet .EMFILE)
          else if (s.devs pPipeDev).wakeupList.count ≠ 0 then (ERROR, s.errnoSet .EBUSY)
          else (OK, s)
        else (junk, s)
      if r.1 ≠ ERROR then (deletePipe rounds r.2 pPipeDev force).map fun s => (r.1, s)
      else some r

/-! ## What a deletion is to do -/

/-- A pipe of exactly the name. -/
def Named (s : State) (name : List UInt8) (p : Nat) : Prop :=
  p ∈ s.iosDevList ∧ (s.devs p).drvNumber = s.pipeDrvNum ∧ (s.devs p).name = name

/-- The pipe is open or a task selects on it. -/
def Busy (s : State) (p : Nat) : Prop :=
  (s.devs p).numOpens ≠ 0 ∨ (s.devs p).wakeupList.count ≠ 0

/-- An error, with nothing changed. -/
def Refused (s : State) (r : Int × State) : Prop :=
  r.1 = ERROR ∧ { r.2 with errno := s.errno } = s

/-- The pipe is gone with the nodes of its wake-up list. -/
structure Deleted (s : State) (p : Nat) (r : Int × State) : Prop where
  status : r.1 = OK
  list : p ∉ r.2.iosDevList
  others : ∀ d ≠ p, d ∈ r.2.iosDevList ↔ d ∈ s.iosDevList
  removed : ∀ nodes, IsList s.links (s.devs p).wakeupList nodes →
    ∀ n ∈ nodes, r.2.removals n = s.removals n + 1
  read : r.2.readFreed = s.readFreed

/-- A deletion acts on the pipe of the name only. -/
def Right (s : State) (name : List UInt8) (force : Int) (r : Int × State) : Prop :=
  (∀ p, ¬Named s name p) ∧ Refused s r ∨
    ∃ p, Named s name p ∧ (force = FALSE ∧ Busy s p → Refused s r) ∧
      (¬(force = FALSE ∧ Busy s p) → Deleted s p r)

/-- There is no pipe to delete: none of the name, or one that is busy and not forced. -/
def NotDue (s : State) (name : List UInt8) (force : Int) : Prop :=
  (∀ p, ¬Named s name p) ∨ ∃ p, Named s name p ∧ force = FALSE ∧ Busy s p

/-- When the code does what it is to do, whatever `status` has at first. -/
def Meets (s : State) (name : List UInt8) (force : Int) : Prop :=
  if s.intContext = true ∨ s.pipeDrvNum = ERROR then NotDue s name force
  else
    (iosDevFind s name).elim (NotDue s name force) fun d =>
      force = FALSE ∧ (Named s name d ∨ Busy s d ∧ NotDue s name force)

/-- The devices in the list are different. -/
def Setting (s : State) : Prop := s.iosDevList.Nodup

/-! ## Refusals and deletions -/

variable {s : State} {name : List UInt8} {force : Int} {r : Int × State} {p d : Nat}

theorem not_refused_of_ok (h : r.1 = OK) : ¬Refused s r := fun hr => by
  rw [Refused, h] at hr
  exact absurd hr.1 (by decide)

theorem right_of_refused (h : Refused s r) : Right s name force r ↔ NotDue s name force := by
  constructor
  · rintro (⟨hnone, -⟩ | ⟨p, hp, -, hdelete⟩)
    · exact Or.inl hnone
    · refine Or.inr ⟨p, hp, ?_⟩
      by_contra hbusy
      exact not_refused_of_ok (hdelete hbusy).status h
  · rintro (hnone | ⟨p, hp, hbusy⟩)
    · exact Or.inl ⟨hnone, h⟩
    · exact Or.inr ⟨p, hp, fun _ => h, fun hidle => absurd hbusy hidle⟩

theorem refused_errno (s : State) (e : Errno) : Refused s (ERROR, s.errnoSet e) := ⟨rfl, rfl⟩

/-- The state after a device that is not busy has been deleted. -/
def gone (s : State) (d : Nat) : State := (msgQTerminate (iosDevDelete s d) d).free d

theorem deletePipe_idle (rounds : Nat) (h : force = FALSE) :
    deletePipe rounds s d force = some (gone s d) := by
  have hforce : ¬(force = TRUE ∧ ((iosDevDelete s d).devs d).wakeupList.count ≠ 0) := fun hc => by
    rw [h] at hc
    exact absurd hc.1 (by decide)
  rw [deletePipe, if_neg hforce]
  rfl

/-- The deletion of a device that is not busy is right when it is the pipe of the name. -/
theorem right_of_gone (hs : Setting s) (hidle : ¬Busy s d) :
    Right s name force (OK, gone s d) ↔ Named s name d := by
  have hlist : (gone s d).iosDevList = s.iosDevList.erase d := rfl
  constructor
  · rintro (⟨-, hrefused⟩ | ⟨p, hp, hbusy, hdelete⟩)
    · exact absurd hrefused (not_refused_of_ok rfl)
    · by_cases hcase : force = FALSE ∧ Busy s p
      · exact absurd (hbusy hcase) (not_refused_of_ok rfl)
      · have hout := (hdelete hcase).list
        rw [hlist] at hout
        -- only the device itself has left the list
        by_cases hpd : p = d
        · rw [← hpd]
          exact hp
        · exact absurd ((List.mem_erase_of_ne hpd).2 hp.1) hout
  · intro hd
    refine Or.inr ⟨d, hd, fun hbusy => absurd hbusy.2 hidle, fun _ => ⟨rfl, ?_, ?_, ?_, rfl⟩⟩
    · rw [hlist, hs.mem_erase_iff]
      exact fun hmem => hmem.1 rfl
    · intro p hpd
      rw [hlist, List.mem_erase_of_ne hpd]
    · -- its wake-up list is empty
      intro nodes hnodes n hn
      have hcount : (s.devs d).wakeupList.count = 0 := by
        by_contra hc
        exact hidle (Or.inr hc)
      have hlength := hnodes.count
      rw [hcount] at hlength
      rw [List.length_eq_zero_iff.1 (Int.ofNat_eq_zero.1 hlength.symm)] at hn
      exact absurd hn List.not_mem_nil

/-! ## The result -/

/-- What the function does without force with the device that is found. -/
theorem pipeDevDelete_found (rounds : Nat) (junk : Int) (hctx : ¬(s.intContext = true))
    (hdrv : s.pipeDrvNum ≠ ERROR) (hfind : iosDevFind s name = some d) (hforce : force = FALSE) :
    (Busy s d → ∃ r, pipeDevDelete rounds junk s name force = some r ∧ Refused s r) ∧
      (¬Busy s d → pipeDevDelete rounds junk s name force = some (OK, gone s d)) := by
  rw [pipeDevDelete, if_neg hctx, if_neg hdrv, hfind]
  dsimp only
  rw [if_pos hforce]
  by_cases hopen : (s.devs d).numOpens ≠ 0
  · rw [if_pos hopen]
    exact ⟨fun _ => ⟨_, rfl, refused_errno s .EMFILE⟩, fun hidle => absurd (Or.inl hopen) hidle⟩
  · rw [if_neg hopen]
    by_cases hcount : (s.devs d).wakeupList.count ≠ 0
    · rw [if_pos hcount]
      exact ⟨fun _ => ⟨_, rfl, refused_errno s .EBUSY⟩, fun hidle => absurd (Or.inr hcount) hidle⟩
    · rw [if_neg hcount]
      refine ⟨fun hbusy => absurd hbusy (not_or.2 ⟨hopen, hcount⟩), fun _ => ?_⟩
      rw [if_pos (show OK ≠ ERROR by decide), deletePipe_idle rounds hforce]
      rfl

/-- With force the status is what `status` had at first. -/
theorem pipeDevDelete_forced {rounds : Nat} {junk : Int} (hctx : ¬(s.intContext = true))
    (hdrv : s.pipeDrvNum ≠ ERROR) (hfind : iosDevFind s name = some d) (hforce : force ≠ FALSE)
    (hr : pipeDevDelete rounds junk s name force = some r) :
    r.1 = junk ∧ (junk = ERROR → r.2 = s) := by
  rw [pipeDevDelete, if_neg hctx, if_neg hdrv, hfind] at hr
  dsimp only at hr
  rw [if_neg hforce] at hr
  by_cases hjunk : junk = ERROR
  · rw [if_neg fun hne => hne hjunk] at hr
    rw [← Option.some.inj hr]
    exact ⟨rfl, fun _ => rfl⟩
  · rw [if_pos hjunk] at hr
    obtain ⟨t, -, rfl⟩ := Option.map_eq_some_iff.1 hr
    exact ⟨rfl, fun h => absurd h hjunk⟩

/-- Where the function refuses it is right to when there is no pipe to delete. -/
theorem right_of_refusals
    (h : ∀ rounds junk, ∃ r, pipeDevDelete rounds junk s name force = some r ∧ Refused s r) :
    (∀ junk, ∃ rounds r, pipeDevDelete rounds junk s name force = some r ∧ Right s name force r) ↔
      NotDue s name force := by
  constructor
  · intro hright
    obtain ⟨rounds, r, hr, hright⟩ := hright OK
    obtain ⟨r', hr', hrefused⟩ := h rounds OK
    rw [hr] at hr'
    rw [← Option.some.inj hr'] at hrefused
    exact (right_of_refused hrefused).1 hright
  · intro hdue junk
    obtain ⟨r, hr, hrefused⟩ := h 0 junk
    exact ⟨0, r, hr, (right_of_refused hrefused).2 hdue⟩

/-- With force it is never right for every status that the function may start with. -/
theorem not_right_of_force (hctx : ¬(s.intContext = true)) (hdrv : s.pipeDrvNum ≠ ERROR)
    (hfind : iosDevFind s name = some d) (hforce : force ≠ FALSE) :
    ¬∀ junk, ∃ rounds r, pipeDevDelete rounds junk s name force = some r ∧
      Right s name force r := by
  intro h
  obtain ⟨_, r, hr, hright⟩ := h ERROR
  obtain ⟨_, r', hr', hright'⟩ := h OK
  have hrefused : Refused s r := by
    obtain ⟨hstatus, hsame⟩ := pipeDevDelete_forced hctx hdrv hfind hforce hr
    refine ⟨hstatus, ?_⟩
    rw [hsame rfl]
  have hstatus := (pipeDevDelete_forced hctx hdrv hfind hforce hr').1
  rcases (right_of_refused hrefused).1 hright with hnone | ⟨p, -, hfree, -⟩
  · rcases hright' with ⟨-, hrefused'⟩ | ⟨p, hp, -⟩
    · exact not_refused_of_ok hstatus hrefused'
    · exact hnone p hp
  · exact hforce hfree

/-- A deletion is right, whatever `status` has at first, exactly when the device that is found is
the pipe of the name and there is no force, or nothing is deleted and nothing is to be. -/
theorem pipeDevDelete_iff (s : State) (name : List UInt8) (force : Int) (hs : Setting s) :
    (∀ junk, ∃ rounds r, pipeDevDelete rounds junk s name force = some r ∧ Right s name force r) ↔
      Meets s name force := by
  rw [Meets]
  by_cases hguard : s.intContext = true ∨ s.pipeDrvNum = ERROR
  · rw [if_pos hguard]
    refine right_of_refusals fun rounds junk => ⟨(ERROR, s), ?_, rfl, rfl⟩
    rw [pipeDevDelete]
    by_cases hctx : s.intContext = true
    · rw [if_pos hctx]
    · rw [if_neg hctx, if_pos (hguard.resolve_left hctx)]
  · rw [if_neg hguard]
    obtain ⟨hctx, hdrv⟩ := not_or.1 hguard
    cases hfind : iosDevFind s name with
    | none =>
      refine right_of_refusals fun rounds junk =>
        ⟨_, ?_, refused_errno s .S_iosLib_DEVICE_NOT_FOUND⟩
      rw [pipeDevDelete, if_neg hctx, if_neg hdrv, hfind]
    | some d =>
      rw [Option.elim_some]
      by_cases hforce : force = FALSE
      · have hfound := fun rounds junk => pipeDevDelete_found rounds junk hctx hdrv hfind hforce
        by_cases hbusy : Busy s d
        · rw [right_of_refusals fun rounds junk => (hfound rounds junk).1 hbusy]
          constructor
          · exact fun hdue => ⟨hforce, Or.inr ⟨hbusy, hdue⟩⟩
          · rintro ⟨-, hnamed | ⟨-, hdue⟩⟩
            · exact Or.inr ⟨d, hnamed, hforce, hbusy⟩
            · exact hdue
        · constructor
          · intro h
            obtain ⟨rounds, r, hr, hright⟩ := h OK
            rw [(hfound rounds OK).2 hbusy] at hr
            rw [← Option.some.inj hr, right_of_gone hs hbusy] at hright
            exact ⟨hforce, Or.inl hright⟩
          · rintro ⟨-, hnamed | ⟨hbusy', -⟩⟩
            · exact fun junk => ⟨0, _, (hfound 0 junk).2 hbusy, (right_of_gone hs hbusy).2 hnamed⟩
            · exact absurd hbusy' hbusy
      · exact iff_of_false (not_right_of_force hctx hdrv hfind hforce) fun h => hforce h.1

/-- A pipe of the name "/p", which no one has open or selects on. -/
def onePipe : State where
  devs _ := ⟨[47, 112], 1, 0, listInit, 0, true, true⟩
  iosDevList := [0]
  iosDefaultPath := []
  pipeDrvNum := 1
  intContext := false
  links := ⟨fun _ => none, fun _ => none⟩
  nodes _ := ⟨true, 0, 0⟩
  freed _ := false
  errno := none
  takes := 0
  gives := 0
  removals _ := 0
  readFreed := false

theorem pipeDevDelete_iff_onePipe :
    (∀ junk, ∃ rounds r, pipeDevDelete rounds junk onePipe [47, 112] FALSE = some r ∧
      Right onePipe [47, 112] FALSE r) ↔ Meets onePipe [47, 112] FALSE :=
  pipeDevDelete_iff onePipe [47, 112] FALSE (by decide : [0].Nodup)

/-- The pipe "/p" is deleted under the name "/pq". -/
theorem deletes_shorter_name :
    ¬∀ (s : State) (name : List UInt8) (force : Int), Setting s →
      ∀ junk, ∃ rounds r, pipeDevDelete rounds junk s name force = some r ∧
        Right s name force r := by
  intro h
  obtain ⟨rounds, r, hr, hright⟩ := h onePipe [47, 112, 113] FALSE (by decide : [0].Nodup) OK
  have hstatus : r.1 = OK := by
    rw [← Option.some.inj hr]
    rfl
  rcases hright with ⟨-, hrefused⟩ | ⟨p, hp, -⟩
  · exact not_refused_of_ok hstatus hrefused
  · have hname : ([47, 112] : List UInt8) = [47, 112, 113] := hp.2.2
    exact absurd hname (by decide)

end Vmx.Os.PipeDelete
