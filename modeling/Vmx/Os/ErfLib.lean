import Mathlib.Logic.Function.Basic
import Mathlib.Data.List.Basic

/-!
# `erfLib`: event reporting

Handlers are registered for a category and a type of events.  An event is raised by calling them,
or sent to the event task, whose queue holds 32 of them.  A deferred registration and every
unregistration is such an event, of a category of the library's own, for which `erfHandler` is
registered.

A task that calls handlers has the mutex, which it may take again.  The frames of a task are the
events whose handlers it is calling; a handler, or a function that frees the data of an event, may
call the library.  Numbers are signed: what `erfTable` holds outside of its bounds is whatever is
in memory there.
-/

namespace Vmx.Erf

def OK : Int := 0
def ERROR : Int := -1

/-- The messages that `erfMsgQ` can hold. -/
def erfMsgQSize : Nat := 32

def erfEventCategory : Int := 0
def erfEventHandlerRegister : Int := 0
def erfEventHandlerUnregister : Int := 1

/-- The functions that are handlers. -/
inductive Func where
  | erfHandler
  | user (func : Nat)
  deriving DecidableEq

/-- `ERF_TYPE`, with the address that `malloc` gave it. -/
structure ErfType where
  addr : Nat
  func : Func
  pUserData : Nat
  deriving DecidableEq

/-- `ERF_HDL`; its function is one of a user's. -/
structure ErfHdl where
  category : Int
  type : Int
  func : Nat
  pUserData : Nat

/-- What `pEventData` points to. -/
inductive EventData where
  | user (data : Nat)
  | hdl (hdl : ErfHdl)

/-- `ERF_MSG`, with whether there is a function that frees the data. -/
structure ErfMsg where
  category : Int
  type : Int
  hasFreeFunc : Bool
  pEventData : EventData

/-- What is done for an event. -/
inductive Act where
  | called (erfType : ErfType)
  | freed
  deriving DecidableEq

/-- Where a task is with an event. -/
inductive Phase where
  /-- The event task has received it. -/
  | received
  /-- `erfType` points to the next handler. -/
  | walk (erfType : Option Nat)
  /-- The handler is called, and may be one of a user's. -/
  | called (erfType : Nat) (user : Bool)
  | freeing
  deriving DecidableEq

/-- The mutex is taken. -/
def Phase.locked : Phase → Bool
  | .walk _ | .called _ _ => true
  | _ => false

/-- A function of a user's is called. -/
def Phase.userCode : Phase → Bool
  | .called _ user => user
  | .freeing => true
  | _ => false

/-- An event whose handlers a task calls.  The handlers that are registered when it is taken up
and what was done are ghosts. -/
structure Frame where
  msg : ErfMsg
  async : Bool
  phase : Phase
  handlers : List ErfType := []
  log : List Act := []

/-- The library, with the status of the last call and the number that was allocated last.  The
event task has number 0.

The events that were accepted for asynchronous processing and those that were handled are
ghosts. -/
structure State where
  erfCategories : Int
  erfTypes : Int
  erfCatUsed : Int
  typesUsed : Int → Int
  table : Int → Int → List ErfType
  nextAddr : Nat
  erfMsgQ : List ErfMsg := []
  erfMutex : Option Nat := none
  frames : Nat → List Frame := fun _ => []
  status : Int := OK
  number : Int := 0
  accepted : List ErfMsg := []
  handled : List Frame := []

/-- `erfLibInit`, with what is in memory outside of the table; there must be room for the category
of the library and its two types. -/
def erfLibInit (maxCategories maxTypes : Int) (typesUsed : Int → Int)
    (table : Int → Int → List ErfType) : Option State :=
  if maxCategories < 1 ∨ maxTypes < 2 then none
  else
    some
      { erfCategories := maxCategories
        erfTypes := maxTypes
        erfCatUsed := 1
        typesUsed := fun category =>
          if category = erfEventCategory then 2
          else if 0 ≤ category ∧ category < maxCategories then 0
          else typesUsed category
        table := fun category type =>
          if category = erfEventCategory ∧ type = erfEventHandlerRegister then
            [⟨0, .erfHandler, 0⟩]
          else if category = erfEventCategory ∧ type = erfEventHandlerUnregister then
            [⟨1, .erfHandler, 0⟩]
          else if 0 ≤ category ∧ category < maxCategories ∧ 0 ≤ type ∧ type < maxTypes then []
          else table category type
        nextAddr := 2 }

/-! ## Calls -/

/-- A task has the mutex, or can take it. -/
def State.canTake (s : State) (task : Nat) : Prop := s.erfMutex = none ∨ s.erfMutex = some task

instance (s : State) (task : Nat) : Decidable (s.canTake task) :=
  inferInstanceAs (Decidable (_ ∨ _))

/-- A task can call the library: it is in a function of a user's. -/
def State.mayCall (s : State) (task : Nat) : Bool :=
  match s.frames task with
  | [] => task != 0
  | f :: _ => f.phase.userCode

def State.fail (s : State) : State := { s with status := ERROR }

/-- An entry is put at the head of a list. -/
def State.insert (s : State) (category type : Int) (func : Func) (pUserData : Nat) : State :=
  { s with
    table := Function.update s.table category (Function.update (s.table category) type
      (⟨s.nextAddr, func, pUserData⟩ :: s.table category type))
    nextAddr := s.nextAddr + 1 }

/-- `msgQSend` to `erfMsgQ`, without a timeout. -/
def State.send (s : State) (erfMsg : ErfMsg) : State :=
  if s.erfMsgQ.length < erfMsgQSize then
    { s with
      erfMsgQ := s.erfMsgQ ++ [erfMsg], accepted := s.accepted ++ [erfMsg], status := OK }
  else s.fail

/-- The numbers are refused. -/
def State.refuses (s : State) (category type : Int) : Prop :=
  category ≥ s.erfCatUsed ∨ type ≥ s.typesUsed category

instance (s : State) (category type : Int) : Decidable (s.refuses category type) :=
  inferInstanceAs (Decidable (_ ∨ _))

/-- `erfCategoryAllocate`; `null` says that there is no place for the number. -/
def erfCategoryAllocate (s : State) (task : Nat) (null : Bool) : Option State :=
  if null then some s.fail
  else if s.canTake task then
    if s.erfCatUsed = s.erfCategories then some s.fail
    else
      some { s with
        erfCatUsed := s.erfCatUsed + 1, number := s.erfCatUsed, status := OK }
  else none

/-- `erfTypeAllocate`. -/
def erfTypeAllocate (s : State) (task : Nat) (category : Int) (null : Bool) : Option State :=
  if category ≥ s.erfCatUsed ∨ null then some s.fail
  else if s.canTake task then
    if s.typesUsed category = s.erfTypes then some s.fail
    else
      some { s with
        typesUsed := Function.update s.typesUsed category (s.typesUsed category + 1)
        number := s.typesUsed category
        status := OK }
  else none

/-- `erfHandlerRegister`; `malloc` says whether there is memory. -/
def erfHandlerRegister (s : State) (task : Nat) (eventCategory eventType : Int) (func : Option Nat)
    (pUserData : Nat) (flags malloc : Bool) : Option State :=
  match func with
  | none => some s.fail
  | some func =>
    if s.refuses eventCategory eventType then some s.fail
    else if malloc = false then some s.fail
    else if flags = false then
      if s.canTake task then
        some { s.insert eventCategory eventType (.user func) pUserData with status := OK }
      else none
    else
      some (s.send
        { category := erfEventCategory, type := erfEventHandlerRegister, hasFreeFunc := true
          pEventData := .hdl
            { category := eventCategory, type := eventType, func := func
              pUserData := pUserData } })

/-- `erfHandlerUnregister`. -/
def erfHandlerUnregister (s : State) (eventCategory eventType : Int) (func pUserData : Nat)
    (malloc : Bool) : State :=
  if s.refuses eventCategory eventType then s.fail
  else if malloc = false then s.fail
  else
    s.send
      { category := erfEventCategory, type := erfEventHandlerUnregister, hasFreeFunc := true
        pEventData := .hdl
          { category := eventCategory, type := eventType, func := func, pUserData := pUserData } }

/-- A task takes up an event, with the mutex. -/
def State.takeUp (s : State) (task : Nat) (f : Frame) (rest : List Frame) : State :=
  let handlers := s.table f.msg.category f.msg.type
  { s with
    erfMutex := some task
    frames := Function.update s.frames task
      ({ f with phase := .walk (handlers.head?.map ErfType.addr), handlers := handlers } :: rest) }

/-- `erfEventRaise`, up to the walk through the handlers of a synchronous event. -/
def erfEventRaise (s : State) (task : Nat) (erfMsg : ErfMsg) (async : Bool) : Option State :=
  if s.refuses erfMsg.category erfMsg.type then some s.fail
  else if async then some (s.send erfMsg)
  else if s.canTake task then
    some (s.takeUp task { msg := erfMsg, async := false, phase := .received } (s.frames task))
  else none

/-! ## Handlers -/

/-- The loop of `erfHandler` over the registrations, with the one that matches taken out. -/
def unregisterLoop (hdl : ErfHdl) : List ErfType → List ErfType
  | [] => []
  | erfType :: next =>
    if erfType.func = .user hdl.func ∧ erfType.pUserData = hdl.pUserData then next
    else erfType :: unregisterLoop hdl next

/-- `erfHandler`; data that is no `ERF_HDL` cannot be read. -/
def erfHandler (s : State) (msg : ErfMsg) (malloc : Bool) : Option State :=
  if msg.category ≠ erfEventCategory then some s
  else
    match msg.pEventData with
    | .user _ => none
    | .hdl hdl =>
      if msg.type = erfEventHandlerRegister then
        if malloc then some (s.insert hdl.category hdl.type (.user hdl.func) hdl.pUserData)
        else some s
      else if msg.type = erfEventHandlerUnregister then
        some { s with
          table := Function.update s.table hdl.category
            (Function.update (s.table hdl.category) hdl.type
              (unregisterLoop hdl (s.table hdl.category hdl.type))) }
      else some s

/-- `erfType->next` of the entry at an address; what is not in the list has been freed. -/
def nextOf (addr : Nat) : List ErfType → Option (Option Nat)
  | [] => none
  | erfType :: next =>
    if erfType.addr = addr then some (next.head?.map ErfType.addr) else nextOf addr next

/-- The frame on top is replaced. -/
def State.setTop (s : State) (task : Nat) (f : Frame) (rest : List Frame) : State :=
  { s with frames := Function.update s.frames task (f :: rest) }

/-- An event is over. -/
def State.finish (s : State) (task : Nat) (f : Frame) (rest : List Frame) : State :=
  { s with
    frames := Function.update s.frames task rest
    handled := if f.async then s.handled ++ [f] else s.handled }

/-- A task that has an event goes on. -/
def goOn (s : State) (task : Nat) (malloc : Bool) : Option State :=
  match s.frames task with
  | [] => none
  | f :: rest =>
    match f.phase with
    | .received => if s.canTake task then some (s.takeUp task f rest) else none
    | .walk none =>
      -- the mutex is given back
      let s :=
        { s with erfMutex := if rest.any fun f => f.phase.locked then some task else none }
      if f.msg.hasFreeFunc then
        some (s.setTop task { f with phase := .freeing, log := f.log ++ [.freed] } rest)
      else some (s.finish task f rest)
    | .walk (some addr) =>
      ((s.table f.msg.category f.msg.type).find? fun erfType => erfType.addr = addr).bind
        fun erfType =>
          let user := erfType.func ≠ .erfHandler
          let f := { f with phase := .called addr user, log := f.log ++ [.called erfType] }
          if user then some (s.setTop task f rest)
          else (erfHandler s f.msg malloc).map fun s => s.setTop task f rest
    | .called addr _ =>
      (nextOf addr (s.table f.msg.category f.msg.type)).map fun next =>
        s.setTop task { f with phase := .walk next } rest
    | .freeing => some (s.finish task f rest)

/-- The event task receives an event. -/
def erfTaskReceive (s : State) : Option State :=
  match s.frames 0, s.erfMsgQ with
  | [], erfMsg :: erfMsgQ =>
    some { s with
      erfMsgQ := erfMsgQ
      frames := Function.update s.frames 0 [{ msg := erfMsg, async := true, phase := .received }] }
  | _, _ => none

/-! ## The machine -/

inductive Op where
  | categoryAllocate (task : Nat) (null : Bool)
  | typeAllocate (task : Nat) (category : Int) (null : Bool)
  | register (task : Nat) (category type : Int) (func : Option Nat) (pUserData : Nat)
      (flags malloc : Bool)
  | unregister (task : Nat) (category type : Int) (func pUserData : Nat) (malloc : Bool)
  | raise (task : Nat) (category type : Int) (async : Bool) (data : Nat) (hasFreeFunc : Bool)
  | receive
  | goOn (task : Nat) (malloc : Bool)

/-- The task that calls the library. -/
def Op.caller : Op → Option Nat
  | .categoryAllocate task _ | .typeAllocate task _ _ | .register task _ _ _ _ _ _
  | .unregister task _ _ _ _ _ | .raise task _ _ _ _ _ => some task
  | .receive | .goOn _ _ => none

/-- One step. -/
def step (s : State) (op : Op) : Option State :=
  if op.caller.all s.mayCall then
    match op with
    | .categoryAllocate task null => erfCategoryAllocate s task null
    | .typeAllocate task category null => erfTypeAllocate s task category null
    | .register task category type func pUserData flags malloc =>
      erfHandlerRegister s task category type func pUserData flags malloc
    | .unregister _ category type func pUserData malloc =>
      some (erfHandlerUnregister s category type func pUserData malloc)
    | .raise task category type async data hasFreeFunc =>
      erfEventRaise s task
        { category := category, type := type, hasFreeFunc := hasFreeFunc
          pEventData := .user data } async
    | .receive => erfTaskReceive s
    | .goOn task malloc => goOn s task malloc
  else none

end Vmx.Erf
