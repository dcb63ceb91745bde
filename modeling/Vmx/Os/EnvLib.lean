import Vmx.Lib.Transition
import Mathlib.Logic.Function.Basic

/-!
# `envLib`: environment variables

The tables and the strings of the environments are in memory at addresses, which `malloc` gives
out in turn and never twice.  The strings of the callers are their own.  `none` is what C leaves
undefined: memory that is not allocated is read, written or freed, or the stack is overwritten.

A call has the answers of its allocations as an argument.  The hooks of `envLibInit` are not here.
-/

namespace Vmx.Os.Env

open Lib

/-- A string without its end. -/
abbrev Line := List UInt8

def OK : Int := 0

def ERROR : Int := -1

def ENV_MAX_ENTRIES : Nat := 50

/-- A space, a tab or an equals sign. -/
def separator (c : UInt8) : Bool := c == 32 || c == 9 || c == 61

/-! ## Memory -/

/-- Memory for `size` addresses of strings. -/
structure Table where
  size : Nat
  entries : Nat → Nat

structure Memory where
  str : Nat → Option Line
  table : Nat → Option Table
  next : Nat

namespace Memory

variable (m : Memory)

/-- `malloc` of a table, at `next`. -/
def newTable (size : Nat) : Memory :=
  { m with
    table := Function.update m.table m.next (some { size := size, entries := fun _ => 0 })
    next := m.next + 1 }

/-- The address in entry `i`. -/
def entry (p i : Nat) : Option Nat :=
  (m.table p).bind fun t => if i < t.size then some (t.entries i) else none

/-- The string of entry `i`. -/
def line (p i : Nat) : Option Line := (m.entry p i).bind m.str

/-- A copy of the string in new memory, with its address in entry `i`. -/
def put (p i : Nat) (string : Line) : Option Memory :=
  (m.table p).bind fun t =>
    if i < t.size then
      some
        { str := Function.update m.str m.next (some string)
          table := Function.update m.table p
            (some { t with entries := Function.update t.entries i m.next })
          next := m.next + 1 }
    else none

def freeString (a : Nat) : Option Memory :=
  (m.str a).map fun _ => { m with str := Function.update m.str a none }

def freeTable (p : Nat) : Option Memory :=
  (m.table p).map fun _ => { m with table := Function.update m.table p none }

end Memory

/-! ## Tasks -/

/-- The fields of a TCB for the environment. -/
structure Tcb where
  ppEnviron : Option Nat
  envTableSize : Nat
  nEnvVarEntries : Nat
  /-- `TASK_OPTIONS_PRIVATE_ENV`. -/
  privateEnv : Bool

structure State where
  mem : Memory
  ppGlobalEnviron : Nat
  globalEnvTableSize : Nat
  globalEnvNEntries : Nat
  tcb : Nat → Tcb
  isTask : Nat → Bool

/-- A table with its size and the number of its entries. -/
structure Ref where
  table : Nat
  size : Nat
  n : Nat

namespace State

variable (s : State)

/-- `taskTcb` in the task `me`. -/
def taskTcb (me taskId : Nat) : Option Nat :=
  if taskId = 0 then some me else if s.isTask taskId then some taskId else none

/-- The global environment, or the private one of a task. -/
def env : Option Nat → Option Ref
  | none => some ⟨s.ppGlobalEnviron, s.globalEnvTableSize, s.globalEnvNEntries⟩
  | some t => (s.tcb t).ppEnviron.map fun p =>
    ⟨p, (s.tcb t).envTableSize, (s.tcb t).nEnvVarEntries⟩

/-- The environment that a task uses. -/
def cur (t : Nat) : Ref :=
  (s.env (some t)).getD ⟨s.ppGlobalEnviron, s.globalEnvTableSize, s.globalEnvNEntries⟩

/-- The entry counter of the environment of a task is incremented. -/
def countUp (t : Nat) : State :=
  if (s.tcb t).ppEnviron = none then { s with globalEnvNEntries := s.globalEnvNEntries + 1 }
  else
    { s with
      tcb := Function.update s.tcb t
        { s.tcb t with nEnvVarEntries := (s.tcb t).nEnvVarEntries + 1 } }

/-- `taskOptionsSet` of `TASK_OPTIONS_PRIVATE_ENV`. -/
def setPrivate (me taskId : Nat) (privateEnv : Bool) : State :=
  (s.taskTcb me taskId).elim s fun t =>
    { s with tcb := Function.update s.tcb t { s.tcb t with privateEnv := privateEnv } }

end State

/-! ## Finding a variable -/

/-- The string begins with the name, and a separator or the end comes next. -/
def isEntryOf (name line : Line) : Bool :=
  name.isPrefixOf line && (line.drop name.length).head?.elim true separator

/-- The loop of `envFind`, from entry `i` on with `n` entries left. -/
def envFindLoop (m : Memory) (p : Nat) (name : Line) : Nat → Nat → Option (Option Nat)
  | 0, _ => some none
  | n + 1, i =>
    (m.line p i).bind fun line =>
      if isEntryOf name line then some (some i) else envFindLoop m p name n (i + 1)

/-- `envFind` in the task `me`: the number of the entry. -/
def envFind (s : State) (me : Nat) (name : Line) : Option (Option Nat) :=
  envFindLoop s.mem (s.cur me).table name (s.cur me).n 0

/-- What comes behind the name and the separators. -/
def valueBehind (name line : Line) : Line := (line.drop name.length).dropWhile separator

def getenv (s : State) (me : Nat) (name : Line) : Option (Option Line) :=
  (envFind s me name).bind fun pEnvLine =>
    pEnvLine.elim (some none) fun i =>
      (s.mem.line (s.cur me).table i).map fun line => some (valueBehind name line)

/-! ## Setting a variable -/

/-- The name in a string of `putenv`. -/
def nameOf (string : Line) : Line := string.takeWhile fun c => !separator c

/-- The end of `putenv`, which copies the string without a look at the answer of `malloc`. -/
def store (s : State) (p i : Nat) (string : Line) (ok : Bool) : Option (State × Int) :=
  if ok then (s.mem.put p i string).map fun m => ({ s with mem := m }, OK) else none

/-- `ok` are the answers of `realloc` and `malloc`. -/
def putenv (s : State) (me : Nat) (string : Line) (ok : Nat → Bool) : Option (State × Int) :=
  (envFind s me (nameOf string)).bind fun ppEnvLine =>
    match ppEnvLine with
    | none =>
      let r := s.cur me
      let s := s.countUp me
      if r.size = r.n then
        -- `memset(&buf, ..)` clears the stack from the pointer on and not the new memory
        if ok 0 then none else some (s, ERROR)
      else store s r.table r.n string (ok 1)
    | some i =>
      ((s.mem.entry (s.cur me).table i).bind s.mem.freeString).bind fun m =>
        store { s with mem := m } (s.cur me).table i string (ok 1)

/-! ## Private environments -/

/-- The loop of `envDestroy`. -/
def freeEntries (p : Nat) : Nat → Nat → Memory → Option Memory
  | 0, _, m => some m
  | n + 1, i, m => ((m.entry p i).bind m.freeString).bind (freeEntries p n (i + 1))

def envDestroy (m : Memory) (ppEnv : Option Nat) (nEnvVarEntries : Nat) : Option Memory :=
  match ppEnv with
  | none => if nEnvVarEntries = 0 then some m else none
  | some p => (freeEntries p nEnvVarEntries 0 m).bind fun m => m.freeTable p

/-- The loop of `envDuplicate`, from entry `i` on with `n` entries left; the entry counter of the
new environment is `i`. -/
def copyLoop (srcEnv : Option Nat) (p : Nat) (ok : Nat → Bool) :
    Nat → Nat → Memory → Option (Memory × Nat × Int)
  | 0, i, m => some (m, i, OK)
  | n + 1, i, m =>
    (srcEnv.bind fun src => m.line src i).bind fun line =>
      if ok (i + 1) then (m.put p i line).bind (copyLoop srcEnv p ok n (i + 1))
      else (envDestroy m (some p) i).map fun m => (m, i, ERROR)

/-- `ok 0` is the answer of `malloc` for the table and `ok (i + 1)` that for entry `i`. -/
def envDuplicate (s : State) (srcEnv : Option Nat) (srcEnvTableSize srcNEnvVarEntries t : Nat)
    (ok : Nat → Bool) : Option (State × Int) :=
  if ok 0 then
    (copyLoop srcEnv s.mem.next ok srcNEnvVarEntries 0 (s.mem.newTable srcEnvTableSize)).map
      fun r =>
        ({ s with
            mem := r.1
            tcb := Function.update s.tcb t
              { s.tcb t with
                ppEnviron := some s.mem.next
                envTableSize := srcEnvTableSize
                nEnvVarEntries := r.2.1 } }, r.2.2)
  else some (s, ERROR)

/-- The `switch` of `envPrivateCreate`, whose status is not returned. -/
def envSourceSelect (s : State) (me taskId : Nat) (envSource : Int) (ok : Nat → Bool) :
    Option State :=
  if envSource = -1 then
    if ok 0 then
      let p := s.mem.next
      let s := { s with mem := s.mem.newTable ENV_MAX_ENTRIES }
      some ((s.taskTcb me taskId).elim s fun t =>
        { s with
          tcb := Function.update s.tcb t
            { s.tcb t with
              ppEnviron := some p
              envTableSize := ENV_MAX_ENTRIES
              nEnvVarEntries := 0 } })
    else some s
  else if envSource = 0 then
    -- into the calling task, whatever `taskId` is
    (envDuplicate s (some s.ppGlobalEnviron) s.globalEnvTableSize s.globalEnvNEntries me ok).map
      Prod.fst
  else
    -- from the task of `taskId` into the calling task
    (s.taskTcb me taskId).elim (some s) fun t =>
      (envDuplicate s (s.tcb t).ppEnviron (s.tcb t).envTableSize (s.tcb t).nEnvVarEntries me
        ok).map Prod.fst

def envPrivateCreate (s : State) (me taskId : Nat) (envSource : Int) (ok : Nat → Bool) :
    Option (State × Int) :=
  (envSourceSelect s me taskId envSource ok).map fun s => (s.setPrivate me taskId true, OK)

/-- The entry counter is left as it is. -/
def envPrivateDestroy (s : State) (me taskId : Nat) : Option (State × Int) :=
  (s.taskTcb me taskId).elim (some (s, OK)) fun t =>
    (envDestroy s.mem (s.tcb t).ppEnviron (s.tcb t).nEnvVarEntries).map fun m =>
      ({ s with
          mem := m
          tcb := Function.update s.tcb t { s.tcb t with ppEnviron := none, privateEnv := false } },
        OK)

/-! ## Runs -/

/-- A call in the task `me`. -/
inductive Op where
  | putenv (me : Nat) (string : Line) (ok : Nat → Bool)
  | getenv (me : Nat) (name : Line)
  | envPrivateCreate (me taskId : Nat) (envSource : Int) (ok : Nat → Bool)
  | envPrivateDestroy (me taskId : Nat)

def call (s : State) : Op → Option (State × Int)
  | .putenv me string ok => putenv s me string ok
  | .getenv me name => (getenv s me name).map fun _ => (s, OK)
  | .envPrivateCreate me taskId envSource ok => envPrivateCreate s me taskId envSource ok
  | .envPrivateDestroy me taskId => envPrivateDestroy s me taskId

/-- The values of the variables. -/
abbrev Values := Line → Option Line

/-- What the environments are to be, the global one and the private ones that there are. -/
abbrev Spec := Option Nat → Option Values

namespace Spec

variable (a : Spec)

/-- The environment that a task uses. -/
def user (t : Nat) : Option Nat := if (a (some t)).isSome then some t else none

def of (t : Nat) : Values := (a (a.user t)).getD fun _ => none

/-- The environment that a private one starts with. -/
def source (envSource : Int) : Values :=
  if envSource = -1 then fun _ => none
  else if envSource = 0 then (a none).getD fun _ => none
  else a.of envSource.toNat

/-- What a call that succeeds is to do. -/
def call (s : State) : Op → Spec
  | .putenv me string _ =>
    Function.update a (a.user me)
      (some (Function.update (a.of me) (nameOf string)
        (some (valueBehind (nameOf string) string))))
  | .getenv _ _ => a
  | .envPrivateCreate me taskId envSource _ =>
    (s.taskTcb me taskId).elim a fun t => Function.update a (some t) (some (a.source envSource))
  | .envPrivateDestroy me taskId =>
    (s.taskTcb me taskId).elim a fun t => Function.update a (some t) none

end Spec

/-- The state with what the environments are to be. -/
structure World where
  s : State
  spec : Spec

/-- A call that fails is to leave the environments as they are. -/
def step (w : World) (op : Op) : Option World :=
  (call w.s op).map fun r => ⟨r.1, if r.2 = OK then w.spec.call w.s op else w.spec⟩

/-- After `envLibInit`, with tasks that have no private environment. -/
def start (isTask : Nat → Bool) (envTableSize nEnvVarEntries : Nat → Nat) : World where
  s :=
    { mem := Memory.newTable ⟨fun _ => none, fun _ => none, 0⟩ ENV_MAX_ENTRIES
      ppGlobalEnviron := 0
      globalEnvTableSize := ENV_MAX_ENTRIES
      globalEnvNEntries := 0
      tcb := fun t => ⟨none, envTableSize t, nEnvVarEntries t, false⟩
      isTask := isTask }
  spec := fun e => e.elim (some fun _ => none) fun _ => none

/-- The variables have the values that they are to have, and the tables have room for their
entries. -/
structure Right (w : World) : Prop where
  get : ∀ t name, (∀ c ∈ name, separator c = false) → getenv w.s t name = some (w.spec.of t name)
  bound : ∀ t, ∃ table, w.s.mem.table (w.s.cur t).table = some table ∧ (w.s.cur t).n ≤ table.size

/-- The calls that the code does right. -/
def Meets (w : World) : Op → Prop
  | .putenv me string ok =>
    -- the variable is there or the table has room, and there is memory for the string
    (envFind w.s me (nameOf string) ≠ some none ∨ (w.s.cur me).n < (w.s.cur me).size) ∧
      ok 1 = true
  | .getenv _ name => ∀ c ∈ name, separator c = false
  | .envPrivateCreate me taskId envSource ok =>
    if envSource = -1 then ok 0 = true
    else if envSource = 0 then
      w.s.taskTcb me taskId = some me ∧ ∀ i ≤ w.s.globalEnvNEntries, ok i = true
    else
      ∀ t ∈ w.s.taskTcb me taskId, t = me ∧ envSource = me ∧
        (w.s.tcb me).ppEnviron ≠ none ∧ ∀ i ≤ (w.s.tcb me).nEnvVarEntries, ok i = true
  | .envPrivateDestroy me taskId =>
    ∀ t ∈ w.s.taskTcb me taskId,
      (w.s.tcb t).ppEnviron ≠ none ∨ (w.s.tcb t).nEnvVarEntries = 0

instance (w : World) : (op : Op) → Decidable (Meets w op)
  | .putenv me string ok => inferInstanceAs (Decidable
      ((envFind w.s me (nameOf string) ≠ some none ∨ (w.s.cur me).n < (w.s.cur me).size) ∧
        ok 1 = true))
  | .getenv _ name => List.decidableBAll (fun c => separator c = false) name
  | .envPrivateCreate me taskId envSource ok => inferInstanceAs (Decidable
      (if envSource = -1 then ok 0 = true
      else if envSource = 0 then
        w.s.taskTcb me taskId = some me ∧ ∀ i ≤ w.s.globalEnvNEntries, ok i = true
      else
        ∀ t ∈ w.s.taskTcb me taskId, t = me ∧ envSource = me ∧
          (w.s.tcb me).ppEnviron ≠ none ∧ ∀ i ≤ (w.s.tcb me).nEnvVarEntries, ok i = true))
  | .envPrivateDestroy me taskId => inferInstanceAs (Decidable
      (∀ t ∈ w.s.taskTcb me taskId,
        (w.s.tcb t).ppEnviron ≠ none ∨ (w.s.tcb t).nEnvVarEntries = 0))

end Vmx.Os.Env
