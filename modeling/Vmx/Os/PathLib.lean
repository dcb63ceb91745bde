import Mathlib.Algebra.Order.Ring.Int

/-!
# `pathLib`: condensing a path

`pathCondense` cuts a path behind its device, parses the rest to an array of names, empties the
names that are to go and builds the rest again.  A string is the list of its characters before
`EOS`.  The array has ten places, one of them for the `NULL` at the end, and both buffers have
`PATH_MAX` bytes, one of them for an `EOS`: `none` means that one of them is overrun.
-/

namespace Vmx.Path

def OK : Int := 0
def ERROR : Int := -1

def PATH_MAX : Nat := 1024

/-- The places of `nameArray`. -/
def nameArraySize : Nat := 10

/-- A separator. -/
def isSep (c : Char) : Bool := c == '/' || c == '\\'

/-! ## Devices -/

/-- The loop of `iosDevMatch`: the best match so far, and its length. -/
def devMatchLoop (name : List Char) : List (List Char) → Option (List Char) × Nat →
    Option (List Char) × Nat
  | [], best => best
  | dev :: iosDevList, best =>
    if dev.isPrefixOf name then
      if dev.length > best.2 then devMatchLoop name iosDevList (some dev, dev.length)
      else devMatchLoop name iosDevList best
    else devMatchLoop name iosDevList best

/-- `iosDevMatch`, over the names of the devices. -/
def iosDevMatch (iosDevList : List (List Char)) (name : List Char) : Option (List Char) :=
  (devMatchLoop name iosDevList (none, 0)).1

/-- Where `iosDevFind` lets `pNameTail` point to. -/
def iosDevFind (iosDevList : List (List Char)) (name : List Char) : Nat :=
  match iosDevMatch iosDevList name with
  | some dev => dev.length
  | none => 0

/-! ## Names -/

/-- The loop of `pathParse`, with the characters from `p0` to `p1` and those from `p1` on. -/
def pathParseLoop : List Char → List Char → List (List Char)
  | name, [] => if name = [] then [] else [name]
  | name, c :: p1 =>
    if isSep c then
      if name = [] then pathParseLoop [] p1 else name :: pathParseLoop [] p1
    else pathParseLoop (name ++ [c]) p1

/-- `pathParse`. -/
def pathParse (longname : List Char) : Option (List (List Char)) :=
  let namearray := pathParseLoop [] longname
  if namearray.length + 1 > nameArraySize then none
  else if (namearray.map fun name => name.length + 1).sum > PATH_MAX then none
  else some (if namearray = [] then [['.']] else namearray)

/-- The inner loop of `pathArrayReduce`, over the names that come before, the last one first. -/
def emptyPrev : List (List Char) → List (List Char)
  | [] => []
  | name :: prev => if name = [] then name :: emptyPrev prev else [] :: prev

/-- The loop of `pathArrayReduce`. -/
def reduceLoop : List (List Char) → List (List Char) → List (List Char)
  | prev, [] => prev.reverse
  | prev, name :: namearray =>
    if name = ['.'] then reduceLoop ([] :: prev) namearray
    else if name = ['.', '.'] then reduceLoop ([] :: emptyPrev prev) namearray
    else reduceLoop (name :: prev) namearray

/-- `pathArrayReduce`. -/
def pathArrayReduce (namearray : List (List Char)) : List (List Char) := reduceLoop [] namearray

/-- The loop of `pathBuild`, with its status and `slashEnd`. -/
def buildLoop : List (List Char) → Nat → List Char → Bool → Option (Int × List Char × Bool)
  | [], _, result, slashEnd => some (OK, result, slashEnd)
  | name :: namearray, len, result, slashEnd =>
    if name = [] then buildLoop namearray len result slashEnd
    else
      let newlen := len + name.length + 1
      if newlen > PATH_MAX then some (ERROR, result, slashEnd)
      else
        let result := result ++ name ++ ['/']
        if result.length + 1 > PATH_MAX then none
        else buildLoop namearray newlen result true

/-- `pathBuild` of a whole array, with its status. -/
def pathBuild (namearray : List (List Char)) (result : List Char) : Option (Int × List Char) :=
  let len := result.length
  if len ≥ PATH_MAX then some (ERROR, result)
  else
    let slashEnd := (result.getLast?.map fun c => !isSep c).getD false
    let result := if slashEnd then result ++ ['/'] else result
    if result.length + 1 > PATH_MAX then none
    else
      (buildLoop namearray len result slashEnd).map fun r =>
        (r.1, if r.1 = OK ∧ r.2.2 then r.2.1.dropLast else r.2.1)

/-- The separator that a path begins with. -/
def lead : List Char → List Char
  | [] => []
  | c :: _ => if isSep c then [c] else []

/-- `pathCondense`. -/
def pathCondense (iosDevList : List (List Char)) (path : List Char) : Option (List Char) :=
  let n := iosDevFind iosDevList path
  let pTail := path.drop n
  (pathParse pTail).bind fun nameArray =>
    (pathBuild (pathArrayReduce nameArray) (lead pTail)).map fun r => path.take n ++ r.2

end Vmx.Path
