import Vmx.Lib.Transition
import Vmx.Lib.Chain
import Mathlib.Algebra.Order.Ring.Int

/-!
# `udcclr`: the colour table of a palette

The entries of a palette are on one of two lists, the free entries and the used ones, and
both go through the same `nextIndex` and `prevIndex` of the entries; -1 is the end of a
list.  `uglCommonClutAlloc` gives out an entry for a colour, one that the caller names or
any, and `uglCommonClutFree` takes it back when nobody uses it any more.

A search along the used list looks at no more than `numColors` entries when the list ends,
so that is the fuel it gets, and `none` says that it never ends (or that the call would use
a variable that has no value yet).  The colour cube beside the entries is left out: nothing
here reads it.
-/

namespace Vmx.Ugl

open Lib

/-- `UGL_CLUT_ENTRY`. -/
structure ClutEntry where
  color : UInt32
  useCount : Int
  nextIndex : Int
  prevIndex : Int
  deriving DecidableEq

/-- `UGL_CLUT`. -/
structure Clut where
  numColors : Int
  firstFreeIndex : Int
  firstUsedIndex : Int
  clut : Int → ClutEntry

namespace Clut

def setNext (s : Clut) (i next : Int) : Clut :=
  { s with clut := Function.update s.clut i { s.clut i with nextIndex := next } }

def setPrev (s : Clut) (i prev : Int) : Clut :=
  { s with clut := Function.update s.clut i { s.clut i with prevIndex := prev } }

def setColor (s : Clut) (i : Int) (color : UInt32) : Clut :=
  { s with clut := Function.update s.clut i { s.clut i with color := color } }

def setCount (s : Clut) (i count : Int) : Clut :=
  { s with clut := Function.update s.clut i { s.clut i with useCount := count } }

end Clut

/-- A `UGL_INT32`. -/
def int32 (x : Int) : Int := Int.bmod x (2 ^ 32)

def UGL_ARGB_RED (argb : UInt32) : UInt32 := (argb >>> 16) &&& 0xff

def UGL_ARGB_GREEN (argb : UInt32) : UInt32 := (argb >>> 8) &&& 0xff

def UGL_ARGB_BLUE (argb : UInt32) : UInt32 := argb &&& 0xff

/-- The links of the entries from `i` on, as the loop of `uglCommonClutCreate` sets them. -/
def initEntries (s : Clut) (i : Int) : Nat → Clut
  | 0 => s
  | n + 1 => initEntries ((s.setNext i (i + 1)).setPrev i (i - 1)) (i + 1) n

/-- `uglCommonClutCreate`, when there is memory for the palette. -/
def uglCommonClutCreate (numColors : Int) : Clut :=
  let s : Clut :=
    { numColors := numColors, firstFreeIndex := 0, firstUsedIndex := -1,
      clut := fun _ => { color := 0, useCount := 0, nextIndex := 0, prevIndex := 0 } }
  let s := initEntries s 0 numColors.toNat
  (s.setPrev 0 (-1)).setNext (numColors - 1) (-1)

/-- The error of an entry's colour against a requested one. -/
def errorVal (color reqColor : UInt32) : UInt32 :=
  let rError := UGL_ARGB_RED color - UGL_ARGB_RED reqColor
  let gError := UGL_ARGB_GREEN color - UGL_ARGB_GREEN reqColor
  let bError := UGL_ARGB_BLUE color - UGL_ARGB_BLUE reqColor
  rError * rError + gError * gError + bError * bError

/-- The inner loop of `uglCommonClutMapNearest`, from the entry `j` on; `nearIndex` is
`none` as long as it has no value. -/
def nearestLoop (s : Clut) (reqColor : UInt32) :
    Nat → Int → UInt32 → Option Int → Option (UInt32 × Option Int)
  | fuel, j, minError, nearIndex =>
    if j = -1 then some (minError, nearIndex)
    else
      match fuel with
      | 0 => none
      | fuel + 1 =>
        let error := errorVal (s.clut j).color reqColor
        if error < minError then
          if error = 0 then some (minError, some j)
          else nearestLoop s reqColor fuel (s.clut j).nextIndex error (some j)
        else nearestLoop s reqColor fuel (s.clut j).nextIndex minError nearIndex

/-- The outer loop of `uglCommonClutMapNearest`: `minError` and `nearIndex` go on from one
colour to the next. -/
def mapNearestLoop (s : Clut) :
    List UInt32 → UInt32 → Option Int → Option (List (UInt32 × Int))
  | [], _, _ => some []
  | reqColor :: mapColors, minError, nearIndex =>
    match nearestLoop s reqColor s.numColors.toNat s.firstUsedIndex minError nearIndex with
    | some (minError, some nearIndex) =>
      (mapNearestLoop s mapColors minError (some nearIndex)).map
        (((s.clut nearIndex).color, nearIndex) :: ·)
    | _ => none

/-- `uglCommonClutMapNearest`: for each colour the colour and the index of the entry that it
is mapped to. -/
def uglCommonClutMapNearest (s : Clut) (mapColors : List UInt32) :
    Option (List (UInt32 × Int)) :=
  mapNearestLoop s mapColors 0xffffffff none

/-- The search of `uglCommonClutAlloc` for an entry that has the colour; a negative index
says that there is none. -/
def findColor (s : Clut) (reqColor : UInt32) : Nat → Int → Option Int
  | fuel, index =>
    if index < 0 then some index
    else
      match fuel with
      | 0 => none
      | fuel + 1 =>
        if (s.clut index).color = reqColor then some index
        else findColor s reqColor fuel (s.clut index).nextIndex

/-- What an allocation returns: the index and the colour that it stores for the caller, and
whether a new entry was allocated. -/
structure Allocated where
  index : Int
  actualColor : UInt32
  allocated : Bool
  deriving DecidableEq

/-- The entry `index` comes in front of the used list. -/
def pushUsed (s : Clut) (index : Int) : Clut :=
  let s := s.setNext index s.firstUsedIndex
  let s := if s.firstUsedIndex ≠ -1 then s.setPrev s.firstUsedIndex index else s
  { s with firstUsedIndex := index }

/-- The first free entry leaves the free list. -/
def popFree (s : Clut) : Clut :=
  let s := { s with firstFreeIndex := (s.clut s.firstFreeIndex).nextIndex }
  if s.firstFreeIndex ≠ -1 then s.setPrev s.firstFreeIndex (-1) else s

/-- The first free entry is taken for a colour. -/
def allocFirstFree (s : Clut) (reqColor : UInt32) : Clut × Allocated :=
  let index := s.firstFreeIndex
  let s := pushUsed (popFree s) index
  let s := (s.setCount index 1).setColor index reqColor
  (s, { index := index, actualColor := reqColor, allocated := true })

/-- A free entry that the caller names leaves the free list. -/
def unlinkFree (s : Clut) (index : Int) : Clut :=
  let i := (s.clut index).prevIndex
  let s := if i ≥ 0 then s.setNext i (s.clut index).nextIndex else s
  let i := (s.clut index).nextIndex
  let s := if i ≥ 0 then s.setPrev i (s.clut index).prevIndex else s
  if index = s.firstFreeIndex then { s with firstFreeIndex := i } else s

/-- The entry has one more user. -/
def addUser (s : Clut) (index : Int) : Clut :=
  s.setCount index (int32 ((s.clut index).useCount + 1))

/-- `uglCommonClutAlloc`. -/
def uglCommonClutAlloc (s : Clut) (index : Int) (reqColor : UInt32) :
    Option (Clut × Allocated) :=
  let reqColor := reqColor ||| 0xff000000
  if index < 0 then
    match findColor s reqColor s.numColors.toNat s.firstUsedIndex with
    | none => none
    | some index =>
      if 0 ≤ index then
        some (addUser s index, { index := index, actualColor := reqColor, allocated := false })
      else if s.firstFreeIndex ≠ -1 then some (allocFirstFree s reqColor)
      else
        match uglCommonClutMapNearest s [reqColor] with
        | some [(actualColor, index)] =>
          some (addUser s index,
            { index := index, actualColor := actualColor, allocated := false })
        | _ => none
  else
    let s := if (s.clut index).useCount = 0 then pushUsed (unlinkFree s index) index else s
    some (addUser (s.setColor index reqColor) index,
      { index := index, actualColor := reqColor, allocated := true })

/-- The last user of an entry is gone: it leaves the used list and comes in front of the
free list. -/
def releaseEntry (s : Clut) (index : Int) : Clut :=
  let nextIndex := (s.clut index).nextIndex
  let prevIndex := (s.clut index).prevIndex
  let s := if nextIndex ≥ 0 then s.setPrev nextIndex (s.clut index).prevIndex else s
  let s :=
    if prevIndex ≥ 0 then s.setNext prevIndex (s.clut index).nextIndex
    else { s with firstUsedIndex := (s.clut index).nextIndex }
  let s :=
    if s.firstUsedIndex = index then { s with firstUsedIndex := (s.clut index).nextIndex } else s
  let s := (s.setNext index s.firstFreeIndex).setPrev index (-1)
  { s with firstFreeIndex := index }

/-- One round of `uglCommonClutFree`, with its status. -/
def freeColor (s : Clut) (index : Int) : Clut × Bool :=
  if (s.clut index).useCount = 0 then (s, false)
  else
    let s := s.setCount index (int32 ((s.clut index).useCount - 1))
    if (s.clut index).useCount = 0 then (releaseEntry s index, true) else (s, true)

/-- The index of a colour. -/
def colorIndex (color mask : UInt32) : Int := int32 (color &&& mask).toNat

/-- `uglCommonClutFree`, with its status. -/
def uglCommonClutFree (s : Clut) (colors : List UInt32) (mask : UInt32) : Clut × Bool :=
  match colors with
  | [] => (s, true)
  | color :: colors =>
    let (s, ok) := freeColor s (colorIndex color mask)
    let (s, oks) := uglCommonClutFree s colors mask
    (s, ok && oks)

/-! ## Calls on a palette -/

/-- The calls on a palette. -/
inductive ClutCall where
  | alloc (index : Int) (reqColor : UInt32)
  | free (colors : List UInt32) (mask : UInt32)
  deriving DecidableEq

/-- An index of the palette. -/
def Clut.Valid (s : Clut) (index : Int) : Prop := 0 ≤ index ∧ index < s.numColors

instance (s : Clut) (index : Int) : Decidable (s.Valid index) :=
  inferInstanceAs (Decidable (_ ∧ _))

instance (s : Clut) (colors : List UInt32) (mask : UInt32) :
    Decidable (∀ color ∈ colors, s.Valid (colorIndex color mask)) :=
  List.decidableBAll _ colors

/-- A call with valid indices; an allocation with a negative index takes any entry. -/
def clutStep (s : Clut) : ClutCall → Option Clut
  | .alloc index reqColor =>
    if index < 0 ∨ s.Valid index then (uglCommonClutAlloc s index reqColor).map Prod.fst
    else none
  | .free colors mask =>
    if ∀ color ∈ colors, s.Valid (colorIndex color mask) then
      some (uglCommonClutFree s colors mask).1
    else none

end Vmx.Ugl
