import Vmx.Ugl.ClutNearest

/-!
# The colour cube of a palette

A palette of 216 to 256 colours has a colour cube: for each of 216 colours, a cell records
the used entry to take for it, in `pUglColorArray`, and the colour of the entry, in
`pActualArgbArray`.  `pCubeError` is the error that the cell records.  `uglCubeMap` looks at
all cells when an entry gets a colour, and `uglCubeUnmap` when an entry is no longer used.

The module has these functions, the calls of a palette with its cube (`CubeClut`), what the
cube is for (`CubeRight`), and when a call keeps that (`KeepsCube`).
-/

namespace Vmx.Ugl

open Lib

/-- `UGL_COLOR_CUBE`, with the `pCubeError` of its palette. -/
structure Cube where
  arraySize : Nat
  pArgbArray : Nat → UInt32
  pUglColorArray : Nat → UInt32
  pActualArgbArray : Nat → UInt32
  pCubeError : Nat → UInt32

def UGL_MAKE_ARGB (a r g b : UInt32) : UInt32 := (a <<< 24) ||| (r <<< 16) ||| (g <<< 8) ||| b

def UGL_MAKE_RGB (r g b : UInt32) : UInt32 := UGL_MAKE_ARGB 0xff r g b

/-- The colours of the cells, in the order in which the loops of `uglColorCubeCreate` store
them. -/
def cubeColors (nRed nGreen nBlue : Nat) : List UInt32 :=
  (List.range nRed).flatMap fun i =>
    (List.range nGreen).flatMap fun j =>
      (List.range nBlue).map fun k =>
        UGL_MAKE_RGB (UInt32.ofNat (i * 255 / (nRed - 1))) (UInt32.ofNat (j * 255 / (nGreen - 1)))
          (UInt32.ofNat (k * 255 / (nBlue - 1)))

/-- `uglColorCubeCreate`, when there is memory, and the errors that `uglCommonClutCreate`
sets. -/
def uglColorCubeCreate (nRed nGreen nBlue : Nat) : Cube where
  arraySize := nRed * nGreen * nBlue
  pArgbArray := fun i => (cubeColors nRed nGreen nBlue).getD i 0
  pUglColorArray := fun _ => 0
  pActualArgbArray := fun _ => 0
  pCubeError := fun _ => 0xffffffff

namespace Cube

/-- Store the entry of a cell. -/
def setColor (cube : Cube) (i : Nat) (color : UInt32) : Cube :=
  { cube with pUglColorArray := Function.update cube.pUglColorArray i color }

/-- Store the colour of a cell's entry. -/
def setActual (cube : Cube) (i : Nat) (argb : UInt32) : Cube :=
  { cube with pActualArgbArray := Function.update cube.pActualArgbArray i argb }

/-- Store the error of a cell. -/
def setError (cube : Cube) (i : Nat) (error : UInt32) : Cube :=
  { cube with pCubeError := Function.update cube.pCubeError i error }

end Cube

/-- One round of `uglCubeMap`. -/
def mapCell (cube : Cube) (index : Int) (reqColor : UInt32) (i : Nat) : Cube :=
  if cube.pArgbArray i ≠ cube.pActualArgbArray i then
    let error := errorVal (cube.pArgbArray i) reqColor
    if error ≤ cube.pCubeError i then
      (cube.setActual i reqColor).setColor i (UInt32.ofInt index)
    else cube
  else if cube.pCubeError i ≠ 0 then (cube.setError i 0).setColor i (UInt32.ofInt index)
  else cube

/-- The loop of `uglCubeMap`, for `n` cells from `i` on. -/
def mapCells (cube : Cube) (index : Int) (reqColor : UInt32) (i : Nat) : Nat → Cube
  | 0 => cube
  | n + 1 => mapCells (mapCell cube index reqColor i) index reqColor (i + 1) n

/-- `uglCubeMap`. -/
def uglCubeMap (cube : Cube) (index : Int) (reqColor : UInt32) : Cube :=
  mapCells cube index reqColor 0 cube.arraySize

/-- The first loop of `uglCubeUnmap`: the first of `n` cells from `i` on with the entry. -/
def findCell (cube : Cube) (color : UInt32) (i : Nat) : Nat → Option Nat
  | 0 => none
  | n + 1 => if cube.pUglColorArray i = color then some i else findCell cube color (i + 1) n

/-- The variables of the second loop of `uglCubeUnmap`. -/
structure Best where
  minError : UInt32
  argb : UInt32
  col : UInt32
  deriving DecidableEq

/-- The second loop, for `n` cells from `i` on.  The number `i` of a cell stands in the place
of a colour. -/
def bestCell (cube : Cube) (color : UInt32) (index i : Nat) (best : Best) : Nat → Best
  | 0 => best
  | n + 1 =>
    let best :=
      if cube.pUglColorArray i ≠ color then
        let error := errorVal (cube.pArgbArray index) (UInt32.ofNat i)
        if error ≤ best.minError then
          { minError := error, argb := cube.pActualArgbArray i, col := cube.pUglColorArray i }
        else best
      else best
    bestCell cube color index (i + 1) best n

/-- The third loop, for `n` cells from `i` on. -/
def replaceCells (cube : Cube) (color : UInt32) (best : Best) (i : Nat) : Nat → Cube
  | 0 => cube
  | n + 1 =>
    let cube :=
      if cube.pUglColorArray i = color then
        ((cube.setActual i best.argb).setColor i best.col).setError i best.minError
      else cube
    replaceCells cube color best (i + 1) n

/-- The loop for a palette without a free entry, in which `index` is 0 in every round. -/
def clearCells (cube : Cube) (index : Nat) : Nat → Cube
  | 0 => cube
  | n + 1 =>
    clearCells (((cube.setActual index 0).setColor index 0).setError index 0xffffffff) index n

/-- `uglCubeUnmap`. -/
def uglCubeUnmap (clut : Clut) (cube : Cube) (color : UInt32) : Cube :=
  if clut.firstFreeIndex ≠ -1 then
    match findCell cube color 0 cube.arraySize with
    | some index =>
      let best := bestCell cube color index 0 { minError := 0xffffffff, argb := 0, col := 0 }
        cube.arraySize
      replaceCells cube color best 0 cube.arraySize
    | none => cube
  else clearCells cube 0 cube.arraySize

/-- A palette with its colour cube. -/
structure CubeClut where
  clut : Clut
  cube : Cube

/-- `uglCommonClutCreate` for 216 to 256 colours, when there is memory. -/
def cubeClutCreate (numColors : Int) : CubeClut where
  clut := uglCommonClutCreate numColors
  cube := uglColorCubeCreate 6 6 6

/-- `uglCommonClutAlloc` of a palette with a cube: the cube is mapped where a colour is
allocated. -/
def cubeClutAlloc (s : CubeClut) (index : Int) (reqColor : UInt32) :
    Option (CubeClut × Allocated) :=
  (uglCommonClutAlloc s.clut index reqColor).map fun r =>
    ({ clut := r.1
       cube :=
        if r.2.allocated then uglCubeMap s.cube r.2.index (reqColor ||| 0xff000000)
        else s.cube }, r.2)

/-- One round of `uglCommonClutFree` of a palette with a cube: the cube is unmapped where an
entry loses its last user. -/
def cubeFreeColor (s : CubeClut) (index : Int) : CubeClut × Bool :=
  let r := freeColor s.clut index
  let count := (s.clut.clut index).useCount
  ({ clut := r.1
     cube :=
      if count ≠ 0 ∧ int32 (count - 1) = 0 then uglCubeUnmap r.1 s.cube (UInt32.ofInt index)
      else s.cube }, r.2)

/-- `uglCommonClutFree` of a palette with a cube. -/
def cubeClutFree (s : CubeClut) (colors : List UInt32) (mask : UInt32) : CubeClut × Bool :=
  match colors with
  | [] => (s, true)
  | color :: colors =>
    let (s, ok) := cubeFreeColor s (colorIndex color mask)
    let (s, oks) := cubeClutFree s colors mask
    (s, ok && oks)

/-- The calls of `clutStep` on a palette with a cube. -/
def cubeStep (s : CubeClut) : ClutCall → Option CubeClut
  | .alloc index reqColor =>
    if index < 0 ∨ s.clut.Valid index then (cubeClutAlloc s index reqColor).map Prod.fst else none
  | .free colors mask =>
    if ∀ color ∈ colors, s.clut.Valid (colorIndex color mask) then
      some (cubeClutFree s colors mask).1
    else none

/-! ## What the cube is for -/

/-- An entry that is used. -/
def InUse (s : Clut) (i : Int) : Prop := s.Valid i ∧ 0 < (s.clut i).useCount

instance (s : Clut) (i : Int) : Decidable (InUse s i) := inferInstanceAs (Decidable (_ ∧ _))

/-- The entry of a cell. -/
def Cube.entry (cube : Cube) (k : Nat) : Int := (cube.pUglColorArray k).toNat

/-- A cell refers to a used entry and records its colour, and no used entry is nearer to the
cell's colour. -/
structure CellRight (clut : Clut) (cube : Cube) (k : Nat) : Prop where
  inUse : InUse clut (cube.entry k)
  actual : cube.pActualArgbArray k = (clut.clut (cube.entry k)).color
  nearest : ∀ j, InUse clut j →
    sqDist (cube.pArgbArray k) (cube.pActualArgbArray k) ≤
      sqDist (cube.pArgbArray k) (clut.clut j).color

/-- When an entry is used, every cell is right. -/
def CubeRight (s : CubeClut) : Prop :=
  (∃ i, InUse s.clut i) → ∀ k < s.cube.arraySize, CellRight s.clut s.cube k

/-- The test of `uglCubeMap` gives the cell to an entry with the colour. -/
def Cube.Takes (cube : Cube) (c : UInt32) (k : Nat) : Prop :=
  cube.pArgbArray k ≠ cube.pActualArgbArray k ∧
    errorVal (cube.pArgbArray k) c ≤ cube.pCubeError k

instance (cube : Cube) (c : UInt32) (k : Nat) : Decidable (cube.Takes c k) :=
  inferInstanceAs (Decidable (_ ∧ _))

/-- The test of `uglCubeMap` is right about a cell when entry `i` gets colour `c`: a cell that
is given to the entry has no other used entry nearer, and one that is not keeps a colour at
least as near, which is `c` when the entry of the cell becomes, or is, `i`. -/
def MapsCell (s : CubeClut) (i : Int) (c : UInt32) (k : Nat) : Prop :=
  if s.cube.Takes c k then
    ∀ j, InUse s.clut j → j ≠ i →
      sqDist (s.cube.pArgbArray k) c ≤ sqDist (s.cube.pArgbArray k) (s.clut.clut j).color
  else
    sqDist (s.cube.pArgbArray k) (s.cube.pActualArgbArray k) ≤ sqDist (s.cube.pArgbArray k) c ∧
      (s.cube.entry k = i ∨
        s.cube.pArgbArray k = s.cube.pActualArgbArray k ∧ s.cube.pCubeError k ≠ 0 →
        s.cube.pActualArgbArray k = c)

/-- The cell whose entry `uglCubeUnmap` takes for the cells of a freed one: among the cells of
other entries the last of those whose numbers, read as colours, are nearest to the first cell
of the freed entry. -/
def Cube.replacement (cube : Cube) (color : UInt32) : Option Nat :=
  (findCell cube color 0 cube.arraySize).bind fun index =>
    ((List.range cube.arraySize).filter fun i => cube.pUglColorArray i ≠ color).reverse.argmin
      fun i => (errorVal (cube.pArgbArray index) (UInt32.ofNat i)).toNat

/-- The replacement is right about a cell of a freed entry: no other used entry is nearer than
the colour of the cell that replaces it. -/
def ReplacesCell (s : CubeClut) (i : Int) (k : Nat) : Prop :=
  ∃ r ∈ s.cube.replacement (UInt32.ofInt i), ∀ j, InUse s.clut j → j ≠ i →
    sqDist (s.cube.pArgbArray k) (s.cube.pActualArgbArray r) ≤
      sqDist (s.cube.pArgbArray k) (s.clut.clut j).color

/-- The entry that an allocation gives the colour, if it does. -/
def mappedEntry (s : Clut) (index : Int) (c : UInt32) : Option Int :=
  if index < 0 then
    if (∃ i : Nat, i < s.numColors.toNat ∧ InUse s i ∧ (s.clut i).color = c) ∨
        s.firstFreeIndex = -1 then
      none
    else some s.firstFreeIndex
  else some index

/-- Each time an entry loses its last user while others are used, the replacement is right
about its cells. -/
def FreesKeep (s : CubeClut) (mask : UInt32) : List UInt32 → Prop
  | [] => True
  | color :: colors =>
    ((s.clut.clut (colorIndex color mask)).useCount = 1 →
      (∃ j, InUse s.clut j ∧ j ≠ colorIndex color mask) →
      ∀ k < s.cube.arraySize, s.cube.entry k = colorIndex color mask →
        ReplacesCell s (colorIndex color mask) k) ∧
      FreesKeep (cubeFreeColor s (colorIndex color mask)).1 mask colors

/-- A call takes the first free entry, and the cube's tests are right about every cell. -/
def KeepsCube (s : CubeClut) (call : ClutCall) : Prop :=
  TakesFirst s.clut call ∧
    match call with
    | .alloc index reqColor =>
      ∀ i ∈ mappedEntry s.clut index (reqColor ||| 0xff000000), ∀ k < s.cube.arraySize,
        MapsCell s i (reqColor ||| 0xff000000) k
    | .free colors mask => FreesKeep s mask colors

end Vmx.Ugl
