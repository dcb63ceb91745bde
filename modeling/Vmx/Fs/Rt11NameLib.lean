import Vmx.Fs.Rt11Lib
import Mathlib.Data.List.DropRight

/-!
# `rt11fsLib`, `rt11VopReaddir`: radix-50 names

A name on the disk is three words of three characters each, and `rad50` lists the characters.
The words have 16 bits, while `rt11fsR50out` counts in base 50: from 65536 on the number does
not fit.

A string is the list of its characters before `EOS`.  What is read from behind the table of
characters, or looked up in it and not found, is not defined by the source, and `none` here.
-/

namespace Vmx.Rt11

def EOS : Char := '\x00'

def RT11FS_NAME_LEN : Nat := 11

def rad50 : List Char :=
  [' ', 'a', 'b', 'c', 'd', 'e', 'f', 'g', 'h', 'i', 'j', 'k', 'l', 'm', 'n', 'o', 'p', 'q', 'r',
    's', 't', 'u', 'v', 'w', 'x', 'y', 'z', '$', '.', '\xff', '0', '1', '2', '3', '4', '5', '6',
    '7', '8', '9']

/-- The characters of a buffer up to `EOS`. -/
def cString (buf : List Char) : List Char := buf.takeWhile (· ≠ EOS)

/-- The loop of `rt11fsR50out`, with the number of turns that are left. -/
def r50outLoop : Nat → List Char → Nat → Option Nat
  | 0, _, r50 => some r50
  | n + 1, [], r50 => r50outLoop n [] (50 * r50 + 0)
  | n + 1, ch :: string, r50 =>
    match rad50.idxOf? ch.toLower with
    | none => none
    | some r => r50outLoop n string (50 * r50 + r)

/-- `rt11fsR50out`. -/
def rt11fsR50out (string : List Char) : Option Nat := r50outLoop 3 string 0

/-- The numbers are stored, each cut to its word. -/
def storeName : Option Nat → Option Nat → Option Nat → Option Name
  | some name1, some name2, some type =>
    some { nm_name1 := .ofNat name1, nm_name2 := .ofNat name2, nm_type := .ofNat type }
  | _, _, _ => none

/-- `rt11fsNameR50`. -/
def rt11fsNameR50 (string : List Char) : Option Name :=
  let tmp := string.take (RT11FS_NAME_LEN - 1)
  let cp := tmp.dropWhile (· ≠ '.')
  let nm_type := if cp = [] then some 0 else rt11fsR50out (cp.drop 1)
  let tmp := tmp.takeWhile (· ≠ '.')
  let nm_name2 := if tmp.length ≤ 3 then some 0 else rt11fsR50out (tmp.drop 3)
  storeName (rt11fsR50out tmp) nm_name2 nm_type

/-- An element of the array `rad50`, whose last one is `EOS`. -/
def rad50At (i : Nat) : Option Char := (rad50 ++ [EOS])[i]?

/-- `rt11fsR50in`: the three characters. -/
def rt11fsR50in (r50 : Nat) : Option (List Char) :=
  match rad50At (r50 / 50 / 50 % 50), rad50At (r50 / 50 % 50), rad50At (r50 % 50) with
  | some a, some b, some c => some [a, b, c]
  | _, _, _ => none

/-- `rt11fsNameString`: the type overwrites the name from its first blank on. -/
def rt11fsNameString (name : Name) : Option (List Char) :=
  match rt11fsR50in name.nm_name1.toNat, rt11fsR50in name.nm_name2.toNat,
      rt11fsR50in name.nm_type.toNat with
  | some name1, some name2, some type =>
    some (cString ((name1 ++ name2).takeWhile (· ≠ ' ') ++ '.' :: type ++ [EOS]))
  | _, _, _ => none

/-! ## `rt11VopReaddir` -/

/-- The loop of `rt11VopReaddir` that is to cancel blanks and dots at the end, over the buffer
from `pc` on; `pc` goes forward. -/
def cancelLoop : List Char → List Char
  | [] => []
  | c :: buf => if c = ' ' ∨ c = '.' then EOS :: cancelLoop buf else c :: buf

/-- What `rt11VopReaddir` makes of the name. -/
def cancelSpaces (d_name : List Char) : List Char :=
  let len := d_name.length
  let buf := d_name ++ [EOS]
  if len > 0 then cString (buf.take (len - 1) ++ cancelLoop (buf.drop (len - 1))) else d_name

/-- The loop of `rt11VopReaddir` over empty entries, with the number of entries that are left. -/
def readdirLoop (ds_entries : Nat → DirEntry) : Nat → Nat → Option Nat
  | 0, _ => none
  | left + 1, entryNum =>
    if (ds_entries entryNum).de_status = DES_END then none
    else if (ds_entries entryNum).de_status = DES_EMPTY then
      readdirLoop ds_entries left (entryNum + 1)
    else some entryNum

/-- `rt11VopReaddir` from an entry on: the entry, whose successor becomes `d_ino`, and its name. -/
def rt11VopReaddir (pDirSeg : DirSeg) (rdd_maxEntries entryNum : Nat) :
    Option (Nat × Option (List Char)) :=
  (readdirLoop pDirSeg.ds_entries (rdd_maxEntries - entryNum) entryNum).map fun entryNum =>
    (entryNum, (rt11fsNameString (pDirSeg.ds_entries entryNum).de_name).map cancelSpaces)

/-- `rt11fsFindDirEntry` with the name as a string. -/
def findDirEntryByString (fuel : Nat) (pDirSeg : DirSeg) (name : List Char) :
    Option (Option (Nat × DirEntry × Int)) :=
  match rt11fsNameR50 (name.dropWhile fun c => c = '/' ∨ c = '\\') with
  | none => none
  | some rname => rt11fsFindDirEntry fuel pDirSeg rname

end Vmx.Rt11
