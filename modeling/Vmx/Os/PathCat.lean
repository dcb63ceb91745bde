import Vmx.Os.PathCondense

/-!
# `pathCat`: a directory and a file name

`pathCat` copies the parts of a path one behind the other.  The bound of each copy is that of what
it copies and not of the space that is left, so that the path can become longer than `PATH_MAX`.
`pathCat_eq` says what it makes of names that fit, and `plain_eq_joined_iff` when that is the
directory, one separator and the file name.
-/

namespace Vmx.Path

/-- `strncat`. -/
def strncat (s t : List Char) (n : Nat) : List Char := s ++ t.take n

/-- A file name that is not relative. -/
def isAbsolute : List Char → Bool
  | [] => false
  | c :: _ => ['/', '\\', '~', '$'].contains c

/-- The characters that `pathCat` takes for the device of a directory. -/
def deviceLen (iosDevList : List (List Char)) (dirname : List Char) : Nat :=
  if dirname.head? ≠ some '/' then iosDevFind iosDevList dirname else 0

/-- What `pathCat` writes when both names are given and the file name has no device. -/
def catNames (iosDevList : List (List Char)) (dirname filename : List Char) : List Char :=
  let result := dirname.take (deviceLen iosDevList dirname)
  let dirname := dirname.drop (deviceLen iosDevList dirname)
  let result :=
    if ¬ isAbsolute filename ∧ dirname ≠ [] then
      let result := strncat result dirname PATH_MAX
      if dirname.getLast? ≠ some '/' then strncat result ['/'] PATH_MAX else result
    else result
  strncat result filename PATH_MAX

/-- `pathCat`, with its status and the string at `result`.  A `NULL` is `none`, and the result is
`none` when a `NULL` is copied. -/
def pathCat (iosDevList : List (List Char)) (dirname filename : Option (List Char)) :
    Option (Int × List Char) :=
  match filename with
  | none | some [] => dirname.map fun dirname => (OK, dirname)
  | some (f :: fs) =>
    match dirname with
    | none | some [] => some (OK, f :: fs)
    | some (d :: ds) =>
      if iosDevFind iosDevList (f :: fs) ≠ 0 then some (OK, f :: fs)
      else some (OK, catNames iosDevList (d :: ds) (f :: fs))

/-- The separator that a directory lacks. -/
def missingSep (dirname : List Char) : List Char :=
  if (dirname.getLast?.map isSep).getD false then [] else ['/']

/-- The path that a directory and a file name are to make. -/
def joined (iosDevList : List (List Char)) (dirname filename : List Char) : List Char :=
  if iosDevFind iosDevList filename ≠ 0 then filename
  else if isAbsolute filename then dirname.take (iosDevFind iosDevList dirname) ++ filename
  else dirname ++ missingSep dirname ++ filename

/-- `pathCat` stays within `PATH_MAX`, and it fails or makes the path. -/
def Concatenates (iosDevList : List (List Char)) (dirname filename : List Char) : Prop :=
  ∃ status result, pathCat iosDevList (some dirname) (some filename) = some (status, result) ∧
    result.length ≤ PATH_MAX ∧ (status = ERROR ∨ result = joined iosDevList dirname filename)

/-- The directory is empty or only a device, or the file name is empty. -/
def Alone (iosDevList : List (List Char)) (dirname filename : List Char) : Prop :=
  filename = [] ∨ dirname.drop (deviceLen iosDevList dirname) = []

instance (iosDevList : List (List Char)) (dirname filename : List Char) :
    Decidable (Alone iosDevList dirname filename) :=
  inferInstanceAs (Decidable (filename = [] ∨ _))

/-- `pathCat` takes the right parts.  It leaves out the device of a directory that begins with a
slash, it does not know a backslash for a separator, and it adds none to a name that stands alone.
-/
def Joins (iosDevList : List (List Char)) (dirname filename : List Char) : Prop :=
  if iosDevFind iosDevList filename ≠ 0 then True
  else if isAbsolute filename then
    dirname.head? ≠ some '/' ∨ iosDevFind iosDevList dirname = 0
  else
    dirname.getLast? = some '/' ∨
      (dirname.getLast? = some '\\' ↔ Alone iosDevList dirname filename)

section

variable {iosDevList : List (List Char)} {dirname filename : List Char}

theorem strncat_eq {t : List Char} {n : Nat} (h : t.length ≤ n) (s : List Char) :
    strncat s t n = s ++ t := by
  rw [strncat, List.take_of_length_le h]

theorem iosDevFind_nil (iosDevList : List (List Char)) : iosDevFind iosDevList [] = 0 :=
  Nat.le_zero.1 (iosDevFind_le_length iosDevList [])

/-- What comes behind a device ends as the whole name does. -/
theorem getLast?_drop {s : List Char} {n : Nat} (h : s.drop n ≠ []) :
    (s.drop n).getLast? = s.getLast? := by
  rw [List.getLast?_drop, if_neg]
  intro hle
  exact h (List.drop_of_length_le hle)

/-- The separator that `pathCat` adds. -/
def addedSep (iosDevList : List (List Char)) (dirname filename : List Char) : List Char :=
  if filename ≠ [] ∧ dirname.drop (deviceLen iosDevList dirname) ≠ [] ∧ dirname.getLast? ≠ some '/'
  then ['/'] else []

/-- The path that `pathCat` makes when nothing is cut. -/
def plain (iosDevList : List (List Char)) (dirname filename : List Char) : List Char :=
  if iosDevFind iosDevList filename ≠ 0 then filename
  else if isAbsolute filename then dirname.take (deviceLen iosDevList dirname) ++ filename
  else dirname ++ addedSep iosDevList dirname filename ++ filename

/-- Both paths are the one of `joined` as soon as the names are within the bound. -/
theorem catNames_eq (hfilename : filename ≠ []) (hdev : iosDevFind iosDevList filename = 0)
    (hfile : filename.length ≤ PATH_MAX)
    (hdir : isAbsolute filename = false → dirname.length ≤ PATH_MAX) :
    catNames iosDevList dirname filename = plain iosDevList dirname filename := by
  rw [catNames, plain, if_neg (not_not_intro hdev)]
  dsimp only
  rw [strncat_eq hfile]
  cases habs : isAbsolute filename with
  | true =>
    rw [if_neg (by simp), if_pos rfl]
  | false =>
    rw [if_neg Bool.false_ne_true]
    by_cases hrest : dirname.drop (deviceLen iosDevList dirname) = []
    · have hall := List.take_append_drop (deviceLen iosDevList dirname) dirname
      rw [hrest, List.append_nil] at hall
      rw [if_neg (by simp [hrest]), addedSep, if_neg (by simp [hrest]), hall, List.append_nil]
    · have hcut : (dirname.drop (deviceLen iosDevList dirname)).length ≤ PATH_MAX := by
        rw [List.length_drop]
        have := hdir habs
        omega
      rw [if_pos ⟨Bool.false_ne_true, hrest⟩, strncat_eq hcut, List.take_append_drop,
        getLast?_drop hrest, addedSep]
      by_cases hslash : dirname.getLast? = some '/'
      · rw [if_neg (not_not_intro hslash), if_neg (fun h => h.2.2 hslash), List.append_nil]
      · rw [if_pos hslash, if_pos ⟨hfilename, hrest, hslash⟩]
        rfl

/-- The paths that fit are made as they stand. -/
theorem pathCat_eq (hfits : (joined iosDevList dirname filename).length ≤ PATH_MAX) :
    pathCat iosDevList (some dirname) (some filename) =
      some (OK, plain iosDevList dirname filename) := by
  cases filename with
  | nil =>
    have hplain : plain iosDevList dirname [] = dirname := by
      have hrelative : ¬ isAbsolute [] = true := Bool.false_ne_true
      rw [plain, if_neg (not_not_intro (iosDevFind_nil iosDevList)), if_neg hrelative, addedSep,
        if_neg (fun h => h.1 rfl), List.append_nil, List.append_nil]
    rw [hplain]
    rfl
  | cons f fs =>
    by_cases hdev : iosDevFind iosDevList (f :: fs) = 0
    · cases dirname with
      | nil =>
        have hplain : plain iosDevList [] (f :: fs) = f :: fs := by
          have hadded : addedSep iosDevList [] (f :: fs) = [] :=
            if_neg (fun h => h.2.1 List.drop_nil)
          rw [plain, if_neg (not_not_intro hdev), hadded, List.take_nil]
          exact ite_self _
        rw [hplain]
        rfl
      | cons d ds =>
        rw [joined, if_neg (not_not_intro hdev)] at hfits
        have hfile : (f :: fs).length ≤ PATH_MAX := by
          split at hfits <;> simp only [List.length_append] at hfits <;> omega
        have hdir : isAbsolute (f :: fs) = false → (d :: ds).length ≤ PATH_MAX := by
          intro habs
          rw [habs, if_neg Bool.false_ne_true] at hfits
          simp only [List.length_append] at hfits
          omega
        rw [← catNames_eq (List.cons_ne_nil f fs) hdev hfile hdir]
        exact if_neg (not_not_intro hdev)
    · rw [plain, if_pos hdev]
      cases dirname with
      | nil => rfl
      | cons d ds => exact if_pos hdev

theorem missingSep_eq (dirname : List Char) :
    missingSep dirname =
      if dirname.getLast? = some '/' ∨ dirname.getLast? = some '\\' then [] else ['/'] := by
  rw [missingSep]
  cases dirname.getLast? with
  | none => rfl
  | some c =>
    simp only [Option.map_some, Option.getD_some, isSep, Bool.or_eq_true, beq_iff_eq,
      Option.some.injEq]

theorem addedSep_eq (iosDevList : List (List Char)) (dirname filename : List Char) :
    addedSep iosDevList dirname filename =
      if dirname.getLast? = some '/' ∨ Alone iosDevList dirname filename then [] else ['/'] := by
  rw [addedSep, ← ite_not]
  refine if_congr ?_ rfl rfl
  rw [Alone]
  tauto

/-- The separator is the one that lacks. -/
theorem addedSep_eq_missingSep_iff :
    addedSep iosDevList dirname filename = missingSep dirname ↔
      dirname.getLast? = some '/' ∨
        (dirname.getLast? = some '\\' ↔ Alone iosDevList dirname filename) := by
  rw [addedSep_eq, missingSep_eq]
  by_cases hslash : dirname.getLast? = some '/'
  · rw [if_pos (Or.inl hslash), if_pos (Or.inl hslash)]
    exact iff_of_true rfl (Or.inl hslash)
  · simp only [hslash, false_or]
    by_cases halone : Alone iosDevList dirname filename
    · by_cases hback : dirname.getLast? = some '\\'
      · simp only [halone, hback, if_true]
      · simp [halone, hback]
    · by_cases hback : dirname.getLast? = some '\\'
      · simp [halone, hback]
      · simp only [halone, hback, if_false]

/-- The device of the directory is the one that `pathCat` looks for. -/
theorem take_deviceLen_iff :
    dirname.take (deviceLen iosDevList dirname) = dirname.take (iosDevFind iosDevList dirname) ↔
      dirname.head? ≠ some '/' ∨ iosDevFind iosDevList dirname = 0 := by
  have hle := iosDevFind_le_length iosDevList dirname
  rw [deviceLen]
  split_ifs with hslash
  · exact iff_of_true rfl (Or.inl hslash)
  · constructor
    · intro htake
      have hlen := congrArg List.length htake
      rw [List.length_take, List.length_take] at hlen
      right
      omega
    · intro h
      rw [h.resolve_left hslash]

theorem plain_eq_joined_iff :
    plain iosDevList dirname filename = joined iosDevList dirname filename ↔
      Joins iosDevList dirname filename := by
  rw [plain, joined, Joins]
  split_ifs
  · exact iff_of_true rfl trivial
  · rw [List.append_cancel_right_eq, take_deviceLen_iff]
  · rw [List.append_cancel_right_eq, List.append_cancel_left_eq, addedSep_eq_missingSep_iff]

/-- `pathCat` never fails. -/
theorem pathCat_status {status : Int} {result : List Char}
    (h : pathCat iosDevList (some dirname) (some filename) = some (status, result)) :
    status = OK := by
  have hok : (pathCat iosDevList (some dirname) (some filename)).map Prod.fst = some OK := by
    cases filename with
    | nil => rfl
    | cons f fs =>
      cases dirname with
      | nil => rfl
      | cons d ds =>
        rw [pathCat]
        split <;> rfl
  rw [h] at hok
  exact Option.some.inj hok

theorem Concatenates.fits (h : Concatenates iosDevList dirname filename) :
    (joined iosDevList dirname filename).length ≤ PATH_MAX := by
  obtain ⟨status, result, heq, hlen, hres⟩ := h
  rcases hres with herror | hjoined
  · rw [pathCat_status heq] at herror
    exact absurd herror (by decide)
  · rwa [← hjoined]

end

/-- `pathCat` does what it is for when the path is within the bound and of the right parts. -/
theorem concatenates_iff (iosDevList : List (List Char)) (dirname filename : List Char) :
    Concatenates iosDevList dirname filename ↔
      (joined iosDevList dirname filename).length ≤ PATH_MAX ∧
        Joins iosDevList dirname filename := by
  rw [← plain_eq_joined_iff]
  constructor
  · intro h
    have hfits := h.fits
    obtain ⟨status, result, heq, _, hres⟩ := h
    rw [pathCat_eq hfits, Option.some.injEq, Prod.mk.injEq] at heq
    refine ⟨hfits, ?_⟩
    rw [heq.2]
    refine hres.resolve_left ?_
    rw [← heq.1]
    decide
  · intro h
    refine ⟨OK, plain iosDevList dirname filename, pathCat_eq h.1, ?_, Or.inr h.2⟩
    rw [h.2]
    exact h.1

/-- A directory name of `PATH_MAX` characters leaves no space for a file name. -/
theorem not_concatenates :
    ¬ ∀ (iosDevList : List (List Char)) (dirname filename : List Char),
      Concatenates iosDevList dirname filename := by
  intro h
  have hfits := (h [] (List.replicate PATH_MAX 'a') ['b']).fits
  have hjoined : joined [] (List.replicate PATH_MAX 'a') ['b'] =
      List.replicate PATH_MAX 'a' ++ missingSep (List.replicate PATH_MAX 'a') ++ ['b'] := rfl
  rw [hjoined, List.length_append, List.length_append, List.length_replicate] at hfits
  simp only [List.length_singleton] at hfits
  omega

end Vmx.Path
