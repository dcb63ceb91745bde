import Mathlib.Tactic.Common

/-!
# The Gregorian calendar

A date is a year, a month from 0 and a day from 1.  `dateAt n` is the date `n` days after the
first of January 1970, one step of the calendar for each day, and `dateAt_eq` finds it from the
days in the years, and in the months of its year, that are over.
-/

namespace Vmx.Lib

/-- A year with 366 days. -/
def Leap (year : Int) : Prop := year % 4 = 0 ∧ (year % 100 ≠ 0 ∨ year % 400 = 0)

instance : DecidablePred Leap := fun year =>
  inferInstanceAs (Decidable (year % 4 = 0 ∧ (year % 100 ≠ 0 ∨ year % 400 = 0)))

/-- The days of a month. -/
def monthLength (year : Int) : Nat → Nat
  | 1 => if Leap year then 29 else 28
  | 3 => 30
  | 5 => 30
  | 8 => 30
  | 10 => 30
  | _ => 31

structure Date where
  year : Int
  month : Nat
  day : Nat
  deriving DecidableEq

/-- The next day. -/
def Date.next (d : Date) : Date :=
  if d.day < monthLength d.year d.month then { d with day := d.day + 1 }
  else if d.month < 11 then { d with month := d.month + 1, day := 1 }
  else { year := d.year + 1, month := 0, day := 1 }

/-- The date `n` days after the first of January 1970. -/
def dateAt : Nat → Date
  | 0 => { year := 1970, month := 0, day := 1 }
  | n + 1 => (dateAt n).next

/-- The days of a year before a month. -/
def daysBefore (year : Int) : Nat → Nat
  | 0 => 0
  | month + 1 => daysBefore year month + monthLength year month

def yearLength (year : Int) : Nat := daysBefore year 12

/-- The day of the year, from 0. -/
def Date.yday (d : Date) : Nat := daysBefore d.year d.month + d.day - 1

/-- The days from 1970 to the year `1970 + k`. -/
def yearStart : Nat → Nat
  | 0 => 0
  | k + 1 => yearStart k + yearLength (1970 + k)

variable {year : Int} {month : Nat}

theorem monthLength_pos (year : Int) (month : Nat) : 0 < monthLength year month := by
  unfold monthLength
  split
  case h_1 => split <;> omega
  all_goals omega

theorem daysBefore_mono (year : Int) {m n : Nat} (h : m ≤ n) :
    daysBefore year m ≤ daysBefore year n := by
  induction h with
  | refl => exact Nat.le_refl _
  | step _ ih => exact Nat.le_trans ih (Nat.le_add_right _ _)

/-- The months with the days of a year without a leap day before each of them. -/
theorem daysBefore_eq (hmonth : month < 12) :
    daysBefore year month =
      [0, 31, 59, 90, 120, 151, 181, 212, 243, 273, 304, 334].getD month 0 +
        if Leap year ∧ 1 < month then 1 else 0 := by
  by_cases hleap : Leap year
  · match month, hmonth with
    | 0, _ | 1, _ | 2, _ | 3, _ | 4, _ | 5, _ | 6, _ | 7, _ | 8, _ | 9, _ | 10, _ | 11, _ =>
      simp [daysBefore, monthLength, hleap]
  · match month, hmonth with
    | 0, _ | 1, _ | 2, _ | 3, _ | 4, _ | 5, _ | 6, _ | 7, _ | 8, _ | 9, _ | 10, _ | 11, _ =>
      simp [daysBefore, monthLength, hleap]

theorem yearLength_eq (year : Int) : yearLength year = 365 + if Leap year then 1 else 0 := by
  rw [yearLength, daysBefore, daysBefore_eq (by omega)]
  by_cases hleap : Leap year
  · simp [monthLength, hleap]
  · simp [monthLength, hleap]

/-- The last day of a month is followed by the first of the next one. -/
theorem Date.next_last (hmonth : month < 11) :
    Date.next { year := year, month := month, day := monthLength year month } =
      { year := year, month := month + 1, day := 1 } := by
  simp [Date.next, hmonth]

theorem Date.next_lastMonth (year : Int) :
    Date.next { year := year, month := 11, day := 31 } =
      { year := year + 1, month := 0, day := 1 } := by
  simp [Date.next, monthLength]

theorem dateAt_eq {n k j : Nat} (hmonth : month < 12) (hj : j < monthLength (1970 + k) month)
    (hn : n = yearStart k + daysBefore (1970 + k) month + j) :
    dateAt n = { year := 1970 + k, month := month, day := j + 1 } := by
  induction n generalizing k month j with
  | zero =>
    have hpos : 0 < month → 0 < daysBefore (1970 + k) month := fun h =>
      Nat.lt_of_lt_of_le (monthLength_pos (1970 + k) 0)
        (Nat.le_trans (Nat.le_add_left _ _) (daysBefore_mono (1970 + k) h))
    have hyear : 0 < k → 0 < yearStart k := by
      intro h
      obtain ⟨k, rfl⟩ : ∃ i, k = i + 1 := ⟨k - 1, by omega⟩
      rw [yearStart, yearLength_eq]
      omega
    obtain ⟨hk, hm, hj'⟩ : k = 0 ∧ month = 0 ∧ j = 0 := by omega
    rw [hk, hm, hj']
    rfl
  | succ n ih =>
    rw [dateAt]
    cases j with
    | succ j =>
      rw [ih hmonth (Nat.lt_of_succ_lt hj) (by omega)]
      simp only [Date.next]
      rw [if_pos hj]
    | zero =>
      cases month with
      | succ month =>
        have hpos := monthLength_pos (1970 + k) month
        rw [daysBefore] at hn
        rw [@ih month k (monthLength (1970 + k) month - 1) (by omega) (by omega) (by omega),
          Nat.sub_add_cancel hpos]
        exact Date.next_last (by omega)
      | zero =>
        cases k with
        | zero => simp [yearStart, daysBefore] at hn
        | succ k =>
          have hlast : monthLength (1970 + (k : Int)) 11 = 31 := rfl
          have hlength : yearLength (1970 + k) = daysBefore (1970 + k) 11 + 31 := rfl
          have hzero : daysBefore (1970 + ((k + 1 : Nat) : Int)) 0 = 0 := rfl
          have hyear : (1970 : Int) + (k : Int) + 1 = 1970 + ((k + 1 : Nat) : Int) := by omega
          rw [yearStart] at hn
          rw [@ih 11 k 30 (by omega) (by omega) (by omega), Date.next_lastMonth, hyear]

/-- A day that its month has. -/
structure Date.Valid (d : Date) : Prop where
  month : d.month < 12
  pos : 0 < d.day
  day : d.day ≤ monthLength d.year d.month

theorem Date.Valid.next {d : Date} (h : d.Valid) : d.next.Valid := by
  unfold Date.next
  split
  · next hday => exact ⟨h.month, Nat.succ_pos _, hday⟩
  · split
    · next hmonth => exact ⟨Nat.succ_lt_succ hmonth, Nat.one_pos, monthLength_pos _ _⟩
    · exact ⟨by simp, Nat.one_pos, monthLength_pos _ _⟩

theorem dateAt_valid (n : Nat) : (dateAt n).Valid := by
  induction n with
  | zero => exact ⟨by decide, by decide, by decide⟩
  | succ n ih => exact ih.next

theorem Date.Valid.yday_lt {d : Date} (h : d.Valid) : d.yday < yearLength d.year := by
  have hpos := h.pos
  have hday := h.day
  have hnext : daysBefore d.year (d.month + 1) ≤ yearLength d.year := daysBefore_mono _ h.month
  rw [daysBefore] at hnext
  rw [Date.yday]
  omega

end Vmx.Lib
