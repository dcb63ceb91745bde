import Vmx.Libc.LocalTime

/-!
# `mktime` takes the wrong day of the week

`getTime` counts the days of the week from the day of the week of the epoch and `mktime` from its
year.  `mktime_wday` and `getTime_wday` say so of every call, and by them `mktime` neither leaves
the fields of a local time as they are nor sets them to those of the instant it returns
(`mktime_wrong`).
-/

namespace Vmx.Time

open Lib

/-- The days from 1970 to a year of the calendar, which may be an earlier one. -/
def daysToYear (year : Int) : Int :=
  365 * (year - 1970) + ((year - 1) / 4 - (year - 1) / 100 + (year - 1) / 400 - 477)

/-- The days from 1970 to a date whose month may be any number, and its day as well. -/
def daysToDate (year mon mday : Int) : Int :=
  daysToYear (year + mon / 12) + daysBefore (year + mon / 12) (mon % 12).toNat + mday - 1

/-- The instant that the fields of a local time say. -/
def Tm.instant (tm : Tm) (zone : Int) : Int :=
  86400 * daysToDate (tm.tm_year + TM_YEAR_BASE) tm.tm_mon tm.tm_mday + 3600 * tm.tm_hour +
    60 * tm.tm_min + tm.tm_sec + 60 * zone

/-- `mktime` is the way back from the local time of `t`. -/
structure Inverts (beyond : Int → Int) (zone t : Int) (timeBuffer : Tm) : Prop where
  time : (mktime beyond zone (localtime_r beyond zone t timeBuffer)).timeIs = t
  fields : (mktime beyond zone (localtime_r beyond zone t timeBuffer)).tm =
    localtime_r beyond zone t timeBuffer

/-- `mktime` returns the instant of `tm` and sets the fields to its local time. -/
structure Normalises (beyond : Int → Int) (zone : Int) (tm timeBuffer : Tm) : Prop where
  time : (mktime beyond zone tm).timeIs = tm.instant zone
  fields : (mktime beyond zone tm).tm = localtime_r beyond zone (tm.instant zone) timeBuffer
  reads : ∀ mon ∈ (mktime beyond zone tm).reads, 0 ≤ mon ∧ mon < 12

variable {beyond : Int → Int}

theorem julday_add (yr mon day : Int) : julday beyond yr mon day = julday beyond yr mon 0 + day := by
  simp only [julday]
  omega

theorem daysSinceEpoch_add (year yday : Int) :
    daysSinceEpoch year yday = daysSinceEpoch year 0 + yday := by
  rw [daysSinceEpoch, daysSinceEpoch]
  split <;> omega

/-- The days since the epoch that the fields say. -/
def Tm.days (tm : Tm) : Int :=
  daysSinceEpoch (tm.tm_year - (EPOCH_YEAR - TM_YEAR_BASE)) tm.tm_yday

theorem brokenDown_days (days timeOfDay : Int) (tmp : Tm) :
    (brokenDown beyond days timeOfDay tmp).days = days := by
  rw [Tm.days]
  generalize hyear : yearLoop days (days.tdiv DAYSPERYEAR) = year
  have htm_year : (brokenDown beyond days timeOfDay tmp).tm_year =
      year + EPOCH_YEAR - TM_YEAR_BASE := by
    rw [← hyear]
    rfl
  have htm_yday : (brokenDown beyond days timeOfDay tmp).tm_yday =
      days - daysSinceEpoch year 0 := by
    rw [← hyear]
    show julday _ _ _ _ - 1 = _
    rw [julday_add]
    omega
  have hback : year + EPOCH_YEAR - TM_YEAR_BASE - (EPOCH_YEAR - TM_YEAR_BASE) = year := by omega
  rw [htm_year, htm_yday, hback, daysSinceEpoch_add]
  omega

theorem brokenDown_wday (days timeOfDay : Int) (tmp : Tm) :
    (brokenDown beyond days timeOfDay tmp).tm_wday = (days + 4) % 7 := by
  have hmod := Int.tmod_eq_emod (a := days + 4) (b := 7)
  show (if (days + 4).tmod 7 < 0 then (days + 4).tmod 7 + 7 else (days + 4).tmod 7) = _
  split_ifs at hmod ⊢ <;> omega

/-- `getTime` counts the days of the week from Thursday. -/
theorem getTime_wday (timer : Int) (tmp : Tm) :
    (getTime beyond timer tmp).tm_wday = ((getTime beyond timer tmp).days + 4) % 7 := by
  unfold getTime
  dsimp only
  split
  · rw [brokenDown_wday, brokenDown_days]
  · rw [brokenDown_wday, brokenDown_days]

/-- `mktime` returns `ERROR` or counts them from 1970. -/
theorem mktime_wday (zone : Int) (pTime : Tm) :
    (mktime beyond zone pTime).timeIs = 2 ^ 64 - 1 ∨
      (mktime beyond zone pTime).tm.tm_wday =
        ((mktime beyond zone pTime).tm.days + 1970).tmod 7 := by
  unfold mktime
  dsimp only
  split
  · exact Or.inl rfl
  · exact Or.inr rfl

/-- What `mktime` returns and leaves is no local time. -/
theorem mktime_ne_localtime {zone t : Int} (pTime timeBuffer : Tm) (ht : t < 2 ^ 64 - 1)
    (htime : (mktime beyond zone pTime).timeIs = t) :
    (mktime beyond zone pTime).tm ≠ localtime_r beyond zone t timeBuffer := by
  intro hfields
  rcases @mktime_wday beyond zone pTime with herror | hmade
  · omega
  · have hlocal : (localtime_r beyond zone t timeBuffer).tm_wday =
        ((localtime_r beyond zone t timeBuffer).days + 4) % 7 :=
      getTime_wday (time_t (t - zone * SECSPERMIN)) timeBuffer
    rw [hfields, hlocal, Int.tmod_eq_emod] at hmade
    split_ifs at hmade <;> omega

/-- `mktime` is the way back from no local time and normalises no broken-down time. -/
theorem mktime_wrong (beyond : Int → Int) (zone : Int) (timeBuffer : Tm) :
    (∀ t : Int, 0 ≤ t → t < 2 ^ 31 → ¬ Inverts beyond zone t timeBuffer) ∧
    ∀ tm : Tm, 0 ≤ tm.instant zone → tm.instant zone < 2 ^ 63 →
      ¬ Normalises beyond zone tm timeBuffer := by
  constructor
  · intro t _ ht h
    exact mktime_ne_localtime _ timeBuffer (by omega) h.time h.fields
  · intro tm _ ht h
    exact mktime_ne_localtime tm timeBuffer (by omega) h.time h.fields

/-- The first of January 1970. -/
def epochTm : Tm :=
  { tm_sec := 0, tm_min := 0, tm_hour := 0, tm_mday := 1, tm_mon := 0, tm_year := 70,
    tm_wday := 4, tm_yday := 0, tm_isdst := 0 }

theorem mktime_wrong_epoch :
    ¬ Inverts (fun _ => 0) 0 0 epochTm ∧ ¬ Normalises (fun _ => 0) 0 epochTm epochTm :=
  ⟨(mktime_wrong (fun _ => 0) 0 epochTm).1 0 (by decide) (by decide),
    (mktime_wrong (fun _ => 0) 0 epochTm).2 epochTm (by decide) (by decide)⟩

/-- `mktime` makes a Wednesday of the epoch. -/
theorem mktime_epoch :
    ¬ ((∀ t : Int, 0 ≤ t → t < 2 ^ 31 → Inverts (fun _ => 0) 0 t epochTm) ∧
      ∀ tm : Tm, 0 ≤ tm.instant 0 → tm.instant 0 < 2 ^ 63 →
        Normalises (fun _ => 0) 0 tm epochTm) := by
  intro h
  have hwrong := (h.2 epochTm (by decide) (by decide))
  exact mktime_ne_localtime epochTm epochTm (by decide) hwrong.time hwrong.fields

end Vmx.Time
