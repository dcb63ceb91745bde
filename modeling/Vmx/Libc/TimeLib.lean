import Mathlib.Algebra.Order.Ring.Int

/-!
# `timeLib`: calendar time and broken-down time

`getTime` breaks a time down, `localtime_r` does so for the local time and `mktime` is the way
back.  There is no daylight saving: `__getDstInfo` answers `FALSE`.  Division is that of C, which
rounds to zero, and a time is an `unsigned long long`.

The table of `julday` has twelve words.  The two loops that look for the month ask for the one
behind them before they see that the month is the last, and `beyond` is what they find there.
-/

namespace Vmx.Time

def ERROR : Int := -1

def SECSPERMIN : Int := 60
def MINSPERHOUR : Int := 60
def HOURSPERDAY : Int := 24
def DAYSPERWEEK : Int := 7
def MONSPERYEAR : Int := 12
def DAYSPERYEAR : Int := 365
def SECSPERHOUR : Int := 3600
def SECSPERDAY : Int := 86400

/-- `TM_THURSDAY`. -/
def EPOCH_WDAY : Int := 4
def EPOCH_YEAR : Int := 1970
def TM_YEAR_BASE : Int := 1900

/-- `struct tm`. -/
structure Tm where
  tm_sec : Int
  tm_min : Int
  tm_hour : Int
  tm_mday : Int
  tm_mon : Int
  tm_year : Int
  tm_wday : Int
  tm_yday : Int
  tm_isdst : Int
  deriving DecidableEq

/-- A conversion to `time_t`. -/
def time_t (x : Int) : Int := x % 2 ^ 64

/-- A conversion to `int`. -/
def toInt (x : Int) : Int := Int.bmod x (2 ^ 32)

def isleap (y : Int) : Bool :=
  (y.tmod 4 == 0 && y.tmod 100 != 0) || y.tmod 400 == 0

/-- The table of `julday`. -/
def jdays (beyond : Int → Int) (mon : Int) : Int :=
  if 0 ≤ mon ∧ mon < 12 then
    [0, 31, 59, 90, 120, 151, 181, 212, 243, 273, 304, 334].getD mon.toNat 0
  else beyond mon

/-- `__julday`. -/
def julday (beyond : Int → Int) (yr mon day : Int) : Int :=
  let leap := if isleap (yr + TM_YEAR_BASE) ∧ mon > 1 then 1 else 0
  jdays beyond mon + day + leap

/-- `__daysSinceEpoch`. -/
def daysSinceEpoch (year yday : Int) : Int :=
  if year ≥ 0 then 365 * year + (year + 1).tdiv 4 + yday
  else 365 * year + (year - 2).tdiv 4 + yday

/-- `__tmNormalize`, with the new `tens` and `units`. -/
def tmNormalize (tens units base : Int) : Int × Int :=
  let tens := tens + units.tdiv base
  let units := units.tmod base
  if units.tmod base < 0 then (tens - 1, units + base) else (tens, units)

/-- The loops that look for the month: `past mon` when the day is not before month `mon`. -/
def monLoop (past : Int → Bool) (mon : Nat) : Nat :=
  if past (mon + 1) ∧ mon < 11 then monLoop past (mon + 1) else mon
termination_by 11 - mon
decreasing_by omega

/-- The words of the table that `monLoop` asks for. -/
def monReads (past : Int → Bool) (mon : Nat) : List Int :=
  if past (mon + 1) ∧ mon < 11 then ((mon + 1 : Nat) : Int) :: monReads past (mon + 1)
  else [((mon + 1 : Nat) : Int)]
termination_by 11 - mon
decreasing_by omega

/-- The time units of `__tmValidate`, each carried to the next one. -/
def normalized (pTime : Tm) : Tm :=
  let (tm_min, tm_sec) := tmNormalize pTime.tm_min pTime.tm_sec SECSPERMIN
  let (tm_hour, tm_min) := tmNormalize pTime.tm_hour tm_min MINSPERHOUR
  let (tm_mday, tm_hour) := tmNormalize pTime.tm_mday tm_hour HOURSPERDAY
  let (tm_year, tm_mon) := tmNormalize pTime.tm_year pTime.tm_mon MONSPERYEAR
  { pTime with
    tm_sec := tm_sec, tm_min := tm_min, tm_hour := tm_hour, tm_mday := tm_mday
    tm_mon := tm_mon, tm_year := tm_year }

/-- `__tmValidate`, and the words of the table it asks for. -/
def tmValidate (beyond : Int → Int) (pTime : Tm) : Tm × List Int :=
  let t := normalized pTime
  let jday := julday beyond t.tm_year t.tm_mon t.tm_mday
  let past := fun mon => decide (jday > julday beyond t.tm_year mon 0)
  let mon := monLoop past 0
  ({ t with
    tm_mon := mon, tm_mday := jday - julday beyond t.tm_year mon 0, tm_wday := 0, tm_yday := 0 },
    t.tm_mon :: monReads past 0 ++ [(mon : Int)])

/-! ## Breaking down -/

theorem tdiv_nonpos {a : Int} (h : a ≤ 0) : a.tdiv 4 ≤ 0 := by
  have hneg : a.tdiv 4 = -((-a).tdiv 4) := by rw [Int.neg_tdiv, Int.neg_neg]
  have hpos : 0 ≤ -a := by omega
  rw [hneg, Int.tdiv_eq_ediv_of_nonneg hpos]
  omega

/-- A year that is not reached yet is after the years that `days` can hold. -/
theorem lt_of_daysSinceEpoch {days year : Int} (h : daysSinceEpoch year 0 > days) :
    min (-1) (days / 365) < year := by
  unfold daysSinceEpoch at h
  split at h
  · omega
  · have hdiv : (year - 2).tdiv 4 ≤ 0 := tdiv_nonpos (by omega)
    omega

/-- The loop that corrects the year. -/
def yearLoop (days year : Int) : Int :=
  if daysSinceEpoch year 0 > days then yearLoop days (year - 1) else year
termination_by (year - min (-1) (days / 365)).toNat
decreasing_by
  rename_i h
  have hlt := lt_of_daysSinceEpoch h
  omega

/-- `ldiv_r`. -/
def ldiv_r (numer denom : Int) : Int × Int :=
  let quot := numer.tdiv denom
  let rem := numer - denom * quot
  if numer < 0 ∧ rem > 0 then (quot + 1, rem - denom) else (quot, rem)

/-- `__getTime`, once the days and the time of day are known. -/
def brokenDown (beyond : Int → Int) (days timeOfDay : Int) (tmp : Tm) : Tm :=
  let year := yearLoop days (days.tdiv DAYSPERYEAR)
  let wday := (days + EPOCH_WDAY).tmod DAYSPERWEEK
  let days := days - daysSinceEpoch year 0
  let year := year + EPOCH_YEAR
  let mon := monLoop (fun mon => decide (days ≥ julday beyond (year - TM_YEAR_BASE) mon 0)) 0
  let tm_mday := days - julday beyond (year - TM_YEAR_BASE) mon 0 + 1
  let result := ldiv_r (timeOfDay.tmod SECSPERHOUR) SECSPERMIN
  { tmp with
    tm_wday := if wday < 0 then wday + DAYSPERWEEK else wday
    tm_year := year - TM_YEAR_BASE
    tm_mon := mon
    tm_mday := tm_mday
    tm_yday := julday beyond (year - TM_YEAR_BASE) mon tm_mday - 1
    tm_hour := timeOfDay.tdiv SECSPERHOUR
    tm_min := result.1
    tm_sec := result.2 }

/-- `__getTime`. -/
def getTime (beyond : Int → Int) (timer : Int) (tmp : Tm) : Tm :=
  let days := toInt (timer / SECSPERDAY)
  let timeOfDay := toInt (timer % SECSPERDAY)
  if timeOfDay < 0 then brokenDown beyond (days - 1) (timeOfDay + SECSPERDAY) tmp
  else brokenDown beyond days timeOfDay tmp

/-- `localtime_r`, with the zone offset in minutes. -/
def localtime_r (beyond : Int → Int) (zone timer : Int) (timeBuffer : Tm) : Tm :=
  { getTime beyond (time_t (timer - zone * SECSPERMIN)) timeBuffer with tm_isdst := 0 }

/-! ## The way back -/

/-- What `mktime` leaves: the time it returns, the fields, and the words it asks for. -/
structure Made where
  timeIs : Int
  tm : Tm
  reads : List Int

/-- `mktime`, with the zone offset in minutes. -/
def mktime (beyond : Int → Int) (zone : Int) (pTime : Tm) : Made :=
  let (pTime, reads) := tmValidate beyond pTime
  let timeIs := pTime.tm_sec + pTime.tm_min * SECSPERMIN + pTime.tm_hour * SECSPERHOUR
  let days := julday beyond pTime.tm_year pTime.tm_mon pTime.tm_mday
  let pTime := { pTime with tm_yday := days - 1 }
  let reads := reads ++ [pTime.tm_mon]
  if pTime.tm_year + TM_YEAR_BASE < EPOCH_YEAR then
    { timeIs := time_t ERROR, tm := pTime, reads := reads }
  else
    let days := daysSinceEpoch (pTime.tm_year - (EPOCH_YEAR - TM_YEAR_BASE)) pTime.tm_yday
    { timeIs := time_t (timeIs + days * SECSPERDAY + zone * SECSPERMIN)
      tm := { pTime with tm_wday := (days + EPOCH_YEAR).tmod DAYSPERWEEK, tm_isdst := 0 }
      reads := reads }

end Vmx.Time
