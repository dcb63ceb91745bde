import Vmx.Lib.Calendar
import Vmx.Libc.TimeLib

/-!
# The local time is the Gregorian one

The leap days from 1970 on are one in four years until the year 2100, which `daysSinceEpoch` takes
for a leap year and the calendar does not.  Until its last day `getTime` gives the date of the
calendar (`getTime_isTimeOf`), and no time of 32 bits comes so late (`local_time`).
-/

namespace Vmx.Time

open Lib

/-- `tm` is the time `t`. -/
structure IsTimeOf (tm : Tm) (t : Nat) : Prop where
  year : tm.tm_year + TM_YEAR_BASE = (dateAt (t / 86400)).year
  mon : tm.tm_mon = (dateAt (t / 86400)).month
  mday : tm.tm_mday = (dateAt (t / 86400)).day
  yday : tm.tm_yday = (dateAt (t / 86400)).yday
  wday : tm.tm_wday = (t / 86400 + 4 : Nat) % 7
  hour : tm.tm_hour = (t % 86400 / 3600 : Nat)
  min : tm.tm_min = (t % 3600 / 60 : Nat)
  sec : tm.tm_sec = (t % 60 : Nat)

/-- The fields are in their ranges. -/
structure InRange (tm : Tm) : Prop where
  sec : 0 ≤ tm.tm_sec ∧ tm.tm_sec < 60
  min : 0 ≤ tm.tm_min ∧ tm.tm_min < 60
  hour : 0 ≤ tm.tm_hour ∧ tm.tm_hour < 24
  mday : 1 ≤ tm.tm_mday ∧ tm.tm_mday ≤ monthLength (tm.tm_year + TM_YEAR_BASE) tm.tm_mon.toNat
  mon : 0 ≤ tm.tm_mon ∧ tm.tm_mon < 12
  wday : 0 ≤ tm.tm_wday ∧ tm.tm_wday < 7
  yday : 0 ≤ tm.tm_yday ∧ tm.tm_yday < yearLength (tm.tm_year + TM_YEAR_BASE)

/-- The date in the fields. -/
def Tm.date (tm : Tm) : Date :=
  { year := tm.tm_year + TM_YEAR_BASE, month := tm.tm_mon.toNat, day := tm.tm_mday.toNat }

variable {tm : Tm} {t n : Nat} {beyond : Int → Int}

theorem IsTimeOf.date_eq (h : IsTimeOf tm t) : tm.date = dateAt (t / 86400) := by
  rw [Tm.date, h.year, h.mon, h.mday]
  rfl

theorem IsTimeOf.inRange (h : IsTimeOf tm t) : InRange tm := by
  have hvalid := dateAt_valid (t / 86400)
  have hmonth := hvalid.month
  have hpos := hvalid.pos
  have hday := hvalid.day
  have hyday := hvalid.yday_lt
  refine ⟨?_, ?_, ?_, ?_, ?_, ?_, ?_⟩
  · rw [h.sec]
    omega
  · rw [h.min]
    omega
  · rw [h.hour]
    omega
  · rw [h.mday, h.year, h.mon]
    show _ ∧ _ ≤ ((monthLength _ (dateAt (t / 86400)).month : Nat) : Int)
    omega
  · rw [h.mon]
    omega
  · rw [h.wday]
    omega
  · rw [h.yday, h.year]
    omega

/-! ## The years -/

theorem isleap_iff {y : Int} (h : 0 ≤ y) : isleap y = true ↔ Leap y := by
  rw [isleap, Int.tmod_eq_emod_of_nonneg h, Int.tmod_eq_emod_of_nonneg h,
    Int.tmod_eq_emod_of_nonneg h, Leap]
  simp only [Bool.or_eq_true, Bool.and_eq_true, beq_iff_eq, bne_iff_ne]
  omega

theorem julday_eq {yr : Int} {month : Nat} (hyr : 0 ≤ yr + TM_YEAR_BASE) (hmonth : month < 12)
    (day : Int) : julday beyond yr month day = daysBefore (yr + TM_YEAR_BASE) month + day := by
  have htable : jdays beyond month =
      ([0, 31, 59, 90, 120, 151, 181, 212, 243, 273, 304, 334].getD month 0 : Nat) := by
    rw [jdays, if_pos (by omega)]
    match month, hmonth with
    | 0, _ | 1, _ | 2, _ | 3, _ | 4, _ | 5, _ | 6, _ | 7, _ | 8, _ | 9, _ | 10, _ | 11, _ => rfl
  have hleap : (isleap (yr + TM_YEAR_BASE) ∧ (month : Int) > 1) ↔
      Leap (yr + TM_YEAR_BASE) ∧ 1 < month := by
    rw [isleap_iff hyr]
    exact and_congr_right fun _ => by omega
  rw [julday, daysBefore_eq hmonth, htable]
  simp only [hleap]
  by_cases hday : Leap (yr + TM_YEAR_BASE) ∧ 1 < month
  · rw [if_pos hday, if_pos hday]
    omega
  · rw [if_neg hday, if_neg hday]
    omega

/-- The days before a year, until the year 2100. -/
theorem yearStart_eq {k : Nat} (hk : k ≤ 130) : yearStart k = 365 * k + (k + 1) / 4 := by
  induction k with
  | zero => rfl
  | succ k ih =>
    have hleap : Leap (1970 + k) ↔ (k + 2) % 4 = 0 := by
      rw [Leap]
      omega
    rw [yearStart, ih (by omega), yearLength_eq]
    simp only [hleap]
    split_ifs <;> omega

theorem daysSinceEpoch_nat (k : Nat) (yday : Int) :
    daysSinceEpoch k yday = (365 * k + (k + 1) / 4 : Nat) + yday := by
  have hpos : 0 ≤ (k : Int) + 1 := by omega
  rw [daysSinceEpoch, if_pos (by omega), Int.tdiv_eq_ediv_of_nonneg hpos]
  omega

/-- The year whose first day is the last one that is not after `days`. -/
theorem yearLoop_spec {days k : Nat} (hup : days < 365 * (k + 1) + (k + 2) / 4) :
    ∃ i : Nat, yearLoop days k = i ∧ 365 * i + (i + 1) / 4 ≤ days ∧
      days < 365 * (i + 1) + (i + 2) / 4 := by
  induction k with
  | zero =>
    rw [yearLoop, daysSinceEpoch_nat, if_neg (by omega)]
    exact ⟨0, rfl, by omega, by omega⟩
  | succ k ih =>
    rw [yearLoop, daysSinceEpoch_nat]
    split
    · next h =>
      have hpred : ((k + 1 : Nat) : Int) - 1 = k := by omega
      rw [hpred]
      exact ih (by omega)
    · exact ⟨k + 1, rfl, by omega, by omega⟩

/-- The months that a loop has passed, and the one it stops before. -/
theorem monLoop_spec (past : Int → Bool) {mon : Nat} (hmon : mon ≤ 11) :
    mon ≤ monLoop past mon ∧ monLoop past mon ≤ 11 ∧
      (mon < monLoop past mon → past (monLoop past mon) = true) ∧
      (monLoop past mon < 11 → past (monLoop past mon + 1) = false) := by
  fun_induction monLoop past mon with
  | case1 mon h ih =>
    obtain ⟨hle, hlast, hpast, hstop⟩ := ih (by omega)
    refine ⟨by omega, hlast, fun _ => ?_, hstop⟩
    by_cases heq : monLoop past (mon + 1) = mon + 1
    · rw [heq]
      exact h.1
    · exact hpast (by omega)
  | case2 mon h =>
    refine ⟨Nat.le_refl _, hmon, fun hlt => absurd hlt (Nat.lt_irrefl _), fun hlt => ?_⟩
    exact Bool.eq_false_iff.2 fun hpast => h ⟨hpast, hlt⟩

/-! ## A time broken down -/

theorem toInt_of_lt {n : Nat} (h : n < 2147483648) : toInt n = n :=
  Int.bmod_eq_of_le (by omega) (by omega)

theorem toInt_days (ht : t < 4133980800) :
    toInt ((t : Int) / SECSPERDAY) = (t / 86400 : Nat) :=
  toInt_of_lt (n := t / 86400) (by omega)

theorem toInt_timeOfDay (t : Nat) : toInt ((t : Int) % SECSPERDAY) = (t % 86400 : Nat) :=
  toInt_of_lt (n := t % 86400) (by omega)

theorem tdiv_nat (a b : Nat) : (a : Int).tdiv b = (a / b : Nat) := by
  rw [Int.tdiv_eq_ediv_of_nonneg (Int.natCast_nonneg a), Int.natCast_ediv]

theorem tmod_nat (a b : Nat) : (a : Int).tmod b = (a % b : Nat) := by
  rw [Int.tmod_eq_emod_of_nonneg (Int.natCast_nonneg a), Int.natCast_emod]

theorem wday_nat (days : Nat) : ((days : Int) + EPOCH_WDAY).tmod DAYSPERWEEK = (days + 4) % 7 := by
  have hsum : (days : Int) + EPOCH_WDAY = ((days + 4 : Nat) : Int) := by
    rw [EPOCH_WDAY]
    omega
  rw [hsum]
  exact tmod_nat (days + 4) 7

theorem hour_nat (timeOfDay : Nat) :
    (timeOfDay : Int).tdiv SECSPERHOUR = (timeOfDay / 3600 : Nat) :=
  tdiv_nat timeOfDay 3600

theorem ldiv_r_nat (timeOfDay : Nat) :
    ldiv_r ((timeOfDay : Int).tmod SECSPERHOUR) SECSPERMIN =
      (((timeOfDay % 3600 / 60 : Nat) : Int), ((timeOfDay % 3600 % 60 : Nat) : Int)) := by
  have hmod : (timeOfDay : Int).tmod SECSPERHOUR = (timeOfDay % 3600 : Nat) :=
    tmod_nat timeOfDay 3600
  have hdiv : ((timeOfDay % 3600 : Nat) : Int).tdiv SECSPERMIN = (timeOfDay % 3600 / 60 : Nat) :=
    tdiv_nat (timeOfDay % 3600) 60
  have hnonneg : ¬ ((timeOfDay % 3600 : Nat) : Int) < 0 := by omega
  rw [hmod, ldiv_r, hdiv]
  simp only [hnonneg, false_and, if_false]
  congr 1
  rw [SECSPERMIN]
  omega

/-- The days until 2101 are in the year that the loop finds. -/
theorem lt_yearStart_succ {d k : Nat} (hk : k ≤ 130) (hd : d < 47847)
    (hup : d < 365 * (k + 1) + (k + 2) / 4) : d < yearStart k + yearLength (1970 + k) := by
  by_cases hlast : k = 130
  · have hlength : yearLength (1970 + 130) = 365 := by decide
    rw [hlast, yearStart_eq (Nat.le_refl _)]
    show d < _ + yearLength (1970 + 130)
    omega
  · have hsucc := yearStart_eq (k := k + 1) (by omega)
    rw [yearStart] at hsucc
    omega

/-- The month that the loop finds. -/
theorem getMon_spec {k r : Nat} (hr : r < yearLength (1970 + k)) :
    ∃ m j : Nat, monLoop (fun mon =>
        decide ((r : Int) ≥ julday beyond ((k : Int) + EPOCH_YEAR - TM_YEAR_BASE) mon 0)) 0 = m ∧
      m < 12 ∧ j < monthLength (1970 + k) m ∧ r = daysBefore (1970 + k) m + j := by
  have hyear : (k : Int) + EPOCH_YEAR - TM_YEAR_BASE + TM_YEAR_BASE = 1970 + k := by
    rw [EPOCH_YEAR]
    omega
  have hpast : ∀ i : Nat, i < 12 →
      (decide ((r : Int) ≥ julday beyond ((k : Int) + EPOCH_YEAR - TM_YEAR_BASE) i 0) = true ↔
        daysBefore (1970 + k) i ≤ r) := by
    intro i hi
    rw [julday_eq (by omega) hi, hyear, decide_eq_true_iff]
    omega
  generalize hm : monLoop _ 0 = m
  obtain ⟨-, hlast, hpassed, hstop⟩ := hm ▸ monLoop_spec (fun mon =>
    decide ((r : Int) ≥ julday beyond ((k : Int) + EPOCH_YEAR - TM_YEAR_BASE) mon 0))
    (Nat.zero_le 11)
  have hlow : daysBefore (1970 + k) m ≤ r := by
    by_cases hzero : m = 0
    · rw [hzero]
      exact Nat.zero_le _
    · exact (hpast m (by omega)).1 (hpassed (by omega))
  have hhigh : r < daysBefore (1970 + k) (m + 1) := by
    by_cases heleven : m = 11
    · rw [heleven]
      exact hr
    · have hfalse := Bool.eq_false_iff.1 (hstop (by omega))
      exact Nat.lt_of_not_le fun hle => hfalse ((hpast (m + 1) (by omega)).2 hle)
  rw [daysBefore] at hhigh
  exact ⟨m, r - daysBefore (1970 + k) m, rfl, by omega, by omega, by omega⟩

theorem getTime_eq (tmp : Tm) (ht : t < 4133980800) :
    getTime beyond t tmp = brokenDown beyond (t / 86400 : Nat) (t % 86400 : Nat) tmp := by
  have hnonneg : ¬ ((t % 86400 : Nat) : Int) < 0 := by omega
  unfold getTime
  rw [toInt_days ht, toInt_timeOfDay]
  exact if_neg hnonneg

/-- The fields for the year `1970 + k`, its month `m` and its day `r`. -/
theorem brokenDown_eq (tmp : Tm) {d k m r : Nat} (s : Nat) (hm : m < 12)
    (hr : d = 365 * k + (k + 1) / 4 + r) (hyear : yearLoop d (d / 365 : Nat) = k)
    (hmon : monLoop (fun mon =>
      decide ((r : Int) ≥ julday beyond ((k : Int) + EPOCH_YEAR - TM_YEAR_BASE) mon 0)) 0 = m) :
    brokenDown beyond d s tmp =
      { tmp with
        tm_wday := ((d : Int) + 4) % 7, tm_year := (k : Int) + EPOCH_YEAR - TM_YEAR_BASE
        tm_mon := m, tm_mday := r - (daysBefore (1970 + k) m + 0) + 1
        tm_yday := daysBefore (1970 + k) m + (r - (daysBefore (1970 + k) m + 0) + 1) - 1
        tm_hour := (s / 3600 : Nat)
        tm_min := (s % 3600 / 60 : Nat), tm_sec := (s % 3600 % 60 : Nat) } := by
  have hguess : (d : Int).tdiv DAYSPERYEAR = (d / 365 : Nat) := tdiv_nat d 365
  have hrest : (d : Int) - daysSinceEpoch k 0 = r := by
    rw [daysSinceEpoch_nat]
    omega
  have hwday : ¬ ((d : Int) + 4) % 7 < 0 := by omega
  have hmonth : (k : Int) + EPOCH_YEAR - TM_YEAR_BASE + TM_YEAR_BASE = 1970 + k := by
    rw [EPOCH_YEAR]
    omega
  have hbefore := @julday_eq beyond ((k : Int) + EPOCH_YEAR - TM_YEAR_BASE) m (by omega) hm
  rw [hmonth] at hbefore
  simp only [brokenDown, hguess, hyear, hrest, hmon, hbefore, wday_nat, if_neg hwday, hour_nat,
    ldiv_r_nat]

theorem getTime_isTimeOf (tmp : Tm) (ht : t < 4133980800) :
    IsTimeOf (getTime beyond t tmp) t := by
  have hd : t / 86400 < 47847 := by omega
  obtain ⟨k, hyear, hlow, hhigh⟩ :=
    @yearLoop_spec (t / 86400) (t / 86400 / 365) (by omega)
  have hk : k ≤ 130 := by omega
  have hlength := lt_yearStart_succ hk hd hhigh
  have hstart := yearStart_eq hk
  obtain ⟨r, hr⟩ := Nat.exists_eq_add_of_le hlow
  obtain ⟨m, j, hmon, hm, hj, hrj⟩ := @getMon_spec beyond k r (by omega)
  have hdate := dateAt_eq (n := t / 86400) hm hj (by omega)
  have hyday : (dateAt (t / 86400)).yday = daysBefore (1970 + k) m + (j + 1) - 1 := by
    rw [hdate, Date.yday]
  have hmonth : (k : Int) + EPOCH_YEAR - TM_YEAR_BASE + TM_YEAR_BASE = 1970 + k := by
    rw [EPOCH_YEAR]
    omega
  rw [getTime_eq tmp ht, brokenDown_eq tmp _ hm hr hyear hmon]
  refine ⟨?_, ?_, ?_, ?_, ?_, ?_, ?_, ?_⟩
  · rw [hdate]
    exact hmonth
  · rw [hdate]
  · rw [hdate]
    show (r : Int) - _ + 1 = ((j + 1 : Nat) : Int)
    omega
  · rw [hyday]
    show (daysBefore (1970 + k) m : Int) + _ - 1 = _
    omega
  · show (_ : Int) % 7 = _
    omega
  · rfl
  · show ((t % 86400 % 3600 / 60 : Nat) : Int) = _
    omega
  · show ((t % 86400 % 3600 % 60 : Nat) : Int) = _
    omega

theorem IsTimeOf.isdst (h : IsTimeOf tm t) (d : Int) : IsTimeOf { tm with tm_isdst := d } t :=
  ⟨h.year, h.mon, h.mday, h.yday, h.wday, h.hour, h.min, h.sec⟩

theorem time_t_zone {t zone : Int} (hlow : 0 ≤ t - zone * 60) (hhigh : t - zone * 60 < 2 ^ 64) :
    time_t (time_t t - zone * SECSPERMIN) = ((t - zone * 60).toNat : Nat) := by
  rw [time_t, time_t, SECSPERMIN]
  omega

/-- The local time is the time of the calendar, and a day later it is the time of the next day. -/
theorem local_time (beyond : Int → Int) (timeBuffer : Tm) {t zone : Int}
    (ht : -2 ^ 31 ≤ t ∧ t < 2 ^ 31) (hzone : -33108285 ≤ zone) (hadj : 0 ≤ t - zone * 60) :
    IsTimeOf (localtime_r beyond zone (time_t t) timeBuffer) (t - zone * 60).toNat ∧
    InRange (localtime_r beyond zone (time_t t) timeBuffer) ∧
    (t + 86400 < 2 ^ 31 →
      (localtime_r beyond zone (time_t (t + 86400)) timeBuffer).date =
        (localtime_r beyond zone (time_t t) timeBuffer).date.next) := by
  have hlocal : ∀ u : Int, u < 2 ^ 31 → 0 ≤ u - zone * 60 →
      IsTimeOf (localtime_r beyond zone (time_t u) timeBuffer) (u - zone * 60).toNat := by
    intro u hu hnonneg
    rw [localtime_r, time_t_zone hnonneg (by omega)]
    exact (getTime_isTimeOf timeBuffer (by omega)).isdst 0
  have htime := hlocal t ht.2 hadj
  refine ⟨htime, htime.inRange, fun hnext => ?_⟩
  have hday : (t + 86400 - zone * 60).toNat / 86400 = (t - zone * 60).toNat / 86400 + 1 := by
    omega
  rw [(hlocal (t + 86400) hnext (by omega)).date_eq, htime.date_eq, hday, dateAt]

/-- The first of March 2000 begins, one hour east of Greenwich. -/
theorem local_time_leap :
    IsTimeOf (localtime_r (fun _ => 0) (-60) (time_t 951865200) ⟨0, 0, 0, 0, 0, 0, 0, 0, 0⟩)
      951868800 :=
  (local_time (fun _ => 0) ⟨0, 0, 0, 0, 0, 0, 0, 0, 0⟩ (t := 951865200) ⟨by decide, by decide⟩ (by decide) (by decide)).1

end Vmx.Time
