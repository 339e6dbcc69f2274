import DeskClock.Calendar.Instant
import Mathlib

/-!
# days and their numbers

* `yearOfEra_spec`     the year of a day among 400 years;
* `splitYears_spec`    the year of a day, and the days since its start;
* `splitMonths_spec`   the month and the day of the month;
* `ofDayNumber?_spec`  every number of a day in the range has a day, whose number it is;
* `atOffset?_zero`     every instant has a moment of universal time, whose seconds it has.
-/

namespace DeskClock

namespace Date

/-! ## years -/

/-- The year of a day among 400 years: its days lie between the start of the year and its end. -/
theorem yearOfEra_spec (doe : Nat) (h : doe < 146097) :
    let y := (doe - doe / 1460 + doe / 36524 - doe / 146096) / 365
    y < 400 ∧ 365 * y + y / 4 - y / 100 ≤ doe ∧
      doe < 365 * y + y / 4 - y / 100 +
        (if (y + 1) % 4 = 0 ∧ ((y + 1) % 100 ≠ 0 ∨ (y + 1) % 400 = 0) then 366 else 365) := by
  intro y
  by_cases hlast : doe = 146096
  · have hy : y = 399 := by
      subst hlast
      rfl
    rw [hy, hlast]
    decide
  have hb : doe / 36524 ≤ 3 := by omega
  have hc : doe / 146096 = 0 := by omega
  generalize hb' : doe / 36524 = b at hb
  obtain ⟨k, r, hk, hr⟩ : ∃ k r, doe = 36524 * b + 1461 * k + r ∧ r < 1461 :=
    ⟨(doe - 36524 * b) / 1461, (doe - 36524 * b) % 1461, by omega, by omega⟩
  have hk' : k ≤ 24 := by omega
  obtain ⟨e, ha, he⟩ : ∃ e, doe / 1460 = 25 * b + k + e ∧
      (e = 0 ∨ e = 1 ∧ 1460 ≤ 24 * b + k + r) := by
    by_cases h1 : 1460 ≤ 24 * b + k + r
    · exact ⟨1, by omega, .inr ⟨rfl, h1⟩⟩
    · exact ⟨0, by omega, .inl rfl⟩
  -- the year is the `j`-th of four years, which are the `k`-th of the century `b`
  obtain ⟨j, hj, hj', hy⟩ : ∃ j, j ≤ 3 ∧ (365 * j ≤ r - e ∧ r - e < 365 * (j + 1)) ∧
      y = 100 * b + 4 * k + j := ⟨(r - e) / 365, by omega, by omega, by omega⟩
  clear_value y
  subst hy
  have h4 : (100 * b + 4 * k + j) / 4 = 25 * b + k := by omega
  have h100 : (100 * b + 4 * k + j) / 100 = b := by omega
  rw [h4, h100]
  refine ⟨by omega, by omega, ?_⟩
  split
  · omega
  · next hleap =>
    have hshort : j < 3 ∨ k = 24 := by omega
    clear hleap
    have hr' : r < 365 * (j + 1) := by
      rcases he with rfl | ⟨rfl, he⟩
      · omega
      · omega
    omega

def daysInYear (year : Int) : Nat := if isLeapYear year then 366 else 365

theorem isLeapYear_iff (year : Int) :
    isLeapYear year = true ↔ year % 4 = 0 ∧ (year % 100 ≠ 0 ∨ year % 400 = 0) := by
  unfold isLeapYear
  simp

/-- **A day lies in its year.** -/
theorem splitYears_spec (days : Int) :
    daysBeforeYear (splitYears days).1 + (splitYears days).2 = days ∧
      (splitYears days).2 < daysInYear (splitYears days).1 := by
  unfold splitYears
  dsimp only
  have hdoe : (days % 146097).toNat < 146097 := by omega
  have hdays : days = 146097 * (days / 146097) + ((days % 146097).toNat : Int) := by omega
  generalize (days % 146097).toNat = doe at hdoe hdays
  generalize days / 146097 = era at hdays
  obtain ⟨hy, hlow, hhigh⟩ := yearOfEra_spec doe hdoe
  generalize (doe - doe / 1460 + doe / 36524 - doe / 146096) / 365 = y at hy hlow hhigh
  constructor
  · have h1 : era * 400 + (y : Int) + 1 - 1 = era * 400 + y := by omega
    have h4 : (era * 400 + (y : Int)) / 4 = 100 * era + y / 4 := by omega
    have h100 : (era * 400 + (y : Int)) / 100 = 4 * era + y / 100 := by omega
    have h400 : (era * 400 + (y : Int)) / 400 = era := by omega
    unfold daysBeforeYear
    dsimp only
    rw [h1, h4, h100, h400]
    clear hhigh
    omega
  · have hleap : isLeapYear (era * 400 + y + 1) = true ↔
        (y + 1) % 4 = 0 ∧ ((y + 1) % 100 ≠ 0 ∨ (y + 1) % 400 = 0) := by
      rw [isLeapYear_iff]
      omega
    rw [daysInYear]
    simp only [hleap]
    omega

/-- later years start later -/
theorem daysBeforeYear_le {a b : Int} (h : a ≤ b) : daysBeforeYear a ≤ daysBeforeYear b := by
  unfold daysBeforeYear
  dsimp only
  omega

theorem daysBeforeYear_succ (year : Int) :
    daysBeforeYear (year + 1) = daysBeforeYear year + daysInYear year := by
  have h := isLeapYear_iff year
  have h1 : year + 1 - 1 = year := by omega
  unfold daysBeforeYear daysInYear
  dsimp only
  rw [h1]
  by_cases hl : isLeapYear year = true
  · have hy := h.mp hl
    rw [if_pos hl]
    omega
  · have hy : year % 4 ≠ 0 ∨ year % 100 = 0 ∧ year % 400 ≠ 0 := by
      by_contra hn
      exact hl (h.mpr (by omega))
    rw [if_neg hl]
    omega

/-! ## months -/

theorem daysInMonth_le (year : Int) (month : Nat) : daysInMonth year month ≤ 31 := by
  unfold daysInMonth
  split
  · split
    · omega
    · omega
  all_goals omega

theorem daysBeforeMonth_succ (year : Int) {month : Nat} (h : 1 ≤ month) :
    daysBeforeMonth year (month + 1) = daysBeforeMonth year month + daysInMonth year month :=
  if_neg (by omega)

theorem daysBeforeMonth_last (year : Int) : daysBeforeMonth year 13 = daysInYear year := by
  unfold daysInYear
  cases h : isLeapYear year with
  | true => simp [daysBeforeMonth, daysInMonth, h]
  | false => simp [daysBeforeMonth, daysInMonth, h]

/-- **A day lies in its month**, if it lies in the months that are left. -/
theorem splitMonths_spec (year : Int) (rest month count : Nat) (hm : 1 ≤ month)
    (h : daysBeforeMonth year month + rest < daysBeforeMonth year (month + count + 1)) :
    (month ≤ (splitMonths year rest month count).1 ∧
      (splitMonths year rest month count).1 ≤ month + count) ∧
    (1 ≤ (splitMonths year rest month count).2 ∧ (splitMonths year rest month count).2 ≤
      daysInMonth year (splitMonths year rest month count).1) ∧
    daysBeforeMonth year (splitMonths year rest month count).1 +
      (splitMonths year rest month count).2 = daysBeforeMonth year month + rest + 1 := by
  have hsucc := daysBeforeMonth_succ year hm
  induction count generalizing rest month with
  | zero =>
    rw [splitMonths]
    dsimp only
    rw [Nat.add_zero] at h
    omega
  | succ count ih =>
    rw [splitMonths]
    split
    · dsimp only
      omega
    · have h' : daysBeforeMonth year (month + 1) + (rest - daysInMonth year month)
          < daysBeforeMonth year (month + 1 + count + 1) := by
        rw [show month + 1 + count + 1 = month + (count + 1) + 1 by omega]
        omega
      have hs := ih (rest - daysInMonth year month) (month + 1) (by omega) h'
        (daysBeforeMonth_succ year (by omega))
      omega

/-! ## the number of a day -/

theorem of?_eq (d : Date) : of? d.year d.month d.day = some d := by
  rw [of?, dif_pos d.year_mem, dif_pos d.month_mem, dif_pos d.day_mem]

/-- **Every number of a day in the range has a day, whose number it is.** -/
theorem ofDayNumber?_spec {n : Int} (hmin : -96465292 ≤ n) (hmax : n ≤ 95026236) :
    ∃ d, ofDayNumber? n = some d ∧ d.dayNumber = n := by
  obtain ⟨hyear, hday⟩ := splitYears_spec (n + epochDays)
  unfold ofDayNumber?
  generalize hs : splitYears (n + epochDays) = s at hyear hday
  obtain ⟨year, doy⟩ := s
  dsimp only at hyear hday ⊢
  have hmonths := splitMonths_spec year doy 1 11 le_rfl (by
    rw [daysBeforeMonth_last]
    show 0 + doy < _
    omega)
  generalize splitMonths year doy 1 11 = s at hmonths
  obtain ⟨month, day⟩ := s
  dsimp only at hmonths ⊢
  obtain ⟨hm, hd, hsum⟩ := hmonths
  have hy : minYear ≤ year ∧ year ≤ maxYear := by
    have hsucc := daysBeforeYear_succ year
    have hlow : daysBeforeYear minYear = -95746130 := by decide
    have hhigh : daysBeforeYear (maxYear + 1) = 95745399 := by decide
    unfold epochDays at hyear
    constructor
    · by_contra hlt
      have := daysBeforeYear_le (show year + 1 ≤ minYear by omega)
      omega
    · by_contra hlt
      have := daysBeforeYear_le (show maxYear + 1 ≤ year by omega)
      omega
  refine ⟨⟨year, month, day, hy, hm, hd⟩, of?_eq ⟨year, month, day, hy, hm, hd⟩, ?_⟩
  have h1 : daysBeforeMonth year 1 = 0 := rfl
  unfold dayNumber
  dsimp only
  omega

end Date

/-! ## moments -/

theorem ClockTime.secondOfDay_atSecond {second nanosecond : Nat} (h : nanosecond < 2000000000)
    (hs : second < 86400) : (atSecond second nanosecond h).secondOfDay = second := by
  show second / 3600 % 24 * 3600 + second / 60 % 60 * 60 + second % 60 = second
  omega

/-- **Every instant has a moment of universal time**, whose seconds it has. -/
theorem Instant.atOffset?_zero (t : Instant) : ∃ moment, t.atOffset? 0 = some moment ∧
    moment.seconds = t.seconds ∧ moment.time.nanosecond = t.nanosecond ∧
    (t.nanosecond < 1000000000 ∨ moment.time.second = 59) := by
  have hn : t.nanosecond < 2000000000 := by
    have := t.nanosecond_mem
    omega
  have hs := t.seconds_mem
  unfold minSeconds maxSeconds at hs
  obtain ⟨date, hdate, hday⟩ := Date.ofDayNumber?_spec (n := t.seconds / 86400) (by omega) (by omega)
  have hsecond : (t.seconds % 86400).toNat < 86400 := by omega
  have htime := ClockTime.secondOfDay_atSecond hn hsecond
  refine ⟨⟨date, ClockTime.atSecond (t.seconds % 86400).toNat t.nanosecond hn⟩, ?_, ?_, rfl, ?_⟩
  · rw [atOffset?, DateTime.ofSeconds?, dif_pos hn, Int.add_zero, hdate]
    rfl
  · show date.dayNumber * 86400 +
      ((ClockTime.atSecond (t.seconds % 86400).toNat t.nanosecond hn).secondOfDay : Int) = t.seconds
    rw [htime, hday]
    omega
  · rcases t.nanosecond_mem with h | ⟨-, h⟩
    · exact .inl h
    · right
      show (t.seconds % 86400).toNat % 60 = 59
      omega

end DeskClock
