import DeskClock.Proofs.Calendar.Date

/-!
# the days one after the other

* `Date.Next`           the day behind a day, in its month, in the next month or in the next year;
* `dayNumber_next`      it has the next number;
* `exists_previous`     every day but the first is behind another;
* `first_reaches`       so every day is reached from the first one, day after day;
* `weekday_next`        the day behind a day has the next day of the week;
* `Date.NamesDays`      days of the week that follow each other day after day, one of them being known;
* `namesDays_iff`       those of the calendar are the only ones.
-/

namespace DeskClock

namespace Weekday

theorem next_inj {day day' : Weekday} (h : day.next = day'.next) : day = day' := by
  cases day <;> cases day' <;> first | rfl | cases h

theorem ofIndex_succ (n : Nat) : ofIndex (n + 1) = (ofIndex n).next := by
  have h : n % 7 < 7 := Nat.mod_lt n (by decide)
  unfold ofIndex
  rw [Nat.add_mod]
  generalize n % 7 = k at h
  interval_cases k <;> rfl

theorem ofIndex_mod (n : Nat) : ofIndex (n % 7) = ofIndex n := by
  unfold ofIndex
  rw [Nat.mod_mod]

end Weekday

namespace Date

/-! ## the next day -/

/-- the day behind a day -/
inductive Next (d d' : Date) : Prop
  | inMonth (hyear : d'.year = d.year) (hmonth : d'.month = d.month) (hday : d'.day = d.day + 1)
  | nextMonth (hlast : d.day = daysInMonth d.year d.month) (hyear : d'.year = d.year)
      (hmonth : d'.month = d.month + 1) (hday : d'.day = 1)
  | nextYear (hlast : d.month = 12 ∧ d.day = 31) (hyear : d'.year = d.year + 1)
      (hmonth : d'.month = 1) (hday : d'.day = 1)

/-- the first day of the range -/
def first : Date := ⟨minYear, 1, 1, by decide, by decide, by decide⟩

variable {d d' : Date}

theorem dayNumber_next (h : Next d d') : d'.dayNumber = d.dayNumber + 1 := by
  have hm := d.month_mem
  unfold dayNumber
  cases h with
  | inMonth hyear hmonth hday =>
    rw [hyear, hmonth, hday]
    omega
  | nextMonth hlast hyear hmonth hday =>
    rw [hyear, hmonth, hday, daysBeforeMonth_succ d.year hm.1, hlast]
    omega
  | nextYear hlast hyear hmonth hday =>
    have hyears := daysBeforeYear_succ d.year
    have hdecember : daysBeforeMonth d.year 12 + 31 = daysInYear d.year := daysBeforeMonth_last d.year
    have hjanuary : daysBeforeMonth (d.year + 1) 1 = 0 := rfl
    rw [hyear, hmonth, hday, hlast.1, hlast.2, hyears, hjanuary, ← hdecember]
    omega

theorem first_le (d : Date) : first.dayNumber ≤ d.dayNumber := by
  have hfirst : first.dayNumber = daysBeforeYear minYear - epochDays := by decide
  have hyears := daysBeforeYear_le d.year_mem.1
  have hday := d.day_mem.1
  rw [hfirst]
  unfold dayNumber
  omega

theorem eq_of_parts (hyear : d.year = d'.year) (hmonth : d.month = d'.month) (hday : d.day = d'.day) :
    d = d' := by
  cases d
  cases d'
  cases hyear
  cases hmonth
  cases hday
  rfl

theorem daysInMonth_pos (year : Int) (month : Nat) : 1 ≤ daysInMonth year month := by
  unfold daysInMonth
  split
  · split
    · decide
    · decide
  all_goals decide

/-- every day but the first is behind another: behind the one before it in its month, behind the last one
of the month before, or behind the end of the year before -/
theorem exists_previous (h : d ≠ first) : ∃ before, Next before d := by
  obtain ⟨hlow, hhigh⟩ := d.day_mem
  by_cases hday : d.day = 1
  · by_cases hmonth : d.month = 1
    · have hyear : minYear ≠ d.year := fun hyear => h (eq_of_parts hyear.symm hmonth hday)
      have hrange : minYear ≤ d.year - 1 ∧ d.year - 1 ≤ maxYear := by
        have := d.year_mem
        omega
      refine ⟨⟨d.year - 1, 12, 31, hrange, by decide, by decide, le_rfl⟩, .nextYear ⟨rfl, rfl⟩ ?_ hmonth hday⟩
      show d.year = d.year - 1 + 1
      omega
    · have hrange : 1 ≤ d.month - 1 ∧ d.month - 1 ≤ 12 := by
        have := d.month_mem
        omega
      refine ⟨⟨d.year, d.month - 1, daysInMonth d.year (d.month - 1), d.year_mem, hrange,
        daysInMonth_pos _ _, le_rfl⟩, .nextMonth rfl rfl ?_ hday⟩
      show d.month = d.month - 1 + 1
      omega
  · refine ⟨⟨d.year, d.month, d.day - 1, d.year_mem, d.month_mem, by omega, by omega⟩, .inMonth rfl rfl ?_⟩
    show d.day = d.day - 1 + 1
    omega

/-- **Every day is reached from the first one**, day after day. -/
theorem first_reaches (d : Date) : Relation.ReflTransGen Next first d := by
  -- the induction is on the count of days since the first one
  induction hn : (d.dayNumber - first.dayNumber).toNat generalizing d with
  | zero =>
    by_cases hd : d = first
    · rw [hd]
    · obtain ⟨before, hnext⟩ := exists_previous hd
      have := dayNumber_next hnext
      have := first_le before
      omega
  | succ n ih =>
    have hd : d ≠ first := by
      rintro rfl
      rw [Int.sub_self] at hn
      cases hn
    obtain ⟨before, hnext⟩ := exists_previous hd
    have hnumber := dayNumber_next hnext
    exact (ih before (by omega)).tail hnext

/-! ## the days of the week -/

/-- **The day behind a day has the next day of the week.** -/
theorem weekday_next (h : Next d d') : d'.weekday = d.weekday.next := by
  have hnumber := dayNumber_next h
  have hindex : ((d'.dayNumber + 3) % 7).toNat = (((d.dayNumber + 3) % 7).toNat + 1) % 7 := by omega
  rw [weekday, weekday, hindex, Weekday.ofIndex_mod, Weekday.ofIndex_succ]

/-- 1970-01-01 -/
def epoch : Date := ⟨1970, 1, 1, by decide, by decide, by decide⟩

/-- days of the week that follow each other day after day, and of which one is known: 1970-01-01 was a
Thursday -/
structure NamesDays (f : Date → Weekday) : Prop where
  known : f epoch = .thursday
  next : ∀ d d', Next d d' → f d' = (f d).next

theorem namesDays_weekday : NamesDays weekday where
  known := by decide
  next _ _ := weekday_next

/-- two that go on in one way are the same at a day exactly if they are at a later one -/
theorem eq_iff_of_reaches {f g : Date → Weekday} (hf : ∀ d d', Next d d' → f d' = (f d).next)
    (hg : ∀ d d', Next d d' → g d' = (g d).next) (h : Relation.ReflTransGen Next d d') :
    f d = g d ↔ f d' = g d' := by
  induction h with
  | refl => rfl
  | tail _ hnext ih =>
    rw [ih, hf _ _ hnext, hg _ _ hnext]
    exact ⟨congrArg Weekday.next, Weekday.next_inj⟩

/-- **The days of the week are those of the calendar.** -/
theorem namesDays_iff {f : Date → Weekday} : NamesDays f ↔ f = weekday := by
  constructor
  · intro h
    have hall := fun d => eq_iff_of_reaches h.next namesDays_weekday.next (first_reaches d)
    have hepoch : f epoch = weekday epoch := by rw [h.known, namesDays_weekday.known]
    exact funext fun d => (hall d).mp ((hall epoch).mpr hepoch)
  · rintro rfl
    exact namesDays_weekday

end Date

end DeskClock
