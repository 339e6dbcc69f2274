import DeskClock.Proofs.Calendar.Timestamp
import DeskClock.Proofs.Calendar.Weekday
import DeskClock.Proofs.Frame

/-!
# what a face tells

The parts of a time stand between colons and those of a date behind spaces, so a face is read from left to
right. Two things are not written as they are: the hour of the twelve-hour form is told by its period, and
the 24-hour form counts a leap second as the second behind its own.

* `hour12_inj`             the hour of the twelve-hour form, with its period;
* `timeChars_eq_iff`       all that a time shows;
* `yearText_inj`, `monthName_inj`, `dateChars_inj`   a date is shown whole;
* `DateTime.LooksLike`     all that a face shows of a moment; `at_eq_iff`;
* `ClockTime.IsStrayLeap`  a leap second that does not end its minute;
* `LooksLike.second_eq`    any other second is told from the rest;
* `at_identifies`          a face identifies its moment, and names the day of the week of the calendar.
-/

namespace DeskClock

/-! ## marks -/

/-- a text in front of a mark that it does not have is told from the rest -/
theorem append_mark_inj {mark : Char} {cs cs' rest rest' : List Char} (hcs : mark ∉ cs) (hcs' : mark ∉ cs')
    (h : cs ++ mark :: rest = cs' ++ mark :: rest') : cs = cs' ∧ rest = rest' := by
  have hends : ∀ {cs : List Char}, mark ∉ cs → ∀ c ∈ cs, (c == mark) = false :=
    fun hcs c hc => beq_eq_false_iff_ne.mpr fun heq => hcs (heq ▸ hc)
  obtain ⟨hfront, hbehind⟩ := append_cons_inj (hends hcs) (hends hcs')
    (beq_self_eq_true mark) (beq_self_eq_true mark) h
  exact ⟨hfront, (List.cons.inj hbehind).2⟩

/-! ## times -/

/-- a leap second that does not end its minute, as on a clock that is some seconds ahead -/
def ClockTime.IsStrayLeap (t : ClockTime) : Prop := 1000000000 ≤ t.nanosecond ∧ t.second ≠ 59

/-- the second of a face: the 24-hour form counts a leap second as the second behind its own -/
def DisplaySettings.secondOf (display : DisplaySettings) (t : ClockTime) : Nat :=
  if display.use24Hour then t.shownSecond else t.second

namespace ClockFace

variable {display : DisplaySettings}

/-- **The hour of the twelve-hour form is told by its period.** -/
theorem hour12_inj {h h' : Nat} (hh : h < 24) (hh' : h' < 24) (hhour : hour12 h = hour12 h')
    (hperiod : h < 12 ↔ h' < 12) : h = h' := by
  unfold hour12 at hhour
  split_ifs at hhour
  all_goals omega

/-- the hour of the twelve-hour form: that of the first or of the second half of the day -/
theorem hour12_spec {h : Nat} (hh : h < 24) : (1 ≤ hour12 h ∧ hour12 h ≤ 12) ∧
    ((h = hour12 h % 12 ∧ h < 12) ∨ (h = hour12 h % 12 + 12 ∧ 12 ≤ h)) := by
  unfold hour12
  split
  all_goals omega

/-- the hour as it is shown -/
def hourPart (display : DisplaySettings) (t : ClockTime) : List Char :=
  if display.use24Hour then Digits.padded 2 t.hour else Digits.ofNat (hour12 t.hour)

/-- the seconds of a time, if they are shown -/
def secondsPart (display : DisplaySettings) (t : ClockTime) : List Char :=
  if display.showSeconds then twoPlaces (display.secondOf t) else []

theorem timeChars_eq (t : ClockTime) (display : DisplaySettings) : timeChars t display =
    hourPart display t ++ ':' :: (Digits.padded 2 t.minute ++ secondsPart display t) := by
  unfold timeChars hourPart secondsPart DisplaySettings.secondOf
  cases display.use24Hour with
  | true => rw [if_pos rfl, if_pos rfl, if_pos rfl, List.append_assoc]; rfl
  | false =>
    rw [if_neg Bool.false_ne_true, if_neg Bool.false_ne_true, if_neg Bool.false_ne_true, List.append_assoc]
    rfl

theorem twoPlaces_inj {n m : Nat} (h : twoPlaces n = twoPlaces m) : n = m :=
  Digits.padded_inj (List.cons.inj h).2

theorem secondsPart_eq_iff (t t' : ClockTime) : secondsPart display t = secondsPart display t' ↔
    (display.showSeconds = true → display.secondOf t = display.secondOf t') := by
  unfold secondsPart
  cases display.showSeconds with
  | true => exact ⟨fun h _ => twoPlaces_inj h, fun h => congrArg twoPlaces (h rfl)⟩
  | false => exact iff_of_true rfl nofun

theorem colon_hourPart (t : ClockTime) : ':' ∉ hourPart display t := by
  unfold hourPart
  split
  · exact Digits.not_mem_of_isDigit rfl (Digits.isDigit_of_mem_padded _ _)
  · exact Digits.not_mem_of_isDigit rfl (Digits.isDigit_of_mem_ofNat _)

/-- the period is needed for the hour of the twelve-hour form only -/
theorem hour_eq_iff (t t' : ClockTime) :
    hourPart display t = hourPart display t' ∧ periodText t display = periodText t' display ↔
      t.hour = t'.hour := by
  unfold hourPart periodText
  cases display.use24Hour with
  | true =>
    rw [if_pos rfl, if_pos rfl, if_pos rfl, if_pos rfl, and_iff_left rfl]
    exact ⟨Digits.padded_inj, congrArg _⟩
  | false =>
    simp only [Bool.false_eq_true, if_false]
    constructor
    · rintro ⟨hhour, hperiod⟩
      refine hour12_inj t.hour_lt t'.hour_lt (Digits.ofNat_inj hhour) ?_
      split_ifs at hperiod with h h' h'
      · exact iff_of_true h h'
      · exact absurd hperiod (by decide)
      · exact absurd hperiod (by decide)
      · exact iff_of_false h h'
    · intro h
      rw [h]
      exact ⟨rfl, rfl⟩

theorem timeChars_eq_iff (t t' : ClockTime) : timeChars t display = timeChars t' display ↔
    hourPart display t = hourPart display t' ∧ t.minute = t'.minute ∧
      (display.showSeconds = true → display.secondOf t = display.secondOf t') := by
  rw [timeChars_eq, timeChars_eq, ← secondsPart_eq_iff]
  constructor
  · intro h
    obtain ⟨hhour, hbehind⟩ := append_mark_inj (colon_hourPart t) (colon_hourPart t') h
    have hlength : (Digits.padded 2 t.minute).length = (Digits.padded 2 t'.minute).length := by
      have hminute := t.minute_lt
      have hminute' := t'.minute_lt
      rw [Digits.length_padded (by decide) (by omega), Digits.length_padded (by decide) (by omega)]
    obtain ⟨hminute, hseconds⟩ := List.append_inj hbehind hlength
    exact ⟨hhour, Digits.padded_inj hminute, hseconds⟩
  · rintro ⟨hhour, hminute, hseconds⟩
    rw [hhour, hminute, hseconds]

end ClockFace

/-! ## dates -/

namespace Date

theorem yearText_inj {y y' : Int} (h : yearText y = yearText y') : y = y' := by
  have hread := Timestamp.year?_text y []
  rw [h, Timestamp.year?_text] at hread
  exact (Prod.mk.inj (Option.some.inj hread)).1.symm

theorem monthName_inj {m m' : Nat} (hm : 1 ≤ m ∧ m ≤ 12) (hm' : 1 ≤ m' ∧ m' ≤ 12)
    (h : monthName m = monthName m') : m = m' := by
  obtain ⟨hlow, hhigh⟩ := hm
  obtain ⟨hlow', hhigh'⟩ := hm'
  interval_cases m <;> interval_cases m' <;> first | rfl | exact absurd h (by decide)

theorem space_monthName (m : Nat) : ' ' ∉ (monthName m).toList := by
  unfold monthName
  split
  all_goals decide

end Date

theorem Weekday.comma_name (day : Weekday) : ',' ∉ day.name.toList := by
  cases day
  all_goals decide

theorem Weekday.name_inj {day day' : Weekday} (h : day.name = day'.name) : day = day' := by
  cases day <;> cases day' <;> first | rfl | exact absurd h (by decide)

namespace ClockFace

/-- **A date is shown whole.** -/
theorem dateChars_inj {d d' : Date} (h : dateChars d = dateChars d') : d = d' := by
  have hspace : ∀ n, ' ' ∉ Digits.ofNat n := fun n =>
    Digits.not_mem_of_isDigit rfl (Digits.isDigit_of_mem_ofNat n)
  simp only [dateChars, List.append_assoc, List.cons_append] at h
  obtain ⟨-, hbehind⟩ := append_mark_inj d.weekday.comma_name d'.weekday.comma_name h
  obtain ⟨hmonth, hbehind⟩ := append_mark_inj (Date.space_monthName d.month) (Date.space_monthName d'.month)
    (List.cons.inj hbehind).2
  obtain ⟨hday, hyear⟩ := append_mark_inj (hspace d.day) (hspace d'.day) hbehind
  exact Date.eq_of_parts (Date.yearText_inj hyear)
    (Date.monthName_inj d.month_mem d'.month_mem (String.toList_inj.mp hmonth)) (Digits.ofNat_inj hday)

/-- the name of the day in a date: what stands in front of its first comma -/
def dayName (face : ClockFace) : String := String.ofList (face.date.toList.takeWhile (· != ','))

theorem dayName_at (now : DateTime) (display : DisplaySettings) :
    (ClockFace.at now display).dayName = now.date.weekday.name := by
  have hname : ∀ c ∈ now.date.weekday.name.toList, (c != ',') = true :=
    fun c hc => bne_iff_ne.mpr fun heq => now.date.weekday.comma_name (heq ▸ hc)
  show String.ofList ((String.ofList (dateChars now.date)).toList.takeWhile _) = _
  rw [String.toList_ofList, dateChars, List.append_assoc, List.append_assoc,
    List.takeWhile_append_of_pos hname]
  simp

end ClockFace

/-! ## moments -/

/-- all that a face shows of a moment -/
structure DateTime.LooksLike (display : DisplaySettings) (now now' : DateTime) : Prop where
  year : now.date.year = now'.date.year
  month : now.date.month = now'.date.month
  day : now.date.day = now'.date.day
  hour : now.time.hour = now'.time.hour
  minute : now.time.minute = now'.time.minute
  second : display.showSeconds = true → display.secondOf now.time = display.secondOf now'.time

/-- **A second is told from the rest**, but for a leap second in the middle of a minute. -/
theorem DateTime.LooksLike.second_eq {display : DisplaySettings} {now now' : DateTime}
    (h : now.LooksLike display now') (hshown : display.showSeconds = true) :
    now.time.second = now'.time.second ∨
      display.use24Hour = true ∧ (now.time.IsStrayLeap ∨ now'.time.IsStrayLeap) := by
  have hsecond := h.second hshown
  unfold DisplaySettings.secondOf at hsecond
  split at hsecond
  · next huse =>
    by_contra hnot
    rw [not_or, not_and_or, not_or] at hnot
    obtain ⟨hne, hstray⟩ := hnot
    unfold ClockTime.IsStrayLeap at hstray
    unfold ClockTime.shownSecond at hsecond
    have := now.time.nanosecond_lt
    have := now'.time.nanosecond_lt
    have := now.time.second_lt
    have := now'.time.second_lt
    have hleap := hstray.resolve_left (not_not_intro huse)
    omega
  · exact .inl hsecond

namespace ClockFace

variable {display : DisplaySettings}

theorem at_eq_iff (now now' : DateTime) :
    ClockFace.at now display = ClockFace.at now' display ↔ now.LooksLike display now' := by
  have hface : ClockFace.at now display = ClockFace.at now' display ↔
      timeChars now.time display = timeChars now'.time display ∧
        periodText now.time display = periodText now'.time display ∧
        dateChars now.date = dateChars now'.date := by
    rw [ClockFace.at, ClockFace.at, ClockFace.mk.injEq, String.ofList_inj, String.ofList_inj]
  rw [hface, timeChars_eq_iff]
  constructor
  · rintro ⟨⟨hhour, hminute, hsecond⟩, hperiod, hdate⟩
    have hsame := dateChars_inj hdate
    exact ⟨by rw [hsame], by rw [hsame], by rw [hsame], (hour_eq_iff _ _).mp ⟨hhour, hperiod⟩, hminute,
      hsecond⟩
  · intro h
    obtain ⟨hhour, hperiod⟩ := (hour_eq_iff now.time now'.time).mpr h.hour
    exact ⟨⟨hhour, h.minute, h.second⟩, hperiod, by rw [Date.eq_of_parts h.year h.month h.day]⟩

theorem hour12_shown (now : DateTime) (huse : display.use24Hour = false) :
    ∃ hour rest, (1 ≤ hour ∧ hour ≤ 12) ∧
      (ClockFace.at now display).time.toList = Digits.ofNat hour ++ ':' :: rest ∧
      (now.time.hour = hour % 12 ∧ (ClockFace.at now display).period = " AM" ∨
        now.time.hour = hour % 12 + 12 ∧ (ClockFace.at now display).period = " PM") := by
  obtain ⟨hrange, hhalf⟩ := hour12_spec now.time.hour_lt
  refine ⟨hour12 now.time.hour, Digits.padded 2 now.time.minute ++ secondsPart display now.time, hrange,
    ?_, ?_⟩
  · show (String.ofList (timeChars now.time display)).toList = _
    rw [String.toList_ofList, timeChars_eq, hourPart, huse, if_neg Bool.false_ne_true]
  · show _ ∧ periodText now.time display = _ ∨ _ ∧ periodText now.time display = _
    rw [periodText, huse, if_neg Bool.false_ne_true]
    refine hhalf.imp (And.imp_right fun h => if_pos h) (And.imp_right fun h => if_neg (Nat.not_lt.mpr h))

/-- the names shown are those of the calendar and no others -/
theorem namesDays_iff_shown (f : Date → Weekday) : Date.NamesDays f ↔
    ∀ now, (ClockFace.at now display).dayName = (f now.date).name := by
  rw [Date.namesDays_iff]
  constructor
  · rintro rfl now
    exact dayName_at now display
  · intro h
    funext d
    have hname := h ⟨d, ClockTime.atSecond 0 0 (by decide)⟩
    rw [dayName_at] at hname
    exact (Weekday.name_inj hname).symm

/-- **A face identifies its moment.** Two faces are one exactly if their moments look alike: of one year,
month, day, hour and minute and, where seconds are shown, of one second as shown. That is the second itself,
unless a leap second stands in the middle of a minute and the form is that of 24 hours. In the twelve-hour
form midnight and noon are twelve, and the period tells the half of the day. The days are named as the
calendar names them, so that the next day has the next name. -/
theorem at_identifies (display : DisplaySettings) :
    (∀ now now' : DateTime,
      ClockFace.at now display = ClockFace.at now' display ↔ now.LooksLike display now') ∧
    (∀ now now' : DateTime, ClockFace.at now display = ClockFace.at now' display →
      display.showSeconds = true → now.time.second = now'.time.second ∨
        display.use24Hour = true ∧ (now.time.IsStrayLeap ∨ now'.time.IsStrayLeap)) ∧
    (display.use24Hour = false → ∀ now : DateTime, ∃ hour rest, (1 ≤ hour ∧ hour ≤ 12) ∧
      (ClockFace.at now display).time.toList = Digits.ofNat hour ++ ':' :: rest ∧
      (now.time.hour = hour % 12 ∧ (ClockFace.at now display).period = " AM" ∨
        now.time.hour = hour % 12 + 12 ∧ (ClockFace.at now display).period = " PM")) ∧
    (∀ f : Date → Weekday, Date.NamesDays f ↔
      ∀ now, (ClockFace.at now display).dayName = (f now.date).name) ∧
    ∀ now now' : DateTime, Date.Next now.date now'.date → ∃ day : Weekday,
      (ClockFace.at now display).dayName = day.name ∧
      (ClockFace.at now' display).dayName = day.next.name := by
  refine ⟨at_eq_iff, fun now now' hface hshown => ?_, fun huse now => hour12_shown now huse,
    namesDays_iff_shown, fun now now' hnext => ?_⟩
  · exact ((at_eq_iff now now').mp hface).second_eq hshown
  · refine ⟨now.date.weekday, dayName_at now display, ?_⟩
    rw [dayName_at, Date.weekday_next hnext]

/-- the leap second at the end of 2016, and the midnight behind it -/
theorem at_identifies_leapSecond :
    let display : DisplaySettings := { use24Hour := true }
    let leap : DateTime := ⟨⟨2016, 12, 31, by decide, by decide, by decide⟩,
      ⟨23, 59, 59, 1500000000, by decide, by decide, by decide, by decide⟩⟩
    let later : DateTime := ⟨leap.date, ⟨23, 59, 59, 1999999999, by decide, by decide, by decide, by decide⟩⟩
    let midnight : DateTime := ⟨⟨2017, 1, 1, by decide, by decide, by decide⟩,
      ClockTime.atSecond 0 0 (by decide)⟩
    ClockFace.at leap display = ClockFace.at later display ∧ leap.time.second = later.time.second ∧
      (∃ hour rest, (1 ≤ hour ∧ hour ≤ 12) ∧
        (ClockFace.at midnight {}).time.toList = Digits.ofNat hour ++ ':' :: rest ∧
        (midnight.time.hour = hour % 12 ∧ (ClockFace.at midnight {}).period = " AM" ∨
          midnight.time.hour = hour % 12 + 12 ∧ (ClockFace.at midnight {}).period = " PM")) ∧
      Date.Next leap.date midnight.date ∧ ∃ day : Weekday,
        (ClockFace.at leap display).dayName = day.name ∧
        (ClockFace.at midnight display).dayName = day.next.name := by
  intro display leap later midnight
  have hface : ClockFace.at leap display = ClockFace.at later display :=
    (at_eq_iff leap later).mpr ⟨rfl, rfl, rfl, rfl, rfl, fun _ => by decide⟩
  have hnext : Date.Next leap.date midnight.date := .nextYear ⟨rfl, rfl⟩ rfl rfl rfl
  obtain ⟨-, hsecond, -, -, hdays⟩ := at_identifies display
  refine ⟨hface, (hsecond leap later hface rfl).resolve_right ?_, (at_identifies {}).2.2.1 rfl midnight,
    hnext, hdays leap midnight hnext⟩
  rintro ⟨-, hstray | hstray⟩
  · exact hstray.2 rfl
  · exact hstray.2 rfl

/-- a leap second on a clock that is thirty seconds ahead looks like the second behind it -/
theorem at_eq_midMinute :
    let display : DisplaySettings := { use24Hour := true }
    let leap : DateTime := ⟨Date.epoch, ⟨0, 1, 29, 1999999999, by decide, by decide, by decide, by decide⟩⟩
    let whole : DateTime := ⟨Date.epoch, ⟨0, 1, 30, 0, by decide, by decide, by decide, by decide⟩⟩
    ((Instant.of? 59 1999999999).bind fun t => t.atOffset? 30) = some leap ∧
      ((Instant.of? 60 0).bind fun t => t.atOffset? 30) = some whole ∧
      ClockFace.at leap display = ClockFace.at whole display ∧
      display.showSeconds = true ∧ leap.time.second ≠ whole.time.second := by
  intro display leap whole
  refine ⟨rfl, rfl, (at_eq_iff leap whole).mpr ?_, rfl, by decide⟩
  exact ⟨rfl, rfl, rfl, rfl, rfl, fun _ => by decide⟩

end ClockFace

end DeskClock
