import DeskClock.Frame
import DeskClock.Proofs.TimeOfDay

/-!
# what a frame shows

A row is written from left to right, and can be read so: a temperature ends where its unit starts, with a
space or a degree sign; a day starts with one space, and what is not a day with two; a free text goes on to
the end of the row.

* `append_cons_inj`        a text in front of a mark that it does not have is told from the rest;
* `Temperature.chars_append_inj`   a temperature is told from what stands behind it, with its unit;
* `Weekday.chars_append_spaced_inj`   the days of an alarm are told from its label;
* `Conditions.LooksLike`, `Alarm.LooksLike`   all that a row shows of the weather, of an alarm;
* `weatherRow_eq_iff`, `alarmRow_eq_iff`   two rows are one exactly if they show the same;
* `frame_eq_iff`           and so are two frames.
-/

namespace DeskClock

/-! ## texts one behind the other -/

/-- a text ends where the first mark of an end stands behind it -/
theorem append_cons_inj {isEnd : Char → Bool} {cs cs' rest rest' : List Char} {c c' : Char}
    (hcs : ∀ x ∈ cs, isEnd x = false) (hcs' : ∀ x ∈ cs', isEnd x = false) (hc : isEnd c = true)
    (hc' : isEnd c' = true) (h : cs ++ c :: rest = cs' ++ c' :: rest') :
    cs = cs' ∧ c :: rest = c' :: rest' := by
  induction cs generalizing cs' with
  | nil =>
    cases cs' with
    | nil => exact ⟨rfl, h⟩
    | cons x' cs' =>
      obtain ⟨rfl, -⟩ := List.cons.inj h
      rw [hcs' c List.mem_cons_self] at hc
      cases hc
  | cons x cs ih =>
    cases cs' with
    | nil =>
      obtain ⟨rfl, -⟩ := List.cons.inj h
      rw [hcs x List.mem_cons_self] at hc'
      cases hc'
    | cons x' cs' =>
      obtain ⟨rfl, htail⟩ := List.cons.inj h
      obtain ⟨rfl, hrest⟩ := ih (fun y hy => hcs y (List.mem_cons_of_mem x hy))
        (fun y hy => hcs' y (List.mem_cons_of_mem x hy)) htail
      exact ⟨rfl, hrest⟩

/-- a free text at the end of a row, with two spaces in front unless it is empty -/
def spaced (text : String) : List Char := if text.isEmpty then [] else ' ' :: ' ' :: text.toList

theorem toList_spaced (text : String) :
    (if text.isEmpty then "" else "  " ++ text).toList = spaced text := by
  unfold spaced
  split
  · rfl
  · rw [String.toList_append]
    rfl

theorem spaced_inj {text text' : String} (h : spaced text = spaced text') : text = text' := by
  unfold spaced at h
  split_ifs at h with ht ht' ht'
  · rw [String.isEmpty_iff.mp ht, String.isEmpty_iff.mp ht']
  · exact String.toList_inj.mp (List.cons.inj (List.cons.inj h).2).2

/-! ## temperatures -/

namespace Temperature

theorem mem_degrees {value : Binary64} {c : Char} (h : c ∈ degrees value) :
    c.isDigit = true ∨ c ∈ ['-', 'N', 'a', 'i', 'n', 'f'] := by
  cases value with
  | nan negative =>
    have hword : ∀ c ∈ ['N', 'a', 'N'], c ∈ ['-', 'N', 'a', 'i', 'n', 'f'] := by simp
    exact .inr (hword c h)
  | infinite negative =>
    have hword : ∀ c ∈ ['-', 'i', 'n', 'f'], c ∈ ['-', 'N', 'a', 'i', 'n', 'f'] := by simp
    cases negative with
    | true => exact .inr (hword c h)
    | false => exact .inr (hword c (List.mem_cons_of_mem '-' h))
  | finite negative rank =>
    rcases List.mem_append.mp h with h | h
    · cases negative with
      | true => exact .inr (List.mem_append_left _ h)
      | false => cases h
    · exact .inl (Digits.isDigit_of_mem_ofNat _ c h)

/-- the first character of a unit -/
def isUnitStart (c : Char) : Bool := c = ' ' || c = '°'

theorem isUnitStart_of_mem_degrees {value : Binary64} : ∀ c ∈ degrees value, isUnitStart c = false := by
  have hword : ∀ c ∈ ['-', 'N', 'a', 'i', 'n', 'f'], isUnitStart c = false := by
    simp [isUnitStart]
  intro c hc
  rcases mem_degrees hc with h | h
  · by_contra hunit
    rw [Bool.not_eq_false, isUnitStart, Bool.or_eq_true, decide_eq_true_eq, decide_eq_true_eq] at hunit
    rcases hunit with rfl | rfl
    · cases h
    · cases h
  · exact hword c h

/-- the characters of a temperature -/
def chars (value : Binary64) (unit : TemperatureUnit) : List Char := degrees value ++ unit.symbol.toList

theorem toList_text (value : Binary64) (unit : TemperatureUnit) :
    (text value unit).toList = chars value unit := by
  rw [text, String.toList_append, String.toList_ofList, chars]

/-- a unit has two characters, the first of which does not stand in a number -/
theorem symbol_cases (unit : TemperatureUnit) :
    ∃ c c', unit.symbol.toList = [c, c'] ∧ isUnitStart c = true := by
  cases unit with
  | kelvin => exact ⟨' ', 'K', rfl, rfl⟩
  | celsius => exact ⟨'°', 'C', rfl, rfl⟩
  | fahrenheit => exact ⟨'°', 'F', rfl, rfl⟩

end Temperature

theorem TemperatureUnit.symbol_inj {unit unit' : TemperatureUnit} (h : unit.symbol = unit'.symbol) :
    unit = unit' := by
  cases unit <;> cases unit' <;> first | rfl | exact absurd h (by decide)

namespace Temperature

/-- **A temperature is told from what stands behind it.** -/
theorem chars_append_inj {value value' : Binary64} {unit unit' : TemperatureUnit} {rest rest' : List Char}
    (h : chars value unit ++ rest = chars value' unit' ++ rest') :
    text value unit = text value' unit' ∧ unit = unit' ∧ rest = rest' := by
  obtain ⟨c, d, hunit, hstart⟩ := symbol_cases unit
  obtain ⟨c', d', hunit', hstart'⟩ := symbol_cases unit'
  rw [chars, chars, hunit, hunit', List.append_assoc, List.append_assoc] at h
  obtain ⟨hdegrees, hbehind⟩ := append_cons_inj isUnitStart_of_mem_degrees isUnitStart_of_mem_degrees
    hstart hstart' h
  have hsymbols : [c, d] ++ rest = [c', d'] ++ rest' := hbehind
  obtain ⟨hsymbol, hrest⟩ := List.append_inj hsymbols rfl
  have hsame : unit = unit' :=
    TemperatureUnit.symbol_inj (String.toList_inj.mp (by rw [hunit, hunit', hsymbol]))
  exact ⟨by rw [text, text, hdegrees, hsame], hsame, hrest⟩

end Temperature

/-! ## the row of the weather -/

/-- all that a row shows of the weather -/
structure Conditions.LooksLike (c c' : Conditions) : Prop where
  temperature : Temperature.text c.temperature c.unit = Temperature.text c'.temperature c'.unit
  high : Temperature.text c.high c.unit = Temperature.text c'.high c'.unit
  low : Temperature.text c.low c.unit = Temperature.text c'.low c'.unit
  unit : c.unit = c'.unit
  description : c.description = c'.description

namespace Conditions

theorem toList_line (c : Conditions) : c.line.toList =
    Temperature.chars c.temperature c.unit ++ (' ' :: ' ' :: 'H' :: ' ' ::
      (Temperature.chars c.high c.unit ++ (' ' :: ' ' :: 'L' :: ' ' ::
        (Temperature.chars c.low c.unit ++ spaced c.description)))) := by
  have hhigh : "  H ".toList = [' ', ' ', 'H', ' '] := rfl
  have hlow : "  L ".toList = [' ', ' ', 'L', ' '] := rfl
  simp only [line, String.toList_append, Temperature.toList_text, toList_spaced, hhigh, hlow,
    List.append_assoc, List.cons_append, List.nil_append]

theorem line_eq_iff (c c' : Conditions) : c.line = c'.line ↔ c.LooksLike c' := by
  constructor
  · intro h
    have hchars := congrArg String.toList h
    rw [toList_line, toList_line] at hchars
    obtain ⟨htemperature, hunit, hbehind⟩ := Temperature.chars_append_inj hchars
    simp only [List.cons.injEq, true_and] at hbehind
    obtain ⟨hhigh, -, hbehind⟩ := Temperature.chars_append_inj hbehind
    simp only [List.cons.injEq, true_and] at hbehind
    obtain ⟨hlow, -, hbehind⟩ := Temperature.chars_append_inj hbehind
    exact ⟨htemperature, hhigh, hlow, hunit, spaced_inj hbehind⟩
  · intro h
    rw [line, line, h.temperature, h.high, h.low, h.description]

/-- a number does not start like the text for no weather -/
theorem line_ne_unavailable (c : Conditions) : c.line ≠ "Weather unavailable" := by
  intro h
  have hchars := congrArg String.toList h
  obtain ⟨x, x', hunit, hstart⟩ := Temperature.symbol_cases c.unit
  have htext : "Weather unavailable".toList = "Weather".toList ++ ' ' :: "unavailable".toList := rfl
  have hword : ∀ x ∈ "Weather".toList, Temperature.isUnitStart x = false := by
    simp [Temperature.isUnitStart]
  rw [toList_line, Temperature.chars, hunit, List.append_assoc, htext] at hchars
  obtain ⟨hdegrees, -⟩ :=
    append_cons_inj Temperature.isUnitStart_of_mem_degrees hword hstart rfl hchars
  have hmem : 'W' ∈ Temperature.degrees c.temperature := by
    rw [hdegrees]
    exact List.mem_cons_self
  rcases Temperature.mem_degrees hmem with h | h
  · cases h
  · simp at h

end Conditions

theorem weatherRow_eq_iff (weather weather' : Option Conditions) :
    weatherRow weather = weatherRow weather' ↔ Option.Rel Conditions.LooksLike weather weather' := by
  cases weather with
  | none =>
    cases weather' with
    | none => exact iff_of_true rfl .none
    | some c' => exact iff_of_false (fun h => c'.line_ne_unavailable h.symm) nofun
  | some c =>
    cases weather' with
    | none => exact iff_of_false c.line_ne_unavailable nofun
    | some c' =>
      rw [Option.rel_some_some]
      exact c.line_eq_iff c'

/-! ## the row of the alarm -/

/-- all that a row shows of an alarm -/
structure Alarm.LooksLike (a a' : Alarm) : Prop where
  time : a.time = a'.time
  days : ∀ day, a.days.includes day = a'.days.includes day
  label : a.label = a'.label

namespace Weekday

/-- a name has three letters, and does not start with a space -/
theorem shortName_cases (day : Weekday) :
    ∃ a b c, day.shortName.toList = [a, b, c] ∧ a ≠ ' ' := by
  cases day
  all_goals exact ⟨_, _, _, rfl, by decide⟩

theorem shortName_inj {day day' : Weekday} (h : day.shortName = day'.shortName) : day = day' := by
  cases day <;> cases day' <;> first | rfl | exact absurd h (by decide)

/-- days as they are shown, each with a space in front -/
def chars (days : List Weekday) : List Char := days.flatMap fun day => ' ' :: day.shortName.toList

theorem chars_cons_append (day : Weekday) (days : List Weekday) (rest : List Char) :
    chars (day :: days) ++ rest = (' ' :: day.shortName.toList) ++ (chars days ++ rest) := by
  rw [chars, List.flatMap_cons, List.append_assoc]
  rfl

/-- a day has one space in front, and a label has two -/
theorem day_append_ne_spaced (day : Weekday) (rest : List Char) (label : String) :
    (' ' :: day.shortName.toList) ++ rest ≠ spaced label := by
  intro h
  obtain ⟨a, b, c, hname, ha⟩ := day.shortName_cases
  rw [hname, spaced] at h
  split_ifs at h
  · cases h
  · exact ha (List.cons.inj (List.cons.inj h).2).1

/-- **The days of an alarm are told from its label**, whatever the label is. -/
theorem chars_append_spaced_inj {days days' : List Weekday} {label label' : String}
    (h : chars days ++ spaced label = chars days' ++ spaced label') : days = days' ∧ label = label' := by
  induction days generalizing days' with
  | nil =>
    cases days' with
    | nil => exact ⟨rfl, spaced_inj h⟩
    | cons day' days' =>
      rw [chars_cons_append] at h
      exact absurd h.symm (day_append_ne_spaced day' _ label)
  | cons day days ih =>
    cases days' with
    | nil =>
      rw [chars_cons_append] at h
      exact absurd h (day_append_ne_spaced day _ label')
    | cons day' days' =>
      rw [chars_cons_append, chars_cons_append] at h
      obtain ⟨a, b, c, hname, -⟩ := day.shortName_cases
      obtain ⟨a', b', c', hname', -⟩ := day'.shortName_cases
      have hlength : (' ' :: day.shortName.toList).length = (' ' :: day'.shortName.toList).length := by
        rw [hname, hname']
        rfl
      obtain ⟨hfirst, hrest⟩ := List.append_inj h hlength
      obtain ⟨rfl, hlabel⟩ := ih hrest
      exact ⟨by rw [shortName_inj (String.toList_inj.mp (List.cons.inj hfirst).2)], hlabel⟩

theorem mem_all (day : Weekday) : day ∈ all := by
  cases day <;> decide

end Weekday

theorem Weekdays.toList_eq_iff (days days' : Weekdays) :
    days.toList = days'.toList ↔ ∀ day, days.includes day = days'.includes day := by
  constructor
  · intro h day
    have hmem : ∀ days : Weekdays, day ∈ days.toList ↔ days.includes day = true := fun days => by
      rw [toList, List.mem_filter, and_iff_right day.mem_all]
    rw [Bool.eq_iff_iff, ← hmem, ← hmem, h]
  · intro h
    exact List.filter_congr fun day _ => h day

namespace Alarm

theorem toList_days (days : List Weekday) :
    (if (days.map Weekday.shortName).isEmpty then ""
      else " " ++ " ".intercalate (days.map Weekday.shortName)).toList = Weekday.chars days := by
  cases days with
  | nil => rfl
  | cons day days =>
    show (" " ++ " ".intercalate (day.shortName :: days.map Weekday.shortName)).toList = _
    rw [String.toList_append]
    induction days generalizing day with
    | nil => simp [Weekday.chars]
    | cons day' days ih =>
      have hrest := ih day'
      rw [List.map_cons, String.intercalate_cons_cons, String.toList_append, String.toList_append,
        List.append_assoc, hrest]
      rfl

theorem toList_line (a : Alarm) : a.line.toList = "Alarm ".toList ++
    (a.time.text.toList ++ (Weekday.chars a.days.toList ++ spaced a.label)) := by
  rw [line, Weekdays.shortNames]
  simp only [String.toList_append, toList_days, toList_spaced, List.append_assoc]

theorem line_eq_iff (a a' : Alarm) : a.line = a'.line ↔ a.LooksLike a' := by
  constructor
  · intro h
    have hchars := congrArg String.toList h
    rw [toList_line, toList_line] at hchars
    have hlength := a.time.length_text.trans a'.time.length_text.symm
    obtain ⟨htime, hbehind⟩ := List.append_inj (List.append_cancel_left hchars) hlength
    obtain ⟨hdays, hlabel⟩ := Weekday.chars_append_spaced_inj hbehind
    exact ⟨TimeOfDay.text_inj (String.toList_inj.mp htime), (Weekdays.toList_eq_iff _ _).mp hdays, hlabel⟩
  · intro h
    rw [line, line, Weekdays.shortNames, Weekdays.shortNames, h.time, h.label,
      (Weekdays.toList_eq_iff a.days a'.days).mpr h.days]

theorem line_ne_none_scheduled (a : Alarm) : a.line ≠ "No alarms scheduled" := by
  intro h
  have hchars := congrArg String.toList h
  rw [toList_line] at hchars
  cases (List.cons.inj hchars).1

end Alarm

theorem alarmRow_eq_iff (alarm alarm' : Option Alarm) :
    alarmRow alarm = alarmRow alarm' ↔ Option.Rel Alarm.LooksLike alarm alarm' := by
  cases alarm with
  | none =>
    cases alarm' with
    | none => exact iff_of_true rfl .none
    | some a' => exact iff_of_false (fun h => a'.line_ne_none_scheduled h.symm) nofun
  | some a =>
    cases alarm' with
    | none => exact iff_of_false a.line_ne_none_scheduled nofun
    | some a' =>
      rw [Option.rel_some_some]
      exact a.line_eq_iff a'

/-! ## the frame -/

/-- an empty status counts as none -/
theorem statusRows_eq (status : Option String) :
    statusRows status = (status.filter fun text => !text.isEmpty).toList := by
  cases status with
  | none => rfl
  | some text =>
    rw [statusRows, Option.filter]
    cases text.isEmpty with
    | true => rfl
    | false => rfl

theorem statusRows_eq_iff (status status' : Option String) : statusRows status = statusRows status' ↔
    status.filter (fun text => !text.isEmpty) = status'.filter (fun text => !text.isEmpty) := by
  rw [statusRows_eq, statusRows_eq]
  constructor
  · intro h
    have hhead := congrArg List.head? h
    rwa [Option.head?_toList, Option.head?_toList] at hhead
  · intro h
    rw [h]

/-- **A frame shows its contents faithfully.** Two frames are one exactly if their times and dates are,
both show weather that looks alike or both none, both an alarm that looks alike or both none, and both the
same status or none, whatever the texts among them are. -/
theorem frame_eq_iff (face face' : ClockFace) (weather weather' : Option Conditions)
    (alarm alarm' : Option Alarm) (status status' : Option String) :
    frame face weather alarm status = frame face' weather' alarm' status' ↔
      face.timeLine = face'.timeLine ∧ face.date = face'.date ∧
      Option.Rel Conditions.LooksLike weather weather' ∧ Option.Rel Alarm.LooksLike alarm alarm' ∧
      status.filter (fun text => !text.isEmpty) = status'.filter (fun text => !text.isEmpty) := by
  rw [← weatherRow_eq_iff, ← alarmRow_eq_iff, ← statusRows_eq_iff]
  simp only [frame, List.cons_append, List.nil_append, List.cons.injEq, true_and]

end DeskClock
