import DeskClock.CommandLine
import DeskClock.Native.Scripted
import DeskClock.Proofs.Clock.Window
import DeskClock.Proofs.Text.Digits
import DeskClock.Proofs.Window.Rows

/-!
# the frame of the clock on a terminal

* `newline_not_mem_timeLine`, `newline_not_mem_date`   the face is one line each, at any moment;
* `Clock.Legible`      a clock that has its configuration, and a status of one line;
                       `Legible.apply`: whatever happens keeps it;
* `live_columns`       the terminal of a window that is there has the width of the configuration;
* `frame_rows`         what a frame prints, and when its rows are seen as they should be.

The texts of the face and of the status are made by the clock itself. A description of the weather and a
label of an alarm come from elsewhere, and nothing takes the newlines out of them.
-/

namespace DeskClock

open Native

variable {σ τ ω ε : Type}

/-! ## texts of one line -/

namespace ClockFace

theorem newline_not_mem_padded (w n : Nat) : '\n' ∉ Digits.padded w n :=
  Digits.not_mem_of_isDigit rfl (Digits.isDigit_of_mem_padded w n)

theorem newline_not_mem_ofNat (n : Nat) : '\n' ∉ Digits.ofNat n :=
  Digits.not_mem_of_isDigit rfl (Digits.isDigit_of_mem_ofNat n)

variable (now : DateTime) (display : DisplaySettings)

theorem newline_not_mem_timeLine : '\n' ∉ (ClockFace.at now display).timeLine.toList := by
  have htime : '\n' ∉ timeChars now.time display := by
    unfold timeChars twoPlaces
    split
    all_goals
      split
      all_goals simp [newline_not_mem_padded, newline_not_mem_ofNat]
  have hperiod : '\n' ∉ (periodText now.time display).toList := by
    unfold periodText
    split
    · decide
    · split
      · decide
      · decide
  show '\n' ∉ (String.ofList (timeChars now.time display) ++ periodText now.time display).toList
  rw [String.toList_append, String.toList_ofList, List.mem_append]
  exact not_or.mpr ⟨htime, hperiod⟩

theorem newline_not_mem_weekday (day : Weekday) : '\n' ∉ day.name.toList := by
  cases day
  all_goals decide

theorem newline_not_mem_monthName (month : Nat) : '\n' ∉ (Date.monthName month).toList := by
  unfold Date.monthName
  split
  all_goals decide

theorem newline_not_mem_yearText (year : Int) : '\n' ∉ Date.yearText year := by
  unfold Date.yearText
  split
  · simp [newline_not_mem_padded]
  · split
    · exact newline_not_mem_padded _ _
    · simp [newline_not_mem_padded]

theorem newline_not_mem_date : '\n' ∉ (ClockFace.at now display).date.toList := by
  show '\n' ∉ (String.ofList (dateChars now.date)).toList
  rw [String.toList_ofList, dateChars]
  simp [newline_not_mem_weekday, newline_not_mem_monthName, newline_not_mem_ofNat,
    newline_not_mem_yearText]

end ClockFace

theorem newline_not_mem_message (outcome : SetTimeOutcome) : '\n' ∉ outcome.message.toList := by
  cases outcome with
  | success => decide
  | failed status => exact fun h => absurd h (show '\n' ∉ "Setting time has failed".toList by decide)

theorem newline_not_mem_offBy (seconds : Int) :
    '\n' ∉ ("Clock is off by " ++ String.ofList (Digits.ofInt seconds) ++ "s").toList := by
  have hseconds : '\n' ∉ Digits.ofInt seconds := by
    unfold Digits.ofInt
    split
    all_goals simp [ClockFace.newline_not_mem_ofNat]
  simp [hseconds]

namespace Clock

/-! ## the status of a clock -/

/-- a clock with its configuration, and with a status of one line -/
structure Legible (config : Config) (c : Clock σ τ) : Prop where
  config : c.config = config
  status : ∀ text, c.status = some text → '\n' ∉ text.toList

namespace Legible

variable {config : Config} {c c' : Clock σ τ}

theorem new (config : Config) (disk : Disk) (native : Session σ) (surface : τ) :
    Legible config (Clock.new config disk native surface) := by
  refine ⟨rfl, fun text h => ?_⟩
  obtain rfl : "Clock service unavailable" = text := Option.some.inj h
  decide

theorem of_eq (h : Legible config c) (hconfig : c'.config = c.config) (hstatus : c'.status = c.status) :
    Legible config c' :=
  ⟨hconfig.trans h.config, fun text ht => h.status text (hstatus ▸ ht)⟩

theorem of_status (h : Legible config c) {text : String} (hconfig : c'.config = c.config)
    (hstatus : c'.status = some text) (htext : '\n' ∉ text.toList) : Legible config c' := by
  refine ⟨hconfig.trans h.config, fun text' ht => ?_⟩
  obtain rfl : text = text' := Option.some.inj (hstatus.symm.trans ht)
  exact htext

variable (lib : Library σ) (now : Instant)

theorem setMachineTime (h : Legible config c) : Legible config (c.setMachineTime lib) := by
  unfold Clock.setMachineTime
  cases setTime lib c.config.ntp.server c.config.ntp.timeout c.native with
  | mk result native =>
    cases result with
    | ok outcome => exact h.of_status rfl rfl (newline_not_mem_message outcome)
    | error fault => exact h.of_eq rfl rfl

theorem onDrift (h : Legible config c) (seconds : Int) : Legible config (c.onDrift lib seconds) := by
  unfold Clock.onDrift
  split
  · exact h.setMachineTime lib
  · exact h.of_status rfl rfl (newline_not_mem_offBy seconds)

theorem onNtpUpdate (h : Legible config c) (update : NtpUpdate) :
    Legible config (c.onNtpUpdate lib now update) := by
  unfold Clock.onNtpUpdate
  generalize (if update.result = .success then OperationState.success else .error) = state
  have hstate : Legible config { c with ntp := { c.ntp with state } } := h.of_eq rfl rfl
  dsimp only
  cases update.driftFrom now with
  | none => exact hstate
  | some drift =>
    dsimp only
    split
    · exact hstate
    · exact hstate.onDrift lib _

theorem foldl_onNtpUpdate (h : Legible config c) (updates : List NtpUpdate) :
    Legible config (updates.foldl (Clock.onNtpUpdate lib now) c) := by
  induction updates generalizing c with
  | nil => exact h
  | cons u updates ih => exact ih (h.onNtpUpdate lib now u)

theorem pumpNtp (h : Legible config c) : Legible config (c.pumpNtp lib now) := by
  have hcollected : Legible config (c.collectedNtp lib now) := by
    unfold collectedNtp
    split
    · split
      · rw [collectNtp_foldl]
        apply foldl_onNtpUpdate
        exact h.of_eq rfl rfl
      · exact h
    · exact h
  rw [pumpNtp_eq]
  obtain ⟨native, hrequested, -⟩ := requestedNtp_eq lib now (c.collectedNtp lib now)
  rw [hrequested]
  exact hcollected.of_eq rfl rfl

theorem tick (S : Surface τ ε) (offset : Int) (h : Legible config c) :
    Legible config (c.tick lib S now offset).2 := by
  have hntp : Legible config (c.pumpNtp lib now) := h.pumpNtp lib now
  obtain ⟨_, _, _, hweather, -⟩ := pumpWeather_calls lib now (c.pumpNtp lib now)
  have hrest : Legible config ((c.pumpNtp lib now).pumpWeather lib now) := by
    rw [hweather]
    exact hntp.of_eq rfl rfl
  obtain ⟨_, _, _, halarms, -⟩ := refreshAlarm_calls lib now ((c.pumpNtp lib now).pumpWeather lib now)
  obtain ⟨host, htick⟩ := c.tick_eq lib S now offset
  rw [htick, pump, halarms]
  exact hrest.of_eq rfl rfl

theorem attach (h : Legible config c) : Legible config (c.attach lib) := by
  have hnone : Legible config { c with status := none } := ⟨h.config, nofun⟩
  have hsync : Legible config ({ c with status := none }.syncOnStart lib) := by
    unfold syncOnStart
    split
    · exact hnone.setMachineTime lib
    · exact hnone
  obtain ⟨_, _, _, _, hclients, -⟩ :=
    attachClients_eq lib ({ c with status := none }.syncOnStart lib)
  unfold Clock.attach
  dsimp only
  rw [hclients]
  exact hsync.of_eq rfl rfl

/-- whatever happens keeps it -/
theorem apply (S : Surface τ ε) (e : Happening) (h : Legible config c) :
    Legible config (e.apply lib S c) := by
  cases e with
  | ntpReply r => exact h.of_eq rfl rfl
  | weatherReply r => exact h.of_eq rfl rfl
  | step s =>
    cases s with
    | attach => exact h.attach lib
    | start =>
      obtain ⟨host, hstart⟩ := c.start_eq S
      show Legible config (c.start S).2
      rw [hstart]
      exact h.of_eq rfl rfl
    | event e =>
      obtain ⟨host, hevent⟩ := c.handleEvent_eq S e
      show Legible config (c.handleEvent S e).2
      rw [hevent]
      exact h.of_eq rfl rfl
    | shutdown => exact h.of_eq rfl rfl
    | tick now offset => exact h.tick lib now S offset

theorem live (S : Surface τ ε) (life : List Happening) (h : Legible config c) :
    Legible config (c.live lib S life) := by
  induction life generalizing c with
  | nil => exact h
  | cons e life ih => exact ih (h.apply lib S e)

end Legible

/-! ## the rows of a frame -/

section Rows

variable (lib : Library σ) (O : Output ω ε)

/-- the terminal of a window that is there has the width of the configuration -/
theorem live_columns (config : Config) (disk : Disk) (native : Session σ) (t : Terminal ω)
    (life : List Happening) :
    let c := (Clock.new config disk native t).live lib (Terminal.surface O) life
    c.host.window ≠ .closed → c.host.surface.columns = config.window.columns := by
  intro c hopen
  obtain ⟨ops, hops⟩ := (Clock.new config disk native t).live_host lib (Terminal.surface O) life
  have hfitted : c.host.Fitted := by
    show WindowHost.Fitted ((Clock.new config disk native t).live lib (Terminal.surface O) life).host
    rw [hops]
    exact (WindowHost.Fitted.new config.window t).run O ops
  have hoptions : c.host.options = config.window := by
    show ((Clock.new config disk native t).live lib (Terminal.surface O) life).host.options = _
    rw [hops]
    exact WindowHost.options_run (Terminal.surface O) (.new config.window t) ops
  rw [hfitted hopen, hoptions]

/-- a tick on a visible window draws the frame of the clock as it leaves it -/
theorem tick_surface (S : Surface τ ε) (c : Clock σ τ) {now : Instant} {offset : Int}
    {moment : DateTime} (hmoment : now.atOffset? offset = some moment)
    (hvisible : c.host.window = .visible) :
    let drawn := S.call (.draw ((c.tick lib S now offset).2.frame moment)) c.host.surface
    (c.tick lib S now offset).1.isOk = drawn.1.isOk ∧
      (c.tick lib S now offset).2.host.surface = drawn.2 := by
  have hdraw := c.host.draw_eq S ((c.pump lib now).frame moment)
  rw [if_pos hvisible] at hdraw
  dsimp only
  rw [c.tick_isOk lib S hmoment, tick_host, tick_frame, hmoment]
  exact ⟨congrArg Prod.fst hdraw, congrArg (fun answer => answer.2.surface) hdraw⟩

theorem eq_ok_iff_isOk {ε : Type} {result : Except ε Unit} : result = .ok () ↔ result.isOk = true := by
  cases result with
  | ok _ => exact ⟨fun _ => rfl, fun _ => rfl⟩
  | error e => exact ⟨nofun, nofun⟩

theorem length_frame (c : Clock σ τ) (moment : DateTime) :
    (c.frame moment).length = if (c.status.getD "").isEmpty then 5 else 6 := by
  unfold frame DeskClock.frame statusRows
  cases c.status with
  | none => rfl
  | some text =>
    dsimp only [Option.getD_some]
    split
    · rfl
    · rfl

/-- the lines that are made by the clock have no newlines -/
theorem forall_mem_frame (c : Clock σ τ) (moment : DateTime) (columns : Nat) :
    (∀ line ∈ c.frame moment, '\n' ∉ line.toList.take columns) ↔
      ∀ line ∈ weatherRow c.weather.conditions :: alarmRow c.alarms.next :: statusRows c.status,
        '\n' ∉ line.toList.take columns := by
  have htime : '\n' ∉ (ClockFace.at moment c.config.display).timeLine.toList.take columns := fun h =>
    ClockFace.newline_not_mem_timeLine moment c.config.display (List.mem_of_mem_take h)
  have hdate : '\n' ∉ (ClockFace.at moment c.config.display).date.toList.take columns := fun h =>
    ClockFace.newline_not_mem_date moment c.config.display (List.mem_of_mem_take h)
  simp [frame, DeskClock.frame, htime, hdate]

/-- **What a frame prints, and when its rows are seen as they should be.** On any terminal a drawn frame is
printed behind the sequence that clears it: 5 rows, or 6 with a status, none longer than the width. The
newlines that are printed give back these rows, and no others, exactly if no newline stands in what is seen
of the weather, the alarm and the status.

In any life of a clock the status is one line, so that it is the weather and the alarm that decide, and a
tick on a visible window prints the frame in the width of the configuration. -/
theorem frame_rows :
    (∀ (c : Clock σ τ) (moment : DateTime) (t : Terminal (ω × List Char)),
      let face := ClockFace.at moment c.config.display
      let lines := [face.timeLine, face.date, "", weatherRow c.weather.conditions,
        alarmRow c.alarms.next] ++ statusRows c.status
      let rows := lines.map fun line => Terminal.fit t.columns line.toList
      let drawn := (Terminal.surface O.kept).call (.draw (c.frame moment)) t
      (O.TakesAll → drawn.1 = .ok ()) ∧
      (drawn.1 = .ok () →
        drawn.2.out.2 = t.out.2 ++ (Terminal.clearAndHome ++ Terminal.printed rows)) ∧
      rows.length = (if (c.status.getD "").isEmpty then 5 else 6) ∧
      (∀ row ∈ rows, row.length ≤ t.columns) ∧
      ((Terminal.printed rows).splitOn '\n' = rows ++ [[]] ↔
        ∀ line ∈ weatherRow c.weather.conditions :: alarmRow c.alarms.next :: statusRows c.status,
          '\n' ∉ line.toList.take t.columns)) ∧
    ∀ (config : Config) (disk : Disk) (native : Session σ) (out : ω) (life : List Happening),
      let terminal := Terminal.surface O.kept
      let c := (Clock.new config disk native ⟨(out, []), 1⟩).live lib terminal life
      (∀ text, c.status = some text → '\n' ∉ text.toList) ∧
      (c.host.window ≠ .closed → c.host.surface.columns = config.window.columns) ∧
      ∀ now offset moment, now.atOffset? offset = some moment → c.host.window = .visible →
        let ticked := c.tick lib terminal now offset
        let rows := Terminal.rows config.window.columns (ticked.2.frame moment)
        (O.TakesAll → ticked.1 = .ok ()) ∧
        (ticked.1 = .ok () → ticked.2.host.surface.out.2
          = c.host.surface.out.2 ++ (Terminal.clearAndHome ++ Terminal.printed rows)) ∧
        ((Terminal.printed rows).splitOn '\n' = rows ++ [[]] ↔
          '\n' ∉ (weatherRow ticked.2.weather.conditions).toList.take config.window.columns ∧
          '\n' ∉ (alarmRow ticked.2.alarms.next).toList.take config.window.columns) := by
  refine ⟨?_, ?_⟩
  · intro c moment t face lines rows drawn
    have hrows : rows = Terminal.rows t.columns (c.frame moment) := rfl
    refine ⟨fun hO => Terminal.call_ok hO.kept t _, fun hok => ?_, ?_, ?_, ?_⟩
    · rw [hrows]
      exact (Terminal.draw_kept O t (c.frame moment) hok).2
    · rw [hrows, Terminal.rows, List.length_map, length_frame]
    · intro row hrow
      obtain ⟨line, -, rfl⟩ := List.mem_map.mp hrow
      exact Terminal.length_fit_le t.columns line.toList
    · rw [hrows, Terminal.splitOn_rows_iff, forall_mem_frame]
  · intro config disk native out life terminal c
    have hlegible : Legible config c := (Legible.new config disk native _).live lib terminal life
    have hcolumns : c.host.window ≠ .closed → c.host.surface.columns = config.window.columns :=
      live_columns lib O.kept config disk native ⟨(out, []), 1⟩ life
    refine ⟨hlegible.status, hcolumns, fun now offset moment hmoment hvisible => ?_⟩
    intro ticked rows
    have hwidth : c.host.surface.columns = config.window.columns :=
      hcolumns fun hclosed => by simp [hvisible] at hclosed
    obtain ⟨hresult, hsurface⟩ := tick_surface lib terminal c hmoment hvisible
    refine ⟨fun hO => ?_, fun hok => ?_, ?_⟩
    · rw [eq_ok_iff_isOk, hresult, ← eq_ok_iff_isOk]
      exact Terminal.call_ok hO.kept c.host.surface _
    · have hdrawn := eq_ok_iff_isOk.mpr (hresult.symm.trans (eq_ok_iff_isOk.mp hok))
      rw [hsurface, (Terminal.draw_kept O c.host.surface _ hdrawn).2, hwidth]
    · -- the status is one line, also after this tick
      have hstatus : ∀ line ∈ statusRows ticked.2.status, '\n' ∉ line.toList.take config.window.columns := by
        have hticked : Legible config ticked.2 := hlegible.tick lib now terminal offset
        intro line hline hmem
        unfold statusRows at hline
        split at hline
        · next status htext =>
          split at hline
          · simp at hline
          · rw [List.mem_singleton.mp hline] at hmem
            exact hticked.status status htext (List.mem_of_mem_take hmem)
        · simp at hline
      rw [Terminal.splitOn_rows_iff, forall_mem_frame, List.forall_mem_cons, List.forall_mem_cons]
      exact ⟨fun h => ⟨h.1, h.2.1⟩, fun h => ⟨h.1, h.2, hstatus⟩⟩

end Rows

/-- a description of two lines takes two of the six rows that the five lines of the frame take -/
theorem frame_rows_twoLines :
    let rain : WeatherRecord := ⟨.ofNat 43, .ofNat 50, .ofNat 38, terminated? "light\nrain"⟩
    let knobs : Scripted.Knobs := { ntpReplies := [], weatherReplies := [{ code := 0, record := some rain }] }
    let terminal := Terminal.surface CommandLine.buffer.kept
    let c := (Clock.new { weather := { apiKey := "k" } } .empty (Session.new { knobs }) ⟨([], []), 1⟩).live
      Scripted.library terminal [.step .attach, .step .start, .step (.tick .epoch 0)]
    let ticked := c.tick Scripted.library terminal .epoch 0
    c.host.window = .visible ∧ ticked.1.isOk = true ∧ (ticked.2.status.getD "").isEmpty = true ∧
      ticked.2.host.surface.out.2.count '\n' = c.host.surface.out.2.count '\n' + 6 := by
  decide +kernel

end Clock

end DeskClock
