import DeskClock.Proofs.Config.Layout

/-!
# settings with some names

* `NtpSettings.only` and its like      the settings with some names, with the defaults for the others;
* `Holds`                              a table has the settings with some names, among those of a section;
* `NtpSettings.ofToml?_only` and its like   such a table is read as these settings;
* `AlarmSettings.ofToml?_only`         an alarm is read where its name and its time are given.
-/

namespace DeskClock

open Toml Toml.Fields

def LibrarySettings.only (s : LibrarySettings) (names : List String) : LibrarySettings :=
  let base : LibrarySettings := {}
  { path := if "path" ∈ names then s.path else base.path }

def NtpSettings.only (s : NtpSettings) (names : List String) : NtpSettings :=
  let base : NtpSettings := {}
  { server := if "server" ∈ names then s.server else base.server
    timeoutSecs := if "timeout_secs" ∈ names then s.timeoutSecs else base.timeoutSecs
    checkIntervalSecs := if "check_interval_secs" ∈ names then s.checkIntervalSecs else base.checkIntervalSecs
    maxDriftSecs := if "max_drift_secs" ∈ names then s.maxDriftSecs else base.maxDriftSecs
    applyCorrection := if "apply_correction" ∈ names then s.applyCorrection else base.applyCorrection
    syncOnStart := if "sync_on_start" ∈ names then s.syncOnStart else base.syncOnStart }

def WeatherSettings.only (s : WeatherSettings) (names : List String) : WeatherSettings :=
  let base : WeatherSettings := {}
  { apiKey := if "api_key" ∈ names then s.apiKey else base.apiKey
    units := if "units" ∈ names then s.units else base.units
    latitude := if "latitude" ∈ names then s.latitude else base.latitude
    longitude := if "longitude" ∈ names then s.longitude else base.longitude
    refreshMinutes := if "refresh_minutes" ∈ names then s.refreshMinutes else base.refreshMinutes
    timeoutSecs := if "timeout_secs" ∈ names then s.timeoutSecs else base.timeoutSecs
    cachePath := if "cache_path" ∈ names then s.cachePath else base.cachePath
    cacheTtlMinutes := if "cache_ttl_minutes" ∈ names then s.cacheTtlMinutes else base.cacheTtlMinutes }

def WindowSettings.only (s : WindowSettings) (names : List String) : WindowSettings :=
  let base : WindowSettings := {}
  { title := if "title" ∈ names then s.title else base.title
    width := if "width" ∈ names then s.width else base.width
    height := if "height" ∈ names then s.height else base.height
    x := if "x" ∈ names then s.x else base.x
    y := if "y" ∈ names then s.y else base.y
    resizable := if "resizable" ∈ names then s.resizable else base.resizable
    hideTitleBar := if "hide_title_bar" ∈ names then s.hideTitleBar else base.hideTitleBar }

def DisplaySettings.only (s : DisplaySettings) (names : List String) : DisplaySettings :=
  let base : DisplaySettings := {}
  { use24Hour := if "use_24_hour" ∈ names then s.use24Hour else base.use24Hour
    showSeconds := if "show_seconds" ∈ names then s.showSeconds else base.showSeconds
    tickMillis := if "tick_millis" ∈ names then s.tickMillis else base.tickMillis }

theorem LibrarySettings.only_nil (s : LibrarySettings) : s.only [] = {} := by simp [only]
theorem NtpSettings.only_nil (s : NtpSettings) : s.only [] = {} := by simp [only]
theorem WeatherSettings.only_nil (s : WeatherSettings) : s.only [] = {} := by simp [only]
theorem WindowSettings.only_nil (s : WindowSettings) : s.only [] = {} := by simp [only]
theorem DisplaySettings.only_nil (s : DisplaySettings) : s.only [] = {} := by simp [only]

/-- an alarm has its name and its time always -/
def AlarmSettings.only (alarm : AlarmSettings) (names : List String) : AlarmSettings :=
  { name := alarm.name
    time := alarm.time
    days := if "days" ∈ names then alarm.days else []
    sound := if "sound" ∈ names then alarm.sound else none }

/-- the entries of a table are those of its settings that have some names -/
def Holds (keys names : List String) (given : List Assignment) (entries : List (String × Toml)) : Prop :=
  ∀ n ∈ keys, entries.lookup n = if n ∈ names then (entriesOf given).lookup n else none

section

variable {names : List String} {entries : List (String × Toml)}

theorem Toml.text?_string (text : String) : (Toml.string text).text? = some text := rfl
theorem Toml.boolean?_boolean (b : Bool) : (Toml.boolean b).boolean? = some b := rfl
theorem Toml.number?_float (x : Binary64) : (Toml.float x).number? = some x := rfl

theorem optional_only {α : Type} {read : Toml → Option α} {name : String} {v : Toml} {a : α} (place : Nat)
    (hr : read v = some a) (h : entries.lookup name = if name ∈ names then some v else none) (default : α) :
    (Fields.named entries).optional place name read default = some (if name ∈ names then a else default) := by
  by_cases hn : name ∈ names
  · rw [if_pos hn] at h ⊢
    exact optional_eq (.named entries) place name read h hr default
  · rw [if_neg hn] at h ⊢
    exact optional_default (.named entries) place name read h default

theorem LibrarySettings.ofToml?_only (s : LibrarySettings)
    (h : Holds Section.library.keys names s.assignments entries) :
    LibrarySettings.ofToml? (.table entries) = some (s.only names) := by
  have h0 := optional_only 0 (text?_string s.path) (h "path" (by decide))
  simp only [LibrarySettings.ofToml?, LibrarySettings.only, fields?, Option.bind_eq_bind, Option.bind_some,
    Option.pure_def, h0]

theorem NtpSettings.ofToml?_only (s : NtpSettings)
    (h : Holds Section.ntp.keys names s.assignments entries) :
    NtpSettings.ofToml? (.table entries) = some (s.only names) := by
  have h0 := optional_only 0 (text?_string s.server) (h "server" (by decide))
  have h1 := optional_only 1 (uint64?_ofUInt64 s.timeoutSecs) (h "timeout_secs" (by decide))
  have h2 := optional_only 2 (uint64?_ofUInt64 s.checkIntervalSecs) (h "check_interval_secs" (by decide))
  have h3 := optional_only 3 (int64?_toInt s.maxDriftSecs) (h "max_drift_secs" (by decide))
  have h4 := optional_only 4 (boolean?_boolean s.applyCorrection) (h "apply_correction" (by decide))
  have h5 := optional_only 5 (boolean?_boolean s.syncOnStart) (h "sync_on_start" (by decide))
  simp only [NtpSettings.ofToml?, NtpSettings.only, fields?, Option.bind_eq_bind, Option.bind_some,
    Option.pure_def, h0, h1, h2, h3, h4, h5]

theorem WeatherSettings.ofToml?_only (s : WeatherSettings)
    (h : Holds Section.weather.keys names s.assignments entries) :
    WeatherSettings.ofToml? (.table entries) = some (s.only names) := by
  have h0 := optional_only 0 (text?_string s.apiKey) (h "api_key" (by decide))
  have h1 := optional_only 1 (unit?_name s.units) (h "units" (by decide))
  have h2 := optional_only 2 (number?_float s.latitude) (h "latitude" (by decide))
  have h3 := optional_only 3 (number?_float s.longitude) (h "longitude" (by decide))
  have h4 := optional_only 4 (uint64?_ofUInt64 s.refreshMinutes) (h "refresh_minutes" (by decide))
  have h5 := optional_only 5 (uint64?_ofUInt64 s.timeoutSecs) (h "timeout_secs" (by decide))
  have h6 := optional_only 6 (text?_string s.cachePath) (h "cache_path" (by decide))
  have h7 := optional_only 7 (uint64?_ofUInt64 s.cacheTtlMinutes) (h "cache_ttl_minutes" (by decide))
  simp only [WeatherSettings.ofToml?, WeatherSettings.only, fields?, Option.bind_eq_bind, Option.bind_some,
    Option.pure_def, h0, h1, h2, h3, h4, h5, h6, h7]

theorem WindowSettings.ofToml?_only (s : WindowSettings)
    (h : Holds Section.window.keys names s.assignments entries) :
    WindowSettings.ofToml? (.table entries) = some (s.only names) := by
  have h0 := optional_only 0 (text?_string s.title) (h "title" (by decide))
  have h1 := optional_only 1 (uint32?_ofUInt32 s.width) (h "width" (by decide))
  have h2 := optional_only 2 (uint32?_ofUInt32 s.height) (h "height" (by decide))
  have h3 := optional_only 3 (int32?_toInt s.x) (h "x" (by decide))
  have h4 := optional_only 4 (int32?_toInt s.y) (h "y" (by decide))
  have h5 := optional_only 5 (boolean?_boolean s.resizable) (h "resizable" (by decide))
  have h6 := optional_only 6 (boolean?_boolean s.hideTitleBar) (h "hide_title_bar" (by decide))
  simp only [WindowSettings.ofToml?, WindowSettings.only, fields?, Option.bind_eq_bind, Option.bind_some,
    Option.pure_def, h0, h1, h2, h3, h4, h5, h6]

theorem DisplaySettings.ofToml?_only (s : DisplaySettings)
    (h : Holds Section.display.keys names s.assignments entries) :
    DisplaySettings.ofToml? (.table entries) = some (s.only names) := by
  have h0 := optional_only 0 (boolean?_boolean s.use24Hour) (h "use_24_hour" (by decide))
  have h1 := optional_only 1 (boolean?_boolean s.showSeconds) (h "show_seconds" (by decide))
  have h2 := optional_only 2 (uint64?_ofUInt64 s.tickMillis) (h "tick_millis" (by decide))
  simp only [DisplaySettings.ofToml?, DisplaySettings.only, fields?, Option.bind_eq_bind, Option.bind_some,
    Option.pure_def, h0, h1, h2]

theorem required_only {α : Type} {read : Toml → Option α} {name : String} {v : Toml} {a : α} (place : Nat)
    (hr : read v = some a) (h : entries.lookup name = if name ∈ names then some v else none) :
    (Fields.named entries).required place name read = if name ∈ names then some a else none := by
  show (entries.lookup name).bind read = _
  rw [h]
  split
  · exact hr
  · rfl

theorem AlarmSettings.sound_only (alarm : AlarmSettings)
    (h : Holds AlarmSettings.keys names alarm.assignments entries) :
    (Fields.named entries).optional 3 "sound" (fun v => v.text?.map some) none
      = some (if "sound" ∈ names then alarm.sound else none) := by
  have hsound := h "sound" (by decide)
  obtain ⟨name, time, days, sound⟩ := alarm
  cases sound with
  | some sound =>
    have hread : (Toml.string sound).text?.map some = some (some sound) := rfl
    exact optional_only 3 hread hsound none
  | none =>
    have hnone : entries.lookup "sound" = none := by
      rw [hsound]
      exact ite_self none
    rw [optional_default (.named entries) 3 "sound" _ hnone none, ite_self]

/-- **An alarm is read where its name and its time are given**, without days and a sound where those
are not. -/
theorem AlarmSettings.ofToml?_only (alarm : AlarmSettings)
    (h : Holds AlarmSettings.keys names alarm.assignments entries) :
    AlarmSettings.ofToml? (.table entries)
      = if "name" ∈ names ∧ "time" ∈ names then some (alarm.only names) else none := by
  have hdays : (Toml.array (alarm.days.map fun day => .string day.shortName)).list? weekday?
      = some alarm.days := mapM_map weekday?_shortName alarm.days
  have h0 := required_only 0 (text?_string alarm.name) (h "name" (by decide))
  have h1 := required_only 1 (time?_text alarm.time) (h "time" (by decide))
  have h2 := optional_only 2 hdays (h "days" (by decide))
  have h3 := alarm.sound_only h
  by_cases hname : "name" ∈ names
  · by_cases htime : "time" ∈ names
    · rw [if_pos hname] at h0
      rw [if_pos htime] at h1
      rw [if_pos ⟨hname, htime⟩]
      simp only [AlarmSettings.ofToml?, AlarmSettings.only, fields?, Option.bind_eq_bind, Option.bind_some,
        Option.pure_def, h0, h1, h2, h3]
    · rw [if_pos hname] at h0
      rw [if_neg htime] at h1
      rw [if_neg (fun hboth => htime hboth.2)]
      simp only [AlarmSettings.ofToml?, fields?, Option.bind_eq_bind, Option.bind_some, Option.bind_none,
        h0, h1]
  · rw [if_neg hname] at h0
    rw [if_neg (fun hboth => hname hboth.1)]
    simp only [AlarmSettings.ofToml?, fields?, Option.bind_eq_bind, Option.bind_some, Option.bind_none, h0]

end

end DeskClock
