import DeskClock.Config.Document
import DeskClock.Proofs.TimeOfDay
import DeskClock.Proofs.Toml.Table

/-!
# the table of a configuration

* `Config.table`          the entries of the table that the document of a configuration defines;
* `Config.root?_document` they are what the document defines;
* `Config.ofTable?_table` the configuration of that table is the one it was made from.
-/

namespace DeskClock

/-! ## single values -/

namespace Toml

theorem uint64?_ofUInt64 (n : UInt64) : (ofUInt64 n).uint64? = some n := by
  have h := n.toNat_lt
  have hr : (0 : Int) ≤ n.toNat ∧ (n.toNat : Int) ≤ 18446744073709551615 := by omega
  rw [uint64?, ofUInt64, integerIn?, if_pos hr]
  show some (UInt64.ofNat n.toNat) = some n
  rw [UInt64.ofNat_toNat]

theorem uint32?_ofUInt32 (n : UInt32) : (ofUInt32 n).uint32? = some n := by
  have h := n.toNat_lt
  have hr : (0 : Int) ≤ n.toNat ∧ (n.toNat : Int) ≤ 4294967295 := by omega
  rw [uint32?, ofUInt32, integerIn?, if_pos hr]
  show some (UInt32.ofNat n.toNat) = some n
  rw [UInt32.ofNat_toNat]

theorem int64?_toInt (n : Int64) : (integer n.toInt).int64? = some n := by
  have h1 := n.le_toInt
  have h2 := n.toInt_lt
  have hr : -9223372036854775808 ≤ n.toInt ∧ n.toInt ≤ 9223372036854775807 := by omega
  rw [int64?, integerIn?, if_pos hr]
  show some (Int64.ofInt n.toInt) = some n
  rw [Int64.ofInt_toInt]

theorem int32?_toInt (n : Int32) : (integer n.toInt).int32? = some n := by
  have h1 := n.le_toInt
  have h2 := n.toInt_lt
  have hr : -2147483648 ≤ n.toInt ∧ n.toInt ≤ 2147483647 := by omega
  rw [int32?, integerIn?, if_pos hr]
  show some (Int32.ofInt n.toInt) = some n
  rw [Int32.ofInt_toInt]

theorem unit?_name (unit : TemperatureUnit) : (string unit.name).unit? = some unit := by
  cases unit <;> rfl

theorem weekday?_shortName (day : Weekday) : (string day.shortName).weekday? = some day := by
  cases day <;> rfl

theorem time?_text (t : TimeOfDay) : (string t.text).time? = some t := by
  show (TimeOfDay.parse t.text).toOption = some t
  rw [TimeOfDay.parse_text]
  rfl

theorem mapM_map {α : Type} {write : α → Toml} {read : Toml → Option α}
    (h : ∀ a, read (write a) = some a) (as : List α) : (as.map write).mapM read = some as := by
  induction as with
  | nil => rfl
  | cons a as ih =>
    rw [List.map_cons, List.mapM_cons, h, ih]
    rfl

end Toml

open Toml

/-! ## sections

The fields of each section are found by their names in the entries that were made from them. -/

namespace Toml.Fields

variable {α : Type} (fields : Fields) (place : Nat) (name : String) (read : Toml → Option α)
  {v : Toml} {a : α}

theorem required_eq (h : fields.get? place name = some v) (hr : read v = some a) :
    fields.required place name read = some a := by
  rw [required, h]
  exact hr

theorem optional_eq (h : fields.get? place name = some v) (hr : read v = some a) (default : α) :
    fields.optional place name read default = some a := by
  rw [optional, h]
  exact hr

theorem optional_default (h : fields.get? place name = none) (default : α) :
    fields.optional place name read default = some default := by
  rw [optional, h]

end Toml.Fields

open Toml.Fields

theorem LibrarySettings.ofToml?_entries (s : LibrarySettings) :
    LibrarySettings.ofToml? (.table (entriesOf s.assignments)) = some s := by
  have h0 := optional_eq (.named (entriesOf s.assignments)) 0 "path" text? rfl rfl
  simp only [LibrarySettings.ofToml?, fields?, Option.bind_eq_bind, Option.bind_some, h0]
  rfl

theorem NtpSettings.ofToml?_entries (s : NtpSettings) :
    NtpSettings.ofToml? (.table (entriesOf s.assignments)) = some s := by
  have h0 := optional_eq (.named (entriesOf s.assignments)) 0 "server" text? rfl rfl
  have h1 := optional_eq (.named (entriesOf s.assignments)) 1 "timeout_secs" uint64?
    rfl (uint64?_ofUInt64 s.timeoutSecs)
  have h2 := optional_eq (.named (entriesOf s.assignments)) 2 "check_interval_secs" uint64?
    rfl (uint64?_ofUInt64 s.checkIntervalSecs)
  have h3 := optional_eq (.named (entriesOf s.assignments)) 3 "max_drift_secs" int64?
    rfl (int64?_toInt s.maxDriftSecs)
  have h4 := optional_eq (.named (entriesOf s.assignments)) 4 "apply_correction" boolean? rfl rfl
  have h5 := optional_eq (.named (entriesOf s.assignments)) 5 "sync_on_start" boolean? rfl rfl
  simp only [NtpSettings.ofToml?, fields?, Option.bind_eq_bind, Option.bind_some, h0, h1, h2, h3,
    h4, h5]
  rfl

theorem WeatherSettings.ofToml?_entries (s : WeatherSettings) :
    WeatherSettings.ofToml? (.table (entriesOf s.assignments)) = some s := by
  have h0 := optional_eq (.named (entriesOf s.assignments)) 0 "api_key" text? rfl rfl
  have h1 := optional_eq (.named (entriesOf s.assignments)) 1 "units" unit? rfl (unit?_name s.units)
  have h2 := optional_eq (.named (entriesOf s.assignments)) 2 "latitude" number? rfl rfl
  have h3 := optional_eq (.named (entriesOf s.assignments)) 3 "longitude" number? rfl rfl
  have h4 := optional_eq (.named (entriesOf s.assignments)) 4 "refresh_minutes" uint64?
    rfl (uint64?_ofUInt64 s.refreshMinutes)
  have h5 := optional_eq (.named (entriesOf s.assignments)) 5 "timeout_secs" uint64?
    rfl (uint64?_ofUInt64 s.timeoutSecs)
  have h6 := optional_eq (.named (entriesOf s.assignments)) 6 "cache_path" text? rfl rfl
  have h7 := optional_eq (.named (entriesOf s.assignments)) 7 "cache_ttl_minutes" uint64?
    rfl (uint64?_ofUInt64 s.cacheTtlMinutes)
  simp only [WeatherSettings.ofToml?, fields?, Option.bind_eq_bind, Option.bind_some, h0, h1, h2, h3,
    h4, h5, h6, h7]
  rfl

theorem WindowSettings.ofToml?_entries (s : WindowSettings) :
    WindowSettings.ofToml? (.table (entriesOf s.assignments)) = some s := by
  have h0 := optional_eq (.named (entriesOf s.assignments)) 0 "title" text? rfl rfl
  have h1 := optional_eq (.named (entriesOf s.assignments)) 1 "width" uint32?
    rfl (uint32?_ofUInt32 s.width)
  have h2 := optional_eq (.named (entriesOf s.assignments)) 2 "height" uint32?
    rfl (uint32?_ofUInt32 s.height)
  have h3 := optional_eq (.named (entriesOf s.assignments)) 3 "x" int32? rfl (int32?_toInt s.x)
  have h4 := optional_eq (.named (entriesOf s.assignments)) 4 "y" int32? rfl (int32?_toInt s.y)
  have h5 := optional_eq (.named (entriesOf s.assignments)) 5 "resizable" boolean? rfl rfl
  have h6 := optional_eq (.named (entriesOf s.assignments)) 6 "hide_title_bar" boolean? rfl rfl
  simp only [WindowSettings.ofToml?, fields?, Option.bind_eq_bind, Option.bind_some, h0, h1, h2, h3,
    h4, h5, h6]
  rfl

theorem DisplaySettings.ofToml?_entries (s : DisplaySettings) :
    DisplaySettings.ofToml? (.table (entriesOf s.assignments)) = some s := by
  have h0 := optional_eq (.named (entriesOf s.assignments)) 0 "use_24_hour" boolean? rfl rfl
  have h1 := optional_eq (.named (entriesOf s.assignments)) 1 "show_seconds" boolean? rfl rfl
  have h2 := optional_eq (.named (entriesOf s.assignments)) 2 "tick_millis" uint64?
    rfl (uint64?_ofUInt64 s.tickMillis)
  simp only [DisplaySettings.ofToml?, fields?, Option.bind_eq_bind, Option.bind_some, h0, h1, h2]
  rfl

/-- a sound that an alarm does not have is left out, and an entry without one has none -/
theorem AlarmSettings.ofToml?_entries (s : AlarmSettings) :
    AlarmSettings.ofToml? (.table (entriesOf s.assignments)) = some s := by
  have hdays : (Toml.array (s.days.map fun day => .string day.shortName)).list? weekday?
      = some s.days := mapM_map weekday?_shortName s.days
  have h0 := required_eq (.named (entriesOf s.assignments)) 0 "name" text? rfl rfl
  have h1 := required_eq (.named (entriesOf s.assignments)) 1 "time" time? rfl (time?_text s.time)
  have h2 := optional_eq (.named (entriesOf s.assignments)) 2 "days" (list? weekday?) rfl hdays
  have h3 : (Fields.named (entriesOf s.assignments)).optional 3 "sound" (fun v => v.text?.map some)
      none = some s.sound := by
    obtain ⟨name, time, days, sound⟩ := s
    cases sound with
    | none => exact optional_default _ _ _ _ rfl none
    | some sound => exact optional_eq _ _ _ _ (v := .string sound) (a := some sound) rfl rfl none
  simp only [AlarmSettings.ofToml?, fields?, Option.bind_eq_bind, Option.bind_some, h0, h1, h2, h3]
  rfl

/-! ## the document -/

theorem flat_of_nodup {as : List Assignment} (hp : (as.all fun a => a.key.parents.isEmpty) = true)
    (hn : (as.map fun a => a.key.name).Nodup) : Flat as where
  parents a ha := List.isEmpty_iff.mp (List.all_eq_true.mp hp a ha)
  nodup := hn

theorem AlarmSettings.flat (s : AlarmSettings) : Flat s.assignments := by
  obtain ⟨name, time, days, sound⟩ := s
  cases sound with
  | none =>
    have hn : ["name", "time", "days"].Nodup := by decide
    exact flat_of_nodup rfl hn
  | some sound =>
    have hn : ["name", "time", "days", "sound"].Nodup := by decide
    exact flat_of_nodup rfl hn

namespace Config

/-- the assignments in front of the sections -/
def preamble (c : Config) : List Assignment :=
  if c.alarms.isEmpty then [field "alarms" (.array [])] else []

/-- the blocks that every configuration has -/
def sections (c : Config) : List Block :=
  [.simple "library" c.library.assignments,
   .simple "ntp" c.ntp.assignments,
   .simple "weather" c.weather.assignments,
   .simple "window" c.window.assignments,
   .simple "display" c.display.assignments]

theorem document_eq (c : Config) : c.document =
    ⟨c.preamble, c.sections ++ (c.alarms.map AlarmSettings.assignments).map (itemBlock "alarms")⟩ := by
  rw [List.map_map]
  rfl

theorem flat_of_mem_sections (c : Config) : ∀ b ∈ c.sections, Flat b.assignments := by
  have hl : ["path"].Nodup := by decide
  have hn : ["server", "timeout_secs", "check_interval_secs", "max_drift_secs", "apply_correction",
    "sync_on_start"].Nodup := by decide
  have hw : ["api_key", "units", "latitude", "longitude", "refresh_minutes", "timeout_secs",
    "cache_path", "cache_ttl_minutes"].Nodup := by decide
  have hs : ["title", "width", "height", "x", "y", "resizable", "hide_title_bar"].Nodup := by decide
  have hd : ["use_24_hour", "show_seconds", "tick_millis"].Nodup := by decide
  intro b hb
  simp only [sections, List.mem_cons, List.not_mem_nil, or_false] at hb
  rcases hb with rfl | rfl | rfl | rfl | rfl
  · exact flat_of_nodup rfl hl
  · exact flat_of_nodup rfl hn
  · exact flat_of_nodup rfl hw
  · exact flat_of_nodup rfl hs
  · exact flat_of_nodup rfl hd

theorem flatSections (c : Config) : FlatSections c.preamble c.sections where
  front := by
    rw [preamble]
    split
    · exact flat_of_nodup rfl (List.nodup_singleton _)
    · exact flat_of_nodup rfl List.nodup_nil
  isArray b hb := by
    have h : (c.sections.all fun b => !b.isArray) = true := rfl
    simpa using List.all_eq_true.mp h b hb
  parents b hb := by
    have h : (c.sections.all fun b => b.key.parents.isEmpty) = true := rfl
    exact List.isEmpty_iff.mp (List.all_eq_true.mp h b hb)
  assignments := c.flat_of_mem_sections
  nodup := by
    have h1 : ["alarms", "library", "ntp", "weather", "window", "display"].Nodup := by decide
    have h2 : ["library", "ntp", "weather", "window", "display"].Nodup := by decide
    rw [preamble]
    split
    · exact h1
    · exact h2

/-- the entries of the table that the document of a configuration defines -/
def table (c : Config) : List (String × Toml) :=
  flatEntries c.preamble c.sections ++ if c.alarms.isEmpty then [] else
    [("alarms", .array ((c.alarms.map AlarmSettings.assignments).map fun as => .table (entriesOf as)))]

/-- **The document of a configuration** defines its table. -/
theorem root?_document (c : Config) : c.document.root? = some c.table := by
  rw [document_eq, table]
  by_cases h : c.alarms = []
  · rw [h, List.isEmpty_nil, if_pos rfl, List.append_nil]
    exact Document.root?_sections c.flatSections
  · have hn : "alarms" ∉ c.preamble.map (fun a => a.key.name)
        ++ c.sections.map fun b => b.key.name := by
      have h2 : "alarms" ∉ ["library", "ntp", "weather", "window", "display"] := by decide
      rw [preamble, if_neg (fun he => h (List.isEmpty_iff.mp he))]
      exact h2
    rw [if_neg (fun he => h (List.isEmpty_iff.mp he))]
    refine Document.root?_flat c.flatSections ?_ (fun he => h (List.map_eq_nil_iff.mp he)) hn
    intro as has
    obtain ⟨s, -, rfl⟩ := List.mem_map.mp has
    exact s.flat

theorem alarms_ofToml? (alarms : List AlarmSettings) :
    (Toml.array ((alarms.map AlarmSettings.assignments).map fun as => .table (entriesOf as))).list?
      AlarmSettings.ofToml? = some alarms := by
  rw [List.map_map]
  exact mapM_map AlarmSettings.ofToml?_entries alarms

/-- a section is found in the table whether the alarms stand in front of it or behind it -/
theorem lookup_table (c : Config) {name : String} {v : Toml} (hn : (name == "alarms") = false)
    (h : (flatEntries [] c.sections).lookup name = some v) : c.table.lookup name = some v := by
  obtain ⟨library, ntp, weather, window, display, alarms⟩ := c
  cases alarms with
  | nil =>
    have e : table ⟨library, ntp, weather, window, display, []⟩ = ("alarms", .array []) ::
        flatEntries [] (sections ⟨library, ntp, weather, window, display, []⟩) := rfl
    rw [e, List.lookup_cons, hn]
    exact h
  | cons alarm alarms =>
    rw [table, List.lookup_append]
    show ((flatEntries [] (sections _)).lookup name).or _ = some v
    rw [h]
    rfl

theorem lookup_table_alarms (c : Config) : c.table.lookup "alarms" = some
    (.array ((c.alarms.map AlarmSettings.assignments).map fun as => .table (entriesOf as))) := by
  obtain ⟨library, ntp, weather, window, display, alarms⟩ := c
  cases alarms with
  | nil => rfl
  | cons alarm alarms => rfl

/-- **The configuration of the table is the one it was made from.** -/
theorem ofTable?_table (c : Config) : ofTable? c.table = some c := by
  have h0 := optional_eq (.named c.table) 0 "library" LibrarySettings.ofToml?
    (c.lookup_table rfl rfl) c.library.ofToml?_entries
  have h1 := optional_eq (.named c.table) 1 "ntp" NtpSettings.ofToml?
    (c.lookup_table rfl rfl) c.ntp.ofToml?_entries
  have h2 := optional_eq (.named c.table) 2 "weather" WeatherSettings.ofToml?
    (c.lookup_table rfl rfl) c.weather.ofToml?_entries
  have h3 := optional_eq (.named c.table) 3 "window" WindowSettings.ofToml?
    (c.lookup_table rfl rfl) c.window.ofToml?_entries
  have h4 := optional_eq (.named c.table) 4 "display" DisplaySettings.ofToml?
    (c.lookup_table rfl rfl) c.display.ofToml?_entries
  have h5 := optional_eq (.named c.table) 5 "alarms" (list? AlarmSettings.ofToml?)
    c.lookup_table_alarms (alarms_ofToml? c.alarms)
  simp only [ofTable?, Option.bind_eq_bind, Option.bind_some, h0, h1, h2, h3, h4, h5]
  rfl

end Config

end DeskClock
