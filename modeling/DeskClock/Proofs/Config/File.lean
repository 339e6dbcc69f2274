import DeskClock.Config.File
import DeskClock.Proofs.Config.Document
import DeskClock.Proofs.Text.Utf8
import DeskClock.Proofs.Toml.Reader

/-!
# a configuration file is read back

* `Config.plain`               a configuration as it comes back: an undefined coordinate loses its sign;
* `Config.document_readsAs`    the document of a configuration is read as the one of that;
* `Config.ofText?_text`        so the text of a configuration is;
* `Config.save_tryLoad`        and the file that it is saved to.
-/

namespace DeskClock

open Toml

/-- the settings as they come back -/
def WeatherSettings.plain (s : WeatherSettings) : WeatherSettings :=
  { s with latitude := s.latitude.plain, longitude := s.longitude.plain }

/-- the configuration as it comes back: `toml` has one word for an undefined number -/
def Config.plain (c : Config) : Config := { c with weather := c.weather.plain }

/-! ## the fields -/

section

variable {name : String} (hn : IsBare name)
include hn

theorem field_readsAs {v w : Toml} (h : ReadsAs (nestingLimit - 1) v w) :
    AssignmentReadsAs (field name v) (field name w) :=
  ⟨rfl, rfl, hn, h⟩

theorem string_readsAs (text : String) :
    AssignmentReadsAs (field name (.string text)) (field name (.string text)) :=
  field_readsAs hn (.string _ text)

theorem boolean_readsAs (b : Bool) :
    AssignmentReadsAs (field name (.boolean b)) (field name (.boolean b)) :=
  field_readsAs hn (.boolean _ b)

theorem float_readsAs (x : Binary64) :
    AssignmentReadsAs (field name (.float x)) (field name (.float x.plain)) :=
  field_readsAs hn (.float _ x)

theorem uint64_readsAs {n : UInt64} (h : n.toNat < 9223372036854775808) :
    AssignmentReadsAs (field name (.ofUInt64 n)) (field name (.ofUInt64 n)) := by
  refine field_readsAs hn (.integer ?_ ?_)
  · show (-9223372036854775808 : Int) ≤ n.toNat
    omega
  · show (n.toNat : Int) ≤ 9223372036854775807
    omega

theorem uint32_readsAs (n : UInt32) :
    AssignmentReadsAs (field name (.ofUInt32 n)) (field name (.ofUInt32 n)) := by
  have h := n.toNat_lt
  refine field_readsAs hn (.integer ?_ ?_)
  · show (-9223372036854775808 : Int) ≤ n.toNat
    omega
  · show (n.toNat : Int) ≤ 9223372036854775807
    omega

theorem int64_readsAs (n : Int64) :
    AssignmentReadsAs (field name (.integer n.toInt)) (field name (.integer n.toInt)) := by
  have h1 := n.le_toInt
  have h2 := n.toInt_lt
  refine field_readsAs hn (.integer ?_ ?_)
  · show (-9223372036854775808 : Int) ≤ n.toInt
    omega
  · show n.toInt ≤ 9223372036854775807
    omega

theorem int32_readsAs (n : Int32) :
    AssignmentReadsAs (field name (.integer n.toInt)) (field name (.integer n.toInt)) := by
  have h1 := n.le_toInt
  have h2 := n.toInt_lt
  refine field_readsAs hn (.integer ?_ ?_)
  · show (-9223372036854775808 : Int) ≤ n.toInt
    omega
  · show n.toInt ≤ 9223372036854775807
    omega

end

/-! ## the sections -/

theorem LibrarySettings.readsAs (s : LibrarySettings) :
    List.Forall₂ AssignmentReadsAs s.assignments s.assignments :=
  .cons (string_readsAs (by simp [IsBare, isKeyChar]) s.path) .nil

theorem NtpSettings.readsAs (s : NtpSettings) (h1 : s.timeoutSecs.toNat < 9223372036854775808)
    (h2 : s.checkIntervalSecs.toNat < 9223372036854775808) :
    List.Forall₂ AssignmentReadsAs s.assignments s.assignments := by
  refine .cons (string_readsAs ?_ _) (.cons (uint64_readsAs ?_ h1) (.cons (uint64_readsAs ?_ h2)
    (.cons (int64_readsAs ?_ _) (.cons (boolean_readsAs ?_ _) (.cons (boolean_readsAs ?_ _) .nil)))))
  all_goals simp [IsBare, isKeyChar]

theorem WeatherSettings.readsAs (s : WeatherSettings)
    (h1 : s.refreshMinutes.toNat < 9223372036854775808)
    (h2 : s.timeoutSecs.toNat < 9223372036854775808)
    (h3 : s.cacheTtlMinutes.toNat < 9223372036854775808) :
    List.Forall₂ AssignmentReadsAs s.assignments s.plain.assignments := by
  refine .cons (string_readsAs ?_ _) (.cons (string_readsAs ?_ _) (.cons (float_readsAs ?_ _)
    (.cons (float_readsAs ?_ _) (.cons (uint64_readsAs ?_ h1) (.cons (uint64_readsAs ?_ h2)
    (.cons (string_readsAs ?_ _) (.cons (uint64_readsAs ?_ h3) .nil)))))))
  all_goals simp [IsBare, isKeyChar]

theorem WindowSettings.readsAs (s : WindowSettings) :
    List.Forall₂ AssignmentReadsAs s.assignments s.assignments := by
  refine .cons (string_readsAs ?_ _) (.cons (uint32_readsAs ?_ _) (.cons (uint32_readsAs ?_ _)
    (.cons (int32_readsAs ?_ _) (.cons (int32_readsAs ?_ _) (.cons (boolean_readsAs ?_ _)
    (.cons (boolean_readsAs ?_ _) .nil))))))
  all_goals simp [IsBare, isKeyChar]

theorem DisplaySettings.readsAs (s : DisplaySettings) (h : s.tickMillis.toNat < 9223372036854775808) :
    List.Forall₂ AssignmentReadsAs s.assignments s.assignments := by
  refine .cons (boolean_readsAs ?_ _) (.cons (boolean_readsAs ?_ _) (.cons (uint64_readsAs ?_ h) .nil))
  all_goals simp [IsBare, isKeyChar]

theorem days_readsAs (days : List Weekday) (depth : Nat) :
    List.Forall₂ (ReadsAs depth) (days.map fun day => .string day.shortName)
      (days.map fun day => .string day.shortName) := by
  induction days with
  | nil => exact .nil
  | cons day days ih => exact .cons (.string _ _) ih

theorem AlarmSettings.readsAs (s : AlarmSettings) :
    List.Forall₂ AssignmentReadsAs s.assignments s.assignments := by
  have h1 : IsBare "name" := by simp [IsBare, isKeyChar]
  have h2 : IsBare "time" := by simp [IsBare, isKeyChar]
  have h3 : IsBare "days" := by simp [IsBare, isKeyChar]
  have h4 : IsBare "sound" := by simp [IsBare, isKeyChar]
  have hdays : ReadsAs (nestingLimit - 1) (.array (s.days.map fun day => .string day.shortName))
      (.array (s.days.map fun day => .string day.shortName)) := .array (days_readsAs s.days 78)
  obtain ⟨name, time, days, sound⟩ := s
  cases sound with
  | none =>
    exact .cons (string_readsAs h1 _) (.cons (string_readsAs h2 _) (.cons (field_readsAs h3 hdays) .nil))
  | some sound =>
    exact .cons (string_readsAs h1 _) (.cons (string_readsAs h2 _) (.cons (field_readsAs h3 hdays)
      (.cons (string_readsAs h4 sound) .nil)))

namespace Config

/-! ## the document -/

theorem isWritable_iff (c : Config) :
    c.isWritable = true ↔ ∀ n ∈ c.unsignedSettings, n.toNat < 9223372036854775808 := by
  rw [isWritable, List.all_eq_true]
  simp only [decide_eq_true_eq]

theorem preamble_readsAs (c : Config) :
    List.Forall₂ AssignmentReadsAs c.preamble c.preamble := by
  rw [preamble]
  split
  · exact .cons (field_readsAs (by simp [IsBare, isKeyChar]) (.array .nil)) .nil
  · exact .nil

theorem sections_readsAs {c : Config} (h : c.isWritable = true) :
    List.Forall₂ BlockReadsAs c.sections c.plain.sections := by
  have hu := c.isWritable_iff.mp h
  simp only [unsignedSettings, List.mem_cons, List.not_mem_nil, or_false, forall_eq_or_imp,
    forall_eq] at hu
  obtain ⟨h1, h2, h3, h4, h5, h6⟩ := hu
  refine .cons ⟨rfl, rfl, rfl, ?_, c.library.readsAs⟩ (.cons ⟨rfl, rfl, rfl, ?_, c.ntp.readsAs h1 h2⟩
    (.cons ⟨rfl, rfl, rfl, ?_, c.weather.readsAs h3 h4 h5⟩
    (.cons ⟨rfl, rfl, rfl, ?_, c.window.readsAs⟩
    (.cons ⟨rfl, rfl, rfl, ?_, c.display.readsAs h6⟩ .nil))))
  all_goals simp [Block.simple, IsBare, isKeyChar]

theorem items_readsAs (alarms : List AlarmSettings) :
    List.Forall₂ BlockReadsAs ((alarms.map AlarmSettings.assignments).map (itemBlock "alarms"))
      ((alarms.map AlarmSettings.assignments).map (itemBlock "alarms")) := by
  have hn : IsBare "alarms" := by simp [IsBare, isKeyChar]
  induction alarms with
  | nil => exact .nil
  | cons alarm alarms ih => exact .cons ⟨rfl, rfl, rfl, hn, alarm.readsAs⟩ ih

theorem document_readsAs {c : Config} (h : c.isWritable = true) :
    DocumentReadsAs c.document c.plain.document := by
  rw [document_eq, document_eq]
  exact ⟨c.preamble_readsAs, List.rel_append (sections_readsAs h) (items_readsAs c.alarms)⟩

/-- **The text of a configuration is read back.** -/
theorem ofText?_text {c : Config} {text : List Char} (h : c.text? = some text) :
    ofText? text = some c.plain := by
  rw [text?] at h
  split at h
  · have hw : c.isWritable = true := ‹_›
    cases h
    rw [ofText?, Toml.read?, Document.read?_write (document_readsAs hw), Option.bind_some,
      root?_document, Option.bind_some, ofTable?_table]
  · cases h

end Config

/-! ## the file -/

theorem Disk.file?_put (disk : Disk) (path : String) (file : Option StoredFile) :
    (disk.put path file).file? path = file :=
  if_pos rfl

namespace Config

/-- **A configuration that is saved is loaded again**, whatever its texts and numbers are, if its
numbers without a sign fit into 64 bits with one and the path can be written. -/
theorem save_tryLoad (c : Config) (disk : Disk) (path : String) (hp : disk.writable path = true)
    (hu : ∀ n ∈ c.unsignedSettings, n.toNat ≤ 9223372036854775807) :
    ∃ saved, c.save disk path = (.ok (), saved) ∧ tryLoad saved path = .ok c.plain ∧
      load saved path = c.plain := by
  have hw : c.isWritable = true := c.isWritable_iff.mpr fun n hn => by
    have := hu n hn
    omega
  have ht : c.text? = some c.document.write := by rw [text?, if_pos hw]
  have hload : tryLoad (disk.put path (some ⟨Utf8.encode c.document.write, StoredFile.justWritten⟩))
      path = .ok c.plain := by
    rw [tryLoad, Disk.file?_put, Option.bind_some, Utf8.decode?_encode]
    dsimp only
    rw [ofText?_text ht]
  refine ⟨_, ?_, hload, ?_⟩
  · rw [save, ht]
    dsimp only
    rw [Disk.write?, if_pos hp]
  · rw [load, hload]

/-- a place nobody knows, and an alarm with quotes, a backslash and control characters in its name -/
theorem save_tryLoad_alarm : ∃ c : Config, c.weather.latitude = .nan true ∧
    c.alarms.map AlarmSettings.name = ["\x22\x22\x22\x27\x27\x27\x5c\x00\n"] ∧
    (∀ n ∈ c.unsignedSettings, n.toNat ≤ 9223372036854775807) ∧
    ∃ saved, c.save Disk.empty "clock-config.toml" = (.ok (), saved) ∧
      tryLoad saved "clock-config.toml" = .ok c.plain ∧ load saved "clock-config.toml" = c.plain :=
  ⟨{ weather := { latitude := .nan true }
     alarms := [⟨"\x22\x22\x22\x27\x27\x27\x5c\x00\n", ⟨6, 30⟩, [.friday, .monday], some ""⟩] },
   rfl, rfl, by simp [unsignedSettings],
   save_tryLoad _ Disk.empty _ rfl (by simp [unsignedSettings])⟩

end Config

end DeskClock
