import DeskClock.Proofs.Config.File
import DeskClock.Proofs.Toml.Range

/-!
# a configuration that is loaded can be saved

* `optional_uint64_le`        a setting without a sign is read below `2 ^ 63`, as all integers of a document are;
* `Config.ofText?_unsigned`   so is each of them in a configuration that is read from a text;
* `Config.text?_plain`        a configuration has the same text when it has come back;
* `Config.load_save`          what loads can be saved, comes back as it is, and is then saved to the same bytes.
-/

namespace DeskClock

open Toml

/-! ## settings without a sign -/

namespace Toml

/-- the values of the fields are in range -/
def Fields.InRange : Fields → Prop
  | .named entries => ∀ e ∈ entries, e.2.InRange
  | .ordered items => ∀ v ∈ items, v.InRange

theorem fields?_inRange {v : Toml} (hv : v.InRange) {fields : Fields} (h : v.fields? = some fields) :
    fields.InRange := by
  cases hv with
  | table hentries =>
    cases h
    exact hentries
  | array hitems =>
    cases h
    exact hitems
  | moment text =>
    cases h
    exact nofun
  | string text => cases h
  | integer low high => cases h
  | float x => cases h
  | boolean b => cases h

theorem get?_inRange {fields : Fields} (hf : fields.InRange) {place : Nat} {name : String} {v : Toml}
    (h : fields.get? place name = some v) : v.InRange := by
  cases fields with
  | named entries =>
    obtain ⟨front, back, rfl, -⟩ := List.lookup_eq_some_iff.mp h
    exact hf (name, v) (by simp)
  | ordered items => exact hf v (List.mem_of_getElem? h)

/-- an integer above the range is no setting, whatever its type could hold -/
theorem uint64?_le {v : Toml} (hv : v.InRange) {n : UInt64} (h : v.uint64? = some n) :
    n.toNat ≤ 9223372036854775807 := by
  obtain ⟨m, hm, rfl⟩ := Option.map_eq_some_iff.mp h
  have hmax : m ≤ maxInteger := by
    cases hv with
    | integer low high =>
      simp only [integerIn?, Option.ite_none_right_eq_some, Option.some.injEq] at hm
      rw [← hm.2]
      exact high
    | string text => cases hm
    | float x => cases hm
    | boolean b => cases hm
    | moment text => cases hm
    | array h => cases hm
    | table h => cases hm
  rw [UInt64.toNat_ofNat']
  unfold maxInteger at hmax
  omega

theorem optional_uint64_le {fields : Fields} (hf : fields.InRange) {place : Nat} {name : String}
    {default n : UInt64} (hd : default.toNat ≤ 9223372036854775807)
    (h : fields.optional place name uint64? default = some n) : n.toNat ≤ 9223372036854775807 := by
  unfold Fields.optional at h
  split at h
  · cases h
    exact hd
  · next v hv => exact uint64?_le (get?_inRange hf hv) h

end Toml

theorem NtpSettings.ofToml?_unsigned {v : Toml} (hv : v.InRange) {s : NtpSettings}
    (h : NtpSettings.ofToml? v = some s) : s.timeoutSecs.toNat ≤ 9223372036854775807 ∧
      s.checkIntervalSecs.toNat ≤ 9223372036854775807 := by
  simp only [NtpSettings.ofToml?, Option.bind_eq_bind, Option.bind_eq_some_iff] at h
  obtain ⟨fields, hfields, _, -, timeout, htimeout, interval, hinterval, _, -, _, -, _, -, hs⟩ := h
  cases hs
  have hf := fields?_inRange hv hfields
  exact ⟨optional_uint64_le hf (by decide) htimeout, optional_uint64_le hf (by decide) hinterval⟩

theorem WeatherSettings.ofToml?_unsigned {v : Toml} (hv : v.InRange) {s : WeatherSettings}
    (h : WeatherSettings.ofToml? v = some s) : s.refreshMinutes.toNat ≤ 9223372036854775807 ∧
      s.timeoutSecs.toNat ≤ 9223372036854775807 ∧ s.cacheTtlMinutes.toNat ≤ 9223372036854775807 := by
  simp only [WeatherSettings.ofToml?, Option.bind_eq_bind, Option.bind_eq_some_iff] at h
  obtain ⟨fields, hfields, _, -, _, -, _, -, _, -, refresh, hrefresh, timeout, htimeout, _, -, ttl, httl,
    hs⟩ := h
  cases hs
  have hf := fields?_inRange hv hfields
  exact ⟨optional_uint64_le hf (by decide) hrefresh, optional_uint64_le hf (by decide) htimeout,
    optional_uint64_le hf (by decide) httl⟩

theorem DisplaySettings.ofToml?_unsigned {v : Toml} (hv : v.InRange) {s : DisplaySettings}
    (h : DisplaySettings.ofToml? v = some s) : s.tickMillis.toNat ≤ 9223372036854775807 := by
  simp only [DisplaySettings.ofToml?, Option.bind_eq_bind, Option.bind_eq_some_iff] at h
  obtain ⟨fields, hfields, _, -, _, -, tick, htick, hs⟩ := h
  cases hs
  exact optional_uint64_le (fields?_inRange hv hfields) (by decide) htick

/-- a section has its default or is read from a value in range -/
theorem Toml.Fields.optional_cases {α : Type} {fields : Fields} (hf : fields.InRange) {place : Nat}
    {name : String} {read : Toml → Option α} {default a : α}
    (h : fields.optional place name read default = some a) :
    a = default ∨ ∃ v : Toml, v.InRange ∧ read v = some a := by
  unfold Fields.optional at h
  split at h
  · cases h
    exact .inl rfl
  · next v hv => exact .inr ⟨v, get?_inRange hf hv, h⟩

namespace Config

theorem ofTable?_unsigned {entries : List (String × Toml)} (he : ∀ e ∈ entries, e.2.InRange) {c : Config}
    (h : ofTable? entries = some c) : ∀ n ∈ c.unsignedSettings, n.toNat ≤ 9223372036854775807 := by
  simp only [ofTable?, Option.bind_eq_bind, Option.bind_eq_some_iff] at h
  obtain ⟨_, -, ntp, hntp, weather, hweather, _, -, display, hdisplay, _, -, hc⟩ := h
  cases hc
  have hf : (Fields.named entries).InRange := he
  have hn : ntp.timeoutSecs.toNat ≤ 9223372036854775807 ∧
      ntp.checkIntervalSecs.toNat ≤ 9223372036854775807 := by
    rcases Fields.optional_cases hf hntp with rfl | ⟨v, hv, hread⟩
    · decide
    · exact NtpSettings.ofToml?_unsigned hv hread
  have hw : weather.refreshMinutes.toNat ≤ 9223372036854775807 ∧
      weather.timeoutSecs.toNat ≤ 9223372036854775807 ∧
      weather.cacheTtlMinutes.toNat ≤ 9223372036854775807 := by
    rcases Fields.optional_cases hf hweather with rfl | ⟨v, hv, hread⟩
    · decide
    · exact WeatherSettings.ofToml?_unsigned hv hread
  have hd : display.tickMillis.toNat ≤ 9223372036854775807 := by
    rcases Fields.optional_cases hf hdisplay with rfl | ⟨v, hv, hread⟩
    · decide
    · exact DisplaySettings.ofToml?_unsigned hv hread
  intro n hmem
  simp only [unsignedSettings, List.mem_cons, List.not_mem_nil, or_false] at hmem
  rcases hmem with rfl | rfl | rfl | rfl | rfl | rfl
  · exact hn.1
  · exact hn.2
  · exact hw.1
  · exact hw.2.1
  · exact hw.2.2
  · exact hd

/-- **The settings of a text stay below `2 ^ 63`**, although their type goes further. -/
theorem ofText?_unsigned {text : List Char} {c : Config} (h : ofText? text = some c) :
    ∀ n ∈ c.unsignedSettings, n.toNat ≤ 9223372036854775807 := by
  obtain ⟨entries, hentries, hc⟩ := Option.bind_eq_some_iff.mp h
  exact ofTable?_unsigned (read?_inRange hentries) hc

/-! ## saving again -/

theorem isWritable_of_ofText? {text : List Char} {c : Config} (h : ofText? text = some c) :
    c.isWritable = true := by
  refine c.isWritable_iff.mpr ?_
  intro n hn
  have hle := ofText?_unsigned h n hn
  omega

/-- a coordinate is written alike when it has come back -/
theorem writeFloat_plain (x : Binary64) : writeFloat x.plain = writeFloat x := by
  cases x with
  | nan negative => rfl
  | infinite negative => rfl
  | finite negative rank => rfl

theorem weather_plain (s : WeatherSettings) :
    (Block.simple "weather" s.plain.assignments).write = (Block.simple "weather" s.assignments).write := by
  simp [Block.write, Block.simple, WeatherSettings.assignments, WeatherSettings.plain, Assignment.write,
    field, Toml.write, writeFloat_plain]

theorem document_plain (c : Config) : c.plain.document.write = c.document.write := by
  have hblocks : writeBlocks c.plain.document.blocks = writeBlocks c.document.blocks := by
    show Block.write _ ++ '\n' :: (Block.write _ ++ '\n' ::
      ((Block.simple "weather" c.weather.plain.assignments).write ++ _)) = _
    rw [weather_plain]
    rfl
  have hfront : c.plain.document.preamble = c.document.preamble := rfl
  have hempty : c.plain.document.blocks.isEmpty = c.document.blocks.isEmpty := rfl
  rw [Document.write, Document.write, hfront, hblocks, hempty]

/-- **A configuration has the same text when it has come back.** -/
theorem text?_plain (c : Config) : c.plain.text? = c.text? := by
  have hw : c.plain.isWritable = c.isWritable := rfl
  rw [text?, text?, hw, c.document_plain]

/-! ## the file -/

section File

variable {c : Config} {text : List Char} (ht : c.text? = some text) (disk : Disk) (path : String)
include ht

theorem save_eq (hp : disk.writable path = true) : c.save disk path =
    (.ok (), disk.put path (some ⟨Utf8.encode text, StoredFile.justWritten⟩)) := by
  rw [save, ht]
  dsimp only
  rw [Disk.write?, if_pos hp]

theorem tryLoad_put (age : Duration) :
    tryLoad (disk.put path (some ⟨Utf8.encode text, age⟩)) path = .ok c.plain := by
  rw [tryLoad, Disk.file?_put, Option.bind_some, Utf8.decode?_encode]
  dsimp only
  rw [ofText?_text ht]

end File

theorem ofText?_of_tryLoad {disk : Disk} {path : String} {c : Config} (h : tryLoad disk path = .ok c) :
    ∃ text, ofText? text = some c := by
  unfold tryLoad at h
  split at h
  · cases h
  · next text _ =>
    split at h
    · next c' hc =>
      cases h
      exact ⟨text, hc⟩
    · cases h

/-- **What loads can be saved, and saving makes it plain.** Whatever the bytes of a file are, if it loads
its settings are in the range that can be written. The configuration is saved to one text, at any path
that can be written; it comes back from there, and is then saved to the same bytes. -/
theorem load_save (disk : Disk) (path : String) (c : Config) (h : tryLoad disk path = .ok c) :
    (∀ n ∈ c.unsignedSettings, n.toNat ≤ 9223372036854775807) ∧
    (∀ alarm ∈ c.alarms, alarm.time.sinceMidnight < 1440) ∧
    50000000 ≤ c.display.tick.nanoseconds ∧
    ∃ text, ∀ (disk' : Disk) (path' : String), disk'.writable path' = true →
      let saved := disk'.put path' (some ⟨Utf8.encode text, StoredFile.justWritten⟩)
      c.save disk' path' = (.ok (), saved) ∧ tryLoad saved path' = .ok c.plain ∧
      c.plain.save disk' path' = (.ok (), saved) := by
  obtain ⟨source, hsource⟩ := ofText?_of_tryLoad h
  have ht : c.text? = some c.document.write := by rw [text?, if_pos (isWritable_of_ofText? hsource)]
  have ht' : c.plain.text? = some c.document.write := by rw [text?_plain, ht]
  refine ⟨ofText?_unsigned hsource, ?_, ?_, c.document.write, ?_⟩
  · intro alarm _
    have hhour := alarm.time.hour.isLt
    have hminute := alarm.time.minute.isLt
    unfold TimeOfDay.sinceMidnight
    omega
  · unfold DisplaySettings.tick Duration.ofMillis
    dsimp only
    omega
  · intro disk' path' hp saved
    exact ⟨save_eq ht disk' path' hp, tryLoad_put ht disk' path' _, save_eq ht' disk' path' hp⟩

/-- the greatest integer in base sixteen, in an inline table, and an alarm -/
theorem load_save_inline :
    let text := "ntp = \x7b timeout_secs = 0x7fff_ffff_ffff_ffff \x7d\n[[alarms]]\nname = \x27\x27 # none\ntime = \x2223:59\x22"
    let disk := Disk.empty.put "clock-config.toml" (some ⟨Utf8.encode text.toList, ⟨5⟩⟩)
    let c : Config :=
      { ntp := { timeoutSecs := 9223372036854775807 }, alarms := [⟨"", ⟨23, 59⟩, [], none⟩] }
    tryLoad disk "clock-config.toml" = .ok c ∧
    ∃ text', c.save disk "copy.toml"
        = (.ok (), disk.put "copy.toml" (some ⟨Utf8.encode text', StoredFile.justWritten⟩)) ∧
      tryLoad (disk.put "copy.toml" (some ⟨Utf8.encode text', StoredFile.justWritten⟩)) "copy.toml"
        = .ok c.plain := by
  intro text disk c
  have hload : tryLoad disk "clock-config.toml" = .ok c := by decide +kernel
  obtain ⟨-, -, -, text', hsave⟩ := load_save disk "clock-config.toml" c hload
  have hsaved := hsave disk "copy.toml" rfl
  exact ⟨hload, text', hsaved.1, hsaved.2.1⟩

end Config

end DeskClock
