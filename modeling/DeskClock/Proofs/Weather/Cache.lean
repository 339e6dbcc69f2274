import DeskClock.Proofs.Calendar.Timestamp
import DeskClock.Proofs.Config.File
import DeskClock.Proofs.Json.Reread

/-!
# reading back the weather cache

* `exists_member`       a member of an object, with a text that is written for its value;
* `Conditions.ReadAs`   the conditions that are read from the text of others;
* `writes_json`         the text of finite conditions is read so;
* `CachedWeather.members`   the members that a cache is written for;
* `exists_readAs`       the text of the cache is read so, with the same instant;
* `load_eq_ok_iff`      when the cache is loaded;
* `save_load`           a cache that is saved is loaded until the file is too old.

The temperatures that are read have a value, which is all that reading depends on. Which value it is
hangs on their digits.
-/

namespace DeskClock

open Json

theorem Json.exists_member (name : String) {text : List Char} {v : Value} (h : Writes text v) :
    ∃ m : Member, m.name = name ∧ m.chars = jsonMember name text ∧ m.value = v := by
  obtain ⟨tokens, hs, hy⟩ := h
  exact ⟨⟨name, text, tokens, v, hs, hy⟩, rfl, rfl, rfl⟩

/-! ## values of the fields -/

theorem TemperatureUnit.ofName?_name (unit : TemperatureUnit) : ofName? unit.name = some unit := by
  cases unit with
  | kelvin => rfl
  | celsius => rfl
  | fahrenheit => rfl

theorem Json.Value.string?_text (s : String) :
    Value.string? (.text (rawText s.toList)) = some s := string?_rawText s

theorem Json.Value.unit?_name (unit : TemperatureUnit) :
    Value.unit? (.text (rawText unit.name.toList)) = some unit := by
  rw [unit?, string?_rawText, Option.bind_some, TemperatureUnit.ofName?_name]

theorem Json.Value.instant?_write (t : Instant) :
    Value.instant? (.text (rawText (Timestamp.write t))) = some t := by
  have h := string?_text (String.ofList (Timestamp.write t))
  rw [String.toList_ofList] at h
  rw [instant?, h, Option.bind_some, String.toList_ofList, Timestamp.read?_write]

theorem Json.exists_writes_number {x : Binary64} (hx : x.isFinite = true) :
    ∃ v read, Writes (writeNumber x) v ∧ Value.number? v = some read ∧ reread? x = some read := by
  cases x with
  | nan negative => cases hx
  | infinite negative => cases hx
  | finite negative rank =>
    obtain ⟨n, hvalid, -, hvalue, e⟩ := exists_numeral negative rank
    obtain ⟨read, hread⟩ := Option.isSome_iff_exists.mp hvalue
    refine ⟨.number n, read, ?_, hread, (reread?_eq hvalid e).trans hread⟩
    rw [e]
    exact writes_number hvalid

/-! ## the conditions -/

/-- The conditions that are read from the text of others: the temperatures by their digits, and the
rest as it is. -/
structure Conditions.ReadAs (c read : Conditions) : Prop where
  temperature : reread? c.temperature = some read.temperature
  high : reread? c.high = some read.high
  low : reread? c.low = some read.low
  description : read.description = c.description
  unit : read.unit = c.unit

namespace Conditions

/-- the names of the fields of conditions -/
def fieldNames : List String := ["temperature", "high", "low", "description", "unit"]

/-- conditions by the values of their fields -/
def ofFields? : List Value → Option Conditions
  | [temperature, high, low, description, unit] => do
    return {
      temperature := ← temperature.number?
      high := ← high.number?
      low := ← low.number?
      description := ← description.string?
      unit := ← unit.unit? }
  | _ => none

theorem ofJson?_eq (v : Value) : ofJson? v = (v.fields? fieldNames).bind ofFields? := by
  rw [ofJson?, fieldNames]
  rfl

end Conditions

/-- **The text of finite conditions is read.** -/
theorem Conditions.writes_json (c : Conditions) (hc : c.isFinite = true) :
    ∃ members read, Writes c.json (.object members) ∧
      members.map Prod.fst = Conditions.fieldNames.map (fun name => rawText name.toList) ∧
      Conditions.ofJson? (.object members) = some read ∧ c.ReadAs read := by
  have hfinite : ∀ x ∈ c.temperatures, x.isFinite = true := List.all_eq_true.mp hc
  obtain ⟨v₁, temperature, hw₁, hr₁, ht₁⟩ :=
    exists_writes_number (hfinite c.temperature (by simp [temperatures]))
  obtain ⟨v₂, high, hw₂, hr₂, ht₂⟩ := exists_writes_number (hfinite c.high (by simp [temperatures]))
  obtain ⟨v₃, low, hw₃, hr₃, ht₃⟩ := exists_writes_number (hfinite c.low (by simp [temperatures]))
  obtain ⟨m₁, n₁, c₁, rfl⟩ := exists_member "temperature" hw₁
  obtain ⟨m₂, n₂, c₂, rfl⟩ := exists_member "high" hw₂
  obtain ⟨m₃, n₃, c₃, rfl⟩ := exists_member "low" hw₃
  obtain ⟨m₄, n₄, c₄, e₄⟩ := exists_member "description" (writes_text c.description.toList)
  obtain ⟨m₅, n₅, c₅, e₅⟩ := exists_member "unit" (writes_text c.unit.name.toList)
  have hnames : [m₁, m₂, m₃, m₄, m₅].map Member.name = fieldNames := by
    simp only [List.map_cons, List.map_nil, n₁, n₂, n₃, n₄, n₅, fieldNames]
  have hchars : c.json = jsonObject ([m₁, m₂, m₃, m₄, m₅].map Member.chars) := by
    simp only [List.map_cons, List.map_nil, c₁, c₂, c₃, c₄, c₅, json]
  have hfields := fields?_object [m₁, m₂, m₃, m₄, m₅] (by rw [hnames]; decide)
  rw [hnames] at hfields
  refine ⟨[m₁, m₂, m₃, m₄, m₅].map fun m => (m.raw, m.value),
    ⟨temperature, high, low, c.description, c.unit⟩, ?_, ?_, ?_, ⟨ht₁, ht₂, ht₃, rfl, rfl⟩⟩
  · rw [hchars]
    exact writes_object m₁ [m₂, m₃, m₄, m₅]
  · rw [← hnames, List.map_map, List.map_map]
    rfl
  · rw [ofJson?_eq, hfields]
    show (do
      return {
        temperature := ← m₁.value.number?
        high := ← m₂.value.number?
        low := ← m₃.value.number?
        description := ← m₄.value.string?
        unit := ← m₅.value.unit? } : Option Conditions) = _
    rw [hr₁, hr₂, hr₃, e₄, e₅, Value.string?_text, Value.unit?_name]
    rfl

/-! ## the cache -/

namespace CachedWeather

/-- the names of the fields of a cache -/
def fieldNames : List String := ["fetched_at", "conditions"]

/-- a cache by the values of its fields -/
def ofFields? : List Value → Option CachedWeather
  | [fetchedAt, conditions] => do return ⟨← fetchedAt.instant?, ← Conditions.ofJson? conditions⟩
  | _ => none

theorem ofJson?_eq (v : Value) : ofJson? v = (v.fields? fieldNames).bind ofFields? := by
  rw [ofJson?, fieldNames]
  rfl

/-- the members that a cache is written for, by the value of the instant and the members of the
conditions -/
def members (fetchedAt : Value) (conditions : List (List UInt8 × Value)) : List (List UInt8 × Value) :=
  [(rawText "fetched_at".toList, fetchedAt), (rawText "conditions".toList, .object conditions)]

/-- **The text of a cache with finite conditions is read**, with the same instant. -/
theorem exists_writes (c : CachedWeather) (hc : c.conditions.isFinite = true) :
    ∃ fetchedAt inner conditions, Writes c.write (.object (members fetchedAt inner)) ∧
      inner.map Prod.fst = Conditions.fieldNames.map (fun name => rawText name.toList) ∧
      ofJson? (.object (members fetchedAt inner)) = some ⟨c.fetchedAt, conditions⟩ ∧
      c.conditions.ReadAs conditions := by
  obtain ⟨inner, conditions, hw, hinner, hr, hreadAs⟩ := c.conditions.writes_json hc
  obtain ⟨m₁, n₁, c₁, e₁⟩ := exists_member "fetched_at" (writes_text (Timestamp.write c.fetchedAt))
  obtain ⟨m₂, n₂, c₂, e₂⟩ := exists_member "conditions" hw
  have hnames : [m₁, m₂].map Member.name = fieldNames := by
    simp only [List.map_cons, List.map_nil, n₁, n₂, fieldNames]
  have hchars : c.write = jsonObject ([m₁, m₂].map Member.chars) := by
    simp only [List.map_cons, List.map_nil, c₁, c₂, write]
  have hmembers : members m₁.value inner = [m₁, m₂].map fun m => (m.raw, m.value) := by
    simp only [members, List.map_cons, List.map_nil, Member.raw, n₁, n₂, e₂]
  have hfields := fields?_object [m₁, m₂] (by rw [hnames]; decide)
  rw [hnames] at hfields
  refine ⟨m₁.value, inner, conditions, ?_, hinner, ?_, hreadAs⟩
  · rw [hchars, hmembers]
    exact writes_object m₁ [m₂]
  · rw [hmembers, ofJson?_eq, hfields]
    show (do return ⟨← m₁.value.instant?, ← Conditions.ofJson? m₂.value⟩ : Option CachedWeather) = _
    rw [e₂, hr, e₁, Value.instant?_write]
    rfl

theorem exists_readAs (c : CachedWeather) (hc : c.conditions.isFinite = true) :
    ∃ conditions, read? (Utf8.encode c.write) = some ⟨c.fetchedAt, conditions⟩ ∧
      c.conditions.ReadAs conditions := by
  obtain ⟨fetchedAt, inner, conditions, hw, -, hr, hreadAs⟩ := c.exists_writes hc
  refine ⟨conditions, ?_, hreadAs⟩
  rw [read?, read?_of_writes hw, Option.bind_some, hr]

/-- a load that succeeds has found a file that is not too old and can be read -/
theorem load_eq_ok_iff {disk : Disk} {path : String} {ttl : Duration} {cached : CachedWeather} :
    load disk path ttl = .ok cached ↔ ∃ file, disk.file? path = some file ∧
      file.age.nanoseconds ≤ ttl.nanoseconds ∧ read? file.contents = some cached := by
  unfold load
  cases disk.file? path with
  | none => exact ⟨nofun, fun ⟨_, h, _⟩ => nomatch h⟩
  | some file =>
    dsimp only
    split_ifs with hage
    · refine ⟨nofun, ?_⟩
      rintro ⟨_, ⟨⟩, h, -⟩
      exact absurd hage (Nat.not_lt.mpr h)
    · cases hread : read? file.contents with
      | none =>
        refine ⟨nofun, ?_⟩
        rintro ⟨_, ⟨⟩, -, h⟩
        rw [hread] at h
        cases h
      | some found =>
        dsimp only
        constructor
        · rintro ⟨⟩
          exact ⟨file, rfl, Nat.not_lt.mp hage, hread⟩
        · rintro ⟨_, ⟨⟩, -, h⟩
          rw [hread] at h
          exact congrArg Except.ok (Option.some.inj h)

theorem read?_write (c : CachedWeather) (hc : c.conditions.isFinite = true) :
    ∃ read, read? (Utf8.encode c.write) = some read ∧ read.fetchedAt = c.fetchedAt ∧
      read.conditions.description = c.conditions.description ∧
      read.conditions.unit = c.conditions.unit := by
  obtain ⟨conditions, hread, h⟩ := c.exists_readAs hc
  exact ⟨_, hread, rfl, h.description, h.unit⟩

/-- **A cache that is saved is loaded again** with the same instant, description and unit, from any
disk that holds the bytes that were written, as long as the file is not older than allowed. -/
theorem save_load (c : CachedWeather) (hc : c.conditions.isFinite = true) (disk : Disk)
    (path : String) (hp : disk.writable path = true) :
    ∃ saved contents, c.save disk path = (.ok (), saved) ∧
      saved.file? path = some ⟨contents, StoredFile.justWritten⟩ ∧
      ∀ (later : Disk) (age ttl : Duration), later.file? path = some ⟨contents, age⟩ →
        age.nanoseconds ≤ ttl.nanoseconds →
        ∃ loaded, load later path ttl = .ok loaded ∧ loaded.fetchedAt = c.fetchedAt ∧
          loaded.conditions.description = c.conditions.description ∧
          loaded.conditions.unit = c.conditions.unit := by
  obtain ⟨read, hread, hinstant, hdescription, hunit⟩ := read?_write c hc
  refine ⟨_, Utf8.encode c.write, ?_, Disk.file?_put disk path _, ?_⟩
  · rw [save, if_pos hc, Disk.write?, if_pos hp]
  · intro later age ttl hfile hage
    refine ⟨read, ?_, hinstant, hdescription, hunit⟩
    rw [load, hfile]
    dsimp only
    rw [if_neg (Nat.not_lt.mpr hage), hread]

/-- in the middle of a leap second, in the greatest cold that is a number, with quotes, a backslash,
control characters and a cloud in the description -/
theorem save_load_leapSecond : ∃ c : CachedWeather, c.fetchedAt.seconds = -3601 ∧
    c.fetchedAt.nanosecond = 1500000000 ∧
    c.conditions.temperatures.map Binary64.toBits = [18442240474082181119, 9223372036854775808, 1] ∧
    c.conditions.description = "\x22rain\x5c\x22\x00\n🌧" ∧ c.conditions.isFinite = true ∧
    Disk.empty.writable "weather-cache.json" = true ∧
    ∃ saved loaded, c.save Disk.empty "weather-cache.json" = (.ok (), saved) ∧
      load saved "weather-cache.json" ⟨60000000000⟩ = .ok loaded ∧
      loaded.fetchedAt = c.fetchedAt ∧
      loaded.conditions.description = c.conditions.description ∧
      loaded.conditions.unit = c.conditions.unit := by
  obtain ⟨c, hc⟩ : ∃ c : CachedWeather, c = ⟨⟨-3601, 1500000000, by decide, by decide⟩,
    { temperature := .ofBits 18442240474082181119
      high := .ofBits 9223372036854775808
      low := .ofBits 1
      description := "\x22rain\x5c\x22\x00\n🌧"
      unit := .kelvin }⟩ := ⟨_, rfl⟩
  have hfinite : c.conditions.isFinite = true := by
    rw [hc]
    decide +kernel
  obtain ⟨saved, contents, hsave, hfile, hload⟩ :=
    save_load c hfinite Disk.empty "weather-cache.json" rfl
  obtain ⟨loaded, h⟩ := hload saved _ ⟨60000000000⟩ hfile (by decide)
  refine ⟨c, ?_, ?_, ?_, ?_, hfinite, rfl, saved, loaded, hsave, h⟩
  · rw [hc]
  · rw [hc]
  · rw [hc]
    decide +kernel
  · rw [hc]

end CachedWeather

end DeskClock
