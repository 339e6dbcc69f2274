import DeskClock.Proofs.Clock.Life
import DeskClock.Proofs.Weather.Cache

/-!
# the conditions that are shown and kept

* `WeatherReply.weather?`, `Mail.weather`   the weather that replies bring, with the instants of the ticks;
* `CachedWeather.saveAll`   the disk after weather is saved, one after the other; `saveAll_eq`: it keeps
                            the last that is finite;
* `cached?_eq_some_iff`     when a clock shows weather from the start;
* `Shows`                   what holds of a clock and the replies to its weather client;
* `Shows.new`, `Shows.apply`   it holds at first, and whatever happens keeps it;
* `conditions_kept`         the conditions that are shown and the cache file, after any life of a clock.
-/

namespace DeskClock

open Native

variable {σ τ ε : Type}

/-! ## weather that comes in -/

/-- the weather that a reply brings in a tick; only a request that succeeds has a record -/
def Native.WeatherReply.weather? (unit : TemperatureUnit) (now : Instant) (r : WeatherReply) :
    Option CachedWeather :=
  if r.code = 0 then r.record.map fun record => ⟨now, record.conditions unit⟩ else none

/-- the weather that has come in -/
def Mail.weather (unit : TemperatureUnit) (m : Mail WeatherReply) : List CachedWeather :=
  m.handled.filterMap fun (now, r) => r.weather? unit now

theorem weather?_eq (unit : TemperatureUnit) (now : Instant) (r : WeatherReply) :
    r.weather? unit now = (WeatherUpdate.ofReply unit r).conditions?.map (⟨now, ·⟩) := by
  rw [WeatherReply.weather?, WeatherUpdate.conditions?_ofReply]
  split
  · rw [Option.map_map]
    rfl
  · rfl

/-- a tick adds the conditions of its updates -/
theorem Mail.weather_collect (unit : TemperatureUnit) (m : Mail WeatherReply) (now : Instant)
    (replies : List WeatherReply) :
    (m.collect now replies).weather unit = m.weather unit
      ++ (((m.waiting ++ replies).map (WeatherUpdate.ofReply unit)).filterMap (·.conditions?)).map
        (⟨now, ·⟩) := by
  rw [weather, collect, List.filterMap_append, List.filterMap_map, List.filterMap_map, List.map_filterMap]
  refine congrArg _ (List.filterMap_congr fun r _ => ?_)
  exact weather?_eq unit now r

/-- weather that has come in is that of a reply, in the given unit and with the temperatures of the
record -/
theorem Mail.exists_of_mem_weather {unit : TemperatureUnit} {m : Mail WeatherReply} {w : CachedWeather}
    (hw : w ∈ m.weather unit) : ∃ r record, (w.fetchedAt, r) ∈ m.handled ∧ r.code = 0 ∧
      r.record = some record ∧ w.conditions.unit = unit ∧
      w.conditions.temperatures = [record.temperature, record.high, record.low] := by
  obtain ⟨⟨now, r⟩, hr, hbrought⟩ := List.mem_filterMap.mp hw
  dsimp only [WeatherReply.weather?] at hbrought
  split at hbrought
  · next hcode =>
    obtain ⟨record, hrecord, rfl⟩ := Option.map_eq_some_iff.mp hbrought
    exact ⟨r, record, hr, hcode, hrecord, rfl, rfl⟩
  · cases hbrought

/-! ## the cache file -/

namespace Disk

theorem put_put (disk : Disk) (path : String) (file file' : Option StoredFile) :
    (disk.put path file).put path file' = disk.put path file' := by
  unfold put
  refine congrArg (fun f => Disk.mk f disk.writable) (funext fun other => ?_)
  dsimp only
  split_ifs with h
  · rfl
  · rfl

end Disk

namespace CachedWeather

variable (path : String)

/-- the disk with the file of some weather; a path that cannot be written stays as it is -/
def kept (disk : Disk) (w : CachedWeather) : Disk :=
  if disk.writable path then
    disk.put path (some ⟨Utf8.encode w.write, StoredFile.justWritten⟩)
  else disk

/-- the disk after weather is saved, one after the other -/
def saveAll (ws : List CachedWeather) (disk : Disk) : Disk :=
  ws.foldl (fun disk w => (w.save disk path).2) disk

theorem save_snd (w : CachedWeather) (disk : Disk) :
    (w.save disk path).2 = if w.conditions.isFinite then w.kept path disk else disk := by
  unfold save kept Disk.write?
  split
  · by_cases hw : disk.writable path = true
    · rw [if_pos hw, if_pos hw]
    · rw [if_neg hw, if_neg hw]
  · rfl

theorem kept_kept (w w' : CachedWeather) (disk : Disk) :
    w'.kept path (w.kept path disk) = w'.kept path disk := by
  by_cases h : disk.writable path = true
  · have hput : ∀ file, (disk.put path file).writable path = true := fun _ => h
    unfold kept
    rw [if_pos h, if_pos h, if_pos (hput _), Disk.put_put]
  · have hw : w.kept path disk = disk := if_neg h
    rw [hw]

/-- after a series of saves the file is that of the last weather that is finite -/
theorem saveAll_eq (ws : List CachedWeather) (disk : Disk) : saveAll path ws disk =
    match (ws.filter (·.conditions.isFinite)).getLast? with
    | some w => w.kept path disk
    | none => disk := by
  induction ws generalizing disk with
  | nil => rfl
  | cons w ws ih =>
    show saveAll path ws (w.save disk path).2 = _
    rw [ih, save_snd]
    by_cases hw : w.conditions.isFinite = true
    · rw [if_pos hw, List.filter_cons_of_pos (p := fun w : CachedWeather => w.conditions.isFinite) hw,
        List.getLast?_cons]
      cases (ws.filter (·.conditions.isFinite)).getLast? with
      | none => rfl
      | some last => exact kept_kept path w last disk
    · rw [if_neg hw, List.filter_cons_of_neg (p := fun w : CachedWeather => w.conditions.isFinite) hw]

end CachedWeather

namespace Clock

/-- a clock shows weather from the start if the file is there, not too old, and can be read -/
theorem cached?_eq_some_iff {config : Config} {disk : Disk} {conditions : Conditions} :
    cached? config disk = some conditions ↔ ∃ file fetchedAt,
      disk.file? config.weather.cachePath = some file ∧
      file.age.nanoseconds ≤ config.weather.cacheTtl.nanoseconds ∧
      CachedWeather.read? file.contents = some ⟨fetchedAt, conditions⟩ := by
  unfold cached?
  constructor
  · intro h
    split at h
    · next cached hload =>
      obtain ⟨file, hfile, hage, hread⟩ := CachedWeather.load_eq_ok_iff.mp hload
      cases h
      exact ⟨file, cached.fetchedAt, hfile, hage, hread⟩
    · cases h
  · rintro ⟨file, fetchedAt, hfile, hage, hread⟩
    rw [CachedWeather.load_eq_ok_iff.mpr ⟨file, hfile, hage, hread⟩]

/-! ## what a life keeps -/

/-- the weather client has the replies that wait in its queue; the last weather that came in is shown, and
all of it was saved -/
structure Shows (config : Config) (disk : Disk) (c : Clock σ τ) (m : Mail WeatherReply) : Prop where
  settings : c.config = config
  client : ∀ client, c.weather.client = some client → client.unit = config.weather.units ∧
    client.queue = m.waiting.map (.ofReply config.weather.units)
  conditions : c.weather.conditions =
    ((m.weather config.weather.units).getLast?.map (·.conditions)).or (cached? config disk)
  disk : c.disk = CachedWeather.saveAll config.weather.cachePath (m.weather config.weather.units) disk

theorem Shows.new (config : Config) (disk : Disk) (native : Session σ) (surface : τ) :
    Shows config disk (Clock.new config disk native surface) {} where
  settings := rfl
  client _ h := nomatch h
  conditions := rfl
  disk := rfl

namespace Shows

variable {config : Config} {disk : Disk} {c c' : Clock σ τ} {m : Mail WeatherReply}

/-- what leaves the weather, the disk and the settings -/
theorem of_eq (h : Shows config disk c m) (hconfig : c'.config = c.config)
    (hclient : c'.weather.client = c.weather.client)
    (hconditions : c'.weather.conditions = c.weather.conditions) (hdisk : c'.disk = c.disk) :
    Shows config disk c' m where
  settings := hconfig.trans h.settings
  client := hclient ▸ h.client
  conditions := hconditions.trans h.conditions
  disk := hdisk.trans h.disk

/-- another weather client, to which nobody has replied -/
theorem replaced (h : Shows config disk c m) {client : Option WeatherClient}
    (hnew : ∀ new, client = some new → new.unit = config.weather.units ∧ new.queue = []) :
    Shows config disk { c with weather := { c.weather with client } } m.drop where
  settings := h.settings
  client := hnew
  conditions := h.conditions
  disk := h.disk

variable (lib : Library σ) (S : Surface τ ε) (now : Instant)

theorem attach (h : Shows config disk c m) :
    Shows config disk (c.attach lib) (if c.config.weather.isEnabled then m.drop else m) := by
  obtain ⟨native, status, hsync⟩ := syncOnStart_eq lib { c with status := none }
  obtain ⟨native', ntpClient, weatherClient, scheduler, hattach, -, hweather, -⟩ :=
    attachClients_eq lib ({ c with status := none }.syncOnStart lib)
  have heq : c.attach lib = { c with
      native := native', status, attached := true
      ntp := { c.ntp with client := ntpClient }
      weather := { c.weather with client := weatherClient }
      alarms := { c.alarms with scheduler } } := by
    unfold Clock.attach
    dsimp only
    rw [hattach, hsync]
  rw [hsync] at hweather
  dsimp only at hweather
  rw [heq]
  split_ifs at hweather ⊢ with henabled
  · rw [h.settings] at hweather
    exact (h.replaced hweather).of_eq rfl rfl rfl rfl
  · exact h.of_eq rfl hweather rfl rfl

theorem receive (h : Shows config disk c m) (r : WeatherReply) :
    Shows config disk (c.receiveWeather r)
      (if c.weather.client.isSome ∧ r.hasContext then m.add r else m) := by
  unfold receiveWeather
  cases hc : c.weather.client with
  | none =>
    rw [if_neg (by simp)]
    exact h.of_eq rfl hc.symm rfl rfl
  | some client =>
    obtain ⟨hunit, hqueue⟩ := h.client client hc
    rw [Option.map_some, WeatherClient.receive]
    by_cases hr : r.hasContext = true
    · rw [if_pos hr, if_pos ⟨rfl, hr⟩]
      refine ⟨h.settings, ?_, h.conditions, h.disk⟩
      rintro _ ⟨⟩
      refine ⟨hunit, ?_⟩
      rw [Mail.add, List.map_append, ← hqueue, ← hunit]
      rfl
    · rw [if_neg hr, if_neg (fun e => hr e.2)]
      exact h.of_eq rfl hc.symm rfl rfl

/-- handling the ended weather requests -/
theorem collected (h : Shows config disk c m) : Shows config disk (c.collectedWeather lib now)
    (if c.weather.client.isSome ∧ c.weather.state = .inProcess then
      m.collect now (c.weatherReplies lib) else m) := by
  unfold collectedWeather weatherReplies awaited
  cases hc : c.weather.client with
  | none =>
    rw [if_neg (by simp)]
    exact h
  | some client =>
    obtain ⟨hunit, hqueue⟩ := h.client client hc
    by_cases hs : c.weather.state = .inProcess
    · dsimp only
      rw [if_pos hs, if_pos hs, if_pos ⟨rfl, hs⟩, collectWeather_foldl, foldl_onWeatherUpdate, hqueue,
        hunit, ← List.map_append]
      have hcame := Mail.weather_collect config.weather.units m now
        ((c.native.ask lib (.weather (.process client.handle))).1.filter WeatherReply.hasContext)
      generalize ((m.waiting ++ (c.native.ask lib (.weather (.process client.handle))).1.filter
        WeatherReply.hasContext).map (WeatherUpdate.ofReply config.weather.units)) = updates at hcame ⊢
      refine ⟨h.settings, ?_, ?_, ?_⟩
      · rintro _ ⟨⟩
        exact ⟨rfl, rfl⟩
      · dsimp only
        rw [hcame, List.getLast?_append, h.conditions, List.getLast?_map]
        cases (updates.filterMap (·.conditions?)).getLast? with
        | none => rfl
        | some last => rfl
      · dsimp only
        rw [hcame, h.settings, CachedWeather.saveAll, List.foldl_append, List.foldl_map, h.disk]
        rfl
    · dsimp only
      rw [if_neg hs, if_neg (fun e => hs e.2)]
      exact h

theorem tick (h : Shows config disk c m) (offset : Int) :
    Shows config disk (c.tick lib S now offset).2
      (if c.weather.client.isSome ∧ c.weather.state = .inProcess then
        m.collect now ((c.pumpNtp lib now).weatherReplies lib) else m) := by
  obtain ⟨native, status, ntp, hntp, -⟩ := pumpNtp_calls lib now c
  have h1 : Shows config disk (c.pumpNtp lib now) m := by
    rw [hntp]
    exact h.of_eq rfl rfl rfl rfl
  have h2 := h1.collected lib now
  obtain ⟨native', hrequested, -⟩ := requestedWeather_eq lib now ((c.pumpNtp lib now).collectedWeather lib now)
  have hsame : (c.pumpNtp lib now).weather = c.weather := by rw [hntp]
  rw [hsame] at h2
  have h3 : Shows config disk ((c.pumpNtp lib now).pumpWeather lib now)
      (if c.weather.client.isSome ∧ c.weather.state = .inProcess then
        m.collect now ((c.pumpNtp lib now).weatherReplies lib) else m) := by
    rw [pumpWeather_eq, hrequested]
    exact h2.of_eq rfl rfl rfl rfl
  obtain ⟨native'', lastMinute, next, halarm, -⟩ :=
    refreshAlarm_calls lib now ((c.pumpNtp lib now).pumpWeather lib now)
  obtain ⟨host, htick⟩ := c.tick_eq lib S now offset
  rw [htick, pump, halarm]
  exact h3.of_eq rfl rfl rfl rfl

/-- whatever happens to the clock -/
theorem apply (h : Shows config disk c m) (e : Happening) :
    Shows config disk (e.apply lib S c) (sortWeather lib c m e) := by
  cases e with
  | step s =>
    cases s with
    | attach => exact h.attach lib
    | start =>
      obtain ⟨host, hstart⟩ := c.start_eq S
      show Shows config disk (c.start S).2 m
      rw [hstart]
      exact h.of_eq rfl rfl rfl rfl
    | event e =>
      obtain ⟨host, hevent⟩ := c.handleEvent_eq S e
      show Shows config disk (c.handleEvent S e).2 m
      rw [hevent]
      exact h.of_eq rfl rfl rfl rfl
    | shutdown =>
      have hgone : Shows config disk { c with weather := { c.weather with client := none } } m.drop :=
        h.replaced nofun
      exact hgone.of_eq rfl rfl rfl rfl
    | tick now offset => exact h.tick lib S now offset
  | ntpReply r => exact h.of_eq rfl rfl rfl rfl
  | weatherReply r => exact h.receive r

end Shows

/-- **The last weather that came in is shown, and the last that is finite is in the cache file.** Failures
and replies with an unknown code change neither; without weather both stay what they were when the clock
was made. What comes in has the configured unit and the temperatures of its record. -/
theorem conditions_kept (lib : Library σ) (S : Surface τ ε) (config : Config) (disk : Disk)
    (native : Session σ) (surface : τ) (life : List Happening) :
    let c₀ := Clock.new config disk native surface
    let c := c₀.live lib S life
    let mail := c₀.weatherMail lib S life
    let came := mail.weather config.weather.units
    c.weather.conditions = (came.getLast?.map (·.conditions)).or (cached? config disk) ∧
    (∀ conditions, cached? config disk = some conditions ↔ ∃ file fetchedAt,
      disk.file? config.weather.cachePath = some file ∧
      file.age.nanoseconds ≤ config.weather.cacheTtl.nanoseconds ∧
      CachedWeather.read? file.contents = some ⟨fetchedAt, conditions⟩) ∧
    c.disk = (match (came.filter (·.conditions.isFinite)).getLast? with
      | some w =>
        if disk.writable config.weather.cachePath then
          disk.put config.weather.cachePath (some ⟨Utf8.encode w.write, StoredFile.justWritten⟩)
        else disk
      | none => disk) ∧
    (∀ client, c.weather.client = some client →
      client.queue = mail.waiting.map (.ofReply config.weather.units)) ∧
    ∀ w ∈ came, ∃ r record, (w.fetchedAt, r) ∈ mail.handled ∧ r.code = 0 ∧ r.record = some record ∧
      w.conditions.unit = config.weather.units ∧
      w.conditions.temperatures = [record.temperature, record.high, record.low] := by
  intro c₀ c mail came
  have h : Shows config disk c mail :=
    gather_keeps lib S (sortWeather lib) (Shows.new config disk native surface)
      fun _ _ e _ hc => hc.apply lib S e
  refine ⟨h.conditions, fun _ => cached?_eq_some_iff, ?_, fun client hc => (h.client client hc).2, fun w hw =>
    Mail.exists_of_mem_weather hw⟩
  rw [h.disk, CachedWeather.saveAll_eq]
  rfl

end Clock

end DeskClock
