import DeskClock.Proofs.Weather.Cache

/-!
# the temperatures of the cache

* `Conditions.ReadAs.eq`     conditions with short decimals are read as they are;
* `save_load_temperatures`   the temperatures of a cache that is saved and loaded;
* `save_load_neighbour`      one that comes back as its neighbour.

A temperature of up to fifteen digits comes back bit for bit. The shortest digits of a float may be
sixteen or seventeen, and then the last bit may change.
-/

namespace DeskClock

open Json Binary64

theorem Conditions.ReadAs.eq {c read : Conditions} (h : c.ReadAs read)
    (hshort : ∀ x ∈ c.temperatures, IsShortDecimal x) : read = c := by
  have hkeep : ∀ x ∈ c.temperatures, ∀ y, reread? x = some y → y = x := fun x hx y hy =>
    Option.some.inj (hy.symm.trans (reread?_of_isShortDecimal (hshort x hx)))
  have htemperature := hkeep c.temperature (by simp [temperatures]) _ h.temperature
  have hhigh := hkeep c.high (by simp [temperatures]) _ h.high
  have hlow := hkeep c.low (by simp [temperatures]) _ h.low
  have hdescription := h.description
  have hunit := h.unit
  cases c
  cases read
  rw [Conditions.mk.injEq]
  exact ⟨htemperature, hhigh, hlow, hdescription, hunit⟩

namespace CachedWeather

/-- **The temperatures of a cache that is saved and loaded.** They stay finite and keep their signs.
Short decimals are loaded bit for bit, so that a cache that has no others is loaded as it was, and
moderate numbers are off by one rank at most. -/
theorem save_load_temperatures (c : CachedWeather) (hc : c.conditions.isFinite = true) (disk : Disk)
    (path : String) (hp : disk.writable path = true) :
    ∃ contents, c.save disk path = (.ok (), disk.put path (some ⟨contents, StoredFile.justWritten⟩)) ∧
      ∀ (later : Disk) (age ttl : Duration), later.file? path = some ⟨contents, age⟩ →
        age.nanoseconds ≤ ttl.nanoseconds →
        ∃ loaded, load later path ttl = .ok loaded ∧
          Rereads c.conditions.temperature loaded.conditions.temperature ∧
          Rereads c.conditions.high loaded.conditions.high ∧
          Rereads c.conditions.low loaded.conditions.low ∧
          ((∀ x ∈ c.conditions.temperatures, IsShortDecimal x) → loaded = c) := by
  have hfinite : ∀ x ∈ c.conditions.temperatures, x.isFinite = true := List.all_eq_true.mp hc
  obtain ⟨conditions, hread, h⟩ := c.exists_readAs hc
  refine ⟨Utf8.encode c.write, ?_, fun later age ttl hfile hage => ?_⟩
  · rw [save, if_pos hc, Disk.write?, if_pos hp]
  · refine ⟨⟨c.fetchedAt, conditions⟩, load_eq_ok_iff.mpr ⟨_, hfile, hage, hread⟩, ?_, ?_, ?_,
      fun hshort => ?_⟩
    · exact rereads_of_eq (hfinite _ (by simp [Conditions.temperatures])) h.temperature
    · exact rereads_of_eq (hfinite _ (by simp [Conditions.temperatures])) h.high
    · exact rereads_of_eq (hfinite _ (by simp [Conditions.temperatures])) h.low
    · rw [h.eq hshort]

/-- 98.6, 99.5 and half a degree below zero -/
theorem save_load_temperatures_fahrenheit : ∃ c : CachedWeather,
    c.conditions.temperatures.map toBits
      = [0x4058a66666666666, 0x4058e00000000000, 0xbfe0000000000000] ∧
    c.conditions.isFinite = true ∧ Disk.empty.writable "weather-cache.json" = true ∧
    ∃ saved, c.save Disk.empty "weather-cache.json" = (.ok (), saved) ∧
      load saved "weather-cache.json" ⟨60000000000⟩ = .ok c := by
  obtain ⟨c, hc⟩ : ∃ c : CachedWeather, c = ⟨⟨1700000000, 0, by decide, by decide⟩,
    { temperature := ofDecimal false 986 (-1)
      high := ofDecimal false 995 (-1)
      low := ofDecimal true 5 (-1)
      description := "light rain"
      unit := .fahrenheit }⟩ := ⟨_, rfl⟩
  have hfinite : c.conditions.isFinite = true := by
    rw [hc]
    decide +kernel
  have hshort : ∀ x ∈ c.conditions.temperatures, IsShortDecimal x := by
    rw [hc]
    intro x hx
    simp only [Conditions.temperatures, List.mem_cons, List.not_mem_nil, or_false] at hx
    rcases hx with h | h | h
    · rw [h]
      exact isShortDecimal_ofDecimal false (by norm_num : 986 ≤ 10 ^ 15) (by omega : 1 ≤ 22)
    · rw [h]
      exact isShortDecimal_ofDecimal false (by norm_num : 995 ≤ 10 ^ 15) (by omega : 1 ≤ 22)
    · rw [h]
      exact isShortDecimal_ofDecimal true (by norm_num : 5 ≤ 10 ^ 15) (by omega : 1 ≤ 22)
  obtain ⟨contents, hsave, hload⟩ :=
    save_load_temperatures c hfinite Disk.empty "weather-cache.json" rfl
  have hage : StoredFile.justWritten.nanoseconds ≤ (⟨60000000000⟩ : Duration).nanoseconds := by decide
  obtain ⟨loaded, h, -, -, -, hkept⟩ :=
    hload _ _ _ (Disk.file?_put Disk.empty "weather-cache.json" _) hage
  rw [hkept hshort] at h
  refine ⟨c, ?_, hfinite, rfl, _, hsave, h⟩
  rw [hc]
  decide +kernel

/-- **A temperature of sixteen digits that comes back as its neighbour**: the digits
`9860000000000001` fit in 53 bits no more. -/
theorem save_load_neighbour : ∃ c : CachedWeather,
    c.conditions.temperature.toBits = 0x4058a66666666667 ∧ c.conditions.isFinite = true ∧
    ∃ saved loaded, c.save Disk.empty "weather-cache.json" = (.ok (), saved) ∧
      load saved "weather-cache.json" ⟨60000000000⟩ = .ok loaded ∧
      loaded.conditions.temperature.toBits = 0x4058a66666666666 ∧
      loaded.conditions.temperature ≠ c.conditions.temperature := by
  obtain ⟨c, hc⟩ : ∃ c : CachedWeather, c = ⟨⟨1700000000, 0, by decide, by decide⟩,
    { temperature := .ofBits 0x4058a66666666667
      high := ofDecimal false 99 0
      low := ofDecimal false 38 0
      description := "light rain"
      unit := .fahrenheit }⟩ := ⟨_, rfl⟩
  have hfinite : c.conditions.isFinite = true := by
    rw [hc]
    decide +kernel
  have hread : (reread? c.conditions.temperature).map toBits = some 0x4058a66666666666 := by
    rw [hc]
    decide +kernel
  have hbits : c.conditions.temperature.toBits = 0x4058a66666666667 := by
    rw [hc]
    decide +kernel
  obtain ⟨conditions, hdecoded, h⟩ := c.exists_readAs hfinite
  have hneighbour : conditions.temperature.toBits = 0x4058a66666666666 := by
    rw [h.temperature] at hread
    exact Option.some.inj hread
  refine ⟨c, hbits, hfinite, Disk.empty.put "weather-cache.json"
    (some ⟨Utf8.encode c.write, StoredFile.justWritten⟩), ⟨c.fetchedAt, conditions⟩, ?_, ?_,
    hneighbour, fun heq => ?_⟩
  · rw [save, if_pos hfinite]
    rfl
  · have hage : StoredFile.justWritten.nanoseconds ≤ (⟨60000000000⟩ : Duration).nanoseconds := by decide
    exact load_eq_ok_iff.mpr ⟨_, Disk.file?_put _ _ _, hage, hdecoded⟩
  · have hsame : conditions.temperature.toBits = c.conditions.temperature.toBits := congrArg toBits heq
    rw [hneighbour, hbits] at hsame
    cases hsame

end CachedWeather

end DeskClock
