import DeskClock.Proofs.Clock.Life
import DeskClock.Proofs.Native.Answers

/-!
# the parts of a clock

* `Clock.part`       what a service keeps in a clock;
* `Only`             a service has gone on, and the parts of the others are as they were;
* `AlikeAt`          two clocks that a service cannot tell apart;
* `AlikeAt.only`     they stay so when another service goes on in one of them;
* `ActsOn`           what is done to a clock is done to the part of one service, and follows from what this
                     service sees; `ActsOn.keeps`: two clocks stay alike at every service;
* `pumpNtp_actsOn`, `pumpWeather_actsOn`, `refreshAlarm_actsOn`, …   all that is done for a service.
-/

namespace DeskClock

open Native

variable {σ σ₁ σ₂ τ τ₁ τ₂ : Type}

/-- what is written to the cache depends on the cache file only -/
theorem CachedWeather.save_alike (c : CachedWeather) {disk₁ disk₂ : Disk} {path : String}
    (hfile : disk₁.file? path = disk₂.file? path) (hwritable : disk₁.writable path = disk₂.writable path) :
    (c.save disk₁ path).2.file? path = (c.save disk₂ path).2.file? path ∧
      (c.save disk₁ path).2.writable path = (c.save disk₂ path).2.writable path := by
  unfold save
  split
  · unfold Disk.write?
    rw [hwritable]
    cases hw : disk₂.writable path with
    | true => simp [Disk.put, hwritable]
    | false => simp [hfile, hwritable]
  · exact ⟨hfile, hwritable⟩

namespace Clock

/-- what a service keeps: the time service also has the status, the weather service its cache file -/
def Part : Service → Type
  | .ntp => NtpService × Option String
  | .weather => WeatherService × Option StoredFile × Bool
  | .alarms => AlarmService

def part (c : Clock σ τ) : (service : Service) → Part service
  | .ntp => (c.ntp, c.status)
  | .weather =>
    (c.weather, c.disk.file? c.config.weather.cachePath, c.disk.writable c.config.weather.cachePath)
  | .alarms => c.alarms

/-! ## one clock -/

/-- a service has gone on, and the parts of the others are as they were -/
structure Only (lib : Library σ) (service : Service) (c c' : Clock σ τ) : Prop where
  config : c'.config = c.config
  attached : c'.attached = c.attached
  part : ∀ other, service ≠ other → c'.part other = c.part other
  native : c.native.Goes lib service c'.native

namespace Only

variable {lib : Library σ} {service : Service} {c c' c'' : Clock σ τ} {native : Session σ}

theorem refl : Only lib service c c := ⟨rfl, rfl, fun _ _ => rfl, .refl⟩

theorem trans (h : Only lib service c c') (h' : Only lib service c' c'') : Only lib service c c'' where
  config := h'.config.trans h.config
  attached := h'.attached.trans h.attached
  part other hother := (h'.part other hother).trans (h.part other hother)
  native := h.native.trans h'.native

theorem ite {p : Prop} [Decidable p] (h : Only lib service c c') :
    Only lib service c (if p then c' else c) := by
  split
  · exact h
  · exact .refl

theorem ntp (h : c.native.Goes lib .ntp native) (ntp : NtpService) (status : Option String) :
    Only lib .ntp c { c with native, ntp, status } where
  config := rfl
  attached := rfl
  part other hother := by
    cases other with
    | ntp => exact absurd rfl hother
    | weather => rfl
    | alarms => rfl
  native := h

theorem weather (h : c.native.Goes lib .weather native) (weather : WeatherService) (disk : Disk) :
    Only lib .weather c { c with native, weather, disk } where
  config := rfl
  attached := rfl
  part other hother := by
    cases other with
    | ntp => rfl
    | weather => exact absurd rfl hother
    | alarms => rfl
  native := h

theorem alarms (h : c.native.Goes lib .alarms native) (alarms : AlarmService) :
    Only lib .alarms c { c with native, alarms } where
  config := rfl
  attached := rfl
  part other hother := by
    cases other with
    | ntp => rfl
    | weather => rfl
    | alarms => exact absurd rfl hother
  native := h

end Only

/-! ## two clocks -/

/-- two clocks that a service cannot tell apart -/
structure AlikeAt (lib₁ : Library σ₁) (lib₂ : Library σ₂) (service : Service) (c₁ : Clock σ₁ τ₁)
    (c₂ : Clock σ₂ τ₂) : Prop where
  config : c₁.config = c₂.config
  attached : c₁.attached = c₂.attached
  part : c₁.part service = c₂.part service
  native : Alike lib₁ lib₂ service c₁.native c₂.native

namespace AlikeAt

variable {lib₁ : Library σ₁} {lib₂ : Library σ₂} {service other : Service} {c₁ c₁' : Clock σ₁ τ₁}
  {c₂ : Clock σ₂ τ₂}

theorem symm (h : AlikeAt lib₁ lib₂ service c₁ c₂) : AlikeAt lib₂ lib₁ service c₂ c₁ :=
  ⟨h.config.symm, h.attached.symm, h.part.symm, h.native.symm⟩

theorem ite {p : Prop} [Decidable p] (h : AlikeAt lib₁ lib₂ service c₁ c₂) {c₂' : Clock σ₂ τ₂}
    (h' : AlikeAt lib₁ lib₂ service c₁' c₂') :
    AlikeAt lib₁ lib₂ service (if p then c₁' else c₁) (if p then c₂' else c₂) := by
  split
  · exact h'
  · exact h

/-- what goes on at another service is not seen -/
theorem only (h : AlikeAt lib₁ lib₂ service c₁ c₂) (hother : other ≠ service)
    (honly : Only lib₁ other c₁ c₁') : AlikeAt lib₁ lib₂ service c₁' c₂ where
  config := honly.config.trans h.config
  attached := honly.attached.trans h.attached
  part := (honly.part service hother).trans h.part
  native := h.native.goes hother honly.native

/-- a clock that the time service cannot tell from another differs in what the others keep -/
theorem ntp_cases (h : AlikeAt lib₁ lib₂ .ntp c₁ c₂) : ∃ host native disk weather alarms,
    c₁ = ⟨c₂.config, host, native, disk, c₂.attached, c₂.ntp, weather, alarms, c₂.status⟩ ∧
    Alike lib₁ lib₂ .ntp native c₂.native := by
  obtain ⟨config, host, native, disk, attached, ntp, weather, alarms, status⟩ := c₁
  obtain ⟨hconfig, hattached, hpart, hnative⟩ := h
  obtain ⟨hntp, hstatus⟩ := Prod.mk.inj hpart
  dsimp only at hconfig hattached hntp hstatus
  subst hconfig hattached hntp hstatus
  exact ⟨host, native, disk, weather, alarms, rfl, hnative⟩

theorem weather_cases (h : AlikeAt lib₁ lib₂ .weather c₁ c₂) : ∃ host native disk ntp alarms status,
    c₁ = ⟨c₂.config, host, native, disk, c₂.attached, ntp, c₂.weather, alarms, status⟩ ∧
    disk.file? c₂.config.weather.cachePath = c₂.disk.file? c₂.config.weather.cachePath ∧
    disk.writable c₂.config.weather.cachePath = c₂.disk.writable c₂.config.weather.cachePath ∧
    Alike lib₁ lib₂ .weather native c₂.native := by
  obtain ⟨config, host, native, disk, attached, ntp, weather, alarms, status⟩ := c₁
  obtain ⟨hconfig, hattached, hpart, hnative⟩ := h
  obtain ⟨hweather, hdisk⟩ := Prod.mk.inj hpart
  obtain ⟨hfile, hwritable⟩ := Prod.mk.inj hdisk
  dsimp only at hconfig hattached hweather hfile hwritable
  subst hconfig hattached hweather
  exact ⟨host, native, disk, ntp, alarms, status, rfl, hfile, hwritable, hnative⟩

/-- two clocks are alike at the weather service if their cache files are -/
theorem weather {config : Config} {host₁ : WindowHost τ₁} {host₂ : WindowHost τ₂}
    {native₁ : Session σ₁} {native₂ : Session σ₂} {disk₁ disk₂ : Disk} {attached : Bool}
    {ntp₁ ntp₂ : NtpService} {weather : WeatherService} {alarms₁ alarms₂ : AlarmService}
    {status₁ status₂ : Option String}
    (hfile : disk₁.file? config.weather.cachePath = disk₂.file? config.weather.cachePath)
    (hwritable : disk₁.writable config.weather.cachePath = disk₂.writable config.weather.cachePath)
    (hnative : Alike lib₁ lib₂ .weather native₁ native₂) :
    AlikeAt lib₁ lib₂ .weather ⟨config, host₁, native₁, disk₁, attached, ntp₁, weather, alarms₁, status₁⟩
      ⟨config, host₂, native₂, disk₂, attached, ntp₂, weather, alarms₂, status₂⟩ :=
  ⟨rfl, rfl, Prod.ext rfl (Prod.ext hfile hwritable), hnative⟩

theorem alarms_cases (h : AlikeAt lib₁ lib₂ .alarms c₁ c₂) : ∃ host native disk ntp weather status,
    c₁ = ⟨c₂.config, host, native, disk, c₂.attached, ntp, weather, c₂.alarms, status⟩ ∧
    Alike lib₁ lib₂ .alarms native c₂.native := by
  obtain ⟨config, host, native, disk, attached, ntp, weather, alarms, status⟩ := c₁
  obtain ⟨hconfig, hattached, hpart, hnative⟩ := h
  dsimp only [Clock.part] at hconfig hattached hpart
  subst hconfig hattached hpart
  exact ⟨host, native, disk, ntp, weather, status, rfl, hnative⟩

end AlikeAt

/-! ## what acts on one service -/

/-- what is done to a clock is done for one service, and follows from what this service sees -/
structure ActsOn (service : Service) (f : {σ τ : Type} → Library σ → Clock σ τ → Clock σ τ) : Prop where
  only {σ τ : Type} (lib : Library σ) (c : Clock σ τ) : Only lib service c (f lib c)
  alike {σ₁ σ₂ τ₁ τ₂ : Type} {lib₁ : Library σ₁} {lib₂ : Library σ₂} {c₁ : Clock σ₁ τ₁}
    {c₂ : Clock σ₂ τ₂} : AlikeAt lib₁ lib₂ service c₁ c₂ →
      AlikeAt lib₁ lib₂ service (f lib₁ c₁) (f lib₂ c₂)

namespace ActsOn

variable {service other : Service} {f g : {σ τ : Type} → Library σ → Clock σ τ → Clock σ τ}

theorem id (service : Service) : ActsOn service fun _ c => c := ⟨fun _ _ => .refl, fun h => h⟩

theorem comp (hf : ActsOn service f) (hg : ActsOn service g) :
    ActsOn service fun lib c => g lib (f lib c) :=
  ⟨fun lib c => (hf.only lib c).trans (hg.only lib _), fun h => hg.alike (hf.alike h)⟩

theorem foldl {β : Type} {f : β → {σ τ : Type} → Library σ → Clock σ τ → Clock σ τ}
    (hf : ∀ b, ActsOn service (f b)) (bs : List β) :
    ActsOn service fun lib c => bs.foldl (fun c b => f b lib c) c := by
  induction bs with
  | nil => exact .id service
  | cons b bs ih => exact (hf b).comp ih

/-- **Two clocks stay alike at every service**: at the one that goes on because it sees the same, and at
the others because they do not see it. -/
theorem keeps (hf : ActsOn other f) {lib₁ : Library σ₁} {lib₂ : Library σ₂} {c₁ : Clock σ₁ τ₁}
    {c₂ : Clock σ₂ τ₂} (h : AlikeAt lib₁ lib₂ service c₁ c₂) :
    AlikeAt lib₁ lib₂ service (f lib₁ c₁) (f lib₂ c₂) := by
  by_cases hs : other = service
  · subst hs
    exact hf.alike h
  · have h₁ := h.only hs (hf.only lib₁ c₁)
    exact (h₁.symm.only hs (hf.only lib₂ c₂)).symm

end ActsOn

/-! ## the time service -/

theorem status_actsOn (status : Option String) : ActsOn .ntp fun _ c => { c with status } where
  only _ _ := .ntp .refl _ _
  alike h := by
    obtain ⟨host, native, disk, weather, alarms, rfl, hnative⟩ := h.ntp_cases
    exact ⟨rfl, rfl, rfl, hnative⟩

theorem setMachineTime_actsOn : ActsOn .ntp fun lib c => c.setMachineTime lib where
  only lib c := by
    have hset := (setTime_confined c.config.ntp.server c.config.ntp.timeout).goes lib c.native
    unfold setMachineTime
    generalize setTime lib c.config.ntp.server c.config.ntp.timeout c.native = x at hset ⊢
    obtain ⟨result, native⟩ := x
    cases result with
    | ok outcome => exact .ntp hset _ _
    | error fault => exact .ntp hset _ _
  alike {_ _ _ _ lib₁ lib₂ _ c₂} h := by
    obtain ⟨host, native, disk, weather, alarms, rfl, hnative⟩ := h.ntp_cases
    have hset := (setTime_confined c₂.config.ntp.server c₂.config.ntp.timeout).alike hnative
    unfold setMachineTime
    dsimp only
    generalize setTime lib₁ c₂.config.ntp.server c₂.config.ntp.timeout native = x₁ at hset ⊢
    generalize setTime lib₂ c₂.config.ntp.server c₂.config.ntp.timeout c₂.native = x₂ at hset ⊢
    obtain ⟨result₁, native₁⟩ := x₁
    obtain ⟨result₂, native₂⟩ := x₂
    obtain ⟨rfl, hset⟩ := hset
    cases result₁ with
    | ok outcome => exact ⟨rfl, rfl, rfl, hset⟩
    | error fault => exact ⟨rfl, rfl, rfl, hset⟩

theorem syncOnStart_actsOn : ActsOn .ntp fun lib c => c.syncOnStart lib where
  only lib c := by
    unfold syncOnStart
    split
    · exact setMachineTime_actsOn.only lib c
    · exact .refl
  alike h := by
    unfold syncOnStart
    rw [h.config]
    split
    · exact setMachineTime_actsOn.alike h
    · exact h

theorem replaceNtp_actsOn (client : Option NtpClient) :
    ActsOn .ntp fun lib c => c.replaceNtp lib client where
  only lib c := by
    unfold replaceNtp
    cases hclient : c.ntp.client with
    | none => exact .ntp .refl _ _
    | some old => exact .ntp (old.close_confined.goes lib c.native) _ _
  alike {_ _ _ _ lib₁ lib₂ _ c₂} h := by
    obtain ⟨host, native, disk, weather, alarms, rfl, hnative⟩ := h.ntp_cases
    unfold replaceNtp
    dsimp only
    cases c₂.ntp.client with
    | none => exact ⟨rfl, rfl, rfl, hnative⟩
    | some old => exact ⟨rfl, rfl, rfl, (old.close_confined.alike hnative).2⟩

theorem attachNtp_actsOn : ActsOn .ntp fun lib c => c.attachNtp lib where
  only lib c := by
    have hcreate : Only lib .ntp c { c with native := (NtpClient.create lib c.native).2 } :=
      .ntp (NtpClient.create_confined.goes lib c.native) _ _
    exact hcreate.trans ((replaceNtp_actsOn _).only lib _)
  alike {_ _ _ _ lib₁ lib₂ c₁ c₂} h := by
    obtain ⟨hcreated, hnative⟩ := NtpClient.create_confined.alike h.native
    unfold attachNtp
    dsimp only
    rw [hcreated]
    exact (replaceNtp_actsOn _).alike ⟨h.config, h.attached, h.part, hnative⟩

theorem onDrift_actsOn (seconds : Int) : ActsOn .ntp fun lib c => c.onDrift lib seconds where
  only lib c := by
    unfold onDrift
    split
    · exact setMachineTime_actsOn.only lib c
    · exact .ntp .refl _ _
  alike {_ _ _ _ lib₁ lib₂ _ c₂} h := by
    obtain ⟨host, native, disk, weather, alarms, rfl, hnative⟩ := h.ntp_cases
    unfold onDrift
    dsimp only
    split
    · exact setMachineTime_actsOn.alike h
    · exact ⟨rfl, rfl, rfl, hnative⟩

theorem onNtpUpdate_actsOn (now : Instant) (update : NtpUpdate) :
    ActsOn .ntp fun lib c => c.onNtpUpdate lib now update where
  only lib c := by
    have hstate : ∀ state, Only lib .ntp c { c with ntp := { c.ntp with state } } := fun _ =>
      .ntp .refl _ _
    unfold onNtpUpdate
    cases update.driftFrom now with
    | none => exact hstate _
    | some drift =>
      dsimp only
      split
      · exact hstate _
      · exact (hstate _).trans ((onDrift_actsOn _).only lib _)
  alike {_ _ _ _ lib₁ lib₂ _ c₂} h := by
    obtain ⟨host, native, disk, weather, alarms, rfl, hnative⟩ := h.ntp_cases
    unfold onNtpUpdate
    cases update.driftFrom now with
    | none => exact ⟨rfl, rfl, rfl, hnative⟩
    | some drift =>
      dsimp only
      split
      · exact ⟨rfl, rfl, rfl, hnative⟩
      · exact (onDrift_actsOn _).alike ⟨rfl, rfl, rfl, hnative⟩

theorem collectNtp_actsOn (now : Instant) (client : NtpClient) :
    ActsOn .ntp fun lib c => c.collectNtp lib now client where
  only lib c := by
    have hprocess : Only lib .ntp c { c with
        native := (client.process lib c.native).2
        ntp := { c.ntp with client := some (client.process lib c.native).1.poll.2 } } :=
      .ntp (client.process_confined.goes lib c.native) _ _
    exact hprocess.trans ((ActsOn.foldl (onNtpUpdate_actsOn now) _).only lib _)
  alike {_ _ _ _ lib₁ lib₂ _ c₂} h := by
    obtain ⟨host, native, disk, weather, alarms, rfl, hnative⟩ := h.ntp_cases
    obtain ⟨hprocess, hnative⟩ := client.process_confined.alike hnative
    unfold collectNtp
    dsimp only
    rw [hprocess]
    exact (ActsOn.foldl (onNtpUpdate_actsOn now) _).alike ⟨rfl, rfl, rfl, hnative⟩

theorem requestTime_actsOn (now : Instant) (client : NtpClient) :
    ActsOn .ntp fun lib c => c.requestTime lib now client where
  only lib c := .ntp ((client.getTime_confined _ _).goes lib c.native) _ _
  alike {_ _ _ _ lib₁ lib₂ _ c₂} h := by
    obtain ⟨host, native, disk, weather, alarms, rfl, hnative⟩ := h.ntp_cases
    obtain ⟨hstarted, hnative⟩ :=
      (client.getTime_confined c₂.config.ntp.server c₂.config.ntp.timeout).alike hnative
    unfold requestTime
    dsimp only
    rw [hstarted]
    exact ⟨rfl, rfl, rfl, hnative⟩

theorem pumpNtp_actsOn (now : Instant) : ActsOn .ntp fun lib c => c.pumpNtp lib now where
  only lib c := by
    unfold pumpNtp
    cases c.ntp.client with
    | none => exact .refl
    | some client =>
      have hcollect : Only lib .ntp c
          (if c.ntp.state = .inProcess then c.collectNtp lib now client else c) :=
        .ite ((collectNtp_actsOn now client).only lib c)
      dsimp only
      generalize (if c.ntp.state = .inProcess then c.collectNtp lib now client else c) = c'
        at hcollect ⊢
      cases c'.ntp.client with
      | none => exact hcollect
      | some client => exact hcollect.trans (.ite ((requestTime_actsOn now client).only lib c'))
  alike {_ _ _ _ lib₁ lib₂ c₁ c₂} h := by
    have hntp : c₁.ntp = c₂.ntp := (Prod.mk.inj h.part).1
    unfold pumpNtp
    rw [hntp]
    cases c₂.ntp.client with
    | none => exact h
    | some client =>
      have hcollect : AlikeAt lib₁ lib₂ .ntp
          (if c₂.ntp.state = .inProcess then c₁.collectNtp lib₁ now client else c₁)
          (if c₂.ntp.state = .inProcess then c₂.collectNtp lib₂ now client else c₂) :=
        h.ite ((collectNtp_actsOn now client).alike h)
      dsimp only
      generalize (if c₂.ntp.state = .inProcess then c₁.collectNtp lib₁ now client else c₁) = c₁',
        (if c₂.ntp.state = .inProcess then c₂.collectNtp lib₂ now client else c₂) = c₂' at hcollect ⊢
      rw [(Prod.mk.inj hcollect.part).1, hcollect.config]
      cases c₂'.ntp.client with
      | none => exact hcollect
      | some client => exact hcollect.ite ((requestTime_actsOn now client).alike hcollect)

theorem receiveNtp_actsOn (r : NtpReply) : ActsOn .ntp fun _ c => c.receiveNtp r where
  only _ _ := .ntp .refl _ _
  alike h := by
    obtain ⟨host, native, disk, weather, alarms, rfl, hnative⟩ := h.ntp_cases
    exact ⟨rfl, rfl, rfl, hnative⟩

/-! ## the weather service -/

theorem replaceWeather_actsOn (client : Option WeatherClient) :
    ActsOn .weather fun lib c => c.replaceWeather lib client where
  only lib c := by
    unfold replaceWeather
    cases c.weather.client with
    | none => exact .weather .refl _ _
    | some old => exact .weather (old.close_confined.goes lib c.native) _ _
  alike {_ _ _ _ lib₁ lib₂ _ c₂} h := by
    obtain ⟨host, native, disk, ntp, alarms, status, rfl, hfile, hwritable, hnative⟩ := h.weather_cases
    unfold replaceWeather
    dsimp only
    cases c₂.weather.client with
    | none => exact .weather hfile hwritable hnative
    | some old => exact .weather hfile hwritable (old.close_confined.alike hnative).2

theorem attachWeather_actsOn : ActsOn .weather fun lib c => c.attachWeather lib where
  only lib c := by
    have hcreate : Only lib .weather c { c with
        native := (WeatherClient.create lib c.config.weather.apiKey c.config.weather.units c.native).2 } :=
      .weather ((WeatherClient.create_confined _ _).goes lib c.native) _ _
    exact .ite (hcreate.trans ((replaceWeather_actsOn _).only lib _))
  alike {_ _ _ _ lib₁ lib₂ _ c₂} h := by
    obtain ⟨host, native, disk, ntp, alarms, status, rfl, hfile, hwritable, hnative⟩ := h.weather_cases
    obtain ⟨hcreated, hnative⟩ := (WeatherClient.create_confined c₂.config.weather.apiKey
      c₂.config.weather.units).alike hnative
    unfold attachWeather
    dsimp only
    rw [hcreated]
    exact h.ite ((replaceWeather_actsOn _).alike (.weather hfile hwritable hnative))

theorem onWeatherUpdate_actsOn (now : Instant) (update : WeatherUpdate) :
    ActsOn .weather fun _ c => c.onWeatherUpdate now update where
  only lib c := by
    unfold onWeatherUpdate
    cases update with
    | conditions conditions => exact .weather .refl _ _
    | failed outcome => exact .weather .refl _ _
    | unrecognized code => exact .weather .refl _ _
  alike {_ _ _ _ lib₁ lib₂ _ c₂} h := by
    obtain ⟨host, native, disk, ntp, alarms, status, rfl, hfile, hwritable, hnative⟩ := h.weather_cases
    unfold onWeatherUpdate
    cases update with
    | conditions conditions =>
      obtain ⟨hfile, hwritable⟩ := CachedWeather.save_alike ⟨now, conditions⟩ hfile hwritable
      exact .weather hfile hwritable hnative
    | failed outcome => exact .weather hfile hwritable hnative
    | unrecognized code => exact .weather hfile hwritable hnative

theorem collectWeather_actsOn (now : Instant) (client : WeatherClient) :
    ActsOn .weather fun lib c => c.collectWeather lib now client where
  only lib c := by
    have hprocess : Only lib .weather c { c with
        native := (client.process lib c.native).2
        weather := { c.weather with client := some (client.process lib c.native).1.poll.2 } } :=
      .weather (client.process_confined.goes lib c.native) _ _
    exact hprocess.trans ((ActsOn.foldl (onWeatherUpdate_actsOn now) _).only lib _)
  alike {_ _ _ _ lib₁ lib₂ _ c₂} h := by
    obtain ⟨host, native, disk, ntp, alarms, status, rfl, hfile, hwritable, hnative⟩ := h.weather_cases
    obtain ⟨hprocess, hnative⟩ := client.process_confined.alike hnative
    unfold collectWeather
    dsimp only
    rw [hprocess]
    exact (ActsOn.foldl (onWeatherUpdate_actsOn now) _).alike (.weather hfile hwritable hnative)

theorem requestWeather_actsOn (now : Instant) (client : WeatherClient) :
    ActsOn .weather fun lib c => c.requestWeather lib now client where
  only lib c := .weather ((client.getByCity_confined _ _).goes lib c.native) _ _
  alike {_ _ _ _ lib₁ lib₂ _ c₂} h := by
    obtain ⟨host, native, disk, ntp, alarms, status, rfl, hfile, hwritable, hnative⟩ := h.weather_cases
    obtain ⟨hstarted, hnative⟩ := (client.getByCity_confined c₂.config.weather.location
      c₂.config.weather.timeout).alike hnative
    unfold requestWeather
    dsimp only
    rw [hstarted]
    exact .weather hfile hwritable hnative

theorem pumpWeather_actsOn (now : Instant) : ActsOn .weather fun lib c => c.pumpWeather lib now where
  only lib c := by
    unfold pumpWeather
    cases c.weather.client with
    | none => exact .refl
    | some client =>
      have hcollect : Only lib .weather c
          (if c.weather.state = .inProcess then c.collectWeather lib now client else c) :=
        .ite ((collectWeather_actsOn now client).only lib c)
      dsimp only
      generalize (if c.weather.state = .inProcess then c.collectWeather lib now client else c) = c'
        at hcollect ⊢
      cases c'.weather.client with
      | none => exact hcollect
      | some client => exact hcollect.trans (.ite ((requestWeather_actsOn now client).only lib c'))
  alike {_ _ _ _ lib₁ lib₂ c₁ c₂} h := by
    have hweather : c₁.weather = c₂.weather := (Prod.mk.inj h.part).1
    unfold pumpWeather
    rw [hweather]
    cases c₂.weather.client with
    | none => exact h
    | some client =>
      have hcollect : AlikeAt lib₁ lib₂ .weather
          (if c₂.weather.state = .inProcess then c₁.collectWeather lib₁ now client else c₁)
          (if c₂.weather.state = .inProcess then c₂.collectWeather lib₂ now client else c₂) :=
        h.ite ((collectWeather_actsOn now client).alike h)
      dsimp only
      generalize (if c₂.weather.state = .inProcess then c₁.collectWeather lib₁ now client else c₁) = c₁',
        (if c₂.weather.state = .inProcess then c₂.collectWeather lib₂ now client else c₂) = c₂'
        at hcollect ⊢
      rw [(Prod.mk.inj hcollect.part).1, hcollect.config]
      cases c₂'.weather.client with
      | none => exact hcollect
      | some client => exact hcollect.ite ((requestWeather_actsOn now client).alike hcollect)

theorem receiveWeather_actsOn (r : WeatherReply) : ActsOn .weather fun _ c => c.receiveWeather r where
  only _ _ := .weather .refl _ _
  alike h := by
    obtain ⟨host, native, disk, ntp, alarms, status, rfl, hfile, hwritable, hnative⟩ := h.weather_cases
    exact .weather hfile hwritable hnative

/-! ## the alarms -/

theorem replaceAlarms_actsOn (scheduler : Option AlarmScheduler) :
    ActsOn .alarms fun lib c => c.replaceAlarms lib scheduler where
  only lib c := by
    unfold replaceAlarms
    cases c.alarms.scheduler with
    | none => exact .alarms .refl _
    | some old => exact .alarms (old.close_confined.goes lib c.native) _
  alike {_ _ _ _ lib₁ lib₂ _ c₂} h := by
    obtain ⟨host, native, disk, ntp, weather, status, rfl, hnative⟩ := h.alarms_cases
    unfold replaceAlarms
    dsimp only
    cases c₂.alarms.scheduler with
    | none => exact ⟨rfl, rfl, rfl, hnative⟩
    | some old => exact ⟨rfl, rfl, rfl, (old.close_confined.alike hnative).2⟩

theorem attachAlarms_actsOn : ActsOn .alarms fun lib c => c.attachAlarms lib where
  only lib c := by
    have hcreate := AlarmScheduler.create_confined.goes lib c.native
    unfold attachAlarms
    generalize AlarmScheduler.create lib c.native = x at hcreate ⊢
    obtain ⟨created, native⟩ := x
    cases created with
    | error fault => exact .alarms hcreate _
    | ok scheduler =>
      have hload : Only lib .alarms c
          { c with native := (scheduler.load lib c.config.alarms native).2 } :=
        .alarms (hcreate.trans ((scheduler.load_confined _).goes lib native)) _
      exact hload.trans ((replaceAlarms_actsOn _).only lib _)
  alike {_ _ _ _ lib₁ lib₂ _ c₂} h := by
    obtain ⟨host, native, disk, ntp, weather, status, rfl, hnative⟩ := h.alarms_cases
    have hcreate := AlarmScheduler.create_confined.alike hnative
    unfold attachAlarms
    dsimp only
    generalize AlarmScheduler.create lib₁ native = x₁ at hcreate ⊢
    generalize AlarmScheduler.create lib₂ c₂.native = x₂ at hcreate ⊢
    obtain ⟨created₁, native₁⟩ := x₁
    obtain ⟨created₂, native₂⟩ := x₂
    obtain ⟨rfl, hcreate⟩ := hcreate
    cases created₁ with
    | error fault => exact ⟨rfl, rfl, rfl, hcreate⟩
    | ok scheduler =>
      have hload := ((scheduler.load_confined c₂.config.alarms).alike hcreate).2
      exact (replaceAlarms_actsOn _).alike ⟨rfl, rfl, rfl, hload⟩

theorem refreshAlarm_actsOn (now : Instant) : ActsOn .alarms fun lib c => c.refreshAlarm lib now where
  only lib c := by
    unfold refreshAlarm
    cases c.alarms.scheduler with
    | none => exact .refl
    | some scheduler =>
      dsimp only
      split
      · exact .refl
      · exact .alarms (scheduler.next_confined.goes lib c.native) _
  alike {_ _ _ _ lib₁ lib₂ _ c₂} h := by
    obtain ⟨host, native, disk, ntp, weather, status, rfl, hnative⟩ := h.alarms_cases
    unfold refreshAlarm
    dsimp only
    cases c₂.alarms.scheduler with
    | none => exact ⟨rfl, rfl, rfl, hnative⟩
    | some scheduler =>
      obtain ⟨hnext, hnative'⟩ := scheduler.next_confined.alike hnative
      dsimp only
      split
      · exact ⟨rfl, rfl, rfl, hnative⟩
      · rw [hnext]
        exact ⟨rfl, rfl, rfl, hnative'⟩

end Clock

end DeskClock
