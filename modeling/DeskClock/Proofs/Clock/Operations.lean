import DeskClock.Proofs.Clock.Rounds

/-!
# the clients report their latest requests

* `Clock.ntpHistory`, `Clock.weatherHistory`   what happens to a service in a run;
* `Tracked`                what holds of a clock, and of what has happened to its services;
* `Tracked.new`, `Tracked.apply`, `Tracked.run`   it holds at first, and every step and run keeps it;
* `operations_report`      the states of the clients are the outcomes of their latest attempts, and no
                           pending request is replaced.
-/

namespace DeskClock

open Native Event Exchange

variable {σ τ ε : Type}

namespace Clock

/-! ## what happens in a run -/

def Step.ntpHistory (lib : Library σ) (c : Clock σ τ) : Step → History NtpReply
  | tick now _ => (c.ntpTurn lib now).history now
  | _ => []

def Step.weatherHistory (lib : Library σ) (c : Clock σ τ) : Step → History WeatherReply
  | tick now _ => ((c.pumpNtp lib now).weatherTurn lib now).history now
  | _ => []

/-- what happens in a run, from what happens in its steps -/
def history {ρ : Type} (lib : Library σ) (S : Surface τ ε) (ofStep : Clock σ τ → Step → History ρ)
    (c : Clock σ τ) : List Step → History ρ
  | [] => []
  | step :: steps => ofStep c step ++ history lib S ofStep (step.apply lib S c) steps

/-- what happens to the time service in a run -/
def ntpHistory (lib : Library σ) (S : Surface τ ε) : Clock σ τ → List Step → History NtpReply :=
  history lib S (Step.ntpHistory lib)

/-- what happens to the weather service in a run -/
def weatherHistory (lib : Library σ) (S : Surface τ ε) :
    Clock σ τ → List Step → History WeatherReply :=
  history lib S (Step.weatherHistory lib)

/-! ## what a run keeps -/

/-- the clients report what has happened to them, and it has been seen in the calls -/
structure Tracked (config : Config) (ntpPast : History NtpReply)
    (weatherPast : History WeatherReply) (c : Clock σ τ) : Prop where
  settings : c.config = config
  collected : Collected c
  ntp : Reports NtpReply.succeeds ntpPast c.ntpProgress
  weather : Reports WeatherReply.succeeds weatherPast c.weatherProgress
  ntpSeen : c.native.trace ntpEvents = ntpPast.events.filter (reaches config.ntp.server)
  weatherSeen : c.native.trace weatherEvents = weatherPast.events
  unreached : ∀ e ∈ ntpPast.events, reaches config.ntp.server e = false → e = .attempt false

theorem Tracked.new (config : Config) (disk : Disk) (state : σ) (surface : τ) :
    Tracked config [] [] (Clock.new config disk (Session.new state) surface) where
  settings := rfl
  collected := ⟨fun _ h => (by cases h), fun _ h => (by cases h)⟩
  ntp := .nil _
  weather := .nil _
  ntpSeen := rfl
  weatherSeen := rfl
  unreached _ h := by cases h

variable {config : Config} {ntpPast : History NtpReply} {weatherPast : History WeatherReply}
  {c c' : Clock σ τ}

namespace Tracked

theorem harmless (h : Tracked config ntpPast weatherPast c) (hc : Harmless c c') :
    Tracked config ntpPast weatherPast c' where
  settings := hc.1.config.trans h.settings
  collected := hc.2 h.collected
  ntp := hc.1.ntp ▸ h.ntp
  weather := hc.1.weather ▸ h.weather
  ntpSeen := by rw [hc.1.trace ntpEvents_seesOperations, h.ntpSeen]
  weatherSeen := by rw [hc.1.trace weatherEvents_seesOperations, h.weatherSeen]
  unreached := h.unreached

variable (lib : Library σ) (S : Surface τ ε) (now : Instant)

theorem pumpNtp (h : Tracked config ntpPast weatherPast c) :
    Tracked config (ntpPast ++ (c.ntpTurn lib now).history now) weatherPast (c.pumpNtp lib now) := by
  obtain ⟨native, status, hp, hn, hw⟩ := pumpNtp_turn lib now h.collected
  rw [hp]
  constructor
  · exact h.settings
  · exact ⟨h.collected.ntp, h.collected.weather⟩
  · exact (ntpTurn_follows lib now h.collected).reports h.ntp
  · exact h.weather
  · rw [Turn.events_append, List.filter_append, ← h.ntpSeen, ← h.settings]
    exact hn
  · rw [← h.weatherSeen]
    exact hw
  · intro e he
    rw [Turn.events_append] at he
    rcases List.mem_append.mp he with he | he
    · exact h.unreached e he
    · rw [← h.settings]
      exact ntpTurn_unreached lib now c e he

theorem pumpWeather (h : Tracked config ntpPast weatherPast c) :
    Tracked config ntpPast (weatherPast ++ (c.weatherTurn lib now).history now) (c.pumpWeather lib now) := by
  obtain ⟨native, disk, conditions, hp, hw, hn⟩ := pumpWeather_turn lib now h.collected
  rw [hp]
  constructor
  · exact h.settings
  · exact ⟨h.collected.ntp, h.collected.weather⟩
  · exact h.ntp
  · exact (weatherTurn_follows lib now h.collected).reports h.weather
  · rw [← h.ntpSeen]
    exact hn
  · rw [Turn.events_append, ← h.weatherSeen]
    exact hw
  · exact h.unreached

theorem apply (h : Tracked config ntpPast weatherPast c) (step : Step) :
    Tracked config (ntpPast ++ step.ntpHistory lib c) (weatherPast ++ step.weatherHistory lib c)
      (step.apply lib S c) := by
  have hnone : ∀ {c' : Clock σ τ}, Harmless c c' →
      Tracked config (ntpPast ++ []) (weatherPast ++ []) c' := by
    intro c' hc
    rw [List.append_nil, List.append_nil]
    exact h.harmless hc
  cases step with
  | attach => exact hnone (attach_harmless lib c)
  | start => exact hnone (start_harmless c S)
  | event e => exact hnone (handleEvent_harmless c S e)
  | shutdown => exact hnone (shutdown_harmless lib c S)
  | tick now offset =>
    obtain ⟨host, ht⟩ := c.tick_eq lib S now offset
    show Tracked config _ _ (c.tick lib S now offset).2
    rw [ht]
    exact (((h.pumpNtp lib now).pumpWeather lib now).harmless
      (refreshAlarm_harmless lib _ now)).harmless (host_harmless _ host)

/-- what holds of a clock goes on to hold of it in a run -/
theorem run (h : Tracked config ntpPast weatherPast c) (steps : List Step) :
    Tracked config (ntpPast ++ c.ntpHistory lib S steps) (weatherPast ++ c.weatherHistory lib S steps)
      (c.run lib S steps) := by
  induction steps generalizing ntpPast weatherPast c with
  | nil =>
    show Tracked config (ntpPast ++ []) (weatherPast ++ []) c
    rw [List.append_nil, List.append_nil]
    exact h
  | cons step steps ih =>
    have hs := ih (h.apply lib S step)
    rw [List.append_assoc, List.append_assoc] at hs
    exact hs

end Tracked

/-- **The state of a client is the outcome of its latest attempt, and no pending request is replaced.**
The calls show every attempt but those with a zero byte in the name of the server; these are refused. -/
theorem operations_report (lib : Library σ) (S : Surface τ ε) (config : Config) (disk : Disk)
    (state : σ) (surface : τ) (steps : List Step) :
    let c₀ := Clock.new config disk (Session.new state) surface
    let c := c₀.run lib S steps
    let past := (c₀.ntpHistory lib S steps).events
    c.ntp.state = outcome NtpReply.succeeds past ∧
    c.native.trace ntpEvents = past.filter (reaches config.ntp.server) ∧
    (∀ e ∈ past, reaches config.ntp.server e = false → e = .attempt false) ∧
    c.weather.state = outcome WeatherReply.succeeds (c.native.trace weatherEvents) ∧
    NeverReplaced (c.native.trace ntpEvents) ∧ NeverReplaced (c.native.trace weatherEvents) := by
  intro c₀ c past
  have h : Tracked config (c₀.ntpHistory lib S steps) (c₀.weatherHistory lib S steps) c :=
    (Tracked.new config disk state surface).run lib S steps
  have hweather : c.native.trace weatherEvents = (c₀.weatherHistory lib S steps).events :=
    h.weatherSeen
  refine ⟨h.ntp.state, h.ntpSeen, h.unreached, ?_, ?_, ?_⟩
  · rw [hweather]
    exact h.weather.state
  · by_cases hs : (terminated? config.ntp.server).isSome = true
    · have hall : ∀ e ∈ past, reaches config.ntp.server e = true := fun e _ => by
        rw [reaches, hs, Bool.or_true]
      rw [h.ntpSeen, List.filter_eq_self.mpr hall]
      exact h.ntp.neverReplaced
    · refine .of_forall_not fun e he => ?_
      rw [h.ntpSeen] at he
      have hr := (List.mem_filter.mp he).2
      rw [reaches, Bool.eq_false_of_not_eq_true hs, Bool.or_false] at hr
      exact (Bool.not_eq_true' _).mp hr
  · rw [hweather]
    exact h.weather.neverReplaced

end Clock

end DeskClock
