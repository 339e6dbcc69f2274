import DeskClock.Proofs.Clock.Rounds

/-!
# lives of the clock

* `Clock.Happening`, `Clock.live`   what can happen to a clock: a step, or a reply of the library between
                                    two steps;
* `Clock.gather`                    what is gathered in a life, from one happening to the next;
* `gather_keeps`                    what holds at first and is kept by every happening holds in the end;
* `Mail`                            the replies to a client: those it has handled, and those that wait;
* `ntpMail`, `weatherMail`          the replies to the clients in a life;
* `attachClients_eq`                what an attach changes once the time has been set;
* `pumpNtp_calls`, `pumpWeather_calls`, `refreshAlarm_calls`   what a tick changes, and what it does with
                                    the objects of the library.

A reply that arrives while a step is taken finds the queue of its client either as it is before the step
or as it is after it, and goes at its end. So it is enough to let replies arrive between the steps, and
with the answer of `process`.
-/

namespace DeskClock

open Native

variable {σ τ ε : Type}

namespace Clock

/-! ## what happens -/

/-- a step, or a reply that arrives at a client, if there is one -/
inductive Happening where
  | step (s : Step)
  | ntpReply (r : NtpReply)
  | weatherReply (r : WeatherReply)

def receiveNtp (r : NtpReply) (c : Clock σ τ) : Clock σ τ :=
  { c with ntp := { c.ntp with client := c.ntp.client.map (·.receive r) } }

def receiveWeather (r : WeatherReply) (c : Clock σ τ) : Clock σ τ :=
  { c with weather := { c.weather with client := c.weather.client.map (·.receive r) } }

def Happening.apply (lib : Library σ) (S : Surface τ ε) (c : Clock σ τ) : Happening → Clock σ τ
  | step s => s.apply lib S c
  | ntpReply r => c.receiveNtp r
  | weatherReply r => c.receiveWeather r

def live (lib : Library σ) (S : Surface τ ε) (c : Clock σ τ) (life : List Happening) : Clock σ τ :=
  life.foldl (Happening.apply lib S) c

section Gather

variable {α : Type} (lib : Library σ) (S : Surface τ ε) (see : Clock σ τ → α → Happening → α)

/-- what is gathered in a life, if `see` says what becomes of it when something happens to a clock -/
def gather (c : Clock σ τ) (a : α) : List Happening → α
  | [] => a
  | h :: life => gather (h.apply lib S c) (see c a h) life

theorem gather_append (c : Clock σ τ) (a : α) (life life' : List Happening) :
    gather lib S see c a (life ++ life')
      = gather lib S see (c.live lib S life) (gather lib S see c a life) life' := by
  induction life generalizing c a with
  | nil => rfl
  | cons h life ih => exact ih (h.apply lib S c) (see c a h)

theorem live_append (c : Clock σ τ) (life life' : List Happening) :
    c.live lib S (life ++ life') = (c.live lib S life).live lib S life' := List.foldl_append

/-- what holds at first and is kept by every happening holds in the end -/
theorem gather_keeps {P : Clock σ τ → α → Prop} {c : Clock σ τ} {a : α} {life : List Happening}
    (h0 : P c a) (hkeep : ∀ c a, ∀ h ∈ life, P c a → P (h.apply lib S c) (see c a h)) :
    P (c.live lib S life) (gather lib S see c a life) := by
  induction life generalizing c a with
  | nil => exact h0
  | cons h life ih =>
    have h1 : P (h.apply lib S c) (see c a h) := hkeep c a h List.mem_cons_self h0
    exact ih h1 fun c a h' hh => hkeep c a h' (List.mem_cons_of_mem h hh)

end Gather

end Clock

/-! ## the replies to a client -/

/-- the replies to a client: those handled, with the instants of their ticks, and those that wait -/
structure Mail (ρ : Type) where
  handled : List (Instant × ρ) := []
  waiting : List ρ := []

namespace Mail

variable {ρ : Type} (m : Mail ρ)

/-- another reply waits -/
def add (r : ρ) : Mail ρ := { m with waiting := m.waiting ++ [r] }

/-- what waits is handled in a tick, with the replies that arrive then -/
def collect (now : Instant) (replies : List ρ) : Mail ρ :=
  ⟨m.handled ++ (m.waiting ++ replies).map (now, ·), []⟩

/-- what waits is given up with the client -/
def drop : Mail ρ := { m with waiting := [] }

end Mail

namespace Clock

/-- what becomes of the replies to the time client -/
def sortNtp (lib : Library σ) (c : Clock σ τ) (m : Mail NtpReply) : Happening → Mail NtpReply
  | .step .attach => m.drop
  | .step .shutdown => m.drop
  | .step (.tick now _) =>
    if c.ntp.client.isSome ∧ c.ntp.state = .inProcess then m.collect now (c.ntpReplies lib) else m
  | .ntpReply r => if c.ntp.client.isSome ∧ r.hasContext then m.add r else m
  | _ => m

/-- what becomes of the replies to the weather client; without weather it is not made anew -/
def sortWeather (lib : Library σ) (c : Clock σ τ) (m : Mail WeatherReply) :
    Happening → Mail WeatherReply
  | .step .attach => if c.config.weather.isEnabled then m.drop else m
  | .step .shutdown => m.drop
  | .step (.tick now _) =>
    if c.weather.client.isSome ∧ c.weather.state = .inProcess then
      m.collect now ((c.pumpNtp lib now).weatherReplies lib)
    else m
  | .weatherReply r => if c.weather.client.isSome ∧ r.hasContext then m.add r else m
  | _ => m

/-- the replies to the time client in a life -/
def ntpMail (lib : Library σ) (S : Surface τ ε) (c : Clock σ τ) : List Happening → Mail NtpReply :=
  gather lib S (sortNtp lib) c {}

/-- the replies to the weather client in a life -/
def weatherMail (lib : Library σ) (S : Surface τ ε) (c : Clock σ τ) :
    List Happening → Mail WeatherReply :=
  gather lib S (sortWeather lib) c {}

/-! ## what an attach does -/

section Attach

variable (lib : Library σ) (c : Clock σ τ)

theorem syncOnStart_eq : ∃ native status, c.syncOnStart lib = { c with native, status } := by
  unfold syncOnStart
  split
  · obtain ⟨native, status, h, -⟩ := c.setMachineTime_eq lib
    exact ⟨native, status, h⟩
  · exact ⟨c.native, c.status, rfl⟩

theorem attachNtp_eq : ∃ native client,
    c.attachNtp lib = { c with native, ntp := { c.ntp with client } } ∧
    (∀ new, client = some new → new.queue = []) ∧ c.native.Extends (· ≠ .sets) native := by
  have hqueue := NtpClient.queue_create lib c.native
  have hmade := (NtpClient.create_makes lib c.native).extends.not_sets nofun
  unfold attachNtp
  generalize NtpClient.create lib c.native = created at hqueue hmade ⊢
  have hgiven := (replaceNtp_extends lib { c with native := created.2 } created.1.toOption).not_sets
    (by rintro ⟨_, _, ⟨⟩⟩)
  exact ⟨_, created.1.toOption, rfl, hqueue, hmade.trans hgiven⟩

theorem attachWeather_eq : ∃ native client,
    c.attachWeather lib = { c with native, weather := { c.weather with client } } ∧
    (if c.config.weather.isEnabled then
      ∀ new, client = some new → new.unit = c.config.weather.units ∧ new.queue = []
    else client = c.weather.client) ∧
    c.native.Extends (· ≠ .sets) native := by
  unfold attachWeather
  split
  · have hnew := WeatherClient.of_create lib c.config.weather.apiKey c.config.weather.units c.native
    have hmade := (WeatherClient.create_makes lib c.native c.config.weather.apiKey
      c.config.weather.units).extends.not_sets nofun
    generalize WeatherClient.create lib c.config.weather.apiKey c.config.weather.units c.native
      = created at hnew hmade ⊢
    have hgiven := (replaceWeather_extends lib { c with native := created.2 }
      created.1.toOption).not_sets (by rintro ⟨_, _, ⟨⟩⟩)
    exact ⟨_, created.1.toOption, rfl, hnew, hmade.trans hgiven⟩
  · exact ⟨c.native, c.weather.client, rfl, rfl, .refl _ _⟩

theorem attachAlarms_eq : ∃ native scheduler,
    c.attachAlarms lib = { c with native, alarms := { c.alarms with scheduler } } ∧
    c.native.Extends (· ≠ .sets) native := by
  have hmade := (AlarmScheduler.create_makes lib c.native).extends.not_sets nofun
  unfold attachAlarms
  cases hc : AlarmScheduler.create lib c.native with
  | mk result native =>
    rw [hc] at hmade
    cases result with
    | error fault => exact ⟨native, c.alarms.scheduler, rfl, hmade⟩
    | ok scheduler =>
      dsimp only
      have hloaded := (scheduler.load_extends lib native c.config.alarms).not_sets nofun
      generalize scheduler.load lib c.config.alarms native = loaded at hloaded ⊢
      have hgiven := (replaceAlarms_extends lib { c with native := loaded.2 }
        (some scheduler)).not_sets (by rintro ⟨_, _, ⟨⟩⟩)
      exact ⟨_, some scheduler, rfl, (hmade.trans hloaded).trans hgiven⟩

/-- the clients are made anew, and the time is not set for it -/
theorem attachClients_eq : ∃ native ntpClient weatherClient scheduler,
    ((c.attachNtp lib).attachWeather lib).attachAlarms lib = { c with
      native
      ntp := { c.ntp with client := ntpClient }
      weather := { c.weather with client := weatherClient }
      alarms := { c.alarms with scheduler } } ∧
    (∀ new, ntpClient = some new → new.queue = []) ∧
    (if c.config.weather.isEnabled then
      ∀ new, weatherClient = some new → new.unit = c.config.weather.units ∧ new.queue = []
    else weatherClient = c.weather.client) ∧
    c.native.Extends (· ≠ .sets) native := by
  obtain ⟨native₁, ntpClient, hntp, hntpQueue, hcalls₁⟩ := attachNtp_eq lib c
  rw [hntp]
  obtain ⟨native₂, weatherClient, hweather, hweatherQueue, hcalls₂⟩ := attachWeather_eq lib
    { c with native := native₁, ntp := { c.ntp with client := ntpClient } }
  rw [hweather]
  obtain ⟨native₃, scheduler, halarms, hcalls₃⟩ := attachAlarms_eq lib
    { c with
      native := native₂
      ntp := { c.ntp with client := ntpClient }
      weather := { c.weather with client := weatherClient } }
  rw [halarms]
  exact ⟨native₃, ntpClient, weatherClient, scheduler, rfl, hntpQueue, hweatherQueue,
    (hcalls₁.trans hcalls₂).trans hcalls₃⟩

end Attach

/-! ## what a tick does -/

section Tick

variable (lib : Library σ) (now : Instant) (c : Clock σ τ)

/-- a request that runs is asked for its end, and what comes may set the clock of the machine -/
theorem collectNtp_calls {client : NtpClient} (hc : c.ntp.client = some client) :
    ∃ native status ntp client',
      (if c.ntp.state = .inProcess then c.collectNtp lib now client else c)
        = { c with native, status, ntp } ∧
      ntp.client = some client' ∧ client'.handle = client.handle ∧
      c.native.Extends (fun d => d = .sets ∨ d = .uses .ntp client.handle) native := by
  split
  · obtain ⟨native, status, h, hcalls⟩ := foldl_onNtpUpdate lib now
      { c with
        native := (c.native.ask lib (.ntp (.process client.handle))).2
        ntp := { c.ntp with client := some { client with queue := [] } } }
      (client.queue ++ ((c.native.ask lib (.ntp (.process client.handle))).1.filter
        NtpReply.hasContext).map NtpUpdate.ofReply)
    rw [← collectNtp_foldl] at h
    refine ⟨native, status, _, _, h, rfl, rfl, ?_⟩
    exact ((Session.Extends.ask lib (.ntp (.process client.handle)) c.native).mono
      fun _ => .inr).trans (hcalls.mono fun _ => .inl)
  · exact ⟨c.native, c.status, c.ntp, client, rfl, hc, rfl, .refl _ _⟩

/-- a round of the time service calls its client, and may set the clock of the machine -/
theorem pumpNtp_calls : ∃ native status ntp, c.pumpNtp lib now = { c with native, status, ntp } ∧
    ntp.client.map (·.handle) = c.ntp.client.map (·.handle) ∧
    c.native.Extends
      (fun d => d = .sets ∨ ∃ client, c.ntp.client = some client ∧ d = .uses .ntp client.handle)
      native := by
  unfold pumpNtp
  cases hc : c.ntp.client with
  | none => exact ⟨c.native, c.status, c.ntp, rfl, by rw [hc], .refl _ _⟩
  | some client =>
    obtain ⟨native, status, ntp, client', h, hclient, hhandle, hcalls⟩ := collectNtp_calls lib now c hc
    have hown : ∀ d : Deed, d = .sets ∨ d = .uses .ntp client.handle →
        d = .sets ∨ ∃ client₁, some client = some client₁ ∧ d = .uses .ntp client₁.handle := by
      rintro d (h | h)
      · exact .inl h
      · exact .inr ⟨client, rfl, h⟩
    have hsame : ntp.client.map (·.handle) = (some client).map (·.handle) := by
      rw [hclient, Option.map_some, Option.map_some, hhandle]
    dsimp only
    rw [h]
    dsimp only
    rw [hclient]
    dsimp only
    split
    · rw [requestTime]
      refine ⟨_, _, _, rfl, hsame, (hcalls.trans ?_).mono hown⟩
      rw [← hhandle]
      exact (client'.getTime_extends lib native c.config.ntp.server c.config.ntp.timeout).mono
        fun _ => .inr
    · exact ⟨_, _, _, rfl, hsame, hcalls.mono hown⟩

/-- a request that runs is asked for its end -/
theorem collectWeather_calls {client : WeatherClient} (hc : c.weather.client = some client) :
    ∃ native disk weather client',
      (if c.weather.state = .inProcess then c.collectWeather lib now client else c)
        = { c with native, disk, weather } ∧
      weather.client = some client' ∧ client'.handle = client.handle ∧
      c.native.Extends (· = .uses .weather client.handle) native := by
  split
  · rw [collectWeather_foldl, foldl_onWeatherUpdate]
    exact ⟨_, _, _, _, rfl, rfl, rfl, .ask lib (.weather (.process client.handle)) c.native⟩
  · exact ⟨c.native, c.disk, c.weather, client, rfl, hc, rfl, .refl _ _⟩

/-- a round of the weather service calls its client -/
theorem pumpWeather_calls : ∃ native disk weather,
    c.pumpWeather lib now = { c with native, disk, weather } ∧
    weather.client.map (·.handle) = c.weather.client.map (·.handle) ∧
    c.native.Extends
      (fun d => ∃ client, c.weather.client = some client ∧ d = .uses .weather client.handle)
      native := by
  unfold pumpWeather
  cases hc : c.weather.client with
  | none => exact ⟨c.native, c.disk, c.weather, rfl, by rw [hc], .refl _ _⟩
  | some client =>
    obtain ⟨native, disk, weather, client', h, hclient, hhandle, hcalls⟩ :=
      collectWeather_calls lib now c hc
    have hown : ∀ d : Deed, d = .uses .weather client.handle →
        ∃ client₁, some client = some client₁ ∧ d = .uses .weather client₁.handle := fun d h =>
      ⟨client, rfl, h⟩
    have hsame : weather.client.map (·.handle) = (some client).map (·.handle) := by
      rw [hclient, Option.map_some, Option.map_some, hhandle]
    dsimp only
    rw [h]
    dsimp only
    rw [hclient]
    dsimp only
    split
    · rw [requestWeather]
      refine ⟨_, _, _, rfl, hsame, (hcalls.trans ?_).mono hown⟩
      rw [← hhandle]
      exact client'.getByCity_extends lib native c.config.weather.location c.config.weather.timeout
    · exact ⟨_, _, _, rfl, hsame, hcalls.mono hown⟩

/-- the scheduler may be asked for the next alarm -/
theorem refreshAlarm_calls : ∃ native lastMinute next,
    c.refreshAlarm lib now = { c with native, alarms := { c.alarms with lastMinute, next } } ∧
    c.native.Extends
      (fun d => ∃ scheduler, c.alarms.scheduler = some scheduler ∧
        d = .uses .alarms scheduler.handle)
      native := by
  unfold refreshAlarm
  cases hs : c.alarms.scheduler with
  | none => exact ⟨c.native, c.alarms.lastMinute, c.alarms.next, rfl, .refl _ _⟩
  | some scheduler =>
    dsimp only
    split
    · exact ⟨c.native, c.alarms.lastMinute, c.alarms.next, rfl, .refl _ _⟩
    · refine ⟨_, some now.minute, _, rfl, ?_⟩
      rw [AlarmScheduler.next_eq]
      exact (Session.Extends.ask lib (.alarms (.next scheduler.handle)) c.native).mono fun _ h =>
        ⟨scheduler, rfl, h⟩

end Tick

end Clock

end DeskClock
