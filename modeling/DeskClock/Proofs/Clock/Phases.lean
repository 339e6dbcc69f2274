import DeskClock.Proofs.Clock.Queues

/-!
# ticks in phases

* `Clock.Phase`          what can happen to a clock, a tick being taken apart: a reply may arrive between
                         any two phases of it; `tick_phases`: one after the other they are the tick;
* `Clock.polledNtp`, `Clock.polledWeather`   the updates that a clock handles in a phase;
* `Clock.Course`         a clock with the ledgers of its clients;
* `Kept`                 the ledgers tell what the queues of the clients are, and are empty before the clock
                         is attached;
* `Kept.next`, `Kept.attach`, `Kept.follow`   it remains so;
* `replies_handled`      no reply is lost, handled twice or out of order, by a client or by a clock.
-/

namespace DeskClock

open Native

variable {σ τ ε : Type}

namespace Clock

/-! ## phases -/

section Phases

variable (lib : Library σ) (now : Instant) (c : Clock σ τ)

/-- let the library go on with a time request -/
def letNtpGo (c : Clock σ τ) : Clock σ τ :=
  match c.ntp.client with
  | some client =>
    if c.ntp.state = .inProcess then
      let (client, native) := client.process lib c.native
      { c with native, ntp := { c.ntp with client := some client } }
    else c
  | none => c

/-- the updates of the time client that are handled -/
def polledNtp (c : Clock σ τ) : List NtpUpdate := awaited c.ntp.client c.ntp.state (·.poll.1)

/-- handle the ended time requests -/
def handleNtp (c : Clock σ τ) : Clock σ τ :=
  match c.ntp.client with
  | some client =>
    if c.ntp.state = .inProcess then
      c.polledNtp.foldl (onNtpUpdate lib now) { c with ntp := { c.ntp with client := some client.poll.2 } }
    else c
  | none => c

/-- let the library go on with a weather request -/
def letWeatherGo (c : Clock σ τ) : Clock σ τ :=
  match c.weather.client with
  | some client =>
    if c.weather.state = .inProcess then
      let (client, native) := client.process lib c.native
      { c with native, weather := { c.weather with client := some client } }
    else c
  | none => c

/-- the updates of the weather client that are handled -/
def polledWeather (c : Clock σ τ) : List WeatherUpdate :=
  awaited c.weather.client c.weather.state (·.poll.1)

/-- handle the ended weather requests -/
def handleWeather (now : Instant) (c : Clock σ τ) : Clock σ τ :=
  match c.weather.client with
  | some client =>
    if c.weather.state = .inProcess then
      c.polledWeather.foldl (onWeatherUpdate now)
        { c with weather := { c.weather with client := some client.poll.2 } }
    else c
  | none => c

/-- draw the frame of a tick, if its local time is in range -/
def drawFrame (S : Surface τ ε) (now : Instant) (offset : Int) (c : Clock σ τ) : Clock σ τ :=
  match now.atOffset? offset with
  | some moment => { c with host := (c.host.draw S (c.frame moment)).2 }
  | none => c

/-- what can happen to a clock, a tick being taken apart -/
inductive Phase where
  | attach
  | start
  | event (e : WindowEvent)
  | shutdown
  | letNtpGo
  | handleNtp (now : Instant)
  | askNtp (now : Instant)
  | letWeatherGo
  | handleWeather (now : Instant)
  | askWeather (now : Instant)
  | askAlarm (now : Instant)
  | draw (now : Instant) (offset : Int)
  | ntpReply (r : NtpReply)
  | weatherReply (r : WeatherReply)

def Phase.apply (S : Surface τ ε) (c : Clock σ τ) : Phase → Clock σ τ
  | attach => c.attach lib
  | start => (c.start S).2
  | event e => (c.handleEvent S e).2
  | shutdown => (c.shutdown lib S).2
  | letNtpGo => c.letNtpGo lib
  | handleNtp now => c.handleNtp lib now
  | askNtp now => c.requestedNtp lib now
  | letWeatherGo => c.letWeatherGo lib
  | handleWeather now => c.handleWeather now
  | askWeather now => c.requestedWeather lib now
  | askAlarm now => c.refreshAlarm lib now
  | draw now offset => c.drawFrame S now offset
  | ntpReply r => c.receiveNtp r
  | weatherReply r => c.receiveWeather r

/-- the phases of a tick -/
def tickPhases (now : Instant) (offset : Int) : List Phase :=
  [.letNtpGo, .handleNtp now, .askNtp now, .letWeatherGo, .handleWeather now, .askWeather now,
   .askAlarm now, .draw now offset]

theorem collectedNtp_phases : c.collectedNtp lib now = (c.letNtpGo lib).handleNtp lib now := by
  unfold collectedNtp letNtpGo
  cases hc : c.ntp.client with
  | none =>
    unfold handleNtp
    rw [hc]
  | some client =>
    dsimp only
    by_cases hs : c.ntp.state = .inProcess
    · simp [handleNtp, polledNtp, awaited, collectNtp, hs]
    · simp [handleNtp, hs, hc]

theorem collectedWeather_phases :
    c.collectedWeather lib now = (c.letWeatherGo lib).handleWeather now := by
  unfold collectedWeather letWeatherGo
  cases hc : c.weather.client with
  | none =>
    unfold handleWeather
    rw [hc]
  | some client =>
    dsimp only
    by_cases hs : c.weather.state = .inProcess
    · simp [handleWeather, polledWeather, awaited, collectWeather, hs]
    · simp [handleWeather, hs, hc]

/-- **The phases of a tick are the tick.** -/
theorem tick_phases (S : Surface τ ε) (offset : Int) :
    (c.tick lib S now offset).2 = (tickPhases now offset).foldl (Phase.apply lib S) c := by
  have hpump : (tickPhases now offset).foldl (Phase.apply lib S) c
      = (c.pump lib now).drawFrame S now offset := by
    unfold pump
    rw [pumpWeather_eq, pumpNtp_eq, collectedNtp_phases, collectedWeather_phases]
    rfl
  rw [hpump]
  unfold tick drawFrame
  dsimp only
  cases now.atOffset? offset with
  | none => rfl
  | some moment =>
    dsimp only
    cases (c.pump lib now).host.draw S ((c.pump lib now).frame moment) with
    | mk result host => cases result <;> rfl

end Phases

/-! ## courses -/

/-- a clock, and what has arrived at its clients and was handled -/
structure Course (σ τ : Type) where
  clock : Clock σ τ
  ntp : Ledger NtpReply NtpUpdate := {}
  weather : Ledger WeatherReply WeatherUpdate := {}

section Courses

variable (lib : Library σ) (S : Surface τ ε)

/-- what a phase adds to the ledger of the time client -/
def Phase.noteNtp (c : Clock σ τ) (l : Ledger NtpReply NtpUpdate) : Phase → Ledger NtpReply NtpUpdate
  | letNtpGo => l.receive (c.ntpReplies lib)
  | handleNtp _ => l.take c.polledNtp
  | ntpReply r => l.receive (if c.ntp.client.isSome then [r].filter (·.hasContext) else [])
  | _ => l

/-- what a phase adds to the ledger of the weather client -/
def Phase.noteWeather (c : Clock σ τ) (l : Ledger WeatherReply WeatherUpdate) :
    Phase → Ledger WeatherReply WeatherUpdate
  | letWeatherGo => l.receive (c.weatherReplies lib)
  | handleWeather _ => l.take c.polledWeather
  | weatherReply r => l.receive (if c.weather.client.isSome then [r].filter (·.hasContext) else [])
  | _ => l

def Course.next (x : Course σ τ) (p : Phase) : Course σ τ where
  clock := p.apply lib S x.clock
  ntp := p.noteNtp lib x.clock x.ntp
  weather := p.noteWeather lib x.clock x.weather

def Course.follow (x : Course σ τ) (phases : List Phase) : Course σ τ :=
  phases.foldl (Course.next lib S) x

end Courses

/-- a ledger tells what the queue of the time client is, if there is one -/
def NtpKept (c : Clock σ τ) (l : Ledger NtpReply NtpUpdate) : Prop :=
  ∀ client, c.ntp.client = some client → client.KeptBy l

/-- the same of the weather client, which has a unit -/
def WeatherKept (unit : TemperatureUnit) (c : Clock σ τ) (l : Ledger WeatherReply WeatherUpdate) : Prop :=
  ∀ client, c.weather.client = some client → client.KeptBy unit l

section Services

variable {unit : TemperatureUnit} {c c' : Clock σ τ} {ln : Ledger NtpReply NtpUpdate}
  {lw : Ledger WeatherReply WeatherUpdate} (lib : Library σ) (now : Instant)

theorem NtpKept.of_eq (h : NtpKept c ln) (hclient : c'.ntp.client = c.ntp.client) : NtpKept c' ln :=
  fun client hc => h client (hclient ▸ hc)

theorem WeatherKept.of_eq (h : WeatherKept unit c lw) (hclient : c'.weather.client = c.weather.client) :
    WeatherKept unit c' lw :=
  fun client hc => h client (hclient ▸ hc)

/-- where there is no client, a ledger can only be empty -/
theorem NtpKept.of_none (hc : c.ntp.client = none) : NtpKept c ln := by
  intro client hclient
  cases hc.symm.trans hclient

theorem WeatherKept.of_none (hc : c.weather.client = none) : WeatherKept unit c lw := by
  intro client hclient
  cases hc.symm.trans hclient

theorem NtpKept.of_some {client : NtpClient} (hc : c.ntp.client = some client) (h : client.KeptBy ln) :
    NtpKept c ln := by
  intro client' hclient
  obtain rfl : client = client' := Option.some.inj (hc.symm.trans hclient)
  exact h

theorem WeatherKept.of_some {client : WeatherClient} (hc : c.weather.client = some client)
    (h : client.KeptBy unit lw) : WeatherKept unit c lw := by
  intro client' hclient
  obtain rfl : client = client' := Option.some.inj (hc.symm.trans hclient)
  exact h

theorem receive_nil {ρ υ : Type} (l : Ledger ρ υ) : l.receive [] = l := by
  unfold Ledger.receive
  rw [List.append_nil]

theorem take_nil {ρ υ : Type} (l : Ledger ρ υ) : l.take [] = l := by
  unfold Ledger.take
  rw [List.append_nil]

theorem NtpKept.letNtpGo (h : NtpKept c ln) : NtpKept (c.letNtpGo lib) (ln.receive (c.ntpReplies lib)) := by
  unfold Clock.letNtpGo ntpReplies awaited
  cases hc : c.ntp.client with
  | none => exact .of_none hc
  | some client =>
    dsimp only
    by_cases hs : c.ntp.state = .inProcess
    · rw [if_pos hs, if_pos hs]
      exact .of_some rfl ((h client hc).receiveAll _)
    · rw [if_neg hs, if_neg hs, receive_nil]
      exact h

theorem NtpKept.handleNtp (h : NtpKept c ln) : NtpKept (c.handleNtp lib now) (ln.take c.polledNtp) := by
  unfold Clock.handleNtp polledNtp awaited
  cases hc : c.ntp.client with
  | none => exact .of_none hc
  | some client =>
    dsimp only
    by_cases hs : c.ntp.state = .inProcess
    · rw [if_pos hs, if_pos hs]
      obtain ⟨_, _, hfold, -⟩ := foldl_onNtpUpdate lib now
        { c with ntp := { c.ntp with client := some client.poll.2 } } client.poll.1
      rw [hfold]
      exact .of_some rfl (h client hc).poll
    · rw [if_neg hs, if_neg hs, take_nil]
      exact h

theorem NtpKept.receiveNtp (h : NtpKept c ln) (r : NtpReply) : NtpKept (c.receiveNtp r)
    (ln.receive (if c.ntp.client.isSome then [r].filter (·.hasContext) else [])) := by
  cases hc : c.ntp.client with
  | none =>
    refine .of_none ?_
    show c.ntp.client.map _ = none
    rw [hc]
    rfl
  | some client =>
    have hafter : (c.receiveNtp r).ntp.client = some (client.receive r) := by
      show c.ntp.client.map _ = _
      rw [hc]
      rfl
    exact .of_some hafter ((h client hc).receiveAll [r])

theorem WeatherKept.letWeatherGo (h : WeatherKept unit c lw) :
    WeatherKept unit (c.letWeatherGo lib) (lw.receive (c.weatherReplies lib)) := by
  unfold Clock.letWeatherGo weatherReplies awaited
  cases hc : c.weather.client with
  | none => exact .of_none hc
  | some client =>
    dsimp only
    by_cases hs : c.weather.state = .inProcess
    · rw [if_pos hs, if_pos hs]
      exact .of_some rfl ((h client hc).receiveAll _)
    · rw [if_neg hs, if_neg hs, receive_nil]
      exact h

theorem WeatherKept.handleWeather (h : WeatherKept unit c lw) :
    WeatherKept unit (c.handleWeather now) (lw.take c.polledWeather) := by
  unfold Clock.handleWeather polledWeather awaited
  cases hc : c.weather.client with
  | none => exact .of_none hc
  | some client =>
    dsimp only
    by_cases hs : c.weather.state = .inProcess
    · rw [if_pos hs, if_pos hs, foldl_onWeatherUpdate]
      exact .of_some rfl (h client hc).poll
    · rw [if_neg hs, if_neg hs, take_nil]
      exact h

theorem WeatherKept.receiveWeather (h : WeatherKept unit c lw) (r : WeatherReply) :
    WeatherKept unit (c.receiveWeather r)
      (lw.receive (if c.weather.client.isSome then [r].filter (·.hasContext) else [])) := by
  cases hc : c.weather.client with
  | none =>
    refine .of_none ?_
    show c.weather.client.map _ = none
    rw [hc]
    rfl
  | some client =>
    have hafter : (c.receiveWeather r).weather.client = some (client.receive r) := by
      show c.weather.client.map _ = _
      rw [hc]
      rfl
    exact .of_some hafter ((h client hc).receiveAll [r])

end Services

/-! ## what a course keeps -/

/-- The ledgers tell what the queues of the clients are. Before the clock is attached there is no client,
and nothing is in a ledger. -/
structure Kept (config : Config) (attached : Bool) (x : Course σ τ) : Prop where
  settings : x.clock.config = config
  ntp : NtpKept x.clock x.ntp
  weather : WeatherKept config.weather.units x.clock x.weather
  before : attached = false →
    x.clock.ntp.client = none ∧ x.clock.weather.client = none ∧ x.ntp = {} ∧ x.weather = {}

namespace Kept

variable {config : Config} {attached : Bool} {c c' : Clock σ τ} {ln ln' : Ledger NtpReply NtpUpdate}
  {lw lw' : Ledger WeatherReply WeatherUpdate}

theorem new (config : Config) (disk : Disk) (native : Session σ) (surface : τ) :
    Kept config false ⟨Clock.new config disk native surface, {}, {}⟩ where
  settings := rfl
  ntp := .of_none rfl
  weather := .of_none rfl
  before _ := ⟨rfl, rfl, rfl, rfl⟩

/-- a phase that is about the time client -/
theorem of_ntp (h : Kept config attached ⟨c, ln, lw⟩) (hconfig : c'.config = c.config)
    (hweather : c'.weather.client = c.weather.client) (hntp : NtpKept c' ln')
    (hnone : c.ntp.client = none → c'.ntp.client = none ∧ ln' = ln) :
    Kept config attached ⟨c', ln', lw⟩ where
  settings := hconfig.trans h.settings
  ntp := hntp
  weather := h.weather.of_eq hweather
  before hbefore := by
    obtain ⟨hn, hw, hln, hlw⟩ := h.before hbefore
    obtain ⟨hn', hln'⟩ := hnone hn
    exact ⟨hn', hweather.trans hw, hln'.trans hln, hlw⟩

/-- a phase that is about the weather client -/
theorem of_weather (h : Kept config attached ⟨c, ln, lw⟩) (hconfig : c'.config = c.config)
    (hntp : c'.ntp.client = c.ntp.client) (hweather : WeatherKept config.weather.units c' lw')
    (hnone : c.weather.client = none → c'.weather.client = none ∧ lw' = lw) :
    Kept config attached ⟨c', ln, lw'⟩ where
  settings := hconfig.trans h.settings
  ntp := h.ntp.of_eq hntp
  weather := hweather
  before hbefore := by
    obtain ⟨hn, hw, hln, hlw⟩ := h.before hbefore
    obtain ⟨hw', hlw'⟩ := hnone hw
    exact ⟨hntp.trans hn, hw', hln, hlw'.trans hlw⟩

/-- a phase that is about no client -/
theorem of_eq (h : Kept config attached ⟨c, ln, lw⟩) (hconfig : c'.config = c.config)
    (hntp : c'.ntp.client = c.ntp.client) (hweather : c'.weather.client = c.weather.client) :
    Kept config attached ⟨c', ln, lw⟩ :=
  h.of_ntp hconfig hweather (h.ntp.of_eq hntp) fun hnone => ⟨hntp.trans hnone, rfl⟩

variable (lib : Library σ) (S : Surface τ ε) (now : Instant)

theorem letNtpGo (h : Kept config attached ⟨c, ln, lw⟩) :
    Kept config attached ⟨c.letNtpGo lib, ln.receive (c.ntpReplies lib), lw⟩ := by
  have hrest : (c.letNtpGo lib).config = c.config ∧
      (c.letNtpGo lib).weather.client = c.weather.client := by
    unfold Clock.letNtpGo
    split
    · split <;> exact ⟨rfl, rfl⟩
    · exact ⟨rfl, rfl⟩
  refine h.of_ntp hrest.1 hrest.2 (h.ntp.letNtpGo lib) fun hnone => ?_
  unfold Clock.letNtpGo ntpReplies
  rw [hnone]
  exact ⟨hnone, receive_nil ln⟩

theorem handleNtp (h : Kept config attached ⟨c, ln, lw⟩) :
    Kept config attached ⟨c.handleNtp lib now, ln.take c.polledNtp, lw⟩ := by
  have hrest : (c.handleNtp lib now).config = c.config ∧
      (c.handleNtp lib now).weather.client = c.weather.client := by
    unfold Clock.handleNtp
    split
    · split
      · obtain ⟨_, _, hfold, -⟩ := foldl_onNtpUpdate lib now
          { c with ntp := { c.ntp with client := _ } } c.polledNtp
        rw [hfold]
        exact ⟨rfl, rfl⟩
      · exact ⟨rfl, rfl⟩
    · exact ⟨rfl, rfl⟩
  refine h.of_ntp hrest.1 hrest.2 (h.ntp.handleNtp lib now) fun hnone => ?_
  unfold Clock.handleNtp polledNtp
  rw [hnone]
  exact ⟨hnone, take_nil ln⟩

theorem receiveNtp (h : Kept config attached ⟨c, ln, lw⟩) (r : NtpReply) :
    Kept config attached ⟨c.receiveNtp r,
      ln.receive (if c.ntp.client.isSome then [r].filter (·.hasContext) else []), lw⟩ := by
  refine h.of_ntp rfl rfl (h.ntp.receiveNtp r) fun hnone => ?_
  unfold Clock.receiveNtp
  rw [hnone]
  exact ⟨rfl, receive_nil ln⟩

theorem letWeatherGo (h : Kept config attached ⟨c, ln, lw⟩) :
    Kept config attached ⟨c.letWeatherGo lib, ln, lw.receive (c.weatherReplies lib)⟩ := by
  have hrest : (c.letWeatherGo lib).config = c.config ∧
      (c.letWeatherGo lib).ntp.client = c.ntp.client := by
    unfold Clock.letWeatherGo
    split
    · split <;> exact ⟨rfl, rfl⟩
    · exact ⟨rfl, rfl⟩
  refine h.of_weather hrest.1 hrest.2 (h.weather.letWeatherGo lib) fun hnone => ?_
  unfold Clock.letWeatherGo weatherReplies
  rw [hnone]
  exact ⟨hnone, receive_nil lw⟩

theorem handleWeather (h : Kept config attached ⟨c, ln, lw⟩) :
    Kept config attached ⟨c.handleWeather now, ln, lw.take c.polledWeather⟩ := by
  have hrest : (c.handleWeather now).config = c.config ∧
      (c.handleWeather now).ntp.client = c.ntp.client := by
    unfold Clock.handleWeather
    split
    · split
      · rw [foldl_onWeatherUpdate]
        exact ⟨rfl, rfl⟩
      · exact ⟨rfl, rfl⟩
    · exact ⟨rfl, rfl⟩
  refine h.of_weather hrest.1 hrest.2 (h.weather.handleWeather now) fun hnone => ?_
  unfold Clock.handleWeather polledWeather
  rw [hnone]
  exact ⟨hnone, take_nil lw⟩

theorem receiveWeather (h : Kept config attached ⟨c, ln, lw⟩) (r : WeatherReply) :
    Kept config attached ⟨c.receiveWeather r, ln,
      lw.receive (if c.weather.client.isSome then [r].filter (·.hasContext) else [])⟩ := by
  refine h.of_weather rfl rfl (h.weather.receiveWeather r) fun hnone => ?_
  unfold Clock.receiveWeather
  rw [hnone]
  exact ⟨rfl, receive_nil lw⟩

/-- what a clock is attached to for the first time has an empty queue -/
theorem attach (h : Kept config false ⟨c, ln, lw⟩) : Kept config true ⟨c.attach lib, ln, lw⟩ := by
  obtain ⟨-, hw, rfl, rfl⟩ := h.before rfl
  obtain ⟨_, _, hsync⟩ := syncOnStart_eq lib { c with status := none }
  obtain ⟨_, _, _, _, hclients, hntp, hweather, -⟩ :=
    attachClients_eq lib ({ c with status := none }.syncOnStart lib)
  rw [hsync] at hweather
  unfold Clock.attach
  dsimp only
  rw [hclients, hsync]
  refine ⟨h.settings, fun client hc => ?_, fun client hc => ?_, nofun⟩
  · show Ledger.Complete _ _ client.queue
    rw [hntp client hc]
    exact .nil
  · dsimp only at hweather hc
    split at hweather
    · obtain ⟨hunit, hqueue⟩ := hweather client hc
      refine ⟨?_, hunit.trans (by rw [← h.settings])⟩
      rw [hqueue]
      exact .nil
    · cases (hc.symm.trans hweather).trans hw

/-- every other phase keeps it, whenever it comes -/
theorem next {x : Course σ τ} (h : Kept config attached x) {p : Phase} (hp : p ≠ .attach) :
    Kept config attached (x.next lib S p) := by
  obtain ⟨c, ln, lw⟩ := x
  cases p with
  | attach => exact absurd rfl hp
  | start =>
    obtain ⟨host, hstart⟩ := c.start_eq S
    show Kept config attached ⟨(c.start S).2, ln, lw⟩
    rw [hstart]
    exact h.of_eq rfl rfl rfl
  | event e =>
    obtain ⟨host, hevent⟩ := c.handleEvent_eq S e
    show Kept config attached ⟨(c.handleEvent S e).2, ln, lw⟩
    rw [hevent]
    exact h.of_eq rfl rfl rfl
  | shutdown =>
    refine ⟨h.settings, .of_none rfl, .of_none rfl, fun hbefore => ?_⟩
    exact ⟨rfl, rfl, (h.before hbefore).2.2⟩
  | letNtpGo => exact h.letNtpGo lib
  | handleNtp now => exact h.handleNtp lib now
  | askNtp now =>
    obtain ⟨_, hask, -⟩ := requestedNtp_eq lib now c
    show Kept config attached ⟨c.requestedNtp lib now, ln, lw⟩
    rw [hask]
    exact h.of_eq rfl rfl rfl
  | letWeatherGo => exact h.letWeatherGo lib
  | handleWeather now => exact h.handleWeather now
  | askWeather now =>
    obtain ⟨_, hask, -⟩ := requestedWeather_eq lib now c
    show Kept config attached ⟨c.requestedWeather lib now, ln, lw⟩
    rw [hask]
    exact h.of_eq rfl rfl rfl
  | askAlarm now =>
    obtain ⟨_, _, _, hask, -⟩ := refreshAlarm_calls lib now c
    show Kept config attached ⟨c.refreshAlarm lib now, ln, lw⟩
    rw [hask]
    exact h.of_eq rfl rfl rfl
  | draw now offset =>
    show Kept config attached ⟨c.drawFrame S now offset, ln, lw⟩
    unfold drawFrame
    split
    · exact h.of_eq rfl rfl rfl
    · exact h
  | ntpReply r => exact h.receiveNtp r
  | weatherReply r => exact h.receiveWeather r

theorem follow {x : Course σ τ} (h : Kept config attached x) {phases : List Phase}
    (hphases : ∀ p ∈ phases, p ≠ .attach) : Kept config attached (x.follow lib S phases) := by
  induction phases generalizing x with
  | nil => exact h
  | cons p phases ih =>
    exact ih (h.next lib S (hphases p List.mem_cons_self)) fun p' hp =>
      hphases p' (List.mem_cons_of_mem p hp)

end Kept

/-- **No reply is lost, handled twice or out of order.** Whatever is done with a client that was made, in
any order, and whenever replies arrive: the updates that were polled, and behind them those that wait, are
what the replies mean, one for each.

The same holds of a clock that is attached once, with the updates that it handles. Replies may arrive
between any two phases of a tick, and the phases may come in any order. -/
theorem replies_handled (lib : Library σ) (S : Surface τ ε) :
    (∀ (s s' : Session σ) (client : NtpClient) (ops : List NtpClient.Op),
      NtpClient.create lib s = (.ok client, s') →
      let u := ops.foldl (NtpClient.Op.apply lib) ⟨client, s', {}⟩
      List.Forall₂ NtpReply.Means u.ledger.arrived (u.ledger.taken ++ u.client.queue)) ∧
    (∀ (s s' : Session σ) (key : String) (unit : TemperatureUnit) (client : WeatherClient)
        (ops : List WeatherClient.Op),
      WeatherClient.create lib key unit s = (.ok client, s') →
      let u := ops.foldl (WeatherClient.Op.apply lib) ⟨client, s', {}⟩
      List.Forall₂ (WeatherReply.Means unit) u.ledger.arrived (u.ledger.taken ++ u.client.queue)) ∧
    (∀ (c : Clock σ τ) (now : Instant) (offset : Int),
      (c.tick lib S now offset).2 = (tickPhases now offset).foldl (Phase.apply lib S) c) ∧
    ∀ (config : Config) (disk : Disk) (native : Session σ) (surface : τ) (before after : List Phase),
      (∀ p ∈ before, p ≠ .attach) → (∀ p ∈ after, p ≠ .attach) →
      let x := Course.follow lib S ⟨Clock.new config disk native surface, {}, {}⟩
        (before ++ .attach :: after)
      (∀ client, x.clock.ntp.client = some client →
        List.Forall₂ NtpReply.Means x.ntp.arrived (x.ntp.taken ++ client.queue)) ∧
      ∀ client, x.clock.weather.client = some client →
        List.Forall₂ (WeatherReply.Means config.weather.units) x.weather.arrived
          (x.weather.taken ++ client.queue) := by
  refine ⟨?_, ?_, fun c now offset => c.tick_phases lib now S offset, ?_⟩
  · intro s s' client ops hcreate u
    have hnew : client.KeptBy {} := by
      have hqueue : client.queue = [] := NtpClient.queue_create lib s client (by rw [hcreate]; rfl)
      unfold NtpClient.KeptBy
      rw [hqueue]
      exact .nil
    have hkept : u.client.KeptBy u.ledger := NtpClient.run_keptBy lib (u := ⟨client, s', {}⟩) hnew ops
    exact hkept.forall₂ NtpUpdate.means_ofReply
  · intro s s' key unit client ops hcreate u
    have hnew : client.KeptBy unit {} := by
      obtain ⟨hunit, hqueue⟩ := WeatherClient.of_create lib key unit s client (by rw [hcreate]; rfl)
      refine ⟨?_, hunit⟩
      rw [hqueue]
      exact .nil
    have hkept : u.client.KeptBy unit u.ledger :=
      WeatherClient.run_keptBy lib (u := ⟨client, s', {}⟩) hnew ops
    exact hkept.queue.forall₂ (WeatherUpdate.means_ofReply unit)
  · intro config disk native surface before after hbefore hafter x
    have hattached : Kept config true (Course.next lib S
        (Course.follow lib S ⟨Clock.new config disk native surface, {}, {}⟩ before) .attach) :=
      ((Kept.new config disk native surface).follow lib S hbefore).attach lib
    have hx : Kept config true x := by
      show Kept config true (Course.follow lib S _ (before ++ .attach :: after))
      unfold Course.follow
      rw [List.foldl_append]
      exact hattached.follow lib S hafter
    refine ⟨fun client hclient => ?_, fun client hclient => ?_⟩
    · exact (hx.ntp client hclient).forall₂ NtpUpdate.means_ofReply
    · exact (hx.weather client hclient).queue.forall₂ (WeatherUpdate.means_ofReply _)

end Clock

end DeskClock
