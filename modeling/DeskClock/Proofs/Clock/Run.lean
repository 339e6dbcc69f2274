import DeskClock.Proofs.Clock.History
import DeskClock.Proofs.Native.Calls

/-!
# runs of the clock

* `Clock.Step`, `Clock.run`   what can happen to a clock, one thing after the other;
* `Session.trace`             what an observer sees of the calls of the library;
* `SeesOperations`            an observer who looks at requests and their replies only;
* `Deed.IsUpkeep`             a deed that such an observer does not see;
* `Undisturbed`               no setting, no progress of a request and no operation has changed;
* `Collected`                 no update waits in the queue of a client;
* `Harmless`                  a step that leaves a clock undisturbed and its clients collected;
* `attach_harmless`, `start_harmless`, `handleEvent_harmless`, `shutdown_harmless`   all steps but ticks.
-/

namespace DeskClock

open Native

variable {σ τ ε : Type}

namespace Clock

/-- what can happen to a clock -/
inductive Step where
  /-- it gets the clients of the library, in place of those it has -/
  | attach
  /-- the window is made and shown -/
  | start
  | event (e : WindowEvent)
  | shutdown
  /-- a tick at an instant, on a clock that is `offset` seconds ahead of universal time -/
  | tick (now : Instant) (offset : Int)

/-- the clock after a step; an error of the window is passed over -/
def Step.apply (lib : Library σ) (S : Surface τ ε) (c : Clock σ τ) : Step → Clock σ τ
  | attach => c.attach lib
  | start => (c.start S).2
  | event e => (c.handleEvent S e).2
  | shutdown => (c.shutdown lib S).2
  | tick now offset => (c.tick lib S now offset).2

def run (lib : Library σ) (S : Surface τ ε) (c : Clock σ τ) (steps : List Step) : Clock σ τ :=
  steps.foldl (Step.apply lib S) c

end Clock

/-! ## what an observer sees of the library -/

/-- whether a request starts an operation of the library or lets it go on -/
def Native.Request.isOperation : Request → Bool
  | .ntp (.getTime _ _ _) => true
  | .ntp (.process _) => true
  | .weather (.getByCity _ _ _) => true
  | .weather (.process _) => true
  | _ => false

/-- an observer of the calls who sees nothing but operations -/
def SeesOperations {α : Type} (f : Exchange → List α) : Prop :=
  ∀ r (answer : r.Answer), r.isOperation = false → f ⟨r, answer⟩ = []

/-- a deed that starts no operation and lets none go on -/
def Native.Deed.IsUpkeep : Deed → Prop
  | .uses .ntp _ => False
  | .uses .weather _ => False
  | _ => True

theorem Native.Deed.IsUpkeep.isOperation_eq_false {r : Request} (h : r.deed.IsUpkeep) :
    r.isOperation = false := by
  match r, h with
  | .ntp (.create _), _ => rfl
  | .ntp (.destroy _), _ => rfl
  | .ntp (.setTime _ _), _ => rfl
  | .weather (.create _ _ _), _ => rfl
  | .weather (.destroy _), _ => rfl
  | .alarms _, _ => rfl

/-- what an observer has seen of the calls made so far -/
def Native.Session.trace {α : Type} (f : Exchange → List α) (s : Session σ) : List α :=
  s.log.flatMap f

section Trace

variable {α : Type} {f : Exchange → List α} {s s' : Session σ} {deeds : Deed → Prop}

theorem trace_ask (lib : Library σ) (s : Session σ) (f : Exchange → List α) (r : Request) :
    (s.ask lib r).2.trace f = s.trace f ++ f ⟨r, (s.ask lib r).1⟩ := by
  show (s.log ++ [_]).flatMap f = _
  rw [List.flatMap_append, List.flatMap_singleton]
  rfl

/-- calls that an observer does not see leave what it has seen -/
theorem Native.Session.Extends.trace (h : s.Extends deeds s')
    (hf : ∀ e : Exchange, deeds e.1.deed → f e = []) : s'.trace f = s.trace f := by
  obtain ⟨calls, hlog, hcalls⟩ := h
  have hunseen : calls.flatMap f = [] := List.flatMap_eq_nil_iff.mpr fun e he => hf e (hcalls e he)
  rw [Session.trace, hlog, List.flatMap_append, hunseen, List.append_nil]
  rfl

theorem Native.Session.Extends.trace_of_upkeep (h : s.Extends Deed.IsUpkeep s')
    (hf : SeesOperations f) : s'.trace f = s.trace f :=
  h.trace fun e he => hf e.1 e.2 he.isOperation_eq_false

end Trace

/-! ## what disturbs a clock -/

namespace Clock

def ntpProgress (c : Clock σ τ) : Progress := ⟨c.ntp.state, c.ntp.lastAttempt⟩
def weatherProgress (c : Clock σ τ) : Progress := ⟨c.weather.state, c.weather.lastAttempt⟩

/-- no setting, no progress of a request and no operation of the library has changed -/
structure Undisturbed (c c' : Clock σ τ) : Prop where
  config : c'.config = c.config
  ntp : c'.ntpProgress = c.ntpProgress
  weather : c'.weatherProgress = c.weatherProgress
  trace : ∀ {α : Type} {f : Exchange → List α}, SeesOperations f →
    c'.native.trace f = c.native.trace f

/-- no update waits in the queue of a client -/
structure Collected (c : Clock σ τ) : Prop where
  ntp : ∀ client, c.ntp.client = some client → client.queue = []
  weather : ∀ client, c.weather.client = some client → client.queue = []

variable {c c' c'' : Clock σ τ}

theorem Undisturbed.refl (c : Clock σ τ) : Undisturbed c c := ⟨rfl, rfl, rfl, fun _ => rfl⟩

theorem Undisturbed.trans (h : Undisturbed c c') (h' : Undisturbed c' c'') : Undisturbed c c'' where
  config := h'.config.trans h.config
  ntp := h'.ntp.trans h.ntp
  weather := h'.weather.trans h.weather
  trace hf := (h'.trace hf).trans (h.trace hf)

/-- a step that leaves a clock undisturbed and its clients collected -/
def Harmless (c c' : Clock σ τ) : Prop := Undisturbed c c' ∧ (Collected c → Collected c')

theorem Harmless.refl (c : Clock σ τ) : Harmless c c := ⟨.refl c, id⟩

theorem Harmless.trans (h : Harmless c c') (h' : Harmless c' c'') : Harmless c c'' :=
  ⟨h.1.trans h'.1, h'.2 ∘ h.2⟩

/-- new calls that start no operation, a new window, new alarms or a new status do no harm -/
theorem harmless_of_eq (hconfig : c'.config = c.config) (hntp : c'.ntp = c.ntp)
    (hweather : c'.weather = c.weather) (hcalls : c.native.Extends Deed.IsUpkeep c'.native) :
    Harmless c c' := by
  refine ⟨⟨hconfig, ?_, ?_, hcalls.trace_of_upkeep⟩, fun h => ⟨?_, ?_⟩⟩
  · rw [ntpProgress, hntp]
    rfl
  · rw [weatherProgress, hweather]
    rfl
  · rw [hntp]
    exact h.ntp
  · rw [hweather]
    exact h.weather

variable (lib : Library σ) (c : Clock σ τ)

/-- setting the clock of the machine calls the library, and may show how it went -/
theorem setMachineTime_eq : ∃ native status, c.setMachineTime lib = { c with native, status } ∧
    c.native.Extends (· = .sets) native := by
  have hcalls := setTime_extends lib c.native c.config.ntp.server c.config.ntp.timeout
  rw [setMachineTime]
  cases h : setTime lib c.config.ntp.server c.config.ntp.timeout c.native with
  | mk result native =>
    rw [h] at hcalls
    cases result with
    | ok outcome => exact ⟨native, some outcome.message, rfl, hcalls⟩
    | error fault => exact ⟨native, c.status, rfl, hcalls⟩

theorem setMachineTime_harmless : Harmless c (c.setMachineTime lib) := by
  obtain ⟨native, status, h, hcalls⟩ := c.setMachineTime_eq lib
  rw [h]
  refine harmless_of_eq rfl rfl rfl (hcalls.mono ?_)
  rintro d rfl
  trivial

/-- a client that is given up is destroyed -/
theorem replaceNtp_extends (client : Option NtpClient) :
    c.native.Extends (fun d => ∃ old, c.ntp.client = some old ∧ d = .destroys .ntp old.handle)
      (c.replaceNtp lib client).native := by
  unfold replaceNtp
  cases c.ntp.client with
  | none => exact .refl _ _
  | some old => exact (Session.Extends.ask lib (.ntp (.destroy old.handle)) c.native).mono fun _ h =>
      ⟨old, rfl, h⟩

theorem replaceWeather_extends (client : Option WeatherClient) :
    c.native.Extends (fun d => ∃ old, c.weather.client = some old ∧ d = .destroys .weather old.handle)
      (c.replaceWeather lib client).native := by
  unfold replaceWeather
  cases c.weather.client with
  | none => exact .refl _ _
  | some old => exact (Session.Extends.ask lib (.weather (.destroy old.handle)) c.native).mono fun _ h =>
      ⟨old, rfl, h⟩

theorem replaceAlarms_extends (scheduler : Option AlarmScheduler) :
    c.native.Extends
      (fun d => ∃ old, c.alarms.scheduler = some old ∧ d = .destroys .alarms old.handle)
      (c.replaceAlarms lib scheduler).native := by
  unfold replaceAlarms
  cases c.alarms.scheduler with
  | none => exact .refl _ _
  | some old => exact (Session.Extends.ask lib (.alarms (.destroy old.handle)) c.native).mono fun _ h =>
      ⟨old, rfl, h⟩

theorem replaceNtp_harmless (client : Option NtpClient)
    (hq : ∀ new, client = some new → new.queue = []) : Harmless c (c.replaceNtp lib client) := by
  have hcalls : c.native.Extends Deed.IsUpkeep (c.replaceNtp lib client).native :=
    (c.replaceNtp_extends lib client).mono fun _ ⟨_, _, h⟩ => h ▸ trivial
  exact ⟨⟨rfl, rfl, rfl, hcalls.trace_of_upkeep⟩, fun h => ⟨hq, h.weather⟩⟩

theorem replaceWeather_harmless (client : Option WeatherClient)
    (hq : ∀ new, client = some new → new.queue = []) : Harmless c (c.replaceWeather lib client) := by
  have hcalls : c.native.Extends Deed.IsUpkeep (c.replaceWeather lib client).native :=
    (c.replaceWeather_extends lib client).mono fun _ ⟨_, _, h⟩ => h ▸ trivial
  exact ⟨⟨rfl, rfl, rfl, hcalls.trace_of_upkeep⟩, fun h => ⟨h.ntp, hq⟩⟩

theorem replaceAlarms_harmless (scheduler : Option AlarmScheduler) :
    Harmless c (c.replaceAlarms lib scheduler) :=
  harmless_of_eq rfl rfl rfl ((c.replaceAlarms_extends lib scheduler).mono fun _ ⟨_, _, h⟩ =>
    h ▸ trivial)

/-- a client that has just been made has an empty queue -/
theorem NtpClient.queue_create (s : Session σ) (client : NtpClient)
    (h : (NtpClient.create lib s).1.toOption = some client) : client.queue = [] := by
  unfold NtpClient.create at h
  dsimp only at h
  split at h
  · cases h
    rfl
  · cases h

/-- a weather client that has just been made has the configured unit and an empty queue -/
theorem WeatherClient.of_create (key : String) (unit : TemperatureUnit) (s : Session σ)
    (client : WeatherClient) (h : (WeatherClient.create lib key unit s).1.toOption = some client) :
    client.unit = unit ∧ client.queue = [] := by
  unfold WeatherClient.create at h
  split at h
  · cases h
  · dsimp only at h
    split at h
    · cases h
      exact ⟨rfl, rfl⟩
    · cases h

theorem attachNtp_harmless : Harmless c (c.attachNtp lib) := by
  have h : Harmless c { c with native := (NtpClient.create lib c.native).2 } :=
    harmless_of_eq rfl rfl rfl ((NtpClient.create_makes lib c.native).extends.mono fun _ h => h ▸ trivial)
  exact h.trans (replaceNtp_harmless lib _ _ (NtpClient.queue_create lib c.native))

theorem attachWeather_harmless : Harmless c (c.attachWeather lib) := by
  unfold attachWeather
  split
  · have h : Harmless c { c with native := (WeatherClient.create lib c.config.weather.apiKey
        c.config.weather.units c.native).2 } :=
      harmless_of_eq rfl rfl rfl
        ((WeatherClient.create_makes lib c.native _ _).extends.mono fun _ h => h ▸ trivial)
    exact h.trans (replaceWeather_harmless lib _ _ fun new hn =>
      (WeatherClient.of_create lib _ _ c.native new hn).2)
  · exact .refl c

theorem attachAlarms_harmless : Harmless c (c.attachAlarms lib) := by
  have hmade : c.native.Extends Deed.IsUpkeep (AlarmScheduler.create lib c.native).2 :=
    (AlarmScheduler.create_makes lib c.native).extends.mono fun _ h => h ▸ trivial
  unfold attachAlarms
  cases h : AlarmScheduler.create lib c.native with
  | mk result native =>
    rw [h] at hmade
    cases result with
    | error fault => exact harmless_of_eq rfl rfl rfl hmade
    | ok scheduler =>
      have h1 : Harmless c { c with native := (scheduler.load lib c.config.alarms native).2 } :=
        harmless_of_eq rfl rfl rfl
          (hmade.trans ((scheduler.load_extends lib native _).mono fun _ h => h ▸ trivial))
      exact h1.trans (replaceAlarms_harmless lib _ _)

theorem attach_harmless : Harmless c (c.attach lib) := by
  have h1 : Harmless c { c with status := none } :=
    harmless_of_eq rfl rfl rfl (.refl _ _)
  have h2 : ∀ c : Clock σ τ, Harmless c (c.syncOnStart lib) := by
    intro c
    unfold syncOnStart
    split
    · exact setMachineTime_harmless lib c
    · exact .refl c
  have h3 : ∀ c : Clock σ τ, Harmless c { c with attached := true } := fun c =>
    harmless_of_eq rfl rfl rfl (.refl _ _)
  exact h1.trans ((h2 _).trans ((attachNtp_harmless lib _).trans ((attachWeather_harmless lib _).trans
    ((attachAlarms_harmless lib _).trans (h3 _)))))

/-- the window is all that changes when it is made and when it has an event -/
theorem start_eq (S : Surface τ ε) : ∃ host, (c.start S).2 = { c with host } := by
  unfold start
  cases c.host.create S with
  | mk result host =>
    cases result with
    | error e => exact ⟨host, rfl⟩
    | ok made => exact ⟨_, rfl⟩

theorem handleEvent_eq (S : Surface τ ε) (e : WindowEvent) :
    ∃ host, (c.handleEvent S e).2 = { c with host } := by
  unfold handleEvent
  cases c.host.handle S e with
  | mk result host =>
    cases result with
    | error e => exact ⟨host, rfl⟩
    | ok done =>
      dsimp only
      split
      · exact ⟨_, rfl⟩
      · exact ⟨host, rfl⟩

theorem host_harmless (host : WindowHost τ) : Harmless c { c with host } :=
  harmless_of_eq rfl rfl rfl (.refl _ _)

theorem start_harmless (S : Surface τ ε) : Harmless c (c.start S).2 := by
  obtain ⟨host, h⟩ := c.start_eq S
  rw [h]
  exact host_harmless c host

theorem handleEvent_harmless (S : Surface τ ε) (e : WindowEvent) :
    Harmless c (c.handleEvent S e).2 := by
  obtain ⟨host, h⟩ := c.handleEvent_eq S e
  rw [h]
  exact host_harmless c host

theorem shutdown_harmless (S : Surface τ ε) : Harmless c (c.shutdown lib S).2 := by
  have h1 := host_harmless c (c.host.handle S .closed).2
  have h2 : ∀ c : Clock σ τ, Harmless c (c.release lib) := fun c =>
    (replaceAlarms_harmless lib c none).trans
      ((replaceWeather_harmless lib _ none fun _ e => (by cases e)).trans
        (replaceNtp_harmless lib _ none fun _ e => (by cases e)))
  exact h1.trans (h2 _)

/-- a tick is a round of the services; what follows it is about the window -/
theorem tick_eq (S : Surface τ ε) (now : Instant) (offset : Int) :
    ∃ host, (c.tick lib S now offset).2 = { c.pump lib now with host } := by
  unfold tick
  dsimp only
  cases now.atOffset? offset with
  | none => exact ⟨_, rfl⟩
  | some moment =>
    dsimp only
    cases (c.pump lib now).host.draw S ((c.pump lib now).frame moment) with
    | mk result host =>
      cases result with
      | ok drawn => exact ⟨host, rfl⟩
      | error e => exact ⟨host, rfl⟩

theorem refreshAlarm_harmless (now : Instant) : Harmless c (c.refreshAlarm lib now) := by
  unfold refreshAlarm
  cases c.alarms.scheduler with
  | none => exact .refl c
  | some scheduler =>
    dsimp only
    split
    · exact .refl c
    · refine harmless_of_eq rfl rfl rfl ?_
      rw [AlarmScheduler.next_eq]
      exact (Session.Extends.ask lib (.alarms (.next scheduler.handle)) c.native).mono fun _ h =>
        h ▸ trivial

end Clock

end DeskClock
