import DeskClock.Native.Alarms
import DeskClock.Native.Ntp
import DeskClock.Native.Weather
import Mathlib

/-!
# the calls that the clients make

* `Deed`, `Request.deed`      what a request does with an object of the library;
* `Session.Extends`           a session goes on with calls of some deeds;
* `getTime_extends`, …        what the clients do with the objects they hold;
* `Session.Makes`             an object is made by one call at most; `create_makes` for each client.
-/

namespace DeskClock

open Native

variable {σ : Type}

namespace Native

/-- what a request does with an object of the library -/
inductive Deed where
  | makes (service : Service) (handle : Handle)
  | uses (service : Service) (handle : Handle)
  | destroys (service : Service) (handle : Handle)
  /-- it is about the clock of the machine -/
  | sets
deriving DecidableEq

def Request.deed : Request → Deed
  | .ntp (.create h) => .makes .ntp h
  | .ntp (.destroy h) => .destroys .ntp h
  | .ntp (.getTime h _ _) => .uses .ntp h
  | .ntp (.process h) => .uses .ntp h
  | .ntp (.setTime _ _) => .sets
  | .weather (.create h _ _) => .makes .weather h
  | .weather (.destroy h) => .destroys .weather h
  | .weather (.getByCity h _ _) => .uses .weather h
  | .weather (.process h) => .uses .weather h
  | .alarms (.create h) => .makes .alarms h
  | .alarms (.destroy h) => .destroys .alarms h
  | .alarms (.add h _ _ _ _) => .uses .alarms h
  | .alarms (.remove h _) => .uses .alarms h
  | .alarms (.next h) => .uses .alarms h

namespace Session

/-- a session goes on with calls of some deeds -/
def Extends (deeds : Deed → Prop) (s s' : Session σ) : Prop :=
  ∃ calls : List Exchange, s'.log = s.log ++ calls ∧ ∀ e ∈ calls, deeds e.1.deed

namespace Extends

variable {deeds deeds' : Deed → Prop} {s s' s'' : Session σ}

theorem refl (deeds : Deed → Prop) (s : Session σ) : s.Extends deeds s :=
  ⟨[], (List.append_nil _).symm, fun _ h => by cases h⟩

theorem trans (h : s.Extends deeds s') (h' : s'.Extends deeds s'') : s.Extends deeds s'' := by
  obtain ⟨calls, hlog, hcalls⟩ := h
  obtain ⟨calls', hlog', hcalls'⟩ := h'
  refine ⟨calls ++ calls', ?_, ?_⟩
  · rw [hlog', hlog, List.append_assoc]
  · intro e he
    rcases List.mem_append.mp he with he | he
    · exact hcalls e he
    · exact hcalls' e he

theorem mono (h : s.Extends deeds s') (hd : ∀ d, deeds d → deeds' d) : s.Extends deeds' s' := by
  obtain ⟨calls, hlog, hcalls⟩ := h
  exact ⟨calls, hlog, fun e he => hd _ (hcalls e he)⟩

/-- calls that are not about the clock of the machine -/
theorem not_sets (h : s.Extends deeds s') (hd : ¬ deeds .sets) : s.Extends (· ≠ .sets) s' :=
  h.mono fun _ hdeed e => hd (e ▸ hdeed)

theorem ask (lib : Library σ) (r : Request) (s : Session σ) :
    s.Extends (· = r.deed) (s.ask lib r).2 := by
  refine ⟨_, rfl, ?_⟩
  intro e he
  rw [List.mem_singleton.mp he]

end Extends

end Session

end Native

open Native Session

variable (lib : Library σ) (s : Session σ)

/-! ## calls on an object -/

theorem setTime_extends (server : String) (timeout : Duration) :
    s.Extends (· = .sets) (setTime lib server timeout s).2 := by
  unfold setTime
  cases terminated? server with
  | none => exact .refl _ s
  | some server => exact .ask lib (.ntp (.setTime server timeout.wholeSeconds)) s

theorem NtpClient.getTime_extends (c : NtpClient) (server : String) (timeout : Duration) :
    s.Extends (· = .uses .ntp c.handle) (c.getTime lib server timeout s).2 := by
  unfold NtpClient.getTime
  cases terminated? server with
  | none => exact .refl _ s
  | some server => exact .ask lib (.ntp (.getTime c.handle server timeout.wholeSeconds)) s

theorem WeatherClient.getByCity_extends (c : WeatherClient) (location : GeoLocation)
    (timeout : Duration) :
    s.Extends (· = .uses .weather c.handle) (c.getByCity lib location timeout s).2 :=
  .ask lib (.weather (.getByCity c.handle location timeout.wholeSeconds)) s

theorem AlarmScheduler.add_extends (a : AlarmScheduler) (label : String) (time : TimeOfDay)
    (days : Weekdays) (sound : Option String) :
    s.Extends (· = .uses .alarms a.handle) (a.add lib label time days sound s).2 := by
  unfold AlarmScheduler.add
  split
  · exact .ask lib (.alarms (.add a.handle _ time days.bits _)) s
  · exact .refl _ s

theorem AlarmScheduler.load_extends (a : AlarmScheduler) (alarms : List AlarmSettings) :
    s.Extends (· = .uses .alarms a.handle) (a.load lib alarms s).2 := by
  induction alarms generalizing s with
  | nil => exact .refl _ s
  | cons alarm alarms ih =>
    rw [AlarmScheduler.load]
    exact (a.add_extends lib s _ _ _ _).trans (ih _)

theorem AlarmScheduler.next_eq (a : AlarmScheduler) :
    (a.next lib s).2 = (s.ask lib (.alarms (.next a.handle))).2 := by
  unfold AlarmScheduler.next
  dsimp only
  split
  · rfl
  · split
    · rfl
    · rfl

/-- no record is no alarm, and a record of no alarm is malformed -/
theorem AlarmScheduler.next_answer (a : AlarmScheduler) : (a.next lib s).1 =
    Option.elim (s.ask lib (.alarms (.next a.handle))).1 (.ok none) fun record : AlarmRecord =>
      record.alarm?.elim (.error (.malformedRecord .alarmNext)) fun alarm => .ok (some alarm) := by
  unfold AlarmScheduler.next
  generalize s.ask lib (.alarms (.next a.handle)) = x
  obtain ⟨record, s'⟩ := x
  cases record with
  | none => rfl
  | some record =>
    dsimp only [Option.elim_some]
    cases record.alarm? with
    | none => rfl
    | some alarm => rfl

/-! ## making an object -/

/-- an object of a service is made by one call at most; its handle, if there is an object -/
def Native.Session.Makes (service : Service) (handle? : Option Handle) (s s' : Session σ) : Prop :=
  (s'.log = s.log ∧ handle? = none) ∨
  ∃ e : Exchange, e.1.deed = .makes service (s.nextHandle service) ∧ s'.log = s.log ++ [e] ∧
    handle?.map (service, ·) = e.made?

theorem Native.Session.Makes.extends {service : Service} {handle? : Option Handle}
    {s s' : Session σ} (h : s.Makes service handle? s') :
    s.Extends (· = .makes service (s.nextHandle service)) s' := by
  rcases h with ⟨hlog, -⟩ | ⟨e, hdeed, hlog, -⟩
  · exact ⟨[], by rw [hlog, List.append_nil], fun _ h => by cases h⟩
  · refine ⟨[e], hlog, ?_⟩
    intro e' he
    rw [List.mem_singleton.mp he]
    exact hdeed

theorem NtpClient.create_makes :
    s.Makes .ntp ((NtpClient.create lib s).1.toOption.map (·.handle)) (NtpClient.create lib s).2 := by
  refine .inr ⟨⟨.ntp (.create (s.nextHandle .ntp)), (s.ask lib _).1⟩, rfl, ?_, ?_⟩
  · unfold NtpClient.create
    dsimp only
    split
    · rfl
    · rfl
  · unfold NtpClient.create Exchange.made?
    dsimp only
    split
    · rfl
    · rfl

/-- a key with a zero byte makes no call -/
theorem WeatherClient.create_makes (key : String) (unit : TemperatureUnit) :
    s.Makes .weather ((WeatherClient.create lib key unit s).1.toOption.map (·.handle))
      (WeatherClient.create lib key unit s).2 := by
  unfold WeatherClient.create
  cases terminated? key with
  | none => exact .inl ⟨rfl, rfl⟩
  | some memory =>
    refine .inr ⟨⟨.weather (.create (s.nextHandle .weather) memory unit.code), (s.ask lib _).1⟩,
      rfl, ?_, ?_⟩
    · dsimp only
      split
      · rfl
      · rfl
    · unfold Exchange.made?
      dsimp only
      split
      · rfl
      · rfl

theorem AlarmScheduler.create_makes :
    s.Makes .alarms ((AlarmScheduler.create lib s).1.toOption.map (·.handle))
      (AlarmScheduler.create lib s).2 := by
  refine .inr ⟨⟨.alarms (.create (s.nextHandle .alarms)), (s.ask lib _).1⟩, rfl, ?_, ?_⟩
  · unfold AlarmScheduler.create
    dsimp only
    split
    · rfl
    · rfl
  · unfold AlarmScheduler.create Exchange.made?
    dsimp only
    split
    · rfl
    · rfl

end DeskClock
