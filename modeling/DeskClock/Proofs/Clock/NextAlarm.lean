import DeskClock.Proofs.Clock.Parts

/-!
# the next alarm

* `Exchange.inquiries`      an observer who sees when a scheduler is asked for its next alarm, and the answer;
* `Clock.alarmRounds`       the ticks of a life at which there is a scheduler;
* `Clock.NotAsked`          nobody has asked, and the alarm that is shown is the same; so it is with all that
                            is done for the other services, and with `attachAlarms` and `release`;
* `Clock.refreshAlarm_cases`   what a tick does about the alarm;
* `Clock.Remembers`         the minute of the last round and the answer to the last question are remembered;
* `Clock.next_alarm_refreshed`   in any life the scheduler is asked once for each change of the minute, and
                            what it said last is shown.
-/

namespace DeskClock

open Native

variable {σ τ ε : Type}

/-! ## an observer -/

/-- a scheduler that is asked for its next alarm, and its answer -/
def Native.Exchange.inquiries : Exchange → List (Handle × Option AlarmRecord)
  | ⟨.alarms (.next handle), record⟩ => [(handle, record)]
  | _ => []

theorem inquiries_of_service {e : Exchange} (h : e.1.service ≠ .alarms) : e.inquiries = [] := by
  match e, h with
  | ⟨.ntp _, _⟩, _ => rfl
  | ⟨.weather _, _⟩, _ => rfl
  | ⟨.alarms _, _⟩, h => exact absurd rfl h

/-- calls to a service that an observer does not see leave what it has seen -/
theorem Native.Session.Goes.trace {α : Type} {f : Exchange → List α} {lib : Library σ} {service : Service}
    {s s' : Session σ} (h : s.Goes lib service s')
    (hf : ∀ e : Exchange, e.1.service = service → f e = []) : s'.trace f = s.trace f := by
  induction h with
  | refl => rfl
  | ask r hr _ ih => rw [trace_ask, hf _ hr, List.append_nil, ih]

namespace AlarmScheduler

variable (a : AlarmScheduler) (lib : Library σ) (s : Session σ)

theorem create_inquiries : (create lib s).2.trace Exchange.inquiries = s.trace Exchange.inquiries := by
  have h := trace_ask lib s Exchange.inquiries (.alarms (.create (s.nextHandle .alarms)))
  unfold create
  dsimp only
  split
  all_goals exact h.trans (List.append_nil _)

theorem add_inquiries (label : String) (time : TimeOfDay) (days : Weekdays) (sound : Option String) :
    (a.add lib label time days sound s).2.trace Exchange.inquiries = s.trace Exchange.inquiries := by
  unfold add
  split
  · exact (trace_ask lib s Exchange.inquiries _).trans (List.append_nil _)
  · rfl

theorem load_inquiries (alarms : List AlarmSettings) :
    (a.load lib alarms s).2.trace Exchange.inquiries = s.trace Exchange.inquiries := by
  induction alarms generalizing s with
  | nil => rfl
  | cons alarm alarms ih =>
    rw [load]
    exact (ih _).trans (a.add_inquiries lib s alarm.name alarm.time (.ofList alarm.days) alarm.sound)

theorem close_inquiries : (a.close lib s).trace Exchange.inquiries = s.trace Exchange.inquiries :=
  (trace_ask lib s Exchange.inquiries (.alarms (.destroy a.handle))).trans (List.append_nil _)

/-- the question is seen with its answer, and no record and a record of no alarm count alike -/
theorem next_inquiries : ∃ record : Option AlarmRecord,
    (a.next lib s).2.trace Exchange.inquiries
      = s.trace Exchange.inquiries ++ [(a.handle, record)] ∧
    (a.next lib s).1.toOption.join = record.bind AlarmRecord.alarm? := by
  refine ⟨(s.ask lib (.alarms (.next a.handle))).1, ?_, ?_⟩
  · rw [a.next_eq lib s, trace_ask]
    rfl
  · rw [next_answer]
    generalize (s.ask lib (.alarms (.next a.handle))).1 = record
    match record with
    | none => rfl
    | some record =>
      rw [Option.elim_some, Option.bind_some]
      cases record.alarm? with
      | none => rfl
      | some alarm => rfl

end AlarmScheduler

namespace Clock

/-! ## when nobody asks -/

/-- nobody has asked for the next alarm, and what was known of it is the same -/
structure NotAsked (c c' : Clock σ τ) : Prop where
  inquiries : c'.native.trace Exchange.inquiries = c.native.trace Exchange.inquiries
  lastMinute : c'.alarms.lastMinute = c.alarms.lastMinute
  next : c'.alarms.next = c.alarms.next

namespace NotAsked

variable {c c' c'' : Clock σ τ} {lib : Library σ}

theorem trans (h : NotAsked c c') (h' : NotAsked c' c'') : NotAsked c c'' where
  inquiries := h'.inquiries.trans h.inquiries
  lastMinute := h'.lastMinute.trans h.lastMinute
  next := h'.next.trans h.next

/-- what goes on at another service -/
theorem only {service : Service} (h : Only lib service c c') (hs : service ≠ .alarms) : NotAsked c c' := by
  have halarms : c'.alarms = c.alarms := h.part .alarms hs
  refine ⟨h.native.trace fun e he => inquiries_of_service (he ▸ hs), ?_, ?_⟩
  · rw [halarms]
  · rw [halarms]

variable (c lib)

theorem replaceAlarms (scheduler : Option AlarmScheduler) :
    NotAsked c (c.replaceAlarms lib scheduler) := by
  unfold Clock.replaceAlarms
  cases c.alarms.scheduler with
  | none => exact ⟨rfl, rfl, rfl⟩
  | some old => exact ⟨old.close_inquiries lib c.native, rfl, rfl⟩

theorem attachAlarms : NotAsked c (c.attachAlarms lib) := by
  have hcreate := AlarmScheduler.create_inquiries lib c.native
  unfold Clock.attachAlarms
  generalize AlarmScheduler.create lib c.native = x at hcreate ⊢
  obtain ⟨created, native⟩ := x
  cases created with
  | error fault => exact ⟨hcreate, rfl, rfl⟩
  | ok scheduler =>
    have hload : NotAsked c { c with native := (scheduler.load lib c.config.alarms native).2 } :=
      ⟨(scheduler.load_inquiries lib native c.config.alarms).trans hcreate, rfl, rfl⟩
    exact hload.trans (replaceAlarms _ lib (some scheduler))

theorem attach : NotAsked c (c.attach lib) := by
  have hstatus : NotAsked c { c with status := none } := ⟨rfl, rfl, rfl⟩
  have hsync := only (syncOnStart_actsOn.only lib { c with status := none }) nofun
  have hntp := only (attachNtp_actsOn.only lib ({ c with status := none }.syncOnStart lib)) nofun
  have hweather := only
    (attachWeather_actsOn.only lib (({ c with status := none }.syncOnStart lib).attachNtp lib)) nofun
  have halarms := attachAlarms
    ((({ c with status := none }.syncOnStart lib).attachNtp lib).attachWeather lib) lib
  have hclients := (((hstatus.trans hsync).trans hntp).trans hweather).trans halarms
  exact ⟨hclients.inquiries, hclients.lastMinute, hclients.next⟩

theorem release : NotAsked c (c.release lib) :=
  ((replaceAlarms c lib none).trans (only ((replaceWeather_actsOn none).only lib _) nofun)).trans
    (only ((replaceNtp_actsOn none).only lib _) nofun)

theorem host (host : WindowHost τ) : NotAsked c { c with host } := ⟨rfl, rfl, rfl⟩

/-- **Only a tick asks for the next alarm.** -/
theorem happening (S : Surface τ ε) {h : Happening} (hh : ∀ now offset, h ≠ .step (.tick now offset)) :
    NotAsked c (h.apply lib S c) := by
  match h, hh with
  | .step .attach, _ => exact attach c lib
  | .step .start, _ =>
    obtain ⟨new, hstart⟩ := c.start_eq S
    show NotAsked c (c.start S).2
    rw [hstart]
    exact host c new
  | .step (.event e), _ =>
    obtain ⟨new, hevent⟩ := c.handleEvent_eq S e
    show NotAsked c (c.handleEvent S e).2
    rw [hevent]
    exact host c new
  | .step .shutdown, _ => exact (host c (c.host.handle S .closed).2).trans (release _ lib)
  | .step (.tick now offset), hh => exact absurd rfl (hh now offset)
  | .ntpReply r, _ => exact only ((receiveNtp_actsOn r).only lib c) nofun
  | .weatherReply r, _ => exact only ((receiveWeather_actsOn r).only lib c) nofun

end NotAsked

/-! ## a tick -/

section Tick

variable (lib : Library σ) (S : Surface τ ε) (now : Instant) (c : Clock σ τ)

/-- whether the scheduler is asked at an instant -/
def IsAskedAt (c : Clock σ τ) (now : Instant) : Prop :=
  c.alarms.scheduler.isSome ∧ c.alarms.lastMinute ≠ some now.minute

/-- the minute is new, and the scheduler is asked; or nothing is done -/
theorem refreshAlarm_cases :
    (¬c.IsAskedAt now ∧ c.refreshAlarm lib now = c) ∨
    ∃ a record native, c.IsAskedAt now ∧ c.alarms.scheduler = some a ∧
      c.refreshAlarm lib now = { c with
        native
        alarms := { c.alarms with lastMinute := some now.minute, next := record.bind AlarmRecord.alarm? } } ∧
      native.trace Exchange.inquiries = c.native.trace Exchange.inquiries ++ [(a.handle, record)] := by
  unfold refreshAlarm IsAskedAt
  cases hs : c.alarms.scheduler with
  | none => exact .inl ⟨nofun, rfl⟩
  | some a =>
    dsimp only
    by_cases hm : c.alarms.lastMinute = some now.minute
    · exact .inl ⟨fun h => h.2 hm, if_pos hm⟩
    · obtain ⟨record, htrace, hnext⟩ := a.next_inquiries lib c.native
      rw [if_neg hm]
      generalize a.next lib c.native = x at htrace hnext
      obtain ⟨answer, native⟩ := x
      refine .inr ⟨a, record, native, ⟨rfl, hm⟩, rfl, ?_, htrace⟩
      rw [← hnext]
      cases answer with
      | ok alarm => rfl
      | error fault => rfl

/-- what is done for the other services in a tick does not matter to the alarms -/
theorem tick_cases (offset : Int) :
    (¬c.IsAskedAt now ∧ NotAsked c (c.tick lib S now offset).2) ∨
    ∃ a record, c.IsAskedAt now ∧ c.alarms.scheduler = some a ∧
      (c.tick lib S now offset).2.alarms.lastMinute = some now.minute ∧
      (c.tick lib S now offset).2.alarms.next = record.bind AlarmRecord.alarm? ∧
      (c.tick lib S now offset).2.native.trace Exchange.inquiries
        = c.native.trace Exchange.inquiries ++ [(a.handle, record)] := by
  obtain ⟨host, htick⟩ := c.tick_eq lib S now offset
  rw [htick, pump]
  have hntp := (pumpNtp_actsOn now).only lib c
  have hweather := (pumpWeather_actsOn now).only lib (c.pumpNtp lib now)
  have halarms : ((c.pumpNtp lib now).pumpWeather lib now).alarms = c.alarms :=
    (hweather.part .alarms nofun).trans (hntp.part .alarms nofun)
  have hbefore := (NotAsked.only hntp nofun).trans (.only hweather nofun)
  generalize (c.pumpNtp lib now).pumpWeather lib now = c' at halarms hbefore ⊢
  have hasked : c'.IsAskedAt now ↔ c.IsAskedAt now := by rw [IsAskedAt, IsAskedAt, halarms]
  rcases refreshAlarm_cases lib now c' with ⟨hnot, heq⟩ | ⟨a, record, native, his, hs, heq, htrace⟩
  · rw [heq]
    exact .inl ⟨mt hasked.mpr hnot, hbefore.trans (.host c' host)⟩
  · rw [heq]
    rw [halarms] at hs
    exact .inr ⟨a, record, hasked.mp his, hs, rfl, rfl, by rw [htrace, hbefore.inquiries]⟩

end Tick

/-! ## a life -/

/-- a tick is a round for the alarms if there is a scheduler -/
def seeRound (c : Clock σ τ) (rounds : List Instant) : Happening → List Instant
  | .step (.tick now _) => if c.alarms.scheduler.isSome then rounds ++ [now] else rounds
  | _ => rounds

/-- the ticks of a life at which there is a scheduler -/
def alarmRounds (lib : Library σ) (S : Surface τ ε) (c : Clock σ τ) : List Happening → List Instant :=
  gather lib S seeRound c []

theorem seeRound_of_not_tick (c : Clock σ τ) (rounds : List Instant) {e : Happening}
    (he : ∀ now offset, e ≠ .step (.tick now offset)) : seeRound c rounds e = rounds := by
  match e, he with
  | .step .attach, _ => rfl
  | .step .start, _ => rfl
  | .step (.event _), _ => rfl
  | .step .shutdown, _ => rfl
  | .step (.tick now offset), he => exact absurd rfl (he now offset)
  | .ntpReply _, _ => rfl
  | .weatherReply _, _ => rfl

/-- the minute of the last round is remembered, and so is the answer to the last question -/
structure Remembers (c : Clock σ τ) (rounds : List Instant) : Prop where
  lastMinute : c.alarms.lastMinute = rounds.getLast?.map Instant.minute
  next : c.alarms.next =
    (c.native.trace Exchange.inquiries).getLast?.bind fun asked => asked.2.bind AlarmRecord.alarm?

namespace Remembers

variable {c c' : Clock σ τ} {rounds : List Instant}

theorem new (config : Config) (disk : Disk) (state : σ) (surface : τ) :
    Remembers (Clock.new config disk (.new state) surface) [] :=
  ⟨rfl, rfl⟩

theorem notAsked (h : Remembers c rounds) (hc : NotAsked c c') : Remembers c' rounds where
  lastMinute := hc.lastMinute.trans h.lastMinute
  next := by rw [hc.next, hc.inquiries, h.next]

/-- whatever happens to the clock -/
theorem apply (h : Remembers c rounds) (lib : Library σ) (S : Surface τ ε) (e : Happening) :
    Remembers (e.apply lib S c) (seeRound c rounds e) := by
  by_cases he : ∃ now offset, e = .step (.tick now offset)
  · obtain ⟨now, offset, rfl⟩ := he
    show Remembers (c.tick lib S now offset).2 (if c.alarms.scheduler.isSome then rounds ++ [now] else rounds)
    rcases c.tick_cases lib S now offset with ⟨hnot, hc⟩ | ⟨a, record, his, hs, hminute, hnext, htrace⟩
    · have hkept := h.notAsked hc
      split_ifs with hs
      · -- the minute is that of the round before
        refine ⟨?_, hkept.next⟩
        have hm : c.alarms.lastMinute = some now.minute := by
          by_contra hm
          exact hnot ⟨hs, hm⟩
        rw [hc.lastMinute, hm]
        simp
      · exact hkept
    · rw [if_pos his.1]
      refine ⟨?_, ?_⟩
      · rw [hminute]
        simp
      · rw [hnext, htrace]
        simp
  · have he' : ∀ now offset, e ≠ .step (.tick now offset) := fun now offset heq => he ⟨now, offset, heq⟩
    rw [seeRound_of_not_tick c rounds he']
    exact h.notAsked (.happening c lib S he')

end Remembers

/-- **The next alarm is asked for exactly when the minute changes.** After any life of a clock, a tick asks
the scheduler once if there is one and the minute is not that of the last round before, also if time has
gone back, and not otherwise; nothing else asks. The alarm that is shown is the last answer: none for a
record that is missing or malformed, and none if nobody has asked. -/
theorem next_alarm_refreshed (lib : Library σ) (S : Surface τ ε) (config : Config) (disk : Disk) (state : σ)
    (surface : τ) (life : List Happening) :
    let c₀ := Clock.new config disk (Session.new state) surface
    let c := c₀.live lib S life
    let asked := c.native.trace Exchange.inquiries
    let minute := fun t : Instant => t.seconds.fdiv 60
    let before := (c₀.alarmRounds lib S life).getLast?
    c.alarms.next = asked.getLast?.bind (fun question => question.2.bind AlarmRecord.alarm?) ∧
    (∀ now offset, let c' := (c.tick lib S now offset).2
      ((c.alarms.scheduler.isSome ∧ before.map minute ≠ some (minute now)) ∧
        (∃ a record, c.alarms.scheduler = some a ∧
          c'.native.trace Exchange.inquiries = asked ++ [(a.handle, record)] ∧
          c'.alarms.next = record.bind AlarmRecord.alarm?)) ∨
      (¬(c.alarms.scheduler.isSome ∧ before.map minute ≠ some (minute now)) ∧
        c'.native.trace Exchange.inquiries = asked ∧ c'.alarms.next = c.alarms.next)) ∧
    ∀ h : Happening, (∀ now offset, h ≠ .step (.tick now offset)) →
      (h.apply lib S c).native.trace Exchange.inquiries = asked ∧
      (h.apply lib S c).alarms.next = c.alarms.next := by
  intro c₀ c asked minute before
  have hlife : Remembers c (c₀.alarmRounds lib S life) :=
    gather_keeps lib S seeRound (Remembers.new config disk state surface) fun _ _ e _ h => h.apply lib S e
  have hminute : minute = Instant.minute := funext fun t => Int.fdiv_eq_ediv_of_nonneg t.seconds (by decide)
  refine ⟨hlife.next, fun now offset => ?_, fun h hh => ?_⟩
  · have hasked : c.IsAskedAt now ↔ c.alarms.scheduler.isSome ∧ before.map minute ≠ some (minute now) := by
      rw [IsAskedAt, hlife.lastMinute, hminute]
    rcases c.tick_cases lib S now offset with ⟨hnot, hc⟩ | ⟨a, record, his, hs, -, hnext, htrace⟩
    · exact .inr ⟨mt hasked.mpr hnot, hc.inquiries, hc.next⟩
    · exact .inl ⟨hasked.mp his, a, record, hs, htrace, hnext⟩
  · have hc : NotAsked c (h.apply lib S c) := .happening c lib S hh
    exact ⟨hc.inquiries, hc.next⟩

end Clock

end DeskClock
