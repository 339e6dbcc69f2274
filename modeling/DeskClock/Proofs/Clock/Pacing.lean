import DeskClock.Native.Scripted
import DeskClock.Proofs.Clock.Life
import DeskClock.Window.Recording

/-!
# the clients do not ask too often

* `Instant.nanoseconds`   an instant as a number of nanoseconds; `Instant.since_eq` is their difference,
                          outside leap seconds;
* `DueAfter`, `isDue_iff`   when another attempt is due;
* `Happening.time?`, `times`   when the ticks of a life are;
* `Clock.Journal`, `Clock.journal`   the rounds of the services in a life; `Journal.SeenIn`: the calls of
                          the library show the attempts in it;
* `Recorded`              what holds of a clock and its journal; `Recorded.new`, `Recorded.apply`;
* `Timely`                attempts are made exactly when they are due; `Timely.apart`: so they are an
                          interval apart;
* `Timely.of_turns`       the attempts of a service that takes a turn in every tick are timely;
* `Paced`                 they are timely and apart, and the clock keeps the time of the latest one;
* `requests_paced`        the requests of both clients are paced.
-/

namespace DeskClock

open Native Event Exchange

variable {σ τ ε ρ : Type}

/-! ## when a request is due -/

namespace Instant

/-- the nanoseconds since 1970-01-01 00:00, without leap seconds -/
def nanoseconds (t : Instant) : Int := t.seconds * 1000000000 + t.nanosecond

theorem leapPassed_eq_zero {t : Instant} (ht : t.nanosecond < 1000000000) (u : Instant) :
    leapPassed t u = 0 := by
  have hleap : ¬ (t.isLeapSecond = true ∧ t.secondOfDay < u.secondOfDay) := by
    intro h
    exact absurd (of_decide_eq_true h.1) (Nat.not_le.mpr ht)
  rw [leapPassed, if_neg hleap]

/-- the time between two instants that are in no leap second -/
theorem since_eq {t u : Instant} (ht : t.nanosecond < 1000000000) (hu : u.nanosecond < 1000000000) :
    t.since u = t.nanoseconds - u.nanoseconds := by
  rw [since, leapPassed_eq_zero ht, leapPassed_eq_zero hu, nanoseconds, nanoseconds]
  ring

end Instant

/-- an instant is an interval after another one, or more -/
def Apart (interval : Duration) (t u : Instant) : Prop :=
  t.nanoseconds + interval.nanoseconds ≤ u.nanoseconds

/-- after these attempts another one is due: there is none, the latest is in the future, or it is an
interval ago -/
def DueAfter (attempts : List Instant) (interval : Duration) (now : Instant) : Prop :=
  ∀ last ∈ attempts.getLast?, now.nanoseconds < last.nanoseconds ∨ Apart interval last now

theorem isDue_iff {attempts : List Instant} {now : Instant} (interval : Duration)
    (hleap : ∀ t ∈ attempts, t.nanosecond < 1000000000) (hnow : now.nanosecond < 1000000000) :
    isDue attempts.getLast? now interval = true ↔ DueAfter attempts interval now := by
  unfold DueAfter
  cases hl : attempts.getLast? with
  | none => exact ⟨fun _ _ h => (by cases h), fun _ => rfl⟩
  | some last =>
    have hlast : last.nanosecond < 1000000000 := hleap last (List.mem_of_getLast? hl)
    rw [isDue, Instant.since_eq hnow hlast, Bool.or_eq_true, decide_eq_true_eq, decide_eq_true_eq]
    constructor
    · rintro h _ ⟨⟩
      unfold Apart
      omega
    · intro h
      have h' := h last rfl
      unfold Apart at h'
      omega

namespace Clock

/-! ## the times of a life -/

def Happening.time? : Happening → Option Instant
  | step (.tick now _) => some now
  | _ => none

/-- the times of the ticks -/
def times (life : List Happening) : List Instant := life.filterMap Happening.time?

theorem times_append (life life' : List Happening) : times (life ++ life') = times life ++ times life' :=
  List.filterMap_append

/-! ## the journal of a life -/

/-- what the clock does about the services: the updates it handles and the requests it starts -/
structure Journal where
  ntp : History NtpUpdate := []
  weather : History WeatherUpdate := []

/-- a tick is a round of each service -/
def note (lib : Library σ) (c : Clock σ τ) (j : Journal) : Happening → Journal
  | .step (.tick now _) =>
    { ntp := j.ntp ++ (c.ntpRound lib now).history now
      weather := j.weather ++ ((c.pumpNtp lib now).weatherRound lib now).history now }
  | _ => j

theorem note_of_quiet (lib : Library σ) (c : Clock σ τ) (j : Journal) {h : Happening}
    (hh : ∀ now offset, h ≠ .step (.tick now offset)) : note lib c j h = j := by
  match h, hh with
  | .step .attach, _ => rfl
  | .step .start, _ => rfl
  | .step (.event _), _ => rfl
  | .step .shutdown, _ => rfl
  | .step (.tick now offset), hh => exact absurd rfl (hh now offset)
  | .ntpReply _, _ => rfl
  | .weatherReply _, _ => rfl

/-- the journal of a life -/
def journal (lib : Library σ) (S : Surface τ ε) (c : Clock σ τ) : List Happening → Journal :=
  gather lib S (note lib) c {}

/-- The calls of the library show the attempts of a journal, one call for each, with its result. An attempt
with a zero byte in the name of the server makes no call, and is refused. -/
structure Journal.SeenIn (j : Journal) (server : String) (s : Session σ) : Prop where
  ntp : (s.trace ntpEvents).filterMap accepted? =
    if (terminated? server).isSome then j.ntp.accepted else []
  refused : true ∈ j.ntp.accepted → (terminated? server).isSome
  weather : (s.trace weatherEvents).filterMap accepted? = j.weather.accepted

/-- the attempts of a turn that reach the library -/
theorem filterMap_reaches (server : String) (t : Turn NtpReply) :
    (t.events.filter (reaches server)).filterMap accepted? =
      if (terminated? server).isSome then t.attempt?.toList else [] := by
  split
  · next hs =>
    rw [List.filter_eq_self.mpr fun e _ => by rw [reaches, hs, Bool.or_true], Turn.filterMap_accepted?]
  · next hs =>
    refine List.filterMap_eq_nil_iff.mpr fun e he => ?_
    have hreaches := (List.mem_filter.mp he).2
    rw [reaches, Bool.eq_false_of_not_eq_true hs, Bool.or_false] at hreaches
    cases e with
    | attempt accepted => cases hreaches
    | reply r => rfl

/-- what the clock knows of its requests is in the journal, and the attempts are seen -/
structure Recorded (config : Config) (c : Clock σ τ) (j : Journal) : Prop where
  settings : c.config = config
  ntp : Reports NtpUpdate.succeeds j.ntp c.ntpProgress
  weather : Reports WeatherUpdate.succeeds j.weather c.weatherProgress
  seen : j.SeenIn config.ntp.server c.native

theorem Recorded.new (config : Config) (disk : Disk) (state : σ) (surface : τ) :
    Recorded config (Clock.new config disk (Session.new state) surface) {} where
  settings := rfl
  ntp := .nil _
  weather := .nil _
  seen := ⟨(ite_self _).symm, nofun, rfl⟩

namespace Recorded

variable {config : Config} {c c' : Clock σ τ} {j : Journal}

theorem undisturbed (h : Recorded config c j) (hc : Undisturbed c c') : Recorded config c' j where
  settings := hc.config.trans h.settings
  ntp := hc.ntp ▸ h.ntp
  weather := hc.weather ▸ h.weather
  seen := by
    refine ⟨?_, h.seen.refused, ?_⟩
    · rw [hc.trace ntpEvents_seesOperations, h.seen.ntp]
    · rw [hc.trace weatherEvents_seesOperations, h.seen.weather]

variable (lib : Library σ) (now : Instant)

/-- a round of the time service -/
theorem pumpNtp (h : Recorded config c j) :
    Recorded config (c.pumpNtp lib now) { j with ntp := j.ntp ++ (c.ntpRound lib now).history now } := by
  obtain ⟨native, status, hpump, hntp, hweather⟩ := pumpNtp_round lib now c
  have hattempt : (c.ntpTurn lib now).attempt? = (c.ntpRound lib now).attempt? := rfl
  rw [hpump]
  refine ⟨h.settings, (ntpRound_follows lib now c).reports h.ntp, h.weather, ?_, ?_, ?_⟩
  · dsimp only
    rw [hntp, List.filterMap_append, h.seen.ntp, h.settings, filterMap_reaches, Turn.accepted_append,
      hattempt]
    split
    · rfl
    · rfl
  · intro htrue
    rw [Turn.accepted_append] at htrue
    rcases List.mem_append.mp htrue with hold | hnew
    · exact h.seen.refused hold
    · rw [← h.settings]
      exact isSome_of_ntpRound lib now c (Option.mem_toList.mp hnew)
  · dsimp only
    rw [hweather]
    exact h.seen.weather

/-- a round of the weather service -/
theorem pumpWeather (h : Recorded config c j) :
    Recorded config (c.pumpWeather lib now)
      { j with weather := j.weather ++ (c.weatherRound lib now).history now } := by
  obtain ⟨native, disk, conditions, hpump, hweather, hntp⟩ := pumpWeather_round lib now c
  have hattempt : (c.weatherTurn lib now).attempt? = (c.weatherRound lib now).attempt? := rfl
  rw [hpump]
  refine ⟨h.settings, h.ntp, (weatherRound_follows lib now c).reports h.weather, ?_, h.seen.refused, ?_⟩
  · dsimp only
    rw [hntp]
    exact h.seen.ntp
  · dsimp only
    rw [hweather, List.filterMap_append, h.seen.weather, Turn.accepted_append, Turn.filterMap_accepted?,
      hattempt]

/-- whatever happens to the clock -/
theorem apply (S : Surface τ ε) (h : Recorded config c j) (e : Happening) :
    Recorded config (e.apply lib S c) (note lib c j e) := by
  cases e with
  | step s =>
    cases s with
    | attach => exact h.undisturbed (attach_harmless lib c).1
    | start => exact h.undisturbed (start_harmless c S).1
    | event e => exact h.undisturbed (handleEvent_harmless c S e).1
    | shutdown => exact h.undisturbed (shutdown_harmless lib c S).1
    | tick now offset =>
      obtain ⟨host, htick⟩ := c.tick_eq lib S now offset
      show Recorded config (c.tick lib S now offset).2 _
      rw [htick]
      exact (((h.pumpNtp lib now).pumpWeather lib now).undisturbed
        (refreshAlarm_harmless lib _ now).1).undisturbed (host_harmless _ host).1
  | ntpReply r => exact h.undisturbed ⟨rfl, rfl, rfl, fun _ => rfl⟩
  | weatherReply r => exact h.undisturbed ⟨rfl, rfl, rfl, fun _ => rfl⟩

end Recorded

/-! ## pacing -/

/-- Requests are timely in a life: `attempts` are the times of the attempts made in a part of it from its
start on, and `ready` says that in a tick after it there is a client and no request of it is pending once
its replies are handled. -/
structure Timely (life : List Happening) (attempts : List Happening → List Instant)
    (ready : List Happening → Instant → Prop) (interval : Duration) : Prop where
  /-- a tick makes one attempt if it can and one is due -/
  made : ∀ before now offset, before ++ [Happening.step (.tick now offset)] <+: life →
    ready before now ∧ DueAfter (attempts before) interval now →
    attempts (before ++ [Happening.step (.tick now offset)]) = attempts before ++ [now]
  /-- otherwise it makes none -/
  withheld : ∀ before now offset, before ++ [Happening.step (.tick now offset)] <+: life →
    ¬ (ready before now ∧ DueAfter (attempts before) interval now) →
    attempts (before ++ [Happening.step (.tick now offset)]) = attempts before
  /-- nothing but a tick makes one -/
  quiet : ∀ before h, (∀ now offset, h ≠ .step (.tick now offset)) →
    attempts (before ++ [h]) = attempts before

/-- Requests are paced in a life if they are timely, and so an interval apart; `latest` is the time that the
clock keeps after a part of it. -/
structure Paced (life : List Happening) (attempts : List Happening → List Instant)
    (latest : List Happening → Option Instant) (ready : List Happening → Instant → Prop)
    (interval : Duration) : Prop extends Timely life attempts ready interval where
  /-- the clock keeps the time of the latest attempt -/
  kept : ∀ run, latest run = (attempts run).getLast?
  /-- while time does not go back, attempts are an interval apart -/
  apart : ∀ before stretch, before ++ stretch <+: life →
    (times stretch).Pairwise (fun t u => t.nanoseconds ≤ u.nanoseconds) →
    ∃ new, attempts (before ++ stretch) = attempts before ++ new ∧
      new.IsChain (Apart interval)

section Timely

variable {life : List Happening} {attempts : List Happening → List Instant}
  {ready : List Happening → Instant → Prop} {interval : Duration}

/-- the latest of some new attempts is not later than now, so another one is due after an interval -/
theorem isChain_concat {old new : List Instant} {now : Instant}
    (hdue : DueAfter (old ++ new) interval now) (hle : ∀ t ∈ new, t.nanoseconds ≤ now.nanoseconds)
    (hchain : new.IsChain (Apart interval)) :
    (new ++ [now]).IsChain (Apart interval) := by
  refine List.isChain_append.mpr ⟨hchain, List.isChain_singleton now, fun t ht u hu => ?_⟩
  obtain rfl : now = u := Option.some.inj hu
  have hlast : t ∈ (old ++ new).getLast? := by
    rw [List.getLast?_append, Option.mem_def.mp ht]
    rfl
  rcases hdue t hlast with h | h
  · exact absurd (hle t (List.mem_of_getLast? ht)) (Int.not_le.mpr h)
  · exact h

/-- attempts that are made when they are due are an interval apart -/
theorem Timely.apart (h : Timely life attempts ready interval) {before stretch : List Happening}
    (hlife : before ++ stretch <+: life)
    (hsorted : (times stretch).Pairwise fun t u => t.nanoseconds ≤ u.nanoseconds) :
    ∃ new, attempts (before ++ stretch) = attempts before ++ new ∧ (∀ t ∈ new, t ∈ times stretch) ∧
      new.IsChain (Apart interval) := by
  -- every attempt is compared with the one before it, so what happens is taken from the end
  induction stretch using List.reverseRecOn with
  | nil => exact ⟨[], by rw [List.append_nil, List.append_nil], fun _ h => h, .nil⟩
  | append_singleton stretch e ih =>
    rw [← List.append_assoc] at hlife ⊢
    rw [times_append, List.pairwise_append] at hsorted
    obtain ⟨new, hnew, hmem, hchain⟩ := ih ((List.prefix_append _ _).trans hlife) hsorted.1
    have hmem' : ∀ t ∈ new, t ∈ times (stretch ++ [e]) := fun t ht => by
      rw [times_append]
      exact List.mem_append_left _ (hmem t ht)
    by_cases htick : ∃ now offset, e = .step (.tick now offset)
    · obtain ⟨now, offset, rfl⟩ := htick
      by_cases hdue : ready (before ++ stretch) now ∧ DueAfter (attempts (before ++ stretch)) interval now
      · have hle : ∀ t ∈ new, t.nanoseconds ≤ now.nanoseconds := fun t ht =>
          hsorted.2.2 t (hmem t ht) now (List.mem_singleton_self now)
        refine ⟨new ++ [now], ?_, fun t ht => ?_, ?_⟩
        · rw [h.made _ now offset hlife hdue, hnew, List.append_assoc]
        · rcases List.mem_append.mp ht with ht | ht
          · exact hmem' t ht
          · rw [times_append, List.mem_singleton.mp ht]
            exact List.mem_append_right _ (List.mem_singleton_self now)
        · rw [hnew] at hdue
          exact isChain_concat hdue.2 hle hchain
      · exact ⟨new, (h.withheld _ now offset hlife hdue).trans hnew, hmem', hchain⟩
    · have hother := h.quiet (before ++ stretch) e fun now offset he => htick ⟨now, offset, he⟩
      exact ⟨new, hother.trans hnew, hmem', hchain⟩

/-- timely attempts are paced, if the clock keeps the time of the latest one -/
theorem Timely.paced {latest : List Happening → Option Instant} (h : Timely life attempts ready interval)
    (kept : ∀ run, latest run = (attempts run).getLast?) : Paced life attempts latest ready interval := by
  refine ⟨h, kept, fun before stretch hlife hsorted => ?_⟩
  obtain ⟨new, hnew, -, hchain⟩ := h.apart hlife hsorted
  exact ⟨new, hnew, hchain⟩

end Timely

/-- a turn that follows the rule makes an attempt exactly if one is due -/
theorem attempts_turn {ok : ρ → Bool} {interval : Duration} {now : Instant} {hasClient : Bool}
    {t : Turn ρ} {p : Progress} {h : History ρ} (hf : t.Follows ok interval now hasClient p)
    (hr : Reports ok h p) (hleap : ∀ t ∈ h.attempts, t.nanosecond < 1000000000)
    (hnow : now.nanosecond < 1000000000) :
    let isReady := hasClient = true ∧ afterReplies ok p.state t.replies ≠ .inProcess
    (isReady ∧ DueAfter h.attempts interval now →
      (h ++ t.history now).attempts = h.attempts ++ [now]) ∧
    (¬ (isReady ∧ DueAfter h.attempts interval now) →
      (h ++ t.history now).attempts = h.attempts) := by
  intro isReady
  have hdue : t.attempt?.isSome = true ↔ isReady ∧ DueAfter h.attempts interval now := by
    rw [hf.attempt, hr.lastAttempt, History.lastAttempt?, isDue_iff interval hleap hnow, and_assoc]
  rw [← hdue, History.attempts_append, Turn.attempts_history]
  cases t.attempt? with
  | none => exact ⟨fun h => (by cases h), fun _ => List.append_nil _⟩
  | some accepted => exact ⟨fun _ => rfl, fun h => absurd rfl h⟩

section Turns

variable {past : List Happening → History ρ} {turn : List Happening → Instant → Turn ρ}

/-- attempts are made in ticks -/
theorem attempts_subset_times (nil : past [] = [])
    (tick : ∀ run now offset,
      past (run ++ [Happening.step (.tick now offset)]) = past run ++ (turn run now).history now)
    (quiet : ∀ run h, (∀ now offset, h ≠ .step (.tick now offset)) → past (run ++ [h]) = past run)
    (run : List Happening) : (past run).attempts ⊆ times run := by
  induction run using List.reverseRecOn with
  | nil =>
    intro t ht
    rw [nil] at ht
    cases ht
  | append_singleton run h ih =>
    intro t ht
    rw [times_append]
    by_cases htick : ∃ now offset, h = .step (.tick now offset)
    · obtain ⟨now, offset, rfl⟩ := htick
      rw [tick, History.attempts_append, Turn.attempts_history] at ht
      rcases List.mem_append.mp ht with ht | ht
      · exact List.mem_append_left _ (ih ht)
      · obtain ⟨_, -, rfl⟩ := Option.map_eq_some_iff.mp (Option.mem_toList.mp ht)
        exact List.mem_append_right _ (List.mem_singleton_self _)
    · rw [quiet _ _ fun now offset e => htick ⟨now, offset, e⟩] at ht
      exact List.mem_append_left _ (ih ht)

/-- a service that takes a turn in every tick, and none at other times, is timely -/
theorem Timely.of_turns {ok : ρ → Bool} {interval : Duration} {life : List Happening}
    {hasClient : List Happening → Instant → Bool} {progress : List Happening → Instant → Progress}
    (hleap : ∀ t ∈ times life, t.nanosecond < 1000000000) (nil : past [] = [])
    (tick : ∀ run now offset,
      past (run ++ [Happening.step (.tick now offset)]) = past run ++ (turn run now).history now)
    (quiet : ∀ run h, (∀ now offset, h ≠ .step (.tick now offset)) → past (run ++ [h]) = past run)
    (follows : ∀ run now,
      (turn run now).Follows ok interval now (hasClient run now) (progress run now))
    (reports : ∀ run now, Reports ok (past run) (progress run now)) :
    Timely life (fun run => (past run).attempts)
      (fun run now => hasClient run now = true ∧
        afterReplies ok (progress run now).state (turn run now).replies ≠ .inProcess) interval := by
  have hplain : ∀ before now offset, before ++ [Happening.step (.tick now offset)] <+: life →
      (∀ t ∈ (past before).attempts, t.nanosecond < 1000000000) ∧ now.nanosecond < 1000000000 := by
    intro before now offset hpre
    have hsub : times (before ++ [Happening.step (.tick now offset)]) ⊆ times life :=
      (hpre.sublist.filterMap _).subset
    rw [times_append] at hsub
    constructor
    · intro t ht
      exact hleap t (hsub (List.mem_append_left _ (attempts_subset_times nil tick quiet before ht)))
    · exact hleap now (hsub (List.mem_append_right _ (List.mem_singleton_self _)))
  constructor
  · intro before now offset hpre hdue
    obtain ⟨hbefore, hnow⟩ := hplain before now offset hpre
    rw [tick]
    exact (attempts_turn (follows before now) (reports before now) hbefore hnow).1 hdue
  · intro before now offset hpre hdue
    obtain ⟨hbefore, hnow⟩ := hplain before now offset hpre
    rw [tick]
    exact (attempts_turn (follows before now) (reports before now) hbefore hnow).2 hdue
  · intro before h hquiet
    rw [quiet _ _ hquiet]

end Turns

/-- **The requests of both clients are paced**, whatever the library and the window do and whenever replies
arrive: a tick makes one attempt if the client is ready and one is due, and none otherwise. The attempts
are those that the calls of the library show, after every part of the life. -/
theorem requests_paced (lib : Library σ) (S : Surface τ ε) (config : Config) (disk : Disk)
    (state : σ) (surface : τ) (life : List Happening)
    (hleap : ∀ t ∈ times life, t.nanosecond < 1000000000) :
    let c₀ := Clock.new config disk (Session.new state) surface
    Paced life (fun run => (c₀.journal lib S run).ntp.attempts)
      (fun run => (c₀.live lib S run).ntp.lastAttempt)
      (fun run now =>
        let c := c₀.live lib S run
        c.ntp.client.isSome = true ∧ (c.collectedNtp lib now).ntp.state ≠ .inProcess)
      (.ofSeconds config.ntp.checkIntervalSecs.toNat) ∧
    Paced life (fun run => (c₀.journal lib S run).weather.attempts)
      (fun run => (c₀.live lib S run).weather.lastAttempt)
      (fun run now =>
        let c := (c₀.live lib S run).pumpNtp lib now
        c.weather.client.isSome = true ∧ (c.collectedWeather lib now).weather.state ≠ .inProcess)
      (.ofSeconds (min (60 * config.weather.refreshMinutes.toNat) 18446744073709551615)) ∧
    ∀ run, (c₀.journal lib S run).SeenIn config.ntp.server (c₀.live lib S run).native := by
  intro c₀
  have hrecorded : ∀ run, Recorded config (c₀.live lib S run) (c₀.journal lib S run) := fun run =>
    gather_keeps lib S (note lib) (.new config disk state surface) fun _ _ e _ hc => hc.apply lib S e
  have hpumped := fun run now => (hrecorded run).pumpNtp lib now
  have hconcat : ∀ run e, c₀.journal lib S (run ++ [e])
      = note lib (c₀.live lib S run) (c₀.journal lib S run) e := fun run e =>
    gather_append lib S (note lib) c₀ {} run [e]
  have hquiet : ∀ run e, (∀ now offset, e ≠ .step (.tick now offset)) →
      c₀.journal lib S (run ++ [e]) = c₀.journal lib S run := fun run e he =>
    (hconcat run e).trans (note_of_quiet lib _ _ he)
  refine ⟨?_, ?_, fun run => (hrecorded run).seen⟩
  · simp only [collectedNtp_state]
    refine (Timely.of_turns hleap rfl
      (fun run now offset => congrArg Journal.ntp (hconcat run _))
      (fun run h hh => congrArg Journal.ntp (hquiet run h hh)) (fun run now => ?_)
      fun run now => (hrecorded run).ntp).paced fun run => (hrecorded run).ntp.lastAttempt
    have hf := ntpRound_follows lib now (c₀.live lib S run)
    rw [(hrecorded run).settings] at hf
    exact hf
  · have hminutes : min (60 * config.weather.refreshMinutes.toNat) 18446744073709551615
        = saturatingMinutes config.weather.refreshMinutes := by
      rw [saturatingMinutes, Nat.mul_comm]
    simp only [collectedWeather_state, hminutes]
    refine (Timely.of_turns hleap rfl
      (fun run now offset => congrArg Journal.weather (hconcat run _))
      (fun run h hh => congrArg Journal.weather (hquiet run h hh)) (fun run now => ?_)
      fun run now => (hpumped run now).weather).paced fun run => (hrecorded run).weather.lastAttempt
    have hf := weatherRound_follows lib now ((c₀.live lib S run).pumpNtp lib now)
    rw [(hpumped run now).settings] at hf
    exact hf

/-- Ticks at 0, 10 and 60 seconds, with a library that replies at once and an interval of 50 seconds. There
is an attempt at the first and at the last, and a reply between two ticks makes none. -/
theorem requests_paced_threeTicks :
    let life : List Happening := [.step .attach, .step (.tick .epoch 0), .ntpReply ⟨true, 1, 0⟩,
      .step (.tick ⟨10, 0, by decide, by decide⟩ 0), .step (.tick ⟨60, 0, by decide, by decide⟩ 0)]
    (∀ t ∈ times life, t.nanosecond < 1000000000) ∧
    ∃ t u, ((Clock.new {} .empty (Session.new { knobs := {} }) {}).journal Scripted.library
      Recording.surface life).ntp.attempts = [t, u] ∧ Apart (.ofSeconds 50) t u := by
  intro life
  have hleap : ∀ t ∈ times life, t.nanosecond < 1000000000 := by decide
  have hsorted : (times life).Pairwise fun t u => t.nanoseconds ≤ u.nanoseconds := by decide
  have hlength : ((Clock.new {} .empty (Session.new { knobs := {} }) {}).journal Scripted.library
      Recording.surface life).ntp.attempts.length = 2 := by decide +kernel
  obtain ⟨new, hnew, hchain⟩ := (requests_paced Scripted.library Recording.surface {} .empty
    { knobs := {} } {} life hleap).1.apart [] life List.prefix_rfl hsorted
  obtain ⟨t, u, htwo⟩ := List.length_eq_two.mp hlength
  refine ⟨hleap, t, u, htwo, ?_⟩
  have hnew' : new = [t, u] := hnew.symm.trans htwo
  rw [hnew'] at hchain
  exact List.isChain_pair.mp hchain

end Clock

end DeskClock
