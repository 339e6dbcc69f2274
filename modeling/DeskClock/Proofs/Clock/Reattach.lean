import DeskClock.Native.Scripted
import DeskClock.Proofs.Clock.Awaiting
import DeskClock.Window.Recording

/-!
# attaching again

* `Clock.NtpAwaited`, `Clock.WeatherAwaited`   a service has a client whose own request is pending;
* `Sound`              what holds of every clock that a run reaches; `run_sound`;
* `View.Moves`         what each step does to a service; `ntpView_moves`, `weatherView_moves`;
* `Attended.run`       a service that never waits when it is attached waits for its own client only;
* `Forlorn.run`        a service that waits when it is attached goes on to wait, whatever follows;
* `reattach_report`    both, for the time and the weather.

An attach makes the clients anew and leaves the progress of the services as it is. The new client has
nothing to end, so that a service that waited for the old one waits for nobody.
-/

namespace DeskClock

open Native Event Exchange

variable {σ τ ε ρ : Type}

namespace Clock

/-- the time service has a client whose own request is pending -/
def NtpAwaited (c : Clock σ τ) : Prop :=
  ∃ client, c.ntp.client = some client ∧ Pending ntpEvents (.ntp, client.handle) c.native

/-- the weather service has a client whose own request is pending -/
def WeatherAwaited (c : Clock σ τ) : Prop :=
  ∃ client, c.weather.client = some client ∧
    Pending weatherEvents (.weather, client.handle) c.native

theorem ntpView_attended_iff (c : Clock σ τ) :
    ntpView.Attended c ↔ (c.ntp.state = .inProcess → c.NtpAwaited) := by
  refine forall_congr' fun _ => ⟨?_, ?_⟩
  · rintro ⟨handle, hclient, hpending⟩
    obtain ⟨client, hc, rfl⟩ := Option.map_eq_some_iff.mp hclient
    exact ⟨client, hc, hpending⟩
  · rintro ⟨client, hc, hpending⟩
    exact ⟨client.handle, Option.map_eq_some_iff.mpr ⟨client, hc, rfl⟩, hpending⟩

theorem weatherView_attended_iff (c : Clock σ τ) :
    weatherView.Attended c ↔ (c.weather.state = .inProcess → c.WeatherAwaited) := by
  refine forall_congr' fun _ => ⟨?_, ?_⟩
  · rintro ⟨handle, hclient, hpending⟩
    obtain ⟨client, hc, rfl⟩ := Option.map_eq_some_iff.mp hclient
    exact ⟨client, hc, hpending⟩
  · rintro ⟨client, hc, hpending⟩
    exact ⟨client.handle, Option.map_eq_some_iff.mpr ⟨client, hc, rfl⟩, hpending⟩

/-! ## what a run reaches -/

section Reached

variable (lib : Library σ) (S : Surface τ ε) (c : Clock σ τ)

theorem run_append (steps steps' : List Step) :
    c.run lib S (steps ++ steps') = (c.run lib S steps).run lib S steps' := List.foldl_append

theorem run_concat (steps : List Step) (step : Step) :
    c.run lib S (steps ++ [step]) = step.apply lib S (c.run lib S steps) := run_append lib S c steps [step]

/-- a run is a life in which no reply arrives between two steps -/
theorem run_eq_live (steps : List Step) : c.run lib S steps = c.live lib S (steps.map .step) := by
  rw [live, List.foldl_map]
  rfl

/-- a step makes calls, and takes none back -/
theorem Step.apply_extends (step : Step) : c.native.Extends (fun _ => True) (step.apply lib S c).native := by
  cases step with
  | attach =>
    have hsync := (syncOnStart_usesHeld lib { c with status := none }).calls
    obtain ⟨_, _, _, _, hclients, -, -, hcalls⟩ :=
      attachClients_eq lib ({ c with status := none }.syncOnStart lib)
    show c.native.Extends _ (c.attach lib).native
    unfold Clock.attach
    dsimp only
    rw [hclients]
    exact (hsync.mono fun _ _ => trivial).trans (hcalls.mono fun _ _ => trivial)
  | start =>
    obtain ⟨host, hstart⟩ := c.start_eq S
    show c.native.Extends _ (c.start S).2.native
    rw [hstart]
    exact .refl _ _
  | event e =>
    obtain ⟨host, hevent⟩ := c.handleEvent_eq S e
    show c.native.Extends _ (c.handleEvent S e).2.native
    rw [hevent]
    exact .refl _ _
  | shutdown =>
    have halarms := replaceAlarms_extends lib { c with host := (c.host.handle S .closed).2 } none
    have hweather := replaceWeather_extends lib
      ({ c with host := (c.host.handle S .closed).2 }.replaceAlarms lib none) none
    have hntp := replaceNtp_extends lib
      (({ c with host := (c.host.handle S .closed).2 }.replaceAlarms lib none).replaceWeather lib none) none
    exact ((halarms.mono fun _ _ => trivial).trans (hweather.mono fun _ _ => trivial)).trans
      (hntp.mono fun _ _ => trivial)
  | tick now offset => exact (tick_usesHeld lib S now offset c).calls.mono fun _ _ => trivial

/-- what holds of every clock that a run reaches -/
structure Sound : Prop where
  collected : c.Collected
  owns : ∃ made destroyed, Owns made destroyed c.held c.native
  spared : c.Spared

theorem run_sound (config : Config) (disk : Disk) (state : σ) (surface : τ) (steps : List Step) :
    Sound ((Clock.new config disk (Session.new state) surface).run lib S steps) := by
  refine ⟨((Tracked.new config disk state surface).run lib S steps).collected, ?_, ?_⟩
  · have hbalanced : Balanced ((Clock.new config disk (Session.new state) surface).live lib S
        (steps.map .step)) _ :=
      gather_keeps lib S (fun _ n e => n + if e.isAttach then 1 else 0)
        (Balanced.new config disk state surface) fun _ _ e _ hc => hc.apply lib S e
    obtain ⟨made, destroyed, howns, -⟩ := hbalanced
    rw [run_eq_live]
    exact ⟨made, destroyed, howns⟩
  · induction steps using List.reverseRecOn with
    | nil => exact fun _ => rfl
    | append_singleton steps step ih =>
      rw [run_concat]
      exact ih.apply lib S step

end Reached

/-! ## steps and runs of a service -/

namespace View

section Runs

variable (lib : Library σ) (S : Surface τ ε) (v : View σ τ ρ)

/-- what each step does to a service -/
structure Moves (c : Clock σ τ) : Prop where
  attach : v.Idles c (c.attach lib)
  attach_new : ∀ handle, v.handle? (c.attach lib) = some handle → v.trace (c.attach lib) handle = []
  tick : ∀ now offset, v.Turns c (c.tick lib S now offset).2
  shutdown : v.Idles c (c.shutdown lib S).2
  shutdown_handle : v.handle? (c.shutdown lib S).2 = none
  start : v.Idles c (c.start S).2
  start_handle : v.handle? (c.start S).2 = v.handle? c
  event : ∀ e, v.Idles c (c.handleEvent S e).2
  event_handle : ∀ e, v.handle? (c.handleEvent S e).2 = v.handle? c

variable {lib S v} {c : Clock σ τ}

theorem Moves.attended (hm : v.Moves lib S c) {step : Step} (hstep : step ≠ .shutdown)
    (hattach : step = .attach → (v.progress c).state ≠ .inProcess) (h : v.Attended c) :
    v.Attended (step.apply lib S c) := by
  cases step with
  | attach =>
    intro hwaits
    have hsame : (v.progress (c.attach lib)).state = (v.progress c).state := by rw [hm.attach.progress]
    exact absurd (hsame.symm.trans hwaits) (hattach rfl)
  | start => exact h.idles hm.start hm.start_handle
  | event e => exact h.idles (hm.event e) (hm.event_handle e)
  | shutdown => exact absurd rfl hstep
  | tick now offset => exact h.turns (hm.tick now offset)

theorem Moves.forlorn (hm : v.Moves lib S c) (step : Step) (h : v.Forlorn c)
    (hfollow : ∀ handle, RepliesFollow (v.trace (step.apply lib S c) handle)) :
    v.Forlorn (step.apply lib S c) := by
  cases step with
  | attach => exact h.idles hm.attach fun handle hclient => .inr (hm.attach_new handle hclient)
  | start => exact h.idles hm.start fun handle hclient => .inl (hm.start_handle ▸ hclient)
  | event e => exact h.idles (hm.event e) fun handle hclient => .inl (hm.event_handle e ▸ hclient)
  | shutdown =>
    refine h.idles hm.shutdown fun handle hclient => ?_
    cases hm.shutdown_handle.symm.trans hclient
  | tick now offset => exact h.turns (hm.tick now offset) hfollow

/-- **A service that does not wait whenever it is attached waits for its own client only.** -/
theorem Attended.run (h : v.Attended c) (hm : ∀ steps, v.Moves lib S (c.run lib S steps))
    {steps : List Step} (hsteps : ∀ s ∈ steps, s ≠ .shutdown)
    (hattach : ∀ before after, steps = before ++ .attach :: after →
      (v.progress (c.run lib S before)).state ≠ .inProcess) : v.Attended (c.run lib S steps) := by
  induction steps using List.reverseRecOn with
  | nil => exact h
  | append_singleton steps step ih =>
    have hbefore : v.Attended (c.run lib S steps) := by
      refine ih (fun s hs => hsteps s (List.mem_append_left _ hs)) fun before after heq => ?_
      exact hattach before (after ++ [step]) (by rw [heq]; simp)
    rw [run_concat]
    refine (hm steps).attended (hsteps step (by simp)) ?_ hbefore
    rintro rfl
    exact hattach steps [] rfl

theorem exists_trace_apply (lib : Library σ) (S : Surface τ ε) (v : View σ τ ρ) (step : Step)
    (c : Clock σ τ) (handle : Handle) :
    ∃ new, v.trace (step.apply lib S c) handle = v.trace c handle ++ new := by
  obtain ⟨calls, hlog, -⟩ := step.apply_extends lib S c
  refine ⟨calls.flatMap (own v.see (v.service, handle)), ?_⟩
  show (step.apply lib S c).native.log.flatMap _ = _
  rw [hlog, List.flatMap_append]
  rfl

/-- **A service that waits for nobody goes on to wait**, whatever follows, if replies follow requests. -/
theorem Forlorn.run (h : v.Forlorn c) (hm : ∀ steps, v.Moves lib S (c.run lib S steps))
    (steps : List Step) (hfollow : ∀ handle, RepliesFollow (v.trace (c.run lib S steps) handle)) :
    v.Forlorn (c.run lib S steps) := by
  induction steps using List.reverseRecOn with
  | nil => exact h
  | append_singleton steps step ih =>
    rw [run_concat] at hfollow ⊢
    refine (hm steps).forlorn step (ih fun handle => ?_) hfollow
    obtain ⟨new, htrace⟩ := exists_trace_apply lib S v step (c.run lib S steps) handle
    intro before r after heq
    refine hfollow handle before r (after ++ new) ?_
    rw [htrace, heq, List.append_assoc, List.cons_append]

/-- after an attach, a service that waits has no client that anything was asked of -/
theorem Moves.attach_forlorn (hm : v.Moves lib S c) (h : (v.progress c).state = .inProcess) :
    v.Forlorn (c.attach lib) := by
  refine ⟨?_, fun handle hclient => ?_⟩
  · rw [hm.attach.progress]
    exact h
  · rw [hm.attach_new handle hclient]
    exact List.not_mem_nil

/-- a service that waits when it is attached is forlorn from then on -/
theorem Forlorn.of_attach (hm : ∀ steps, v.Moves lib S (c.run lib S steps)) {before after : List Step}
    (h : (v.progress (c.run lib S before)).state = .inProcess)
    (hfollow : ∀ handle,
      RepliesFollow (v.trace (c.run lib S (before ++ .attach :: after)) handle)) :
    v.Forlorn (c.run lib S (before ++ .attach :: after)) := by
  have hsplit : ∀ more, ((c.run lib S before).attach lib).run lib S more
      = c.run lib S (before ++ .attach :: more) := fun more =>
    (run_append lib S c before (.attach :: more)).symm
  have hlater : ∀ more, v.Moves lib S (((c.run lib S before).attach lib).run lib S more) := fun more =>
    hsplit more ▸ hm _
  rw [← hsplit] at hfollow ⊢
  exact ((hm before).attach_forlorn h).run hlater after hfollow

/-- an attach leaves a service attended exactly if it does not wait -/
theorem Moves.attach_attended_iff (hm : v.Moves lib S c) :
    v.Attended (c.attach lib) ↔ (v.progress c).state ≠ .inProcess := by
  refine ⟨fun hattended hwaits => (hm.attach_forlorn hwaits).not_attended hattended, fun h hwaits => ?_⟩
  rw [hm.attach.progress] at hwaits
  exact absurd hwaits h

end Runs

end View

section Services

variable (lib : Library σ) (S : Surface τ ε) {c : Clock σ τ}

theorem ntpView_moves (h : Sound c) : ntpView.Moves lib S c := by
  obtain ⟨_, _, howns⟩ := h.owns
  obtain ⟨hidle, hnew⟩ := ntpView_attach lib howns
  refine ⟨hidle, hnew, ntpView_tick lib S c h.collected, (shutdown_harmless lib c S).idles.1, rfl,
    (start_harmless c S).idles.1, ?_, fun e => (handleEvent_harmless c S e).idles.1, fun e => ?_⟩
  · obtain ⟨host, hstart⟩ := c.start_eq S
    rw [hstart]
    rfl
  · obtain ⟨host, hevent⟩ := c.handleEvent_eq S e
    rw [hevent]
    rfl

theorem weatherView_moves (h : Sound c) : weatherView.Moves lib S c := by
  obtain ⟨_, _, howns⟩ := h.owns
  obtain ⟨hidle, hnew⟩ := weatherView_attach lib howns h.spared
  refine ⟨hidle, hnew, weatherView_tick lib S c h.collected, (shutdown_harmless lib c S).idles.2, rfl,
    (start_harmless c S).idles.2, ?_, fun e => (handleEvent_harmless c S e).idles.2, fun e => ?_⟩
  · obtain ⟨host, hstart⟩ := c.start_eq S
    rw [hstart]
    rfl
  · obtain ⟨host, hevent⟩ := c.handleEvent_eq S e
    rw [hevent]
    rfl

/-- **An attach leaves a service waiting for nobody exactly if it was waiting before.** The client is
made anew, and the progress of the service stays.

A service that does not wait whenever it is attached waits for a pending request of its own client, after
any steps but a shutdown. One that does wait when it is attached waits for good, whatever follows, if the
library replies only to clients that have had a request accepted. -/
theorem reattach_report (config : Config) (disk : Disk) (state : σ) (surface : τ) :
    let c₀ := Clock.new config disk (Session.new state) surface
    (∀ steps,
      let c := c₀.run lib S steps
      let c' := c.attach lib
      c'.ntp.state = c.ntp.state ∧ c'.weather.state = c.weather.state ∧
      ((c'.ntp.state = .inProcess → c'.NtpAwaited) ↔ c.ntp.state ≠ .inProcess) ∧
      ((c'.weather.state = .inProcess → c'.WeatherAwaited) ↔ c.weather.state ≠ .inProcess)) ∧
    (∀ steps, (∀ s ∈ steps, s ≠ .shutdown) →
      let c := c₀.run lib S steps
      ((∀ before after, steps = before ++ .attach :: after →
          (c₀.run lib S before).ntp.state ≠ .inProcess) →
        c.ntp.state = .inProcess → c.NtpAwaited) ∧
      ((∀ before after, steps = before ++ .attach :: after →
          (c₀.run lib S before).weather.state ≠ .inProcess) →
        c.weather.state = .inProcess → c.WeatherAwaited)) ∧
    ∀ before after,
      let c := c₀.run lib S (before ++ .attach :: after)
      ((c₀.run lib S before).ntp.state = .inProcess →
        (∀ handle, RepliesFollow (c.native.trace (own ntpEvents (.ntp, handle)))) →
        c.ntp.state = .inProcess ∧ ¬ c.NtpAwaited) ∧
      ((c₀.run lib S before).weather.state = .inProcess →
        (∀ handle, RepliesFollow (c.native.trace (own weatherEvents (.weather, handle)))) →
        c.weather.state = .inProcess ∧ ¬ c.WeatherAwaited) := by
  intro c₀
  have hsound : ∀ steps, Sound (c₀.run lib S steps) := run_sound lib S config disk state surface
  have hntp : ∀ steps, ntpView.Moves lib S (c₀.run lib S steps) := fun steps =>
    ntpView_moves lib S (hsound steps)
  have hweather : ∀ steps, weatherView.Moves lib S (c₀.run lib S steps) := fun steps =>
    weatherView_moves lib S (hsound steps)
  refine ⟨fun steps => ?_, fun steps hsteps => ⟨fun hattach => ?_, fun hattach => ?_⟩,
    fun before after => ?_⟩
  · intro c c'
    refine ⟨congrArg Progress.state (hntp steps).attach.progress,
      congrArg Progress.state (hweather steps).attach.progress, ?_, ?_⟩
    · rw [← ntpView_attended_iff]
      exact (hntp steps).attach_attended_iff
    · rw [← weatherView_attended_iff]
      exact (hweather steps).attach_attended_iff
  · rw [← ntpView_attended_iff]
    have h0 : ntpView.Attended c₀ := fun hwaits => by cases hwaits
    exact h0.run hntp hsteps hattach
  · rw [← weatherView_attended_iff]
    have h0 : weatherView.Attended c₀ := fun hwaits => by cases hwaits
    exact h0.run hweather hsteps hattach
  · refine ⟨fun hwaits hfollow => ?_, fun hwaits hfollow => ?_⟩
    · have hforlorn := View.Forlorn.of_attach hntp hwaits hfollow
      refine ⟨hforlorn.waits, fun hawaited => hforlorn.not_attended ?_⟩
      rw [ntpView_attended_iff]
      exact fun _ => hawaited
    · have hforlorn := View.Forlorn.of_attach hweather hwaits hfollow
      refine ⟨hforlorn.waits, fun hawaited => hforlorn.not_attended ?_⟩
      rw [weatherView_attended_iff]
      exact fun _ => hawaited

end Services

/-- attached while both requests are pending, the services wait, and nothing was asked of the new clients -/
theorem reattach_pending :
    let c := ((Clock.new { weather := { apiKey := "k" } } .empty (Session.new { knobs := {} }) {}).run
      Scripted.library Recording.surface [.attach, .tick .epoch 0]).attach Scripted.library
    ¬ (c.ntp.state = .inProcess → c.NtpAwaited) ∧
      ¬ (c.weather.state = .inProcess → c.WeatherAwaited) := by
  intro c
  have hstates : c.ntp.state = .inProcess ∧ c.weather.state = .inProcess := by decide +kernel
  have hhandles : c.ntp.client.map (·.handle) = some 2 ∧ c.weather.client.map (·.handle) = some 2 := by
    decide +kernel
  have hnothing : (c.native.trace (own ntpEvents (.ntp, 2))).length = 0 ∧
      (c.native.trace (own weatherEvents (.weather, 2))).length = 0 := by
    decide +kernel
  refine ⟨fun h => ?_, fun h => ?_⟩
  · obtain ⟨client, hclient, hpending⟩ := h hstates.1
    have hhandle : client.handle = 2 := by simpa [hclient] using hhandles.1
    unfold Pending at hpending
    rw [hhandle, List.length_eq_zero_iff.mp hnothing.1] at hpending
    cases hpending
  · obtain ⟨client, hclient, hpending⟩ := h hstates.2
    have hhandle : client.handle = 2 := by simpa [hclient] using hhandles.2
    unfold Pending at hpending
    rw [hhandle, List.length_eq_zero_iff.mp hnothing.2] at hpending
    cases hpending

end Clock

end DeskClock
