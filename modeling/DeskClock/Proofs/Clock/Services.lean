import DeskClock.Native.StandIn
import DeskClock.Proofs.Clock.Parts
import DeskClock.Window.Recording

/-!
# services that do not interfere

* `Happening.seenBy`        what a service sees of a happening, if anything;
* `AlikeAt.unseen`          what a service does not see leaves a clock as it was to it;
* `AlikeAt.seen`            what it sees, it sees in two clocks alike;
* `AlikeAt.live`            two lives that a service sees alike;
* `service_independent`     the calls to a service and its part of the clock follow from what it sees; the
                            window never holds it up.
-/

namespace DeskClock

open Native

variable {σ σ₁ σ₂ τ τ₁ τ₂ ε ε₁ ε₂ : Type}

namespace Clock

/-- What a service sees: that the library comes and that the clock is shut down, the instants of the ticks
and its own replies. The window, the local time and the replies to the others are not among it. -/
def Happening.seenBy (service : Service) : Happening → Option Happening
  | .step .attach => some (.step .attach)
  | .step .shutdown => some (.step .shutdown)
  | .step (.tick now _) => some (.step (.tick now 0))
  | .step .start => none
  | .step (.event _) => none
  | .ntpReply r => if service = .ntp then some (.ntpReply r) else none
  | .weatherReply r => if service = .weather then some (.weatherReply r) else none

/-- a service sees a happening as it is, and a tick without its local time -/
theorem Happening.of_seenBy {service : Service} {e seen : Happening} (h : e.seenBy service = some seen) :
    seen = e ∨ ∃ now offset, e = .step (.tick now offset) ∧ seen = .step (.tick now 0) := by
  cases e with
  | ntpReply r =>
    simp only [seenBy, Option.ite_none_right_eq_some] at h
    exact .inl (Option.some.inj h.2).symm
  | weatherReply r =>
    simp only [seenBy, Option.ite_none_right_eq_some] at h
    exact .inl (Option.some.inj h.2).symm
  | step s =>
    cases s with
    | attach => exact .inl (Option.some.inj h).symm
    | shutdown => exact .inl (Option.some.inj h).symm
    | tick now offset => exact .inr ⟨now, offset, rfl, (Option.some.inj h).symm⟩
    | start => cases h
    | event e => cases h

/-- what is seen alike is the same, or two ticks at one instant -/
theorem Happening.eq_of_seenBy {service : Service} {e₁ e₂ seen : Happening}
    (h₁ : e₁.seenBy service = some seen) (h₂ : e₂.seenBy service = some seen) :
    e₁ = e₂ ∨ ∃ now offset₁ offset₂, e₁ = .step (.tick now offset₁) ∧ e₂ = .step (.tick now offset₂) := by
  rcases of_seenBy h₁ with rfl | ⟨now, offset₁, rfl, rfl⟩
  · rcases of_seenBy h₂ with rfl | ⟨now, offset₂, rfl, rfl⟩
    · exact .inl rfl
    · exact .inr ⟨now, 0, offset₂, rfl, rfl⟩
  · rcases of_seenBy h₂ with rfl | ⟨now', offset₂, rfl, hseen⟩
    · exact .inr ⟨now, offset₁, 0, rfl, rfl⟩
    · cases hseen
      exact .inr ⟨now, offset₁, offset₂, rfl, rfl⟩

namespace AlikeAt

variable {lib₁ : Library σ₁} {lib₂ : Library σ₂} {S₁ : Surface τ₁ ε₁} {S₂ : Surface τ₂ ε₂}
  {service : Service} {c₁ : Clock σ₁ τ₁} {c₂ : Clock σ₂ τ₂}

/-- a service sees neither the window nor whether the library is there -/
theorem around (h : AlikeAt lib₁ lib₂ service c₁ c₂) (host₁ : WindowHost τ₁) (host₂ : WindowHost τ₂)
    {attached₁ attached₂ : Bool} (hattached : attached₁ = attached₂) :
    AlikeAt lib₁ lib₂ service { c₁ with host := host₁, attached := attached₁ }
      { c₂ with host := host₂, attached := attached₂ } where
  config := h.config
  attached := hattached
  part := by
    have hpart := h.part
    cases service with
    | ntp => exact hpart
    | weather => exact hpart
    | alarms => exact hpart
  native := h.native

theorem attach (h : AlikeAt lib₁ lib₂ service c₁ c₂) :
    AlikeAt lib₁ lib₂ service (c₁.attach lib₁) (c₂.attach lib₂) := by
  have hstatus := (status_actsOn none).keeps h
  have hsync := syncOnStart_actsOn.keeps hstatus
  have hntp := attachNtp_actsOn.keeps hsync
  have hweather := attachWeather_actsOn.keeps hntp
  exact (attachAlarms_actsOn.keeps hweather).around _ _ rfl

theorem release (h : AlikeAt lib₁ lib₂ service c₁ c₂) :
    AlikeAt lib₁ lib₂ service (c₁.release lib₁) (c₂.release lib₂) := by
  have halarms := (replaceAlarms_actsOn none).keeps h
  have hweather := (replaceWeather_actsOn none).keeps halarms
  exact (replaceNtp_actsOn none).keeps hweather

theorem pump (h : AlikeAt lib₁ lib₂ service c₁ c₂) (now : Instant) :
    AlikeAt lib₁ lib₂ service (c₁.pump lib₁ now) (c₂.pump lib₂ now) := by
  have hntp := (pumpNtp_actsOn now).keeps h
  have hweather := (pumpWeather_actsOn now).keeps hntp
  exact (refreshAlarm_actsOn now).keeps hweather

theorem tick (h : AlikeAt lib₁ lib₂ service c₁ c₂) (now : Instant) (offset₁ offset₂ : Int) :
    AlikeAt lib₁ lib₂ service (c₁.tick lib₁ S₁ now offset₁).2 (c₂.tick lib₂ S₂ now offset₂).2 := by
  obtain ⟨host₁, h₁⟩ := c₁.tick_eq lib₁ S₁ now offset₁
  obtain ⟨host₂, h₂⟩ := c₂.tick_eq lib₂ S₂ now offset₂
  rw [h₁, h₂]
  exact (h.pump now).around host₁ host₂ (h.pump now).attached

/-- what a service does not see leaves a clock as it was to it -/
theorem unseen (h : AlikeAt lib₁ lib₂ service c₁ c₂) {e : Happening} (he : e.seenBy service = none) :
    AlikeAt lib₁ lib₂ service (e.apply lib₁ S₁ c₁) c₂ := by
  cases e with
  | ntpReply r =>
    have hother : Service.ntp ≠ service := by
      rintro rfl
      cases he
    exact h.only hother ((receiveNtp_actsOn r).only lib₁ c₁)
  | weatherReply r =>
    have hother : Service.weather ≠ service := by
      rintro rfl
      cases he
    exact h.only hother ((receiveWeather_actsOn r).only lib₁ c₁)
  | step s =>
    cases s with
    | attach => cases he
    | shutdown => cases he
    | tick now offset => cases he
    | start =>
      obtain ⟨host, hstart⟩ := c₁.start_eq S₁
      simp only [Happening.apply, Step.apply, hstart]
      exact h.around host c₂.host h.attached
    | event e =>
      obtain ⟨host, hevent⟩ := c₁.handleEvent_eq S₁ e
      simp only [Happening.apply, Step.apply, hevent]
      exact h.around host c₂.host h.attached

/-- what a service sees, it sees in two clocks alike -/
theorem seen (h : AlikeAt lib₁ lib₂ service c₁ c₂) {e₁ e₂ e : Happening}
    (h₁ : e₁.seenBy service = some e) (h₂ : e₂.seenBy service = some e) :
    AlikeAt lib₁ lib₂ service (e₁.apply lib₁ S₁ c₁) (e₂.apply lib₂ S₂ c₂) := by
  rcases Happening.eq_of_seenBy h₁ h₂ with rfl | ⟨now, offset₁, offset₂, rfl, rfl⟩
  · cases e₁ with
    | ntpReply r => exact (receiveNtp_actsOn r).keeps h
    | weatherReply r => exact (receiveWeather_actsOn r).keeps h
    | step s =>
      cases s with
      | attach => exact h.attach
      | shutdown => exact (h.around _ _ h.attached).release
      | tick now offset => exact h.tick now offset offset
      | start => cases h₁
      | event e => cases h₁
  · exact h.tick now offset₁ offset₂

theorem unseenAll (h : AlikeAt lib₁ lib₂ service c₁ c₂) {life : List Happening}
    (hlife : ∀ e ∈ life, e.seenBy service = none) :
    AlikeAt lib₁ lib₂ service (c₁.live lib₁ S₁ life) c₂ := by
  induction life generalizing c₁ with
  | nil => exact h
  | cons e life ih =>
    have he : e.seenBy service = none := hlife e List.mem_cons_self
    exact ih (h.unseen he) fun e' he' => hlife e' (List.mem_cons_of_mem e he')

/-- **Two lives that a service sees alike** leave it with the same. -/
theorem live (h : AlikeAt lib₁ lib₂ service c₁ c₂) {life₁ life₂ : List Happening}
    (hlives : life₁.filterMap (·.seenBy service) = life₂.filterMap (·.seenBy service)) :
    AlikeAt lib₁ lib₂ service (c₁.live lib₁ S₁ life₁) (c₂.live lib₂ S₂ life₂) := by
  induction life₁ generalizing c₁ c₂ life₂ with
  | nil =>
    have hunseen : ∀ e ∈ life₂, e.seenBy service = none := List.filterMap_eq_nil_iff.mp hlives.symm
    exact (h.symm.unseenAll hunseen).symm
  | cons e₁ life₁ ih =>
    cases he : e₁.seenBy service with
    | none =>
      rw [List.filterMap_cons_none he] at hlives
      exact ih (h.unseen he) hlives
    | some e =>
      -- the other life has a happening that the service sees alike, behind some that it does not see
      rw [List.filterMap_cons_some he] at hlives
      obtain ⟨before, e₂, after, rfl, hbefore, he₂, hafter⟩ :=
        List.filterMap_eq_cons_iff.mp hlives.symm
      rw [live_append]
      have hreached : AlikeAt lib₁ lib₂ service c₁ (c₂.live lib₂ S₂ before) :=
        (h.symm.unseenAll hbefore).symm
      exact ih (hreached.seen he he₂) hafter.symm

end AlikeAt

/-- two clocks at first, if their cache files are the same -/
theorem AlikeAt.new {service : Service} {lib₁ : Library σ₁} {lib₂ : Library σ₂} {state₁ : σ₁}
    {state₂ : σ₂} (h : SameAnswers service lib₁ lib₂ state₁ state₂) {config : Config}
    {disk₁ disk₂ : Disk}
    (hfile : disk₁.file? config.weather.cachePath = disk₂.file? config.weather.cachePath)
    (hwritable : disk₁.writable config.weather.cachePath = disk₂.writable config.weather.cachePath)
    (surface₁ : τ₁) (surface₂ : τ₂) :
    AlikeAt lib₁ lib₂ service (Clock.new config disk₁ (.new state₁) surface₁)
      (Clock.new config disk₂ (.new state₂) surface₂) where
  config := rfl
  attached := rfl
  part := by
    cases service with
    | ntp => rfl
    | weather =>
      have hcached : cached? config disk₁ = cached? config disk₂ := by
        unfold cached? CachedWeather.load
        rw [hfile]
      simp only [Clock.part, Clock.new, hcached, hfile, hwritable]
      rfl
    | alarms => rfl
  native := ⟨rfl, h⟩

/-! ## services and the window -/

/-- a tick fails only with a surface that does not draw on a visible window -/
theorem tick_fault (lib : Library σ) (S : Surface τ ε) (c : Clock σ τ) {now : Instant} {offset : Int}
    {moment : DateTime} (hmoment : now.atOffset? offset = some moment) {fault : TickFault ε}
    (hfault : (c.tick lib S now offset).1 = .error fault) :
    ∃ cause, fault = .surface cause ∧ (c.pump lib now).host.window = .visible ∧
      (S.call (.draw ((c.pump lib now).frame moment)) (c.pump lib now).host.surface).1 = .error cause := by
  unfold tick at hfault
  simp only [hmoment] at hfault
  generalize c.pump lib now = c at hfault ⊢
  cases hdraw : c.host.draw S (c.frame moment) with
  | mk result host =>
    rw [hdraw] at hfault
    cases result with
    | ok drawn => cases hfault
    | error cause =>
      cases hfault
      refine ⟨cause, rfl, ?_⟩
      unfold WindowHost.draw at hdraw
      split at hdraw
      · next hvisible =>
        refine ⟨hvisible, ?_⟩
        unfold WindowHost.call at hdraw
        cases hcall : S.call (.draw (c.frame moment)) c.host.surface with
        | mk result surface =>
          rw [hcall] at hdraw
          cases result with
          | ok _ => cases hdraw
          | error e =>
            cases hdraw
            rfl
      · cases hdraw

/-- **Services do not interfere with each other or with the window.** Two clocks live with libraries that
answer a service alike; their windows, their local times and all that concerns the other services may
differ. If the service sees the same of both lives, it is called with the same requests, has the same
answers and leaves the same in both clocks.

A clock has its library once it is attached, whichever clients cannot be made. A tick fails only if a
visible window is not drawn on, and whether it fails or not the services have gone on. -/
theorem service_independent (service : Service) (lib₁ : Library σ₁) (lib₂ : Library σ₂)
    (S₁ : Surface τ₁ ε₁) (S₂ : Surface τ₂ ε₂) (config : Config) (disk₁ disk₂ : Disk) (state₁ : σ₁)
    (state₂ : σ₂) (surface₁ : τ₁) (surface₂ : τ₂) (life₁ life₂ : List Happening)
    (hanswers : SameAnswers service lib₁ lib₂ state₁ state₂)
    (hfile : disk₁.file? config.weather.cachePath = disk₂.file? config.weather.cachePath)
    (hwritable : disk₁.writable config.weather.cachePath = disk₂.writable config.weather.cachePath)
    (hlives : life₁.filterMap (·.seenBy service) = life₂.filterMap (·.seenBy service)) :
    let c₁ := (Clock.new config disk₁ (.new state₁) surface₁).live lib₁ S₁ life₁
    let c₂ := (Clock.new config disk₂ (.new state₂) surface₂).live lib₂ S₂ life₂
    c₁.native.callsTo service = c₂.native.callsTo service ∧ c₁.part service = c₂.part service ∧
    (c₁.attach lib₁).attached = true ∧
    (∀ now offset, ∃ host, (c₁.tick lib₁ S₁ now offset).2 = { c₁.pump lib₁ now with host }) ∧
    ∀ now offset moment, now.atOffset? offset = some moment →
      ∀ fault, (c₁.tick lib₁ S₁ now offset).1 = .error fault →
        ∃ cause, fault = .surface cause ∧ (c₁.pump lib₁ now).host.window = .visible ∧
          (S₁.call (.draw ((c₁.pump lib₁ now).frame moment)) (c₁.pump lib₁ now).host.surface).1
            = .error cause := by
  intro c₁ c₂
  have halike : AlikeAt lib₁ lib₂ service c₁ c₂ :=
    (AlikeAt.new hanswers hfile hwritable surface₁ surface₂).live hlives
  refine ⟨halike.native.calls, halike.part, rfl, c₁.tick_eq lib₁ S₁, ?_⟩
  intro now offset moment hmoment fault hfault
  exact c₁.tick_fault lib₁ S₁ hmoment hfault

end Clock

/-- the stand-in, without clients for the weather and the alarms -/
def Native.StandIn.timeOnly : Library StandIn.State where
  answer
    | .weather (.create _ _ _), s => (false, s)
    | .alarms (.create _), s => (false, s)
    | r, s => StandIn.library.answer r s

namespace Clock

/-- a clock that is seen and one that never is, with a library that makes no client but the time client -/
theorem service_independent_timeOnly :
    let life₁ : List Happening := [.step .attach, .step .start, .step (.tick .epoch 0),
      .step (.event .closed), .step (.tick ⟨60, 0, by decide, by decide⟩ 3600)]
    let life₂ : List Happening := [.step .attach, .step (.tick .epoch 7200),
      .step (.tick ⟨60, 0, by decide, by decide⟩ 0)]
    let c₁ := (Clock.new {} .empty (.new []) {}).live StandIn.library Recording.surface life₁
    let c₂ := (Clock.new {} .empty (.new []) { failing := ["draw"] }).live StandIn.timeOnly
      Recording.surface life₂
    SameAnswers .ntp StandIn.library StandIn.timeOnly [] [] ∧
    life₁.filterMap (·.seenBy .ntp) = life₂.filterMap (·.seenBy .ntp) ∧
    c₁.native.callsTo .ntp = c₂.native.callsTo .ntp ∧ c₁.part .ntp = c₂.part .ntp := by
  intro life₁ life₂ c₁ c₂
  have hanswers : SameAnswers .ntp StandIn.library StandIn.timeOnly [] [] := by
    intro calls₁ calls₂ _ r hr
    cases r with
    | ntp r => cases r <;> rfl
    | weather r => cases hr
    | alarms r => cases hr
  have hlives : life₁.filterMap (·.seenBy .ntp) = life₂.filterMap (·.seenBy .ntp) := rfl
  have hindependent := service_independent .ntp StandIn.library StandIn.timeOnly Recording.surface
    Recording.surface {} .empty .empty [] [] {} { failing := ["draw"] } life₁ life₂ hanswers rfl rfl
    hlives
  exact ⟨hanswers, hlives, hindependent.1, hindependent.2.1⟩

end Clock

end DeskClock
