import DeskClock.Proofs.Clock.Life
import DeskClock.Proofs.Window.Lifecycle

/-!
# the window of the clock

* `start_visible`, `activate_visible`   a clock that is started or activated without failure is seen;
* `Happening.host_apply`   whatever happens to a clock, its window sees some operations;
* `tick_trace`             a tick draws one frame if the window is visible, and none otherwise;
* `window_lifecycle`       the calls made for a window, in any run of operations and in any life of a clock.
-/

namespace DeskClock

open Native

variable {σ τ ε : Type}

/-! ## a window that is shown -/

namespace WindowHost

variable {S : Surface τ ε} {h : WindowHost τ}

theorem window_create {made : Bool} (hc : (h.create S).1 = .ok made) :
    (h.create S).2.window ≠ .closed := by
  have heq := h.create_eq S
  rw [hc] at heq
  split at heq
  · have hwindow := h.window_after S (.open h.options)
    rw [← heq] at hwindow
    exact hwindow.trans_ne nofun
  · next hw =>
    rw [(Prod.mk.inj heq).2]
    exact hw

theorem window_reveal (hw : h.window ≠ .closed) (hr : (h.reveal S).1 = .ok ()) :
    (h.reveal S).2.window = .visible := by
  have heq := h.reveal_eq S
  rw [hr] at heq
  split at heq
  · have hwindow := h.window_after S .show
    rw [← heq] at hwindow
    exact hwindow
  · next hhidden =>
    rw [(Prod.mk.inj heq).2]
    cases hstate : h.window with
    | closed => exact absurd hstate hw
    | hidden => exact absurd hstate hhidden
    | visible => rfl

theorem window_close : (h.close S).2.window = .closed := by
  have heq := h.close_eq S
  split at heq
  · next hw =>
    rw [(Prod.mk.inj heq).2]
    exact hw
  · rw [(Prod.mk.inj heq).2]
    rfl

theorem window_draw (lines : List String) : (h.draw S lines).2.window = h.window := by
  have heq := h.draw_eq S lines
  split at heq
  · next hw =>
    rw [(Prod.mk.inj heq).2, hw]
    rfl
  · rw [(Prod.mk.inj heq).2]

end WindowHost

namespace Clock

section Steps

variable (lib : Library σ) (S : Surface τ ε) (c : Clock σ τ)

theorem start_visible (h : (c.start S).1 = .ok ()) : (c.start S).2.host.window = .visible := by
  unfold start at h ⊢
  cases hc : c.host.create S with
  | mk result host =>
    rw [hc] at h
    cases result with
    | error e => cases h
    | ok made =>
      have hopen : (c.host.create S).2.window ≠ .closed := WindowHost.window_create (by rw [hc])
      rw [hc] at hopen
      exact WindowHost.window_reveal hopen h

/-- a window that is made anew is shown at once -/
theorem activate_visible (h : (c.handleEvent S .activate).1 = .ok ()) :
    (c.handleEvent S .activate).2.host.window = .visible := by
  unfold handleEvent WindowHost.handle at h ⊢
  cases hc : c.host.create S with
  | mk result host =>
    simp only [hc] at h ⊢
    cases result with
    | error e => cases h
    | ok made =>
      have hopen : (c.host.create S).2.window ≠ .closed := WindowHost.window_create (by rw [hc])
      rw [hc] at hopen
      dsimp only at h hopen ⊢
      split at h
      · next hhidden =>
        rw [if_pos hhidden]
        exact WindowHost.window_reveal hopen h
      · next hshown =>
        rw [if_neg hshown]
        simp [WindowHost.isOpen, WindowHost.isVisible, hopen] at hshown
        exact hshown

theorem closed_window : (c.handleEvent S .closed).2.host.window = .closed := by
  have hclosed : (c.host.handle S .closed).2.window = .closed := WindowHost.window_close
  unfold handleEvent
  cases hc : c.host.handle S .closed with
  | mk result host =>
    rw [hc] at hclosed
    cases result with
    | error e => exact hclosed
    | ok done =>
      dsimp only
      rw [if_neg (by simp)]
      exact hclosed

end Steps

/-! ## what the window sees of a life -/

section Host

variable (lib : Library σ) (S : Surface τ ε) (c : Clock σ τ)

theorem attach_host : (c.attach lib).host = c.host := by
  obtain ⟨native, status, hsync⟩ := syncOnStart_eq lib { c with status := none }
  unfold attach
  dsimp only
  rw [hsync]
  obtain ⟨_, _, _, _, hclients, -⟩ := attachClients_eq lib { c with native, status }
  rw [hclients]

theorem pump_host (now : Instant) : (c.pump lib now).host = c.host := by
  unfold pump
  obtain ⟨_, _, _, hntp, -⟩ := pumpNtp_calls lib now c
  rw [hntp]
  obtain ⟨_, _, _, hweather, -⟩ := pumpWeather_calls lib now { c with native := _, status := _, ntp := _ }
  rw [hweather]
  obtain ⟨_, _, _, halarms, -⟩ := refreshAlarm_calls lib now
    { c with native := _, disk := _, status := _, ntp := _, weather := _ }
  rw [halarms]

theorem tick_host (now : Instant) (offset : Int) : (c.tick lib S now offset).2.host =
    match now.atOffset? offset with
    | none => c.host
    | some moment => (c.host.draw S ((c.pump lib now).frame moment)).2 := by
  unfold tick
  rw [← c.pump_host lib now]
  dsimp only
  cases now.atOffset? offset with
  | none => rfl
  | some moment =>
    dsimp only
    cases (c.pump lib now).host.draw S ((c.pump lib now).frame moment) with
    | mk result host => cases result <;> rfl

theorem tick_window (now : Instant) (offset : Int) :
    (c.tick lib S now offset).2.host.window = c.host.window := by
  rw [tick_host]
  cases now.atOffset? offset with
  | none => rfl
  | some moment => exact WindowHost.window_draw _

theorem tick_isOk {now : Instant} {offset : Int} {moment : DateTime}
    (hmoment : now.atOffset? offset = some moment) : (c.tick lib S now offset).1.isOk =
      (c.host.draw S ((c.pump lib now).frame moment)).1.isOk := by
  unfold tick
  rw [← c.pump_host lib now]
  simp only [hmoment]
  cases (c.pump lib now).host.draw S ((c.pump lib now).frame moment) with
  | mk result host => cases result <;> rfl

/-- the frame is built from what the services know, and a window is none of it -/
theorem tick_frame (now : Instant) (offset : Int) (moment : DateTime) :
    (c.tick lib S now offset).2.frame moment = (c.pump lib now).frame moment := by
  obtain ⟨host, h⟩ := c.tick_eq lib S now offset
  rw [h]
  rfl

theorem start_host : ∃ ops, (c.start S).2.host = c.host.run S ops := by
  unfold start
  cases hc : c.host.create S with
  | mk result host =>
    have hhost : c.host.run S [.create] = host := congrArg Prod.snd hc
    cases result with
    | error e => exact ⟨[.create], hhost.symm⟩
    | ok made =>
      refine ⟨[.create, .event .readyToShow], ?_⟩
      rw [← hhost]
      rfl

theorem handleEvent_host (e : WindowEvent) : ∃ ops, (c.handleEvent S e).2.host = c.host.run S ops := by
  unfold handleEvent
  cases hc : c.host.handle S e with
  | mk result host =>
    have hhost : c.host.run S [.event e] = host := congrArg Prod.snd hc
    cases result with
    | error fault => exact ⟨[.event e], hhost.symm⟩
    | ok done =>
      dsimp only
      split
      · refine ⟨[.event e, .event .readyToShow], ?_⟩
        rw [← hhost]
        rfl
      · exact ⟨[.event e], hhost.symm⟩

/-- whatever happens to a clock, its window sees some operations -/
theorem Happening.host_apply (e : Happening) :
    ∃ ops, (e.apply lib S c).host = c.host.run S ops := by
  cases e with
  | ntpReply r => exact ⟨[], rfl⟩
  | weatherReply r => exact ⟨[], rfl⟩
  | step s =>
    cases s with
    | attach => exact ⟨[], c.attach_host lib⟩
    | start => exact c.start_host S
    | event e => exact c.handleEvent_host S e
    | shutdown => exact ⟨[.event .closed], rfl⟩
    | tick now offset =>
      have hhost := c.tick_host lib S now offset
      cases hmoment : now.atOffset? offset with
      | none =>
        rw [hmoment] at hhost
        exact ⟨[], hhost⟩
      | some moment =>
        rw [hmoment] at hhost
        exact ⟨[.draw ((c.pump lib now).frame moment)], hhost⟩

theorem live_host (life : List Happening) : ∃ ops, (c.live lib S life).host = c.host.run S ops := by
  induction life generalizing c with
  | nil => exact ⟨[], rfl⟩
  | cons e life ih =>
    obtain ⟨ops, hops⟩ := e.host_apply lib S c
    obtain ⟨ops', hops'⟩ := ih (e.apply lib S c)
    refine ⟨ops ++ ops', ?_⟩
    rw [WindowHost.run, List.foldl_append]
    exact hops'.trans (congrArg (WindowHost.run S · ops') hops)

/-- a tick draws one frame if the window is visible, the one of the clock after the services have gone on -/
theorem tick_trace (c : Clock σ (τ × SurfaceTrace)) {now : Instant} {offset : Int} {moment : DateTime}
    (hmoment : now.atOffset? offset = some moment) :
    (c.tick lib S.recorded now offset).2.host.trace = c.host.trace ++
      if c.host.window = .visible then
        [(.draw ((c.tick lib S.recorded now offset).2.frame moment),
          (c.tick lib S.recorded now offset).1.isOk)]
      else [] := by
  have hdraw := WindowHost.Op.trace_apply S c.host (.draw ((c.pump lib now).frame moment))
  simp only [WindowHost.Op.apply, WindowHost.Op.call?] at hdraw
  rw [tick_host, tick_frame, tick_isOk lib S.recorded c hmoment, hmoment]
  dsimp only
  rw [hdraw]
  split <;> rfl

end Host

/-! ## the calls made for a window -/

/-- **The life of a window, on any surface.** Operations come in any order and any call may fail. The window
is the one that follows from the calls and their results; each call was permitted, so that a window is
closed at most once; an operation makes the call that is due, and no other.

The same holds in any life of a clock. One that is started or activated without failure is visible, one
that is closed has no window, and a tick draws once on a visible window: the frame of the clock as the
services of that tick leave it. -/
theorem window_lifecycle (lib : Library σ) (S : Surface τ ε) :
    (∀ (options : WindowSettings) (surface : τ) (ops : List WindowHost.Op),
      let h := (WindowHost.new options (surface, [])).run S.recorded ops
      h.forget = (WindowHost.new options surface).run S ops ∧
      h.Orderly ∧ h.trace.ClosesOnce ∧
      (h.handle S.recorded .closed).2.window = .closed ∧
      ∀ op : WindowHost.Op, (op.apply S.recorded h).2.trace =
        h.trace ++ ((op.call? h).map fun call => (call, (op.apply S.recorded h).1)).toList) ∧
    ∀ (config : Config) (disk : Disk) (native : Session σ) (surface : τ) (life : List Happening),
      let c := (Clock.new config disk native (surface, [])).live lib S.recorded life
      c.host.Orderly ∧ c.host.trace.ClosesOnce ∧
      ((c.start S.recorded).1 = .ok () → (c.start S.recorded).2.host.window = .visible) ∧
      ((c.handleEvent S.recorded .activate).1 = .ok () →
        (c.handleEvent S.recorded .activate).2.host.window = .visible) ∧
      (c.handleEvent S.recorded .closed).2.host.window = .closed ∧
      ∀ now offset moment, now.atOffset? offset = some moment →
        let ticked := c.tick lib S.recorded now offset
        ticked.2.host.window = c.host.window ∧
        ticked.2.host.trace = c.host.trace ++
          if c.host.window = .visible then [(.draw (ticked.2.frame moment), ticked.1.isOk)] else [] := by
  refine ⟨?_, ?_⟩
  · intro options surface ops h
    have horderly : h.Orderly := (WindowHost.Orderly.new options surface).run S ops
    refine ⟨?_, horderly, horderly.lawful.closesOnce, WindowHost.window_close, ?_⟩
    · exact WindowHost.run_recorded S (.new options (surface, [])) ops
    · exact WindowHost.Op.trace_apply S h
  · intro config disk native surface life c
    have horderly : c.host.Orderly := by
      obtain ⟨ops, hops⟩ := (Clock.new config disk native (surface, [])).live_host lib S.recorded life
      rw [hops]
      exact (WindowHost.Orderly.new config.window surface).run S ops
    refine ⟨horderly, horderly.lawful.closesOnce, c.start_visible S.recorded,
      c.activate_visible S.recorded, c.closed_window S.recorded, ?_⟩
    intro now offset moment hmoment
    exact ⟨c.tick_window lib S.recorded now offset, c.tick_trace lib S hmoment⟩

end Clock

end DeskClock
