import DeskClock.Proofs.Clock.Life
import DeskClock.Proofs.Native.Objects

/-!
# the objects that a clock holds

* `Clock.held`            the objects that a clock holds, in the order in which it gives them up;
* `UsesHeld`              a step that holds on to its objects and uses no others;
* `attach_owns`, `pump_owns`, `release_owns`   what becomes of them;
* `Happening.isAttach`    whether the clients are made anew;
* `Balanced`              the objects that were made are those given up and those held, in order if the clock
                          was attached once at most;
* `Ending`                how the life of a clock ends;
* `handles_released`      in the end every object is destroyed once, and none is used after that.
-/

namespace DeskClock

open Native

variable {σ τ ε : Type}

namespace Clock

/-! ## what is held -/

def ntpHeld (c : Clock σ τ) : List Object := objects .ntp (c.ntp.client.map (·.handle))
def weatherHeld (c : Clock σ τ) : List Object := objects .weather (c.weather.client.map (·.handle))
def alarmHeld (c : Clock σ τ) : List Object := objects .alarms (c.alarms.scheduler.map (·.handle))

/-- the objects that a clock holds, in the order in which it gives them up -/
def held (c : Clock σ τ) : List Object := c.alarmHeld ++ (c.weatherHeld ++ c.ntpHeld)

section Steps

variable {made destroyed rest : List Object} {c c' c'' : Clock σ τ} (lib : Library σ)

/-! ## using objects -/

/-- the same is held, and what is held is all that is used -/
structure UsesHeld (c c' : Clock σ τ) : Prop where
  held : c'.held = c.held
  calls : c.native.Extends (fun d => d = .sets ∨ ∃ o ∈ c.held, d = .uses o.1 o.2) c'.native

theorem UsesHeld.trans (h : UsesHeld c c') (h' : UsesHeld c' c'') : UsesHeld c c'' where
  held := h'.held.trans h.held
  calls := h.calls.trans (h.held ▸ h'.calls)

theorem UsesHeld.owns (h : UsesHeld c c') (ho : Owns made destroyed c.held c.native) :
    Owns made destroyed c'.held c'.native := by
  rw [h.held]
  exact ho.uses h.calls

theorem syncOnStart_usesHeld (c : Clock σ τ) : UsesHeld c (c.syncOnStart lib) := by
  unfold syncOnStart
  split
  · obtain ⟨native, status, heq, hcalls⟩ := c.setMachineTime_eq lib
    rw [heq]
    exact ⟨rfl, hcalls.mono fun _ hd => .inl hd⟩
  · exact ⟨rfl, .refl _ _⟩

theorem pumpNtp_usesHeld (now : Instant) (c : Clock σ τ) : UsesHeld c (c.pumpNtp lib now) := by
  obtain ⟨native, status, ntp, heq, hhandle, hcalls⟩ := pumpNtp_calls lib now c
  rw [heq]
  constructor
  · rw [held, ntpHeld, hhandle]
    rfl
  · refine hcalls.mono ?_
    rintro d (rfl | ⟨client, hc, rfl⟩)
    · exact .inl rfl
    · refine .inr ⟨(.ntp, client.handle), ?_, rfl⟩
      simp [held, ntpHeld, objects, hc]

theorem pumpWeather_usesHeld (now : Instant) (c : Clock σ τ) : UsesHeld c (c.pumpWeather lib now) := by
  obtain ⟨native, disk, weather, heq, hhandle, hcalls⟩ := pumpWeather_calls lib now c
  rw [heq]
  constructor
  · rw [held, weatherHeld, hhandle]
    rfl
  · refine hcalls.mono ?_
    rintro d ⟨client, hc, rfl⟩
    refine .inr ⟨(.weather, client.handle), ?_, rfl⟩
    simp [held, weatherHeld, objects, hc]

theorem refreshAlarm_usesHeld (now : Instant) (c : Clock σ τ) :
    UsesHeld c (c.refreshAlarm lib now) := by
  obtain ⟨native, lastMinute, next, heq, hcalls⟩ := refreshAlarm_calls lib now c
  rw [heq]
  constructor
  · rfl
  · refine hcalls.mono ?_
    rintro d ⟨scheduler, hs, rfl⟩
    refine .inr ⟨(.alarms, scheduler.handle), ?_, rfl⟩
    simp [held, alarmHeld, objects, hs]

theorem tick_usesHeld (S : Surface τ ε) (now : Instant) (offset : Int) (c : Clock σ τ) :
    UsesHeld c (c.tick lib S now offset).2 := by
  obtain ⟨host, heq⟩ := c.tick_eq lib S now offset
  have h : UsesHeld c (c.pump lib now) :=
    ((pumpNtp_usesHeld lib now c).trans (pumpWeather_usesHeld lib now _)).trans
      (refreshAlarm_usesHeld lib now _)
  rw [heq]
  exact ⟨h.held, h.calls⟩

/-- a reply that arrives changes the queue of a client and no object -/
theorem held_receiveNtp (c : Clock σ τ) (r : NtpReply) : (c.receiveNtp r).held = c.held := by
  have hhandle : ∀ client : NtpClient, (client.receive r).handle = client.handle := by
    intro client
    rw [NtpClient.receive]
    split
    · rfl
    · rfl
  have hsame : (c.ntp.client.map (·.receive r)).map (·.handle) = c.ntp.client.map (·.handle) := by
    rw [Option.map_map]
    exact congrArg (c.ntp.client.map ·) (funext hhandle)
  unfold held ntpHeld receiveNtp
  rw [hsame]
  rfl

theorem held_receiveWeather (c : Clock σ τ) (r : WeatherReply) : (c.receiveWeather r).held = c.held := by
  have hhandle : ∀ client : WeatherClient, (client.receive r).handle = client.handle := by
    intro client
    rw [WeatherClient.receive]
    split
    · rfl
    · rfl
  have hsame : (c.weather.client.map (·.receive r)).map (·.handle) = c.weather.client.map (·.handle) := by
    rw [Option.map_map]
    exact congrArg (c.weather.client.map ·) (funext hhandle)
  unfold held weatherHeld receiveWeather
  rw [hsame]
  rfl

/-! ## giving objects up -/

theorem replaceNtp_owns (h : Owns made destroyed (c.ntpHeld ++ rest) c.native)
    (client : Option NtpClient) :
    Owns made (destroyed ++ c.ntpHeld) rest (c.replaceNtp lib client).native := by
  unfold ntpHeld at *
  unfold replaceNtp
  cases hc : c.ntp.client with
  | none =>
    rw [hc] at h
    exact (List.append_nil destroyed).symm ▸ h
  | some old =>
    rw [hc] at h
    exact h.destroys rfl rfl

theorem replaceWeather_owns (h : Owns made destroyed (c.weatherHeld ++ rest) c.native)
    (client : Option WeatherClient) :
    Owns made (destroyed ++ c.weatherHeld) rest (c.replaceWeather lib client).native := by
  unfold weatherHeld at *
  unfold replaceWeather
  cases hc : c.weather.client with
  | none =>
    rw [hc] at h
    exact (List.append_nil destroyed).symm ▸ h
  | some old =>
    rw [hc] at h
    exact h.destroys rfl rfl

theorem replaceAlarms_owns (h : Owns made destroyed (c.alarmHeld ++ rest) c.native)
    (scheduler : Option AlarmScheduler) :
    Owns made (destroyed ++ c.alarmHeld) rest (c.replaceAlarms lib scheduler).native := by
  unfold alarmHeld at *
  unfold replaceAlarms
  cases hc : c.alarms.scheduler with
  | none =>
    rw [hc] at h
    exact (List.append_nil destroyed).symm ▸ h
  | some old =>
    rw [hc] at h
    exact h.destroys rfl rfl

/-- all that is held is given up, in the order of `held` -/
theorem release_owns (h : Owns made destroyed c.held c.native) :
    Owns made (destroyed ++ c.held) [] (c.release lib).native := by
  have h1 : Owns made (destroyed ++ c.alarmHeld) (c.weatherHeld ++ (c.ntpHeld ++ []))
      (c.replaceAlarms lib none).native := by
    rw [List.append_nil]
    exact replaceAlarms_owns lib h none
  have h2 : Owns made (destroyed ++ c.alarmHeld ++ c.weatherHeld) (c.ntpHeld ++ [])
      ((c.replaceAlarms lib none).replaceWeather lib none).native :=
    replaceWeather_owns lib (c := c.replaceAlarms lib none) h1 none
  have h3 : Owns made (destroyed ++ c.alarmHeld ++ c.weatherHeld ++ c.ntpHeld) []
      (c.release lib).native :=
    replaceNtp_owns lib (c := (c.replaceAlarms lib none).replaceWeather lib none) h2 none
  rw [List.append_assoc, List.append_assoc] at h3
  exact h3

/-! ## making objects -/

/-- a new object is held before the old one of its service is given up -/
theorem perm_held (new a b d : List Object) :
    (new ++ (a ++ (b ++ d))).Perm (d ++ (a ++ (b ++ new))) ∧
    (new ++ (a ++ (b ++ d))).Perm (b ++ (a ++ (new ++ d))) ∧
    (new ++ (a ++ (b ++ d))).Perm (a ++ (new ++ (b ++ d))) := by
  refine ⟨List.perm_iff_count.mpr fun o => ?_, List.perm_iff_count.mpr fun o => ?_,
    List.perm_iff_count.mpr fun o => ?_⟩
  all_goals
    simp only [List.count_append]
    omega

theorem attachNtp_owns (h : Owns made destroyed c.held c.native) :
    Owns (made ++ (c.attachNtp lib).ntpHeld) (destroyed ++ c.ntpHeld) (c.attachNtp lib).held
      (c.attachNtp lib).native := by
  have hmade := h.makes (NtpClient.create_makes lib c.native)
  exact replaceNtp_owns lib (c := { c with native := (NtpClient.create lib c.native).2 })
    (hmade.perm (perm_held _ _ _ _).1) _

theorem attachWeather_owns (h : Owns made destroyed c.held c.native) : ∃ new old,
    Owns (made ++ new) (destroyed ++ old) (c.attachWeather lib).held (c.attachWeather lib).native ∧
    (c.weatherHeld = [] → old = [] ∧ new = (c.attachWeather lib).weatherHeld) := by
  unfold attachWeather
  split
  · have hmade := h.makes
      (WeatherClient.create_makes lib c.native c.config.weather.apiKey c.config.weather.units)
    refine ⟨_, c.weatherHeld, replaceWeather_owns lib (c := { c with native := (WeatherClient.create lib
      c.config.weather.apiKey c.config.weather.units c.native).2 })
      (hmade.perm (perm_held _ _ _ _).2.1) _, fun hnone => ⟨hnone, rfl⟩⟩
  · refine ⟨[], [], ?_, fun hnone => ⟨rfl, hnone.symm⟩⟩
    rw [List.append_nil, List.append_nil]
    exact h

theorem attachAlarms_owns (h : Owns made destroyed c.held c.native) : ∃ new old,
    Owns (made ++ new) (destroyed ++ old) (c.attachAlarms lib).held (c.attachAlarms lib).native ∧
    (c.alarmHeld = [] → old = [] ∧ new = (c.attachAlarms lib).alarmHeld) := by
  have hmade := h.makes (AlarmScheduler.create_makes lib c.native)
  unfold attachAlarms
  cases hc : AlarmScheduler.create lib c.native with
  | mk result native =>
    rw [hc] at hmade
    cases result with
    | error fault =>
      refine ⟨[], [], ?_, fun hnone => ⟨rfl, hnone.symm⟩⟩
      rw [List.append_nil destroyed]
      exact hmade
    | ok scheduler =>
      dsimp only
      have hloaded : Owns (made ++ [(.alarms, scheduler.handle)]) destroyed
          ((.alarms, scheduler.handle) :: c.held) (scheduler.load lib c.config.alarms native).2 :=
        hmade.uses ((scheduler.load_extends lib native c.config.alarms).mono fun _ hd =>
          .inr ⟨(.alarms, scheduler.handle), List.mem_cons_self, hd⟩)
      generalize scheduler.load lib c.config.alarms native = loaded at hloaded ⊢
      exact ⟨_, c.alarmHeld, replaceAlarms_owns lib (c := { c with native := loaded.2 })
        (hloaded.perm (perm_held [(.alarms, scheduler.handle)] _ _ _).2.2) (some scheduler),
        fun hnone => ⟨hnone, rfl⟩⟩

/-- The clients are made anew. If nothing was held before, what is held then is what was made. -/
theorem attach_owns (h : Owns made destroyed c.held c.native) : ∃ new old,
    Owns (made ++ new) (destroyed ++ old) (c.attach lib).held (c.attach lib).native ∧
    (c.held = [] → old = [] ∧
      new = (c.attach lib).ntpHeld ++ ((c.attach lib).weatherHeld ++ (c.attach lib).alarmHeld)) := by
  have hsync := syncOnStart_usesHeld lib { c with status := none }
  generalize hc₁ : ({ c with status := none } : Clock σ τ).syncOnStart lib = c₁ at hsync
  have h1 := attachNtp_owns lib (hsync.owns h)
  obtain ⟨weather, oldWeather, h2, hweather⟩ := attachWeather_owns lib h1
  obtain ⟨alarms, oldAlarms, h3, halarms⟩ := attachAlarms_owns lib h2
  have heq : c.attach lib = { ((c₁.attachNtp lib).attachWeather lib).attachAlarms lib with
      attached := true } := by
    rw [← hc₁]
    rfl
  obtain ⟨_, _, hweatherEq, -, -⟩ := attachWeather_eq lib (c₁.attachNtp lib)
  obtain ⟨_, _, halarmsEq, -⟩ := attachAlarms_eq lib ((c₁.attachNtp lib).attachWeather lib)
  refine ⟨(c₁.attachNtp lib).ntpHeld ++ (weather ++ alarms), c₁.ntpHeld ++ (oldWeather ++ oldAlarms),
    ?_, ?_⟩
  · rw [heq]
    rw [List.append_assoc, List.append_assoc, List.append_assoc, List.append_assoc] at h3
    exact h3
  · intro hnone
    have hnone₁ : c₁.alarmHeld ++ (c₁.weatherHeld ++ c₁.ntpHeld) = [] := hsync.held.trans hnone
    obtain ⟨hnoAlarms, hnone₂⟩ := List.append_eq_nil_iff.mp hnone₁
    obtain ⟨hnoWeather, hnoNtp⟩ := List.append_eq_nil_iff.mp hnone₂
    obtain ⟨rfl, hw⟩ := hweather hnoWeather
    have hsame : ((c₁.attachNtp lib).attachWeather lib).alarmHeld = c₁.alarmHeld := by
      rw [hweatherEq]
      rfl
    obtain ⟨rfl, ha⟩ := halarms (hsame.trans hnoAlarms)
    refine ⟨by rw [hnoNtp]; rfl, ?_⟩
    have hntpKept : (c.attach lib).ntpHeld = (c₁.attachNtp lib).ntpHeld := by
      rw [heq, halarmsEq, hweatherEq]
      rfl
    have hweatherKept : (c.attach lib).weatherHeld
        = ((c₁.attachNtp lib).attachWeather lib).weatherHeld := by
      rw [heq, halarmsEq]
      rfl
    have halarmsKept : (c.attach lib).alarmHeld
        = (((c₁.attachNtp lib).attachWeather lib).attachAlarms lib).alarmHeld := by
      rw [heq]
      rfl
    rw [hw, ha, hntpKept, hweatherKept, halarmsKept]

/-! ## what a life keeps -/

/-- the clients are made anew -/
def Happening.isAttach : Happening → Bool
  | step .attach => true
  | _ => false

/-- The objects that were made are those that were given up and those that are held. If the clients were
made once at most, they were made in the order of the services, and are given up in the reverse order. -/
def Balanced (c : Clock σ τ) (attaches : Nat) : Prop :=
  ∃ made destroyed, Owns made destroyed c.held c.native ∧
    (attaches = 0 → made = []) ∧
    (attaches ≤ 1 → made = (destroyed ++ c.held).reverse ∧
      (made.map (·.1)).Sublist [.ntp, .weather, .alarms])

theorem services_objects (service : Service) (handle? : Option Handle) :
    ((objects service handle?).map (·.1)).Sublist [service] := by
  cases handle? with
  | none => exact List.nil_sublist _
  | some handle => exact List.Sublist.refl _

theorem reverse_objects (service : Service) (handle? : Option Handle) :
    (objects service handle?).reverse = objects service handle? := by
  cases handle? with
  | none => rfl
  | some handle => rfl

namespace Balanced

variable {attaches : Nat}

theorem new (config : Config) (disk : Disk) (state : σ) (surface : τ) :
    Balanced (Clock.new config disk (Session.new state) surface) 0 :=
  ⟨[], [], .new state, fun _ => rfl, fun _ => ⟨rfl, List.nil_sublist _⟩⟩

theorem idle (h : Balanced c attaches) (hc : UsesHeld c c') : Balanced c' attaches := by
  obtain ⟨made, destroyed, howns, hnone, horder⟩ := h
  refine ⟨made, destroyed, hc.owns howns, hnone, ?_⟩
  rw [hc.held]
  exact horder

theorem attach (h : Balanced c attaches) : Balanced (c.attach lib) (attaches + 1) := by
  obtain ⟨made, destroyed, howns, hnone, -⟩ := h
  obtain ⟨new, old, howns', hfirst⟩ := attach_owns lib howns
  refine ⟨made ++ new, destroyed ++ old, howns', nofun, ?_⟩
  intro hone
  obtain rfl : made = [] := hnone (by omega)
  have hempty : destroyed ++ c.held = [] := howns.balance.eq_nil
  obtain ⟨rfl, hheld⟩ := List.append_eq_nil_iff.mp hempty
  obtain ⟨rfl, rfl⟩ := hfirst hheld
  rw [List.nil_append, List.nil_append, List.nil_append]
  constructor
  · rw [held, List.reverse_append, List.reverse_append, ntpHeld, weatherHeld, alarmHeld, reverse_objects,
      reverse_objects, reverse_objects, List.append_assoc]
  · rw [List.map_append, List.map_append]
    exact (services_objects .ntp _).append ((services_objects .weather _).append
      (services_objects .alarms _))

/-- all is given up -/
theorem release (h : Balanced c attaches) : ∃ made destroyed,
    Owns made destroyed [] (c.release lib).native ∧ (attaches = 0 → made = []) ∧
    (attaches ≤ 1 → made = destroyed.reverse ∧
      (made.map (·.1)).Sublist [.ntp, .weather, .alarms]) := by
  obtain ⟨made, destroyed, howns, hnone, horder⟩ := h
  exact ⟨made, destroyed ++ c.held, release_owns lib howns, hnone, horder⟩

theorem apply (S : Surface τ ε) (h : Balanced c attaches) (e : Happening) :
    Balanced (e.apply lib S c) (attaches + if e.isAttach then 1 else 0) := by
  cases e with
  | step s =>
    cases s with
    | attach => exact h.attach lib
    | start =>
      obtain ⟨host, heq⟩ := c.start_eq S
      refine h.idle ?_
      show UsesHeld c (c.start S).2
      rw [heq]
      exact ⟨rfl, .refl _ _⟩
    | event e =>
      obtain ⟨host, heq⟩ := c.handleEvent_eq S e
      refine h.idle ?_
      show UsesHeld c (c.handleEvent S e).2
      rw [heq]
      exact ⟨rfl, .refl _ _⟩
    | shutdown =>
      obtain ⟨made, destroyed, howns, hnone, horder⟩ := h.release lib
      refine ⟨made, destroyed, howns, hnone, ?_⟩
      show attaches ≤ 1 → made = (destroyed ++ []).reverse ∧ _
      rw [List.append_nil]
      exact horder
    | tick now offset => exact h.idle (tick_usesHeld lib S now offset c)
  | ntpReply r => exact h.idle ⟨held_receiveNtp c r, .refl _ _⟩
  | weatherReply r => exact h.idle ⟨held_receiveWeather c r, .refl _ _⟩

end Balanced

end Steps

/-! ## whole lives -/

/-- how the life of a clock ends -/
inductive Ending where
  /-- the window is closed, or fails to close, and the clients are given up -/
  | shutdown
  /-- the clock is dropped without that -/
  | drop

def Ending.apply (lib : Library σ) (S : Surface τ ε) (c : Clock σ τ) : Ending → Clock σ τ
  | shutdown => (c.shutdown lib S).2
  | drop => c.release lib

/-- how often the clients are made anew in a life -/
theorem gather_attaches (lib : Library σ) (S : Surface τ ε) (c : Clock σ τ) (n : Nat) (life : List Happening) :
    gather lib S (fun _ n e => n + if e.isAttach then 1 else 0) c n life
      = n + life.countP Happening.isAttach := by
  induction life generalizing c n with
  | nil => rfl
  | cons e life ih =>
    rw [gather, ih, List.countP_cons]
    omega

/-- **Every object that was made is destroyed once in the end, and none is used after that.** A null handle
is no object, and is not destroyed. If the clients were made once at most, they are given up in the reverse
order: the scheduler, the weather client and the time client. -/
theorem handles_released (lib : Library σ) (S : Surface τ ε) (config : Config) (disk : Disk)
    (state : σ) (surface : τ) (life : List Happening) (ending : Ending) :
    let c := ending.apply lib S ((Clock.new config disk (Session.new state) surface).live lib S life)
    let log := c.native.log
    (made log).Nodup ∧ (destroyed log).Perm (made log) ∧ Lawful log ∧
    (life.countP Happening.isAttach ≤ 1 →
      destroyed log = (made log).reverse ∧
      ((destroyed log).map (·.1)).Sublist [.alarms, .weather, .ntp]) := by
  intro c log
  have h : Balanced ((Clock.new config disk (Session.new state) surface).live lib S life) _ :=
    gather_keeps lib S (fun _ n e => n + if e.isAttach then 1 else 0)
      (Balanced.new config disk state surface) fun _ _ e _ hc => hc.apply lib S e
  rw [gather_attaches, Nat.zero_add] at h
  have hend : c.native = (((Clock.new config disk (Session.new state) surface).live lib S life).release
      lib).native := by
    cases ending with
    | shutdown => rfl
    | drop => rfl
  obtain ⟨objects, given, howns, -, horder⟩ := h.release lib
  rw [← hend] at howns
  have hmade : made log = objects := howns.made_eq
  have hgiven : destroyed log = given := howns.destroyed_eq
  rw [hmade, hgiven]
  refine ⟨howns.distinct, ?_, howns.lawful, ?_⟩
  · have hbalance := howns.balance
    rwa [List.append_nil] at hbalance
  · intro hone
    obtain ⟨hreverse, hservices⟩ := horder hone
    constructor
    · rw [hreverse, List.reverse_reverse]
    · have hsub := hservices.reverse
      rw [hreverse, List.map_reverse, List.reverse_reverse] at hsub
      exact hsub

end Clock

end DeskClock
