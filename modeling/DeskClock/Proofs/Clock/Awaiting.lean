import DeskClock.Proofs.Clock.Handles
import DeskClock.Proofs.Clock.Operations

/-!
# what a client waits for

* `Exchange.own`        the events of a service that are seen in the calls on one object;
* `Pending`             the latest request of an object was accepted, and no reply has come since;
* `Clock.View`          a service from outside: the object of its client, its progress and its events;
                        `ntpView`, `weatherView`;
* `View.Attended`       a service that waits has a client whose own request is pending;
* `View.Forlorn`        a service that waits, with no client that has ever had a request accepted;
* `View.Idles`, `View.Turns`   what a step does to a service: nothing, or a turn of its client;
* `ntpView_tick`, `weatherView_tick`   a tick is a turn of each client;
* `ntpView_attach`, `weatherView_attach`   an attach lets a service idle, and leaves no client that
                        anything was asked of.
-/

namespace DeskClock

open Native Event Exchange

variable {σ τ ε ρ : Type}

/-! ## the calls on one object -/

namespace Native

/-- the events that are seen in the calls on one object -/
def Exchange.own (see : Exchange → List (Event ρ)) (o : Object) (e : Exchange) : List (Event ρ) :=
  if e.1.deed = .uses o.1 o.2 then see e else []

/-- the latest request of an object was accepted, and no reply has come since -/
def Pending (see : Exchange → List (Event ρ)) (o : Object) (s : Session σ) : Prop :=
  latest? (s.trace (own see o)) = some (true, [])

variable {see : Exchange → List (Event ρ)} {o : Object} {s s' : Session σ}

theorem own_seesOperations (hsee : SeesOperations see) (o : Object) : SeesOperations (own see o) := by
  intro r answer hr
  unfold own
  split
  · exact hsee r answer hr
  · rfl

/-- calls on an object, or on none, are all its own -/
theorem Session.Extends.trace_own (h : s.Extends (fun d => d = .sets ∨ d = .uses o.1 o.2) s')
    (hsee : SeesOperations see) : ∃ new, s'.trace see = s.trace see ++ new ∧
      s'.trace (own see o) = s.trace (own see o) ++ new := by
  obtain ⟨calls, hlog, hcalls⟩ := h
  have hown : calls.flatMap (own see o) = calls.flatMap see := by
    apply List.flatMap_congr
    intro e he
    unfold own
    split
    · rfl
    · next hother =>
      have hsets : e.1.deed = .sets := (hcalls e he).resolve_right hother
      have hupkeep : e.1.deed.IsUpkeep := by
        rw [hsets]
        trivial
      exact (hsee e.1 e.2 hupkeep.isOperation_eq_false).symm
  refine ⟨calls.flatMap see, ?_, ?_⟩
  · rw [Session.trace, hlog, List.flatMap_append]
    rfl
  · rw [Session.trace, hlog, List.flatMap_append, hown]
    rfl

/-- calls on other objects are not its own -/
theorem Session.Extends.trace_own_other {deeds : Deed → Prop} (h : s.Extends deeds s')
    (ho : ¬ deeds (.uses o.1 o.2)) : s'.trace (own see o) = s.trace (own see o) :=
  h.trace fun e hdeed => if_neg fun huses : e.1.deed = .uses o.1 o.2 => ho (huses ▸ hdeed)

/-- nothing was asked of an object that was not made -/
theorem Owns.trace_own {made destroyed held : List Object} (h : Owns made destroyed held s)
    (ho : o ∉ made) : s.trace (own see o) = [] := by
  apply List.flatMap_eq_nil_iff.mpr
  intro e he
  refine if_neg fun huses => ho ?_
  obtain ⟨before, after, hlog⟩ := List.append_of_mem he
  have hobject : e.1.deed.object? = some o := by
    rw [huses]
    rfl
  have hbefore : o ∈ Native.made before := (h.lawful before e after hlog o hobject).1
  rw [← h.made_eq, hlog]
  unfold Native.made
  rw [List.filterMap_append]
  exact List.mem_append_left _ hbefore

end Native

/-- a reply comes only after a request was accepted -/
def RepliesFollow (es : List (Event ρ)) : Prop :=
  ∀ before r after, es = before ++ reply r :: after → attempt true ∈ before

/-- the latest attempt is among what has happened -/
theorem Event.attempt_mem_of_latest? {es : List (Event ρ)} {accepted : Bool} {replies : List ρ}
    (h : latest? es = some (accepted, replies)) : attempt accepted ∈ es := by
  induction es using List.reverseRecOn generalizing replies with
  | nil => cases h
  | append_singleton es e ih =>
    cases e with
    | attempt accepted' =>
      rw [latest?_attempt] at h
      obtain rfl : accepted' = accepted := congrArg Prod.fst (Option.some.inj h)
      simp
    | reply r =>
      rw [latest?_reply] at h
      obtain ⟨⟨accepted', replies'⟩, hl, heq⟩ := Option.map_eq_some_iff.mp h
      obtain rfl : accepted' = accepted := congrArg Prod.fst heq
      exact List.mem_append_left _ (ih hl)

/-! ## a turn of a client -/

namespace Turn

variable {t : Turn ρ} {ok : ρ → Bool} {kept : Event ρ → Bool} {interval : Duration} {now : Instant}
  {p : Progress} {es : List (Event ρ)} {hasClient : Bool}

/-- a service that waits after a turn waits for a request that was accepted in it or before it -/
theorem latest?_of_progress (hkept : ∀ e ∈ t.events, kept e = false → e = attempt false)
    (hp : p.state = .inProcess → latest? es = some (true, []))
    (h : (t.progress ok now p).state = .inProcess) :
    latest? (es ++ t.events.filter kept) = some (true, []) := by
  unfold progress at h
  unfold events at hkept ⊢
  cases ha : t.attempt? with
  | none =>
    rw [ha] at h
    have hnone : t.replies = [] := by
      by_contra hne
      exact afterReplies_ne_inProcess hne h
    rw [hnone] at h ⊢
    show latest? (es ++ []) = _
    rw [List.append_nil]
    exact hp h
  | some accepted =>
    rw [ha] at h hkept
    cases accepted with
    | false => cases h
    | true =>
      -- a request that was accepted is not among those that are left out
      have hlast : kept (attempt true) = true := by
        by_contra hleft
        cases hkept (attempt true) (by simp) (Bool.eq_false_of_not_eq_true hleft)
      have hend : (t.replies.map reply ++ ((some true).map attempt).toList).filter kept
          = (t.replies.map reply).filter kept ++ [attempt true] := by
        rw [List.filter_append]
        simp [hlast]
      rw [hend, ← List.append_assoc]
      exact latest?_attempt _ true

/-- nothing happens to a service that waits, as long as its client has no request accepted -/
theorem eq_none_of_forlorn (hf : t.Follows ok interval now hasClient p) (hp : p.state = .inProcess)
    (hkept : ∀ e ∈ t.events, kept e = false → e = attempt false) (hnever : attempt true ∉ es)
    (hfollow : RepliesFollow (es ++ t.events.filter kept)) : t = Turn.none := by
  have hreplies : t.replies = [] := by
    cases hr : t.replies with
    | nil => rfl
    | cons r replies =>
      exfalso
      have hmem : reply r ∈ t.events := by simp [events, hr]
      have hfirst : kept (reply r) = true := by
        by_contra hleft
        cases hkept _ hmem (Bool.eq_false_of_not_eq_true hleft)
      apply hnever
      refine hfollow es r ((replies.map reply ++ (t.attempt?.map attempt).toList).filter kept) ?_
      rw [events, hr, List.map_cons, List.cons_append, List.filter_cons_of_pos hfirst]
  have hattempt : t.attempt? = .none := by
    cases ha : t.attempt? with
    | none => rfl
    | some accepted =>
      exfalso
      have hnot := (hf.attempt.mp (by rw [ha]; rfl)).2.1
      rw [hreplies] at hnot
      exact hnot hp
  show Turn.mk t.replies t.attempt? = ⟨[], .none⟩
  rw [hreplies, hattempt]

end Turn

namespace Clock

/-! ## services from outside -/

/-- a service from outside: the handle of its client, its progress, and its events in the calls -/
structure View (σ τ ρ : Type) where
  service : Service
  handle? : Clock σ τ → Option Handle
  progress : Clock σ τ → Progress
  see : Exchange → List (Event ρ)
  ok : ρ → Bool

def ntpView : View σ τ NtpReply where
  service := .ntp
  handle? c := c.ntp.client.map (·.handle)
  progress := ntpProgress
  see := ntpEvents
  ok := NtpReply.succeeds

def weatherView : View σ τ WeatherReply where
  service := .weather
  handle? c := c.weather.client.map (·.handle)
  progress := weatherProgress
  see := weatherEvents
  ok := WeatherReply.succeeds

namespace View

variable (v : View σ τ ρ) (c c' : Clock σ τ)

/-- the events of an object of the service -/
def trace (handle : Handle) : List (Event ρ) := c.native.trace (own v.see (v.service, handle))

/-- a service that waits has a client whose own request is pending -/
def Attended : Prop :=
  (v.progress c).state = .inProcess →
    ∃ handle, v.handle? c = some handle ∧ Pending v.see (v.service, handle) c.native

/-- a service that waits, without a client that has ever had a request accepted -/
structure Forlorn : Prop where
  waits : (v.progress c).state = .inProcess
  never : ∀ handle, v.handle? c = some handle → attempt true ∉ v.trace c handle

/-- nothing happens to a service -/
structure Idles : Prop where
  progress : v.progress c' = v.progress c
  trace : ∀ handle, v.trace c' handle = v.trace c handle

/-- the client of a service has a turn; a refused attempt may be unseen -/
structure Turns : Prop where
  handle : v.handle? c' = v.handle? c
  turn : ∃ (t : Turn ρ) (now : Instant) (interval : Duration) (kept : Event ρ → Bool),
    t.Follows v.ok interval now (v.handle? c).isSome (v.progress c) ∧
    (v.handle? c = none → t.replies = []) ∧
    (∀ e ∈ t.events, kept e = false → e = attempt false) ∧
    (v.progress c').state = (t.progress v.ok now (v.progress c)).state ∧
    ∀ handle, v.handle? c = some handle →
      v.trace c' handle = v.trace c handle ++ t.events.filter kept

variable {v c c'}

theorem Attended.idles (h : v.Attended c) (hidle : v.Idles c c') (hhandle : v.handle? c' = v.handle? c) :
    v.Attended c' := by
  intro hwaits
  rw [hidle.progress] at hwaits
  obtain ⟨handle, hclient, hpending⟩ := h hwaits
  refine ⟨handle, hhandle.trans hclient, ?_⟩
  show latest? (v.trace c' handle) = _
  rw [hidle.trace]
  exact hpending

/-- **A turn goes on waiting for the own request of a client.** -/
theorem Attended.turns (h : v.Attended c) (hturn : v.Turns c c') : v.Attended c' := by
  obtain ⟨hhandle, t, now, interval, kept, hf, hnone, hkept, hstate, htrace⟩ := hturn
  intro hwaits
  rw [hstate] at hwaits
  cases hclient : v.handle? c with
  | none =>
    -- without a client nothing is asked, so that the service waited before
    have hattempt : t.attempt? = none := by
      have hno := hf.attempt.mp.mt (by simp [hclient])
      simpa using hno
    unfold Turn.progress at hwaits
    rw [hattempt, hnone hclient] at hwaits
    obtain ⟨handle, hsome, -⟩ := h hwaits
    cases hclient.symm.trans hsome
  | some handle =>
    refine ⟨handle, hhandle.trans hclient, ?_⟩
    show latest? (v.trace c' handle) = _
    rw [htrace handle hclient]
    refine Turn.latest?_of_progress hkept (fun hbefore => ?_) hwaits
    obtain ⟨handle', hsome, hpending⟩ := h hbefore
    obtain rfl : handle = handle' := Option.some.inj (hclient.symm.trans hsome)
    exact hpending

theorem Forlorn.idles (h : v.Forlorn c) (hidle : v.Idles c c')
    (hhandle : ∀ handle, v.handle? c' = some handle →
      v.handle? c = some handle ∨ v.trace c' handle = []) : v.Forlorn c' := by
  refine ⟨by rw [hidle.progress]; exact h.waits, fun handle hclient => ?_⟩
  rcases hhandle handle hclient with hsame | hnew
  · rw [hidle.trace]
    exact h.never handle hsame
  · rw [hnew]
    exact List.not_mem_nil

/-- **Nothing comes of waiting with a client that no request was accepted of**, if replies follow
requests. -/
theorem Forlorn.turns (h : v.Forlorn c) (hturn : v.Turns c c')
    (hfollow : ∀ handle, RepliesFollow (v.trace c' handle)) : v.Forlorn c' := by
  obtain ⟨hhandle, t, now, interval, kept, hf, hnone, hkept, hstate, htrace⟩ := hturn
  have ht : t = Turn.none := by
    cases hclient : v.handle? c with
    | none =>
      have hattempt : t.attempt? = none := by
        have hno := hf.attempt.mp.mt (by simp [hclient])
        simpa using hno
      show Turn.mk t.replies t.attempt? = ⟨[], .none⟩
      rw [hnone hclient, hattempt]
    | some handle =>
      have hreplies := hfollow handle
      rw [htrace handle hclient] at hreplies
      exact Turn.eq_none_of_forlorn hf h.waits hkept (h.never handle hclient) hreplies
  subst ht
  refine ⟨hstate.trans h.waits, fun handle hclient => ?_⟩
  rw [hhandle] at hclient
  rw [htrace handle hclient]
  show attempt true ∉ v.trace c handle ++ []
  rw [List.append_nil]
  exact h.never handle hclient

theorem Turns.idles {c'' : Clock σ τ} (h : v.Turns c c') (hidle : v.Idles c' c'')
    (hhandle : v.handle? c'' = v.handle? c') : v.Turns c c'' := by
  obtain ⟨hsame, t, now, interval, kept, hf, hnone, hkept, hstate, htrace⟩ := h
  refine ⟨hhandle.trans hsame, t, now, interval, kept, hf, hnone, hkept, ?_, fun handle hclient => ?_⟩
  · rw [hidle.progress]
    exact hstate
  · rw [hidle.trace]
    exact htrace handle hclient

theorem Idles.turns {c'' : Clock σ τ} (hidle : v.Idles c c') (hhandle : v.handle? c' = v.handle? c)
    (h : v.Turns c' c'') : v.Turns c c'' := by
  obtain ⟨hsame, t, now, interval, kept, hf, hnone, hkept, hstate, htrace⟩ := h
  rw [hhandle, hidle.progress] at hf
  rw [hhandle] at hnone hsame htrace
  rw [hidle.progress] at hstate
  refine ⟨hsame, t, now, interval, kept, hf, hnone, hkept, hstate, fun handle hclient => ?_⟩
  rw [← hidle.trace]
  exact htrace handle hclient

/-- a forlorn service is not attended -/
theorem Forlorn.not_attended (h : v.Forlorn c) : ¬ v.Attended c := by
  intro hattended
  obtain ⟨handle, hclient, hpending⟩ := hattended h.waits
  exact h.never handle hclient (attempt_mem_of_latest? hpending)

end View

/-! ## steps -/

section Steps

variable (lib : Library σ) (S : Surface τ ε) (c : Clock σ τ)

/-- a step that does no harm lets the services idle -/
theorem Harmless.idles {c c' : Clock σ τ} (h : Harmless c c') :
    ntpView.Idles c c' ∧ weatherView.Idles c c' :=
  ⟨⟨h.1.ntp, fun _ => h.1.trace (own_seesOperations ntpEvents_seesOperations _)⟩,
   ⟨h.1.weather, fun _ => h.1.trace (own_seesOperations weatherEvents_seesOperations _)⟩⟩

/-- a round of the time service is a turn of its client -/
theorem ntpView_pumpNtp (hq : c.Collected) (now : Instant) : ntpView.Turns c (c.pumpNtp lib now) := by
  obtain ⟨_, _, _, hpump, hhandle, hcalls⟩ := pumpNtp_calls lib now c
  obtain ⟨_, _, hround, htrace, -⟩ := pumpNtp_turn lib now hq
  refine ⟨?_, c.ntpTurn lib now, now, c.config.ntp.checkInterval, reaches c.config.ntp.server, ?_, ?_,
    ntpTurn_unreached lib now c, ?_, ?_⟩
  · rw [hpump]
    exact hhandle
  · have hsome : (ntpView.handle? c).isSome = c.ntp.client.isSome := Option.isSome_map
    rw [hsome]
    exact ntpTurn_follows lib now hq
  · intro hnone
    show awaited c.ntp.client _ _ = []
    rw [Option.map_eq_none_iff.mp hnone]
    rfl
  · rw [hround]
    rfl
  · intro handle hclient
    obtain ⟨client, hc, rfl⟩ := Option.map_eq_some_iff.mp hclient
    have hown : c.native.Extends (fun d => d = .sets ∨ d = .uses .ntp client.handle)
        (c.pumpNtp lib now).native := by
      rw [hpump]
      refine hcalls.mono ?_
      rintro d (hsets | ⟨client', hc', huses⟩)
      · exact .inl hsets
      · obtain rfl : client = client' := Option.some.inj (hc.symm.trans hc')
        exact .inr huses
    obtain ⟨new, hsee, hnew⟩ :=
      hown.trace_own (o := (.ntp, client.handle)) ntpEvents_seesOperations
    rw [hround] at hsee
    obtain rfl := List.append_cancel_left (hsee.symm.trans htrace)
    exact hnew

/-- a round of the weather service is a turn of its client -/
theorem weatherView_pumpWeather (hq : c.Collected) (now : Instant) :
    weatherView.Turns c (c.pumpWeather lib now) := by
  obtain ⟨_, _, _, hpump, hhandle, hcalls⟩ := pumpWeather_calls lib now c
  obtain ⟨_, _, _, hround, htrace, -⟩ := pumpWeather_turn lib now hq
  refine ⟨?_, c.weatherTurn lib now, now, c.config.weather.refreshInterval, fun _ => true, ?_, ?_,
    fun _ _ hleft => absurd hleft.symm Bool.false_ne_true, ?_, ?_⟩
  · rw [hpump]
    exact hhandle
  · have hsome : (weatherView.handle? c).isSome = c.weather.client.isSome := Option.isSome_map
    rw [hsome]
    exact weatherTurn_follows lib now hq
  · intro hnone
    show awaited c.weather.client _ _ = []
    rw [Option.map_eq_none_iff.mp hnone]
    rfl
  · rw [hround]
    rfl
  · intro handle hclient
    obtain ⟨client, hc, rfl⟩ := Option.map_eq_some_iff.mp hclient
    have hown : c.native.Extends (fun d => d = .sets ∨ d = .uses .weather client.handle)
        (c.pumpWeather lib now).native := by
      rw [hpump]
      refine hcalls.mono ?_
      rintro d ⟨client', hc', huses⟩
      obtain rfl : client = client' := Option.some.inj (hc.symm.trans hc')
      exact .inr huses
    obtain ⟨new, hsee, hnew⟩ :=
      hown.trace_own (o := (.weather, client.handle)) weatherEvents_seesOperations
    rw [hround] at hsee
    obtain rfl := List.append_cancel_left (hsee.symm.trans htrace)
    rw [List.filter_eq_self.mpr fun _ _ => rfl]
    exact hnew

theorem ntpView_pumpWeather (now : Instant) : ntpView.Idles c (c.pumpWeather lib now) := by
  obtain ⟨_, _, _, hpump, -, hcalls⟩ := pumpWeather_calls lib now c
  rw [hpump]
  refine ⟨rfl, fun handle => hcalls.trace_own_other ?_⟩
  rintro ⟨client, -, h⟩
  cases h

theorem weatherView_pumpNtp (now : Instant) : weatherView.Idles c (c.pumpNtp lib now) := by
  obtain ⟨_, _, _, hpump, -, hcalls⟩ := pumpNtp_calls lib now c
  rw [hpump]
  refine ⟨rfl, fun handle => hcalls.trace_own_other ?_⟩
  rintro (h | ⟨client, -, h⟩)
  · cases h
  · cases h

/-- what follows the rounds of a tick is about the alarms and the window -/
theorem tick_rest (now : Instant) (offset : Int) :
    let c' := (c.pumpNtp lib now).pumpWeather lib now
    Harmless c' (c.tick lib S now offset).2 ∧ (c.tick lib S now offset).2.ntp = c'.ntp ∧
      (c.tick lib S now offset).2.weather = c'.weather := by
  intro c'
  obtain ⟨host, htick⟩ := c.tick_eq lib S now offset
  obtain ⟨_, _, _, halarms, -⟩ := refreshAlarm_calls lib now c'
  have hpump : c.pump lib now = c'.refreshAlarm lib now := rfl
  have hharmless : Harmless c' (c'.refreshAlarm lib now) := refreshAlarm_harmless lib c' now
  rw [htick, hpump]
  refine ⟨hharmless.trans (host_harmless _ host), ?_, ?_⟩
  · rw [halarms]
  · rw [halarms]

theorem pumpNtp_collected (hq : c.Collected) (now : Instant) : (c.pumpNtp lib now).Collected := by
  obtain ⟨_, _, hround, -⟩ := pumpNtp_turn lib now hq
  rw [hround]
  exact ⟨hq.ntp, hq.weather⟩

/-- **A tick is a turn of the time client** -/
theorem ntpView_tick (hq : c.Collected) (now : Instant) (offset : Int) :
    ntpView.Turns c (c.tick lib S now offset).2 := by
  obtain ⟨hrest, hntp, -⟩ := tick_rest lib S c now offset
  have hround : ntpView.Turns c ((c.pumpNtp lib now).pumpWeather lib now) := by
    refine (ntpView_pumpNtp lib c hq now).idles (ntpView_pumpWeather lib _ now) ?_
    obtain ⟨_, _, _, hpump, -⟩ := pumpWeather_calls lib now (c.pumpNtp lib now)
    rw [hpump]
    rfl
  refine hround.idles hrest.idles.1 ?_
  show (c.tick lib S now offset).2.ntp.client.map _ = _
  rw [hntp]
  rfl

/-- **and of the weather client.** -/
theorem weatherView_tick (hq : c.Collected) (now : Instant) (offset : Int) :
    weatherView.Turns c (c.tick lib S now offset).2 := by
  obtain ⟨hrest, -, hweather⟩ := tick_rest lib S c now offset
  have hround : weatherView.Turns c ((c.pumpNtp lib now).pumpWeather lib now) := by
    refine (weatherView_pumpNtp lib c now).turns ?_
      (weatherView_pumpWeather lib _ (pumpNtp_collected lib c hq now) now)
    obtain ⟨_, _, _, hpump, -⟩ := pumpNtp_calls lib now c
    rw [hpump]
    rfl
  refine hround.idles hrest.idles.2 ?_
  show (c.tick lib S now offset).2.weather.client.map _ = _
  rw [hweather]
  rfl

/-! ## an attach -/

/-- a client that has just been made has the next handle -/
theorem handle_ntpCreate {s : Session σ} {client : NtpClient}
    (h : (NtpClient.create lib s).1.toOption = some client) : client.handle = s.nextHandle .ntp := by
  unfold NtpClient.create at h
  dsimp only at h
  split at h
  · cases h
    rfl
  · cases h

theorem handle_weatherCreate {key : String} {unit : TemperatureUnit} {s : Session σ}
    {client : WeatherClient} (h : (WeatherClient.create lib key unit s).1.toOption = some client) :
    client.handle = s.nextHandle .weather := by
  unfold WeatherClient.create at h
  split at h
  · cases h
  · dsimp only at h
    split at h
    · cases h
      rfl
    · cases h

/-- the weather has no client unless it is enabled -/
def Spared (c : Clock σ τ) : Prop := c.config.weather.isEnabled = false → c.weather.client = none

variable {made destroyed : List Object} {c}

/-- **An attach leaves no time client that anything was asked of**, and goes on to wait. -/
theorem ntpView_attach (h : Owns made destroyed c.held c.native) :
    ntpView.Idles c (c.attach lib) ∧
    ∀ handle, ntpView.handle? (c.attach lib) = some handle → ntpView.trace (c.attach lib) handle = [] := by
  have hidle := (attach_harmless lib c).idles.1
  refine ⟨hidle, fun handle hclient => ?_⟩
  rw [hidle.trace]
  have hsync := syncOnStart_usesHeld lib { c with status := none }
  generalize hc₁ : ({ c with status := none } : Clock σ τ).syncOnStart lib = c₁ at hsync
  have howns : Owns made destroyed c₁.held c₁.native := hsync.owns h
  obtain ⟨_, _, hweather, -, -⟩ := attachWeather_eq lib (c₁.attachNtp lib)
  obtain ⟨_, _, halarms, -⟩ := attachAlarms_eq lib ((c₁.attachNtp lib).attachWeather lib)
  have hmade : (c.attach lib).ntp.client = (NtpClient.create lib c₁.native).1.toOption := by
    unfold attach
    dsimp only
    rw [hc₁, halarms, hweather]
    rfl
  have hnext : handle = c₁.native.nextHandle .ntp := by
    obtain ⟨client, hc, rfl⟩ := Option.map_eq_some_iff.mp hclient
    exact handle_ntpCreate lib (hmade.symm.trans hc)
  refine h.trace_own ?_
  rw [hnext]
  exact howns.nextHandle_not_mem .ntp

/-- **It leaves no such weather client either**, whether a new one is made or not. -/
theorem weatherView_attach (h : Owns made destroyed c.held c.native) (hspared : c.Spared) :
    weatherView.Idles c (c.attach lib) ∧
    ∀ handle, weatherView.handle? (c.attach lib) = some handle →
      weatherView.trace (c.attach lib) handle = [] := by
  have hidle := (attach_harmless lib c).idles.2
  refine ⟨hidle, fun handle hclient => ?_⟩
  rw [hidle.trace]
  obtain ⟨_, _, hsynced⟩ := syncOnStart_eq lib { c with status := none }
  have hsync := syncOnStart_usesHeld lib { c with status := none }
  generalize hc₁ : ({ c with status := none } : Clock σ τ).syncOnStart lib = c₁ at hsync hsynced
  have hntpOwns := attachNtp_owns lib (hsync.owns h)
  obtain ⟨_, _, hntp, -, -⟩ := attachNtp_eq lib c₁
  obtain ⟨_, _, halarms, -⟩ := attachAlarms_eq lib ((c₁.attachNtp lib).attachWeather lib)
  have hmade : (c.attach lib).weather.client = ((c₁.attachNtp lib).attachWeather lib).weather.client := by
    unfold attach
    dsimp only
    rw [hc₁, halarms]
  have hconfig : (c₁.attachNtp lib).config = c.config := by
    rw [hntp, hsynced]
  obtain ⟨client, hc, rfl⟩ := Option.map_eq_some_iff.mp hclient
  rw [hmade] at hc
  unfold attachWeather at hc
  cases henabled : c.config.weather.isEnabled with
  | false =>
    rw [hconfig, henabled, if_neg Bool.false_ne_true, hntp, hsynced] at hc
    cases (hspared henabled).symm.trans hc
  | true =>
    rw [hconfig, henabled, if_pos rfl] at hc
    have hnext : client.handle = (c₁.attachNtp lib).native.nextHandle .weather :=
      handle_weatherCreate lib hc
    refine h.trace_own fun hmem => ?_
    rw [hnext] at hmem
    exact hntpOwns.nextHandle_not_mem .weather (List.mem_append_left _ hmem)

theorem Spared.apply (hspared : c.Spared) (step : Step) : (step.apply lib S c).Spared := by
  cases step with
  | attach =>
    obtain ⟨_, _, hsynced⟩ := syncOnStart_eq lib { c with status := none }
    obtain ⟨_, _, weatherClient, _, hclients, -, hmade, -⟩ :=
      attachClients_eq lib ({ c with status := none }.syncOnStart lib)
    show (c.attach lib).Spared
    unfold attach
    dsimp only
    rw [hclients, hsynced]
    intro hdisabled
    rw [hsynced] at hmade
    have hdisabled' : c.config.weather.isEnabled = false := hdisabled
    dsimp only at hmade ⊢
    rw [hdisabled', if_neg Bool.false_ne_true] at hmade
    exact hmade.trans (hspared hdisabled')
  | start =>
    obtain ⟨host, hstart⟩ := c.start_eq S
    show (c.start S).2.Spared
    rw [hstart]
    exact hspared
  | event e =>
    obtain ⟨host, hevent⟩ := c.handleEvent_eq S e
    show (c.handleEvent S e).2.Spared
    rw [hevent]
    exact hspared
  | shutdown => exact fun _ => rfl
  | tick now offset =>
    obtain ⟨host, htick⟩ := c.tick_eq lib S now offset
    obtain ⟨_, _, _, hntp, -⟩ := pumpNtp_calls lib now c
    obtain ⟨_, _, weather, hweather, hhandle, -⟩ := pumpWeather_calls lib now (c.pumpNtp lib now)
    obtain ⟨_, _, _, halarms, -⟩ :=
      refreshAlarm_calls lib now ((c.pumpNtp lib now).pumpWeather lib now)
    show (c.tick lib S now offset).2.Spared
    rw [htick, pump, halarms, hweather]
    rw [hntp] at hhandle ⊢
    intro hdisabled
    have hnone : c.weather.client = none := hspared hdisabled
    dsimp only at hhandle ⊢
    rw [hnone] at hhandle
    exact Option.map_eq_none_iff.mp hhandle

end Steps

end Clock

end DeskClock
