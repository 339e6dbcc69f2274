import DeskClock.Proofs.Clock.Run

/-!
# the rounds of the services

* `Exchange.ntpEvents`, `Exchange.weatherEvents`   the events of a service that are seen in the calls;
* `Clock.ntpTurn`, `Clock.weatherTurn`     what happens to a service in a tick, as the library sees it;
* `Clock.ntpRound`, `Clock.weatherRound`   what the clock does about it: the updates it handles, and the
                                           request it starts;
* `ntpRound_follows`, `weatherRound_follows`   it is what may happen to a service;
* `pumpNtp_round`, `pumpWeather_round`     what it changes, and what is seen of it;
* `ntpTurn_follows`, `pumpNtp_turn`, `weatherTurn_follows`, `pumpWeather_turn`   the same in terms of the
                                           turn, if no update has waited.
-/

namespace DeskClock

open Native Event Exchange

variable {σ τ ε : Type}

/-! ## the events of a service -/

/-- a time request succeeds with the code zero -/
def Native.NtpReply.succeeds (r : NtpReply) : Bool := r.code = 0

/-- a weather request succeeds with the code zero and a record -/
def Native.WeatherReply.succeeds (r : WeatherReply) : Bool := r.code = 0 && r.record.isSome

namespace Native.Exchange

/-- the events of the time service in a call; a reply without a context reaches nobody -/
def ntpEvents : Exchange → List (Event NtpReply)
  | ⟨.ntp (.getTime _ _ _), status⟩ => [.attempt ((status : Int) = 0)]
  | ⟨.ntp (.process _), replies⟩ => ((replies : List NtpReply).filter (·.hasContext)).map .reply
  | _ => []

/-- the events of the weather service in a call -/
def weatherEvents : Exchange → List (Event WeatherReply)
  | ⟨.weather (.getByCity _ _ _), status⟩ => [.attempt ((status : Int) = 0)]
  | ⟨.weather (.process _), replies⟩ =>
    ((replies : List WeatherReply).filter (·.hasContext)).map .reply
  | _ => []

theorem ntpEvents_seesOperations : SeesOperations ntpEvents := by
  intro r answer hr
  match r, hr with
  | .ntp (.create _), _ => rfl
  | .ntp (.destroy _), _ => rfl
  | .ntp (.setTime _ _), _ => rfl
  | .weather (.create _ _ _), _ => rfl
  | .weather (.destroy _), _ => rfl
  | .alarms _, _ => rfl

theorem weatherEvents_seesOperations : SeesOperations weatherEvents := by
  intro r answer hr
  match r, hr with
  | .ntp (.create _), _ => rfl
  | .ntp (.destroy _), _ => rfl
  | .ntp (.setTime _ _), _ => rfl
  | .weather (.create _ _ _), _ => rfl
  | .weather (.destroy _), _ => rfl
  | .alarms _, _ => rfl

end Native.Exchange

/-- an attempt with a zero byte in the name of the server does not reach the library -/
def reaches (server : String) (e : Event NtpReply) : Bool :=
  !e.isAttempt || (terminated? server).isSome

theorem checkStatus_isOk (entry : EntryPoint) (code : Int) :
    (checkStatus entry code).isOk = decide (code = 0) := by
  unfold checkStatus
  split
  · next h => exact (decide_eq_true h).symm
  · next h => exact (decide_eq_false h).symm

/-- an update of the time service succeeds if its request does -/
def NtpUpdate.succeeds (u : NtpUpdate) : Bool := u.result = .success

theorem NtpUpdate.succeeds_ofReply (r : NtpReply) : (ofReply r).succeeds = r.succeeds := by
  show decide (NtpResult.ofCode r.code = .success) = decide (r.code = 0)
  rw [decide_eq_decide, NtpResult.ofCode]
  split_ifs with h1 h2
  · exact ⟨fun _ => h1, fun _ => rfl⟩
  · exact ⟨fun e => (by cases e), fun e => absurd e h1⟩
  · exact ⟨fun e => (by cases e), fun e => absurd e h1⟩

theorem NtpUpdate.succeeds_comp_ofReply : succeeds ∘ ofReply = NtpReply.succeeds :=
  funext succeeds_ofReply

theorem NtpUpdate.resultOf_succeeds (u : NtpUpdate) : resultOf succeeds u =
    if u.result = .success then OperationState.success else .error := by
  unfold resultOf
  exact if_congr decide_eq_true_iff rfl rfl

theorem WeatherOutcome.ofCode_eq_success {code : Int} (h : ofCode code = .ok .success) : code = 0 := by
  unfold ofCode at h
  split at h
  · next hf =>
    cases h
    have hc := List.find?_some hf
    exact (beq_iff_eq.mp hc).symm
  · cases h

namespace WeatherUpdate

/-- the conditions of an update, if it has any -/
def conditions? : WeatherUpdate → Option Conditions
  | .conditions c => some c
  | .failed _ => none
  | .unrecognized _ => none

/-- an update of the weather service succeeds if it has conditions -/
def succeeds (u : WeatherUpdate) : Bool := u.conditions?.isSome

variable (unit : TemperatureUnit)

/-- a request that succeeds brings the conditions of its record, any other one none -/
theorem conditions?_ofReply (r : WeatherReply) : (ofReply unit r).conditions? =
    if r.code = 0 then r.record.map (·.conditions unit) else none := by
  unfold ofReply
  split
  · next hcode =>
    rw [if_pos (WeatherOutcome.ofCode_eq_success hcode)]
    cases r.record with
    | some record => rfl
    | none => rfl
  · next outcome hne hcode =>
    have hc : r.code ≠ 0 := by
      intro h0
      rw [h0] at hcode
      exact hne (Except.ok.inj hcode).symm
    rw [if_neg hc]
    rfl
  · next e hcode =>
    have hc : r.code ≠ 0 := by
      intro h0
      rw [h0] at hcode
      cases hcode
    rw [if_neg hc]
    rfl

theorem succeeds_ofReply (r : WeatherReply) : (ofReply unit r).succeeds = r.succeeds := by
  rw [succeeds, conditions?_ofReply, WeatherReply.succeeds]
  by_cases hc : r.code = 0
  · rw [if_pos hc, decide_eq_true hc, Bool.true_and, Option.isSome_map]
  · rw [if_neg hc, decide_eq_false hc]
    rfl

theorem succeeds_comp_ofReply : succeeds ∘ ofReply unit = WeatherReply.succeeds :=
  funext (succeeds_ofReply unit)

end WeatherUpdate

namespace Clock

/-! ## a round of the time service -/

section Ntp

variable (lib : Library σ) (now : Instant) (c : Clock σ τ)

/-- the updates that the time client hands over: those that have waited, and those of new replies -/
def ntpUpdates (c : Clock σ τ) : List NtpUpdate :=
  awaited c.ntp.client c.ntp.state fun client => (client.process lib c.native).1.queue

/-- the replies that reach the time client -/
def ntpReplies (c : Clock σ τ) : List NtpReply :=
  awaited c.ntp.client c.ntp.state fun client =>
    (c.native.ask lib (.ntp (.process client.handle))).1.filter (·.hasContext)

/-- the clock after the ended time requests are handled -/
def collectedNtp (c : Clock σ τ) : Clock σ τ :=
  match c.ntp.client with
  | some client => if c.ntp.state = .inProcess then c.collectNtp lib now client else c
  | none => c

/-- the time client starts a request: whether it is accepted -/
def ntpAttempt? (c : Clock σ τ) : Option Bool :=
  attempted? c.ntp.client c.ntpProgress c.config.ntp.checkInterval now fun client =>
    (client.getTime lib c.config.ntp.server c.config.ntp.timeout c.native).1.isOk

/-- what happens to the time service in a tick -/
def ntpTurn (c : Clock σ τ) : Turn NtpReply :=
  ⟨c.ntpReplies lib, (c.collectedNtp lib now).ntpAttempt? lib now⟩

/-- what the clock does about the time in a tick: the updates it handles, and the request it starts -/
def ntpRound (c : Clock σ τ) : Turn NtpUpdate :=
  ⟨c.ntpUpdates lib, (c.collectedNtp lib now).ntpAttempt? lib now⟩

/-- the clock after a time request is started, if one is -/
def requestedNtp (c : Clock σ τ) : Clock σ τ :=
  match c.ntp.client with
  | some client =>
    if c.ntp.state ≠ .inProcess ∧ isDue c.ntp.lastAttempt now c.config.ntp.checkInterval then
      c.requestTime lib now client
    else c
  | none => c

theorem pumpNtp_eq : c.pumpNtp lib now = (c.collectedNtp lib now).requestedNtp lib now := by
  unfold pumpNtp collectedNtp
  cases h : c.ntp.client with
  | none =>
    dsimp only
    rw [requestedNtp, h]
  | some client =>
    dsimp only
    generalize (if c.ntp.state = .inProcess then c.collectNtp lib now client else c) = c'
    rw [requestedNtp]
    cases c'.ntp.client with
    | none => rfl
    | some client => rfl

theorem receiveAll_eq (client : NtpClient) (replies : List NtpReply) : client.receiveAll replies =
    { client with queue := client.queue ++ (replies.filter (·.hasContext)).map .ofReply } := by
  rw [NtpClient.receiveAll]
  induction replies generalizing client with
  | nil => rw [List.foldl_nil, List.filter_nil, List.map_nil, List.append_nil]
  | cons r replies ih =>
    rw [List.foldl_cons, ih, NtpClient.receive]
    by_cases hr : r.hasContext = true
    · rw [if_pos hr, List.filter_cons_of_pos hr, List.map_cons, List.append_assoc]
      rfl
    · rw [if_neg hr, List.filter_cons_of_neg hr]

/-- a drift is corrected or shown -/
theorem onDrift_eq (seconds : Int) : ∃ native status,
    c.onDrift lib seconds = { c with native, status } ∧ c.native.Extends (· = .sets) native := by
  unfold onDrift
  split
  · exact setMachineTime_eq lib c
  · exact ⟨c.native, _, rfl, .refl _ _⟩

/-- an update sets the state, whatever is done about a drift -/
theorem onNtpUpdate_eq (update : NtpUpdate) : ∃ native status,
    onNtpUpdate lib now c update = { c with
      native, status
      ntp := { c.ntp with
        state := if update.result = .success then OperationState.success else .error } } ∧
    c.native.Extends (· = .sets) native := by
  rw [onNtpUpdate]
  generalize (if update.result = .success then OperationState.success else .error) = state
  dsimp only
  cases update.driftFrom now with
  | none => exact ⟨c.native, c.status, rfl, .refl _ _⟩
  | some drift =>
    dsimp only
    split
    · exact ⟨c.native, c.status, rfl, .refl _ _⟩
    · exact onDrift_eq lib { c with ntp := { c.ntp with state } } _

theorem foldl_onNtpUpdate (updates : List NtpUpdate) : ∃ native status,
    updates.foldl (onNtpUpdate lib now) c = { c with
      native, status
      ntp := { c.ntp with state := afterReplies NtpUpdate.succeeds c.ntp.state updates } } ∧
    c.native.Extends (· = .sets) native := by
  induction updates generalizing c with
  | nil => exact ⟨c.native, c.status, rfl, .refl _ _⟩
  | cons u updates ih =>
    obtain ⟨native, status, h, hcalls⟩ := onNtpUpdate_eq lib now c u
    rw [← NtpUpdate.resultOf_succeeds] at h
    obtain ⟨native', status', h', hcalls'⟩ := ih (onNtpUpdate lib now c u)
    rw [h] at h' hcalls'
    refine ⟨native', status', ?_, hcalls.trans hcalls'⟩
    rw [List.foldl_cons, h, h', afterReplies_cons]

/-- letting the library go on empties the queue, with the updates that arrive meanwhile -/
theorem collectNtp_foldl (client : NtpClient) :
    let answer := c.native.ask lib (.ntp (.process client.handle))
    c.collectNtp lib now client =
      (client.queue ++ (answer.1.filter NtpReply.hasContext).map NtpUpdate.ofReply).foldl
        (onNtpUpdate lib now)
        { c with native := answer.2, ntp := { c.ntp with client := some { client with queue := [] } } } := by
  intro answer
  rw [collectNtp, NtpClient.process]
  dsimp only
  rw [receiveAll_eq, NtpClient.poll]

theorem queue_process (client : NtpClient) (s : Session σ) : (client.process lib s).1.queue =
    client.queue
      ++ ((s.ask lib (.ntp (.process client.handle))).1.filter (·.hasContext)).map .ofReply := by
  rw [NtpClient.process]
  dsimp only
  rw [receiveAll_eq]

/-- the last update that is handed over says how the request went -/
theorem collectNtp_eq (client : NtpClient) : ∃ native status,
    c.collectNtp lib now client = { c with
      native, status
      ntp := { c.ntp with
        client := some client.poll.2
        state := afterReplies NtpUpdate.succeeds c.ntp.state (client.process lib c.native).1.queue } } ∧
    (c.native.ask lib (.ntp (.process client.handle))).2.Extends (· = .sets) native := by
  rw [collectNtp_foldl, queue_process]
  exact foldl_onNtpUpdate lib now _ _

/-- handling the ended time requests; the replies are seen in the call -/
theorem collectedNtp_eq : ∃ native status,
    c.collectedNtp lib now = { c with
      native, status
      ntp := { c.ntp with
        client := answered c.ntp.client c.ntp.state (·.poll.2)
        state := afterReplies NtpUpdate.succeeds c.ntp.state (c.ntpUpdates lib) } } ∧
    native.trace ntpEvents = c.native.trace ntpEvents ++ (c.ntpReplies lib).map .reply ∧
    native.trace weatherEvents = c.native.trace weatherEvents := by
  unfold collectedNtp ntpUpdates ntpReplies awaited answered
  cases hc : c.ntp.client with
  | none =>
    refine ⟨c.native, c.status, ?_, (List.append_nil _).symm, rfl⟩
    dsimp only
    rw [Option.map_none, ite_self, ← hc]
    rfl
  | some client =>
    dsimp only
    by_cases hs : c.ntp.state = .inProcess
    · obtain ⟨native, status, h, ht⟩ := collectNtp_eq lib now c client
      rw [if_pos hs, if_pos hs, if_pos hs, if_pos hs]
      have hseen : ∀ {α : Type} {f : Exchange → List α}, SeesOperations f →
          native.trace f = (c.native.ask lib (.ntp (.process client.handle))).2.trace f :=
        (ht.mono fun _ h => h ▸ trivial).trace_of_upkeep
      refine ⟨native, status, h, ?_, ?_⟩
      · rw [hseen ntpEvents_seesOperations, trace_ask]
        rfl
      · rw [hseen weatherEvents_seesOperations, trace_ask]
        exact List.append_nil _
    · rw [if_neg hs, if_neg hs, if_neg hs, if_neg hs, ← hc]
      exact ⟨c.native, c.status, rfl, (List.append_nil _).symm, rfl⟩

theorem collectedNtp_state : (c.collectedNtp lib now).ntp.state =
    afterReplies NtpUpdate.succeeds c.ntpProgress.state (c.ntpRound lib now).replies := by
  obtain ⟨native, status, h, -, -⟩ := collectedNtp_eq lib now c
  rw [h]
  rfl

/-- a time request is seen if it reaches the library -/
theorem getTime_trace (client : NtpClient) (server : String) (timeout : Duration)
    (s : Session σ) :
    (client.getTime lib server timeout s).2.trace ntpEvents = s.trace ntpEvents
      ++ [.attempt (client.getTime lib server timeout s).1.isOk].filter (reaches server) ∧
    (client.getTime lib server timeout s).2.trace weatherEvents = s.trace weatherEvents := by
  rw [NtpClient.getTime]
  cases hn : terminated? server with
  | none =>
    have hr : reaches server (.attempt false) = false := by
      rw [reaches, hn]
      rfl
    refine ⟨?_, rfl⟩
    dsimp only
    rw [show (Except.error Fault.interiorNul : Except Fault Unit).isOk = false from rfl,
      List.filter_cons_of_neg (ne_true_of_eq_false hr)]
    exact (List.append_nil _).symm
  | some name =>
    have hr : ∀ accepted, reaches server (.attempt accepted) = true := by
      intro accepted
      rw [reaches, hn]
      rfl
    dsimp only
    rw [trace_ask, trace_ask, List.filter_cons_of_pos (hr _), checkStatus_isOk]
    exact ⟨rfl, List.append_nil _⟩

theorem getTime_refused (client : NtpClient) {server : String} (hn : terminated? server = none)
    (timeout : Duration) (s : Session σ) : (client.getTime lib server timeout s).1.isOk = false := by
  rw [NtpClient.getTime, hn]
  rfl

/-- starting a time request -/
theorem requestedNtp_eq : ∃ native, c.requestedNtp lib now = { c with
      native
      ntp := { c.ntp with
        state := ((c.ntpAttempt? lib now).map fun accepted =>
          if accepted then OperationState.inProcess else .error).getD c.ntp.state
        lastAttempt := if (c.ntpAttempt? lib now).isSome then some now else c.ntp.lastAttempt } } ∧
    native.trace ntpEvents = c.native.trace ntpEvents
      ++ ((c.ntpAttempt? lib now).map .attempt).toList.filter (reaches c.config.ntp.server) ∧
    native.trace weatherEvents = c.native.trace weatherEvents := by
  unfold requestedNtp ntpAttempt? attempted? ntpProgress
  cases hc : c.ntp.client with
  | none => exact ⟨c.native, rfl, (List.append_nil _).symm, rfl⟩
  | some client =>
    dsimp only
    split
    · obtain ⟨hn, hw⟩ := getTime_trace lib client c.config.ntp.server c.config.ntp.timeout c.native
      rw [requestTime]
      refine ⟨_, ?_, hn, hw⟩
      dsimp only
      cases (client.getTime lib c.config.ntp.server c.config.ntp.timeout c.native).1 with
      | ok _ => rfl
      | error _ => rfl
    · exact ⟨c.native, rfl, (List.append_nil _).symm, rfl⟩

/-- an attempt is accepted only if the name of the server has no zero byte -/
theorem isSome_of_ntpAttempt? (h : c.ntpAttempt? lib now = some true) :
    (terminated? c.config.ntp.server).isSome := by
  by_contra hn
  rw [Option.not_isSome_iff_eq_none] at hn
  unfold ntpAttempt? attempted? at h
  split at h
  · split at h
    · dsimp only at h
      rw [getTime_refused lib _ hn] at h
      cases h
    · cases h
  · cases h

theorem ntpRound_follows : (c.ntpRound lib now).Follows NtpUpdate.succeeds c.config.ntp.checkInterval now
    c.ntp.client.isSome c.ntpProgress := by
  obtain ⟨native, status, h, -, -⟩ := collectedNtp_eq lib now c
  rw [ntpRound, ntpAttempt?, h]
  exact Turn.follows c.ntp.client _ NtpUpdate.succeeds _ now c.ntpProgress _ _

theorem isSome_of_ntpRound (h : (c.ntpRound lib now).attempt? = some true) :
    (terminated? c.config.ntp.server).isSome := by
  obtain ⟨native, status, hcollected, -, -⟩ := collectedNtp_eq lib now c
  have hreached := isSome_of_ntpAttempt? lib now (c.collectedNtp lib now) h
  rw [hcollected] at hreached
  exact hreached

/-- an attempt that does not reach the library is refused -/
theorem ntpTurn_unreached : ∀ e ∈ (c.ntpTurn lib now).events,
    reaches c.config.ntp.server e = false → e = .attempt false := by
  intro e he hr
  rcases List.mem_append.mp he with he | he
  · obtain ⟨r, -, rfl⟩ := List.mem_map.mp he
    cases hr
  · obtain ⟨accepted, ha, rfl⟩ := Option.map_eq_some_iff.mp (Option.mem_toList.mp he)
    cases accepted with
    | false => rfl
    | true =>
      rw [reaches, isSome_of_ntpRound lib now c ha] at hr
      cases hr

/-- what a round of the time service changes -/
theorem pumpNtp_round : ∃ native status,
    c.pumpNtp lib now = { c with
      native, status
      ntp := {
        client := answered c.ntp.client c.ntp.state (·.poll.2)
        state := ((c.ntpRound lib now).progress NtpUpdate.succeeds now c.ntpProgress).state
        lastAttempt :=
          ((c.ntpRound lib now).progress NtpUpdate.succeeds now c.ntpProgress).lastAttempt } } ∧
    native.trace ntpEvents = c.native.trace ntpEvents
      ++ (c.ntpTurn lib now).events.filter (reaches c.config.ntp.server) ∧
    native.trace weatherEvents = c.native.trace weatherEvents := by
  obtain ⟨native, status, h, hn, hw⟩ := collectedNtp_eq lib now c
  obtain ⟨native', h', hn', hw'⟩ := requestedNtp_eq lib now (c.collectedNtp lib now)
  have hreplies : ((c.ntpReplies lib).map Event.reply).filter (reaches c.config.ntp.server)
      = (c.ntpReplies lib).map .reply := by
    refine List.filter_eq_self.mpr fun e he => ?_
    obtain ⟨r, -, rfl⟩ := List.mem_map.mp he
    rfl
  rw [pumpNtp_eq, h', ntpTurn, ntpRound]
  generalize (c.collectedNtp lib now).ntpAttempt? lib now = attempt? at hn'
  rw [h] at hn' hw' ⊢
  refine ⟨native', status, rfl, ?_, hw'.trans hw⟩
  rw [hn', Turn.events, List.filter_append, hreplies]
  dsimp only
  rw [hn, List.append_assoc]

section Collected

variable {c}

/-- where no update has waited, those of the replies are handled -/
theorem ntpRound_eq (hq : c.Collected) : c.ntpRound lib now = (c.ntpTurn lib now).map .ofReply := by
  have hupdates : c.ntpUpdates lib = (c.ntpReplies lib).map .ofReply := by
    unfold ntpUpdates ntpReplies awaited
    split
    · next client hc =>
      dsimp only
      split
      · rw [queue_process, hq.ntp client hc, List.nil_append]
      · rfl
    · rfl
  rw [ntpRound, ntpTurn, hupdates]
  rfl

theorem ntpTurn_follows (hq : c.Collected) : (c.ntpTurn lib now).Follows NtpReply.succeeds
    c.config.ntp.checkInterval now c.ntp.client.isSome c.ntpProgress := by
  have hround := ntpRound_follows lib now c
  rw [ntpRound_eq lib now hq, Turn.follows_map, NtpUpdate.succeeds_comp_ofReply] at hround
  exact hround

/-- a round changes what the turn says -/
theorem pumpNtp_turn (hq : c.Collected) : ∃ native status,
    c.pumpNtp lib now = { c with
      native, status
      ntp := { c.ntp with
        state := ((c.ntpTurn lib now).progress NtpReply.succeeds now c.ntpProgress).state
        lastAttempt :=
          ((c.ntpTurn lib now).progress NtpReply.succeeds now c.ntpProgress).lastAttempt } } ∧
    native.trace ntpEvents = c.native.trace ntpEvents
      ++ (c.ntpTurn lib now).events.filter (reaches c.config.ntp.server) ∧
    native.trace weatherEvents = c.native.trace weatherEvents := by
  have hclient : answered c.ntp.client c.ntp.state (·.poll.2) = c.ntp.client :=
    answered_eq (fun client hc => by rw [NtpClient.poll, ← hq.ntp client hc]) _
  obtain ⟨native, status, h, hn, hw⟩ := pumpNtp_round lib now c
  rw [hclient, ntpRound_eq lib now hq, Turn.progress_map, NtpUpdate.succeeds_comp_ofReply] at h
  exact ⟨native, status, h, hn, hw⟩

end Collected

end Ntp

/-! ## a round of the weather service -/

section Weather

variable (lib : Library σ) (now : Instant) (c : Clock σ τ)

/-- the updates that the weather client hands over -/
def weatherUpdates (c : Clock σ τ) : List WeatherUpdate :=
  awaited c.weather.client c.weather.state fun client => (client.process lib c.native).1.queue

/-- the replies that reach the weather client -/
def weatherReplies (c : Clock σ τ) : List WeatherReply :=
  awaited c.weather.client c.weather.state fun client =>
    (c.native.ask lib (.weather (.process client.handle))).1.filter (·.hasContext)

/-- the clock after the ended weather requests are handled -/
def collectedWeather (c : Clock σ τ) : Clock σ τ :=
  match c.weather.client with
  | some client => if c.weather.state = .inProcess then c.collectWeather lib now client else c
  | none => c

/-- the weather client starts a request: whether it is accepted -/
def weatherAttempt? (c : Clock σ τ) : Option Bool :=
  attempted? c.weather.client c.weatherProgress c.config.weather.refreshInterval now fun client =>
    (client.getByCity lib c.config.weather.location c.config.weather.timeout c.native).1.isOk

/-- what happens to the weather service in a round -/
def weatherTurn (c : Clock σ τ) : Turn WeatherReply :=
  ⟨c.weatherReplies lib, (c.collectedWeather lib now).weatherAttempt? lib now⟩

/-- what the clock does about the weather in a round -/
def weatherRound (c : Clock σ τ) : Turn WeatherUpdate :=
  ⟨c.weatherUpdates lib, (c.collectedWeather lib now).weatherAttempt? lib now⟩

/-- the clock after a weather request is started, if one is -/
def requestedWeather (c : Clock σ τ) : Clock σ τ :=
  match c.weather.client with
  | some client =>
    if c.weather.state ≠ .inProcess
        ∧ isDue c.weather.lastAttempt now c.config.weather.refreshInterval then
      c.requestWeather lib now client
    else c
  | none => c

theorem pumpWeather_eq :
    c.pumpWeather lib now = (c.collectedWeather lib now).requestedWeather lib now := by
  unfold pumpWeather collectedWeather
  cases h : c.weather.client with
  | none =>
    dsimp only
    rw [requestedWeather, h]
  | some client =>
    dsimp only
    generalize (if c.weather.state = .inProcess then c.collectWeather lib now client else c) = c'
    rw [requestedWeather]
    cases c'.weather.client with
    | none => rfl
    | some client => rfl

theorem receiveAll_eq_weather (client : WeatherClient) (replies : List WeatherReply) :
    client.receiveAll replies = { client with
      queue := client.queue ++ (replies.filter (·.hasContext)).map (.ofReply client.unit) } := by
  rw [WeatherClient.receiveAll]
  induction replies generalizing client with
  | nil => rw [List.foldl_nil, List.filter_nil, List.map_nil, List.append_nil]
  | cons r replies ih =>
    rw [List.foldl_cons, ih, WeatherClient.receive]
    by_cases hr : r.hasContext = true
    · rw [if_pos hr, List.filter_cons_of_pos hr, List.map_cons, List.append_assoc]
      rfl
    · rw [if_neg hr, List.filter_cons_of_neg hr]

/-- what the updates bring is saved one after the other, and the last is shown -/
theorem foldl_onWeatherUpdate (updates : List WeatherUpdate) :
    updates.foldl (onWeatherUpdate now) c = { c with
      disk := (updates.filterMap (·.conditions?)).foldl
        (fun disk conditions =>
          (CachedWeather.save ⟨now, conditions⟩ disk c.config.weather.cachePath).2) c.disk
      weather := { c.weather with
        state := afterReplies WeatherUpdate.succeeds c.weather.state updates
        conditions := (updates.filterMap (·.conditions?)).getLast?.or c.weather.conditions } } := by
  induction updates generalizing c with
  | nil => rfl
  | cons u updates ih =>
    rw [List.foldl_cons, ih, afterReplies_cons]
    cases u with
    | failed outcome => rfl
    | unrecognized code => rfl
    | conditions conditions =>
      have hcons : (WeatherUpdate.conditions conditions :: updates).filterMap (·.conditions?)
          = conditions :: updates.filterMap (·.conditions?) := rfl
      rw [hcons, List.foldl_cons, List.getLast?_cons]
      cases (updates.filterMap (·.conditions?)).getLast? with
      | none => rfl
      | some last => rfl

/-- letting the library go on empties the queue, with the updates that arrive meanwhile -/
theorem collectWeather_foldl (client : WeatherClient) :
    let answer := c.native.ask lib (.weather (.process client.handle))
    c.collectWeather lib now client =
      (client.queue
          ++ (answer.1.filter WeatherReply.hasContext).map (WeatherUpdate.ofReply client.unit)).foldl
        (onWeatherUpdate now)
        { c with
          native := answer.2
          weather := { c.weather with client := some { client with queue := [] } } } := by
  intro answer
  rw [collectWeather, WeatherClient.process]
  dsimp only
  rw [receiveAll_eq_weather, WeatherClient.poll]

theorem queue_process_weather (client : WeatherClient) (s : Session σ) : (client.process lib s).1.queue =
    client.queue
      ++ ((s.ask lib (.weather (.process client.handle))).1.filter (·.hasContext)).map
        (.ofReply client.unit) := by
  rw [WeatherClient.process]
  dsimp only
  rw [receiveAll_eq_weather]

theorem collectWeather_eq (client : WeatherClient) : ∃ disk conditions,
    c.collectWeather lib now client = { c with
      native := (c.native.ask lib (.weather (.process client.handle))).2
      disk
      weather := { c.weather with
        client := some client.poll.2
        state := afterReplies WeatherUpdate.succeeds c.weather.state (client.process lib c.native).1.queue
        conditions } } := by
  rw [collectWeather_foldl, queue_process_weather, foldl_onWeatherUpdate]
  exact ⟨_, _, rfl⟩

/-- handling the ended weather requests; the replies are seen in the call -/
theorem collectedWeather_eq : ∃ native disk conditions,
    c.collectedWeather lib now = { c with
      native, disk
      weather := { c.weather with
        client := answered c.weather.client c.weather.state (·.poll.2)
        state := afterReplies WeatherUpdate.succeeds c.weather.state (c.weatherUpdates lib)
        conditions } } ∧
    native.trace weatherEvents
      = c.native.trace weatherEvents ++ (c.weatherReplies lib).map .reply ∧
    native.trace ntpEvents = c.native.trace ntpEvents := by
  unfold collectedWeather weatherUpdates weatherReplies awaited answered
  cases hc : c.weather.client with
  | none =>
    refine ⟨c.native, c.disk, c.weather.conditions, ?_, (List.append_nil _).symm, rfl⟩
    dsimp only
    rw [Option.map_none, ite_self, ← hc]
    rfl
  | some client =>
    dsimp only
    by_cases hs : c.weather.state = .inProcess
    · obtain ⟨disk, conditions, h⟩ := collectWeather_eq lib now c client
      rw [if_pos hs, if_pos hs, if_pos hs, if_pos hs]
      refine ⟨_, disk, conditions, h, ?_, ?_⟩
      · rw [trace_ask]
        rfl
      · rw [trace_ask]
        exact List.append_nil _
    · rw [if_neg hs, if_neg hs, if_neg hs, if_neg hs, ← hc]
      exact ⟨c.native, c.disk, c.weather.conditions, rfl, (List.append_nil _).symm, rfl⟩

theorem collectedWeather_state : (c.collectedWeather lib now).weather.state =
    afterReplies WeatherUpdate.succeeds c.weatherProgress.state (c.weatherRound lib now).replies := by
  obtain ⟨native, disk, conditions, h, -, -⟩ := collectedWeather_eq lib now c
  rw [h]
  rfl

/-- every weather request is seen -/
theorem getByCity_trace (client : WeatherClient) (location : GeoLocation) (timeout : Duration)
    (s : Session σ) :
    (client.getByCity lib location timeout s).2.trace weatherEvents = s.trace weatherEvents
      ++ [.attempt (client.getByCity lib location timeout s).1.isOk] ∧
    (client.getByCity lib location timeout s).2.trace ntpEvents = s.trace ntpEvents := by
  rw [WeatherClient.getByCity]
  dsimp only
  rw [trace_ask, trace_ask, checkStatus_isOk]
  exact ⟨rfl, List.append_nil _⟩

/-- starting a weather request -/
theorem requestedWeather_eq : ∃ native, c.requestedWeather lib now = { c with
      native
      weather := { c.weather with
        state := ((c.weatherAttempt? lib now).map fun accepted =>
          if accepted then OperationState.inProcess else .error).getD c.weather.state
        lastAttempt :=
          if (c.weatherAttempt? lib now).isSome then some now else c.weather.lastAttempt } } ∧
    native.trace weatherEvents = c.native.trace weatherEvents
      ++ ((c.weatherAttempt? lib now).map .attempt).toList ∧
    native.trace ntpEvents = c.native.trace ntpEvents := by
  unfold requestedWeather weatherAttempt? attempted? weatherProgress
  cases hc : c.weather.client with
  | none => exact ⟨c.native, rfl, (List.append_nil _).symm, rfl⟩
  | some client =>
    dsimp only
    split
    · obtain ⟨hw, hn⟩ :=
        getByCity_trace lib client c.config.weather.location c.config.weather.timeout c.native
      rw [requestWeather]
      refine ⟨_, ?_, hw, hn⟩
      dsimp only
      cases (client.getByCity lib c.config.weather.location c.config.weather.timeout c.native).1 with
      | ok _ => rfl
      | error _ => rfl
    · exact ⟨c.native, rfl, (List.append_nil _).symm, rfl⟩

theorem weatherRound_follows : (c.weatherRound lib now).Follows WeatherUpdate.succeeds
    c.config.weather.refreshInterval now c.weather.client.isSome c.weatherProgress := by
  obtain ⟨native, disk, conditions, h, -, -⟩ := collectedWeather_eq lib now c
  rw [weatherRound, weatherAttempt?, h]
  exact Turn.follows c.weather.client _ WeatherUpdate.succeeds _ now c.weatherProgress _ _

/-- what a round of the weather service changes -/
theorem pumpWeather_round : ∃ native disk conditions,
    c.pumpWeather lib now = { c with
      native, disk
      weather := {
        client := answered c.weather.client c.weather.state (·.poll.2)
        state :=
          ((c.weatherRound lib now).progress WeatherUpdate.succeeds now c.weatherProgress).state
        lastAttempt :=
          ((c.weatherRound lib now).progress WeatherUpdate.succeeds now c.weatherProgress).lastAttempt
        conditions } } ∧
    native.trace weatherEvents
      = c.native.trace weatherEvents ++ (c.weatherTurn lib now).events ∧
    native.trace ntpEvents = c.native.trace ntpEvents := by
  obtain ⟨native, disk, conditions, h, hw, hn⟩ := collectedWeather_eq lib now c
  obtain ⟨native', h', hw', hn'⟩ := requestedWeather_eq lib now (c.collectedWeather lib now)
  rw [pumpWeather_eq, h', weatherTurn, weatherRound]
  generalize (c.collectedWeather lib now).weatherAttempt? lib now = attempt? at hw'
  rw [h] at hw' hn' ⊢
  refine ⟨native', disk, conditions, rfl, ?_, hn'.trans hn⟩
  rw [hw', Turn.events]
  dsimp only
  rw [hw, List.append_assoc]

section Collected

variable {c}

/-- where no update has waited, those of the replies are handled -/
theorem weatherRound_eq (hq : c.Collected) : ∃ unit,
    c.weatherRound lib now = (c.weatherTurn lib now).map (.ofReply unit) := by
  obtain ⟨unit, hupdates⟩ : ∃ unit, c.weatherUpdates lib = (c.weatherReplies lib).map (.ofReply unit) := by
    unfold weatherUpdates weatherReplies awaited
    cases hc : c.weather.client with
    | none => exact ⟨.celsius, rfl⟩
    | some client =>
      refine ⟨client.unit, ?_⟩
      dsimp only
      split
      · rw [queue_process_weather, hq.weather client hc, List.nil_append]
      · rfl
  refine ⟨unit, ?_⟩
  rw [weatherRound, weatherTurn, hupdates]
  rfl

theorem weatherTurn_follows (hq : c.Collected) : (c.weatherTurn lib now).Follows
    WeatherReply.succeeds c.config.weather.refreshInterval now c.weather.client.isSome
    c.weatherProgress := by
  have hround := weatherRound_follows lib now c
  obtain ⟨unit, heq⟩ := weatherRound_eq lib now hq
  rw [heq, Turn.follows_map, WeatherUpdate.succeeds_comp_ofReply] at hround
  exact hround

/-- a round changes what the turn says -/
theorem pumpWeather_turn (hq : c.Collected) : ∃ native disk conditions,
    c.pumpWeather lib now = { c with
      native, disk
      weather := { c.weather with
        state :=
          ((c.weatherTurn lib now).progress WeatherReply.succeeds now c.weatherProgress).state
        lastAttempt :=
          ((c.weatherTurn lib now).progress WeatherReply.succeeds now c.weatherProgress).lastAttempt
        conditions } } ∧
    native.trace weatherEvents
      = c.native.trace weatherEvents ++ (c.weatherTurn lib now).events ∧
    native.trace ntpEvents = c.native.trace ntpEvents := by
  have hclient : answered c.weather.client c.weather.state (·.poll.2) = c.weather.client :=
    answered_eq (fun client hc => by rw [WeatherClient.poll, ← hq.weather client hc]) _
  obtain ⟨unit, heq⟩ := weatherRound_eq lib now hq
  obtain ⟨native, disk, conditions, h, hw, hn⟩ := pumpWeather_round lib now c
  rw [hclient, heq, Turn.progress_map, WeatherUpdate.succeeds_comp_ofReply] at h
  exact ⟨native, disk, conditions, h, hw, hn⟩

end Collected

end Weather

end Clock

end DeskClock
