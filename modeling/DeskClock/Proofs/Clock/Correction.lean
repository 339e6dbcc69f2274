import DeskClock.Proofs.Clock.Life
import DeskClock.Proofs.Clock.Pacing

/-!
# the correction of the clock of the machine

* `Exchange.settings`       an observer who sees when the clock of the machine is set;
* `NtpReply.off?`, `Mail.off`   by how many seconds replies find the clock off, if that is too much;
* `onNtpUpdate_eq_off`      what is done about a reply;
* `Corrected`               the corrections that were made, and the status that is shown;
* `Unattached`, `Corrects`  what holds of a clock before and after it is attached;
* `correction_report`       when the clock of the machine is set, and what the status says, in any life of
                            a clock that is attached once.
-/

namespace DeskClock

open Native

variable {σ τ ε : Type}

/-! ## what is seen and said of the clock of the machine -/

/-- the server, the timeout in seconds and the status of a call that sets the clock of the machine -/
def Native.Exchange.settings : Exchange → List (Memory × Nat × Int)
  | ⟨.ntp (.setTime server timeout), status⟩ => [(server, timeout, status)]
  | _ => []

theorem Native.Session.Extends.settings {s s' : Session σ} (h : s.Extends (· ≠ .sets) s') :
    s'.trace Exchange.settings = s.trace Exchange.settings := by
  refine h.trace ?_
  rintro ⟨r, answer⟩ hdeed
  have hr : r.deed ≠ .sets := hdeed
  clear hdeed
  match r, hr with
  | .ntp (.create _), _ => rfl
  | .ntp (.destroy _), _ => rfl
  | .ntp (.getTime _ _ _), _ => rfl
  | .ntp (.process _), _ => rfl
  | .ntp (.setTime _ _), hr => exact absurd rfl hr
  | .weather _, _ => rfl
  | .alarms _, _ => rfl

/-- the call that sets the clock of the machine with a status -/
def timeSetting (s : NtpSettings) (status : Int) : Memory × Nat × Int :=
  ((terminated? s.server).getD [], s.timeout.wholeSeconds, status)

/-- how the call went -/
def settingText (status : Int) : String := (SetTimeOutcome.ofStatus status).message

/-- how far the clock is off -/
def offText (seconds : Int) : String :=
  "Clock is off by " ++ String.ofList (Digits.ofInt seconds) ++ "s"

/-- the seconds by which a reply finds the clock off, if they are too many: the request has succeeded, the
time of the server is in range, and the difference in whole seconds, toward zero, is above the allowed one -/
def Native.NtpReply.off? (s : NtpSettings) (now : Instant) (r : NtpReply) : Option Int :=
  if r.code = 0 ∧ Instant.minSeconds ≤ r.time ∧ r.time ≤ Instant.maxSeconds then
    let seconds := (now.nanoseconds - r.time * 1000000000).tdiv 1000000000
    if s.maxDriftSecs.toInt < |seconds| then some seconds else none
  else none

/-- the seconds by which the handled replies have found the clock off -/
def Mail.off (s : NtpSettings) (m : Mail NtpReply) : List Int :=
  m.handled.filterMap fun (now, r) => r.off? s now

theorem Mail.off_collect (s : NtpSettings) (m : Mail NtpReply) (now : Instant)
    (replies : List NtpReply) :
    (m.collect now replies).off s = m.off s ++ (m.waiting ++ replies).filterMap (·.off? s now) := by
  rw [off, collect, List.filterMap_append, List.filterMap_map]
  rfl

namespace NtpUpdate

theorem driftFrom_ofReply {now : Instant} (hnow : now.nanosecond < 1000000000) (r : NtpReply) :
    (ofReply r).driftFrom now =
      if r.code = 0 ∧ Instant.minSeconds ≤ r.time ∧ r.time ≤ Instant.maxSeconds then
        some (now.nanoseconds - r.time * 1000000000)
      else none := by
  have hresult : NtpResult.ofCode r.code = .success ↔ r.code = 0 :=
    decide_eq_decide.mp (succeeds_ofReply r)
  rw [driftFrom, ofReply]
  dsimp only
  by_cases hc : r.code = 0
  · rw [if_pos (hresult.mpr hc), Instant.ofSeconds?, Instant.of?]
    by_cases ht : Instant.minSeconds ≤ r.time ∧ r.time ≤ Instant.maxSeconds
    · have hzero : (0 : Nat) < 1000000000 ∨ (0 : Nat) < 2000000000 ∧ r.time % 60 = 59 := .inl (by decide)
      rw [dif_pos ht, dif_pos hzero, if_pos ⟨hc, ht⟩, Option.map_some,
        Instant.since_eq hnow (show (0 : Nat) < 1000000000 by decide)]
      rw [Instant.nanoseconds, Instant.nanoseconds, Nat.cast_zero, Int.add_zero]
    · rw [dif_neg ht, if_neg (fun h => ht h.2)]
      rfl
  · rw [if_neg (fun h => hc (hresult.mp h)), if_neg (fun h => hc h.1)]
    rfl

end NtpUpdate

namespace Clock

variable (lib : Library σ)

/-- what is done about a reply -/
theorem onNtpUpdate_eq_off {now : Instant} (hnow : now.nanosecond < 1000000000) (c : Clock σ τ)
    (r : NtpReply) : ∃ state, onNtpUpdate lib now c (.ofReply r) =
      match r.off? c.config.ntp now with
      | some seconds => { c with ntp := { c.ntp with state } }.onDrift lib seconds
      | none => { c with ntp := { c.ntp with state } } := by
  refine ⟨if (NtpUpdate.ofReply r).result = .success then .success else .error, ?_⟩
  rw [onNtpUpdate, NtpUpdate.driftFrom_ofReply hnow, NtpReply.off?]
  generalize (if (NtpUpdate.ofReply r).result = .success then OperationState.success else .error)
    = state
  split_ifs with hr
  · dsimp only
    rw [Int.abs_eq_natAbs]
    split_ifs with hle hlt hlt
    · omega
    · rfl
    · rfl
    · omega
  · rfl

/-- the clock of the machine is set if the name of the server has no zero byte -/
theorem setMachineTime_eq_settings (c : Clock σ τ) : ∃ native status, ∃ set : List Int,
    c.setMachineTime lib = { c with native, status } ∧
    set.length = (if (terminated? c.config.ntp.server).isSome then 1 else 0) ∧
    native.trace Exchange.settings
      = c.native.trace Exchange.settings ++ set.map (timeSetting c.config.ntp) ∧
    status = (set.map settingText).getLast?.or c.status := by
  unfold setMachineTime setTime
  cases hn : terminated? c.config.ntp.server with
  | none => exact ⟨c.native, c.status, [], rfl, rfl, (List.append_nil _).symm, rfl⟩
  | some name =>
    let answer := c.native.ask lib (.ntp (.setTime name c.config.ntp.timeout.wholeSeconds))
    refine ⟨answer.2, some (settingText answer.1), [answer.1], rfl, rfl, ?_, rfl⟩
    rw [trace_ask, List.map_singleton, timeSetting, hn]
    rfl

/-! ## corrections -/

/-- The clock of the machine was set at the start and, if that is allowed, once for every time it was found
off. The status is the latest message about it. -/
structure Corrected (config : Config) (start off : List Int) (c : Clock σ τ) : Prop where
  settings : c.config = config
  attached : c.attached = true
  calls : ∃ corrections : List Int,
    corrections.length = (if config.ntp.applyCorrection then off.length else 0) ∧
    c.native.trace Exchange.settings = (start ++ corrections).map (timeSetting config.ntp) ∧
    c.status = (start.map settingText ++
      if config.ntp.applyCorrection then corrections.map settingText else off.map offText).getLast?

namespace Corrected

variable {config : Config} {start off : List Int} {c c' : Clock σ τ}

theorem of_eq (h : Corrected config start off c) (hconfig : c'.config = c.config)
    (hattached : c'.attached = c.attached) (hstatus : c'.status = c.status)
    (hcalls : c.native.Extends (· ≠ .sets) c'.native) : Corrected config start off c' where
  settings := hconfig.trans h.settings
  attached := hattached.trans h.attached
  calls := by
    rw [hstatus, hcalls.settings]
    exact h.calls

variable (hserver : (terminated? config.ntp.server).isSome)
include hserver

/-- the clock is found off -/
theorem onDrift (h : Corrected config start off c) (seconds : Int) :
    Corrected config start (off ++ [seconds]) (c.onDrift lib seconds) := by
  obtain ⟨corrections, hlength, htrace, hstatus⟩ := h.calls
  have hcase : (c.attached && c.config.ntp.applyCorrection) = config.ntp.applyCorrection := by
    rw [h.attached, h.settings, Bool.true_and]
  unfold Clock.onDrift
  rw [hcase]
  cases hcorrect : config.ntp.applyCorrection with
  | true =>
    rw [hcorrect] at hlength hstatus
    rw [if_pos rfl] at hlength hstatus ⊢
    obtain ⟨native, status, set, hset, hone, htrace', hstatus'⟩ := setMachineTime_eq_settings lib c
    rw [h.settings, if_pos hserver] at hone
    obtain ⟨answer, rfl⟩ := List.length_eq_one_iff.mp hone
    rw [hset]
    refine ⟨h.settings, h.attached, corrections ++ [answer], ?_, ?_, ?_⟩
    · rw [if_pos hcorrect, List.length_append, List.length_append, hlength]
      rfl
    · dsimp only
      rw [htrace', htrace, h.settings, ← List.map_append, List.append_assoc]
    · dsimp only
      rw [hstatus', if_pos hcorrect, List.map_append, ← List.append_assoc, List.getLast?_append]
      rfl
  | false =>
    rw [hcorrect] at hlength hstatus
    rw [if_neg Bool.false_ne_true] at hlength hstatus ⊢
    refine ⟨h.settings, h.attached, corrections, ?_, htrace, ?_⟩
    · rw [if_neg (ne_true_of_eq_false hcorrect), hlength]
    · dsimp only
      rw [if_neg (ne_true_of_eq_false hcorrect), List.map_append, ← List.append_assoc,
        List.map_singleton, List.getLast?_concat]
      rfl

theorem onNtpUpdate {now : Instant} (hnow : now.nanosecond < 1000000000)
    (h : Corrected config start off c) (r : NtpReply) :
    Corrected config start (off ++ (r.off? config.ntp now).toList)
      (onNtpUpdate lib now c (.ofReply r)) := by
  obtain ⟨state, heq⟩ := onNtpUpdate_eq_off lib hnow c r
  have h' : Corrected config start off { c with ntp := { c.ntp with state } } :=
    h.of_eq rfl rfl rfl (.refl _ _)
  have hoff : r.off? c.config.ntp now = r.off? config.ntp now := by rw [h.settings]
  rw [heq, hoff]
  cases r.off? config.ntp now with
  | none =>
    rw [Option.toList_none, List.append_nil]
    exact h'
  | some seconds => exact h'.onDrift lib hserver seconds

theorem foldl {now : Instant} (hnow : now.nanosecond < 1000000000)
    (h : Corrected config start off c) (replies : List NtpReply) :
    Corrected config start (off ++ replies.filterMap (·.off? config.ntp now))
      ((replies.map NtpUpdate.ofReply).foldl (Clock.onNtpUpdate lib now) c) := by
  induction replies generalizing off c with
  | nil =>
    rw [List.filterMap_nil, List.append_nil]
    exact h
  | cons r replies ih =>
    have hr := ih (h.onNtpUpdate lib hserver hnow r)
    rw [List.append_assoc] at hr
    rw [List.map_cons, List.foldl_cons, List.filterMap_cons]
    cases ho : r.off? config.ntp now with
    | none =>
      rw [ho] at hr
      exact hr
    | some seconds =>
      rw [ho] at hr
      exact hr

end Corrected

/-! ## the calls of the steps -/

section Calls

variable (c : Clock σ τ)

theorem requestedNtp_calls (now : Instant) :
    c.native.Extends (· ≠ .sets) (c.requestedNtp lib now).native := by
  unfold requestedNtp
  cases c.ntp.client with
  | none => exact .refl _ _
  | some client =>
    dsimp only
    split
    · exact (client.getTime_extends lib c.native c.config.ntp.server c.config.ntp.timeout).not_sets nofun
    · exact .refl _ _

theorem release_calls : c.native.Extends (· ≠ .sets) (c.release lib).native :=
  (((replaceAlarms_extends lib c none).not_sets (by rintro ⟨_, _, ⟨⟩⟩)).trans
    ((replaceWeather_extends lib _ none).not_sets (by rintro ⟨_, _, ⟨⟩⟩))).trans
    ((replaceNtp_extends lib _ none).not_sets (by rintro ⟨_, _, ⟨⟩⟩))

/-- the rounds of the weather and of the alarms change nothing that is about the time -/
theorem pump_rest (now : Instant) : ∃ native disk weather alarms,
    c.pump lib now = { c.pumpNtp lib now with native, disk, weather, alarms } ∧
    (c.pumpNtp lib now).native.Extends (· ≠ .sets) native := by
  obtain ⟨native, disk, weather, hweather, -, hcalls⟩ := pumpWeather_calls lib now (c.pumpNtp lib now)
  obtain ⟨native', lastMinute, next, halarm, hcalls'⟩ :=
    refreshAlarm_calls lib now ((c.pumpNtp lib now).pumpWeather lib now)
  rw [hweather] at halarm hcalls'
  refine ⟨native', disk, weather, { (c.pumpNtp lib now).alarms with lastMinute, next }, ?_,
    (hcalls.not_sets ?_).trans (hcalls'.not_sets ?_)⟩
  · rw [pump, hweather, halarm]
  · rintro ⟨_, _, ⟨⟩⟩
  · rintro ⟨_, _, ⟨⟩⟩

end Calls

/-! ## before the clock is attached -/

/-- no time client has ever been there -/
structure Unattached (config : Config) (c : Clock σ τ) : Prop where
  settings : c.config = config
  ntp : c.ntp = {}
  status : c.status = some "Clock service unavailable"
  calls : c.native.trace Exchange.settings = []

namespace Unattached

variable {config : Config} {c c' : Clock σ τ}

theorem of_eq (h : Unattached config c) (hconfig : c'.config = c.config) (hntp : c'.ntp = c.ntp)
    (hstatus : c'.status = c.status) (hcalls : c.native.Extends (· ≠ .sets) c'.native) :
    Unattached config c' where
  settings := hconfig.trans h.settings
  ntp := hntp.trans h.ntp
  status := hstatus.trans h.status
  calls := hcalls.settings.trans h.calls

variable (S : Surface τ ε)

theorem apply (h : Unattached config c) {e : Happening} (he : e ≠ .step .attach) :
    Unattached config (e.apply lib S c) ∧ sortNtp lib c {} e = {} := by
  cases e with
  | step s =>
    cases s with
    | attach => exact absurd rfl he
    | start =>
      obtain ⟨host, hstart⟩ := c.start_eq S
      refine ⟨?_, rfl⟩
      show Unattached config (c.start S).2
      rw [hstart]
      exact h.of_eq rfl rfl rfl (.refl _ _)
    | event e =>
      obtain ⟨host, hevent⟩ := c.handleEvent_eq S e
      refine ⟨?_, rfl⟩
      show Unattached config (c.handleEvent S e).2
      rw [hevent]
      exact h.of_eq rfl rfl rfl (.refl _ _)
    | shutdown =>
      refine ⟨h.of_eq rfl ?_ rfl (release_calls lib { c with host := _ }), rfl⟩
      show { c.ntp with client := none } = c.ntp
      rw [h.ntp]
    | tick now offset =>
      have hnone : c.ntp.client = none := congrArg NtpService.client h.ntp
      have hntp : c.pumpNtp lib now = c := by
        unfold pumpNtp
        rw [hnone]
      obtain ⟨native, disk, weather, alarms, hpump, hcalls⟩ := pump_rest lib c now
      obtain ⟨host, htick⟩ := c.tick_eq lib S now offset
      rw [hntp] at hpump hcalls
      constructor
      · show Unattached config (c.tick lib S now offset).2
        rw [htick, hpump]
        exact h.of_eq rfl rfl rfl hcalls
      · unfold sortNtp
        rw [hnone]
        exact if_neg (by simp)
  | ntpReply r =>
    have hnone : c.ntp.client = none := congrArg NtpService.client h.ntp
    constructor
    · refine h.of_eq rfl ?_ rfl (.refl _ _)
      show { c.ntp with client := c.ntp.client.map (·.receive r) } = c.ntp
      rw [h.ntp]
      rfl
    · unfold sortNtp
      rw [hnone]
      exact if_neg (by simp)
  | weatherReply r => exact ⟨h.of_eq rfl rfl rfl (.refl _ _), rfl⟩

end Unattached

/-! ## after the clock is attached -/

/-- What the replies ask for was done. The time client has those that wait in its queue, and has a request
only if the name of the server reaches the library. -/
structure Corrects (config : Config) (start : List Int) (c : Clock σ τ) (m : Mail NtpReply) : Prop where
  corrected : Corrected config start (m.off config.ntp) c
  queue : ∀ client, c.ntp.client = some client → client.queue = m.waiting.map .ofReply
  reached : c.ntp.state = .inProcess → (terminated? config.ntp.server).isSome

/-- the synchronization at the start sets the clock of the machine once, if it is asked for and the name of
the server can be passed on -/
theorem Unattached.syncOnStart {config : Config} {c : Clock σ τ} (h : Unattached config c) :
    ∃ native status, ∃ start : List Int,
      ({ c with status := none }.syncOnStart lib) = { c with native, status } ∧
      start.length =
        (if config.ntp.syncOnStart ∧ (terminated? config.ntp.server).isSome then 1 else 0) ∧
      native.trace Exchange.settings = start.map (timeSetting config.ntp) ∧
      status = (start.map settingText).getLast? := by
  have hcase : c.config.ntp.syncOnStart = config.ntp.syncOnStart := by rw [h.settings]
  unfold Clock.syncOnStart
  dsimp only
  rw [hcase]
  by_cases hs : config.ntp.syncOnStart = true
  · obtain ⟨native, status, start, hset, hlength, htrace, hstatus⟩ :=
      setMachineTime_eq_settings lib { c with status := none }
    dsimp only at hlength htrace hstatus
    rw [h.settings] at hlength htrace
    rw [h.calls, List.nil_append] at htrace
    rw [Option.or_none] at hstatus
    rw [if_pos hs]
    refine ⟨native, status, start, hset, ?_, htrace, hstatus⟩
    rw [hlength]
    exact if_congr (by rw [hs, eq_self, true_and]) rfl rfl
  · rw [if_neg hs, if_neg (fun e => hs e.1)]
    exact ⟨c.native, none, [], rfl, rfl, h.calls, rfl⟩

/-- the time may be set when the clock is attached -/
theorem Unattached.attach {config : Config} {c : Clock σ τ} (h : Unattached config c) :
    ∃ start : List Int,
      start.length =
        (if config.ntp.syncOnStart ∧ (terminated? config.ntp.server).isSome then 1 else 0) ∧
      Corrects config start (c.attach lib) {} := by
  obtain ⟨native, status, start, hsync, hlength, htrace, hstatus⟩ := h.syncOnStart lib
  obtain ⟨native', ntpClient, weatherClient, scheduler, hattach, hqueue, -, hcalls⟩ :=
    attachClients_eq lib ({ c with status := none }.syncOnStart lib)
  have heq : c.attach lib = { c with
      native := native', status, attached := true
      ntp := { c.ntp with client := ntpClient }
      weather := { c.weather with client := weatherClient }
      alarms := { c.alarms with scheduler } } := by
    unfold Clock.attach
    dsimp only
    rw [hattach, hsync]
  rw [hsync] at hcalls
  refine ⟨start, hlength, ?_⟩
  rw [heq]
  refine ⟨⟨h.settings, rfl, [], ?_, ?_, ?_⟩, hqueue, ?_⟩
  · exact (ite_self 0).symm
  · rw [List.append_nil, ← htrace]
    exact hcalls.settings
  · show status = _
    rw [hstatus, List.map_nil, show Mail.off config.ntp {} = [] from rfl, List.map_nil, ite_self,
      List.append_nil]
  · intro hs
    dsimp only at hs
    rw [h.ntp] at hs
    cases hs

namespace Corrects

variable {config : Config} {start : List Int} {c c' : Clock σ τ} {m : Mail NtpReply}

theorem of_eq (h : Corrects config start c m) (hconfig : c'.config = c.config)
    (hattached : c'.attached = c.attached) (hntp : c'.ntp = c.ntp) (hstatus : c'.status = c.status)
    (hcalls : c.native.Extends (· ≠ .sets) c'.native) : Corrects config start c' m where
  corrected := h.corrected.of_eq hconfig hattached hstatus hcalls
  queue := hntp ▸ h.queue
  reached := hntp ▸ h.reached

/-- without a client nothing waits -/
theorem drop (h : Corrects config start c m) (hconfig : c'.config = c.config)
    (hattached : c'.attached = c.attached) (hntp : c'.ntp = { c.ntp with client := none })
    (hstatus : c'.status = c.status) (hcalls : c.native.Extends (· ≠ .sets) c'.native) :
    Corrects config start c' m.drop where
  corrected := h.corrected.of_eq hconfig hattached hstatus hcalls
  queue _ hc := by
    rw [hntp] at hc
    cases hc
  reached := by
    rw [hntp]
    exact h.reached

theorem receive (h : Corrects config start c m) (r : NtpReply) :
    Corrects config start (c.receiveNtp r)
      (if c.ntp.client.isSome ∧ r.hasContext then m.add r else m) := by
  unfold receiveNtp
  cases hc : c.ntp.client with
  | none =>
    rw [if_neg (by simp)]
    refine h.of_eq rfl rfl ?_ rfl (.refl _ _)
    show { c.ntp with client := none } = c.ntp
    rw [← hc]
  | some client =>
    have hqueue := h.queue client hc
    rw [Option.map_some, NtpClient.receive]
    by_cases hr : r.hasContext = true
    · rw [if_pos hr, if_pos ⟨rfl, hr⟩]
      refine ⟨h.corrected.of_eq rfl rfl rfl (.refl _ _), ?_, h.reached⟩
      rintro _ ⟨⟩
      rw [Mail.add, List.map_append, ← hqueue]
      rfl
    · rw [if_neg hr, if_neg (fun e => hr e.2), ← hc]
      exact h.of_eq rfl rfl rfl rfl (.refl _ _)

variable {now : Instant} (hnow : now.nanosecond < 1000000000)
include hnow

/-- handling the ended time requests -/
theorem collected (h : Corrects config start c m) : Corrects config start (c.collectedNtp lib now)
    (if c.ntp.client.isSome ∧ c.ntp.state = .inProcess then m.collect now (c.ntpReplies lib)
      else m) := by
  unfold collectedNtp ntpReplies awaited
  cases hc : c.ntp.client with
  | none =>
    rw [if_neg (by simp)]
    exact h
  | some client =>
    by_cases hs : c.ntp.state = .inProcess
    · dsimp only
      rw [if_pos hs, if_pos hs, if_pos ⟨rfl, hs⟩, collectNtp_foldl, h.queue client hc,
        ← List.map_append]
      have hserver := h.reached hs
      have hprocessed : Corrected config start (m.off config.ntp)
          { c with
            native := (c.native.ask lib (.ntp (.process client.handle))).2
            ntp := { c.ntp with client := some { client with queue := [] } } } :=
        h.corrected.of_eq rfl rfl rfl
          ((Session.Extends.ask lib (.ntp (.process client.handle)) c.native).not_sets nofun)
      have hfold := hprocessed.foldl lib hserver hnow (m.waiting
        ++ (c.native.ask lib (.ntp (.process client.handle))).1.filter NtpReply.hasContext)
      rw [← Mail.off_collect] at hfold
      refine ⟨hfold, ?_, fun _ => hserver⟩
      obtain ⟨native, status, heq, -⟩ := foldl_onNtpUpdate lib now
        { c with
          native := (c.native.ask lib (.ntp (.process client.handle))).2
          ntp := { c.ntp with client := some { client with queue := [] } } }
        ((m.waiting ++ (c.native.ask lib (.ntp (.process client.handle))).1.filter
          NtpReply.hasContext).map NtpUpdate.ofReply)
      rw [heq]
      rintro _ ⟨⟩
      rfl
    · dsimp only
      rw [if_neg hs, if_neg (fun e => hs e.2)]
      exact h

omit hnow in
/-- starting a time request -/
theorem requested (h : Corrects config start c m) :
    Corrects config start (c.requestedNtp lib now) m := by
  have hcalls := requestedNtp_calls lib c now
  obtain ⟨native, heq, -⟩ := requestedNtp_eq lib now c
  rw [heq] at hcalls ⊢
  refine ⟨h.corrected.of_eq rfl rfl rfl hcalls, h.queue, ?_⟩
  intro hs
  dsimp only at hs
  cases hattempt : c.ntpAttempt? lib now with
  | none =>
    rw [hattempt] at hs
    exact h.reached hs
  | some accepted =>
    rw [hattempt] at hs
    cases accepted with
    | false => cases hs
    | true =>
      rw [← h.corrected.settings]
      exact isSome_of_ntpAttempt? lib _ c hattempt

theorem tick (S : Surface τ ε) (h : Corrects config start c m) (offset : Int) :
    Corrects config start (c.tick lib S now offset).2
      (if c.ntp.client.isSome ∧ c.ntp.state = .inProcess then m.collect now (c.ntpReplies lib)
        else m) := by
  have hntp : Corrects config start (c.pumpNtp lib now)
      (if c.ntp.client.isSome ∧ c.ntp.state = .inProcess then m.collect now (c.ntpReplies lib)
        else m) := by
    rw [pumpNtp_eq]
    exact (h.collected lib hnow).requested lib
  obtain ⟨native, disk, weather, alarms, hpump, hcalls⟩ := pump_rest lib c now
  obtain ⟨host, htick⟩ := c.tick_eq lib S now offset
  rw [htick, hpump]
  exact hntp.of_eq rfl rfl rfl rfl hcalls

omit hnow in
/-- whatever happens to an attached clock -/
theorem apply (S : Surface τ ε) (h : Corrects config start c m) {e : Happening}
    (he : e ≠ .step .attach)
    (hleap : ∀ now offset, e = .step (.tick now offset) → now.nanosecond < 1000000000) :
    Corrects config start (e.apply lib S c) (sortNtp lib c m e) := by
  cases e with
  | step s =>
    cases s with
    | attach => exact absurd rfl he
    | start =>
      obtain ⟨host, hstart⟩ := c.start_eq S
      show Corrects config start (c.start S).2 m
      rw [hstart]
      exact h.of_eq rfl rfl rfl rfl (.refl _ _)
    | event e =>
      obtain ⟨host, hevent⟩ := c.handleEvent_eq S e
      show Corrects config start (c.handleEvent S e).2 m
      rw [hevent]
      exact h.of_eq rfl rfl rfl rfl (.refl _ _)
    | shutdown => exact h.drop rfl rfl rfl rfl (release_calls lib { c with host := _ })
    | tick now offset => exact h.tick lib (hleap now offset rfl) S offset
  | ntpReply r => exact h.receive r
  | weatherReply r => exact h.of_eq rfl rfl rfl rfl (.refl _ _)

end Corrects

/-- **The clock of the machine is set when it should be, and the status is the latest message about it.**
It is set at the start if that is configured, and once for every handled reply that finds the clock off, if
corrections are applied; a server name with a zero byte is never used. Before the clock is attached the
service is unavailable, and the clock of the machine is left alone. -/
theorem correction_report (lib : Library σ) (S : Surface τ ε) (config : Config) (disk : Disk)
    (state : σ) (surface : τ) (before after : List Happening)
    (hbefore : ∀ e ∈ before, e ≠ .step .attach) (hafter : ∀ e ∈ after, e ≠ .step .attach)
    (hleap : ∀ now offset, .step (.tick now offset) ∈ after → now.nanosecond < 1000000000) :
    let c₀ := Clock.new config disk (Session.new state) surface
    let life := before ++ .step .attach :: after
    let c := c₀.live lib S life
    let off := (c₀.ntpMail lib S life).off config.ntp
    (c₀.live lib S before).status = some "Clock service unavailable" ∧
    (c₀.live lib S before).native.trace Exchange.settings = [] ∧
    ∃ start corrections : List Int,
      start.length =
        (if config.ntp.syncOnStart ∧ (terminated? config.ntp.server).isSome then 1 else 0) ∧
      corrections.length = (if config.ntp.applyCorrection then off.length else 0) ∧
      c.native.trace Exchange.settings = (start ++ corrections).map (timeSetting config.ntp) ∧
      c.status = (start.map settingText ++
        if config.ntp.applyCorrection then corrections.map settingText else off.map offText).getLast? ∧
      ∀ client, c.ntp.client = some client →
        client.queue = (c₀.ntpMail lib S life).waiting.map .ofReply := by
  intro c₀ life c off
  have h0 : Unattached config c₀ := ⟨rfl, rfl, rfl, rfl⟩
  obtain ⟨h1, hmail⟩ : Unattached config (c₀.live lib S before) ∧ c₀.ntpMail lib S before = {} := by
    refine gather_keeps lib S (sortNtp lib) (P := fun c m => Unattached config c ∧ m = {})
      ⟨h0, rfl⟩ ?_
    rintro c _ e he ⟨hc, rfl⟩
    exact hc.apply lib S (hbefore e he)
  obtain ⟨start, hlength, h2⟩ := h1.attach lib
  have h3 : Corrects config start (((c₀.live lib S before).attach lib).live lib S after)
      (gather lib S (sortNtp lib) ((c₀.live lib S before).attach lib) {} after) := by
    refine gather_keeps lib S (sortNtp lib) h2 fun c m e he hc => hc.apply lib S (hafter e he) ?_
    rintro now offset rfl
    exact hleap now offset he
  have hlive : c = ((c₀.live lib S before).attach lib).live lib S after := live_append lib S c₀ before _
  have hgather : c₀.ntpMail lib S life =
      gather lib S (sortNtp lib) ((c₀.live lib S before).attach lib) {} after := by
    rw [ntpMail, gather_append]
    unfold ntpMail at hmail
    rw [hmail]
    rfl
  rw [← hlive, ← hgather] at h3
  obtain ⟨corrections, hcount, htrace, hstatus⟩ := h3.corrected.calls
  exact ⟨h1.status, h1.calls, start, corrections, hlength, hcount, htrace, hstatus, h3.queue⟩

/-- at 10 seconds past the epoch the server is 1699999990 seconds ahead, and the time is set once -/
theorem correction_report_tenSeconds :
    let after : List Happening :=
      [.step (.tick .epoch 0), .step (.tick ⟨10, 0, by decide, by decide⟩ 0)]
    let c := (Clock.new {} .empty (Session.new { knobs := {} }) {}).live Scripted.library
      Recording.surface ([] ++ .step .attach :: after)
    (∀ now offset, .step (.tick now offset) ∈ after → now.nanosecond < 1000000000) ∧
    ∃ status, c.native.trace Exchange.settings = [timeSetting {} status] ∧
      c.status = some (settingText status) := by
  intro after c
  have hleap : ∀ now offset, .step (.tick now offset) ∈ after → now.nanosecond < 1000000000 := by
    intro now offset h
    simp only [after, List.mem_cons, Happening.step.injEq, Step.tick.injEq, List.not_mem_nil,
      or_false] at h
    rcases h with ⟨rfl, -⟩ | ⟨rfl, -⟩
    · decide
    · decide
  refine ⟨hleap, ?_⟩
  obtain ⟨-, -, start, corrections, hstart, hcorrections, htrace, hstatus, -⟩ :=
    correction_report Scripted.library Recording.surface {} .empty { knobs := {} } {} [] after
      (by simp) (by simp [after]) hleap
  have hoff : ((Clock.new {} .empty (Session.new { knobs := {} }) {}).ntpMail Scripted.library
      Recording.surface ([] ++ .step .attach :: after)).off {} = [-1699999990] := by
    decide +kernel
  obtain rfl : start = [] := List.length_eq_zero_iff.mp hstart
  rw [hoff] at hcorrections
  obtain ⟨status, rfl⟩ := List.length_eq_one_iff.mp hcorrections
  exact ⟨status, htrace, hstatus⟩

end Clock

end DeskClock
