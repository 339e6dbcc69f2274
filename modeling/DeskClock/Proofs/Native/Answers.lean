import DeskClock.Proofs.Native.Calls

/-!
# the answers of one service

* `Library.after`      the state of a library after some calls;
* `SameAnswers`        two libraries answer a service alike, whatever the other services are asked;
* `Session.callsTo`    the calls of a session that are made to a service;
* `Session.Goes`       a session goes on with calls to one service;
* `Alike`              two sessions that a service cannot tell apart;
* `Alike.ask`, `Alike.goes`   they stay so if both make a call to the service, and if one of them makes
                       calls to another;
* `Confined`           a computation that calls one service and depends on its answers only; each operation
                       of a client is one.
-/

namespace DeskClock

open Native

namespace Native

variable {σ σ₁ σ₂ : Type}

def Library.after (lib : Library σ) (state : σ) (calls : List Request) : σ :=
  calls.foldl (fun state r => (lib.answer r state).2) state

/-- Two libraries have the same answers for a service: they follow from the calls made to it so far. Of one
library, this says that its answers for the service depend on nothing else. -/
def SameAnswers (service : Service) (lib₁ : Library σ₁) (lib₂ : Library σ₂) (state₁ : σ₁)
    (state₂ : σ₂) : Prop :=
  ∀ calls₁ calls₂ : List Request,
    calls₁.filter (·.service = service) = calls₂.filter (·.service = service) →
    ∀ r : Request, r.service = service →
      (lib₁.answer r (lib₁.after state₁ calls₁)).1 = (lib₂.answer r (lib₂.after state₂ calls₂)).1

namespace Session

def callsTo (s : Session σ) (service : Service) : List Exchange :=
  s.log.filter (·.1.service = service)

/-- a session goes on with calls to one service -/
inductive Goes (lib : Library σ) (service : Service) (s : Session σ) : Session σ → Prop where
  | refl : Goes lib service s s
  | ask {s' : Session σ} (r : Request) (hr : r.service = service) (h : Goes lib service s s') :
      Goes lib service s (s'.ask lib r).2

variable {lib : Library σ} {service : Service} {s s' s'' : Session σ}

theorem Goes.trans (h : s.Goes lib service s') (h' : s'.Goes lib service s'') :
    s.Goes lib service s'' := by
  induction h' with
  | refl => exact h
  | ask r hr _ ih => exact .ask r hr ih

theorem callsTo_ask (r : Request) : (s.ask lib r).2.callsTo service =
    s.callsTo service ++ if r.service = service then [⟨r, (s.ask lib r).1⟩] else [] := by
  unfold callsTo ask
  dsimp only
  rw [List.filter_append]
  by_cases hr : r.service = service
  · simp [hr]
  · simp [hr]

/-- an object is made by a call to its own service -/
theorem service_of_made {e : Exchange} (h : e.made?.any (·.1 == service) = true) :
    e.1.service = service := by
  unfold Exchange.made? at h
  split at h
  · next h' made =>
    cases made with
    | false => cases h
    | true => simpa [Request.service] using h
  · next h' key unit made =>
    cases made with
    | false => cases h
    | true => simpa [Request.service] using h
  · next h' made =>
    cases made with
    | false => cases h
    | true => simpa [Request.service] using h
  · cases h

/-- the handles of a service follow from the calls made to it -/
theorem nextHandle_eq_callsTo (s : Session σ) (service : Service) : s.nextHandle service =
    ((s.callsTo service).filter fun e => e.made?.any (·.1 == service)).length + 1 := by
  unfold nextHandle callsTo
  rw [List.filter_filter]
  congr 2
  refine List.filter_congr fun e _ => ?_
  cases h : e.made?.any (·.1 == service) with
  | false => rfl
  | true => simp [service_of_made h]

end Session

/-! ## sessions that a service cannot tell apart -/

/-- the same calls were made to the service, with the same answers, and so it will go on -/
structure Alike (lib₁ : Library σ₁) (lib₂ : Library σ₂) (service : Service) (s₁ : Session σ₁)
    (s₂ : Session σ₂) : Prop where
  calls : s₁.callsTo service = s₂.callsTo service
  answers : SameAnswers service lib₁ lib₂ s₁.state s₂.state

namespace Alike

variable {lib₁ : Library σ₁} {lib₂ : Library σ₂} {service other : Service} {s₁ s₁' : Session σ₁}
  {s₂ : Session σ₂}

theorem symm (h : Alike lib₁ lib₂ service s₁ s₂) : Alike lib₂ lib₁ service s₂ s₁ :=
  ⟨h.calls.symm, fun calls₁ calls₂ hcalls r hr => (h.answers calls₂ calls₁ hcalls.symm r hr).symm⟩

theorem nextHandle (h : Alike lib₁ lib₂ service s₁ s₂) :
    s₁.nextHandle service = s₂.nextHandle service := by
  rw [Session.nextHandle_eq_callsTo, Session.nextHandle_eq_callsTo, h.calls]

/-- a call to the service has one answer in both -/
theorem ask (h : Alike lib₁ lib₂ service s₁ s₂) {r : Request} (hr : r.service = service) :
    (s₁.ask lib₁ r).1 = (s₂.ask lib₂ r).1 ∧
      Alike lib₁ lib₂ service (s₁.ask lib₁ r).2 (s₂.ask lib₂ r).2 := by
  have hanswer : (s₁.ask lib₁ r).1 = (s₂.ask lib₂ r).1 := h.answers [] [] rfl r hr
  refine ⟨hanswer, ?_, ?_⟩
  · rw [Session.callsTo_ask, Session.callsTo_ask, h.calls, hanswer]
  · intro calls₁ calls₂ hcalls r' hr'
    exact h.answers (r :: calls₁) (r :: calls₂) (by simp [hcalls, hr]) r' hr'

/-- calls to another service are not seen -/
theorem goes (h : Alike lib₁ lib₂ service s₁ s₂) (hother : other ≠ service)
    (hgoes : s₁.Goes lib₁ other s₁') : Alike lib₁ lib₂ service s₁' s₂ := by
  induction hgoes with
  | refl => exact h
  | ask r hr _ ih =>
    have hne : r.service ≠ service := fun he => hother (hr.symm.trans he)
    refine ⟨?_, ?_⟩
    · rw [Session.callsTo_ask, if_neg hne, List.append_nil, ih.calls]
    · intro calls₁ calls₂ hcalls r' hr'
      refine ih.answers (r :: calls₁) calls₂ ?_ r' hr'
      rw [List.filter_cons_of_neg (by simpa using hne), hcalls]

end Alike

/-! ## computations that call one service -/

/-- a computation that calls one service, and whose result follows from the answers of that service -/
structure Confined {α : Type} (service : Service)
    (f : {σ : Type} → Library σ → Session σ → α × Session σ) : Prop where
  goes {σ : Type} (lib : Library σ) (s : Session σ) : s.Goes lib service (f lib s).2
  alike {σ₁ σ₂ : Type} {lib₁ : Library σ₁} {lib₂ : Library σ₂} {s₁ : Session σ₁} {s₂ : Session σ₂} :
    Alike lib₁ lib₂ service s₁ s₂ →
      (f lib₁ s₁).1 = (f lib₂ s₂).1 ∧ Alike lib₁ lib₂ service (f lib₁ s₁).2 (f lib₂ s₂).2

namespace Confined

variable {α β : Type} {service : Service}

theorem pure (service : Service) (a : α) : Confined service fun _ s => (a, s) where
  goes _ _ := .refl
  alike h := ⟨rfl, h⟩

/-- one call, and what is made of its answer -/
theorem ask (r : Request) (hr : r.service = service) (k : r.Answer → α) :
    Confined service fun lib s => (k (s.ask lib r).1, (s.ask lib r).2) where
  goes _ _ := .ask r hr .refl
  alike h := ⟨congrArg k (h.ask hr).1, (h.ask hr).2⟩

/-- an object is made under the next handle of the service -/
theorem withHandle {f : Handle → {σ : Type} → Library σ → Session σ → α × Session σ}
    (hf : ∀ handle, Confined service (f handle)) :
    Confined service fun lib s => f (s.nextHandle service) lib s where
  goes lib s := (hf _).goes lib s
  alike {_ _ _ lib₂ _ s₂} h := by
    have hf₁ := (hf (s₂.nextHandle service)).alike h
    rw [← h.nextHandle] at hf₁ ⊢
    exact hf₁

theorem bind {f : {σ : Type} → Library σ → Session σ → α × Session σ}
    {g : α → {σ : Type} → Library σ → Session σ → β × Session σ} (hf : Confined service f)
    (hg : ∀ a, Confined service (g a)) :
    Confined service fun lib s => g (f lib s).1 lib (f lib s).2 where
  goes lib s := (hf.goes lib s).trans ((hg _).goes lib _)
  alike h := by
    obtain ⟨hresult, hsessions⟩ := hf.alike h
    rw [hresult]
    exact (hg _).alike hsessions

/-- the same computation, written in another way -/
theorem congr {f g : {σ : Type} → Library σ → Session σ → α × Session σ} (hf : Confined service f)
    (h : ∀ {σ : Type} (lib : Library σ) (s : Session σ), g lib s = f lib s) : Confined service g where
  goes lib s := by
    rw [h]
    exact hf.goes lib s
  alike hs := by
    rw [h, h]
    exact hf.alike hs

end Confined

end Native

/-! ## the operations of the clients -/

open Native.Confined

theorem setTime_confined (server : String) (timeout : Duration) :
    Confined .ntp fun lib s => setTime lib server timeout s := by
  unfold setTime
  cases terminated? server with
  | none => exact pure .ntp _
  | some server =>
    exact ask (.ntp (.setTime server timeout.wholeSeconds)) rfl fun status =>
      Except.ok (SetTimeOutcome.ofStatus status)

namespace NtpClient

variable (c : NtpClient)

theorem create_confined : Confined .ntp fun lib s => create lib s := by
  refine (withHandle fun handle => ask (.ntp (.create handle)) rfl fun made =>
    if (made : Bool) then Except.ok (NtpClient.mk handle []) else .error (Fault.nullHandle .ntpCreate)).congr ?_
  intro σ lib s
  unfold create
  dsimp only
  split <;> rfl

theorem getTime_confined (server : String) (timeout : Duration) :
    Confined .ntp fun lib s => c.getTime lib server timeout s := by
  unfold getTime
  cases terminated? server with
  | none => exact pure .ntp _
  | some server =>
    exact ask (.ntp (.getTime c.handle server timeout.wholeSeconds)) rfl (checkStatus .ntpGetTime)

theorem process_confined : Confined .ntp fun lib s => c.process lib s :=
  ask (.ntp (.process c.handle)) rfl c.receiveAll

theorem close_confined : Confined .ntp fun lib s => ((), c.close lib s) :=
  ask (.ntp (.destroy c.handle)) rfl fun _ => ()

end NtpClient

namespace WeatherClient

variable (c : WeatherClient)

theorem create_confined (key : String) (unit : TemperatureUnit) :
    Confined .weather fun lib s => create lib key unit s := by
  unfold create
  cases terminated? key with
  | none => exact pure .weather _
  | some key =>
    refine (withHandle fun handle => ask (.weather (.create handle key unit.code)) rfl fun made =>
      if (made : Bool) then Except.ok (WeatherClient.mk handle unit [])
      else .error (Fault.nullHandle .weatherCreate)).congr ?_
    intro σ lib s
    dsimp only
    split <;> rfl

theorem getByCity_confined (location : GeoLocation) (timeout : Duration) :
    Confined .weather fun lib s => c.getByCity lib location timeout s :=
  ask (.weather (.getByCity c.handle location timeout.wholeSeconds)) rfl (checkStatus .weatherGetByCity)

theorem process_confined : Confined .weather fun lib s => c.process lib s :=
  ask (.weather (.process c.handle)) rfl c.receiveAll

theorem close_confined : Confined .weather fun lib s => ((), c.close lib s) :=
  ask (.weather (.destroy c.handle)) rfl fun _ => ()

end WeatherClient

namespace AlarmScheduler

variable (a : AlarmScheduler)

theorem create_confined : Confined .alarms fun lib s => create lib s := by
  refine (withHandle fun handle => ask (.alarms (.create handle)) rfl fun made =>
    if (made : Bool) then Except.ok (AlarmScheduler.mk handle)
    else .error (Fault.nullHandle .alarmCreate)).congr ?_
  intro σ lib s
  unfold create
  dsimp only
  split <;> rfl

theorem add_confined (label : String) (time : TimeOfDay) (days : Weekdays) (sound : Option String) :
    Confined .alarms fun lib s => a.add lib label time days sound s := by
  unfold add
  split
  · next text sound _ _ =>
    exact ask (.alarms (.add a.handle text time days.bits sound)) rfl (checkStatus .alarmAdd)
  · exact pure .alarms _

theorem load_confined (alarms : List AlarmSettings) :
    Confined .alarms fun lib s => a.load lib alarms s := by
  induction alarms with
  | nil => exact pure .alarms 0
  | cons alarm alarms ih =>
    refine ((a.add_confined alarm.name alarm.time (.ofList alarm.days) alarm.sound).bind fun added =>
      ih.bind fun count => pure .alarms (if added.isOk then count + 1 else count)).congr ?_
    intro σ lib s
    rw [load]
    cases a.add lib alarm.name alarm.time (.ofList alarm.days) alarm.sound s with
    | mk added s => cases added <;> rfl

theorem next_confined : Confined .alarms fun lib s => a.next lib s := by
  refine (ask (.alarms (.next a.handle)) rfl fun record =>
    (record : Option AlarmRecord).elim (Except.ok none) fun record =>
      record.alarm?.elim (.error (Fault.malformedRecord .alarmNext)) fun alarm =>
        .ok (some alarm)).congr ?_
  intro σ lib s
  exact Prod.ext (a.next_answer lib s) (a.next_eq lib s)

theorem close_confined : Confined .alarms fun lib s => ((), a.close lib s) :=
  ask (.alarms (.destroy a.handle)) rfl fun _ => ()

end AlarmScheduler

end DeskClock
