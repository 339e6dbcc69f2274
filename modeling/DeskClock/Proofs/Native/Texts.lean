import DeskClock.Proofs.Clock.Queues
import DeskClock.Proofs.Native.Alarms

/-!
# texts are passed whole or not at all

* `PassesWhole`             the rule for an operation that passes texts to the library: with a zero character in
                            one of them there is no call and nothing changes, otherwise there is one call, with
                            all their bytes, and its answer makes the result;
* `PassesWhole.of_one`      the rule for a single text;
* `setTime_passesWhole`, `getTime_passesWhole`, `create_passesWhole`, `add_passesWhole`,
  `remove_passesWhole`      each operation keeps it, with its own call and its own result;
* `texts_cross_whole`       all of them do, in any state of any library.
-/

namespace DeskClock

open Native

variable {σ α : Type}

namespace Native

/-- The rule for an operation that passes texts in a call. A text with a zero character in it is refused: no
call is made and the session is as it was. Otherwise the call is made once, and its answer makes the result. -/
structure PassesWhole (lib : Library σ) (s : Session σ) (texts : List String) (call : Request)
    (result : call.Answer → Except Fault α) (outcome : Except Fault α × Session σ) : Prop where
  refused : (∃ text ∈ texts, '\x00' ∈ text.toList) → outcome = (.error .interiorNul, s)
  called : (∀ text ∈ texts, '\x00' ∉ text.toList) →
    outcome = (result (lib.answer call s.state).1,
      ⟨(lib.answer call s.state).2, s.log ++ [⟨call, (lib.answer call s.state).1⟩]⟩)

variable {lib : Library σ} {s : Session σ}

/-- a single text is either refused or passed with a zero byte at its end -/
theorem PassesWhole.of_one {text : String} {call : Request} {result : call.Answer → Except Fault α}
    {outcome : Except Fault α × Session σ}
    (hnone : terminated? text = none → outcome = (.error .interiorNul, s))
    (hsome : terminated? text = some (cString text) →
      outcome = (result (s.ask lib call).1, (s.ask lib call).2)) :
    PassesWhole lib s [text] call result outcome where
  refused := by
    rintro ⟨text', hmem, hzero⟩
    rw [List.mem_singleton.mp hmem] at hzero
    exact hnone (terminated?_eq_none hzero)
  called h := hsome (terminated?_eq (h text (List.mem_singleton_self text)))

end Native

variable (lib : Library σ) (s : Session σ)

/-! ## the operations -/

theorem setTime_passesWhole (server : String) (timeout : Duration) :
    PassesWhole lib s [server] (.ntp (.setTime (cString server) timeout.wholeSeconds))
      (fun status => .ok (if status = 0 then .success else .failed status)) (setTime lib server timeout s) :=
  .of_one (fun h => by rw [setTime, h]) fun h => by
    rw [setTime, h]
    rfl

theorem NtpClient.getTime_passesWhole (c : NtpClient) (server : String) (timeout : Duration) :
    PassesWhole lib s [server] (.ntp (.getTime c.handle (cString server) timeout.wholeSeconds))
      (fun status => if status = 0 then .ok () else .error (.status .ntpGetTime status))
      (c.getTime lib server timeout s) :=
  .of_one (fun h => by rw [getTime, h]) fun h => by
    rw [getTime, h]
    rfl

theorem WeatherClient.create_passesWhole (key : String) (unit : TemperatureUnit) :
    PassesWhole lib s [key] (.weather (.create (s.nextHandle .weather) (cString key) unit.code))
      (fun made => if made then .ok ⟨s.nextHandle .weather, unit, []⟩ else .error (.nullHandle .weatherCreate))
      (create lib key unit s) :=
  .of_one (fun h => by rw [create, h]) fun h => by
    rw [create, h]
    dsimp only
    split
    · rfl
    · rfl

namespace AlarmScheduler

variable (a : AlarmScheduler)

/-- of the two texts of an alarm, the sound need not be there -/
theorem add_passesWhole (label : String) (time : TimeOfDay) (days : Weekdays) (sound : Option String) :
    PassesWhole lib s (label :: sound.toList)
      (.alarms (.add a.handle (cString label) time days.bits (sound.map cString)))
      (fun status => if status = 0 then .ok () else .error (.status .alarmAdd status))
      (a.add lib label time days sound s) where
  refused h := by
    rw [List.exists_mem_cons_iff] at h
    refine a.add_eq_refused lib time days s (h.imp_right fun ⟨text, hmem, hzero⟩ => ?_)
    exact ⟨text, Option.mem_toList.mp hmem, hzero⟩
  called h := by
    rw [List.forall_mem_cons] at h
    exact a.add_eq lib time days s h.1 fun text hmem => h.2 text (Option.mem_toList.mpr hmem)

theorem remove_passesWhole (label : String) :
    PassesWhole lib s [label] (.alarms (.remove a.handle (cString label)))
      (fun status => if status = 0 then .ok () else .error (.status .alarmRemove status))
      (a.remove lib label s) :=
  .of_one (fun h => by rw [remove, h]) fun h => by
    rw [remove, h]
    rfl

end AlarmScheduler

/-- **Texts are passed whole or not at all**, in any state of any library. A status other than zero is a fault
of the call that was made, but for setting the clock of the machine it is an outcome; a client that is not
made is a fault of making it. Starting a time request leaves the client, with the updates that wait in its
queue, as it is. -/
theorem texts_cross_whole (lib : Library σ) (s : Session σ) :
    (∀ server timeout,
      PassesWhole lib s [server] (.ntp (.setTime (cString server) timeout.wholeSeconds))
        (fun status => .ok (if status = 0 then .success else .failed status))
        (setTime lib server timeout s)) ∧
    (∀ (c : NtpClient) server timeout,
      PassesWhole lib s [server] (.ntp (.getTime c.handle (cString server) timeout.wholeSeconds))
        (fun status => if status = 0 then .ok () else .error (.status .ntpGetTime status))
        (c.getTime lib server timeout s)) ∧
    (∀ (u : NtpClient.InUse σ) server timeout,
      ((NtpClient.Op.request server timeout).apply lib u).client = u.client) ∧
    (∀ key (unit : TemperatureUnit),
      PassesWhole lib s [key] (.weather (.create (s.nextHandle .weather) (cString key) unit.code))
        (fun made =>
          if made then .ok ⟨s.nextHandle .weather, unit, []⟩ else .error (.nullHandle .weatherCreate))
        (WeatherClient.create lib key unit s)) ∧
    ∀ a : AlarmScheduler,
      (∀ label time days (sound : Option String),
        PassesWhole lib s (label :: sound.toList)
          (.alarms (.add a.handle (cString label) time days.bits (sound.map cString)))
          (fun status => if status = 0 then .ok () else .error (.status .alarmAdd status))
          (a.add lib label time days sound s)) ∧
      ∀ label,
        PassesWhole lib s [label] (.alarms (.remove a.handle (cString label)))
          (fun status => if status = 0 then .ok () else .error (.status .alarmRemove status))
          (a.remove lib label s) := by
  exact ⟨setTime_passesWhole lib s, fun c => c.getTime_passesWhole lib s, fun _ _ _ => rfl,
    WeatherClient.create_passesWhole lib s, fun a => ⟨a.add_passesWhole lib s, a.remove_passesWhole lib s⟩⟩

end DeskClock
