import DeskClock.Proofs.Native.Alarms

/-!
# scheduling the configured alarms

* `Weekdays.testBit_ofList`   the bits of a mask are those of its days;
* `AlarmSettings.ZeroFree`    an entry whose texts can be passed to the library;
* `AlarmSettings.AddedBy`     a call that adds an entry, with its texts, its time, its days and its sound;
* `Session.Asks`              calls made one after the other, with the answers of the library;
* `load_cons`, `load_cons_refused`   one entry: it is added and counts if it is accepted, or it is passed over;
* `load_asks`                 so there is one call for each entry that can be passed, in order;
* `KeepsLabels`               a library that refuses exactly the labels that a scheduler holds;
* `KeepsLabels.load`          of each label it then holds the first entry;
* `load_passes_over`          entries that are refused are passed over, and nothing else is.
-/

namespace DeskClock

open Native

variable {σ : Type}

/-! ## the days of an entry -/

namespace Weekdays

theorem toNat_bits_single (day : Weekday) : (single day).bits.toNat = 2 ^ day.index := by
  cases day <;> rfl

theorem testBit_foldl (days : List Weekday) (mask : Weekdays) (i : Nat) :
    (days.foldl (fun mask day => mask.union (single day)) mask).bits.toNat.testBit i = true ↔
      mask.bits.toNat.testBit i = true ∨ ∃ day ∈ days, day.index = i := by
  induction days generalizing mask with
  | nil => simp
  | cons day days ih =>
    rw [List.foldl_cons, ih, union, UInt32.toNat_or, Nat.testBit_or, toNat_bits_single, Nat.testBit_two_pow,
      Bool.or_eq_true, decide_eq_true_eq, List.exists_mem_cons_iff, or_assoc]

/-- **The bits of a mask are those of its days**, in any order and however often, and no other bits. -/
theorem testBit_ofList (days : List Weekday) (i : Nat) :
    (ofList days).bits.toNat.testBit i = true ↔ ∃ day ∈ days, day.index = i := by
  rw [ofList, testBit_foldl]
  refine or_iff_right fun h => ?_
  rw [show Weekdays.none.bits.toNat = 0 from rfl, Nat.zero_testBit] at h
  cases h

end Weekdays

/-! ## entries and calls -/

/-- the call that adds an alarm to a scheduler -/
abbrev Native.Scripted.StoredAlarm.addition (alarm : Scripted.StoredAlarm) (h : Handle) : Request :=
  .alarms (.add h alarm.text alarm.time alarm.days alarm.sound)

namespace AlarmSettings

/-- the texts of an entry can be passed to the library -/
def ZeroFree (e : AlarmSettings) : Prop :=
  '\x00' ∉ e.name.toList ∧ ∀ text ∈ e.sound, '\x00' ∉ text.toList

instance : DecidablePred ZeroFree := fun e =>
  inferInstanceAs (Decidable ('\x00' ∉ e.name.toList ∧ ∀ text ∈ e.sound, '\x00' ∉ text.toList))

/-- a call that adds an entry to a scheduler, with a mask that has the bits of its days and no other -/
inductive AddedBy (h : Handle) (e : AlarmSettings) : Exchange → Prop
  | intro {mask : UInt32} (hmask : ∀ i, mask.toNat.testBit i = true ↔ ∃ day ∈ e.days, day.index = i)
      (status : Int) : AddedBy h e ⟨.alarms (.add h (cString e.name) e.time mask (e.sound.map cString)), status⟩

/-- an entry as a scheduler holds it -/
def held (e : AlarmSettings) : Scripted.StoredAlarm where
  text := cString e.name
  time := e.time
  days := (Weekdays.ofList e.days).bits
  sound := e.sound.map cString

end AlarmSettings

namespace Native

/-- an alarm was added -/
def Exchange.isAddition : Exchange → Bool
  | ⟨.alarms (.add _ _ _ _ _), status⟩ => (status : Int) == 0
  | _ => false

theorem Exchange.isAddition_add (h : Handle) (text : Memory) (time : TimeOfDay) (days : UInt32)
    (sound : Option Memory) (status : Int) :
    Exchange.isAddition ⟨.alarms (.add h text time days sound), status⟩ = true ↔ status = 0 :=
  beq_iff_eq

/-- some calls, made one after the other, with the answers of the library -/
inductive Session.Asks (lib : Library σ) : Session σ → List Exchange → Session σ → Prop
  | nil {s : Session σ} : Asks lib s [] s
  | cons {s s' : Session σ} {calls : List Exchange} (r : Request) (h : Asks lib (s.ask lib r).2 calls s') :
      Asks lib s (⟨r, (s.ask lib r).1⟩ :: calls) s'

theorem Session.Asks.log_eq {lib : Library σ} {s s' : Session σ} {calls : List Exchange}
    (h : s.Asks lib calls s') : s'.log = s.log ++ calls := by
  induction h with
  | nil => exact (List.append_nil _).symm
  | @cons s s' calls r h ih =>
    rw [ih]
    exact List.append_assoc s.log [⟨r, (s.ask lib r).1⟩] calls

end Native

/-! ## one entry after the other -/

namespace AlarmScheduler

variable (a : AlarmScheduler) (lib : Library σ) {e : AlarmSettings} (alarms : List AlarmSettings) (s : Session σ)

/-- an entry that can be passed is added, and counts if it is accepted -/
theorem load_cons (he : e.ZeroFree) : a.load lib (e :: alarms) s =
    ((a.load lib alarms (s.ask lib (e.held.addition a.handle)).2).1 +
        (if (s.ask lib (e.held.addition a.handle)).1 = (0 : Int) then 1 else 0),
      (a.load lib alarms (s.ask lib (e.held.addition a.handle)).2).2) := by
  have hadd : a.add lib e.name e.time (.ofList e.days) e.sound s =
      (checkStatus .alarmAdd (s.ask lib (e.held.addition a.handle)).1,
        (s.ask lib (e.held.addition a.handle)).2) :=
    a.add_eq lib e.time _ s he.1 he.2
  rw [load, hadd]
  dsimp only
  rw [checkStatus]
  split_ifs
  · rfl
  · rfl

/-- any other entry is passed over without a call -/
theorem load_cons_refused (he : ¬e.ZeroFree) : a.load lib (e :: alarms) s = a.load lib alarms s := by
  have hzero : '\x00' ∈ e.name.toList ∨ ∃ text ∈ e.sound, '\x00' ∈ text.toList := by
    by_contra hnone
    obtain ⟨hname, hsound⟩ := not_or.mp hnone
    exact he ⟨hname, fun text htext hmem => hsound ⟨text, htext, hmem⟩⟩
  rw [load, a.add_eq_refused lib e.time _ s hzero]

/-- **One call for each entry that can be passed**, in order, and those that are accepted are counted. -/
theorem load_asks : ∃ calls, s.Asks lib calls (a.load lib alarms s).2 ∧
    List.Forall₂ (AlarmSettings.AddedBy a.handle) (alarms.filter (·.ZeroFree)) calls ∧
    (a.load lib alarms s).1 = calls.countP Exchange.isAddition := by
  induction alarms generalizing s with
  | nil => exact ⟨[], .nil, .nil, rfl⟩
  | cons e alarms ih =>
    by_cases he : e.ZeroFree
    · obtain ⟨calls, hasks, hadded, hcount⟩ := ih (s.ask lib (e.held.addition a.handle)).2
      rw [a.load_cons lib alarms s he, List.filter_cons, if_pos (decide_eq_true he)]
      refine ⟨_ :: calls, .cons _ hasks, .cons (.intro (Weekdays.testBit_ofList e.days) _) hadded, ?_⟩
      rw [List.countP_cons, ← hcount]
      exact congrArg (_ + ·) (if_congr (Exchange.isAddition_add _ _ _ _ _ _).symm rfl rfl)
    · rw [a.load_cons_refused lib alarms s he, List.filter_cons, if_neg (by simpa using he)]
      exact ih s

end AlarmScheduler

/-! ## a library that tells alarms by their labels -/

/-- A library that stores the alarms of a scheduler, in a relation between its states and the alarms that the
scheduler holds: it refuses exactly the labels that are held, and adds other alarms behind those held. -/
structure KeepsLabels (lib : Library σ) (h : Handle) (Holds : σ → List Scripted.StoredAlarm → Prop) :
    Prop where
  stores : ∀ {state alarms} (alarm : Scripted.StoredAlarm), Holds state alarms →
    (∀ held ∈ alarms, held.text ≠ alarm.text) →
    (lib.answer (alarm.addition h) state).1 = (0 : Int) ∧
      Holds (lib.answer (alarm.addition h) state).2 (alarms ++ [alarm])
  refuses : ∀ {state alarms} (alarm : Scripted.StoredAlarm), Holds state alarms →
    (∃ held ∈ alarms, held.text = alarm.text) →
    (lib.answer (alarm.addition h) state).1 ≠ (0 : Int) ∧ Holds (lib.answer (alarm.addition h) state).2 alarms

theorem Native.cString_inj {text text' : String} (h : cString text = cString text') : text = text' := by
  have hdecoded := congrArg Utf8.decode? (List.append_inj_left' h rfl)
  rw [Utf8.ofString, Utf8.ofString, Utf8.decode?_encode, Utf8.decode?_encode] at hdecoded
  exact String.toList_inj.mp (Option.some.inj hdecoded)

namespace KeepsLabels

variable {lib : Library σ} {a : AlarmScheduler} {Holds : σ → List Scripted.StoredAlarm → Prop}

/-- the entries that are kept so far are the first ones of their labels, the latest in front -/
theorem load_loop (hlib : KeepsLabels lib a.handle Holds) (alarms kept : List AlarmSettings) (s : Session σ)
    (hkept : Holds s.state (kept.reverse.map (·.held))) : Holds (a.load lib alarms s).2.state
      ((List.eraseDupsBy.loop (·.name == ·.name) (alarms.filter (·.ZeroFree)) kept).map (·.held)) := by
  induction alarms generalizing kept s with
  | nil => exact hkept
  | cons e alarms ih =>
    by_cases he : e.ZeroFree
    · rw [a.load_cons lib alarms s he, List.filter_cons, if_pos (decide_eq_true he), List.eraseDupsBy.loop]
      cases hany : kept.any (e.name == ·.name) with
      | true =>
        obtain ⟨e', hmem, hname⟩ := List.any_eq_true.mp hany
        have hheld : ∃ held ∈ kept.reverse.map (·.held), held.text = e.held.text :=
          ⟨e'.held, List.mem_map_of_mem (List.mem_reverse.mpr hmem), congrArg cString (beq_iff_eq.mp hname).symm⟩
        exact ih kept _ (hlib.refuses e.held hkept hheld).2
      | false =>
        have hnew : ∀ held ∈ kept.reverse.map (·.held), held.text ≠ e.held.text := by
          intro held hheld htext
          obtain ⟨e', hmem, rfl⟩ := List.mem_map.mp hheld
          refine List.any_eq_false.mp hany e' (List.mem_reverse.mp hmem) ?_
          exact beq_iff_eq.mpr (cString_inj htext).symm
        have hstored := (hlib.stores e.held hkept hnew).2
        refine ih (e :: kept) _ ?_
        rw [List.reverse_cons, List.map_append]
        exact hstored
    · rw [a.load_cons_refused lib alarms s he, List.filter_cons, if_neg (by simpa using he)]
      exact ih kept s hkept

/-- **Of each label the first entry is held**, in order. -/
theorem load (hlib : KeepsLabels lib a.handle Holds) (alarms : List AlarmSettings) (s : Session σ)
    (hfresh : Holds s.state []) : Holds (a.load lib alarms s).2.state
      (((alarms.filter (·.ZeroFree)).eraseDupsBy (·.name == ·.name)).map (·.held)) :=
  hlib.load_loop alarms [] s hfresh

end KeepsLabels

/-- the alarms of a scheduler, in a library that is not told to refuse all -/
theorem Native.Scripted.keepsLabels (h : Handle) :
    KeepsLabels Scripted.library h fun state alarms => state.knobs.addStatus = 0 ∧ state.stored h = alarms where
  stores := by
    rintro state _ alarm ⟨hknob, rfl⟩ hnew
    have hhas : state.hasAlarm h alarm.text = false := by
      rw [State.hasAlarm, List.any_eq_false]
      exact fun held hheld htext => hnew held hheld (beq_iff_eq.mp htext)
    have hanswer : library.answer (alarm.addition h) state =
        (0, { state with alarms := state.alarms ++ [(h, alarm)] }) := by
      show answerAlarms (.add h alarm.text alarm.time alarm.days alarm.sound) state = _
      rw [answerAlarms, if_neg (not_not_intro hknob), hhas, if_neg Bool.false_ne_true]
    rw [hanswer]
    refine ⟨rfl, hknob, ?_⟩
    simp [State.stored]
  refuses := by
    rintro state _ alarm ⟨hknob, rfl⟩ ⟨held, hheld, htext⟩
    have hhas : state.hasAlarm h alarm.text = true :=
      List.any_eq_true.mpr ⟨held, hheld, beq_iff_eq.mpr htext⟩
    have hanswer : library.answer (alarm.addition h) state =
        (3, state) := by
      show answerAlarms (.add h alarm.text alarm.time alarm.days alarm.sound) state = _
      rw [answerAlarms, if_neg (not_not_intro hknob), hhas, if_pos rfl]
    rw [hanswer]
    exact ⟨(by decide : (3 : Int) ≠ 0), hknob, rfl⟩

namespace AlarmScheduler

/-- **Refused entries are passed over, and no others.** Each entry whose texts have no zero character is given
to the library once, in order, with all that it says; the others are not. The count is that of the calls
answered with status zero. A fresh scheduler that refuses exactly the labels it holds ends with the first such
entry of each label, in order. -/
theorem load_passes_over (lib : Library σ) (a : AlarmScheduler) :
    (∀ alarms (s : Session σ), ∃ calls, s.Asks lib calls (a.load lib alarms s).2 ∧
      (a.load lib alarms s).2.log = s.log ++ calls ∧
      List.Forall₂ (AlarmSettings.AddedBy a.handle) (alarms.filter (·.ZeroFree)) calls ∧
      (a.load lib alarms s).1 = calls.countP Exchange.isAddition) ∧
    ∀ Holds, KeepsLabels lib a.handle Holds → ∀ alarms (s : Session σ), Holds s.state [] →
      Holds (a.load lib alarms s).2.state
        (((alarms.filter (·.ZeroFree)).eraseDupsBy (·.name == ·.name)).map (·.held)) := by
  refine ⟨fun alarms s => ?_, fun Holds hlib alarms s hfresh => hlib.load alarms s hfresh⟩
  obtain ⟨calls, hasks, hadded, hcount⟩ := a.load_asks lib alarms s
  exact ⟨calls, hasks, hasks.log_eq, hadded, hcount⟩

/-- two entries of one label and one with a zero character, in a library that stores alarms -/
theorem load_passes_over_wakeUp :
    let a : AlarmScheduler := ⟨1⟩
    let wakeUp : AlarmSettings := ⟨"Wake up", ⟨6, 30⟩, [.friday, .monday, .friday], some "chime.wav"⟩
    let trash : AlarmSettings := ⟨"Trash day", ⟨19, 0⟩, [.wednesday], none⟩
    let alarms : List AlarmSettings :=
      [wakeUp, { wakeUp with time := ⟨8, 0⟩ }, { trash with name := "Bad\x00label" }, trash]
    let loaded := a.load Scripted.library alarms (.new { knobs := {} })
    loaded.1 = 2 ∧ loaded.2.state.stored 1 = [wakeUp.held, trash.held] := by
  intro a wakeUp trash alarms loaded
  have h := load_passes_over Scripted.library a
  have hfirst : (alarms.filter (·.ZeroFree)).eraseDupsBy (·.name == ·.name) = [wakeUp, trash] := by
    decide +kernel
  have hstored := (h.2 _ (Scripted.keepsLabels 1) alarms (.new { knobs := {} }) ⟨rfl, rfl⟩).2
  rw [hfirst] at hstored
  exact ⟨by decide +kernel, hstored⟩

end AlarmScheduler

end DeskClock
