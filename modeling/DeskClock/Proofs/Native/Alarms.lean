import DeskClock.Native.Scripted
import DeskClock.Proofs.Native.Calls
import DeskClock.Proofs.Text.Lossy
import DeskClock.Proofs.TimeOfDay

/-!
# alarms across the native boundary

* `cString`                 a text as the library takes it;
* `textAt_cString`          the text of such bytes, whatever stands behind them;
* `AlarmRecord.HandsBack`   a record with all that an alarm was added with;
* `AlarmRecord.Tells`       what a record says of an alarm; `alarm?_eq_none_iff` and `alarm?_tells`: it says so of
                            the alarm that is made of it, unless its time is out of range;
* `AlarmScheduler.alarm_crosses`   an alarm comes back from the library as it was added.
-/

namespace DeskClock

open Native

variable {σ : Type}

/-! ## texts -/

theorem Utf8.zero_mem_encodeChar {c : Char} (h : 0 ∈ String.utf8EncodeChar c) : c = '\x00' := by
  have hbyte : ∀ n, n < 256 → n ≠ 0 → (0 : UInt8) ≠ UInt8.ofNat n := fun n hn hne h => by
    rw [← toNat_byte hn, ← h] at hne
    exact hne rfl
  have hv : c.val.toNat = 0 := by
    unfold String.utf8EncodeChar at h
    dsimp only at h
    generalize c.val.toNat = v at h
    split_ifs at h with h1 h2 h3
    all_goals simp only [List.mem_cons, List.not_mem_nil, or_false] at h
    · by_contra hv
      exact hbyte v (by omega) hv h
    -- the bytes of a longer character are not below 128
    · rcases h with h | h
      all_goals exact absurd h (hbyte _ (by omega) (by omega))
    · rcases h with h | h | h
      all_goals exact absurd h (hbyte _ (by omega) (by omega))
    · rcases h with h | h | h | h
      all_goals exact absurd h (hbyte _ (by omega) (by omega))
  rw [← Char.ofNat_toNat c]
  exact congrArg Char.ofNat hv

namespace Native

/-- a text as the library takes it: its bytes and a zero byte -/
def cString (text : String) : Memory := Utf8.ofString text ++ [0]

theorem zero_not_mem_ofString {text : String} (h : '\x00' ∉ text.toList) : 0 ∉ Utf8.ofString text := by
  intro hmem
  obtain ⟨c, hc, hzero⟩ := List.mem_flatMap.mp hmem
  rw [Utf8.zero_mem_encodeChar hzero] at hc
  exact h hc

theorem checkStatus_eq_ok_iff (entry : EntryPoint) (code : Int) :
    checkStatus entry code = .ok () ↔ code = 0 := by
  unfold checkStatus
  split
  · next h => exact iff_of_true rfl h
  · next h => exact iff_of_false nofun h

theorem terminated?_eq {text : String} (h : '\x00' ∉ text.toList) : terminated? text = some (cString text) := by
  unfold terminated?
  dsimp only
  rw [if_neg]
  · rfl
  · rw [List.contains_iff_mem]
    exact zero_not_mem_ofString h

theorem terminated?_eq_none {text : String} (h : '\x00' ∈ text.toList) : terminated? text = none := by
  have hzero : 0 ∈ Utf8.ofString text := List.mem_flatMap.mpr ⟨'\x00', h, List.mem_singleton_self 0⟩
  unfold terminated?
  dsimp only
  rw [if_pos (List.contains_iff_mem.mpr hzero)]

theorem textAt_append {before : Memory} (h : 0 ∉ before) (behind : Memory) :
    textAt (before ++ 0 :: behind) = Utf8.lossyString before := by
  have hbefore : ∀ b ∈ before, (b != 0) = true := fun b hb => bne_iff_ne.mpr fun e => h (e ▸ hb)
  have htake : (before ++ 0 :: behind).takeWhile (· != 0) = before := by
    rw [List.takeWhile_append_of_pos hbefore]
    simp
  rw [textAt, htake]

theorem textAt_cString {text : String} (h : '\x00' ∉ text.toList) {memory : Memory}
    (hm : cString text <+: memory) : textAt memory = text := by
  obtain ⟨behind, rfl⟩ := hm
  have hlossy : Utf8.lossy (Utf8.ofString text) = text.toList := by
    have hpieces := Utf8.pieces_encode text.toList []
    rw [List.append_nil, show Utf8.pieces [] = [] from rfl, List.append_nil] at hpieces
    rw [Utf8.lossy, Utf8.ofString, hpieces, List.map_map]
    exact List.map_id _
  rw [cString, List.append_assoc]
  show textAt (Utf8.ofString text ++ 0 :: behind) = text
  rw [textAt_append (zero_not_mem_ofString h), Utf8.lossyString, hlossy, String.ofList_toList]

/-- the bytes in front of the first zero byte show a text -/
def ShowsText (memory : Memory) (text : String) : Prop :=
  ∀ before behind, memory = before ++ 0 :: behind → 0 ∉ before → Utf8.Shows before text

theorem showsText_textAt (memory : Memory) : ShowsText memory (textAt memory) := by
  rintro before behind rfl h
  rw [textAt_append h]
  exact Utf8.lossyString_eq_iff.mp rfl

/-! ## records -/

namespace AlarmRecord

/-- a record with the time, the mask and the texts that an alarm was added with; anything may stand in
memory behind the texts -/
structure HandsBack (r : AlarmRecord) (text : Memory) (time : TimeOfDay) (days : UInt32)
    (sound : Option Memory) : Prop where
  hour : r.hour.toNat = time.hour
  minute : r.minute.toNat = time.minute
  days : r.days = days
  text : ∃ memory, r.text = some memory ∧ text <+: memory
  sound : Option.Rel (fun given memory => given <+: memory) sound r.sound

/-- an alarm is what a record says: no text for no address is the empty label, and no sound -/
structure Tells (r : AlarmRecord) (alarm : Alarm) : Prop where
  hour : alarm.time.hour.val = r.hour.toNat
  minute : alarm.time.minute.val = r.minute.toNat
  days : alarm.days.bits = r.days
  label : (r.text = none ∧ alarm.label = "") ∨ ∃ memory, r.text = some memory ∧ ShowsText memory alarm.label
  sound : Option.Rel ShowsText r.sound alarm.sound

variable {r : AlarmRecord}

theorem alarm?_eq_none_iff : r.alarm? = none ↔ 23 < r.hour.toNat ∨ 59 < r.minute.toNat := by
  rw [alarm?, Option.map_eq_none_iff, TimeOfDay.of?, dite_eq_right_iff]
  constructor
  · intro h
    by_contra hout
    exact Option.some_ne_none _ (h (by omega))
  · intro hout h
    omega

theorem alarm?_tells {alarm : Alarm} (h : r.alarm? = some alarm) : r.Tells alarm := by
  obtain ⟨time, htime, rfl⟩ := Option.map_eq_some_iff.mp h
  rw [TimeOfDay.of?] at htime
  split at htime
  · cases htime
    refine ⟨rfl, rfl, rfl, ?_, ?_⟩
    · cases r.text with
      | none => exact .inl ⟨rfl, rfl⟩
      | some memory => exact .inr ⟨memory, rfl, showsText_textAt memory⟩
    · dsimp only
      cases r.sound with
      | none => exact .none
      | some memory => exact .some (showsText_textAt memory)
  · cases htime

/-- **A record with what an alarm was added with is that alarm.** -/
theorem HandsBack.alarm?_eq {label : String} {time : TimeOfDay} {days : Weekdays} {sound : Option String}
    (h : r.HandsBack (cString label) time days.bits (sound.map cString)) (hlabel : '\x00' ∉ label.toList)
    (hsound : ∀ text ∈ sound, '\x00' ∉ text.toList) : r.alarm? = some ⟨label, time, days, sound⟩ := by
  obtain ⟨hhour, hminute, hdays, ⟨memory, htext, hprefix⟩, hrel⟩ := h
  have hback : r.sound.map textAt = sound := by
    cases sound with
    | none =>
      generalize r.sound = handed at hrel
      cases hrel
      rfl
    | some text =>
      rw [Option.map_some] at hrel
      generalize r.sound = handed at hrel
      cases hrel with
      | some hmemory => exact congrArg some (textAt_cString (hsound text rfl) hmemory)
  rw [alarm?, hhour, hminute, TimeOfDay.of?_eq, htext, hback, hdays]
  simp only [Option.map_some, Option.getD_some, textAt_cString hlabel hprefix]

end AlarmRecord

end Native

namespace AlarmScheduler

variable (lib : Library σ) (a : AlarmScheduler)

theorem soundMemory?_eq {sound : Option String} (h : ∀ text ∈ sound, '\x00' ∉ text.toList) :
    soundMemory? sound = some (sound.map cString) := by
  cases sound with
  | none => rfl
  | some text => rw [soundMemory?, terminated?_eq (h text rfl)]; rfl

theorem soundMemory?_eq_none {sound : Option String} (h : ∃ text ∈ sound, '\x00' ∈ text.toList) :
    soundMemory? sound = none := by
  obtain ⟨text, rfl, hzero⟩ := h
  rw [soundMemory?, terminated?_eq_none hzero]
  rfl

theorem add_eq_refused {label : String} (time : TimeOfDay) (days : Weekdays) {sound : Option String}
    (s : Session σ) (h : '\x00' ∈ label.toList ∨ ∃ text ∈ sound, '\x00' ∈ text.toList) :
    a.add lib label time days sound s = (.error .interiorNul, s) := by
  unfold add
  rcases h with hlabel | hsound
  · rw [terminated?_eq_none hlabel]
  · rw [soundMemory?_eq_none hsound]
    cases terminated? label <;> rfl

theorem add_eq {label : String} (time : TimeOfDay) (days : Weekdays) {sound : Option String} (s : Session σ)
    (hlabel : '\x00' ∉ label.toList) (hsound : ∀ text ∈ sound, '\x00' ∉ text.toList) :
    a.add lib label time days sound s =
      (checkStatus .alarmAdd (s.ask lib (.alarms (.add a.handle (cString label) time days.bits
        (sound.map cString)))).1,
      (s.ask lib (.alarms (.add a.handle (cString label) time days.bits (sound.map cString)))).2) := by
  rw [add, terminated?_eq hlabel, soundMemory?_eq hsound]

/-- **Alarms survive the native boundary.** An alarm whose texts have no zero character is given to the
library as it is, and is accepted for the status zero; a record that hands it back gives the same alarm. Of
any record, the alarm has the time, the mask and the texts, and only a time out of range makes it
malformed. -/
theorem alarm_crosses :
    (∀ (label : String) (time : TimeOfDay) (days : Weekdays) (sound : Option String) (s : Session σ),
      '\x00' ∉ label.toList → (∀ text ∈ sound, '\x00' ∉ text.toList) →
      let given := s.ask lib (.alarms (.add a.handle (cString label) time days.bits (sound.map cString)))
      let added := a.add lib label time days sound s
      added.2 = given.2 ∧ (added.1 = .ok () ↔ given.1 = (0 : Int)) ∧
      ∀ (later : Session σ) (record : AlarmRecord),
        (later.ask lib (.alarms (.next a.handle))).1 = some record →
        record.HandsBack (cString label) time days.bits (sound.map cString) →
        (a.next lib later).1 = .ok (some ⟨label, time, days, sound⟩)) ∧
    ∀ (s : Session σ) (record : AlarmRecord), (s.ask lib (.alarms (.next a.handle))).1 = some record →
      ((a.next lib s).1 = .error (.malformedRecord .alarmNext) ↔
        23 < record.hour.toNat ∨ 59 < record.minute.toNat) ∧
      (¬(23 < record.hour.toNat ∨ 59 < record.minute.toNat) →
        ∃ alarm, (a.next lib s).1 = .ok (some alarm) ∧ record.Tells alarm) := by
  refine ⟨fun label time days sound s hlabel hsound => ?_, fun s record hrecord => ?_⟩
  · have hadd := a.add_eq lib time days s hlabel hsound
    refine ⟨by rw [hadd], by rw [hadd, checkStatus_eq_ok_iff], fun later record hrecord hback => ?_⟩
    rw [next_answer, hrecord, Option.elim_some, hback.alarm?_eq hlabel hsound]
    rfl
  · rw [next_answer, hrecord, Option.elim_some, ← AlarmRecord.alarm?_eq_none_iff]
    cases h : record.alarm? with
    | none => exact ⟨by simp, fun hne => absurd rfl hne⟩
    | some alarm => exact ⟨by simp, fun _ => ⟨alarm, rfl, AlarmRecord.alarm?_tells h⟩⟩

/-- a bell in the label, an empty sound and a mask with all bits, in a library that stores alarms -/
theorem alarm_crosses_bell :
    let a : AlarmScheduler := ⟨1⟩
    let bell : Alarm := ⟨"Wake up 🔔", ⟨6, 30⟩, ⟨0xFFFFFFFF⟩, some ""⟩
    let added := a.add Scripted.library bell.label bell.time bell.days bell.sound (.new { knobs := {} })
    added.1 = .ok () ∧ (a.next Scripted.library added.2).1 = .ok (some bell) := by
  intro a bell added
  have hlabel : '\x00' ∉ bell.label.toList := by decide
  have hsound : ∀ text ∈ bell.sound, '\x00' ∉ text.toList := by
    rintro _ ⟨⟩
    decide
  have h := (alarm_crosses Scripted.library a).1 bell.label bell.time bell.days bell.sound
    (.new { knobs := {} }) hlabel hsound
  refine ⟨h.2.1.mpr rfl, ?_⟩
  rw [h.1]
  refine h.2.2 _ ⟨6, 30, 0xFFFFFFFF, some (cString bell.label), some (cString "")⟩ rfl ?_
  exact ⟨rfl, rfl, rfl, ⟨_, rfl, List.prefix_rfl⟩, .some List.prefix_rfl⟩

end AlarmScheduler

end DeskClock
