import DeskClock.Proofs.Text.Blank
import DeskClock.Proofs.Text.Digits
import DeskClock.Proofs.Text.Pieces
import DeskClock.TimeOfDay

/-!
# the text of a time is read back

* `fields_append`   the fields of a text are the parts between its colons; `fields_eq_splitOn`;
* `IsField`         one or two digits; `IsField.byte?_eq`: they are always the digits of a byte;
* `Spells`          the grammar of times: two or three fields with a colon between them, and their values;
                    `numbers?_eq_some_iff`: the numbers that are read are those that are spelled;
* `Parses`          what a text without blanks around it gives;
* `parse_text`      the text of a time is parsed as the time;
* `text_inj`, `length_text`   so it is that of no other time, and it has five characters;
* `parse_grammar`   exactly the times of the grammar are parsed, and each fault has its condition.
-/

namespace DeskClock

namespace TimeOfDay

/-! ## fields -/

theorem fields_append {cs : List Char} (h : ':' ∉ cs) (rest : List Char) :
    fields (cs ++ ':' :: rest) = cs :: fields rest := by
  induction cs with
  | nil => rw [List.nil_append, fields, if_pos rfl]
  | cons c cs ih =>
    rw [List.mem_cons, not_or] at h
    rw [List.cons_append, fields, if_neg (Ne.symm h.1), ih h.2]

theorem fields_eq_splitOn (cs : List Char) : fields cs = cs.splitOn ':' := by
  induction cs with
  | nil => rfl
  | cons c cs ih =>
    rw [fields, List.splitOn_cons_eq_if_modifyHead, ih]
    by_cases hc : c = ':'
    · rw [if_pos hc, if_pos (beq_iff_eq.mpr hc)]
    · rw [if_neg hc, if_neg (mt beq_iff_eq.mp hc)]
      cases hfields : cs.splitOn ':' with
      | nil => exact absurd hfields (List.splitOn_ne_nil _ _)
      | cons field fields => rfl

theorem fields_of_not_mem {cs : List Char} (h : ':' ∉ cs) : fields cs = [cs] := by
  rw [fields_eq_splitOn, splitOn_of_not_mem h]

theorem intercalate_fields (cs : List Char) : [':'].intercalate (fields cs) = cs := by
  rw [fields_eq_splitOn]
  exact List.intercalate_splitOn ':'

theorem length_padded_two {n : Nat} (h : n < 100) : (Digits.padded 2 n).length = 2 :=
  Digits.length_padded (by omega) h

/-- one or two digits -/
structure IsField (cs : List Char) : Prop where
  length : cs.length = 1 ∨ cs.length = 2
  digits : ∀ c ∈ cs, c.isDigit = true

namespace IsField

variable {cs : List Char}

theorem colon_not_mem (h : IsField cs) : ':' ∉ cs := fun hc => by cases h.digits ':' hc

/-- two digits at most are those of a byte -/
theorem byte?_eq (h : IsField cs) : byte? cs = some (Digits.value cs) := by
  have hempty : cs.isEmpty = false := by
    cases cs with
    | nil => rcases h.length with h | h <;> cases h
    | cons c cs => rfl
  have hsmall : Digits.value cs < 256 := by
    have hlt := Digits.value_lt cs h.digits
    rcases h.length with hlength | hlength
    · rw [hlength] at hlt
      omega
    · rw [hlength] at hlt
      omega
  rw [byte?, hempty, List.all_eq_true.mpr h.digits, decide_eq_true hsmall]
  rfl

theorem mapM_byte? {fields : List (List Char)} (h : ∀ field ∈ fields, IsField field) :
    fields.mapM byte? = some (fields.map Digits.value) := by
  induction fields with
  | nil => rfl
  | cons field fields ih =>
    rw [List.forall_mem_cons] at h
    rw [List.mapM_cons, h.1.byte?_eq, ih h.2]
    rfl

theorem padded {n : Nat} (h : n < 100) : IsField (Digits.padded 2 n) :=
  ⟨.inr (length_padded_two h), Digits.isDigit_of_mem_padded 2 n⟩

end IsField

/-! ## the grammar -/

/-- two or three fields with a colon between them: the values of the hour, of the minute and, if it is there,
of the second -/
inductive Spells : List Char → Nat → Nat → Option Nat → Prop
  | minutes {h m : List Char} (hh : IsField h) (hm : IsField m) :
      Spells (h ++ ':' :: m) (Digits.value h) (Digits.value m) none
  | seconds {h m s : List Char} (hh : IsField h) (hm : IsField m) (hs : IsField s) :
      Spells (h ++ ':' :: (m ++ ':' :: s)) (Digits.value h) (Digits.value m) (some (Digits.value s))

theorem numbers?_eq {fields : List (List Char)} (h : ∀ field ∈ fields, IsField field) :
    numbers? fields = match fields.map Digits.value with
      | [h, m] => some (h, m, 0)
      | [h, m, s] => some (h, m, s)
      | _ => none := by
  have hlengths : (fields.all fun field => 1 ≤ field.length && field.length ≤ 2) = true := by
    rw [List.all_eq_true]
    intro field hfield
    rcases (h field hfield).length with hlength | hlength
    · rw [hlength]
      rfl
    · rw [hlength]
      rfl
  rw [numbers?, if_pos hlengths, IsField.mapM_byte? h]
  rcases fields with _ | ⟨a, _ | ⟨b, _ | ⟨c, _ | ⟨d, rest⟩⟩⟩⟩
  all_goals rfl

variable {cs : List Char} {h m s : Nat} {s? : Option Nat}

theorem Spells.numbers?_eq (hspells : Spells cs h m s?) : numbers? (fields cs) = some (h, m, s?.getD 0) := by
  cases hspells with
  | minutes hh hm =>
    rw [fields_append hh.colon_not_mem, fields_of_not_mem hm.colon_not_mem, TimeOfDay.numbers?_eq]
    · rfl
    · simp [hh, hm]
  | seconds hh hm hs =>
    rw [fields_append hh.colon_not_mem, fields_append hm.colon_not_mem, fields_of_not_mem hs.colon_not_mem,
      TimeOfDay.numbers?_eq]
    · rfl
    · simp [hh, hm, hs]

theorem Spells.mem (hspells : Spells cs h m s?) : ∀ c ∈ cs, c.isDigit = true ∨ c = ':' := by
  intro c hc
  cases hspells with
  | minutes hh hm =>
    rcases List.mem_append.mp hc with hc | hc
    · exact .inl (hh.digits c hc)
    rcases List.mem_cons.mp hc with hc | hc
    · exact .inr hc
    · exact .inl (hm.digits c hc)
  | seconds hh hm hs =>
    rcases List.mem_append.mp hc with hc | hc
    · exact .inl (hh.digits c hc)
    rcases List.mem_cons.mp hc with hc | hc
    · exact .inr hc
    rcases List.mem_append.mp hc with hc | hc
    · exact .inl (hm.digits c hc)
    rcases List.mem_cons.mp hc with hc | hc
    · exact .inr hc
    · exact .inl (hs.digits c hc)

/-- **The numbers that are read are those that are spelled.** -/
theorem numbers?_eq_some_iff (hchars : ∀ c ∈ cs, c.isDigit = true ∨ c = ':') :
    numbers? (fields cs) = some (h, m, s) ↔ ∃ s?, Spells cs h m s? ∧ s?.getD 0 = s := by
  refine ⟨fun hread => ?_, fun ⟨s?, hspells, hs⟩ => hs ▸ hspells.numbers?_eq⟩
  have hfields : ∀ field ∈ fields cs, IsField field := by
    intro field hfield
    have hlengths : (fields cs).all (fun field => 1 ≤ field.length && field.length ≤ 2) = true := by
      by_contra hlengths
      rw [numbers?, if_neg hlengths] at hread
      cases hread
    have hlength := List.all_eq_true.mp hlengths field hfield
    rw [Bool.and_eq_true, decide_eq_true_eq, decide_eq_true_eq] at hlength
    refine ⟨by omega, fun c hc => ?_⟩
    rw [fields_eq_splitOn] at hfield
    have hmem := of_mem_splitOn hfield hc
    exact (hchars c hmem.1).resolve_right hmem.2
  rw [numbers?_eq hfields] at hread
  have hjoin := intercalate_fields cs
  -- the count of the fields
  rcases hf : fields cs with _ | ⟨a, _ | ⟨b, _ | ⟨c, _ | ⟨d, rest⟩⟩⟩⟩
  all_goals rw [hf] at hread hjoin hfields
  · cases hread
  · cases hread
  · cases hread
    obtain rfl : a ++ ':' :: b = cs := by simpa using hjoin
    exact ⟨none, .minutes (hfields a (by simp)) (hfields b (by simp)), rfl⟩
  · cases hread
    obtain rfl : a ++ ':' :: (b ++ ':' :: c) = cs := by simpa using hjoin
    exact ⟨some _, .seconds (hfields a (by simp)) (hfields b (by simp)) (hfields c (by simp)), rfl⟩
  · cases hread

/-! ## parsing -/

theorem of?_eq (t : TimeOfDay) : of? t.hour t.minute = some t := by
  rw [of?, dif_pos ⟨t.hour.isLt, t.minute.isLt⟩]

theorem of?_eq_some_iff {t : TimeOfDay} : of? h m = some t ↔ h = t.hour ∧ m = t.minute := by
  refine ⟨fun hof => ?_, fun ⟨hh, hm⟩ => hh ▸ hm ▸ t.of?_eq⟩
  rw [of?] at hof
  split at hof
  · cases hof
    exact ⟨rfl, rfl⟩
  · cases hof

theorem of?_eq_none_iff : of? h m = none ↔ ¬(h < 24 ∧ m < 60) := by
  rw [of?]
  split
  · next hrange => exact iff_of_false nofun fun hout => hout hrange
  · next hrange => exact iff_of_true rfl hrange

/-- what a text without blanks around it gives -/
inductive Parses (cs : List Char) : Except Fault TimeOfDay → Prop
  | time {t : TimeOfDay} {s? : Option Nat} (hspells : Spells cs t.hour t.minute s?)
      (hsecond : s?.all (· < 60) = true) : Parses cs (.ok t)
  | invalidCharacter {c : Char} (hmem : c ∈ cs) (hdigit : c.isDigit = false) (hcolon : c ≠ ':') :
      Parses cs (.error (.invalidCharacter (String.ofList cs)))
  | malformed (hchars : ∀ c ∈ cs, c.isDigit = true ∨ c = ':') (hshape : ∀ h m s?, ¬Spells cs h m s?) :
      Parses cs (.error (.malformed (String.ofList cs)))
  | outOfBounds {h m : Nat} {s? : Option Nat} (hspells : Spells cs h m s?)
      (hrange : ¬(h < 24 ∧ m < 60 ∧ s?.all (· < 60) = true)) :
      Parses cs (.error (.outOfBounds (String.ofList cs)))

theorem any_eq_false_iff : (cs.any fun c => !c.isDigit && c != ':') = false ↔
    ∀ c ∈ cs, c.isDigit = true ∨ c = ':' := by
  rw [List.any_eq_false]
  refine forall₂_congr fun c _ => ?_
  cases c.isDigit <;> simp

theorem second_lt_iff : s?.getD 0 < 60 ↔ s?.all (· < 60) = true := by
  cases s? <;> simp

variable {text : String}

/-- the parser on a text of the grammar -/
theorem parse_of_spells (hspells : Spells (trim text.toList) h m s?) : parse text =
    if s?.getD 0 < 60 then (of? h m).elim (.error (.outOfBounds (String.ofList (trim text.toList)))) .ok
    else .error (.outOfBounds (String.ofList (trim text.toList))) := by
  rw [parse, any_eq_false_iff.mpr hspells.mem, if_neg Bool.false_ne_true, hspells.numbers?_eq]
  dsimp only
  cases of? h m with
  | none => rfl
  | some t => rfl

/-- **Parsing gives what the grammar says.** -/
theorem parses_parse (text : String) : Parses (trim text.toList) (parse text) := by
  cases hany : (trim text.toList).any fun c => !c.isDigit && c != ':' with
  | true =>
    obtain ⟨c, hmem, hc⟩ := List.any_eq_true.mp hany
    rw [Bool.and_eq_true, Bool.not_eq_true', bne_iff_ne] at hc
    rw [parse, hany, if_pos rfl]
    exact .invalidCharacter hmem hc.1 hc.2
  | false =>
    have hchars := any_eq_false_iff.mp hany
    cases hnumbers : numbers? (fields (trim text.toList)) with
    | none =>
      rw [parse, hany, if_neg Bool.false_ne_true, hnumbers]
      refine .malformed hchars fun h m s? hspells => ?_
      rw [hspells.numbers?_eq] at hnumbers
      cases hnumbers
    | some numbers =>
      obtain ⟨h, m, s⟩ := numbers
      obtain ⟨s?, hspells, rfl⟩ := (numbers?_eq_some_iff hchars).mp hnumbers
      rw [parse_of_spells hspells]
      split_ifs with hsecond
      · cases htime : of? h m with
        | some t =>
          obtain ⟨rfl, rfl⟩ := of?_eq_some_iff.mp htime
          exact .time hspells (second_lt_iff.mp hsecond)
        | none => exact .outOfBounds hspells fun hrange => of?_eq_none_iff.mp htime ⟨hrange.1, hrange.2.1⟩
      · exact .outOfBounds hspells fun hrange => hsecond (second_lt_iff.mpr hrange.2.2)

theorem Parses.eq {r : Except Fault TimeOfDay} (hparses : Parses (trim text.toList) r) : parse text = r := by
  cases hparses with
  | @time t s? hspells hsecond =>
    rw [parse_of_spells hspells, if_pos (second_lt_iff.mpr hsecond), t.of?_eq, Option.elim_some]
  | @invalidCharacter c hmem hdigit hcolon =>
    have hany : ((trim text.toList).any fun c => !c.isDigit && c != ':') = true :=
      List.any_eq_true.mpr ⟨c, hmem, by rw [hdigit, bne_iff_ne.mpr hcolon]; rfl⟩
    rw [parse, hany, if_pos rfl]
  | malformed hchars hshape =>
    have hnumbers : numbers? (fields (trim text.toList)) = none := by
      rw [Option.eq_none_iff_forall_ne_some]
      rintro ⟨h, m, s⟩ hnumbers
      obtain ⟨s?, hspells, -⟩ := (numbers?_eq_some_iff hchars).mp hnumbers
      exact hshape h m s? hspells
    rw [parse, any_eq_false_iff.mpr hchars, if_neg Bool.false_ne_true, hnumbers]
  | @outOfBounds h m s? hspells hrange =>
    rw [parse_of_spells hspells]
    split_ifs with hsecond
    · rw [of?_eq_none_iff.mpr fun hin => hrange ⟨hin.1, hin.2, second_lt_iff.mp hsecond⟩, Option.elim_none]
    · rfl

/-! ## the text of a time -/

theorem spells_chars (t : TimeOfDay) : Spells t.chars t.hour t.minute none := by
  have hspells : Spells t.chars _ _ none :=
    .minutes (IsField.padded (n := t.hour) (by omega)) (IsField.padded (n := t.minute) (by omega))
  rwa [Digits.value_padded, Digits.value_padded] at hspells

theorem mem_chars {t : TimeOfDay} {c : Char} (h : c ∈ t.chars) : c.isDigit = true ∨ c = ':' :=
  t.spells_chars.mem c h

theorem isBlank_of_mem_chars {t : TimeOfDay} : ∀ c ∈ t.chars, isBlank c = false := by
  intro c hc
  rcases mem_chars hc with h | rfl
  · exact isBlank_of_isDigit h
  · rfl

/-- **The text of a time is parsed as the time.** -/
theorem parse_text (t : TimeOfDay) : parse t.text = .ok t := by
  have hspells : Spells (trim t.text.toList) t.hour t.minute none := by
    rw [text, String.toList_ofList, trim_eq isBlank_of_mem_chars]
    exact t.spells_chars
  exact Parses.eq (.time hspells rfl)

theorem text_inj {t t' : TimeOfDay} (h : t.text = t'.text) : t = t' := by
  have hparse := t.parse_text
  rw [h, parse_text] at hparse
  cases hparse
  rfl

theorem length_text (t : TimeOfDay) : t.text.toList.length = 5 := by
  rw [text, String.toList_ofList, chars, List.length_append, List.length_cons,
    length_padded_two (n := t.hour) (by omega), length_padded_two (n := t.minute) (by omega)]

/-- **Exactly the times of the grammar are parsed.** What parsing gives follows from the text without the
blanks around it, and so does the fault of a text that is refused, which carries that text. The text of a
time is parsed as the time. -/
theorem parse_grammar (text : String) :
    Trimmed text.toList (trim text.toList) ∧
    (∀ r, parse text = r ↔ Parses (trim text.toList) r) ∧
    (∀ t : TimeOfDay, parse t.text = .ok t) ∧
    (do let t ← parse text; parse t.text) = parse text := by
  refine ⟨trimmed_trim _, fun r => ⟨fun h => h ▸ parses_parse text, Parses.eq⟩, parse_text, ?_⟩
  cases parse text with
  | error fault => rfl
  | ok t =>
    simp only [bind, Except.bind]
    exact t.parse_text

end TimeOfDay

end DeskClock
