import DeskClock.Calendar.Timestamp
import DeskClock.Proofs.Calendar.Date
import DeskClock.Proofs.Text.Blank
import DeskClock.Proofs.Text.Digits

/-!
# the text of an instant is read back

* `digits?_append`   a run of digits in front of anything that does not go on with it;
* `year?_text`, `field?_padded`, `mark?_cons`, `fraction?_fraction`   the parts of a text;
* `read?_writeDateTime`   the text of a moment of universal time is read as its seconds;
* `read?_write`      the text of an instant is read as the instant.
-/

namespace DeskClock.Timestamp

open Digits

/-! ## digits and marks -/

theorem digits?_append {most : Nat} {run rest : List Char} (hd : ∀ c ∈ run, c.isDigit = true)
    (hne : run ≠ []) (hmost : run.length ≤ most)
    (hstop : run.length = most ∨ ∀ c ∈ rest.head?, c.isDigit = false) :
    digits? most (run ++ rest) = some (value run, rest) := by
  have hrun : ((run ++ rest).take most).takeWhile Char.isDigit = run := by
    rw [List.take_append, List.take_of_length_le hmost, List.takeWhile_append_of_pos hd]
    have hnil : (rest.take (most - run.length)).takeWhile Char.isDigit = [] := by
      rcases hstop with h | h
      · rw [h, Nat.sub_self, List.take_zero, List.takeWhile_nil]
      · cases rest with
        | nil => rw [List.take_nil, List.takeWhile_nil]
        | cons c rest =>
          cases most - run.length with
          | zero => rw [List.take_zero, List.takeWhile_nil]
          | succ n =>
            rw [List.take_succ_cons, List.takeWhile_cons_of_neg]
            rw [h c rfl]
            exact Bool.false_ne_true
    rw [hnil, List.append_nil]
  rw [digits?, hrun, if_neg (by rw [List.isEmpty_iff]; exact hne), List.drop_left]

theorem trimStart_append {run : List Char} (hd : ∀ c ∈ run, c.isDigit = true) (hne : run ≠ [])
    (rest : List Char) : trimStart (run ++ rest) = run ++ rest := by
  cases run with
  | nil => exact absurd rfl hne
  | cons c run => exact trimStart_cons (isBlank_of_isDigit (hd c List.mem_cons_self)) _

theorem field?_padded {n : Nat} (h : n < 100) (rest : List Char) :
    field? (padded 2 n ++ rest) = some (n, rest) := by
  have hlength : (padded 2 n).length = 2 := length_padded (by omega) h
  rw [field?, trimStart_append (isDigit_of_mem_padded 2 n) (padded_ne_nil 2 n),
    digits?_append (isDigit_of_mem_padded 2 n) (padded_ne_nil 2 n) hlength.le (.inl hlength),
    value_padded]

theorem mark?_cons {mark : Char} (h : isBlank mark = false) (rest : List Char) :
    mark? mark (mark :: rest) = some rest := by
  rw [mark?, trimStart_cons h]
  exact if_pos rfl

/-! ## years and fractions -/

/-- digits of any count in front of a mark -/
theorem digits?_padded (w n : Nat) {mark : Char} (h : mark.isDigit = false) (rest : List Char) :
    digits? (padded w n ++ mark :: rest).length (padded w n ++ mark :: rest)
      = some (n, mark :: rest) := by
  rw [digits?_append (isDigit_of_mem_padded w n) (padded_ne_nil w n), value_padded]
  · rw [List.length_append]
    omega
  · right
    rintro c ⟨⟩
    exact h

theorem isDigit_of_append_eq {run rest cs : List Char} {c : Char}
    (hd : ∀ c ∈ run, c.isDigit = true) (hne : run ≠ []) (h : run ++ rest = c :: cs) :
    c.isDigit = true := by
  cases run with
  | nil => exact absurd rfl hne
  | cons c' run =>
    rw [← (List.cons.inj h).1]
    exact hd c' List.mem_cons_self

theorem year?_text (year : Int) (rest : List Char) :
    year? (Date.yearText year ++ '-' :: rest) = some (year, '-' :: rest) := by
  have hsigned := digits?_padded 4 year.natAbs (rfl : '-'.isDigit = false) rest
  unfold Date.yearText
  split
  · next h =>
    rw [year?, List.cons_append, trimStart_cons rfl]
    show (digits? _ _).map (fun p => (-(p.1 : Int), p.2)) = _
    rw [hsigned]
    show some (-(year.natAbs : Int), _) = _
    rw [show -(year.natAbs : Int) = year by omega]
  · next h =>
    have hyear : (year.natAbs : Int) = year := by omega
    split
    · next h' =>
      have hd := isDigit_of_mem_padded 4 year.natAbs
      have hne := padded_ne_nil 4 year.natAbs
      have hlength : (padded 4 year.natAbs).length = 4 := length_padded (by omega) (by omega)
      rw [year?, trimStart_append hd hne]
      split
      · next e => cases isDigit_of_append_eq hd hne e
      · next e => cases isDigit_of_append_eq hd hne e
      · rw [digits?_append hd hne hlength.le (.inl hlength), value_padded]
        show some ((year.natAbs : Int), _) = _
        rw [hyear]
    · rw [year?, List.cons_append, trimStart_cons rfl]
      show (digits? _ _).map (fun p => ((p.1 : Int), p.2)) = _
      rw [hsigned]
      show some ((year.natAbs : Int), _) = _
      rw [hyear]

/-- a point and some groups of three digits -/
theorem fraction?_padded {w n : Nat} (hw : 0 < w) (hw' : w ≤ 9) (h : n < 10 ^ w) :
    fraction? ('.' :: padded w n ++ ['Z']) = some (n * 10 ^ (9 - w), ['Z']) := by
  have hrun : (padded w n ++ ['Z']).takeWhile Char.isDigit = padded w n := by
    rw [List.takeWhile_append_of_pos (isDigit_of_mem_padded w n)]
    exact List.append_nil _
  have hlength : (padded w n).length = w := length_padded hw h
  have hne : ¬ (padded w n).isEmpty = true := by
    rw [List.isEmpty_iff]
    exact padded_ne_nil w n
  rw [List.cons_append, fraction?]
  dsimp only
  rw [hrun, if_neg hne, List.take_of_length_le (by omega), value_padded, hlength, List.drop_left' hlength]
  rfl

theorem fraction?_fraction {n : Nat} (h : n < 1000000000) :
    fraction? (fraction n ++ ['Z']) = some (n, ['Z']) := by
  unfold fraction
  split
  · next h0 =>
    rw [h0]
    rfl
  split
  · next h6 =>
    rw [fraction?_padded (by omega) (by omega) (by omega)]
    rw [show n / 1000000 * 10 ^ (9 - 3) = n by omega]
  split
  · next h3 =>
    rw [fraction?_padded (by omega) (by omega) (by omega)]
    rw [show n / 1000 * 10 ^ (9 - 6) = n by omega]
  · rw [fraction?_padded (by omega) (by omega) (by omega)]
    rw [show n * 10 ^ (9 - 9) = n by omega]

/-! ## moments -/

theorem of?_clockTime (t : ClockTime) (h : t.nanosecond < 1000000000 ∨ t.second = 59) :
    ClockTime.of? t.hour t.minute t.second t.nanosecond = some t := by
  rw [ClockTime.of?, dif_pos ⟨t.hour_lt, t.minute_lt, t.second_lt, t.nanosecond_lt⟩, if_pos h]

theorem clockTime?_shown (t : ClockTime) (h : t.nanosecond < 1000000000 ∨ t.second = 59) :
    clockTime? t.hour t.minute t.shownSecond t.shownNanosecond = some t := by
  have hof := of?_clockTime t h
  have hs := t.second_lt
  have hn := t.nanosecond_lt
  unfold clockTime? ClockTime.shownSecond ClockTime.shownNanosecond
  by_cases hleap : t.nanosecond < 1000000000
  · rw [if_neg (by omega), Nat.div_eq_of_lt hleap, Nat.mod_eq_of_lt hleap]
    exact hof
  · have hsecond : t.second = 59 := h.resolve_left hleap
    rw [if_pos (by omega), show 1000000000 + t.nanosecond % 1000000000 = t.nanosecond by omega,
      ← hsecond]
    exact hof

/-- the text of a moment of universal time is read as its seconds -/
theorem read?_writeDateTime (moment : DateTime)
    (hleap : moment.time.nanosecond < 1000000000 ∨ moment.time.second = 59) :
    read? (writeDateTime moment ++ ['Z']) = Instant.of? moment.seconds moment.time.nanosecond := by
  have hmonth : moment.date.month < 100 := lt_of_le_of_lt moment.date.month_mem.2 (by decide)
  have hday : moment.date.day < 100 :=
    lt_of_le_of_lt (moment.date.day_mem.2.trans (Date.daysInMonth_le _ _)) (by decide)
  have hhour : moment.time.hour < 100 := moment.time.hour_lt.trans (by decide)
  have hminute : moment.time.minute < 100 := moment.time.minute_lt.trans (by decide)
  have hsecond : moment.time.shownSecond < 100 := by
    have h1 := moment.time.second_lt
    have h2 := moment.time.nanosecond_lt
    unfold ClockTime.shownSecond
    omega
  have hshown : moment.time.shownNanosecond < 1000000000 := Nat.mod_lt _ (by decide)
  have hdash : ∀ rest, mark? '-' ('-' :: rest) = some rest := mark?_cons rfl
  have hcolon : ∀ rest, mark? ':' (':' :: rest) = some rest := mark?_cons rfl
  have hT : ∀ rest, separator? ('T' :: rest) = some rest := fun _ => rfl
  have hZ : offset? (trimStart ['Z']) = some (0, []) := rfl
  unfold writeDateTime read?
  have hbind : ∀ {α β : Type} (a : α) (f : α → Option β), (some a >>= f) = f a := fun _ _ => rfl
  simp only [List.append_assoc, List.cons_append]
  rw [year?_text, hbind]
  dsimp only
  rw [hdash, hbind, field?_padded hmonth, hbind]
  dsimp only
  rw [hdash, hbind, field?_padded hday, hbind]
  dsimp only
  rw [hT, hbind, field?_padded hhour, hbind]
  dsimp only
  rw [hcolon, hbind, field?_padded hminute, hbind]
  dsimp only
  rw [hcolon, hbind, field?_padded hsecond, hbind]
  dsimp only
  rw [fraction?_fraction hshown, hbind]
  dsimp only
  rw [hZ, hbind, Date.of?_eq, hbind, clockTime?_shown moment.time hleap, hbind]
  dsimp only
  have hblank : allBlank [] = true := rfl
  rw [if_pos hblank, Int.sub_zero]

/-- **The text of an instant is read as the instant.** -/
theorem read?_write (t : Instant) : read? (write t) = some t := by
  obtain ⟨moment, hmoment, hseconds, hnano, hleap⟩ := t.atOffset?_zero
  rw [← hnano] at hleap
  rw [write, hmoment]
  show read? (writeDateTime moment ++ ['Z']) = some t
  rw [read?_writeDateTime moment hleap, hseconds, hnano, Instant.of?, dif_pos t.seconds_mem,
    dif_pos t.nanosecond_mem]

end DeskClock.Timestamp
