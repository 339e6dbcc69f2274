import DeskClock.Proofs.Binary64.Integer
import DeskClock.Proofs.Text.Digits
import DeskClock.Weather.Conditions

/-!
# temperatures as whole degrees

* `Temperature.Shows`   the text for a word: the nearest integer written out behind its sign, or letters;
* `isNearestEven_signed`   the integer that is computed is the nearest one;
* `shows_degrees`       it is what is shown, and `Shows.eq`: nothing else;
* `shownInteger`        the integer that such a text shows; `Shows.isNearestEven`;
* `text_shows`          temperatures are shown as the nearest whole degrees, in the order that they have.
-/

namespace DeskClock

namespace Temperature

open Binary64

/-- a minus for the sign bit, which zero can have too -/
def sign (negative : Bool) : List Char := if negative then ['-'] else []

/-- the text for a word -/
inductive Shows (bits : UInt64) : List Char → Prop
  | finite {n : ℤ} {cs : List Char} (hfinite : Word.IsFinite bits)
      (hnearest : IsNearestEven (Word.value bits) n) (hdigits : Digits.WritesOut cs n.natAbs) :
      Shows bits (sign (Word.negative bits) ++ cs)
  | infinite (hfinite : ¬ Word.IsFinite bits) (hfraction : Word.fraction bits = 0) :
      Shows bits (sign (Word.negative bits) ++ ['i', 'n', 'f'])
  | nan (hfinite : ¬ Word.IsFinite bits) (hfraction : Word.fraction bits ≠ 0) : Shows bits ['N', 'a', 'N']

/-- an integer from its sign and its absolute value -/
def signed (negative : Bool) (n : Nat) : ℤ := if negative then -n else n

theorem natAbs_signed (negative : Bool) (n : Nat) : (signed negative n).natAbs = n := by
  cases negative with
  | true => exact (Int.natAbs_neg n).trans (Int.natAbs_natCast n)
  | false => exact Int.natAbs_natCast n

variable {bits : UInt64} {cs : List Char}

/-- the nearest integer has the sign of the word, unless it is zero -/
theorem isNearestEven_signed (bits : UInt64) :
    IsNearestEven (Word.value bits) (signed (Word.negative bits) (nearestInteger (Word.rank bits))) := by
  have hmagnitude := isNearestEven_nearestInteger bits
  unfold Word.value signed
  cases Word.negative bits with
  | true =>
    rw [if_pos rfl, if_pos rfl]
    exact hmagnitude.neg
  | false =>
    rw [if_neg Bool.false_ne_true, if_neg Bool.false_ne_true]
    exact hmagnitude

/-- **What is shown for a word is its text.** -/
theorem shows_degrees (bits : UInt64) : Shows bits (degrees (.ofBits bits)) := by
  by_cases hfinite : Word.IsFinite bits
  · obtain ⟨hrank, hbits⟩ := ofBits_finite hfinite
    rw [hbits]
    refine .finite hfinite (isNearestEven_signed bits) ?_
    rw [natAbs_signed]
    exact Digits.writesOut_ofNat _
  · by_cases hfraction : Word.fraction bits = 0
    · rw [ofBits_infinite hfinite hfraction]
      exact .infinite hfinite hfraction
    · rw [ofBits_nan hfinite hfraction]
      exact .nan hfinite hfraction

/-- a word has one text -/
theorem Shows.eq {cs' : List Char} (h : Shows bits cs) (h' : Shows bits cs') : cs = cs' := by
  cases h with
  | finite hfinite hnearest hdigits =>
    cases h' with
    | finite _ hnearest' hdigits' => rw [hdigits.eq, hdigits'.eq, hnearest.eq hnearest']
    | infinite hnot _ => exact absurd hfinite hnot
    | nan hnot _ => exact absurd hfinite hnot
  | infinite hnot hfraction =>
    cases h' with
    | finite hfinite _ _ => exact absurd hfinite hnot
    | infinite _ _ => rfl
    | nan _ hfraction' => exact absurd hfraction hfraction'
  | nan hnot hfraction =>
    cases h' with
    | finite hfinite _ _ => exact absurd hfinite hnot
    | infinite _ hfraction' => exact absurd hfraction' hfraction
    | nan _ _ => rfl

/-! ## the order of what is shown -/

/-- the integer that digits show behind their sign -/
def shownInteger : List Char → ℤ
  | '-' :: cs => -(Digits.value cs : ℤ)
  | cs => Digits.value cs

theorem shownInteger_sign (negative : Bool) {n : Nat} (h : Digits.WritesOut cs n) :
    shownInteger (sign negative ++ cs) = signed negative n := by
  cases negative with
  | true =>
    show -(Digits.value cs : ℤ) = -n
    rw [h.reads]
  | false =>
    have hminus : '-' ∉ cs := Digits.not_mem_of_isDigit rfl h.digits
    show shownInteger cs = n
    unfold shownInteger
    split
    · exact absurd List.mem_cons_self hminus
    · rw [h.reads]

/-- **The integer that is shown is the nearest one.** -/
theorem Shows.isNearestEven (h : Shows bits cs) (hfinite : Word.IsFinite bits) :
    IsNearestEven (Word.value bits) (shownInteger cs) := by
  obtain ⟨hrank, hbits⟩ := ofBits_finite hfinite
  rw [h.eq (shows_degrees bits), hbits]
  show IsNearestEven _ (shownInteger (sign _ ++ Digits.ofNat (nearestInteger (Word.rank bits))))
  rw [shownInteger_sign _ (Digits.writesOut_ofNat _)]
  exact isNearestEven_signed bits

/-- **Temperatures are shown as the nearest whole degrees.** What stands in front of the unit is the text for
the word, whatever the word is, and every number has a word. Greater numbers are shown by greater integers, or
by the same ones. A line shows the three temperatures so, each with the unit behind it. -/
theorem text_shows :
    (∀ (bits : UInt64) (unit : TemperatureUnit) (cs : List Char),
      text (.ofBits bits) unit = String.ofList cs ++ unit.symbol ↔ Shows bits cs) ∧
    (∀ v : Binary64, .ofBits v.toBits = v) ∧
    (∀ (bits bits' : UInt64) (cs cs' : List Char), Word.IsFinite bits → Word.IsFinite bits' →
      Word.value bits ≤ Word.value bits' → Shows bits cs → Shows bits' cs' →
      shownInteger cs ≤ shownInteger cs') ∧
    ∀ c : Conditions, ∃ now high low : List Char,
      Shows c.temperature.toBits now ∧ Shows c.high.toBits high ∧ Shows c.low.toBits low ∧
      c.line = String.ofList now ++ c.unit.symbol ++ "  H " ++ (String.ofList high ++ c.unit.symbol)
        ++ "  L " ++ (String.ofList low ++ c.unit.symbol)
        ++ (if c.description.isEmpty then "" else "  " ++ c.description) := by
  refine ⟨fun bits unit cs => ⟨fun h => ?_, fun h => ?_⟩, ofBits_toBits,
    fun bits bits' cs cs' hfinite hfinite' hle h h' => ?_, fun c => ?_⟩
  · have hchars := congrArg String.toList h
    rw [text, String.toList_append, String.toList_append, String.toList_ofList,
      String.toList_ofList] at hchars
    rw [← List.append_cancel_right hchars]
    exact shows_degrees bits
  · rw [text, h.eq (shows_degrees bits)]
  · exact (h.isNearestEven hfinite).le (h'.isNearestEven hfinite') hle
  · have hshows : ∀ v : Binary64, Shows v.toBits (degrees v) := fun v => by
      have h := shows_degrees v.toBits
      rwa [ofBits_toBits] at h
    exact ⟨_, _, _, hshows c.temperature, hshows c.high, hshows c.low, rfl⟩

/-- two halves, each of which goes to the even integer -/
theorem text_shows_halves :
    text (.ofBits 0x4058A00000000000) .fahrenheit = "98°F" ∧
      text (.ofBits 0x4058E00000000000) .fahrenheit = "100°F" ∧
      Word.value 0x4058A00000000000 = 98.5 ∧ Word.value 0x4058E00000000000 = 99.5 ∧
      Shows 0x4058A00000000000 ['9', '8'] ∧ Shows 0x4058E00000000000 ['1', '0', '0'] ∧
      shownInteger ['9', '8'] ≤ shownInteger ['1', '0', '0'] := by
  have hlow : text (.ofBits 0x4058A00000000000) .fahrenheit = "98°F" := by decide +kernel
  have hhigh : text (.ofBits 0x4058E00000000000) .fahrenheit = "100°F" := by decide +kernel
  -- both words have the exponent of the numbers from 64 up to 128
  have hvalue : ∀ bits : UInt64, Word.negative bits = false → Word.exponent bits = 1029 →
      Word.value bits = (2 ^ 52 + Word.fraction bits) / 2 ^ 46 := by
    intro bits hsign hexponent
    rw [Word.value, hsign, Word.magnitude, hexponent]
    norm_num
    ring
  have hlowValue : Word.value 0x4058A00000000000 = 98.5 := by
    have hfraction : Word.fraction 0x4058A00000000000 = 2427721674129408 := by decide
    rw [hvalue _ (by decide) (by decide), hfraction]
    norm_num
  have hhighValue : Word.value 0x4058E00000000000 = 99.5 := by
    have hfraction : Word.fraction 0x4058E00000000000 = 2498090418307072 := by decide
    rw [hvalue _ (by decide) (by decide), hfraction]
    norm_num
  have hlowShows := (text_shows.1 0x4058A00000000000 .fahrenheit ['9', '8']).mp hlow
  have hhighShows := (text_shows.1 0x4058E00000000000 .fahrenheit ['1', '0', '0']).mp hhigh
  refine ⟨hlow, hhigh, hlowValue, hhighValue, hlowShows, hhighShows, ?_⟩
  refine text_shows.2.2.1 _ _ _ _ (by decide) (by decide) ?_ hlowShows hhighShows
  rw [hlowValue, hhighValue]
  norm_num

end Temperature

end DeskClock
