import DeskClock.Text.Blank
import Mathlib

/-!
# texts without blanks

* `trimStart_cons`, `trim_eq`   what is not blank is not trimmed;
* `Trimmed`, `trimmed_trim`     a text without the blanks around it;
* `isBlank_of_isDigit`          digits are not blank.
-/

namespace DeskClock

theorem trimStart_cons {c : Char} (h : isBlank c = false) (cs : List Char) :
    trimStart (c :: cs) = c :: cs := by
  rw [trimStart, List.dropWhile_cons_of_neg]
  rw [h]
  exact Bool.false_ne_true

theorem trimStart_eq {cs : List Char} (h : ∀ c ∈ cs, isBlank c = false) : trimStart cs = cs := by
  cases cs with
  | nil => rfl
  | cons c cs => exact trimStart_cons (h c List.mem_cons_self) cs

theorem trim_eq {cs : List Char} (h : ∀ c ∈ cs, isBlank c = false) : trim cs = cs := by
  rw [trim, trimStart_eq h, trimStart_eq (fun c hc => h c (List.mem_reverse.mp hc)),
    List.reverse_reverse]

/-! ## the blanks around a text -/

/-- a text without the blanks around it: those are taken away, and none is left at its ends -/
structure Trimmed (cs t : List Char) : Prop where
  around : ∃ front back, cs = front ++ t ++ back ∧ (∀ c ∈ front, isBlank c = true) ∧
    ∀ c ∈ back, isBlank c = true
  first : ∀ c ∈ t.head?, isBlank c = false
  last : ∀ c ∈ t.getLast?, isBlank c = false

theorem trimStart_spec (cs : List Char) : ∃ front, cs = front ++ trimStart cs ∧
    (∀ c ∈ front, isBlank c = true) ∧ ∀ c ∈ (trimStart cs).head?, isBlank c = false := by
  refine ⟨cs.takeWhile isBlank, List.takeWhile_append_dropWhile.symm,
    fun c hc => List.mem_takeWhile_imp hc, fun c hc => ?_⟩
  have hhead := List.head?_dropWhile_not isBlank cs
  rw [Option.mem_def, trimStart] at hc
  rw [hc] at hhead
  simpa using hhead

theorem trimmed_trim (cs : List Char) : Trimmed cs (trim cs) := by
  obtain ⟨front, hfront, hblank, hfirst⟩ := trimStart_spec cs
  obtain ⟨back, hback, hblank', hlast⟩ := trimStart_spec (trimStart cs).reverse
  have hsplit : trimStart cs = trim cs ++ back.reverse := by
    rw [trim, ← List.reverse_append, ← hback, List.reverse_reverse]
  refine ⟨⟨front, back.reverse, ?_, hblank, fun c hc => hblank' c (List.mem_reverse.mp hc)⟩, ?_, ?_⟩
  · rw [List.append_assoc, ← hsplit]
    exact hfront
  · -- the first character is that of the text without the blanks in front
    intro c hc
    rw [hsplit, List.head?_append, Option.mem_def.mp hc] at hfirst
    exact hfirst c rfl
  · rw [trim, List.getLast?_reverse]
    exact hlast

/-! ## digits -/

theorem isBlank_of_isDigit {c : Char} (h : c.isDigit = true) : isBlank c = false := by
  have hc := Char.isDigit_iff_toNat.mp h
  have h0 : '0'.toNat = 48 := rfl
  have h9 : '9'.toNat = 57 := rfl
  simp only [isBlank, Bool.or_eq_false_iff, Bool.and_eq_false_iff, decide_eq_false_iff_not,
    beq_eq_false_iff_ne]
  omega

end DeskClock
