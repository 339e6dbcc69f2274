import Mathlib

/-!
# the pieces of a text between separators

* `of_mem_splitOn`       what stands in a piece stands in the text and is not the separator;
* `splitOn_of_not_mem`   a text without the separator is a single piece.
-/

namespace DeskClock

variable {separator : Char} {cs : List Char}

theorem of_mem_splitOn {piece : List Char} (h : piece ∈ cs.splitOn separator) {c : Char} (hc : c ∈ piece) :
    c ∈ cs ∧ c ≠ separator := by
  induction cs generalizing piece with
  | nil =>
    rw [List.splitOn_nil, List.mem_singleton] at h
    subst h
    cases hc
  | cons d cs ih =>
    have hlater : ∀ piece ∈ cs.splitOn separator, c ∈ piece → c ∈ d :: cs ∧ c ≠ separator :=
      fun piece h hc => (ih h hc).imp_left (List.mem_cons_of_mem d)
    rw [List.splitOn_cons_eq_if_modifyHead] at h
    split_ifs at h with hd
    · rcases List.mem_cons.mp h with rfl | h
      · cases hc
      · exact hlater piece h hc
    · -- the first character belongs to the first piece
      cases hpieces : cs.splitOn separator with
      | nil => exact absurd hpieces (List.splitOn_ne_nil _ _)
      | cons first rest =>
        rw [hpieces] at h hlater
        rcases List.mem_cons.mp h with rfl | h
        · rcases List.mem_cons.mp hc with rfl | hc
          · exact ⟨List.mem_cons_self, fun heq => hd (beq_iff_eq.mpr heq)⟩
          · exact hlater first List.mem_cons_self hc
        · exact hlater piece (List.mem_cons_of_mem first h) hc

theorem splitOn_of_not_mem (h : separator ∉ cs) : cs.splitOn separator = [cs] := by
  rw [List.splitOn_eq_splitOnP]
  refine List.splitOnP_eq_singleton fun c hc => ?_
  have hne : c ≠ separator := fun heq => h (heq ▸ hc)
  simpa using hne

end DeskClock
