import DeskClock.Proofs.Toml.Reader

/-!
# quoted text in front of more text

No reader looks beyond the end of its line, so it does not see what is appended to a text in which a line
end is left.

* `Ahead cs rest`          a reader has gone on from `cs` to `rest` and has not stopped behind a line end;
* `Stays more f g cs`      what `f` reads from `cs`, `g` reads with `more` behind it, if a line end is left;
* `Quoted.read?_stays`     a quoted text of any form is read alike in front of more text.
-/

namespace DeskClock.Toml

/-- a reader has gone on to what is left of a text, and has not stopped behind a line end -/
def Ahead (cs rest : List Char) : Prop := ∃ front c, cs = front ++ c :: rest ∧ c ≠ '\n'

namespace Ahead

variable {cs mid rest : List Char}

theorem head {c : Char} (hc : c ≠ '\n') (rest : List Char) : Ahead (c :: rest) rest :=
  ⟨[], c, rfl, hc⟩

theorem of_suffix (hs : mid <:+ cs) (h : Ahead mid rest) : Ahead cs rest := by
  obtain ⟨before, rfl⟩ := hs
  obtain ⟨front, c, rfl, hc⟩ := h
  exact ⟨before ++ front, c, by simp, hc⟩

theorem suffix (h : Ahead cs rest) : rest <:+ cs := by
  obtain ⟨front, c, rfl, -⟩ := h
  exact ⟨front ++ [c], by simp⟩

theorem trans (h : Ahead cs mid) (h' : Ahead mid rest) : Ahead cs rest := h'.of_suffix h.suffix

theorem cons {c : Char} (h : Ahead cs rest) : Ahead (c :: cs) rest := h.of_suffix (List.suffix_cons c cs)

theorem length (h : Ahead cs rest) : rest.length < cs.length := by
  obtain ⟨front, c, rfl, -⟩ := h
  simp
  omega

theorem mem (h : Ahead cs rest) (hn : '\n' ∈ rest) : '\n' ∈ cs := h.suffix.subset hn

/-- of a text that ends with a line, whole lines are left -/
theorem getLast (h : Ahead cs rest) (hl : cs.getLast? = some '\n') : rest.getLast? = some '\n' := by
  obtain ⟨front, c, rfl, hc⟩ := h
  cases rest with
  | nil =>
    simp at hl
    exact absurd hl hc
  | cons d rest => simpa using hl

end Ahead

/-- What is read from a text stays the same with more text behind it, as long as a line end is left: no
reader looks beyond the end of its line. -/
def Stays {α : Type} (more : List Char) (f g : List Char → Option (α × List Char)) (cs : List Char) :
    Prop :=
  ∀ a rest, f cs = some (a, rest) →
    Ahead cs rest ∧ ('\n' ∈ rest → g (cs ++ more) = some (a, rest ++ more))

namespace Stays

variable {α : Type} {more cs mid : List Char} {f g f' g' : List Char → Option (α × List Char)}

theorem fail (h : f cs = none) : Stays more f g cs := by
  intro a rest hr
  rw [h] at hr
  cases hr

theorem stop {a : α} {rest : List Char} (hf : f cs = some (a, rest)) (hrest : Ahead cs rest)
    (hg : '\n' ∈ rest → g (cs ++ more) = some (a, rest ++ more)) : Stays more f g cs := by
  intro a' rest' hr
  rw [hf] at hr
  cases hr
  exact ⟨hrest, hg⟩

/-- a reader that passes over the start of its text and goes on as another one -/
theorem step (h : Stays more f' g' mid) (hs : mid <:+ cs) (hf : f cs = f' mid)
    (hg : '\n' ∈ mid → g (cs ++ more) = g' (mid ++ more)) : Stays more f g cs := by
  intro a rest hr
  rw [hf] at hr
  obtain ⟨hahead, hstays⟩ := h a rest hr
  refine ⟨hahead.of_suffix hs, ?_⟩
  intro hn
  rw [hg (hahead.mem hn), hstays hn]

end Stays

/-! ## quoted text -/

namespace Quoted

variable {more cs mid : List Char}

/-- one more character in front of what a reader goes on with -/
theorem prepend_stays {f g f' g' : List Char → Option (List Char × List Char)} {c : Char}
    (h : Stays more f' g' mid) (hs : mid <:+ cs) (hf : f cs = prepend c (f' mid))
    (hg : '\n' ∈ mid → g (cs ++ more) = prepend c (g' (mid ++ more))) : Stays more f g cs := by
  intro text rest hr
  rw [hf] at hr
  cases hmid : f' mid with
  | none =>
    rw [hmid] at hr
    cases hr
  | some read =>
    obtain ⟨text', rest'⟩ := read
    rw [hmid] at hr
    cases hr
    obtain ⟨hahead, hstays⟩ := h text' rest hmid
    refine ⟨hahead.of_suffix hs, ?_⟩
    intro hn
    rw [hg (hahead.mem hn), hstays hn]
    rfl

theorem basic?_longUnicode {h₁ h₂ h₃ h₄ h₅ h₆ h₇ h₈ c : Char}
    (h : scalar? [h₁, h₂, h₃, h₄, h₅, h₆, h₇, h₈] = some c) (cs : List Char) :
    basic? (backslash :: 'U' :: h₁ :: h₂ :: h₃ :: h₄ :: h₅ :: h₆ :: h₇ :: h₈ :: cs)
      = prepend c (basic? cs) := by
  rw [basic?.eq_def]
  simp [h, backslash, quote]

theorem basic?_stays (cs : List Char) : Stays more basic? basic? cs := by
  fun_induction basic? cs with
  | case1 => exact .fail rfl
  | case2 cs => exact .stop (basic?_quote cs) (.head (by decide) cs) fun _ => basic?_quote _
  | case3 a b c d cs e h _ ih =>
    exact prepend_stays ih ⟨[_, _, _, _, _, _], rfl⟩ (basic?_unicode cs h) fun _ => basic?_unicode _ h
  | case4 a b c d cs h =>
    refine .fail ?_
    rw [basic?.eq_def]
    simp [h, backslash, quote]
  | case5 a b c d e f g h cs x hx _ ih =>
    exact prepend_stays ih ⟨[_, _, _, _, _, _, _, _, _, _], rfl⟩ (basic?_longUnicode hx cs)
      fun _ => basic?_longUnicode hx _
  | case6 a b c d e f g h cs hx =>
    refine .fail ?_
    rw [basic?.eq_def]
    simp [hx, backslash, quote]
  | case7 e cs _ _ c h _ ih =>
    exact prepend_stays ih ⟨[_, _], rfl⟩ (basic?_escape cs h) fun _ => basic?_escape _ h
  | case8 e cs hu hU h =>
    refine .fail ?_
    rw [basic?, h]
    · rfl
    · exact hu
    · exact hU
  | case9 => exact .fail rfl
  | case10 c cs hq hb hp ih =>
    exact prepend_stays ih (List.suffix_cons c cs) (basic?_plain cs hq hb hp)
      fun _ => basic?_plain _ hq hb hp
  | case11 c cs hq hb hp =>
    refine .fail ?_
    rw [basic?.eq_def]
    simp [hq, hb, hp]

theorem literal?_stays (cs : List Char) : Stays more literal? literal? cs := by
  induction cs with
  | nil => exact .fail rfl
  | cons c cs ih =>
    by_cases ha : c = apostrophe
    · subst ha
      exact .stop rfl (.head (by decide) cs) fun _ => rfl
    · by_cases hp : isPlain c = true
      · exact prepend_stays ih (List.suffix_cons c cs) (literal?_plain cs ha hp)
          fun _ => literal?_plain _ ha hp
      · refine .fail ?_
        rw [literal?, if_neg ha, if_neg hp]

section

variable {mark : Char} (hm : mark ≠ '\n')
include hm

theorem startsTwice_append (hn : '\n' ∈ cs) :
    startsTwice mark (cs ++ more) = startsTwice mark cs := by
  match cs with
  | [a] =>
    have ha : a ≠ mark := by
      rw [← List.mem_singleton.mp hn]
      exact hm.symm
    rw [(startsTwice_eq_false [] ha).1]
    exact (startsTwice_eq_false more ha).1
  | a :: b :: cs => rfl

theorem closing_stays (cs : List Char) :
    Stays more (fun cs => some (closing mark (cs.drop 1))) (fun cs => some (closing mark (cs.drop 1)))
      (mark :: cs) := by
  match cs with
  | [] => exact .stop rfl (.head hm []) nofun
  | [a] =>
    by_cases ha : a = mark
    · subst ha
      have htwo : some (closing a [a]) = some ([a], []) := by simp [closing]
      exact .stop htwo (Ahead.head hm []).cons nofun
    · have hone : some (closing mark [a]) = some ([], [a]) := by simp [closing, ha]
      refine .stop hone (Ahead.head hm [a]) ?_
      intro _
      cases more with
      | nil => simp [closing, ha]
      | cons b more => simp [closing, ha]
  | a :: b :: cs =>
    intro text rest hr
    simp only [List.drop_succ_cons, List.drop_zero, closing, List.cons_append] at hr ⊢
    split_ifs at hr ⊢ with h1 h2
    · cases hr
      obtain ⟨rfl, rfl⟩ := h1
      exact ⟨(Ahead.head hm cs).cons.cons, fun _ => rfl⟩
    · cases hr
      subst h2
      exact ⟨(Ahead.head hm _).cons, fun _ => rfl⟩
    · cases hr
      exact ⟨.head hm _, fun _ => rfl⟩

omit hm in
theorem eq_of_startsTwice (h : startsTwice mark cs = true) : ∃ tail, cs = mark :: mark :: tail := by
  match cs with
  | a :: b :: tail =>
    simp only [startsTwice, Bool.and_eq_true, decide_eq_true_eq] at h
    exact ⟨tail, by rw [h.1, h.2]⟩

/-- three closing marks -/
theorem close_stays {f : List Char → Option (List Char × List Char)}
    (hf : ∀ cs, startsTwice mark cs = true → f (mark :: cs) = some (closing mark (cs.drop 2)))
    (h : startsTwice mark cs = true) : Stays more f f (mark :: cs) := by
  obtain ⟨tail, rfl⟩ := eq_of_startsTwice h
  refine (closing_stays hm tail).step ⟨[mark, mark], rfl⟩ (hf _ h) ?_
  intro _
  exact hf _ h

end

theorem literalLines?_stays (cs : List Char) : Stays more literalLines? literalLines? cs := by
  fun_induction literalLines? cs with
  | case1 => exact .fail rfl
  | case2 cs h =>
    refine close_stays (by decide) ?_ h
    intro cs h
    rw [literalLines?.eq_def]
    simp [h]
  | case3 cs h ih =>
    rw [Bool.not_eq_true] at h
    refine prepend_stays ih (List.suffix_cons _ cs) (literalLines?_apostrophe cs h) ?_
    intro hn
    have hmore : startsTwice apostrophe (cs ++ more) = false := by
      rw [startsTwice_append (by decide) hn, h]
    exact literalLines?_apostrophe _ hmore
  | case4 cs _ ih =>
    exact prepend_stays ih (List.suffix_cons _ cs) (literalLines?_plain cs (by decide) (.inl rfl))
      fun _ => literalLines?_plain _ (by decide) (.inl rfl)
  | case5 cs _ _ ih =>
    have hstep : ∀ cs, literalLines? ('\r' :: '\n' :: cs) = prepend '\n' (literalLines? cs) := by
      intro cs
      rw [literalLines?.eq_def]
      simp [apostrophe]
    exact prepend_stays ih ⟨['\r', '\n'], rfl⟩ (hstep cs) fun _ => hstep _
  | case6 cs hcs =>
    refine .fail ?_
    rw [literalLines?.eq_def]
    simp [apostrophe]
  | case7 c cs ha hn hr hp ih =>
    exact prepend_stays ih (List.suffix_cons _ cs) (literalLines?_plain cs ha (.inr hp))
      fun _ => literalLines?_plain _ ha (.inr hp)
  | case8 c cs ha hn hr hp =>
    refine .fail ?_
    rw [literalLines?.eq_def]
    simp [ha, hn, hr, hp]

/-- in the text and in a gap, what is neither a blank nor a line end is read alike -/
theorem basicLines?_eq_text {place : Place} {c : Char} (hl : place ≠ .lineEnd) (hn : c ≠ '\n')
    (hr : c ≠ '\r') (hp : ¬(isSpace c = true ∧ place ≠ .text)) (cs : List Char) :
    basicLines? place (c :: cs) = basicLines? .text (c :: cs) := by
  rw [basicLines?.eq_def, basicLines?.eq_def]
  simp [hn, hr, hp, hl]

theorem basicLines?_longUnicode {h₁ h₂ h₃ h₄ h₅ h₆ h₇ h₈ c : Char}
    (h : scalar? [h₁, h₂, h₃, h₄, h₅, h₆, h₇, h₈] = some c) (cs : List Char) :
    basicLines? .text (backslash :: 'U' :: h₁ :: h₂ :: h₃ :: h₄ :: h₅ :: h₆ :: h₇ :: h₈ :: cs)
      = prepend c (basicLines? .text cs) := by
  rw [basicLines?.eq_def]
  simp [h, backslash, quote]

/-- a backslash that does not start the escape of a character may end its line -/
theorem basicLines?_backslash {e : Char} {cs : List Char} (h : escaped? e = none)
    (hu : ∀ a b c d rest, e = 'u' → cs = a :: b :: c :: d :: rest → False)
    (hU : ∀ a b c d e' f g h rest, e = 'U' → cs = a :: b :: c :: d :: e' :: f :: g :: h :: rest → False) :
    basicLines? .text (backslash :: e :: cs)
      = if isSpace e || e = '\n' || e = '\r' then basicLines? .lineEnd (e :: cs) else none := by
  rw [basicLines?.eq_def]
  dsimp only
  rw [if_neg (by decide), if_neg (by decide), if_neg (by decide), if_neg (by decide),
    if_neg (by decide), if_pos rfl]
  split
  · next heq =>
    cases heq
    exact (hu _ _ _ _ _ rfl rfl).elim
  · next heq =>
    cases heq
    exact (hU _ _ _ _ _ _ _ _ _ rfl rfl).elim
  · next heq =>
    cases heq
    rw [h]
  · next heq => cases heq

theorem basicLines?_stays (place : Place) (cs : List Char) :
    Stays more (basicLines? place) (basicLines? place) cs := by
  fun_induction basicLines? place cs with
  | case1 => exact .fail rfl
  | case2 cs ih =>
    exact prepend_stays ih (List.suffix_cons _ cs) (basicLines?_newline cs) fun _ => basicLines?_newline _
  | case3 place cs hp ih =>
    have hstep : ∀ cs, basicLines? place ('\n' :: cs) = basicLines? .gap cs := by
      intro cs
      rw [basicLines?.eq_def]
      simp [hp]
    exact ih.step (List.suffix_cons _ cs) (hstep cs) fun _ => hstep _
  | case4 cs _ ih =>
    have hstep : ∀ cs, basicLines? .text ('\r' :: '\n' :: cs)
        = prepend '\n' (basicLines? .text cs) := by
      intro cs
      rw [basicLines?.eq_def]
      simp
    exact prepend_stays ih ⟨['\r', '\n'], rfl⟩ (hstep cs) fun _ => hstep _
  | case5 place cs hp _ ih =>
    have hstep : ∀ cs, basicLines? place ('\r' :: '\n' :: cs) = basicLines? .gap cs := by
      intro cs
      rw [basicLines?.eq_def]
      simp [hp]
    exact ih.step ⟨['\r', '\n'], rfl⟩ (hstep cs) fun _ => hstep _
  | case6 place cs hcs _ =>
    refine .fail ?_
    rw [basicLines?.eq_def]
    simp
  | case7 place c cs hn hr hp ih =>
    have hstep : ∀ cs, basicLines? place (c :: cs) = basicLines? place cs := by
      intro cs
      rw [basicLines?.eq_def]
      simp [hn, hr, hp]
    exact ih.step (List.suffix_cons _ cs) (hstep cs) fun _ => hstep _
  | case8 c cs hn hr hp =>
    refine .fail ?_
    rw [basicLines?.eq_def]
    dsimp only
    rw [if_neg hn, if_neg hr, if_neg hp, if_pos rfl]
  | case9 place cs hl h hn hr hp =>
    refine close_stays (by decide) ?_ h
    intro cs h
    rw [basicLines?.eq_def]
    dsimp only
    rw [if_neg hn, if_neg hr, if_neg hp, if_neg hl, if_pos rfl, if_pos h]
  | case10 place cs hl h hn hr hp ih =>
    rw [Bool.not_eq_true] at h
    refine prepend_stays ih (List.suffix_cons quote cs) (c := quote) ?_ ?_
    · rw [basicLines?_eq_text hl hn hr hp, basicLines?_quote cs h]
    · intro hmem
      rw [List.cons_append, basicLines?_eq_text hl hn hr hp, basicLines?_quote]
      rw [startsTwice_append (by decide) hmem, h]
  | case11 place hl a b c d cs e h hn hr hp _ ih =>
    have hstep : ∀ cs, basicLines? place (backslash :: 'u' :: a :: b :: c :: d :: cs)
        = prepend e (basicLines? .text cs) := by
      intro cs
      rw [basicLines?_eq_text hl hn hr hp, basicLines?_unicode cs h]
    exact prepend_stays ih ⟨[_, _, _, _, _, _], rfl⟩ (hstep cs) fun _ => hstep _
  | case12 place hl a b c d cs h hn hr hp =>
    refine .fail ?_
    rw [basicLines?_eq_text hl hn hr hp, basicLines?.eq_def]
    simp [h, backslash, quote]
  | case13 place hl a b c d e f g h cs x hx hn hr hp _ ih =>
    have hstep : ∀ cs, basicLines? place
        (backslash :: 'U' :: a :: b :: c :: d :: e :: f :: g :: h :: cs)
          = prepend x (basicLines? .text cs) := by
      intro cs
      rw [basicLines?_eq_text hl hn hr hp, basicLines?_longUnicode hx]
    exact prepend_stays ih ⟨[_, _, _, _, _, _, _, _, _, _], rfl⟩ (hstep cs) fun _ => hstep _
  | case14 place hl a b c d e f g h cs hx hn hr hp =>
    refine .fail ?_
    rw [basicLines?_eq_text hl hn hr hp, basicLines?.eq_def]
    simp [hx, backslash, quote]
  | case15 place hl e cs _ _ c h hn hr hp _ ih =>
    have hstep : ∀ cs, basicLines? place (backslash :: e :: cs) = prepend c (basicLines? .text cs) := by
      intro cs
      rw [basicLines?_eq_text hl hn hr hp, basicLines?_escape cs h]
    exact prepend_stays ih ⟨[_, _], rfl⟩ (hstep cs) fun _ => hstep _
  | case16 place hl e cs hu hU h he hn hr hp _ ih =>
    have hstep : ∀ cs, basicLines? place (backslash :: e :: cs) = basicLines? .lineEnd (e :: cs) := by
      intro cs
      rw [basicLines?_eq_text hl hn hr hp, basicLines?_backslash h ?_ ?_, if_pos he]
      all_goals
        intros
        subst e
        revert he
        decide
    exact ih.step (List.suffix_cons _ _) (hstep cs) fun _ => hstep _
  | case17 place hl e cs hu hU h he hn hr hp hq =>
    refine .fail ?_
    rw [basicLines?_eq_text hl hn hr hp, basicLines?_backslash h hu hU, if_neg he]
  | case18 place hl hn hr hp =>
    refine .fail ?_
    rw [basicLines?_eq_text hl hn hr hp]
    rfl
  | case19 place c cs hn hr hp hl hq hb hc ih =>
    have hstep : ∀ cs, basicLines? place (c :: cs) = prepend c (basicLines? .text cs) := by
      intro cs
      rw [basicLines?_eq_text hl hn hr hp, basicLines?_plain cs hn hr hq hb hc]
    exact prepend_stays ih (List.suffix_cons _ cs) (hstep cs) fun _ => hstep _
  | case20 place c cs hn hr hp hl hq hb hc =>
    refine .fail ?_
    rw [basicLines?.eq_def]
    dsimp only
    rw [if_neg hn, if_neg hr, if_neg hp, if_neg hl, if_neg hq, if_neg hb, if_neg hc]

theorem dropLineEnd_suffix (cs : List Char) : dropLineEnd cs <:+ cs := by
  unfold dropLineEnd
  split
  · exact List.suffix_cons _ _
  · exact ⟨['\r', '\n'], rfl⟩
  · exact List.suffix_refl _

theorem dropLineEnd_append (hn : '\n' ∈ dropLineEnd cs) :
    dropLineEnd (cs ++ more) = dropLineEnd cs ++ more := by
  unfold dropLineEnd at hn ⊢
  split at hn
  · rfl
  · rfl
  · next hnewline hreturn =>
    split
    · next rest h =>
      cases cs with
      | nil => cases hn
      | cons c cs =>
        cases h
        exact (hnewline _ rfl).elim
    · next rest h =>
      cases cs with
      | nil => cases hn
      | cons c cs =>
        cases cs with
        | nil =>
          cases h
          simp at hn
        | cons d cs =>
          cases h
          exact (hreturn _ rfl).elim
    · rfl

/-- three opening marks -/
theorem open_stays {mark : Char} {f lines : List Char → Option (List Char × List Char)}
    (hlines : ∀ cs, Stays more lines lines cs)
    (hf : ∀ cs, startsTwice mark cs = true → f (mark :: cs) = lines (dropLineEnd (cs.drop 2)))
    (h : startsTwice mark cs = true) : Stays more f f (mark :: cs) := by
  obtain ⟨tail, rfl⟩ := eq_of_startsTwice h
  refine (hlines _).step ?_ (hf _ h) ?_
  · exact (dropLineEnd_suffix tail).trans ⟨[mark, mark, mark], rfl⟩
  · intro hn
    rw [← dropLineEnd_append hn]
    exact hf _ h

variable (more)

theorem readLine?_stays (cs : List Char) : Stays more readLine? readLine? cs := by
  cases cs with
  | nil => exact .fail rfl
  | cons c cs =>
    by_cases hq : c = quote
    · subst hq
      exact (basic?_stays cs).step (List.suffix_cons _ cs) rfl fun _ => rfl
    by_cases ha : c = apostrophe
    · subst ha
      exact (literal?_stays cs).step (List.suffix_cons _ cs) rfl fun _ => rfl
    · refine .fail ?_
      rw [readLine?, if_neg hq, if_neg ha]

/-- **A quoted text of any form** is read alike in front of more text. -/
theorem read?_stays (cs : List Char) : Stays more read? read? cs := by
  cases cs with
  | nil => exact .fail rfl
  | cons c cs =>
    by_cases hq : c = quote
    · subst hq
      by_cases ht : startsTwice quote cs = true
      · refine open_stays (basicLines?_stays .text) ?_ ht
        intro cs ht
        rw [read?, if_pos rfl, if_pos ht]
      · rw [Bool.not_eq_true] at ht
        refine (basic?_stays cs).step (List.suffix_cons _ cs) (read?_basic cs ht) ?_
        intro hn
        have hmore : startsTwice quote (cs ++ more) = false := by
          rw [startsTwice_append (by decide) hn, ht]
        exact read?_basic _ hmore
    by_cases ha : c = apostrophe
    · subst ha
      by_cases ht : startsTwice apostrophe cs = true
      · refine open_stays literalLines?_stays ?_ ht
        intro cs ht
        rw [read?, if_neg (by decide), if_pos rfl, if_pos ht]
      · rw [Bool.not_eq_true] at ht
        refine (literal?_stays cs).step (List.suffix_cons _ cs) (read?_literal cs ht) ?_
        intro hn
        have hmore : startsTwice apostrophe (cs ++ more) = false := by
          rw [startsTwice_append (by decide) hn, ht]
        exact read?_literal _ hmore
    · refine .fail ?_
      rw [read?, if_neg hq, if_neg ha]

end Quoted

end DeskClock.Toml
