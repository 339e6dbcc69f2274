import DeskClock.Proofs.Text.Digits
import DeskClock.Toml.Writer

/-!
# quoted text is read back

The writer takes one of five forms for a text. Whichever it takes, the reader finds the text again and
stops behind its closing quotes.

* `basic?_escapeLine`            a text on one line, with escapes;
* `literal?_append`              a text on one line, as it stands;
* `basicLines?_escapeLinesFrom`  a text of several lines, with escapes and with quotes in it;
* `literalLines?_append`         a text of several lines, as it stands, with apostrophes in it;
* `read?_writeText`              a text in the form that is chosen for it.

A text of several lines may hold up to two quotes in a row as they are. The reader cannot tell them
from closing quotes before it has seen what follows, so the inductions over such a text go on with a
`run` of quotes that have been written and not yet been read.
-/

namespace DeskClock.Toml.Quoted

variable {c e : Char} (cs rest : List Char)

/-! ## one step of a reader -/

theorem basic?_quote : basic? (quote :: cs) = some ([], cs) := by
  rw [basic?.eq_def]
  exact if_pos rfl

theorem basic?_plain (hq : c ≠ quote) (hb : c ≠ backslash) (hp : isPlain c = true) :
    basic? (c :: cs) = prepend c (basic? cs) := by
  rw [basic?.eq_def]
  dsimp only
  rw [if_neg hq, if_neg hb, if_pos hp]

theorem basic?_escape (h : escaped? e = some c) :
    basic? (backslash :: e :: cs) = prepend c (basic? cs) := by
  rw [basic?.eq_def]
  dsimp only
  rw [if_neg (by decide), if_pos rfl]
  split
  · cases ‹e :: cs = _›
    cases h
  · cases ‹e :: cs = _›
    cases h
  · cases ‹e :: cs = _›
    rw [h]
  · cases ‹e :: cs = _›

theorem basic?_unicode {h₁ h₂ h₃ h₄ : Char} (h : scalar? [h₁, h₂, h₃, h₄] = some c) :
    basic? (backslash :: 'u' :: h₁ :: h₂ :: h₃ :: h₄ :: cs) = prepend c (basic? cs) := by
  rw [basic?.eq_def]
  dsimp only
  rw [if_neg (by decide), if_pos rfl]
  split
  · next e =>
    cases e
    rw [h]
  · next e => cases e
  · next hu _ e =>
    cases e
    exact (hu _ _ _ _ _ rfl rfl).elim
  · next e => cases e

theorem literal?_apostrophe : literal? (apostrophe :: cs) = some ([], cs) := rfl

theorem literal?_plain (ha : c ≠ apostrophe) (hp : isPlain c = true) :
    literal? (c :: cs) = prepend c (literal? cs) := by
  rw [literal?, if_neg ha, if_pos hp]

theorem basicLines?_newline :
    basicLines? .text ('\n' :: cs) = prepend '\n' (basicLines? .text cs) := by
  rw [basicLines?.eq_def]
  dsimp only
  rw [if_pos rfl, if_pos rfl]

theorem basicLines?_quote (h : startsTwice quote cs = false) :
    basicLines? .text (quote :: cs) = prepend quote (basicLines? .text cs) := by
  rw [basicLines?.eq_def]
  dsimp only
  rw [if_neg (by decide), if_neg (by decide), if_neg (by decide), if_neg (by decide), if_pos rfl, h]
  rfl

theorem basicLines?_close :
    basicLines? .text (List.replicate 3 quote ++ cs) = some (closing quote cs) := rfl

theorem basicLines?_plain (hn : c ≠ '\n') (hr : c ≠ '\r') (hq : c ≠ quote) (hb : c ≠ backslash)
    (hp : isPlain c = true) : basicLines? .text (c :: cs) = prepend c (basicLines? .text cs) := by
  rw [basicLines?.eq_def]
  dsimp only
  rw [if_neg hn, if_neg hr, if_neg (fun h => h.2 rfl), if_neg (by decide), if_neg hq, if_neg hb,
    if_pos hp]

theorem basicLines?_escape (h : escaped? e = some c) :
    basicLines? .text (backslash :: e :: cs) = prepend c (basicLines? .text cs) := by
  rw [basicLines?.eq_def]
  dsimp only
  rw [if_neg (by decide), if_neg (by decide), if_neg (by decide), if_neg (by decide),
    if_neg (by decide), if_pos rfl]
  split
  · cases ‹e :: cs = _›
    cases h
  · cases ‹e :: cs = _›
    cases h
  · cases ‹e :: cs = _›
    rw [h]
  · cases ‹e :: cs = _›

theorem basicLines?_unicode {h₁ h₂ h₃ h₄ : Char} (h : scalar? [h₁, h₂, h₃, h₄] = some c) :
    basicLines? .text (backslash :: 'u' :: h₁ :: h₂ :: h₃ :: h₄ :: cs)
      = prepend c (basicLines? .text cs) := by
  rw [basicLines?.eq_def]
  dsimp only
  rw [if_neg (by decide), if_neg (by decide), if_neg (by decide), if_neg (by decide),
    if_neg (by decide), if_pos rfl]
  split
  · next e =>
    cases e
    rw [h]
  · next e => cases e
  · next hu _ e =>
    cases e
    exact (hu _ _ _ _ _ rfl rfl).elim
  · next e => cases e

theorem literalLines?_apostrophe (h : startsTwice apostrophe cs = false) :
    literalLines? (apostrophe :: cs) = prepend apostrophe (literalLines? cs) := by
  rw [literalLines?.eq_def]
  dsimp only
  rw [if_pos rfl, h]
  rfl

theorem literalLines?_close :
    literalLines? (List.replicate 3 apostrophe ++ cs) = some (closing apostrophe cs) := rfl

theorem literalLines?_plain (ha : c ≠ apostrophe) (hp : c = '\n' ∨ isPlain c = true) :
    literalLines? (c :: cs) = prepend c (literalLines? cs) := by
  rw [literalLines?.eq_def]
  dsimp only
  rw [if_neg ha]
  by_cases hn : c = '\n'
  · rw [if_pos hn, hn]
  · have hp' := hp.resolve_left hn
    have hr : c ≠ '\r' := by
      rintro rfl
      exact absurd hp' (by decide)
    rw [if_neg hn, if_neg hr, if_pos hp']

/-! ## escapes -/

theorem scalar?_hex (n : Nat) (h : n < 65536) (hv : n.isValidChar) :
    scalar? (Digits.hex Digits.hexDigit 4 n) = some (Char.ofNat n) := by
  have e : (Digits.hex Digits.hexDigit 4 n).mapM Digits.hexValue?
      = some [n / 16 / 16 / 16 % 16, n / 16 / 16 % 16, n / 16 % 16, n % 16] := by
    simp only [Digits.hex, List.nil_append, List.cons_append, List.mapM_cons, List.mapM_nil]
    rw [Digits.hexValue?_hexDigit _ (Nat.mod_lt _ (by omega)),
      Digits.hexValue?_hexDigit _ (Nat.mod_lt _ (by omega)),
      Digits.hexValue?_hexDigit _ (Nat.mod_lt _ (by omega)),
      Digits.hexValue?_hexDigit _ (Nat.mod_lt _ (by omega))]
    rfl
  have en : [n / 16 / 16 / 16 % 16, n / 16 / 16 % 16, n / 16 % 16, n % 16].foldl
      (fun n d => 16 * n + d) 0 = n := by
    simp only [List.foldl_cons, List.foldl_nil]
    omega
  rw [scalar?, e]
  simp only [Option.bind_eq_bind, Option.bind_some]
  rw [en, if_pos hv]

/-- What may stand for a character in a quoted text: an escape of one letter, an escape with four
digits of base sixteen, or the character itself, which then is plain and no mark. -/
theorem escapeControl_cases (c : Char) :
    (∃ e, escaped? e = some c ∧ escapeControl c = [backslash, e]) ∨
    (∃ h₁ h₂ h₃ h₄, scalar? [h₁, h₂, h₃, h₄] = some c ∧
      escapeControl c = [backslash, 'u', h₁, h₂, h₃, h₄]) ∨
    (escapeControl c = [c] ∧ c ≠ '\n' ∧ c ≠ '\r' ∧ c ≠ backslash ∧ isPlain c = true) := by
  unfold escapeControl
  split_ifs with h1 h2 h3 h4 h5 h6 h7
  · exact .inl ⟨'b', h1 ▸ rfl, rfl⟩
  · exact .inl ⟨'t', h2 ▸ rfl, rfl⟩
  · exact .inl ⟨'n', h3 ▸ rfl, rfl⟩
  · exact .inl ⟨'f', h4 ▸ rfl, rfl⟩
  · exact .inl ⟨'r', h5 ▸ rfl, rfl⟩
  · rw [h6]
    exact .inl ⟨backslash, rfl, rfl⟩
  · have hn : c.toNat < 128 := by
      simp only [Bool.or_eq_true, decide_eq_true_eq, beq_iff_eq] at h7
      omega
    have hs := scalar?_hex c.toNat (by omega) (Or.inl (by omega))
    rw [Char.ofNat_toNat] at hs
    exact .inr (.inl ⟨_, _, _, _, hs, rfl⟩)
  · have hp : isPlain c = true := by
      simp only [Bool.or_eq_true, decide_eq_true_eq, beq_iff_eq, not_or, not_lt] at h7
      simp only [isPlain, Bool.or_eq_true, Bool.and_eq_true, decide_eq_true_eq, bne_iff_ne]
      exact .inr h7
    exact .inr (.inr ⟨rfl, h3, h5, h6, hp⟩)

theorem basic?_escapeControl (hq : c ≠ quote) :
    basic? (escapeControl c ++ cs) = prepend c (basic? cs) := by
  rcases escapeControl_cases c with ⟨e, he, h⟩ | ⟨_, _, _, _, hs, h⟩ | ⟨h, -, -, hb, hp⟩
  · rw [h]
    exact basic?_escape cs he
  · rw [h]
    exact basic?_unicode cs hs
  · rw [h]
    exact basic?_plain cs hq hb hp

theorem basicLines?_escapeControl (hq : c ≠ quote) :
    basicLines? .text (escapeControl c ++ cs) = prepend c (basicLines? .text cs) := by
  rcases escapeControl_cases c with ⟨e, he, h⟩ | ⟨_, _, _, _, hs, h⟩ | ⟨h, hn, hr, hb, hp⟩
  · rw [h]
    exact basicLines?_escape cs he
  · rw [h]
    exact basicLines?_unicode cs hs
  · rw [h]
    exact basicLines?_plain cs hn hr hq hb hp

/-! ## whole texts -/

theorem basic?_escapeLine :
    basic? (escapeLine cs ++ quote :: rest) = some (cs, rest) := by
  induction cs with
  | nil => exact basic?_quote rest
  | cons c cs ih =>
    rw [escapeLine, List.flatMap_cons, List.append_assoc]
    by_cases hq : c = quote
    · rw [if_pos hq, hq]
      show basic? (backslash :: quote :: (escapeLine cs ++ quote :: rest)) = _
      rw [basic?_escape _ (c := quote) rfl, ih]
      rfl
    · rw [if_neg hq, basic?_escapeControl _ hq]
      show prepend c (basic? (escapeLine cs ++ quote :: rest)) = _
      rw [ih]
      rfl

theorem literal?_append (ha : apostrophe ∉ cs) (hp : ∀ c ∈ cs, isPlain c = true) :
    literal? (cs ++ apostrophe :: rest) = some (cs, rest) := by
  induction cs with
  | nil => exact literal?_apostrophe rest
  | cons c cs ih =>
    have hc : c ≠ apostrophe := fun h => ha (h ▸ List.mem_cons_self)
    rw [List.cons_append, literal?_plain _ hc (hp c List.mem_cons_self),
      ih (fun h => ha (List.mem_cons_of_mem c h)) (fun d hd => hp d (List.mem_cons_of_mem c hd))]
    rfl

/-- up to two marks before the three closing ones belong to the text -/
theorem closing_replicate {mark : Char} {run : Nat} (h : run ≤ 2) (hr : rest.head? ≠ some mark) :
    closing mark (List.replicate run mark ++ rest) = (List.replicate run mark, rest) := by
  have hne : ∀ t, rest ≠ mark :: t := fun t e => hr (by rw [e]; rfl)
  have h1 : closing mark (mark :: rest) = ([mark], rest) := by
    cases rest with
    | nil => rw [closing, if_pos rfl]
    | cons a t =>
      have ha : a ≠ mark := fun e => hne t (by rw [e])
      rw [closing, if_neg (fun h => ha h.2), if_pos rfl]
  have h0 : closing mark rest = ([], rest) := by
    match rest with
    | [] => rfl
    | [a] =>
      have ha : a ≠ mark := fun e => hne [] (by rw [e])
      rw [closing, if_neg ha]
    | a :: b :: t =>
      have ha : a ≠ mark := fun e => hne (b :: t) (by rw [e])
      rw [closing, if_neg (fun h => ha h.1), if_neg ha]
  match run, h with
  | 0, _ => exact h0
  | 1, _ => exact h1
  | 2, _ =>
    show closing mark (mark :: mark :: rest) = _
    rw [closing, if_pos ⟨rfl, rfl⟩]
    rfl

theorem replicate_append_three (mark : Char) (run : Nat) :
    List.replicate run mark ++ (List.replicate 3 mark ++ rest)
      = List.replicate 3 mark ++ (List.replicate run mark ++ rest) := by
  rw [← List.append_assoc, ← List.append_assoc, List.replicate_append_replicate,
    List.replicate_append_replicate, Nat.add_comm]

theorem startsTwice_eq_false {mark : Char} (h : c ≠ mark) :
    startsTwice mark (c :: cs) = false ∧ startsTwice mark (mark :: c :: cs) = false := by
  have hd : decide (c = mark) = false := decide_eq_false h
  constructor
  · cases cs with
    | nil => rfl
    | cons a cs => rw [startsTwice, hd, Bool.false_and]
  · rw [startsTwice, hd, Bool.and_false]

/-- a pending run of marks is read as it is before another character, by a reader that takes a mark
for text unless two more follow -/
theorem read_run {mark : Char} {read : List Char → Option (List Char × List Char)}
    (hread : ∀ ds, startsTwice mark ds = false → read (mark :: ds) = prepend mark (read ds))
    {run : Nat} (h : run ≤ 2) (hc : c ≠ mark) {text tail : List Char}
    (ht : read (c :: cs) = some (text, tail)) :
    read (List.replicate run mark ++ c :: cs) = some (List.replicate run mark ++ text, tail) := by
  obtain ⟨h1, h2⟩ := startsTwice_eq_false cs hc
  match run, h with
  | 0, _ => exact ht
  | 1, _ =>
    show read (mark :: c :: cs) = _
    rw [hread _ h1, ht]
    rfl
  | 2, _ =>
    show read (mark :: mark :: c :: cs) = _
    rw [hread _ h2, hread _ h1, ht]
    rfl

theorem escapeControl_ne_nil_head (hq : c ≠ quote) :
    ∃ d ds, escapeControl c = d :: ds ∧ d ≠ quote ∧ d ≠ '\n' ∧ d ≠ '\r' := by
  rcases escapeControl_cases c with ⟨e, -, h⟩ | ⟨_, _, _, _, -, h⟩ | ⟨h, hn, hr, -, -⟩
  · exact ⟨_, _, h, by decide, by decide, by decide⟩
  · exact ⟨_, _, h, by decide, by decide, by decide⟩
  · exact ⟨_, _, h, hq, hn, hr⟩

/-- **A text of several lines with escapes is read back.** The induction is over the text; `run`
quotes before it are written and not yet read. -/
theorem basicLines?_escapeLinesFrom (hr : rest.head? ≠ some quote) (run : Nat) (h : run ≤ 2) :
    basicLines? .text (List.replicate run quote ++
      (escapeLinesFrom run cs ++ (List.replicate 3 quote ++ rest)))
      = some (List.replicate run quote ++ cs, rest) := by
  induction cs generalizing run with
  | nil =>
    rw [escapeLinesFrom, List.nil_append, replicate_append_three, basicLines?_close,
      closing_replicate rest h hr, List.append_nil]
  | cons c cs ih =>
    have ih0 := ih 0 (by omega)
    rw [List.replicate_zero, List.nil_append, List.nil_append] at ih0
    rw [escapeLinesFrom]
    split_ifs with hq hlt hn
    · -- one more quote is pending
      rw [hq]
      have e := ih (run + 1) (by omega)
      rw [List.replicate_succ', List.append_assoc, List.append_assoc] at e
      exact e
    · -- a third quote in a row is escaped
      rw [hq]
      have e : basicLines? .text (backslash :: quote ::
          (escapeLinesFrom 0 cs ++ (List.replicate 3 quote ++ rest))) = some (quote :: cs, rest) := by
        rw [basicLines?_escape _ (c := quote) rfl, ih0]
        rfl
      exact read_run _ (fun _ => basicLines?_quote _) h (by decide) e
    · rw [hn]
      have e : basicLines? .text ('\n' ::
          (escapeLinesFrom 0 cs ++ (List.replicate 3 quote ++ rest))) = some ('\n' :: cs, rest) := by
        rw [basicLines?_newline, ih0]
        rfl
      exact read_run _ (fun _ => basicLines?_quote _) h (by decide) e
    · have e := basicLines?_escapeControl
        (escapeLinesFrom 0 cs ++ (List.replicate 3 quote ++ rest)) hq
      obtain ⟨d, ds, hd, hdq, -, -⟩ := escapeControl_ne_nil_head hq
      rw [ih0, hd] at e
      rw [List.append_assoc, hd]
      exact read_run _ (fun _ => basicLines?_quote _) h hdq e

/-! ## runs of a mark -/

/-- how a character changes the length of the present run and of the longest one -/
def runStep (mark : Char) (s : Nat × Nat) (c : Char) : Nat × Nat :=
  if c = mark then (s.1 + 1, max s.2 (s.1 + 1)) else (0, s.2)

theorem longestRun_eq (mark : Char) : longestRun mark cs = (cs.foldl (runStep mark) (0, 0)).2 := rfl

theorem le_foldl_runStep (mark : Char) (s : Nat × Nat) : s.2 ≤ (cs.foldl (runStep mark) s).2 := by
  induction cs generalizing s with
  | nil => exact le_rfl
  | cons c cs ih =>
    rw [List.foldl_cons]
    refine le_trans ?_ (ih _)
    unfold runStep
    split
    · exact le_max_left _ _
    · exact le_rfl

theorem not_mem_of_longestRun {mark : Char} (h : longestRun mark cs = 0) : mark ∉ cs := by
  rw [longestRun_eq] at h
  induction cs with
  | nil => exact List.not_mem_nil
  | cons c cs ih =>
    rw [List.foldl_cons] at h
    by_cases hc : c = mark
    · have hl := le_foldl_runStep cs mark (runStep mark (0, 0) c)
      rw [h, runStep, if_pos hc] at hl
      exact absurd hl (by decide)
    · rw [runStep, if_neg hc] at h
      rintro (_ | ⟨_, hm⟩)
      · exact hc rfl
      · exact ih h hm

/-- **A text of several lines as it stands is read back**, if no three apostrophes follow each other. -/
theorem literalLines?_append (hr : rest.head? ≠ some apostrophe)
    (hp : ∀ c ∈ cs, c = '\n' ∨ isPlain c = true) (run most : Nat) (h : run ≤ 2)
    (hm : (cs.foldl (runStep apostrophe) (run, most)).2 ≤ 2) :
    literalLines? (List.replicate run apostrophe ++ (cs ++ (List.replicate 3 apostrophe ++ rest)))
      = some (List.replicate run apostrophe ++ cs, rest) := by
  induction cs generalizing run most with
  | nil =>
    rw [List.nil_append, replicate_append_three, literalLines?_close, closing_replicate rest h hr,
      List.append_nil]
  | cons c cs ih =>
    have hp' : ∀ d ∈ cs, d = '\n' ∨ isPlain d = true := fun d hd => hp d (List.mem_cons_of_mem c hd)
    rw [List.foldl_cons] at hm
    by_cases ha : c = apostrophe
    · rw [ha]
      have hl := le_foldl_runStep cs apostrophe (runStep apostrophe (run, most) c)
      have hs : runStep apostrophe (run, most) c = (run + 1, max most (run + 1)) := if_pos ha
      rw [hs] at hl hm
      have e := ih hp' _ _ (by have := le_max_right most (run + 1); omega) hm
      rw [List.replicate_succ', List.append_assoc, List.append_assoc] at e
      exact e
    · have hs : runStep apostrophe (run, most) c = (0, most) := if_neg ha
      rw [hs] at hm
      have ih0 := ih hp' _ _ (by omega) hm
      rw [List.replicate_zero, List.nil_append, List.nil_append] at ih0
      have e : literalLines? (c :: (cs ++ (List.replicate 3 apostrophe ++ rest)))
          = some (c :: cs, rest) := by
        rw [literalLines?_plain _ ha (hp c List.mem_cons_self), ih0]
        rfl
      exact read_run _ (fun _ => literalLines?_apostrophe _) h ha e

/-! ## the form of a text -/

theorem isPlain_of_not_isControl (h : isControl c = false) : c = '\n' ∨ isPlain c = true := by
  simp only [isControl, Bool.or_eq_false_iff, Bool.and_eq_false_iff, decide_eq_false_iff_not,
    bne_eq_false_iff_eq, beq_eq_false_iff_ne] at h
  simp only [isPlain, Bool.or_eq_true, Bool.and_eq_true, decide_eq_true_eq, bne_iff_ne]
  obtain ⟨(h1 | h1) | h1, h2⟩ := h
  · exact .inr (.inr ⟨by omega, h2⟩)
  · exact .inr (.inl h1)
  · exact .inl h1

theorem isPlain_of_mem (h : cs.any isControl = false) : ∀ c ∈ cs, c = '\n' ∨ isPlain c = true :=
  fun c hc => isPlain_of_not_isControl (by simpa using List.any_eq_false.mp h c hc)

/-- what holds of a text that is written as it stands -/
theorem textForm_spec : match textForm cs with
    | .literal => cs ≠ [] ∧ apostrophe ∉ cs ∧ ∀ c ∈ cs, isPlain c = true
    | .literalLines => longestRun apostrophe cs ≤ 2 ∧ ∀ c ∈ cs, c = '\n' ∨ isPlain c = true
    | _ => True := by
  unfold textForm
  dsimp only
  split_ifs with h1 h2 h3 h4 h5
  · trivial
  · simp only [Bool.and_eq_true, Bool.not_eq_true', decide_eq_true_eq] at h2
    obtain ⟨⟨ha, hn⟩, hc⟩ := h2
    refine ⟨?_, not_mem_of_longestRun cs ha, fun c hm => ?_⟩
    · rintro rfl
      exact h1 rfl
    · refine (isPlain_of_mem cs hc c hm).resolve_left ?_
      rintro rfl
      rw [List.contains_iff_mem.mpr hm] at hn
      cases hn
  · trivial
  · simp only [Bool.and_eq_true, Bool.not_eq_true', decide_eq_true_eq] at h4
    exact ⟨h4.2, isPlain_of_mem cs h4.1⟩
  · trivial
  · trivial

theorem dropLineEnd_of_ne (hn : c ≠ '\n') (hr : c ≠ '\r') : dropLineEnd (c :: cs) = c :: cs := by
  unfold dropLineEnd
  split
  · cases ‹c :: cs = _›
    exact absurd rfl hn
  · cases ‹c :: cs = _›
    exact absurd rfl hr
  · rfl

/-- the line end behind the opening marks is there if one in the text could be taken for it -/
theorem dropLineEnd_openLines (inside : List Char)
    (h : '\n' ∉ cs → ∃ d ds, inside = d :: ds ∧ d ≠ '\n' ∧ d ≠ '\r') :
    dropLineEnd ((if cs.contains '\n' then ['\n'] else []) ++ inside) = inside := by
  by_cases hn : '\n' ∈ cs
  · rw [if_pos (List.contains_iff_mem.mpr hn)]
    rfl
  · obtain ⟨d, ds, rfl, h1, h2⟩ := h hn
    rw [if_neg (fun hc => hn (List.contains_iff_mem.mp hc))]
    exact dropLineEnd_of_ne ds h1 h2

theorem read?_basic (h : startsTwice quote rest = false) : read? (quote :: rest) = basic? rest := by
  rw [read?, if_pos rfl, h]
  rfl

theorem read?_literal (h : startsTwice apostrophe rest = false) :
    read? (apostrophe :: rest) = literal? rest := by
  rw [read?, if_neg (by decide), if_pos rfl, h]
  rfl

theorem read?_basicLines :
    read? (List.replicate 3 quote ++ rest) = basicLines? .text (dropLineEnd rest) := by
  show read? (quote :: quote :: quote :: rest) = _
  rw [read?, if_pos rfl]
  exact if_pos rfl

theorem read?_literalLines :
    read? (List.replicate 3 apostrophe ++ rest) = literalLines? (dropLineEnd rest) := by
  show read? (apostrophe :: apostrophe :: apostrophe :: rest) = _
  rw [read?, if_neg (by decide), if_pos rfl]
  exact if_pos rfl

/-- text in quotes on one line; with nothing in it, no third quote may follow -/
theorem read?_escapeLine (hr : rest.head? ≠ some quote) :
    read? (quote :: escapeLine cs ++ [quote] ++ rest) = some (cs, rest) := by
  have hs : startsTwice quote (escapeLine cs ++ quote :: rest) = false := by
    cases cs with
    | nil =>
      cases rest with
      | nil => rfl
      | cons a t => exact (startsTwice_eq_false t fun e => hr (by rw [e]; rfl)).2
    | cons c cs =>
      rw [escapeLine, List.flatMap_cons, List.append_assoc]
      by_cases hq : c = quote
      · rw [if_pos hq]
        exact (startsTwice_eq_false _ (by decide)).1
      · obtain ⟨d, ds, hd, hdq, -, -⟩ := escapeControl_ne_nil_head hq
        rw [if_neg hq, hd]
        exact (startsTwice_eq_false _ hdq).1
  rw [List.append_assoc]
  show read? (quote :: (escapeLine cs ++ quote :: rest)) = _
  rw [read?_basic _ hs, basic?_escapeLine]

theorem read?_escapeLines (hr : rest.head? ≠ some quote) :
    read? (openLines quote cs ++ escapeLinesFrom 0 cs ++ List.replicate 3 quote ++ rest)
      = some (cs, rest) := by
  have hd := dropLineEnd_openLines cs (escapeLinesFrom 0 cs ++ (List.replicate 3 quote ++ rest))
    (by
      intro hn
      cases cs with
      | nil => exact ⟨_, _, rfl, by decide, by decide⟩
      | cons c cs =>
        rw [escapeLinesFrom]
        by_cases hq : c = quote
        · rw [if_pos hq, if_pos (by omega)]
          exact ⟨_, _, rfl, by rw [hq]; decide, by rw [hq]; decide⟩
        · obtain ⟨d, ds, hd, -, h1, h2⟩ := escapeControl_ne_nil_head hq
          rw [if_neg hq, if_neg (fun h => hn (by rw [h]; exact List.mem_cons_self)), hd]
          exact ⟨_, _, rfl, h1, h2⟩)
  rw [openLines, List.append_assoc, List.append_assoc, List.append_assoc, read?_basicLines, hd]
  exact basicLines?_escapeLinesFrom cs rest hr 0 (by omega)

/-- **A quoted text is read back**, and the reader stops behind it. -/
theorem read?_writeText (hq : rest.head? ≠ some quote) (ha : rest.head? ≠ some apostrophe) :
    read? (writeText cs ++ rest) = some (cs, rest) := by
  have hs := textForm_spec cs
  unfold writeText
  cases hf : textForm cs with
  | basic => exact read?_escapeLine cs rest hq
  | escaped => exact read?_escapeLine cs rest hq
  | basicLines => exact read?_escapeLines cs rest hq
  | escapedLines => exact read?_escapeLines cs rest hq
  | literal =>
    rw [hf] at hs
    obtain ⟨hne, hm, hp⟩ := hs
    have h2 : startsTwice apostrophe (cs ++ apostrophe :: rest) = false := by
      cases cs with
      | nil => exact absurd rfl hne
      | cons c cs => exact (startsTwice_eq_false _ fun e => hm (by rw [e]; exact List.mem_cons_self)).1
    rw [List.append_assoc]
    show read? (apostrophe :: (cs ++ apostrophe :: rest)) = _
    rw [read?_literal _ h2]
    exact literal?_append cs rest hm hp
  | literalLines =>
    rw [hf] at hs
    obtain ⟨hl, hp⟩ := hs
    have hd := dropLineEnd_openLines cs (cs ++ (List.replicate 3 apostrophe ++ rest)) (by
      intro hn
      cases cs with
      | nil => exact ⟨_, _, rfl, by decide, by decide⟩
      | cons c cs =>
        have h1 : c ≠ '\n' := fun e => hn (by rw [e]; exact List.mem_cons_self)
        refine ⟨c, _, rfl, h1, ?_⟩
        rintro rfl
        exact absurd ((hp _ List.mem_cons_self).resolve_left h1) (by decide))
    dsimp only
    rw [openLines, List.append_assoc, List.append_assoc, List.append_assoc, read?_literalLines, hd]
    exact literalLines?_append cs rest ha hp 0 0 (by omega) hl

end DeskClock.Toml.Quoted
