import DeskClock.Proofs.Toml.Stays

/-!
# lines in front of more text

A text of whole lines is read alike whatever follows it, so documents can be put together from parts.

* `value?_stays`                 a value is read alike in front of more text;
* `lines?_front`                 so are whole lines;
* `LinesRead.front_preamble`     assignments in front of a document are added to its own in front;
* `LinesRead.front_blocks`       a document in front of one that starts with a header has its blocks in front.
-/

namespace DeskClock.Toml

/-! ## spaces, comments and line ends -/

section

variable {more cs : List Char} {p : Char → Bool} (hp : p '\n' = false)

theorem drop_length_takeWhile (p : Char → Bool) (cs : List Char) :
    cs.drop (cs.takeWhile p).length = cs.dropWhile p := by
  have h : (cs.takeWhile p ++ cs.dropWhile p).drop (cs.takeWhile p).length = cs.dropWhile p :=
    List.drop_left
  rwa [List.takeWhile_append_dropWhile] at h

include hp

theorem mem_dropWhile (hn : '\n' ∈ cs) : '\n' ∈ cs.dropWhile p := by
  rw [← List.takeWhile_append_dropWhile (p := p) (l := cs)] at hn
  rcases List.mem_append.mp hn with hn | hn
  · rw [List.mem_takeWhile_imp hn] at hp
    cases hp
  · exact hn

/-- what ends before a line end is not longer in front of more text -/
theorem takeWhile_front (hn : '\n' ∈ cs) : (cs ++ more).takeWhile p = cs.takeWhile p := by
  rw [List.takeWhile_append, if_neg]
  intro hlength
  have hdrop := mem_dropWhile hp hn
  rw [← drop_length_takeWhile, hlength, List.drop_length] at hdrop
  cases hdrop

theorem dropWhile_front (hn : '\n' ∈ cs) : (cs ++ more).dropWhile p = cs.dropWhile p ++ more := by
  rw [List.dropWhile_append, if_neg]
  intro hempty
  have hdrop := mem_dropWhile hp hn
  rw [List.isEmpty_iff.mp hempty] at hdrop
  cases hdrop

theorem Ahead.dropWhile {mid : List Char} (h : Ahead cs mid) : Ahead cs (mid.dropWhile p) := by
  induction mid with
  | nil => exact h
  | cons c mid ih =>
    rw [List.dropWhile_cons]
    split
    · next hc =>
      refine ih (h.trans (.head ?_ mid))
      rintro rfl
      rw [hp] at hc
      cases hc
    · exact h

theorem Ahead.takeWhile (hne : cs.takeWhile p ≠ []) : Ahead cs (cs.dropWhile p) := by
  cases cs with
  | nil => exact absurd rfl hne
  | cons c cs =>
    cases hc : p c with
    | false => simp [hc] at hne
    | true =>
      have hnc : c ≠ '\n' := by
        rintro rfl
        rw [hp] at hc
        cases hc
      rw [List.dropWhile_cons, if_pos hc]
      exact (Ahead.head hnc cs).dropWhile hp

end

section

variable {more cs rest : List Char}

theorem isSpace_newline : isSpace '\n' = false := rfl

theorem skipSpaces_suffix (cs : List Char) : skipSpaces cs <:+ cs := List.dropWhile_suffix _

theorem skipSpaces_append (hn : '\n' ∈ cs) : skipSpaces (cs ++ more) = skipSpaces cs ++ more :=
  dropWhile_front isSpace_newline hn

theorem mem_skipSpaces (hn : '\n' ∈ cs) : '\n' ∈ skipSpaces cs := mem_dropWhile isSpace_newline hn

theorem Ahead.skipSpaces (h : Ahead cs rest) : Ahead cs (skipSpaces rest) := h.dropWhile isSpace_newline

theorem skipComment_suffix (cs : List Char) : skipComment cs <:+ cs := by
  unfold skipComment
  split
  · exact (List.dropWhile_suffix _).trans (List.suffix_cons _ _)
  · exact List.suffix_refl _

theorem mem_skipComment (hn : '\n' ∈ cs) : '\n' ∈ skipComment cs := by
  unfold skipComment
  split
  · next rest => exact mem_dropWhile rfl (List.mem_of_ne_of_mem (by decide) hn)
  · exact hn

theorem skipComment_append (hn : '\n' ∈ cs) : skipComment (cs ++ more) = skipComment cs ++ more := by
  cases cs with
  | nil => cases hn
  | cons c cs =>
    by_cases hc : c = '#'
    · subst hc
      exact dropWhile_front rfl (List.mem_of_ne_of_mem (by decide) hn)
    · rw [List.cons_append, skipComment_cons hc, skipComment_cons hc]
      rfl

theorem lineEnd?_suffix (h : lineEnd? cs = some rest) : '\n' :: rest <:+ cs := by
  unfold lineEnd? at h
  split at h
  · cases h
    exact List.suffix_refl _
  · cases h
    exact List.suffix_cons _ _
  · cases h

theorem lineEnd?_append (hn : '\n' ∈ cs) : lineEnd? (cs ++ more) = (lineEnd? cs).map (· ++ more) := by
  cases cs with
  | nil => cases hn
  | cons c cs =>
    by_cases hc : c = '\n'
    · subst hc
      rfl
    by_cases hr : c = '\r'
    · subst hr
      cases cs with
      | nil => simp at hn
      | cons d cs =>
        by_cases hd : d = '\n'
        · subst hd
          rfl
        · have hnone : ∀ rest, lineEnd? ('\r' :: d :: rest) = none := by
            intro rest
            unfold lineEnd?
            simp [hd]
          rw [List.cons_append, List.cons_append, hnone, hnone]
          rfl
    · rw [List.cons_append, lineEnd?_cons hc hr, lineEnd?_cons hc hr]
      rfl

theorem skipLines_suffix (fuel : Nat) (cs : List Char) : skipLines fuel cs <:+ cs := by
  induction fuel generalizing cs with
  | zero => exact List.suffix_refl _
  | succ fuel ih =>
    rw [skipLines]
    split
    · next rest h =>
      have hline := (lineEnd?_suffix h).trans ((skipComment_suffix _).trans (skipSpaces_suffix cs))
      exact (ih rest).trans ((List.suffix_cons _ rest).trans hline)
    · exact skipSpaces_suffix cs

theorem skipLines_append {fuel fuel' : Nat} (hf : cs.length ≤ fuel) (hf' : cs.length ≤ fuel')
    (hn : '\n' ∈ skipLines fuel cs) : skipLines fuel' (cs ++ more) = skipLines fuel cs ++ more := by
  induction fuel generalizing cs fuel' with
  | zero =>
    rw [List.length_eq_zero_iff.mp (Nat.le_zero.mp hf)] at hn
    cases hn
  | succ fuel ih =>
    have hcs : '\n' ∈ cs := (skipLines_suffix _ cs).subset hn
    have hpos : 0 < cs.length := List.length_pos_of_mem hcs
    obtain ⟨k, rfl⟩ : ∃ k, fuel' = k + 1 := ⟨fuel' - 1, by omega⟩
    have hspaces : '\n' ∈ skipSpaces cs := mem_skipSpaces hcs
    have hline : lineEnd? (skipComment (skipSpaces (cs ++ more)))
        = (lineEnd? (skipComment (skipSpaces cs))).map (· ++ more) := by
      rw [skipSpaces_append hcs, skipComment_append hspaces, lineEnd?_append (mem_skipComment hspaces)]
    rw [skipLines] at hn
    rw [skipLines, skipLines, hline]
    cases h : lineEnd? (skipComment (skipSpaces cs)) with
    | none => exact skipSpaces_append hcs
    | some rest =>
      have hrest : rest.length < cs.length :=
        ((lineEnd?_suffix h).trans ((skipComment_suffix _).trans (skipSpaces_suffix cs))).length_le
      rw [h] at hn
      exact ih (by omega) (by omega) hn

end

/-! ## keys and words -/

/-- the head of a text is not in what follows it -/
theorem eq_cons_of_append {cs more rest : List Char} {c : Char} (hn : '\n' ∈ cs)
    (h : cs ++ more = c :: rest) : ∃ tail, cs = c :: tail := by
  cases cs with
  | nil => cases hn
  | cons d cs =>
    cases h
    exact ⟨cs, rfl⟩

section

variable (more : List Char)

theorem isKeyChar_newline : isKeyChar '\n' = false := rfl

theorem readLine?_bare {c : Char} (hc : isKeyChar c = true) (cs : List Char) :
    Quoted.readLine? (c :: cs) = none := by
  rw [Quoted.readLine?, if_neg, if_neg]
  · rintro rfl
    cases hc
  · rintro rfl
    cases hc

theorem name?_stays (cs : List Char) : Stays more name? name? cs := by
  intro name rest h
  cases hquoted : Quoted.readLine? cs with
  | some read =>
    rw [name?, hquoted] at h
    cases h
    obtain ⟨hahead, hstays⟩ := Quoted.readLine?_stays more cs _ _ hquoted
    refine ⟨hahead, ?_⟩
    intro hn
    rw [name?, hstays hn]
  | none =>
    rw [name?, hquoted] at h
    dsimp only at h
    split at h
    · cases h
    · next hne =>
      cases h
      rw [List.isEmpty_iff] at hne
      rw [drop_length_takeWhile]
      refine ⟨.takeWhile isKeyChar_newline hne, ?_⟩
      intro hn
      have hcs : '\n' ∈ cs := (List.dropWhile_suffix _).subset hn
      have hquoted' : Quoted.readLine? (cs ++ more) = none := by
        cases cs with
        | nil => cases hcs
        | cons c cs =>
          refine readLine?_bare ?_ _
          by_contra hc
          simp [hc] at hne
      rw [name?, hquoted']
      dsimp only
      rw [drop_length_takeWhile, dropWhile_front isKeyChar_newline hcs,
        takeWhile_front isKeyChar_newline hcs, if_neg (by simpa using hne)]

theorem names?_stays (fuel : Nat) (cs : List Char) : Stays more (names? fuel) (names? fuel) cs := by
  induction fuel generalizing cs with
  | zero => exact .fail rfl
  | succ fuel ih =>
    intro names rest h
    obtain ⟨⟨name, cs'⟩, hname, h⟩ := Option.bind_eq_some_iff.mp h
    obtain ⟨hahead, hstays⟩ := name?_stays more _ _ _ hname
    have hfront : Ahead cs (skipSpaces cs') := (hahead.of_suffix (skipSpaces_suffix cs)).skipSpaces
    have hmore : '\n' ∈ skipSpaces cs' → name? (skipSpaces (cs ++ more)) = some (name, cs' ++ more) ∧
        skipSpaces (cs' ++ more) = skipSpaces cs' ++ more := by
      intro hn
      have hcs' : '\n' ∈ cs' := (skipSpaces_suffix cs').subset hn
      rw [skipSpaces_append (hfront.mem hn), hstays hcs', skipSpaces_append hcs']
      exact ⟨rfl, rfl⟩
    dsimp only at h
    split at h
    · next cs'' hpoint =>
      obtain ⟨⟨names', cs'''⟩, hnames, h⟩ := Option.bind_eq_some_iff.mp h
      cases h
      obtain ⟨hahead', hstays'⟩ := ih _ _ _ hnames
      have hpoint' : cs'' <:+ skipSpaces cs' := hpoint ▸ List.suffix_cons _ _
      refine ⟨hfront.trans (hahead'.of_suffix hpoint'), ?_⟩
      intro hn
      obtain ⟨hname', hspaces⟩ := hmore (hpoint'.subset (hahead'.mem hn))
      rw [names?, hname']
      simp only [Option.bind_eq_bind, Option.bind_some, hspaces, hpoint, List.cons_append, hstays' hn]
      rfl
    · next hpoint =>
      cases h
      refine ⟨hfront, ?_⟩
      intro hn
      obtain ⟨hname', hspaces⟩ := hmore hn
      rw [names?, hname']
      simp only [Option.bind_eq_bind, Option.bind_some, hspaces]
      split
      · next rest h =>
        obtain ⟨tail, htail⟩ := eq_cons_of_append hn h
        exact (hpoint tail htail).elim
      · rfl

theorem key?_stays (cs : List Char) : Stays more key? key? cs := by
  intro key rest h
  obtain ⟨⟨names, cs'⟩, hnames, h⟩ := Option.bind_eq_some_iff.mp h
  obtain ⟨key', hkey, h⟩ := Option.bind_eq_some_iff.mp h
  cases h
  obtain ⟨hahead, hstays⟩ := names?_stays more _ _ _ _ hnames
  refine ⟨hahead, ?_⟩
  intro hn
  rw [key?, hstays hn]
  simp only [Option.bind_eq_bind, Option.bind_some, hkey]
  rfl

theorem isWordChar_newline : isWordChar '\n' = false := rfl

theorem word?_space {cs cs' : List Char} (h : cs.dropWhile isWordChar = ' ' :: cs') :
    word? cs = if isDate (cs.takeWhile isWordChar) && isOffsetTime (cs'.takeWhile isWordChar) then
      some (.moment (String.ofList (cs.takeWhile isWordChar ++ ' ' :: cs'.takeWhile isWordChar)),
        cs'.dropWhile isWordChar)
    else (scalar? (cs.takeWhile isWordChar)).map (·, cs.dropWhile isWordChar) := by
  unfold word?
  dsimp only
  rw [drop_length_takeWhile, h]
  simp only [drop_length_takeWhile]

theorem word?_other {cs : List Char} (h : ∀ cs', cs.dropWhile isWordChar ≠ ' ' :: cs') :
    word? cs = (scalar? (cs.takeWhile isWordChar)).map (·, cs.dropWhile isWordChar) := by
  unfold word?
  dsimp only
  rw [drop_length_takeWhile]
  split
  · next cs' hspace => exact absurd hspace (h cs')
  · rfl

theorem word?_stays (cs : List Char) : Stays more word? word? cs := by
  have hahead : cs.takeWhile isWordChar ≠ [] → Ahead cs (cs.dropWhile isWordChar) :=
    .takeWhile isWordChar_newline
  have hmore : '\n' ∈ cs.dropWhile isWordChar →
      (cs ++ more).takeWhile isWordChar = cs.takeWhile isWordChar ∧
      (cs ++ more).dropWhile isWordChar = cs.dropWhile isWordChar ++ more := by
    intro hn
    have hcs := (List.dropWhile_suffix isWordChar).subset hn
    exact ⟨takeWhile_front isWordChar_newline hcs, dropWhile_front isWordChar_newline hcs⟩
  have hscalar : ∀ {v rest}, (scalar? (cs.takeWhile isWordChar)).map (·, cs.dropWhile isWordChar)
      = some (v, rest) → rest = cs.dropWhile isWordChar ∧ Ahead cs rest ∧
        scalar? (cs.takeWhile isWordChar) = some v := by
    intro v rest h
    obtain ⟨v', hv, heq⟩ := Option.map_eq_some_iff.mp h
    cases heq
    refine ⟨rfl, hahead ?_, hv⟩
    intro hnil
    rw [hnil] at hv
    cases hv
  intro v rest h
  by_cases hspace : ∃ cs', cs.dropWhile isWordChar = ' ' :: cs'
  · obtain ⟨cs', hspace⟩ := hspace
    have hspace' : '\n' ∈ cs' → (cs ++ more).dropWhile isWordChar = ' ' :: (cs' ++ more) := by
      intro hn
      rw [(hmore (hspace ▸ List.mem_cons_of_mem _ hn)).2, hspace]
      rfl
    rw [word?_space hspace] at h
    split at h
    · next htime =>
      cases h
      have hword : cs.takeWhile isWordChar ≠ [] := by
        intro hnil
        rw [hnil] at htime
        cases htime
      have hcs' : Ahead cs cs' := (hspace ▸ hahead hword).trans (.head (by decide) cs')
      refine ⟨hcs'.dropWhile isWordChar_newline, ?_⟩
      intro hn
      have hn' : '\n' ∈ cs' := (List.dropWhile_suffix _).subset hn
      rw [word?_space (hspace' hn'), (hmore (hspace ▸ List.mem_cons_of_mem _ hn')).1,
        takeWhile_front isWordChar_newline hn', if_pos htime, dropWhile_front isWordChar_newline hn']
    · next htime =>
      obtain ⟨rfl, hrest, hv⟩ := hscalar h
      refine ⟨hrest, ?_⟩
      intro hn
      obtain ⟨hword, hdrop⟩ := hmore hn
      rw [hspace] at hn
      have hn' : '\n' ∈ cs' := List.mem_of_ne_of_mem (by decide) hn
      rw [word?_space (hspace' hn'), hword, takeWhile_front isWordChar_newline hn', if_neg htime, hv, hdrop]
      rfl
  · rw [word?_other (fun cs' h => hspace ⟨cs', h⟩)] at h
    obtain ⟨rfl, hrest, hv⟩ := hscalar h
    refine ⟨hrest, ?_⟩
    intro hn
    obtain ⟨hword, hdrop⟩ := hmore hn
    rw [word?_other, hword, hv, hdrop]
    · rfl
    · intro cs' h
      rw [hdrop] at h
      exact hspace (eq_cons_of_append hn h)

end

/-! ## values -/

section

variable (more : List Char) {value value' : List Char → Option (Toml × List Char)}

theorem items?_stays {limit : Nat} (hvalue : ∀ cs, cs.length ≤ limit → Stays more value value' cs)
    {fuel fuel' : Nat} {cs : List Char} (hl : cs.length ≤ limit) (hf : cs.length < fuel)
    (hf' : cs.length < fuel') : Stays more (items? value fuel) (items? value' fuel') cs := by
  induction fuel generalizing cs fuel' with
  | zero => exact .fail rfl
  | succ fuel ih =>
    obtain ⟨k, rfl⟩ : ∃ k, fuel' = k + 1 := ⟨fuel' - 1, by omega⟩
    have hlines : '\n' ∈ skipLines fuel cs → skipLines k (cs ++ more) = skipLines fuel cs ++ more :=
      skipLines_append (by omega) (by omega)
    have hsuffix := skipLines_suffix fuel cs
    intro items rest h
    rw [items?] at h
    split at h
    · next cs' hend =>
      cases h
      rw [hend] at hlines hsuffix
      refine ⟨(Ahead.head (by decide) rest).of_suffix hsuffix, ?_⟩
      intro hn
      rw [items?, hlines (List.mem_cons_of_mem _ hn)]
      rfl
    · next hitems =>
      obtain ⟨⟨item, cs'⟩, hitem, h⟩ := Option.bind_eq_some_iff.mp h
      obtain ⟨hahead, hstays⟩ := hvalue _ (hsuffix.length_le.trans hl) _ _ hitem
      have hcs' : Ahead cs cs' := hahead.of_suffix hsuffix
      have hlength : cs'.length < cs.length := hcs'.length
      have hsuffix' := skipLines_suffix fuel cs'
      have hlines' : '\n' ∈ skipLines fuel cs' →
          skipLines k (cs' ++ more) = skipLines fuel cs' ++ more :=
        skipLines_append (by omega) (by omega)
      -- where a line end is left behind the item, the item is read alike
      have hmore : '\n' ∈ skipLines fuel cs' → ∃ c text, skipLines k (cs ++ more) = c :: text ∧ c ≠ ']' ∧
          value' (c :: text) = some (item, cs' ++ more) := by
        intro hn
        have hn' : '\n' ∈ cs' := hsuffix'.subset hn
        have hfront := hahead.mem hn'
        rw [hlines hfront]
        cases hhead : skipLines fuel cs with
        | nil =>
          rw [hhead] at hfront
          cases hfront
        | cons c text =>
          refine ⟨c, text ++ more, rfl, ?_, ?_⟩
          · rintro rfl
            exact hitems text hhead
          · rw [← List.cons_append, ← hhead]
            exact hstays hn'
      dsimp only at h
      split at h
      · next cs'' hend =>
        cases h
        rw [hend] at hlines' hsuffix' hmore
        refine ⟨(hcs'.trans ((Ahead.head (by decide) rest).of_suffix hsuffix')), ?_⟩
        intro hn
        have hn' : '\n' ∈ ']' :: rest := List.mem_cons_of_mem _ hn
        obtain ⟨c, text, htext, hc, hitem'⟩ := hmore hn'
        exact items?_last htext hc hitem' (hlines' hn')
      · next cs'' hcomma =>
        obtain ⟨⟨items', cs'''⟩, hitems', h⟩ := Option.bind_eq_some_iff.mp h
        cases h
        rw [hcomma] at hlines' hsuffix' hmore
        have hcs'' : Ahead cs cs'' := hcs'.trans ((Ahead.head (by decide) cs'').of_suffix hsuffix')
        have hlength' : cs''.length < cs.length := hcs''.length
        have hrest : Stays more (items? value fuel) (items? value' k) cs'' :=
          ih (by omega) (by omega) (by omega)
        obtain ⟨hahead', hstays'⟩ := hrest _ _ hitems'
        refine ⟨hcs''.trans hahead', ?_⟩
        intro hn
        have hn' : '\n' ∈ ',' :: cs'' := List.mem_cons_of_mem _ (hahead'.mem hn)
        obtain ⟨c, text, htext, hc, hitem'⟩ := hmore hn'
        rw [items?_comma htext hc hitem' (hlines' hn')]
        show (items? value' k (cs'' ++ more)).map _ = _
        rw [hstays' hn]
        rfl
      · cases h

theorem assignment?_stays {cs : List Char}
    (hvalue : ∀ cs', cs'.length ≤ cs.length → Stays more value value' cs') :
    Stays more (assignment? value) (assignment? value') cs := by
  intro a rest h
  obtain ⟨⟨key, cs'⟩, hkey, h⟩ := Option.bind_eq_some_iff.mp h
  obtain ⟨hahead, hstays⟩ := key?_stays more _ _ _ hkey
  dsimp only at h
  split at h
  · next cs'' =>
    obtain ⟨⟨v, cs'''⟩, hv, h⟩ := Option.bind_eq_some_iff.mp h
    cases h
    have hcs'' : Ahead cs cs'' := hahead.trans (.head (by decide) cs'')
    have hsuffix := skipSpaces_suffix cs''
    obtain ⟨hahead', hstays'⟩ := hvalue _ (hsuffix.length_le.trans hcs''.length.le) _ _ hv
    refine ⟨hcs''.trans (hahead'.of_suffix hsuffix), ?_⟩
    intro hn
    have hn' : '\n' ∈ cs'' := hsuffix.subset (hahead'.mem hn)
    rw [assignment?, hstays (List.mem_cons_of_mem _ hn')]
    simp only [Option.bind_eq_bind, Option.bind_some, List.cons_append, skipSpaces_append hn', hstays' hn]
    rfl
  · cases h

theorem inlineAssignments?_stays {limit : Nat} (hvalue : ∀ cs, cs.length ≤ limit → Stays more value value' cs)
    {fuel fuel' : Nat} {cs : List Char} (hl : cs.length ≤ limit) (hf' : cs.length < fuel') :
    Stays more (inlineAssignments? value fuel) (inlineAssignments? value' fuel') cs := by
  induction fuel generalizing cs fuel' with
  | zero => exact .fail rfl
  | succ fuel ih =>
    obtain ⟨k, rfl⟩ : ∃ k, fuel' = k + 1 := ⟨fuel' - 1, by omega⟩
    intro as rest h
    obtain ⟨⟨a, cs'⟩, ha, h⟩ := Option.bind_eq_some_iff.mp h
    obtain ⟨hahead, hstays⟩ := assignment?_stays more (fun cs' hcs' => hvalue cs' (hcs'.trans hl)) _ _ ha
    have hfront : Ahead cs (skipSpaces cs') := hahead.skipSpaces
    have hmore : '\n' ∈ skipSpaces cs' → assignment? value' (cs ++ more) = some (a, cs' ++ more) ∧
        skipSpaces (cs' ++ more) = skipSpaces cs' ++ more := by
      intro hn
      have hn' : '\n' ∈ cs' := (skipSpaces_suffix cs').subset hn
      exact ⟨hstays hn', skipSpaces_append hn'⟩
    dsimp only at h
    split at h
    · next cs'' hend =>
      cases h
      rw [hend] at hfront hmore
      refine ⟨hfront.trans (.head (by decide) rest), ?_⟩
      intro hn
      obtain ⟨ha', hspaces⟩ := hmore (List.mem_cons_of_mem _ hn)
      rw [inlineAssignments?, ha']
      simp only [Option.bind_eq_bind, Option.bind_some, hspaces, List.cons_append]
      rfl
    · next cs'' hcomma =>
      obtain ⟨⟨as', cs'''⟩, has, h⟩ := Option.bind_eq_some_iff.mp h
      cases h
      rw [hcomma] at hfront hmore
      have hcs'' : Ahead cs cs'' := hfront.trans (.head (by decide) cs'')
      have hlength := hcs''.length
      have hrest : Stays more (inlineAssignments? value fuel) (inlineAssignments? value' k) cs'' :=
        ih (by omega) (by omega)
      obtain ⟨hahead', hstays'⟩ := hrest _ _ has
      refine ⟨hcs''.trans hahead', ?_⟩
      intro hn
      obtain ⟨ha', hspaces⟩ := hmore (List.mem_cons_of_mem _ (hahead'.mem hn))
      rw [inlineAssignments?, ha']
      simp only [Option.bind_eq_bind, Option.bind_some, hspaces, List.cons_append, hstays' hn]
      rfl
    · cases h

theorem inlineRest?_stays {fuel fuel' : Nat} {cs : List Char}
    (hvalue : ∀ cs', cs'.length ≤ cs.length → Stays more value value' cs') (hf' : cs.length < fuel') :
    Stays more (inlineRest? value fuel) (inlineRest? value' fuel') cs := by
  have hsuffix := skipSpaces_suffix cs
  intro v rest h
  unfold inlineRest? at h
  split at h
  · next cs' hend =>
    cases h
    refine ⟨(Ahead.head (by decide) rest).of_suffix (hend ▸ hsuffix), ?_⟩
    intro hn
    have hn' : '\n' ∈ skipSpaces cs := hend ▸ List.mem_cons_of_mem _ hn
    rw [inlineRest?, skipSpaces_append (hsuffix.subset hn'), hend]
    rfl
  · next hend =>
    obtain ⟨⟨as, cs'⟩, has, h⟩ := Option.bind_eq_some_iff.mp h
    obtain ⟨table, htable, h⟩ := Option.bind_eq_some_iff.mp h
    cases h
    have hlength := hsuffix.length_le
    have hspaces : Stays more (inlineAssignments? value fuel) (inlineAssignments? value' fuel')
        (skipSpaces cs) := inlineAssignments?_stays more hvalue hlength (by omega)
    obtain ⟨hahead, hstays⟩ := hspaces _ _ has
    refine ⟨hahead.of_suffix hsuffix, ?_⟩
    intro hn
    have hn' := hahead.mem hn
    rw [inlineRest?, skipSpaces_append (hsuffix.subset hn')]
    split
    · next rest h =>
      obtain ⟨tail, htail⟩ := eq_cons_of_append hn' h
      exact (hend tail htail).elim
    · rw [hstays hn]
      simp only [Option.bind_eq_bind, Option.bind_some, htable]
      rfl

end

/-- **A value is read alike in front of more text**, if a line end is left behind it. -/
theorem value?_stays (more : List Char) (depth : Nat) {fuel fuel' : Nat} {cs : List Char}
    (hf : cs.length ≤ fuel) (hf' : cs.length ≤ fuel') :
    Stays more (value? fuel depth) (value? fuel' depth) cs := by
  induction depth using Nat.strong_induction_on generalizing fuel fuel' cs with
  | _ depth ih =>
  cases cs with
  | nil =>
    refine .fail ?_
    rw [value?]
  | cons c cs =>
    rw [List.length_cons] at hf hf'
    intro v rest h
    unfold value? at h
    dsimp only at h
    split at h
    · next hquote =>
      obtain ⟨⟨text, rest'⟩, htext, heq⟩ := Option.map_eq_some_iff.mp h
      cases heq
      obtain ⟨hahead, hstays⟩ := Quoted.read?_stays more _ _ _ htext
      refine ⟨hahead, ?_⟩
      intro hn
      unfold value?
      dsimp only [List.cons_append]
      rw [if_pos hquote, ← List.cons_append, hstays hn]
      rfl
    split at h
    · next hquote hbracket =>
      cases depth with
      | zero => cases h
      | succ depth =>
        obtain ⟨⟨items, rest'⟩, hitems, heq⟩ := Option.map_eq_some_iff.mp h
        cases heq
        have hinner :
            Stays more (items? (value? fuel depth) fuel) (items? (value? fuel' depth) fuel') cs := by
          refine items?_stays more ?_ le_rfl (by omega) (by omega)
          intro cs' hcs'
          exact ih depth (by omega) (by omega) (by omega)
        obtain ⟨hahead, hstays⟩ := hinner _ _ hitems
        refine ⟨hahead.cons, ?_⟩
        intro hn
        unfold value?
        dsimp only [List.cons_append]
        rw [if_neg hquote, if_pos hbracket, hstays hn]
        rfl
    split at h
    · next hquote hbracket hbrace =>
      cases depth with
      | zero => cases h
      | succ depth =>
        have hinner : Stays more (inlineRest? (value? fuel depth) fuel)
            (inlineRest? (value? fuel' depth) fuel') cs := by
          refine inlineRest?_stays more ?_ (by omega)
          intro cs' hcs'
          exact ih depth (by omega) (by omega) (by omega)
        obtain ⟨hahead, hstays⟩ := hinner _ _ h
        refine ⟨hahead.cons, ?_⟩
        intro hn
        unfold value?
        dsimp only [List.cons_append]
        rw [if_neg hquote, if_neg hbracket, if_pos hbrace, hstays hn]
    · next hquote hbracket hbrace =>
      obtain ⟨hahead, hstays⟩ := word?_stays more _ _ _ h
      refine ⟨hahead, ?_⟩
      intro hn
      unfold value?
      dsimp only [List.cons_append]
      rw [if_neg hquote, if_neg hbracket, if_neg hbrace, ← List.cons_append, hstays hn]

/-! ## lines -/

section

variable (more : List Char) {cs rest : List Char} {fuel fuel' : Nat}

theorem header?_stays (isArray : Bool) (cs : List Char) :
    Stays more (header? isArray) (header? isArray) cs := by
  intro line rest h
  obtain ⟨⟨key, cs'⟩, hkey, h⟩ := Option.bind_eq_some_iff.mp h
  obtain ⟨hahead, hstays⟩ := key?_stays more _ _ _ hkey
  dsimp only at h
  split at h
  · cases h
    refine ⟨hahead.trans (.head (by decide) rest), ?_⟩
    intro hn
    rw [header?, hstays (List.mem_cons_of_mem _ hn)]
    rfl
  · cases h
    refine ⟨hahead.trans (Ahead.head (by decide) rest).cons, ?_⟩
    intro hn
    rw [header?, hstays (List.mem_cons_of_mem _ (List.mem_cons_of_mem _ hn))]
    rfl
  · cases h

/-- a text of one or more whole lines -/
def EndsLine (cs : List Char) : Prop := cs.getLast? = some '\n'

/-- a text of whole lines -/
def WholeLines (text : List Char) : Prop := text = [] ∨ EndsLine text

instance (text : List Char) : Decidable (WholeLines text) :=
  inferInstanceAs (Decidable (text = [] ∨ text.getLast? = some '\n'))

theorem EndsLine.mem (h : EndsLine cs) : '\n' ∈ cs := List.mem_of_getLast? h

theorem EndsLine.of_suffix (h : EndsLine cs) (hs : rest <:+ cs) (hne : rest ≠ []) : EndsLine rest := by
  obtain ⟨front, rfl⟩ := hs
  rwa [EndsLine, List.getLast?_append_of_ne_nil _ hne] at h

theorem EndsLine.ahead (h : EndsLine cs) (ha : Ahead cs rest) : EndsLine rest := ha.getLast h

/-- of whole lines, the contents of the first one leave its line end -/
theorem lineBody?_front (hf : cs.length ≤ fuel) (hf' : cs.length ≤ fuel') (hw : EndsLine cs) {line : Line}
    (h : lineBody? fuel cs = some (line, rest)) :
    rest <:+ cs ∧ EndsLine rest ∧ lineBody? fuel' (cs ++ more) = some (line, rest ++ more) := by
  have hsuffix := skipSpaces_suffix cs
  have hmem := mem_skipSpaces hw.mem
  have hspaces : EndsLine (skipSpaces cs) := hw.of_suffix hsuffix (List.ne_nil_of_mem hmem)
  have hmore : skipSpaces (cs ++ more) = skipSpaces cs ++ more := skipSpaces_append hw.mem
  unfold lineBody? at h ⊢
  rw [hmore]
  have hlength := hsuffix.length_le
  generalize skipSpaces cs = first at hsuffix hmem hspaces h hlength
  -- a header or an assignment leaves a line end, because neither stops behind one
  have hahead : ∀ {mid}, mid <:+ first → Ahead mid rest → rest <:+ cs ∧ EndsLine rest := by
    intro mid hmid h
    exact ⟨h.suffix.trans (hmid.trans hsuffix), hspaces.ahead (h.of_suffix hmid)⟩
  split at h
  · cases hmem
  · cases h
    exact ⟨hsuffix, hspaces, rfl⟩
  · cases h
    exact ⟨hsuffix, hspaces, rfl⟩
  · cases h
    exact ⟨hsuffix, hspaces, rfl⟩
  · next cs' =>
    obtain ⟨ha, hstays⟩ := header?_stays more true cs' _ _ h
    obtain ⟨hrest, hends⟩ := hahead ⟨['[', '['], rfl⟩ ha
    exact ⟨hrest, hends, hstays hends.mem⟩
  · next cs' hbracket =>
    obtain ⟨ha, hstays⟩ := header?_stays more false cs' _ _ h
    obtain ⟨hrest, hends⟩ := hahead ⟨['['], rfl⟩ ha
    have hcs' := ha.mem hends.mem
    refine ⟨hrest, hends, ?_⟩
    rw [← hstays hends.mem]
    split
    · next heq => cases heq
    · next heq => cases heq
    · next heq => cases heq
    · next heq => cases heq
    · next heq =>
      obtain ⟨tail, htail⟩ := eq_cons_of_append hcs' (List.cons_eq_cons.mp heq).2
      exact (hbracket tail htail).elim
    · next heq =>
      cases heq
      rfl
    · next hother => exact (hother _ rfl).elim
  · next h1 h2 h3 h4 h5 h6 =>
    obtain ⟨⟨a, cs'⟩, hassign, heq⟩ := Option.map_eq_some_iff.mp h
    cases heq
    have hvalue : ∀ cs', cs'.length ≤ first.length →
        Stays more (value? fuel (nestingLimit - 1)) (value? fuel' (nestingLimit - 1)) cs' := by
      intro cs' hcs'
      exact value?_stays more _ (by omega) (by omega)
    obtain ⟨ha, hstays⟩ := assignment?_stays more hvalue _ _ hassign
    obtain ⟨hrest, hends⟩ := hahead (List.suffix_refl first) ha
    refine ⟨hrest, hends, ?_⟩
    have hhead : ∀ {c tail}, first ++ more = c :: tail → ∃ tail, first = c :: tail :=
      eq_cons_of_append hmem
    split
    · next heq => exact (h1 (List.append_eq_nil_iff.mp heq).1).elim
    · next heq =>
      obtain ⟨tail, htail⟩ := hhead heq
      exact (h2 tail htail).elim
    · next heq =>
      obtain ⟨tail, htail⟩ := hhead heq
      exact (h3 tail htail).elim
    · next heq =>
      obtain ⟨tail, htail⟩ := hhead heq
      exact (h4 tail htail).elim
    · next heq =>
      obtain ⟨tail, htail⟩ := hhead heq
      exact (h6 tail htail).elim
    · next heq =>
      obtain ⟨tail, htail⟩ := hhead heq
      exact (h6 tail htail).elim
    · rw [hstays hends.mem]
      rfl

theorem finishLine?_front (hw : EndsLine cs) (h : finishLine? cs = some rest) :
    '\n' :: rest <:+ cs ∧ finishLine? (cs ++ more) = some (rest ++ more) := by
  have hspaces := mem_skipSpaces hw.mem
  have hcomment := mem_skipComment hspaces
  have hsuffix := (skipComment_suffix (skipSpaces cs)).trans (skipSpaces_suffix cs)
  unfold finishLine? at h ⊢
  rw [skipSpaces_append hw.mem, skipComment_append hspaces]
  generalize skipComment (skipSpaces cs) = first at *
  split at h
  · cases hcomment
  · refine ⟨(lineEnd?_suffix h).trans hsuffix, ?_⟩
    split
    · next hnil => simp_all
    · rw [lineEnd?_append hcomment, h]
      rfl

theorem line?_front (hf : cs.length ≤ fuel) (hf' : cs.length ≤ fuel') (hw : EndsLine cs) {line : Line}
    (h : line? fuel cs = some (line, rest)) :
    '\n' :: rest <:+ cs ∧ line? fuel' (cs ++ more) = some (line, rest ++ more) := by
  obtain ⟨⟨line', body⟩, hbody, h⟩ := Option.bind_eq_some_iff.mp h
  obtain ⟨rest', hfinish, h⟩ := Option.bind_eq_some_iff.mp h
  cases h
  obtain ⟨hsuffix, hends, hbody'⟩ := lineBody?_front more hf hf' hw hbody
  obtain ⟨hrest, hfinish'⟩ := finishLine?_front more hends hfinish
  refine ⟨hrest.trans hsuffix, ?_⟩
  rw [line?, hbody']
  simp only [Option.bind_eq_bind, Option.bind_some, hfinish']
  rfl

theorem lines?_front (hf : cs.length ≤ fuel) (hw : WholeLines cs) {lines : List Line}
    (h : lines? fuel cs = some lines) (hf' : (cs ++ more).length ≤ fuel') : ∃ fuel'', more.length ≤ fuel'' ∧
      lines? fuel' (cs ++ more) = (lines? fuel'' more).map (lines ++ ·) := by
  induction fuel, cs using lines?.induct generalizing lines fuel' with
  | case1 fuel =>
    rw [lines?] at h
    cases h
    exact ⟨fuel', hf', by simp⟩
  | case2 cs hcs =>
    rw [lines?] at h
    · cases h
    · exact hcs
  | case3 fuel cs hcs ih =>
    rw [lines?] at h
    on_goal 2 => exact hcs
    have hw := hw.resolve_left hcs
    obtain ⟨⟨line, rest⟩, hline, h⟩ := Option.bind_eq_some_iff.mp h
    obtain ⟨lines', hlines, h⟩ := Option.bind_eq_some_iff.mp h
    cases h
    rw [List.length_append] at hf'
    have hpos : 0 < cs.length := List.length_pos_of_ne_nil hcs
    obtain ⟨k, rfl⟩ : ∃ k, fuel' = k + 1 := ⟨fuel' - 1, by omega⟩
    have hle : cs.length ≤ k + 1 := by omega
    obtain ⟨hsuffix, hline'⟩ := line?_front more hf hle hw hline
    have hlength : rest.length < cs.length := hsuffix.length_le
    have hrest : WholeLines rest := by
      rw [WholeLines, or_iff_not_imp_left]
      intro hne
      exact hw.of_suffix ((List.suffix_cons _ rest).trans hsuffix) hne
    have hmore : (rest ++ more).length ≤ k := by
      rw [List.length_append]
      omega
    obtain ⟨fuel'', hfuel, hlines'⟩ := ih rest (by omega) hrest hlines hmore
    refine ⟨fuel'', hfuel, ?_⟩
    rw [lines?, hline']
    · simp only [Option.bind_eq_bind, Option.bind_some, hlines']
      cases lines? fuel'' more with
      | none => rfl
      | some ms => rfl
    · exact List.append_ne_nil_of_left_ne_nil hcs _

end

/-! ## documents -/

theorem Document.ofLines_append (lines more : List Line) (h : (ofLines lines).blocks = []) :
    ofLines (lines ++ more)
      = ⟨(ofLines lines).preamble ++ (ofLines more).preamble, (ofLines more).blocks⟩ := by
  induction lines with
  | nil => rfl
  | cons line lines ih =>
    cases line with
    | blank => exact ih h
    | assignment a =>
      show Document.mk (a :: (ofLines (lines ++ more)).preamble) (ofLines (lines ++ more)).blocks = _
      rw [ih h]
      rfl
    | header isArray key => cases h

theorem Document.ofLines_append_blocks (lines more : List Line) (h : (ofLines more).preamble = []) :
    ofLines (lines ++ more)
      = ⟨(ofLines lines).preamble, (ofLines lines).blocks ++ (ofLines more).blocks⟩ := by
  induction lines with
  | nil =>
    show ofLines more = ⟨[], (ofLines more).blocks⟩
    rw [← h]
  | cons line lines ih =>
    cases line with
    | blank => exact ih
    | assignment a =>
      show Document.mk (a :: (ofLines (lines ++ more)).preamble) (ofLines (lines ++ more)).blocks = _
      rw [ih]
      rfl
    | header isArray key =>
      show Document.mk [] (⟨isArray, key, (ofLines (lines ++ more)).preamble⟩
        :: (ofLines (lines ++ more)).blocks) = _
      rw [ih]
      rfl

section

variable {text rest : List Char} {d e : Document} (hw : WholeLines text) (hm : text.head? ≠ some '\uFEFF')
  (hd : Document.read? text = some d)
include hw hm hd

/-- the lines of a text that is a document stand in front of the lines of another one -/
theorem LinesRead.front (hrest : LinesRead rest e) {d' : Document}
    (hsum : ∀ lines more, Document.ofLines lines = d → Document.ofLines more = e →
      Document.ofLines (lines ++ more) = d') : LinesRead (text ++ rest) d' := by
  intro fuel hf
  rw [Document.read?, dropByteOrderMark_eq hm] at hd
  obtain ⟨lines, hlines, hdoc⟩ := Option.map_eq_some_iff.mp hd
  obtain ⟨fuel', hfuel', hmore⟩ := lines?_front rest le_rfl hw hlines hf
  obtain ⟨more, hmore', hdoc'⟩ := Option.map_eq_some_iff.mp (hrest fuel' hfuel')
  rw [hmore, hmore']
  exact congrArg some (hsum lines more hdoc hdoc')

/-- **Assignments in front of a document** are added to those in front of its headers. -/
theorem LinesRead.front_preamble (hb : d.blocks = []) (hrest : LinesRead rest e) :
    LinesRead (text ++ rest) ⟨d.preamble ++ e.preamble, e.blocks⟩ := by
  refine LinesRead.front hw hm hd hrest ?_
  rintro lines more rfl rfl
  exact Document.ofLines_append lines more hb

/-- **A document in front of one that starts with a header** has its blocks in front. -/
theorem LinesRead.front_blocks (hp : e.preamble = []) (hrest : LinesRead rest e) :
    LinesRead (text ++ rest) ⟨d.preamble, d.blocks ++ e.blocks⟩ := by
  refine LinesRead.front hw hm hd hrest ?_
  rintro lines more rfl rfl
  exact Document.ofLines_append_blocks lines more hp

end

end DeskClock.Toml
