import DeskClock.Proofs.Toml.Quoted
import DeskClock.Proofs.Toml.Scalar

/-!
# a document is read back

* `ReadsAs depth v w`        the text of the value `v` is read as `w` wherever it stands;
* `ReadsAs.string`, `ReadsAs.integer`, `ReadsAs.float`, `ReadsAs.boolean`, `ReadsAs.array`
                             the values that are read back;
* `LinesRead cs d`           the lines of a text make the document `d`;
* `Document.read?_write`     a document with bare names is read as the document of what its values are
                             read as.

A reader that is given the length of the text as fuel never runs out of it: each lemma asks only for
as much fuel as the text in question is long.
-/

namespace DeskClock.Toml

/-! ## blanks -/

/-- a character at which a reader of blanks, line ends and comments stops -/
def IsSolid (c : Char) : Prop := isSpace c = false ∧ c ≠ '\n' ∧ c ≠ '\r' ∧ c ≠ '#'

theorem isSolid_of_isWordChar {c : Char} (h : isWordChar c = true) : IsSolid c := by
  refine ⟨?_, ?_, ?_, ?_⟩
  · rw [isSpace, Bool.or_eq_false_iff, decide_eq_false_iff_not, decide_eq_false_iff_not]
    constructor
    · rintro rfl
      cases h
    · rintro rfl
      cases h
  · rintro rfl
    cases h
  · rintro rfl
    cases h
  · rintro rfl
    cases h

theorem skipSpaces_cons {c : Char} (h : isSpace c = false) (cs : List Char) :
    skipSpaces (c :: cs) = c :: cs :=
  List.dropWhile_cons_of_neg (by rw [h]; exact Bool.false_ne_true)

theorem skipComment_cons {c : Char} (h : c ≠ '#') (cs : List Char) :
    skipComment (c :: cs) = c :: cs := by
  unfold skipComment
  split
  · cases ‹c :: cs = _›
    exact absurd rfl h
  · rfl

theorem lineEnd?_cons {c : Char} (h1 : c ≠ '\n') (h2 : c ≠ '\r') (cs : List Char) :
    lineEnd? (c :: cs) = none := by
  unfold lineEnd?
  split
  · cases ‹c :: cs = _›
    exact absurd rfl h1
  · cases ‹c :: cs = _›
    exact absurd rfl h2
  · rfl

theorem skipLines_cons {c : Char} (h : IsSolid c) (fuel : Nat) (cs : List Char) :
    skipLines fuel (c :: cs) = c :: cs := by
  obtain ⟨h1, h2, h3, h4⟩ := h
  cases fuel with
  | zero => rfl
  | succ fuel =>
    rw [skipLines, skipSpaces_cons h1, skipComment_cons h4, lineEnd?_cons h2 h3]

theorem skipLines_newline (fuel : Nat) (cs : List Char) :
    skipLines (fuel + 1) ('\n' :: cs) = skipLines fuel cs := rfl

theorem skipLines_indent {c : Char} (h : IsSolid c) (fuel : Nat) (cs : List Char) :
    skipLines (fuel + 1) (' ' :: ' ' :: ' ' :: ' ' :: c :: cs) = c :: cs := by
  obtain ⟨h1, h2, h3, h4⟩ := h
  have e : skipSpaces (' ' :: ' ' :: ' ' :: ' ' :: c :: cs) = c :: cs := by
    show skipSpaces (c :: cs) = c :: cs
    exact skipSpaces_cons h1 cs
  rw [skipLines, e, skipComment_cons h4, lineEnd?_cons h2 h3]

/-! ## values -/

/-- what stands behind a value: the end of its line, a comma or the end of its array or inline table -/
def Ends : List Char → Prop
  | c :: cs => c = '\n' ∨ c = ',' ∨ c = ']' ∨ (c = ' ' ∧ cs.head? = some '}')
  | [] => False

/-- the text of a value is read as another one wherever it stands -/
structure ReadsAs (depth : Nat) (v w : Toml) : Prop where
  starts : ∃ c cs, write v = c :: cs ∧ IsSolid c ∧ c ≠ ']'
  reads : ∀ (fuel : Nat) (rest : List Char), (write v).length ≤ fuel → Ends rest →
    value? fuel depth (write v ++ rest) = some (w, rest)

theorem value?_word {c : Char} (h : isWordChar c = true) (fuel depth : Nat) (cs : List Char) :
    value? fuel depth (c :: cs) = word? (c :: cs) := by
  have h1 : ¬ (c = Quoted.quote ∨ c = Quoted.apostrophe) := by
    rintro (rfl | rfl)
    · cases h
    · cases h
  have h2 : c ≠ '[' := by
    rintro rfl
    cases h
  have h3 : c ≠ '{' := by
    rintro rfl
    cases h
  rw [value?.eq_def]
  dsimp only
  rw [if_neg h1, if_neg h2, if_neg h3]

theorem word?_append {word rest : List Char} (hw : ∀ c ∈ word, isWordChar c = true)
    (hr : Ends rest) : word? (word ++ rest) = (scalar? word).map (·, rest) := by
  cases rest with
  | nil => cases hr
  | cons c cs =>
    have hc : isWordChar c = false := by
      rcases hr with rfl | rfl | rfl | ⟨rfl, -⟩ <;> rfl
    have ht : (word ++ c :: cs).takeWhile isWordChar = word := takeWhile_append_cons hw hc cs
    rw [word?, ht, List.drop_left]
    rcases hr with rfl | rfl | rfl | ⟨rfl, hbrace⟩
    · rfl
    · rfl
    · rfl
    · -- what stands behind the space is not a time
      obtain ⟨ds, rfl⟩ := List.head?_eq_some_iff.mp hbrace
      have htime : (isDate word && isOffsetTime (('}' :: ds).takeWhile isWordChar)) = false :=
        Bool.and_false _
      show (if (isDate word && isOffsetTime (('}' :: ds).takeWhile isWordChar)) = true then _ else _) = _
      rw [htime, if_neg Bool.false_ne_true]

/-- a word is read as its value -/
theorem ReadsAs.word {depth : Nat} {v w : Toml} {word : List Char} (hv : write v = word)
    (hne : word ≠ []) (hw : ∀ c ∈ word, isWordChar c = true) (hs : scalar? word = some w) :
    ReadsAs depth v w := by
  subst hv
  cases e : write v with
  | nil => exact absurd e hne
  | cons c cs =>
    have hc := hw c (e ▸ List.mem_cons_self)
    refine ⟨⟨c, cs, e, isSolid_of_isWordChar hc, ?_⟩, ?_⟩
    · rintro rfl
      cases hc
    · intro fuel rest _ hr
      have hv : value? fuel depth (write v ++ rest) = word? (write v ++ rest) := by
        rw [e]
        exact value?_word hc fuel depth (cs ++ rest)
      rw [hv, word?_append hw hr, hs]
      rfl

theorem ReadsAs.integer {depth : Nat} {n : Int} (h1 : minInteger ≤ n) (h2 : n ≤ maxInteger) :
    ReadsAs depth (.integer n) (.integer n) := by
  have e : write (.integer n) = Digits.ofInt n := by rw [write]
  exact .word e (ofInt_ne_nil n) (isWordChar_of_mem_ofInt n) (scalar?_ofInt h1 h2)

theorem ReadsAs.float (depth : Nat) (x : Binary64) : ReadsAs depth (.float x) (.float x.plain) := by
  have e : write (.float x) = writeFloat x := by rw [write]
  exact .word e (writeFloat_ne_nil x) (isWordChar_of_mem_writeFloat x) (scalar?_writeFloat x)

theorem ReadsAs.boolean (depth : Nat) (b : Bool) : ReadsAs depth (.boolean b) (.boolean b) := by
  cases b with
  | true =>
    have e : write (.boolean true) = ['t', 'r', 'u', 'e'] := by rw [write]
    exact .word e (List.cons_ne_nil _ _) (List.all_eq_true.mp rfl) rfl
  | false =>
    have e : write (.boolean false) = ['f', 'a', 'l', 's', 'e'] := by rw [write]
    exact .word e (List.cons_ne_nil _ _) (List.all_eq_true.mp rfl) rfl

theorem writeText_eq_cons (cs : List Char) : ∃ c text, writeText cs = c :: text ∧
    (c = Quoted.quote ∨ c = Quoted.apostrophe) := by
  unfold writeText
  cases textForm cs with
  | basic => exact ⟨_, _, rfl, .inl rfl⟩
  | literal => exact ⟨_, _, rfl, .inr rfl⟩
  | basicLines => exact ⟨_, _, rfl, .inl rfl⟩
  | literalLines => exact ⟨_, _, rfl, .inr rfl⟩
  | escapedLines => exact ⟨_, _, rfl, .inl rfl⟩
  | escaped => exact ⟨_, _, rfl, .inl rfl⟩

theorem ReadsAs.string (depth : Nat) (text : String) :
    ReadsAs depth (.string text) (.string text) := by
  have e : write (.string text) = writeText text.toList := by rw [write]
  obtain ⟨c, cs, ec, hc⟩ := writeText_eq_cons text.toList
  refine ⟨⟨c, cs, e.trans ec, ?_, ?_⟩, ?_⟩
  · rcases hc with rfl | rfl
    · exact ⟨rfl, by decide, by decide, by decide⟩
    · exact ⟨rfl, by decide, by decide, by decide⟩
  · rcases hc with rfl | rfl <;> decide
  · intro fuel rest _ hr
    have hq : rest.head? ≠ some Quoted.quote ∧ rest.head? ≠ some Quoted.apostrophe := by
      cases rest with
      | nil => cases hr
      | cons d ds =>
        rw [List.head?_cons]
        rcases hr with rfl | rfl | rfl | ⟨rfl, -⟩ <;> exact ⟨by decide, by decide⟩
    have hv : value? fuel depth (c :: (cs ++ rest))
        = (Quoted.read? (c :: (cs ++ rest))).map fun read =>
            (.string (String.ofList read.1), read.2) := by
      rw [value?.eq_def]
      dsimp only
      rw [if_pos hc]
    rw [e, ec, List.cons_append, hv, ← List.cons_append, ← ec,
      Quoted.read?_writeText text.toList rest hq.1 hq.2]
    show some (Toml.string (String.ofList text.toList), rest) = _
    rw [String.ofList_toList]

/-! ## arrays -/

theorem isSolid_bracket : IsSolid ']' := ⟨rfl, by decide, by decide, by decide⟩
theorem isSolid_comma : IsSolid ',' := ⟨rfl, by decide, by decide, by decide⟩

theorem items?_bracket (read : List Char → Option (Toml × List Char)) {fuel : Nat} {cs rest : List Char}
    (h : skipLines fuel cs = ']' :: rest) : items? read (fuel + 1) cs = some ([], rest) := by
  rw [items?, h]
  rfl

theorem items?_last {read : List Char → Option (Toml × List Char)} {fuel : Nat} {cs ds rest : List Char}
    {v : Toml} {c : Char} {text : List Char} (h : skipLines fuel cs = c :: text) (hc : c ≠ ']')
    (hv : read (c :: text) = some (v, ds)) (hd : skipLines fuel ds = ']' :: rest) :
    items? read (fuel + 1) cs = some ([v], rest) := by
  rw [items?, h]
  split
  · cases ‹c :: text = _›
    exact absurd rfl hc
  · rw [hv]
    simp only [Option.bind_eq_bind, Option.bind_some, hd]
    rfl

theorem items?_comma {read : List Char → Option (Toml × List Char)} {fuel : Nat} {cs ds rest : List Char}
    {v : Toml} {c : Char} {text : List Char} (h : skipLines fuel cs = c :: text) (hc : c ≠ ']')
    (hv : read (c :: text) = some (v, ds)) (hd : skipLines fuel ds = ',' :: rest) :
    items? read (fuel + 1) cs = (items? read fuel rest).map fun (items, cs) => (v :: items, cs) := by
  rw [items?, h]
  split
  · cases ‹c :: text = _›
    exact absurd rfl hc
  · rw [hv]
    simp only [Option.bind_eq_bind, Option.bind_some, hd]
    cases items? read fuel rest with
    | none => rfl
    | some read => rfl

/-- the lines of an array are read to its bracket -/
theorem items?_writeItems {limit depth : Nat} {items items' : List Toml}
    (h : List.Forall₂ (ReadsAs depth) items items') {fuel : Nat} (rest : List Char)
    (hl : (writeItems items).length ≤ limit) (hf : (writeItems items).length + 2 ≤ fuel) :
    items? (value? limit depth) fuel ('\n' :: (writeItems items ++ ']' :: rest))
      = some (items', rest) := by
  induction h generalizing fuel with
  | nil =>
    obtain ⟨f, rfl⟩ : ∃ f, fuel = f + 1 + 1 := ⟨fuel - 2, by omega⟩
    refine items?_bracket _ ?_
    rw [writeItems, List.nil_append, skipLines_newline, skipLines_cons isSolid_bracket]
  | @cons v w items items' hv _ ih =>
    have e : writeItems (v :: items)
        = ' ' :: ' ' :: ' ' :: ' ' :: write v ++ ',' :: '\n' :: writeItems items := by rw [writeItems]
    obtain ⟨c, cs, ec, hs, hc⟩ := hv.starts
    rw [e] at hl hf ⊢
    simp only [List.cons_append, List.length_cons, List.length_append] at hl hf ⊢
    obtain ⟨f, rfl⟩ : ∃ f, fuel = f + 1 + 1 + 1 := ⟨fuel - 3, by omega⟩
    have h1 := hv.reads limit (',' :: '\n' :: (writeItems items ++ ']' :: rest)) (by omega)
      (.inr (.inl rfl))
    have h2 : skipLines (f + 1 + 1) ('\n' :: ' ' :: ' ' :: ' ' :: ' ' ::
        (write v ++ ',' :: '\n' :: writeItems items ++ ']' :: rest))
        = write v ++ ',' :: '\n' :: (writeItems items ++ ']' :: rest) := by
      rw [skipLines_newline, ec]
      simp only [List.cons_append, List.append_assoc]
      exact skipLines_indent hs f _
    rw [ec] at h1 h2 ⊢
    rw [items?_comma h2 hc h1 (skipLines_cons isSolid_comma _ _), ih (by omega) (by omega)]
    rfl

/-- **An array is read back** if its items are, whatever their number. -/
theorem ReadsAs.array {depth : Nat} {items items' : List Toml}
    (h : List.Forall₂ (ReadsAs depth) items items') :
    ReadsAs (depth + 1) (.array items) (.array items') := by
  have hv : ∀ fuel cs, value? fuel (depth + 1) ('[' :: cs)
      = (items? (value? fuel depth) fuel cs).map fun (items, rest) => (.array items, rest) := by
    intro fuel cs
    rw [value?.eq_def]
    dsimp only
    rw [if_neg (by decide), if_pos rfl]
  have hs : ∀ cs, ∃ c ds, '[' :: cs = c :: ds ∧ IsSolid c ∧ c ≠ ']' := fun cs =>
    ⟨'[', cs, rfl, ⟨rfl, by decide, by decide, by decide⟩, by decide⟩
  cases h with
  | nil =>
    have e : write (.array []) = ['[', ']'] := by rw [write]
    refine ⟨e ▸ hs _, fun fuel rest hl hr => ?_⟩
    rw [e] at hl ⊢
    obtain ⟨f, rfl⟩ : ∃ f, fuel = f + 1 := ⟨fuel - 1, by simp only [List.length_cons] at hl; omega⟩
    show value? (f + 1) (depth + 1) ('[' :: ']' :: rest) = _
    rw [hv, items?_bracket _ (skipLines_cons isSolid_bracket f rest)]
    rfl
  | @cons v w items items' h1 h2 =>
    cases h2 with
    | nil =>
      have e : write (.array [v]) = '[' :: write v ++ [']'] := by rw [write]
      refine ⟨e ▸ hs _, fun fuel rest hl hr => ?_⟩
      rw [e] at hl ⊢
      simp only [List.cons_append, List.length_cons, List.length_append, List.append_assoc] at hl ⊢
      obtain ⟨f, rfl⟩ : ∃ f, fuel = f + 1 := ⟨fuel - 1, by omega⟩
      obtain ⟨c, cs, ec, hc, hb⟩ := h1.starts
      have hr := h1.reads (f + 1) (']' :: rest) (by omega) (.inr (.inr (.inl rfl)))
      have hi := skipLines_cons hc f (cs ++ ']' :: rest)
      rw [ec, List.cons_append] at hr
      rw [ec, List.nil_append, List.cons_append, hv, items?_last hi hb hr (skipLines_cons isSolid_bracket f rest)]
      rfl
    | @cons v' w' items items' h3 h4 =>
      have e : write (.array (v :: v' :: items))
          = '[' :: '\n' :: writeItems (v :: v' :: items) ++ [']'] := by
        rw [write]
        · exact List.cons_ne_nil _ _
        · intro _ h
          cases h
      refine ⟨e ▸ hs _, fun fuel rest hl hr => ?_⟩
      rw [e] at hl ⊢
      simp only [List.cons_append, List.length_cons, List.length_append, List.append_assoc,
        List.nil_append] at hl ⊢
      rw [hv, items?_writeItems (.cons h1 (.cons h3 h4)) rest (by omega) (by omega)]
      rfl

/-! ## keys -/

/-- a name that can be written without quotes -/
def IsBare (name : String) : Prop := name.toList ≠ [] ∧ ∀ c ∈ name.toList, isKeyChar c = true

instance (name : String) : Decidable (IsBare name) := inferInstanceAs (Decidable (_ ∧ _))

theorem isSolid_of_isKeyChar {c : Char} (h : isKeyChar c = true) : IsSolid c := by
  refine isSolid_of_isWordChar ?_
  rw [isKeyChar, Bool.or_eq_true, Bool.or_eq_true, decide_eq_true_eq, decide_eq_true_eq] at h
  rcases h with (h | rfl) | rfl
  · rw [isWordChar, h]
    rfl
  · rfl
  · rfl

theorem name?_append {name : String} (hn : IsBare name) {c : Char} (hc : isKeyChar c = false)
    (rest : List Char) : name? (name.toList ++ c :: rest) = some (name.toList, c :: rest) := by
  obtain ⟨hne, hk⟩ := hn
  have hq : Quoted.readLine? (name.toList ++ c :: rest) = none := by
    cases e : name.toList with
    | nil => exact absurd e hne
    | cons d ds =>
      have hd := hk d (e ▸ List.mem_cons_self)
      rw [List.cons_append, Quoted.readLine?, if_neg, if_neg]
      · rintro rfl
        cases hd
      · rintro rfl
        cases hd
  have hb : name.toList.isEmpty = false := List.isEmpty_eq_false_iff.mpr hne
  rw [name?, hq]
  dsimp only
  rw [takeWhile_append_cons hk hc rest, hb, List.drop_left]
  rfl

theorem skipSpaces_bare {name : String} (hn : IsBare name) (rest : List Char) :
    skipSpaces (name.toList ++ rest) = name.toList ++ rest := by
  obtain ⟨hne, hk⟩ := hn
  cases e : name.toList with
  | nil => exact absurd e hne
  | cons d ds => exact skipSpaces_cons (isSolid_of_isKeyChar (hk d (e ▸ List.mem_cons_self))).1 _

/-- a bare name is read as a key, with the blanks behind it -/
theorem key?_append {name : String} (hn : IsBare name) {c d : Char} (hc : isKeyChar c = false)
    (rest : List Char) {ds : List Char} (hs : skipSpaces (c :: rest) = d :: ds) (hd : d ≠ '.') :
    key? (name.toList ++ c :: rest) = some (⟨[], name⟩, d :: ds) := by
  have hnames : names? (78 + 1) (name.toList ++ c :: rest) = some ([name], d :: ds) := by
    rw [names?, skipSpaces_bare hn, name?_append hn hc]
    simp only [Option.bind_eq_bind, Option.bind_some, hs]
    split
    · cases ‹d :: ds = _›
      exact absurd rfl hd
    · rw [String.ofList_toList]
      rfl
  show ((names? (78 + 1) (name.toList ++ c :: rest)).bind _) = _
  rw [hnames]
  rfl

/-! ## lines -/

theorem line?_blank (fuel : Nat) (cs : List Char) : line? fuel ('\n' :: cs) = some (.blank, cs) := rfl

theorem lineBody?_key {c : Char} (hc : isKeyChar c = true) (fuel : Nat) (cs : List Char) :
    lineBody? fuel (c :: cs) = (assignment? (value? fuel (nestingLimit - 1)) (c :: cs)).map
      fun (a, cs) => (.assignment a, cs) := by
  obtain ⟨h1, h2, h3, h4⟩ := isSolid_of_isKeyChar hc
  rw [lineBody?, skipSpaces_cons h1]
  split
  · cases ‹c :: cs = _›
  · cases ‹c :: cs = _›
    exact absurd rfl h2
  · cases ‹c :: cs = _›
    exact absurd rfl h3
  · cases ‹c :: cs = _›
    exact absurd rfl h4
  · cases ‹c :: cs = _›
    cases hc
  · cases ‹c :: cs = _›
    cases hc
  · rfl

/-- an assignment to a bare name, of a value that is read as another one -/
structure AssignmentReadsAs (a b : Assignment) : Prop where
  parents : a.key.parents = []
  key : b.key = a.key
  isBare : IsBare a.key.name
  value : ReadsAs (nestingLimit - 1) a.value b.value

theorem Assignment.write_eq {a : Assignment} (h : a.key.parents = []) :
    a.write = a.key.name.toList ++ ' ' :: '=' :: ' ' :: (Toml.write a.value ++ ['\n']) := by
  rw [Assignment.write, KeyPath.write, h, List.append_assoc]
  rfl

/-- an assignment to a bare name is read with anything behind it that ends the value -/
theorem assignment?_bare {name : String} (hn : IsBare name) {limit depth : Nat} {v w : Toml}
    (hv : ReadsAs depth v w) {rest : List Char} (hl : (Toml.write v).length ≤ limit) (hr : Ends rest) :
    assignment? (value? limit depth) (name.toList ++ ' ' :: '=' :: ' ' :: (Toml.write v ++ rest))
      = some (⟨⟨[], name⟩, w⟩, rest) := by
  have hkey := key?_append hn (c := ' ') rfl ('=' :: ' ' :: (Toml.write v ++ rest)) rfl (by decide)
  obtain ⟨c, cs, ec, hc, -⟩ := hv.starts
  have hspace : skipSpaces (' ' :: (Toml.write v ++ rest)) = Toml.write v ++ rest := by
    rw [ec]
    exact skipSpaces_cons hc.1 _
  rw [assignment?, hkey]
  simp only [Option.bind_eq_bind, Option.bind_some, hspace, hv.reads limit rest hl hr]
  rfl

theorem line?_assignment {a b : Assignment} (h : AssignmentReadsAs a b) {fuel : Nat}
    (rest : List Char) (hf : a.write.length ≤ fuel) :
    line? fuel (a.write ++ rest) = some (.assignment b, rest) := by
  obtain ⟨hp, hk, hn, hv⟩ := h
  have e := Assignment.write_eq hp
  rw [e] at hf ⊢
  simp only [List.length_append, List.length_cons] at hf
  simp only [List.append_assoc, List.cons_append, List.nil_append]
  have hb : (⟨⟨[], a.key.name⟩, b.value⟩ : Assignment) = b := by
    rw [← hp]
    show (⟨a.key, b.value⟩ : Assignment) = b
    rw [← hk]
  have hends : Ends ('\n' :: rest) := .inl rfl
  have hread := assignment?_bare hn hv (show _ ≤ fuel by omega) hends
  have hbody : lineBody? fuel (a.key.name.toList ++ ' ' :: '=' :: ' ' ::
      (Toml.write a.value ++ '\n' :: rest)) = some (.assignment b, '\n' :: rest) := by
    cases en : a.key.name.toList with
    | nil => exact absurd en hn.1
    | cons d ds =>
      rw [en, hb] at hread
      rw [List.cons_append, lineBody?_key (hn.2 d (en ▸ List.mem_cons_self)), ← List.cons_append, hread]
      rfl
  rw [line?, hbody]
  rfl

/-- the line of a header -/
def headerLine (isArray : Bool) (key : KeyPath) : List Char :=
  (if isArray then '[' :: '[' :: key.write ++ [']', ']'] else '[' :: key.write ++ [']']) ++ ['\n']

theorem line?_header (isArray : Bool) {key : KeyPath} (hp : key.parents = []) (hn : IsBare key.name)
    (fuel : Nat) (rest : List Char) :
    line? fuel (headerLine isArray key ++ rest) = some (.header isArray key, rest) := by
  have hk : key = ⟨[], key.name⟩ := by
    rw [← hp]
  have ek : key.write = key.name.toList := by
    rw [KeyPath.write, hp]
    rfl
  have hkey := fun text => key?_append hn (c := ']') rfl text rfl (by decide)
  obtain ⟨d, ds, ed, hd⟩ : ∃ d ds, key.name.toList = d :: ds ∧ d ≠ '[' := by
    cases ed : key.name.toList with
    | nil => exact absurd ed hn.1
    | cons d ds =>
      refine ⟨d, ds, rfl, ?_⟩
      rintro rfl
      cases hn.2 '[' (ed ▸ List.mem_cons_self)
  rw [headerLine, ek]
  cases isArray with
  | true =>
    have hb : lineBody? fuel ('[' :: '[' :: (key.name.toList ++ ']' :: ']' :: '\n' :: rest))
        = header? true (key.name.toList ++ ']' :: ']' :: '\n' :: rest) := rfl
    simp only [if_true, List.cons_append, List.append_assoc, List.nil_append]
    rw [line?, hb, header?, hkey, hk]
    rfl
  | false =>
    have hb : lineBody? fuel ('[' :: (key.name.toList ++ ']' :: '\n' :: rest))
        = header? false (key.name.toList ++ ']' :: '\n' :: rest) := by
      rw [ed, List.cons_append, lineBody?, skipSpaces_cons rfl]
      split
      · next h => cases h
      · next h => cases h
      · next h => cases h
      · next h => cases h
      · next h =>
        cases h
        exact absurd rfl hd
      · next h =>
        cases h
        rfl
      · next h => exact (h _ rfl).elim
    simp only [Bool.false_eq_true, if_false, List.cons_append, List.append_assoc, List.nil_append]
    rw [line?, hb, header?, hkey, hk]
    rfl

/-! ## documents -/

/-- the lines of a text make a document, with any fuel that is enough for the text -/
def LinesRead (cs : List Char) (d : Document) : Prop :=
  ∀ fuel, cs.length ≤ fuel → (lines? fuel cs).map Document.ofLines = some d

theorem LinesRead.nil : LinesRead [] ⟨[], []⟩ := by
  intro fuel _
  rw [lines?]
  rfl

/-- one more line in front -/
theorem lines?_cons {fuel : Nat} {text rest : List Char} {line : Line} (hne : text ≠ [])
    (h : line? (fuel + 1) (text ++ rest) = some (line, rest)) :
    lines? (fuel + 1) (text ++ rest) = (lines? fuel rest).map (line :: ·) := by
  cases e : text ++ rest with
  | nil => exact absurd (List.append_eq_nil_iff.mp e).1 hne
  | cons c cs =>
    rw [e] at h
    rw [lines?, h]
    · simp only [Option.bind_eq_bind, Option.bind_some]
      cases lines? fuel rest with
      | none => rfl
      | some lines => rfl
    · exact List.cons_ne_nil _ _

theorem LinesRead.cons (text : List Char) {rest : List Char} {line : Line} {d : Document} (hne : text ≠ [])
    (hl : ∀ fuel, text.length ≤ fuel → line? fuel (text ++ rest) = some (line, rest))
    (h : LinesRead rest d) {d' : Document}
    (hd : ∀ lines, Document.ofLines lines = d → Document.ofLines (line :: lines) = d') :
    LinesRead (text ++ rest) d' := by
  intro fuel hf
  have hpos : 0 < text.length := List.length_pos_of_ne_nil hne
  rw [List.length_append] at hf
  obtain ⟨f, rfl⟩ : ∃ f, fuel = f + 1 := ⟨fuel - 1, by omega⟩
  have hr := h f (by omega)
  rw [lines?_cons hne (hl (f + 1) (by omega))]
  cases e : lines? f rest with
  | none =>
    rw [e] at hr
    cases hr
  | some lines =>
    rw [e] at hr
    exact congrArg some (hd lines (Option.some.inj hr))

theorem LinesRead.blank {rest : List Char} {d : Document} (h : LinesRead rest d) :
    LinesRead ('\n' :: rest) d :=
  LinesRead.cons ['\n'] (List.cons_ne_nil _ _) (fun fuel _ => line?_blank fuel rest) h
    fun lines hd => by rw [Document.ofLines, hd]

theorem LinesRead.assignment {a b : Assignment} (ha : AssignmentReadsAs a b) {rest : List Char}
    {d : Document} (h : LinesRead rest d) :
    LinesRead (a.write ++ rest) { d with preamble := b :: d.preamble } := by
  refine .cons _ ?_ (fun fuel hf => line?_assignment ha rest hf) h fun lines hd => ?_
  · exact List.append_ne_nil_of_right_ne_nil _ (List.cons_ne_nil _ _)
  · rw [Document.ofLines, hd]

theorem LinesRead.assignments {as bs : List Assignment} (ha : List.Forall₂ AssignmentReadsAs as bs)
    {rest : List Char} {d : Document} (h : LinesRead rest d) :
    LinesRead (as.flatMap Assignment.write ++ rest) { d with preamble := bs ++ d.preamble } := by
  induction ha with
  | nil => exact h
  | cons hb _ ih =>
    rw [List.flatMap_cons, List.append_assoc]
    exact ih.assignment hb

theorem LinesRead.header (isArray : Bool) {key : KeyPath} (hp : key.parents = [])
    (hn : IsBare key.name) {rest : List Char} {d : Document} (h : LinesRead rest d) :
    LinesRead (headerLine isArray key ++ rest) ⟨[], ⟨isArray, key, d.preamble⟩ :: d.blocks⟩ := by
  refine .cons _ ?_ (fun fuel _ => line?_header isArray hp hn fuel rest) h fun lines hd => ?_
  · exact List.append_ne_nil_of_right_ne_nil _ (List.cons_ne_nil _ _)
  · rw [Document.ofLines, hd]

/-- a block under a bare name, of assignments that are read as others -/
structure BlockReadsAs (a b : Block) : Prop where
  parents : a.key.parents = []
  key : b.key = a.key
  isArray : b.isArray = a.isArray
  isBare : IsBare a.key.name
  assignments : List.Forall₂ AssignmentReadsAs a.assignments b.assignments

theorem Block.write_eq (b : Block) :
    b.write = headerLine b.isArray b.key ++ b.assignments.flatMap Assignment.write := by
  rw [Block.write, headerLine, List.append_assoc]
  rfl

theorem LinesRead.block {a b : Block} (h : BlockReadsAs a b) {rest : List Char} {blocks : List Block}
    (hr : LinesRead rest ⟨[], blocks⟩) : LinesRead (a.write ++ rest) ⟨[], b :: blocks⟩ := by
  obtain ⟨hp, hk, hi, hn, ha⟩ := h
  have e := (hr.assignments ha).header a.isArray hp hn
  rw [← List.append_assoc, ← Block.write_eq, List.append_nil, ← hi, ← hk] at e
  exact e

theorem LinesRead.blocks {as bs : List Block} (h : List.Forall₂ BlockReadsAs as bs) :
    LinesRead (writeBlocks as) ⟨[], bs⟩ := by
  induction h with
  | nil =>
    rw [writeBlocks]
    exact .nil
  | @cons a b as bs hb h ih =>
    cases h with
    | nil =>
      rw [writeBlocks, ← List.append_nil a.write]
      exact LinesRead.nil.block hb
    | cons _ _ =>
      rw [writeBlocks]
      · exact ih.blank.block hb
      · exact List.cons_ne_nil _ _

/-- a document with bare names, of values that are read as others -/
structure DocumentReadsAs (d e : Document) : Prop where
  preamble : List.Forall₂ AssignmentReadsAs d.preamble e.preamble
  blocks : List.Forall₂ BlockReadsAs d.blocks e.blocks

theorem LinesRead.document {d e : Document} (h : DocumentReadsAs d e) : LinesRead d.write e := by
  obtain ⟨hp, hb⟩ := h
  have hblocks := LinesRead.blocks hb
  rw [Document.write]
  split_ifs with h1 h2
  · have he := hblocks.assignments hp
    rw [List.isEmpty_iff.mp h1, List.append_nil] at he
    exact he
  · have he := LinesRead.nil.assignments hp
    rw [List.isEmpty_iff.mp h2, List.forall₂_nil_left_iff] at hb
    rw [List.append_nil, List.append_nil, ← hb] at he
    exact he
  · have he := hblocks.blank.assignments hp
    rw [List.append_nil] at he
    exact he

theorem dropByteOrderMark_eq {cs : List Char} (h : cs.head? ≠ some '\uFEFF') :
    dropByteOrderMark cs = cs := by
  unfold dropByteOrderMark
  split
  · exact absurd rfl h
  · rfl

/-- a document that is written starts with a name or a bracket -/
theorem head?_write {d e : Document} (h : DocumentReadsAs d e) : d.write.head? ≠ some '\uFEFF' := by
  obtain ⟨preamble, blocks⟩ := d
  obtain ⟨preamble', blocks'⟩ := e
  obtain ⟨hp, hb⟩ := h
  dsimp only at hp hb
  have hblocks : (writeBlocks blocks).head? ≠ some '\uFEFF' := by
    cases hb with
    | nil =>
      rw [writeBlocks]
      decide
    | @cons a b as bs _ hbs =>
      have ha : a.write.head? = some '[' := by
        rw [Block.write]
        cases a.isArray <;> rfl
      have hne : a.write ≠ [] := fun h => by
        rw [h] at ha
        cases ha
      cases hbs with
      | nil =>
        rw [writeBlocks, ha]
        decide
      | cons _ _ =>
        rw [writeBlocks, List.head?_append_of_ne_nil _ hne, ha]
        · decide
        · exact List.cons_ne_nil _ _
  have hfront : ∀ rest : List Char, rest.head? ≠ some '\uFEFF' →
      (preamble.flatMap Assignment.write ++ rest).head? ≠ some '\uFEFF' := by
    intro rest hr
    cases hp with
    | nil => exact hr
    | @cons a b as bs ha _ =>
      obtain ⟨hp, -, ⟨hne, hk⟩, -⟩ := ha
      rw [List.flatMap_cons, Assignment.write_eq hp]
      cases e : a.key.name.toList with
      | nil => exact absurd e hne
      | cons c cs =>
        intro hc
        have h1 := hk c (e ▸ List.mem_cons_self)
        rw [Option.some.inj hc] at h1
        cases h1
  rw [Document.write]
  split_ifs with h1 h2
  · exact hblocks
  · have h := hfront [] (by decide)
    rw [List.append_nil] at h
    exact h
  · exact hfront _ (by rw [List.head?_cons]; decide)

/-- **A document is read back.** -/
theorem Document.read?_write {d e : Document} (h : DocumentReadsAs d e) :
    Document.read? d.write = some e := by
  rw [Document.read?, dropByteOrderMark_eq (head?_write h)]
  exact LinesRead.document h _ le_rfl

end DeskClock.Toml
