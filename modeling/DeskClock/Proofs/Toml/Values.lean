import DeskClock.Proofs.Toml.Front
import DeskClock.Proofs.Toml.Table

/-!
# values of all kinds are read back

* `ReadsAs.moment`, `ReadsAs.table`   dates and times, and inline tables with bare names;
* `Toml.IsWritable depth`             the values that can be written with at most `depth` arrays and inline
                                      tables inside each other;
* `Toml.IsWritable.exists_readsAs`    such a value is read back wherever it stands;
* `Document.IsWritable.exists_readsAs`   so is a document of such values under bare names;
* `WholeLines.write`                  the text of a document is made of whole lines.
-/

namespace DeskClock.Toml

/-! ## dates and times -/

theorem value?_word_append {word : List Char} (hne : word ≠ []) (hw : ∀ c ∈ word, isWordChar c = true)
    (fuel depth : Nat) (rest : List Char) : value? fuel depth (word ++ rest) = word? (word ++ rest) := by
  cases word with
  | nil => exact absurd rfl hne
  | cons c cs => exact value?_word (hw c List.mem_cons_self) fuel depth (cs ++ rest)

theorem starts_of_isWordChar {v : Toml} {word rest : List Char} (hv : write v = word ++ rest)
    (hne : word ≠ []) (hw : ∀ c ∈ word, isWordChar c = true) :
    ∃ c cs, write v = c :: cs ∧ IsSolid c ∧ c ≠ ']' := by
  cases word with
  | nil => exact absurd rfl hne
  | cons c cs =>
    have hc := hw c List.mem_cons_self
    refine ⟨c, cs ++ rest, hv, isSolid_of_isWordChar hc, ?_⟩
    rintro rfl
    cases hc

theorem isWordChar_of_ends {c : Char} {cs : List Char} (h : Ends (c :: cs)) : isWordChar c = false := by
  rcases h with rfl | rfl | rfl | ⟨rfl, -⟩ <;> rfl

/-- a date and a time with a space between them -/
theorem ReadsAs.dateTime (depth : Nat) {text : String} {date time : List Char}
    (ht : text.toList = date ++ ' ' :: time) (hd : isDate date = true) (hdw : ∀ c ∈ date, isWordChar c = true)
    (ho : isOffsetTime time = true) (htw : ∀ c ∈ time, isWordChar c = true) :
    ReadsAs depth (.moment text) (.moment text) := by
  have e : write (.moment text) = date ++ ' ' :: time := by rw [write, ht]
  have hne : date ≠ [] := by
    rintro rfl
    cases hd
  refine ⟨starts_of_isWordChar e hne hdw, ?_⟩
  intro fuel rest _ hr
  cases rest with
  | nil => cases hr
  | cons c cs =>
    have hc : isWordChar c = false := isWordChar_of_ends hr
    have hdate : (date ++ ' ' :: (time ++ c :: cs)).takeWhile isWordChar = date :=
      takeWhile_append_cons hdw rfl _
    have htime : (time ++ c :: cs).takeWhile isWordChar = time := takeWhile_append_cons htw hc cs
    have hspace : (date ++ ' ' :: (time ++ c :: cs)).dropWhile isWordChar = ' ' :: (time ++ c :: cs) := by
      rw [List.dropWhile_append_of_pos hdw]
      rfl
    have hrest : (time ++ c :: cs).dropWhile isWordChar = c :: cs := by
      rw [List.dropWhile_append_of_pos htw, List.dropWhile_cons_of_neg (by simp [hc])]
    rw [e, List.append_assoc, List.cons_append, value?_word_append hne hdw, word?_space hspace, hdate, htime,
      hrest, hd, ho, ← ht, String.ofList_toList]
    rfl

/-- **A date or a time is read back** if it is read alone. -/
theorem ReadsAs.moment (depth : Nat) {text : String} (h : word? text.toList = some (.moment text, [])) :
    ReadsAs depth (.moment text) (.moment text) := by
  have hwords : ∀ {cs : List Char}, cs.dropWhile isWordChar = [] → ∀ c ∈ cs, isWordChar c = true := fun h =>
    List.dropWhile_eq_nil_iff.mp h
  by_cases hspace : ∃ cs, text.toList.dropWhile isWordChar = ' ' :: cs
  · obtain ⟨cs, hspace⟩ := hspace
    rw [word?_space hspace] at h
    split at h
    · next hboth =>
      obtain ⟨hdate, htime⟩ := Bool.and_eq_true_iff.mp hboth
      have hcs : cs.dropWhile isWordChar = [] := congrArg Prod.snd (Option.some.inj h)
      have hall : cs.takeWhile isWordChar = cs := List.takeWhile_eq_self_iff.mpr (hwords hcs)
      have ht : text.toList = text.toList.takeWhile isWordChar ++ ' ' :: cs := by
        rw [← hspace, List.takeWhile_append_dropWhile]
      rw [hall] at htime
      exact .dateTime depth ht hdate (fun c hc => List.mem_takeWhile_imp hc) htime (hwords hcs)
    · obtain ⟨v, -, heq⟩ := Option.map_eq_some_iff.mp h
      have hnil := congrArg Prod.snd heq
      rw [hspace] at hnil
      cases hnil
  · rw [word?_other fun cs hcs => hspace ⟨cs, hcs⟩] at h
    obtain ⟨v, hv, heq⟩ := Option.map_eq_some_iff.mp h
    obtain ⟨rfl, hrest⟩ := Prod.mk.inj heq
    have hall : text.toList.takeWhile isWordChar = text.toList :=
      List.takeWhile_eq_self_iff.mpr (hwords hrest)
    have e : write (.moment text) = text.toList := by rw [write]
    rw [hall] at hv
    refine .word e ?_ (hwords hrest) hv
    intro hnil
    rw [hnil] at hv
    cases hv

/-! ## inline tables -/

/-- an entry of an inline table that is read as another one -/
structure EntryReadsAs (depth : Nat) (e e' : String × Toml) : Prop where
  isBare : IsBare e.1
  name : e'.1 = e.1
  value : ReadsAs depth e.2 e'.2

def Assignment.ofEntry (e : String × Toml) : Assignment := ⟨⟨[], e.1⟩, e.2⟩

theorem key?_space (cs : List Char) : key? (' ' :: cs) = key? cs := rfl

theorem inlineAssignments?_space (value : List Char → Option (Toml × List Char)) (fuel : Nat)
    (cs : List Char) : inlineAssignments? value fuel (' ' :: cs) = inlineAssignments? value fuel cs := by
  cases fuel with
  | zero => rfl
  | succ fuel => rw [inlineAssignments?, inlineAssignments?, assignment?, assignment?, key?_space]

theorem assignment?_entry {limit depth : Nat} {e e' : String × Toml} (h : EntryReadsAs depth e e')
    {rest : List Char} (hl : (write e.2).length ≤ limit) (hr : Ends rest) :
    assignment? (value? limit depth) (e.1.toList ++ ' ' :: '=' :: ' ' :: (write e.2 ++ rest))
      = some (.ofEntry e', rest) := by
  rw [assignment?_bare h.isBare h.value hl hr, Assignment.ofEntry, h.name]

theorem writeEntries_cons (e e' : String × Toml) (entries : List (String × Toml)) :
    writeEntries (e :: e' :: entries)
      = e.1.toList ++ ' ' :: '=' :: ' ' :: (write e.2 ++ ',' :: ' ' :: writeEntries (e' :: entries)) := by
  obtain ⟨name, v⟩ := e
  rw [writeEntries]
  · simp [writeName]
  · exact List.cons_ne_nil _ _

theorem writeEntries_single (e : String × Toml) :
    writeEntries [e] = e.1.toList ++ ' ' :: '=' :: ' ' :: (write e.2 ++ [' ']) := by
  obtain ⟨name, v⟩ := e
  rw [writeEntries]
  simp [writeName]

theorem writeEntries_eq_append (e : String × Toml) (entries : List (String × Toml)) :
    ∃ rest, writeEntries (e :: entries) = e.1.toList ++ rest := by
  cases entries with
  | nil => exact ⟨_, writeEntries_single e⟩
  | cons e' entries => exact ⟨_, writeEntries_cons e e' entries⟩

/-- the entries of an inline table are read to its brace -/
theorem inlineAssignments?_writeEntries {limit depth : Nat} {entries entries' : List (String × Toml)}
    (h : List.Forall₂ (EntryReadsAs depth) entries entries') (hne : entries ≠ []) {fuel : Nat}
    (rest : List Char) (hl : (writeEntries entries).length ≤ limit) (hf : (writeEntries entries).length ≤ fuel) :
    inlineAssignments? (value? limit depth) fuel (writeEntries entries ++ '}' :: rest)
      = some (entries'.map Assignment.ofEntry, rest) := by
  induction h generalizing fuel with
  | nil => exact absurd rfl hne
  | @cons e e' entries entries' he hrest ih =>
    cases hrest with
    | nil =>
      rw [writeEntries_single] at hl hf ⊢
      simp only [List.length_append, List.length_cons] at hl hf
      simp only [List.append_assoc, List.cons_append, List.nil_append]
      obtain ⟨f, rfl⟩ : ∃ f, fuel = f + 1 := ⟨fuel - 1, by omega⟩
      have hends : Ends (' ' :: '}' :: rest) := .inr (.inr (.inr ⟨rfl, rfl⟩))
      have hlength : (write e.2).length ≤ limit := by omega
      have hread := assignment?_entry he hlength hends
      rw [inlineAssignments?, hread]
      rfl
    | @cons e₂ e₂' entries entries' he₂ hrest =>
      rw [writeEntries_cons] at hl hf ⊢
      simp only [List.length_append, List.length_cons] at hl hf
      simp only [List.append_assoc, List.cons_append]
      obtain ⟨f, rfl⟩ : ∃ f, fuel = f + 1 := ⟨fuel - 1, by omega⟩
      have hends : Ends (',' :: ' ' :: (writeEntries (e₂ :: entries) ++ '}' :: rest)) := .inr (.inl rfl)
      have hlength : (write e.2).length ≤ limit := by omega
      have hfuel : (writeEntries (e₂ :: entries)).length ≤ f := by omega
      have hread := assignment?_entry he hlength hends
      have hmore := ih (List.cons_ne_nil _ _) (by omega) hfuel
      rw [← inlineAssignments?_space] at hmore
      rw [inlineAssignments?, hread]
      simp only [Option.bind_eq_bind, Option.bind_some]
      show (inlineAssignments? (value? limit depth) f
        (' ' :: (writeEntries (e₂ :: entries) ++ '}' :: rest))).bind _ = _
      rw [hmore]
      rfl

theorem inlineRest?_bare {name : String} (hn : IsBare name) {value : List Char → Option (Toml × List Char)}
    {fuel : Nat} {cs rest : List Char} {as : List Assignment} {table : Toml}
    (has : inlineAssignments? value fuel (name.toList ++ cs) = some (as, rest))
    (ht : inlineTable? as = some table) :
    inlineRest? value fuel (' ' :: (name.toList ++ cs)) = some (table, rest) := by
  have hskip : skipSpaces (' ' :: (name.toList ++ cs)) = name.toList ++ cs := skipSpaces_bare hn cs
  rw [inlineRest?, hskip]
  split
  · next hbrace =>
    obtain ⟨hne, hk⟩ := hn
    cases e : name.toList with
    | nil => exact absurd e hne
    | cons d ds =>
      rw [e] at hbrace hk
      cases hbrace
      cases hk _ List.mem_cons_self
  · simp only [Option.bind_eq_bind, Option.bind_some, has, ht]
    rfl

theorem map_fst_eq {depth : Nat} {entries entries' : List (String × Toml)}
    (h : List.Forall₂ (EntryReadsAs depth) entries entries') :
    entries'.map Prod.fst = entries.map Prod.fst := by
  induction h with
  | nil => rfl
  | cons he _ ih => rw [List.map_cons, List.map_cons, he.name, ih]

theorem inlineTable?_entries {entries : List (String × Toml)} (hn : (entries.map Prod.fst).Nodup) :
    inlineTable? (entries.map Assignment.ofEntry) = some (.table entries) := by
  have hflat : Flat (entries.map Assignment.ofEntry) := {
    parents := by
      intro a ha
      obtain ⟨e, -, rfl⟩ := List.mem_map.mp ha
      rfl
    nodup := by
      rw [List.map_map]
      exact hn }
  rw [inlineTable?, assignAll_flat hflat, Option.map_some, closeEntries_openEntries, entriesOf, List.map_map]
  exact congrArg (fun entries => some (Toml.table entries)) (List.map_id entries)

/-- **An inline table is read back** if its values are and its names are bare and different. -/
theorem ReadsAs.table {depth : Nat} {entries entries' : List (String × Toml)}
    (h : List.Forall₂ (EntryReadsAs depth) entries entries') (hn : (entries.map Prod.fst).Nodup) :
    ReadsAs (depth + 1) (.table entries) (.table entries') := by
  have e : write (.table entries) = '{' :: ' ' :: (writeEntries entries ++ ['}']) := by
    rw [write]
    rfl
  have hv : ∀ fuel cs, value? fuel (depth + 1) ('{' :: cs) = inlineRest? (value? fuel depth) fuel cs := by
    intro fuel cs
    rw [value?.eq_def]
    dsimp only
    rw [if_neg (by decide), if_neg (by decide), if_pos rfl]
  refine ⟨⟨_, _, e, ⟨rfl, by decide, by decide, by decide⟩, by decide⟩, ?_⟩
  intro fuel rest hl _
  rw [e] at hl ⊢
  have hl' : (writeEntries entries).length ≤ fuel := by
    simp only [List.length_append, List.length_cons] at hl
    omega
  simp only [List.cons_append, List.append_assoc, List.nil_append]
  rw [hv]
  cases h with
  | nil =>
    rw [writeEntries]
    rfl
  | cons he hrest =>
    have hread := inlineAssignments?_writeEntries (.cons he hrest) (List.cons_ne_nil _ _) rest hl' hl'
    have htable := inlineTable?_entries ((map_fst_eq (.cons he hrest)).symm ▸ hn)
    obtain ⟨text, htext⟩ := writeEntries_eq_append _ _
    rw [htext, List.append_assoc] at hread ⊢
    exact inlineRest?_bare he.isBare hread htable

/-! ## values up to a depth -/

/-- a value that can be written with at most so many arrays and inline tables inside each other; the names
in a table are bare and different -/
def IsWritable : (depth : Nat) → Toml → Prop
  | _, .string _ => True
  | _, .integer n => minInteger ≤ n ∧ n ≤ maxInteger
  | _, .float _ => True
  | _, .boolean _ => True
  | _, .moment text => word? text.toList = some (.moment text, [])
  | 0, .array _ => False
  | depth + 1, .array items => ∀ item ∈ items, item.IsWritable depth
  | 0, .table _ => False
  | depth + 1, .table entries =>
    (entries.map Prod.fst).Nodup ∧ ∀ e ∈ entries, IsBare e.1 ∧ e.2.IsWritable depth

theorem exists_forall₂ {α β : Type} {R : α → β → Prop} {as : List α} (h : ∀ a ∈ as, ∃ b, R a b) :
    ∃ bs, List.Forall₂ R as bs := by
  induction as with
  | nil => exact ⟨[], .nil⟩
  | cons a as ih =>
    obtain ⟨b, hb⟩ := h a List.mem_cons_self
    obtain ⟨bs, hbs⟩ := ih fun a ha => h a (List.mem_cons_of_mem _ ha)
    exact ⟨b :: bs, .cons hb hbs⟩

/-- **A value that can be written is read back**, with the signs of undefined numbers lost. -/
theorem IsWritable.exists_readsAs {depth : Nat} {v : Toml} (h : v.IsWritable depth) :
    ∃ w, ReadsAs depth v w := by
  induction depth generalizing v with
  | zero =>
    cases v with
    | string text => exact ⟨_, .string 0 text⟩
    | integer n => exact ⟨_, .integer h.1 h.2⟩
    | float x => exact ⟨_, .float 0 x⟩
    | boolean b => exact ⟨_, .boolean 0 b⟩
    | moment text => exact ⟨_, .moment 0 h⟩
    | array items => cases h
    | table entries => cases h
  | succ depth ih =>
    cases v with
    | string text => exact ⟨_, .string _ text⟩
    | integer n => exact ⟨_, .integer h.1 h.2⟩
    | float x => exact ⟨_, .float _ x⟩
    | boolean b => exact ⟨_, .boolean _ b⟩
    | moment text => exact ⟨_, .moment _ h⟩
    | array items =>
      obtain ⟨items', hitems⟩ := exists_forall₂ fun item hitem => ih (h item hitem)
      exact ⟨_, .array hitems⟩
    | table entries =>
      have hentry : ∀ e ∈ entries, ∃ e', EntryReadsAs depth e e' := by
        intro e he
        obtain ⟨hbare, hvalue⟩ := h.2 e he
        obtain ⟨w, hw⟩ := ih hvalue
        exact ⟨(e.1, w), hbare, rfl, hw⟩
      obtain ⟨entries', hentries⟩ := exists_forall₂ hentry
      exact ⟨_, .table hentries h.1⟩

/-! ## documents -/

/-- an assignment of such a value to a bare name -/
structure Assignment.IsWritable (a : Assignment) : Prop where
  parents : a.key.parents = []
  isBare : IsBare a.key.name
  value : a.value.IsWritable (nestingLimit - 1)

structure Block.IsWritable (b : Block) : Prop where
  parents : b.key.parents = []
  isBare : IsBare b.key.name
  assignments : ∀ a ∈ b.assignments, a.IsWritable

structure Document.IsWritable (d : Document) : Prop where
  preamble : ∀ a ∈ d.preamble, a.IsWritable
  blocks : ∀ b ∈ d.blocks, b.IsWritable

theorem Assignment.IsWritable.exists_readsAs {a : Assignment} (h : a.IsWritable) :
    ∃ b, AssignmentReadsAs a b := by
  obtain ⟨w, hw⟩ := h.value.exists_readsAs
  exact ⟨⟨a.key, w⟩, h.parents, rfl, h.isBare, hw⟩

theorem Block.IsWritable.exists_readsAs {b : Block} (h : b.IsWritable) : ∃ b', BlockReadsAs b b' := by
  obtain ⟨as, has⟩ := exists_forall₂ fun a ha => (h.assignments a ha).exists_readsAs
  exact ⟨⟨b.isArray, b.key, as⟩, h.parents, rfl, rfl, h.isBare, has⟩

/-- **A document of such values is read back**, with all its keys and headers. -/
theorem Document.IsWritable.exists_readsAs {d : Document} (h : d.IsWritable) : ∃ e, DocumentReadsAs d e := by
  obtain ⟨as, has⟩ := exists_forall₂ fun a ha => (h.preamble a ha).exists_readsAs
  obtain ⟨bs, hbs⟩ := exists_forall₂ fun b hb => (h.blocks b hb).exists_readsAs
  exact ⟨⟨as, bs⟩, has, hbs⟩

/-! ## whole lines -/

theorem WholeLines.append {a b : List Char} (ha : WholeLines a) (hb : WholeLines b) :
    WholeLines (a ++ b) := by
  rcases hb with rfl | hb
  · rwa [List.append_nil]
  · refine .inr ?_
    have hne : b ≠ [] := by
      rintro rfl
      cases hb
    rwa [EndsLine, List.getLast?_append_of_ne_nil _ hne]

theorem WholeLines.flatMap {α : Type} {f : α → List Char} (h : ∀ a, WholeLines (f a)) (as : List α) :
    WholeLines (as.flatMap f) := by
  induction as with
  | nil => exact .inl rfl
  | cons a as ih =>
    rw [List.flatMap_cons]
    exact (h a).append ih

theorem WholeLines.newline (text : List Char) : WholeLines (text ++ ['\n']) := .inr List.getLast?_concat

theorem WholeLines.assignment (a : Assignment) : WholeLines a.write := by
  have e : a.write = (a.key.write ++ ' ' :: '=' :: ' ' :: Toml.write a.value) ++ ['\n'] := by
    simp [Assignment.write]
  rw [e]
  exact .newline _

theorem WholeLines.block (b : Block) : WholeLines b.write := by
  rw [Block.write_eq]
  exact (WholeLines.newline _).append (.flatMap WholeLines.assignment b.assignments)

theorem WholeLines.blocks (bs : List Block) : WholeLines (writeBlocks bs) := by
  induction bs with
  | nil => exact .inl (by rw [writeBlocks])
  | cons b bs ih =>
    cases bs with
    | nil =>
      rw [writeBlocks]
      exact .block b
    | cons b' bs =>
      rw [writeBlocks]
      · exact (WholeLines.block b).append ((WholeLines.newline []).append ih)
      · exact List.cons_ne_nil _ _

/-- the text of a document is made of whole lines -/
theorem WholeLines.write (d : Document) : WholeLines d.write := by
  have hfront : WholeLines (d.preamble.flatMap Assignment.write) := .flatMap WholeLines.assignment d.preamble
  rw [Document.write]
  split_ifs
  · exact .blocks d.blocks
  · exact hfront
  · exact hfront.append ((WholeLines.newline []).append (.blocks d.blocks))

end DeskClock.Toml
