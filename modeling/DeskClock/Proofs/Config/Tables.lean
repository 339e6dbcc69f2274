import DeskClock.Proofs.Config.Layout

/-!
# the table of a file with some of the settings

The table of a file is built along with the one of the same file without its settings: the headers and the
other text alone.

* `valuesOf`             the values of the settings among the pieces of a table;
* `assignAll_pieces`     the pieces of a table put its settings in;
* `Slot`, `Side`         the two tables have the same entries but for the settings of the parts read so far;
* `Side.part`            a step: one part is read with its settings where it is read without them;
* `Side.parts`           a run: so are all of them;
* `Layout.side`          a file defines a table where it does so without its settings.
-/

namespace DeskClock

open Toml

/-- the values of the settings in a table -/
def valuesOf (pieces : List Piece) : List (String × Toml) := entriesOf (pieces.flatMap Piece.settings)

namespace Part

/-- the pieces of a section -/
def pieces? (s : Section) : Part → Option (List Piece)
  | ofSection s' pieces => if s' = s then some pieces else none
  | _ => none

/-- the values of the settings of an alarm -/
def alarmValues? : Part → Option (List (String × Toml))
  | ofAlarm _ pieces => some (valuesOf pieces)
  | _ => none

end Part

/-! ## the settings of a table -/

theorem assignAll_pieces {keys : List String} {given : List Assignment}
    (hgiven : ∀ a ∈ given, a.key.parents = [] ∧ a.key.name ∈ keys) {pieces : List Piece}
    (hfit : ∀ piece ∈ pieces, piece.Fits keys given) {values : List (String × Toml)}
    {without filled : Entries} (h : Filled keys values without filled)
    (hn : (values.map Prod.fst ++ namesOf pieces).Nodup) :
    Option.Rel (Filled keys (values ++ valuesOf pieces)) (without.assignAll (pieces.flatMap Piece.rest))
      (filled.assignAll (pieces.flatMap Piece.assignments)) := by
  induction pieces generalizing values without filled with
  | nil =>
    rw [valuesOf, List.flatMap_nil, entriesOf, List.map_nil, List.append_nil]
    exact .some h
  | cons piece pieces ih =>
    have hpiece := hfit piece List.mem_cons_self
    have hpieces : ∀ p ∈ pieces, p.Fits keys given := fun p hp => hfit p (List.mem_cons_of_mem _ hp)
    cases piece with
    | setting a =>
      obtain ⟨⟨parents, name⟩, v⟩ := a
      obtain ⟨hparents, hkey⟩ := hgiven _ hpiece
      cases hparents
      have hnames : namesOf (.setting (field name v) :: pieces) = name :: namesOf pieces := rfl
      have hvalues : valuesOf (.setting (field name v) :: pieces) = (name, v.plain) :: valuesOf pieces := rfl
      have hn : (values.map Prod.fst ++ name :: namesOf pieces).Nodup := hn
      have hfresh : name ∉ values.map Prod.fst := fun hmem =>
        List.disjoint_of_nodup_append hn hmem List.mem_cons_self
      obtain ⟨filled', hadd, hfilled⟩ := h.add hkey hfresh v.plain
      have hn' : ((values ++ [(name, v.plain)]).map Prod.fst ++ namesOf pieces).Nodup := by
        rw [List.map_append, List.append_assoc]
        exact hn
      have hrest := ih hpieces hfilled hn'
      rw [List.append_assoc] at hrest
      show Option.Rel (Filled keys (values ++ (name, v.plain) :: valuesOf pieces))
        (without.assignAll (pieces.flatMap Piece.rest)) ((filled.add name v.plain).bind _)
      rw [hadd]
      exact hrest
    | other passage =>
      have hnames : namesOf (Piece.other passage :: pieces) = namesOf pieces := rfl
      have hvalues : valuesOf (Piece.other passage :: pieces) = valuesOf pieces := rfl
      rw [hnames] at hn
      rw [List.flatMap_cons, List.flatMap_cons, hvalues, Entries.assignAll, Entries.assignAll,
        List.foldlM_append, List.foldlM_append]
      refine rel_bind (h.assignAll hpiece.2) ?_
      intro without' filled' h'
      exact ih hpieces h' hn

/-! ## the table of a file -/

theorem Section.name_injective {s t : Section} (h : s.name = t.name) : s = t := by
  cases s <;> cases t <;> first | rfl | exact absurd h (by decide)

theorem Section.name_ne_alarms (s : Section) : s.name ≠ "alarms" := by
  cases s <;> decide

/-- how an entry of the table of a file is related to the one without the settings -/
structure Slot (done : List Part) (n : String) (node? node?' : Option Node) : Prop where
  other : n ≠ "alarms" → (∀ s : Section, n ≠ s.name) → node?' = node?
  inSection : ∀ s : Section, n = s.name →
    SectionFilled s.keys ((done.findSome? (Part.pieces? s)).map valuesOf) node? node?'
  alarms : n = "alarms" → ArrayFilled AlarmSettings.keys (done.filterMap Part.alarmValues?) node? node?'

namespace Slot

variable {done : List Part} {node? node?' : Option Node}

theorem of_section {s : Section}
    (h : SectionFilled s.keys ((done.findSome? (Part.pieces? s)).map valuesOf) node? node?') :
    Slot done s.name node? node?' where
  other _ hs := absurd rfl (hs s)
  inSection t ht := by
    obtain rfl := Section.name_injective ht
    exact h
  alarms hn := absurd hn s.name_ne_alarms

theorem of_alarms (h : ArrayFilled AlarmSettings.keys (done.filterMap Part.alarmValues?) node? node?') :
    Slot done "alarms" node? node?' where
  other hn _ := absurd rfl hn
  inSection s hs := absurd hs.symm s.name_ne_alarms
  alarms _ := h

theorem of_other {n : String} (hn : n ≠ "alarms") (hs : ∀ s : Section, n ≠ s.name) (node? : Option Node) :
    Slot done n node? node? where
  other _ _ := rfl
  inSection s he := absurd he (hs s)
  alarms he := absurd he hn

end Slot

/-- a part changes what is known of a table only if it is a part of it -/
theorem Slot.append {done : List Part} {part : Part} {n : String} {node? node?' : Option Node}
    (h : Slot done n node? node?') (hs : ∀ s : Section, n = s.name → part.pieces? s = none)
    (ha : n = "alarms" → part.alarmValues? = none) : Slot (done ++ [part]) n node? node?' where
  other := h.other
  inSection s hn := by
    have hsection := h.inSection s hn
    rw [List.findSome?_append]
    simpa [hs s hn] using hsection
  alarms hn := by
    have halarms := h.alarms hn
    rw [List.filterMap_append]
    simpa [ha hn] using halarms

/-- the table of the parts that have been read, and the one without the settings -/
def Side (done : List Part) (without filled : Entries) : Prop :=
  ∀ n, Slot done n (without.lookup n) (filled.lookup n)

namespace Side

theorem nil : Side [] [] [] := fun _ => ⟨fun _ _ => rfl, fun _ _ => .absent rfl, fun _ => .absent⟩

variable {done : List Part} {without filled : Entries}

theorem alter (h : Side done without filled) {done' : List Part} {name : String}
    {f g : Option Node → Option Node}
    (hname : Option.Rel (fun node node' => Slot done' name (some node) (some node'))
      (f (without.lookup name)) (g (filled.lookup name)))
    (hother : ∀ n, n ≠ name → ∀ node? node?', Slot done n node? node?' → Slot done' n node? node?') :
    Option.Rel (Side done') (without.alter name f) (filled.alter name g) := by
  rw [Entries.alter_eq, Entries.alter_eq]
  refine rel_map hname ?_
  intro node node' hnode n
  rw [Entries.lookup_put, Entries.lookup_put]
  by_cases hn : n = name
  · subst hn
    rw [if_pos rfl, if_pos rfl]
    exact hnode
  · rw [if_neg hn, if_neg hn]
    exact hother n hn _ _ (h n)

/-- a change that keeps an entry related wherever it is one of a known table -/
theorem alter_same (h : Side done without filled) {name : String} {f : Option Node → Option Node}
    (hsection : ∀ s : Section, name = s.name → ∀ {given? node? node?'},
      SectionFilled s.keys given? node? node?' →
        Option.Rel (fun node node' => SectionFilled s.keys given? (some node) (some node'))
          (f node?) (f node?'))
    (halarms : name = "alarms" → ∀ {node? node?'},
      ArrayFilled AlarmSettings.keys (done.filterMap Part.alarmValues?) node? node?' →
        Option.Rel (fun node node' => ArrayFilled AlarmSettings.keys (done.filterMap Part.alarmValues?)
          (some node) (some node')) (f node?) (f node?')) :
    Option.Rel (Side done) (without.alter name f) (filled.alter name f) := by
  refine h.alter ?_ fun _ _ _ _ hslot => hslot
  by_cases hn : name = "alarms"
  · subst hn
    exact rel_mono (halarms rfl ((h _).alarms rfl)) fun _ _ hslot => .of_alarms hslot
  by_cases hs : ∃ s : Section, name = s.name
  · obtain ⟨s, rfl⟩ := hs
    exact rel_mono (hsection s rfl ((h _).inSection s rfl)) fun _ _ hslot => .of_section hslot
  · have hnot : ∀ s : Section, name ≠ s.name := fun s he => hs ⟨s, he⟩
    rw [(h name).other hn hnot]
    cases f (without.lookup name) with
    | none => exact .none
    | some node => exact .some (.of_other hn hnot _)

/-- a key in front that is none of the known ones -/
theorem assign (h : Side done without filled) {a : Assignment} (ha : IsOther false a.key) :
    Option.Rel (Side done) (without.assign a) (filled.assign a) := by
  obtain ⟨⟨parents, name⟩, value⟩ := a
  cases parents with
  | nil =>
    obtain ⟨f, hf⟩ := Entries.assign_eq_alter ⟨⟨[], name⟩, value⟩
    rw [hf, hf]
    exact h.alter_same (fun s hs => absurd hs (ha.2 s)) (fun hn => absurd hn ha.1)
  | cons parent parents =>
    rw [Entries.assign_inside, Entries.assign_inside]
    refine h.alter_same ?_ ?_
    · intro s hs given? node? node?' hnode
      exact hnode.assignInside (ha.2 s hs) value
    · intro hn
      cases (ha.1 hn).1

theorem addBlock (h : Side done without filled) {hasAlarm : Bool}
    (hdone : hasAlarm = true → done.filterMap Part.alarmValues? ≠ []) {b : Block}
    (hb : IsOther hasAlarm b.key) :
    Option.Rel (Side done) (without.addBlock b) (filled.addBlock b) := by
  obtain ⟨isArray, ⟨parents, name⟩, as⟩ := b
  cases parents with
  | nil =>
    obtain ⟨f, hf⟩ := Entries.addBlock_eq_alter ⟨isArray, ⟨[], name⟩, as⟩
    rw [hf, hf]
    exact h.alter_same (fun s hs => absurd hs (hb.2 s)) (fun hn => absurd hn hb.1)
  | cons parent parents =>
    rw [Entries.addBlock_inside, Entries.addBlock_inside]
    refine h.alter_same ?_ ?_
    · intro s hs given? node? node?' hnode
      exact hnode.blockInside (hb.2 s hs)
    · intro hn node? node?' hnode
      exact hnode.blockInside (hdone (hb.1 hn).1) (hb.1 hn).2

/-- other text between the parts -/
theorem addBlocks (h : Side done without filled) {hasAlarm : Bool}
    (hdone : hasAlarm = true → done.filterMap Part.alarmValues? ≠ []) {blocks : List Block}
    (hb : ∀ b ∈ blocks, IsOther hasAlarm b.key) :
    Option.Rel (Side done) (blocks.foldlM Entries.addBlock without)
      (blocks.foldlM Entries.addBlock filled) := by
  induction blocks generalizing without filled with
  | nil => exact .some h
  | cons b blocks ih =>
    refine rel_bind (h.addBlock hdone (hb b List.mem_cons_self)) ?_
    intro without' filled' h'
    exact ih h' fun b hmem => hb b (List.mem_cons_of_mem _ hmem)

/-- the header of a section is read once -/
theorem openTable (h : Side done without filled) {s : Section} {pieces : List Piece}
    {rest all : List Assignment}
    (hassign : ∀ without filled, Filled s.keys [] without filled →
      Option.Rel (Filled s.keys (valuesOf pieces)) (without.assignAll rest) (filled.assignAll all)) :
    Option.Rel (Side (done ++ [.ofSection s pieces])) (without.alter s.name (Entries.openTable rest))
      (filled.alter s.name (Entries.openTable all)) := by
  have hslot := (h s.name).inSection s rfl
  refine h.alter ?_ ?_
  · generalize without.lookup s.name = node?, filled.lookup s.name = node?' at hslot ⊢
    cases hgiven : done.findSome? (Part.pieces? s) with
    | some earlier =>
      rw [hgiven] at hslot
      cases hslot with
      | absent hnone => cases hnone
      | table hm _ =>
        obtain rfl := hm.mp rfl
        exact .none
    | none =>
      rw [hgiven] at hslot
      refine rel_mono (hslot.openTable hassign) ?_
      intro node node' hnode
      refine .of_section ?_
      rw [List.findSome?_append, hgiven]
      simpa [Part.pieces?] using hnode
  · intro n hn node? node?' hn'
    refine hn'.append ?_ fun _ => rfl
    rintro t rfl
    exact if_neg fun he => hn (congrArg Section.name he.symm)

theorem appendTable (h : Side done without filled) {alarm : AlarmSettings} {pieces : List Piece}
    {rest all : List Assignment}
    (hassign : Option.Rel (Filled AlarmSettings.keys (valuesOf pieces)) (Entries.assignAll [] rest)
      (Entries.assignAll [] all)) :
    Option.Rel (Side (done ++ [.ofAlarm alarm pieces])) (without.alter "alarms" (Entries.appendTable rest))
      (filled.alter "alarms" (Entries.appendTable all)) := by
  refine h.alter ?_ ?_
  · refine rel_mono (((h "alarms").alarms rfl).appendTable hassign) ?_
    intro node node' hnode
    refine .of_alarms ?_
    rw [List.filterMap_append]
    exact hnode
  · intro n hn node? node?' hslot
    exact hslot.append (fun _ _ => rfl) fun he => absurd he hn

/-- **One part** is read with its settings where it is read without them, and adds them to the tables. -/
theorem part {c : Config} (h : Side done without filled) {hasAlarm : Bool}
    (hdone : hasAlarm = true → done.filterMap Part.alarmValues? ≠ []) {part : Part}
    (hfit : part.Fits c hasAlarm) (hn : part.names.Nodup) :
    Option.Rel (Side (done ++ [part])) ((part.blocks Piece.rest).foldlM Entries.addBlock without)
      ((part.blocks Piece.assignments).foldlM Entries.addBlock filled) := by
  have hsingle : ∀ (b : Block) (entries : Entries),
      [b].foldlM Entries.addBlock entries = entries.addBlock b := by
    intro b entries
    simp
  cases part with
  | ofSection s pieces =>
    rw [Part.blocks, Part.blocks, hsingle, hsingle]
    refine h.openTable ?_
    intro without filled hfilled
    exact assignAll_pieces (c.settings_named s) hfit hfilled hn
  | ofAlarm alarm pieces =>
    rw [Part.blocks, Part.blocks, hsingle, hsingle]
    exact h.appendTable (assignAll_pieces alarm.settings_named hfit (Filled.nil _) hn)
  | other passage =>
    refine rel_mono (h.addBlocks hdone hfit.2) ?_
    intro without filled h n
    exact (h n).append (fun _ _ => rfl) fun _ => rfl

/-- **All parts**, one after the other. -/
theorem parts {c : Config} (h : Side done without filled) {hasAlarm : Bool}
    (hdone : hasAlarm = true → done.filterMap Part.alarmValues? ≠ []) {parts : List Part}
    (hfit : FitAll c hasAlarm parts) (hn : ∀ part ∈ parts, part.names.Nodup) :
    Option.Rel (Side (done ++ parts))
      ((parts.flatMap (Part.blocks Piece.rest)).foldlM Entries.addBlock without)
      ((parts.flatMap (Part.blocks Piece.assignments)).foldlM Entries.addBlock filled) := by
  induction parts generalizing done hasAlarm without filled with
  | nil =>
    rw [List.append_nil]
    exact .some h
  | cons part parts ih =>
    have hdone' : (hasAlarm || part.isAlarm) = true →
        (done ++ [part]).filterMap Part.alarmValues? ≠ [] := by
      intro hor hnil
      rw [List.filterMap_append, List.append_eq_nil_iff] at hnil
      rcases Bool.or_eq_true_iff.mp hor with hbefore | hpart
      · exact hdone hbefore hnil.1
      · cases part with
        | ofAlarm alarm pieces => cases hnil.2
        | ofSection s pieces => cases hpart
        | other passage => cases hpart
    have hpart := h.part hdone hfit.1 (hn part List.mem_cons_self)
    rw [List.flatMap_cons, List.flatMap_cons, List.foldlM_append, List.foldlM_append]
    refine rel_bind hpart ?_
    intro without' filled' h'
    have hrest := ih h' hdone' hfit.2 fun p hp => hn p (List.mem_cons_of_mem _ hp)
    rw [List.append_assoc] at hrest
    exact hrest

/-- in front of the tables -/
theorem front (h : Side [] without filled) {as : List Assignment}
    (has : ∀ a ∈ as, IsOther false a.key ∨ a = ⟨⟨[], "alarms"⟩, .array []⟩) :
    Option.Rel (Side []) (without.assignAll as) (filled.assignAll as) := by
  induction as generalizing without filled with
  | nil => exact .some h
  | cons a as ih =>
    have hassign : Option.Rel (Side []) (without.assign a) (filled.assign a) := by
      rcases has a List.mem_cons_self with hother | rfl
      · exact h.assign hother
      · refine h.alter_same (fun s hs => absurd hs.symm s.name_ne_alarms) ?_
        intro _ node? node?' hnode
        cases hnode with
        | absent => exact .some .empty
        | empty => exact .none
        | tables hs => exact .none
    refine rel_bind hassign ?_
    intro without' filled' h'
    exact ih h' fun b hb => has b (List.mem_cons_of_mem _ hb)

end Side

/-- the table of a document before it is closed -/
def Toml.Document.openRoot (d : Document) : Option Entries :=
  (Entries.assignAll [] d.preamble).bind fun entries => d.blocks.foldlM Entries.addBlock entries

theorem Toml.Document.root?_eq (d : Document) : d.root? = d.openRoot.map closeEntries := by
  rw [root?, openRoot]
  cases Entries.assignAll [] d.preamble with
  | none => rfl
  | some entries =>
    cases h : d.blocks.foldlM Entries.addBlock entries with
    | none => simp [h]
    | some entries => simp [h]

/-- **A file defines a table where it does so without its settings.** -/
theorem Layout.side {c : Config} {l : Layout} (hl : l.Fits c) (hn : l.Distinct) :
    Option.Rel (Side l.parts) l.rest.openRoot l.document.openRoot := by
  refine rel_bind (Side.nil.front hl.front) ?_
  intro without filled h
  have hdone : false = true → ([] : List Part).filterMap Part.alarmValues? ≠ [] := nofun
  exact h.parts hdone hl.parts hn

end DeskClock
