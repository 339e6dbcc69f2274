import DeskClock.Proofs.Config.Only
import DeskClock.Proofs.Config.Tables
import DeskClock.Proofs.Toml.Names

/-!
# loading a file with some of the settings

* `Layout.config`             the configuration with the settings that are named, and the defaults;
* `Layout.Fits.ofTable?_side` the configuration of the table of a file;
* `Layout.Fits.givesTwice`    a setting or a header of a section that is there twice;
* `Layout.IsPlain.rest_isSimple` headers, comments and blank lines make a document of different names;
* `Config.load_partial`       a file overrides what it names.
-/

namespace DeskClock

open Toml Toml.Fields

/-! ## the configuration of a file -/

/-- an alarm with what is named of it -/
def Part.alarm? : Part → Option AlarmSettings
  | ofAlarm alarm pieces => some (alarm.only (namesOf pieces))
  | _ => none

namespace Layout

/-- the names of the settings that a file gives in a section -/
def names (l : Layout) (s : Section) : List String := namesOf ((l.parts.findSome? (Part.pieces? s)).getD [])

/-- the settings of a configuration that a file names, with the defaults for the others, and its alarms -/
def config (c : Config) (l : Layout) : Config where
  library := c.library.only (l.names .library)
  ntp := c.ntp.only (l.names .ntp)
  weather := c.weather.only (l.names .weather)
  window := c.window.only (l.names .window)
  display := c.display.only (l.names .display)
  alarms := l.parts.filterMap Part.alarm?

end Layout

theorem lookup_closeEntries (entries : Entries) (n : String) :
    (closeEntries entries).lookup n = (entries.lookup n).map Node.close := by
  induction entries with
  | nil => rfl
  | cons e entries ih =>
    obtain ⟨name, node⟩ := e
    rw [closeEntries, lookup_cons_eq, lookup_cons_eq, ih]
    split
    · rfl
    · rfl

theorem lookup_of_mem {α : Type} {entries : List (String × α)} (hn : (entries.map Prod.fst).Nodup)
    {name : String} {a : α} (h : (name, a) ∈ entries) : entries.lookup name = some a := by
  induction entries with
  | nil => cases h
  | cons e entries ih =>
    obtain ⟨other, b⟩ := e
    rw [List.map_cons, List.nodup_cons] at hn
    rw [lookup_cons_eq]
    rcases List.mem_cons.mp h with heq | hmem
    · cases heq
      rw [if_pos rfl]
    · have hne : name ≠ other := by
        rintro rfl
        exact hn.1 (List.mem_map.mpr ⟨_, hmem, rfl⟩)
      rw [if_neg hne]
      exact ih hn.2 hmem

theorem lookup_valuesOf {keys : List String} {given : List Assignment} (hflat : Flat given)
    {pieces : List Piece} (hfit : ∀ piece ∈ pieces, piece.Fits keys given) (n : String) :
    (valuesOf pieces).lookup n = if n ∈ namesOf pieces then
      (entriesOf (given.map Assignment.plain)).lookup n else none := by
  induction pieces with
  | nil => rfl
  | cons piece pieces ih =>
    have hpieces := ih fun p hp => hfit p (List.mem_cons_of_mem _ hp)
    cases piece with
    | other passage => exact hpieces
    | setting a =>
      have hmem : a ∈ given := hfit (.setting a) List.mem_cons_self
      have hnodup : ((entriesOf (given.map Assignment.plain)).map Prod.fst).Nodup := by
        rw [entriesOf, List.map_map, List.map_map]
        exact hflat.nodup
      have hlookup : (entriesOf (given.map Assignment.plain)).lookup a.key.name = some a.value.plain := by
        refine lookup_of_mem hnodup ?_
        rw [entriesOf, List.map_map]
        exact List.mem_map_of_mem (f := fun a => (a.key.name, a.value.plain)) hmem
      have hvalues : valuesOf (.setting a :: pieces) = (a.key.name, a.value.plain) :: valuesOf pieces := rfl
      have hnames : namesOf (.setting a :: pieces) = a.key.name :: namesOf pieces := rfl
      rw [hvalues, hnames, lookup_cons_eq]
      by_cases hn : n = a.key.name
      · subst hn
        rw [if_pos rfl, if_pos List.mem_cons_self, hlookup]
      · rw [if_neg hn, hpieces]
        simp [hn]

/-- a table with settings in it holds those when it is closed -/
theorem Toml.Filled.holds {keys : List String} {given : List Assignment} (hflat : Flat given)
    {pieces : List Piece} (hfit : ∀ piece ∈ pieces, piece.Fits keys given) {without filled : Entries}
    (h : Filled keys (valuesOf pieces) without filled) :
    Holds keys (namesOf pieces) (given.map Assignment.plain) (closeEntries filled) := by
  intro n hn
  rw [← lookup_valuesOf hflat hfit, lookup_closeEntries, h.given n hn, Option.map_map]
  simp [Function.comp_def, Node.close]

theorem FitAll.exists_fits {c : Config} {hasAlarm : Bool} {parts : List Part} (h : FitAll c hasAlarm parts) :
    ∀ part ∈ parts, ∃ hasAlarm, part.Fits c hasAlarm := by
  induction parts generalizing hasAlarm with
  | nil => exact nofun
  | cons part parts ih =>
    intro p hp
    rcases List.mem_cons.mp hp with rfl | hp
    · exact ⟨hasAlarm, h.1⟩
    · exact ih h.2 p hp

theorem Layout.Fits.pieces {c : Config} {l : Layout} (hl : l.Fits c) {s : Section} {pieces : List Piece}
    (h : l.parts.findSome? (Part.pieces? s) = some pieces) :
    ∀ piece ∈ pieces, piece.Fits s.keys (c.settings s) := by
  obtain ⟨part, hmem, hpart⟩ := List.exists_of_findSome?_eq_some h
  obtain ⟨hasAlarm, hfit⟩ := hl.parts.exists_fits part hmem
  cases part with
  | ofSection t pieces' =>
    obtain ⟨rfl, heq⟩ := Option.ite_none_right_eq_some.mp hpart
    cases heq
    exact hfit
  | ofAlarm alarm pieces => cases hpart
  | other passage => cases hpart

/-- a section of a file is read with its settings, and with the defaults where it is not there -/
theorem Layout.Fits.optional_section {c : Config} {l : Layout} (hl : l.Fits c) {without filled : Entries}
    (h : Side l.parts without filled) (s : Section) {α : Type} {read : Toml → Option α}
    {only : List String → α} (hread : ∀ {names entries}, Holds s.keys names (c.plain.settings s) entries →
      read (.table entries) = some (only names)) (place : Nat) :
    (Fields.named (closeEntries filled)).optional place s.name read (only []) = some (only (l.names s)) := by
  have hslot := (h s.name).inSection s rfl
  have hlookup := lookup_closeEntries filled s.name
  have hholds : ∀ {without filled},
      Filled s.keys (((l.parts.findSome? (Part.pieces? s)).map valuesOf).getD []) without filled →
      Holds s.keys (l.names s) (c.plain.settings s) (closeEntries filled) := by
    intro without filled hfilled
    rw [names, ← c.settings_plain]
    cases hpieces : l.parts.findSome? (Part.pieces? s) with
    | none =>
      rw [hpieces] at hfilled
      have hempty : ∀ piece ∈ ([] : List Piece), piece.Fits s.keys (c.settings s) := nofun
      exact Filled.holds (c.settings_flat s) hempty hfilled
    | some pieces =>
      rw [hpieces] at hfilled
      exact Filled.holds (c.settings_flat s) (hl.pieces hpieces) hfilled
  generalize without.lookup s.name = node?, filled.lookup s.name = node?' at hslot hlookup
  cases hslot with
  | absent hnone =>
    have hnames : l.names s = [] := by
      rw [names, Option.map_eq_none_iff.mp hnone]
      rfl
    rw [hnames]
    exact optional_default (.named (closeEntries filled)) place s.name read hlookup (only [])
  | table _ hfilled =>
    rw [Option.map_some, Node.close] at hlookup
    exact optional_eq (.named (closeEntries filled)) place s.name read hlookup (hread (hholds hfilled)) _

/-- an alarm of a file is read if it has its name and its time -/
theorem Part.ofToml?_alarm {c : Config} {hasAlarm : Bool} {alarm : AlarmSettings} {pieces : List Piece}
    (hfit : (ofAlarm alarm pieces).Fits c hasAlarm) {without filled : Entries}
    (h : Filled AlarmSettings.keys (valuesOf pieces) without filled) :
    AlarmSettings.ofToml? (.table (closeEntries filled)) =
      if (ofAlarm alarm pieces).IsComplete then some (alarm.only (namesOf pieces)) else none := by
  have hholds := Filled.holds alarm.flat hfit h
  rw [alarm.assignments_plain] at hholds
  exact alarm.ofToml?_only hholds

theorem mapM_alarms {c : Config} {parts : List Part} (hfit : ∀ part ∈ parts, ∃ hasAlarm, part.Fits c hasAlarm)
    {withouts filleds : List Entries}
    (hs : ItemsFilled AlarmSettings.keys (parts.filterMap Part.alarmValues?) withouts filleds) :
    (closeTables filleds).mapM AlarmSettings.ofToml?
      = if ∀ part ∈ parts, part.IsComplete then some (parts.filterMap Part.alarm?) else none := by
  induction parts generalizing withouts filleds with
  | nil =>
    cases hs
    rw [if_pos nofun]
    rfl
  | cons part parts ih =>
    have hrest : ∀ p ∈ parts, ∃ hasAlarm, p.Fits c hasAlarm := fun p hp => hfit p (List.mem_cons_of_mem _ hp)
    simp only [List.forall_mem_cons]
    cases part with
    | ofSection s pieces =>
      have hcomplete : (Part.ofSection s pieces).IsComplete := trivial
      rw [ih hrest hs, List.filterMap_cons_none rfl]
      simp only [hcomplete, true_and]
    | other passage =>
      have hcomplete : (Part.other passage).IsComplete := trivial
      rw [ih hrest hs, List.filterMap_cons_none rfl]
      simp only [hcomplete, true_and]
    | ofAlarm alarm pieces =>
      have hcons : ItemsFilled AlarmSettings.keys (valuesOf pieces :: parts.filterMap Part.alarmValues?)
          withouts filleds := hs
      cases hcons with
      | cons h htail =>
        obtain ⟨hasAlarm, hpart⟩ := hfit _ List.mem_cons_self
        rw [closeTables, List.mapM_cons, Part.ofToml?_alarm hpart h, ih hrest htail]
        by_cases hcomplete : (Part.ofAlarm alarm pieces).IsComplete
        · rw [if_pos hcomplete]
          by_cases hall : ∀ part ∈ parts, part.IsComplete
          · rw [if_pos hall, if_pos ⟨hcomplete, hall⟩]
            rfl
          · have hnot : ¬((Part.ofAlarm alarm pieces).IsComplete ∧ ∀ part ∈ parts, part.IsComplete) :=
              fun hboth => hall hboth.2
            rw [if_neg hall, if_neg hnot]
            rfl
        · have hnot : ¬((Part.ofAlarm alarm pieces).IsComplete ∧ ∀ part ∈ parts, part.IsComplete) :=
            fun hboth => hcomplete hboth.1
          rw [if_neg hcomplete, if_neg hnot]
          rfl

/-- the alarms of a file are read if each of them has its name and its time -/
theorem Layout.Fits.optional_alarms {c : Config} {l : Layout} (hl : l.Fits c) {without filled : Entries}
    (h : Side l.parts without filled) (place : Nat) :
    (Fields.named (closeEntries filled)).optional place "alarms" (list? AlarmSettings.ofToml?) []
      = if l.Complete then some (l.parts.filterMap Part.alarm?) else none := by
  have hread : ∀ {withouts filleds},
      ItemsFilled AlarmSettings.keys (l.parts.filterMap Part.alarmValues?) withouts filleds →
        (closeTables filleds).mapM AlarmSettings.ofToml?
          = if l.Complete then some (l.parts.filterMap Part.alarm?) else none :=
    fun hs => mapM_alarms hl.parts.exists_fits hs
  have hslot := (h "alarms").alarms rfl
  have hlookup := lookup_closeEntries filled "alarms"
  generalize without.lookup "alarms" = node?, filled.lookup "alarms" = node?' at hslot hlookup
  generalize l.parts.filterMap Part.alarmValues? = givens at hslot hread
  cases hslot with
  | absent =>
    rw [← hread .nil]
    exact optional_default (.named (closeEntries filled)) place "alarms" _ hlookup []
  | empty =>
    rw [← hread .nil]
    have hempty : (Toml.array []).list? AlarmSettings.ofToml? = some [] := rfl
    rw [Option.map_some, Node.close] at hlookup
    exact optional_eq (.named (closeEntries filled)) place "alarms" _ hlookup hempty []
  | tables hs =>
    rw [Option.map_some, Node.close] at hlookup
    rw [← hread hs, Fields.optional, get?, hlookup]
    rfl

/-- **The configuration of the table of a file**: what it names, with the defaults for the rest. -/
theorem Layout.Fits.ofTable?_side {c : Config} {l : Layout} (hl : l.Fits c) {without filled : Entries}
    (h : Side l.parts without filled) :
    Config.ofTable? (closeEntries filled) = if l.Complete then some (l.config c.plain) else none := by
  have h0 := hl.optional_section h .library (fun hholds => c.plain.library.ofToml?_only hholds) 0
  have h1 := hl.optional_section h .ntp (fun hholds => c.plain.ntp.ofToml?_only hholds) 1
  have h2 := hl.optional_section h .weather (fun hholds => c.plain.weather.ofToml?_only hholds) 2
  have h3 := hl.optional_section h .window (fun hholds => c.plain.window.ofToml?_only hholds) 3
  have h4 := hl.optional_section h .display (fun hholds => c.plain.display.ofToml?_only hholds) 4
  have h5 := hl.optional_alarms h 5
  rw [LibrarySettings.only_nil] at h0
  rw [NtpSettings.only_nil] at h1
  rw [WeatherSettings.only_nil] at h2
  rw [WindowSettings.only_nil] at h3
  rw [DisplaySettings.only_nil] at h4
  simp only [Section.name] at h0 h1 h2 h3 h4
  by_cases hcomplete : l.Complete
  · rw [if_pos hcomplete] at h5 ⊢
    simp only [Config.ofTable?, Option.bind_eq_bind, Option.bind_some, Option.pure_def, Layout.config,
      h0, h1, h2, h3, h4, h5]
  · rw [if_neg hcomplete] at h5 ⊢
    simp only [Config.ofTable?, Option.bind_eq_bind, Option.bind_some, Option.bind_none,
      h0, h1, h2, h3, h4, h5]

/-! ## names given twice -/

theorem settings_sublist_assignments (pieces : List Piece) :
    List.Sublist (pieces.flatMap Piece.settings) (pieces.flatMap Piece.assignments) := by
  induction pieces with
  | nil => exact .slnil
  | cons piece pieces ih =>
    rw [List.flatMap_cons, List.flatMap_cons]
    cases piece with
    | setting a => exact (List.Sublist.refl [a.plain]).append ih
    | other passage => exact (List.nil_sublist _).append ih

theorem exists_twice {keys : List String} {given : List Assignment}
    (hgiven : ∀ a ∈ given, a.key.parents = [] ∧ a.key.name ∈ keys) {pieces : List Piece}
    (hfit : ∀ piece ∈ pieces, piece.Fits keys given) (hn : ¬(namesOf pieces).Nodup) :
    ∃ n v w, List.Sublist [⟨⟨[], n⟩, v⟩, ⟨⟨[], n⟩, w⟩] (pieces.flatMap Piece.assignments) := by
  have hparents : ∀ a ∈ pieces.flatMap Piece.settings, a.key.parents = [] := by
    intro a ha
    obtain ⟨piece, hpiece, ha⟩ := List.mem_flatMap.mp ha
    cases piece with
    | setting b =>
      obtain rfl := List.mem_singleton.mp ha
      exact (hgiven b (hfit _ hpiece)).1
    | other passage => cases ha
  rw [List.nodup_iff_sublist] at hn
  push Not at hn
  obtain ⟨n, hn⟩ := hn
  obtain ⟨twice, htwice, heq⟩ := List.sublist_map_iff.mp hn
  obtain ⟨a, as, rfl, ha, has⟩ := List.map_eq_cons_iff.mp heq.symm
  obtain ⟨b, bs, rfl, hb, hbs⟩ := List.map_eq_cons_iff.mp has
  obtain rfl := List.map_eq_nil_iff.mp hbs
  have hpa := hparents a (htwice.subset (by simp))
  have hpb := hparents b (htwice.subset (by simp))
  obtain ⟨⟨_, _⟩, v⟩ := a
  obtain ⟨⟨_, _⟩, w⟩ := b
  cases ha
  cases hb
  cases hpa
  cases hpb
  exact ⟨_, v, w, htwice.trans (settings_sublist_assignments pieces)⟩

theorem mem_blocks_of_section {parts : List Part} {s : Section} (h : s ∈ parts.filterMap Part.section?) :
    ∃ as, ⟨false, ⟨[], s.name⟩, as⟩ ∈ parts.flatMap (Part.blocks Piece.assignments) := by
  obtain ⟨part, hpart, hs⟩ := List.mem_filterMap.mp h
  cases part with
  | ofSection t pieces =>
    cases hs
    exact ⟨_, List.mem_flatMap.mpr ⟨_, hpart, List.mem_singleton.mpr rfl⟩⟩
  | ofAlarm alarm pieces => cases hs
  | other passage => cases hs

theorem exists_header_twice {parts : List Part} {s : Section}
    (h : List.Sublist [s, s] (parts.filterMap Part.section?)) :
    ∃ as bs, List.Sublist [⟨false, ⟨[], s.name⟩, as⟩, ⟨false, ⟨[], s.name⟩, bs⟩]
      (parts.flatMap (Part.blocks Piece.assignments)) := by
  induction parts with
  | nil => cases h
  | cons part parts ih =>
    have hskip : List.Sublist [s, s] (parts.filterMap Part.section?) →
        ∃ as bs, List.Sublist [⟨false, ⟨[], s.name⟩, as⟩, ⟨false, ⟨[], s.name⟩, bs⟩]
          ((part :: parts).flatMap (Part.blocks Piece.assignments)) := by
      intro h
      obtain ⟨as, bs, hblocks⟩ := ih h
      rw [List.flatMap_cons]
      exact ⟨as, bs, hblocks.trans (List.sublist_append_right _ _)⟩
    cases part with
    | ofAlarm alarm pieces => exact hskip h
    | other passage => exact hskip h
    | ofSection t pieces =>
      have hcons : List.Sublist [s, s] (t :: parts.filterMap Part.section?) := h
      cases hcons with
      | cons _ h => exact hskip h
      | cons_cons _ h =>
        obtain ⟨bs, hbs⟩ := mem_blocks_of_section (List.singleton_sublist.mp h)
        exact ⟨_, bs, (List.singleton_sublist.mpr hbs).cons_cons _⟩

theorem Layout.Fits.givesTwice {c : Config} {l : Layout} (hl : l.Fits c)
    (h : ¬l.Distinct ∨ ¬l.sections.Nodup) : l.document.GivesTwice := by
  rcases h with hdistinct | hsections
  · rw [Layout.Distinct] at hdistinct
    push Not at hdistinct
    obtain ⟨part, hpart, hnames⟩ := hdistinct
    obtain ⟨hasAlarm, hfit⟩ := hl.parts.exists_fits part hpart
    have hmem : ∀ b ∈ part.blocks Piece.assignments, b ∈ l.document.blocks :=
      fun b hb => List.mem_flatMap.mpr ⟨part, hpart, hb⟩
    cases part with
    | ofSection s pieces =>
      obtain ⟨n, v, w, htwice⟩ := exists_twice (c.settings_named s) hfit hnames
      exact .block (hmem _ (List.mem_singleton.mpr rfl)) htwice
    | ofAlarm alarm pieces =>
      obtain ⟨n, v, w, htwice⟩ := exists_twice alarm.settings_named hfit hnames
      exact .block (hmem _ (List.mem_singleton.mpr rfl)) htwice
    | other passage => exact absurd List.nodup_nil hnames
  · rw [List.nodup_iff_sublist] at hsections
    push Not at hsections
    obtain ⟨s, hs⟩ := hsections
    obtain ⟨as, bs, htwice⟩ := exists_header_twice hs
    exact .header htwice

/-! ## a file without other text -/

theorem Part.IsPlain.blocks_eq {part : Part} (h : part.IsPlain) : ∀ b ∈ part.blocks Piece.rest,
    (∃ s, part.section? = some s ∧ b = ⟨false, ⟨[], s.name⟩, []⟩) ∨ b = ⟨true, ⟨[], "alarms"⟩, []⟩ := by
  intro b hb
  cases part with
  | ofSection s pieces =>
    have has : pieces.flatMap Piece.rest = [] := List.flatMap_eq_nil_iff.mpr h
    obtain rfl := List.mem_singleton.mp hb
    rw [has]
    exact .inl ⟨s, rfl, rfl⟩
  | ofAlarm alarm pieces =>
    have has : pieces.flatMap Piece.rest = [] := List.flatMap_eq_nil_iff.mpr h
    obtain rfl := List.mem_singleton.mp hb
    rw [has]
    exact .inr rfl
  | other passage =>
    have hblocks : passage.document.blocks = [] := h
    rw [Part.blocks, hblocks] at hb
    cases hb

theorem Part.IsPlain.pairwise_blocks {R : Block → Block → Prop} {part : Part} (h : part.IsPlain) :
    (part.blocks Piece.rest).Pairwise R := by
  cases part with
  | ofSection s pieces => exact List.pairwise_singleton _ _
  | ofAlarm alarm pieces => exact List.pairwise_singleton _ _
  | other passage =>
    have hblocks : (Part.other passage).blocks Piece.rest = [] := h
    rw [hblocks]
    exact .nil

theorem Layout.IsPlain.rest_isSimple {l : Layout} (h : l.IsPlain) (hn : l.sections.Nodup) :
    l.rest.IsSimple := by
  have hpreamble : l.rest.preamble = [] := h.1
  refine { preamble := ?_, blocks := ?_, headers := ?_ }
  · rw [hpreamble]
    exact ⟨nofun, List.nodup_nil⟩
  · intro b hb
    obtain ⟨part, hpart, hb⟩ := List.mem_flatMap.mp hb
    rw [hpreamble]
    rcases (h.2 part hpart).blocks_eq b hb with ⟨s, -, rfl⟩ | rfl
    · exact ⟨rfl, ⟨nofun, List.nodup_nil⟩, nofun⟩
    · exact ⟨rfl, ⟨nofun, List.nodup_nil⟩, nofun⟩
  · refine List.pairwise_flatMap.mpr ⟨fun part hpart => (h.2 part hpart).pairwise_blocks, ?_⟩
    refine List.Pairwise.imp_of_mem ?_ (List.pairwise_filterMap.mp hn)
    intro part part' hpart hpart' hne b hb b' hb' hname
    rcases (h.2 part hpart).blocks_eq b hb with ⟨s, hs, rfl⟩ | rfl
    · rcases (h.2 part' hpart').blocks_eq b' hb' with ⟨t, ht, rfl⟩ | rfl
      · exact absurd (Section.name_injective hname) (hne s hs t ht)
      · exact absurd hname s.name_ne_alarms
    · rcases (h.2 part' hpart').blocks_eq b' hb' with ⟨t, -, rfl⟩ | rfl
      · exact absurd hname.symm t.name_ne_alarms
      · exact ⟨rfl, rfl⟩

/-! ## the file -/

theorem Layout.Fits.ofText?_eq {c : Config} (hc : c.isWritable = true) {l : Layout} (hl : l.Fits c)
    (hn : l.Distinct) : Config.ofText? l.text
      = if l.rest.root?.isSome = true ∧ l.Complete then some (l.config c.plain) else none := by
  have hside := Layout.side hl hn
  rw [Config.ofText?, Toml.read?, Layout.read?_text hc hl, Option.bind_some, Document.root?_eq,
    Document.root?_eq, Option.isSome_map]
  generalize l.rest.openRoot = without?, l.document.openRoot = filled? at hside ⊢
  cases hside with
  | none => simp
  | some h =>
    rw [Option.map_some, Option.bind_some, hl.ofTable?_side h]
    simp

namespace Config

theorem load_of_ofText? (disk : Disk) (path : String) (age : Duration) {text : List Char} {c : Config}
    (h : ofText? text = some c) :
    tryLoad (disk.put path (some ⟨Utf8.encode text, age⟩)) path = .ok c ∧
    load (disk.put path (some ⟨Utf8.encode text, age⟩)) path = c := by
  have htry : tryLoad (disk.put path (some ⟨Utf8.encode text, age⟩)) path = .ok c := by
    rw [tryLoad, Disk.file?_put, Option.bind_some, Utf8.decode?_encode]
    dsimp only
    rw [h]
  exact ⟨htry, by rw [load, htry]⟩

theorem load_of_ofText?_none (disk : Disk) (path : String) (age : Duration) {text : List Char}
    (h : ofText? text = none) :
    tryLoad (disk.put path (some ⟨Utf8.encode text, age⟩)) path = .error .parse ∧
    load (disk.put path (some ⟨Utf8.encode text, age⟩)) path = {} := by
  have htry : tryLoad (disk.put path (some ⟨Utf8.encode text, age⟩)) path = .error .parse := by
    rw [tryLoad, Disk.file?_put, Option.bind_some, Utf8.decode?_encode]
    dsimp only
    rw [h]
  exact ⟨htry, by rw [load, htry]⟩

theorem ofText?_givesTwice {text : List Char} {d : Document} (hd : Document.read? text = some d)
    (h : d.GivesTwice) : ofText? text = none := by
  rw [ofText?, Toml.read?, hd, Option.bind_some, Document.root?_givesTwice h]
  rfl

/-- **A file overrides what it names.** Whatever settings of a configuration a file has, in whatever order
and between whatever other text, it loads to them and to the defaults for the others, if no setting is
given twice, each alarm has its name and its time, and the other text defines a table under the same
headers. It does so if its keys have one name each and none of them is there twice; without other text
it does so if no section is there twice. Any values that can be written may stand in other text. A
setting or a header given twice and an alarm without its name or its time are refused, and the defaults
are loaded. -/
theorem load_partial (c : Config) (hc : ∀ n ∈ c.unsignedSettings, n.toNat ≤ 9223372036854775807)
    (disk : Disk) (path : String) (age : Duration) :
    (∀ l : Layout, l.Fits c →
      let saved := disk.put path (some ⟨Utf8.encode l.text, age⟩)
      (l.Distinct → l.Complete → l.rest.root?.isSome = true →
        tryLoad saved path = .ok (l.config c.plain) ∧ load saved path = l.config c.plain) ∧
      (¬l.Distinct ∨ ¬l.sections.Nodup ∨ ¬l.Complete →
        tryLoad saved path = .error .parse ∧ load saved path = {})) ∧
    (∀ l : Layout, (l.rest.IsSimple → l.rest.root?.isSome = true) ∧
      (l.IsPlain → l.sections.Nodup → l.rest.IsSimple)) ∧
    (∀ d : Document, d.IsWritable → ∃ passage : Passage,
      passage.text = d.write ∧ DocumentReadsAs d passage.document) ∧
    ∀ (text : List Char) (d : Document), Document.read? text = some d → d.GivesTwice →
      let saved := disk.put path (some ⟨Utf8.encode text, age⟩)
      tryLoad saved path = .error .parse ∧ load saved path = {} := by
  have hw : c.isWritable = true := by
    refine c.isWritable_iff.mpr ?_
    intro n hn
    have hle := hc n hn
    omega
  refine ⟨?_, fun l => ⟨fun h => h.root?_isSome, Layout.IsPlain.rest_isSimple⟩,
    fun d hd => Passage.exists_of_isWritable hd, ?_⟩
  · intro l hl saved
    refine ⟨?_, ?_⟩
    · intro hdistinct hcomplete hrest
      have htext := hl.ofText?_eq hw hdistinct
      rw [if_pos ⟨hrest, hcomplete⟩] at htext
      exact load_of_ofText? disk path age htext
    · intro hwrong
      refine load_of_ofText?_none disk path age ?_
      by_cases htwice : ¬l.Distinct ∨ ¬l.sections.Nodup
      · exact ofText?_givesTwice (Layout.read?_text hw hl) (hl.givesTwice htwice)
      · push Not at htwice
        rw [hl.ofText?_eq hw htwice.1, if_neg]
        rintro ⟨-, hcomplete⟩
        rcases hwrong with h | h | h
        · exact h htwice.1
        · exact h htwice.2
        · exact h hcomplete
  · intro text d hd htwice saved
    exact load_of_ofText?_none disk path age (ofText?_givesTwice hd htwice)

/-- a file with notes, one with an alarm that has no name, and one with a setting given twice -/
theorem load_partial_noted :
    let c : Config := { display := { use24Hour := true, tickMillis := 250 } }
    let noted := "# kept\nnote = [0x10, \x7b a = 1979-05-27 \x7d]\n"
      ++ "[display]\ntick_millis = 250\n\nspeed.\x22max\x22 = 1e3\n[[unknown]]\nalarms = 1\n"
      ++ "[[alarms]]\ntime = \x2207:05\x22\nname = \x22Up\x22\n[alarms.repeat]\ntimes = 3\n"
    let nameless := "[[alarms]]\ntime = \x2207:05\x22\n# nameless\n"
    let twice := "[display]\ntick_millis = 250\ntick_millis = 250\n"
    let saved (text : String) := Disk.empty.put "clock-config.toml" (some ⟨Utf8.encode text.toList, ⟨5⟩⟩)
    (∀ n ∈ c.unsignedSettings, n.toNat ≤ 9223372036854775807) ∧
    tryLoad (saved noted) "clock-config.toml"
      = .ok { display := { tickMillis := 250 }, alarms := [⟨"Up", ⟨7, 5⟩, [], none⟩] } ∧
    (tryLoad (saved nameless) "clock-config.toml" = .error .parse ∧
      load (saved nameless) "clock-config.toml" = {}) ∧
    tryLoad (saved twice) "clock-config.toml" = .error .parse ∧
      load (saved twice) "clock-config.toml" = {} := by
  intro c noted nameless twice saved
  let alarm : AlarmSettings := ⟨"Up", ⟨7, 5⟩, [], none⟩
  let tick : Piece := .setting (field "tick_millis" (ofUInt64 250))
  let label : Piece := .setting (field "name" (.string "Up"))
  let time : Piece := .setting (field "time" (.string alarm.time.text))
  let blank : Passage := ⟨"".toList, by decide, by decide, by decide⟩
  let note : Passage :=
    ⟨"# kept\nnote = [0x10, \x7b a = 1979-05-27 \x7d]\n".toList, by decide +kernel, by decide,
      by decide +kernel⟩
  let speed : Passage := ⟨"\nspeed.\x22max\x22 = 1e3\n".toList, by decide, by decide, by decide +kernel⟩
  let unknown : Passage := ⟨"[[unknown]]\nalarms = 1\n".toList, by decide, by decide, by decide +kernel⟩
  let again : Passage := ⟨"[alarms.repeat]\ntimes = 3\n".toList, by decide, by decide, by decide +kernel⟩
  let remark : Passage := ⟨"# nameless\n".toList, by decide, by decide, by decide +kernel⟩
  have htick : tick.Fits Section.display.keys (c.settings .display) := .tail _ (.tail _ (.head _))
  have hlabel : label.Fits AlarmSettings.keys alarm.assignments := .head _
  have htime : time.Fits AlarmSettings.keys alarm.assignments := .tail _ (.head _)
  have hspeed : (Piece.other speed).Fits Section.display.keys (c.settings .display) :=
    ⟨List.isEmpty_iff.mp (by decide +kernel), by decide +kernel⟩
  have hremark : (Piece.other remark).Fits AlarmSettings.keys alarm.assignments :=
    ⟨List.isEmpty_iff.mp (by decide +kernel), by decide +kernel⟩
  have hunknown : (Part.other unknown).Fits c false :=
    ⟨List.isEmpty_iff.mp (by decide +kernel), by decide +kernel⟩
  have hagain : (Part.other again).Fits c true :=
    ⟨List.isEmpty_iff.mp (by decide +kernel), by decide +kernel⟩
  have hnote : ∀ a ∈ note.document.preamble, IsOther false a.key := by decide +kernel
  have hblank : ∀ a ∈ blank.document.preamble, IsOther false a.key := by decide +kernel
  let l : Layout := ⟨note, [.ofSection .display [tick, .other speed], .other unknown,
    .ofAlarm alarm [time, label], .other again]⟩
  let l' : Layout := ⟨blank, [.ofAlarm alarm [time, .other remark]]⟩
  let l'' : Layout := ⟨blank, [.ofSection .display [tick, tick]]⟩
  have hdisplay : (Part.ofSection .display [tick, .other speed]).Fits c false :=
    List.forall_mem_cons.mpr ⟨htick, List.forall_mem_singleton.mpr hspeed⟩
  have hup : (Part.ofAlarm alarm [time, label]).Fits c false :=
    List.forall_mem_cons.mpr ⟨htime, List.forall_mem_singleton.mpr hlabel⟩
  have hl : l.Fits c := {
    blocks := List.isEmpty_iff.mp (by decide +kernel)
    front := fun a ha => .inl (hnote a ha)
    parts := ⟨hdisplay, hunknown, hup, hagain, trivial⟩ }
  have hl' : l'.Fits c := {
    blocks := List.isEmpty_iff.mp (by decide +kernel)
    front := fun a ha => .inl (hblank a ha)
    parts := ⟨List.forall_mem_cons.mpr ⟨htime, List.forall_mem_singleton.mpr hremark⟩, trivial⟩ }
  have hl'' : l''.Fits c := {
    blocks := List.isEmpty_iff.mp (by decide +kernel)
    front := fun a ha => .inl (hblank a ha)
    parts := ⟨List.forall_mem_cons.mpr ⟨htick, List.forall_mem_singleton.mpr htick⟩, trivial⟩ }
  have hc : ∀ n ∈ c.unsignedSettings, n.toNat ≤ 9223372036854775807 :=
    List.forall_iff_forall_mem.mp (by decide +kernel)
  obtain ⟨hfile, -, -, htwice⟩ := load_partial c hc Disk.empty "clock-config.toml" ⟨5⟩
  refine ⟨hc, ?_, ?_, ?_⟩
  · have hrest : l.rest.root?.isSome = true := by decide +kernel
    have h := ((hfile l hl).1 (by decide +kernel) (by decide +kernel) hrest).1
    have htext : l.text = noted.toList := by decide +kernel
    have hconfig : l.config c.plain
        = { display := { tickMillis := 250 }, alarms := [⟨"Up", ⟨7, 5⟩, [], none⟩] } := by decide +kernel
    rw [htext, hconfig] at h
    exact h
  · have hnot : ¬l'.Complete := by decide +kernel
    have h := (hfile l' hl').2 (.inr (.inr hnot))
    have htext : l'.text = nameless.toList := by decide +kernel
    rw [htext] at h
    exact h
  · have hnot : ¬l''.Distinct := by decide +kernel
    have hw : c.isWritable = true := by decide +kernel
    have h := htwice l''.text l''.document (Layout.read?_text hw hl'') (hl''.givesTwice (.inl hnot))
    have htext : l''.text = twice.toList := by decide +kernel
    rw [htext] at h
    exact h

/-- a key that is not known is refused all the same where its value is nested a hundred deep -/
theorem tryLoad_nested :
    let nested (depth : Nat) : List Char :=
      "x = ".toList ++ List.replicate depth '[' ++ List.replicate depth ']' ++ ['\n']
    let saved (depth : Nat) := Disk.empty.put "clock-config.toml" (some ⟨Utf8.encode (nested depth), ⟨5⟩⟩)
    tryLoad (saved 79) "clock-config.toml" = .ok {} ∧
    tryLoad (saved 100) "clock-config.toml" = .error .parse := by
  decide +kernel

end Config

end DeskClock
