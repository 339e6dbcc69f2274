import DeskClock.Proofs.Config.File
import DeskClock.Proofs.Toml.Filled
import DeskClock.Proofs.Toml.Values

/-!
# files with some of the settings

A file names some settings, each as it is saved, in any order, and may hold other text between them.

* `Passage`           other text: whole lines that are a document by themselves;
* `Piece`             a setting of a table, or other text in it;
* `Part`              a section or an alarm with its header, or other text behind the tables before it;
* `Layout`            a file: other text in front, then its parts;
* `Layout.Fits`       the settings are those of a configuration, and the other text has no known name;
* `Layout.rest`       the document of the other text and the headers alone;
* `Layout.read?_text` the file is read as the document of its parts.
-/

namespace DeskClock

open Toml

/-! ## known names -/

inductive Section where
  | library | ntp | weather | window | display
deriving DecidableEq

namespace Section

def name : Section → String
  | library => "library"
  | ntp => "ntp"
  | weather => "weather"
  | window => "window"
  | display => "display"

instance {p : Section → Prop} [DecidablePred p] : Decidable (∀ s, p s) :=
  decidable_of_iff (p library ∧ p ntp ∧ p weather ∧ p window ∧ p display)
    ⟨fun ⟨h0, h1, h2, h3, h4⟩ s => by cases s <;> assumption, fun h => ⟨h _, h _, h _, h _, h _⟩⟩

end Section

/-- the settings of a section, as they are saved -/
def Config.settings (c : Config) : Section → List Assignment
  | .library => c.library.assignments
  | .ntp => c.ntp.assignments
  | .weather => c.weather.assignments
  | .window => c.window.assignments
  | .display => c.display.assignments

/-- the names of the settings of a section -/
def Section.keys : Section → List String
  | library => ["path"]
  | ntp => ["server", "timeout_secs", "check_interval_secs", "max_drift_secs", "apply_correction",
      "sync_on_start"]
  | weather => ["api_key", "units", "latitude", "longitude", "refresh_minutes", "timeout_secs",
      "cache_path", "cache_ttl_minutes"]
  | window => ["title", "width", "height", "x", "y", "resizable", "hide_title_bar"]
  | display => ["use_24_hour", "show_seconds", "tick_millis"]

def AlarmSettings.keys : List String := ["name", "time", "days", "sound"]

/-- whether a key is none of the settings or of their tables. Below the alarms it may stand where there is
an alarm to which it belongs. -/
def IsOther (hasAlarm : Bool) : KeyPath → Prop
  | ⟨[], name⟩ => name ≠ "alarms" ∧ ∀ s : Section, name ≠ s.name
  | ⟨parent :: parents, name⟩ =>
    (parent = "alarms" → hasAlarm = true ∧ KeyPath.first ⟨parents, name⟩ ∉ AlarmSettings.keys) ∧
    ∀ s : Section, parent = s.name → KeyPath.first ⟨parents, name⟩ ∉ s.keys

instance (hasAlarm : Bool) : DecidablePred (IsOther hasAlarm)
  | ⟨[], name⟩ => inferInstanceAs (Decidable (name ≠ "alarms" ∧ ∀ s : Section, name ≠ s.name))
  | ⟨parent :: parents, name⟩ => inferInstanceAs (Decidable
      ((parent = "alarms" → hasAlarm = true ∧ KeyPath.first ⟨parents, name⟩ ∉ AlarmSettings.keys) ∧
      ∀ s : Section, parent = s.name → KeyPath.first ⟨parents, name⟩ ∉ s.keys))

/-! ## settings as they come back -/

namespace Toml

/-- a value as it comes back: an undefined number loses its sign -/
def plain : Toml → Toml
  | .float x => .float x.plain
  | v => v

def Assignment.plain (a : Assignment) : Assignment := { a with value := a.value.plain }

end Toml

theorem Config.settings_plain (c : Config) (s : Section) :
    (c.settings s).map Assignment.plain = c.plain.settings s := by
  cases s <;> rfl

theorem AlarmSettings.assignments_plain (alarm : AlarmSettings) :
    alarm.assignments.map Assignment.plain = alarm.assignments := by
  obtain ⟨name, time, days, sound⟩ := alarm
  cases sound <;> rfl

theorem Config.settings_flat (c : Config) (s : Section) : Flat (c.settings s) := by
  refine c.flat_of_mem_sections (.simple s.name (c.settings s)) ?_
  cases s <;> simp [sections, settings, Section.name]

theorem Config.map_name_settings (c : Config) (s : Section) :
    ((c.settings s).map fun a => a.key.name) = s.keys := by
  cases s <;> rfl

theorem Config.settings_named (c : Config) (s : Section) :
    ∀ a ∈ c.settings s, a.key.parents = [] ∧ a.key.name ∈ s.keys := by
  intro a ha
  rw [← c.map_name_settings s]
  exact ⟨(c.settings_flat s).parents a ha, List.mem_map_of_mem ha⟩

theorem AlarmSettings.settings_named (alarm : AlarmSettings) :
    ∀ a ∈ alarm.assignments, a.key.parents = [] ∧ a.key.name ∈ keys := by
  intro a ha
  refine ⟨alarm.flat.parents a ha, ?_⟩
  obtain ⟨name, time, days, sound⟩ := alarm
  cases sound with
  | none =>
    have hnames : a.key.name ∈ ["name", "time", "days"] := List.mem_map_of_mem (f := fun a => a.key.name) ha
    exact List.mem_append_left ["sound"] hnames
  | some sound => exact List.mem_map_of_mem (f := fun a => a.key.name) ha

theorem forall_readsAs_plain {as : List Assignment}
    (h : List.Forall₂ AssignmentReadsAs as (as.map Assignment.plain)) :
    ∀ a ∈ as, AssignmentReadsAs a a.plain := by
  rw [List.forall₂_map_right_iff, List.forall₂_same] at h
  exact h

theorem Config.settings_readsAs {c : Config} (hc : c.isWritable = true) (s : Section) :
    ∀ a ∈ c.settings s, AssignmentReadsAs a a.plain := by
  refine forall_readsAs_plain ?_
  rw [c.settings_plain]
  obtain _ | ⟨h1, _ | ⟨h2, _ | ⟨h3, _ | ⟨h4, _ | ⟨h5, _⟩⟩⟩⟩⟩ := sections_readsAs hc
  cases s with
  | library => exact h1.assignments
  | ntp => exact h2.assignments
  | weather => exact h3.assignments
  | window => exact h4.assignments
  | display => exact h5.assignments

theorem AlarmSettings.settings_readsAs (alarm : AlarmSettings) :
    ∀ a ∈ alarm.assignments, AssignmentReadsAs a a.plain := by
  refine forall_readsAs_plain ?_
  rw [alarm.assignments_plain]
  exact alarm.readsAs

/-! ## parts of a file -/

/-- whole lines that are a document by themselves -/
structure Passage where
  text : List Char
  whole : WholeLines text
  noMark : text.head? ≠ some '\uFEFF'
  isDocument : (Document.read? text).isSome = true

def Passage.document (p : Passage) : Document := (Document.read? p.text).get p.isDocument

theorem Passage.reads (p : Passage) : Document.read? p.text = some p.document := (Option.some_get _).symm

/-- a document with values of all kinds, in the form in which it is written -/
theorem Passage.exists_of_isWritable {d : Document} (h : d.IsWritable) :
    ∃ p : Passage, p.text = d.write ∧ DocumentReadsAs d p.document := by
  obtain ⟨e, he⟩ := h.exists_readsAs
  have hread := Document.read?_write he
  refine ⟨⟨d.write, .write d, head?_write he, Option.isSome_of_eq_some hread⟩, rfl, ?_⟩
  rw [document, Option.get_of_eq_some _ hread]
  exact he

inductive Piece where
  /-- a setting as it is saved -/
  | setting (a : Assignment)
  | other (passage : Passage)

namespace Piece

def text : Piece → List Char
  | setting a => a.write
  | other passage => passage.text

/-- the assignments of a piece, as they are read -/
def assignments : Piece → List Assignment
  | setting a => [a.plain]
  | other passage => passage.document.preamble

/-- the assignments of other text -/
def rest : Piece → List Assignment
  | setting _ => []
  | other passage => passage.document.preamble

/-- the settings that are named -/
def settings : Piece → List Assignment
  | setting a => [a.plain]
  | other _ => []

/-- a piece of a table with some known names, whose settings are among the ones given -/
def Fits (keys : List String) (given : List Assignment) : Piece → Prop
  | setting a => a ∈ given
  | other passage =>
    passage.document.blocks = [] ∧ ∀ a ∈ passage.document.preamble, a.key.first ∉ keys

end Piece

/-- the names of the settings in a table -/
def namesOf (pieces : List Piece) : List String :=
  (pieces.flatMap Piece.settings).map fun a => a.key.name

inductive Part where
  | ofSection (s : Section) (pieces : List Piece)
  | ofAlarm (alarm : AlarmSettings) (pieces : List Piece)
  | other (passage : Passage)

namespace Part

def text : Part → List Char
  | ofSection s pieces => headerLine false ⟨[], s.name⟩ ++ pieces.flatMap Piece.text
  | ofAlarm _ pieces => headerLine true ⟨[], "alarms"⟩ ++ pieces.flatMap Piece.text
  | other passage => passage.text

/-- the blocks of a part, with some of the assignments of its pieces -/
def blocks (assignments : Piece → List Assignment) : Part → List Block
  | ofSection s pieces => [⟨false, ⟨[], s.name⟩, pieces.flatMap assignments⟩]
  | ofAlarm _ pieces => [⟨true, ⟨[], "alarms"⟩, pieces.flatMap assignments⟩]
  | other passage => passage.document.blocks

def isAlarm : Part → Bool
  | ofAlarm _ _ => true
  | _ => false

/-- the names of the settings of a part -/
def names : Part → List String
  | ofSection _ pieces => namesOf pieces
  | ofAlarm _ pieces => namesOf pieces
  | other _ => []

/-- an alarm needs its name and its time -/
def IsComplete : Part → Prop
  | ofAlarm _ pieces => "name" ∈ namesOf pieces ∧ "time" ∈ namesOf pieces
  | _ => True

instance : DecidablePred IsComplete
  | ofAlarm _ pieces => inferInstanceAs (Decidable ("name" ∈ namesOf pieces ∧ "time" ∈ namesOf pieces))
  | ofSection _ _ => inferInstanceAs (Decidable True)
  | other _ => inferInstanceAs (Decidable True)

def Fits (c : Config) (hasAlarm : Bool) : Part → Prop
  | ofSection s pieces => ∀ piece ∈ pieces, piece.Fits s.keys (c.settings s)
  | ofAlarm alarm pieces => ∀ piece ∈ pieces, piece.Fits AlarmSettings.keys alarm.assignments
  | other passage =>
    passage.document.preamble = [] ∧ ∀ b ∈ passage.document.blocks, IsOther hasAlarm b.key

end Part

/-- a file: other text in front of its tables, then its parts -/
structure Layout where
  front : Passage
  parts : List Part

/-- parts that come where there is an alarm before them or not -/
def FitAll (c : Config) : Bool → List Part → Prop
  | _, [] => True
  | hasAlarm, part :: parts => part.Fits c hasAlarm ∧ FitAll c (hasAlarm || part.isAlarm) parts

namespace Layout

def text (l : Layout) : List Char := l.front.text ++ l.parts.flatMap Part.text

/-- the document of a file, as it is read -/
def document (l : Layout) : Document :=
  ⟨l.front.document.preamble, l.parts.flatMap (Part.blocks Piece.assignments)⟩

/-- the document without the settings: the headers and the other text -/
def rest (l : Layout) : Document :=
  ⟨l.front.document.preamble, l.parts.flatMap (Part.blocks Piece.rest)⟩

/-- The settings are those of a configuration. Other text has none of the known names; in front, the
alarms may be given as a list without items. -/
structure Fits (c : Config) (l : Layout) : Prop where
  blocks : l.front.document.blocks = []
  front : ∀ a ∈ l.front.document.preamble,
    IsOther false a.key ∨ a = ⟨⟨[], "alarms"⟩, .array []⟩
  parts : FitAll c false l.parts

/-- no setting is named twice in one table -/
def Distinct (l : Layout) : Prop := ∀ part ∈ l.parts, part.names.Nodup

/-- each alarm has its name and its time -/
def Complete (l : Layout) : Prop := ∀ part ∈ l.parts, part.IsComplete

instance (l : Layout) : Decidable l.Distinct := inferInstanceAs (Decidable (∀ part ∈ l.parts, _))
instance (l : Layout) : Decidable l.Complete := inferInstanceAs (Decidable (∀ part ∈ l.parts, _))

end Layout

namespace Part

def section? : Part → Option Section
  | ofSection s _ => some s
  | _ => none

/-- other text than comments and blank lines -/
def IsPlain : Part → Prop
  | ofSection _ pieces => ∀ piece ∈ pieces, piece.rest = []
  | ofAlarm _ pieces => ∀ piece ∈ pieces, piece.rest = []
  | other passage => passage.document.blocks = []

end Part

namespace Layout

/-- the sections whose headers a file has -/
def sections (l : Layout) : List Section := l.parts.filterMap Part.section?

/-- Other text has comments and blank lines only. -/
def IsPlain (l : Layout) : Prop := l.front.document.preamble = [] ∧ ∀ part ∈ l.parts, part.IsPlain

end Layout

/-! ## the file is read as the document of its parts -/

theorem Toml.LinesRead.pieces {keys : List String} {given : List Assignment}
    (hgiven : ∀ a ∈ given, AssignmentReadsAs a a.plain) {pieces : List Piece}
    (hfit : ∀ piece ∈ pieces, piece.Fits keys given) {rest : List Char} {d : Document}
    (h : LinesRead rest d) : LinesRead (pieces.flatMap Piece.text ++ rest)
      ⟨pieces.flatMap Piece.assignments ++ d.preamble, d.blocks⟩ := by
  induction pieces with
  | nil => exact h
  | cons piece pieces ih =>
    have hpieces := ih fun p hp => hfit p (List.mem_cons_of_mem _ hp)
    have hpiece := hfit piece List.mem_cons_self
    rw [List.flatMap_cons, List.flatMap_cons, List.append_assoc, List.append_assoc]
    cases piece with
    | setting a => exact hpieces.assignment (hgiven a hpiece)
    | other passage =>
      exact LinesRead.front_preamble passage.whole passage.noMark passage.reads hpiece.1 hpieces

theorem Section.isBare (s : Section) : IsBare s.name := by
  cases s <;> simp [Section.name, IsBare, isKeyChar]

theorem Toml.LinesRead.parts {c : Config} (hc : c.isWritable = true) {hasAlarm : Bool} {parts : List Part}
    (hfit : FitAll c hasAlarm parts) :
    LinesRead (parts.flatMap Part.text) ⟨[], parts.flatMap (Part.blocks Piece.assignments)⟩ := by
  induction parts generalizing hasAlarm with
  | nil => exact .nil
  | cons part parts ih =>
    have hparts := ih hfit.2
    rw [List.flatMap_cons, List.flatMap_cons]
    cases part with
    | ofSection s pieces =>
      have hpieces := LinesRead.pieces (c.settings_readsAs hc s) hfit.1 hparts
      have h := hpieces.header false (rfl : (⟨[], s.name⟩ : KeyPath).parents = []) s.isBare
      rw [List.append_nil] at h
      rw [Part.text, List.append_assoc]
      exact h
    | ofAlarm alarm pieces =>
      have hpieces := LinesRead.pieces alarm.settings_readsAs hfit.1 hparts
      have hbare : IsBare "alarms" := by simp [IsBare, isKeyChar]
      have h := hpieces.header true (rfl : (⟨[], "alarms"⟩ : KeyPath).parents = []) hbare
      rw [List.append_nil] at h
      rw [Part.text, List.append_assoc]
      exact h
    | other passage =>
      have h := LinesRead.front_blocks passage.whole passage.noMark passage.reads rfl hparts
      rw [hfit.1.1] at h
      exact h

namespace Layout

theorem head?_flatMap_text {parts : List Part} : (parts.flatMap Part.text).head? ≠ some '\uFEFF' := by
  induction parts with
  | nil => exact nofun
  | cons part parts ih =>
    rw [List.flatMap_cons]
    cases part with
    | ofSection s pieces =>
      intro h
      cases h
    | ofAlarm alarm pieces =>
      intro h
      cases h
    | other passage =>
      by_cases hnil : passage.text = []
      · rw [Part.text, hnil]
        exact ih
      · rw [Part.text, List.head?_append_of_ne_nil _ hnil]
        exact passage.noMark

/-- **A file is read as the document of its parts.** -/
theorem read?_text {c : Config} (hc : c.isWritable = true) {l : Layout} (hl : l.Fits c) :
    Document.read? l.text = some l.document := by
  have hlines : LinesRead l.text l.document := by
    have h := LinesRead.front_preamble l.front.whole l.front.noMark l.front.reads hl.blocks
      (LinesRead.parts hc hl.parts)
    rw [List.append_nil] at h
    exact h
  have hmark : l.text.head? ≠ some '\uFEFF' := by
    by_cases hnil : l.front.text = []
    · rw [text, hnil]
      exact head?_flatMap_text
    · rw [text, List.head?_append_of_ne_nil _ hnil]
      exact l.front.noMark
  rw [Document.read?, dropByteOrderMark_eq hmark]
  exact hlines _ le_rfl

end Layout

end DeskClock
