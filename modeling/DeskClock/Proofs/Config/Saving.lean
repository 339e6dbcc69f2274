import DeskClock.Proofs.Config.File
import DeskClock.Proofs.Toml.Range

/-!
# a configuration that cannot be saved

* `Checks`                     a check passes on as it is what has a property, and refuses the rest;
* `Toml.Document.checked?`     a document with each integer checked where it stands, however deep;
* `Toml.Document.checked?_checks`   it is refused exactly for an integer out of range;
* `Config.Overflows`           one of the six settings without a sign is above the integers of TOML;
* `Config.document_inRange`    nothing else in a configuration can be out of range;
* `Config.text?_eq_checked`    so the text of a configuration is that of its checked document;
* `Config.save_outcome`        which fault a save has, and what it leaves of the disk.
-/

namespace DeskClock

/-! ## checks -/

/-- a result that is there if something holds, and is then the one expected -/
def Passes {α : Type} (x : Option α) (p : Prop) (a : α) : Prop := ∀ b, x = some b ↔ p ∧ b = a

/-- a check passes on as it is what has a property, and refuses the rest -/
def Checks {α : Type} (f : α → Option α) (P : α → Prop) : Prop := ∀ a, Passes (f a) (P a) a

namespace Passes

variable {α β : Type} {x : Option α} {p q : Prop} {a : α}

theorem pure (hp : p) (a : α) : Passes (some a) p a := by
  intro b
  simp [hp, eq_comm]

theorem congr (h : Passes x p a) (hpq : p ↔ q) : Passes x q a := by
  intro b
  rw [h b, hpq]

theorem map (h : Passes x p a) (g : α → β) : Passes (x.map g) p (g a) := by
  intro w
  simp only [Option.map_eq_some_iff, h _]
  constructor
  · rintro ⟨_, ⟨hp, rfl⟩, rfl⟩
    exact ⟨hp, rfl⟩
  · rintro ⟨hp, rfl⟩
    exact ⟨a, ⟨hp, rfl⟩, rfl⟩

/-- one check behind another -/
theorem bind (h : Passes x p a) {k : α → Option β} {c : β} (hk : Passes (k a) q c) :
    Passes (x.bind k) (p ∧ q) c := by
  intro w
  simp only [Option.bind_eq_some_iff, h _]
  constructor
  · rintro ⟨_, ⟨hp, rfl⟩, hw⟩
    exact ⟨⟨hp, ((hk w).mp hw).1⟩, ((hk w).mp hw).2⟩
  · rintro ⟨⟨hp, hq⟩, rfl⟩
    exact ⟨a, ⟨hp, rfl⟩, (hk w).mpr ⟨hq, rfl⟩⟩

theorem eq_some (h : Passes x p a) (hp : p) : x = some a := (h a).mpr ⟨hp, rfl⟩

theorem eq_none (h : Passes x p a) (hp : ¬p) : x = none := by
  cases x with
  | none => rfl
  | some b => exact absurd ((h b).mp rfl).1 hp

theorem eq_none_iff (h : Passes x p a) : x = none ↔ ¬p := by
  refine ⟨fun hx hp => ?_, h.eq_none⟩
  rw [h.eq_some hp] at hx
  cases hx

end Passes

/-- the items of a list are checked one after the other -/
theorem Checks.mapM {α : Type} {f : α → Option α} {P : α → Prop} (h : Checks f P) :
    Checks (List.mapM f) fun l => ∀ a ∈ l, P a := by
  intro l
  induction l with
  | nil => exact .pure (List.forall_mem_nil P) []
  | cons a l ih =>
    rw [List.mapM_cons]
    have hl : Passes (List.mapM f l) (∀ b ∈ l, P b) l := ih
    refine ((h a).bind (hl.bind (.pure trivial (a :: l)))).congr ?_
    show P a ∧ (∀ b ∈ l, P b) ∧ True ↔ ∀ b ∈ a :: l, P b
    rw [List.forall_mem_cons, and_true]

namespace Toml

mutual

/-- a value with each of its integers checked -/
def checked? : Toml → Option Toml
  | .string text => some (.string text)
  | .integer n => (inRange? n).map .integer
  | .float x => some (.float x)
  | .boolean b => some (.boolean b)
  | .moment text => some (.moment text)
  | .array items => (checkedItems? items).map .array
  | .table entries => (checkedEntries? entries).map .table

def checkedItems? : List Toml → Option (List Toml)
  | [] => some []
  | v :: items => v.checked?.bind fun v => (checkedItems? items).map (v :: ·)

def checkedEntries? : List (String × Toml) → Option (List (String × Toml))
  | [] => some []
  | (name, v) :: entries => v.checked?.bind fun v => (checkedEntries? entries).map ((name, v) :: ·)

end

def Assignment.checked? (a : Assignment) : Option Assignment :=
  a.value.checked?.map fun v => { a with value := v }

def Block.checked? (b : Block) : Option Block :=
  (b.assignments.mapM Assignment.checked?).map fun as => { b with assignments := as }

def Document.checked? (d : Document) : Option Document := do
  let preamble ← d.preamble.mapM Assignment.checked?
  let blocks ← d.blocks.mapM Block.checked?
  return ⟨preamble, blocks⟩

theorem inRange?_checks : Checks inRange? fun n => minInteger ≤ n ∧ n ≤ maxInteger := by
  intro n m
  simp only [inRange?, Option.ite_none_right_eq_some, Option.some.injEq, eq_comm]

theorem inRange_integer_iff {n : Int} : (integer n).InRange ↔ minInteger ≤ n ∧ n ≤ maxInteger := by
  constructor
  · rintro (_ | ⟨low, high⟩)
    exact ⟨low, high⟩
  · rintro ⟨low, high⟩
    exact .integer low high

theorem inRange_array_iff {items : List Toml} : (array items).InRange ↔ ∀ v ∈ items, v.InRange := by
  constructor
  · intro h
    cases h with
    | array h => exact h
  · exact .array

theorem inRange_table_iff {entries : List (String × Toml)} :
    (table entries).InRange ↔ ∀ e ∈ entries, e.2.InRange := by
  constructor
  · intro h
    cases h with
    | table h => exact h
  · exact .table

mutual

/-- **A value is refused exactly for an integer out of range** somewhere in it. -/
theorem checked?_checks : Checks checked? InRange
  | .string text => .pure (.string text) _
  | .integer n => ((inRange?_checks n).map integer).congr inRange_integer_iff.symm
  | .float x => .pure (.float x) _
  | .boolean b => .pure (.boolean b) _
  | .moment text => .pure (.moment text) _
  | .array items => ((checkedItems?_checks items).map array).congr inRange_array_iff.symm
  | .table entries => ((checkedEntries?_checks entries).map table).congr inRange_table_iff.symm

theorem checkedItems?_checks : Checks checkedItems? fun items => ∀ v ∈ items, v.InRange
  | [] => .pure (List.forall_mem_nil _) []
  | v :: items =>
    ((checked?_checks v).bind ((checkedItems?_checks items).map (v :: ·))).congr List.forall_mem_cons.symm

theorem checkedEntries?_checks : Checks checkedEntries? fun entries => ∀ e ∈ entries, e.2.InRange
  | [] => .pure (List.forall_mem_nil _) []
  | (name, v) :: entries =>
    ((checked?_checks v).bind ((checkedEntries?_checks entries).map ((name, v) :: ·))).congr
      (List.forall_mem_cons (p := fun e : String × Toml => e.2.InRange) (a := (name, v)) (l := entries)).symm

end

theorem Assignment.checked?_checks : Checks Assignment.checked? Assignment.InRange :=
  fun a => (Toml.checked?_checks a.value).map _

theorem Block.checked?_checks : Checks Block.checked? fun b => ∀ a ∈ b.assignments, a.InRange :=
  fun b => (Assignment.checked?_checks.mapM b.assignments).map _

/-- **So is a document**, whichever block and assignment the integer stands in. -/
theorem Document.checked?_checks : Checks Document.checked? Document.InRange := by
  intro d
  refine ((Assignment.checked?_checks.mapM d.preamble).bind
    ((Block.checked?_checks.mapM d.blocks).bind (.pure trivial d))).congr ?_
  rw [Document.InRange, and_true]

/-! ## what a setting is written as -/

theorem ofUInt64_inRange (n : UInt64) : (ofUInt64 n).InRange ↔ n.toNat ≤ 9223372036854775807 := by
  rw [ofUInt64, inRange_integer_iff, minInteger, maxInteger]
  omega

theorem ofUInt32_inRange (n : UInt32) : (ofUInt32 n).InRange := by
  have h := n.toNat_lt
  rw [ofUInt32, inRange_integer_iff, minInteger, maxInteger]
  omega

theorem int64_inRange (n : Int64) : (integer n.toInt).InRange := by
  have h1 := n.le_toInt
  have h2 := n.toInt_lt
  rw [inRange_integer_iff, minInteger, maxInteger]
  omega

theorem int32_inRange (n : Int32) : (integer n.toInt).InRange := by
  have h1 := n.le_toInt
  have h2 := n.toInt_lt
  rw [inRange_integer_iff, minInteger, maxInteger]
  omega

theorem field_inRange (name : String) (v : Toml) : (field name v).InRange ↔ v.InRange := .rfl

end Toml

open Toml

/-! ## the sections -/

theorem LibrarySettings.inRange (s : LibrarySettings) : ∀ a ∈ s.assignments, a.InRange := by
  simp only [assignments, List.forall_mem_cons, field_inRange, InRange.string, List.not_mem_nil,
    false_implies, implies_true, and_true]

theorem NtpSettings.inRange_iff (s : NtpSettings) : (∀ a ∈ s.assignments, a.InRange) ↔
    s.timeoutSecs.toNat ≤ 9223372036854775807 ∧ s.checkIntervalSecs.toNat ≤ 9223372036854775807 := by
  simp only [assignments, List.forall_mem_cons, field_inRange, InRange.string, InRange.boolean,
    ofUInt64_inRange, int64_inRange, List.not_mem_nil, false_implies, implies_true, and_true, true_and]

theorem WeatherSettings.inRange_iff (s : WeatherSettings) : (∀ a ∈ s.assignments, a.InRange) ↔
    s.refreshMinutes.toNat ≤ 9223372036854775807 ∧ s.timeoutSecs.toNat ≤ 9223372036854775807 ∧
      s.cacheTtlMinutes.toNat ≤ 9223372036854775807 := by
  simp only [assignments, List.forall_mem_cons, field_inRange, InRange.string, InRange.float,
    ofUInt64_inRange, List.not_mem_nil, false_implies, implies_true, and_true, true_and]

theorem WindowSettings.inRange (s : WindowSettings) : ∀ a ∈ s.assignments, a.InRange := by
  simp only [assignments, List.forall_mem_cons, field_inRange, InRange.string, InRange.boolean,
    ofUInt32_inRange, int32_inRange, List.not_mem_nil, false_implies, implies_true, and_true]

theorem DisplaySettings.inRange_iff (s : DisplaySettings) :
    (∀ a ∈ s.assignments, a.InRange) ↔ s.tickMillis.toNat ≤ 9223372036854775807 := by
  simp only [assignments, List.forall_mem_cons, field_inRange, InRange.boolean, ofUInt64_inRange,
    List.not_mem_nil, false_implies, implies_true, and_true, true_and]

/-- an alarm is made of texts -/
theorem AlarmSettings.inRange (s : AlarmSettings) : ∀ a ∈ s.assignments, a.InRange := by
  have hdays : (Toml.array (s.days.map fun day => .string day.shortName)).InRange := by
    rw [inRange_array_iff]
    intro v hv
    obtain ⟨day, -, rfl⟩ := List.mem_map.mp hv
    exact .string _
  have hsound : ∀ a ∈ s.sound.toList.map fun sound => field "sound" (.string sound), a.InRange := by
    intro a ha
    obtain ⟨sound, -, rfl⟩ := List.mem_map.mp ha
    exact .string sound
  rw [assignments, List.forall_mem_append]
  refine ⟨?_, hsound⟩
  simp only [List.forall_mem_cons, field_inRange, InRange.string, hdays, List.not_mem_nil,
    false_implies, implies_true, and_true]

namespace Config

/-! ## the document -/

/-- one of the settings without a sign does not fit into 64 bits with one -/
def Overflows (c : Config) : Prop :=
  9223372036854775807 < c.ntp.timeoutSecs.toNat ∨ 9223372036854775807 < c.ntp.checkIntervalSecs.toNat ∨
  9223372036854775807 < c.weather.refreshMinutes.toNat ∨ 9223372036854775807 < c.weather.timeoutSecs.toNat ∨
  9223372036854775807 < c.weather.cacheTtlMinutes.toNat ∨ 9223372036854775807 < c.display.tickMillis.toNat

theorem preamble_inRange (c : Config) : ∀ a ∈ c.preamble, a.InRange := by
  have h : (field "alarms" (.array [])).InRange := .array nofun
  unfold preamble
  split
  · exact List.forall_mem_singleton.mpr h
  · exact nofun

/-- **A configuration can only be out of range in its settings without a sign.** -/
theorem document_inRange (c : Config) : c.document.InRange ↔ ¬c.Overflows := by
  have hitems : ∀ b ∈ (c.alarms.map AlarmSettings.assignments).map (itemBlock "alarms"),
      ∀ a ∈ b.assignments, a.InRange := by
    rw [List.map_map]
    intro b hb
    obtain ⟨alarm, -, rfl⟩ := List.mem_map.mp hb
    exact alarm.inRange
  have hsections : (∀ b ∈ c.sections, ∀ a ∈ b.assignments, a.InRange) ↔ ¬c.Overflows := by
    simp only [sections, List.forall_mem_cons, List.not_mem_nil, false_implies, implies_true, and_true,
      Block.simple, c.ntp.inRange_iff, c.weather.inRange_iff, c.display.inRange_iff, Overflows]
    have hl := c.library.inRange
    have hw := c.window.inRange
    rw [and_iff_right hl, and_iff_right hw]
    omega
  rw [document_eq, Document.InRange, List.forall_mem_append]
  exact ⟨fun h => hsections.mp h.2.1, fun h => ⟨c.preamble_inRange, hsections.mpr h, hitems⟩⟩

theorem isWritable_iff_not_overflows (c : Config) : c.isWritable = true ↔ ¬c.Overflows := by
  rw [isWritable_iff, Overflows]
  simp only [unsignedSettings, List.forall_mem_cons, List.not_mem_nil, false_implies, implies_true,
    and_true]
  omega

theorem document_checked?_eq_none (c : Config) : c.document.checked? = none ↔ c.Overflows := by
  rw [(Document.checked?_checks c.document).eq_none_iff, document_inRange, not_not]

/-- **The text of a configuration is written from its document with every integer checked**: the check
of the six settings stands for the one of all numbers. -/
theorem text?_eq_checked (c : Config) : c.text? = c.document.checked?.map Document.write := by
  have hd := Document.checked?_checks c.document
  rw [text?]
  by_cases h : c.Overflows
  · rw [if_neg (mt c.isWritable_iff_not_overflows.mp (not_not.mpr h)),
      hd.eq_none (mt c.document_inRange.mp (not_not.mpr h)), Option.map_none]
  · rw [if_pos (c.isWritable_iff_not_overflows.mpr h), hd.eq_some (c.document_inRange.mpr h),
      Option.map_some]

/-! ## the file -/

theorem save_overflows {c : Config} (h : c.Overflows) (disk : Disk) (path : String) :
    c.save disk path = (.error .serialize, disk) := by
  rw [save, text?_eq_checked, c.document_checked?_eq_none.mpr h]
  rfl

theorem save_fits {c : Config} (h : ¬c.Overflows) (disk : Disk) (path : String) :
    c.save disk path = if disk.writable path then
      (.ok (), disk.put path (some ⟨Utf8.encode c.document.write, StoredFile.justWritten⟩))
      else (.error .io, disk) := by
  rw [save, text?, if_pos (c.isWritable_iff_not_overflows.mpr h)]
  cases hw : disk.writable path <;> simp [Disk.write?, hw]

/-- **A save that fails changes nothing.** The document is refused exactly for a setting that overflows,
and that is reported before the path is looked at; otherwise a save fails only for a path that cannot be
written. -/
theorem save_outcome (c : Config) (disk : Disk) (path : String) :
    ((c.save disk path).1 = .error .serialize ↔ c.document.checked? = none) ∧
    (c.document.checked? = none ↔ c.Overflows) ∧
    ((c.save disk path).1 = .error .io ↔ ¬c.Overflows ∧ disk.writable path = false) ∧
    ((c.save disk path).1 = .ok () ↔ ¬c.Overflows ∧ disk.writable path = true) ∧
    ((c.save disk path).1 ≠ .ok () → (c.save disk path).2 = disk) ∧
    ((c.save disk path).1 = .ok () → ∃ text, c.document.checked?.map Document.write = some text ∧
      (c.save disk path).2 = disk.put path (some ⟨Utf8.encode text, StoredFile.justWritten⟩)) := by
  rw [document_checked?_eq_none]
  by_cases h : c.Overflows
  · rw [save_overflows h]
    simp [h]
  · have hchecked := (Document.checked?_checks c.document).eq_some (c.document_inRange.mpr h)
    rw [save_fits h, hchecked]
    cases hw : disk.writable path with
    | true => simp [h]
    | false => simp [h]

end Config

end DeskClock
