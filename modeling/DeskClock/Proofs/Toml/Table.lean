import DeskClock.Toml.Table
import Mathlib

/-!
# the table of a flat document

A document is flat if all its keys are single names, no name is given twice, and its headers are those
of sections and of one array of tables.

* `Entries.alter_append`, `Entries.alter_fresh`   only the entry under the name is changed;
* `assignAll_flat`        assignments to different names make one entry each, in their order;
* `addBlock_section`      a section under a new name makes a table;
* `foldlM_items`          blocks under the header of an array make its items, in their order;
* `Document.root?_flat`   the table of a flat document.
-/

namespace DeskClock.Toml

namespace Entries

theorem alter_append {name : String} {f : Option Node → Option Node} {front : Entries}
    (h : name ∉ front.map Prod.fst) (entries : Entries) :
    alter name f (front ++ entries) = (alter name f entries).map (front ++ ·) := by
  induction front with
  | nil =>
    rw [List.nil_append]
    exact Option.map_id.symm ▸ rfl
  | cons e front ih =>
    rw [List.map_cons, List.mem_cons, not_or] at h
    obtain ⟨other, node⟩ := e
    rw [List.cons_append, alter, if_neg (Ne.symm h.1), ih h.2, Option.map_map]
    rfl

theorem alter_fresh {name : String} {f : Option Node → Option Node} {entries : Entries}
    (h : name ∉ entries.map Prod.fst) :
    alter name f entries = (f none).map fun node => entries ++ [(name, node)] := by
  have e := alter_append (f := f) h []
  rw [List.append_nil] at e
  rw [e, alter, Option.map_map]
  rfl

theorem alter_last {name : String} {f : Option Node → Option Node} {front : Entries}
    (h : name ∉ front.map Prod.fst) (node : Node) :
    alter name f (front ++ [(name, node)])
      = (f (some node)).map fun node => front ++ [(name, node)] := by
  rw [alter_append h, alter, if_pos rfl, Option.map_map]
  rfl

end Entries

/-! ## assignments -/

/-- assignments to single names, none of them given twice -/
structure Flat (as : List Assignment) : Prop where
  parents : ∀ a ∈ as, a.key.parents = []
  nodup : (as.map fun a => a.key.name).Nodup

/-- the entries of assignments, each under its name -/
def entriesOf (as : List Assignment) : List (String × Toml) := as.map fun a => (a.key.name, a.value)

/-- the same entries while the document is open -/
def openEntries (as : List Assignment) : Entries := as.map fun a => (a.key.name, .value a.value)

theorem map_fst_openEntries (as : List Assignment) :
    (openEntries as).map Prod.fst = as.map fun a => a.key.name := by
  rw [openEntries, List.map_map]
  rfl

theorem assignAll_append {as : List Assignment} (hp : ∀ a ∈ as, a.key.parents = [])
    (entries : Entries) (hn : (entries.map Prod.fst ++ as.map fun a => a.key.name).Nodup) :
    Entries.assignAll entries as = some (entries ++ openEntries as) := by
  induction as generalizing entries with
  | nil =>
    rw [openEntries, List.map_nil, List.append_nil]
    rfl
  | cons a as ih =>
    have hfresh : a.key.name ∉ entries.map Prod.fst := fun h =>
      List.disjoint_of_nodup_append hn h List.mem_cons_self
    have hstep : Entries.assign entries a = some (entries ++ [(a.key.name, .value a.value)]) := by
      rw [Entries.assign, hp a List.mem_cons_self]
      exact Entries.alter_fresh hfresh
    have hn' : ((entries ++ [(a.key.name, Node.value a.value)]).map Prod.fst
        ++ as.map fun a => a.key.name).Nodup := by
      rw [List.map_append, List.append_assoc]
      exact hn
    have ih' := ih (fun b hb => hp b (List.mem_cons_of_mem _ hb)) _ hn'
    rw [Entries.assignAll, List.foldlM_cons, hstep]
    show Entries.assignAll (entries ++ [(a.key.name, .value a.value)]) as = _
    rw [ih', List.append_assoc]
    rfl

/-- **Assignments to different names** make one entry each, in their order. -/
theorem assignAll_flat {as : List Assignment} (h : Flat as) :
    Entries.assignAll [] as = some (openEntries as) :=
  assignAll_append h.parents [] h.nodup

/-- entries are closed one by one -/
theorem closeEntries_eq_map (entries : Entries) :
    closeEntries entries = entries.map fun e => (e.1, e.2.close) := by
  induction entries with
  | nil => simp [closeEntries]
  | cons e entries ih => simp [closeEntries, ih]

theorem closeTables_eq_map (items : List Entries) :
    closeTables items = items.map fun entries => .table (closeEntries entries) := by
  induction items with
  | nil => simp [closeTables]
  | cons entries items ih => simp [closeTables, ih]

theorem closeEntries_append (a b : Entries) :
    closeEntries (a ++ b) = closeEntries a ++ closeEntries b := by
  simp [closeEntries_eq_map]

theorem closeEntries_openEntries (as : List Assignment) :
    closeEntries (openEntries as) = entriesOf as := by
  simp [closeEntries_eq_map, openEntries, entriesOf, Node.close]

/-! ## blocks -/

/-- the entry of a section while the document is open -/
def openSection (b : Block) : String × Node := (b.key.name, .table .explicit (openEntries b.assignments))

theorem addBlock_section {b : Block} (ha : b.isArray = false) (hp : b.key.parents = [])
    (hf : Flat b.assignments) {entries : Entries} (hn : b.key.name ∉ entries.map Prod.fst) :
    Entries.addBlock entries b = some (entries ++ [openSection b]) := by
  rw [Entries.addBlock, hp, ha]
  show Entries.alter b.key.name (Entries.openTable b.assignments) entries = _
  rw [Entries.alter_fresh hn, Entries.openTable, assignAll_flat hf]
  rfl

theorem foldlM_sections {sections : List Block} (ha : ∀ b ∈ sections, b.isArray = false)
    (hp : ∀ b ∈ sections, b.key.parents = []) (hf : ∀ b ∈ sections, Flat b.assignments)
    (entries : Entries) (hn : (entries.map Prod.fst ++ sections.map fun b => b.key.name).Nodup) :
    sections.foldlM Entries.addBlock entries = some (entries ++ sections.map openSection) := by
  induction sections generalizing entries with
  | nil =>
    rw [List.map_nil, List.append_nil]
    rfl
  | cons b sections ih =>
    have hfresh : b.key.name ∉ entries.map Prod.fst := fun h =>
      List.disjoint_of_nodup_append hn h List.mem_cons_self
    have hn' : ((entries ++ [openSection b]).map Prod.fst
        ++ sections.map fun b => b.key.name).Nodup := by
      rw [List.map_append, List.append_assoc]
      exact hn
    rw [List.foldlM_cons, addBlock_section (ha b List.mem_cons_self) (hp b List.mem_cons_self)
      (hf b List.mem_cons_self) hfresh]
    show sections.foldlM Entries.addBlock (entries ++ [openSection b]) = _
    rw [ih (fun c hc => ha c (List.mem_cons_of_mem _ hc)) (fun c hc => hp c (List.mem_cons_of_mem _ hc))
      (fun c hc => hf c (List.mem_cons_of_mem _ hc)) _ hn', List.append_assoc]
    rfl

/-- a block under the header of an array of tables -/
def itemBlock (name : String) (as : List Assignment) : Block := ⟨true, ⟨[], name⟩, as⟩

theorem foldlM_more_items {name : String} {items : List (List Assignment)}
    (hf : ∀ as ∈ items, Flat as) {front : Entries} (hn : name ∉ front.map Prod.fst)
    (tables : List Entries) :
    (items.map (itemBlock name)).foldlM Entries.addBlock (front ++ [(name, .tables tables)])
      = some (front ++ [(name, .tables (tables ++ items.map openEntries))]) := by
  induction items generalizing tables with
  | nil =>
    rw [List.map_nil, List.map_nil, List.append_nil]
    rfl
  | cons as items ih =>
    have hstep : Entries.addBlock (front ++ [(name, .tables tables)]) (itemBlock name as)
        = some (front ++ [(name, .tables (tables ++ [openEntries as]))]) := by
      show Entries.alter name (Entries.appendTable as) _ = _
      rw [Entries.alter_last hn, Entries.appendTable, assignAll_flat (hf as List.mem_cons_self)]
      rfl
    rw [List.map_cons, List.foldlM_cons, hstep]
    show (items.map (itemBlock name)).foldlM Entries.addBlock
      (front ++ [(name, .tables (tables ++ [openEntries as]))]) = _
    rw [ih (fun as h => hf as (List.mem_cons_of_mem _ h)), List.append_assoc]
    rfl

/-- **Blocks under the header of an array** make its items, in their order. -/
theorem foldlM_items {name : String} {items : List (List Assignment)} (hf : ∀ as ∈ items, Flat as)
    {front : Entries} (hn : name ∉ front.map Prod.fst) (hne : items ≠ []) :
    (items.map (itemBlock name)).foldlM Entries.addBlock front
      = some (front ++ [(name, .tables (items.map openEntries))]) := by
  cases items with
  | nil => exact absurd rfl hne
  | cons as items =>
    have hstep : Entries.addBlock front (itemBlock name as)
        = some (front ++ [(name, .tables [openEntries as])]) := by
      show Entries.alter name (Entries.appendTable as) _ = _
      rw [Entries.alter_fresh hn, Entries.appendTable, assignAll_flat (hf as List.mem_cons_self)]
      rfl
    rw [List.map_cons, List.foldlM_cons, hstep]
    exact foldlM_more_items (fun as h => hf as (List.mem_cons_of_mem _ h)) hn [openEntries as]

theorem closeTables_map (items : List (List Assignment)) :
    closeTables (items.map openEntries) = items.map fun as => .table (entriesOf as) := by
  simp [closeTables_eq_map, closeEntries_openEntries]

theorem closeEntries_sections (sections : List Block) :
    closeEntries (sections.map openSection)
      = sections.map fun b => (b.key.name, .table (entriesOf b.assignments)) := by
  simp [closeEntries_eq_map, openSection, Node.close, ← closeEntries_openEntries]

/-! ## flat documents -/

/-- sections under different names, none of which is given in front -/
structure FlatSections (preamble : List Assignment) (sections : List Block) : Prop where
  front : Flat preamble
  isArray : ∀ b ∈ sections, b.isArray = false
  parents : ∀ b ∈ sections, b.key.parents = []
  assignments : ∀ b ∈ sections, Flat b.assignments
  nodup : (preamble.map (fun a => a.key.name) ++ sections.map fun b => b.key.name).Nodup

/-- the entries of the assignments in front and of the sections -/
def flatEntries (preamble : List Assignment) (sections : List Block) : List (String × Toml) :=
  entriesOf preamble ++ sections.map fun b => (b.key.name, .table (entriesOf b.assignments))

theorem foldlM_flat {preamble : List Assignment} {sections : List Block}
    (h : FlatSections preamble sections) :
    sections.foldlM Entries.addBlock (openEntries preamble)
      = some (openEntries preamble ++ sections.map openSection) := by
  refine foldlM_sections h.isArray h.parents h.assignments _ ?_
  rw [map_fst_openEntries]
  exact h.nodup

theorem closeEntries_flat (preamble : List Assignment) (sections : List Block) :
    closeEntries (openEntries preamble ++ sections.map openSection)
      = flatEntries preamble sections := by
  rw [closeEntries_append, closeEntries_openEntries, closeEntries_sections]
  rfl

theorem Document.root?_sections {preamble : List Assignment} {sections : List Block}
    (h : FlatSections preamble sections) :
    Document.root? ⟨preamble, sections⟩ = some (flatEntries preamble sections) := by
  rw [Document.root?, assignAll_flat h.front]
  simp only [Option.bind_eq_bind, Option.bind_some]
  rw [foldlM_flat h]
  simp only [Option.bind_some]
  rw [closeEntries_flat]
  rfl

/-- **The table of a flat document** with an array of tables behind its sections. -/
theorem Document.root?_flat {preamble : List Assignment} {sections : List Block}
    (h : FlatSections preamble sections) {name : String} {items : List (List Assignment)}
    (hf : ∀ as ∈ items, Flat as) (hne : items ≠ [])
    (hn : name ∉ preamble.map (fun a => a.key.name) ++ sections.map fun b => b.key.name) :
    Document.root? ⟨preamble, sections ++ items.map (itemBlock name)⟩
      = some (flatEntries preamble sections
          ++ [(name, .array (items.map fun as => .table (entriesOf as)))]) := by
  have hfront : name ∉ (openEntries preamble ++ sections.map openSection).map Prod.fst := by
    rw [List.map_append, map_fst_openEntries, List.map_map]
    exact hn
  rw [Document.root?, assignAll_flat h.front]
  simp only [Option.bind_eq_bind, Option.bind_some]
  rw [List.foldlM_append, foldlM_flat h]
  simp only [Option.bind_eq_bind, Option.bind_some]
  rw [foldlM_items hf hfront hne]
  simp only [Option.bind_some]
  rw [closeEntries_append, closeEntries_flat, closeEntries, Node.close, closeTables_map, closeEntries]
  rfl

end DeskClock.Toml
