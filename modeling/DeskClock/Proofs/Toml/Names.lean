import DeskClock.Proofs.Toml.Filled

/-!
# documents that give names twice or once

* `assignAll_twice`, `addBlock_twice`   a name given twice in a table is refused;
* `HasHeader`                           a table keeps its header, so a second one is refused;
* `Document.root?_givesTwice`           a document that gives a name twice defines no table;
* `Document.IsSimple.root?_isSome`      a document of different names defines one.
-/

namespace DeskClock.Toml

/-! ## names given twice -/

theorem lookup_assign {entries entries' : Entries} {a : Assignment} (h : entries.assign a = some entries')
    {n : String} (hn : (entries.lookup n).isSome) : (entries'.lookup n).isSome := by
  obtain ⟨f, hf⟩ := Entries.assign_eq_alter a
  rw [hf, Entries.alter_eq] at h
  obtain ⟨node, -, rfl⟩ := Option.map_eq_some_iff.mp h
  rw [Entries.lookup_put]
  split
  · rfl
  · exact hn

/-- an assignment to a single name that the table has is refused, whatever stands between -/
theorem assignAll_taken {entries : Entries} {n : String} (hn : (entries.lookup n).isSome)
    {as : List Assignment} {v : Toml} (h : ⟨⟨[], n⟩, v⟩ ∈ as) : entries.assignAll as = none := by
  induction as generalizing entries with
  | nil => cases h
  | cons a as ih =>
    rw [Entries.assignAll, List.foldlM_cons]
    cases hassign : entries.assign a with
    | none => rfl
    | some entries' =>
      rcases List.mem_cons.mp h with rfl | h
      · obtain ⟨node, hnode⟩ := Option.isSome_iff_exists.mp hn
        have hnone : entries.assign ⟨⟨[], n⟩, v⟩ = none := by
          show entries.alter n _ = none
          rw [Entries.alter_eq, hnode]
          rfl
        rw [hnone] at hassign
        cases hassign
      · exact ih (lookup_assign hassign hn) h

/-- a table with a single name given twice is refused, whatever else is in it -/
theorem assignAll_twice {entries : Entries} {n : String} {v w : Toml} {as : List Assignment}
    (h : List.Sublist [⟨⟨[], n⟩, v⟩, ⟨⟨[], n⟩, w⟩] as) : entries.assignAll as = none := by
  induction as generalizing entries with
  | nil => cases h
  | cons a as ih =>
    rw [Entries.assignAll, List.foldlM_cons]
    cases hassign : entries.assign a with
    | none => rfl
    | some entries' =>
      cases h with
      | cons _ h => exact ih h
      | cons_cons _ h =>
        have htaken : (entries'.lookup n).isSome := by
          have hadd : entries.alter n _ = some entries' := hassign
          rw [Entries.alter_eq] at hadd
          obtain ⟨node, -, rfl⟩ := Option.map_eq_some_iff.mp hadd
          rw [Entries.lookup_put, if_pos rfl]
          rfl
        exact assignAll_taken htaken (List.singleton_sublist.mp h)

theorem alterLast_eq_none {f : Entries → Option Entries} (hf : ∀ entries, f entries = none)
    (items : List Entries) : Entries.alterLast f items = none := by
  induction items with
  | nil => rfl
  | cons first items ih =>
    cases items with
    | nil => simp [Entries.alterLast, hf]
    | cons second items => simp [Entries.alterLast, ih]

/-- so its block is refused in every table -/
theorem addBlock_twice {b : Block} {n : String} {v w : Toml}
    (h : List.Sublist [⟨⟨[], n⟩, v⟩, ⟨⟨[], n⟩, w⟩] b.assignments) (entries : Entries) :
    entries.addBlock b = none := by
  obtain ⟨isArray, ⟨parents, name⟩, as⟩ := b
  have hall : ∀ entries, Entries.assignAll entries as = none := fun _ => assignAll_twice h
  induction parents generalizing entries with
  | nil =>
    have hentry : ∀ node?,
        (if isArray then Entries.appendTable as else Entries.openTable as) node? = none := by
      intro node?
      cases isArray with
      | true =>
        show Entries.appendTable as node? = none
        unfold Entries.appendTable
        split <;> simp [hall]
      | false =>
        show Entries.openTable as node? = none
        unfold Entries.openTable
        split <;> simp [hall]
    show entries.alter name _ = none
    rw [Entries.alter_eq, hentry]
    rfl
  | cons parent parents ih =>
    have hinner : ∀ entries : Entries, entries.addBlock ⟨isArray, ⟨parents, name⟩, as⟩ = none :=
      fun entries => ih entries h
    rw [Entries.addBlock_inside, Entries.alter_eq]
    unfold Entries.blockInside
    split <;> simp [hinner, alterLast_eq_none]

/-- a table under a name has its own header -/
def HasHeader (n : String) (entries : Entries) : Prop :=
  ∃ inner, entries.lookup n = some (.table .explicit inner)

theorem HasHeader.alter {n : String} {entries entries' : Entries} (h : HasHeader n entries) {name : String}
    {f : Option Node → Option Node} (ha : entries.alter name f = some entries')
    (hf : ∀ inner node, f (some (.table .explicit inner)) = some node →
      ∃ inner', node = .table .explicit inner') :
    HasHeader n entries' := by
  obtain ⟨inner, hinner⟩ := h
  rw [Entries.alter_eq] at ha
  obtain ⟨node, hnode, rfl⟩ := Option.map_eq_some_iff.mp ha
  by_cases hn : n = name
  · subst hn
    rw [hinner] at hnode
    obtain ⟨inner', rfl⟩ := hf inner node hnode
    exact ⟨inner', by rw [Entries.lookup_put, if_pos rfl]⟩
  · exact ⟨inner, by rw [Entries.lookup_put, if_neg hn, hinner]⟩

/-- a table keeps its own header -/
theorem HasHeader.addBlock {n : String} {entries entries' : Entries} (h : HasHeader n entries) {b : Block}
    (hb : entries.addBlock b = some entries') : HasHeader n entries' := by
  obtain ⟨isArray, ⟨parents, name⟩, as⟩ := b
  cases parents with
  | nil =>
    have halter : entries.alter name (if isArray then Entries.appendTable as else Entries.openTable as)
        = some entries' := hb
    refine h.alter halter ?_
    intro inner node hnode
    cases isArray <;> cases hnode
  | cons parent parents =>
    rw [Entries.addBlock_inside] at hb
    refine h.alter hb ?_
    intro inner node hnode
    obtain ⟨inner', -, rfl⟩ := Option.map_eq_some_iff.mp hnode
    exact ⟨inner', rfl⟩

theorem foldlM_header {n : String} {entries : Entries} (h : HasHeader n entries) {blocks : List Block}
    {as : List Assignment} (hmem : ⟨false, ⟨[], n⟩, as⟩ ∈ blocks) :
    blocks.foldlM Entries.addBlock entries = none := by
  induction blocks generalizing entries with
  | nil => cases hmem
  | cons b blocks ih =>
    rw [List.foldlM_cons]
    cases hblock : entries.addBlock b with
    | none => rfl
    | some entries' =>
      rcases List.mem_cons.mp hmem with rfl | hmem
      · obtain ⟨inner, hinner⟩ := h
        have hnone : entries.alter n (Entries.openTable as) = none := by
          rw [Entries.alter_eq, hinner]
          rfl
        have hsome : entries.alter n (Entries.openTable as) = some entries' := hblock
        rw [hnone] at hsome
        cases hsome
      · exact ih (h.addBlock hblock) hmem

/-- a document that gives a name twice: in front, below a header, or with the header of a table -/
inductive Document.GivesTwice (d : Document) : Prop where
  | front {n : String} {v w : Toml} (h : List.Sublist [⟨⟨[], n⟩, v⟩, ⟨⟨[], n⟩, w⟩] d.preamble)
  | block {b : Block} (hb : b ∈ d.blocks) {n : String} {v w : Toml}
      (h : List.Sublist [⟨⟨[], n⟩, v⟩, ⟨⟨[], n⟩, w⟩] b.assignments)
  | header {n : String} {as bs : List Assignment}
      (h : List.Sublist [⟨false, ⟨[], n⟩, as⟩, ⟨false, ⟨[], n⟩, bs⟩] d.blocks)

theorem foldlM_header_twice {n : String} {as bs : List Assignment} {blocks : List Block}
    (h : List.Sublist [⟨false, ⟨[], n⟩, as⟩, ⟨false, ⟨[], n⟩, bs⟩] blocks) (entries : Entries) :
    blocks.foldlM Entries.addBlock entries = none := by
  induction blocks generalizing entries with
  | nil => cases h
  | cons b blocks ih =>
    rw [List.foldlM_cons]
    cases hblock : entries.addBlock b with
    | none => rfl
    | some entries' =>
      cases h with
      | cons _ h => exact ih h entries'
      | cons_cons _ h =>
        have hopen : entries.alter n (Entries.openTable as) = some entries' := hblock
        have hheader : HasHeader n entries' := by
          rw [Entries.alter_eq] at hopen
          obtain ⟨node, hnode, rfl⟩ := Option.map_eq_some_iff.mp hopen
          obtain ⟨inner, rfl⟩ : ∃ inner, node = .table .explicit inner := by
            unfold Entries.openTable at hnode
            split at hnode
            · obtain ⟨inner, -, rfl⟩ := Option.map_eq_some_iff.mp hnode
              exact ⟨inner, rfl⟩
            · obtain ⟨inner, -, rfl⟩ := Option.map_eq_some_iff.mp hnode
              exact ⟨inner, rfl⟩
            · cases hnode
          exact ⟨inner, by rw [Entries.lookup_put, if_pos rfl]⟩
        exact foldlM_header hheader (List.singleton_sublist.mp h)

theorem foldlM_eq_none {b : Block} (hb : ∀ entries : Entries, entries.addBlock b = none) {blocks : List Block}
    (hmem : b ∈ blocks) (entries : Entries) : blocks.foldlM Entries.addBlock entries = none := by
  induction blocks generalizing entries with
  | nil => cases hmem
  | cons first blocks ih =>
    rw [List.foldlM_cons]
    rcases List.mem_cons.mp hmem with rfl | hmem
    · rw [hb]
      rfl
    · cases entries.addBlock first with
      | none => rfl
      | some entries' => exact ih hmem entries'

/-- **A document that gives a name twice defines no table.** -/
theorem Document.root?_givesTwice {d : Document} (h : d.GivesTwice) : d.root? = none := by
  have hblocks : (∀ entries, d.blocks.foldlM Entries.addBlock entries = none) → d.root? = none := by
    intro hnone
    rw [Document.root?]
    cases Entries.assignAll [] d.preamble with
    | none => rfl
    | some entries => simp [hnone]
  cases h with
  | front h =>
    rw [Document.root?, assignAll_twice h]
    rfl
  | block hb h => exact hblocks (foldlM_eq_none (addBlock_twice h) hb)
  | header h => exact hblocks (foldlM_header_twice h)

/-! ## names that are different -/

/-- Each key and each header has one name, and no name is there twice, but for the headers of an array. -/
structure Document.IsSimple (d : Document) : Prop where
  preamble : Flat d.preamble
  blocks : ∀ b ∈ d.blocks, b.key.parents = [] ∧ Flat b.assignments ∧ ∀ a ∈ d.preamble, a.key.name ≠ b.key.name
  headers : d.blocks.Pairwise fun a b => a.key.name = b.key.name → a.isArray = true ∧ b.isArray = true

/-- what may stand under the name of a header that is still to be read -/
def IsFree (isArray : Bool) (node? : Option Node) : Prop :=
  node? = none ∨ isArray = true ∧ ∃ items, node? = some (.tables items)

theorem IsFree.addBlock {b : Block} (hp : b.key.parents = []) (hf : Flat b.assignments) {entries : Entries}
    (h : IsFree b.isArray (entries.lookup b.key.name)) :
    ∃ node, entries.addBlock b = some (Entries.put b.key.name node entries) ∧
      (b.isArray = true → IsFree true (some node)) := by
  obtain ⟨isArray, ⟨parents, name⟩, as⟩ := b
  cases hp
  have hall := assignAll_flat hf
  have hadd : entries.addBlock ⟨isArray, ⟨[], name⟩, as⟩
      = ((if isArray then Entries.appendTable as else Entries.openTable as) (entries.lookup name)).map
          fun node => Entries.put name node entries := Entries.alter_eq _ _ _
  rw [hadd]
  cases isArray with
  | false =>
    rcases h with hnone | ⟨hfalse, -⟩
    · rw [hnone]
      refine ⟨.table .explicit (openEntries as), ?_, nofun⟩
      simp [Entries.openTable, hall]
    · cases hfalse
  | true =>
    rcases h with hnone | ⟨-, items, hitems⟩
    · rw [hnone]
      refine ⟨.tables [openEntries as], ?_, fun _ => .inr ⟨rfl, _, rfl⟩⟩
      simp [Entries.appendTable, hall]
    · rw [hitems]
      refine ⟨.tables (items ++ [openEntries as]), ?_, fun _ => .inr ⟨rfl, _, rfl⟩⟩
      simp [Entries.appendTable, hall]

theorem foldlM_isFree {blocks : List Block} (hb : ∀ b ∈ blocks, b.key.parents = [] ∧ Flat b.assignments)
    (hn : blocks.Pairwise fun a b => a.key.name = b.key.name → a.isArray = true ∧ b.isArray = true)
    {entries : Entries} (hfree : ∀ b ∈ blocks, IsFree b.isArray (entries.lookup b.key.name)) :
    (blocks.foldlM Entries.addBlock entries).isSome = true := by
  induction blocks generalizing entries with
  | nil => rfl
  | cons b blocks ih =>
    obtain ⟨hparents, hflat⟩ := hb b List.mem_cons_self
    obtain ⟨hheader, hheaders⟩ := List.pairwise_cons.mp hn
    obtain ⟨node, hadd, hnode⟩ := (hfree b List.mem_cons_self).addBlock hparents hflat
    rw [List.foldlM_cons, hadd]
    refine ih (fun b' hb' => hb b' (List.mem_cons_of_mem _ hb')) hheaders ?_
    intro b' hb'
    rw [Entries.lookup_put]
    split
    · next hname =>
      obtain ⟨harray, harray'⟩ := hheader b' hb' hname.symm
      rw [harray']
      exact hnode harray
    · exact hfree b' (List.mem_cons_of_mem _ hb')

/-- **A document of different names defines a table.** -/
theorem Document.IsSimple.root?_isSome {d : Document} (h : d.IsSimple) : d.root?.isSome = true := by
  have hfree : ∀ b ∈ d.blocks, IsFree b.isArray ((openEntries d.preamble).lookup b.key.name) := by
    intro b hb
    refine .inl ?_
    rw [List.lookup_eq_none_iff]
    intro e he
    obtain ⟨a, ha, rfl⟩ := List.mem_map.mp he
    exact bne_iff_ne.mpr ((h.blocks b hb).2.2 a ha).symm
  have hblocks := foldlM_isFree (fun b hb => ⟨(h.blocks b hb).1, (h.blocks b hb).2.1⟩) h.headers hfree
  obtain ⟨entries, hentries⟩ := Option.isSome_iff_exists.mp hblocks
  rw [Document.root?, assignAll_flat h.preamble]
  simp [hentries]

end DeskClock.Toml
