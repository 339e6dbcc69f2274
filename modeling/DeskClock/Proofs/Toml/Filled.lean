import DeskClock.Proofs.Toml.Table

/-!
# settings between other entries of a table

What an assignment or a header does to a table depends only on the entry under the first name of its key,
and changes only that entry. So known names that no other key starts with can be added or left out without
any effect on the rest.

* `Entries.alter_eq`, `Entries.lookup_put`   an entry is changed, the others stay;
* `KeyPath.first`                the name of a key in the table that it stands in;
* `Filled known given e₀ e`      `e` is `e₀` with the values `given` under the names `known`;
* `Filled.assign`, `Filled.addBlock`   other assignments and headers have the same effect on both;
* `Filled.add`                   one more of the values is added;
* `SectionFilled`, `ArrayFilled` so it is for a table under a header and for the tables of an array.
-/

namespace DeskClock.Toml

/-! ## one entry -/

theorem lookup_cons_eq {α : Type} (name : String) (a : α) (entries : List (String × α)) (n : String) :
    ((name, a) :: entries).lookup n = if n = name then some a else entries.lookup n := by
  by_cases h : n = name
  · subst h
    simp
  · have hb : (n == name) = false := beq_false_of_ne h
    rw [List.lookup_cons, hb, if_neg h]

namespace Entries

/-- the entries with a node under a name, in the place of an earlier one or at the end -/
def put (name : String) (node : Node) : Entries → Entries
  | [] => [(name, node)]
  | (other, old) :: rest =>
    if other = name then (other, node) :: rest else (other, old) :: put name node rest

theorem alter_eq (name : String) (f : Option Node → Option Node) (entries : Entries) :
    entries.alter name f = (f (entries.lookup name)).map fun node => put name node entries := by
  induction entries with
  | nil => rfl
  | cons e entries ih =>
    obtain ⟨other, old⟩ := e
    rw [alter, lookup_cons_eq]
    by_cases h : other = name
    · subst h
      simp [put]
    · rw [if_neg h, if_neg (Ne.symm h), ih, Option.map_map]
      simp [put, h, Function.comp_def]

theorem lookup_put (name : String) (node : Node) (entries : Entries) (n : String) :
    (put name node entries).lookup n = if n = name then some node else entries.lookup n := by
  induction entries with
  | nil => rw [put, lookup_cons_eq]
  | cons e entries ih =>
    obtain ⟨other, old⟩ := e
    rw [put]
    split
    · next h =>
      subst h
      rw [lookup_cons_eq, lookup_cons_eq]
      split
      · rfl
      · rfl
    · next h =>
      rw [lookup_cons_eq, lookup_cons_eq, ih]
      by_cases hn : n = other
      · subst hn
        rw [if_pos rfl, if_pos rfl, if_neg h]
      · rw [if_neg hn, if_neg hn]

end Entries

/-! ## the entry that an assignment or a header changes -/

/-- the name of a key in the table that it stands in -/
def KeyPath.first (key : KeyPath) : String := key.parents.headD key.name

namespace Entries

theorem assignBelow_eq_alter (name : String) (value : Toml) (mark : Mark) (parents : List String) :
    ∃ f, ∀ entries : Entries,
      entries.assignBelow name value mark parents = entries.alter (KeyPath.first ⟨parents, name⟩) f := by
  cases parents with
  | nil =>
    by_cases h : mark = .dotted
    · exact ⟨_, fun _ => if_pos h⟩
    · refine ⟨fun _ => none, fun entries => ?_⟩
      rw [assignBelow, if_neg h, alter_eq]
      rfl
  | cons parent parents => exact ⟨_, fun _ => rfl⟩

theorem assign_eq_alter (a : Assignment) :
    ∃ f, ∀ entries : Entries, entries.assign a = entries.alter a.key.first f := by
  obtain ⟨⟨parents, name⟩, value⟩ := a
  cases parents with
  | nil => exact ⟨_, fun _ => rfl⟩
  | cons parent parents => exact assignBelow_eq_alter name value .explicit (parent :: parents)

theorem addBlock_eq_alter (b : Block) :
    ∃ f, ∀ entries : Entries, entries.addBlock b = entries.alter b.key.first f := by
  obtain ⟨isArray, ⟨parents, name⟩, as⟩ := b
  cases parents with
  | nil => exact ⟨_, fun _ => rfl⟩
  | cons parent parents => exact ⟨_, fun _ => rfl⟩

end Entries

/-! ## two readings side by side -/

section

variable {α β γ δ : Type} {R : α → β → Prop} {S : γ → δ → Prop}

theorem rel_bind {x : Option α} {y : Option β} {f : α → Option γ} {g : β → Option δ} (h : Option.Rel R x y)
    (hf : ∀ a b, R a b → Option.Rel S (f a) (g b)) : Option.Rel S (x.bind f) (y.bind g) := by
  cases h with
  | none => exact .none
  | some h => exact hf _ _ h

theorem rel_mono {R' : α → β → Prop} {x : Option α} {y : Option β} (h : Option.Rel R x y)
    (hR : ∀ a b, R a b → R' a b) : Option.Rel R' x y := by
  cases h with
  | none => exact .none
  | some h => exact .some (hR _ _ h)

theorem rel_map {x : Option α} {y : Option β} {f : α → γ} {g : β → δ} (h : Option.Rel R x y)
    (hf : ∀ a b, R a b → S (f a) (g b)) : Option.Rel S (x.map f) (y.map g) := by
  cases h with
  | none => exact .none
  | some h => exact .some (hf _ _ h)

end

/-! ## settings between other entries -/

/-- a table with values under known names, and the table without them -/
structure Filled (known : List String) (given : List (String × Toml)) (without filled : Entries) : Prop where
  other : ∀ n ∉ known, filled.lookup n = without.lookup n
  given : ∀ n ∈ known, filled.lookup n = (given.lookup n).map Node.value

namespace Filled

variable {known : List String} {given : List (String × Toml)} {without filled : Entries}

theorem nil (known : List String) : Filled known [] [] [] := ⟨fun _ _ => rfl, fun _ _ => rfl⟩

/-- a change of an entry that is not known has the same effect on both tables -/
theorem alter (h : Filled known given without filled) {name : String} (hn : name ∉ known)
    (f : Option Node → Option Node) :
    Option.Rel (Filled known given) (without.alter name f) (filled.alter name f) := by
  rw [Entries.alter_eq, Entries.alter_eq, h.other name hn]
  cases f (without.lookup name) with
  | none => exact .none
  | some node =>
    refine .some ⟨?_, ?_⟩
    · intro n hnot
      rw [Entries.lookup_put, Entries.lookup_put, h.other n hnot]
    · intro n hmem
      have hne : n ≠ name := fun he => hn (he ▸ hmem)
      rw [Entries.lookup_put, if_neg hne, h.given n hmem]

theorem assign (h : Filled known given without filled) {a : Assignment} (ha : a.key.first ∉ known) :
    Option.Rel (Filled known given) (without.assign a) (filled.assign a) := by
  obtain ⟨f, hf⟩ := Entries.assign_eq_alter a
  rw [hf, hf]
  exact h.alter ha f

theorem assignBelow (h : Filled known given without filled) {name : String} {parents : List String}
    (hn : KeyPath.first ⟨parents, name⟩ ∉ known) (value : Toml) (mark : Mark) :
    Option.Rel (Filled known given) (without.assignBelow name value mark parents)
      (filled.assignBelow name value mark parents) := by
  obtain ⟨f, hf⟩ := Entries.assignBelow_eq_alter name value mark parents
  rw [hf, hf]
  exact h.alter hn f

theorem addBlock (h : Filled known given without filled) {b : Block} (hb : b.key.first ∉ known) :
    Option.Rel (Filled known given) (without.addBlock b) (filled.addBlock b) := by
  obtain ⟨f, hf⟩ := Entries.addBlock_eq_alter b
  rw [hf, hf]
  exact h.alter hb f

theorem assignAll (h : Filled known given without filled) {as : List Assignment}
    (has : ∀ a ∈ as, a.key.first ∉ known) :
    Option.Rel (Filled known given) (without.assignAll as) (filled.assignAll as) := by
  induction as generalizing without filled with
  | nil => exact .some h
  | cons a as ih =>
    refine rel_bind (h.assign (has a List.mem_cons_self)) ?_
    intro without' filled' h'
    exact ih h' fun b hb => has b (List.mem_cons_of_mem _ hb)

/-- one more value under a known name -/
theorem add (h : Filled known given without filled) {name : String} (hk : name ∈ known)
    (hn : name ∉ given.map Prod.fst) (v : Toml) :
    ∃ filled', filled.add name v = some filled' ∧ Filled known (given ++ [(name, v)]) without filled' := by
  have hlookup : given.lookup name = none := by
    rw [List.lookup_eq_none_iff]
    intro e he
    rw [bne_iff_ne]
    rintro rfl
    exact hn (List.mem_map_of_mem he)
  refine ⟨Entries.put name (.value v) filled, ?_, ?_, ?_⟩
  · rw [Entries.add, Entries.alter_eq, h.given name hk, hlookup]
    rfl
  · intro n hnot
    have hne : n ≠ name := fun he => hnot (he ▸ hk)
    rw [Entries.lookup_put, if_neg hne, h.other n hnot]
  · intro n hmem
    rw [Entries.lookup_put, List.lookup_append]
    split
    · next he =>
      subst he
      simp [hlookup]
    · next hne =>
      rw [h.given n hmem, lookup_cons_eq, if_neg hne]
      simp

end Filled

/-! ## sections and arrays of tables with settings in them -/

namespace Entries

/-- what a dotted key does to the entry that it passes through first -/
def assignInside (name : String) (value : Toml) (parents : List String) : Option Node → Option Node
  | none => (assignBelow name value .dotted parents []).map (.table .dotted)
  | some (.value _) => none
  | some (.table .explicit _) => none
  | some (.table mark inner) => (assignBelow name value mark parents inner).map (.table mark)
  | some (.tables items) => (alterLast (assignBelow name value .explicit parents) items).map .tables

theorem assign_inside (entries : Entries) (parent : String) (parents : List String) (name : String)
    (value : Toml) :
    entries.assign ⟨⟨parent :: parents, name⟩, value⟩
      = entries.alter parent (assignInside name value parents) := rfl

/-- what a header of more than one name does to the entry that it passes through first; the block is the
one that is left for the table inside -/
def blockInside (b : Block) : Option Node → Option Node
  | none => (addBlock [] b).map (.table .implied)
  | some (.value _) => none
  | some (.table mark inner) => (addBlock inner b).map (.table mark)
  | some (.tables items) => (alterLast (fun entries => addBlock entries b) items).map .tables

theorem addBlock_inside (entries : Entries) (isArray : Bool) (parent : String) (parents : List String)
    (name : String) (as : List Assignment) : entries.addBlock ⟨isArray, ⟨parent :: parents, name⟩, as⟩
      = entries.alter parent (blockInside ⟨isArray, ⟨parents, name⟩, as⟩) := rfl

end Entries

/-- the entry of a section, whose header has been read if there are values for it -/
inductive SectionFilled (known : List String) (given? : Option (List (String × Toml))) :
    Option Node → Option Node → Prop where
  | absent (h : given? = none) : SectionFilled known given? none none
  | table {mark : Mark} {without filled : Entries} (hm : given?.isSome ↔ mark = .explicit)
      (h : Filled known (given?.getD []) without filled) :
      SectionFilled known given? (some (.table mark without)) (some (.table mark filled))

namespace SectionFilled

variable {known : List String} {given? : Option (List (String × Toml))} {node? node?' : Option Node}

theorem assignInside (h : SectionFilled known given? node? node?') {name : String} {parents : List String}
    (hn : KeyPath.first ⟨parents, name⟩ ∉ known) (value : Toml) :
    Option.Rel (fun node node' => SectionFilled known given? (some node) (some node'))
      (Entries.assignInside name value parents node?) (Entries.assignInside name value parents node?') := by
  cases h with
  | absent h =>
    refine rel_map ((Filled.nil known).assignBelow hn value .dotted) ?_
    intro without filled hfilled
    subst h
    exact .table (by decide) hfilled
  | @table mark without filled hm h =>
    cases mark with
    | explicit => exact .none
    | implied =>
      refine rel_map (h.assignBelow hn value .implied) ?_
      intro without filled hfilled
      exact .table hm hfilled
    | dotted =>
      refine rel_map (h.assignBelow hn value .dotted) ?_
      intro without filled hfilled
      exact .table hm hfilled

theorem blockInside (h : SectionFilled known given? node? node?') {b : Block} (hb : b.key.first ∉ known) :
    Option.Rel (fun node node' => SectionFilled known given? (some node) (some node'))
      (Entries.blockInside b node?) (Entries.blockInside b node?') := by
  cases h with
  | absent h =>
    refine rel_map ((Filled.nil known).addBlock hb) ?_
    intro without filled hfilled
    subst h
    exact .table (by decide) hfilled
  | table hm h =>
    refine rel_map (h.addBlock hb) ?_
    intro without filled hfilled
    exact .table hm hfilled

/-- the header of a section is read once; its assignments are read alike with values between them -/
theorem openTable (h : SectionFilled known given? node? node?') {given : List (String × Toml)}
    {rest all : List Assignment}
    (hassign : ∀ without filled, Filled known [] without filled →
      Option.Rel (Filled known given) (without.assignAll rest) (filled.assignAll all)) :
    Option.Rel (fun node node' => SectionFilled known (some given) (some node) (some node'))
      (Entries.openTable rest node?) (Entries.openTable all node?') := by
  have hopen : ∀ {without filled}, Filled known [] without filled →
      Option.Rel (fun node node' => SectionFilled known (some given) (some node) (some node'))
        ((without.assignAll rest).map (.table .explicit))
        ((filled.assignAll all).map (.table .explicit)) := by
    intro without filled h
    refine rel_map (hassign without filled h) ?_
    intro without filled hfilled
    exact .table ⟨fun _ => rfl, fun _ => rfl⟩ hfilled
  cases h with
  | absent h => exact hopen (Filled.nil known)
  | @table mark without filled hm h =>
    cases mark with
    | explicit => exact .none
    | dotted => exact .none
    | implied =>
      have hnone : given? = none := by
        rw [← Option.not_isSome_iff_eq_none, hm]
        decide
      subst hnone
      exact hopen h

end SectionFilled

/-- the tables of an array, each with values of its own -/
inductive ItemsFilled (known : List String) :
    List (List (String × Toml)) → List Entries → List Entries → Prop where
  | nil : ItemsFilled known [] [] []
  | cons {given : List (String × Toml)} {without filled : Entries} {givens : List (List (String × Toml))}
      {withouts filleds : List Entries} (h : Filled known given without filled)
      (hs : ItemsFilled known givens withouts filleds) :
      ItemsFilled known (given :: givens) (without :: withouts) (filled :: filleds)

namespace ItemsFilled

variable {known : List String} {givens : List (List (String × Toml))} {withouts filleds : List Entries}

theorem append (hs : ItemsFilled known givens withouts filleds) {given : List (String × Toml)}
    {without filled : Entries} (h : Filled known given without filled) :
    ItemsFilled known (givens ++ [given]) (withouts ++ [without]) (filleds ++ [filled]) := by
  induction hs with
  | nil => exact .cons h .nil
  | cons h' _ ih => exact .cons h' ih

theorem alterLast (hs : ItemsFilled known givens withouts filleds) {f : Entries → Option Entries}
    (hf : ∀ given without filled, Filled known given without filled →
      Option.Rel (Filled known given) (f without) (f filled)) :
    Option.Rel (ItemsFilled known givens) (Entries.alterLast f withouts) (Entries.alterLast f filleds) := by
  induction hs with
  | nil => exact .none
  | cons h hs ih =>
    cases hs with
    | nil =>
      refine rel_map (hf _ _ _ h) ?_
      intro without filled h'
      exact .cons h' .nil
    | cons h' hs =>
      refine rel_map ih ?_
      intro withouts filleds hs'
      exact .cons h hs'

end ItemsFilled

/-- the entry of an array of tables; with no tables it may be given as an array without items -/
inductive ArrayFilled (known : List String) :
    List (List (String × Toml)) → Option Node → Option Node → Prop where
  | absent : ArrayFilled known [] none none
  | empty : ArrayFilled known [] (some (.value (.array []))) (some (.value (.array [])))
  | tables {givens : List (List (String × Toml))} {withouts filleds : List Entries}
      (hs : ItemsFilled known givens withouts filleds) :
      ArrayFilled known givens (some (.tables withouts)) (some (.tables filleds))

namespace ArrayFilled

variable {known : List String} {givens : List (List (String × Toml))} {node? node?' : Option Node}

/-- a header below an array goes to its last table -/
theorem blockInside (h : ArrayFilled known givens node? node?') (hne : givens ≠ []) {b : Block}
    (hb : b.key.first ∉ known) :
    Option.Rel (fun node node' => ArrayFilled known givens (some node) (some node'))
      (Entries.blockInside b node?) (Entries.blockInside b node?') := by
  cases h with
  | absent => exact absurd rfl hne
  | empty => exact absurd rfl hne
  | tables hs =>
    have halter := hs.alterLast (f := fun entries => entries.addBlock b) fun _ _ _ h => h.addBlock hb
    refine rel_map halter ?_
    intro withouts filleds hs'
    exact .tables hs'

theorem appendTable (h : ArrayFilled known givens node? node?') {given : List (String × Toml)}
    {rest all : List Assignment}
    (hassign : Option.Rel (Filled known given) (Entries.assignAll [] rest) (Entries.assignAll [] all)) :
    Option.Rel (fun node node' => ArrayFilled known (givens ++ [given]) (some node) (some node'))
      (Entries.appendTable rest node?) (Entries.appendTable all node?') := by
  cases h with
  | absent =>
    refine rel_map hassign ?_
    intro without filled h
    exact .tables (.cons h .nil)
  | empty => exact .none
  | tables hs =>
    refine rel_map hassign ?_
    intro without filled h
    exact .tables (hs.append h)

end ArrayFilled

end DeskClock.Toml
