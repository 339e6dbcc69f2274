import DeskClock.Proofs.Json.Value

/-!
# the fields of an object in any order

* `named`              the members of an object that have a name, however it is written;
* `fields?_eq`         a field is the only member with its name;
* `Scattered`          some members in any order, with members of other names among them;
* `fields?_scattered`  they have the same fields;
* `fields?_eq_none`    a name that does not come just once is refused;
* `fields?_unreadable` so is one that is not a text.
-/

namespace DeskClock.Json

variable {names : List String} {members found : List (List UInt8 × Value)}

/-- the members with a name, however it is written -/
def named (name : String) (members : List (List UInt8 × Value)) : List (List UInt8 × Value) :=
  members.filter fun m => string? m.1 == some name

/-- the names of the members are texts -/
def Readable (members : List (List UInt8 × Value)) : Prop :=
  ∀ m ∈ members, ∃ name, string? m.1 = some name

/-- the value of a member that is the only one -/
def sole? : List (List UInt8 × Value) → Option Value
  | [m] => some m.2
  | _ => none

theorem sole?_eq_none (h : members.length ≠ 1) : sole? members = none := by
  cases members with
  | nil => rfl
  | cons m rest =>
    cases rest with
    | nil => exact absurd rfl h
    | cons m' rest => rfl

theorem sole?_perm (h : found.Perm members) : sole? found = sole? members := by
  by_cases hone : found.length = 1
  · obtain ⟨m, rfl⟩ := List.length_eq_one_iff.mp hone
    rw [List.singleton_perm.mp h]
  · rw [sole?_eq_none hone, sole?_eq_none (h.length_eq ▸ hone)]

/-- the members with their names read -/
def readNames? (members : List (List UInt8 × Value)) : Option (List (String × Value)) :=
  members.mapM fun (raw, v) => (string? raw).map (·, v)

theorem fields?_eq_bind (names : List String) (members : List (List UInt8 × Value)) :
    Value.fields? names (.object members)
      = (readNames? members).bind fun read => names.mapM fun name => Value.only? name read := rfl

theorem readNames?_eq (h : Readable members) :
    readNames? members = some (members.map fun m => ((string? m.1).getD "", m.2)) := by
  apply mapM_eq_map
  intro m hm
  obtain ⟨name, hname⟩ := h m hm
  show (string? m.1).map (fun name => (name, m.2)) = _
  rw [hname]
  rfl

theorem mapM_eq_none {α β : Type} {f : α → Option β} {l : List α} {a : α} (ha : a ∈ l)
    (h : f a = none) : l.mapM f = none := by
  induction l with
  | nil => cases ha
  | cons b l ih =>
    rw [List.mapM_cons]
    rcases List.mem_cons.mp ha with rfl | ha
    · rw [h]
      rfl
    · rw [ih ha]
      cases f b with
      | none => rfl
      | some c => rfl

theorem only?_eq_sole? (h : Readable members) (name : String) :
    Value.only? name (members.map fun m => ((string? m.1).getD "", m.2))
      = sole? (named name members) := by
  have hfilter : members.filter ((fun (p : String × Value) => p.1 == name)
      ∘ fun m => ((string? m.1).getD "", m.2)) = named name members := by
    apply List.filter_congr
    intro m hm
    obtain ⟨found, hfound⟩ := h m hm
    show ((string? m.1).getD "" == name) = (string? m.1 == some name)
    rw [hfound]
    rfl
  rw [Value.only?, List.filter_map, hfilter]
  cases named name members with
  | nil => rfl
  | cons m rest =>
    cases rest with
    | nil => rfl
    | cons m' rest => rfl

theorem mapM_congr {α β : Type} {f g : α → Option β} {l : List α} (h : ∀ a ∈ l, f a = g a) :
    l.mapM f = l.mapM g := by
  induction l with
  | nil => rfl
  | cons a l ih =>
    rw [List.mapM_cons, List.mapM_cons, h a List.mem_cons_self,
      ih fun b hb => h b (List.mem_cons_of_mem _ hb)]

/-- **A field is the only member with its name**, however the name is written. -/
theorem fields?_eq (names : List String) (h : Readable members) :
    Value.fields? names (.object members) = names.mapM fun name => sole? (named name members) := by
  rw [fields?_eq_bind, readNames?_eq h]
  exact congrArg (fun field => names.mapM field) (funext (only?_eq_sole? h))

/-! ## any order -/

/-- Some members in any order, with others among them whose names are texts, but none of the given. -/
def Scattered (names : List String) (members found : List (List UInt8 × Value)) : Prop :=
  ∃ others, found.Perm (members ++ others) ∧
    ∀ m ∈ others, ∃ name, string? m.1 = some name ∧ name ∉ names

theorem Scattered.readable (h : Scattered names members found) (hm : Readable members) :
    Readable found := by
  obtain ⟨others, hperm, hothers⟩ := h
  intro m hfound
  rcases List.mem_append.mp (hperm.mem_iff.mp hfound) with hmem | hmem
  · exact hm m hmem
  · obtain ⟨name, hname, -⟩ := hothers m hmem
    exact ⟨name, hname⟩

theorem Scattered.named_perm (h : Scattered names members found) {name : String} (hn : name ∈ names) :
    (named name found).Perm (named name members) := by
  obtain ⟨others, hperm, hothers⟩ := h
  have hnone : named name others = [] := by
    apply List.filter_eq_nil_iff.mpr
    intro m hm he
    obtain ⟨other, hother, hnot⟩ := hothers m hm
    rw [hother] at he
    exact hnot (Option.some.inj (eq_of_beq he) ▸ hn)
  have hfilter := hperm.filter fun m => string? m.1 == some name
  rw [List.filter_append] at hfilter
  change (named name found).Perm (named name members ++ named name others) at hfilter
  rw [hnone, List.append_nil] at hfilter
  exact hfilter

/-- **The fields of an object do not hang on the order of its members**, nor on the members with other
names. -/
theorem fields?_scattered (h : Scattered names members found) (hm : Readable members) :
    Value.fields? names (.object found) = Value.fields? names (.object members) := by
  rw [fields?_eq names (h.readable hm), fields?_eq names hm]
  apply mapM_congr
  intro name hn
  exact sole?_perm (h.named_perm hn)

/-! ## refused objects -/

/-- **A name that is not a text is refused**, also in a member that is not looked at. -/
theorem fields?_unreadable (names : List String) (h : ¬ Readable members) :
    Value.fields? names (.object members) = none := by
  obtain ⟨m, hm, hnone⟩ : ∃ m ∈ members, string? m.1 = none := by
    by_contra hall
    apply h
    intro m hm
    apply Option.ne_none_iff_exists'.mp
    exact fun hnone => hall ⟨m, hm, hnone⟩
  have hread : readNames? members = none := by
    refine mapM_eq_none hm ?_
    show (string? m.1).map (fun name => (name, m.2)) = none
    rw [hnone]
    rfl
  rw [fields?_eq_bind, hread]
  rfl

/-- **A name that does not come just once is refused.** -/
theorem fields?_eq_none {name : String} (hn : name ∈ names) (h : (named name members).length ≠ 1) :
    Value.fields? names (.object members) = none := by
  by_cases hread : Readable members
  · rw [fields?_eq names hread]
    exact mapM_eq_none hn (sole?_eq_none h)
  · exact fields?_unreadable names hread

/-- a field that is found is the value of every member with its name -/
theorem eq_of_mem_named {name : String} {m : List UInt8 × Value} (hm : m ∈ members)
    (hr : string? m.1 = some name) {v : Value} (h : sole? (named name members) = some v) :
    m.2 = v := by
  have hmem : m ∈ named name members := List.mem_filter.mpr ⟨hm, beq_iff_eq.mpr hr⟩
  by_cases hone : (named name members).length = 1
  · obtain ⟨m', hnamed⟩ := List.length_eq_one_iff.mp hone
    rw [hnamed] at hmem h
    cases List.mem_singleton.mp hmem
    exact Option.some.inj h
  · rw [sole?_eq_none hone] at h
    cases h

end DeskClock.Json
