import DeskClock.Proofs.Toml.Table
import DeskClock.Toml.Reader

/-!
# the integers of a document

* `Toml.InRange`, `Node.InRange`   every integer in a value, in an entry of an open table, fits into 64 bits
                                   with a sign;
* `Entries.InRange.assign`, `Entries.InRange.addBlock`   a table keeps its integers in range;
* `value?_inRange`                 a value that is read has its integers in range;
* `read?_inRange`                  and so has a document.
-/

namespace DeskClock.Toml

/-- every integer in a value fits into 64 bits with a sign -/
inductive InRange : Toml → Prop where
  | string (text : String) : InRange (.string text)
  | integer {n : Int} (low : minInteger ≤ n) (high : n ≤ maxInteger) : InRange (.integer n)
  | float (x : Binary64) : InRange (.float x)
  | boolean (b : Bool) : InRange (.boolean b)
  | moment (text : String) : InRange (.moment text)
  | array {items : List Toml} (h : ∀ v ∈ items, InRange v) : InRange (.array items)
  | table {entries : List (String × Toml)} (h : ∀ e ∈ entries, InRange e.2) : InRange (.table entries)

inductive Node.InRange : Node → Prop where
  | value {v : Toml} (h : v.InRange) : InRange (.value v)
  | table (mark : Mark) {entries : Entries} (h : ∀ e ∈ entries, InRange e.2) : InRange (.table mark entries)
  | tables {items : List Entries} (h : ∀ entries ∈ items, ∀ e ∈ entries, InRange e.2) :
      InRange (.tables items)

def Entries.InRange (entries : Entries) : Prop := ∀ e ∈ entries, Node.InRange e.2

def Assignment.InRange (a : Assignment) : Prop := a.value.InRange

/-! ## open tables -/

/-- what each step of a fold keeps is kept by the fold -/
theorem foldlM_keeps {α β : Type} {P : β → Prop} {f : β → α → Option β} {as : List α}
    (hf : ∀ b, ∀ a ∈ as, ∀ b', P b → f b a = some b' → P b') {b b' : β} (h : P b)
    (hfold : as.foldlM f b = some b') : P b' := by
  induction as generalizing b with
  | nil =>
    cases hfold
    exact h
  | cons a as ih =>
    rw [List.foldlM_cons] at hfold
    obtain ⟨next, hnext, hrest⟩ := Option.bind_eq_some_iff.mp hfold
    have hin : P next := hf b a List.mem_cons_self next h hnext
    exact ih (fun b a ha => hf b a (List.mem_cons_of_mem _ ha)) hin hrest

/-- a change that keeps an entry in range, where it puts one and where it finds one -/
def KeepsRange (f : Option Node → Option Node) : Prop :=
  ∀ node? node, (∀ found, node? = some found → found.InRange) → f node? = some node → node.InRange

namespace Entries

variable {entries entries' : Entries}

theorem InRange.nil : InRange [] := by
  intro e he
  cases he

theorem InRange.cons {e : String × Node} (he : e.2.InRange) (h : InRange entries) :
    InRange (e :: entries) := by
  intro e' he'
  rcases List.mem_cons.mp he' with rfl | he'
  · exact he
  · exact h e' he'

theorem InRange.alter (h : InRange entries) {name : String} {f : Option Node → Option Node}
    (hf : KeepsRange f) (ha : entries.alter name f = some entries') : InRange entries' := by
  induction entries generalizing entries' with
  | nil =>
    obtain ⟨node, hnode, rfl⟩ := Option.map_eq_some_iff.mp ha
    exact .cons (hf none node nofun hnode) .nil
  | cons e rest ih =>
    obtain ⟨other, found⟩ := e
    have hfound : found.InRange := h (other, found) List.mem_cons_self
    have hrest : InRange rest := fun e he => h e (List.mem_cons_of_mem _ he)
    rw [Entries.alter] at ha
    split at ha
    · obtain ⟨node, hnode, rfl⟩ := Option.map_eq_some_iff.mp ha
      refine .cons (hf (some found) node ?_ hnode) hrest
      rintro _ ⟨⟩
      exact hfound
    · obtain ⟨rest', hrest', rfl⟩ := Option.map_eq_some_iff.mp ha
      exact .cons hfound (ih hrest hrest')

theorem InRange.add (h : InRange entries) {name : String} {v : Toml} (hv : v.InRange)
    (ha : entries.add name v = some entries') : InRange entries' := by
  refine h.alter ?_ ha
  intro node? node _ hnode
  cases node? with
  | none =>
    cases hnode
    exact .value hv
  | some found => cases hnode

theorem InRange.alterLast {f : Entries → Option Entries}
    (hf : ∀ entries entries', InRange entries → f entries = some entries' → InRange entries')
    {items items' : List Entries} (h : ∀ entries ∈ items, InRange entries)
    (ha : Entries.alterLast f items = some items') : ∀ entries ∈ items', InRange entries := by
  induction items generalizing items' with
  | nil => cases ha
  | cons first items ih =>
    cases items with
    | nil =>
      obtain ⟨last, hlast, rfl⟩ := Option.map_eq_some_iff.mp ha
      simpa using hf first last (h first List.mem_cons_self) hlast
    | cons second items =>
      obtain ⟨rest, hrest, rfl⟩ := Option.map_eq_some_iff.mp ha
      have ih' := ih (fun entries he => h entries (List.mem_cons_of_mem _ he)) hrest
      intro entries he
      rcases List.mem_cons.mp he with rfl | he
      · exact h _ List.mem_cons_self
      · exact ih' entries he

/-- a change of a table keeps it in range if it does so wherever the key passes through -/
theorem InRange.assignBelow {name : String} {v : Toml} (hv : v.InRange) {mark : Mark}
    {parents : List String} (h : InRange entries)
    (ha : entries.assignBelow name v mark parents = some entries') : InRange entries' := by
  induction parents generalizing mark entries entries' with
  | nil =>
    rw [Entries.assignBelow] at ha
    split at ha
    · exact h.add hv ha
    · cases ha
  | cons parent parents ih =>
    rw [Entries.assignBelow] at ha
    refine h.alter ?_ ha
    intro node? node hfound hnode
    match node?, hnode with
    | none, hnode =>
      obtain ⟨inner, hinner, rfl⟩ := Option.map_eq_some_iff.mp hnode
      exact .table .dotted (ih .nil hinner)
    | some (.table .implied inner), hnode =>
      obtain ⟨inner', hinner, rfl⟩ := Option.map_eq_some_iff.mp hnode
      cases hfound _ rfl with
      | table _ hin => exact .table .implied (ih hin hinner)
    | some (.table .dotted inner), hnode =>
      obtain ⟨inner', hinner, rfl⟩ := Option.map_eq_some_iff.mp hnode
      cases hfound _ rfl with
      | table _ hin => exact .table .dotted (ih hin hinner)
    | some (.tables items), hnode =>
      obtain ⟨items', hitems, rfl⟩ := Option.map_eq_some_iff.mp hnode
      cases hfound _ rfl with
      | tables hin => exact .tables (InRange.alterLast (fun _ _ => ih) hin hitems)

theorem InRange.assign (h : InRange entries) {a : Assignment} (ha : a.InRange)
    (he : entries.assign a = some entries') : InRange entries' := by
  unfold Entries.assign at he
  split at he
  · exact h.add ha he
  · exact h.assignBelow ha he

theorem InRange.assignAll (h : InRange entries) {as : List Assignment} (has : ∀ a ∈ as, a.InRange)
    (he : entries.assignAll as = some entries') : InRange entries' :=
  foldlM_keeps (fun _ a ha _ h he => InRange.assign h (has a ha) he) h he

theorem InRange.within {f : Entries → Option Entries}
    (hf : ∀ entries entries', InRange entries → f entries = some entries' → InRange entries')
    {parents : List String} (h : InRange entries) (he : entries.within f parents = some entries') :
    InRange entries' := by
  induction parents generalizing entries entries' with
  | nil => exact hf entries entries' h he
  | cons parent parents ih =>
    rw [Entries.within] at he
    refine h.alter ?_ he
    intro node? node hfound hnode
    match node?, hnode with
    | none, hnode =>
      obtain ⟨inner, hinner, rfl⟩ := Option.map_eq_some_iff.mp hnode
      exact .table .implied (ih .nil hinner)
    | some (.table mark inner), hnode =>
      obtain ⟨inner', hinner, rfl⟩ := Option.map_eq_some_iff.mp hnode
      cases hfound _ rfl with
      | table _ hin => exact .table mark (ih hin hinner)
    | some (.tables items), hnode =>
      obtain ⟨items', hitems, rfl⟩ := Option.map_eq_some_iff.mp hnode
      cases hfound _ rfl with
      | tables hin => exact .tables (InRange.alterLast (fun _ _ => ih) hin hitems)

end Entries

/-! ## headers -/

theorem openTable_keepsRange {as : List Assignment} (has : ∀ a ∈ as, a.InRange) :
    KeepsRange (Entries.openTable as) := by
  intro node? node hfound hnode
  match node?, hnode with
  | none, hnode =>
    obtain ⟨inner, hinner, rfl⟩ := Option.map_eq_some_iff.mp hnode
    exact .table .explicit (Entries.InRange.nil.assignAll has hinner)
  | some (.table .implied inner), hnode =>
    obtain ⟨inner', hinner, rfl⟩ := Option.map_eq_some_iff.mp hnode
    cases hfound _ rfl with
    | table _ hin => exact .table .explicit (Entries.InRange.assignAll hin has hinner)

theorem appendTable_keepsRange {as : List Assignment} (has : ∀ a ∈ as, a.InRange) :
    KeepsRange (Entries.appendTable as) := by
  intro node? node hfound hnode
  match node?, hnode with
  | none, hnode =>
    obtain ⟨table, htable, rfl⟩ := Option.map_eq_some_iff.mp hnode
    have hin := Entries.InRange.nil.assignAll has htable
    refine .tables ?_
    intro entries he
    rw [List.mem_singleton.mp he]
    exact hin
  | some (.tables items), hnode =>
    obtain ⟨table, htable, rfl⟩ := Option.map_eq_some_iff.mp hnode
    have hin := Entries.InRange.nil.assignAll has htable
    cases hfound _ rfl with
    | tables hitems =>
      refine .tables ?_
      intro entries he
      rcases List.mem_append.mp he with he | he
      · exact hitems entries he
      · rw [List.mem_singleton.mp he]
        exact hin

theorem Entries.InRange.addBlock {entries entries' : Entries} (h : entries.InRange) {b : Block}
    (hb : ∀ a ∈ b.assignments, a.InRange) (he : entries.addBlock b = some entries') :
    entries'.InRange := by
  refine h.within ?_ he
  intro entries entries' h he
  refine h.alter ?_ he
  split
  · exact appendTable_keepsRange hb
  · exact openTable_keepsRange hb

/-! ## tables that are closed -/

theorem Node.InRange.close {node : Node} (h : node.InRange) : node.close.InRange := by
  induction h with
  | value h =>
    rw [Node.close]
    exact h
  | table mark h ih =>
    rw [Node.close, closeEntries_eq_map]
    refine .table ?_
    intro e he
    obtain ⟨e', he', rfl⟩ := List.mem_map.mp he
    exact ih e' he'
  | tables h ih =>
    rw [Node.close, closeTables_eq_map]
    refine .array ?_
    intro v hv
    obtain ⟨entries, hentries, rfl⟩ := List.mem_map.mp hv
    rw [closeEntries_eq_map]
    refine .table ?_
    intro e he
    obtain ⟨e', he', rfl⟩ := List.mem_map.mp he
    exact ih entries hentries e' he'

theorem Entries.InRange.close {entries : Entries} (h : entries.InRange) :
    ∀ e ∈ closeEntries entries, e.2.InRange := by
  rw [closeEntries_eq_map]
  intro e he
  obtain ⟨e', he', rfl⟩ := List.mem_map.mp he
  exact (h e' he').close

theorem inlineTable?_inRange {as : List Assignment} (has : ∀ a ∈ as, a.InRange) {v : Toml}
    (h : inlineTable? as = some v) : v.InRange := by
  obtain ⟨entries, hentries, rfl⟩ := Option.map_eq_some_iff.mp h
  exact .table (Entries.InRange.nil.assignAll has hentries).close

/-- every integer of a document fits into 64 bits with a sign -/
def Document.InRange (d : Document) : Prop :=
  (∀ a ∈ d.preamble, a.InRange) ∧ ∀ b ∈ d.blocks, ∀ a ∈ b.assignments, a.InRange

theorem Document.InRange.root {d : Document} (h : d.InRange) {entries : List (String × Toml)}
    (hroot : d.root? = some entries) : ∀ e ∈ entries, e.2.InRange := by
  obtain ⟨front, hfront, hroot⟩ := Option.bind_eq_some_iff.mp hroot
  obtain ⟨all, hall, hroot⟩ := Option.bind_eq_some_iff.mp hroot
  cases hroot
  have hin : front.InRange := Entries.InRange.nil.assignAll h.1 hfront
  have hall : all.InRange :=
    foldlM_keeps (fun _ b hb _ h' he => Entries.InRange.addBlock h' (h.2 b hb) he) hin hall
  exact hall.close

/-! ## values -/

theorem inRange?_spec {n m : Int} (h : inRange? n = some m) : minInteger ≤ m ∧ m ≤ maxInteger := by
  unfold inRange? at h
  split at h
  · next hn =>
    cases h
    exact hn
  · cases h

/-- an integer is read only if it fits, in every base -/
theorem integer?_inRange {word : List Char} {n : Int} (h : integer? word = some n) :
    minInteger ≤ n ∧ n ≤ maxInteger := by
  unfold integer? at h
  split at h
  all_goals
    obtain ⟨m, -, hm⟩ := Option.bind_eq_some_iff.mp h
    exact inRange?_spec hm

theorem scalar?_inRange {word : List Char} {v : Toml} (h : scalar? word = some v) : v.InRange := by
  unfold scalar? at h
  split at h
  · cases h
    exact .boolean true
  split at h
  · cases h
    exact .boolean false
  split at h
  · cases h
    exact .moment _
  split at h
  · next n hn =>
    cases h
    obtain ⟨hlow, hhigh⟩ := integer?_inRange hn
    exact .integer hlow hhigh
  · obtain ⟨x, -, rfl⟩ := Option.map_eq_some_iff.mp h
    exact .float x

theorem word?_inRange {cs rest : List Char} {v : Toml} (h : word? cs = some (v, rest)) : v.InRange := by
  have hscalar : ∀ {word rest'}, (scalar? word).map (·, rest') = some (v, rest) → v.InRange := by
    intro word rest' h
    obtain ⟨v', hv', heq⟩ := Option.map_eq_some_iff.mp h
    cases heq
    exact scalar?_inRange hv'
  unfold word? at h
  dsimp only at h
  split at h
  · split at h
    · cases h
      exact .moment _
    · exact hscalar h
  · exact hscalar h

/-- a reader of values whose integers are in range -/
def ReadsInRange (value : List Char → Option (Toml × List Char)) : Prop :=
  ∀ cs v rest, value cs = some (v, rest) → v.InRange

section

variable {value : List Char → Option (Toml × List Char)} (hvalue : ReadsInRange value)
include hvalue

theorem items?_inRange {fuel : Nat} {cs rest : List Char} {items : List Toml}
    (h : items? value fuel cs = some (items, rest)) : ∀ v ∈ items, v.InRange := by
  induction fuel generalizing cs items with
  | zero => cases h
  | succ fuel ih =>
    rw [items?] at h
    split at h
    · cases h
      exact nofun
    · obtain ⟨⟨item, cs'⟩, hitem, h⟩ := Option.bind_eq_some_iff.mp h
      dsimp only at h
      split at h
      · cases h
        simpa using hvalue _ _ _ hitem
      · obtain ⟨⟨items', cs''⟩, hitems, h⟩ := Option.bind_eq_some_iff.mp h
        cases h
        intro v hv
        rcases List.mem_cons.mp hv with rfl | hv
        · exact hvalue _ _ _ hitem
        · exact ih hitems v hv
      · cases h

theorem assignment?_inRange {cs rest : List Char} {a : Assignment}
    (h : assignment? value cs = some (a, rest)) : a.InRange := by
  obtain ⟨⟨key, cs'⟩, hkey, h⟩ := Option.bind_eq_some_iff.mp h
  dsimp only at h
  split at h
  · obtain ⟨⟨v, cs''⟩, hv, h⟩ := Option.bind_eq_some_iff.mp h
    cases h
    exact hvalue _ _ _ hv
  · cases h

theorem inlineAssignments?_inRange {fuel : Nat} {cs rest : List Char} {as : List Assignment}
    (h : inlineAssignments? value fuel cs = some (as, rest)) : ∀ a ∈ as, a.InRange := by
  induction fuel generalizing cs as with
  | zero => cases h
  | succ fuel ih =>
    obtain ⟨⟨a, cs'⟩, ha, h⟩ := Option.bind_eq_some_iff.mp h
    have hin := assignment?_inRange hvalue ha
    dsimp only at h
    split at h
    · cases h
      simpa using hin
    · obtain ⟨⟨as', cs''⟩, has, h⟩ := Option.bind_eq_some_iff.mp h
      cases h
      intro b hb
      rcases List.mem_cons.mp hb with rfl | hb
      · exact hin
      · exact ih has b hb
    · cases h

theorem inlineRest?_inRange {fuel : Nat} {cs rest : List Char} {v : Toml}
    (h : inlineRest? value fuel cs = some (v, rest)) : v.InRange := by
  unfold inlineRest? at h
  split at h
  · cases h
    exact .table nofun
  · obtain ⟨⟨as, cs'⟩, has, h⟩ := Option.bind_eq_some_iff.mp h
    obtain ⟨table, htable, h⟩ := Option.bind_eq_some_iff.mp h
    cases h
    exact inlineTable?_inRange (inlineAssignments?_inRange hvalue has) htable

end

/-- **A value that is read has its integers in range**, however deep they lie in it. -/
theorem value?_inRange (fuel depth : Nat) : ReadsInRange (value? fuel depth) := by
  induction depth with
  | zero =>
    intro cs v rest h
    unfold value? at h
    split at h
    · cases h
    split at h
    · obtain ⟨⟨text, rest'⟩, -, heq⟩ := Option.map_eq_some_iff.mp h
      cases heq
      exact .string _
    split at h
    · cases h
    split at h
    · cases h
    · exact word?_inRange h
  | succ depth ih =>
    intro cs v rest h
    unfold value? at h
    split at h
    · cases h
    split at h
    · obtain ⟨⟨text, rest'⟩, -, heq⟩ := Option.map_eq_some_iff.mp h
      cases heq
      exact .string _
    split at h
    · obtain ⟨⟨items, rest'⟩, hitems, heq⟩ := Option.map_eq_some_iff.mp h
      cases heq
      exact .array (items?_inRange ih hitems)
    split at h
    · exact inlineRest?_inRange ih h
    · exact word?_inRange h

/-! ## documents -/

def Line.InRange : Line → Prop
  | .assignment a => a.InRange
  | _ => True

theorem lineBody?_inRange {fuel : Nat} {cs rest : List Char} {line : Line}
    (h : lineBody? fuel cs = some (line, rest)) : line.InRange := by
  have hheader : ∀ {isArray cs}, header? isArray cs = some (line, rest) → line.InRange := by
    intro isArray cs h
    obtain ⟨⟨key, cs'⟩, -, h⟩ := Option.bind_eq_some_iff.mp h
    dsimp only at h
    split at h
    · cases h
      trivial
    · cases h
      trivial
    · cases h
  unfold lineBody? at h
  split at h
  · cases h
    trivial
  · cases h
    trivial
  · cases h
    trivial
  · cases h
    trivial
  · exact hheader h
  · exact hheader h
  · obtain ⟨⟨a, cs'⟩, ha, heq⟩ := Option.map_eq_some_iff.mp h
    cases heq
    exact assignment?_inRange (value?_inRange fuel _) ha

theorem lines?_inRange {fuel : Nat} {cs : List Char} {lines : List Line}
    (h : lines? fuel cs = some lines) : ∀ line ∈ lines, line.InRange := by
  induction fuel, cs using lines?.induct generalizing lines with
  | case1 fuel =>
    rw [lines?] at h
    cases h
    exact nofun
  | case2 cs hcs =>
    rw [lines?] at h
    · cases h
    · exact hcs
  | case3 cs fuel hcs ih =>
    rw [lines?] at h
    on_goal 2 => exact hcs
    obtain ⟨⟨line, cs'⟩, hline, h⟩ := Option.bind_eq_some_iff.mp h
    obtain ⟨lines', hlines, h⟩ := Option.bind_eq_some_iff.mp h
    obtain ⟨⟨line', body⟩, hbody, hline⟩ := Option.bind_eq_some_iff.mp hline
    obtain ⟨rest, -, hline⟩ := Option.bind_eq_some_iff.mp hline
    cases h
    cases hline
    intro l hl
    rcases List.mem_cons.mp hl with rfl | hl
    · exact lineBody?_inRange hbody
    · exact ih _ hlines l hl

theorem Document.ofLines_inRange {lines : List Line} (h : ∀ line ∈ lines, line.InRange) :
    (ofLines lines).InRange := by
  induction lines with
  | nil => exact ⟨nofun, nofun⟩
  | cons line lines ih =>
    obtain ⟨hfront, hblocks⟩ := ih fun l hl => h l (List.mem_cons_of_mem _ hl)
    cases line with
    | blank => exact ⟨hfront, hblocks⟩
    | assignment a =>
      refine ⟨?_, hblocks⟩
      intro b hb
      rcases List.mem_cons.mp hb with rfl | hb
      · exact h (.assignment b) List.mem_cons_self
      · exact hfront b hb
    | header isArray key =>
      refine ⟨nofun, ?_⟩
      intro b hb
      rcases List.mem_cons.mp hb with rfl | hb
      · exact hfront
      · exact hblocks b hb

/-- **A document that is read has its integers in range.** -/
theorem read?_inRange {cs : List Char} {entries : List (String × Toml)} (h : read? cs = some entries) :
    ∀ e ∈ entries, e.2.InRange := by
  obtain ⟨d, hd, hroot⟩ := Option.bind_eq_some_iff.mp h
  obtain ⟨lines, hlines, rfl⟩ := Option.map_eq_some_iff.mp hd
  exact (Document.ofLines_inRange (lines?_inRange hlines)).root hroot

end DeskClock.Toml
