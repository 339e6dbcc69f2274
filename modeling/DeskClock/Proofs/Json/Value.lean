import DeskClock.Proofs.Json.Token
import DeskClock.Weather.Cache

/-!
# written JSON is read back

* `Yields`          some tokens are those of a value, inside any arrays and objects;
* `Writes`          a text is written for a value: it is cut into such tokens;
* `Member`          a member of an object with the text of its value;
* `writes_text`, `writes_number`, `writes_object`   the texts that are written;
* `read?_of_writes` a text is read as the value that it is written for;
* `fields?_object`  the fields of an object that is written with different names.
-/

namespace DeskClock.Json

open Utf8

/-! ## the values of tokens -/

def Yields (tokens : List Token) (v : Value) : Prop :=
  ∀ outer, tokens.foldlM step? (.value outer) = some (complete v outer)

/-- the name of a member, and what is read for its value -/
def memberTokens (raw : List UInt8) (tokens : List Token) : List Token :=
  .text raw :: .colon :: tokens

theorem foldlM_member {raw : List UInt8} {tokens : List Token} {v : Value} (h : Yields tokens v)
    (members : List (List UInt8 × Value)) (outer : List Open) :
    (memberTokens raw tokens).foldlM step? (.name members outer)
      = some (.afterMember ((raw, v) :: members) outer) :=
  h (.object members raw :: outer)

/-- a member of an object: its name, and a text for its value -/
structure Member where
  name : String
  text : List Char
  tokens : List Token
  value : Value
  spells : Spells Stops (encode text) tokens
  yields : Yields tokens value

namespace Member

def raw (m : Member) : List UInt8 := rawText m.name.toList

/-- the tokens of further members, and of the end of the object -/
def tailTokens (ms : List Member) : List Token :=
  ms.flatMap (fun m => .comma :: memberTokens m.raw m.tokens) ++ [.closeBrace]

theorem tailTokens_cons (m : Member) (ms : List Member) :
    tailTokens (m :: ms) = .comma :: (memberTokens m.raw m.tokens ++ tailTokens ms) := by
  rw [tailTokens, List.flatMap_cons, List.append_assoc, List.cons_append]
  rfl

theorem foldlM_tail (ms : List Member) (members : List (List UInt8 × Value)) (outer : List Open) :
    (tailTokens ms).foldlM step? (.afterMember members outer)
      = some (complete (.object (members.reverse ++ ms.map fun m => (m.raw, m.value))) outer) := by
  induction ms generalizing members with
  | nil =>
    rw [List.map_nil, List.append_nil]
    rfl
  | cons m ms ih =>
    rw [tailTokens_cons, List.foldlM_cons]
    show (memberTokens m.raw m.tokens ++ tailTokens ms).foldlM step? (.name members outer) = _
    rw [List.foldlM_append, foldlM_member m.yields]
    show (tailTokens ms).foldlM step? (.afterMember ((m.raw, m.value) :: members) outer) = _
    rw [ih, List.reverse_cons, List.append_assoc]
    rfl

theorem yields_object (m : Member) (ms : List Member) :
    Yields (.openBrace :: (memberTokens m.raw m.tokens ++ tailTokens ms))
      (.object ((m :: ms).map fun m => (m.raw, m.value))) := by
  intro outer
  rw [List.foldlM_cons]
  show (memberTokens m.raw m.tokens ++ tailTokens ms).foldlM step? (.firstName outer) = _
  rw [List.foldlM_append]
  have hfirst : (memberTokens m.raw m.tokens).foldlM step? (.firstName outer)
      = some (.afterMember [(m.raw, m.value)] outer) := m.yields (.object [] m.raw :: outer)
  rw [hfirst]
  exact foldlM_tail ms [(m.raw, m.value)] outer

end Member

/-! ## the texts of values -/

/-- a text is written for a value -/
def Writes (text : List Char) (v : Value) : Prop :=
  ∃ tokens, Spells Stops (encode text) tokens ∧ Yields tokens v

theorem Spells.stops {bs : List UInt8} {tokens : List Token} (h : Spells Any bs tokens) :
    Spells Stops bs tokens := ⟨h.1, fun fuel rest _ => h.2 fuel rest trivial⟩

theorem writes_text (cs : List Char) : Writes (writeText cs) (.text (rawText cs)) :=
  ⟨_, (spells_text cs).stops, fun _ => rfl⟩

theorem writes_number {n : Numeral} (hn : n.Valid) :
    Writes ((if n.negative then ['-'] else []) ++ n.body) (.number n) :=
  ⟨_, spells_number hn, fun _ => rfl⟩

/-- a text is read as the value that it is written for -/
theorem read?_of_writes {text : List Char} {v : Value} (h : Writes text v) :
    read? (encode text) = some v := by
  obtain ⟨tokens, hs, hy⟩ := h
  rw [read?, tokens?_of_spells hs (fun b hb => by cases hb), Option.bind_some, ofTokens?, hy []]
  rfl

/-! ## the texts of objects -/

theorem spells_mark {c : Char} {token : Token} (hc : c.toNat < 0x80)
    (hb : isBlankByte (byte c) = false) (h : ∀ rest, next? (byte c) rest = some (token, rest)) :
    Spells Any (encode [c]) [token] := by
  rw [encode_ascii hc]
  exact spells_one hb fun rest _ => h rest

namespace Member

def chars (m : Member) : List Char := jsonMember m.name m.text

theorem spells_member (m : Member) :
    Spells Stops (encode m.chars) (memberTokens m.raw m.tokens) := by
  have hcolon : Spells Any (encode [':']) [.colon] := spells_mark (by decide) rfl fun _ => rfl
  have h := (spells_text m.name.toList).append (hcolon.append m.spells fun _ _ => trivial)
    fun _ _ => trivial
  rw [← encode_append, ← encode_append] at h
  exact h

/-- the text of further members, and of the end of the object -/
def tail (ms : List Member) : List Char := ms.flatMap (fun m => ',' :: m.chars) ++ ['}']

theorem tail_cons (m : Member) (ms : List Member) : tail (m :: ms) = ',' :: (m.chars ++ tail ms) := by
  rw [tail, List.flatMap_cons, List.append_assoc, List.cons_append]
  rfl

theorem stops_tail (ms : List Member) (rest : List UInt8) : Stops (encode (tail ms) ++ rest) := by
  cases ms with
  | nil =>
    rintro b ⟨⟩
    exact ⟨rfl, by decide, by decide, by decide⟩
  | cons m ms =>
    rintro b ⟨⟩
    exact ⟨rfl, by decide, by decide, by decide⟩

theorem spells_tail (ms : List Member) : Spells Any (encode (tail ms)) (tailTokens ms) := by
  induction ms with
  | nil => exact spells_mark (by decide) rfl fun _ => rfl
  | cons m ms ih =>
    have hcomma : Spells Any (encode [',']) [.comma] := spells_mark (by decide) rfl fun _ => rfl
    have h := hcomma.append (m.spells_member.append ih fun rest _ => stops_tail ms rest)
      fun _ _ => trivial
    rw [← encode_append, ← encode_append] at h
    rw [tail_cons, tailTokens_cons]
    exact h

theorem intercalate_eq (m : Member) (ms : List Member) :
    [','].intercalate ((m :: ms).map chars) ++ ['}'] = m.chars ++ tail ms := by
  induction ms generalizing m with
  | nil =>
    rw [List.map_singleton, List.intercalate_singleton]
    rfl
  | cons m' ms ih =>
    have h := ih m'
    rw [List.map_cons] at h
    rw [List.map_cons, List.map_cons, List.intercalate_cons_cons, List.append_assoc,
      List.append_assoc, h, tail_cons]
    rfl

end Member

/-- **The text of an object is written for it.** -/
theorem writes_object (m : Member) (ms : List Member) :
    Writes (jsonObject ((m :: ms).map Member.chars))
      (.object ((m :: ms).map fun m => (m.raw, m.value))) := by
  have hbrace : Spells Any (encode ['{']) [.openBrace] := spells_mark (by decide) rfl fun _ => rfl
  have h := hbrace.append (m.spells_member.append (Member.spells_tail ms)
    fun rest _ => Member.stops_tail ms rest) fun _ _ => trivial
  rw [← encode_append, ← encode_append, ← Member.intercalate_eq] at h
  exact ⟨_, h.stops, Member.yields_object m ms⟩

/-! ## the fields of an object -/

theorem filter_name {name : String} {members : List (String × Value)} {v : Value}
    (h : (name, v) ∈ members) (hn : (members.map Prod.fst).Nodup) :
    members.filter (fun m => m.1 == name) = [(name, v)] := by
  induction members with
  | nil => cases h
  | cons m members ih =>
    obtain ⟨hfresh, hn'⟩ := List.nodup_cons.mp hn
    rcases List.mem_cons.mp h with rfl | h
    · have hnone : members.filter (fun m => m.1 == name) = [] := by
        rw [List.filter_eq_nil_iff]
        intro m hm he
        apply hfresh
        have hname : m.1 ∈ members.map Prod.fst := List.mem_map_of_mem hm
        rw [eq_of_beq he] at hname
        exact hname
      rw [List.filter_cons, if_pos (beq_self_eq_true name), hnone]
    · have hne : ¬ (m.1 == name) = true := by
        intro he
        apply hfresh
        rw [eq_of_beq he]
        exact List.mem_map_of_mem h
      rw [List.filter_cons, if_neg hne, ih h hn']

theorem only?_eq {name : String} {members : List (String × Value)} {v : Value}
    (h : (name, v) ∈ members) (hn : (members.map Prod.fst).Nodup) :
    Value.only? name members = some v := by
  rw [Value.only?, filter_name h hn]

theorem mapM_eq_map {α β : Type} {f : α → Option β} {g : α → β} {l : List α}
    (h : ∀ a ∈ l, f a = some (g a)) : l.mapM f = some (l.map g) := by
  induction l with
  | nil => rfl
  | cons a l ih =>
    rw [List.mapM_cons, h a List.mem_cons_self, ih fun b hb => h b (List.mem_cons_of_mem _ hb)]
    rfl

/-- **The fields of an object that is written** are the values of its members, if no name comes
twice. -/
theorem fields?_object (ms : List Member) (hn : (ms.map Member.name).Nodup) :
    Value.fields? (ms.map Member.name) (.object (ms.map fun m => (m.raw, m.value)))
      = some (ms.map Member.value) := by
  have hnames : (ms.map fun m => (m.raw, m.value)).mapM
      (fun (p : List UInt8 × Value) => (string? p.1).map fun name => (name, p.2))
        = some (ms.map fun m => (m.name, m.value)) := by
    rw [List.mapM_map]
    apply mapM_eq_map
    intro m _
    show (string? m.raw).map (fun name => (name, m.value)) = _
    rw [Member.raw, string?_rawText]
    rfl
  have hvalues : (ms.map Member.name).mapM
      (fun name => Value.only? name (ms.map fun m => (m.name, m.value))) = some (ms.map Member.value) := by
    rw [List.mapM_map]
    apply mapM_eq_map
    intro m hm
    apply only?_eq
    · exact List.mem_map_of_mem hm
    · rw [List.map_map]
      exact hn
  show ((ms.map fun m => (m.raw, m.value)).mapM
    (fun (p : List UInt8 × Value) => (string? p.1).map fun name => (name, p.2)) >>= _) = _
  rw [hnames]
  exact hvalues

end DeskClock.Json
