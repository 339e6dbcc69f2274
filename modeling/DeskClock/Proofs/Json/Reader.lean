import DeskClock.Proofs.Json.Scanner

/-!
# texts are read as the values that they are texts of

* `Series`             how parts with commas between them are read;
* `yields_tokens`      the tokens of a value are read as it;
* `State.Read`         the tokens that lead to a state;
* `read_step`          one more token leads to the next state;
* `read?_eq_some_iff`  a text is read as a value just if it is a text of it;
* `Text.unique`        so a text is that of one value only;
* `read?_append`       behind an object there may be blanks, and nothing else.
-/

namespace DeskClock.Json

/-! ## the tokens of a value are read as it -/

/-- How the parts of an array or of an object are read: the states before and behind a part, by the
parts so far, the latest first, and the state behind the end. -/
structure Series (α : Type) where
  tokens : α → List Token
  before : List α → State
  behind : List α → State
  last : Token
  closed : List α → State
  step_comma : ∀ parts, step? (behind parts) .comma = some (before parts)
  step_last : ∀ parts, step? (behind parts) last = some (closed parts)

namespace Series

def ofItems (outer : List Open) : Series Value where
  tokens v := v.tokens
  before items := .value (.array items :: outer)
  behind items := .afterItem items outer
  last := .closeBracket
  closed items := complete (.array items.reverse) outer
  step_comma _ := rfl
  step_last _ := rfl

def ofMembers (outer : List Open) : Series (List UInt8 × Value) where
  tokens m := memberTokens m.1 m.2.tokens
  before members := .name members outer
  behind members := .afterMember members outer
  last := .closeBrace
  closed members := complete (.object members.reverse) outer
  step_comma _ := rfl
  step_last _ := rfl

theorem foldlM_separated {α : Type} (s : Series α) {parts : List α} (hne : parts ≠ [])
    (h : ∀ part ∈ parts, ∀ read,
      (s.tokens part).foldlM step? (s.before read) = some (s.behind (part :: read)))
    (read : List α) :
    (separated (parts.map s.tokens) ++ [s.last]).foldlM step? (s.before read)
      = some (s.closed (parts.reverse ++ read)) := by
  induction parts generalizing read with
  | nil => exact absurd rfl hne
  | cons part parts ih =>
    have hpart := h part List.mem_cons_self read
    by_cases hnil : parts = []
    · rw [hnil, List.map_singleton, separated_singleton, List.foldlM_append, hpart]
      show (step? (s.behind (part :: read)) s.last >>= _) = _
      rw [s.step_last]
      rfl
    · have hrest := ih hnil (fun p hp => h p (List.mem_cons_of_mem _ hp)) (part :: read)
      have hmap : parts.map s.tokens ≠ [] := fun e => hnil (List.map_eq_nil_iff.mp e)
      rw [List.map_cons, separated_cons _ hmap, List.append_assoc, List.foldlM_append, hpart]
      show (step? (s.behind (part :: read)) .comma >>= _) = _
      rw [s.step_comma, List.reverse_cons, List.append_assoc]
      exact hrest

end Series

/-- the first item of an array is read as the later ones -/
theorem foldlM_firstItem (v : Value) (tokens : List Token) (outer : List Open) :
    (v.tokens ++ tokens).foldlM step? (.firstItem outer)
      = (v.tokens ++ tokens).foldlM step? (.value (.array [] :: outer)) := by
  cases v with
  | _ =>
    rw [Value.tokens]
    rfl

/-- **The tokens of a value are read as it.** -/
theorem yields_tokens (v : Value) : Yields v.tokens v := by
  induction v using Value.tokens.induct with
  | case1 | case2 b | case3 n | case4 raw =>
    intro outer
    rw [Value.tokens]
    rfl
  | case5 items ih =>
    intro outer
    rw [Value.tokens]
    show (separated _ ++ [Token.closeBracket]).foldlM step? (.firstItem outer) = _
    cases items with
    | nil => rfl
    | cons v items =>
      have hread := (Series.ofItems outer).foldlM_separated (List.cons_ne_nil v items)
        (fun w hw read => ih w hw (.array read :: outer)) []
      -- the first item is read in a state of its own, where the array may end
      obtain ⟨more, hmore⟩ := exists_separated v.tokens (items.map fun v => v.tokens)
      rw [List.map_cons, hmore, List.append_assoc, foldlM_firstItem, ← List.append_assoc, ← hmore]
      rw [List.append_nil] at hread
      exact hread.trans
        (congrArg (fun read => some (complete (.array read) outer)) (List.reverse_reverse _))
  | case6 members ih =>
    intro outer
    rw [Value.tokens]
    show (separated _ ++ [Token.closeBrace]).foldlM step? (.firstName outer) = _
    cases members with
    | nil => rfl
    | cons m members =>
      have hread := (Series.ofMembers outer).foldlM_separated (List.cons_ne_nil m members)
        (fun m hm read => foldlM_member (ih m hm) read outer) []
      obtain ⟨more, hmore⟩ := exists_separated (memberTokens m.1 m.2.tokens)
        (members.map fun m => memberTokens m.1 m.2.tokens)
      have hfirst : ∀ tokens, (memberTokens m.1 m.2.tokens ++ tokens).foldlM step? (.firstName outer)
          = (memberTokens m.1 m.2.tokens ++ tokens).foldlM step? (.name [] outer) := fun _ => rfl
      rw [List.map_cons, hmore, List.append_assoc, hfirst, ← List.append_assoc, ← hmore]
      rw [List.append_nil] at hread
      exact hread.trans
        (congrArg (fun read => some (complete (.object read) outer)) (List.reverse_reverse _))

/-! ## the tokens that lead to a state -/

/-- some parts with a comma behind each -/
def followed (parts : List (List Token)) : List Token := parts.flatMap (· ++ [.comma])

theorem followed_concat (parts : List (List Token)) (part : List Token) :
    followed (parts ++ [part]) = followed parts ++ (part ++ [.comma]) := by
  rw [followed, List.flatMap_append, List.flatMap_singleton]
  rfl

theorem separated_concat (parts : List (List Token)) (part : List Token) :
    separated (parts ++ [part]) = followed parts ++ part := by
  induction parts with
  | nil => exact separated_singleton part
  | cons part' parts ih =>
    have hne : parts ++ [part] ≠ [] :=
      List.append_ne_nil_of_right_ne_nil _ (List.cons_ne_nil part [])
    rw [List.cons_append, separated_cons part' hne, ih, followed, followed, List.flatMap_cons,
      List.append_assoc, List.append_assoc]
    rfl

/-- the tokens in front of what is open -/
def opened : List Open → List Token
  | [] => []
  | .array items :: outer =>
    opened outer ++ .openBracket :: followed (items.reverse.map Value.tokens)
  | .object members name :: outer =>
    opened outer ++ .openBrace
      :: (followed (members.reverse.map fun m => memberTokens m.1 m.2.tokens) ++ [.text name, .colon])

/-- The tokens that lead to a state. -/
inductive State.Read : State → List Token → Prop where
  | value (outer : List Open) : Read (.value outer) (opened outer)
  | firstItem (outer : List Open) : Read (.firstItem outer) (opened outer ++ [.openBracket])
  | firstName (outer : List Open) : Read (.firstName outer) (opened outer ++ [.openBrace])
  | name (members : List (List UInt8 × Value)) (outer : List Open) :
      Read (.name members outer) (opened outer
        ++ .openBrace :: followed (members.reverse.map fun m => memberTokens m.1 m.2.tokens))
  | colon (members : List (List UInt8 × Value)) (name : List UInt8) (outer : List Open) :
      Read (.colon members name outer) (opened outer
        ++ .openBrace :: (followed (members.reverse.map fun m => memberTokens m.1 m.2.tokens)
          ++ [.text name]))
  | afterItem (v : Value) (items : List Value) (outer : List Open) :
      Read (.afterItem (v :: items) outer) (opened (.array items :: outer) ++ v.tokens)
  | afterMember (name : List UInt8) (v : Value) (members : List (List UInt8 × Value))
      (outer : List Open) : Read (.afterMember ((name, v) :: members) outer)
        (opened (.object members name :: outer) ++ v.tokens)
  | done (v : Value) : Read (.done v) v.tokens

theorem read_complete (v : Value) (outer : List Open) :
    (complete v outer).Read (opened outer ++ v.tokens) := by
  cases outer with
  | nil => exact .done v
  | cons o outer =>
    cases o with
    | array items => exact .afterItem v items outer
    | object members name => exact .afterMember name v members outer

theorem read_start {outer : List Open} {token : Token} {state : State}
    (h : start? outer token = some state) : state.Read (opened outer ++ [token]) := by
  have leaf {v : Value} (hv : v.tokens = [token]) :
      (complete v outer).Read (opened outer ++ [token]) := hv ▸ read_complete v outer
  cases token with
  | null | boolean b | number n | text raw =>
    cases h
    exact leaf (by rw [Value.tokens])
  | openBracket =>
    cases h
    exact .firstItem outer
  | openBrace =>
    cases h
    exact .firstName outer
  | _ => cases h

theorem tokens_array (items : List Value) (v : Value) :
    (Value.array (v :: items).reverse).tokens
      = .openBracket :: (followed (items.reverse.map Value.tokens) ++ v.tokens ++ [.closeBracket]) := by
  rw [Value.tokens, enclosed, List.reverse_cons, List.map_append, List.map_singleton, separated_concat]

theorem tokens_object (members : List (List UInt8 × Value)) (m : List UInt8 × Value) :
    (Value.object (m :: members).reverse).tokens
      = .openBrace :: (followed (members.reverse.map fun m => memberTokens m.1 m.2.tokens)
          ++ memberTokens m.1 m.2.tokens ++ [.closeBrace]) := by
  rw [Value.tokens, enclosed, List.reverse_cons, List.map_append, List.map_singleton, separated_concat]

/-- **One more token leads to the next state.** -/
theorem read_step {state state' : State} {tokens : List Token} {token : Token}
    (hr : state.Read tokens) (h : step? state token = some state') :
    state'.Read (tokens ++ [token]) := by
  fun_cases step? state token with
  | case1 outer token =>
    cases hr
    exact read_start h
  | case2 outer =>
    cases hr
    cases h
    have hread := read_complete (.array []) outer
    rw [Value.tokens] at hread
    rw [List.append_assoc]
    exact hread
  | case3 outer token hne =>
    cases hr
    rw [step?] at h
    · exact read_start h
    · exact hne
  | case4 outer =>
    cases hr
    cases h
    have hread := read_complete (.object []) outer
    rw [Value.tokens] at hread
    rw [List.append_assoc]
    exact hread
  | case5 outer raw =>
    cases hr
    cases h
    rw [List.append_assoc]
    exact .colon [] raw outer
  | case6 members outer raw =>
    cases hr
    cases h
    rw [List.append_assoc, List.cons_append]
    exact .colon members raw outer
  | case7 members name outer =>
    cases hr
    cases h
    rw [List.append_assoc, List.cons_append, List.append_assoc]
    exact .value (.object members name :: outer)
  | case8 items outer =>
    cases hr with
    | afterItem v items =>
      cases h
      have hread := State.Read.value (.array (v :: items) :: outer)
      rw [opened, List.reverse_cons, List.map_append, List.map_singleton, followed_concat] at hread
      rw [opened, List.append_assoc, List.append_assoc, List.cons_append]
      exact hread
  | case9 items outer =>
    cases hr with
    | afterItem v items =>
      cases h
      have hread := read_complete (.array (v :: items).reverse) outer
      rw [tokens_array, List.append_assoc] at hread
      rw [opened, List.append_assoc, List.append_assoc, List.cons_append]
      exact hread
  | case10 members outer =>
    cases hr with
    | afterMember name v members =>
      cases h
      have hread := State.Read.name ((name, v) :: members) outer
      rw [List.reverse_cons, List.map_append, List.map_singleton, followed_concat] at hread
      rw [opened, List.append_assoc, List.append_assoc, List.cons_append, List.append_assoc]
      exact hread
  | case11 members outer =>
    cases hr with
    | afterMember name v members =>
      cases h
      have hread := read_complete (.object ((name, v) :: members).reverse) outer
      rw [tokens_object, List.append_assoc] at hread
      rw [opened, List.append_assoc, List.append_assoc, List.cons_append, List.append_assoc]
      exact hread
  | case12 state token h1 h2 h3 h4 h5 h6 h7 h8 h9 h10 h11 =>
    rw [step?] at h
    · cases h
    all_goals assumption

theorem read_foldlM {state state' : State} {before tokens : List Token} (hr : state.Read before)
    (h : tokens.foldlM step? state = some state') : state'.Read (before ++ tokens) := by
  induction tokens generalizing state before with
  | nil =>
    cases h
    rw [List.append_nil]
    exact hr
  | cons token tokens ih =>
    rw [List.foldlM_cons] at h
    obtain ⟨next, hstep, hrest⟩ := Option.bind_eq_some_iff.mp h
    rw [List.append_cons]
    exact ih (read_step hr hstep) hrest

/-- **Only the tokens of a value are read as it.** -/
theorem ofTokens?_eq_some_iff {tokens : List Token} {v : Value} :
    ofTokens? tokens = some v ↔ tokens = v.tokens := by
  constructor
  · intro h
    rw [ofTokens?] at h
    split at h
    · next found hread =>
      cases h
      have hr := read_foldlM (.value []) hread
      rw [opened, List.nil_append] at hr
      cases hr
      rfl
    · cases h
  · rintro rfl
    rw [ofTokens?, yields_tokens v []]
    rfl

/-! ## texts -/

/-- **A text is read as a value just if it is a text of it.** -/
theorem read?_eq_some_iff {bs : List UInt8} {v : Value} : read? bs = some v ↔ v.Text bs := by
  constructor
  · intro h
    obtain ⟨tokens, hcut, hread⟩ := Option.bind_eq_some_iff.mp h
    have hlaid := tokens?_sound hcut
    rw [ofTokens?_eq_some_iff.mp hread] at hlaid
    exact hlaid
  · intro h
    have hcut : tokens? (bs ++ []) = some (v.tokens ++ []) :=
      tokens?_laid h v.apart_tokens fun _ _ _ _ hb => by cases hb
    rw [List.append_nil, List.append_nil] at hcut
    rw [read?, hcut]
    exact ofTokens?_eq_some_iff.mpr rfl

/-- a text is that of one value only -/
theorem Value.Text.unique {bs : List UInt8} {v w : Value} (hv : v.Text bs) (hw : w.Text bs) : v = w :=
  Option.some.inj ((read?_eq_some_iff.mpr hv).symm.trans (read?_eq_some_iff.mpr hw))

theorem blank_of_laid_nil {bs : List UInt8} (h : Laid [] bs) : ∀ b ∈ bs, isBlankByte b = true := by
  generalize htokens : ([] : List Token) = tokens at h
  induction h with
  | nil => exact fun b hb => absurd hb List.not_mem_nil
  | blank hb h ih => exact List.forall_mem_cons.mpr ⟨hb, ih htokens⟩
  | token => cases htokens

/-- **Behind an object there may be blanks, and nothing else.** -/
theorem read?_append {members : List (List UInt8 × Value)} {bs tail : List UInt8}
    (h : (Value.object members).Text bs) (ht : ∃ b ∈ tail, isBlankByte b = false) :
    read? (bs ++ tail) = none := by
  have hlast : ∀ token ∈ (Value.object members).tokens.getLast?,
      token.isNumber = true → Stops tail := by
    rw [Value.tokens, enclosed, List.getLast?_cons, List.getLast?_concat]
    rintro _ ⟨⟩ hnumber
    cases hnumber
  rw [read?, tokens?_laid h (Value.apart_tokens _) hlast]
  cases hcut : tokens? tail with
  | none => rfl
  | some more =>
    -- no token goes on from the state `done`
    cases more with
    | nil =>
      obtain ⟨b, hb, hblank⟩ := ht
      rw [blank_of_laid_nil (tokens?_sound hcut) b hb] at hblank
      cases hblank
    | cons token more =>
      show ofTokens? ((Value.object members).tokens ++ token :: more) = none
      rw [ofTokens?, List.foldlM_append, yields_tokens _ []]
      rfl

end DeskClock.Json
