import DeskClock.CommandLine
import Mathlib

/-!
# the grammar of the command line

A command line is read from left to right in groups, each an option with its value, if it takes one. A value
may be any word, also one that looks like an option.

* `Group`, `write`        an option with its value; the words of some groups, one after the other;
* `write_injective`       no other groups have the same words;
* `ofGroups`              what groups say: the last value of each kind, and which flags are among them;
                          `ofGroups_rearranged`: the order of groups of different kinds does not matter;
* `parseFrom_write`       groups are read one after the other; `foldl_apply`: what they say is read;
* `Stop`                  where reading ends, and with which fault; `exists_write_append`: somewhere it ends;
* `parse_eq_iff`          what is read are the groups in front of the stop;
* `parse_iff_write`       exactly the words of groups are parsed, and each fault has its condition.
-/

namespace DeskClock

namespace Arguments

/-! ## groups of words -/

inductive Kind where
  | config
  | weatherAppid
  | stdout
  | setTime
deriving DecidableEq

/-- an option with its value, if it takes one; the option of the key has two spellings -/
inductive Group where
  | config (path : String)
  | weatherAppid (underscore : Bool) (key : String)
  | stdout
  | setTime
deriving DecidableEq

/-- the option of the key -/
def keyOption (underscore : Bool) : String := if underscore then "--weather_appid" else "--weather-appid"

/-- the words that are options -/
def options : List String := ["--config", keyOption false, keyOption true, "--stdout", "--set-time"]

namespace Group

def kind : Group → Kind
  | config _ => .config
  | weatherAppid _ _ => .weatherAppid
  | stdout => .stdout
  | setTime => .setTime

def words : Group → List String
  | config path => ["--config", path]
  | weatherAppid underscore key => [keyOption underscore, key]
  | stdout => ["--stdout"]
  | setTime => ["--set-time"]

def path? : Group → Option String
  | config path => some path
  | _ => none

def key? : Group → Option String
  | weatherAppid _ key => some key
  | _ => none

theorem words_append_inj {g g' : Group} {rest rest' : List String}
    (h : g.words ++ rest = g'.words ++ rest') : g = g' ∧ rest = rest' := by
  rcases g with path | ⟨_ | _, key⟩ | _ | _
  all_goals
    rcases g' with path' | ⟨_ | _, key'⟩ | _ | _
    all_goals simp [words, keyOption] at h ⊢
    all_goals exact h

end Group

/-- the words of some groups, one after the other -/
def write (groups : List Group) : List String := groups.flatMap Group.words

theorem write_cons (g : Group) (groups : List Group) : write (g :: groups) = g.words ++ write groups :=
  List.flatMap_cons

/-- **Words are those of groups in one way at most.** -/
theorem write_injective : Function.Injective write := by
  have hne : ∀ (g : Group) (groups : List Group), write (g :: groups) ≠ write [] := by
    intro g groups h
    rw [write_cons] at h
    cases g <;> cases h
  intro groups groups' h
  induction groups generalizing groups' with
  | nil =>
    cases groups' with
    | nil => rfl
    | cons g' groups' => exact absurd h.symm (hne g' groups')
  | cons g groups ih =>
    cases groups' with
    | nil => exact absurd h (hne g groups)
    | cons g' groups' =>
      rw [write_cons, write_cons] at h
      obtain ⟨rfl, hrest⟩ := Group.words_append_inj h
      rw [ih hrest]

/-! ## what groups say -/

/-- the last value of each kind, and which flags are there -/
def ofGroups (groups : List Group) : Arguments where
  config := (groups.filterMap Group.path?).getLast?
  weatherAppid := (groups.filterMap Group.key?).getLast?
  stdout := groups.contains .stdout
  setTime := groups.contains .setTime

/-- a value follows from the groups of its kind -/
theorem filterMap_filter_kind {α : Type} {kind : Kind} {value? : Group → Option α}
    (h : ∀ g, g.kind ≠ kind → value? g = none) (groups : List Group) :
    (groups.filter (·.kind = kind)).filterMap value? = groups.filterMap value? := by
  rw [List.filterMap_filter]
  refine List.filterMap_congr fun g _ => ?_
  by_cases hg : g.kind = kind
  · rw [if_pos (decide_eq_true hg)]
  · rw [h g hg, ite_self]

theorem contains_filter_kind (g : Group) (groups : List Group) :
    (groups.filter (·.kind = g.kind)).contains g = groups.contains g := by
  rw [Bool.eq_iff_iff, List.contains_iff_mem, List.contains_iff_mem, List.mem_filter]
  exact and_iff_left (decide_eq_true rfl)

/-- **The order of groups of different kinds does not matter.** -/
theorem ofGroups_rearranged {groups groups' : List Group}
    (h : ∀ kind, groups.filter (·.kind = kind) = groups'.filter (·.kind = kind)) :
    ofGroups groups = ofGroups groups' := by
  have hpath : ∀ g : Group, g.kind ≠ .config → g.path? = none := by
    rintro (_ | _ | _ | _) hg
    · exact absurd rfl hg
    all_goals rfl
  have hkey : ∀ g : Group, g.kind ≠ .weatherAppid → g.key? = none := by
    rintro (_ | _ | _ | _) hg
    · rfl
    · exact absurd rfl hg
    all_goals rfl
  unfold ofGroups
  rw [← filterMap_filter_kind hpath groups, ← filterMap_filter_kind hkey groups,
    ← contains_filter_kind .stdout groups, ← contains_filter_kind .setTime groups, h, h, h, h,
    filterMap_filter_kind hpath, filterMap_filter_kind hkey, contains_filter_kind, contains_filter_kind]

/-! ## reading groups -/

/-- a group on top of what was read before -/
def apply (a : Arguments) : Group → Arguments
  | .config path => { a with config := some path }
  | .weatherAppid _ key => { a with weatherAppid := some key }
  | .stdout => { a with stdout := true }
  | .setTime => { a with setTime := true }

theorem parseFrom_words (a : Arguments) (g : Group) (rest : List String) :
    a.parseFrom (g.words ++ rest) = (a.apply g).parseFrom rest := by
  rcases g with path | ⟨_ | _, key⟩ | _ | _
  all_goals
    rw [parseFrom.eq_def]
    simp [Group.words, keyOption, apply]

theorem parseFrom_write (a : Arguments) (groups : List Group) (rest : List String) :
    a.parseFrom (write groups ++ rest) = (groups.foldl apply a).parseFrom rest := by
  induction groups generalizing a with
  | nil => rfl
  | cons g groups ih => rw [write_cons, List.append_assoc, parseFrom_words, ih, List.foldl_cons]

theorem foldl_apply (groups : List Group) : groups.foldl apply {} = ofGroups groups := by
  induction groups using List.reverseRecOn with
  | nil => rfl
  | append_singleton groups g ih =>
    rw [List.foldl_append, ih]
    cases g <;> simp [ofGroups, apply, Group.path?, Group.key?]

/-! ## where reading ends -/

/-- reading ends behind the last word, at an option without its value, or at a word that is no option -/
inductive Stop : List String → Option ArgumentFault → Prop
  | done : Stop [] none
  | path : Stop ["--config"] (some .missingPath)
  | key (underscore : Bool) : Stop [keyOption underscore] (some .missingKey)
  | unknown {word : String} (h : word ∉ options) (rest : List String) :
      Stop (word :: rest) (some (.unknown word))

variable {words rest : List String} {fault? : Option ArgumentFault}

theorem Stop.parseFrom_eq (h : Stop rest fault?) (a : Arguments) :
    a.parseFrom rest = fault?.elim (.ok a) .error := by
  cases h with
  | done => rfl
  | path => rfl
  | key underscore => cases underscore <;> rfl
  | @unknown word hword rest =>
    obtain ⟨hconfig, hdash, hunderscore, hstdout, hsetTime⟩ :
        word ≠ "--config" ∧ word ≠ "--weather-appid" ∧ word ≠ "--weather_appid" ∧
          word ≠ "--stdout" ∧ word ≠ "--set-time" := by
      simpa [options, keyOption] using hword
    rw [parseFrom.eq_def]
    dsimp only
    rw [if_neg hconfig, if_neg (not_or.mpr ⟨hdash, hunderscore⟩), if_neg hstdout, if_neg hsetTime]
    rfl

theorem exists_write_append (words : List String) :
    ∃ groups rest fault?, words = write groups ++ rest ∧ Stop rest fault? := by
  have hcons : ∀ (g : Group) (words : List String),
      (∃ groups rest fault?, words = write groups ++ rest ∧ Stop rest fault?) →
      ∃ groups rest fault?, g.words ++ words = write groups ++ rest ∧ Stop rest fault? := by
    rintro g _ ⟨groups, rest, fault?, rfl, hstop⟩
    exact ⟨g :: groups, rest, fault?, by rw [write_cons, List.append_assoc], hstop⟩
  -- the cases are those of the reader, whatever it has read before
  generalize ({} : Arguments) = a
  induction a, words using parseFrom.induct with
  | case1 => exact ⟨[], [], none, rfl, .done⟩
  | case2 _ path words ih => exact hcons (.config path) words ih
  | case3 => exact ⟨[], _, _, rfl, .path⟩
  | case4 _ word _ hword key words ih =>
    rcases hword with rfl | rfl
    · exact hcons (.weatherAppid false key) words ih
    · exact hcons (.weatherAppid true key) words ih
  | case5 _ word _ hword =>
    rcases hword with rfl | rfl
    · exact ⟨[], _, _, rfl, .key false⟩
    · exact ⟨[], _, _, rfl, .key true⟩
  | case6 _ words _ _ ih => exact hcons .stdout words ih
  | case7 _ words _ _ _ ih => exact hcons .setTime words ih
  | case8 _ word words hconfig hkey hstdout hsetTime =>
    refine ⟨[], _, _, rfl, .unknown ?_ words⟩
    simpa [options, keyOption, hconfig, hstdout, hsetTime] using hkey

/-- **What is read are the groups in front of the stop.** -/
theorem parse_write_append (groups : List Group) (h : Stop rest fault?) :
    parse (write groups ++ rest) = fault?.elim (.ok (ofGroups groups)) .error := by
  rw [parse, parseFrom_write, foldl_apply, h.parseFrom_eq]

theorem parse_write (groups : List Group) : parse (write groups) = .ok (ofGroups groups) := by
  have h := parse_write_append groups .done
  rwa [List.append_nil] at h

theorem parse_eq_ok_iff {args : Arguments} :
    parse words = .ok args ↔ ∃ groups, words = write groups ∧ args = ofGroups groups := by
  constructor
  · intro h
    obtain ⟨groups, rest, fault?, rfl, hstop⟩ := exists_write_append words
    rw [parse_write_append groups hstop] at h
    cases fault? with
    | some fault => cases h
    | none =>
      cases hstop
      cases h
      exact ⟨groups, List.append_nil _, rfl⟩
  · rintro ⟨groups, rfl, rfl⟩
    exact parse_write groups

theorem parse_eq_error_iff {fault : ArgumentFault} :
    parse words = .error fault ↔ ∃ groups rest, words = write groups ++ rest ∧ Stop rest (some fault) := by
  constructor
  · intro h
    obtain ⟨groups, rest, fault?, rfl, hstop⟩ := exists_write_append words
    rw [parse_write_append groups hstop] at h
    cases fault? with
    | none => cases h
    | some fault =>
      cases h
      exact ⟨groups, rest, rfl, hstop⟩
  · rintro ⟨groups, rest, rfl, hstop⟩
    exact parse_write_append groups hstop

/-- **Exactly the words of groups are parsed.** The groups are unique, and of their order only that within
each kind matters. Otherwise reading stops behind some groups, at an option that lacks its value as the last
word, or at a word that is no option. -/
theorem parse_iff_write :
    (∀ words args, parse words = .ok args ↔ ∃ groups, words = write groups ∧ args = ofGroups groups) ∧
    Function.Injective write ∧
    (∀ groups groups' : List Group,
      (∀ kind, groups.filter (·.kind = kind) = groups'.filter (·.kind = kind)) →
      parse (write groups) = parse (write groups')) ∧
    (∀ words, parse words = .error .missingPath ↔ ∃ groups, words = write groups ++ ["--config"]) ∧
    (∀ words, parse words = .error .missingKey ↔
      ∃ groups underscore, words = write groups ++ [keyOption underscore]) ∧
    ∀ words word, parse words = .error (.unknown word) ↔
      ∃ groups rest, words = write groups ++ word :: rest ∧ word ∉ options := by
  refine ⟨fun words args => parse_eq_ok_iff, write_injective, fun groups groups' h => ?_, fun words => ?_,
    fun words => ?_, fun words word => ?_⟩
  · rw [parse_write, parse_write, ofGroups_rearranged h]
  · rw [parse_eq_error_iff]
    constructor
    · rintro ⟨groups, _, rfl, ⟨⟩⟩
      exact ⟨groups, rfl⟩
    · rintro ⟨groups, rfl⟩
      exact ⟨groups, _, rfl, .path⟩
  · rw [parse_eq_error_iff]
    constructor
    · rintro ⟨groups, _, rfl, hstop⟩
      cases hstop with
      | key underscore => exact ⟨groups, underscore, rfl⟩
    · rintro ⟨groups, underscore, rfl⟩
      exact ⟨groups, _, rfl, .key underscore⟩
  · rw [parse_eq_error_iff]
    constructor
    · rintro ⟨groups, _, rfl, hstop⟩
      cases hstop with
      | unknown hword rest => exact ⟨groups, rest, rfl, hword⟩
    · rintro ⟨groups, rest, rfl, hword⟩
      exact ⟨groups, _, rfl, .unknown hword rest⟩

/-- a value that looks like an option, and a flag that is moved to the front -/
theorem parse_iff_write_moved :
    let groups : List Group := [.config "a", .weatherAppid true "--stdout", .config "", .setTime]
    let groups' : List Group := [.setTime, .config "a", .config "", .weatherAppid true "--stdout"]
    (∀ kind, groups.filter (·.kind = kind) = groups'.filter (·.kind = kind)) ∧
    parse ["--config", "a", "--weather_appid", "--stdout", "--config", "", "--set-time"] =
      parse ["--set-time", "--config", "a", "--config", "", "--weather_appid", "--stdout"] ∧
    parse (write groups') = .ok { config := some "", weatherAppid := some "--stdout", setTime := true } := by
  intro groups groups'
  have hkinds : ∀ kind, groups.filter (·.kind = kind) = groups'.filter (·.kind = kind) := by
    intro kind
    cases kind <;> rfl
  exact ⟨hkinds, parse_iff_write.2.2.1 groups groups' hkinds, rfl⟩

end Arguments

end DeskClock
