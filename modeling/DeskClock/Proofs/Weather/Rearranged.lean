import DeskClock.Proofs.Json.Members
import DeskClock.Proofs.Json.Reader
import DeskClock.Proofs.Weather.Cache

/-!
# the weather cache in any layout

* `Rearranged`          the members of a cache and of its conditions in any order, among others;
* `Lacking`             a field is missing, or there twice;
* `ofJson?_rearranged`  the order and the other members make no difference;
* `ofJson?_lacking`     a field that is not there just once is refused;
* `load_rearranged`     what is loaded from any layout of a text that was saved.

A name stands for the text that is left when its escapes are read. A name that is no text, because a
surrogate in it is not one of a pair, is refused, also where the member is not looked at
(`load_unpairedSurrogate`). In the values that are not looked at there may be such texts.
-/

namespace DeskClock

open Json

namespace CachedWeather

variable {fetchedAt : Value} {inner : List (List UInt8 × Value)} {found : Value}

/-- The members of a cache and of its conditions in any order, with others among them whose names are
texts, but not those of fields. -/
def Rearranged (fetchedAt : Value) (inner : List (List UInt8 × Value)) (found : Value) : Prop :=
  ∃ inner' outer, Scattered Conditions.fieldNames inner inner' ∧
    Scattered fieldNames (members fetchedAt inner') outer ∧ found = .object outer

/-- An object in which a field of the cache, or of its conditions, is missing or there twice. -/
inductive Lacking : Value → Prop where
  | outer {outer : List (List UInt8 × Value)} {name : String} (hn : name ∈ fieldNames)
      (h : (named name outer).length ≠ 1) : Lacking (.object outer)
  | inner {outer inner : List (List UInt8 × Value)} {raw : List UInt8} {name : String}
      (hm : (raw, .object inner) ∈ outer) (hr : string? raw = some "conditions")
      (hn : name ∈ Conditions.fieldNames) (h : (named name inner).length ≠ 1) : Lacking (.object outer)

/-! ## what is read -/

theorem readable_members (fetchedAt : Value) (inner : List (List UInt8 × Value)) :
    Readable (members fetchedAt inner) := by
  intro m hm
  rcases List.mem_cons.mp hm with rfl | hm
  · exact ⟨_, string?_rawText _⟩
  · rw [List.mem_singleton.mp hm]
    exact ⟨_, string?_rawText _⟩

theorem fields?_members (fetchedAt : Value) (inner : List (List UInt8 × Value)) :
    Value.fields? fieldNames (.object (members fetchedAt inner))
      = some [fetchedAt, .object inner] := by
  rw [fields?_eq fieldNames (readable_members fetchedAt inner)]
  have h1 : named "fetched_at" (members fetchedAt inner)
      = [(rawText "fetched_at".toList, fetchedAt)] := by
    rw [named, members, List.filter_cons, List.filter_cons, string?_rawText, string?_rawText]
    rfl
  have h2 : named "conditions" (members fetchedAt inner)
      = [(rawText "conditions".toList, .object inner)] := by
    rw [named, members, List.filter_cons, List.filter_cons, string?_rawText, string?_rawText]
    rfl
  rw [fieldNames, List.mapM_cons, List.mapM_cons, h1, h2]
  rfl

theorem ofJson?_members (fetchedAt : Value) (inner : List (List UInt8 × Value)) :
    ofJson? (.object (members fetchedAt inner)) = ofFields? [fetchedAt, .object inner] := by
  rw [ofJson?_eq, fields?_members, Option.bind_some]

/-- **The order of the members and members of other names make no difference.** -/
theorem ofJson?_rearranged (h : Rearranged fetchedAt inner found) (hi : Readable inner) :
    ofJson? found = ofJson? (.object (members fetchedAt inner)) := by
  obtain ⟨inner', outer, hinner, houter, rfl⟩ := h
  have hconditions : Conditions.ofJson? (.object inner') = Conditions.ofJson? (.object inner) := by
    rw [Conditions.ofJson?_eq, Conditions.ofJson?_eq, fields?_scattered hinner hi]
  rw [ofJson?_eq, fields?_scattered houter (readable_members fetchedAt inner'), ← ofJson?_eq,
    ofJson?_members, ofJson?_members, ofFields?, ofFields?, hconditions]

/-- **A field that is not there just once is refused.** -/
theorem ofJson?_lacking (h : Lacking found) : ofJson? found = none := by
  cases h with
  | outer hn h => rw [ofJson?_eq, fields?_eq_none hn h, Option.bind_none]
  | @inner outer inner raw name hm hr hn h =>
    have hconditions : Conditions.ofJson? (.object inner) = none := by
      rw [Conditions.ofJson?_eq, fields?_eq_none hn h, Option.bind_none]
    by_cases hread : Readable outer
    · rw [ofJson?_eq, fields?_eq fieldNames hread, fieldNames, List.mapM_cons, List.mapM_cons]
      cases sole? (named "fetched_at" outer) with
      | none => rfl
      | some fetchedAt =>
        cases hsole : sole? (named "conditions" outer) with
        | none => rfl
        | some v =>
          obtain rfl : Value.object inner = v := eq_of_mem_named hm hr hsole
          show ofFields? [fetchedAt, .object inner] = none
          rw [ofFields?, hconditions]
          cases fetchedAt.instant? with
          | none => rfl
          | some instant => rfl
    · rw [ofJson?_eq, fields?_unreadable fieldNames hread, Option.bind_none]

/-! ## what is loaded -/

theorem load_fresh {disk : Disk} {path : String} {ttl : Duration} {file : StoredFile}
    (hfile : disk.file? path = some file) (hage : file.age.nanoseconds ≤ ttl.nanoseconds) :
    load disk path ttl = (match read? file.contents with
      | some cached => .ok cached
      | none => .error .json) := by
  rw [load, hfile]
  exact if_neg (Nat.not_lt.mpr hage)

theorem read?_of_text {v : Value} {bs : List UInt8} (h : v.Text bs) : read? bs = ofJson? v := by
  rw [read?, read?_eq_some_iff.mpr h, Option.bind_some]

/-- **A cache is loaded from any layout of its text.** The text that is saved is one of an object
`members fetchedAt inner`. A fresh file with a text of these members, and of those of the conditions,
in any order, among any members of other names and with any blanks between the tokens is loaded as the
text that was saved. Where a field is missing or there twice, or anything but blanks stands behind the
object, the text is refused; and a file that is too old is refused whatever is in it. -/
theorem load_rearranged (c : CachedWeather) (hc : c.conditions.isFinite = true) :
    ∃ fetchedAt inner loaded, (Value.object (members fetchedAt inner)).Text (Utf8.encode c.write) ∧
      inner.map Prod.fst = Conditions.fieldNames.map (fun name => rawText name.toList) ∧
      ∀ (disk : Disk) (path : String) (ttl : Duration) (file : StoredFile),
        disk.file? path = some file →
        (ttl.nanoseconds < file.age.nanoseconds → load disk path ttl = .error (.stale file.age)) ∧
        (file.age.nanoseconds ≤ ttl.nanoseconds →
          (file.contents = Utf8.encode c.write → load disk path ttl = .ok loaded) ∧
          (∀ found, Rearranged fetchedAt inner found → found.Text file.contents →
            load disk path ttl = .ok loaded) ∧
          (∀ found, Lacking found → found.Text file.contents → load disk path ttl = .error .json) ∧
          (∀ found text tail, Rearranged fetchedAt inner found → found.Text text →
            (∃ b ∈ tail, isBlankByte b = false) → file.contents = text ++ tail →
            load disk path ttl = .error .json)) := by
  obtain ⟨fetchedAt, inner, conditions, hw, hinner, hr, -⟩ := c.exists_writes hc
  have htext : (Value.object (members fetchedAt inner)).Text (Utf8.encode c.write) :=
    read?_eq_some_iff.mp (read?_of_writes hw)
  have hreadable : Readable inner := by
    intro m hm
    have hname : m.1 ∈ Conditions.fieldNames.map (fun name => rawText name.toList) :=
      hinner ▸ List.mem_map_of_mem hm
    obtain ⟨name, -, hraw⟩ := List.mem_map.mp hname
    rw [← hraw]
    exact ⟨name, string?_rawText name⟩
  refine ⟨fetchedAt, inner, ⟨c.fetchedAt, conditions⟩, htext, hinner, ?_⟩
  intro disk path ttl file hfile
  refine ⟨fun hage => ?_, fun hage => ⟨fun hcontents => ?_, ?_, ?_, ?_⟩⟩
  · rw [load, hfile]
    exact if_pos hage
  · rw [load_fresh hfile hage, hcontents, read?_of_text htext, hr]
  · intro found hfound hlaid
    rw [load_fresh hfile hage, read?_of_text hlaid, ofJson?_rearranged hfound hreadable, hr]
  · intro found hfound hlaid
    rw [load_fresh hfile hage, read?_of_text hlaid, ofJson?_lacking hfound]
  · rintro _ text tail ⟨inner', outer, -, -, rfl⟩ hlaid htail hcontents
    rw [load_fresh hfile hage, hcontents, read?, read?_append hlaid htail, Option.bind_none]

/-! ## light rain -/

/-- a cache of light rain -/
def lightRain : CachedWeather :=
  ⟨⟨1700000000, 0, by decide, by decide⟩, ⟨.ofNat 43, .ofNat 50, .ofNat 38, "light rain", .fahrenheit⟩⟩

/-- what is written between the quotes of a text -/
def raw (s : String) : List UInt8 := rawText s.toList

/-- a whole number with a place -/
def whole (digits : List Char) : Numeral := ⟨false, digits, some ['0'], none⟩

def lightRainAt : Value := .text (raw "2023-11-14T22:13:20Z")

def lightRainConditions : List (List UInt8 × Value) :=
  [(raw "temperature", .number (whole ['4', '3'])), (raw "high", .number (whole ['5', '0'])),
    (raw "low", .number (whole ['3', '8'])), (raw "description", .text (raw "light rain")),
    (raw "unit", .text (raw "fahrenheit"))]

def lightRainTokens : List Token :=
  [.openBrace, .text (raw "fetched_at"), .colon, .text (raw "2023-11-14T22:13:20Z"), .comma,
    .text (raw "conditions"), .colon, .openBrace,
    .text (raw "temperature"), .colon, .number (whole ['4', '3']), .comma,
    .text (raw "high"), .colon, .number (whole ['5', '0']), .comma,
    .text (raw "low"), .colon, .number (whole ['3', '8']), .comma,
    .text (raw "description"), .colon, .text (raw "light rain"), .comma,
    .text (raw "unit"), .colon, .text (raw "fahrenheit"), .closeBrace, .closeBrace]

theorem lightRain_text :
    (Value.object (members lightRainAt lightRainConditions)).Text (Utf8.encode lightRain.write) := by
  have hcut : tokens? (Utf8.encode lightRain.write) = some lightRainTokens := by decide +kernel
  apply read?_eq_some_iff.mp
  rw [Json.read?, hcut]
  rfl

/-- a disk with a cache that is a moment old -/
def holding (contents : List UInt8) : Disk :=
  Disk.empty.put "weather-cache.json" (some ⟨contents, ⟨1⟩⟩)

theorem file?_holding (contents : List UInt8) :
    (holding contents).file? "weather-cache.json" = some ⟨contents, ⟨1⟩⟩ := Disk.file?_put _ _ _

/-- both objects from the end to the start, blanks, and two more members, in one of which there is
half a pair of surrogates -/
theorem load_rearranged_reversed :
    let text := Utf8.ofString ("\x7b \x22source\x22 : [ -1E+400, \x22\x5cud800\x22 ],\n"
      ++ " \x22conditions\x22 : \x7b \x22unit\x22: \x22fahrenheit\x22,"
      ++ " \x22description\x22: \x22light rain\x22, \x22low\x22: 38.0, \x22high\x22: 50.0,"
      ++ " \x22temperature\x22: 43.0, \x22humidity\x22: \x7b\x7d \x7d,\n"
      ++ " \x22fetched_at\x22 : \x222023-11-14T22:13:20Z\x22 \x7d\n")
    lightRain.conditions.isFinite = true ∧ ∃ loaded,
      load (holding (Utf8.encode lightRain.write)) "weather-cache.json" ⟨60000000000⟩ = .ok loaded ∧
      load (holding text) "weather-cache.json" ⟨60000000000⟩ = .ok loaded ∧
      load (holding (text ++ [byte 'x'])) "weather-cache.json" ⟨60000000000⟩ = .error .json ∧
      load (holding text) "weather-cache.json" ⟨0⟩ = .error (.stale ⟨1⟩) := by
  intro text
  have hfinite : lightRain.conditions.isFinite = true := by decide +kernel
  have hfresh : (⟨1⟩ : Duration).nanoseconds ≤ (⟨60000000000⟩ : Duration).nanoseconds := by decide
  have hstale : (⟨0⟩ : Duration).nanoseconds < (⟨1⟩ : Duration).nanoseconds := by decide
  obtain ⟨fetchedAt, inner, loaded, hsaved, -, hload⟩ := load_rearranged lightRain hfinite
  obtain ⟨rfl, rfl⟩ : fetchedAt = lightRainAt ∧ inner = lightRainConditions := by
    cases Value.object.inj (hsaved.unique lightRain_text)
    exact ⟨rfl, rfl⟩
  have hcut : tokens? text = some
      [.openBrace, .text (raw "source"), .colon, .openBracket,
        .number ⟨true, ['1'], none, some (false, ['4', '0', '0'])⟩, .comma,
        .text (Utf8.ofString "\x5cud800"), .closeBracket, .comma,
        .text (raw "conditions"), .colon, .openBrace,
        .text (raw "unit"), .colon, .text (raw "fahrenheit"), .comma,
        .text (raw "description"), .colon, .text (raw "light rain"), .comma,
        .text (raw "low"), .colon, .number (whole ['3', '8']), .comma,
        .text (raw "high"), .colon, .number (whole ['5', '0']), .comma,
        .text (raw "temperature"), .colon, .number (whole ['4', '3']), .comma,
        .text (raw "humidity"), .colon, .openBrace, .closeBrace, .closeBrace, .comma,
        .text (raw "fetched_at"), .colon, .text (raw "2023-11-14T22:13:20Z"), .closeBrace] := by
    decide +kernel
  let humidity : List UInt8 × Value := (raw "humidity", .object [])
  let source : List UInt8 × Value := (raw "source", .array
    [.number ⟨true, ['1'], none, some (false, ['4', '0', '0'])⟩, .text (Utf8.ofString "\x5cud800")])
  let inner := lightRainConditions.reverse ++ [humidity]
  have htext : (Value.object (source :: (members lightRainAt inner).reverse)).Text text := by
    apply read?_eq_some_iff.mp
    rw [Json.read?, hcut]
    rfl
  clear_value text
  have hfound : Rearranged lightRainAt lightRainConditions
      (.object (source :: (members lightRainAt inner).reverse)) := by
    refine ⟨inner, _, ⟨[humidity], ?_, ?_⟩, ⟨[source], ?_, ?_⟩, rfl⟩
    · exact (List.reverse_perm _).append_right _
    · intro m hm
      rw [List.mem_singleton.mp hm]
      exact ⟨"humidity", string?_rawText _, by decide⟩
    · exact ((List.reverse_perm _).cons source).trans (List.perm_append_singleton source _).symm
    · intro m hm
      rw [List.mem_singleton.mp hm]
      exact ⟨"source", string?_rawText _, by decide⟩
  refine ⟨hfinite, loaded, ?_, ?_, ?_, ?_⟩
  · exact ((hload _ _ _ _ (file?_holding (Utf8.encode lightRain.write))).2 hfresh).1 rfl
  · exact ((hload _ _ _ _ (file?_holding text)).2 hfresh).2.1 _ hfound htext
  · exact ((hload _ _ _ _ (file?_holding (text ++ [byte 'x']))).2 hfresh).2.2.2 _ text [byte 'x']
      hfound htext ⟨_, List.mem_singleton_self _, rfl⟩ rfl
  · exact (hload _ _ ⟨0⟩ _ (file?_holding text)).1 hstale

/-- A member that is not a field is looked at all the same: with half a pair of surrogates as its name,
which the grammar allows, it makes a text that was saved unreadable. -/
theorem load_unpairedSurrogate :
    let name := Utf8.ofString "\x5cud800"
    let text := Utf8.ofString ("\x7b\x22\x5cud800\x22:null,"
      ++ "\x22fetched_at\x22:\x222023-11-14T22:13:20Z\x22,"
      ++ "\x22conditions\x22:\x7b\x22temperature\x22:43.0,\x22high\x22:50.0,\x22low\x22:38.0,"
      ++ "\x22description\x22:\x22light rain\x22,\x22unit\x22:\x22fahrenheit\x22\x7d\x7d")
    lightRain.conditions.isFinite = true ∧
      (Value.object (members lightRainAt lightRainConditions)).Text (Utf8.encode lightRain.write) ∧
      (Value.object ((name, .null) :: members lightRainAt lightRainConditions)).Text text ∧
      named "fetched_at" [(name, .null)] = [] ∧ named "conditions" [(name, .null)] = [] ∧
      load (holding text) "weather-cache.json" ⟨3600000000000⟩ = .error .json ∧
      ∃ loaded, load (holding (Utf8.encode lightRain.write)) "weather-cache.json" ⟨3600000000000⟩
        = .ok loaded := by
  intro name text
  have hfinite : lightRain.conditions.isFinite = true := by decide +kernel
  have hfresh : (⟨1⟩ : Duration).nanoseconds ≤ (⟨3600000000000⟩ : Duration).nanoseconds := by decide
  have hname : string? name = none := by decide +kernel
  have hcut : tokens? text
      = some (.openBrace :: .text name :: .colon :: .null :: .comma :: lightRainTokens.tail) := by
    decide +kernel
  have htext :
      (Value.object ((name, .null) :: members lightRainAt lightRainConditions)).Text text := by
    apply read?_eq_some_iff.mp
    rw [Json.read?, hcut]
    rfl
  have hunreadable : ¬ Readable ((name, .null) :: members lightRainAt lightRainConditions) := by
    intro hread
    obtain ⟨found, hfound⟩ := hread _ List.mem_cons_self
    rw [hname] at hfound
    cases hfound
  have hnamed (field : String) : named field [(name, .null)] = [] := by
    rw [named, List.filter_cons, hname]
    rfl
  refine ⟨hfinite, lightRain_text, htext, hnamed _, hnamed _, ?_, ?_⟩
  · rw [load_fresh (file?_holding _) hfresh, read?_of_text htext, ofJson?_eq,
      fields?_unreadable fieldNames hunreadable, Option.bind_none]
  · obtain ⟨conditions, hread, -⟩ := lightRain.exists_readAs hfinite
    exact ⟨_, load_eq_ok_iff.mpr ⟨_, file?_holding _, hfresh, hread⟩⟩

end CachedWeather

end DeskClock
