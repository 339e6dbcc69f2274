import DeskClock.Toml.Quoted
import DeskClock.Toml.Scalar

/-!
# reading a TOML document

Each reader takes a text and gives what it read and the rest. A reader with `fuel` repeats something
at most so often; no text needs more than its length, and the length of the document is enough for
all parts of it.

* `Toml.key?`          a dotted key, shorter than `nestingLimit`;
* `Toml.value? fuel d` a value with at most `d` arrays and inline tables inside each other;
* `Toml.line?`         a blank line, a header or an assignment, with its line end;
* `Toml.Document.read?`   all lines;
* `Toml.read?`         the table of a document.
-/

namespace DeskClock.Toml

/-- the depth that arrays and inline tables, and the length that dotted keys, do not reach -/
def nestingLimit : Nat := 80

def isSpace (c : Char) : Bool := c = ' ' || c = '\t'

def skipSpaces (cs : List Char) : List Char := cs.dropWhile isSpace

/-- the text after a line end -/
def lineEnd? : List Char → Option (List Char)
  | '\n' :: rest => some rest
  | '\r' :: '\n' :: rest => some rest
  | _ => none

/-- the text after a comment, if there is one; its line end is left -/
def skipComment : List Char → List Char
  | '#' :: rest => rest.dropWhile Quoted.isPlain
  | rest => rest

/-- blanks and a comment up to the end of the line or of the text -/
def finishLine? (cs : List Char) : Option (List Char) :=
  match skipComment (skipSpaces cs) with
  | [] => some []
  | rest => lineEnd? rest

/-- spaces, line ends and comments; a comment must end with its line -/
def skipLines : Nat → List Char → List Char
  | 0, cs => cs
  | fuel + 1, cs =>
    match lineEnd? (skipComment (skipSpaces cs)) with
    | some rest => skipLines fuel rest
    | none => skipSpaces cs

/-! ## keys -/

def isKeyChar (c : Char) : Bool := c.isAlphanum || c = '_' || c = '-'

/-- one name of a key, bare or quoted on one line -/
def name? (cs : List Char) : Option (List Char × List Char) :=
  match Quoted.readLine? cs with
  | some read => some read
  | none =>
    let bare := cs.takeWhile isKeyChar
    if bare.isEmpty then none else some (bare, cs.drop bare.length)

/-- the names of a key with the blanks around them -/
def names? : Nat → List Char → Option (List String × List Char)
  | 0, _ => none
  | fuel + 1, cs => do
    let (name, cs) ← name? (skipSpaces cs)
    match skipSpaces cs with
    | '.' :: cs =>
      let (names, cs) ← names? fuel cs
      return (String.ofList name :: names, cs)
    | cs => return ([String.ofList name], cs)

/-- the path of a list of names that is not empty -/
def KeyPath.ofNames? : List String → Option KeyPath
  | [] => none
  | [name] => some ⟨[], name⟩
  | parent :: names => (ofNames? names).map fun key => { key with parents := parent :: key.parents }

def key? (cs : List Char) : Option (KeyPath × List Char) := do
  let (names, cs) ← names? (nestingLimit - 1) cs
  let key ← KeyPath.ofNames? names
  return (key, cs)

/-! ## values -/

/-- a word; a date and a time may have one space between them -/
def word? (cs : List Char) : Option (Toml × List Char) :=
  let word := cs.takeWhile isWordChar
  let rest := cs.drop word.length
  match rest with
  | ' ' :: cs =>
    let time := cs.takeWhile isWordChar
    if isDate word && isOffsetTime time then
      some (.moment (String.ofList (word ++ ' ' :: time)), cs.drop time.length)
    else (scalar? word).map (·, rest)
  | _ => (scalar? word).map (·, rest)

/-- the items of an array behind its bracket or a comma -/
def items? (value : List Char → Option (Toml × List Char)) :
    Nat → List Char → Option (List Toml × List Char)
  | 0, _ => none
  | fuel + 1, cs =>
    match skipLines fuel cs with
    | ']' :: cs => some ([], cs)
    | cs => do
      let (item, cs) ← value cs
      match skipLines fuel cs with
      | ']' :: cs => return ([item], cs)
      | ',' :: cs =>
        let (items, cs) ← items? value fuel cs
        return (item :: items, cs)
      | _ => none

/-- `key = value` with the blanks between -/
def assignment? (value : List Char → Option (Toml × List Char)) (cs : List Char) :
    Option (Assignment × List Char) := do
  let (key, cs) ← key? cs
  match cs with
  | '=' :: cs =>
    let (v, cs) ← value (skipSpaces cs)
    return (⟨key, v⟩, cs)
  | _ => none

/-- the assignments of an inline table, the first one or one behind a comma -/
def inlineAssignments? (value : List Char → Option (Toml × List Char)) :
    Nat → List Char → Option (List Assignment × List Char)
  | 0, _ => none
  | fuel + 1, cs => do
    let (a, cs) ← assignment? value cs
    match skipSpaces cs with
    | '}' :: cs => return ([a], cs)
    | ',' :: cs =>
      let (as, cs) ← inlineAssignments? value fuel cs
      return (a :: as, cs)
    | _ => none

/-- an inline table behind its opening brace -/
def inlineRest? (value : List Char → Option (Toml × List Char)) (fuel : Nat) (cs : List Char) :
    Option (Toml × List Char) :=
  match skipSpaces cs with
  | '}' :: cs => some (.table [], cs)
  | cs => do
    let (as, cs) ← inlineAssignments? value fuel cs
    let table ← inlineTable? as
    return (table, cs)

def value? (fuel : Nat) : (depth : Nat) → List Char → Option (Toml × List Char)
  | depth, cs =>
    match cs with
    | [] => none
    | c :: rest =>
      if c = Quoted.quote ∨ c = Quoted.apostrophe then
        (Quoted.read? cs).map fun (text, rest) => (.string (String.ofList text), rest)
      else if c = '[' then
        match depth with
        | 0 => none
        | depth + 1 => (items? (value? fuel depth) fuel rest).map fun (items, rest) =>
            (.array items, rest)
      else if c = '{' then
        match depth with
        | 0 => none
        | depth + 1 => inlineRest? (value? fuel depth) fuel rest
      else word? cs

/-! ## lines -/

inductive Line where
  | blank
  | header (isArray : Bool) (key : KeyPath)
  | assignment (a : Assignment)

/-- a header behind its opening brackets -/
def header? (isArray : Bool) (cs : List Char) : Option (Line × List Char) := do
  let (key, cs) ← key? cs
  match isArray, cs with
  | false, ']' :: cs => return (.header false key, cs)
  | true, ']' :: ']' :: cs => return (.header true key, cs)
  | _, _ => none

/-- the contents of a line without its end -/
def lineBody? (fuel : Nat) (cs : List Char) : Option (Line × List Char) :=
  match skipSpaces cs with
  | [] => some (.blank, [])
  | '\n' :: cs => some (.blank, '\n' :: cs)
  | '\r' :: cs => some (.blank, '\r' :: cs)
  | '#' :: cs => some (.blank, '#' :: cs)
  | '[' :: '[' :: cs => header? true cs
  | '[' :: cs => header? false cs
  | cs => (assignment? (value? fuel (nestingLimit - 1)) cs).map fun (a, cs) => (.assignment a, cs)

def line? (fuel : Nat) (cs : List Char) : Option (Line × List Char) := do
  let (line, cs) ← lineBody? fuel cs
  let cs ← finishLine? cs
  return (line, cs)

def lines? : Nat → List Char → Option (List Line)
  | _, [] => some []
  | 0, _ => none
  | fuel + 1, cs => do
    let (line, cs) ← line? (fuel + 1) cs
    let lines ← lines? fuel cs
    return line :: lines

/-- the document of its lines: what follows a header belongs to it -/
def Document.ofLines : List Line → Document
  | [] => ⟨[], []⟩
  | .blank :: lines => ofLines lines
  | .assignment a :: lines =>
    let d := ofLines lines
    { d with preamble := a :: d.preamble }
  | .header isArray key :: lines =>
    let d := ofLines lines
    ⟨[], ⟨isArray, key, d.preamble⟩ :: d.blocks⟩

/-- a text without the mark of byte order that it may start with -/
def dropByteOrderMark : List Char → List Char
  | '\uFEFF' :: rest => rest
  | rest => rest

def Document.read? (cs : List Char) : Option Document :=
  let cs := dropByteOrderMark cs
  (lines? cs.length cs).map Document.ofLines

/-- the entries of the table that a document defines -/
def read? (cs : List Char) : Option (List (String × Toml)) :=
  (Document.read? cs).bind Document.root?

end DeskClock.Toml
