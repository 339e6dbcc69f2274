import DeskClock.Binary64.Decimal
import DeskClock.Toml.Quoted
import DeskClock.Toml.Table

/-!
# writing a TOML document

* `Toml.writeText`     a quoted text, in the first of five forms that can hold it;
* `Toml.writeFloat`    the shortest digits, never with an exponent, always with a point;
* `Toml.write`         a value; an array of more than one item has a line for each;
* `Toml.Document.write`   the assignments in front, then the blocks, with blank lines between.
-/

namespace DeskClock.Toml

/-- a control character other than tab and line feed -/
def isControl (c : Char) : Bool := (c.toNat < 0x20 && c != '\t' && c != '\n') || c.toNat == 0x7F

/-- the longest run of a character -/
def longestRun (mark : Char) (cs : List Char) : Nat :=
  (cs.foldl (fun (run, most) c =>
    if c = mark then (run + 1, max most (run + 1)) else (0, most)) (0, 0)).2

/-- the escape of a character that a text of one line may not hold; other characters as they are -/
def escapeControl (c : Char) : List Char :=
  if c = '\x08' then ['\\', 'b']
  else if c = '\t' then ['\\', 't']
  else if c = '\n' then ['\\', 'n']
  else if c = '\x0c' then ['\\', 'f']
  else if c = '\r' then ['\\', 'r']
  else if c = Quoted.backslash then ['\\', '\\']
  else if c.toNat < 0x20 || c.toNat == 0x7F then '\\' :: 'u' :: Digits.hex Digits.hexDigit 4 c.toNat
  else [c]

/-- the inside of a basic text on one line -/
def escapeLine (cs : List Char) : List Char :=
  cs.flatMap fun c => if c = Quoted.quote then ['\\', Quoted.quote] else escapeControl c

/-- the inside of a basic text of several lines, where `run` quotes have just been written: a third
quote in a row is escaped -/
def escapeLinesFrom : (run : Nat) → List Char → List Char
  | _, [] => []
  | run, c :: cs =>
    if c = Quoted.quote then
      if run < 2 then c :: escapeLinesFrom (run + 1) cs
      else '\\' :: c :: escapeLinesFrom 0 cs
    else if c = '\n' then c :: escapeLinesFrom 0 cs
    else escapeControl c ++ escapeLinesFrom 0 cs

/-- the ways to quote a text -/
inductive TextForm where
  | basic | literal | basicLines | literalLines | escapedLines | escaped
deriving DecidableEq

/-- the first form that can hold a text -/
def textForm (cs : List Char) : TextForm :=
  let control := cs.any isControl
  let newline := cs.contains '\n'
  let backslash := cs.contains Quoted.backslash
  let quotes := longestRun Quoted.quote cs
  let apostrophes := longestRun Quoted.apostrophe cs
  if quotes = 0 && !backslash && !newline && !control then .basic
  else if apostrophes = 0 && !newline && !control then .literal
  else if !backslash && !control && quotes ≤ 2 then .basicLines
  else if !control && apostrophes ≤ 2 then .literalLines
  else if newline then .escapedLines
  else .escaped

/-- three marks, and a line end if the text has one -/
def openLines (mark : Char) (cs : List Char) : List Char :=
  List.replicate 3 mark ++ (if cs.contains '\n' then ['\n'] else [])

def writeText (cs : List Char) : List Char :=
  match textForm cs with
  | .basic | .escaped => Quoted.quote :: escapeLine cs ++ [Quoted.quote]
  | .literal => Quoted.apostrophe :: cs ++ [Quoted.apostrophe]
  | .basicLines | .escapedLines =>
    openLines Quoted.quote cs ++ escapeLinesFrom 0 cs ++ List.replicate 3 Quoted.quote
  | .literalLines => openLines Quoted.apostrophe cs ++ cs ++ List.replicate 3 Quoted.apostrophe

/-- a number, or the word for an infinity with its sign, or `nan` without its sign -/
def writeFloat : Binary64 → List Char
  | .nan _ => ['n', 'a', 'n']
  | .infinite negative => (if negative then ['-'] else []) ++ ['i', 'n', 'f']
  | .finite negative rank =>
    (if negative then ['-'] else []) ++
      if rank.val = 0 then ['0', '.', '0']
      else
        let (digits, power) := Binary64.shortest .up rank
        Binary64.positional digits power

/-- a name as it stands; it must be made of letters, digits, `_` and `-` -/
def writeName (name : String) : List Char := name.toList

mutual

def write : Toml → List Char
  | .string text => writeText text.toList
  | .integer n => Digits.ofInt n
  | .float x => writeFloat x
  | .boolean true => ['t', 'r', 'u', 'e']
  | .boolean false => ['f', 'a', 'l', 's', 'e']
  | .moment text => text.toList
  | .array [] => ['[', ']']
  | .array [item] => '[' :: write item ++ [']']
  | .array items => '[' :: '\n' :: writeItems items ++ [']']
  | .table entries => '{' :: ' ' :: writeEntries entries ++ ['}']

/-- one line for each item -/
def writeItems : List Toml → List Char
  | [] => []
  | item :: items => ' ' :: ' ' :: ' ' :: ' ' :: write item ++ ',' :: '\n' :: writeItems items

def writeEntries : List (String × Toml) → List Char
  | [] => []
  | [(name, v)] => writeName name ++ ' ' :: '=' :: ' ' :: write v ++ [' ']
  | (name, v) :: rest => writeName name ++ ' ' :: '=' :: ' ' :: write v ++ ',' :: ' ' :: writeEntries rest

end

/-- names with points between them -/
def KeyPath.write (key : KeyPath) : List Char :=
  key.parents.flatMap (fun name => writeName name ++ ['.']) ++ writeName key.name

def Assignment.write (a : Assignment) : List Char :=
  a.key.write ++ ' ' :: '=' :: ' ' :: Toml.write a.value ++ ['\n']

def Block.write (b : Block) : List Char :=
  (if b.isArray then '[' :: '[' :: b.key.write ++ [']', ']'] else '[' :: b.key.write ++ [']'])
    ++ '\n' :: b.assignments.flatMap Assignment.write

/-- the blocks with a blank line between them -/
def writeBlocks : List Block → List Char
  | [] => []
  | [b] => b.write
  | b :: bs => b.write ++ '\n' :: writeBlocks bs

def Document.write (d : Document) : List Char :=
  let front := d.preamble.flatMap Assignment.write
  if front.isEmpty then writeBlocks d.blocks
  else if d.blocks.isEmpty then front
  else front ++ '\n' :: writeBlocks d.blocks

end DeskClock.Toml
