import DeskClock.Text.Digits

/-!
# quoted text of a TOML document

Each reader takes the text behind the opening quotes and gives the quoted characters and what
follows the closing quotes.

* `Quoted.basic?`          `"…"`, with escapes;
* `Quoted.literal?`        `'…'`, as it stands;
* `Quoted.basicLines?`     `"""…"""`, with escapes and line ends;
* `Quoted.literalLines?`   `'''…'''`, as it stands, with line ends.
-/

namespace DeskClock.Toml.Quoted

/-- a character that may stand in a quoted text or a comment as it is: a tab, or no control -/
def isPlain (c : Char) : Bool := c = '\t' || (0x20 ≤ c.toNat && c.toNat != 0x7F)

def quote : Char := '\x22'
def apostrophe : Char := '\x27'
def backslash : Char := '\x5c'

/-- the character of a one-letter escape -/
def escaped? (c : Char) : Option Char :=
  if c = 'b' then some '\x08'
  else if c = 't' then some '\t'
  else if c = 'n' then some '\n'
  else if c = 'f' then some '\x0c'
  else if c = 'r' then some '\r'
  else if c = quote ∨ c = backslash then some c
  else none

/-- the character with a number in base sixteen -/
def scalar? (digits : List Char) : Option Char := do
  let values ← digits.mapM Digits.hexValue?
  let n := values.foldl (fun n d => 16 * n + d) 0
  if n.isValidChar then some (Char.ofNat n) else none

def prepend (c : Char) : Option (List Char × List Char) → Option (List Char × List Char)
  | some (text, rest) => some (c :: text, rest)
  | none => none

def basic? : List Char → Option (List Char × List Char)
  | [] => none
  | c :: cs =>
    if c = quote then some ([], cs)
    else if c = backslash then
      match cs with
      | 'u' :: a :: b :: c :: d :: rest =>
        match scalar? [a, b, c, d] with
        | some c => prepend c (basic? rest)
        | none => none
      | 'U' :: a :: b :: c :: d :: e :: f :: g :: h :: rest =>
        match scalar? [a, b, c, d, e, f, g, h] with
        | some c => prepend c (basic? rest)
        | none => none
      | e :: rest =>
        match escaped? e with
        | some c => prepend c (basic? rest)
        | none => none
      | [] => none
    else if isPlain c then prepend c (basic? cs)
    else none

def literal? : List Char → Option (List Char × List Char)
  | [] => none
  | c :: cs =>
    if c = apostrophe then some ([], cs)
    else if isPlain c then prepend c (literal? cs)
    else none

/-- up to two quotes right behind the closing ones belong to the text -/
def closing (mark : Char) : List Char → List Char × List Char
  | a :: b :: rest =>
    if a = mark ∧ b = mark then ([mark, mark], rest)
    else if a = mark then ([mark], b :: rest)
    else ([], a :: b :: rest)
  | [a] => if a = mark then ([mark], []) else ([], [a])
  | [] => ([], [])

/-- whether a text starts with two given characters -/
def startsTwice (mark : Char) : List Char → Bool
  | a :: b :: _ => a = mark && b = mark
  | _ => false

/-- where the reader of a text of several lines is: in the text; behind a backslash that ends a line,
before its line end; or behind such a line end, where blanks and line ends are dropped -/
inductive Place where
  | text | lineEnd | gap
deriving DecidableEq

def isSpace (c : Char) : Bool := c = ' ' || c = '\t'

def basicLines? : Place → List Char → Option (List Char × List Char)
  | _, [] => none
  | place, c :: cs =>
    if c = '\n' then
      if place = .text then prepend '\n' (basicLines? .text cs) else basicLines? .gap cs
    else if c = '\r' then
      match cs with
      | '\n' :: rest =>
        if place = .text then prepend '\n' (basicLines? .text rest) else basicLines? .gap rest
      | _ => none
    else if isSpace c ∧ place ≠ .text then basicLines? place cs
    else if place = .lineEnd then none
    else if c = quote then
      if startsTwice quote cs then some (closing quote (cs.drop 2))
      else prepend c (basicLines? .text cs)
    else if c = backslash then
      match cs with
      | 'u' :: a :: b :: c :: d :: rest =>
        match scalar? [a, b, c, d] with
        | some c => prepend c (basicLines? .text rest)
        | none => none
      | 'U' :: a :: b :: c :: d :: e :: f :: g :: h :: rest =>
        match scalar? [a, b, c, d, e, f, g, h] with
        | some c => prepend c (basicLines? .text rest)
        | none => none
      | e :: rest =>
        match escaped? e with
        | some c => prepend c (basicLines? .text rest)
        | none => if isSpace e || e = '\n' || e = '\r' then basicLines? .lineEnd (e :: rest) else none
      | [] => none
    else if isPlain c then prepend c (basicLines? .text cs)
    else none

def literalLines? : List Char → Option (List Char × List Char)
  | [] => none
  | c :: cs =>
    if c = apostrophe then
      if startsTwice apostrophe cs then some (closing apostrophe (cs.drop 2))
      else prepend c (literalLines? cs)
    else if c = '\n' then prepend '\n' (literalLines? cs)
    else if c = '\r' then
      match cs with
      | '\n' :: rest => prepend '\n' (literalLines? rest)
      | _ => none
    else if isPlain c then prepend c (literalLines? cs)
    else none

/-- a line end right behind the opening quotes is dropped -/
def dropLineEnd : List Char → List Char
  | '\n' :: rest => rest
  | '\r' :: '\n' :: rest => rest
  | rest => rest

/-- a quoted text of any form, from its opening quotes on -/
def read? (cs : List Char) : Option (List Char × List Char) :=
  match cs with
  | c :: rest =>
    if c = quote then
      if startsTwice quote rest then basicLines? .text (dropLineEnd (rest.drop 2)) else basic? rest
    else if c = apostrophe then
      if startsTwice apostrophe rest then literalLines? (dropLineEnd (rest.drop 2)) else literal? rest
    else none
  | [] => none

/-- a quoted text on one line, from its opening quote on -/
def readLine? (cs : List Char) : Option (List Char × List Char) :=
  match cs with
  | c :: rest =>
    if c = quote then basic? rest else if c = apostrophe then literal? rest else none
  | [] => none

end DeskClock.Toml.Quoted
