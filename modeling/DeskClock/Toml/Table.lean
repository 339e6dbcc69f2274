import DeskClock.Binary64

/-!
# values and tables of a TOML document

* `Toml`              a value: a scalar, an array or a table; a date or a time is kept as it is
                      written;
* `Toml.KeyPath`      a dotted key: the names of the tables on the way and the name in the last one;
* `Toml.Assignment`   `key = value`;
* `Toml.Block`        a header `[key]` or `[[key]]` with the assignments below it;
* `Toml.Document`     the assignments before the first header, and the blocks;
* `Toml.Document.root?`   the table that a document defines, unless it defines something twice.

While a document is read its tables are open: `Toml.Node` marks each with how it came about, because
that decides what may still be added to it.
-/

namespace DeskClock

inductive Toml where
  | string (text : String)
  | integer (n : Int)
  | float (x : Binary64)
  | boolean (b : Bool)
  | moment (text : String)
  | array (items : List Toml)
  | table (entries : List (String × Toml))

namespace Toml

structure KeyPath where
  parents : List String
  name : String
deriving DecidableEq

structure Assignment where
  key : KeyPath
  value : Toml

structure Block where
  /-- a header in double brackets, which adds a table to an array -/
  isArray : Bool
  key : KeyPath
  assignments : List Assignment

structure Document where
  preamble : List Assignment
  blocks : List Block

/-- How a table came about: by its header, by a header further down, or by a dotted key. -/
inductive Mark where
  | explicit | implied | dotted
deriving DecidableEq

/-- a table entry while the document is open: a value, a table, or an array of tables -/
inductive Node where
  | value (v : Toml)
  | table (mark : Mark) (entries : List (String × Node))
  | tables (items : List (List (String × Node)))

abbrev Entries := List (String × Node)

namespace Entries

/-- the entries with the one under a name changed, or added at the end -/
def alter (name : String) (f : Option Node → Option Node) : Entries → Option Entries
  | [] => (f none).map fun node => [(name, node)]
  | (other, node) :: rest =>
    if other = name then (f (some node)).map fun node => (other, node) :: rest
    else (alter name f rest).map ((other, node) :: ·)

/-- a new entry; the name must be free -/
def add (name : String) (value : Toml) (entries : Entries) : Option Entries :=
  entries.alter name fun
    | none => some (.value value)
    | some _ => none

/-- change the last table of an array -/
def alterLast (f : Entries → Option Entries) : List Entries → Option (List Entries)
  | [] => none
  | [entries] => (f entries).map ([·])
  | entries :: rest => (alterLast f rest).map (entries :: ·)

/-- `assignBelow mark parents name value` goes on with a dotted key inside a table marked `mark`,
which its key has reached. The key may end only in a table that dotted keys made, and may not pass
through one that has its own header. -/
def assignBelow (name : String) (value : Toml) :
    (mark : Mark) → (parents : List String) → Entries → Option Entries
  | mark, [], entries => if mark = .dotted then entries.add name value else none
  | _, parent :: parents, entries =>
    entries.alter parent fun
      | none => (assignBelow name value .dotted parents []).map (.table .dotted)
      | some (.value _) => none
      | some (.table .explicit _) => none
      | some (.table mark inner) =>
        (assignBelow name value mark parents inner).map (.table mark)
      | some (.tables items) =>
        (alterLast (assignBelow name value .explicit parents) items).map .tables

/-- `key = value` in a table -/
def assign (entries : Entries) (a : Assignment) : Option Entries :=
  match a.key.parents with
  | [] => entries.add a.key.name a.value
  | parent :: parents => entries.assignBelow a.key.name a.value .explicit (parent :: parents)

def assignAll (entries : Entries) (as : List Assignment) : Option Entries := as.foldlM assign entries

/-- change the table that a header's parents lead to, making the missing ones -/
def within (f : Entries → Option Entries) : (parents : List String) → Entries → Option Entries
  | [], entries => f entries
  | parent :: parents, entries =>
    entries.alter parent fun
      | none => (within f parents []).map (.table .implied)
      | some (.value _) => none
      | some (.table mark inner) => (within f parents inner).map (.table mark)
      | some (.tables items) => (alterLast (within f parents) items).map .tables

/-- the table of a header: new, or made earlier by a header further down -/
def openTable (as : List Assignment) : Option Node → Option Node
  | none => (assignAll [] as).map (.table .explicit)
  | some (.table .implied inner) => (assignAll inner as).map (.table .explicit)
  | some _ => none

/-- one more table for an array of tables -/
def appendTable (as : List Assignment) : Option Node → Option Node
  | none => (assignAll [] as).map fun table => .tables [table]
  | some (.tables items) => (assignAll [] as).map fun table => .tables (items ++ [table])
  | some _ => none

def addBlock (entries : Entries) (block : Block) : Option Entries :=
  entries.within
    (alter block.key.name
      (if block.isArray then appendTable block.assignments else openTable block.assignments))
    block.key.parents

end Entries

mutual

/-- the value of an entry when the document ends -/
def Node.close : Node → Toml
  | .value v => v
  | .table _ entries => .table (closeEntries entries)
  | .tables items => .array (closeTables items)

def closeEntries : List (String × Node) → List (String × Toml)
  | [] => []
  | (name, node) :: rest => (name, node.close) :: closeEntries rest

def closeTables : List (List (String × Node)) → List Toml
  | [] => []
  | entries :: rest => .table (closeEntries entries) :: closeTables rest

end

/-- the table between the braces of an inline table -/
def inlineTable? (as : List Assignment) : Option Toml :=
  (Entries.assignAll [] as).map fun entries => .table (closeEntries entries)

/-- the entries of the table that a document defines -/
def Document.root? (d : Document) : Option (List (String × Toml)) := do
  let entries ← Entries.assignAll [] d.preamble
  let entries ← d.blocks.foldlM Entries.addBlock entries
  return closeEntries entries

end Toml

end DeskClock
