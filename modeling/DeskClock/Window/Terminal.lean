import DeskClock.Window

/-!
# the terminal as a surface

* `Output`              any behaviour of something that text is written to;
* `Terminal`            an output and the width of the window in characters;
* `Terminal.fit`        a line cut to the width, or set into its middle;
* `Terminal.surface`    draws each frame over the one before.
-/

namespace DeskClock

/-- any behaviour of an output, with an inner state `ω` and causes of failure `ε` -/
structure Output (ω ε : Type) where
  write : List Char → ω → Except ε Unit × ω
  flush : ω → Except ε Unit × ω

namespace Output

/-- write texts one after the other, up to the first failure; empty texts are not written -/
def writeAll (O : Output ω ε) : List (List Char) → ω → Except ε Unit × ω
  | [], out => (.ok (), out)
  | text :: texts, out =>
    if text.isEmpty then O.writeAll texts out
    else
      match O.write text out with
      | (.ok (), out) => O.writeAll texts out
      | (.error e, out) => (.error e, out)

/-- write texts and flush -/
def send (O : Output ω ε) (texts : List (List Char)) (out : ω) : Except ε Unit × ω :=
  match O.writeAll texts out with
  | (.ok (), out) => O.flush out
  | (.error e, out) => (.error e, out)

end Output

structure Terminal (ω : Type) where
  out : ω
  columns : Nat := 1

namespace Terminal

def escapeChar : Char := '\x1b'

def clearAndHome : List Char := [escapeChar, '[', '2', 'J', escapeChar, '[', 'H']
def hideCursor : List Char := [escapeChar, '[', '?', '2', '5', 'l']
def showCursor : List Char := [escapeChar, '[', '?', '2', '5', 'h']

/-- the sequence that sets the title of the terminal -/
def titleSequence (title : String) : List Char :=
  [escapeChar, ']', '0', ';'] ++ title.toList ++ ['\x07']

/-- a line of at most `columns` characters: a long one is cut, a short one is set into the middle -/
def fit (columns : Nat) (line : List Char) : List Char :=
  if columns ≤ line.length then line.take columns
  else List.replicate ((columns - line.length) / 2) ' ' ++ line

/-- the texts that a call writes -/
def texts (columns : Nat) : SurfaceCall → List (List Char)
  | .open options => if options.hideTitleBar then [] else [titleSequence options.title]
  | .show => [hideCursor ++ clearAndHome]
  | .draw lines => clearAndHome :: lines.map fun line => fit columns line.toList ++ ['\n']
  | .close => [clearAndHome ++ showCursor]

/-- the width behind a call; opening sets it -/
def columnsAfter (columns : Nat) : SurfaceCall → Nat
  | .open options => options.columns
  | _ => columns

def surface (O : Output ω ε) : Surface (Terminal ω) ε where
  call c t :=
    let columns := columnsAfter t.columns c
    let (result, out) := O.send (texts columns c) t.out
    (result, ⟨out, columns⟩)

end Terminal

end DeskClock
