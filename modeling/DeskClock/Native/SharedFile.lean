import DeskClock.Native.Library

/-!
# opening the library

* `Native.SharedFile`     what lies at the path of the library;
* `SharedFile.find`       looks for it, as a loader of libraries does;
* `SharedFile.resolve`    opens it and looks up every entry point; the first that is missing is reported.
-/

namespace DeskClock.Native

inductive SharedFile where
  | absent
  /-- a file that is no shared library -/
  | unreadable
  | exporting (symbols : List String)

/-- The path that a loader of libraries takes from a text: it ends at a zero byte, which may stand at
the end of the text and nowhere else. -/
def loaderPath? (path : String) : Option String :=
  let cs := path.toList
  let cs := if cs.getLast? = some '\x00' then cs.dropLast else cs
  if cs.contains '\x00' then none else some (String.ofList cs)

/-- The file that a loader finds among some files. A name without a slash is looked up in the
directories of the system, where the library is not. -/
def SharedFile.find (files : String → SharedFile) (path : String) : SharedFile :=
  match loaderPath? path with
  | some path => if path.toList.contains '/' then files path else .absent
  | none => .absent

/-- the first entry point that is not among some symbols -/
def firstMissing (symbols : List String) : Option EntryPoint :=
  EntryPoint.all.find? fun entry => !symbols.contains entry.name

def SharedFile.resolve : SharedFile → Except Fault Unit
  | .absent | .unreadable => .error .libraryLoad
  | .exporting symbols =>
    match firstMissing symbols with
    | some entry => .error (.missingSymbol entry)
    | none => .ok ()

end DeskClock.Native
