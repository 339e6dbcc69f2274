import DeskClock.Calendar.Instant

/-!
# files

* `Route`        where a path leads; two paths with one route name the same file;
* `StoredFile`   the bytes of a file and how old the file looks;
* `Disk`         the files by path, and the paths that can be written;
* `Disk.put`     the disk with another file, or none, at a path;
* `Disk.write?`  a disk after a file is written in full, if its path can be written.
-/

namespace DeskClock

/-- Where a path leads: from the root or from here, by the names on the way, to a file or, if it ends
with a slash or a dot, to a directory. A name `..` is kept, because where it leads hangs on the
directories that there are. -/
structure Route where
  fromRoot : Bool
  names : List (List Char)
  toDirectory : Bool
deriving DecidableEq

namespace Route

/-- the parts of a path between its slashes -/
def parts (path : List Char) : List (List Char) :=
  path.foldr (fun c parts => if c = '/' then [] :: parts else parts.modifyHead (c :: ·)) [[]]

/-- a part that leads nowhere else: an empty one between two slashes, or a dot -/
def isIdle (part : List Char) : Bool := part = [] || part = ['.']

def ofPath (path : String) : Route :=
  let parts := parts path.toList
  { fromRoot := path.toList.head? = some '/'
    names := parts.filter fun part => !isIdle part
    toDirectory := parts.getLast?.any isIdle }

end Route

structure StoredFile where
  contents : List UInt8
  age : Duration

/-- the age of a file that has just been written: a moment, but not zero -/
def StoredFile.justWritten : Duration := ⟨1⟩

structure Disk where
  file? : String → Option StoredFile
  writable : String → Bool

namespace Disk

/-- a disk without files where every path can be written -/
def empty : Disk := ⟨fun _ => none, fun _ => true⟩

/-- the disk with another file, or none, at a path -/
def put (disk : Disk) (path : String) (file : Option StoredFile) : Disk :=
  { disk with
    file? := fun other => if Route.ofPath other = Route.ofPath path then file else disk.file? other }

def write? (disk : Disk) (path : String) (contents : List UInt8) : Option Disk :=
  if disk.writable path then some (disk.put path (some ⟨contents, StoredFile.justWritten⟩)) else none

end Disk

end DeskClock
