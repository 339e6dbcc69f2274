import DeskClock.CommandLine
import Std.Time.Zoned.Database

/-!
# the program

* `Program.moment`   the time and the local offset of the machine;
* `Program.stored?`  a file of the machine, with its age;
* `Program.machine`  what a run of the program finds;
* `Program.follow`   the clock on the terminal, tick after tick;
* `Program.run`      one run with the words of the command line.

The program does not open shared libraries: it runs as a plain clock.
-/

namespace DeskClock.Program

open CommandLine

/-- the library that is not there: it makes nothing and refuses everything -/
def noLibrary : Native.Library Unit where
  answer
    | .ntp (.create _), s => (false, s)
    | .ntp (.destroy _), s => ((), s)
    | .ntp (.getTime _ _ _), s => (1, s)
    | .ntp (.process _), s => ([], s)
    | .ntp (.setTime _ _), s => (1, s)
    | .weather (.create _ _ _), s => (false, s)
    | .weather (.destroy _), s => ((), s)
    | .weather (.getByCity _ _ _), s => (1, s)
    | .weather (.process _), s => ([], s)
    | .alarms (.create _), s => (false, s)
    | .alarms (.destroy _), s => ((), s)
    | .alarms (.add _ _ _ _ _), s => (1, s)
    | .alarms (.remove _ _), s => (1, s)
    | .alarms (.next _), s => (none, s)

def moment : IO Moment := do
  let now ← Std.Time.Timestamp.now
  let rules ← Std.Time.Database.defaultGetLocalZoneRules
  match Instant.of? now.val.second.val now.val.nano.val.toNat with
  | some instant => return ⟨instant, (rules.timezoneAt now).offset.second.val⟩
  | none => return ⟨Instant.epoch, 0⟩

/-- the age of a file at a moment; a file from the future counts as new -/
def ageOf (modified : IO.FS.SystemTime) (now : Instant) : Duration :=
  ⟨((now.seconds - modified.sec) * 1000000000 + ((now.nanosecond : Int) - modified.nsec.toNat)).toNat⟩

/-- the file at a path, unless it cannot be read -/
def stored? (path : String) (now : Instant) : IO (Option StoredFile) := do
  try
    let contents ← IO.FS.readBinFile path
    let facts ← (← IO.FS.realPath path).metadata
    return some ⟨contents.toList, ageOf facts.modified now⟩
  catch _ => return none

/-- the files that a run reads are the configuration and then the cache that it names -/
def machine (args : Arguments) (now : Instant) : IO (Machine Unit) := do
  let path := args.config.getD Config.defaultPath
  let disk := Disk.empty.put path (← stored? path now)
  let cachePath := (configuration args disk).weather.cachePath
  return {
    disk := disk.put cachePath (← stored? cachePath now)
    libraryAt := fun _ => .absent
    library := noLibrary
    state := () }

def print (text : List Char) : IO Unit := do
  let out ← IO.getStdout
  out.putStr (String.ofList text)
  out.flush

/-- print what has come to the terminal, and go on with an empty one -/
def printed (clock : Clock Unit (Terminal (List Char))) : IO (Clock Unit (Terminal (List Char))) := do
  print clock.host.surface.out
  return { clock with host := { clock.host with surface := { clock.host.surface with out := [] } } }

/-- tick until a tick fails -/
partial def follow (clock : Clock Unit (Terminal (List Char))) : IO RunFault := do
  let now ← moment
  match ticks noLibrary [now] clock with
  | (some fault, clock) =>
    print clock.host.surface.out
    return fault
  | (none, clock) =>
    let clock ← printed clock
    IO.sleep (.ofNat (min clock.config.display.tick.wholeMillis 4294967295))
    follow clock

def report (fault : RunFault) : IO UInt32 := do
  IO.eprintln ("Error: " ++ fault.message)
  return 1

/-- one run with the words of the command line; it ends with the exit code -/
def run (words : List String) : IO UInt32 := do
  let now ← moment
  match Arguments.parse words with
  | .error fault => report (.arguments fault)
  | .ok args =>
    let m ← machine args now.instant
    if args.setTime || args.stdout then
      let result := CommandLine.run m now [] words
      print result.printed
      match result.fault with
      | some fault => report fault
      | none => return 0
    else
      let (_, clock) := (prepare m (configuration args m.disk) false).start terminal
      report (← follow clock)

end DeskClock.Program

def main (words : List String) : IO UInt32 := DeskClock.Program.run words
