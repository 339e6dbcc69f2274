import DeskClock.Clock.Tick
import DeskClock.Config.File
import DeskClock.Native.SharedFile
import DeskClock.Window.Terminal

/-!
# the command line

* `Arguments`            the options;
* `Arguments.parse`      reads them; the last value of an option counts, and a value may look like an
                         option;
* `CommandLine.Machine`  what a run finds: files, the library, the time;
* `CommandLine.run`      one run of the program: what it prints, how it ends and what it asks of the
                         library.
-/

namespace DeskClock

open Native

structure Arguments where
  /-- the configuration file instead of the default one -/
  config : Option String := none
  /-- the key of the weather service instead of the configured one -/
  weatherAppid : Option String := none
  /-- print one frame -/
  stdout : Bool := false
  /-- set the clock of the machine -/
  setTime : Bool := false
deriving DecidableEq

inductive ArgumentFault where
  | missingPath
  | missingKey
  | unknown (word : String)
deriving DecidableEq

def ArgumentFault.message : ArgumentFault → String
  | .missingPath => "--config needs a path"
  | .missingKey => "--weather-appid needs a key"
  | .unknown word => "unknown argument \x60" ++ word ++ "\x60"

namespace Arguments

/-- read words on top of the options read before -/
def parseFrom (a : Arguments) : List String → Except ArgumentFault Arguments
  | [] => .ok a
  | word :: words =>
    if word = "--config" then
      match words with
      | path :: words => { a with config := some path }.parseFrom words
      | [] => .error .missingPath
    else if word = "--weather-appid" ∨ word = "--weather_appid" then
      match words with
      | key :: words => { a with weatherAppid := some key }.parseFrom words
      | [] => .error .missingKey
    else if word = "--stdout" then { a with stdout := true }.parseFrom words
    else if word = "--set-time" then { a with setTime := true }.parseFrom words
    else .error (.unknown word)

def parse (words : List String) : Except ArgumentFault Arguments := parseFrom {} words

end Arguments

namespace CommandLine

structure Machine (σ : Type) where
  disk : Disk
  libraryAt : String → SharedFile
  library : Library σ
  state : σ

/-- an instant, and by how many seconds the local clock is ahead of universal time -/
structure Moment where
  instant : Instant
  offset : Int

/-- why a run fails -/
inductive RunFault where
  | arguments (fault : ArgumentFault)
  /-- the clock of the machine cannot be set without the library -/
  | noLibrary
  | setTimeFailed (outcome : SetTimeOutcome) (server : String)
  | native (fault : Fault)
  /-- the local time is out of range -/
  | localTime
deriving DecidableEq

def RunFault.message : RunFault → String
  | .arguments fault => fault.message
  | .noLibrary => "--set-time needs the clock_util library"
  | .setTimeFailed outcome server => outcome.message ++ " (" ++ server ++ ")"
  | .native fault => fault.message?.getD "the library cannot be used"
  | .localTime => "local time out of range"

/-- what a run prints, how it fails, if it does, and what it asked of the library -/
structure Report where
  printed : List Char := []
  fault : Option RunFault := none
  log : List Exchange := []

/-- an output that keeps the text and never fails -/
def buffer : Output (List Char) Empty where
  write text out := (.ok (), out ++ text)
  flush out := (.ok (), out)

/-- the terminal that the clock is drawn on -/
def terminal : Surface (Terminal (List Char)) Empty := Terminal.surface buffer

/-- lines of text, each with its end -/
def linesText (lines : List String) : List Char := lines.flatMap fun line => line.toList ++ ['\n']

/-- the configuration that the options name, with the key they give -/
def configuration (args : Arguments) (disk : Disk) : Config :=
  let config := Config.load disk (args.config.getD Config.defaultPath)
  match args.weatherAppid with
  | some apiKey => { config with weather := { config.weather with apiKey } }
  | none => config

/-- set the clock of the machine and print how it went -/
def runSetTime (m : Machine σ) (config : Config) (available : Bool) : Report :=
  if available then
    match setTime m.library config.ntp.server config.ntp.timeout (.new m.state) with
    | (.error fault, s) => { fault := some (.native fault), log := s.log }
    | (.ok outcome, s) =>
      { printed := linesText [outcome.message]
        fault := if outcome = .success then none else some (.setTimeFailed outcome config.ntp.server)
        log := s.log }
  else { fault := some .noLibrary }

/-- the clock of a run, with the services if the library is there -/
def prepare (m : Machine σ) (config : Config) (available : Bool) :
    Clock σ (Terminal (List Char)) :=
  let clock := Clock.new config m.disk (.new m.state) { out := [] }
  if available then clock.attach m.library else clock

/-- print one frame -/
def runOnce (m : Machine σ) (config : Config) (available : Bool) (now : Moment) : Report :=
  let clock := prepare m config available
  let log := (clock.release m.library).native.log
  match now.instant.atOffset? now.offset with
  | some moment => { printed := linesText (clock.frame moment), log }
  | none => { fault := some .localTime, log }

/-- tick at some moments, up to the first failure -/
def ticks (lib : Library σ) :
    List Moment → Clock σ (Terminal (List Char)) →
      Option RunFault × Clock σ (Terminal (List Char))
  | [], clock => (none, clock)
  | now :: moments, clock =>
    match clock.tick lib terminal now.instant now.offset with
    | (.ok (), clock) => ticks lib moments clock
    | (.error _, clock) => (some .localTime, clock)

/-- show the clock in a window, tick at some moments, and shut down -/
def runWindow (m : Machine σ) (config : Config) (available : Bool) (moments : List Moment) : Report :=
  let clock := prepare m config available
  let (_, clock) := clock.start terminal
  match ticks m.library moments clock with
  | (none, clock) =>
    let (_, clock) := clock.shutdown m.library terminal
    { printed := clock.host.surface.out, log := clock.native.log }
  | (fault, clock) =>
    let clock := clock.release m.library
    { printed := clock.host.surface.out, fault, log := clock.native.log }

/-- one run at some moments, of which a single frame takes the first -/
def run (m : Machine σ) (now : Moment) (later : List Moment) (words : List String) : Report :=
  match Arguments.parse words with
  | .error fault => { fault := some (.arguments fault) }
  | .ok args =>
    let config := configuration args m.disk
    let available := (SharedFile.find m.libraryAt config.library.path).resolve.toBool
    if args.setTime then runSetTime m config available
    else if args.stdout then runOnce m config available now
    else runWindow m config available (now :: later)

end CommandLine

end DeskClock
