import DeskClock.Config.Document
import DeskClock.Disk
import DeskClock.Text.Utf8
import DeskClock.Toml.Reader
import DeskClock.Toml.Writer

/-!
# the configuration file

* `Config.ofText?`   the configuration of a text;
* `Config.text?`     the text of a configuration, if its numbers fit into TOML;
* `Config.tryLoad`   reads a file and reports what is wrong with it;
* `Config.load`      reads a file and falls back to the defaults;
* `Config.save`      writes a file; when it fails the disk is left as it was.
-/

namespace DeskClock

/-- why a configuration is not read or written -/
inductive ConfigFault where
  /-- the file cannot be read as text, or not be written -/
  | io
  | parse
  /-- a number does not fit into 64 bits with a sign -/
  | serialize
deriving DecidableEq

namespace Config

/-- the file that is read and written where no other is named -/
def defaultPath : String := "clock-config.toml"

def ofText? (text : List Char) : Option Config := (Toml.read? text).bind ofTable?

/-- the settings without a sign, each of which must be below `2 ^ 63` to be written -/
def unsignedSettings (c : Config) : List UInt64 :=
  [c.ntp.timeoutSecs, c.ntp.checkIntervalSecs, c.weather.refreshMinutes, c.weather.timeoutSecs,
   c.weather.cacheTtlMinutes, c.display.tickMillis]

/-- whether all numbers fit into 64 bits with a sign -/
def isWritable (c : Config) : Bool := c.unsignedSettings.all fun n => n.toNat < 9223372036854775808

def text? (c : Config) : Option (List Char) :=
  if c.isWritable then some c.document.write else none

def tryLoad (disk : Disk) (path : String) : Except ConfigFault Config :=
  match (disk.file? path).bind fun file => Utf8.decode? file.contents with
  | none => .error .io
  | some text =>
    match ofText? text with
    | some config => .ok config
    | none => .error .parse

def load (disk : Disk) (path : String) : Config :=
  match tryLoad disk path with
  | .ok config => config
  | .error _ => {}

def save (c : Config) (disk : Disk) (path : String) : Except ConfigFault Unit × Disk :=
  match c.text? with
  | none => (.error .serialize, disk)
  | some text =>
    match disk.write? path (Utf8.encode text) with
    | some disk => (.ok (), disk)
    | none => (.error .io, disk)

end Config

end DeskClock
