import DeskClock.Binary64
import DeskClock.Text.Digits

/-!
# the weather

* `TemperatureUnit`         the units of temperature, with their codes and symbols;
* `Temperature.text`        a temperature as the nearest whole degree, a half going to the even one;
* `Conditions`              observed weather;
* `Conditions.line`         how it is shown;
* `WeatherOutcome`          how a weather request can end, with its code;
* `UnknownCode`             a code outside the documented ones.
-/

namespace DeskClock

structure UnknownCode where
  kind : String
  code : Int
deriving DecidableEq

def UnknownCode.message (e : UnknownCode) : String :=
  "unknown " ++ e.kind ++ " code " ++ String.ofList (Digits.ofInt e.code)

inductive TemperatureUnit where
  | kelvin | celsius | fahrenheit
deriving DecidableEq

namespace TemperatureUnit

def all : List TemperatureUnit := [kelvin, celsius, fahrenheit]

def code : TemperatureUnit → Int
  | kelvin => 0 | celsius => 1 | fahrenheit => 2

def name : TemperatureUnit → String
  | kelvin => "kelvin" | celsius => "celsius" | fahrenheit => "fahrenheit"

def symbol : TemperatureUnit → String
  | kelvin => " K" | celsius => "°C" | fahrenheit => "°F"

def ofCode (code : Int) : Except UnknownCode TemperatureUnit :=
  match all.find? (·.code == code) with
  | some unit => .ok unit
  | none => .error ⟨"temperature unit", code⟩

/-- a unit from its exact name -/
def ofName? (name : String) : Option TemperatureUnit := all.find? (·.name == name)

end TemperatureUnit

namespace Temperature

/-- the digits of the nearest whole degree; the sign bit is shown even for zero -/
def degrees : Binary64 → List Char
  | .nan _ => ['N', 'a', 'N']
  | .infinite negative => (if negative then ['-'] else []) ++ ['i', 'n', 'f']
  | .finite negative rank =>
    (if negative then ['-'] else []) ++ Digits.ofNat (Binary64.nearestInteger rank)

def text (value : Binary64) (unit : TemperatureUnit) : String :=
  String.ofList (degrees value) ++ unit.symbol

end Temperature

structure Conditions where
  temperature : Binary64
  high : Binary64
  low : Binary64
  description : String
  unit : TemperatureUnit
deriving DecidableEq

/-- `43°F  H 50°F  L 38°F  light rain` -/
def Conditions.line (c : Conditions) : String :=
  Temperature.text c.temperature c.unit ++ "  H " ++ Temperature.text c.high c.unit
    ++ "  L " ++ Temperature.text c.low c.unit
    ++ (if c.description.isEmpty then "" else "  " ++ c.description)

inductive WeatherOutcome where
  | success | unreachable | invalidData | timeout
deriving DecidableEq

namespace WeatherOutcome

def all : List WeatherOutcome := [success, unreachable, invalidData, timeout]

def code : WeatherOutcome → Int
  | success => 0 | unreachable => 1 | invalidData => 2 | timeout => 3

def text : WeatherOutcome → String
  | success => "success" | unreachable => "communication error" | invalidData => "invalid data"
  | timeout => "timeout"

def ofCode (code : Int) : Except UnknownCode WeatherOutcome :=
  match all.find? (·.code == code) with
  | some outcome => .ok outcome
  | none => .error ⟨"weather operation result", code⟩

end WeatherOutcome

end DeskClock
