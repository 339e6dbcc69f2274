import DeskClock.Binary64.Decimal
import DeskClock.Native.Row
import DeskClock.Native.Scripted

/-!
# a plain stand-in for the library

* `StandIn.library`   accepts what it is asked for, refuses a time server that is not named or whose name
                      holds `fail`, stores alarms by their text, and never calls back;
* `StandIn.line`      a call as a line of its log.
-/

namespace DeskClock.Native.StandIn

open Scripted (StoredAlarm earliest?)

/-- the alarms of each scheduler, the earliest added first -/
abbrev State := List (Handle × StoredAlarm)

def stored (s : State) (h : Handle) : List StoredAlarm := (s.filter (·.1 == h)).map (·.2)

/-- whether a text lies somewhere inside another -/
def occursIn (word : List Char) : List Char → Bool
  | [] => word.isEmpty
  | c :: cs => word.isPrefixOf (c :: cs) || occursIn word cs

def refuses (server : String) : Bool :=
  server.isEmpty || occursIn ['f', 'a', 'i', 'l'] server.toList

def answerAlarms : (r : AlarmRequest) → State → r.Answer × State
  | .create _, s => (true, s)
  | .destroy h, s => ((), s.filter (·.1 != h))
  | .add h text time days sound, s =>
    if (stored s h).any (·.text == text) then (3, s) else (0, s ++ [(h, ⟨text, time, days, sound⟩)])
  | .remove h text, s =>
    if (stored s h).any (·.text == text) then
      (0, s.filter fun (other, a) => other != h || a.text != text)
    else (1, s)
  | .next h, s => ((earliest? (stored s h)).map StoredAlarm.record, s)

def library : Library State where
  answer
    | .ntp (.create _), s => (true, s)
    | .ntp (.destroy _), s => ((), s)
    | .ntp (.getTime _ server _), s => (if (textAt server).isEmpty then 2 else 0, s)
    | .ntp (.process _), s => ([], s)
    | .ntp (.setTime server _), s => (if refuses (textAt server) then 1 else 0, s)
    | .weather (.create _ _ _), s => (true, s)
    | .weather (.destroy _), s => ((), s)
    | .weather (.getByCity _ _ _), s => (0, s)
    | .weather (.process _), s => ([], s)
    | .alarms r, s => answerAlarms r s

/-! ## the log -/

def natText (n : Nat) : String := String.ofList (Digits.ofNat n)
def intText (n : Int) : String := String.ofList (Digits.ofInt n)

/-- a coordinate with four places -/
def placesText : Binary64 → String
  | .nan negative => if negative then "-nan" else "nan"
  | .infinite negative => if negative then "-inf" else "inf"
  | .finite negative rank =>
    (if negative then "-" else "") ++ String.ofList (Binary64.fixed 4 rank)

/-- what is logged of a call besides its name; handles are left out -/
def details : Exchange → List String
  | ⟨.ntp (.getTime _ server timeout), status⟩ => [textAt server, natText timeout, intText status]
  | ⟨.ntp (.setTime server timeout), status⟩ => [textAt server, natText timeout, intText status]
  | ⟨.weather (.create _ key unit), _⟩ => [textAt key, intText unit]
  | ⟨.weather (.getByCity _ location timeout), status⟩ =>
    [placesText location.latitude, placesText location.longitude, natText timeout, intText status]
  | ⟨.alarms (.add _ text time days sound), status⟩ =>
    [textAt text, natText time.hour ++ ":" ++ natText time.minute, natText days.toNat,
     (sound.map textAt).getD "(none)", intText status]
  | _ => []

/-- a call as words with spaces between them -/
def line (e : Exchange) : String := " ".intercalate (e.entry.name :: details e)

end DeskClock.Native.StandIn
