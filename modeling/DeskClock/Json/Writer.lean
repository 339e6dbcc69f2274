import DeskClock.Text.Digits

/-!
# writing JSON texts

* `Json.escape`      a character inside quotes;
* `Json.writeText`   a quoted text.
-/

namespace DeskClock.Json

/-- a character inside quotes: the quote, the backslash and the control characters are escaped -/
def escape (c : Char) : List Char :=
  if c = '\x22' then ['\\', '\x22']
  else if c = '\x5c' then ['\\', '\x5c']
  else if c = '\x08' then ['\\', 'b']
  else if c = '\t' then ['\\', 't']
  else if c = '\n' then ['\\', 'n']
  else if c = '\x0c' then ['\\', 'f']
  else if c = '\r' then ['\\', 'r']
  else if c.toNat < 0x20 then '\\' :: 'u' :: Digits.hex Digits.hexDigitLower 4 c.toNat
  else [c]

def writeText (cs : List Char) : List Char := '\x22' :: cs.flatMap escape ++ ['\x22']

end DeskClock.Json
