import DeskClock.Text.Utf8

/-!
# text across the native boundary

* `Native.terminated?`   the bytes of a text with a zero byte behind them, if none is among them;
* `Native.textAt`        the text in front of the first zero byte, with U+FFFD for invalid bytes.
-/

namespace DeskClock.Native

/-- the bytes at an address -/
abbrev Memory := List UInt8

/-- a text as the library takes it: its bytes and a zero byte, which a text that holds one cannot have
at its end only -/
def terminated? (text : String) : Option Memory :=
  let bytes := Utf8.ofString text
  if bytes.contains 0 then none else some (bytes ++ [0])

def textAt (memory : Memory) : String := Utf8.lossyString (memory.takeWhile (· != 0))

end DeskClock.Native
