/-!
# white space

* `isBlank`    the characters with the Unicode property White_Space;
* `trimStart`  a text without the blanks in front;
* `trim`       a text without the blanks around it.
-/

namespace DeskClock

/-- the characters with the Unicode property White_Space -/
def isBlank (c : Char) : Bool :=
  let n := c.toNat
  (9 ≤ n && n ≤ 13) || n == 0x20 || n == 0x85 || n == 0xA0 || n == 0x1680
    || (0x2000 ≤ n && n ≤ 0x200A) || n == 0x2028 || n == 0x2029 || n == 0x202F
    || n == 0x205F || n == 0x3000

def trimStart (cs : List Char) : List Char := cs.dropWhile isBlank

def trim (cs : List Char) : List Char :=
  (trimStart (trimStart cs).reverse).reverse

/-- a text of blanks only -/
def allBlank (cs : List Char) : Bool := cs.all isBlank

end DeskClock
