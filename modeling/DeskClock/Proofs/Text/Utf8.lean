import DeskClock.Text.Utf8
import Mathlib

/-!
# reading back bytes in UTF-8

* `pieces_encode`    the bytes of a text, with others behind them, are cut into its characters;
* `decode?_encode`   the text of its own bytes.

A character is written in one to four bytes. The first one tells how many follow and, next to the
least and the greatest numbers that need so many, narrows the bounds of the second.
-/

namespace DeskClock.Utf8

/-! ## a byte from its number -/

theorem toNat_byte {n : Nat} (h : n < 256) : (UInt8.ofNat n).toNat = n :=
  Nat.mod_eq_of_lt h

theorem byte_lt {n : Nat} (h : n < 256) (b : UInt8) : UInt8.ofNat n < b ↔ n < b.toNat := by
  rw [UInt8.lt_iff_toNat_lt, toNat_byte h]

theorem byte_le {n : Nat} (h : n < 256) (b : UInt8) : UInt8.ofNat n ≤ b ↔ n ≤ b.toNat := by
  rw [UInt8.le_iff_toNat_le, toNat_byte h]

theorem le_byte {n : Nat} (h : n < 256) (b : UInt8) : b ≤ UInt8.ofNat n ↔ b.toNat ≤ n := by
  rw [UInt8.le_iff_toNat_le, toNat_byte h]

theorem byte_eq {n : Nat} (h : n < 256) (b : UInt8) : UInt8.ofNat n = b ↔ n = b.toNat := by
  rw [← UInt8.toNat_inj, toNat_byte h]

/-- the first byte of a character, by its number -/
theorem start_byte {n : Nat} (h : n < 256) :
    start (UInt8.ofNat n) =
      if n < 0x80 then ([some (Char.ofNat n)], none)
      else if n < 0xC2 then ([none], none)
      else if n < 0xE0 then ([], some { bits := n - 0xC0, more := 0 })
      else if n = 0xE0 then ([], some { bits := 0, low := 0xA0, more := 1 })
      else if n = 0xED then ([], some { bits := 0xD, high := 0x9F, more := 1 })
      else if n < 0xF0 then ([], some { bits := n - 0xE0, more := 1 })
      else if n = 0xF0 then ([], some { bits := 0, low := 0x90, more := 2 })
      else if n < 0xF4 then ([], some { bits := n - 0xF0, more := 2 })
      else if n = 0xF4 then ([], some { bits := 4, high := 0x8F, more := 2 })
      else ([none], none) := by
  unfold start
  simp only [byte_lt h, byte_eq h, toNat_byte h]
  rfl

/-- a byte inside the bounds continues a character -/
theorem step_more {u : Begun} {n m : Nat} (h : n < 256) (hl : u.low.toNat ≤ n)
    (hh : n ≤ u.high.toNat) (hm : u.more = m + 1) :
    step (some u) (UInt8.ofNat n) = ([], some { bits := u.bits * 64 + (n - 0x80), more := m }) := by
  unfold step
  simp only [le_byte h, byte_le h, hl, hh, hm, toNat_byte h, and_self, if_true]

/-- a byte inside the bounds ends a character that lacks one byte -/
theorem step_last {u : Begun} {n : Nat} (h : n < 256) (hl : u.low.toNat ≤ n)
    (hh : n ≤ u.high.toNat) (hm : u.more = 0) :
    step (some u) (UInt8.ofNat n) = ([some (Char.ofNat (u.bits * 64 + (n - 0x80)))], none) := by
  unfold step
  simp only [le_byte h, byte_le h, hl, hh, hm, toNat_byte h, and_self, if_true]

/-! ## whole characters -/

theorem piecesFrom_cons (begun : Option Begun) (b : UInt8) (bs : List UInt8) :
    piecesFrom begun (b :: bs) = (step begun b).1 ++ piecesFrom (step begun b).2 bs := rfl

theorem piecesFrom_last {u : Begun} {n : Nat} (rest : List UInt8) (h : n < 256)
    (hl : u.low.toNat ≤ n) (hh : n ≤ u.high.toNat) (hm : u.more = 0) :
    piecesFrom (some u) (UInt8.ofNat n :: rest)
      = some (Char.ofNat (u.bits * 64 + (n - 0x80))) :: piecesFrom none rest := by
  rw [piecesFrom_cons, step_last h hl hh hm]
  rfl

theorem piecesFrom_more {u : Begun} {n m : Nat} (rest : List UInt8) (h : n < 256)
    (hl : u.low.toNat ≤ n) (hh : n ≤ u.high.toNat) (hm : u.more = m + 1) :
    piecesFrom (some u) (UInt8.ofNat n :: rest)
      = piecesFrom (some { bits := u.bits * 64 + (n - 0x80), more := m }) rest := by
  rw [piecesFrom_cons, step_more h hl hh hm]
  rfl

/-- the last bits of a number, in a byte that continues a character -/
def tail (n : Nat) : UInt8 := UInt8.ofNat (n % 0x40 + 0x80)

theorem piecesFrom_tail {bits : Nat} (v : Nat) (rest : List UInt8) (hv : bits = v / 64) :
    piecesFrom (some { bits, more := 0 }) (tail v :: rest)
      = some (Char.ofNat v) :: piecesFrom none rest := by
  rw [tail, piecesFrom_last rest (by omega) (by show 128 ≤ _; omega) (by show _ ≤ 191; omega) rfl]
  show some (Char.ofNat (bits * 64 + (v % 0x40 + 0x80 - 0x80))) :: _ = _
  rw [show bits * 64 + (v % 0x40 + 0x80 - 0x80) = v by omega]

theorem piecesFrom_tail_tail {u : Begun} (v : Nat) (rest : List UInt8) (hv : u.bits = v / 4096)
    (hl : u.low.toNat ≤ v / 64 % 0x40 + 0x80) (hh : v / 64 % 0x40 + 0x80 ≤ u.high.toNat)
    (hm : u.more = 1) :
    piecesFrom (some u) (tail (v / 64) :: tail v :: rest)
      = some (Char.ofNat v) :: piecesFrom none rest := by
  rw [tail, piecesFrom_more _ (by omega) hl hh hm]
  exact piecesFrom_tail v rest (by rw [hv]; omega)

theorem piecesFrom_tail_tail_tail {u : Begun} (v : Nat) (rest : List UInt8)
    (hv : u.bits = v / 262144) (hl : u.low.toNat ≤ v / 4096 % 0x40 + 0x80)
    (hh : v / 4096 % 0x40 + 0x80 ≤ u.high.toNat) (hm : u.more = 2) :
    piecesFrom (some u) (tail (v / 4096) :: tail (v / 64) :: tail v :: rest)
      = some (Char.ofNat v) :: piecesFrom none rest := by
  rw [tail, piecesFrom_more _ (by omega) hl hh hm]
  refine piecesFrom_tail_tail v rest ?_ ?_ ?_ rfl
  · show u.bits * 64 + (v / 4096 % 64 + 128 - 128) = v / 4096
    rw [hv]
    omega
  · show 128 ≤ _
    omega
  · show _ ≤ 191
    omega

/-- the numbers of characters are below 1114112, and none is a surrogate -/
theorem toNat_char (c : Char) : c.toNat < 0xD800 ∨ 0xDFFF < c.toNat ∧ c.toNat < 0x110000 := c.valid

theorem piecesFrom_start (b : UInt8) (rest : List UInt8) :
    piecesFrom none (b :: rest) = (start b).1 ++ piecesFrom (start b).2 rest := rfl

theorem piecesFrom_one {v : Nat} (rest : List UInt8) (h : v < 0x80) :
    piecesFrom none (UInt8.ofNat v :: rest) = some (Char.ofNat v) :: piecesFrom none rest := by
  rw [piecesFrom_start, start_byte (by omega), if_pos h]
  rfl

theorem piecesFrom_two {v : Nat} (rest : List UInt8) (hl : 0x80 ≤ v) (hh : v < 0x800) :
    piecesFrom none (UInt8.ofNat (v / 64 % 0x20 + 0xc0) :: tail v :: rest)
      = some (Char.ofNat v) :: piecesFrom none rest := by
  rw [piecesFrom_start, start_byte (by omega), if_neg (by omega), if_neg (by omega),
    if_pos (by omega)]
  exact piecesFrom_tail v rest (by omega)

theorem piecesFrom_three {v : Nat} (rest : List UInt8) (hl : 0x800 ≤ v) (hh : v < 0x10000)
    (hs : v < 0xD800 ∨ 0xDFFF < v) :
    piecesFrom none (UInt8.ofNat (v / 4096 % 0x10 + 0xe0) :: tail (v / 64) :: tail v :: rest)
      = some (Char.ofNat v) :: piecesFrom none rest := by
  rw [piecesFrom_start, start_byte (by omega), if_neg (by omega), if_neg (by omega),
    if_neg (by omega)]
  -- 0xE0 and 0xED narrow the bounds of the second byte
  by_cases h1 : v / 4096 % 0x10 + 0xe0 = 0xE0
  · rw [if_pos h1]
    exact piecesFrom_tail_tail v rest (by show 0 = _; omega) (by show 160 ≤ _; omega)
      (by show _ ≤ 191; omega) rfl
  rw [if_neg h1]
  by_cases h2 : v / 4096 % 0x10 + 0xe0 = 0xED
  · rw [if_pos h2]
    exact piecesFrom_tail_tail v rest (by show 13 = _; omega) (by show 128 ≤ _; omega)
      (by show _ ≤ 159; omega) rfl
  rw [if_neg h2, if_pos (by omega)]
  exact piecesFrom_tail_tail v rest (by show _ - _ = _; omega) (by show 128 ≤ _; omega)
    (by show _ ≤ 191; omega) rfl

theorem piecesFrom_four {v : Nat} (rest : List UInt8) (hl : 0x10000 ≤ v) (hh : v < 0x110000) :
    piecesFrom none (UInt8.ofNat (v / 262144 % 0x08 + 0xf0) :: tail (v / 4096) :: tail (v / 64)
      :: tail v :: rest) = some (Char.ofNat v) :: piecesFrom none rest := by
  rw [piecesFrom_start, start_byte (by omega), if_neg (by omega), if_neg (by omega),
    if_neg (by omega), if_neg (by omega), if_neg (by omega), if_neg (by omega)]
  -- 0xF0 and 0xF4 narrow the bounds of the second byte
  by_cases h1 : v / 262144 % 0x08 + 0xf0 = 0xF0
  · rw [if_pos h1]
    exact piecesFrom_tail_tail_tail v rest (by show 0 = _; omega) (by show 144 ≤ _; omega)
      (by show _ ≤ 191; omega) rfl
  rw [if_neg h1]
  by_cases h2 : v / 262144 % 0x08 + 0xf0 < 0xF4
  · rw [if_pos h2]
    exact piecesFrom_tail_tail_tail v rest (by show _ - _ = _; omega) (by show 128 ≤ _; omega)
      (by show _ ≤ 191; omega) rfl
  rw [if_neg h2, if_pos (by omega)]
  exact piecesFrom_tail_tail_tail v rest (by show 4 = _; omega) (by show 128 ≤ _; omega)
    (by show _ ≤ 143; omega) rfl

theorem piecesFrom_char (c : Char) (rest : List UInt8) :
    piecesFrom none (String.utf8EncodeChar c ++ rest) = some c :: piecesFrom none rest := by
  have hc := toNat_char c
  have e : some c = some (Char.ofNat c.val.toNat) := congrArg some (Char.ofNat_toNat c).symm
  rw [e]
  unfold String.utf8EncodeChar
  change c.val.toNat < _ ∨ _ < c.val.toNat ∧ c.val.toNat < _ at hc
  generalize c.val.toNat = v at hc ⊢
  by_cases h1 : v ≤ 0x7f
  · rw [if_pos h1]
    exact piecesFrom_one (v := v) rest (by omega)
  rw [if_neg h1]
  by_cases h2 : v ≤ 0x7ff
  · rw [if_pos h2]
    exact piecesFrom_two (v := v) rest (by omega) (by omega)
  rw [if_neg h2]
  by_cases h3 : v ≤ 0xffff
  · rw [if_pos h3]
    exact piecesFrom_three (v := v) rest (by omega) (by omega) (by omega)
  rw [if_neg h3]
  exact piecesFrom_four (v := v) rest (by omega) (by omega)

/-! ## texts -/

theorem encode_cons (c : Char) (cs : List Char) :
    encode (c :: cs) = String.utf8EncodeChar c ++ encode cs := List.flatMap_cons

theorem encode_append (a b : List Char) : encode (a ++ b) = encode a ++ encode b :=
  List.flatMap_append

theorem pieces_encode (cs : List Char) (rest : List UInt8) :
    pieces (encode cs ++ rest) = cs.map some ++ pieces rest := by
  induction cs with
  | nil => rfl
  | cons c cs ih =>
    rw [encode_cons, List.append_assoc]
    show piecesFrom none _ = _
    rw [piecesFrom_char]
    exact congrArg (some c :: ·) ih

theorem mapM_id_some {α : Type} (l : List α) : (l.map some).mapM id = some l := by
  induction l with
  | nil => rfl
  | cons a l ih =>
    rw [List.map_cons, List.mapM_cons, ih]
    rfl

theorem decode?_encode (cs : List Char) : decode? (encode cs) = some cs := by
  have h := pieces_encode cs []
  rw [List.append_nil, show pieces [] = [] from rfl, List.append_nil] at h
  rw [decode?, h, mapM_id_some]

end DeskClock.Utf8
