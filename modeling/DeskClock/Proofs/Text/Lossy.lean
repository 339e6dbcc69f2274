import DeskClock.Proofs.Text.Utf8

/-!
# bytes that need not be a text

What a byte may be is said with the bytes of characters alone: it may follow others if there is a character
that starts with all of them.

* `MayFollow`        a byte may follow others in a character;
* `Cut`              bytes are cut into whole characters, parts of characters that the next byte does not go
                     on with, and bytes that start no character;
* `exists_char_two`, `exists_char_three`, `exists_char_four`   the characters of two, three and four bytes;
* `Completes`        bytes that a begun character can go on with to its end;
* `Reads`            what is known of a character when some of its bytes have been read;
* `start_cases`      what a byte outside a character can be;
* `pieces_eq_iff`    `pieces` cuts any bytes so, and there is no other way;
* `lossyString_eq_iff`   the text of any bytes has U+FFFD for each piece that is no character.
-/

namespace DeskClock.Utf8

/-- some character starts with these bytes and then this one -/
def MayFollow (part : List UInt8) (b : UInt8) : Prop :=
  ∃ c rest, String.utf8EncodeChar c = part ++ b :: rest

/-- bytes cut into characters and, for `none`, maximal parts of characters and single bytes -/
inductive Cut : List UInt8 → List (Option Char) → Prop where
  | nil : Cut [] []
  | char (c : Char) {rest : List UInt8} {pieces : List (Option Char)} (h : Cut rest pieces) :
      Cut (String.utf8EncodeChar c ++ rest) (some c :: pieces)
  /-- a character that is begun and not gone on with -/
  | broken {part rest : List UInt8} {pieces : List (Option Char)} (hpart : part ≠ [])
      (hbegun : ∃ b, MayFollow part b) (hend : ∀ b ∈ rest.head?, ¬MayFollow part b)
      (h : Cut rest pieces) : Cut (part ++ rest) (none :: pieces)
  /-- a byte that starts no character -/
  | stray {b : UInt8} {rest : List UInt8} {pieces : List (Option Char)} (hb : ¬MayFollow [] b)
      (h : Cut rest pieces) : Cut (b :: rest) (none :: pieces)

/-! ## the characters of some bytes -/

theorem encodeChar_ofNat {v : Nat} (h : v.isValidChar) :
    String.utf8EncodeChar (Char.ofNat v) =
      if v ≤ 0x7f then [UInt8.ofNat v]
      else if v ≤ 0x7ff then [UInt8.ofNat (v / 64 % 0x20 + 0xc0), tail v]
      else if v ≤ 0xffff then [UInt8.ofNat (v / 4096 % 0x10 + 0xe0), tail (v / 64), tail v]
      else [UInt8.ofNat (v / 262144 % 0x08 + 0xf0), tail (v / 4096), tail (v / 64), tail v] := by
  have hv : (Char.ofNat v).val.toNat = v := by
    have h' := Char.toNat_ofNat v
    rwa [if_pos h] at h'
  unfold String.utf8EncodeChar
  rw [hv]
  rfl

theorem byte_eq_self {n : Nat} {b : UInt8} (h : b.toNat = n) : UInt8.ofNat n = b := by
  rw [← h, UInt8.ofNat_toNat]

theorem tail_eq_self {v : Nat} {b : UInt8} (h : b.toNat = v % 0x40 + 0x80) : tail v = b := byte_eq_self h

section

variable {b b₁ b₂ b₃ : UInt8}

theorem exists_char_two (hb : 0xC2 ≤ b.toNat ∧ b.toNat < 0xE0) (h₁ : 0x80 ≤ b₁.toNat ∧ b₁.toNat ≤ 0xBF) :
    ∃ c, String.utf8EncodeChar c = [b, b₁] := by
  obtain ⟨v, hv⟩ : ∃ v, v = (b.toNat - 0xC0) * 64 + (b₁.toNat - 0x80) := ⟨_, rfl⟩
  have hfirst : b.toNat = v / 64 % 0x20 + 0xc0 := by omega
  have hsecond : b₁.toNat = v % 0x40 + 0x80 := by omega
  refine ⟨Char.ofNat v, ?_⟩
  rw [encodeChar_ofNat (.inl (by omega)), if_neg (by omega), if_pos (by omega), byte_eq_self hfirst,
    tail_eq_self hsecond]

/-- the second byte keeps clear of characters of two bytes, and of surrogates -/
theorem exists_char_three (hb : 0xE0 ≤ b.toNat ∧ b.toNat < 0xF0) (h₁ : 0x80 ≤ b₁.toNat ∧ b₁.toNat ≤ 0xBF)
    (h₂ : 0x80 ≤ b₂.toNat ∧ b₂.toNat ≤ 0xBF) (hlow : b.toNat = 0xE0 → 0xA0 ≤ b₁.toNat)
    (hhigh : b.toNat = 0xED → b₁.toNat ≤ 0x9F) : ∃ c, String.utf8EncodeChar c = [b, b₁, b₂] := by
  obtain ⟨v, hv⟩ : ∃ v, v = (b.toNat - 0xE0) * 4096 + (b₁.toNat - 0x80) * 64 + (b₂.toNat - 0x80) :=
    ⟨_, rfl⟩
  have hvalid : v.isValidChar := by
    unfold Nat.isValidChar
    omega
  have hfirst : b.toNat = v / 4096 % 0x10 + 0xe0 := by omega
  have hsecond : b₁.toNat = v / 64 % 0x40 + 0x80 := by omega
  have hthird : b₂.toNat = v % 0x40 + 0x80 := by omega
  refine ⟨Char.ofNat v, ?_⟩
  rw [encodeChar_ofNat hvalid, if_neg (by omega), if_neg (by omega), if_pos (by omega),
    byte_eq_self hfirst, tail_eq_self hsecond, tail_eq_self hthird]

/-- the second byte keeps clear of characters of three bytes, and of numbers that are too large -/
theorem exists_char_four (hb : 0xF0 ≤ b.toNat ∧ b.toNat ≤ 0xF4) (h₁ : 0x80 ≤ b₁.toNat ∧ b₁.toNat ≤ 0xBF)
    (h₂ : 0x80 ≤ b₂.toNat ∧ b₂.toNat ≤ 0xBF) (h₃ : 0x80 ≤ b₃.toNat ∧ b₃.toNat ≤ 0xBF)
    (hlow : b.toNat = 0xF0 → 0x90 ≤ b₁.toNat) (hhigh : b.toNat = 0xF4 → b₁.toNat ≤ 0x8F) :
    ∃ c, String.utf8EncodeChar c = [b, b₁, b₂, b₃] := by
  obtain ⟨v, hv⟩ : ∃ v, v = (b.toNat - 0xF0) * 262144 + (b₁.toNat - 0x80) * 4096
      + (b₂.toNat - 0x80) * 64 + (b₃.toNat - 0x80) := ⟨_, rfl⟩
  have hvalid : v.isValidChar := by
    unfold Nat.isValidChar
    omega
  have hfirst : b.toNat = v / 262144 % 0x08 + 0xf0 := by omega
  have hsecond : b₁.toNat = v / 4096 % 0x40 + 0x80 := by omega
  have hthird : b₂.toNat = v / 64 % 0x40 + 0x80 := by omega
  have hfourth : b₃.toNat = v % 0x40 + 0x80 := by omega
  refine ⟨Char.ofNat v, ?_⟩
  rw [encodeChar_ofNat hvalid, if_neg (by omega), if_neg (by omega), if_neg (by omega),
    byte_eq_self hfirst, tail_eq_self hsecond, tail_eq_self hthird, tail_eq_self hfourth]

end

/-! ## a character that is begun -/

/-- the next byte of a character lies in the bounds -/
def Begun.Takes (u : Begun) (b : UInt8) : Prop := u.low.toNat ≤ b.toNat ∧ b.toNat ≤ u.high.toNat

/-- bytes with which a character that is begun goes on to its end -/
inductive Completes : Begun → List UInt8 → Prop where
  | last {u : Begun} {b : UInt8} (hb : u.Takes b) (hm : u.more = 0) : Completes u [b]
  | more {u : Begun} {b : UInt8} {m : Nat} {bytes : List UInt8} (hb : u.Takes b) (hm : u.more = m + 1)
      (h : Completes { bits := u.bits * 64 + (b.toNat - 0x80), more := m } bytes) : Completes u (b :: bytes)

theorem exists_completes {u : Begun} {b : UInt8} (hb : u.Takes b) : ∃ bytes, Completes u (b :: bytes) := by
  obtain ⟨m, hm⟩ : ∃ m, u.more = m := ⟨_, rfl⟩
  induction m generalizing u b with
  | zero => exact ⟨[], .last hb hm⟩
  | succ m ih =>
    have hnext : Begun.Takes { bits := u.bits * 64 + (b.toNat - 0x80), more := m } 0x80 :=
      ⟨by show 128 ≤ 128; omega, by show 128 ≤ 191; omega⟩
    obtain ⟨bytes, hbytes⟩ := ih hnext rfl
    exact ⟨0x80 :: bytes, .more hb hm hbytes⟩

theorem Completes.of_zero {u : Begun} {bytes : List UInt8} (h : Completes u bytes) (hm : u.more = 0) :
    ∃ b, bytes = [b] ∧ u.Takes b := by
  cases h with
  | last hb => exact ⟨_, rfl, hb⟩
  | more hb hm' => omega

theorem Completes.of_succ {u : Begun} {bytes : List UInt8} (h : Completes u bytes) {m : Nat}
    (hm : u.more = m + 1) : ∃ b rest, bytes = b :: rest ∧ u.Takes b ∧
      Completes { bits := u.bits * 64 + (b.toNat - 0x80), more := m } rest := by
  cases h with
  | last hb hm' => omega
  | more hb hm' h =>
    obtain rfl : _ = m := Nat.succ.inj (hm'.symm.trans hm)
    exact ⟨_, _, rfl, hb, h⟩

theorem takes_tail {bits more : Nat} {b : UInt8} (h : Begun.Takes { bits, more } b) :
    0x80 ≤ b.toNat ∧ b.toNat ≤ 0xBF := h

/-- a byte begins a character, which all bytes that it takes go on with -/
structure Begins (b : UInt8) (u : Begun) : Prop where
  low_le_high : u.low.toNat ≤ u.high.toNat
  exists_char {bytes : List UInt8} (h : Completes u bytes) : ∃ c, String.utf8EncodeChar c = b :: bytes

section

variable {b low high : UInt8} {bits : Nat}
  (h : 0x80 ≤ low.toNat ∧ low.toNat ≤ high.toNat ∧ high.toNat ≤ 0xBF)
include h

theorem Begun.Takes.bounds {more : Nat} {b : UInt8} (hb : Takes ⟨bits, low, high, more⟩ b) :
    0x80 ≤ b.toNat ∧ b.toNat ≤ 0xBF := ⟨h.1.trans hb.1, hb.2.trans h.2.2⟩

theorem begins_two (hb : 0xC2 ≤ b.toNat ∧ b.toNat < 0xE0) : Begins b ⟨bits, low, high, 0⟩ where
  low_le_high := h.2.1
  exists_char hbytes := by
    obtain ⟨b₁, rfl, h₁⟩ := hbytes.of_zero rfl
    exact exists_char_two hb (h₁.bounds h)

theorem begins_three (hb : 0xE0 ≤ b.toNat ∧ b.toNat < 0xF0) (hlow : b.toNat = 0xE0 → 0xA0 ≤ low.toNat)
    (hhigh : b.toNat = 0xED → high.toNat ≤ 0x9F) : Begins b ⟨bits, low, high, 1⟩ where
  low_le_high := h.2.1
  exists_char hbytes := by
    obtain ⟨b₁, bytes, rfl, h₁, hbytes⟩ := hbytes.of_succ rfl
    obtain ⟨b₂, rfl, h₂⟩ := hbytes.of_zero rfl
    exact exists_char_three hb (h₁.bounds h) (takes_tail h₂) (fun e => (hlow e).trans h₁.1)
      (fun e => h₁.2.trans (hhigh e))

theorem begins_four (hb : 0xF0 ≤ b.toNat ∧ b.toNat ≤ 0xF4) (hlow : b.toNat = 0xF0 → 0x90 ≤ low.toNat)
    (hhigh : b.toNat = 0xF4 → high.toNat ≤ 0x8F) : Begins b ⟨bits, low, high, 2⟩ where
  low_le_high := h.2.1
  exists_char hbytes := by
    obtain ⟨b₁, bytes, rfl, h₁, hbytes⟩ := hbytes.of_succ rfl
    obtain ⟨b₂, bytes, rfl, h₂, hbytes⟩ := hbytes.of_succ rfl
    obtain ⟨b₃, rfl, h₃⟩ := hbytes.of_zero rfl
    exact exists_char_four hb (h₁.bounds h) (takes_tail h₂) (takes_tail h₃)
      (fun e => (hlow e).trans h₁.1) (fun e => h₁.2.trans (hhigh e))

end

/-- a byte outside a character is one by itself, starts none, or begins one -/
theorem start_cases (b : UInt8) :
    (∃ c, start b = ([some c], none) ∧ String.utf8EncodeChar c = [b]) ∨ start b = ([none], none) ∨
    ∃ u, start b = ([], some u) ∧ Begins b u := by
  have hstart := start_byte b.toNat_lt
  rw [UInt8.ofNat_toNat] at hstart
  by_cases h1 : b.toNat < 0x80
  · rw [if_pos h1] at hstart
    refine .inl ⟨_, hstart, ?_⟩
    rw [encodeChar_ofNat (.inl (by omega)), if_pos (by omega), UInt8.ofNat_toNat]
  rw [if_neg h1] at hstart
  by_cases h2 : b.toNat < 0xC2
  · rw [if_pos h2] at hstart
    exact .inr (.inl hstart)
  rw [if_neg h2] at hstart
  by_cases h3 : b.toNat < 0xE0
  · rw [if_pos h3] at hstart
    exact .inr (.inr ⟨_, hstart, begins_two (by decide) (by omega)⟩)
  rw [if_neg h3] at hstart
  by_cases h4 : b.toNat = 0xE0
  · rw [if_pos h4] at hstart
    exact .inr (.inr ⟨_, hstart, begins_three (by decide) (by omega) (fun _ => by decide) (by omega)⟩)
  rw [if_neg h4] at hstart
  by_cases h5 : b.toNat = 0xED
  · rw [if_pos h5] at hstart
    exact .inr (.inr ⟨_, hstart, begins_three (by decide) (by omega) (by omega) (fun _ => by decide)⟩)
  rw [if_neg h5] at hstart
  by_cases h6 : b.toNat < 0xF0
  · rw [if_pos h6] at hstart
    exact .inr (.inr ⟨_, hstart, begins_three (by decide) (by omega) (by omega) (by omega)⟩)
  rw [if_neg h6] at hstart
  by_cases h7 : b.toNat = 0xF0
  · rw [if_pos h7] at hstart
    exact .inr (.inr ⟨_, hstart, begins_four (by decide) (by omega) (fun _ => by decide) (by omega)⟩)
  rw [if_neg h7] at hstart
  by_cases h8 : b.toNat < 0xF4
  · rw [if_pos h8] at hstart
    exact .inr (.inr ⟨_, hstart, begins_four (by decide) (by omega) (by omega) (by omega)⟩)
  rw [if_neg h8] at hstart
  by_cases h9 : b.toNat = 0xF4
  · rw [if_pos h9] at hstart
    exact .inr (.inr ⟨_, hstart, begins_four (by decide) (by omega) (by omega) (fun _ => by decide)⟩)
  rw [if_neg h9] at hstart
  exact .inr (.inl hstart)

/-! ## no character is the start of another -/

theorem piecesFrom_encodeChar (c : Char) : piecesFrom none (String.utf8EncodeChar c) = [some c] := by
  have h := piecesFrom_char c []
  rwa [List.append_nil] at h

/-- a byte ends a piece, or a character is begun behind it -/
theorem step_ne_nil (begun : Option Begun) (b : UInt8) :
    (step begun b).1 ≠ [] ∨ (step begun b).2.isSome := by
  have hstart : (start b).1 ≠ [] ∨ (start b).2.isSome := by
    rcases start_cases b with ⟨c, h, -⟩ | h | ⟨u, h, -⟩
    all_goals
      rw [h]
      simp
  cases begun with
  | none => exact hstart
  | some u =>
    unfold step
    dsimp only
    split
    · split
      all_goals simp
    · simp

/-- bytes that are there are seen in the pieces -/
theorem piecesFrom_ne_nil {begun : Option Begun} {bytes : List UInt8}
    (h : begun.isSome ∨ bytes ≠ []) : piecesFrom begun bytes ≠ [] := by
  induction bytes generalizing begun with
  | nil =>
    have hbegun : begun.isSome := h.resolve_right (fun hne => hne rfl)
    rw [piecesFrom, if_pos hbegun]
    exact List.cons_ne_nil _ _
  | cons b bytes ih =>
    rw [piecesFrom_cons]
    intro hnil
    obtain ⟨hstep, hrest⟩ := List.append_eq_nil_iff.mp hnil
    exact ih (.inl ((step_ne_nil begun b).resolve_left fun hne => hne hstep)) hrest

theorem encodeChar_ne_append (c c' : Char) (b : UInt8) (bytes : List UInt8) :
    String.utf8EncodeChar c ≠ String.utf8EncodeChar c' ++ b :: bytes := by
  intro h
  have hpieces := piecesFrom_encodeChar c
  rw [h, piecesFrom_char] at hpieces
  exact piecesFrom_ne_nil (.inr (List.cons_ne_nil b bytes)) (List.cons.inj hpieces).2

/-! ## a character of which some bytes have been read -/

theorem piecesFrom_of_not_takes {u : Begun} {b : UInt8} (hb : ¬u.Takes b) (bytes : List UInt8) :
    piecesFrom (some u) (b :: bytes) = none :: piecesFrom none (b :: bytes) := by
  have hb' : ¬(u.low ≤ b ∧ b ≤ u.high) := hb
  rw [piecesFrom_cons, piecesFrom_start, step, if_neg hb']
  rfl

theorem piecesFrom_of_takes {u : Begun} {b : UInt8} (hb : u.Takes b) {m : Nat} (hm : u.more = m + 1)
    (bytes : List UInt8) : piecesFrom (some u) (b :: bytes)
      = piecesFrom (some { bits := u.bits * 64 + (b.toNat - 0x80), more := m }) bytes := by
  have h := piecesFrom_more bytes b.toNat_lt hb.1 hb.2 hm
  rwa [UInt8.ofNat_toNat] at h

/-- what is known of a character of which some bytes have been read -/
structure Reads (part : List UInt8) (u : Begun) : Prop where
  ne_nil : part ≠ []
  low_le_high : u.low.toNat ≤ u.high.toNat
  piecesFrom_append (rest : List UInt8) : piecesFrom none (part ++ rest) = piecesFrom (some u) rest
  exists_char {bytes : List UInt8} (h : Completes u bytes) : ∃ c, String.utf8EncodeChar c = part ++ bytes

namespace Reads

variable {part : List UInt8} {u : Begun} {b : UInt8}

theorem start (hb : Utf8.start b = ([], some u)) (h : Begins b u) : Reads [b] u where
  ne_nil := List.cons_ne_nil b []
  low_le_high := h.low_le_high
  piecesFrom_append rest := by
    show piecesFrom none (b :: rest) = _
    rw [piecesFrom_start, hb]
    rfl
  exists_char hbytes := h.exists_char hbytes

theorem more (h : Reads part u) (hb : u.Takes b) {m : Nat} (hm : u.more = m + 1) :
    Reads (part ++ [b]) { bits := u.bits * 64 + (b.toNat - 0x80), more := m } where
  ne_nil := by simp
  low_le_high := by show 128 ≤ 191; omega
  piecesFrom_append rest := by
    rw [← List.append_cons, h.piecesFrom_append, piecesFrom_of_takes hb hm]
  exists_char hbytes := by
    obtain ⟨c, hc⟩ := h.exists_char (.more hb hm hbytes)
    exact ⟨c, by rw [hc, List.append_cons]⟩

theorem mayFollow (h : Reads part u) (hb : u.Takes b) : MayFollow part b := by
  obtain ⟨bytes, hbytes⟩ := exists_completes hb
  obtain ⟨c, hc⟩ := h.exists_char hbytes
  exact ⟨c, bytes, hc⟩

/-- a byte out of the bounds follows in no character, as the pieces would show -/
theorem mayFollow_iff (h : Reads part u) : MayFollow part b ↔ u.Takes b := by
  refine ⟨fun ⟨c, rest, hc⟩ => ?_, h.mayFollow⟩
  by_contra hb
  have hpieces := piecesFrom_encodeChar c
  rw [hc, h.piecesFrom_append, piecesFrom_of_not_takes hb] at hpieces
  cases (List.cons.inj hpieces).1

theorem exists_mayFollow (h : Reads part u) : ∃ b, MayFollow part b :=
  ⟨u.low, h.mayFollow ⟨le_rfl, h.low_le_high⟩⟩

/-- a byte in the bounds ends a character that lacks one -/
theorem last (h : Reads part u) (hb : u.Takes b) (hm : u.more = 0) :
    ∃ c, String.utf8EncodeChar c = part ++ [b] ∧
      ∀ rest, piecesFrom (some u) (b :: rest) = some c :: piecesFrom none rest := by
  obtain ⟨c, hc⟩ := h.exists_char (.last hb hm)
  refine ⟨c, hc, fun rest => ?_⟩
  rw [← h.piecesFrom_append, ← piecesFrom_char, hc, ← List.append_cons]

end Reads

theorem stray_iff (b : UInt8) : start b = ([none], none) ↔ ¬MayFollow [] b := by
  constructor
  · rintro hb ⟨c, rest, hc⟩
    have hpieces := piecesFrom_encodeChar c
    rw [hc, List.nil_append, piecesFrom_start, hb] at hpieces
    cases (List.cons.inj hpieces).1
  · intro hb
    rcases start_cases b with ⟨c, -, hc⟩ | hstart | ⟨u, -, hu⟩
    · exact absurd ⟨c, [], hc⟩ hb
    · exact hstart
    · obtain ⟨bytes, hbytes⟩ := exists_completes (u := u) (b := u.low) ⟨le_rfl, hu.low_le_high⟩
      obtain ⟨c, hc⟩ := hu.exists_char hbytes
      exact absurd ⟨c, u.low :: bytes, hc⟩ hb

/-- the bytes in front of the last one of a character have been read when it comes -/
theorem exists_reads {part rest : List UInt8} {b : UInt8} {c : Char}
    (hc : String.utf8EncodeChar c = part ++ b :: rest) (hpart : part ≠ []) : ∃ u, Reads part u := by
  induction part using List.reverseRecOn generalizing b rest with
  | nil => exact absurd rfl hpart
  | append_singleton part x ih =>
    have hx : String.utf8EncodeChar c = part ++ x :: b :: rest := by rw [hc, ← List.append_cons]
    -- a whole character is not the start of another one
    have hwhole : ∀ c', String.utf8EncodeChar c' ≠ part ++ [x] := fun c' hc' =>
      encodeChar_ne_append c c' b rest (by rw [hc, hc'])
    by_cases hnil : part = []
    · subst hnil
      rcases start_cases x with ⟨c', -, hc'⟩ | hstray | ⟨u, hstart, hu⟩
      · exact absurd hc' (hwhole c')
      · exact absurd ⟨c, b :: rest, hx⟩ ((stray_iff x).mp hstray)
      · exact ⟨u, .start hstart hu⟩
    · obtain ⟨u, hu⟩ := ih hx hnil
      have htakes : u.Takes x := hu.mayFollow_iff.mp ⟨c, b :: rest, hx⟩
      cases hm : u.more with
      | zero =>
        obtain ⟨c', hc', -⟩ := hu.last htakes hm
        exact absurd hc' (hwhole c')
      | succ m => exact ⟨_, hu.more htakes hm⟩

/-! ## all bytes -/

/-- the pieces are a way to cut the bytes, also where a character is begun in front of them -/
theorem cut_piecesFrom (bytes : List UInt8) : Cut bytes (piecesFrom none bytes) ∧
    ∀ part u, Reads part u → Cut (part ++ bytes) (piecesFrom (some u) bytes) := by
  induction bytes with
  | nil =>
    refine ⟨.nil, fun part u hu => ?_⟩
    exact .broken hu.ne_nil hu.exists_mayFollow nofun .nil
  | cons b bytes ih =>
    have hnone : Cut (b :: bytes) (piecesFrom none (b :: bytes)) := by
      rw [piecesFrom_start]
      rcases start_cases b with ⟨c, hstart, hc⟩ | hstray | ⟨u, hstart, hu⟩
      · rw [hstart]
        have hcut : Cut (String.utf8EncodeChar c ++ bytes) (some c :: piecesFrom none bytes) := .char c ih.1
        rwa [hc] at hcut
      · rw [hstray]
        exact .stray ((stray_iff b).mp hstray) ih.1
      · rw [hstart]
        exact ih.2 [b] u (.start hstart hu)
    refine ⟨hnone, fun part u hu => ?_⟩
    by_cases hb : u.Takes b
    · rw [List.append_cons]
      cases hm : u.more with
      | zero =>
        obtain ⟨c, hc, hpieces⟩ := hu.last hb hm
        rw [hpieces, ← hc]
        exact .char c ih.1
      | succ m =>
        rw [piecesFrom_of_takes hb hm]
        exact ih.2 _ _ (hu.more hb hm)
    · rw [piecesFrom_of_not_takes hb]
      refine .broken hu.ne_nil hu.exists_mayFollow ?_ hnone
      rintro _ ⟨⟩ hfollows
      exact hb (hu.mayFollow_iff.mp hfollows)

theorem Cut.pieces_eq {bytes : List UInt8} {parts : List (Option Char)} (h : Cut bytes parts) :
    pieces bytes = parts := by
  induction h with
  | nil => rfl
  | char c _ ih =>
    show piecesFrom none _ = _
    rw [piecesFrom_char]
    exact congrArg (some c :: ·) ih
  | @broken part rest parts hpart hbegun hend _ ih =>
    obtain ⟨b, c, behind, hc⟩ := hbegun
    obtain ⟨u, hu⟩ := exists_reads hc hpart
    show piecesFrom none _ = _
    rw [hu.piecesFrom_append]
    cases rest with
    | nil => exact congrArg (none :: ·) ih
    | cons b rest =>
      have hb : ¬u.Takes b := fun hb => hend b rfl (hu.mayFollow hb)
      rw [piecesFrom_of_not_takes hb]
      exact congrArg (none :: ·) ih
  | stray hb _ ih =>
    show piecesFrom none _ = _
    rw [piecesFrom_start, (stray_iff _).mpr hb]
    exact congrArg (none :: ·) ih

/-- **Bytes are cut in one way only**, into characters and the longest parts that are none. -/
theorem pieces_eq_iff {bytes : List UInt8} {parts : List (Option Char)} :
    pieces bytes = parts ↔ Cut bytes parts := by
  refine ⟨?_, Cut.pieces_eq⟩
  rintro rfl
  exact (cut_piecesFrom bytes).1

/-- a text shows some bytes: their characters, and U+FFFD for each piece that is none -/
def Shows (bytes : List UInt8) (text : String) : Prop :=
  ∃ pieces, Cut bytes pieces ∧ text.toList = pieces.map fun piece => piece.getD '\uFFFD'

theorem lossyString_eq_iff {bytes : List UInt8} {text : String} :
    lossyString bytes = text ↔ Shows bytes text := by
  constructor
  · rintro rfl
    refine ⟨pieces bytes, pieces_eq_iff.mp rfl, ?_⟩
    rw [lossyString, String.toList_ofList]
    rfl
  · rintro ⟨parts, hcut, htext⟩
    rw [← String.toList_inj, htext, lossyString, String.toList_ofList, lossy, hcut.pieces_eq]

/-- a byte that starts nothing, and a character of three bytes that lacks one -/
example : lossyString [0xC0, 0x41, 0xE2, 0x82, 0x42] = "\uFFFDA\uFFFDB" := by rfl

end DeskClock.Utf8
