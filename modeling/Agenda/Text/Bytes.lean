/-! # Texts as bytes

A character is written in one to four bytes. Bytes that no text has are read as a replacement
character, one for each piece that breaks off or cannot begin; a text that was written is read
back unchanged.
-/

namespace Agenda.Text

def replacement : Char :=
  Char.ofNat 0xFFFD

def charBytes (c : Char) : List Nat :=
  let n := c.toNat
  if n < 0x80 then [n]
  else if n < 0x800 then [0xC0 + n / 64, 0x80 + n % 64]
  else if n < 0x10000 then [0xE0 + n / 4096, 0x80 + n / 64 % 64, 0x80 + n % 64]
  else [0xF0 + n / 262144, 0x80 + n / 4096 % 64, 0x80 + n / 64 % 64, 0x80 + n % 64]

def bytes (cs : List Char) : List Nat :=
  cs.flatMap charBytes

/-- A character of which only some bytes are read: how many are missing, the number read so far,
and the least and the greatest byte that may come next. -/
structure Begun where
  missing : Nat
  value : Nat
  least : Nat := 0x80
  greatest : Nat := 0xBF

/-- What a byte is that does not go on with a character: a character, the beginning of one, or
nothing. -/
def begin (b : Nat) : List Char × Option Begun :=
  if b < 0x80 then ([Char.ofNat b], none)
  else if 0xC2 ≤ b && b ≤ 0xDF then ([], some { missing := 1, value := b - 0xC0 })
  else if 0xE0 ≤ b && b ≤ 0xEF then
    ([], some ⟨2, b - 0xE0, if b = 0xE0 then 0xA0 else 0x80, if b = 0xED then 0x9F else 0xBF⟩)
  else if 0xF0 ≤ b && b ≤ 0xF4 then
    ([], some ⟨3, b - 0xF0, if b = 0xF0 then 0x90 else 0x80, if b = 0xF4 then 0x8F else 0xBF⟩)
  else ([replacement], none)

/-- The text of the bytes that follow a character begun or a whole one. -/
def ofBytesFrom : Option Begun → List Nat → List Char
  | none, [] => []
  | some _, [] => [replacement]
  | none, b :: bs => (begin b).1 ++ ofBytesFrom (begin b).2 bs
  | some x, b :: bs =>
    if x.least ≤ b && b ≤ x.greatest then
      let value := 64 * x.value + (b - 0x80)
      if x.missing ≤ 1 then Char.ofNat value :: ofBytesFrom none bs
      else ofBytesFrom (some { missing := x.missing - 1, value }) bs
    else replacement :: ((begin b).1 ++ ofBytesFrom (begin b).2 bs)

def ofBytes (bs : List Nat) : List Char :=
  ofBytesFrom none bs

theorem ofBytesFrom_begin (b : Nat) (bs : List Nat) :
    ofBytesFrom none (b :: bs) = (begin b).1 ++ ofBytesFrom (begin b).2 bs :=
  rfl

theorem ofBytesFrom_next {x : Begun} {b : Nat} (low : x.least ≤ b) (high : b ≤ x.greatest)
    (bs : List Nat) :
    ofBytesFrom (some x) (b :: bs) =
      if x.missing ≤ 1 then Char.ofNat (64 * x.value + (b - 0x80)) :: ofBytesFrom none bs
      else ofBytesFrom (some { missing := x.missing - 1, value := 64 * x.value + (b - 0x80) }) bs := by
  simp [ofBytesFrom, low, high]

theorem ofBytesFrom_charBytes (c : Char) (bs : List Nat) :
    ofBytesFrom none (charBytes c ++ bs) = c :: ofBytesFrom none bs := by
  have hc : c.toNat < 0x110000 ∧ (c.toNat < 0xD800 ∨ 0xDFFF < c.toNat) := by
    have := c.valid
    simp only [UInt32.isValidChar, Nat.isValidChar] at this
    have h : c.toNat = c.val.toNat := rfl
    omega
  generalize hn : c.toNat = n at hc
  have hchar : Char.ofNat n = c := by rw [← hn]; exact Char.ofNat_toNat c
  rw [charBytes, hn]
  by_cases h1 : n < 0x80
  · simp [h1, ofBytesFrom, begin, hchar]
  by_cases h2 : n < 0x800
  · have hb : begin (0xC0 + n / 64) = ([], some { missing := 1, value := n / 64 }) := by
      have a : ¬ (0xC0 + n / 64 < 0x80) := by omega
      have b : 0xC2 ≤ 0xC0 + n / 64 ∧ 0xC0 + n / 64 ≤ 0xDF := by omega
      simp [begin, a, b]
    simp only [h1, h2, if_false, if_true, List.cons_append, List.nil_append, ofBytesFrom_begin, hb]
    rw [ofBytesFrom_next (by simp) (by simp; omega)]
    have e : 64 * (n / 64) + n % 64 = n := by omega
    simp [e, hchar]
  by_cases h3 : n < 0x10000
  · have hb : begin (0xE0 + n / 4096) = ([], some ⟨2, n / 4096,
        if 0xE0 + n / 4096 = 0xE0 then 0xA0 else 0x80, if 0xE0 + n / 4096 = 0xED then 0x9F else 0xBF⟩) := by
      have a : ¬ (0xE0 + n / 4096 < 0x80) := by omega
      have b : ¬ (0xE0 + n / 4096 ≤ 0xDF) := by omega
      have d : 0xE0 + n / 4096 ≤ 0xEF := by omega
      simp [begin, a, b, d]
    simp only [h1, h2, h3, if_false, if_true, List.cons_append, List.nil_append, ofBytesFrom_begin, hb]
    rw [ofBytesFrom_next (by dsimp only; split <;> omega) (by dsimp only; split <;> omega)]
    simp only [show ¬ (2 : Nat) ≤ 1 by omega, if_false]
    rw [ofBytesFrom_next (by simp) (by simp; omega)]
    have e : 64 * (64 * (n / 4096) + n / 64 % 64) + n % 64 = n := by omega
    simp [e, hchar]
  · have hb : begin (0xF0 + n / 262144) = ([], some ⟨3, n / 262144,
        if 0xF0 + n / 262144 = 0xF0 then 0x90 else 0x80,
        if 0xF0 + n / 262144 = 0xF4 then 0x8F else 0xBF⟩) := by
      have a : ¬ (0xF0 + n / 262144 < 0x80) := by omega
      have b : ¬ (0xF0 + n / 262144 ≤ 0xDF) := by omega
      have d : ¬ (0xF0 + n / 262144 ≤ 0xEF) := by omega
      have e : 0xF0 + n / 262144 ≤ 0xF4 := by omega
      simp [begin, a, b, d, e]
    simp only [h1, h2, h3, if_false, List.cons_append, List.nil_append, ofBytesFrom_begin, hb]
    rw [ofBytesFrom_next (by dsimp only; split <;> omega) (by dsimp only; split <;> omega)]
    simp only [show ¬ (3 : Nat) ≤ 1 by omega, if_false]
    rw [ofBytesFrom_next (by simp) (by simp; omega)]
    simp only [show ¬ (3 - 1 : Nat) ≤ 1 by omega, if_false]
    rw [ofBytesFrom_next (by simp) (by simp; omega)]
    have e : 64 * (64 * (64 * (n / 262144) + n / 4096 % 64) + n / 64 % 64) + n % 64 = n := by omega
    simp [e, hchar]

theorem ofBytes_bytes (cs : List Char) : ofBytes (bytes cs) = cs := by
  induction cs with
  | nil => rfl
  | cons c cs ih =>
    rw [ofBytes, bytes, List.flatMap_cons, ofBytesFrom_charBytes]
    exact congrArg (c :: ·) ih

/-! ## Bytes in sixty-four characters

Three bytes are written in four characters of six bits each. One or two bytes at the end take as
many characters as they need, and equals signs fill up the rest.
-/

/-- The character for a number below 64: the capital letters, the small ones, the digits, plus and
slash. -/
def base64Char (n : Nat) : Char :=
  if n < 26 then Char.ofNat (65 + n)
  else if n < 52 then Char.ofNat (71 + n)
  else if n < 62 then Char.ofNat (n - 4)
  else if n = 62 then '+' else '/'

def base64 : List Nat → List Char
  | [] => []
  | [a] => [base64Char (a / 4), base64Char (a % 4 * 16), '=', '=']
  | [a, b] => [base64Char (a / 4), base64Char (a % 4 * 16 + b / 16), base64Char (b % 16 * 4), '=']
  | a :: b :: c :: bs =>
    base64Char (a / 4) :: base64Char (a % 4 * 16 + b / 16) :: base64Char (b % 16 * 4 + c / 64) ::
      base64Char (c % 64) :: base64 bs

/-! ## The text of a body

What is sent is bytes. JSON begins with ASCII, so the zero bytes among the first four tell how
wide its units are and on which side their low byte stands. Without a zero byte there, a unit is a
byte. A mark of the byte order in front is passed over.
-/

/-- How wide the units of a text are, in bytes, and whether the high byte comes first. -/
structure Units where
  width : Nat
  highFirst : Bool

/-- The units of JSON in bytes, none if each is a byte. -/
def unitsOf? : List Nat → Option Units
  | [a, b] => if a = 0 then some ⟨2, true⟩ else if b = 0 then some ⟨2, false⟩ else none
  | a :: b :: c :: d :: _ =>
    if a = 0 then some ⟨if b = 0 then 4 else 2, true⟩
    else if b = 0 then some ⟨if c = 0 ∧ d = 0 then 4 else 2, false⟩
    else none
  | _ => none

/-- Two numbers below `base` made one, all along. -/
def paired? (base : Nat) (highFirst : Bool) : List Nat → Option (List Nat)
  | [] => some []
  | [_] => none
  | a :: b :: ns =>
    (paired? base highFirst ns).map ((if highFirst then base * a + b else base * b + a) :: ·)

def charOrReplacement (n : Nat) : Char :=
  if n.isValidChar then Char.ofNat n else replacement

/-- The text of units of two bytes, in which two halves may make one character. -/
def ofHalves : List Nat → List Char
  | [] => []
  | [n] => [charOrReplacement n]
  | high :: low :: ns =>
    if 0xD800 ≤ high ∧ high < 0xDC00 ∧ 0xDC00 ≤ low ∧ low < 0xE000 then
      Char.ofNat (0x10000 + (high - 0xD800) * 0x400 + (low - 0xDC00)) :: ofHalves ns
    else charOrReplacement high :: ofHalves (low :: ns)

/-- The text that bytes mean where they hold JSON. -/
def ofJsonBytes? (bs : List Nat) : Option (List Char) := do
  match unitsOf? bs with
  | none => return ofBytes bs
  | some u =>
    let halves ← paired? 0x100 u.highFirst bs
    if u.width = 2 then return ofHalves halves
    let ns ← paired? 0x10000 u.highFirst halves
    if ns.any (0x10FFFF < ·) then none
    return ns.map charOrReplacement

/-- The text that a body of JSON means. -/
def ofBody? (cs : List Char) : Option (List Char) :=
  if cs.head? == some (Char.ofNat 0xFEFF) then some (cs.drop 1) else ofJsonBytes? (bytes cs)

end Agenda.Text
