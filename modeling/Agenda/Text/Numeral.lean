/-! # Numbers in decimal digits

Writing whole numbers in ASCII digits, plain or to a fixed width, and reading digits.
-/

namespace Agenda.Text

def digitChar (n : Nat) : Char :=
  Char.ofNat (48 + n % 10)

/-- The last `width` decimal digits of a number. -/
def padded : Nat → Nat → List Char
  | 0, _ => []
  | width + 1, n => padded width (n / 10) ++ [digitChar n]

/-- The digits of a number in front of `tail`; `fuel` bounds their count. -/
def digitsBefore : Nat → Nat → List Char → List Char
  | 0, _, tail => tail
  | fuel + 1, n, tail =>
    if n < 10 then digitChar n :: tail else digitsBefore fuel (n / 10) (digitChar n :: tail)

/-- A number without leading zeros. -/
def ofNat (n : Nat) : List Char :=
  digitsBefore (n.log2 + 1) n []

def ofInt (n : Int) : List Char :=
  if n < 0 then '-' :: ofNat n.natAbs else ofNat n.natAbs

def showNat (n : Nat) : String :=
  String.ofList (ofNat n)

def showInt (n : Int) : String :=
  String.ofList (ofInt n)

def asciiDigit? (c : Char) : Option Nat :=
  let n := c.toNat
  if 48 ≤ n && n ≤ 57 then some (n - 48) else none

def hexValue? (c : Char) : Option Nat :=
  let n := c.toNat
  if 48 ≤ n && n ≤ 57 then some (n - 48)
  else if 97 ≤ n && n ≤ 102 then some (n - 87)
  else if 65 ≤ n && n ≤ 70 then some (n - 55)
  else none

/-- A number of exactly `width` ASCII digits at the start of a text, and the rest;
`value` is the number read before. -/
def takeFrom? (value : Nat) : Nat → List Char → Option (Nat × List Char)
  | 0, cs => some (value, cs)
  | _ + 1, [] => none
  | width + 1, c :: cs =>
    match asciiDigit? c with
    | some d => takeFrom? (10 * value + d) width cs
    | none => none

def take? (width : Nat) (cs : List Char) : Option (Nat × List Char) :=
  takeFrom? 0 width cs

/-! ## Decimal digits of all scripts

The decimal digits come in blocks of ten consecutive code points, from the digit zero of the
script on. A numeral may mix scripts.
-/

/-- The digit zero of every script beyond ASCII. -/
def zeroDigits : List Nat := [
  1632, 1776, 1984, 2406, 2534, 2662, 2790, 2918, 3046, 3174, 3302, 3430, 3558, 3664, 3792, 3872,
  4160, 4240, 6112, 6160, 6470, 6608, 6784, 6800, 6992, 7088, 7232, 7248, 42528, 43216, 43264,
  43472, 43504, 43600, 44016, 65296, 66720, 68912, 69734, 69872, 69942, 70096, 70384, 70736,
  70864, 71248, 71360, 71472, 71904, 72016, 72784, 73040, 73120, 92768, 92864, 93008, 120782,
  120792, 120802, 120812, 120822, 123200, 123632, 125264, 130032]

def digitValue? (c : Char) : Option Nat :=
  let n := c.toNat
  if n < 128 then
    if 48 ≤ n && n < 58 then some (n - 48) else none
  else
    (zeroDigits.find? fun z => z ≤ n && n < z + 10).map (n - ·)

def isDigit (c : Char) : Bool :=
  (digitValue? c).isSome

/-- The number written by a run of decimal digits, most significant first. -/
def numeral (cs : List Char) : Nat :=
  cs.foldl (fun n c => 10 * n + (digitValue? c).getD 0) 0

/-- The longest numeral that is read as a whole number. -/
def numeralLimit : Nat := 4300

/-- The number written by a run of decimal digits, unless the numeral is too long to be read. -/
def numeral? (cs : List Char) : Option Nat :=
  if cs.length ≤ numeralLimit then some (numeral cs) else none

end Agenda.Text
