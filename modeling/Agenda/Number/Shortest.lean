import Agenda.Number.Double
import Agenda.Text.Numeral

/-! # The shortest decimal that reads back

A finite number is written with the fewest digits that read back as the same number; of two
such decimals the nearer one is written. From `10 ^ 16` on and below `10 ^ -4` the notation is
scientific, with an exponent of at least two digits; otherwise it is positional and always has a
fraction, if only `.0`.
-/

namespace Agenda

namespace Double

/-- The digits of a decimal `digits * 10 ^ exponent`. -/
structure Decimal where
  digits : Nat
  exponent : Int
deriving Repr

/-- The decimal exponent of the leading digit of `n / d`, for `n` not zero. -/
def leading (n d : Nat) : Int :=
  let bits : Int := (n.log2 : Int) - d.log2
  let guess := bits * 30103 / 100000
  let reaches (p : Int) : Bool := if 0 ≤ p then d * tenTo p.toNat ≤ n else d ≤ n * tenTo (-p).toNat
  if reaches (guess + 1) then guess + 1
  else if reaches guess then guess
  else if reaches (guess - 1) then guess - 1
  else guess - 2

/-- The neighbours of `n / d` among the decimals with that exponent, the nearer one first;
a tie prefers the even one. -/
def neighbours (n d : Nat) (exponent : Int) : List Nat :=
  let (n', d') := if 0 ≤ exponent then (n, d * tenTo exponent.toNat) else (n * tenTo (-exponent).toNat, d)
  let q := n' / d'
  if roundQuotient n' d' = q then [q, q + 1] else [q + 1, q]

/-- The first decimal with `count` to 17 digits that reads back as `x`, the value `n / d`. -/
def findDecimal (x : Double) (n d : Nat) (top : Int) : Nat → Nat → Option Decimal
  | 0, _ => none
  | fuel + 1, count =>
    let exponent := top - count + 1
    match (neighbours n d exponent).find? fun c => ofDecimal false c exponent = x with
    | some c => some ⟨c, exponent⟩
    | none => findDecimal x n d top fuel (count + 1)

def Decimal.trimmed : Nat → Decimal → Decimal
  | 0, x => x
  | fuel + 1, x => if x.digits % 10 = 0 then Decimal.trimmed fuel ⟨x.digits / 10, x.exponent + 1⟩ else x

/-- The shortest decimal of a positive finite number. Should 17 digits not do, the exact decimal. -/
def shortest (mantissa : Nat) (exponent : Int) : Decimal :=
  let (n, d) := fraction mantissa exponent
  match findDecimal (.finite false mantissa exponent) n d (leading n d) 17 1 with
  | some x => Decimal.trimmed 400 x
  | none => if 0 ≤ exponent then ⟨n, 0⟩ else ⟨mantissa * fiveTo (-exponent).toNat, exponent⟩

/-- The layout of a decimal. -/
def Decimal.layout (x : Decimal) : List Char :=
  let digits := Text.ofNat x.digits
  let point : Int := digits.length + x.exponent
  if point ≤ -4 ∨ 16 < point then
    let e := point - 1
    let tail := digits.drop 1
    digits.take 1 ++ (if tail.isEmpty then [] else '.' :: tail) ++
      'e' :: (if e < 0 then '-' else '+') ::
        (if e.natAbs < 10 then '0' :: Text.ofNat e.natAbs else Text.ofNat e.natAbs)
  else if point ≤ 0 then
    ['0', '.'] ++ List.replicate (-point).toNat '0' ++ digits
  else if digits.length ≤ point then
    digits ++ List.replicate (point.toNat - digits.length) '0' ++ ['.', '0']
  else
    digits.take point.toNat ++ '.' :: digits.drop point.toNat

def text : Double → List Char
  | .nan => "nan".toList
  | .infinite s => (if s then "-inf" else "inf").toList
  | .finite s m e =>
    (if s then ['-'] else []) ++ (if m = 0 then "0.0".toList else (shortest m e).layout)

end Double

end Agenda
