/-! # Double precision

The numbers of double precision as exact values: a sign, a mantissa of at most 53 bits and a
power of two. Every operation computes the exact quotient and rounds it once, to the nearest
such number and a tie to the even mantissa.
-/

namespace Agenda

/-! ## Powers of two, five and ten

The powers that scaling a number takes, each a function of its exponent alone.
-/

def twoTo (n : Nat) : Nat :=
  Nat.pow 2 n

def fiveTo (n : Nat) : Nat :=
  Nat.pow 5 n

def tenTo (n : Nat) : Nat :=
  Nat.pow 10 n

/-! ## The numbers -/

inductive Double where
  /-- `± mantissa * 2 ^ exponent`; the mantissa has 53 bits unless the exponent is the least. -/
  | finite (negative : Bool) (mantissa : Nat) (exponent : Int)
  | infinite (negative : Bool)
  | nan
deriving DecidableEq, Repr

namespace Double

def zero : Double := .finite false 0 (-1074)

instance : Inhabited Double := ⟨zero⟩

/-- The quotient of two numbers rounded to a whole number, a half to the even neighbour. -/
def roundQuotient (n d : Nat) : Nat :=
  let q := n / d
  let r := n % d
  if 2 * r < d then q else if d < 2 * r then q + 1 else if q % 2 = 0 then q else q + 1

/-- The quotient `n / d` in units of `2 ^ e`, as a fraction. -/
def scaled (n d : Nat) (e : Int) : Nat × Nat :=
  if 0 ≤ e then (n, d * twoTo e.toNat) else (n * twoTo (-e).toNat, d)

/-- The nearest number of double precision to `n / d`, with a sign. -/
def ofQuotient (negative : Bool) (n d : Nat) : Double :=
  if n = 0 then .finite negative 0 (-1074)
  else
    let guess : Int := (n.log2 : Int) - d.log2 - 52
    let unit := scaled n d guess
    let e := max (-1074) (if unit.1 < unit.2 * twoTo 52 then guess - 1 else guess)
    let s := scaled n d e
    let m := roundQuotient s.1 s.2
    let m' := if m = twoTo 53 then twoTo 52 else m
    let e' := if m = twoTo 53 then e + 1 else e
    if 971 < e' then .infinite negative else .finite negative m' e'

def ofNat (n : Nat) : Double :=
  ofQuotient false n 1

def ofInt (n : Int) : Double :=
  ofQuotient (n < 0) n.natAbs 1

/-- The nearest number to `digits * 10 ^ exponent`. Far outside the range the answer is known
without computing the power. -/
def ofDecimal (negative : Bool) (digits : Nat) (exponent : Int) : Double :=
  if digits = 0 then .finite negative 0 (-1074)
  else if 400 < exponent then .infinite negative
  else if exponent < -(400 + (digits.log2 : Int)) then .finite negative 0 (-1074)
  else if 0 ≤ exponent then ofQuotient negative (digits * tenTo exponent.toNat) 1
  else ofQuotient negative digits (tenTo (-exponent).toNat)

/-- A finite number as a fraction without its sign. -/
def fraction (mantissa : Nat) (exponent : Int) : Nat × Nat :=
  if 0 ≤ exponent then (mantissa * twoTo exponent.toNat, 1) else (mantissa, twoTo (-exponent).toNat)

def isFinite : Double → Bool
  | .finite .. => true
  | _ => false

def isZero : Double → Bool
  | .finite _ m _ => m == 0
  | _ => false

def negate : Double → Double
  | .finite s m e => .finite (!s) m e
  | .infinite s => .infinite (!s)
  | .nan => .nan

/-! ## Comparison -/

/-- A finite number in units of the smallest power of two. -/
def units (negative : Bool) (mantissa : Nat) (exponent : Int) : Int :=
  let n : Int := mantissa * twoTo (exponent + 1074).toNat
  if negative then -n else n

/-- Order; a not-a-number is before and after nothing. -/
def lt : Double → Double → Bool
  | .nan, _ => false
  | _, .nan => false
  | .infinite s, .infinite t => s && !t
  | .infinite s, .finite .. => s
  | .finite .., .infinite t => !t
  | .finite s m e, .finite t n f => units s m e < units t n f

/-- Order or equality of value; a not-a-number is in neither with anything. -/
def le (x y : Double) : Bool :=
  match x, y with
  | .nan, _ => false
  | _, .nan => false
  | x, y => !y.lt x

/-- Equality of value: both zeros are equal, a not-a-number equals nothing. -/
def same : Double → Double → Bool
  | .finite s m e, .finite t n f => units s m e == units t n f
  | .infinite s, .infinite t => s == t
  | _, _ => false

/-! ## Arithmetic on finite numbers -/

def plus : Double → Double → Double
  | .finite s m e, .finite t n f =>
    let sum := units s m e + units t n f
    if sum = 0 then .finite (s && t) 0 (-1074) else ofQuotient (sum < 0) sum.natAbs (twoTo 1074)
  | _, _ => .nan

def timesNat (x : Double) (k : Nat) : Double :=
  match x with
  | .finite s m e => ofQuotient s ((fraction m e).1 * k) (fraction m e).2
  | .infinite s => if k = 0 then .nan else .infinite s
  | .nan => .nan

def overNat (x : Double) (k : Nat) : Double :=
  match x with
  | .finite s m e => ofQuotient s (fraction m e).1 ((fraction m e).2 * k)
  | .infinite s => .infinite s
  | .nan => .nan

/-- The whole part of a finite number, toward zero, and what is left over. -/
def parts : Double → Option (Int × Double)
  | .finite s m e =>
    let (n, d) := fraction m e
    some (if s then -(n / d : Nat) else (n / d : Nat), ofQuotient s (n % d) d)
  | _ => none

/-- The nearest whole number to a finite number, a half to the even one. -/
def round : Double → Option Int
  | .finite s m e =>
    let (n, d) := fraction m e
    let r : Int := roundQuotient n d
    some (if s then -r else r)
  | _ => none

/-- The nearest whole number to a finite number, a half up. -/
def roundUp (x : Double) : Option Int :=
  match x with
  | .finite s m e =>
    let (n, d) := fraction m e
    let twice : Int := if s then -(2 * n : Nat) else (2 * n : Nat)
    some ((twice + d) / (2 * d : Nat))
  | _ => none

def toInt? : Double → Option Int
  | .finite s m e =>
    let (n, d) := fraction m e
    if n % d = 0 then some (if s then -(n / d : Nat) else (n / d : Nat)) else none
  | _ => none

end Double

end Agenda
