import Agenda.Number.Double
import Agenda.Text.Blank
import Agenda.Text.Numeral
import Agenda.Text.Occurs

/-! # Numbers in writing

A whole number may have zeros and underscores in front, a fraction of zeros behind, and single
underscores between. A fractional number may have a point and an exponent, or be the name of an
infinity or of not-a-number. Whoever writes data is held to the strict forms; a loose form that
also takes the digits of all scripts is for numbers that a service made up.
-/

namespace Agenda.Written

def asciiDigit (c : Char) : Bool :=
  '0' ≤ c && c ≤ '9'

def asciiLower (s : String) : String :=
  String.ofList (s.toList.map fun c => if 'A' ≤ c && c ≤ 'Z' then Char.ofNat (c.toNat + 32) else c)

/-- A text with its underscores taken out. None of them stands at an end or beside another. -/
def withoutUnderscores? (cs : List Char) : Option (List Char) :=
  if cs.head? == some '_' || cs.getLast? == some '_' || Text.occurs ['_', '_'] cs then none
  else some (cs.filter (· != '_'))

/-! ## Whole numbers -/

/-- A numeral goes on with this after its leading zeros. -/
def opens (c : Char) : Bool :=
  c == '-' || ('1' ≤ c && c ≤ '9')

/-- A numeral without leading zeros and the underscores among them. The last of these characters
stays if nothing but a fraction follows. -/
def withoutZeros? : List Char → Option (List Char)
  | [] => none
  | '0' :: cs =>
    let dropped := cs.takeWhile fun c => c == '0' || c == '_'
    let rest := cs.drop dropped.length
    match rest with
    | [] => some [dropped.getLast?.getD '0']
    | c :: _ =>
      if c == '.' then some (dropped.getLast?.getD '0' :: rest)
      else if opens c then some rest else none
  | c :: cs => if opens c then some (c :: cs) else none

/-- A numeral without a fraction of zeros. -/
def withoutFraction (cs : List Char) : List Char :=
  let whole := cs.takeWhile (· != '.')
  let fraction := cs.drop (whole.length + 1)
  if !fraction.isEmpty && fraction.all (· == '0') then whole else cs

/-- The value of a plain numeral: a minus sign or none, and digits of which the first is zero only
if it is alone. The sign counts towards the length. -/
def plain? (cs : List Char) : Option Int :=
  let negative := cs.head? == some '-'
  let digits := if negative then cs.drop 1 else cs
  if digits.isEmpty || !digits.all asciiDigit || Text.numeralLimit < cs.length ||
      (digits.head? == some '0' && 1 < digits.length) then none
  else some (if negative then -(Text.numeral digits : Int) else Text.numeral digits)

/-- The whole number that a text holds. A plus sign stands in front of everything but a minus sign,
a minus sign in front of the digits or behind leading zeros. -/
def whole? (cs : List Char) : Option Int := do
  let cs ← match Text.stripBoth Text.space cs with
    | '+' :: '-' :: _ => none
    | '+' :: cs => some cs
    | cs => some cs
  plain? (← withoutUnderscores? (withoutFraction (← withoutZeros? cs)))

/-! ## Fractional numbers -/

/-- The number that a text is: a sign or none, and digits with an optional point and exponent or a
name. At least one digit stands before or after the point. -/
def decimal? (isDigit : Char → Bool) (cs : List Char) : Option Double :=
  let negative := cs.head? == some '-'
  let body := if negative || cs.head? == some '+' then cs.drop 1 else cs
  let name := asciiLower (String.ofList body)
  if name = "inf" ∨ name = "infinity" then some (.infinite negative)
  else if name = "nan" then some .nan
  else
    let whole := body.takeWhile isDigit
    let rest := body.drop whole.length
    let pointed := rest.head? == some '.'
    let fraction := if pointed then (rest.drop 1).takeWhile isDigit else []
    let rest := if pointed then rest.drop (fraction.length + 1) else rest
    let marked := rest.head? == some 'e' || rest.head? == some 'E'
    let lowers := (rest.drop 1).head? == some '-'
    let signed := lowers || (rest.drop 1).head? == some '+'
    let exponent := if marked then rest.drop (if signed then 2 else 1) else []
    if (whole.isEmpty && fraction.isEmpty) || (marked && exponent.isEmpty) || (!marked && !rest.isEmpty) ||
        !exponent.all isDigit then none
    else
      let e : Int := if lowers then -(Text.numeral exponent : Int) else Text.numeral exponent
      some (.ofDecimal negative (Text.numeral (whole ++ fraction)) (e - fraction.length))

/-- The number that a text holds, with spaces around it or with underscores in it, not with both. -/
def fractional? (cs : List Char) : Option Double :=
  decimal? asciiDigit (Text.stripBoth Text.space cs) <|>
    (withoutUnderscores? cs).bind (decimal? asciiDigit)

/-- A text without its underscores, each of which stands between two digits; `after` tells whether
a digit stands before the text. -/
def joined? (after : Bool) : List Char → Option (List Char)
  | [] => some []
  | c :: cs =>
    if c == '_' then
      if after && cs.head?.any Text.isDigit then joined? false cs else none
    else (joined? (Text.isDigit c) cs).map (c :: ·)

/-- The number that a text holds in its loose form. -/
def loose? (cs : List Char) : Option Double :=
  (joined? false (Text.trim cs)).bind (decimal? Text.isDigit)

/-- The whole number that a text holds in its loose form. -/
def looseWhole? (cs : List Char) : Option Int := do
  let cs ← joined? false (Text.trim cs)
  let negative := cs.head? == some '-'
  let digits := if negative || cs.head? == some '+' then cs.drop 1 else cs
  if digits.isEmpty || !digits.all Text.isDigit then none
  let n ← Text.numeral? digits
  return if negative then -(n : Int) else n

end Agenda.Written
