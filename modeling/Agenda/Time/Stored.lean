import Agenda.Time.Moment
import Agenda.Text.Numeral
import Agenda.Number.Written

/-! # Moments inside data

Data gives a moment as a text or as a number. A text is a date, a `T`, a blank or an underscore,
and a time of day with an optional offset; or a date alone; or a number. A number counts seconds
from the start of 1970, or milliseconds once it is larger than any sensible count of seconds, and
is read as universal time.
-/

namespace Agenda

open Text

namespace Moment

def epochDay : Int := 719162

/-- The microseconds before 1970. -/
def epochTicks : Int := epochDay * 86400000000

/-- Counts above this are milliseconds. -/
def secondsLimit : Int := 20000000000

/-- The moment some microseconds after the start of 1970. -/
def ofMicros? (micros : Int) : Option Moment :=
  let ticks := epochTicks + micros
  if h : 0 ≤ ticks ∧ ticks < 315537897600000000 then some ⟨ticks, some 0, h⟩ else none

/-- The moment of a whole count. -/
def ofCount? (count : Int) : Option Moment :=
  ofMicros? (count * if secondsLimit < count.natAbs then 1000 else 1000000)

/-- The moment of a fractional count. What lies above the whole number below it is rounded to
microseconds, a half up. -/
def ofFraction? (x : Double) : Option Moment := do
  let (whole, rest) ← x.parts
  let below := rest.lt .zero
  let above := if below then (Double.ofNat 1).plus rest else rest
  let size := if x.lt .zero then x.negate else x
  let unit := if (Double.ofInt secondsLimit).lt size then 1000 else 1000000
  let micros ← (above.timesNat unit).roundUp
  ofMicros? ((if below then whole - 1 else whole) * unit + micros)

/-- A two-digit number after which the text goes on. -/
def two? (cs : List Char) : Option (Int × List Char) :=
  (take? 2 cs).map fun (n, rest) => ((n : Int), rest)

/-- The date at the start of a text, year first and with dashes. -/
def takeDay? (cs : List Char) : Option (Day × List Char) := do
  let (year, rest) ← take? 4 cs
  if rest.head? != some '-' then none
  let (month, rest) ← two? (rest.drop 1)
  if rest.head? != some '-' then none
  let (day, rest) ← two? (rest.drop 1)
  return (← Day.ofParts? year month day, rest)

/-- Six digits of a fraction; further digits are dropped. -/
def takeMicros? (cs : List Char) : Option (Int × List Char) :=
  let digits := cs.takeWhile fun c => (asciiDigit? c).isSome
  if digits.isEmpty then none
  else
    let six := (digits ++ ['0', '0', '0', '0', '0', '0']).take 6
    (take? 6 six).map fun (n, _) => ((n : Int), cs.drop digits.length)

/-- The time of day at the start of a text, with colons. -/
def takeTime? (cs : List Char) : Option (Clock × List Char) := do
  let (hour, rest) ← two? cs
  if rest.head? != some ':' then none
  let (minute, rest) ← two? (rest.drop 1)
  let (second, micro, rest) ←
    if rest.head? == some ':' then do
      let (second, rest) ← two? (rest.drop 1)
      if rest.head? == some '.' || rest.head? == some ',' then
        let (micro, rest) ← takeMicros? (rest.drop 1)
        pure (second, micro, rest)
      else pure (second, 0, rest)
    else pure (0, 0, rest)
  if 23 < hour ∨ 59 < minute ∨ 59 < second then none
  return (← Clock.ofTicks? (hour * 3600000000 + minute * 60000000 + second * 1000000 + micro), rest)

/-- The offset that a text is, none if it is empty. -/
def offsetOf? (cs : List Char) : Option (Option Int) :=
  match cs with
  | [] => some none
  | ['Z'] | ['z'] => some (some 0)
  | sign :: rest => do
    let negative := sign == '-' || sign == '−'
    if !negative && sign != '+' then none
    let (hour, rest) ← two? rest
    let (minute, rest) ← two? (if rest.head? == some ':' then rest.drop 1 else rest)
    let size := hour * 3600000000 + minute * 60000000
    if !rest.isEmpty ∨ 59 < minute ∨ 86400000000 ≤ size then none
    return some (if negative then -size else size)

def ofDateTime? (cs : List Char) : Option Moment := do
  let (day, rest) ← takeDay? cs
  match rest with
  | sep :: rest =>
    if !(['T', 't', ' ', '_'].contains sep) then none
    let (clock, rest) ← takeTime? rest
    return .ofDay day clock (← offsetOf? rest)
  | [] => none

/-- The largest whole number that is counted. -/
def countLimit : Nat := 9223372036854775807

/-- A number that fills a text, whole or with a point. Only behind a point an exponent is read. -/
def ofNumeral? (cs : List Char) : Option Moment :=
  let negative := cs.head? == some '-'
  let body := if negative || cs.head? == some '+' then cs.drop 1 else cs
  let whole := body.takeWhile Written.asciiDigit
  let rest := body.drop whole.length
  if countLimit < numeral whole then none
  else if rest.head? == some '.' then (Written.decimal? Written.asciiDigit cs).bind ofFraction?
  else if whole.isEmpty || !rest.isEmpty then none
  else ofCount? (if negative then -(numeral whole : Int) else numeral whole)

def ofStored? (cs : List Char) : Option Moment :=
  ofDateTime? cs <|> ofNumeral? cs <|> match takeDay? cs with
    | some (day, []) => some (.on day .midnight)
    | _ => none

end Moment

end Agenda
