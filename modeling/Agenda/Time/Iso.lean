import Agenda.Number.Double
import Agenda.Time.Moment
import Agenda.Text.Numeral

/-! # Reading dates and times in standard notation

The notations of a date are year, month and day, or year, week and weekday, with dashes or
without. Any single character may stand between the date and the time; the time has two to six
digits, with colons or without, and may carry a fraction and an offset.
-/

namespace Agenda

open Text

/-- The Monday of the first week of a year: the week that holds 4 January. -/
def firstMonday (year : Int) : Int :=
  let fourth := Day.yearStart year + 3
  fourth - fourth % 7

/-- The day of a week of a year; a year has a week 53 only if the next year's first week
starts after it. -/
def Day.ofWeek? (year week weekday : Int) : Option Day :=
  if 1 ≤ year ∧ year ≤ 9999 ∧ 1 ≤ week ∧ 1 ≤ weekday ∧ weekday ≤ 7 ∧
      firstMonday year + (week - 1) * 7 < firstMonday (year + 1) then
    Day.ofNumber? (firstMonday year + (week - 1) * 7 + (weekday - 1))
  else none

/-- A date that fills a text. -/
def Day.ofIso? (cs : List Char) : Option Day := do
  let (year, rest) ← take? 4 cs
  let dashed := rest.head? == some '-'
  let rest := if dashed then rest.drop 1 else rest
  match rest with
  | 'W' :: rest =>
    let (week, rest) ← take? 2 rest
    if rest.isEmpty then Day.ofWeek? year week 1
    else
      let rest ← if dashed then (if rest.head? == some '-' then some (rest.drop 1) else none) else some rest
      let (weekday, rest) ← take? 1 rest
      if rest.isEmpty then Day.ofWeek? year week weekday else none
  | rest =>
    let (month, rest) ← take? 2 rest
    let rest ← if dashed then (if rest.head? == some '-' then some (rest.drop 1) else none) else some rest
    let (day, rest) ← take? 2 rest
    if rest.isEmpty then Day.ofParts? year month day else none

/-- A date written alone has seven, eight or ten characters. Of ten without dashes the last two
are not looked at. -/
def Day.ofIso (cs : List Char) : Except Fault Day :=
  let read := if cs.length = 10 ∧ cs[4]? ≠ some '-' then cs.take 8 else cs
  match if cs.length ∈ [7, 8, 10] then Day.ofIso? read else none with
  | some d => .ok d
  | none => .error .noSuchDate

/-- Hours, minutes, seconds and microseconds as read, and whether the text ended with them. -/
structure TimeParts where
  hour : Nat
  minute : Nat
  second : Nat
  micro : Nat
  complete : Bool

/-- A fraction: up to six digits count, more are skipped. -/
def takeFraction? (cs : List Char) : Option (Nat × Bool) := do
  let width := min cs.length 6
  let (n, rest) ← take? width cs
  return (n * tenTo (6 - width), (rest.dropWhile fun c => (asciiDigit? c).isSome).isEmpty)

/-- The parts of a time of day. Whether colons are used shows after the hour. A separator at the
very end is left over. -/
def takeTime? (cs : List Char) : Option TimeParts := do
  let (hour, rest) ← take? 2 cs
  if rest.isEmpty then return ⟨hour, 0, 0, 0, true⟩
  if rest.length = 1 then return ⟨hour, 0, 0, 0, false⟩
  let colons := rest.head? == some ':'
  let fractional := fun (cs : List Char) => cs.head? == some '.' || cs.head? == some ','
  if !colons && fractional rest then
    let (micro, complete) ← takeFraction? (rest.drop 1)
    return ⟨hour, 0, 0, micro, complete⟩
  let (minute, rest) ← take? 2 (if colons then rest.drop 1 else rest)
  if rest.isEmpty then return ⟨hour, minute, 0, 0, true⟩
  if rest.length = 1 then return ⟨hour, minute, 0, 0, false⟩
  if fractional rest then
    let (micro, complete) ← takeFraction? (rest.drop 1)
    return ⟨hour, minute, 0, micro, complete⟩
  if colons && rest.head? != some ':' then none
  let (second, rest) ← take? 2 (if colons then rest.drop 1 else rest)
  if rest.isEmpty then return ⟨hour, minute, second, 0, true⟩
  if rest.length = 1 then return ⟨hour, minute, second, 0, false⟩
  if fractional rest || (colons && rest.head? == some ':') then
    let (micro, complete) ← takeFraction? (rest.drop 1)
    return ⟨hour, minute, second, micro, complete⟩
  if colons then none
  let (micro, complete) ← takeFraction? rest
  return ⟨hour, minute, second, micro, complete⟩

/-- The time of day with those parts, in range. -/
def TimeParts.clock? (t : TimeParts) : Option Clock :=
  if t.hour ≤ 23 ∧ t.minute ≤ 59 ∧ t.second ≤ 59 then
    Clock.ofTicks? (t.hour * 3600000000 + t.minute * 60000000 + t.second * 1000000 + t.micro)
  else none

/-- The offset with those parts. Less than a second counts only beside a full second. -/
def TimeParts.offset? (negative : Bool) (t : TimeParts) : Option Int :=
  let seconds : Int := t.hour * 3600 + t.minute * 60 + t.second
  let size : Int := if seconds = 0 then 0 else seconds * 1000000 + t.micro
  if size < 86400000000 then some (if negative then -size else size) else none

def opensOffset (c : Char) : Bool :=
  c == '+' || c == '-' || c == 'Z'

/-- A time of day with an optional offset. The first character never opens an offset. -/
def takeClock? (cs : List Char) : Option (Clock × Option Int) := do
  let body := cs.takeWhile (!opensOffset ·)
  let t ← takeTime? body
  let clock ← t.clock?
  match cs.drop body.length with
  | [] => if t.complete then some (clock, none) else none
  | 'Z' :: rest => if rest.isEmpty then some (clock, some 0) else none
  | sign :: rest =>
    let z ← takeTime? rest
    if !z.complete then none
    let offset ← z.offset? (sign == '-')
    return (clock, some offset)

def isAsciiDigit (c : Char) : Bool :=
  (asciiDigit? c).isSome

/-- Where the date ends and the separator stands. A week date with dashes and a digit two places
after its week ends with the week. -/
def dateLength (cs : List Char) : Nat :=
  if cs.length = 7 then 7
  else if cs[4]? == some '-' then
    if cs[5]? == some 'W' then
      if cs[8]? == some '-' then
        if cs.length > 10 && (cs[10]?.any isAsciiDigit) then 8 else 10
      else 8
    else 10
  else if cs[4]? == some 'W' then
    let digits := ((cs.drop 7).takeWhile isAsciiDigit).length
    let stop := max 7 (min cs.length (7 + digits))
    if stop < 9 then stop else if stop % 2 == 0 then 7 else 8
  else 8

def Moment.ofIso? (cs : List Char) : Option Moment := do
  if cs.length < 7 then none
  let n := dateLength cs
  if cs.length < n then none
  let day ← Day.ofIso? (cs.take n)
  match cs.drop n with
  | [] => return .on day .midnight
  | _ :: time =>
    let (clock, offset) ← takeClock? time
    return .ofDay day clock offset

def Moment.ofIso (cs : List Char) : Except Fault Moment :=
  match Moment.ofIso? cs with
  | some m => .ok m
  | none => .error .noSuchDate

end Agenda
