import Agenda.Time.Moment
import Agenda.Time.Names
import Agenda.Text.Numeral

/-! # Date phrases and what they say

A phrase of a text names a day, a moment or a time of day. `Hit` keeps what was read and where;
the kind tells which sort of phrase it was.
-/

namespace Agenda.When

inductive PhraseKind where
  | today
  | tomorrow
  | yesterday
  | weekday
  | nextPeriod
  | relative
  | monthDay
  | dayMonth
  | yearMonthDay
  | monthSlashDay
  | twelveHour
  | atHour
  | twentyFourHour
  | noon
  | partOfDay
deriving DecidableEq, Repr

structure Hit where
  kind : PhraseKind
  start : Nat
  stop : Nat
  day : Option Day := none
  moment : Option Moment := none
  clock : Option Clock := none
  /-- The time of day is not open to a later part of the day. -/
  meridiem : Bool := false
  partOfDay : Bool := false
  /-- The phrase gives the year. -/
  dated : Bool := false

namespace Hit

def length (h : Hit) : Nat :=
  h.stop - h.start

def namesDay (h : Hit) : Bool :=
  h.day.isSome || h.moment.isSome

def disjoint (h k : Hit) : Bool :=
  h.stop ≤ k.start || k.stop ≤ h.start

end Hit

/-! ## Words -/

def numberWords : List (String × Nat) :=
  [("a", 1), ("an", 1), ("one", 1), ("two", 2), ("three", 3), ("four", 4), ("five", 5), ("six", 6),
    ("seven", 7), ("eight", 8), ("nine", 9), ("ten", 10), ("eleven", 11), ("twelve", 12)]

/-- The number that a word or a numeral stands for. -/
def number (cs : List Char) : Except Fault Nat :=
  match numberWords.lookup (String.ofList cs) with
  | some n => .ok n
  | none => match Text.numeral? cs with
    | some n => .ok n
    | none => .error .numeralTooLong

def monthPrefixes : List String :=
  ["jan", "feb", "mar", "apr", "may", "jun", "jul", "aug", "sep", "oct", "nov", "dec"]

/-- The number of a month by the first three letters of its name. -/
def monthNumber (cs : List Char) : Int :=
  ((monthPrefixes.findIdx? (·.toList == cs.take 3)).getD 0 : Nat) + 1

def partsOfDay : List (String × Clock) :=
  [("morning", .atHour 9), ("afternoon", .atHour 14), ("evening", .atHour 18), ("night", .atHour 20),
    ("tonight", .atHour 20)]

def partOfDayClock (cs : List Char) : Clock :=
  (partsOfDay.lookup (String.ofList cs)).getD .midnight

/-- The time of day that an hour and a minute mean, with `am`, `pm` or neither. Points in the
half of the day are ignored; an hour of a half day is 1 to 12. -/
def clockFromParts (hour minute : Int) (half : Option (List Char)) : Except Fault (Option Clock) :=
  match half with
  | none | some [] => plain hour
  | some half =>
    let half := half.filter (· != '.')
    if hour < 1 ∨ hour > 12 then .ok none
    else if half = ['p', 'm'] ∧ hour < 12 then plain (hour + 12)
    else if half = ['a', 'm'] ∧ hour = 12 then plain 0
    else plain hour
where
  plain (hour : Int) : Except Fault (Option Clock) :=
    if hour > 23 ∨ minute > 59 then .ok none
    else match Clock.ofParts? hour minute with
      | some c => .ok (some c)
      | none => .error (if Day.isPart hour && Day.isPart minute then .noSuchDate else .dateOverflow)

end Agenda.When
