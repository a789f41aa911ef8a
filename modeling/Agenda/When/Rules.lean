import Agenda.When.Hit
import Agenda.Pattern

/-! # The rules of date phrases

Sixteen rules over lower-case text. Each has a pattern and a reading of its match; a match that
names no real day or time gives no hit, and a day outside the calendar is a fault.
-/

namespace Agenda.When

open Pattern

structure Rule where
  pattern : Pattern
  resolve : Match → Moment → Except Fault (Option Hit)

/-! ## Pieces of patterns -/

def digits (least most : Nat) : Pattern :=
  upTo Text.isDigit least most

def words (ss : List String) : Pattern :=
  anyOf (ss.map exactly)

def numberPattern : Pattern :=
  either (some1 Text.isDigit) (words (numberWords.map (·.1)))

def unitNames : List String :=
  ["minute", "min", "hour", "hr", "day", "week", "month", "year"]

/-- A unit of time as capture `n`, with an optional plural s. -/
def unitPattern (n : Nat) : Pattern :=
  capture n (words unitNames) ++ opt (char 's')

def weekdayPattern : Pattern :=
  words weekdayNames

def stem (head tail : String) : Pattern :=
  exactly head ++ opt (exactly tail)

def monthPattern : Pattern :=
  anyOf [stem "jan" "uary", stem "feb" "ruary", stem "mar" "ch", stem "apr" "il", exactly "may",
    stem "jun" "e", stem "jul" "y", stem "aug" "ust",
    exactly "sep" ++ opt (stem "t" "ember"),
    stem "oct" "ober", stem "nov" "ember", stem "dec" "ember"]

def ordinalPattern : Pattern :=
  opt (words ["st", "nd", "rd", "th"])

def yearPattern : Pattern :=
  opt (opt (char ',') ++ blanks ++ capture 3 (digits 4 4))

def minutePattern : Pattern :=
  opt (char ':' ++ capture 2 (digits 2 2))

/-- `am` or `pm`, with or without points. -/
def halfOfDay : Pattern :=
  oneFrom ['a', 'p'] ++ opt (char '.') ++ char 'm'

def lowerLetter (c : Char) : Bool :=
  'a' ≤ c && c ≤ 'z'

/-! ## Readings -/

def hit (kind : PhraseKind) (m : Match) : Hit :=
  { kind, start := m.start, stop := m.stop }

def dayHit (kind : PhraseKind) (m : Match) (day : Except Fault Day) : Except Fault (Option Hit) :=
  day.map fun d => some { hit kind m with day := some d }

def clockHit (kind : PhraseKind) (m : Match) (clock : Except Fault (Option Clock))
    (meridiem : Bool) : Except Fault (Option Hit) :=
  clock.map (·.map fun c => { hit kind m with clock := some c, meridiem })

def numeralOf (m : Match) (n : Nat) : Int :=
  Text.numeral (m.text n)

/-- A day and month without year are the next such day, this year or the next. -/
def forward (d : Option Day) (today : Day) (dated : Bool) : Option Day := do
  let d ← d
  if dated || today.number ≤ d.number then return d
  else Day.ofParts? (d.year + 1) d.month d.dayOfMonth

/-- The day of a month, in the year of capture 3 if it is there. -/
def monthDay (kind : PhraseKind) (m : Match) (now : Moment) (month day : Int) (year : List Char) :
    Except Fault (Option Hit) :=
  let dated := !year.isEmpty
  let year : Int := if dated then Text.numeral year else now.day.year
  .ok <| (forward (Day.ofParts? year month day) now.day dated).map fun d =>
    { hit kind m with day := some d, dated }

def offset (now : Moment) (n : Nat) (unit : List Char) : Except Fault Moment :=
  let after (ticks : Int) : Except Fault Moment := do now.plus (← Moment.span (n * ticks))
  let unit := String.ofList unit
  if unit = "minute" ∨ unit = "min" then after minuteTicks
  else if unit = "hour" ∨ unit = "hr" then after hourTicks
  else if unit = "day" then after dayTicks
  else if unit = "week" then after (7 * dayTicks)
  else if unit = "month" then now.plusMonths n
  else now.plusMonths (12 * n)

def relative (m : Match) (now : Moment) : Except Fault (Option Hit) := do
  let n ← number (m.text 1)
  let moment ← offset now n (m.text 2)
  return some { hit .relative m with moment := some moment }

/-! ## The rules, in the order in which they are tried -/

def todayRule : Rule where
  pattern := edge ++ capture 1 (words ["today", "tonight"]) ++ edge
  resolve m now :=
    let h := { hit .today m with day := some now.day }
    .ok <| some <|
      if m.text 1 == "tonight".toList then
        { h with clock := some (partOfDayClock (m.text 1)), partOfDay := true }
      else h

def tomorrowRule : Rule where
  pattern := edge ++ words ["tomorrow", "tommorrow", "tomorow", "tmrw"] ++ edge
  resolve m now := dayHit .tomorrow m (now.day.plus 1)

def yesterdayRule : Rule where
  pattern := edge ++ exactly "yesterday" ++ edge
  resolve m now := dayHit .yesterday m (now.day.plus (-1))

/-- After `next` or `coming` today's weekday is a week away, otherwise it is today. -/
def weekdayRule : Rule where
  pattern := edge ++ opt (capture 1 (words ["next", "this", "coming"]) ++ blanks) ++
    capture 2 weekdayPattern ++ edge
  resolve m now :=
    let strict := m.text 1 == "next".toList || m.text 1 == "coming".toList
    dayHit .weekday m (now.day.nextWeekday ((weekdayNamed? (m.text 2)).getD 0) strict)

def nextPeriodRule : Rule where
  pattern := edge ++ exactly "next" ++ blanks ++ capture 1 (words ["week", "month", "year"]) ++ edge
  resolve m now :=
    let unit := String.ofList (m.text 1)
    dayHit .nextPeriod m <|
      if unit = "week" then now.day.plus 7
      else (now.plusMonths (if unit = "month" then 1 else 12)).map (·.day)

def inRule : Rule where
  pattern := edge ++ words ["in", "after"] ++ blanks ++ capture 1 numberPattern ++ blanks ++
    unitPattern 2 ++ edge
  resolve := relative

def fromNowRule : Rule where
  pattern := edge ++ capture 1 numberPattern ++ blanks ++ unitPattern 2 ++ blanks ++
    either (exactly "from" ++ blanks ++ exactly "now") (exactly "later") ++ edge
  resolve := relative

def monthDayRule : Rule where
  pattern := edge ++ capture 1 monthPattern ++ opt (char '.') ++ blanks ++ capture 2 (digits 1 2) ++
    ordinalPattern ++ yearPattern ++ edge
  resolve m now := monthDay .monthDay m now (monthNumber (m.text 1)) (numeralOf m 2) (m.text 3)

def dayMonthRule : Rule where
  pattern := edge ++ capture 1 (digits 1 2) ++ ordinalPattern ++ blanks ++
    opt (exactly "of" ++ blanks) ++ capture 2 monthPattern ++ yearPattern ++ edge
  resolve m now := monthDay .dayMonth m now (monthNumber (m.text 2)) (numeralOf m 1) (m.text 3)

def yearMonthDayRule : Rule where
  pattern := edge ++ capture 1 (digits 4 4) ++ char '-' ++ capture 2 (digits 2 2) ++ char '-' ++
    capture 3 (digits 2 2) ++ edge
  resolve m _ :=
    .ok <| (Day.ofParts? (numeralOf m 1) (numeralOf m 2) (numeralOf m 3)).map fun d =>
      { hit .yearMonthDay m with day := some d, dated := true }

/-- A year of two digits lies in the years 2000 to 2099. -/
def monthSlashDayRule : Rule where
  pattern := edge ++ capture 1 (digits 1 2) ++ char '/' ++ capture 2 (digits 1 2) ++
    opt (char '/' ++ capture 3 (digits 2 4)) ++ edge
  resolve m now :=
    let year := m.text 3
    let year := if year.length = 2 then '2' :: '0' :: year else year
    monthDay .monthSlashDay m now (numeralOf m 1) (numeralOf m 2) year

def twelveHourRule : Rule where
  pattern := edge ++ opt (either (exactly "at" ++ blanks) (char '@' ++ blanks0)) ++
    capture 1 (digits 1 2) ++ minutePattern ++ blanks0 ++
    capture 3 (halfOfDay ++ opt (char '.')) ++ notAhead (one lowerLetter)
  resolve m _ := clockHit .twelveHour m (clockFromParts (numeralOf m 1) (numeralOf m 2) (some (m.text 3))) true

def atHourRule : Rule where
  pattern := either (edge ++ exactly "at" ++ blanks) (char '@' ++ blanks0) ++
    capture 1 (digits 1 2) ++ minutePattern ++ edge ++
    notAhead (blanks0 ++ halfOfDay) ++ notAhead (blanks0 ++ unitPattern 3)
  resolve m _ := clockHit .atHour m (clockFromParts (numeralOf m 1) (numeralOf m 2) none) false

def twentyFourHourRule : Rule where
  pattern := edge ++ capture 1 (digits 1 2) ++ char ':' ++ capture 2 (digits 2 2) ++ edge
  resolve m _ := clockHit .twentyFourHour m (clockFromParts (numeralOf m 1) (numeralOf m 2) none) false

def noonRule : Rule where
  pattern := edge ++ opt (exactly "at" ++ blanks) ++ capture 1 (words ["noon", "midnight"]) ++ edge
  resolve m _ :=
    clockHit .noon m (.ok (some (if m.text 1 == "noon".toList then .noon else .midnight))) true

def partOfDayRule : Rule where
  pattern := edge ++
    opt (anyOf [exactly "in" ++ blanks ++ exactly "the" ++ blanks, exactly "this" ++ blanks,
      exactly "at" ++ blanks]) ++
    capture 1 (words ["morning", "afternoon", "evening", "night"]) ++ edge
  resolve m _ :=
    .ok (some { hit .partOfDay m with clock := some (partOfDayClock (m.text 1)), partOfDay := true })

def rules : List Rule :=
  [todayRule, tomorrowRule, yesterdayRule, weekdayRule, nextPeriodRule, inRule, fromNowRule,
    monthDayRule, dayMonthRule, yearMonthDayRule, monthSlashDayRule, twelveHourRule, atHourRule,
    twentyFourHourRule, noonRule, partOfDayRule]

end Agenda.When
