import Agenda.Time.Moment
import Agenda.Time.Names
import Agenda.Text.Numeral

/-! # Written dates and times

Dates are written year first with dashes, times with colons, a moment with a `T` between the two.
A fraction of six digits follows only where there is one. Universal time is `+00:00` when a moment
stands alone and `Z` inside data. Messages for people use short names instead.
-/

namespace Agenda

open Text

def Day.text (d : Day) : List Char :=
  padded 4 d.year.toNat ++ '-' :: padded 2 d.month.toNat ++ '-' :: padded 2 d.dayOfMonth.toNat

def Clock.hourMinute (c : Clock) : List Char :=
  padded 2 c.hour.toNat ++ ':' :: padded 2 c.minute.toNat

def fraction (micro : Int) : List Char :=
  if micro = 0 then [] else '.' :: padded 6 micro.toNat

def Clock.text (c : Clock) : List Char :=
  c.hourMinute ++ ':' :: padded 2 c.second.toNat ++ fraction c.micro

namespace Moment

/-- An offset with as many parts as it needs. -/
def offsetText (offset : Int) : List Char :=
  let n := offset.natAbs
  (if offset < 0 then '-' else '+') :: padded 2 (n / 3600000000) ++ ':' :: padded 2 (n / 60000000 % 60) ++
    (if n % 60000000 = 0 then [] else ':' :: padded 2 (n / 1000000 % 60) ++ fraction (n % 1000000))

def reading (m : Moment) : List Char :=
  m.day.text ++ 'T' :: m.clock.text

def text (m : Moment) : List Char :=
  m.reading ++ (m.offset.map offsetText).getD []

/-- An offset inside data: universal time is `Z`, and seconds are dropped. -/
def dataOffset (offset : Int) : List Char :=
  let n := offset.natAbs / 60000000
  if offset = 0 then ['Z']
  else (if offset < 0 then '-' else '+') :: padded 2 (n / 60) ++ ':' :: padded 2 (n % 60)

/-- The form of a moment inside data. -/
def dataText (m : Moment) : List Char :=
  m.reading ++ (m.offset.map dataOffset).getD []

/-! ## For people -/

def weekdayText (m : Moment) : String :=
  weekdayAbbreviation m.day.weekday

/-- Month and day of the month, as in `May 05`. -/
def monthDayText (m : Moment) : String :=
  monthAbbreviation m.day.month ++ " " ++ String.ofList (padded 2 m.day.dayOfMonth.toNat)

def hourMinuteText (m : Moment) : String :=
  String.ofList m.clock.hourMinute

end Moment

end Agenda
