import Agenda.Fault

/-! # Calendar days

A day is its number in the Gregorian calendar, counted from 1 January of year 1. Year, month and
day of the month are read off the number; `ofParts?` finds the number back.
Weekdays are numbered from Sunday, 0, to Saturday, 6.
-/

namespace Agenda

/-- A day from 1 January of year 1 to 31 December of year 9999. -/
structure Day where
  number : Int
  inRange : 0 ≤ number ∧ number ≤ 3652058

namespace Day

instance : DecidableEq Day := fun a b =>
  if h : a.number = b.number then .isTrue (by cases a; cases b; simp_all)
  else .isFalse fun e => h (e ▸ rfl)

instance : Repr Day := ⟨fun d n => reprPrec d.number n⟩

@[ext] theorem ext {a b : Day} (h : a.number = b.number) : a = b := by
  cases a; cases b; simp_all

def ofNumber? (n : Int) : Option Day :=
  if h : 0 ≤ n ∧ n ≤ 3652058 then some ⟨n, h⟩ else none

def ofNumber (n : Int) : Except Fault Day :=
  match ofNumber? n with
  | some d => .ok d
  | none => .error .dateOverflow

def plus (d : Day) (n : Int) : Except Fault Day :=
  ofNumber (d.number + n)

/-! ## Years and months -/

def isLeap (year : Int) : Bool :=
  year % 4 == 0 && (year % 100 != 0 || year % 400 == 0)

/-- The number of 1 January of a year. -/
def yearStart (year : Int) : Int :=
  let y := year - 1
  365 * y + y / 4 - y / 100 + y / 400

/-- The days of a year before its month. -/
def monthStart (leap : Bool) (month : Int) : Int :=
  let l : Int := if leap then 1 else 0
  if month ≤ 1 then 0
  else if month = 2 then 31
  else if month = 3 then 59 + l
  else if month = 4 then 90 + l
  else if month = 5 then 120 + l
  else if month = 6 then 151 + l
  else if month = 7 then 181 + l
  else if month = 8 then 212 + l
  else if month = 9 then 243 + l
  else if month = 10 then 273 + l
  else if month = 11 then 304 + l
  else if month = 12 then 334 + l
  else 365 + l

def monthLength (year month : Int) : Int :=
  monthStart (isLeap year) (month + 1) - monthStart (isLeap year) month

/-- The length of a month, in any year. -/
def daysInMonth (year month : Int) : Except Fault Int :=
  if 1 ≤ month ∧ month ≤ 12 then .ok (monthLength year month) else .error .noSuchMonth

def ofParts? (year month day : Int) : Option Day :=
  if 1 ≤ year ∧ year ≤ 9999 ∧ 1 ≤ month ∧ month ≤ 12 ∧ 1 ≤ day ∧ day ≤ monthLength year month then
    ofNumber? (yearStart year + monthStart (isLeap year) month + (day - 1))
  else none

/-- Parts of a date are numbers of machine size; a larger one is an overflow, not a wrong date. -/
def isPart (n : Int) : Bool :=
  -2147483648 ≤ n && n ≤ 2147483647

def ofParts (year month day : Int) : Except Fault Day :=
  if isPart year && isPart month && isPart day then
    match ofParts? year month day with
    | some d => .ok d
    | none => .error .noSuchDate
  else .error .dateOverflow

/-- The year of a day. The quotient is off by at most one year. -/
def year (d : Day) : Int :=
  let guess := 400 * d.number / 146097 + 1
  if d.number < yearStart guess then guess - 1
  else if yearStart (guess + 1) ≤ d.number then guess + 1
  else guess

def dayOfYear (d : Day) : Int :=
  d.number - yearStart d.year

/-- The last month that starts on or before a day of the year. -/
def monthOf (leap : Bool) (n : Int) : Int :=
  if n < monthStart leap 2 then 1
  else if n < monthStart leap 3 then 2
  else if n < monthStart leap 4 then 3
  else if n < monthStart leap 5 then 4
  else if n < monthStart leap 6 then 5
  else if n < monthStart leap 7 then 6
  else if n < monthStart leap 8 then 7
  else if n < monthStart leap 9 then 8
  else if n < monthStart leap 10 then 9
  else if n < monthStart leap 11 then 10
  else if n < monthStart leap 12 then 11
  else 12

def month (d : Day) : Int :=
  monthOf (isLeap d.year) d.dayOfYear

def dayOfMonth (d : Day) : Int :=
  d.dayOfYear - monthStart (isLeap d.year) d.month + 1

/-! ## Weekdays -/

/-- The weekday, from Sunday, 0, to Saturday, 6. -/
def weekday (d : Day) : Int :=
  (d.number + 1) % 7

/-- The next day with a weekday: today counts unless `strict`. -/
def nextWeekday (d : Day) (target : Int) (strict : Bool) : Except Fault Day :=
  let delta := (target - d.weekday) % 7
  d.plus (if strict && delta = 0 then 7 else delta)

/-! ## Month view -/

/-- The rows of a month view: weeks from Sunday to Saturday, with `none` outside the month.
`next` is the next day of the month to place. -/
def gridRows (day : Int → Option Day) (total : Int) : Nat → Int → Int → List (List (Option Day))
  | 0, _, _ => []
  | weeks + 1, offset, next =>
    if next > total then []
    else
      (List.range 7).map (fun (col : Nat) =>
        let n := next + col - offset
        if (col : Int) < offset ∨ n > total then none else day n) ::
      gridRows day total weeks 0 (next + 7 - offset)

/-- The month view of a month. -/
def grid (year month : Int) : Except Fault (List (List (Option Day))) := do
  let first ← ofParts year month 1
  let total ← daysInMonth year month
  return gridRows (ofParts? year month) total 6 first.weekday 1

end Day

end Agenda
