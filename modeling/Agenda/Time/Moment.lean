import Agenda.Time.Day
import Agenda.Time.Clock

/-! # Points in time

A moment is a wall-clock reading, counted in microseconds from the start of year 1, with or
without an offset from universal time. Moments with an offset are compared by the instant they
mean, moments without one by their reading; the two kinds are not compared with each other.
-/

namespace Agenda

structure Moment where
  /-- Microseconds from the start of year 1 on the wall clock. -/
  ticks : Int
  /-- Microseconds that the wall clock is ahead of universal time. -/
  offset : Option Int
  inRange : 0 ≤ ticks ∧ ticks < 315537897600000000

namespace Moment

@[ext] theorem ext {a b : Moment} (ht : a.ticks = b.ticks) (ho : a.offset = b.offset) : a = b := by
  cases a; cases b; simp_all

instance : DecidableEq Moment := fun a b =>
  if h : a.ticks = b.ticks ∧ a.offset = b.offset then .isTrue (ext h.1 h.2)
  else .isFalse fun e => h (e ▸ ⟨rfl, rfl⟩)

def ofDay (d : Day) (c : Clock) (offset : Option Int) : Moment :=
  ⟨d.number * 86400000000 + c.ticks, offset, by have := d.inRange; have := c.inRange; omega⟩

def on (d : Day) (c : Clock) : Moment :=
  .ofDay d c none

def day (m : Moment) : Day :=
  ⟨m.ticks / 86400000000, by have := m.inRange; omega⟩

def clock (m : Moment) : Clock :=
  ⟨m.ticks % 86400000000, by omega⟩

def latest : Moment := .on ⟨3652058, by decide⟩ .last

def isLocal (m : Moment) : Bool :=
  m.offset.isNone

/-- The universal time a moment means, or its reading if it has no offset. -/
def instant (m : Moment) : Int :=
  m.ticks - m.offset.getD 0

/-! ## Comparison -/

def comparable (a b : Moment) : Bool :=
  a.isLocal == b.isLocal

def le (a b : Moment) : Except Fault Bool :=
  if comparable a b then .ok (a.instant ≤ b.instant) else .error .zoneMismatch

def lt (a b : Moment) : Except Fault Bool :=
  if comparable a b then .ok (a.instant < b.instant) else .error .zoneMismatch

/-- The microseconds from `b` to `a`. -/
def minus (a b : Moment) : Except Fault Int :=
  if comparable a b then .ok (a.instant - b.instant) else .error .zoneMismatch

def max (a b : Moment) : Except Fault Moment := do
  return if ← a.lt b then b else a

/-- Items in the order of their moments; items with one moment keep their order. -/
def sortBy {α : Type} (key : α → Moment) (xs : List α) : Except Fault (List α) :=
  if xs.all (fun x => (key x).isLocal) || xs.all (fun x => !(key x).isLocal) then
    .ok (xs.mergeSort fun a b => (key a).instant ≤ (key b).instant)
  else .error .zoneMismatch

/-! ## Arithmetic -/

/-- A length of time, in microseconds; it has fewer than a thousand million days either way. -/
def span (ticks : Int) : Except Fault Int :=
  if -86399999913600000000 ≤ ticks ∧ ticks < 86400000000000000000 then .ok ticks
  else .error .dateOverflow

def plus (m : Moment) (ticks : Int) : Except Fault Moment :=
  if h : 0 ≤ m.ticks + ticks ∧ m.ticks + ticks < 315537897600000000 then
    .ok ⟨m.ticks + ticks, m.offset, h⟩
  else .error .dateOverflow

def plusMinutes (m : Moment) (n : Int) : Except Fault Moment :=
  m.plus (n * 60000000)

def plusDays (m : Moment) (n : Int) : Except Fault Moment :=
  m.plus (n * 86400000000)

/-- The same time of day `n` calendar months later, on the last day of a month that is too short. -/
def plusMonths (m : Moment) (n : Int) : Except Fault Moment :=
  let total := m.day.year * 12 + (m.day.month - 1) + n
  let year := total / 12
  let month := total % 12 + 1
  let day := min m.day.dayOfMonth (Day.monthLength year month)
  (Day.ofParts year month day).map fun d => .ofDay d m.clock m.offset

def toMinute (m : Moment) : Moment :=
  .ofDay m.day m.clock.toMinute m.offset

/-- The end of a day, one second before midnight. -/
def endOfDay (d : Day) : Moment :=
  .on d .dayEnd

end Moment

end Agenda
