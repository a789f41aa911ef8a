/-! # Times of day

A time of day counts microseconds from midnight.
-/

namespace Agenda

/-- The microseconds of a second, a minute and a day. -/
def secondTicks : Int := 1000000
def minuteTicks : Int := 60000000
def hourTicks : Int := 3600000000
def dayTicks : Int := 86400000000

structure Clock where
  ticks : Int
  inRange : 0 ≤ ticks ∧ ticks < 86400000000

namespace Clock

@[ext] theorem ext {a b : Clock} (h : a.ticks = b.ticks) : a = b := by
  cases a; cases b; simp_all

instance : DecidableEq Clock := fun a b =>
  if h : a.ticks = b.ticks then .isTrue (ext h) else .isFalse fun e => h (e ▸ rfl)

instance : Repr Clock := ⟨fun c n => reprPrec c.ticks n⟩

def ofTicks? (n : Int) : Option Clock :=
  if h : 0 ≤ n ∧ n < 86400000000 then some ⟨n, h⟩ else none

def ofParts? (hour minute : Int) : Option Clock :=
  if h : (0 ≤ hour ∧ hour ≤ 23) ∧ 0 ≤ minute ∧ minute ≤ 59 then
    some ⟨hour * 3600000000 + minute * 60000000, by omega⟩
  else none

/-- The full hour, given modulo 24. -/
def atHour (hour : Nat) : Clock :=
  ⟨(hour % 24 : Nat) * 3600000000, by omega⟩

def midnight : Clock := ⟨0, by decide⟩
def noon : Clock := ⟨43200000000, by decide⟩

/-- One second before midnight: the due time of a task that is due on a day. -/
def dayEnd : Clock := ⟨86399000000, by decide⟩

/-- The last microsecond of a day. -/
def last : Clock := ⟨86399999999, by decide⟩

def hour (c : Clock) : Int := c.ticks / 3600000000
def minute (c : Clock) : Int := c.ticks / 60000000 % 60
def second (c : Clock) : Int := c.ticks / 1000000 % 60
def micro (c : Clock) : Int := c.ticks % 1000000

def toMinute (c : Clock) : Clock :=
  ⟨c.ticks - c.ticks % 60000000, by have := c.inRange; omega⟩

end Clock

end Agenda
