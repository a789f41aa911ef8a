import Agenda.Time.Moment
import Agenda.Number.Double
import Agenda.Time.Stored

/-! # Time stamps

The seconds from the start of 1970 in double precision. A local time counts as universal time; its
fraction is rounded before it is added. The very first day has no local stamp, because the day
before it is looked at. A stamp read back is a local time.
-/

namespace Agenda.Moment

def seconds (micros : Int) : Double :=
  .ofQuotient (micros < 0) micros.natAbs 1000000

def stamp (m : Moment) : Except Fault Double :=
  match m.offset with
  | some _ => .ok (seconds (m.instant - epochTicks))
  | none =>
    if m.ticks < dayTicks then .error .noSuchDate
    else
      let since := m.ticks - epochTicks
      .ok ((Double.ofInt (since / 1000000)).plus (seconds (since % 1000000)))

/-- The local time of a stamp. The fraction is rounded to a microsecond, a half to the even one. -/
def ofStamp (x : Double) : Except Fault Moment :=
  match x with
  | .nan => .error .notFinite
  | .infinite _ => .error .dateOverflow
  | .finite .. =>
    match x.parts.bind fun (whole, rest) => (rest.timesNat 1000000).round.map fun n => (whole, n) with
    | none => .error .notFinite
    | some (whole, micros) => ofSeconds (whole * 1000000 + micros)
where
  /-- The time a number of microseconds after the start of 1970; the second day of year 1 is the
  first that a clock finds, and years far beyond the calendar are beyond any clock. -/
  ofSeconds (micros : Int) : Except Fault Moment :=
    let s := micros / 1000000
    if s < -9223372036854775808 ∨ 9223372036854775807 < s then .error .dateOverflow
    else if s < -67768040609740800 ∨ 67768036191676799 < s then .error .beyondClock
    else
      let ticks := epochTicks + micros
      if h : dayTicks ≤ ticks ∧ ticks < 315537897600000000 then
        .ok ⟨ticks, none, by simp only [dayTicks] at h; omega⟩
      else .error .noSuchDate

end Agenda.Moment
