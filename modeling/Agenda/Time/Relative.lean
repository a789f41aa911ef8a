import Agenda.Time.Moment
import Agenda.Number.Double
import Agenda.Text.Numeral

/-! # How long ago

The time between two moments in the largest unit that fits once, in whole units. Seconds are
counted in double precision, so the last microseconds of a second may round up over centuries.
-/

namespace Agenda

/-- Whole seconds of a number of microseconds, toward zero. -/
def wholeSeconds (ticks : Int) : Int :=
  match (Double.ofQuotient (ticks < 0) ticks.natAbs 1000000).parts with
  | some (n, _) => n
  | none => 0

def agoText (n : Int) (unit : String) : String :=
  Text.showInt n ++ " " ++ unit ++ (if n > 1 then "s" else "") ++ " ago"

def Moment.ago (m now : Moment) : Except Fault String := do
  let minutes := wholeSeconds (← now.minus m) / 60
  let hours := minutes / 60
  let days := hours / 24
  if days > 0 then return agoText days "day"
  if hours > 0 then return agoText hours "hour"
  if minutes > 0 then return agoText minutes "minute"
  return "just now"

end Agenda
