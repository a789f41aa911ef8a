import Agenda.Number.Double
import Agenda.Book.Basic

/-! # Due reminders and debounced checks

A reminder is due once its time has come and it was not yet notified. Firing the due reminders
marks them; a book without due reminders is not replaced.
-/

namespace Agenda

namespace Reminder

def isDue (r : Reminder) (now : Moment) : Except Fault Bool :=
  if r.notified then .ok false else r.time.le now

/-- Marked as notified if it is due. -/
def fired (r : Reminder) (now : Moment) : Except Fault Reminder := do
  return if ← r.isDue now then { r with notified := true } else r

end Reminder

namespace Task

/-- A task with its due reminders fired, and whether there were any. -/
def fired (t : Task) (now : Moment) : Except Fault (Task × Bool) := do
  if ← t.reminders.anyM (·.isDue now) then
    return ({ t with reminders := ← t.reminders.mapM (·.fired now) }, true)
  else return (t, false)

end Task

namespace Book

/-- All due reminders fired: the new book, if any reminder was due, and the tasks that fired. -/
def fireDue (b : Book) (now : Moment) : Except Fault (Option Book × List Task) := do
  let visited ← b.tasks.mapM (·.fired now)
  let fired := (visited.filter (·.2)).map (·.1)
  return (if fired.isEmpty then none else some (b.withTasks (visited.map (·.1))), fired)

end Book

/-! ## Debounced checks

Checks that follow one another too closely are skipped, unless they are forced. Ticks are seconds
of a clock that only runs on; a skipped check does not move the window.
-/

structure Debounce where
  /-- The seconds that must lie between two checks. -/
  gap : Double := .ofNat 5
  last : Option Double := none

namespace Debounce

/-- A check at a tick is performed. -/
def admits (d : Debounce) (tick : Double) (forced : Bool) : Bool :=
  forced || match d.last with
    | none => true
    | some last => !((tick.plus last.negate).lt d.gap)

def performed (d : Debounce) (tick : Double) : Debounce :=
  { d with last := some tick }

end Debounce

end Agenda
