import Agenda.Task.Data

/-! # Making up identities

A computation that needs new identities draws them one after the other from a counter, so that no
two of one run are equal.
-/

namespace Agenda

/-- The state is the number of the next identity. -/
abbrev Fresh (α : Type) := StateT Nat (Except Fault) α

namespace Fresh

def newId : Fresh String := fun n => .ok (freshId n, n + 1)

/-- Data decoded into a task, with identities where they are missing. -/
def task (now : Moment) (es : Entries) : Fresh Task := fun n =>
  (Task.decodeEntries now n es).toExcept.map fun t => (t, n + Task.idsNeeded es)

def subtask (text : String) : Fresh Subtask := do
  let s : Subtask := { id := ← newId, text }
  if text = "" then throw (.invalid [["text"]]) else return s

def reminder (time : Moment) (kind : ReminderKind) : Fresh Reminder := do
  return { id := ← newId, time, kind }

end Fresh

end Agenda
