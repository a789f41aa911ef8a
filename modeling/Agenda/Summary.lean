import Agenda.Command.Basic

/-! # Summaries of a period

What falls due between the start of today and the end of a period, by tag and in order of date.
Archived tasks do not count unless completed ones do.
-/

namespace Agenda

/-- The days after today that a period reaches to. -/
def Period.lastDay : Period → Int
  | .today => 0
  | .tomorrow => 1
  | .week => 7

/-- From the start of today to the last moment of the period. -/
def Period.bounds (p : Period) (now : Moment) : Except Fault (Moment × Moment) := do
  return (.on now.day .midnight, .on (← now.day.plus p.lastDay) .last)

structure Summary where
  period : Period
  /-- The tasks that count, in the order of the list. -/
  tasks : List Task
  /-- The same tasks in order of due date. -/
  upcoming : List Task

namespace Summary

/-- A task falls due in a stretch of time. -/
def dueWithin (bounds : Moment × Moment) (t : Task) : Except Fault Bool :=
  match t.due with
  | none => .ok false
  | some due => do if ← bounds.1.le due then due.le bounds.2 else return false

/-- Tasks in the order of their due dates; undated ones are left out. -/
def byDue (tasks : List Task) : Except Fault (List Task) := do
  let pairs := tasks.filterMap fun t => t.due.map fun m => (m, t)
  return (← Moment.sortBy (·.1) pairs).map (·.2)

/-- The tasks that a summary of a period counts. -/
def counted (tasks : List Task) (p : Period) (includeCompleted : Bool) (now : Moment) :
    Except Fault (List Task) := do
  let bounds ← p.bounds now
  tasks.filterM fun t => do
    return (← dueWithin bounds t) && (includeCompleted || t.status == .pending)

def ofTasks (tasks : List Task) (period : Period) (includeCompleted : Bool) (now : Moment) :
    Except Fault Summary := do
  let tasks ← counted tasks period includeCompleted now
  return { period, tasks, upcoming := ← byDue tasks }

def total (s : Summary) : Nat :=
  s.tasks.length

def completed (s : Summary) : Nat :=
  (s.tasks.filter (·.done)).length

def highPriority (s : Summary) : List Task :=
  s.tasks.filter (·.priority == some .high)

def minutes (s : Summary) : Int :=
  (s.tasks.map (·.duration defaultMinutes)).foldr (· + ·) 0

/-- Adds a task under a tag, in the order in which tags appear. -/
def addUnder (tag : Option String) (t : Task) :
    List (Option String × List Task) → List (Option String × List Task)
  | [] => [(tag, [t])]
  | (k, ts) :: groups => if k = tag then (k, ts ++ [t]) :: groups else (k, ts) :: addUnder tag t groups

def tagsOf (t : Task) : List (Option String) :=
  if t.tags.isEmpty then [some "general"] else t.tags

def byTag (s : Summary) : List (Option String × List Task) :=
  s.tasks.foldl (fun groups t => (tagsOf t).foldl (fun groups tag => addUnder tag t groups) groups) []

end Summary

end Agenda
