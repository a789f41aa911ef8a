import Agenda.Task.Basic

/-! # Time windows of tasks

A task occupies the time from its start for as long as it takes: `[start, stop)`. Without an
estimate it takes a default time.
-/

namespace Agenda

structure Window where
  start : Moment
  stop : Moment

namespace Window

/-- Two windows overlap. The three ways are looked at in turn, and no further than needed. -/
def overlaps (a b : Window) : Except Fault Bool := do
  if ← b.start.le a.start then
    if ← a.start.lt b.stop then return true
  if ← b.start.lt a.stop then
    if ← a.stop.le b.stop then return true
  if ← a.start.le b.start then b.stop.le a.stop else return false

end Window

namespace Task

/-- The window of a task, whose length is looked at before its start. -/
def window (t : Task) (default : Int) : Except Fault Window := do
  let length ← Moment.span (t.duration default * minuteTicks)
  match t.effectiveStart with
  | some start => return ⟨start, ← start.plus length⟩
  | none => .error .unscheduled

/-- Open and dated tasks take up time. -/
def takesTime (t : Task) : Bool :=
  t.due.isSome && !t.done && t.status != .archived

def movedTo (t : Task) (m : Moment) : Task :=
  { t with start := some m, due := some m }

end Task

/-! ## Conflicts and free slots

A candidate conflicts with the tasks whose windows overlap its own. The next free slot is sought
after the candidate's own window: before each task in the order of their starts, and failing that
after the last of all windows.
-/

namespace Window

def overlapping (candidate : Task) (existing : List Task) (default : Int) : Except Fault (List Task) := do
  let w ← candidate.window default
  existing.filterM fun t => do w.overlaps (← t.window default)

/-- Tasks in the order of their starts. One task alone needs no start. -/
def inOrder (tasks : List Task) : Except Fault (List Task) :=
  match tasks with
  | [] | [_] => .ok tasks
  | _ => match tasks.mapM fun t => t.effectiveStart.map fun m => (m, t) with
    | some pairs => (Moment.sortBy (·.1) pairs).map (·.map (·.2))
    | none => .error .unscheduled

/-- The first gap from `free` on that fits the candidate among all tasks, looked for before each
of the remaining ones. -/
def slotFrom (candidate : Task) (all : List Task) (minutes length : Int) (free : Moment) :
    List Task → Except Fault Moment
  | [] => .ok free
  | t :: ts => do
    let w ← t.window minutes
    if ← (← free.plus length).le w.start then
      if (← overlapping (candidate.movedTo free) all minutes).isEmpty then return free
    slotFrom candidate all minutes length (← free.max w.stop) ts

def nextSlot (candidate : Task) (start : Moment) (existing : List Task) (minutes : Int) :
    Except Fault Moment := do
  let length ← Moment.span (minutes * minuteTicks)
  let ordered ← inOrder existing
  if ordered.isEmpty then return start
  if (← overlapping candidate ordered minutes).isEmpty then return start
  slotFrom candidate ordered minutes length (← start.plus length) ordered

/-- The tasks that a candidate conflicts with, and the time suggested instead. -/
structure Conflict where
  tasks : List Task
  suggested : Moment

def others (candidate : Task) (existing : List Task) : List Task :=
  existing.filter fun t => t.id != candidate.id && t.takesTime

def conflict (candidate : Task) (existing : List Task) (default : Int) :
    Except Fault (Option Conflict) := do
  match candidate.due with
  | none => return none
  | some due =>
    let others := others candidate existing
    let tasks ← overlapping candidate others default
    if tasks.isEmpty then return none
    return some ⟨tasks, ← nextSlot candidate due others (candidate.duration default)⟩

end Window

end Agenda
