import Agenda.Task.Fresh

/-! # Recurrence and renewal

A rule steps from one due date to the next, by days, weeks or months. A weekly rule with named
days goes on to the first of them after the step; a rule may end. A completed recurring task is
renewed by its next occurrence, which names the task it comes from. A task that some other task
names as its source is not renewed again.
-/

namespace Agenda.Recurrence

/-! ## The next due date -/

/-- The days from a weekday to the next listed one, at least one; the list is in order. -/
def daysUntil (days : List Int) (weekday : Int) : Int :=
  match days.find? (weekday < ·), days with
  | some day, _ => day - weekday
  | none, day :: _ => 7 - weekday + day
  | none, [] => 0

/-- The due date after `due`, regardless of the end of the rule. -/
def step (r : Recurrence) (due : Moment) : Except Fault (Option Moment) :=
  match r.rhythm with
  | .daily => (due.plusDays r.interval).map some
  | .weekly => do
    let next ← due.plusDays (7 * r.interval)
    return some (← next.plusDays (daysUntil r.days next.day.weekday))
  | .monthly => (due.plusMonths r.interval).map some
  | .custom => .ok none

/-- The due date after `due`; none once the rule has ended. -/
def next (r : Recurrence) (due : Moment) : Except Fault (Option Moment) := do
  match ← r.step due, r.endDate with
  | some m, some last => return if ← last.lt m then none else some m
  | m, _ => return m

end Agenda.Recurrence

namespace Agenda

/-! ## Renewed tasks -/

/-- A reminder of the next occurrence: a relative one keeps its distance to the due date, an
absolute one its time. -/
def Reminder.carried (r : Reminder) (oldDue newDue : Moment) : Fresh Reminder := do
  match r.kind with
  | .relative =>
    let lead ← (oldDue.minus r.time : Except Fault Int)
    Fresh.reminder (← (newDue.plus (-lead) : Except Fault Moment)) .relative
  | .absolute => Fresh.reminder r.time .absolute

namespace Task

def occurrence (t : Task) (oldDue newDue now : Moment) : Fresh Task := do
  let id ← Fresh.newId
  let shift ← (newDue.minus oldDue : Except Fault Int)
  let start ← (t.start.mapM (·.plus shift) : Except Fault (Option Moment))
  let subtasks ← t.subtasks.mapM fun s => Fresh.subtask s.text
  let reminders ← t.reminders.mapM (·.carried oldDue newDue)
  return { t with
    id, status := .pending, createdAt := now, due := some newDue, start, subtasks, reminders
    source := some t.id }

/-- The next occurrence of a completed recurring task. -/
def renewed (t : Task) (now : Moment) : Fresh (Option Task) := do
  match t.recurrence, t.due with
  | some rule, some due =>
    if !t.done then return none
    match ← (rule.next due : Except Fault (Option Moment)) with
    | some newDue => return some (← t.occurrence due newDue now)
    | none => return none
  | _, _ => return none

def sources (tasks : List Task) : List String :=
  tasks.filterMap fun t => given t.source

/-- The next occurrences of all tasks that were not renewed yet. -/
def renewals (tasks : List Task) (now : Moment) : Fresh (List Task) := do
  let renewed ← (tasks.filter fun t => !(sources tasks).contains t.id).mapM (·.renewed now)
  return renewed.filterMap fun t => t

def renewAll (tasks : List Task) (now : Moment) : Fresh (List Task) := do
  return tasks ++ (← renewals tasks now)

end Task

end Agenda
