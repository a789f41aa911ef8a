import Agenda.Desk.Basic
import Agenda.Desk.Edit
import Agenda.Proposal
import Agenda.Question
import Agenda.Recurrence.Habit

/-! # Looking at the book

Lists, the month view, conflicts, proposed times, habits and answers. Nothing here changes the
desk.
-/

namespace Agenda.Desk

open OnDesk

/-- The tasks that a filter admits, in order. A tag or a criterion that is not given is taken from
the preferences. -/
def list (f : TaskFilter) (sortBy : Option String) : OnDesk (List Task) := do
  let p ← preferences
  let criterion := SortBy.ofName? ((given sortBy).getD p.sortBy)
  (Task.listed (← tasks) { f with tag := f.tag <|> p.filterTag } (criterion.getD .createdAt) :
    Except Fault (List Task))

structure DayCell where
  day : Day
  tasks : List Task

def dueOn (tasks : List Task) (d : Day) : Except Fault DayCell := do
  let due := tasks.filter fun t => t.status != .archived && t.due.any (·.day == d)
  return ⟨d, ← Summary.byDue due⟩

def calendar (year month : Int) : OnDesk (List (List (Option DayCell))) := do
  if month < 1 ∨ 12 < month then
    throw (.invalidCommand ("month must be 1-12, got " ++ Text.showInt month))
  let tasks ← tasks
  let rows ← (Day.grid year month : Except Fault _)
  (rows.mapM fun row => row.mapM fun cell => cell.mapM (dueOn tasks) : Except Fault _)

def conflicts (id : String) : OnDesk (Option Window.Conflict) := do
  (Window.conflict (← find id) (← tasks) defaultMinutes : Except Fault _)

def suggestTime (id : String) (now : Moment) : OnDesk Moment := do
  (Proposal.suggest {} (← find id) (← tasks) now : Except Fault Moment)

def habits : OnDesk (List Habit) := do
  (Habit.all (← tasks) : Except Fault (List Habit))

def ask (question : String) (now : Moment) : OnDesk Answer := do
  (Answer.ofQuestion question.toList (← tasks) now : Except Fault Answer)

end Agenda.Desk
