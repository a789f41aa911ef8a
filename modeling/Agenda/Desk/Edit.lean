import Agenda.Desk.Basic
import Agenda.Recurrence.Renewal

/-! # Editing tasks

Tasks are toggled, deleted, completed, archived and updated by identity. After every edit that may
complete a task, completed recurring tasks are renewed. An edit that names an unknown task fails
before anything is changed; one edit of many tasks passes unknown ones over.
-/

namespace Agenda.Desk

open OnDesk

def countTasks : OnDesk Unit := do
  let tasks ← tasks
  count (·.countTasks tasks)

/-- Renews completed recurring tasks; gives the number of new tasks. -/
def sweep (now : Moment) : OnDesk Nat := do
  let book := (← get).book
  let new ← fresh (Task.renewals book.tasks now)
  if !new.isEmpty then
    commit (book.withTasks (book.tasks ++ new))
    count fun c => { c with renewals := c.renewals + new.length }
  countTasks
  return new.length

/-- The task with an identity in the book that is there now. -/
def find (id : String) : OnDesk Task := do
  ((← get).book.find id : Except Fault Task)

def toggle (id : String) (now : Moment) : OnDesk Task := do
  let _ ← find id
  commit ((← get).book.changed id Task.toggled)
  let toggled := (← get).book
  let _ ← sweep now
  (toggled.find id : Except Fault Task)

def delete (id : String) : OnDesk Unit := do
  let _ ← find id
  commit ((← get).book.without [id])
  countTasks

/-- Deletes the listed tasks; gives their number. -/
def deleteAll (ids : List String) : OnDesk Nat := do
  let before := (← tasks).length
  commit ((← get).book.without ids)
  countTasks
  return before - (← tasks).length

/-- Gives the listed tasks a status; gives the number of those that had another. -/
def setStatus (ids : List String) (status : Status) (now : Moment) : OnDesk Nat := do
  let book := (← get).book
  let changes (t : Task) : Bool := ids.contains t.id && t.status != status
  let changed := (book.tasks.filter changes).length
  if changed != 0 then
    commit (book.withTasks (book.tasks.map fun t => if changes t then t.withStatus status else t))
  let _ ← sweep now
  return changed

def completeAll (ids : List String) (now : Moment) : OnDesk Nat :=
  setStatus ids .completed now

def archiveAll (ids : List String) (now : Moment) : OnDesk Nat :=
  setStatus ids .archived now

def badUpdate (errors : Nat) : Fault :=
  .invalidCommand ("invalid task update: " ++ Text.showNat errors ++ " errors")

/-- A task with some fields overwritten, validated like a new one. -/
def overwritten (t : Task) (fields : Entries) (id : String) (now : Moment) : Fresh Task := fun n =>
  let es := (Entries.merge t.fields fields).insert "id" (.str id)
  match Task.decodeEntries now n es with
  | .ok t => .ok (t, n + Task.idsNeeded es)
  | .bad errors => .error (badUpdate errors.length)

def update (id : String) (fields : Entries) (now : Moment) : OnDesk Task := do
  let current ← find id
  let new ← fresh (overwritten current fields id now)
  commit ((← get).book.changed id fun _ => new)
  let updated := (← get).book
  let _ ← sweep now
  (updated.find id : Except Fault Task)

end Agenda.Desk
