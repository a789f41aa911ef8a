import Agenda.Book.Basic
import Agenda.Book.Legacy
import Agenda.Task.Fresh

/-! # Keeping a book

A book is stored under two keys, the tasks and the projects. Loading brings stored tasks to their
present form and skips those that still break a rule; the version starts anew.
-/

namespace Agenda.Book

def tasksKey : String := "tasks"
def projectsKey : String := "projects"

/-- A task from stored data; none if the data breaks a rule. -/
def readTask (now : Moment) (raw : Entries) : Fresh (Option Task) := do
  let es ← (Legacy.migrate raw : Except Fault Entries)
  fun n => match Task.decodeEntries now n es with
    | .ok t => .ok (some t, n + Task.idsNeeded es)
    | .bad _ => .ok (none, n + Task.idsNeeded es)

def texts (vs : List Value) : List String :=
  vs.filterMap fun
    | .str s => some s
    | _ => none

def load (storage : Entries) (now : Moment) : Fresh Book := do
  let raw ← (Legacy.itemsOf (storage.at? tasksKey) : Except Fault _)
  let tasks ← (Legacy.objects raw).mapM (readTask now)
  let projects ← (Legacy.itemsOf (storage.at? projectsKey) : Except Fault _)
  return { tasks := tasks.filterMap fun t => t, projects := texts projects }

def save (b : Book) (storage : Entries) : Entries :=
  (storage.insert tasksKey (.list (b.tasks.map fun t => t.data.toJson))).insert projectsKey
    (.list (b.projects.map .str))

end Agenda.Book
