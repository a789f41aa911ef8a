import Agenda.Task.Basic

/-! # The book of tasks

A book holds the tasks and the names of the projects. Every replacement of a stored book by
another one raises its version.
-/

namespace Agenda

structure Book where
  version : Nat := 0
  tasks : List Task := []
  projects : List String := []
deriving DecidableEq

namespace Book

def find (b : Book) (id : String) : Except Fault Task :=
  match b.tasks.find? (·.id == id) with
  | some t => .ok t
  | none => .error (.unknownTask id)

def withTasks (b : Book) (tasks : List Task) : Book :=
  { b with tasks }

def changed (b : Book) (id : String) (change : Task → Task) : Book :=
  b.withTasks (b.tasks.map fun t => if t.id = id then change t else t)

def without (b : Book) (ids : List String) : Book :=
  b.withTasks (b.tasks.filter fun t => !ids.contains t.id)

end Book

end Agenda
