import Agenda.Task.Basic
import Agenda.Time.Stamp

/-! # Filtering and ordering tasks

A list of tasks is narrowed by tag and project and put in order. Completed tasks always come last;
tasks that agree in everything that the order looks at keep their places.
-/

namespace Agenda

inductive SortBy where
  | priority
  | dueDate
  | alphabetical
  | createdAt
deriving DecidableEq, Repr

namespace SortBy

def name : SortBy → String
  | priority => "priority"
  | dueDate => "dueDate"
  | alphabetical => "alphabetical"
  | createdAt => "createdAt"

def all : List SortBy := [priority, dueDate, alphabetical, createdAt]

def ofName? (s : String) : Option SortBy :=
  all.find? (·.name == s)

end SortBy

/-- The place of a task, compared field by field; parts that do not count are left at their
defaults. -/
structure SortKey where
  done : Bool
  rank : Nat := 0
  due : Double := .zero
  title : List Char := []
  created : Double := .zero

namespace SortKey

/-- At or before another place; the newer task comes first. -/
def le (a b : SortKey) : Bool :=
  if a.done != b.done then b.done
  else if a.rank != b.rank then a.rank < b.rank
  else if a.due.lt b.due then true
  else if b.due.lt a.due then false
  else if a.title != b.title then a.title < b.title
  else !(a.created.lt b.created)

def ofTask (by_ : SortBy) (t : Task) : Except Fault SortKey :=
  match by_ with
  | .priority => do
    return { done := t.done, rank := Priority.rank t.priority, created := ← t.createdAt.stamp }
  | .dueDate => do
    let due ← match t.due with
      | some m => m.stamp
      | none => .ok .zero
    return { done := t.done, rank := if t.due.isSome then 0 else 1, due, created := ← t.createdAt.stamp }
  | .alphabetical => .ok { done := t.done, title := Text.caseFold t.title.toList }
  | .createdAt => do
    return { done := t.done, created := ← t.createdAt.stamp }

end SortKey

/-- Which tasks are listed; what is `none` does not narrow the list. -/
structure TaskFilter where
  tag : Option String := none
  project : Option String := none
  includeArchived : Bool := false

namespace TaskFilter

def admits (f : TaskFilter) (t : Task) : Bool :=
  (f.includeArchived || t.status != .archived) &&
    f.tag.all (fun tag => t.tags.contains (some (String.ofList (Text.lower tag.toList)))) &&
    f.project.all (fun project => t.project == some project)

end TaskFilter

namespace Task

def ordered (tasks : List Task) (by_ : SortBy) : Except Fault (List Task) := do
  let keyed ← tasks.mapM fun t => do return (← SortKey.ofTask by_ t, t)
  return (keyed.mergeSort fun a b => a.1.le b.1).map (·.2)

def listed (tasks : List Task) (f : TaskFilter) (by_ : SortBy) : Except Fault (List Task) :=
  ordered (tasks.filter f.admits) by_

end Task

end Agenda
