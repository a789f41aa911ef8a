import Agenda.Extract.Pipeline
import Agenda.Alert.Due
import Agenda.Book.Preferences
import Agenda.Book.Storage
import Agenda.Intent.Route

/-! # The desk

A desk works on one book: it keeps the book and its storage, the counters, the alerts that were
sent and the time of the last check for reminders. Work on a desk always leaves a desk behind; a
failed piece of work leaves what it had committed before it failed.
-/

namespace Agenda

/-! ## Counters

What was done is counted: commands by kind and route, results of extraction by tier and outcome,
requests by endpoint and result, alerts and renewals; and the tasks are counted by status. A count
with labels is there once something was counted under them.
-/

/-- Counts under pairs of labels, in the order in which they came up. -/
abbrev Tally := List ((String × String) × Nat)

/-- Counts one more under a pair of labels. -/
def Tally.bump (key : String × String) : Tally → Tally
  | [] => [(key, 1)]
  | (k, n) :: t => if k = key then (k, n + 1) :: t else (k, n) :: Tally.bump key t

structure Counters where
  /-- By kind of command and route. -/
  commands : Tally := []
  /-- By tier and outcome. -/
  tiers : Tally := []
  alerts : Nat := 0
  renewals : Nat := 0
  /-- The tasks by status, once they were counted. -/
  tasks : List (Status × Nat) := []
  /-- By endpoint and result. -/
  requests : Tally := []

structure Reading where
  name : String
  labels : List (String × String)
  value : Nat

namespace Counters

def countResult (c : Counters) (r : TierResult) : Counters :=
  { c with tiers := c.tiers.bump (r.tier.name, r.outcome.name) }

def countTasks (c : Counters) (tasks : List Task) : Counters :=
  { c with tasks := Status.all.map fun s => (s, (tasks.filter (·.status == s)).length) }

def tallyReadings (name first second : String) (t : Tally) : List Reading :=
  t.map fun ((a, b), n) => ⟨name, [(first, a), (second, b)], n⟩

def readings (c : Counters) : List Reading :=
  tallyReadings "todo_commands_total" "type" "route" c.commands ++
    tallyReadings "todo_tier_outcomes_total" "tier" "outcome" c.tiers ++
    [⟨"todo_reminders_fired_total", [], c.alerts⟩, ⟨"todo_recurring_regenerated_total", [], c.renewals⟩] ++
    c.tasks.map (fun (s, n) => ⟨"todo_tasks", [("status", s.name)], n⟩) ++
    tallyReadings "todo_requests_total" "endpoint" "status" c.requests

end Counters

namespace Reading

def labelText (l : String × String) : String :=
  l.1 ++ "=\"" ++ l.2 ++ "\""

/-- The line that shows a counter to a monitor; labels stand in the order of their names. -/
def line (r : Reading) : String :=
  let labels := r.labels.mergeSort fun a b => a.1 ≤ b.1
  r.name ++ (if labels.isEmpty then "" else "\x7b" ++ ",".intercalate (labels.map labelText) ++ "\x7d") ++
    " " ++ Text.showNat r.value ++ ".0"

end Reading

/-! ## The state of a desk and work on it -/

structure Desk where
  book : Book := {}
  storage : Entries := []
  counters : Counters := {}
  debounce : Debounce := {}
  /-- Titles and texts of the alerts sent so far, the latest last. -/
  alerts : List (String × String) := []
  /-- How many questions the language service was asked. -/
  asked : Nat := 0
  /-- The number of the next identity to make up. -/
  nextId : Nat := 0

/-- What a desk works with. -/
structure Means where
  service : Service
  serviceName : String
  mayAlert : Bool := true
  /-- Intents that the service is less sure of are not acted on. -/
  threshold : Double := Intent.threshold

abbrev OnDesk (α : Type) := ExceptT Fault (StateM Desk) α

namespace OnDesk

variable {α : Type}

/-- Work that makes up identities. -/
def fresh (x : Fresh α) : OnDesk α := do
  match x.run (← get).nextId with
  | .ok (a, next) =>
    modify fun d => { d with nextId := next }
    return a
  | .error f => throw f

def asking (x : Asking α) : OnDesk α := do
  let (answer, count) := x.result
  modify fun d => { d with asked := d.asked + count }
  match answer with
  | .ok a => return a
  | .error f => throw f

def tasks : OnDesk (List Task) := do
  return (← get).book.tasks

/-- Replaces the book; its version rises and it is stored. -/
def commit (b : Book) : OnDesk Unit :=
  modify fun d =>
    let b := { b with version := d.book.version + 1 }
    { d with book := b, storage := b.save d.storage }

def count (f : Counters → Counters) : OnDesk Unit :=
  modify fun d => { d with counters := f d.counters }

def preferences : OnDesk Preferences := do
  return Preferences.load (← get).storage

def savePreferences (p : Preferences) : OnDesk Unit :=
  modify fun d => { d with storage := p.save d.storage }

end OnDesk

namespace Desk

/-- A desk on stored data, with the counters of an earlier one. -/
def load (storage : Entries) (now : Moment) (counters : Counters) : Fresh Desk := do
  return { book := ← Book.load storage now, storage, counters }

end Desk

end Agenda
