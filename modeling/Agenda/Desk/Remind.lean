import Agenda.Alert.Due
import Agenda.Desk.Edit

/-! # Reminders and upkeep

A check fires the due reminders and sends an alert for every task that had one. Two routines run
on their own: one checks for reminders and sleeps, the other sleeps and renews recurring tasks;
what goes wrong in them ends the round and nothing else.
-/

namespace Agenda.Desk

open OnDesk

def alertTitle : String := "Task Reminder"

def alertText (t : Task) : String :=
  "Reminder for: " ++ t.title

/-- Fires what is due, unless the last check was too recent; gives the tasks that fired. -/
def fireReminders (m : Means) (now : Moment) (tick : Double) (forced : Bool) : OnDesk (List Task) := do
  let desk ← get
  if !desk.debounce.admits tick forced then return []
  set { desk with debounce := desk.debounce.performed tick }
  let (book, fired) ← (desk.book.fireDue now : Except Fault _)
  match book with
  | some b => commit b
  | none => pure ()
  if m.mayAlert then
    modify fun d => { d with alerts := d.alerts ++ fired.map fun t => (alertTitle, alertText t) }
  return fired

/-- A check that is counted. -/
def checkReminders (m : Means) (now : Moment) (tick : Double) (forced : Bool) : OnDesk (List Task) := do
  let fired ← fireReminders m now tick forced
  count fun c => { c with alerts := c.alerts + fired.length }
  return fired

/-! ## Routines -/

inductive Routine where
  | reminders
  | renewal
deriving DecidableEq, Repr

namespace Routine

/-- The seconds that a routine sleeps between its rounds. -/
def pause : Routine → Nat
  | reminders => 60
  | renewal => 300

/-- The rounds of a routine before its `n`-th sleep. The first one starts with a round, the second
with a sleep. -/
def rounds : Routine → Nat → Nat
  | reminders, n => n
  | renewal, n => n - 1

/-- One round; a fault ends it. -/
def round (r : Routine) (m : Means) (now : Moment) (tick : Double) : OnDesk Unit :=
  tryCatch
    (match r with
      | reminders => do let _ ← checkReminders m now tick false
      | renewal => do let _ ← sweep now)
    fun _ => pure ()

def repeatRound (r : Routine) (m : Means) (now : Moment) (tick : Double) : Nat → OnDesk Unit
  | 0 => pure ()
  | n + 1 => do
    r.round m now tick
    r.repeatRound m now tick n

/-- Runs a routine up to its `n`-th sleep; gives the lengths of the sleeps. -/
def run (r : Routine) (m : Means) (now : Moment) (tick : Double) (n : Nat) : OnDesk (List Nat) := do
  r.repeatRound m now tick (r.rounds n)
  return List.replicate n r.pause

end Routine

end Agenda.Desk
