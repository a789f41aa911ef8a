import Agenda.Command.Effect
import Agenda.Command.Grammar
import Agenda.Desk.Edit
import Agenda.Intent.Route

/-! # Submitting a line

A line goes through the grammar of commands, then to the classifier of intents, then through the
tiers of extraction; whichever recognises it makes the command. A new task without tags is tagged
by the service.
-/

namespace Agenda

/-- What recognised a line. -/
inductive Route where
  | rule
  | intent
  | extraction
  | notATask
  | nothing
deriving DecidableEq, Repr

def Route.name : Route → String
  | .rule => "rule"
  | .intent => "intent"
  | .extraction => "extraction"
  | .notATask => "not_a_task"
  | .nothing => "none"

structure Submission where
  command : Option Command := none
  route : Route
  message : String
  preferences : Preferences
  affected : List String := []
  /-- The affected tasks that are in the book. -/
  tasks : List Task := []
  effect : Option Effect := none

namespace Desk

open OnDesk

def notATaskMessage : String :=
  "That looks like a command I don't recognise. Type \"help\" to see what I understand."

def noTaskMessage : String :=
  "I couldn't turn that into a task."

/-- The command of a line that the grammar does not know. -/
def resolveFreely (m : Means) (text : String) (now : Moment) : OnDesk (Option Command × Route) := do
  match ← asking (Intent.route m.service m.threshold text) with
  | some command => return (some command, .intent)
  | none =>
    let run ← asking (Extract.pipeline m.service text.toList now)
    count fun c => run.results.foldl (·.countResult ·) c
    match run.task with
    | some task => return (some task.command, .extraction)
    | none => return (none, if run.notATask then .notATask else .nothing)

def resolve (m : Means) (text : String) (now : Moment) : OnDesk (Option Command × Route) := do
  let command ← (Command.parse text.toList now : Except Fault Command)
  if command.kind = .unknown then resolveFreely m text now else return (some command, .rule)

/-- A command to add a task without tags gets one from the service. -/
def tagged (m : Means) (c : Command) : OnDesk Command := do
  if c.kind = .add ∧ given c.tag = none ∧ c.tags = [] then
    return { c with tag := some (← asking (Tagger.classify m.service (c.taskText.getD ""))) }
  else return c

/-- Applies a command to the book, and then renews what it completed. -/
def apply (c : Command) (p : Preferences) (now : Moment) : OnDesk Effect := do
  let effect ← fresh (c.effect { book := (← get).book, preferences := p, now })
  match effect.book with
  | some b => commit b
  | none => pure ()
  let _ ← sweep now
  return effect

def countCommand (kind : CommandKind) (route : Route) : OnDesk Unit :=
  count fun c => { c with commands := c.commands.bump (kind.name, route.name) }

def submit (m : Means) (text : String) (now : Moment) : OnDesk Submission := do
  if (Text.trim text.toList).isEmpty then throw (.invalidCommand "empty input")
  let (command, route) ← resolve m text now
  let p ← preferences
  match command with
  | none =>
    countCommand .unknown route
    let message := if route = .notATask then notATaskMessage else noTaskMessage
    return { route, message, preferences := p }
  | some command =>
    let command ← tagged m command
    let effect ← apply command p now
    if effect.preferences ≠ p then savePreferences effect.preferences
    countCommand command.kind route
    return {
      command := some command
      route
      message := effect.message
      preferences := effect.preferences
      affected := effect.affected
      tasks := (← tasks).filter fun t => effect.affected.contains t.id
      effect := some effect }

end Desk

end Agenda
