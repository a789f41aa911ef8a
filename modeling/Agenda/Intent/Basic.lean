import Agenda.Command.Basic
import Agenda.Service.Basic

/-! # Intents

What the writer of a line wants, in one of a few labels, with the arguments that the line gives.
Only intents that act on existing tasks become commands.
-/

namespace Agenda

structure Intent where
  label : String
  confidence : Double := .zero
  /-- The task that is meant, or the text of a new one. -/
  text : Option String := none
  tag : Option String := none
  priority : Option Priority := none
deriving DecidableEq

namespace Intent

def labels : List String :=
  ["add_task", "complete_task", "delete_task", "change_tag", "set_priority", "filter_tasks", "help"]

/-- What a service is shown to tell intents apart. -/
def examples : List Example :=
  [⟨"add buy milk", "add_task"⟩, ⟨"create a task to call the bank", "add_task"⟩,
    ⟨"remember to water the plants", "add_task"⟩, ⟨"i need to book a dentist appointment", "add_task"⟩,
    ⟨"mark the laundry as done", "complete_task"⟩, ⟨"complete the quarterly report", "complete_task"⟩,
    ⟨"i finished the dishes", "complete_task"⟩, ⟨"tick off groceries", "complete_task"⟩,
    ⟨"delete the gym task", "delete_task"⟩, ⟨"remove buy milk from my list", "delete_task"⟩,
    ⟨"erase call mom", "delete_task"⟩,
    ⟨"change the tag of report to work", "change_tag"⟩,
    ⟨"set the category of run to fitness", "change_tag"⟩, ⟨"label groceries as errand", "change_tag"⟩,
    ⟨"make the report high priority", "set_priority"⟩, ⟨"set priority of taxes to high", "set_priority"⟩,
    ⟨"groceries are low priority", "set_priority"⟩,
    ⟨"show me my work tasks", "filter_tasks"⟩, ⟨"only show errands", "filter_tasks"⟩,
    ⟨"which tasks are tagged fitness", "filter_tasks"⟩,
    ⟨"what can you do", "help"⟩, ⟨"how do i use this", "help"⟩, ⟨"show me the commands", "help"⟩]

def data (i : Intent) : Value :=
  .object [("label", .str i.label), ("confidence", .num i.confidence), ("text", .ofStr? i.text),
    ("tag", .ofStr? i.tag), ("priority", .ofStr? (i.priority.map Priority.name))]

/-- The command for an intent whose arguments are complete, before its confidence is checked. -/
def draft (i : Intent) : Option Command :=
  let c := i.confidence
  if i.label = "complete_task" then
    (given i.text).map fun s => { kind := .tick, confidence := c, search := some s }
  else if i.label = "delete_task" then
    (given i.text).map fun s => { kind := .delete, confidence := c, search := some s }
  else if i.label = "change_tag" then do
    let s ← given i.text
    let t ← given i.tag
    return { kind := .tag, confidence := c, search := some s, tag := some t }
  else if i.label = "set_priority" then do
    let s ← given i.text
    let p ← i.priority
    return { kind := .priority, confidence := c, search := some s, priority := some p }
  else if i.label = "filter_tasks" then
    (given i.tag).map fun t => { kind := .filter, confidence := c, tag := some t }
  else if i.label = "help" then some { kind := .help, confidence := c }
  else none

/-- The command for an intent; a confidence outside 0 to 1 makes none. -/
def toCommand (i : Intent) : Except Fault (Option Command) :=
  match i.draft with
  | none => .ok none
  | some command =>
    match Value.decodeConfidence (.num i.confidence) with
    | .ok _ => .ok (some command)
    | .bad _ => .error (.invalid [["confidence"]])

end Intent

end Agenda
