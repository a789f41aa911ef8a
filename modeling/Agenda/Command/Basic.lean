import Agenda.Task.Data

/-! # Commands

A command says what to do with the task list. Only the fields that matter for its kind are set.
-/

namespace Agenda

inductive CommandKind where
  | add
  | tick
  | delete
  | archive
  | tag
  | filter
  | priority
  | due
  | snooze
  | repeat
  | remind
  | subtask
  | project
  | sort
  | calendar
  | dark
  | light
  | summarize
  | help
  | unknown
deriving DecidableEq, Repr

inductive SnoozeUnit where
  | days
  | weeks
  | months
deriving DecidableEq, Repr

inductive Period where
  | today
  | tomorrow
  | week
deriving DecidableEq, Repr

namespace CommandKind

def names : List (CommandKind × String) :=
  [(add, "add"), (tick, "tick"), (delete, "delete"), (archive, "archive"), (tag, "tag"),
    (filter, "filter"), (priority, "priority"), (due, "due"), (snooze, "snooze"), (.repeat, "repeat"),
    (remind, "remind"), (subtask, "subtask"), (project, "project"), (sort, "sort"),
    (calendar, "calendar"), (dark, "dark"), (light, "light"), (summarize, "summarize"), (help, "help"),
    (unknown, "unknown")]

def name (k : CommandKind) : String :=
  (names.lookup k).getD ""

def ofName? (s : String) : Option CommandKind :=
  (names.find? (·.2 == s)).map (·.1)

end CommandKind

namespace SnoozeUnit

def name : SnoozeUnit → String
  | days => "days"
  | weeks => "weeks"
  | months => "months"

def ofName? (s : String) : Option SnoozeUnit :=
  [days, weeks, months].find? (·.name == s)

end SnoozeUnit

namespace Period

def name : Period → String
  | today => "today"
  | tomorrow => "tomorrow"
  | week => "week"

def ofName? (s : String) : Option Period :=
  [today, tomorrow, week].find? (·.name == s)

end Period

structure Command where
  kind : CommandKind
  /-- How sure the reader of the command is, from 0 to 1. -/
  confidence : Double := .ofNat 1
  taskText : Option String := none
  search : Option String := none
  allMatches : Bool := false
  completedOnly : Bool := false
  tag : Option String := none
  /-- Tags beyond the first. -/
  tags : List String := []
  priority : Option Priority := none
  project : Option String := none
  due : Option Moment := none
  dueSpec : Option String := none
  reminderTime : Option Moment := none
  reminderHoursBefore : Option Int := none
  reminderSpec : Option String := none
  subtaskText : Option String := none
  parentSearch : Option String := none
  recurrence : Option Recurrence := none
  projectName : Option String := none
  sortCriteria : Option String := none
  snoozeAmount : Option Int := none
  snoozeUnit : Option SnoozeUnit := none
  period : Option Period := none
deriving DecidableEq

namespace Command

/-! ## Data -/

def entries (c : Command) : Entries :=
  let opt {α : Type} (key : String) (f : α → Value) (x : Option α) : Entries :=
    (x.map fun a => (key, f a)).toList
  [("type", .str c.kind.name), ("confidence", .num c.confidence)] ++
    opt "task_text" .str c.taskText ++ opt "search" .str c.search ++
    [("all_matches", .bool c.allMatches), ("completed_only", .bool c.completedOnly)] ++
    opt "tag" .str c.tag ++ [("tags", .list (c.tags.map .str))] ++
    opt "priority" (fun (p : Priority) => .str p.name) c.priority ++ opt "project" .str c.project ++
    opt "due" .moment c.due ++ opt "due_spec" .str c.dueSpec ++
    opt "reminder_time" .moment c.reminderTime ++ opt "reminder_hours_before" .int c.reminderHoursBefore ++
    opt "reminder_spec" .str c.reminderSpec ++ opt "subtask_text" .str c.subtaskText ++
    opt "parent_search" .str c.parentSearch ++ opt "recurrence" recurrenceData c.recurrence ++
    opt "project_name" .str c.projectName ++ opt "sort_criteria" .str c.sortCriteria ++
    opt "snooze_amount" .int c.snoozeAmount ++
    opt "snooze_unit" (fun (u : SnoozeUnit) => .str u.name) c.snoozeUnit ++
    opt "period" (fun (p : Period) => .str p.name) c.period
where
  recurrenceData (r : Recurrence) : Value :=
    .object (([("type", .str r.rhythm.name), ("interval", .int r.interval),
      ("days_of_week", .list (r.days.map .int))] : Entries) ++
      (r.endDate.map fun m => ("end_date", Value.moment m)).toList)

def data (c : Command) : Value :=
  .object c.entries

open Value

def decodeEntries (es : Entries) : Decoded Command :=
  let text (key : String) : Decoded (Option String) := withDefault es key none (decodeOption decodeStr)
  Decoded.ok Command.mk
    |>.and (required es "type" (decodeName CommandKind.ofName?))
    |>.and (withDefault es "confidence" (.ofNat 1) decodeConfidence)
    |>.and (text "task_text")
    |>.and (text "search")
    |>.and (withDefault es "all_matches" false decodeBool)
    |>.and (withDefault es "completed_only" false decodeBool)
    |>.and (text "tag")
    |>.and (withDefault es "tags" [] (decodeList decodeStr))
    |>.and (withDefault es "priority" none (decodeOption (decodeName Priority.ofName?)))
    |>.and (text "project")
    |>.and (withDefault es "due" none (decodeOption decodeMoment))
    |>.and (text "due_spec")
    |>.and (withDefault es "reminder_time" none (decodeOption decodeMoment))
    |>.and (withDefault es "reminder_hours_before" none (decodeOption decodeInt))
    |>.and (text "reminder_spec")
    |>.and (text "subtask_text")
    |>.and (text "parent_search")
    |>.and (withDefault es "recurrence" none (decodeOption (Value.decodeEntries Recurrence.decode)))
    |>.and (text "project_name")
    |>.and (text "sort_criteria")
    |>.and (withDefault es "snooze_amount" none (decodeOption decodeInt))
    |>.and (withDefault es "snooze_unit" none (decodeOption (decodeName SnoozeUnit.ofName?)))
    |>.and (withDefault es "period" none (decodeOption (decodeName Period.ofName?)))

def decode (v : Value) : Decoded Command :=
  Value.decodeEntries decodeEntries v

end Command

end Agenda
