import Agenda.Task.Data
import Agenda.Time.Stamp
import Agenda.Value.Decode

/-! # Stored tasks of any age

Stored tasks may have older forms: keys in camel case, times as milliseconds, a `text` for the
title, a single `tag`, a flag for what is done. All are brought to the present form, which is then
validated like any other data. Times as milliseconds are local times.
-/

namespace Agenda.Legacy

open Value

def taskKeys : List (String × String) :=
  [("createdAt", "created_at"), ("dueDate", "due_date"), ("startTime", "start_time"),
    ("estimatedDuration", "estimated_duration_min"), ("recurrenceSourceId", "recurrence_source_id")]

def ruleKeys : List (String × String) :=
  [("daysOfWeek", "days_of_week"), ("endDate", "end_date")]

/-- Entries under their present keys. -/
def renamed (keys : List (String × String)) (es : Entries) : Entries :=
  Entries.ofPairs (es.map fun (k, v) => ((keys.lookup k).getD k, v))

/-- A number divided by a thousand. -/
def thousandth : Value → Option Double
  | .int n => some (.ofQuotient (n < 0) n.natAbs 1000)
  | .num x => some (x.overNat 1000)
  | _ => none

/-- A count of milliseconds becomes a moment; anything else stays. -/
def readTime (v : Value) : Except Fault Value :=
  match v, thousandth v with
  | .int _, some (.infinite _) => .error .numberOverflow
  | _, some x => (Moment.ofStamp x).map .moment
  | v, none => .ok v

/-- What can be gone through: the items of a list, the characters of a text, the keys of an
object. What is absent or empty has none. -/
def itemsOf (v : Value) : Except Fault (List Value) :=
  if !v.truthy then .ok []
  else match v with
    | .list vs => .ok vs
    | .str s => .ok (s.toList.map fun c => .str (String.ofList [c]))
    | .object es => .ok (es.map fun (k, _) => .str k)
    | _ => .error .wrongKind

def objects (vs : List Value) : List Entries :=
  vs.filterMap fun
    | .object es => some es
    | _ => none

/-- A text becomes the title if there is none. -/
def readTitle (es : Entries) : Entries :=
  let es := match es.get? "text" with
    | some v => if es.has "title" then es else es.insert "title" v
    | none => es
  es.erase "text"

/-- A single tag goes in front of the tags. -/
def readTags (es : Entries) : Except Fault Entries := do
  let tags ← itemsOf (es.at? "tags")
  let tag := es.at? "tag"
  let tags := if tag.truthy && !tags.any (tag.same ·) then tag :: tags else tags
  return (es.erase "tag").insert "tags" (.list tags)

def isPending : Option Value → Bool
  | none => true
  | some (.str s) => s = Status.pending.name
  | some _ => false

/-- A flag that the task is done completes a pending task. -/
def readDone (es : Entries) : Entries :=
  let completes := match es.get? "done" with
    | some (.bool b) => b && isPending (es.get? "status")
    | _ => false
  let es := es.erase "done"
  if completes then es.insert "status" (.str Status.completed.name) else es

def readTimeAt (key : String) (es : Entries) : Except Fault Entries :=
  match es.get? key with
  | some v => do return es.insert key (← readTime v)
  | none => .ok es

def readRule (es : Entries) : Except Fault Entries :=
  match es.get? "recurring" with
  | some (.object rule) => do
    return es.insert "recurring" (.object (← readTimeAt "end_date" (renamed ruleKeys rule)))
  | _ => .ok es

def readReminder (es : Entries) : Except Fault Value := do
  return .object (es.insert "time" (← readTime (es.at? "time")))

def readReminders (es : Entries) : Except Fault Entries := do
  let reminders ← (objects (← itemsOf (es.at? "reminders"))).mapM readReminder
  return es.insert "reminders" (.list reminders)

def readSubtasks (es : Entries) : Except Fault Entries := do
  return es.insert "subtasks" (.list ((objects (← itemsOf (es.at? "subtasks"))).map .object))

def isBlank : Value → Bool
  | .null => true
  | .str s => s = ""
  | _ => false

/-- Without a field that is blank. -/
def dropBlank (key : String) (es : Entries) : Entries :=
  if isBlank (es.at? key) then es.erase key else es

/-- A stored task in its present form. -/
def migrate (raw : Entries) : Except Fault Entries := do
  let es := readTitle (renamed taskKeys raw)
  let es := readDone (← readTags es)
  let es ← readTimeAt "start_time" (← readTimeAt "due_date" (← readTimeAt "created_at" es))
  let es ← readSubtasks (← readReminders (← readRule es))
  return dropBlank "notes" (dropBlank "project" (dropBlank "priority" es))

end Agenda.Legacy
