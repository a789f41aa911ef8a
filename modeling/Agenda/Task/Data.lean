import Agenda.Task.Basic
import Agenda.Value.Decode
import Agenda.Time.Print

/-! # Tasks as data

Every part of a task has a form as data, under fixed keys. Encoding writes all fields; decoding
fills in what may be left out, with new identities where they are missing, and checks the rules
of the fields.
-/

namespace Agenda

/-- Identities that are made up rather than given; different numbers give different ones. -/
def freshId (n : Nat) : String :=
  "a9e0da00-0000-4000-8000-" ++ String.ofList (padId n)
where
  padId (n : Nat) : List Char :=
    let digits := Text.ofNat n
    List.replicate (12 - digits.length) '0' ++ digits

/-! ## Encoding -/

def Subtask.data (s : Subtask) : Value :=
  .object [("id", .str s.id), ("text", .str s.text), ("done", .bool s.done)]

def Reminder.data (r : Reminder) : Value :=
  .object [("id", .str r.id), ("time", .moment r.time), ("notified", .bool r.notified),
    ("type", .str r.kind.name)]

def Recurrence.data (r : Recurrence) : Value :=
  .object [("type", .str r.rhythm.name), ("interval", .int r.interval),
    ("days_of_week", .list (r.days.map .int)), ("end_date", .ofMoment? r.endDate)]

def Task.fields (t : Task) : Entries :=
  [("id", .str t.id), ("title", .str t.title), ("notes", .str t.notes),
    ("tags", .list (t.tags.map .ofStr?)), ("priority", .ofStr? (t.priority.map Priority.name)),
    ("project", .ofStr? t.project), ("status", .str t.status.name), ("created_at", .moment t.createdAt),
    ("due_date", .ofMoment? t.due), ("start_time", .ofMoment? t.start),
    ("estimated_duration_min", (t.minutes.map Value.int).getD .null),
    ("subtasks", .list (t.subtasks.map Subtask.data)),
    ("recurring", (t.recurrence.map Recurrence.data).getD .null),
    ("reminders", .list (t.reminders.map Reminder.data)),
    ("recurrence_source_id", .ofStr? t.source)]

/-- The fields and whether the task is done. -/
def Task.data (t : Task) : Value :=
  .object (t.fields ++ [("done", .bool t.done)])

mutual

/-- A value as JSON can hold it: moments become texts. -/
def Value.toJson : Value → Value
  | .moment m => .str (String.ofList m.dataText)
  | .list vs => .list (Value.toJsonItems vs)
  | .object es => .object (Value.toJsonEntries es)
  | v => v

def Value.toJsonItems : List Value → List Value
  | [] => []
  | v :: vs => v.toJson :: Value.toJsonItems vs

def Value.toJsonEntries : List (String × Value) → List (String × Value)
  | [] => []
  | (k, v) :: es => (k, v.toJson) :: Value.toJsonEntries es

end

/-! ## Decoding -/

open Value

def decodeText (v : Value) : Decoded String :=
  (decodeStr v).check (· != "")

/-- A title is trimmed and must not be blank. -/
def decodeTitle (v : Value) : Decoded String :=
  ((decodeText v).map fun s => String.ofList (Text.trim s.toList)).check (· != "")

def Subtask.decode (id : String) (es : Entries) : Decoded Subtask :=
  Decoded.ok Subtask.mk
    |>.and (withDefault es "id" id decodeStr)
    |>.and (required es "text" decodeText)
    |>.and (withDefault es "done" false decodeBool)

def Reminder.decode (id : String) (es : Entries) : Decoded Reminder :=
  Decoded.ok Reminder.mk
    |>.and (withDefault es "id" id decodeStr)
    |>.and (required es "time" decodeMoment)
    |>.and (withDefault es "notified" false decodeBool)
    |>.and (withDefault es "type" .absolute (decodeName ReminderKind.ofName?))

/-- Weekdays are 0 to 6; they are kept in order, each once. -/
def decodeDays (v : Value) : Decoded (List Int) :=
  ((decodeList decodeInt v).check fun ds => ds.all fun d => 0 ≤ d && d ≤ 6).map fun ds =>
    (List.range 7).filterMap fun d => if ds.contains (d : Int) then some (d : Int) else none

def Recurrence.decode (es : Entries) : Decoded Recurrence :=
  Decoded.ok Recurrence.mk
    |>.and (required es "type" (decodeName Rhythm.ofName?))
    |>.and (withDefault es "interval" 1 fun v => (decodeInt v).check (1 ≤ ·))
    |>.and (withDefault es "days_of_week" [] decodeDays)
    |>.and (withDefault es "end_date" none (decodeOption decodeMoment))

/-- A list of objects that take their identities from `first` on. -/
def decodeParts {α : Type} (first : Nat) (decode : String → Entries → Decoded α) : Value → Decoded (List α)
  | .list vs =>
    .all (vs.mapIdx fun i v => (decodeEntries (decode (freshId (first + i))) v).under (toString i))
  | _ => .fail

def listLength (es : Entries) (key : String) : Nat :=
  match es.get? key with
  | some (.list vs) => vs.length
  | _ => 0

/-- How many identities decoding a task may make up. -/
def Task.idsNeeded (es : Entries) : Nat :=
  1 + listLength es "subtasks" + listLength es "reminders"

def Task.decodeEntries (now : Moment) (next : Nat) (es : Entries) : Decoded Task :=
  Decoded.ok Task.mk
    |>.and (withDefault es "id" (freshId next) decodeStr)
    |>.and (required es "title" decodeTitle)
    |>.and (withDefault es "notes" "" decodeStr)
    |>.and (withDefault es "tags" [] fun v => (decodeList decodeStr v).map fun ts => (normalTags ts).map some)
    |>.and (withDefault es "priority" none (decodeOption (decodeName Priority.ofName?)))
    |>.and (withDefault es "project" none (decodeOption decodeStr))
    |>.and (withDefault es "status" .pending (decodeName Status.ofName?))
    |>.and (withDefault es "created_at" now decodeMoment)
    |>.and (withDefault es "due_date" none (decodeOption decodeMoment))
    |>.and (withDefault es "start_time" none (decodeOption decodeMoment))
    |>.and (withDefault es "estimated_duration_min" none (decodeOption fun v => (decodeInt v).check (1 ≤ ·)))
    |>.and (withDefault es "subtasks" [] (decodeParts (next + 1) Subtask.decode))
    |>.and (withDefault es "recurring" none (decodeOption (Value.decodeEntries Recurrence.decode)))
    |>.and (withDefault es "reminders" []
      (decodeParts (next + 1 + listLength es "subtasks") Reminder.decode))
    |>.and (withDefault es "recurrence_source_id" none (decodeOption decodeStr))

/-- A task from data; `now` is when it is created if the data does not say. -/
def Task.decode (now : Moment) (next : Nat) (v : Value) : Decoded Task :=
  Value.decodeEntries (Task.decodeEntries now next) v

end Agenda
