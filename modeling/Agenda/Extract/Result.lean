import Agenda.Task.Basic
import Agenda.Command.Basic

/-! # Results of extraction

What a tier of extraction made of a text: a parsed task, a failure, or the verdict that the text
is no task.
-/

namespace Agenda

inductive Tier where
  | generative
  | heuristic
deriving DecidableEq, Repr

def Tier.name : Tier → String
  | .generative => "generative"
  | .heuristic => "heuristic"

def Tier.ofName? (s : String) : Option Tier :=
  [Tier.generative, Tier.heuristic].find? (·.name == s)

structure ParsedTask where
  title : String
  due : Option Moment := none
  tags : List String := []
  priority : Option Priority := none
  reminder : Option Moment := none
  source : Tier := .heuristic
deriving DecidableEq

inductive Outcome where
  | ok (task : ParsedTask)
  | failed (reason : String)
  | notATask (reason : String)
deriving DecidableEq

structure TierResult where
  tier : Tier
  outcome : Outcome
deriving DecidableEq

namespace TierResult

def task? (r : TierResult) : Option ParsedTask :=
  match r.outcome with
  | .ok t => some t
  | _ => none

def isNotATask (r : TierResult) : Bool :=
  match r.outcome with
  | .notATask _ => true
  | _ => false

end TierResult

def Outcome.name : Outcome → String
  | .ok _ => "ok"
  | .failed _ => "failed"
  | .notATask _ => "not_a_task"

def Outcome.reason : Outcome → String
  | .ok _ => ""
  | .failed r => r
  | .notATask r => r

namespace ParsedTask

def data (t : ParsedTask) : Value :=
  .object [("title", .str t.title), ("due", .ofMoment? t.due), ("tags", .list (t.tags.map .str)),
    ("priority", .ofStr? (t.priority.map Priority.name)), ("reminder", .ofMoment? t.reminder),
    ("source", .str t.source.name)]

open Value

def decodeEntries (es : Entries) : Decoded ParsedTask :=
  Decoded.ok ParsedTask.mk
    |>.and (required es "title" decodeText)
    |>.and (withDefault es "due" none (decodeOption decodeMoment))
    |>.and (withDefault es "tags" [] (decodeList decodeStr))
    |>.and (withDefault es "priority" none (decodeOption (decodeName Priority.ofName?)))
    |>.and (withDefault es "reminder" none (decodeOption decodeMoment))
    |>.and (withDefault es "source" .heuristic (decodeName Tier.ofName?))

def decode (v : Value) : Decoded ParsedTask :=
  Value.decodeEntries decodeEntries v

/-- The command that adds a parsed task: its first tag is the tag, the others go along. -/
def command (t : ParsedTask) : Command :=
  { kind := .add, taskText := some t.title, tag := t.tags.head?, tags := t.tags.drop 1
    priority := t.priority, due := t.due, reminderTime := t.reminder }

end ParsedTask

end Agenda
