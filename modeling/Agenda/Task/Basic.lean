import Agenda.Time.Moment
import Agenda.Time.Names
import Agenda.Text.Blank
import Agenda.Text.Case
import Agenda.Text.Occurs

/-! # Tasks

A task with its subtasks, reminders and recurrence. The status is the only mark of progress;
a task is done when it is completed. Validated tasks have trimmed titles and tags in normal form.
-/

namespace Agenda

inductive Priority where
  | high
  | medium
  | low
deriving DecidableEq, Repr

inductive Status where
  | pending
  | completed
  | archived
deriving DecidableEq, Repr

inductive Rhythm where
  | daily
  | weekly
  | monthly
  | custom
deriving DecidableEq, Repr

inductive ReminderKind where
  | absolute
  | relative
deriving DecidableEq, Repr

structure Subtask where
  id : String
  text : String
  done : Bool := false
deriving DecidableEq

structure Reminder where
  id : String
  time : Moment
  notified : Bool := false
  kind : ReminderKind := .absolute
deriving DecidableEq

structure Recurrence where
  rhythm : Rhythm
  interval : Int := 1
  /-- Weekdays from Sunday, 0, to Saturday, 6, in increasing order. -/
  days : List Int := []
  endDate : Option Moment := none
deriving DecidableEq

structure Task where
  id : String
  title : String
  notes : String := ""
  /-- A tag that was set without a name is `none`. -/
  tags : List (Option String) := []
  priority : Option Priority := none
  project : Option String := none
  status : Status := .pending
  createdAt : Moment
  due : Option Moment := none
  start : Option Moment := none
  minutes : Option Int := none
  subtasks : List Subtask := []
  recurrence : Option Recurrence := none
  reminders : List Reminder := []
  /-- The completed task that this one is the next occurrence of. -/
  source : Option String := none
deriving DecidableEq

/-- The duration of a task without an estimate, in minutes. -/
def defaultMinutes : Int := 60

namespace Task

def done (t : Task) : Bool :=
  t.status == .completed

/-- When a task begins: its start time, failing that its due date. -/
def effectiveStart (t : Task) : Option Moment :=
  t.start <|> t.due

def duration (t : Task) (default : Int) : Int :=
  t.minutes.getD default

def withStatus (t : Task) (s : Status) : Task :=
  { t with status := s }

def toggled (t : Task) : Task :=
  t.withStatus (if t.done then .pending else .completed)

def titleHas (t : Task) (needle : List Char) : Bool :=
  Text.occurs needle (Text.lower t.title.toList)

end Task

/-! ## Names -/

namespace Priority

def name : Priority → String
  | .high => "high"
  | .medium => "medium"
  | .low => "low"

def all : List Priority := [.high, .medium, .low]

def ofName? (s : String) : Option Priority :=
  all.find? (·.name == s)

/-- Smaller ranks come first. -/
def rank : Option Priority → Nat
  | some .high => 0
  | some .medium => 1
  | some .low => 2
  | none => 3

/-- The priority that a word stands for, in any case. -/
def ofWord? (word : List Char) : Option Priority :=
  [("high", high), ("urgent", high), ("important", high), ("medium", medium), ("normal", medium),
    ("low", low)].lookup (String.ofList (Text.lower word))

end Priority

namespace Status

def name : Status → String
  | .pending => "pending"
  | .completed => "completed"
  | .archived => "archived"

def all : List Status := [.pending, .completed, .archived]

def ofName? (s : String) : Option Status :=
  all.find? (·.name == s)

end Status

namespace Rhythm

def name : Rhythm → String
  | .daily => "daily"
  | .weekly => "weekly"
  | .monthly => "monthly"
  | .custom => "custom"

def ofName? (s : String) : Option Rhythm :=
  [daily, weekly, monthly, custom].find? (·.name == s)

end Rhythm

namespace ReminderKind

def name : ReminderKind → String
  | .absolute => "absolute"
  | .relative => "relative"

def ofName? (s : String) : Option ReminderKind :=
  [absolute, relative].find? (·.name == s)

end ReminderKind

/-- A text that is there and not empty. -/
def given (s : Option String) : Option String :=
  s.filter (· != "")

/-! ## Tags -/

/-- A tag as it is stored: trimmed, without leading `#`, in lower case. -/
def normalTag (tag : String) : String :=
  String.ofList (Text.lower ((Text.trim tag.toList).dropWhile (· == '#')))

/-- Tags in normal form, without empty ones, each once. -/
def normalTags (tags : List String) : List String :=
  tags.foldl (fun out tag =>
    let t := normalTag tag
    if t = "" || out.contains t then out else out ++ [t]) []

/-! ## Tag colours

Every tag is shown in a colour; tags without one of their own take the colour of `general`.
-/

def tagColors : List (String × String) :=
  [("work", "bg-blue-100 text-blue-800"), ("errand", "bg-green-100 text-green-800"),
    ("fitness", "bg-orange-100 text-orange-800"), ("spiritual", "bg-purple-100 text-purple-800"),
    ("general", "bg-gray-100 text-gray-800"), ("social", "bg-pink-100 text-pink-800"),
    ("finance", "bg-emerald-100 text-emerald-800"), ("home", "bg-indigo-100 text-indigo-800"),
    ("education", "bg-sky-100 text-sky-800"), ("health", "bg-rose-100 text-rose-800")]

def generalColor : String := "bg-gray-100 text-gray-800"

def tagColor (tag : String) : String :=
  (tagColors.lookup tag).getD generalColor

def isNamedTag (tag : String) : Bool :=
  (tagColors.lookup tag).isSome

end Agenda
