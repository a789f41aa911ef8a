import Agenda.Summary
import Agenda.Time.Print
import Agenda.Number.Double

/-! # Questions about the task list

A question is answered from a template that the first known keyword in it chooses. Answers quote
titles, dates and counts of the list and change nothing.
-/

namespace Agenda

inductive Topic where
  | summary
  | workload
  | priority
  | deadlines
  | progress
  | categories
  | help
  | fallback
deriving DecidableEq, Repr

namespace Topic

def name : Topic → String
  | summary => "summary"
  | workload => "workload"
  | priority => "priority"
  | deadlines => "deadlines"
  | progress => "progress"
  | categories => "categories"
  | help => "help"
  | fallback => "fallback"

/-- The keywords of the topics, in the order in which they are looked for. -/
def keywords : List (Topic × List String) :=
  [(summary, ["summarize", "summary"]),
    (workload, ["workload", "schedule", "what's on", "what is on", "do i have"]),
    (priority, ["priority", "important", "urgent"]),
    (deadlines, ["deadline", "due", "upcoming"]),
    (progress, ["progress", "status", "how am i doing"]),
    (categories, ["category", "categories", "tag"]),
    (help, ["help", "can you", "how to"])]

def ofQuestion (question : List Char) : Topic :=
  let q := Text.lower question
  match keywords.find? fun t => t.2.any fun k => Text.occurs k.toList q with
  | some (topic, _) => topic
  | none => fallback

end Topic

/-- The period that a question is about; today unless it says otherwise. -/
def Period.ofQuestion (question : List Char) : Period :=
  let q := Text.lower question
  if Text.occurs "tomorrow".toList q then .tomorrow
  else if Text.occurs "week".toList q then .week
  else .today

structure Answer where
  topic : Topic
  text : String

namespace Answer

/-! ## Pieces -/

def lines (ls : List String) : String :=
  "\n".intercalate ls

/-- High priority is marked. -/
def flag (t : Task) : String :=
  if t.priority = some .high then " (!)" else ""

/-- The tag that a task is counted under. -/
def category (t : Task) : Option String :=
  t.tags.head?.getD (some "general")

def categoryName (c : Option String) : String :=
  c.getD "None"

def count (n : Nat) : String :=
  Text.showNat n

/-- A line that tells how many of the items were left out. -/
def andMore (shown total : Nat) (what : String) : List String :=
  if shown < total then ["...and " ++ count (total - shown) ++ " more" ++ what] else []

/-- A part of a whole in percent, a half to the even number. -/
def percent (part whole : Nat) : String :=
  match ((Double.ofQuotient false part whole).timesNat 100).round with
  | some n => Text.showInt n ++ "%"
  | none => ""

def capitalized (p : Period) : String :=
  String.ofList (Text.capitalize p.name.toList)

/-! ## Templates -/

def summaryText (tasks : List Task) (period : Period) (now : Moment) : Except Fault String := do
  let s ← Summary.ofTasks tasks period true now
  if s.total = 0 then return "You don't have any tasks scheduled for " ++ period.name ++ "."
  let high := s.highPriority
  return lines <|
    [capitalized period ++ " summary",
      "You have " ++ count s.total ++ " tasks (" ++ count s.completed ++
        " completed), requiring approximately " ++ Text.showInt (s.minutes / 60) ++ " hours " ++
        Text.showInt (s.minutes % 60) ++ " minutes."] ++
    (if high.isEmpty then [] else
      "High priority:" ::
        (high.take 3).map (fun t => "- " ++ t.title ++ (if t.done then " (done)" else "")) ++
        andMore 3 high.length "") ++
    "Categories:" ::
    s.byTag.map fun (tag, group) => "- " ++ categoryName tag ++ ": " ++ count group.length ++ " tasks"

/-- The pending tasks of a period in order of due date. -/
def pendingWithin (tasks : List Task) (period : Period) (now : Moment) : Except Fault (List Task) := do
  let bounds ← period.bounds now
  let tasks ← (tasks.filter (·.status == .pending)).filterM (Summary.dueWithin bounds)
  Summary.byDue tasks

def dayText (m : Moment) : String :=
  m.weekdayText ++ " " ++ m.monthDayText

/-- One line a task, with the day before the first task of each day; `current` is the day last
written. -/
def dayLines (current : String) : List (Moment × Task) → List String
  | [] => []
  | (due, t) :: rest =>
    let day := dayText due
    (if day = current then [] else [day]) ++
      ("- " ++ due.hourMinuteText ++ ": " ++ t.title ++ flag t) :: dayLines day rest

def dated (tasks : List Task) : List (Moment × Task) :=
  tasks.filterMap fun t => t.due.map fun m => (m, t)

def workloadText (tasks : List Task) (period : Period) (now : Moment) : Except Fault String := do
  let pending ← pendingWithin tasks period now
  if pending.isEmpty then
    return "Your schedule for " ++ period.name ++ " is clear. You don't have any pending tasks."
  return lines <|
    ("Your " ++ period.name ++ " schedule") :: dayLines "" (dated pending) ++
    ["Total: " ++ count pending.length ++ " tasks"]

def priorityText (tasks : List Task) : Except Fault String := do
  let urgent := tasks.filter fun t => t.priority = some .high && t.status == .pending
  if urgent.isEmpty then return "You don't have any high priority tasks at the moment."
  let urgent ← Moment.sortBy (fun t => t.due.getD .latest) urgent
  return lines <| "High priority tasks" :: urgent.map fun t =>
    "- " ++ t.title ++
      ((t.due.map fun m => " (due " ++ m.monthDayText ++ " " ++ m.hourMinuteText ++ ")").getD "")

inductive Bucket where
  | today
  | tomorrow
  | thisWeek
  | later
deriving DecidableEq, Repr

namespace Bucket

def label : Bucket → String
  | today => "Today"
  | tomorrow => "Tomorrow"
  | thisWeek => "This week"
  | later => "Later"

def all : List Bucket := [today, tomorrow, thisWeek, later]

/-- Where a due date belongs, seen from the end of today. -/
def ofDue (endOfToday endOfTomorrow endOfWeek due : Moment) : Except Fault Bucket := do
  if ← due.le endOfToday then return today
  if ← due.le endOfTomorrow then return tomorrow
  if ← due.le endOfWeek then return thisWeek
  return later

/-- What stands before a title in a bucket. -/
def lead (b : Bucket) (due : Moment) : String :=
  match b with
  | thisWeek => due.weekdayText ++ ": "
  | later => due.monthDayText ++ ": "
  | _ => ""

/-- The lines of a bucket; of the later tasks only three are shown. -/
def lines (b : Bucket) (group : List (Moment × Task)) : List String :=
  let shown := if b = later then group.take 3 else group
  if group.isEmpty then []
  else b.label :: shown.map (fun (due, t) => "- " ++ b.lead due ++ t.title ++ flag t) ++
    andMore shown.length group.length ""

end Bucket

def deadlinesText (tasks : List Task) (now : Moment) : Except Fault String := do
  let pending ← Summary.byDue (tasks.filter (·.status == .pending))
  if pending.isEmpty then return "You don't have any upcoming deadlines."
  let endOfToday := Moment.endOfDay now.day
  let endOfTomorrow ← endOfToday.plusDays 1
  let endOfWeek ← endOfToday.plusDays 7
  let placed ← (dated pending).mapM fun (due, t) => do
    return (← Bucket.ofDue endOfToday endOfTomorrow endOfWeek due, due, t)
  return lines <| "Upcoming deadlines" :: Bucket.all.flatMap fun b =>
    b.lines ((placed.filter (·.1 == b)).map (·.2))

def byCategory (tasks : List Task) : List (Option String × List Task) :=
  (tasks.map category).eraseDups.map fun c => (c, tasks.filter (category · == c))

def doneOf (tasks : List Task) : Nat :=
  (tasks.filter (·.done)).length

/-- How much of some tasks is done, in percent and in numbers. -/
def completion (tasks : List Task) : String :=
  percent (doneOf tasks) tasks.length ++ " (" ++ count (doneOf tasks) ++ "/" ++ count tasks.length ++ ")"

def progressText (tasks : List Task) : String :=
  if tasks.isEmpty then "You don't have any tasks yet. Start by adding some tasks to your list."
  else lines <|
    ["Overall completion: " ++ completion tasks,
      "- Completed: " ++ count (doneOf tasks),
      "- Pending: " ++ count (tasks.filter (·.status == .pending)).length,
      "- Archived: " ++ count (tasks.filter (·.status == .archived)).length,
      "Progress by category:"] ++
    (byCategory tasks).map fun (c, group) => "- " ++ categoryName c ++ ": " ++ completion group

/-- The lines of a category; of its open tasks only three are shown. -/
def categoryLines (c : Option String) (group : List Task) : List String :=
  let rest := group.filter (!·.done)
  (categoryName c ++ " (" ++ count group.length ++ " tasks, " ++ count (doneOf group) ++ " completed)") ::
    (rest.take 3).map (fun t => "- " ++ t.title ++ flag t) ++ andMore 3 rest.length " pending"

/-- Larger categories come first. -/
def categoriesText (tasks : List Task) : String :=
  if tasks.isEmpty then "You don't have any tasks categorized yet."
  else lines <| "Task categories" ::
    ((byCategory tasks).mergeSort fun a b => b.2.length ≤ a.2.length).flatMap fun (c, group) =>
      categoryLines c group

def helpText : String :=
  "You can ask me questions like:\n" ++
  "- \"What's on my schedule today?\"\n" ++
  "- \"What are my high priority tasks?\"\n" ++
  "- \"Summarize my tasks for this week\"\n" ++
  "- \"Show me my upcoming deadlines\"\n" ++
  "- \"How am I doing on my tasks?\"\n" ++
  "- \"What categories do I have?\""

def fallbackText : String :=
  "I'm not sure how to answer that. You can ask me about your schedule, " ++
  "priorities, deadlines, or progress on your tasks."

/-! ## Answering -/

def textFor (topic : Topic) (tasks : List Task) (period : Period) (now : Moment) : Except Fault String :=
  match topic with
  | .summary => summaryText tasks period now
  | .workload => workloadText tasks period now
  | .priority => priorityText tasks
  | .deadlines => deadlinesText tasks now
  | .progress => .ok (progressText tasks)
  | .categories => .ok (categoriesText tasks)
  | .help => .ok helpText
  | .fallback => .ok fallbackText

def ofQuestion (question : List Char) (tasks : List Task) (now : Moment) : Except Fault Answer := do
  let topic := Topic.ofQuestion question
  return ⟨topic, ← textFor topic tasks (.ofQuestion question) now⟩

end Answer

end Agenda
