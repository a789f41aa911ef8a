import Agenda.Book.Basic
import Agenda.Book.Preferences
import Agenda.Recurrence.Renewal
import Agenda.Summary
import Agenda.Time.Print
import Agenda.Window.Basic

/-! # What commands do

A command takes the book and the preferences to new ones and says what it did. Nothing is stored
here. Commands with a search phrase change the tasks whose titles contain it, all of them or the
first; every other task is left as it is.
-/

namespace Agenda

/-! ## The help text

Every command with an example, by section; descriptions stand in one column.
-/

namespace Command

structure HelpSection where
  title : String
  entries : List (String × String)

def helpSections : List HelpSection := [
  ⟨"Adding", [
    ("add buy milk", "Add a task"),
    ("add workout #fitness", "Add with a tag"),
    ("add call mom as work", "Add with a tag, spelled out"),
    ("add report !high", "Add with a priority (high, medium, low)"),
    ("add slides to launch project", "Add into a project"),
    ("add subtask outline to report", "Add a subtask to the first matching task")]⟩,
  ⟨"Updating", [
    ("tick milk", "Complete the first task containing \"milk\""),
    ("tick all milk", "Complete every task containing \"milk\""),
    ("tick subtask outline", "Complete a subtask"),
    ("delete milk", "Delete the first matching task"),
    ("archive completed", "Archive every completed task"),
    ("tag workout as fitness", "Change a task's tag"),
    ("priority report high", "Change a task's priority")]⟩,
  ⟨"Scheduling", [
    ("due tomorrow report", "Due today, tomorrow or next <weekday>"),
    ("snooze report 2 days", "Push the due date back"),
    ("repeat weekly on monday standup", "Make a task recurring"),
    ("remind me about report tomorrow 9am", "Remind at a time"),
    ("remind me 2 hours before report", "Remind ahead of the due date")]⟩,
  ⟨"Viewing", [
    ("show work tasks", "Filter by tag"),
    ("sort by due date", "Sort by priority, due date, created or name"),
    ("summarize this week", "Summary for today, tomorrow or this week"),
    ("create project launch", "Create a project"),
    ("list projects", "List projects"),
    ("calendar", "Toggle the calendar"),
    ("dark mode", "Switch theme")]⟩]

/-- A text filled up with spaces to forty characters. -/
def column (s : String) : String :=
  s ++ String.ofList (List.replicate (40 - s.length) ' ')

def helpLines (s : HelpSection) : List String :=
  ("\n" ++ s.title) :: s.entries.map fun (example_, description) =>
    "  " ++ column example_ ++ " " ++ description

def helpText : String :=
  "\n".intercalate ("Available commands:" :: helpSections.flatMap helpLines)

end Command

/-! ## Effects -/

structure Effect where
  book : Option Book := none
  message : String
  preferences : Preferences
  /-- The identities of the tasks that the command is about. -/
  affected : List String := []
  task : Option Task := none
  conflict : Option Window.Conflict := none
  summary : Option Summary := none
  projects : Option (List String) := none

structure Setting where
  book : Book
  preferences : Preferences
  now : Moment
  /-- The time that a task without an estimate takes, in minutes. -/
  minutes : Int := defaultMinutes

namespace Command

/-! ## Wording -/

def taskCount (n : Nat) : String :=
  Text.showNat n ++ " task(s)"

def inQuotes (s : String) : String :=
  "\"" ++ s ++ "\""

/-- A field of a command in a message. -/
def shownField (s : Option String) : String :=
  s.getD "None"

def momentText (m : Moment) : String :=
  m.weekdayText ++ " " ++ m.monthDayText ++ ", " ++ m.hourMinuteText

/-! ## Matching tasks -/

/-- Changes the tasks that are hit, all of them or the first, and lists their identities. -/
def changeMatching (all : Bool) (hit : Task → Bool) (change : Task → Fresh Task) :
    List Task → Fresh (List Task × List String)
  | [] => return ([], [])
  | t :: ts => do
    if hit t then
      let new ← change t
      if all then
        let (ts, ids) ← changeMatching all hit change ts
        return (new :: ts, t.id :: ids)
      else return (new :: ts, [t.id])
    else
      let (ts, ids) ← changeMatching all hit change ts
      return (t :: ts, ids)

/-- An eligible task whose title contains the search phrase; without a phrase every title does. -/
def hits (search : Option String) (eligible : Task → Bool) (t : Task) : Bool :=
  eligible t && t.titleHas (Text.lower (search.getD "").toList)

def say (s : Setting) (message : String) : Effect :=
  { message, preferences := s.preferences }

def noneMatching (s : Setting) (what : String) (search : Option String) : Effect :=
  say s ("No matching " ++ what ++ " found for " ++ inQuotes (shownField search))

/-- The effect of changing all eligible tasks that match, or the first. -/
def updating (c : Command) (s : Setting) (eligible : Task → Bool) (what : String)
    (change : Task → Fresh Task) (message : Nat → String) : Fresh Effect := do
  let (tasks, affected) ← changeMatching c.allMatches (hits c.search eligible) change s.book.tasks
  if affected.isEmpty then return noneMatching s what c.search
  return { say s (message affected.length) with book := some (s.book.withTasks tasks), affected }

def anyTask (_ : Task) : Bool := true

def pending (t : Task) : Bool :=
  t.status == .pending

/-! ## The commands -/

/-- The task that a command adds, validated like any other. -/
def newTask (c : Command) (now : Moment) : Fresh Task := do
  let kind := if c.due.isSome then ReminderKind.relative else .absolute
  let reminders ← c.reminderTime.toList.mapM fun m => Fresh.reminder m kind
  let title := match c.taskText with
    | none | some "" => "Task"
    | some text => String.ofList (Text.trim text.toList)
  if title = "" then throw (.invalid [["title"]])
  return {
    id := ← Fresh.newId
    title
    tags := (normalTags ((given c.tag).toList ++ c.tags)).map some
    priority := c.priority
    project := c.project
    due := c.due
    reminders
    createdAt := now }

def withProject (projects : List String) : Option String → List String
  | some p => if p = "" || projects.contains p then projects else projects ++ [p]
  | none => projects

def conflictText (c : Window.Conflict) : String :=
  " (overlaps " ++ ", ".intercalate (c.tasks.map fun t => inQuotes t.title) ++ "; next free slot " ++
    momentText c.suggested ++ ")"

def add (c : Command) (s : Setting) : Fresh Effect := do
  let task ← c.newTask s.now
  let conflict ← (Window.conflict task s.book.tasks s.minutes : Except Fault _)
  let message := "Added task: " ++ task.title ++ (conflict.map conflictText).getD ""
  let book := { s.book with
    tasks := s.book.tasks ++ [task], projects := withProject s.book.projects task.project }
  return { say s message with
    book := some book, affected := [task.id], task := some task, conflict }

def tick (c : Command) (s : Setting) : Fresh Effect :=
  c.updating s pending "incomplete tasks" (fun t => return t.withStatus .completed)
    fun n => "Completed " ++ taskCount n ++ " matching " ++ inQuotes (shownField c.search)

def delete (c : Command) (s : Setting) : Fresh Effect := do
  let (_, affected) ← changeMatching c.allMatches (hits c.search anyTask) (fun t => return t) s.book.tasks
  if affected.isEmpty then return noneMatching s "tasks" c.search
  let message := "Deleted " ++ taskCount affected.length ++ " matching " ++ inQuotes (shownField c.search)
  return { say s message with book := some (s.book.without affected), affected }

def archive (c : Command) (s : Setting) : Fresh Effect :=
  if c.completedOnly then do
    let affected := (s.book.tasks.filter (·.done)).map (·.id)
    if affected.isEmpty then return noneMatching s "tasks" c.search
    let tasks := s.book.tasks.map fun t => if t.done then t.withStatus .archived else t
    return { say s ("Archived " ++ taskCount affected.length) with
      book := some (s.book.withTasks tasks), affected }
  else
    c.updating s (·.status != .archived) "tasks" (fun t => return t.withStatus .archived)
      fun n => "Archived " ++ taskCount n

def retag (c : Command) (s : Setting) : Fresh Effect :=
  c.updating s anyTask "tasks" (fun t => return { t with tags := [c.tag] })
    fun n => "Updated tag to " ++ inQuotes (shownField c.tag) ++ " for " ++ taskCount n

def filter (c : Command) (s : Setting) : Effect :=
  match c.tag with
  | none | some "all" =>
    { say s "Showing all tasks" with preferences := { s.preferences with filterTag := none } }
  | some tag =>
    { say s ("Showing tasks tagged " ++ inQuotes tag) with
      preferences := { s.preferences with filterTag := some tag } }

def prioritize (c : Command) (s : Setting) : Fresh Effect :=
  c.updating s anyTask "tasks" (fun t => return { t with priority := c.priority })
    fun n => "Set priority to " ++ inQuotes (shownField (c.priority.map Priority.name)) ++ " for " ++
      taskCount n

def schedule (c : Command) (s : Setting) : Fresh Effect :=
  c.updating s anyTask "tasks" (fun t => return { t with due := c.due })
    fun n => "Updated due date for " ++ taskCount n

/-- The due date of a task, failing that the end of today. -/
def dueOrToday (t : Task) (now : Moment) : Moment :=
  t.due.getD (.endOfDay now.day)

/-- A moment a number of days, weeks or months later. -/
def later (m : Moment) (amount : Int) : SnoozeUnit → Except Fault Moment
  | .days => m.plusDays amount
  | .weeks => m.plusDays (7 * amount)
  | .months => m.plusMonths amount

def snooze (c : Command) (s : Setting) : Fresh Effect :=
  let amount := c.snoozeAmount.getD 0
  let unit := c.snoozeUnit.getD .days
  c.updating s pending "incomplete tasks"
    (fun t => do
      let due ← (later (dueOrToday t s.now) amount unit : Except Fault Moment)
      return { t with due := some due })
    fun n => "Snoozed " ++ taskCount n ++ " by " ++ Text.showInt amount ++ " " ++ unit.name

def recur (c : Command) (s : Setting) : Fresh Effect :=
  c.updating s anyTask "tasks"
    (fun t => return { t with recurrence := c.recurrence, due := some (dueOrToday t s.now) })
    fun n => "Set recurring schedule for " ++ taskCount n

def reminded (t : Task) (r : Reminder) : Task :=
  { t with reminders := t.reminders ++ [r] }

/-- The reminder some hours before the due date. -/
def remindBefore (hours : Int) (t : Task) : Fresh Task := do
  match t.due with
  | none => throw .unscheduled
  | some due =>
    let time ← (due.plus (-(hours * hourTicks)) : Except Fault Moment)
    return reminded t (← Fresh.reminder time .relative)

/-- The reminder at a fixed time; without one there is none to make. -/
def remindAt (time : Option Moment) (t : Task) : Fresh Task := do
  match time with
  | none => throw (.invalid [["time"]])
  | some time => return reminded t (← Fresh.reminder time .absolute)

def remind (c : Command) (s : Setting) : Fresh Effect :=
  let message (n : Nat) : String :=
    "Set reminder (" ++ shownField c.reminderSpec ++ ") for " ++ taskCount n
  match c.reminderHoursBefore with
  | some hours => c.updating s (·.due.isSome) "tasks with a due date" (remindBefore hours) message
  | none => c.updating s anyTask "tasks" (remindAt c.reminderTime) message

def addSubtask (text parent : String) (s : Setting) : Fresh Effect := do
  let (tasks, affected) ← changeMatching false (hits (some parent) anyTask)
    (fun t => do return { t with subtasks := t.subtasks ++ [← Fresh.subtask text] }) s.book.tasks
  if affected.isEmpty then return noneMatching s "tasks" (some parent)
  return { say s ("Added subtask " ++ inQuotes text ++ " to " ++ inQuotes parent) with
    book := some (s.book.withTasks tasks), affected }

def openSubtask? (needle : List Char) (t : Task) : Option Subtask :=
  t.subtasks.find? fun s => !s.done && Text.occurs needle (Text.lower s.text.toList)

def subtaskDone (t : Task) (id : String) : Task :=
  { t with subtasks := t.subtasks.map fun s => if s.id = id then { s with done := true } else s }

/-- Completes the first open subtask that contains a text; gives the identity of its task. -/
def completeSubtask (needle : List Char) : List Task → List Task × Option String
  | [] => ([], none)
  | t :: ts =>
    match openSubtask? needle t with
    | some s => (subtaskDone t s.id :: ts, some t.id)
    | none =>
      let (ts, id) := completeSubtask needle ts
      (t :: ts, id)

def subtask (c : Command) (s : Setting) : Fresh Effect :=
  let text := c.subtaskText.getD ""
  match given c.parentSearch with
  | some parent => addSubtask text parent s
  | none =>
    match completeSubtask (Text.lower text.toList) s.book.tasks with
    | (tasks, some id) =>
      return { say s ("Completed subtask " ++ inQuotes text) with
        book := some (s.book.withTasks tasks), affected := [id] }
    | (_, none) => return say s ("No matching subtask found for " ++ inQuotes text)

def listProjects (s : Setting) : Effect :=
  let projects := s.book.projects
  let message :=
    if projects.isEmpty then "No projects yet" else "Projects: " ++ ", ".intercalate projects
  { say s message with projects := some projects }

def createProject (c : Command) (s : Setting) : Effect :=
  match c.projectName with
  | none => listProjects s
  | some name =>
    if s.book.projects.contains name then say s ("Project " ++ inQuotes name ++ " already exists")
    else
      { say s ("Created project: " ++ name) with
        book := some { s.book with projects := s.book.projects ++ [name] } }

def sortLabels : List (String × String) :=
  [("priority", "priority"), ("dueDate", "due date"), ("createdAt", "creation date"),
    ("alphabetical", "name")]

def sort (c : Command) (s : Setting) : Effect :=
  let criteria := (given c.sortCriteria).getD "createdAt"
  { say s ("Sorting tasks by " ++ (sortLabels.lookup criteria).getD criteria) with
    preferences := { s.preferences with sortBy := criteria } }

def calendar (s : Setting) : Effect :=
  let shown := !s.preferences.calendar
  { say s (if shown then "Showing calendar" else "Hiding calendar") with
    preferences := { s.preferences with calendar := shown } }

def theme (dark : Bool) (s : Setting) : Effect :=
  { say s ("Switched to " ++ (if dark then "dark" else "light") ++ " mode") with
    preferences := { s.preferences with dark } }

def periodLabel : Period → String
  | .today => "Today"
  | .tomorrow => "Tomorrow"
  | .week => "This week"

def summaryText (s : Summary) : String :=
  periodLabel s.period ++ ": " ++
    if s.total = 0 then "no tasks scheduled"
    else taskCount s.total ++ ", " ++ Text.showNat s.completed ++ " completed, " ++
      Text.showNat s.highPriority.length ++ " high priority, about " ++ Text.showInt (s.minutes / 60) ++
      "h " ++ Text.showInt (s.minutes % 60) ++ "m of work"

def summarize (c : Command) (s : Setting) : Except Fault Effect := do
  let summary ← Summary.ofTasks s.book.tasks (c.period.getD .today) true s.now
  return { say s (summaryText summary) with summary := some summary }

def unknown (c : Command) (s : Setting) : Effect :=
  say s ("Sorry, I didn't understand " ++ inQuotes (c.taskText.getD ""))

def effect (c : Command) (s : Setting) : Fresh Effect :=
  match c.kind with
  | .add => c.add s
  | .tick => c.tick s
  | .delete => c.delete s
  | .archive => c.archive s
  | .tag => c.retag s
  | .filter => return c.filter s
  | .priority => c.prioritize s
  | .due => c.schedule s
  | .snooze => c.snooze s
  | .repeat => c.recur s
  | .remind => c.remind s
  | .subtask => c.subtask s
  | .project => return c.createProject s
  | .sort => return c.sort s
  | .calendar => return calendar s
  | .dark => return theme true s
  | .light => return theme false s
  | .summarize => (c.summarize s : Except Fault Effect)
  | .help => return say s helpText
  | .unknown => return c.unknown s

end Command

end Agenda
