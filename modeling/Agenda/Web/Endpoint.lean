import Agenda.Desk.Remind
import Agenda.Desk.Submit
import Agenda.Desk.View
import Agenda.Task.Basic
import Agenda.Web.Fields

/-! # Endpoints

Each path leads to an endpoint, and each endpoint answers to its methods. A path that ends in
slashes leads where it leads without them. Work that fails is answered by a status: an unknown
task by 404, a refused command by 400, and anything else by 500; what the work had committed
stays.
-/

namespace Agenda.Web

open Value Desk OnDesk

/-! ## Bodies of responses -/

def taskData (t : Task) : Value :=
  t.data.toJson

def momentData (m : Moment) : Value :=
  .str (String.ofList m.text)

def idsData (ts : List Task) : Value :=
  .list (ts.map fun t => .str t.id)

def coloredTask (t : Task) : Value :=
  .object ((t.fields ++ [("done", .bool t.done),
    ("colors", .list (t.tags.map fun tag => .str (tagColor (tag.getD ""))))]) |> Value.toJsonEntries)

def conflictData (c : Window.Conflict) : Value :=
  .object [("conflicting", idsData c.tasks), ("suggested_time", momentData c.suggested)]

def submissionData (s : Submission) : Value :=
  .object <|
    [("message", .str s.message), ("route", .str s.route.name),
      ("command", (s.command.map fun c => c.data.toJson).getD .null),
      ("affected", .list (s.affected.map .str)), ("tasks", .list (s.tasks.map taskData)),
      ("preferences", s.preferences.data)] ++
    ((s.effect.bind (·.conflict)).map fun c => ("conflict", conflictData c)).toList

def conflictReport (c : Option Window.Conflict) : Value :=
  .object [("has_conflict", .bool c.isSome),
    ("conflicting_tasks", .list ((c.map fun c => c.tasks.map taskData).getD [])),
    ("suggested_time", (c.map fun c => momentData c.suggested).getD .null)]

def cellData (c : Option DayCell) : Value :=
  match c with
  | none => .null
  | some c => .object [("date", .str (String.ofList c.day.text)), ("tasks", .list (c.tasks.map taskData))]

def habitData (h : Habit) : Value :=
  .object [("task", taskData h.task), ("pattern", .str h.rhythm.name)]

/-! ## Endpoints -/

inductive Endpoint where
  | commands
  | tasks
  | task (id : String)
  | toggle (id : String)
  | conflicts (id : String)
  | suggestedTime (id : String)
  | calendar (year month : String)
  | assistant
  | health
  | metrics
  | reminders
  | description
deriving DecidableEq, Repr

def Endpoint.ofSteps? : List String → Option Endpoint
  | ["commands"] => some commands
  | ["tasks"] => some tasks
  | ["tasks", id] => if id = "" then none else some (task id)
  | ["tasks", id, what] =>
    if id = "" then none
    else if what = "toggle" then some (toggle id)
    else if what = "conflicts" then some (conflicts id)
    else if what = "suggested-time" then some (suggestedTime id)
    else none
  | ["calendar", year, month] => if year = "" ∨ month = "" then none else some (calendar year month)
  | ["assistant"] => some assistant
  | ["health"] => some health
  | ["metrics"] => some metrics
  | ["reminders", "check"] => some reminders
  | ["docs"] | ["docs", "oauth2-redirect"] | ["redoc"] | ["openapi.json"] => some description
  | _ => none

/-- The endpoint of a path; a newline that ends it counts only as part of an identity or a number. -/
def Endpoint.ofLine? (path : List Char) : Option Endpoint :=
  ofSteps? (steps path) <|> if path.getLast? == some '\n' then ofSteps? (steps path.dropLast) else none

def Endpoint.ofPath? (path : String) : Option Endpoint :=
  ofLine? path.toList <|> ofLine? (Text.dropTail (· == '/') path.toList)

/-! ## Handlers -/

/-- What stands around a request. -/
structure Occasion where
  means : Means
  now : Moment
  tick : Double

/-- Work after decoding, which may already refuse the request. -/
def after {α : Type} (decoded : Except Response α) (work : α → OnDesk Response) : OnDesk Response :=
  match decoded with
  | .ok a => work a
  | .error r => pure r

def countRequest (result : String) : OnDesk Unit :=
  count fun c => { c with requests := c.requests.bump ("/commands", result) }

def postCommand (o : Occasion) (r : Request) : OnDesk Response :=
  after (decodeBody (textField "text") r) fun text =>
    tryCatch (do
      let s ← submit o.means text o.now
      countRequest s.route.name
      return .json (submissionData s))
    fun
      | .invalidCommand reason => do
        countRequest "invalid"
        return .refused 400 reason
      | f => throw f

def sortNames : String :=
  ", ".intercalate (SortBy.all.map SortBy.name)

def getTasks (r : Request) : OnDesk Response := do
  match (listQuery r).under "query" with
  | .bad errors => return .invalid errors
  | .ok q =>
    if q.sort.any fun s => (SortBy.ofName? s).isNone then
      return .refused 400 ("sort must be one of " ++ sortNames)
    let ts ← list { tag := q.tag, project := q.project, includeArchived := q.includeArchived } q.sort
    return .json (.object [("tasks", .list (ts.map coloredTask)), ("total", .int ts.length),
      ("projects", .list ((← get).book.projects.map .str))])

def withTask (work : OnDesk Task) : OnDesk Response := do
  return .json (.object [("task", taskData (← work))])

def patchTask (o : Occasion) (id : String) (r : Request) : OnDesk Response :=
  after (decodeBody updateFields r) fun fields => withTask (update id fields o.now)

def deleteTask (id : String) : OnDesk Response := do
  delete id
  return .json (.object [("status", .str "deleted"), ("id", .str id)])

def batch (r : Request) (status key : String) (work : List String → OnDesk Nat) : OnDesk Response :=
  after (decodeBody idsField r) fun ids => do
    return .json (.object [("status", .str status), (key, .int (← work ids))])

def getHabits : OnDesk Response := do
  return .json (.object [("suggestions", .list ((← habits).map habitData))])

/-- The methods of a task's own path; some names in its place stand for work on many tasks. -/
def taskEndpoint (o : Occasion) (id : String) (r : Request) : OnDesk Response :=
  if r.method = "PATCH" then patchTask o id r
  else if r.method = "DELETE" then deleteTask id
  else if r.method = "POST" ∧ id = "batch-delete" then batch r "deleted" "deleted" deleteAll
  else if r.method = "POST" ∧ id = "batch-complete" then batch r "completed" "updated" (completeAll · o.now)
  else if r.method = "POST" ∧ id = "batch-archive" then batch r "archived" "updated" (archiveAll · o.now)
  else if r.method = "GET" ∧ id = "recurring-suggestions" then getHabits
  else return methodNotAllowed

def getSuggestedTime (o : Occasion) (id : String) : OnDesk Response := do
  let m ← suggestTime id o.now
  return .json (.object [("id", .str id), ("suggested_time", momentData m)])

def getCalendar (year month : String) : OnDesk Response := do
  match (monthSteps year month).under "path" with
  | .bad errors => return .invalid errors
  | .ok (year, month) =>
    let weeks ← calendar year month
    return .json (.object [("year", .int year), ("month", .int month),
      ("weeks", .list (weeks.map fun w => .list (w.map cellData)))])

def postQuestion (o : Occasion) (r : Request) : OnDesk Response :=
  after (decodeBody (textField "question") r) fun question => do
    let a ← ask question o.now
    return .json (.object [("kind", .str a.topic.name), ("answer", .str a.text)])

def getHealth (o : Occasion) : OnDesk Response := do
  let book := (← get).book
  return .json (.object [("status", .str "healthy"), ("profile", .str "unknown"),
    ("llm_provider", .str o.means.serviceName), ("store_version", .int book.version),
    ("tasks", .int book.tasks.length)])

def getMetrics : OnDesk Response := do
  let lines := (← get).counters.readings.map Reading.line
  return .json (.list ((lines.mergeSort fun a b => a ≤ b).map .str))

def postCheck (o : Occasion) : OnDesk Response := do
  let fired ← checkReminders o.means o.now o.tick true
  return .json (.object [("fired", .list (fired.map fun t =>
    .object [("id", .str t.id), ("title", .str t.title)]))])

def Endpoint.handle (o : Occasion) (r : Request) (e : Endpoint) : OnDesk Response :=
  let only (method : String) (work : OnDesk Response) : OnDesk Response :=
    if r.method = method then work else return methodNotAllowed
  match e with
  | .commands => only "POST" (postCommand o r)
  | .tasks => only "GET" (getTasks r)
  | .task id => taskEndpoint o id r
  | .toggle id => only "POST" (withTask (Desk.toggle id o.now))
  | .conflicts id => only "GET" do return .json (conflictReport (← Desk.conflicts id))
  | .suggestedTime id => only "GET" (getSuggestedTime o id)
  | .calendar year month => only "GET" (getCalendar year month)
  | .assistant => only "POST" (postQuestion o r)
  | .health => only "GET" (getHealth o)
  | .metrics => only "GET" getMetrics
  | .reminders => only "POST" (postCheck o)
  | .description => if r.method = "HEAD" then return .page else only "GET" (return .page)

/-- The response to work that failed. -/
def Response.ofFault : Fault → Response
  | .unknownTask _ => taskNotFound
  | .invalidCommand reason => .refused 400 reason
  | _ => .failed

/-- The response to a request; there always is one. -/
def respond (o : Occasion) (r : Request) : OnDesk Response :=
  match Endpoint.ofPath? r.path with
  | none => return notFound
  | some e => tryCatch (e.handle o r) fun f => return .ofFault f

end Agenda.Web
