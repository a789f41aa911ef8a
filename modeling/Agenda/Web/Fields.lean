import Agenda.Task.Data
import Agenda.Web.Basic

/-! # The bodies and query values of requests

What a request carries is decoded before any work is done. An update of a task names only the
fields that are to change; their values are checked for their kinds here and for the rules of a
task later.
-/

namespace Agenda.Web

open Value

def textField (key : String) (es : Entries) : Decoded String :=
  required es key decodeStr

def idsField (es : Entries) : Decoded (List String) :=
  required es "ids" (decodeList decodeStr)

def optionalText : Value → Decoded Value :=
  fun v => (decodeOption decodeStr v).map .ofStr?

def optionalMoment : Value → Decoded Value :=
  fun v => (decodeOption decodeMoment v).map .ofMoment?

def optionalTags : Value → Decoded Value :=
  fun v => (decodeOption (decodeList decodeStr) v).map fun ts =>
    (ts.map fun ts => Value.list (ts.map .str)).getD .null

def optionalPriority : Value → Decoded Value :=
  fun v => (decodeOption (decodeName Priority.ofName?) v).map fun p => .ofStr? (p.map Priority.name)

def optionalInt : Value → Decoded Value :=
  fun v => (decodeOption decodeInt v).map fun n => (n.map Value.int).getD .null

def optionalRule : Value → Decoded Value :=
  fun v => (decodeOption (decodeEntries Recurrence.decode) v).map fun r => (r.map Recurrence.data).getD .null

/-- The fields of a task that an update may change, with their kinds. -/
def updateKinds : List (String × (Value → Decoded Value)) :=
  [("title", optionalText), ("notes", optionalText), ("tags", optionalTags),
    ("priority", optionalPriority), ("project", optionalText), ("due_date", optionalMoment),
    ("start_time", optionalMoment), ("estimated_duration_min", optionalInt), ("recurring", optionalRule)]

/-- The fields that a body names, each of its kind; others are left out. -/
def updateFields (es : Entries) : Decoded Entries :=
  Decoded.all (updateKinds.filterMap fun (key, decode) =>
    (es.get? key).map fun v => ((decode v).map fun v => (key, v)).under key)

/-- What a list of tasks is asked for. -/
structure ListQuery where
  tag : Option String
  project : Option String
  sort : Option String
  includeArchived : Bool

def Request.value (r : Request) (name : String) : Option String :=
  r.query.reverse.lookup name

def listQuery (r : Request) : Decoded ListQuery :=
  let archived : Decoded Bool := match r.value "include_archived" with
    | some s => (decodeBool (.str s)).under "include_archived"
    | none => .ok false
  archived.map fun includeArchived =>
    { tag := r.value "tag", project := r.value "project", sort := r.value "sort", includeArchived }

/-- A year and a month in a path. -/
def monthSteps (year month : String) : Decoded (Int × Int) :=
  Decoded.ok Prod.mk
    |>.and ((decodeInt (.str year)).under "year")
    |>.and ((decodeInt (.str month)).under "month")

end Agenda.Web
