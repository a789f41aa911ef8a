import Agenda.Text.Bytes
import Agenda.Text.Numeral
import Agenda.Value.Decode
import Agenda.Value.Read

/-! # Requests and responses

A request names a path and may carry query values and a body. A response holds JSON or a page,
refuses the request with a reason, lists the places where the request breaks a rule, or reports
that the work failed.
-/

namespace Agenda.Web

structure Request where
  method : String
  path : String
  /-- Query values by name; of a repeated name the last counts. -/
  query : List (String × String) := []
  body : List Char := []

inductive Response where
  | json (body : Value)
  | page
  | refused (status : Nat) (reason : String)
  | invalid (errors : List Location)
  | failed

namespace Response

def status : Response → Nat
  | json _ | page => 200
  | refused status _ => status
  | invalid _ => 422
  | failed => 500

end Response

def notFound : Response :=
  .refused 404 "Not Found"

def methodNotAllowed : Response :=
  .refused 405 "Method Not Allowed"

def taskNotFound : Response :=
  .refused 404 "Task not found"

/-! ## Reading a request -/

def steps (path : List Char) : List String :=
  ((path.drop 1).splitOnP (· == '/')).map String.ofList

def unreadableBody : Response :=
  .refused 400 "There was an error parsing the body"

/-- A JSON body; an empty one or null is missing. -/
def readBody (r : Request) : Except Response (Option Value) :=
  if r.body.isEmpty then .ok none
  else match (Text.ofBody? r.body).map Value.ofJson with
    | some (.ok .null) => .ok none
    | some (.ok v) => .ok (some v)
    | some (.error (.notJson position)) => .error (.invalid [["body", Text.showNat position]])
    | some (.error .numeralTooLong) | none => .error unreadableBody

/-- A body decoded into its type. -/
def decodeBody {α : Type} (decode : Entries → Decoded α) (r : Request) : Except Response α := do
  match ← readBody r with
  | none => .error (.invalid [["body"]])
  | some v => match (Value.decodeEntries decode v).under "body" with
    | .ok a => .ok a
    | .bad errors => .error (.invalid errors)

end Agenda.Web
