import Agenda.Address.Basic
import Agenda.Web.Basic

/-! # Targets of requests

A request names its target by an address or by a path below the root, with a query or without one.
The path is freed of its escapes twice, by the side that asks and by the side that answers.
-/

namespace Agenda.Web

/-- A name or a value in a query; a plus sign stands for a space. -/
def queryWord (cs : List Char) : String :=
  String.ofList (Address.unescape (cs.map fun c => if c == '+' then ' ' else c))

def queryValues (cs : List Char) : List (String × String) :=
  ((cs.splitOnP (· == '&')).filter (!·.isEmpty)).map fun part =>
    let (name, value) := Address.cut (· == '=') part
    (queryWord name, queryWord (value.drop 1))

/-- The request for a target. A query given apart takes the place of the one in the target. -/
def Request.ofTarget (method target : String) (query : Option (List (String × String)))
    (body : List Char) : Except Fault Request :=
  match Address.ofText? target.toList with
  | none => .error .noAddress
  | some address =>
    let path := if address.relative then Address.direct address.rooted.path else address.path
    .ok
      { method, body
        path := String.ofList (Address.unescape (Address.unescape path))
        query := query.getD (queryValues (address.query.getD [])) }

end Agenda.Web
