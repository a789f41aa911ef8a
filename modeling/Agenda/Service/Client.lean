import Agenda.Service.Basic
import Agenda.Service.Repair

/-! # Objects from a service

An answer that should hold an object is repaired before it is given up. An answer that is no text
cannot be searched: only null and the empty list pass for an answer without an object.
-/

namespace Agenda

/-- The object in an answer. A list or an object that holds a lone opening brace is taken for a text
that lacks its closing one, and then has no text's operations. -/
def objectIn : Value → Except Fault (Option Entries)
  | .str s => Repair.extractObject s.toList
  | .null | .list [] => .ok none
  | .list items => unsearchable (holds "\x7b" items && !holds "\x7d" items)
  | .object es => unsearchable (Entries.has es "\x7b" && !Entries.has es "\x7d")
  | _ => unsearchable false
where
  holds (s : String) (items : List Value) : Bool := items.any ((Value.str s).same ·)
  unsearchable (opened : Bool) : Except Fault (Option Entries) :=
    .error (if opened then .noSuchOperation else .wrongKind)

namespace Service

def askObject (s : Service) (system user : String) : Asking (Option Entries) := do
  match ← s.ask system user with
  | none => return none
  | some answer => (objectIn answer : Except Fault (Option Entries))

end Service

end Agenda
