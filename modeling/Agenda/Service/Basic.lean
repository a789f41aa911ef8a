import Agenda.Value.Decode
import Agenda.Value.Print
import Agenda.Task.Basic

/-! # Language services

A service answers two kinds of questions: it continues a prompt with text, and it sorts a text
under one of the labels that examples show. A client asks each question once and counts what it
asks; the failures that a remote service may have give no answer, all others end the caller.
-/

namespace Agenda

structure Example where
  text : String
  label : String
deriving DecidableEq

structure Classification where
  label : String
  confidence : Double
deriving DecidableEq

structure Service where
  generate : (system user : String) → Except Fault Value
  classify : (text : String) → (examples : List Example) → Except Fault Classification

namespace Classification

/-- A label with a confidence between 0 and 1. -/
def decode (label confidence : Value) : Decoded Classification :=
  Decoded.ok Classification.mk
    |>.and ((Value.decodeStr label).under "label")
    |>.and ((Value.decodeConfidence confidence).under "confidence")

def data (c : Classification) : Value :=
  .object [("label", .str c.label), ("confidence", .num c.confidence)]

end Classification

/-- A computation that asks questions and counts them. -/
abbrev Asking (α : Type) := ExceptT Fault (StateM Nat) α

namespace Asking

/-- Asks one question; a remote failure gives no answer. -/
def attempt {α : Type} (answer : Except Fault α) : Asking (Option α) := do
  modify (· + 1)
  match answer with
  | .ok a => return some a
  | .error f => if f.isRemote then return none else throw f

/-- The result, and how many questions were asked. -/
def result {α : Type} (x : Asking α) : Except Fault α × Nat :=
  x.run.run 0

end Asking

namespace Service

def ask (s : Service) (system user : String) : Asking (Option Value) :=
  Asking.attempt (s.generate system user)

def sort (s : Service) (text : String) (examples : List Example) : Asking (Option Classification) :=
  Asking.attempt (s.classify text examples)

end Service

/-! ## Generated tasks

The object that a service makes of a text. Whatever the fields hold is brought to the types that
a task has; nothing but an object is refused.
-/

structure GeneratedTask where
  title : String := ""
  due : Option String := none
  tags : List String := []
  priority : Option Priority := none
deriving DecidableEq

namespace GeneratedTask

def titleOf : Value → String
  | .null => ""
  | v => v.shown

def dueOf : Value → Option String
  | .null => none
  | .str s => if s = "" ∨ s = "null" then none else some s
  | v => some v.shown

def tagsOf : Value → List String
  | .str s => if s = "" then [] else [s]
  | .list vs => vs.filterMap fun v => match v with
    | .null => none
    | v => some v.shown
  | _ => []

def priorityNamed? : Value → Option Priority
  | .str s => Priority.ofName? s
  | _ => none

def priorityOf : Value → Option Priority
  | .list vs => vs.findSome? priorityNamed?
  | v => priorityNamed? v

def decode : Value → Decoded GeneratedTask
  | .object es => .ok
    { title := titleOf (Entries.at? es "title"), due := dueOf (Entries.at? es "due")
      tags := tagsOf (Entries.at? es "tags"), priority := priorityOf (Entries.at? es "priority") }
  | _ => .fail

def data (t : GeneratedTask) : Value :=
  .object [("title", .str t.title), ("due", .ofStr? t.due), ("tags", .list (t.tags.map .str)),
    ("priority", .ofStr? (t.priority.map Priority.name))]

end GeneratedTask

end Agenda
