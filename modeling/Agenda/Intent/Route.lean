import Agenda.Service.Basic
import Agenda.Text.Blank
import Agenda.Text.Case
import Agenda.Intent.Arguments

/-! # Intents and tags from a service

A service sorts the line under a label; patterns then find the arguments. An answer outside the
known labels is no intent, and an unsure one gives no command. The tag of a task without one is
sorted out in the same way.
-/

namespace Agenda.Intent

/-- Answers that are less sure than this are not acted on. -/
def threshold : Double :=
  .ofQuotient false 3 5

/-- The intent that a classification of a text stands for. -/
def ofClassification (c : Classification) (text : List Char) : Option Intent :=
  if labels.contains c.label then some { ofText c.label text with confidence := c.confidence } else none

def classify (service : Service) (text : String) : Asking (Option Intent) := do
  return (← service.sort text examples).bind fun c => ofClassification c text.toList

def route (service : Service) (threshold : Double) (text : String) : Asking (Option Command) := do
  match ← classify service text with
  | none => return none
  | some intent =>
    if intent.confidence.lt threshold then return none
    else (intent.toCommand : Except Fault (Option Command))

end Agenda.Intent

/-! ## A tag for a task without one -/

namespace Agenda.Tagger

def defaultTag : String := "general"

def examples : List Example :=
  [⟨"Buy groceries", "errand"⟩, ⟨"Write report", "work"⟩, ⟨"Do push-ups", "fitness"⟩,
    ⟨"Read Quran", "spiritual"⟩]

def tagOf : Option Classification → String
  | some c => if c.label = "" then defaultTag else String.ofList (Text.lower (Text.trim c.label.toList))
  | none => defaultTag

def classify (service : Service) (title : String) : Asking String := do
  return tagOf (← service.sort title examples)

end Agenda.Tagger
