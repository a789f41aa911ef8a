import Agenda.Extract.Generative
import Agenda.Proofs.Service.Crash
import Agenda.Proofs.When.Reading

/-! # What gets past the generative tier

The tier gives a result for a service that fails and for an answer that makes no sense. Three things
in an answer end the asker instead: a whole number too long to be read, a due phrase that leads out
of the calendar, and a due date so early that its reminder would come before the calendar begins.
-/

namespace Agenda

namespace Extract

variable {service : Service} {text raw : List Char} {now : Moment} {g : GeneratedTask} {due : Option Moment}

/-! ## From the generated task to the task -/

/-- The answer holds an object whose task has a title left. -/
def Yields (raw : List Char) (g : GeneratedTask) : Prop :=
  ∃ es, Repair.extractObject raw = .ok (some es) ∧ GeneratedTask.decode (.object es) = .ok g ∧
    generatedTitle g.title ≠ []

section

variable (hLocal : now.isLocal = true) (hNow : When.Inland now)
include hLocal hNow

end

/-! ## From the service to the result -/

end Extract

end Agenda
