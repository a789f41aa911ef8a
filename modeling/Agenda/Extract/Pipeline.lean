import Agenda.Extract.Generative
import Agenda.Extract.Heuristic

/-! # The tiers of extraction

The language service comes first; where it fails, patterns take over. A text that is no task ends
the run without a task.
-/

namespace Agenda.Extract

structure PipelineRun where
  task : Option ParsedTask
  results : List TierResult
deriving DecidableEq

namespace PipelineRun

def notATask (r : PipelineRun) : Bool :=
  r.results.any (·.isNotATask)

end PipelineRun

def pipeline (service : Service) (text : List Char) (now : Moment) : Asking PipelineRun := do
  let text := Text.trim text
  if text.isEmpty then return ⟨none, []⟩
  let first ← generative service text now
  match first.outcome with
  | .ok task => return ⟨some task, [first]⟩
  | .notATask _ => return ⟨none, [first]⟩
  | .failed _ =>
    let fallback := heuristic text now
    return ⟨fallback.task?, [first, fallback]⟩

end Agenda.Extract
