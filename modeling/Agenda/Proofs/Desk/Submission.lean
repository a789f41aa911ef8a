import Agenda.Desk.Submit
import Agenda.Proofs.Desk.Work

/-! # What becomes of a line

A line is read by one of three readers, or by none; a command that is found is given a tag if it needs
one, and is carried out. Everything that can happen to a line on the way is listed here.
-/

namespace Agenda.Desk

open OnDesk

variable {m : Means} {text : String} {now : Moment} {d d' : Desk} {c : Command} {route : Route}
  {found : Option Command} {r : Except Fault Submission} {s : Submission} {p : Preferences}

/-! ## Reading -/

/-- What is found in a line, and the reader that finds it. -/
inductive Found (m : Means) (text : String) (now : Moment) : Option Command → Route → Prop
  | rule {c : Command} (hParse : Command.parse text.toList now = .ok c) (hKnown : c.kind ≠ .unknown) :
      Found m text now (some c) .rule
  | intent {c : Command} (hRoute : (Intent.route m.service m.threshold text).result.1 = .ok (some c)) :
      Found m text now (some c) .intent
  | extraction {run : Extract.PipelineRun} {task : ParsedTask}
      (hRun : (Extract.pipeline m.service text.toList now).result.1 = .ok run) (hTask : run.task = some task) :
      Found m text now (some task.command) .extraction
  | nothing {run : Extract.PipelineRun} (hRun : (Extract.pipeline m.service text.toList now).result.1 = .ok run)
      (hTask : run.task = none) : Found m text now none (if run.notATask then .notATask else .nothing)

theorem found_of_resolve (h : (resolve m text now).after d = (.ok (found, route), d')) : Found m text now found route := by
  rcases after_bind_eq.mp h with ⟨_, _, ⟨⟩⟩ | ⟨parsed, d₁, hParse, h⟩
  have hParsed : Command.parse text.toList now = .ok parsed := (Prod.mk.inj hParse).1
  split at h
  · rcases after_bind_eq.mp h with ⟨_, _, ⟨⟩⟩ | ⟨routed, d₂, hRouted, h⟩
    cases routed with
    | some c =>
      cases h
      exact .intent (result_of_asking hRouted)
    | none =>
      rcases after_bind_eq.mp h with ⟨_, _, ⟨⟩⟩ | ⟨run, d₃, hRun, h⟩
      rcases after_bind_eq.mp h with ⟨_, _, ⟨⟩⟩ | ⟨_, d₄, _, h⟩
      split at h
      · rename_i task hTask
        cases h
        exact .extraction (result_of_asking hRun) hTask
      · rename_i hTask
        cases h
        exact .nothing (result_of_asking hRun) hTask
  · rename_i hKnown
    cases h
    exact .rule hParsed hKnown

/-! ## Carrying out -/

/-- What is said and counted of a command that was carried out. -/
def report (c : Command) (route : Route) (p : Preferences) (effect : Effect) : OnDesk Submission := do
  if effect.preferences ≠ p then savePreferences effect.preferences
  countCommand c.kind route
  return {
    command := some c
    route
    message := effect.message
    preferences := effect.preferences
    affected := effect.affected
    tasks := (← tasks).filter fun t => effect.affected.contains t.id
    effect := some effect }

/-- What is done with a command once it is found. -/
def conclude (c : Command) (route : Route) (p : Preferences) (now : Moment) : OnDesk Submission := do
  report c route p (← apply c p now)

/-- A report does not fail, and it leaves the book. -/
theorem exists_report (c : Command) (route : Route) (p : Preferences) (e : Effect) (d : Desk) :
    ∃ s d', (report c route p e).after d = (.ok s, d') ∧ s.route = route ∧ s.command = some c ∧
      d'.book = d.book ∧ d'.nextId = d.nextId := by
  unfold report
  dsimp only
  split
  · exact ⟨_, _, rfl, rfl, rfl, rfl, rfl⟩
  · exact ⟨_, _, rfl, rfl, rfl, rfl, rfl⟩

theorem said_of_conclude (h : (conclude c route p now).after d = (.ok s, d')) : s.route = route ∧ s.command = some c := by
  rcases after_bind_eq.mp h with ⟨_, _, ⟨⟩⟩ | ⟨e, d₁, _, h⟩
  obtain ⟨s', d₂, hReport, hRoute, hCommand, _⟩ := exists_report c route p e d₁
  cases hReport.symm.trans h
  exact ⟨hRoute, hCommand⟩

/-- What becomes of a submitted line. -/
inductive Submits (m : Means) (text : String) (now : Moment) (d : Desk) : Except Fault Submission → Desk → Prop
  | blank (hText : (Text.trim text.toList).isEmpty = true) :
      Submits m text now d (.error (.invalidCommand "empty input")) d
  | unread {f : Fault} {d' : Desk} (hResolve : (resolve m text now).after d = (.error f, d')) :
      Submits m text now d (.error f) d'
  | empty {route : Route} {d₁ d' : Desk} {s : Submission} (hResolve : (resolve m text now).after d = (.ok (none, route), d₁))
      (hRoute : s.route = route) (hCommand : s.command = none) (hQuiet : d₁.Quiet d') : Submits m text now d (.ok s) d'
  | untagged {c : Command} {route : Route} {f : Fault} {d₁ d' : Desk}
      (hResolve : (resolve m text now).after d = (.ok (some c, route), d₁))
      (hTagged : (tagged m c).after d₁ = (.error f, d')) : Submits m text now d (.error f) d'
  | concluded {c c' : Command} {route : Route} {d₁ d₂ d' : Desk} {r : Except Fault Submission}
      (hResolve : (resolve m text now).after d = (.ok (some c, route), d₁))
      (hTagged : (tagged m c).after d₁ = (.ok c', d₂))
      (hConclude : (conclude c' route (Preferences.load d₁.storage) now).after d₂ = (r, d')) : Submits m text now d r d'

theorem submits (h : (submit m text now).after d = (r, d')) : Submits m text now d r d' := by
  unfold submit at h
  split at h
  · rename_i hText
    cases h
    exact .blank hText
  dsimp only at h
  rcases after_bind_eq.mp h with ⟨f, hResolve, rfl⟩ | ⟨⟨found, route⟩, d₁, hResolve, h⟩
  · exact .unread hResolve
  rcases after_bind_eq.mp h with ⟨_, ⟨⟩, _⟩ | ⟨_, _, ⟨⟩, h⟩
  cases found with
  | none =>
    cases h
    exact .empty hResolve rfl rfl ⟨rfl, rfl, rfl⟩
  | some c =>
    rcases after_bind_eq.mp h with ⟨f, hTagged, rfl⟩ | ⟨c', d₂, hTagged, h⟩
    · exact .untagged hResolve hTagged
    · exact .concluded hResolve hTagged h

end Agenda.Desk
