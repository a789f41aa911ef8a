import Agenda.Intent.Route
import Agenda.Proofs.Command.Zone
import Agenda.Proofs.Extract.Tier
import Agenda.Proofs.When.Zone

/-! # Times in extracted tasks

Whatever the service answers, only phrases that are read at a local time give a task its due date,
and its reminder is reckoned from that. Intents name no times at all.
-/

namespace Agenda

namespace ParsedTask

/-- The times of a parsed task have no offset. -/
structure Local (t : ParsedTask) : Prop where
  due : ∀ m, t.due = some m → m.isLocal = true
  reminder : ∀ m, t.reminder = some m → m.isLocal = true

theorem local_command {t : ParsedTask} (h : t.Local) : t.command.Local :=
  ⟨h.due, h.reminder⟩

end ParsedTask

namespace Extract

variable {now : Moment} {text : List Char} {title : List Char} {due : Moment} {t : ParsedTask} {service : Service}

theorem isLocal_reminderFor {due reminder : Option Moment} (hDue : ∀ m, due = some m → m.isLocal = true)
    (h : reminderFor text due = .ok reminder) : ∀ m, reminder = some m → m.isLocal = true := by
  rintro m rfl
  unfold reminderFor at h
  split at h
  · rename_i due
    split at h
    · obtain ⟨_, hLead, hSome⟩ := Attempt.map_eq_ok.mp h
      cases hSome
      exact (Moment.isLocal_plus hLead).trans (hDue due rfl)
    · cases h
  · cases h

variable (hNow : now.isLocal = true)

include hNow

theorem ReadAt.isLocal (h : ReadAt now due) : due.isLocal = true := by
  cases h with
  | parsed h => exact When.isLocal_parse hNow h
  | found h hDue =>
    rw [← hDue]
    exact When.isLocal_search hNow h

theorem Made.local (h : Made text now t) : t.Local := by
  have hLocal {due reminder : Option Moment} (hDue : ∀ m, due = some m → ReadAt now m)
      (hReminder : reminderFor text due = .ok reminder) :
      (∀ m, due = some m → m.isLocal = true) ∧ ∀ m, reminder = some m → m.isLocal = true := by
    have hDue : ∀ m, due = some m → m.isLocal = true := fun m hm => (hDue m hm).isLocal hNow
    exact ⟨hDue, isLocal_reminderFor hDue hReminder⟩
  cases h with
  | generated g h =>
    obtain ⟨hDue, hReminder⟩ := hLocal h.due h.reminder
    exact ⟨hDue, hReminder⟩
  | patterned h =>
    obtain ⟨hDue, hReminder⟩ := hLocal h.due h.reminder
    exact ⟨hDue, hReminder⟩
  | raw h =>
    subst h
    exact ⟨by simp [rawTask], by simp [rawTask]⟩

theorem gives_pipeline : (pipeline service text now).Gives fun r => ∀ t, r.task = some t → t.Local :=
  Asking.gives_mono gives_pipeline_made fun _ h t ht => (h t ht).local hNow

end Extract

/-! ## Intents -/

namespace Intent

theorem local_draft {i : Intent} {c : Command} (h : i.draft = some c) : c.Local := by
  unfold draft at h
  extract_lets confidence at h
  split at h
  · obtain ⟨_, _, rfl⟩ := Option.map_eq_some_iff.mp h
    exact Command.local_of_untimed rfl rfl
  split at h
  · obtain ⟨_, _, rfl⟩ := Option.map_eq_some_iff.mp h
    exact Command.local_of_untimed rfl rfl
  split at h
  · obtain ⟨_, _, h⟩ := Option.bind_eq_some_iff.mp h
    obtain ⟨_, _, h⟩ := Option.bind_eq_some_iff.mp h
    cases h
    exact Command.local_of_untimed rfl rfl
  split at h
  · obtain ⟨_, _, h⟩ := Option.bind_eq_some_iff.mp h
    obtain ⟨_, _, h⟩ := Option.bind_eq_some_iff.mp h
    cases h
    exact Command.local_of_untimed rfl rfl
  split at h
  · obtain ⟨_, _, rfl⟩ := Option.map_eq_some_iff.mp h
    exact Command.local_of_untimed rfl rfl
  split at h
  · cases h
    exact Command.local_of_untimed rfl rfl
  · cases h

theorem gives_route (service : Service) (threshold : Double) (text : String) :
    (route service threshold text).Gives fun found => ∀ c, found = some c → c.Local := by
  unfold route
  refine Asking.gives_bind (Asking.gives_any _) fun intent _ => ?_
  split
  · exact Asking.gives_pure (by simp)
  · rename_i intent
    split
    · exact Asking.gives_pure (by simp)
    · refine Asking.gives_lift ?_
      rintro _ hCommand c rfl
      unfold toCommand at hCommand
      split at hCommand
      · cases hCommand
      · rename_i hDraft
        split at hCommand <;> cases hCommand
        exact local_draft hDraft

end Intent

end Agenda
