import Agenda.Intent.Route
import Agenda.Proofs.Extract.Tier

/-! # Guesses

A service sorts a line under a label. The answer is trusted if the label is a known one and the service
is sure enough of it, and it becomes a command if the line has the arguments of the label. Such a
command adds nothing, and it looks for one task if it looks for tasks at all.
-/

namespace Agenda

/-- A question that is answered is answered by the service. -/
theorem Asking.gives_attempt {α : Type} (answer : Except Fault α) :
    (attempt answer).Gives fun found => ∀ a, found = some a → answer = .ok a := by
  unfold attempt
  refine gives_bind (gives_any _) fun _ _ => ?_
  split
  · exact gives_pure fun a h => congrArg _ (Option.some.inj h)
  · split
    · exact gives_pure nofun
    · exact gives_throw

theorem Double.le_of_not_lt {x y : Double} (hX : x ≠ .nan) (hY : y ≠ .nan) (h : ¬ y.lt x = true) : x.le y = true := by
  unfold le
  split
  · exact absurd rfl hX
  · exact absurd rfl hY
  · simpa using h

/-- What a command can be that a service asks for. -/
structure Command.Guessed (c : Command) : Prop where
  kind : c.kind ∈ [.tick, .delete, .tag, .priority, .filter, .help]
  first : c.allMatches = false
  search : c.kind ∈ [.tick, .delete, .tag, .priority] → ∃ phrase, phrase ≠ "" ∧ c.search = some phrase

theorem Command.Guessed.kind_ne_add {c : Command} (h : c.Guessed) : c.kind ≠ .add := by
  intro hAdd
  have hKind := h.kind
  rw [hAdd] at hKind
  exact absurd hKind (by decide)

namespace Intent

variable {i : Intent} {c : Command} {service : Service} {threshold : Double} {text : String}

/-- The answer of a service that is acted on. A threshold that is not a number bounds nothing. -/
structure Trusted (service : Service) (threshold : Double) (text : String) (answer : Classification) : Prop where
  answered : service.classify text examples = .ok answer
  label : answer.label ∈ labels
  sure : threshold ≠ .nan → threshold.le answer.confidence = true

theorem guessed_of_search {searched : Option String} {phrase : String}
    (hKind : c.kind ∈ [.tick, .delete, .tag, .priority]) (hFirst : c.allMatches = false)
    (hGiven : given searched = some phrase) (hSearch : c.search = some phrase) : c.Guessed := by
  have hKinds : c.kind ∈ [CommandKind.tick, .delete, .tag, .priority] ++ [.filter, .help] :=
    List.mem_append_left _ hKind
  have hPhrase := (Option.filter_eq_some_iff.mp hGiven).2
  exact ⟨hKinds, hFirst, fun _ => ⟨phrase, bne_iff_ne.mp hPhrase, hSearch⟩⟩

theorem guessed_of_draft (h : i.draft = some c) : c.Guessed := by
  unfold draft at h
  extract_lets confidence at h
  split at h
  · obtain ⟨phrase, hGiven, rfl⟩ := Option.map_eq_some_iff.mp h
    exact guessed_of_search (by simp) rfl hGiven rfl
  split at h
  · obtain ⟨phrase, hGiven, rfl⟩ := Option.map_eq_some_iff.mp h
    exact guessed_of_search (by simp) rfl hGiven rfl
  split at h
  · obtain ⟨phrase, hGiven, h⟩ := Option.bind_eq_some_iff.mp h
    obtain ⟨_, _, h⟩ := Option.bind_eq_some_iff.mp h
    cases h
    exact guessed_of_search (by simp) rfl hGiven rfl
  split at h
  · obtain ⟨phrase, hGiven, h⟩ := Option.bind_eq_some_iff.mp h
    obtain ⟨_, _, h⟩ := Option.bind_eq_some_iff.mp h
    cases h
    exact guessed_of_search (by simp) rfl hGiven rfl
  split at h
  · obtain ⟨_, _, rfl⟩ := Option.map_eq_some_iff.mp h
    exact ⟨by simp, rfl, by simp⟩
  split at h
  · cases h
    exact ⟨by simp, rfl, by simp⟩
  · cases h

theorem gives_classify (service : Service) (text : String) : (classify service text).Gives fun found =>
    ∀ i, found = some i → ∃ answer, service.classify text examples = .ok answer ∧ answer.label ∈ labels ∧
      i.confidence = answer.confidence := by
  unfold classify Service.sort
  refine Asking.gives_bind (Asking.gives_attempt _) fun found hFound => Asking.gives_pure fun i h => ?_
  obtain ⟨answer, rfl, hIntent⟩ := Option.bind_eq_some_iff.mp h
  unfold ofClassification at hIntent
  split at hIntent
  · rename_i hLabel
    cases hIntent
    exact ⟨answer, hFound answer rfl, List.contains_iff_mem.mp hLabel, rfl⟩
  · cases hIntent

/-- An intent that becomes a command has a confidence that is a number. -/
theorem of_toCommand (h : i.toCommand = .ok (some c)) : i.draft = some c ∧ i.confidence ≠ .nan := by
  unfold toCommand at h
  split at h
  · cases h
  · rename_i hDraft
    split at h
    · rename_i hConfidence
      cases h
      refine ⟨hDraft, ?_⟩
      intro hNan
      rw [hNan] at hConfidence
      cases hConfidence
    · cases h

/-- A command that a service asks for is a guess, made on an answer that is trusted. -/
theorem gives_route_guessed (service : Service) (threshold : Double) (text : String) :
    (route service threshold text).Gives fun found =>
      ∀ c, found = some c → c.Guessed ∧ ∃ answer, Trusted service threshold text answer := by
  unfold route
  refine Asking.gives_bind (gives_classify service text) fun found hFound => ?_
  split
  · exact Asking.gives_pure (by simp)
  · rename_i i
    split
    · exact Asking.gives_pure (by simp)
    · rename_i hSure
      refine Asking.gives_lift ?_
      rintro _ hCommand c rfl
      obtain ⟨hDraft, hNumber⟩ := of_toCommand hCommand
      obtain ⟨answer, hAnswer, hLabel, hConfidence⟩ := hFound i rfl
      rw [hConfidence] at hSure hNumber
      exact ⟨guessed_of_draft hDraft, answer, hAnswer, hLabel, fun h => Double.le_of_not_lt h hNumber hSure⟩

end Intent

end Agenda
