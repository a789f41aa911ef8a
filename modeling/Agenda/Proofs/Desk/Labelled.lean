import Agenda.Proofs.Desk.Independence
import Agenda.Proofs.Text.Lower

/-! # The tag that a service gives

A task that is added without a tag gets the label that the service puts on its title, brought to the normal form
of a tag. Nothing compares the label with those of the examples. So the tag is a known one where the label is, in
some case and with blanks or signs around it, and a label of blanks or signs alone leaves the task without a tag.
-/

namespace Agenda

open Text

/-! ## Labels -/

/-- The normal form of a tag does not depend on the case of its letters and on blanks around it. -/
theorem normalTag_lower_trim (tag : String) : normalTag (String.ofList (lower (trim tag.toList))) = normalTag tag := by
  rw [normalTag, String.toList_ofList, trim_lower_trim, dropWhile_hash_lower, lower_lower]
  rfl

namespace Tagger

/-- The answer of a service to the question for a tag, if it gives one. -/
def answer (service : Service) (title : String) : Option Classification :=
  (service.classify title examples).toOption

/-- The label that is taken: the default one if there is no answer or an empty one. -/
def said : Option Classification → String
  | some c => if c.label = "" then defaultTag else c.label
  | none => defaultTag

/-- The labels of the examples, and the default tag. -/
def known : List String :=
  examples.map (·.label) ++ [defaultTag]

example : known = ["errand", "work", "fitness", "spiritual", "general"] :=
  rfl

theorem normalTag_tagOf (answer : Option Classification) : normalTag (tagOf answer) = normalTag (said answer) := by
  cases answer with
  | none => rfl
  | some c =>
    rw [tagOf, said]
    split
    · rfl
    · exact normalTag_lower_trim c.label

theorem tagOf_of_result {service : Service} {title tag : String} (h : (classify service title).result.1 = .ok tag) :
    tag = tagOf (answer service title) := by
  unfold classify Service.sort at h
  unfold answer
  cases hSort : service.classify title examples with
  | ok answer =>
    rw [hSort] at h
    cases h
    rfl
  | error f =>
    rw [hSort] at h
    cases hRemote : f.isRemote with
    | true =>
      rw [Asking.attempt_remote hRemote] at h
      cases h
      rfl
    | false =>
      rw [Asking.attempt_crash hRemote] at h
      cases h

end Tagger

/-! ## New tasks -/

theorem normalTags_singleton (tag : String) :
    normalTags [tag] = if normalTag tag = "" then [] else [normalTag tag] := by
  simp [normalTags]

theorem normalTags_given {tag name : String} (h : normalTag tag = normalTag name) :
    normalTags (given (some tag)).toList = normalTags [name] := by
  have hSame : normalTags [tag] = normalTags [name] := by
    rw [normalTags_singleton, normalTags_singleton, h]
  rw [← hSame]
  by_cases hEmpty : tag = ""
  · subst hEmpty
    rfl
  · have hGiven : given (some tag) = some tag := by simp [given, hEmpty]
    rw [hGiven]
    rfl

/-- A label gives a known tag if its normal form is one. -/
theorem Tagger.exists_known_iff (name : String) :
    (∃ tag ∈ known, (normalTags [name]).map some = [some tag]) ↔ normalTag name ∈ known := by
  rw [normalTags_singleton]
  split
  · rename_i hNone
    rw [hNone]
    exact iff_of_false (by simp) (by decide)
  · simp

namespace Command

variable {c : Command} {now : Moment} {n k : Nat} {t : Task}

theorem tags_of_newTask (h : c.newTask now n = .ok (t, k)) :
    t.tags = (normalTags ((given c.tag).toList ++ c.tags)).map some := by
  have hSame := h.symm.trans (newTask_withTag c.tag h)
  exact congrArg (fun made => made.1.tags) (Except.ok.inj hSame)

end Command

namespace Desk

open OnDesk

variable {m : Means} {text : String} {now : Moment} {d d₁ d' : Desk} {s : Submission} {c : Command}
  {route : Route}

theorem eq_of_tagged {c' : Command} (hUntagged : c.Untagged) (h : (tagged m c).after d = (.ok c', d')) :
    c' = { c with tag := some (Tagger.tagOf (Tagger.answer m.service (c.taskText.getD ""))) } := by
  rw [tagged_of_untagged hUntagged] at h
  rcases after_bind_eq.mp h with ⟨_, _, ⟨⟩⟩ | ⟨tag, d₁, hTag, ⟨⟩⟩
  rw [Tagger.tagOf_of_result (result_of_asking hTag)]

/-- A task that is added without a tag gets the label of the answer in normal form. So its one tag is a known one
where that is one of the known tags, and otherwise it has no tag or one that is not known. -/
theorem tags_of_untagged (hResolve : (resolve m text now).after d = (.ok (some c, route), d₁)) (hUntagged : c.Untagged)
    (h : (submit m text now).after d = (.ok s, d')) :
    let name := Tagger.said (Tagger.answer m.service (c.taskText.getD ""))
    ∃ t back, d'.book.tasks = d.book.tasks ++ t :: back ∧ s.affected = [t.id] ∧ t.tags = (normalTags [name]).map some ∧
      ((∃ tag ∈ Tagger.known, t.tags = [some tag]) ↔ normalTag name ∈ Tagger.known) := by
  generalize hAnswer : Tagger.answer m.service (c.taskText.getD "") = answer
  cases submits h with
  | empty hResolve' _ _ _ => cases hResolve.symm.trans hResolve'
  | concluded hResolve' hTagged hConclude =>
    cases hResolve.symm.trans hResolve'
    have hBook := ((Operation.keeps_resolve m text _ _ _ hResolve).trans (Operation.keeps_tagged m c _ _ _ hTagged)).book
    obtain rfl := eq_of_tagged hUntagged hTagged
    rw [hAnswer] at hConclude
    obtain ⟨t, _, back, hNew, hTasks, hAffected⟩ := added_of_conclude hConclude hUntagged.1
    rw [hBook] at hTasks
    have hTags := Command.tags_of_newTask hNew
    dsimp only at hTags
    rw [hUntagged.2.2, List.append_nil, normalTags_given (Tagger.normalTag_tagOf answer)] at hTags
    refine ⟨t, back, hTasks, hAffected, hTags, ?_⟩
    rw [hTags]
    exact Tagger.exists_known_iff _

open Operation (noon silent)

theorem resolve_milk (m : Means) (d : Desk) :
    (resolve m "add buy milk" noon).after d = (.ok (some buyMilk, .rule), d) := by
  have hParse : Command.parse "add buy milk".toList noon = .ok buyMilk := by rfl
  rw [resolve_of_parse hParse (by decide)]
  rfl

theorem tags_of_milk : ∃ s d' t back, (submit running "add buy milk" noon).after {} = (.ok s, d') ∧
    d'.book.tasks = t :: back ∧ s.affected = [t.id] ∧ ∃ tag ∈ Tagger.known, t.tags = [some tag] := by
  have hDone : ((submit running "add buy milk" noon).after {}).1.isOk = true := by decide +kernel
  obtain ⟨s, hSubmit⟩ := exists_ok hDone
  obtain ⟨t, back, hTasks, hAffected, _, hKnown⟩ := tags_of_untagged (resolve_milk running {}) ⟨rfl, rfl, rfl⟩ hSubmit
  exact ⟨s, _, t, back, hSubmit, hTasks, hAffected, hKnown.mpr (by decide +kernel)⟩

/-- A service that puts the same label on every title. -/
def labelling (label : String) : Means where
  service := { silent.service with classify := fun _ _ => .ok ⟨label, .ofNat 1⟩ }
  serviceName := "labelling"

/-- A label that is not known becomes the tag, and a blank one leaves the task without a tag. -/
theorem milk_among_chores : buyMilk.Untagged ∧
    (∀ label ∈ ["chores", " "], (resolve (labelling label) "add buy milk" noon).after {} = (.ok (some buyMilk, .rule), {}) ∧
      ((submit (labelling label) "add buy milk" noon).after {}).1.isOk = true) ∧
    ((submit (labelling "chores") "add buy milk" noon).after {}).2.book.tasks.map (·.tags) = [[some "chores"]] ∧
    "chores" ∉ Tagger.known ∧
    ((submit (labelling " ") "add buy milk" noon).after {}).2.book.tasks.map (·.tags) = [[]] := by
  refine ⟨⟨rfl, rfl, rfl⟩, fun label hLabel => ⟨resolve_milk _ _, ?_⟩, by decide +kernel, by decide, by decide +kernel⟩
  revert label
  decide +kernel

end Desk

end Agenda
