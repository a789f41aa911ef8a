import Agenda.Proofs.Attempt
import Agenda.Proofs.Command.Capture
import Agenda.Proofs.Command.Peeling

/-! # Commands that can be carried out

Whatever rule accepts a line, the command has all that its kind needs, and no free text in it is
blank. A blank search phrase would be found in every title.
-/

namespace Agenda.Command

open Pattern Text

def freeTexts (c : Command) : List (Option String) :=
  [c.taskText, c.search, c.subtaskText, c.parentSearch, c.projectName, c.project, c.tag]

/-- The fields that are read for a command of its kind are set. -/
def Complete (c : Command) : Prop :=
  match c.kind with
  | .add => c.taskText.isSome ∧ c.due = none ∧ c.reminderTime = none
  | .tick | .delete | .archive => c.search.isSome
  | .tag => c.search.isSome ∧ c.tag.isSome
  | .filter => c.tag.isSome
  | .priority => c.search.isSome ∧ c.priority.isSome
  | .due => c.search.isSome ∧ c.due.isSome
  | .snooze => c.search.isSome ∧ c.snoozeAmount.isSome ∧ c.snoozeUnit.isSome
  | .repeat => c.search.isSome ∧ c.recurrence.isSome
  | .remind => c.search.isSome ∧ (c.reminderTime.isSome ∨ c.reminderHoursBefore.isSome)
  | .subtask => c.subtaskText.isSome
  | .sort => c.sortCriteria.isSome
  | .summarize => c.period.isSome
  | .project | .calendar | .dark | .light | .help => True
  | .unknown => False

structure Ready (c : Command) : Prop where
  texts : ∀ t, some t ∈ c.freeTexts → Proper t
  complete : c.Complete

/-- Every command that the rule makes of a squeezed line can be carried out. -/
def GrammarRule.Sound (r : GrammarRule) : Prop :=
  ∀ line m now c, Squeezed line → r.pattern.matchStart line = some m → r.build m now = .ok (some c) → c.Ready

variable {p : Pattern} {parts before after : List Pattern} {kind : CommandKind}

/-! ## Rules without free texts -/

theorem sound_literal (hKind : kind ∈ [.calendar, .dark, .light, .project, .help]) : (literal p kind).Sound := by
  rintro line m now c _ _ ⟨⟩
  refine ⟨by simp [freeTexts], ?_⟩
  simp only [List.mem_cons, List.not_mem_nil, or_false] at hKind
  rcases hKind with rfl | rfl | rfl | rfl | rfl <;> trivial

theorem sound_sort : sortRule.Sound := by
  intro line m now c _ _ hBuild
  simp only [sortRule] at hBuild
  split at hBuild <;> cases hBuild
  exact ⟨by simp [freeTexts], rfl⟩

theorem sound_summarize : summarizeRule.Sound := by
  intro line m now c _ _ hBuild
  simp only [summarizeRule] at hBuild
  split at hBuild <;> cases hBuild
  exact ⟨by simp [freeTexts], rfl⟩

theorem sound_archiveCompleted : archiveCompletedRule.Sound := by
  rintro line m now c _ _ ⟨⟩
  have hWord : Proper "completed" := ⟨by decide, by decide⟩
  exact ⟨by simpa [freeTexts] using hWord, rfl⟩

/-! ## Rules with free texts -/

variable {line : List Char} {m : Match} {n : Nat}

theorem not_takes_phrase : ¬ phrase.Takes [] := by
  rintro ⟨_, hLeast⟩
  cases hLeast

theorem not_takes_line : ¬ Pattern.line.Takes [] := by
  rintro ⟨_, hLeast⟩
  cases hLeast

theorem proper_word (hMatch : p.matchStart line = some m) (hBinds : p.binds n = true) (hParts : p.parts n = [word]) :
    Proper (String.ofList (lowered m n)) := by
  obtain ⟨_, q, hq, hTakes⟩ := takes_of_matchStart hMatch hBinds
  rw [hParts, List.mem_singleton] at hq
  exact proper_lower_of_word (hq ▸ hTakes)

theorem sound_searching {verbs : List String} (hKind : kind ∈ [.tick, .delete, .archive]) :
    (searching verbs kind).Sound := by
  rintro line m now c hLine hMatch ⟨⟩
  have hSearch := proper_of_lineOf 3 hLine hMatch rfl rfl (by repeat constructor) not_takes_line
  refine ⟨by simpa [freeTexts, trimmed] using hSearch, ?_⟩
  simp only [List.mem_cons, List.not_mem_nil, or_false] at hKind
  rcases hKind with rfl | rfl | rfl <;> rfl

theorem sound_tickSubtask : tickSubtaskRule.Sound := by
  rintro line m now c hLine hMatch ⟨⟩
  have hText := proper_of_lineOf 4 hLine hMatch rfl rfl (by repeat constructor) not_takes_line
  exact ⟨by simpa [freeTexts, trimmed] using hText, rfl⟩

theorem sound_subtask : subtaskRule.Sound := by
  rintro line m now c hLine hMatch ⟨⟩
  have hText := proper_of_lineOf 4 hLine hMatch rfl rfl (by repeat constructor) not_takes_phrase
  have hParent := proper_of_lineOf 8 hLine hMatch rfl rfl (by repeat constructor) not_takes_line
  exact ⟨by simpa [freeTexts, trimmed] using ⟨hText, hParent⟩, rfl⟩

theorem sound_addToProject : addToProjectRule.Sound := by
  rintro line m now c hLine hMatch ⟨⟩
  have hText := proper_of_lineOf 2 hLine hMatch rfl rfl (by repeat constructor) not_takes_phrase
  have hProject := proper_of_lineOf 6 hLine hMatch rfl rfl (by repeat constructor) not_takes_phrase
  exact ⟨by simpa [freeTexts, trimmed] using ⟨hText, hProject⟩, rfl, rfl, rfl⟩

theorem sound_createProject : createProjectRule.Sound := by
  rintro line m now c hLine hMatch ⟨⟩
  have hName := proper_of_lineOf 4 hLine hMatch rfl rfl (by repeat constructor) not_takes_line
  exact ⟨by simpa [freeTexts, trimmed] using hName, trivial⟩

theorem sound_tag : tagRule.Sound := by
  rintro line m now c hLine hMatch ⟨⟩
  have hSearch := proper_of_lineOf 3 hLine hMatch rfl rfl (by repeat constructor) not_takes_phrase
  have hTag := proper_word (n := 3) hMatch rfl rfl
  exact ⟨by simpa [freeTexts, trimmed] using ⟨hSearch, hTag⟩, rfl, rfl⟩

theorem sound_filter : filterRule.Sound := by
  rintro line m now c hLine hMatch ⟨⟩
  have hTag := proper_word (n := 1) hMatch rfl rfl
  exact ⟨by simpa [freeTexts] using hTag, rfl⟩

theorem sound_priority : priorityRule.Sound := by
  intro line m now c hLine hMatch hBuild
  have hSearch := proper_of_lineOf 3 hLine hMatch rfl rfl (by repeat constructor) not_takes_phrase
  simp only [priorityRule] at hBuild
  split at hBuild <;> cases hBuild
  exact ⟨by simpa [freeTexts, trimmed] using hSearch, rfl, rfl⟩

theorem sound_due : dueRule.Sound := by
  intro line m now c hLine hMatch hBuild
  have hSearch := proper_of_lineOf 5 hLine hMatch rfl rfl (by repeat constructor) not_takes_line
  simp only [dueRule] at hBuild
  obtain ⟨due, _, hMade⟩ := Attempt.bind_eq_ok.mp hBuild
  obtain ⟨day, rfl, rfl⟩ := Option.map_eq_some_iff.mp (Attempt.pure_eq_ok.mp hMade)
  exact ⟨by simpa [freeTexts, trimmed] using hSearch, rfl, rfl⟩

theorem sound_snooze : snoozeRule.Sound := by
  intro line m now c hLine hMatch hBuild
  have hSearch := proper_of_lineOf 3 hLine hMatch rfl rfl (by repeat constructor) not_takes_phrase
  simp only [snoozeRule] at hBuild
  obtain ⟨amount, _, ⟨⟩⟩ := Attempt.bind_eq_ok.mp hBuild
  exact ⟨by simpa [freeTexts, trimmed] using hSearch, rfl, rfl, rfl⟩

theorem sound_repeat (w : String) (rhythm : Rhythm) : (repeatRule w rhythm).Sound := by
  rintro line m now c hLine hMatch ⟨⟩
  have hSearch := proper_of_lineOf 4 hLine hMatch rfl rfl (by repeat constructor) not_takes_line
  exact ⟨by simpa [freeTexts, trimmed] using hSearch, rfl, rfl⟩

theorem sound_repeatWeekly : repeatWeeklyRule.Sound := by
  intro line m now c hLine hMatch hBuild
  have hSearch := proper_of_lineOf 8 hLine hMatch rfl rfl (by repeat constructor) not_takes_line
  simp only [repeatWeeklyRule] at hBuild
  split at hBuild <;> cases hBuild
  exact ⟨by simpa [freeTexts, trimmed] using hSearch, rfl, rfl⟩

theorem sound_remindRelative : remindRelativeRule.Sound := by
  intro line m now c hLine hMatch hBuild
  have hSearch := proper_of_lineOf 11 hLine hMatch rfl rfl (by repeat constructor) not_takes_line
  simp only [remindRelativeRule] at hBuild
  obtain ⟨hours, _, ⟨⟩⟩ := Attempt.bind_eq_ok.mp hBuild
  exact ⟨by simpa [freeTexts, trimmed] using hSearch, rfl, .inr rfl⟩

theorem sound_remindAbsolute : remindAbsoluteRule.Sound := by
  intro line m now c hLine hMatch hBuild
  have hSearch := proper_of_lineOf 5 hLine hMatch rfl rfl (by repeat constructor) not_takes_phrase
  simp only [remindAbsoluteRule] at hBuild
  obtain ⟨clock, _, hBuild⟩ := Attempt.bind_eq_ok.mp hBuild
  cases clock with
  | none => cases hBuild
  | some clock =>
    dsimp only at hBuild
    split at hBuild <;> obtain ⟨day, _, ⟨⟩⟩ := Attempt.bind_eq_ok.mp hBuild
    all_goals exact ⟨by simpa [freeTexts, trimmed] using hSearch, rfl, .inl rfl⟩

/-! ## Titles with markers -/

theorem Markers.proper {back t : List Char} {tag word : Option (List Char)} (h : Markers back tag word)
    (hTag : tag = some t) : Proper (String.ofList t) := by
  induction h with
  | none => cases hTag
  | hash _ hWord _ _ | as _ _ _ hWord _ _ =>
    cases hTag
    exact proper_lower_of_word hWord
  | bang _ _ _ ih => exact ih hTag

theorem proper_splitMarkers (text : List Char) : trim (splitMarkers text).1 = (splitMarkers text).1 ∧
    ∀ t, (splitMarkers text).2.1 = some t → Proper (String.ofList t) := by
  have hSplit := split_splitMarkers text
  obtain ⟨_, _, _, hMarkers, _⟩ := hSplit.cut
  exact ⟨hSplit.trimmed, fun _ => hMarkers.proper⟩

theorem sound_add : addRule.Sound := by
  rintro line m now c _ _ hBuild
  obtain ⟨hRest, hTag⟩ := proper_splitMarkers (m.text 1)
  simp only [addRule] at hBuild
  split at hBuild
  · cases hBuild
  · rename_i hText
    cases hBuild
    have hTitle : Proper (String.ofList (splitMarkers (m.text 1)).1) := by
      refine ⟨ofList_ne_empty (mt List.isEmpty_iff.mpr hText), ?_⟩
      rw [String.toList_ofList]
      exact hRest
    refine ⟨?_, rfl, rfl, rfl⟩
    simp only [freeTexts, List.mem_cons, List.not_mem_nil, or_false, reduceCtorEq, false_or, Option.some.injEq]
    rintro t (rfl | hTagged)
    · exact hTitle
    · obtain ⟨cs, hcs, rfl⟩ := Option.map_eq_some_iff.mp hTagged.symm
      exact hTag cs hcs

/-! ## Every rule -/

theorem sound_of_mem_grammar : ∀ r ∈ grammar, r.Sound := by
  simp only [grammar, List.forall_mem_cons]
  exact ⟨sound_literal (by decide), sound_literal (by decide), sound_literal (by decide), sound_literal (by decide),
    sound_literal (by decide), sound_subtask, sound_addToProject, sound_add, sound_tickSubtask,
    sound_searching (by decide), sound_searching (by decide), sound_archiveCompleted, sound_searching (by decide),
    sound_tag, sound_filter, sound_priority, sound_due, sound_snooze, sound_repeat _ _, sound_repeatWeekly,
    sound_repeat _ _, sound_remindAbsolute, sound_remindRelative, sound_createProject, sound_sort, sound_summarize,
    fun _ h => absurd h List.not_mem_nil⟩

theorem firstOf_eq_some {rules : List GrammarRule} {now : Moment} {c : Command}
    (h : firstOf line now rules = .ok (some c)) :
    ∃ r ∈ rules, ∃ m, r.pattern.matchStart line = some m ∧ r.build m now = .ok (some c) := by
  induction rules with
  | nil => cases h
  | cons r rs ih =>
    obtain ⟨made, hApply, h⟩ := Attempt.bind_eq_ok.mp h
    cases made with
    | none =>
      obtain ⟨s, hs, hMatch⟩ := ih h
      exact ⟨s, List.mem_cons_of_mem r hs, hMatch⟩
    | some d =>
      cases h
      unfold GrammarRule.apply at hApply
      cases hMatch : r.pattern.matchStart line with
      | none =>
        rw [hMatch] at hApply
        cases hApply
      | some m =>
        rw [hMatch] at hApply
        exact ⟨r, List.mem_cons_self, m, hMatch, hApply⟩

theorem ready_of_parse {text : List Char} {now : Moment} {c : Command} (h : parse text now = .ok c)
    (hKnown : c.kind ≠ .unknown) : c.Ready := by
  obtain ⟨made, hFirst, h⟩ := Attempt.bind_eq_ok.mp h
  cases made with
  | none =>
    cases h
    exact absurd rfl hKnown
  | some d =>
    cases h
    obtain ⟨r, hr, m, hMatch, hBuild⟩ := firstOf_eq_some hFirst
    exact sound_of_mem_grammar r hr _ m now c (squeezed_squeeze _) hMatch hBuild

end Agenda.Command
