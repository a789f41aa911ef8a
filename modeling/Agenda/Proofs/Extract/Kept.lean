import Agenda.Proofs.Command.Alteration
import Agenda.Proofs.Command.Dispatch
import Agenda.Proofs.Extract.Zone
import Agenda.Proofs.Window.Range

/-! # No text is lost

Every text that is neither blank nor an instruction becomes a task with a title. The title is
trimmed and not empty in either tier, so the command that adds the task cannot fail but for the
dates that the search for conflicts reckons with.
-/

namespace Agenda

namespace Extract

open Pattern

variable {text title : List Char} {now : Moment} {t : ParsedTask} {service : Service}

/-! ## Titles -/

theorem orTask_ne_nil (title : List Char) : orTask title ≠ [] := by
  unfold orTask
  split
  · decide
  · rename_i hSome
    exact mt List.isEmpty_iff.mpr hSome

theorem trim_orTask (h : Text.trim title = title) : Text.trim (orTask title) = orTask title := by
  unfold orTask
  split
  · decide
  · exact h

theorem ne_nil_of_not_noise (h : isNoise title = false) : title ≠ [] := by
  rintro rfl
  exact absurd h (by decide)

theorem proper_capitalize (hSome : title ≠ []) (hTrim : Text.trim title = title) :
    Command.Proper (String.ofList (Text.capitalize title)) := by
  refine ⟨Command.ofList_ne_empty (Text.capitalize_ne_nil hSome), ?_⟩
  rw [String.toList_ofList]
  exact Text.trim_capitalize hTrim

theorem Made.proper (h : Made text now t) : Command.Proper t.title := by
  cases h with
  | generated g h =>
    rw [h.title]
    exact proper_capitalize h.left (trim_generatedTitle g.title)
  | patterned h =>
    obtain ⟨title, hTrim, hTitle⟩ := h.title
    rw [hTitle]
    split
    · exact proper_capitalize (orTask_ne_nil _) (trim_orTask (trim_tidy _))
    · rename_i hNoise
      exact proper_capitalize (ne_nil_of_not_noise (Bool.eq_false_iff.mpr hNoise)) hTrim
  | raw h =>
    rw [h]
    refine ⟨Command.ofList_ne_empty (orTask_ne_nil _), ?_⟩
    rw [rawTask, String.toList_ofList]
    exact trim_orTask (Text.trim_capitalize (Text.trim_trim text))

/-! ## Whether there is a task -/

theorem pipeline_of_blank (h : Text.trim text = []) : (pipeline service text now).result = (.ok ⟨none, []⟩, 0) := by
  unfold pipeline
  rw [h]
  rfl

theorem pipeline_of_generative {first : TierResult} {asked : Nat} (hSome : Text.trim text ≠ [])
    (hFirst : (generative service (Text.trim text) now).result = (.ok first, asked)) :
    ∃ run, (pipeline service text now).result = (.ok run, asked) ∧ (run.task = none ↔ first.isNotATask = true) := by
  unfold pipeline Asking.result at *
  dsimp only
  rw [if_neg (mt List.isEmpty_iff.mp hSome), Asking.run_bind, hFirst]
  dsimp only
  unfold TierResult.isNotATask
  split
  · exact ⟨_, rfl, by simp [*]⟩
  · exact ⟨_, rfl, by simp [*]⟩
  · obtain ⟨fallback, hFallback⟩ := heuristic_task (Text.trim text) now
    exact ⟨_, rfl, by simp [*]⟩

theorem result_of_command (h : looksLikeCommand text = true) :
    (generative service text now).result.2 = 0 := by
  unfold generative
  rw [if_pos h]
  rfl

end Extract

/-! ## The task in the book -/

namespace ParsedTask

variable {t : ParsedTask} {task : Task}

/-- The task is valid and has all that the parsed task has. -/
structure Carried (t : ParsedTask) (task : Task) : Prop where
  valid : task.Valid
  title : task.title = t.title
  tags : task.tags = (normalTags t.tags).map some
  priority : task.priority = t.priority
  due : task.due = t.due
  reminders : task.reminders.map (·.time) = t.reminder.toList

/-- An empty first tag is no tag of the command, and no tag in normal form. -/
theorem normalTags_command (t : ParsedTask) :
    normalTags ((given t.command.tag).toList ++ t.command.tags) = normalTags t.tags := by
  unfold command
  cases t.tags with
  | nil => rfl
  | cons tag tags =>
    by_cases hEmpty : tag = ""
    · subst hEmpty
      rfl
    · simp [given, Option.filter, hEmpty]

theorem exists_carried (hTitle : Command.Proper t.title) (now : Moment) (n : Nat) :
    ∃ task k, t.command.newTask now n = .ok (task, k) ∧ t.Carried task ∧ task.start = none ∧ task.project = none := by
  have hText : ∀ text, t.command.taskText = some text → Command.Proper text := by
    rintro _ ⟨⟩
    exact hTitle
  obtain ⟨reminders, id, k, hNew⟩ := Command.exists_newTask hText now n
  refine ⟨_, k, hNew, ⟨?_, rfl, ?_, rfl, rfl, (Command.founds_of_newTask hNew).times⟩, rfl, rfl⟩
  · refine ⟨hTitle.1, ?_, by simp, by simp, by simp, by simp⟩
    change String.ofList (Text.trim t.title.toList) = t.title
    rw [hTitle.2, String.ofList_toList]
  · rw [normalTags_command]

end ParsedTask

namespace Extract

variable {text : List Char} {now : Moment} {service : Service}

/-- A parsed task is added, unless a date that the search for conflicts reckons with leaves the
calendar. -/
theorem exists_added {t : ParsedTask} {s : Setting} (hTitle : Command.Proper t.title) (hLocal : t.Local)
    (hTasks : ∀ u ∈ s.book.tasks, ∀ m ∈ u.moments, m.isLocal = true) (n : Nat) :
    ∃ task k, t.command.newTask s.now n = .ok (task, k) ∧ t.Carried task ∧
      (Window.conflict task s.book.tasks s.minutes ≠ .error .dateOverflow →
        ∃ e, t.command.effect s n = .ok (e, k) ∧ e.affected = [task.id] ∧
          e.book = some (s.book.withTasks (s.book.tasks ++ [task]))) := by
  obtain ⟨task, k, hNew, hCarried, hStart, hProject⟩ := t.exists_carried hTitle s.now n
  refine ⟨task, k, hNew, hCarried, fun hRange => ?_⟩
  have hReckons : Attempt.Reckons (Window.conflict task s.book.tasks s.minutes) fun _ => True := by
    apply Window.reckons_conflict
    · rw [hStart]
      rintro m ⟨⟩
    · rw [hCarried.due]
      exact hLocal.due
    · intro u hu
      constructor
      · intro m hm
        exact hTasks u hu m (by simp [Task.moments, Option.mem_toList.mpr hm])
      · intro m hm
        exact hTasks u hu m (by simp [Task.moments, Option.mem_toList.mpr hm])
  cases hConflict : Window.conflict task s.book.tasks s.minutes with
  | error f =>
    rw [hReckons.of_error hConflict] at hConflict
    exact absurd hConflict hRange
  | ok conflict =>
    refine ⟨_, Command.effect_of_add rfl hNew hConflict, rfl, ?_⟩
    rw [hProject]
    rfl

/-- No text is lost: there is a task unless the text is blank or an instruction, which is not even
sent, and adding the task succeeds as long as the dates reckoned with stay within the calendar. -/
theorem kept_and_added (hNow : now.isLocal = true)
    (hReturns : Text.trim text ≠ [] → ∃ r, (generative service (Text.trim text) now).result.1 = .ok r) :
    ∃ run, (pipeline service text now).result.1 = .ok run ∧
      (run.task = none ↔ Text.trim text = [] ∨ looksLikeCommand (Text.trim text) = true) ∧
      (run.task = none → (pipeline service text now).result.2 = 0) ∧
      ∀ t, run.task = some t → ∀ s : Setting, (∀ u ∈ s.book.tasks, ∀ m ∈ u.moments, m.isLocal = true) → ∀ n,
        ∃ task k, t.command.newTask s.now n = .ok (task, k) ∧ t.Carried task ∧
          (Window.conflict task s.book.tasks s.minutes ≠ .error .dateOverflow →
            ∃ e, t.command.effect s n = .ok (e, k) ∧ e.affected = [task.id] ∧
              e.book = some (s.book.withTasks (s.book.tasks ++ [task]))) := by
  by_cases hBlank : Text.trim text = []
  · rw [pipeline_of_blank hBlank]
    refine ⟨⟨none, []⟩, rfl, ⟨fun _ => .inl hBlank, fun _ => rfl⟩, fun _ => rfl, ?_⟩
    rintro t ⟨⟩
  obtain ⟨first, hFirst⟩ := hReturns hBlank
  obtain ⟨run, hRun, hNone⟩ := @pipeline_of_generative text now service first _ hBlank (Prod.ext hFirst rfl)
  have hCommand := (Asking.of_result gives_generative_made hFirst).2
  rw [hCommand] at hNone
  have hOk : (pipeline service text now).result.1 = .ok run := by rw [hRun]
  refine ⟨run, hOk, ?_, ?_, ?_⟩
  · rw [hNone, or_iff_right hBlank]
  · intro h
    rw [hRun]
    exact result_of_command (hNone.mp h)
  · intro t ht s hTasks n
    have hTitle := (Asking.of_result gives_pipeline_made hOk t ht).proper
    have hLocal := Asking.of_result (gives_pipeline hNow) hOk t ht
    exact exists_added hTitle hLocal hTasks n

def silent : Service where
  generate _ _ := .error .badStatus
  classify _ _ := .error .badStatus

/-- A reminder made of a time and two markers. -/
def timedReminder : List Char :=
  " remind me at 5pm !high #Home ".toList

/-- A book with a task at the time of the reminder. -/
def dinner : Setting where
  book := { tasks := [{ id := "dinner", title := "Dinner", createdAt := .on ⟨739020, by decide⟩ .noon,
                        due := some (.on ⟨739020, by decide⟩ ⟨61200000000, by decide⟩) }] }
  preferences := {}
  now := .on ⟨739020, by decide⟩ .noon

def atFive : ParsedTask where
  title := "At 5pm"
  due := some (.on ⟨739020, by decide⟩ ⟨61200000000, by decide⟩)
  tags := ["home"]
  priority := some .high
  reminder := some (.on ⟨739020, by decide⟩ ⟨59400000000, by decide⟩)

theorem atFive_kept_and_added :
    ∃ run task k e, (pipeline silent timedReminder dinner.now).result.1 = .ok run ∧ run.task = some atFive ∧
      atFive.Carried task ∧ atFive.command.effect dinner 0 = .ok (e, k) ∧
      e.book = some (dinner.book.withTasks (dinner.book.tasks ++ [task])) := by
  have hReturns : (generative silent (Text.trim timedReminder) dinner.now).result.1 =
      .ok ⟨.generative, .failed "generation unavailable"⟩ := by decide +kernel
  have hTask : (pipeline silent timedReminder dinner.now).result.1.map (·.task) = .ok (some atFive) := by
    decide +kernel
  have hTasks : ∀ u ∈ dinner.book.tasks, ∀ m ∈ u.moments, m.isLocal = true := by decide
  have hRange : (do Window.conflict (← atFive.command.newTask dinner.now 0).1 dinner.book.tasks dinner.minutes :
      Except Fault _).toBool = true := by decide +kernel
  obtain ⟨run, hRun, _, _, hAdded⟩ := kept_and_added (by decide) fun _ => ⟨_, hReturns⟩
  rw [hRun] at hTask
  have hTask := Except.ok.inj hTask
  obtain ⟨task, k, hNew, hCarried, hEffect⟩ := hAdded atFive hTask dinner hTasks 0
  rw [hNew] at hRange
  have hFits : Window.conflict task dinner.book.tasks dinner.minutes ≠ .error .dateOverflow := by
    intro hError
    change (Window.conflict task dinner.book.tasks dinner.minutes).toBool = true at hRange
    rw [hError] at hRange
    cases hRange
  obtain ⟨e, hOk, _, hBook⟩ := hEffect hFits
  exact ⟨run, task, k, e, hRun, hTask, hCarried, hOk, hBook⟩

end Extract

end Agenda
