import Agenda.Proofs.Command.Outcome

/-! # What a command leaves alone

For every kind of command: which tasks it names, that every other task stays as it is and where it
is, and what of the book it can replace at all.
-/

namespace Agenda.Command

def after (s : Setting) (e : Effect) : Book :=
  e.book.getD s.book

/-- What a command leaves alone, and what it names. -/
structure Frame (c : Command) (s : Setting) (e : Effect) : Prop where
  version : (after s e).version = s.book.version
  added : c.kind = .add → ∃ t, (after s e).tasks = s.book.tasks ++ [t] ∧ e.affected = [t.id]
  deleted : c.kind = .delete →
    (after s e).tasks = s.book.tasks.filter fun t : Task => t.id ∉ e.affected
  inOrder : c.kind ≠ .add → c.kind ≠ .delete → (after s e).tasks.map (·.id) = s.book.tasks.map (·.id)
  unaffected : c.kind ≠ .delete → ∀ (i : Nat) (t : Task), s.book.tasks[i]? = some t →
    t.id ∉ e.affected → (after s e).tasks[i]? = some t
  found : c.seeksTitles = true → e.affected = c.sought s.book.tasks
  archived : c.kind = .archive → c.completedOnly = true →
    e.affected = (s.book.tasks.filter (·.done)).map (·.id)
  parent : ∀ p, c.kind = .subtask → given c.parentSearch = some p →
    e.affected = ((s.book.tasks.filter fun t => decide (Mentions p t)).take 1).map (·.id)
  completed : c.kind = .subtask → given c.parentSearch = none → e.affected ≠ [] →
    CompletesOne (c.subtaskText.getD "") s.book.tasks (after s e).tasks e.affected
  idle : c.kind ≠ .add → c.kind ≠ .project → e.affected = [] → e.book = none
  projects : (after s e).projects ≠ s.book.projects → c.kind = .add ∨ c.kind = .project
  preferences : e.preferences ≠ s.preferences → setsPreferences c.kind = true

variable {c : Command} {s : Setting} {e : Effect} {n n' : Nat}

theorem getElem?_of_touched {affected : List String} {tasks ts : List Task} {i : Nat} {t : Task}
    (h : List.Forall₂ (Touched affected) tasks ts) (ht : tasks[i]? = some t) (hNot : t.id ∉ affected) :
    ts[i]? = some t := by
  induction h generalizing i with
  | nil => cases ht
  | cons hHead _ ih =>
    cases i with
    | zero =>
      cases ht
      exact congrArg some (hHead.2 hNot)
    | succ i => exact ih ht

theorem ids_of_touched {affected : List String} {tasks ts : List Task}
    (h : List.Forall₂ (Touched affected) tasks ts) : ts.map (·.id) = tasks.map (·.id) := by
  induction h with
  | nil => rfl
  | cons hHead _ ih => rw [List.map_cons, List.map_cons, hHead.1.id, ih]

namespace Outcome

theorem version (h : Outcome c s n e n') : (after s e).version = s.book.version := by
  cases h <;> rw [after, ‹e.book = _›] <;> rfl

theorem added_tasks (h : Outcome c s n e n') (hAdd : c.kind = .add) :
    ∃ t, (after s e).tasks = s.book.tasks ++ [t] ∧ e.affected = [t.id] := by
  cases h with
  | idle hKind => exact absurd hAdd hKind
  | added t m _ _ _ _ _ hAffected hBook =>
    refine ⟨t, ?_, hAffected⟩
    rw [after, hBook]
    rfl
  | removed hKind | founded _ hKind => cases hKind.symm.trans hAdd
  | edited ts hKind => exact absurd hAdd (by rintro h; simp [h] at hKind)

theorem deleted_tasks (h : Outcome c s n e n') (hDelete : c.kind = .delete) :
    (after s e).tasks = s.book.tasks.filter fun t : Task => t.id ∉ e.affected := by
  cases h with
  | idle _ hBook hNone => simp [after, hBook, hNone]
  | removed _ _ hBook =>
    rw [after, hBook]
    exact List.filter_congr fun t _ => by simp
  | added _ _ hKind | founded _ hKind => cases hKind.symm.trans hDelete
  | edited ts hKind => exact absurd hDelete (by rintro h; simp [h] at hKind)

theorem touched (h : Outcome c s n e n') (hAdd : c.kind ≠ .add) (hDelete : c.kind ≠ .delete) :
    List.Forall₂ (Touched e.affected) s.book.tasks (after s e).tasks := by
  cases h with
  | idle _ hBook | founded _ _ _ hBook =>
    rw [after, hBook]
    exact touched_refl _ _
  | edited ts _ _ hTouched hBook =>
    rw [after, hBook]
    exact hTouched
  | added _ _ hKind => exact absurd hKind hAdd
  | removed hKind => exact absurd hKind hDelete

theorem unaffected (h : Outcome c s n e n') (hDelete : c.kind ≠ .delete) {i : Nat} {t : Task}
    (ht : s.book.tasks[i]? = some t) (hNot : t.id ∉ e.affected) : (after s e).tasks[i]? = some t := by
  by_cases hAdd : c.kind = .add
  · obtain ⟨new, hTasks, _⟩ := h.added_tasks hAdd
    rw [hTasks, List.getElem?_append_left (List.getElem?_eq_some_iff.mp ht).1]
    exact ht
  · exact getElem?_of_touched (h.touched hAdd hDelete) ht hNot

theorem not_replaced (h : Outcome c s n e n') (hAdd : c.kind ≠ .add) (hProject : c.kind ≠ .project)
    (hNone : e.affected = []) : e.book = none := by
  cases h with
  | idle _ hBook => exact hBook
  | removed _ hSome | edited _ _ hSome => exact absurd hNone hSome
  | added _ _ hKind => exact absurd hKind hAdd
  | founded _ hKind => exact absurd hKind hProject

theorem projects (h : Outcome c s n e n') (hChanged : (after s e).projects ≠ s.book.projects) :
    c.kind = .add ∨ c.kind = .project := by
  cases h with
  | added _ _ hKind => exact .inl hKind
  | founded _ hKind => exact .inr hKind
  | idle _ hBook | removed _ _ hBook | edited _ _ _ _ hBook =>
    rw [after, hBook] at hChanged
    exact absurd rfl hChanged

end Outcome

theorem frame_of_effect (hSubtasks : ∀ t ∈ s.book.tasks, (t.subtasks.map (·.id)).Nodup)
    (h : c.effect s n = .ok (e, n')) : Frame c s e := by
  obtain ⟨hOutcome, hPreferences⟩ := outcome_of_effect h
  have hSubtask : c.kind = .subtask → c.subtask s n = .ok (e, n') := by
    intro hKind
    rw [effect, hKind] at h
    exact h
  refine ⟨hOutcome.version, hOutcome.added_tasks, hOutcome.deleted_tasks, ?inOrder, ?unaffected, ?found,
    ?archived, ?parent, ?completed, hOutcome.not_replaced, hOutcome.projects, hPreferences.resolve_left⟩
  case inOrder => exact fun hAdd hDelete => ids_of_touched (hOutcome.touched hAdd hDelete)
  case unaffected => exact fun hDelete _ _ => hOutcome.unaffected hDelete
  case found =>
    intro hSeeks
    by_cases hKind : c.kind = .delete
    · rw [effect, hKind] at h
      exact (of_delete hKind h).2.2
    · exact (of_seeksTitles hSeeks hKind h).2.2
  case archived =>
    intro hKind hDone
    rw [effect, hKind] at h
    exact (of_archiveCompleted hKind hDone h).2.2
  case parent =>
    intro p hKind hParent
    have h := hSubtask hKind
    unfold subtask at h
    simp only [hParent] at h
    exact (of_addSubtask hKind h).2.2
  case completed =>
    intro hKind hParent hSome
    obtain ⟨ts, hBook, hOne⟩ := completesOne_of_subtask hSubtasks hParent hSome (hSubtask hKind)
    rw [after, hBook]
    exact hOne

/-- A shopping trip with two steps, one of which is done. -/
def shopping : Setting where
  book := {
    version := 3
    tasks := [
      { id := "t1", title := "Call Ann", createdAt := ⟨0, none, by decide⟩ },
      { id := "t2", title := "Shopping", createdAt := ⟨0, none, by decide⟩,
        subtasks := [⟨"s1", "Buy bread", true⟩, ⟨"s2", "Buy milk", false⟩] }] }
  preferences := {}
  now := ⟨0, none, by decide⟩

theorem frame_of_shopping : ∃ e, Command.effect { kind := .subtask, subtaskText := some "buy" } shopping 0 =
    .ok (e, 0) ∧ e.affected = ["t2"] ∧ Frame { kind := .subtask, subtaskText := some "buy" } shopping e :=
  ⟨_, rfl, rfl, @frame_of_effect _ _ _ 0 0 (by decide) rfl⟩

end Agenda.Command
