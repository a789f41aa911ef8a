import Agenda.Proofs.Command.Outcome

/-! # What commands make of the book

Each kind of command changes one thing of the tasks that it is about, and says what it puts in its
place. Reminders are only ever appended, due dates are only set by commands to schedule, to snooze
and to repeat, and the project of a task is never changed.
-/

namespace Agenda.Command

/-- What a command can make of a task, at a time. -/
inductive Alters (c : Command) (now : Moment) (t : Task) : Task → Prop where
  | kept : Alters c now t t
  | restated (status : Status) : Alters c now t (t.withStatus status)
  | retagged (tags : List (Option String)) : Alters c now t { t with tags }
  | prioritized (priority : Option Priority) : Alters c now t { t with priority }
  | outlined (subtasks : List Subtask) : Alters c now t { t with subtasks }
  | scheduled (hKind : c.kind = .due) : Alters c now t { t with due := c.due }
  | snoozed (due : Moment) (hKind : c.kind = .snooze)
      (hLater : later (dueOrToday t now) (c.snoozeAmount.getD 0) (c.snoozeUnit.getD .days) = .ok due) :
      Alters c now t { t with due := some due }
  | repeated (hKind : c.kind = .repeat) :
      Alters c now t { t with recurrence := c.recurrence, due := some (dueOrToday t now) }
  | remindedBefore (hours : Int) (due time : Moment) (id : String) (hKind : c.kind = .remind)
      (hHours : c.reminderHoursBefore = some hours) (hDue : t.due = some due)
      (hTime : due.plus (-(hours * hourTicks)) = .ok time) :
      Alters c now t (reminded t { id, time, kind := .relative })
  | remindedAt (time : Moment) (id : String) (hKind : c.kind = .remind) (hHours : c.reminderHoursBefore = none)
      (hTime : c.reminderTime = some time) : Alters c now t (reminded t { id, time, kind := .absolute })

/-- What a command makes of a task of a list: only tasks that it looks for are changed by a command
with a search phrase. -/
def AltersAmong (c : Command) (now : Moment) (tasks : List Task) (t t' : Task) : Prop :=
  c.Alters now t t' ∧ (c.seeksTitles = true → t.id ∉ c.sought tasks → t' = t)

/-- The book that a command makes, with the counter of identities before and after. -/
inductive Reshapes (c : Command) (s : Setting) (n : Nat) (b : Book) (n' : Nat) : Prop where
  | added (t : Task) (hNew : c.newTask s.now n = .ok (t, n'))
      (hBook : b = { s.book with
        tasks := s.book.tasks ++ [t], projects := withProject s.book.projects t.project })
  | removed (ids : List String) (hBook : b = s.book.without ids)
  | altered (ts : List Task) (hTasks : List.Forall₂ (c.AltersAmong s.now s.book.tasks) s.book.tasks ts)
      (hBook : b = s.book.withTasks ts)
  | founded (name : String) (hNew : name ∉ s.book.projects)
      (hBook : b = { s.book with projects := s.book.projects ++ [name] })

variable {c : Command} {s : Setting} {e : Effect} {b : Book} {now : Moment} {n n' : Nat}

theorem Alters.id {t t' : Task} (h : c.Alters now t t') : t'.id = t.id := by
  cases h <;> rfl

theorem Alters.source {t t' : Task} (h : c.Alters now t t') : t'.source = t.source := by
  cases h <;> rfl

theorem Alters.project {t t' : Task} (h : c.Alters now t t') : t'.project = t.project := by
  cases h <;> rfl

/-! ## Commands with a search phrase -/

theorem reshapes_of_updating {consider : Task → Bool} {what : String} {change : Task → Fresh Task}
    {message : Nat → String} (hConsider : consider = c.eligible)
    (hChange : ∀ t t' m m', change t m = .ok (t', m') → c.Alters s.now t t')
    (h : c.updating s consider what change message n = .ok (e, n')) (hBook : e.book = some b) :
    c.Reshapes s n b n' := by
  subst hConsider
  obtain ⟨⟨ts, affected⟩, m, hPass, h⟩ := Fresh.bind_eq_ok.mp h
  obtain ⟨hIds, hTasks⟩ := becomes_of_changeMatching (fun _ => .kept) (fun t t' m m' _ => hChange t t' m m') hPass
  have hSought : affected = c.sought s.book.tasks := by
    rw [hIds, funext (hits_eq c.search c.eligible)]
    rfl
  subst hSought
  dsimp only at h
  split at h
  · obtain ⟨rfl, _⟩ := Fresh.pure_eq_ok.mp h
    cases hBook
  · obtain ⟨rfl, _⟩ := Fresh.pure_eq_ok.mp h
    cases hBook
    refine .altered ts (hTasks.imp ?_) rfl
    rintro t t' ⟨hAlters, hSame⟩
    exact ⟨hAlters, fun _ => hSame⟩

theorem alters_of_pure {f : Task → Task} (hf : ∀ t : Task, c.Alters now t (f t)) :
    ∀ (t t' : Task) (m m' : Nat), (pure (f t) : Fresh Task) m = .ok (t', m') → c.Alters now t t' := by
  intro t t' m m' h
  obtain ⟨rfl, _⟩ := Fresh.pure_eq_ok.mp h
  exact hf t

theorem alters_of_remindBefore {hours : Int} {t t' : Task} (hKind : c.kind = .remind)
    (hHours : c.reminderHoursBefore = some hours) (h : remindBefore hours t n = .ok (t', n')) :
    c.Alters now t t' := by
  unfold remindBefore at h
  cases hDue : t.due with
  | none =>
    simp only [hDue] at h
    exact absurd h Fresh.throw_eq_ok
  | some due =>
    simp only [hDue] at h
    obtain ⟨time, m, hLift, h⟩ := Fresh.bind_eq_ok.mp h
    obtain ⟨hTime, rfl⟩ := Fresh.lift_eq_ok.mp hLift
    obtain ⟨r, m, hReminder, h⟩ := Fresh.bind_eq_ok.mp h
    obtain ⟨rfl, _⟩ := Fresh.reminder_eq_ok.mp hReminder
    obtain ⟨rfl, _⟩ := Fresh.pure_eq_ok.mp h
    exact .remindedBefore hours due time _ hKind hHours hDue hTime

theorem alters_of_remindAt {t t' : Task} (hKind : c.kind = .remind) (hHours : c.reminderHoursBefore = none)
    (h : remindAt c.reminderTime t n = .ok (t', n')) : c.Alters now t t' := by
  cases hTime : c.reminderTime with
  | none =>
    rw [hTime] at h
    exact absurd h Fresh.throw_eq_ok
  | some time =>
    rw [hTime] at h
    obtain ⟨r, m, hReminder, h⟩ := Fresh.bind_eq_ok.mp h
    obtain ⟨rfl, _⟩ := Fresh.reminder_eq_ok.mp hReminder
    obtain ⟨rfl, _⟩ := Fresh.pure_eq_ok.mp h
    exact .remindedAt time _ hKind hHours hTime

theorem reshapes_of_seeksTitles (hSeeks : c.seeksTitles = true) (h : c.effect s n = .ok (e, n'))
    (hBook : e.book = some b) : c.Reshapes s n b n' := by
  unfold seeksTitles at hSeeks
  unfold effect at h
  cases hKind : c.kind <;> simp only [hKind, Bool.false_eq_true] at hSeeks h
  case tick =>
    refine reshapes_of_updating ?_ (alters_of_pure fun t => .restated .completed) h hBook
    funext t
    rw [eligible, hKind]
    rfl
  case delete =>
    obtain ⟨⟨ts, affected⟩, m, _, h⟩ := Fresh.bind_eq_ok.mp h
    dsimp only at h
    split at h <;> obtain ⟨rfl, _⟩ := Fresh.pure_eq_ok.mp h <;> cases hBook
    exact .removed affected rfl
  case archive =>
    rw [Bool.not_eq_true'] at hSeeks
    simp only [archive, hSeeks, Bool.false_eq_true, if_false] at h
    refine reshapes_of_updating ?_ (alters_of_pure fun t => .restated .archived) h hBook
    funext t
    rw [eligible, hKind]
  case tag =>
    exact reshapes_of_updating (eligible_eq_anyTask (by simp [hKind]))
      (alters_of_pure fun t => .retagged [c.tag]) h hBook
  case priority =>
    exact reshapes_of_updating (eligible_eq_anyTask (by simp [hKind]))
      (alters_of_pure fun t => .prioritized c.priority) h hBook
  case due =>
    exact reshapes_of_updating (eligible_eq_anyTask (by simp [hKind]))
      (alters_of_pure fun t => .scheduled hKind) h hBook
  case «repeat» =>
    exact reshapes_of_updating (eligible_eq_anyTask (by simp [hKind]))
      (alters_of_pure fun t => .repeated hKind) h hBook
  case snooze =>
    unfold snooze at h
    refine reshapes_of_updating ?_ ?_ h hBook
    · funext t
      rw [eligible, hKind]
      rfl
    · intro t t' m m' hPush
      obtain ⟨due, _, hLater, hPush⟩ := Fresh.bind_eq_ok.mp hPush
      obtain ⟨rfl, _⟩ := Fresh.pure_eq_ok.mp hPush
      exact .snoozed due hKind (Fresh.lift_eq_ok.mp hLater).1
  case remind =>
    unfold remind at h
    cases hHours : c.reminderHoursBefore <;> simp only [hHours] at h
    case some hours =>
      refine reshapes_of_updating ?_ (fun _ _ _ _ => alters_of_remindBefore hKind hHours) h hBook
      funext t
      rw [eligible, hKind]
      simp only [hHours]
      rfl
    case none =>
      refine reshapes_of_updating ?_ (fun _ _ _ _ => alters_of_remindAt hKind hHours) h hBook
      funext t
      rw [eligible, hKind]
      simp only [hHours]
      rfl

/-! ## The other commands -/

theorem altersAmong_of_alters (hSeeks : c.seeksTitles = false) {tasks : List Task} {t t' : Task}
    (h : c.Alters now t t') : c.AltersAmong now tasks t t' := by
  refine ⟨h, fun hTrue => ?_⟩
  rw [hSeeks] at hTrue
  cases hTrue

theorem reshapes_of_archiveCompleted (hKind : c.kind = .archive) (hDone : c.completedOnly = true)
    (h : c.archive s n = .ok (e, n')) (hBook : e.book = some b) : c.Reshapes s n b n' := by
  have hSeeks : c.seeksTitles = false := by simp [seeksTitles, hKind, hDone]
  simp only [archive, hDone, if_true] at h
  split at h <;> obtain ⟨rfl, _⟩ := Fresh.pure_eq_ok.mp h <;> cases hBook
  refine .altered _ ?_ rfl
  rw [List.forall₂_map_right_iff, List.forall₂_same]
  intro t _
  split
  · exact altersAmong_of_alters hSeeks (.restated .archived)
  · exact altersAmong_of_alters hSeeks .kept

theorem reshapes_of_subtask (hKind : c.kind = .subtask) (h : c.subtask s n = .ok (e, n'))
    (hBook : e.book = some b) : c.Reshapes s n b n' := by
  have hSeeks : c.seeksTitles = false := by simp [seeksTitles, hKind]
  have hOutline {t t' : Task} (hAlters : c.Alters s.now t t') : c.AltersAmong s.now s.book.tasks t t' :=
    altersAmong_of_alters hSeeks hAlters
  cases hParent : given c.parentSearch with
  | some parent =>
    unfold subtask at h
    simp only [hParent] at h
    obtain ⟨⟨ts, affected⟩, m, hPass, h⟩ := Fresh.bind_eq_ok.mp h
    have hTasks : List.Forall₂ (Becomes (c.Alters s.now) affected) s.book.tasks ts := by
      refine (becomes_of_changeMatching (fun _ => .kept) ?_ hPass).2
      intro t t' m m' _ hAdd
      obtain ⟨sub, _, _, hAdd⟩ := Fresh.bind_eq_ok.mp hAdd
      obtain ⟨rfl, _⟩ := Fresh.pure_eq_ok.mp hAdd
      exact .outlined (t.subtasks ++ [sub])
    dsimp only at h
    split at h <;> obtain ⟨rfl, _⟩ := Fresh.pure_eq_ok.mp h <;> cases hBook
    exact .altered ts (hTasks.imp fun _ _ hBecomes => hOutline hBecomes.1) rfl
  | none =>
    obtain ⟨_, ⟨hNone, _⟩ | ⟨ts, id, hDone, hMade, _⟩⟩ := of_completion hParent h
    · cases hNone.symm.trans hBook
    · cases hMade.symm.trans hBook
      obtain ⟨front, t, back, sub, hTasks, _, _, _, hAfter⟩ := of_completeSubtask hDone
      refine .altered ts ?_ rfl
      rw [hTasks, hAfter]
      have hSame (us : List Task) : List.Forall₂ (c.AltersAmong s.now s.book.tasks) us us :=
        List.forall₂_same.mpr fun _ _ => hOutline .kept
      rw [hTasks] at hSame hOutline
      exact List.rel_append (hSame front) (.cons (hOutline (.outlined _)) (hSame back))

theorem reshapes_of_effect (h : c.effect s n = .ok (e, n')) (hBook : e.book = some b) : c.Reshapes s n b n' := by
  by_cases hSeeks : c.seeksTitles = true
  · exact reshapes_of_seeksTitles hSeeks h hBook
  · unfold seeksTitles at hSeeks
    unfold effect at h
    cases hKind : c.kind <;> simp only [hKind, not_true_eq_false] at hSeeks h
    case add =>
      obtain ⟨task, m, hNew, h⟩ := Fresh.bind_eq_ok.mp h
      obtain ⟨conflict, k, hConflict, h⟩ := Fresh.bind_eq_ok.mp h
      obtain ⟨_, rfl⟩ := Fresh.lift_eq_ok.mp hConflict
      obtain ⟨rfl, rfl⟩ := Fresh.pure_eq_ok.mp h
      cases hBook
      exact .added task hNew rfl
    case archive =>
      rw [Bool.not_eq_true', Bool.not_eq_false] at hSeeks
      exact reshapes_of_archiveCompleted hKind hSeeks h hBook
    case subtask => exact reshapes_of_subtask hKind h hBook
    case project =>
      obtain ⟨rfl, _⟩ := Fresh.pure_eq_ok.mp h
      unfold createProject at hBook
      split at hBook
      · cases hBook
      · split at hBook
        · cases hBook
        · rename_i name _ hNew
          cases hBook
          exact .founded name (by simpa using hNew) rfl
    case summarize =>
      obtain ⟨hSummary, _⟩ := Fresh.lift_eq_ok.mp h
      obtain ⟨_, _, hSummary⟩ := Attempt.bind_eq_ok.mp hSummary
      cases Attempt.pure_eq_ok.mp hSummary
      cases hBook
    case filter =>
      obtain ⟨rfl, _⟩ := Fresh.pure_eq_ok.mp h
      unfold filter at hBook
      split at hBook <;> cases hBook
    all_goals
      obtain ⟨rfl, _⟩ := Fresh.pure_eq_ok.mp h
      cases hBook

/-! ## New tasks -/

theorem reminders_of_mapM {times : List Moment} {kind : ReminderKind} {reminders : List Reminder}
    (h : times.mapM (fun m => Fresh.reminder m kind) n = .ok (reminders, n')) :
    reminders.map (·.time) = times ∧ ∀ r ∈ reminders, r.notified = false := by
  have hReminders := Fresh.of_mapM h
  clear h
  induction hReminders with
  | nil => exact ⟨rfl, by simp⟩
  | cons hFirst _ ih =>
    obtain ⟨_, _, hFirst⟩ := hFirst
    obtain ⟨rfl, _⟩ := Fresh.reminder_eq_ok.mp hFirst
    exact ⟨congrArg (List.cons _) ih.1, List.forall_mem_cons.mpr ⟨rfl, ih.2⟩⟩

/-- What a new task takes over from the command. -/
structure Founds (c : Command) (t : Task) : Prop where
  project : t.project = c.project
  due : t.due = c.due
  times : t.reminders.map (·.time) = c.reminderTime.toList
  unnotified : ∀ r ∈ t.reminders, r.notified = false

theorem founds_of_newTask {t : Task} (h : c.newTask now n = .ok (t, n')) : c.Founds t := by
  unfold newTask at h
  extract_lets title at h
  obtain ⟨reminders, m, hReminders, h⟩ := Fresh.bind_eq_ok.mp h
  dsimp only at h
  by_cases hTitle : title = ""
  · rw [if_pos hTitle] at h
    obtain ⟨_, _, hThrow, _⟩ := Fresh.bind_eq_ok.mp h
    exact absurd hThrow Fresh.throw_eq_ok
  · rw [if_neg hTitle] at h
    obtain ⟨id, k, _, h⟩ := Fresh.bind_eq_ok.mp h
    obtain ⟨rfl, _⟩ := Fresh.pure_eq_ok.mp h
    obtain ⟨hTimes, hUnnotified⟩ := reminders_of_mapM hReminders
    exact ⟨rfl, rfl, hTimes, hUnnotified⟩

end Agenda.Command
