import Agenda.Proofs.Command.Outcome
import Agenda.Proofs.Command.Ready
import Agenda.Proofs.Summary
import Agenda.Proofs.Task.Stored

/-! # Carrying out what was read

A command with all that its kind needs has an effect on every book of tasks without offsets, but for
three kinds that reckon with dates: they may leave the calendar.
-/

namespace Agenda

/-- The computation fails, from whatever number on, in the given ways only. -/
def Fresh.FailsOnly {α : Type} (ways : Fault → Prop) (x : Fresh α) : Prop :=
  ∀ n f, x n = .error f → ways f

namespace Fresh.FailsOnly

variable {α β : Type} {ways : Fault → Prop} {x : Fresh α} {g : α → Fresh β}

theorem pure (a : α) : FailsOnly ways (Pure.pure a) := by
  rintro n f ⟨⟩

theorem bind_of (hx : FailsOnly ways x) (hg : ∀ n a m, x n = .ok (a, m) → FailsOnly ways (g a)) :
    FailsOnly ways (x >>= g) := by
  intro n f h
  obtain h | ⟨⟨a, m⟩, ha, h⟩ := Attempt.bind_eq_error.mp h
  · exact hx n f h
  · exact hg n a m ha m f h

theorem bind (hx : FailsOnly ways x) (hg : ∀ a, FailsOnly ways (g a)) : FailsOnly ways (x >>= g) :=
  hx.bind_of fun _ a _ _ => hg a

theorem lift {y : Except Fault α} (h : ∀ f, y = .error f → ways f) : FailsOnly ways (monadLift y : Fresh α) := by
  intro n f hError
  obtain hError | ⟨a, _, ⟨⟩⟩ := Attempt.bind_eq_error.mp hError
  exact h f hError

theorem ite {p : Prop} [Decidable p] {y : Fresh α} (hx : p → FailsOnly ways x) (hy : ¬ p → FailsOnly ways y) :
    FailsOnly ways (if p then x else y) := by
  split
  · exact hx ‹_›
  · exact hy ‹_›

theorem newId : FailsOnly ways newId := by
  rintro n f ⟨⟩

theorem reminder (time : Moment) (kind : ReminderKind) : FailsOnly ways (reminder time kind) :=
  newId.bind fun _ => .pure _

theorem subtask {text : String} (h : text ≠ "") : FailsOnly ways (subtask text) :=
  newId.bind fun _ => .ite (fun hText => absurd hText h) fun _ => .pure _

end Fresh.FailsOnly

namespace Command

open Fresh

variable {ways : Fault → Prop} {c : Command} {s : Setting} {all : Bool} {hit : Task → Bool}
  {change : Task → Fresh Task} {tasks : List Task}

theorem failsOnly_changeMatching (h : ∀ t ∈ tasks, hit t = true → FailsOnly ways (change t)) :
    FailsOnly ways (changeMatching all hit change tasks) := by
  induction tasks with
  | nil => exact .pure _
  | cons t tasks ih =>
    obtain ⟨ht, hTasks⟩ := List.forall_mem_cons.mp h
    rw [changeMatching]
    refine .ite (fun hHit => (ht hHit).bind fun new => ?_) fun _ => (ih hTasks).bind fun _ => .pure _
    exact .ite (fun _ => (ih hTasks).bind fun _ => .pure _) fun _ => .pure _

theorem failsOnly_updating {eligible : Task → Bool} {what : String} {message : Nat → String}
    (h : ∀ t ∈ s.book.tasks, eligible t = true → FailsOnly ways (change t)) :
    FailsOnly ways (c.updating s eligible what change message) := by
  unfold updating
  refine (failsOnly_changeMatching fun t ht hHit => h t ht (Bool.and_eq_true_iff.mp hHit).1).bind fun _ => ?_
  exact .ite (fun _ => .pure _) fun _ => .pure _

/-! ## Kinds that cannot fail -/

/-- A new task has what the command says and is otherwise as any task begins. -/
theorem exists_newTask (hText : ∀ t, c.taskText = some t → Proper t) (now : Moment) (n : Nat) :
    ∃ reminders id m, c.newTask now n = .ok ({
      id, title := c.taskText.getD "Task", tags := (normalTags ((given c.tag).toList ++ c.tags)).map some
      priority := c.priority, project := c.project, due := c.due, reminders, createdAt := now }, m) := by
  have hReminders (kind : ReminderKind) :
      ∃ rs m, (c.reminderTime.toList.mapM fun time => Fresh.reminder time kind) n = .ok (rs, m) := by
    cases c.reminderTime with
    | none => exact ⟨[], n, rfl⟩
    | some time => exact ⟨_, n + 1, rfl⟩
  obtain ⟨reminders, m, hReminders⟩ := hReminders (if c.due.isSome then .relative else .absolute)
  unfold newTask
  extract_lets title
  have hTitle : title = c.taskText.getD "Task" ∧ title ≠ "" := by
    dsimp only [title]
    split
    · rename_i hNone
      rw [hNone]
      exact ⟨rfl, by decide⟩
    · rename_i hEmpty
      exact absurd rfl (hText "" hEmpty).1
    · rename_i text _ hTaskText
      obtain ⟨hSome, hTrimmed⟩ := hText text hTaskText
      rw [hTaskText, hTrimmed, String.ofList_toList]
      exact ⟨rfl, hSome⟩
  refine ⟨reminders, freshId m, m + 1, Fresh.bind_eq_ok.mpr ⟨reminders, m, hReminders, ?_⟩⟩
  dsimp only
  rw [if_neg hTitle.2, hTitle.1]
  rfl

theorem failsOnly_newTask {now : Moment} (hText : ∀ t, c.taskText = some t → Proper t) :
    FailsOnly ways (c.newTask now) := by
  intro n f h
  obtain ⟨_, _, _, hNew⟩ := exists_newTask hText now n
  rw [hNew] at h
  cases h

/-- Once the conflict of its new task is known, an addition has its effect. -/
theorem effect_of_add {t : Task} {n k : Nat} {conflict : Option Window.Conflict} (hKind : c.kind = .add)
    (hNew : c.newTask s.now n = .ok (t, k)) (hConflict : Window.conflict t s.book.tasks s.minutes = .ok conflict) :
    c.effect s n = .ok ({ say s ("Added task: " ++ t.title ++ (conflict.map conflictText).getD "") with
      book := some { s.book with tasks := s.book.tasks ++ [t], projects := withProject s.book.projects t.project },
      affected := [t.id], task := some t, conflict }, k) := by
  unfold effect add
  rw [hKind]
  refine Fresh.bind_eq_ok.mpr ⟨t, k, hNew, Fresh.bind_eq_ok.mpr ⟨conflict, k, ?_, rfl⟩⟩
  exact Fresh.lift_eq_ok.mpr ⟨hConflict, rfl⟩

theorem failsOnly_add (h : c.Ready) (hKind : c.kind = .add) : FailsOnly ways (c.add s) := by
  have hComplete := h.complete
  simp only [Complete, hKind] at hComplete
  obtain ⟨_, hDue, _⟩ := hComplete
  unfold add
  refine (failsOnly_newTask fun t ht => h.texts t (by simp [freeTexts, ht])).bind_of fun n t m ht => ?_
  refine FailsOnly.bind (.lift ?_) fun _ => .pure _
  intro f hConflict
  obtain ⟨_, _, _, _, _, hUndated⟩ := of_newTask ht
  rw [Window.conflict, hUndated, hDue] at hConflict
  cases hConflict

theorem failsOnly_subtask (h : c.Ready) (hKind : c.kind = .subtask) : FailsOnly ways (c.subtask s) := by
  have hComplete := h.complete
  simp only [Complete, hKind] at hComplete
  obtain ⟨text, hText⟩ := Option.isSome_iff_exists.mp hComplete
  have hProper := h.texts text (by simp [freeTexts, hText])
  unfold subtask
  rw [hText]
  dsimp only [Option.getD_some]
  split
  · unfold addSubtask
    refine FailsOnly.bind (failsOnly_changeMatching fun t _ _ => ?_) fun _ => .ite (fun _ => .pure _) fun _ => .pure _
    exact (FailsOnly.subtask hProper.1).bind fun _ => .pure _
  · split
    · exact .pure _
    · exact .pure _

/-! ## Kinds that reckon with dates -/

/-- A date leaves the calendar. -/
def OffCalendar (f : Fault) : Prop :=
  f = .dateOverflow ∨ f = .noSuchDate

theorem offCalendar_plus {m : Moment} {ticks : Int} {f : Fault} (h : m.plus ticks = .error f) : OffCalendar f :=
  .inl (Moment.plus_eq_error h)

theorem offCalendar_plusMonths {m : Moment} {n : Int} {f : Fault} (h : m.plusMonths n = .error f) :
    OffCalendar f :=
  Moment.plusMonths_eq_error h

theorem offCalendar_later {m : Moment} {amount : Int} {unit : SnoozeUnit} {f : Fault}
    (h : later m amount unit = .error f) : OffCalendar f := by
  cases unit with
  | days => exact offCalendar_plus h
  | weeks => exact offCalendar_plus h
  | months => exact offCalendar_plusMonths h

theorem failsOnly_snooze : FailsOnly OffCalendar (c.snooze s) := by
  unfold snooze
  extract_lets amount unit
  exact failsOnly_updating fun t _ _ => .bind (.lift fun f h => offCalendar_later h) fun _ => .pure _

theorem failsOnly_remind (h : c.Ready) (hKind : c.kind = .remind) : FailsOnly OffCalendar (c.remind s) := by
  have hComplete := h.complete
  simp only [Complete, hKind] at hComplete
  unfold remind
  extract_lets message
  split
  · refine failsOnly_updating fun t _ hDue => ?_
    obtain ⟨due, hDue⟩ := Option.isSome_iff_exists.mp hDue
    unfold remindBefore
    rw [hDue]
    refine .bind (.lift fun f h => offCalendar_plus h) fun _ => .bind (.reminder _ _) fun _ => .pure _
  · rename_i hHours
    rw [hHours] at hComplete
    obtain ⟨time, hTime⟩ := Option.isSome_iff_exists.mp (hComplete.2.resolve_right Bool.false_ne_true)
    refine failsOnly_updating fun t _ _ => ?_
    unfold remindAt
    rw [hTime]
    exact .bind (.reminder _ _) fun _ => .pure _

theorem offCalendar_summarize {f : Fault} (hLocal : ∀ t ∈ s.book.tasks, ∀ m ∈ t.due, m.isLocal = true)
    (h : c.summarize s = .error f) : OffCalendar f := by
  obtain h | ⟨_, _, ⟨⟩⟩ := Attempt.bind_eq_error.mp h
  by_cases hReached : (c.period.getD .today).Reached s.now
  · obtain ⟨ts, -, -, hSummary⟩ := Summary.exists_ofTasks true hReached hLocal
    rw [hSummary] at h
    cases h
  · rw [Summary.ofTasks_of_not_reached hReached] at h
    cases h
    exact .inl rfl

/-! ## Every kind -/

/-- The kinds that compute a date from a date. -/
def reckons (k : CommandKind) : Bool :=
  k matches .snooze | .remind | .summarize

theorem failsOnly_delete : FailsOnly ways (c.delete s) :=
  .bind (failsOnly_changeMatching fun _ _ _ => .pure _) fun _ => .ite (fun _ => .pure _) fun _ => .pure _

theorem failsOnly_archive : FailsOnly ways (c.archive s) := by
  unfold archive
  refine .ite (fun _ => ?_) fun _ => failsOnly_updating fun _ _ _ => .pure _
  extract_lets affected
  exact .ite (fun _ => .pure _) fun _ => .pure _

theorem failsOnly_effect (h : c.Ready) (hLocal : ∀ t ∈ s.book.tasks, ∀ m ∈ t.due, m.isLocal = true) :
    FailsOnly (fun f => OffCalendar f ∧ reckons c.kind = true) (c.effect s) := by
  unfold effect
  cases hKind : c.kind with
  | add => exact failsOnly_add h hKind
  | delete => exact failsOnly_delete
  | archive => exact failsOnly_archive
  | subtask => exact failsOnly_subtask h hKind
  | tick | tag | priority | due | «repeat» => exact failsOnly_updating fun _ _ _ => .pure _
  | filter | project | sort | calendar | dark | light | help | unknown => exact .pure _
  | snooze => exact fun n f hError => ⟨failsOnly_snooze n f hError, rfl⟩
  | remind => exact fun n f hError => ⟨failsOnly_remind h hKind n f hError, rfl⟩
  | summarize => exact .lift fun f hError => ⟨offCalendar_summarize hLocal hError, rfl⟩

/-- Every command that was read can be carried out on every book of tasks without offsets, unless it
reckons with dates and leaves the calendar. -/
theorem ready_and_effect_of_parse {text : List Char} (hParse : parse text now = .ok c) (hKnown : c.kind ≠ .unknown) :
    c.Ready ∧ ∀ s n, (∀ t ∈ s.book.tasks, ∀ m ∈ t.moments, m.isLocal = true) →
      (∃ e n', c.effect s n = .ok (e, n')) ∨
        ∃ f, c.effect s n = .error f ∧ (f = .dateOverflow ∨ f = .noSuchDate) ∧ reckons c.kind = true := by
  have hReady := ready_of_parse hParse hKnown
  refine ⟨hReady, fun s n hTasks => ?_⟩
  have hLocal : ∀ t ∈ s.book.tasks, ∀ m ∈ t.due, m.isLocal = true := by
    intro t ht m hm
    exact hTasks t ht m (by simp [Task.moments, Option.mem_toList.mpr hm])
  cases hEffect : c.effect s n with
  | ok r => exact .inl ⟨r.1, r.2, rfl⟩
  | error f => exact .inr ⟨f, rfl, failsOnly_effect hReady hLocal n f hEffect⟩

def snoozeReports : Command :=
  { kind := .snooze, search := some "weekly report", allMatches := true, snoozeAmount := some 2, snoozeUnit := some .weeks }

theorem ready_snoozeReports :
    parse "snooze  ALL weekly report 2 weeks ".toList (.on ⟨739037, by decide⟩ .noon) = .ok snoozeReports ∧
      snoozeReports.kind ≠ .unknown ∧ snoozeReports.Ready ∧
      ∀ s n, (∀ t ∈ s.book.tasks, ∀ m ∈ t.moments, m.isLocal = true) →
        (∃ e n', snoozeReports.effect s n = .ok (e, n')) ∨
          ∃ f, snoozeReports.effect s n = .error f ∧ (f = .dateOverflow ∨ f = .noSuchDate) ∧
            reckons snoozeReports.kind = true :=
  have hParse : parse "snooze  ALL weekly report 2 weeks ".toList (.on ⟨739037, by decide⟩ .noon) =
    .ok snoozeReports := by rfl
  ⟨hParse, by decide, ready_and_effect_of_parse hParse (by decide)⟩

end Command

end Agenda
