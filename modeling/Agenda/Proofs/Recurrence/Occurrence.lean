import Agenda.Proofs.Recurrence.Next
import Agenda.Proofs.Task.Course

/-! # What the next occurrence takes over

A completed task whose rule goes on is renewed: its dates move on together, its progress is reset and
the rest is kept. No other task is renewed. Only a date beyond the calendar keeps a task whose times
can be compared from being looked at.
-/

namespace Agenda

namespace Task

variable {t t' : Task} {now oldDue newDue : Moment} {n n' : Nat}

/-- The next occurrence of a task: the old and the new due date are as far apart as the old and the new
start, and every relative reminder is as long before the one as before the other. -/
structure Repeats (oldDue newDue : Moment) (t t' : Task) : Prop extends Follows oldDue newDue t t' where
  pending : t'.status = .pending
  start : Option.Rel (fun s s' => s'.offset = s.offset ∧ s'.instant - s.instant = newDue.instant - oldDue.instant)
    t.start t'.start
  leads : List.Forall₂ (fun r r' => r.kind = .relative → newDue.minus r'.time = oldDue.minus r.time)
    t.reminders t'.reminders
  subtasks : List.Forall₂ (fun s s' => s'.text = s.text ∧ s'.done = false) t.subtasks t'.subtasks
  title : t'.title = t.title
  notes : t'.notes = t.notes
  tags : t'.tags = t.tags
  priority : t'.priority = t.priority
  minutes : t'.minutes = t.minutes
  recurrence : t'.recurrence = t.recurrence

/-- The due date can be compared with the reminders and with the end of the rule, as it can where no
time has an offset. -/
structure OneKind (t : Task) : Prop where
  reminders : ∀ due ∈ t.due, ∀ r ∈ t.reminders, due.comparable r.time = true
  ending : ∀ due ∈ t.due, ∀ rule ∈ t.recurrence, ∀ last ∈ rule.endDate, last.comparable due = true

/-- The dates that move on with the due date stay in the calendar. -/
structure MovesOn (t : Task) (oldDue newDue : Moment) : Prop where
  start : ∀ s ∈ t.start, ∃ s', s.plus (newDue.instant - oldDue.instant) = .ok s'
  reminders : ∀ r ∈ t.reminders, r.kind = .relative → ∃ m, newDue.plus (r.time.instant - oldDue.instant) = .ok m

/-- No date that a renewal of the task reckons leaves the calendar. -/
structure InCalendar (t : Task) : Prop where
  overflow : t.nextDue ≠ .error .dateOverflow
  date : t.nextDue ≠ .error .noSuchDate
  moved : ∀ oldDue newDue, t.due = some oldDue → t.nextDue = .ok (some newDue) → t.MovesOn oldDue newDue

theorem exists_nextDue (hKind : t.OneKind) (hCalendar : t.InCalendar) : ∃ found, t.nextDue = .ok found := by
  obtain ⟨hOverflow, hDate, _⟩ := hCalendar
  unfold nextDue at *
  cases hRule : t.recurrence with
  | none => exact ⟨none, rfl⟩
  | some rule =>
    cases hDue : t.due with
    | none => exact ⟨none, rfl⟩
    | some due =>
      simp only [hRule, hDue] at hOverflow hDate ⊢
      split at hOverflow
      · rename_i hDone
        rw [if_pos hDone] at hDate ⊢
        exact Recurrence.exists_next (hKind.ending due hDue rule hRule) hOverflow hDate
      · rename_i hDone
        rw [if_neg hDone]
        exact ⟨none, rfl⟩

/-! ## What it is like -/

theorem minus_of_carries {r r' : Reminder} (h : r.Carries oldDue newDue r') (hKind : r.kind = .relative) :
    newDue.minus r'.time = oldDue.minus r.time := by
  have hTime := h.time
  simp only [hKind] at hTime
  obtain ⟨lead, hLead, hMoved⟩ := hTime
  rw [hLead, Moment.minus_of_plus hMoved]

theorem moved_of_mapM {s s' : Option Moment} {shift : Int} (hShift : newDue.minus oldDue = .ok shift)
    (h : s.mapM (·.plus shift) = .ok s') :
    Option.Rel (fun m m' => m'.offset = m.offset ∧ m'.instant - m.instant = newDue.instant - oldDue.instant) s s' := by
  unfold Moment.minus at hShift
  split at hShift <;> cases hShift
  cases s with
  | none =>
    cases h
    exact .none
  | some m =>
    obtain ⟨m', hMoved, rfl⟩ := Attempt.map_eq_ok.mp h
    refine .some ⟨(Moment.plus_eq_ok.mp hMoved).2, ?_⟩
    rw [Moment.instant_plus hMoved]
    omega

theorem repeats_of_occurrence (hDue : t.due = some oldDue) (h : t.occurrence oldDue newDue now n = .ok (t', n')) :
    Repeats oldDue newDue t t' ∧ t'.createdAt = now := by
  have hFollows := follows_of_occurrence hDue h
  obtain ⟨id, m, _, h⟩ := Fresh.bind_eq_ok.mp h
  obtain ⟨shift, m, hShift, h⟩ := Fresh.bind_eq_ok.mp h
  obtain ⟨start, m, hStart, h⟩ := Fresh.bind_eq_ok.mp h
  obtain ⟨subtasks, m, hSubtasks, h⟩ := Fresh.bind_eq_ok.mp h
  obtain ⟨reminders, k, _, h⟩ := Fresh.bind_eq_ok.mp h
  obtain ⟨rfl, _⟩ := Fresh.pure_eq_ok.mp h
  refine ⟨⟨hFollows, rfl, ?start, ?leads, ?subtasks, rfl, rfl, rfl, rfl, rfl, rfl⟩, rfl⟩
  case start =>
    obtain ⟨hShift, _⟩ := Fresh.lift_eq_ok.mp hShift
    obtain ⟨hStart, _⟩ := Fresh.lift_eq_ok.mp hStart
    exact moved_of_mapM hShift hStart
  case leads => exact hFollows.reminders.imp fun _ _ => minus_of_carries
  case subtasks =>
    refine (Fresh.of_mapM hSubtasks).imp ?_
    rintro s s' ⟨_, _, hMade⟩
    obtain ⟨_, rfl, _⟩ := Fresh.subtask_eq_ok.mp hMade
    exact ⟨rfl, rfl⟩

/-! ## When there is one -/

theorem succeeds_carried {r : Reminder} (hKind : oldDue.comparable r.time = true)
    (hMoved : r.kind = .relative → ∃ m, newDue.plus (r.time.instant - oldDue.instant) = .ok m) :
    Fresh.Succeeds (r.carried oldDue newDue) := by
  unfold Reminder.carried
  cases hRelative : r.kind with
  | absolute => exact Fresh.succeeds_reminder _ _
  | relative =>
    obtain ⟨m, hMoved⟩ := hMoved hRelative
    refine Fresh.succeeds_bind_lift (if_pos hKind) ?_
    refine Fresh.succeeds_bind_lift (a := m) ?_ (Fresh.succeeds_reminder _ _)
    rwa [Int.neg_sub]

theorem exists_start {s : Option Moment} {shift : Int} (h : ∀ m ∈ s, ∃ m', m.plus shift = .ok m') :
    ∃ s', s.mapM (·.plus shift) = .ok s' := by
  cases s with
  | none => exact ⟨none, rfl⟩
  | some m =>
    obtain ⟨m', hMoved⟩ := h m rfl
    exact ⟨some m', Attempt.map_eq_ok.mpr ⟨m', hMoved, rfl⟩⟩

theorem succeeds_occurrence (hOffset : newDue.offset = oldDue.offset) (hTexts : ∀ s ∈ t.subtasks, s.text ≠ "")
    (hKind : ∀ r ∈ t.reminders, oldDue.comparable r.time = true) (hMoves : t.MovesOn oldDue newDue) :
    Fresh.Succeeds (t.occurrence oldDue newDue now) := by
  unfold occurrence
  obtain ⟨start, hStart⟩ := exists_start hMoves.start
  -- Apart from the dates, only a subtask without a text could fail.
  refine Fresh.succeeds_bind Fresh.succeeds_newId fun id => ?_
  refine Fresh.succeeds_bind_lift (if_pos (Moment.comparable_of_offset hOffset)) ?_
  refine Fresh.succeeds_bind_lift hStart ?_
  refine Fresh.succeeds_bind (Fresh.succeeds_mapM fun s hs => Fresh.succeeds_subtask (hTexts s hs)) fun subtasks => ?_
  refine Fresh.succeeds_bind (Fresh.succeeds_mapM fun r hr => ?_) fun reminders => Fresh.succeeds_pure _
  exact succeeds_carried (hKind r hr) (hMoves.reminders r hr)

/-- A task is renewed exactly if it is completed and has a rule with a next date. All dates move on
together, by the way from the old due date to the new one, the progress is reset, the identity was
never drawn before, and the rest is kept. -/
theorem renewed_repeats (hTexts : ∀ s ∈ t.subtasks, s.text ≠ "") (hKind : t.OneKind) (hCalendar : t.InCalendar)
    (now : Moment) (n : Nat) :
    ∃ found n', t.renewed now n = .ok (found, n') ∧
      (found.isSome = true ↔ t.status = .completed ∧ ∃ rule oldDue newDue,
        t.recurrence = some rule ∧ t.due = some oldDue ∧ rule.next oldDue = .ok (some newDue)) ∧
      ∀ t' ∈ found, (∃ rule oldDue newDue, t.recurrence = some rule ∧ rule.next oldDue = .ok (some newDue) ∧
          Repeats oldDue newDue t t') ∧
        t'.createdAt = now ∧ t'.id = freshId n ∧ n < n' ∧ ∀ j < n, t'.id ≠ freshId j := by
  obtain ⟨next, hNext⟩ := exists_nextDue hKind hCalendar
  cases next with
  | none =>
    refine ⟨none, n, renewed_of_ended hNext, ?_, by simp⟩
    simp only [Option.isSome_none, Bool.false_eq_true, false_iff]
    rintro ⟨hDone, rule, oldDue, newDue, hGoesOn⟩
    rw [nextDue_eq_some.mpr ⟨hDone, rule, oldDue, hGoesOn⟩] at hNext
    cases hNext
  | some newDue =>
    obtain ⟨hDone, rule, oldDue, hRule, hDue, hStep⟩ := nextDue_eq_some.mp hNext
    have hMoves := hCalendar.moved oldDue newDue hDue hNext
    have hSucceeds : Fresh.Succeeds (t.occurrence oldDue newDue now) :=
      succeeds_occurrence (Recurrence.offset_of_next hStep) hTexts (hKind.reminders oldDue hDue) hMoves
    obtain ⟨t', n', hMade⟩ := hSucceeds n
    obtain ⟨hId, hCounter, _, _⟩ := of_occurrence hMade
    obtain ⟨hRepeats, hCreated⟩ := repeats_of_occurrence hDue hMade
    refine ⟨some t', n', renewed_eq_ok.mpr (.inr ⟨oldDue, newDue, t', hDue, hNext, hMade, rfl⟩), ?_, ?_⟩
    · simp only [Option.isSome_some, true_iff]
      exact ⟨hDone, rule, oldDue, newDue, hRule, hDue, hStep⟩
    · rintro _ ⟨⟩
      refine ⟨⟨rule, oldDue, newDue, hRule, hStep, hRepeats⟩, hCreated, hId, hCounter, fun j hj hSame => ?_⟩
      have := freshId_injective (hId.symm.trans hSame)
      omega

def firstEvening : Moment := .on ⟨738899, by decide⟩ (.atHour 17)

def secondEvening : Moment := .on ⟨738901, by decide⟩ (.atHour 17)

def watering : Task :=
  { id := "w", title := "Water plants", status := .completed, createdAt := .on ⟨738898, by decide⟩ .noon
    due := some firstEvening, start := some (.on ⟨738899, by decide⟩ (.atHour 16))
    subtasks := [{ id := "s", text := "balcony", done := true }]
    recurrence := some { rhythm := .daily, interval := 2 }
    reminders := [
      { id := "r", time := .on ⟨738899, by decide⟩ (.atHour 15), notified := true, kind := .relative },
      { id := "q", time := .on ⟨738899, by decide⟩ (.atHour 8), notified := true }] }

theorem watering_again : ∃ t' n', watering.renewed watering.createdAt 7 = .ok (some t', n') ∧
    Repeats firstEvening secondEvening watering t' := by
  have hNext : watering.nextDue = .ok (some secondEvening) := rfl
  have hMoves : watering.MovesOn firstEvening secondEvening := by
    refine ⟨?_, List.forall_mem_cons.mpr ⟨fun _ => ⟨_, rfl⟩, List.forall_mem_singleton.mpr (by rintro ⟨⟩)⟩⟩
    rintro _ ⟨⟩
    exact ⟨_, rfl⟩
  have hCalendar : watering.InCalendar := by
    refine ⟨by simp [hNext], by simp [hNext], fun oldDue newDue hDue hSame => ?_⟩
    cases hDue
    cases hNext.symm.trans hSame
    exact hMoves
  have hKind : watering.OneKind := ⟨by rintro _ ⟨⟩; decide, by rintro _ ⟨⟩ _ ⟨⟩ _ ⟨⟩⟩
  obtain ⟨found, n', hRenewed, hSome, hRepeats⟩ := renewed_repeats (by decide) hKind hCalendar watering.createdAt 7
  obtain ⟨t', rfl⟩ := Option.isSome_iff_exists.mp (hSome.mpr ⟨rfl, _, _, _, rfl, rfl, hNext⟩)
  obtain ⟨⟨rule, _, _, hRule, hStep, hAgain⟩, _⟩ := hRepeats t' rfl
  cases hRule
  cases hAgain.old
  cases hStep
  exact ⟨t', n', hRenewed, hAgain⟩

end Task

end Agenda
