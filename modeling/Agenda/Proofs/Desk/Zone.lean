import Agenda.Proofs.Desk.Course
import Agenda.Proofs.Extract.Zone
import Agenda.Proofs.Recurrence.Next

/-! # Times on a desk

An offset comes to the desk only with the due date of an update. Without one, all due dates and
reminders are local: commands bring local times, and what is reckoned from a local time is local.
-/

namespace Agenda

/-- The due date and the reminders of a task have no offset. -/
structure Task.Local (t : Task) : Prop where
  due : ∀ m, t.due = some m → m.isLocal = true
  reminders : ∀ r ∈ t.reminders, r.time.isLocal = true

namespace Command

variable {c : Command} {now due : Moment} {t t' : Task} {n n' : Nat}

theorem isLocal_later {m : Moment} {amount : Int} {unit : SnoozeUnit} (h : later m amount unit = .ok due) :
    due.isLocal = m.isLocal := by
  cases unit with
  | days | weeks => exact Moment.isLocal_plus h
  | months => exact Moment.isLocal_plusMonths h

theorem isLocal_dueOrToday (h : t.Local) : (dueOrToday t now).isLocal = true := by
  unfold dueOrToday
  cases hDue : t.due with
  | none => rfl
  | some due => exact h.due due hDue

theorem local_reminded {r : Reminder} (h : t.Local) (hTime : r.time.isLocal = true) : (reminded t r).Local := by
  refine ⟨h.due, ?_⟩
  intro s hs
  rcases List.mem_append.mp hs with hs | hs
  · exact h.reminders s hs
  · rwa [List.mem_singleton.mp hs]

theorem local_of_alters (hLocal : c.Local) (h : t.Local) (hAlters : c.Alters now t t') : t'.Local := by
  cases hAlters with
  | kept | restated | retagged | prioritized | outlined => exact ⟨h.due, h.reminders⟩
  | scheduled => exact ⟨hLocal.due, h.reminders⟩
  | snoozed due _ hLater =>
    refine ⟨?_, h.reminders⟩
    rintro _ ⟨⟩
    exact (isLocal_later hLater).trans (isLocal_dueOrToday h)
  | repeated =>
    refine ⟨?_, h.reminders⟩
    rintro _ ⟨⟩
    exact isLocal_dueOrToday h
  | remindedBefore hours due time id _ _ hDue hTime =>
    exact local_reminded h ((Moment.isLocal_plus hTime).trans (h.due due hDue))
  | remindedAt time id _ _ hTime => exact local_reminded h (hLocal.reminder time hTime)

theorem local_of_newTask (hLocal : c.Local) (h : c.newTask now n = .ok (t, n')) : t.Local := by
  have hFounds := founds_of_newTask h
  constructor
  · rw [hFounds.due]
    exact hLocal.due
  · intro r hr
    have hTime : r.time ∈ c.reminderTime.toList := hFounds.times ▸ List.mem_map_of_mem hr
    exact hLocal.reminder r.time (Option.mem_toList.mp hTime)

end Command

theorem Recurrence.isLocal_next {rule : Recurrence} {due next : Moment} (h : rule.next due = .ok (some next)) :
    next.isLocal = due.isLocal :=
  congrArg Option.isNone (offset_of_next h)

namespace Task

variable {t t' : Task}

theorem Local.rung (h : t.Local) (now : Moment) : (t.rung now).Local := by
  refine ⟨h.due, ?_⟩
  intro r hr
  obtain ⟨s, hs, rfl⟩ := List.mem_map.mp hr
  have hTime : (s.rung now).time = s.time := by
    unfold Reminder.rung
    split <;> rfl
  rw [hTime]
  exact h.reminders s hs

theorem local_of_renews (h : t.Local) (hRenews : t.Renews t') : t'.Local := by
  obtain ⟨rule, oldDue, newDue, _, hNext, hFollows⟩ := hRenews
  have hDue : newDue.isLocal = true := (Recurrence.isLocal_next hNext).trans (h.due oldDue hFollows.old)
  constructor
  · rw [hFollows.due]
    rintro _ ⟨⟩
    exact hDue
  · intro r' hr'
    obtain ⟨r, hr, hCarries⟩ := Attempt.exists_of_mem_paired hFollows.reminders hr'
    have hTime := hCarries.time
    split at hTime
    · obtain ⟨lead, _, hPlus⟩ := hTime
      exact (Moment.isLocal_plus hPlus).trans hDue
    · rw [hTime]
      exact h.reminders r hr

end Task

/-! ## Operations -/

namespace Operation

/-- The operation takes place at a local time. -/
def LocalNow : Operation → Prop
  | submit _ _ now | toggle _ now | update _ _ now | completeAll _ now | archiveAll _ now | sweep now
  | remind _ now _ _ => now.isLocal = true
  | delete _ | deleteAll _ => True

/-- An update sets no due date with an offset. -/
def LocalDue : Operation → Prop
  | update _ fields _ => ∀ v m, ("due_date", v) ∈ fields → Value.decodeMoment v = .ok m → m.isLocal = true
  | _ => True

variable {op : Operation} {d d' : Desk} {m : Means} {text : String} {now : Moment} {c : Command} {t t' : Task}

theorem local_of_resolve {route : Route} (hNow : now.isLocal = true)
    (h : (Desk.resolve m text now).after d = (.ok (some c, route), d')) : c.Local := by
  cases Desk.found_of_resolve h with
  | rule hParse _ => exact Command.local_of_parse hParse
  | intent hRoute => exact Asking.of_result (Intent.gives_route _ _ _) hRoute c rfl
  | extraction hRun hTask => exact ParsedTask.local_command (Asking.of_result (Extract.gives_pipeline hNow) hRun _ hTask)

theorem local_of_understood (hNow : now.isLocal = true) (h : Understood m text now d c) : c.Local := by
  obtain ⟨c₀, route, d₁, d₂, hResolve, hTagged⟩ := h
  have hLocal := local_of_resolve hNow hResolve
  unfold Desk.tagged at hTagged
  split at hTagged
  · rcases OnDesk.after_bind_eq.mp hTagged with ⟨_, _, ⟨⟩⟩ | ⟨tag, d₃, _, hTagged⟩
    cases hTagged
    exact ⟨hLocal.due, hLocal.reminder⟩
  · cases hTagged
    exact hLocal

theorem not_reminders_of_patches {id : String} {fields : Entries} (hOp : (update id fields now).Patches) :
    ∀ p ∈ fields, p.1 ≠ "reminders" := by
  intro p hp hKey
  have hKnown := hOp p hp
  rw [hKey] at hKnown
  exact absurd hKnown (by decide)

theorem local_of_turns (hPatches : op.Patches) (hNow : op.LocalNow) (hDue : op.LocalDue) (h : t.Local)
    (hTurns : op.Turns d t t') : t'.Local := by
  cases op with
  | submit m text now =>
    obtain ⟨c, hUnderstood, hAlters, _⟩ := hTurns
    exact Command.local_of_alters (local_of_understood hNow hUnderstood) h hAlters
  | toggle | completeAll | archiveAll =>
    obtain ⟨status, rfl⟩ := hTurns
    exact ⟨h.due, h.reminders⟩
  | update id fields now =>
    obtain ⟨_, n, n', hNew⟩ := hTurns
    constructor
    · intro due hHas
      rcases Task.due_of_overwritten hNew with hKept | ⟨v, hv, hDecoded⟩
      · exact h.due due (hKept.symm.trans hHas)
      · rw [hHas] at hDecoded
        exact hDue v due hv (Value.of_decodeOption hDecoded)
    · rw [Task.reminders_of_overwritten (not_reminders_of_patches hPatches) hNew]
      exact h.reminders
  | delete | deleteAll | sweep => cases hTurns
  | remind m now tick forced =>
    obtain rfl : t' = t.rung now := hTurns
    exact h.rung now

theorem local_of_ended {r : Except Fault Unit} (hPatches : op.Patches) (hNow : op.LocalNow) (hDue : op.LocalDue)
    (hd : d.Drawn) (h : op.Ended d r d') (hAll : ∀ t ∈ d.book.tasks, t.Local) : ∀ t ∈ d'.book.tasks, t.Local := by
  refine forall_of_ended hd h (fun t t' _ => local_of_turns hPatches hNow hDue) ?brought ?renewed hAll
  case brought =>
    intro t hBrings
    cases op with
    | submit m text now =>
      obtain ⟨c, n, n', hUnderstood, hNew, _⟩ := hBrings
      exact Command.local_of_newTask (local_of_understood hNow hUnderstood) hNew
    | _ => cases hBrings
  case renewed => exact fun t t' => Task.local_of_renews

/-- Operations at local times whose updates set no due dates with an offset leave local times. -/
theorem local_of_run {ops : List Operation}
    (hOps : ∀ op ∈ ops, op.Patches ∧ op.LocalNow ∧ op.LocalDue) (hd : d.Drawn) (hAll : ∀ t ∈ d.book.tasks, t.Local) :
    ∀ t ∈ (run ops d).book.tasks, t.Local := by
  induction ops generalizing d with
  | nil => exact hAll
  | cons op ops ih =>
    rw [List.forall_mem_cons] at hOps
    obtain ⟨⟨hPatches, hNow, hDue⟩, hOps⟩ := hOps
    have hEnded := op.ended d
    exact ih hOps (drawn_of_ended hd hEnded) (local_of_ended hPatches hNow hDue hd hEnded hAll)

end Operation

end Agenda
