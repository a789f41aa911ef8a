import Agenda.Proofs.Desk.Reminder

/-! # Relative reminders

A command to remind some hours before the due date adds a reminder with that lead. The lead lasts, and
next occurrences take it over, until the task is given another due date: the reminder keeps its time
then, and with it a lead of another length.
-/

namespace Agenda

theorem Moment.plus_right_cancel {a b r : Moment} {n : Int} (ha : a.plus n = .ok r) (hb : b.plus n = .ok r) :
    a = b := by
  obtain ⟨hTicks, hOffset⟩ := plus_eq_ok.mp ha
  obtain ⟨hTicks', hOffset'⟩ := plus_eq_ok.mp hb
  exact Moment.ext (by omega) (hOffset.symm.trans hOffset')

namespace Task

variable {t t' : Task} {i : Nat} {lead : Int}

/-- The reminder at a place is relative, and its time is a lead before the due date. -/
def Leads (i : Nat) (lead : Int) (t : Task) : Prop :=
  ∃ due r, t.due = some due ∧ t.reminders[i]? = some r ∧ r.kind = .relative ∧ due.plus (-lead) = .ok r.time

theorem Leads.of_holds (h : t.Leads i lead) (hHolds : t.Holds t') (hDue : t'.due = t.due) : t'.Leads i lead := by
  obtain ⟨due, r, hHas, hr, hKind, hTime⟩ := h
  obtain ⟨r', hr', hPersists⟩ := hHolds i r hr
  exact ⟨due, r', hDue.trans hHas, hr', hPersists.kind.trans hKind, by rw [hPersists.time, hTime]⟩

/-- Where a reminder persists, its lead is what it was only if the due date is. -/
theorem leads_iff_of_holds (h : t.Leads i lead) (hHolds : t.Holds t') : t'.Leads i lead ↔ t'.due = t.due := by
  refine ⟨?_, h.of_holds hHolds⟩
  rintro ⟨due', r', hHas', hr', _, hTime'⟩
  obtain ⟨due, r, hHas, hr, _, hTime⟩ := h
  obtain ⟨s, hs, hPersists⟩ := hHolds i r hr
  obtain rfl : r' = s := Option.some.inj (hr'.symm.trans hs)
  rw [hPersists.time] at hTime'
  rw [hHas', hHas, Moment.plus_right_cancel hTime' hTime]

theorem Leads.of_renews (h : t.Leads i lead) (hRenews : t.Renews t') : t'.Leads i lead := by
  obtain ⟨due, r, hHas, hr, hKind, hTime⟩ := h
  obtain ⟨rule, oldDue, newDue, _, _, hFollows⟩ := hRenews
  obtain rfl : oldDue = due := Option.some.inj (hFollows.old.symm.trans hHas)
  obtain ⟨r', hr', hCarries⟩ := Attempt.getElem?_right_of_paired hFollows.reminders hr
  have hCarried := hCarries.time
  rw [hKind] at hCarried
  obtain ⟨found, hFound, hTime'⟩ := hCarried
  rw [Moment.minus_of_plus hTime] at hFound
  cases hFound
  exact ⟨newDue, r', hFollows.due, hr', hCarries.kind.trans hKind, hTime'⟩

end Task

namespace Operation

variable {op : Operation} {ops : List Operation} {d d' : Desk} {t t' u : Task} {x : String} {i : Nat} {lead : Int}

/-- The operation is to give a task another due date. -/
def Reschedules (x : String) (d : Desk) : Operation → Prop
  | submit m text now => ∃ c, Understood m text now d c ∧ (c.kind = .due ∨ c.kind = .snooze) ∧
      x ∈ c.sought d.book.tasks
  | update id fields _ => id = x ∧ ∃ v, ("due_date", v) ∈ fields
  | _ => False

theorem due_of_alters {c : Command} {now due : Moment} (hNot : c.kind ≠ .due ∧ c.kind ≠ .snooze)
    (hDue : t.due = some due) (h : c.Alters now t t') : t'.due = t.due := by
  cases h with
  | scheduled hKind => exact absurd hKind hNot.1
  | snoozed _ hKind _ => exact absurd hKind hNot.2
  | repeated => simp [Command.dueOrToday, hDue]
  | _ => rfl

theorem due_of_turns {due : Moment} (hNot : ¬ op.Reschedules t.id d) (hDue : t.due = some due)
    (h : op.Turns d t t') : t'.due = t.due := by
  cases op with
  | submit m text now =>
    obtain ⟨c, hUnderstood, hAlters, hSame⟩ := h
    by_cases hKind : c.kind = .due ∨ c.kind = .snooze
    · have hSeeks : c.seeksTitles = true := by rcases hKind with hKind | hKind <;> simp [Command.seeksTitles, hKind]
      rw [hSame hSeeks fun hSought => hNot ⟨c, hUnderstood, hKind, hSought⟩]
    · exact due_of_alters (not_or.mp hKind) hDue hAlters
  | toggle | completeAll | archiveAll =>
    obtain ⟨status, rfl⟩ := h
    rfl
  | update id fields now =>
    obtain ⟨hId, n, n', hNew⟩ := h
    rcases Task.due_of_overwritten hNew with hKept | ⟨v, hv, _⟩
    · exact hKept
    · exact absurd ⟨hId.symm, v, hv⟩ hNot
  | delete | deleteAll | sweep => cases h
  | remind m now tick forced =>
    obtain rfl : t' = t.rung now := h
    rfl

theorem leads_of_turns (hPatches : op.Patches) (hNot : ¬ op.Reschedules t.id d) (hLeads : t.Leads i lead)
    (h : op.Turns d t t') : t'.Leads i lead := by
  have ⟨due, _, hDue, _⟩ := hLeads
  exact hLeads.of_holds (holds_of_turns hPatches h) (due_of_turns hNot hDue h)

/-- A next occurrence that an operation adds is made of its task, as it is after the operation. -/
theorem renews_of_ended {r : Except Fault Unit} (hd : d.Drawn) (h : op.Ended d r d') (ht : t ∈ d.book.tasks)
    (ht' : t' ∈ d'.book.tasks) (hNew : t'.id ∉ d.ids) (hSource : t'.source = some t.id) :
    ∃ u, (u = t ∨ op.Turns d t u) ∧ u.Renews t' := by
  cases comes_of_ended hd h ht' with
  | kept hu => exact absurd (List.mem_map_of_mem hu) hNew
  | turned hu hId _ => exact absurd (hId ▸ List.mem_map_of_mem hu) hNew
  | brought _ hNone => cases hNone.symm.trans hSource
  | @renewed u _ hComes _ hRenews =>
    refine ⟨u, ?_, hRenews⟩
    have hId : u.id = t.id := by
      obtain ⟨_, _, _, _, _, hFollows⟩ := hRenews
      exact Option.some.inj (hFollows.source.symm.trans hSource)
    have hOld : u.id ∈ d.ids := hId ▸ List.mem_map_of_mem ht
    cases hComes with
    | kept hu => exact .inl (hd.unique hu ht hId)
    | turned hu huId hTurns =>
      obtain rfl := hd.unique hu ht (huId.symm.trans hId)
      exact .inr hTurns
    | brought hFresh | renewed _ hFresh => exact absurd hOld hFresh

/-- What becomes of a task in a run that does not reschedule it: the task itself, or its next
occurrence from where it is added, and so on. -/
inductive Unmoved : Desk → Task → List Operation → Task → Prop where
  | stays {d : Desk} {t : Task} (ht : t ∈ d.book.tasks) : Unmoved d t [] t
  | step {d : Desk} {t u t' : Task} {op : Operation} {ops : List Operation} (ht : t ∈ d.book.tasks)
      (hNot : ¬ op.Reschedules t.id d) (hu : u ∈ (op.next d).book.tasks)
      (hLine : u.id = t.id ∨ u.id ∉ d.ids ∧ u.source = some t.id) (hRest : Unmoved (op.next d) u ops t') :
      Unmoved d t (op :: ops) t'

theorem leads_of_step {r : Except Fault Unit} (hPatches : op.Patches) (hd : d.Drawn) (h : op.Ended d r d')
    (ht : t ∈ d.book.tasks) (hNot : ¬ op.Reschedules t.id d) (hu : u ∈ d'.book.tasks)
    (hLine : u.id = t.id ∨ u.id ∉ d.ids ∧ u.source = some t.id) (hLeads : t.Leads i lead) : u.Leads i lead := by
  rcases hLine with hId | ⟨hNew, hSource⟩
  · rcases turns_of_ended hd h ht hu hId with rfl | hTurns
    · exact hLeads
    · exact leads_of_turns hPatches hNot hLeads hTurns
  · obtain ⟨v, rfl | hTurns, hRenews⟩ := renews_of_ended hd h ht hu hNew hSource
    · exact hLeads.of_renews hRenews
    · exact (leads_of_turns hPatches hNot hLeads hTurns).of_renews hRenews

theorem leads_of_unmoved (hOps : ∀ op ∈ ops, op.Patches) (hd : d.Drawn) (h : Unmoved d t ops t')
    (hLeads : t.Leads i lead) : t'.Leads i lead := by
  induction h with
  | stays => exact hLeads
  | @step d t u t' op ops ht hNot hu hLine _ ih =>
    rw [List.forall_mem_cons] at hOps
    have hEnded := op.ended d
    exact ih hOps.2 (drawn_of_ended hd hEnded) (leads_of_step hOps.1 hd hEnded ht hNot hu hLine hLeads)

/-! ## Commands to remind -/

theorem leads_of_remind {m : Means} {text : String} {now : Moment} {c : Command} {hours : Int} {r : Reminder}
    (hd : d.Drawn) (hUnderstood : Understood m text now d c) (hHours : c.reminderHoursBefore = some hours)
    (ht : t ∈ d.book.tasks)
    (ht' : t' ∈ ((submit m text now).next d).book.tasks) (hId : t'.id = t.id) (hNone : t.reminders[i]? = none)
    (hr : t'.reminders[i]? = some r) : t'.Leads i (hours * hourTicks) := by
  have hNot : ¬ t.reminders[i]? = some r := by simp [hNone]
  rcases turns_of_ended hd ((submit m text now).ended d) ht ht' hId with rfl | ⟨c', hUnderstood', hAlters, _⟩
  · exact absurd hr hNot
  · obtain rfl := understood_unique hUnderstood hUnderstood'
    cases hAlters with
    | remindedBefore hours' due time id _ hHours' hDue hTime =>
      obtain rfl := Option.some.inj (hHours.symm.trans hHours')
      refine ⟨due, r, hDue, hr, ?_⟩
      -- Nothing stood at the place, so what stands there is the reminder that was added.
      have hPlace := List.getElem?_eq_none_iff.mp hNone
      rw [Command.reminded, List.getElem?_append_right hPlace, List.getElem?_singleton] at hr
      split at hr
      · obtain rfl := Option.some.inj hr
        exact ⟨rfl, hTime⟩
      · cases hr
    | remindedAt _ _ _ hNoHours => cases hNoHours.symm.trans hHours
    | _ => exact absurd hr hNot

/-- A reminder that a command adds so many hours before the due date of a task is at that time. It
and the reminders of the next occurrences stay there as long as no operation reschedules the task.
It keeps its time whatever happens, and so leaves its place before the due date if that one is
changed. -/
theorem reminder_leads_unless_rescheduled {before after : List Operation} {m : Means} {text : String} {now : Moment}
    {c : Command} {hours : Int} {r : Reminder} (hAfter : ∀ op ∈ after, op.Patches)
    (hUnderstood : Understood m text now (run before {}) c) (hHours : c.reminderHoursBefore = some hours)
    (ht : t ∈ (run before {}).book.tasks) (hu : u ∈ (run (before ++ [submit m text now]) {}).book.tasks)
    (hId : u.id = t.id) (hNone : t.reminders[i]? = none) (hr : u.reminders[i]? = some r) :
    u.Leads i (hours * hourTicks) ∧
      (∀ t', Unmoved (run (before ++ [submit m text now]) {}) u after t' → t'.Leads i (hours * hourTicks)) ∧
      ∀ t' ∈ (run (before ++ submit m text now :: after) {}).book.tasks, t'.id = t.id →
        (∃ r', t'.reminders[i]? = some r' ∧ r.Persists r') ∧
          (t'.Leads i (hours * hourTicks) ↔ t'.due = u.due) := by
  have hBefore : (run before {}).Drawn := drawn_of_run before drawn_empty
  have hDrawn : ((submit m text now).next (run before {})).Drawn := drawn_of_ended hBefore ((submit m text now).ended _)
  rw [run_append] at hu
  have hLeads := leads_of_remind hBefore hUnderstood hHours ht hu hId hNone hr
  refine ⟨hLeads, ?_, ?_⟩
  · intro t' hUnmoved
    rw [run_append] at hUnmoved
    exact leads_of_unmoved hAfter hDrawn hUnmoved hLeads
  · intro t' ht' hSame
    rw [run_append] at ht'
    have hHolds : u.Holds t' := holds_of_run hAfter hDrawn hu ht' (hSame.trans hId.symm)
    exact ⟨hHolds i r hr, Task.leads_iff_of_holds hLeads hHolds⟩

theorem understood_of_parse {m : Means} {text : String} {now : Moment} {c : Command}
    (h : Command.parse text.toList now = .ok c) (hKnown : c.kind ≠ .unknown) (hNotAdd : c.kind ≠ .add) :
    Understood m text now d c := by
  refine ⟨c, .rule, d, d, ?_, ?_⟩
  · have hLift : (monadLift (Command.parse text.toList now) : OnDesk Command).after d = (.ok c, d) := by
      rw [h]
      rfl
    unfold Desk.resolve
    rw [OnDesk.after_bind, hLift]
    dsimp only
    rw [if_neg hKnown]
    rfl
  · unfold Desk.tagged
    rw [if_neg (by simp [hNotAdd])]
    rfl

/-- A daily report, and a reminder two hours before it is due. -/
def report : List Operation :=
  [.submit silent "add report #work" noon, .submit silent "repeat daily report" noon]

def remindText : String :=
  "remind me 2 hours before report"

def remindReport : Command :=
  { kind := .remind, search := some "report", reminderHoursBefore := some 2, reminderSpec := some "2 hours before" }

theorem understood_remindReport (d : Desk) : Understood silent remindText noon d remindReport :=
  understood_of_parse (by rfl) (by decide) (by decide)

theorem exists_report : ∃ t u r, t ∈ (run report {}).book.tasks ∧
    u ∈ (run (report ++ [.submit silent remindText noon]) {}).book.tasks ∧ t.id = freshId 0 ∧ u.id = freshId 0 ∧
    t.reminders[0]? = none ∧ u.reminders[0]? = some r := by
  have hBefore : ∃ t ∈ (run report {}).book.tasks, t.id = freshId 0 ∧ t.reminders[0]? = none := by decide +kernel
  have hReminded : ∃ u ∈ (run (report ++ [.submit silent remindText noon]) {}).book.tasks,
      u.id = freshId 0 ∧ (u.reminders[0]?).isSome = true := by decide +kernel
  obtain ⟨t, ht, hId, hNone⟩ := hBefore
  obtain ⟨u, hu, hSame, hSome⟩ := hReminded
  obtain ⟨r, hr⟩ := Option.isSome_iff_exists.mp hSome
  exact ⟨t, u, r, ht, hu, hId, hSame, hNone, hr⟩

/-- Once the report is done, the next one has its reminder two hours before it is due as well. -/
theorem reminder_leads_next_report : ∃ v ∈ ((toggle (freshId 0) noon).next
    (run (report ++ [.submit silent remindText noon]) {})).book.tasks, v.source = some (freshId 0) ∧
      v.Leads 0 (2 * hourTicks) := by
  have hNext : ∃ v ∈ ((toggle (freshId 0) noon).next
      (run (report ++ [.submit silent remindText noon]) {})).book.tasks,
      v.id ∉ (run (report ++ [.submit silent remindText noon]) {}).ids ∧ v.source = some (freshId 0) := by
    decide +kernel
  obtain ⟨t, u, r, ht, hu, hId, hSame, hNone, hr⟩ := exists_report
  obtain ⟨v, hv, hNew, hSource⟩ := hNext
  have hAfter : ∀ op ∈ [toggle (freshId 0) noon], op.Patches := by simp [Patches]
  have hUnmoved : Unmoved (run (report ++ [submit silent remindText noon]) {}) u [toggle (freshId 0) noon] v :=
    .step hu (fun h => h) hv (.inr ⟨hNew, hSame ▸ hSource⟩) (.stays hv)
  refine ⟨v, hv, hSource, ?_⟩
  exact (reminder_leads_unless_rescheduled hAfter (understood_remindReport _) rfl ht hu (hSame.trans hId.symm)
    hNone hr).2.1 v hUnmoved

/-- A report that is snoozed for a day leaves its reminder a day behind. -/
theorem reminder_not_leading_snoozed : ¬ ∀ (before after : List Operation) (m : Means) (text : String) (now : Moment)
    (c : Command) (hours : Int) (t u t' : Task) (i : Nat) (r : Reminder),
    (∀ op ∈ after, ∃ m text now, op = submit m text now) → Understood m text now (run before {}) c →
    c.reminderHoursBefore = some hours → t ∈ (run before {}).book.tasks →
    u ∈ (run (before ++ [submit m text now]) {}).book.tasks → u.id = t.id → t.reminders[i]? = none →
    u.reminders[i]? = some r → t' ∈ (run (before ++ submit m text now :: after) {}).book.tasks → t'.id = t.id →
    t'.due ≠ none → t'.Leads i (hours * hourTicks) := by
  intro h
  have hSnoozed : ∃ t' ∈ (run (report ++ [submit silent remindText noon, submit silent "snooze report 1 days" noon])
      {}).book.tasks, t'.id = freshId 0 ∧ t'.due.map (·.ticks) = some 63852969599000000 ∧
        (t'.reminders[0]?).map (·.time.ticks) = some 63852875999000000 := by decide +kernel
  obtain ⟨t, u, r, ht, hu, hId, hSame, hNone, hr⟩ := exists_report
  obtain ⟨t', ht', hId', hDue, hTime⟩ := hSnoozed
  have hSubmits : ∀ op ∈ [submit silent "snooze report 1 days" noon], ∃ m text now, op = submit m text now := by simp
  have hHas : t'.due ≠ none := by
    rintro hNoDue
    simp [hNoDue] at hDue
  obtain ⟨due, r', hDue', hr', _, hPlus⟩ := h report _ silent remindText noon remindReport 2 t u t' 0 r hSubmits
    (understood_remindReport _) rfl ht hu (hSame.trans hId.symm) hNone hr ht' (hId'.trans hId.symm) hHas
  have hTicks := (Moment.plus_eq_ok.mp hPlus).1
  simp only [hDue', hr', Option.map_some, Option.some.injEq] at hDue hTime
  rw [hDue, hTime] at hTicks
  exact absurd hTicks (by decide)

end Operation

end Agenda
