import Agenda.Proofs.Desk.Zone

/-! # Checks for reminders

A check that is skipped does nothing at all. One that is performed fires every reminder that rings,
unless the time of an unnotified reminder cannot be compared with now: then it fires none, and fails
again the next time. Such a time comes from a due date with an offset.
-/

namespace Agenda

namespace Desk

variable {d d' : Desk} {m : Means} {now : Moment} {tick : Double} {forced : Bool}

/-- The alert for a task. -/
def alertFor (t : Task) : String × String :=
  (alertTitle, alertText t)

/-- What a check leaves that is performed and does not fail. -/
structure Checked (m : Means) (now : Moment) (tick : Double) (d d' : Desk) : Prop where
  tasks : d'.book.tasks = d.book.tasks.map (·.rung now)
  projects : d'.book.projects = d.book.projects
  version : d'.book.version = if (d.book.ringing now).isEmpty then d.book.version else d.book.version + 1
  debounce : d'.debounce = d.debounce.performed tick
  alerts : d'.alerts = d.alerts ++ if m.mayAlert then (d.book.ringing now).map alertFor else []

theorem tasks_rung_of_silent (h : (d.book.ringing now).isEmpty = true) :
    d.book.tasks.map (·.rung now) = d.book.tasks := by
  rw [List.isEmpty_iff, Book.ringing, List.map_eq_nil_iff, List.filter_eq_nil_iff] at h
  refine (List.map_congr_left fun t ht => ?_).trans (List.map_id _)
  exact Task.rung_eq_self (Bool.eq_false_iff.mpr (h t ht))

theorem check_of_skipped (hSkipped : d.debounce.admits tick forced = false) :
    (checkReminders m now tick forced).after d = (.ok [], d) := by
  have hFire : (fireReminders m now tick forced).after d = (.ok [], d) := by
    unfold fireReminders
    rw [OnDesk.after_get_bind, hSkipped]
    rfl
  unfold checkReminders
  rw [OnDesk.after_bind, hFire]
  rfl

theorem check_of_admitted (hAdmitted : d.debounce.admits tick forced = true) (hTelling : d.book.Telling now) :
    ∃ d', (checkReminders m now tick forced).after d = (.ok (d.book.ringing now), d') ∧ Checked m now tick d d' := by
  have hFired := Book.fireDue_eq_ok.mpr ⟨hTelling, rfl⟩
  have hFire : ∃ d', (fireReminders m now tick forced).after d = (.ok (d.book.ringing now), d') ∧
      Checked m now tick d d' := by
    unfold fireReminders
    rw [OnDesk.after_get_bind, hAdmitted]
    cases hSilent : (d.book.ringing now).isEmpty with
    | true =>
      rw [hSilent] at hFired
      have hSame := tasks_rung_of_silent hSilent
      cases hAlert : m.mayAlert <;> simp only [hFired] <;> refine ⟨_, rfl, hSame.symm, rfl, ?_, rfl, ?_⟩
      all_goals simp [hSilent, hAlert, alertFor]
    | false =>
      rw [hSilent] at hFired
      cases hAlert : m.mayAlert <;> simp only [hFired] <;> refine ⟨_, rfl, rfl, rfl, ?_, rfl, ?_⟩
      all_goals simp [hSilent, hAlert, alertFor]
  obtain ⟨d₁, hFire, hChecked⟩ := hFire
  refine ⟨{ d₁ with counters := { d₁.counters with
    alerts := d₁.counters.alerts + (d.book.ringing now).length } }, ?_, ?_⟩
  · unfold checkReminders
    rw [OnDesk.after_bind, hFire]
    rfl
  · exact ⟨hChecked.tasks, hChecked.projects, hChecked.version, hChecked.debounce, hChecked.alerts⟩

theorem check_of_not_telling (hAdmitted : d.debounce.admits tick forced = true) (hNot : ¬ d.book.Telling now) :
    (checkReminders m now tick forced).after d =
      (.error .zoneMismatch, { d with debounce := d.debounce.performed tick }) := by
  have hFailed : d.book.fireDue now = .error .zoneMismatch := by
    cases hFired : d.book.fireDue now with
    | ok out => exact absurd (Book.exists_fireDue_iff.mp ⟨out, hFired⟩) hNot
    | error f => rw [Book.fireDue_eq_error hFired]
  have hFire : (fireReminders m now tick forced).after d =
      (.error .zoneMismatch, { d with debounce := d.debounce.performed tick }) := by
    unfold fireReminders
    rw [OnDesk.after_get_bind, hAdmitted]
    simp only [hFailed]
    rfl
  unfold checkReminders
  rw [OnDesk.after_bind, hFire]

end Desk

/-! ## Forced checks -/

theorem Book.telling_iff {b : Book} {now : Moment} (hNow : now.isLocal = true) :
    b.Telling now ↔ ∀ t ∈ b.tasks, ∀ r ∈ t.reminders, r.notified = false → r.time.isLocal = true := by
  unfold Telling Reminder.Telling Moment.comparable
  simp only [hNow, beq_iff_eq]

theorem Book.telling_of_local {b : Book} {now : Moment} (hNow : now.isLocal = true) (h : ∀ t ∈ b.tasks, t.Local) :
    b.Telling now :=
  (telling_iff hNow).mpr fun t ht r hr _ => (h t ht).reminders r hr

theorem Desk.notified_of_checked {d d' : Desk} {m : Means} {now : Moment} {tick : Double}
    (h : d.Checked m now tick d') : ∀ t ∈ d'.book.tasks, ∀ r ∈ t.reminders, r.time.instant ≤ now.instant →
      r.notified = true := by
  rw [h.tasks]
  intro t ht r hr hTime
  obtain ⟨t, _, rfl⟩ := List.mem_map.mp ht
  obtain ⟨r, _, rfl⟩ := List.mem_map.mp hr
  have hSilent := Reminder.rings_rung now r
  unfold Reminder.rings at hSilent
  simpa [hTime] using hSilent

namespace Operation

/-- Whatever was done at local times on an empty desk, a forced check at a local time fires all that
is due, unless an unnotified reminder has an offset: then it fails and leaves the book. No reminder
has one as long as no update sets a due date that has one. -/
theorem forcedCheck_cases {ops : List Operation} {m : Means} {now : Moment} {tick : Double}
    (hOps : ∀ op ∈ ops, op.Patches ∧ op.LocalNow) (hNow : now.isLocal = true) :
    ((∃ fired d', (Desk.checkReminders m now tick true).after (run ops {}) = (.ok fired, d')) ↔
        ∀ t ∈ (run ops {}).book.tasks, ∀ r ∈ t.reminders, r.notified = false → r.time.isLocal = true) ∧
      (∀ fired d', (Desk.checkReminders m now tick true).after (run ops {}) = (.ok fired, d') →
        ∀ t ∈ d'.book.tasks, ∀ r ∈ t.reminders, r.time.instant ≤ now.instant → r.notified = true) ∧
      (∀ f d', (Desk.checkReminders m now tick true).after (run ops {}) = (.error f, d') →
        f = .zoneMismatch ∧ d'.book = (run ops {}).book) ∧
      ((∀ op ∈ ops, op.LocalDue) →
        ∃ fired d', (Desk.checkReminders m now tick true).after (run ops {}) = (.ok fired, d')) := by
  have hAdmitted : (run ops {}).debounce.admits tick true = true := rfl
  rw [← Book.telling_iff hNow]
  by_cases hTelling : (run ops {}).book.Telling now
  · obtain ⟨d₁, hCheck, hChecked⟩ := @Desk.check_of_admitted _ m now tick true hAdmitted hTelling
    rw [hCheck]
    refine ⟨⟨fun _ => hTelling, fun _ => ⟨_, _, rfl⟩⟩, ?_, by rintro f d' ⟨⟩, fun _ => ⟨_, _, rfl⟩⟩
    rintro fired d' ⟨⟩
    exact Desk.notified_of_checked hChecked
  · rw [Desk.check_of_not_telling hAdmitted hTelling]
    refine ⟨⟨by rintro ⟨_, _, ⟨⟩⟩, fun h => absurd h hTelling⟩, by rintro fired d' ⟨⟩, ?_, ?_⟩
    · rintro f d' ⟨⟩
      exact ⟨rfl, rfl⟩
    · intro hDue
      have hLocal : ∀ t ∈ (run ops {}).book.tasks, t.Local := by
        refine local_of_run (fun op hOp => ?_) drawn_empty (by simp)
        exact ⟨(hOps op hOp).1, (hOps op hOp).2, hDue op hOp⟩
      exact absurd (Book.telling_of_local hNow hLocal) hTelling

/-- A call to Ann, due at some moment, with a reminder an hour before. -/
def callDue (due : Moment) : List Operation :=
  [.submit silent "add call ann #home" noon, .update (freshId 0) [("due_date", .moment due)] noon,
    .submit silent "remind me 1 hours before call ann" noon]

theorem patches_callDue (due : Moment) : ∀ op ∈ callDue due, op.Patches ∧ op.LocalNow := by
  simp [callDue, Patches, LocalNow, Web.updateKinds, noon, Moment.isLocal]

theorem localDue_callDue {due : Moment} (h : due.isLocal = true) : ∀ op ∈ callDue due, op.LocalDue := by
  simp only [callDue, List.forall_mem_cons]
  refine ⟨trivial, ?_, trivial, by simp⟩
  intro v m hv hDecoded
  obtain rfl : v = .moment due := by simpa using hv
  cases hDecoded
  exact h

theorem forcedCheck_callDue_noon :
    ∃ fired d', (Desk.checkReminders silent noon .zero true).after (run (callDue noon) {}) = (.ok fired, d') :=
  (@forcedCheck_cases (callDue noon) silent noon .zero (patches_callDue noon) rfl).2.2.2 (localDue_callDue rfl)

/-- Noon of universal time on the first of June 2024, by a clock that is an hour ahead. -/
def universalNoon : Moment := ⟨63852843600000000, some 3600000000, by decide⟩

theorem forcedCheck_universalNoon_fails : ¬ ∀ ops, (∀ op ∈ ops, op.Patches ∧ op.LocalNow) →
    ∃ fired d', (Desk.checkReminders silent noon .zero true).after (run ops {}) = (.ok fired, d') := by
  intro h
  obtain ⟨fired, d', hCheck⟩ := h (callDue universalNoon) (patches_callDue universalNoon)
  have hFails : ((Desk.checkReminders silent noon .zero true).after
      (run (callDue universalNoon) {})).1.toBool = false := by decide +kernel
  rw [hCheck] at hFails
  cases hFails

end Operation

end Agenda
