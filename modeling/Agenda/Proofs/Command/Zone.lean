import Agenda.Proofs.Command.Ready

/-! # Times in commands

A line can name a due date or a time to be reminded at. Both are days of the calendar with a time of
day, so they have no offset.
-/

namespace Agenda.Command

open Pattern

/-- The times of a command have no offset. -/
structure Local (c : Command) : Prop where
  due : ∀ m, c.due = some m → m.isLocal = true
  reminder : ∀ m, c.reminderTime = some m → m.isLocal = true

/-- Every command that the rule makes has local times. -/
def GrammarRule.Local (r : GrammarRule) : Prop :=
  ∀ m now c, r.build m now = .ok (some c) → c.Local

variable {c : Command} {now : Moment} {text : List Char} {p : Pattern} {kind : CommandKind}

theorem local_of_untimed (hDue : c.due = none) (hReminder : c.reminderTime = none) : c.Local := by
  constructor
  · rw [hDue]
    rintro _ ⟨⟩
  · rw [hReminder]
    rintro _ ⟨⟩

/-! ## Rules that name no time -/

theorem local_of_ok {r : GrammarRule} (made : Match → Command) (hRule : ∀ m now, r.build m now = .ok (some (made m)))
    (hDue : ∀ m, (made m).due = none) (hReminder : ∀ m, (made m).reminderTime = none) : r.Local := by
  intro m now c h
  rw [hRule] at h
  cases h
  exact local_of_untimed (hDue m) (hReminder m)

theorem local_add : addRule.Local := by
  intro m now c h
  simp only [addRule] at h
  split at h <;> cases h
  exact local_of_untimed rfl rfl

theorem local_priority : priorityRule.Local := by
  intro m now c h
  simp only [priorityRule] at h
  split at h <;> cases h
  exact local_of_untimed rfl rfl

theorem local_snooze : snoozeRule.Local := by
  intro m now c h
  obtain ⟨_, _, h⟩ := Attempt.bind_eq_ok.mp h
  cases h
  exact local_of_untimed rfl rfl

theorem local_repeatWeekly : repeatWeeklyRule.Local := by
  intro m now c h
  simp only [repeatWeeklyRule] at h
  split at h <;> cases h
  exact local_of_untimed rfl rfl

theorem local_remindRelative : remindRelativeRule.Local := by
  intro m now c h
  obtain ⟨_, _, h⟩ := Attempt.bind_eq_ok.mp h
  cases h
  exact local_of_untimed rfl rfl

theorem local_sort : sortRule.Local := by
  intro m now c h
  simp only [sortRule] at h
  split at h <;> cases h
  exact local_of_untimed rfl rfl

theorem local_summarize : summarizeRule.Local := by
  intro m now c h
  simp only [summarizeRule] at h
  split at h <;> cases h
  exact local_of_untimed rfl rfl

/-! ## Rules that name a time -/

theorem isLocal_resolveDue {spec : List Char} {due : Moment} (h : resolveDue spec now = .ok (some due)) :
    due.isLocal = true := by
  unfold resolveDue at h
  extract_lets spec at h
  split at h
  · cases h
    rfl
  · split at h
    · obtain ⟨_, _, hDue⟩ := Attempt.map_eq_ok.mp h
      cases hDue
      rfl
    · split at h
      · split at h
        · obtain ⟨_, _, hDue⟩ := Attempt.map_eq_ok.mp h
          cases hDue
          rfl
        · cases h
      · cases h

theorem local_due : dueRule.Local := by
  intro m now c h
  obtain ⟨due, hDue, h⟩ := Attempt.bind_eq_ok.mp h
  obtain ⟨due, rfl, rfl⟩ := Option.map_eq_some_iff.mp (Attempt.pure_eq_ok.mp h)
  constructor
  · rintro _ ⟨⟩
    exact isLocal_resolveDue hDue
  · rintro _ ⟨⟩

theorem local_remindAbsolute : remindAbsoluteRule.Local := by
  intro m now c h
  simp only [remindAbsoluteRule] at h
  obtain ⟨clock, _, h⟩ := Attempt.bind_eq_ok.mp h
  cases clock with
  | none => cases h
  | some clock =>
    dsimp only at h
    split at h <;> obtain ⟨day, _, ⟨⟩⟩ := Attempt.bind_eq_ok.mp h
    all_goals
      constructor
      · rintro _ ⟨⟩
      · rintro _ ⟨⟩
        rfl

/-! ## Every rule -/

theorem local_of_mem_grammar : ∀ r ∈ grammar, r.Local := by
  simp only [grammar, List.forall_mem_cons]
  and_intros
  -- the rules named here decline some matches or name a time; the others make one command of every match
  all_goals first
    | with_reducible exact local_add
    | with_reducible exact local_priority
    | with_reducible exact local_due
    | with_reducible exact local_snooze
    | with_reducible exact local_repeatWeekly
    | with_reducible exact local_remindAbsolute
    | with_reducible exact local_remindRelative
    | with_reducible exact local_sort
    | with_reducible exact local_summarize
    | exact local_of_ok _ (fun _ _ => rfl) (fun _ => rfl) fun _ => rfl
    | exact fun _ h => absurd h List.not_mem_nil

theorem local_of_parse (h : parse text now = .ok c) : c.Local := by
  obtain ⟨made, hFirst, h⟩ := Attempt.bind_eq_ok.mp h
  cases made with
  | none =>
    cases h
    exact local_of_untimed rfl rfl
  | some d =>
    cases h
    obtain ⟨r, hr, m, _, hBuild⟩ := firstOf_eq_some hFirst
    exact local_of_mem_grammar r hr m now c hBuild

end Agenda.Command
