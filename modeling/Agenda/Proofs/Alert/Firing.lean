import Agenda.Alert.Due
import Agenda.Proofs.Time.Moment

/-! # Which reminders fire

Firing fails only on an unnotified reminder whose time cannot be compared with now. Otherwise all
reminders that ring are marked, and no others, also in tasks whose first reminders do not ring.
-/

namespace Agenda

namespace Attempt

variable {α : Type} {p : α → Except Fault Bool} {q : α → Bool} {xs : List α}

theorem anyM_of_ok (h : ∀ x ∈ xs, p x = .ok (q x)) : xs.anyM p = .ok (xs.any q) := by
  induction xs with
  | nil => rfl
  | cons x xs ih =>
    rw [List.forall_mem_cons] at h
    rw [List.anyM, h.1, ok_bind, List.any_cons]
    cases q x with
    | true => rfl
    | false => exact ih h.2

theorem of_anyM_eq_false (h : xs.anyM p = .ok false) : ∀ x ∈ xs, p x = .ok false := by
  induction xs with
  | nil => simp
  | cons x xs ih =>
    obtain ⟨b, hHead, h⟩ := bind_eq_ok.mp h
    cases b with
    | true => cases h
    | false => exact List.forall_mem_cons.mpr ⟨hHead, ih h⟩

theorem of_anyM_eq_true (h : xs.anyM p = .ok true) : ∃ x ∈ xs, p x = .ok true := by
  induction xs with
  | nil => cases h
  | cons x xs ih =>
    obtain ⟨b, hHead, h⟩ := bind_eq_ok.mp h
    cases b with
    | true => exact ⟨x, List.mem_cons_self, hHead⟩
    | false =>
      obtain ⟨y, hy, hDue⟩ := ih h
      exact ⟨y, List.mem_cons_of_mem x hy, hDue⟩

theorem exists_of_anyM_eq_error {e : Fault} (h : xs.anyM p = .error e) : ∃ x ∈ xs, p x = .error e := by
  induction xs with
  | nil => cases h
  | cons x xs ih =>
    rcases bind_eq_error.mp h with hHead | ⟨b, _, h⟩
    · exact ⟨x, List.mem_cons_self, hHead⟩
    · cases b with
      | true => cases h
      | false =>
        obtain ⟨y, hy, hError⟩ := ih h
        exact ⟨y, List.mem_cons_of_mem x hy, hError⟩

end Attempt

namespace Reminder

variable {now : Moment} {r r' : Reminder} {b : Bool} {f : Fault}

/-- Not notified yet, and its time has come. -/
def rings (now : Moment) (r : Reminder) : Bool :=
  !r.notified && decide (r.time.instant ≤ now.instant)

def rung (now : Moment) (r : Reminder) : Reminder :=
  if r.rings now then { r with notified := true } else r

/-- Whether the reminder is due can be told. -/
def Telling (now : Moment) (r : Reminder) : Prop :=
  r.notified = false → Moment.comparable r.time now = true

theorem isDue_eq_ok : r.isDue now = .ok b ↔ r.Telling now ∧ b = r.rings now := by
  unfold isDue Telling rings Moment.le
  cases r.notified with
  | true => simp
  | false =>
    by_cases h : Moment.comparable r.time now = true
    · simpa [h] using eq_comm
    · simp [h]

theorem isDue_eq_error (h : r.isDue now = .error f) : ¬ r.Telling now ∧ f = .zoneMismatch := by
  unfold isDue Moment.le at h
  unfold Telling
  cases hNotified : r.notified with
  | true => simp [hNotified] at h
  | false => by_cases hZone : Moment.comparable r.time now = true <;> simp_all

theorem fired_eq_ok : r.fired now = .ok r' ↔ r.Telling now ∧ r' = r.rung now := by
  unfold fired rung
  simp only [Attempt.bind_eq_ok, Attempt.pure_eq_ok, isDue_eq_ok]
  constructor
  · rintro ⟨_, ⟨hTelling, rfl⟩, rfl⟩
    exact ⟨hTelling, rfl⟩
  · rintro ⟨hTelling, rfl⟩
    exact ⟨_, ⟨hTelling, rfl⟩, rfl⟩

theorem rung_eq_self (h : r.rings now = false) : r.rung now = r := by
  simp [rung, h]

theorem rings_rung (now : Moment) (r : Reminder) : (r.rung now).rings now = false := by
  unfold rung
  split
  · rfl
  · simp_all

end Reminder

namespace Task

variable {now : Moment} {t : Task} {p : Task × Bool} {f : Fault}

def rings (now : Moment) (t : Task) : Bool :=
  t.reminders.any (·.rings now)

def rung (now : Moment) (t : Task) : Task :=
  { t with reminders := t.reminders.map (·.rung now) }

theorem rung_eq_self (h : t.rings now = false) : t.rung now = t := by
  have hSame : t.reminders.map (·.rung now) = t.reminders := by
    refine (List.map_congr_left fun r hr => ?_).trans (List.map_id _)
    rw [rings, List.any_eq_false] at h
    exact Reminder.rung_eq_self (Bool.eq_false_iff.mpr (h r hr))
  rw [rung, hSame]

theorem fired_eq_ok : t.fired now = .ok p ↔ (∀ r ∈ t.reminders, r.Telling now) ∧ p = (t.rung now, t.rings now) := by
  constructor
  · intro h
    obtain ⟨any, hAny, h⟩ := Attempt.bind_eq_ok.mp h
    cases any with
    | false =>
      cases Attempt.pure_eq_ok.mp h
      have hNone := Attempt.of_anyM_eq_false hAny
      have hSilent : t.rings now = false :=
        List.any_eq_false.mpr fun r hr => by simp [← (Reminder.isDue_eq_ok.mp (hNone r hr)).2]
      refine ⟨fun r hr => (Reminder.isDue_eq_ok.mp (hNone r hr)).1, ?_⟩
      rw [rung_eq_self hSilent, hSilent]
    | true =>
      -- The search has stopped at the first reminder that rings; the marking visits them all.
      obtain ⟨marked, hMarked, h⟩ := Attempt.bind_eq_ok.mp h
      cases Attempt.pure_eq_ok.mp h
      obtain ⟨r, hr, hDue⟩ := Attempt.of_anyM_eq_true hAny
      have hRings : t.rings now = true := List.any_eq_true.mpr ⟨r, hr, (Reminder.isDue_eq_ok.mp hDue).2.symm⟩
      have hAll := Attempt.exists_mapM_iff.mp ⟨_, hMarked⟩
      have hTelling : ∀ r ∈ t.reminders, r.Telling now := by
        intro r hr
        obtain ⟨_, hFired⟩ := hAll r hr
        exact (Reminder.fired_eq_ok.mp hFired).1
      have hMap : t.reminders.mapM (·.fired now) = .ok (t.reminders.map (·.rung now)) :=
        Attempt.mapM_of_ok fun r hr => Reminder.fired_eq_ok.mpr ⟨hTelling r hr, rfl⟩
      cases hMap.symm.trans hMarked
      exact ⟨hTelling, by rw [hRings, rung]⟩
  · rintro ⟨hTelling, rfl⟩
    have hAny : t.reminders.anyM (·.isDue now) = .ok (t.rings now) :=
      Attempt.anyM_of_ok fun r hr => Reminder.isDue_eq_ok.mpr ⟨hTelling r hr, rfl⟩
    have hMap : t.reminders.mapM (·.fired now) = .ok (t.reminders.map (·.rung now)) :=
      Attempt.mapM_of_ok fun r hr => Reminder.fired_eq_ok.mpr ⟨hTelling r hr, rfl⟩
    rw [fired, hAny, Attempt.ok_bind]
    cases hRings : t.rings now with
    | true =>
      rw [if_pos rfl, hMap, Attempt.ok_bind]
      rfl
    | false =>
      rw [if_neg (by simp), rung_eq_self hRings]
      rfl

theorem fired_eq_error (h : t.fired now = .error f) : f = .zoneMismatch := by
  rcases Attempt.bind_eq_error.mp h with h | ⟨any, _, h⟩
  · obtain ⟨_, _, h⟩ := Attempt.exists_of_anyM_eq_error h
    exact (Reminder.isDue_eq_error h).2
  · cases any with
    | false => cases h
    | true =>
      rcases Attempt.bind_eq_error.mp h with h | ⟨_, _, ⟨⟩⟩
      obtain ⟨_, _, h⟩ := Attempt.exists_of_mapM_eq_error h
      rcases Attempt.bind_eq_error.mp h with h | ⟨_, _, ⟨⟩⟩
      exact (Reminder.isDue_eq_error h).2

end Task

namespace Book

variable {now : Moment} {b : Book} {out : Option Book × List Task} {f : Fault}

/-- Of every reminder it can be told whether it is due. -/
def Telling (now : Moment) (b : Book) : Prop :=
  ∀ t ∈ b.tasks, ∀ r ∈ t.reminders, r.Telling now

/-- The tasks with a reminder that rings, as they are once it is marked. -/
def ringing (now : Moment) (b : Book) : List Task :=
  (b.tasks.filter (·.rings now)).map (·.rung now)

theorem fireDue_eq_ok : b.fireDue now = .ok out ↔ b.Telling now ∧
    out = (if (b.ringing now).isEmpty then none else some (b.withTasks (b.tasks.map (·.rung now))), b.ringing now) := by
  have hVisited (h : b.Telling now) :
      b.tasks.mapM (·.fired now) = .ok (b.tasks.map fun t => (t.rung now, t.rings now)) :=
    Attempt.mapM_of_ok fun t ht => Task.fired_eq_ok.mpr ⟨h t ht, rfl⟩
  have hFired : (((b.tasks.map fun t => (t.rung now, t.rings now)).filter (·.2)).map (·.1)) = b.ringing now := by
    rw [List.filter_map, List.map_map]
    rfl
  have hMarked : (b.tasks.map fun t => (t.rung now, t.rings now)).map (·.1) = b.tasks.map (·.rung now) := by
    rw [List.map_map]
    rfl
  constructor
  · intro h
    obtain ⟨visited, hMapped, h⟩ := Attempt.bind_eq_ok.mp h
    have hTelling : b.Telling now := by
      intro t ht
      obtain ⟨p, hp⟩ := Attempt.exists_mapM_iff.mp ⟨_, hMapped⟩ t ht
      exact (Task.fired_eq_ok.mp hp).1
    cases (hVisited hTelling).symm.trans hMapped
    cases Attempt.pure_eq_ok.mp h
    rw [hFired, hMarked]
    exact ⟨hTelling, rfl⟩
  · rintro ⟨hTelling, rfl⟩
    rw [fireDue, hVisited hTelling, Attempt.ok_bind]
    dsimp only
    rw [hFired, hMarked]
    rfl

theorem fireDue_eq_error (h : b.fireDue now = .error f) : f = .zoneMismatch := by
  rcases Attempt.bind_eq_error.mp h with h | ⟨_, _, ⟨⟩⟩
  obtain ⟨_, _, h⟩ := Attempt.exists_of_mapM_eq_error h
  exact Task.fired_eq_error h

theorem exists_fireDue_iff : (∃ out, b.fireDue now = .ok out) ↔ b.Telling now := by
  constructor
  · rintro ⟨_, h⟩
    exact (fireDue_eq_ok.mp h).1
  · intro h
    exact ⟨_, fireDue_eq_ok.mpr ⟨h, rfl⟩⟩

end Book

end Agenda
