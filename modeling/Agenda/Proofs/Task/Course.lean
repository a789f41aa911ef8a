import Agenda.Desk.Edit
import Agenda.Proofs.Task.Renewed
import Agenda.Proofs.Task.Stored
import Agenda.Proofs.Value.Decoded

/-! # The project, the due date and the reminders of a task

What an update and a next occurrence make of them. An update takes over what its fields name and
keeps the rest; the next occurrence has reminders of its own, one for each of the old ones.
-/

namespace Agenda

open Value

theorem decodeOption_str_eq_ok {v : Value} {s : Option String} :
    decodeOption decodeStr v = .ok s ↔ v = .ofStr? s := by
  constructor
  · intro h
    cases v <;> cases h <;> rfl
  · rintro rfl
    cases s <;> rfl

theorem ofStr?_injective {s s' : Option String} (h : ofStr? s = .ofStr? s') : s = s' := by
  cases s <;> cases s' <;> cases h <;> rfl

theorem decodeOption_ofMoment? (m : Option Moment) : decodeOption decodeMoment (ofMoment? m) = .ok m := by
  cases m <;> rfl

theorem Reminder.decode_data (r : Reminder) (id : String) : decodeEntries (decode id) r.data = .ok r := by
  simp [data, decodeEntries, decode, withDefault, required, Entries.get?_cons, decodeStr, decodeMoment, decodeBool,
    decodeName, ReminderKind.ofName?_name, Decoded.under, Decoded.and]

theorem decodeParts_map {α : Type} {decode : String → Entries → Decoded α} {data : α → Value} {parts : List α}
    (first : Nat) (h : ∀ part ∈ parts, ∀ id, decodeEntries (decode id) (data part) = .ok part) :
    decodeParts first decode (.list (parts.map data)) = .ok parts :=
  Decoded.all_mapIdx_map fun _ part hPart => Decoded.under_eq_ok.mpr (h part hPart _)

namespace Task

variable {t t' new : Task} {es fields : Entries} {id : String} {now oldDue newDue : Moment} {n n' : Nat}

/-! ## Updates -/

/-- The entries that an update is decoded from, and the task that they make. -/
theorem decode_of_overwritten (h : Desk.overwritten t fields id now n = .ok (new, n')) :
    decodeEntries now n ((Entries.merge t.fields fields).insert "id" (.str id)) = .ok new := by
  unfold Desk.overwritten at h
  extract_lets es at h
  cases hDecoded : decodeEntries now n es with
  | bad errors =>
    simp only [hDecoded] at h
    cases h
  | ok decoded =>
    simp only [hDecoded] at h
    cases h
    rfl

/-- Under a key, an update reads what a field says or else what the task had there. -/
theorem get?_overwritten (t : Task) (fields : Entries) {key : String} (hKey : key ≠ "id") :
    ((Entries.merge t.fields fields).insert "id" (.str id)).get? key = Entries.get? t.fields key ∨
      ∃ v, (key, v) ∈ fields ∧
        ((Entries.merge t.fields fields).insert "id" (.str id)).get? key = some v := by
  rw [Entries.get?_insert, if_neg hKey]
  exact Entries.get?_merge_cases t.fields fields key

theorem project_of_overwritten (h : Desk.overwritten t fields id now n = .ok (new, n')) :
    new.project = t.project ∨ ("project", .ofStr? new.project) ∈ fields := by
  have hProject := (decodeEntries_eq_ok.mp (decode_of_overwritten h)).project
  rcases @get?_overwritten id t fields "project" (by decide) with hKept | ⟨v, hv, hNamed⟩
  · left
    have hOld : ofStr? t.project = .ofStr? new.project :=
      decodeOption_str_eq_ok.mp (decode_of_withDefault (hKept.trans rfl) hProject)
    exact (ofStr?_injective hOld).symm
  · right
    rwa [← decodeOption_str_eq_ok.mp (decode_of_withDefault hNamed hProject)]

theorem due_of_overwritten (h : Desk.overwritten t fields id now n = .ok (new, n')) :
    new.due = t.due ∨ ∃ v, ("due_date", v) ∈ fields ∧ decodeOption decodeMoment v = .ok new.due := by
  have hDue := (decodeEntries_eq_ok.mp (decode_of_overwritten h)).due
  rcases @get?_overwritten id t fields "due_date" (by decide) with hKept | ⟨v, hv, hNamed⟩
  · left
    have hOld : decodeOption decodeMoment (ofMoment? t.due) = .ok new.due :=
      decode_of_withDefault (hKept.trans rfl) hDue
    rw [decodeOption_ofMoment?] at hOld
    exact (Decoded.ok.inj hOld).symm
  · exact .inr ⟨v, hv, decode_of_withDefault hNamed hDue⟩

theorem reminders_of_overwritten (hFields : ∀ p ∈ fields, p.1 ≠ "reminders")
    (h : Desk.overwritten t fields id now n = .ok (new, n')) : new.reminders = t.reminders := by
  have hReminders := (decodeEntries_eq_ok.mp (decode_of_overwritten h)).reminders
  rcases @get?_overwritten id t fields "reminders" (by decide) with hKept | ⟨v, hv, _⟩
  · have hNew := decode_of_withDefault (hKept.trans rfl) hReminders
    rw [decodeParts_map _ fun r _ id => r.decode_data id] at hNew
    exact (Decoded.ok.inj hNew).symm
  · exact absurd rfl (hFields _ hv)

/-! ## Next occurrences -/

end Task

/-- A reminder of the next occurrence, and the one that it repeats. -/
structure Reminder.Carries (oldDue newDue : Moment) (r r' : Reminder) : Prop where
  kind : r'.kind = r.kind
  unnotified : r'.notified = false
  time : match r.kind with
    | .relative => ∃ lead, oldDue.minus r.time = .ok lead ∧ newDue.plus (-lead) = .ok r'.time
    | .absolute => r'.time = r.time

theorem Reminder.carries_of_carried {oldDue newDue : Moment} {r r' : Reminder} {n n' : Nat}
    (h : r.carried oldDue newDue n = .ok (r', n')) : Carries oldDue newDue r r' := by
  unfold carried at h
  cases hKind : r.kind with
  | absolute =>
    simp only [hKind] at h
    obtain ⟨rfl, _⟩ := Fresh.reminder_eq_ok.mp h
    exact ⟨hKind.symm, rfl, by rw [hKind]⟩
  | relative =>
    simp only [hKind] at h
    obtain ⟨lead, _, hLead, h⟩ := Fresh.bind_eq_ok.mp h
    obtain ⟨time, _, hTime, h⟩ := Fresh.bind_eq_ok.mp h
    obtain ⟨rfl, _⟩ := Fresh.reminder_eq_ok.mp h
    refine ⟨hKind.symm, rfl, ?_⟩
    rw [hKind]
    exact ⟨lead, (Fresh.lift_eq_ok.mp hLead).1, (Fresh.lift_eq_ok.mp hTime).1⟩

namespace Task

variable {t t' : Task} {tasks new : List Task} {now oldDue newDue : Moment} {n n' : Nat}

/-- A task and the occurrence that follows it, due at a later date. -/
structure Follows (oldDue newDue : Moment) (t t' : Task) : Prop where
  old : t.due = some oldDue
  due : t'.due = some newDue
  project : t'.project = t.project
  source : t'.source = some t.id
  reminders : List.Forall₂ (Reminder.Carries oldDue newDue) t.reminders t'.reminders

theorem follows_of_occurrence (hDue : t.due = some oldDue)
    (h : t.occurrence oldDue newDue now n = .ok (t', n')) : Follows oldDue newDue t t' := by
  obtain ⟨id, m, _, h⟩ := Fresh.bind_eq_ok.mp h
  obtain ⟨shift, m, _, h⟩ := Fresh.bind_eq_ok.mp h
  obtain ⟨start, m, _, h⟩ := Fresh.bind_eq_ok.mp h
  obtain ⟨subtasks, m, _, h⟩ := Fresh.bind_eq_ok.mp h
  obtain ⟨reminders, k, hReminders, h⟩ := Fresh.bind_eq_ok.mp h
  obtain ⟨rfl, _⟩ := Fresh.pure_eq_ok.mp h
  refine ⟨hDue, rfl, rfl, rfl, (Fresh.of_mapM hReminders).imp ?_⟩
  rintro r r' ⟨_, _, hCarried⟩
  exact Reminder.carries_of_carried hCarried

/-- A task and the next occurrence that its rule gives it. -/
def Renews (t t' : Task) : Prop :=
  ∃ rule oldDue newDue, t.recurrence = some rule ∧ rule.next oldDue = .ok (some newDue) ∧ Follows oldDue newDue t t'

theorem renews_of_renewed (h : t.renewed now n = .ok (some t', n')) : t.Renews t' := by
  rcases renewed_eq_ok.mp h with ⟨_, ⟨⟩, _⟩ | ⟨oldDue, newDue, _, hDue, hNext, hMade, ⟨⟩⟩
  obtain ⟨_, rule, _, hRule, hDue', hStep⟩ := nextDue_eq_some.mp hNext
  cases hDue.symm.trans hDue'
  exact ⟨rule, oldDue, newDue, hRule, hStep, follows_of_occurrence hDue hMade⟩

theorem renews_of_renewals (h : renewals tasks now n = .ok (new, n')) (ht' : t' ∈ new) :
    ∃ t ∈ tasks, t.Renews t' := by
  obtain ⟨found, m, hFound, h⟩ := Fresh.bind_eq_ok.mp h
  obtain ⟨rfl, _⟩ := Fresh.pure_eq_ok.mp h
  obtain ⟨_, hMem, rfl⟩ := List.mem_filterMap.mp ht'
  obtain ⟨t, ht, _, _, hRenewed⟩ := Attempt.exists_of_mem_paired (Fresh.of_mapM hFound) hMem
  exact ⟨t, (List.mem_filter.mp ht).1, renews_of_renewed hRenewed⟩

end Task

end Agenda
