import Agenda.Proofs.Task.Fresh
import Agenda.Recurrence.Renewal
import Mathlib.Data.List.Count
import Mathlib.Data.List.Nodup

/-! # Next occurrences

A renewal makes one task for every completed task whose rule goes on and that no task names yet.
The new task names the old one, and its identity was never drawn before.
-/

namespace Agenda.Task

/-- When the next occurrence falls due: for a completed task, whatever its rule says. -/
def nextDue (t : Task) : Except Fault (Option Moment) :=
  match t.recurrence, t.due with
  | some rule, some due => if t.done then rule.next due else .ok none
  | _, _ => .ok none

/-- A completed task whose rule goes on. -/
def recurs (t : Task) : Bool :=
  match t.nextDue with
  | .ok (some _) => true
  | _ => false

variable {t t' : Task} {ts new tasks : List Task} {now oldDue newDue : Moment} {n n' : Nat}

theorem rises_carried (r : Reminder) (oldDue newDue : Moment) : Fresh.Rises (r.carried oldDue newDue) := by
  unfold Reminder.carried
  cases r.kind with
  | absolute => exact Fresh.rises_reminder _ _
  | relative =>
    refine Fresh.rises_bind (Fresh.rises_lift _) fun _ => Fresh.rises_bind (Fresh.rises_lift _) fun _ => ?_
    exact Fresh.rises_reminder _ _

theorem of_occurrence (h : t.occurrence oldDue newDue now n = .ok (t', n')) :
    t'.id = freshId n ∧ n < n' ∧ t'.source = some t.id ∧ t'.status = .pending := by
  obtain ⟨id, m, hId, h⟩ := Fresh.bind_eq_ok.mp h
  obtain ⟨rfl, rfl⟩ := Fresh.newId_eq_ok.mp hId
  obtain ⟨shift, m, hShift, h⟩ := Fresh.bind_eq_ok.mp h
  obtain ⟨_, rfl⟩ := Fresh.lift_eq_ok.mp hShift
  obtain ⟨start, m, hStart, h⟩ := Fresh.bind_eq_ok.mp h
  obtain ⟨_, rfl⟩ := Fresh.lift_eq_ok.mp hStart
  obtain ⟨subtasks, m, hSubtasks, h⟩ := Fresh.bind_eq_ok.mp h
  obtain ⟨reminders, k, hReminders, h⟩ := Fresh.bind_eq_ok.mp h
  obtain ⟨rfl, rfl⟩ := Fresh.pure_eq_ok.mp h
  refine ⟨rfl, ?_, rfl, rfl⟩
  have hDrawn := Fresh.rises_mapM (fun s : Subtask => Fresh.rises_subtask s.text) _ _ _ _ hSubtasks
  have hCarried := Fresh.rises_mapM (fun r => rises_carried r oldDue newDue) _ _ _ _ hReminders
  omega

/-- Only a completed task with a rule and a due date has a next date. -/
theorem nextDue_eq_some : t.nextDue = .ok (some newDue) ↔ t.status = .completed ∧
    ∃ rule due, t.recurrence = some rule ∧ t.due = some due ∧ rule.next due = .ok (some newDue) := by
  unfold nextDue done
  cases t.recurrence with
  | none => simp
  | some rule =>
    cases t.due with
    | none => simp
    | some due => by_cases hDone : t.status = .completed <;> simp [hDone]

/-- A renewal makes the occurrence of the next date, and nothing without one. -/
theorem renewed_eq_ok {found : Option Task} : t.renewed now n = .ok (found, n') ↔
    (t.nextDue = .ok none ∧ found = none ∧ n' = n) ∨
      ∃ oldDue newDue t', t.due = some oldDue ∧ t.nextDue = .ok (some newDue) ∧
        t.occurrence oldDue newDue now n = .ok (t', n') ∧ found = some t' := by
  have hNothing : (pure none : Fresh (Option Task)) n = .ok (found, n') ↔ found = none ∧ n' = n :=
    Fresh.pure_eq_ok.trans (and_congr eq_comm eq_comm)
  unfold renewed nextDue
  cases t.recurrence with
  | none => simp [hNothing]
  | some rule =>
    cases t.due with
    | none => simp [hNothing]
    | some due =>
      cases t.done with
      | false => simp [hNothing]
      | true =>
        simp only [Bool.not_true, Bool.false_eq_true, if_false, if_true, Fresh.bind_eq_ok, Fresh.lift_eq_ok]
        constructor
        · rintro ⟨next, _, ⟨hNext, rfl⟩, h⟩
          cases next with
          | none => exact .inl ⟨hNext, hNothing.mp h⟩
          | some newDue =>
            obtain ⟨t', _, hMade, h⟩ := Fresh.bind_eq_ok.mp h
            obtain ⟨rfl, rfl⟩ := Fresh.pure_eq_ok.mp h
            exact .inr ⟨due, newDue, t', rfl, hNext, hMade, rfl⟩
        · rintro (⟨hNext, hNone⟩ | ⟨_, newDue, t', ⟨⟩, hNext, hMade, rfl⟩)
          · exact ⟨none, n, ⟨hNext, rfl⟩, hNothing.mpr hNone⟩
          · exact ⟨some newDue, n, ⟨hNext, rfl⟩, Fresh.bind_eq_ok.mpr ⟨t', n', hMade, rfl⟩⟩

theorem renewed_of_ended (h : t.nextDue = .ok none) : t.renewed now n = .ok (none, n) :=
  renewed_eq_ok.mpr (.inl ⟨h, rfl, rfl⟩)

theorem renewed_cases {found : Option Task} (h : t.renewed now n = .ok (found, n')) :
    (t.nextDue = .ok none ∧ found = none ∧ n' = n) ∨
      ∃ t', t.recurs = true ∧ found = some t' ∧ t'.id = freshId n ∧ n < n' ∧ t'.source = some t.id ∧
        t'.status = .pending := by
  rcases renewed_eq_ok.mp h with hEnded | ⟨_, _, t', _, hNext, hMade, hFound⟩
  · exact .inl hEnded
  · refine .inr ⟨t', ?_, hFound, of_occurrence hMade⟩
    unfold recurs
    rw [hNext]

/-- The next occurrences of tasks, with the counter of identities before and after. -/
structure Occurrences (ts new : List Task) (n n' : Nat) : Prop where
  counter : n ≤ n'
  sources : new.map (·.source) = (ts.filter recurs).map fun t => some t.id
  drawn : ∀ t ∈ new, ∃ m, n ≤ m ∧ m < n' ∧ t.id = freshId m
  nodup : (new.map (·.id)).Nodup

theorem occurrences_of_mapM {found : List (Option Task)}
    (h : ts.mapM (renewed · now) n = .ok (found, n')) :
    Occurrences ts (found.filterMap fun t => t) n n' := by
  induction ts generalizing found n with
  | nil =>
    rw [List.mapM_nil] at h
    obtain ⟨rfl, rfl⟩ := Fresh.pure_eq_ok.mp h
    exact ⟨Nat.le_refl _, rfl, by simp, .nil⟩
  | cons t ts ih =>
    rw [List.mapM_cons] at h
    obtain ⟨first, m, hFirst, h⟩ := Fresh.bind_eq_ok.mp h
    obtain ⟨rest, k, hRest, h⟩ := Fresh.bind_eq_ok.mp h
    obtain ⟨rfl, rfl⟩ := Fresh.pure_eq_ok.mp h
    have hTail := ih hRest
    rcases renewed_cases hFirst with ⟨hNext, rfl, rfl⟩ | ⟨t', hRecurs, rfl, hId, hLess, hSource, _⟩
    · refine ⟨hTail.counter, ?_, hTail.drawn, hTail.nodup⟩
      rw [List.filter_cons_of_neg (by simp [recurs, hNext])]
      exact hTail.sources
    · have hCounter := hTail.counter
      refine ⟨by omega, ?_, ?_, ?_⟩
      · rw [List.filter_cons_of_pos hRecurs]
        exact congrArg₂ List.cons hSource hTail.sources
      · refine List.forall_mem_cons.mpr ⟨⟨n, Nat.le_refl n, by omega, hId⟩, ?_⟩
        intro u hu
        obtain ⟨j, hLow, hHigh, hDrawn⟩ := hTail.drawn u hu
        exact ⟨j, by omega, hHigh, hDrawn⟩
      · refine List.nodup_cons.mpr ⟨?_, hTail.nodup⟩
        intro hMem
        -- The identities of the others were drawn later.
        obtain ⟨u, hu, hSame⟩ := List.mem_map.mp hMem
        obtain ⟨j, hLow, _, hDrawn⟩ := hTail.drawn u hu
        have := freshId_injective (hDrawn.symm.trans (hSame.trans hId))
        omega

theorem occurrences_of_renewals (h : renewals tasks now n = .ok (new, n')) :
    Occurrences (tasks.filter fun t => !(sources tasks).contains t.id) new n n' := by
  obtain ⟨found, m, hFound, h⟩ := Fresh.bind_eq_ok.mp h
  obtain ⟨rfl, rfl⟩ := Fresh.pure_eq_ok.mp h
  exact occurrences_of_mapM hFound

theorem mem_sources {x : String} (hx : x ≠ "") : x ∈ sources tasks ↔ ∃ t ∈ tasks, t.source = some x := by
  simp only [sources, List.mem_filterMap, given, Option.filter_eq_some_iff, bne_iff_ne]
  constructor
  · rintro ⟨t, ht, hSource, _⟩
    exact ⟨t, ht, hSource⟩
  · rintro ⟨t, ht, hSource⟩
    exact ⟨t, ht, hSource, hx⟩

/-- A task of the list that recurs and that no task of the list names. -/
def Renewable (x : String) (tasks : List Task) : Prop :=
  (∃ t ∈ tasks, t.id = x ∧ t.recurs = true) ∧ ∀ t ∈ tasks, t.source ≠ some x

instance (x : String) (tasks : List Task) : Decidable (Renewable x tasks) :=
  inferInstanceAs (Decidable ((∃ t ∈ tasks, t.id = x ∧ t.recurs = true) ∧ ∀ t ∈ tasks, t.source ≠ some x))

theorem mem_renewable_iff {x : String} (hIds : ∀ t ∈ tasks, t.id ≠ "") :
    x ∈ ((tasks.filter fun t => !(sources tasks).contains t.id).filter recurs).map (·.id) ↔
      Renewable x tasks := by
  simp only [List.mem_map, List.mem_filter, Bool.not_eq_true', List.contains_eq_mem, decide_eq_false_iff_not]
  constructor
  · rintro ⟨t, ⟨⟨ht, hNot⟩, hRecurs⟩, rfl⟩
    refine ⟨⟨t, ht, rfl, hRecurs⟩, ?_⟩
    intro u hu hSource
    exact hNot ((mem_sources (hIds t ht)).mpr ⟨u, hu, hSource⟩)
  · rintro ⟨⟨t, ht, rfl, hRecurs⟩, hNot⟩
    refine ⟨t, ⟨⟨ht, ?_⟩, hRecurs⟩, rfl⟩
    intro hNamed
    obtain ⟨u, hu, hSource⟩ := (mem_sources (hIds t ht)).mp hNamed
    exact hNot u hu hSource

/-- A renewal makes one occurrence of a renewable task, and none of any other. -/
theorem length_renewals_of (x : String) (hNodup : (tasks.map (·.id)).Nodup) (hIds : ∀ t ∈ tasks, t.id ≠ "")
    (h : renewals tasks now n = .ok (new, n')) :
    (new.filter fun t => t.source = some x).length = if Renewable x tasks then 1 else 0 := by
  have hSources := (occurrences_of_renewals h).sources
  have hMem := @mem_renewable_iff tasks x hIds
  have hSublist := (List.filter_sublist.trans List.filter_sublist : ((tasks.filter fun t =>
    !(sources tasks).contains t.id).filter recurs).Sublist tasks)
  generalize (tasks.filter fun t => !(sources tasks).contains t.id).filter recurs = kept at hSources hMem hSublist
  calc (new.filter fun t => t.source = some x).length
      = (new.map (·.source)).count (some x) := by
        rw [List.count_eq_countP, List.countP_map, List.countP_eq_length_filter]
        exact congrArg List.length (List.filter_congr fun _ _ => (Bool.beq_eq_decide_eq _ _).symm)
    _ = ((kept.map (·.id)).map some).count (some x) := by
        rw [hSources, List.map_map]
        rfl
    _ = (kept.map (·.id)).count x := List.count_map_of_injective _ _ (fun _ _ h => Option.some.inj h) _
    _ = if Renewable x tasks then 1 else 0 := by
        rw [(hNodup.sublist (hSublist.map _)).count]
        exact if_congr hMem rfl rfl

end Agenda.Task
