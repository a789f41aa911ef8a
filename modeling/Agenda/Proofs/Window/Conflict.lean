import Agenda.Proofs.Window.Earliest
import Agenda.Proofs.Window.Suggestion

/-! # What a conflict check reports

A check reports the other open tasks with a due date that share an instant with the candidate, in the
order in which they stand. Sharing an instant does not depend on which of the two is asked for, so of
two such tasks each is reported for the other or neither is.
-/

namespace Agenda

namespace Task

structure Scheduled (t : Task) : Prop where
  dated : t.due.isSome = true
  uncompleted : t.status ≠ .completed
  unarchived : t.status ≠ .archived

/-- The instant lies in the time from the start of the task on for its duration. -/
def Occupies (t : Task) (default i : Int) : Prop :=
  ∃ start ∈ t.effectiveStart, start.instant ≤ i ∧ i < start.instant + t.duration default * minuteTicks

structure ConflictsWith (candidate : Task) (default : Int) (t : Task) : Prop where
  other : t.id ≠ candidate.id
  scheduled : t.Scheduled
  shared : ∃ i, candidate.Occupies default i ∧ t.Occupies default i

variable {candidate t : Task} {default i : Int} {w v : Window}

theorem takesTime_iff : t.takesTime = true ↔ t.Scheduled := by
  simp only [takesTime, done, Bool.and_eq_true, Bool.not_eq_true', beq_eq_false_iff_ne, bne_iff_ne]
  constructor
  · rintro ⟨⟨hDated, hDone⟩, hArchived⟩
    exact ⟨hDated, hDone, hArchived⟩
  · intro h
    exact ⟨⟨h.dated, h.uncompleted⟩, h.unarchived⟩

theorem exists_occupied_iff : (∃ i, candidate.Occupies default i ∧ t.Occupies default i) ↔
    ∃ a ∈ candidate.effectiveStart, ∃ b ∈ t.effectiveStart, max a.instant b.instant <
      min (a.instant + candidate.duration default * minuteTicks) (b.instant + t.duration default * minuteTicks) := by
  constructor
  · rintro ⟨i, ⟨a, ha, _, _⟩, b, hb, _, _⟩
    exact ⟨a, ha, b, hb, by omega⟩
  · rintro ⟨a, ha, b, hb, hLess⟩
    exact ⟨max a.instant b.instant, ⟨a, ha, by omega, by omega⟩, b, hb, by omega, by omega⟩

instance (t : Task) : Decidable t.Scheduled :=
  decidable_of_iff _ takesTime_iff

instance (candidate : Task) (default : Int) (t : Task) : Decidable (candidate.ConflictsWith default t) :=
  decidable_of_iff (t.id ≠ candidate.id ∧ t.Scheduled ∧
      ∃ a ∈ candidate.effectiveStart, ∃ b ∈ t.effectiveStart, max a.instant b.instant <
        min (a.instant + candidate.duration default * minuteTicks) (b.instant + t.duration default * minuteTicks))
    ⟨fun ⟨hOther, hScheduled, hShared⟩ => ⟨hOther, hScheduled, exists_occupied_iff.mpr hShared⟩,
      fun h => ⟨h.other, h.scheduled, exists_occupied_iff.mp h.shared⟩⟩

theorem occupies_iff_of_window (h : t.window default = .ok w) :
    t.Occupies default i ↔ w.start.instant ≤ i ∧ i < w.stop.instant := by
  unfold Occupies
  rw [(window_eq_ok.mp h).1, stop_of_window h]
  simp

/-- With room in the calendar for both, tasks share an instant exactly if their windows meet. -/
theorem exists_occupied_iff_clashes (hc : candidate.Timed) (ht : t.Timed) (hd : 0 < default)
    (hw : candidate.window default = .ok w) (hv : t.window default = .ok v) :
    (∃ i, candidate.Occupies default i ∧ t.Occupies default i) ↔ w.clashes default t = true := by
  have hOwn := (hc.proper_window hd hw).nonempty
  have hOther := (ht.proper_window hd hv).nonempty
  rw [Window.clashes_iff]
  simp only [occupies_iff_of_window hw, occupies_iff_of_window hv]
  constructor
  · rintro ⟨i, _, _⟩
    exact ⟨v, hv, by omega, by omega⟩
  · rintro ⟨u, hu, hMeets⟩
    cases hv.symm.trans hu
    obtain ⟨hBefore, hAfter⟩ := hMeets
    exact ⟨max w.start.instant v.start.instant, by omega, by omega⟩

theorem ConflictsWith.symm (h : candidate.ConflictsWith default t) (hc : candidate.Scheduled) :
    t.ConflictsWith default candidate := by
  obtain ⟨i, hOwn, hOther⟩ := h.shared
  exact ⟨h.other.symm, hc, i, hOther, hOwn⟩

end Task

namespace Window

variable {candidate other : Task} {existing tasks : List Task} {default last : Int} {due : Moment}
  {found found' : Option Conflict}

def reported (found : Option Conflict) : List Task :=
  (found.map (·.tasks)).getD []

theorem overlapping_of_conflict (hDue : candidate.due = some due) (h : conflict candidate existing default = .ok found) :
    overlapping candidate (others candidate existing) default = .ok (reported found) ∧
      (found.isSome = true ↔ reported found ≠ []) := by
  cases found with
  | none => exact ⟨(conflict_eq_none hDue).mp h, by simp [reported]⟩
  | some c =>
    obtain ⟨_, _, hTasks, hNonempty, _⟩ := conflict_eq_some.mp h
    exact ⟨hTasks, by simpa [reported] using hNonempty⟩

theorem reported_eq_filter (hc : candidate.Timed) (hTasks : ∀ t ∈ existing, t.Timed) (hd : 0 < default)
    (hDue : candidate.due = some due) (h : conflict candidate existing default = .ok found) :
    reported found = existing.filter (candidate.ConflictsWith default) := by
  obtain ⟨hOverlapping, _⟩ := overlapping_of_conflict hDue h
  obtain ⟨w, hw⟩ := window_of_overlapping hOverlapping
  obtain ⟨hWindows, hReported⟩ := (overlapping_eq_ok hc (timed_others candidate hTasks) hd hw).mp hOverlapping
  rw [hReported, others, List.filter_filter]
  refine List.filter_congr fun t ht => Bool.eq_iff_iff.mpr ?_
  rw [Bool.and_eq_true, Bool.and_eq_true, bne_iff_ne, Task.takesTime_iff, decide_eq_true_iff]
  have hClashes (hOther : t.id ≠ candidate.id) (hScheduled : t.Scheduled) :=
    hWindows t (List.mem_filter.mpr ⟨ht, by simp [hOther, Task.takesTime_iff.mpr hScheduled]⟩)
  constructor
  · rintro ⟨hClash, hOther, hScheduled⟩
    obtain ⟨v, hv⟩ := hClashes hOther hScheduled
    exact ⟨hOther, hScheduled, (Task.exists_occupied_iff_clashes hc (hTasks t ht) hd hw hv).mpr hClash⟩
  · rintro ⟨hOther, hScheduled, hShared⟩
    obtain ⟨v, hv⟩ := hClashes hOther hScheduled
    exact ⟨(Task.exists_occupied_iff_clashes hc (hTasks t ht) hd hw hv).mp hShared, hOther, hScheduled⟩

/-! ## Room in the calendar -/

theorem EndsBy.mono {t : Task} {minutes longer : Int} (hLonger : minutes ≤ longer) (h : EndsBy longer last t) :
    EndsBy minutes last t := by
  intro m hm
  have hEnd := h m hm
  have hDuration : t.duration minutes ≤ t.duration longer := by
    unfold Task.duration
    cases t.minutes with
    | none => exact hLonger
    | some n => exact Int.le_refl n
  unfold minuteTicks at *
  omega

/-- A conflict is found if every task ends in time and the candidate's time fits once more behind. -/
theorem exists_conflict (hc : candidate.Timed) (hTasks : ∀ t ∈ existing, t.Timed) (hd : 0 < default)
    (hDue : candidate.due = some due)
    (hEnds : ∀ t ∈ candidate :: existing, EndsBy (max default (candidate.duration default)) last t)
    (hFirst : due.instant + candidate.duration default * minuteTicks ≤ last)
    (hRoom : last + candidate.duration default * minuteTicks ≤ Moment.latest.ticks) :
    ∃ found, conflict candidate existing default = .ok found := by
  have hPos := hc.duration_pos hd
  have hTicks := Moment.latest_ticks
  have hLast : last ≤ Moment.latest.ticks := by
    unfold minuteTicks at hRoom
    omega
  obtain ⟨hOwnEnds, hEnds⟩ := List.forall_mem_cons.mp hEnds
  have hPlaced := placed_of_timed hc (.inr (hDue ▸ rfl))
  obtain ⟨w, hw, _⟩ := (hOwnEnds.mono (le_max_left _ _)).exists_window hc hPlaced hd hLast
  -- The others have windows, as conflicts are detected and as the search for a slot takes them.
  have hWindows (minutes : Int) (hMinutes : 0 < minutes) (hLonger : minutes ≤ max default (candidate.duration default)) :
      ∀ t ∈ others candidate existing, ∃ v, t.window minutes = .ok v ∧ v.stop.instant ≤ last := by
    intro t ht
    obtain ⟨ht, hOther⟩ := List.mem_filter.mp ht
    have hDated := (Task.takesTime_iff.mp (Bool.and_eq_true_iff.mp hOther).2).dated
    exact ((hEnds t ht).mono hLonger).exists_window (hTasks t ht) (placed_of_timed (hTasks t ht) (.inr hDated))
      hMinutes hLast
  have hTimed := timed_others candidate hTasks
  have hOverlapping := (overlapping_eq_ok hc hTimed hd hw).mpr
    ⟨fun t ht => (hWindows default hd (le_max_left _ _) t ht).imp fun _ h => h.1, rfl⟩
  obtain ⟨m, hSlot⟩ := exists_nextSlot hc hTimed hPos duration_duration (hc.due due hDue) (window_duration hw)
    (hWindows _ hPos (le_max_right _ _)) hFirst (by omega)
  unfold conflict
  simp only [hDue, hOverlapping, Attempt.ok_bind, hSlot]
  split
  · exact ⟨none, rfl⟩
  · exact ⟨_, rfl⟩

/-! ## Exact and symmetric -/

/-- Windows that are not empty overlap exactly if each starts before the other stops. A check reports
exactly the other open tasks with a due date that share an instant with the candidate, in their
order; only a date beyond the calendar keeps it from doing so, and with room behind all tasks none
is reckoned. Two open tasks with due dates are reported for each other or neither is. -/
theorem reports_shared (hc : candidate.Timed) (hDue : candidate.due = some due) (hTasks : ∀ t ∈ existing, t.Timed)
    (hd : 0 < default) :
    (∀ a b : Window, a.Nonempty → b.Nonempty →
      (a.overlaps b = .ok true ↔ a.start.lt b.stop = .ok true ∧ b.start.lt a.stop = .ok true) ∧
        a.overlaps b = b.overlaps a ∧
        (Moment.comparable a.start b.start = true → ∃ shared, a.overlaps b = .ok shared)) ∧
    (conflict candidate existing default ≠ .error .dateOverflow →
      ∃ found, conflict candidate existing default = .ok found ∧
        reported found = existing.filter (candidate.ConflictsWith default) ∧
        (found.isSome = true ↔ reported found ≠ [])) ∧
    (∀ last, (∀ t ∈ candidate :: existing, EndsBy (max default (candidate.duration default)) last t) →
      due.instant + candidate.duration default * minuteTicks ≤ last →
      last + candidate.duration default * minuteTicks ≤ Moment.latest.ticks →
      conflict candidate existing default ≠ .error .dateOverflow) ∧
    ∀ other ∈ existing, candidate.Scheduled → other.Scheduled → other.id ≠ candidate.id →
      ∀ tasks, candidate ∈ tasks → (∀ t ∈ tasks, t.Timed) → ∀ found found',
        conflict candidate existing default = .ok found → conflict other tasks default = .ok found' →
        (other ∈ reported found ↔ candidate ∈ reported found') := by
  refine ⟨fun a b ha hb => ?_, fun hFits => ?_, fun last hEnds hFirst hRoom => ?_, ?_⟩
  · refine ⟨overlaps_eq_true ha hb, overlaps_comm ha hb, fun hSame => ⟨decide (a.Meets b), ?_⟩⟩
    rw [overlaps_of_nonempty ha hb, if_pos hSame]
  · have hReckons : Attempt.Reckons (conflict candidate existing default) fun _ => True :=
      reckons_conflict hc.start hc.due fun t ht => ⟨(hTasks t ht).start, (hTasks t ht).due⟩
    cases hFound : conflict candidate existing default with
    | error f => exact absurd (hFound.trans (congrArg _ (hReckons.of_error hFound))) hFits
    | ok found =>
      exact ⟨found, rfl, reported_eq_filter hc hTasks hd hDue hFound, (overlapping_of_conflict hDue hFound).2⟩
  · obtain ⟨found, hFound⟩ := exists_conflict hc hTasks hd hDue hEnds hFirst hRoom
    rw [hFound]
    rintro ⟨⟩
  · intro other hOther hOwn hOpen hId tasks hMem hTasks' found found' hFound hFound'
    obtain ⟨due', hDue'⟩ := Option.isSome_iff_exists.mp hOpen.dated
    rw [reported_eq_filter hc hTasks hd hDue hFound,
      reported_eq_filter (hTasks other hOther) hTasks' hd hDue' hFound', List.mem_filter, List.mem_filter,
      decide_eq_true_iff, decide_eq_true_iff]
    exact ⟨fun h => ⟨hMem, h.2.symm hOwn⟩, fun h => ⟨hOther, h.2.symm hOpen⟩⟩

/-- The workshop has no due date and lunch comes later, so the review conflicts with the call alone,
and the call with the review. -/
theorem review_conflicts_with_call : ∃ found found', conflict review crowdedDay 60 = .ok found ∧
    conflict call [lunch, review] 60 = .ok found' ∧ reported found = [call] ∧
    (call ∈ reported found ↔ review ∈ reported found') := by
  have hReview : ∀ t ∈ crowdedDay, t.Timed := by decide
  have hCall : ∀ t ∈ [lunch, review], t.Timed := by decide
  have hEnds : ∀ t ∈ review :: crowdedDay, EndsBy (max 60 (review.duration 60)) (atMinute 780).ticks t := by
    unfold EndsBy
    decide
  have hEnds' : ∀ t ∈ [call, lunch, review], EndsBy (max 60 (call.duration 60)) (atMinute 780).ticks t := by
    unfold EndsBy
    decide
  obtain ⟨_, hReports, hRoom, hBoth⟩ := reports_shared (by decide : review.Timed) rfl hReview (by decide : (0 : Int) < 60)
  obtain ⟨_, hReports', hRoom', _⟩ := reports_shared (by decide : call.Timed) rfl hCall (by decide : (0 : Int) < 60)
  obtain ⟨found, hFound, hTasks, _⟩ := hReports (hRoom _ hEnds (by decide) (by decide))
  obtain ⟨found', hFound', _⟩ := hReports' (hRoom' _ hEnds' (by decide) (by decide))
  refine ⟨found, found', hFound, hFound', hTasks.trans (by decide), ?_⟩
  exact hBoth call (by decide) (by decide) (by decide) (by decide) _ (by decide) hCall _ _ hFound hFound'

end Window

end Agenda
