import Agenda.Proofs.Window.Range

/-! # The earliest slot

A candidate that meets no task keeps its due date. Any other is given the first time, from the end
of its length on, at which it would meet none. Only a date beyond the calendar keeps the slot from
being found, and none is reckoned where the candidate still fits behind every window.
-/

namespace Agenda.Window

open Attempt

variable {candidate t : Task} {tasks : List Task} {minutes last : Int} {due m : Moment} {w : Window}

/-- The candidate's window meets no window of the tasks. -/
def Unmet (candidate : Task) (tasks : List Task) (minutes : Int) : Prop :=
  ∀ w, candidate.window minutes = .ok w → ∀ t ∈ tasks, ∀ v, t.window minutes = .ok v → ¬ w.Meets v

/-- The slot of a candidate that is due at a time. -/
def IsSlot (candidate : Task) (tasks : List Task) (minutes : Int) (due m : Moment) : Prop :=
  (Unmet candidate tasks minutes ∧ m = due) ∨
    (¬ Unmet candidate tasks minutes ∧ FirstFree tasks minutes (due.instant + minutes * minuteTicks) m)

/-- The task is over by an instant, however long it is taken for. -/
def EndsBy (minutes last : Int) (t : Task) : Prop :=
  ∀ m ∈ t.effectiveStart, m.instant + t.duration minutes * minuteTicks ≤ last

theorem unmet_iff (hw : candidate.window minutes = .ok w) :
    Unmet candidate tasks minutes ↔ tasks.filter (w.clashes minutes) = [] := by
  rw [List.filter_eq_nil_iff]
  constructor
  · intro h t ht hClash
    obtain ⟨v, hv, hMeets⟩ := clashes_iff.mp hClash
    exact h w hw t ht v hv hMeets
  · intro h w' hw' t ht v hv hMeets
    cases hw.symm.trans hw'
    exact h t ht (clashes_iff.mpr ⟨v, hv, hMeets⟩)

theorem isSlot_of_nextSlot (hc : candidate.Timed) (hTasks : ∀ t ∈ tasks, t.Timed) (hPos : 0 < minutes)
    (hOwn : candidate.duration minutes = minutes) (hDue : due.isLocal = true)
    (h : nextSlot candidate due tasks minutes = .ok m) : IsSlot candidate tasks minutes due m := by
  rcases nextSlot_cases hc hTasks hPos hOwn hDue h with ⟨rfl, hm⟩ | ⟨w, hw, _, ⟨hNil, hm⟩ | ⟨hClash, hFree⟩⟩
  · refine .inl ⟨?_, hm⟩
    intro w _ t ht
    cases ht
  · exact .inl ⟨(unmet_iff hw).mpr hNil, hm⟩
  · exact .inr ⟨fun hUnmet => hClash ((unmet_iff hw).mp hUnmet), hFree⟩

theorem EndsBy.exists_window (h : EndsBy minutes last t) (ht : t.Timed) (hPlaced : t.Placed) (hPos : 0 < minutes)
    (hLast : last ≤ Moment.latest.ticks) : ∃ v, t.window minutes = .ok v ∧ v.stop.instant ≤ last := by
  obtain ⟨start, hStart, hLocal⟩ := hPlaced
  have hEnd := h start hStart
  have hTicks := Moment.latest_ticks
  obtain ⟨v, hv, rfl⟩ := Task.exists_window hStart hLocal (ht.duration_pos hPos) (by omega)
  exact ⟨v, hv, by rwa [Task.stop_of_window hv]⟩

theorem placed_of_timed (ht : t.Timed) (hDated : t.start.isSome = true ∨ t.due.isSome = true) : t.Placed := by
  have hSome : t.effectiveStart.isSome = true := by
    unfold Task.effectiveStart
    cases hStart : t.start with
    | some start => rfl
    | none => simpa [hStart] using hDated
  obtain ⟨m, hm⟩ := Option.isSome_iff_exists.mp hSome
  exact ⟨m, hm, ht.isLocal_start hm⟩

/-- The next slot of a candidate of that length is the earliest: its due date if it meets nothing,
and otherwise the first free time behind it. The search returns it unless a date leaves the
calendar, and with room behind all windows none does. -/
theorem nextSlot_earliest (hc : candidate.Timed) (hDue : candidate.due = some due) (hPos : 0 < minutes)
    (hOwn : candidate.duration minutes = minutes)
    (hTasks : ∀ t ∈ tasks, t.Timed ∧ (t.start.isSome = true ∨ t.due.isSome = true)) :
    (nextSlot candidate due tasks minutes ≠ .error .dateOverflow →
        ∃ m, nextSlot candidate due tasks minutes = .ok m ∧ IsSlot candidate tasks minutes due m) ∧
      ∀ last, (∀ t ∈ candidate :: tasks, EndsBy minutes last t) → due.instant + minutes * minuteTicks ≤ last →
        last + minutes * minuteTicks ≤ Moment.latest.ticks →
        nextSlot candidate due tasks minutes ≠ .error .dateOverflow := by
  have hTimed : ∀ t ∈ tasks, t.Timed := fun t ht => (hTasks t ht).1
  have hPlaced : ∀ t ∈ tasks, t.Placed := fun t ht => placed_of_timed (hTasks t ht).1 (hTasks t ht).2
  have hOwnPlaced : candidate.Placed := placed_of_timed hc (.inr (hDue ▸ rfl))
  have hLocal := hc.due due hDue
  constructor
  · intro hFits
    have hReckons : Reckons (nextSlot candidate due tasks minutes) fun _ => True :=
      reckons_nextSlot hOwnPlaced hPlaced hLocal
    cases hSlot : nextSlot candidate due tasks minutes with
    | error f => exact absurd (hSlot.trans (congrArg _ (hReckons.of_error hSlot))) hFits
    | ok m => exact ⟨m, rfl, isSlot_of_nextSlot hc hTimed hPos hOwn hLocal hSlot⟩
  · intro last hEnds hFirst hRoom
    obtain ⟨hOwnEnds, hEnds⟩ := List.forall_mem_cons.mp hEnds
    have hLast : last ≤ Moment.latest.ticks := by
      unfold minuteTicks at hRoom
      omega
    obtain ⟨w, hw, _⟩ := hOwnEnds.exists_window hc hOwnPlaced hPos hLast
    have hWindows : ∀ t ∈ tasks, ∃ v, t.window minutes = .ok v ∧ v.stop.instant ≤ last :=
      fun t ht => (hEnds t ht).exists_window (hTimed t ht) (hPlaced t ht) hPos hLast
    have hTicks := Moment.latest_ticks
    obtain ⟨m, hm⟩ := exists_nextSlot hc hTimed hPos hOwn hLocal hw hWindows hFirst (by omega)
    rw [hm]
    rintro ⟨⟩

/-- So many minutes after midnight of a day of the year 2025. -/
def atMinute (n : Nat) (h : n < 1440 := by decide) : Moment :=
  ⟨63871718400000000 + n * 60000000, none, by omega, by omega⟩

def review : Task := { id := "a", title := "Review", createdAt := atMinute 0, due := some (atMinute 600) }

def lunch : Task :=
  { id := "b", title := "Lunch", createdAt := atMinute 0, due := some (atMinute 750), minutes := some 30 }

def workshop : Task :=
  { id := "c", title := "Workshop", createdAt := atMinute 0, start := some (atMinute 570), minutes := some 150 }

def call : Task :=
  { id := "d", title := "Call", createdAt := atMinute 0, due := some (atMinute 615), minutes := some 30 }

/-- The workshop before lunch leaves half an hour, and there is a call during the workshop. -/
def crowdedDay : List Task :=
  [lunch, workshop, call]

theorem inOrder_crowdedDay : inOrder crowdedDay = .ok [workshop, call, lunch] := by
  have hStarts : crowdedDay.mapM (fun t => t.effectiveStart.map fun m => (m, t)) =
      some [(atMinute 750, lunch), (atMinute 570, workshop), (atMinute 615, call)] := rfl
  rw [inOrder, hStarts]
  · simp [Moment.sortBy, Moment.isLocal, List.mergeSort, Moment.instant, atMinute, Except.map]
  · simp [crowdedDay]
  · simp [crowdedDay]

theorem review_behind_lunch : nextSlot review (atMinute 600) crowdedDay 60 = .ok (atMinute 780) ∧
    IsSlot review crowdedDay 60 (atMinute 600) (atMinute 780) := by
  have hTimed : review.Timed := ⟨by decide, by decide, by decide⟩
  have hDay : ∀ t ∈ crowdedDay, (∀ m ∈ t.start, m.isLocal = true) ∧ (∀ m ∈ t.due, m.isLocal = true) ∧
      (∀ n ∈ t.minutes, 1 ≤ n) ∧ (t.start.isSome = true ∨ t.due.isSome = true) := by
    decide
  have hEnds : ∀ t ∈ review :: crowdedDay, EndsBy 60 (atMinute 780).ticks t := by
    unfold EndsBy
    decide
  have hTasks : ∀ t ∈ crowdedDay, t.Timed ∧ (t.start.isSome = true ∨ t.due.isSome = true) := by
    intro t ht
    obtain ⟨hStart, hDue, hMinutes, hDated⟩ := hDay t ht
    exact ⟨⟨hStart, hDue, hMinutes⟩, hDated⟩
  obtain ⟨hEarliest, hRoom⟩ := nextSlot_earliest hTimed rfl (by decide : (0 : Int) < 60) rfl hTasks
  obtain ⟨m, hSlot, hIsSlot⟩ := hEarliest (hRoom _ hEnds (by decide) (by decide))
  have hLunch : nextSlot review (atMinute 600) crowdedDay 60 = .ok (atMinute 780) := by
    rw [nextSlot, inOrder_crowdedDay]
    rfl
  cases hLunch.symm.trans hSlot
  exact ⟨hLunch, hIsSlot⟩

end Agenda.Window
