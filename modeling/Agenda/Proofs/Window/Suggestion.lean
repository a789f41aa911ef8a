import Agenda.Proofs.Window.FreeSlot

/-! # Suggested times

Conflicts are detected with the default time for tasks without an estimate, but the search for a
slot lends such tasks the candidate's own duration. Where that is not shorter than the default, the
time suggested is free. Where it is shorter, the search takes tasks for shorter than they are, and
a time can be suggested that conflicts again.
-/

namespace Agenda.Window

/-- The candidate, moved to the time suggested to it, no longer conflicts, provided that its window
there is in range. -/
def SuggestsFree (candidate : Task) (existing : List Task) (default : Int) : Prop :=
  ∀ c w, conflict candidate existing default = .ok (some c) →
    (candidate.movedTo c.suggested).window default = .ok w →
    conflict (candidate.movedTo c.suggested) existing default = .ok none

variable {candidate t : Task} {existing : List Task} {default : Int} {c : Conflict} {w : Window}

theorem conflict_eq_some : conflict candidate existing default = .ok (some c) ↔
    ∃ due, candidate.due = some due ∧
      overlapping candidate (others candidate existing) default = .ok c.tasks ∧ c.tasks ≠ [] ∧
      nextSlot candidate due (others candidate existing) (candidate.duration default) = .ok c.suggested := by
  unfold conflict
  constructor
  · intro h
    split at h
    · cases Attempt.pure_eq_ok.mp h
    · rename_i due hDue
      obtain ⟨ts, hTs, h⟩ := Attempt.bind_eq_ok.mp h
      split at h
      · cases Attempt.pure_eq_ok.mp h
      · rename_i hNonempty
        obtain ⟨m, hm, h⟩ := Attempt.bind_eq_ok.mp h
        cases Attempt.pure_eq_ok.mp h
        exact ⟨due, hDue, hTs, fun hNil => hNonempty (List.isEmpty_iff.mpr hNil), hm⟩
  · rintro ⟨due, hDue, hTs, hNonempty, hSlot⟩
    simp only [hDue, hTs, Attempt.ok_bind, hSlot]
    rw [if_neg (by rwa [List.isEmpty_iff])]
    rfl

theorem conflict_eq_none {due : Moment} (hDue : candidate.due = some due) :
    conflict candidate existing default = .ok none ↔
      overlapping candidate (others candidate existing) default = .ok [] := by
  unfold conflict
  rw [hDue, Attempt.bind_eq_ok]
  constructor
  · rintro ⟨ts, hTs, h⟩
    cases ts with
    | nil => exact hTs
    | cons t ts =>
      obtain ⟨_, _, h⟩ := Attempt.bind_eq_ok.mp h
      cases h
  · intro h
    exact ⟨[], h, rfl⟩

theorem conflict_movedTo_eq_none {m : Moment} :
    conflict (candidate.movedTo m) existing default = .ok none ↔
      overlapping (candidate.movedTo m) (others candidate existing) default = .ok [] :=
  conflict_eq_none rfl

theorem duration_duration : candidate.duration (candidate.duration default) = candidate.duration default := by
  unfold Task.duration
  cases candidate.minutes <;> rfl

theorem window_duration (hw : candidate.window default = .ok w) :
    candidate.window (candidate.duration default) = .ok w := by
  obtain ⟨hStart, hStop⟩ := Task.window_eq_ok.mp hw
  exact Task.window_eq_ok.mpr ⟨hStart, by rwa [duration_duration]⟩

theorem stop_le_stop {longer : Int} {v u : Window} (h : t.minutes = none → default ≤ longer)
    (hv : t.window default = .ok v) (hu : t.window longer = .ok u) :
    u.start = v.start ∧ v.stop.instant ≤ u.stop.instant := by
  have hSame : u.start = v.start :=
    Option.some.inj ((Task.window_eq_ok.mp hu).1.symm.trans (Task.window_eq_ok.mp hv).1)
  have hInstant := Task.stop_of_window hv
  have hInstant' := Task.stop_of_window hu
  have hDuration : t.duration default ≤ t.duration longer := by
    unfold Task.duration
    cases hMinutes : t.minutes with
    | none => exact h hMinutes
    | some n => exact Int.le_refl n
  refine ⟨hSame, ?_⟩
  rw [hSame] at hInstant'
  unfold minuteTicks at hInstant hInstant'
  omega

theorem timed_others (candidate : Task) (he : ∀ t ∈ existing, t.Timed) : ∀ t ∈ others candidate existing, t.Timed :=
  fun t ht => he t (List.mem_of_mem_filter ht)

/-- If no task is taken for shorter than it is, the time suggested is free. -/
theorem suggestsFree_of_fits (hc : candidate.Timed) (he : ∀ t ∈ existing, t.Timed) (hd : 0 < default)
    (hFits : ∀ t ∈ others candidate existing, t.minutes = none → default ≤ candidate.duration default) :
    SuggestsFree candidate existing default := by
  intro c w h hw
  obtain ⟨due, hDue, hTs, hNonempty, hSlot⟩ := conflict_eq_some.mp h
  have hTimed := timed_others candidate he
  have hPos := hc.duration_pos hd
  obtain ⟨own, hOwn⟩ := window_of_overlapping hTs
  obtain ⟨hWindows, hTasks⟩ := (overlapping_eq_ok hc hTimed hd hOwn).mp hTs
  obtain ⟨t, ht⟩ := List.exists_mem_of_ne_nil _ hNonempty
  rw [hTasks, List.mem_filter] at ht
  obtain ⟨v, hv, hMeets⟩ := clashes_iff.mp ht.2
  rcases nextSlot_cases hc hTimed hPos duration_duration (hc.due due hDue) hSlot with
    ⟨hNil, _⟩ | ⟨own', hw', hLent, ⟨hNil, _⟩ | ⟨_, hFree⟩⟩
  · rw [hNil] at ht
    cases ht.1
  · -- What overlaps for the default time overlaps for a longer one.
    cases (window_duration hOwn).symm.trans hw'
    obtain ⟨u, hu⟩ := hLent t ht.1
    obtain ⟨hStart, hStop⟩ := stop_le_stop (hFits t ht.1) hv hu
    have hClash : own.clashes (candidate.duration default) t = true :=
      clashes_iff.mpr ⟨u, hu, hMeets.1.trans_le hStop, hStart ▸ hMeets.2⟩
    exact absurd hClash (List.filter_eq_nil_iff.mp hNil t ht.1)
  · have hStart := start_of_window_movedTo hw
    have hStop := stop_of_window_movedTo hw
    rw [conflict_movedTo_eq_none, overlapping_eq_ok (timed_movedTo hc.minutes hFree.isLocal) hTimed hd hw]
    refine ⟨hWindows, (List.filter_eq_nil_iff.mpr ?_).symm⟩
    intro u hu hClash
    obtain ⟨v, hv, hBefore, hAfter⟩ := clashes_iff.mp hClash
    obtain ⟨lent, hLent⟩ := hLent u hu
    obtain ⟨hSame, hLonger⟩ := stop_le_stop (hFits u hu) hv hLent
    rw [hStart] at hBefore
    rw [hStop, ← hSame] at hAfter
    rcases hFree.free u hu lent hLent with h | h <;> omega

/-! ## Where the suggestion fails -/

/-- An open task without an estimate, other than the candidate. -/
def blocker (candidate : Task) (suffix : String) (m : Moment) : Task :=
  { id := candidate.id ++ suffix, title := "Blocker", createdAt := m, due := some m }

def blockers (candidate : Task) (m m' : Moment) : List Task :=
  [blocker candidate "+" m, blocker candidate "++" m']

theorem timed_blockers {m m' : Moment} (hm : m.isLocal = true) (hm' : m'.isLocal = true) :
    ∀ t ∈ blockers candidate m m', t.Timed := by
  have hTimed : ∀ (suffix : String) (n : Moment), n.isLocal = true →
      (blocker candidate suffix n).Timed := by
    intro suffix n hn
    refine ⟨?_, ?_, ?_⟩ <;> rintro _ ⟨⟩
    exact hn
  intro t ht
  simp only [blockers, List.mem_cons, List.not_mem_nil, or_false] at ht
  rcases ht with rfl | rfl
  · exact hTimed _ _ hm
  · exact hTimed _ _ hm'

theorem others_blockers (m m' : Moment) :
    others candidate (blockers candidate m m') = blockers candidate m m' := by
  have hId : ∀ suffix : String, suffix ≠ "" → (candidate.id ++ suffix != candidate.id) = true := by
    intro suffix hSuffix
    simpa using hSuffix
  simp [others, blockers, blocker, Task.takesTime, Task.done, hId]

theorem window_blocker (candidate : Task) (suffix : String) {m : Moment} {n : Int}
    (hm : m.isLocal = true) (hn : 0 < n) (hRoom : m.instant + n * minuteTicks < 315537897600000000) :
    ∃ v, (blocker candidate suffix m).window n = .ok v ∧ v.start = m ∧
      v.stop.instant = m.instant + n * minuteTicks := by
  have hDuration : (blocker candidate suffix m).duration n = n := rfl
  rw [← hDuration] at hn hRoom
  obtain ⟨v, hv, rfl⟩ := Task.exists_window rfl hm hn hRoom
  exact ⟨v, hv, rfl, Task.stop_of_window hv⟩

theorem freeAt_blockers {m m' : Moment} {v v' : Window} {minutes i : Int}
    (hv : (blocker candidate "+" m).window minutes = .ok v)
    (hv' : (blocker candidate "++" m').window minutes = .ok v') :
    FreeAt (blockers candidate m m') minutes i ↔
      (v.stop.instant ≤ i ∨ i + minutes * minuteTicks ≤ v.start.instant) ∧
        (v'.stop.instant ≤ i ∨ i + minutes * minuteTicks ≤ v'.start.instant) := by
  simp [FreeAt, blockers, hv, hv']

theorem clashes_blockers {m m' : Moment} {v v' : Window} {minutes : Int}
    (hv : (blocker candidate "+" m).window minutes = .ok v)
    (hv' : (blocker candidate "++" m').window minutes = .ok v') :
    (blockers candidate m m').filter (w.clashes minutes) = [] ↔ ¬ w.Meets v ∧ ¬ w.Meets v' := by
  simp [List.filter_eq_nil_iff, blockers, clashes, hv, hv']

/-- The search takes each blocker for as long as the candidate and comes to the end of one of them
at the latest. -/
theorem firstFree_blockers {due start m : Moment} {minutes : Int} (hDue : due.isLocal = true)
    (hStart : start.isLocal = true) (hPos : 0 < minutes)
    (hRoom : max due.instant start.instant + minutes * minuteTicks < 315537897600000000)
    (h : FirstFree (blockers candidate due start) minutes (due.instant + minutes * minuteTicks) m) :
    m.instant = due.instant + minutes * minuteTicks ∨ m.instant = start.instant + minutes * minuteTicks := by
  have hLength : 0 < minutes * minuteTicks := Int.mul_pos hPos (by decide)
  obtain ⟨v, hv, rfl, hStop⟩ := window_blocker candidate "+" hDue hPos (by omega)
  obtain ⟨v', hv', rfl, hStop'⟩ := window_blocker candidate "++" hStart hPos (by omega)
  have hFree := (freeAt_blockers hv hv').mp h.free
  have hAfter := h.after
  -- Nothing earlier is free, in particular not the ends of the two blockers.
  have hDueLeast := h.least (v.start.instant + minutes * minuteTicks) (Int.le_refl _)
  have hStartLeast := h.least (v'.start.instant + minutes * minuteTicks)
  rw [freeAt_blockers hv hv'] at hDueLeast hStartLeast
  omega

section Short

variable {due start : Moment}

/-- A candidate that starts with the second blocker conflicts, and is suggested the end of what the
search takes one of the blockers for. -/
theorem exists_conflict_blockers (hc : candidate.Timed) (hd : 0 < default) (hDue : candidate.due = some due)
    (hStart : candidate.effectiveStart = some start) (hShort : candidate.duration default < default)
    (hRoom : max due.instant start.instant + (default + candidate.duration default) * minuteTicks <
      315537897600000000) :
    ∃ c, conflict candidate (blockers candidate due start) default = .ok (some c) ∧
      c.suggested.isLocal = true ∧
      (c.suggested.instant = due.instant + candidate.duration default * minuteTicks ∨
        c.suggested.instant = start.instant + candidate.duration default * minuteTicks) := by
  have hDueLocal := hc.due due hDue
  have hStartLocal := hc.isLocal_start hStart
  have hPos := hc.duration_pos hd
  have hTimed : ∀ t ∈ blockers candidate due start, t.Timed := timed_blockers hDueLocal hStartLocal
  unfold minuteTicks at hRoom
  obtain ⟨own, hOwn, rfl⟩ := Task.exists_window hStart hStartLocal hPos (by unfold minuteTicks; omega)
  have hOwnStop := Task.stop_of_window hOwn
  -- The blockers as conflicts are detected, and as the search takes them.
  obtain ⟨v, hv, -, hvStop⟩ := window_blocker candidate "+" hDueLocal hd (by unfold minuteTicks; omega)
  obtain ⟨v', hv', hvStart, hvStop'⟩ :=
    window_blocker candidate "++" hStartLocal hd (by unfold minuteTicks; omega)
  obtain ⟨u, hu, -, huStop⟩ := window_blocker candidate "+" hDueLocal hPos (by unfold minuteTicks; omega)
  obtain ⟨u', hu', huStart, huStop'⟩ :=
    window_blocker candidate "++" hStartLocal hPos (by unfold minuteTicks; omega)
  unfold minuteTicks at hOwnStop hvStop hvStop' huStop huStop'
  have hWindows : ∀ t ∈ blockers candidate due own.start, ∃ w, t.window default = .ok w := by
    simp [blockers, hv, hv']
  have hLent : ∀ t ∈ blockers candidate due own.start, ∃ w,
      t.window (candidate.duration default) = .ok w ∧
        w.stop.instant ≤ max due.instant own.start.instant + candidate.duration default * 60000000 := by
    simp only [blockers, List.forall_mem_cons, List.not_mem_nil, false_imp_iff, implies_true, and_true]
    exact ⟨⟨u, hu, by omega⟩, ⟨u', hu', by omega⟩⟩
  have hClash : ∀ w, w.start = own.start → own.start.instant < w.stop.instant → own.Meets w := by
    intro w hSame hLater
    refine ⟨hLater, ?_⟩
    rw [hSame]
    omega
  obtain ⟨m, hSlot⟩ := exists_nextSlot hc hTimed hPos duration_duration hDueLocal (window_duration hOwn)
    hLent (by unfold minuteTicks; omega) (by unfold minuteTicks; omega)
  have hConflict : conflict candidate (blockers candidate due own.start) default =
      .ok (some ⟨(blockers candidate due own.start).filter (own.clashes default), m⟩) := by
    rw [conflict_eq_some, others_blockers]
    refine ⟨due, hDue, (overlapping_eq_ok hc hTimed hd hOwn).mpr ⟨hWindows, rfl⟩, ?_, hSlot⟩
    intro hNil
    exact ((clashes_blockers hv hv').mp hNil).2 (hClash v' hvStart (by omega))
  rcases nextSlot_cases hc hTimed hPos duration_duration hDueLocal hSlot with
    ⟨hNil, _⟩ | ⟨own', hOwn', _, ⟨hNil, _⟩ | ⟨_, hFree⟩⟩
  · cases hNil
  · cases (window_duration hOwn).symm.trans hOwn'
    exact absurd (hClash u' huStart (by omega)) ((clashes_blockers hu hu').mp hNil).2
  · refine ⟨_, hConflict, hFree.isLocal, ?_⟩
    exact firstFree_blockers hDueLocal hStartLocal hPos (by unfold minuteTicks; omega) hFree

/-- There it meets that blocker again, which takes longer than the search assumes. -/
theorem not_suggestsFree_of_short (hc : candidate.Timed) (hd : 0 < default)
    (hDue : candidate.due = some due) (hStart : candidate.effectiveStart = some start)
    (hShort : candidate.duration default < default)
    (hRoom : max due.instant start.instant + (default + candidate.duration default) * minuteTicks <
      315537897600000000) :
    ¬ SuggestsFree candidate (blockers candidate due start) default := by
  have hDueLocal := hc.due due hDue
  have hStartLocal := hc.isLocal_start hStart
  have hPos := hc.duration_pos hd
  obtain ⟨c, hConflict, hLocal, hEnd⟩ := exists_conflict_blockers hc hd hDue hStart hShort hRoom
  unfold minuteTicks at hRoom hEnd
  obtain ⟨v, hv, rfl, hvStop⟩ := window_blocker candidate "+" hDueLocal hd (by unfold minuteTicks; omega)
  obtain ⟨v', hv', rfl, hvStop'⟩ := window_blocker candidate "++" hStartLocal hd (by unfold minuteTicks; omega)
  have hMoved : (candidate.movedTo c.suggested).duration default = candidate.duration default := rfl
  obtain ⟨w, hw, hwStart⟩ := Task.exists_window (t := candidate.movedTo c.suggested) rfl hLocal
    (hMoved.symm ▸ hPos) (by rw [hMoved]; unfold minuteTicks; omega)
  have hwInstant := congrArg Moment.instant hwStart
  have hwStop := stop_of_window_movedTo hw
  unfold minuteTicks at hvStop hvStop' hwStop
  intro hSuggests
  have hNone := conflict_movedTo_eq_none.mp (hSuggests c w hConflict hw)
  rw [others_blockers, overlapping_eq_ok (timed_movedTo hc.minutes hLocal) (timed_blockers hDueLocal hStartLocal) hd hw]
    at hNone
  have hMeets := (clashes_blockers hv hv').mp hNone.2.symm
  unfold Meets at hMeets
  omega

end Short

/-! ## When suggestions are free -/

/-- A candidate that is not shorter than the default time is always suggested a free time, and with
room behind it no other candidate is. A shorter one is where no other task lacks an estimate. -/
theorem suggestsFree_iff_not_short {due start : Moment} (hc : candidate.Timed) (hd : 0 < default)
    (hDue : candidate.due = some due) (hStart : candidate.effectiveStart = some start)
    (hRoom : max due.instant start.instant + (default + candidate.duration default) * minuteTicks <
      315537897600000000) :
    ((∀ existing : List Task, (∀ t ∈ existing, t.Timed) → SuggestsFree candidate existing default) ↔
        default ≤ candidate.duration default) ∧
      ∀ existing : List Task, (∀ t ∈ existing, t.Timed) →
        (∀ t ∈ others candidate existing, t.minutes ≠ none) → SuggestsFree candidate existing default := by
  refine ⟨⟨?_, ?_⟩, ?_⟩
  · intro h
    by_contra hShort
    have hTimed := @timed_blockers candidate due start (hc.due due hDue) (hc.isLocal_start hStart)
    exact not_suggestsFree_of_short hc hd hDue hStart (by omega) hRoom (h _ hTimed)
  · intro hLong existing he
    exact suggestsFree_of_fits hc he hd fun _ _ _ => hLong
  · intro existing he hEstimated
    exact suggestsFree_of_fits hc he hd fun t ht hNone => absurd hNone (hEstimated t ht)

/-- Ten o'clock on a day of the year 2025. -/
def ten : Moment := ⟨63871754400000000, none, by decide, by decide⟩

def half : Task := { id := "b", title := "Half an hour", createdAt := ten, due := some ten, minutes := some 30 }

def whole : Task := { id := "a", title := "Without an estimate", createdAt := ten, due := some ten }

/-- Half an hour beside a task that takes the default hour is suggested a time within that hour, and
there the same time again. -/
theorem half_conflicts_again : ∃ c, conflict half [whole] 60 = .ok (some c) ∧
    (∃ w, (half.movedTo c.suggested).window 60 = .ok w) ∧
    conflict (half.movedTo c.suggested) [whole] 60 = .ok (some c) := by
  let halfPast : Moment := ⟨63871756200000000, none, by decide, by decide⟩
  let eleven : Moment := ⟨63871758000000000, none, by decide, by decide⟩
  exact ⟨⟨[whole], halfPast⟩, rfl, ⟨⟨halfPast, eleven⟩, rfl⟩, rfl⟩

theorem half_suggestsFree_iff :
    ((∀ existing : List Task, (∀ t ∈ existing, t.Timed) → SuggestsFree half existing 60) ↔
        60 ≤ half.duration 60) ∧
      ∀ existing : List Task, (∀ t ∈ existing, t.Timed) →
        (∀ t ∈ others half existing, t.minutes ≠ none) → SuggestsFree half existing 60 := by
  have hTimed : half.Timed := by
    refine ⟨?_, ?_, ?_⟩ <;> rintro _ ⟨⟩ <;> decide
  exact suggestsFree_iff_not_short hTimed (by decide) rfl rfl (by decide)

end Agenda.Window
