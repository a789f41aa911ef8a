import Agenda.Proofs.Window.Overlap

/-! # The first free slot

The search for a slot passes over the tasks in the order of their starts and keeps the moment up to
which all time is taken. What it knows on the way is one invariant; a gap ends the search, and
without a gap the end of the last window does. Either way it has found the first instant from
which the candidate's time is free.
-/

namespace Agenda.Window

/-- From an instant on, the time of so many minutes is clear of the windows of all tasks. -/
def FreeAt (tasks : List Task) (minutes i : Int) : Prop :=
  ∀ t ∈ tasks, ∀ v, t.window minutes = .ok v →
    v.stop.instant ≤ i ∨ i + minutes * minuteTicks ≤ v.start.instant

/-- The first instant at or after `first` from which the time is free. -/
structure FirstFree (tasks : List Task) (minutes first : Int) (m : Moment) : Prop where
  isLocal : m.isLocal = true
  after : first ≤ m.instant
  free : FreeAt tasks minutes m.instant
  least : ∀ i, first ≤ i → i < m.instant → ¬ FreeAt tasks minutes i

def StartOrdered (minutes : Int) (tasks : List Task) : Prop :=
  tasks.Pairwise fun a b => ∀ va vb, a.window minutes = .ok va → b.window minutes = .ok vb →
    va.start.instant ≤ vb.start.instant

/-- What the search knows at `free` with the tasks `ts` still ahead. -/
structure Searched (all ts : List Task) (minutes first : Int) (free : Moment) : Prop where
  isLocal : free.isLocal = true
  after : first ≤ free.instant
  passed : ∀ t ∈ all, t ∈ ts ∨ ∀ v, t.window minutes = .ok v → v.stop.instant ≤ free.instant
  ahead : ∀ t ∈ ts, t ∈ all
  sorted : StartOrdered minutes ts
  least : ∀ i, first ≤ i → i < free.instant → ¬ FreeAt all minutes i

variable {candidate t : Task} {all ts : List Task} {minutes first : Int} {free m : Moment} {w : Window}

namespace Searched

theorem start (hLocal : free.isLocal = true) (hSorted : StartOrdered minutes all) :
    Searched all all minutes free.instant free :=
  ⟨hLocal, Int.le_refl _, fun _ hu => .inl hu, fun _ hu => hu, hSorted,
    fun _ hFirst hi => absurd hi (Int.not_lt.mpr hFirst)⟩

theorem firstFree (h : Searched all [] minutes first free) : FirstFree all minutes first free := by
  refine ⟨h.isLocal, h.after, ?_, h.least⟩
  intro t ht v hv
  rcases h.passed t ht with hAhead | hPassed
  · cases hAhead
  · exact .inl (hPassed v hv)

/-- A gap before the next task is free of all tasks: those behind have stopped, and those ahead
start no earlier. -/
theorem firstFree_of_gap (h : Searched all (t :: ts) minutes first free)
    (hw : t.window minutes = .ok w) (hGap : free.instant + minutes * minuteTicks ≤ w.start.instant) :
    FirstFree all minutes first free := by
  refine ⟨h.isLocal, h.after, ?_, h.least⟩
  intro u hu v hv
  rcases h.passed u hu with hAhead | hPassed
  · right
    rcases List.mem_cons.mp hAhead with rfl | hLater
    · cases hw.symm.trans hv
      exact hGap
    · exact hGap.trans ((List.pairwise_cons.mp h.sorted).1 u hLater w v hw hv)
  · exact .inl (hPassed v hv)

theorem pass (h : Searched all (t :: ts) minutes first free) (hw : t.window minutes = .ok w)
    (hTaken : w.start.instant < free.instant + minutes * minuteTicks) {next : Moment}
    (hLocal : next.isLocal = true) (hNext : next.instant = max free.instant w.stop.instant) :
    Searched all ts minutes first next := by
  have hAfter := h.after
  refine ⟨hLocal, by omega, ?_, fun u hu => h.ahead u (List.mem_cons_of_mem _ hu),
    (List.pairwise_cons.mp h.sorted).2, ?_⟩
  · intro u hu
    rcases h.passed u hu with hAhead | hPassed
    · rcases List.mem_cons.mp hAhead with rfl | hLater
      · right
        intro v hv
        cases hw.symm.trans hv
        omega
      · exact .inl hLater
    · right
      intro v hv
      have := hPassed v hv
      omega
  · intro i hFirst hi hFree
    rcases Int.lt_or_le i free.instant with hBefore | hFrom
    · exact h.least i hFirst hBefore hFree
    · rcases hFree t (h.ahead t List.mem_cons_self) w hw with hStop | hStart
      · omega
      · omega

end Searched

/-! ## The search -/

theorem start_of_window_movedTo {n : Int} (hw : (candidate.movedTo m).window n = .ok w) : w.start = m :=
  (Option.some.inj (Task.window_eq_ok.mp hw).1).symm

theorem stop_of_window_movedTo {n : Int} (hw : (candidate.movedTo m).window n = .ok w) :
    w.stop.instant = m.instant + candidate.duration n * minuteTicks := by
  rw [Task.stop_of_window hw, start_of_window_movedTo hw]
  rfl

theorem timed_movedTo (hMinutes : ∀ n ∈ candidate.minutes, 1 ≤ n) (hm : m.isLocal = true) :
    (candidate.movedTo m).Timed where
  start := by rintro _ ⟨⟩; exact hm
  due := by rintro _ ⟨⟩; exact hm
  minutes := hMinutes

theorem freeAt_iff (hDuration : candidate.duration minutes = minutes)
    (hw : (candidate.movedTo m).window minutes = .ok w) :
    FreeAt all minutes m.instant ↔ all.filter (w.clashes minutes) = [] := by
  have hStart := start_of_window_movedTo hw
  have hStop := stop_of_window_movedTo hw
  rw [List.filter_eq_nil_iff]
  unfold FreeAt
  refine forall₂_congr fun t _ => ?_
  rw [clashes_iff]
  unfold Meets
  rw [hStart, hStop, hDuration]
  constructor
  · rintro h ⟨v, hv, hMeets⟩
    rcases h v hv with h | h <;> omega
  · intro h v hv
    by_contra hTaken
    exact h ⟨v, hv, by omega⟩

/-- One step of the search: it ends in a gap that the candidate fits, or goes on behind the task. -/
theorem slotFrom_cons {length : Int}
    (h : slotFrom candidate all minutes length free (t :: ts) = .ok m) :
    ∃ w stop gap, t.window minutes = .ok w ∧ free.plus length = .ok stop ∧
      stop.le w.start = .ok gap ∧
      ((gap = true ∧ overlapping (candidate.movedTo free) all minutes = .ok [] ∧ m = free) ∨
        ((gap = true → ∃ us, overlapping (candidate.movedTo free) all minutes = .ok us ∧ us ≠ []) ∧
          ∃ next, free.max w.stop = .ok next ∧
            slotFrom candidate all minutes length next ts = .ok m)) := by
  rw [slotFrom] at h
  simp only [Attempt.bind_eq_ok] at h
  obtain ⟨w, hw, stop, hStop, gap, hGap, h⟩ := h
  refine ⟨w, stop, gap, hw, hStop, hGap, ?_⟩
  cases gap with
  | false =>
    right
    obtain ⟨next, hNext, h⟩ := Attempt.bind_eq_ok.mp h
    refine ⟨?_, next, hNext, h⟩
    rintro ⟨⟩
  | true =>
    rw [if_pos rfl, Attempt.bind_eq_ok] at h
    obtain ⟨us, hUs, h⟩ := h
    cases us with
    | nil => exact .inl ⟨rfl, hUs, (Attempt.pure_eq_ok.mp h).symm⟩
    | cons u us =>
      right
      obtain ⟨next, hNext, h⟩ := Attempt.bind_eq_ok.mp h
      exact ⟨fun _ => ⟨u :: us, hUs, List.cons_ne_nil _ _⟩, next, hNext, h⟩

/-- The search finds the first free instant. -/
theorem firstFree_of_slotFrom (hc : candidate.Timed) (hAll : ∀ t ∈ all, t.Timed) (hPos : 0 < minutes)
    (hDuration : candidate.duration minutes = minutes) (hs : Searched all ts minutes first free)
    (h : slotFrom candidate all minutes (minutes * minuteTicks) free ts = .ok m) :
    FirstFree all minutes first m := by
  induction ts generalizing free with
  | nil =>
    cases h
    exact hs.firstFree
  | cons t ts ih =>
    obtain ⟨w, stop, gap, hw, hStop, hGap, h⟩ := slotFrom_cons h
    have hProper := (hAll t (hs.ahead t List.mem_cons_self)).proper_window hPos hw
    have hStopLocal := (Moment.isLocal_plus hStop).trans hs.isLocal
    have hInstant := Moment.instant_plus hStop
    rw [Moment.le_of_isLocal hStopLocal hProper.start, Except.ok.injEq] at hGap
    rcases h with ⟨hTrue, hUs, rfl⟩ | ⟨hUs, next, hNext, h⟩
    · rw [hTrue, decide_eq_true_eq] at hGap
      exact hs.firstFree_of_gap hw (by omega)
    · obtain ⟨last, hLast, hLastLocal, hMax⟩ := Moment.exists_max hs.isLocal hProper.stop
      cases hNext.symm.trans hLast
      refine ih (hs.pass hw ?_ hLastLocal hMax) h
      by_contra hWide
      -- The gap is free, so the candidate cannot have overlapped anything there.
      obtain ⟨us, hUs, hNonempty⟩ := hUs (hGap ▸ decide_eq_true (by omega))
      obtain ⟨v, hv⟩ := window_of_overlapping hUs
      have hFree := (hs.firstFree_of_gap hw (by omega)).free
      rw [overlapping_eq_ok (timed_movedTo hc.minutes hs.isLocal) hAll hPos hv,
        (freeAt_iff hDuration hv).mp hFree] at hUs
      exact hNonempty hUs.2

theorem exists_slotFrom {last : Int} (hc : candidate.Timed) (hAll : ∀ t ∈ all, t.Timed)
    (hPos : 0 < minutes) (hDuration : candidate.duration minutes = minutes)
    (hWindows : ∀ t ∈ all, ∃ v, t.window minutes = .ok v ∧ v.stop.instant ≤ last)
    (hRoom : last + minutes * minuteTicks < 315537897600000000)
    (hs : Searched all ts minutes first free) (hFree : free.instant ≤ last) :
    ∃ m, slotFrom candidate all minutes (minutes * minuteTicks) free ts = .ok m := by
  induction ts generalizing free with
  | nil => exact ⟨free, rfl⟩
  | cons t ts ih =>
    have ht := hs.ahead t List.mem_cons_self
    obtain ⟨w, hw, hLast⟩ := hWindows t ht
    have hProper := (hAll t ht).proper_window hPos hw
    have hMoved : (candidate.movedTo free).duration minutes = minutes := hDuration
    have hInRange : free.instant + minutes * minuteTicks < 315537897600000000 := by omega
    obtain ⟨v, hv, hStart⟩ := Task.exists_window rfl hs.isLocal (hMoved.symm ▸ hPos)
      (hMoved.symm ▸ hInRange)
    cases hStart
    have hStop := (Task.window_eq_ok.mp hv).2
    rw [hMoved] at hStop
    have hStopLocal := (Moment.isLocal_plus hStop).trans hs.isLocal
    have hInstant := Moment.instant_plus hStop
    obtain ⟨next, hNext, hNextLocal, hMax⟩ := Moment.exists_max hs.isLocal hProper.stop
    rw [slotFrom, hw, Attempt.ok_bind, hStop, Attempt.ok_bind,
      Moment.le_of_isLocal hStopLocal hProper.start, Attempt.ok_bind]
    by_cases hGap : v.stop.instant ≤ w.start.instant
    · have hClear := (freeAt_iff hDuration hv).mp (hs.firstFree_of_gap hw (by omega)).free
      have hUs : overlapping (candidate.movedTo v.start) all minutes = .ok [] :=
        (overlapping_eq_ok (timed_movedTo hc.minutes hs.isLocal) hAll hPos hv).mpr
          ⟨fun u hu => (hWindows u hu).imp fun _ h => h.1, hClear.symm⟩
      rw [if_pos (decide_eq_true hGap), hUs]
      exact ⟨v.start, rfl⟩
    · rw [if_neg (by simpa using hGap), hNext, Attempt.ok_bind]
      exact ih (hs.pass hw (by omega) hNextLocal hMax) (by omega)

/-! ## The order of the tasks -/

theorem map_snd_of_mapM {tasks : List Task} {pairs : List (Moment × Task)}
    (h : (tasks.mapM fun t => t.effectiveStart.map fun m => (m, t)) = some pairs) :
    pairs.map (·.2) = tasks ∧ ∀ p ∈ pairs, p.2.effectiveStart = some p.1 := by
  induction tasks generalizing pairs with
  | nil =>
    cases h
    exact ⟨rfl, by simp⟩
  | cons t ts ih =>
    rw [List.mapM_cons] at h
    obtain ⟨p, hp, h⟩ := Option.bind_eq_some_iff.mp h
    obtain ⟨ps, hps, h⟩ := Option.bind_eq_some_iff.mp h
    obtain ⟨m, hm, rfl⟩ := Option.map_eq_some_iff.mp hp
    cases h
    obtain ⟨hMap, hStarts⟩ := ih hps
    exact ⟨congrArg (t :: ·) hMap, List.forall_mem_cons.mpr ⟨hm, hStarts⟩⟩

theorem of_inOrder {tasks ordered : List Task} (h : inOrder tasks = .ok ordered) :
    ordered.Perm tasks ∧ StartOrdered minutes ordered := by
  unfold inOrder at h
  split at h
  · cases h
    exact ⟨.refl _, .nil⟩
  · cases h
    exact ⟨.refl _, List.pairwise_singleton _ _⟩
  · split at h
    · rename_i pairs hPairs
      obtain ⟨sorted, hSorted, rfl⟩ := Attempt.map_eq_ok.mp h
      obtain ⟨hMap, hStarts⟩ := map_snd_of_mapM hPairs
      have hPerm := Moment.perm_of_sortBy hSorted
      refine ⟨hMap ▸ hPerm.map _, ?_⟩
      rw [StartOrdered, List.pairwise_map]
      refine (Moment.pairwise_of_sortBy hSorted).imp_of_mem ?_
      intro a b ha hb hab va vb hva hvb
      have hStart := (Task.window_eq_ok.mp hva).1.symm.trans (hStarts a (hPerm.mem_iff.mp ha))
      have hStart' := (Task.window_eq_ok.mp hvb).1.symm.trans (hStarts b (hPerm.mem_iff.mp hb))
      rw [Option.some.inj hStart, Option.some.inj hStart']
      exact hab
    · cases h

theorem exists_mapM_start {tasks : List Task} (h : ∀ t ∈ tasks, ∃ m, t.effectiveStart = some m) :
    ∃ pairs, (tasks.mapM fun t => t.effectiveStart.map fun m => (m, t)) = some pairs := by
  induction tasks with
  | nil => exact ⟨[], rfl⟩
  | cons t ts ih =>
    obtain ⟨⟨m, hm⟩, hTs⟩ := List.forall_mem_cons.mp h
    obtain ⟨pairs, hPairs⟩ := ih hTs
    exact ⟨(m, t) :: pairs, by rw [List.mapM_cons, hm, hPairs]; rfl⟩

theorem exists_inOrder {tasks : List Task}
    (hStarts : ∀ t ∈ tasks, ∃ m, t.effectiveStart = some m ∧ m.isLocal = true) :
    ∃ ordered, inOrder tasks = .ok ordered := by
  obtain ⟨pairs, hPairs⟩ := exists_mapM_start fun t ht => (hStarts t ht).imp fun _ h => h.1
  obtain ⟨hMap, hKeys⟩ := map_snd_of_mapM hPairs
  have hLocal : ∀ p ∈ pairs, p.1.isLocal = true := by
    intro p hp
    obtain ⟨m, hStart, hLocal⟩ := hStarts p.2 (hMap ▸ List.mem_map_of_mem hp)
    rw [hKeys p hp] at hStart
    cases hStart
    exact hLocal
  obtain ⟨sorted, hSorted⟩ := Moment.sortBy_of_isLocal hLocal
  unfold inOrder
  split
  · exact ⟨_, rfl⟩
  · exact ⟨_, rfl⟩
  · rw [hPairs]
    exact ⟨_, Attempt.map_eq_ok.mpr ⟨sorted, hSorted, rfl⟩⟩

theorem FreeAt.of_perm {tasks others : List Task} {i : Int} (hPerm : tasks.Perm others)
    (h : FreeAt tasks minutes i) : FreeAt others minutes i :=
  fun t ht => h t (hPerm.mem_iff.mpr ht)

theorem FirstFree.of_perm {tasks others : List Task} (hPerm : tasks.Perm others)
    (h : FirstFree tasks minutes first m) : FirstFree others minutes first m :=
  ⟨h.isLocal, h.after, h.free.of_perm hPerm,
    fun i hFirst hi hFree => h.least i hFirst hi (hFree.of_perm hPerm.symm)⟩

/-! ## The next slot -/

/-- What a next slot is: the given start if the candidate overlaps nothing, and otherwise the first
free instant after its time from there has passed. -/
theorem nextSlot_cases {start : Moment} {existing : List Task} (hc : candidate.Timed)
    (he : ∀ t ∈ existing, t.Timed) (hPos : 0 < minutes) (hDuration : candidate.duration minutes = minutes)
    (hStart : start.isLocal = true) (h : nextSlot candidate start existing minutes = .ok m) :
    (existing = [] ∧ m = start) ∨
      ∃ w, candidate.window minutes = .ok w ∧ (∀ t ∈ existing, ∃ v, t.window minutes = .ok v) ∧
        (existing.filter (w.clashes minutes) = [] ∧ m = start ∨
          existing.filter (w.clashes minutes) ≠ [] ∧
            FirstFree existing minutes (start.instant + minutes * minuteTicks) m) := by
  rw [nextSlot] at h
  simp only [Attempt.bind_eq_ok] at h
  obtain ⟨length, hLength, ordered, hOrdered, h⟩ := h
  cases Moment.span_eq_ok hLength
  obtain ⟨hPerm, hSorted⟩ := of_inOrder hOrdered
  have hTimed : ∀ t ∈ ordered, t.Timed := fun t ht => he t (hPerm.mem_iff.mp ht)
  cases ordered with
  | nil => exact .inl ⟨hPerm.nil_eq.symm, (Attempt.pure_eq_ok.mp h).symm⟩
  | cons t ts =>
    right
    obtain ⟨us, hUs, h⟩ := Attempt.bind_eq_ok.mp h
    obtain ⟨w, hw⟩ := window_of_overlapping hUs
    obtain ⟨hWindows, rfl⟩ := (overlapping_eq_ok hc hTimed hPos hw).mp hUs
    refine ⟨w, hw, fun u hu => hWindows u (hPerm.mem_iff.mpr hu), ?_⟩
    have hFilter := hPerm.filter (w.clashes minutes)
    split at h
    · rename_i hNil
      rw [List.isEmpty_iff] at hNil
      rw [hNil] at hFilter
      exact .inl ⟨hFilter.nil_eq.symm, (Attempt.pure_eq_ok.mp h).symm⟩
    · rename_i hClash
      obtain ⟨free, hFree, h⟩ := Attempt.bind_eq_ok.mp h
      have hSearched := Searched.start ((Moment.isLocal_plus hFree).trans hStart) hSorted
      rw [Moment.instant_plus hFree] at hSearched
      refine .inr ⟨?_, (firstFree_of_slotFrom hc hTimed hPos hDuration hSearched h).of_perm hPerm⟩
      intro hNil
      rw [hNil] at hFilter
      exact hClash (List.isEmpty_iff.mpr hFilter.eq_nil)

/-- The next slot is found if the candidate's time still fits behind every window. -/
theorem exists_nextSlot {start : Moment} {existing : List Task} {last : Int} (hc : candidate.Timed)
    (he : ∀ t ∈ existing, t.Timed) (hPos : 0 < minutes) (hDuration : candidate.duration minutes = minutes)
    (hStart : start.isLocal = true) (hw : candidate.window minutes = .ok w)
    (hWindows : ∀ t ∈ existing, ∃ v, t.window minutes = .ok v ∧ v.stop.instant ≤ last)
    (hLast : start.instant + minutes * minuteTicks ≤ last)
    (hRoom : last + minutes * minuteTicks < 315537897600000000) :
    ∃ m, nextSlot candidate start existing minutes = .ok m := by
  have hStarts : ∀ t ∈ existing, ∃ m, t.effectiveStart = some m ∧ m.isLocal = true := by
    intro t ht
    obtain ⟨v, hv, _⟩ := hWindows t ht
    have hStart := (Task.window_eq_ok.mp hv).1
    exact ⟨v.start, hStart, (he t ht).isLocal_start hStart⟩
  obtain ⟨ordered, hOrdered⟩ := exists_inOrder hStarts
  obtain ⟨hPerm, hSorted⟩ := of_inOrder hOrdered
  have hTimed : ∀ t ∈ ordered, t.Timed := fun t ht => he t (hPerm.mem_iff.mp ht)
  have hWindows : ∀ t ∈ ordered, ∃ v, t.window minutes = .ok v ∧ v.stop.instant ≤ last :=
    fun t ht => hWindows t (hPerm.mem_iff.mp ht)
  have hLow := start.inRange
  rw [Moment.instant_of_isLocal hStart] at hLast
  have hSpan : Moment.span (minutes * minuteTicks) = .ok (minutes * minuteTicks) := if_pos (by
    unfold minuteTicks at *
    omega)
  obtain ⟨free, hFree⟩ : ∃ free, start.plus (minutes * minuteTicks) = .ok free := by
    apply Moment.exists_plus <;> unfold minuteTicks at * <;> omega
  have hSearched := Searched.start ((Moment.isLocal_plus hFree).trans hStart) hSorted
  have hUs : overlapping candidate ordered minutes = .ok (ordered.filter (w.clashes minutes)) :=
    (overlapping_eq_ok hc hTimed hPos hw).mpr ⟨fun t ht => (hWindows t ht).imp fun _ h => h.1, rfl⟩
  rw [nextSlot, hSpan, Attempt.ok_bind, hOrdered, Attempt.ok_bind]
  split
  · exact ⟨start, rfl⟩
  · rw [hUs, Attempt.ok_bind]
    split
    · exact ⟨start, rfl⟩
    · rw [hFree, Attempt.ok_bind]
      refine exists_slotFrom hc hTimed hPos hDuration hWindows hRoom hSearched ?_
      rw [Moment.instant_plus hFree, Moment.instant_of_isLocal hStart]
      exact hLast

end Agenda.Window
