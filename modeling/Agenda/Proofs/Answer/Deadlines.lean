import Agenda.Proofs.Summary

/-! # Deadlines by the day

The answer about deadlines looks at a day as over at 23:59:59, one second before midnight. So a task is under
the day that it is due on, today if that has passed, except that one due within the last second of a day is
under the next day. The summary of today counts such a task still.
-/

namespace Agenda.Answer

open Summary

variable {tasks ts : List Task} {now m tomorrow week : Moment} {b : Bucket} {ahead : Int} {p : Task → Bool} {t : Task}

/-! ## Buckets -/

/-- What a bucket is for, by the days from today on. -/
def Bucket.Covers : Bucket → Int → Prop
  | .today, ahead => ahead ≤ 0
  | .tomorrow, ahead => ahead = 1
  | .thisWeek, ahead => 2 ≤ ahead ∧ ahead ≤ 7
  | .later, ahead => 7 < ahead

def Bucket.ofAhead (ahead : Int) : Bucket :=
  if ahead ≤ 0 then .today else if ahead ≤ 1 then .tomorrow else if ahead ≤ 7 then .thisWeek else .later

theorem Bucket.covers_iff : b.Covers ahead ↔ b = ofAhead ahead := by
  unfold ofAhead
  cases b <;> unfold Covers <;> split_ifs <;> simp only [iff_true, iff_false] <;> omega

instance (b : Bucket) (ahead : Int) : Decidable (b.Covers ahead) :=
  decidable_of_iff _ Bucket.covers_iff.symm

/-- Within the last second of its day. -/
def InLastSecond (m : Moment) : Prop :=
  Clock.dayEnd.ticks < m.clock.ticks

instance (m : Moment) : Decidable (InLastSecond m) :=
  inferInstanceAs (Decidable (_ < _))

/-- The days from today to the one that a due date is taken for. -/
def daysAhead (now m : Moment) : Int :=
  m.day.number - now.day.number + if InLastSecond m then 1 else 0

theorem le_endOfDay_iff (days : Int) :
    m.ticks ≤ (Moment.endOfDay now.day).ticks + days * 86400000000 ↔ daysAhead now m ≤ days := by
  have hEnd : (Moment.endOfDay now.day).ticks = now.day.number * 86400000000 + 86399000000 := rfl
  have hParts : m.day.number = m.ticks / 86400000000 ∧ m.clock.ticks = m.ticks % 86400000000 := ⟨rfl, rfl⟩
  have hDayEnd : Clock.dayEnd.ticks = 86399000000 := rfl
  unfold daysAhead
  by_cases hLast : InLastSecond m
  · rw [if_pos hLast]
    unfold InLastSecond at hLast
    omega
  · rw [if_neg hLast]
    unfold InLastSecond at hLast
    omega

theorem le_plusDays {day : Moment} {days : Int} (hLocal : m.isLocal = true)
    (hDay : (Moment.endOfDay now.day).plusDays days = .ok day) : m.le day = .ok (decide (daysAhead now m ≤ days)) := by
  have hDayLocal : day.isLocal = true := Moment.isLocal_plus hDay
  rw [Moment.le_of_isLocal hLocal hDayLocal, Moment.instant_of_isLocal hLocal, Moment.instant_of_isLocal hDayLocal,
    (Moment.plus_eq_ok.mp hDay).1, decide_eq_decide.mpr (le_endOfDay_iff days)]

theorem ofDue_eq (hLocal : m.isLocal = true) (hTomorrow : (Moment.endOfDay now.day).plusDays 1 = .ok tomorrow)
    (hWeek : (Moment.endOfDay now.day).plusDays 7 = .ok week) :
    Bucket.ofDue (.endOfDay now.day) tomorrow week m = .ok (.ofAhead (daysAhead now m)) := by
  have hToday : (Moment.endOfDay now.day).plusDays 0 = .ok (.endOfDay now.day) :=
    Moment.plus_eq_ok.mpr ⟨(Int.add_zero _).symm, rfl⟩
  unfold Bucket.ofDue Bucket.ofAhead
  rw [le_plusDays hLocal hToday, le_plusDays hLocal hTomorrow, le_plusDays hLocal hWeek]
  simp only [Attempt.ok_bind, decide_eq_true_eq]
  split_ifs <;> rfl

/-! ## The text -/

/-- The text that has these tasks in its buckets. -/
def listing (groups : Bucket → List Task) : String :=
  if Bucket.all.all fun b => (groups b).isEmpty then "You don't have any upcoming deadlines."
  else lines ("Upcoming deadlines" :: Bucket.all.flatMap fun b => b.lines (dated (groups b)))

/-- The task is due on the days of the bucket. -/
def Under (now : Moment) (b : Bucket) (t : Task) : Prop :=
  ∃ m ∈ t.due, b.Covers (daysAhead now m)

instance (now : Moment) (b : Bucket) (t : Task) : Decidable (Under now b t) :=
  inferInstanceAs (Decidable (∃ m ∈ t.due, _))

theorem dated_filter (p : Task → Bool) (ts : List Task) : dated (ts.filter p) = (dated ts).filter fun x => p x.2 := by
  induction ts with
  | nil => rfl
  | cons t ts ih =>
    unfold dated at ih ⊢
    cases hDue : t.due <;> by_cases hp : p t <;> simp [hDue, hp, ih]

theorem under_iff {m : Moment} (hDue : t.due = some m) : Under now b t ↔ b = .ofAhead (daysAhead now m) := by
  unfold Under
  rw [hDue, ← Bucket.covers_iff]
  simp

theorem exists_endOfDay_plusDays {days : Int} (hDays : 0 ≤ days) (hRoom : now.day.number + days ≤ 3652058) :
    ∃ day, (Moment.endOfDay now.day).plusDays days = .ok day := by
  have hEnd : (Moment.endOfDay now.day).ticks = now.day.number * 86400000000 + 86399000000 := rfl
  have hToday := now.day.inRange
  exact Moment.exists_plus (by omega) (by omega)

theorem deadlinesText_eq (hTasks : byDue (tasks.filter (·.status == .pending)) = .ok ts)
    (hDue : ∀ t ∈ ts, ∃ m, t.due = some m ∧ m.isLocal = true) (hRoom : now.day.number + 7 ≤ 3652058) :
    deadlinesText tasks now = .ok (listing fun b => ts.filter (Under now b)) := by
  have hNext : now.day.number + 1 ≤ 3652058 := by omega
  obtain ⟨tomorrow, hTomorrow⟩ := exists_endOfDay_plusDays (by decide) hNext
  obtain ⟨week, hWeek⟩ := exists_endOfDay_plusDays (by decide) hRoom
  have hPlaced : (dated ts).mapM (fun x => do
      return (← Bucket.ofDue (.endOfDay now.day) tomorrow week x.1, x.1, x.2) : Moment × Task → Except Fault _) =
        .ok ((dated ts).map fun x => (Bucket.ofAhead (daysAhead now x.1), x)) := by
    refine Attempt.mapM_of_ok fun x hx => ?_
    have hMem : x.2 ∈ ts := List.mem_of_mem_filter (map_dated ts ▸ List.mem_map_of_mem hx : x.2 ∈ ts.filter _)
    obtain ⟨m, hm, hLocal⟩ := hDue x.2 hMem
    cases (due_of_mem_dated hx).symm.trans hm
    rw [ofDue_eq hLocal hTomorrow hWeek]
    rfl
  have hGroup (b : Bucket) :
      (((dated ts).map fun x => (Bucket.ofAhead (daysAhead now x.1), x)).filter (·.1 == b)).map (·.2) =
        dated (ts.filter (Under now b)) := by
    rw [dated_filter, List.filter_map, List.map_map]
    refine (List.map_id _).trans (List.filter_congr fun x hx => Bool.eq_iff_iff.mpr ?_)
    rw [decide_eq_true_iff, under_iff (due_of_mem_dated hx), Function.comp_apply, beq_iff_eq, eq_comm]
  unfold deadlinesText
  rw [hTasks, Attempt.ok_bind]
  by_cases hNone : ts = []
  · subst hNone
    rfl
  · obtain ⟨t, ht⟩ := List.exists_mem_of_ne_nil ts hNone
    obtain ⟨m, hm, _⟩ := hDue t ht
    have hSome : ¬ (Bucket.all.all fun b => (ts.filter (Under now b)).isEmpty) = true := by
      rw [List.all_eq_true]
      intro hEmpty
      have hUnder : Under now (.ofAhead (daysAhead now m)) t := (under_iff hm).mpr rfl
      have hMem : t ∈ ts.filter (Under now (.ofAhead (daysAhead now m))) :=
        List.mem_filter.mpr ⟨ht, decide_eq_true hUnder⟩
      rw [List.isEmpty_iff.mp (hEmpty (.ofAhead (daysAhead now m)) (by cases Bucket.ofAhead _ <;> decide))] at hMem
      cases hMem
    rw [if_neg (by rwa [List.isEmpty_iff]), listing, if_neg hSome]
    simp only [← hGroup]
    exact Attempt.bind_eq_ok.mpr ⟨tomorrow, hTomorrow, Attempt.bind_eq_ok.mpr ⟨week, hWeek,
      Attempt.bind_eq_ok.mpr ⟨_, hPlaced, rfl⟩⟩⟩

/-! ## Deadlines and days -/

/-- The pending tasks in their buckets: each with a due date in one, that of the day that it is due on, or of the
next day if it is due within the last second. -/
structure Bucketed (tasks : List Task) (now : Moment) (groups : Bucket → List Task) : Prop where
  one : ∀ t ∈ tasks, t.status = .pending → t.due.isSome = true → ∃! b, t ∈ groups b
  onDay : ∀ t ∈ tasks, t.status = .pending → ∀ m ∈ t.due, ¬ InLastSecond m →
    ∀ b, t ∈ groups b ↔ b.Covers (m.day.number - now.day.number)
  lastSecond : ∀ t ∈ tasks, t.status = .pending → ∀ m ∈ t.due, InLastSecond m →
    ∀ b, t ∈ groups b ↔ b.Covers (m.day.number - now.day.number + 1)
  order : ∀ b, InDueOrder (tasks.filter fun t => t.status = .pending ∧ Under now b t) (groups b)
  today : ∀ ic, ∃ s, Summary.ofTasks tasks .today ic now = .ok s ∧
    ∀ t ∈ s.tasks, t.status = .pending → (t ∈ groups .today ↔ ∀ m ∈ t.due, ¬ InLastSecond m)

theorem bucketed_of_inDueOrder (hLocal : ∀ t ∈ tasks, ∀ m ∈ t.due, m.isLocal = true)
    (h : InDueOrder ((tasks.filter (·.status == .pending)).filter (·.due.isSome)) ts) :
    Bucketed tasks now fun b => ts.filter (Under now b) := by
  have hTasks (b : Bucket) : ((tasks.filter (·.status == .pending)).filter (·.due.isSome)).filter (Under now b) =
      tasks.filter fun t => t.status = .pending ∧ Under now b t := by
    rw [List.filter_filter, List.filter_filter]
    refine List.filter_congr fun t _ => Bool.eq_iff_iff.mpr ?_
    have hDated : Under now b t → t.due.isSome = true := fun ⟨m, hm, _⟩ => Option.isSome_of_mem hm
    simp only [Bool.and_eq_true, decide_eq_true_eq, beq_iff_eq]
    exact ⟨fun hAll => ⟨hAll.2, hAll.1.1⟩, fun hBoth => ⟨⟨hBoth.2, hDated hBoth.2⟩, hBoth.1⟩⟩
  have hOrder (b : Bucket) :
      InDueOrder (tasks.filter fun t => t.status = .pending ∧ Under now b t) (ts.filter (Under now b)) := by
    rw [← hTasks b]
    exact h.filter _
  have hMem : ∀ t ∈ tasks, t.status = .pending → ∀ m ∈ t.due, ∀ b,
      t ∈ ts.filter (Under now b) ↔ b = .ofAhead (daysAhead now m) := by
    intro t ht hPending m hm b
    rw [(hOrder b).perm.mem_iff, List.mem_filter, ← under_iff hm]
    simp [ht, hPending]
  refine ⟨fun t ht hPending hDated => ?one, fun t ht hPending m hm hEarly b => ?onDay,
    fun t ht hPending m hm hLate b => ?lastSecond, hOrder, fun ic => ?today⟩
  case one =>
    obtain ⟨m, hm⟩ := Option.isSome_iff_exists.mp hDated
    exact ⟨.ofAhead (daysAhead now m), (hMem t ht hPending m hm _).mpr rfl, fun b hb => (hMem t ht hPending m hm b).mp hb⟩
  case onDay =>
    rw [hMem t ht hPending m hm, ← Bucket.covers_iff, daysAhead, if_neg hEarly, Int.add_zero]
  case lastSecond =>
    rw [hMem t ht hPending m hm, ← Bucket.covers_iff, daysAhead, if_pos hLate]
  case today =>
    have hToday : Period.today.lastDay = 0 := rfl
    have hReached : Period.today.Reached now := by
      have hRange := now.day.inRange
      unfold Period.Reached
      omega
    obtain ⟨_, -, -, hSummary⟩ := exists_ofTasks ic hReached hLocal
    refine ⟨_, hSummary, fun t ht hPending => ?_⟩
    obtain ⟨hTask, hCounts⟩ := List.mem_filter.mp ht
    obtain ⟨m, hm⟩ := due_of_counts hCounts
    have hDay : m.day.number = now.day.number := by
      simp only [counts, hm, Option.any_some, Bool.and_eq_true, decide_eq_true_eq, hToday] at hCounts
      omega
    rw [hMem t hTask hPending m hm, ← Bucket.covers_iff, hm]
    unfold Bucket.Covers daysAhead
    by_cases hLate : InLastSecond m
    · simp [hLate, hDay]
    · simp [hLate, hDay]

/-- With due dates that have no offset and a week left in the calendar, the answer has every pending task with a due
date in the one bucket that its day belongs to; one due within the last second of its day is taken for the next day. -/
theorem deadlines_by_day (hLocal : ∀ t ∈ tasks, ∀ m ∈ t.due, m.isLocal = true) (hRoom : now.day.number + 7 ≤ 3652058)
    {question : List Char} (hTopic : Topic.ofQuestion question = .deadlines) :
    ∃ groups, ofQuestion question tasks now = .ok ⟨.deadlines, listing groups⟩ ∧ Bucketed tasks now groups := by
  have hPending : ∀ t ∈ tasks.filter (·.status == .pending), ∀ m ∈ t.due, m.isLocal = true :=
    fun t ht => hLocal t (List.mem_of_mem_filter ht)
  obtain ⟨ts, hTasks, hOrder, -⟩ := exists_inDueOrder hPending
  have hDue : ∀ t ∈ ts, ∃ m, t.due = some m ∧ m.isLocal = true := by
    intro t ht
    obtain ⟨hMem, hDated⟩ := List.mem_filter.mp (hOrder.perm.subset ht)
    obtain ⟨m, hm⟩ := Option.isSome_iff_exists.mp hDated
    exact ⟨m, hm, hPending t hMem m hm⟩
  refine ⟨fun b => ts.filter (Under now b), ?_, bucketed_of_inDueOrder hLocal hOrder⟩
  rw [ofQuestion, hTopic]
  exact Attempt.bind_eq_ok.mpr ⟨_, deadlinesText_eq hTasks hDue hRoom, rfl⟩

/-- Half past ten on the fifteenth of October 2024. -/
def octoberMorning : Moment := .on ⟨739173, by decide⟩ ⟨37800000000, by decide⟩

/-- Rent that was due the day before, a form for the last minute of today, a visit in a week and a trip the day after. -/
def octoberTasks : List Task :=
  [{ id := "a", title := "Trip", createdAt := octoberMorning, due := some (.on ⟨739181, by decide⟩ .midnight) },
    { id := "b", title := "Send form", createdAt := octoberMorning, due := some (.endOfDay ⟨739173, by decide⟩) },
    { id := "c", title := "Visit Ann", createdAt := octoberMorning, due := some (.endOfDay ⟨739180, by decide⟩) },
    { id := "d", title := "Pay rent", createdAt := octoberMorning, due := some (.on ⟨739172, by decide⟩ .noon) }]

theorem octoberTasks_by_day : ∃ groups,
    ofQuestion "what is due".toList octoberTasks octoberMorning = .ok ⟨.deadlines, listing groups⟩ ∧
      Bucketed octoberTasks octoberMorning groups ∧ (groups .today).Perm [octoberTasks[1], octoberTasks[3]] ∧
      groups .tomorrow = [] ∧ groups .thisWeek = [octoberTasks[2]] ∧ groups .later = [octoberTasks[0]] := by
  have hLocal : ∀ t ∈ octoberTasks, ∀ m ∈ t.due, m.isLocal = true := by decide
  have hRoom : octoberMorning.day.number + 7 ≤ 3652058 := by decide
  have hTopic : Topic.ofQuestion "what is due".toList = .deadlines := by decide
  obtain ⟨groups, hAnswer, hBuckets⟩ := deadlines_by_day hLocal hRoom hTopic
  refine ⟨groups, hAnswer, hBuckets, (hBuckets.order .today).perm, ?_, ?_, ?_⟩
  · exact List.perm_nil.mp (hBuckets.order .tomorrow).perm
  · exact List.perm_singleton.mp (hBuckets.order .thisWeek).perm
  · exact List.perm_singleton.mp (hBuckets.order .later).perm

/-- Packing due half a second before midnight. -/
def packing : Task :=
  { id := "a", title := "Pack", createdAt := octoberMorning,
    due := some (.on ⟨739173, by decide⟩ ⟨86399500000, by decide⟩) }

theorem packing_under_tomorrow : packing.due.map (·.day) = some octoberMorning.day ∧
    (∃ s, Summary.ofTasks [packing] .today false octoberMorning = .ok s ∧ s.tasks = [packing]) ∧
    ofQuestion "what is due".toList [packing] octoberMorning =
      .ok ⟨.deadlines, "Upcoming deadlines\nTomorrow\n- Pack"⟩ := by
  have hLocal : ∀ t ∈ [packing], ∀ m ∈ t.due, m.isLocal = true := by decide
  have hReached : Period.today.Reached octoberMorning := by decide
  obtain ⟨_, -, -, hSummary⟩ := exists_ofTasks false hReached hLocal
  obtain ⟨ts, hTasks, hOrder, -⟩ := exists_inDueOrder hLocal
  obtain rfl : ts = [packing] := List.perm_singleton.mp hOrder.perm
  have hDue : ∀ t ∈ [packing], ∃ m, t.due = some m ∧ m.isLocal = true := by decide
  have hRoom : octoberMorning.day.number + 7 ≤ 3652058 := by decide
  have hText : deadlinesText [packing] octoberMorning = _ := deadlinesText_eq hTasks hDue hRoom
  refine ⟨rfl, ⟨_, hSummary, rfl⟩, ?_⟩
  rw [ofQuestion, show Topic.ofQuestion "what is due".toList = .deadlines by decide]
  exact Attempt.bind_eq_ok.mpr ⟨_, hText, rfl⟩

end Agenda.Answer
