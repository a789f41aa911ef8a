import Agenda.Proofs.Task.Valid
import Agenda.Proofs.Time.Moment
import Agenda.Recurrence.Renewal

/-! # The next date of a rule

A valid rule steps to a later date at the same time of day: by its days, weeks or months, and with
listed weekdays to the first listed day behind its weeks. The next date is that one, unless the rule
ends before it.
-/

namespace Agenda.Recurrence

variable {r : Recurrence} {due base m m' : Moment} {days : List Int} {k weekday day first : Int} {f : Fault}

/-! ## Listed weekdays -/

/-- The first whole number of days after which it is a listed weekday. -/
structure FirstDay (days : List Int) (weekday k : Int) : Prop where
  pos : 1 ≤ k
  listed : (weekday + k) % 7 ∈ days
  least : ∀ j, 1 ≤ j → (weekday + j) % 7 ∈ days → k ≤ j

/-- A listed day comes before the week is over. -/
theorem firstDay_within (hOrder : days.Pairwise (· < ·)) (hDays : ∀ d ∈ days, 0 ≤ d ∧ d ≤ 6) (hLow : 0 ≤ weekday)
    (hFind : days.find? (weekday < ·) = some day) : FirstDay days weekday (day - weekday) := by
  obtain ⟨hLater, before, after, rfl, hBefore⟩ := List.find?_eq_some_iff_append.mp hFind
  have hLater := of_decide_eq_true hLater
  have hDay := hDays day (by simp)
  have hMod : (weekday + (day - weekday)) % 7 = day := by omega
  refine ⟨by omega, hMod.symm ▸ by simp, fun j hj hListed => ?_⟩
  by_contra hEarlier
  have hMod' : (weekday + j) % 7 = weekday + j := by omega
  rw [hMod'] at hListed
  -- No day listed before the found one is later, and those listed behind it are later than it.
  rcases List.mem_append.mp hListed with hIn | hIn
  · have hNot := hBefore _ hIn
    simp only [Bool.not_eq_true', decide_eq_false_iff_not] at hNot
    omega
  · rcases List.mem_cons.mp hIn with hSame | hIn
    · omega
    · have hLess := (List.pairwise_cons.mp (List.pairwise_append.mp hOrder).2.1).1 _ hIn
      omega

/-- The first day of the list comes again when the week is over. -/
theorem firstDay_across {rest : List Int} (hOrder : (first :: rest).Pairwise (· < ·))
    (hDays : ∀ d ∈ first :: rest, 0 ≤ d ∧ d ≤ 6) (hHigh : weekday ≤ 6) (hNone : ∀ d ∈ first :: rest, d ≤ weekday) :
    FirstDay (first :: rest) weekday (7 - weekday + first) := by
  have hFirst := hDays first List.mem_cons_self
  have hOver := hNone first List.mem_cons_self
  have hMod : (weekday + (7 - weekday + first)) % 7 = first := by omega
  refine ⟨by omega, hMod.symm ▸ List.mem_cons_self, fun j hj hListed => ?_⟩
  have hUp := hNone _ hListed
  have hDown : first ≤ (weekday + j) % 7 := by
    rcases List.mem_cons.mp hListed with hSame | hIn
    · exact hSame.ge
    · exact ((List.pairwise_cons.mp hOrder).1 _ hIn).le
  omega

theorem firstDay_daysUntil (hr : r.Valid) (hSome : r.days ≠ []) (hLow : 0 ≤ weekday) (hHigh : weekday ≤ 6) :
    FirstDay r.days weekday (daysUntil r.days weekday) := by
  have hOrder := hr.increasing
  have hDays := hr.weekdays
  unfold daysUntil
  cases hFind : r.days.find? (weekday < ·) with
  | some day => exact firstDay_within hOrder hDays hLow hFind
  | none =>
    have hNone : ∀ d ∈ r.days, d ≤ weekday := by simpa using hFind
    cases hList : r.days with
    | nil => exact absurd hList hSome
    | cons first rest =>
      rw [hList] at hOrder hDays hNone
      exact firstDay_across hOrder hDays hHigh hNone

/-! ## The date that a rule steps to -/

/-- The least moment whole days behind another, at least one, that falls on a listed weekday. -/
structure FirstListed (days : List Int) (base m : Moment) : Prop where
  reached : ∃ k, 1 ≤ k ∧ base.plusDays k = .ok m
  listed : m.day.weekday ∈ days
  least : ∀ k m', 1 ≤ k → base.plusDays k = .ok m' → m'.day.weekday ∈ days → m.instant ≤ m'.instant

/-- The date that follows a due date, as long as the rule goes on. -/
inductive Candidate (r : Recurrence) (due : Moment) : Moment → Prop
  | daily {m : Moment} (hRhythm : r.rhythm = .daily) (hStep : due.plusDays r.interval = .ok m) : Candidate r due m
  | weekly {m : Moment} (hRhythm : r.rhythm = .weekly) (hDays : r.days = [])
      (hStep : due.plusDays (7 * r.interval) = .ok m) : Candidate r due m
  | listed {base m : Moment} (hRhythm : r.rhythm = .weekly) (hDays : r.days ≠ [])
      (hStep : due.plusDays (7 * r.interval) = .ok base) (hFirst : FirstListed r.days base m) : Candidate r due m
  | monthly {m : Moment} (hRhythm : r.rhythm = .monthly) (hStep : due.plusMonths r.interval = .ok m) : Candidate r due m

theorem weekday_plusDays (h : base.plusDays k = .ok m) : m.day.weekday = (base.day.weekday + k) % 7 := by
  have hNumber := (Moment.plusDays_eq_ok.mp h).1
  unfold Day.weekday
  omega

theorem instant_plusDays_le {j : Int} (h : base.plusDays k = .ok m) (h' : base.plusDays j = .ok m') :
    m.instant ≤ m'.instant ↔ k ≤ j := by
  rw [Moment.instant_plus h, Moment.instant_plus h']
  omega

theorem firstListed_iff (hr : r.Valid) (hSome : r.days ≠ []) :
    FirstListed r.days base m ↔ base.plusDays (daysUntil r.days base.day.weekday) = .ok m := by
  have hWeekday : 0 ≤ base.day.weekday ∧ base.day.weekday ≤ 6 := by
    unfold Day.weekday
    omega
  have hFirst := firstDay_daysUntil hr hSome hWeekday.1 hWeekday.2
  generalize daysUntil r.days base.day.weekday = n at hFirst
  constructor
  · rintro ⟨⟨k, hk, hReached⟩, hListed, hLeast⟩
    rw [weekday_plusDays hReached] at hListed
    have hLow := hFirst.least k hk hListed
    -- What lies no further than a moment of the calendar is one.
    obtain ⟨m', hm'⟩ : ∃ m', base.plusDays n = .ok m' := by
      have hBase := base.inRange
      have hEnd := Moment.exists_plus_iff.mp ⟨m, hReached⟩
      have hPos := hFirst.pos
      exact Moment.exists_plus_iff.mpr (by omega)
    have hHigh := (instant_plusDays_le hReached hm').mp
      (hLeast n m' hFirst.pos hm' ((weekday_plusDays hm').symm ▸ hFirst.listed))
    rwa [show n = k by omega]
  · intro hReached
    refine ⟨⟨n, hFirst.pos, hReached⟩, (weekday_plusDays hReached).symm ▸ hFirst.listed, ?_⟩
    intro k m' hk hm' hListed
    rw [weekday_plusDays hm'] at hListed
    exact (instant_plusDays_le hReached hm').mpr (hFirst.least k hk hListed)

theorem plusDays_daysUntil_nil (base : Moment) (weekday : Int) : base.plusDays (daysUntil [] weekday) = .ok base :=
  Moment.plus_eq_ok.mpr ⟨(Int.add_zero _).symm, rfl⟩

theorem step_eq_some (hr : r.Valid) : r.step due = .ok (some m) ↔ r.Candidate due m := by
  unfold step
  constructor
  · intro h
    cases hRhythm : r.rhythm with
    | daily =>
      simp only [hRhythm, Attempt.map_eq_ok, Option.some.injEq] at h
      obtain ⟨_, hStep, rfl⟩ := h
      exact .daily hRhythm hStep
    | weekly =>
      simp only [hRhythm, Attempt.bind_eq_ok, Attempt.pure_eq_ok, Option.some.injEq] at h
      obtain ⟨base, hStep, _, hNext, rfl⟩ := h
      by_cases hSome : r.days = []
      · rw [hSome, plusDays_daysUntil_nil] at hNext
        cases hNext
        exact .weekly hRhythm hSome hStep
      · exact .listed hRhythm hSome hStep ((firstListed_iff hr hSome).mpr hNext)
    | monthly =>
      simp only [hRhythm, Attempt.map_eq_ok, Option.some.injEq] at h
      obtain ⟨_, hStep, rfl⟩ := h
      exact .monthly hRhythm hStep
    | custom =>
      simp only [hRhythm] at h
      cases h
  · rintro (⟨hRhythm, hStep⟩ | ⟨hRhythm, hDays, hStep⟩ | ⟨hRhythm, hDays, hStep, hFirst⟩ | ⟨hRhythm, hStep⟩)
    all_goals simp only [hRhythm, hStep]
    · rfl
    · rw [Attempt.ok_bind, hDays, plusDays_daysUntil_nil]
      rfl
    · rw [Attempt.ok_bind, (firstListed_iff hr hDays).mp hFirst]
      rfl
    · rfl

theorem step_eq_none : r.step due = .ok none ↔ r.rhythm = .custom := by
  unfold step
  constructor
  · intro h
    cases hRhythm : r.rhythm with
    | custom => rfl
    | daily | monthly =>
      simp only [hRhythm] at h
      obtain ⟨_, _, ⟨⟩⟩ := Attempt.map_eq_ok.mp h
    | weekly =>
      simp only [hRhythm] at h
      obtain ⟨_, _, h⟩ := Attempt.bind_eq_ok.mp h
      obtain ⟨_, _, ⟨⟩⟩ := Attempt.bind_eq_ok.mp h
  · intro h
    rw [h]

theorem step_eq_error (h : r.step due = .error f) : f = .dateOverflow ∨ f = .noSuchDate := by
  unfold step at h
  cases hRhythm : r.rhythm with
  | daily =>
    simp only [hRhythm, Attempt.map_eq_error] at h
    exact .inl (Moment.plus_eq_error h)
  | weekly =>
    simp only [hRhythm] at h
    rcases Attempt.bind_eq_error.mp h with h | ⟨_, _, h⟩
    · exact .inl (Moment.plus_eq_error h)
    · rcases Attempt.bind_eq_error.mp h with h | ⟨_, _, ⟨⟩⟩
      exact .inl (Moment.plus_eq_error h)
  | monthly =>
    simp only [hRhythm, Attempt.map_eq_error] at h
    exact Moment.plusMonths_eq_error h
  | custom =>
    simp only [hRhythm] at h
    cases h

theorem offset_of_step (h : r.step due = .ok (some m)) : m.offset = due.offset := by
  unfold step at h
  split at h
  · obtain ⟨_, hPlus, hSome⟩ := Attempt.map_eq_ok.mp h
    cases hSome
    exact (Moment.plus_eq_ok.mp hPlus).2
  · obtain ⟨base, hBase, h⟩ := Attempt.bind_eq_ok.mp h
    obtain ⟨_, hNext, h⟩ := Attempt.bind_eq_ok.mp h
    cases Attempt.pure_eq_ok.mp h
    exact (Moment.plus_eq_ok.mp hNext).2.trans (Moment.plus_eq_ok.mp hBase).2
  · obtain ⟨_, hPlus, hSome⟩ := Attempt.map_eq_ok.mp h
    cases hSome
    exact (Moment.plusMonths_eq_ok.mp hPlus).2.2.2
  · cases h

/-! ## How far a step goes -/

theorem FirstDay.le_seven (h : FirstDay days weekday k) : k ≤ 7 := by
  have hPos := h.pos
  have hListed : (weekday + ((k - 1) % 7 + 1)) % 7 ∈ days := by
    rw [show (weekday + ((k - 1) % 7 + 1)) % 7 = (weekday + k) % 7 by omega]
    exact h.listed
  have hLeast := h.least _ (by omega) hListed
  omega

theorem plusDays_plusDays {j : Int} (h : due.plusDays j = .ok base) (h' : base.plusDays k = .ok m) :
    due.plusDays (j + k) = .ok m := by
  obtain ⟨hNumber, hClock, hOffset⟩ := Moment.plusDays_eq_ok.mp h
  obtain ⟨hNumber', hClock', hOffset'⟩ := Moment.plusDays_eq_ok.mp h'
  exact Moment.plusDays_eq_ok.mpr ⟨by omega, hClock'.trans hClock, hOffset'.trans hOffset⟩

/-- Behind its weeks, a rule with listed days goes on for a day at least and a week at most. -/
theorem FirstListed.within (hr : r.Valid) (hDays : r.days ≠ []) (h : FirstListed r.days base m) :
    ∃ k, 1 ≤ k ∧ k ≤ 7 ∧ (base.day.weekday + k) % 7 ∈ r.days ∧ base.plusDays k = .ok m := by
  have hFirst := firstDay_daysUntil hr hDays (by unfold Day.weekday; omega : 0 ≤ base.day.weekday)
    (by unfold Day.weekday; omega)
  exact ⟨_, hFirst.pos, hFirst.le_seven, hFirst.listed, (firstListed_iff hr hDays).mp h⟩

namespace Candidate

/-- Every date that a rule steps to falls on a later day, at the same time of day. -/
theorem later (hr : r.Valid) (h : r.Candidate due m) :
    due.day.number < m.day.number ∧ m.clock = due.clock ∧ m.offset = due.offset := by
  have hInterval := hr.interval
  -- All but the monthly rules come down to whole days.
  have hDays {n : Int} {m : Moment} (hn : 1 ≤ n) (h : due.plusDays n = .ok m) :
      due.day.number < m.day.number ∧ m.clock = due.clock ∧ m.offset = due.offset := by
    obtain ⟨hNumber, hKept⟩ := Moment.plusDays_eq_ok.mp h
    exact ⟨by omega, hKept⟩
  cases h with
  | daily _ hStep => exact hDays hInterval hStep
  | weekly _ _ hStep => exact hDays (by omega) hStep
  | listed _ hSome hStep hFirst =>
    obtain ⟨k, hk, _, _, hNext⟩ := hFirst.within hr hSome
    exact hDays (by omega) (plusDays_plusDays hStep hNext)
  | monthly _ hStep =>
    obtain ⟨hMonth, _, hKept⟩ := Moment.plusMonths_eq_ok.mp hStep
    refine ⟨?_, hKept⟩
    by_contra hEarlier
    have hIndex := Day.monthIndex_le (Int.not_lt.mp hEarlier)
    omega

theorem weeks (hr : r.Valid) (hRhythm : r.rhythm = .weekly) (hSome : r.days ≠ []) (h : r.Candidate due m) :
    (∃ k, 7 * r.interval + 1 ≤ k ∧ k ≤ 7 * r.interval + 7 ∧ due.plusDays k = .ok m) ∧
      (r.days = [due.day.weekday] → due.plusDays (7 * (r.interval + 1)) = .ok m) := by
  cases h with
  | listed _ _ hStep hFirst =>
    obtain ⟨k, hk, hk', hListed, hNext⟩ := hFirst.within hr hSome
    have hReached := plusDays_plusDays hStep hNext
    refine ⟨⟨_, by omega, by omega, hReached⟩, fun hOnly => ?_⟩
    rw [hOnly, List.mem_singleton, weekday_plusDays hStep] at hListed
    rwa [show 7 * (r.interval + 1) = 7 * r.interval + k by unfold Day.weekday at hListed; omega]
  | weekly _ hNone _ => exact absurd hNone hSome
  | daily hOther _ | monthly hOther _ =>
    rw [hRhythm] at hOther
    cases hOther

end Candidate

/-! ## The next date -/

def EndsBefore (r : Recurrence) (m : Moment) : Prop :=
  ∃ last ∈ r.endDate, last.lt m = .ok true

theorem next_of_custom (h : r.rhythm = .custom) : r.next due = .ok none := by
  unfold next
  rw [step_eq_none.mpr h, Attempt.ok_bind]
  rfl

theorem next_of_error (h : r.step due = .error f) : r.next due = .error f := by
  unfold next
  rw [h]
  rfl

theorem next_of_step (h : r.step due = .ok (some m)) (hEnd : ∀ last ∈ r.endDate, Moment.comparable last due = true) :
    (r.next due = .ok none ∧ r.EndsBefore m) ∨ (r.next due = .ok (some m) ∧ ¬ r.EndsBefore m) := by
  have hKind := Moment.comparable_iff.mp (Moment.comparable_of_offset (offset_of_step h))
  unfold next EndsBefore
  rw [h, Attempt.ok_bind]
  cases hLast : r.endDate with
  | none => exact .inr ⟨rfl, by simp⟩
  | some last =>
    have hSame := Moment.comparable_iff.mp (hEnd last hLast)
    have hLt : last.lt m = .ok (decide (last.instant < m.instant)) :=
      if_pos (Moment.comparable_iff.mpr (hSame.trans hKind.symm))
    simp only [hLt, Attempt.ok_bind]
    by_cases hBefore : last.instant < m.instant
    · exact .inl ⟨by simp [hBefore, pure, Except.pure], last, rfl, by simp [hLt, hBefore]⟩
    · exact .inr ⟨by simp [hBefore, pure, Except.pure], by simp [hLt, hBefore]⟩

theorem step_of_next (h : r.next due = .ok (some m)) : r.step due = .ok (some m) := by
  obtain ⟨found, hFound, h⟩ := Attempt.bind_eq_ok.mp h
  split at h
  · obtain ⟨ended, _, h⟩ := Attempt.bind_eq_ok.mp h
    cases ended <;> cases Attempt.pure_eq_ok.mp h
    exact hFound
  · cases Attempt.pure_eq_ok.mp h
    exact hFound

theorem offset_of_next (h : r.next due = .ok (some m)) : m.offset = due.offset :=
  offset_of_step (step_of_next h)

/-- Where the end can be compared with the due date, only a date beyond the calendar is in the way. -/
theorem exists_next (hEnd : ∀ last ∈ r.endDate, Moment.comparable last due = true)
    (hOverflow : r.next due ≠ .error .dateOverflow) (hDate : r.next due ≠ .error .noSuchDate) :
    ∃ found, r.next due = .ok found := by
  cases hStep : r.step due with
  | error f =>
    have hError := next_of_error hStep
    rcases step_eq_error hStep with rfl | rfl
    · exact absurd hError hOverflow
    · exact absurd hError hDate
  | ok found =>
    cases found with
    | none => exact ⟨none, next_of_custom (step_eq_none.mp hStep)⟩
    | some m =>
      rcases next_of_step hStep hEnd with ⟨hNext, _⟩ | ⟨hNext, _⟩
      · exact ⟨none, hNext⟩
      · exact ⟨some m, hNext⟩

/-- A custom rule has no next date. Any other steps to its candidate, a later date at the same time of
day, if the calendar has one, and ends if the candidate comes after its end. With listed weekdays the
candidate lies within a week behind the weeks of the rule. -/
theorem next_first_listed (hr : r.Valid) (hEnd : ∀ last ∈ r.endDate, Moment.comparable last due = true) :
    (r.rhythm = .custom → r.next due = .ok none) ∧
    (r.rhythm ≠ .custom →
      (∃ m, r.Candidate due m) ∨ r.next due = .error .dateOverflow ∨ r.next due = .error .noSuchDate) ∧
    ∀ m, r.Candidate due m →
      (r.next due = .ok none ↔ r.EndsBefore m) ∧ (r.next due = .ok (some m) ↔ ¬ r.EndsBefore m) ∧
      due.lt m = .ok true ∧ m.clock = due.clock ∧ m.offset = due.offset ∧
      (r.rhythm = .weekly → r.days ≠ [] →
        (∃ k, 7 * r.interval + 1 ≤ k ∧ k ≤ 7 * r.interval + 7 ∧ due.plusDays k = .ok m) ∧
          (r.days = [due.day.weekday] → due.plusDays (7 * (r.interval + 1)) = .ok m)) := by
  refine ⟨next_of_custom, fun hRhythm => ?_, fun m hCandidate => ?_⟩
  · cases hStep : r.step due with
    | error f =>
      have hError := next_of_error hStep
      rcases step_eq_error hStep with rfl | rfl
      · exact .inr (.inl hError)
      · exact .inr (.inr hError)
    | ok found =>
      cases found with
      | none => exact absurd (step_eq_none.mp hStep) hRhythm
      | some m => exact .inl ⟨m, (step_eq_some hr).mp hStep⟩
  · obtain ⟨hNumber, hClock, hOffset⟩ := hCandidate.later hr
    refine ⟨?_, ?_, Moment.lt_of_number_lt hOffset.symm hNumber, hClock, hOffset, fun hRhythm hSome =>
      hCandidate.weeks hr hRhythm hSome⟩
    all_goals
      rcases next_of_step ((step_eq_some hr).mpr hCandidate) hEnd with ⟨hNext, hEnds⟩ | ⟨hNext, hEnds⟩ <;>
        simp [hNext, hEnds]

/-- Mondays and Thursdays of every other week, up to the end of June 2024. -/
def fortnightly : Recurrence :=
  { rhythm := .weekly, interval := 2, days := [1, 4], endDate := some (.on ⟨739066, by decide⟩ .dayEnd) }

def friday : Moment := .on ⟨739022, by decide⟩ (.atHour 9)

def mondayAfterWeeks : Moment := .on ⟨739039, by decide⟩ (.atHour 9)

/-- From a Friday two weeks lead to a Friday, and on to the Monday behind it. -/
theorem fortnightly_next : fortnightly.Candidate friday mondayAfterWeeks ∧
    fortnightly.next friday = .ok (some mondayAfterWeeks) ∧
    ∃ k, 15 ≤ k ∧ k ≤ 21 ∧ friday.plusDays k = .ok mondayAfterWeeks := by
  have hValid : fortnightly.Valid := ⟨by decide, by decide, by decide⟩
  obtain ⟨_, _, hNext⟩ := @next_first_listed fortnightly friday hValid (by decide)
  have hCandidate : fortnightly.Candidate friday mondayAfterWeeks := (step_eq_some hValid).mp rfl
  obtain ⟨_, hGoesOn, _, _, _, hWeeks⟩ := hNext _ hCandidate
  refine ⟨hCandidate, hGoesOn.mpr ?_, (hWeeks rfl (by decide)).1⟩
  rintro ⟨last, hLast, hBefore⟩
  cases hLast
  cases hBefore

/-! ## Months in a row -/

/-- The due date after so many steps of the rule; none once it has ended. -/
def chain (r : Recurrence) (due : Moment) : Nat → Except Fault (Option Moment)
  | 0 => .ok (some due)
  | k + 1 => do
    match ← r.chain due k with
    | some m => r.next m
    | none => return none

/-- Where so many steps of some months lead. A day of the month that was cut off once stays cut off. -/
structure Along (due : Moment) (months : Int) (k : Nat) (m : Moment) : Prop where
  month : m.day.monthIndex = due.day.monthIndex + k * months
  date : m.day.dayOfMonth = ((List.range k).map fun (j : Nat) =>
    Day.lengthAt (due.day.monthIndex + (j + 1) * months)).foldl min due.day.dayOfMonth
  clock : m.clock = due.clock
  offset : m.offset = due.offset

namespace Along

variable {months : Int} {n : Nat}

theorem start (due : Moment) (months : Int) : Along due months 0 due :=
  ⟨by simp, rfl, rfl, rfl⟩

theorem next (h : Along due months n m) (hStep : m.plusMonths months = .ok m') : Along due months (n + 1) m' := by
  obtain ⟨hMonth, hDate, hClock, hOffset⟩ := Moment.plusMonths_eq_ok.mp hStep
  have hIndex : m.day.monthIndex + months = due.day.monthIndex + (n + 1) * months := by
    rw [h.month, Int.add_mul, Int.one_mul, Int.add_assoc]
  rw [hIndex] at hMonth hDate
  refine ⟨by exact_mod_cast hMonth, ?_, hClock.trans h.clock, hOffset.trans h.offset⟩
  rw [List.range_succ, List.map_append, List.foldl_append, ← h.date]
  exact hDate

theorem foldl_min_of_le {day : Int} {lengths : List Int} (h : ∀ length ∈ lengths, day ≤ length) :
    lengths.foldl min day = day := by
  induction lengths with
  | nil => rfl
  | cons length lengths ih =>
    obtain ⟨hLength, hLengths⟩ := List.forall_mem_cons.mp h
    rw [List.foldl_cons, Int.min_eq_left hLength, ih hLengths]

/-- A day that every month has is not cut off, so the steps come down to one. -/
theorem plusMonths (h : Along due months n m) (hDay : due.day.dayOfMonth ≤ 28) :
    due.plusMonths (n * months) = .ok m := by
  have hFits (index : Int) : due.day.dayOfMonth ≤ Day.lengthAt index := hDay.trans (Day.le_lengthAt index)
  have hDate : m.day.dayOfMonth = due.day.dayOfMonth := by
    rw [h.date, foldl_min_of_le]
    intro length hLength
    obtain ⟨_, _, rfl⟩ := List.mem_map.mp hLength
    exact hFits _
  exact Moment.plusMonths_eq_ok.mpr ⟨h.month, hDate.trans (Int.min_eq_left (hFits _)).symm, h.clock, h.offset⟩

end Along

section Monthly

variable {n : Nat}

theorem chain_succ_eq_some :
    r.chain due (n + 1) = .ok (some m) ↔ ∃ m', r.chain due n = .ok (some m') ∧ r.next m' = .ok (some m) := by
  rw [chain, Attempt.bind_eq_ok]
  constructor
  · rintro ⟨found, hFound, hNext⟩
    cases found with
    | none => cases hNext
    | some m' => exact ⟨m', hFound, hNext⟩
  · rintro ⟨m', hFound, hNext⟩
    exact ⟨some m', hFound, hNext⟩

theorem next_eq_some_of_monthly (hRhythm : r.rhythm = .monthly) (hEndless : r.endDate = none) :
    r.next due = .ok (some m) ↔ due.plusMonths r.interval = .ok m := by
  unfold Recurrence.next step
  rw [hRhythm, hEndless]
  cases due.plusMonths r.interval with
  | error f => simp [Except.map, bind, Except.bind]
  | ok next => simp [Except.map, bind, Except.bind, pure, Except.pure]

theorem along_of_chain (hRhythm : r.rhythm = .monthly) (hEndless : r.endDate = none)
    (h : r.chain due n = .ok (some m)) : Along due r.interval n m := by
  -- Each step starts where the last one has led, so a day once cut off is what the next one cuts.
  induction n generalizing m with
  | zero =>
    cases h
    exact .start _ _
  | succ n ih =>
    obtain ⟨m', hChain, hNext⟩ := chain_succ_eq_some.mp h
    exact (ih hChain).next ((next_eq_some_of_monthly hRhythm hEndless).mp hNext)

theorem exists_chain (hRhythm : r.rhythm = .monthly) (hEndless : r.endDate = none) (hInterval : 1 ≤ r.interval)
    (h : (due.day.monthIndex + n * r.interval) / 12 ≤ 9999) : ∃ m, r.chain due n = .ok (some m) := by
  induction n with
  | zero => exact ⟨due, rfl⟩
  | succ n ih =>
    have hSucc : ((n + 1 : Nat) : Int) * r.interval = n * r.interval + r.interval := by
      rw [Int.natCast_succ, Int.add_mul, Int.one_mul]
    rw [hSucc] at h
    obtain ⟨m', hChain⟩ := ih (by omega)
    have hMonth := (along_of_chain hRhythm hEndless hChain).month
    unfold Day.monthIndex at hMonth h
    obtain ⟨m, hStep⟩ := (Moment.exists_plusMonths_iff (m := m') (by omega : 0 ≤ r.interval)).mpr (by omega)
    exact ⟨m, chain_succ_eq_some.mpr ⟨m', hChain, (next_eq_some_of_monthly hRhythm hEndless).mpr hStep⟩⟩

/-- Steps of a monthly rule that does not end lead through the calendar to its last year. They keep the
time of day and count on the months, and the day of the month becomes the shortest of all that the
months on the way allow; a day that every month has is reached by one step of all these months. -/
theorem chain_monthly (hRhythm : r.rhythm = .monthly) (hEndless : r.endDate = none) (hInterval : 1 ≤ r.interval)
    (due : Moment) (n : Nat) :
    ((∃ m, r.chain due n = .ok (some m)) ↔ (due.day.monthIndex + n * r.interval) / 12 ≤ 9999) ∧
    ∀ m, r.chain due n = .ok (some m) →
      m.clock = due.clock ∧ m.offset = due.offset ∧ m.day.monthIndex = due.day.monthIndex + n * r.interval ∧
      m.day.dayOfMonth = ((List.range n).map fun (j : Nat) =>
        Day.lengthAt (due.day.monthIndex + (j + 1) * r.interval)).foldl min due.day.dayOfMonth ∧
      (due.day.dayOfMonth ≤ 28 → due.plusMonths (n * r.interval) = .ok m) := by
  refine ⟨⟨?_, exists_chain hRhythm hEndless hInterval⟩, fun m hChain => ?_⟩
  · rintro ⟨m, hChain⟩
    have hMonth := (along_of_chain hRhythm hEndless hChain).month
    have hYears := m.day.year_bounds
    have hMonths := m.day.month_bounds
    rw [← hMonth]
    unfold Day.monthIndex
    omega
  · have hAlong := along_of_chain hRhythm hEndless hChain
    exact ⟨hAlong.clock, hAlong.offset, hAlong.month, hAlong.date, hAlong.plusMonths⟩

def everyMonth : Recurrence := { rhythm := .monthly }

def endOfJanuary : Moment := .on ⟨738915, by decide⟩ .noon

/-- The end of January 2024, cut off by two Februaries, is the 28th in March of 2025. -/
theorem endOfJanuary_cut_off : ∃ m, everyMonth.chain endOfJanuary 14 = .ok (some m) ∧
    m.day.monthIndex = 2025 * 12 + 2 ∧ m.day.dayOfMonth = 28 ∧ m.clock = .noon := by
  obtain ⟨hReached, hWhere⟩ := chain_monthly (r := everyMonth) rfl rfl (by decide) endOfJanuary 14
  obtain ⟨m, hChain⟩ := hReached.mpr (by decide)
  obtain ⟨hClock, _, hMonth, hDate, _⟩ := hWhere m hChain
  exact ⟨m, hChain, hMonth.trans (by decide), hDate.trans (by decide), hClock.trans (by decide)⟩

end Monthly

end Agenda.Recurrence
