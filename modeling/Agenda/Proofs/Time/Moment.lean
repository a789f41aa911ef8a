import Agenda.Proofs.Attempt
import Agenda.Proofs.Time.Calendar
import Agenda.Time.Moment
import Mathlib.Data.List.Sort

/-! # Moments

Days and months later it is the same time of day, as far as the calendar goes. Moments that carry no
offset are always comparable, and then by their instants. So comparison, the greater of two, and
sorting give a result, and each result is described by instants alone.
-/

namespace Agenda

/-! ## Sorting by a key -/

section Sorting

variable {α β : Type} [LinearOrder β] {f : α → β} {le : α → α → Bool} (hLe : ∀ a b, le a b = true ↔ f a ≤ f b)

include hLe

theorem trans_of_key : ∀ a b c, le a b = true → le b c = true → le a c = true := by
  simp only [hLe]
  exact fun _ _ _ => le_trans

theorem total_of_key : ∀ a b, (le a b || le b a) = true := by
  simp only [Bool.or_eq_true, hLe]
  exact fun _ _ => le_total _ _

theorem pairwise_mergeSort_of_key (xs : List α) : (xs.mergeSort le).Pairwise fun a b => f a ≤ f b :=
  (List.pairwise_mergeSort (trans_of_key hLe) (total_of_key hLe) xs).imp (hLe _ _).mp

/-- Items that are tied keep their order. -/
theorem filter_mergeSort_of_key {p : α → Bool} (hTied : ∀ a b, p a = true → p b = true → f a ≤ f b) (xs : List α) :
    (xs.mergeSort le).filter p = xs.filter p := by
  have hSorted : (xs.filter p).Pairwise fun a b => le a b = true := by
    refine List.pairwise_of_forall_mem_list fun a ha b hb => (hLe a b).mpr ?_
    exact hTied a b (List.mem_filter.mp ha).2 (List.mem_filter.mp hb).2
  have hWithin : (xs.filter p).Sublist ((xs.mergeSort le).filter p) := by
    have hSublist := List.sublist_mergeSort (trans_of_key hLe) (total_of_key hLe) hSorted List.filter_sublist
    simpa only [List.filter_filter, Bool.and_self] using hSublist.filter p
  exact (hWithin.eq_of_length ((List.mergeSort_perm xs le).filter p).length_eq.symm).symm

end Sorting

namespace Moment

theorem plus_eq_ok {m r : Moment} {n : Int} :
    m.plus n = .ok r ↔ r.ticks = m.ticks + n ∧ r.offset = m.offset := by
  have hr := r.inRange
  unfold plus
  split
  · constructor
    · rintro ⟨⟩
      exact ⟨rfl, rfl⟩
    · rintro ⟨hTicks, hOffset⟩
      exact congrArg Except.ok (ext hTicks.symm hOffset.symm)
  · constructor
    · rintro ⟨⟩
    · rintro ⟨hTicks, _⟩
      omega

theorem instant_plus {m r : Moment} {n : Int} (h : m.plus n = .ok r) :
    r.instant = m.instant + n := by
  obtain ⟨hTicks, hOffset⟩ := plus_eq_ok.mp h
  unfold instant
  rw [hTicks, hOffset]
  omega

theorem isLocal_plus {m r : Moment} {n : Int} (h : m.plus n = .ok r) : r.isLocal = m.isLocal := by
  unfold isLocal
  rw [(plus_eq_ok.mp h).2]

theorem isLocal_plusMonths {m r : Moment} {n : Int} (h : m.plusMonths n = .ok r) : r.isLocal = m.isLocal := by
  obtain ⟨_, _, rfl⟩ := Attempt.map_eq_ok.mp h
  rfl

/-- A moment later is reached unless it lies beyond the last year. -/
theorem exists_plus {m : Moment} {n : Int} (hLow : 0 ≤ m.ticks + n)
    (hHigh : m.ticks + n < 315537897600000000) : ∃ r, m.plus n = .ok r :=
  ⟨⟨m.ticks + n, m.offset, hLow, hHigh⟩, plus_eq_ok.mpr ⟨rfl, rfl⟩⟩

theorem latest_ticks : latest.ticks = 315537897599999999 := rfl

theorem exists_plus_iff {m : Moment} {n : Int} :
    (∃ r, m.plus n = .ok r) ↔ 0 ≤ m.ticks + n ∧ m.ticks + n ≤ latest.ticks := by
  have hLatest := latest_ticks
  constructor
  · rintro ⟨r, hr⟩
    have hRange := r.inRange
    rw [(plus_eq_ok.mp hr).1] at hRange
    omega
  · rintro ⟨hLow, hHigh⟩
    exact exists_plus hLow (by omega)

/-! ## Days and months later -/

theorem day_ofDay (d : Day) (c : Clock) (offset : Option Int) : (ofDay d c offset).day = d := by
  have hClock := c.inRange
  refine Day.ext ?_
  change (d.number * 86400000000 + c.ticks) / 86400000000 = d.number
  omega

theorem clock_ofDay (d : Day) (c : Clock) (offset : Option Int) : (ofDay d c offset).clock = c := by
  have hClock := c.inRange
  refine Clock.ext ?_
  change (d.number * 86400000000 + c.ticks) % 86400000000 = c.ticks
  omega

theorem ofDay_parts (m : Moment) : ofDay m.day m.clock m.offset = m := by
  refine ext ?_ rfl
  change m.ticks / 86400000000 * 86400000000 + m.ticks % 86400000000 = m.ticks
  omega

/-- Days later it is the same time of day. -/
theorem plusDays_eq_ok {m r : Moment} {n : Int} :
    m.plusDays n = .ok r ↔ r.day.number = m.day.number + n ∧ r.clock = m.clock ∧ r.offset = m.offset := by
  have hTicks (m : Moment) : m.day.number = m.ticks / 86400000000 ∧ m.clock.ticks = m.ticks % 86400000000 := ⟨rfl, rfl⟩
  have hm := hTicks m
  have hr := hTicks r
  unfold plusDays
  rw [plus_eq_ok]
  constructor
  · rintro ⟨hTicks, hOffset⟩
    exact ⟨by omega, Clock.ext (by omega), hOffset⟩
  · rintro ⟨hNumber, hClock, hOffset⟩
    have hClock := congrArg Clock.ticks hClock
    exact ⟨by omega, hOffset⟩

/-- Months later it is the same time of day and the same day of the month, or the last day of a month
that is too short. -/
theorem plusMonths_eq_ok {m r : Moment} {n : Int} :
    m.plusMonths n = .ok r ↔ r.day.monthIndex = m.day.monthIndex + n ∧
      r.day.dayOfMonth = min m.day.dayOfMonth (Day.lengthAt (m.day.monthIndex + n)) ∧
      r.clock = m.clock ∧ r.offset = m.offset := by
  have hIndex (d : Day) (index : Int) :
      d.year = index / 12 ∧ d.month = index % 12 + 1 ↔ d.monthIndex = index := by
    have hMonth := d.month_bounds
    unfold Day.monthIndex
    omega
  change (Day.ofParts ((m.day.monthIndex + n) / 12) ((m.day.monthIndex + n) % 12 + 1)
    (min m.day.dayOfMonth (Day.lengthAt (m.day.monthIndex + n)))).map _ = _ ↔ _
  simp only [Attempt.map_eq_ok, Day.ofParts_eq_ok, ← and_assoc, hIndex]
  constructor
  · rintro ⟨d, ⟨hMonth, hDate⟩, rfl⟩
    rw [day_ofDay, clock_ofDay]
    exact ⟨⟨⟨hMonth, hDate⟩, rfl⟩, rfl⟩
  · rintro ⟨⟨⟨hMonth, hDate⟩, hClock⟩, hOffset⟩
    exact ⟨r.day, ⟨hMonth, hDate⟩, by rw [← hClock, ← hOffset, ofDay_parts]⟩

theorem day_le_of_plus {m r : Moment} {n : Int} (hn : 0 ≤ n) (h : m.plus n = .ok r) : m.day.number ≤ r.day.number := by
  have hTicks := (plus_eq_ok.mp h).1
  change m.ticks / 86400000000 ≤ r.ticks / 86400000000
  omega

theorem day_le_of_plusMonths {m r : Moment} {n : Int} (hn : 0 ≤ n) (h : m.plusMonths n = .ok r) :
    m.day.number ≤ r.day.number := by
  obtain ⟨hIndex, hDate, _⟩ := plusMonths_eq_ok.mp h
  by_contra hEarlier
  -- an earlier day lies in no later month, so it is this month, whose days are long enough for the date
  have hMonth := Day.monthIndex_le (Int.not_le.mp hEarlier).le
  obtain rfl : n = 0 := by omega
  have hParts : r.day.year = m.day.year ∧ r.day.month = m.day.month := by
    have hBounds := m.day.month_bounds
    have hBounds' := r.day.month_bounds
    unfold Day.monthIndex at hIndex
    omega
  have hLength : Day.lengthAt (m.day.monthIndex + 0) = Day.monthLength m.day.year m.day.month := by
    have hBounds := m.day.month_bounds
    unfold Day.lengthAt Day.monthIndex
    congr 1 <;> omega
  rw [hLength, min_eq_left m.day.dayOfMonth_bounds.2] at hDate
  rw [Day.number_eq, Day.number_eq, hParts.1, hParts.2, hDate] at hEarlier
  exact hEarlier le_rfl

/-- Months later is a moment as long as the year in which they end is one of the calendar. -/
theorem exists_plusMonths_iff {m : Moment} {n : Int} (hn : 0 ≤ n) :
    (∃ r, m.plusMonths n = .ok r) ↔ (m.day.year * 12 + (m.day.month - 1) + n) / 12 ≤ 9999 := by
  have hYears := m.day.year_bounds
  have hMonths := m.day.month_bounds
  have hDates := m.day.dayOfMonth_bounds
  constructor
  · rintro ⟨r, hr⟩
    have hIndex := (plusMonths_eq_ok.mp hr).1
    have hYears' := r.day.year_bounds
    have hMonths' := r.day.month_bounds
    unfold Day.monthIndex at hIndex
    omega
  · intro hHigh
    unfold plusMonths
    extract_lets total year month day
    have hIn : 1 ≤ month ∧ month ≤ 12 := by omega
    have hFirst := Day.le_monthLength year hIn.1 hIn.2
    obtain ⟨d, hd⟩ := Day.exists_ofParts? (by omega : 1 ≤ year ∧ year ≤ 9999) hIn
      (by omega : 1 ≤ day ∧ day ≤ Day.monthLength year month)
    exact Attempt.exists_map_iff.mpr ⟨d, Day.ofParts_eq_ok.mpr (Day.parts_of_ofParts? hd)⟩

theorem plus_eq_error {m : Moment} {n : Int} {f : Fault} (h : m.plus n = .error f) : f = .dateOverflow := by
  unfold plus at h
  split at h <;> cases h
  rfl

theorem plusMonths_eq_error {m : Moment} {n : Int} {f : Fault} (h : m.plusMonths n = .error f) :
    f = .dateOverflow ∨ f = .noSuchDate := by
  unfold plusMonths at h
  extract_lets total year month day at h
  cases hDay : Day.ofParts year month day with
  | ok d =>
    rw [hDay] at h
    cases h
  | error e =>
    rw [hDay] at h
    cases h
    unfold Day.ofParts at hDay
    split at hDay
    · split at hDay <;> cases hDay
      exact .inr rfl
    · cases hDay
      exact .inl rfl

theorem offset_of_isLocal {m : Moment} (h : m.isLocal = true) : m.offset = none :=
  Option.isNone_iff_eq_none.mp h

theorem instant_of_isLocal {m : Moment} (h : m.isLocal = true) : m.instant = m.ticks := by
  unfold instant
  rw [offset_of_isLocal h]
  exact Int.sub_zero _

/-! ## Comparison -/

variable {a b : Moment}

theorem comparable_of_isLocal (ha : a.isLocal = true) (hb : b.isLocal = true) :
    comparable a b = true := by
  rw [comparable, ha, hb]
  rfl

theorem le_of_isLocal (ha : a.isLocal = true) (hb : b.isLocal = true) :
    a.le b = .ok (decide (a.instant ≤ b.instant)) :=
  if_pos (comparable_of_isLocal ha hb)

theorem lt_of_isLocal (ha : a.isLocal = true) (hb : b.isLocal = true) :
    a.lt b = .ok (decide (a.instant < b.instant)) :=
  if_pos (comparable_of_isLocal ha hb)

theorem exists_max (ha : a.isLocal = true) (hb : b.isLocal = true) :
    ∃ m, a.max b = .ok m ∧ m.isLocal = true ∧ m.instant = Max.max a.instant b.instant := by
  rw [max, lt_of_isLocal ha hb, Attempt.ok_bind]
  by_cases h : a.instant < b.instant
  · exact ⟨b, by simp [h, pure, Except.pure], hb, by omega⟩
  · exact ⟨a, by simp [h, pure, Except.pure], ha, by omega⟩

theorem comparable_iff : comparable a b = true ↔ a.isLocal = b.isLocal :=
  beq_iff_eq

theorem lt_eq_true : a.lt b = .ok true ↔ comparable a b = true ∧ a.instant < b.instant := by
  unfold lt
  split <;> simp [*]

theorem comparable_of_offset (h : a.offset = b.offset) : comparable a b = true :=
  comparable_iff.mpr (congrArg Option.isNone h)

/-- What was taken off a moment is the time between the two. -/
theorem minus_of_plus {n : Int} (h : a.plus (-n) = .ok b) : a.minus b = .ok n := by
  have hInstant := instant_plus h
  have hComparable := comparable_of_offset (plus_eq_ok.mp h).2.symm
  unfold minus
  rw [if_pos hComparable]
  exact congrArg Except.ok (by omega)

theorem lt_of_number_lt (hOffset : a.offset = b.offset) (h : a.day.number < b.day.number) : a.lt b = .ok true := by
  have hTicks (m : Moment) : m.day.number = m.ticks / 86400000000 := rfl
  have ha := hTicks a
  have hb := hTicks b
  refine lt_eq_true.mpr ⟨comparable_of_offset hOffset, ?_⟩
  unfold instant
  rw [hOffset]
  omega

/-! ## Sorting -/

theorem sortBy_of_isLocal {α : Type} {key : α → Moment} {xs : List α}
    (h : ∀ x ∈ xs, (key x).isLocal = true) : ∃ ys, sortBy key xs = .ok ys := by
  have hAll : (xs.all fun x => (key x).isLocal) = true := List.all_eq_true.mpr h
  exact ⟨_, by rw [sortBy, hAll]; rfl⟩

theorem perm_of_sortBy {α : Type} {key : α → Moment} {xs ys : List α}
    (h : sortBy key xs = .ok ys) : ys.Perm xs := by
  unfold sortBy at h
  split at h
  · cases h
    exact List.mergeSort_perm _ _
  · cases h

theorem pairwise_of_sortBy {α : Type} {key : α → Moment} {xs ys : List α}
    (h : sortBy key xs = .ok ys) :
    ys.Pairwise fun x y => (key x).instant ≤ (key y).instant := by
  unfold sortBy at h
  split at h
  · cases h
    exact pairwise_mergeSort_of_key (f := fun x => (key x).instant) (fun _ _ => decide_eq_true_iff) xs
  · cases h

/-- Items with one instant keep their order. -/
theorem filter_of_sortBy {α : Type} {key : α → Moment} {xs ys : List α} {p : α → Bool}
    (hTied : ∀ x y, p x = true → p y = true → (key x).instant ≤ (key y).instant) (h : sortBy key xs = .ok ys) :
    ys.filter p = xs.filter p := by
  unfold sortBy at h
  split at h
  · cases h
    exact filter_mergeSort_of_key (f := fun x => (key x).instant) (fun _ _ => decide_eq_true_iff) hTied xs
  · cases h

end Moment

end Agenda
