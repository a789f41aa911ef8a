import Agenda.Proofs.Attempt
import Agenda.Proofs.Time.Calendar
import Mathlib.Data.List.Range

/-! # The rows of a month view

The rows are weeks that follow one another, the first of them from the Sunday on or before the first day
of the month. So the place of a cell tells its day, and the cells read on are a run of days, in which those
outside the month are left empty. There are as many rows as it takes to reach the end of the month.
-/

namespace Agenda.Day

variable {year month first last sunday total n : Int} {k : Nat} {rows : List (List (Option Day))} {d : Day}

/-- Whole weeks from Sunday to Saturday with the days of a month in order. Cells are empty only in front of
the first day and behind the last one. -/
structure ShowsMonth (year month : Int) (rows : List (List (Option Day))) : Prop where
  whole : ∀ row ∈ rows, row.length = 7
  nonempty : ∀ row ∈ rows, ∃ d, some d ∈ row
  columns : ∀ row ∈ rows, ∀ (column : Nat) (d : Day), row[column]? = some (some d) → d.weekday = column
  days : ∃ (before after : Nat) (days : List Day),
    rows.flatten = List.replicate before none ++ days.map some ++ List.replicate after none ∧
      days.Pairwise (fun d e => d.number < e.number) ∧ ∀ d, d ∈ days ↔ d.year = year ∧ d.month = month

/-! ## The days of a month -/

/-- The days of a month come one after the other from its first. -/
theorem exists_sameMonth {first : Day} (hFirst : first.dayOfMonth = 1) (hLow : first.number ≤ n)
    (hHigh : n < first.number + monthLength first.year first.month) :
    ∃ d : Day, d.number = n ∧ d.year = first.year ∧ d.month = first.month := by
  have hDate : 1 ≤ n - first.number + 1 ∧ n - first.number + 1 ≤ monthLength first.year first.month := by omega
  obtain ⟨d, hd⟩ := exists_ofParts? (year_bounds first) (month_bounds first) hDate
  obtain ⟨hYear, hMonth, hDate⟩ := parts_of_ofParts? hd
  have hNumber := number_eq d
  have hStart := number_eq first
  rw [hYear, hMonth, hDate] at hNumber
  exact ⟨d, by omega, hYear, hMonth⟩

theorem sameMonth_iff {first : Day} (hFirst : first.dayOfMonth = 1) :
    d.year = first.year ∧ d.month = first.month ↔
      first.number ≤ d.number ∧ d.number < first.number + monthLength first.year first.month := by
  constructor
  · rintro ⟨hYear, hMonth⟩
    have hStart := number_eq first
    have hNumber := number_eq d
    have hBounds := dayOfMonth_bounds d
    rw [hYear, hMonth] at hNumber hBounds
    omega
  · rintro ⟨hLow, hHigh⟩
    obtain ⟨e, hNumber, hMonth⟩ := exists_sameMonth hFirst hLow hHigh
    obtain rfl : e = d := Day.ext hNumber
    exact hMonth

theorem ofNumber?_eq_some : ofNumber? n = some d ↔ d.number = n := by
  unfold ofNumber?
  split
  · rw [Option.some_inj, Day.ext_iff]
    exact eq_comm
  · rename_i hBeyond
    have hRange := d.inRange
    exact ⟨nofun, fun h => absurd (h ▸ hRange) hBeyond⟩

/-- The day with a number, if it is in a stretch of days. -/
def within? (first last n : Int) : Option Day :=
  if first ≤ n ∧ n ≤ last then ofNumber? n else none

theorem within?_eq_some : within? first last n = some d ↔ d.number = n ∧ first ≤ n ∧ n ≤ last := by
  rw [within?, Option.ite_none_right_eq_some, ofNumber?_eq_some, and_comm]

theorem within?_of_outside (h : ¬ (first ≤ n ∧ n ≤ last)) : within? first last n = none :=
  if_neg h

/-! ## Weeks that follow one another -/

/-- The week from a Sunday on, with the days of a stretch. -/
def week (first last sunday : Int) : List (Option Day) :=
  (List.range 7).map fun (column : Nat) => within? first last (sunday + column)

def weeks (first last sunday : Int) (k : Nat) : List (List (Option Day)) :=
  (List.range k).map fun (row : Nat) => week first last (sunday + 7 * row)

theorem weeks_succ : weeks first last sunday (k + 1) = week first last sunday :: weeks first last (sunday + 7) k := by
  unfold weeks
  rw [List.range_succ_eq_map, List.map_cons, List.map_map, Nat.cast_zero, Int.mul_zero, Int.add_zero]
  congr 1
  refine List.map_congr_left fun row _ => congrArg (week first last) ?_
  push_cast
  omega

/-- Read on, the weeks are one run of days. -/
theorem flatten_weeks : (weeks first last sunday k).flatten =
    (List.range (7 * k)).map fun (place : Nat) => within? first last (sunday + place) := by
  induction k generalizing sunday with
  | zero => rfl
  | succ k ih =>
    rw [weeks_succ, List.flatten_cons, ih, Nat.mul_succ, Nat.add_comm, List.range_add, List.map_append, List.map_map]
    congr 1
    refine List.map_congr_left fun place _ => congrArg (within? first last) ?_
    push_cast
    omega

/-- Rows are placed until the days of the month are used up. -/
theorem exists_gridRows {day : Int → Option Day}
    (hDay : ∀ n, 1 ≤ n → n ≤ total → day n = ofNumber? (first + n - 1)) (most : Nat) {offset next : Int}
    (hOffset : 0 ≤ offset ∧ offset < 7) (hNext : 1 ≤ next) (hStart : offset = 0 ∨ next = 1 ∧ 1 ≤ total)
    (hEnough : total < next - offset + 7 * most) :
    ∃ k : Nat, gridRows day total most offset next =
        weeks first (first + total - 1) (first + next - 1 - offset) k ∧
      (∀ row < k, next - offset + 7 * (row : Int) ≤ total) ∧ total < next - offset + 7 * k := by
  induction most generalizing offset next with
  | zero => exact ⟨0, rfl, nofun, hEnough⟩
  | succ most ih =>
    rw [gridRows]
    split
    · exact ⟨0, rfl, nofun, by omega⟩
    · rename_i hLeft
      obtain ⟨k, hRows, hShort, hLong⟩ := ih (by decide : (0 : Int) ≤ 0 ∧ (0 : Int) < 7)
        (by omega : 1 ≤ next + 7 - offset) (.inl rfl) (by omega)
      refine ⟨k + 1, ?_, fun row hRow => ?_, by omega⟩
      · have hWeek : ∀ column : Nat, (if (column : Int) < offset ∨ next + column - offset > total then none
            else day (next + column - offset)) =
              within? first (first + total - 1) (first + next - 1 - offset + column) := by
          intro column
          split
          · exact (within?_of_outside (by omega)).symm
          · rw [hDay _ (by omega) (by omega), within?, if_pos (by omega)]
            exact congrArg ofNumber? (by omega)
        rw [weeks_succ, hRows]
        simp only [hWeek]
        exact congrArg (List.cons _) (congrArg (weeks _ _ · k) (by omega))
      · cases row with
        | zero => omega
        | succ row =>
          have hRest := hShort row (by omega)
          omega

/-! ## The month view -/

/-- A run of cells that is empty in front and behind. -/
theorem map_range_of_outside {f : Nat → Option Day} {before total after : Nat} (hBefore : ∀ place < before, f place = none)
    (hAfter : ∀ place, before + total ≤ place → f place = none) :
    (List.range (before + (total + after))).map f =
      List.replicate before none ++ (List.range total).map (fun place => f (before + place)) ++
        List.replicate after none := by
  have hEmpty (places : List Nat) (h : ∀ place ∈ places, f place = none) :
      places.map f = List.replicate places.length none :=
    List.map_eq_replicate_iff.mpr h
  rw [List.range_add, List.map_append, List.range_add, List.map_append, List.map_append, ← List.append_assoc, List.map_map]
  congr 1
  · rw [hEmpty _ fun place hPlace => hBefore place (List.mem_range.mp hPlace), List.length_range]
    rfl
  · rw [hEmpty, List.length_map, List.length_map, List.length_range]
    simp only [List.mem_map]
    rintro _ ⟨_, ⟨place, _, rfl⟩, rfl⟩
    exact hAfter _ (by omega)

/-- The days of a stretch, all of which are days of the calendar. -/
theorem exists_run {total : Nat} (hDay : ∀ n, first ≤ n → n ≤ last → ∃ d, within? first last n = some d)
    (hTotal : first + total = last + 1) : ∃ days : List Day,
      days.map some = (List.range total).map (fun (place : Nat) => within? first last (first + place)) ∧
        days.Pairwise (fun d e => d.number < e.number) ∧ ∀ d, d ∈ days ↔ first ≤ d.number ∧ d.number ≤ last := by
  refine ⟨(List.range total).filterMap fun (place : Nat) => within? first last (first + place), ?_, ?_, fun d => ?_⟩
  · rw [List.map_filterMap]
    refine List.filterMap_eq_map_iff_forall_eq_some.mpr fun place hPlace => ?_
    have hBelow := List.mem_range.mp hPlace
    obtain ⟨d, hd⟩ := hDay (first + place) (by omega) (by omega)
    rw [hd]
    rfl
  · refine List.pairwise_filterMap.mpr (List.pairwise_lt_range.imp fun {i j} hLess d hd e he => ?_)
    have hNumber := (within?_eq_some.mp hd).1
    have hNumber' := (within?_eq_some.mp he).1
    omega
  · rw [List.mem_filterMap]
    constructor
    · rintro ⟨place, _, hd⟩
      obtain ⟨hNumber, hWithin⟩ := within?_eq_some.mp hd
      rwa [hNumber]
    · rintro ⟨hLow, hHigh⟩
      obtain ⟨place, hPlace⟩ := Int.eq_ofNat_of_zero_le (Int.sub_nonneg_of_le hLow)
      refine ⟨place, ?_, within?_eq_some.mpr (by omega)⟩
      rw [List.mem_range]
      omega

theorem showsMonth_weeks {first : Day} (hFirst : first.dayOfMonth = 1)
    (hLast : last = first.number + monthLength first.year first.month - 1)
    (hSunday : sunday = first.number - first.weekday) (hShort : ∀ row < k, sunday + 7 * (row : Int) ≤ last)
    (hLong : last < sunday + 7 * k) : ShowsMonth first.year first.month (weeks first.number last sunday k) := by
  have hWeekday : first.weekday = (first.number + 1) % 7 := rfl
  have hLength := le_monthLength first.year (month_bounds first).1 (month_bounds first).2
  have hDay : ∀ n, first.number ≤ n → n ≤ last → ∃ d, within? first.number last n = some d := by
    intro n hLow hHigh
    obtain ⟨d, hNumber, _⟩ := exists_sameMonth hFirst hLow (by omega)
    exact ⟨d, within?_eq_some.mpr ⟨hNumber, hLow, hHigh⟩⟩
  refine ⟨?whole, ?nonempty, ?columns, ?days⟩
  case whole =>
    intro row hRow
    obtain ⟨_, _, rfl⟩ := List.mem_map.mp hRow
    rw [week, List.length_map, List.length_range]
  case nonempty =>
    intro week hWeek
    obtain ⟨row, hRow, rfl⟩ := List.mem_map.mp hWeek
    have hReached := hShort row (List.mem_range.mp hRow)
    -- the first day of the month, or else the Sunday of the week
    obtain ⟨d, hd⟩ := hDay (max first.number (sunday + 7 * row)) (by omega) (by omega)
    refine ⟨d, List.mem_map.mpr ⟨(max first.number (sunday + 7 * row) - (sunday + 7 * row)).toNat, ?_, ?_⟩⟩
    · rw [List.mem_range]
      omega
    · rw [← hd]
      exact congrArg (within? first.number last) (by omega)
  case columns =>
    intro week hWeek column d hd
    obtain ⟨row, _, rfl⟩ := List.mem_map.mp hWeek
    rw [Day.week, List.getElem?_map, Option.map_eq_some_iff] at hd
    obtain ⟨place, hPlace, hd⟩ := hd
    obtain ⟨hBelow, hPlace⟩ := List.getElem?_eq_some_iff.mp hPlace
    rw [List.getElem_range] at hPlace
    rw [List.length_range] at hBelow
    have hNumber := (within?_eq_some.mp hd).1
    unfold weekday
    omega
  case days =>
    obtain ⟨before, hBefore⟩ := Int.eq_ofNat_of_zero_le (by omega : 0 ≤ first.weekday)
    obtain ⟨total, hTotal⟩ := Int.eq_ofNat_of_zero_le (by omega : 0 ≤ monthLength first.year first.month)
    obtain ⟨after, hAfter⟩ := Int.eq_ofNat_of_zero_le (by omega : 0 ≤ sunday + 7 * k - 1 - last)
    have hPlaces : 7 * k = before + (total + after) := by omega
    obtain ⟨days, hRun, hSorted, hMem⟩ := exists_run hDay (by omega : first.number + total = last + 1)
    refine ⟨before, after, days, ?_, hSorted, fun d => ?_⟩
    · rw [flatten_weeks, hPlaces, hRun, map_range_of_outside fun place hPlace => within?_of_outside (by omega)]
      · congr 2
        refine List.map_congr_left fun place _ => congrArg (within? first.number last) ?_
        push_cast
        omega
      · exact fun place hPlace => within?_of_outside (by omega)
    · rw [sameMonth_iff hFirst, hMem]
      omega

theorem exists_grid (hYear : 1 ≤ year ∧ year ≤ 9999) (hMonth : 1 ≤ month ∧ month ≤ 12) :
    ∃ rows, grid year month = .ok rows ∧ ShowsMonth year month rows := by
  have hLow := le_monthLength year hMonth.1 hMonth.2
  have hHigh := monthLength_le year hMonth.1 hMonth.2
  obtain ⟨first, hFirst⟩ := exists_ofParts? hYear hMonth ⟨Int.le_refl 1, by omega⟩
  obtain ⟨rfl, rfl, hDate⟩ := parts_of_ofParts? hFirst
  have hWeekday : first.weekday = (first.number + 1) % 7 := rfl
  have hDay : ∀ n, 1 ≤ n → n ≤ monthLength first.year first.month →
      ofParts? first.year first.month n = ofNumber? (first.number + n - 1) := by
    intro n hLow hHigh
    have hStart := number_eq first
    rw [ofParts?, if_pos ⟨hYear.1, hYear.2, hMonth.1, hMonth.2, hLow, hHigh⟩]
    exact congrArg ofNumber? (by omega)
  -- six weeks have room for the longest month behind the most empty cells
  obtain ⟨k, hRows, hShort, hLong⟩ := exists_gridRows hDay 6 (by omega : 0 ≤ first.weekday ∧ first.weekday < 7)
    (Int.le_refl 1) (.inr ⟨rfl, by omega⟩) (by omega)
  refine ⟨_, ?_, showsMonth_weeks hDate rfl rfl (k := k) (fun row hRow => ?_) (by omega)⟩
  · refine Attempt.bind_eq_ok.mpr ⟨first, ofParts_eq_ok.mpr ⟨rfl, rfl, hDate⟩, ?_⟩
    refine Attempt.bind_eq_ok.mpr ⟨monthLength first.year first.month, if_pos hMonth, ?_⟩
    rw [hRows, Int.add_sub_cancel]
    rfl
  · have hReached := hShort row hRow
    omega

/-! ## Places -/

/-- A day of the month has one place. -/
theorem ShowsMonth.place_unique (h : ShowsMonth year month rows) {p q : Nat} (hp : rows.flatten[p]? = some (some d))
    (hq : rows.flatten[q]? = some (some d)) : p = q := by
  obtain ⟨before, after, days, hRows, hSorted, _⟩ := h.days
  have hDays : (days.map some).Pairwise fun x y : Option Day => ∀ d ∈ x, d ∉ y := by
    refine List.pairwise_map.mpr (hSorted.imp fun {a b} hLess d ha hb => ?_)
    cases ha
    cases hb
    exact Int.lt_irrefl _ hLess
  have hApart : rows.flatten.Pairwise fun x y : Option Day => ∀ d ∈ x, d ∉ y := by
    rw [hRows, List.pairwise_append, List.pairwise_append]
    refine ⟨⟨?_, hDays, ?_⟩, ?_, ?_⟩ <;> simp [List.pairwise_replicate]
  have hBehind {p q : Nat} (hp : rows.flatten[p]? = some (some d)) (hq : rows.flatten[q]? = some (some d)) : ¬ p < q := by
    intro hLess
    obtain ⟨_, hFirst⟩ := List.getElem?_eq_some_iff.mp hp
    obtain ⟨_, hSecond⟩ := List.getElem?_eq_some_iff.mp hq
    exact List.pairwise_iff_getElem.mp hApart p q _ _ hLess d hFirst hSecond
  have hBefore := hBehind hp hq
  have hAfter := hBehind hq hp
  omega

theorem ShowsMonth.exists_place (h : ShowsMonth year month rows) (hd : d.year = year ∧ d.month = month) :
    ∃ p : Nat, rows.flatten[p]? = some (some d) := by
  obtain ⟨before, after, days, hRows, _, hDays⟩ := h.days
  have hMem : some d ∈ rows.flatten := by
    rw [hRows]
    exact List.mem_append_left _ (List.mem_append_right _ (List.mem_map_of_mem ((hDays d).mpr hd)))
  exact List.mem_iff_getElem?.mp hMem

end Agenda.Day
