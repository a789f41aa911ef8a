import Agenda.Time.Day
import Mathlib.Tactic.IntervalCases
import Mathlib.Tactic.SplitIfs

/-! # Years, months and days

The year of a day is the one whose first day is the last not after it, and its month likewise. So
year, month and day of the month are parts that a date has, and they mean the day; no other parts
do. Months that are counted on through the years come in the order of their days.
-/

namespace Agenda.Day

/-! ## Years -/

theorem isLeap_iff (year : Int) :
    isLeap year = true ↔ year % 4 = 0 ∧ (year % 100 ≠ 0 ∨ year % 400 = 0) := by
  simp [isLeap]

theorem yearStart_eq (year : Int) :
    yearStart year = 365 * (year - 1) + (year - 1) / 4 - (year - 1) / 100 + (year - 1) / 400 := rfl

theorem yearStart_succ (year : Int) :
    yearStart (year + 1) = yearStart year + monthStart (isLeap year) 13 := by
  rw [yearStart_eq, yearStart_eq]
  cases h : isLeap year with
  | false =>
    have hNot : ¬ (year % 4 = 0 ∧ (year % 100 ≠ 0 ∨ year % 400 = 0)) := by
      rw [← isLeap_iff, h]
      decide
    change _ = _ + (365 + 0)
    omega
  | true =>
    have hLeap := (isLeap_iff year).mp h
    change _ = _ + (365 + 1)
    omega

theorem yearStart_year_le (d : Day) : yearStart d.year ≤ d.number := by
  unfold year
  extract_lets guess
  split_ifs with hBefore hAfter
  · rw [yearStart_eq] at hBefore ⊢
    omega
  · exact hAfter
  · exact Int.not_lt.mp hBefore

theorem lt_yearStart_succ_year (d : Day) : d.number < yearStart (d.year + 1) := by
  unfold year
  extract_lets guess
  split_ifs with hBefore hAfter
  · rwa [Int.sub_add_cancel]
  · rw [yearStart_eq] at hAfter ⊢
    omega
  · exact Int.not_le.mp hAfter

theorem year_bounds (d : Day) : 1 ≤ d.year ∧ d.year ≤ 9999 := by
  have hRange := d.inRange
  have hLe := yearStart_year_le d
  have hLt := lt_yearStart_succ_year d
  rw [yearStart_eq] at hLe hLt
  omega

/-! ## Months -/

/-- The `n`-th day of a year lies in a month, counted from 0. -/
def InMonth (leap : Bool) (n month : Int) : Prop :=
  (1 ≤ month ∧ month ≤ 12) ∧ monthStart leap month ≤ n ∧ n < monthStart leap (month + 1)

theorem inMonth_monthOf {leap : Bool} {n : Int} (hLow : 0 ≤ n) (hHigh : n < monthStart leap 13) :
    InMonth leap n (monthOf leap n) := by
  have hFirst : monthStart leap 1 ≤ n := hLow
  unfold monthOf
  refine iteInduction (motive := InMonth leap n) (fun h => ⟨by decide, hFirst, h⟩) fun hFrom => ?_
  iterate 10
    replace hFrom := Int.not_lt.mp hFrom
    refine iteInduction (motive := InMonth leap n) (fun h => ⟨by decide, hFrom, h⟩) fun hFrom => ?_
  exact ⟨by decide, Int.not_lt.mp hFrom, hHigh⟩

theorem dayOfYear_bounds (d : Day) : 0 ≤ d.dayOfYear ∧ d.dayOfYear < monthStart (isLeap d.year) 13 := by
  have hLe := yearStart_year_le d
  have hLt := lt_yearStart_succ_year d
  rw [yearStart_succ] at hLt
  unfold dayOfYear
  omega

theorem inMonth_month (d : Day) : InMonth (isLeap d.year) d.dayOfYear d.month :=
  inMonth_monthOf (dayOfYear_bounds d).1 (dayOfYear_bounds d).2

theorem month_bounds (d : Day) : 1 ≤ d.month ∧ d.month ≤ 12 :=
  (inMonth_month d).1

theorem dayOfMonth_bounds (d : Day) : 1 ≤ d.dayOfMonth ∧ d.dayOfMonth ≤ monthLength d.year d.month := by
  obtain ⟨_, hLe, hLt⟩ := inMonth_month d
  unfold dayOfMonth monthLength
  omega

theorem monthStart_lt_succ (leap : Bool) {month : Int} (hLow : 1 ≤ month) (hHigh : month ≤ 12) :
    monthStart leap month < monthStart leap (month + 1) := by
  cases leap <;> interval_cases month <;> decide

theorem monthStart_le (leap : Bool) {month later : Int} (hLow : 1 ≤ month) (hLe : month ≤ later)
    (hHigh : later ≤ 13) : monthStart leap month ≤ monthStart leap later := by
  induction later, hLe using Int.leInduction with
  | base => exact Int.le_refl _
  | succ later hLe ih =>
    exact (ih (by omega)).trans (monthStart_lt_succ leap (by omega) (by omega)).le

theorem monthStart_bounds (leap : Bool) {month : Int} (hLow : 1 ≤ month) (hHigh : month ≤ 13) :
    0 ≤ monthStart leap month ∧ monthStart leap month ≤ monthStart leap 13 :=
  ⟨monthStart_le leap (Int.le_refl 1) hLow hHigh, monthStart_le leap hLow hHigh (Int.le_refl 13)⟩

theorem le_monthLength (year : Int) {month : Int} (hLow : 1 ≤ month) (hHigh : month ≤ 12) :
    28 ≤ monthLength year month := by
  unfold monthLength
  cases isLeap year <;> interval_cases month <;> decide

theorem monthLength_le (year : Int) {month : Int} (hLow : 1 ≤ month) (hHigh : month ≤ 12) :
    monthLength year month ≤ 31 := by
  unfold monthLength
  cases isLeap year <;> interval_cases month <;> decide

theorem number_eq (d : Day) : d.number = yearStart d.year + monthStart (isLeap d.year) d.month + (d.dayOfMonth - 1) := by
  unfold dayOfMonth dayOfYear
  omega

theorem ofParts?_parts (d : Day) : ofParts? d.year d.month d.dayOfMonth = some d := by
  obtain ⟨hYear, hYear'⟩ := year_bounds d
  obtain ⟨hMonth, hMonth'⟩ := month_bounds d
  obtain ⟨hDay, hDay'⟩ := dayOfMonth_bounds d
  unfold ofParts?
  rw [if_pos ⟨hYear, hYear', hMonth, hMonth', hDay, hDay'⟩, ← number_eq]
  exact dif_pos d.inRange

/-! ## The order of the calendar -/

theorem yearStart_le {year later : Int} (h : year ≤ later) : yearStart year ≤ yearStart later := by
  rw [yearStart_eq, yearStart_eq]
  omega

theorem year_le_year {year later n n' : Int} (hStart : yearStart year ≤ n) (hLe : n ≤ n')
    (hEnd : n' < yearStart (later + 1)) : year ≤ later := by
  by_contra hLater
  have hNext := yearStart_le (by omega : later + 1 ≤ year)
  omega

theorem year_le {d e : Day} (h : d.number ≤ e.number) : d.year ≤ e.year :=
  year_le_year (yearStart_year_le d) h (lt_yearStart_succ_year e)

theorem InMonth.le {leap : Bool} {n n' month later : Int} (h : InMonth leap n month) (h' : InMonth leap n' later)
    (hLe : n ≤ n') : month ≤ later := by
  by_contra hLater
  obtain ⟨hBounds, hStart, _⟩ := h
  obtain ⟨hBounds', _, hEnd⟩ := h'
  have hNext := monthStart_le leap (by omega) (by omega : later + 1 ≤ month) (by omega)
  omega

/-- A month as its number, counted from the first one of year 0. -/
def monthIndex (d : Day) : Int :=
  d.year * 12 + (d.month - 1)

def lengthAt (index : Int) : Int :=
  monthLength (index / 12) (index % 12 + 1)

theorem le_lengthAt (index : Int) : 28 ≤ lengthAt index :=
  le_monthLength _ (by omega) (by omega)

theorem monthIndex_le {d e : Day} (h : d.number ≤ e.number) : d.monthIndex ≤ e.monthIndex := by
  have hYear := year_le h
  have hMonth := month_bounds d
  have hMonth' := month_bounds e
  unfold monthIndex
  rcases hYear.lt_or_eq with hEarlier | hSame
  · omega
  · have hDays : d.dayOfYear ≤ e.dayOfYear := by
      unfold dayOfYear
      rw [hSame]
      omega
    have hLe := (inMonth_month d).le (hSame ▸ inMonth_month e) hDays
    omega

/-- Only its own parts make a day. -/
theorem parts_of_ofParts? {year month day : Int} {d : Day} (h : ofParts? year month day = some d) :
    d.year = year ∧ d.month = month ∧ d.dayOfMonth = day := by
  obtain ⟨hParts, h⟩ := Option.ite_none_right_eq_some.mp h
  obtain ⟨_, _, hMonth, hMonth', hDay, hDay'⟩ := hParts
  have hNumber : d.number = yearStart year + monthStart (isLeap year) month + (day - 1) := by
    unfold ofNumber? at h
    split at h <;> cases h
    rfl
  have hIn : InMonth (isLeap year) (d.number - yearStart year) month := by
    unfold monthLength at hDay'
    exact ⟨⟨hMonth, hMonth'⟩, by omega, by omega⟩
  have hYear : d.year = year := by
    have hFirst := monthStart_bounds (isLeap year) hMonth (by omega)
    have hLast := monthStart_bounds (isLeap year) (by omega : 1 ≤ month + 1) (by omega)
    have hNext := yearStart_succ year
    obtain ⟨_, hStart, hEnd⟩ := hIn
    exact Int.le_antisymm (year_le_year (yearStart_year_le d) (Int.le_refl _) (by omega))
      (year_le_year (by omega) (Int.le_refl _) (lt_yearStart_succ_year d))
  subst hYear
  have hSame : d.month = month :=
    Int.le_antisymm ((inMonth_month d).le hIn (Int.le_refl _)) (hIn.le (inMonth_month d) (Int.le_refl _))
  refine ⟨rfl, hSame, ?_⟩
  unfold dayOfMonth dayOfYear
  rw [hSame]
  omega

/-- Parts that the calendar has make a day. -/
theorem exists_ofParts? {year month day : Int} (hYear : 1 ≤ year ∧ year ≤ 9999) (hMonth : 1 ≤ month ∧ month ≤ 12)
    (hDay : 1 ≤ day ∧ day ≤ monthLength year month) : ∃ d, ofParts? year month day = some d := by
  obtain ⟨hStart, _⟩ := monthStart_bounds (isLeap year) hMonth.1 (by omega)
  obtain ⟨_, hEnd⟩ := monthStart_bounds (isLeap year) (by omega : 1 ≤ month + 1) (by omega)
  -- the day is no later than the last one of its month, and that is before the next year
  have hNext := yearStart_succ year
  have hIn : 0 ≤ yearStart year + monthStart (isLeap year) month + (day - 1) ∧
      yearStart year + monthStart (isLeap year) month + (day - 1) ≤ 3652058 := by
    unfold monthLength at hDay
    have hThis := yearStart_eq year
    have hSucc := yearStart_eq (year + 1)
    omega
  refine ⟨⟨_, hIn⟩, ?_⟩
  unfold ofParts?
  rw [if_pos ⟨hYear.1, hYear.2, hMonth.1, hMonth.2, hDay.1, hDay.2⟩]
  exact dif_pos hIn

theorem ofParts_eq_ok {year month day : Int} {d : Day} :
    ofParts year month day = .ok d ↔ d.year = year ∧ d.month = month ∧ d.dayOfMonth = day := by
  constructor
  · intro h
    unfold ofParts at h
    split at h
    · split at h <;> cases h
      exact parts_of_ofParts? (by assumption)
    · cases h
  · rintro ⟨rfl, rfl, rfl⟩
    have hYear := year_bounds d
    have hMonth := month_bounds d
    have hDay := dayOfMonth_bounds d
    have hLength := monthLength_le d.year hMonth.1 hMonth.2
    have hParts : (isPart d.year && isPart d.month && isPart d.dayOfMonth) = true := by
      simp only [isPart, Bool.and_eq_true, decide_eq_true_eq]
      omega
    rw [ofParts, hParts, ofParts?_parts]
    rfl

theorem plus_eq_ok {d e : Day} {k : Int} : d.plus k = .ok e ↔ e.number = d.number + k := by
  have hIn := e.inRange
  unfold plus ofNumber ofNumber?
  constructor
  · intro h
    split at h <;> cases h
    rename_i hDay
    split at hDay <;> cases hDay
    rfl
  · intro h
    rw [← h, dif_pos hIn]

theorem exists_plus_iff {d : Day} {k : Int} :
    (∃ e, d.plus k = .ok e) ↔ 0 ≤ d.number + k ∧ d.number + k ≤ 3652058 := by
  constructor
  · rintro ⟨e, he⟩
    rw [← plus_eq_ok.mp he]
    exact e.inRange
  · intro hIn
    exact ⟨⟨_, hIn⟩, plus_eq_ok.mpr rfl⟩

theorem plus_eq_error {d : Day} {k : Int} (h : 3652058 < d.number + k) : d.plus k = .error .dateOverflow := by
  unfold plus ofNumber ofNumber?
  rw [dif_neg (by omega)]

/-! ## The next day with a weekday -/

section Weekday

variable {d e : Day} {target : Int} {strict : Bool}

def Ahead (strict : Bool) (d e : Day) : Prop :=
  if strict then d.number < e.number else d.number ≤ e.number

structure Nearest (target : Int) (strict : Bool) (d e : Day) : Prop where
  ahead : d.Ahead strict e
  weekday : e.weekday = target
  least : ∀ other, d.Ahead strict other → other.weekday = target → e.number ≤ other.number

/-- How many days it takes to come to the weekday. -/
def wait (d : Day) (target : Int) (strict : Bool) : Int :=
  let delta := (target - d.weekday) % 7
  if strict && delta = 0 then 7 else delta

theorem nextWeekday_eq_plus : d.nextWeekday target strict = d.plus (d.wait target strict) :=
  rfl

theorem wait_bounds : 0 ≤ d.wait target strict ∧ d.wait target strict ≤ 7 ∧
    (strict = true → 0 < d.wait target strict) := by
  unfold wait
  dsimp only
  split
  · omega
  · rename_i hOther
    refine ⟨by omega, by omega, fun hStrict => ?_⟩
    rw [hStrict, Bool.true_and, decide_eq_true_eq] at hOther
    omega

theorem number_le_of_nextWeekday (h : d.nextWeekday target strict = .ok e) : d.number ≤ e.number := by
  have hNumber := plus_eq_ok.mp (nextWeekday_eq_plus ▸ h)
  have hLeast := (@wait_bounds d target strict).1
  omega

theorem exists_nextWeekday (h : d.number + 7 ≤ 3652058) (target : Int) (strict : Bool) :
    ∃ e, d.nextWeekday target strict = .ok e := by
  have hStart := d.inRange
  obtain ⟨hLeast, hMost, _⟩ := @wait_bounds d target strict
  exact exists_plus_iff.mpr ⟨by omega, by omega⟩

/-- The wait leads to the weekday, and no shorter one does. -/
theorem wait_least {other : Day} (hAhead : d.Ahead strict other) (hWeekday : other.weekday = target) :
    d.number + d.wait target strict ≤ other.number := by
  unfold weekday at hWeekday
  unfold Ahead at hAhead
  unfold wait weekday
  cases strict with
  | true =>
    simp only [Bool.true_and, decide_eq_true_eq, if_true] at hAhead ⊢
    split <;> omega
  | false =>
    simp only [Bool.false_and, Bool.false_eq_true, if_false] at hAhead ⊢
    omega

theorem weekday_of_wait (hTarget : 0 ≤ target ∧ target ≤ 6) (hNumber : e.number = d.number + d.wait target strict) :
    e.weekday = target := by
  unfold weekday
  unfold wait weekday at hNumber
  dsimp only at hNumber
  split at hNumber
  · rename_i hSame
    have hZero := of_decide_eq_true (Bool.and_eq_true_iff.mp hSame).2
    omega
  · omega

theorem ahead_of_wait (hNumber : e.number = d.number + d.wait target strict) : d.Ahead strict e := by
  obtain ⟨hLeast, _, hStrict⟩ := @wait_bounds d target strict
  unfold Ahead
  split
  · have hSome := hStrict ‹_›
    omega
  · omega

theorem nearest_of_wait (hTarget : 0 ≤ target ∧ target ≤ 6) (hNumber : e.number = d.number + d.wait target strict) :
    d.Nearest target strict e where
  ahead := ahead_of_wait hNumber
  weekday := weekday_of_wait hTarget hNumber
  least := by
    intro other hAhead hWeekday
    rw [hNumber]
    exact wait_least hAhead hWeekday

/-- The nearest day is found if the calendar has one. -/
theorem nextWeekday_cases (d : Day) (strict : Bool) (hTarget : 0 ≤ target ∧ target ≤ 6) :
    (∃ e, d.nextWeekday target strict = .ok e ∧ d.Nearest target strict e ∧ e.number ≤ d.number + 7) ∨
      d.nextWeekday target strict = .error .dateOverflow ∧ ∀ e, d.Ahead strict e → e.weekday ≠ target := by
  obtain ⟨hLeast, hMost, _⟩ := @wait_bounds d target strict
  rw [nextWeekday_eq_plus]
  rcases le_or_gt (d.number + d.wait target strict) 3652058 with hIn | hOut
  · have hStart := d.inRange.1
    obtain ⟨e, hPlus⟩ := exists_plus_iff.mpr ⟨by omega, hIn⟩
    have hNumber := plus_eq_ok.mp hPlus
    exact .inl ⟨e, hPlus, nearest_of_wait hTarget hNumber, by omega⟩
  · refine .inr ⟨plus_eq_error hOut, fun e hAhead hWeekday => ?_⟩
    have hNumber := wait_least hAhead hWeekday
    have hEnd := e.inRange.2
    omega

end Weekday

end Agenda.Day
