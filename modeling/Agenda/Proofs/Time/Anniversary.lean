import Agenda.Proofs.Time.Calendar
import Mathlib.Data.Int.LeastGreatest

/-! # The next day of a date

A month and a day of it come up in every year, except for the leap day, which comes up in leap years
only. So from any day of the calendar on, up to its last years, there is a first one with that date.
-/

namespace Agenda.Day

/-- The first day from `today` on with a date. -/
structure Next (month date : Int) (today d : Day) : Prop where
  reached : today.number ≤ d.number
  inMonth : d.month = month
  onDate : d.dayOfMonth = date
  least : ∀ e : Day, today.number ≤ e.number → e.month = month → e.dayOfMonth = date → d.number ≤ e.number

/-- The date that only leap years have. -/
def IsLeapDay (month date : Int) : Prop :=
  month = 2 ∧ date = 29

instance (month date : Int) : Decidable (IsLeapDay month date) :=
  inferInstanceAs (Decidable (_ ∧ _))

variable {today d e : Day} {year later month date : Int}

/-! ## Leap years -/

theorem exists_leap (year : Int) : ∃ later, year ≤ later ∧ later < year + 8 ∧ isLeap later = true := by
  simp only [isLeap_iff]
  by_cases hCentury : (year + 3) / 4 * 4 % 100 = 0
  · -- a century may be no leap year, but the fourth year after it is one
    exact ⟨(year + 3) / 4 * 4 + 4, by omega, by omega, by omega, by omega⟩
  · exact ⟨(year + 3) / 4 * 4, by omega, by omega, by omega, by omega⟩

theorem not_isLeap_succ (h : isLeap year = true) : isLeap (year + 1) = false := by
  rw [isLeap_iff] at h
  rw [Bool.eq_false_iff, ne_eq, isLeap_iff]
  omega

theorem monthLength_two (year : Int) : monthLength year 2 = if isLeap year then 29 else 28 := by
  unfold monthLength
  cases isLeap year <;> rfl

/-- Only the length of February depends on the year. -/
theorem monthLength_of_ne_two (hMonth : 1 ≤ month ∧ month ≤ 12) (h : month ≠ 2) :
    monthLength year month = monthLength later month := by
  obtain ⟨hLow, hHigh⟩ := hMonth
  unfold monthLength
  cases isLeap year <;> cases isLeap later <;> interval_cases month <;> first | rfl | exact absurd rfl h

/-! ## Days with the same date -/

theorem number_lt_of_year_lt (h : d.year < e.year) : d.number < e.number := by
  by_contra hLater
  have hYear := year_le (Int.not_lt.mp hLater)
  omega

theorem number_le_of_year_le (hMonth : d.month = e.month) (hDate : d.dayOfMonth = e.dayOfMonth) (h : d.year ≤ e.year) :
    d.number ≤ e.number := by
  rcases h.lt_or_eq with hEarlier | hSame
  · exact (number_lt_of_year_lt hEarlier).le
  · rw [number_eq d, number_eq e, hMonth, hDate, hSame]

/-- A date comes up in every year, or in every leap year. -/
theorem exists_inYear (d : Day) (hYear : 1 ≤ year ∧ year ≤ 9999)
    (hLeap : IsLeapDay d.month d.dayOfMonth → isLeap year = true) :
    ∃ e, ofParts? year d.month d.dayOfMonth = some e := by
  have hMonth := d.month_bounds
  obtain ⟨hFirst, hLast⟩ := d.dayOfMonth_bounds
  refine exists_ofParts? hYear hMonth ⟨hFirst, ?_⟩
  by_cases hFebruary : d.month = 2
  · rw [hFebruary, monthLength_two] at hLast ⊢
    by_cases hDate : d.dayOfMonth = 29
    · rw [if_pos (hLeap ⟨hFebruary, hDate⟩), hDate]
    · split at hLast <;> split <;> omega
  · rwa [monthLength_of_ne_two hMonth hFebruary]

theorem isLeap_of_isLeapDay (h : IsLeapDay d.month d.dayOfMonth) : isLeap d.year = true := by
  obtain ⟨hFebruary, hDate⟩ := h
  have hLast := d.dayOfMonth_bounds.2
  rw [hFebruary, hDate, monthLength_two] at hLast
  by_contra hNot
  rw [if_neg hNot] at hLast
  omega

/-- Of two years in a row only one has a leap day. -/
theorem ofParts?_succ_of_isLeapDay (h : IsLeapDay d.month d.dayOfMonth) :
    ofParts? (d.year + 1) d.month d.dayOfMonth = none := by
  rw [Option.eq_none_iff_forall_ne_some]
  intro e he
  obtain ⟨hYear, hMonth, hDate⟩ := parts_of_ofParts? he
  have hLeap := isLeap_of_isLeapDay h
  rw [← hMonth, ← hDate] at h
  have hLeap' := isLeap_of_isLeapDay h
  rw [hYear, not_isLeap_succ hLeap] at hLeap'
  cases hLeap'

/-! ## The next one -/

theorem Next.ofParts? (h : Next month date today d) : Day.ofParts? d.year month date = some d := by
  rw [← h.inMonth, ← h.onDate]
  exact ofParts?_parts d

/-- This year's day with the date has passed, if the next one is in a later year. -/
theorem Next.passed (h : Next month date today d) (hLater : d.year ≠ today.year)
    (hThis : Day.ofParts? today.year month date = some e) : ¬ today.number ≤ e.number := by
  intro hAhead
  obtain ⟨hYear, hMonth, hDate⟩ := parts_of_ofParts? hThis
  have hLe := year_le (h.least e hAhead hMonth hDate)
  have hGe := year_le h.reached
  omega

/-- The last years of the calendar may end before a leap day. -/
theorem exists_next (d : Day) (hYear : today.year < 9990) : ∃ e, Next d.month d.dayOfMonth today e := by
  have hFirst := today.year_bounds.1
  obtain ⟨later, hAfter, hSoon, hLeap⟩ := exists_leap (today.year + 1)
  obtain ⟨e, he⟩ := exists_inYear d (by omega : 1 ≤ later ∧ later ≤ 9999) fun _ => hLeap
  obtain ⟨hThat, hMonth, hDate⟩ := parts_of_ofParts? he
  have hReached : today.number ≤ e.number := (number_lt_of_year_lt (by omega)).le
  obtain ⟨_, ⟨f, rfl, hFrom, hInMonth, hOnDate⟩, hLeast⟩ := Int.exists_least_of_bdd
    (P := fun n => ∃ f : Day, f.number = n ∧ today.number ≤ f.number ∧ f.month = d.month ∧ f.dayOfMonth = d.dayOfMonth)
    ⟨today.number, by rintro _ ⟨f, rfl, hFrom, _⟩; exact hFrom⟩ ⟨e.number, e, rfl, hReached, hMonth, hDate⟩
  exact ⟨f, hFrom, hInMonth, hOnDate, fun g hg hgMonth hgDate => hLeast _ ⟨g, rfl, hg, hgMonth, hgDate⟩⟩

end Agenda.Day
