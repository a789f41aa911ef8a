import Agenda.Proofs.Time.Moment
import Agenda.When.Rules

/-! # How far a date phrase may reach

`in 3 days` and `2 weeks from now` may name any number, so they may lead out of the calendar, and
their numeral may be too long to be read. Every other phrase stays within a year of today. So at
least a year from either end of the calendar, only the numbers of relative phrases decide whether a
text can be read.
-/

namespace Agenda.When

open Pattern

variable {now : Moment} {m : Match} {n : Nat} {unit : List Char} {kind : PhraseKind}

/-! ## Relative phrases -/

/-- Units of one length, in microseconds; a month and a year have none. -/
def lengths : List (String × Int) :=
  [("minute", minuteTicks), ("min", minuteTicks), ("hour", hourTicks), ("hr", hourTicks), ("day", dayTicks),
    ("week", 7 * dayTicks)]

/-- The months of a month or a year. -/
def monthsOf (unit : List Char) : Int :=
  if String.ofList unit = "month" then 1 else 12

theorem offset_eq (now : Moment) (n : Nat) (unit : List Char) :
    offset now n unit = match lengths.lookup (String.ofList unit) with
      | some ticks => Moment.span (n * ticks) >>= now.plus
      | none => now.plusMonths (monthsOf unit * n) := by
  unfold offset monthsOf
  extract_lets after name
  change _ = match lengths.lookup name with
    | some ticks => Moment.span (n * ticks) >>= now.plus
    | none => now.plusMonths ((if name = "month" then 1 else 12) * n)
  by_cases hMinute : name = "minute" ∨ name = "min"
  · rw [if_pos hMinute]
    rcases hMinute with h | h <;> rw [h] <;> rfl
  by_cases hHour : name = "hour" ∨ name = "hr"
  · rw [if_neg hMinute, if_pos hHour]
    rcases hHour with h | h <;> rw [h] <;> rfl
  by_cases hDay : name = "day"
  · rw [if_neg hMinute, if_neg hHour, if_pos hDay, hDay]
    rfl
  by_cases hWeek : name = "week"
  · rw [if_neg hMinute, if_neg hHour, if_neg hDay, if_pos hWeek, hWeek]
    rfl
  have hNone : lengths.lookup name = none := by
    rw [not_or] at hMinute hHour
    rw [List.lookup_eq_none_iff]
    simp [lengths, hMinute, hHour, hDay, hWeek]
  rw [if_neg hMinute, if_neg hHour, if_neg hDay, if_neg hWeek, hNone]
  by_cases hMonth : name = "month"
  · simp only [if_pos hMonth, Int.one_mul]
  · simp only [if_neg hMonth]

theorem lengths_nonneg {name : String} {ticks : Int} (h : lengths.lookup name = some ticks) : 0 ≤ ticks := by
  have hAll : ∀ e ∈ lengths, 0 ≤ e.2 := by decide
  obtain ⟨before, after, hSplit, _⟩ := List.lookup_eq_some_iff.mp h
  exact hAll _ (hSplit ▸ List.mem_append_cons_self)

/-- At least a year lies between a moment and either end of the calendar. -/
def Inland (now : Moment) : Prop :=
  365 ≤ now.day.number ∧ now.day.number + 365 ≤ Moment.latest.day.number

instance : Decidable (Inland now) :=
  inferInstanceAs (Decidable (_ ∧ _))

theorem Inland.day_bounds (h : Inland now) : 365 ≤ now.day.number ∧ now.day.number ≤ 3651693 := by
  have hLatest : Moment.latest.day.number = 3652058 := rfl
  unfold Inland at h
  omega

theorem Inland.year_le (h : Inland now) : now.day.year ≤ 9998 := by
  have hDay := h.day_bounds
  have hStart := Day.yearStart_year_le now.day
  rw [Day.yearStart_eq] at hStart
  omega

theorem exists_clockFromParts (hour minute : Nat) (half : Option (List Char)) :
    ∃ c, clockFromParts hour minute half = .ok c := by
  have hPlain : ∀ h : Int, 0 ≤ h → ∃ c, clockFromParts.plain minute h = .ok c := by
    intro h hLeast
    unfold clockFromParts.plain
    split
    · exact ⟨_, rfl⟩
    · rename_i hFits
      have hIn : (0 ≤ h ∧ h ≤ 23) ∧ 0 ≤ (minute : Int) ∧ (minute : Int) ≤ 59 := by omega
      rw [Clock.ofParts?, dif_pos hIn]
      exact ⟨_, rfl⟩
  unfold clockFromParts
  split
  · exact hPlain _ (by omega)
  · exact hPlain _ (by omega)
  · dsimp only
    split
    · exact ⟨_, rfl⟩
    · split
      · exact hPlain _ (by omega)
      · split
        · exact hPlain _ (by omega)
        · exact hPlain _ (by omega)

end Agenda.When
