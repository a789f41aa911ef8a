import Agenda.Proofs.When.Reading
import Agenda.Proofs.When.Span

/-! # What is read lies ahead

A phrase that leaves open which day it means names today or a later day: weekdays and periods are
counted on from today, and a date without its year is moved on if it has passed. Only `yesterday` and a
date with its year may lie behind. A time of day without a day is its next occurrence.
-/

namespace Agenda.When

open Pattern

variable {now value : Moment} {text : List Char} {strict : Bool} {kind : PhraseKind} {h : Hit} {hits : List Hit}

/-- The phrase says itself which day it means: `yesterday`, or a date with its year. -/
def Rule.FixesDay (r : Rule) (m : Match) : Prop :=
  r ∈ [yesterdayRule, yearMonthDayRule] ∨ r ∈ [monthDayRule, dayMonthRule, monthSlashDayRule] ∧ m.text 3 ≠ []

/-- The hit names no day before this one. -/
structure Hit.From (first : Day) (h : Hit) : Prop where
  day : ∀ d, h.day = some d → first.number ≤ d.number
  moment : ∀ m, h.moment = some m → first.number ≤ m.day.number

/-- The rule names no day before today, unless the phrase says itself which day it means. -/
def Rule.Onward (now : Moment) (r : Rule) : Prop :=
  ∀ m h, r.resolve m now = .ok (some h) → ¬ r.FixesDay m → h.From now.day

/-! ## Readings -/

theorem from_of_day {first d : Day} (hDay : h.day = some d) (hMoment : h.moment = none) (hLe : first.number ≤ d.number) :
    h.From first where
  day e he := by
    obtain rfl := Option.some.inj (hDay.symm.trans he)
    exact hLe
  moment m hm := by
    rw [hMoment] at hm
    cases hm

theorem from_of_neither {first : Day} (hDay : h.day = none) (hMoment : h.moment = none) : h.From first where
  day d hd := by
    rw [hDay] at hd
    cases hd
  moment m hm := by
    rw [hMoment] at hm
    cases hm

theorem onward_of_day {r : Rule} (day : Match → Except Fault Day)
    (hRule : ∀ m, r.resolve m now = dayHit kind m (day m))
    (hDay : ∀ m d, day m = .ok d → now.day.number ≤ d.number) : r.Onward now := by
  intro m h hHit _
  rw [hRule] at hHit
  obtain ⟨d, hd, hSome⟩ := Attempt.map_eq_ok.mp hHit
  cases hSome
  exact from_of_day rfl rfl (hDay m d hd)

theorem onward_of_clock {r : Rule} {meridiem : Bool} (clock : Match → Except Fault (Option Clock))
    (hRule : ∀ m, r.resolve m now = clockHit kind m (clock m) meridiem) : r.Onward now := by
  intro m h hHit _
  rw [hRule] at hHit
  obtain ⟨c, _, hMade⟩ := Attempt.map_eq_ok.mp hHit
  obtain ⟨_, _, rfl⟩ := Option.map_eq_some_iff.mp hMade
  exact from_of_neither rfl rfl

/-- A date of this year is moved to the next year if it has passed. -/
theorem not_before_of_forward {month day : Int} {today d : Day}
    (h : forward (Day.ofParts? today.year month day) today false = some d) : today.number ≤ d.number := by
  obtain ⟨this, hThis, h⟩ := Option.bind_eq_some_iff.mp h
  have hYear := (Day.parts_of_ofParts? hThis).1
  split at h
  · rename_i hAhead
    cases h
    exact of_decide_eq_true hAhead
  · have hNext := (Day.parts_of_ofParts? h).1
    by_contra hEarlier
    have hLe := Day.year_le (Int.not_le.mp hEarlier).le
    omega

theorem onward_of_monthDay {r : Rule} (month day : Match → Int) (year : Match → List Char)
    (hRule : ∀ m, r.resolve m now = monthDay kind m now (month m) (day m) (year m))
    (hYear : ∀ m, ¬ r.FixesDay m → year m = []) : r.Onward now := by
  intro m h hHit hOpen
  rw [hRule, hYear m hOpen] at hHit
  obtain ⟨d, hd, rfl⟩ := Option.map_eq_some_iff.mp (Except.ok.inj hHit)
  exact from_of_day rfl rfl (not_before_of_forward hd)

theorem day_le_of_offset {n : Nat} {unit : List Char} (h : offset now n unit = .ok value) :
    now.day.number ≤ value.day.number := by
  have hn : (0 : Int) ≤ n := Int.natCast_nonneg n
  rw [offset_eq] at h
  split at h
  · rename_i ticks hLength
    obtain ⟨span, hSpan, h⟩ := Attempt.bind_eq_ok.mp h
    refine Moment.day_le_of_plus ?_ h
    unfold Moment.span at hSpan
    split at hSpan <;> cases hSpan
    exact Int.mul_nonneg hn (lengths_nonneg hLength)
  · refine Moment.day_le_of_plusMonths (Int.mul_nonneg ?_ hn) h
    unfold monthsOf
    split <;> decide

theorem onward_of_relative {r : Rule} (hRule : ∀ m, r.resolve m now = relative m now) : r.Onward now := by
  intro m h hHit _
  rw [hRule] at hHit
  obtain ⟨n, _, hHit⟩ := Attempt.bind_eq_ok.mp hHit
  obtain ⟨value, hOffset, hHit⟩ := Attempt.bind_eq_ok.mp hHit
  cases Attempt.pure_eq_ok.mp hHit
  refine ⟨nofun, ?_⟩
  rintro _ ⟨⟩
  exact day_le_of_offset hOffset

/-! ## The rules -/

theorem onward_today : todayRule.Onward now := by
  intro m h hHit _
  obtain rfl := Option.some.inj (Except.ok.inj hHit)
  split <;> exact from_of_day rfl rfl le_rfl

theorem onward_tomorrow : tomorrowRule.Onward now := by
  refine onward_of_day _ (fun _ => rfl) fun _ d hd => ?_
  have hNumber := Day.plus_eq_ok.mp hd
  omega

theorem onward_weekday : weekdayRule.Onward now :=
  onward_of_day _ (fun _ => rfl) fun _ _ hd => Day.number_le_of_nextWeekday hd

theorem onward_nextPeriod : nextPeriodRule.Onward now := by
  refine onward_of_day _ (fun _ => rfl) fun _ d hd => ?_
  split at hd
  · have hNumber := Day.plus_eq_ok.mp hd
    omega
  · obtain ⟨later, hLater, rfl⟩ := Attempt.map_eq_ok.mp hd
    refine Moment.day_le_of_plusMonths ?_ hLater
    split <;> decide

theorem onward_of_fixed {r : Rule} (h : r ∈ [yesterdayRule, yearMonthDayRule]) : r.Onward now :=
  fun _ _ _ hOpen => absurd (.inl h) hOpen

theorem yearless {r : Rule} {m : Match} (h : r ∈ [monthDayRule, dayMonthRule, monthSlashDayRule])
    (hOpen : ¬ r.FixesDay m) : m.text 3 = [] :=
  not_not.mp fun hSome => hOpen (.inr ⟨h, hSome⟩)

theorem onward_monthSlashDay : monthSlashDayRule.Onward now := by
  refine onward_of_monthDay _ _ _ (fun _ => rfl) fun m hOpen => ?_
  rw [yearless (by simp) hOpen]
  rfl

theorem onward_partOfDay : partOfDayRule.Onward now := by
  intro m h hHit _
  obtain rfl := Option.some.inj (Except.ok.inj hHit)
  exact from_of_neither rfl rfl

theorem onward_noon : noonRule.Onward now :=
  onward_of_clock (fun m => .ok (some (if m.text 1 == "noon".toList then .noon else .midnight))) fun _ => rfl

theorem onward_of_mem_rules : ∀ r ∈ rules, r.Onward now := by
  simp only [rules, List.forall_mem_cons]
  exact ⟨onward_today, onward_tomorrow, onward_of_fixed (by simp), onward_weekday, onward_nextPeriod,
    onward_of_relative fun _ => rfl, onward_of_relative fun _ => rfl,
    onward_of_monthDay _ _ _ (fun _ => rfl) fun _ => yearless (by simp),
    onward_of_monthDay _ _ _ (fun _ => rfl) fun _ => yearless (by simp),
    onward_of_fixed (by simp), onward_monthSlashDay, onward_of_clock _ fun _ => rfl, onward_of_clock _ fun _ => rfl,
    onward_of_clock _ fun _ => rfl, onward_noon, onward_partOfDay, fun _ h => absurd h List.not_mem_nil⟩

/-! ## The moment that hits name -/

theorem day_le_of_combine {first : Day} (hFirst : hits.find? (·.namesDay) = some h) (hFrom : h.From first)
    (hCombined : combine hits now = .ok (some value)) : first.number ≤ value.day.number := by
  unfold combine at hCombined
  rw [hFirst] at hCombined
  dsimp only at hCombined
  split at hCombined
  · rename_i m hMoment
    have hLe := hFrom.moment m hMoment
    split at hCombined <;> cases hCombined
    · rwa [Moment.toMinute, Moment.day_ofDay]
    · rwa [Moment.on, Moment.day_ofDay]
  · rename_i d _ hDay
    cases hCombined
    rw [Moment.on, Moment.day_ofDay]
    exact hFrom.day d hDay
  · cases hCombined

/-- Without a day, a time of day is today's, or tomorrow's if that has passed. -/
theorem next_of_combine (hLocal : now.isLocal = true) (hFirst : hits.find? (·.namesDay) = none)
    (hCombined : combine hits now = .ok (some value)) :
    now.ticks ≤ value.ticks ∧ value.ticks < now.ticks + dayTicks := by
  unfold combine at hCombined
  rw [hFirst] at hCombined
  cases hClock : clockOf hits with
  | none =>
    rw [hClock] at hCombined
    cases hCombined
  | some c =>
    have hToday : now.day.number = now.ticks / 86400000000 := rfl
    have hTicks : (Moment.on now.day c).ticks = now.day.number * 86400000000 + c.ticks := rfl
    have hRange := c.inRange
    have hDay : dayTicks = 86400000000 := rfl
    rw [hClock] at hCombined
    dsimp only at hCombined
    rw [Moment.lt_of_isLocal rfl hLocal, Attempt.ok_bind, Moment.instant_of_isLocal rfl,
      Moment.instant_of_isLocal hLocal] at hCombined
    split at hCombined
    · rename_i hPassed
      obtain ⟨tomorrow, hTomorrow, hCombined⟩ := Attempt.bind_eq_ok.mp hCombined
      cases hCombined
      have hNext := (Moment.plus_eq_ok.mp hTomorrow).1
      have hLess := of_decide_eq_true hPassed
      omega
    · rename_i hAhead
      cases hCombined
      have hNotLess := of_decide_eq_false (Bool.not_eq_true _ ▸ hAhead)
      omega

/-- What is read is today or later, unless the first kept phrase with a day says itself which day it
means; and without such a phrase it is less than a day away. -/
theorem parse_not_past (hLocal : now.isLocal = true) (hParse : parse text now strict = .ok (some value)) :
    ∃ kept, collect (searched text) now = .ok kept ∧ combine kept now = .ok (some value) ∧
      (∀ h, kept.find? (·.namesDay) = some h →
        (∃ r ∈ rules, ∃ m ∈ r.pattern.all (searched text), r.resolve m now = .ok (some h)) ∧
        ∀ r ∈ rules, ∀ m ∈ r.pattern.all (searched text), r.resolve m now = .ok (some h) → ¬ r.FixesDay m →
          now.day.number ≤ value.day.number) ∧
      (kept.find? (·.namesDay) = none → now.ticks ≤ value.ticks ∧ value.ticks < now.ticks + dayTicks) := by
  obtain ⟨found, hSearch, rfl⟩ := search_of_parse hParse
  obtain ⟨hits, hAll, hCombined, _⟩ := exists_hits_of_search hSearch
  refine ⟨select hits, ?_, hCombined, ?_, fun hNone => next_of_combine hLocal hNone hCombined⟩
  · unfold collect searched
    rw [hAll]
    rfl
  · intro h hFirst
    refine ⟨resolved_of_allHits hAll h (mem_of_mem_select (List.mem_of_find?_eq_some hFirst)), ?_⟩
    intro r hr m _ hResolve hOpen
    exact day_le_of_combine hFirst (onward_of_mem_rules r hr m h hResolve hOpen) hCombined

/-- At nine in the morning, eight is eight the next day. -/
theorem eight_is_ahead : ∃ value, parse "call at 8am".toList mayMorning false = .ok (some value) ∧
    mayMorning.ticks ≤ value.ticks ∧ value.ticks < mayMorning.ticks + dayTicks := by
  have hRead : parse "call at 8am".toList mayMorning false = .ok (some (.on ⟨739021, by decide⟩ (.atHour 8))) := by
    decide +kernel
  obtain ⟨kept, hCollect, _, _, hNext⟩ := parse_not_past rfl hRead
  have hDayless : (collect (searched "call at 8am".toList) mayMorning).map (fun kept =>
      (kept.find? (·.namesDay)).isNone) = .ok true := by
    decide +kernel
  rw [hCollect] at hDayless
  exact ⟨_, hRead, hNext (Option.isNone_iff_eq_none.mp (Except.ok.inj hDayless))⟩

end Agenda.When
