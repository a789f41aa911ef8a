import Agenda.Proofs.Text.Spelt
import Agenda.Proofs.Time.Anniversary
import Agenda.Proofs.When.Alone

/-! # Dates without their year

A month and a day without the year are looked up in this year, and in the next one if that day has
passed. So they mean the first such day from today on, except for the leap day: that is read only if
this year has one that is still to come.
-/

namespace Agenda.When

open Pattern Text

/-! ## The ways to write a date -/

def monthNames : List (String × Int) :=
  [("jan", 1), ("january", 1), ("feb", 2), ("february", 2), ("mar", 3), ("march", 3), ("apr", 4), ("april", 4), ("may", 5),
    ("jun", 6), ("june", 6), ("jul", 7), ("july", 7), ("aug", 8), ("august", 8), ("sep", 9), ("sept", 9), ("september", 9),
    ("oct", 10), ("october", 10), ("nov", 11), ("november", 11), ("dec", 12), ("december", 12)]

/-- The number is written in one or two ASCII digits. -/
def Writes (ds : List Char) (n : Int) : Prop :=
  ds.length ∈ [1, 2] ∧ (∀ c ∈ ds, c ∈ asciiDigits) ∧ (numeral ds : Int) = n

/-- A month and a day without a year, the name of the month in any letter case. -/
inductive YearlessText (month date : Int) : List Char → Prop
  | monthDay {name : String} {w ds : List Char} (hName : (name, month) ∈ monthNames) (hSpelt : Spelt name w)
      (hDate : Writes ds date) : YearlessText month date (w ++ ' ' :: ds)
  | dayMonth {name : String} {w ds : List Char} (hName : (name, month) ∈ monthNames) (hSpelt : Spelt name w)
      (hDate : Writes ds date) : YearlessText month date (ds ++ ' ' :: w)
  | monthSlashDay {ms ds : List Char} (hMonth : Writes ms month) (hDate : Writes ds date) :
      YearlessText month date (ms ++ '/' :: ds)

variable {now : Moment} {month date : Int} {today d e : Day} {name : String} {text w ds ms : List Char} {strict : Bool}
  {kind : PhraseKind} {r : Rule} {m : Match}

/-! ## This year or the next -/

theorem forward_of_passed (hThis : Day.ofParts? today.year month date = some e) (hPassed : ¬ today.number ≤ e.number) :
    forward (Day.ofParts? today.year month date) today false = Day.ofParts? (today.year + 1) month date := by
  obtain ⟨hYear, hMonth, hDate⟩ := Day.parts_of_ofParts? hThis
  simp [forward, hThis, hPassed, hYear, hMonth, hDate]

/-- A date that every year has is found in this year or the next. -/
theorem forward_of_common (h : Day.Next month date today d) (hLater : d.year ≠ today.year)
    (hCommon : ¬ Day.IsLeapDay month date) : forward (Day.ofParts? today.year month date) today false = some d := by
  have hOther : Day.IsLeapDay d.month d.dayOfMonth → ∀ year, Day.isLeap year = true := by
    rw [h.inMonth, h.onDate]
    exact fun hLeap => absurd hLeap hCommon
  have hYear := Day.year_le h.reached
  have hFirst := today.year_bounds
  have hLast := d.year_bounds
  obtain ⟨e, hThis⟩ := Day.exists_inYear d (by omega : 1 ≤ today.year ∧ today.year ≤ 9999) fun hLeap => hOther hLeap _
  obtain ⟨f, hNext⟩ := Day.exists_inYear d (by omega : 1 ≤ today.year + 1 ∧ today.year + 1 ≤ 9999) fun hLeap =>
    hOther hLeap _
  rw [h.inMonth, h.onDate] at hThis hNext
  obtain ⟨hNextYear, hMonth, hDate⟩ := Day.parts_of_ofParts? hNext
  have hAhead : today.number ≤ f.number := (Day.number_lt_of_year_lt (by omega)).le
  have hLe := Day.year_le (h.least f hAhead hMonth hDate)
  rw [forward_of_passed hThis (h.passed hLater hThis), show today.year + 1 = d.year by omega, h.ofParts?]

theorem forward_of_leapDay (h : Day.Next month date today d) (hLater : d.year ≠ today.year)
    (hLeap : Day.IsLeapDay month date) : forward (Day.ofParts? today.year month date) today false = none := by
  cases hThis : Day.ofParts? today.year month date with
  | none => rfl
  | some e =>
    have hPassed := h.passed hLater hThis
    obtain ⟨hYear, rfl, rfl⟩ := Day.parts_of_ofParts? hThis
    rw [← hThis, forward_of_passed hThis hPassed, ← hYear, Day.ofParts?_succ_of_isLeapDay hLeap]

theorem forward_of_next (h : Day.Next month date today d) : forward (Day.ofParts? today.year month date) today false =
    if Day.IsLeapDay month date ∧ d.year ≠ today.year then none else some d := by
  by_cases hSame : d.year = today.year
  · rw [if_neg fun hNot => hNot.2 hSame, ← hSame, h.ofParts?]
    simp [forward, h.reached]
  by_cases hLeap : Day.IsLeapDay month date
  · rw [if_pos ⟨hLeap, hSame⟩, forward_of_leapDay h hSame hLeap]
  · rw [if_neg fun hNot => hLeap hNot.1, forward_of_common h hSame hLeap]

/-! ## What the rules find -/

/-- Two parts of a text with one character between them. -/
def pairOutline (front back : List Char) : Outline :=
  ⟨0, front.length + (1 + back.length), [(2, front.length + 1, front.length + (1 + back.length)), (1, 0, front.length)]⟩

theorem fill_pairOutline (front back : List Char) (c : Char) :
    let m := (pairOutline front back).fill (front ++ c :: back)
    (m.start = 0 ∧ m.stop = (front ++ c :: back).length) ∧ m.text 1 = front ∧ m.text 2 = back ∧ m.text 3 = [] := by
  intro m
  have hStop : m.stop = (front ++ c :: back).length := by
    rw [List.length_append, List.length_cons, Nat.add_comm back.length]
    rfl
  have hFront : m.text 1 = ((front ++ c :: back).drop 0).take (front.length - 0) := rfl
  have hBack : m.text 2 =
      ((front ++ c :: back).drop (front.length + 1)).take (front.length + (1 + back.length) - (front.length + 1)) := rfl
  refine ⟨⟨rfl, hStop⟩, ?_, ?_, rfl⟩
  · rw [hFront, List.drop_zero, Nat.sub_zero, List.take_left]
  · rw [hBack, List.append_cons, List.drop_left' (by simp), ← Nat.add_assoc, Nat.add_sub_cancel_left, List.take_length]

def pairPlaces (c : Char) (pairs : List (List Char × List Char)) : List Seam :=
  (pairs.flatMap fun e => seams (e.1 ++ c :: e.2)).eraseDups

/-- Of all rules only the one at the index finds something in such pairs, and that is the whole pair. -/
def ReadsPairs (i : Nat) (r : Rule) (c : Char) (pairs : List (List Char × List Char)) : Prop :=
  (∀ s ∈ rules.take i ++ rules.drop (i + 1), s.pattern.reach (pairPlaces c pairs) (pairPlaces c pairs) = []) ∧
    ∀ e ∈ pairs, tidy (e.1 ++ c :: e.2) = true ∧
      (r.pattern.all (e.1 ++ c :: e.2)).map Match.outline = [pairOutline e.1 e.2]

instance (i : Nat) (r : Rule) (c : Char) (pairs : List (List Char × List Char)) : Decidable (ReadsPairs i r c pairs) :=
  inferInstanceAs (Decidable (_ ∧ _))

theorem parse_of_pair {i : Nat} {c : Char} {pairs : List (List Char × List Char)} {front back : List Char}
    (hRules : rules = rules.take i ++ r :: rules.drop (i + 1)) (hReads : ReadsPairs i r c pairs)
    (hMark : hideDigits [c] = [c]) (hPair : (hideDigits front, hideDigits back) ∈ pairs)
    (hRule : ∀ m : Match, m.text 1 = front → m.text 2 = back → m.text 3 = [] →
      r.resolve m now = monthDay kind m now month date [])
    (h : Day.Next month date now.day d) : parse (front ++ c :: back) now strict =
      .ok (if Day.IsLeapDay month date ∧ d.year ≠ now.day.year then none else some (.on d .noon)) := by
  obtain ⟨hNowhere, hFound⟩ := hReads
  obtain ⟨hTidy, hMatch⟩ := hFound _ hPair
  have hHidden : hideDigits (front ++ c :: back) = hideDigits front ++ c :: hideDigits back := by
    rw [List.append_cons, hideDigits_append, hideDigits_append, hMark, List.append_assoc, List.singleton_append]
  have hLengths : pairOutline (hideDigits front) (hideDigits back) = pairOutline front back := by
    simp only [pairOutline, hideDigits, List.length_map]
  have hPlaces : seams (hideDigits (front ++ c :: back)) ⊆ pairPlaces c pairs := by
    intro s hs
    rw [hHidden] at hs
    exact List.mem_eraseDups.mpr (List.mem_flatMap.mpr ⟨_, hPair, hs⟩)
  have hOnly : r.pattern.all (front ++ c :: back) = [(pairOutline front back).fill (front ++ c :: back)] := by
    rw [all_eq_fill (hRules ▸ List.mem_append_cons_self), hHidden, hMatch, hLengths, List.map_singleton]
  obtain ⟨hWhole, hFirst, hSecond, hThird⟩ := fill_pairOutline front back c
  have hResolve := hRule _ hFirst hSecond hThird
  rw [monthDay] at hResolve
  have hText : Settled (front ++ c :: back) := settled_of_tidy (by rw [← tidy_hideDigits, hHidden, hTidy])
  rw [parse_of_alone hText (alone_of_places hRules hPlaces hNowhere hOnly) hWhole hResolve]
  change combine (Option.map _ (forward (Day.ofParts? now.day.year month date) now.day false)).toList now = _
  rw [forward_of_next h]
  split <;> rfl

/-! ## What is read -/

def zeros (width : Nat) : List Char :=
  List.replicate width '0'

theorem hideDigits_of_writes {n : Int} (h : Writes ds n) : hideDigits ds = zeros ds.length :=
  hideDigits_of_digits h.2.1

theorem numeralOf_of_writes {k : Nat} {n : Int} (h : Writes ds n) (hText : m.text k = ds) : numeralOf m k = n := by
  rw [numeralOf, hText]
  exact h.2.2

theorem plain_of_monthName (hName : (name, month) ∈ monthNames) :
    Plain name ∧ hideDigits name.toList = name.toList ∧ monthNumber name.toList = month := by
  have hAll : ∀ e ∈ monthNames, Plain e.1 ∧ hideDigits e.1.toList = e.1.toList ∧ monthNumber e.1.toList = e.2 := by
    decide
  exact hAll _ hName

def namePairs : List (List Char × List Char) :=
  monthNames.flatMap fun e => [1, 2].map fun width => (e.1.toList, zeros width)

def slashPairs : List (List Char × List Char) :=
  [1, 2].flatMap fun width => [1, 2].map fun width' => (zeros width, zeros width')

theorem readsPairs_monthDay : ReadsPairs 7 monthDayRule ' ' namePairs := by
  decide +kernel

theorem readsPairs_dayMonth : ReadsPairs 8 dayMonthRule ' ' (namePairs.map Prod.swap) := by
  decide +kernel

theorem readsPairs_monthSlashDay : ReadsPairs 10 monthSlashDayRule '/' slashPairs := by
  decide +kernel

theorem mem_namePairs (hName : (name, month) ∈ monthNames) (hDate : Writes ds date) :
    (hideDigits name.toList, hideDigits ds) ∈ namePairs := by
  rw [(plain_of_monthName hName).2.1, hideDigits_of_writes hDate]
  exact List.mem_flatMap.mpr ⟨_, hName, List.mem_map.mpr ⟨_, hDate.1, rfl⟩⟩

theorem mem_slashPairs (hMonth : Writes ms month) (hDate : Writes ds date) :
    (hideDigits ms, hideDigits ds) ∈ slashPairs := by
  rw [hideDigits_of_writes hMonth, hideDigits_of_writes hDate]
  exact List.mem_flatMap.mpr ⟨_, hMonth.1, List.mem_map.mpr ⟨_, hDate.1, rfl⟩⟩

theorem lower_of_spelt (hPlain : Plain name) (hSpelt : Spelt name w) (hDate : Writes ds date) :
    lower (w ++ ' ' :: ds) = name.toList ++ ' ' :: ds ∧ lower (ds ++ ' ' :: w) = ds ++ ' ' :: name.toList := by
  have hName := hSpelt.spells hPlain
  have hDigits : List.Forall₂ Spells ds ds := List.forall₂_same.mpr fun c hc => spells_asciiDigits c (hDate.2.1 c hc)
  have hSpace : Spells ' ' ' ' := spells_of_ascii (by decide) (by decide)
  exact ⟨lower_of_spells (List.rel_append hName (.cons hSpace hDigits)),
    lower_of_spells (List.rel_append hDigits (.cons hSpace hName))⟩

theorem parse_of_next (hText : YearlessText month date text) (h : Day.Next month date now.day d) :
    parse text now strict = .ok (if Day.IsLeapDay month date ∧ d.year ≠ now.day.year then none else some (.on d .noon)) := by
  cases hText with
  | @monthDay name w ds hName hSpelt hDate =>
    obtain ⟨hPlain, _, hNumber⟩ := plain_of_monthName hName
    have hRule (m : Match) (hFirst : m.text 1 = name.toList) (hSecond : m.text 2 = ds) (hThird : m.text 3 = []) :
        monthDayRule.resolve m now = monthDay .monthDay m now month date [] := by
      rw [← hNumber, ← numeralOf_of_writes hDate hSecond, ← hFirst, ← hThird]
      rfl
    rw [← parse_lower, (lower_of_spelt hPlain hSpelt hDate).1]
    exact parse_of_pair rfl readsPairs_monthDay rfl (mem_namePairs hName hDate) hRule h
  | @dayMonth name w ds hName hSpelt hDate =>
    obtain ⟨hPlain, _, hNumber⟩ := plain_of_monthName hName
    have hRule (m : Match) (hFirst : m.text 1 = ds) (hSecond : m.text 2 = name.toList) (hThird : m.text 3 = []) :
        dayMonthRule.resolve m now = monthDay .dayMonth m now month date [] := by
      rw [← hNumber, ← numeralOf_of_writes hDate hFirst, ← hSecond, ← hThird]
      rfl
    rw [← parse_lower, (lower_of_spelt hPlain hSpelt hDate).2]
    exact parse_of_pair rfl readsPairs_dayMonth rfl (List.mem_map_of_mem (mem_namePairs hName hDate)) hRule h
  | @monthSlashDay ms ds hMonth hDate =>
    have hRule (m : Match) (hFirst : m.text 1 = ms) (hSecond : m.text 2 = ds) (hThird : m.text 3 = []) :
        monthSlashDayRule.resolve m now = monthDay .monthSlashDay m now month date [] := by
      unfold monthSlashDayRule
      dsimp only
      rw [numeralOf_of_writes hMonth hFirst, numeralOf_of_writes hDate hSecond, hThird]
      rfl
    exact parse_of_pair rfl readsPairs_monthSlashDay rfl (mem_slashPairs hMonth hDate) hRule h

/-- A month and a day mean noon of the first such day from today on. Only the leap day is not read if that
day is in a later year. -/
theorem parse_yearless (e : Day) (hYear : now.day.year < 9990) : ∃ d, Day.Next e.month e.dayOfMonth now.day d ∧
    ∀ text, YearlessText e.month e.dayOfMonth text → ∀ strict, parse text now strict =
      .ok (if Day.IsLeapDay e.month e.dayOfMonth ∧ d.year ≠ now.day.year then none else some (.on d .noon)) := by
  obtain ⟨d, hNext⟩ := Day.exists_next e hYear
  exact ⟨d, hNext, fun _ hText _ => parse_of_next hText hNext⟩

/-- Ten o'clock on the tenth of January 2023. -/
def januaryMorning : Moment := ⟨63808941600000000, none, by decide⟩

/-- The fifth of January has passed in 2023, so that of 2024 is read. -/
theorem read_january : ∃ d, Day.Next 1 5 januaryMorning.day d ∧
    parse "Jan 5".toList januaryMorning true = .ok (some (.on d .noon)) := by
  obtain ⟨d, hNext, hParse⟩ := @parse_yearless januaryMorning ⟨738889, by decide⟩ (by decide)
  have hText : YearlessText 1 5 "Jan 5".toList :=
    @YearlessText.monthDay 1 5 "jan" "Jan".toList ['5'] (by decide) rfl
      ⟨by decide, List.forall_mem_singleton.mpr (by decide), rfl⟩
  exact ⟨d, hNext, hParse _ hText true⟩

theorem next_leapDay : Day.Next 2 29 januaryMorning.day ⟨738944, by decide⟩ where
  reached := by decide
  inMonth := by decide
  onDate := by decide
  least := by
    intro e hReached hMonth hDate
    have hLeap := Day.isLeap_of_isLeapDay ⟨hMonth, hDate⟩
    have hYear := Day.year_le hReached
    have hNow : januaryMorning.day.year = 2023 := by decide
    have hLater : e.year ≠ 2023 := by
      intro hSame
      rw [hSame] at hLeap
      cases hLeap
    exact Day.number_le_of_year_le hMonth.symm hDate.symm (show 2024 ≤ e.year by omega)

/-- The next leap day is in 2024, but only 2023 is asked for one. -/
theorem leapDay_not_read : Day.Next 2 29 januaryMorning.day ⟨738944, by decide⟩ ∧
    YearlessText 2 29 "feb 29".toList ∧ parse "feb 29".toList januaryMorning false = .ok none := by
  have hText : YearlessText 2 29 "feb 29".toList :=
    @YearlessText.monthDay 2 29 "feb" "feb".toList "29".toList (by decide) rfl
      ⟨by decide, List.forall_iff_forall_mem.mp (by decide), rfl⟩
  refine ⟨next_leapDay, hText, ?_⟩
  rw [parse_of_next hText next_leapDay]
  exact congrArg Except.ok (if_pos (by decide))

end Agenda.When
