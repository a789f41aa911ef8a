import Agenda.Proofs.Text.Numeral
import Agenda.Proofs.When.Alone
import Agenda.Time.Print
import Mathlib.Data.Fintype.Basic
import Mathlib.Tactic.FinCases

/-! # Written dates and times are read back

No rule tells one digit from another, so what the rules find in a written date and time of day is
the same for all of them and can be looked at once for each form. The date is found by one rule, the
time by several that overlap, of which the longest hit is the one that reads all of it.
-/

namespace Agenda

open Text

/-- A time of day on the full minute. -/
def Clock.atMinute (hour : Fin 24) (minute : Fin 60) : Clock :=
  ⟨hour * 3600000000 + minute * 60000000, by omega⟩

/-- The hour on a dial, where midnight and noon are twelve. -/
def dialHour (hour : Fin 24) : Fin 24 :=
  if hour.val % 12 = 0 then 12 else ⟨hour.val % 12, by omega⟩

def halfName (hour : Fin 24) : List Char :=
  if hour.val < 12 then ['a', 'm'] else ['p', 'm']

/-- A time of day on a dial with its half of the day, as in `5:30pm`. The hour may be given a zero in
front, the half a space. -/
def dialText (hour : Fin 24) (minute : Fin 60) (zero spaced : Bool) : List Char :=
  (if zero then padded 2 (dialHour hour) else ofNat (dialHour hour)) ++ ':' :: padded 2 minute ++
    (if spaced then [' '] else []) ++ halfName hour

/-- A time of day on a day, as in `2026-01-10 at 17:30`. -/
def Day.textAt (d : Day) (time : List Char) : List Char :=
  d.text ++ " at ".toList ++ time

namespace When

open Pattern

/-! ## What the rules find -/

/-- Where each of the rules matches a text. -/
def outlines (text : List Char) : List (List Outline) :=
  rules.map fun r => (r.pattern.all text).map Match.outline

/-- The hits of a rule at the given places. -/
def Rule.hitsAt (r : Rule) (text : List Char) (now : Moment) (os : List Outline) : Except Fault (List Hit) := do
  return (← os.mapM fun o => r.resolve (o.fill text) now).filterMap id

variable {text : List Char} {now : Moment}

theorem hits_eq_hitsAt {r : Rule} (hr : r ∈ rules) :
    r.hits text now = r.hitsAt text now ((r.pattern.all (hideDigits text)).map Match.outline) := by
  unfold Rule.hits Rule.hitsAt
  rw [all_eq_fill hr, List.mapM_map]
  rfl

theorem allHits_eq : allHits text now =
    (do return (← (rules.zip (outlines (hideDigits text))).mapM fun (r, os) => r.hitsAt text now os).flatten) := by
  unfold allHits outlines
  rw [← List.map_prod_left_eq_zip, List.mapM_map, Attempt.mapM_congr fun r => hits_eq_hitsAt]
  rfl

/-! ## Dates and times -/

def dayHitAt (d : Day) : Hit :=
  { kind := .yearMonthDay, start := 0, stop := 10, day := some d, dated := true }

def dayOutline : Outline :=
  ⟨0, 10, [(3, 8, 10), (2, 5, 7), (1, 0, 4)]⟩

/-- Where an hour of so many digits and the minute after it lie. -/
def timeParts (width : Nat) : List (Nat × Nat × Nat) :=
  [(2, 15 + width, 17 + width), (1, 14, 14 + width)]

/-- Only four of the rules find something: the day, a time with its half, an hour, a time. -/
def foundIn (twelve atHour full : List Outline) : List (List Outline) :=
  [[], [], [], [], [], [], [], [], [], [dayOutline], [], twelve, atHour, full, [], []]

/-- The written date and time without its digits. -/
def form (width : Nat) (tail : List Char) : List Char :=
  List.replicate 4 '0' ++ '-' :: List.replicate 2 '0' ++ '-' :: List.replicate 2 '0' ++ " at ".toList ++
    (List.replicate width '0' ++ ':' :: List.replicate 2 '0' ++ tail)

theorem outlines_full : outlines (form 2 []) =
    foundIn [] [⟨11, 19, timeParts 2⟩] [⟨14, 19, timeParts 2⟩] := by
  decide +kernel

def gapOf (spaced : Bool) : List Char :=
  if spaced then [' '] else []

theorem outlines_dial : ∀ width ∈ [1, 2], ∀ spaced, ∀ half ∈ [['a', 'm'], ['p', 'm']],
    outlines (form width (gapOf spaced ++ half)) =
      let stop := 17 + width + (gapOf spaced).length
      foundIn [⟨11, stop + 2, (3, stop, stop + 2) :: timeParts width⟩] [⟨11, 14 + width, [(1, 14, 14 + width)]⟩]
        (if spaced then [⟨14, 17 + width, timeParts width⟩] else []) := by
  decide +kernel

theorem allHits_of_foundIn {twelve atHour full : List Outline} {hs hs' hs'' : List Hit} {d : Day}
    (hFound : outlines (hideDigits text) = foundIn twelve atHour full)
    (hDay : yearMonthDayRule.hitsAt text now [dayOutline] = .ok [dayHitAt d])
    (hTwelve : twelveHourRule.hitsAt text now twelve = .ok hs) (hAtHour : atHourRule.hitsAt text now atHour = .ok hs')
    (hFull : twentyFourHourRule.hitsAt text now full = .ok hs'') :
    allHits text now = .ok (dayHitAt d :: (hs ++ hs' ++ hs'')) := by
  have hSilent : ∀ r : Rule, r.hitsAt text now [] = .ok [] := fun _ => rfl
  rw [allHits_eq, hFound]
  simp only [rules, foundIn, List.zip_cons_cons, List.zip_nil_left, List.mapM_cons, List.mapM_nil, hSilent, hDay, hTwelve,
    hAtHour, hFull]
  simp [bind, Except.bind, pure, Except.pure]

/-! ## What they read -/

theorem numeralOf_of_text {m : Match} {n width k : Nat} (hText : m.text n = padded width k) (hFits : k < 10 ^ width) :
    numeralOf m n = k := by
  rw [numeralOf, hText, numeral_padded hFits]

theorem day_found (d : Day) (time : List Char) :
    yearMonthDayRule.hitsAt (d.textAt time) now [dayOutline] = .ok [dayHitAt d] := by
  obtain ⟨hYear, hYear'⟩ := d.year_bounds
  obtain ⟨hMonth, hMonth'⟩ := d.month_bounds
  obtain ⟨hDay, hDay'⟩ := d.dayOfMonth_bounds
  have hLength := Day.monthLength_le d.year hMonth hMonth'
  have hYearText : (dayOutline.fill (d.textAt time)).text 1 = padded 4 d.year.toNat := rfl
  have hMonthText : (dayOutline.fill (d.textAt time)).text 2 = padded 2 d.month.toNat := rfl
  have hDayText : (dayOutline.fill (d.textAt time)).text 3 = padded 2 d.dayOfMonth.toNat := rfl
  have hResolve : yearMonthDayRule.resolve (dayOutline.fill (d.textAt time)) now = .ok (some (dayHitAt d)) := by
    unfold yearMonthDayRule
    dsimp only
    rw [numeralOf_of_text hYearText (by omega), numeralOf_of_text hMonthText (by omega),
      numeralOf_of_text hDayText (by omega), Int.toNat_of_nonneg (by omega), Int.toNat_of_nonneg (by omega),
      Int.toNat_of_nonneg (by omega), Day.ofParts?_parts]
    rfl
  unfold Rule.hitsAt
  rw [List.mapM_cons, hResolve]
  rfl

/-- A time of day whose hour has so many digits. -/
def timeText (width : Nat) (hour : Fin 24) (minute : Fin 60) (tail : List Char) : List Char :=
  padded width hour ++ ':' :: padded 2 minute ++ tail

def clockHitAt (kind : PhraseKind) (start stop : Nat) (clock : Clock) (meridiem : Bool) : Hit :=
  { kind, start, stop, clock := some clock, meridiem }

variable {hour : Fin 24} {minute : Fin 60} {d : Day} {width : Nat} {tail : List Char} {r : Rule} {o : Outline}

theorem found_of_clock {kind : PhraseKind} {clock : Clock} {meridiem : Bool}
    (h : r.resolve (o.fill text) now = clockHit kind (o.fill text) (.ok (some clock)) meridiem) :
    r.hitsAt text now [o] = .ok [clockHitAt kind o.start o.stop clock meridiem] := by
  unfold Rule.hitsAt
  rw [List.mapM_cons, h]
  rfl

theorem plain_atMinute : clockFromParts.plain minute hour = .ok (some (.atMinute hour minute)) := by
  have hHour := hour.isLt
  have hMinute := minute.isLt
  unfold clockFromParts.plain
  rw [if_neg (by omega), Clock.ofParts?, dif_pos (by omega)]
  rfl

theorem atHour_found (hHour : (o.fill text).text 1 = padded width hour) (hFits : hour.val < 10 ^ width)
    (hMinute : numeralOf (o.fill text) 2 = minute) :
    atHourRule.hitsAt text now [o] = .ok [clockHitAt .atHour o.start o.stop (.atMinute hour minute) false] := by
  apply found_of_clock
  unfold atHourRule
  dsimp only
  rw [numeralOf_of_text hHour hFits, hMinute, clockFromParts, plain_atMinute]

theorem sharp_found (hHour : (o.fill text).text 1 = padded width hour) (hFits : hour.val < 10 ^ width)
    (hMinute : numeralOf (o.fill text) 2 = 0) :
    atHourRule.hitsAt text now [o] = .ok [clockHitAt .atHour o.start o.stop (.atMinute hour 0) false] :=
  atHour_found hHour hFits hMinute

theorem twentyFourHour_found (hHour : (o.fill text).text 1 = padded width hour) (hFits : hour.val < 10 ^ width)
    (hMinute : numeralOf (o.fill text) 2 = minute) :
    twentyFourHourRule.hitsAt text now [o] =
      .ok [clockHitAt .twentyFourHour o.start o.stop (.atMinute hour minute) false] := by
  apply found_of_clock
  unfold twentyFourHourRule
  dsimp only
  rw [numeralOf_of_text hHour hFits, hMinute, clockFromParts, plain_atMinute]

theorem dial_atMinute :
    clockFromParts (dialHour hour) minute (some (halfName hour)) = .ok (some (.atMinute hour minute)) := by
  rw [← plain_atMinute]
  fin_cases hour <;> rfl

theorem twelveHour_found (hHour : (o.fill text).text 1 = padded width (dialHour hour))
    (hFits : (dialHour hour).val < 10 ^ width) (hMinute : numeralOf (o.fill text) 2 = minute)
    (hHalf : (o.fill text).text 3 = halfName hour) :
    twelveHourRule.hitsAt text now [o] = .ok [clockHitAt .twelveHour o.start o.stop (.atMinute hour minute) true] := by
  apply found_of_clock
  unfold twelveHourRule
  dsimp only
  rw [numeralOf_of_text hHour hFits, hMinute, hHalf, dial_atMinute]

/-! ## Reading the whole text -/

theorem spells_of_mem_padded {n w : Nat} {c : Char} (h : c ∈ padded w n) : Spells c c := by
  have hDigit := isSome_asciiDigit?_of_mem_padded h
  unfold asciiDigit? at hDigit
  dsimp only at hDigit
  split at hDigit
  · rename_i hRange
    simp only [Bool.and_eq_true, decide_eq_true_eq] at hRange
    exact spells_of_ascii (by omega) (by omega)
  · cases hDigit

theorem lower_textAt (hTail : ∀ c ∈ tail, Spells c c) :
    lower (d.textAt (timeText width hour minute tail)) = d.textAt (timeText width hour minute tail) := by
  apply lower_eq_self
  have hDash : Spells '-' '-' := spells_of_ascii (by decide) (by decide)
  have hColon : Spells ':' ':' := spells_of_ascii (by decide) (by decide)
  have hAt : ∀ c ∈ " at ".toList, Spells c c := spells_of_all (by decide)
  simp only [Day.textAt, Day.text, timeText, List.forall_mem_append, List.forall_mem_cons]
  refine ⟨⟨⟨⟨?_, hDash, ?_⟩, hDash, ?_⟩, hAt⟩, ⟨?_, hColon, ?_⟩, hTail⟩
  all_goals exact fun c hc => spells_of_mem_padded hc

theorem not_blank_digitChar (n : Nat) : blank (digitChar n) = false :=
  forall_digitChar (p := fun _ c => blank c = false) (by decide) n

theorem trim_textAt (hTail : tail.getLast?.any blank = false) :
    trim (d.textAt (timeText width hour minute tail)) = d.textAt (timeText width hour minute tail) := by
  rw [trim_eq_self_iff]
  constructor
  · rintro _ ⟨⟩
    exact not_blank_digitChar _
  · have hLast : (d.textAt (timeText width hour minute tail)).getLast? = tail.getLast?.or (some (digitChar minute)) := by
      simp [Day.textAt, timeText, padded, List.getLast?_append, List.getLast?_cons]
    rw [hLast]
    cases hEnd : tail.getLast? with
    | none =>
      rintro _ ⟨⟩
      exact not_blank_digitChar _
    | some c =>
      rintro _ ⟨⟩
      exact (Option.any_eq_false _ _).mp hTail c hEnd

theorem hideDigits_padded (w n : Nat) : hideDigits (padded w n) = List.replicate w '0' := by
  induction w generalizing n with
  | zero => rfl
  | succ w ih =>
    have hLast : mask asciiDigits '0' (digitChar n) = '0' :=
      forall_digitChar (p := fun _ c => mask asciiDigits '0' c = '0') (by decide) n
    unfold hideDigits at ih ⊢
    rw [padded, List.map_append, ih, List.map_singleton, hLast, List.replicate_succ']

theorem hideDigits_textAt (hTail : hideDigits tail = tail) :
    hideDigits (d.textAt (timeText width hour minute tail)) = form width tail := by
  have hDash : mask asciiDigits '0' '-' = '-' := by decide
  have hColon : mask asciiDigits '0' ':' = ':' := by decide
  have hAt : hideDigits " at ".toList = " at ".toList := by decide
  simp only [Day.textAt, Day.text, timeText, form, hideDigits_append, hideDigits_cons, hideDigits_padded, hDash, hColon,
    hAt, hTail]

theorem parse_textAt {shown : Fin 24} {stop : Nat} {kind : PhraseKind} {meridiem : Bool}
    {twelve atHour full : List Outline} {hs hs' hs'' : List Hit} (hSpells : ∀ c ∈ tail, Spells c c)
    (hEnd : tail.getLast?.any blank = false)
    (hHidden : hideDigits tail = tail) (hFound : outlines (form width tail) = foundIn twelve atHour full)
    (hTwelve : twelveHourRule.hitsAt (d.textAt (timeText width shown minute tail)) now twelve = .ok hs)
    (hAtHour : atHourRule.hitsAt (d.textAt (timeText width shown minute tail)) now atHour = .ok hs')
    (hFull : twentyFourHourRule.hitsAt (d.textAt (timeText width shown minute tail)) now full = .ok hs'')
    (hKept : select (dayHitAt d :: (hs ++ hs' ++ hs'')) =
      [dayHitAt d, clockHitAt kind 11 stop (.atMinute hour minute) meridiem])
    (hCut : cut (d.textAt (timeText width shown minute tail)) [(0, 10), (11, stop)] = [' ', ' ', ' ']) :
    parse (d.textAt (timeText width shown minute tail)) now true = .ok (some (.on d (.atMinute hour minute))) := by
  have hHits := allHits_of_foundIn ((congrArg outlines (hideDigits_textAt hHidden)).trans hFound) (day_found d _) hTwelve
    hAtHour hFull
  refine parse_of_allHits ⟨lower_textAt hSpells, trim_textAt hEnd, ?_⟩ hHits hKept fun _ => ?_
  · exact fun h => absurd (congrArg List.length h) (by simp [Day.textAt])
  · exact (congrArg fillerOnly hCut).trans (by decide)

theorem select_full (d : Day) (clock : Clock) :
    select [dayHitAt d, clockHitAt .atHour 11 19 clock false, clockHitAt .twentyFourHour 14 19 clock false] =
      [dayHitAt d, clockHitAt .atHour 11 19 clock false] := by
  simp [select, List.mergeSort, preferred, Hit.length, dayHitAt, clockHitAt, keepDisjoint, Hit.disjoint]

theorem parse_full :
    parse (d.textAt (timeText 2 hour minute [])) now true = .ok (some (.on d (.atMinute hour minute))) := by
  have hMinute (o : Outline) (h : (o.fill (d.textAt (timeText 2 hour minute []))).text 2 = padded 2 minute) :=
    numeralOf_of_text h (by omega)
  have hFits : hour.val < 10 ^ 2 := by omega
  exact parse_textAt (by simp) rfl rfl outlines_full rfl
    (atHour_found rfl hFits (hMinute _ rfl)) (twentyFourHour_found rfl hFits (hMinute _ rfl)) (select_full d _) rfl

theorem select_dial (d : Day) (clock clock' : Clock) : ∀ width ∈ [1, 2],
    select [dayHitAt d, clockHitAt .twelveHour 11 (19 + width) clock true,
        clockHitAt .atHour 11 (14 + width) clock' false] =
      [dayHitAt d, clockHitAt .twelveHour 11 (19 + width) clock true] := by
  rw [List.forall_mem_cons, List.forall_mem_singleton]
  constructor <;> simp [select, List.mergeSort, preferred, Hit.length, dayHitAt, clockHitAt, keepDisjoint, Hit.disjoint]

theorem select_dial_spaced (d : Day) (clock clock' clock'' : Clock) : ∀ width ∈ [1, 2],
    select [dayHitAt d, clockHitAt .twelveHour 11 (20 + width) clock true,
        clockHitAt .atHour 11 (14 + width) clock' false, clockHitAt .twentyFourHour 14 (17 + width) clock'' false] =
      [dayHitAt d, clockHitAt .twelveHour 11 (20 + width) clock true] := by
  rw [List.forall_mem_cons, List.forall_mem_singleton]
  constructor <;> simp [select, List.mergeSort, preferred, Hit.length, dayHitAt, clockHitAt, keepDisjoint, Hit.disjoint]

theorem tail_dial : ∀ spaced, ∀ half ∈ [['a', 'm'], ['p', 'm']],
    (gapOf spaced ++ half).all (fun c => c.toNat < 65 || (90 < c.toNat && c.toNat < 128)) = true ∧
      (gapOf spaced ++ half).getLast?.any blank = false ∧
        hideDigits (gapOf spaced ++ half) = gapOf spaced ++ half := by
  decide

theorem parse_dial {half : List Char} (hHalf : halfName hour = half)
    (hWidth : width = 1 ∧ dialHour hour < 10 ∨ width = 2) (spaced : Bool) :
    parse (d.textAt (timeText width (dialHour hour) minute (gapOf spaced ++ half))) now true =
      .ok (some (.on d (.atMinute hour minute))) := by
  have hMem : half ∈ [['a', 'm'], ['p', 'm']] := by
    rw [← hHalf, halfName]
    split <;> simp
  obtain ⟨hAscii, hEnd, hHidden⟩ := tail_dial spaced half hMem
  have hSpells : ∀ c ∈ gapOf spaced ++ half, Spells c c := spells_of_all hAscii
  have hWidths : width ∈ [1, 2] := by
    rcases hWidth with ⟨rfl, -⟩ | rfl <;> simp
  have hFound := outlines_dial width hWidths spaced half hMem
  have hFits : (dialHour hour).val < 10 ^ width := by
    rcases hWidth with ⟨rfl, hShort⟩ | rfl
    · exact hShort
    · omega
  have hMinute (o : Outline)
      (h : (o.fill (d.textAt (timeText width (dialHour hour) minute (gapOf spaced ++ half)))).text 2 = padded 2 minute) :=
    numeralOf_of_text h (by omega)
  obtain ⟨c, rfl⟩ : ∃ c, half = [c, 'm'] := by
    rw [← hHalf, halfName]
    split <;> exact ⟨_, rfl⟩
  cases spaced with
  | false =>
    rcases hWidth with ⟨rfl, -⟩ | rfl <;>
      exact parse_textAt hSpells hEnd hHidden hFound (twelveHour_found rfl hFits (hMinute _ rfl) hHalf.symm)
        (sharp_found rfl hFits rfl) rfl (select_dial d _ _ _ hWidths) rfl
  | true =>
    rcases hWidth with ⟨rfl, -⟩ | rfl <;>
      exact parse_textAt hSpells hEnd hHidden hFound (twelveHour_found rfl hFits (hMinute _ rfl) hHalf.symm)
        (sharp_found rfl hFits rfl) (twentyFourHour_found rfl hFits (hMinute _ rfl))
        (select_dial_spaced d _ _ _ _ hWidths) rfl

theorem ofNat_eq_padded : ∀ hour : Fin 24, ofNat hour = padded (if hour < 10 then 1 else 2) hour := by
  decide

theorem dialText_eq (zero spaced : Bool) :
    dialText hour minute zero spaced =
      timeText (if zero = false ∧ dialHour hour < 10 then 1 else 2) (dialHour hour) minute
        (gapOf spaced ++ halfName hour) := by
  unfold dialText timeText gapOf
  rw [ofNat_eq_padded]
  cases zero <;> simp

theorem hourMinute_atMinute (hour : Fin 24) (minute : Fin 60) :
    (Clock.atMinute hour minute).hourMinute = timeText 2 hour minute [] := by
  have hHour : (Clock.atMinute hour minute).hour = hour := by
    dsimp only [Clock.hour, Clock.atMinute]
    omega
  have hMinute : (Clock.atMinute hour minute).minute = minute := by
    dsimp only [Clock.minute, Clock.atMinute]
    omega
  rw [Clock.hourMinute, hHour, hMinute, timeText, List.append_nil]
  rfl

/-- A written date and time of day, on the full clock or on a dial, are read back at whatever moment. -/
theorem parse_written (d : Day) (hour : Fin 24) (minute : Fin 60) (now : Moment) :
    parse (d.textAt (Clock.atMinute hour minute).hourMinute) now true = .ok (some (.on d (.atMinute hour minute))) ∧
      ∀ zero spaced, parse (d.textAt (dialText hour minute zero spaced)) now true =
        .ok (some (.on d (.atMinute hour minute))) := by
  constructor
  · rw [hourMinute_atMinute]
    exact parse_full
  · intro zero spaced
    rw [dialText_eq]
    apply parse_dial rfl
    split
    · next h => exact .inl ⟨rfl, h.2⟩
    · exact .inr rfl

end When

end Agenda
