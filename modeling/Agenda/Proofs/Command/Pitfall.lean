import Agenda.Proofs.Command.Lookup
import Agenda.Proofs.When.Reach

/-! # Lines that a rule accepts but cannot read

A rule that looks a captured word up fails on a word with a stray letter, and a rule that reads a
numeral fails on one that is too long. No other rule can fail, unless the calendar ends within a
week. So a text makes a command unless the first rule that would accept it stumbles.
-/

namespace Agenda.Command

open Pattern Text

variable {line text : List Char} {now : Moment} {m : Match} {n : Nat} {α : Type} {f : Fault}
variable {p : Pattern} {words : List String}

/-! ## Where rules stumble -/

/-- The captured numeral has more digits than are read. -/
def Overlong (n : Nat) (m : Match) : Prop :=
  numeralLimit < (m.text n).length

/-- A rule, the matches that it accepts and cannot read, and how it fails on them. -/
structure Pitfall where
  rule : GrammarRule
  hard : Match → Prop
  fault : Fault

def pitfalls : List Pitfall :=
  [⟨priorityRule, Stray 3, .invalid [["priority"]]⟩,
    ⟨snoozeRule, Overlong 3, .numeralTooLong⟩,
    ⟨repeatWeeklyRule, Stray 1, .unlistedName⟩,
    ⟨remindRelativeRule, Overlong 1, .numeralTooLong⟩,
    ⟨sortRule, Stray 1, .missingKey⟩,
    ⟨summarizeRule, Stray 1, .invalid [["period"]]⟩]

theorem numeralOf_eq_error : numeralOf m n = .error f ↔ Overlong n m ∧ .numeralTooLong = f := by
  unfold numeralOf numeral? Overlong
  by_cases hRead : (m.text n).length ≤ numeralLimit
  · simp [hRead]
  · simp [hRead, Nat.lt_of_not_le hRead]

/-- The rule fails on its hard matches and on no other. -/
def Pitfall.Exact (t : Pitfall) : Prop :=
  ∀ line m now f, Squeezed line → t.rule.pattern.matchStart line = some m →
    (t.rule.build m now = .error f ↔ t.hard m ∧ t.fault = f)

theorem exact_of_lookup {r : GrammarRule} {find : List Char → Option α} {fault : Fault}
    (hFinds : Finds find words) (hNames : Names p words)
    (hBinds : r.pattern.binds n = true) (hParts : r.pattern.parts n = [p])
    (hBuild : ∀ m now f, r.build m now = .error f ↔ find (lowered m n) = none ∧ fault = f) :
    Pitfall.Exact ⟨r, Stray n, fault⟩ := by
  intro line m now f hLine hMatch
  dsimp only
  rw [hBuild, find_lowered_eq_none_iff hFinds hNames hBinds hParts hLine hMatch]

theorem exact_of_numeral {r : GrammarRule} {make : Match → Int → Command}
    (hBuild : ∀ m now, r.build m now = (do return some (make m (← numeralOf m n)))) :
    Pitfall.Exact ⟨r, Overlong n, .numeralTooLong⟩ := by
  intro line m now f _ _
  dsimp only
  rw [hBuild, Attempt.bind_eq_error, numeralOf_eq_error]
  constructor
  · rintro (h | ⟨_, _, ⟨⟩⟩)
    exact h
  · exact .inl

theorem exact_priority : Pitfall.Exact ⟨priorityRule, Stray 3, .invalid [["priority"]]⟩ := by
  refine exact_of_lookup finds_priority (names_keywords (by decide)) rfl rfl fun m now f => ?_
  dsimp only [priorityRule]
  cases Priority.ofName? _ <;> simp

theorem exact_weekly : Pitfall.Exact ⟨repeatWeeklyRule, Stray 1, .unlistedName⟩ := by
  refine exact_of_lookup finds_weekday (names_keywords (by decide)) rfl rfl fun m now f => ?_
  dsimp only [repeatWeeklyRule]
  cases weekdayNamed? _ <;> simp

theorem exact_sort : Pitfall.Exact ⟨sortRule, Stray 1, .missingKey⟩ := by
  refine exact_of_lookup finds_sortWord names_sortWord rfl rfl fun m now f => ?_
  dsimp only [sortRule]
  cases sortWords.lookup _ <;> simp

theorem exact_summarize : Pitfall.Exact ⟨summarizeRule, Stray 1, .invalid [["period"]]⟩ := by
  refine exact_of_lookup finds_period names_period rfl rfl fun m now f => ?_
  dsimp only [summarizeRule, periodOf]
  split <;> rename_i hFind <;> simp [hFind]

theorem exact_of_mem_pitfalls : ∀ t ∈ pitfalls, t.Exact := by
  simp only [pitfalls, List.forall_mem_cons]
  exact ⟨exact_priority, exact_of_numeral fun _ _ => rfl, exact_weekly, exact_of_numeral fun _ _ => rfl,
    exact_sort, exact_summarize, fun _ h => absurd h List.not_mem_nil⟩

/-! ## Rules that cannot fail -/

def Safe (r : GrammarRule) (now : Moment) : Prop :=
  ∀ m, ∃ c, r.build m now = .ok c

theorem exists_tomorrow (hNow : now.day.number + 7 ≤ 3652058) : ∃ e, now.day.plus 1 = .ok e := by
  have hStart := now.day.inRange
  exact Day.exists_plus_iff.mpr (by omega)

theorem exists_resolveDue (hNow : now.day.number + 7 ≤ 3652058) (spec : List Char) :
    ∃ due, resolveDue spec now = .ok due := by
  unfold resolveDue
  dsimp only
  split
  · exact ⟨_, rfl⟩
  · split
    · obtain ⟨e, he⟩ := exists_tomorrow hNow
      exact ⟨_, Attempt.map_eq_ok.mpr ⟨e, he, rfl⟩⟩
    · split
      · split
        · obtain ⟨e, he⟩ := Day.exists_nextWeekday hNow _ true
          exact ⟨_, Attempt.map_eq_ok.mpr ⟨e, he, rfl⟩⟩
        · exact ⟨_, rfl⟩
      · exact ⟨_, rfl⟩

theorem safe_due (hNow : now.day.number + 7 ≤ 3652058) : Safe dueRule now := by
  intro m
  obtain ⟨due, hDue⟩ := exists_resolveDue hNow (squeeze (lowered m 1))
  simp only [dueRule]
  rw [hDue]
  exact ⟨_, rfl⟩

theorem safe_remindAbsolute (hNow : now.day.number + 7 ≤ 3652058) : Safe remindAbsoluteRule now := by
  intro m
  obtain ⟨tomorrow, hTomorrow⟩ := exists_tomorrow hNow
  obtain ⟨clock, hClock⟩ := When.exists_clockFromParts (Text.numeral (m.text 3)) (Text.numeral (m.text 4))
    (if m.has 5 then some (lowered m 5) else none)
  simp only [remindAbsoluteRule]
  rw [hClock, hTomorrow]
  cases clock with
  | none => exact ⟨_, rfl⟩
  | some clock =>
    simp only [Attempt.ok_bind]
    split <;> exact ⟨_, rfl⟩

theorem safe_or_pitfall (hNow : now.day.number + 7 ≤ 3652058) :
    ∀ r ∈ grammar, Safe r now ∨ r ∈ pitfalls.map (·.rule) := by
  simp only [grammar, List.forall_mem_cons]
  and_intros
  -- the calendar bounds the rules that name a day; all but the pitfalls are built without a look-up
  all_goals first
    | (right; simp [pitfalls]; done)
    | with_reducible exact .inl (safe_due hNow)
    | with_reducible exact .inl (safe_remindAbsolute hNow)
    | exact .inl fun _ => ⟨_, rfl⟩
    | exact fun _ h => absurd h List.not_mem_nil

/-! ## Rules in order -/

theorem firstOf_eq_error {rules : List GrammarRule} : firstOf line now rules = .error f ↔
    ∃ before r after, rules = before ++ r :: after ∧ (∀ e ∈ before, e.apply line now = .ok none) ∧
      r.apply line now = .error f := by
  induction rules with
  | nil =>
    constructor
    · rintro ⟨⟩
    · rintro ⟨before, r, after, hRules, _⟩
      cases before <;> cases hRules
  | cons r rs ih =>
    rw [firstOf, Attempt.bind_eq_error]
    constructor
    · rintro (hFails | ⟨none | c, hr, hRest⟩)
      · exact ⟨[], r, rs, rfl, fun _ h => absurd h List.not_mem_nil, hFails⟩
      · obtain ⟨before, s, after, rfl, hBefore, hs⟩ := ih.mp hRest
        exact ⟨r :: before, s, after, rfl, List.forall_mem_cons.mpr ⟨hr, hBefore⟩, hs⟩
      · cases hRest
    · rintro ⟨before, s, after, hRules, hBefore, hs⟩
      cases before with
      | nil =>
        cases hRules
        exact .inl hs
      | cons e before =>
        cases hRules
        obtain ⟨he, hBefore⟩ := List.forall_mem_cons.mp hBefore
        exact .inr ⟨none, he, ih.mpr ⟨before, s, after, rfl, hBefore, hs⟩⟩

theorem firstOf_eq_none {rules : List GrammarRule} (h : ∀ r ∈ rules, r.apply line now = .ok none) :
    firstOf line now rules = .ok none := by
  induction rules with
  | nil => rfl
  | cons r rs ih =>
    obtain ⟨hr, hrs⟩ := List.forall_mem_cons.mp h
    rw [firstOf, hr]
    exact ih hrs

theorem apply_eq_error {r : GrammarRule} :
    r.apply line now = .error f ↔ ∃ m, r.pattern.matchStart line = some m ∧ r.build m now = .error f := by
  unfold GrammarRule.apply
  cases r.pattern.matchStart line <;> simp

/-- The first rule that does not turn the line down accepts it and cannot read it. -/
def Stumbles (line : List Char) (now : Moment) (f : Fault) : Prop :=
  ∃ before t after m, t ∈ pitfalls ∧ grammar = before ++ t.rule :: after ∧
    (∀ r ∈ before, r.apply line now = .ok none) ∧
      t.rule.pattern.matchStart line = some m ∧ t.hard m ∧ t.fault = f

theorem parse_eq_error (hNow : now.day.number + 7 ≤ 3652058) :
    parse text now = .error f ↔ Stumbles (squeeze (trim text)) now f := by
  have hLine := squeezed_squeeze (trim text)
  have hFirst : parse text now = .error f ↔ firstOf (squeeze (trim text)) now grammar = .error f := by
    rw [parse, Attempt.bind_eq_error]
    constructor
    · rintro (h | ⟨none | c, _, ⟨⟩⟩)
      exact h
    · exact .inl
  rw [hFirst, firstOf_eq_error]
  constructor
  · -- the rule that fails cannot be a safe one
    rintro ⟨before, r, after, hGrammar, hBefore, hr⟩
    obtain ⟨m, hMatch, hBuild⟩ := apply_eq_error.mp hr
    have hMem : r ∈ grammar := hGrammar ▸ List.mem_append_cons_self
    rcases safe_or_pitfall hNow r hMem with hSafe | hPitfall
    · obtain ⟨c, hc⟩ := hSafe m
      rw [hc] at hBuild
      cases hBuild
    · obtain ⟨t, ht, rfl⟩ := List.mem_map.mp hPitfall
      have hHard := (exact_of_mem_pitfalls t ht _ m now f hLine hMatch).mp hBuild
      exact ⟨before, t, after, m, ht, hGrammar, hBefore, hMatch, hHard⟩
  · rintro ⟨before, t, after, m, ht, hGrammar, hBefore, hMatch, hHard⟩
    have hBuild := (exact_of_mem_pitfalls t ht _ m now f hLine hMatch).mpr hHard
    exact ⟨before, t.rule, after, hGrammar, hBefore, apply_eq_error.mpr ⟨m, hMatch, hBuild⟩⟩

/-! ## Texts -/

/-- A text makes a command unless the first rule that would accept its line stumbles; one that no
rule accepts makes a command of unknown kind, in which nothing is trusted. -/
theorem parse_cases (text : List Char) (hNow : now.day.number + 7 ≤ Moment.latest.day.number) :
    (∀ f, parse text now = .error f ↔ Stumbles (squeeze (trim text)) now f) ∧
      ((∀ r ∈ grammar, r.apply (squeeze (trim text)) now = .ok none) →
        parse text now = .ok
          { kind := .unknown, confidence := .zero, taskText := some (String.ofList (squeeze (trim text))) }) := by
  constructor
  · intro f
    exact parse_eq_error hNow
  · intro hDeclined
    rw [parse, firstOf_eq_none hDeclined]
    rfl

theorem stumbles_sort_dotless :
    Stumbles (squeeze (trim "sort by prıority".toList)) (.on ⟨739037, by decide⟩ .noon) .missingKey := by
  refine ((parse_cases "sort by prıority".toList ?_).1 _).mp ?_
  · decide
  · rfl

theorem parse_dotless_fails : Moment.isLocal (.on ⟨739037, by decide⟩ .noon) = true ∧
    (Moment.on ⟨739037, by decide⟩ .noon).day.number + 366 ≤ Moment.latest.day.number ∧
      parse "priority x hıgh".toList (.on ⟨739037, by decide⟩ .noon) = .error (.invalid [["priority"]]) := by
  refine ⟨?_, ?_, ?_⟩
  · decide
  · decide
  · rfl

theorem reads_of_mem_pitfalls : ∀ t ∈ pitfalls, ∃ n, t.rule.pattern.binds n = true ∧
    ∀ m, t.hard m → Stray n m ∨ Overlong n m := by
  simp only [pitfalls, List.forall_mem_cons]
  exact ⟨⟨3, rfl, fun _ => .inl⟩, ⟨3, rfl, fun _ => .inr⟩, ⟨1, rfl, fun _ => .inl⟩, ⟨1, rfl, fun _ => .inr⟩,
    ⟨1, rfl, fun _ => .inl⟩, ⟨1, rfl, fun _ => .inl⟩, fun _ h => absurd h List.not_mem_nil⟩

/-- A text without stray letters that is no longer than a numeral may be always makes a command. -/
theorem exists_parse (hNow : now.day.number + 7 ≤ Moment.latest.day.number)
    (hPlain : ∀ c ∈ text, strayLetter c = false) (hShort : text.length ≤ numeralLimit) :
    ∃ c, parse text now = .ok c := by
  cases hParse : parse text now with
  | ok c => exact ⟨c, rfl⟩
  | error f =>
    obtain ⟨_, t, _, m, ht, _, _, hMatch, hHard, _⟩ := (parse_eq_error hNow).mp hParse
    obtain ⟨n, hBinds, hReads⟩ := reads_of_mem_pitfalls t ht
    have hPart := (takes_of_matchStart hMatch hBinds).1
    have hTrim := trim_sublist text
    rcases hReads m hHard with ⟨c, hc, hStray⟩ | hLong
    · rcases mem_of_mem_squeezeFrom (hPart.subset hc) with hc | rfl
      · rw [hPlain c (hTrim.subset hc)] at hStray
        cases hStray
      · cases hStray
    · have hLine := length_squeezeFrom_le [] (trim text)
      have hText := hPart.length_le
      have hTrimmed := hTrim.length_le
      unfold Overlong at hLong
      unfold squeeze at hText
      simp only [List.length_nil] at hLine
      omega

end Agenda.Command
