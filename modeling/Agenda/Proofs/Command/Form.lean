import Agenda.Proofs.Command.Opening
import Agenda.Proofs.Command.Target

/-! # The forms of a command

The commands that name tasks by a phrase, as the words they are typed in and what is meant by them.
The other words of such a command are a day, a priority, a tag, or a number and a unit of time.
-/

namespace Agenda.Command

open Pattern Text

/-- The verbs that need nothing but the tasks. -/
def searchVerbs : List (String × CommandKind) :=
  [("tick", .tick), ("complete", .tick), ("delete", .delete), ("remove", .delete), ("archive", .archive)]

/-- Another rule for the verb comes first and takes the phrase. -/
def Claimed (kind : CommandKind) (s : List Char) : Prop :=
  match kind with
  | .tick => Opens "subtask" s
  | .archive => SameWord "completed" s
  | _ => False

def unitWords : List (String × SnoozeUnit) :=
  [("day", .days), ("days", .days), ("week", .weeks), ("weeks", .weeks), ("month", .months), ("months", .months)]

/-- The words for a day, their normal form, and the day. -/
inductive DayNamed (today : Day) : List (List Char) → String → Day → Prop
  | today {w : List Char} (hWord : Spelt "today" w) : DayNamed today [w] "today" today
  | tomorrow {w : List Char} {day : Day} (hWord : Spelt "tomorrow" w) (hDay : day.number = today.number + 1) :
      DayNamed today [w] "tomorrow" day
  | next {n w : List Char} {name : String} {i : Nat} {day : Day} (hNext : Spelt "next" n)
      (hName : weekdayNames[i]? = some name) (hWord : Spelt name w) (hWeekday : day.weekday = i)
      (hDay : today.number < day.number ∧ day.number ≤ today.number + 7) :
      DayNamed today [n, w] ("next " ++ name) day

/-- The parts of a line and the command that they are. -/
inductive Form (now : Moment) : List (List Char) → Command → Prop
  | search {verb : String} {kind : CommandKind} {v s : List Char} {names : List (List Char)} {all : Bool}
      (hVerb : (verb, kind) ∈ searchVerbs) (hWord : Spelt verb v) (hTarget : Target names s all)
      (hFree : all = false → ¬ Claimed kind s) :
      Form now (v :: names) { kind, search := some (String.ofList s), allMatches := all }
  | tag {v s a w : List Char} {names : List (List Char)} {all : Bool} (hVerb : Spelt "tag" v)
      (hTarget : Target names s all) (hAs : Spelt "as" a) (hSome : w ≠ []) (hWord : ∀ c ∈ w, wordChar c = true) :
      Form now (v :: names ++ [a, w])
        { kind := .tag, search := some (String.ofList s), allMatches := all, tag := some (String.ofList (lower w)) }
  | priority {v s w : List Char} {names : List (List Char)} {all : Bool} {p : Priority} (hVerb : Spelt "priority" v)
      (hTarget : Target names s all) (hWord : Spelt p.name w) :
      Form now (v :: names ++ [w])
        { kind := .priority, search := some (String.ofList s), allMatches := all, priority := some p }
  | due {v s : List Char} {days names : List (List Char)} {all : Bool} {spec : String} {day : Day} (hVerb : Spelt "due" v)
      (hDay : DayNamed now.day days spec day) (hTarget : Target names s all) :
      Form now (v :: days ++ names)
        { kind := .due, dueSpec := some spec, due := some (.endOfDay day), search := some (String.ofList s)
          allMatches := all }
  | snooze {v s n u : List Char} {names : List (List Char)} {all : Bool} {word : String} {unit : SnoozeUnit}
      (hVerb : Spelt "snooze" v) (hTarget : Target names s all) (hSome : n ≠ []) (hDigits : ∀ c ∈ n, isDigit c = true)
      (hLength : n.length ≤ 4300) (hUnit : (word, unit) ∈ unitWords) (hWord : Spelt word u) :
      Form now (v :: names ++ [n, u])
        { kind := .snooze, search := some (String.ofList s), allMatches := all
          snoozeAmount := some (numeral n), snoozeUnit := some unit }

/-! ## Words for a day -/

variable {today day : Day} {days : List (List Char)} {d cs r rest : List Char} {spec : String} {word : String} {u : List Char}

def dayPattern : Pattern :=
  anyOf [keyword "today", keyword "tomorrow", keyword "next" ++ blanks ++ weekdayKeyword]

/-- One word, or the word `next` and another one behind a space. -/
theorem day_cases (hTakes : dayPattern.Takes d) (hLine : Squeezed d) :
    (Unbroken d ∧ 5 ≤ d.length) ∨
      ∃ n w, d = n ++ ' ' :: w ∧ (Unbroken n ∧ n.length = 4) ∧ Unbroken w := by
  have hWord {word : String} (hPlain : Plain word) (hLength : 5 ≤ word.toList.length) (h : (keyword word).Takes d) :
      Unbroken d ∧ 5 ≤ d.length :=
    ⟨unbroken_of_keyword hPlain d h, (takes_keyword.mp h).length_eq ▸ hLength⟩
  rcases hTakes with h | h | ⟨_, w, rfl, ⟨n, bs, rfl, hn, hBlank, hSome⟩, hw⟩
  · exact .inl (hWord (by decide) (by decide) h)
  · exact .inl (hWord (by decide) (by decide) h)
  · rw [List.append_assoc] at hLine
    obtain rfl := hLine.one_space hBlank (List.ne_nil_of_length_pos hSome)
    refine .inr ⟨n, w, by simp, ⟨unbroken_of_keyword (by decide) n hn, ?_⟩, unbroken_of_keywords (by decide) w hw⟩
    exact (takes_keyword.mp hn).length_eq.symm

theorem day_unique (hTakes : dayPattern.Takes d) (hOther : dayPattern.Takes cs) (hLine : Squeezed (d ++ ' ' :: rest))
    (h : d ++ ' ' :: rest = cs ++ ' ' :: r) : cs = d := by
  have hd : Squeezed d := hLine.of_part ⟨[], ' ' :: rest, by simp⟩
  have hcs : Squeezed cs := (h ▸ hLine).of_part ⟨[], ' ' :: r, by simp⟩
  rcases day_cases hTakes hd with ⟨hd, hLong⟩ | ⟨n, w, rfl, ⟨hn, hShort⟩, hw⟩ <;>
    rcases day_cases hOther hcs with ⟨hcs, hLong'⟩ | ⟨n', w', rfl, ⟨hn', hShort'⟩, hw'⟩
  · exact (front_unique hd hcs h).1.symm
  · -- the word `next` is shorter than the names of the other days
    rw [List.append_assoc] at h
    obtain ⟨rfl, _⟩ := front_unique hd hn' h
    omega
  · rw [List.append_assoc] at h
    obtain ⟨rfl, _⟩ := front_unique hn hcs h
    omega
  · rw [List.append_assoc, List.append_assoc] at h
    obtain ⟨rfl, hRest⟩ := front_unique hn hn' h
    obtain ⟨rfl, _⟩ := front_unique hw hw' hRest
    rfl

theorem front_day (hTakes : dayPattern.Takes d) (hLine : Squeezed (d ++ ' ' :: rest)) :
    Front [capture 1 dayPattern, blanks] (d ++ [' ']) rest [(1, d)] where
  yields := by
    refine ⟨d, [' '], [(1, d)], [], rfl, ⟨[], (yields_iff_of_bare rfl).mpr ⟨hTakes, rfl⟩, rfl⟩, ?_, rfl⟩
    exact ⟨[' '], [], [], [], rfl, yields_space, ⟨rfl, rfl⟩, rfl⟩
  unique := by
    rintro _ r _ hSplit ⟨cs, _, _, _, rfl, ⟨_, hcs, rfl⟩, ⟨bs, _, _, _, rfl, hBlanks, ⟨rfl, rfl⟩, rfl⟩, rfl⟩
    obtain ⟨hOther, rfl⟩ := (yields_iff_of_bare rfl).mp hcs
    obtain ⟨hBlank, hSome, rfl⟩ := yields_blanks.mp hBlanks
    simp only [List.append_assoc, List.singleton_append, List.append_nil] at hSplit ⊢
    have hLine' := hLine
    rw [hSplit] at hLine'
    obtain rfl := hLine'.one_space hBlank hSome
    obtain rfl := day_unique hTakes hOther hLine hSplit
    exact ⟨rfl, rfl⟩

theorem nextWeekday_eq {i : Int} (hWeekday : day.weekday = i)
    (hDay : today.number < day.number ∧ day.number ≤ today.number + 7) : today.nextWeekday i true = .ok day := by
  unfold Day.weekday at hWeekday
  apply Day.plus_eq_ok.mpr
  unfold Day.weekday
  rw [Bool.true_and]
  split <;> rename_i hSame <;> rw [decide_eq_true_eq] at hSame <;> omega

theorem resolveDue_next (now : Moment) : ∀ e ∈ weekdayNames.zipIdx, resolveDue ("next " ++ e.1).toList now =
    (now.day.nextWeekday e.2 true).map fun d => some (.endOfDay d) := by
  simp only [weekdayNames, List.zipIdx_cons, List.zipIdx_nil, List.forall_mem_cons]
  exact ⟨rfl, rfl, rfl, rfl, rfl, rfl, rfl, fun _ h => absurd h List.not_mem_nil⟩

theorem resolveDue_eq {now : Moment} (h : DayNamed now.day days spec day) :
    resolveDue spec.toList now = .ok (some (.endOfDay day)) := by
  cases h with
  | today _ => rfl
  | tomorrow _ hDay =>
    have hPlus : now.day.plus 1 = .ok day := Day.plus_eq_ok.mpr hDay
    have hResolve : resolveDue "tomorrow".toList now = (now.day.plus 1).map fun d => some (.endOfDay d) := rfl
    rw [hResolve, hPlus]
    rfl
  | @next _ _ name i _ _ hName _ hWeekday hDay =>
    rw [resolveDue_next now (name, i) (List.mem_zipIdx_iff_getElem?.mpr hName), nextWeekday_eq hWeekday hDay]
    rfl

theorem takes_day (h : DayNamed today days spec day) (hDays : days.flatMap (' ' :: ·) = ' ' :: d) :
    dayPattern.Takes d ∧ squeeze (lower d) = spec.toList := by
  cases h with
  | today hWord =>
    obtain rfl : _ = d := by simpa using hDays
    refine ⟨.inl (takes_keyword.mpr (hWord.same (by decide))), ?_⟩
    rw [hWord.lower (by decide)]
    decide
  | tomorrow hWord _ =>
    obtain rfl : _ = d := by simpa using hDays
    refine ⟨.inr (.inl (takes_keyword.mpr (hWord.same (by decide)))), ?_⟩
    rw [hWord.lower (by decide)]
    decide
  | @next n w name i day hNext hName hWord _ _ =>
    obtain rfl : n ++ ' ' :: w = d := by simpa using hDays
    have hMem : name ∈ weekdayNames := List.mem_of_getElem? hName
    have hNames : ∀ w ∈ weekdayNames, Plain w ∧ squeeze ("next " ++ w).toList = ("next " ++ w).toList := by decide
    obtain ⟨hPlain, hSqueeze⟩ := hNames name hMem
    have hSpells : List.Forall₂ Spells ("next".toList ++ ' ' :: name.toList) (n ++ ' ' :: w) :=
      List.rel_append (hNext.spells (by decide)) (.cons ⟨by decide, by decide⟩ (hWord.spells hPlain))
    constructor
    · refine .inr (.inr ⟨n ++ [' '], w, by simp, ⟨n, [' '], rfl, takes_keyword.mpr (hNext.same (by decide)), ?_⟩, ?_⟩)
      · exact ⟨List.forall_mem_singleton.mpr (by decide), by decide⟩
      · exact takes_keywords.mpr ⟨name, hMem, hWord.same hPlain⟩
    · have hLower : lower (n ++ ' ' :: w) = ("next " ++ name).toList := by
        rw [lower_of_spells hSpells, String.toList_append]
        rfl
      rw [hLower, hSqueeze]

/-! ## Units of time -/

def unitPattern : Pattern :=
  anyOf (["day", "week", "month"].map fun w => keyword w ++ opt (keyword "s"))

theorem takes_plural (h : SameWord word u ∨ SameWord (word ++ "s") u) : (keyword word ++ opt (keyword "s")).Takes u := by
  rw [takes_append_opt]
  rcases h with h | h
  · exact .inr (takes_keyword.mpr h)
  · unfold SameWord at h
    rw [String.toList_append] at h
    have hFront := List.forall₂_take word.toList.length h
    have hBack := List.forall₂_drop word.toList.length h
    rw [List.take_left] at hFront
    rw [List.drop_left] at hBack
    exact .inl ⟨_, _, (List.take_append_drop word.toList.length u).symm, takes_keyword.mpr hFront, takes_keyword.mpr hBack⟩

variable {unit : SnoozeUnit}

theorem takes_unit (hUnit : (word, unit) ∈ unitWords) (hWord : Spelt word u) : unitPattern.Takes u := by
  have hWords : ∀ e ∈ unitWords, Plain e.1 ∧ ∃ w ∈ ["day", "week", "month"], e.1 = w ∨ e.1 = w ++ "s" := by decide
  obtain ⟨hPlain, w, hw, hSame⟩ := hWords _ hUnit
  have hTyped := hWord.same hPlain
  refine takes_anyOf.mpr ⟨_, List.mem_map_of_mem hw, takes_plural ?_⟩
  rcases hSame with rfl | rfl
  · exact .inl hTyped
  · exact .inr hTyped

theorem unbroken_of_unit (u : List Char) (h : unitPattern.Takes u) : Unbroken u := by
  obtain ⟨_, hMem, hTakes⟩ := takes_anyOf.mp h
  obtain ⟨w, hw, rfl⟩ := List.mem_map.mp hMem
  have hPlain : ∀ w ∈ ["day", "week", "month"], Plain w := by decide
  obtain ⟨l, r, rfl, hl, hr⟩ := hTakes
  refine List.forall_mem_append.mpr ⟨unbroken_of_keyword (hPlain w hw) l hl, ?_⟩
  rcases hr with hr | rfl
  · exact unbroken_of_keyword (by decide) r hr
  · exact fun _ hc => absurd hc List.not_mem_nil

theorem snoozeUnitOf_lower (hUnit : (word, unit) ∈ unitWords) (hWord : Spelt word u) : snoozeUnitOf (lower u) = unit := by
  have hWords : ∀ e ∈ unitWords, Plain e.1 ∧ snoozeUnitOf e.1.toList = e.2 := by decide
  obtain ⟨hPlain, hRead⟩ := hWords _ hUnit
  rw [hWord.lower hPlain]
  exact hRead

theorem unbroken_of_digits {n : List Char} (h : ∀ c ∈ n, isDigit c = true) : Unbroken n := by
  intro c hc
  refine not_blank_of (p := fun n => ((if n < 128 then if 48 ≤ n && n < 58 then some (n - 48) else none
    else (zeroDigits.find? fun z => z ≤ n && n < z + 10).map (n - ·)).isSome) = true) ?_ (h c hc)
  decide +kernel

end Agenda.Command
