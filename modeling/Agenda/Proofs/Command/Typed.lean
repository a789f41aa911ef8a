import Agenda.Proofs.Command.Form

/-! # What is typed is understood

A command that names tasks by a phrase is read back as it was meant, in any case and with any blanks
between its words. The rules in front of its own turn the line down, and its own rule cuts the line
around the phrase, even if the phrase has words of the grammar in it.
-/

namespace Agenda.Command

open Pattern Text

variable {now : Moment} {line v s mid back rest : List Char} {names : List (List Char)} {all : Bool} {p : Pattern}
variable {r : GrammarRule} {m : Match} {c : Command} {g : Texts} {verb : String} {kind : CommandKind}

/-! ## Lines of a rule -/

theorem exists_mid (h : Target names s all) : ∃ mid, names.flatMap (' ' :: ·) = ' ' :: mid := by
  cases h <;> exact ⟨_, rfl⟩

theorem front_verb (hPlain : Plain verb) (hVerb : Spelt verb v) (hLine : Squeezed ((v ++ [' ']) ++ rest)) :
    Front [keyword verb, blanks] (v ++ [' ']) rest [] :=
  front_word (wordy_keyword hPlain) (takes_keyword.mpr (hVerb.same hPlain)) hLine

theorem declined_of_verb (i : Nat) (hPlain : Plain verb) (hVerb : Spelt verb v)
    (hNot : ∀ e ∈ openings.take i, ∀ w ∈ e.2, ¬ w.toList <+: verb.toList) :
    ∀ e ∈ grammar.take i, e.apply ((v ++ [' ']) ++ rest) now = .ok none := by
  rw [List.append_assoc, List.singleton_append]
  exact declined_of_take i hPlain hNot hVerb

/-- The rule of a verb makes the command of a line, if no rule in front of it begins like the verb. -/
theorem firstOf_of_verb (i : Nat) (hPlain : Plain verb) (hVerb : Spelt verb v)
    (hNot : ∀ e ∈ openings.take i, ∀ w ∈ e.2, ¬ w.toList <+: verb.toList) (hAt : grammar[i]? = some r)
    (hMatch : r.pattern.matchStart ((v ++ [' ']) ++ rest) = some m) (hBuild : r.build m now = .ok (some c)) :
    firstOf ((v ++ [' ']) ++ rest) now grammar = .ok (some c) := by
  refine firstOf_grammar i (declined_of_verb i hPlain hVerb hNot) hAt ?_
  rw [GrammarRule.apply, hMatch]
  exact hBuild

theorem firstOf_tag {a w : List Char} (hVerb : Spelt "tag" v) (hTarget : Target names s all) (hAs : Spelt "as" a)
    (hSome : w ≠ []) (hWord : ∀ c ∈ w, wordChar c = true) (hMid : names.flatMap (' ' :: ·) = ' ' :: mid)
    (hLine : Squeezed ((v ++ [' ']) ++ (mid ++ (' ' :: a ++ ' ' :: w)))) :
    firstOf ((v ++ [' ']) ++ (mid ++ (' ' :: a ++ ' ' :: w))) now grammar = .ok (some
      { kind := .tag, search := some (String.ofList s), allMatches := all, tag := some (String.ofList (lower w)) }) := by
  have hTag : Wordy (capture 3 word) fun cs => [(3, cs)] := wordy_capture 3 rfl fun cs h c hc => blank_of_wordChar (h.1 c hc)
  have hBack := back_words (wordy_keyword (by decide)) hTag (takes_keyword.mpr (hAs.same (by decide)))
    ⟨hWord, List.length_pos_of_ne_nil hSome⟩ hLine.behind
  obtain ⟨m, hMatch, hPhrase, hAll, hTexts⟩ := match_of_target 1 2 false hTarget hMid
    (front_verb (by decide) hVerb hLine) hBack hLine (by decide) (by simp) (by decide)
  refine firstOf_of_verb 13 (by decide) hVerb (by decide) rfl hMatch ?_
  have hTagText : m.text 3 = w := hTexts 3 (by decide) (by decide)
  simp only [tagRule, trimmed, lowered, hPhrase, hAll, hTagText, hTarget.phrase.trimmed]

theorem firstOf_priority {w : List Char} {p : Priority} (hVerb : Spelt "priority" v) (hTarget : Target names s all)
    (hWord : Spelt p.name w) (hMid : names.flatMap (' ' :: ·) = ' ' :: mid)
    (hLine : Squeezed ((v ++ [' ']) ++ (mid ++ ' ' :: w))) :
    firstOf ((v ++ [' ']) ++ (mid ++ ' ' :: w)) now grammar = .ok (some
      { kind := .priority, search := some (String.ofList s), allMatches := all, priority := some p }) := by
  have hNames : p.name ∈ ["high", "medium", "low"] ∧ Plain p.name ∧ Priority.ofName? p.name = some p := by
    cases p <;> decide
  obtain ⟨hMem, hPlain, hRead⟩ := hNames
  have hPriority : Wordy (capture 3 (keywords ["high", "medium", "low"])) fun cs => [(3, cs)] :=
    wordy_capture 3 rfl (unbroken_of_keywords (by decide))
  have hBack := back_word hPriority (takes_keywords.mpr ⟨p.name, hMem, hWord.same hPlain⟩) hLine.behind
  obtain ⟨m, hMatch, hPhrase, hAll, hTexts⟩ := match_of_target 1 2 false hTarget hMid
    (front_verb (by decide) hVerb hLine) hBack hLine (by decide) (by simp) (by decide)
  refine firstOf_of_verb 15 (by decide) hVerb (by decide) rfl hMatch ?_
  have hWordText : m.text 3 = w := hTexts 3 (by decide) (by decide)
  simp only [priorityRule, trimmed, lowered, hPhrase, hAll, hWordText, hTarget.phrase.trimmed, hWord.lower hPlain,
    String.ofList_toList, hRead]

theorem firstOf_snooze {n u : List Char} {word : String} {unit : SnoozeUnit} (hVerb : Spelt "snooze" v)
    (hTarget : Target names s all) (hSome : n ≠ []) (hDigits : ∀ c ∈ n, isDigit c = true) (hLength : n.length ≤ 4300)
    (hUnit : (word, unit) ∈ unitWords) (hWord : Spelt word u) (hMid : names.flatMap (' ' :: ·) = ' ' :: mid)
    (hLine : Squeezed ((v ++ [' ']) ++ (mid ++ (' ' :: n ++ ' ' :: u)))) :
    firstOf ((v ++ [' ']) ++ (mid ++ (' ' :: n ++ ' ' :: u))) now grammar = .ok (some
      { kind := .snooze, search := some (String.ofList s), allMatches := all, snoozeAmount := some (numeral n)
        snoozeUnit := some unit }) := by
  have hNumeral : Wordy (capture 3 numeralPattern) fun cs => [(3, cs)] :=
    wordy_capture 3 rfl fun cs h => unbroken_of_digits h.1
  have hUnits : Wordy (capture 4 unitPattern) fun cs => [(4, cs)] := wordy_capture 4 rfl unbroken_of_unit
  have hBack := back_words hNumeral hUnits ⟨hDigits, List.length_pos_of_ne_nil hSome⟩ (takes_unit hUnit hWord) hLine.behind
  obtain ⟨m, hMatch, hPhrase, hAll, hTexts⟩ := match_of_target 1 2 false hTarget hMid
    (front_verb (by decide) hVerb hLine) hBack hLine (by decide) (by simp) (by decide)
  refine firstOf_of_verb 17 (by decide) hVerb (by decide) rfl hMatch ?_
  have hAmount : m.text 3 = n := hTexts 3 (by decide) (by decide)
  have hUnitText : m.text 4 = u := hTexts 4 (by decide) (by decide)
  have hShort : n.length ≤ numeralLimit := hLength
  have hRead : numeralOf m 3 = .ok (numeral n : Int) := by
    rw [numeralOf, hAmount, numeral?, if_pos hShort]
  simp only [snoozeRule, hRead, trimmed, lowered, hPhrase, hAll, hUnitText, hTarget.phrase.trimmed,
    snoozeUnitOf_lower hUnit hWord]
  rfl

theorem firstOf_due {d : List Char} {days : List (List Char)} {spec : String} {day : Day} (hVerb : Spelt "due" v)
    (hDay : DayNamed now.day days spec day) (hTarget : Target names s all)
    (hDays : days.flatMap (' ' :: ·) = ' ' :: d) (hMid : names.flatMap (' ' :: ·) = ' ' :: mid)
    (hLine : Squeezed ((v ++ ' ' :: (d ++ [' '])) ++ (mid ++ []))) :
    firstOf ((v ++ ' ' :: (d ++ [' '])) ++ (mid ++ [])) now grammar = .ok (some
      { kind := .due, dueSpec := some spec, due := some (.endOfDay day), search := some (String.ofList s)
        allMatches := all }) := by
  obtain ⟨hTakes, hSpec⟩ := takes_day hDay hDays
  have hFront : Front [keyword "due", blanks, capture 1 dayPattern, blanks] (v ++ ' ' :: (d ++ [' '])) (mid ++ []) [(1, d)] := by
    refine (front_day hTakes ?_).cons (wordy_keyword (by decide)) (takes_keyword.mpr (hVerb.same (by decide))) ?_
    · exact hLine.of_part ⟨v ++ [' '], [], by simp⟩
    · simpa using hLine
  obtain ⟨m, hMatch, hPhrase, hAll, hTexts⟩ := match_of_target 2 3 true hTarget hMid hFront back_nil hLine
    (by decide) (by simp) (by decide)
  have hDayText : m.text 1 = d := hTexts 1 (by decide) (by decide)
  have hRest : (v ++ ' ' :: (d ++ [' '])) ++ (mid ++ []) = (v ++ [' ']) ++ (d ++ [' '] ++ mid) := by simp
  rw [hRest] at hMatch ⊢
  refine firstOf_of_verb 16 (by decide) hVerb (by decide) rfl hMatch ?_
  simp only [dueRule, trimmed, lowered, hPhrase, hAll, hDayText, hTarget.phrase.trimmed, hSpec, resolveDue_eq hDay,
    String.ofList_toList]
  rfl

/-! ## Verbs that need nothing else -/

theorem not_claimed (hTarget : Target names s all) (hMid : names.flatMap (' ' :: ·) = ' ' :: mid)
    (hFree : all = false → ¬ Claimed kind s) : ¬ Claimed kind mid := by
  cases hTarget with
  | @all a s hAll _ =>
    obtain rfl : a ++ ' ' :: s = mid := by simpa using hMid
    unfold Claimed
    split
    · -- the word `all` is no other word
      rintro ⟨w, r, hWord, hSplit⟩
      obtain ⟨rfl, _⟩ := front_unique (hAll.unbroken (by decide)) (hWord.unbroken (by decide)) hSplit
      exact absurd (hWord.eq_of_spelt (by decide) (by decide) hAll) (by decide)
    · intro hWord
      exact not_unbroken (hWord.unbroken (by decide))
    · exact not_false
  | some _ _ =>
    obtain rfl : s = mid := by simpa using hMid
    exact hFree rfl

theorem declined_of_front {before after : List Pattern} {front : List Char} (hFront : Front before front rest g)
    (hLine : Squeezed (front ++ rest)) (hPattern : r.pattern = lineOf (before ++ after))
    (hNone : ∀ h, ¬ (inOrder after).Yields rest h) : r.apply (front ++ rest) now = .ok none := by
  cases hMatch : r.pattern.matchStart (front ++ rest) with
  | none => rw [GrammarRule.apply, hMatch]
  | some m =>
    rw [hPattern] at hMatch
    obtain ⟨l, t, h, h', hSplit, hl, ht, _⟩ := yields_append.mp (yields_of_lineOf hLine hMatch)
    obtain ⟨rfl, _⟩ := hFront.unique l t h hSplit hl
    obtain rfl := List.append_cancel_left hSplit
    exact absurd ht (hNone h')

theorem front_verbs {verbs : List String} (hBare : (keywords verbs).bare = true) (hPlain : ∀ w ∈ verbs, Plain w)
    (hMem : verb ∈ verbs) (hVerb : Spelt verb v) (hLine : Squeezed ((v ++ [' ']) ++ rest)) :
    Front [keywords verbs, blanks] (v ++ [' ']) rest [] :=
  front_word (wordy_of_bare hBare (unbroken_of_keywords hPlain))
    (takes_keywords.mpr ⟨verb, hMem, hVerb.same (hPlain verb hMem)⟩) hLine

theorem declined_tickSubtask (hMem : verb ∈ ["tick", "complete"]) (hVerb : Spelt verb v)
    (hLine : Squeezed ((v ++ [' ']) ++ mid)) (hFree : ¬ Claimed .tick mid) :
    tickSubtaskRule.apply ((v ++ [' ']) ++ mid) now = .ok none := by
  refine declined_of_front (front_verbs rfl (by decide) hMem hVerb hLine) hLine rfl ?_
  rintro h ⟨w, _, _, _, rfl, hw, ⟨bs, t, _, _, rfl, hBlanks, _⟩, _⟩
  obtain ⟨hBlank, hSome, rfl⟩ := yields_blanks.mp hBlanks
  obtain rfl := hLine.behind.one_space hBlank hSome
  exact hFree ⟨w, t, takes_keyword.mp hw.takes, rfl⟩

theorem declined_archiveCompleted (hVerb : Spelt "archive" v) (hLine : Squeezed ((v ++ [' ']) ++ mid))
    (hFree : ¬ Claimed .archive mid) : archiveCompletedRule.apply ((v ++ [' ']) ++ mid) now = .ok none := by
  refine declined_of_front (front_verb (by decide) hVerb hLine) hLine rfl ?_
  rintro h ⟨w, _, _, _, rfl, hw, ⟨rfl, _⟩, _⟩
  rw [List.append_nil] at hFree
  exact hFree (takes_keyword.mp hw.takes)

theorem apply_searching {verbs : List String} (hBare : (keywords verbs).bare = true)
    (hLook : (keywords verbs).plain = true) (hPlain : ∀ w ∈ verbs, Plain w) (hMem : verb ∈ verbs) (hVerb : Spelt verb v)
    (hTarget : Target names s all) (hMid : names.flatMap (' ' :: ·) = ' ' :: mid) (hLine : Squeezed ((v ++ [' ']) ++ mid)) :
    (searching verbs kind).apply ((v ++ [' ']) ++ mid) now =
      .ok (some { kind, search := some (String.ofList s), allMatches := all }) := by
  rw [← List.append_nil mid] at hLine ⊢
  have hParts : ∀ p ∈ [keywords verbs, blanks] ++ opt (allPart 1) :: phrasePart 2 true :: [], p.plain = true := by
    simp only [List.cons_append, List.nil_append, List.forall_mem_cons]
    exact ⟨hLook, rfl, rfl, rfl, fun _ h => absurd h List.not_mem_nil⟩
  obtain ⟨m, hMatch, hPhrase, hAll, _⟩ := match_of_target 1 2 true hTarget hMid
    (front_verbs hBare hPlain hMem hVerb hLine) back_nil hLine hParts (by simp) (by decide)
  have hPattern : (searching verbs kind).pattern.matchStart ((v ++ [' ']) ++ (mid ++ [])) = some m := hMatch
  rw [GrammarRule.apply, hPattern]
  simp only [searching, trimmed, hPhrase, hAll, hTarget.phrase.trimmed]

theorem firstOf_tick (hMem : verb ∈ ["tick", "complete"]) (hVerb : Spelt verb v) (hTarget : Target names s all)
    (hFree : ¬ Claimed .tick mid) (hMid : names.flatMap (' ' :: ·) = ' ' :: mid) (hLine : Squeezed ((v ++ [' ']) ++ mid)) :
    firstOf ((v ++ [' ']) ++ mid) now grammar =
      .ok (some { kind := .tick, search := some (String.ofList s), allMatches := all }) := by
  have hVerbs : ∀ w ∈ ["tick", "complete"], Plain w ∧ ∀ e ∈ openings.take 8, ∀ u ∈ e.2, ¬ u.toList <+: w.toList := by
    decide
  obtain ⟨hPlain, hNot⟩ := hVerbs verb hMem
  refine firstOf_grammar 9 ?_ rfl (apply_searching rfl rfl (by decide) hMem hVerb hTarget hMid hLine)
  have hTake : grammar.take 9 = grammar.take 8 ++ [tickSubtaskRule] := rfl
  rw [hTake, List.forall_mem_append, List.forall_mem_singleton]
  exact ⟨declined_of_verb 8 hPlain hVerb hNot, declined_tickSubtask hMem hVerb hLine hFree⟩

theorem firstOf_delete (hMem : verb ∈ ["delete", "remove"]) (hVerb : Spelt verb v) (hTarget : Target names s all)
    (hMid : names.flatMap (' ' :: ·) = ' ' :: mid) (hLine : Squeezed ((v ++ [' ']) ++ mid)) :
    firstOf ((v ++ [' ']) ++ mid) now grammar =
      .ok (some { kind := .delete, search := some (String.ofList s), allMatches := all }) := by
  have hVerbs : ∀ w ∈ ["delete", "remove"], Plain w ∧ ∀ e ∈ openings.take 10, ∀ u ∈ e.2, ¬ u.toList <+: w.toList := by
    decide
  obtain ⟨hPlain, hNot⟩ := hVerbs verb hMem
  refine firstOf_grammar 10 (declined_of_verb 10 hPlain hVerb hNot) rfl ?_
  exact apply_searching rfl rfl (by decide) hMem hVerb hTarget hMid hLine

theorem firstOf_archive (hVerb : Spelt "archive" v) (hTarget : Target names s all) (hFree : ¬ Claimed .archive mid)
    (hMid : names.flatMap (' ' :: ·) = ' ' :: mid) (hLine : Squeezed ((v ++ [' ']) ++ mid)) :
    firstOf ((v ++ [' ']) ++ mid) now grammar =
      .ok (some { kind := .archive, search := some (String.ofList s), allMatches := all }) := by
  refine firstOf_grammar 12 ?_ rfl (apply_searching rfl rfl (by decide) (by decide) hVerb hTarget hMid hLine)
  have hTake : grammar.take 12 = grammar.take 11 ++ [archiveCompletedRule] := rfl
  rw [hTake, List.forall_mem_append, List.forall_mem_singleton]
  exact ⟨declined_of_verb 11 (by decide) hVerb (by decide), declined_archiveCompleted hVerb hLine hFree⟩

theorem firstOf_search (hVerb : (verb, kind) ∈ searchVerbs) (hWord : Spelt verb v) (hTarget : Target names s all)
    (hFree : all = false → ¬ Claimed kind s) (hMid : names.flatMap (' ' :: ·) = ' ' :: mid)
    (hLine : Squeezed ((v ++ [' ']) ++ mid)) : firstOf ((v ++ [' ']) ++ mid) now grammar =
      .ok (some { kind, search := some (String.ofList s), allMatches := all }) := by
  have hFree' := not_claimed hTarget hMid hFree
  simp only [searchVerbs, List.mem_cons, Prod.mk.injEq, List.not_mem_nil, or_false] at hVerb
  rcases hVerb with ⟨rfl, rfl⟩ | ⟨rfl, rfl⟩ | ⟨rfl, rfl⟩ | ⟨rfl, rfl⟩ | ⟨rfl, rfl⟩
  · exact firstOf_tick (by decide) hWord hTarget hFree' hMid hLine
  · exact firstOf_tick (by decide) hWord hTarget hFree' hMid hLine
  · exact firstOf_delete (by decide) hWord hTarget hMid hLine
  · exact firstOf_delete (by decide) hWord hTarget hMid hLine
  · exact firstOf_archive hWord hTarget hFree' hMid hLine

/-! ## Texts -/

theorem phrase_of_spelt {word : String} {w : List Char} (hPlain : Plain word) (hSome : word.toList ≠ []) (h : Spelt word w) :
    Phrase w := by
  refine (h.unbroken hPlain).phrase ?_
  rintro rfl
  exact hSome h.symm

theorem Target.phrases (h : Target names s all) : ∀ p ∈ names, Phrase p := by
  cases h with
  | all hAll hPhrase =>
    exact List.forall_mem_cons.mpr ⟨phrase_of_spelt (by decide) (by decide) hAll, List.forall_mem_singleton.mpr hPhrase⟩
  | some _ hPhrase => exact List.forall_mem_singleton.mpr hPhrase

theorem DayNamed.phrases {today day : Day} {days : List (List Char)} {spec : String} (h : DayNamed today days spec day) :
    ∃ d, days.flatMap (' ' :: ·) = ' ' :: d ∧ ∀ p ∈ days, Phrase p := by
  cases h with
  | today hWord => exact ⟨_, by simp; rfl, List.forall_mem_singleton.mpr (phrase_of_spelt (by decide) (by decide) hWord)⟩
  | tomorrow hWord _ =>
    exact ⟨_, by simp; rfl, List.forall_mem_singleton.mpr (phrase_of_spelt (by decide) (by decide) hWord)⟩
  | @next n w name i day hNext hName hWord _ _ =>
    have hNames : ∀ w ∈ weekdayNames, Plain w ∧ w.toList ≠ [] := by decide
    obtain ⟨hPlain, hSome⟩ := hNames name (List.mem_of_getElem? hName)
    refine ⟨n ++ ' ' :: w, by simp, List.forall_mem_cons.mpr ⟨phrase_of_spelt (by decide) (by decide) hNext, ?_⟩⟩
    exact List.forall_mem_singleton.mpr (phrase_of_spelt hPlain hSome hWord)

theorem parse_of_firstOf {text : List Char} {v : List Char} {parts : List (List Char)} (hText : Spaced (v :: parts) text)
    (hVerb : Phrase v) (hParts : ∀ p ∈ parts, Phrase p) (hLine : v ++ parts.flatMap (' ' :: ·) = line)
    (hMade : Squeezed line → firstOf line now grammar = .ok (some c)) : parse text now = .ok c := by
  have hSame : squeeze (trim text) = line :=
    (hText.squeeze_trim (List.forall_mem_cons.mpr ⟨hVerb, hParts⟩)).trans hLine
  have hSqueezed := squeezed_squeeze (trim text)
  rw [hSame] at hSqueezed
  rw [parse, hSame, hMade hSqueezed]
  rfl

/-- A text in one of the forms is the command that is meant, whatever words the phrase is made of. -/
theorem parse_of_form {text : List Char} {parts : List (List Char)} (hForm : Form now parts c) (hText : Spaced parts text) :
    parse text now = .ok c := by
  cases hForm with
  | @search verb kind v s names all hVerb hWord hTarget hFree =>
    obtain ⟨mid, hMid⟩ := exists_mid hTarget
    have hVerbs : ∀ e ∈ searchVerbs, Plain e.1 ∧ e.1.toList ≠ [] := by decide
    obtain ⟨hPlain, hSome⟩ := hVerbs _ hVerb
    exact parse_of_firstOf hText (phrase_of_spelt hPlain hSome hWord) hTarget.phrases (by simp [hMid])
      (firstOf_search hVerb hWord hTarget hFree hMid)
  | @tag v s a w names all hVerb hTarget hAs hSome hWord =>
    obtain ⟨mid, hMid⟩ := exists_mid hTarget
    have hTag : Unbroken w := fun c hc => blank_of_wordChar (hWord c hc)
    have hParts : ∀ p ∈ names ++ [a, w], Phrase p := by
      simp only [List.forall_mem_append, List.forall_mem_cons]
      exact ⟨hTarget.phrases, phrase_of_spelt (by decide) (by decide) hAs, hTag.phrase hSome,
        fun _ h => absurd h List.not_mem_nil⟩
    exact parse_of_firstOf hText (phrase_of_spelt (by decide) (by decide) hVerb) hParts (by simp [hMid])
      (firstOf_tag hVerb hTarget hAs hSome hWord hMid)
  | @priority v s w names all p hVerb hTarget hWord =>
    obtain ⟨mid, hMid⟩ := exists_mid hTarget
    have hNames : Plain p.name ∧ p.name.toList ≠ [] := by cases p <;> decide
    have hParts : ∀ p ∈ names ++ [w], Phrase p := by
      simp only [List.forall_mem_append, List.forall_mem_cons]
      exact ⟨hTarget.phrases, phrase_of_spelt hNames.1 hNames.2 hWord, fun _ h => absurd h List.not_mem_nil⟩
    exact parse_of_firstOf hText (phrase_of_spelt (by decide) (by decide) hVerb) hParts (by simp [hMid])
      (firstOf_priority hVerb hTarget hWord hMid)
  | due hVerb hDay hTarget =>
    obtain ⟨mid, hMid⟩ := exists_mid hTarget
    obtain ⟨d, hDays, hPhrases⟩ := hDay.phrases
    exact parse_of_firstOf hText (phrase_of_spelt (by decide) (by decide) hVerb)
      (List.forall_mem_append.mpr ⟨hPhrases, hTarget.phrases⟩) (by simp [hDays, hMid])
      (firstOf_due hVerb hDay hTarget hDays hMid)
  | @snooze v s n u names all word unit hVerb hTarget hSome hDigits hLength hUnit hWord =>
    obtain ⟨mid, hMid⟩ := exists_mid hTarget
    have hUnits : ∀ e ∈ unitWords, Plain e.1 ∧ e.1.toList ≠ [] := by decide
    obtain ⟨hPlain, hUnitSome⟩ := hUnits _ hUnit
    have hParts : ∀ p ∈ names ++ [n, u], Phrase p := by
      simp only [List.forall_mem_append, List.forall_mem_cons]
      exact ⟨hTarget.phrases, (unbroken_of_digits hDigits).phrase hSome, phrase_of_spelt hPlain hUnitSome hWord,
        fun _ h => absurd h List.not_mem_nil⟩
    exact parse_of_firstOf hText (phrase_of_spelt (by decide) (by decide) hVerb) hParts (by simp [hMid])
      (firstOf_snooze hVerb hTarget hSome hDigits hLength hUnit hWord hMid)

theorem parse_tick_all :
    Form (.on ⟨739037, by decide⟩ .noon) ["Tick".toList, "ALL".toList, "pay as low".toList]
        { kind := .tick, search := some "pay as low", allMatches := true } ∧
      Spaced ["Tick".toList, "ALL".toList, "pay as low".toList] " Tick\t ALL  pay as low\n".toList ∧
      parse " Tick\t ALL  pay as low\n".toList (.on ⟨739037, by decide⟩ .noon) =
        .ok { kind := .tick, search := some "pay as low", allMatches := true } := by
  have hPhrase : Phrase "pay as low".toList := ⟨by decide, by decide, squeezed_squeeze "pay as low".toList⟩
  have hVerb : ("tick", .tick) ∈ searchVerbs := by decide
  have hForm : Form (.on ⟨739037, by decide⟩ .noon) ["Tick".toList, "ALL".toList, "pay as low".toList]
      { kind := .tick, search := some "pay as low", allMatches := true } :=
    .search hVerb rfl (.all rfl hPhrase) nofun
  have hBody : Apart ["Tick".toList, "ALL".toList, "pay as low".toList]
      ("Tick".toList ++ ("\t ".toList ++ ("ALL".toList ++ ("  ".toList ++ "pay as low".toList)))) :=
    .cons (by decide) (List.all_eq_true.mp (by decide)) (.cons (by decide) (List.all_eq_true.mp (by decide)) (.last _))
  have hText : Spaced ["Tick".toList, "ALL".toList, "pay as low".toList] " Tick\t ALL  pay as low\n".toList :=
    ⟨[' '], _, ['\n'], rfl, List.all_eq_true.mp (by decide), List.all_eq_true.mp (by decide), hBody⟩
  exact ⟨hForm, hText, parse_of_form hForm hText⟩

/-- A phrase that begins with `all` is taken for the word and the rest of the phrase. -/
theorem parse_tag_all :
    Phrase "all x".toList ∧
      parse ("tag ".toList ++ "all x".toList ++ " as w".toList) (.on ⟨739037, by decide⟩ .noon) =
        .ok { kind := .tag, search := some "x", allMatches := true, tag := some "w" } ∧
      parse ("tag ".toList ++ "all x".toList ++ " as w".toList) (.on ⟨739037, by decide⟩ .noon) ≠
        .ok { kind := .tag, search := some "all x", tag := some "w" } := by
  have hParse : parse ("tag ".toList ++ "all x".toList ++ " as w".toList) (.on ⟨739037, by decide⟩ .noon) =
      .ok { kind := .tag, search := some "x", allMatches := true, tag := some "w" } := rfl
  refine ⟨⟨by decide, by decide, squeezed_squeeze "all x".toList⟩, hParse, ?_⟩
  rw [hParse]
  intro h
  have hSearch : some "x" = some "all x" := congrArg Command.search (Except.ok.inj h)
  exact absurd hSearch (by decide)

end Agenda.Command
