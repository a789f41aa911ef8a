import Agenda.Proofs.Command.Typed
import Agenda.Proofs.Command.Peeling

/-! # A tag on a new task, and the filter for it

A word with `#` in front of it at the end of a new task is its tag, and the same word behind `show`
asks for the tasks with that tag. Both readings cut the line at a space, and both take the word in
lower case.
-/

namespace Agenda.Command

open Pattern Text

/-- A word behind the sign. -/
def Marked (sign : Char) (u : List Char) : Prop :=
  ∃ w, u = sign :: w ∧ w ≠ [] ∧ ∀ c ∈ w, wordChar c = true

/-- A phrase that a line may add as it is: nothing goes `to` anything, and no priority is at its end. -/
structure Title (x : List Char) : Prop where
  phrase : Phrase x
  noTo : ∀ u ∈ x.splitOn ' ', lower u ≠ "to".toList
  noPriority : ∀ u ∈ (x.splitOn ' ').getLast?, ¬ Marked '!' u

variable {now : Moment} {line v x w l u r rest : List Char} {g : Texts} {word : String}
  {before after : List Pattern}

/-! ## Words between spaces -/

theorem splitOn_unbroken (h : Unbroken u) : u.splitOn ' ' = [u] := by
  apply List.splitOn_eq_singleton
  intro hMem
  cases h ' ' hMem

/-- A word with spaces around it is not the last one, so it stands in front of the last. -/
theorem mem_splitOn_front (hu : Unbroken u) (hw : Unbroken w) (h : x ++ ' ' :: w = l ++ ' ' :: (u ++ ' ' :: r)) :
    u ∈ x.splitOn ' ' := by
  have hWords : x.splitOn ' ' ++ [w] = l.splitOn ' ' ++ (u :: r.splitOn ' ') := by
    have hSplit := congrArg (List.splitOn ' ') h
    simpa only [List.splitOn_append_cons_self, splitOn_unbroken hu, splitOn_unbroken hw,
      List.singleton_append] using hSplit
  have hFront := congrArg List.dropLast hWords
  rw [List.dropLast_concat, List.dropLast_append_cons, List.dropLast_cons_of_ne_nil (List.splitOn_ne_nil _ _)] at hFront
  rw [hFront]
  exact List.mem_append_right _ List.mem_cons_self

theorem getLast?_splitOn (hw : Unbroken w) : ((x ++ ' ' :: w).splitOn ' ').getLast? = some w := by
  rw [List.splitOn_append_cons_self, splitOn_unbroken hw, List.getLast?_concat]

theorem Marked.unbroken {sign : Char} (hSign : blank sign = false) (h : Marked sign u) : Unbroken u := by
  obtain ⟨w, rfl, hSome, hWord⟩ := h
  exact unbroken_marked hSign ⟨hWord, List.length_pos_of_ne_nil hSome⟩

/-! ## Markers -/

theorem Marked.takes_word {sign : Char} (h : Marked sign (sign :: w)) : Pattern.word.Takes w := by
  obtain ⟨_, ⟨⟩, hSome, hWord⟩ := h
  exact ⟨hWord, List.length_pos_of_ne_nil hSome⟩

theorem oneLine_of_phrase (h : Phrase x) : OneLine x :=
  ⟨h.some, h.trimmed, newline_not_mem h.squeezed⟩

theorem priorityMarker_eq_none (h : Title x) : priorityMarker.matchStart x = none := by
  rw [priorityMarker_eq]
  by_contra hSome
  obtain ⟨m, hMatch⟩ := Option.ne_none_iff_exists'.mp hSome
  obtain ⟨hEnds, hWord⟩ := ends_of_sign (by decide) h.phrase.trimmed hMatch
  obtain ⟨bs, hBlanks, hSplit⟩ := hEnds.cut
  obtain ⟨hBlank, hRun⟩ := takes_blanks.mp hBlanks
  obtain rfl := (hSplit ▸ h.phrase.squeezed).one_space hBlank hRun
  refine h.noPriority ('!' :: m.text 2) ?_ ⟨_, rfl, word_ne_nil hWord, hWord.1⟩
  rw [hSplit]
  exact getLast?_splitOn hEnds.unbroken

theorem splitMarkers_eq (hTitle : Title x) (hMark : Marked '#' ('#' :: w)) :
    splitMarkers (x ++ ' ' :: '#' :: w) = (x, some (lower w), none) := by
  have hLine := oneLine_of_phrase hTitle.phrase
  have hWord := hMark.takes_word
  have hSecond : Peeled.step? ⟨x, some (lower w), none⟩ = none := by
    simp only [Peeled.step?, priorityMarker_eq_none hTitle]
    rfl
  exact splitMarkers_of_tag (hLine.marked (by decide) hWord).trimmed (steps_one (step_hash hLine hWord) hSecond)

/-! ## A new task -/

theorem exists_keyword (hLine : Squeezed rest)
    (h : (inOrder (before ++ blanks :: keyword word :: blanks :: after)).Yields rest g) :
    ∃ l u r, rest = l ++ ' ' :: (u ++ ' ' :: r) ∧ SameWord word u := by
  obtain ⟨l, _, _, _, rfl, _, ⟨bs, _, _, _, rfl, hFront, ⟨u, _, _, _, rfl, hWord,
    ⟨bs', r, _, _, rfl, hBack, _⟩, _⟩, _⟩, _⟩ := yields_append.mp h
  obtain ⟨hBlank, hSome, _⟩ := yields_blanks.mp hFront
  obtain ⟨hBlank', hSome', _⟩ := yields_blanks.mp hBack
  obtain rfl := hLine.one_space hBlank hSome
  obtain rfl := hLine.behind.behind.one_space hBlank' hSome'
  exact ⟨l, u, r, rfl, takes_keyword.mp hWord.takes⟩

theorem not_yields_to (before : List Pattern) (hTitle : Title x) (hw : Unbroken w) (hLine : Squeezed (x ++ ' ' :: w)) :
    ¬ (inOrder (before ++ blanks :: keyword "to" :: blanks :: after)).Yields (x ++ ' ' :: w) g := by
  intro h
  obtain ⟨l, u, r, hSplit, hSame⟩ := exists_keyword hLine h
  have hMem := mem_splitOn_front (hSame.unbroken (by decide)) hw hSplit
  exact hTitle.noTo u hMem (hSame.lower (by decide) (by decide) (by decide))

theorem declined_front_add (hVerb : Spelt "add" v) (hTitle : Title x) (hw : Unbroken w)
    (hLine : Squeezed ((v ++ [' ']) ++ (x ++ ' ' :: w))) :
    ∀ e ∈ grammar.take 7, e.apply ((v ++ [' ']) ++ (x ++ ' ' :: w)) now = .ok none := by
  have hTake : grammar.take 7 = grammar.take 5 ++ [subtaskRule, addToProjectRule] := rfl
  have hFront := front_verb (by decide) hVerb hLine
  rw [hTake, List.forall_mem_append, List.forall_mem_cons, List.forall_mem_singleton]
  refine ⟨declined_of_verb 5 (by decide) hVerb (by decide), declined_of_front hFront hLine rfl fun h => ?_,
    declined_of_front hFront hLine rfl fun h => ?_⟩
  · exact not_yields_to [keyword "subtask", blanks, capture 1 phrase] hTitle hw hLine.behind
  · exact not_yields_to [capture 1 phrase] hTitle hw hLine.behind

theorem firstOf_add (hVerb : Spelt "add" v) (hTitle : Title x) (hMark : Marked '#' ('#' :: w))
    (hLine : Squeezed ((v ++ [' ']) ++ (x ++ ' ' :: '#' :: w))) :
    firstOf ((v ++ [' ']) ++ (x ++ ' ' :: '#' :: w)) now grammar = .ok (some
      { kind := .add, taskText := some (String.ofList x), tag := some (String.ofList (lower w)) }) := by
  refine firstOf_grammar 7 (declined_front_add hVerb hTitle (hMark.unbroken (by decide)) hLine) rfl ?_
  have hRest : Pattern.line.Yields (x ++ ' ' :: '#' :: w) [] := by
    refine (yields_iff_of_bare rfl).mpr ⟨⟨fun c hc => bne_iff_ne.mpr ?_, by simp; omega⟩, rfl⟩
    rintro rfl
    exact newline_not_mem hLine.behind hc
  have hWay : (inOrder [capture 1 Pattern.line]).Yields (x ++ ' ' :: '#' :: w) [(1, x ++ ' ' :: '#' :: w)] :=
    ⟨_, [], _, [], (List.append_nil _).symm, ⟨[], hRest, rfl⟩, ⟨rfl, rfl⟩, rfl⟩
  have hOnly (h : Texts) (hYields : (inOrder [capture 1 Pattern.line]).Yields (x ++ ' ' :: '#' :: w) h) :
      h = [(1, x ++ ' ' :: '#' :: w)] := by
    obtain ⟨t, _, _, _, hSplit, ⟨_, ⟨_, _, _, rfl⟩, rfl⟩, ⟨rfl, rfl⟩, rfl⟩ := hYields
    rw [List.append_nil] at hSplit
    rw [hSplit]
    rfl
  obtain ⟨m, hMatch, hTexts⟩ := match_of_front (front_verb (by decide) hVerb hLine) hLine (by decide) hWay hOnly
  have hText : m.text 1 = x ++ ' ' :: '#' :: w := by
    rw [Match.text_eq, hTexts]
    rfl
  have hFound : addRule.pattern.matchStart ((v ++ [' ']) ++ (x ++ ' ' :: '#' :: w)) = some m := hMatch
  have hSome : x.isEmpty = false := List.isEmpty_eq_false_iff.mpr hTitle.phrase.some
  rw [GrammarRule.apply, hFound]
  simp only [addRule, hText, splitMarkers_eq hTitle hMark, hSome]
  rfl

/-! ## A filter -/

theorem sameWord_of_takes_pair {first second : String} (hFirst : Plain first) (hv : Unbroken v)
    (hLine : Squeezed (v ++ ' ' :: w)) (h : (fixed [first, second]).Takes (v ++ ' ' :: w)) : SameWord second w := by
  obtain ⟨_, u, hSplit, ⟨a, bs, rfl, ha, hBlank, hSome⟩, hu⟩ := h
  rw [List.append_assoc] at hSplit
  rw [hSplit] at hLine
  obtain rfl := hLine.one_space hBlank (List.ne_nil_of_length_pos hSome)
  obtain ⟨_, rfl⟩ := front_unique hv (unbroken_of_keyword hFirst a ha) hSplit
  exact takes_keyword.mp hu

def calendarPattern : Pattern :=
  anyOf [keyword "calendar", fixed ["view", "calendar"], fixed ["show", "calendar"], fixed ["toggle", "calendar"]]

theorem sameWord_of_takes_calendar (hv : Unbroken v) (hLine : Squeezed (v ++ ' ' :: w))
    (h : calendarPattern.Takes (v ++ ' ' :: w)) : SameWord "calendar" w := by
  rcases h with h | h | h | h
  · exact absurd (unbroken_of_keyword (by decide) _ h) not_unbroken
  all_goals exact sameWord_of_takes_pair (by decide) hv hLine h

theorem declined_calendar (hv : Unbroken v) (hTag : lower w ≠ "calendar".toList) (hLine : Squeezed (v ++ ' ' :: w)) :
    (literal (lineOf [calendarPattern]) .calendar).apply (v ++ ' ' :: w) now = .ok none := by
  cases hMatch : (lineOf [calendarPattern]).matchStart (v ++ ' ' :: w) with
  | none =>
    have hNone : (literal (lineOf [calendarPattern]) .calendar).pattern.matchStart (v ++ ' ' :: w) = none := hMatch
    rw [GrammarRule.apply, hNone]
  | some m =>
    obtain ⟨l, _, _, _, hSplit, hl, ⟨rfl, _⟩, _⟩ := yields_of_lineOf hLine hMatch
    rw [List.append_nil] at hSplit
    have hSame := sameWord_of_takes_calendar hv hLine (hSplit ▸ hl.takes)
    exact absurd (hSame.lower (by decide) (by decide) (by decide)) hTag

theorem declined_front_show (hVerb : Spelt "show" v) (hTag : lower w ≠ "calendar".toList)
    (hLine : Squeezed (v ++ ' ' :: w)) : ∀ e ∈ grammar.take 14, e.apply (v ++ ' ' :: w) now = .ok none := by
  have hTake : grammar.take 14 = grammar.take 1 ++ literal (lineOf [calendarPattern]) .calendar ::
      ((openings.drop 2).take 12).map Prod.fst := rfl
  have hNot : ∀ e ∈ (openings.drop 2).take 12, ∀ u ∈ e.2, ¬ u.toList <+: "show".toList := by decide
  rw [hTake, List.forall_mem_append, List.forall_mem_cons, List.forall_mem_map]
  refine ⟨declined_of_take 1 (by decide) (by decide) hVerb, declined_calendar (hVerb.unbroken (by decide)) hTag hLine,
    fun e he => ?_⟩
  exact declined_of_mem (List.mem_of_mem_drop (List.mem_of_mem_take he)) (by decide) (hNot e he) hVerb

def filterParts : List Pattern :=
  [keywords ["filter", "show"], opt (blanks ++ keyword "by"), blanks, capture 1 Pattern.word,
    opt (blanks ++ keyword "tasks")]

theorem yields_filter (hVerb : Spelt "show" v) (hWord : Pattern.word.Takes w) :
    (inOrder filterParts).Yields (v ++ ' ' :: w) [(1, w)] := by
  have hShow : (keywords ["filter", "show"]).Yields v [] :=
    (yields_iff_of_bare rfl).mpr ⟨takes_keywords.mpr ⟨"show", by decide, hVerb.same (by decide)⟩, rfl⟩
  have hTag : Pattern.word.Yields w [] := (yields_iff_of_bare rfl).mpr ⟨hWord, rfl⟩
  refine ⟨v, ' ' :: w, [], [(1, w)], rfl, hShow, yields_opt.mpr (.inr ?_), rfl⟩
  refine ⟨[' '], w, [], [(1, w)], rfl, yields_space, ?_, rfl⟩
  exact ⟨w, [], [(1, w)], [], (List.append_nil w).symm, ⟨[], hTag, rfl⟩, yields_opt.mpr (.inr ⟨rfl, rfl⟩), rfl⟩

theorem eq_behind_word {bs : List Char} (hv : Unbroken v) (hu : Unbroken u) (hLine : Squeezed (v ++ ' ' :: w))
    (hBlanks : blanks.Yields bs g) (h : v ++ ' ' :: w = u ++ (bs ++ r)) : w = r := by
  obtain ⟨hBlank, hSome, _⟩ := yields_blanks.mp hBlanks
  rw [h] at hLine
  obtain rfl := hLine.one_space hBlank hSome
  exact (front_unique hv hu h).2

theorem not_unbroken_of_blanks {bs : List Char} (hBlanks : blanks.Yields bs g) : ¬ Unbroken (l ++ (bs ++ r)) := by
  obtain ⟨hBlank, hSome, _⟩ := yields_blanks.mp hBlanks
  obtain ⟨b, bs, rfl⟩ := List.exists_cons_of_ne_nil hSome
  intro h
  have hb := h b (List.mem_append_right l List.mem_cons_self)
  rw [hBlank b List.mem_cons_self] at hb
  cases hb

/-- A word without blanks leaves no room for the words that may stand around it. -/
theorem eq_of_yields_filter (hv : Unbroken v) (hw : Unbroken w) (hLine : Squeezed (v ++ ' ' :: w))
    (h : (inOrder filterParts).Yields (v ++ ' ' :: w) g) : g = [(1, w)] := by
  obtain ⟨v', _, _, _, hSplit, hYields, hRest, rfl⟩ := h
  obtain ⟨hVerb, rfl⟩ := (yields_iff_of_bare rfl).mp hYields
  have hv' : Unbroken v' := unbroken_of_keywords (by decide) v' hVerb
  rcases yields_opt.mp hRest with ⟨_, _, _, _, rfl, ⟨bs, b, _, _, rfl, hFront, _⟩, ⟨bs', t, _, _, rfl, hBack, _⟩, _⟩ |
    ⟨bs, _, _, _, rfl, hFront, ⟨u, t, _, _, rfl, ⟨_, hu, rfl⟩, hEnd, rfl⟩, rfl⟩
  · rw [List.append_assoc] at hSplit
    obtain rfl := eq_behind_word hv hv' hLine hFront hSplit
    exact absurd hw (not_unbroken_of_blanks hBack)
  · obtain rfl := eq_behind_word hv hv' hLine hFront hSplit
    rcases yields_opt.mp hEnd with ⟨_, _, _, _, rfl, ⟨bs', k, _, _, rfl, hBack, _⟩, _⟩ | ⟨rfl, rfl⟩
    · rw [List.append_assoc] at hw
      exact absurd hw (not_unbroken_of_blanks hBack)
    · obtain ⟨_, rfl⟩ := (yields_iff_of_bare rfl).mp hu
      obtain ⟨_, _, rfl⟩ := yields_blanks.mp hFront
      simp

theorem firstOf_show (hVerb : Spelt "show" v) (hSome : w ≠ []) (hWord : ∀ c ∈ w, wordChar c = true)
    (hTag : lower w ≠ "calendar".toList) (hLine : Squeezed (v ++ ' ' :: w)) :
    firstOf (v ++ ' ' :: w) now grammar = .ok (some { kind := .filter, tag := some (String.ofList (lower w)) }) := by
  have hw : Unbroken w := fun c hc => blank_of_wordChar (hWord c hc)
  refine firstOf_grammar 14 (declined_front_show hVerb hTag hLine) rfl ?_
  have hWay := yields_filter hVerb ⟨hWord, List.length_pos_of_ne_nil hSome⟩
  obtain ⟨m, hMatch, hTexts⟩ := match_of_front front_nil hLine (by decide) hWay fun h =>
    eq_of_yields_filter (hVerb.unbroken (by decide)) hw hLine
  have hText : m.text 1 = w := by
    rw [Match.text_eq, hTexts]
    rfl
  have hFound : filterRule.pattern.matchStart (v ++ ' ' :: w) = some m := hMatch
  rw [GrammarRule.apply, hFound]
  simp only [filterRule, lowered, hText]

/-! ## Texts -/

/-- The command of a new task with a tag behind it. -/
theorem parse_add_marked {text : List Char} (hText : Spaced [v, x, '#' :: w] text) (hVerb : Spelt "add" v)
    (hTitle : Title x) (hSome : w ≠ []) (hWord : ∀ c ∈ w, wordChar c = true) : parse text now =
      .ok { kind := .add, taskText := some (String.ofList x), tag := some (String.ofList (lower w)) } := by
  have hMark : Marked '#' ('#' :: w) := ⟨w, rfl, hSome, hWord⟩
  have hEnd : Phrase ('#' :: w) := (hMark.unbroken (by decide)).phrase (List.cons_ne_nil _ _)
  have hParts : ∀ p ∈ [x, '#' :: w], Phrase p :=
    List.forall_mem_cons.mpr ⟨hTitle.phrase, List.forall_mem_singleton.mpr hEnd⟩
  exact parse_of_firstOf hText (phrase_of_spelt (by decide) (by decide) hVerb) hParts (by simp)
    (firstOf_add hVerb hTitle hMark)

/-- The command of a filter for a tag. -/
theorem parse_show {text : List Char} (hText : Spaced [v, w] text) (hVerb : Spelt "show" v) (hSome : w ≠ [])
    (hWord : ∀ c ∈ w, wordChar c = true) (hTag : lower w ≠ "calendar".toList) :
    parse text now = .ok { kind := .filter, tag := some (String.ofList (lower w)) } := by
  have hw : Unbroken w := fun c hc => blank_of_wordChar (hWord c hc)
  exact parse_of_firstOf hText (phrase_of_spelt (by decide) (by decide) hVerb)
    (List.forall_mem_singleton.mpr (hw.phrase hSome)) (by simp) (firstOf_show hVerb hSome hWord hTag)

end Agenda.Command
