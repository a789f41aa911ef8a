import Agenda.Proofs.Command.Line
import Agenda.Proofs.Text.Spelt

/-! # The tasks that a line names

A line names tasks by a phrase, perhaps behind the word `all`. What stands in front of it and behind
it is made of words, so a squeezed line can be cut around the phrase in one way only, whatever words
the phrase itself is made of. The word `all` is never left to a phrase.
-/

namespace Agenda.Command

open Pattern Text

/-- The text has the word and a space in front. -/
def Opens (word : String) (s : List Char) : Prop :=
  ∃ w r, SameWord word w ∧ s = w ++ ' ' :: r

/-- The parts of a line that name tasks, the phrase, and whether all tasks are meant. -/
inductive Target : List (List Char) → List Char → Bool → Prop
  | all {a s : List Char} (hAll : Spelt "all" a) (hPhrase : Phrase s) : Target [a, s] s true
  | some {s : List Char} (hAll : ¬ Opens "all" s) (hPhrase : Phrase s) : Target [s] s false

/-- The part takes texts without blanks, each in one way, with its captures. -/
structure Wordy (p : Pattern) (captures : List Char → Texts) : Prop where
  unbroken : ∀ cs, p.Takes cs → Unbroken cs
  yields : ∀ cs g, p.Yields cs g ↔ p.Takes cs ∧ g = captures cs

/-- The parts read the front of a line, and can read no other. -/
structure Front (parts : List Pattern) (front rest : List Char) (g : Texts) : Prop where
  yields : (inOrder parts).Yields front g
  unique : ∀ l r h, front ++ rest = l ++ r → (inOrder parts).Yields l h → l = front ∧ h = g

/-- The parts read the end of a line behind `rest`, and can read no other. -/
structure Back (parts : List Pattern) (rest back : List Char) (g : Texts) : Prop where
  yields : (inOrder parts).Yields back g
  unique : ∀ l r h, rest ++ back = l ++ r → (inOrder parts).Yields r h → l = rest ∧ h = g

variable {p : Pattern} {parts before after : List Pattern} {captures : List Char → Texts} {g g₀ : Texts} {n i j : Nat}
variable {s v w cs front mid back rest bs : List Char} {greedy all : Bool} {names : List (List Char)}

theorem Target.phrase (h : Target names s all) : Phrase s := by
  cases h <;> assumption

/-! ## Words -/

theorem wordy_of_bare (hBare : p.bare = true) (hUnbroken : ∀ cs, p.Takes cs → Unbroken cs) : Wordy p fun _ => [] where
  unbroken := hUnbroken
  yields _ _ := yields_iff_of_bare hBare

theorem wordy_capture (n : Nat) (hBare : p.bare = true) (hUnbroken : ∀ cs, p.Takes cs → Unbroken cs) :
    Wordy (capture n p) fun cs => [(n, cs)] where
  unbroken := hUnbroken
  yields cs g := by
    constructor
    · rintro ⟨g', hp, rfl⟩
      obtain ⟨hTakes, rfl⟩ := (yields_iff_of_bare hBare).mp hp
      exact ⟨hTakes, rfl⟩
    · rintro ⟨hTakes, rfl⟩
      exact ⟨[], (yields_iff_of_bare hBare).mpr ⟨hTakes, rfl⟩, rfl⟩

theorem unbroken_of_keywords {words : List String} (hPlain : ∀ w ∈ words, Plain w) (cs : List Char)
    (h : (keywords words).Takes cs) : Unbroken cs := by
  obtain ⟨w, hw, hSame⟩ := takes_keywords.mp h
  exact SameWord.unbroken (hPlain w hw) hSame

theorem unbroken_of_keyword {word : String} (hPlain : Plain word) (cs : List Char) (h : (keyword word).Takes cs) :
    Unbroken cs :=
  SameWord.unbroken hPlain (takes_keyword.mp h)

theorem wordy_keyword {word : String} (hPlain : Plain word) : Wordy (keyword word) fun _ => [] :=
  wordy_of_bare (bare_keyword word) (unbroken_of_keyword hPlain)

theorem takes_blanks : blanks.Takes cs ↔ (∀ c ∈ cs, blank c = true) ∧ cs ≠ [] := by
  rw [List.ne_nil_iff_length_pos]
  rfl

theorem yields_blanks : blanks.Yields cs g ↔ (∀ c ∈ cs, blank c = true) ∧ cs ≠ [] ∧ g = [] := by
  rw [yields_iff_of_bare rfl, takes_blanks, and_assoc]

theorem takes_space : blanks.Takes [' '] :=
  takes_blanks.mpr ⟨List.forall_mem_singleton.mpr (by decide), List.cons_ne_nil _ _⟩

theorem yields_space : blanks.Yields [' '] [] :=
  (yields_iff_of_bare rfl).mpr ⟨takes_space, rfl⟩

/-! ## Around the phrase -/

theorem front_nil : Front [] [] rest [] where
  yields := ⟨rfl, rfl⟩
  unique _ _ _ _ h := h

theorem Front.cons (hp : Wordy p captures) (hTakes : p.Takes v) (hLine : Squeezed (v ++ ' ' :: (front ++ rest)))
    (h : Front parts front rest g) : Front (p :: blanks :: parts) (v ++ ' ' :: front) rest (g ++ captures v) where
  yields := by
    refine ⟨v, ' ' :: front, captures v, g, rfl, (hp.yields v _).mpr ⟨hTakes, rfl⟩, ?_, rfl⟩
    exact ⟨[' '], front, [], g, rfl, yields_space, h.yields, (List.append_nil g).symm⟩
  unique := by
    rintro _ r _ hSplit ⟨w, _, g₁, _, rfl, hw, ⟨bs, l, _, g₂, rfl, hBlanks, hl, rfl⟩, rfl⟩
    obtain ⟨hWord, rfl⟩ := (hp.yields w g₁).mp hw
    obtain ⟨hBlank, hSome, rfl⟩ := yields_blanks.mp hBlanks
    simp only [List.append_assoc, List.cons_append] at hSplit
    rw [hSplit] at hLine
    obtain rfl := hLine.one_space hBlank hSome
    obtain ⟨rfl, hRest⟩ := front_unique (hp.unbroken v hTakes) (hp.unbroken w hWord) hSplit
    obtain ⟨rfl, rfl⟩ := h.unique l r g₂ hRest hl
    exact ⟨rfl, by rw [List.append_nil]⟩

theorem back_nil : Back [] rest [] [] where
  yields := ⟨rfl, rfl⟩
  unique := by
    rintro l _ _ hSplit ⟨rfl, rfl⟩
    exact ⟨(List.append_cancel_right hSplit).symm, rfl⟩

theorem Back.cons (hp : Wordy p captures) (hTakes : p.Takes w) (hLine : Squeezed (rest ++ ' ' :: w))
    (h : Back parts (rest ++ ' ' :: w) back g) : Back (blanks :: p :: parts) rest (' ' :: w ++ back) (g ++ captures w) where
  yields := by
    refine ⟨[' '], w ++ back, [], _, rfl, yields_space, ?_, (List.append_nil _).symm⟩
    exact ⟨w, back, captures w, g, rfl, (hp.yields w _).mpr ⟨hTakes, rfl⟩, h.yields, rfl⟩
  unique := by
    rintro l _ _ hSplit ⟨bs, _, _, _, rfl, hBlanks, ⟨v, r, g₁, g₂, rfl, hv, hr, rfl⟩, rfl⟩
    obtain ⟨hWord, rfl⟩ := (hp.yields v g₁).mp hv
    obtain ⟨hBlank, hSome, rfl⟩ := yields_blanks.mp hBlanks
    have hSplit' : (rest ++ ' ' :: w) ++ back = (l ++ (bs ++ v)) ++ r := by
      simpa using hSplit
    obtain ⟨hRest, rfl⟩ := h.unique _ r g₂ hSplit' hr
    rw [← hRest] at hLine
    obtain rfl := hLine.one_space hBlank hSome
    obtain ⟨rfl, rfl⟩ := back_unique (hp.unbroken v hWord) (hp.unbroken w hTakes) hRest
    exact ⟨rfl, List.append_nil _⟩

/-- Where what is behind a front can be read in one way only, too, the texts of the match are known. -/
theorem match_of_front (hFront : Front before front rest g₀) (hLine : Squeezed (front ++ rest))
    (hPlain : ∀ p ∈ before ++ after, p.plain = true) (hYields : (inOrder after).Yields rest g)
    (hOnly : ∀ h, (inOrder after).Yields rest h → h = g) :
    ∃ m, (lineOf (before ++ after)).matchStart (front ++ rest) = some m ∧ texts m.captures = g ++ g₀ := by
  obtain ⟨m, hMatch⟩ := exists_match_lineOf hPlain (yields_append.mpr ⟨_, _, _, _, rfl, hFront.yields, hYields, rfl⟩)
  obtain ⟨l, r, _, h, hSplit, hl, hr, hTexts⟩ := yields_append.mp (yields_of_lineOf hLine hMatch)
  obtain ⟨rfl, rfl⟩ := hFront.unique l r _ hSplit hl
  obtain rfl := List.append_cancel_left hSplit
  obtain rfl := hOnly h hr
  exact ⟨m, hMatch, hTexts⟩

variable {q : Pattern} {captures' : List Char → Texts} {u : List Char}

theorem front_word (hp : Wordy p captures) (hTakes : p.Takes v) (hLine : Squeezed ((v ++ [' ']) ++ rest)) :
    Front [p, blanks] (v ++ [' ']) rest (captures v) :=
  front_nil.cons hp hTakes (by simpa using hLine)

theorem back_word (hp : Wordy p captures) (hTakes : p.Takes w) (hLine : Squeezed (rest ++ ' ' :: w)) :
    Back [blanks, p] rest (' ' :: w) (captures w) := by
  have h := back_nil.cons hp hTakes hLine
  rwa [List.append_nil] at h

theorem back_words (hq : Wordy q captures') (hp : Wordy p captures) (hTakes' : q.Takes u) (hTakes : p.Takes w)
    (hLine : Squeezed (rest ++ (' ' :: u ++ ' ' :: w))) :
    Back [blanks, q, blanks, p] rest (' ' :: u ++ ' ' :: w) (captures w ++ captures' u) := by
  rw [← List.append_assoc] at hLine
  exact (back_word hp hTakes hLine).cons hq hTakes' (hLine.of_part (List.prefix_append _ _).isInfix)

/-! ## The phrase -/

def allPart (i : Nat) : Pattern :=
  capture i (keyword "all" ++ blanks)

def phrasePart (j : Nat) (greedy : Bool) : Pattern :=
  capture j (many greedy inLine 1 none)

theorem yields_phrase_of (hAfter : (inOrder after).Yields back g) (hSome : s ≠ []) (hLine : '\n' ∉ s) :
    (inOrder (phrasePart j greedy :: after)).Yields (s ++ back) (g ++ [(j, s)]) := by
  refine ⟨s, back, [(j, s)], g, rfl, ⟨[], ⟨?_, List.length_pos_of_ne_nil hSome, by simp, rfl⟩, rfl⟩, hAfter, rfl⟩
  intro c hc
  refine bne_iff_ne.mpr ?_
  rintro rfl
  exact hLine hc

theorem eq_of_yields_phrase (hBack : Back after mid back g) {h : Texts}
    (hYields : (inOrder (phrasePart j greedy :: after)).Yields (mid ++ back) h) : h = g ++ [(j, mid)] := by
  obtain ⟨s, r, _, _, hSplit, ⟨_, ⟨_, _, _, rfl⟩, rfl⟩, hr, rfl⟩ := hYields
  obtain ⟨rfl, rfl⟩ := hBack.unique s r _ hSplit hr
  rfl

theorem yields_all_phrase_of (hAfter : (inOrder after).Yields back g) (hSome : s ≠ []) (hLine : '\n' ∉ s)
    {a : List Char} (hAll : SameWord "all" a) :
    (inOrder (allPart i :: phrasePart j greedy :: after)).Yields (a ++ ' ' :: s ++ back)
      (g ++ [(j, s)] ++ [(i, a ++ [' '])]) := by
  have hWord : (keyword "all").Yields a [] := (yields_iff_of_bare rfl).mpr ⟨takes_keyword.mpr hAll, rfl⟩
  refine ⟨a ++ [' '], s ++ back, _, _, by simp, ⟨[], ?_, rfl⟩, yields_phrase_of hAfter hSome hLine, rfl⟩
  exact ⟨a, [' '], [], [], rfl, hWord, yields_space, rfl⟩

theorem eq_of_yields_all_phrase (hBack : Back after mid back g) (hLine : Squeezed mid) {h : Texts}
    (hYields : (inOrder (allPart i :: phrasePart j greedy :: after)).Yields (mid ++ back) h) :
    ∃ a s, SameWord "all" a ∧ mid = a ++ ' ' :: s ∧ h = g ++ [(j, s)] ++ [(i, a ++ [' '])] := by
  obtain ⟨_, _, _, _, hSplit, ⟨_, ⟨a, bs, _, _, rfl, ha, hBlanks, rfl⟩, rfl⟩,
    ⟨s, r, _, _, rfl, ⟨_, ⟨_, _, _, rfl⟩, rfl⟩, hr, rfl⟩, rfl⟩ := hYields
  obtain ⟨hSame, rfl⟩ := (yields_iff_of_bare rfl).mp ha
  obtain ⟨hBlank, hSome, rfl⟩ := yields_blanks.mp hBlanks
  have hSplit' : mid ++ back = (a ++ (bs ++ s)) ++ r := by
    simpa using hSplit
  obtain ⟨rfl, rfl⟩ := hBack.unique _ r _ hSplit' hr
  obtain rfl := hLine.one_space hBlank hSome
  exact ⟨a, s, takes_keyword.mp hSame, rfl, rfl⟩

/-! ## Cutting a line -/

theorem yields_opt : (inOrder (opt p :: after)).Yields cs g ↔
    (inOrder (p :: after)).Yields cs g ∨ (inOrder after).Yields cs g := by
  constructor
  · rintro ⟨l, r, g₁, g₂, rfl, hp | ⟨rfl, rfl⟩, hAfter, rfl⟩
    · exact .inl ⟨l, r, g₁, g₂, rfl, hp, hAfter, rfl⟩
    · rw [List.append_nil]
      exact .inr hAfter
  · rintro (⟨l, r, g₁, g₂, rfl, hp, hAfter, rfl⟩ | hAfter)
    · exact ⟨l, r, g₁, g₂, rfl, .inl hp, hAfter, rfl⟩
    · exact ⟨[], cs, [], g, rfl, .inr ⟨rfl, rfl⟩, hAfter, (List.append_nil g).symm⟩

/-- The rest of a line behind a front that can be read in one way only. -/
theorem opt_of_front (hFront : Front before front rest g₀) (hLine : Squeezed (front ++ rest))
    (hPlain : ∀ q ∈ before ++ opt p :: after, q.plain = true) (hWay : (inOrder (opt p :: after)).Yields rest g) :
    ∃ m, (lineOf (before ++ opt p :: after)).matchStart (front ++ rest) = some m ∧
      ((∃ h, (inOrder (p :: after)).Yields rest h ∧ texts m.captures = h ++ g₀) ∨
        (∀ h, ¬ (inOrder (p :: after)).Yields rest h) ∧ ∃ h, (inOrder after).Yields rest h ∧ texts m.captures = h ++ g₀) := by
  obtain ⟨_, hOpt⟩ := List.forall_mem_append.mp hPlain
  obtain ⟨hOpt, hAfter⟩ := List.forall_mem_cons.mp hOpt
  have hWith : ∀ q ∈ p :: after, q.plain = true :=
    List.forall_mem_cons.mpr ⟨(Bool.and_eq_true_iff.mp hOpt).1, hAfter⟩
  have hAll : (inOrder (before ++ opt p :: after)).Yields (front ++ rest) (g ++ g₀) :=
    yields_append.mpr ⟨front, rest, g₀, g, rfl, hFront.yields, hWay, rfl⟩
  obtain ⟨m, hMatch⟩ := exists_match_lineOf hPlain hAll
  obtain ⟨l, r, h, hSplit, hl, hRest⟩ := opt_of_lineOf hLine hWith hMatch
  obtain ⟨rfl, rfl⟩ := hFront.unique l r h hSplit hl
  obtain rfl := List.append_cancel_left hSplit
  exact ⟨m, hMatch, hRest⟩

/-- The texts of the target: the phrase, and in front of it the word `all`. -/
def targetTexts (i j : Nat) (a s : List Char) (all : Bool) : Texts :=
  (j, s) :: if all then [(i, a ++ [' '])] else []

/-- A line whose front and end can be read in one way only is cut around the target. -/
theorem texts_of_target (hTarget : Target names s all) (hMid : names.flatMap (' ' :: ·) = ' ' :: mid)
    (hFront : Front before front (mid ++ back) g₀) (hBack : Back after mid back g)
    (hLine : Squeezed (front ++ (mid ++ back)))
    (hPlain : ∀ p ∈ before ++ opt (allPart i) :: phrasePart j greedy :: after, p.plain = true) :
    ∃ m a, (lineOf (before ++ opt (allPart i) :: phrasePart j greedy :: after)).matchStart (front ++ (mid ++ back)) = some m ∧
      texts m.captures = g ++ targetTexts i j a s all ++ g₀ := by
  have hMidLine : Squeezed mid := hLine.of_part ⟨front, back, by simp⟩
  have hNewline : '\n' ∉ mid := newline_not_mem hMidLine
  cases hTarget with
  | @all a s hAll hPhrase =>
    obtain rfl : a ++ ' ' :: s = mid := by simpa using hMid
    have hNewline' : '\n' ∉ s := fun h => hNewline (List.mem_append_right a (List.mem_cons_of_mem ' ' h))
    have hWay : (inOrder (allPart i :: phrasePart j greedy :: after)).Yields (a ++ ' ' :: s ++ back) _ :=
      yields_all_phrase_of hBack.yields hPhrase.some hNewline' (hAll.same (by decide))
    obtain ⟨m, hMatch, ⟨h, hWith, hTexts⟩ | ⟨hNone, _⟩⟩ := opt_of_front hFront hLine hPlain (yields_opt.mpr (.inl hWay))
    · obtain ⟨a', s', hAll', hMid', rfl⟩ := eq_of_yields_all_phrase hBack hMidLine hWith
      obtain ⟨rfl, rfl⟩ := front_unique (hAll.unbroken (by decide)) (hAll'.unbroken (by decide)) hMid'
      refine ⟨m, a, hMatch, ?_⟩
      rw [hTexts, List.append_assoc g]
      rfl
    · exact absurd hWay (hNone _)
  | @some s hAll hPhrase =>
    obtain rfl : s = mid := by simpa using hMid
    have hWay : (inOrder (phrasePart j greedy :: after)).Yields (s ++ back) _ :=
      yields_phrase_of hBack.yields hPhrase.some hNewline
    obtain ⟨m, hMatch, ⟨h, hWith, _⟩ | ⟨_, h, hWithout, hTexts⟩⟩ :=
      opt_of_front hFront hLine hPlain (yields_opt.mpr (.inr hWay))
    · obtain ⟨a, r, hAll', hMid', _⟩ := eq_of_yields_all_phrase hBack hMidLine hWith
      exact absurd ⟨a, r, hAll', hMid'⟩ hAll
    · obtain rfl := eq_of_yields_phrase hBack hWithout
      exact ⟨m, [], hMatch, hTexts⟩

theorem lookup_targetTexts {a : List Char} (hFree : ∀ e ∈ g ++ g₀, e.1 ≠ i ∧ e.1 ≠ j) (hApart : i ≠ j) :
    (g ++ targetTexts i j a s all ++ g₀).lookup j = some s ∧ ((g ++ targetTexts i j a s all ++ g₀).lookup i).isSome = all ∧
      ∀ k, k ≠ i → k ≠ j → (g ++ targetTexts i j a s all ++ g₀).lookup k = (g ++ g₀).lookup k := by
  have hNone {h : Texts} {k : Nat} (hh : ∀ e ∈ h, e.1 ≠ k) : h.lookup k = none :=
    List.lookup_eq_none_iff.mpr fun e he => bne_iff_ne.mpr (hh e he).symm
  obtain ⟨hg, hg₀⟩ := List.forall_mem_append.mp hFree
  refine ⟨?_, ?_, ?_⟩
  · rw [List.append_assoc, List.lookup_append, hNone fun e he => (hg e he).2]
    simp [targetTexts]
  · rw [List.append_assoc, List.lookup_append, hNone fun e he => (hg e he).1, List.lookup_append,
      hNone fun e he => (hg₀ e he).1]
    have hSkip : (i == j) = false := beq_false_of_ne hApart
    cases all <;> simp [targetTexts, List.lookup_cons, hSkip]
  · intro k hi hj
    have hSkip : (targetTexts i j a s all).lookup k = none := by
      apply hNone
      unfold targetTexts
      cases all <;> simp [hi.symm, hj.symm]
    rw [List.append_assoc, List.lookup_append, List.lookup_append, hSkip, List.lookup_append]
    rfl

/-- The texts of the match of such a line. -/
theorem match_of_target (i j : Nat) (greedy : Bool) (hTarget : Target names s all) (hMid : names.flatMap (' ' :: ·) = ' ' :: mid)
    (hFront : Front before front (mid ++ back) g₀) (hBack : Back after mid back g)
    (hLine : Squeezed (front ++ (mid ++ back)))
    (hPlain : ∀ p ∈ before ++ opt (allPart i) :: phrasePart j greedy :: after, p.plain = true)
    (hFree : ∀ e ∈ g ++ g₀, e.1 ≠ i ∧ e.1 ≠ j) (hApart : i ≠ j) :
    ∃ m, (lineOf (before ++ opt (allPart i) :: phrasePart j greedy :: after)).matchStart (front ++ (mid ++ back)) = some m ∧
      m.text j = s ∧ m.has i = all ∧ ∀ k, k ≠ i → k ≠ j → m.text k = ((g ++ g₀).lookup k).getD [] := by
  obtain ⟨m, a, hMatch, hTexts⟩ := texts_of_target hTarget hMid hFront hBack hLine hPlain
  obtain ⟨hPhrase, hAll, hOthers⟩ := lookup_targetTexts hFree hApart
  refine ⟨m, hMatch, ?_, ?_, ?_⟩
  · rw [Match.text_eq, hTexts, hPhrase]
    rfl
  · rw [Match.has_eq, hTexts, hAll]
  · intro k hi hj
    rw [Match.text_eq, hTexts, hOthers k hi hj]

end Agenda.Command
