import Agenda.Proofs.Command.Target

/-! # Markers peeled off the end of a text

Every round of the loop takes one marker off the end, with the blanks in front of it, and it takes each
sort once only, so two rounds end it. A marker is the last word of the text, or the last two, and a
text has one last word: what stands in front of a marker stays as it is, even if it looks like a marker.
-/

namespace Agenda.Command

open Pattern Text

/-- The last word of a line, and what is left without it and without the blanks in front of it. -/
structure Ends (rest back line : List Char) : Prop where
  cut : ∃ bs, blanks.Takes bs ∧ line = rest ++ (bs ++ back)
  some : rest ≠ []
  trimmed : trim rest = rest
  unbroken : Unbroken back

/-- A text as it may be typed in one line: trimmed and not empty. -/
structure OneLine (x : List Char) : Prop where
  some : x ≠ []
  trimmed : trim x = x
  line : '\n' ∉ x

/-- Markers behind a text, none of them of a sort that another one behind it has: the tag and the
word of the priority. -/
inductive Markers : List Char → Option (List Char) → Option (List Char) → Prop
  | none : Markers [] none none
  | hash {bs t back : List Char} {word : Option (List Char)} (hBlanks : blanks.Takes bs) (hWord : Pattern.word.Takes t)
      (hBack : Markers back none word) : Markers (bs ++ '#' :: t ++ back) (some (lower t)) word
  | bang {bs p back : List Char} {tag : Option (List Char)} (hBlanks : blanks.Takes bs) (hWord : Pattern.word.Takes p)
      (hBack : Markers back tag none) : Markers (bs ++ '!' :: p ++ back) tag (some p)
  | as {bs a bs' t back : List Char} {word : Option (List Char)} (hBlanks : blanks.Takes bs) (hAs : SameWord "as" a)
      (hBlanks' : blanks.Takes bs') (hWord : Pattern.word.Takes t) (hBack : Markers back none word) :
      Markers (bs ++ a ++ (bs' ++ t) ++ back) (some (lower t)) word

variable {x y a l t w bs back rest rest' back' line text : List Char} {m : Match} {sign : Char} {p q : Peeled} {n : Nat}

/-! ## The last word -/

theorem forall_last {P : Char → Prop} (front : List Char) (hSome : back ≠ []) (h : ∀ c ∈ back, P c) :
    ∀ c ∈ (front ++ back).getLast?, P c := by
  intro c hc
  rw [List.getLast?_append_of_ne_nil front hSome] at hc
  exact h c (List.mem_of_mem_getLast? hc)

theorem no_blanks_in_front (hTrim : trim line = line) (hLine : line = bs ++ rest) (hBlank : ∀ b ∈ bs, blank b = true) :
    bs = [] := by
  cases bs with
  | nil => rfl
  | cons b bs =>
    have hHead := (trim_eq_self_iff.mp hTrim).1 b (by rw [hLine]; rfl)
    rw [hBlank b List.mem_cons_self] at hHead
    cases hHead

/-- Where a trimmed line is cut in front of blanks and a word, trimming what is left gives the rest. -/
theorem ends_of_cut (hTrim : trim line = line) (hBlanks : blanks.Takes bs) (hWord : Unbroken back)
    (hLine : line = l ++ (bs ++ back)) : Ends (trim l) back line := by
  obtain ⟨hBlank, hSome⟩ := takes_blanks.mp hBlanks
  obtain ⟨front, tail, hl, hFront, hTail⟩ := exists_trim l
  -- the blanks behind the rest go with those of the cut, and in front of it there are none
  have hRun : ∀ b ∈ tail ++ bs, blank b = true := List.forall_mem_append.mpr ⟨hTail, hBlank⟩
  have hRunSome : tail ++ bs ≠ [] := List.append_ne_nil_of_right_ne_nil tail hSome
  have hWhole : line = front ++ (trim l ++ ((tail ++ bs) ++ back)) := by
    rw [hLine]
    conv_lhs => rw [hl]
    simp
  obtain rfl := no_blanks_in_front hTrim hWhole hFront
  refine ⟨⟨tail ++ bs, takes_blanks.mpr ⟨hRun, hRunSome⟩, hWhole⟩, fun hNil => ?_, trim_trim l, hWord⟩
  rw [hNil] at hWhole
  exact hRunSome (no_blanks_in_front hTrim hWhole hRun)

theorem Ends.unique (h : Ends rest back line) (h' : Ends rest' back' line) : rest = rest' ∧ back = back' := by
  obtain ⟨bs, hBlanks, rfl⟩ := h.cut
  obtain ⟨bs', hBlanks', hLine⟩ := h'.cut
  obtain ⟨hBlank, hSome⟩ := takes_blanks.mp hBlanks
  obtain ⟨hBlank', hSome'⟩ := takes_blanks.mp hBlanks'
  rw [← List.append_assoc, ← List.append_assoc] at hLine
  obtain ⟨hFront, hWord⟩ := words_unique h.unbroken h'.unbroken (forall_last rest hSome hBlank)
    (forall_last rest' hSome' hBlank') hLine
  obtain ⟨hRest, _⟩ := ends_unique hBlank hBlank' (trim_eq_self_iff.mp h.trimmed).2 (trim_eq_self_iff.mp h'.trimmed).2 hFront
  exact ⟨hRest, hWord⟩

theorem trim_of_prefix (hTrim : trim (x ++ y) = x ++ y) (hLast : ∀ c ∈ x.getLast?, blank c = false) : trim x = x := by
  refine trim_eq_self_iff.mpr ⟨fun c hc => (trim_eq_self_iff.mp hTrim).1 c ?_, hLast⟩
  rw [List.head?_append, hc]
  rfl

theorem trim_append_word (hSome : x ≠ []) (hTrim : trim x = x) (hBack : Unbroken back) (hBackSome : back ≠ []) :
    trim (x ++ (bs ++ back)) = x ++ (bs ++ back) := by
  refine trim_eq_self_iff.mpr ⟨fun c hc => ?_, ?_⟩
  · rw [List.head?_append_of_ne_nil x hSome] at hc
    exact (trim_eq_self_iff.mp hTrim).1 c hc
  · rw [← List.append_assoc]
    exact forall_last _ hBackSome hBack

theorem newline_not_last (hTrim : trim line = line) : '\n' ∉ line.getLast? := by
  intro h
  cases (trim_eq_self_iff.mp hTrim).2 '\n' h

theorem as_ne_nil (h : SameWord "as" a) : a ≠ [] := by
  rintro rfl
  cases h

theorem unbroken_of_word (h : Pattern.word.Takes w) : Unbroken w :=
  fun c hc => blank_of_wordChar (h.1 c hc)

theorem word_ne_nil (h : Pattern.word.Takes w) : w ≠ [] :=
  List.ne_nil_of_length_pos h.2

theorem unbroken_marked (hSign : blank sign = false) (h : Pattern.word.Takes w) : Unbroken (sign :: w) :=
  List.forall_mem_cons.mpr ⟨hSign, unbroken_of_word h⟩

theorem OneLine.ends (hx : OneLine x) (hBack : Unbroken back) : Ends x back (x ++ ' ' :: back) where
  cut := ⟨[' '], takes_space, rfl⟩
  some := hx.some
  trimmed := hx.trimmed
  unbroken := hBack

theorem OneLine.append (hx : OneLine x) (hBack : Unbroken back) (hSome : back ≠ []) : OneLine (x ++ ' ' :: back) where
  some := List.append_ne_nil_of_left_ne_nil hx.some _
  trimmed := @trim_append_word x [' '] back hx.some hx.trimmed hBack hSome
  line := by
    rw [List.mem_append, List.mem_cons, not_or, not_or]
    refine ⟨hx.line, by decide, fun hMem => ?_⟩
    cases hBack '\n' hMem

theorem OneLine.marked (hx : OneLine x) (hSign : blank sign = false) (hWord : Pattern.word.Takes w) :
    OneLine (x ++ ' ' :: sign :: w) :=
  hx.append (unbroken_marked hSign hWord) (List.cons_ne_nil _ _)

/-! ## What the patterns find -/

/-- The beginning of a text before blanks and more, up to a word at its end. -/
def peelParts (middle : List Pattern) : List Pattern :=
  capture 1 (many false inLine 0 none) :: blanks :: (middle ++ [capture 2 Pattern.word])

theorem tagMarker_eq (line : List Char) : tagMarker.matchStart line = (lineOf (peelParts [char '#'])).matchStart line :=
  rfl

theorem priorityMarker_eq (line : List Char) :
    priorityMarker.matchStart line = (lineOf (peelParts [char '!'])).matchStart line :=
  rfl

theorem asMarker_eq (line : List Char) :
    asMarker.matchStart line = (lineOf (peelParts [keyword "as", blanks])).matchStart line :=
  rfl

variable {middle : List Pattern}

theorem cut_of_match (hBare : (inOrder middle).bare = true) (hTrim : trim line = line)
    (hMatch : (lineOf (peelParts middle)).matchStart line = some m) : ∃ bs u, blanks.Takes bs ∧
      (inOrder middle).Takes u ∧ Pattern.word.Takes (m.text 2) ∧ line = m.text 1 ++ (bs ++ (u ++ m.text 2)) := by
  obtain ⟨l, _, _, _, rfl, ⟨_, ⟨_, _, _, rfl⟩, rfl⟩, ⟨bs, _, _, _, rfl, hRun, hRest, rfl⟩, hTexts⟩ :=
    yields_of_match (newline_not_last hTrim) hMatch
  obtain ⟨u, _, _, _, rfl, hMid, ⟨w, _, _, _, rfl, ⟨_, hLast, rfl⟩, ⟨rfl, rfl⟩, rfl⟩, rfl⟩ := yields_append.mp hRest
  obtain ⟨hBlanks, rfl⟩ := (yields_iff_of_bare rfl).mp hRun
  obtain ⟨hMiddle, rfl⟩ := (yields_iff_of_bare hBare).mp hMid
  obtain ⟨hWord, rfl⟩ := (yields_iff_of_bare rfl).mp hLast
  have hLead : m.text 1 = l := by
    rw [Match.text_eq, hTexts]
    rfl
  have hText : m.text 2 = w := by
    rw [Match.text_eq, hTexts]
    rfl
  rw [hLead, hText]
  exact ⟨bs, u, hBlanks, hMiddle, hWord, by simp⟩

theorem exists_match (hBare : (inOrder middle).bare = true) (hPlain : ∀ p ∈ middle, p.plain = true) (hx : '\n' ∉ x)
    (hMiddle : (inOrder middle).Takes a) (hWord : Pattern.word.Takes w) :
    ∃ m, (lineOf (peelParts middle)).matchStart (x ++ ' ' :: (a ++ w)) = some m := by
  have hPlain : ∀ p ∈ peelParts middle, p.plain = true := by
    simp only [peelParts, List.forall_mem_cons, List.forall_mem_append]
    exact ⟨rfl, rfl, hPlain, rfl, List.forall_mem_nil _⟩
  have hLead : (many false inLine 0 none).Yields x [] := by
    refine ⟨fun c hc => bne_iff_ne.mpr ?_, Nat.zero_le _, by simp, rfl⟩
    rintro rfl
    exact hx hc
  have hEnd : (inOrder [capture 2 Pattern.word]).Yields w [(2, w)] :=
    ⟨w, [], [(2, w)], [], (List.append_nil w).symm, ⟨[], (yields_iff_of_bare rfl).mpr ⟨hWord, rfl⟩, rfl⟩, ⟨rfl, rfl⟩, rfl⟩
  have hBack : (inOrder (middle ++ [capture 2 Pattern.word])).Yields (a ++ w) [(2, w)] :=
    yields_append.mpr ⟨a, w, [], _, rfl, (yields_iff_of_bare hBare).mpr ⟨hMiddle, rfl⟩, hEnd, rfl⟩
  have hYields : (inOrder (peelParts middle)).Yields (x ++ ([' '] ++ (a ++ w))) [(2, w), (1, x)] :=
    ⟨x, _, [(1, x)], [(2, w)], rfl, ⟨[], hLead, rfl⟩, ⟨[' '], _, [], [(2, w)], rfl, yields_space, hBack, rfl⟩, rfl⟩
  exact exists_match_lineOf hPlain hYields

theorem ends_of_sign (hSign : blank sign = false) (hTrim : trim line = line)
    (hMatch : (lineOf (peelParts [char sign])).matchStart line = some m) :
    Ends (trim (m.text 1)) (sign :: m.text 2) line ∧ Pattern.word.Takes (m.text 2) := by
  obtain ⟨bs, u, hBlanks, ⟨_, _, rfl, ⟨c, hc, rfl⟩, rfl⟩, hWord, hLine⟩ := cut_of_match rfl hTrim hMatch
  obtain rfl := eq_of_beq hc
  exact ⟨ends_of_cut hTrim hBlanks (unbroken_marked hSign hWord) hLine, hWord⟩

theorem ends_of_as (hTrim : trim line = line) (hMatch : asMarker.matchStart line = some m) :
    ∃ a y, SameWord "as" a ∧ Pattern.word.Takes (m.text 2) ∧ Ends y (m.text 2) line ∧ Ends (trim (m.text 1)) a y := by
  rw [asMarker_eq] at hMatch
  obtain ⟨bs, _, hBlanks, ⟨a, _, rfl, hAs, bs', _, rfl, hBlanks', rfl⟩, hWord, hLine⟩ := cut_of_match rfl hTrim hMatch
  rw [takes_keyword] at hAs
  have hUnbroken : Unbroken a := SameWord.unbroken (by decide) hAs
  have hSplit : line = (m.text 1 ++ (bs ++ a)) ++ (bs' ++ m.text 2) := by
    rw [hLine]
    simp
  have hEnds := ends_of_cut hTrim hBlanks' (unbroken_of_word hWord) hSplit
  have hFront : trim (m.text 1 ++ (bs ++ a)) = m.text 1 ++ (bs ++ a) := by
    refine trim_of_prefix (hSplit ▸ hTrim) ?_
    rw [← List.append_assoc]
    exact forall_last _ (as_ne_nil hAs) hUnbroken
  rw [hFront] at hEnds
  exact ⟨a, _, hAs, hWord, hEnds, ends_of_cut hFront hBlanks hUnbroken rfl⟩

theorem match_of_sign (hSign : blank sign = false) (hx : OneLine x) (hWord : Pattern.word.Takes w) :
    ∃ m, (lineOf (peelParts [char sign])).matchStart (x ++ ' ' :: sign :: w) = some m ∧ trim (m.text 1) = x ∧
      m.text 2 = w := by
  have hMiddle : (inOrder [char sign]).Takes [sign] := ⟨[sign], [], rfl, ⟨sign, beq_self_eq_true sign, rfl⟩, rfl⟩
  obtain ⟨m, hMatch⟩ := exists_match rfl (List.forall_mem_singleton.mpr rfl) hx.line hMiddle hWord
  have hBack := unbroken_marked hSign hWord
  obtain ⟨hEnds, _⟩ := ends_of_sign hSign (hx.marked hSign hWord).trimmed hMatch
  obtain ⟨hRest, hLast⟩ := hEnds.unique (hx.ends hBack)
  exact ⟨m, hMatch, hRest, List.tail_eq_of_cons_eq hLast⟩

/-- A sign is not found where the last word of the line does not begin with it. -/
theorem no_sign (hSign : blank sign = false) (hx : OneLine x) (hBack : Unbroken back) (hFirst : ∃ c ∈ back.head?, c ≠ sign) :
    (lineOf (peelParts [char sign])).matchStart (x ++ ' ' :: back) = none := by
  obtain ⟨c, hHead, hOther⟩ := hFirst
  have hSome : back ≠ [] := by
    rintro rfl
    cases hHead
  by_contra hFound
  obtain ⟨m, hMatch⟩ := Option.ne_none_iff_exists'.mp hFound
  obtain ⟨hEnds, _⟩ := ends_of_sign hSign (hx.append hBack hSome).trimmed hMatch
  obtain ⟨_, rfl⟩ := hEnds.unique (hx.ends hBack)
  exact hOther (Option.some.inj hHead).symm

theorem match_of_as (hx : OneLine x) (hAs : SameWord "as" a) (hWord : Pattern.word.Takes t) :
    ∃ m, asMarker.matchStart (x ++ ' ' :: a ++ ' ' :: t) = some m ∧ trim (m.text 1) = x ∧ m.text 2 = t := by
  have hMiddle : (inOrder [keyword "as", blanks]).Takes (a ++ [' ']) :=
    ⟨_, _, rfl, takes_keyword.mpr hAs, [' '], [], rfl, takes_space, rfl⟩
  obtain ⟨m, hMatch⟩ := exists_match rfl (by decide) hx.line hMiddle hWord
  have hUnbroken : Unbroken a := SameWord.unbroken (by decide) hAs
  have hy := hx.append hUnbroken (as_ne_nil hAs)
  have hLine := hy.append (unbroken_of_word hWord) (word_ne_nil hWord)
  have hSame : x ++ ' ' :: (a ++ [' '] ++ t) = x ++ ' ' :: a ++ ' ' :: t := by simp
  rw [hSame] at hMatch
  obtain ⟨b, y, _, _, hLast, hEnds⟩ := ends_of_as hLine.trimmed hMatch
  obtain ⟨rfl, hText⟩ := hLast.unique (hy.ends (unbroken_of_word hWord))
  exact ⟨m, hMatch, (hEnds.unique (hx.ends hUnbroken)).1, hText⟩

/-! ## The loop -/

/-- The sorts of markers that were not taken yet. -/
def Peeled.left (p : Peeled) : Nat :=
  p.tag.isNone.toNat + p.priorityWord.isNone.toNat

theorem Peeled.step_cases (h : p.step? = some q) :
    (p.tag = none ∧ ∃ m, tagMarker.matchStart p.rest = some m ∧
      q = { p with rest := trim (m.text 1), tag := some (lower (m.text 2)) }) ∨
    (p.priorityWord = none ∧ ∃ m, priorityMarker.matchStart p.rest = some m ∧
      q = { p with rest := trim (m.text 1), priorityWord := some (m.text 2) }) := by
  unfold step? at h
  rcases eq_some_or_of_orElse h with h | ⟨_, h⟩ <;> split at h <;> cases h
  · exact .inl ⟨‹_›, _, ‹_›, rfl⟩
  · exact .inr ⟨‹_›, _, ‹_›, rfl⟩

theorem Peeled.left_of_step (h : p.step? = some q) : q.left + 1 = p.left := by
  rcases step_cases h with ⟨hOpen, _, _, rfl⟩ | ⟨hOpen, _, _, rfl⟩
  · simp [Peeled.left, hOpen, Nat.add_comm]
  · simp [Peeled.left, hOpen]

theorem Peeled.steps_of_ended (h : p.step? = none) (n : Nat) : steps n p = p := by
  cases n with
  | zero => rfl
  | succ n => rw [steps, h]

/-- As many rounds as there are sorts of markers left end the loop. -/
theorem Peeled.ended_of_left (h : p.left ≤ n) : (steps n p).step? = none := by
  induction n generalizing p with
  | zero =>
    -- a round would take a sort that is left, and none is
    rw [steps]
    by_contra hStep
    obtain ⟨q, hStep⟩ := Option.ne_none_iff_exists'.mp hStep
    have hLess := left_of_step hStep
    omega
  | succ n ih =>
    rw [steps]
    split
    · rename_i q hStep
      have hLess := left_of_step hStep
      exact ih (by omega)
    · assumption

theorem Peeled.steps_add (m n : Nat) (p : Peeled) : steps (m + n) p = steps n (steps m p) := by
  induction m generalizing p with
  | zero => rw [Nat.zero_add, steps]
  | succ m ih =>
    rw [Nat.succ_add, steps, steps]
    split
    · exact ih _
    · rw [steps_of_ended ‹_›]

/-- What the loop has left of a text, with the markers it took behind. -/
structure Peeled.Of (text : List Char) (p : Peeled) : Prop where
  cut : ∃ back, trim text = p.rest ++ back ∧ Markers back p.tag p.priorityWord
  trimmed : trim p.rest = p.rest
  some : trim text ≠ [] → p.rest ≠ []

theorem Peeled.of_step (hOf : p.Of text) (h : p.step? = some q) : q.Of text := by
  obtain ⟨back, hText, hMarkers⟩ := hOf.cut
  obtain ⟨hOpen, m, hMatch, rfl⟩ | ⟨hOpen, m, hMatch, rfl⟩ := step_cases h
  · obtain ⟨hEnds, hWord⟩ := ends_of_sign (by decide) hOf.trimmed (tagMarker_eq p.rest ▸ hMatch)
    obtain ⟨bs, hBlanks, hRest⟩ := hEnds.cut
    refine ⟨⟨bs ++ '#' :: m.text 2 ++ back, ?_, ?_⟩, hEnds.trimmed, fun _ => hEnds.some⟩
    · rw [hText, hRest, List.append_assoc]
    · rw [hOpen] at hMarkers
      exact .hash hBlanks hWord hMarkers
  · obtain ⟨hEnds, hWord⟩ := ends_of_sign (by decide) hOf.trimmed (priorityMarker_eq p.rest ▸ hMatch)
    obtain ⟨bs, hBlanks, hRest⟩ := hEnds.cut
    refine ⟨⟨bs ++ '!' :: m.text 2 ++ back, ?_, ?_⟩, hEnds.trimmed, fun _ => hEnds.some⟩
    · rw [hText, hRest, List.append_assoc]
    · rw [hOpen] at hMarkers
      exact .bang hBlanks hWord hMarkers

theorem Peeled.of_steps (hOf : p.Of text) (n : Nat) : (steps n p).Of text := by
  induction n generalizing p with
  | zero => exact hOf
  | succ n ih =>
    rw [steps]
    split
    · exact ih (of_step hOf ‹_›)
    · exact hOf

/-! ## What is left of a text -/

/-- The outcome for a text: what is left, the tag and the priority. The loop has ended, and one marker of
each sort at most is missing from the text. -/
structure Split (text rest : List Char) (tag : Option (List Char)) (priority : Option Priority) : Prop where
  ended : (Peeled.steps 2 { rest := trim text }).step? = none
  stays : ∀ n, Peeled.steps (2 + n) { rest := trim text } = Peeled.steps 2 { rest := trim text }
  cut : ∃ back word, trim text = rest ++ back ∧ Markers back tag word ∧ priority = word.bind Priority.ofWord?
  trimmed : trim rest = rest
  some : trim text ≠ [] → rest ≠ []

theorem split_splitMarkers (text : List Char) :
    Split text (splitMarkers text).1 (splitMarkers text).2.1 (splitMarkers text).2.2 := by
  have hEnded : (Peeled.steps 2 { rest := trim text }).step? = none := Peeled.ended_of_left (Nat.le_refl 2)
  have hStays (n : Nat) : Peeled.steps (2 + n) { rest := trim text } = Peeled.steps 2 { rest := trim text } := by
    rw [Peeled.steps_add, Peeled.steps_of_ended hEnded]
  have hOf : (Peeled.steps 2 { rest := trim text }).Of text :=
    Peeled.of_steps ⟨⟨[], (List.append_nil _).symm, .none⟩, trim_trim text, id⟩ 2
  obtain ⟨back, hText, hMarkers⟩ := hOf.cut
  unfold splitMarkers
  dsimp only
  split
  · rename_i m hTag hMatch
    obtain ⟨a, y, hAs, hWord, hLast, hEnds⟩ := ends_of_as hOf.trimmed hMatch
    obtain ⟨bs', hBlanks', hLine⟩ := hLast.cut
    obtain ⟨bs, hBlanks, rfl⟩ := hEnds.cut
    refine ⟨hEnded, hStays, ⟨bs ++ a ++ (bs' ++ m.text 2) ++ back, _, ?_, ?_, rfl⟩, hEnds.trimmed, fun _ => hEnds.some⟩
    · rw [hText, hLine]
      simp
    · rw [hTag] at hMarkers
      exact .as hBlanks hAs hBlanks' hWord hMarkers
  · exact ⟨hEnded, hStays, ⟨back, _, hText, hMarkers, rfl⟩, hOf.trimmed, hOf.some⟩

/-! ## Markers behind any text -/

variable {tag word : Option (List Char)}

theorem step_hash (hx : OneLine x) (ht : Pattern.word.Takes t) : Peeled.step? ⟨x ++ ' ' :: '#' :: t, none, word⟩ =
    some ⟨x, some (lower t), word⟩ := by
  obtain ⟨m, hMatch, hRest, hWord⟩ := @match_of_sign x t '#' (by decide) hx ht
  rw [← tagMarker_eq] at hMatch
  simp only [Peeled.step?, hMatch, hRest, hWord]
  rfl

theorem no_tag (hx : OneLine x) (hBack : Unbroken back) (hFirst : ∃ c ∈ back.head?, c ≠ '#') :
    tagMarker.matchStart (x ++ ' ' :: back) = none :=
  (tagMarker_eq _).trans (no_sign (by decide) hx hBack hFirst)

theorem step_bang (hx : OneLine x) (hw : Pattern.word.Takes w) :
    Peeled.step? ⟨x ++ ' ' :: '!' :: w, tag, none⟩ = some ⟨x, tag, some w⟩ := by
  obtain ⟨m, hMatch, hRest, hWord⟩ := @match_of_sign x w '!' (by decide) hx hw
  rw [← priorityMarker_eq] at hMatch
  -- the tag is looked for first, but the last word has the other sign
  have hNone := no_tag hx (unbroken_marked (by decide) hw) ⟨'!', rfl, by decide⟩
  cases tag <;> simp only [Peeled.step?, hMatch, hRest, hWord, hNone] <;> rfl

theorem step_word (hx : OneLine x) (ht : Pattern.word.Takes t) : Peeled.step? ⟨x ++ ' ' :: t, none, word⟩ = none := by
  obtain ⟨c, t, rfl⟩ := List.exists_cons_of_ne_nil (word_ne_nil ht)
  have hFirst (sign : Char) (hSign : wordChar sign = false) : ∃ d ∈ (c :: t).head?, d ≠ sign := by
    refine ⟨c, rfl, ?_⟩
    rintro rfl
    cases hSign.symm.trans (ht.1 c List.mem_cons_self)
  have hTag := no_tag hx (unbroken_of_word ht) (hFirst '#' (by decide))
  have hPriority := no_sign (by decide) hx (unbroken_of_word ht) (hFirst '!' (by decide))
  rw [← priorityMarker_eq] at hPriority
  simp only [Peeled.step?, hTag, hPriority]
  rfl

theorem steps_two {r : Peeled} (hFirst : p.step? = some q) (hSecond : q.step? = some r) : Peeled.steps 2 p = r := by
  simp only [Peeled.steps, hFirst, hSecond]

theorem steps_one (hFirst : p.step? = some q) (hEnded : q.step? = none) : Peeled.steps 2 p = q := by
  simp only [Peeled.steps, hFirst, hEnded]

theorem splitMarkers_of_tag (hTrim : trim text = text) (hSteps : Peeled.steps 2 { rest := text } = ⟨x, some t, word⟩) :
    splitMarkers text = (x, some t, word.bind Priority.ofWord?) := by
  rw [splitMarkers, hTrim, hSteps]

theorem splitMarkers_of_as (hTrim : trim text = text) (hx : OneLine x) (hAs : SameWord "as" a) (ht : Pattern.word.Takes t)
    (hSteps : Peeled.steps 2 { rest := text } = ⟨x ++ ' ' :: a ++ ' ' :: t, none, word⟩) :
    splitMarkers text = (x, some (lower t), word.bind Priority.ofWord?) := by
  obtain ⟨m, hMatch, hRest, hWord⟩ := match_of_as hx hAs ht
  rw [splitMarkers, hTrim, hSteps]
  simp only [hMatch, hRest, hWord]

/-- The loop ends for every text, having taken one marker of each sort at most. The last markers of a
line are split off in any order, whatever stands in front of them. -/
theorem splitMarkers_peels :
    (∀ text, Split text (splitMarkers text).1 (splitMarkers text).2.1 (splitMarkers text).2.2) ∧
    ∀ x t p, OneLine x → Pattern.word.Takes t → Pattern.word.Takes p →
      splitMarkers (x ++ ' ' :: '#' :: t ++ ' ' :: '!' :: p) = (x, some (lower t), Priority.ofWord? p) ∧
      splitMarkers (x ++ ' ' :: '!' :: p ++ ' ' :: '#' :: t) = (x, some (lower t), Priority.ofWord? p) ∧
      splitMarkers (x ++ ' ' :: "as".toList ++ ' ' :: t) = (x, some (lower t), none) ∧
      splitMarkers (x ++ ' ' :: "as".toList ++ ' ' :: t ++ ' ' :: '!' :: p) = (x, some (lower t), Priority.ofWord? p) := by
  refine ⟨split_splitMarkers, fun x t p hx ht hp => ?_⟩
  have hAs : SameWord "as" "as".toList := Spelt.same (by decide) rfl
  have hHash : OneLine (x ++ ' ' :: '#' :: t) := hx.marked (by decide) ht
  have hBang : OneLine (x ++ ' ' :: '!' :: p) := hx.marked (by decide) hp
  have hSuffix := hx.append (SameWord.unbroken (by decide) hAs) (by decide)
  have hNamed := hSuffix.append (unbroken_of_word ht) (word_ne_nil ht)
  refine ⟨?_, ?_, ?_, ?_⟩
  · have hLine := @OneLine.marked _ p '!' hHash (by decide) hp
    exact splitMarkers_of_tag hLine.trimmed (steps_two (step_bang hHash hp) (step_hash hx ht))
  · have hLine := @OneLine.marked _ t '#' hBang (by decide) ht
    exact splitMarkers_of_tag hLine.trimmed (steps_two (step_hash hBang ht) (step_bang hx hp))
  · exact splitMarkers_of_as hNamed.trimmed hx hAs ht (Peeled.steps_of_ended (step_word hSuffix ht) 2)
  · have hLine := @OneLine.marked _ p '!' hNamed (by decide) hp
    exact splitMarkers_of_as hLine.trimmed hx hAs ht (steps_one (step_bang hNamed hp) (step_word hSuffix ht))

/-- A text that ends in markers itself keeps them. -/
theorem markers_kept : splitMarkers "call #2 !x #Home !HIGH".toList =
    ("call #2 !x".toList, some "home".toList, some .high) := by
  obtain ⟨hSplit, _⟩ := splitMarkers_peels.2 "call #2 !x".toList "Home".toList "HIGH".toList
    ⟨by decide, by decide, by decide⟩ ⟨List.all_eq_true.mp (by decide), by decide⟩
    ⟨List.all_eq_true.mp (by decide), by decide⟩
  exact hSplit

end Agenda.Command
