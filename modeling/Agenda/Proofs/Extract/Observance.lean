import Agenda.Proofs.Extract.Kept
import Agenda.Proofs.Extract.Marked
import Agenda.Proofs.When.Span

/-! # Observances stay in the title

The title that the patterns leave of a text is given back the names of observances that it lost. Only
one thing is done to it afterwards: its first character is put in upper case. That leaves the names
whole words, unless a name stands right behind a combining iota at the front of the title. Its upper
case is a letter, and the name is then no longer a word.
-/

namespace Agenda

namespace Pattern

variable {p : Pattern} {cs : List Char} {before : Option Char} {rest : List Char} {m : Match}

theorem fits_keyword {s : String} : (keyword s).Fits before cs rest ↔ Text.SameWord s cs := by
  refine ⟨fun h => takes_keyword.mp h.takes, fun h => ?_⟩
  unfold keyword Text.SameWord at *
  generalize s.toList = letters at h ⊢
  induction h generalizing before with
  | nil => rfl
  | @cons letter c _ cs hLetter _ ih => exact ⟨[c], cs, rfl, ⟨c, hLetter, rfl⟩, ih⟩

theorem subset_of_search (h : p.search cs = some m) (n : Nat) : m.text n ⊆ cs := by
  obtain ⟨front, stretch, back, rfl, _, hCovers⟩ := covers_of_searchFrom h
  intro c hc
  exact List.mem_append_right _ (List.mem_append_left _ ((text_within hCovers.yields).subset hc))

end Pattern

namespace Extract

open Pattern

variable {text title rest word back front : List Char} {now due : Moment} {term u : String}

/-! ## Whole words -/

/-- The text has the term as a whole word, in any case. -/
def HoldsTerm (term : String) (text : List Char) : Prop :=
  ∃ front word back, text = front ++ (word ++ back) ∧ Text.SameWord term word ∧ isWord front.getLast? = false ∧
    isWord back.head? = false

theorem plain_of_observance : ∀ term ∈ observances, Text.Plain term := by
  decide

theorem length_observance : ∀ term ∈ observances, 3 ≤ term.toList.length := by
  decide

/-- A term is a word in whatever case. -/
theorem word_of_sameWord (hTerm : term ∈ observances) (h : Text.SameWord term word) :
    3 ≤ word.length ∧ ∀ c ∈ word, Text.wordChar c = true := by
  constructor
  · rw [← h.length_eq]
    exact length_observance term hTerm
  · intro c hc
    obtain ⟨letter, hLetter, hSame⟩ := Attempt.exists_of_mem_paired h hc
    exact Text.wordChar_of_sameLetter (List.all_eq_true.mp (plain_of_observance term hTerm) letter hLetter) hSame

theorem found_wholeWord_iff (hTerm : term ∈ observances) : (wholeWord term).found text = true ↔ HoldsTerm term text := by
  have hEnds : ∀ {word}, Text.SameWord term word → ∀ front back : List Char,
      isWord (word ++ back).head? = true ∧ isWord (word.getLast?.or front.getLast?) = true := by
    intro word h front back
    obtain ⟨hLength, hWord⟩ := word_of_sameWord hTerm h
    have hSome : word ≠ [] := by
      rintro rfl
      cases hLength
    constructor
    · rw [List.head?_append_of_ne_nil _ hSome, List.head?_eq_some_head hSome]
      exact hWord _ (List.head_mem hSome)
    · rw [List.getLast?_eq_some_getLast hSome]
      exact hWord _ (List.getLast_mem hSome)
  rw [found_iff]
  constructor
  · rintro ⟨front, _, back, rfl, _, _, rfl, ⟨_, word, rfl, ⟨rfl, hFront⟩, hWord⟩, rfl, hBack⟩
    have hSame := fits_keyword.mp hWord
    simp only [List.nil_append, List.append_nil] at hFront hBack hSame ⊢
    obtain ⟨hHead, hLast⟩ := hEnds hSame front back
    rw [hHead] at hFront
    rw [hLast] at hBack
    exact ⟨front, word, back, rfl, hSame, by simpa using hFront, by simpa using hBack⟩
  · rintro ⟨front, word, back, rfl, hSame, hFront, hBack⟩
    obtain ⟨hHead, hLast⟩ := hEnds hSame front back
    refine ⟨front, word, back, rfl, word, [], (List.append_nil word).symm, ⟨[], word, rfl, ⟨rfl, ?_⟩, fits_keyword.mpr hSame⟩,
      rfl, ?_⟩
    · rw [List.nil_append, hHead, hFront]
      exact Bool.false_ne_true
    · rw [hLast, hBack]
      exact Bool.true_eq_false.mp

theorem near_wholeWord : ∀ term ∈ observances, (wholeWord term).near = true := by
  decide

theorem holdsTerm_trim_iff (hTerm : term ∈ observances) : HoldsTerm term (Text.trim text) ↔ HoldsTerm term text := by
  have hPlain := plain_of_observance term hTerm
  have hSome : term ≠ "" := by
    rintro rfl
    exact absurd hTerm (by decide)
  have hBegins : Begins (keywords [term]) :=
    begins_keywords (List.forall_mem_singleton.mpr hPlain) (by simpa using hSome.symm)
  have hFinishes : Finishes (edge ++ keyword term) := (finishes_keyword hPlain hSome).append _
  rw [← found_wholeWord_iff hTerm, ← found_wholeWord_iff hTerm,
    found_trim (near_wholeWord term hTerm) (hBegins.edge_append.append _) hFinishes.append_edge]

theorem HoldsTerm.append (h : HoldsTerm u title) (hRest : isWord rest.head? = false) : HoldsTerm u (title ++ rest) := by
  obtain ⟨front, word, back, rfl, hSame, hFront, hBack⟩ := h
  refine ⟨front, word, back ++ rest, by simp, hSame, hFront, ?_⟩
  cases back with
  | nil => exact hRest
  | cons c back => exact hBack

theorem holdsTerm_behind_space (title : List Char) (term : String) : HoldsTerm term (title ++ ' ' :: term.toList) := by
  have hSpace : isWord (title ++ [' ']).getLast? = false := by
    rw [List.getLast?_concat]
    decide
  refine ⟨title ++ [' '], term.toList, [], by simp, ?_, hSpace, rfl⟩
  exact List.forall₂_same.mpr fun c _ => by simp [Text.sameLetter]

theorem HoldsTerm.not_noise (hTerm : term ∈ observances) (h : HoldsTerm term title) : isNoise title = false := by
  obtain ⟨front, word, back, rfl, hSame, -, -⟩ := h
  obtain ⟨hLength, hWord⟩ := word_of_sameWord hTerm hSame
  obtain ⟨c, cs, rfl⟩ := List.exists_cons_of_length_pos (by omega : 0 < word.length)
  have hc := hWord c List.mem_cons_self
  have hPunctuation : ".,!?;:".toList.contains c = false := by
    rw [List.contains_eq_mem, decide_eq_false_iff_not]
    intro hMem
    have hNone : ".,!?;:".toList.filter Text.wordChar = [] := by decide
    exact List.not_mem_nil (hNone ▸ List.mem_filter.mpr ⟨hMem, hc⟩)
  have hVisible := Text.blank_of_wordChar hc
  unfold isNoise
  rw [Bool.or_eq_false_iff, decide_eq_false_iff_not, List.all_eq_false]
  refine ⟨by simp at hLength ⊢; omega, c, by simp, by simp only [hVisible, hPunctuation]; decide⟩

/-! ## Terms given back -/

/-- The title with the term, behind a space if it does not have it. -/
def givenBack (title : List Char) (term : String) : List Char :=
  if (wholeWord term).found title then title else Text.trim (title ++ ' ' :: term.toList)

theorem protectTerms_eq (text title : List Char) :
    protectTerms text title = (observances.filter fun term => (wholeWord term).found text).foldl givenBack title :=
  rfl

theorem holdsTerm_givenBack (hTerm : term ∈ observances) : HoldsTerm term (givenBack title term) := by
  unfold givenBack
  split
  · rename_i hFound
    exact (found_wholeWord_iff hTerm).mp hFound
  · exact (holdsTerm_trim_iff hTerm).mpr (holdsTerm_behind_space title term)

theorem HoldsTerm.givenBack (h : HoldsTerm u title) (hOther : u ∈ observances) (term : String) :
    HoldsTerm u (givenBack title term) := by
  unfold Extract.givenBack
  split
  · exact h
  · exact (holdsTerm_trim_iff hOther).mpr (h.append rfl)

theorem holdsTerm_foldl {terms : List String} (hTerms : ∀ u ∈ terms, u ∈ observances) (hTerm : term ∈ observances)
    (h : term ∈ terms ∨ HoldsTerm term title) : HoldsTerm term (terms.foldl givenBack title) := by
  induction terms generalizing title with
  | nil => exact h.resolve_left List.not_mem_nil
  | cons u terms ih =>
    obtain ⟨hOther, hTerms⟩ := List.forall_mem_cons.mp hTerms
    apply ih hTerms
    rcases h with h | h
    · rcases List.mem_cons.mp h with rfl | h
      · exact .inr (holdsTerm_givenBack hOther)
      · exact .inl h
    · exact .inr (h.givenBack hTerm u)

theorem holdsTerm_protectTerms (hTerm : term ∈ observances) (h : HoldsTerm term text) (title : List Char) :
    HoldsTerm term (protectTerms text title) := by
  rw [protectTerms_eq]
  refine holdsTerm_foldl (fun u hu => (List.mem_filter.mp hu).1) hTerm (.inl ?_)
  exact List.mem_filter.mpr ⟨hTerm, (found_wholeWord_iff hTerm).mpr h⟩

/-! ## The first character in upper case -/

/-- The term stands right behind a combining iota at the front. -/
def Glued (term : String) (title : List Char) : Prop :=
  ∃ word back, title = Text.combiningIota :: (word ++ back) ∧ Text.SameWord term word ∧ isWord back.head? = false

/-- The first letter of the term is still that letter. -/
theorem exists_capitalize (hTerm : term ∈ observances) (h : Text.SameWord term word) (back : List Char) :
    ∃ word', Text.SameWord term word' ∧ Text.capitalize (word ++ back) = word' ++ back := by
  obtain ⟨c, cs, rfl⟩ := List.exists_cons_of_length_pos (Nat.lt_of_lt_of_le (by decide) (word_of_sameWord hTerm h).1)
  obtain ⟨letter, letters, hLetter, hRest, hLetters⟩ := List.forall₂_cons_right_iff.mp h
  have hPlain : Text.plainLetter letter = true :=
    List.all_eq_true.mp (plain_of_observance term hTerm) letter (hLetters ▸ List.mem_cons_self)
  obtain ⟨d, hUpper, hSame⟩ := Text.sameLetter_upperChar hPlain hLetter
  refine ⟨d :: cs, ?_, ?_⟩
  · unfold Text.SameWord
    rw [hLetters]
    exact .cons hSame hRest
  · rw [List.cons_append, Text.capitalize, hUpper]
    rfl

theorem HoldsTerm.capitalize (hTerm : term ∈ observances) (h : HoldsTerm term title) (hGlued : ¬ Glued term title) :
    HoldsTerm term (Text.capitalize title) := by
  obtain ⟨front, word, back, rfl, hSame, hFront, hBack⟩ := h
  -- only the character in front of the term decides whether it stays a whole word
  cases front with
  | nil =>
    obtain ⟨word', hSame', hText⟩ := exists_capitalize hTerm hSame back
    exact ⟨[], word', back, hText, hSame', hFront, hBack⟩
  | cons c front =>
    cases front with
    | nil =>
      have hIota : c ≠ Text.combiningIota := by
        rintro rfl
        exact hGlued ⟨word, back, rfl, hSame, hBack⟩
      obtain ⟨d, hUpper, hd⟩ := Text.upperChar_of_not_wordChar hFront hIota
      exact ⟨[d], word, back, congrArg (· ++ (word ++ back)) hUpper, hSame, hd, hBack⟩
    | cons d front =>
      refine ⟨Text.upperChar c ++ d :: front, word, back, by simp [Text.capitalize], hSame, ?_, hBack⟩
      rw [List.getLast?_append_of_ne_nil _ (List.cons_ne_nil d front)]
      rwa [List.getLast?_cons_cons] at hFront

/-! ## What a title is drawn from -/

/-- The characters beyond ASCII are those of the text, but for the blanks. -/
def Drawn (text title : List Char) : Prop :=
  ∀ c ∈ title, 128 ≤ c.toNat → Text.blank c = false → c ∈ text

theorem drawn_of_subset (h : title ⊆ text) : Drawn text title :=
  fun _ hc _ _ => h hc

theorem Drawn.trans (hRest : Drawn text rest) (h : Drawn rest title) : Drawn text title :=
  fun c hc hFar hBlank => hRest c (h c hc hFar hBlank) hFar hBlank

theorem drawn_squeezeFrom (least : Nat) (text : List Char) : Drawn text (Text.squeezeFrom least [] text) := by
  intro c hc _ hBlank
  have hMem : c ∈ Text.withoutBlanks (Text.squeezeFrom least [] text) := List.mem_filter.mpr ⟨hc, by simp [hBlank]⟩
  rw [Text.withoutBlanks_squeezeFrom fun _ h => absurd h List.not_mem_nil] at hMem
  exact List.mem_of_mem_filter hMem

theorem drawn_trim (text : List Char) : Drawn text (Text.trim text) :=
  drawn_of_subset (Text.trim_sublist text).subset

theorem drawn_erases (ps : List Pattern) (text : List Char) : Drawn text (ps.foldl (fun text p => p.erase text) text) := by
  induction ps generalizing text with
  | nil => exact drawn_of_subset (List.Subset.refl text)
  | cons p ps ih => exact (drawn_of_subset fun c hc => mem_of_mem_erase hc).trans (ih (p.erase text))

theorem drawn_stripMarkers (text : List Char) : Drawn text (stripMarkers text) :=
  (drawn_erases _ text).trans ((drawn_squeezeFrom 2 _).trans (drawn_trim _))

theorem drawn_tidy (text : List Char) : Drawn text (tidy text) := by
  have hStripped : Text.stripBoth titlePunctuation.contains (danglingLink.erase (Text.trim (Text.squeeze text))) ⊆
      danglingLink.erase (Text.trim (Text.squeeze text)) :=
    ((List.rdropWhile_prefix _ _).sublist.trans (List.dropWhile_sublist _)).subset
  exact (drawn_squeezeFrom 1 text).trans ((drawn_trim _).trans
    (drawn_of_subset fun c hc => mem_of_mem_erase (hStripped hc)))

theorem drawn_stripped (text : List Char) : Drawn text (tidy (stripMarkers text)) :=
  (drawn_stripMarkers text).trans (drawn_tidy _)

theorem drawn_cutFrom (index : Nat) (text : List Char) (spans : List (Nat × Nat)) :
    Drawn text (When.cutFrom index text spans) := by
  induction spans generalizing index text with
  | nil => exact drawn_of_subset (List.Subset.refl text)
  | cons span spans ih =>
    intro c hc hFar hBlank
    rcases List.mem_append.mp hc with hc | hc
    · exact List.mem_of_mem_take hc
    · rcases List.mem_cons.mp hc with rfl | hc
      · cases hBlank
      · exact List.mem_of_mem_drop (ih span.2 _ c hc hFar hBlank)

theorem drawn_stripDates (h : When.stripDates text now = .ok rest) : Drawn text rest := by
  obtain ⟨found, _, h⟩ := Attempt.bind_eq_ok.mp h
  cases found with
  | none =>
    cases h
    exact drawn_of_subset (List.Subset.refl text)
  | some found =>
    cases h
    exact (drawn_cutFrom 0 text found.spans).trans ((drawn_squeezeFrom 2 _).trans (drawn_trim _))

theorem drawn_firstTime {splits : List Match} (h : firstTime rest now splits = .ok (some (title, due))) :
    Drawn rest title := by
  induction splits with
  | nil => cases h
  | cons split splits ih =>
    obtain ⟨found, _, h⟩ := Attempt.bind_eq_ok.mp h
    cases found with
    | none => exact ih h
    | some found =>
      obtain ⟨rfl, rfl⟩ := Prod.mk.inj (Option.some.inj (Attempt.pure_eq_ok.mp h))
      exact (drawn_of_subset (List.take_subset _ _)).trans (drawn_stripped _)

theorem drawn_splitTimeFirst (h : splitTimeFirst text now = .ok (some (title, due))) : Drawn text title := by
  unfold splitTimeFirst at h
  split at h
  · cases h
  · rename_i hSearch
    obtain ⟨found, _, h⟩ := Attempt.bind_eq_ok.mp h
    obtain ⟨_, rfl, hPair⟩ := Option.map_eq_some_iff.mp (Attempt.pure_eq_ok.mp h)
    obtain ⟨rfl, rfl⟩ := Prod.mk.inj hPair
    exact (drawn_of_subset (subset_of_search hSearch 2)).trans (drawn_stripped _)

theorem drawn_splitTimeLast (h : splitTimeLast text now = .ok (some (title, due))) : Drawn text title := by
  unfold splitTimeLast at h
  split at h
  · cases h
  · exact (drawn_of_subset (subset_of_search ‹_› 1)).trans (drawn_firstTime h)

theorem drawn_splitAnywhere (h : splitAnywhere text now = .ok (some (title, due))) : Drawn text title := by
  unfold splitAnywhere at h
  split at h
  · cases h
  · rename_i hSearch
    obtain ⟨found, _, h⟩ := Attempt.bind_eq_ok.mp h
    cases found with
    | none => cases h
    | some found =>
      obtain ⟨rest, hStripped, h⟩ := Attempt.bind_eq_ok.mp h
      obtain ⟨rfl, rfl⟩ := Prod.mk.inj (Option.some.inj (Attempt.pure_eq_ok.mp h))
      exact (drawn_of_subset (subset_of_search hSearch 1)).trans
        ((drawn_stripMarkers _).trans ((drawn_stripDates hStripped).trans (drawn_tidy rest)))

theorem drawn_splitReminder (h : splitReminder text now = .ok (some (title, due))) : Drawn text title := by
  obtain ⟨first, hFirst, h⟩ := Attempt.bind_eq_ok.mp h
  cases first with
  | some found =>
    cases h
    exact drawn_splitTimeFirst hFirst
  | none =>
    obtain ⟨last, hLast, h⟩ := Attempt.bind_eq_ok.mp h
    cases last with
    | some found =>
      cases h
      exact drawn_splitTimeLast hLast
    | none => exact drawn_splitAnywhere h

theorem drawn_splitGeneric {due : Option Moment} (h : splitGeneric text now = .ok (title, due)) : Drawn text title := by
  obtain ⟨read, _, h⟩ := Attempt.bind_eq_ok.mp h
  obtain ⟨rfl, rfl⟩ := Prod.mk.inj (Attempt.pure_eq_ok.mp h)
  have hIntro : Drawn text (reminderIntro.replaceFirst (fun _ => []) text) :=
    drawn_of_subset fun c hc => mem_of_mem_replaceFrom laid_search hc
  exact hIntro.trans ((drawn_stripMarkers _).trans ((drawn_trim _).trans
    ((drawn_of_subset fun c hc => mem_of_mem_erase hc).trans ((drawn_erases datePhrases _).trans (drawn_tidy _)))))

/-- The terms are written in ASCII. -/
theorem Drawn.givenBack (h : Drawn text title) (hTerm : term ∈ observances) : Drawn text (givenBack title term) := by
  unfold Extract.givenBack
  split
  · exact h
  · refine Drawn.trans ?_ (drawn_trim _)
    intro c hc hFar hBlank
    rcases List.mem_append.mp hc with hc | hc
    · exact h c hc hFar hBlank
    · rcases List.mem_cons.mp hc with rfl | hc
      · cases hBlank
      · have hPlain := Text.plainLetter_iff.mp (List.all_eq_true.mp (plain_of_observance term hTerm) c hc)
        omega

theorem Drawn.protectTerms (h : Drawn text title) : Drawn text (protectTerms text title) := by
  rw [protectTerms_eq]
  have hTerms : ∀ u ∈ observances.filter fun term => (wholeWord term).found text, u ∈ observances :=
    fun u hu => (List.mem_filter.mp hu).1
  revert hTerms
  generalize (observances.filter fun term => (wholeWord term).found text) = terms
  intro hTerms
  induction terms generalizing title with
  | nil => exact h
  | cons term terms ih =>
    obtain ⟨hTerm, hTerms⟩ := List.forall_mem_cons.mp hTerms
    exact ih (h.givenBack hTerm) hTerms

/-! ## The tier -/

theorem drawn_of_heuristicTask {t : ParsedTask} (h : heuristicTask text now = .ok t) :
    ∃ left, Drawn text left ∧ t.title = String.ofList (Text.capitalize
      (if isNoise (protectTerms text left) then orTask (tidy (stripMarkers (reminderIntro.replaceFirst (fun _ => []) text)))
        else protectTerms text left)) := by
  unfold heuristicTask at h
  extract_lets tags priority at h
  obtain ⟨split, hSplit, h⟩ := Attempt.bind_eq_ok.mp h
  cases split with
  | some found =>
    dsimp only at h
    rw [pure_bind] at h
    obtain ⟨reminder, _, h⟩ := Attempt.bind_eq_ok.mp h
    obtain rfl := Attempt.pure_eq_ok.mp h
    exact ⟨_, drawn_splitReminder hSplit, rfl⟩
  | none =>
    obtain ⟨⟨title, due⟩, hGeneric, h⟩ := Attempt.bind_eq_ok.mp h
    obtain ⟨reminder, _, h⟩ := Attempt.bind_eq_ok.mp h
    obtain rfl := Attempt.pure_eq_ok.mp h
    exact ⟨_, drawn_splitGeneric hGeneric, rfl⟩

/-- A term that a title holds is still there when the title is put in upper case, unless a combining iota of the
text stands in front of it. -/
theorem holdsTerm_or_glued (hTerm : term ∈ observances) (h : HoldsTerm term title) (hDrawn : Drawn text title) :
    HoldsTerm term (Text.capitalize title) ∨ Text.combiningIota ∈ text ∧ ∃ word back,
      Text.SameWord term word ∧ isWord back.head? = false ∧ Text.capitalize title = 'Ι' :: (word ++ back) := by
  by_cases hGlued : Glued term title
  · obtain ⟨word, back, rfl, hSame, hBack⟩ := hGlued
    have hUpper : Text.upperChar Text.combiningIota = ['Ι'] := by decide
    refine .inr ⟨hDrawn _ List.mem_cons_self (by decide) (by decide), word, back, hSame, hBack, ?_⟩
    rw [Text.capitalize, hUpper]
    rfl
  · exact .inl (h.capitalize hTerm hGlued)

/-- There is always a task, no tag of it is an observance, and each observance of the text is a whole word of the
title. The exception is one that stands behind a combining iota at the front of the title. -/
theorem heuristic_keeps_observances (text : List Char) (now : Moment) :
    ∃ t, heuristic text now = ⟨.heuristic, .ok t⟩ ∧ (∀ tag ∈ t.tags, tag ∉ observances) ∧
      ∀ term ∈ observances, HoldsTerm term text →
        HoldsTerm term t.title.toList ∨ Text.combiningIota ∈ text ∧ ∃ word back, Text.SameWord term word ∧
          isWord back.head? = false ∧ t.title.toList = 'Ι' :: (word ++ back) := by
  unfold heuristic
  split
  · rename_i t hTask
    refine ⟨t, rfl, ?_, ?_⟩
    · rw [(patterned_of_heuristicTask hTask).tags]
      intro tag hTag hTerm
      have hKept := (List.mem_filter.mp hTag).2
      rw [List.contains_iff_mem.mpr hTerm] at hKept
      cases hKept
    · intro term hTerm hText
      obtain ⟨left, hDrawn, hTitle⟩ := drawn_of_heuristicTask hTask
      have hHolds := holdsTerm_protectTerms hTerm hText left
      rw [hHolds.not_noise hTerm, if_neg Bool.false_ne_true] at hTitle
      rw [hTitle, String.toList_ofList]
      exact holdsTerm_or_glued hTerm hHolds hDrawn.protectTerms
  · refine ⟨rawTask text, rfl, fun tag hTag => absurd hTag List.not_mem_nil, ?_⟩
    intro term hTerm hText
    have hHolds := (holdsTerm_trim_iff hTerm).mpr hText
    have hSome := ne_nil_of_not_noise (hHolds.not_noise hTerm)
    have hTitle : (rawTask text).title.toList = Text.capitalize (Text.trim text) := by
      rw [rawTask, String.toList_ofList, orTask, if_neg (mt List.isEmpty_iff.mp (Text.capitalize_ne_nil hSome))]
    rw [hTitle]
    exact holdsTerm_or_glued hTerm hHolds (drawn_trim text)

/-- Here the only occurrence of the name gets a letter in front of it. -/
theorem observance_behind_combining_iota :
    "asr" ∈ observances ∧ HoldsTerm "asr" (Text.combiningIota :: "asr".toList) ∧
      heuristic (Text.combiningIota :: "asr".toList) When.mayMorning = ⟨.heuristic, .ok { title := "Ιasr" }⟩ ∧
      ¬ HoldsTerm "asr" "Ιasr".toList := by
  have hTerm : "asr" ∈ observances := by decide
  rw [← found_wholeWord_iff hTerm, ← found_wholeWord_iff hTerm]
  exact ⟨hTerm, by decide +kernel, by decide +kernel, by decide +kernel⟩

end Extract

end Agenda
