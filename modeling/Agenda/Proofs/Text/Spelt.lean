import Agenda.Proofs.Attempt
import Agenda.Proofs.Text.Lower
import Agenda.Proofs.Text.Spaced

/-! # Keywords as they are typed

A word in any ASCII case is recognised as that word and as no other, its lower case is the word, and
it has no blanks.
-/

namespace Agenda.Text

/-- The word, each letter in either ASCII case. -/
def Spelt (word : String) (cs : List Char) : Prop :=
  cs.map Char.toLower = word.toList

/-- What is recognised as the word. -/
def SameWord (word : String) (cs : List Char) : Prop :=
  List.Forall₂ (fun letter c => sameLetter letter c = true) word.toList cs

/-- All letters of the word are lower-case ones of ASCII. -/
def Plain (word : String) : Prop :=
  word.toList.all plainLetter = true

instance (word : String) : Decidable (Plain word) :=
  inferInstanceAs (Decidable (_ = true))

variable {letter c : Char} {word : String} {cs l r : List Char}

/-! ## Letters -/

theorem toNat_of_toLower (h : c.toLower = letter) (hLetter : plainLetter letter = true) :
    c = letter ∨ c.toNat + 32 = letter.toNat := by
  subst h
  unfold Char.toLower at hLetter ⊢
  split
  · rename_i hCapital
    refine .inr ?_
    obtain ⟨_, hMost⟩ := hCapital
    have hSmall : c.val.toNat ≤ 90 := hMost
    show c.val.toNat + 32 = (c.val + ('a'.val - 'A'.val)).toNat
    rw [UInt32.toNat_add, show ('a'.val - 'A'.val).toNat = 32 from rfl]
    omega
  · exact .inl rfl

theorem upperChar_of_toLower (hLetter : plainLetter letter = true) (h : c.toNat + 32 = letter.toNat) :
    upperChar letter = [c] := by
  obtain ⟨hLeast, hMost⟩ := plainLetter_iff.mp hLetter
  have hAscii : letter.toNat < 128 := by omega
  have hCode : letter.toNat - 32 = c.toNat := by omega
  simp [upperChar, hAscii, hLeast, hMost, hCode]

theorem sameLetter_of_toLower (h : c.toLower = letter) (hLetter : plainLetter letter = true) :
    sameLetter letter c = true := by
  rcases toNat_of_toLower h hLetter with rfl | hCapital
  · simp [sameLetter]
  · simp [sameLetter, upperChar_of_toLower hLetter hCapital]

theorem spells_of_toLower (h : c.toLower = letter) (hLetter : plainLetter letter = true) : Spells letter c := by
  rcases toNat_of_toLower h hLetter with rfl | hCapital
  · exact spells_self hLetter
  · exact spells_upper hLetter (upperChar_of_toLower hLetter hCapital).symm

theorem toLower_of_sameLetter (hLetter : plainLetter letter = true) (h : sameLetter letter c = true)
    (hPlain : plainLetter c.toLower = true) : c.toLower = letter := by
  have hStray : strayLetter c = false := by
    rw [Bool.eq_false_iff]
    intro hStray
    simp only [strayLetter, Bool.or_eq_true, beq_iff_eq] at hStray
    rcases hStray with (rfl | rfl) | rfl <;> exact absurd hPlain (by decide)
  have hOther := (spells_of_sameLetter hLetter h hStray).2
  rw [(spells_of_toLower rfl hPlain).2] at hOther
  exact List.singleton_inj.mp hOther

/-- Only the letters `i` and `s` agree with a stray one. -/
theorem strayLetter_of_sameLetter (hLetter : plainLetter letter = true) (hI : letter ≠ 'i') (hS : letter ≠ 's')
    (h : sameLetter letter c = true) : strayLetter c = false := by
  have hAlike : ((List.range' 97 26).map Char.ofNat).filter (fun l => ['İ', 'ı', 'ſ'].any (sameLetter l)) =
      ['i', 's'] := by decide
  obtain ⟨hLeast, hMost⟩ := plainLetter_iff.mp hLetter
  rw [Bool.eq_false_iff]
  intro hStray
  have hMem : c ∈ ['İ', 'ı', 'ſ'] := by simpa [strayLetter, or_assoc] using hStray
  have hCode : letter.toNat ∈ List.range' 97 26 := List.mem_range'_1.mpr ⟨hLeast, by omega⟩
  have hLetters : letter ∈ (List.range' 97 26).map Char.ofNat :=
    List.mem_map.mpr ⟨letter.toNat, hCode, Char.ofNat_toNat letter⟩
  have hPair : letter ∈ ['i', 's'] := hAlike ▸ List.mem_filter.mpr ⟨hLetters, List.any_eq_true.mpr ⟨c, hMem, h⟩⟩
  simp [hI, hS] at hPair

/-- The ways to write a letter. -/
theorem sameLetter_cases (hLetter : plainLetter letter = true) (h : sameLetter letter c = true) :
    c = letter ∨ c = Char.ofNat (letter.toNat - 32) ∨ letter = 'i' ∧ (c = 'İ' ∨ c = 'ı') ∨ letter = 's' ∧ c = 'ſ' ∨
      letter = 'k' ∧ c = Char.ofNat 8490 := by
  obtain ⟨hLeast, hMost⟩ := plainLetter_iff.mp hLetter
  have hAscii : letter.toNat < 128 := by omega
  have hUpper : upperChar letter = [Char.ofNat (letter.toNat - 32)] := by simp [upperChar, hAscii, hLeast, hMost]
  simpa [sameLetter, hUpper, or_assoc] using h

/-- A property of characters that all the ways to write a letter have, if it is looked up in each. -/
theorem of_sameLetter {P : Char → Char → Prop} (hPlain : ∀ n ∈ List.range' 97 26, P (Char.ofNat n) (Char.ofNat n))
    (hCapital : ∀ n ∈ List.range' 97 26, P (Char.ofNat n) (Char.ofNat (n - 32)))
    (hStray : P 'i' 'İ' ∧ P 'i' 'ı' ∧ P 's' 'ſ' ∧ P 'k' (Char.ofNat 8490)) (hLetter : plainLetter letter = true)
    (h : sameLetter letter c = true) : P letter c := by
  obtain ⟨hLeast, hMost⟩ := plainLetter_iff.mp hLetter
  have hCode : letter.toNat ∈ List.range' 97 26 := List.mem_range'_1.mpr ⟨hLeast, by omega⟩
  have hLetter' := Char.ofNat_toNat letter
  rcases sameLetter_cases hLetter h with rfl | rfl | ⟨rfl, rfl | rfl⟩ | ⟨rfl, rfl⟩ | ⟨rfl, rfl⟩
  · simpa only [hLetter'] using hPlain _ hCode
  · simpa only [hLetter'] using hCapital _ hCode
  · exact hStray.1
  · exact hStray.2.1
  · exact hStray.2.2.1
  · exact hStray.2.2.2

/-- However a letter is written, it is a word character and has the same letter in upper case. -/
theorem tabled_of_sameLetter (hLetter : plainLetter letter = true) (h : sameLetter letter c = true) :
    wordChar c = true ∧ (upperChar c).length = 1 ∧ (upperChar c).all (sameLetter letter) = true :=
  of_sameLetter
    (P := fun letter c => wordChar c = true ∧ (upperChar c).length = 1 ∧ (upperChar c).all (sameLetter letter) = true)
    (by decide +kernel) (by decide +kernel) (by decide +kernel) hLetter h

theorem wordChar_of_sameLetter (hLetter : plainLetter letter = true) (h : sameLetter letter c = true) :
    wordChar c = true :=
  (tabled_of_sameLetter hLetter h).1

theorem blank_of_sameLetter (hLetter : plainLetter letter = true) (h : sameLetter letter c = true) : blank c = false :=
  blank_of_wordChar (wordChar_of_sameLetter hLetter h)

/-- A letter in upper case is the same letter. -/
theorem sameLetter_upperChar (hLetter : plainLetter letter = true) (h : sameLetter letter c = true) :
    ∃ d, upperChar c = [d] ∧ sameLetter letter d = true := by
  obtain ⟨-, hOne, hUpper⟩ := tabled_of_sameLetter hLetter h
  obtain ⟨d, hd⟩ := List.length_eq_one_iff.mp hOne
  exact ⟨d, hd, List.all_eq_true.mp hUpper d (hd ▸ List.mem_singleton_self d)⟩

/-! ## Words -/

theorem Spelt.letters (hPlain : Plain word) (h : Spelt word cs) : ∀ c ∈ cs, plainLetter c.toLower = true := by
  intro c hc
  have hMem : c.toLower ∈ word.toList := h ▸ List.mem_map_of_mem hc
  exact List.all_eq_true.mp hPlain _ hMem

theorem Spelt.forall₂ {R : Char → Char → Prop} (h : Spelt word cs) (hLetters : ∀ c ∈ cs, R c.toLower c) :
    List.Forall₂ R word.toList cs := by
  rw [← h, List.forall₂_map_left_iff]
  exact List.forall₂_same.mpr hLetters

theorem Spelt.same (hPlain : Plain word) (h : Spelt word cs) : SameWord word cs :=
  h.forall₂ fun c hc => sameLetter_of_toLower rfl (h.letters hPlain c hc)

theorem Spelt.spells (hPlain : Plain word) (h : Spelt word cs) : List.Forall₂ Spells word.toList cs :=
  h.forall₂ fun c hc => spells_of_toLower rfl (h.letters hPlain c hc)

theorem Spelt.lower (hPlain : Plain word) (h : Spelt word cs) : Text.lower cs = word.toList :=
  lower_of_spells (h.spells hPlain)

theorem SameWord.unbroken (hPlain : Plain word) (h : SameWord word cs) : Unbroken cs := by
  unfold SameWord at h
  unfold Plain at hPlain
  generalize word.toList = letters at h hPlain
  induction h with
  | nil => exact fun _ hc => absurd hc List.not_mem_nil
  | cons hSame _ ih =>
    obtain ⟨hLetter, hLetters⟩ := Bool.and_eq_true_iff.mp hPlain
    exact List.forall_mem_cons.mpr ⟨blank_of_sameLetter hLetter hSame, ih hLetters⟩

theorem Spelt.unbroken (hPlain : Plain word) (h : Spelt word cs) : Unbroken cs :=
  (h.same hPlain).unbroken hPlain

/-- What is recognised as the word is the word in some case, if its letters are those of ASCII. -/
theorem SameWord.spelt (hPlain : Plain word) (h : SameWord word cs) (hLetters : ∀ c ∈ cs, plainLetter c.toLower = true) :
    Spelt word cs := by
  unfold SameWord at h
  unfold Plain at hPlain
  unfold Spelt
  generalize word.toList = letters at h hPlain ⊢
  induction h with
  | nil => rfl
  | cons hSame _ ih =>
    obtain ⟨hLetter, hPlain⟩ := Bool.and_eq_true_iff.mp hPlain
    obtain ⟨hHead, hTail⟩ := List.forall_mem_cons.mp hLetters
    rw [List.map_cons, toLower_of_sameLetter hLetter hSame hHead, ih hTail hPlain]

/-- What is recognised as a word without `i` and `s` has it as its lower case. -/
theorem SameWord.lower (hPlain : Plain word) (hI : 'i' ∉ word.toList) (hS : 's' ∉ word.toList) (h : SameWord word cs) :
    Text.lower cs = word.toList := by
  refine lower_of_spells (forall₂_spells hPlain h fun c hc => ?_)
  obtain ⟨letter, hLetter, hSame⟩ := Attempt.exists_of_mem_paired h hc
  exact strayLetter_of_sameLetter (List.all_eq_true.mp hPlain letter hLetter) (ne_of_mem_of_not_mem hLetter hI)
    (ne_of_mem_of_not_mem hLetter hS) hSame

/-- A word that begins like another one is recognised begins with it. -/
theorem SameWord.isPrefix {opener : String} (hOpener : Plain opener) (hPlain : Plain word) (h : SameWord opener l)
    (hWord : Spelt word (l ++ r)) : opener.toList <+: word.toList := by
  have hLetters := hWord.letters hPlain
  have hOpens : Spelt opener l := h.spelt hOpener fun c hc => hLetters c (List.mem_append_left r hc)
  rw [← hOpens, ← hWord, List.map_append]
  exact List.prefix_append _ _

theorem SameWord.eq_of_spelt {other : String} (hOther : Plain other) (hPlain : Plain word) (h : SameWord other cs)
    (hWord : Spelt word cs) : other = word := by
  have hSame : Spelt other cs := h.spelt hOther (hWord.letters hPlain)
  exact String.toList_injective (hSame.symm.trans hWord)

/-! ## Words with blanks between them -/

section Spaced

variable {parts words : List (List Char)} {text body : List Char}

/-- Blanks have no case, so parts that spell words are in lower case those words with the same blanks. -/
theorem Apart.spells (h : Apart parts body) (hWords : List.Forall₂ (List.Forall₂ Spells) words parts) :
    ∃ lowered, Apart words lowered ∧ List.Forall₂ Spells lowered body := by
  induction h generalizing words with
  | last p =>
    obtain ⟨word, _, hWord, hNone, rfl⟩ := List.forall₂_cons_right_iff.mp hWords
    cases hNone
    exact ⟨word, .last word, hWord⟩
  | @cons p bs rest parts hSome hBlank _ ih =>
    obtain ⟨word, words, hWord, hOthers, rfl⟩ := List.forall₂_cons_right_iff.mp hWords
    obtain ⟨lowered, hApart, hRest⟩ := ih hOthers
    have hBlanks : List.Forall₂ Spells bs bs := List.forall₂_same.mpr fun b hb => spells_of_blank (hBlank b hb)
    exact ⟨_, .cons hSome hBlank hApart, List.rel_append hWord (List.rel_append hBlanks hRest)⟩

theorem Spaced.squeeze_lower_trim (h : Spaced parts text) (hParts : ∀ p ∈ parts, Phrase p)
    (hWords : List.Forall₂ (List.Forall₂ Spells) words parts) (hPhrases : ∀ word ∈ words, Phrase word) :
    ' ' :: squeeze (lower (trim text)) = words.flatMap (' ' :: ·) := by
  obtain ⟨front, body, back, rfl, hFront, hBack, hBody⟩ := h
  rw [trim_of_padded hFront hBack (hBody.head hParts) (hBody.last_char hParts)]
  obtain ⟨lowered, hApart, hSpells⟩ := hBody.spells hWords
  rw [lower_of_spells hSpells]
  exact hApart.squeeze hPhrases

end Spaced

end Agenda.Text
