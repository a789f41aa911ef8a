import Agenda.Text.Blank
import Agenda.Text.Case
import Mathlib.Data.List.Chain
import Mathlib.Data.List.Forall2

/-! # Letters in any case, and blanks

A text that agrees with a lower-case word letter by letter has that word as its lower case, unless
one of its letters is a stray one: the dotted or dotless i or the long s. Those agree with an ASCII
letter, but their lower case is none. Where blanks were squeezed, each of them is a single space.
-/

namespace Agenda.Text

variable {letter c : Char} {word cs ds : List Char}

/-- A lower-case letter of ASCII. -/
def plainLetter (c : Char) : Bool :=
  97 ≤ c.toNat && c.toNat ≤ 122

theorem plainLetter_iff : plainLetter c = true ↔ 97 ≤ c.toNat ∧ c.toNat ≤ 122 := by
  simp [plainLetter]

def strayLetter (c : Char) : Bool :=
  c == 'İ' || c == 'ı' || c == 'ſ'

/-! ## Lower case -/

/-- The lower case of the character is the letter, wherever it stands. -/
def Spells (letter c : Char) : Prop :=
  c ≠ 'Σ' ∧ lowerChar c = [letter]

theorem spells_self (h : plainLetter letter = true) : Spells letter letter := by
  obtain ⟨hLeast, hMost⟩ := plainLetter_iff.mp h
  refine ⟨?_, ?_⟩
  · rintro rfl
    exact absurd hMost (by decide)
  · have hSmall : ¬ letter.toNat ≤ 90 := by omega
    have hAscii : letter.toNat < 128 := by omega
    simp [lowerChar, hAscii, hSmall]

theorem spells_upper (h : plainLetter letter = true) (hUpper : [c] = upperChar letter) : Spells letter c := by
  obtain ⟨hLeast, hMost⟩ := plainLetter_iff.mp h
  have hAscii : letter.toNat < 128 := by omega
  obtain rfl : c = Char.ofNat (letter.toNat - 32) := by
    simpa [upperChar, hAscii, hLeast, hMost] using hUpper
  have hCode : (Char.ofNat (letter.toNat - 32)).toNat = letter.toNat - 32 := by
    have hValid : (letter.toNat - 32).isValidChar := .inl (by omega)
    rw [Char.ofNat, dif_pos hValid]
    rfl
  refine ⟨?_, ?_⟩
  · intro hSigma
    have hFar := congrArg Char.toNat hSigma
    rw [hCode, show 'Σ'.toNat = 931 from rfl] at hFar
    omega
  · have hCapital : 65 ≤ letter.toNat - 32 ∧ letter.toNat - 32 ≤ 90 := by omega
    have hBack : letter.toNat - 32 + 32 = letter.toNat := by omega
    have hStill : letter.toNat - 32 < 128 := by omega
    simp only [lowerChar, hCode, hBack, hStill, hCapital, Char.ofNat_toNat, if_true, decide_true, Bool.and_true]

theorem spells_of_sameLetter (hLetter : plainLetter letter = true) (h : sameLetter letter c = true)
    (hStray : strayLetter c = false) : Spells letter c := by
  simp only [sameLetter, Bool.or_eq_true, Bool.and_eq_true, beq_iff_eq] at h
  simp only [strayLetter, Bool.or_eq_false_iff, beq_eq_false_iff_ne] at hStray
  rcases h with (((rfl | hUpper) | ⟨_, rfl | rfl⟩) | ⟨_, rfl⟩) | ⟨rfl, rfl⟩
  · exact spells_self hLetter
  · exact spells_upper hLetter hUpper
  · exact absurd rfl hStray.1.1
  · exact absurd rfl hStray.1.2
  · exact absurd rfl hStray.2
  · exact ⟨by decide, by decide⟩

theorem forall₂_spells (hLetters : word.all plainLetter = true)
    (h : List.Forall₂ (fun l c => sameLetter l c = true) word cs) (hStray : ∀ c ∈ cs, strayLetter c = false) :
    List.Forall₂ Spells word cs := by
  induction h with
  | nil => exact .nil
  | cons hSame _ ih =>
    obtain ⟨hLetter, hLetters⟩ := Bool.and_eq_true_iff.mp hLetters
    obtain ⟨hHead, hTail⟩ := List.forall_mem_cons.mp hStray
    exact .cons (spells_of_sameLetter hLetter hSame hHead) (ih hLetters hTail)

theorem lowerFrom_of_spells {afterCased : Bool} (h : List.Forall₂ Spells word cs) :
    lowerFrom afterCased cs = word := by
  induction h generalizing afterCased with
  | nil => rfl
  | cons hHead _ ih => rw [lowerFrom, if_neg hHead.1, hHead.2, ih, List.singleton_append]

theorem lower_of_spells (h : List.Forall₂ Spells word cs) : lower cs = word :=
  lowerFrom_of_spells h

theorem mem_lowerFrom {afterCased : Bool} {d : Char} (hc : c ∈ cs) (hSigma : c ≠ 'Σ') (hd : d ∈ lowerChar c) :
    d ∈ lowerFrom afterCased cs := by
  induction cs generalizing afterCased with
  | nil => cases hc
  | cons x cs ih =>
    rw [lowerFrom, List.mem_append]
    rcases List.mem_cons.mp hc with rfl | hc
    · rw [if_neg hSigma]
      exact .inl hd
    · exact .inr (ih hc)

/-- There is a character that is neither in ASCII nor blank. -/
def Foreign (cs : List Char) : Prop :=
  ∃ c ∈ cs, 128 ≤ c.toNat ∧ blank c = false

theorem foreign_lower (hc : c ∈ cs) (hStray : strayLetter c = true) : Foreign (lower cs) := by
  simp only [strayLetter, Bool.or_eq_true, beq_iff_eq] at hStray
  rcases hStray with (rfl | rfl) | rfl
  · exact ⟨Char.ofNat 775, mem_lowerFrom hc (by decide) (by decide), by decide, by decide⟩
  · exact ⟨'ı', mem_lowerFrom hc (by decide) (by decide), by decide, by decide⟩
  · exact ⟨'ſ', mem_lowerFrom hc (by decide) (by decide), by decide, by decide⟩

theorem Foreign.ne (h : Foreign cs) (hWord : word.all (·.toNat < 128) = true) : cs ≠ word := by
  rintro rfl
  obtain ⟨c, hc, hFar, _⟩ := h
  have hNear := of_decide_eq_true (List.all_eq_true.mp hWord c hc)
  omega

theorem Foreign.ofList_ne {s : String} (h : Foreign cs) (hWord : s.toList.all (·.toNat < 128) = true) :
    String.ofList cs ≠ s := by
  rintro rfl
  rw [String.toList_ofList] at hWord
  exact h.ne hWord rfl

/-! ## Squeezed blanks -/

/-- Every blank is a space, and no two stand side by side. -/
def Squeezed (cs : List Char) : Prop :=
  (∀ c ∈ cs, blank c = true → c = ' ') ∧ cs.IsChain fun x y => ¬ (blank x = true ∧ blank y = true)

theorem squeezed_nil : Squeezed [] :=
  ⟨fun _ h => absurd h List.not_mem_nil, .nil⟩

theorem Squeezed.cons (h : Squeezed cs) (hc : blank c = false) : Squeezed (c :: cs) := by
  refine ⟨?_, ?_⟩
  · intro x hx hBlank
    rcases List.mem_cons.mp hx with rfl | hx
    · exact absurd (hc ▸ hBlank) Bool.false_ne_true
    · exact h.1 x hx hBlank
  · refine List.isChain_cons.mpr ⟨fun y _ hBoth => ?_, h.2⟩
    exact absurd (hc ▸ hBoth.1) Bool.false_ne_true

theorem Squeezed.space_cons (h : Squeezed (c :: cs)) (hc : blank c = false) : Squeezed (' ' :: c :: cs) := by
  refine ⟨?_, ?_⟩
  · intro x hx hBlank
    rcases List.mem_cons.mp hx with rfl | hx
    · rfl
    · exact h.1 x hx hBlank
  · refine List.isChain_cons.mpr ⟨fun y hy hBoth => ?_, h.2⟩
    cases hy
    exact absurd (hc ▸ hBoth.2) Bool.false_ne_true

theorem flush_cases (run : List Char) : squeezeFrom.flush 1 run = [] ∨ squeezeFrom.flush 1 run = [' '] := by
  cases run with
  | nil => exact .inl rfl
  | cons c run => exact .inr (if_neg (by simp))

theorem squeezed_squeezeFrom (run cs : List Char) : Squeezed (squeezeFrom 1 run cs) := by
  induction cs generalizing run with
  | nil =>
    rw [squeezeFrom]
    rcases flush_cases run with h | h <;> rw [h]
    · exact squeezed_nil
    · exact ⟨by simp, .singleton _⟩
  | cons c cs ih =>
    rw [squeezeFrom]
    split
    · exact ih _
    · rename_i hc
      rw [Bool.not_eq_true] at hc
      have hTail := (ih []).cons hc
      rcases flush_cases run with h | h <;> rw [h]
      · exact hTail
      · exact hTail.space_cons hc

theorem eq_space_of_mem_flush {run : List Char} (h : c ∈ squeezeFrom.flush 1 run) : c = ' ' := by
  rcases flush_cases run with hRun | hRun
  · rw [hRun] at h
    cases h
  · rw [hRun] at h
    exact List.mem_singleton.mp h

theorem mem_of_mem_squeezeFrom {run : List Char} (h : c ∈ squeezeFrom 1 run cs) : c ∈ cs ∨ c = ' ' := by
  induction cs generalizing run with
  | nil => exact .inr (eq_space_of_mem_flush h)
  | cons x cs ih =>
    rw [squeezeFrom] at h
    split at h
    · exact (ih h).imp_left (List.mem_cons_of_mem x)
    · rcases List.mem_append.mp h with h | h
      · exact .inr (eq_space_of_mem_flush h)
      · rcases List.mem_cons.mp h with rfl | h
        · exact .inl List.mem_cons_self
        · exact (ih h).imp_left (List.mem_cons_of_mem x)

theorem length_flush_le (run : List Char) : (squeezeFrom.flush 1 run).length ≤ run.length := by
  cases run with
  | nil => exact Nat.le_refl 0
  | cons c run =>
    rcases flush_cases (c :: run) with h | h <;> rw [h] <;> simp

theorem length_squeezeFrom_le (run cs : List Char) : (squeezeFrom 1 run cs).length ≤ run.length + cs.length := by
  induction cs generalizing run with
  | nil => exact length_flush_le run
  | cons c cs ih =>
    rw [squeezeFrom]
    split
    · have hTail := ih (c :: run)
      simp only [List.length_cons] at hTail ⊢
      omega
    · have hRun := length_flush_le run
      have hTail := ih []
      simp only [List.length_append, List.length_cons, List.length_nil] at hTail ⊢
      omega

theorem trim_sublist (cs : List Char) : (trim cs).Sublist cs := by
  have hTail : (trim cs).Sublist (cs.dropWhile blank) :=
    List.reverse_sublist.mp (by rw [trim, stripBoth, dropTail, List.reverse_reverse]; exact List.dropWhile_sublist _)
  exact hTail.trans (List.dropWhile_sublist _)

theorem squeezed_squeeze (cs : List Char) : Squeezed (squeeze cs) :=
  squeezed_squeezeFrom [] cs

theorem Squeezed.of_part (h : Squeezed cs) (hPart : ds <:+: cs) : Squeezed ds := by
  refine ⟨fun x hx => h.1 x (hPart.subset hx), ?_⟩
  obtain ⟨before, after, rfl⟩ := hPart
  exact h.2.left_of_append.right_of_append

theorem Squeezed.eq_space (h : Squeezed cs) (hBlank : ∀ x ∈ cs, blank x = true) (hNonempty : cs ≠ []) :
    cs = [' '] := by
  match cs, hNonempty with
  | [x], _ => rw [h.1 x List.mem_cons_self (hBlank x List.mem_cons_self)]
  | x :: y :: cs, _ =>
    have hx := hBlank x List.mem_cons_self
    have hy := hBlank y (List.mem_cons_of_mem x List.mem_cons_self)
    exact absurd ⟨hx, hy⟩ (List.isChain_cons_cons.mp h.2).1

theorem mem_squeezeFrom {least : Nat} {run : List Char} (hc : c ∈ cs) (hBlank : blank c = false) :
    c ∈ squeezeFrom least run cs := by
  induction cs generalizing run with
  | nil => cases hc
  | cons x cs ih =>
    rw [squeezeFrom]
    rcases List.mem_cons.mp hc with rfl | hc
    · rw [hBlank]
      simp
    · split
      · exact ih hc
      · exact List.mem_append_right _ (List.mem_cons_of_mem x (ih hc))

theorem Foreign.squeeze (h : Foreign cs) : Foreign (squeeze cs) := by
  obtain ⟨c, hc, hFar, hBlank⟩ := h
  exact ⟨c, mem_squeezeFrom hc hBlank, hFar, hBlank⟩

end Agenda.Text
