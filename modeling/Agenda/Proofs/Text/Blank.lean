import Agenda.Proofs.Text.Letter
import Agenda.Text.Word
import Mathlib.Data.List.DropRight

/-! # Texts without blanks

Trimming and squeezing keep everything but blanks, so trimming leaves a text without blanks alone.
Words have none, and neither have their lower-case forms. What is no word becomes none in upper case,
with the exception of one mark.
-/

namespace Agenda.Text

variable {c d : Char} {cs run : List Char}

theorem mem_dropWhile {p : Char → Bool} (hc : c ∈ cs) (hp : p c = false) : c ∈ cs.dropWhile p := by
  rw [← List.takeWhile_append_dropWhile (p := p) (l := cs)] at hc
  rcases List.mem_append.mp hc with hc | hc
  · rw [List.mem_takeWhile_imp hc] at hp
    cases hp
  · exact hc

theorem mem_trim (hc : c ∈ cs) (hBlank : blank c = false) : c ∈ trim cs := by
  unfold trim stripBoth dropTail
  rw [List.mem_reverse]
  exact mem_dropWhile (List.mem_reverse.mpr (mem_dropWhile hc hBlank)) hBlank

theorem trim_eq (cs : List Char) : trim cs = (cs.dropWhile blank).rdropWhile blank :=
  rfl

theorem rdropWhile_append {p : Char → Bool} (hRun : ∀ c ∈ run, p c = true) (hLast : ∀ c ∈ cs.getLast?, p c = false) :
    (cs ++ run).rdropWhile p = cs := by
  rw [List.rdropWhile, List.reverse_append, List.dropWhile_append_of_pos fun c hc => hRun c (List.mem_reverse.mp hc)]
  change cs.rdropWhile p = cs
  rw [List.rdropWhile_eq_self_iff]
  intro hSome
  rw [hLast _ (List.getLast?_eq_some_getLast hSome)]
  exact Bool.false_ne_true

theorem head_stripBoth {p : Char → Bool} : ∀ c ∈ (stripBoth p cs).head?, p c = false := by
  intro c hc
  have hPrefix : stripBoth p cs <+: cs.dropWhile p := List.rdropWhile_prefix _ _
  obtain ⟨back, hBack⟩ := hPrefix
  have hFirst := List.head?_dropWhile_not p cs
  rw [← hBack, List.head?_append, hc] at hFirst
  exact hFirst

theorem last_stripBoth {p : Char → Bool} : ∀ c ∈ (stripBoth p cs).getLast?, p c = false := by
  intro c hc
  have hSome : (cs.dropWhile p).rdropWhile p ≠ [] := by
    intro hNil
    change c ∈ ((cs.dropWhile p).rdropWhile p).getLast? at hc
    rw [hNil] at hc
    cases hc
  have hLast := List.rdropWhile_last_not p (cs.dropWhile p) hSome
  change ((cs.dropWhile p).rdropWhile p).getLast? = some c at hc
  rw [List.getLast?_eq_some_getLast hSome] at hc
  cases hc
  exact Bool.eq_false_iff.mpr hLast

theorem trim_eq_self_iff : trim cs = cs ↔ (∀ c ∈ cs.head?, blank c = false) ∧ ∀ c ∈ cs.getLast?, blank c = false := by
  have hFront : cs.dropWhile blank = cs ↔ ∀ c ∈ cs.head?, blank c = false := by
    cases cs with
    | nil => simp
    | cons c cs => simp [List.dropWhile_eq_self_iff]
  have hBack : cs.rdropWhile blank = cs ↔ ∀ c ∈ cs.getLast?, blank c = false := by
    rw [List.rdropWhile_eq_self_iff]
    cases hLast : cs.getLast? with
    | none =>
      have hNil := List.getLast?_eq_none_iff.mp hLast
      simp [hNil]
    | some c =>
      obtain ⟨front, rfl⟩ := List.getLast?_eq_some_iff.mp hLast
      simp
  rw [← hFront, ← hBack, trim_eq]
  constructor
  · intro h
    have hSame : cs.dropWhile blank = cs := by
      refine (List.dropWhile_sublist blank).antisymm ?_
      conv_lhs => rw [← h]
      exact (List.rdropWhile_prefix blank _).sublist
    rw [hSame] at h
    exact ⟨hSame, h⟩
  · rintro ⟨hFront, hBack⟩
    rw [hFront, hBack]

theorem trim_trim (cs : List Char) : trim (trim cs) = trim cs :=
  trim_eq_self_iff.mpr ⟨head_stripBoth, last_stripBoth⟩

theorem trim_of_unbroken (h : ∀ c ∈ cs, blank c = false) : trim cs = cs :=
  trim_eq_self_iff.mpr ⟨fun c hc => h c (List.mem_of_mem_head? hc), fun c hc => h c (List.mem_of_mem_getLast? hc)⟩

theorem exists_trim (text : List Char) : ∃ front back, text = front ++ (trim text ++ back) ∧
    (∀ c ∈ front, blank c = true) ∧ ∀ c ∈ back, blank c = true := by
  refine ⟨text.takeWhile blank, (text.dropWhile blank).rtakeWhile blank, ?_, ?_, ?_⟩
  · rw [trim_eq, List.rdropWhile_append_rtakeWhile, List.takeWhile_append_dropWhile]
  · exact fun c hc => List.mem_takeWhile_imp hc
  · exact fun c hc => List.mem_rtakeWhile_imp hc

/-! ## Without the blanks -/

def withoutBlanks (cs : List Char) : List Char :=
  cs.filter fun c => !blank c

theorem withoutBlanks_append (cs ds : List Char) : withoutBlanks (cs ++ ds) = withoutBlanks cs ++ withoutBlanks ds :=
  List.filter_append cs ds

theorem withoutBlanks_of_blank (h : ∀ c ∈ cs, blank c = true) : withoutBlanks cs = [] := by
  rw [withoutBlanks, List.filter_eq_nil_iff]
  intro c hc
  simp [h c hc]

theorem withoutBlanks_trim (cs : List Char) : withoutBlanks (trim cs) = withoutBlanks cs := by
  obtain ⟨front, back, hText, hFront, hBack⟩ := exists_trim cs
  have hWhole := congrArg withoutBlanks hText
  rw [withoutBlanks_append, withoutBlanks_append, withoutBlanks_of_blank hFront, withoutBlanks_of_blank hBack,
    List.nil_append, List.append_nil] at hWhole
  exact hWhole.symm

theorem withoutBlanks_cons (hc : blank c = false) (cs : List Char) : withoutBlanks (c :: cs) = c :: withoutBlanks cs := by
  rw [withoutBlanks, List.filter_cons, hc]
  rfl

theorem withoutBlanks_flush {least : Nat} (hRun : ∀ c ∈ run, blank c = true) :
    withoutBlanks (squeezeFrom.flush least run) = [] := by
  rw [squeezeFrom.flush]
  split
  · exact withoutBlanks_of_blank fun c hc => hRun c (List.mem_reverse.mp hc)
  · rfl

theorem withoutBlanks_squeezeFrom {least : Nat} (hRun : ∀ c ∈ run, blank c = true) (cs : List Char) :
    withoutBlanks (squeezeFrom least run cs) = withoutBlanks cs := by
  induction cs generalizing run with
  | nil => exact withoutBlanks_flush hRun
  | cons c cs ih =>
    rw [squeezeFrom]
    cases hc : blank c with
    | true =>
      rw [if_pos rfl, ih (List.forall_mem_cons.mpr ⟨hc, hRun⟩), ← List.singleton_append, withoutBlanks_append,
        withoutBlanks_of_blank (List.forall_mem_singleton.mpr hc), List.nil_append]
    | false =>
      rw [if_neg Bool.false_ne_true, withoutBlanks_append, withoutBlanks_flush hRun, List.nil_append,
        withoutBlanks_cons hc, ih fun _ hNone => absurd hNone List.not_mem_nil, withoutBlanks_cons hc]

/-! ## Words -/

/-- The first and the last code points of the runs of blanks. -/
def blankRuns : List (Nat × Nat) :=
  [(9, 13), (28, 32), (133, 133), (160, 160), (5760, 5760), (8192, 8202), (8232, 8233), (8239, 8239), (8287, 8287),
    (12288, 12288)]

theorem exists_blankRun (h : blank c = true) : ∃ r ∈ blankRuns, r.1 ≤ c.toNat ∧ c.toNat ≤ r.2 := by
  have hCode : (if c.toNat < 128 then 9 ≤ c.toNat ∧ c.toNat ≤ 13 ∨ 28 ≤ c.toNat ∧ c.toNat ≤ 32
      else c.toNat = 133 ∨ c.toNat = 160 ∨ c.toNat = 5760 ∨ 8192 ≤ c.toNat ∧ c.toNat ≤ 8202 ∨ c.toNat = 8232 ∨
        c.toNat = 8233 ∨ c.toNat = 8239 ∨ c.toNat = 8287 ∨ c.toNat = 12288) := by
    simpa [blank, or_assoc] using h
  simp only [blankRuns, List.mem_cons, List.not_mem_nil, or_false, or_and_right, exists_or, exists_eq_left]
  split at hCode <;> omega

/-- A property of code points that every blank lacks, if it is looked up in each run. -/
theorem not_blank_of {p : Nat → Prop} (hRuns : ∀ r ∈ blankRuns, ∀ n ∈ List.range' r.1 (r.2 + 1 - r.1), ¬ p n)
    (hc : p c.toNat) : blank c = false := by
  by_contra hBlank
  obtain ⟨r, hr, hLow, hHigh⟩ := exists_blankRun (Bool.not_eq_false _ ▸ hBlank)
  exact hRuns r hr c.toNat (List.mem_range'_1.mpr ⟨hLow, by omega⟩) hc

theorem blank_of_wordChar (h : wordChar c = true) : blank c = false := by
  refine not_blank_of (p := fun n => (if n < 128 then (48 ≤ n && n ≤ 57) || (65 ≤ n && n ≤ 90) ||
    (97 ≤ n && n ≤ 122) || n == 95 else wordBeyondAscii n) = true) ?_ h
  decide +kernel

theorem lowerChar_ne_nil (c : Char) : lowerChar c ≠ [] := by
  unfold lowerChar
  dsimp only
  repeat' split
  all_goals exact List.cons_ne_nil _ _

theorem toNat_ofNat_cases (n : Nat) : (Char.ofNat n).toNat = n ∨ (Char.ofNat n).toNat = 0 := by
  by_cases hValid : n.isValidChar
  · rw [Char.ofNat, dif_pos hValid]
    exact .inl rfl
  · rw [Char.ofNat, dif_neg hValid]
    exact .inr rfl

/-- No run of the mapping leads to a blank. -/
def Visible (runs : List CaseRun) : Prop :=
  ∀ r ∈ runs, 0 < (r.first : Int) + r.delta ∧
    ∀ b ∈ blankRuns, ¬ ((r.first : Int) + r.delta ≤ b.2 ∧ (b.1 : Int) ≤ r.last + r.delta)

/-- Neither the runs nor the sequences lead to a blank. -/
theorem visible_tables : Visible lowerRuns ∧ Visible upperRuns ∧
    ∀ e ∈ upperSequences, e.2 ≠ [] ∧ ∀ m ∈ e.2, blank (Char.ofNat m) = false := by
  unfold Visible
  decide +kernel

theorem not_blank_of_moved {runs : List CaseRun} (hRuns : Visible runs) {n m : Nat}
    (h : CaseRun.moved? runs n = some m) : blank (Char.ofNat m) = false := by
  obtain ⟨r, hFind, rfl⟩ := Option.map_eq_some_iff.mp h
  obtain ⟨hPos, hApart⟩ := hRuns r (List.mem_of_find?_eq_some hFind)
  have hCovers := List.find?_some hFind
  simp only [CaseRun.covers, Bool.and_eq_true, decide_eq_true_eq] at hCovers
  by_contra hBlank
  obtain ⟨b, hb, hLow, hHigh⟩ := exists_blankRun (Bool.not_eq_false _ ▸ hBlank)
  have hCodes : ∀ b ∈ blankRuns, 0 < b.1 := by decide
  have hStart := hCodes b hb
  rcases toNat_ofNat_cases ((n : Int) + r.delta).toNat with hSame | hZero
  · exact hApart b hb ⟨by omega, by omega⟩
  · omega

theorem blank_of_mem_lowerChar (hc : blank c = false) (hd : d ∈ lowerChar c) : blank d = false := by
  unfold lowerChar at hd
  dsimp only at hd
  split at hd
  · rename_i hAscii
    split at hd
    · rename_i hCapital
      obtain rfl := List.mem_singleton.mp hd
      simp only [Bool.and_eq_true, decide_eq_true_eq] at hCapital
      refine not_blank_of (p := fun n => 97 ≤ n ∧ n ≤ 122 ∨ n = 0) (by decide) ?_
      rcases toNat_ofNat_cases (c.toNat + 32) with hSame | hZero <;> omega
    · obtain rfl := List.mem_singleton.mp hd
      exact hc
  · split at hd
    · simp only [List.mem_cons, List.not_mem_nil, or_false] at hd
      rcases hd with rfl | rfl <;> decide
    · split at hd
      · rename_i hMoved
        obtain rfl := List.mem_singleton.mp hd
        exact not_blank_of_moved visible_tables.1 hMoved
      · obtain rfl := List.mem_singleton.mp hd
        exact hc

theorem blank_of_mem_lowerFrom {afterCased : Bool} (hcs : ∀ c ∈ cs, blank c = false) (hd : d ∈ lowerFrom afterCased cs) :
    blank d = false := by
  induction cs generalizing afterCased with
  | nil => cases hd
  | cons c cs ih =>
    obtain ⟨hc, hcs⟩ := List.forall_mem_cons.mp hcs
    rw [lowerFrom] at hd
    rcases List.mem_append.mp hd with hd | hd
    · split at hd
      · obtain rfl := List.mem_singleton.mp hd
        split <;> decide
      · exact blank_of_mem_lowerChar hc hd
    · exact ih hcs hd

theorem lower_ne_nil (h : cs ≠ []) : lower cs ≠ [] := by
  obtain ⟨c, cs, rfl⟩ := List.exists_cons_of_ne_nil h
  unfold lower
  rw [lowerFrom]
  refine List.append_ne_nil_of_left_ne_nil ?_ _
  split
  · exact List.cons_ne_nil _ _
  · exact lowerChar_ne_nil c

/-! ## A first letter in upper case -/

theorem mem_of_lookup_upperSequences {n : Nat} {ms : List Nat} (h : upperSequences.lookup n = some ms) :
    (n, ms) ∈ upperSequences := by
  obtain ⟨_, _, hParts, _⟩ := List.lookup_eq_some_iff.mp h
  rw [hParts]
  exact List.mem_append_cons_self

theorem upperChar_ne_nil (c : Char) : upperChar c ≠ [] := by
  unfold upperChar
  dsimp only
  split
  · split <;> exact List.cons_ne_nil _ _
  · split
    · rename_i hSequence
      have hSome := (visible_tables.2.2 _ (mem_of_lookup_upperSequences hSequence)).1
      exact mt List.map_eq_nil_iff.mp hSome
    · split <;> exact List.cons_ne_nil _ _

theorem blank_of_mem_upperChar (hc : blank c = false) (hd : d ∈ upperChar c) : blank d = false := by
  unfold upperChar at hd
  dsimp only at hd
  split at hd
  · split at hd
    · rename_i hSmall
      obtain rfl := List.mem_singleton.mp hd
      simp only [Bool.and_eq_true, decide_eq_true_eq] at hSmall
      refine not_blank_of (p := fun n => 65 ≤ n ∧ n ≤ 90 ∨ n = 0) (by decide) ?_
      rcases toNat_ofNat_cases (c.toNat - 32) with hSame | hZero <;> omega
    · obtain rfl := List.mem_singleton.mp hd
      exact hc
  · split at hd
    · rename_i hSequence
      obtain ⟨m, hm, rfl⟩ := List.mem_map.mp hd
      exact (visible_tables.2.2 _ (mem_of_lookup_upperSequences hSequence)).2 m hm
    · split at hd
      · rename_i hMoved
        obtain rfl := List.mem_singleton.mp hd
        exact not_blank_of_moved visible_tables.2.1 hMoved
      · obtain rfl := List.mem_singleton.mp hd
        exact hc

theorem capitalize_ne_nil (h : cs ≠ []) : capitalize cs ≠ [] := by
  obtain ⟨c, cs, rfl⟩ := List.exists_cons_of_ne_nil h
  exact List.append_ne_nil_of_left_ne_nil (upperChar_ne_nil c) cs

theorem trim_capitalize (h : trim cs = cs) : trim (capitalize cs) = capitalize cs := by
  cases cs with
  | nil => exact h
  | cons c cs =>
    obtain ⟨hHead, hLast⟩ := trim_eq_self_iff.mp h
    have hUpper : ∀ d ∈ upperChar c, blank d = false := fun d => blank_of_mem_upperChar (hHead c rfl)
    rw [capitalize, trim_eq_self_iff]
    constructor
    · intro d hd
      rw [List.head?_append_of_ne_nil _ (upperChar_ne_nil c)] at hd
      exact hUpper d (List.mem_of_mem_head? hd)
    · intro d hd
      by_cases hAlone : cs = []
      · rw [hAlone, List.append_nil] at hd
        exact hUpper d (List.mem_of_mem_getLast? hd)
      · rw [List.getLast?_append_of_ne_nil _ hAlone] at hd
        refine hLast d ?_
        rwa [← List.singleton_append, List.getLast?_append_of_ne_nil _ hAlone]

/-! ## The upper case of what is no word character -/

/-- Throughout each of the spans membership in the toggled set is `value`. -/
def steady (value : Bool) : Bool → List Nat → List (Nat × Nat) → Bool
  | inside, [], spans => spans.isEmpty || inside == value
  | inside, t :: ts, spans =>
    let later := spans.dropWhile (·.2 < t)
    ((spans.takeWhile (·.2 < t)).isEmpty || inside == value) && later.head?.all (t ≤ ·.1) &&
      steady value (!inside) ts later

theorem toggled_of_steady {value inside : Bool} {toggles : List Nat} {spans : List (Nat × Nat)}
    (hSorted : spans.Pairwise (·.1 ≤ ·.1)) (h : steady value inside toggles spans = true) {span : Nat × Nat}
    (hSpan : span ∈ spans) {n : Nat} (hLow : span.1 ≤ n) (hHigh : n ≤ span.2) : toggled inside toggles n = value := by
  induction toggles generalizing inside spans with
  | nil =>
    rcases Bool.or_eq_true_iff.mp h with hNone | hSame
    · rw [List.isEmpty_iff.mp hNone] at hSpan
      cases hSpan
    · exact eq_of_beq hSame
  | cons t toggles ih =>
    simp only [steady, Bool.and_eq_true] at h
    obtain ⟨⟨hBefore, hHead⟩, hLater⟩ := h
    rw [toggled]
    rw [← List.takeWhile_append_dropWhile (p := fun s : Nat × Nat => s.2 < t) (l := spans)] at hSpan
    rcases List.mem_append.mp hSpan with hSpan | hSpan
    · have hBelow : span.2 < t := by simpa using List.mem_takeWhile_imp hSpan
      rw [if_pos (by omega)]
      rcases Bool.or_eq_true_iff.mp hBefore with hNone | hSame
      · rw [List.isEmpty_iff.mp hNone] at hSpan
        cases hSpan
      · exact eq_of_beq hSame
    · have hRest := hSorted.sublist (List.dropWhile_sublist fun s : Nat × Nat => decide (s.2 < t))
      have hFrom : t ≤ span.1 := by
        generalize spans.dropWhile _ = later at hHead hRest hSpan
        cases later with
        | nil => cases hSpan
        | cons first later =>
          have hFirst : t ≤ first.1 := of_decide_eq_true hHead
          rcases List.mem_cons.mp hSpan with rfl | hSpan
          · exact hFirst
          · exact Nat.le_trans hFirst (List.rel_of_pairwise_cons hRest hSpan)
      rw [if_neg (by omega)]
      exact ih hRest hLater hSpan

/-- The spans follow each other and hold word characters only. -/
def Worded (spans : List (Nat × Nat)) : Prop :=
  spans.IsChain (·.1 ≤ ·.1) ∧ steady true false wordToggles spans = true

theorem Worded.word {spans : List (Nat × Nat)} (h : Worded spans) {low high n : Nat} (hSpan : (low, high) ∈ spans)
    (hLow : low ≤ n) (hHigh : n ≤ high) : wordBeyondAscii n = true := by
  have hTrans : Trans (α := Nat × Nat) (β := Nat × Nat) (γ := Nat × Nat) (·.1 ≤ ·.1) (·.1 ≤ ·.1) (·.1 ≤ ·.1) :=
    ⟨Nat.le_trans⟩
  exact toggled_of_steady (List.isChain_iff_pairwise.mp h.1) h.2 hSpan hLow hHigh

/-- A mark that is no word character; its upper case is the capital iota. -/
def combiningIota : Char := Char.ofNat 837

/-- Neither the combining iota nor the small letters in circles. -/
def lettered (r : CaseRun) : Bool :=
  r.first != 837 && r.first != 9424

/-- Characters with an upper case are word characters, but for the combining iota and the letters in circles. Capital
letters in circles are none either. -/
theorem worded_upper : Worded (upperSequences.map fun e => (e.1, e.1)) ∧
    Worded ((upperRuns.filter lettered).map fun r => (r.first, r.last)) ∧
    (∀ r ∈ upperRuns, lettered r = true ∨ r.first = 837 ∧ r.last = 837 ∨
      r.first = 9424 ∧ r.last = 9449 ∧ r.delta = -26) ∧
    steady false false wordToggles [(9398, 9423)] = true := by
  unfold Worded
  decide +kernel

/-- Only the combining iota becomes a word character in upper case. -/
theorem upperChar_of_not_wordChar (h : wordChar c = false) (hIota : c ≠ combiningIota) :
    ∃ d, upperChar c = [d] ∧ wordChar d = false := by
  unfold upperChar
  dsimp only
  split
  · rename_i hAscii
    split
    · rename_i hSmall
      simp only [Bool.and_eq_true, decide_eq_true_eq] at hSmall
      simp [wordChar, hAscii, hSmall] at h
    · exact ⟨c, rfl, h⟩
  rename_i hAscii
  have hBeyond : wordBeyondAscii c.toNat = false := by simpa [wordChar, hAscii] using h
  obtain ⟨hSequences, hRuns, hOthers, hCircled⟩ := worded_upper
  split
  · rename_i hSequence
    have hSpan := List.mem_map_of_mem (f := fun e : Nat × List Nat => (e.1, e.1)) (mem_of_lookup_upperSequences hSequence)
    rw [hSequences.word hSpan (Nat.le_refl _) (Nat.le_refl _)] at hBeyond
    cases hBeyond
  split
  · rename_i m hMoved
    obtain ⟨r, hFind, hMoved⟩ := Option.map_eq_some_iff.mp hMoved
    have hRun := List.mem_of_find?_eq_some hFind
    have hCovers := List.find?_some hFind
    simp only [CaseRun.covers, Bool.and_eq_true, decide_eq_true_eq] at hCovers
    rcases hOthers r hRun with hLettered | ⟨hFirst, hLast⟩ | ⟨hFirst, hLast, hDelta⟩
    · have hSpan := List.mem_map_of_mem (f := fun r : CaseRun => (r.first, r.last)) (List.mem_filter.mpr ⟨hRun, hLettered⟩)
      rw [hRuns.word hSpan hCovers.1.1 hCovers.1.2] at hBeyond
      cases hBeyond
    · have hCode : c.toNat = 837 := by omega
      exact absurd (by rw [combiningIota, ← hCode, Char.ofNat_toNat]) hIota
    · have hValid : m.isValidChar := .inl (by omega)
      have hCode : (Char.ofNat m).toNat = m := by
        rw [Char.ofNat, dif_pos hValid]
        rfl
      refine ⟨_, rfl, ?_⟩
      rw [wordChar, hCode, if_neg (by omega)]
      exact toggled_of_steady (List.pairwise_singleton _ _) hCircled (List.mem_singleton_self _) (by omega) (by omega)
  · exact ⟨c, rfl, h⟩

end Agenda.Text
