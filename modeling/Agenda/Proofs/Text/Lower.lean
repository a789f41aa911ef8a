import Agenda.Proofs.Text.Blank
import Agenda.Proofs.Text.Letter

/-! # Texts that are in lower case

A character that stays what it is in lower case does so anywhere in a text. Every character of a
lower-case form is of this kind, the two small sigmas included, so a text in lower case is its own
lower case.
-/

namespace Agenda.Text

variable {c d : Char} {cs ds : List Char} {afterCased : Bool}

theorem lower_eq_self (h : ∀ c ∈ cs, Spells c c) : lower cs = cs :=
  lower_of_spells (List.forall₂_same.mpr h)

/-! ## The runs of the mapping -/

/-- The code points whose lower case is another one, or more than one. -/
def movingRuns : List CaseRun :=
  ⟨65, 90, 1, 32⟩ :: ⟨304, 304, 1, 0⟩ :: lowerRuns

/-- From `first` to `last`, every `step`-th code point, none is covered by the run. -/
def misses (first last step : Nat) (r : CaseRun) : Bool :=
  Nat.blt last r.first || Nat.blt r.last first || (step == 2 && r.step == 2 && (first + r.first) % 2 == 1) ||
    (first == last && !r.covers first)

theorem not_covers_of_misses {first last step n : Nat} {r : CaseRun} (h : misses first last step r = true)
    (hLow : first ≤ n) (hHigh : n ≤ last) (hStep : (n - first) % step = 0) : r.covers n = false := by
  simp only [misses, Bool.or_eq_true, Bool.and_eq_true, Nat.blt_eq, beq_iff_eq, Bool.not_eq_true'] at h
  by_contra hCovers
  rw [Bool.not_eq_false, CaseRun.covers] at hCovers
  simp only [Bool.and_eq_true, decide_eq_true_eq, beq_iff_eq] at hCovers
  rcases h with ((h | h) | ⟨⟨rfl, hTwo⟩, hOdd⟩) | ⟨rfl, h⟩
  · omega
  · omega
  · rw [hTwo] at hCovers
    omega
  · obtain rfl : n = first := by omega
    rw [CaseRun.covers] at h
    simp [hCovers] at h

/-- The runs that reach between two code points, of runs in order. -/
def reaching (first last : Nat) (runs : List CaseRun) : List CaseRun :=
  (runs.dropWhile fun r => Nat.blt r.last first).takeWhile fun r => Nat.ble r.first last

theorem mem_reaching {first last : Nat} {r : CaseRun} {runs : List CaseRun}
    (hSorted : (runs.map (·.first)).Pairwise (· ≤ ·)) (hr : r ∈ runs) (hLast : first ≤ r.last) (hFirst : r.first ≤ last) :
    r ∈ reaching first last runs := by
  have hBehind : r ∈ runs.dropWhile fun r => Nat.blt r.last first := by
    rw [← List.takeWhile_append_dropWhile (p := fun r => Nat.blt r.last first) (l := runs), List.mem_append] at hr
    refine hr.resolve_left fun hBefore => ?_
    have hOver := List.mem_takeWhile_imp hBefore
    rw [Nat.blt_eq] at hOver
    omega
  have hRest := (List.pairwise_map.mp hSorted).sublist (List.dropWhile_sublist fun r : CaseRun => Nat.blt r.last first)
  unfold reaching
  generalize (runs.dropWhile fun r => Nat.blt r.last first) = rest at hBehind hRest
  induction hRest with
  | nil => cases hBehind
  | @cons s rest hHead _ ih =>
    have hReached : s.first ≤ last := by
      rcases List.mem_cons.mp hBehind with rfl | hr
      · exact hFirst
      · exact (hHead r hr).trans hFirst
    rw [List.takeWhile_cons, if_pos (Nat.ble_eq.mpr hReached)]
    rcases List.mem_cons.mp hBehind with rfl | hr
    · exact List.mem_cons_self
    · exact List.mem_cons_of_mem s (ih hr)

/-- Runs follow each other. They begin beyond ASCII and lead beyond the sign `#`, and where they lead to no run
begins. -/
theorem tabled_lowerRuns : (lowerRuns.map (·.first)).IsChain (· ≤ ·) ∧
    ∀ r ∈ lowerRuns, 128 ≤ r.first ∧ 35 < (r.first : Int) + r.delta ∧
      (⟨65, 90, 1, 32⟩ :: ⟨304, 304, 1, 0⟩ ::
          reaching ((r.first : Int) + r.delta).toNat ((r.last : Int) + r.delta).toNat lowerRuns).all
        (misses ((r.first : Int) + r.delta).toNat ((r.last : Int) + r.delta).toNat r.step) = true := by
  decide +kernel

theorem sorted_lowerRuns : (lowerRuns.map (·.first)).Pairwise (· ≤ ·) :=
  List.isChain_iff_pairwise.mp tabled_lowerRuns.1

theorem not_covers_landing {r s : CaseRun} (hr : r ∈ lowerRuns) (hs : s ∈ movingRuns) {n : Nat}
    (hLow : ((r.first : Int) + r.delta).toNat ≤ n) (hHigh : n ≤ ((r.last : Int) + r.delta).toNat)
    (hStep : (n - ((r.first : Int) + r.delta).toNat) % r.step = 0) : s.covers n = false := by
  obtain ⟨-, -, hMisses⟩ := tabled_lowerRuns.2 r hr
  rw [List.all_eq_true, List.forall_mem_cons, List.forall_mem_cons] at hMisses
  obtain ⟨hCapital, hDotted, hReaching⟩ := hMisses
  rcases List.mem_cons.mp hs with rfl | hs
  · exact not_covers_of_misses hCapital hLow hHigh hStep
  rcases List.mem_cons.mp hs with rfl | hs
  · exact not_covers_of_misses hDotted hLow hHigh hStep
  by_contra hCovers
  rw [Bool.not_eq_false] at hCovers
  have hBounds := hCovers
  simp only [CaseRun.covers, Bool.and_eq_true, decide_eq_true_eq] at hBounds
  have hMem := mem_reaching sorted_lowerRuns hs (hLow.trans hBounds.1.2) (hBounds.1.1.trans hHigh)
  rw [not_covers_of_misses (hReaching s hMem) hLow hHigh hStep] at hCovers
  cases hCovers

/-! ## Characters that stay -/

theorem spells_of_still (h : ∀ r ∈ movingRuns, r.covers c.toNat = false) : Spells c c := by
  simp only [movingRuns, List.forall_mem_cons] at h
  obtain ⟨hCapital, hDotted, hRuns⟩ := h
  have hMoved : CaseRun.moved? lowerRuns c.toNat = none := by
    unfold CaseRun.moved?
    rw [List.find?_eq_none.mpr fun r hr => by simp [hRuns r hr]]
    rfl
  refine ⟨?_, ?_⟩
  · rintro rfl
    have hSigma : CaseRun.moved? lowerRuns 'Σ'.toNat = some 'σ'.toNat := rfl
    rw [hSigma] at hMoved
    cases hMoved
  · have hNotDotted : c ≠ 'İ' := by
      rintro rfl
      exact absurd hDotted (by decide)
    have hNotCapital : (decide (65 ≤ c.toNat) && decide (c.toNat ≤ 90)) = false := by
      simpa [CaseRun.covers, Nat.mod_one] using hCapital
    unfold lowerChar
    simp [hNotDotted, hNotCapital, hMoved]

theorem spells_of_ascii (hAscii : c.toNat < 128) (hSmall : c.toNat < 65 ∨ 90 < c.toNat) : Spells c c := by
  refine spells_of_still (List.forall_mem_cons.mpr ⟨?_, List.forall_mem_cons.mpr ⟨?_, fun r hr => ?_⟩⟩)
  · rw [CaseRun.covers, Bool.and_eq_false_iff, Bool.and_eq_false_iff]
    rcases hSmall with hSmall | hSmall
    · exact .inl (.inl (decide_eq_false (by dsimp only; omega)))
    · exact .inl (.inr (decide_eq_false (by dsimp only; omega)))
  · rw [CaseRun.covers, decide_eq_false (by dsimp only; omega)]
    rfl
  · obtain ⟨hFirst, -⟩ := tabled_lowerRuns.2 r hr
    rw [CaseRun.covers, decide_eq_false (by omega)]
    rfl

theorem spells_of_all (h : cs.all (fun c => c.toNat < 65 || (90 < c.toNat && c.toNat < 128)) = true) :
    ∀ c ∈ cs, Spells c c := by
  intro c hc
  have hCode := List.all_eq_true.mp h c hc
  simp only [Bool.or_eq_true, Bool.and_eq_true, decide_eq_true_eq] at hCode
  exact spells_of_ascii (by omega) (by omega)

/-! ## Lower case of lower case -/

theorem spells_ofNat_of_moved {n m : Nat} (h : CaseRun.moved? lowerRuns n = some m) :
    Spells (Char.ofNat m) (Char.ofNat m) := by
  obtain ⟨r, hFind, rfl⟩ := Option.map_eq_some_iff.mp h
  have hMem := List.mem_of_find?_eq_some hFind
  obtain ⟨-, hPos, -⟩ := tabled_lowerRuns.2 r hMem
  have hCovers := List.find?_some hFind
  simp only [CaseRun.covers, Bool.and_eq_true, decide_eq_true_eq, beq_iff_eq] at hCovers
  rcases toNat_ofNat_cases ((n : Int) + r.delta).toNat with hSame | hZero
  · refine spells_of_still fun s hs => not_covers_landing hMem hs ?_ ?_ ?_
    · omega
    · omega
    · rw [hSame, show ((n : Int) + r.delta).toNat - ((r.first : Int) + r.delta).toNat = n - r.first by omega]
      exact hCovers.2
  · exact spells_of_ascii (by omega) (by omega)

theorem spells_of_mem_lowerChar (hc : c ≠ 'Σ') (hd : d ∈ lowerChar c) : Spells d d := by
  unfold lowerChar at hd
  dsimp only at hd
  split at hd
  · rename_i hAscii
    split at hd
    · rename_i hCapital
      obtain rfl := List.mem_singleton.mp hd
      simp only [Bool.and_eq_true, decide_eq_true_eq] at hCapital
      rcases toNat_ofNat_cases (c.toNat + 32) with hSame | hZero <;> exact spells_of_ascii (by omega) (by omega)
    · rename_i hCapital
      obtain rfl := List.mem_singleton.mp hd
      simp only [Bool.and_eq_true, decide_eq_true_eq] at hCapital
      exact spells_of_ascii hAscii (by omega)
  · split at hd
    · simp only [List.mem_cons, List.not_mem_nil, or_false] at hd
      rcases hd with rfl | rfl
      · exact ⟨by decide, by decide⟩
      · exact ⟨by decide, by decide⟩
    · split at hd
      · rename_i hMoved
        obtain rfl := List.mem_singleton.mp hd
        exact spells_ofNat_of_moved hMoved
      · rename_i hDotted hMoved
        obtain rfl := List.mem_singleton.mp hd
        refine ⟨hc, ?_⟩
        unfold lowerChar
        simp [*]

theorem spells_of_mem_lowerFrom (hd : d ∈ lowerFrom afterCased cs) : Spells d d := by
  induction cs generalizing afterCased with
  | nil => cases hd
  | cons c cs ih =>
    rw [lowerFrom] at hd
    rcases List.mem_append.mp hd with hd | hd
    · split at hd
      · obtain rfl := List.mem_singleton.mp hd
        split <;> exact ⟨by decide, by decide⟩
      · rename_i hc
        exact spells_of_mem_lowerChar hc hd
    · exact ih hd

theorem lower_lower (cs : List Char) : lower (lower cs) = lower cs :=
  lower_eq_self fun _ => spells_of_mem_lowerFrom

/-! ## Characters that no letter becomes -/

theorem hash_notMem_lowerChar (hc : c ≠ '#') : '#' ∉ lowerChar c := by
  intro hd
  have hCode (n : Nat) (h : '#' ∈ [Char.ofNat n]) : n = 35 := by
    have hSame := congrArg Char.toNat (List.mem_singleton.mp h)
    rw [show '#'.toNat = 35 from rfl] at hSame
    rcases toNat_ofNat_cases n with h | h <;> omega
  unfold lowerChar at hd
  dsimp only at hd
  split at hd
  · split at hd
    · rename_i hCapital
      simp only [Bool.and_eq_true, decide_eq_true_eq] at hCapital
      have hSum := hCode _ hd
      omega
    · exact hc (List.mem_singleton.mp hd).symm
  · split at hd
    · exact absurd hd (by decide)
    · split at hd
      · rename_i m hMoved
        obtain ⟨r, hFind, rfl⟩ := Option.map_eq_some_iff.mp hMoved
        obtain ⟨-, hFar, -⟩ := tabled_lowerRuns.2 r (List.mem_of_find?_eq_some hFind)
        have hCovers := List.find?_some hFind
        simp only [CaseRun.covers, Bool.and_eq_true, decide_eq_true_eq] at hCovers
        have hSum := hCode _ hd
        omega
      · exact hc (List.mem_singleton.mp hd).symm

theorem hash_notMem_lowerFrom (h : '#' ∉ cs) : '#' ∉ lowerFrom afterCased cs := by
  induction cs generalizing afterCased with
  | nil => exact List.not_mem_nil
  | cons c cs ih =>
    obtain ⟨hc, hcs⟩ := not_or.mp (mt List.mem_cons.mpr h)
    rw [lowerFrom, List.mem_append, not_or]
    refine ⟨?_, ih hcs⟩
    split
    · split <;> decide
    · exact hash_notMem_lowerChar (Ne.symm hc)

/-! ## The ends of a text -/

/-- No blank lies between the ends of a run. -/
theorem apart_movingRuns : ∀ b ∈ blankRuns, ∀ r ∈ movingRuns, Nat.blt r.last b.1 || Nat.blt b.2 r.first := by
  decide +kernel

theorem spells_of_blank (h : blank c = true) : Spells c c := by
  obtain ⟨b, hb, hLow, hHigh⟩ := exists_blankRun h
  apply spells_of_still
  intro r hr
  have hApart := apart_movingRuns b hb r hr
  simp only [Bool.or_eq_true, Nat.blt_eq] at hApart
  by_contra hCovers
  simp only [Bool.not_eq_false, CaseRun.covers, Bool.and_eq_true, decide_eq_true_eq] at hCovers
  omega

/-- What a character becomes in a text. -/
theorem exists_piece (afterCased : Bool) (c : Char) (cs : List Char) :
    ∃ piece later, lowerFrom afterCased (c :: cs) = piece ++ lowerFrom later cs ∧ piece ≠ [] ∧
      (blank c = true → piece = [c]) ∧ (blank c = false → ∀ d ∈ piece, blank d = false) ∧
      (c ≠ '#' → '#' ∉ piece) := by
  refine ⟨_, _, rfl, ?_⟩
  by_cases hSigma : c = 'Σ'
  · subst hSigma
    rw [if_pos rfl]
    split <;> exact ⟨List.cons_ne_nil _ _, nofun, fun _ => List.forall_mem_singleton.mpr (by decide), fun _ => by decide⟩
  · rw [if_neg hSigma]
    exact ⟨lowerChar_ne_nil c, fun h => (spells_of_blank h).2, fun h _ => blank_of_mem_lowerChar h, hash_notMem_lowerChar⟩

theorem lowerFrom_ne_nil (h : cs ≠ []) : lowerFrom afterCased cs ≠ [] := by
  obtain ⟨c, cs, rfl⟩ := List.exists_cons_of_ne_nil h
  obtain ⟨piece, later, hPiece, hSome, -⟩ := exists_piece afterCased c cs
  rw [hPiece]
  exact List.append_ne_nil_of_left_ne_nil hSome _

/-- A text in lower case begins with a blank if the text does, and only then. -/
theorem head_lower_blank_iff : (∀ d ∈ (lower cs).head?, blank d = false) ↔ ∀ c ∈ cs.head?, blank c = false := by
  cases cs with
  | nil => rfl
  | cons c cs =>
    obtain ⟨piece, later, hPiece, hSome, hBlank, hVisible, -⟩ := exists_piece false c cs
    rw [lower, hPiece, List.head?_append_of_ne_nil _ hSome]
    cases hc : blank c with
    | true => rw [hBlank hc]; rfl
    | false =>
      refine iff_of_true (fun d hd => hVisible hc d (List.mem_of_mem_head? hd)) ?_
      rintro _ ⟨⟩
      exact hc

theorem last_lowerFrom (h : ∀ c ∈ cs.getLast?, blank c = false) :
    ∀ d ∈ (lowerFrom afterCased cs).getLast?, blank d = false := by
  induction cs generalizing afterCased with
  | nil => nofun
  | cons c cs ih =>
    obtain ⟨piece, later, hPiece, hSome, -, hVisible, -⟩ := exists_piece afterCased c cs
    rw [hPiece]
    intro d hd
    by_cases hAlone : cs = []
    · subst hAlone
      rw [lowerFrom, List.append_nil] at hd
      exact hVisible (h c rfl) d (List.mem_of_mem_getLast? hd)
    · rw [List.getLast?_append_of_ne_nil _ (lowerFrom_ne_nil hAlone)] at hd
      refine ih (fun x hx => h x ?_) d hd
      rwa [← List.singleton_append, List.getLast?_append_of_ne_nil _ hAlone]

theorem head_lower_ne_hash (h : cs.head? ≠ some '#') : (lower cs).head? ≠ some '#' := by
  cases cs with
  | nil => exact h
  | cons c cs =>
    obtain ⟨piece, later, hPiece, hSome, -, -, hHash⟩ := exists_piece false c cs
    rw [lower, hPiece, List.head?_append_of_ne_nil _ hSome]
    intro hHead
    refine hHash ?_ (List.mem_of_mem_head? hHead)
    rintro rfl
    exact h rfl

theorem lower_cons_hash (cs : List Char) : lower ('#' :: cs) = '#' :: lower cs := by
  have hLater : (if caseIgnorable '#' then false else cased '#') = false := by decide +kernel
  rw [lower, lowerFrom, hLater]
  rfl

theorem dropWhile_hash_lower (cs : List Char) : (lower cs).dropWhile (· == '#') = lower (cs.dropWhile (· == '#')) := by
  induction cs with
  | nil => rfl
  | cons c cs ih =>
    by_cases hHash : c = '#'
    · subst hHash
      rw [lower_cons_hash, List.dropWhile_cons_of_pos (by decide), List.dropWhile_cons_of_pos (by decide), ih]
    · have hHead : (lower (c :: cs)).head? ≠ some '#' := by
        apply head_lower_ne_hash
        simpa using hHash
      rw [List.dropWhile_cons_of_neg (by simpa using hHash), List.dropWhile_eq_self_iff]
      intro hPos hStart
      apply hHead
      rw [List.head?_eq_getElem?, List.getElem?_eq_getElem hPos, eq_of_beq hStart]

theorem trim_lower_trim (cs : List Char) : trim (lower (trim cs)) = lower (trim cs) := by
  obtain ⟨hFront, hBack⟩ := trim_eq_self_iff.mp (trim_trim cs)
  exact trim_eq_self_iff.mpr ⟨head_lower_blank_iff.mpr hFront, last_lowerFrom hBack⟩

/-! ## Parts of a lower-case text -/

/-- What is left of the dot when a dotted capital i becomes lower case. -/
def dotAbove : Char := Char.ofNat 775

/-- What a stretch of some text is in lower case there. Only a sigma depends on the text around it. -/
inductive Lowers : List Char → List Char → Prop
  | nil : Lowers [] []
  | sigma {cs ds : List Char} {small : Char} (hSmall : small = 'σ' ∨ small = 'ς') (h : Lowers cs ds) :
    Lowers ('Σ' :: cs) (small :: ds)
  | other {cs ds : List Char} {c : Char} (hc : c ≠ 'Σ') (h : Lowers cs ds) : Lowers (c :: cs) (lowerChar c ++ ds)

theorem lowerChar_dotted : lowerChar 'İ' = ['i', dotAbove] := rfl

theorem exists_lowerChar (hc : c ≠ 'İ') : ∃ d, lowerChar c = [d] := by
  unfold lowerChar
  dsimp only
  repeat' split
  all_goals exact ⟨_, rfl⟩

theorem Lowers.length_eq (h : Lowers cs ds) : ds.length = cs.length + cs.count 'İ' := by
  induction h with
  | nil => rfl
  | sigma _ _ ih =>
    rw [List.count_cons_of_ne (by decide), List.length_cons, List.length_cons, ih]
    omega
  | @other cs ds c _ _ ih =>
    by_cases hc : c = 'İ'
    · subst hc
      rw [lowerChar_dotted, List.count_cons_self, List.length_append, List.length_cons, ih]
      simp only [List.length_cons, List.length_nil]
      omega
    · obtain ⟨d, hd⟩ := exists_lowerChar hc
      rw [hd, List.count_cons_of_ne hc, List.length_append, List.length_cons, ih]
      simp only [List.length_cons, List.length_nil]
      omega

theorem Lowers.append {cs' ds' : List Char} (h : Lowers cs ds) (h' : Lowers cs' ds') : Lowers (cs ++ cs') (ds ++ ds') := by
  induction h with
  | nil => exact h'
  | sigma hSmall _ ih => exact .sigma hSmall ih
  | other hc _ ih =>
    rw [List.append_assoc]
    exact .other hc ih

theorem Lowers.sigma_notMem (h : Lowers cs ds) (hMedial : 'σ' ∉ ds) (hFinal : 'ς' ∉ ds) : 'Σ' ∉ cs := by
  induction h with
  | nil => exact List.not_mem_nil
  | sigma hSmall _ _ =>
    rcases hSmall with rfl | rfl
    · exact absurd List.mem_cons_self hMedial
    · exact absurd List.mem_cons_self hFinal
  | other hc _ ih =>
    rw [List.mem_append, not_or] at hMedial hFinal
    rw [List.mem_cons, not_or]
    exact ⟨Ne.symm hc, ih hMedial.2 hFinal.2⟩

theorem Lowers.dotted_notMem (h : Lowers cs ds) (hDot : dotAbove ∉ ds) : 'İ' ∉ cs := by
  induction h with
  | nil => exact List.not_mem_nil
  | sigma _ _ ih =>
    rw [List.mem_cons, not_or] at hDot ⊢
    exact ⟨by decide, ih hDot.2⟩
  | other _ _ ih =>
    rw [List.mem_append, not_or] at hDot
    rw [List.mem_cons, not_or]
    refine ⟨?_, ih hDot.2⟩
    rintro rfl
    exact hDot.1 (List.mem_cons_of_mem _ List.mem_cons_self)

theorem Lowers.eq_lowerFrom (h : Lowers cs ds) (hSigma : 'Σ' ∉ cs) : lowerFrom afterCased cs = ds := by
  induction h generalizing afterCased with
  | nil => rfl
  | sigma => exact absurd List.mem_cons_self hSigma
  | other hc _ ih => rw [lowerFrom, if_neg hc, ih (mt (List.mem_cons_of_mem _) hSigma)]

/-- Every character but one becomes a single one. -/
theorem exists_lowered (hc : c ≠ 'İ') : ∃ d later, lowerFrom afterCased (c :: cs) = d :: lowerFrom later cs ∧
    ∀ l ds, Lowers l ds → Lowers (c :: l) (d :: ds) := by
  by_cases hSigma : c = 'Σ'
  · subst hSigma
    refine ⟨_, _, rfl, fun l ds h => .sigma ?_ h⟩
    split
    · exact .inr rfl
    · exact .inl rfl
  · obtain ⟨d, hd⟩ := exists_lowerChar hc
    refine ⟨d, _, by rw [lowerFrom, if_neg hSigma, hd, List.singleton_append], fun l ds h => ?_⟩
    have hLowers := Lowers.other hSigma h
    rwa [hd] at hLowers

/-- A lower-case text can be cut between two characters of the text, and elsewhere only inside a
dotted i. -/
theorem lowers_of_lowerFrom {front back : List Char} (h : lowerFrom afterCased cs = front ++ back) :
    (∃ l r later, cs = l ++ r ∧ Lowers l front ∧ lowerFrom later r = back) ∨
      front.getLast? = some 'i' ∧ back.head? = some dotAbove := by
  induction cs generalizing afterCased front with
  | nil =>
    obtain ⟨rfl, rfl⟩ := List.append_eq_nil_iff.mp h.symm
    exact .inl ⟨[], [], afterCased, rfl, .nil, rfl⟩
  | cons c cs ih =>
    cases front with
    | nil => exact .inl ⟨[], c :: cs, afterCased, rfl, .nil, h⟩
    | cons d front =>
      have hLast (e : Char) (front : List Char) : front.getLast? = some 'i' → (e :: front).getLast? = some 'i' := by
        intro hi
        rw [List.getLast?_cons, hi]
        rfl
      by_cases hDotted : c = 'İ'
      · subst hDotted
        rw [lowerFrom, if_neg (by decide), lowerChar_dotted] at h
        obtain ⟨rfl, hRest⟩ := List.cons.inj h
        cases front with
        | nil => exact .inr ⟨rfl, congrArg List.head? hRest.symm⟩
        | cons e front =>
          obtain ⟨rfl, hBehind⟩ := List.cons.inj hRest
          rcases ih hBehind with ⟨l, r, later, rfl, hl, hr⟩ | ⟨hi, hDot⟩
          · exact .inl ⟨'İ' :: l, r, later, rfl, .other (by decide) hl, hr⟩
          · exact .inr ⟨hLast _ _ (hLast _ _ hi), hDot⟩
      · obtain ⟨x, later, hx, hLowers⟩ := @exists_lowered c cs afterCased hDotted
        obtain ⟨rfl, hRest⟩ := List.cons.inj (hx.symm.trans h)
        rcases ih hRest with ⟨l, r, later, rfl, hl, hr⟩ | ⟨hi, hDot⟩
        · exact .inl ⟨c :: l, r, later, rfl, hLowers l front hl, hr⟩
        · exact .inr ⟨hLast _ _ hi, hDot⟩

end Agenda.Text
