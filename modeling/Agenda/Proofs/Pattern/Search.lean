import Agenda.Proofs.Pattern

/-! # What the matches of a search say about the text

The matches that are found one after the other cut the text into the stretches that they have read
and what lies between those. So a text with its matches replaced is that text with the stretches
exchanged.
-/

namespace Agenda.Pattern

variable {p : Pattern} {m : Match} {ms : List Match} {cs stretch : List Char} {before : Option Char} {index n : Nat}

/-- What a numbered part has read lies in what the whole match has read. -/
theorem text_within (h : p.Yields stretch (texts m.captures)) : m.text n <:+: stretch := by
  rw [Match.text_eq]
  cases hText : (texts m.captures).lookup n with
  | none => exact List.nil_infix
  | some t =>
    obtain ⟨_, _, hTexts, _⟩ := List.lookup_eq_some_iff.mp hText
    exact (h.captured (hTexts ▸ List.mem_append_cons_self)).1

/-! ## One match -/

/-- The match has read `stretch`, which ends before `back`. -/
structure Covers (p : Pattern) (m : Match) (stretch back : List Char) : Prop where
  stop : m.stop = m.start + stretch.length
  rest : m.after.rest = back
  index : m.after.index = m.stop
  yields : p.Yields stretch (texts m.captures)

theorem covers_of_matchAt {c : Cursor} (h : p.matchAt c = some m) :
    ∃ stretch back, c.rest = stretch ++ back ∧ m.start = c.index ∧ p.Covers m stretch back := by
  obtain ⟨stretch, d, new, hReads, hEnd⟩ := runs_of_run h
  rw [List.append_nil] at hEnd
  cases hEnd
  exact ⟨stretch, d.rest, hReads.rest, rfl, hReads.index, rfl, rfl, hReads.yields⟩

theorem covers_of_searchFrom (h : p.searchFrom cs before index = some m) :
    ∃ front stretch back, cs = front ++ (stretch ++ back) ∧ m.start = index + front.length ∧
      p.Covers m stretch back := by
  induction cs generalizing before index with
  | nil =>
    obtain ⟨stretch, back, hRest, hStart, hCovers⟩ := covers_of_matchAt h
    exact ⟨[], stretch, back, hRest, hStart, hCovers⟩
  | cons c cs ih =>
    rcases eq_some_or_of_orElse h with h | ⟨_, h⟩
    · obtain ⟨stretch, back, hRest, hStart, hCovers⟩ := covers_of_matchAt h
      exact ⟨[], stretch, back, hRest, hStart, hCovers⟩
    · obtain ⟨front, stretch, back, rfl, hStart, hCovers⟩ := ih h
      refine ⟨c :: front, stretch, back, rfl, ?_, hCovers⟩
      rw [hStart, List.length_cons]
      omega

/-! ## All matches -/

/-- The matches follow each other in the text; `index` is where the text begins. -/
inductive Laid (p : Pattern) : Nat → List Char → List Match → Prop
  | nil {index : Nat} {cs : List Char} : Laid p index cs []
  | cons {index : Nat} {front stretch back : List Char} {m : Match} {ms : List Match}
      (hStart : m.start = index + front.length) (hCovers : p.Covers m stretch back) (hRest : Laid p m.stop back ms) :
      Laid p index (front ++ (stretch ++ back)) (m :: ms)

theorem Laid.behind {c : Char} (h : Laid p (index + 1) cs ms) : Laid p index (c :: cs) ms := by
  cases h with
  | nil => exact .nil
  | @cons _ front stretch back m ms hStart hCovers hRest =>
    have hBehind : m.start = index + (c :: front).length := by
      rw [hStart, List.length_cons]
      omega
    exact Laid.cons hBehind hCovers hRest

theorem laid_allFrom {fuel : Nat} {c : Cursor} : Laid p c.index c.rest (p.allFrom fuel c) := by
  induction fuel generalizing c with
  | zero => exact .nil
  | succ fuel ih =>
    rw [allFrom]
    cases hSearch : p.searchFrom c.rest c.before c.index with
    | none => exact .nil
    | some m =>
      obtain ⟨front, stretch, back, hRest, hStart, hCovers⟩ := covers_of_searchFrom hSearch
      rw [hRest]
      refine .cons hStart hCovers ?_
      rw [← hCovers.rest, ← hCovers.index]
      split
      · exact ih
      · -- a match of nothing is passed by one character
        cases hBack : m.after.rest with
        | nil => exact .nil
        | cons x xs => exact .behind (ih (c := ⟨some x, xs, m.after.index + 1⟩))

theorem Laid.exists_of_mem (h : Laid p index cs ms) (hm : m ∈ ms) :
    ∃ front stretch back, cs = front ++ (stretch ++ back) ∧ m.start = index + front.length ∧
      p.Covers m stretch back := by
  induction h with
  | nil => cases hm
  | @cons index front stretch back k ms hStart hCovers _ ih =>
    rcases List.mem_cons.mp hm with rfl | hm
    · exact ⟨front, stretch, back, rfl, hStart, hCovers⟩
    · obtain ⟨front', stretch', back', rfl, hStart', hCovers'⟩ := ih hm
      refine ⟨front ++ (stretch ++ front'), stretch', back', by simp only [List.append_assoc], ?_, hCovers'⟩
      have hStop := hCovers.stop
      simp only [List.length_append]
      omega

theorem laid_all : Laid p 0 cs (p.all cs) :=
  laid_allFrom (c := .start cs)

theorem laid_search : Laid p 0 cs (p.search cs).toList := by
  cases hSearch : p.search cs with
  | none => exact .nil
  | some m =>
    obtain ⟨front, stretch, back, rfl, hStart, hCovers⟩ := covers_of_searchFrom hSearch
    exact .cons hStart hCovers .nil

theorem all_eq_nil_of_not_found (h : p.found cs = false) : p.all cs = [] := by
  have hSearch : p.searchFrom cs none 0 = none := Option.not_isSome_iff_eq_none.mp (Bool.eq_false_iff.mp h)
  simp only [all, allFrom, Cursor.start, hSearch]

/-- A match of a text has read a stretch of it. -/
theorem takes_of_found (h : p.found cs = true) : ∃ front stretch back, cs = front ++ (stretch ++ back) ∧ p.Takes stretch := by
  obtain ⟨m, hSearch⟩ := Option.isSome_iff_exists.mp h
  obtain ⟨front, stretch, back, hText, _, hCovers⟩ := covers_of_searchFrom hSearch
  exact ⟨front, stretch, back, hText, hCovers.yields.takes⟩

/-! ## Replacing -/

variable {f : Match → List Char}

theorem replaceFrom_cons {front back : List Char} (hStart : m.start = index + front.length)
    (hCovers : p.Covers m stretch back) :
    replaceFrom f index (front ++ (stretch ++ back)) (m :: ms) = front ++ f m ++ replaceFrom f m.stop back ms := by
  have hFront : m.start - index = front.length := by omega
  have hBack : m.stop - index = (front ++ stretch).length := by
    have hStop := hCovers.stop
    rw [List.length_append]
    omega
  rw [replaceFrom, hFront, hBack, List.take_left, ← List.append_assoc, List.drop_left]

/-- What is counted does not become more if no replacement has more of it than what it replaces. -/
theorem countP_replaceFrom_le {q : Char → Bool} (hLaid : Laid p index cs ms)
    (hEach : ∀ m stretch, p.Yields stretch (texts m.captures) → (f m).countP q ≤ stretch.countP q) :
    (replaceFrom f index cs ms).countP q ≤ cs.countP q := by
  induction hLaid with
  | nil => exact Nat.le_refl _
  | cons hStart hCovers _ ih =>
    have hMatch := hEach _ _ hCovers.yields
    rw [replaceFrom_cons hStart hCovers]
    simp only [List.countP_append]
    omega

theorem mem_of_mem_replaceFrom {c : Char} (hLaid : Laid p index cs ms) (h : c ∈ replaceFrom (fun _ => []) index cs ms) :
    c ∈ cs := by
  have hCount : (replaceFrom (fun _ => []) index cs ms).count c ≤ cs.count c :=
    countP_replaceFrom_le hLaid fun _ _ _ => Nat.zero_le _
  have hPos := List.count_pos_iff.mpr h
  exact List.count_pos_iff.mp (by omega)

theorem mem_of_mem_erase {c : Char} (h : c ∈ p.erase cs) : c ∈ cs :=
  mem_of_mem_replaceFrom laid_all h

end Agenda.Pattern
