import Agenda.Proofs.Command.Line
import Agenda.Proofs.Text.Blank

/-! # Captured texts

What a rule captures behind a blank begins with no other blank, since the line is squeezed. So the
captured text is not empty, and not once it is trimmed.
-/

namespace Agenda.Command

open Pattern Text

/-- Not empty, and without blanks at either end. -/
def Proper (s : String) : Prop :=
  s ≠ "" ∧ trim s.toList = s.toList

variable {line cs : List Char} {m : Match} {n : Nat} {p q : Pattern} {parts before after : List Pattern} {c : Char}

theorem ofList_ne_empty (h : cs ≠ []) : String.ofList cs ≠ "" := by
  intro hEmpty
  exact h (String.ofList_injective hEmpty)

theorem proper_trim (hc : c ∈ cs) (hBlank : blank c = false) : Proper (String.ofList (trim cs)) := by
  refine ⟨ofList_ne_empty (List.ne_nil_of_mem (mem_trim hc hBlank)), ?_⟩
  rw [String.toList_ofList, trim_trim]

theorem proper_lower_of_word (h : word.Takes cs) : Proper (String.ofList (lower cs)) := by
  obtain ⟨hWord, hLeast⟩ := h
  refine ⟨ofList_ne_empty (lower_ne_nil (List.ne_nil_of_length_pos hLeast)), ?_⟩
  rw [String.toList_ofList]
  exact trim_of_unbroken fun d hd => blank_of_mem_lowerFrom (fun c hc => blank_of_wordChar (hWord c hc)) hd

/-! ## Behind a blank -/

/-- The parts end with blanks, and perhaps an optional part that does so too. -/
inductive EndBlank : List Pattern → Prop
  | blanks : EndBlank [blanks]
  | opt (p : Pattern) : EndBlank [.blanks, .opt (p ++ .blanks)]
  | optCapture (n : Nat) (p : Pattern) : EndBlank [.blanks, .opt (capture n (p ++ .blanks))]
  | cons {p : Pattern} {parts : List Pattern} (h : EndBlank parts) : EndBlank (p :: parts)

theorem last_of_blanks {g : Texts} (h : blanks.Yields cs g) : ∃ front c, cs = front ++ [c] ∧ blank c = true := by
  obtain ⟨hAll, hLeast, _, _⟩ := h
  have hLast := List.dropLast_append_getLast (List.ne_nil_of_length_pos hLeast)
  exact ⟨_, _, hLast.symm, hAll _ (List.getLast_mem _)⟩

theorem last_of_append {l r : List Char} (h : ∃ front c, r = front ++ [c] ∧ blank c = true) :
    ∃ front c, l ++ r = front ++ [c] ∧ blank c = true := by
  obtain ⟨front, c, rfl, hBlank⟩ := h
  exact ⟨l ++ front, c, (List.append_assoc l front [c]).symm, hBlank⟩

theorem last_of_opt {g : Texts} (h : (inOrder [blanks, opt p]).Yields cs g)
    (hp : ∀ cs g, p.Yields cs g → ∃ front c, cs = front ++ [c] ∧ blank c = true) :
    ∃ front c, cs = front ++ [c] ∧ blank c = true := by
  obtain ⟨l, _, _, _, rfl, hl, ⟨r, _, _, _, rfl, hr | ⟨rfl, _⟩, ⟨rfl, _⟩, _⟩, _⟩ := h
  · rw [List.append_nil]
    exact last_of_append (hp r _ hr)
  · rw [List.append_nil, List.append_nil]
    exact last_of_blanks hl

theorem EndBlank.last {g : Texts} (h : EndBlank parts) (hYields : (inOrder parts).Yields cs g) :
    ∃ front c, cs = front ++ [c] ∧ blank c = true := by
  induction h generalizing cs g with
  | blanks =>
    obtain ⟨l, _, _, _, rfl, hl, ⟨rfl, _⟩, _⟩ := hYields
    rw [List.append_nil]
    exact last_of_blanks hl
  | opt p =>
    refine last_of_opt hYields fun _ _ hAll => ?_
    obtain ⟨l, r, _, _, rfl, _, hr, _⟩ := hAll
    exact last_of_append (last_of_blanks hr)
  | optCapture n p =>
    refine last_of_opt hYields fun _ _ hAll => ?_
    obtain ⟨_, ⟨l, r, _, _, rfl, _, hr, _⟩, _⟩ := hAll
    exact last_of_append (last_of_blanks hr)
  | cons _ ih =>
    obtain ⟨l, r, _, _, rfl, _, hr, _⟩ := hYields
    exact last_of_append (ih hr)

/-! ## Texts of captures -/

theorem lookup_of_parts {t : List Char} {g g' : Texts} (hYields : p.Yields cs g) (hOnce : p.parts n = []) :
    (g ++ (n, t) :: g').lookup n = some t := by
  have hNone : g.lookup n = none := by
    rw [List.lookup_eq_none_iff]
    rintro ⟨k, u⟩ hMem
    rw [bne_iff_ne]
    rintro rfl
    obtain ⟨_, part, hPart, _⟩ := hYields.captured hMem
    rw [hOnce] at hPart
    cases hPart
  rw [List.lookup_append, hNone, List.lookup_cons_self]
  rfl

theorem text_of_lineOf (i : Nat) (hLine : Squeezed line) (hMatch : (lineOf parts).matchStart line = some m)
    (hAt : parts[i]? = some (capture n p)) (hOnce : (inOrder (parts.drop (i + 1))).parts n = []) :
    ∃ l r g, line = l ++ (m.text n ++ r) ∧ p.Takes (m.text n) ∧ (inOrder (parts.take i)).Yields l g := by
  obtain ⟨hIndex, hPart⟩ := List.getElem?_eq_some_iff.mp hAt
  have hParts : parts = parts.take i ++ capture n p :: parts.drop (i + 1) := by
    rw [← hPart, ← List.drop_eq_getElem_cons hIndex, List.take_append_drop]
  have hYields := yields_of_lineOf hLine hMatch
  rw [hParts, yields_append] at hYields
  obtain ⟨l, _, g₁, _, hSplit, hBefore, ⟨t, r, g₂, g₃, rfl, ⟨g₂', ht, rfl⟩, hAfter, rfl⟩, hTexts⟩ := hYields
  have hText : m.text n = t := by
    rw [Match.text_eq, hTexts, List.append_assoc, List.cons_append, lookup_of_parts hAfter hOnce, Option.getD_some]
  rw [hText]
  exact ⟨l, r, g₁, hSplit, ht.takes, hBefore⟩

theorem not_blank_behind {l r : List Char} {d : Char} (h : Squeezed (l ++ [c] ++ d :: r)) (hBlank : blank c = true) :
    blank d = false := by
  have hPair : Squeezed [c, d] := h.of_part ⟨l, r, by simp⟩
  have hNot := (List.isChain_cons_cons.mp hPair.2).1
  exact Bool.eq_false_iff.mpr fun hd => hNot ⟨hBlank, hd⟩

/-- A part that takes some of the line behind a blank captures more than blanks. -/
theorem proper_of_lineOf (i : Nat) (hLine : Squeezed line) (hMatch : (lineOf parts).matchStart line = some m)
    (hAt : parts[i]? = some (capture n p)) (hOnce : (inOrder (parts.drop (i + 1))).parts n = [])
    (hBefore : EndBlank (parts.take i)) (hSome : ¬ p.Takes []) : Proper (String.ofList (trim (m.text n))) := by
  obtain ⟨l, r, g, rfl, hTakes, hl⟩ := text_of_lineOf i hLine hMatch hAt hOnce
  obtain ⟨front, c, rfl, hBlank⟩ := hBefore.last hl
  cases hText : m.text n with
  | nil =>
    rw [hText] at hTakes
    exact absurd hTakes hSome
  | cons d cs =>
    rw [hText] at hLine
    exact proper_trim List.mem_cons_self (not_blank_behind hLine hBlank)

end Agenda.Command
