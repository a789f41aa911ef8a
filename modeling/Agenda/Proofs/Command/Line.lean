import Agenda.Command.Grammar
import Agenda.Proofs.Pattern
import Agenda.Proofs.Text.Letter

/-! # Lines made of parts

A rule reads a whole line, part by part. Each way to read the line can be run, and a match has
read it in one of these ways, in which an optional part was passed over only if the rest of the line
cannot be read with it.
-/

namespace Agenda.Command

open Pattern Text

/-- Parts that are read one after the other. -/
def inOrder (parts : List Pattern) : Pattern :=
  parts.foldr (· ++ ·) empty

variable {p : Pattern} {parts before after : List Pattern} {cs line : List Char} {g : Texts} {m : Match}

/-! ## Parts in order -/

@[simp] theorem yields_nil : (inOrder []).Yields cs g ↔ cs = [] ∧ g = [] :=
  Iff.rfl

@[simp] theorem yields_cons : (inOrder (p :: parts)).Yields cs g ↔
    ∃ l r g₁ g₂, cs = l ++ r ∧ p.Yields l g₁ ∧ (inOrder parts).Yields r g₂ ∧ g = g₂ ++ g₁ :=
  Iff.rfl

theorem yields_append : (inOrder (before ++ after)).Yields cs g ↔
    ∃ l r g₁ g₂, cs = l ++ r ∧ (inOrder before).Yields l g₁ ∧ (inOrder after).Yields r g₂ ∧ g = g₂ ++ g₁ := by
  induction before generalizing cs g with
  | nil =>
    constructor
    · intro h
      exact ⟨[], cs, [], g, rfl, ⟨rfl, rfl⟩, h, (List.append_nil g).symm⟩
    · rintro ⟨_, r, _, g₂, rfl, ⟨rfl, rfl⟩, h, rfl⟩
      rwa [List.append_nil]
  | cons p before ih =>
    rw [List.cons_append, yields_cons]
    constructor
    · rintro ⟨l, _, g₁, _, rfl, hp, hRest, rfl⟩
      obtain ⟨l', r, g₂, g₃, rfl, hBefore, hAfter, rfl⟩ := ih.mp hRest
      exact ⟨l ++ l', r, g₂ ++ g₁, g₃, (List.append_assoc l l' r).symm, ⟨l, l', g₁, g₂, rfl, hp, hBefore, rfl⟩, hAfter,
        List.append_assoc g₃ g₂ g₁⟩
    · rintro ⟨_, r, _, g₃, rfl, ⟨l, l', g₁, g₂, rfl, hp, hBefore, rfl⟩, hAfter, rfl⟩
      exact ⟨l, l' ++ r, g₁, g₃ ++ g₂, List.append_assoc l l' r, hp, ih.mpr ⟨l', r, g₂, g₃, rfl, hBefore, hAfter, rfl⟩,
        (List.append_assoc g₃ g₂ g₁).symm⟩

variable {β : Type} {c d : Cursor} {h : Captures} {k : Cursor → Captures → Option β}

theorem run_append : (inOrder (before ++ after)).run c h k =
    (inOrder before).run c h fun d h => (inOrder after).run d h k := by
  induction before generalizing c h with
  | nil => rfl
  | cons p before ih =>
    show p.run c h _ = p.run c h _
    congr 1
    funext d h
    exact ih

theorem run_parts : (parts.foldr (· ++ ·) ends).run c h k =
    (inOrder parts).run c h fun d h => if atEnd d then k d h else none := by
  induction parts generalizing c h with
  | nil => rfl
  | cons p parts ih =>
    show p.run c h _ = p.run c h _
    congr 1
    funext d h
    exact ih

/-- A match at a cursor that has nothing but the end behind it. -/
def endMatch (d : Cursor) (h : Captures) : Option Match :=
  if atEnd d then some ⟨0, d.index, h, d⟩ else none

theorem matchStart_lineOf : (lineOf parts).matchStart line = (inOrder parts).run (.start line) [] endMatch :=
  run_parts

theorem newline_not_mem (h : Squeezed line) : '\n' ∉ line := by
  intro hMem
  cases h.1 '\n' hMem (by decide)

theorem rest_of_atEnd (h : '\n' ∉ d.rest.getLast?) (hEnd : atEnd d = true) : d.rest = [] := by
  unfold atEnd at hEnd
  split at hEnd
  · assumption
  · rename_i x hRest
    rw [hRest, eq_of_beq hEnd] at h
    exact absurd rfl h
  · cases hEnd

/-- A run up to the end has read all that was left, unless a newline is at the end. -/
theorem yields_of_run_endMatch (hLine : '\n' ∉ c.rest.getLast?) (hRun : p.run c h endMatch = some m) :
    ∃ g, p.Yields c.rest g ∧ texts m.captures = g ++ texts h := by
  obtain ⟨cs, d, new, hReads, hLast⟩ := runs_of_run hRun
  unfold endMatch at hLast
  obtain ⟨hEnd, rfl⟩ : atEnd d = true ∧ ⟨0, d.index, new ++ h, d⟩ = m := by
    simpa only [Option.ite_none_right_eq_some, Option.some.injEq] using hLast
  have hRest : d.rest = [] := by
    refine rest_of_atEnd (fun hLast => hLine ?_) hEnd
    rw [hReads.rest, List.getLast?_append, hLast]
    rfl
  refine ⟨texts new, ?_, texts_append h new⟩
  rw [hReads.rest, hRest, List.append_nil]
  exact hReads.yields

theorem isSome_run_endMatch (hPlain : p.plain = true) (hYields : p.Yields c.rest g) : (p.run c h endMatch).isSome := by
  refine isSome_run hPlain hYields (List.append_nil c.rest).symm fun d new hd _ _ => ?_
  have hEnd : atEnd d = true := by rw [atEnd, hd]
  rw [endMatch, if_pos hEnd]
  rfl

/-! ## Matches of a line -/

theorem yields_of_match (hLine : '\n' ∉ line.getLast?) (hMatch : (lineOf parts).matchStart line = some m) :
    (inOrder parts).Yields line (texts m.captures) := by
  rw [matchStart_lineOf] at hMatch
  obtain ⟨g, hYields, hTexts⟩ := yields_of_run_endMatch hLine hMatch
  have hSame : texts m.captures = g := hTexts.trans (List.append_nil g)
  rw [hSame]
  exact hYields

theorem yields_of_lineOf (hLine : Squeezed line) (hMatch : (lineOf parts).matchStart line = some m) :
    (inOrder parts).Yields line (texts m.captures) :=
  yields_of_match (fun h => newline_not_mem hLine (List.mem_of_mem_getLast? h)) hMatch

theorem plain_inOrder (hPlain : ∀ p ∈ parts, p.plain = true) : (inOrder parts).plain = true := by
  induction parts with
  | nil => rfl
  | cons p parts ih =>
    obtain ⟨hp, hParts⟩ := List.forall_mem_cons.mp hPlain
    exact Bool.and_eq_true_iff.mpr ⟨hp, ih hParts⟩

theorem exists_match_lineOf (hPlain : ∀ p ∈ parts, p.plain = true) (hYields : (inOrder parts).Yields line g) :
    ∃ m, (lineOf parts).matchStart line = some m := by
  rw [matchStart_lineOf]
  exact Option.isSome_iff_exists.mp (isSome_run_endMatch (plain_inOrder hPlain) hYields)

/-- An optional part is passed over only if the rest cannot be read with it. -/
theorem opt_of_lineOf (hLine : Squeezed line) (hPlain : ∀ q ∈ p :: after, q.plain = true)
    (hMatch : (lineOf (before ++ opt p :: after)).matchStart line = some m) :
    ∃ l r g₀, line = l ++ r ∧ (inOrder before).Yields l g₀ ∧
      ((∃ g, (inOrder (p :: after)).Yields r g ∧ texts m.captures = g ++ g₀) ∨
        (∀ g, ¬ (inOrder (p :: after)).Yields r g) ∧
          ∃ g, (inOrder after).Yields r g ∧ texts m.captures = g ++ g₀) := by
  rw [matchStart_lineOf, run_append] at hMatch
  obtain ⟨l, d, new, hReads, hRun⟩ := runs_of_run hMatch
  have hSplit : line = l ++ d.rest := hReads.rest
  have hRest : '\n' ∉ d.rest.getLast? := fun hMem =>
    newline_not_mem hLine (hSplit ▸ List.mem_append_right l (List.mem_of_mem_getLast? hMem))
  refine ⟨l, d.rest, texts new, hSplit, hReads.yields, ?_⟩
  rw [List.append_nil] at hRun
  rcases eq_some_or_of_orElse hRun with hWith | ⟨hNone, hWithout⟩
  · exact .inl (yields_of_run_endMatch (p := inOrder (p :: after)) hRest hWith)
  · refine .inr ⟨fun g hYields => ?_, yields_of_run_endMatch hRest hWithout⟩
    have hSome := isSome_run_endMatch (h := new) (plain_inOrder hPlain) hYields
    have hSame : (inOrder (p :: after)).run d new endMatch = none := hNone
    rw [hSame] at hSome
    cases hSome

end Agenda.Command
