import Agenda.Pattern
import Mathlib.Data.List.Forall2
import Mathlib.Data.List.Infix

/-! # What a match says about the text

A successful run has read some of the text in front of it, and each numbered part of the pattern
that it went through has read a stretch of that. The ways to read a text are described without the
order of choice and without the places around the text: every run has read in one of them, and where
a pattern looks at no place, each of them can be run. Only the choice between two parts depends on
the order, so what the part in front could not do is kept beside it.
-/

namespace Agenda.Pattern

def Takes : Pattern → List Char → Prop
  | .one p, cs => ∃ x, p x = true ∧ cs = [x]
  | .many _ p least _, cs => (∀ x ∈ cs, p x = true) ∧ least ≤ cs.length
  | .both a b, cs => ∃ l r, cs = l ++ r ∧ a.Takes l ∧ b.Takes r
  | .either a b, cs => a.Takes cs ∨ b.Takes cs
  | .capture _ a, cs => a.Takes cs
  | _, cs => cs = []

/-- Captured texts by number, the latest first. -/
abbrev Texts := List (Nat × List Char)

/-- One way to read all of a text, with the texts that it captures. -/
def Yields : Pattern → List Char → Texts → Prop
  | .one p, cs, g => (∃ x, p x = true ∧ cs = [x]) ∧ g = []
  | .many _ p least most, cs, g => (∀ x ∈ cs, p x = true) ∧ least ≤ cs.length ∧ (∀ n ∈ most, cs.length ≤ n) ∧ g = []
  | .both a b, cs, g => ∃ l r g₁ g₂, cs = l ++ r ∧ a.Yields l g₁ ∧ b.Yields r g₂ ∧ g = g₂ ++ g₁
  | .either a b, cs, g => a.Yields cs g ∨ b.Yields cs g
  | .capture n a, cs, g => ∃ g', a.Yields cs g' ∧ g = (n, cs) :: g'
  | _, cs, g => cs = [] ∧ g = []

/-- The parts of a pattern with a number. -/
def parts (n : Nat) : Pattern → List Pattern
  | .both a b => parts n a ++ parts n b
  | .either a b => parts n a ++ parts n b
  | .capture k a => (if k = n then [a] else []) ++ parts n a
  | _ => []

/-- Every way through the pattern goes through a part with the number. -/
def binds (n : Nat) : Pattern → Bool
  | .both a b => binds n a || binds n b
  | .either a b => binds n a && binds n b
  | .capture k a => k == n || binds n a
  | _ => false

/-- The pattern looks at nothing but the text that it reads. -/
def plain : Pattern → Bool
  | .empty | .one _ | .many .. => true
  | .both a b | .either a b => a.plain && b.plain
  | .capture _ a => a.plain
  | _ => false

/-- No numbered parts, and no repetition that is bounded above. -/
def bare : Pattern → Bool
  | .many _ _ _ most => most.isNone
  | .both a b | .either a b => a.bare && b.bare
  | .capture .. => false
  | _ => true

/-- The pattern may read nothing. -/
def nullable : Pattern → Bool
  | .one _ => false
  | .many _ _ least _ => least == 0
  | .both a b => a.nullable && b.nullable
  | .either a b => a.nullable || b.nullable
  | .capture _ a => a.nullable
  | _ => true

/-- What the pattern reads may have the character in it. -/
def mayRead (x : Char) : Pattern → Bool
  | .one q | .many _ q _ _ => q x
  | .both a b | .either a b => a.mayRead x || b.mayRead x
  | .capture _ a => a.mayRead x
  | _ => false

/-- What the pattern reads may have the character at its end. -/
def mayEnd (x : Char) : Pattern → Bool
  | .one q | .many _ q _ _ => q x
  | .both a b => b.mayEnd x || (b.nullable && a.mayEnd x)
  | .either a b => a.mayEnd x || b.mayEnd x
  | .capture _ a => a.mayEnd x
  | _ => false

variable {p a b : Pattern} {cs l r rest : List Char} {g : Texts} {n : Nat} {x : Char}

/-! ## Ways to read a text -/

theorem Yields.takes (h : p.Yields cs g) : p.Takes cs := by
  induction p generalizing cs g with
  | one q => exact h.1
  | many greedy q least most => exact ⟨h.1, h.2.1⟩
  | both a b iha ihb =>
    obtain ⟨l, r, _, _, rfl, ha, hb, _⟩ := h
    exact ⟨l, r, rfl, iha ha, ihb hb⟩
  | either a b iha ihb => exact h.imp iha ihb
  | capture k a ih =>
    obtain ⟨_, ha, _⟩ := h
    exact ih ha
  | _ => exact h.1

/-- A text is read without captures in one way at most. -/
theorem yields_iff_of_bare (hBare : p.bare = true) : p.Yields cs g ↔ p.Takes cs ∧ g = [] := by
  induction p generalizing cs g with
  | many greedy q least most =>
    obtain rfl := Option.isNone_iff_eq_none.mp hBare
    simp [Yields, Takes, and_assoc]
  | both a b iha ihb =>
    obtain ⟨ha, hb⟩ := Bool.and_eq_true_iff.mp hBare
    constructor
    · rintro ⟨l, r, _, _, rfl, hl, hr, rfl⟩
      obtain ⟨hLeft, rfl⟩ := (iha ha).mp hl
      obtain ⟨hRight, rfl⟩ := (ihb hb).mp hr
      exact ⟨⟨l, r, rfl, hLeft, hRight⟩, rfl⟩
    · rintro ⟨⟨l, r, rfl, hl, hr⟩, rfl⟩
      exact ⟨l, r, [], [], rfl, (iha ha).mpr ⟨hl, rfl⟩, (ihb hb).mpr ⟨hr, rfl⟩, rfl⟩
  | either a b iha ihb =>
    obtain ⟨ha, hb⟩ := Bool.and_eq_true_iff.mp hBare
    simp only [Yields, Takes, iha ha, ihb hb, or_and_right]
  | capture k a ih => cases hBare
  | _ => rfl

theorem Yields.captured {t : List Char} (h : p.Yields cs g) (hMem : (n, t) ∈ g) :
    t <:+: cs ∧ ∃ a ∈ p.parts n, a.Takes t := by
  induction p generalizing cs g with
  | one q => exact absurd (h.2 ▸ hMem) List.not_mem_nil
  | many greedy q least most => exact absurd (h.2.2.2 ▸ hMem) List.not_mem_nil
  | both a b iha ihb =>
    obtain ⟨l, r, _, _, rfl, ha, hb, rfl⟩ := h
    rcases List.mem_append.mp hMem with hMem | hMem
    · obtain ⟨hInfix, part, hPart, hTakes⟩ := ihb hb hMem
      exact ⟨hInfix.trans (List.suffix_append l r).isInfix, part, List.mem_append_right _ hPart, hTakes⟩
    · obtain ⟨hInfix, part, hPart, hTakes⟩ := iha ha hMem
      exact ⟨hInfix.trans (List.prefix_append l r).isInfix, part, List.mem_append_left _ hPart, hTakes⟩
  | either a b iha ihb =>
    rcases h with h | h
    · obtain ⟨hInfix, part, hPart, hTakes⟩ := iha h hMem
      exact ⟨hInfix, part, List.mem_append_left _ hPart, hTakes⟩
    · obtain ⟨hInfix, part, hPart, hTakes⟩ := ihb h hMem
      exact ⟨hInfix, part, List.mem_append_right _ hPart, hTakes⟩
  | capture k a ih =>
    obtain ⟨_, ha, rfl⟩ := h
    rcases List.mem_cons.mp hMem with hMem | hMem
    · cases hMem
      exact ⟨List.infix_refl _, a, by simp [parts], ha.takes⟩
    · obtain ⟨hInfix, part, hPart, hTakes⟩ := ih ha hMem
      exact ⟨hInfix, part, List.mem_append_right _ hPart, hTakes⟩
  | _ => exact absurd (h.2 ▸ hMem) List.not_mem_nil

theorem Yields.bound (h : p.Yields cs g) (hBinds : p.binds n = true) : ∃ t, (n, t) ∈ g := by
  induction p generalizing cs g with
  | both a b iha ihb =>
    obtain ⟨l, r, _, _, rfl, ha, hb, rfl⟩ := h
    rcases Bool.or_eq_true_iff.mp hBinds with hBinds | hBinds
    · obtain ⟨t, hMem⟩ := iha ha hBinds
      exact ⟨t, List.mem_append_right _ hMem⟩
    · obtain ⟨t, hMem⟩ := ihb hb hBinds
      exact ⟨t, List.mem_append_left _ hMem⟩
  | either a b iha ihb =>
    obtain ⟨hLeft, hRight⟩ := Bool.and_eq_true_iff.mp hBinds
    exact h.elim (iha · hLeft) (ihb · hRight)
  | capture k a ih =>
    obtain ⟨_, ha, rfl⟩ := h
    rcases Bool.or_eq_true_iff.mp hBinds with hBinds | hBinds
    · exact ⟨cs, List.mem_cons.mpr (.inl (congrArg (·, _) (eq_of_beq hBinds).symm))⟩
    · obtain ⟨t, hMem⟩ := ih ha hBinds
      exact ⟨t, List.mem_cons_of_mem _ hMem⟩
  | _ => cases hBinds

/-! ## Ends and characters -/

theorem nullable_of_takes (h : p.Takes []) : p.nullable = true := by
  induction p with
  | one q => obtain ⟨_, _, ⟨⟩⟩ := h
  | many greedy q least most => exact beq_iff_eq.mpr (Nat.le_zero.mp h.2)
  | both a b iha ihb =>
    obtain ⟨l, r, hNil, ha, hb⟩ := h
    obtain ⟨rfl, rfl⟩ := List.append_eq_nil_iff.mp hNil.symm
    exact Bool.and_eq_true_iff.mpr ⟨iha ha, ihb hb⟩
  | either a b iha ihb => exact Bool.or_eq_true_iff.mpr (h.imp iha ihb)
  | capture n a ih => exact ih h
  | _ => rfl

theorem mayRead_of_takes (h : p.Takes cs) (hx : x ∈ cs) : p.mayRead x = true := by
  induction p generalizing cs with
  | one q =>
    obtain ⟨y, hy, rfl⟩ := h
    exact List.mem_singleton.mp hx ▸ hy
  | many greedy q least most => exact h.1 x hx
  | both a b iha ihb =>
    obtain ⟨l, r, rfl, ha, hb⟩ := h
    exact Bool.or_eq_true_iff.mpr ((List.mem_append.mp hx).imp (iha ha) (ihb hb))
  | either a b iha ihb => exact Bool.or_eq_true_iff.mpr (h.imp (iha · hx) (ihb · hx))
  | capture n a ih => exact ih h hx
  | _ =>
    obtain rfl : cs = [] := h
    cases hx

theorem mayEnd_of_takes (h : p.Takes cs) (hx : cs.getLast? = some x) : p.mayEnd x = true := by
  induction p generalizing cs with
  | one q =>
    obtain ⟨y, hy, rfl⟩ := h
    cases hx
    exact hy
  | many greedy q least most => exact h.1 x (List.mem_of_mem_getLast? hx)
  | both a b iha ihb =>
    obtain ⟨l, r, rfl, ha, hb⟩ := h
    rw [mayEnd, Bool.or_eq_true_iff, Bool.and_eq_true_iff]
    by_cases hr : r = []
    · subst hr
      rw [List.append_nil] at hx
      exact .inr ⟨nullable_of_takes hb, iha ha hx⟩
    · rw [List.getLast?_append_of_ne_nil _ hr] at hx
      exact .inl (ihb hb hx)
  | either a b iha ihb => exact Bool.or_eq_true_iff.mpr (h.imp (iha · hx) (ihb · hx))
  | capture n a ih => exact ih h hx
  | _ =>
    obtain rfl : cs = [] := h
    cases hx

/-! ## Every run reads in one of the ways -/

def texts (new : Captures) : Texts :=
  new.map fun e => (e.1, e.2.text)

theorem texts_append (new new' : Captures) : texts (new' ++ new) = texts new' ++ texts new :=
  List.map_append

/-- The pattern has read `cs` from `c` up to `d`, and captured `new` on the way. -/
structure Reads (p : Pattern) (cs : List Char) (c d : Cursor) (new : Captures) : Prop where
  rest : c.rest = cs ++ d.rest
  index : d.index = c.index + cs.length
  yields : p.Yields cs (texts new)

variable {c d e : Cursor} {new new' : Captures}

theorem Reads.both (ha : Reads a l c d new) (hb : Reads b r d e new') :
    Reads (.both a b) (l ++ r) c e (new' ++ new) where
  rest := by rw [ha.rest, hb.rest, List.append_assoc]
  index := by rw [hb.index, ha.index, List.length_append, Nat.add_assoc]
  yields := ⟨l, r, _, _, rfl, ha.yields, hb.yields, texts_append new new'⟩

theorem Reads.left (ha : Reads a cs c d new) : Reads (.either a b) cs c d new where
  rest := ha.rest
  index := ha.index
  yields := .inl ha.yields

theorem Reads.right (hb : Reads b cs c d new) : Reads (.either a b) cs c d new where
  rest := hb.rest
  index := hb.index
  yields := .inr hb.yields

theorem take_captured (hRest : c.rest = cs ++ rest) (hIndex : d.index = c.index + cs.length) :
    c.rest.take (d.index - c.index) = cs := by
  rw [hIndex, Nat.add_sub_cancel_left, hRest, List.take_left]

theorem Reads.capture (ha : Reads a cs c d new) (k : Nat) :
    Reads (.capture k a) cs c d ((k, ⟨c.index, d.index, c.rest.take (d.index - c.index)⟩) :: new) where
  rest := ha.rest
  index := ha.index
  yields := by
    rw [take_captured ha.rest ha.index]
    exact ⟨_, ha.yields, rfl⟩

variable {β : Type} {q : Char → Bool} {before : Option Char} {index least : Nat} {most : Option Nat} {x : β}

/-- What a repetition has read when it goes on with `k`. -/
def Repeated (q : Char → Bool) (least : Nat) (most : Option Nat) (cs : List Char) (index : Nat)
    (k : Cursor → Option β) (x : β) : Prop :=
  ∃ taken rest last, cs = taken ++ rest ∧ (∀ y ∈ taken, q y = true) ∧ least ≤ taken.length ∧
    (∀ n ∈ most, taken.length ≤ n) ∧ k ⟨last, rest, index + taken.length⟩ = some x

theorem Repeated.stop {k : Cursor → Option β}
    (h : (if least = 0 then k ⟨before, cs, index⟩ else none) = some x) :
    Repeated q least most cs index k x := by
  split at h
  · rename_i hLeast
    exact ⟨[], cs, before, rfl, by simp, by simp [hLeast], by simp, h⟩
  · cases h

theorem Repeated.step {k : Cursor → Option β} {y : Char} (hy : q y = true) (hMore : most ≠ some 0)
    (h : Repeated q (least - 1) (most.map (· - 1)) cs (index + 1) k x) :
    Repeated q least most (y :: cs) index k x := by
  obtain ⟨taken, rest, last, rfl, hAll, hLeast, hMost, hk⟩ := h
  refine ⟨y :: taken, rest, last, rfl, List.forall_mem_cons.mpr ⟨hy, hAll⟩, ?_, ?_, ?_⟩
  · rw [List.length_cons]
    omega
  · rintro n hn
    have hLess := hMost (n - 1) (Option.mem_map_of_mem _ hn)
    have hPos : n ≠ 0 := by
      rintro rfl
      exact hMore hn
    rw [List.length_cons]
    omega
  · rw [List.length_cons, ← Nat.add_assoc, Nat.add_right_comm]
    exact hk

theorem eq_some_or_of_orElse {x y : Option β} {z : β} (h : (x <|> y) = some z) : x = some z ∨ x = none ∧ y = some z := by
  cases x with
  | none => exact .inr ⟨rfl, h⟩
  | some w => exact .inl h

theorem Repeated.step_of_ite {k : Cursor → Option β} {y : Char} {again : Option β}
    (hAgain : again = some x → Repeated q (least - 1) (most.map (· - 1)) cs (index + 1) k x)
    (h : (if q y && most != some 0 then again else none) = some x) : Repeated q least most (y :: cs) index k x := by
  split at h
  · rename_i hMore
    obtain ⟨hy, hMore⟩ := Bool.and_eq_true_iff.mp hMore
    exact .step hy (bne_iff_ne.mp hMore) (hAgain h)
  · cases h

theorem repeated_of_runGreedy {k : Cursor → Option β} (h : runGreedy q k cs before index least most = some x) :
    Repeated q least most cs index k x := by
  induction cs generalizing before index least most with
  | nil => exact .stop h
  | cons y cs ih =>
    rcases eq_some_or_of_orElse h with h | ⟨_, h⟩
    · exact .step_of_ite ih h
    · exact .stop h

theorem repeated_of_runLazy {k : Cursor → Option β} (h : runLazy q k cs before index least most = some x) :
    Repeated q least most cs index k x := by
  induction cs generalizing before index least most with
  | nil => exact .stop h
  | cons y cs ih =>
    rcases eq_some_or_of_orElse h with h | ⟨_, h⟩
    · exact .stop h
    · exact .step_of_ite ih h

def Runs (p : Pattern) (c : Cursor) (g : Captures) (k : Cursor → Captures → Option β) (x : β) : Prop :=
  ∃ cs d new, p.Reads cs c d new ∧ k d (new ++ g) = some x

variable {h : Captures} {k : Cursor → Captures → Option β}

theorem Repeated.runs {greedy : Bool} (hRepeated : Repeated q least most c.rest c.index (k · h) x) :
    Runs (.many greedy q least most) c h k x := by
  obtain ⟨taken, rest, last, hRest, hAll, hLeast, hMost, hk⟩ := hRepeated
  exact ⟨taken, _, [], ⟨hRest, rfl, hAll, hLeast, hMost, rfl⟩, hk⟩

theorem runs_of_ite {here : Prop} [Decidable here] (hYields : p.Yields [] [])
    (hRun : (if here then k c h else none) = some x) : Runs p c h k x := by
  split at hRun
  · exact ⟨[], c, [], ⟨rfl, rfl, hYields⟩, hRun⟩
  · cases hRun

theorem runs_of_run (hRun : p.run c h k = some x) : Runs p c h k x := by
  -- over all continuations at once: the second part of a sequence is the continuation of the first
  induction p generalizing β c h k x with
  | empty => exact ⟨[], c, [], ⟨rfl, rfl, rfl, rfl⟩, hRun⟩
  | one q =>
    unfold run at hRun
    split at hRun
    · cases hRun
    · rename_i y ys hRest
      split at hRun
      · rename_i hy
        exact ⟨[y], ⟨some y, ys, c.index + 1⟩, [], ⟨hRest, rfl, ⟨y, hy, rfl⟩, rfl⟩, hRun⟩
      · cases hRun
  | many greedy q least most =>
    cases greedy with
    | true => exact (repeated_of_runGreedy hRun).runs
    | false => exact (repeated_of_runLazy hRun).runs
  | both a b iha ihb =>
    obtain ⟨l, d, new, ha, hRun⟩ := iha hRun
    obtain ⟨r, e, new', hb, hRun⟩ := ihb hRun
    rw [← List.append_assoc] at hRun
    exact ⟨l ++ r, e, new' ++ new, ha.both hb, hRun⟩
  | either a b iha ihb =>
    rcases eq_some_or_of_orElse hRun with hRun | ⟨_, hRun⟩
    · obtain ⟨cs, d, new, ha, hRun⟩ := iha hRun
      exact ⟨cs, d, new, ha.left, hRun⟩
    · obtain ⟨cs, d, new, hb, hRun⟩ := ihb hRun
      exact ⟨cs, d, new, hb.right, hRun⟩
  | capture n a ih =>
    obtain ⟨cs, d, new, ha, hRun⟩ := ih hRun
    exact ⟨cs, d, _, ha.capture n, hRun⟩
  | starts => exact runs_of_ite ⟨rfl, rfl⟩ hRun
  | ends => exact runs_of_ite ⟨rfl, rfl⟩ hRun
  | edge => exact runs_of_ite ⟨rfl, rfl⟩ hRun
  | behind q => exact runs_of_ite ⟨rfl, rfl⟩ hRun
  | ahead a => exact runs_of_ite ⟨rfl, rfl⟩ hRun
  | notAhead a => exact runs_of_ite ⟨rfl, rfl⟩ hRun

/-! ## Every way can be run -/

theorem isSome_orElse {x y : Option β} : (x <|> y).isSome = (x.isSome || y.isSome) := by
  cases x <;> rfl

/-- What a repetition of `cs` leaves to be done once its first character is read. -/
theorem repeat_rest {y : Char} (hy : q y = true) (hLeast : least ≤ (y :: cs).length)
    (hMost : ∀ n ∈ most, (y :: cs).length ≤ n) :
    (q y && most != some 0) = true ∧ least - 1 ≤ cs.length ∧ ∀ n ∈ most.map (· - 1), cs.length ≤ n := by
  simp only [List.length_cons] at hLeast hMost
  refine ⟨?_, by omega, ?_⟩
  · have hMore : most ≠ some 0 := fun h => absurd (hMost 0 h) (by omega)
    rw [hy, Bool.true_and, bne_iff_ne]
    exact hMore
  · intro n hn
    obtain ⟨m, hm, rfl⟩ := Option.map_eq_some_iff.mp hn
    have hLess := hMost m hm
    omega

theorem isSome_runGreedy {k : Cursor → Option β} (hAll : ∀ y ∈ cs, q y = true) (hLeast : least ≤ cs.length)
    (hMost : ∀ n ∈ most, cs.length ≤ n) (hk : ∀ last, (k ⟨last, rest, index + cs.length⟩).isSome) :
    (runGreedy q k (cs ++ rest) before index least most).isSome := by
  induction cs generalizing before index least most with
  | nil =>
    obtain rfl := Nat.le_zero.mp hLeast
    cases rest with
    | nil => exact hk before
    | cons y rest =>
      rw [List.nil_append, runGreedy, isSome_orElse, Bool.or_eq_true_iff]
      exact .inr (hk before)
  | cons y cs ih =>
    obtain ⟨hy, hAll⟩ := List.forall_mem_cons.mp hAll
    obtain ⟨hMore, hLeast, hMost⟩ := repeat_rest hy hLeast hMost
    rw [List.cons_append, runGreedy, isSome_orElse, Bool.or_eq_true_iff, if_pos hMore]
    refine .inl (ih hAll hLeast hMost fun last => ?_)
    rw [Nat.add_assoc, Nat.add_comm 1]
    exact hk last

theorem isSome_runLazy {k : Cursor → Option β} (hAll : ∀ y ∈ cs, q y = true) (hLeast : least ≤ cs.length)
    (hMost : ∀ n ∈ most, cs.length ≤ n) (hk : ∀ last, (k ⟨last, rest, index + cs.length⟩).isSome) :
    (runLazy q k (cs ++ rest) before index least most).isSome := by
  induction cs generalizing before index least most with
  | nil =>
    obtain rfl := Nat.le_zero.mp hLeast
    cases rest with
    | nil => exact hk before
    | cons y rest =>
      rw [List.nil_append, runLazy, isSome_orElse, Bool.or_eq_true_iff]
      exact .inl (hk before)
  | cons y cs ih =>
    obtain ⟨hy, hAll⟩ := List.forall_mem_cons.mp hAll
    obtain ⟨hMore, hLeast, hMost⟩ := repeat_rest hy hLeast hMost
    rw [List.cons_append, runLazy, isSome_orElse, Bool.or_eq_true_iff, if_pos hMore]
    refine .inr (ih hAll hLeast hMost fun last => ?_)
    rw [Nat.add_assoc, Nat.add_comm 1]
    exact hk last

theorem isSome_run (hPlain : p.plain = true) (hYields : p.Yields cs g) (hRest : c.rest = cs ++ rest)
    (hk : ∀ d new, d.rest = rest → d.index = c.index + cs.length → texts new = g → (k d (new ++ h)).isSome) :
    (p.run c h k).isSome := by
  induction p generalizing β c h k cs g rest with
  | empty =>
    obtain ⟨rfl, rfl⟩ := hYields
    exact hk c [] hRest rfl rfl
  | one q =>
    obtain ⟨⟨y, hy, rfl⟩, rfl⟩ := hYields
    unfold run
    rw [hRest]
    simp only [List.singleton_append, if_pos hy]
    exact hk _ [] rfl rfl rfl
  | many greedy q least most =>
    obtain ⟨hAll, hLeast, hMost, rfl⟩ := hYields
    cases greedy with
    | true =>
      unfold run
      rw [hRest]
      exact isSome_runGreedy hAll hLeast hMost fun last => hk _ [] rfl rfl rfl
    | false =>
      unfold run
      rw [hRest]
      exact isSome_runLazy hAll hLeast hMost fun last => hk _ [] rfl rfl rfl
  | both a b iha ihb =>
    obtain ⟨ha, hb⟩ := Bool.and_eq_true_iff.mp hPlain
    obtain ⟨l, r, _, _, rfl, hl, hr, rfl⟩ := hYields
    rw [List.append_assoc] at hRest
    refine iha ha hl hRest fun d new hd hIndex hNew => ihb hb hr hd fun e new' he hIndex' hNew' => ?_
    rw [← List.append_assoc]
    refine hk e _ he ?_ (by rw [texts_append, hNew, hNew'])
    rw [hIndex', hIndex, List.length_append, Nat.add_assoc]
  | either a b iha ihb =>
    obtain ⟨ha, hb⟩ := Bool.and_eq_true_iff.mp hPlain
    unfold run
    rw [isSome_orElse, Bool.or_eq_true_iff]
    rcases hYields with hYields | hYields
    · exact .inl (iha ha hYields hRest hk)
    · exact .inr (ihb hb hYields hRest hk)
  | capture n a ih =>
    obtain ⟨_, ha, rfl⟩ := hYields
    refine ih hPlain ha hRest fun d new hd hIndex hNew => hk d (_ :: new) hd hIndex ?_
    rw [take_captured hRest hIndex, ← hNew]
    rfl
  | _ => cases hPlain

/-! ## Matches -/

theorem Match.text_eq (m : Match) (n : Nat) : m.text n = ((texts m.captures).lookup n).getD [] := by
  unfold Match.text Match.capture? texts
  induction m.captures with
  | nil => rfl
  | cons e captures ih =>
    rw [List.map_cons, List.lookup_cons, List.lookup_cons]
    cases n == e.1 with
    | true => rfl
    | false => exact ih

theorem Match.has_eq (m : Match) (n : Nat) : m.has n = ((texts m.captures).lookup n).isSome := by
  unfold Match.has Match.capture? texts
  induction m.captures with
  | nil => rfl
  | cons e captures ih =>
    rw [List.map_cons, List.lookup_cons, List.lookup_cons]
    cases n == e.1 with
    | true => rfl
    | false => exact ih

/-- The texts of a match are those of a way to read the text up to its end. -/
theorem yields_of_matchStart {m : Match} (hMatch : p.matchStart cs = some m) :
    ∃ taken, cs = taken ++ m.after.rest ∧ p.Yields taken (texts m.captures) := by
  obtain ⟨taken, d, new, hReads, hEnd⟩ := runs_of_run hMatch
  rw [List.append_nil] at hEnd
  cases hEnd
  exact ⟨taken, hReads.rest, hReads.yields⟩

/-- A part that every way through the pattern goes through has read a stretch of the text that one
of the parts with its number takes. -/
theorem takes_of_matchStart {m : Match} (hMatch : p.matchStart cs = some m) (hBinds : p.binds n = true) :
    m.text n <:+: cs ∧ ∃ a ∈ p.parts n, a.Takes (m.text n) := by
  obtain ⟨taken, rfl, hYields⟩ := yields_of_matchStart hMatch
  obtain ⟨t, hMem⟩ := hYields.bound hBinds
  have hSome : ((texts m.captures).lookup n).isSome := List.lookup_isSome_iff.mpr ⟨_, hMem, beq_self_eq_true n⟩
  obtain ⟨found, hFound⟩ := Option.isSome_iff_exists.mp hSome
  have hFoundMem : (n, found) ∈ texts m.captures := by
    obtain ⟨earlier, later, hTexts, _⟩ := List.lookup_eq_some_iff.mp hFound
    rw [hTexts]
    exact List.mem_append_cons_self
  obtain ⟨hInfix, hPart⟩ := hYields.captured hFoundMem
  rw [Match.text_eq, hFound]
  exact ⟨hInfix.trans (List.prefix_append taken _).isInfix, hPart⟩

/-! ## Patterns made of words -/

theorem takes_anyOf {ps : List Pattern} : (anyOf ps).Takes cs ↔ ∃ p ∈ ps, p.Takes cs := by
  induction ps using anyOf.induct with
  | case1 => simp [anyOf, Takes]
  | case2 p => simp [anyOf]
  | case3 p ps _ ih => simp [anyOf, Takes, ih]

theorem takes_append_assoc {c : Pattern} : (a ++ b ++ c).Takes cs ↔ (a ++ (b ++ c)).Takes cs := by
  constructor
  · rintro ⟨_, t, rfl, ⟨l, r, rfl, ha, hb⟩, hc⟩
    exact ⟨l, r ++ t, List.append_assoc l r t, ha, r, t, rfl, hb, hc⟩
  · rintro ⟨l, _, rfl, ha, r, t, rfl, hb, hc⟩
    exact ⟨l ++ r, t, (List.append_assoc l r t).symm, ⟨l, r, rfl, ha, hb⟩, hc⟩

theorem takes_append_opt : (a ++ opt b).Takes cs ↔ (a ++ b).Takes cs ∨ a.Takes cs := by
  constructor
  · rintro ⟨l, r, rfl, ha, hb | rfl⟩
    · exact .inl ⟨l, r, rfl, ha, hb⟩
    · rw [List.append_nil]
      exact .inr ha
  · rintro (⟨l, r, rfl, ha, hb⟩ | ha)
    · exact ⟨l, r, rfl, ha, .inl hb⟩
    · exact ⟨cs, [], (List.append_nil cs).symm, ha, .inr rfl⟩

theorem takes_keyword {s : String} :
    (keyword s).Takes cs ↔ List.Forall₂ (fun letter c => Text.sameLetter letter c = true) s.toList cs := by
  unfold keyword
  induction s.toList generalizing cs with
  | nil => exact List.forall₂_nil_left_iff.symm
  | cons letter word ih =>
    rw [List.foldr_cons, List.forall₂_cons_left_iff]
    constructor
    · rintro ⟨_, r, rfl, ⟨c, hc, rfl⟩, hr⟩
      exact ⟨c, r, hc, ih.mp hr, rfl⟩
    · rintro ⟨c, r, hc, hr, rfl⟩
      exact ⟨[c], r, rfl, ⟨c, hc, rfl⟩, ih.mpr hr⟩

theorem takes_keywords {ss : List String} : (keywords ss).Takes cs ↔
    ∃ s ∈ ss, List.Forall₂ (fun letter c => Text.sameLetter letter c = true) s.toList cs := by
  rw [keywords, takes_anyOf]
  constructor
  · rintro ⟨_, hMem, hTakes⟩
    obtain ⟨s, hs, rfl⟩ := List.mem_map.mp hMem
    exact ⟨s, hs, takes_keyword.mp hTakes⟩
  · rintro ⟨s, hs, h⟩
    exact ⟨keyword s, List.mem_map_of_mem hs, takes_keyword.mpr h⟩

theorem bare_keyword (s : String) : (keyword s).bare = true := by
  unfold keyword
  induction s.toList with
  | nil => rfl
  | cons _ _ ih => exact ih

end Agenda.Pattern
