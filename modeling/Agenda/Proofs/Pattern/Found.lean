import Agenda.Proofs.Pattern.Search
import Agenda.Proofs.Text.Spaced

/-! # Where a pattern is found

A pattern is found in a text exactly where some stretch fits it, between the character before the
stretch and the text behind it. Which of several stretches is taken does not matter for that. A
pattern that looks no further than to the next characters, and takes no blanks at its ends, is found
in a text just when it is found in the trimmed one.
-/

namespace Agenda.Pattern

/-- The ways in which a pattern takes a stretch behind a character and in front of a text. -/
def Fits : Pattern → Option Char → List Char → List Char → Prop
  | .empty, _, cs, _ => cs = []
  | .one p, _, cs, _ => ∃ x, p x = true ∧ cs = [x]
  | .many _ p least most, _, cs, _ => (∀ x ∈ cs, p x = true) ∧ least ≤ cs.length ∧ ∀ n ∈ most, cs.length ≤ n
  | .both a b, before, cs, rest =>
    ∃ l r, cs = l ++ r ∧ a.Fits before l (r ++ rest) ∧ b.Fits (l.getLast?.or before) r rest
  | .either a b, before, cs, rest => a.Fits before cs rest ∨ b.Fits before cs rest
  | .capture _ a, before, cs, rest => a.Fits before cs rest
  | .starts, before, cs, _ => cs = [] ∧ before = none
  | .ends, _, cs, rest => cs = [] ∧ atEnd ⟨none, rest, 0⟩ = true
  | .edge, before, cs, rest => cs = [] ∧ isWord before ≠ isWord rest.head?
  | .behind p, before, cs, _ => cs = [] ∧ before.any p = true
  | .ahead a, before, cs, rest => cs = [] ∧ ∃ l r, rest = l ++ r ∧ a.Fits before l r
  | .notAhead a, before, cs, rest => cs = [] ∧ ¬ ∃ l r, rest = l ++ r ∧ a.Fits before l r

/-- The pattern takes some stretch from the cursor on, and `K` holds of the place behind it. -/
def Leads (p : Pattern) (c : Cursor) (K : Cursor → Prop) : Prop :=
  ∃ cs rest, c.rest = cs ++ rest ∧ p.Fits c.before cs rest ∧
    K ⟨cs.getLast?.or c.before, rest, c.index + cs.length⟩

variable {p a b : Pattern} {q : Char → Bool} {β : Type} {c : Cursor} {g : Captures} {K : Cursor → Prop}
  {before : Option Char} {cs : List Char} {index least : Nat} {most : Option Nat}

/-! ## Runs -/

/-- A repetition takes some stretch of its class, and `K` holds of the place behind it. -/
def Repeats (q : Char → Bool) (K : Cursor → Prop) (cs : List Char) (before : Option Char) (index least : Nat)
    (most : Option Nat) : Prop :=
  ∃ taken rest, cs = taken ++ rest ∧ (∀ x ∈ taken, q x = true) ∧ least ≤ taken.length ∧
    (∀ n ∈ most, taken.length ≤ n) ∧ K ⟨taken.getLast?.or before, rest, index + taken.length⟩

theorem getLast?_cons_or (x : Char) (cs : List Char) : (x :: cs).getLast?.or before = cs.getLast?.or (some x) := by
  cases cs with
  | nil => rfl
  | cons y cs => rw [List.getLast?_cons_cons, List.getLast?_cons]; rfl

theorem repeats_nil : Repeats q K [] before index least most ↔ least = 0 ∧ K ⟨before, [], index⟩ := by
  constructor
  · rintro ⟨taken, rest, hNil, _, hLeast, _, hK⟩
    obtain ⟨rfl, rfl⟩ := List.append_eq_nil_iff.mp hNil.symm
    exact ⟨Nat.le_zero.mp hLeast, hK⟩
  · rintro ⟨rfl, hK⟩
    exact ⟨[], [], rfl, by simp, Nat.le_refl 0, by simp, hK⟩

theorem repeats_cons {x : Char} : Repeats q K (x :: cs) before index least most ↔
    ((q x && most != some 0) = true ∧ Repeats q K cs (some x) (index + 1) (least - 1) (most.map (· - 1))) ∨
      least = 0 ∧ K ⟨before, x :: cs, index⟩ := by
  constructor
  · rintro ⟨taken, rest, hSplit, hAll, hLeast, hMost, hK⟩
    cases taken with
    | nil =>
      cases hSplit
      exact .inr ⟨Nat.le_zero.mp hLeast, hK⟩
    | cons y taken =>
      obtain ⟨rfl, rfl⟩ := List.cons.inj hSplit
      obtain ⟨hx, hAll⟩ := List.forall_mem_cons.mp hAll
      obtain ⟨hMore, hLeast, hMost⟩ := repeat_rest hx hLeast hMost
      refine .inl ⟨hMore, taken, rest, rfl, hAll, hLeast, hMost, ?_⟩
      rw [getLast?_cons_or, List.length_cons] at hK
      rwa [Nat.add_assoc, Nat.add_comm 1]
  · rintro (⟨hMore, taken, rest, rfl, hAll, hLeast, hMost, hK⟩ | ⟨rfl, hK⟩)
    · obtain ⟨hx, hMore⟩ := Bool.and_eq_true_iff.mp hMore
      refine ⟨x :: taken, rest, rfl, List.forall_mem_cons.mpr ⟨hx, hAll⟩, ?_, ?_, ?_⟩
      · rw [List.length_cons]
        omega
      · intro n hn
        have hLess := hMost (n - 1) (Option.mem_map_of_mem _ hn)
        have hPos : n ≠ 0 := by
          rintro rfl
          exact bne_iff_ne.mp hMore hn
        rw [List.length_cons]
        omega
      · rw [getLast?_cons_or, List.length_cons]
        rwa [Nat.add_assoc, Nat.add_comm 1] at hK
    · exact ⟨[], x :: cs, rfl, by simp, Nat.le_refl 0, by simp, hK⟩

variable {k : Cursor → Option β}

theorem isSome_stop {here : Prop} [Decidable here] {x : Option β} :
    (if here then x else none).isSome = true ↔ here ∧ x.isSome = true := by
  split
  · rename_i h
    exact (and_iff_right h).symm
  · rename_i h
    exact ⟨nofun, fun hBoth => absurd hBoth.1 h⟩

theorem isSome_runGreedy_iff (hk : ∀ d, (k d).isSome = true ↔ K d) :
    (runGreedy q k cs before index least most).isSome = true ↔ Repeats q K cs before index least most := by
  induction cs generalizing before index least most with
  | nil => rw [runGreedy, isSome_stop, hk, repeats_nil]
  | cons x cs ih =>
    rw [runGreedy, isSome_orElse, Bool.or_eq_true_iff, isSome_stop, isSome_stop, hk, ih, repeats_cons]

theorem isSome_runLazy_iff (hk : ∀ d, (k d).isSome = true ↔ K d) :
    (runLazy q k cs before index least most).isSome = true ↔ Repeats q K cs before index least most := by
  induction cs generalizing before index least most with
  | nil => rw [runLazy, isSome_stop, hk, repeats_nil]
  | cons x cs ih =>
    rw [runLazy, isSome_orElse, Bool.or_eq_true_iff, isSome_stop, isSome_stop, hk, ih, repeats_cons, or_comm]

/-- A part that takes nothing leads on from where it stands. -/
theorem leads_of_nothing (hNil : ∀ cs rest, p.Fits c.before cs rest → cs = []) :
    Leads p c K ↔ p.Fits c.before [] c.rest ∧ K c := by
  obtain ⟨before, text, index⟩ := c
  constructor
  · rintro ⟨cs, rest, hRest, hTaken, hK⟩
    obtain rfl := hNil cs rest hTaken
    subst hRest
    exact ⟨hTaken, hK⟩
  · rintro ⟨hFits, hK⟩
    exact ⟨[], text, rfl, hFits, hK⟩

theorem leads_one : Leads (.one q) c K ↔ ∃ x xs, c.rest = x :: xs ∧ q x = true ∧ K ⟨some x, xs, c.index + 1⟩ := by
  constructor
  · rintro ⟨_, rest, hRest, ⟨x, hx, rfl⟩, hK⟩
    exact ⟨x, rest, hRest, hx, hK⟩
  · rintro ⟨x, xs, hRest, hx, hK⟩
    exact ⟨[x], xs, hRest, ⟨x, hx, rfl⟩, hK⟩

theorem leads_both : Leads (.both a b) c K ↔ Leads a c fun d => Leads b d K := by
  constructor
  · rintro ⟨_, rest, hRest, ⟨l, r, rfl, ha, hb⟩, hK⟩
    refine ⟨l, r ++ rest, by rw [hRest, List.append_assoc], ha, r, rest, rfl, hb, ?_⟩
    rw [List.getLast?_append, List.length_append, Option.or_assoc, ← Nat.add_assoc] at hK
    exact hK
  · rintro ⟨l, _, hRest, ha, r, rest, hSplit, hb, hK⟩
    dsimp only at hSplit
    subst hSplit
    refine ⟨l ++ r, rest, by rw [hRest, List.append_assoc], ⟨l, r, rfl, ha, hb⟩, ?_⟩
    rw [List.getLast?_append, List.length_append, Option.or_assoc, ← Nat.add_assoc]
    exact hK

theorem leads_either : Leads (.either a b) c K ↔ Leads a c K ∨ Leads b c K := by
  constructor
  · rintro ⟨cs, rest, hRest, ha | hb, hK⟩
    · exact .inl ⟨cs, rest, hRest, ha, hK⟩
    · exact .inr ⟨cs, rest, hRest, hb, hK⟩
  · rintro (⟨cs, rest, hRest, ha, hK⟩ | ⟨cs, rest, hRest, hb, hK⟩)
    · exact ⟨cs, rest, hRest, .inl ha, hK⟩
    · exact ⟨cs, rest, hRest, .inr hb, hK⟩

theorem leads_many {greedy : Bool} :
    Leads (.many greedy q least most) c K ↔ Repeats q K c.rest c.before c.index least most := by
  constructor
  · rintro ⟨cs, rest, hRest, ⟨hAll, hLeast, hMost⟩, hK⟩
    exact ⟨cs, rest, hRest, hAll, hLeast, hMost, hK⟩
  · rintro ⟨cs, rest, hRest, hAll, hLeast, hMost, hK⟩
    exact ⟨cs, rest, hRest, ⟨hAll, hLeast, hMost⟩, hK⟩

/-- The pattern takes some stretch in front of a place. -/
theorem leads_true : (Leads p c fun _ => True) ↔ ∃ l r, c.rest = l ++ r ∧ p.Fits c.before l r := by
  simp only [Leads, and_true]

theorem isSome_run_iff {k : Cursor → Captures → Option β} (hk : ∀ d h, (k d h).isSome = true ↔ K d) :
    (p.run c g k).isSome = true ↔ Leads p c K := by
  -- over all continuations at once: the second part of a sequence is the continuation of the first
  induction p generalizing β c g k K with
  | empty =>
    rw [leads_of_nothing (p := .empty) fun _ _ h => h]
    exact (hk c g).trans (and_iff_right rfl).symm
  | one q =>
    rw [leads_one]
    unfold run
    cases hRest : c.rest with
    | nil => simp
    | cons x xs => simp [isSome_stop, hk]
  | many greedy q least most =>
    rw [leads_many]
    cases greedy with
    | true => exact isSome_runGreedy_iff fun d => hk d g
    | false => exact isSome_runLazy_iff fun d => hk d g
  | both a b iha ihb =>
    rw [leads_both]
    exact iha fun d h => ihb hk
  | either a b iha ihb =>
    rw [leads_either, ← iha hk, ← ihb hk, ← Bool.or_eq_true_iff, ← isSome_orElse]
    rfl
  | capture n a ih => exact ih fun d h => hk d _
  | starts =>
    rw [leads_of_nothing (p := .starts) fun _ _ h => h.1]
    unfold run
    simp [isSome_stop, hk, Fits]
  | ends =>
    rw [leads_of_nothing (p := .ends) fun _ _ h => h.1]
    unfold run
    rw [isSome_stop, hk]
    exact and_congr_left fun _ => (and_iff_right rfl).symm
  | edge =>
    rw [leads_of_nothing (p := .edge) fun _ _ h => h.1]
    unfold run
    rw [isSome_stop, hk]
    simp [Fits, atEdge]
  | behind q =>
    rw [leads_of_nothing (p := .behind q) fun _ _ h => h.1]
    unfold run
    simp [isSome_stop, hk, Fits]
  | ahead a ih =>
    rw [leads_of_nothing (p := .ahead a) fun _ _ h => h.1]
    unfold run
    rw [isSome_stop, hk, ih fun _ _ => iff_true_intro rfl, leads_true]
    exact and_congr_left fun _ => (and_iff_right rfl).symm
  | notAhead a ih =>
    rw [leads_of_nothing (p := .notAhead a) fun _ _ h => h.1]
    unfold run
    rw [isSome_stop, hk, Option.isNone_iff_eq_none, ← Option.not_isSome_iff_eq_none,
      ih fun _ _ => iff_true_intro rfl, leads_true]
    exact and_congr_left fun _ => (and_iff_right rfl).symm

/-! ## Searches -/

theorem isSome_matchAt_iff : (p.matchAt c).isSome = true ↔ ∃ l r, c.rest = l ++ r ∧ p.Fits c.before l r := by
  rw [matchAt, isSome_run_iff fun _ _ => iff_true_intro rfl, leads_true]

theorem isSome_searchFrom_iff : (p.searchFrom cs before index).isSome = true ↔
    ∃ front stretch back, cs = front ++ (stretch ++ back) ∧ p.Fits (front.getLast?.or before) stretch back := by
  induction cs generalizing before index with
  | nil =>
    rw [searchFrom, isSome_matchAt_iff]
    constructor
    · rintro ⟨l, r, hSplit, hFits⟩
      exact ⟨[], l, r, hSplit, hFits⟩
    · rintro ⟨front, l, r, hSplit, hFits⟩
      obtain ⟨rfl, hNil⟩ := List.append_eq_nil_iff.mp hSplit.symm
      exact ⟨l, r, hNil.symm, hFits⟩
  | cons x cs ih =>
    rw [searchFrom, isSome_orElse, Bool.or_eq_true_iff, isSome_matchAt_iff, ih]
    constructor
    · rintro (⟨l, r, hSplit, hFits⟩ | ⟨front, l, r, rfl, hFits⟩)
      · exact ⟨[], l, r, hSplit, hFits⟩
      · rw [← getLast?_cons_or] at hFits
        exact ⟨x :: front, l, r, rfl, hFits⟩
    · rintro ⟨front, l, r, hSplit, hFits⟩
      cases front with
      | nil => exact .inl ⟨l, r, hSplit, hFits⟩
      | cons y front =>
        obtain ⟨rfl, rfl⟩ := List.cons.inj hSplit
        rw [getLast?_cons_or] at hFits
        exact .inr ⟨front, l, r, rfl, hFits⟩

theorem found_iff : p.found cs = true ↔
    ∃ front stretch back, cs = front ++ (stretch ++ back) ∧ p.Fits front.getLast? stretch back := by
  rw [found, search, isSome_searchFrom_iff]
  simp only [Option.or_none]

/-! ## Patterns that look no further than the next characters -/

/-- The pattern looks around only to see where words begin and end. -/
def near : Pattern → Bool
  | .empty | .one _ | .many .. | .edge => true
  | .both a b | .either a b => a.near && b.near
  | .capture _ a => a.near
  | _ => false

variable {before' : Option Char} {rest rest' : List Char}

theorem isWord_or (last : Option Char) (h : isWord before = isWord before') :
    isWord (last.or before) = isWord (last.or before') := by
  cases last with
  | none => exact h
  | some x => rfl

theorem Fits.of_near (hNear : p.near = true) (hBefore : isWord before = isWord before')
    (hRest : isWord rest.head? = isWord rest'.head?) (h : p.Fits before cs rest) : p.Fits before' cs rest' := by
  induction p generalizing before before' cs rest rest' with
  | empty | one | many => exact h
  | edge => exact ⟨h.1, by rw [← hBefore, ← hRest]; exact h.2⟩
  | both a b iha ihb =>
    obtain ⟨ha, hb⟩ := Bool.and_eq_true_iff.mp hNear
    obtain ⟨l, r, rfl, hl, hr⟩ := h
    refine ⟨l, r, rfl, iha ha hBefore ?_ hl, ihb hb (isWord_or _ hBefore) hRest hr⟩
    rw [List.head?_append, List.head?_append]
    exact isWord_or _ hRest
  | either a b iha ihb =>
    obtain ⟨ha, hb⟩ := Bool.and_eq_true_iff.mp hNear
    exact h.imp (iha ha hBefore hRest) (ihb hb hBefore hRest)
  | capture n a ih => exact ih hNear hBefore hRest h
  | _ => cases hNear

theorem Fits.takes (h : p.Fits before cs rest) : p.Takes cs := by
  induction p generalizing before cs rest with
  | empty | one => exact h
  | many => exact ⟨h.1, h.2.1⟩
  | both a b iha ihb =>
    obtain ⟨l, r, rfl, hl, hr⟩ := h
    exact ⟨l, r, rfl, iha hl, ihb hr⟩
  | either a b iha ihb => exact h.imp iha ihb
  | capture n a ih => exact ih h
  | _ => exact h.1

/-! ## Stretches without blanks at their ends -/

/-- What the pattern takes begins with a character that is no blank. -/
def Begins (p : Pattern) : Prop :=
  ∀ cs, p.Takes cs → ∃ c, cs.head? = some c ∧ Text.blank c = false

/-- What the pattern takes ends with a character that is no blank. -/
def Finishes (p : Pattern) : Prop :=
  ∀ cs, p.Takes cs → ∃ c, cs.getLast? = some c ∧ Text.blank c = false

theorem begins_of_unbroken (h : ∀ cs, p.Takes cs → Text.Unbroken cs) (hSome : ¬ p.Takes []) : Begins p := by
  intro cs hTakes
  cases cs with
  | nil => exact absurd hTakes hSome
  | cons c cs => exact ⟨c, rfl, h _ hTakes c List.mem_cons_self⟩

theorem finishes_of_unbroken (h : ∀ cs, p.Takes cs → Text.Unbroken cs) (hSome : ¬ p.Takes []) : Finishes p := by
  intro cs hTakes
  cases hLast : cs.getLast? with
  | none =>
    rw [List.getLast?_eq_none_iff.mp hLast] at hTakes
    exact absurd hTakes hSome
  | some c => exact ⟨c, rfl, h _ hTakes c (List.mem_of_getLast? hLast)⟩

theorem Begins.append (h : Begins a) (b : Pattern) : Begins (a ++ b) := by
  rintro _ ⟨l, r, rfl, hl, _⟩
  obtain ⟨c, hHead, hc⟩ := h l hl
  exact ⟨c, by rw [List.head?_append, hHead]; rfl, hc⟩

theorem Begins.edge_append (h : Begins b) : Begins (edge ++ b) := by
  rintro _ ⟨_, r, rfl, rfl, hr⟩
  exact h r hr

theorem Finishes.append (h : Finishes b) (a : Pattern) : Finishes (a ++ b) := by
  rintro _ ⟨l, r, rfl, _, hr⟩
  obtain ⟨c, hLast, hc⟩ := h r hr
  exact ⟨c, by rw [List.getLast?_append, hLast]; rfl, hc⟩

theorem Finishes.append_edge (h : Finishes a) : Finishes (a ++ edge) := by
  rintro _ ⟨l, _, rfl, hl, rfl⟩
  rw [List.append_nil]
  exact h l hl

theorem Finishes.append_opt (ha : Finishes a) (hb : Finishes b) : Finishes (a ++ opt b) := by
  intro cs hTakes
  rcases takes_append_opt.mp hTakes with hTakes | hTakes
  · exact hb.append a cs hTakes
  · exact ha cs hTakes

/-! ## Trimmed texts -/

theorem isWord_last_of_blank {front : List Char} (hFront : ∀ c ∈ front, Text.blank c = true) (f : List Char) :
    isWord (front ++ f).getLast? = isWord f.getLast? := by
  rw [List.getLast?_append, ← @Option.or_none _ f.getLast?, Option.or_assoc, Option.none_or]
  apply isWord_or
  cases hLast : front.getLast? with
  | none => rfl
  | some c =>
    have hBlank := hFront c (List.mem_of_getLast? hLast)
    exact Bool.eq_false_iff.mpr fun hWord => absurd (Text.blank_of_wordChar hWord) (by simp [hBlank])

theorem isWord_head_of_blank {back : List Char} (hBack : ∀ c ∈ back, Text.blank c = true) (b : List Char) :
    isWord (b ++ back).head? = isWord b.head? := by
  have hReverse := isWord_last_of_blank (fun c hc => hBack c (List.mem_reverse.mp hc)) b.reverse
  rwa [← List.reverse_append, List.getLast?_reverse, List.getLast?_reverse] at hReverse

/-- A stretch without blanks at its ends lies between the blanks around a text. -/
theorem exists_between {x t y front stretch back : List Char} (hText : x ++ (t ++ y) = front ++ (stretch ++ back))
    (hx : ∀ c ∈ x, Text.blank c = true) (hy : ∀ c ∈ y, Text.blank c = true)
    (hHead : ∃ c, stretch.head? = some c ∧ Text.blank c = false)
    (hLast : ∃ c, stretch.getLast? = some c ∧ Text.blank c = false) :
    ∃ f b, front = x ++ f ∧ back = b ++ y ∧ t = f ++ (stretch ++ b) := by
  obtain ⟨c, hHead, hc⟩ := hHead
  obtain ⟨d, hLast, hd⟩ := hLast
  have hFront : ∃ f, front = x ++ f ∧ t ++ y = f ++ (stretch ++ back) := by
    rcases List.append_eq_append_iff.mp hText with ⟨f, hf, hRest⟩ | ⟨f, hf, hRest⟩
    · exact ⟨f, hf, hRest⟩
    · cases f with
      | nil => exact ⟨[], by simpa using hf.symm, hRest.symm⟩
      | cons e f =>
        -- the stretch would begin with one of the blanks in front
        have hSame := congrArg List.head? hRest
        rw [List.head?_append, hHead] at hSame
        obtain rfl := Option.some.inj hSame
        have hBlank := hx c (hf ▸ List.mem_append_right front List.mem_cons_self)
        rw [hc] at hBlank
        cases hBlank
  obtain ⟨f, hf, hRest⟩ := hFront
  refine ⟨f, ?_⟩
  rw [← List.append_assoc] at hRest
  rcases List.append_eq_append_iff.mp hRest with ⟨b, hb, hBack⟩ | ⟨b, hb, hBack⟩
  · cases b with
    | nil => exact ⟨[], hf, by simpa using hBack.symm, by simpa using hb.symm⟩
    | cons e b =>
      -- the stretch would end with one of the blanks behind
      have hSame := congrArg List.getLast? hb
      rw [List.getLast?_append, hLast, List.getLast?_append_of_ne_nil _ (List.cons_ne_nil e b)] at hSame
      have hBlank := hy d (hBack ▸ List.mem_append_left back (List.mem_of_getLast? hSame.symm))
      rw [hd] at hBlank
      cases hBlank
  · exact ⟨b, hf, hBack, by rw [hb, List.append_assoc]⟩

/-- Blanks around a text neither hide such a pattern nor bring it about. -/
theorem found_trim (hNear : p.near = true) (hBegins : Begins p) (hFinishes : Finishes p) (text : List Char) :
    p.found (Text.trim text) = p.found text := by
  obtain ⟨x, y, hText, hx, hy⟩ := Text.exists_trim text
  rw [Bool.eq_iff_iff, found_iff, found_iff]
  constructor
  · rintro ⟨f, stretch, b, hTrim, hFits⟩
    refine ⟨x ++ f, stretch, b ++ y, ?_, ?_⟩
    · rw [hText, hTrim]
      simp only [List.append_assoc]
    · exact hFits.of_near hNear (isWord_last_of_blank hx f).symm (isWord_head_of_blank hy b).symm
  · rintro ⟨front, stretch, back, hSplit, hFits⟩
    rw [hText] at hSplit
    obtain ⟨f, b, rfl, rfl, hTrim⟩ :=
      exists_between hSplit hx hy (hBegins _ hFits.takes) (hFinishes _ hFits.takes)
    exact ⟨f, stretch, b, hTrim, hFits.of_near hNear (isWord_last_of_blank hx f) (isWord_head_of_blank hy b)⟩

end Agenda.Pattern
