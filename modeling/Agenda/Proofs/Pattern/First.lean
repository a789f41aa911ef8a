import Agenda.Proofs.Pattern.Found

/-! # The stretch that is read first

Of all ways to read a text a run tries one first. Which that is can be said part by part: the left one
of two alternatives if it can be read, the right one if the left cannot, and of a repetition as much as
there is. A run that goes on well from there goes no other way.
-/

namespace Agenda.Pattern

/-- Between a character and a text the pattern reads `cs` first, and captures `g`, if what comes
afterwards succeeds. -/
def Prefers (p : Pattern) (before : Option Char) (cs rest : List Char) (g : Texts) : Prop :=
  ∀ index, ∃ new, texts new = g ∧ ∀ {β : Type} {h : Captures} {k : Cursor → Captures → Option β} {x : β},
    k ⟨cs.getLast?.or before, rest, index + cs.length⟩ (new ++ h) = some x →
      p.run ⟨before, cs ++ rest, index⟩ h k = some x

variable {p a b : Pattern} {q : Char → Bool} {before : Option Char} {cs l r rest : List Char} {g g' : Texts} {c : Char}
  {least : Nat} {most : Option Nat}

/-! ## Part by part -/

theorem prefers_empty : Prefers empty before [] rest [] :=
  fun _ => ⟨[], rfl, id⟩

theorem prefers_edge (h : isWord before ≠ isWord rest.head?) : Prefers edge before [] rest [] :=
  fun _ => ⟨[], rfl, fun hk => (if_pos (bne_iff_ne.mpr h)).trans hk⟩

theorem prefers_one (h : q c = true) : Prefers (one q) before [c] rest [] :=
  fun _ => ⟨[], rfl, fun hk => (if_pos h).trans hk⟩

theorem Prefers.append (ha : Prefers a before l (r ++ rest) g) (hb : Prefers b (l.getLast?.or before) r rest g') :
    Prefers (a ++ b) before (l ++ r) rest (g' ++ g) := by
  intro index
  obtain ⟨new, hNew, hLeft⟩ := ha index
  obtain ⟨new', hNew', hRight⟩ := hb (index + l.length)
  refine ⟨new' ++ new, by rw [texts_append, hNew, hNew'], fun {β h k x} hk => ?_⟩
  rw [List.getLast?_append, Option.or_assoc, List.length_append, ← Nat.add_assoc, List.append_assoc] at hk
  rw [List.append_assoc]
  exact hLeft (hRight hk)

theorem Prefers.left (ha : Prefers a before cs rest g) : Prefers (either a b) before cs rest g := by
  intro index
  obtain ⟨new, hNew, hLeft⟩ := ha index
  refine ⟨new, hNew, fun {β h k x} hk => ?_⟩
  rw [run, hLeft hk]
  rfl

theorem Prefers.right (hNot : ∀ l, l <+: cs ++ rest → ¬ a.Takes l) (hb : Prefers b before cs rest g) :
    Prefers (either a b) before cs rest g := by
  intro index
  obtain ⟨new, hNew, hRight⟩ := hb index
  refine ⟨new, hNew, fun {β h k x} hk => ?_⟩
  cases hRun : a.run ⟨before, cs ++ rest, index⟩ h k with
  | none =>
    rw [run, hRun]
    exact hRight hk
  | some y =>
    obtain ⟨l, d, _, hReads, _⟩ := runs_of_run hRun
    exact absurd hReads.yields.takes (hNot l ⟨d.rest, hReads.rest.symm⟩)

theorem Prefers.capture (ha : Prefers a before cs rest g) (n : Nat) :
    Prefers (capture n a) before cs rest ((n, cs) :: g) := by
  intro index
  obtain ⟨new, hNew, hRun⟩ := ha index
  refine ⟨(n, ⟨index, index + cs.length, (cs ++ rest).take (index + cs.length - index)⟩) :: new, ?_, fun hk => ?_⟩
  · rw [Nat.add_sub_cancel_left, List.take_left, texts, List.map_cons, ← texts, hNew]
  · rw [run]
    exact hRun hk

theorem runGreedy_of_all {β : Type} {k : Cursor → Option β} {x : β} {index : Nat} (hAll : ∀ c ∈ cs, q c = true)
    (hLeast : least ≤ cs.length) (hMost : ∀ n ∈ most, cs.length ≤ n) (hEnd : ∀ c ∈ rest.head?, q c = false)
    (hk : k ⟨cs.getLast?.or before, rest, index + cs.length⟩ = some x) :
    runGreedy q k (cs ++ rest) before index least most = some x := by
  induction cs generalizing before index least most with
  | nil =>
    obtain rfl := Nat.le_zero.mp hLeast
    cases rest with
    | nil => exact hk
    | cons c rest =>
      rw [List.nil_append, runGreedy, hEnd c rfl]
      exact hk
  | cons c cs ih =>
    obtain ⟨hc, hAll⟩ := List.forall_mem_cons.mp hAll
    obtain ⟨hMore, hLeast, hMost⟩ := repeat_rest hc hLeast hMost
    rw [getLast?_cons_or, List.length_cons, Nat.add_comm cs.length, ← Nat.add_assoc] at hk
    rw [List.cons_append, runGreedy, if_pos hMore, ih hAll hLeast hMost hk]
    rfl

theorem prefers_some1 (hAll : ∀ c ∈ cs, q c = true) (hSome : cs ≠ []) (hEnd : ∀ c ∈ rest.head?, q c = false) :
    Prefers (some1 q) before cs rest [] := by
  refine fun index => ⟨[], rfl, fun hk => ?_⟩
  rw [some1, run]
  exact runGreedy_of_all hAll (List.length_pos_iff.mpr hSome) (by simp) hEnd hk

theorem takes_exactly {s : String} : (exactly s).Takes cs ↔ cs = s.toList := by
  unfold exactly
  generalize s.toList = t
  induction t generalizing cs with
  | nil => rfl
  | cons c t ih =>
    constructor
    · rintro ⟨_, r, rfl, ⟨x, hx, rfl⟩, hr⟩
      rw [eq_of_beq hx, ih.mp hr]
      rfl
    · rintro rfl
      exact ⟨[c], t, rfl, ⟨c, beq_self_eq_true c, rfl⟩, ih.mpr rfl⟩

theorem prefers_exactly (s : String) : Prefers (exactly s) before s.toList rest [] := by
  unfold exactly
  generalize s.toList = t
  induction t generalizing before with
  | nil => exact prefers_empty
  | cons c t ih => exact (prefers_one (beq_self_eq_true c)).append ih

/-- The first of some words that the text begins with is read first. -/
theorem prefers_anyOf_exactly {ss : List String} {s : String}
    (h : ss.find? (fun s' => s'.toList.isPrefixOf (s.toList ++ rest)) = some s) :
    Prefers (anyOf (ss.map exactly)) before s.toList rest [] := by
  induction ss with
  | nil => cases h
  | cons s' ss ih =>
    rw [List.find?_cons] at h
    split at h
    · cases h
      cases ss with
      | nil => exact prefers_exactly s
      | cons => exact (prefers_exactly s).left
    · rename_i hNot
      cases ss with
      | nil => cases h
      | cons =>
        refine .right (fun l hPrefix hTakes => ?_) (ih h)
        rw [takes_exactly.mp hTakes] at hPrefix
        exact absurd (List.isPrefixOf_iff_prefix.mpr hPrefix) (Bool.eq_false_iff.mp hNot)

theorem prefers_opt_char (hEnd : rest.head? ≠ some c) : Prefers (opt (char c)) before [] rest [] := by
  refine .right (fun l hPrefix hTakes => ?_) prefers_empty
  obtain ⟨x, hx, rfl⟩ := hTakes
  obtain ⟨r, rfl⟩ := hPrefix
  exact hEnd (congrArg some (eq_of_beq hx))

/-! ## Whole texts -/

theorem matchAt_nil (hSome : p.nullable = false) (index : Nat) : p.matchAt ⟨before, [], index⟩ = none := by
  cases hMatch : p.matchAt ⟨before, [], index⟩ with
  | none => rfl
  | some m =>
    obtain ⟨stretch, back, hNil, _, hCovers⟩ := covers_of_matchAt hMatch
    obtain ⟨rfl, rfl⟩ := List.append_eq_nil_iff.mp hNil.symm
    cases hSome.symm.trans (nullable_of_takes hCovers.yields.takes)

/-- What is read first, if it is the whole text, is the only match. -/
theorem Prefers.all_eq (h : Prefers p none cs [] g) (hSome : p.nullable = false) (hText : cs ≠ []) :
    ∃ m, p.all cs = [m] ∧ m.start = 0 ∧ m.stop = cs.length ∧ texts m.captures = g := by
  obtain ⟨new, hNew, hRun⟩ := h 0
  refine ⟨⟨0, 0 + cs.length, new ++ [], ⟨cs.getLast?.or none, [], 0 + cs.length⟩⟩, ?_, rfl, Nat.zero_add _, ?_⟩
  · have hMatch := hRun (h := []) (k := fun d g => some (Match.mk 0 d.index g d)) rfl
    rw [List.append_nil] at hMatch
    have hFirst : p.searchFrom cs none 0 = some ⟨0, 0 + cs.length, new ++ [], ⟨cs.getLast?.or none, [], 0 + cs.length⟩⟩ := by
      cases cs with
      | nil => exact absurd rfl hText
      | cons c cs =>
        rw [searchFrom, matchAt, hMatch]
        rfl
    have hProper : 0 < 0 + cs.length := by
      rw [Nat.zero_add]
      exact List.length_pos_iff.mpr hText
    have hLast : p.allFrom cs.length ⟨cs.getLast?.or none, [], 0 + cs.length⟩ = [] := by
      cases cs.length with
      | zero => rfl
      | succ fuel => rw [allFrom, searchFrom, matchAt_nil hSome]
    unfold all allFrom Cursor.start
    simp only [hFirst, if_pos hProper, hLast]
  · rw [List.append_nil, hNew]

end Agenda.Pattern
