import Agenda.Proofs.Pattern.Search

/-! # Texts behind a mask

A pattern that treats some characters alike matches a text where it matches the text with one of
them in place of all. So where the matches lie can be read off the masked text, and what their
numbered parts have read is cut out of the text itself.
-/

namespace Agenda.Pattern

/-- One character in place of each of some others. -/
def mask (alike : List Char) (x c : Char) : Char :=
  if c ∈ alike then x else c

/-- No class of the pattern tells one of the characters from the one in place of them. -/
def blind (alike : List Char) (x : Char) : Pattern → Bool
  | .empty | .starts => true
  | .one q | .many _ q _ _ | .behind q => alike.all fun c => q c == q x
  | .both a b | .either a b => a.blind alike x && b.blind alike x
  | .capture _ a | .ahead a | .notAhead a => a.blind alike x
  | .ends => alike.all fun c => (c == '\n') == (x == '\n')
  | .edge => alike.all fun c => Text.wordChar c == Text.wordChar x

/-- The place in a text before the character with an index. -/
def place (cs : List Char) (i : Nat) : Cursor :=
  ⟨if i = 0 then none else cs[i - 1]?, cs.drop i, i⟩

/-- Where a match and its numbered parts lie. -/
structure Outline where
  start : Nat
  stop : Nat
  parts : List (Nat × Nat × Nat)
deriving DecidableEq

def outlineOf (g : Captures) : List (Nat × Nat × Nat) :=
  g.map fun e => (e.1, e.2.start, e.2.stop)

def Match.outline (m : Match) : Outline :=
  ⟨m.start, m.stop, outlineOf m.captures⟩

/-- The captures that lie in a text at the given places. -/
def cutOut (cs : List Char) (parts : List (Nat × Nat × Nat)) : Captures :=
  parts.map fun (n, i, j) => (n, ⟨i, j, (cs.drop i).take (j - i)⟩)

/-- The match that lies in a text as outlined. -/
def Outline.fill (cs : List Char) (o : Outline) : Match :=
  ⟨o.start, o.stop, cutOut cs o.parts, place cs o.stop⟩

variable {alike : List Char} {x : Char} {p : Pattern} {q : Char → Bool} {cs ys : List Char} {y : Char} {i : Nat}

theorem eq_of_alike (h : (alike.all fun c => q c == q x) = true) (c : Char) : q (mask alike x c) = q c := by
  unfold mask
  split
  · rename_i hMem
    exact (eq_of_beq (List.all_eq_true.mp h c hMem)).symm
  · rfl

/-! ## Places -/

theorem place_succ (h : cs.drop i = y :: ys) : place cs (i + 1) = ⟨some y, ys, i + 1⟩ := by
  have hy : cs[i]? = some y := by rw [← List.head?_drop, h]; rfl
  have hys : cs.drop (i + 1) = ys := by rw [← List.tail_drop, h]; rfl
  simp [place, hy, hys]

theorem lt_of_drop_eq_cons (h : cs.drop i = y :: ys) : i < cs.length := by
  have hLength := congrArg List.length h
  rw [List.length_drop, List.length_cons] at hLength
  omega

theorem drop_map_of_cons (f : Char → Char) (h : cs.drop i = y :: ys) : (cs.map f).drop i = f y :: ys.map f := by
  rw [← List.map_drop, h, List.map_cons]

theorem before_map (f : Char → Char) : (place (cs.map f) i).before = (place cs i).before.map f := by
  unfold place
  split <;> simp

/-! ## Runs -/

variable {β γ : Type} {φ : γ → β} {least : Nat} {most : Option Nat}

theorem map_orElse {a b : Option γ} : (a <|> b).map φ = (a.map φ <|> b.map φ) := by
  cases a <;> rfl

theorem map_ite {here : Prop} [Decidable here] {a : Option γ} :
    (if here then a else none).map φ = if here then a.map φ else none := by
  split <;> rfl

/-- The text of a repetition behind a mask is read in the same steps, longest or shortest first. -/
theorem run_many_masked {f : Char → Char} {greedy : Bool} {k : Cursor → Captures → Option β}
    {k' : Cursor → Captures → Option γ} {g g' : Captures} (hq : ∀ c, q (f c) = q c) (hi : i ≤ cs.length)
    (hk : ∀ j ≤ cs.length, k (place cs j) g = (k' (place (cs.map f) j) g').map φ) :
    (many greedy q least most).run (place cs i) g k =
      ((many greedy q least most).run (place (cs.map f) i) g' k').map φ := by
  generalize hRest : cs.drop i = rest
  have hHere := hk i hi
  induction rest generalizing i least most with
  | nil =>
    have hMasked : (cs.map f).drop i = [] := by rw [← List.map_drop, hRest, List.map_nil]
    simp only [place, hRest, hMasked] at hHere ⊢
    cases greedy <;> simp only [run, runGreedy, runLazy, map_ite, hHere]
  | cons y ys ih =>
    have hLt := lt_of_drop_eq_cons hRest
    have hNext := place_succ hRest
    have hMasked := drop_map_of_cons f hRest
    have hAgain := @ih (i + 1) (least - 1) (most.map (· - 1)) hLt (by simpa [place] using congrArg Cursor.rest hNext)
      (hk (i + 1) hLt)
    rw [hNext, place_succ hMasked] at hAgain
    simp only [place, hRest, hMasked] at hHere ⊢
    cases greedy <;> simp only [run] at hAgain ⊢ <;>
      simp only [runGreedy, runLazy, map_orElse, map_ite, hHere, hAgain, hq]

/-- The captures of the masked text, cut out of the text itself. -/
def unmask (cs : List Char) (g : Captures) : Captures :=
  cutOut cs (outlineOf g)

theorem isWord_map {f : Char → Char} (hf : ∀ c, Text.wordChar (f c) = Text.wordChar c) (c : Option Char) :
    isWord (c.map f) = isWord c := by
  cases c with
  | none => rfl
  | some c => exact hf c

theorem any_map {f : Char → Char} (hq : ∀ c, q (f c) = q c) (c : Option Char) : (c.map f).any q = c.any q := by
  cases c with
  | none => rfl
  | some c => exact hq c

theorem atEnd_map {f : Char → Char} (hf : ∀ c, (f c == '\n') = (c == '\n')) :
    atEnd (place (cs.map f) i) = atEnd (place cs i) := by
  unfold atEnd place
  rw [← List.map_drop]
  match cs.drop i with
  | [] => rfl
  | [y] => exact hf y
  | _ :: _ :: _ => rfl

theorem atEdge_map {f : Char → Char} (hf : ∀ c, Text.wordChar (f c) = Text.wordChar c) :
    atEdge (place (cs.map f) i) = atEdge (place cs i) := by
  have hHead : (place (cs.map f) i).rest.head? = (place cs i).rest.head?.map f := by
    simp [place]
  unfold atEdge
  rw [before_map, hHead, isWord_map hf, isWord_map hf]

theorem run_masked (hBlind : p.blind alike x = true) (hi : i ≤ cs.length) {g : Captures}
    {k : Cursor → Captures → Option β} {k' : Cursor → Captures → Option γ}
    (hk : ∀ j h, j ≤ cs.length → k (place cs j) (unmask cs h) = (k' (place (cs.map (mask alike x)) j) h).map φ) :
    p.run (place cs i) (unmask cs g) k = (p.run (place (cs.map (mask alike x)) i) g k').map φ := by
  -- over all continuations at once: the second part of a sequence is the continuation of the first
  induction p generalizing β γ φ i g k k' with
  | empty => exact hk i g hi
  | one q =>
    unfold run
    generalize hRest : cs.drop i = rest
    cases rest with
    | nil => simp [place, hRest, ← List.map_drop]
    | cons y ys =>
      have hLt := lt_of_drop_eq_cons hRest
      have hMasked := drop_map_of_cons (mask alike x) hRest
      have hNext := hk (i + 1) g hLt
      rw [place_succ hRest, place_succ hMasked] at hNext
      simp only [place, hRest, hMasked, eq_of_alike hBlind, map_ite, hNext]
  | many greedy q least most => exact run_many_masked (eq_of_alike hBlind) hi fun j hj => hk j g hj
  | both a b iha ihb =>
    obtain ⟨ha, hb⟩ := Bool.and_eq_true_iff.mp hBlind
    exact iha ha hi fun j h hj => ihb hb hj hk
  | either a b iha ihb =>
    obtain ⟨ha, hb⟩ := Bool.and_eq_true_iff.mp hBlind
    unfold run
    rw [map_orElse, iha ha hi hk, ihb hb hi hk]
  | capture n a ih => exact ih hBlind hi fun j h hj => hk j ((n, ⟨i, j, _⟩) :: h) hj
  | starts =>
    unfold run
    rw [map_ite, before_map, Option.isNone_map, hk i g hi]
  | ends =>
    unfold run
    rw [map_ite, atEnd_map (eq_of_alike (q := (· == '\n')) hBlind), hk i g hi]
  | edge =>
    unfold run
    rw [map_ite, atEdge_map (eq_of_alike hBlind), hk i g hi]
  | behind q =>
    unfold run
    rw [map_ite, before_map, any_map (eq_of_alike hBlind), hk i g hi]
  | ahead a ih =>
    have hAhead : a.run (place cs i) (unmask cs g) (fun _ _ => some ()) =
        (a.run (place (cs.map (mask alike x)) i) g fun _ _ => some ()).map id := ih hBlind hi fun _ _ _ => rfl
    unfold run
    rw [hAhead, map_ite, hk i g hi, Option.isSome_map]
  | notAhead a ih =>
    have hAhead : a.run (place cs i) (unmask cs g) (fun _ _ => some ()) =
        (a.run (place (cs.map (mask alike x)) i) g fun _ _ => some ()).map id := ih hBlind hi fun _ _ _ => rfl
    unfold run
    rw [hAhead, map_ite, hk i g hi, Option.isNone_map]

/-! ## Matches -/

/-- A match of the masked text, as it lies in the text itself. -/
def Match.unmask (cs : List Char) (m : Match) : Match :=
  m.outline.fill cs

theorem matchAt_masked (hBlind : p.blind alike x = true) (hi : i ≤ cs.length) :
    p.matchAt (place cs i) = (p.matchAt (place (cs.map (mask alike x)) i)).map (Match.unmask cs) :=
  run_masked (g := []) hBlind hi fun _ _ _ => rfl

theorem searchFrom_masked (hBlind : p.blind alike x = true) (hi : i ≤ cs.length) :
    p.searchFrom (place cs i).rest (place cs i).before i =
      (p.searchFrom (place (cs.map (mask alike x)) i).rest (place (cs.map (mask alike x)) i).before i).map
        (Match.unmask cs) := by
  generalize hRest : cs.drop i = rest
  have hHere := matchAt_masked hBlind hi
  induction rest generalizing i with
  | nil =>
    have hMasked : (cs.map (mask alike x)).drop i = [] := by rw [← List.map_drop, hRest, List.map_nil]
    simp only [place, hRest, hMasked] at hHere ⊢
    exact hHere
  | cons y ys ih =>
    have hLt := lt_of_drop_eq_cons hRest
    have hNext := place_succ hRest
    have hMasked := drop_map_of_cons (mask alike x) hRest
    have hAgain := ih (i := i + 1) hLt (by simpa [place] using congrArg Cursor.rest hNext) (matchAt_masked hBlind hLt)
    rw [hNext, place_succ hMasked] at hAgain
    simp only [place, hRest, hMasked] at hHere ⊢
    simp only [searchFrom, map_orElse, hHere, hAgain]

theorem blind_nil : p.blind [] x = true := by
  induction p with
  | both a b iha ihb | either a b iha ihb => exact Bool.and_eq_true_iff.mpr ⟨iha, ihb⟩
  | capture n a ih | ahead a ih | notAhead a ih => exact ih
  | _ => rfl

theorem mask_nil : mask [] x = id := by
  funext c
  exact if_neg List.not_mem_nil

/-- The search goes on from a place in the text. -/
theorem after_of_searchFrom {m : Match} (hi : i ≤ cs.length)
    (h : p.searchFrom (place cs i).rest (place cs i).before i = some m) :
    m.after = place cs m.stop ∧ m.stop ≤ cs.length := by
  have hSame := searchFrom_masked (x := 'x') (@blind_nil 'x' p) hi
  rw [mask_nil, List.map_id, h, Option.map_some, Option.some.injEq] at hSame
  refine ⟨congrArg Match.after hSame, ?_⟩
  obtain ⟨front, stretch, back, hRest, hStart, hCovers⟩ := covers_of_searchFrom h
  have hLength := congrArg List.length hRest
  have hStop := hCovers.stop
  simp only [place, List.length_drop, List.length_append] at hLength
  omega

theorem allFrom_masked {fuel : Nat} (hBlind : p.blind alike x = true) (hi : i ≤ cs.length) :
    p.allFrom fuel (place cs i) = (p.allFrom fuel (place (cs.map (mask alike x)) i)).map (Match.unmask cs) := by
  induction fuel generalizing i with
  | zero => rfl
  | succ fuel ih =>
    have hSearch := searchFrom_masked hBlind hi
    rw [allFrom, allFrom]
    simp only [show ∀ cs, (place cs i).index = i from fun _ => rfl, hSearch]
    cases hMatch : p.searchFrom (place (cs.map (mask alike x)) i).rest (place (cs.map (mask alike x)) i).before i with
    | none => rfl
    | some m =>
      obtain ⟨hAfter, hStop⟩ := after_of_searchFrom (by rwa [List.length_map]) hMatch
      rw [List.length_map] at hStop
      have hHere : (m.unmask cs).after = place cs m.stop := rfl
      have hSpan : (m.unmask cs).start = m.start ∧ (m.unmask cs).stop = m.stop := ⟨rfl, rfl⟩
      simp only [Option.map_some, List.map_cons, List.cons.injEq, true_and, hHere, hSpan, hAfter]
      split
      · exact ih hStop
      · generalize hRest : cs.drop m.stop = rest
        cases rest with
        | nil =>
          have hMasked : (cs.map (mask alike x)).drop m.stop = [] := by rw [← List.map_drop, hRest, List.map_nil]
          simp only [place, hRest, hMasked, List.map_nil]
        | cons y ys =>
          have hMasked := drop_map_of_cons (mask alike x) hRest
          have hAgain := ih (lt_of_drop_eq_cons hRest)
          rw [place_succ hRest, place_succ hMasked] at hAgain
          simp only [place, hRest, hMasked, hAgain]

/-- The matches of a text are those of the masked text, cut out of the text itself. -/
theorem all_masked (hBlind : p.blind alike x = true) (cs : List Char) :
    p.all cs = ((p.all (cs.map (mask alike x))).map Match.outline).map (Outline.fill cs) := by
  unfold all
  rw [List.length_map, List.map_map]
  exact allFrom_masked (i := 0) hBlind (Nat.zero_le _)

end Agenda.Pattern
