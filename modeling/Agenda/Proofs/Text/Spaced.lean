import Agenda.Proofs.Text.Blank

/-! # Texts with blanks between their parts

However many blanks stand between the parts of a text and around them, trimming and squeezing leave
one space between the parts and nothing around them. Where a text without blanks stands in front of
a space or behind one, a squeezed text can be split there in one way only.
-/

namespace Agenda.Text

/-- Not empty, trimmed, and with single spaces for blanks. -/
structure Phrase (s : List Char) : Prop where
  some : s ≠ []
  trimmed : trim s = s
  squeezed : Squeezed s

def Unbroken (cs : List Char) : Prop :=
  ∀ c ∈ cs, blank c = false

/-- The parts in order, with a run of blanks in front of each but the first. -/
inductive Apart : List (List Char) → List Char → Prop
  | last (p : List Char) : Apart [p] p
  | cons {p bs rest : List Char} {parts : List (List Char)} (hSome : bs ≠ []) (hBlank : ∀ b ∈ bs, blank b = true)
      (hRest : Apart parts rest) : Apart (p :: parts) (p ++ (bs ++ rest))

/-- The parts in order, with blanks between them and perhaps around them. -/
def Spaced (parts : List (List Char)) (text : List Char) : Prop :=
  ∃ front body back, text = front ++ (body ++ back) ∧ (∀ b ∈ front, blank b = true) ∧ (∀ b ∈ back, blank b = true) ∧
    Apart parts body

variable {c d : Char} {cs rest run bs l r s v w x y front body back text : List Char} {parts : List (List Char)}

/-! ## Phrases -/

theorem Unbroken.squeezed (h : Unbroken cs) : Squeezed cs := by
  induction cs with
  | nil => exact squeezed_nil
  | cons c cs ih =>
    obtain ⟨hc, hcs⟩ := List.forall_mem_cons.mp h
    exact (ih hcs).cons hc

theorem Unbroken.phrase (h : Unbroken cs) (hSome : cs ≠ []) : Phrase cs where
  some := hSome
  trimmed := trim_of_unbroken h
  squeezed := h.squeezed

theorem Phrase.head (h : Phrase s) : ∃ c cs, s = c :: cs ∧ blank c = false := by
  obtain ⟨c, cs, rfl⟩ := List.exists_cons_of_ne_nil h.some
  exact ⟨c, cs, rfl, (trim_eq_self_iff.mp h.trimmed).1 c rfl⟩

theorem Phrase.last (h : Phrase s) : ∀ c ∈ s.getLast?, blank c = false :=
  (trim_eq_self_iff.mp h.trimmed).2

/-! ## Squeezing -/

theorem squeezeFrom_cons (hc : blank c = false) : squeezeFrom 1 [] (c :: cs) = c :: squeezeFrom 1 [] cs := by
  rw [squeezeFrom, hc]
  rfl

theorem squeezeFrom_run (hBlank : ∀ b ∈ bs, blank b = true) (hSome : run ++ bs ≠ []) (hd : blank d = false) :
    squeezeFrom 1 run (bs ++ d :: rest) = ' ' :: squeezeFrom 1 [] (d :: rest) := by
  induction bs generalizing run with
  | nil =>
    obtain ⟨b, run, rfl⟩ := List.exists_cons_of_ne_nil (List.append_nil run ▸ hSome)
    rw [List.nil_append, squeezeFrom_cons hd, squeezeFrom, hd]
    simp [squeezeFrom.flush]
  | cons b bs ih =>
    obtain ⟨hb, hBlank⟩ := List.forall_mem_cons.mp hBlank
    rw [List.cons_append, squeezeFrom, if_pos hb]
    exact ih hBlank (List.cons_ne_nil _ _)

/-- A squeezed part stays as it is, whatever stands behind it. -/
theorem squeezeFrom_part (rest : List Char) : ∀ cs, Squeezed cs → (∀ c ∈ cs.getLast?, blank c = false) →
    squeezeFrom 1 [] (cs ++ rest) = cs ++ squeezeFrom 1 [] rest
  | [], _, _ => rfl
  | [c], _, hLast => squeezeFrom_cons (hLast c rfl)
  | c :: d :: cs, hSqueezed, hLast => by
    have hTail : Squeezed (d :: cs) := hSqueezed.of_part (List.suffix_cons c _).isInfix
    have hLast' : ∀ e ∈ (d :: cs).getLast?, blank e = false := by
      rwa [List.getLast?_cons_cons] at hLast
    cases hc : blank c with
    | false =>
      rw [List.cons_append, squeezeFrom_cons hc, squeezeFrom_part rest (d :: cs) hTail hLast']
      rfl
    | true =>
      -- a blank is a space in front of some other character
      obtain rfl := hSqueezed.1 c List.mem_cons_self hc
      have hd : blank d = false :=
        Bool.eq_false_iff.mpr fun hd => (List.isChain_cons_cons.mp hSqueezed.2).1 ⟨hc, hd⟩
      have hRun : squeezeFrom 1 [] ([' '] ++ d :: (cs ++ rest)) = ' ' :: squeezeFrom 1 [] (d :: (cs ++ rest)) :=
        squeezeFrom_run (by simpa using hc) (by simp) hd
      have hRest := squeezeFrom_part rest (d :: cs) hTail hLast'
      rw [List.cons_append] at hRest
      rw [List.cons_append, List.cons_append, List.cons_append, ← hRest]
      exact hRun

theorem Apart.head (h : Apart parts body) (hParts : ∀ p ∈ parts, Phrase p) : ∃ c cs, body = c :: cs ∧ blank c = false := by
  cases h with
  | last p => exact (hParts _ List.mem_cons_self).head
  | cons _ _ _ =>
    obtain ⟨c, cs, rfl, hc⟩ := (hParts _ List.mem_cons_self).head
    exact ⟨c, _, rfl, hc⟩

theorem Apart.last_char (h : Apart parts body) (hParts : ∀ p ∈ parts, Phrase p) : ∀ c ∈ body.getLast?, blank c = false := by
  induction h with
  | last p => exact (hParts p List.mem_cons_self).last
  | @cons p bs rest parts _ _ hRest ih =>
    obtain ⟨_, hParts⟩ := List.forall_mem_cons.mp hParts
    obtain ⟨c, cs, rfl, _⟩ := hRest.head hParts
    rw [List.getLast?_append_of_ne_nil, List.getLast?_append_of_ne_nil]
    · exact ih hParts
    · exact List.cons_ne_nil c cs
    · exact List.append_ne_nil_of_right_ne_nil bs (List.cons_ne_nil c cs)

/-- The parts that are left have a space in front of each. -/
theorem Apart.squeeze (h : Apart parts body) (hParts : ∀ p ∈ parts, Phrase p) :
    ' ' :: squeeze body = parts.flatMap (' ' :: ·) := by
  induction h with
  | last p =>
    obtain ⟨hp, _⟩ := List.forall_mem_cons.mp hParts
    have hPart := squeezeFrom_part [] p hp.squeezed hp.last
    rw [List.append_nil, squeezeFrom, squeezeFrom.flush] at hPart
    simpa [Text.squeeze] using hPart
  | @cons p bs rest parts hSome hBlank hRest ih =>
    obtain ⟨hp, hParts⟩ := List.forall_mem_cons.mp hParts
    obtain ⟨c, cs, rfl, hc⟩ := hRest.head hParts
    rw [Text.squeeze, squeezeFrom_part _ p hp.squeezed hp.last, squeezeFrom_run hBlank (by simpa using hSome) hc,
      List.flatMap_cons, ← ih hParts]
    rfl

theorem trim_of_padded (hFront : ∀ b ∈ front, blank b = true) (hBack : ∀ b ∈ back, blank b = true)
    (hHead : ∃ c cs, body = c :: cs ∧ blank c = false) (hLast : ∀ c ∈ body.getLast?, blank c = false) :
    trim (front ++ (body ++ back)) = body := by
  obtain ⟨c, cs, rfl, hc⟩ := hHead
  rw [trim_eq, List.dropWhile_append_of_pos hFront, List.cons_append, List.dropWhile_cons_of_neg (by simp [hc]),
    ← List.cons_append, rdropWhile_append hBack hLast]

theorem Spaced.squeeze_trim (h : Spaced (v :: parts) text) (hParts : ∀ p ∈ v :: parts, Phrase p) :
    squeeze (trim text) = v ++ parts.flatMap (' ' :: ·) := by
  obtain ⟨front, body, back, rfl, hFront, hBack, hBody⟩ := h
  rw [trim_of_padded hFront hBack (hBody.head hParts) (hBody.last_char hParts)]
  have hLine := hBody.squeeze hParts
  rw [List.flatMap_cons, List.cons_append] at hLine
  exact List.tail_eq_of_cons_eq hLine

/-! ## Splitting at a space -/

theorem not_unbroken : ¬ Unbroken (cs ++ ' ' :: rest) := by
  intro h
  have hSpace := h ' ' (List.mem_append_right cs List.mem_cons_self)
  cases hSpace

theorem front_unique (hl : Unbroken l) (hv : Unbroken v) (h : l ++ ' ' :: x = v ++ ' ' :: y) : l = v ∧ x = y := by
  rcases List.append_eq_append_iff.mp h with ⟨t, rfl, hRest⟩ | ⟨t, rfl, hRest⟩
  · cases t with
    | nil =>
      cases hRest
      exact ⟨(List.append_nil l).symm, rfl⟩
    | cons d t =>
      cases hRest
      exact absurd hv not_unbroken
  · cases t with
    | nil =>
      cases hRest
      exact ⟨List.append_nil v, rfl⟩
    | cons d t =>
      cases hRest
      exact absurd hl not_unbroken

/-- The characters with a property at the end of a text are all that stand behind the last one without it. -/
theorem ends_unique {p : Char → Bool} (hr : ∀ c ∈ r, p c = true) (hw : ∀ c ∈ w, p c = true)
    (hx : ∀ c ∈ x.getLast?, p c = false) (hy : ∀ c ∈ y.getLast?, p c = false) (h : x ++ r = y ++ w) : x = y ∧ r = w := by
  have hFront := congrArg (List.rdropWhile p) h
  rw [rdropWhile_append hr hx, rdropWhile_append hw hy] at hFront
  rw [hFront] at h
  exact ⟨hFront, List.append_cancel_left h⟩

theorem words_unique (hr : Unbroken r) (hw : Unbroken w) (hx : ∀ c ∈ x.getLast?, blank c = true)
    (hy : ∀ c ∈ y.getLast?, blank c = true) (h : x ++ r = y ++ w) : x = y ∧ r = w := by
  refine ends_unique (p := fun c => !blank c) ?_ ?_ ?_ ?_ h <;> simpa [Unbroken]

theorem back_unique (hr : Unbroken r) (hw : Unbroken w) (h : x ++ ' ' :: r = y ++ ' ' :: w) : x = y ∧ r = w := by
  have hSplit : (x ++ [' ']) ++ r = (y ++ [' ']) ++ w := by
    simpa using h
  have hSpace : blank ' ' = true := by decide
  obtain ⟨hFront, hWord⟩ := words_unique hr hw (by simp [hSpace]) (by simp [hSpace]) hSplit
  exact ⟨List.append_cancel_right hFront, hWord⟩

theorem Squeezed.behind (h : Squeezed (l ++ r)) : Squeezed r :=
  h.of_part (List.suffix_append l r).isInfix

/-- A run of blanks in a squeezed text is one space. -/
theorem Squeezed.one_space (h : Squeezed (l ++ (bs ++ r))) (hBlank : ∀ b ∈ bs, blank b = true) (hSome : bs ≠ []) : bs = [' '] :=
  (h.of_part ⟨l, r, List.append_assoc l bs r⟩).eq_space hBlank hSome

end Agenda.Text
