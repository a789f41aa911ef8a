import Agenda.Proofs.Pattern.Masked
import Agenda.Proofs.Pattern.Seam
import Agenda.Proofs.Text.Lower
import Agenda.Proofs.When.Zone

/-! # Texts that are one phrase

No rule tells one digit from another, so what the rules find in a text can be looked at without them.
Where only one rule finds something, and that is the whole text, there is one hit at most, nothing is
left over, and the text means what the hit says.
-/

namespace Agenda.When

open Pattern Text

variable {text ds : List Char} {now : Moment} {strict : Bool} {r : Rule} {rs before after : List Rule}
  {m : Match} {places : List Seam} {found : Option Hit} {hits kept : List Hit}

/-! ## Digits are alike -/

def asciiDigits : List Char :=
  "0123456789".toList

def hideDigits (cs : List Char) : List Char :=
  cs.map (mask asciiDigits '0')

theorem hideDigits_append (cs ds : List Char) : hideDigits (cs ++ ds) = hideDigits cs ++ hideDigits ds :=
  List.map_append

theorem hideDigits_cons (c : Char) (cs : List Char) :
    hideDigits (c :: cs) = mask asciiDigits '0' c :: hideDigits cs :=
  rfl

theorem hideDigits_of_digits (h : ∀ c ∈ ds, c ∈ asciiDigits) : hideDigits ds = List.replicate ds.length '0' := by
  rw [← List.map_const', hideDigits]
  exact List.map_congr_left fun c hc => if_pos (h c hc)

theorem spells_asciiDigits : ∀ c ∈ asciiDigits, Spells c c :=
  spells_of_all (by decide)

theorem blind_rules : ∀ r ∈ rules, r.pattern.blind asciiDigits '0' = true := by
  decide +kernel

theorem all_eq_fill (hr : r ∈ rules) (text : List Char) :
    r.pattern.all text = ((r.pattern.all (hideDigits text)).map Match.outline).map (Outline.fill text) :=
  all_masked (blind_rules r hr) text

/-! ## Texts that are searched as they stand -/

structure Settled (text : List Char) : Prop where
  lower : Text.lower text = text
  trim : Text.trim text = text
  some : text ≠ []

/-- The text has only ASCII characters, no capitals among them, and no blanks at its ends. -/
def tidy (text : List Char) : Bool :=
  (text.all fun c => c.toNat < 65 || (90 < c.toNat && c.toNat < 128)) &&
    text.head?.any (!blank ·) && text.getLast?.any (!blank ·)

theorem settled_of_tidy (h : tidy text = true) : Settled text := by
  unfold tidy at h
  simp only [Bool.and_eq_true, Option.any_eq_true, Bool.not_eq_true'] at h
  obtain ⟨⟨hSmall, c, hHead, hc⟩, d, hLast, hd⟩ := h
  refine ⟨lower_eq_self (spells_of_all hSmall), trim_eq_self_iff.mpr ⟨?_, ?_⟩, ?_⟩
  · rw [hHead]
    rintro _ ⟨⟩
    exact hc
  · rw [hLast]
    rintro _ ⟨⟩
    exact hd
  · rintro rfl
    cases hHead

theorem tidy_hideDigits (text : List Char) : tidy (hideDigits text) = tidy text := by
  have hSmall := @eq_of_alike asciiDigits '0' (fun c => c.toNat < 65 || (90 < c.toNat && c.toNat < 128)) (by decide)
  have hBlank := @eq_of_alike asciiDigits '0' (!blank ·) (by decide)
  unfold tidy hideDigits
  rw [List.all_map, List.head?_map, List.getLast?_map, any_map hBlank, any_map hBlank]
  exact congrArg (fun p => text.all p && _ && _) (funext hSmall)

/-! ## The only match -/

/-- Of all rules only this one matches the text, and only once. -/
def Alone (text : List Char) (r : Rule) (m : Match) : Prop :=
  ∃ before after, rules = before ++ r :: after ∧ (∀ s ∈ before ++ after, s.pattern.all text = []) ∧
    r.pattern.all text = [m]

/-- The other rules are led nowhere by what stands side by side in the text. -/
theorem alone_of_places (hRules : rules = before ++ r :: after) (hPlaces : seams (hideDigits text) ⊆ places)
    (hNowhere : ∀ s ∈ before ++ after, s.pattern.reach places places = []) (hMatch : r.pattern.all text = [m]) :
    Alone text r m := by
  refine ⟨before, after, hRules, fun s hs => ?_, hMatch⟩
  have hMem : s ∈ rules := by
    rw [hRules]
    rcases List.mem_append.mp hs with hs | hs
    · exact List.mem_append_left _ hs
    · exact List.mem_append_right _ (List.mem_cons_of_mem r hs)
  rw [all_eq_fill hMem, all_eq_nil_of_reach hPlaces (hNowhere s hs)]
  rfl

theorem exists_silent (now : Moment) (hNone : ∀ s ∈ rs, s.pattern.all text = []) :
    ∃ lists, rs.mapM (·.hits text now) = .ok lists ∧ lists.flatten = [] := by
  induction rs with
  | nil => exact ⟨[], rfl, rfl⟩
  | cons s rs ih =>
    obtain ⟨hHere, hRest⟩ := List.forall_mem_cons.mp hNone
    obtain ⟨lists, hLists, hFlat⟩ := ih hRest
    have hSilent : s.hits text now = .ok [] := by
      unfold Rule.hits
      rw [hHere]
      rfl
    refine ⟨[] :: lists, ?_, hFlat⟩
    rw [List.mapM_cons, hSilent, hLists]
    rfl

theorem allHits_of_alone (h : Alone text r m) (hResolve : r.resolve m now = .ok found) :
    allHits text now = .ok found.toList := by
  obtain ⟨before, after, hRules, hNone, hMatch⟩ := h
  obtain ⟨hBefore, hAfter⟩ := List.forall_mem_append.mp hNone
  obtain ⟨front, hFront, hFrontFlat⟩ := exists_silent now hBefore
  obtain ⟨back, hBack, hBackFlat⟩ := exists_silent now hAfter
  have hHits : r.hits text now = .ok found.toList := by
    unfold Rule.hits
    rw [hMatch, List.mapM_cons, hResolve]
    cases found <;> rfl
  unfold allHits
  rw [hRules, List.mapM_append, List.mapM_cons, hFront, hHits, hBack]
  have hFlat : (front ++ found.toList :: back).flatten = found.toList := by
    rw [List.flatten_append, List.flatten_cons, hFrontFlat, hBackFlat, List.nil_append, List.append_nil]
  exact congrArg Except.ok hFlat

/-! ## The meaning of the text -/

/-- A text means what its hits say, if nothing but fillers is left between them. -/
theorem parse_of_allHits (hText : Settled text) (hHits : allHits text now = .ok hits) (hKept : select hits = kept)
    (hFiller : kept ≠ [] → fillerOnly (cut text (kept.map fun h => (h.start, h.stop))) = true) :
    parse text now strict = combine kept now := by
  have hSearch : search text now =
      (combine kept now).map (·.map fun value => ⟨value, kept.map fun h => (h.start, h.stop)⟩) := by
    unfold search collect
    rw [hText.lower, hHits, Attempt.ok_bind, hKept]
    simp only [pure, Except.pure, Attempt.ok_bind]
    cases combine kept now with
    | error => rfl
    | ok value => cases value <;> rfl
  unfold parse
  simp only [hText.lower, hText.trim, List.isEmpty_eq_false_iff.mpr hText.some, hSearch]
  cases hCombine : combine kept now with
  | error => rfl
  | ok value =>
    cases value with
    | none => rfl
    | some value =>
      have hSome : kept ≠ [] := by
        rintro rfl
        cases hCombine
      simp only [Except.map, Option.map, Attempt.ok_bind, hFiller hSome, Bool.not_true, Bool.and_false]
      rfl

/-- A text means what its lower-case form means. -/
theorem parse_lower (text : List Char) : parse (lower text) now strict = parse text now strict := by
  unfold parse
  rw [lower_lower]

theorem select_toList (found : Option Hit) : select found.toList = found.toList := by
  cases found <;> simp [select, keepDisjoint]

/-- A phrase that is the whole text means what is read off it, whether the text may hold more or not. -/
theorem parse_of_alone (hText : Settled text) (hAlone : Alone text r m) (hWhole : m.start = 0 ∧ m.stop = text.length)
    (hResolve : r.resolve m now = .ok found) : parse text now strict = combine found.toList now := by
  refine parse_of_allHits hText (allHits_of_alone hAlone hResolve) (select_toList found) fun hSome => ?_
  cases found with
  | none => exact absurd rfl hSome
  | some h =>
    obtain ⟨before, after, hRules, _⟩ := hAlone
    have hRead := readsOff_of_mem_rules r (hRules ▸ List.mem_append_cons_self) m h hResolve
    have hCut : cut text [(h.start, h.stop)] = [' '] := by
      rw [hRead.start, hRead.stop, hWhole.1, hWhole.2]
      simp [cut, cutFrom]
    exact (congrArg fillerOnly hCut).trans (by decide)

end Agenda.When
