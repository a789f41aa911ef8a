import Agenda.Command.Grammar
import Agenda.Proofs.Pattern
import Agenda.Proofs.Text.Letter

/-! # Looking a captured word up

A pattern made of words takes each of them in any case, and the lower case of what it takes is one
of the words again, unless a letter is a stray one. So a rule that looks a captured word up finds
it unless it has a stray letter.
-/

namespace Agenda.Command

open Pattern Text

variable {cs line : List Char} {m : Match} {n : Nat} {α : Type} {p q : Pattern} {words others : List String}

/-! ## Words in any case -/

/-- What the pattern takes spells one of the words, but for stray letters. -/
def Names (p : Pattern) (words : List String) : Prop :=
  ∀ cs, p.Takes cs → Squeezed cs → (∀ c ∈ cs, strayLetter c = false) →
    ∃ w ∈ words, List.Forall₂ Spells w.toList cs

theorem Names.of_takes (hp : Names p words) (h : ∀ cs, q.Takes cs → p.Takes cs) : Names q words :=
  fun cs hTakes => hp cs (h cs hTakes)

theorem Names.or (hp : Names p words) (hq : Names q others) : Names (either p q) (words ++ others) := by
  rintro cs (hTakes | hTakes) hSqueezed hStray
  · obtain ⟨w, hw, hSpells⟩ := hp cs hTakes hSqueezed hStray
    exact ⟨w, List.mem_append_left _ hw, hSpells⟩
  · obtain ⟨w, hw, hSpells⟩ := hq cs hTakes hSqueezed hStray
    exact ⟨w, List.mem_append_right _ hw, hSpells⟩

theorem names_keywords (hLetters : words.all (·.toList.all plainLetter) = true) : Names (keywords words) words := by
  intro cs hTakes _ hStray
  obtain ⟨s, hs, hSame⟩ := takes_keywords.mp hTakes
  exact ⟨s, hs, forall₂_spells (List.all_eq_true.mp hLetters s hs) hSame hStray⟩

theorem names_keyword {s : String} (hLetters : s.toList.all plainLetter = true) : Names (keyword s) [s] := by
  intro cs hTakes _ hStray
  exact ⟨s, List.mem_singleton_self s, forall₂_spells hLetters (takes_keyword.mp hTakes) hStray⟩

theorem names_pair {s t : String} (hs : s.toList.all plainLetter = true) (ht : t.toList.all plainLetter = true) :
    Names (keyword s ++ (blanks ++ keyword t)) [s ++ " " ++ t] := by
  rintro _ ⟨l, _, rfl, hl, bs, r, rfl, ⟨hBlank, hSome⟩, hr⟩ hSqueezed hStray
  -- the blanks between the words were squeezed to one space
  have hSpace : bs = [' '] := by
    have hPart : bs <:+: l ++ (bs ++ r) := ⟨l, r, List.append_assoc l bs r⟩
    exact (hSqueezed.of_part hPart).eq_space hBlank (List.ne_nil_of_length_pos hSome)
  subst hSpace
  simp only [List.forall_mem_append] at hStray
  refine ⟨_, List.mem_singleton_self _, ?_⟩
  have hLeft := forall₂_spells hs (takes_keyword.mp hl) hStray.1
  have hRight := forall₂_spells ht (takes_keyword.mp hr) hStray.2.2
  rw [String.toList_append, String.toList_append, List.append_assoc]
  exact List.rel_append hLeft (.cons ⟨by decide, by decide⟩ hRight)

/-! ## Looking words up -/

/-- The look-up finds every word, and nothing under a text that is not of ASCII letters and blanks. -/
structure Finds (find : List Char → Option α) (words : List String) : Prop where
  listed : ∀ w ∈ words, (find w.toList).isSome
  foreign : ∀ cs, Foreign cs → find cs = none

/-- The captured text has a letter that agrees with one of ASCII but is not that letter in another case. -/
def Stray (n : Nat) (m : Match) : Prop :=
  ∃ c ∈ m.text n, strayLetter c = true

theorem find_lowered_eq_none_iff {r : GrammarRule} {find : List Char → Option α} (hFinds : Finds find words)
    (hNames : Names p words) (hBinds : r.pattern.binds n = true) (hParts : r.pattern.parts n = [p])
    (hLine : Squeezed line) (hMatch : r.pattern.matchStart line = some m) :
    find (lowered m n) = none ↔ Stray n m := by
  constructor
  · intro hNone
    -- without a stray letter the lower case is one of the words, and these are all found
    by_contra hPlain
    obtain ⟨hPart, a, ha, hTakes⟩ := takes_of_matchStart hMatch hBinds
    rw [hParts, List.mem_singleton] at ha
    subst ha
    have hStray : ∀ c ∈ m.text n, strayLetter c = false := fun c hc =>
      Bool.eq_false_iff.mpr fun h => hPlain ⟨c, hc, h⟩
    obtain ⟨w, hw, hSpells⟩ := hNames _ hTakes (hLine.of_part hPart) hStray
    have hFound := hFinds.listed w hw
    rw [lowered, lower_of_spells hSpells] at hNone
    rw [hNone] at hFound
    cases hFound
  · rintro ⟨c, hc, hStray⟩
    exact hFinds.foreign _ (foreign_lower hc hStray)

/-! ## The tables -/

theorem foreign_find_name {xs : List α} {name : α → String} (h : Foreign cs)
    (hNear : (xs.all fun x => (name x).toList.all (·.toNat < 128)) = true) :
    xs.find? (name · == String.ofList cs) = none := by
  apply List.find?_eq_none.mpr
  intro x hx hSame
  exact h.ofList_ne (List.all_eq_true.mp hNear x hx) (eq_of_beq hSame).symm

theorem finds_priority : Finds (fun cs => Priority.ofName? (String.ofList cs)) ["high", "medium", "low"] where
  listed := by decide
  foreign _ h := foreign_find_name h (by decide)

theorem finds_weekday : Finds weekdayNamed? weekdayNames where
  listed := by decide
  foreign cs h := by
    have hNear : (weekdayNames.all (·.toList.all (·.toNat < 128))) = true := by decide
    rw [weekdayNamed?, Option.map_eq_none_iff, List.findIdx?_eq_none_iff]
    intro w hw
    exact beq_false_of_ne (h.ne (List.all_eq_true.mp hNear w hw)).symm

theorem finds_sortWord : Finds (fun cs => sortWords.lookup (String.ofList (squeeze cs)))
    ["priority", "due date", "created date", "created", "alphabetical", "name"] where
  listed := by decide
  foreign cs h := by
    have hNear : (sortWords.all (·.1.toList.all (·.toNat < 128))) = true := by decide
    apply List.lookup_eq_none_iff.mpr
    intro e he
    exact bne_iff_ne.mpr (h.squeeze.ofList_ne (List.all_eq_true.mp hNear e he))

def periodOf (cs : List Char) : Option Period :=
  if String.ofList cs = "this week" then some .week else Period.ofName? (String.ofList cs)

theorem finds_period : Finds periodOf ["today", "this week", "tomorrow"] where
  listed := by decide
  foreign cs h := by
    rw [periodOf, if_neg (h.ofList_ne (by decide))]
    exact foreign_find_name h (by decide)

theorem names_sortWord : Names
    (anyOf [keyword "priority", fixed ["due", "date"], keyword "created" ++ opt (blanks ++ keyword "date"),
      keyword "alphabetical", keyword "name"])
    ["priority", "due date", "created date", "created", "alphabetical", "name"] := by
  have hDue : Names (fixed ["due", "date"]) ["due date"] :=
    (names_pair rfl rfl).of_takes fun _ => takes_append_assoc.mp
  have hCreated : Names (keyword "created" ++ opt (blanks ++ keyword "date")) ["created date", "created"] :=
    ((names_pair rfl rfl).or (names_keyword rfl)).of_takes fun _ => takes_append_opt.mp
  exact (names_keyword rfl).or (hDue.or (hCreated.or ((names_keyword rfl).or (names_keyword rfl))))

theorem names_period : Names (anyOf [keyword "today", fixed ["this", "week"], keyword "tomorrow"])
    ["today", "this week", "tomorrow"] := by
  have hWeek : Names (fixed ["this", "week"]) ["this week"] :=
    (names_pair rfl rfl).of_takes fun _ => takes_append_assoc.mp
  exact (names_keyword rfl).or (hWeek.or (names_keyword rfl))

end Agenda.Command
