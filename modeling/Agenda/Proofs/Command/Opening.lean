import Agenda.Proofs.Command.Pitfall
import Agenda.Proofs.Text.Spelt

/-! # First words of commands

Every rule wants one of a few words at the beginning of the line. So a rule turns a line down that
begins with a word in some case, unless one of its own words is a beginning of that word.
-/

namespace Agenda.Command

open Pattern Text

/-- Whatever the pattern takes begins with one of the words. -/
def Opening (p : Pattern) (words : List String) : Prop :=
  ∀ cs, p.Takes cs → ∃ w ∈ words, ∃ l, l <+: cs ∧ SameWord w l

variable {p q : Pattern} {words others : List String} {parts : List Pattern} {w : String}

theorem opening_keywords : Opening (keywords words) words := by
  intro cs hTakes
  obtain ⟨w, hw, hSame⟩ := takes_keywords.mp hTakes
  exact ⟨w, hw, cs, List.prefix_refl cs, hSame⟩

theorem opening_keyword : Opening (keyword w) [w] := by
  intro cs hTakes
  exact ⟨w, List.mem_singleton_self w, cs, List.prefix_refl cs, takes_keyword.mp hTakes⟩

theorem Opening.append (hp : Opening p words) : Opening (p ++ q) words := by
  rintro _ ⟨l, r, rfl, hl, _⟩
  obtain ⟨w, hw, front, hFront, hSame⟩ := hp l hl
  exact ⟨w, hw, front, hFront.trans (List.prefix_append l r), hSame⟩

theorem Opening.or (hp : Opening p words) (hq : Opening q others) : Opening (either p q) (words ++ others) := by
  rintro cs (hTakes | hTakes)
  · obtain ⟨w, hw, hFront⟩ := hp cs hTakes
    exact ⟨w, List.mem_append_left _ hw, hFront⟩
  · obtain ⟨w, hw, hFront⟩ := hq cs hTakes
    exact ⟨w, List.mem_append_right _ hw, hFront⟩

theorem opening_lineOf (hp : Opening p words) : Opening (lineOf (p :: parts)) words := by
  rintro _ ⟨_, r, rfl, rfl, hr⟩
  exact hp.append r hr

theorem opening_fixed {ws : List String} : Opening (fixed (w :: ws)) [w] := by
  cases ws with
  | nil => exact opening_keyword
  | cons v ws => exact opening_keyword.append.append

/-! ## The first words of every rule -/

def openings : List (GrammarRule × List String) :=
  grammar.zip
    [["help", "commands"], ["calendar", "view", "show", "toggle"], ["dark"], ["light"], ["list"], ["add"], ["add"],
      ["add"], ["tick", "complete"], ["tick", "complete"], ["delete", "remove"], ["archive"], ["archive"], ["tag"],
      ["filter", "show"], ["priority"], ["due"], ["snooze"], ["repeat"], ["repeat"], ["repeat"], ["remind"], ["remind"],
      ["create"], ["sort"], ["summarize"]]

theorem opening_of_mem_openings : ∀ e ∈ openings, Opening e.1.pattern e.2 := by
  have hWord {w : String} {parts : List Pattern} : Opening (lineOf (keyword w :: parts)) [w] :=
    opening_lineOf opening_keyword
  have hWords {words : List String} {parts : List Pattern} : Opening (lineOf (keywords words :: parts)) words :=
    opening_lineOf opening_keywords
  have hFixed {w : String} {ws : List String} {parts : List Pattern} : Opening (lineOf (fixed (w :: ws) :: parts)) [w] :=
    opening_lineOf opening_fixed
  have hCalendar : Opening (anyOf [keyword "calendar", fixed ["view", "calendar"], fixed ["show", "calendar"],
      fixed ["toggle", "calendar"]]) ["calendar", "view", "show", "toggle"] :=
    opening_keyword.or (opening_fixed.or (opening_fixed.or opening_fixed))
  simp only [openings, grammar, List.zip_cons_cons, List.zip_nil_left, List.forall_mem_cons]
  exact ⟨hWords, opening_lineOf hCalendar, hFixed, hFixed, hFixed, hWord, hWord, hWord, hWords, hWords, hWords, hWord, hWords,
    hWord, hWords, hWord, hWord, hWord, hWord, hWord, hWord, hWord, hWord, hWord, hWord, hWord,
    fun _ h => absurd h List.not_mem_nil⟩

/-! ## Rules that turn a line down -/

variable {line l v rest : List Char} {now : Moment} {verb : String} {c : Command} {r : GrammarRule}

theorem prefix_of_unbroken (hl : Unbroken l) (h : l <+: v ++ ' ' :: rest) : l <+: v := by
  obtain ⟨t, h⟩ := h
  rcases List.append_eq_append_iff.mp h with ⟨u, rfl, _⟩ | ⟨u, rfl, hRest⟩
  · exact List.prefix_append l u
  · cases u with
    | nil => rw [List.append_nil]
    | cons d u =>
      cases hRest
      exact absurd hl not_unbroken

theorem declined_of_opening (hOpening : Opening r.pattern words) (hWords : ∀ w ∈ words, Plain w) (hVerb : Plain verb)
    (hNot : ∀ w ∈ words, ¬ w.toList <+: verb.toList) (hSpelt : Spelt verb v) :
    r.apply (v ++ ' ' :: rest) now = .ok none := by
  cases hMatch : r.pattern.matchStart (v ++ ' ' :: rest) with
  | none =>
    unfold GrammarRule.apply
    rw [hMatch]
  | some m =>
    obtain ⟨taken, hTaken, hYields⟩ := yields_of_matchStart hMatch
    obtain ⟨w, hw, front, hFront, hSame⟩ := hOpening taken hYields.takes
    have hLine : front <+: v ++ ' ' :: rest := hFront.trans ⟨_, hTaken.symm⟩
    obtain ⟨t, rfl⟩ := prefix_of_unbroken (hSame.unbroken (hWords w hw)) hLine
    exact absurd (hSame.isPrefix (hWords w hw) hVerb hSpelt) (hNot w hw)

theorem declined_of_mem {e : GrammarRule × List String} (he : e ∈ openings) (hVerb : Plain verb)
    (hNot : ∀ w ∈ e.2, ¬ w.toList <+: verb.toList) (hSpelt : Spelt verb v) : e.1.apply (v ++ ' ' :: rest) now = .ok none := by
  have hPlain : ∀ e ∈ openings, ∀ w ∈ e.2, Plain w := by decide
  exact declined_of_opening (opening_of_mem_openings e he) (hPlain e he) hVerb hNot hSpelt

theorem declined_of_take (i : Nat) (hVerb : Plain verb)
    (hNot : ∀ e ∈ openings.take i, ∀ w ∈ e.2, ¬ w.toList <+: verb.toList) (hSpelt : Spelt verb v) :
    ∀ r ∈ grammar.take i, r.apply (v ++ ' ' :: rest) now = .ok none := by
  have hRules : grammar.take i = (openings.take i).map Prod.fst := by
    rw [List.map_take]
    rfl
  intro r hr
  rw [hRules] at hr
  obtain ⟨e, he, rfl⟩ := List.mem_map.mp hr
  exact declined_of_mem (List.mem_of_mem_take he) hVerb (hNot e he) hSpelt

theorem firstOf_append {before rules : List GrammarRule} (hBefore : ∀ e ∈ before, e.apply line now = .ok none) :
    firstOf line now (before ++ rules) = firstOf line now rules := by
  induction before with
  | nil => rfl
  | cons e before ih =>
    obtain ⟨he, hBefore⟩ := List.forall_mem_cons.mp hBefore
    rw [List.cons_append, firstOf, he]
    exact ih hBefore

theorem firstOf_grammar (i : Nat) (hBefore : ∀ e ∈ grammar.take i, e.apply line now = .ok none)
    (hAt : grammar[i]? = some r) (hMade : r.apply line now = .ok (some c)) : firstOf line now grammar = .ok (some c) := by
  obtain ⟨hIndex, rfl⟩ := List.getElem?_eq_some_iff.mp hAt
  rw [← List.take_append_drop i grammar, firstOf_append hBefore, List.drop_eq_getElem_cons hIndex, firstOf, hMade]
  rfl

end Agenda.Command
