import Agenda.Proofs.Command.Typed
import Agenda.Proofs.Time.Moment

/-! # The next day with a weekday

Weekdays come round every seven days, so the nearest one ahead is less than a week away, or a week if today does
not count and is such a day. The phrase `next` with the name of a weekday stands for the end of that day, in
whatever case and with whatever blanks it is typed.
-/

namespace Agenda.Command

open Text

/-- The word `next` and the name of a weekday. -/
inductive NextNamed : Int → List Char → Prop
  | typed {i : Nat} {name : String} {n w text : List Char} (hName : weekdayNames[i]? = some name)
      (hNext : Spelt "next" n) (hWord : Spelt name w) (hText : Spaced [n, w] text) : NextNamed i text

variable {text : List Char} {target : Int}

theorem NextNamed.target_bounds (h : NextNamed target text) : 0 ≤ target ∧ target ≤ 6 := by
  obtain @⟨i, _, _, _, _, hName, _, _, _⟩ := h
  have hLength : i < 7 := (List.getElem?_eq_some_iff.mp hName).1
  omega

theorem resolveDue_nextNamed (h : NextNamed target text) (now : Moment) :
    resolveDue text now = (now.day.nextWeekday target true).map fun d => some (.endOfDay d) := by
  obtain @⟨i, name, n, w, _, hName, hNext, hWord, hText⟩ := h
  have hNames : ∀ name ∈ weekdayNames, Plain name ∧ name.toList ≠ [] ∧ name.toList.map Char.toLower = name.toList ∧
      squeeze (lower (trim ("next " ++ name).toList)) = ("next " ++ name).toList := by decide +kernel
  obtain ⟨hPlain, hSome, hSelf, hNormal⟩ := hNames name (List.mem_of_getElem? hName)
  have hTyped : squeeze (lower (trim text)) = ("next " ++ name).toList := by
    have hPhrases {n w : List Char} (hNext : Spelt "next" n) (hWord : Spelt name w) : ∀ p ∈ [n, w], Phrase p :=
      List.forall_mem_cons.mpr ⟨phrase_of_spelt (by decide) (by decide) hNext,
        List.forall_mem_singleton.mpr (phrase_of_spelt hPlain hSome hWord)⟩
    have hWords : List.Forall₂ (List.Forall₂ Spells) ["next".toList, name.toList] [n, w] :=
      .cons (hNext.spells (by decide)) (.cons (hWord.spells hPlain) .nil)
    have hLine := hText.squeeze_lower_trim (hPhrases hNext hWord) hWords (hPhrases rfl hSelf)
    rw [List.flatMap_cons, List.flatMap_singleton, List.cons_append] at hLine
    rw [List.tail_eq_of_cons_eq hLine, String.toList_append]
    rfl
  calc resolveDue text now = resolveDue ("next " ++ name).toList now := by
        rw [resolveDue, resolveDue, hTyped, hNormal]
    _ = (now.day.nextWeekday i true).map fun d => some (.endOfDay d) :=
        resolveDue_next now (name, i) (List.mem_zipIdx_iff_getElem?.mpr hName)

/-- The last second of the nearest day ahead with the weekday. -/
structure EndsNearest (now : Moment) (target : Int) (m : Moment) : Prop where
  wall : m.isLocal = true
  clock : (m.clock.hour, m.clock.minute, m.clock.second, m.clock.micro) = (23, 59, 59, 0)
  day : now.day.Nearest target true m.day
  within : now.day.number + 1 ≤ m.day.number ∧ m.day.number ≤ now.day.number + 7

theorem endsNearest_endOfDay {now : Moment} {d : Day} (hNearest : now.day.Nearest target true d)
    (hWithin : d.number ≤ now.day.number + 7) : EndsNearest now target (.endOfDay d) := by
  have hDay : (Moment.endOfDay d).day = d := Moment.day_ofDay d .dayEnd none
  have hClock : (Moment.endOfDay d).clock = .dayEnd := Moment.clock_ofDay d .dayEnd none
  have hLater : now.day.number < d.number := hNearest.ahead
  refine ⟨rfl, ?_, ?_, ?_⟩
  · rw [hClock]
    rfl
  · rwa [hDay]
  · rw [hDay]
    exact ⟨hLater, hWithin⟩

/-- The nearest day with a weekday is found wherever the calendar has one, and the phrase stands for its end. -/
theorem next_nearest :
    (∀ (d : Day) (target : Int) (strict : Bool), 0 ≤ target ∧ target ≤ 6 →
      (∃ e, d.nextWeekday target strict = .ok e ∧ d.Nearest target strict e) ∨
        d.nextWeekday target strict = .error .dateOverflow ∧ ∀ e, d.Ahead strict e → e.weekday ≠ target) ∧
    ∀ (now : Moment) (target : Int) (text : List Char), NextNamed target text →
      (∃ m, resolveDue text now = .ok (some m) ∧ EndsNearest now target m) ∨
        resolveDue text now = .error .dateOverflow ∧ ∀ e, now.day.Ahead true e → e.weekday ≠ target := by
  constructor
  · intro d target strict hTarget
    rcases Day.nextWeekday_cases d strict hTarget with ⟨e, hNext, hNearest, _⟩ | hNone
    · exact .inl ⟨e, hNext, hNearest⟩
    · exact .inr hNone
  · intro now target text hNamed
    rw [resolveDue_nextNamed hNamed]
    rcases Day.nextWeekday_cases now.day true hNamed.target_bounds with ⟨e, hNext, hNearest, hWithin⟩ | ⟨hNext, hNone⟩
    · rw [hNext]
      exact .inl ⟨.endOfDay e, rfl, endsNearest_endOfDay hNearest hWithin⟩
    · rw [hNext]
      exact .inr ⟨rfl, hNone⟩

/-- On a Wednesday the next one is a week out, and the nearest one is today. -/
theorem next_wednesday : ∃ m e, resolveDue " NEXT\tWednesday".toList (.on ⟨739020, by decide⟩ .noon) = .ok (some m) ∧
    EndsNearest (.on ⟨739020, by decide⟩ .noon) 3 m ∧ m.day.number = 739027 ∧
    Day.nextWeekday ⟨739020, by decide⟩ 3 false = .ok e ∧ Day.Nearest 3 false ⟨739020, by decide⟩ e ∧
    e.number = 739020 := by
  obtain ⟨hDays, hTexts⟩ := next_nearest
  have hNamed : NextNamed 3 " NEXT\tWednesday".toList := by
    refine @NextNamed.typed 3 "wednesday" "NEXT".toList "Wednesday".toList _ rfl rfl rfl ?_
    have hBlank (c : Char) (hc : Text.blank c = true) : ∀ b ∈ [c], Text.blank b = true := List.forall_mem_singleton.mpr hc
    refine ⟨[' '], "NEXT\tWednesday".toList, [], rfl, hBlank ' ' rfl, nofun, ?_⟩
    exact @Apart.cons "NEXT".toList ['\t'] "Wednesday".toList _ (by simp) (hBlank '\t' rfl) (.last _)
  have hWeek : resolveDue " NEXT\tWednesday".toList (.on ⟨739020, by decide⟩ .noon) =
      .ok (some (.endOfDay ⟨739027, by decide⟩)) := rfl
  have hToday : Day.nextWeekday ⟨739020, by decide⟩ 3 false = .ok ⟨739020, by decide⟩ := rfl
  rcases hTexts (.on ⟨739020, by decide⟩ .noon) 3 _ hNamed with ⟨m, hDue, hEnds⟩ | ⟨hDue, _⟩
  swap
  · cases hWeek.symm.trans hDue
  rcases hDays ⟨739020, by decide⟩ 3 false (by decide) with ⟨e, hNext, hNearest⟩ | ⟨hNext, _⟩
  swap
  · cases hToday.symm.trans hNext
  refine ⟨m, e, hDue, hEnds, ?_, hNext, hNearest, ?_⟩
  · cases hWeek.symm.trans hDue
    rfl
  · cases hToday.symm.trans hNext
    rfl

end Agenda.Command
