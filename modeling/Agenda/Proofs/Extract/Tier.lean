import Agenda.Extract.Pipeline
import Agenda.Proofs.Attempt
import Agenda.Proofs.Text.Blank
import Agenda.Proofs.Pattern.Search

/-! # What each tier makes of a text

The patterns split a text at a phrase that is read as a time. Whichever phrase it is, the title that
is left is tidied, so it has no blanks at its ends. The service's task is taken over in part: its
title trimmed, its tags and its priority only for the sake of a marker.
-/

namespace Agenda

/-! ## What is asked for -/

namespace Asking

variable {α β : Type} {P : α → Prop} {Q : β → Prop}

/-- What a computation gives, if it gives anything. -/
def Gives (x : Asking α) (P : α → Prop) : Prop :=
  ∀ n a n', x.run.run n = (.ok a, n') → P a

theorem gives_pure {a : α} (h : P a) : Gives (pure a) P := by
  rintro n _ n' ⟨⟩
  exact h

theorem gives_throw {f : Fault} : Gives (throw f : Asking α) P := by
  rintro n _ n' ⟨⟩

theorem gives_lift {x : Except Fault α} (h : ∀ a, x = .ok a → P a) : Gives (monadLift x : Asking α) P := by
  intro n a n' hRun
  exact h a (Prod.mk.inj hRun).1

theorem run_bind (x : Asking α) (f : α → Asking β) (n : Nat) :
    (x >>= f).run.run n = match x.run.run n with
      | (.ok a, m) => (f a).run.run m
      | (.error e, m) => (.error e, m) := by
  change (match x.run.run n with | (a, m) => (ExceptT.bindCont f a : StateM Nat _) m) = _
  rcases x.run.run n with ⟨_ | a, m⟩ <;> rfl

theorem gives_bind {x : Asking α} {f : α → Asking β} (hx : Gives x P) (hf : ∀ a, P a → Gives (f a) Q) :
    Gives (x >>= f) Q := by
  intro n b n' h
  rw [run_bind] at h
  rcases hFirst : x.run.run n with ⟨_ | a, m⟩
  · rw [hFirst] at h
    cases h
  · rw [hFirst] at h
    exact hf a (hx n a m hFirst) m b n' h

theorem gives_any (x : Asking α) : Gives x fun _ => True :=
  fun _ _ _ _ => trivial

theorem gives_mono {x : Asking α} {P' : α → Prop} (h : Gives x P) (hMono : ∀ a, P a → P' a) : Gives x P' :=
  fun n a n' hRun => hMono a (h n a n' hRun)

theorem of_result {x : Asking α} {a : α} (h : Gives x P) (hResult : x.result.1 = .ok a) : P a :=
  h 0 a x.result.2 (Prod.ext hResult rfl)

end Asking

namespace Extract

open Pattern

variable {text title rest : List Char} {now due : Moment}

/-! ## Tidied titles -/

/-- Squeezing leaves spaces as the only blanks, and these are stripped with the punctuation. -/
theorem trim_tidy (text : List Char) : Text.trim (tidy text) = tidy text := by
  have hSpaces : ∀ c ∈ danglingLink.erase (Text.trim (Text.squeeze text)), Text.blank c = true → c = ' ' := by
    intro c hc
    have hSqueezed := (Text.trim_sublist _).subset (mem_of_mem_erase hc)
    exact (Text.squeezed_squeeze text).1 c hSqueezed
  have hVisible : ∀ c ∈ tidy text, titlePunctuation.contains c = false → Text.blank c = false := by
    intro c hc hPunctuation
    by_contra hBlank
    have hSub : (tidy text).Sublist (danglingLink.erase (Text.trim (Text.squeeze text))) :=
      (List.rdropWhile_prefix _ _).sublist.trans (List.dropWhile_sublist _)
    obtain rfl := hSpaces c (hSub.subset hc) (Bool.not_eq_false _ ▸ hBlank)
    exact absurd hPunctuation (by decide)
  rw [Text.trim_eq_self_iff]
  constructor
  · intro c hc
    exact hVisible c (List.mem_of_mem_head? hc) (Text.head_stripBoth c hc)
  · intro c hc
    exact hVisible c (List.mem_of_mem_getLast? hc) (Text.last_stripBoth c hc)

/-! ## The ways to split -/

/-- The due date was read at this time, in a phrase that is a date or in one that has a date. -/
inductive ReadAt (now : Moment) (due : Moment) : Prop
  | parsed {phrase : List Char} {whole : Bool} (h : When.parse phrase now whole = .ok (some due))
  | found {phrase : List Char} {hit : When.Found} (h : When.search phrase now = .ok (some hit)) (hDue : hit.value = due)

structure Split (now : Moment) (title : List Char) (due : Moment) : Prop where
  title : Text.trim title = title
  due : ReadAt now due

theorem split_of_firstTime {splits : List Match} (h : firstTime rest now splits = .ok (some (title, due))) :
    Split now title due := by
  induction splits with
  | nil => cases h
  | cons split splits ih =>
    obtain ⟨found, hParse, h⟩ := Attempt.bind_eq_ok.mp h
    cases found with
    | none => exact ih h
    | some found =>
      obtain ⟨rfl, rfl⟩ := Prod.mk.inj (Option.some.inj (Attempt.pure_eq_ok.mp h))
      exact ⟨trim_tidy _, .parsed hParse⟩

theorem split_of_splitTimeFirst (h : splitTimeFirst text now = .ok (some (title, due))) : Split now title due := by
  unfold splitTimeFirst at h
  split at h
  · cases h
  · obtain ⟨found, hParse, h⟩ := Attempt.bind_eq_ok.mp h
    obtain ⟨_, rfl, hPair⟩ := Option.map_eq_some_iff.mp (Attempt.pure_eq_ok.mp h)
    obtain ⟨rfl, rfl⟩ := Prod.mk.inj hPair
    exact ⟨trim_tidy _, .parsed hParse⟩

theorem split_of_splitTimeLast (h : splitTimeLast text now = .ok (some (title, due))) : Split now title due := by
  unfold splitTimeLast at h
  split at h
  · cases h
  · exact split_of_firstTime h

theorem split_of_splitAnywhere (h : splitAnywhere text now = .ok (some (title, due))) : Split now title due := by
  unfold splitAnywhere at h
  split at h
  · cases h
  · obtain ⟨found, hSearch, h⟩ := Attempt.bind_eq_ok.mp h
    cases found with
    | none => cases h
    | some found =>
      obtain ⟨_, _, h⟩ := Attempt.bind_eq_ok.mp h
      obtain ⟨rfl, rfl⟩ := Prod.mk.inj (Option.some.inj (Attempt.pure_eq_ok.mp h))
      exact ⟨trim_tidy _, .found hSearch rfl⟩

theorem split_of_splitReminder (h : splitReminder text now = .ok (some (title, due))) : Split now title due := by
  obtain ⟨first, hFirst, h⟩ := Attempt.bind_eq_ok.mp h
  cases first with
  | some found =>
    cases h
    exact split_of_splitTimeFirst hFirst
  | none =>
    obtain ⟨last, hLast, h⟩ := Attempt.bind_eq_ok.mp h
    cases last with
    | some found =>
      cases h
      exact split_of_splitTimeLast hLast
    | none => exact split_of_splitAnywhere h

/-- Without a reminder phrase the due date, if any, is read in the whole text. -/
theorem split_of_splitGeneric {due : Option Moment} (h : splitGeneric text now = .ok (title, due)) :
    Text.trim title = title ∧ ∀ m, due = some m → ReadAt now m := by
  obtain ⟨read, hParse, h⟩ := Attempt.bind_eq_ok.mp h
  obtain ⟨rfl, rfl⟩ := Prod.mk.inj (Attempt.pure_eq_ok.mp h)
  refine ⟨trim_tidy _, ?_⟩
  rintro m rfl
  exact .parsed hParse

/-! ## The task of the patterns -/

/-- What the patterns make of a text: a title that is left of it, or failing that the text without
its markers; a due date that was read; and the tags and the priority of the markers. -/
structure Patterned (text : List Char) (now : Moment) (t : ParsedTask) : Prop where
  title : ∃ title, Text.trim title = title ∧ t.title = String.ofList (Text.capitalize
    (if isNoise title then orTask (tidy (stripMarkers (reminderIntro.replaceFirst (fun _ => []) text))) else title))
  due : ∀ m, t.due = some m → ReadAt now m
  reminder : reminderFor text t.due = .ok t.reminder
  tags : t.tags = (explicitTags text).filter (!observances.contains ·)
  priority : t.priority = explicitPriority text

theorem trim_protectTerms (h : Text.trim title = title) :
    Text.trim (protectTerms text title) = protectTerms text title := by
  unfold protectTerms
  induction observances.filter fun term => (wholeWord term).found text generalizing title with
  | nil => exact h
  | cons term terms ih =>
    rw [List.foldl_cons]
    apply ih
    split
    · exact h
    · exact Text.trim_trim _

theorem patterned_of_heuristicTask {t : ParsedTask} (h : heuristicTask text now = .ok t) : Patterned text now t := by
  unfold heuristicTask at h
  extract_lets tags priority at h
  obtain ⟨split, hSplit, h⟩ := Attempt.bind_eq_ok.mp h
  cases split with
  | some found =>
    dsimp only at h
    rw [pure_bind] at h
    obtain ⟨reminder, hReminder, h⟩ := Attempt.bind_eq_ok.mp h
    obtain rfl := Attempt.pure_eq_ok.mp h
    have hFound := split_of_splitReminder hSplit
    refine ⟨⟨_, trim_protectTerms hFound.title, rfl⟩, ?_, hReminder, rfl, rfl⟩
    rintro _ ⟨⟩
    exact hFound.due
  | none =>
    obtain ⟨⟨title, due⟩, hGeneric, h⟩ := Attempt.bind_eq_ok.mp h
    obtain ⟨reminder, hReminder, h⟩ := Attempt.bind_eq_ok.mp h
    obtain rfl := Attempt.pure_eq_ok.mp h
    obtain ⟨hTitle, hDue⟩ := split_of_splitGeneric hGeneric
    exact ⟨⟨_, trim_protectTerms hTitle, rfl⟩, hDue, hReminder, rfl, rfl⟩

/-! ## The task of the service -/

/-- What becomes of a generated task: a title that is left of its own, a due date that was read, and
tags and a priority only where the text has a marker. -/
structure Refined (g : GeneratedTask) (text : List Char) (now : Moment) (t : ParsedTask) : Prop where
  left : generatedTitle g.title ≠ []
  title : t.title = String.ofList (Text.capitalize (generatedTitle g.title))
  due : ∀ m, t.due = some m → ReadAt now m
  reminder : reminderFor text t.due = .ok t.reminder
  tags : t.tags ≠ [] → hasTagMarker text = true ∧ wantsTagsRemoved text = false
  priority : t.priority ≠ none → hasPriorityMarker text = true

theorem trim_generatedTitle (title : String) : Text.trim (generatedTitle title) = generatedTitle title := by
  unfold generatedTitle
  exact Text.trim_trim _

theorem refined_of_refine {g : GeneratedTask} {t : ParsedTask} (h : refine g text now = .ok (some t)) :
    Refined g text now t := by
  unfold refine at h
  extract_lets tags priority title kept complete at h
  have hTags : kept ≠ [] → hasTagMarker text = true ∧ wantsTagsRemoved text = false := by
    intro hSome
    by_contra hUnmarked
    have hNone : tags = [] := if_neg (by simpa using hUnmarked)
    exact hSome (by simp only [kept, hNone, List.filter_nil, List.map_nil])
  have hPriority : priority ≠ none → hasPriorityMarker text = true := by
    intro hSome
    by_contra hUnmarked
    exact hSome (if_neg hUnmarked)
  have hComplete {due : Option Moment} (hTitle : title ≠ []) (hDue : ∀ m, due = some m → ReadAt now m)
      (h : complete due = .ok (some t)) : Refined g text now t := by
    obtain ⟨reminder, hReminder, h⟩ := Attempt.bind_eq_ok.mp h
    obtain rfl := Option.some.inj (Attempt.pure_eq_ok.mp h)
    exact ⟨hTitle, rfl, hDue, hReminder, hTags, hPriority⟩
  split at h
  · cases h
  rename_i hTitle
  have hTitle := mt List.isEmpty_iff.mpr hTitle
  split at h
  · obtain ⟨due, hParse, h⟩ := Attempt.bind_eq_ok.mp h
    refine hComplete hTitle ?_ h
    rintro m rfl
    exact .parsed hParse
  · rw [Attempt.ok_bind] at h
    refine hComplete hTitle ?_ h
    rintro _ ⟨⟩

/-! ## The task of the pipeline -/

/-- The ways in which a text becomes a task. -/
inductive Made (text : List Char) (now : Moment) (t : ParsedTask) : Prop
  | generated (g : GeneratedTask) (h : Refined g text now t)
  | patterned (h : Patterned text now t)
  | raw (h : t = rawTask text)

variable {service : Service} {t : ParsedTask}

theorem made_of_heuristic (h : (heuristic text now).outcome = .ok t) : Made text now t := by
  unfold heuristic at h
  split at h
  · rename_i task hTask
    cases h
    exact .patterned (patterned_of_heuristicTask hTask)
  · exact .raw (Outcome.ok.inj h).symm

theorem heuristic_task (text : List Char) (now : Moment) : ∃ t, (heuristic text now).task? = some t := by
  unfold heuristic
  split <;> exact ⟨_, rfl⟩

theorem outcome_of_task {r : TierResult} (h : r.task? = some t) : r.outcome = .ok t := by
  unfold TierResult.task? at h
  split at h <;> cases h
  assumption

theorem refined_of_readAnswer {raw : List Char} (h : readAnswer raw text now = .ok (.ok t)) :
    ∃ g, Refined g text now t := by
  unfold readAnswer at h
  split at h
  · cases h
  · obtain ⟨found, _, h⟩ := Attempt.bind_eq_ok.mp h
    cases found with
    | none => cases h
    | some es =>
      dsimp only at h
      split at h
      · cases h
      · rename_i g _
        obtain ⟨task, hRefine, h⟩ := Attempt.bind_eq_ok.mp h
        cases task with
        | none => cases h
        | some task =>
          cases h
          exact ⟨g, refined_of_refine hRefine⟩

theorem notATask_of_readAnswer {raw : List Char} {outcome : Outcome} (h : readAnswer raw text now = .ok outcome) :
    ∀ reason, outcome ≠ .notATask reason := by
  rintro reason rfl
  unfold readAnswer at h
  split at h
  · cases h
  · obtain ⟨found, _, h⟩ := Attempt.bind_eq_ok.mp h
    cases found with
    | none => cases h
    | some es =>
      dsimp only at h
      split at h
      · cases h
      · obtain ⟨task, _, h⟩ := Attempt.bind_eq_ok.mp h
        cases task <;> cases h

/-- The service's tier takes over tasks that the service generated, and turns away instructions. -/
theorem gives_generative_made : (generative service text now).Gives fun r =>
    (∀ t, r.outcome = .ok t → Made text now t) ∧ r.isNotATask = looksLikeCommand text := by
  unfold generative
  split
  · rename_i hCommand
    exact Asking.gives_pure ⟨by simp, hCommand.symm⟩
  · rename_i hText
    have hText := Bool.eq_false_iff.mpr hText
    refine Asking.gives_bind (Asking.gives_any _) fun answer _ => ?_
    split
    · exact Asking.gives_pure ⟨by simp, hText.symm⟩
    · exact Asking.gives_pure ⟨by simp, hText.symm⟩
    · refine Asking.gives_bind (Asking.gives_lift fun _ h => h) fun outcome hRead => Asking.gives_pure ⟨?_, ?_⟩
      · rintro t rfl
        obtain ⟨g, h⟩ := refined_of_readAnswer hRead
        exact .generated g h
      · rw [hText]
        cases outcome with
        | notATask reason => exact absurd rfl (notATask_of_readAnswer hRead reason)
        | _ => rfl
    · exact Asking.gives_throw

theorem gives_pipeline_made : (pipeline service text now).Gives fun r =>
    ∀ t, r.task = some t → Made (Text.trim text) now t := by
  unfold pipeline
  dsimp only
  split
  · exact Asking.gives_pure (by simp)
  · refine Asking.gives_bind gives_generative_made fun first hFirst => ?_
    split
    · rename_i task hTask
      refine Asking.gives_pure ?_
      rintro _ ⟨⟩
      exact hFirst.1 task hTask
    · exact Asking.gives_pure (by simp)
    · exact Asking.gives_pure fun t ht => made_of_heuristic (outcome_of_task ht)

end Extract

end Agenda
