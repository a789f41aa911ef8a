import Agenda.Proofs.Desk.Zone
import Agenda.Proofs.Intent.Guess

/-! # What a guess can touch

A guess goes to the first task that its phrase hits, or to none. So where identities are not shared, one
task of the book at most is changed or left out, and the next occurrences come behind the others.
-/

namespace Agenda

/-- The same tasks in the same order, but for one at most that is changed or left out. -/
inductive Task.AtMostOne : List Task → List Task → Prop
  | same (ts : List Task) : AtMostOne ts ts
  | changed (front back : List Task) {t t' : Task} (hId : t'.id = t.id) :
      AtMostOne (front ++ t :: back) (front ++ t' :: back)
  | removed (front back : List Task) (t : Task) : AtMostOne (front ++ t :: back) (front ++ back)

namespace Task

variable {tasks ts : List Task} {ids : List String}

theorem AtMostOne.cons (t : Task) (h : AtMostOne tasks ts) : AtMostOne (t :: tasks) (t :: ts) := by
  cases h with
  | same => exact .same _
  | changed front back hId => exact .changed (t :: front) back hId
  | removed front back u => exact .removed (t :: front) back u

/-- If one identity of a list at most is listed and a task has it, the other tasks have another one. -/
theorem not_listed_of_listed {t : Task} (hOne : ids.length ≤ 1) (hIds : ((t :: tasks).map (·.id)).Nodup)
    (ht : t.id ∈ ids) : ∀ u ∈ tasks, u.id ∉ ids := by
  obtain ⟨x, rfl⟩ := List.length_eq_one_iff.mp (Nat.le_antisymm hOne (List.length_pos_of_mem ht))
  rw [List.mem_singleton] at ht
  intro u hu hListed
  rw [List.mem_singleton, ← ht] at hListed
  exact (List.nodup_cons.mp hIds).1 (List.mem_map.mpr ⟨u, hu, hListed⟩)

theorem eq_of_touched (h : List.Forall₂ (Command.Touched ids) tasks ts) (hNot : ∀ t ∈ tasks, t.id ∉ ids) :
    ts = tasks := by
  induction h with
  | nil => rfl
  | cons hHead _ ih =>
    rw [List.forall_mem_cons] at hNot
    rw [hHead.2 hNot.1, ih hNot.2]

theorem atMostOne_of_touched (hOne : ids.length ≤ 1) (hIds : (tasks.map (·.id)).Nodup)
    (h : List.Forall₂ (Command.Touched ids) tasks ts) : AtMostOne tasks ts := by
  induction h with
  | nil => exact .same []
  | @cons t t' tasks ts hHead hTasks ih =>
    by_cases ht : t.id ∈ ids
    · rw [eq_of_touched hTasks (not_listed_of_listed hOne hIds ht)]
      exact .changed [] tasks hHead.1.id
    · rw [hHead.2 ht]
      exact (ih (List.nodup_cons.mp hIds).2).cons t

theorem atMostOne_of_filter (hOne : ids.length ≤ 1) (hIds : (tasks.map (·.id)).Nodup) :
    AtMostOne tasks (tasks.filter fun t => t.id ∉ ids) := by
  induction tasks with
  | nil => exact .same []
  | cons t tasks ih =>
    by_cases ht : t.id ∈ ids
    · have hRest : tasks.filter (fun t => t.id ∉ ids) = tasks :=
        List.filter_eq_self.mpr fun u hu => decide_eq_true (not_listed_of_listed hOne hIds ht u hu)
      rw [List.filter_cons_of_neg (by simpa using ht), hRest]
      exact .removed [] tasks t
    · rw [List.filter_cons_of_pos (by simpa using ht)]
      exact (ih (List.nodup_cons.mp hIds).2).cons t

end Task

/-! ## Guesses -/

namespace Command

variable {c : Command} {s : Setting} {e : Effect} {n n' : Nat}

theorem length_sought (hFirst : c.allMatches = false) (tasks : List Task) : (c.sought tasks).length ≤ 1 := by
  unfold sought allOrFirst
  rw [hFirst, if_neg Bool.false_ne_true, List.length_map]
  exact List.length_take_le 1 _

theorem length_affected_of_guessed (hGuessed : c.Guessed) (h : c.effect s n = .ok (e, n')) : e.affected.length ≤ 1 := by
  have hKinds := hGuessed.kind
  cases hKind : c.kind
  case tick | tag | priority =>
    rw [(of_seeksTitles (by rw [seeksTitles, hKind]) (by simp [hKind]) h).2.2]
    exact length_sought hGuessed.first _
  case delete =>
    rw [effect, hKind] at h
    rw [(of_delete hKind h).2.2]
    exact length_sought hGuessed.first _
  case filter =>
    rw [effect, hKind] at h
    obtain ⟨rfl, _⟩ := Fresh.pure_eq_ok.mp h
    unfold filter
    split <;> exact Nat.zero_le 1
  case help =>
    rw [effect, hKind] at h
    obtain ⟨rfl, _⟩ := Fresh.pure_eq_ok.mp h
    exact Nat.zero_le 1
  all_goals
    rw [hKind] at hKinds
    exact absurd hKinds (by decide)

theorem atMostOne_of_guessed (h : c.effect s n = .ok (e, n')) (hIds : (s.book.tasks.map (·.id)).Nodup)
    (hGuessed : c.Guessed) : Task.AtMostOne s.book.tasks (after s e).tasks := by
  have hOne := length_affected_of_guessed hGuessed h
  have hOutcome := (outcome_of_effect h).1
  by_cases hDelete : c.kind = .delete
  · rw [hOutcome.deleted_tasks hDelete]
    exact Task.atMostOne_of_filter hOne hIds
  · exact Task.atMostOne_of_touched hOne hIds (hOutcome.touched hGuessed.kind_ne_add hDelete)

end Command

namespace Operation

variable {m : Means} {text : String} {now : Moment} {d d' d₁ : Desk} {c : Command} {s : Submission}
  {found : Option Command}

theorem guessed_of_resolve (h : (Desk.resolve m text now).after d = (.ok (found, .intent), d')) :
    ∃ c, found = some c ∧ c.Guessed ∧ ∃ answer, Intent.Trusted m.service m.threshold text answer := by
  generalize hIntent : Route.intent = route at h
  cases Desk.found_of_resolve h with
  | rule | extraction => cases hIntent
  | @intent c hRoute => exact ⟨c, rfl, Asking.of_result (Intent.gives_route_guessed _ _ _) hRoute c rfl⟩
  | nothing => split at hIntent <;> cases hIntent

theorem tagged_of_guessed (hGuessed : c.Guessed) : Desk.tagged m c = pure c :=
  if_neg fun hAdd => hGuessed.kind_ne_add hAdd.1

/-- A line that takes the route of intents is understood as a guess. -/
theorem guessed_of_submit (h : (Desk.submit m text now).after d = (.ok s, d')) (hRoute : s.route = .intent) :
    ∃ c, s.command = some c ∧ c.Guessed ∧ Understood m text now d c ∧
      ∃ answer, Intent.Trusted m.service m.threshold text answer := by
  cases Desk.submits h with
  | empty hResolve hSame _ _ =>
    rw [← hSame, hRoute] at hResolve
    obtain ⟨_, ⟨⟩, _⟩ := guessed_of_resolve hResolve
  | @concluded c c' route d₁ d₂ _ _ hResolve hTagged hConclude =>
    obtain ⟨hSame, hCommand⟩ := Desk.said_of_conclude hConclude
    have hUnderstood : Understood m text now d c' := ⟨c, route, d₁, d₂, hResolve, hTagged⟩
    rw [← hSame, hRoute] at hResolve
    obtain ⟨_, ⟨⟩, hGuessed, hAnswer⟩ := guessed_of_resolve hResolve
    rw [tagged_of_guessed hGuessed] at hTagged
    cases hTagged
    exact ⟨c, hCommand, hGuessed, hUnderstood, hAnswer⟩

theorem atMostOne_of_edited (hIds : d.ids.Nodup) (hGuessed : c.Guessed) (hUnderstood : Understood m text now d c)
    (h : (submit m text now).Edited d d₁) : Task.AtMostOne d.book.tasks d₁.book.tasks := by
  cases h with
  | kept hBook =>
    rw [hBook]
    exact .same _
  | made b hMakes hBook =>
    obtain ⟨c', e, hUnderstood', hReplaced, hEffect⟩ := hMakes
    obtain rfl := understood_unique hUnderstood hUnderstood'
    have hAfter := Command.atMostOne_of_guessed hEffect hIds hGuessed
    rw [Command.after, hReplaced] at hAfter
    rw [hBook]
    exact hAfter

/-- A guess that is acted on was trusted, and it looks for one task at most. One task at most is changed
or left out by it, and whatever else is new are next occurrences behind the tasks that were there. -/
theorem guess_touches_one (hIds : d.ids.Nodup) (h : (Desk.submit m text now).after d = (.ok s, d'))
    (hRoute : s.route = .intent) :
    (∃ answer, Intent.Trusted m.service m.threshold text answer) ∧ (∃ c, s.command = some c ∧ c.Guessed) ∧
      ∃ kept new, Task.AtMostOne d.book.tasks kept ∧ d'.book.tasks = kept ++ new ∧
        ∀ t ∈ new, ∃ u ∈ kept, u.Renews t := by
  obtain ⟨c, hCommand, hGuessed, hUnderstood, hAnswer⟩ := guessed_of_submit h hRoute
  refine ⟨hAnswer, ⟨c, hCommand, hGuessed⟩, ?_⟩
  cases ended_of_submit h with
  | @edited d₁ _ hEdited hQuiet =>
    refine ⟨d₁.book.tasks, [], atMostOne_of_edited hIds hGuessed hUnderstood hEdited, ?_, by simp⟩
    rw [hQuiet.book, List.append_nil]
  | @renewed d₁ _ now' new _ hEdited hSweep hBook =>
    refine ⟨d₁.book.tasks, new, atMostOne_of_edited hIds hGuessed hUnderstood hEdited, ?_, ?_⟩
    · rw [hBook, Book.tasks_renewedBy]
    · exact fun t => Task.renews_of_renewals hSweep

/-- Two tasks about dishes, of which the first comes every day. -/
def kitchen : Desk :=
  run [.submit silent "add wash dishes #home" noon, .submit silent "repeat daily wash dishes" noon,
    .submit silent "add dry dishes #home" noon] {}

/-- A service that takes every line for the completion of a task. -/
def completing : Means where
  service := { silent.service with classify := fun _ _ => .ok ⟨"complete_task", .ofQuotient false 9 10⟩ }
  serviceName := "completing"

theorem dishes_touch_one : ∃ s d', (Desk.submit completing "i finished the dishes" noon).after kitchen = (.ok s, d') ∧
    s.route = .intent ∧ d'.book.tasks.map (·.status) = [.completed, .pending, .pending] ∧
    ∃ kept new, Task.AtMostOne kitchen.book.tasks kept ∧ d'.book.tasks = kept ++ new ∧
      ∀ t ∈ new, ∃ u ∈ kept, u.Renews t := by
  have hRoute : ((Desk.submit completing "i finished the dishes" noon).after kitchen).1.map (·.route) = .ok .intent := by
    decide +kernel
  have hStatus : ((Desk.submit completing "i finished the dishes" noon).after kitchen).2.book.tasks.map (·.status) =
      [.completed, .pending, .pending] := by
    decide +kernel
  rcases hAfter : (Desk.submit completing "i finished the dishes" noon).after kitchen with ⟨r, d'⟩
  rw [hAfter] at hRoute hStatus
  obtain ⟨s, rfl, hTaken⟩ := Attempt.map_eq_ok.mp hRoute
  exact ⟨s, d', rfl, hTaken, hStatus, (guess_touches_one (by decide +kernel) hAfter hTaken).2.2⟩

end Operation

end Agenda
