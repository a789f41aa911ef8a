import Agenda.Proofs.Command.Dispatch
import Agenda.Proofs.Desk.Ending
import Agenda.Proofs.Desk.View
import Agenda.Proofs.Service.Crash

/-! # Lines that need no service

A line that the grammar recognises is carried out as the grammar reads it. A service is asked for one
thing only, the tag of a new task that has none; and whatever it answers, nothing but the tags of that
task depends on it.
-/

namespace Agenda

/-- The failures of a service at sorting texts are those of a remote one. -/
def Service.FailsRemotely (s : Service) : Prop :=
  ∀ text examples f, s.classify text examples = .error f → f.isRemote = true

/-! ## Tasks with other tags -/

namespace Task

def withTags (t : Task) (tags : List (Option String)) : Task :=
  { t with tags }

@[simp]
theorem withTags_withTags (t : Task) (tags tags' : List (Option String)) :
    (t.withTags tags).withTags tags' = t.withTags tags' :=
  rfl

/-- The same task, with tags of its own. -/
def Twins (t u : Task) : Prop :=
  ∃ tags, u = t.withTags tags

theorem twins_refl (tasks : List Task) : List.Forall₂ Twins tasks tasks :=
  List.forall₂_same.mpr fun t _ => ⟨t.tags, rfl⟩

theorem twins_filter {p : String → Bool} {ts us : List Task} (h : List.Forall₂ Twins ts us) :
    List.Forall₂ Twins (ts.filter fun t => p t.id) (us.filter fun t => p t.id) := by
  refine List.rel_filter ?_ h
  rintro t _ ⟨tags, rfl⟩
  exact Iff.rfl

variable {tasks : List Task} {t : Task} {now : Moment}

theorem renewed_of_once (h : t.recurrence = none) (now : Moment) : t.renewed now = pure none := by
  unfold renewed
  rw [h]

/-- Tags say nothing about next occurrences, and a task without a rule has none. -/
theorem renewals_withTags (h : t.recurrence = none) (tags : List (Option String)) :
    renewals (tasks ++ [t.withTags tags]) now = renewals (tasks ++ [t]) now := by
  have hSources : sources (tasks ++ [t.withTags tags]) = sources (tasks ++ [t]) := by
    simp only [sources, List.filterMap_append, List.filterMap_cons, withTags]
  have hOnce : (t.withTags tags).renewed now = pure none := @renewed_of_once (t.withTags tags) h now
  have hId : (t.withTags tags).id = t.id := rfl
  unfold renewals
  rw [hSources, List.filter_append, List.filter_append, List.mapM_append, List.mapM_append]
  congr 2
  funext old
  cases hNamed : (sources (tasks ++ [t])).contains t.id <;>
    simp only [List.filter_cons, List.filter_nil, hId, hNamed, Bool.not_true, Bool.not_false, if_true,
      Bool.false_eq_true, if_false, List.mapM_cons, renewed_of_once h, hOnce]

end Task

/-! ## Commands that add a task -/

namespace Command

variable {c : Command} {now : Moment} {text : List Char} {s : Setting} {n k : Nat} {t : Task}

/-- The command adds a task and gives it no tag. -/
def Untagged (c : Command) : Prop :=
  c.kind = .add ∧ given c.tag = none ∧ c.tags = []

theorem newTask_withTag (tag : Option String) (h : c.newTask now n = .ok (t, k)) :
    ({ c with tag } : Command).newTask now n =
      .ok (t.withTags ((normalTags ((given tag).toList ++ c.tags)).map some), k) := by
  unfold newTask at h ⊢
  extract_lets title at h ⊢
  obtain ⟨reminders, m, hReminders, h⟩ := Fresh.bind_eq_ok.mp h
  refine Fresh.bind_eq_ok.mpr ⟨reminders, m, hReminders, ?_⟩
  dsimp only at h ⊢
  split at h
  · obtain ⟨_, _, hThrow, _⟩ := Fresh.bind_eq_ok.mp h
    exact absurd hThrow Fresh.throw_eq_ok
  · rename_i hTitle
    rw [if_neg hTitle]
    obtain ⟨id, l, hId, h⟩ := Fresh.bind_eq_ok.mp h
    obtain ⟨rfl, rfl⟩ := Fresh.pure_eq_ok.mp h
    exact Fresh.bind_eq_ok.mpr ⟨id, l, hId, rfl⟩

/-- What a line adds is dated by no rule of the grammar, so it is in nobody's way and comes once. -/
theorem plain_of_parse (hParse : parse text now = .ok c) (hKind : c.kind = .add) (n : Nat) :
    ∃ t k, c.newTask now n = .ok (t, k) ∧ t.due = none ∧ t.recurrence = none := by
  have hReady := ready_of_parse hParse (by simp [hKind])
  have hComplete := hReady.complete
  simp only [Complete, hKind] at hComplete
  have hText : ∀ t, c.taskText = some t → Proper t := fun t ht => hReady.texts t (by simp [freeTexts, ht])
  obtain ⟨reminders, id, k, hNew⟩ := exists_newTask hText now n
  exact ⟨_, k, hNew, hComplete.2.1, rfl⟩

theorem exists_newTask_of_effect {e : Effect} (hKind : c.kind = .add) (h : c.effect s n = .ok (e, k)) :
    ∃ t, c.newTask s.now n = .ok (t, k) ∧ e.affected = [t.id] ∧ e.preferences = s.preferences ∧
      e.book = some { s.book with
        tasks := s.book.tasks ++ [t], projects := withProject s.book.projects t.project } := by
  unfold effect at h
  rw [hKind] at h
  obtain ⟨t, l, hNew, h⟩ := Fresh.bind_eq_ok.mp h
  obtain ⟨conflict, l', hConflict, h⟩ := Fresh.bind_eq_ok.mp h
  obtain ⟨_, rfl⟩ := Fresh.lift_eq_ok.mp hConflict
  obtain ⟨rfl, rfl⟩ := Fresh.pure_eq_ok.mp h
  exact ⟨t, hNew, rfl, rfl, rfl⟩

/-- The effect of adding a task that is in nobody's way. -/
def adding (s : Setting) (t : Task) : Effect :=
  { say s ("Added task: " ++ t.title) with
    book := some { s.book with tasks := s.book.tasks ++ [t], projects := withProject s.book.projects t.project }
    affected := [t.id], task := some t }

theorem effect_of_undated (hKind : c.kind = .add) (hNew : c.newTask s.now n = .ok (t, k)) (hDue : t.due = none) :
    c.effect s n = .ok (adding s t, k) := by
  have hConflict : Window.conflict t s.book.tasks s.minutes = .ok none := by
    unfold Window.conflict
    rw [hDue]
    rfl
  rw [effect_of_add hKind hNew hConflict, Option.map_none, Option.getD_none, String.append_empty]
  rfl

end Command

/-! ## Desks with twins -/

/-- Two submissions that say the same; the tasks that they show may have other tags. -/
structure Submission.Twins (s₁ s₂ : Submission) : Prop where
  route : s₂.route = s₁.route
  message : s₂.message = s₁.message
  preferences : s₂.preferences = s₁.preferences
  affected : s₂.affected = s₁.affected
  tasks : List.Forall₂ Task.Twins s₁.tasks s₂.tasks

namespace Desk

/-- Two desks that have the tasks of an earlier one and a new task behind them, which may have other
tags on one than on the other. -/
structure Twins (d d₁ d₂ : Desk) : Prop where
  book : ∃ t tags back, d₁.book.tasks = d.book.tasks ++ t :: back ∧
    d₂.book = d₁.book.withTasks (d.book.tasks ++ t.withTags tags :: back)
  preferences : Preferences.load d₂.storage = Preferences.load d₁.storage
  nextId : d₂.nextId = d₁.nextId

/-- Two runs of a line that adds a task: both are refused, or the sweep behind both fails, or both are
done; and where they differ, it is in the tags of the new task. -/
inductive SameButTags (d : Desk) : Except Fault Submission × Desk → Except Fault Submission × Desk → Prop
  | refused (f : Fault) : SameButTags d (.error f, d) (.error f, d)
  | unrenewed (f : Fault) {d₁ d₂ : Desk} (h : Twins d d₁ d₂) : SameButTags d (.error f, d₁) (.error f, d₂)
  | done {s₁ s₂ : Submission} {d₁ d₂ : Desk} (hSaid : s₁.Twins s₂) (h : Twins d d₁ d₂) :
      SameButTags d (.ok s₁, d₁) (.ok s₂, d₂)

variable {m : Means} {text : String} {now : Moment} {c : Command} {d : Desk} {route : Route} {p : Preferences}

theorem resolve_of_parse (hParse : Command.parse text.toList now = .ok c) (hKnown : c.kind ≠ .unknown) :
    resolve m text now = pure (some c, .rule) := by
  unfold resolve
  rw [hParse]
  exact if_neg hKnown

/-- A line that the grammar recognises is carried out without any other reader. -/
theorem submit_of_parse (hParse : Command.parse text.toList now = .ok c) (hKnown : c.kind ≠ .unknown)
    (hText : ¬ (Text.trim text.toList).isEmpty = true) : submit m text now = (do
      let p ← OnDesk.preferences
      let c ← tagged m c
      conclude c .rule p now) := by
  unfold submit
  rw [if_neg hText, resolve_of_parse hParse hKnown]
  rfl

theorem submit_of_blank (hText : (Text.trim text.toList).isEmpty = true) (m : Means) (now : Moment) :
    submit m text now = throw (.invalidCommand "empty input") := by
  unfold submit
  rw [if_pos hText]
  rfl

/-! ## Asking for a tag -/

theorem aside_asked : Aside (·.asked) :=
  ⟨fun _ _ => rfl, fun _ _ => rfl, fun _ _ => rfl⟩

theorem tagged_of_untagged (hUntagged : c.Untagged) (m : Means) : tagged m c = (do
    return { c with tag := some (← OnDesk.asking (Tagger.classify m.service (c.taskText.getD ""))) }) :=
  if_pos hUntagged

theorem exists_tagged (hService : m.service.FailsRemotely) (hUntagged : c.Untagged) (d : Desk) :
    ∃ tag, (tagged m c).after d = (.ok { c with tag := some tag }, { d with asked := d.asked + 1 }) := by
  have hAnswer : ∃ tag, (Tagger.classify m.service (c.taskText.getD "")).result = (.ok tag, 1) := by
    unfold Tagger.classify Service.sort
    cases hSort : m.service.classify (c.taskText.getD "") Tagger.examples with
    | ok answer => exact ⟨Tagger.tagOf (some answer), rfl⟩
    | error f =>
      rw [Asking.attempt_remote (hService _ _ f hSort)]
      exact ⟨Tagger.tagOf none, rfl⟩
  obtain ⟨tag, hTag⟩ := hAnswer
  refine ⟨tag, ?_⟩
  rw [tagged_of_untagged hUntagged, OnDesk.asking, hTag]
  rfl

/-! ## The edit and the report -/

theorem aside_preferences : Aside fun d => Preferences.load d.storage :=
  ⟨fun _ _ => rfl, fun _ _ => rfl, fun d _ => Preferences.load_save _ d.storage⟩

theorem after_commit (b : Book) (d : Desk) : (OnDesk.commit b).after d = (.ok (), d.committed b) :=
  rfl

section Edit

variable {e : Effect} {b : Book} {k : Nat} {r : Except Fault Nat} {d' : Desk}
  (hEffect : c.effect { book := d.book, preferences := p, now } d.nextId = .ok (e, k)) (hBook : e.book = some b)
  (hSweep : (sweep now).after ({ d with nextId := k }.committed b) = (r, d'))

include hEffect hBook hSweep

theorem after_apply : (apply c p now).after d = (r.map fun _ => e, d') := by
  unfold apply
  rw [OnDesk.after_get_bind, OnDesk.after_bind, OnDesk.after_fresh, hEffect]
  simp only [hBook]
  rw [OnDesk.after_bind, after_commit]
  dsimp only
  rw [OnDesk.after_bind, hSweep]
  cases r <;> rfl

theorem after_conclude (hSame : e.preferences = p) : (conclude c route p now).after d =
    (r.map fun _ => {
        command := some c, route, message := e.message, preferences := p, affected := e.affected
        tasks := d'.book.tasks.filter fun t => e.affected.contains t.id, effect := some e },
      if r.isOk then
        { d' with counters := { d'.counters with commands := d'.counters.commands.bump (c.kind.name, route.name) } }
      else d') := by
  unfold conclude report
  rw [OnDesk.after_bind, after_apply hEffect hBook hSweep]
  subst hSame
  cases r with
  | error f => rfl
  | ok renewed =>
    simp only [Except.map, ne_eq, not_true_eq_false, if_false]
    rfl

end Edit

/-! ## Two runs -/

variable {d₁ d₂ x₁ x₂ : Desk} {t : Task} {tags₁ tags₂ : List (Option String)}

theorem Twins.tasks (h : Twins d d₁ d₂) : List.Forall₂ Task.Twins d₁.book.tasks d₂.book.tasks := by
  obtain ⟨t, tags, back, hTasks, hBook⟩ := h.book
  rw [hTasks, hBook]
  exact List.rel_append (Task.twins_refl _) (.cons ⟨tags, rfl⟩ (Task.twins_refl back))

theorem twins_of_book {new : List Task} (hTasks : x₁.book.tasks = d.book.tasks ++ [t.withTags tags₁])
    (hTwin : x₂.book = x₁.book.withTasks (d.book.tasks ++ [t.withTags tags₂]))
    (h₁ : d₁.book = x₁.book.renewedBy new) (h₂ : d₂.book = x₂.book.renewedBy new)
    (hPreferences : Preferences.load d₂.storage = Preferences.load d₁.storage) (hNext : d₂.nextId = d₁.nextId) :
    Twins d d₁ d₂ := by
  refine ⟨⟨t.withTags tags₁, tags₂, new, ?_, ?_⟩, hPreferences, hNext⟩
  · rw [h₁, Book.tasks_renewedBy, hTasks, List.append_assoc, List.singleton_append]
  · rw [h₁, h₂, hTwin]
    unfold Book.renewedBy
    split
    · rename_i hNew
      rw [List.isEmpty_iff.mp hNew, Task.withTags_withTags]
    · simp only [Book.withTasks, List.append_assoc, List.singleton_append, Task.withTags_withTags]

/-- A sweep behind a new task without a rule does the same whatever the tags of the task are. -/
theorem twins_of_sweep {r₁ r₂ : Except Fault Nat} (hOnce : t.recurrence = none)
    (hTasks : x₁.book.tasks = d.book.tasks ++ [t.withTags tags₁])
    (hTwin : x₂.book = x₁.book.withTasks (d.book.tasks ++ [t.withTags tags₂]))
    (hPreferences : Preferences.load x₂.storage = Preferences.load x₁.storage) (hNext : x₂.nextId = x₁.nextId)
    (h₁ : (sweep now).after x₁ = (r₁, d₁)) (h₂ : (sweep now).after x₂ = (r₂, d₂)) : r₂ = r₁ ∧ Twins d d₁ d₂ := by
  have hRenewals : Task.renewals x₂.book.tasks now x₂.nextId = Task.renewals x₁.book.tasks now x₁.nextId := by
    rw [hTwin, hTasks, hNext, Book.withTasks, Task.renewals_withTags hOnce, Task.renewals_withTags hOnce]
  have hLoad₁ := aside_preferences.sweep now x₁
  have hLoad₂ := aside_preferences.sweep now x₂
  rw [h₁] at hLoad₁
  rw [h₂] at hLoad₂
  have hLoad := hLoad₂.trans (hPreferences.trans hLoad₁.symm)
  rcases Operation.sweep_cases h₁ with ⟨f, hError, rfl, rfl⟩ | ⟨new, hOk, rfl, hBook₁⟩
  · rcases Operation.sweep_cases h₂ with ⟨f', hError', rfl, rfl⟩ | ⟨_, hOk', _, _⟩
    · rw [hRenewals, hError] at hError'
      cases hError'
      exact ⟨rfl, @twins_of_book d d₁ d₂ d₁ d₂ t tags₁ tags₂ [] hTasks hTwin rfl rfl hLoad hNext⟩
    · rw [hRenewals, hError] at hOk'
      cases hOk'
  · rcases Operation.sweep_cases h₂ with ⟨_, hError', _, _⟩ | ⟨new', hOk', rfl, hBook₂⟩
    · rw [hRenewals, hOk] at hError'
      cases hError'
    · rw [hRenewals, hOk] at hOk'
      obtain ⟨rfl, hNext'⟩ := Prod.mk.inj (Except.ok.inj hOk')
      exact ⟨rfl, twins_of_book hTasks hTwin hBook₁ hBook₂ hLoad hNext'.symm⟩

/-- The desk when a new task is committed. -/
def extended (d : Desk) (t : Task) (k : Nat) : Desk :=
  { d with nextId := k }.committed
    { d.book with tasks := d.book.tasks ++ [t], projects := Command.withProject d.book.projects t.project }

theorem load_extended (d : Desk) (t : Task) (k : Nat) :
    Preferences.load (d.extended t k).storage = Preferences.load d.storage :=
  Preferences.load_save _ d.storage

theorem exists_effect_of_conclude {s : Submission} {d' : Desk} (h : (conclude c route p now).after d = (.ok s, d')) :
    ∃ e k, c.effect { book := d.book, preferences := p, now } d.nextId = .ok (e, k) := by
  rcases OnDesk.after_bind_eq.mp h with ⟨_, _, ⟨⟩⟩ | ⟨e, d₁, hApply, _⟩
  unfold apply at hApply
  rw [OnDesk.after_get_bind, OnDesk.after_bind, OnDesk.after_fresh] at hApply
  cases hEffect : c.effect { book := d.book, preferences := p, now } d.nextId with
  | error f =>
    rw [hEffect] at hApply
    cases hApply
  | ok made => exact ⟨made.1, made.2, rfl⟩

/-- A task that is added stands behind the others, and the sweep adds behind it. -/
theorem added_of_conclude {s : Submission} {d' : Desk} (h : (conclude c route p now).after d = (.ok s, d'))
    (hKind : c.kind = .add) : ∃ t k back, c.newTask now d.nextId = .ok (t, k) ∧
      d'.book.tasks = d.book.tasks ++ t :: back ∧ s.affected = [t.id] := by
  obtain ⟨e, k, hEffect⟩ := exists_effect_of_conclude h
  obtain ⟨t, hNew, hAffected, hSame, hBook⟩ := Command.exists_newTask_of_effect hKind hEffect
  rcases hSweep : (sweep now).after (d.extended t k) with ⟨r, d₁⟩
  rw [after_conclude hEffect hBook hSweep hSame] at h
  rcases Operation.sweep_cases hSweep with ⟨_, _, rfl, _⟩ | ⟨new, _, rfl, hRenewed⟩
  · cases h
  · cases h
    refine ⟨t, k, new, hNew, ?_, hAffected⟩
    have hTasks : d₁.book.tasks = (d.book.tasks ++ [t]) ++ new := by
      rw [hRenewed, Book.tasks_renewedBy]
      rfl
    rwa [List.append_assoc, List.singleton_append] at hTasks

/-- Whatever tags a new task is given, adding it goes the same way. -/
theorem sameButTags_of_conclude {c₁ c₂ : Command} {k : Nat} {d₀ : Desk} (hOnce : t.recurrence = none)
    (h₁ : c₁.effect { book := d.book, preferences := p, now } d.nextId =
      .ok (Command.adding { book := d.book, preferences := p, now } (t.withTags tags₁), k))
    (h₂ : c₂.effect { book := d.book, preferences := p, now } d.nextId =
      .ok (Command.adding { book := d.book, preferences := p, now } (t.withTags tags₂), k))
    (hBook : d.book = d₀.book) :
    SameButTags d₀ ((conclude c₁ route p now).after d) ((conclude c₂ route p now).after d) := by
  rcases hSweep₁ : (sweep now).after (d.extended (t.withTags tags₁) k) with ⟨r₁, d₁⟩
  rcases hSweep₂ : (sweep now).after (d.extended (t.withTags tags₂) k) with ⟨r₂, d₂⟩
  have hTasks : (d.extended (t.withTags tags₁) k).book.tasks = d₀.book.tasks ++ [t.withTags tags₁] := by
    rw [← hBook]
    rfl
  have hTwin : (d.extended (t.withTags tags₂) k).book =
      (d.extended (t.withTags tags₁) k).book.withTasks (d₀.book.tasks ++ [t.withTags tags₂]) := by
    rw [← hBook]
    rfl
  have hPreferences := (load_extended d (t.withTags tags₂) k).trans (load_extended d (t.withTags tags₁) k).symm
  obtain ⟨rfl, hTwins⟩ := twins_of_sweep hOnce hTasks hTwin hPreferences rfl hSweep₁ hSweep₂
  rw [after_conclude h₁ rfl hSweep₁ rfl, after_conclude h₂ rfl hSweep₂ rfl]
  cases r₂ with
  | error f => exact .unrenewed f hTwins
  | ok renewed =>
    refine .done ⟨rfl, rfl, rfl, rfl, ?_⟩ ⟨hTwins.book, hTwins.preferences, hTwins.nextId⟩
    exact Task.twins_filter hTwins.tasks

theorem submit_of_tagged (hParse : Command.parse text.toList now = .ok c) (hKnown : c.kind ≠ .unknown)
    (hText : ¬ (Text.trim text.toList).isEmpty = true) (hTagged : ¬ c.Untagged) : submit m text now = (do
      let p ← OnDesk.preferences
      conclude c .rule p now) := by
  have hKept : tagged m c = pure c := if_neg hTagged
  rw [submit_of_parse hParse hKnown hText]
  simp only [hKept, pure_bind]

theorem after_submit_of_untagged {tag : String} (hParse : Command.parse text.toList now = .ok c)
    (hText : ¬ (Text.trim text.toList).isEmpty = true) (hUntagged : c.Untagged)
    (hTagged : (tagged m c).after d = (.ok { c with tag := some tag }, { d with asked := d.asked + 1 })) :
    (submit m text now).after d = (conclude { c with tag := some tag } .rule (Preferences.load d.storage) now).after
      { d with asked := d.asked + 1 } := by
  rw [submit_of_parse hParse (by simp [hUntagged.1]) hText]
  change (tagged m c >>= _).after d = _
  rw [OnDesk.after_bind, hTagged]

/-- A line that the grammar recognises is carried out in the same way whatever the service. Unless it adds
a task without a tag, nothing is asked; and if it does, only the tags of the new task can differ. -/
theorem recognised_alike (hParse : Command.parse text.toList now = .ok c) (hKnown : c.kind ≠ .unknown)
    (m₁ m₂ : Means) (d : Desk) :
    (¬ c.Untagged → (submit m₁ text now).after d = (submit m₂ text now).after d ∧
      ((submit m₁ text now).after d).2.asked = d.asked) ∧
    (c.Untagged → m₁.service.FailsRemotely → m₂.service.FailsRemotely →
      SameButTags d ((submit m₁ text now).after d) ((submit m₂ text now).after d)) := by
  by_cases hText : (Text.trim text.toList).isEmpty = true
  · rw [submit_of_blank hText, submit_of_blank hText]
    exact ⟨fun _ => ⟨rfl, rfl⟩, fun _ _ _ => .refused _⟩
  · refine ⟨fun hTagged => ?_, fun hUntagged h₁ h₂ => ?_⟩
    · rw [submit_of_tagged hParse hKnown hText hTagged, submit_of_tagged hParse hKnown hText hTagged]
      refine ⟨rfl, ?_⟩
      exact OnDesk.leaves_bind OnDesk.leaves_preferences (fun p => aside_asked.conclude (fun _ _ => rfl) c .rule p) d
    · obtain ⟨tag₁, hTagged₁⟩ := exists_tagged h₁ hUntagged d
      obtain ⟨tag₂, hTagged₂⟩ := exists_tagged h₂ hUntagged d
      rw [after_submit_of_untagged hParse hText hUntagged hTagged₁,
        after_submit_of_untagged hParse hText hUntagged hTagged₂]
      obtain ⟨t, k, hNew, hDue, hOnce⟩ := Command.plain_of_parse hParse hUntagged.1 d.nextId
      have hEffect (tag : String) := @Command.effect_of_undated { c with tag := some tag }
        { book := d.book, preferences := Preferences.load d.storage, now } d.nextId k _ hUntagged.1
        (Command.newTask_withTag (some tag) hNew) hDue
      exact sameButTags_of_conclude hOnce (hEffect tag₁) (hEffect tag₂) rfl

open Operation (noon silent)

def buyMilk : Command :=
  { kind := .add, taskText := some "buy milk" }

/-- A service that takes everything for an errand. -/
def running : Means where
  service := { silent.service with classify := fun _ _ => .ok ⟨" Errand", .ofNat 1⟩ }
  serviceName := "running"

/-- Without an answer the new task gets the default tag, and with one the answer. -/
theorem milk_alike : Command.parse "add buy milk".toList noon = .ok buyMilk ∧ buyMilk.kind ≠ .unknown ∧
    ((submit silent "add buy milk" noon).after {}).2.book.tasks.map (·.tags) = [[some "general"]] ∧
    ((submit running "add buy milk" noon).after {}).2.book.tasks.map (·.tags) = [[some "errand"]] ∧
    SameButTags {} ((submit silent "add buy milk" noon).after {}) ((submit running "add buy milk" noon).after {}) := by
  have hParse : Command.parse "add buy milk".toList noon = .ok buyMilk := by rfl
  have hSilent : silent.service.FailsRemotely := by
    rintro _ _ _ ⟨⟩
    rfl
  have hRunning : running.service.FailsRemotely := by
    rintro _ _ _ ⟨⟩
  refine ⟨hParse, by decide, by decide +kernel, by decide +kernel, ?_⟩
  exact (recognised_alike hParse (by decide) silent running {}).2 ⟨rfl, rfl, rfl⟩ hSilent hRunning

end Desk

end Agenda
