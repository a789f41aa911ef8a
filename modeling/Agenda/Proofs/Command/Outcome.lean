import Agenda.Proofs.Command.Matching

/-! # What can come of a command

A command does one of five things to the book: nothing, one new task, fewer tasks, changes to the
tasks it names, or one new project. Commands that look for titles name the eligible tasks whose
titles contain the search phrase, all or the first.
-/

namespace Agenda.Command

/-- What can come of a command on the book, with the counter of identities before and after. -/
inductive Outcome (c : Command) (s : Setting) (n : Nat) (e : Effect) (n' : Nat) : Prop where
  | idle (hKind : c.kind ≠ .add) (hBook : e.book = none) (hAffected : e.affected = [])
  | added (t : Task) (m : Nat) (hKind : c.kind = .add) (hSource : t.source = none)
      (hId : t.id = freshId m) (hLow : n ≤ m) (hHigh : m < n') (hAffected : e.affected = [t.id])
      (hBook : e.book = some { s.book with
        tasks := s.book.tasks ++ [t], projects := withProject s.book.projects t.project })
  | removed (hKind : c.kind = .delete) (hAffected : e.affected ≠ [])
      (hBook : e.book = some (s.book.without e.affected))
  | edited (ts : List Task) (hKind : c.kind ∉ [.add, .delete, .project]) (hAffected : e.affected ≠ [])
      (hTouched : List.Forall₂ (Touched e.affected) s.book.tasks ts)
      (hBook : e.book = some (s.book.withTasks ts))
  | founded (name : String) (hKind : c.kind = .project) (hAffected : e.affected = [])
      (hBook : e.book = some { s.book with projects := s.book.projects ++ [name] })

/-- The tasks that a command with a search phrase considers. -/
def eligible (c : Command) (t : Task) : Bool :=
  match c.kind with
  | .tick | .snooze => t.status == .pending
  | .archive => t.status != .archived
  | .remind => c.reminderHoursBefore.isNone || t.due.isSome
  | _ => true

def seeksTitles (c : Command) : Bool :=
  match c.kind with
  | .tick | .delete | .tag | .priority | .due | .snooze | .repeat | .remind => true
  | .archive => !c.completedOnly
  | _ => false

/-- The title contains a phrase, both in lower case. -/
def Mentions (phrase : String) (t : Task) : Prop :=
  Text.lower phrase.toList <:+: Text.lower t.title.toList

instance (phrase : String) (t : Task) : Decidable (Mentions phrase t) :=
  inferInstanceAs (Decidable (_ <:+: _))

variable {c : Command} {s : Setting} {e : Effect} {n n' : Nat}

theorem hits_eq (search : Option String) (eligible : Task → Bool) (t : Task) :
    hits search eligible t = (eligible t && decide (Mentions (search.getD "") t)) := by
  refine congrArg (eligible t && ·) (Bool.eq_iff_iff.mpr ?_)
  rw [decide_eq_true_iff, Task.titleHas, Text.occurs_iff]
  constructor
  · rintro ⟨front, back, h⟩
    exact ⟨front, back, h.symm⟩
  · rintro ⟨front, back, h⟩
    exact ⟨front, back, h.symm⟩

/-- The identities of the tasks that a command with a search phrase is about. -/
def sought (c : Command) (tasks : List Task) : List String :=
  (allOrFirst c.allMatches (tasks.filter fun t =>
    c.eligible t && decide (Mentions (c.search.getD "") t))).map (·.id)

theorem of_search {all : Bool} {search : Option String} {consider : Task → Bool} {change : Task → Fresh Task}
    {tasks ts : List Task} {affected : List String}
    (hChange : ∀ t t' m m', change t m = .ok (t', m') → t.Persists t')
    (h : changeMatching all (hits search consider) change tasks n = .ok ((ts, affected), n')) :
    affected = (allOrFirst all (tasks.filter fun t =>
        consider t && decide (Mentions (search.getD "") t))).map (·.id) ∧
      List.Forall₂ (Touched affected) tasks ts := by
  have hHits : hits search consider = _ := funext (hits_eq search consider)
  rw [hHits] at h
  exact of_changeMatching hChange h

/-! ## The kinds of commands -/

theorem persists_of_pure {f : Task → Task} (hf : ∀ t : Task, t.Persists (f t)) :
    ∀ (t t' : Task) (m m' : Nat), (pure (f t) : Fresh Task) m = .ok (t', m') → t.Persists t' := by
  intro t t' m m' h
  obtain ⟨rfl, _⟩ := Fresh.pure_eq_ok.mp h
  exact hf t

theorem of_updating {consider : Task → Bool} {what : String} {change : Task → Fresh Task}
    {message : Nat → String} (hKind : c.kind ∉ [.add, .delete, .project])
    (hConsider : consider = c.eligible)
    (hChange : ∀ t t' m m', change t m = .ok (t', m') → t.Persists t')
    (h : c.updating s consider what change message n = .ok (e, n')) :
    Outcome c s n e n' ∧ e.preferences = s.preferences ∧ e.affected = c.sought s.book.tasks := by
  subst hConsider
  obtain ⟨⟨ts, affected⟩, m, hPass, h⟩ := Fresh.bind_eq_ok.mp h
  obtain ⟨hIds, hTouched⟩ := of_search hChange hPass
  dsimp only at h
  split at h
  · rename_i hNone
    obtain ⟨rfl, _⟩ := Fresh.pure_eq_ok.mp h
    rw [List.isEmpty_iff] at hNone
    refine ⟨.idle (fun hAdd => hKind (by simp [hAdd])) rfl rfl, rfl, ?_⟩
    exact hNone.symm.trans hIds
  · rename_i hSome
    obtain ⟨rfl, _⟩ := Fresh.pure_eq_ok.mp h
    rw [List.isEmpty_iff] at hSome
    exact ⟨.edited ts hKind hSome hTouched rfl, rfl, hIds⟩

theorem persists_of_remindBefore {hours : Int} {t t' : Task} {m m' : Nat}
    (h : remindBefore hours t m = .ok (t', m')) : t.Persists t' := by
  unfold remindBefore at h
  cases hDue : t.due <;> simp only [hDue] at h
  case none => exact absurd h Fresh.throw_eq_ok
  case some =>
    obtain ⟨_, _, _, h⟩ := Fresh.bind_eq_ok.mp h
    obtain ⟨_, _, _, h⟩ := Fresh.bind_eq_ok.mp h
    obtain ⟨rfl, _⟩ := Fresh.pure_eq_ok.mp h
    exact ⟨rfl, rfl, rfl, rfl⟩

theorem persists_of_remindAt {time : Option Moment} {t t' : Task} {m m' : Nat}
    (h : remindAt time t m = .ok (t', m')) : t.Persists t' := by
  cases time with
  | none => exact absurd h Fresh.throw_eq_ok
  | some time =>
    obtain ⟨_, _, _, h⟩ := Fresh.bind_eq_ok.mp h
    obtain ⟨rfl, _⟩ := Fresh.pure_eq_ok.mp h
    exact ⟨rfl, rfl, rfl, rfl⟩

theorem eligible_eq_anyTask (h : c.kind ∉ [.tick, .snooze, .archive, .remind]) : anyTask = c.eligible := by
  funext t
  unfold eligible anyTask
  split <;> simp_all

theorem of_seeksTitles (hSeeks : c.seeksTitles = true) (hDelete : c.kind ≠ .delete)
    (h : c.effect s n = .ok (e, n')) :
    Outcome c s n e n' ∧ e.preferences = s.preferences ∧ e.affected = c.sought s.book.tasks := by
  unfold seeksTitles at hSeeks
  unfold effect at h
  cases hKind : c.kind <;> simp only [hKind, Bool.false_eq_true] at hSeeks h
  case tick =>
    refine of_updating (by simp [hKind]) ?_ ?_ h
    · funext t
      rw [eligible, hKind]
      rfl
    · exact persists_of_pure fun t => ⟨rfl, rfl, rfl, rfl⟩
  case delete => exact absurd hKind hDelete
  case archive =>
    rw [Bool.not_eq_true'] at hSeeks
    simp only [archive, hSeeks, Bool.false_eq_true, if_false] at h
    refine of_updating (by simp [hKind]) ?_ ?_ h
    · funext t
      rw [eligible, hKind]
    · exact persists_of_pure fun t => ⟨rfl, rfl, rfl, rfl⟩
  case tag | priority | due | «repeat» =>
    refine of_updating (by simp [hKind]) (eligible_eq_anyTask (by simp [hKind])) ?_ h
    exact persists_of_pure fun t => ⟨rfl, rfl, rfl, rfl⟩
  case snooze =>
    unfold snooze at h
    refine of_updating (by simp [hKind]) ?_ ?_ h
    · funext t
      rw [eligible, hKind]
      rfl
    · intro t t' m m' hPush
      obtain ⟨_, _, _, hPush⟩ := Fresh.bind_eq_ok.mp hPush
      obtain ⟨rfl, _⟩ := Fresh.pure_eq_ok.mp hPush
      exact ⟨rfl, rfl, rfl, rfl⟩
  case remind =>
    unfold remind at h
    cases hHours : c.reminderHoursBefore <;> simp only [hHours] at h
    case some hours =>
      refine of_updating (by simp [hKind]) ?_ (fun _ _ _ _ => persists_of_remindBefore) h
      funext t
      rw [eligible, hKind]
      simp only [hHours]
      rfl
    case none =>
      refine of_updating (by simp [hKind]) ?_ (fun _ _ _ _ => persists_of_remindAt) h
      funext t
      rw [eligible, hKind]
      simp only [hHours]
      rfl

theorem of_delete (hKind : c.kind = .delete) (h : c.delete s n = .ok (e, n')) :
    Outcome c s n e n' ∧ e.preferences = s.preferences ∧ e.affected = c.sought s.book.tasks := by
  obtain ⟨⟨ts, affected⟩, m, hPass, h⟩ := Fresh.bind_eq_ok.mp h
  obtain ⟨hIds, _⟩ := of_search (persists_of_pure fun t => .refl t) hPass
  rw [@eligible_eq_anyTask c (by simp [hKind])] at hIds
  dsimp only at h
  split at h
  · rename_i hNone
    obtain ⟨rfl, _⟩ := Fresh.pure_eq_ok.mp h
    rw [List.isEmpty_iff] at hNone
    exact ⟨.idle (by simp [hKind]) rfl rfl, rfl, hNone.symm.trans hIds⟩
  · rename_i hSome
    obtain ⟨rfl, _⟩ := Fresh.pure_eq_ok.mp h
    rw [List.isEmpty_iff] at hSome
    exact ⟨.removed hKind hSome rfl, rfl, hIds⟩

theorem of_archiveCompleted (hKind : c.kind = .archive) (hDone : c.completedOnly = true)
    (h : c.archive s n = .ok (e, n')) :
    Outcome c s n e n' ∧ e.preferences = s.preferences ∧
      e.affected = (s.book.tasks.filter (·.done)).map (·.id) := by
  simp only [archive, hDone, if_true] at h
  split at h
  · rename_i hNone
    obtain ⟨rfl, _⟩ := Fresh.pure_eq_ok.mp h
    rw [List.isEmpty_iff] at hNone
    exact ⟨.idle (by simp [hKind]) rfl rfl, rfl, hNone.symm⟩
  · rename_i hSome
    obtain ⟨rfl, _⟩ := Fresh.pure_eq_ok.mp h
    rw [List.isEmpty_iff] at hSome
    refine ⟨.edited _ (by simp [hKind]) hSome ?_ rfl, rfl, rfl⟩
    rw [List.forall₂_map_right_iff, List.forall₂_same]
    intro t ht
    split
    · rename_i hCompleted
      refine ⟨⟨rfl, rfl, rfl, rfl⟩, fun hNot => absurd ?_ hNot⟩
      exact List.mem_map_of_mem (List.mem_filter.mpr ⟨ht, hCompleted⟩)
    · exact .refl _ t

/-- A new task draws its identity last. -/
theorem of_newTask {now : Moment} {t : Task} (h : c.newTask now n = .ok (t, n')) :
    ∃ m, t.id = freshId m ∧ n ≤ m ∧ m < n' ∧ t.source = none ∧ t.due = c.due := by
  unfold newTask at h
  extract_lets title at h
  obtain ⟨reminders, m, hReminders, h⟩ := Fresh.bind_eq_ok.mp h
  have hRises := Fresh.rises_mapM (fun m => Fresh.rises_reminder m _) _ _ _ _ hReminders
  dsimp only at h
  by_cases hTitle : title = ""
  · rw [if_pos hTitle] at h
    obtain ⟨_, _, hThrow, _⟩ := Fresh.bind_eq_ok.mp h
    exact absurd hThrow Fresh.throw_eq_ok
  · rw [if_neg hTitle] at h
    obtain ⟨id, k, hId, h⟩ := Fresh.bind_eq_ok.mp h
    obtain ⟨rfl, rfl⟩ := Fresh.newId_eq_ok.mp hId
    obtain ⟨rfl, rfl⟩ := Fresh.pure_eq_ok.mp h
    exact ⟨m, rfl, hRises, Nat.lt_succ_self m, rfl, rfl⟩

theorem of_add (hKind : c.kind = .add) (h : c.add s n = .ok (e, n')) :
    Outcome c s n e n' ∧ e.preferences = s.preferences := by
  obtain ⟨task, m, hNew, h⟩ := Fresh.bind_eq_ok.mp h
  obtain ⟨conflict, k, hConflict, h⟩ := Fresh.bind_eq_ok.mp h
  obtain ⟨_, rfl⟩ := Fresh.lift_eq_ok.mp hConflict
  obtain ⟨rfl, rfl⟩ := Fresh.pure_eq_ok.mp h
  obtain ⟨l, hId, hLow, hHigh, hSource, _⟩ := of_newTask hNew
  exact ⟨.added task l hKind hSource hId hLow hHigh rfl rfl, rfl⟩

theorem of_createProject (hKind : c.kind = .project) (h : c.createProject s = e) :
    Outcome c s n e n' ∧ e.preferences = s.preferences := by
  subst h
  unfold createProject
  split
  · exact ⟨.idle (by simp [hKind]) rfl rfl, rfl⟩
  · rename_i name _
    split
    · exact ⟨.idle (by simp [hKind]) rfl rfl, rfl⟩
    · exact ⟨.founded name hKind rfl rfl, rfl⟩

/-! ## Subtasks -/

/-- One open subtask that contains a text, of one of the tasks, becomes done. -/
def CompletesOne (text : String) (tasks after : List Task) (affected : List String) : Prop :=
  ∃ front t back ss sub ss', tasks = front ++ t :: back ∧ affected = [t.id] ∧
    t.subtasks = ss ++ sub :: ss' ∧ sub.done = false ∧
    Text.lower text.toList <:+: Text.lower sub.text.toList ∧
    after = front ++ { t with subtasks := ss ++ { sub with done := true } :: ss' } :: back

theorem of_addSubtask {text parent : String} (hKind : c.kind = .subtask)
    (h : addSubtask text parent s n = .ok (e, n')) :
    Outcome c s n e n' ∧ e.preferences = s.preferences ∧
      e.affected = ((s.book.tasks.filter fun t => decide (Mentions parent t)).take 1).map (·.id) := by
  obtain ⟨⟨ts, affected⟩, m, hPass, h⟩ := Fresh.bind_eq_ok.mp h
  have hChange : ∀ (t t' : Task) (m m' : Nat),
      (do return { t with subtasks := t.subtasks ++ [← Fresh.subtask text] } : Fresh Task) m = .ok (t', m') →
        t.Persists t' := by
    intro t t' m m' hAdd
    obtain ⟨_, _, _, hAdd⟩ := Fresh.bind_eq_ok.mp hAdd
    obtain ⟨rfl, _⟩ := Fresh.pure_eq_ok.mp hAdd
    exact ⟨rfl, rfl, rfl, rfl⟩
  obtain ⟨hIds, hTouched⟩ := of_search hChange hPass
  dsimp only at h
  split at h
  · rename_i hNone
    obtain ⟨rfl, _⟩ := Fresh.pure_eq_ok.mp h
    rw [List.isEmpty_iff] at hNone
    exact ⟨.idle (by simp [hKind]) rfl rfl, rfl, hNone.symm.trans hIds⟩
  · rename_i hSome
    obtain ⟨rfl, _⟩ := Fresh.pure_eq_ok.mp h
    rw [List.isEmpty_iff] at hSome
    exact ⟨.edited ts (by simp [hKind]) hSome hTouched rfl, rfl, hIds⟩

theorem of_completion (hParent : given c.parentSearch = none) (h : c.subtask s n = .ok (e, n')) :
    e.preferences = s.preferences ∧ (e.book = none ∧ e.affected = [] ∨
      ∃ ts id, completeSubtask (Text.lower (c.subtaskText.getD "").toList) s.book.tasks = (ts, some id) ∧
        e.book = some (s.book.withTasks ts) ∧ e.affected = [id]) := by
  unfold subtask at h
  simp only [hParent] at h
  cases hDone : completeSubtask (Text.lower (c.subtaskText.getD "").toList) s.book.tasks with | mk ts found =>
  cases found with
  | none =>
    simp only [hDone] at h
    obtain ⟨rfl, _⟩ := Fresh.pure_eq_ok.mp h
    exact ⟨rfl, .inl ⟨rfl, rfl⟩⟩
  | some id =>
    simp only [hDone] at h
    obtain ⟨rfl, _⟩ := Fresh.pure_eq_ok.mp h
    exact ⟨rfl, .inr ⟨ts, id, rfl, rfl, rfl⟩⟩

theorem of_subtask (hKind : c.kind = .subtask) (h : c.subtask s n = .ok (e, n')) :
    Outcome c s n e n' ∧ e.preferences = s.preferences := by
  cases hParent : given c.parentSearch with
  | some parent =>
    unfold subtask at h
    simp only [hParent] at h
    obtain ⟨hOutcome, hPreferences, _⟩ := of_addSubtask hKind h
    exact ⟨hOutcome, hPreferences⟩
  | none =>
    obtain ⟨hPreferences, ⟨hBook, hAffected⟩ | ⟨ts, id, hDone, hBook, hAffected⟩⟩ := of_completion hParent h
    · exact ⟨.idle (by simp [hKind]) hBook hAffected, hPreferences⟩
    · obtain ⟨front, t, back, sub, hTasks, rfl, _, _, hAfter⟩ := of_completeSubtask hDone
      refine ⟨.edited ts (by simp [hKind]) (by simp [hAffected]) ?_ hBook, hPreferences⟩
      rw [hTasks, hAfter, hAffected]
      refine List.rel_append (touched_refl _ front) (.cons ⟨⟨rfl, rfl, rfl, rfl⟩, ?_⟩ (touched_refl _ back))
      intro hNot
      exact absurd (List.mem_singleton_self t.id) hNot

theorem completesOne_of_subtask (hSubtasks : ∀ t ∈ s.book.tasks, (t.subtasks.map (·.id)).Nodup)
    (hParent : given c.parentSearch = none) (hSome : e.affected ≠ []) (h : c.subtask s n = .ok (e, n')) :
    ∃ ts, e.book = some (s.book.withTasks ts) ∧
      CompletesOne (c.subtaskText.getD "") s.book.tasks ts e.affected := by
  obtain ⟨_, ⟨_, hNone⟩ | ⟨ts, id, hDone, hBook, hAffected⟩⟩ := of_completion hParent h
  · exact absurd hNone hSome
  · obtain ⟨front, t, back, sub, hTasks, rfl, _, hOpen, hAfter⟩ := of_completeSubtask hDone
    obtain ⟨hMem, hUndone, hText⟩ := openSubtask?_eq_some hOpen
    have ht : t ∈ s.book.tasks := hTasks ▸ List.mem_append_right front List.mem_cons_self
    obtain ⟨ss, ss', hSplit, hChanged⟩ := subtaskDone_eq (hSubtasks t ht) hMem
    refine ⟨ts, hBook, front, t, back, ss, sub, ss', hTasks, hAffected, hSplit, hUndone, hText, ?_⟩
    rw [hAfter, hChanged]

/-! ## Every kind -/

def setsPreferences (k : CommandKind) : Bool :=
  k matches .filter | .sort | .calendar | .dark | .light

theorem outcome_of_effect (h : c.effect s n = .ok (e, n')) :
    Outcome c s n e n' ∧ (e.preferences = s.preferences ∨ setsPreferences c.kind = true) := by
  cases hKind : c.kind
  case tick | tag | priority | due | snooze | «repeat» | remind =>
    obtain ⟨hOutcome, hPreferences, _⟩ := of_seeksTitles (by rw [seeksTitles, hKind]) (by simp [hKind]) h
    exact ⟨hOutcome, .inl hPreferences⟩
  case archive =>
    cases hDone : c.completedOnly with
    | false =>
      have hSeeks : c.seeksTitles = true := by
        rw [seeksTitles, hKind]
        simp only [hDone, Bool.not_false]
      obtain ⟨hOutcome, hPreferences, _⟩ := of_seeksTitles hSeeks (by simp [hKind]) h
      exact ⟨hOutcome, .inl hPreferences⟩
    | true =>
      rw [effect, hKind] at h
      obtain ⟨hOutcome, hPreferences, _⟩ := of_archiveCompleted hKind hDone h
      exact ⟨hOutcome, .inl hPreferences⟩
  all_goals
    unfold effect at h
    simp only [hKind] at h
  case add =>
    obtain ⟨hOutcome, hPreferences⟩ := of_add hKind h
    exact ⟨hOutcome, .inl hPreferences⟩
  case delete =>
    obtain ⟨hOutcome, hPreferences, _⟩ := of_delete hKind h
    exact ⟨hOutcome, .inl hPreferences⟩
  case subtask =>
    obtain ⟨hOutcome, hPreferences⟩ := of_subtask hKind h
    exact ⟨hOutcome, .inl hPreferences⟩
  case project =>
    obtain ⟨hOutcome, hPreferences⟩ := of_createProject hKind (Fresh.pure_eq_ok.mp h).1
    exact ⟨hOutcome, .inl hPreferences⟩
  case filter =>
    obtain ⟨rfl, _⟩ := Fresh.pure_eq_ok.mp h
    refine ⟨.idle (by simp [hKind]) ?_ ?_, .inr rfl⟩ <;> unfold filter <;> split <;> rfl
  case summarize =>
    obtain ⟨hSummary, _⟩ := Fresh.lift_eq_ok.mp h
    obtain ⟨summary, _, hSummary⟩ := Attempt.bind_eq_ok.mp hSummary
    cases Attempt.pure_eq_ok.mp hSummary
    exact ⟨.idle (by simp [hKind]) rfl rfl, .inl rfl⟩
  case help | unknown =>
    obtain ⟨rfl, _⟩ := Fresh.pure_eq_ok.mp h
    exact ⟨.idle (by simp [hKind]) rfl rfl, .inl rfl⟩
  case sort | calendar | dark | light =>
    obtain ⟨rfl, _⟩ := Fresh.pure_eq_ok.mp h
    exact ⟨.idle (by simp [hKind]) rfl rfl, .inr rfl⟩

end Agenda.Command
