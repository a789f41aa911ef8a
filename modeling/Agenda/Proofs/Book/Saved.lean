import Agenda.Book.Preferences
import Agenda.Proofs.Book.Loading
import Agenda.Proofs.Book.Present

/-! # Loading what was saved

A book of storable tasks that was saved is loaded as it was, whatever else the storage holds and
whenever that happens; only its version starts anew. Preferences that sort by a criterion that there
is are loaded as they were saved, and all that are loaded sort by one.
-/

namespace Agenda.Book

open Value (toJsonEntries)

variable {b : Book} {ts : List Task} {now : Moment} {n : Nat}

def Storable (b : Book) : Prop :=
  ∀ t ∈ b.tasks, t.Storable

/-- The entries that a task is stored as. -/
def storedTask (t : Task) : Entries :=
  toJsonEntries (t.fields ++ [("done", .bool t.done)])

theorem at?_save_tasks (b : Book) (storage : Entries) :
    (b.save storage).at? tasksKey = .list (b.tasks.map fun t => .object (storedTask t)) := by
  rw [Entries.at?, save, Entries.get?_insert, if_neg (by decide), Entries.get?_insert, if_pos rfl]
  rfl

theorem at?_save_projects (b : Book) (storage : Entries) :
    (b.save storage).at? projectsKey = .list (b.projects.map .str) := by
  rw [Entries.at?, save, Entries.get?_insert, if_pos rfl]
  rfl

theorem objects_storedTask (ts : List Task) :
    Legacy.objects (ts.map fun t => .object (storedTask t)) = ts.map storedTask := by
  rw [Legacy.objects, List.filterMap_map]
  exact congrFun (List.filterMap_eq_map (f := storedTask)) ts

theorem texts_map_str (names : List String) : texts (names.map .str) = names := by
  rw [texts, List.filterMap_map]
  exact List.filterMap_some

theorem readTask_storedTask {t : Task} (h : t.Storable) (now : Moment) (n : Nat) :
    ∃ n', readTask now (storedTask t) n = .ok (some t, n') := by
  obtain ⟨es, hMigrate, hWritten⟩ := Legacy.migrate_stored h.project
  refine ⟨n + Task.idsNeeded es, ?_⟩
  rw [readTask_eq, storedTask, hMigrate, Attempt.ok_bind, Task.decodeEntries_of_writtenIn h hWritten]
  rfl

theorem mapM_readTask_storedTask (h : ∀ t ∈ ts, t.Storable) (now : Moment) (n : Nat) :
    ∃ n', (ts.map storedTask).mapM (readTask now) n = .ok (ts.map some, n') := by
  induction ts generalizing n with
  | nil => exact ⟨n, rfl⟩
  | cons t ts ih =>
    obtain ⟨hHead, hTail⟩ := List.forall_mem_cons.mp h
    obtain ⟨m, hFirst⟩ := readTask_storedTask hHead now n
    obtain ⟨n', hRest⟩ := ih hTail m
    refine ⟨n', ?_⟩
    rw [List.map_cons, List.mapM_cons]
    refine Fresh.bind_eq_ok.mpr ⟨some t, m, hFirst, ?_⟩
    exact Fresh.bind_eq_ok.mpr ⟨ts.map some, n', hRest, rfl⟩

theorem load_save (h : b.Storable) (storage : Entries) (now : Moment) (n : Nat) :
    ∃ n', load (b.save storage) now n = .ok ({ b with version := 0 }, n') := by
  obtain ⟨n', hTasks⟩ := mapM_readTask_storedTask h now n
  have hItems : Legacy.itemsOf ((b.save storage).at? tasksKey) =
      .ok (b.tasks.map fun t => .object (storedTask t)) := by
    rw [at?_save_tasks, Legacy.itemsOf_list]
  have hTexts : Legacy.itemsOf ((b.save storage).at? projectsKey) = .ok (b.projects.map .str) := by
    rw [at?_save_projects, Legacy.itemsOf_list]
  rw [← objects_storedTask] at hTasks
  refine ⟨n', load_eq_ok.mpr ⟨_, _, _, hItems, hTasks, hTexts, ?_⟩⟩
  rw [texts_map_str]
  simp

end Agenda.Book

namespace Agenda.Preferences

open Value

variable {p : Preferences}

/-- The tasks are sorted by a criterion that there is. -/
def Known (p : Preferences) : Prop :=
  ∃ by_ : SortBy, p.sortBy = by_.name

theorem known_storedSort (v : Value) : ∃ by_ : SortBy, storedSort v = by_.name := by
  unfold storedSort decodeSortBy
  cases decodeName SortBy.ofName? v with
  | ok by_ => exact ⟨by_, rfl⟩
  | bad errors => exact ⟨.createdAt, rfl⟩

theorem known_load (storage : Entries) : (load storage).Known := by
  unfold load
  split
  · exact known_storedSort _
  · exact ⟨.createdAt, rfl⟩

theorem storedSort_name (by_ : SortBy) : storedSort (.str by_.name) = by_.name := by
  cases by_ <;> rfl

theorem at?_save (p : Preferences) (storage : Entries) :
    (p.save storage).at? sortKey = .str p.sortBy ∧ (p.save storage).at? darkKey = .bool p.dark ∧
      (p.save storage).at? calendarKey = .bool p.calendar ∧ (p.save storage).at? filterKey = .ofStr? p.filterTag := by
  simp [save, Entries.at?, Entries.get?_insert, sortKey, darkKey, calendarKey, filterKey]

theorem load_saved (h : p.Known) (storage : Entries) : load (p.save storage) = p := by
  obtain ⟨by_, hSort⟩ := h
  obtain ⟨hSortBy, hDark, hCalendar, hFilter⟩ := p.at?_save storage
  have hTag : decodeOption decodeStr (.ofStr? p.filterTag) = .ok p.filterTag := by
    cases p.filterTag <;> rfl
  unfold load
  rw [hFilter, hTag, hSortBy, hDark, hCalendar, hSort, storedSort_name, ← hSort]
  rfl

/-- Saving a book leaves the preferences alone. -/
theorem load_save (b : Book) (storage : Entries) : load (b.save storage) = load storage := by
  have hKey : ∀ key, key ≠ Book.tasksKey → key ≠ Book.projectsKey → (b.save storage).at? key = storage.at? key := by
    intro key hTasks hProjects
    unfold Book.save Entries.at?
    rw [Entries.get?_insert, if_neg hProjects, Entries.get?_insert, if_neg hTasks]
  unfold load
  rw [hKey filterKey (by decide) (by decide), hKey sortKey (by decide) (by decide),
    hKey darkKey (by decide) (by decide), hKey calendarKey (by decide) (by decide)]

end Agenda.Preferences
