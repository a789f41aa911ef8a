import Agenda.Book.Storage
import Agenda.Proofs.Book.Legible
import Agenda.Proofs.Task.Fresh

/-! # Loading a book

What was stored is loaded task by task. Items that are no objects and tasks that break a rule are
passed over, and all others are kept in their order. But a stored value that cannot be gone through,
or one task that has no present form, leaves no book at all.
-/

namespace Agenda.Book

open Legacy (Walkable Legible itemsOf objects exists_itemsOf_iff exists_list_of_object itemsOf_list)

variable {storage : Entries} {now : Moment} {n n' : Nat}

/-- The stored value under each key can be gone through, and each object among the tasks has a
present form. -/
structure Loadable (storage : Entries) : Prop where
  tasks : Walkable (storage.at? tasksKey)
  legible : ∀ items, storage.at? tasksKey = .list items → ∀ raw, .object raw ∈ items → Legible raw
  projects : Walkable (storage.at? projectsKey)

/-- What became of a stored task: its present form is a task, or it breaks a rule. -/
def Found (now : Moment) (raw : Entries) (found : Option Task) : Prop :=
  ∃ es n, Legacy.migrate raw = .ok es ∧ found = (Task.decodeEntries now n es).toOption

/-- The book holds, in stored order, every stored task whose present form keeps the rules, and every
stored text as a project. -/
structure ReadFrom (storage : Entries) (now : Moment) (b : Book) : Prop where
  version : b.version = 0
  tasks : ∃ items found, itemsOf (storage.at? tasksKey) = .ok items ∧
    List.Forall₂ (Found now) (objects items) found ∧ b.tasks = found.filterMap fun t => t
  projects : ∃ items, itemsOf (storage.at? projectsKey) = .ok items ∧ b.projects = texts items

/-! ## One task -/

theorem readTask_eq (now : Moment) (raw : Entries) (n : Nat) : readTask now raw n =
    Legacy.migrate raw >>= fun es =>
      pure ((Task.decodeEntries now n es).toOption, n + Task.idsNeeded es) := by
  unfold readTask
  change (Legacy.migrate raw >>= fun es => (Except.ok (es, n) : Except Fault _)) >>= _ = _
  rw [bind_assoc]
  congr 1
  funext es
  rw [Attempt.ok_bind]
  dsimp only
  cases Task.decodeEntries now n es <;> rfl

theorem found_of_readTask {raw : Entries} {found : Option Task} (h : readTask now raw n = .ok (found, n')) :
    Found now raw found := by
  rw [readTask_eq] at h
  obtain ⟨es, hMigrate, h⟩ := Attempt.bind_eq_ok.mp h
  cases h
  exact ⟨es, n, hMigrate, rfl⟩

theorem exists_readTask_iff {raw : Entries} : (∃ r, readTask now raw n = .ok r) ↔ Legible raw := by
  rw [readTask_eq, ← Legacy.exists_migrate_iff]
  exact Attempt.exists_bind_pure

/-! ## All tasks -/

theorem found_of_mapM {raws : List Entries} {found : List (Option Task)}
    (h : raws.mapM (readTask now) n = .ok (found, n')) : List.Forall₂ (Found now) raws found := by
  induction raws generalizing n n' found with
  | nil =>
    rw [List.mapM_nil] at h
    obtain ⟨rfl, _⟩ := Fresh.pure_eq_ok.mp h
    exact .nil
  | cons raw raws ih =>
    rw [List.mapM_cons] at h
    obtain ⟨first, m, hFirst, h⟩ := Fresh.bind_eq_ok.mp h
    obtain ⟨rest, k, hRest, h⟩ := Fresh.bind_eq_ok.mp h
    obtain ⟨rfl, _⟩ := Fresh.pure_eq_ok.mp h
    exact .cons (found_of_readTask hFirst) (ih hRest)

theorem exists_mapM_readTask_iff {raws : List Entries} :
    (∃ r, raws.mapM (readTask now) n = .ok r) ↔ ∀ raw ∈ raws, Legible raw := by
  induction raws generalizing n with
  | nil =>
    rw [List.mapM_nil]
    exact iff_of_true ⟨_, rfl⟩ (by simp)
  | cons raw raws ih =>
    rw [List.mapM_cons, List.forall_mem_cons, ← @exists_readTask_iff now n raw]
    constructor
    · rintro ⟨⟨found, k⟩, h⟩
      obtain ⟨first, m, hFirst, h⟩ := Fresh.bind_eq_ok.mp h
      obtain ⟨rest, l, hRest, _⟩ := Fresh.bind_eq_ok.mp h
      exact ⟨⟨_, hFirst⟩, ih.mp ⟨_, hRest⟩⟩
    · rintro ⟨⟨⟨first, m⟩, hFirst⟩, hLegible⟩
      obtain ⟨⟨rest, k⟩, hRest⟩ := ih.mpr hLegible
      refine ⟨(first :: rest, k), Fresh.bind_eq_ok.mpr ⟨first, m, hFirst, ?_⟩⟩
      exact Fresh.bind_eq_ok.mpr ⟨rest, k, hRest, rfl⟩

/-! ## The book -/

theorem load_eq_ok {b : Book} : load storage now n = .ok (b, n') ↔
    ∃ items found texts', itemsOf (storage.at? tasksKey) = .ok items ∧
      (objects items).mapM (readTask now) n = .ok (found, n') ∧
      itemsOf (storage.at? projectsKey) = .ok texts' ∧
      b = { tasks := found.filterMap fun t => t, projects := texts texts' } := by
  unfold load
  constructor
  · intro h
    obtain ⟨items, m, hLift, h⟩ := Fresh.bind_eq_ok.mp h
    obtain ⟨hItems, rfl⟩ := Fresh.lift_eq_ok.mp hLift
    obtain ⟨found, m, hFound, h⟩ := Fresh.bind_eq_ok.mp h
    obtain ⟨texts', k, hLift, h⟩ := Fresh.bind_eq_ok.mp h
    obtain ⟨hTexts, rfl⟩ := Fresh.lift_eq_ok.mp hLift
    obtain ⟨rfl, rfl⟩ := Fresh.pure_eq_ok.mp h
    exact ⟨items, found, texts', hItems, hFound, hTexts, rfl⟩
  · rintro ⟨items, found, texts', hItems, hFound, hTexts, rfl⟩
    refine Fresh.bind_eq_ok.mpr ⟨items, n, Fresh.lift_eq_ok.mpr ⟨hItems, rfl⟩, ?_⟩
    refine Fresh.bind_eq_ok.mpr ⟨found, n', hFound, ?_⟩
    refine Fresh.bind_eq_ok.mpr ⟨texts', n', Fresh.lift_eq_ok.mpr ⟨hTexts, rfl⟩, ?_⟩
    exact Fresh.pure_eq_ok.mpr ⟨rfl, rfl⟩

theorem readFrom_of_load {b : Book} (h : load storage now n = .ok (b, n')) : ReadFrom storage now b := by
  obtain ⟨items, found, texts', hItems, hFound, hTexts, rfl⟩ := load_eq_ok.mp h
  exact ⟨rfl, ⟨items, found, hItems, found_of_mapM hFound, rfl⟩, ⟨texts', hTexts, rfl⟩⟩

theorem exists_load_iff : (∃ r, load storage now n = .ok r) ↔ Loadable storage := by
  constructor
  · rintro ⟨⟨b, n'⟩, h⟩
    obtain ⟨items, found, texts', hItems, hFound, hTexts, _⟩ := load_eq_ok.mp h
    refine ⟨exists_itemsOf_iff.mp ⟨_, hItems⟩, ?_, exists_itemsOf_iff.mp ⟨_, hTexts⟩⟩
    intro items' hList raw hMem
    rw [hList, itemsOf_list] at hItems
    cases hItems
    exact exists_mapM_readTask_iff.mp ⟨_, hFound⟩ raw (List.mem_filterMap.mpr ⟨_, hMem, rfl⟩)
  · intro h
    obtain ⟨items, hItems⟩ := exists_itemsOf_iff.mpr h.tasks
    obtain ⟨texts', hTexts⟩ := exists_itemsOf_iff.mpr h.projects
    have hLegible : ∀ raw ∈ objects items, Legible raw := by
      intro raw hMem
      obtain ⟨items', hList, hObject⟩ := exists_list_of_object hItems hMem
      exact h.legible items' hList raw hObject
    obtain ⟨⟨found, n'⟩, hFound⟩ := exists_mapM_readTask_iff.mpr hLegible
    exact ⟨_, load_eq_ok.mpr ⟨items, found, texts', hItems, hFound, hTexts, rfl⟩⟩

/-- Loading gives a book exactly if the storage is loadable, and then the one that was stored. -/
theorem load_cases (storage : Entries) (now : Moment) (n : Nat) :
    match load storage now n with
    | .ok (b, _) => Loadable storage ∧ ReadFrom storage now b
    | .error _ => ¬ Loadable storage := by
  cases hLoad : load storage now n with
  | ok r => exact ⟨exists_load_iff.mp ⟨r, hLoad⟩, readFrom_of_load hLoad⟩
  | error f =>
    intro hLoadable
    obtain ⟨r, hOk⟩ := exists_load_iff.mpr hLoadable
    cases hLoad.symm.trans hOk

/-- One task with a number for its tags, and one that breaks no rule. -/
def mistagged : Entries :=
  [(tasksKey, .list [.object [("id", .str "x"), ("title", .str "Call Ann"), ("tags", .int 5)],
    .object [("id", .str "y"), ("title", .str "Shopping")]])]

theorem load_mistagged_fails : load mistagged ⟨63852840000000000, none, by decide⟩ 0 = .error .wrongKind := by
  rfl

end Agenda.Book
