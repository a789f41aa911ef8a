import Agenda.Proofs.Book.Saved
import Agenda.Proofs.Desk.Operation

/-! # Changes of the book and what the storage keeps

A change looks at the book and gives another one, or none to leave it, or fails. Only a change that
gives a book has an effect: the version rises by one and the new book is stored. So a run of changes
leaves a storage from which the book is loaded again, as long as every new book can be stored.
-/

namespace Agenda

abbrev Change := Book → Except Fault (Option Book)

namespace OnDesk

variable {change : Change} {changes : List Change} {d d' : Desk}

def mutate (change : Change) : OnDesk Unit := do
  match ← (change (← get).book : Except Fault (Option Book)) with
  | some b => commit b
  | none => pure ()

theorem after_mutate (change : Change) (d : Desk) : (mutate change).after d = match change d.book with
    | .ok (some b) => (.ok (), d.committed b)
    | .ok none => (.ok (), d)
    | .error f => (.error f, d) := by
  unfold mutate
  rw [after_get_bind]
  cases change d.book with
  | error f => rfl
  | ok b => cases b <;> rfl

theorem exists_mutate_of_edited {op : Operation} (h : op.Edited d d') :
    ∃ change d₁, (mutate change).after d = (.ok (), d₁) ∧ d'.book = d₁.book ∧ d'.storage = d₁.storage := by
  cases h with
  | kept hBook hStorage _ => exact ⟨fun _ => .ok none, d, rfl, hBook, hStorage⟩
  | made b _ hBook hStorage =>
    rw [hBook] at hStorage
    exact ⟨fun _ => .ok (some b), d.committed b, rfl, hBook, hStorage⟩

/-! ## Runs -/

def mutated : List Change → Desk → Desk
  | [], d => d
  | change :: changes, d => mutated changes ((mutate change).after d).2

def replacements : List Change → Desk → Nat
  | [], _ => 0
  | change :: changes, d =>
    (match change d.book with
      | .ok (some _) => 1
      | _ => 0) + replacements changes ((mutate change).after d).2

/-- Every book that a change of a run gives can be stored. -/
def GivesStorable : List Change → Desk → Prop
  | [], _ => True
  | change :: changes, d => (∀ b, change d.book = .ok (some b) → b.Storable) ∧
    GivesStorable changes ((mutate change).after d).2

theorem version_mutated (changes : List Change) (d : Desk) :
    (mutated changes d).book.version = d.book.version + replacements changes d := by
  induction changes generalizing d with
  | nil => rfl
  | cons change changes ih =>
    rw [mutated, replacements, ih, after_mutate, ← Nat.add_assoc]
    congr 1
    rcases change d.book with _ | _ | b <;> rfl

/-- The book can be stored, and loading the storage gives it at any time. -/
structure Kept (d : Desk) : Prop where
  storable : d.book.Storable
  load : ∀ now n, ∃ n', Book.load d.storage now n = .ok ({ d.book with version := 0 }, n')

theorem kept_empty : Kept {} where
  storable _ ht := absurd ht List.not_mem_nil
  load _ n := ⟨n, rfl⟩

theorem kept_committed {b : Book} (h : b.Storable) : Kept (d.committed b) where
  storable := h
  load now n := Book.load_save (b := { b with version := d.book.version + 1 }) h d.storage now n

theorem Kept.mutate (h : Kept d) (hChange : ∀ b, change d.book = .ok (some b) → b.Storable) :
    Kept ((mutate change).after d).2 := by
  rw [after_mutate]
  split
  · rename_i b hGives
    exact kept_committed (hChange b hGives)
  · exact h
  · exact h

theorem Kept.mutated (h : Kept d) (hChanges : GivesStorable changes d) : Kept (mutated changes d) := by
  induction changes generalizing d with
  | nil => exact h
  | cons change changes ih =>
    obtain ⟨hFirst, hRest⟩ := hChanges
    exact ih (h.mutate hFirst) hRest

/-- Whatever a run of changes has made of an empty desk, the next change raises the version by one
if it gives a book and else leaves the desk as it is, and a fresh load gives the same book. -/
theorem storage_keeps_book (changes : List Change) (hChanges : GivesStorable changes {}) :
    (mutated changes {}).book.version = replacements changes {} ∧
    (∀ change : Change, (mutate change).after (mutated changes {}) =
      match change (mutated changes {}).book with
      | .ok (some b) => (.ok (), (mutated changes {}).committed b)
      | .ok none => (.ok (), mutated changes {})
      | .error f => (.error f, mutated changes {})) ∧
    ∀ now n, ∃ n', Book.load (mutated changes {}).storage now n =
      .ok ({ (mutated changes {}).book with version := 0 }, n') := by
  refine ⟨?_, fun change => after_mutate change _, (kept_empty.mutated hChanges).load⟩
  rw [version_mutated]
  exact Nat.zero_add _

/-! ## A run with a failure -/

/-- Ten past noon, with a fraction of a second, five and a half hours ahead of universal time. -/
def departure : Moment := ⟨63852840600000123, some 19800000000, by decide⟩

def trip : Task where
  id := "t"
  title := "Night train"
  tags := [some "travel"]
  priority := some .high
  createdAt := Operation.noon
  due := some departure
  minutes := some 90
  subtasks := [{ id := "s", text := "Pack" }]
  recurrence := some { rhythm := .weekly, days := [1, 5], endDate := some departure }
  reminders := [{ id := "r", time := departure, notified := true, kind := .relative }]

theorem storable_trip : trip.Storable where
  title := by decide
  trimmed := by decide
  named := by decide
  minutes := by
    rintro n ⟨⟩
    decide
  subtasks := by decide
  recurrence := by
    rintro r ⟨⟩
    exact ⟨by decide, by decide, by decide⟩
  tags := ⟨["travel"], rfl, by decide⟩
  project := by decide
  moments := by
    have hMoments : ∀ m ∈ trip.moments, m = Operation.noon ∨ m = departure := by decide
    intro m hm offset hOffset
    rcases hMoments m hm with rfl | rfl <;> cases hOffset
    decide

/-- A task is added, a change fails, and another leaves the book as it is. -/
def tripChanges : List Change :=
  [fun b => .ok (some { b with tasks := b.tasks ++ [trip], projects := ["Summer"] }),
    fun _ => .error .dateOverflow, fun _ => .ok none]

theorem givesStorable_tripChanges : GivesStorable tripChanges {} := by
  refine ⟨?_, ?_, ?_, trivial⟩
  · rintro b ⟨⟩ t ht
    rw [List.mem_singleton.mp ht]
    exact storable_trip
  · rintro b ⟨⟩
  · rintro b ⟨⟩

theorem storage_keeps_trip : (mutated tripChanges {}).book.version = 1 ∧
    ∃ n, Book.load (mutated tripChanges {}).storage departure 0 =
      .ok ({ tasks := [trip], projects := ["Summer"] }, n) := by
  obtain ⟨hVersion, _, hLoad⟩ := storage_keeps_book tripChanges givesStorable_tripChanges
  exact ⟨hVersion, hLoad departure 0⟩

end OnDesk

end Agenda
