import Agenda.Proofs.Desk.Identity

/-! # Renewal over runs

That a task was renewed is known from the task that names it, and only for as long as there is one.
So a run renews a task at most once, and once more every time it loses the last task that names it.
-/

namespace Agenda

namespace Desk

/-- Some task is named as the next occurrence of `x`. -/
def Names (d : Desk) (x : String) : Prop :=
  ∃ t ∈ d.book.tasks, t.source = some x

instance (d : Desk) (x : String) : Decidable (d.Names x) :=
  inferInstanceAs (Decidable (∃ t ∈ d.book.tasks, t.source = some x))

/-- How many of the added tasks are next occurrences of `x`. -/
def renewed (x : String) (d d' : Desk) : Nat :=
  ((added d d').filter fun t => t.source = some x).length

/-- There was a next occurrence of `x`, and no task that was there is one any more. -/
def Forgets (x : String) (d d' : Desk) : Prop :=
  d.Names x ∧ ∀ t ∈ d'.book.tasks, t.id ∈ d.ids → t.source ≠ some x

instance (x : String) (d d' : Desk) : Decidable (Forgets x d d') :=
  inferInstanceAs (Decidable (d.Names x ∧ ∀ t ∈ d'.book.tasks, t.id ∈ d.ids → t.source ≠ some x))

variable {d d' : Desk} {new : List Task} {now : Moment} {x : String}

theorem Reworked.renewed_eq (h : Reworked d d') : renewed x d d' = 0 := by
  rw [renewed, List.length_eq_zero_iff, List.filter_eq_nil_iff]
  intro t ht
  simp [h.source_of_added ht]

section Sweep

variable {d₁ : Desk} (hd : d.Drawn) (hReworked : d.Reworked d₁)
  (hSweep : Task.renewals d₁.book.tasks now d₁.nextId = .ok (new, d'.nextId))
  (hBook : d'.book = d₁.book.renewedBy new)

include hd hReworked hSweep

theorem not_mem_ids_of_sweep : ∀ t ∈ new, t.id ∉ d.ids := by
  intro t ht
  obtain ⟨m, hLow, _, hId⟩ := (Task.occurrences_of_renewals hSweep).drawn t ht
  exact hd.of_fresh hId (Nat.le_trans hReworked.nextId_le hLow)

include hBook

/-- After an edit and a sweep, the added occurrences are those that the sweep appended. -/
theorem renewed_of_sweep : renewed x d d' = if Task.Renewable x d₁.book.tasks then 1 else 0 := by
  have hDrawn := hReworked.drawn hd
  have hEdit : (added d d₁).filter (fun t => t.source = some x) = [] :=
    List.length_eq_zero_iff.mp hReworked.renewed_eq
  have hNew : new.filter (fun t => t.id ∉ d.ids) = new :=
    List.filter_eq_self.mpr fun t ht => decide_eq_true (not_mem_ids_of_sweep hd hReworked hSweep t ht)
  rw [← Task.length_renewals_of x hDrawn.nodup hDrawn.ne_empty hSweep, renewed, added, hBook,
    Book.tasks_renewedBy, List.filter_append, hNew, List.filter_append]
  unfold added at hEdit
  rw [hEdit, List.nil_append]

/-- Where a sweep renews a task that was renewed before, the edit had lost all that named it. -/
theorem forgets_of_sweep (hNamed : d.Names x) (hRenewable : Task.Renewable x d₁.book.tasks) : Forgets x d d' := by
  refine ⟨hNamed, ?_⟩
  rw [hBook, Book.tasks_renewedBy]
  intro t ht hOld
  rcases List.mem_append.mp ht with ht | ht
  · exact hRenewable.2 t ht
  · exact absurd hOld (not_mem_ids_of_sweep hd hReworked hSweep t ht)

theorem names_of_sweep (hRenewable : Task.Renewable x d₁.book.tasks) : d'.Names x := by
  have hDrawn := hReworked.drawn hd
  have hLength := Task.length_renewals_of x hDrawn.nodup hDrawn.ne_empty hSweep
  rw [if_pos hRenewable] at hLength
  obtain ⟨t, ht⟩ := List.exists_mem_of_length_pos (hLength ▸ Nat.one_pos)
  obtain ⟨ht, hSource⟩ := List.mem_filter.mp ht
  refine ⟨t, ?_, of_decide_eq_true hSource⟩
  rw [hBook, Book.tasks_renewedBy]
  exact List.mem_append_right _ ht

end Sweep

/-! ## Steps and runs -/

def mark (x : String) (d : Desk) : Nat :=
  if d.Names x then 1 else 0

def lost (x : String) (d d' : Desk) : Nat :=
  if Forgets x d d' then 1 else 0

theorem mark_le (x : String) (d d' : Desk) : mark x d ≤ mark x d' + lost x d d' := by
  unfold mark lost
  by_cases hNamed : d.Names x
  · by_cases hForgets : Forgets x d d'
    · rw [if_pos hNamed, if_pos hForgets]
      omega
    · have hStill : d'.Names x := by
        by_contra hNot
        exact hForgets ⟨hNamed, fun t ht _ hSource => hNot ⟨t, ht, hSource⟩⟩
      rw [if_pos hNamed, if_pos hStill]
      omega
  · rw [if_neg hNamed]
    omega

end Desk

namespace Operation

variable {op : Operation} {d d' : Desk} {x : String}

/-- Every renewal in a step makes a name that was not there, or one in place of those that the step
lost. -/
theorem renewed_le_of_ended {r : Except Fault Unit} (hd : d.Drawn) (h : op.Ended d r d') :
    Desk.renewed x d d' + Desk.mark x d ≤ Desk.mark x d' + Desk.lost x d d' := by
  have hMark := Desk.mark_le x d d'
  have hRework : d.Reworked d' → Desk.renewed x d d' + Desk.mark x d ≤ Desk.mark x d' + Desk.lost x d d' := by
    intro hReworked
    rw [hReworked.renewed_eq, Nat.zero_add]
    exact hMark
  cases h with
  | refused hQuiet => exact hRework (.of_quiet hQuiet)
  | unrenewed _ _ hEdited _ => exact hRework (reworked_of_edited hEdited)
  | edited hEdited hQuiet => exact hRework ((reworked_of_edited hEdited).quiet hQuiet)
  | renewed _ _ _ hEdited hSweep hBook =>
    have hReworked := reworked_of_edited hEdited
    rw [Desk.renewed_of_sweep hd hReworked hSweep hBook]
    split
    · rename_i hRenewable
      have hNames := Desk.names_of_sweep hd hReworked hSweep hBook hRenewable
      have hMarked : Desk.mark x d' = 1 := if_pos hNames
      -- The one renewal is paid for by the new mark, or by the loss if there was a mark before.
      by_cases hNamed : d.Names x
      · have hLost : Desk.lost x d d' = 1 :=
          if_pos (Desk.forgets_of_sweep hd hReworked hSweep hBook hNamed hRenewable)
        have hBefore : Desk.mark x d = 1 := if_pos hNamed
        omega
      · have hBefore : Desk.mark x d = 0 := if_neg hNamed
        omega
    · omega

/-- How often a run renews `x`. -/
def renewals (x : String) : List Operation → Desk → Nat
  | [], _ => 0
  | op :: ops, d => Desk.renewed x d (op.next d) + renewals x ops (op.next d)

/-- How often a run loses the last task that names `x`. -/
def losses (x : String) : List Operation → Desk → Nat
  | [], _ => 0
  | op :: ops, d => Desk.lost x d (op.next d) + losses x ops (op.next d)

theorem renewals_le_of_run (ops : List Operation) (hd : d.Drawn) :
    renewals x ops d + Desk.mark x d ≤ Desk.mark x (run ops d) + losses x ops d := by
  -- The marks between the steps cancel.
  induction ops generalizing d with
  | nil => simp [renewals, losses, run]
  | cons op ops ih =>
    have hStep : Desk.renewed x d (op.next d) + Desk.mark x d ≤ _ := renewed_le_of_ended hd (op.ended d)
    have hRest := @ih (op.next d) (drawn_of_ended hd (op.ended d))
    simp only [renewals, losses, run]
    omega

theorem renewed_of_work (hd : d.Drawn) {now : Moment} (h : (sweep now).work.after d = (.ok (), d')) :
    Desk.renewed x d d' = if Task.Renewable x d.book.tasks then 1 else 0 := by
  unfold work at h
  rw [after_forgotten] at h
  obtain ⟨hOk, hDesk⟩ := Prod.mk.inj h
  have hSwept : (Desk.sweep now).after d = (((Desk.sweep now).after d).1, d') := Prod.ext rfl hDesk
  rcases sweep_cases hSwept with ⟨f, _, hFault, _⟩ | ⟨new, hSweep, _, hBook⟩
  · rw [hFault] at hOk
    cases hOk
  · exact Desk.renewed_of_sweep hd (.of_quiet (.refl d)) hSweep hBook

/-- From an empty desk, a task is renewed at most once, and once more for every time that no task is
left that names it. A sweep renews what recurs and is named by no task there is. -/
theorem renewals_le_losses (ops : List Operation) (x : String) :
    renewals x ops {} ≤ 1 + losses x ops {} ∧
      ∀ now d', (sweep now).work.after (run ops {}) = (.ok (), d') →
        Desk.renewed x (run ops {}) d' = if Task.Renewable x (run ops {}).book.tasks then 1 else 0 := by
  have hRun := @renewals_le_of_run {} x ops drawn_empty
  have hMark : Desk.mark x (run ops {}) ≤ 1 := by
    unfold Desk.mark
    split <;> omega
  refine ⟨by omega, ?_⟩
  intro now d' h
  exact renewed_of_work (drawn_of_run ops drawn_empty) h

/-- A daily task is completed, its next occurrence deleted, and the desk swept. -/
def plants : List Operation :=
  [.submit silent "add water plants #home" noon, .submit silent "repeat daily water plants" noon,
    .toggle (freshId 0) noon, .delete (freshId 1), .sweep noon]

theorem plants_renewed_twice : renewals (freshId 0) plants {} = 2 := by
  decide +kernel

theorem plants_renewals_le : losses (freshId 0) plants {} = 1 ∧
    renewals (freshId 0) plants {} ≤ 1 + losses (freshId 0) plants {} :=
  ⟨by decide +kernel, (renewals_le_losses plants (freshId 0)).1⟩

end Operation

end Agenda
