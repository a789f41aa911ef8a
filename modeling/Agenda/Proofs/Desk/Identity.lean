import Agenda.Proofs.Command.Frame
import Agenda.Proofs.Desk.Ending
import Agenda.Proofs.Task.Renewed

/-! # Identities on a desk

Whatever is asked of a desk, every identity on it was drawn, and for one task only. An edit leaves
tasks out or changes them in their places, or adds one task that is no next occurrence; a sweep
appends tasks with identities drawn later.
-/

namespace Agenda

namespace Desk

def ids (d : Desk) : List String :=
  d.book.tasks.map (·.id)

def added (d d' : Desk) : List Task :=
  d'.book.tasks.filter fun t => t.id ∉ d.ids

/-- All identities were drawn, each for one task. -/
structure Drawn (d : Desk) : Prop where
  drawn : ∀ t ∈ d.book.tasks, ∃ m, m < d.nextId ∧ t.id = freshId m
  nodup : d.ids.Nodup

inductive Reworked (d d' : Desk) : Prop where
  | within (hIds : d'.ids.Sublist d.ids) (hNext : d.nextId ≤ d'.nextId)
  | extended (t : Task) (m : Nat) (hTasks : d'.book.tasks = d.book.tasks ++ [t]) (hId : t.id = freshId m)
      (hLow : d.nextId ≤ m) (hHigh : m < d'.nextId) (hSource : t.source = none)

variable {d d' d₁ : Desk} {x : String}

theorem Drawn.of_fresh (h : d.Drawn) {t : Task} {m : Nat} (hId : t.id = freshId m) (hLow : d.nextId ≤ m) :
    t.id ∉ d.ids := by
  intro hMem
  obtain ⟨u, hu, hSame⟩ := List.mem_map.mp hMem
  obtain ⟨k, hk, hDrawn⟩ := h.drawn u hu
  have := freshId_injective (hDrawn.symm.trans (hSame.trans hId))
  omega

theorem Drawn.unique (h : d.Drawn) {t u : Task} (hu : u ∈ d.book.tasks) (ht : t ∈ d.book.tasks) (hId : u.id = t.id) :
    u = t :=
  List.inj_on_of_nodup_map h.nodup hu ht hId

theorem Reworked.drawn (hd : d.Drawn) (h : Reworked d d') : d'.Drawn := by
  cases h with
  | within hIds hNext =>
    refine ⟨?_, hd.nodup.sublist hIds⟩
    intro t ht
    obtain ⟨u, hu, hSame⟩ := List.mem_map.mp (hIds.subset (List.mem_map_of_mem ht))
    obtain ⟨m, hm, hId⟩ := hd.drawn u hu
    exact ⟨m, by omega, hSame.symm.trans hId⟩
  | extended t m hTasks hId hLow hHigh _ =>
    constructor
    · rw [hTasks]
      intro u hu
      rcases List.mem_append.mp hu with hu | hu
      · obtain ⟨k, hk, hDrawn⟩ := hd.drawn u hu
        exact ⟨k, by omega, hDrawn⟩
      · rw [List.mem_singleton.mp hu]
        exact ⟨m, hHigh, hId⟩
    · rw [ids, hTasks, List.map_append]
      refine List.nodup_append'.mpr ⟨hd.nodup, List.nodup_singleton _, ?_⟩
      exact List.disjoint_singleton.mpr (hd.of_fresh hId hLow)

theorem Reworked.of_quiet (h : d.Quiet d') : Reworked d d' :=
  .within (by rw [ids, h.book, ids]) (Nat.le_of_eq h.nextId.symm)

theorem Reworked.quiet (h : Reworked d d₁) (hQuiet : d₁.Quiet d') : Reworked d d' := by
  cases h with
  | within hIds hNext => exact .within (by rwa [ids, hQuiet.book]) (hQuiet.nextId ▸ hNext)
  | extended t m hTasks hId hLow hHigh hSource =>
    exact .extended t m (by rwa [hQuiet.book]) hId hLow (hQuiet.nextId ▸ hHigh) hSource

theorem Reworked.nextId_le (h : Reworked d d') : d.nextId ≤ d'.nextId := by
  cases h with
  | within _ hNext => exact hNext
  | extended _ m _ _ hLow hHigh _ => omega

theorem Reworked.source_of_added (h : Reworked d d') {t : Task} (ht : t ∈ added d d') : t.source = none := by
  obtain ⟨ht, hNew⟩ := List.mem_filter.mp ht
  rw [decide_eq_true_iff] at hNew
  cases h with
  | within hIds _ => exact absurd (hIds.subset (List.mem_map_of_mem ht)) hNew
  | extended u m hTasks _ _ _ hSource =>
    rw [hTasks] at ht
    rcases List.mem_append.mp ht with ht | ht
    · exact absurd (List.mem_map_of_mem ht) hNew
    · rw [List.mem_singleton.mp ht]
      exact hSource

end Desk

/-! ## Edits -/

namespace Book

variable {b b' : Book} {now : Moment}

theorem ids_changed {id : String} {change : Task → Task} (hChange : ∀ t, t.id = id → (change t).id = id) :
    (b.changed id change).tasks.map (·.id) = b.tasks.map (·.id) := by
  rw [changed, withTasks, List.map_map]
  refine List.map_congr_left fun t _ => ?_
  rw [Function.comp_apply]
  split
  · rename_i hId
    rw [hChange t hId, hId]
  · rfl

theorem ids_without (b : Book) (ids : List String) :
    ((b.without ids).tasks.map (·.id)).Sublist (b.tasks.map (·.id)) :=
  List.filter_sublist.map _

theorem ids_restatused {ids : List String} {status : Status} (h : Operation.Restatuses ids status b b') :
    b'.tasks.map (·.id) = b.tasks.map (·.id) := by
  rw [h.2, withTasks, List.map_map]
  refine List.map_congr_left fun t _ => ?_
  rw [Function.comp_apply]
  split <;> rfl

theorem id_of_fired {t t' : Task} {due : Bool} (h : t.fired now = .ok (t', due)) : t'.id = t.id := by
  obtain ⟨any, _, h⟩ := Attempt.bind_eq_ok.mp h
  cases any with
  | false =>
    cases Attempt.pure_eq_ok.mp h
    rfl
  | true =>
    obtain ⟨_, _, h⟩ := Attempt.bind_eq_ok.mp h
    cases Attempt.pure_eq_ok.mp h
    rfl

theorem ids_of_fired {ts : List Task} {visited : List (Task × Bool)}
    (h : List.Forall₂ (fun t p => t.fired now = .ok p) ts visited) :
    (visited.map (·.1)).map (·.id) = ts.map (·.id) := by
  induction h with
  | nil => rfl
  | cons hHead _ ih => rw [List.map_cons, List.map_cons, List.map_cons, ih, id_of_fired hHead]

theorem ids_fireDue {fired : List Task} (h : b.fireDue now = .ok (some b', fired)) :
    b'.tasks.map (·.id) = b.tasks.map (·.id) := by
  obtain ⟨visited, hVisited, h⟩ := Attempt.bind_eq_ok.mp h
  obtain ⟨hBook, _⟩ := Prod.mk.inj (Attempt.pure_eq_ok.mp h)
  split at hBook
  · cases hBook
  · cases hBook
    exact ids_of_fired (Attempt.mapM_eq_ok.mp hVisited)

end Book

namespace Operation

variable {op : Operation} {d d' d₁ : Desk} {x : String}

theorem reworked_of_edited (h : op.Edited d d') : d.Reworked d' := by
  cases h with
  | kept hBook _ hNext => exact .within (by rw [Desk.ids, hBook]; exact .refl _) hNext
  | made b hMakes hBook _ =>
    have hSame : b.tasks.map (·.id) = d.book.tasks.map (·.id) → d'.ids.Sublist d.ids := by
      intro hIds
      rw [Desk.ids, hBook, Desk.ids, ← hIds]
    have hFewer : ∀ ids, b = d.book.without ids → d'.ids.Sublist d.ids := by
      intro ids hWithout
      rw [Desk.ids, hBook, hWithout]
      exact Book.ids_without d.book ids
    cases op with
    | submit m text now =>
      obtain ⟨c, e, _, hReplaced, hEffect⟩ := hMakes
      have hNext := Command.rises_effect _ _ _ _ _ hEffect
      cases (Command.outcome_of_effect hEffect).1 with
      | idle _ hNone => cases hNone.symm.trans hReplaced
      | added t m _ hSource hId hLow hHigh _ hAdded =>
        cases hAdded.symm.trans hReplaced
        exact .extended t m (by rw [hBook]) hId hLow hHigh hSource
      | removed _ _ hWithout => exact .within (hFewer _ (Option.some.inj (hReplaced.symm.trans hWithout))) hNext
      | edited ts _ _ hTouched hEdited =>
        cases hEdited.symm.trans hReplaced
        exact .within (hSame (Command.ids_of_touched hTouched)) hNext
      | founded _ _ _ hFounded =>
        cases hFounded.symm.trans hReplaced
        exact .within (hSame rfl) hNext
    | toggle id now =>
      obtain ⟨_, rfl, hNext⟩ := hMakes
      exact .within (hSame (Book.ids_changed fun _ hId => hId)) (Nat.le_of_eq hNext.symm)
    | update id fields now =>
      obtain ⟨t, new, _, hNew, rfl⟩ := hMakes
      obtain ⟨hId, hNext⟩ := id_of_overwritten hNew
      exact .within (hSame (Book.ids_changed fun _ _ => hId)) hNext
    | delete id =>
      obtain ⟨_, hWithout, hNext⟩ := hMakes
      exact .within (hFewer _ hWithout) (Nat.le_of_eq hNext.symm)
    | deleteAll ids => exact .within (hFewer _ hMakes.1) (Nat.le_of_eq hMakes.2.symm)
    | completeAll ids now => exact .within (hSame (Book.ids_restatused hMakes.1)) (Nat.le_of_eq hMakes.2.symm)
    | archiveAll ids now => exact .within (hSame (Book.ids_restatused hMakes.1)) (Nat.le_of_eq hMakes.2.symm)
    | sweep now => cases hMakes
    | remind m now tick forced =>
      obtain ⟨⟨fired, hFired⟩, hNext⟩ := hMakes
      exact .within (hSame (Book.ids_fireDue hFired)) (Nat.le_of_eq hNext.symm)

end Operation

/-! ## Sweeps -/

namespace Desk

variable {d d' : Desk} {new : List Task} {now : Moment} {x : String}

theorem Drawn.ne_empty (hd : d.Drawn) : ∀ t ∈ d.book.tasks, t.id ≠ "" := by
  intro t ht
  obtain ⟨m, _, hId⟩ := hd.drawn t ht
  rw [hId]
  exact freshId_ne_empty m

theorem Drawn.renewedBy (hd : d.Drawn) (hSweep : Task.renewals d.book.tasks now d.nextId = .ok (new, d'.nextId))
    (hBook : d'.book = d.book.renewedBy new) : d'.Drawn := by
  have hNew := Task.occurrences_of_renewals hSweep
  have hCounter := hNew.counter
  constructor
  · rw [hBook, Book.tasks_renewedBy]
    intro t ht
    rcases List.mem_append.mp ht with ht | ht
    · obtain ⟨m, hm, hId⟩ := hd.drawn t ht
      exact ⟨m, by omega, hId⟩
    · obtain ⟨m, _, hm, hId⟩ := hNew.drawn t ht
      exact ⟨m, hm, hId⟩
  · rw [ids, hBook, Book.tasks_renewedBy, List.map_append]
    refine List.nodup_append'.mpr ⟨hd.nodup, hNew.nodup, ?_⟩
    intro id hOld hMem
    obtain ⟨t, ht, rfl⟩ := List.mem_map.mp hMem
    obtain ⟨m, hm, _, hId⟩ := hNew.drawn t ht
    exact hd.of_fresh hId hm hOld

end Desk

/-! ## Runs -/

namespace Operation

variable {op : Operation} {d d' : Desk}

theorem drawn_of_ended {r : Except Fault Unit} (hd : d.Drawn) (h : op.Ended d r d') : d'.Drawn := by
  cases h with
  | refused hQuiet => exact (Desk.Reworked.of_quiet hQuiet).drawn hd
  | unrenewed _ _ hEdited _ => exact (reworked_of_edited hEdited).drawn hd
  | edited hEdited hQuiet => exact ((reworked_of_edited hEdited).quiet hQuiet).drawn hd
  | renewed _ _ _ hEdited hSweep hBook => exact ((reworked_of_edited hEdited).drawn hd).renewedBy hSweep hBook

theorem drawn_of_run (ops : List Operation) (hd : d.Drawn) : (run ops d).Drawn := by
  induction ops generalizing d with
  | nil => exact hd
  | cons op ops ih => exact ih (drawn_of_ended hd (op.ended d))

theorem drawn_empty : Desk.Drawn {} :=
  ⟨by rintro t ⟨⟩, .nil⟩

end Operation

end Agenda
