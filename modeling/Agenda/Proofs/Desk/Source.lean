import Agenda.Proofs.Desk.Identity
import Agenda.Proofs.Value.Entries
import Agenda.Web.Fields

/-! # Sources on a desk

A task that was renewed is named by one task only, whatever is asked of the desk afterwards: no edit
gives a task another source, and a sweep names only tasks that are not named yet. An update could
rename a source if its fields contained one; the fields that a request can change do not.
-/

namespace Agenda

namespace Task

variable {t t' new : Task} {now : Moment} {n n' : Nat}

theorem source_of_decodeEntries {es : Entries} {source : Option String}
    (hSource : es.get? "recurrence_source_id" = some (.ofStr? source)) (h : decodeEntries now n es = .ok t) :
    t.source = source := by
  have hField := Value.decode_of_withDefault hSource (decodeEntries_eq_ok.mp h).source
  cases source <;> exact (Decoded.ok.inj hField).symm

theorem source_of_overwritten {fields : Entries} {id : String}
    (hFields : ∀ p ∈ fields, p.1 ≠ "recurrence_source_id")
    (h : Desk.overwritten t fields id now n = .ok (new, n')) : new.source = t.source := by
  unfold Desk.overwritten at h
  extract_lets es at h
  have hSource : es.get? "recurrence_source_id" = some (.ofStr? t.source) := by
    rw [Entries.get?_insert, if_neg (by decide), Entries.get?_merge_of_notMem hFields]
    rfl
  cases hDecoded : Task.decodeEntries now n es with
  | bad errors =>
    simp only [hDecoded] at h
    cases h
  | ok decoded =>
    simp only [hDecoded] at h
    cases h
    exact source_of_decodeEntries hSource hDecoded

theorem source_of_fired {due : Bool} (h : t.fired now = .ok (t', due)) : t'.source = t.source := by
  obtain ⟨any, _, h⟩ := Attempt.bind_eq_ok.mp h
  cases any with
  | false =>
    cases Attempt.pure_eq_ok.mp h
    rfl
  | true =>
    obtain ⟨_, _, h⟩ := Attempt.bind_eq_ok.mp h
    cases Attempt.pure_eq_ok.mp h
    rfl

end Task

theorem Command.sources_of_touched {affected : List String} {ts ts' : List Task}
    (h : List.Forall₂ (Command.Touched affected) ts ts') : ts'.map (·.source) = ts.map (·.source) := by
  induction h with
  | nil => rfl
  | cons hHead _ ih => rw [List.map_cons, List.map_cons, ih, hHead.1.source]

/-! ## Edits -/

namespace Book

variable {b b' : Book} {now : Moment}

/-- The sources that tasks name, in the order of the tasks. -/
def sources (b : Book) : List String :=
  b.tasks.filterMap (·.source)

theorem sources_eq (b : Book) : b.sources = (b.tasks.map (·.source)).filterMap id := by
  rw [sources, List.filterMap_map]
  rfl

theorem sources_changed {id : String} {change : Task → Task}
    (hChange : ∀ t ∈ b.tasks, t.id = id → (change t).source = t.source) :
    (b.changed id change).sources = b.sources := by
  rw [sources_eq, sources_eq, changed, withTasks, List.map_map]
  congr 1
  apply List.map_congr_left
  intro t ht
  rw [Function.comp_apply]
  split
  · rename_i hId
    exact hChange t ht hId
  · rfl

theorem sources_without (b : Book) (ids : List String) : (b.without ids).sources.Sublist b.sources :=
  List.filter_sublist.filterMap _

theorem sources_restatused {ids : List String} {status : Status} (h : Operation.Restatuses ids status b b') :
    b'.sources = b.sources := by
  rw [sources_eq, sources_eq, h.2, withTasks, List.map_map]
  congr 1
  apply List.map_congr_left
  intro t _
  rw [Function.comp_apply]
  split <;> rfl

theorem sources_of_fired {ts : List Task} {visited : List (Task × Bool)}
    (h : List.Forall₂ (fun t p => t.fired now = .ok p) ts visited) :
    (visited.map (·.1)).map (·.source) = ts.map (·.source) := by
  induction h with
  | nil => rfl
  | cons hHead _ ih => rw [List.map_cons, List.map_cons, List.map_cons, ih, Task.source_of_fired hHead]

theorem sources_fireDue {fired : List Task} (h : b.fireDue now = .ok (some b', fired)) :
    b'.sources = b.sources := by
  obtain ⟨visited, hVisited, h⟩ := Attempt.bind_eq_ok.mp h
  obtain ⟨hBook, _⟩ := Prod.mk.inj (Attempt.pure_eq_ok.mp h)
  split at hBook
  · cases hBook
  · cases hBook
    rw [sources_eq, sources_eq, withTasks, sources_of_fired (Attempt.mapM_eq_ok.mp hVisited)]

end Book

namespace Operation

/-- An update names only fields that a request can change. -/
def Patches : Operation → Prop
  | update _ fields _ => ∀ p ∈ fields, p.1 ∈ Web.updateKinds.map (·.1)
  | _ => True

variable {op : Operation} {d d' : Desk}

theorem sources_of_outcome {c : Command} {s : Setting} {e : Effect} {b : Book} {n n' : Nat}
    (h : Command.Outcome c s n e n') (hBook : e.book = some b) : b.sources.Sublist s.book.sources := by
  cases h with
  | idle _ hNone => cases hNone.symm.trans hBook
  | added t _ _ hSource _ _ _ _ hAdded =>
    cases hAdded.symm.trans hBook
    rw [Book.sources, List.filterMap_append, List.filterMap_cons_none hSource, List.filterMap_nil, List.append_nil]
    exact .refl _
  | removed _ _ hWithout =>
    cases hWithout.symm.trans hBook
    exact Book.sources_without _ _
  | edited ts _ _ hTouched hEdited =>
    cases hEdited.symm.trans hBook
    have hSame := Command.sources_of_touched hTouched
    rw [Book.sources_eq, Book.sources_eq, Book.withTasks, hSame]
  | founded name _ _ hFounded =>
    cases hFounded.symm.trans hBook
    exact .refl _

theorem sources_of_edited (hd : d.Drawn) (hOp : op.Patches) (h : op.Edited d d') :
    d'.book.sources.Sublist d.book.sources := by
  cases h with
  | kept hBook _ _ => rw [hBook]
  | made b hMakes hBook _ =>
    have hSame : d'.book.sources = b.sources := by
      rw [hBook]
      rfl
    rw [hSame]
    cases op with
    | submit m text now =>
      obtain ⟨c, e, _, hReplaced, hEffect⟩ := hMakes
      exact sources_of_outcome (Command.outcome_of_effect hEffect).1 hReplaced
    | toggle id now =>
      obtain ⟨_, rfl, _⟩ := hMakes
      have hKeeps : ∀ t ∈ d.book.tasks, t.id = id → t.toggled.source = t.source := fun _ _ _ => rfl
      rw [Book.sources_changed hKeeps]
    | update id fields now =>
      obtain ⟨t, new, hFind, hNew, rfl⟩ := hMakes
      have hFields : ∀ p ∈ fields, p.1 ≠ "recurrence_source_id" := by
        intro p hp hKey
        have hKnown := hOp p hp
        rw [hKey] at hKnown
        exact absurd hKnown (by decide)
      have hSource := Task.source_of_overwritten hFields hNew
      rw [Book.sources_changed]
      intro u hu hId
      -- The updated task is the only one with its identity.
      obtain ⟨ht, hSameId⟩ := Book.mem_of_find hFind
      rw [hSource, List.inj_on_of_nodup_map hd.nodup hu ht (hId.trans hSameId.symm)]
    | delete id =>
      rw [hMakes.2.1]
      exact Book.sources_without _ _
    | deleteAll ids =>
      rw [hMakes.1]
      exact Book.sources_without _ _
    | completeAll ids now | archiveAll ids now => rw [Book.sources_restatused hMakes.1]
    | sweep now => cases hMakes
    | remind m now tick forced =>
      obtain ⟨fired, hFired⟩ := hMakes.1
      rw [Book.sources_fireDue hFired]

end Operation

/-! ## Sweeps and runs -/

namespace Desk

variable {d d' : Desk} {new : List Task} {now : Moment}

/-- A sweep names the tasks that it renews, and these were not named before. -/
theorem nodup_sources_renewedBy (hd : d.Drawn) (hNodup : d.book.sources.Nodup)
    (hSweep : Task.renewals d.book.tasks now d.nextId = .ok (new, d'.nextId))
    (hBook : d'.book = d.book.renewedBy new) : d'.book.sources.Nodup := by
  have hNamed := (Task.occurrences_of_renewals hSweep).sources
  set kept := (d.book.tasks.filter fun t => !(Task.sources d.book.tasks).contains t.id).filter Task.recurs
  have hNew : new.filterMap (·.source) = kept.map (·.id) := by
    calc new.filterMap (·.source)
        = (new.map (·.source)).filterMap id := by
          rw [List.filterMap_map]
          rfl
      _ = (kept.map (·.id)).filterMap some := by
          rw [hNamed, List.filterMap_map, List.filterMap_map]
          rfl
      _ = kept.map (·.id) := List.filterMap_some
  have hKept : kept.Sublist d.book.tasks := List.filter_sublist.trans List.filter_sublist
  rw [Book.sources, hBook, Book.tasks_renewedBy, List.filterMap_append, hNew]
  refine List.nodup_append'.mpr ⟨hNodup, hd.nodup.sublist (hKept.map _), ?_⟩
  intro x hOld hx
  obtain ⟨t, ht, rfl⟩ := List.mem_map.mp hx
  obtain ⟨u, hu, hSource⟩ := List.mem_filterMap.mp hOld
  have hNot := (List.mem_filter.mp (List.mem_filter.mp ht).1).2
  have hMem := (Task.mem_sources (hd.ne_empty t (hKept.subset ht))).mpr ⟨u, hu, hSource⟩
  simp [hMem] at hNot

end Desk

namespace Operation

variable {op : Operation} {d d' : Desk}

theorem nodup_sources_of_ended {r : Except Fault Unit} (hd : d.Drawn) (hNodup : d.book.sources.Nodup)
    (hOp : op.Patches) (h : op.Ended d r d') : d'.book.sources.Nodup := by
  cases h with
  | refused hQuiet => rwa [hQuiet.book]
  | unrenewed _ _ hEdited _ => exact hNodup.sublist (sources_of_edited hd hOp hEdited)
  | edited hEdited hQuiet =>
    rw [hQuiet.book]
    exact hNodup.sublist (sources_of_edited hd hOp hEdited)
  | renewed _ _ _ hEdited hSweep hBook =>
    have hEditedNodup := hNodup.sublist (sources_of_edited hd hOp hEdited)
    exact Desk.nodup_sources_renewedBy ((reworked_of_edited hEdited).drawn hd) hEditedNodup hSweep hBook

theorem nodup_sources_of_run {ops : List Operation} (hOps : ∀ op ∈ ops, op.Patches) (hd : d.Drawn)
    (hNodup : d.book.sources.Nodup) : (run ops d).book.sources.Nodup := by
  induction ops generalizing d with
  | nil => exact hNodup
  | cons op ops ih =>
    rw [List.forall_mem_cons] at hOps
    have hEnded := op.ended d
    exact ih hOps.2 (drawn_of_ended hd hEnded) (nodup_sources_of_ended hd hNodup hOps.1 hEnded)

end Operation

end Agenda
