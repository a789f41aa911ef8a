import Agenda.Proofs.Alert.Firing
import Agenda.Proofs.Command.Alteration
import Agenda.Proofs.Desk.Source
import Agenda.Proofs.Task.Course

/-! # Where the tasks on a desk come from

After an operation, a task was there before and is what the operation made of it, or it was brought
by a command, or it is the next occurrence of one of these.
-/

namespace Agenda

namespace Operation

/-- What an operation makes of a task that it does not leave as it is. -/
def Turns (d : Desk) (t t' : Task) : Operation → Prop
  | submit m text now => ∃ c, Understood m text now d c ∧ c.AltersAmong now d.book.tasks t t'
  | toggle _ _ | completeAll _ _ | archiveAll _ _ => ∃ status, t' = t.withStatus status
  | update id fields now => t.id = id ∧ ∃ n n', Desk.overwritten t fields id now n = .ok (t', n')
  | delete _ | deleteAll _ | sweep _ => False
  | remind _ now _ _ => t' = t.rung now

/-- A new task of an operation, and the projects that there are then. -/
def Brings (d : Desk) (t : Task) (projects : List String) : Operation → Prop
  | submit m text now => ∃ c n n', Understood m text now d c ∧ c.newTask now n = .ok (t, n') ∧
      projects = Command.withProject d.book.projects t.project
  | _ => False

/-- Where a task comes from that is on the desk after an operation. -/
inductive Comes (op : Operation) (d : Desk) (projects : List String) : Task → Prop where
  | kept {t : Task} (ht : t ∈ d.book.tasks) : Comes op d projects t
  | turned {t t' : Task} (ht : t ∈ d.book.tasks) (hId : t'.id = t.id) (hTurns : op.Turns d t t') :
      Comes op d projects t'
  | brought {t : Task} (hNew : t.id ∉ d.ids) (hSource : t.source = none) (hBrings : op.Brings d t projects) :
      Comes op d projects t
  | renewed {t t' : Task} (h : Comes op d projects t) (hNew : t'.id ∉ d.ids) (hRenews : t.Renews t') :
      Comes op d projects t'

variable {op : Operation} {d d' d₁ : Desk} {t t' : Task} {projects : List String}

theorem comes_of_reshapes {m : Means} {text : String} {now : Moment} {c : Command} {p : Preferences} {b : Book}
    {next : Nat} (hd : d.Drawn) (hUnderstood : Understood m text now d c)
    (h : c.Reshapes { book := d.book, preferences := p, now } d.nextId b next) (ht : t ∈ b.tasks) :
    (submit m text now).Comes d b.projects t := by
  cases h with
  | added new hNew hBook =>
    rw [hBook] at ht
    rcases List.mem_append.mp ht with ht | ht
    · exact .kept ht
    · rw [List.mem_singleton] at ht
      subst ht
      obtain ⟨k, hId, hLow, _, hSource, _⟩ := Command.of_newTask hNew
      refine .brought (hd.of_fresh hId hLow) hSource ⟨c, _, _, hUnderstood, hNew, ?_⟩
      rw [hBook]
  | removed ids hBook =>
    rw [hBook] at ht
    exact .kept (List.mem_filter.mp ht).1
  | altered ts hTasks hBook =>
    rw [hBook] at ht
    obtain ⟨old, hOld, hAlters⟩ := Attempt.exists_of_mem_paired hTasks ht
    exact .turned hOld hAlters.1.id ⟨c, hUnderstood, hAlters⟩
  | founded name _ hBook =>
    rw [hBook] at ht
    exact .kept ht

theorem comes_of_changed {id : String} {change : Task → Task}
    (hChange : ∀ u ∈ d.book.tasks, u.id = id → (change u).id = u.id ∧ op.Turns d u (change u))
    (ht : t ∈ (d.book.changed id change).tasks) : op.Comes d projects t := by
  obtain ⟨old, hOld, rfl⟩ := List.mem_map.mp ht
  split
  · rename_i hId
    exact .turned hOld (hChange old hOld hId).1 (hChange old hOld hId).2
  · exact .kept hOld

theorem comes_of_restatused {ids : List String} {status : Status} {b : Book}
    (hTurns : ∀ u, op.Turns d u (u.withStatus status)) (h : Restatuses ids status d.book b) (ht : t ∈ b.tasks) :
    op.Comes d projects t := by
  rw [h.2] at ht
  obtain ⟨old, hOld, rfl⟩ := List.mem_map.mp ht
  split
  · exact .turned hOld rfl (hTurns old)
  · exact .kept hOld

theorem comes_of_edited (hd : d.Drawn) (h : op.Edited d d') (ht : t ∈ d'.book.tasks) :
    op.Comes d d'.book.projects t := by
  cases h with
  | kept hBook _ _ =>
    rw [hBook] at ht
    exact .kept ht
  | made b hMakes hBook _ =>
    have hProjects : d'.book.projects = b.projects := by rw [hBook]
    replace ht : t ∈ b.tasks := by rwa [hBook] at ht
    rw [hProjects]
    cases op with
    | submit m text now =>
      obtain ⟨c, e, hUnderstood, hReplaced, hEffect⟩ := hMakes
      exact comes_of_reshapes hd hUnderstood (Command.reshapes_of_effect hEffect hReplaced) ht
    | toggle id now =>
      obtain ⟨_, rfl, _⟩ := hMakes
      refine comes_of_changed ?_ ht
      intro u _ _
      exact ⟨rfl, _, rfl⟩
    | update id fields now =>
      obtain ⟨found, new, hFind, hNew, rfl⟩ := hMakes
      refine comes_of_changed ?_ ht
      intro u hu hId
      -- The updated task is the only one with its identity.
      obtain ⟨hFound, hSame⟩ := Book.mem_of_find hFind
      obtain rfl := hd.unique hu hFound (hId.trans hSame.symm)
      exact ⟨(id_of_overwritten hNew).1.trans hId.symm, hId, _, _, hNew⟩
    | delete id =>
      rw [hMakes.2.1] at ht
      exact .kept (List.mem_filter.mp ht).1
    | deleteAll ids =>
      rw [hMakes.1] at ht
      exact .kept (List.mem_filter.mp ht).1
    | completeAll ids now | archiveAll ids now => exact comes_of_restatused (fun u => ⟨_, rfl⟩) hMakes.1 ht
    | sweep now => cases hMakes
    | remind m now tick forced =>
      obtain ⟨⟨fired, hFired⟩, _⟩ := hMakes
      have hOut := (Prod.mk.inj (Book.fireDue_eq_ok.mp hFired).2).1
      split at hOut <;> cases hOut
      obtain ⟨old, hOld, rfl⟩ := List.mem_map.mp ht
      exact .turned hOld rfl rfl

theorem projects_renewedBy (b : Book) (new : List Task) : (b.renewedBy new).projects = b.projects := by
  unfold Book.renewedBy
  split <;> rfl

theorem comes_of_ended {r : Except Fault Unit} (hd : d.Drawn) (h : op.Ended d r d') (ht : t ∈ d'.book.tasks) :
    op.Comes d d'.book.projects t := by
  cases h with
  | refused hQuiet =>
    rw [hQuiet.book] at ht
    exact .kept ht
  | unrenewed _ _ hEdited _ => exact comes_of_edited hd hEdited ht
  | edited hEdited hQuiet =>
    rw [hQuiet.book] at ht ⊢
    exact comes_of_edited hd hEdited ht
  | renewed now new _ hEdited hSweep hBook =>
    rw [hBook, projects_renewedBy]
    rw [hBook, Book.tasks_renewedBy] at ht
    rcases List.mem_append.mp ht with ht | ht
    · exact comes_of_edited hd hEdited ht
    · obtain ⟨m, hLow, _, hId⟩ := (Task.occurrences_of_renewals hSweep).drawn t ht
      obtain ⟨old, hOld, hRenews⟩ := Task.renews_of_renewals hSweep ht
      have hLater := (reworked_of_edited hEdited).nextId_le
      exact .renewed (comes_of_edited hd hEdited hOld) (hd.of_fresh hId (Nat.le_trans hLater hLow)) hRenews

/-- What every task on the desk has, the tasks have that come from an operation, if the operation
passes it on, new tasks have it, and next occurrences take it over. -/
theorem forall_of_ended {P : Task → Prop} {r : Except Fault Unit} (hd : d.Drawn) (h : op.Ended d r d')
    (hTurns : ∀ t t', t ∈ d.book.tasks → P t → op.Turns d t t' → P t')
    (hBrings : ∀ t, op.Brings d t d'.book.projects → P t) (hRenews : ∀ t t' : Task, P t → t.Renews t' → P t')
    (hAll : ∀ t ∈ d.book.tasks, P t) : ∀ t ∈ d'.book.tasks, P t := by
  intro t ht
  have hComes := comes_of_ended hd h ht
  clear ht
  induction hComes with
  | kept ht => exact hAll _ ht
  | turned ht _ hTurned => exact hTurns _ _ ht (hAll _ ht) hTurned
  | brought _ _ hBrought => exact hBrings _ hBrought
  | renewed _ _ hRenewed ih => exact hRenews _ _ ih hRenewed

/-- A task that stays on the desk is left as it is or what the operation makes of it. -/
theorem turns_of_ended {r : Except Fault Unit} (hd : d.Drawn) (h : op.Ended d r d') (ht : t ∈ d.book.tasks)
    (ht' : t' ∈ d'.book.tasks) (hId : t'.id = t.id) : t' = t ∨ op.Turns d t t' := by
  have hOld : t'.id ∈ d.ids := hId ▸ List.mem_map_of_mem ht
  cases comes_of_ended hd h ht' with
  | kept hu => exact .inl (hd.unique hu ht hId)
  | turned hu huId hTurns =>
    obtain rfl := hd.unique hu ht (huId.symm.trans hId)
    exact .inr hTurns
  | brought hNew | renewed _ hNew => exact absurd hOld hNew

end Operation

end Agenda
