import Agenda.Proofs.Desk.Course

/-! # Projects on a desk

No name is listed twice, and a command that adds a task lists its project. An update does not: it
can give a task a project that is not listed, and nothing else can.
-/

namespace Agenda

namespace Entries

theorem get?_merge_of_mem {es fields : Entries} {key : String} {v : Value}
    (hNodup : (fields.map (·.1)).Nodup) (h : (key, v) ∈ fields) : (es.merge fields).get? key = some v := by
  induction fields generalizing es with
  | nil => cases h
  | cons p fields ih =>
    rw [List.map_cons, List.nodup_cons] at hNodup
    change ((es.insert p.1 p.2).merge fields).get? key = some v
    rcases List.mem_cons.mp h with rfl | h
    · have hNot : ∀ q ∈ fields, q.1 ≠ key := by
        intro q hq hKey
        have hMem : q.1 ∈ fields.map (·.1) := List.mem_map_of_mem hq
        exact hNodup.1 (hKey ▸ hMem)
      rw [get?_merge_of_notMem hNot, get?_insert, if_pos rfl]
    · exact ih hNodup.2 h

end Entries

namespace Task

theorem project_of_named {t new : Task} {fields : Entries} {id p : String} {now : Moment} {n n' : Nat}
    (hNodup : (fields.map (·.1)).Nodup) (hNamed : ("project", .str p) ∈ fields)
    (h : Desk.overwritten t fields id now n = .ok (new, n')) : new.project = some p := by
  have hProject := (decodeEntries_eq_ok.mp (decode_of_overwritten h)).project
  have hField : ((Entries.merge t.fields fields).insert "id" (.str id)).get? "project" = some (.str p) := by
    rw [Entries.get?_insert, if_neg (by decide), Entries.get?_merge_of_mem hNodup hNamed]
  have hNew : Value.decodeOption Value.decodeStr (.str p) = .ok new.project :=
    Value.decode_of_withDefault hField hProject
  exact (Decoded.ok.inj hNew).symm

end Task

namespace Operation

variable {op : Operation} {d d' : Desk} {p : String}

/-- The list of projects stays as it is or is extended by a new name. -/
def Extends (projects projects' : List String) : Prop :=
  projects' = projects ∨ ∃ name, name ∉ projects ∧ projects' = projects ++ [name]

theorem extends_withProject (projects : List String) (project : Option String) :
    Extends projects (Command.withProject projects project) := by
  unfold Command.withProject
  split
  · rename_i name
    split
    · exact .inl rfl
    · rename_i hNew
      rw [Bool.or_eq_true, not_or, List.contains_iff_mem] at hNew
      exact .inr ⟨name, hNew.2, rfl⟩
  · exact .inl rfl

theorem mem_withProject {projects : List String} (h : p ≠ "") : p ∈ Command.withProject projects (some p) := by
  unfold Command.withProject
  dsimp only
  split
  · rename_i hOld
    rw [Bool.or_eq_true, decide_eq_true_iff, List.contains_iff_mem] at hOld
    exact hOld.resolve_left h
  · exact List.mem_append_right _ (List.mem_singleton_self p)

theorem extends_of_edited (h : op.Edited d d') : Extends d.book.projects d'.book.projects := by
  cases h with
  | kept hBook _ _ =>
    rw [hBook]
    exact .inl rfl
  | made b hMakes hBook _ =>
    have hProjects : d'.book.projects = b.projects := by rw [hBook]
    rw [hProjects]
    cases op with
    | submit m text now =>
      obtain ⟨c, e, _, hReplaced, hEffect⟩ := hMakes
      cases Command.reshapes_of_effect hEffect hReplaced with
      | added t _ hShape => exact hShape ▸ extends_withProject _ _
      | removed _ hShape | altered _ _ hShape => exact hShape ▸ .inl rfl
      | founded name hNew hShape => exact hShape ▸ .inr ⟨name, hNew, rfl⟩
    | toggle id now =>
      obtain ⟨_, rfl, _⟩ := hMakes
      exact .inl rfl
    | update id fields now =>
      obtain ⟨_, _, _, _, rfl⟩ := hMakes
      exact .inl rfl
    | delete id => exact hMakes.2.1 ▸ .inl rfl
    | deleteAll ids => exact hMakes.1 ▸ .inl rfl
    | completeAll ids now | archiveAll ids now => exact hMakes.1.2 ▸ .inl rfl
    | sweep now => cases hMakes
    | remind m now tick forced =>
      obtain ⟨⟨fired, hFired⟩, _⟩ := hMakes
      have hOut := (Prod.mk.inj (Book.fireDue_eq_ok.mp hFired).2).1
      split at hOut <;> cases hOut
      exact .inl rfl

theorem extends_of_ended {r : Except Fault Unit} (h : op.Ended d r d') :
    Extends d.book.projects d'.book.projects := by
  cases h with
  | refused hQuiet => exact .inl (congrArg Book.projects hQuiet.book)
  | unrenewed _ _ hEdited _ => exact extends_of_edited hEdited
  | edited hEdited hQuiet =>
    rw [hQuiet.book]
    exact extends_of_edited hEdited
  | renewed _ _ _ hEdited _ hBook =>
    rw [hBook, projects_renewedBy]
    exact extends_of_edited hEdited

theorem Extends.nodup {projects projects' : List String} (h : Extends projects projects') (hNodup : projects.Nodup) :
    projects'.Nodup := by
  rcases h with rfl | ⟨name, hNew, rfl⟩
  · exact hNodup
  · exact List.nodup_append'.mpr ⟨hNodup, List.nodup_singleton name, List.disjoint_singleton.mpr hNew⟩

theorem Extends.subset {projects projects' : List String} (h : Extends projects projects') :
    projects ⊆ projects' := by
  rcases h with rfl | ⟨_, _, rfl⟩
  · exact List.Subset.refl _
  · exact List.subset_append_left _ _

/-- An update that names a project for a task. -/
def Assigns (p : String) : Operation → Prop
  | update _ fields _ => ("project", .str p) ∈ fields
  | _ => False

/-- A task's project is listed, or some operation assigns it. -/
def Accounted (ops : List Operation) (projects : List String) (t : Task) : Prop :=
  ∀ p, t.project = some p → p ≠ "" → p ∈ projects ∨ ∃ op ∈ ops, op.Assigns p

theorem accounted_of_turns {ops : List Operation} {projects : List String} {t t' : Task} (hOp : op ∈ ops)
    (h : Accounted ops projects t) (hTurns : op.Turns d t t') : Accounted ops projects t' := by
  have hSame (hProject : t'.project = t.project) : Accounted ops projects t' := by
    intro p hp
    exact h p (hProject.symm.trans hp)
  cases op with
  | submit m text now =>
    obtain ⟨c, _, hAlters, _⟩ := hTurns
    exact hSame hAlters.project
  | toggle | completeAll | archiveAll =>
    obtain ⟨status, rfl⟩ := hTurns
    exact hSame rfl
  | update id fields now =>
    obtain ⟨_, n, n', hNew⟩ := hTurns
    rcases Task.project_of_overwritten hNew with hProject | hNamed
    · exact hSame hProject
    · intro p hp _
      rw [hp] at hNamed
      exact .inr ⟨_, hOp, hNamed⟩
  | delete | deleteAll | sweep => cases hTurns
  | remind m now tick forced =>
    obtain rfl : t' = t.rung now := hTurns
    exact hSame rfl

theorem accounted_of_ended {ops : List Operation} {r : Except Fault Unit} (hOp : op ∈ ops) (hd : d.Drawn)
    (h : op.Ended d r d') (hAll : ∀ t ∈ d.book.tasks, Accounted ops d.book.projects t) :
    ∀ t ∈ d'.book.tasks, Accounted ops d'.book.projects t := by
  refine forall_of_ended hd h (fun t t' _ => accounted_of_turns hOp) ?brought ?renewed ?before
  case brought =>
    intro t hBrings p hp hName
    cases op with
    | submit m text now =>
      obtain ⟨c, n, n', _, _, hProjects⟩ := hBrings
      rw [hProjects, hp]
      exact .inl (mem_withProject hName)
    | _ => cases hBrings
  case renewed =>
    rintro t t' hAccounted ⟨_, _, _, _, _, hFollows⟩ p hp
    exact hAccounted p (hFollows.project.symm.trans hp)
  case before =>
    intro t ht p hp hName
    exact (hAll t ht p hp hName).imp_left fun hListed => (extends_of_ended h).subset hListed

theorem accounted_of_run {ops ops' : List Operation} (hOps : ops' ⊆ ops) (hd : d.Drawn)
    (hNodup : d.book.projects.Nodup) (hAll : ∀ t ∈ d.book.tasks, Accounted ops d.book.projects t) :
    (run ops' d).book.projects.Nodup ∧
      ∀ t ∈ (run ops' d).book.tasks, Accounted ops (run ops' d).book.projects t := by
  induction ops' generalizing d with
  | nil => exact ⟨hNodup, hAll⟩
  | cons op ops' ih =>
    have hEnded := op.ended d
    exact ih (List.subset_of_cons_subset hOps) (drawn_of_ended hd hEnded) ((extends_of_ended hEnded).nodup hNodup)
      (accounted_of_ended (hOps List.mem_cons_self) hd hEnded hAll)

/-! ## Updates -/

theorem of_update {id : String} {fields : Entries} {now : Moment} {t : Task}
    (h : (Desk.update id fields now).after d = (.ok t, d')) :
    ∃ old next, Desk.overwritten old fields id now d.nextId = .ok (t, next) ∧ t ∈ d'.book.tasks ∧
      d'.book.projects = d.book.projects := by
  rcases after_update_eq.mp h with ⟨_, _, hError, _⟩ | ⟨old, hFind, ⟨_, _, hError, _⟩ | ⟨new, next, hNew, h⟩⟩
  · cases hError
  · cases hError
  · obtain ⟨hMem, _⟩ := Book.mem_of_find (Book.find_changed (id_of_overwritten hNew).1 ⟨old, hFind⟩)
    rcases OnDesk.after_bind_eq.mp h with ⟨_, _, hError⟩ | ⟨n, d₂, hSweep, h⟩
    · cases hError
    · obtain ⟨hSame, rfl⟩ := Prod.mk.inj (show (Except.ok new, d₂) = (.ok t, d') from h)
      cases hSame
      rcases sweep_cases hSweep with ⟨_, _, hError, _⟩ | ⟨renewed, _, _, hBook⟩
      · cases hError
      · refine ⟨old, next, hNew, ?_, ?_⟩
        · rw [hBook, Book.tasks_renewedBy]
          exact List.mem_append_left _ hMem
        · rw [hBook, projects_renewedBy]
          rfl

/-- Whatever is done on an empty desk, no project is listed twice, and the project of a task is
listed or an update has assigned it. An update that assigns one does not list it. -/
theorem projects_listed_or_assigned (ops : List Operation) :
    (run ops {}).book.projects.Nodup ∧
      (∀ t ∈ (run ops {}).book.tasks, ∀ p, t.project = some p → p ≠ "" →
        p ∈ (run ops {}).book.projects ∨ ∃ op ∈ ops, op.Assigns p) ∧
      ∀ d id fields now t d' p, (Desk.update id fields now).after d = (.ok t, d') →
        (fields.map (·.1)).Nodup → ("project", .str p) ∈ fields →
        t ∈ d'.book.tasks ∧ t.project = some p ∧ d'.book.projects = d.book.projects := by
  obtain ⟨hNodup, hAccounted⟩ := @accounted_of_run {} ops ops (List.Subset.refl ops) drawn_empty .nil (by simp)
  refine ⟨hNodup, hAccounted, ?_⟩
  intro d id fields now t d' p h hKeys hNamed
  obtain ⟨old, next, hNew, hMem, hProjects⟩ := of_update h
  exact ⟨hMem, Task.project_of_named hKeys hNamed hNew, hProjects⟩

/-- All operations of a run succeed. -/
def succeeds : List Operation → Desk → Bool
  | [], _ => true
  | op :: ops, d => (op.work.after d).1.toBool && succeeds ops (op.next d)

/-- A call to Ann is added and then assigned to the garden, a project that is not there. -/
def gardenCall : List Operation :=
  [.submit silent "add call ann #home" noon, .update (freshId 0) [("project", .str "Garden")] noon]

theorem garden_assigned : ∃ (t : Task) (d' : Desk), t ∈ d'.book.tasks ∧ t.project = some "Garden" ∧
    d'.book.projects = [] := by
  have hSucceeds : ((Desk.update (freshId 0) [("project", .str "Garden")] noon).after
      (run (gardenCall.take 1) {})).1.toBool = true := by decide +kernel
  have hNone : (run (gardenCall.take 1) {}).book.projects = [] := by decide +kernel
  cases hAfter : (Desk.update (freshId 0) [("project", .str "Garden")] noon).after (run (gardenCall.take 1) {}) with
  | mk r d' =>
    rw [hAfter] at hSucceeds
    cases r with
    | error f => cases hSucceeds
    | ok t =>
      obtain ⟨ht, hProject, hProjects⟩ := (projects_listed_or_assigned gardenCall).2.2 _ _ _ _ t d' "Garden" hAfter
        (by decide) (by simp)
      exact ⟨t, d', ht, hProject, hProjects.trans hNone⟩

theorem garden_not_listed : ¬ ∀ ops, succeeds ops {} = true → ∀ t ∈ (run ops {}).book.tasks, ∀ p,
    t.project = some p → p ≠ "" → p ∈ (run ops {}).book.projects := by
  intro h
  have hSucceeds : succeeds gardenCall {} = true := by decide +kernel
  have hAssigned : ∃ t ∈ (run gardenCall {}).book.tasks, t.project = some "Garden" := by decide +kernel
  have hNone : (run gardenCall {}).book.projects = [] := by decide +kernel
  obtain ⟨t, ht, hProject⟩ := hAssigned
  have hListed := h gardenCall hSucceeds t ht "Garden" hProject (by decide)
  rw [hNone] at hListed
  cases hListed

end Operation

end Agenda
