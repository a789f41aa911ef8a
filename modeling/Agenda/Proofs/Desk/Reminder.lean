import Agenda.Proofs.Desk.Zone

/-! # Reminders over runs

A reminder keeps its place among the reminders of its task, and there its identity and its time; once
notified, it stays so. A task that has left the desk does not come back, since no identity is drawn
again.
-/

namespace Agenda

theorem getElem?_of_prefix {α : Type} {xs ys : List α} {i : Nat} {a : α} (h : xs <+: ys) (ha : xs[i]? = some a) :
    ys[i]? = some a := by
  obtain ⟨hi, rfl⟩ := List.getElem?_eq_some_iff.mp ha
  exact List.prefix_iff_getElem?.mp h i hi

namespace Reminder

variable {r r' r'' : Reminder}

/-- A later form of the same reminder. -/
structure Persists (r r' : Reminder) : Prop where
  id : r'.id = r.id
  time : r'.time = r.time
  kind : r'.kind = r.kind
  notified : r.notified = true → r'.notified = true

theorem Persists.refl (r : Reminder) : r.Persists r :=
  ⟨rfl, rfl, rfl, fun h => h⟩

theorem Persists.trans (h : r.Persists r') (h' : r'.Persists r'') : r.Persists r'' :=
  ⟨h'.id.trans h.id, h'.time.trans h.time, h'.kind.trans h.kind, h'.notified ∘ h.notified⟩

theorem persists_rung (now : Moment) (r : Reminder) : r.Persists (r.rung now) := by
  unfold rung
  split
  · exact ⟨rfl, rfl, rfl, fun _ => rfl⟩
  · exact .refl r

end Reminder

namespace Task

variable {t t' t'' : Task}

/-- Every reminder of a task persists in its place. -/
def Holds (t t' : Task) : Prop :=
  ∀ (i : Nat) (r : Reminder), t.reminders[i]? = some r → ∃ r', t'.reminders[i]? = some r' ∧ r.Persists r'

theorem holds_of_prefix (h : t.reminders <+: t'.reminders) : t.Holds t' :=
  fun _ r hr => ⟨r, getElem?_of_prefix h hr, .refl r⟩

theorem Holds.refl (t : Task) : t.Holds t :=
  holds_of_prefix (List.prefix_refl _)

theorem Holds.trans (h : t.Holds t') (h' : t'.Holds t'') : t.Holds t'' := by
  intro i r hr
  obtain ⟨r', hr', hPersists⟩ := h i r hr
  obtain ⟨r'', hr'', hPersists'⟩ := h' i r' hr'
  exact ⟨r'', hr'', hPersists.trans hPersists'⟩

theorem holds_rung (now : Moment) (t : Task) : t.Holds (t.rung now) := by
  intro i r hr
  refine ⟨r.rung now, ?_, r.persists_rung now⟩
  rw [rung, List.getElem?_map, hr]
  rfl

end Task

theorem Command.prefix_of_alters {c : Command} {now : Moment} {t t' : Task} (h : c.Alters now t t') :
    t.reminders <+: t'.reminders := by
  cases h with
  | remindedBefore | remindedAt => exact List.prefix_append _ _
  | _ => exact List.prefix_refl _

/-! ## Identities that are gone -/

namespace Desk

variable {d d' : Desk} {new : List Task} {now : Moment} {x : String}

/-- An identity was drawn, and no task on the desk has it any more. -/
structure Gone (x : String) (d : Desk) : Prop where
  drawn : ∃ m < d.nextId, x = freshId m
  absent : x ∉ d.ids

theorem Gone.ne (h : Gone x d) {m : Nat} (hLow : d.nextId ≤ m) : x ≠ freshId m := by
  rintro rfl
  obtain ⟨k, hk, hSame⟩ := h.drawn
  have := freshId_injective hSame
  omega

theorem Gone.later (h : Gone x d) (hNext : d.nextId ≤ d'.nextId) (hAbsent : x ∉ d'.ids) : Gone x d' := by
  obtain ⟨m, hm, hId⟩ := h.drawn
  exact ⟨⟨m, Nat.lt_of_lt_of_le hm hNext, hId⟩, hAbsent⟩

theorem Gone.reworked (h : Gone x d) (hReworked : d.Reworked d') : Gone x d' := by
  refine h.later hReworked.nextId_le ?_
  cases hReworked with
  | within hIds _ => exact fun hMem => h.absent (hIds.subset hMem)
  | extended t m hTasks hId hLow _ _ =>
    rw [ids, hTasks, List.map_append, List.mem_append, not_or, List.map_singleton, List.mem_singleton, hId]
    exact ⟨h.absent, h.ne hLow⟩

theorem Gone.renewedBy (h : Gone x d) (hSweep : Task.renewals d.book.tasks now d.nextId = .ok (new, d'.nextId))
    (hBook : d'.book = d.book.renewedBy new) : Gone x d' := by
  have hNew := Task.occurrences_of_renewals hSweep
  refine h.later hNew.counter ?_
  rw [ids, hBook, Book.tasks_renewedBy, List.map_append, List.mem_append, not_or]
  refine ⟨h.absent, ?_⟩
  intro hMem
  obtain ⟨t, ht, rfl⟩ := List.mem_map.mp hMem
  obtain ⟨m, hLow, _, hId⟩ := hNew.drawn t ht
  exact h.ne hLow hId

end Desk

namespace Operation

variable {op : Operation} {ops : List Operation} {d d' : Desk} {t t' : Task} {x : String}

theorem nextId_le_of_ended {r : Except Fault Unit} (h : op.Ended d r d') : d.nextId ≤ d'.nextId := by
  cases h with
  | refused hQuiet => exact Nat.le_of_eq hQuiet.nextId.symm
  | unrenewed _ _ hEdited _ => exact (reworked_of_edited hEdited).nextId_le
  | edited hEdited hQuiet => exact ((reworked_of_edited hEdited).quiet hQuiet).nextId_le
  | renewed _ _ _ hEdited hSweep _ =>
    exact Nat.le_trans (reworked_of_edited hEdited).nextId_le (Task.occurrences_of_renewals hSweep).counter

theorem gone_of_ended {r : Except Fault Unit} (h : op.Ended d r d') (hGone : d.Gone x) : d'.Gone x := by
  cases h with
  | refused hQuiet => exact hGone.reworked (.of_quiet hQuiet)
  | unrenewed _ _ hEdited _ => exact hGone.reworked (reworked_of_edited hEdited)
  | edited hEdited hQuiet => exact hGone.reworked ((reworked_of_edited hEdited).quiet hQuiet)
  | renewed _ _ _ hEdited hSweep hBook => exact (hGone.reworked (reworked_of_edited hEdited)).renewedBy hSweep hBook

theorem gone_of_run (ops : List Operation) (hGone : d.Gone x) : (run ops d).Gone x := by
  induction ops generalizing d with
  | nil => exact hGone
  | cons op ops ih => exact ih (gone_of_ended (op.ended d) hGone)

/-! ## Runs -/

theorem run_append (front back : List Operation) (d : Desk) : run (front ++ back) d = run back (run front d) := by
  induction front generalizing d with
  | nil => rfl
  | cons op front ih => exact ih (op.next d)

def checks : Operation → Bool
  | remind _ _ _ _ => true
  | _ => false

/-- What relates a task to its later form in every step of a run relates it to its form at the end. -/
theorem related_of_run {R : Task → Task → Prop} (hRefl : ∀ t, R t t) (hTrans : ∀ a b c, R a b → R b c → R a c)
    (hd : d.Drawn) (hSteps : ∀ front op back, ops = front ++ op :: back → ∀ t ∈ (run front d).book.tasks,
      ∀ t' ∈ (op.next (run front d)).book.tasks, t'.id = t.id → R t t')
    (ht : t ∈ d.book.tasks) (ht' : t' ∈ (run ops d).book.tasks) (hId : t'.id = t.id) : R t t' := by
  induction ops generalizing d t with
  | nil =>
    obtain rfl := hd.unique ht' ht hId
    exact hRefl t'
  | cons op ops ih =>
    have hEnded := op.ended d
    by_cases hStays : t.id ∈ (op.next d).ids
    · obtain ⟨t₁, ht₁, hId₁⟩ := List.mem_map.mp hStays
      have hFirst := hSteps [] op ops rfl t ht t₁ ht₁ hId₁
      refine hTrans _ _ _ hFirst (ih (drawn_of_ended hd hEnded) ?_ ht₁ ht' (hId.trans hId₁.symm))
      intro front op' back hSplit
      exact hSteps (op :: front) op' back (congrArg (List.cons op) hSplit)
    · -- A task that is gone does not come back, so it cannot be there at the end.
      have hGone : (op.next d).Gone t.id := by
        obtain ⟨m, hm, hDrawn⟩ := hd.drawn t ht
        exact ⟨⟨m, Nat.lt_of_lt_of_le hm (nextId_le_of_ended hEnded), hDrawn⟩, hStays⟩
      exact absurd (hId ▸ List.mem_map_of_mem ht') (gone_of_run ops hGone).absent

theorem prefix_of_turns (hNot : op.checks = false) (hPatches : op.Patches) (h : op.Turns d t t') :
    t.reminders <+: t'.reminders := by
  cases op with
  | submit m text now =>
    obtain ⟨c, _, hAlters, _⟩ := h
    exact Command.prefix_of_alters hAlters
  | toggle | completeAll | archiveAll =>
    obtain ⟨status, rfl⟩ := h
    exact List.prefix_refl _
  | update id fields now =>
    obtain ⟨_, n, n', hNew⟩ := h
    exact Task.reminders_of_overwritten (not_reminders_of_patches hPatches) hNew ▸ List.prefix_refl _
  | delete | deleteAll | sweep => cases h
  | remind m now tick forced => cases hNot

theorem holds_of_turns (hPatches : op.Patches) (h : op.Turns d t t') : t.Holds t' := by
  cases hChecks : op.checks with
  | false => exact Task.holds_of_prefix (prefix_of_turns hChecks hPatches h)
  | true =>
    cases op with
    | remind m now tick forced =>
      obtain rfl : t' = t.rung now := h
      exact Task.holds_rung now t
    | _ => cases hChecks

theorem holds_of_run (hOps : ∀ op ∈ ops, op.Patches) (hd : d.Drawn) (ht : t ∈ d.book.tasks)
    (ht' : t' ∈ (run ops d).book.tasks) (hId : t'.id = t.id) : t.Holds t' := by
  refine related_of_run Task.Holds.refl (fun a b c => Task.Holds.trans) hd ?_ ht ht' hId
  rintro front op back rfl u hu u' hu' hSame
  rcases turns_of_ended (drawn_of_run front hd) (op.ended _) hu hu' hSame with rfl | hTurns
  · exact .refl u'
  · exact holds_of_turns (hOps op (by simp)) hTurns

end Operation

end Agenda
