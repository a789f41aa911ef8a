import Agenda.Proofs.Desk.Source

/-! # Settled desks

Behind a sweep there is nothing left to renew: what recurred is named by its next occurrence, what
had ended stays ended, and a next occurrence is not completed yet. So a second sweep makes nothing
and leaves the book as it is, at whatever time it comes.
-/

namespace Agenda

namespace Task

variable {t : Task} {ts new tasks : List Task} {now : Moment} {n n' : Nat}

theorem nextDue_of_pending (h : t.status = .pending) : t.nextDue = .ok none := by
  have hDone : t.done = false := by
    rw [done, h]
    rfl
  unfold nextDue
  split
  · rw [hDone]
    rfl
  · rfl

/-- What a renewal says of the tasks that it looked at, and of those that it made. -/
theorem of_mapM_renewed {found : List (Option Task)} (h : ts.mapM (renewed · now) n = .ok (found, n')) :
    (∀ t ∈ ts, t.recurs = true ∨ t.nextDue = .ok none) ∧
      ∀ u ∈ found.filterMap (fun u => u), u.status = .pending := by
  induction ts generalizing found n with
  | nil =>
    rw [List.mapM_nil] at h
    obtain ⟨rfl, rfl⟩ := Fresh.pure_eq_ok.mp h
    simp
  | cons t ts ih =>
    rw [List.mapM_cons] at h
    obtain ⟨first, m, hFirst, h⟩ := Fresh.bind_eq_ok.mp h
    obtain ⟨rest, k, hRest, h⟩ := Fresh.bind_eq_ok.mp h
    obtain ⟨rfl, rfl⟩ := Fresh.pure_eq_ok.mp h
    obtain ⟨hLooked, hMade⟩ := ih hRest
    rcases renewed_cases hFirst with ⟨hEnded, rfl, _⟩ | ⟨u, hRecurs, rfl, _, _, _, hPending⟩
    · constructor
      · exact List.forall_mem_cons.mpr ⟨.inr hEnded, hLooked⟩
      · exact hMade
    · constructor
      · exact List.forall_mem_cons.mpr ⟨.inl hRecurs, hLooked⟩
      · exact List.forall_mem_cons.mpr ⟨hPending, hMade⟩

theorem mapM_renewed_of_ended (h : ∀ t ∈ ts, t.nextDue = .ok none) :
    ts.mapM (renewed · now) n = .ok (ts.map fun _ => none, n) := by
  induction ts with
  | nil => rfl
  | cons t ts ih =>
    rw [List.forall_mem_cons] at h
    rw [List.mapM_cons]
    refine Fresh.bind_eq_ok.mpr ⟨none, n, renewed_of_ended h.1, ?_⟩
    refine Fresh.bind_eq_ok.mpr ⟨ts.map fun _ => none, n, ih h.2, ?_⟩
    rfl

/-- Nothing on the list is left to renew. -/
def AllRenewed (tasks : List Task) : Prop :=
  ∀ t ∈ tasks, t.id ∉ sources tasks → t.nextDue = .ok none

theorem renewals_of_allRenewed (h : AllRenewed tasks) : renewals tasks now n = .ok ([], n) := by
  have hEnded : ∀ t ∈ tasks.filter (fun t => !(sources tasks).contains t.id), t.nextDue = .ok none := by
    intro t ht
    obtain ⟨ht, hNot⟩ := List.mem_filter.mp ht
    apply h t ht
    simpa using hNot
  refine Fresh.bind_eq_ok.mpr ⟨_, n, mapM_renewed_of_ended hEnded, ?_⟩
  refine Fresh.pure_eq_ok.mpr ⟨?_, rfl⟩
  rw [List.filterMap_map, List.filterMap_eq_nil_iff]
  intro t _
  rfl

theorem allRenewed_of_renewals (hIds : ∀ t ∈ tasks, t.id ≠ "") (h : renewals tasks now n = .ok (new, n')) :
    AllRenewed (tasks ++ new) := by
  have hNamed := (occurrences_of_renewals h).sources
  obtain ⟨found, m, hFound, h⟩ := Fresh.bind_eq_ok.mp h
  obtain ⟨rfl, rfl⟩ := Fresh.pure_eq_ok.mp h
  obtain ⟨hLooked, hMade⟩ := of_mapM_renewed hFound
  intro t ht hNot
  rcases List.mem_append.mp ht with ht | ht
  · have hId := hIds t ht
    rw [mem_sources hId] at hNot
    have hUnnamed : t ∈ tasks.filter fun t => !(sources tasks).contains t.id := by
      refine List.mem_filter.mpr ⟨ht, ?_⟩
      simp only [List.contains_eq_mem, Bool.not_eq_true', decide_eq_false_iff_not, mem_sources hId]
      rintro ⟨u, hu, hSource⟩
      exact hNot ⟨u, List.mem_append_left _ hu, hSource⟩
    rcases hLooked t hUnnamed with hRecurs | hEnded
    · -- Its next occurrence is among the new tasks and names it.
      have hSource : some t.id ∈ (found.filterMap fun u => u).map (·.source) := by
        rw [hNamed]
        exact List.mem_map_of_mem (List.mem_filter.mpr ⟨hUnnamed, hRecurs⟩)
      obtain ⟨u, hu, hName⟩ := List.mem_map.mp hSource
      exact absurd ⟨u, List.mem_append_right _ hu, hName⟩ hNot
    · exact hEnded
  · exact nextDue_of_pending (hMade t ht)

end Task

namespace Desk

variable {d d' : Desk} {now : Moment}

/-- The book is what a sweep has left. -/
def Swept (d : Desk) : Prop :=
  ∃ (b : Book) (new : List Task) (now : Moment) (n n' : Nat),
    Task.renewals b.tasks now n = .ok (new, n') ∧ d.book = b.renewedBy new

theorem Swept.allRenewed (hIds : ∀ t ∈ d.book.tasks, t.id ≠ "") (h : d.Swept) :
    Task.AllRenewed d.book.tasks := by
  obtain ⟨b, new, _, _, _, hSweep, hBook⟩ := h
  rw [hBook, Book.tasks_renewedBy] at hIds ⊢
  apply Task.allRenewed_of_renewals _ hSweep
  intro t ht
  exact hIds t (List.mem_append_left _ ht)

theorem sweep_of_allRenewed (h : Task.AllRenewed d.book.tasks) :
    ∃ d', (sweep now).after d = (.ok 0, d') ∧ d.Quiet d' := by
  unfold sweep
  rw [OnDesk.after_get_bind, OnDesk.after_bind, OnDesk.after_fresh, Task.renewals_of_allRenewed h]
  exact ⟨_, rfl, rfl, rfl, rfl⟩

theorem prefix_of_sweep {r : Except Fault Nat} (h : (sweep now).after d = (r, d')) :
    d.book.tasks <+: d'.book.tasks := by
  rcases Operation.sweep_cases h with ⟨_, _, _, rfl⟩ | ⟨new, _, _, hBook⟩
  · exact List.prefix_refl _
  · rw [hBook, Book.tasks_renewedBy]
    exact List.prefix_append _ _

end Desk

/-! ## Work that ends with a sweep -/

namespace OnDesk

open Desk (Swept)

variable {α β : Type} {now : Moment}

/-- Whenever the work succeeds, it has swept the book it leaves. -/
def Sweeps (x : OnDesk α) : Prop :=
  ∀ d a d', x.after d = (.ok a, d') → Swept d'

theorem sweeps_bind {x : OnDesk α} {f : α → OnDesk β} (hf : ∀ a, Sweeps (f a)) : Sweeps (x >>= f) := by
  intro d b d' h
  rcases after_bind_eq.mp h with ⟨_, _, hFault⟩ | ⟨a, d₁, _, hb⟩
  · cases hFault
  · exact hf a d₁ b d' hb

theorem sweeps_sweep {rest : Nat → OnDesk α} (hRest : ∀ n d, ((rest n).after d).2.book = d.book) :
    Sweeps (Desk.sweep now >>= rest) := by
  intro d a d' h
  rcases after_bind_eq.mp h with ⟨_, _, hFault⟩ | ⟨n, d₁, hSweep, h⟩
  · cases hFault
  · have hSame := hRest n d₁
    rw [h] at hSame
    rcases Operation.sweep_cases hSweep with ⟨_, _, hFault, _⟩ | ⟨new, hRenewals, _, hBook⟩
    · cases hFault
    · exact ⟨d.book, new, now, _, _, hRenewals, hSame.trans hBook⟩

theorem sweeps_toggle (id : String) : Sweeps (Desk.toggle id now) :=
  sweeps_bind fun _ => sweeps_bind fun _ => sweeps_bind fun _ => sweeps_bind fun _ => sweeps_sweep fun _ _ => rfl

theorem sweeps_update (id : String) (fields : Entries) : Sweeps (Desk.update id fields now) :=
  sweeps_bind fun _ => sweeps_bind fun _ => sweeps_bind fun _ => sweeps_bind fun _ => sweeps_bind fun _ =>
    sweeps_sweep fun _ _ => rfl

theorem sweeps_setStatus (ids : List String) (status : Status) : Sweeps (Desk.setStatus ids status now) := by
  unfold Desk.setStatus
  refine sweeps_bind fun d => ?_
  extract_lets book changes changed
  split
  · exact sweeps_bind fun _ => sweeps_sweep fun _ _ => rfl
  · exact sweeps_sweep fun _ _ => rfl

theorem sweeps_conclude (c : Command) (route : Route) (p : Preferences) : Sweeps (Desk.conclude c route p now) := by
  have hReport (e : Effect) (d : Desk) : ((Desk.report c route p e).after d).2.book = d.book := by
    obtain ⟨s, d', hAfter, _, _, hBook, _⟩ := Desk.exists_report c route p e d
    rw [hAfter, hBook]
  unfold Desk.conclude Desk.apply
  simp only [bind_assoc]
  refine sweeps_bind fun d => sweeps_bind fun e => ?_
  split
  · simp only [bind_assoc, pure_bind]
    exact sweeps_bind fun _ => sweeps_sweep fun _ => hReport e
  · simp only [bind_assoc, pure_bind]
    exact sweeps_sweep fun _ => hReport e

/-- A line that is understood ends with a sweep; any other leaves no command. -/
theorem swept_of_submit {m : Means} {text : String} {d d' : Desk} {s : Submission}
    (h : (Desk.submit m text now).after d = (.ok s, d')) (hCommand : s.command ≠ none) : Swept d' := by
  cases Desk.submits h with
  | empty _ _ hNone _ => exact absurd hNone hCommand
  | concluded _ _ hConclude => exact sweeps_conclude _ _ _ _ _ _ hConclude

end OnDesk

namespace Operation

/-- An operation has gone through and has renewed what it completed. Of a line this is said if a
command was found in it. -/
def Renews (d d' : Desk) : Operation → Prop
  | submit m text now => ∃ s, (Desk.submit m text now).after d = (.ok s, d') ∧ s.command ≠ none
  | toggle id now => ∃ t, (Desk.toggle id now).after d = (.ok t, d')
  | update id fields now => ∃ t, (Desk.update id fields now).after d = (.ok t, d')
  | completeAll ids now => ∃ n, (Desk.completeAll ids now).after d = (.ok n, d')
  | archiveAll ids now => ∃ n, (Desk.archiveAll ids now).after d = (.ok n, d')
  | sweep now => ∃ n, (Desk.sweep now).after d = (.ok n, d')
  | delete _ | deleteAll _ | remind _ _ _ _ => False

variable {op : Operation} {d d' : Desk}

theorem Renews.after_eq (h : op.Renews d d') : op.work.after d = (.ok (), d') := by
  cases op <;> unfold work
  case submit m text now =>
    obtain ⟨s, hAfter, _⟩ := h
    rw [after_forgotten, hAfter]
    rfl
  case toggle | update | completeAll | archiveAll | sweep =>
    obtain ⟨_, hAfter⟩ := h
    rw [after_forgotten, hAfter]
    rfl
  all_goals cases h

theorem Renews.swept (h : op.Renews d d') : d'.Swept := by
  cases op with
  | submit m text now =>
    obtain ⟨s, hAfter, hCommand⟩ := h
    exact OnDesk.swept_of_submit hAfter hCommand
  | toggle id now =>
    obtain ⟨t, hAfter⟩ := h
    exact OnDesk.sweeps_toggle id d t d' hAfter
  | update id fields now =>
    obtain ⟨t, hAfter⟩ := h
    exact OnDesk.sweeps_update id fields d t d' hAfter
  | completeAll ids now | archiveAll ids now =>
    obtain ⟨n, hAfter⟩ := h
    exact OnDesk.sweeps_setStatus ids _ d n d' hAfter
  | sweep now =>
    obtain ⟨n, hAfter⟩ := h
    rcases sweep_cases hAfter with ⟨_, _, hFault, _⟩ | ⟨new, hRenewals, _, hBook⟩
    · cases hFault
    · exact ⟨d.book, new, now, _, _, hRenewals, hBook⟩
  | delete | deleteAll | remind => cases h

/-- On a desk that was empty once, no two tasks share an identity or a source. Behind an operation
that renews, another sweep makes nothing; and no sweep touches the tasks that it finds. -/
theorem sources_nodup_and_settled (ops : List Operation) (hOps : ∀ op ∈ ops, op.Patches) :
    (run ops {}).ids.Nodup ∧ (run ops {}).book.sources.Nodup ∧
      (∀ (op : Operation) (d' : Desk), op.Renews (run ops {}) d' →
        ∀ now, ∃ d'', (Desk.sweep now).after d' = (.ok 0, d'') ∧ d'.Quiet d'') ∧
      ∀ (d d' : Desk) (now : Moment) (r : Except Fault Nat),
        (Desk.sweep now).after d = (r, d') → d.book.tasks <+: d'.book.tasks := by
  have hDrawn := drawn_of_run ops drawn_empty
  refine ⟨hDrawn.nodup, nodup_sources_of_run hOps drawn_empty .nil, ?_, fun _ _ _ _ => Desk.prefix_of_sweep⟩
  intro op d' hRenews now
  have hEnded := op.ended (run ops {})
  rw [hRenews.after_eq] at hEnded
  have hIds := (drawn_of_ended hDrawn hEnded).ne_empty
  exact Desk.sweep_of_allRenewed (hRenews.swept.allRenewed hIds)

/-- A daily task that is put off once before it is completed. -/
def watering : List Operation :=
  [.submit silent "add water plants #home" noon, .submit silent "repeat daily water plants" noon,
    .update (freshId 0) [("due_date", .str "2024-06-02T18:00:00"), ("notes", .str "two cans")] noon]

theorem watering_settled : (∀ op ∈ watering, op.Patches) ∧ (run watering {}).book.sources.Nodup ∧
    ∃ d' d'', (toggle (freshId 0) noon).Renews (run watering {}) d' ∧ d'.book.tasks.length = 2 ∧
      (Desk.sweep noon).after d' = (.ok 0, d'') ∧ d'.Quiet d'' := by
  have hOps : ∀ op ∈ watering, op.Patches := by
    intro op hMem
    simp only [watering, List.mem_cons, List.not_mem_nil, or_false] at hMem
    rcases hMem with rfl | rfl | rfl <;> simp only [Patches]
    decide
  obtain ⟨_, hSources, hSettled, _⟩ := sources_nodup_and_settled watering hOps
  have hLength : ((Desk.toggle (freshId 0) noon).after (run watering {})).2.book.tasks.length = 2 := by
    decide +kernel
  have hOk : ((Desk.toggle (freshId 0) noon).after (run watering {})).1.isOk = true := by
    decide +kernel
  cases hAfter : (Desk.toggle (freshId 0) noon).after (run watering {}) with | mk r d' =>
  rw [hAfter] at hLength hOk
  cases r with
  | error f => cases hOk
  | ok t =>
    have hRenews : (toggle (freshId 0) noon).Renews (run watering {}) d' := ⟨t, hAfter⟩
    obtain ⟨d'', hSweep, hQuiet⟩ := hSettled _ d' hRenews noon
    exact ⟨hOps, hSources, d', d'', hRenews, hLength, hSweep, hQuiet⟩

end Operation

end Agenda
