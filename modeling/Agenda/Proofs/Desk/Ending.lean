import Agenda.Proofs.Command.Counter
import Agenda.Proofs.Desk.Operation
import Agenda.Proofs.Desk.Submission
import Agenda.Proofs.Value.Decoded
import Agenda.Proofs.Book.Saved

/-! # How operations end

Every operation ends in one of four ways: it was refused and nothing was touched, its edit is done,
its edit is done and the sweep behind it as well, or the edit is done and the sweep has failed.
-/

namespace Agenda

namespace Book

theorem mem_of_find {b : Book} {id : String} {t : Task} (h : b.find id = .ok t) : t ∈ b.tasks ∧ t.id = id := by
  unfold find at h
  split at h
  · rename_i hFind
    cases h
    have hId := List.find?_some hFind
    exact ⟨List.mem_of_find?_eq_some hFind, eq_of_beq hId⟩
  · cases h

theorem exists_find_iff {b : Book} {id : String} : (∃ t, b.find id = .ok t) ↔ ∃ t ∈ b.tasks, t.id = id := by
  unfold find
  cases hFind : b.tasks.find? (·.id == id) with
  | none =>
    have hNone := List.find?_eq_none.mp hFind
    simp only [beq_iff_eq] at hNone
    constructor
    · rintro ⟨_, ⟨⟩⟩
    · rintro ⟨t, ht, hId⟩
      exact absurd hId (hNone t ht)
  | some t =>
    have hId := List.find?_some hFind
    exact ⟨fun _ => ⟨t, List.mem_of_find?_eq_some hFind, eq_of_beq hId⟩, fun _ => ⟨t, rfl⟩⟩

theorem exists_find_changed {b : Book} {id : String} {change : Task → Task}
    (hChange : ∀ t, t.id = id → (change t).id = id) (h : ∃ t, b.find id = .ok t) :
    ∃ t, (b.changed id change).find id = .ok t := by
  rw [exists_find_iff] at h ⊢
  obtain ⟨t, ht, hId⟩ := h
  refine ⟨change t, ?_, hChange t hId⟩
  exact List.mem_map.mpr ⟨t, ht, if_pos hId⟩

theorem find_changed {b : Book} {id : String} {new : Task} (hNew : new.id = id) (h : ∃ t, b.find id = .ok t) :
    (b.changed id fun _ => new).find id = .ok new := by
  have hChange : ∀ t : Task, t.id = id → ((fun _ => new) t).id = id := fun _ _ => hNew
  obtain ⟨t, ht⟩ := exists_find_changed hChange h
  obtain ⟨hMem, hId⟩ := mem_of_find ht
  obtain ⟨u, _, hChanged⟩ := List.mem_map.mp hMem
  split at hChanged
  · rw [ht, ← hChanged]
  · rename_i hOther
    exact absurd (hChanged ▸ hId) hOther

end Book

namespace Operation

/-! ## Sweeps -/

variable {op : Operation} {d d' d₁ : Desk} {now : Moment}

open OnDesk (after_bind_eq keeps_bind keeps_pure)

theorem after_find_bind_eq {α : Type} {id : String} {f : Task → OnDesk α} {r : Except Fault α} :
    (Desk.find id >>= f).after d = (r, d') ↔ (∃ e, d.book.find id = .error e ∧ r = .error e ∧ d' = d) ∨
      ∃ t, d.book.find id = .ok t ∧ (f t).after d = (r, d') := by
  have hFind : (Desk.find id).after d = (d.book.find id, d) := rfl
  rw [OnDesk.after_bind, hFind]
  cases d.book.find id with
  | error e => simp [eq_comm]
  | ok t => simp

theorem sweep_cases {r : Except Fault Nat} (h : (Desk.sweep now).after d = (r, d')) :
    (∃ f, Task.renewals d.book.tasks now d.nextId = .error f ∧ r = .error f ∧ d' = d) ∨
      ∃ new, Task.renewals d.book.tasks now d.nextId = .ok (new, d'.nextId) ∧ r = .ok new.length ∧
        d'.book = d.book.renewedBy new := by
  unfold Desk.sweep at h
  rw [OnDesk.after_get_bind, OnDesk.after_bind, OnDesk.after_fresh] at h
  cases hRenewals : Task.renewals d.book.tasks now d.nextId with
  | error f =>
    simp only [hRenewals, Prod.mk.injEq] at h
    exact .inl ⟨f, rfl, h.1.symm, h.2.symm⟩
  | ok p =>
    obtain ⟨new, next⟩ := p
    simp only [hRenewals] at h
    right
    refine ⟨new, ?_⟩
    unfold Book.renewedBy
    cases hNew : new.isEmpty with
    | true =>
      simp only [hNew] at h
      obtain ⟨rfl, rfl⟩ := Prod.mk.inj h
      exact ⟨rfl, rfl, rfl⟩
    | false =>
      simp only [hNew] at h
      obtain ⟨rfl, rfl⟩ := Prod.mk.inj h
      exact ⟨rfl, rfl, rfl⟩

/-- Behind an edit, a sweep decides how the operation ends, if nothing that follows can fail. -/
theorem ended_of_sweep {α : Type} {rest : Nat → OnDesk α} {r : Except Fault α}
    (hNow : op.renewsAt = some now) (hEdited : op.Edited d d₁)
    (hRest : ∀ n d₂, ∃ a d₃, (rest n).after d₂ = (.ok a, d₃) ∧ d₃.book = d₂.book ∧ d₃.nextId = d₂.nextId)
    (h : (Desk.sweep now >>= rest).after d₁ = (r, d')) : op.Ended d (r.map fun _ => ()) d' := by
  rcases after_bind_eq.mp h with ⟨f, hSweep, rfl⟩ | ⟨n, d₂, hSweep, h⟩
  · rcases sweep_cases hSweep with ⟨f', hRenewals, hFault, rfl⟩ | ⟨_, _, hOk, _⟩
    · cases hFault
      exact .unrenewed now hNow hEdited hRenewals
    · cases hOk
  · rcases sweep_cases hSweep with ⟨_, _, hFault, _⟩ | ⟨new, hRenewals, _, hBook⟩
    · cases hFault
    · obtain ⟨a, d₃, hAfter, hSame, hNext⟩ := hRest n d₂
      cases hAfter.symm.trans h
      rw [← hNext] at hRenewals
      exact .renewed now new hNow hEdited hRenewals (hSame.trans hBook)

/-! ## Edits -/

theorem edited_committed {b : Book} {next : Nat} (hMakes : op.Makes d b next) :
    op.Edited d ({ d with nextId := next }.committed b) :=
  .made b hMakes rfl rfl

theorem ended_of_toggle {id : String} {r : Except Fault Task} (h : (Desk.toggle id now).after d = (r, d')) :
    Ended (.toggle id now) d (r.map fun _ => ()) d' := by
  rcases after_find_bind_eq.mp h with ⟨f, _, rfl, rfl⟩ | ⟨t, hFind, h⟩
  · exact .refused (.refl _)
  · have hId : ∀ u : Task, u.id = id → u.toggled.id = id := fun _ hu => hu
    obtain ⟨t', hFound⟩ := Book.exists_find_changed hId ⟨t, hFind⟩
    have hMakes : Makes d (d.book.changed id Task.toggled) d.nextId (.toggle id now) := ⟨⟨t, hFind⟩, rfl, rfl⟩
    refine ended_of_sweep rfl (edited_committed hMakes) ?_ h
    exact fun _ d₂ => ⟨t', d₂, congrArg (·, d₂) hFound, rfl, rfl⟩

theorem id_of_overwritten {t new : Task} {fields : Entries} {id : String} {n n' : Nat}
    (h : Desk.overwritten t fields id now n = .ok (new, n')) : new.id = id ∧ n ≤ n' := by
  unfold Desk.overwritten at h
  extract_lets es at h
  cases hDecoded : Task.decodeEntries now n es with
  | bad errors =>
    simp only [hDecoded] at h
    cases h
  | ok decoded =>
    simp only [hDecoded] at h
    cases h
    have hId : es.get? "id" = some (.str id) := by
      rw [Entries.get?_insert, if_pos rfl]
    exact ⟨Task.id_of_decodeEntries hId hDecoded, Nat.le_add_right _ _⟩

/-- An update is refused for want of the task or for a value, or it is an edit with a sweep behind it. -/
theorem after_update_eq {id : String} {fields : Entries} {r : Except Fault Task} :
    (Desk.update id fields now).after d = (r, d') ↔
      (∃ f, d.book.find id = .error f ∧ r = .error f ∧ d' = d) ∨ ∃ old, d.book.find id = .ok old ∧
        ((∃ f, Desk.overwritten old fields id now d.nextId = .error f ∧ r = .error f ∧ d' = d) ∨
          ∃ new next, Desk.overwritten old fields id now d.nextId = .ok (new, next) ∧
            (Desk.sweep now >>= fun _ => pure new).after
              ({ d with nextId := next }.committed (d.book.changed id fun _ => new)) = (r, d')) := by
  refine after_find_bind_eq.trans (or_congr_right (exists_congr fun old => and_congr_right fun hFind => ?_))
  rw [OnDesk.after_bind, OnDesk.after_fresh]
  cases hNew : Desk.overwritten old fields id now d.nextId with
  | error f => simp [eq_comm]
  | ok p =>
    obtain ⟨new, next⟩ := p
    have hFound := Book.find_changed (id_of_overwritten hNew).1 ⟨old, hFind⟩
    simp only [reduceCtorEq, false_and, exists_false, false_or, Except.ok.injEq, Prod.mk.injEq]
    have hEdit : (do
        OnDesk.commit ((← get).book.changed id fun _ => new)
        let updated := (← get).book
        let _ ← Desk.sweep now
        (updated.find id : Except Fault Task) : OnDesk Task).after { d with nextId := next } =
          (Desk.sweep now >>= fun _ => pure new).after
            ({ d with nextId := next }.committed (d.book.changed id fun _ => new)) := by
      rw [← show (monadLift ((d.book.changed id fun _ => new).find id) : OnDesk Task) = pure new from
        congrArg _ hFound]
      rfl
    rw [hEdit]
    constructor
    · exact fun h => ⟨new, next, ⟨rfl, rfl⟩, h⟩
    · rintro ⟨_, _, ⟨rfl, rfl⟩, h⟩
      exact h

theorem after_update_of_overwritten {id : String} {fields : Entries} {old new : Task} {next : Nat}
    (hFind : d.book.find id = .ok old) (hNew : Desk.overwritten old fields id now d.nextId = .ok (new, next)) :
    (Desk.update id fields now).after d = (Desk.sweep now >>= fun _ => pure new).after
      ({ d with nextId := next }.committed (d.book.changed id fun _ => new)) := by
  apply after_update_eq.mpr
  exact .inr ⟨old, hFind, .inr ⟨new, next, hNew, rfl⟩⟩

theorem ended_of_update {id : String} {fields : Entries} {r : Except Fault Task}
    (h : (Desk.update id fields now).after d = (r, d')) :
    Ended (.update id fields now) d (r.map fun _ => ()) d' := by
  rcases after_update_eq.mp h with ⟨f, _, rfl, rfl⟩ | ⟨t, hFind, ⟨f, _, rfl, rfl⟩ | ⟨new, next, hNew, h⟩⟩
  · exact .refused (.refl _)
  · exact .refused (.refl _)
  · have hMakes : Makes d (d.book.changed id fun _ => new) next (.update id fields now) :=
      ⟨t, new, hFind, hNew, rfl⟩
    exact ended_of_sweep rfl (edited_committed hMakes) (fun _ d₂ => ⟨new, d₂, rfl, rfl, rfl⟩) h

theorem ended_of_delete {id : String} {r : Except Fault Unit} (h : (Desk.delete id).after d = (r, d')) :
    Ended (.delete id) d r d' := by
  rcases after_find_bind_eq.mp h with ⟨f, _, rfl, rfl⟩ | ⟨t, hFind, h⟩
  · exact .refused (.refl _)
  · cases h
    have hMakes : Makes d (d.book.without [id]) d.nextId (.delete id) := ⟨⟨t, hFind⟩, rfl, rfl⟩
    exact .edited (edited_committed hMakes) ⟨rfl, rfl, rfl⟩

theorem ended_of_deleteAll {ids : List String} {r : Except Fault Nat}
    (h : (Desk.deleteAll ids).after d = (r, d')) : Ended (.deleteAll ids) d (r.map fun _ => ()) d' := by
  cases h
  have hMakes : Makes d (d.book.without ids) d.nextId (.deleteAll ids) := ⟨rfl, rfl⟩
  exact .edited (edited_committed hMakes) ⟨rfl, rfl, rfl⟩

theorem ended_of_setStatus {ids : List String} {status : Status} {r : Except Fault Nat}
    (hMakes : ∀ b, Restatuses ids status d.book b → op.Makes d b d.nextId) (hNow : op.renewsAt = some now)
    (h : (Desk.setStatus ids status now).after d = (r, d')) : op.Ended d (r.map fun _ => ()) d' := by
  unfold Desk.setStatus at h
  rw [OnDesk.after_get_bind] at h
  extract_lets book changes changed at h
  have hChanges : ∀ t, changes t = true ↔ t.id ∈ ids ∧ t.status ≠ status := by
    intro t
    simp [changes]
  cases hChanged : changed != 0 with
  | false =>
    simp only [hChanged] at h
    exact ended_of_sweep hNow (.kept rfl rfl (Nat.le_refl _)) (fun _ d₂ => ⟨_, d₂, rfl, rfl, rfl⟩) h
  | true =>
    simp only [hChanged] at h
    have hSome : ∃ t ∈ d.book.tasks, t.id ∈ ids ∧ t.status ≠ status := by
      have hNonempty : d.book.tasks.filter changes ≠ [] := by
        rw [← List.length_pos_iff]
        exact Nat.pos_of_ne_zero (bne_iff_ne.mp hChanged)
      obtain ⟨t, ht⟩ := List.exists_mem_of_ne_nil _ hNonempty
      exact ⟨t, (List.mem_filter.mp ht).1, (hChanges t).mp (List.mem_filter.mp ht).2⟩
    have hMap : (fun t => if changes t then t.withStatus status else t) =
        fun t => if t.id ∈ ids ∧ t.status ≠ status then t.withStatus status else t := by
      funext t
      simp only [hChanges t]
    rw [hMap] at h
    exact ended_of_sweep hNow (edited_committed (hMakes _ ⟨hSome, rfl⟩))
      (fun _ d₂ => ⟨_, d₂, rfl, rfl, rfl⟩) h

theorem edited_of_fireReminders {m : Means} {tick : Double} {forced : Bool} {r : Except Fault (List Task)}
    (h : (Desk.fireReminders m now tick forced).after d = (r, d')) :
    (∃ f, r = .error f ∧ d.Quiet d') ∨ ∃ fired, r = .ok fired ∧ Edited (.remind m now tick forced) d d' := by
  unfold Desk.fireReminders at h
  rw [OnDesk.after_get_bind] at h
  cases hAdmits : d.debounce.admits tick forced with
  | false =>
    simp only [hAdmits] at h
    cases h
    exact .inr ⟨[], rfl, .kept rfl rfl (Nat.le_refl _)⟩
  | true =>
    simp only [hAdmits] at h
    cases hFired : d.book.fireDue now with
    | error f =>
      simp only [hFired] at h
      cases h
      exact .inl ⟨f, rfl, rfl, rfl, rfl⟩
    | ok p =>
      obtain ⟨book, fired⟩ := p
      right
      refine ⟨fired, ?_⟩
      cases book with
      | none =>
        cases hAlert : m.mayAlert <;> simp only [hFired, hAlert] at h <;> cases h <;>
          exact ⟨rfl, .kept rfl rfl (Nat.le_refl _)⟩
      | some b =>
        have hMakes : Makes d b d.nextId (.remind m now tick forced) := ⟨⟨fired, hFired⟩, rfl⟩
        cases hAlert : m.mayAlert <;> simp only [hFired, hAlert] at h <;> cases h <;>
          exact ⟨rfl, .made b hMakes rfl rfl⟩

theorem ended_of_checkReminders {m : Means} {tick : Double} {forced : Bool} {r : Except Fault (List Task)}
    (h : (Desk.checkReminders m now tick forced).after d = (r, d')) :
    Ended (.remind m now tick forced) d (r.map fun _ => ()) d' := by
  unfold Desk.checkReminders at h
  rcases after_bind_eq.mp h with ⟨f, hFire, rfl⟩ | ⟨fired, d₁, hFire, h⟩
  · rcases edited_of_fireReminders hFire with ⟨_, _, hQuiet⟩ | ⟨_, hOk, _⟩
    · exact .refused hQuiet
    · cases hOk
  · cases h
    rcases edited_of_fireReminders hFire with ⟨_, hFault, _⟩ | ⟨_, _, hEdited⟩
    · cases hFault
    · exact .edited hEdited ⟨rfl, rfl, rfl⟩

/-! ## Submissions -/

theorem understood_unique {m : Means} {text : String} {now : Moment} {c c' : Command}
    (h : Understood m text now d c) (h' : Understood m text now d c') : c = c' := by
  obtain ⟨_, _, _, _, hResolve, hTagged⟩ := h
  obtain ⟨_, _, _, _, hResolve', hTagged'⟩ := h'
  cases hResolve.symm.trans hResolve'
  cases hTagged.symm.trans hTagged'
  rfl

theorem keeps_resolveFreely (m : Means) (text : String) : OnDesk.Keeps (Desk.resolveFreely m text now) := by
  unfold Desk.resolveFreely
  refine keeps_bind (OnDesk.keeps_asking _) fun routed => ?_
  cases routed with
  | some command => exact keeps_pure _
  | none =>
    refine keeps_bind (OnDesk.keeps_asking _) fun run => keeps_bind (OnDesk.keeps_count _) fun _ => ?_
    cases run.task with
    | some task => exact keeps_pure _
    | none => exact keeps_pure _

theorem keeps_resolve (m : Means) (text : String) : OnDesk.Keeps (Desk.resolve m text now) := by
  refine keeps_bind (OnDesk.keeps_lift _) fun command => ?_
  split
  · exact keeps_resolveFreely m text
  · exact keeps_pure _

theorem keeps_tagged (m : Means) (c : Command) : OnDesk.Keeps (Desk.tagged m c) := by
  unfold Desk.tagged
  split
  · exact keeps_bind (OnDesk.keeps_asking _) fun _ => keeps_pure _
  · exact keeps_pure _

theorem ended_of_conclude {c : Command} {p : Preferences} {route : Route} {r : Except Fault Submission}
    (hNow : op.renewsAt = some now) (hQuiet : d.Quiet d₁)
    (hMakes : ∀ e b next, c.effect { book := d.book, preferences := p, now } d.nextId = .ok (e, next) →
      e.book = some b → op.Makes d b next)
    (h : (Desk.conclude c route p now).after d₁ = (r, d')) : op.Ended d (r.map fun _ => ()) d' := by
  unfold Desk.conclude Desk.apply at h
  simp only [bind_assoc] at h
  rw [OnDesk.after_get_bind, OnDesk.after_bind, OnDesk.after_fresh, hQuiet.book, hQuiet.nextId] at h
  cases hEffect : c.effect { book := d.book, preferences := p, now } d.nextId with
  | error f =>
    simp only [hEffect] at h
    cases h
    exact .refused hQuiet
  | ok q =>
    obtain ⟨e, next⟩ := q
    simp only [hEffect] at h
    have hReport (n : Nat) (d₂ : Desk) : ∃ s d₃, (Desk.report c route p e).after d₂ = (.ok s, d₃) ∧
        d₃.book = d₂.book ∧ d₃.nextId = d₂.nextId := by
      obtain ⟨s, d₃, hAfter, _, _, hKept⟩ := Desk.exists_report c route p e d₂
      exact ⟨s, d₃, hAfter, hKept⟩
    cases hBook : e.book with
    | none =>
      simp only [hBook, bind_assoc, pure_bind] at h
      have hEdited : op.Edited d { d₁ with nextId := next } :=
        .kept hQuiet.book hQuiet.storage (Command.rises_effect _ _ _ _ _ hEffect)
      rw [← hQuiet.book] at h
      exact ended_of_sweep hNow hEdited hReport h
    | some b =>
      simp only [hBook, bind_assoc, pure_bind] at h
      have hEdited : op.Edited d ({ d₁ with nextId := next }.committed b) := by
        refine .made b (hMakes e b next hEffect hBook) ?_ ?_
        · rw [← hQuiet.book]
          rfl
        · rw [← hQuiet.storage]
          rfl
      rw [← hQuiet.book] at h
      exact ended_of_sweep hNow hEdited hReport h

theorem ended_of_submit {m : Means} {text : String} {r : Except Fault Submission}
    (h : (Desk.submit m text now).after d = (r, d')) :
    Ended (.submit m text now) d (r.map fun _ => ()) d' := by
  cases Desk.submits h with
  | blank _ => exact .refused (.refl d)
  | unread hResolve => exact .refused (keeps_resolve m text _ _ _ hResolve)
  | empty hResolve _ _ hQuiet =>
    have hQuiet := (keeps_resolve m text _ _ _ hResolve).trans hQuiet
    exact .edited (.kept hQuiet.book hQuiet.storage (Nat.le_of_eq hQuiet.nextId.symm)) (.refl _)
  | untagged hResolve hTagged =>
    exact .refused ((keeps_resolve m text _ _ _ hResolve).trans (keeps_tagged m _ _ _ _ hTagged))
  | @concluded c c' route d₁ d₂ _ _ hResolve hTagged hConclude =>
    have hQuiet := keeps_resolve m text _ _ _ hResolve
    refine ended_of_conclude rfl (hQuiet.trans (keeps_tagged m c _ _ _ hTagged)) ?_ hConclude
    intro e b next hEffect hBook
    rw [hQuiet.storage] at hEffect
    exact ⟨c', e, ⟨c, route, d₁, d₂, hResolve, hTagged⟩, hBook, hEffect⟩

/-! ## Every operation -/

theorem after_forgotten {α : Type} (x : OnDesk α) :
    (do let _ ← x : OnDesk Unit).after d = ((x.after d).1.map fun _ => (), (x.after d).2) := by
  rw [OnDesk.after_bind]
  rcases x.after d with ⟨_ | a, d₁⟩ <;> rfl

theorem ended (op : Operation) (d : Desk) : op.Ended d (op.work.after d).1 (op.work.after d).2 := by
  cases op <;> unfold work <;> try rw [after_forgotten]
  case submit => exact ended_of_submit rfl
  case toggle => exact ended_of_toggle rfl
  case update => exact ended_of_update rfl
  case delete => exact ended_of_delete rfl
  case deleteAll => exact ended_of_deleteAll rfl
  case completeAll => exact ended_of_setStatus (fun _ hMakes => ⟨hMakes, rfl⟩) rfl rfl
  case archiveAll => exact ended_of_setStatus (fun _ hMakes => ⟨hMakes, rfl⟩) rfl rfl
  case remind => exact ended_of_checkReminders rfl
  case sweep now =>
    have hSweep : (Desk.sweep now >>= pure).after d = (Desk.sweep now).after d := by rw [bind_pure]
    exact ended_of_sweep rfl (.kept rfl rfl (Nat.le_refl _)) (fun n d₂ => ⟨n, d₂, rfl, rfl, rfl⟩) hSweep

end Operation

/-! ## Failed operations

An operation is an edit and a sweep, and each of them happens in full or not at all. So a failed
operation has left everything as it was, or its edit is done and stored and the sweep behind it has
failed. Preferences are never touched.
-/

namespace Operation

variable {op : Operation} {d d' : Desk} {f : Fault}

theorem failed_cases (h : op.work.after d = (.error f, d')) :
    Preferences.load d'.storage = Preferences.load d.storage ∧
      (d'.book = d.book ∧ d'.storage = d.storage ∨
        ∃ b now, op.renewsAt = some now ∧ op.Makes d b d'.nextId ∧
          d'.book = { b with version := d.book.version + 1 } ∧ d'.storage = d'.book.save d.storage ∧
          Task.renewals d'.book.tasks now d'.nextId = .error f) := by
  have hEnded := op.ended d
  rw [h] at hEnded
  cases hEnded with
  | refused hQuiet => exact ⟨by rw [hQuiet.storage], .inl ⟨hQuiet.book, hQuiet.storage⟩⟩
  | unrenewed now hNow hEdited hSweep =>
    cases hEdited with
    | kept hBook hStorage _ => exact ⟨by rw [hStorage], .inl ⟨hBook, hStorage⟩⟩
    | made b hMakes hBook hStorage =>
      refine ⟨?_, .inr ⟨b, now, hNow, hMakes, hBook, hStorage, hSweep⟩⟩
      rw [hStorage, Preferences.load_save]

/-- A task for every day, due on the last day there is. It can be completed, but not renewed. -/
def lastDay : Desk :=
  run [.submit silent "add pay rent #home" noon,
    .update (freshId 0) [("due_date", .str "9999-12-31T12:00:00"), ("recurring", .object [("type", .str "daily")])]
      noon] {}

theorem lastDay_toggle_fails : ((toggle (freshId 0) noon).work.after lastDay).1.isOk = false := by
  decide +kernel

theorem lastDay_toggle_changes : ((toggle (freshId 0) noon).work.after lastDay).1.isOk = false ∧
    ((toggle (freshId 0) noon).work.after lastDay).2.book ≠ lastDay.book := by
  decide +kernel

theorem lastDay_failed_cases : ∃ f d', (toggle (freshId 0) noon).work.after lastDay = (.error f, d') ∧
    Preferences.load d'.storage = Preferences.load lastDay.storage ∧
      (d'.book = lastDay.book ∧ d'.storage = lastDay.storage ∨
        ∃ b now, (toggle (freshId 0) noon).renewsAt = some now ∧ (toggle (freshId 0) noon).Makes lastDay b d'.nextId ∧
          d'.book = { b with version := lastDay.book.version + 1 } ∧
          d'.storage = d'.book.save lastDay.storage ∧
          Task.renewals d'.book.tasks now d'.nextId = .error f) := by
  have hFails := lastDay_toggle_fails
  cases hAfter : (toggle (freshId 0) noon).work.after lastDay with | mk r d' =>
  cases r with
  | ok u =>
    rw [hAfter] at hFails
    cases hFails
  | error f => exact ⟨f, d', rfl, failed_cases hAfter⟩

end Operation

end Agenda
