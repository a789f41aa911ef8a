import Agenda.Proofs.Desk.Debounce

/-! # Delivery of reminders

A reminder is delivered once. A check that is performed delivers what rings and nothing else; what
rings at a check that is skipped still rings at the next one that is performed.
-/

namespace Agenda

theorem Reminder.rings_later {past now : Moment} {r : Reminder} (h : r.rings past = true)
    (hLater : past.instant ≤ now.instant) : r.rings now = true := by
  unfold rings at h ⊢
  rw [Bool.and_eq_true, decide_eq_true_iff] at h ⊢
  exact ⟨h.1, h.2.trans hLater⟩

theorem Book.mem_ringing {b : Book} {t : Task} {r : Reminder} {now : Moment} (ht : t ∈ b.tasks)
    (hr : r ∈ t.reminders) (hRings : r.rings now = true) : t.rung now ∈ b.ringing now :=
  List.mem_map_of_mem (List.mem_filter.mpr ⟨ht, List.any_eq_true.mpr ⟨r, hr, hRings⟩⟩)

namespace Desk

/-- An empty desk on which checks must lie a gap apart. -/
def opened (gap : Double) : Desk :=
  { debounce := { gap } }

theorem drawn_opened (gap : Double) : (opened gap).Drawn :=
  ⟨by rintro t ⟨⟩, .nil⟩

/-- The reminder at a place of a task is there, and notified or not. -/
def Shows (x : String) (i : Nat) (notified : Bool) (d : Desk) : Prop :=
  ∃ t ∈ d.book.tasks, t.id = x ∧ (t.reminders[i]?).map (·.notified) = some notified

instance (x : String) (i : Nat) (notified : Bool) (d : Desk) : Decidable (d.Shows x i notified) :=
  inferInstanceAs (Decidable (∃ t ∈ d.book.tasks, t.id = x ∧ (t.reminders[i]?).map (·.notified) = some notified))

/-- How often the reminder at a place of a task is notified between two desks. -/
def flipped (x : String) (i : Nat) (d d' : Desk) : Nat :=
  if d.Shows x i false ∧ d'.Shows x i true then 1 else 0

end Desk

namespace Operation

open Desk (Shows flipped opened)

variable {op : Operation} {ops : List Operation} {d : Desk} {t t' : Task} {x : String} {i : Nat} {b : Bool}

/-- How often a run notifies the reminder at a place of a task. -/
def flips (x : String) (i : Nat) : List Operation → Desk → Nat
  | [], _ => 0
  | op :: ops, d => flipped x i d (op.next d) + flips x i ops (op.next d)

/-! ## Once -/

theorem notified_of_run (hOps : ∀ op ∈ ops, op.Patches) (hd : d.Drawn) (hBefore : d.Shows x i true)
    (hAfter : (run ops d).Shows x i b) : b = true := by
  obtain ⟨t, ht, hId, hr⟩ := hBefore
  obtain ⟨t', ht', hId', hr'⟩ := hAfter
  obtain ⟨r, hr, hNotified⟩ := Option.map_eq_some_iff.mp hr
  obtain ⟨r', hPlace, hPersists⟩ := holds_of_run hOps hd ht ht' (hId'.trans hId.symm) i r hr
  rw [hPlace] at hr'
  exact (Option.some.inj hr').symm.trans (hPersists.notified hNotified)

theorem shows_of_flips (h : flips x i ops d ≠ 0) : ∃ front, front <+: ops ∧ (run front d).Shows x i false := by
  induction ops generalizing d with
  | nil => exact absurd rfl h
  | cons op ops ih =>
    by_cases hFirst : d.Shows x i false ∧ (op.next d).Shows x i true
    · exact ⟨[], List.nil_prefix, hFirst.1⟩
    · rw [flips, flipped, if_neg hFirst, Nat.zero_add] at h
      obtain ⟨front, hFront, hShows⟩ := ih h
      exact ⟨op :: front, List.cons_prefix_cons.mpr ⟨rfl, hFront⟩, hShows⟩

theorem flips_le_one (hOps : ∀ op ∈ ops, op.Patches) (hd : d.Drawn) : flips x i ops d ≤ 1 := by
  induction ops generalizing d with
  | nil => exact Nat.zero_le 1
  | cons op ops ih =>
    rw [List.forall_mem_cons] at hOps
    have hNext : (op.next d).Drawn := drawn_of_ended hd (op.ended d)
    rw [flips]
    by_cases hFirst : d.Shows x i false ∧ (op.next d).Shows x i true
    · -- Another flip would start from the reminder being unnotified again.
      have hRest : flips x i ops (op.next d) = 0 := by
        by_contra hAgain
        obtain ⟨front, hFront, hShows⟩ := shows_of_flips hAgain
        cases notified_of_run (fun op hOp => hOps.2 op (hFront.subset hOp)) hNext hFirst.2 hShows
      rw [flipped, if_pos hFirst, hRest]
    · rw [flipped, if_neg hFirst, Nat.zero_add]
      exact ih hOps.2 hNext

/-! ## Operations that perform no check -/

theorem next_of_skipped {m : Means} {now : Moment} {tick : Double} {forced : Bool}
    (hSkipped : d.debounce.admits tick forced = false) : (remind m now tick forced).next d = d := by
  rw [next, work, after_forgotten, Desk.check_of_skipped hSkipped]

/-- Without a check that is performed, an operation is no check or leaves the desk as it is. -/
theorem idle_cases (hIdle : op.tick? d = none) : op.checks = false ∨ op.next d = d := by
  cases op with
  | remind m now tick forced => exact .inr (next_of_skipped (tick?_remind_eq_none.mp hIdle))
  | _ => exact .inl rfl

theorem alerts_of_idle (hIdle : op.tick? d = none) : (op.next d).alerts = d.alerts := by
  rcases idle_cases hIdle with hChecks | hSame
  · exact (Prod.mk.inj (leaves_watch_work hChecks d)).2
  · rw [hSame]

theorem prefix_of_idle (hIdle : op.tick? d = none) (hPatches : op.Patches) (hd : d.Drawn) (ht : t ∈ d.book.tasks)
    (ht' : t' ∈ (op.next d).book.tasks) (hId : t'.id = t.id) : t.reminders <+: t'.reminders := by
  rcases idle_cases hIdle with hChecks | hSame
  · rcases turns_of_ended hd (op.ended d) ht ht' hId with rfl | hTurns
    · exact List.prefix_refl _
    · exact prefix_of_turns hChecks hPatches hTurns
  · rw [hSame] at ht'
    obtain rfl := hd.unique ht' ht hId
    exact List.prefix_refl _

theorem flipped_of_idle (hIdle : op.tick? d = none) (hPatches : op.Patches) (hd : d.Drawn) :
    flipped x i d (op.next d) = 0 := by
  refine if_neg ?_
  rintro ⟨⟨t, ht, hId, hr⟩, t', ht', hId', hr'⟩
  obtain ⟨r, hr, hSilent⟩ := Option.map_eq_some_iff.mp hr
  have hSame := getElem?_of_prefix (prefix_of_idle hIdle hPatches hd ht ht' (hId'.trans hId.symm)) hr
  rw [hSame, Option.map_some, hSilent] at hr'
  cases hr'

theorem prefix_of_idle_run (hIdle : ticks ops d = []) (hOps : ∀ op ∈ ops, op.Patches) (hd : d.Drawn)
    (ht : t ∈ d.book.tasks) (ht' : t' ∈ (run ops d).book.tasks) (hId : t'.id = t.id) :
    t.reminders <+: t'.reminders := by
  refine related_of_run (R := fun t t' => t.reminders <+: t'.reminders) (fun t => List.prefix_refl _)
    (fun a b c => List.IsPrefix.trans) hd ?_ ht ht' hId
  rintro front op back rfl u hu u' hu' hSame
  rw [ticks_append, List.append_eq_nil_iff, ticks, List.append_eq_nil_iff, Option.toList_eq_nil_iff] at hIdle
  exact prefix_of_idle hIdle.2.1 (hOps op (by simp)) (drawn_of_run front hd) hu hu' hSame

/-! ## Runs -/

/-- A check is performed if it is forced, or there was none before, or the last one is a gap ago. -/
theorem admits_opened {gap tick : Double} {forced : Bool} :
    (run ops (opened gap)).debounce.admits tick forced = true ↔ forced = true ∨
      ∀ last, (ticks ops (opened gap)).getLast? = some last → (tick.plus last.negate).lt gap = false := by
  rw [debounce_run, Debounce.admits]
  cases forced with
  | true => simp
  | false => cases hLast : (ticks ops (opened gap)).getLast? <;> simp [opened]

/-- Whatever is done on an empty desk at local times, reminders keep their places and stay notified,
and none is notified twice. Only a check that is performed notifies and alerts: it gives the tasks
with a reminder that rings, as they stand in the book. A check within the gap does nothing, and what
rings then is given by the next check that is performed, if its task is still there. -/
theorem reminders_delivered_once {gap : Double} {ops : List Operation} {d : Desk}
    (hOps : ∀ op ∈ ops, op.Patches ∧ op.LocalNow ∧ op.LocalDue) (hRun : run ops (opened gap) = d) :
    (∀ front back, ops = front ++ back → ∀ t ∈ (run front (opened gap)).book.tasks, ∀ t' ∈ d.book.tasks,
        t'.id = t.id → t.Holds t') ∧
      (∀ x i, flips x i ops (opened gap) ≤ 1) ∧
      (∀ op : Operation, op.Patches → op.tick? d = none →
        (op.next d).alerts = d.alerts ∧ ∀ x i, flipped x i d (op.next d) = 0) ∧
      (∀ m now tick forced, now.isLocal = true →
        (forced = true ∨
          ∀ last, (ticks ops (opened gap)).getLast? = some last → (tick.plus last.negate).lt gap = false) →
        ∃ d', (Desk.checkReminders m now tick forced).after d = (.ok (d.book.ringing now), d') ∧
          Desk.Checked m now tick d d') ∧
      (∀ m now tick last, (ticks ops (opened gap)).getLast? = some last → (tick.plus last.negate).lt gap = true →
        (Desk.checkReminders m now tick false).after d = (.ok [], d)) ∧
      ∀ front back past now, ops = front ++ back → ticks back (run front (opened gap)) = [] →
        past.instant ≤ now.instant → ∀ t ∈ (run front (opened gap)).book.tasks, ∀ (i : Nat) r,
        t.reminders[i]? = some r → r.rings past = true → ∀ t' ∈ d.book.tasks, t'.id = t.id →
        t'.reminders[i]? = some r ∧ t'.rung now ∈ d.book.ringing now := by
  subst hRun
  have hPatches : ∀ op ∈ ops, op.Patches := fun op hOp => (hOps op hOp).1
  have hDrawn := Desk.drawn_opened gap
  refine ⟨?holds, fun x i => flips_le_one hPatches hDrawn, ?idle, ?performed, ?skipped, ?delivered⟩
  case holds =>
    rintro front back rfl t ht t' ht' hId
    rw [run_append] at ht'
    exact holds_of_run (fun op hOp => hPatches op (List.mem_append_right _ hOp)) (drawn_of_run front hDrawn) ht ht' hId
  case idle =>
    intro op hPatches hIdle
    exact ⟨alerts_of_idle hIdle, fun x i => flipped_of_idle hIdle hPatches (drawn_of_run ops hDrawn)⟩
  case performed =>
    intro m now tick forced hNow hAdmitted
    have hLocal := local_of_run hOps hDrawn (by rintro t ⟨⟩)
    exact Desk.check_of_admitted (admits_opened.mpr hAdmitted) (Book.telling_of_local hNow hLocal)
  case skipped =>
    intro m now tick last hLast hSoon
    refine Desk.check_of_skipped (Bool.eq_false_iff.mpr fun hAdmitted => ?_)
    have hLate := (admits_opened.mp hAdmitted).resolve_left (by simp) last hLast
    exact absurd hSoon (Bool.eq_false_iff.mp hLate)
  case delivered =>
    rintro front back past now rfl hIdle hLater t ht i r hr hRings t' ht' hId
    rw [run_append] at ht' ⊢
    have hBack : ∀ op ∈ back, op.Patches := fun op hOp => hPatches op (List.mem_append_right _ hOp)
    have hPrefix := prefix_of_idle_run hIdle hBack (drawn_of_run front hDrawn) ht ht' hId
    have hPlace := getElem?_of_prefix hPrefix hr
    exact ⟨hPlace, Book.mem_ringing ht' (List.mem_of_getElem? hPlace) (Reminder.rings_later hRings hLater)⟩

/-- A call to Ann is due at noon, and checks take place then and ten seconds later. -/
def callChecked : List Operation :=
  callDue noon ++ [.remind silent noon (.ofNat 100) false, .remind silent noon (.ofNat 110) false]

theorem callChecked_flips : flips (freshId 0) 0 callChecked (opened (.ofNat 5)) = 1 ∧
    flips (freshId 0) 0 callChecked (opened (.ofNat 5)) ≤ 1 := by
  have hOps : ∀ op ∈ callChecked, op.Patches ∧ op.LocalNow ∧ op.LocalDue := by
    rw [callChecked, List.forall_mem_append]
    refine ⟨fun op hOp => ?_, by simp [Patches, LocalNow, LocalDue, noon, Moment.isLocal]⟩
    exact ⟨(patches_callDue noon op hOp).1, (patches_callDue noon op hOp).2, localDue_callDue rfl op hOp⟩
  exact ⟨by decide +kernel, (reminders_delivered_once hOps rfl).2.1 _ _⟩

end Operation

end Agenda
