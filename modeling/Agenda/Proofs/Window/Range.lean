import Agenda.Proofs.Window.FreeSlot

/-! # Conflicts within the calendar

Starts without an offset are always comparable, whatever the estimates. So the conflict of a task
with others of this kind is found, or a date that is reckoned on the way lies beyond the calendar.
-/

namespace Agenda

namespace Attempt

variable {α β : Type} {P : α → Prop} {Q : β → Prop}

/-- The work gives something with the property, or a date leaves the calendar. -/
def Reckons (x : Except Fault α) (P : α → Prop) : Prop :=
  match x with
  | .ok a => P a
  | .error f => f = .dateOverflow

namespace Reckons

theorem of_error {x : Except Fault α} {f : Fault} (hx : Reckons x P) (h : x = .error f) : f = .dateOverflow := by
  subst h
  exact hx

theorem of_exists {x : Except Fault α} (h : ∃ a, x = .ok a ∧ P a) : Reckons x P := by
  obtain ⟨a, rfl, ha⟩ := h
  exact ha

theorem bind {x : Except Fault α} {g : α → Except Fault β} (hx : Reckons x P) (hg : ∀ a, P a → Reckons (g a) Q) :
    Reckons (x >>= g) Q := by
  cases x with
  | ok a => exact hg a hx
  | error f => exact hx

theorem filterM {p : α → Except Fault Bool} {xs : List α} (h : ∀ x ∈ xs, Reckons (p x) fun _ => True) :
    Reckons (xs.filterM p) fun _ => True := by
  cases hFilter : xs.filterM p with
  | ok ys => trivial
  | error f =>
    obtain ⟨x, hx, hError⟩ := exists_of_filterM_eq_error hFilter
    exact (h x hx).of_error hError

end Reckons

end Attempt

open Attempt

/-! ## Moments and windows -/

variable {m : Moment} {n : Int}

theorem Moment.reckons_span : Reckons (span n) fun _ => True := by
  unfold span
  split
  · trivial
  · exact rfl

theorem Moment.reckons_plus (h : m.isLocal = true) : Reckons (m.plus n) fun r => r.isLocal = true := by
  cases hPlus : m.plus n with
  | ok r => exact (isLocal_plus hPlus).trans h
  | error f => exact plus_eq_error hPlus

namespace Window

/-- Neither end of the window has an offset. -/
structure Local (w : Window) : Prop where
  start : w.start.isLocal = true
  stop : w.stop.isLocal = true

theorem exists_overlaps {a b : Window} (ha : a.Local) (hb : b.Local) : ∃ shared, a.overlaps b = .ok shared := by
  unfold overlaps
  simp only [Moment.le_of_isLocal hb.start ha.start, Moment.lt_of_isLocal ha.start hb.stop,
    Moment.lt_of_isLocal hb.start ha.stop, Moment.le_of_isLocal ha.stop hb.stop,
    Moment.le_of_isLocal ha.start hb.start, Moment.le_of_isLocal hb.stop ha.stop, ok_bind]
  split_ifs <;> exact ⟨_, rfl⟩

end Window

/-- The task starts, at a time without an offset. -/
def Task.Placed (t : Task) : Prop :=
  ∃ m, t.effectiveStart = some m ∧ m.isLocal = true

theorem Task.reckons_window {t : Task} (h : t.Placed) : Reckons (t.window n) Window.Local := by
  obtain ⟨m, hStart, hLocal⟩ := h
  unfold window
  refine Moment.reckons_span.bind fun length _ => ?_
  rw [hStart]
  exact (Moment.reckons_plus hLocal).bind fun stop hStop => ⟨hLocal, hStop⟩

theorem Task.placed_movedTo {t : Task} (h : m.isLocal = true) : (t.movedTo m).Placed :=
  ⟨m, rfl, h⟩

/-! ## The search for a slot -/

namespace Window

variable {candidate : Task} {tasks all : List Task} {minutes length : Int} {free : Moment}

theorem reckons_overlapping (hc : candidate.Placed) (hTasks : ∀ t ∈ tasks, t.Placed) :
    Reckons (overlapping candidate tasks minutes) fun _ => True := by
  refine (Task.reckons_window hc).bind fun w hw => .filterM fun t ht => ?_
  refine (Task.reckons_window (hTasks t ht)).bind fun v hv => .of_exists ?_
  obtain ⟨shared, hShared⟩ := exists_overlaps hw hv
  exact ⟨shared, hShared, trivial⟩

theorem placed_of_inOrder {ordered : List Task} (hTasks : ∀ t ∈ tasks, t.Placed) (h : inOrder tasks = .ok ordered) :
    ∀ t ∈ ordered, t.Placed := by
  have hPerm := (@of_inOrder 0 _ _ h).1
  intro t ht
  exact hTasks t (hPerm.mem_iff.mp ht)

theorem reckons_slotFrom (hAll : ∀ t ∈ all, t.Placed) (hTasks : ∀ t ∈ tasks, t.Placed) (hFree : free.isLocal = true) :
    Reckons (slotFrom candidate all minutes length free tasks) fun _ => True := by
  induction tasks generalizing free with
  | nil => trivial
  | cons t tasks ih =>
    obtain ⟨ht, hTasks⟩ := List.forall_mem_cons.mp hTasks
    rw [slotFrom]
    refine (Task.reckons_window ht).bind fun w hw => (Moment.reckons_plus hFree).bind fun stop hStop => ?_
    have hPass : Reckons (do slotFrom candidate all minutes length (← free.max w.stop) tasks) fun _ => True := by
      obtain ⟨next, hNext, hLocal, _⟩ := Moment.exists_max hFree hw.stop
      rw [hNext]
      exact ih hTasks hLocal
    rw [Moment.le_of_isLocal hStop hw.start, ok_bind]
    split
    · refine (reckons_overlapping (Task.placed_movedTo hFree) hAll).bind fun clashes _ => ?_
      split
      · trivial
      · exact hPass
    · exact hPass

theorem reckons_nextSlot (hc : candidate.Placed) (hTasks : ∀ t ∈ tasks, t.Placed) (hFree : free.isLocal = true) :
    Reckons (nextSlot candidate free tasks minutes) fun _ => True := by
  obtain ⟨ordered, hOrdered⟩ := exists_inOrder hTasks
  have hPlaced := placed_of_inOrder hTasks hOrdered
  refine Moment.reckons_span.bind fun length _ => ?_
  rw [hOrdered, ok_bind]
  split
  · trivial
  · refine (reckons_overlapping hc hPlaced).bind fun clashes _ => ?_
    split
    · trivial
    · exact (Moment.reckons_plus hFree).bind fun stop hStop => reckons_slotFrom hPlaced hPlaced hStop

theorem placed_of_due {t : Task} (hStart : ∀ m ∈ t.start, m.isLocal = true) (hDue : ∀ m ∈ t.due, m.isLocal = true)
    (hSome : t.due.isSome = true) : t.Placed := by
  obtain ⟨due, hSome⟩ := Option.isSome_iff_exists.mp hSome
  unfold Task.Placed Task.effectiveStart
  cases hFirst : t.start with
  | none => exact ⟨due, hSome, hDue due hSome⟩
  | some start => exact ⟨start, rfl, hStart start hFirst⟩

/-- Between tasks without offsets, only a date beyond the calendar keeps a conflict from being found. -/
theorem reckons_conflict (hStart : ∀ m ∈ candidate.start, m.isLocal = true)
    (hDue : ∀ m ∈ candidate.due, m.isLocal = true)
    (hTasks : ∀ t ∈ tasks, (∀ m ∈ t.start, m.isLocal = true) ∧ ∀ m ∈ t.due, m.isLocal = true) :
    Reckons (conflict candidate tasks minutes) fun _ => True := by
  have hOthers : ∀ t ∈ others candidate tasks, t.Placed := by
    intro t ht
    obtain ⟨ht, hOther⟩ := List.mem_filter.mp ht
    have hTakes := (Bool.and_eq_true_iff.mp hOther).2
    have hSome : t.due.isSome = true := by
      simp only [Task.takesTime, Bool.and_eq_true] at hTakes
      exact hTakes.1.1
    exact placed_of_due (hTasks t ht).1 (hTasks t ht).2 hSome
  unfold conflict
  cases hSome : candidate.due with
  | none => trivial
  | some due =>
    have hPlaced := placed_of_due hStart hDue (hSome ▸ rfl)
    refine (reckons_overlapping hPlaced hOthers).bind fun clashes _ => ?_
    split
    · trivial
    · exact (reckons_nextSlot hPlaced hOthers (hDue due hSome)).bind fun _ _ => trivial

end Window

end Agenda
