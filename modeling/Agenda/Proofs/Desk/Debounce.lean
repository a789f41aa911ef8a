import Agenda.Proofs.Desk.Check
import Agenda.Proofs.Desk.Reminder
import Agenda.Proofs.Desk.View

/-! # The window of the checks

Only a check for reminders moves the window in which the next one is skipped, and only if it is not
skipped itself. So the window of a desk is that of the last check which its run performed.
-/

namespace Agenda

namespace Desk

open OnDesk

variable {α : Type} {now : Moment}

/-- The window of the checks and the alerts that were sent. -/
def watch (d : Desk) : Debounce × List (String × String) :=
  (d.debounce, d.alerts)

theorem aside_watch : Aside watch :=
  ⟨fun _ _ => rfl, fun _ _ => rfl, fun _ _ => rfl⟩

theorem leaves_watch_asking (x : Asking α) : Leaves watch (asking x) := by
  unfold asking
  rcases x.result with ⟨f | a, count⟩
  · exact leaves_bind (leaves_modify fun _ => rfl) fun _ => leaves_throw f
  · exact leaves_bind (leaves_modify fun _ => rfl) fun _ => leaves_pure a

theorem leaves_watch_resolve (m : Means) (text : String) : Leaves watch (resolve m text now) := by
  refine leaves_bind (leaves_lift _) fun command => ?_
  split
  · refine leaves_bind (leaves_watch_asking _) fun routed => ?_
    cases routed with
    | some command => exact leaves_pure _
    | none =>
      refine leaves_bind (leaves_watch_asking _) fun run => leaves_bind (aside_watch.count _) fun _ => ?_
      cases run.task with
      | some task => exact leaves_pure _
      | none => exact leaves_pure _
  · exact leaves_pure _

theorem leaves_watch_tagged (m : Means) (c : Command) : Leaves watch (tagged m c) :=
  leaves_ite (leaves_bind (leaves_watch_asking _) fun _ => leaves_pure _) (leaves_pure _)

theorem leaves_watch_submit (m : Means) (text : String) : Leaves watch (submit m text now) := by
  unfold submit
  split
  · exact leaves_throw _
  · refine leaves_bind (leaves_watch_resolve m text) fun ⟨found, route⟩ => leaves_bind leaves_preferences fun p => ?_
    cases found with
    | none => exact leaves_bind (aside_watch.count _) fun _ => leaves_pure _
    | some c => exact leaves_bind (leaves_watch_tagged m c) fun c => aside_watch.conclude (fun _ _ => rfl) c route p

theorem debounce_of_check (m : Means) (now : Moment) (tick : Double) (forced : Bool) (d : Desk) :
    ((checkReminders m now tick forced).after d).2.debounce =
      if d.debounce.admits tick forced then d.debounce.performed tick else d.debounce := by
  cases hAdmits : d.debounce.admits tick forced with
  | false => rw [check_of_skipped hAdmits, if_neg (by simp)]
  | true =>
    rw [if_pos rfl]
    by_cases hTelling : d.book.Telling now
    · obtain ⟨d', hCheck, hChecked⟩ := @check_of_admitted d m now tick forced hAdmits hTelling
      rw [hCheck]
      exact hChecked.debounce
    · rw [check_of_not_telling hAdmits hTelling]

end Desk

namespace Operation

open OnDesk

variable {d : Desk}

/-- The tick of a check that is not skipped. -/
def tick? (d : Desk) : Operation → Option Double
  | remind _ _ tick forced => if d.debounce.admits tick forced then some tick else none
  | _ => none

theorem tick?_remind_eq_none {m : Means} {now : Moment} {tick : Double} {forced : Bool} :
    tick? d (remind m now tick forced) = none ↔ d.debounce.admits tick forced = false := by
  simp [tick?]

/-- The ticks of the checks that a run performs, in order. -/
def ticks : List Operation → Desk → List Double
  | [], _ => []
  | op :: ops, d => (op.tick? d).toList ++ ticks ops (op.next d)

theorem ticks_append (front back : List Operation) (d : Desk) :
    ticks (front ++ back) d = ticks front d ++ ticks back (run front d) := by
  induction front generalizing d with
  | nil => rfl
  | cons op front ih => rw [List.cons_append, ticks, ticks, ih, List.append_assoc, run]

theorem leaves_watch_work {op : Operation} (h : op.checks = false) : Leaves Desk.watch op.work := by
  have hEdit := Desk.aside_watch
  cases op with
  | submit m text now => exact leaves_forgotten (Desk.leaves_watch_submit m text)
  | toggle id now => exact leaves_forgotten (hEdit.toggle id)
  | update id fields now => exact leaves_forgotten (hEdit.update id fields)
  | delete id => exact hEdit.delete id
  | deleteAll ids => exact leaves_forgotten (hEdit.deleteAll ids)
  | completeAll ids now => exact leaves_forgotten (hEdit.setStatus ids .completed)
  | archiveAll ids now => exact leaves_forgotten (hEdit.setStatus ids .archived)
  | sweep now => exact leaves_forgotten (hEdit.sweep now)
  | remind m now tick forced => cases h

theorem debounce_next (op : Operation) (d : Desk) :
    (op.next d).debounce = { d.debounce with last := (op.tick? d).or d.debounce.last } := by
  cases op with
  | remind m now tick forced =>
    have hCheck := Desk.debounce_of_check m now tick forced d
    rw [next, work, after_forgotten, hCheck]
    dsimp only [tick?]
    cases d.debounce.admits tick forced <;> rfl
  | _ => exact (Prod.mk.inj (leaves_watch_work rfl d)).1

/-- The window of a desk is as wide as ever and begins at the last check that was performed. -/
theorem debounce_run (ops : List Operation) (d : Desk) :
    (run ops d).debounce = { d.debounce with last := (ticks ops d).getLast?.or d.debounce.last } := by
  induction ops generalizing d with
  | nil => rfl
  | cons op ops ih =>
    rw [run, ih, debounce_next, ticks, List.getLast?_append, Option.or_assoc]
    cases op.tick? d <;> rfl

end Operation

end Agenda
