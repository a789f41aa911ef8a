import Agenda.Command.Effect
import Agenda.Proofs.Task.Fresh

/-! # Commands draw identities

Whatever a command does, the counter of identities is at least where it was. So identities drawn
later differ from all that were drawn before.
-/

namespace Agenda.Command

open Fresh

variable {change : Task → Fresh Task}

theorem rises_changeMatching (all : Bool) (hit : Task → Bool) (hChange : ∀ t, Rises (change t))
    (tasks : List Task) : Rises (changeMatching all hit change tasks) := by
  induction tasks with
  | nil => exact rises_pure _
  | cons t tasks ih =>
    rw [changeMatching]
    split
    · refine rises_bind (hChange t) fun _ => ?_
      split
      · exact rises_bind ih fun _ => rises_pure _
      · exact rises_pure _
    · exact rises_bind ih fun _ => rises_pure _

theorem rises_updating (c : Command) (s : Setting) (consider : Task → Bool) (what : String)
    (hChange : ∀ t, Rises (change t)) (message : Nat → String) :
    Rises (c.updating s consider what change message) :=
  rises_bind (rises_changeMatching _ _ hChange _) fun _ => rises_ite (rises_pure _) (rises_pure _)

theorem rises_newTask (c : Command) (now : Moment) : Rises (c.newTask now) := by
  unfold newTask
  extract_lets title
  have hDraw := fun t : String → Task => rises_bind rises_newId fun id => rises_pure (t id)
  refine rises_bind (rises_mapM (fun m => rises_reminder m _) _) fun reminders => rises_ite ?_ (hDraw _)
  exact rises_bind (rises_throw _) fun _ => hDraw _

theorem rises_remindBefore (hours : Int) (t : Task) : Rises (remindBefore hours t) := by
  unfold remindBefore
  cases t.due with
  | none => exact rises_throw _
  | some due => exact rises_bind (rises_lift _) fun _ => rises_bind (rises_reminder _ _) fun _ => rises_pure _

theorem rises_remindAt (time : Option Moment) (t : Task) : Rises (remindAt time t) := by
  cases time with
  | none => exact rises_throw _
  | some time => exact rises_bind (rises_reminder _ _) fun _ => rises_pure _

theorem rises_remind (c : Command) (s : Setting) : Rises (c.remind s) := by
  unfold remind
  cases c.reminderHoursBefore with
  | none => exact rises_updating c s _ _ (rises_remindAt _) _
  | some hours => exact rises_updating c s _ _ (rises_remindBefore hours) _

theorem rises_archive (c : Command) (s : Setting) : Rises (c.archive s) := by
  unfold archive
  refine rises_ite (rises_ite (rises_pure _) (rises_pure _)) ?_
  exact rises_updating c s _ _ (fun _ => rises_pure _) _

theorem rises_subtask (c : Command) (s : Setting) : Rises (c.subtask s) := by
  unfold subtask
  dsimp only
  cases given c.parentSearch with
  | some parent =>
    refine rises_bind (rises_changeMatching _ _ (fun t => ?_) _) fun _ => rises_ite (rises_pure _) (rises_pure _)
    exact rises_bind (Fresh.rises_subtask _) fun _ => rises_pure _
  | none =>
    dsimp only
    split
    · exact rises_pure _
    · exact rises_pure _

theorem rises_effect (c : Command) (s : Setting) : Rises (c.effect s) := by
  unfold effect
  cases c.kind <;> dsimp only
  case tick | tag | priority | due | «repeat» => exact rises_updating c s _ _ (fun _ => rises_pure _) _
  case snooze =>
    unfold snooze
    refine rises_updating c s _ _ (fun t => ?_) _
    exact rises_bind (rises_lift _) fun _ => rises_pure _
  case add =>
    exact rises_bind (rises_newTask c s.now) fun _ => rises_bind (rises_lift _) fun _ => rises_pure _
  case delete =>
    have hPass := rises_changeMatching c.allMatches (hits c.search anyTask) (fun t => rises_pure t) s.book.tasks
    exact rises_bind hPass fun _ => rises_ite (rises_pure _) (rises_pure _)
  case archive => exact rises_archive c s
  case remind => exact rises_remind c s
  case subtask => exact rises_subtask c s
  case summarize => exact rises_lift _
  all_goals exact rises_pure _

end Agenda.Command
