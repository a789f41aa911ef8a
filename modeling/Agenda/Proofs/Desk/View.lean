import Agenda.Proofs.Desk.Submission

/-! # Views that edits do not change

Edits commit a book, count and draw identities. Whatever part of a desk is beside all that, is left as it
is by every edit and by the sweep behind it, whether they succeed or fail.
-/

namespace Agenda

variable {α β γ : Type} {view : Desk → γ}

namespace OnDesk

/-- What is seen of the desk is the same before and after. -/
def Leaves (view : Desk → γ) (x : OnDesk α) : Prop :=
  ∀ d, view (x.after d).2 = view d

theorem leaves_pure (a : α) : Leaves view (pure a) :=
  fun _ => rfl

theorem leaves_throw (f : Fault) : Leaves view (throw f : OnDesk α) :=
  fun _ => rfl

theorem leaves_lift (x : Except Fault α) : Leaves view (monadLift x : OnDesk α) :=
  fun _ => rfl

theorem leaves_get : Leaves view get :=
  fun _ => rfl

theorem leaves_modify {f : Desk → Desk} (hf : ∀ d, view (f d) = view d) : Leaves view (modify f : OnDesk Unit) :=
  hf

theorem leaves_bind {x : OnDesk α} {f : α → OnDesk β} (hx : Leaves view x) (hf : ∀ a, Leaves view (f a)) :
    Leaves view (x >>= f) := by
  intro d
  have hFirst := hx d
  rw [after_bind]
  revert hFirst
  rcases x.after d with ⟨_ | a, d₁⟩
  · exact fun hFirst => hFirst
  · exact fun hFirst => (hf a d₁).trans hFirst

theorem leaves_ite {p : Prop} [Decidable p] {x y : OnDesk α} (hx : Leaves view x) (hy : Leaves view y) :
    Leaves view (if p then x else y) := by
  split
  · exact hx
  · exact hy

theorem leaves_forgotten {x : OnDesk α} (hx : Leaves view x) : Leaves view (do let _ ← x : OnDesk Unit) :=
  leaves_bind hx fun _ => leaves_pure _

theorem leaves_tasks : Leaves view tasks :=
  leaves_bind leaves_get fun _ => leaves_pure _

theorem leaves_preferences : Leaves view preferences :=
  leaves_bind leaves_get fun _ => leaves_pure _

end OnDesk

namespace Desk

open OnDesk

theorem leaves_find (id : String) : Leaves view (find id) :=
  leaves_bind leaves_get fun _ => leaves_lift _

/-- Nothing that an edit does shows in this view. -/
structure Aside (view : Desk → γ) : Prop where
  nextId : ∀ d n, view { d with nextId := n } = view d
  counters : ∀ d c, view { d with counters := c } = view d
  committed : ∀ d b, view (committed d b) = view d

namespace Aside

variable {now : Moment} (h : Aside view)

include h

theorem fresh (x : Fresh α) : Leaves view (fresh x) := by
  intro d
  rw [after_fresh]
  split
  · exact h.nextId d _
  · rfl

theorem count (f : Counters → Counters) : Leaves view (count f) :=
  leaves_modify fun d => h.counters d _

theorem commit (b : Book) : Leaves view (commit b) :=
  leaves_modify fun d => h.committed d b

theorem countTasks : Leaves view countTasks :=
  leaves_bind leaves_tasks fun _ => h.count _

theorem sweep (now : Moment) : Leaves view (sweep now) := by
  unfold Desk.sweep
  refine leaves_bind leaves_get fun _ => leaves_bind (h.fresh _) fun new => ?_
  have hRest : Leaves view (do Desk.countTasks; return new.length) :=
    leaves_bind h.countTasks fun _ => leaves_pure _
  cases new.isEmpty with
  | true => exact hRest
  | false => exact leaves_bind (h.commit _) fun _ => leaves_bind (h.count _) fun _ => hRest

theorem toggle (id : String) : Leaves view (toggle id now) :=
  leaves_bind (leaves_find id) fun _ => leaves_bind leaves_get fun _ => leaves_bind (h.commit _) fun _ =>
    leaves_bind leaves_get fun _ => leaves_bind (h.sweep now) fun _ => leaves_lift _

theorem update (id : String) (fields : Entries) : Leaves view (update id fields now) :=
  leaves_bind (leaves_find id) fun _ => leaves_bind (h.fresh _) fun _ => leaves_bind leaves_get fun _ =>
    leaves_bind (h.commit _) fun _ => leaves_bind leaves_get fun _ => leaves_bind (h.sweep now) fun _ =>
      leaves_lift _

theorem delete (id : String) : Leaves view (delete id) :=
  leaves_bind (leaves_find id) fun _ => leaves_bind leaves_get fun _ => leaves_bind (h.commit _) fun _ => h.countTasks

theorem deleteAll (ids : List String) : Leaves view (deleteAll ids) :=
  leaves_bind leaves_tasks fun _ => leaves_bind leaves_get fun _ => leaves_bind (h.commit _) fun _ =>
    leaves_bind h.countTasks fun _ => leaves_bind leaves_tasks fun _ => leaves_pure _

theorem setStatus (ids : List String) (status : Status) : Leaves view (setStatus ids status now) := by
  unfold Desk.setStatus
  refine leaves_bind leaves_get fun _ => ?_
  extract_lets book changes changed
  have hRest : Leaves view (do let _ ← Desk.sweep now; return changed) :=
    leaves_bind (h.sweep now) fun _ => leaves_pure _
  cases changed != 0 with
  | true => exact leaves_bind (h.commit _) fun _ => hRest
  | false => exact hRest

theorem apply (c : Command) (p : Preferences) : Leaves view (apply c p now) := by
  refine leaves_bind leaves_get fun _ => leaves_bind (h.fresh _) fun effect => ?_
  have hRest : Leaves view (do let _ ← Desk.sweep now; return effect) :=
    leaves_bind (h.sweep now) fun _ => leaves_pure _
  cases hBook : effect.book with
  | some b => exact leaves_bind (h.commit _) fun _ => hRest
  | none => exact hRest

theorem conclude (hStorage : ∀ d storage, view { d with storage } = view d) (c : Command) (route : Route)
    (p : Preferences) : Leaves view (conclude c route p now) := by
  refine leaves_bind (h.apply c p) fun effect => ?_
  have hSaid (s : List Task → Submission) : Leaves view (do countCommand c.kind route; return s (← tasks)) :=
    leaves_bind (h.count _) fun _ => leaves_bind leaves_tasks fun _ => leaves_pure _
  unfold report
  dsimp only
  split
  · exact leaves_bind (leaves_modify fun d => hStorage d _) fun _ => hSaid _
  · exact hSaid _

end Aside

end Desk

end Agenda
