import Agenda.Command.Effect
import Agenda.Proofs.Task.Fresh
import Mathlib.Data.List.Nodup

/-! # Changing the tasks that match

Commands with a search phrase share one pass over the tasks. It lists the identities of the tasks
that are hit, all or the first, and leaves every other task as it is; a changed task keeps its
identity and where it comes from.
-/

namespace Agenda

/-- A later form of the same task. -/
structure Task.Persists (t t' : Task) : Prop where
  id : t'.id = t.id
  title : t'.title = t.title
  createdAt : t'.createdAt = t.createdAt
  source : t'.source = t.source

theorem Task.Persists.refl (t : Task) : t.Persists t :=
  ⟨rfl, rfl, rfl, rfl⟩

namespace Command

/-- A task becomes what a relation allows, and something else only if its identity is listed. -/
def Becomes (R : Task → Task → Prop) (affected : List String) (t t' : Task) : Prop :=
  R t t' ∧ (t.id ∉ affected → t' = t)

/-- A task persists, and is changed only if its identity is listed. -/
def Touched (affected : List String) (t t' : Task) : Prop :=
  t.Persists t' ∧ (t.id ∉ affected → t' = t)

def allOrFirst (all : Bool) (tasks : List Task) : List Task :=
  if all then tasks else tasks.take 1

variable {all : Bool} {hit : Task → Bool} {change : Task → Fresh Task} {affected ids : List String}
  {tasks ts : List Task} {n n' : Nat}

theorem Touched.refl (affected : List String) (t : Task) : Touched affected t t :=
  ⟨.refl t, fun _ => rfl⟩

theorem touched_refl (affected : List String) (tasks : List Task) :
    List.Forall₂ (Touched affected) tasks tasks :=
  List.forall₂_same.mpr fun t _ => .refl affected t

section Pass

variable {R : Task → Task → Prop}

theorem becomes_refl (hRefl : ∀ t, R t t) (tasks : List Task) :
    List.Forall₂ (Becomes R affected) tasks tasks :=
  List.forall₂_same.mpr fun t _ => ⟨hRefl t, fun _ => rfl⟩

theorem becomes_cons {t t' : Task} (h : R t t') (hTasks : List.Forall₂ (Becomes R ids) tasks ts) :
    List.Forall₂ (Becomes R (t.id :: ids)) (t :: tasks) (t' :: ts) := by
  refine .cons ⟨h, fun hNot => absurd List.mem_cons_self hNot⟩ (hTasks.imp ?_)
  rintro u u' ⟨hu, hSame⟩
  exact ⟨hu, fun hNot => hSame fun hMem => hNot (List.mem_cons_of_mem _ hMem)⟩

theorem becomes_of_changeMatching (hRefl : ∀ t, R t t)
    (hChange : ∀ t t' m m', hit t = true → change t m = .ok (t', m') → R t t')
    (h : changeMatching all hit change tasks n = .ok ((ts, ids), n')) :
    ids = (allOrFirst all (tasks.filter hit)).map (·.id) ∧ List.Forall₂ (Becomes R ids) tasks ts := by
  induction tasks generalizing ts ids n n' with
  | nil =>
    obtain ⟨h, _⟩ := Fresh.pure_eq_ok.mp h
    cases h
    exact ⟨by cases all <;> rfl, .nil⟩
  | cons t tasks ih =>
    rw [changeMatching] at h
    by_cases hHit : hit t = true
    · rw [if_pos hHit, Fresh.bind_eq_ok] at h
      obtain ⟨new, m, hNew, h⟩ := h
      have hHead := hChange t new n m hHit hNew
      cases all with
      | true =>
        obtain ⟨⟨rest, restIds⟩, m', hRest, h⟩ := Fresh.bind_eq_ok.mp h
        obtain ⟨h, _⟩ := Fresh.pure_eq_ok.mp h
        cases h
        obtain ⟨hIds, hTasks⟩ := ih hRest
        rw [List.filter_cons_of_pos hHit, hIds]
        exact ⟨rfl, hIds ▸ becomes_cons hHead hTasks⟩
      | false =>
        obtain ⟨h, _⟩ := Fresh.pure_eq_ok.mp h
        cases h
        rw [List.filter_cons_of_pos hHit]
        exact ⟨rfl, becomes_cons hHead (becomes_refl hRefl _)⟩
    · rw [if_neg hHit, Fresh.bind_eq_ok] at h
      obtain ⟨⟨rest, restIds⟩, m, hRest, h⟩ := h
      obtain ⟨h, _⟩ := Fresh.pure_eq_ok.mp h
      cases h
      obtain ⟨hIds, hTasks⟩ := ih hRest
      rw [List.filter_cons_of_neg hHit]
      exact ⟨hIds, .cons ⟨hRefl t, fun _ => rfl⟩ hTasks⟩

end Pass

theorem of_changeMatching (hChange : ∀ t t' m m', change t m = .ok (t', m') → t.Persists t')
    (h : changeMatching all hit change tasks n = .ok ((ts, ids), n')) :
    ids = (allOrFirst all (tasks.filter hit)).map (·.id) ∧ List.Forall₂ (Touched ids) tasks ts :=
  becomes_of_changeMatching Task.Persists.refl (fun t t' m m' _ => hChange t t' m m') h

/-! ## Subtasks -/

theorem openSubtask?_eq_some {needle : List Char} {t : Task} {s : Subtask} (h : openSubtask? needle t = some s) :
    s ∈ t.subtasks ∧ s.done = false ∧ needle <:+: Text.lower s.text.toList := by
  have hFound := List.find?_some h
  simp only [Bool.and_eq_true, Bool.not_eq_true', Text.occurs_iff] at hFound
  obtain ⟨hOpen, front, back, hText⟩ := hFound
  exact ⟨List.mem_of_find?_eq_some h, hOpen, front, back, hText.symm⟩

/-- Where subtasks have identities of their own, one of them becomes done. -/
theorem subtaskDone_eq {t : Task} {s : Subtask} (hIds : (t.subtasks.map (·.id)).Nodup) (hs : s ∈ t.subtasks) :
    ∃ front back, t.subtasks = front ++ s :: back ∧
      subtaskDone t s.id = { t with subtasks := front ++ { s with done := true } :: back } := by
  obtain ⟨front, back, hSplit⟩ := List.append_of_mem hs
  refine ⟨front, back, hSplit, ?_⟩
  rw [hSplit, List.map_append, List.map_cons, List.nodup_middle, List.nodup_cons, List.mem_append] at hIds
  have hSame : ∀ us : List Subtask, s.id ∉ us.map (·.id) →
      (us.map fun u => if u.id = s.id then { u with done := true } else u) = us := by
    intro us hNot
    refine (List.map_congr_left fun u hu => ?_).trans (List.map_id us)
    exact if_neg fun hId : u.id = s.id => hNot (hId ▸ List.mem_map_of_mem hu)
  unfold subtaskDone
  rw [hSplit, List.map_append, List.map_cons, hSame front (fun h => hIds.1 (.inl h)),
    hSame back (fun h => hIds.1 (.inr h)), if_pos rfl]

theorem of_completeSubtask {needle : List Char} {id : String} (h : completeSubtask needle tasks = (ts, some id)) :
    ∃ front t back s, tasks = front ++ t :: back ∧ t.id = id ∧
      (∀ u ∈ front, openSubtask? needle u = none) ∧ openSubtask? needle t = some s ∧
      ts = front ++ subtaskDone t s.id :: back := by
  induction tasks generalizing ts with
  | nil => cases h
  | cons t tasks ih =>
    rw [completeSubtask] at h
    cases hOpen : openSubtask? needle t with
    | some s =>
      rw [hOpen] at h
      cases h
      exact ⟨[], t, tasks, s, rfl, rfl, by simp, hOpen, rfl⟩
    | none =>
      cases hRest : completeSubtask needle tasks with | mk rest found =>
      simp only [hOpen, hRest] at h
      cases h
      obtain ⟨front, u, back, s, hTasks, hId, hFront, hFound, hAfter⟩ := ih hRest
      refine ⟨t :: front, u, back, s, by rw [hTasks, List.cons_append], hId, ?_, hFound, ?_⟩
      · exact List.forall_mem_cons.mpr ⟨hOpen, hFront⟩
      · rw [hAfter, List.cons_append]

end Command

end Agenda
