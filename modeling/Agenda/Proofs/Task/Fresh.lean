import Agenda.Proofs.Attempt
import Agenda.Proofs.Text.Numeral
import Agenda.Task.Fresh

/-! # Computations that make up identities

Different numbers make different identities. What success of such a computation says about its
parts, with the counter before and after each of them.
-/

namespace Agenda

/-! ## Identities -/

theorem freshId_injective {m n : Nat} (h : freshId m = freshId n) : m = n := by
  have hPadded := String.ofList_injective ((String.append_right_inj _).mp h)
  have hNumerals := congrArg Text.numeral hPadded
  simpa only [freshId.padId, Text.numeral_zeros, Text.numeral_ofNat] using hNumerals

theorem freshId_ne_empty (n : Nat) : freshId n ≠ "" := by
  unfold freshId
  simp

namespace Fresh

variable {α β : Type} {n n' : Nat}

theorem pure_eq_ok {a b : α} : (pure a : Fresh α) n = .ok (b, n') ↔ a = b ∧ n = n' := by
  change Except.ok (a, n) = _ ↔ _
  rw [Except.ok.injEq, Prod.mk.injEq]

theorem bind_eq_ok {x : Fresh α} {f : α → Fresh β} {b : β} :
    (x >>= f) n = .ok (b, n') ↔ ∃ a m, x n = .ok (a, m) ∧ f a m = .ok (b, n') := by
  change (x n >>= fun p => f p.1 p.2) = _ ↔ _
  rw [Attempt.bind_eq_ok]
  exact Prod.exists

theorem lift_eq_ok {x : Except Fault α} {a : α} :
    (monadLift x : Fresh α) n = .ok (a, n') ↔ x = .ok a ∧ n = n' := by
  change (x >>= fun a => .ok (a, n)) = _ ↔ _
  rw [Attempt.bind_eq_ok]
  simp

theorem newId_eq_ok {id : String} : newId n = .ok (id, n') ↔ freshId n = id ∧ n + 1 = n' := by
  change Except.ok (freshId n, n + 1) = _ ↔ _
  rw [Except.ok.injEq, Prod.mk.injEq]

theorem throw_eq_ok {f : Fault} {a : α} : ¬ (throw f : Fresh α) n = .ok (a, n') := by
  rintro ⟨⟩

theorem reminder_eq_ok {time : Moment} {kind : ReminderKind} {r : Reminder} :
    reminder time kind n = .ok (r, n') ↔ r = { id := freshId n, time, kind } ∧ n' = n + 1 := by
  unfold reminder
  simp only [bind_eq_ok, newId_eq_ok, pure_eq_ok]
  constructor
  · rintro ⟨_, _, ⟨rfl, rfl⟩, rfl, rfl⟩
    exact ⟨rfl, rfl⟩
  · rintro ⟨rfl, rfl⟩
    exact ⟨_, _, ⟨rfl, rfl⟩, rfl, rfl⟩

theorem subtask_eq_ok {text : String} {s : Subtask} :
    subtask text n = .ok (s, n') ↔ text ≠ "" ∧ s = { id := freshId n, text } ∧ n' = n + 1 := by
  unfold subtask
  simp only [bind_eq_ok, newId_eq_ok]
  constructor
  · rintro ⟨_, _, ⟨rfl, rfl⟩, h⟩
    split at h
    · exact absurd h throw_eq_ok
    · obtain ⟨rfl, rfl⟩ := pure_eq_ok.mp h
      exact ⟨by assumption, rfl, rfl⟩
  · rintro ⟨hText, rfl, rfl⟩
    refine ⟨_, _, ⟨rfl, rfl⟩, ?_⟩
    rw [if_neg hText]
    rfl

theorem of_mapM {f : α → Fresh β} {xs : List α} {ys : List β} (h : xs.mapM f n = .ok (ys, n')) :
    List.Forall₂ (fun x y => ∃ m m', f x m = .ok (y, m')) xs ys := by
  induction xs generalizing ys n n' with
  | nil =>
    rw [List.mapM_nil] at h
    obtain ⟨rfl, _⟩ := pure_eq_ok.mp h
    exact .nil
  | cons x xs ih =>
    rw [List.mapM_cons] at h
    obtain ⟨y, m, hFirst, h⟩ := bind_eq_ok.mp h
    obtain ⟨rest, k, hRest, h⟩ := bind_eq_ok.mp h
    obtain ⟨rfl, _⟩ := pure_eq_ok.mp h
    exact .cons ⟨n, m, hFirst⟩ (ih hRest)

/-! ## The counter -/

/-- The counter never falls. -/
def Rises (x : Fresh α) : Prop :=
  ∀ n a n', x n = .ok (a, n') → n ≤ n'

theorem rises_pure (a : α) : Rises (pure a) := by
  intro n b n' h
  exact Nat.le_of_eq (pure_eq_ok.mp h).2

theorem rises_bind {x : Fresh α} {f : α → Fresh β} (hx : Rises x) (hf : ∀ a, Rises (f a)) :
    Rises (x >>= f) := by
  intro n b n' h
  obtain ⟨a, m, ha, hb⟩ := bind_eq_ok.mp h
  exact Nat.le_trans (hx n a m ha) (hf a m b n' hb)

theorem rises_lift (x : Except Fault α) : Rises (monadLift x : Fresh α) := by
  intro n a n' h
  exact Nat.le_of_eq (lift_eq_ok.mp h).2

theorem rises_throw (f : Fault) : Rises (throw f : Fresh α) := by
  intro n a n' h
  exact absurd h throw_eq_ok

theorem rises_ite {p : Prop} [Decidable p] {x y : Fresh α} (hx : Rises x) (hy : Rises y) :
    Rises (if p then x else y) := by
  split
  · exact hx
  · exact hy

theorem rises_newId : Rises newId := by
  intro n id n' h
  have := (newId_eq_ok.mp h).2
  omega

theorem rises_mapM {f : α → Fresh β} (hf : ∀ a, Rises (f a)) (xs : List α) : Rises (xs.mapM f) := by
  induction xs with
  | nil =>
    rw [List.mapM_nil]
    exact rises_pure _
  | cons x xs ih =>
    rw [List.mapM_cons]
    exact rises_bind (hf x) fun _ => rises_bind ih fun _ => rises_pure _

theorem rises_reminder (time : Moment) (kind : ReminderKind) : Rises (reminder time kind) :=
  rises_bind rises_newId fun _ => rises_pure _

theorem rises_subtask (text : String) : Rises (subtask text) :=
  rises_bind rises_newId fun _ => rises_ite (rises_throw _) (rises_pure _)

/-! ## Success -/

/-- The computation gives something, whatever the counter says. -/
def Succeeds (x : Fresh α) : Prop :=
  ∀ n, ∃ a n', x n = .ok (a, n')

theorem succeeds_pure (a : α) : Succeeds (pure a) :=
  fun n => ⟨a, n, rfl⟩

theorem succeeds_bind {x : Fresh α} {f : α → Fresh β} (hx : Succeeds x) (hf : ∀ a, Succeeds (f a)) :
    Succeeds (x >>= f) := by
  intro n
  obtain ⟨a, m, ha⟩ := hx n
  obtain ⟨b, n', hb⟩ := hf a m
  exact ⟨b, n', bind_eq_ok.mpr ⟨a, m, ha, hb⟩⟩

theorem succeeds_bind_lift {x : Except Fault α} {f : α → Fresh β} {a : α} (hx : x = .ok a) (hf : Succeeds (f a)) :
    Succeeds ((monadLift x : Fresh α) >>= f) := by
  intro n
  obtain ⟨b, n', hb⟩ := hf n
  exact ⟨b, n', bind_eq_ok.mpr ⟨a, n, lift_eq_ok.mpr ⟨hx, rfl⟩, hb⟩⟩

theorem succeeds_mapM {f : α → Fresh β} {xs : List α} (hf : ∀ x ∈ xs, Succeeds (f x)) : Succeeds (xs.mapM f) := by
  induction xs with
  | nil =>
    rw [List.mapM_nil]
    exact succeeds_pure _
  | cons x xs ih =>
    obtain ⟨hx, hxs⟩ := List.forall_mem_cons.mp hf
    rw [List.mapM_cons]
    exact succeeds_bind hx fun _ => succeeds_bind (ih hxs) fun _ => succeeds_pure _

theorem succeeds_newId : Succeeds newId :=
  fun _ => ⟨_, _, newId_eq_ok.mpr ⟨rfl, rfl⟩⟩

theorem succeeds_reminder (time : Moment) (kind : ReminderKind) : Succeeds (reminder time kind) :=
  fun _ => ⟨_, _, reminder_eq_ok.mpr ⟨rfl, rfl⟩⟩

theorem succeeds_subtask {text : String} (h : text ≠ "") : Succeeds (subtask text) :=
  fun _ => ⟨_, _, subtask_eq_ok.mpr ⟨h, rfl, rfl⟩⟩

end Fresh

end Agenda
