import Agenda.Fault
import Mathlib.Data.List.Forall2

/-! # Work that can fail

What success of a composed piece of work says about its parts. Later arguments take such work
apart by these equivalences and do not look at the composition again.
-/

namespace Agenda.Attempt

variable {ε α β : Type}

theorem pure_eq_ok {a b : α} : (pure a : Except ε α) = .ok b ↔ a = b := by
  simp [pure, Except.pure]

theorem bind_eq_ok {x : Except ε α} {f : α → Except ε β} {b : β} :
    x >>= f = .ok b ↔ ∃ a, x = .ok a ∧ f a = .ok b := by
  cases x <;> simp [bind, Except.bind]

theorem bind_eq_error {x : Except Fault α} {g : α → Except Fault β} {f : Fault} :
    x >>= g = .error f ↔ x = .error f ∨ ∃ a, x = .ok a ∧ g a = .error f := by
  cases x <;> simp [bind, Except.bind]

theorem map_eq_ok {x : Except Fault α} {f : α → β} {b : β} :
    x.map f = .ok b ↔ ∃ a, x = .ok a ∧ f a = b := by
  cases x <;> simp [Except.map]

theorem map_eq_error {x : Except Fault α} {g : α → β} {f : Fault} : x.map g = .error f ↔ x = .error f := by
  cases x <;> simp [Except.map]

theorem exists_bind_pure {x : Except Fault α} {f : α → β} :
    (∃ b, (do let a ← x; pure (f a)) = Except.ok b) ↔ ∃ a, x = .ok a := by
  simp only [bind_eq_ok, pure_eq_ok]
  constructor
  · rintro ⟨_, a, hx, _⟩
    exact ⟨a, hx⟩
  · rintro ⟨a, hx⟩
    exact ⟨f a, a, hx, rfl⟩

theorem exists_bind_iff {x : Except Fault α} {f : α → Except Fault β} :
    (∃ b, x >>= f = .ok b) ↔ ∃ a, x = .ok a ∧ ∃ b, f a = .ok b := by
  simp only [bind_eq_ok]
  constructor
  · rintro ⟨b, a, hx, hf⟩
    exact ⟨a, hx, b, hf⟩
  · rintro ⟨a, hx, b, hf⟩
    exact ⟨b, a, hx, hf⟩

theorem exists_map_iff {x : Except Fault α} {f : α → β} : (∃ b, x.map f = .ok b) ↔ ∃ a, x = .ok a := by
  simp only [map_eq_ok]
  constructor
  · rintro ⟨_, a, hx, _⟩
    exact ⟨a, hx⟩
  · rintro ⟨a, hx⟩
    exact ⟨f a, a, hx, rfl⟩

theorem exists_mapM_iff {f : α → Except Fault β} {xs : List α} :
    (∃ ys, xs.mapM f = .ok ys) ↔ ∀ x ∈ xs, ∃ y, f x = .ok y := by
  induction xs with
  | nil => exact ⟨fun _ _ hx => absurd hx List.not_mem_nil, fun _ => ⟨[], rfl⟩⟩
  | cons x xs ih =>
    rw [List.forall_mem_cons, ← ih, List.mapM_cons]
    simp only [bind_eq_ok, pure_eq_ok]
    constructor
    · rintro ⟨_, y, hy, ys, hys, _⟩
      exact ⟨⟨y, hy⟩, ys, hys⟩
    · rintro ⟨⟨y, hy⟩, ys, hys⟩
      exact ⟨_, y, hy, ys, hys, rfl⟩

theorem exists_of_mapM_eq_error {g : α → Except Fault β} {xs : List α} {f : Fault} (h : xs.mapM g = .error f) :
    ∃ x ∈ xs, g x = .error f := by
  induction xs with
  | nil => cases h
  | cons x xs ih =>
    rw [List.mapM_cons] at h
    rcases bind_eq_error.mp h with h | ⟨_, _, h⟩
    · exact ⟨x, List.mem_cons_self, h⟩
    · rcases bind_eq_error.mp h with h | ⟨_, _, ⟨⟩⟩
      obtain ⟨y, hy, hError⟩ := ih h
      exact ⟨y, List.mem_cons_of_mem x hy, hError⟩

theorem ok_bind (a : α) (f : α → Except Fault β) : (Except.ok a >>= f) = f a := rfl

theorem mapM_eq_ok {f : α → Except Fault β} {xs : List α} {ys : List β} :
    xs.mapM f = .ok ys ↔ List.Forall₂ (fun x y => f x = .ok y) xs ys := by
  induction xs generalizing ys with
  | nil =>
    rw [List.mapM_nil, pure_eq_ok]
    constructor
    · rintro rfl
      exact .nil
    · rintro ⟨⟩
      rfl
  | cons x xs ih =>
    simp only [List.mapM_cons, bind_eq_ok, pure_eq_ok, ih]
    constructor
    · rintro ⟨y, hy, zs, hzs, rfl⟩
      exact .cons hy hzs
    · rintro (_ | ⟨hy, hzs⟩)
      exact ⟨_, hy, _, hzs, rfl⟩

theorem mapM_of_ok {f : α → Except Fault β} {g : α → β} {xs : List α} (h : ∀ x ∈ xs, f x = .ok (g x)) :
    xs.mapM f = .ok (xs.map g) := by
  rw [mapM_eq_ok, List.forall₂_map_right_iff, List.forall₂_same]
  exact h

theorem mapM_congr {f g : α → Except Fault β} {xs : List α} (h : ∀ x ∈ xs, f x = g x) : xs.mapM f = xs.mapM g := by
  induction xs with
  | nil => rfl
  | cons x xs ih =>
    obtain ⟨hx, hxs⟩ := List.forall_mem_cons.mp h
    rw [List.mapM_cons, List.mapM_cons, hx, ih hxs]

section Paired

variable {R : α → β → Prop} {xs : List α} {ys : List β} {i : Nat}

theorem getElem?_right_of_paired (h : List.Forall₂ R xs ys) {x : α} (hx : xs[i]? = some x) :
    ∃ y, ys[i]? = some y ∧ R x y := by
  induction h generalizing i with
  | nil => cases hx
  | cons hHead _ ih =>
    cases i with
    | zero =>
      cases hx
      exact ⟨_, rfl, hHead⟩
    | succ i => exact ih hx

theorem getElem?_left_of_paired (h : List.Forall₂ R xs ys) {y : β} (hy : ys[i]? = some y) :
    ∃ x, xs[i]? = some x ∧ R x y :=
  getElem?_right_of_paired (List.Forall₂.flip h) hy

theorem exists_of_mem_paired (h : List.Forall₂ R xs ys) {y : β} (hy : y ∈ ys) : ∃ x ∈ xs, R x y := by
  obtain ⟨i, hi⟩ := List.mem_iff_getElem?.mp hy
  obtain ⟨x, hx, hR⟩ := getElem?_left_of_paired h hi
  exact ⟨x, List.mem_of_getElem? hx, hR⟩

end Paired

theorem filterAuxM_eq_ok {p : α → Except Fault Bool} {xs acc ys : List α} :
    xs.filterAuxM p acc = .ok ys ↔
      (∀ x ∈ xs, ∃ b, p x = .ok b) ∧ ys = (xs.filter fun x => p x = .ok true).reverse ++ acc := by
  induction xs generalizing acc with
  | nil =>
    rw [List.filterAuxM, pure_eq_ok]
    simp [eq_comm]
  | cons x xs ih =>
    simp only [List.filterAuxM, bind_eq_ok, ih, List.forall_mem_cons]
    constructor
    · rintro ⟨b, hb, hxs, rfl⟩
      refine ⟨⟨⟨b, hb⟩, hxs⟩, ?_⟩
      cases b <;> simp [hb]
    · rintro ⟨⟨⟨b, hb⟩, hxs⟩, rfl⟩
      refine ⟨b, hb, hxs, ?_⟩
      cases b <;> simp [hb]

theorem filterM_eq_ok {p : α → Except Fault Bool} {xs ys : List α} :
    xs.filterM p = .ok ys ↔
      (∀ x ∈ xs, ∃ b, p x = .ok b) ∧ ys = xs.filter fun x => p x = .ok true := by
  simp only [List.filterM, bind_eq_ok, filterAuxM_eq_ok, pure_eq_ok, List.append_nil]
  constructor
  · rintro ⟨zs, ⟨hxs, rfl⟩, rfl⟩
    exact ⟨hxs, List.reverse_reverse _⟩
  · rintro ⟨hxs, rfl⟩
    exact ⟨_, ⟨hxs, rfl⟩, List.reverse_reverse _⟩

theorem exists_of_filterAuxM_eq_error {p : α → Except Fault Bool} {xs acc : List α} {f : Fault}
    (h : xs.filterAuxM p acc = .error f) : ∃ x ∈ xs, p x = .error f := by
  induction xs generalizing acc with
  | nil => cases h
  | cons x xs ih =>
    rcases bind_eq_error.mp h with h | ⟨b, _, h⟩
    · exact ⟨x, List.mem_cons_self, h⟩
    · obtain ⟨y, hy, hError⟩ := ih h
      exact ⟨y, List.mem_cons_of_mem x hy, hError⟩

theorem exists_of_filterM_eq_error {p : α → Except Fault Bool} {xs : List α} {f : Fault} (h : xs.filterM p = .error f) :
    ∃ x ∈ xs, p x = .error f := by
  rcases bind_eq_error.mp h with h | ⟨_, _, ⟨⟩⟩
  exact exists_of_filterAuxM_eq_error h

end Agenda.Attempt
