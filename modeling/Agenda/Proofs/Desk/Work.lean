import Agenda.Desk.Basic
import Agenda.Proofs.Task.Fresh

/-! # Work on a desk

A piece of work leaves a desk behind whether it succeeds or fails. What it did is taken apart into
what its parts did, one desk after the other. Work that is quiet leaves the book and its storage as
they are.
-/

namespace Agenda

/-- The result of a piece of work, and the desk that it leaves. -/
def OnDesk.after {α : Type} (x : OnDesk α) (d : Desk) : Except Fault α × Desk :=
  x.run.run d

namespace OnDesk

variable {α β : Type} {d d' : Desk}

theorem after_bind (x : OnDesk α) (f : α → OnDesk β) (d : Desk) :
    (x >>= f).after d = match x.after d with
      | (.ok a, d₁) => (f a).after d₁
      | (.error e, d₁) => (.error e, d₁) := by
  change (match x.after d with | (a, d₁) => (ExceptT.bindCont f a : StateM Desk _) d₁) = _
  rcases x.after d with ⟨_ | a, d₁⟩ <;> rfl

theorem after_bind_eq {x : OnDesk α} {f : α → OnDesk β} {r : Except Fault β} :
    (x >>= f).after d = (r, d') ↔ (∃ e, x.after d = (.error e, d') ∧ r = .error e) ∨
      ∃ a d₁, x.after d = (.ok a, d₁) ∧ (f a).after d₁ = (r, d') := by
  rw [after_bind]
  rcases x.after d with ⟨_ | a, d₁⟩ <;> simp [and_comm, eq_comm]

theorem exists_ok {x : OnDesk α} (h : (x.after d).1.isOk = true) : ∃ a, x.after d = (.ok a, (x.after d).2) := by
  rcases hAfter : x.after d with ⟨_ | a, d₁⟩
  · rw [hAfter] at h
    cases h
  · exact ⟨a, rfl⟩

/-! ## Parts -/

theorem after_fresh (x : Fresh α) : (fresh x).after d = match x d.nextId with
    | .ok (a, next) => (.ok a, { d with nextId := next })
    | .error f => (.error f, d) := by
  change (match x d.nextId with
    | .ok (a, next) => _
    | .error f => _ : OnDesk α).after d = _
  split <;> rfl

theorem after_get_bind (f : Desk → OnDesk β) : (get >>= f).after d = (f d).after d := rfl

theorem result_of_asking {x : Asking α} {a : α} (h : (asking x).after d = (.ok a, d')) : x.result.1 = .ok a := by
  unfold asking at h
  rcases hResult : x.result with ⟨_ | b, count⟩
  · simp only [hResult] at h
    cases h
  · simp only [hResult] at h
    cases h
    rfl

end OnDesk

/-! ## Quiet work -/

namespace Desk

/-- The book, its storage and the identities are as they were. -/
structure Quiet (d d' : Desk) : Prop where
  book : d'.book = d.book
  storage : d'.storage = d.storage
  nextId : d'.nextId = d.nextId

theorem Quiet.refl (d : Desk) : Quiet d d :=
  ⟨rfl, rfl, rfl⟩

theorem Quiet.trans {a b c : Desk} (hab : Quiet a b) (hbc : Quiet b c) : Quiet a c :=
  ⟨hbc.book.trans hab.book, hbc.storage.trans hab.storage, hbc.nextId.trans hab.nextId⟩

/-- A desk with another book, which is stored. -/
def committed (d : Desk) (b : Book) : Desk :=
  let b := { b with version := d.book.version + 1 }
  { d with book := b, storage := b.save d.storage }

end Desk

namespace OnDesk

open Desk (Quiet)

variable {α β : Type} {d d' : Desk}

def Keeps (x : OnDesk α) : Prop :=
  ∀ d r d', x.after d = (r, d') → Quiet d d'

theorem keeps_pure (a : α) : Keeps (pure a) := by
  rintro d _ _ ⟨⟩
  exact .refl d

theorem keeps_throw (f : Fault) : Keeps (throw f : OnDesk α) := by
  rintro d _ _ ⟨⟩
  exact .refl d

theorem keeps_lift (x : Except Fault α) : Keeps (monadLift x : OnDesk α) := by
  rintro d _ _ ⟨⟩
  exact .refl d

theorem keeps_modify {f : Desk → Desk} (hf : ∀ d, Quiet d (f d)) : Keeps (modify f : OnDesk Unit) := by
  rintro d _ _ ⟨⟩
  exact hf d

theorem keeps_bind {x : OnDesk α} {f : α → OnDesk β} (hx : Keeps x) (hf : ∀ a, Keeps (f a)) :
    Keeps (x >>= f) := by
  intro d r d' h
  rcases after_bind_eq.mp h with ⟨e, hx', _⟩ | ⟨a, d₁, ha, hb⟩
  · exact hx d _ d' hx'
  · exact (hx d _ d₁ ha).trans (hf a d₁ r d' hb)

theorem keeps_count (f : Counters → Counters) : Keeps (count f) :=
  keeps_modify fun _ => ⟨rfl, rfl, rfl⟩

theorem keeps_asking (x : Asking α) : Keeps (asking x) := by
  unfold asking
  rcases x.result with ⟨f | a, count⟩
  · exact keeps_bind (keeps_modify fun _ => ⟨rfl, rfl, rfl⟩) fun _ => keeps_throw f
  · exact keeps_bind (keeps_modify fun _ => ⟨rfl, rfl, rfl⟩) fun _ => keeps_pure a

end OnDesk

end Agenda
