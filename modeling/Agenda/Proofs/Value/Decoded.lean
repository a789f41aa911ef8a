import Agenda.Task.Data
import Mathlib.Data.List.Forall2

/-! # What decoded data says about its fields

Decoding succeeds only where every field does, and then each field holds what its own decoder gave.
-/

namespace Agenda

namespace Decoded

variable {α β : Type}

theorem and_eq_ok {f : Decoded (α → β)} {x : Decoded α} {b : β} :
    f.and x = .ok b ↔ ∃ g a, f = .ok g ∧ x = .ok a ∧ g a = b := by
  cases f <;> cases x <;> simp [and]

theorem map_eq_ok {f : α → β} {x : Decoded α} {b : β} : x.map f = .ok b ↔ ∃ a, x = .ok a ∧ f a = b := by
  cases x <;> simp [map]

theorem check_eq_ok {p : α → Bool} {x : Decoded α} {a : α} : x.check p = .ok a ↔ x = .ok a ∧ p a = true := by
  cases x with
  | bad _ => simp [check]
  | ok b =>
    constructor
    · intro h
      rw [check] at h
      split at h
      · rename_i hp
        cases h
        exact ⟨rfl, hp⟩
      · cases h
    · rintro ⟨h, hp⟩
      cases h
      exact if_pos hp

theorem under_eq_ok {step : String} {x : Decoded α} {a : α} : x.under step = .ok a ↔ x = .ok a := by
  cases x <;> simp [under]

theorem mem_of_mem_all {xs : List (Decoded α)} {as : List α} {a : α} (h : all xs = .ok as) (ha : a ∈ as) :
    .ok a ∈ xs := by
  induction xs generalizing as with
  | nil =>
    cases h
    cases ha
  | cons x xs ih =>
    simp only [all, and_eq_ok] at h
    obtain ⟨_, rest, ⟨_, first, hCons, rfl, rfl⟩, hRest, rfl⟩ := h
    cases hCons
    rcases List.mem_cons.mp ha with rfl | ha
    · exact List.mem_cons_self
    · exact List.mem_cons_of_mem _ (ih hRest ha)

theorem all_mapIdx_map {f : Nat → β → Decoded α} {g : α → β} {as : List α}
    (h : ∀ i, ∀ a ∈ as, f i (g a) = .ok a) : all ((as.map g).mapIdx f) = .ok as := by
  induction as generalizing f with
  | nil => rfl
  | cons a as ih =>
    rw [List.map_cons, List.mapIdx_cons, all, h 0 a List.mem_cons_self,
      ih fun i b hb => h (i + 1) b (List.mem_cons_of_mem a hb)]
    rfl

end Decoded

namespace Value

variable {α : Type} {es : Entries} {key : String} {a default : α} {decode : Value → Decoded α} {v : Value}

theorem withDefault_of_get? (hKey : es.get? key = some v) (h : decode v = .ok a) :
    withDefault es key default decode = .ok a := by
  rw [withDefault, hKey]
  exact Decoded.under_eq_ok.mpr h

theorem required_of_get? (hKey : es.get? key = some v) (h : decode v = .ok a) :
    required es key decode = .ok a := by
  rw [required, hKey]
  exact Decoded.under_eq_ok.mpr h

theorem decodeList_map {g : α → Value} {as : List α} (h : ∀ a ∈ as, decode (g a) = .ok a) :
    decodeList decode (.list (as.map g)) = .ok as :=
  Decoded.all_mapIdx_map fun _ a ha => Decoded.under_eq_ok.mpr (h a ha)

theorem of_withDefault (h : withDefault es key default decode = .ok a) : a = default ∨ ∃ v, decode v = .ok a := by
  unfold withDefault at h
  split at h
  · exact .inr ⟨_, Decoded.under_eq_ok.mp h⟩
  · cases h
    exact .inl rfl

theorem of_required (h : required es key decode = .ok a) : ∃ v, decode v = .ok a := by
  unfold required at h
  split at h
  · exact ⟨_, Decoded.under_eq_ok.mp h⟩
  · cases h

theorem of_decodeOption (h : decodeOption decode v = .ok (some a)) : decode v = .ok a := by
  cases v with
  | null => cases h
  | _ =>
    obtain ⟨b, hb, hSome⟩ := Decoded.map_eq_ok.mp h
    cases hSome
    exact hb

theorem of_decodeEntries {decode : Entries → Decoded α} (h : decodeEntries decode v = .ok a) :
    ∃ es, decode es = .ok a := by
  cases v with
  | object es => exact ⟨es, h⟩
  | _ => cases h

theorem withDefault_congr {es' : Entries} (h : es.get? key = es'.get? key) :
    withDefault es key default decode = withDefault es' key default decode := by
  rw [withDefault, withDefault, h]

theorem required_congr {es' : Entries} (h : es.get? key = es'.get? key) :
    required es key decode = required es' key decode := by
  rw [required, required, h]

theorem withDefault_eq_of_decode {es' : Entries} {w : Value} (h : es.get? key = some v)
    (h' : es'.get? key = some w) (hDecode : decode v = decode w) :
    withDefault es key default decode = withDefault es' key default decode := by
  rw [withDefault, withDefault, h, h']
  exact congrArg (·.under key) hDecode

theorem required_eq_of_decode {es' : Entries} {w : Value} (h : es.get? key = some v)
    (h' : es'.get? key = some w) (hDecode : decode v = decode w) : required es key decode = required es' key decode := by
  rw [required, required, h, h']
  exact congrArg (·.under key) hDecode

theorem decode_of_required (hKey : es.get? key = some v) (h : required es key decode = .ok a) : decode v = .ok a := by
  rw [required, hKey] at h
  exact Decoded.under_eq_ok.mp h

theorem decode_of_withDefault (hKey : es.get? key = some v)
    (h : withDefault es key default decode = .ok a) : decode v = .ok a := by
  unfold withDefault at h
  rw [hKey] at h
  exact Decoded.under_eq_ok.mp h

end Value

theorem mapIdx_eq_of_forall₂ {α β γ : Type} {R : α → β → Prop} {f : Nat → α → γ} {g : Nat → β → γ} {as : List α}
    {bs : List β} (h : List.Forall₂ R as bs) (hR : ∀ a b, R a b → ∀ i, f i a = g i b) : as.mapIdx f = bs.mapIdx g := by
  induction h generalizing f g with
  | nil => rfl
  | cons hHead _ ih => rw [List.mapIdx_cons, List.mapIdx_cons, hR _ _ hHead 0, ih fun a b hab i => hR a b hab (i + 1)]

theorem of_decodeParts {α : Type} {first : Nat} {decode : String → Entries → Decoded α} {v : Value} {parts : List α}
    {part : α} (h : decodeParts first decode v = .ok parts) (hPart : part ∈ parts) :
    ∃ id es, decode id es = .ok part := by
  cases v with
  | list vs =>
    obtain ⟨i, _, hDecoded⟩ := List.mem_mapIdx.mp (Decoded.mem_of_mem_all h hPart)
    exact ⟨_, Value.of_decodeEntries (Decoded.under_eq_ok.mp hDecoded)⟩
  | _ => cases h

theorem decodeParts_eq_of_forall₂ {α : Type} {decode : String → Entries → Decoded α} {vs ws : List Value} (n : Nat)
    (h : List.Forall₂ (fun v w => ∀ id, Value.decodeEntries (decode id) v = Value.decodeEntries (decode id) w) vs ws) :
    decodeParts n decode (.list vs) = decodeParts n decode (.list ws) := by
  rw [decodeParts, decodeParts]
  exact congrArg Decoded.all (mapIdx_eq_of_forall₂ h fun v w hSame i => congrArg (·.under (toString i)) (hSame _))

namespace Task

variable {now : Moment} {next : Nat} {es : Entries} {t : Task}

/-- Every field is what its own decoder reads from the entries. -/
structure ReadFrom (now : Moment) (next : Nat) (es : Entries) (t : Task) : Prop where
  id : Value.withDefault es "id" (freshId next) Value.decodeStr = .ok t.id
  title : Value.required es "title" decodeTitle = .ok t.title
  notes : Value.withDefault es "notes" "" Value.decodeStr = .ok t.notes
  tags : Value.withDefault es "tags" []
    (fun v => (Value.decodeList Value.decodeStr v).map fun ts => (normalTags ts).map some) = .ok t.tags
  priority : Value.withDefault es "priority" none (Value.decodeOption (Value.decodeName Priority.ofName?)) =
    .ok t.priority
  project : Value.withDefault es "project" none (Value.decodeOption Value.decodeStr) = .ok t.project
  status : Value.withDefault es "status" .pending (Value.decodeName Status.ofName?) = .ok t.status
  createdAt : Value.withDefault es "created_at" now Value.decodeMoment = .ok t.createdAt
  due : Value.withDefault es "due_date" none (Value.decodeOption Value.decodeMoment) = .ok t.due
  start : Value.withDefault es "start_time" none (Value.decodeOption Value.decodeMoment) = .ok t.start
  minutes : Value.withDefault es "estimated_duration_min" none
    (Value.decodeOption fun v => (Value.decodeInt v).check (1 ≤ ·)) = .ok t.minutes
  subtasks : Value.withDefault es "subtasks" [] (decodeParts (next + 1) Subtask.decode) = .ok t.subtasks
  recurrence : Value.withDefault es "recurring" none (Value.decodeOption (Value.decodeEntries Recurrence.decode)) =
    .ok t.recurrence
  reminders : Value.withDefault es "reminders" []
    (decodeParts (next + 1 + listLength es "subtasks") Reminder.decode) = .ok t.reminders
  source : Value.withDefault es "recurrence_source_id" none (Value.decodeOption Value.decodeStr) = .ok t.source

theorem decodeEntries_eq_ok : decodeEntries now next es = .ok t ↔ ReadFrom now next es t := by
  constructor
  · intro h
    simp only [decodeEntries, Decoded.and_eq_ok] at h
    -- the fields are taken apart from the last one to the first
    obtain ⟨_, _, h, hSource, rfl⟩ := h
    obtain ⟨_, _, h, hReminders, rfl⟩ := h
    obtain ⟨_, _, h, hRecurrence, rfl⟩ := h
    obtain ⟨_, _, h, hSubtasks, rfl⟩ := h
    obtain ⟨_, _, h, hMinutes, rfl⟩ := h
    obtain ⟨_, _, h, hStart, rfl⟩ := h
    obtain ⟨_, _, h, hDue, rfl⟩ := h
    obtain ⟨_, _, h, hCreated, rfl⟩ := h
    obtain ⟨_, _, h, hStatus, rfl⟩ := h
    obtain ⟨_, _, h, hProject, rfl⟩ := h
    obtain ⟨_, _, h, hPriority, rfl⟩ := h
    obtain ⟨_, _, h, hTags, rfl⟩ := h
    obtain ⟨_, _, h, hNotes, rfl⟩ := h
    obtain ⟨_, _, h, hTitle, rfl⟩ := h
    obtain ⟨_, _, hMk, hId, rfl⟩ := h
    cases hMk
    exact ⟨hId, hTitle, hNotes, hTags, hPriority, hProject, hStatus, hCreated, hDue, hStart, hMinutes, hSubtasks,
      hRecurrence, hReminders, hSource⟩
  · intro h
    rw [decodeEntries, h.id, h.title, h.notes, h.tags, h.priority, h.project, h.status, h.createdAt, h.due, h.start,
      h.minutes, h.subtasks, h.recurrence, h.reminders, h.source]
    rfl

theorem id_of_decodeEntries {id : String} (hId : es.get? "id" = some (.str id))
    (h : decodeEntries now next es = .ok t) : t.id = id := by
  have hDecoded := Value.decode_of_withDefault hId (decodeEntries_eq_ok.mp h).id
  exact (Decoded.ok.inj hDecoded).symm

end Task

end Agenda
