import Agenda.Book.Legacy
import Agenda.Proofs.Attempt
import Agenda.Proofs.Value.Entries

/-! # Which stored tasks have a present form

Bringing a stored task to its present form goes through three of its fields and turns numbers into
moments. It fails where a field cannot be gone through or a number means no moment that a clock
shows, and nowhere else. The fields are those that the present keys name, under whatever key they
were stored.
-/

namespace Agenda.Legacy

open Entries

variable {es es' raw : Entries} {v : Value} {key : String}

/-! ## What the reading steps ask of a value -/

/-- There are items in the value to go through, or it counts as absent. -/
def Walkable (v : Value) : Prop :=
  v.truthy = true → match v with
    | .list _ | .str _ | .object _ => True
    | _ => False

/-- If the value is a number, it is one of milliseconds that means a moment. -/
def LegibleTime (v : Value) : Prop :=
  ∀ x, thousandth v = some x → ∃ m, Moment.ofStamp x = .ok m

def LegibleRule (v : Value) : Prop :=
  ∀ rule, v = .object rule → LegibleTime (Entries.at? (renamed ruleKeys rule) "end_date")

def LegibleReminders (v : Value) : Prop :=
  Walkable v ∧ ∀ items, v = .list items → ∀ part, .object part ∈ items → LegibleTime (Entries.at? part "time")

theorem exists_itemsOf_iff : (∃ vs, itemsOf v = .ok vs) ↔ Walkable v := by
  unfold itemsOf Walkable
  cases hTruthy : v.truthy with
  | false => simp
  | true => cases v <;> simp

theorem itemsOf_list (vs : List Value) : itemsOf (.list vs) = .ok vs := by
  cases vs <;> rfl

/-- Only the items of a list can be objects. -/
theorem exists_list_of_object {vs : List Value} {part : Entries} (h : itemsOf v = .ok vs)
    (hMem : part ∈ objects vs) : ∃ items, v = .list items ∧ .object part ∈ items := by
  obtain ⟨item, hItem, hObject⟩ := List.mem_filterMap.mp hMem
  split at hObject <;> cases hObject
  unfold itemsOf at h
  split at h
  · cases h
    cases hItem
  · split at h <;> cases h
    · exact ⟨vs, rfl, hItem⟩
    · simp at hItem
    · simp at hItem

theorem exists_readTime_iff : (∃ w, readTime v = .ok w) ↔ LegibleTime v := by
  unfold readTime LegibleTime
  cases v with
  | int n =>
    simp only [thousandth, Option.some.injEq, forall_eq']
    cases Double.ofQuotient (decide (n < 0)) n.natAbs 1000 <;> simp [Attempt.map_eq_ok, Moment.ofStamp]
  | num x => simp [thousandth, Attempt.map_eq_ok]
  | null | bool | str | moment | list | object => simp [thousandth]

/-! ## Steps -/

/-- A step succeeds exactly if the value under one key is as it asks, and changes nothing but under
the listed keys. -/
structure Step (key : String) (Asks : Value → Prop) (keys : List String)
    (f : Entries → Except Fault Entries) : Prop where
  succeeds : ∀ es, (∃ es', f es = .ok es') ↔ Asks (es.at? key)
  edits : ∀ es es', f es = .ok es' → Edits keys es es'

theorem step_readTags : Step "tags" Walkable ["tag", "tags"] readTags where
  succeeds es := Attempt.exists_bind_pure.trans exists_itemsOf_iff
  edits es es' h := by
    obtain ⟨tags, _, h⟩ := Attempt.bind_eq_ok.mp h
    cases Attempt.pure_eq_ok.mp h
    exact (edits_erase _ _).trans (edits_insert _ _ _)

theorem step_readTimeAt (key : String) : Step key LegibleTime [key] (readTimeAt key) where
  succeeds es := by
    rw [← exists_readTime_iff]
    unfold readTimeAt at?
    cases es.get? key with
    | none => exact iff_of_true ⟨es, rfl⟩ ⟨.null, rfl⟩
    | some v => exact Attempt.exists_bind_pure
  edits es es' h := by
    unfold readTimeAt at h
    split at h
    · obtain ⟨w, _, h⟩ := Attempt.bind_eq_ok.mp h
      cases Attempt.pure_eq_ok.mp h
      exact edits_insert _ _ _
    · cases h
      exact .refl

theorem step_readRule : Step "recurring" LegibleRule ["recurring"] readRule where
  succeeds es := by
    unfold readRule LegibleRule at?
    cases es.get? "recurring" with
    | none => simp
    | some v =>
      cases v with
      | object rule =>
        simp only [Option.getD_some, Value.object.injEq, forall_eq']
        exact Attempt.exists_bind_pure.trans ((step_readTimeAt "end_date").succeeds _)
      | null | bool | int | num | str | moment | list => simp
  edits es es' h := by
    unfold readRule at h
    split at h
    · obtain ⟨rule, _, h⟩ := Attempt.bind_eq_ok.mp h
      cases Attempt.pure_eq_ok.mp h
      exact edits_insert _ _ _
    · cases h
      exact .refl

theorem exists_readReminder_iff : (∃ w, readReminder es = .ok w) ↔ LegibleTime (es.at? "time") :=
  Attempt.exists_bind_pure.trans exists_readTime_iff

theorem step_readReminders : Step "reminders" LegibleReminders ["reminders"] readReminders where
  succeeds es := by
    have hParts : (∃ es', readReminders es = .ok es') ↔
        ∃ vs, itemsOf (es.at? "reminders") = .ok vs ∧ ∀ part ∈ objects vs, LegibleTime (part.at? "time") := by
      simp only [← exists_readReminder_iff, ← Attempt.exists_mapM_iff]
      unfold readReminders
      simp only [Attempt.bind_eq_ok, Attempt.pure_eq_ok]
      constructor
      · rintro ⟨_, vs, hItems, ws, hRead, _⟩
        exact ⟨vs, hItems, ws, hRead⟩
      · rintro ⟨vs, hItems, ws, hRead⟩
        exact ⟨_, vs, hItems, ws, hRead, rfl⟩
    rw [hParts, LegibleReminders, ← exists_itemsOf_iff]
    constructor
    · rintro ⟨vs, hItems, hEach⟩
      refine ⟨⟨vs, hItems⟩, ?_⟩
      intro items hList part hMem
      rw [hList, itemsOf_list] at hItems
      cases hItems
      exact hEach part (List.mem_filterMap.mpr ⟨_, hMem, rfl⟩)
    · rintro ⟨⟨vs, hItems⟩, hEach⟩
      refine ⟨vs, hItems, ?_⟩
      intro part hMem
      obtain ⟨items, hList, hObject⟩ := exists_list_of_object hItems hMem
      exact hEach items hList part hObject
  edits es es' h := by
    obtain ⟨_, _, h⟩ := Attempt.bind_eq_ok.mp h
    obtain ⟨_, _, h⟩ := Attempt.bind_eq_ok.mp h
    cases Attempt.pure_eq_ok.mp h
    exact edits_insert _ _ _

theorem step_readSubtasks : Step "subtasks" Walkable ["subtasks"] readSubtasks where
  succeeds es := Attempt.exists_bind_pure.trans exists_itemsOf_iff
  edits es es' h := by
    obtain ⟨_, _, h⟩ := Attempt.bind_eq_ok.mp h
    cases Attempt.pure_eq_ok.mp h
    exact edits_insert _ _ _

theorem edits_readTitle (es : Entries) : Edits ["title", "text"] es (readTitle es) := by
  unfold readTitle
  extract_lets titled
  have hTitled : Edits ["title"] es titled := by
    subst titled
    split
    · split
      · exact .refl
      · exact edits_insert _ _ _
    · exact .refl
  exact hTitled.trans (edits_erase _ _)

theorem edits_readDone (es : Entries) : Edits ["done", "status"] es (readDone es) := by
  unfold readDone
  extract_lets completes rest
  have hStatus : Edits ["status"] rest
      (if completes then rest.insert "status" (.str Status.completed.name) else rest) := by
    cases completes
    · exact .refl
    · exact edits_insert _ _ _
  exact (edits_erase es "done").trans hStatus

theorem step_readCreated : Step "created_at" LegibleTime (["done", "status"] ++ ["created_at"])
    (fun es => readTimeAt "created_at" (readDone es)) where
  succeeds es := by
    rw [← (edits_readDone es).agreeBut.at? (by decide)]
    exact (step_readTimeAt "created_at").succeeds _
  edits es es' h := (edits_readDone es).trans ((step_readTimeAt "created_at").edits _ _ h)

/-! ## The present form as a whole -/

/-- Some steps from `es` on succeed exactly if `P`, and change nothing but under the listed keys. -/
structure Passed (keys : List String) (es : Entries) (x : Except Fault Entries) (P : Prop) : Prop where
  succeeds : (∃ es', x = .ok es') ↔ P
  edits : ∀ es', x = .ok es' → Edits keys es es'

theorem Passed.step {keys keys' : List String} {x : Except Fault Entries} {P : Prop} {Asks : Value → Prop}
    {f : Entries → Except Fault Entries} (h : Passed keys es x P) (hf : Step key Asks keys' f)
    (hKey : key ∉ keys) : Passed (keys ++ keys') es (x >>= f) (P ∧ Asks (es.at? key)) where
  succeeds := by
    simp only [Attempt.bind_eq_ok, ← h.succeeds]
    constructor
    · rintro ⟨es'', es', hx, hStep⟩
      refine ⟨⟨es', hx⟩, ?_⟩
      rw [← (h.edits es' hx).agreeBut.at? hKey]
      exact (hf.succeeds es').mp ⟨es'', hStep⟩
    · rintro ⟨⟨es', hx⟩, hAsks⟩
      rw [← (h.edits es' hx).agreeBut.at? hKey] at hAsks
      obtain ⟨es'', hStep⟩ := (hf.succeeds es').mpr hAsks
      exact ⟨es'', es', hx, hStep⟩
  edits es'' hx := by
    obtain ⟨es', hx, hStep⟩ := Attempt.bind_eq_ok.mp hx
    exact (h.edits es' hx).trans (hf.edits es' es'' hStep)

/-- Every field that has to be gone through can be, and every time is one that a clock shows. -/
structure Legible (raw : Entries) : Prop where
  tags : Walkable ((renamed taskKeys raw).at? "tags")
  created : LegibleTime ((renamed taskKeys raw).at? "created_at")
  due : LegibleTime ((renamed taskKeys raw).at? "due_date")
  start : LegibleTime ((renamed taskKeys raw).at? "start_time")
  rule : LegibleRule ((renamed taskKeys raw).at? "recurring")
  reminders : LegibleReminders ((renamed taskKeys raw).at? "reminders")
  subtasks : Walkable ((renamed taskKeys raw).at? "subtasks")

theorem migrate_eq (raw : Entries) : migrate raw = do
    let es ← ((((((Except.ok (readTitle (renamed taskKeys raw)) >>= readTags)
      >>= fun es => readTimeAt "created_at" (readDone es)) >>= readTimeAt "due_date") >>= readTimeAt "start_time")
      >>= readRule) >>= readReminders) >>= readSubtasks
    return dropBlank "notes" (dropBlank "project" (dropBlank "priority" es)) := by
  simp only [bind_assoc]
  rfl

theorem exists_migrate_iff : (∃ es, migrate raw = .ok es) ↔ Legible raw := by
  have hTitle : Passed ["title", "text"] (renamed taskKeys raw) (.ok (readTitle (renamed taskKeys raw))) True :=
    ⟨iff_of_true ⟨_, rfl⟩ trivial, fun _ h => Except.ok.inj h ▸ edits_readTitle _⟩
  -- Each step looks at a field that no step before it touches.
  have hTags := hTitle.step step_readTags (by decide)
  have hCreated := hTags.step step_readCreated (by decide)
  have hDue := hCreated.step (step_readTimeAt "due_date") (by decide)
  have hStart := hDue.step (step_readTimeAt "start_time") (by decide)
  have hRule := hStart.step step_readRule (by decide)
  have hReminders := hRule.step step_readReminders (by decide)
  have hSubtasks := hReminders.step step_readSubtasks (by decide)
  rw [migrate_eq, Attempt.exists_bind_pure, hSubtasks.succeeds]
  constructor
  · rintro ⟨⟨⟨⟨⟨⟨⟨_, hTags⟩, hCreated⟩, hDue⟩, hStart⟩, hRule⟩, hReminders⟩, hSubtasks⟩
    exact ⟨hTags, hCreated, hDue, hStart, hRule, hReminders, hSubtasks⟩
  · rintro ⟨hTags, hCreated, hDue, hStart, hRule, hReminders, hSubtasks⟩
    exact ⟨⟨⟨⟨⟨⟨⟨trivial, hTags⟩, hCreated⟩, hDue⟩, hStart⟩, hRule⟩, hReminders⟩, hSubtasks⟩

end Agenda.Legacy
