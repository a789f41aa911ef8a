import Agenda.Proofs.Book.Legible
import Agenda.Proofs.Task.Stored

/-! # The present form of stored tasks

Bringing a stored task to its present form decides each field on its own, by what stood under its
keys, and leaves nothing that it would change again, so the present form is a normal form. A task
that was stored by now has nearly that form: only the flag for what is done goes, since the status
says the same, and blank fields are left out.
-/

namespace Agenda.Legacy

open Entries Value

variable {es es' raw : Entries} {key : String} {v w : Value}

/-! ## Steps that change nothing -/

theorem renamed_of_nodup {keys : List (String × String)} (hKeys : ∀ k ∈ es.map (·.1), keys.lookup k = none)
    (hNodup : (es.map (·.1)).Nodup) : renamed keys es = es := by
  have hSame : es.map (fun e => ((keys.lookup e.1).getD e.1, e.2)) = es := by
    refine (List.map_congr_left fun e he => ?_).trans (List.map_id es)
    have hKey : keys.lookup e.1 = none := hKeys e.1 (List.mem_map_of_mem he)
    simp [hKey]
  exact (congrArg Entries.ofPairs hSame).trans (ofPairs_of_nodup hNodup)

theorem readTitle_of_get? (hText : es.get? "text" = none) : readTitle es = es := by
  rw [readTitle, hText]
  exact erase_of_get? hText

theorem readTags_of_get? {vs : List Value} (hTags : es.get? "tags" = some (.list vs))
    (hTag : es.get? "tag" = none) : readTags es = .ok es := by
  have hTagsAt : es.at? "tags" = .list vs := by rw [at?, hTags]; rfl
  have hTagAt : es.at? "tag" = .null := by rw [at?, hTag]; rfl
  rw [readTags, hTagsAt, itemsOf_list, Attempt.ok_bind, hTagAt, erase_of_get? hTag]
  exact congrArg Except.ok (insert_of_get? hTags)

theorem readDone_of_get? {b : Bool} (hDone : es.get? "done" = some (.bool b))
    (hStatus : b = true → isPending (es.get? "status") = false) : readDone es = es.erase "done" := by
  unfold readDone
  rw [hDone]
  cases b with
  | false => rfl
  | true => simp [hStatus rfl]

theorem readTime_of_thousandth {v : Value} (h : thousandth v = none) : readTime v = .ok v := by
  cases v <;> first | rfl | cases h

theorem readTimeAt_of_get? (h : ∀ v, es.get? key = some v → thousandth v = none) : readTimeAt key es = .ok es := by
  unfold readTimeAt
  split
  · rename_i v hGet
    rw [readTime_of_thousandth (h v hGet), Attempt.ok_bind]
    exact congrArg Except.ok (insert_of_get? hGet)
  · rfl

theorem readRule_of_get? (h : ∀ rule, es.get? "recurring" = some (.object rule) →
    renamed ruleKeys rule = rule ∧ readTimeAt "end_date" rule = .ok rule) : readRule es = .ok es := by
  unfold readRule
  split
  · rename_i rule hGet
    obtain ⟨hRenamed, hEnd⟩ := h rule hGet
    rw [hRenamed, hEnd, Attempt.ok_bind]
    exact congrArg Except.ok (insert_of_get? hGet)
  · rfl

theorem readReminders_of_get? {vs : List Value} (hReminders : es.get? "reminders" = some (.list vs))
    (h : ∀ v ∈ vs, ∃ part w, v = .object part ∧ Entries.get? part "time" = some w ∧ thousandth w = none) :
    readReminders es = .ok es := by
  have hAt : es.at? "reminders" = .list vs := by rw [at?, hReminders]; rfl
  have hRead : (objects vs).mapM readReminder = .ok vs := by
    rw [Attempt.mapM_eq_ok]
    clear hReminders hAt
    induction vs with
    | nil => exact .nil
    | cons v vs ih =>
      obtain ⟨⟨part, w, rfl, hTime, hStays⟩, hRest⟩ := List.forall_mem_cons.mp h
      refine .cons ?_ (ih hRest)
      rw [readReminder, at?, hTime, Option.getD_some, readTime_of_thousandth hStays, Attempt.ok_bind,
        insert_of_get? hTime]
      rfl
  rw [readReminders, hAt, itemsOf_list, Attempt.ok_bind, hRead, Attempt.ok_bind]
  exact congrArg Except.ok (insert_of_get? hReminders)

theorem map_objects {vs : List Value} (h : ∀ v ∈ vs, ∃ part, v = .object part) : (objects vs).map .object = vs := by
  induction vs with
  | nil => rfl
  | cons v vs ih =>
    obtain ⟨⟨part, rfl⟩, hRest⟩ := List.forall_mem_cons.mp h
    exact congrArg (Value.object part :: ·) (ih hRest)

theorem readSubtasks_of_get? {vs : List Value} (hSubtasks : es.get? "subtasks" = some (.list vs))
    (h : ∀ v ∈ vs, ∃ part, v = .object part) : readSubtasks es = .ok es := by
  have hAt : es.at? "subtasks" = .list vs := by rw [at?, hSubtasks]; rfl
  rw [readSubtasks, hAt, itemsOf_list, Attempt.ok_bind, map_objects h]
  exact congrArg Except.ok (insert_of_get? hSubtasks)

theorem readDone_of_absent (hDone : es.get? "done" = none) : readDone es = es := by
  rw [readDone, hDone]
  exact erase_of_get? hDone

/-! ## Blank fields -/

theorem edits_dropBlank (key : String) (es : Entries) : Edits [key] es (dropBlank key es) := by
  unfold dropBlank
  split
  · exact edits_erase _ _
  · exact .refl

theorem get?_dropBlank (key : String) (es : Entries) :
    (dropBlank key es).get? key = if isBlank (es.at? key) then none else es.get? key := by
  unfold dropBlank
  split
  · rw [get?_erase, if_pos rfl]
  · rfl

theorem dropBlank_of_absent (h : isBlank (es.at? key) = true → es.get? key = none) : dropBlank key es = es := by
  unfold dropBlank
  split
  · rename_i hBlank
    exact erase_of_get? (h hBlank)
  · rfl

def dropBlanks (es : Entries) : Entries :=
  dropBlank "notes" (dropBlank "project" (dropBlank "priority" es))

theorem edits_dropBlanks (es : Entries) : Edits ["priority", "project", "notes"] es (dropBlanks es) :=
  ((edits_dropBlank _ _).trans (edits_dropBlank _ _)).trans (edits_dropBlank _ _)

theorem get?_dropBlanks (es : Entries) (hKey : key ∈ ["priority", "project", "notes"]) :
    (dropBlanks es).get? key = if isBlank (es.at? key) then none else es.get? key := by
  have hNotes := fun es : Entries => (edits_dropBlank "notes" es).agreeBut key
  have hProject := fun es : Entries => (edits_dropBlank "project" es).agreeBut key
  have hPriority := fun es : Entries => (edits_dropBlank "priority" es).agreeBut key
  simp only [List.mem_cons, List.not_mem_nil, or_false] at hKey hNotes hProject hPriority
  rw [dropBlanks]
  rcases hKey with rfl | rfl | rfl
  · rw [hNotes _ (by decide), hProject _ (by decide), get?_dropBlank]
  · rw [hNotes _ (by decide), get?_dropBlank, at?, hPriority _ (by decide), at?]
  · rw [get?_dropBlank, at?, hProject _ (by decide), hPriority _ (by decide), at?]

/-! ## Keys -/

/-- No key twice, and none that has another name now. -/
structure Keyed (keys : List (String × String)) (es : Entries) : Prop where
  nodup : (es.map (·.1)).Nodup
  present : ∀ k ∈ es.map (·.1), keys.lookup k = none

section Keyed

variable {keys : List (String × String)}

theorem mem_of_lookup {k k' : String} (h : keys.lookup k = some k') : (k, k') ∈ keys := by
  obtain ⟨_, _, hParts, _⟩ := List.lookup_eq_some_iff.mp h
  exact hParts ▸ List.mem_append_cons_self

theorem Keyed.renamed_eq (h : Keyed keys es) : renamed keys es = es :=
  renamed_of_nodup h.present h.nodup

theorem Keyed.insert (h : Keyed keys es) (hKey : keys.lookup key = none) (v : Value) : Keyed keys (es.insert key v) where
  nodup := nodup_insert h.nodup key v
  present k hk := by
    obtain ⟨e, he, rfl⟩ := List.mem_map.mp hk
    rcases mem_insert he with rfl | he
    · exact hKey
    · exact h.present e.1 (List.mem_map_of_mem he)

theorem Keyed.erase (h : Keyed keys es) (key : String) : Keyed keys (es.erase key) where
  nodup := h.nodup.sublist (List.filter_sublist.map _)
  present k hk := h.present k ((List.filter_sublist.map _).subset hk)

theorem keyed_renamed (hKeys : ∀ p ∈ keys, keys.lookup p.2 = none) (es : Entries) : Keyed keys (renamed keys es) := by
  have hName : ∀ k, keys.lookup ((keys.lookup k).getD k) = none := by
    intro k
    cases hLookup : keys.lookup k with
    | none => exact hLookup
    | some k' => exact hKeys (k, k') (mem_of_lookup hLookup)
  -- The entries are written one after the other.
  suffices hFold : ∀ acc, Keyed keys acc →
      Keyed keys ((es.map fun e => ((keys.lookup e.1).getD e.1, e.2)).foldl (fun es p => es.insert p.1 p.2) acc) by
    exact hFold [] ⟨.nil, nofun⟩
  induction es with
  | nil => exact fun _ h => h
  | cons e es ih => exact fun acc h => ih _ (h.insert (hName e.1) e.2)

end Keyed

/-! ## Entries in the present form -/

/-- Nothing is left that bringing entries to the present form would change. -/
structure Present (es : Entries) : Prop where
  keyed : Keyed taskKeys es
  text : es.get? "text" = none
  tag : es.get? "tag" = none
  tags : ∃ vs, es.get? "tags" = some (.list vs)
  done : es.get? "done" = none
  times : ∀ key ∈ ["created_at", "due_date", "start_time"], ∀ v, es.get? key = some v → thousandth v = none
  rule : ∀ rule, es.get? "recurring" = some (.object rule) →
    renamed ruleKeys rule = rule ∧ readTimeAt "end_date" rule = .ok rule
  reminders : ∃ vs, es.get? "reminders" = some (.list vs) ∧
    ∀ v ∈ vs, ∃ part w, v = .object part ∧ Entries.get? part "time" = some w ∧ thousandth w = none
  subtasks : ∃ vs, es.get? "subtasks" = some (.list vs) ∧ ∀ v ∈ vs, ∃ part, v = .object part
  blank : ∀ key ∈ ["priority", "project", "notes"], isBlank (es.at? key) = true → es.get? key = none

theorem migrate_of_present (h : Present es) : migrate es = .ok es := by
  obtain ⟨tags, hTags⟩ := h.tags
  obtain ⟨reminders, hReminders, hParts⟩ := h.reminders
  obtain ⟨subtasks, hSubtasks, hObjects⟩ := h.subtasks
  rw [migrate_eq, h.keyed.renamed_eq, readTitle_of_get? h.text, Attempt.ok_bind, readTags_of_get? hTags h.tag,
    Attempt.ok_bind, readDone_of_absent h.done, readTimeAt_of_get? (h.times "created_at" (by decide)), Attempt.ok_bind,
    readTimeAt_of_get? (h.times "due_date" (by decide)), Attempt.ok_bind,
    readTimeAt_of_get? (h.times "start_time" (by decide)), Attempt.ok_bind, readRule_of_get? h.rule, Attempt.ok_bind,
    readReminders_of_get? hReminders hParts, Attempt.ok_bind, readSubtasks_of_get? hSubtasks hObjects, Attempt.ok_bind,
    dropBlank_of_absent (h.blank "priority" (by decide)), dropBlank_of_absent (h.blank "project" (by decide)),
    dropBlank_of_absent (h.blank "notes" (by decide))]
  rfl

/-! ## What becomes of each field -/

/-- The tags with a single tag in front, unless it is absent or among them. -/
def tagged (tag : Value) (tags : List Value) : List Value :=
  if tag.truthy && !tags.any (tag.same ·) then tag :: tags else tags

def Completes (es : Entries) : Prop :=
  es.get? "done" = some (.bool true) ∧ isPending (es.get? "status") = true

/-- A rule under its present keys, with its end as a moment; anything else stays. -/
inductive RuleRead : Value → Value → Prop
  | rule {rule rule' : Entries} (h : readTimeAt "end_date" (renamed ruleKeys rule) = .ok rule') :
    RuleRead (.object rule) (.object rule')
  | other {v : Value} (h : ∀ rule, v ≠ .object rule) : RuleRead v v

/-- The present form of entries that stand under their present keys, field by field. -/
structure Migrated (es es' : Entries) : Prop where
  keyed : Keyed taskKeys es'
  text : es'.get? "text" = none
  tag : es'.get? "tag" = none
  done : es'.get? "done" = none
  title : es'.get? "title" = (es.get? "title").or (es.get? "text")
  tags : ∃ vs, itemsOf (es.at? "tags") = .ok vs ∧ es'.get? "tags" = some (.list (tagged (es.at? "tag") vs))
  status : Completes es ∧ es'.get? "status" = some (.str Status.completed.name) ∨
    ¬ Completes es ∧ es'.get? "status" = es.get? "status"
  times : ∀ key ∈ ["created_at", "due_date", "start_time"],
    Option.Rel (fun v w => readTime v = .ok w) (es.get? key) (es'.get? key)
  rule : Option.Rel RuleRead (es.get? "recurring") (es'.get? "recurring")
  reminders : ∃ vs ws, itemsOf (es.at? "reminders") = .ok vs ∧ (objects vs).mapM readReminder = .ok ws ∧
    es'.get? "reminders" = some (.list ws)
  subtasks : ∃ vs, itemsOf (es.at? "subtasks") = .ok vs ∧
    es'.get? "subtasks" = some (.list ((objects vs).map .object))
  blank : ∀ key ∈ ["priority", "project", "notes"],
    es'.get? key = if isBlank (es.at? key) then none else es.get? key
  rest : ∀ key ∈ ["id", "estimated_duration_min", "recurrence_source_id"], es'.get? key = es.get? key

/-! ### Steps -/

theorem get?_readTitle (es : Entries) : (readTitle es).get? "title" = (es.get? "title").or (es.get? "text") ∧
    (readTitle es).get? "text" = none := by
  unfold readTitle
  extract_lets titled
  refine ⟨?_, by rw [get?_erase, if_pos rfl]⟩
  rw [get?_erase, if_neg (by decide)]
  subst titled
  cases hText : es.get? "text" with
  | none => simp
  | some v =>
    dsimp only
    rw [has]
    cases hTitle : es.get? "title" with
    | none => simp [get?_insert]
    | some w => simp [hTitle]

theorem get?_readTags (h : readTags es = .ok es') : es'.get? "tag" = none ∧
    ∃ vs, itemsOf (es.at? "tags") = .ok vs ∧ es'.get? "tags" = some (.list (tagged (es.at? "tag") vs)) := by
  obtain ⟨vs, hItems, h⟩ := Attempt.bind_eq_ok.mp h
  cases Attempt.pure_eq_ok.mp h
  refine ⟨?_, vs, hItems, ?_⟩
  · rw [get?_insert, if_neg (by decide), get?_erase, if_pos rfl]
  · rw [get?_insert, if_pos rfl]
    rfl

theorem get?_readDone (es : Entries) : (readDone es).get? "done" = none ∧
    (Completes es ∧ (readDone es).get? "status" = some (.str Status.completed.name) ∨
      ¬ Completes es ∧ (readDone es).get? "status" = es.get? "status") := by
  unfold readDone
  extract_lets completes rest
  have hCompletes : completes = true ↔ Completes es := by
    subst completes
    rw [Completes]
    split
    · rename_i b hDone
      simp [hDone]
    · rename_i hNot
      simp only [Bool.false_eq_true, false_iff, not_and]
      exact fun hDone => absurd hDone (hNot true)
  have hRest : rest.get? "done" = none ∧ rest.get? "status" = es.get? "status" :=
    ⟨by rw [get?_erase, if_pos rfl], by rw [get?_erase, if_neg (by decide)]⟩
  rw [← hCompletes]
  cases completes with
  | true => simp [get?_insert, hRest.1]
  | false => simp [hRest]

theorem rel_readTimeAt (h : readTimeAt key es = .ok es') :
    Option.Rel (fun v w => readTime v = .ok w) (es.get? key) (es'.get? key) := by
  unfold readTimeAt at h
  split at h
  · rename_i v hGet
    obtain ⟨w, hRead, h⟩ := Attempt.bind_eq_ok.mp h
    cases Attempt.pure_eq_ok.mp h
    rw [hGet, get?_insert, if_pos rfl]
    exact .some hRead
  · rename_i hGet
    cases h
    rw [hGet]
    exact .none

theorem rel_readRule (h : readRule es = .ok es') : Option.Rel RuleRead (es.get? "recurring") (es'.get? "recurring") := by
  unfold readRule at h
  split at h
  · rename_i rule hGet
    obtain ⟨rule', hRead, h⟩ := Attempt.bind_eq_ok.mp h
    cases Attempt.pure_eq_ok.mp h
    rw [hGet, get?_insert, if_pos rfl]
    exact .some (.rule hRead)
  · rename_i hNot
    cases h
    cases hGet : es.get? "recurring" with
    | none => exact .none
    | some v =>
      refine .some (.other ?_)
      rintro rule rfl
      exact hNot rule hGet

theorem get?_readReminders (h : readReminders es = .ok es') :
    ∃ vs ws, itemsOf (es.at? "reminders") = .ok vs ∧ (objects vs).mapM readReminder = .ok ws ∧
      es'.get? "reminders" = some (.list ws) := by
  obtain ⟨vs, hItems, h⟩ := Attempt.bind_eq_ok.mp h
  obtain ⟨ws, hRead, h⟩ := Attempt.bind_eq_ok.mp h
  cases Attempt.pure_eq_ok.mp h
  exact ⟨vs, ws, hItems, hRead, by rw [get?_insert, if_pos rfl]⟩

theorem get?_readSubtasks (h : readSubtasks es = .ok es') :
    ∃ vs, itemsOf (es.at? "subtasks") = .ok vs ∧
      es'.get? "subtasks" = some (.list ((objects vs).map .object)) := by
  obtain ⟨vs, hItems, h⟩ := Attempt.bind_eq_ok.mp h
  cases Attempt.pure_eq_ok.mp h
  exact ⟨vs, hItems, by rw [get?_insert, if_pos rfl]⟩

/-! ### All steps -/

theorem Keyed.edits {names : List (String × String)} {keys : List String} (h : Keyed names es)
    (hKeys : ∀ k ∈ keys, names.lookup k = none) (hEdits : Edits keys es es') : Keyed names es' := by
  induction hEdits with
  | refl => exact h
  | insert hKey v _ ih => exact ih.insert (hKeys _ hKey) v
  | erase _ _ ih => exact ih.erase _

theorem migrated_of_migrate (h : migrate raw = .ok es) : Migrated (renamed taskKeys raw) es := by
  rw [migrate_eq] at h
  -- the entries behind each step, from the last one to the first
  obtain ⟨es₈, h, hEnd⟩ := Attempt.bind_eq_ok.mp h
  obtain ⟨es₇, h, hSubtasks⟩ := Attempt.bind_eq_ok.mp h
  obtain ⟨es₆, h, hReminders⟩ := Attempt.bind_eq_ok.mp h
  obtain ⟨es₅, h, hRule⟩ := Attempt.bind_eq_ok.mp h
  obtain ⟨es₄, h, hStart⟩ := Attempt.bind_eq_ok.mp h
  obtain ⟨es₃, h, hDue⟩ := Attempt.bind_eq_ok.mp h
  obtain ⟨es₂, h, hCreated⟩ := Attempt.bind_eq_ok.mp h
  obtain ⟨es₁, h, hTags⟩ := Attempt.bind_eq_ok.mp h
  cases h
  obtain rfl : dropBlanks es₈ = es := Attempt.pure_eq_ok.mp hEnd
  set es₀ := renamed taskKeys raw
  -- what each step leaves alone, counted from the first entries on and from the last ones back
  have hFront₁ := edits_readTitle es₀
  have hFront₂ := hFront₁.trans (step_readTags.edits _ _ hTags)
  have hFront₃ := hFront₂.trans (step_readCreated.edits _ _ hCreated)
  have hFront₄ := hFront₃.trans ((step_readTimeAt _).edits _ _ hDue)
  have hFront₅ := hFront₄.trans ((step_readTimeAt _).edits _ _ hStart)
  have hFront₆ := hFront₅.trans (step_readRule.edits _ _ hRule)
  have hFront₇ := hFront₆.trans (step_readReminders.edits _ _ hReminders)
  have hFront₈ := hFront₇.trans (step_readSubtasks.edits _ _ hSubtasks)
  have hBack₈ := edits_dropBlanks es₈
  have hBack₇ := (step_readSubtasks.edits _ _ hSubtasks).trans hBack₈
  have hBack₆ := (step_readReminders.edits _ _ hReminders).trans hBack₇
  have hBack₅ := (step_readRule.edits _ _ hRule).trans hBack₆
  have hBack₄ := ((step_readTimeAt _).edits _ _ hStart).trans hBack₅
  have hBack₃ := ((step_readTimeAt _).edits _ _ hDue).trans hBack₄
  have hBackDone := ((step_readTimeAt _).edits _ _ hCreated).trans hBack₃
  have hBack₂ := (step_readCreated.edits _ _ hCreated).trans hBack₃
  have hBack₁ := (step_readTags.edits _ _ hTags).trans hBack₂
  have hTitleRead := get?_readTitle es₀
  have hTagsRead := get?_readTags hTags
  have hDoneRead := get?_readDone es₂
  have hCreatedRead := rel_readTimeAt hCreated
  have hDueRead := rel_readTimeAt hDue
  have hStartRead := rel_readTimeAt hStart
  have hRuleRead := rel_readRule hRule
  have hRemindersRead := get?_readReminders hReminders
  have hSubtasksRead := get?_readSubtasks hSubtasks
  rw [hFront₁.agreeBut.at? (by decide), hFront₁.agreeBut.at? (by decide)] at hTagsRead
  rw [Completes, hFront₂.agreeBut "done" (by decide), hFront₂.agreeBut "status" (by decide), ← Completes] at hDoneRead
  rw [(edits_readDone es₂).agreeBut "created_at" (by decide), hFront₂.agreeBut "created_at" (by decide)] at hCreatedRead
  rw [hFront₃.agreeBut "due_date" (by decide)] at hDueRead
  rw [hFront₄.agreeBut "start_time" (by decide)] at hStartRead
  rw [hFront₅.agreeBut "recurring" (by decide)] at hRuleRead
  rw [hFront₆.agreeBut.at? (by decide)] at hRemindersRead
  rw [hFront₇.agreeBut.at? (by decide)] at hSubtasksRead
  exact {
    keyed := (keyed_renamed (by decide) raw).edits (by decide) (hFront₈.trans hBack₈)
    text := by rw [hBack₁.agreeBut "text" (by decide), hTitleRead.2]
    tag := by rw [hBack₂.agreeBut "tag" (by decide), hTagsRead.1]
    done := by rw [hBackDone.agreeBut "done" (by decide), hDoneRead.1]
    title := by rw [hBack₁.agreeBut "title" (by decide), hTitleRead.1]
    tags := by rw [hBack₂.agreeBut "tags" (by decide)]; exact hTagsRead.2
    status := by rw [hBackDone.agreeBut "status" (by decide)]; exact hDoneRead.2
    times := by
      simp only [List.forall_mem_cons, List.not_mem_nil, false_implies, implies_true, and_true]
      rw [hBack₃.agreeBut "created_at" (by decide), hBack₄.agreeBut "due_date" (by decide),
        hBack₅.agreeBut "start_time" (by decide)]
      exact ⟨hCreatedRead, hDueRead, hStartRead⟩
    rule := by rw [hBack₆.agreeBut "recurring" (by decide)]; exact hRuleRead
    reminders := by rw [hBack₇.agreeBut "reminders" (by decide)]; exact hRemindersRead
    subtasks := by rw [hBack₈.agreeBut "subtasks" (by decide)]; exact hSubtasksRead
    blank := by
      intro key hKey
      rw [get?_dropBlanks _ hKey]
      have hKept : es₈.get? key = es₀.get? key := by
        simp only [List.mem_cons, List.not_mem_nil, or_false] at hKey
        rcases hKey with rfl | rfl | rfl <;> exact hFront₈.agreeBut _ (by decide)
      rw [at?, hKept, at?]
    rest := by
      intro key hKey
      simp only [List.mem_cons, List.not_mem_nil, or_false] at hKey
      rcases hKey with rfl | rfl | rfl <;> exact (hFront₈.trans hBack₈).agreeBut _ (by decide) }

/-! ## A normal form -/

theorem exists_of_rel_some {α β : Type} {R : α → β → Prop} {a : Option α} {b : β} (h : Option.Rel R a (some b)) :
    ∃ a', a = some a' ∧ R a' b := by
  cases h with
  | some h => exact ⟨_, rfl, h⟩

theorem exists_of_some_rel {α β : Type} {R : α → β → Prop} {a : α} {b : Option β} (h : Option.Rel R (some a) b) :
    ∃ b', b = some b' ∧ R a b' := by
  cases h with
  | some h => exact ⟨_, rfl, h⟩

theorem thousandth_of_readTime (h : readTime v = .ok w) : thousandth w = none := by
  unfold readTime at h
  split at h
  · cases h
  · obtain ⟨m, _, rfl⟩ := Attempt.map_eq_ok.mp h
    rfl
  · rename_i hNone
    cases h
    exact hNone

theorem thousandth_of_readTimeAt (h : readTimeAt key es = .ok es') : ∀ w, es'.get? key = some w → thousandth w = none := by
  intro w hw
  have hRel := rel_readTimeAt h
  rw [hw] at hRel
  obtain ⟨v, _, hRead⟩ := exists_of_rel_some hRel
  exact thousandth_of_readTime hRead

theorem rule_of_ruleRead {rule : Entries} (h : RuleRead v (.object rule)) :
    renamed ruleKeys rule = rule ∧ readTimeAt "end_date" rule = .ok rule := by
  cases h with
  | @rule old _ h =>
    have hKeyed := (@keyed_renamed ruleKeys (by decide) old).edits (by decide) ((step_readTimeAt _).edits _ _ h)
    exact ⟨hKeyed.renamed_eq, readTimeAt_of_get? (thousandth_of_readTimeAt h)⟩
  | other h => exact absurd rfl (h rule)

theorem Migrated.present (h : Migrated es es') : Present es' where
  keyed := h.keyed
  text := h.text
  tag := h.tag
  tags := h.tags.elim fun _ hTags => ⟨_, hTags.2⟩
  done := h.done
  times := by
    intro key hKey w hw
    have hRel := h.times key hKey
    rw [hw] at hRel
    obtain ⟨v, _, hRead⟩ := exists_of_rel_some hRel
    exact thousandth_of_readTime hRead
  rule := by
    intro rule hRule
    have hRel := h.rule
    rw [hRule] at hRel
    obtain ⟨v, _, hRead⟩ := exists_of_rel_some hRel
    exact rule_of_ruleRead hRead
  reminders := by
    obtain ⟨vs, ws, _, hRead, hReminders⟩ := h.reminders
    refine ⟨ws, hReminders, ?_⟩
    intro w hw
    obtain ⟨part, _, hPart⟩ := Attempt.exists_of_mem_paired (Attempt.mapM_eq_ok.mp hRead) hw
    obtain ⟨time, hTime, hPart⟩ := Attempt.bind_eq_ok.mp hPart
    cases Attempt.pure_eq_ok.mp hPart
    exact ⟨_, time, rfl, by rw [get?_insert, if_pos rfl], thousandth_of_readTime hTime⟩
  subtasks := by
    obtain ⟨vs, _, hSubtasks⟩ := h.subtasks
    refine ⟨_, hSubtasks, ?_⟩
    intro v hv
    obtain ⟨part, _, rfl⟩ := List.mem_map.mp hv
    exact ⟨part, rfl⟩
  blank := by
    intro key hKey hBlank
    have hGet := h.blank key hKey
    rw [hGet]
    split
    · rfl
    · rename_i hNot
      rw [if_neg hNot] at hGet
      rw [at?, hGet, ← at?] at hBlank
      exact absurd hBlank hNot

/-- The present form of a stored task is its own present form. -/
theorem migrate_migrate (h : migrate raw = .ok es) : migrate es = .ok es :=
  migrate_of_present (migrated_of_migrate h).present

/-! ## Stored tasks -/

variable {t : Task}

theorem thousandth_ofMoment? (m : Option Moment) : thousandth (ofMoment? m).toJson = none := by
  cases m <;> rfl

theorem readRule_stored (t : Task) : readRule (toJsonEntries t.fields) = .ok (toJsonEntries t.fields) := by
  apply readRule_of_get?
  intro rule hGet
  have hStored : Entries.get? (toJsonEntries t.fields) "recurring" =
      some ((t.recurrence.map Recurrence.data).getD .null).toJson := rfl
  rw [hStored, Option.some.injEq] at hGet
  cases hRule : t.recurrence with
  | none =>
    rw [hRule] at hGet
    cases hGet
  | some r =>
    rw [hRule] at hGet
    have hKeys : rule.map (·.1) = ["type", "interval", "days_of_week", "end_date"] := by
      cases hGet
      rfl
    have hEnd : Entries.get? rule "end_date" = some (ofMoment? r.endDate).toJson := by
      cases hGet
      rfl
    refine ⟨renamed_of_nodup ?_ ?_, readTimeAt_of_get? ?_⟩
    · rw [hKeys]
      decide
    · rw [hKeys]
      decide
    · intro v hv
      rw [hEnd] at hv
      cases hv
      exact thousandth_ofMoment? _

theorem readReminders_stored (t : Task) :
    readReminders (toJsonEntries t.fields) = .ok (toJsonEntries t.fields) := by
  have hGet : Entries.get? (toJsonEntries t.fields) "reminders" =
      some (.list (toJsonItems (t.reminders.map Reminder.data))) := rfl
  apply readReminders_of_get? hGet
  rw [toJsonItems_eq, List.map_map]
  intro v hv
  obtain ⟨r, _, rfl⟩ := List.mem_map.mp hv
  exact ⟨_, _, rfl, rfl, rfl⟩

theorem readSubtasks_stored (t : Task) :
    readSubtasks (toJsonEntries t.fields) = .ok (toJsonEntries t.fields) := by
  have hGet : Entries.get? (toJsonEntries t.fields) "subtasks" =
      some (.list (toJsonItems (t.subtasks.map Subtask.data))) := rfl
  apply readSubtasks_of_get? hGet
  rw [toJsonItems_eq, List.map_map]
  intro v hv
  obtain ⟨s, _, rfl⟩ := List.mem_map.mp hv
  exact ⟨_, rfl⟩

theorem readTimeAt_stored {m : Option Moment} (hGet : t.fields.get? key = some (ofMoment? m)) :
    readTimeAt key (toJsonEntries t.fields) = .ok (toJsonEntries t.fields) := by
  apply readTimeAt_of_get?
  intro v hv
  rw [get?_toJsonEntries, hGet] at hv
  cases hv
  exact thousandth_ofMoment? m

theorem writtenIn_dropBlanks (hProject : t.project ≠ some "") : t.WrittenIn (dropBlanks (toJsonEntries t.fields)) where
  fields key hKey := by
    rw [(edits_dropBlanks _).agreeBut key hKey, get?_toJsonEntries]
  priority := by
    have hGet : Entries.get? (toJsonEntries t.fields) "priority" =
        some (ofStr? (t.priority.map Priority.name)).toJson := rfl
    rw [get?_dropBlanks _ (by decide), at?, hGet]
    cases t.priority with
    | none => rfl
    | some p => cases p <;> rfl
  project := by
    have hGet : Entries.get? (toJsonEntries t.fields) "project" = some (ofStr? t.project).toJson := rfl
    rw [get?_dropBlanks _ (by decide), at?, hGet]
    cases h : t.project with
    | none => rfl
    | some name =>
      have hName : name ≠ "" := fun hEmpty => hProject (h.trans (congrArg some hEmpty))
      simp [ofStr?, toJson, isBlank, hName]
  notes := by
    have hGet : Entries.get? (toJsonEntries t.fields) "notes" = some (.str t.notes) := rfl
    rw [get?_dropBlanks _ (by decide), at?, hGet]
    simp [isBlank]

theorem migrate_stored_eq (t : Task) :
    migrate (toJsonEntries (t.fields ++ [("done", .bool t.done)])) = .ok (dropBlanks (toJsonEntries t.fields)) := by
  generalize hRaw : toJsonEntries (t.fields ++ [("done", .bool t.done)]) = raw
  have hKeys : raw.map (·.1) = ["id", "title", "notes", "tags", "priority", "project", "status", "created_at",
      "due_date", "start_time", "estimated_duration_min", "subtasks", "recurring", "reminders",
      "recurrence_source_id", "done"] := by
    subst hRaw
    rfl
  have hRenamed : renamed taskKeys raw = raw := by
    apply renamed_of_nodup
    · rw [hKeys]
      decide
    · rw [hKeys]
      decide
  have hTitle : readTitle raw = raw := by
    apply readTitle_of_get?
    subst hRaw
    rfl
  have hTags : readTags raw = .ok raw := by
    subst hRaw
    exact readTags_of_get? rfl rfl
  have hDone : readDone raw = toJsonEntries t.fields := by
    have hStatus : t.done = true → isPending (Entries.get? raw "status") = false := by
      intro hCompleted
      have hGet : Entries.get? raw "status" = some (.str t.status.name) := by
        subst hRaw
        rfl
      rw [hGet, eq_of_beq hCompleted]
      rfl
    subst hRaw
    rw [readDone_of_get? rfl hStatus]
    rfl
  have hCreated : readTimeAt "created_at" (toJsonEntries t.fields) = .ok (toJsonEntries t.fields) :=
    readTimeAt_stored (m := some t.createdAt) rfl
  rw [migrate_eq, hRenamed, hTitle, Attempt.ok_bind, hTags, Attempt.ok_bind, hDone, hCreated, Attempt.ok_bind,
    readTimeAt_stored rfl, Attempt.ok_bind, readTimeAt_stored rfl, Attempt.ok_bind, readRule_stored, Attempt.ok_bind,
    readReminders_stored, Attempt.ok_bind, readSubtasks_stored, Attempt.ok_bind]
  rfl

theorem migrate_stored (hProject : t.project ≠ some "") :
    ∃ es, migrate (toJsonEntries (t.fields ++ [("done", .bool t.done)])) = .ok es ∧ t.WrittenIn es :=
  ⟨_, migrate_stored_eq t, writtenIn_dropBlanks hProject⟩

end Agenda.Legacy
