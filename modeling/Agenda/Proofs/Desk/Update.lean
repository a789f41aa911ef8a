import Agenda.Proofs.Desk.Mutation
import Agenda.Proofs.Desk.Project

/-! # Updates

An update validates the whole task again, so it changes nothing but the fields that it names as long
as validation leaves a validated task as it is. It does, up to the tags: a blank behind the signs in
front of a tag is only trimmed the next time.
-/

namespace Agenda

open Value

/-! ## Tasks validated again -/

theorem Subtask.decode_data {s : Subtask} (hText : s.text ≠ "") (id : String) :
    decodeEntries (decode id) s.data = .ok s :=
  decode_toJson hText id

theorem Recurrence.decode_data {r : Recurrence} (h : r.Valid) : decodeEntries decode r.data = .ok r := by
  have hDays : decodeDays (.list (r.days.map .int)) = .ok r.days := by
    rw [← decodeDays_toJson h.increasing h.weekdays, toJson, toJsonItems_eq, List.map_map]
    rfl
  simp [data, decodeEntries, decode, withDefault, required, Entries.get?_cons, hDays, decodeOption_ofMoment?, decodeName,
    Rhythm.ofName?_name, decodeInt, h.interval, Decoded.check, Decoded.under, Decoded.and]

namespace Task

variable {t u : Task} {es : Entries} {names : List String} {now : Moment} {n : Nat}

/-- From its own fields, a valid task is read again with its tags in normal form. -/
theorem read_fields (h : t.Valid) (hTags : t.tags = names.map some) (now : Moment) (n : Nat) :
    ReadFrom now n t.fields { t with tags := (normalTags names).map some } where
  id := withDefault_of_get? rfl rfl
  title := required_of_get? rfl (decodeTitle_of_valid h)
  notes := withDefault_of_get? rfl rfl
  tags := by
    have hList : decodeList decodeStr (.list (t.tags.map ofStr?)) = .ok names := by
      rw [hTags, List.map_map]
      exact decodeList_map fun _ _ => rfl
    refine withDefault_of_get? rfl ?_
    rw [hList]
    rfl
  priority := by
    refine withDefault_of_get? rfl ?_
    cases t.priority with
    | none => rfl
    | some p => exact congrArg (Decoded.map some) (show decodeName Priority.ofName? (.str p.name) = .ok p by
        rw [decodeName, Priority.ofName?_name])
  project := withDefault_of_get? rfl (decodeOption_str_eq_ok.mpr rfl)
  status := withDefault_of_get? rfl (by rw [decodeName, Status.ofName?_name])
  createdAt := withDefault_of_get? rfl rfl
  due := withDefault_of_get? rfl (decodeOption_ofMoment? t.due)
  start := withDefault_of_get? rfl (decodeOption_ofMoment? t.start)
  minutes := by
    refine withDefault_of_get? rfl ?_
    rw [← decodeMinutes_of_valid h]
    cases t.minutes <;> rfl
  subtasks := withDefault_of_get? rfl (decodeParts_map _ fun s hs => Subtask.decode_data (h.subtasks s hs))
  recurrence := by
    refine withDefault_of_get? rfl ?_
    cases hRule : t.recurrence with
    | none => rfl
    | some r => exact congrArg (Decoded.map some) (Recurrence.decode_data (h.recurrence r hRule))
  reminders := withDefault_of_get? rfl (decodeParts_map _ fun r _ => r.decode_data)
  source := withDefault_of_get? rfl (decodeOption_str_eq_ok.mpr rfl)

theorem tags_of_decodeEntries (hTags : es.get? "tags" = some (.list (names.map .str)))
    (h : decodeEntries now n es = .ok t) : t.tags = (normalTags names).map some := by
  have hList : decodeList decodeStr (.list (names.map .str)) = .ok names := decodeList_map fun _ _ => rfl
  have hDecoded := decode_of_withDefault hTags (decodeEntries_eq_ok.mp h).tags
  rw [hList] at hDecoded
  exact (Decoded.ok.inj hDecoded).symm

/-- The tags of a task are there once each, none empty, with a sign `#` in front or with a blank
behind. No blank is in front, and validation keeps them, exactly if none of the tags that they were
made of has a blank behind the signs in front. -/
theorem tags_kept_iff (hTags : es.get? "tags" = some (.list (names.map .str)))
    (h : decodeEntries now n es = .ok t) :
    ∃ tags : List String, t.tags = tags.map some ∧ tags.Nodup ∧
      (∀ tag ∈ tags, tag ≠ "" ∧ tag.toList.head? ≠ some '#' ∧ ∀ c ∈ tag.toList.getLast?, Text.blank c = false) ∧
      ((∀ tag ∈ tags, Flush tag) ↔ ∀ name ∈ names, ¬ Gapped name) ∧
      (∀ now' n', decodeEntries now' n' t.fields = .ok { t with tags := (normalTags tags).map some }) ∧
      ∀ now' n' es' t', es'.get? "tags" = some (.list (tags.map .str)) → decodeEntries now' n' es' = .ok t' →
        (t'.tags = t.tags ↔ ∀ name ∈ names, ¬ Gapped name) := by
  have hRead := tags_of_decodeEntries hTags h
  refine ⟨normalTags names, hRead, nodup_normalTags names, ?_, flush_normalTags_iff, ?_, ?_⟩
  · intro tag ht
    obtain ⟨hName, name, _, rfl⟩ := mem_normalTags.mp ht
    exact ⟨hName, head_normalTag name, last_normalTag name⟩
  · intro now' n'
    exact decodeEntries_eq_ok.mpr (read_fields (valid_of_decodeEntries h) hRead now' n')
  · intro now' n' es' t' hAgain h'
    rw [tags_of_decodeEntries hAgain h', hRead, (List.map_injective_iff.mpr (Option.some_injective _)).eq_iff]
    exact normalTags_normalTags_iff

def gappedEntries : Entries :=
  [("id", .str "t"), ("title", .str "Pay"), ("tags", .list ([" # A", "#home"].map .str)),
    ("created_at", .moment Operation.noon)]

theorem tags_kept_gapped : ∃ t, decodeEntries Operation.noon 0 gappedEntries = .ok t ∧
    t.tags = [some " a", some "home"] ∧
    decodeEntries Operation.noon 0 t.fields = .ok { t with tags := [some "a", some "home"] } := by
  have hRead : decodeEntries Operation.noon 0 gappedEntries = .ok
      { id := "t", title := "Pay", tags := [some " a", some "home"], createdAt := Operation.noon } := by
    rfl
  have hNames : Entries.get? gappedEntries "tags" = some (.list ([" # A", "#home"].map .str)) := rfl
  obtain ⟨tags, hTags, _, _, _, hAgain, _⟩ := tags_kept_iff hNames hRead
  obtain rfl : [" a", "home"] = tags := List.map_injective_iff.mpr (Option.some_injective _) hTags
  exact ⟨_, hRead, rfl, hAgain Operation.noon 0⟩

theorem tags_gapped_not_kept : ¬ ∀ (names : List String) (es : Entries) (now : Moment) (n : Nat) (t : Task),
    es.get? "tags" = some (.list (names.map .str)) → decodeEntries now n es = .ok t →
      decodeEntries now n t.fields = .ok t := by
  intro h
  have hSame := h [" # A", "#home"] gappedEntries Operation.noon 0
    { id := "t", title := "Pay", tags := [some " a", some "home"], createdAt := Operation.noon } rfl rfl
  have hTags : ∀ t, decodeEntries Operation.noon 0
      (fields { id := "t", title := "Pay", tags := [some " a", some "home"], createdAt := Operation.noon }) = .ok t →
      t.tags = [some "a", some "home"] := by
    rintro t ⟨⟩
    rfl
  exact absurd (hTags _ hSame) (by decide)

/-! ## Fields that are named -/

/-- A valid task whose tags are in normal form. -/
structure Tidy (t : Task) : Prop extends t.Valid where
  tags : ∃ names, t.tags = names.map some ∧ normalTags names = names

theorem Tidy.read (h : t.Tidy) (now : Moment) (n : Nat) : ReadFrom now n t.fields t := by
  obtain ⟨names, hTags, hNormal⟩ := h.tags
  have hRead := read_fields h.toValid hTags now n
  rw [hNormal, ← hTags] at hRead
  exact hRead

/-- What the task holds under a key is what validation makes of the value. Keys that a request cannot
change say nothing. -/
structure Takes (t : Task) (key : String) (v : Value) : Prop where
  title : key = "title" → decodeTitle v = .ok t.title
  notes : key = "notes" → decodeStr v = .ok t.notes
  tags : key = "tags" → ((decodeList decodeStr v).map fun ts => (normalTags ts).map some) = .ok t.tags
  priority : key = "priority" → decodeOption (decodeName Priority.ofName?) v = .ok t.priority
  project : key = "project" → decodeOption decodeStr v = .ok t.project
  due : key = "due_date" → decodeOption decodeMoment v = .ok t.due
  start : key = "start_time" → decodeOption decodeMoment v = .ok t.start
  minutes : key = "estimated_duration_min" →
    decodeOption (fun v => (decodeInt v).check (1 ≤ ·)) v = .ok t.minutes
  recurrence : key = "recurring" → decodeOption (Value.decodeEntries Recurrence.decode) v = .ok t.recurrence

structure Updated (fields : Entries) (t t' : Task) : Prop where
  id : t'.id = t.id
  status : t'.status = t.status
  createdAt : t'.createdAt = t.createdAt
  subtasks : t'.subtasks = t.subtasks
  reminders : t'.reminders = t.reminders
  source : t'.source = t.source
  kept : Entries.AgreeBut (fields.map (·.1)) t.fields t'.fields
  named : ∀ p ∈ fields, t'.Takes p.1 p.2

/-- The data that an update is validated from. -/
def rewritten (t : Task) (fields : Entries) (id : String) : Entries :=
  (Entries.merge t.fields fields).insert "id" (.str id)

section Rewritten

variable {fields : Entries} {id key : String}

theorem get?_rewritten_unnamed (hId : key ≠ "id") (hKey : key ∉ fields.map (·.1)) :
    (t.rewritten fields id).get? key = Entries.get? t.fields key := by
  rw [rewritten, Entries.get?_insert, if_neg hId]
  refine Entries.get?_merge_of_notMem fun p hp hSame => hKey ?_
  exact hSame ▸ List.mem_map_of_mem hp

theorem get?_rewritten_named {v : Value} (hId : key ≠ "id") (hKeys : (fields.map (·.1)).Nodup) (hNamed : (key, v) ∈ fields) :
    (t.rewritten fields id).get? key = some v := by
  rw [rewritten, Entries.get?_insert, if_neg hId, Entries.get?_merge_of_mem hKeys hNamed]

theorem unnamed_of_editable (hFields : ∀ p ∈ fields, p.1 ∈ Web.updateKinds.map (·.1)) :
    "id" ∉ fields.map (·.1) ∧ "status" ∉ fields.map (·.1) ∧ "created_at" ∉ fields.map (·.1) ∧
      "subtasks" ∉ fields.map (·.1) ∧ "reminders" ∉ fields.map (·.1) ∧ "recurrence_source_id" ∉ fields.map (·.1) := by
  have hNot : ∀ key, key ∉ Web.updateKinds.map (·.1) → key ∉ fields.map (·.1) := by
    intro key hKey hMem
    obtain ⟨p, hp, rfl⟩ := List.mem_map.mp hMem
    exact hKey (hFields p hp)
  exact ⟨hNot _ (by decide), hNot _ (by decide), hNot _ (by decide), hNot _ (by decide), hNot _ (by decide),
    hNot _ (by decide)⟩

theorem eq_of_unnamed {α : Type} {default a b : α} {decode : Value → Decoded α} (hId : key ≠ "id")
    (hKey : key ∉ fields.map (·.1)) (hOld : withDefault t.fields key default decode = .ok a)
    (hNew : withDefault (t.rewritten fields id) key default decode = .ok b) : b = a := by
  rw [withDefault_congr (get?_rewritten_unnamed hId hKey)] at hNew
  exact Decoded.ok.inj (hNew.symm.trans hOld)

theorem title_of_unnamed (hOld : required t.fields "title" decodeTitle = .ok t.title)
    (hNew : required (t.rewritten fields id) "title" decodeTitle = .ok u.title) (hKey : "title" ∉ fields.map (·.1)) :
    u.title = t.title := by
  rw [required_congr (get?_rewritten_unnamed (by decide) hKey)] at hNew
  exact Decoded.ok.inj (hNew.symm.trans hOld)

theorem updated_of_read (hFields : ∀ p ∈ fields, p.1 ∈ Web.updateKinds.map (·.1)) (hKeys : (fields.map (·.1)).Nodup)
    (hId : t.id = id) (hOld : ReadFrom now n t.fields t) (hNew : ReadFrom now n (t.rewritten fields id) u) :
    Updated fields t u := by
  obtain ⟨hNoId, hNoStatus, hNoCreated, hNoSubtasks, hNoReminders, hNoSource⟩ := unnamed_of_editable hFields
  have hSame : u.id = t.id := by
    rw [hId]
    exact id_of_decodeEntries (by rw [rewritten, Entries.get?_insert, if_pos rfl]) (decodeEntries_eq_ok.mpr hNew)
  have hStatus := eq_of_unnamed (by decide) hNoStatus hOld.status hNew.status
  have hCreated := eq_of_unnamed (by decide) hNoCreated hOld.createdAt hNew.createdAt
  have hSubtasks := eq_of_unnamed (by decide) hNoSubtasks hOld.subtasks hNew.subtasks
  have hReminders : u.reminders = t.reminders := by
    have hLength : listLength (t.rewritten fields id) "subtasks" = listLength t.fields "subtasks" := by
      rw [listLength, listLength, get?_rewritten_unnamed (by decide) hNoSubtasks]
    have hRead := hNew.reminders
    rw [hLength] at hRead
    exact eq_of_unnamed (by decide) hNoReminders hOld.reminders hRead
  have hSource := eq_of_unnamed (by decide) hNoSource hOld.source hNew.source
  refine ⟨hSame, hStatus, hCreated, hSubtasks, hReminders, hSource, ?kept, ?named⟩
  case kept =>
    apply Entries.agreeBut_of_forall₂
    simp only [Task.fields, List.forall₂_cons, List.forall₂_nil_left_iff, true_and, and_true]
    exact ⟨fun _ => by rw [hSame],
      fun hk => by rw [title_of_unnamed hOld.title hNew.title hk],
      fun hk => by rw [eq_of_unnamed (by decide) hk hOld.notes hNew.notes],
      fun hk => by rw [eq_of_unnamed (by decide) hk hOld.tags hNew.tags],
      fun hk => by rw [eq_of_unnamed (by decide) hk hOld.priority hNew.priority],
      fun hk => by rw [eq_of_unnamed (by decide) hk hOld.project hNew.project],
      fun _ => by rw [hStatus],
      fun _ => by rw [hCreated],
      fun hk => by rw [eq_of_unnamed (by decide) hk hOld.due hNew.due],
      fun hk => by rw [eq_of_unnamed (by decide) hk hOld.start hNew.start],
      fun hk => by rw [eq_of_unnamed (by decide) hk hOld.minutes hNew.minutes],
      fun _ => by rw [hSubtasks],
      fun hk => by rw [eq_of_unnamed (by decide) hk hOld.recurrence hNew.recurrence],
      fun _ => by rw [hReminders],
      fun _ => by rw [hSource]⟩
  case named =>
    rintro ⟨key, v⟩ hNamed
    have hGet : ∀ other, key = other → other ≠ "id" → (t.rewritten fields id).get? other = some v := by
      rintro _ rfl hOther
      exact get?_rewritten_named hOther hKeys hNamed
    exact {
      title hk := decode_of_required (hGet _ hk (by decide)) hNew.title
      notes hk := decode_of_withDefault (hGet _ hk (by decide)) hNew.notes
      tags hk := decode_of_withDefault (hGet _ hk (by decide)) hNew.tags
      priority hk := decode_of_withDefault (hGet _ hk (by decide)) hNew.priority
      project hk := decode_of_withDefault (hGet _ hk (by decide)) hNew.project
      due hk := decode_of_withDefault (hGet _ hk (by decide)) hNew.due
      start hk := decode_of_withDefault (hGet _ hk (by decide)) hNew.start
      minutes hk := decode_of_withDefault (hGet _ hk (by decide)) hNew.minutes
      recurrence hk := decode_of_withDefault (hGet _ hk (by decide)) hNew.recurrence }

theorem exists_withDefault {α : Type} {default a : α} {decode : Value → Decoded α} (hId : key ≠ "id")
    (hKeys : (fields.map (·.1)).Nodup) (hOld : withDefault t.fields key default decode = .ok a)
    (hNamed : ∀ v, (key, v) ∈ fields → ∃ b, decode v = .ok b) :
    ∃ b, withDefault (t.rewritten fields id) key default decode = .ok b := by
  by_cases hKey : key ∈ fields.map (·.1)
  · obtain ⟨⟨_, v⟩, hv, rfl⟩ := List.mem_map.mp hKey
    obtain ⟨b, hb⟩ := hNamed v hv
    exact ⟨b, withDefault_of_get? (get?_rewritten_named hId hKeys hv) hb⟩
  · exact ⟨a, (withDefault_congr (get?_rewritten_unnamed hId hKey)).trans hOld⟩

theorem exists_title (hKeys : (fields.map (·.1)).Nodup) (hOld : required t.fields "title" decodeTitle = .ok t.title)
    (hNamed : ∀ v, ("title", v) ∈ fields → ∃ b, decodeTitle v = .ok b) :
    ∃ b, required (t.rewritten fields id) "title" decodeTitle = .ok b := by
  by_cases hKey : "title" ∈ fields.map (·.1)
  · obtain ⟨⟨_, v⟩, hv, rfl⟩ := List.mem_map.mp hKey
    obtain ⟨b, hb⟩ := hNamed v hv
    exact ⟨b, required_of_get? (get?_rewritten_named (by decide) hKeys hv) hb⟩
  · exact ⟨_, (required_congr (get?_rewritten_unnamed (by decide) hKey)).trans hOld⟩

/-- The rewritten data make a task if every value that is named is valid. -/
theorem exists_read (hFields : ∀ p ∈ fields, p.1 ∈ Web.updateKinds.map (·.1)) (hKeys : (fields.map (·.1)).Nodup)
    (hOld : ReadFrom now n t.fields t) (hValid : ∀ p ∈ fields, ∃ u : Task, u.Takes p.1 p.2) :
    ∃ u, ReadFrom now n (t.rewritten fields id) u := by
  obtain ⟨-, hNoStatus, hNoCreated, hNoSubtasks, hNoReminders, hNoSource⟩ := unnamed_of_editable hFields
  have hTakes : ∀ key v, (key, v) ∈ fields → ∃ u : Task, u.Takes key v := fun _ _ h => hValid _ h
  have hLength : listLength (t.rewritten fields id) "subtasks" = listLength t.fields "subtasks" := by
    rw [listLength, listLength, get?_rewritten_unnamed (by decide) hNoSubtasks]
  have hId : (t.rewritten fields id).get? "id" = some (.str id) := by
    rw [rewritten, Entries.get?_insert, if_pos rfl]
  have hReminders : (t.rewritten fields id).get? "reminders" = Entries.get? t.fields "reminders" :=
    get?_rewritten_unnamed (by decide) hNoReminders
  have hReminders := (withDefault_congr hReminders).trans hOld.reminders
  rw [← hLength] at hReminders
  obtain ⟨title, hTitle⟩ := exists_title hKeys hOld.title fun v hv => (hTakes _ v hv).elim fun _ h => ⟨_, h.title rfl⟩
  obtain ⟨notes, hNotes⟩ := exists_withDefault (by decide) hKeys hOld.notes fun v hv =>
    (hTakes _ v hv).elim fun _ h => ⟨_, h.notes rfl⟩
  obtain ⟨tags, hTags⟩ := exists_withDefault (by decide) hKeys hOld.tags fun v hv =>
    (hTakes _ v hv).elim fun _ h => ⟨_, h.tags rfl⟩
  obtain ⟨priority, hPriority⟩ := exists_withDefault (by decide) hKeys hOld.priority fun v hv =>
    (hTakes _ v hv).elim fun _ h => ⟨_, h.priority rfl⟩
  obtain ⟨project, hProject⟩ := exists_withDefault (by decide) hKeys hOld.project fun v hv =>
    (hTakes _ v hv).elim fun _ h => ⟨_, h.project rfl⟩
  obtain ⟨due, hDue⟩ := exists_withDefault (by decide) hKeys hOld.due fun v hv =>
    (hTakes _ v hv).elim fun _ h => ⟨_, h.due rfl⟩
  obtain ⟨start, hStart⟩ := exists_withDefault (by decide) hKeys hOld.start fun v hv =>
    (hTakes _ v hv).elim fun _ h => ⟨_, h.start rfl⟩
  obtain ⟨minutes, hMinutes⟩ := exists_withDefault (by decide) hKeys hOld.minutes fun v hv =>
    (hTakes _ v hv).elim fun _ h => ⟨_, h.minutes rfl⟩
  obtain ⟨recurrence, hRecurrence⟩ := exists_withDefault (by decide) hKeys hOld.recurrence fun v hv =>
    (hTakes _ v hv).elim fun _ h => ⟨_, h.recurrence rfl⟩
  exact ⟨{ t with id, title, notes, tags, priority, project, due, start, minutes, recurrence }, {
    id := withDefault_of_get? hId rfl
    title := hTitle
    notes := hNotes
    tags := hTags
    priority := hPriority
    project := hProject
    status := (withDefault_congr (get?_rewritten_unnamed (by decide) hNoStatus)).trans hOld.status
    createdAt := (withDefault_congr (get?_rewritten_unnamed (by decide) hNoCreated)).trans hOld.createdAt
    due := hDue
    start := hStart
    minutes := hMinutes
    subtasks := (withDefault_congr (get?_rewritten_unnamed (by decide) hNoSubtasks)).trans hOld.subtasks
    recurrence := hRecurrence
    reminders := hReminders
    source := (withDefault_congr (get?_rewritten_unnamed (by decide) hNoSource)).trans hOld.source }⟩

end Rewritten

theorem overwritten_of_bad {fields : Entries} {id : String} {errors : List Location}
    (h : decodeEntries now n (t.rewritten fields id) = .bad errors) :
    Desk.overwritten t fields id now n = .error (Desk.badUpdate errors.length) := by
  unfold Desk.overwritten
  extract_lets es
  change decodeEntries now n es = _ at h
  simp only [h]

theorem exists_overwritten {fields : Entries} {id : String} (h : ReadFrom now n (t.rewritten fields id) u) :
    ∃ next, Desk.overwritten t fields id now n = .ok (u, next) := by
  have hDecoded := decodeEntries_eq_ok.mpr h
  unfold Desk.overwritten
  extract_lets es
  change decodeEntries now n es = _ at hDecoded
  simp only [hDecoded]
  exact ⟨_, rfl⟩

end Task

/-! ## Updates of a desk -/

namespace Book

variable {b : Book} {before behind : List Task} {old : Task}

theorem others_of_nodup (hIds : (b.tasks.map (·.id)).Nodup) (hTasks : b.tasks = before ++ old :: behind) :
    ∀ t ∈ before ++ behind, t.id ≠ old.id := by
  rw [hTasks, List.map_append, List.map_cons, List.nodup_middle, List.nodup_cons, ← List.map_append] at hIds
  intro t ht hSame
  exact hIds.1 (hSame ▸ List.mem_map_of_mem ht)

theorem find_of_nodup (hIds : (b.tasks.map (·.id)).Nodup) (hTasks : b.tasks = before ++ old :: behind) :
    b.find old.id = .ok old := by
  have hBefore : before.find? (·.id == old.id) = none := by
    rw [List.find?_eq_none]
    intro t ht hSame
    exact others_of_nodup hIds hTasks t (List.mem_append_left _ ht) (eq_of_beq hSame)
  have hHere : (old :: behind).find? (·.id == old.id) = some old :=
    List.find?_cons_of_pos (p := fun t : Task => t.id == old.id) (beq_self_eq_true old.id)
  rw [find, hTasks, List.find?_append, hBefore, Option.none_or, hHere]

theorem tasks_changed_of_nodup (hIds : (b.tasks.map (·.id)).Nodup) (hTasks : b.tasks = before ++ old :: behind)
    (new : Task) :
    (b.changed old.id fun _ => new).tasks = before ++ new :: behind := by
  have hOthers := others_of_nodup hIds hTasks
  have hSame : ∀ ts : List Task, (∀ t ∈ ts, t.id ≠ old.id) → ts.map (fun t => if t.id = old.id then new else t) = ts := by
    intro ts hNot
    calc ts.map (fun t => if t.id = old.id then new else t) = ts.map id :=
          List.map_congr_left fun t ht => if_neg (hNot t ht)
      _ = ts := List.map_id ts
  rw [List.forall_mem_append] at hOthers
  rw [changed, withTasks, hTasks, List.map_append, List.map_cons, hSame _ hOthers.1, hSame _ hOthers.2, if_pos rfl]

end Book

namespace Operation

variable {d d' : Desk} {id : String} {fields : Entries} {now : Moment} {before behind : List Task} {old new : Task}

theorem update_of_absent (h : ∀ t ∈ d.book.tasks, t.id ≠ id) (fields : Entries) (now : Moment) :
    (Desk.update id fields now).after d = (.error (.unknownTask id), d) := by
  have hNone : d.book.tasks.find? (·.id == id) = none := by
    rw [List.find?_eq_none]
    intro t ht hSame
    exact h t ht (eq_of_beq hSame)
  apply after_update_eq.mpr
  refine .inl ⟨_, ?_, rfl, rfl⟩
  rw [Book.find, hNone]

section Present

variable (hTidy : old.Tidy) (hFields : ∀ p ∈ fields, p.1 ∈ Web.updateKinds.map (·.1))
  (hKeys : (fields.map (·.1)).Nodup)

include hTidy hFields hKeys

theorem update_of_bad (hFind : d.book.find old.id = .ok old) (hNot : ¬ ∀ p ∈ fields, ∃ u : Task, u.Takes p.1 p.2)
    (now : Moment) :
    ∃ errors, (Desk.update old.id fields now).after d = (.error (Desk.badUpdate errors), d) := by
  cases hDecoded : Task.decodeEntries now d.nextId (old.rewritten fields old.id) with
  | ok new =>
    have hUpdated := Task.updated_of_read hFields hKeys rfl (hTidy.read now d.nextId)
      (Task.decodeEntries_eq_ok.mp hDecoded)
    exact absurd (fun p hp => ⟨new, hUpdated.named p hp⟩) hNot
  | bad errors =>
    have hRefused := Task.overwritten_of_bad hDecoded
    exact ⟨errors.length, after_update_eq.mpr (.inr ⟨old, hFind, .inl ⟨_, hRefused, rfl, rfl⟩⟩)⟩

theorem update_of_valid (hIds : (d.book.tasks.map (·.id)).Nodup) (hTasks : d.book.tasks = before ++ old :: behind)
    (hValid : ∀ p ∈ fields, ∃ u : Task, u.Takes p.1 p.2) (now : Moment) :
    ∃ new next, Task.Updated fields old new ∧
      ((∃ f d', Task.renewals (before ++ new :: behind) now next = .error f ∧
          (Desk.update old.id fields now).after d = (.error f, d') ∧ d'.book.tasks = before ++ new :: behind) ∨
        ∃ renewed d', Task.renewals (before ++ new :: behind) now next = .ok (renewed, d'.nextId) ∧
          (Desk.update old.id fields now).after d = (.ok new, d') ∧
          d'.book.tasks = before ++ new :: behind ++ renewed) := by
  have hOld := hTidy.read now d.nextId
  obtain ⟨new, hNew⟩ := Task.exists_read hFields hKeys hOld hValid
  obtain ⟨next, hMade⟩ := Task.exists_overwritten hNew
  have hEdited := Book.tasks_changed_of_nodup hIds hTasks new
  have hAfter := after_update_of_overwritten (Book.find_of_nodup hIds hTasks) hMade
  refine ⟨new, next, Task.updated_of_read hFields hKeys rfl hOld hNew, ?_⟩
  rcases hSwept : (Desk.sweep now).after
    ({ d with nextId := next }.committed (d.book.changed old.id fun _ => new)) with ⟨r, d'⟩
  rw [OnDesk.after_bind, hSwept] at hAfter
  rw [← hEdited]
  rcases sweep_cases hSwept with ⟨f, hRenewals, rfl, rfl⟩ | ⟨renewed, hRenewals, rfl, hBook⟩
  · exact .inl ⟨f, _, hRenewals, hAfter, rfl⟩
  · exact .inr ⟨renewed, d', hRenewals, hAfter, by rw [hBook, Book.tasks_renewedBy]; rfl⟩

end Present

/-- An update of a task that is not there is refused, and so is one with a value that its field does
not take; the desk is left as it was. Any other update puts the task with the new fields in the place
of the old one. It fails only if the sweep behind it does, and else the sweep appends the next
occurrences. -/
theorem update_changes_named (hIds : (d.book.tasks.map (·.id)).Nodup) (hTidy : ∀ t ∈ d.book.tasks, t.Tidy)
    (hFields : ∀ p ∈ fields, p.1 ∈ Web.updateKinds.map (·.1)) (hKeys : (fields.map (·.1)).Nodup) (now : Moment) :
    ((∀ t ∈ d.book.tasks, t.id ≠ id) → (Desk.update id fields now).after d = (.error (.unknownTask id), d)) ∧
      ∀ before old behind, d.book.tasks = before ++ old :: behind → old.id = id →
        ((¬ ∀ p ∈ fields, ∃ u : Task, u.Takes p.1 p.2) →
          ∃ errors, (Desk.update id fields now).after d = (.error (Desk.badUpdate errors), d)) ∧
        ((∀ p ∈ fields, ∃ u : Task, u.Takes p.1 p.2) → ∃ new next, Task.Updated fields old new ∧
          ((∃ f d', Task.renewals (before ++ new :: behind) now next = .error f ∧
              (Desk.update id fields now).after d = (.error f, d') ∧ d'.book.tasks = before ++ new :: behind) ∨
            ∃ renewed d', Task.renewals (before ++ new :: behind) now next = .ok (renewed, d'.nextId) ∧
              (Desk.update id fields now).after d = (.ok new, d') ∧
              d'.book.tasks = before ++ new :: behind ++ renewed ∧
              ∀ r ∈ renewed, ∃ t ∈ before ++ new :: behind, t.Renews r)) := by
  refine ⟨fun hAbsent => update_of_absent hAbsent fields now, ?_⟩
  rintro before old behind hTasks rfl
  have hOld : old.Tidy := hTidy old (by simp [hTasks])
  refine ⟨fun hNot => update_of_bad hOld hFields hKeys (Book.find_of_nodup hIds hTasks) hNot now, fun hValid => ?_⟩
  obtain ⟨new, next, hUpdated, hFails | ⟨renewed, d', hRenewals, hAfter, hTasksNow⟩⟩ :=
    update_of_valid hOld hFields hKeys hIds hTasks hValid now
  · exact ⟨new, next, hUpdated, .inl hFails⟩
  · have hRenews : ∀ r ∈ renewed, ∃ t ∈ before ++ new :: behind, t.Renews r :=
      fun r hr => Task.renews_of_renewals hRenewals hr
    exact ⟨new, next, hUpdated, .inr ⟨renewed, d', hRenewals, hAfter, hTasksNow, hRenews⟩⟩

def callAndTrip : Desk where
  book := { tasks := [{ id := "c", title := "Call Ann", tags := [some "home"], createdAt := noon }, OnDesk.trip] }

theorem tidy_callAndTrip : ∀ t ∈ callAndTrip.book.tasks, t.Tidy := by
  have hCall : Task.Tidy { id := "c", title := "Call Ann", tags := [some "home"], createdAt := noon } := {
    title := by decide
    trimmed := by decide
    named := by decide
    minutes := by rintro _ ⟨⟩
    subtasks := by rintro _ ⟨⟩
    recurrence := by rintro _ ⟨⟩
    tags := ⟨["home"], rfl, by decide⟩ }
  have hTrip : OnDesk.trip.Tidy := { OnDesk.storable_trip with }
  exact List.forall_mem_cons.mpr ⟨hCall, List.forall_mem_singleton.mpr hTrip⟩

theorem trip_updated : ∃ (new : Task) (d' : Desk),
    (Desk.update "t" [("notes", .str "Seat 12"), ("priority", .null)] noon).after callAndTrip = (.ok new, d') ∧
      (∃ renewed, d'.book.tasks =
        { id := "c", title := "Call Ann", tags := [some "home"], createdAt := noon } :: new :: renewed) ∧
      new.notes = "Seat 12" ∧ new.priority = none ∧ new.reminders = OnDesk.trip.reminders := by
  have hValid : ∀ p ∈ ([("notes", .str "Seat 12"), ("priority", .null)] : Entries), ∃ u : Task, u.Takes p.1 p.2 := by
    refine List.forall_mem_cons.mpr ⟨⟨{ OnDesk.trip with notes := "Seat 12" }, ?_⟩,
      List.forall_mem_singleton.mpr ⟨{ OnDesk.trip with priority := none }, ?_⟩⟩
    all_goals constructor <;> intro hKey <;> first | rfl | exact absurd hKey (by decide)
  have hSucceeds : ((Desk.update "t" [("notes", .str "Seat 12"), ("priority", .null)] noon).after
      callAndTrip).1.isOk = true := by decide +kernel
  obtain ⟨new, next, hUpdated, hSwept⟩ := ((@update_changes_named callAndTrip "t" _ (by decide) tidy_callAndTrip
    (by decide) (by decide) noon).2 [_] OnDesk.trip [] rfl rfl).2 hValid
  rcases hSwept with ⟨f, d', _, hAfter, _⟩ | ⟨renewed, d', _, hAfter, hTasks, _⟩
  · rw [hAfter] at hSucceeds
    cases hSucceeds
  · have hNotes := (hUpdated.named ("notes", .str "Seat 12") List.mem_cons_self).notes rfl
    have hPriority := (hUpdated.named ("priority", .null) (List.mem_cons_of_mem _ List.mem_cons_self)).priority rfl
    exact ⟨new, d', hAfter, ⟨renewed, hTasks⟩, (Decoded.ok.inj hNotes).symm, (Decoded.ok.inj hPriority).symm,
      hUpdated.reminders⟩

end Operation

end Agenda
