import Agenda.Proofs.Task.Valid
import Agenda.Proofs.Time.Stored
import Agenda.Proofs.Value.Entries
import Mathlib.Data.List.Sort

/-! # Tasks written as JSON and read back

A valid task with tags in normal form, whose times can be stored, is read back from its own data
field by field. Fields that are blank may be left out of the data.
-/

namespace Agenda

open Value

/-! ## What is stored without loss -/

def Task.moments (t : Task) : List Moment :=
  t.createdAt :: (t.due.toList ++ t.start.toList ++ (t.recurrence.bind (·.endDate)).toList ++
    t.reminders.map (·.time))

/-- A valid task that is stored without loss: normalising its tags changes nothing, its project has
a name, and its times have offsets of whole minutes. -/
structure Task.Storable (t : Task) : Prop extends t.Valid where
  tags : ∃ names, t.tags = names.map some ∧ normalTags names = names
  project : t.project ≠ some ""
  moments : ∀ m ∈ t.moments, m.Storable

/-! ## Values as JSON -/

namespace Value

theorem toJsonItems_eq (vs : List Value) : toJsonItems vs = vs.map toJson := by
  induction vs with
  | nil => rfl
  | cons v vs ih => rw [toJsonItems, ih, List.map_cons]

theorem get?_toJsonEntries (es : Entries) (key : String) :
    Entries.get? (toJsonEntries es) key = (es.get? key).map toJson := by
  induction es with
  | nil => rfl
  | cons e es ih =>
    obtain ⟨k, v⟩ := e
    rw [toJsonEntries, Entries.get?_cons, Entries.get?_cons, ih]
    split <;> rfl

/-! ## Values that are read back -/

theorem decodeMoment_toJson {m : Moment} (h : m.Storable) : decodeMoment (Value.moment m).toJson = .ok m := by
  rw [toJson, decodeMoment, String.toList_ofList, Moment.ofStored?_dataText h]

theorem decodeOption_moment_toJson {m : Option Moment} (h : ∀ x ∈ m, x.Storable) :
    decodeOption decodeMoment (ofMoment? m).toJson = .ok m := by
  cases m with
  | none => rfl
  | some m => exact congrArg (Decoded.map some) (decodeMoment_toJson (h m rfl))

theorem decodeOption_str_toJson (s : Option String) :
    decodeOption decodeStr (ofStr? s).toJson = .ok s := by
  cases s <;> rfl

end Value

theorem Rhythm.ofName?_name (r : Rhythm) : ofName? r.name = some r := by
  cases r <;> rfl

theorem Priority.ofName?_name (p : Priority) : ofName? p.name = some p := by
  cases p <;> rfl

theorem Status.ofName?_name (s : Status) : ofName? s.name = some s := by
  cases s <;> rfl

theorem ReminderKind.ofName?_name (k : ReminderKind) : ofName? k.name = some k := by
  cases k <;> rfl

theorem decodeText_of_ne {s : String} (h : s ≠ "") : decodeText (.str s) = .ok s := by
  simp [decodeText, decodeStr, Decoded.check, h]

theorem Subtask.decode_toJson {s : Subtask} (hText : s.text ≠ "") (id : String) :
    decodeEntries (decode id) s.data.toJson = .ok s := by
  have hRead := decodeText_of_ne hText
  simp [data, toJson, toJsonEntries, decodeEntries, decode, withDefault, required, Entries.get?_cons, hRead,
    decodeStr, decodeBool, Decoded.under, Decoded.and]

theorem Reminder.decode_toJson {r : Reminder} (hTime : r.time.Storable) (id : String) :
    decodeEntries (decode id) r.data.toJson = .ok r := by
  have hRead := decodeMoment_toJson hTime
  rw [toJson] at hRead
  simp [data, toJson, toJsonEntries, decodeEntries, decode, withDefault, required, Entries.get?_cons, hRead,
    decodeStr, decodeBool, decodeName, ReminderKind.ofName?_name, Decoded.under, Decoded.and]

theorem filterMap_week {days : List Int} (hIncreasing : days.Pairwise (· < ·))
    (hWeekdays : ∀ d ∈ days, 0 ≤ d ∧ d ≤ 6) :
    (List.range 7).filterMap (fun (d : Nat) => if days.contains (d : Int) then some (d : Int) else none) = days := by
  refine List.Pairwise.eq_of_mem_iff (pairwise_week days) hIncreasing fun d => ?_
  simp only [List.mem_filterMap, List.mem_range, Option.ite_none_right_eq_some, List.contains_iff_mem,
    Option.some.injEq]
  constructor
  · rintro ⟨_, _, hMem, rfl⟩
    exact hMem
  · intro hMem
    have hRange := hWeekdays d hMem
    refine ⟨d.toNat, by omega, ?_, by omega⟩
    rwa [Int.toNat_of_nonneg hRange.1]

theorem decodeDays_toJson {days : List Int} (hIncreasing : days.Pairwise (· < ·))
    (hWeekdays : ∀ d ∈ days, 0 ≤ d ∧ d ≤ 6) : decodeDays (Value.list (days.map .int)).toJson = .ok days := by
  have hList : decodeList decodeInt (Value.list (days.map .int)).toJson = .ok days := by
    rw [toJson, toJsonItems_eq, List.map_map]
    exact decodeList_map fun _ _ => rfl
  have hCheck : (days.all fun d => 0 ≤ d && d ≤ 6) = true := by
    simpa using hWeekdays
  rw [decodeDays, hList, Decoded.check, if_pos hCheck, Decoded.map, filterMap_week hIncreasing hWeekdays]

theorem Recurrence.decode_toJson {r : Recurrence} (h : r.Valid) (hEnd : ∀ m ∈ r.endDate, m.Storable) :
    decodeEntries decode r.data.toJson = .ok r := by
  have hDays := decodeDays_toJson h.increasing h.weekdays
  rw [toJson] at hDays
  have hDate := decodeOption_moment_toJson hEnd
  simp [data, toJson, toJsonEntries, decodeEntries, decode, withDefault, required, Entries.get?_cons, hDays, hDate,
    decodeName, Rhythm.ofName?_name, decodeInt, h.interval, Decoded.check, Decoded.under, Decoded.and]

theorem decodeParts_toJson {α : Type} {decode : String → Entries → Decoded α} {data : α → Value} {parts : List α}
    (first : Nat) (h : ∀ part ∈ parts, ∀ id, decodeEntries (decode id) (data part).toJson = .ok part) :
    decodeParts first decode (Value.list (parts.map data)).toJson = .ok parts := by
  rw [toJson, toJsonItems_eq, List.map_map]
  exact Decoded.all_mapIdx_map fun i part hPart => Decoded.under_eq_ok.mpr (h part hPart _)

/-! ## Whole tasks -/

/-- All fields are there as JSON, except that an absent priority or project and empty notes are
left out. -/
structure Task.WrittenIn (t : Task) (es : Entries) : Prop where
  fields : ∀ key, key ∉ ["priority", "project", "notes"] → es.get? key = (t.fields.get? key).map toJson
  priority : es.get? "priority" = t.priority.map fun p => .str p.name
  project : es.get? "project" = t.project.map .str
  notes : es.get? "notes" = if t.notes = "" then none else some (.str t.notes)

namespace Task

variable {t : Task} {es : Entries}

theorem decodeTitle_of_valid (h : t.Valid) : decodeTitle (.str t.title) = .ok t.title := by
  rw [decodeTitle, decodeText_of_ne h.title, Decoded.map, h.trimmed, Decoded.check, if_pos (by simpa using h.title)]

theorem decodeTags_of_storable (h : t.Storable) :
    ((decodeList decodeStr (Value.list (t.tags.map .ofStr?)).toJson).map fun ts => (normalTags ts).map some) =
      .ok t.tags := by
  obtain ⟨names, hTags, hNormal⟩ := h.tags
  have hList : decodeList decodeStr (Value.list (t.tags.map .ofStr?)).toJson = .ok names := by
    rw [hTags, toJson, toJsonItems_eq, List.map_map, List.map_map]
    exact decodeList_map fun _ _ => rfl
  rw [hList, Decoded.map, hNormal, hTags]

theorem decodeMinutes_of_valid (h : t.Valid) :
    decodeOption (fun v => (decodeInt v).check (1 ≤ ·)) ((t.minutes.map Value.int).getD .null).toJson =
      .ok t.minutes := by
  cases hMinutes : t.minutes with
  | none => rfl
  | some n =>
    have hPos : decide (1 ≤ n) = true := decide_eq_true (h.minutes n hMinutes)
    change ((Decoded.ok n).check (1 ≤ ·)).map some = _
    rw [Decoded.check, if_pos hPos]
    rfl

theorem decodeRule_of_storable (h : t.Storable) :
    decodeOption (Value.decodeEntries Recurrence.decode) ((t.recurrence.map Recurrence.data).getD .null).toJson =
      .ok t.recurrence := by
  cases hRule : t.recurrence with
  | none => rfl
  | some r =>
    have hEnd : ∀ m ∈ r.endDate, m.Storable := by
      intro m hm
      apply h.moments
      simp_all [moments]
    exact congrArg (Decoded.map some) (Recurrence.decode_toJson (h.recurrence r hRule) hEnd)

theorem WrittenIn.withDefault (hWritten : t.WrittenIn es) {α : Type} {key : String} {v : Value} {default a : α}
    {decode : Value → Decoded α} (hKey : key ∉ ["priority", "project", "notes"])
    (hGet : t.fields.get? key = some v) (hDecode : decode v.toJson = .ok a) :
    Value.withDefault es key default decode = .ok a := by
  refine withDefault_of_get? ?_ hDecode
  rw [hWritten.fields key hKey, hGet]
  rfl

theorem decodeEntries_of_writtenIn (h : t.Storable) (hWritten : t.WrittenIn es) (now : Moment) (n : Nat) :
    decodeEntries now n es = .ok t := by
  have hId : withDefault es "id" (freshId n) decodeStr = .ok t.id := hWritten.withDefault (by decide) rfl rfl
  have hTitle : required es "title" decodeTitle = .ok t.title :=
    required_of_get? (hWritten.fields "title" (by decide)) (decodeTitle_of_valid h.toValid)
  have hNotes : withDefault es "notes" "" decodeStr = .ok t.notes := by
    rw [withDefault, hWritten.notes]
    by_cases hEmpty : t.notes = "" <;> simp [hEmpty, decodeStr, Decoded.under]
  have hTags : withDefault es "tags" [] (fun v => (decodeList decodeStr v).map fun ts => (normalTags ts).map some) =
      .ok t.tags := hWritten.withDefault (by decide) rfl (decodeTags_of_storable h)
  have hPriority : withDefault es "priority" none (decodeOption (decodeName Priority.ofName?)) = .ok t.priority := by
    rw [withDefault, hWritten.priority]
    cases t.priority with
    | none => rfl
    | some p => cases p <;> rfl
  have hProject : withDefault es "project" none (decodeOption decodeStr) = .ok t.project := by
    rw [withDefault, hWritten.project]
    cases t.project <;> rfl
  have hStatus : withDefault es "status" Status.pending (decodeName Status.ofName?) = .ok t.status := by
    refine hWritten.withDefault (by decide) rfl ?_
    cases t.status <;> rfl
  have hCreated : withDefault es "created_at" now decodeMoment = .ok t.createdAt := by
    refine hWritten.withDefault (by decide) rfl (decodeMoment_toJson (h.moments _ ?_))
    simp [moments]
  have hDue : withDefault es "due_date" none (decodeOption decodeMoment) = .ok t.due := by
    refine hWritten.withDefault (by decide) rfl (decodeOption_moment_toJson fun m hm => h.moments m ?_)
    simp_all [moments]
  have hStart : withDefault es "start_time" none (decodeOption decodeMoment) = .ok t.start := by
    refine hWritten.withDefault (by decide) rfl (decodeOption_moment_toJson fun m hm => h.moments m ?_)
    simp_all [moments]
  have hMinutes : withDefault es "estimated_duration_min" none (decodeOption fun v => (decodeInt v).check (1 ≤ ·)) =
      .ok t.minutes := hWritten.withDefault (by decide) rfl (decodeMinutes_of_valid h.toValid)
  have hSubtasks : withDefault es "subtasks" [] (decodeParts (n + 1) Subtask.decode) = .ok t.subtasks := by
    refine hWritten.withDefault (by decide) rfl (decodeParts_toJson _ fun s hs id => ?_)
    exact Subtask.decode_toJson (h.subtasks s hs) id
  have hRule : withDefault es "recurring" none (decodeOption (Value.decodeEntries Recurrence.decode)) =
      .ok t.recurrence := hWritten.withDefault (by decide) rfl (decodeRule_of_storable h)
  have hReminders : withDefault es "reminders" [] (decodeParts (n + 1 + listLength es "subtasks") Reminder.decode) =
      .ok t.reminders := by
    refine hWritten.withDefault (by decide) rfl (decodeParts_toJson _ fun r hr id => ?_)
    refine Reminder.decode_toJson (h.moments r.time ?_) id
    simp only [moments, List.mem_cons, List.mem_append, List.mem_map]
    exact .inr (.inr ⟨r, hr, rfl⟩)
  have hSource : withDefault es "recurrence_source_id" none (decodeOption decodeStr) = .ok t.source :=
    hWritten.withDefault (by decide) rfl (decodeOption_str_toJson t.source)
  exact decodeEntries_eq_ok.mpr ⟨hId, hTitle, hNotes, hTags, hPriority, hProject, hStatus, hCreated, hDue, hStart,
    hMinutes, hSubtasks, hRule, hReminders, hSource⟩

end Task

end Agenda
