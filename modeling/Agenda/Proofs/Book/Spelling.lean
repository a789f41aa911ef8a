import Agenda.Proofs.Book.Present
import Agenda.Proofs.Number.Nearest

/-! # Spellings of stored tasks

A stored task may have any of its fields in an older spelling. Each spelling becomes a present one
that is read alike, whatever spellings the other fields have. Only milliseconds on the first day of
the calendar mean nothing, since a clock does not find its times.
-/

namespace Agenda

namespace Moment

/-- A whole number of seconds is a stamp of just that number, if the time is one that a clock finds. -/
theorem ofStamp_nearest {m : Moment} {negative : Bool} {s : Int} (hLocal : m.offset = none)
    (hSeconds : m.ticks = epochTicks + s * 1000000) (hFirst : dayTicks ≤ m.ticks)
    (hSign : (if negative then -(s.natAbs : Int) else s.natAbs) = s) : ofStamp (Double.nearest negative s.natAbs) = .ok m := by
  have hRange := m.inRange
  have hEpoch : epochTicks = 62135596800000000 := rfl
  have hDay : dayTicks = 86400000000 := rfl
  obtain ⟨mantissa, e, hStamp, hWhole⟩ := @Double.nearest_natCast s.natAbs negative (by omega)
  have hMicros : ofStamp.ofSeconds (s * 1000000 + 0) = .ok m := by
    rw [ofStamp.ofSeconds, add_zero, if_neg (by omega), if_neg (by omega), dif_pos (by omega)]
    exact congrArg Except.ok (Moment.ext hSeconds.symm hLocal.symm)
  rw [hStamp, ofStamp, Double.parts_of_whole hWhole, hSign, Option.bind_some]
  dsimp only
  rw [Double.timesNat_zero, Double.round_zero]
  exact hMicros

end Moment

namespace Legacy

open Entries Value

variable {es es' raw : Entries} {key : String} {v w : Value}

/-! ## Times as milliseconds -/

/-- The value is a number of milliseconds, whole or floating, for a whole number of seconds. -/
def CountsSeconds (v : Value) (s : Int) : Prop :=
  v = .int (s * 1000) ∨ ∃ x, v = .num x ∧ x.toInt? = some (s * 1000)

/-- How a stored time may be spelled: as a text, or as milliseconds if it is local, has no fraction of
a second and is not before `first`. -/
inductive SpellsTime (first : Int) (m : Moment) : Value → Prop
  | text : SpellsTime first m (Value.moment m).toJson
  | millis {v : Value} (s : Int) (hCounts : CountsSeconds v s) (hLocal : m.offset = none)
    (hSeconds : m.ticks = Moment.epochTicks + s * 1000000) (hFirst : first ≤ m.ticks) : SpellsTime first m v

def SpellsTime? (first : Int) (m : Option Moment) (v : Value) : Prop :=
  match m with
  | none => v = .null
  | some m => SpellsTime first m v

theorem exists_thousandth {s : Int} (h : CountsSeconds v s) :
    ∃ negative, thousandth v = some (Double.nearest negative s.natAbs) ∧
      (if negative then -(s.natAbs : Int) else s.natAbs) = s := by
  rcases h with rfl | ⟨x, rfl, hx⟩
  · have hQuotient : ((s * 1000).natAbs : ℚ) / (1000 : ℕ) = s.natAbs := by
      rw [Int.natAbs_mul]
      push_cast
      exact mul_div_cancel_right₀ _ (by norm_num)
    refine ⟨decide (s * 1000 < 0), ?_, ?_⟩
    · rw [thousandth, Double.ofQuotient_eq_nearest _ _ (by decide), hQuotient]
    · simp only [decide_eq_true_eq]
      split <;> omega
  · cases x with
    | nan => cases hx
    | infinite _ => cases hx
    | finite negative m e =>
      obtain ⟨hWhole, hSign⟩ := Double.whole_of_toInt? hx
      have hPos := Double.fraction_snd_pos m e
      have hQuotient : ((Double.fraction m e).1 : ℚ) / ((Double.fraction m e).2 * 1000 : ℕ) = s.natAbs := by
        rw [hWhole, Int.natAbs_mul]
        push_cast
        field_simp
      refine ⟨negative, ?_, ?_⟩
      · rw [thousandth, Double.overNat, Double.ofQuotient_eq_nearest _ _ (by positivity), hQuotient]
      · cases negative <;> simp at hSign ⊢ <;> omega

theorem readTime_of_seconds {m : Moment} {s : Int} (hCounts : CountsSeconds v s) (hLocal : m.offset = none)
    (hSeconds : m.ticks = Moment.epochTicks + s * 1000000) (hFirst : dayTicks ≤ m.ticks) : readTime v = .ok (.moment m) := by
  obtain ⟨negative, hThousandth, hSign⟩ := exists_thousandth hCounts
  have hStamp := Moment.ofStamp_nearest hLocal hSeconds hFirst hSign
  unfold readTime
  split
  · rename_i hInfinite
    rw [hThousandth, Option.some.injEq] at hInfinite
    rw [hInfinite] at hStamp
    cases hStamp
  · rename_i x _ hFinite
    rw [hThousandth, Option.some.injEq] at hFinite
    rw [← hFinite, hStamp]
    rfl
  · rename_i hNone
    cases hThousandth.symm.trans hNone

theorem exists_readTime {m : Moment} (h : SpellsTime dayTicks m v) :
    ∃ w, readTime v = .ok w ∧ w ≠ .null ∧ decodeMoment w = decodeMoment (Value.moment m).toJson := by
  cases h with
  | text => exact ⟨_, rfl, nofun, rfl⟩
  | millis s hCounts hLocal hSeconds hFirst =>
    have hStorable : m.Storable := by
      intro offset hOffset
      cases hLocal.symm.trans hOffset
    exact ⟨_, readTime_of_seconds hCounts hLocal hSeconds hFirst, nofun, (decodeMoment_toJson hStorable).symm⟩

theorem exists_readTime? {m : Option Moment} (h : SpellsTime? dayTicks m v) :
    ∃ w, readTime v = .ok w ∧ decodeOption decodeMoment w = decodeOption decodeMoment (ofMoment? m).toJson := by
  cases m with
  | none => exact ⟨.null, by rw [show v = .null from h]; rfl, rfl⟩
  | some m =>
    obtain ⟨w, hRead, hSome, hDecode⟩ := exists_readTime h
    refine ⟨w, hRead, ?_⟩
    have hSame : decodeOption decodeMoment w = (decodeMoment w).map some := by
      cases w <;> first | rfl | exact absurd rfl hSome
    rw [hSame, hDecode]
    rfl

/-! ## Keys -/

/-- The value is there, under the present key or under the old one. -/
def Under (es : Entries) (old key : String) (v : Value) : Prop :=
  es.get? key = some v ∧ es.get? old = none ∨ es.get? old = some v ∧ es.get? key = none

section Renamed

variable {keys : List (String × String)} {old : String}

theorem getD_lookup_eq (hKey : keys.lookup key = none) {k : String} :
    (keys.lookup k).getD k = key ↔ k = key ∨ keys.lookup k = some key := by
  constructor
  · intro h
    cases hLookup : keys.lookup k with
    | none =>
      rw [hLookup] at h
      exact .inl h
    | some other =>
      rw [hLookup] at h
      exact .inr (congrArg some h)
  · rintro (rfl | h)
    · rw [hKey]
      rfl
    · rw [h]
      rfl

variable (keys)

/-- Under a present key stands what stood there or under a key that has this name now. -/
theorem get?_renamed_eq_some (hNodup : (es.map (·.1)).Nodup) (hKey : keys.lookup key = none)
    (hOld : keys.lookup old = some key) (hOnly : ∀ p ∈ keys, p.2 = key → p.1 = old) (h : Under es old key v) :
    (renamed keys es).get? key = some v := by
  apply get?_merge_of_all
  · rintro p hp hSame
    obtain ⟨⟨k, w⟩, hMem, rfl⟩ := List.mem_map.mp hp
    have hGet := get?_of_mem hNodup hMem
    rcases (getD_lookup_eq hKey).mp hSame with rfl | hLookup
    · rcases h with ⟨hv, _⟩ | ⟨_, hNone⟩
      · exact Option.some.inj (hGet.symm.trans hv)
      · cases hGet.symm.trans hNone
    · obtain rfl : k = old := hOnly _ (mem_of_lookup hLookup) rfl
      rcases h with ⟨_, hNone⟩ | ⟨hv, _⟩
      · cases hGet.symm.trans hNone
      · exact Option.some.inj (hGet.symm.trans hv)
  · right
    rcases h with ⟨hv, _⟩ | ⟨hv, _⟩
    · exact ⟨_, List.mem_map_of_mem (mem_of_get? hv), (getD_lookup_eq hKey).mpr (.inl rfl)⟩
    · exact ⟨_, List.mem_map_of_mem (mem_of_get? hv), (getD_lookup_eq hKey).mpr (.inr hOld)⟩

theorem get?_renamed_of_free (hNodup : (es.map (·.1)).Nodup) (hKey : keys.lookup key = none)
    (hFree : ∀ p ∈ keys, p.2 ≠ key) : (renamed keys es).get? key = es.get? key := by
  have hOnly : ∀ k, (keys.lookup k).getD k = key ↔ k = key := by
    intro k
    rw [getD_lookup_eq hKey]
    exact or_iff_left fun hLookup => hFree _ (mem_of_lookup hLookup) rfl
  cases hGet : es.get? key with
  | some v =>
    apply get?_merge_of_all
    · rintro p hp hSame
      obtain ⟨⟨k, w⟩, hMem, rfl⟩ := List.mem_map.mp hp
      obtain rfl := (hOnly k).mp hSame
      exact Option.some.inj ((get?_of_mem hNodup hMem).symm.trans hGet)
    · exact .inr ⟨_, List.mem_map_of_mem (mem_of_get? hGet), (hOnly key).mpr rfl⟩
  | none =>
    refine get?_merge_of_notMem fun p hp hSame => ?_
    obtain ⟨⟨k, w⟩, hMem, rfl⟩ := List.mem_map.mp hp
    obtain rfl := (hOnly k).mp hSame
    cases (get?_of_mem hNodup hMem).symm.trans hGet

end Renamed

/-! ## Rules and reminders -/

structure SpellsRule (first : Int) (r : Recurrence) (es : Entries) : Prop where
  nodup : (es.map (·.1)).Nodup
  rhythm : es.get? "type" = some (.str r.rhythm.name)
  interval : es.get? "interval" = some (.int r.interval)
  days : Under es "daysOfWeek" "days_of_week" (Value.list (r.days.map .int)).toJson
  endDate : ∃ v, Under es "endDate" "end_date" v ∧ SpellsTime? first r.endDate v

structure SpellsReminder (first : Int) (r : Reminder) (es : Entries) : Prop where
  id : es.get? "id" = some (.str r.id)
  time : ∃ v, es.get? "time" = some v ∧ SpellsTime first r.time v
  notified : es.get? "notified" = some (.bool r.notified)
  kind : es.get? "type" = some (.str r.kind.name)

theorem exists_readRule {r : Recurrence} {rule : Entries} (h : SpellsRule dayTicks r rule) :
    ∃ rule', readTimeAt "end_date" (renamed ruleKeys rule) = .ok rule' ∧
      decodeEntries Recurrence.decode (.object rule') = decodeEntries Recurrence.decode r.data.toJson := by
  obtain ⟨v, hUnder, hTime⟩ := h.endDate
  obtain ⟨w, hRead, hDecode⟩ := exists_readTime? hTime
  have hEnd := get?_renamed_eq_some ruleKeys h.nodup rfl rfl (by decide) hUnder
  have hDays := get?_renamed_eq_some ruleKeys h.nodup rfl rfl (by decide) h.days
  have hRhythm := (get?_renamed_of_free ruleKeys h.nodup rfl (by decide)).trans h.rhythm
  have hInterval := (get?_renamed_of_free ruleKeys h.nodup rfl (by decide)).trans h.interval
  refine ⟨(renamed ruleKeys rule).insert "end_date" w, ?_, ?_⟩
  · rw [readTimeAt, hEnd]
    dsimp only
    rw [hRead]
    rfl
  · have hKept := (edits_insert (renamed ruleKeys rule) "end_date" w).agreeBut
    rw [← hKept "type" (by decide)] at hRhythm
    rw [← hKept "interval" (by decide)] at hInterval
    rw [← hKept "days_of_week" (by decide)] at hDays
    have hWritten : ((renamed ruleKeys rule).insert "end_date" w).get? "end_date" = some w := by
      rw [get?_insert, if_pos rfl]
    obtain ⟨stored, hStored⟩ : ∃ stored : Entries, r.data.toJson = .object stored := ⟨_, rfl⟩
    have hFields : stored.get? "type" = some (.str r.rhythm.name) ∧ stored.get? "interval" = some (.int r.interval) ∧
        stored.get? "days_of_week" = some (Value.list (r.days.map .int)).toJson ∧
        stored.get? "end_date" = some (ofMoment? r.endDate).toJson := by
      cases hStored
      exact ⟨rfl, rfl, rfl, rfl⟩
    rw [hStored, decodeEntries, decodeEntries, Recurrence.decode, Recurrence.decode,
      required_eq_of_decode hRhythm hFields.1 rfl, withDefault_eq_of_decode hInterval hFields.2.1 rfl,
      withDefault_eq_of_decode hDays hFields.2.2.1 rfl, withDefault_eq_of_decode hWritten hFields.2.2.2 hDecode]

theorem exists_readReminder {r : Reminder} {part : Entries} (h : SpellsReminder dayTicks r part) :
    ∃ w, readReminder part = .ok w ∧
      ∀ id, decodeEntries (Reminder.decode id) w = decodeEntries (Reminder.decode id) r.data.toJson := by
  obtain ⟨v, hTime, hSpells⟩ := h.time
  obtain ⟨w, hRead, -, hDecode⟩ := exists_readTime hSpells
  refine ⟨.object (part.insert "time" w), ?_, ?_⟩
  · rw [readReminder, at?, hTime, Option.getD_some, hRead]
    rfl
  · intro id
    have hKept := (edits_insert part "time" w).agreeBut
    have hId := (hKept "id" (by decide)).trans h.id
    have hNotified := (hKept "notified" (by decide)).trans h.notified
    have hKind := (hKept "type" (by decide)).trans h.kind
    have hWritten : (part.insert "time" w).get? "time" = some w := by
      rw [get?_insert, if_pos rfl]
    obtain ⟨stored, hStored⟩ : ∃ stored : Entries, r.data.toJson = .object stored := ⟨_, rfl⟩
    have hFields : stored.get? "id" = some (.str r.id) ∧ stored.get? "time" = some (Value.moment r.time).toJson ∧
        stored.get? "notified" = some (.bool r.notified) ∧ stored.get? "type" = some (.str r.kind.name) := by
      cases hStored
      exact ⟨rfl, rfl, rfl, rfl⟩
    rw [hStored, decodeEntries, decodeEntries, Reminder.decode, Reminder.decode,
      withDefault_eq_of_decode hId hFields.1 rfl, required_eq_of_decode hWritten hFields.2.1 hDecode,
      withDefault_eq_of_decode hNotified hFields.2.2.1 rfl, withDefault_eq_of_decode hKind hFields.2.2.2 rfl]

theorem exists_readReminders {rs : List Reminder} {parts : List Entries}
    (h : List.Forall₂ (SpellsReminder dayTicks) rs parts) :
    ∃ ws, parts.mapM readReminder = .ok ws ∧ ∀ n, decodeParts n Reminder.decode (.list ws) =
      decodeParts n Reminder.decode (Value.list (rs.map Reminder.data)).toJson := by
  suffices hPaired : ∃ ws, parts.mapM readReminder = .ok ws ∧ List.Forall₂ (fun v w => ∀ id,
      decodeEntries (Reminder.decode id) v = decodeEntries (Reminder.decode id) w) ws
        (rs.map fun r => r.data.toJson) by
    obtain ⟨ws, hRead, hSame⟩ := hPaired
    refine ⟨ws, hRead, fun n => ?_⟩
    rw [toJson, toJsonItems_eq, List.map_map]
    exact decodeParts_eq_of_forall₂ n hSame
  induction h with
  | nil => exact ⟨[], rfl, .nil⟩
  | cons hSpells _ ih =>
    obtain ⟨w, hRead, hSame⟩ := exists_readReminder hSpells
    obtain ⟨ws, hRest, hPaired⟩ := ih
    refine ⟨w :: ws, ?_, .cons hSame hPaired⟩
    rw [List.mapM_cons, hRead, hRest]
    rfl

/-! ## Tasks -/

/-- How a stored task may be spelled: each field in the present way or in an older one, whatever way
the other fields have. -/
structure Spelling (first : Int) (t : Task) (raw : Entries) : Prop where
  nodup : (raw.map (·.1)).Nodup
  same : ∀ key ∈ ["id", "notes", "priority", "project", "subtasks"],
    raw.get? key = (t.fields.get? key).map toJson
  title : Under raw "text" "title" (.str t.title)
  tags : raw.get? "tags" = some (Value.list (t.tags.map .ofStr?)).toJson ∧ raw.get? "tag" = none ∨
    ∃ tag, t.tags = [some tag] ∧ raw.get? "tag" = some (.str tag) ∧
      raw.get? "tags" ∈ [none, some (.list []), some (.list [.str tag])]
  status : raw.get? "status" = some (.str t.status.name) ∧ raw.get? "done" ∈ [none, some (.bool t.done)] ∨
    t.status = .completed ∧ raw.get? "done" = some (.bool true) ∧
      raw.get? "status" ∈ [none, some (.str Status.pending.name)]
  created : ∃ v, Under raw "createdAt" "created_at" v ∧ SpellsTime first t.createdAt v
  due : ∃ v, Under raw "dueDate" "due_date" v ∧ SpellsTime? first t.due v
  start : ∃ v, Under raw "startTime" "start_time" v ∧ SpellsTime? first t.start v
  minutes : Under raw "estimatedDuration" "estimated_duration_min" ((t.minutes.map Value.int).getD .null).toJson
  source : Under raw "recurrenceSourceId" "recurrence_source_id" (ofStr? t.source).toJson
  rule : match t.recurrence with
    | none => raw.get? "recurring" = some .null
    | some r => ∃ rule, raw.get? "recurring" = some (.object rule) ∧ SpellsRule first r rule
  reminders : ∃ parts, raw.get? "reminders" = some (.list (parts.map .object)) ∧
    List.Forall₂ (SpellsReminder first) t.reminders parts

section Spelling

variable {t : Task} {first : Int}

theorem Spelling.get?_free (h : Spelling first t raw)
    (hFree : taskKeys.lookup key = none ∧ ∀ p ∈ taskKeys, p.2 ≠ key) :
    (renamed taskKeys raw).get? key = raw.get? key :=
  get?_renamed_of_free taskKeys h.nodup hFree.1 hFree.2

theorem Spelling.get?_same (h : Spelling first t raw)
    (hKey : key ∈ ["id", "notes", "priority", "project", "subtasks"]) :
    (renamed taskKeys raw).get? key = Entries.get? (toJsonEntries t.fields) key := by
  rw [get?_toJsonEntries, ← h.same key hKey]
  simp only [List.mem_cons, List.not_mem_nil, or_false] at hKey
  rcases hKey with rfl | rfl | rfl | rfl | rfl <;> exact h.get?_free (by decide)

theorem exists_readTime_under {old : String} {m : Option Moment} (hNodup : (raw.map (·.1)).Nodup)
    (hKey : taskKeys.lookup key = none) (hOld : taskKeys.lookup old = some key)
    (hOnly : ∀ p ∈ taskKeys, p.2 = key → p.1 = old)
    (h : ∃ v, Under raw old key v ∧ SpellsTime? dayTicks m v) :
    ∃ v w, (renamed taskKeys raw).get? key = some v ∧ readTime v = .ok w ∧
      decodeOption decodeMoment w = decodeOption decodeMoment (ofMoment? m).toJson := by
  obtain ⟨v, hUnder, hTime⟩ := h
  obtain ⟨w, hRead, hDecode⟩ := exists_readTime? hTime
  exact ⟨v, w, get?_renamed_eq_some taskKeys hNodup hKey hOld hOnly hUnder, hRead, hDecode⟩

theorem legibleTime_of_get? (hGet : es.get? key = some v) (hRead : readTime v = .ok w) : LegibleTime (es.at? key) := by
  rw [at?, hGet]
  exact exists_readTime_iff.mp ⟨w, hRead⟩

theorem Spelling.legible (h : Spelling dayTicks t raw) : Legible raw where
  tags := by
    rw [at?, h.get?_free (by decide)]
    rcases h.tags with ⟨hTags, _⟩ | ⟨tag, _, _, hTags⟩
    · rw [hTags]
      exact fun _ => trivial
    · simp only [List.mem_cons, List.not_mem_nil, or_false] at hTags
      rcases hTags with hTags | hTags | hTags <;> rw [hTags] <;> simp [Walkable, truthy]
  created := by
    obtain ⟨v, hUnder, hTime⟩ := h.created
    obtain ⟨w, hRead, _⟩ := exists_readTime hTime
    exact legibleTime_of_get? (get?_renamed_eq_some taskKeys h.nodup rfl rfl (by decide) hUnder) hRead
  due := by
    obtain ⟨v, w, hGet, hRead, _⟩ := exists_readTime_under h.nodup rfl rfl (by decide) h.due
    exact legibleTime_of_get? hGet hRead
  start := by
    obtain ⟨v, w, hGet, hRead, _⟩ := exists_readTime_under h.nodup rfl rfl (by decide) h.start
    exact legibleTime_of_get? hGet hRead
  rule := by
    have hRule := h.rule
    rw [at?, h.get?_free (by decide)]
    intro rule hObject
    split at hRule
    · rw [hRule] at hObject
      cases hObject
    · obtain ⟨rule', hRaw, hSpells⟩ := hRule
      rw [hRaw] at hObject
      cases hObject
      obtain ⟨read, hRead, _⟩ := exists_readRule hSpells
      exact ((step_readTimeAt "end_date").succeeds _).mp ⟨read, hRead⟩
  reminders := by
    obtain ⟨parts, hParts, hSpells⟩ := h.reminders
    rw [at?, h.get?_free (by decide), hParts]
    refine ⟨fun _ => trivial, ?_⟩
    intro items hItems part hPart
    cases hItems
    obtain ⟨_, hMem, hSame⟩ := List.mem_map.mp hPart
    cases hSame
    obtain ⟨_, hRead, _⟩ := exists_readReminders hSpells
    exact exists_readReminder_iff.mp (Attempt.exists_mapM_iff.mp ⟨_, hRead⟩ part hMem)
  subtasks := by
    rw [at?, h.get?_same (by decide)]
    exact fun _ => trivial

theorem decodeTags_tagged (tag : String) {vs : List Value} (h : vs = [] ∨ vs = [.str tag]) :
    ((decodeList decodeStr (.list (tagged (.str tag) vs))).map fun ts => (normalTags ts).map some) =
      (decodeList decodeStr (.list [.str tag])).map fun ts => (normalTags ts).map some := by
  by_cases hEmpty : tag = ""
  -- an empty tag is not put in front of the others, and validation drops it
  · subst hEmpty
    rcases h with rfl | rfl <;> rfl
  · have hTagged : tagged (.str tag) vs = [.str tag] := by
      rcases h with rfl | rfl <;> simp [tagged, truthy, same, hEmpty]
    rw [hTagged]

theorem Spelling.decode_tags (h : Spelling first t raw) {vs : List Value}
    (hItems : itemsOf ((renamed taskKeys raw).at? "tags") = .ok vs) :
    ((decodeList decodeStr (.list (tagged ((renamed taskKeys raw).at? "tag") vs))).map fun ts =>
      (normalTags ts).map some) =
      (decodeList decodeStr (Value.list (t.tags.map .ofStr?)).toJson).map fun ts => (normalTags ts).map some := by
  rw [at?, h.get?_free (by decide)] at hItems
  rw [at?, h.get?_free (by decide)]
  rcases h.tags with ⟨hTags, hTag⟩ | ⟨tag, hOne, hTag, hTags⟩
  · rw [hTags, toJson, Option.getD_some, itemsOf_list] at hItems
    cases hItems
    rw [hTag]
    rfl
  · have hStored : (Value.list (t.tags.map .ofStr?)).toJson = .list [.str tag] := by
      rw [hOne]
      rfl
    rw [hTag, Option.getD_some, hStored]
    apply decodeTags_tagged
    simp only [List.mem_cons, List.not_mem_nil, or_false] at hTags
    rcases hTags with hTags | hTags | hTags <;> rw [hTags] at hItems <;> cases hItems
    · exact .inl rfl
    · exact .inl rfl
    · exact .inr rfl

theorem Spelling.get?_status (h : Spelling first t raw) (hMigrated : Migrated (renamed taskKeys raw) es) :
    es.get? "status" = some (.str t.status.name) := by
  have hDoneFree : (renamed taskKeys raw).get? "done" = raw.get? "done" := h.get?_free (by decide)
  have hStatusFree : (renamed taskKeys raw).get? "status" = raw.get? "status" := h.get?_free (by decide)
  have hRead := hMigrated.status
  rw [Completes, hStatusFree, hDoneFree] at hRead
  rcases h.status with ⟨hStatus, hDone⟩ | ⟨hCompleted, hDone, hStatus⟩
  · have hKept : ¬ (raw.get? "done" = some (.bool true) ∧ isPending (raw.get? "status") = true) := by
      rintro ⟨hTrue, hPending⟩
      rw [hTrue] at hDone
      simp only [List.mem_cons, List.not_mem_nil, or_false, reduceCtorEq, false_or, Option.some.injEq,
        Value.bool.injEq] at hDone
      rw [hStatus, eq_of_beq hDone.symm] at hPending
      cases hPending
    rcases hRead with ⟨hCompletes, _⟩ | ⟨_, hRead⟩
    · exact absurd hCompletes hKept
    · exact hRead.trans hStatus
  · have hPending : isPending (raw.get? "status") = true := by
      simp only [List.mem_cons, List.not_mem_nil, or_false] at hStatus
      rcases hStatus with hStatus | hStatus <;> rw [hStatus] <;> rfl
    rcases hRead with ⟨_, hRead⟩ | ⟨hNot, _⟩
    · rw [hRead, hCompleted]
    · exact absurd ⟨hDone, hPending⟩ hNot

theorem decode_of_rel_readTime {m : Option Moment} {old : String} (hNodup : (raw.map (·.1)).Nodup)
    (hKey : taskKeys.lookup key = none) (hOld : taskKeys.lookup old = some key)
    (hOnly : ∀ p ∈ taskKeys, p.2 = key → p.1 = old)
    (h : ∃ v, Under raw old key v ∧ SpellsTime? dayTicks m v)
    (hRead : Option.Rel (fun v w => readTime v = .ok w) ((renamed taskKeys raw).get? key) (es.get? key)) :
    ∃ w, es.get? key = some w ∧
      decodeOption decodeMoment w = decodeOption decodeMoment (ofMoment? m).toJson := by
  obtain ⟨v, w, hGet, hReads, hDecode⟩ := exists_readTime_under hNodup hKey hOld hOnly h
  rw [hGet] at hRead
  obtain ⟨w', hw', hRead⟩ := exists_of_some_rel hRead
  cases hReads.symm.trans hRead
  exact ⟨w, hw', hDecode⟩

theorem Spelling.decode_rule (h : Spelling dayTicks t raw)
    (hRead : Option.Rel RuleRead ((renamed taskKeys raw).get? "recurring") (es.get? "recurring")) :
    ∃ w, es.get? "recurring" = some w ∧ decodeOption (decodeEntries Recurrence.decode) w =
      decodeOption (decodeEntries Recurrence.decode) ((t.recurrence.map Recurrence.data).getD .null).toJson := by
  have hRule := h.rule
  rw [h.get?_free (by decide)] at hRead
  split at hRule
  · rename_i hNone
    rw [hRule] at hRead
    obtain ⟨w, hGet, hRead⟩ := exists_of_some_rel hRead
    cases hRead
    exact ⟨.null, hGet, by rw [hNone]; rfl⟩
  · rename_i r hSome
    obtain ⟨rule, hRaw, hSpells⟩ := hRule
    obtain ⟨rule', hReads, hDecode⟩ := exists_readRule hSpells
    rw [hRaw] at hRead
    obtain ⟨w, hGet, hRead⟩ := exists_of_some_rel hRead
    cases hRead with
    | rule hRead =>
      cases hReads.symm.trans hRead
      refine ⟨_, hGet, ?_⟩
      rw [hSome]
      exact congrArg (Decoded.map some) hDecode
    | other hNot => exact absurd rfl (hNot rule)

theorem objects_map (parts : List Entries) : objects (parts.map .object) = parts := by
  induction parts with
  | nil => rfl
  | cons part parts ih => exact congrArg (part :: ·) ih

theorem Spelling.decode_reminders (h : Spelling dayTicks t raw) (hMigrated : Migrated (renamed taskKeys raw) es) :
    ∃ w, es.get? "reminders" = some w ∧ ∀ n, decodeParts n Reminder.decode w =
      decodeParts n Reminder.decode (Value.list (t.reminders.map Reminder.data)).toJson := by
  obtain ⟨parts, hParts, hSpells⟩ := h.reminders
  obtain ⟨vs, ws, hItems, hRead, hGet⟩ := hMigrated.reminders
  obtain ⟨ws', hRead', hDecode⟩ := exists_readReminders hSpells
  rw [at?, h.get?_free (by decide), hParts, Option.getD_some, itemsOf_list] at hItems
  cases hItems
  rw [objects_map] at hRead
  cases hRead'.symm.trans hRead
  exact ⟨_, hGet, hDecode⟩

theorem Spelling.decode_created (h : Spelling dayTicks t raw) (hMigrated : Migrated (renamed taskKeys raw) es) :
    ∃ w, es.get? "created_at" = some w ∧ decodeMoment w = decodeMoment (Value.moment t.createdAt).toJson := by
  obtain ⟨v, hUnder, hTime⟩ := h.created
  obtain ⟨w, hReads, -, hDecode⟩ := exists_readTime hTime
  have hRead := hMigrated.times "created_at" (by decide)
  rw [get?_renamed_eq_some taskKeys h.nodup rfl rfl (by decide) hUnder] at hRead
  obtain ⟨w', hGet, hRead⟩ := exists_of_some_rel hRead
  cases hReads.symm.trans hRead
  exact ⟨w, hGet, hDecode⟩

theorem Spelling.get?_title (h : Spelling first t raw) (hMigrated : Migrated (renamed taskKeys raw) es) :
    es.get? "title" = some (.str t.title) := by
  have hTextFree : (renamed taskKeys raw).get? "text" = raw.get? "text" := h.get?_free (by decide)
  have hTitleFree : (renamed taskKeys raw).get? "title" = raw.get? "title" := h.get?_free (by decide)
  rw [hMigrated.title, hTitleFree, hTextFree]
  rcases h.title with ⟨hTitle, hText⟩ | ⟨hText, hTitle⟩ <;> rw [hTitle, hText] <;> rfl

theorem Spelling.get?_subtasks (h : Spelling first t raw) (hMigrated : Migrated (renamed taskKeys raw) es) :
    es.get? "subtasks" = some (Value.list (t.subtasks.map Subtask.data)).toJson := by
  have hGet : Entries.get? (toJsonEntries t.fields) "subtasks" =
      some (.list (toJsonItems (t.subtasks.map Subtask.data))) := rfl
  obtain ⟨vs, hItems, hSubtasks⟩ := hMigrated.subtasks
  rw [at?, h.get?_same (by decide), hGet, Option.getD_some, itemsOf_list] at hItems
  cases hItems
  have hObjects : ∀ v ∈ toJsonItems (t.subtasks.map Subtask.data), ∃ part, v = .object part := by
    rw [toJsonItems_eq, List.map_map]
    intro v hv
    obtain ⟨s, _, rfl⟩ := List.mem_map.mp hv
    exact ⟨_, rfl⟩
  rw [hSubtasks, map_objects hObjects, toJson]

theorem Spelling.decodeEntries_eq (h : Spelling dayTicks t raw) (hMigrate : migrate raw = .ok es) (now : Moment)
    (n : Nat) : Task.decodeEntries now n es = Task.decodeEntries now n (dropBlanks (toJsonEntries t.fields)) := by
  have hMigrated := migrated_of_migrate hMigrate
  generalize hStored : dropBlanks (toJsonEntries t.fields) = stored
  have hKept : ∀ key, key ∉ ["priority", "project", "notes"] → stored.get? key = (t.fields.get? key).map toJson := by
    intro key hKey
    rw [← hStored, (edits_dropBlanks _).agreeBut key hKey, get?_toJsonEntries]
  -- fields that have one spelling, or a present and an old key
  have hBlank : ∀ key ∈ ["priority", "project", "notes"], es.get? key = stored.get? key := by
    intro key hKey
    have hSame : (renamed taskKeys raw).get? key = Entries.get? (toJsonEntries t.fields) key := by
      simp only [List.mem_cons, List.not_mem_nil, or_false] at hKey
      rcases hKey with rfl | rfl | rfl <;> exact h.get?_same (by decide)
    rw [hMigrated.blank key hKey, ← hStored, get?_dropBlanks _ hKey, at?, hSame, ← at?]
  have hId : es.get? "id" = stored.get? "id" := by
    rw [hMigrated.rest "id" (by decide), h.get?_same (by decide), hKept "id" (by decide), get?_toJsonEntries]
  have hMinutes : es.get? "estimated_duration_min" = stored.get? "estimated_duration_min" := by
    rw [hMigrated.rest _ (by decide), hKept _ (by decide)]
    exact get?_renamed_eq_some taskKeys h.nodup rfl rfl (by decide) h.minutes
  have hSource : es.get? "recurrence_source_id" = stored.get? "recurrence_source_id" := by
    rw [hMigrated.rest _ (by decide), hKept _ (by decide)]
    exact get?_renamed_eq_some taskKeys h.nodup rfl rfl (by decide) h.source
  have hTitle : es.get? "title" = stored.get? "title" :=
    (h.get?_title hMigrated).trans (hKept "title" (by decide)).symm
  have hStatus : es.get? "status" = stored.get? "status" :=
    (h.get?_status hMigrated).trans (hKept "status" (by decide)).symm
  have hSubtasks : es.get? "subtasks" = stored.get? "subtasks" :=
    (h.get?_subtasks hMigrated).trans (hKept "subtasks" (by decide)).symm
  have hLength : listLength es "subtasks" = listLength stored "subtasks" := by
    rw [listLength, listLength, hSubtasks]
  -- fields whose spellings are other values, which the decoders take for the same
  obtain ⟨tags, hItems, hTags⟩ := hMigrated.tags
  obtain ⟨created, hCreated, hCreatedSame⟩ := h.decode_created hMigrated
  obtain ⟨due, hDue, hDueSame⟩ := decode_of_rel_readTime h.nodup rfl rfl (by decide) h.due
    (hMigrated.times "due_date" (by decide))
  obtain ⟨start, hStart, hStartSame⟩ := decode_of_rel_readTime h.nodup rfl rfl (by decide) h.start
    (hMigrated.times "start_time" (by decide))
  obtain ⟨rule, hRule, hRuleSame⟩ := h.decode_rule hMigrated.rule
  obtain ⟨reminders, hReminders, hRemindersSame⟩ := h.decode_reminders hMigrated
  rw [Task.decodeEntries, Task.decodeEntries, withDefault_congr hId, required_congr hTitle,
    withDefault_congr (hBlank "notes" (by decide)),
    withDefault_eq_of_decode hTags (hKept _ (by decide)) (h.decode_tags hItems),
    withDefault_congr (hBlank "priority" (by decide)), withDefault_congr (hBlank "project" (by decide)),
    withDefault_congr hStatus, withDefault_eq_of_decode hCreated (hKept _ (by decide)) hCreatedSame,
    withDefault_eq_of_decode hDue (hKept _ (by decide)) hDueSame,
    withDefault_eq_of_decode hStart (hKept _ (by decide)) hStartSame, withDefault_congr hMinutes,
    withDefault_congr hSubtasks, withDefault_eq_of_decode hRule (hKept _ (by decide)) hRuleSame, hLength,
    withDefault_eq_of_decode hReminders (hKept _ (by decide)) (hRemindersSame _), withDefault_congr hSource]

/-- The present form is a normal form, and every spelling of a stored task has one that is read as
that of the present spelling: as the task itself, if it was stored without loss. -/
theorem migrate_spelling : (∀ raw es, migrate raw = .ok es → migrate es = .ok es) ∧
    ∀ t raw, Spelling dayTicks t raw → ∃ es stored, migrate raw = .ok es ∧
      migrate (toJsonEntries (t.fields ++ [("done", .bool t.done)])) = .ok stored ∧
      (∀ now n, Task.decodeEntries now n es = Task.decodeEntries now n stored) ∧
      (t.Storable → ∀ now n, Task.decodeEntries now n es = .ok t) := by
  refine ⟨fun raw es => migrate_migrate, ?_⟩
  intro t raw h
  obtain ⟨es, hMigrate⟩ := exists_migrate_iff.mpr h.legible
  refine ⟨es, _, hMigrate, migrate_stored_eq t, h.decodeEntries_eq hMigrate, ?_⟩
  intro hStorable now n
  rw [h.decodeEntries_eq hMigrate]
  exact Task.decodeEntries_of_writtenIn hStorable (writtenIn_dropBlanks hStorable.project) now n

end Spelling

/-- Two in the afternoon on the first of June 2024. -/
def juneAfternoon : Moment := ⟨63852847200000000, none, by decide⟩

def chore : Task where
  id := "a"
  title := "Water plants"
  tags := [some "home"]
  status := .completed
  createdAt := juneAfternoon
  due := some juneAfternoon
  recurrence := some { rhythm := .weekly, days := [1], endDate := some juneAfternoon }
  reminders := [{ id := "r", time := juneAfternoon }]

def oldChore : Entries :=
  [("id", .str "a"), ("text", .str "Water plants"), ("notes", .str ""), ("tag", .str "home"), ("priority", .null),
    ("project", .null), ("done", .bool true), ("createdAt", .int 1717250400000), ("dueDate", .int 1717250400000),
    ("startTime", .null), ("estimatedDuration", .null), ("subtasks", .list []),
    ("recurring", .object [("type", .str "weekly"), ("interval", .int 1), ("daysOfWeek", .list [.int 1]),
      ("endDate", .int 1717250400000)]),
    ("reminders", .list [.object [("id", .str "r"), ("time", .int 1717250400000), ("notified", .bool false),
      ("type", .str "absolute")]]),
    ("recurrenceSourceId", .null)]

theorem spellsTime_juneAfternoon : SpellsTime dayTicks juneAfternoon (.int 1717250400000) :=
  .millis 1717250400 (.inl rfl) rfl rfl (by decide)

theorem spelling_oldChore : Spelling dayTicks chore oldChore where
  nodup := by decide
  same := by
    simp only [List.forall_mem_cons, List.not_mem_nil, false_implies, implies_true, and_true]
    exact ⟨rfl, rfl, rfl, rfl, rfl⟩
  title := .inr ⟨rfl, rfl⟩
  tags := .inr ⟨"home", rfl, rfl, List.mem_cons_self⟩
  status := .inr ⟨rfl, rfl, List.mem_cons_self⟩
  created := ⟨_, .inr ⟨rfl, rfl⟩, spellsTime_juneAfternoon⟩
  due := ⟨_, .inr ⟨rfl, rfl⟩, spellsTime_juneAfternoon⟩
  start := ⟨_, .inr ⟨rfl, rfl⟩, rfl⟩
  minutes := .inr ⟨rfl, rfl⟩
  source := .inr ⟨rfl, rfl⟩
  rule := ⟨_, rfl, by decide, rfl, rfl, .inr ⟨rfl, rfl⟩, _, .inr ⟨rfl, rfl⟩, spellsTime_juneAfternoon⟩
  reminders := ⟨[_], rfl, .cons ⟨rfl, ⟨_, rfl, spellsTime_juneAfternoon⟩, rfl, rfl⟩ .nil⟩

theorem storable_chore : chore.Storable where
  title := by decide
  trimmed := by decide
  named := by decide
  minutes := by rintro _ ⟨⟩
  subtasks := by rintro _ ⟨⟩
  recurrence := by
    rintro r ⟨⟩
    exact ⟨by decide, by decide, by decide⟩
  tags := ⟨["home"], rfl, by decide⟩
  project := by decide
  moments := by
    have hLocal : ∀ m ∈ chore.moments, m.offset = none := by decide
    intro m hm offset hOffset
    cases (hLocal m hm).symm.trans hOffset

theorem oldChore_migrates : ∃ es, migrate oldChore = .ok es ∧ migrate es = .ok es ∧
    ∀ now n, Task.decodeEntries now n es = .ok chore := by
  obtain ⟨es, _, hMigrate, _, _, hRead⟩ := migrate_spelling.2 chore oldChore spelling_oldChore
  exact ⟨es, hMigrate, migrate_spelling.1 oldChore es hMigrate, hRead storable_chore⟩

def firstDay : Moment := .on ⟨0, by decide⟩ .midnight

def firstTask : Task where
  id := "a"
  title := "x"
  createdAt := firstDay

def oldFirstTask : Entries :=
  [("id", .str "a"), ("title", .str "x"), ("notes", .str ""), ("tags", .list []), ("priority", .null),
    ("project", .null), ("status", .str "pending"), ("created_at", .int (-62135596800000)), ("due_date", .null),
    ("start_time", .null), ("estimated_duration_min", .null), ("subtasks", .list []), ("recurring", .null),
    ("reminders", .list []), ("recurrence_source_id", .null)]

/-- A clock does not find the times of the first day: its milliseconds mean no moment. -/
theorem firstDay_not_migrated : Spelling 0 firstTask oldFirstTask ∧ firstTask.Storable ∧
    ∀ es, migrate oldFirstTask ≠ .ok es := by
  have hSpelling : Spelling 0 firstTask oldFirstTask := {
    nodup := by decide
    same := by
      simp only [List.forall_mem_cons, List.not_mem_nil, false_implies, implies_true, and_true]
      exact ⟨rfl, rfl, rfl, rfl, rfl⟩
    title := .inl ⟨rfl, rfl⟩
    tags := .inl ⟨rfl, rfl⟩
    status := .inl ⟨rfl, List.mem_cons_self⟩
    created := ⟨_, .inl ⟨rfl, rfl⟩, .millis (-62135596800) (.inl rfl) rfl rfl le_rfl⟩
    due := ⟨_, .inl ⟨rfl, rfl⟩, rfl⟩
    start := ⟨_, .inl ⟨rfl, rfl⟩, rfl⟩
    minutes := .inl ⟨rfl, rfl⟩
    source := .inl ⟨rfl, rfl⟩
    rule := rfl
    reminders := ⟨[], rfl, .nil⟩ }
  have hStorable : firstTask.Storable := {
    title := by decide
    trimmed := by decide
    named := by decide
    minutes := by rintro _ ⟨⟩
    subtasks := by rintro _ ⟨⟩
    recurrence := by rintro _ ⟨⟩
    tags := ⟨[], rfl, rfl⟩
    project := by decide
    moments := by
      intro m hm offset hOffset
      obtain rfl := List.mem_singleton.mp hm
      cases hOffset }
  have hFails : (migrate oldFirstTask).isOk = false := by decide +kernel
  refine ⟨hSpelling, hStorable, fun es hMigrate => ?_⟩
  rw [hMigrate] at hFails
  cases hFails

end Legacy

end Agenda
