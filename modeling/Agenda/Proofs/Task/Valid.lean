import Agenda.Proofs.Text.Lower
import Agenda.Proofs.Value.Decoded
import Mathlib.Data.List.Nodup
import Mathlib.Data.List.Range

/-! # Valid tasks

Decoding checks the rules of the fields and brings titles, tags and weekdays into normal form. So
whatever the data, a task that is decoded from it keeps all the rules.
-/

namespace Agenda

open Value

structure Recurrence.Valid (r : Recurrence) : Prop where
  interval : 1 ≤ r.interval
  increasing : r.days.Pairwise (· < ·)
  weekdays : ∀ d ∈ r.days, 0 ≤ d ∧ d ≤ 6

/-- The rules that every validated task keeps. -/
structure Task.Valid (t : Task) : Prop where
  title : t.title ≠ ""
  trimmed : String.ofList (Text.trim t.title.toList) = t.title
  named : none ∉ t.tags
  minutes : ∀ n, t.minutes = some n → 1 ≤ n
  subtasks : ∀ s ∈ t.subtasks, s.text ≠ ""
  recurrence : ∀ r, t.recurrence = some r → r.Valid

/-! ## Tags -/

section Tags

open Text

variable {tag s : String} {tags : List String}

/-- A trimmed tag without the signs in front. -/
def tagBody (tag : String) : List Char :=
  (trim tag.toList).dropWhile (· == '#')

/-- Behind the signs in front of a trimmed tag stands a blank. -/
def Gapped (tag : String) : Prop :=
  ∃ c ∈ (tagBody tag).head?, blank c = true

/-- No blank in front. -/
def Flush (tag : String) : Prop :=
  ∀ c ∈ tag.toList.head?, blank c = false

theorem flush_normalTag_iff : Flush (normalTag tag) ↔ ¬ Gapped tag := by
  rw [Flush, normalTag, String.toList_ofList]
  refine head_lower_blank_iff.trans ?_
  simp [Gapped, tagBody]

theorem head_normalTag (tag : String) : (normalTag tag).toList.head? ≠ some '#' := by
  rw [normalTag, String.toList_ofList]
  apply head_lower_ne_hash
  intro hHash
  have hNot := List.head?_dropWhile_not (· == '#') (trim tag.toList)
  rw [hHash] at hNot
  exact absurd hNot (by decide)

theorem last_normalTag (tag : String) : ∀ c ∈ (normalTag tag).toList.getLast?, blank c = false := by
  rw [normalTag, String.toList_ofList]
  apply last_lowerFrom
  intro c hc
  obtain ⟨front, hFront⟩ := List.dropWhile_suffix (l := trim tag.toList) (· == '#')
  refine @last_stripBoth tag.toList blank c ?_
  change c ∈ (trim tag.toList).getLast?
  rw [← hFront, List.getLast?_append, hc]
  rfl

theorem trim_of_tagBody (h : tagBody tag = tag.toList) : trim tag.toList = tag.toList := by
  have hLength : (tagBody tag).length ≤ (trim tag.toList).length := (List.dropWhile_suffix _).length_le
  rw [h] at hLength
  exact (trim_sublist tag.toList).eq_of_length_le hLength

theorem normalTag_normalTag_iff : normalTag (normalTag tag) = normalTag tag ↔ Flush (normalTag tag) := by
  have hLower : lower (tagBody (normalTag tag)) = tagBody (normalTag tag) := by
    apply lower_eq_self
    intro c hc
    have hMem := (trim_sublist _).subset ((List.dropWhile_sublist _).subset hc)
    rw [normalTag, String.toList_ofList] at hMem
    exact spells_of_mem_lowerFrom hMem
  have hAgain : normalTag (normalTag tag) = String.ofList (tagBody (normalTag tag)) := by
    rw [← hLower]
    rfl
  rw [hAgain]
  constructor
  · intro hSame
    have hBody : tagBody (normalTag tag) = (normalTag tag).toList := by
      rw [← String.toList_ofList (l := tagBody _), hSame]
    exact (trim_eq_self_iff.mp (trim_of_tagBody hBody)).1
  · intro hFlush
    have hTrim : trim (normalTag tag).toList = (normalTag tag).toList :=
      trim_eq_self_iff.mpr ⟨hFlush, last_normalTag tag⟩
    have hBody : tagBody (normalTag tag) = (normalTag tag).toList := by
      rw [tagBody, hTrim, List.dropWhile_eq_self_iff]
      intro hPos hHead
      apply head_normalTag tag
      rw [List.head?_eq_getElem?, List.getElem?_eq_getElem hPos, eq_of_beq hHead]
    rw [hBody, String.ofList_toList]

theorem normalTags_append_singleton (tags : List String) (tag : String) : normalTags (tags ++ [tag]) =
    if normalTag tag = "" || (normalTags tags).contains (normalTag tag) then normalTags tags
    else normalTags tags ++ [normalTag tag] := by
  rw [normalTags, List.foldl_append]
  rfl

theorem mem_normalTags : s ∈ normalTags tags ↔ s ≠ "" ∧ ∃ tag ∈ tags, normalTag tag = s := by
  induction tags using List.reverseRecOn with
  | nil => simp [normalTags]
  | append_singleton tags tag ih =>
    rw [normalTags_append_singleton]
    split
    · rename_i h
      simp only [Bool.or_eq_true, decide_eq_true_eq, List.contains_iff_mem] at h
      constructor
      · intro hs
        obtain ⟨hSome, t, ht, rfl⟩ := ih.mp hs
        exact ⟨hSome, t, List.mem_append_left _ ht, rfl⟩
      · rintro ⟨hSome, t, ht, rfl⟩
        rcases List.mem_append.mp ht with ht | ht
        · exact ih.mpr ⟨hSome, t, ht, rfl⟩
        · obtain rfl := List.mem_singleton.mp ht
          exact h.resolve_left hSome
    · rename_i h
      simp only [Bool.or_eq_true, decide_eq_true_eq, List.contains_iff_mem, not_or] at h
      constructor
      · intro hs
        rcases List.mem_append.mp hs with hs | hs
        · obtain ⟨hSome, t, ht, rfl⟩ := ih.mp hs
          exact ⟨hSome, t, List.mem_append_left _ ht, rfl⟩
        · obtain rfl := List.mem_singleton.mp hs
          exact ⟨h.1, tag, List.mem_append_right _ List.mem_cons_self, rfl⟩
      · rintro ⟨hSome, t, ht, rfl⟩
        rcases List.mem_append.mp ht with ht | ht
        · exact List.mem_append_left _ (ih.mpr ⟨hSome, t, ht, rfl⟩)
        · obtain rfl := List.mem_singleton.mp ht
          exact List.mem_append_right _ List.mem_cons_self

theorem nodup_normalTags (tags : List String) : (normalTags tags).Nodup := by
  induction tags using List.reverseRecOn with
  | nil => exact .nil
  | append_singleton tags tag ih =>
    rw [normalTags_append_singleton]
    split
    · exact ih
    · rename_i h
      simp only [Bool.or_eq_true, decide_eq_true_eq, List.contains_iff_mem, not_or] at h
      rw [← List.concat_eq_append]
      exact List.Nodup.concat h.2 ih

theorem normalTags_sublist (tags : List String) : (normalTags tags).Sublist (tags.map normalTag) := by
  induction tags using List.reverseRecOn with
  | nil => exact .slnil
  | append_singleton tags tag ih =>
    rw [normalTags_append_singleton, List.map_append]
    split
    · exact ih.trans (List.sublist_append_left _ _)
    · exact ih.append (.refl _)

/-- Tags that are there, each once, stay as they are if each of them does. -/
theorem normalTags_eq_self_iff (hNodup : tags.Nodup) (hSome : "" ∉ tags) :
    normalTags tags = tags ↔ ∀ tag ∈ tags, normalTag tag = tag := by
  constructor
  · intro hSame
    have hSublist := normalTags_sublist tags
    rw [hSame] at hSublist
    have hMap := hSublist.eq_of_length (List.length_map _).symm
    exact List.map_inj_left.mp (hMap.symm.trans (List.map_id tags).symm)
  · intro hEach
    induction tags using List.reverseRecOn with
    | nil => rfl
    | append_singleton tags tag ih =>
      rw [List.forall_mem_append] at hEach
      have hTag := hEach.2 tag List.mem_cons_self
      have hNew : tag ∉ tags := fun h => List.disjoint_of_nodup_append hNodup h List.mem_cons_self
      have hBefore := ih hNodup.of_append_left (fun h => hSome (List.mem_append_left _ h)) hEach.1
      have hName : tag ≠ "" := fun h => hSome (h ▸ List.mem_append_right _ List.mem_cons_self)
      rw [normalTags_append_singleton, hTag, hBefore, if_neg (by simp [hName, hNew])]

theorem flush_normalTags_iff : (∀ tag ∈ normalTags tags, Flush tag) ↔ ∀ tag ∈ tags, ¬ Gapped tag := by
  constructor
  · intro hFlush tag ht
    rw [← flush_normalTag_iff]
    by_cases hName : normalTag tag = ""
    · rw [hName]
      nofun
    · exact hFlush _ (mem_normalTags.mpr ⟨hName, tag, ht, rfl⟩)
  · intro hTags tag ht
    obtain ⟨_, name, hName, rfl⟩ := mem_normalTags.mp ht
    exact flush_normalTag_iff.mpr (hTags name hName)

/-- Tags in normal form stay as they are the next time exactly if none of them has a blank in front. -/
theorem normalTags_normalTags_iff : normalTags (normalTags tags) = normalTags tags ↔ ∀ tag ∈ tags, ¬ Gapped tag := by
  have hSome : "" ∉ normalTags tags := fun h => (mem_normalTags.mp h).1 rfl
  rw [normalTags_eq_self_iff (nodup_normalTags tags) hSome, ← flush_normalTags_iff]
  refine forall₂_congr fun tag ht => ?_
  obtain ⟨_, name, _, rfl⟩ := mem_normalTags.mp ht
  exact normalTag_normalTag_iff

end Tags

/-! ## Fields -/

theorem ne_of_decodeText {v : Value} {s : String} (h : decodeText v = .ok s) : s ≠ "" := by
  have hCheck := (Decoded.check_eq_ok.mp h).2
  simpa using hCheck

theorem trimmed_of_decodeTitle {v : Value} {s : String} (h : decodeTitle v = .ok s) :
    s ≠ "" ∧ String.ofList (Text.trim s.toList) = s := by
  obtain ⟨hMap, hCheck⟩ := Decoded.check_eq_ok.mp h
  obtain ⟨raw, _, rfl⟩ := Decoded.map_eq_ok.mp hMap
  refine ⟨by simpa using hCheck, ?_⟩
  rw [String.toList_ofList, Text.trim_trim]

theorem pairwise_week (days : List Int) : ((List.range 7).filterMap fun (d : Nat) =>
    if days.contains (d : Int) then some (d : Int) else none).Pairwise (· < ·) := by
  rw [List.pairwise_filterMap]
  refine List.pairwise_lt_range.imp ?_
  intro a b (hLt : a < b) x hx y hy
  simp only [Option.ite_none_right_eq_some, Option.some.injEq] at hx hy
  omega

theorem valid_of_decodeDays {v : Value} {days : List Int} (h : decodeDays v = .ok days) :
    days.Pairwise (· < ·) ∧ ∀ d ∈ days, 0 ≤ d ∧ d ≤ 6 := by
  obtain ⟨raw, _, rfl⟩ := Decoded.map_eq_ok.mp h
  refine ⟨pairwise_week raw, fun d hd => ?_⟩
  simp only [List.mem_filterMap, List.mem_range, Option.ite_none_right_eq_some, Option.some.injEq] at hd
  omega

theorem Recurrence.valid_of_decode {es : Entries} {r : Recurrence} (h : decode es = .ok r) : r.Valid := by
  simp only [decode, Decoded.and_eq_ok] at h
  obtain ⟨_, _, ⟨_, days, ⟨_, interval, ⟨_, _, hMk, _, rfl⟩, hInterval, rfl⟩, hDays, rfl⟩, _, rfl⟩ := h
  cases hMk
  have hOrdered : days.Pairwise (· < ·) ∧ ∀ d ∈ days, 0 ≤ d ∧ d ≤ 6 := by
    rcases of_withDefault hDays with rfl | ⟨v, hv⟩
    · exact ⟨.nil, fun _ h => absurd h List.not_mem_nil⟩
    · exact valid_of_decodeDays hv
  refine ⟨?_, hOrdered.1, hOrdered.2⟩
  rcases of_withDefault hInterval with rfl | ⟨v, hv⟩
  · exact Int.le_refl 1
  · exact of_decide_eq_true (Decoded.check_eq_ok.mp hv).2

theorem Subtask.ne_of_decode {id : String} {es : Entries} {s : Subtask} (h : decode id es = .ok s) : s.text ≠ "" := by
  simp only [decode, Decoded.and_eq_ok] at h
  obtain ⟨_, _, ⟨_, text, ⟨_, _, hMk, _, rfl⟩, hText, rfl⟩, _, rfl⟩ := h
  cases hMk
  obtain ⟨v, hv⟩ := of_required hText
  exact ne_of_decodeText hv

/-! ## Whole tasks -/

theorem named_of_withDefault {es : Entries} {tags : List (Option String)} (h : withDefault es "tags" []
    (fun v => (decodeList decodeStr v).map fun ts => (normalTags ts).map some) = .ok tags) : none ∉ tags := by
  rcases of_withDefault h with rfl | ⟨v, hv⟩
  · exact List.not_mem_nil
  · obtain ⟨names, _, rfl⟩ := Decoded.map_eq_ok.mp hv
    simp

/-- No validated task has a tag twice. -/
theorem Task.nodup_tags_of_decodeEntries {now : Moment} {n : Nat} {es : Entries} {t : Task}
    (h : decodeEntries now n es = .ok t) : t.tags.Nodup := by
  obtain hNone | ⟨v, hv⟩ := of_withDefault (decodeEntries_eq_ok.mp h).tags
  · rw [hNone]
    exact List.nodup_nil
  · obtain ⟨names, _, hNames⟩ := Decoded.map_eq_ok.mp hv
    rw [← hNames]
    exact (nodup_normalTags names).map fun _ _ => Option.some.inj

theorem Task.valid_of_decodeEntries {now : Moment} {n : Nat} {es : Entries} {t : Task}
    (h : decodeEntries now n es = .ok t) : t.Valid := by
  have hRead := decodeEntries_eq_ok.mp h
  obtain ⟨v, hv⟩ := of_required hRead.title
  have hTitle := trimmed_of_decodeTitle hv
  refine ⟨hTitle.1, hTitle.2, named_of_withDefault hRead.tags, ?_, ?_, ?_⟩
  · intro n hn
    rcases of_withDefault hRead.minutes with hNone | ⟨v, hv⟩
    · cases hn.symm.trans hNone
    · rw [hn] at hv
      exact of_decide_eq_true (Decoded.check_eq_ok.mp (of_decodeOption hv)).2
  · intro s hs
    rcases of_withDefault hRead.subtasks with hNone | ⟨v, hv⟩
    · rw [hNone] at hs
      cases hs
    · obtain ⟨id, es, hDecoded⟩ := of_decodeParts hv hs
      exact Subtask.ne_of_decode hDecoded
  · intro r hr
    rcases of_withDefault hRead.recurrence with hNone | ⟨v, hv⟩
    · cases hr.symm.trans hNone
    · rw [hr] at hv
      obtain ⟨es, hDecoded⟩ := of_decodeEntries (of_decodeOption hv)
      exact Recurrence.valid_of_decode hDecoded

end Agenda
