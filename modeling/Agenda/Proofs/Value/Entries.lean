import Agenda.Value.Basic
import Mathlib.Data.List.Nodup

/-! # Entries under changes

What is found under a key after others were erased or written. Writing what is there already, and
erasing what is not there, change nothing.
-/

namespace Agenda.Entries

variable {es es' es'' : Entries} {key : String} {v : Value}

theorem get?_erase (es : Entries) (key other : String) :
    (es.erase key).get? other = if other = key then none else es.get? other := by
  induction es with
  | nil => simp [erase, get?]
  | cons e es ih =>
    obtain ⟨k, w⟩ := e
    rw [erase] at ih
    by_cases hk : k = key
    · by_cases ho : other = key <;> simp_all [erase, get?_cons]
    · by_cases ho : other = k
      · simp [erase, get?_cons, hk, ho]
      · simp [erase, get?_cons, hk, ho, ih]

theorem erase_of_get? (h : es.get? key = none) : es.erase key = es := by
  induction es with
  | nil => rfl
  | cons e es ih =>
    obtain ⟨k, w⟩ := e
    rw [get?_cons] at h
    by_cases hk : key = k
    · simp [hk] at h
    · rw [if_neg hk] at h
      have hTail := ih h
      rw [erase] at hTail ⊢
      rw [List.filter_cons_of_pos (by simpa using Ne.symm hk), hTail]

theorem insert_of_get? (h : es.get? key = some v) : es.insert key v = es := by
  induction es with
  | nil => cases h
  | cons e es ih =>
    obtain ⟨k, w⟩ := e
    rw [get?_cons] at h
    by_cases hk : key = k
    · rw [if_pos hk] at h
      simp [insert, hk, Option.some.inj h]
    · rw [if_neg hk] at h
      rw [insert, if_neg (Ne.symm hk), ih h]

theorem insert_of_notMem (h : key ∉ es.map (·.1)) : es.insert key v = es ++ [(key, v)] := by
  induction es with
  | nil => rfl
  | cons e es ih =>
    obtain ⟨k, w⟩ := e
    rw [List.map_cons, List.mem_cons, not_or] at h
    rw [insert, if_neg (Ne.symm h.1), ih h.2, List.cons_append]

theorem keys_insert (es : Entries) (key : String) (v : Value) :
    (es.insert key v).map (·.1) = if key ∈ es.map (·.1) then es.map (·.1) else es.map (·.1) ++ [key] := by
  induction es with
  | nil => rfl
  | cons e es ih =>
    obtain ⟨k, w⟩ := e
    by_cases hk : k = key
    · simp [insert, hk]
    · rw [insert, if_neg hk, List.map_cons, List.map_cons, ih]
      simp only [List.mem_cons, Ne.symm hk, false_or]
      split <;> rfl

theorem nodup_insert (h : (es.map (·.1)).Nodup) (key : String) (v : Value) : ((es.insert key v).map (·.1)).Nodup := by
  rw [keys_insert]
  split
  · exact h
  · rename_i hNew
    rw [← List.concat_eq_append]
    exact h.concat hNew

theorem mem_insert {e : String × Value} (h : e ∈ es.insert key v) : e = (key, v) ∨ e ∈ es := by
  induction es with
  | nil => exact .inl (List.mem_singleton.mp h)
  | cons e' es ih =>
    obtain ⟨k, w⟩ := e'
    rw [insert] at h
    split at h
    · rename_i hk
      rcases List.mem_cons.mp h with rfl | h
      · exact .inl (by rw [hk])
      · exact .inr (List.mem_cons_of_mem _ h)
    · rcases List.mem_cons.mp h with rfl | h
      · exact .inr List.mem_cons_self
      · exact (ih h).imp_right (List.mem_cons_of_mem _)

theorem ofPairs_of_nodup {ps : List (String × Value)} (h : (ps.map (·.1)).Nodup) : ofPairs ps = ps := by
  -- What is still to be written lies behind what was written.
  suffices hFold : ∀ qs : List (String × Value), ((qs ++ ps).map (·.1)).Nodup →
      ps.foldl (fun es p => insert p.1 p.2 es) qs = qs ++ ps by
    exact (hFold [] h).trans (List.nil_append ps)
  clear h
  induction ps with
  | nil => simp
  | cons p ps ih =>
    intro qs hNodup
    have hSplit : qs ++ p :: ps = (qs ++ [p]) ++ ps := by simp
    have hNew : p.1 ∉ qs.map (·.1) := by
      rw [List.map_append, List.map_cons, List.nodup_middle, List.nodup_cons, List.mem_append, not_or] at hNodup
      exact hNodup.1.1
    rw [List.foldl_cons, insert_of_notMem hNew, hSplit]
    apply ih
    rwa [← hSplit]

theorem get?_merge_of_notMem {fields : Entries} (h : ∀ p ∈ fields, p.1 ≠ key) :
    (es.merge fields).get? key = es.get? key := by
  induction fields generalizing es with
  | nil => rfl
  | cons p fields ih =>
    rw [List.forall_mem_cons] at h
    have hHead : (es.insert p.1 p.2).get? key = es.get? key := by
      rw [get?_insert, if_neg (Ne.symm h.1)]
    exact (ih h.2).trans hHead

theorem get?_merge_cases (es fields : Entries) (key : String) :
    (es.merge fields).get? key = es.get? key ∨ ∃ v, (key, v) ∈ fields ∧ (es.merge fields).get? key = some v := by
  induction fields generalizing es with
  | nil => exact .inl rfl
  | cons p fields ih =>
    change ((es.insert p.1 p.2).merge fields).get? key = _ ∨ ∃ v, _ ∧ ((es.insert p.1 p.2).merge fields).get? key = _
    rcases ih (es.insert p.1 p.2) with h | ⟨v, hv, h⟩
    · rw [h, get?_insert]
      by_cases hKey : key = p.1
      · rw [if_pos hKey]
        exact .inr ⟨p.2, hKey ▸ List.mem_cons_self, rfl⟩
      · exact .inl (if_neg hKey)
    · exact .inr ⟨v, List.mem_cons_of_mem p hv, h⟩

theorem get?_merge_of_all {fields : Entries} (hValue : ∀ p ∈ fields, p.1 = key → p.2 = v)
    (hSome : es.get? key = some v ∨ ∃ p ∈ fields, p.1 = key) : (es.merge fields).get? key = some v := by
  induction fields generalizing es with
  | nil => simpa [merge] using hSome
  | cons p fields ih =>
    rw [List.forall_mem_cons] at hValue
    change ((es.insert p.1 p.2).merge fields).get? key = some v
    apply ih hValue.2
    rw [get?_insert]
    by_cases hKey : key = p.1
    · rw [if_pos hKey, hValue.1 hKey.symm]
      exact .inl rfl
    · rw [if_neg hKey]
      refine hSome.imp_right ?_
      rintro ⟨q, hq, hSame⟩
      rcases List.mem_cons.mp hq with rfl | hq
      · exact absurd hSame.symm hKey
      · exact ⟨q, hq, hSame⟩

theorem mem_of_get? (h : es.get? key = some v) : (key, v) ∈ es := by
  obtain ⟨_, _, rfl, _⟩ := List.lookup_eq_some_iff.mp h
  exact List.mem_append_cons_self

theorem get?_of_mem (hNodup : (es.map (·.1)).Nodup) (h : (key, v) ∈ es) : es.get? key = some v := by
  induction es with
  | nil => cases h
  | cons e es ih =>
    obtain ⟨k, w⟩ := e
    rw [List.map_cons, List.nodup_cons] at hNodup
    rw [get?_cons]
    rcases List.mem_cons.mp h with ⟨rfl, rfl⟩ | hMem
    · exact if_pos rfl
    · have hOther : key ≠ k := by
        rintro rfl
        exact hNodup.1 (List.mem_map.mpr ⟨_, hMem, rfl⟩)
      rw [if_neg hOther, ih hNodup.2 hMem]

/-! ## Changes under some keys -/

/-- Nothing has changed but under the listed keys. -/
def AgreeBut (keys : List String) (es es' : Entries) : Prop :=
  ∀ key, key ∉ keys → es'.get? key = es.get? key

theorem AgreeBut.at? {keys : List String} (h : AgreeBut keys es es') (hKey : key ∉ keys) :
    es'.at? key = es.at? key := by
  rw [Entries.at?, Entries.at?, h key hKey]

/-- Entries that are made of others by writing and erasing, under the listed keys only. -/
inductive Edits (keys : List String) (es : Entries) : Entries → Prop
  | refl : Edits keys es es
  | insert {es' : Entries} {key : String} (hKey : key ∈ keys) (v : Value) (h : Edits keys es es') :
    Edits keys es (es'.insert key v)
  | erase {es' : Entries} {key : String} (hKey : key ∈ keys) (h : Edits keys es es') : Edits keys es (es'.erase key)

theorem edits_insert (es : Entries) (key : String) (v : Value) : Edits [key] es (es.insert key v) :=
  .insert List.mem_cons_self v .refl

theorem edits_erase (es : Entries) (key : String) : Edits [key] es (es.erase key) :=
  .erase List.mem_cons_self .refl

theorem Edits.mono {keys keys' : List String} (h : Edits keys es es') (hKeys : keys ⊆ keys') : Edits keys' es es' := by
  induction h with
  | refl => exact .refl
  | insert hKey v _ ih => exact ih.insert (hKeys hKey) v
  | erase hKey _ ih => exact ih.erase (hKeys hKey)

theorem Edits.trans {keys keys' : List String} (h : Edits keys es es') (h' : Edits keys' es' es'') :
    Edits (keys ++ keys') es es'' := by
  induction h' with
  | refl => exact h.mono (List.subset_append_left _ _)
  | insert hKey v _ ih => exact ih.insert (List.mem_append_right _ hKey) v
  | erase hKey _ ih => exact ih.erase (List.mem_append_right _ hKey)

theorem Edits.agreeBut {keys : List String} (h : Edits keys es es') : AgreeBut keys es es' := by
  intro other hOther
  induction h with
  | refl => rfl
  | insert hKey _ _ ih => rw [get?_insert, if_neg (ne_of_mem_of_not_mem hKey hOther).symm, ih]
  | erase hKey _ ih => rw [get?_erase, if_neg (ne_of_mem_of_not_mem hKey hOther).symm, ih]

/-- Entries under the same keys agree where those of equal keys do. -/
theorem agreeBut_of_forall₂ {keys : List String}
    (h : List.Forall₂ (fun e e' => e.1 = e'.1 ∧ (e.1 ∉ keys → e'.2 = e.2)) es es') : AgreeBut keys es es' := by
  intro key hKey
  induction h with
  | nil => rfl
  | @cons e e' es es' hHead _ ih =>
    obtain ⟨k, v⟩ := e
    obtain ⟨k', v'⟩ := e'
    obtain ⟨hSame, hValue⟩ := hHead
    dsimp only at hSame hValue
    subst hSame
    rw [get?_cons, get?_cons, ih]
    split
    · rename_i hk
      rw [hValue (hk ▸ hKey)]
    · rfl

end Agenda.Entries
