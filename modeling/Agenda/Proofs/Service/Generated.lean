import Agenda.Proofs.Task.Stored
import Agenda.Proofs.Text.Numeral
import Agenda.Service.Basic

/-! # What generated tasks are made of

A service may put any value into the fields of a task. What becomes of them is said here without the order in
which the cases are tried. No value but a string is shown as an empty text or as `null`, so a date is missing for
those two strings and for no other value that is there. What has been brought to the types of a task stays as it
is when it is written and read again.
-/

namespace Agenda

open Text

/-! ## Texts of values -/

/-- Some character of the text is none of those in `null`. -/
def Telltale (cs : List Char) : Prop :=
  ∃ c ∈ cs, c ∉ "null".toList

variable {cs : List Char} {v : Value}

theorem Telltale.ne (h : Telltale cs) : cs ≠ [] ∧ cs ≠ "null".toList := by
  obtain ⟨c, hMem, hOther⟩ := h
  refine ⟨List.ne_nil_of_mem hMem, ?_⟩
  rintro rfl
  exact hOther hMem

theorem telltale_ofInt (n : Int) : Telltale (ofInt n) := by
  obtain ⟨c, hc⟩ := List.exists_mem_of_ne_nil _ (ofNat_ne_nil n.natAbs)
  obtain ⟨k, rfl⟩ := mem_ofNat hc
  refine ⟨digitChar k, ?_, forall_digitChar (p := fun _ c => c ∉ "null".toList) (by decide) k⟩
  rw [ofInt]
  split
  · exact List.mem_cons_of_mem _ hc
  · exact hc

theorem telltale_layout (x : Double.Decimal) : Telltale x.layout := by
  have hMark : 'e' ∈ x.layout ∨ '.' ∈ x.layout := by
    unfold Double.Decimal.layout
    dsimp only
    split
    · exact .inl (by simp)
    · split
      · exact .inr (by simp)
      · split <;> exact .inr (by simp)
  rcases hMark with hMem | hMem
  · exact ⟨_, hMem, by decide⟩
  · exact ⟨_, hMem, by decide⟩

theorem Telltale.append (h : Telltale cs) (front : List Char) : Telltale (front ++ cs) := by
  obtain ⟨c, hMem, hOther⟩ := h
  exact ⟨c, List.mem_append_right front hMem, hOther⟩

theorem telltale_text (x : Double) : Telltale x.text := by
  cases x with
  | nan => exact ⟨'a', by decide, by decide⟩
  | infinite s => cases s <;> exact ⟨'i', by decide, by decide⟩
  | finite s m e =>
    apply Telltale.append
    split
    · exact ⟨'.', by decide, by decide⟩
    · exact telltale_layout _

/-- No value but a string and null itself is shown as nothing or as `null`. -/
theorem telltale_shownInside (hNull : v ≠ .null) (hText : ∀ s, v ≠ .str s) : Telltale v.shownInside := by
  cases v with
  | null => exact absurd rfl hNull
  | str s => exact absurd rfl (hText s)
  | bool b => cases b <;> exact ⟨'e', by decide, by decide⟩
  | int n => exact telltale_ofInt n
  | num x => exact telltale_text x
  | moment m => exact ⟨'T', by simp [Value.shownInside, Moment.text, Moment.reading], by decide⟩
  | list vs => cases vs <;> exact ⟨'[', by simp [Value.shownInside], by decide⟩
  | object es => cases es <;> exact ⟨'{', by simp [Value.shownInside], by decide⟩

/-- The text of a value that is there. -/
def Value.text? : Value → Option String
  | .null => none
  | v => some v.shown

theorem Value.text?_ne {s : String} (hText : ∀ s, v ≠ .str s) (h : v.text? = some s) : s ≠ "" ∧ s ≠ "null" := by
  have hNull : v ≠ .null := by
    rintro rfl
    cases h
  have hShown : s = String.ofList v.shownInside := by
    cases v with
    | null => cases h
    | str s => exact absurd rfl (hText s)
    | _ => exact (Option.some.inj h).symm
  obtain ⟨hSome, hOther⟩ := (telltale_shownInside hNull hText).ne
  rw [hShown]
  constructor
  · exact fun hEmpty => hSome (String.ofList_injective hEmpty)
  · exact fun hSame => hOther (String.ofList_injective hSame)

/-! ## The fields -/

namespace GeneratedTask

/-- The fields that come of the entries. -/
structure MadeOf (es : Entries) (t : GeneratedTask) : Prop where
  title : t.title = ((es.at? "title").text?).getD ""
  due : ∀ s, t.due = some s ↔ (es.at? "due").text? = some s ∧ s ≠ "" ∧ s ≠ "null"
  listed : ∀ vs, es.at? "tags" = .list vs → t.tags = vs.filterMap Value.text?
  single : ∀ s, es.at? "tags" = .str s → t.tags = [s].filter (· ≠ "")
  untagged : (∀ vs, es.at? "tags" ≠ .list vs) → (∀ s, es.at? "tags" ≠ .str s) → t.tags = []
  priority : ∀ p, t.priority = some p ↔ es.at? "priority" = .str p.name ∨
    ∃ front back, es.at? "priority" = .list (front ++ .str p.name :: back) ∧ ∀ q : Priority, .str q.name ∉ front

theorem titleOf_eq (v : Value) : titleOf v = v.text?.getD "" := by
  cases v <;> rfl

theorem dueOf_str (written : String) : dueOf (.str written) = (some written).filter fun s => s ≠ "" ∧ s ≠ "null" := by
  rw [dueOf, Option.filter_some]
  simp only [decide_eq_true_eq, ← not_or, ite_not]

theorem dueOf_eq_some_iff {v : Value} {s : String} :
    dueOf v = some s ↔ v.text? = some s ∧ s ≠ "" ∧ s ≠ "null" := by
  by_cases hString : ∃ written, v = .str written
  · obtain ⟨written, rfl⟩ := hString
    rw [dueOf_str, Option.filter_eq_some_iff, decide_eq_true_iff]
    rfl
  · have hText : ∀ s, v ≠ .str s := not_exists.mp hString
    have hDue : dueOf v = v.text? := by
      cases v with
      | str s => exact absurd rfl (hText s)
      | _ => rfl
    rw [hDue]
    exact ⟨fun h => ⟨h, Value.text?_ne hText h⟩, fun h => h.1⟩

theorem priorityNamed?_eq_some_iff {v : Value} {p : Priority} : priorityNamed? v = some p ↔ v = .str p.name := by
  constructor
  · intro h
    cases v with
    | str s =>
      have hName := List.find?_some h
      exact congrArg Value.str (eq_of_beq hName).symm
    | _ => cases h
  · rintro rfl
    exact p.ofName?_name

theorem priorityOf_list_eq_some_iff {vs : List Value} {p : Priority} : priorityOf (.list vs) = some p ↔
    ∃ front back, vs = front ++ .str p.name :: back ∧ ∀ q : Priority, .str q.name ∉ front := by
  have hNamed {front : List Value} : (∀ v ∈ front, priorityNamed? v = none) ↔ ∀ q : Priority, .str q.name ∉ front := by
    constructor
    · intro hNone q hMem
      cases (hNone _ hMem).symm.trans (priorityNamed?_eq_some_iff.mpr rfl)
    · intro hNone v hv
      refine Option.eq_none_iff_forall_ne_some.mpr fun q hq => ?_
      rw [priorityNamed?_eq_some_iff.mp hq] at hv
      exact hNone q hv
  rw [priorityOf, List.findSome?_eq_some_iff]
  constructor
  · rintro ⟨front, v, back, rfl, hv, hFront⟩
    obtain rfl := priorityNamed?_eq_some_iff.mp hv
    exact ⟨front, back, rfl, hNamed.mp hFront⟩
  · rintro ⟨front, back, rfl, hFront⟩
    exact ⟨front, _, back, rfl, priorityNamed?_eq_some_iff.mpr rfl, hNamed.mpr hFront⟩

theorem priorityOf_eq_some_iff {v : Value} {p : Priority} : priorityOf v = some p ↔ v = .str p.name ∨
    ∃ front back, v = .list (front ++ .str p.name :: back) ∧ ∀ q : Priority, .str q.name ∉ front := by
  cases v with
  | list vs => simp [priorityOf_list_eq_some_iff]
  | _ => simp [priorityOf, priorityNamed?_eq_some_iff]

theorem tagsOf_list (vs : List Value) : tagsOf (.list vs) = vs.filterMap Value.text? :=
  rfl

theorem tagsOf_str (s : String) : tagsOf (.str s) = [s].filter (· ≠ "") := by
  by_cases h : s = "" <;> simp [tagsOf, h]

theorem exists_madeOf (es : Entries) : ∃ t, decode (.object es) = .ok t ∧ MadeOf es t := by
  refine ⟨_, rfl, titleOf_eq _, fun _ => dueOf_eq_some_iff, ?_, ?_, ?_, fun _ => priorityOf_eq_some_iff⟩
  · intro vs hTags
    rw [hTags]
    exact tagsOf_list vs
  · intro s hTags
    rw [hTags]
    exact tagsOf_str s
  · intro hList hText
    cases hTags : es.at? "tags" with
    | list vs => exact absurd hTags (hList vs)
    | str s => exact absurd hTags (hText s)
    | _ => rfl

theorem MadeOf.due_ne {es : Entries} {t : GeneratedTask} (h : MadeOf es t) : t.due ≠ some "" ∧ t.due ≠ some "null" :=
  ⟨fun hDue => ((h.due _).mp hDue).2.1 rfl, fun hDue => ((h.due _).mp hDue).2.2 rfl⟩

/-- A task that holds no such text for a date is read from what is written of it. -/
theorem decode_data {t : GeneratedTask} (hSome : t.due ≠ some "") (hOther : t.due ≠ some "null") :
    decode t.data = .ok t := by
  obtain ⟨title, due, tags, priority⟩ := t
  have hDue : dueOf (.ofStr? due) = due := by
    cases due with
    | none => rfl
    | some s =>
      refine dueOf_eq_some_iff.mpr ⟨rfl, ?_, ?_⟩
      · rintro rfl
        exact hSome rfl
      · rintro rfl
        exact hOther rfl
  have hTags : tagsOf (.list (tags.map .str)) = tags := by
    rw [tagsOf_list, List.filterMap_map]
    exact List.filterMap_some
  have hPriority : priorityOf (.ofStr? (priority.map Priority.name)) = priority := by
    cases priority with
    | none => rfl
    | some p => exact priorityOf_eq_some_iff.mpr (.inl rfl)
  calc decode (data ⟨title, due, tags, priority⟩) =
      .ok ⟨title, dueOf (.ofStr? due), tagsOf (.list (tags.map .str)),
        priorityOf (.ofStr? (priority.map Priority.name))⟩ := rfl
    _ = .ok ⟨title, due, tags, priority⟩ := by rw [hDue, hTags, hPriority]

/-- Every object is a generated task, which stays as it is when it is written and read again. -/
theorem decode_object (es : Entries) : ∃ t, decode (.object es) = .ok t ∧ MadeOf es t ∧
    (t.due ≠ some "" ∧ t.due ≠ some "null") ∧ decode t.data = .ok t := by
  obtain ⟨t, hDecode, hMade⟩ := exists_madeOf es
  have hDue := hMade.due_ne
  exact ⟨t, hDecode, hMade, hDue, decode_data hDue.1 hDue.2⟩

/-- Numbers and truth values are shown, what is null is left out of a list, and the first name of a priority counts. -/
example : decode (.object [("title", .int 42), ("tags", .list [.str "home", .null, .bool true]),
    ("priority", .list [.int 1, .str "low", .str "high"])]) =
      .ok { title := "42", due := none, tags := ["home", "True"], priority := some .low } :=
  rfl

end GeneratedTask

end Agenda
