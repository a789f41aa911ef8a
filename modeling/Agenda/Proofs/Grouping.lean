import Mathlib.Data.List.Nodup

/-! # Items in groups

An item joins the group of its key, or opens one behind the others. Item by item, every key comes to have
one group, which has the items of the key in their order.
-/

namespace Agenda

variable {κ α : Type} [DecidableEq κ] {add : κ → α → List (κ × List α) → List (κ × List α)} {k : κ} {x : α}
  {ks : List κ} {items : List (κ × α)} {groups : List (κ × List α)}

/-- Adding an item under a key. -/
structure Grouping (add : κ → α → List (κ × List α) → List (κ × List α)) : Prop where
  nil : ∀ k x, add k x [] = [(k, [x])]
  cons : ∀ k x j xs groups,
    add k x ((j, xs) :: groups) = if j = k then (j, xs ++ [x]) :: groups else (j, xs) :: add k x groups

/-- Every key that there is has one group, which has the items of the key in their order. -/
def Grouped (items : List (κ × α)) (groups : List (κ × List α)) : Prop :=
  ∃ ks : List κ, ks.Nodup ∧ (∀ k, k ∈ ks ↔ k ∈ items.map Prod.fst) ∧
    groups = ks.map fun k => (k, (items.filter fun x => x.1 = k).map Prod.snd)

theorem Grouped.nil : Grouped ([] : List (κ × α)) [] :=
  ⟨[], List.nodup_nil, fun _ => Iff.rfl, rfl⟩

namespace Grouping

/-- The item joins the group of the key, or a new one at the end. -/
theorem add_map (hAdd : Grouping add) {f : κ → List α} (hDistinct : ks.Nodup) (hNone : k ∉ ks → f k = []) :
    add k x (ks.map fun j => (j, f j)) =
      (if k ∈ ks then ks else ks ++ [k]).map fun j => (j, f j ++ if k = j then [x] else []) := by
  induction ks with
  | nil => simp [hAdd.nil, hNone]
  | cons j ks ih =>
    obtain ⟨hNew, hDistinct⟩ := List.nodup_cons.mp hDistinct
    rw [List.map_cons, hAdd.cons]
    split
    · rename_i hSame
      subst hSame
      rw [if_pos List.mem_cons_self, List.map_cons, if_pos rfl]
      congr 1
      refine List.map_congr_left fun i hi => ?_
      rw [if_neg (ne_of_mem_of_not_mem hi hNew).symm, List.append_nil]
    · rename_i hOther
      have hMem : k ∈ j :: ks ↔ k ∈ ks := by rw [List.mem_cons, or_iff_right (Ne.symm hOther)]
      rw [ih hDistinct fun hk => hNone (mt hMem.mp hk)]
      simp only [hMem]
      split <;> simp [Ne.symm hOther]

theorem grouped_add (hAdd : Grouping add) (h : Grouped items groups) (k : κ) (x : α) :
    Grouped (items ++ [(k, x)]) (add k x groups) := by
  obtain ⟨ks, hDistinct, hKeys, rfl⟩ := h
  have hNone : k ∉ ks → (items.filter fun y => y.1 = k).map Prod.snd = [] := by
    intro hk
    rw [List.map_eq_nil_iff, List.filter_eq_nil_iff]
    intro y hy hSame
    exact hk ((hKeys k).mpr (of_decide_eq_true hSame ▸ List.mem_map_of_mem hy))
  refine ⟨if k ∈ ks then ks else ks ++ [k], ?_, fun j => ?_, ?_⟩
  · split
    · exact hDistinct
    · rename_i hNew
      exact List.concat_eq_append ▸ hDistinct.concat hNew
  · rw [List.map_append, List.mem_append, ← hKeys]
    split
    · simp only [List.map_cons, List.map_nil, List.mem_singleton]
      exact ⟨.inl, fun h => h.elim id fun hSame => hSame ▸ ‹k ∈ ks›⟩
    · simp
  · rw [hAdd.add_map hDistinct hNone]
    refine List.map_congr_left fun j _ => ?_
    rw [List.filter_append, List.map_append]
    by_cases hSame : k = j <;> simp [hSame]

theorem grouped_foldl (hAdd : Grouping add) (h : Grouped items groups) (more : List (κ × α)) :
    Grouped (items ++ more) (more.foldl (fun groups x => add x.1 x.2 groups) groups) := by
  induction more generalizing items groups with
  | nil => rwa [List.append_nil]
  | cons x more ih =>
    rw [List.append_cons]
    exact ih (hAdd.grouped_add h x.1 x.2)

/-- Items that are grouped by what each is under. -/
theorem foldl_by_key (hAdd : Grouping add) (key : α → κ) (xs : List α) : ∃ ks : List κ, ks.Nodup ∧
    (∀ k, k ∈ ks ↔ k ∈ xs.map key) ∧
    xs.foldl (fun groups x => add (key x) x groups) [] = ks.map fun k => (k, xs.filter (key · = k)) := by
  obtain ⟨ks, hDistinct, hKeys, hGroups⟩ := hAdd.grouped_foldl .nil (xs.map fun x => (key x, x))
  refine ⟨ks, hDistinct, fun k => ?_, ?_⟩
  · rw [hKeys, List.nil_append, List.map_map]
    rfl
  · rw [List.foldl_map, List.nil_append] at hGroups
    refine hGroups.trans (List.map_congr_left fun k _ => congrArg (k, ·) ?_)
    rw [List.filter_map, List.map_map]
    exact List.map_id _

end Grouping

end Agenda
