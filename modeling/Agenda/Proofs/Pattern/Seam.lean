import Agenda.Proofs.Pattern.Found

/-! # What stands side by side

Of a text it may be known only which characters stand side by side in it. A pattern that reads a
stretch of the text goes from one such pair to another, so the pairs to which it can lead are found
without the text. If there are none, the pattern is found in no text that has only these pairs.
-/

namespace Agenda.Pattern

/-- What stands in front of a place and behind it; nothing at an end of the text. -/
abbrev Seam := Option Char × Option Char

/-- All places of a text behind a character. -/
def seamsFrom (before : Option Char) : List Char → List Seam
  | [] => [(before, none)]
  | c :: cs => (before, some c) :: seamsFrom (some c) cs

def seams (cs : List Char) : List Seam :=
  seamsFrom none cs

/-- The places to which a pattern may lead from some places, in a text that has only certain ones. What
it looks at without reading it is left open, except for the edges of words. -/
def reach (places : List Seam) : Pattern → List Seam → List Seam
  | .one q, here =>
    if here.any (·.2.any q) then places.filter fun s => s.1.any q && here.any (·.2 == s.1) else []
  | .many _ q least _, here =>
    (if least = 0 then here else []) ++ if here.any (·.2.any q) then places.filter (·.1.any q) else []
  | .both a b, here => b.reach places (a.reach places here)
  | .either a b, here => a.reach places here ++ b.reach places here
  | .capture _ a, here => a.reach places here
  | .edge, here => here.filter fun s => isWord s.1 != isWord s.2
  | _, here => here

variable {p : Pattern} {before : Option Char} {cs front rest : List Char} {places here : List Seam} {c : Char}

/-! ## Places of a text -/

theorem head_mem_seamsFrom : (before, cs.head?) ∈ seamsFrom before cs := by
  cases cs <;> exact List.mem_cons_self

/-- The places behind a part of the text are places of the text. -/
theorem seamsFrom_subset_append (front : List Char) :
    seamsFrom (front.getLast?.or before) rest ⊆ seamsFrom before (front ++ rest) := by
  induction front generalizing before with
  | nil => exact List.Subset.refl _
  | cons c front ih =>
    rw [getLast?_cons_or]
    exact List.subset_cons_of_subset _ ih

/-- A run of one character adds no places to those of two of them. -/
theorem seamsFrom_replicate_subset (k : Nat) :
    seamsFrom before (List.replicate (k + 1) c ++ rest) ⊆ seamsFrom before (c :: c :: rest) := by
  induction k generalizing before with
  | zero => exact List.cons_subset_cons _ (List.subset_cons_self _ _)
  | succ k ih =>
    refine List.cons_subset.mpr ⟨List.mem_cons_self, List.Subset.trans ih ?_⟩
    exact List.cons_subset.mpr ⟨List.mem_cons_of_mem _ List.mem_cons_self, List.subset_cons_self _ _⟩

theorem seamsFrom_run_subset (front : List Char) (k : Nat) :
    seamsFrom before (front ++ (List.replicate (k + 1) c ++ rest)) ⊆ seamsFrom before (front ++ c :: c :: rest) := by
  induction front generalizing before with
  | nil => exact seamsFrom_replicate_subset k
  | cons d front ih => exact List.cons_subset_cons _ ih

/-! ## Where a pattern leads -/

theorem mem_reach_many {greedy : Bool} {q : Char → Bool} {least : Nat} {most : Option Nat}
    (hPlaces : seamsFrom before (cs ++ rest) ⊆ places) (hAll : ∀ c ∈ cs, q c = true) (hLeast : least ≤ cs.length)
    (hHere : (before, (cs ++ rest).head?) ∈ here) :
    (cs.getLast?.or before, rest.head?) ∈ (many greedy q least most).reach places here := by
  rw [reach, List.mem_append]
  cases cs with
  | nil =>
    left
    rw [if_pos (Nat.le_zero.mp hLeast)]
    exact hHere
  | cons c cs =>
    right
    have hStarts : here.any (·.2.any q) = true := List.any_eq_true.mpr ⟨_, hHere, hAll c List.mem_cons_self⟩
    rw [if_pos hStarts, List.mem_filter]
    refine ⟨hPlaces (seamsFrom_subset_append _ head_mem_seamsFrom), ?_⟩
    rw [List.getLast?_eq_some_getLast (List.cons_ne_nil c cs)]
    exact hAll _ (List.getLast_mem _)

theorem mem_reach_of_fits (hPlaces : seamsFrom before (cs ++ rest) ⊆ places) (h : p.Fits before cs rest)
    (hHere : (before, (cs ++ rest).head?) ∈ here) : (cs.getLast?.or before, rest.head?) ∈ p.reach places here := by
  induction p generalizing before cs rest here with
  | one q =>
    obtain ⟨x, hx, rfl⟩ := h
    have hStarts : here.any (·.2.any q) = true := List.any_eq_true.mpr ⟨_, hHere, hx⟩
    rw [reach, if_pos hStarts, List.mem_filter]
    refine ⟨hPlaces (List.mem_cons_of_mem _ head_mem_seamsFrom), ?_⟩
    exact Bool.and_eq_true_iff.mpr ⟨hx, List.any_eq_true.mpr ⟨_, hHere, beq_self_eq_true _⟩⟩
  | many greedy q least most => exact mem_reach_many hPlaces h.1 h.2.1 hHere
  | both a b iha ihb =>
    obtain ⟨l, r, rfl, hl, hr⟩ := h
    rw [List.append_assoc] at hPlaces hHere
    rw [List.getLast?_append, Option.or_assoc]
    exact ihb (List.Subset.trans (seamsFrom_subset_append l) hPlaces) hr (iha hPlaces hl hHere)
  | either a b iha ihb =>
    rw [reach, List.mem_append]
    exact h.imp (iha hPlaces · hHere) (ihb hPlaces · hHere)
  | capture n a ih => exact ih hPlaces h hHere
  | edge =>
    obtain ⟨rfl, hEdge⟩ := h
    exact List.mem_filter.mpr ⟨hHere, bne_iff_ne.mpr hEdge⟩
  | empty =>
    obtain rfl : cs = [] := h
    exact hHere
  | _ =>
    obtain ⟨rfl, _⟩ := h
    exact hHere

/-- A pattern that leads nowhere is found nowhere. -/
theorem all_eq_nil_of_reach (hPlaces : seams cs ⊆ places) (h : p.reach places places = []) : p.all cs = [] := by
  refine all_eq_nil_of_not_found (Bool.eq_false_iff.mpr fun hFound => ?_)
  obtain ⟨front, stretch, back, rfl, hFits⟩ := found_iff.mp hFound
  have hBehind : seamsFrom front.getLast? (stretch ++ back) ⊆ places := by
    have hFront := @seamsFrom_subset_append none (stretch ++ back) front
    rw [Option.or_none] at hFront
    exact List.Subset.trans hFront hPlaces
  have hMem := mem_reach_of_fits hBehind hFits (hBehind head_mem_seamsFrom)
  rw [h] at hMem
  cases hMem

end Agenda.Pattern
