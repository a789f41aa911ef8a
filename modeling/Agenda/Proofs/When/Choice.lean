import Agenda.Proofs.When.Span
import Mathlib.Algebra.Order.BigOperators.Group.List

/-! # Which phrases are kept

The rules may read several phrases off the same place of a text. They are gone through from the longest to
the shortest, and earlier ones before later ones of the same length; each is kept unless it shares a place
with one that was kept before. So a phrase is lost only to one that is at least as long, and the stretches
that are kept do not depend on the order of the rules.
-/

namespace Agenda.When

open Pattern

variable {text : List Char} {now : Moment} {h k : Hit} {hits kept other : List Hit} {n : Nat}

namespace Hit

/-- The phrases have a place of the text in common. -/
def Overlaps (h k : Hit) : Prop :=
  ∃ i, (h.start ≤ i ∧ i < h.stop) ∧ k.start ≤ i ∧ i < k.stop

/-- The phrase is longer, or as long and begins no later. -/
def Outranks (h k : Hit) : Prop :=
  k.length < h.length ∨ h.length = k.length ∧ h.start ≤ k.start

def span (h : Hit) : Nat × Nat :=
  (h.start, h.stop)

theorem Overlaps.symm (hOverlap : h.Overlaps k) : k.Overlaps h := by
  obtain ⟨i, hh, hk⟩ := hOverlap
  exact ⟨i, hk, hh⟩

theorem overlaps_iff (hh : h.start < h.stop) (hk : k.start < k.stop) : h.Overlaps k ↔ h.disjoint k = false := by
  simp only [disjoint, Bool.or_eq_false_iff, decide_eq_false_iff_not, Nat.not_le]
  constructor
  · rintro ⟨i, hIn, hIn'⟩
    omega
  · intro hMeet
    exact ⟨max h.start k.start, by omega, by omega⟩

theorem outranks_iff : h.Outranks k ↔ preferred h k = true := by
  rw [Outranks, preferred, Bool.or_eq_true, Bool.and_eq_true, decide_eq_true_iff, decide_eq_true_iff, beq_iff_eq,
    eq_comm]

end Hit

/-- A choice among hits: of those that are not kept, each shares a place with a kept one that outranks it. -/
structure Chosen (hits kept : List Hit) : Prop where
  ordered : kept.Pairwise fun h k => h.start < k.start
  apart : kept.Pairwise fun h k => ¬ h.Overlaps k
  outranked : ∃ dropped, (kept ++ dropped).Perm hits ∧ ∀ h ∈ dropped, ∃ k ∈ kept, k.Overlaps h ∧ k.Outranks h

/-! ## The hits of the rules -/

/-- One of the rules reads the hit off one of its matches. -/
def ReadIn (text : List Char) (now : Moment) (h : Hit) : Prop :=
  ∃ r ∈ rules, ∃ m ∈ r.pattern.all text, r.resolve m now = .ok (some h)

theorem mem_allHits_iff (hAll : allHits text now = .ok hits) : h ∈ hits ↔ ReadIn text now h := by
  refine ⟨resolved_of_allHits hAll h, ?_⟩
  rintro ⟨r, hr, m, hm, hResolve⟩
  obtain ⟨lists, hLists, hAll⟩ := Attempt.bind_eq_ok.mp hAll
  cases Attempt.pure_eq_ok.mp hAll
  obtain ⟨found, hFound, hHits⟩ := Attempt.exists_of_mem_paired (Attempt.mapM_eq_ok.mp hLists).flip hr
  obtain ⟨made, hMade, hHits⟩ := Attempt.bind_eq_ok.mp hHits
  cases Attempt.pure_eq_ok.mp hHits
  obtain ⟨read, hRead, hSame⟩ := Attempt.exists_of_mem_paired (Attempt.mapM_eq_ok.mp hMade).flip hm
  cases hResolve.symm.trans hSame
  exact List.mem_flatten.mpr ⟨_, hFound, List.mem_filterMap.mpr ⟨_, hRead, rfl⟩⟩

theorem start_lt_stop_of_allHits (hAll : allHits text now = .ok hits) : ∀ h ∈ hits, h.start < h.stop := by
  intro h hMem
  obtain ⟨r, hr, m, hm, hRead⟩ := readOff_of_allHits hAll h hMem
  obtain ⟨front, stretch, back, _, _, hCovers⟩ := laid_all.exists_of_mem hm
  have hSome : stretch ≠ [] := by
    rintro rfl
    cases (clear_rules r hr).1.symm.trans (nullable_of_takes hCovers.yields.takes)
  have hPos := List.length_pos_iff.mpr hSome
  rw [hRead.start, hRead.stop, hCovers.stop]
  omega

/-! ## Going through the hits -/

theorem prefix_keepDisjoint (kept hits : List Hit) : kept <+: keepDisjoint kept hits := by
  induction hits generalizing kept with
  | nil => exact List.prefix_refl kept
  | cons h hits ih =>
    rw [keepDisjoint]
    split
    · exact (List.prefix_append kept [h]).trans (ih _)
    · exact ih kept

/-- What is not kept is behind something that is kept and overlaps it. -/
theorem exists_dropped (hSorted : hits.Pairwise fun h k => preferred h k = true)
    (hKept : ∀ k ∈ kept, ∀ h ∈ hits, preferred k h = true) :
    ∃ dropped, (keepDisjoint kept hits ++ dropped).Perm (kept ++ hits) ∧
      ∀ h ∈ dropped, ∃ k ∈ keepDisjoint kept hits, k.disjoint h = false ∧ preferred k h = true := by
  induction hits generalizing kept with
  | nil => exact ⟨[], .refl _, fun _ h => absurd h List.not_mem_nil⟩
  | cons h hits ih =>
    obtain ⟨hFirst, hSorted⟩ := List.pairwise_cons.mp hSorted
    have hRest : ∀ k ∈ kept, ∀ x ∈ hits, preferred k x = true := fun k hk x hx =>
      hKept k hk x (List.mem_cons_of_mem h hx)
    rw [keepDisjoint]
    split
    · have hGrown : ∀ k ∈ kept ++ [h], ∀ x ∈ hits, preferred k x = true :=
        List.forall_mem_append.mpr ⟨hRest, List.forall_mem_singleton.mpr hFirst⟩
      obtain ⟨dropped, hPerm, hLost⟩ := ih hSorted hGrown
      exact ⟨dropped, by rwa [List.append_assoc kept] at hPerm, hLost⟩
    · rename_i hMeets
      obtain ⟨dropped, hPerm, hLost⟩ := ih hSorted hRest
      simp only [List.all_eq_true, not_forall, Bool.not_eq_true] at hMeets
      obtain ⟨k, hk, hOverlap⟩ := hMeets
      refine ⟨h :: dropped, List.perm_middle.trans ((hPerm.cons h).trans List.perm_middle.symm), ?_⟩
      refine List.forall_mem_cons.mpr ⟨⟨k, (prefix_keepDisjoint kept hits).subset hk, ?_, ?_⟩, hLost⟩
      · rw [disjoint_comm, hOverlap]
      · exact hKept k hk h List.mem_cons_self

theorem pairwise_preferred (hits : List Hit) :
    (hits.mergeSort preferred).Pairwise fun h k => preferred h k = true := by
  apply List.pairwise_mergeSort
  · intro h k l hk hl
    rw [← Hit.outranks_iff] at hk hl ⊢
    unfold Hit.Outranks at hk hl ⊢
    omega
  · intro h k
    rw [Bool.or_eq_true, ← Hit.outranks_iff, ← Hit.outranks_iff]
    unfold Hit.Outranks
    omega

theorem chosen_select (hProper : ∀ h ∈ hits, h.start < h.stop) : Chosen hits (select hits) := by
  have hOrder := pairwise_select hProper
  have hKept : ∀ h ∈ select hits, h.start < h.stop := fun h hMem => hProper h (mem_of_mem_select hMem)
  refine ⟨?_, ?_, ?_⟩
  · refine hOrder.imp_of_mem fun {h k} hh _ hBefore => ?_
    exact (hKept h hh).trans_le hBefore
  · refine hOrder.imp fun {h k} hBefore hOverlap => ?_
    obtain ⟨i, hIn, hIn'⟩ := hOverlap
    omega
  · obtain ⟨dropped, hPerm, hLost⟩ := exists_dropped (pairwise_preferred hits) (List.forall_mem_nil _)
    have hAll : (select hits ++ dropped).Perm hits :=
      ((List.mergeSort_perm _ _).append_right dropped).trans (hPerm.trans (List.mergeSort_perm hits preferred))
    refine ⟨dropped, hAll, fun h hh => ?_⟩
    obtain ⟨k, hk, hMeet, hRank⟩ := hLost h hh
    have hMem : k ∈ select hits := List.mem_mergeSort.mpr hk
    have hDropped := hProper h (hAll.subset (List.mem_append_right _ hh))
    exact ⟨k, hMem, (Hit.overlaps_iff (hKept k hMem) hDropped).mpr hMeet, Hit.outranks_iff.mpr hRank⟩

/-! ## There is one choice only -/

theorem Chosen.mem (hChosen : Chosen hits kept) (hMem : h ∈ kept) : h ∈ hits := by
  obtain ⟨dropped, hPerm, _⟩ := hChosen.outranked
  exact hPerm.subset (List.mem_append_left dropped hMem)

/-- A stretch that one choice keeps is kept by every other one. What would outrank it there is kept by both,
and so it overlaps nothing that the first one keeps. -/
theorem Chosen.exists_span {kept other : List Hit} {h : Hit} (hChosen : Chosen hits kept) (hOther : Chosen hits other)
    (hBound : ∀ h ∈ hits, h.length ≤ n) (hMem : h ∈ kept) : ∃ k ∈ other, k.span = h.span := by
  obtain ⟨dropped, hPerm, hLost⟩ := hOther.outranked
  rcases List.mem_append.mp (hPerm.symm.subset (hChosen.mem hMem)) with hKept | hDropped
  · exact ⟨h, hKept, rfl⟩
  obtain ⟨k, hk, hOverlap, hRank⟩ := hLost h hDropped
  by_cases hSame : k.span = h.span
  · exact ⟨k, hk, hSame⟩
  obtain ⟨h', hh', hSpan⟩ := hOther.exists_span hChosen hBound hk
  obtain ⟨hStart, hStop⟩ := Prod.mk.inj hSpan
  have hMeet : h'.Overlaps h := by
    unfold Hit.Overlaps
    rw [hStart, hStop]
    exact hOverlap
  have hNe : h' ≠ h := by
    rintro rfl
    exact hSame hSpan.symm
  have hSymm : Std.Symm fun h k : Hit => ¬ h.Overlaps k := ⟨fun _ _ hApart hMeet => hApart hMeet.symm⟩
  exact absurd hMeet (hChosen.apart.forall hh' hMem hNe)
termination_by (n - h.length, h.start)
decreasing_by
  obtain ⟨i, _, _⟩ := hOverlap
  have hLength := hBound k (hOther.mem hk)
  have hDiffer : k.start ≠ h.start ∨ k.stop ≠ h.stop := by
    by_contra hNot
    simp only [not_or, not_not] at hNot
    exact hSame (Prod.ext hNot.1 hNot.2)
  rw [Prod.lex_def]
  unfold Hit.Outranks at hRank
  unfold Hit.length at *
  simp only
  omega

theorem Chosen.spans_eq (hChosen : Chosen hits kept) (hOther : Chosen hits other) :
    kept.map Hit.span = other.map Hit.span := by
  have hOrdered {ks : List Hit} (hks : Chosen hits ks) : (ks.map Hit.span).Pairwise fun a b => a.1 < b.1 :=
    List.pairwise_map.mpr hks.ordered
  have hBound : ∀ h ∈ hits, h.length ≤ (hits.map Hit.length).sum := fun h hMem =>
    List.single_le_sum (fun _ _ => Nat.zero_le _) _ (List.mem_map_of_mem hMem)
  have hSubset {ks ls : List Hit} (hks : Chosen hits ks) (hls : Chosen hits ls) : ks.map Hit.span ⊆ ls.map Hit.span := by
    intro span hSpan
    obtain ⟨h, hMem, rfl⟩ := List.mem_map.mp hSpan
    obtain ⟨k, hk, hSame⟩ := hks.exists_span hls hBound hMem
    exact List.mem_map.mpr ⟨k, hk, hSame⟩
  have hNodup {ks : List Hit} (hks : Chosen hits ks) : (ks.map Hit.span).Nodup :=
    (hOrdered hks).imp fun {a b} hLt hEq => absurd (congrArg Prod.fst hEq) hLt.ne
  have hPerm : (kept.map Hit.span).Perm (other.map Hit.span) := by
    rw [List.perm_ext_iff_of_nodup (hNodup hChosen) (hNodup hOther)]
    exact fun span => ⟨fun hMem => hSubset hChosen hOther hMem, fun hMem => hSubset hOther hChosen hMem⟩
  refine hPerm.eq_of_pairwise (fun a b _ _ hab hba => ?_) (hOrdered hChosen) (hOrdered hOther)
  omega

/-! ## The choice of the program -/

/-- What is kept is what the rules have read, but for hits that share a place with a kept one that is longer, or
as long and not behind it; and no other such choice keeps other stretches of the text. -/
theorem chosen_of_collect (hCollect : collect text now = .ok kept) :
    (∀ h ∈ kept, ReadIn text now h) ∧
    (∀ h, ReadIn text now h → h ∉ kept → ∃ k ∈ kept, k.Overlaps h ∧ k.Outranks h) ∧
    ∃ hits, (∀ h, h ∈ hits ↔ ReadIn text now h) ∧ (∀ h ∈ hits, h.start < h.stop) ∧ allHits text now = .ok hits ∧
      Chosen hits kept ∧ ∀ other, Chosen hits other → other.map Hit.span = kept.map Hit.span := by
  obtain ⟨hits, hAll, hKept⟩ := Attempt.bind_eq_ok.mp hCollect
  cases Attempt.pure_eq_ok.mp hKept
  have hRead : ∀ h, h ∈ hits ↔ ReadIn text now h := fun h => mem_allHits_iff hAll
  have hProper := start_lt_stop_of_allHits hAll
  have hChosen := chosen_select hProper
  refine ⟨?_, ?_, hits, hRead, hProper, hAll, hChosen, ?_⟩
  · intro h hMem
    exact (hRead h).mp (hChosen.mem hMem)
  · intro h hHit hNot
    obtain ⟨dropped, hPerm, hLost⟩ := hChosen.outranked
    rcases List.mem_append.mp (hPerm.symm.subset ((hRead h).mpr hHit)) with hMem | hMem
    · exact absurd hMem hNot
    · exact hLost h hMem
  · intro other hOther
    exact hOther.spans_eq hChosen

def spansOf : Except Fault (List Hit) → Option (List (Nat × Nat))
  | .ok hits => some (hits.map Hit.span)
  | .error _ => none

theorem exists_of_spansOf {result : Except Fault (List Hit)} {spans : List (Nat × Nat)}
    (h : spansOf result = some spans) : ∃ hits, result = .ok hits ∧ hits.map Hit.span = spans := by
  obtain ⟨⟩ | ⟨hits⟩ := result
  · cases h
  · exact ⟨hits, rfl, Option.some.inj h⟩

/-- Two dates share the month and are of one length, so the first is kept; the time is kept with its preposition. -/
theorem chosen_of_shared_month : ∃ hits kept, collect "10 may 11 at 17:30".toList mayMorning = .ok kept ∧
    allHits "10 may 11 at 17:30".toList mayMorning = .ok hits ∧ Chosen hits kept ∧
    hits.map Hit.span = [(3, 9), (0, 6), (10, 18), (13, 18)] ∧ kept.map Hit.span = [(0, 6), (10, 18)] := by
  obtain ⟨hits, hHits, hSpans⟩ := @exists_of_spansOf (allHits "10 may 11 at 17:30".toList mayMorning)
    [(3, 9), (0, 6), (10, 18), (13, 18)] (by decide +kernel)
  have hCollect : collect "10 may 11 at 17:30".toList mayMorning = .ok (select hits) := by
    rw [collect, hHits]
    rfl
  obtain ⟨_, _, _, _, _, hAll, hChosen, hUnique⟩ := chosen_of_collect hCollect
  cases hHits.symm.trans hAll
  have hListed := hSpans
  simp only [List.map_eq_cons_iff, List.map_eq_nil_iff, Hit.span, Prod.mk.injEq] at hListed
  obtain ⟨later, _, rfl, ⟨_, _⟩, first, _, rfl, ⟨hFirst, hFirst'⟩, timed, _, rfl, ⟨hTimed, hTimed'⟩, bare, _, rfl,
    ⟨_, _⟩, rfl⟩ := hListed
  have hChoice : Chosen [later, first, timed, bare] [first, timed] := by
    refine ⟨?_, ?_, [later, bare], ?_, ?_⟩
    · apply List.pairwise_pair.mpr
      omega
    · apply List.pairwise_pair.mpr
      rintro ⟨i, _, _⟩
      omega
    · exact List.perm_middle
    · refine List.forall_mem_cons.mpr ⟨⟨first, List.mem_cons_self, ⟨3, by omega, by omega⟩, .inr ?_⟩,
        List.forall_mem_singleton.mpr ⟨timed, by simp, ⟨13, by omega, by omega⟩, .inl ?_⟩⟩
      · rw [Hit.length, Hit.length]
        omega
      · rw [Hit.length, Hit.length]
        omega
  refine ⟨_, _, hCollect, hHits, hChosen, hSpans, (hUnique _ hChoice).symm.trans ?_⟩
  simp only [List.map_cons, List.map_nil, Hit.span, hFirst, hFirst', hTimed, hTimed']

end Agenda.When
