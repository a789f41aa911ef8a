import Agenda.Proofs.Pattern.Search
import Agenda.Proofs.Text.Lower
import Agenda.Proofs.When.Zone

/-! # Where the phrases of a text lie

The rules look for phrases in the lower-case form of a text. In it every character of the text takes
one place, but for the dotted capital i, which takes two. So the spans that are found say where the
phrases lie in the text itself, if each is moved back by the number of those letters in front of it.
-/

namespace Agenda.When

open Pattern Text

variable {text front stretch back : List Char} {now : Moment} {h k : Hit} {hits kept : List Hit}

/-! ## Stretches of a text -/

def slice (text : List Char) (span : Nat × Nat) : List Char :=
  (text.take span.2).drop span.1

/-- Some stretches of the text, in order; none is empty and none overlaps another. -/
structure Stretches (text : List Char) (spans : List (Nat × Nat)) : Prop where
  some : spans ≠ []
  within : ∀ span ∈ spans, span.1 < span.2 ∧ span.2 ≤ text.length
  apart : spans.Pairwise fun a b => a.2 ≤ b.1

/-- The characters that lie in none of the spans; `index` is where the text begins. -/
def outsideFrom (index : Nat) (text : List Char) (spans : List (Nat × Nat)) : List Char :=
  ((text.zipIdx index).filter fun e => spans.all fun span => e.2 < span.1 || span.2 ≤ e.2).map (·.1)

def outside (text : List Char) (spans : List (Nat × Nat)) : List Char :=
  outsideFrom 0 text spans

/-- A place of the text in its lower-case form, where each dotted i in front takes two places. -/
def inLower (text : List Char) (i : Nat) : Nat :=
  i + (text.take i).count 'İ'

theorem inLower_lt {i j : Nat} (h : i < j) : inLower text i < inLower text j := by
  have hCount : (text.take i).count 'İ' ≤ (text.take j).count 'İ' :=
    (List.take_sublist_take_left h.le).count_le _
  rw [inLower, inLower]
  omega

theorem inLower_of_notMem {i j : Nat} (hDotted : 'İ' ∉ text.take j) (h : i ≤ j) : inLower text i = i := by
  have hNone : 'İ' ∉ text.take i := fun hMem => hDotted ((List.take_sublist_take_left h).subset hMem)
  rw [inLower, List.count_eq_zero_of_not_mem hNone, Nat.add_zero]

/-! ## Kept hits -/

theorem disjoint_comm : h.disjoint k = k.disjoint h :=
  Bool.or_comm _ _

theorem pairwise_keepDisjoint (hKept : kept.Pairwise fun h k => h.disjoint k = true) :
    (keepDisjoint kept hits).Pairwise fun h k => h.disjoint k = true := by
  induction hits generalizing kept with
  | nil => exact hKept
  | cons h hits ih =>
    rw [keepDisjoint]
    apply ih
    split
    · rename_i hApart
      rw [List.pairwise_append]
      refine ⟨hKept, List.pairwise_singleton _ _, ?_⟩
      intro k hk x hx
      rw [List.mem_singleton.mp hx, disjoint_comm]
      exact List.all_eq_true.mp hApart k hk
    · exact hKept

theorem pairwise_select (hProper : ∀ h ∈ hits, h.start < h.stop) :
    (select hits).Pairwise fun h k => h.stop ≤ k.start := by
  have hDisjoint : (select hits).Pairwise fun h k => h.disjoint k = true := by
    have hSymm : ∀ {h k : Hit}, h.disjoint k = true → k.disjoint h = true := fun hk => disjoint_comm ▸ hk
    exact (List.mergeSort_perm _ _).symm.pairwise (pairwise_keepDisjoint .nil) hSymm
  have hSorted : (select hits).Pairwise fun h k => h.start ≤ k.start := by
    have hTotal : ∀ h k : Hit, (decide (h.start ≤ k.start) || decide (k.start ≤ h.start)) = true := by
      intro h k
      simp only [Bool.or_eq_true, decide_eq_true_eq]
      omega
    have hTrans : ∀ h k l : Hit, decide (h.start ≤ k.start) = true → decide (k.start ≤ l.start) = true →
        decide (h.start ≤ l.start) = true := by
      simp only [decide_eq_true_eq]
      omega
    exact (List.pairwise_mergeSort hTrans hTotal _).imp of_decide_eq_true
  refine (hDisjoint.and hSorted).imp_of_mem ?_
  -- of two hits that are apart the first to begin is the first to end, if the later one is not empty
  rintro h k hh hk ⟨hApart, hOrder⟩
  have hProper := hProper k (mem_of_mem_select hk)
  simp only [Hit.disjoint, Bool.or_eq_true, decide_eq_true_eq] at hApart
  omega

/-! ## Where the rules find something -/

/-- No rule reads nothing or a character that lower case only has for a dotted i or a sigma, and none
reads an i at the end. -/
theorem clear_rules : ∀ r ∈ rules, r.pattern.nullable = false ∧ r.pattern.mayEnd 'i' = false ∧
    ([dotAbove, 'σ', 'ς'].any fun c => r.pattern.mayRead c) = false := by
  decide +kernel

/-- What the hit has read lies in the text, and has been brought to lower case. -/
structure Placed (text : List Char) (h : Hit) (span : Nat × Nat) : Prop where
  proper : span.1 < span.2
  within : span.2 ≤ text.length
  start : h.start = inLower text span.1
  stop : h.stop = inLower text span.2
  phrase : lower (slice text span) = slice (lower text) (h.start, h.stop)

theorem slice_append (front stretch back : List Char) :
    slice (front ++ (stretch ++ back)) (front.length, front.length + stretch.length) = stretch := by
  rw [slice, ← List.append_assoc, ← List.length_append, List.take_left, List.drop_left]

theorem inLower_append {l front r : List Char} (h : Lowers l front) : inLower (l ++ r) l.length = front.length := by
  rw [inLower, List.take_left, h.length_eq]

theorem exists_placed {r : Rule} (hr : r ∈ rules) (hLower : lower text = front ++ (stretch ++ back))
    (hTakes : r.pattern.Takes stretch) (hStart : h.start = front.length)
    (hStop : h.stop = front.length + stretch.length) : ∃ span, Placed text h span := by
  obtain ⟨hReads, hEnds, hClear⟩ := clear_rules r hr
  have hSome : stretch ≠ [] := by
    rintro rfl
    cases hReads.symm.trans (nullable_of_takes hTakes)
  have hNot {c : Char} (hc : c ∈ [dotAbove, 'σ', 'ς']) : c ∉ stretch := fun hMem =>
    absurd (mayRead_of_takes hTakes hMem) (List.any_eq_false.mp hClear c hc)
  -- neither end of the stretch is inside a dotted i
  rcases lowers_of_lowerFrom hLower with ⟨l, rest, later, rfl, hl, hRest⟩ | ⟨_, hDot⟩
  swap
  · rw [List.head?_append_of_ne_nil _ hSome] at hDot
    exact absurd (List.mem_of_mem_head? hDot) (hNot List.mem_cons_self)
  rcases lowers_of_lowerFrom hRest with ⟨part, r', _, rfl, hPart, _⟩ | ⟨hLast, _⟩
  swap
  · cases hEnds.symm.trans (mayEnd_of_takes hTakes hLast)
  have hLength := hPart.length_eq
  rw [List.count_eq_zero_of_not_mem (hPart.dotted_notMem (hNot List.mem_cons_self)), Nat.add_zero] at hLength
  have hPos := List.length_pos_iff.mpr hSome
  have hLowered : lower part = stretch := hPart.eq_lowerFrom (hPart.sigma_notMem (hNot (by simp)) (hNot (by simp)))
  refine ⟨(l.length, l.length + part.length), ?_, ?_, ?_, ?_, ?_⟩
  · dsimp only
    omega
  · simp only [List.length_append]
    omega
  · rw [hStart, inLower_append hl]
  · rw [hStop, ← List.append_assoc, ← List.length_append, ← List.length_append, inLower_append (hl.append hPart)]
  · rw [slice_append, hLowered, hLower, hStart, hStop, slice_append]

theorem placed_of_allHits (hAll : allHits (lower text) now = .ok hits) : ∀ h ∈ hits, ∃ span, Placed text h span := by
  intro h hMem
  obtain ⟨r, hr, m, hm, hRead⟩ := readOff_of_allHits hAll h hMem
  obtain ⟨front, stretch, back, hLower, hStart, hCovers⟩ := laid_all.exists_of_mem hm
  rw [Nat.zero_add] at hStart
  refine exists_placed hr hLower hCovers.yields.takes (hRead.start.trans hStart) ?_
  rw [hRead.stop, hCovers.stop, hStart]

theorem Placed.start_lt_stop {span : Nat × Nat} (hPlaced : Placed text h span) : h.start < h.stop := by
  rw [hPlaced.start, hPlaced.stop]
  exact inLower_lt hPlaced.proper

/-! ## What is left without them -/

section Outside

variable {index : Nat} {spans : List (Nat × Nat)}

theorem outsideFrom_append (text rest : List Char) : outsideFrom index (text ++ rest) spans =
    outsideFrom index text spans ++ outsideFrom (index + text.length) rest spans := by
  rw [outsideFrom, List.zipIdx_append, List.filter_append, List.map_append]
  rfl

theorem outsideFrom_of_free (hFree : ∀ span ∈ spans, index + text.length ≤ span.1) : outsideFrom index text spans = text := by
  rw [outsideFrom, List.filter_eq_self.mpr, List.zipIdx_map_fst]
  rintro ⟨c, i⟩ hMem
  obtain ⟨_, hHigh, _⟩ := List.mem_zipIdx hMem
  rw [List.all_eq_true]
  intro span hSpan
  have hBefore := hFree span hSpan
  simp only [Bool.or_eq_true, decide_eq_true_eq]
  omega

theorem outsideFrom_of_within {start stop : Nat} (hStart : start ≤ index) (hStop : index + text.length ≤ stop) :
    outsideFrom index text ((start, stop) :: spans) = [] := by
  rw [outsideFrom, List.filter_eq_nil_iff.mpr, List.map_nil]
  rintro ⟨c, i⟩ hMem
  obtain ⟨hLow, hHigh, _⟩ := List.mem_zipIdx hMem
  have hInside : (decide (i < start) || decide (stop ≤ i)) = false := by
    simp only [Bool.or_eq_false_iff, decide_eq_false_iff_not]
    omega
  simp only [List.all_cons, hInside, Bool.false_and, Bool.false_eq_true, not_false_eq_true]

theorem outsideFrom_behind {start stop : Nat} (hStop : stop ≤ index) :
    outsideFrom index text ((start, stop) :: spans) = outsideFrom index text spans := by
  rw [outsideFrom, outsideFrom, List.filter_congr]
  rintro ⟨c, i⟩ hMem
  obtain ⟨hLow, _, _⟩ := List.mem_zipIdx hMem
  have hBehind : decide (stop ≤ i) = true := decide_eq_true (by omega)
  simp only [List.all_cons, hBehind, Bool.or_true, Bool.true_and]

theorem withoutBlanks_cutFrom (hApart : spans.Pairwise fun a b => a.2 ≤ b.1)
    (hWithin : ∀ span ∈ spans, index ≤ span.1 ∧ span.1 < span.2 ∧ span.2 ≤ index + text.length) :
    withoutBlanks (cutFrom index text spans) = withoutBlanks (outsideFrom index text spans) := by
  -- the text behind a stretch is cut by the spans behind it, with its own beginning as the index
  induction spans generalizing index text with
  | nil => rw [outsideFrom_of_free fun _ h => absurd h List.not_mem_nil, cutFrom]
  | cons span spans ih =>
    obtain ⟨start, stop⟩ := span
    obtain ⟨hHead, hTail⟩ := List.forall_mem_cons.mp hWithin
    obtain ⟨hBehind, hApart⟩ := List.pairwise_cons.mp hApart
    dsimp only at hHead hBehind
    obtain ⟨front, stretch, back, rfl, hFront, hStretch⟩ : ∃ front stretch back, text = front ++ (stretch ++ back) ∧
        index + front.length = start ∧ start + stretch.length = stop := by
      refine ⟨text.take (start - index), (text.drop (start - index)).take (stop - start),
        (text.drop (start - index)).drop (stop - start), ?_, ?_, ?_⟩
      · rw [List.take_append_drop, List.take_append_drop]
      · rw [List.length_take]
        omega
      · rw [List.length_take, List.length_drop]
        omega
    have hCut : cutFrom index (front ++ (stretch ++ back)) ((start, stop) :: spans) =
        front ++ ' ' :: cutFrom stop back spans := by
      have hStart : start - index = front.length := by omega
      have hStop : stop - index = (front ++ stretch).length := by
        rw [List.length_append]
        omega
      rw [cutFrom, hStart, hStop, List.take_left, ← List.append_assoc, List.drop_left]
    have hOutside : outsideFrom index (front ++ (stretch ++ back)) ((start, stop) :: spans) =
        front ++ outsideFrom stop back spans := by
      rw [outsideFrom_append, outsideFrom_append, hFront, hStretch, outsideFrom_of_within le_rfl hStretch.le,
        outsideFrom_behind le_rfl, List.nil_append, outsideFrom_of_free]
      refine List.forall_mem_cons.mpr ⟨hFront.le, fun span hSpan => ?_⟩
      have hAfter := hBehind span hSpan
      omega
    have hRest : withoutBlanks (cutFrom stop back spans) = withoutBlanks (outsideFrom stop back spans) := by
      apply ih hApart
      intro span hSpan
      have hAfter := hBehind span hSpan
      have hBounds := hTail span hSpan
      simp only [List.length_append] at hBounds
      omega
    have hSpace : withoutBlanks [' '] = [] := rfl
    rw [hCut, hOutside, withoutBlanks_append, withoutBlanks_append, ← hRest, ← List.singleton_append,
      withoutBlanks_append, hSpace, List.nil_append]

end Outside

/-! ## The spans of a search -/

variable {found : Found}

theorem inLower_length (text : List Char) : inLower text text.length = (lower text).length := by
  rcases lowers_of_lowerFrom (List.append_nil (lower text)).symm with ⟨l, r, later, hText, hLowers, hRest⟩ | ⟨_, hDot⟩
  · have hr : r = [] := by
      by_contra hSome
      exact lowerFrom_ne_nil hSome hRest
    rw [hr, List.append_nil] at hText
    rw [hLowers.length_eq, hText, inLower, List.take_length]
  · cases hDot

/-- Both ends of a stretch, in the lower-case text. -/
def spanInLower (text : List Char) (span : Nat × Nat) : Nat × Nat :=
  (inLower text span.1, inLower text span.2)

theorem Stretches.inLower {phrases : List (Nat × Nat)} (h : Stretches text phrases) :
    Stretches (lower text) (phrases.map (spanInLower text)) where
  some := mt List.map_eq_nil_iff.mp h.some
  within := by
    intro span hSpan
    obtain ⟨phrase, hPhrase, rfl⟩ := List.mem_map.mp hSpan
    obtain ⟨hProper, hEnd⟩ := h.within phrase hPhrase
    refine ⟨inLower_lt hProper, ?_⟩
    rw [← inLower_length]
    rcases hEnd.eq_or_lt with hEnd | hEnd
    · exact (congrArg (When.inLower text) hEnd).le
    · exact (inLower_lt hEnd).le
  apart := by
    rw [List.pairwise_map]
    refine h.apart.imp fun hApart => ?_
    rcases hApart.eq_or_lt with hApart | hApart
    · exact (congrArg (When.inLower text) hApart).le
    · exact (inLower_lt hApart).le

theorem exists_phrases (hSearch : search text now = .ok (some found)) :
    ∃ phrases, Stretches text phrases ∧ found.spans = phrases.map (spanInLower text) ∧
      ∀ span ∈ phrases, lower (slice text span) = slice (lower text) (spanInLower text span) := by
  obtain ⟨hits, hAll, hCombined, hSpans⟩ := exists_hits_of_search hSearch
  have hPlaced : ∀ h ∈ select hits, ∃ span, Placed text h span := fun h hMem =>
    placed_of_allHits hAll h (mem_of_mem_select hMem)
  choose! place hPlace using hPlaced
  refine ⟨(select hits).map place, ⟨?_, ?_, ?_⟩, ?_, ?_⟩
  · intro hNone
    rw [List.map_eq_nil_iff.mp hNone] at hCombined
    cases hCombined
  · intro span hSpan
    obtain ⟨h, hMem, rfl⟩ := List.mem_map.mp hSpan
    exact ⟨(hPlace h hMem).proper, (hPlace h hMem).within⟩
  · rw [List.pairwise_map]
    have hOrder := pairwise_select fun h hMem => (placed_of_allHits hAll h hMem).elim fun _ hSpan => hSpan.start_lt_stop
    refine hOrder.imp_of_mem fun {h k} hh hk hBefore => ?_
    rw [(hPlace h hh).stop, (hPlace k hk).start] at hBefore
    by_contra hLater
    have hAfter := @inLower_lt text _ _ (Nat.lt_of_not_le hLater)
    omega
  · rw [hSpans, List.map_map]
    refine List.map_congr_left fun h hMem => ?_
    exact Prod.ext (hPlace h hMem).start (hPlace h hMem).stop
  · intro span hSpan
    obtain ⟨h, hMem, rfl⟩ := List.mem_map.mp hSpan
    rw [(hPlace h hMem).phrase, (hPlace h hMem).start, (hPlace h hMem).stop]
    rfl

theorem exists_stripDates (hSearch : search text now = .ok (some found)) (hSpans : Stretches text found.spans) :
    ∃ rest, stripDates text now = .ok rest ∧ withoutBlanks rest = withoutBlanks (outside text found.spans) := by
  refine ⟨trim (squeezeWide (cut text found.spans)), ?_, ?_⟩
  · rw [stripDates, hSearch]
    rfl
  · rw [withoutBlanks_trim, squeezeWide, withoutBlanks_squeezeFrom (fun _ h => absurd h List.not_mem_nil), cut, outside,
      withoutBlanks_cutFrom hSpans.apart]
    intro span hSpan
    have hWithin := hSpans.within span hSpan
    omega

/-- Spans are found in the lower-case text. They are those of the phrases in the text itself, each moved
by the number of dotted capital i in front. So they lie in the text, and nothing else is cut out with
them, if no such letter stands before the end of a phrase. -/
theorem spans_of_search (hSearch : search text now = .ok (some found)) :
    Stretches (lower text) found.spans ∧
    (∃ phrases, Stretches text phrases ∧ found.spans = phrases.map (spanInLower text) ∧
      ∀ span ∈ phrases, lower (slice text span) = slice (lower text) (spanInLower text span)) ∧
    ((∀ span ∈ found.spans, 'İ' ∉ text.take span.2) →
      Stretches text found.spans ∧ (∀ span ∈ found.spans, lower (slice text span) = slice (lower text) span) ∧
      ∃ rest, stripDates text now = .ok rest ∧ withoutBlanks rest = withoutBlanks (outside text found.spans)) := by
  obtain ⟨phrases, hPhrases, hSpans, hLowered⟩ := exists_phrases hSearch
  refine ⟨hSpans ▸ hPhrases.inLower, ⟨phrases, hPhrases, hSpans, hLowered⟩, ?_⟩
  intro hDotted
  have hStill : ∀ span ∈ phrases, spanInLower text span = span := by
    intro span hSpan
    have hNone : 'İ' ∉ text.take (inLower text span.2) :=
      hDotted _ (hSpans ▸ List.mem_map_of_mem (f := spanInLower text) hSpan)
    have hLength : span.2 ≤ inLower text span.2 := Nat.le_add_right _ _
    have hProper := (hPhrases.within span hSpan).1
    exact Prod.ext (inLower_of_notMem hNone (by omega)) (inLower_of_notMem hNone hLength)
  have hSame : found.spans = phrases := by
    rw [hSpans, List.map_congr_left hStill, List.map_id']
  have hStretches : Stretches text found.spans := hSame ▸ hPhrases
  refine ⟨hStretches, ?_, exists_stripDates hSearch hStretches⟩
  intro span hSpan
  rw [hSame] at hSpan
  rw [hLowered span hSpan, hStill span hSpan]

/-- Nine o'clock on the fifteenth of May 2024. -/
def mayMorning : Moment := ⟨63851360400000000, none, by decide⟩

def hasSpans (spans : List (Nat × Nat)) : Except Fault (Option Found) → Bool
  | .ok (some found) => found.spans == spans
  | _ => false

theorem exists_of_hasSpans {spans : List (Nat × Nat)} (h : hasSpans spans (search text now) = true) :
    ∃ found, search text now = .ok (some found) ∧ found.spans = spans := by
  unfold hasSpans at h
  split at h
  · rename_i found hSearch
    exact ⟨found, hSearch, eq_of_beq h⟩
  · cases h

theorem found_before_dotted : ∃ found, search "Call Ann tomorrow from İzmir".toList mayMorning = .ok (some found) ∧
    found.spans = [(9, 17)] ∧ Stretches "Call Ann tomorrow from İzmir".toList found.spans ∧
      slice (lower "Call Ann tomorrow from İzmir".toList) (9, 17) = "tomorrow".toList := by
  obtain ⟨found, hSearch, hSpans⟩ := @exists_of_hasSpans "Call Ann tomorrow from İzmir".toList mayMorning [(9, 17)]
    (by decide +kernel)
  refine ⟨found, hSearch, hSpans, ((spans_of_search hSearch).2.2 ?_).1, by decide +kernel⟩
  rw [hSpans]
  decide

/-- A dotted capital i in front moves the span beyond the phrase and beyond the end of the text. -/
theorem found_behind_dotted : ∃ found, search "İ tomorrow".toList mayMorning = .ok (some found) ∧
    found.spans = [(3, 11)] ∧ "İ tomorrow".toList.length = 10 ∧
      lower (slice "İ tomorrow".toList (3, 11)) = "omorrow".toList ∧
      slice (lower "İ tomorrow".toList) (3, 11) = "tomorrow".toList ∧
      stripDates "İ tomorrow".toList mayMorning = .ok "İ t".toList := by
  obtain ⟨found, hSearch, hSpans⟩ := @exists_of_hasSpans "İ tomorrow".toList mayMorning [(3, 11)] (by decide +kernel)
  have hRest : trim (squeezeWide (cut "İ tomorrow".toList [(3, 11)])) = "İ t".toList := by decide
  refine ⟨found, hSearch, hSpans, rfl, by decide +kernel, by decide +kernel, ?_⟩
  rw [stripDates, hSearch, ← hRest, ← hSpans]
  rfl

end Agenda.When
