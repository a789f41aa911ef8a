import Agenda.Proofs.When.Reach
import Agenda.When.Parse

/-! # Dates that are read have no offset

A phrase names a day or a time of day, which have no offset, or a distance from now, which has that
of now. So what is read at a local time is local.
-/

namespace Agenda.When

open Pattern

variable {now value : Moment} {text : List Char} {strict : Bool} {kind : PhraseKind} {m : Match} {h : Hit}

theorem isLocal_offset {n : Nat} {unit : List Char} (h : offset now n unit = .ok value) :
    value.isLocal = now.isLocal := by
  rw [offset_eq] at h
  split at h
  · obtain ⟨span, _, h⟩ := Attempt.bind_eq_ok.mp h
    exact Moment.isLocal_plus h
  · exact Moment.isLocal_plusMonths h

/-! ## Hits -/

/-- A hit that names a moment names one in the zone of now. -/
def Hit.Zoned (now : Moment) (h : Hit) : Prop :=
  ∀ value, h.moment = some value → value.isLocal = now.isLocal

/-- The hit lies where its match does, and names nothing outside the zone of now. -/
structure Hit.ReadOff (now : Moment) (m : Match) (h : Hit) : Prop where
  start : h.start = m.start
  stop : h.stop = m.stop
  zoned : h.Zoned now

def Rule.ReadsOff (now : Moment) (r : Rule) : Prop :=
  ∀ m h, r.resolve m now = .ok (some h) → h.ReadOff now m

theorem zoned_of_none (h : Hit) (hNone : h.moment = none) : h.Zoned now := by
  intro value hValue
  rw [hNone] at hValue
  cases hValue

theorem readsOff_of_day {r : Rule} (day : Match → Except Fault Day)
    (hRule : ∀ m, r.resolve m now = dayHit kind m (day m)) : r.ReadsOff now := by
  intro m h hHit
  rw [hRule] at hHit
  obtain ⟨d, _, hSome⟩ := Attempt.map_eq_ok.mp hHit
  cases hSome
  exact ⟨rfl, rfl, zoned_of_none _ rfl⟩

theorem readsOff_of_clock {r : Rule} {meridiem : Bool} (clock : Match → Except Fault (Option Clock))
    (hRule : ∀ m, r.resolve m now = clockHit kind m (clock m) meridiem) : r.ReadsOff now := by
  intro m h hHit
  rw [hRule] at hHit
  obtain ⟨c, _, hMade⟩ := Attempt.map_eq_ok.mp hHit
  obtain ⟨_, _, rfl⟩ := Option.map_eq_some_iff.mp hMade
  exact ⟨rfl, rfl, zoned_of_none _ rfl⟩

theorem readsOff_of_monthDay {r : Rule} (month day : Match → Int) (year : Match → List Char)
    (hRule : ∀ m, r.resolve m now = monthDay kind m now (month m) (day m) (year m)) : r.ReadsOff now := by
  intro m h hHit
  rw [hRule] at hHit
  obtain ⟨_, _, rfl⟩ := Option.map_eq_some_iff.mp (Except.ok.inj hHit)
  exact ⟨rfl, rfl, zoned_of_none _ rfl⟩

theorem readsOff_of_relative {r : Rule} (hRule : ∀ m, r.resolve m now = relative m now) : r.ReadsOff now := by
  intro m h hHit
  rw [hRule] at hHit
  obtain ⟨n, _, hHit⟩ := Attempt.bind_eq_ok.mp hHit
  obtain ⟨value, hOffset, hHit⟩ := Attempt.bind_eq_ok.mp hHit
  cases Attempt.pure_eq_ok.mp hHit
  refine ⟨rfl, rfl, ?_⟩
  rintro _ ⟨⟩
  exact isLocal_offset hOffset

theorem readsOff_today : todayRule.ReadsOff now := by
  intro m h hHit
  obtain rfl := Option.some.inj (Except.ok.inj hHit)
  split <;> exact ⟨rfl, rfl, zoned_of_none _ rfl⟩

theorem readsOff_yearMonthDay : yearMonthDayRule.ReadsOff now := by
  intro m h hHit
  obtain ⟨_, _, rfl⟩ := Option.map_eq_some_iff.mp (Except.ok.inj hHit)
  exact ⟨rfl, rfl, zoned_of_none _ rfl⟩

theorem readsOff_partOfDay : partOfDayRule.ReadsOff now := by
  intro m h hHit
  obtain rfl := Option.some.inj (Except.ok.inj hHit)
  exact ⟨rfl, rfl, zoned_of_none _ rfl⟩

theorem readsOff_noon : noonRule.ReadsOff now :=
  readsOff_of_clock (fun m => .ok (some (if m.text 1 == "noon".toList then .noon else .midnight))) fun _ => rfl

theorem readsOff_of_mem_rules : ∀ r ∈ rules, r.ReadsOff now := by
  simp only [rules, List.forall_mem_cons]
  exact ⟨readsOff_today, readsOff_of_day _ fun _ => rfl, readsOff_of_day _ fun _ => rfl,
    readsOff_of_day _ fun _ => rfl, readsOff_of_day _ fun _ => rfl, readsOff_of_relative fun _ => rfl,
    readsOff_of_relative fun _ => rfl, readsOff_of_monthDay _ _ _ fun _ => rfl, readsOff_of_monthDay _ _ _ fun _ => rfl,
    readsOff_yearMonthDay, readsOff_of_monthDay _ _ _ fun _ => rfl, readsOff_of_clock _ fun _ => rfl,
    readsOff_of_clock _ fun _ => rfl, readsOff_of_clock _ fun _ => rfl, readsOff_noon, readsOff_partOfDay,
    fun _ h => absurd h List.not_mem_nil⟩

theorem resolved_of_allHits {hits : List Hit} (hAll : allHits text now = .ok hits) :
    ∀ h ∈ hits, ∃ r ∈ rules, ∃ m ∈ r.pattern.all text, r.resolve m now = .ok (some h) := by
  obtain ⟨lists, hLists, hAll⟩ := Attempt.bind_eq_ok.mp hAll
  cases Attempt.pure_eq_ok.mp hAll
  intro h hMem
  obtain ⟨found, hFound, hMem⟩ := List.mem_flatten.mp hMem
  obtain ⟨r, hr, hHits⟩ := Attempt.exists_of_mem_paired (Attempt.mapM_eq_ok.mp hLists) hFound
  obtain ⟨made, hMade, hHits⟩ := Attempt.bind_eq_ok.mp hHits
  cases Attempt.pure_eq_ok.mp hHits
  obtain ⟨_, hMem, rfl⟩ := List.mem_filterMap.mp hMem
  obtain ⟨m, hm, hResolve⟩ := Attempt.exists_of_mem_paired (Attempt.mapM_eq_ok.mp hMade) hMem
  exact ⟨r, hr, m, hm, hResolve⟩

/-- Every hit is read off a match of one of the rules. -/
theorem readOff_of_allHits {hits : List Hit} (hAll : allHits text now = .ok hits) :
    ∀ h ∈ hits, ∃ r ∈ rules, ∃ m ∈ r.pattern.all text, h.ReadOff now m := by
  intro h hMem
  obtain ⟨r, hr, m, hm, hResolve⟩ := resolved_of_allHits hAll h hMem
  exact ⟨r, hr, m, hm, readsOff_of_mem_rules r hr m h hResolve⟩

/-! ## The kept hits -/

theorem mem_of_mem_keepDisjoint {kept hits : List Hit} (hMem : h ∈ keepDisjoint kept hits) : h ∈ kept ∨ h ∈ hits := by
  induction hits generalizing kept with
  | nil => exact .inl hMem
  | cons k hits ih =>
    rcases ih hMem with hKept | hMem
    · split at hKept
      · rcases List.mem_append.mp hKept with hKept | hNew
        · exact .inl hKept
        · exact .inr (List.mem_singleton.mp hNew ▸ List.mem_cons_self)
      · exact .inl hKept
    · exact .inr (List.mem_cons_of_mem k hMem)

theorem mem_of_mem_select {hits : List Hit} (hMem : h ∈ select hits) : h ∈ hits := by
  rcases mem_of_mem_keepDisjoint (List.mem_mergeSort.mp hMem) with hMem | hMem
  · cases hMem
  · exact List.mem_mergeSort.mp hMem

/-! ## The moment that is read -/

theorem isLocal_combine {hits : List Hit} (hNow : now.isLocal = true) (hHits : ∀ h ∈ hits, h.Zoned now)
    (hCombined : combine hits now = .ok (some value)) : value.isLocal = true := by
  unfold combine at hCombined
  split at hCombined
  · cases hCombined
  · rename_i h hFirst
    split at hCombined
    · rename_i moment hMoment
      have hLocal := hHits h (List.mem_of_find?_eq_some hFirst) moment hMoment
      split at hCombined <;> cases hCombined
      · exact hLocal.trans hNow
      · rfl
    · cases hCombined
      rfl
    · cases hCombined
  · obtain ⟨later, _, hCombined⟩ := Attempt.bind_eq_ok.mp hCombined
    dsimp only at hCombined
    split at hCombined
    · obtain ⟨next, hNext, hCombined⟩ := Attempt.bind_eq_ok.mp hCombined
      cases hCombined
      rw [Moment.isLocal_plus hNext]
      rfl
    · cases hCombined
      rfl

/-- What was found was named by the kept ones of all hits. -/
theorem exists_hits_of_search {found : Found} (h : search text now = .ok (some found)) :
    ∃ hits, allHits (Text.lower text) now = .ok hits ∧ combine (select hits) now = .ok (some found.value) ∧
      found.spans = (select hits).map fun h => (h.start, h.stop) := by
  obtain ⟨kept, hCollect, h⟩ := Attempt.bind_eq_ok.mp h
  obtain ⟨hits, hAll, hCollect⟩ := Attempt.bind_eq_ok.mp hCollect
  cases Attempt.pure_eq_ok.mp hCollect
  obtain ⟨combined, hCombined, h⟩ := Attempt.bind_eq_ok.mp h
  cases combined with
  | none => cases h
  | some value =>
    cases h
    exact ⟨hits, hAll, hCombined, rfl⟩

theorem isLocal_search {found : Found} (hNow : now.isLocal = true) (h : search text now = .ok (some found)) :
    found.value.isLocal = true := by
  obtain ⟨hits, hAll, hCombined, _⟩ := exists_hits_of_search h
  refine isLocal_combine hNow (fun h hMem => ?_) hCombined
  obtain ⟨_, _, _, _, hRead⟩ := readOff_of_allHits hAll h (mem_of_mem_select hMem)
  exact hRead.zoned

theorem search_of_parse (h : parse text now strict = .ok (some value)) :
    ∃ found, search (Text.trim (Text.lower text)) now = .ok (some found) ∧ found.value = value := by
  unfold parse at h
  extract_lets lowered at h
  split at h
  · cases h
  · obtain ⟨found, hSearch, h⟩ := Attempt.bind_eq_ok.mp h
    cases found with
    | none => cases h
    | some found =>
      dsimp only at h
      split at h <;> cases h
      exact ⟨found, hSearch, rfl⟩

theorem isLocal_parse (hNow : now.isLocal = true) (h : parse text now strict = .ok (some value)) :
    value.isLocal = true := by
  obtain ⟨found, hSearch, rfl⟩ := search_of_parse h
  exact isLocal_search hNow hSearch

end Agenda.When
