import Agenda.Proofs.Grouping
import Agenda.Proofs.Time.Moment
import Agenda.Recurrence.Habit

/-! # Habits in any order

What is a habit is told by the tasks of one masked title alone, and by when these were created, so that it
does not matter in which order the tasks stand. Of each masked title there is at most one habit: its newest
task, with the rhythm that all gaps between one creation and the next have.
-/

namespace Agenda

/-- A gap between two creations that is taken for the rhythm, in microseconds. -/
def Rhythm.Spans (r : Rhythm) (gap : Int) : Prop :=
  match r with
  | .daily => 43200000000 ≤ gap ∧ gap ≤ 2 * dayTicks
  | .weekly => 6 * dayTicks ≤ gap ∧ gap ≤ 8 * dayTicks
  | .monthly => 28 * dayTicks ≤ gap ∧ gap ≤ 32 * dayTicks
  | .custom => False

instance (r : Rhythm) (gap : Int) : Decidable (r.Spans gap) :=
  match r with
  | .daily | .weekly | .monthly => inferInstanceAs (Decidable (_ ∧ _))
  | .custom => inferInstanceAs (Decidable False)

namespace Habit

variable {tasks tasks' group ts : List Task} {a b t : Task} {h : Habit} {r : Rhythm} {gs : List Int} {g : Int}

/-- In a group, the task that was created next after another. -/
structure Next (group : List Task) (a b : Task) : Prop where
  former : a ∈ group
  latter : b ∈ group
  before : a.createdAt.instant < b.createdAt.instant
  between : ∀ c ∈ group, c.createdAt.instant ≤ a.createdAt.instant ∨ b.createdAt.instant ≤ c.createdAt.instant

instance (group : List Task) (a b : Task) : Decidable (Next group a b) :=
  decidable_of_iff (a ∈ group ∧ b ∈ group ∧ a.createdAt.instant < b.createdAt.instant ∧
      ∀ c ∈ group, c.createdAt.instant ≤ a.createdAt.instant ∨ b.createdAt.instant ≤ c.createdAt.instant)
    ⟨fun h => ⟨h.1, h.2.1, h.2.2.1, h.2.2.2⟩, fun h => ⟨h.former, h.latter, h.before, h.between⟩⟩

/-- The tasks without a recurrence that have a masked title. -/
def titled (tasks : List Task) (k : List Char) : List Task :=
  tasks.filter fun t => t.recurrence = none ∧ masked t.title = k

/-- The newest task of a group, whose creations keep the rhythm. -/
structure Steady (group : List Task) (h : Habit) : Prop where
  mem : h.task ∈ group
  newest : ∀ u ∈ group, u.createdAt.instant ≤ h.task.createdAt.instant
  enough : (if h.rhythm = .daily then 3 else 2) ≤ group.length
  gaps : ∀ a b, Next group a b → h.rhythm.Spans (b.createdAt.instant - a.createdAt.instant)

instance (group : List Task) (h : Habit) : Decidable (Steady group h) :=
  decidable_of_iff (h.task ∈ group ∧ (∀ u ∈ group, u.createdAt.instant ≤ h.task.createdAt.instant) ∧
      (if h.rhythm = .daily then 3 else 2) ≤ group.length ∧
      ∀ a ∈ group, ∀ b ∈ group, Next group a b → h.rhythm.Spans (b.createdAt.instant - a.createdAt.instant))
    ⟨fun h => ⟨h.1, h.2.1, h.2.2.1, fun a b hNext => h.2.2.2 a hNext.former b hNext.latter hNext⟩,
      fun h => ⟨h.mem, h.newest, h.enough, fun a _ b _ => h.gaps a b⟩⟩

/-! ## Gaps -/

/-- Created one after the other, in this order. -/
def InOrder (ts : List Task) : Prop :=
  ts.Pairwise fun a b => a.createdAt.instant < b.createdAt.instant

theorem next_cons (hOrder : InOrder (a :: b :: ts)) {x y : Task} :
    Next (a :: b :: ts) x y ↔ x = a ∧ y = b ∨ Next (b :: ts) x y := by
  obtain ⟨hFirst, hTail⟩ := List.pairwise_cons.mp hOrder
  have hSecond := (List.pairwise_cons.mp hTail).1
  have hAfter := hFirst b List.mem_cons_self
  constructor
  · rintro ⟨hx, hy, hBefore, hBetween⟩
    have hRest : y ∈ b :: ts := by
      refine (List.mem_cons.mp hy).resolve_left ?_
      rintro rfl
      rcases List.mem_cons.mp hx with rfl | hx
      · omega
      · have := hFirst x hx
        omega
    rcases List.mem_cons.mp hx with rfl | hx
    · refine .inl ⟨rfl, (List.mem_cons.mp hRest).resolve_right fun hLater => ?_⟩
      have := hSecond y hLater
      have := hBetween b (List.mem_cons_of_mem _ List.mem_cons_self)
      omega
    · exact .inr ⟨hx, hRest, hBefore, fun c hc => hBetween c (List.mem_cons_of_mem _ hc)⟩
  · -- the first task lies before all others, so none of them has it in between
    rintro (⟨rfl, rfl⟩ | ⟨hx, hy, hBefore, hBetween⟩)
    · refine ⟨List.mem_cons_self, List.mem_cons_of_mem _ List.mem_cons_self, hAfter, ?_⟩
      simp only [List.forall_mem_cons]
      exact ⟨.inl le_rfl, .inr le_rfl, fun c hc => .inr (hSecond c hc).le⟩
    · refine ⟨List.mem_cons_of_mem _ hx, List.mem_cons_of_mem _ hy, hBefore, List.forall_mem_cons.mpr ⟨.inl ?_, hBetween⟩⟩
      exact (hFirst x hx).le

theorem mem_gaps_iff (hOrder : InOrder ts) : g ∈ Habit.gaps (ts.map (·.createdAt)) ↔
    ∃ a b, Next ts a b ∧ b.createdAt.instant - a.createdAt.instant = g := by
  induction ts with
  | nil =>
    refine ⟨nofun, ?_⟩
    rintro ⟨a, b, hNext, _⟩
    cases hNext.former
  | cons a ts ih =>
    cases ts with
    | nil =>
      refine ⟨nofun, ?_⟩
      rintro ⟨x, y, hNext, _⟩
      cases List.mem_singleton.mp hNext.former
      cases List.mem_singleton.mp hNext.latter
      exact absurd hNext.before (Int.lt_irrefl _)
    | cons b ts =>
      have hGaps : Habit.gaps ((a :: b :: ts).map (·.createdAt)) =
          (b.createdAt.instant - a.createdAt.instant) :: Habit.gaps ((b :: ts).map (·.createdAt)) := rfl
      simp only [hGaps, List.mem_cons, ih (List.pairwise_cons.mp hOrder).2, next_cons hOrder]
      constructor
      · rintro (rfl | ⟨x, y, hNext, rfl⟩)
        · exact ⟨a, b, .inl ⟨rfl, rfl⟩, rfl⟩
        · exact ⟨x, y, .inr hNext, rfl⟩
      · rintro ⟨x, y, ⟨rfl, rfl⟩ | hNext, rfl⟩
        · exact .inl rfl
        · exact .inr ⟨x, y, hNext, rfl⟩

theorem length_gaps (ms : List Moment) : (Habit.gaps ms).length = ms.length - 1 := by
  induction ms with
  | nil => rfl
  | cons m ms ih =>
    cases ms with
    | nil => rfl
    | cons m' ms => exact congrArg Nat.succ ih

/-! ## Rhythms -/

theorem within_iff {low high : Int} :
    within gs low high = true ↔ ∀ g ∈ gs, low * 43200000000 ≤ g ∧ g ≤ high * 43200000000 := by
  have hHalf : dayTicks / 2 = 43200000000 := rfl
  simp only [within, hHalf, List.all_eq_true, Bool.and_eq_true, decide_eq_true_eq]

theorem rhythmOf_eq (gs : List Int) : rhythmOf gs =
    if 2 ≤ gs.length ∧ ∀ g ∈ gs, Rhythm.daily.Spans g then some .daily
    else if ∀ g ∈ gs, Rhythm.weekly.Spans g then some .weekly
    else if ∀ g ∈ gs, Rhythm.monthly.Spans g then some .monthly
    else none := by
  unfold rhythmOf
  simp only [Bool.and_eq_true, decide_eq_true_eq, within_iff]
  rfl

/-- The bands have no gap in common, so that one gap tells which of them it can be. -/
theorem rhythmOf_eq_some (hSome : gs ≠ []) :
    rhythmOf gs = some r ↔ (r = .daily → 2 ≤ gs.length) ∧ ∀ g ∈ gs, r.Spans g := by
  obtain ⟨g, hg⟩ := List.exists_mem_of_ne_nil gs hSome
  rw [rhythmOf_eq]
  constructor
  · intro h
    split_ifs at h with hDaily hWeekly hMonthly <;> cases h
    · exact ⟨fun _ => hDaily.1, hDaily.2⟩
    · exact ⟨nofun, hWeekly⟩
    · exact ⟨nofun, hMonthly⟩
  · rintro ⟨hEnough, hSpans⟩
    have hOther (r' : Rhythm) (hApart : ¬ r'.Spans g) : ¬ ∀ g ∈ gs, r'.Spans g := fun hAll => hApart (hAll g hg)
    have hGap := hSpans g hg
    cases r with
    | daily => rw [if_pos ⟨hEnough rfl, hSpans⟩]
    | weekly =>
      have hDaily : ¬ Rhythm.daily.Spans g := by
        unfold Rhythm.Spans dayTicks at *
        omega
      rw [if_neg fun h => hOther _ hDaily h.2, if_pos hSpans]
    | monthly =>
      have hDaily : ¬ Rhythm.daily.Spans g := by
        unfold Rhythm.Spans dayTicks at *
        omega
      have hWeekly : ¬ Rhythm.weekly.Spans g := by
        unfold Rhythm.Spans dayTicks at *
        omega
      rw [if_neg fun h => hOther _ hDaily h.2, if_neg (hOther _ hWeekly), if_pos hSpans]
    | custom => exact hGap.elim

/-! ## Groups -/

theorem Next.perm (hPerm : group.Perm ts) (h : Next group a b) : Next ts a b :=
  ⟨hPerm.subset h.former, hPerm.subset h.latter, h.before, fun c hc => h.between c (hPerm.symm.subset hc)⟩

theorem Steady.perm (hPerm : group.Perm ts) (hSteady : Steady group h) : Steady ts h :=
  ⟨hPerm.subset hSteady.mem, fun u hu => hSteady.newest u (hPerm.symm.subset hu), hPerm.length_eq ▸ hSteady.enough,
    fun a b hNext => hSteady.gaps a b (hNext.perm hPerm.symm)⟩

theorem getLast?_eq_some_iff (hOrder : InOrder ts) :
    ts.getLast? = some t ↔ t ∈ ts ∧ ∀ u ∈ ts, u.createdAt.instant ≤ t.createdAt.instant := by
  rcases List.eq_nil_or_concat' ts with rfl | ⟨before, last, rfl⟩
  · simp
  · have hBefore : ∀ u ∈ before, u.createdAt.instant < last.createdAt.instant := fun u hu =>
      (List.pairwise_append.mp hOrder).2.2 u hu last List.mem_cons_self
    rw [List.getLast?_concat, Option.some_inj]
    constructor
    · rintro rfl
      refine ⟨by simp, fun u hu => ?_⟩
      rcases List.mem_append.mp hu with hu | hu
      · exact (hBefore u hu).le
      · exact (congrArg (·.createdAt.instant) (List.mem_singleton.mp hu)).le
    · rintro ⟨ht, hNewest⟩
      rcases List.mem_append.mp ht with ht | ht
      · exact absurd (hNewest last (by simp)) (Int.not_le.mpr (hBefore t ht))
      · exact (List.mem_singleton.mp ht).symm

theorem inOrder_of_sortBy (hLocal : ∀ t ∈ group, t.createdAt.isLocal = true) (hDistinct : (group.map (·.createdAt)).Nodup)
    (hSorted : Moment.sortBy (·.createdAt) group = .ok ts) : InOrder ts := by
  have hPerm := Moment.perm_of_sortBy hSorted
  have hApart : ts.Pairwise fun a b => a.createdAt ≠ b.createdAt :=
    List.pairwise_map.mp ((hPerm.map _).nodup_iff.mpr hDistinct)
  refine ((Moment.pairwise_of_sortBy hSorted).and hApart).imp_of_mem fun {a b} ha hb hBoth => ?_
  have hA := hLocal a (hPerm.subset ha)
  have hB := hLocal b (hPerm.subset hb)
  refine lt_of_le_of_ne hBoth.1 fun hSame => hBoth.2 ?_
  rw [Moment.instant_of_isLocal hA, Moment.instant_of_isLocal hB] at hSame
  exact Moment.ext hSame ((Moment.offset_of_isLocal hA).trans (Moment.offset_of_isLocal hB).symm)

/-- Of a group in the order of creation. -/
theorem steady_iff (hOrder : InOrder ts) (hEnough : 2 ≤ ts.length) :
    Steady ts h ↔ ts.getLast? = some h.task ∧ rhythmOf (gaps (ts.map (·.createdAt))) = some h.rhythm := by
  have hLength : (gaps (ts.map (·.createdAt))).length = ts.length - 1 := by rw [length_gaps, List.length_map]
  have hSome : gaps (ts.map (·.createdAt)) ≠ [] := List.ne_nil_of_length_pos (by omega)
  have hSpans : (∀ g ∈ gaps (ts.map (·.createdAt)), h.rhythm.Spans g) ↔
      ∀ a b, Next ts a b → h.rhythm.Spans (b.createdAt.instant - a.createdAt.instant) := by
    simp only [mem_gaps_iff hOrder]
    constructor
    · exact fun hAll a b hNext => hAll _ ⟨a, b, hNext, rfl⟩
    · rintro hAll _ ⟨a, b, hNext, rfl⟩
      exact hAll a b hNext
  rw [getLast?_eq_some_iff hOrder, rhythmOf_eq_some hSome, hSpans, hLength]
  constructor
  · rintro ⟨hMem, hNewest, hMany, hGaps⟩
    refine ⟨⟨hMem, hNewest⟩, fun hDaily => ?_, hGaps⟩
    rw [if_pos hDaily] at hMany
    omega
  · rintro ⟨⟨hMem, hNewest⟩, hMany, hGaps⟩
    refine ⟨hMem, hNewest, ?_, hGaps⟩
    split
    · have := hMany ‹_›
      omega
    · exact hEnough

theorem exists_ofGroup (hLocal : ∀ t ∈ group, t.createdAt.isLocal = true) (hDistinct : (group.map (·.createdAt)).Nodup) :
    ∃ found, ofGroup group = .ok found ∧ ∀ h, found = some h ↔ Steady group h := by
  unfold ofGroup
  by_cases hFew : group.length < 2
  · refine ⟨none, if_pos hFew, fun h => ⟨nofun, fun hSteady => ?_⟩⟩
    have hEnough := hSteady.enough
    split at hEnough <;> omega
  · obtain ⟨ts, hSorted⟩ := Moment.sortBy_of_isLocal hLocal
    have hOrder := inOrder_of_sortBy hLocal hDistinct hSorted
    have hPerm := Moment.perm_of_sortBy hSorted
    refine ⟨_, (if_neg hFew).trans (Attempt.bind_eq_ok.mpr ⟨ts, hSorted, rfl⟩), fun h => ?_⟩
    have hSteady : Steady group h ↔ Steady ts h := ⟨.perm hPerm.symm, .perm hPerm⟩
    rw [hSteady, steady_iff hOrder (by rw [hPerm.length_eq]; omega)]
    constructor
    · intro hFound
      obtain ⟨rhythm, hRhythm, hFound⟩ := Option.bind_eq_some_iff.mp hFound
      obtain ⟨latest, hLatest, ⟨⟩⟩ := Option.bind_eq_some_iff.mp hFound
      exact ⟨hLatest, hRhythm⟩
    · rintro ⟨hLatest, hRhythm⟩
      exact Option.bind_eq_some_iff.mpr ⟨_, hRhythm, Option.bind_eq_some_iff.mpr ⟨_, hLatest, rfl⟩⟩

/-! ## All habits -/

theorem grouping_addTo : Grouping addTo :=
  ⟨fun _ _ => rfl, fun _ _ _ _ _ => rfl⟩

theorem exists_groups (tasks : List Task) : ∃ ks : List (List Char), ks.Nodup ∧
    (∀ t ∈ tasks, t.recurrence = none → masked t.title ∈ ks) ∧ groups tasks = ks.map (titled tasks) := by
  obtain ⟨ks, hDistinct, hKeys, hGroups⟩ :=
    grouping_addTo.foldl_by_key (fun t => masked t.title) (tasks.filter (·.recurrence.isNone))
  refine ⟨ks, hDistinct, fun t ht hSingle => (hKeys _).mpr ?_, ?_⟩
  · exact List.mem_map_of_mem (List.mem_filter.mpr ⟨ht, Option.isNone_iff_eq_none.mpr hSingle⟩)
  · rw [groups, hGroups, List.map_map]
    refine List.map_congr_left fun k _ => ?_
    rw [Function.comp_apply, List.filter_filter, titled]
    refine List.filter_congr fun t _ => Bool.eq_iff_iff.mpr ?_
    rw [Bool.and_eq_true, decide_eq_true_iff, decide_eq_true_iff, Option.isNone_iff_eq_none]
    exact And.comm

theorem mem_titled {k : List Char} : t ∈ titled tasks k ↔ t ∈ tasks ∧ t.recurrence = none ∧ masked t.title = k := by
  rw [titled, List.mem_filter, decide_eq_true_iff]

/-- One habit at most of each masked title, as the group of that title has it. -/
theorem exists_all (hLocal : ∀ t ∈ tasks, t.createdAt.isLocal = true) (hDistinct : (tasks.map (·.createdAt)).Nodup) :
    ∃ hs, all tasks = .ok hs ∧ (hs.map fun h => masked h.task.title).Nodup ∧
      ∀ h, h ∈ hs ↔ 5 ≤ tasks.length ∧ Steady (titled tasks (masked h.task.title)) h := by
  by_cases hFew : tasks.length < 5
  · exact ⟨[], if_pos hFew, List.nodup_nil, fun h => ⟨nofun, fun hMany => absurd hMany.1 (Nat.not_le.mpr hFew)⟩⟩
  · have hGroup (k : List Char) : ∃ found, ofGroup (titled tasks k) = .ok found ∧
        ∀ h, found = some h ↔ Steady (titled tasks k) h :=
      exists_ofGroup (fun t ht => hLocal t (mem_titled.mp ht).1) (hDistinct.sublist (List.filter_sublist.map _))
    choose found hFound hSteady using hGroup
    have hKey {k : List Char} {h : Habit} (hSome : found k = some h) : masked h.task.title = k :=
      (mem_titled.mp ((hSteady k h).mp hSome).mem).2.2
    obtain ⟨ks, hKeys, hTitles, hGroups⟩ := exists_groups tasks
    have hAll : all tasks = .ok (ks.filterMap found) := by
      refine (if_neg hFew).trans (Attempt.bind_eq_ok.mpr ⟨ks.map found, ?_, ?_⟩)
      · rw [hGroups, List.mapM_map]
        exact Attempt.mapM_of_ok fun k _ => hFound k
      · rw [List.filterMap_map]
        rfl
    refine ⟨ks.filterMap found, hAll, ?_, fun h => ?_⟩
    · refine List.pairwise_map.mpr (List.pairwise_filterMap.mpr (hKeys.imp fun hApart h hSome h' hSome' => ?_))
      rwa [hKey hSome, hKey hSome']
    · rw [List.mem_filterMap, and_iff_right (Nat.not_lt.mp hFew)]
      constructor
      · rintro ⟨k, _, hSome⟩
        rw [hKey hSome]
        exact (hSteady k h).mp hSome
      · intro hKept
        obtain ⟨hTask, hSingle, -⟩ := mem_titled.mp hKept.mem
        exact ⟨masked h.task.title, hTitles h.task hTask hSingle, (hSteady _ h).mpr hKept⟩

/-- With creations at different times, the habits of a list of tasks do not depend on its order. There is at most one
of each masked title: the newest of its tasks, where enough of them keep a rhythm. -/
theorem all_perm (hLocal : ∀ t ∈ tasks, t.createdAt.isLocal = true) (hDistinct : (tasks.map (·.createdAt)).Nodup)
    (hPerm : tasks.Perm tasks') :
    ∃ hs hs', all tasks = .ok hs ∧ all tasks' = .ok hs' ∧ hs.Perm hs' ∧ (hs.map fun h => masked h.task.title).Nodup ∧
      ∀ h, h ∈ hs ↔ 5 ≤ tasks.length ∧ Steady (titled tasks (masked h.task.title)) h := by
  have hLocal' : ∀ t ∈ tasks', t.createdAt.isLocal = true := fun t ht => hLocal t (hPerm.symm.subset ht)
  have hDistinct' : (tasks'.map (·.createdAt)).Nodup := (hPerm.map _).nodup_iff.mp hDistinct
  obtain ⟨hs, hAll, hKeys, hMem⟩ := exists_all hLocal hDistinct
  obtain ⟨hs', hAll', hKeys', hMem'⟩ := exists_all hLocal' hDistinct'
  refine ⟨hs, hs', hAll, hAll', ?_, hKeys, hMem⟩
  refine (List.perm_ext_iff_of_nodup (.of_map _ hKeys) (.of_map _ hKeys')).mpr fun h => ?_
  have hTitled : (titled tasks (masked h.task.title)).Perm (titled tasks' (masked h.task.title)) := hPerm.filter _
  rw [hMem, hMem', hPerm.length_eq]
  exact and_congr_right fun _ => ⟨.perm hTitled, .perm hTitled.symm⟩

/-- A meeting that was put down on three days in a row, and the rent of two months. -/
def notes : List Task :=
  [{ id := "a", title := "Meeting 3", createdAt := .on ⟨739008, by decide⟩ .noon },
    { id := "b", title := "Rent for May", createdAt := .on ⟨739005, by decide⟩ .noon },
    { id := "c", title := "Meeting 1", createdAt := .on ⟨739006, by decide⟩ .noon },
    { id := "d", title := "Rent for June", createdAt := .on ⟨739036, by decide⟩ .noon },
    { id := "e", title := "Meeting 2", createdAt := .on ⟨739007, by decide⟩ .midnight }]

theorem notes_perm : ∃ hs hs', all notes = .ok hs ∧ all notes.reverse = .ok hs' ∧ hs.Perm hs' ∧
    ⟨notes[0], .daily⟩ ∈ hs' ∧ ⟨notes[3], .monthly⟩ ∈ hs' := by
  have hLocal : ∀ t ∈ notes, t.createdAt.isLocal = true := by decide
  have hDistinct : (notes.map (·.createdAt)).Nodup := by decide
  obtain ⟨hs, hs', hAll, hAll', hPerm, -, hMem⟩ := all_perm hLocal hDistinct notes.reverse_perm.symm
  refine ⟨hs, hs', hAll, hAll', hPerm, hPerm.subset ((hMem _).mpr ?_), hPerm.subset ((hMem _).mpr ?_)⟩ <;> decide +kernel

end Habit

end Agenda
