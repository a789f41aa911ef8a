import Agenda.Proofs.Grouping
import Agenda.Proofs.Time.Moment
import Agenda.Question
import Mathlib.Algebra.Order.BigOperators.Group.List

/-! # Summaries agree

A summary counts the tasks that are due on one of the days from today to the last of the period. Its
parts all describe these tasks: the deadlines are the same tasks in order, and the groups have each of
them under each of its tags. A longer period counts more. The answer about the workload, which selects
and sorts for itself, lists the deadlines of the summary.
-/

namespace Agenda

variable {p q : Period} {ic : Bool} {now : Moment} {t : Task} {ts tasks : List Task} {s r : Summary}

/-- The last day of the period is one of the calendar. -/
def Period.Reached (p : Period) (now : Moment) : Prop :=
  now.day.number + p.lastDay ≤ 3652058

instance (p : Period) (now : Moment) : Decidable (p.Reached now) :=
  inferInstanceAs (Decidable (_ ≤ _))

namespace Summary

/-! ## The tasks that count -/

/-- Due on one of the days from today to the last of the period, and pending unless completed ones count. -/
def counts (p : Period) (includeCompleted : Bool) (now : Moment) (t : Task) : Bool :=
  (t.due.any fun m => now.day.number ≤ m.day.number && m.day.number ≤ now.day.number + p.lastDay) &&
    (includeCompleted || t.status == .pending)

theorem le_of_onDay {m : Moment} (d : Day) (hLocal : m.isLocal = true) :
    (Moment.on d .midnight).le m = .ok (decide (d.number ≤ m.day.number)) ∧
      m.le (.on d .last) = .ok (decide (m.day.number ≤ d.number)) := by
  have hTicks : (Moment.on d .midnight).ticks = d.number * 86400000000 + 0 ∧
      (Moment.on d .last).ticks = d.number * 86400000000 + 86399999999 ∧ m.day.number = m.ticks / 86400000000 :=
    ⟨rfl, rfl, rfl⟩
  rw [Moment.le_of_isLocal rfl hLocal, Moment.le_of_isLocal hLocal rfl, Moment.instant_of_isLocal hLocal,
    Moment.instant_of_isLocal rfl, Moment.instant_of_isLocal rfl]
  constructor <;> congr 2 <;> rw [eq_iff_iff] <;> omega

theorem dueWithin_of_bounds {bounds : Moment × Moment} (hBounds : p.bounds now = .ok bounds)
    (hLocal : ∀ m ∈ t.due, m.isLocal = true) : dueWithin bounds t = .ok (counts p true now t) := by
  obtain ⟨d, hDay, ⟨⟩⟩ := Attempt.bind_eq_ok.mp hBounds
  have hNumber := Day.plus_eq_ok.mp hDay
  unfold dueWithin counts
  cases hDue : t.due with
  | none => rfl
  | some m =>
    obtain ⟨hStart, -⟩ := le_of_onDay now.day (hLocal m hDue)
    obtain ⟨-, hStop⟩ := le_of_onDay d (hLocal m hDue)
    dsimp only
    rw [hStart, hStop, hNumber, Attempt.ok_bind, Option.any_some, Bool.true_or, Bool.and_true]
    cases decide (now.day.number ≤ m.day.number) <;> rfl

theorem bounds_of_reached (h : p.Reached now) : ∃ bounds, p.bounds now = .ok bounds := by
  have hLast : 0 ≤ p.lastDay := by cases p <;> decide
  have hToday := now.day.inRange
  obtain ⟨d, hDay⟩ := Day.exists_plus_iff.mpr ⟨by omega, h⟩
  exact ⟨_, Attempt.bind_eq_ok.mpr ⟨d, hDay, rfl⟩⟩

theorem bounds_of_not_reached (h : ¬ p.Reached now) : p.bounds now = .error .dateOverflow := by
  have hDay : now.day.plus p.lastDay = .error .dateOverflow := by
    have hBeyond : ¬ (0 ≤ now.day.number + p.lastDay ∧ now.day.number + p.lastDay ≤ 3652058) := fun hIn => h hIn.2
    simp only [Day.plus, Day.ofNumber, Day.ofNumber?, dif_neg hBeyond]
  rw [Period.bounds, hDay]
  rfl

theorem filterM_of_ok {f : Task → Except Fault Bool} {g : Task → Bool} (h : ∀ t ∈ tasks, f t = .ok (g t)) :
    tasks.filterM f = .ok (tasks.filter g) := by
  refine Attempt.filterM_eq_ok.mpr ⟨fun t ht => ⟨g t, h t ht⟩, List.filter_congr fun t ht => ?_⟩
  rw [h t ht]
  cases g t <;> rfl

theorem counted_eq (hReached : p.Reached now) (hLocal : ∀ t ∈ tasks, ∀ m ∈ t.due, m.isLocal = true) :
    counted tasks p ic now = .ok (tasks.filter (counts p ic now)) := by
  obtain ⟨bounds, hBounds⟩ := bounds_of_reached hReached
  refine Attempt.bind_eq_ok.mpr ⟨bounds, hBounds, filterM_of_ok fun t ht => ?_⟩
  rw [dueWithin_of_bounds hBounds (hLocal t ht), Attempt.ok_bind]
  simp only [counts, Bool.true_or, Bool.and_true]
  rfl

theorem due_of_counts (h : counts p ic now t = true) : ∃ m, t.due = some m := by
  unfold counts at h
  cases hDue : t.due with
  | none =>
    rw [hDue] at h
    cases h
  | some m => exact ⟨m, rfl⟩

/-! ## Deadlines -/

/-- The same tasks, the earlier ones first. -/
structure InDueOrder (tasks ts : List Task) : Prop where
  perm : ts.Perm tasks
  sorted : ts.Pairwise fun a b => ∀ m ∈ a.due, ∀ n ∈ b.due, m.ticks ≤ n.ticks

theorem InDueOrder.filter (h : InDueOrder tasks ts) (f : Task → Bool) : InDueOrder (tasks.filter f) (ts.filter f) :=
  ⟨h.perm.filter f, h.sorted.filter f⟩

theorem due_of_mem_dated {x : Moment × Task} (h : x ∈ Answer.dated tasks) : x.2.due = some x.1 := by
  obtain ⟨t, _, hPair⟩ := List.mem_filterMap.mp h
  obtain ⟨m, hm, rfl⟩ := Option.map_eq_some_iff.mp hPair
  exact hm

theorem map_dated (tasks : List Task) : (Answer.dated tasks).map (·.2) = tasks.filter (·.due.isSome) := by
  rw [Answer.dated, List.map_filterMap, ← List.filterMap_eq_filter]
  refine List.filterMap_congr fun t _ => ?_
  cases hDue : t.due <;> simp [hDue, Option.guard]

/-- Tasks with one due date keep their order, and those without one are left out. -/
theorem exists_inDueOrder (hLocal : ∀ t ∈ tasks, ∀ m ∈ t.due, m.isLocal = true) :
    ∃ ts, byDue tasks = .ok ts ∧ InDueOrder (tasks.filter (·.due.isSome)) ts ∧
      ∀ m, ts.filter (·.due = some m) = tasks.filter (·.due = some m) := by
  have hDates : ∀ x ∈ Answer.dated tasks, x.1.isLocal = true := by
    intro x hx
    have hTask := List.mem_of_mem_filter (map_dated tasks ▸ List.mem_map_of_mem hx : x.2 ∈ tasks.filter _)
    exact hLocal x.2 hTask x.1 (due_of_mem_dated hx)
  obtain ⟨sorted, hSorted⟩ := Moment.sortBy_of_isLocal hDates
  have hPerm := Moment.perm_of_sortBy hSorted
  have hDated : ∀ x ∈ sorted, x.2.due = some x.1 ∧ x.1.isLocal = true := fun x hx =>
    ⟨due_of_mem_dated (hPerm.subset hx), hDates x (hPerm.subset hx)⟩
  refine ⟨sorted.map (·.2), Attempt.bind_eq_ok.mpr ⟨sorted, hSorted, rfl⟩, ⟨?_, ?_⟩, fun m => ?_⟩
  · rw [← map_dated]
    exact hPerm.map _
  · refine List.pairwise_map.mpr ((Moment.pairwise_of_sortBy hSorted).imp_of_mem fun {x y} hx hy hLe => ?_)
    obtain ⟨hFirst, hFirstLocal⟩ := hDated x hx
    obtain ⟨hSecond, hSecondLocal⟩ := hDated y hy
    rw [Moment.instant_of_isLocal hFirstLocal, Moment.instant_of_isLocal hSecondLocal] at hLe
    rw [hFirst, hSecond]
    rintro _ ⟨⟩ _ ⟨⟩
    exact hLe
  · have hOne (pairs : List (Moment × Task)) (h : ∀ x ∈ pairs, x.2.due = some x.1) :
        (pairs.map (·.2)).filter (·.due = some m) = (pairs.filter (·.1 = m)).map (·.2) := by
      rw [List.filter_map]
      refine congrArg _ (List.filter_congr fun x hx => ?_)
      simp [h x hx]
    have hTied : ∀ x y : Moment × Task, decide (x.1 = m) = true → decide (y.1 = m) = true →
        x.1.instant ≤ y.1.instant := by
      intro x y hx hy
      rw [of_decide_eq_true hx, of_decide_eq_true hy]
    rw [hOne _ fun x hx => (hDated x hx).1, Moment.filter_of_sortBy hTied hSorted]
    change ((Answer.dated tasks).filter _).map _ = _
    rw [← hOne _ fun x hx => due_of_mem_dated hx, map_dated, List.filter_filter]
    refine List.filter_congr fun t _ => ?_
    cases hDue : t.due <;> simp

/-! ## Groups -/

/-- A task and one of the tags that it is counted under. -/
abbrev Tagging := Option String × Task

variable {k : Option String}

theorem grouping_addUnder : Grouping Summary.addUnder :=
  ⟨fun _ _ => rfl, fun _ _ _ _ _ => rfl⟩

def taggingsOf (tasks : List Task) : List Tagging :=
  tasks.flatMap fun t => (tagsOf t).map fun k => (k, t)

theorem grouped_byTag (s : Summary) : Grouped (taggingsOf s.tasks) s.byTag := by
  have hFold : s.byTag = (taggingsOf s.tasks).foldl (fun groups x => Summary.addUnder x.1 x.2 groups) [] := by
    unfold byTag taggingsOf
    rw [List.foldl_flatMap]
    simp only [List.foldl_map]
  rw [hFold]
  exact grouping_addUnder.grouped_foldl .nil _

/-- The tag is one of the task's, or `general` if it has none. -/
def under (k : Option String) (t : Task) : Bool :=
  t.tags.contains k || (t.tags.isEmpty && k == some "general")

theorem under_iff : under k t = true ↔ k ∈ tagsOf t := by
  unfold under tagsOf
  cases t.tags with
  | nil => simp
  | cons tag tags => simp

theorem nodup_tagsOf (h : t.tags.Nodup) : (tagsOf t).Nodup := by
  unfold tagsOf
  split
  · exact List.nodup_singleton _
  · exact h

/-- With distinct tags a task is in each of its groups once. -/
theorem tasks_of_tag (hTags : ∀ t ∈ tasks, t.tags.Nodup) (k : Option String) :
    ((taggingsOf tasks).filter fun x => x.1 = k).map Prod.snd = tasks.filter (under k) := by
  induction tasks with
  | nil => rfl
  | cons t tasks ih =>
    obtain ⟨hTask, hTags⟩ := List.forall_mem_cons.mp hTags
    have hOne : (((tagsOf t).map fun j => (j, t)).filter fun x => x.1 = k).map Prod.snd =
        if under k t then [t] else [] := by
      have hSame : ((tagsOf t).map fun j => (j, t)).filter (fun x => x.1 = k) =
          ((tagsOf t).filter (· = k)).map fun j => (j, t) := by rw [List.filter_map]; rfl
      rw [hSame, List.filter_eq, (nodup_tagsOf hTask).count]
      simp only [← under_iff]
      split <;> rfl
    have hMore : taggingsOf (t :: tasks) = ((tagsOf t).map fun j => (j, t)) ++ taggingsOf tasks := rfl
    rw [hMore, List.filter_append, List.map_append, hOne, ih hTags, List.filter_cons]
    split <;> rfl

/-! ## One summary -/

/-- What a summary says, all of the tasks that count. -/
structure Consistent (tasks : List Task) (p : Period) (includeCompleted : Bool) (now : Moment) (s : Summary) : Prop where
  tasks : s.tasks = tasks.filter (counts p includeCompleted now)
  completed : s.completed ≤ s.total
  upcoming : InDueOrder s.tasks s.upcoming
  byTag : ∃ ks : List (Option String), ks.Nodup ∧ (∀ k, k ∈ ks ↔ ∃ t ∈ s.tasks, under k t = true) ∧
    s.byTag = ks.map fun k => (k, s.tasks.filter (under k))
  minutes : s.minutes = (s.tasks.map fun t => t.minutes.getD 60).sum

theorem ofTasks_of_not_reached (h : ¬ p.Reached now) : ofTasks tasks p ic now = .error .dateOverflow := by
  rw [ofTasks, counted, bounds_of_not_reached h]
  rfl

theorem reached_of_ofTasks (h : ofTasks tasks p ic now = .ok s) : p.Reached now := by
  by_contra hBeyond
  rw [ofTasks_of_not_reached hBeyond] at h
  cases h

theorem exists_ofTasks (ic : Bool) (hReached : p.Reached now) (hLocal : ∀ t ∈ tasks, ∀ m ∈ t.due, m.isLocal = true) :
    ∃ ts, byDue (tasks.filter (counts p ic now)) = .ok ts ∧ InDueOrder (tasks.filter (counts p ic now)) ts ∧
      ofTasks tasks p ic now = .ok ⟨p, tasks.filter (counts p ic now), ts⟩ := by
  have hDated : (tasks.filter (counts p ic now)).filter (·.due.isSome) = tasks.filter (counts p ic now) := by
    refine List.filter_eq_self.mpr fun t ht => ?_
    obtain ⟨m, hm⟩ := due_of_counts (List.of_mem_filter ht)
    rw [hm]
    rfl
  obtain ⟨ts, hSorted, hOrder, -⟩ := exists_inDueOrder fun t ht => hLocal t (List.mem_of_mem_filter ht)
  rw [hDated] at hOrder
  refine ⟨ts, hSorted, hOrder, ?_⟩
  exact Attempt.bind_eq_ok.mpr ⟨_, counted_eq hReached hLocal, Attempt.bind_eq_ok.mpr ⟨ts, hSorted, rfl⟩⟩

theorem consistent_of_inDueOrder (hOrder : InDueOrder (tasks.filter (counts p ic now)) ts)
    (hTags : ∀ t ∈ tasks, t.tags.Nodup) :
    Consistent tasks p ic now ⟨p, tasks.filter (counts p ic now), ts⟩ := by
  refine ⟨rfl, List.length_filter_le _ _, hOrder, ?_, rfl⟩
  obtain ⟨ks, hDistinct, hKeys, hGroups⟩ := grouped_byTag ⟨p, tasks.filter (counts p ic now), ts⟩
  refine ⟨ks, hDistinct, fun k => ?_, ?_⟩
  · rw [hKeys, taggingsOf]
    simp only [under_iff, List.mem_map, List.mem_flatMap]
    constructor
    · rintro ⟨_, ⟨t, ht, k, hk, rfl⟩, rfl⟩
      exact ⟨t, ht, hk⟩
    · rintro ⟨t, ht, hk⟩
      exact ⟨(k, t), ⟨t, ht, k, hk, rfl⟩, rfl⟩
  · rw [hGroups]
    refine List.map_congr_left fun k _ => ?_
    rw [tasks_of_tag fun t ht => hTags t (List.mem_of_mem_filter ht)]

/-! ## Longer periods -/

theorem counts_of_shorter (h : p.lastDay ≤ q.lastDay) (hCounts : counts p ic now t = true) :
    counts q ic now t = true := by
  unfold counts at *
  obtain ⟨hDue, hStatus⟩ := Bool.and_eq_true_iff.mp hCounts
  refine Bool.and_eq_true_iff.mpr ⟨?_, hStatus⟩
  cases hDate : t.due with
  | none =>
    rw [hDate] at hDue
    cases hDue
  | some m =>
    rw [hDate] at hDue
    simp only [Option.any_some, Bool.and_eq_true, decide_eq_true_eq] at hDue ⊢
    omega

/-- What a shorter period counts is part of what a longer one does. -/
structure Within (s r : Summary) : Prop where
  tasks : s.tasks.Sublist r.tasks
  total : s.total ≤ r.total
  completed : s.completed ≤ r.completed
  minutes : s.minutes ≤ r.minutes

theorem within_of_sublist (h : s.tasks.Sublist r.tasks) (hMinutes : ∀ t ∈ r.tasks, ∀ n ∈ t.minutes, 1 ≤ n) :
    Within s r := by
  refine ⟨h, h.length_le, (h.filter _).length_le, (h.map _).sum_le_sum fun n hn => ?_⟩
  obtain ⟨t, ht, rfl⟩ := List.mem_map.mp hn
  unfold Task.duration
  cases hDuration : t.minutes with
  | none => decide
  | some n => exact Int.le_of_lt (hMinutes t ht n hDuration)

/-! ## The answer about the workload -/

end Summary

namespace Answer

open Summary

/-- One task of a schedule. -/
def item (t : Task) : String :=
  "- " ++ (t.due.map (·.hourMinuteText)).getD "" ++ ": " ++ t.title ++ flag t

def isItem (line : String) : Bool :=
  line.toList.head? == some '-'

/-- The answer lists these tasks in this order, with their days between them. -/
inductive Lists (p : Period) : List Task → String → Prop
  | clear : Lists p [] ("Your schedule for " ++ p.name ++ " is clear. You don't have any pending tasks.")
  | schedule {ts : List Task} {ls : List String} (hSome : ts ≠ []) (hItems : ls.filter isItem = ts.map item)
      (hDays : ∀ line ∈ ls, isItem line = false → ∃ t ∈ ts, ∃ m ∈ t.due, line = dayText m) :
      Lists p ts (lines (("Your " ++ p.name ++ " schedule") :: ls ++ ["Total: " ++ count ts.length ++ " tasks"]))

theorem isItem_dayText (m : Moment) : isItem (dayText m) = false := by
  have hNames : ∀ n ∈ List.range 7, (weekdayAbbreviation n).toList.head?.any (· != '-') = true := by decide
  obtain ⟨n, hWeekday⟩ : ∃ n : Nat, m.day.weekday = n := ⟨_, (Int.toNat_of_nonneg (Int.emod_nonneg _ (by decide))).symm⟩
  have hBelow : n < 7 := by
    have := Int.emod_lt_of_pos (m.day.number + 1) (show (0 : Int) < 7 by decide)
    unfold Day.weekday at hWeekday
    omega
  have hName := hNames n (List.mem_range.mpr hBelow)
  unfold isItem dayText Moment.weekdayText
  rw [hWeekday, String.append_assoc, String.toList_append, List.head?_append]
  cases hHead : (weekdayAbbreviation n).toList.head? with
  | none =>
    rw [hHead] at hName
    cases hName
  | some c =>
    rw [hHead] at hName
    simpa using hName

theorem isItem_item (t : Task) : isItem (item t) = true := by
  simp only [isItem, item, String.append_assoc, String.toList_append]
  rfl

theorem dayLines_cons {m : Moment} (h : t.due = some m) (current : String) :
    dayLines current (dated (t :: ts)) =
      (if dayText m = current then [] else [dayText m]) ++ item t :: dayLines (dayText m) (dated ts) := by
  have hDated : dated (t :: ts) = (m, t) :: dated ts := by
    rw [dated, List.filterMap_cons_some (by rw [h]; rfl)]
    rfl
  rw [hDated, dayLines, item, h]
  rfl

theorem filter_dayLines (hDue : ∀ t ∈ ts, ∃ m, t.due = some m) (current : String) :
    (dayLines current (dated ts)).filter isItem = ts.map item := by
  induction ts generalizing current with
  | nil => rfl
  | cons t ts ih =>
    obtain ⟨⟨m, hm⟩, hDue⟩ := List.forall_mem_cons.mp hDue
    have hHeading : (if dayText m = current then [] else [dayText m]).filter isItem = [] := by
      split
      · rfl
      · exact List.filter_eq_nil_iff.mpr (List.forall_mem_singleton.mpr (by simp [isItem_dayText]))
    rw [dayLines_cons hm, List.filter_append, hHeading, List.nil_append, List.filter_cons_of_pos (isItem_item t),
      ih hDue, List.map_cons]

/-- Between the items stand the days of the tasks. -/
theorem day_of_dayLines (hDue : ∀ t ∈ ts, ∃ m, t.due = some m) {current line : String}
    (hLine : line ∈ dayLines current (dated ts)) (hDay : isItem line = false) :
    ∃ t ∈ ts, ∃ m ∈ t.due, line = dayText m := by
  induction ts generalizing current with
  | nil => cases hLine
  | cons t ts ih =>
    obtain ⟨⟨m, hm⟩, hDue⟩ := List.forall_mem_cons.mp hDue
    rw [dayLines_cons hm, List.mem_append, List.mem_cons] at hLine
    obtain hHeading | rfl | hRest := hLine
    · split at hHeading
      · cases hHeading
      · exact ⟨t, List.mem_cons_self, m, hm, List.mem_singleton.mp hHeading⟩
    · rw [isItem_item] at hDay
      cases hDay
    · obtain ⟨u, hu, hDay⟩ := ih hDue hRest
      exact ⟨u, List.mem_cons_of_mem t hu, hDay⟩

/-- Selecting the pending tasks first leaves the tasks that a summary counts. -/
theorem pendingWithin_eq (hReached : p.Reached now) (hLocal : ∀ t ∈ tasks, ∀ m ∈ t.due, m.isLocal = true)
    (hSorted : byDue (tasks.filter (counts p false now)) = .ok ts) : pendingWithin tasks p now = .ok ts := by
  obtain ⟨bounds, hBounds⟩ := bounds_of_reached hReached
  have hPending : (tasks.filter (·.status == .pending)).filterM (dueWithin bounds) =
      .ok (tasks.filter (counts p false now)) := by
    rw [filterM_of_ok fun t ht => dueWithin_of_bounds hBounds (hLocal t (List.mem_of_mem_filter ht)), List.filter_filter]
    refine congrArg _ (List.filter_congr fun t _ => ?_)
    simp only [counts, Bool.true_or, Bool.and_true, Bool.false_or]
  exact Attempt.bind_eq_ok.mpr ⟨bounds, hBounds, Attempt.bind_eq_ok.mpr ⟨_, hPending, hSorted⟩⟩

theorem exists_lists (hDue : ∀ t ∈ ts, ∃ m, t.due = some m) (hPending : pendingWithin tasks p now = .ok ts) :
    ∃ text, workloadText tasks p now = .ok text ∧ Lists p ts text := by
  cases hTasks : ts with
  | nil =>
    refine ⟨_, Attempt.bind_eq_ok.mpr ⟨ts, hPending, ?_⟩, .clear⟩
    rw [hTasks]
    rfl
  | cons t rest =>
    refine ⟨_, Attempt.bind_eq_ok.mpr ⟨ts, hPending, ?_⟩,
      .schedule (List.cons_ne_nil t rest) (filter_dayLines (hTasks ▸ hDue) "") fun _ => day_of_dayLines (hTasks ▸ hDue)⟩
    rw [hTasks]
    rfl

theorem ofQuestion_workload {question : List Char} (hTopic : Topic.ofQuestion question = .workload) :
    ofQuestion question tasks now =
      (workloadText tasks (.ofQuestion question) now).bind fun text => .ok ⟨.workload, text⟩ := by
  rw [ofQuestion, hTopic]
  rfl

theorem ofQuestion_of_not_reached {question : List Char} (hTopic : Topic.ofQuestion question = .workload)
    (h : ¬ (Period.ofQuestion question).Reached now) : ofQuestion question tasks now = .error .dateOverflow := by
  rw [ofQuestion_workload hTopic, workloadText, pendingWithin, bounds_of_not_reached h]
  rfl

end Answer

namespace Summary

/-! ## All that is summarized -/

/-- A summary that reaches its last day tells everything about the tasks that count. A longer one counts more, and the
answer about the workload lists the deadlines. Beyond the calendar there is neither. -/
theorem summaries_agree (hLocal : ∀ t ∈ tasks, ∀ m ∈ t.due, m.isLocal = true) (hTags : ∀ t ∈ tasks, t.tags.Nodup)
    (hMinutes : ∀ t ∈ tasks, ∀ n ∈ t.minutes, 1 ≤ n) (now : Moment) (ic : Bool) :
    (∀ p : Period, p.Reached now → ∃ s, ofTasks tasks p ic now = .ok s ∧ Consistent tasks p ic now s) ∧
    (∀ p q, (p, q) ∈ [(Period.today, Period.tomorrow), (.tomorrow, .week)] → ∀ s r,
      ofTasks tasks p ic now = .ok s → ofTasks tasks q ic now = .ok r → Within s r) ∧
    (∀ question, Topic.ofQuestion question = .workload → ∀ s, ofTasks tasks (.ofQuestion question) false now = .ok s →
      ∃ text, Answer.ofQuestion question tasks now = .ok ⟨.workload, text⟩ ∧
        Answer.Lists (.ofQuestion question) s.upcoming text) ∧
    (∀ p : Period, ¬ p.Reached now → ofTasks tasks p ic now = .error .dateOverflow ∧
      ∀ question, Topic.ofQuestion question = .workload → .ofQuestion question = p →
        Answer.ofQuestion question tasks now = .error .dateOverflow) := by
  refine ⟨fun p hReached => ?_, fun p q hLonger s r hs hr => ?_, fun question hTopic s hs => ?_, fun p hBeyond => ?_⟩
  · obtain ⟨ts, -, hOrder, hSummary⟩ := exists_ofTasks ic hReached hLocal
    exact ⟨_, hSummary, consistent_of_inDueOrder hOrder hTags⟩
  · obtain ⟨_, -, -, hShorter⟩ := exists_ofTasks ic (reached_of_ofTasks hs) hLocal
    obtain ⟨_, -, -, hSummary⟩ := exists_ofTasks ic (reached_of_ofTasks hr) hLocal
    cases hs.symm.trans hShorter
    cases hr.symm.trans hSummary
    have hDays : p.lastDay ≤ q.lastDay := by
      simp only [List.mem_cons, List.not_mem_nil, or_false, Prod.mk.injEq] at hLonger
      obtain ⟨rfl, rfl⟩ | ⟨rfl, rfl⟩ := hLonger <;> decide
    refine within_of_sublist (List.monotone_filter_right tasks fun t => counts_of_shorter hDays) fun t ht => ?_
    exact hMinutes t (List.mem_of_mem_filter ht)
  · have hReached := reached_of_ofTasks hs
    obtain ⟨ts, hSorted, hOrder, hSummary⟩ := exists_ofTasks false hReached hLocal
    cases hs.symm.trans hSummary
    have hDue : ∀ t ∈ ts, ∃ m, t.due = some m := fun t ht =>
      due_of_counts (List.of_mem_filter (hOrder.perm.subset ht))
    obtain ⟨text, hText, hLists⟩ := Answer.exists_lists hDue (Answer.pendingWithin_eq hReached hLocal hSorted)
    refine ⟨text, ?_, hLists⟩
    rw [Answer.ofQuestion_workload hTopic, hText]
    rfl
  · refine ⟨ofTasks_of_not_reached hBeyond, ?_⟩
    rintro question hTopic rfl
    exact Answer.ofQuestion_of_not_reached hTopic hBeyond

/-- Rent that is due at noon, a call then that was made, and packing for the next day. -/
def errands : List Task :=
  [{ id := "a", title := "Pay rent", tags := [some "home", some "money"], minutes := some 10,
      createdAt := .on ⟨739099, by decide⟩ .noon, due := some (.on ⟨739100, by decide⟩ .noon) },
    { id := "b", title := "Call Ann", status := .completed, createdAt := .on ⟨739099, by decide⟩ .noon,
      due := some (.on ⟨739100, by decide⟩ .noon) },
    { id := "c", title := "Pack", tags := [some "home"], createdAt := .on ⟨739099, by decide⟩ .noon,
      due := some (.on ⟨739101, by decide⟩ .noon) }]

theorem errands_agree :
    ∃ s r, ofTasks errands .today true (.on ⟨739100, by decide⟩ .noon) = .ok s ∧
      ofTasks errands .tomorrow true (.on ⟨739100, by decide⟩ .noon) = .ok r ∧
      s.tasks.map (·.id) = ["a", "b"] ∧ r.tasks.map (·.id) = ["a", "b", "c"] ∧ s.minutes = 70 ∧ r.minutes = 130 ∧
      Within s r := by
  have hLocal : ∀ t ∈ errands, ∀ m ∈ t.due, m.isLocal = true := by decide
  have hTags : ∀ t ∈ errands, t.tags.Nodup := by decide
  have hMinutes : ∀ t ∈ errands, ∀ n ∈ t.minutes, 1 ≤ n := by decide
  obtain ⟨hSummary, hWithin, -⟩ := summaries_agree hLocal hTags hMinutes (.on ⟨739100, by decide⟩ .noon) true
  obtain ⟨s, hs, hToday⟩ := hSummary .today (by decide)
  obtain ⟨r, hr, hTomorrow⟩ := hSummary .tomorrow (by decide)
  refine ⟨s, r, hs, hr, ?_, ?_, ?_, ?_, hWithin _ _ (by decide) s r hs hr⟩
  · rw [hToday.tasks]
    rfl
  · rw [hTomorrow.tasks]
    rfl
  · rw [hToday.minutes, hToday.tasks]
    rfl
  · rw [hTomorrow.minutes, hTomorrow.tasks]
    rfl

/-- Packing at the end of the calendar. -/
def lastTask : Task :=
  { id := "a", title := "Pack", createdAt := .on ⟨739099, by decide⟩ .noon, due := some .latest }

/-- It counts today, and the days from today to tomorrow cannot be told. -/
theorem lastTask_not_summarized :
    (∃ s, ofTasks [lastTask] .today false .latest = .ok s ∧ s.tasks = [lastTask]) ∧
    ofTasks [lastTask] .tomorrow false .latest = .error .dateOverflow ∧
    Answer.ofQuestion "what is on tomorrow".toList [lastTask] .latest = .error .dateOverflow := by
  have hLocal : ∀ t ∈ [lastTask], ∀ m ∈ t.due, m.isLocal = true := by decide
  have hBeyond : ¬ Period.tomorrow.Reached .latest := by decide
  have hReached : Period.today.Reached .latest := by decide
  obtain ⟨ts, -, -, hToday⟩ := exists_ofTasks false hReached hLocal
  have hPeriod : Period.ofQuestion "what is on tomorrow".toList = .tomorrow := by decide
  refine ⟨⟨_, hToday, rfl⟩, ofTasks_of_not_reached hBeyond, ?_⟩
  exact Answer.ofQuestion_of_not_reached (by decide) (hPeriod ▸ hBeyond)

end Summary

end Agenda
