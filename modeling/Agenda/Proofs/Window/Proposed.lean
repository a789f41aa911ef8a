import Agenda.Proposal
import Agenda.Proofs.Window.Conflict

/-! # The earliest free time of a week

The times proposed are those of the seven days from today on that are worked on and suit the first tag, in
their order. The suggestion is the first of them at which the task conflicts with nothing. What is not open,
has no due date or is the task itself has no part in it. Only a date beyond the calendar keeps a time from
being suggested, and with room behind all tasks none is reckoned.
-/

namespace Agenda.Proposal

open Attempt Window

variable {w : WorkingHours} {t u : Task} {existing tasks : List Task} {tag : Option String} {d : Day}
  {now m : Moment} {ms times : List Moment} {last : Int}

/-- The full hours that suit a tag on a day. -/
inductive Suits (w : WorkingHours) (d : Day) : Option String → Int → Prop
  | work : Suits w d (some "work") (w.start + 1)
  | errand : Suits w d (some "errand") 15
  | morning : Suits w d (some "fitness") 7
  | evening : Suits w d (some "fitness") 18
  | weekend (h : d.weekday = 0 ∨ d.weekday = 6) : Suits w d (some "social") 12
  | weekday (h : ¬ (d.weekday = 0 ∨ d.weekday = 6)) : Suits w d (some "social") 19
  | other {tag : Option String} (h : tag ∉ [some "work", some "errand", some "fitness", some "social"]) :
      Suits w d tag (w.start + 2)

/-- The time is on a day that is worked on, at a full hour that suits the tag. -/
structure Fits (w : WorkingHours) (tag : Option String) (m : Moment) : Prop where
  isLocal : m.isLocal = true
  worked : w.days = [] ∨ m.day.weekday ∈ w.days
  suits : ∃ n, Suits w m.day tag n ∧ m.clock.ticks = n * hourTicks

structure Proposed (w : WorkingHours) (t : Task) (now : Moment) (times : List Moment) : Prop where
  increasing : times.Pairwise (·.ticks < ·.ticks)
  mem_iff : ∀ m, m ∈ times ↔
    (now.day.number ≤ m.day.number ∧ m.day.number ≤ now.day.number + 6) ∧ Fits w (firstTag t) m

/-! ## The hours of a tag -/

theorem exists_hour {n : Int} (hn : 0 ≤ n ∧ n ≤ 23) : ∃ c, hour n = .ok c ∧ c.ticks = n * hourTicks := by
  have hParts : (0 ≤ n ∧ n ≤ 23) ∧ (0 : Int) ≤ 0 ∧ (0 : Int) ≤ 59 := ⟨hn, by decide⟩
  unfold hour Clock.ofParts?
  rw [dif_pos hParts]
  exact ⟨_, rfl, Int.add_zero _⟩

/-- Clocks at the hours that suit a tag. -/
structure AtHours (w : WorkingHours) (tag : Option String) (d : Day) (cs : List Clock) : Prop where
  increasing : cs.Pairwise (·.ticks < ·.ticks)
  mem_iff : ∀ c, c ∈ cs ↔ ∃ n, Suits w d tag n ∧ c.ticks = n * hourTicks

theorem atHours_of_ticks {ns : List Int} {cs : List Clock} (hSuits : ∀ n, Suits w d tag n ↔ n ∈ ns)
    (hIncreasing : ns.Pairwise (· < ·)) (hTicks : cs.map (·.ticks) = ns.map (· * hourTicks)) :
    AtHours w tag d cs := by
  have hInjective : Function.Injective Clock.ticks := fun _ _ => Clock.ext
  refine ⟨List.pairwise_map.mp ?_, fun c => ?_⟩
  · rw [hTicks]
    refine List.pairwise_map.mpr (hIncreasing.imp fun hLess => ?_)
    unfold hourTicks
    omega
  · rw [← List.mem_map_of_injective hInjective, hTicks, List.mem_map]
    simp only [hSuits, eq_comm]

theorem suits_iff {n : Int} : Suits w d tag n ↔
    tag = some "work" ∧ n = w.start + 1 ∨ tag = some "errand" ∧ n = 15 ∨ tag = some "fitness" ∧ (n = 7 ∨ n = 18) ∨
      tag = some "social" ∧ n = (if d.weekday = 0 ∨ d.weekday = 6 then 12 else 19) ∨
      tag ∉ [some "work", some "errand", some "fitness", some "social"] ∧ n = w.start + 2 := by
  constructor
  · rintro (_ | _ | _ | _ | h | h | h)
    · simp
    · simp
    · simp
    · simp
    · simp [h]
    · simp [h]
    · simp [h]
  · rintro (⟨rfl, rfl⟩ | ⟨rfl, rfl⟩ | ⟨rfl, rfl | rfl⟩ | ⟨rfl, rfl⟩ | ⟨h, rfl⟩)
    · exact .work
    · exact .errand
    · exact .morning
    · exact .evening
    · split_ifs with h
      · exact .weekend h
      · exact .weekday h
    · exact .other h

theorem exists_oneHour {n : Int} (hn : 0 ≤ n ∧ n ≤ 23) (hSuits : ∀ k, Suits w d tag k ↔ k ∈ [n]) :
    ∃ cs, (do return [← hour n] : Except Fault (List Clock)) = .ok cs ∧ AtHours w tag d cs := by
  obtain ⟨c, hHour, hTicks⟩ := exists_hour hn
  refine ⟨[c], bind_eq_ok.mpr ⟨c, hHour, rfl⟩, atHours_of_ticks hSuits (List.pairwise_singleton _ _) ?_⟩
  rw [List.map_singleton, List.map_singleton, hTicks]

theorem exists_hours (hStart : 0 ≤ w.start ∧ w.start ≤ 21) (tag : Option String) (d : Day) :
    ∃ cs, hours w tag d = .ok cs ∧ AtHours w tag d cs := by
  unfold hours
  split_ifs with hWork hErrand hFitness hSocial hWeekend
  · have hSuits (n : Int) : Suits w d tag n ↔ n ∈ [w.start + 1] := by simp [suits_iff, hWork]
    exact exists_oneHour (by omega) hSuits
  · have hSuits (n : Int) : Suits w d tag n ↔ n ∈ [15] := by simp [suits_iff, hErrand]
    exact ⟨_, rfl, atHours_of_ticks hSuits (by decide) rfl⟩
  · have hSuits (n : Int) : Suits w d tag n ↔ n ∈ [7, 18] := by simp [suits_iff, hFitness]
    exact ⟨_, rfl, atHours_of_ticks hSuits (by decide) rfl⟩
  · have hSuits (n : Int) : Suits w d tag n ↔ n ∈ [12] := by simp [suits_iff, hSocial, hWeekend]
    exact ⟨_, rfl, atHours_of_ticks hSuits (by decide) rfl⟩
  · have hSuits (n : Int) : Suits w d tag n ↔ n ∈ [19] := by simp [suits_iff, hSocial, hWeekend]
    exact ⟨_, rfl, atHours_of_ticks hSuits (by decide) rfl⟩
  · have hSuits (n : Int) : Suits w d tag n ↔ n ∈ [w.start + 2] := by
      simp [suits_iff, hWork, hErrand, hFitness, hSocial]
    exact exists_oneHour (by omega) hSuits

/-! ## The times of a week -/

theorem exists_onDay (hStart : 0 ≤ w.start ∧ w.start ≤ 21) (tag : Option String) (d : Day) :
    ∃ ms, onDay w tag d = .ok ms ∧ ms.Pairwise (·.ticks < ·.ticks) ∧ ∀ m, m ∈ ms ↔ m.day = d ∧ Fits w tag m := by
  unfold onDay
  by_cases hWorked : w.days = [] ∨ d.weekday ∈ w.days
  · obtain ⟨cs, hHours, hClocks⟩ := exists_hours hStart tag d
    have hOpen : ¬ ((!w.days.isEmpty && !w.days.contains d.weekday) = true) := by
      simpa [Decidable.or_iff_not_imp_left] using hWorked
    rw [if_neg hOpen]
    refine ⟨cs.map (.on d), bind_eq_ok.mpr ⟨cs, hHours, rfl⟩, ?_, fun m => ?_⟩
    · exact List.pairwise_map.mpr (hClocks.increasing.imp fun hLess => Int.add_lt_add_left hLess _)
    · rw [List.mem_map]
      constructor
      · rintro ⟨c, hc, rfl⟩
        have hDay : (Moment.on d c).day = d := Moment.day_ofDay d c none
        have hClock : (Moment.on d c).clock = c := Moment.clock_ofDay d c none
        exact ⟨hDay, rfl, hDay.symm ▸ hWorked, hDay.symm ▸ hClock.symm ▸ (hClocks.mem_iff c).mp hc⟩
      · rintro ⟨rfl, hLocal, _, hSuits⟩
        refine ⟨m.clock, (hClocks.mem_iff _).mpr hSuits, ?_⟩
        rw [Moment.on, ← Moment.offset_of_isLocal hLocal, Moment.ofDay_parts]
  · have hClosed : (!w.days.isEmpty && !w.days.contains d.weekday) = true := by
      simpa [not_or] using hWorked
    rw [if_pos hClosed]
    refine ⟨[], rfl, .nil, fun m => ?_⟩
    constructor
    · nofun
    · rintro ⟨rfl, hFits⟩
      exact absurd hFits.worked hWorked

theorem exists_candidates (hStart : 0 ≤ w.start ∧ w.start ≤ 21) (hDays : now.day.number + 6 ≤ 3652058) (t : Task) :
    ∃ times, candidates w t now = .ok times ∧ Proposed w t now times := by
  have hOn (n : Nat) (hn : n < 7) : ∃ ms, (do onDay w (firstTag t) (← now.plusDays n).day) = .ok ms ∧
      ms.Pairwise (·.ticks < ·.ticks) ∧
      ∀ m, m ∈ ms ↔ m.day.number = now.day.number + n ∧ Fits w (firstTag t) m := by
    have hToday := now.day.inRange
    have hTicks : now.day.number = now.ticks / 86400000000 := rfl
    obtain ⟨later, hLater⟩ : ∃ later, now.plusDays n = .ok later := Moment.exists_plus (by omega) (by omega)
    obtain ⟨ms, hMoments, hIncreasing, hMem⟩ := exists_onDay hStart (firstTag t) later.day
    refine ⟨ms, bind_eq_ok.mpr ⟨later, hLater, hMoments⟩, hIncreasing, fun m => ?_⟩
    rw [hMem, ← (Moment.plusDays_eq_ok.mp hLater).1, Day.ext_iff]
  choose! ms hMoments hIncreasing hMem using hOn
  refine ⟨((List.range 7).map ms).flatten, ?_, ?_, fun m => ?_⟩
  · refine bind_eq_ok.mpr ⟨_, mapM_of_ok fun n hn => hMoments n (List.mem_range.mp hn), rfl⟩
  · -- times of one day increase by their clocks, those of different days by the days
    rw [List.pairwise_flatten, List.pairwise_map]
    refine ⟨?_, List.pairwise_lt_range.imp_of_mem fun {i j} hi hj hLess a ha b hb => ?_⟩
    · simp only [List.mem_map, List.mem_range]
      rintro _ ⟨n, hn, rfl⟩
      exact hIncreasing n hn
    · have hFirst : a.ticks / 86400000000 = now.day.number + i := ((hMem i (List.mem_range.mp hi) a).mp ha).1
      have hSecond : b.ticks / 86400000000 = now.day.number + j := ((hMem j (List.mem_range.mp hj) b).mp hb).1
      omega
  · simp only [List.mem_flatten, List.mem_map, List.mem_range]
    constructor
    · rintro ⟨_, ⟨n, hn, rfl⟩, hm⟩
      obtain ⟨hDay, hFits⟩ := (hMem n hn m).mp hm
      exact ⟨by omega, hFits⟩
    · rintro ⟨hWeek, hFits⟩
      obtain ⟨n, hn⟩ := Int.eq_ofNat_of_zero_le (by omega : 0 ≤ m.day.number - now.day.number)
      have hBelow : n < 7 := by omega
      exact ⟨ms n, ⟨n, hBelow, rfl⟩, (hMem n hBelow m).mpr ⟨by omega, hFits⟩⟩

/-! ## The search -/

/-- Moved to the time, the task conflicts with nothing. -/
structure Free (t : Task) (existing : List Task) (m : Moment) : Prop where
  found : conflict (t.movedTo m) existing defaultMinutes = .ok none
  apart : ∀ u ∈ existing, ¬ (t.movedTo m).ConflictsWith defaultMinutes u

/-- Moved to the time, the task conflicts with some of the others. -/
structure Taken (t : Task) (existing : List Task) (m : Moment) : Prop where
  found : ∃ c, conflict (t.movedTo m) existing defaultMinutes = .ok (some c)
  shared : ∃ u ∈ existing, (t.movedTo m).ConflictsWith defaultMinutes u

/-- What is suggested when so many times are proposed. -/
inductive Chosen (t : Task) (existing : List Task) (now : Moment) : List Moment → Moment → Prop
  | free {before after : List Moment} {m : Moment} (hBefore : ∀ b ∈ before, Taken t existing b)
      (hFree : Free t existing m) : Chosen t existing now (before ++ m :: after) m
  | taken {m : Moment} {after : List Moment} (hAll : ∀ b ∈ m :: after, Taken t existing b) :
      Chosen t existing now (m :: after) m
  | unproposed : Chosen t existing now [] now

section Search

variable (hMinutes : ∀ n ∈ t.minutes, 1 ≤ n) (hTimed : ∀ u ∈ existing, u.Timed)

include hMinutes hTimed

/-- A check that gives an answer tells whether the time is free. -/
theorem free_or_taken {found : Option Conflict} (hLocal : m.isLocal = true)
    (h : conflict (t.movedTo m) existing defaultMinutes = .ok found) :
    found = none ∧ Free t existing m ∨ found.isSome = true ∧ Taken t existing m := by
  have hReported := reported_eq_filter (timed_movedTo hMinutes hLocal) hTimed (by decide) rfl h
  have hSome := (overlapping_of_conflict rfl h).2
  rw [hReported] at hSome
  cases found with
  | none =>
    refine .inl ⟨rfl, h, fun u hu hConflicts => ?_⟩
    have hMem : u ∈ existing.filter ((t.movedTo m).ConflictsWith defaultMinutes) :=
      List.mem_filter.mpr ⟨hu, decide_eq_true hConflicts⟩
    exact absurd (hSome.mpr (List.ne_nil_of_mem hMem)) Bool.false_ne_true
  | some c =>
    obtain ⟨u, hMem⟩ := List.exists_mem_of_ne_nil _ (hSome.mp rfl)
    obtain ⟨hu, hConflicts⟩ := List.mem_filter.mp hMem
    exact .inr ⟨rfl, ⟨c, h⟩, u, hu, of_decide_eq_true hConflicts⟩

theorem firstFree_cases {found : Option Moment} (hLocal : ∀ m ∈ ms, m.isLocal = true)
    (h : firstFree t existing ms = .ok found) :
    (∃ before m after, ms = before ++ m :: after ∧ found = some m ∧ (∀ b ∈ before, Taken t existing b) ∧
        Free t existing m) ∨
      found = none ∧ ∀ m ∈ ms, Taken t existing m := by
  induction ms with
  | nil =>
    cases h
    exact .inr ⟨rfl, List.forall_mem_nil _⟩
  | cons m ms ih =>
    obtain ⟨hm, hms⟩ := List.forall_mem_cons.mp hLocal
    obtain ⟨first, hFirst, h⟩ := bind_eq_ok.mp h
    rcases free_or_taken hMinutes hTimed hm hFirst with ⟨rfl, hFree⟩ | ⟨hSome, hTaken⟩
    · cases h
      exact .inl ⟨[], m, ms, rfl, rfl, List.forall_mem_nil _, hFree⟩
    · obtain ⟨c, rfl⟩ := Option.isSome_iff_exists.mp hSome
      rcases ih hms h with ⟨before, m', after, rfl, hFound, hBefore, hFree⟩ | ⟨hFound, hAll⟩
      · exact .inl ⟨m :: before, m', after, rfl, hFound, List.forall_mem_cons.mpr ⟨hTaken, hBefore⟩, hFree⟩
      · exact .inr ⟨hFound, List.forall_mem_cons.mpr ⟨hTaken, hAll⟩⟩

theorem chosen_of_firstFree {found : Option Moment} (hLocal : ∀ m ∈ times, m.isLocal = true)
    (hFound : firstFree t existing times = .ok found) :
    Chosen t existing now times (found.getD (times.head?.getD now)) := by
  rcases firstFree_cases hMinutes hTimed hLocal hFound with ⟨before, m, after, rfl, rfl, hBefore, hFree⟩ | ⟨rfl, hAll⟩
  · exact .free hBefore hFree
  · cases times with
    | nil => exact .unproposed
    | cons m after => exact .taken hAll

theorem reckons_firstFree (hLocal : ∀ m ∈ ms, m.isLocal = true) : Reckons (firstFree t existing ms) fun _ => True := by
  induction ms with
  | nil => trivial
  | cons m ms ih =>
    obtain ⟨hm, hms⟩ := List.forall_mem_cons.mp hLocal
    have hMoved := timed_movedTo hMinutes hm
    refine (reckons_conflict hMoved.start hMoved.due fun u hu => ⟨(hTimed u hu).start, (hTimed u hu).due⟩).bind
      fun found _ => ?_
    cases found with
    | none => trivial
    | some c => exact ih hms

theorem exists_conflict_moved (hLocal : m.isLocal = true)
    (hEnds : ∀ u ∈ existing, EndsBy (max defaultMinutes (t.duration defaultMinutes)) last u)
    (hFirst : m.instant + t.duration defaultMinutes * minuteTicks ≤ last)
    (hRoom : last + t.duration defaultMinutes * minuteTicks ≤ Moment.latest.ticks) :
    ∃ found, conflict (t.movedTo m) existing defaultMinutes = .ok found := by
  have hDuration : t.duration (max defaultMinutes (t.duration defaultMinutes)) = t.duration defaultMinutes := by
    unfold Task.duration
    cases t.minutes with
    | none => exact max_self _
    | some n => rfl
  have hOwn : EndsBy (max defaultMinutes (t.duration defaultMinutes)) last (t.movedTo m) := by
    rintro _ ⟨⟩
    change m.instant + t.duration (max defaultMinutes (t.duration defaultMinutes)) * minuteTicks ≤ last
    rwa [hDuration]
  exact exists_conflict (timed_movedTo hMinutes hLocal) hTimed (by decide) rfl (List.forall_mem_cons.mpr ⟨hOwn, hEnds⟩)
    hFirst hRoom

end Search

theorem exists_firstFree (h : ∀ m ∈ ms, ∃ found, conflict (t.movedTo m) existing defaultMinutes = .ok found) :
    ∃ found, firstFree t existing ms = .ok found := by
  induction ms with
  | nil => exact ⟨none, rfl⟩
  | cons m ms ih =>
    obtain ⟨⟨found, hFound⟩, hms⟩ := List.forall_mem_cons.mp h
    refine exists_bind_iff.mpr ⟨found, hFound, ?_⟩
    cases found with
    | none => exact ⟨some m, rfl⟩
    | some c => exact ih hms

/-! ## What has no part -/

theorem firstFree_congr (h : others t existing = others t tasks) (ms : List Moment) :
    firstFree t existing ms = firstFree t tasks ms := by
  have hOthers (m : Moment) : others (t.movedTo m) existing = others (t.movedTo m) tasks := h
  have hConflict (m : Moment) :
      conflict (t.movedTo m) existing defaultMinutes = conflict (t.movedTo m) tasks defaultMinutes := by
    unfold conflict
    rw [hOthers]
  induction ms with
  | nil => rfl
  | cons m ms ih =>
    unfold firstFree
    rw [hConflict, ih]

theorem others_insert (before after : List Task) (h : u.id = t.id ∨ ¬ u.Scheduled) :
    others t (before ++ u :: after) = others t (before ++ after) := by
  have hOut : ¬ (u.id != t.id && u.takesTime) = true := by
    rw [Bool.and_eq_true, bne_iff_ne, Task.takesTime_iff]
    rintro ⟨hOther, hScheduled⟩
    exact h.elim hOther (· hScheduled)
  unfold others
  rw [List.filter_append, List.filter_append, List.filter_cons, if_neg hOut]

/-! ## The suggestion -/

theorem suggest_of_firstFree {found : Option Moment} (hTimes : candidates w t now = .ok times)
    (hFound : firstFree t existing times = .ok found) :
    suggest w t existing now = .ok (found.getD (times.head?.getD now)) := by
  refine bind_eq_ok.mpr ⟨times, hTimes, bind_eq_ok.mpr ⟨found, hFound, ?_⟩⟩
  cases found <;> rfl

/-- The suggestion is the earliest time proposed for the week that is free, or else the first one, or else now. -/
theorem suggest_earliest (hStart : 0 ≤ w.start ∧ w.start ≤ 21) (hDays : now.day.number + 6 ≤ 3652058)
    (hMinutes : ∀ n ∈ t.minutes, 1 ≤ n) (hTimed : ∀ u ∈ existing, u.Timed) :
    ∃ times, candidates w t now = .ok times ∧ Proposed w t now times ∧
      (suggest w t existing now ≠ .error .dateOverflow →
        ∃ m, suggest w t existing now = .ok m ∧ Chosen t existing now times m) ∧
      (∀ last, (∀ u ∈ existing, EndsBy (max defaultMinutes (t.duration defaultMinutes)) last u) →
        (now.day.number + 7) * dayTicks + t.duration defaultMinutes * minuteTicks ≤ last →
        last + t.duration defaultMinutes * minuteTicks ≤ Moment.latest.ticks →
        suggest w t existing now ≠ .error .dateOverflow) ∧
      ∀ u : Task, u.id = t.id ∨ u.status = .completed ∨ u.status = .archived ∨ u.due = none →
        ∀ before after, existing = before ++ after →
          suggest w t (before ++ u :: after) now = suggest w t existing now := by
  obtain ⟨times, hTimes, hProposed⟩ := exists_candidates hStart hDays t
  have hLocal : ∀ m ∈ times, m.isLocal = true := fun m hm => ((hProposed.mem_iff m).mp hm).2.isLocal
  refine ⟨times, hTimes, hProposed, fun hFits => ?chosen, fun last hEnds hFirst hRoom => ?room,
    fun u hOut before after hExisting => ?out⟩
  case chosen =>
    have hSearch : Reckons (firstFree t existing times) fun _ => True := reckons_firstFree hMinutes hTimed hLocal
    cases hFound : firstFree t existing times with
    | error f =>
      have hSuggest : suggest w t existing now = .error f :=
        bind_eq_error.mpr (.inr ⟨times, hTimes, bind_eq_error.mpr (.inl hFound)⟩)
      exact absurd (hSuggest.trans (congrArg _ (hSearch.of_error hFound))) hFits
    | ok found => exact ⟨_, suggest_of_firstFree hTimes hFound, chosen_of_firstFree hMinutes hTimed hLocal hFound⟩
  case room =>
    have hConflicts : ∀ m ∈ times, ∃ found, conflict (t.movedTo m) existing defaultMinutes = .ok found := by
      intro m hm
      have hWeek := ((hProposed.mem_iff m).mp hm).1
      have hDay : m.day.number = m.ticks / dayTicks := rfl
      have hBefore : m.instant ≤ (now.day.number + 7) * dayTicks := by
        rw [Moment.instant_of_isLocal (hLocal m hm)]
        unfold dayTicks at *
        omega
      exact exists_conflict_moved hMinutes hTimed (hLocal m hm) hEnds (by omega) hRoom
    obtain ⟨found, hFound⟩ := exists_firstFree hConflicts
    rw [suggest_of_firstFree hTimes hFound]
    rintro ⟨⟩
  case out =>
    subst hExisting
    have hGone : u.id = t.id ∨ ¬ u.Scheduled := by
      refine hOut.imp_right fun hState hScheduled => ?_
      rcases hState with hDone | hArchived | hUndated
      · exact hScheduled.uncompleted hDone
      · exact hScheduled.unarchived hArchived
      · exact absurd hScheduled.dated (by simp [hUndated])
    unfold suggest
    simp only [firstFree_congr (others_insert before after hGone)]

/-- A run without a time, to be fitted into the week from a Monday on. -/
def jog : Task :=
  { id := "a", title := "Jog", tags := [some "fitness"], createdAt := atMinute 5 }

def breakfast : Task :=
  { id := "b", title := "Breakfast", createdAt := atMinute 5, due := some (atMinute 450) }

theorem jog_after_work : ∃ times, candidates { days := [1, 2, 3, 4, 5] } jog (atMinute 720) = .ok times ∧
    times.length = 10 ∧ Chosen jog [breakfast] (atMinute 720) times (atMinute 1080) ∧
    suggest { days := [1, 2, 3, 4, 5] } jog [jog, breakfast] (atMinute 720) = .ok (atMinute 1080) := by
  have hMinutes : ∀ n ∈ jog.minutes, 1 ≤ n := by decide
  have hTimed : ∀ u ∈ [breakfast], u.Timed := by decide
  have hEnds : ∀ u ∈ [breakfast],
      EndsBy (max defaultMinutes (jog.duration defaultMinutes)) (Moment.latest.ticks - 3600000000) u := by
    unfold EndsBy
    decide
  obtain ⟨times, hTimes, -, hChosen, hRoom, hOut⟩ := @suggest_earliest { days := [1, 2, 3, 4, 5] } jog [breakfast]
    (atMinute 720) (by decide) (by decide) hMinutes hTimed
  obtain ⟨m, hSuggest, hChosen⟩ := hChosen (hRoom _ hEnds (by decide) (by decide))
  have hEvening : suggest { days := [1, 2, 3, 4, 5] } jog [breakfast] (atMinute 720) = .ok (atMinute 1080) := rfl
  cases hEvening.symm.trans hSuggest
  refine ⟨times, hTimes, ?_, hChosen, (hOut jog (.inl rfl) [] [breakfast] rfl).trans hEvening⟩
  cases hTimes
  rfl

end Agenda.Proposal
