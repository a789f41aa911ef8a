import Agenda.Proofs.Time.Moment
import Agenda.Window.Basic

/-! # Windows that share time

For windows without offsets that are not empty, the three ways of overlapping come down to one:
each window starts before the other stops. The windows of tasks with local times and positive
durations are of this kind, so the tasks a candidate overlaps are those whose windows share time
with its own.
-/

namespace Agenda

/-- Times without an offset and an estimate of at least a minute. Every validated task without
offsets is of this kind. -/
structure Task.Timed (t : Task) : Prop where
  start : ∀ m ∈ t.start, m.isLocal = true
  due : ∀ m ∈ t.due, m.isLocal = true
  minutes : ∀ n ∈ t.minutes, 1 ≤ n

instance (t : Task) : Decidable t.Timed :=
  decidable_of_iff ((∀ m ∈ t.start, m.isLocal = true) ∧ (∀ m ∈ t.due, m.isLocal = true) ∧ ∀ n ∈ t.minutes, 1 ≤ n)
    ⟨fun h => ⟨h.1, h.2.1, h.2.2⟩, fun h => ⟨h.start, h.due, h.minutes⟩⟩

namespace Window

def Meets (a b : Window) : Prop :=
  a.start.instant < b.stop.instant ∧ b.start.instant < a.stop.instant

instance (a b : Window) : Decidable (a.Meets b) :=
  inferInstanceAs (Decidable (_ ∧ _))

/-- The window starts before it stops. -/
def Nonempty (w : Window) : Prop :=
  w.start.lt w.stop = .ok true

/-- The three ways of overlapping are one, for windows that can be compared. -/
theorem overlaps_of_nonempty {a b : Window} (ha : a.Nonempty) (hb : b.Nonempty) :
    a.overlaps b = if Moment.comparable a.start b.start then .ok (decide (a.Meets b)) else .error .zoneMismatch := by
  obtain ⟨hKind, hLess⟩ := Moment.lt_eq_true.mp ha
  obtain ⟨hKind', hLess'⟩ := Moment.lt_eq_true.mp hb
  by_cases hSame : Moment.comparable a.start b.start = true
  · rw [if_pos hSame]
    rw [Moment.comparable_iff] at hKind hKind' hSame
    unfold overlaps Moment.le Moment.lt Moment.comparable
    simp only [← hKind, ← hKind', hSame, beq_self_eq_true, if_true, Attempt.ok_bind, decide_eq_true_eq, pure, Except.pure]
    split_ifs <;> refine congrArg Except.ok (Bool.eq_iff_iff.mpr ?_) <;>
      simp only [decide_eq_true_eq, Bool.false_eq_true, true_iff, false_iff] <;>
      unfold Meets <;> omega
  · have hFirst : b.start.le a.start = .error .zoneMismatch :=
      if_neg fun h => hSame (Moment.comparable_iff.mpr (Moment.comparable_iff.mp h).symm)
    rw [if_neg hSame, overlaps, hFirst]
    rfl

theorem overlaps_eq_true {a b : Window} (ha : a.Nonempty) (hb : b.Nonempty) :
    a.overlaps b = .ok true ↔ a.start.lt b.stop = .ok true ∧ b.start.lt a.stop = .ok true := by
  have hKind := Moment.comparable_iff.mp (Moment.lt_eq_true.mp ha).1
  have hKind' := Moment.comparable_iff.mp (Moment.lt_eq_true.mp hb).1
  have hAcross : a.start.comparable b.stop = true ↔ a.start.comparable b.start = true := by
    rw [Moment.comparable_iff, Moment.comparable_iff, hKind']
  have hAcross' : b.start.comparable a.stop = true ↔ a.start.comparable b.start = true := by
    rw [Moment.comparable_iff, Moment.comparable_iff, ← hKind, eq_comm]
  rw [overlaps_of_nonempty ha hb, Moment.lt_eq_true, Moment.lt_eq_true, hAcross, hAcross']
  split
  · rename_i hSame
    simp only [hSame, true_and, Except.ok.injEq, decide_eq_true_iff]
    exact Iff.rfl
  · rename_i hOther
    simp [hOther]

theorem overlaps_comm {a b : Window} (ha : a.Nonempty) (hb : b.Nonempty) : a.overlaps b = b.overlaps a := by
  have hSame : a.start.comparable b.start = b.start.comparable a.start := BEq.comm
  have hMeets : a.Meets b ↔ b.Meets a := And.comm
  rw [overlaps_of_nonempty ha hb, overlaps_of_nonempty hb ha, hSame, decide_eq_decide.mpr hMeets]

/-- A window without offsets that starts before it stops. -/
structure Proper (w : Window) : Prop where
  start : w.start.isLocal = true
  stop : w.stop.isLocal = true
  nonempty : w.start.instant < w.stop.instant

theorem overlaps_of_proper {a b : Window} (ha : a.Proper) (hb : b.Proper) :
    a.overlaps b = .ok (decide (a.Meets b)) := by
  rw [overlaps_of_nonempty, if_pos (Moment.comparable_of_isLocal ha.start hb.start)]
  · exact Moment.lt_eq_true.mpr ⟨Moment.comparable_of_isLocal ha.start ha.stop, ha.nonempty⟩
  · exact Moment.lt_eq_true.mpr ⟨Moment.comparable_of_isLocal hb.start hb.stop, hb.nonempty⟩

theorem Meets.symm {a b : Window} (h : a.Meets b) : b.Meets a :=
  ⟨h.2, h.1⟩

end Window

/-! ## Windows of tasks -/

theorem Moment.span_eq_ok {n r : Int} (h : span n = .ok r) : r = n := by
  unfold span at h
  split at h
  · cases h
    rfl
  · cases h

namespace Task

variable {t : Task} {default : Int}

/-- A window stretches from the start of the task for its duration. Whenever its end is in range,
so is the duration. -/
theorem window_eq_ok {w : Window} : t.window default = .ok w ↔
    t.effectiveStart = some w.start ∧ w.start.plus (t.duration default * minuteTicks) = .ok w.stop := by
  unfold window
  rw [Attempt.bind_eq_ok]
  constructor
  · rintro ⟨length, hLength, h⟩
    rw [Moment.span_eq_ok hLength] at h
    cases hStart : t.effectiveStart with
    | none =>
      rw [hStart] at h
      cases h
    | some start =>
      rw [hStart] at h
      obtain ⟨stop, hStop, hw⟩ := Attempt.bind_eq_ok.mp h
      cases Attempt.pure_eq_ok.mp hw
      exact ⟨rfl, hStop⟩
  · rintro ⟨hStart, hStop⟩
    have hTicks := (Moment.plus_eq_ok.mp hStop).1
    have hLow := w.start.inRange
    have hHigh := w.stop.inRange
    refine ⟨t.duration default * minuteTicks, if_pos (by omega), ?_⟩
    rw [hStart]
    exact Attempt.bind_eq_ok.mpr ⟨w.stop, hStop, rfl⟩

theorem stop_of_window {w : Window} (h : t.window default = .ok w) :
    w.stop.instant = w.start.instant + t.duration default * minuteTicks :=
  Moment.instant_plus (window_eq_ok.mp h).2

/-- A task that starts has a window, unless it stops beyond the last year. -/
theorem exists_window {m : Moment} (hStart : t.effectiveStart = some m) (hLocal : m.isLocal = true)
    (hPos : 0 < t.duration default)
    (hRoom : m.instant + t.duration default * minuteTicks < 315537897600000000) :
    ∃ w, t.window default = .ok w ∧ w.start = m := by
  have hLow := m.inRange
  rw [Moment.instant_of_isLocal hLocal] at hRoom
  obtain ⟨stop, hStop⟩ : ∃ stop, m.plus (t.duration default * minuteTicks) = .ok stop := by
    apply Moment.exists_plus
    · unfold minuteTicks
      omega
    · exact hRoom
  exact ⟨⟨m, stop⟩, window_eq_ok.mpr ⟨hStart, hStop⟩, rfl⟩

namespace Timed

theorem duration_pos (ht : t.Timed) (hd : 0 < default) : 0 < t.duration default := by
  unfold duration
  cases hMinutes : t.minutes with
  | none => exact hd
  | some n =>
    have := ht.minutes n hMinutes
    simp only [Option.getD_some]
    omega

theorem isLocal_start (ht : t.Timed) {m : Moment} (h : t.effectiveStart = some m) :
    m.isLocal = true := by
  unfold effectiveStart at h
  cases hStart : t.start with
  | none =>
    rw [hStart] at h
    exact ht.due m h
  | some s =>
    rw [hStart] at h
    exact ht.start m (hStart.trans h)

theorem proper_window (ht : t.Timed) (hd : 0 < default) {w : Window}
    (h : t.window default = .ok w) : w.Proper := by
  obtain ⟨hStart, hStop⟩ := window_eq_ok.mp h
  have hLocal := ht.isLocal_start hStart
  have hInstant := stop_of_window h
  have hPos := ht.duration_pos hd
  refine ⟨hLocal, (Moment.isLocal_plus hStop).trans hLocal, ?_⟩
  unfold minuteTicks at hInstant
  omega

end Timed

end Task

/-! ## Overlapping tasks -/

namespace Window

/-- A task whose window shares time with a given one. -/
def clashes (w : Window) (default : Int) (t : Task) : Bool :=
  match t.window default with
  | .ok v => w.Meets v
  | .error _ => false

variable {w : Window} {default : Int} {candidate : Task} {existing ts : List Task}

theorem clashes_iff {t : Task} :
    w.clashes default t = true ↔ ∃ v, t.window default = .ok v ∧ w.Meets v := by
  unfold clashes
  cases t.window default <;> simp

theorem overlapping_eq_ok (hc : candidate.Timed) (he : ∀ t ∈ existing, t.Timed) (hd : 0 < default)
    (hw : candidate.window default = .ok w) :
    overlapping candidate existing default = .ok ts ↔
      (∀ t ∈ existing, ∃ v, t.window default = .ok v) ∧ ts = existing.filter (w.clashes default) := by
  have hTest : ∀ t ∈ existing, ∀ v, t.window default = .ok v →
      (do w.overlaps (← t.window default)) = .ok (w.clashes default t) := by
    intro t ht v hv
    rw [hv, Attempt.ok_bind, overlaps_of_proper (hc.proper_window hd hw) ((he t ht).proper_window hd hv)]
    simp only [clashes, hv]
  unfold overlapping
  rw [hw, Attempt.ok_bind, Attempt.filterM_eq_ok]
  constructor
  · rintro ⟨hOk, rfl⟩
    have hWindow : ∀ t ∈ existing, ∃ v, t.window default = .ok v := by
      intro t ht
      obtain ⟨b, hb⟩ := hOk t ht
      obtain ⟨v, hv, _⟩ := Attempt.bind_eq_ok.mp hb
      exact ⟨v, hv⟩
    refine ⟨hWindow, List.filter_congr fun t ht => ?_⟩
    obtain ⟨v, hv⟩ := hWindow t ht
    rw [hTest t ht v hv]
    simp
  · rintro ⟨hWindow, rfl⟩
    refine ⟨fun t ht => ?_, List.filter_congr fun t ht => ?_⟩
    all_goals
      obtain ⟨v, hv⟩ := hWindow t ht
      rw [hTest t ht v hv]
    · exact ⟨_, rfl⟩
    · simp

theorem window_of_overlapping (h : overlapping candidate existing default = .ok ts) :
    ∃ w, candidate.window default = .ok w := by
  obtain ⟨w, hw, _⟩ := Attempt.bind_eq_ok.mp h
  exact ⟨w, hw⟩

end Window

end Agenda
